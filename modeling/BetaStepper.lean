import BetaStepper.Handler.Nested
import BetaStepper.Main
import BetaStepper.Proofs.AlphaEquivalence
import BetaStepper.Proofs.BetaStep
import BetaStepper.Proofs.Capture
import BetaStepper.Proofs.Convergence
import BetaStepper.Proofs.Linking
import BetaStepper.Proofs.Lookup
import BetaStepper.Proofs.Numerals
import BetaStepper.Proofs.Quoting
import BetaStepper.Proofs.Recorded
import BetaStepper.Proofs.Reload
import BetaStepper.Proofs.Spans
import BetaStepper.Proofs.Answers
import BetaStepper.Proofs.Failures
import BetaStepper.Proofs.Escapes
import BetaStepper.Proofs.Printed
import BetaStepper.Proofs.Decoration
import BetaStepper.Proofs.Nesting
import BetaStepper.Proofs.Viability
import BetaStepper.Proofs.Footprint
import BetaStepper.Proofs.Idle
import BetaStepper.Proofs.Columns
import BetaStepper.Proofs.Marks
import BetaStepper.Proofs.Placement
import BetaStepper.Proofs.Prompts
import BetaStepper.Proofs.Termination
import BetaStepper.Proofs.Freshness
import BetaStepper.Proofs.Occurrences
