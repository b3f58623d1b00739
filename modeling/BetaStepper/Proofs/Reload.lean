import BetaStepper.Proofs.Metadata
import BetaStepper.Proofs.RoundTrip
import BetaStepper.Proofs.Runs

/-! # Saving a term as text

The current term of a session can be written down and loaded into a new session, and nothing but the history and the
marks of the last step is lost: the new session answers every reduction as the old one does. The text reads back
because all names stay names of the grammar, the labels come back because they are those of the numbering, and a step
does not see the marks. -/

namespace BetaStepper

namespace Term

theorem clearMarks_numberFrom (next : Nat) (term : Term) :
    (term.numberFrom next).1.clearMarks = (term.bare.numberFrom next).1 := by
  induction term generalizing next with
  | var | hole => rfl
  | lam _ _ _ bodyHypothesis => simp only [numberFrom, clearMarks, bare, bodyHypothesis]
  | app func arg _ _ funcHypothesis argHypothesis =>
    -- the argument is numbered from where the function ends, which the bare function tells as well
    simp only [numberFrom, clearMarks, bare, isAbstraction_bare, numberFrom_snd, redexCount_bare, funcHypothesis,
      argHypothesis]

/-- The shape and the names of a numbered term determine all of it but the marks. -/
theorem number_bare {term : Term} (numbered : term.number = term) : term.bare.number = term.clearMarks := by
  rw [number, ← clearMarks_numberFrom, ← number, numbered]

end Term

namespace Session

/-- Two sessions answer alike: both go on to the same term, or both refuse and say the same. -/
inductive SameAnswer : Except Refusal Session → Except Refusal Session → Prop where
  | accepted {next other : Session} {term : Term} :
      next.current = some term → other.current = some term → SameAnswer (.ok next) (.ok other)
  | refused {refusal other : Refusal} : refusal.signal = other.signal → SameAnswer (.error refusal) (.error other)

/-- What a reduction answers depends on the current term alone, and not on its marks. -/
theorem sameAnswer_of_clearMarks {session other : Session} {term : Term} (isCurrent : session.current = some term)
    (otherCurrent : other.current = some term.clearMarks) (label : Int) :
    SameAnswer (session.reduce label) (other.reduce label) := by
  have sameCount : term.clearMarks.redexCount = term.redexCount :=
    Term.redexCount_eq_of_bare_eq (Term.bare_clearMarks term)
  have sameText : term.text = term.clearMarks.text :=
    Term.print_eq_of_bare_eq (Term.bare_clearMarks term).symm "λ"
  have sameStep : Guarded.step term.clearMarks (some label) = Guarded.step term (some label) :=
    Guarded.step_eq_of_bare_eq (Term.bare_clearMarks term) (some label)
  -- both sessions make the same checks on the same values, one after the other
  rw [reduce, reduce, redexCount, redexCount, isCurrent, otherCurrent]
  simp only [sameCount, sameStep]
  split
  · exact .refused (by rw [Refusal.signal, Refusal.signal, sameText])
  · split
    · cases Guarded.step term (some label) with
      | error => exact .refused rfl
      | ok next =>
        have shows (session : Session) :
            current { session with history := session.history ++ [{ term := next, reduced := some label }] } =
              some next := by
          simp [current]
        exact .accepted (shows session) (shows other)
    · exact .refused rfl

/-- The text of the current term of any session can be loaded into a new session, which then stands at the same term
without marks and answers every reduction as the first session does. -/
theorem reloaded_session_answers_alike {operations : List Operation} {term : Term}
    (isCurrent : (performAll operations).current = some term) :
    Guarded.print "λ" term = .ok term.text ∧
      ∃ fresh, load {} term.text = .ok fresh ∧ fresh.current = some term.clearMarks ∧
        ∀ label, SameAnswer ((performAll operations).reduce label) (fresh.reduce label) := by
  obtain ⟨_, start, labels, _, parsed, stepped, fits⟩ := reachable_current isCurrent
  have numbered : term.number = term := Term.number_steps? (Term.number_number start) stepped
  have named : term.namedBy Lexeme.isName = true := by
    apply Term.namedBy_steps? primable_isName _ stepped
    rw [Term.namedBy_eq_of_bare_eq (Term.bare_number start)]
    exact Term.namedBy_of_parse parsed
  have readsBack : Term.parse term.text = .ok term.bare := Term.parse_print .lambda named
  have numbers : Guarded.number term.bare = .ok term.clearMarks :=
    Guarded.number_eq_ok.2 ⟨fits.of_bare_eq (Term.bare_bare term).symm, Term.number_bare numbered⟩
  refine ⟨Guarded.print_eq_ok.2 ⟨fits, rfl⟩, _, load_eq_ok.2 ⟨_, _, readsBack, numbers, rfl⟩, rfl, ?_⟩
  intro label
  exact sameAnswer_of_clearMarks isCurrent rfl label

/-- Loads `(λx.λy.x (x y)) y`, whose step marks two nodes and gives a binder a new name, and takes that step twice. -/
def renamingRun : List Operation := [.load " (λx.λy.x (x y)) y", .reduce 1, .undo, .reduce 1]

theorem reloaded_after_renaming :
    ∃ term, (performAll renamingRun).current = some term ∧ term.text = "λy'.(y (y y'))" ∧ term.clearMarks ≠ term ∧
      ∃ fresh, load {} term.text = .ok fresh ∧ fresh.current = some term.clearMarks ∧
        ∀ label, SameAnswer ((performAll renamingRun).reduce label) (fresh.reduce label) := by
  obtain ⟨term, isCurrent, text, marked⟩ : ∃ term, (performAll renamingRun).current = some term ∧
      term.text = "λy'.(y (y y'))" ∧ term.clearMarks ≠ term := by
    refine ⟨.lam "y'" (.app (.var "y" ⟨true, some 1⟩)
      (.app (.var "y" ⟨true, some 1⟩) (.var "y'" {}) none {}) none {}) {}, ?_, ?_, ?_⟩
    · decide +kernel
    · decide
    · decide
  exact ⟨term, isCurrent, text, marked, (reloaded_session_answers_alike isCurrent).2⟩

end Session

end BetaStepper
