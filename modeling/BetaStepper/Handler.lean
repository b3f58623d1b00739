import BetaStepper.Defect
import BetaStepper.Diagnostic
import BetaStepper.Log
import BetaStepper.Term.Visit

/-! # Error handlers

A handler stands around a piece of work. What the work raises is reported by the innermost handler; a diagnostic, a
term that is too deep and an interrupt end there, while a defect goes on outwards, marked as reported so that no
other handler reports it again. A fatal handler turns whatever it reports, and every defect that passes it, into an
exit. -/

namespace BetaStepper

/-- With what a program exits: a status, or a text to be shown. -/
inductive ExitCode where
  | status (code : Nat)
  | text (text : String)
deriving DecidableEq

/-- What interrupts a piece of work. -/
inductive Signal where
  | diagnostic (diagnostic : Diagnostic)
  | tooDeep
  | interrupt
  | exit (code : ExitCode)
  | defect (defect : Defect) (reported : Bool)
deriving DecidableEq

def Diagnostic.Fault.defect : Diagnostic.Fault → Defect
  | template fault => fault.defect
  | noSubject => ⟨"IndexError", "list index out of range"⟩

namespace Fault

def signal : Fault → Signal
  | notATerm => .defect ⟨"TypeError", "not a λ-term: None"⟩ false
  | noProvenance => .defect ⟨"AttributeError", "a hole has no provenance"⟩ false
  | tooDeep => .tooDeep

end Fault

namespace Signal

/-- The signal for a diagnostic, or for the defect in making it. -/
def ofDiagnostic : Except Diagnostic.Fault Diagnostic → Signal
  | .ok made => .diagnostic made
  | .error fault => .defect fault.defect false

end Signal

structure Handler where
  fatal : Bool := true
  color : Bool := true
  errors : Nat := 0
deriving DecidableEq

namespace Handler

/-- What a handler leaves behind: itself, what it printed and logged, and the signal that goes on. -/
structure Report where
  handler : Handler
  out : Styled := []
  log : List Log.Event := []
  signal : Option Signal := none

def warn (handler : Handler) (diagnostic : Diagnostic) : Report where
  handler := handler
  out := diagnostic.report .warning
  log := [.warned diagnostic.text]

/-- Counts and prints an error. A fatal handler exits. -/
def throw (handler : Handler) (diagnostic : Diagnostic) : Report where
  handler := { handler with errors := handler.errors + 1 }
  out := diagnostic.report .error
  log := [.failed diagnostic.text]
  signal := if handler.fatal then some (.exit (.status 1)) else none

def interrupted : Diagnostic :=
  .about (Styled.plain "keyboard interrupt") "" { explained := false }

def tooDeep : Diagnostic :=
  .about (Styled.plain "λ-term is too deeply nested: maximum recursion depth exceeded") "" {}

def unknown (defect : Defect) : Diagnostic :=
  let subject := defect.kind ++ ": " ++ defect.text
  .about [{ text := "unknown error: '" }, Diagnostic.snippet subject, { text := "'" }] subject { internal := true }

/-- Ends the work that the handler stands around, with the signal that interrupted it. -/
def leave (handler : Handler) : Option Signal → Report
  | none => { handler }
  | some (.defect defect true) =>
    { handler, signal := if handler.fatal then some (.exit (.status 1)) else some (.defect defect true) }
  | some .interrupt => handler.throw interrupted
  | some (.exit code) => { handler, signal := some (.exit code) }
  | some .tooDeep => handler.throw tooDeep
  | some (.diagnostic diagnostic) => handler.throw diagnostic
  | some (.defect defect false) =>
    let report := handler.throw (unknown defect)
    { report with signal := report.signal.or (some (.defect defect true)) }

end Handler

end BetaStepper
