import BetaStepper.Guarded
import BetaStepper.Handler
import BetaStepper.Term.Parser
import BetaStepper.Text.Basic

/-! # Sessions

A session holds the text that was loaded and every step taken from it, oldest first. Each operation either gives
the next session or says why it is refused, in which case nothing has happened. -/

namespace BetaStepper

structure Session where
  source : Option String := none
  history : List Step := []

namespace Session

inductive Refusal where
  | unreadable (text : String) (error : ParseError)
  | tooDeep
  | nothingLoaded
  | normalForm (term : Term)
  | outOfRange (count : Nat) (label : Int)

/-- How a refusal is raised. -/
def Refusal.signal : Refusal → Signal
  | unreadable text error => .ofDiagnostic (Diagnostic.atPosition (error.message text) text error.position)
  | tooDeep => .tooDeep
  | nothingLoaded => .diagnostic (.about (Styled.plain "no λ-term loaded") "" { explained := false })
  | normalForm term =>
    .diagnostic (.about [{ text := "'" }, Diagnostic.snippet term.text, { text := "' is in normal form" }]
      term.text { explained := false })
  | outOfRange count label =>
    .diagnostic (.about
      (Styled.plain ("redex must be between 1 and " ++ toString count ++ ", got " ++ toString label)) ""
      { explained := false })

def loaded (session : Session) : Bool := !session.history.isEmpty

def current (session : Session) : Option Term := session.history.getLast?.map (·.term)

def redexCount (session : Session) : Nat :=
  match session.current with
  | some term => term.redexCount
  | none => 0

def isNormal (session : Session) : Bool := session.loaded && session.redexCount == 0

/-- Starts a new history with the term that `text` denotes. A parsed term has no holes, so nesting is the only way
in which numbering it fails. -/
def load (_ : Session) (text : String) : Except Refusal Session :=
  match Term.parse text with
  | .error error => .error (.unreadable text error)
  | .ok term =>
    match Guarded.number term with
    | .error _ => .error .tooDeep
    | .ok numbered => .ok { source := some (Text.strip text), history := [{ term := numbered }] }

/-- Contracts the redex with the given label in the current term and records the step. -/
def reduce (session : Session) (label : Int) : Except Refusal Session :=
  match session.current with
  | none => .error .nothingLoaded
  | some term =>
    let count := session.redexCount
    if count = 0 then .error (.normalForm term)
    else if 1 ≤ label ∧ label ≤ count then
      match Guarded.step term (some label) with
      | .error _ => .error .tooDeep
      | .ok next => .ok { session with history := session.history ++ [{ term := next, reduced := some label }] }
    else .error (.outOfRange count label)

/-- Takes the last step back, if one has been taken. -/
def undo (session : Session) : Option Session :=
  if session.history.length ≤ 1 then none else some { session with history := session.history.dropLast }

def reset (_ : Session) : Session := {}

/-- The links of the last step, if one has been taken. -/
def lastLinks (session : Session) : Option (Guarded.Result Links) :=
  match session.history.reverse with
  | last :: before :: _ => some (Guarded.fullLinks before.term last.term last.reduced)
  | _ => none

def chain (session : Session) : Guarded.Result (List LinkedStep) := Guarded.chain session.history

/-! ## What is logged -/

def loadLog (session : Session) : List Log.Event :=
  match session.current with
  | some term => [.loaded term session.redexCount]
  | none => []

/-- What happens inside a term when the redex with the given label is contracted in it. -/
def contractionLog (term : Term) (label : Int) : List Log.Event :=
  match term.prepared.redexLabelled? (some label) with
  | some redex =>
    .contracting label redex.term ::
      (redex.body.renamings redex.param redex.arg).map fun (param, fresh) => .renamed param fresh
  | none => []

/-- What is logged for a step from `session` that ends as given. A step that fails because its result is too deep
has contracted its redex already. -/
def reduceLog (session : Session) (label : Int) : Except Refusal Session → List Log.Event
  | .ok next =>
    match session.current, next.current with
    | some before, some after =>
      contractionLog before label ++ [.stepped (next.history.length - 1) label after]
    | _, _ => []
  | .error .tooDeep =>
    match session.current with
    | some before => contractionLog before label
    | none => []
  | .error _ => []

def undoLog (session : Session) : List Log.Event :=
  match session.current with
  | some term => [.undone term]
  | none => []

end Session

end BetaStepper
