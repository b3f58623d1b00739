import BetaStepper.Term.Substitution

/-! # Redexes and single steps

A redex is an application of an abstraction. Numbering labels the redexes of a term 1, 2, … in pre-order, function
before argument; no strategy is imposed, and the caller names the redex to contract by its label. Labels go stale
with every contraction, so a step numbers the result anew. -/

namespace BetaStepper

/-- The parts of an application whose function is an abstraction. -/
structure Redex where
  param : String
  body : Term
  binder : Provenance
  arg : Term
  label : Option Int
  origin : Provenance
deriving DecidableEq

namespace Redex

def term (redex : Redex) : Term :=
  .app (.lam redex.param redex.body redex.binder) redex.arg redex.label redex.origin

/-- The contractum, with the copies of the argument marked as coming from `source`. -/
def contractum (redex : Redex) (source : Option Int) : Term :=
  redex.body.substitute redex.param redex.arg true source

/-- The occurrences of the parameter that contraction replaces. -/
def parameterUses (redex : Redex) : List Term := redex.body.uses redex.param

/-- Whether contraction keeps a copy of the argument. -/
def usesArgument (redex : Redex) : Bool := redex.body.occursFree redex.param

end Redex

namespace Term

/-- The term itself as a redex. -/
def redexHere? : Term → Option Redex
  | app (lam param body binder) arg label origin => some { param, body, binder, arg, label, origin }
  | _ => none

/-- The redexes of the term in pre-order. -/
def redexes : Term → List Redex
  | var _ _ => []
  | lam _ body _ => body.redexes
  | app func arg label origin => (app func arg label origin).redexHere?.toList ++ (func.redexes ++ arg.redexes)
  | hole => []

def redexCount (term : Term) : Nat := term.redexes.length

def isNormal (term : Term) : Bool := term.redexCount == 0

/-- Labels the redexes in pre-order from `next` on and unlabels every other application. Gives the first label
that is left. -/
def numberFrom (next : Nat) : Term → Term × Nat
  | var name origin => (var name origin, next)
  | lam param body origin =>
    let numbered := body.numberFrom next
    (lam param numbered.1 origin, numbered.2)
  | app func arg _ origin =>
    let label : Option Int := if func.isAbstraction then some next else none
    let numberedFunc := func.numberFrom (if func.isAbstraction then next + 1 else next)
    let numberedArg := arg.numberFrom numberedFunc.2
    (app numberedFunc.1 numberedArg.1 label origin, numberedArg.2)
  | hole => (hole, next)

def number (term : Term) : Term := (term.numberFrom 1).1

/-- The first redex in pre-order that carries `label`. -/
def redexLabelled? (label : Option Int) : Term → Option Redex
  | var _ _ => none
  | lam _ body _ => body.redexLabelled? label
  | app func arg own origin =>
    match (app func arg own origin).redexHere?.filter (·.label = label) with
    | some redex => some redex
    | none =>
      match func.redexLabelled? label with
      | some redex => some redex
      | none => arg.redexLabelled? label
  | hole => none

/-- The term with the first redex that carries `label` contracted, if there is one. -/
def contract? (label : Option Int) : Term → Option Term
  | var _ _ => none
  | lam param body origin => (body.contract? label).map (lam param · origin)
  | app func arg own origin =>
    match (app func arg own origin).redexHere?.filter (·.label = label) with
    | some redex => some (redex.contractum label)
    | none =>
      match func.contract? label with
      | some newFunc => some (app newFunc arg own origin)
      | none => (arg.contract? label).map (app func · own origin)
  | hole => none

/-- The term with the first redex that carries `label` contracted; a label that no redex carries changes nothing. -/
def reduceAt (term : Term) (label : Option Int) : Term := (term.contract? label).getD term

/-- The term with all provenance forgotten. Labels are kept. -/
def clearMarks : Term → Term
  | var name _ => var name {}
  | lam param body _ => lam param body.clearMarks {}
  | app func arg label _ => app func.clearMarks arg.clearMarks label {}
  | hole => hole

/-- The freshly numbered and unmarked term in which a step looks for its redex. -/
def prepared (term : Term) : Term := term.clearMarks.number

/-- One step: contracts the redex that `label` names in the numbering of the term, and numbers the result. -/
def step (term : Term) (label : Option Int) : Term := (term.prepared.reduceAt label).number

end Term

end BetaStepper
