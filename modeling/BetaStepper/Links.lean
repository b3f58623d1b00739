import BetaStepper.Term.Redex

/-! # Links between the argument of a step and its copies

Contracting a redex leaves copies of its argument behind, one for each occurrence of the parameter. The copies are
marked with the label of the redex, so the term before a step and the term after it together tell where the
argument went. A label that no redex carries simply has nothing linked to it.

The steps of a sequence are linked one after another. They may come from outside, in forms that are checked first. -/

namespace BetaStepper

namespace Term

/-- The outermost marked nodes in pre-order. -/
def markedRoots : Term → List Term
  | var name origin => if origin.marked then [var name origin] else []
  | lam param body origin => if origin.marked then [lam param body origin] else body.markedRoots
  | app func arg label origin =>
    if origin.marked then [app func arg label origin] else func.markedRoots ++ arg.markedRoots
  | hole => []

/-- The outermost marked nodes that came from `source`. -/
def copiesFrom (term : Term) (source : Option Int) : List Term :=
  term.markedRoots.filter (·.origin.source = source)

/-- The outermost marked nodes grouped by where they came from, in the order in which the sources are first met. -/
def substitutions (term : Term) : List (Option Int × List Term) :=
  (term.markedRoots.map (·.origin.source)).eraseDups.map fun source => (source, term.copiesFrom source)

end Term

/-- What a step at the redex labelled `source` did: the redex, if there was one, and the copies of its argument. -/
structure Links where
  source : Option Int
  redex : Option Redex
  copies : List Term

namespace Links

/-- Links the redex labelled `source` in `before` to the copies of its argument in `after`. -/
def between (before after : Term) (source : Option Int) : Links where
  source := source
  redex := before.redexLabelled? source
  copies := after.copiesFrom source

def argument (links : Links) : Option Term := links.redex.map (·.arg)

def hasCopies (links : Links) : Bool := !links.copies.isEmpty

def argumentUsed (links : Links) : Bool := links.redex.any (·.usesArgument)

def parameterUses (links : Links) : List Term :=
  match links.redex with
  | some redex => redex.parameterUses
  | none => []

end Links

/-! ## Steps -/

/-- A term of a reduction sequence and the label that was reduced to reach it. -/
structure Step where
  term : Term
  reduced : Option Int := none

/-- A step together with the links to the step before it. The first step, and a step that names no redex, has
none. -/
structure LinkedStep where
  step : Step
  links : Option Links

namespace LinkedStep

/-- Links `step` to the term before it. -/
def after (before : Term) (step : Step) : LinkedStep where
  step := step
  links := step.reduced.map fun label => Links.between before step.term (some label)

/-- Links each step of a sequence to the one before it, given the term before the first of them. -/
def chainFrom (before : Term) : List Step → List LinkedStep
  | [] => []
  | step :: rest => after before step :: chainFrom step.term rest

def chain : List Step → List LinkedStep
  | [] => []
  | step :: rest => { step, links := none } :: chainFrom step.term rest

end LinkedStep

/-! ## Steps as they are handed in

A step comes as a row of one or two cells, the term and the label that was reduced, or as a record with named
fields of which only the term is required. -/

inductive StepForm where
  | row (cells : Nat) (term : Term) (reduced : Option Int)
  | record (term : Option Term) (reduced : Option Int)

namespace StepForm

inductive Fault where
  | wrongWidth
  | missingTerm
  | notATerm
deriving DecidableEq

def check (term : Term) (reduced : Option Int) : Except Fault Step :=
  match term with
  | .hole => .error .notATerm
  | term => .ok { term, reduced }

def read : StepForm → Except Fault Step
  | row cells term reduced => if cells = 1 ∨ cells = 2 then check term reduced else .error .wrongWidth
  | record none _ => .error .missingTerm
  | record (some term) reduced => check term reduced

end StepForm

end BetaStepper
