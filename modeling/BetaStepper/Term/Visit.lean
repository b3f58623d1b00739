import BetaStepper.Links

/-! # What a traversal meets

A traversal can fail in two ways: it meets a place where no term stands, or it descends further than the nesting
limit allows. Both depend on the order in which it visits the nodes and on where it may stop early, not on what it
computes. So the operations on terms are total functions elsewhere, and this module says for each of them what its
traversal meets; `Guarded` puts the two together.

Descending into an abstraction body or an argument uses up one level of `room`; going along a chain of
applications uses none. -/

namespace BetaStepper

inductive Fault where
  /-- A traversal met a hole. -/
  | notATerm
  /-- The provenance of a hole was asked for. -/
  | noProvenance
  /-- The term nests deeper than the limit. -/
  | tooDeep
deriving DecidableEq

/-- How many abstraction bodies and arguments may enclose a node. -/
def nestingLimit : Nat := 1000

namespace Visit

abbrev Outcome := Except Fault Unit

/-- Enters an abstraction body or an argument. -/
def descend (room : Nat) (inner : Nat → Outcome) : Outcome :=
  match room with
  | 0 => .error .tooDeep
  | rest + 1 => inner rest

/-- Visits every node, and holes are the given fault, if any. -/
def everywhere (atHole : Outcome) (room : Nat) : Term → Outcome
  | .var _ _ => .ok ()
  | .lam _ body _ => descend room fun room => everywhere atHole room body
  | .app func arg _ _ => do
    everywhere atHole room func
    descend room fun room => everywhere atHole room arg
  | .hole => atHole

/-- Visits every node of a term that must have no holes. -/
def all (room : Nat) (term : Term) : Outcome := everywhere (.error .notATerm) room term

/-- Visits every node and passes over holes. -/
def lenient (room : Nat) (term : Term) : Outcome := everywhere (.ok ()) room term

/-- Looks for a free occurrence of `name` and stops at the first. -/
def occursFree (name : String) (room : Nat) : Term → Outcome
  | .var _ _ => .ok ()
  | .lam param body _ => if param = name then .ok () else descend room fun room => occursFree name room body
  | .app func arg _ _ => do
    occursFree name room func
    if func.occursFree name then .ok () else descend room fun room => occursFree name room arg
  | .hole => .error .notATerm

/-- Collects the free occurrences of `name`, passing over holes and over bodies that bind the name. -/
def uses (name : String) (room : Nat) : Term → Outcome
  | .var _ _ => .ok ()
  | .lam param body _ => if param = name then .ok () else descend room fun room => uses name room body
  | .app func arg _ _ => do
    uses name room func
    descend room fun room => uses name room arg
  | .hole => .ok ()

/-- Replaces `name`. The replacement is looked at where an occurrence is replaced and at every binder that does
not hide the name, and the body of a binder to be renamed is looked through before it is entered. -/
def substitute (name : String) (replacement : Term) (room : Nat) : Term → Outcome
  | .var other _ => if other = name then all room replacement else .ok ()
  | .lam param body _ =>
    if param = name then .ok ()
    else do
      all room replacement
      if param ∈ replacement.freeNames then descend room fun room => all room body
      descend room fun room => substitute name replacement room body
  | .app func arg _ _ => do
    substitute name replacement room func
    descend room fun room => substitute name replacement room arg
  | .hole => .error .notATerm

/-- Looks for the redex that carries `label`, passing over holes, and stops when it is found. -/
def redexLabelled? (label : Option Int) (room : Nat) : Term → Outcome
  | .var _ _ => .ok ()
  | .lam _ body _ => descend room fun room => redexLabelled? label room body
  | .app func arg own _ =>
    if func.isAbstraction && own = label then .ok ()
    else do
      redexLabelled? label room func
      if (func.redexLabelled? label).isSome then .ok ()
      else descend room fun room => redexLabelled? label room arg
  | .hole => .ok ()

/-- Contracts the redex that carries `label` and looks no further. -/
def contract? (label : Option Int) (room : Nat) : Term → Outcome
  | .var _ _ => .ok ()
  | .lam _ body _ => descend room fun room => contract? label room body
  | .app func arg own origin =>
    match (Term.app func arg own origin).redexHere?.filter (·.label = label) with
    | some redex => descend room fun room => substitute redex.param redex.arg room redex.body
    | none => do
      contract? label room func
      if (func.redexLabelled? label).isSome then .ok ()
      else descend room fun room => contract? label room arg
  | .hole => .error .notATerm

/-- Compares two terms by shape: chains of applications by their length first, then from the head on, up to the
first difference. -/
def sameShape (room : Nat) : Term → Term → Outcome
  | .lam param body _, .lam other otherBody _ =>
    if param = other then descend room fun room => sameShape room body otherBody else .ok ()
  | .app func arg _ _, .app otherFunc otherArg _ _ =>
    if func.argumentCount = otherFunc.argumentCount then do
      sameShape room func otherFunc
      if func.sameShape otherFunc then descend room fun room => sameShape room arg otherArg
    else .ok ()
  | .hole, _ => .error .notATerm
  | _, _ => .ok ()

/-- Compares two terms up to bound names, in the order of `sameShape`. -/
def alphaUnder (binders : Term.Binders) (room : Nat) : Term → Term → Outcome
  | .lam param body _, .lam other otherBody _ =>
    descend room fun room => alphaUnder ((param, other) :: binders) room body otherBody
  | .app func arg _ _, .app otherFunc otherArg _ _ =>
    if func.argumentCount = otherFunc.argumentCount then do
      alphaUnder binders room func otherFunc
      if func.alphaUnder binders otherFunc then
        descend room fun room => alphaUnder binders room arg otherArg
    else .ok ()
  | .hole, _ => .error .notATerm
  | _, _ => .ok ()

end Visit

end BetaStepper
