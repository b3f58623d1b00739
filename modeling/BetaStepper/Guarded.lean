import BetaStepper.Term.Visit

/-! # Operations with their failures

Each operation on terms, preceded by the traversal that may fail. On complete terms within the nesting limit the
guards never fire and what is left is the pure operation. -/

namespace BetaStepper.Guarded

/-- A value whose computation may meet a hole or nest too deep. -/
abbrev Result (α : Type) := Except Fault α

def print (lambda : String) (term : Term) : Result String := do
  Visit.all nestingLimit term
  return term.print lambda

def freeNames (term : Term) : Result (List String) := do
  Visit.all nestingLimit term
  return term.freeNames

def stamp (mark : Bool) (source : Option Int) (term : Term) : Result Term := do
  Visit.all nestingLimit term
  return term.stamp mark source

def substitute (term : Term) (name : String) (replacement : Term) (mark : Bool) (source : Option Int) :
    Result Term := do
  Visit.substitute name replacement nestingLimit term
  return term.substitute name replacement mark source

def number (term : Term) : Result Term := do
  Visit.all nestingLimit term
  return term.number

def reduceAt (term : Term) (label : Option Int) : Result Term := do
  Visit.contract? label nestingLimit term
  return term.reduceAt label

def clearMarks (term : Term) : Result Term := do
  Visit.all nestingLimit term
  return term.clearMarks

/-- Clears, numbers, contracts and numbers again. -/
def step (term : Term) (label : Option Int) : Result Term := do
  let cleared ← clearMarks term
  let numbered ← number cleared
  let reduced ← reduceAt numbered label
  number reduced

def redexes (term : Term) : Result (List Redex) := do
  Visit.lenient nestingLimit term
  return term.redexes

def occursFree (name : String) (term : Term) : Result Bool := do
  Visit.occursFree name nestingLimit term
  return term.occursFree name

def uses (name : String) (term : Term) : Result (List Term) := do
  Visit.uses name nestingLimit term
  return term.uses name

def usesArgument (redex : Redex) : Result Bool := occursFree redex.param redex.body

def parameterUses (redex : Redex) : Result (List Term) := uses redex.param redex.body

def substitutions (term : Term) : Result (List (Option Int × List Term)) := do
  Visit.everywhere (.error .noProvenance) nestingLimit term
  return term.substitutions

def redexLabelled? (label : Option Int) (term : Term) : Result (Option Redex) := do
  Visit.redexLabelled? label nestingLimit term
  return term.redexLabelled? label

def sameShape (term other : Term) : Result Bool := do
  Visit.sameShape nestingLimit term other
  return term.sameShape other

def alphaEq (term other : Term) : Result Bool := do
  Visit.alphaUnder [] nestingLimit term other
  return term.alphaEq other

/-- Looks up the redex, then the copies, then whether the argument is used. -/
def links (before after : Term) (source : Option Int) : Result Links := do
  let redex ← redexLabelled? source before
  let _ ← substitutions after
  if let some redex := redex then
    let _ ← usesArgument redex
  return Links.between before after source

/-- Also looks up the occurrences of the parameter. -/
def fullLinks (before after : Term) (source : Option Int) : Result Links := do
  let links ← links before after source
  if let some redex := links.redex then
    let _ ← parameterUses redex
  return links

/-- Links the steps from left to right. -/
def chainFrom (before : Term) : List Step → Result (List LinkedStep)
  | [] => return []
  | step :: rest => do
    if step.reduced.isSome then
      let _ ← links before step.term step.reduced
    let linked ← chainFrom step.term rest
    return LinkedStep.after before step :: linked

def chain : List Step → Result (List LinkedStep)
  | [] => return []
  | step :: rest => do
    let linked ← chainFrom step.term rest
    return { step, links := none } :: linked

end BetaStepper.Guarded
