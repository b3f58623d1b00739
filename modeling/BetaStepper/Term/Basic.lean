/-! # λ-terms with provenance

A term is a tree of variables, abstractions and applications. Besides its shape every node records where it came
from: `Provenance` says whether a substitution put the node there and which redex that substitution contracted.
Applications also carry the label that numbering gives to redexes.

A `hole` is a place where no term stands. Parsing and reducing never make one; terms that are assembled from
outside may have them, and the pure operations leave them alone.

The file also holds what is asked of a term as it stands: its free occurrences, whether it equals another one, and its
text. -/

namespace BetaStepper

structure Provenance where
  marked : Bool := false
  source : Option Int := none
deriving DecidableEq, Inhabited

inductive Term where
  | var (name : String) (origin : Provenance)
  | lam (param : String) (body : Term) (origin : Provenance)
  | app (func arg : Term) (label : Option Int) (origin : Provenance)
  | hole
deriving DecidableEq, Inhabited

namespace Term

/-- The number of nodes. -/
def size : Term → Nat
  | var _ _ => 1
  | lam _ body _ => body.size + 1
  | app func arg _ _ => func.size + arg.size + 1
  | hole => 1

/-- No place of the term is empty. -/
def complete : Term → Bool
  | var _ _ => true
  | lam _ body _ => body.complete
  | app func arg _ _ => func.complete && arg.complete
  | hole => false

/-- How many abstraction bodies and arguments enclose the deepest node. The function side of an application adds
nothing, so a chain of applications is flat however long it is. -/
def nesting : Term → Nat
  | var _ _ => 0
  | lam _ body _ => body.nesting + 1
  | app func arg _ _ => max func.nesting (arg.nesting + 1)
  | hole => 0

def origin : Term → Provenance
  | var _ origin => origin
  | lam _ _ origin => origin
  | app _ _ _ origin => origin
  | hole => {}

def isAbstraction : Term → Bool
  | lam _ _ _ => true
  | _ => false

/-- The number of arguments that the head of the term is applied to. -/
def argumentCount : Term → Nat
  | app func _ _ _ => func.argumentCount + 1
  | _ => 0

/-! ## Free occurrences

Three views of the free occurrences of a name: the names that occur free, whether one name does, and the variable
nodes themselves from left to right. -/

/-- The names with a free occurrence, each once, in the order of their first occurrence. -/
def freeNames : Term → List String
  | var name _ => [name]
  | lam param body _ => body.freeNames.filter (· ≠ param)
  | app func arg _ _ =>
    let names := func.freeNames
    names ++ arg.freeNames.filter (· ∉ names)
  | hole => []

def occursFree (name : String) : Term → Bool
  | var other _ => other == name
  | lam param body _ => param != name && body.occursFree name
  | app func arg _ _ => func.occursFree name || arg.occursFree name
  | hole => false

/-- The free occurrences of `name` as variable nodes, from left to right. -/
def uses (name : String) : Term → List Term
  | var other origin => if other = name then [var other origin] else []
  | lam param body _ => if param = name then [] else body.uses name
  | app func arg _ _ => func.uses name ++ arg.uses name
  | hole => []

/-! ## Equality up to labels and provenance, and up to bound names -/

/-- Same shape and same names. -/
def sameShape : Term → Term → Bool
  | var name _, var other _ => name == other
  | lam param body _, lam other otherBody _ => param == other && body.sameShape otherBody
  | app func arg _ _, app otherFunc otherArg _ _ => func.sameShape otherFunc && arg.sameShape otherArg
  | _, _ => false

/-- The binders around two terms that are compared, innermost first, each with its counterpart on the other side. -/
abbrev Binders := List (String × String)

/-- Two variables agree if both are free with the same name or the nearest binders of both are counterparts. -/
def Binders.agree (binders : Binders) (name other : String) : Bool :=
  match binders.find? (·.1 == name), binders.find? (·.2 == other) with
  | none, none => name == other
  | some left, some right => left.2 == other && right.1 == name
  | _, _ => false

/-- Equality up to the names of bound variables, under the given binders. -/
def alphaUnder (binders : Binders) : Term → Term → Bool
  | var name _, var other _ => binders.agree name other
  | lam param body _, lam other otherBody _ => body.alphaUnder ((param, other) :: binders) otherBody
  | app func arg _ _, app otherFunc otherArg _ _ =>
    func.alphaUnder binders otherFunc && arg.alphaUnder binders otherArg
  | _, _ => false

def alphaEq (term other : Term) : Bool := term.alphaUnder [] other

/-! ## Printing

Applications are always parenthesised, and an abstraction is parenthesised once more where it is the function or
the argument of an application. The text is therefore unambiguous, and parsing it gives the term back. -/

/-- The text of `term` as one side of an application. -/
def wrap (term : Term) (text : String) : String :=
  if term.isAbstraction then "(" ++ text ++ ")" else text

/-- The text of a term, with `lambda` written at the head of each abstraction. -/
def print (lambda : String) : Term → String
  | var name _ => name
  | lam param body _ => lambda ++ param ++ "." ++ body.print lambda
  | app func arg _ _ => "(" ++ func.wrap (func.print lambda) ++ " " ++ arg.wrap (arg.print lambda) ++ ")"
  | hole => ""

/-- The text of a term with the usual `λ`. -/
def text (term : Term) : String := term.print "λ"

end Term

end BetaStepper
