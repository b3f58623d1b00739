import BetaStepper.Guarded
import BetaStepper.Text.Basic
import BetaStepper.Text.Styled

/-! # Displaying terms

A term is displayed as its text with the parentheses of applications coloured by depth and substituted nodes
highlighted. A second line puts the label of each redex under the parenthesis that opens it:

    (((λx.(x x)) ((λy.y) z)) w)
     [1]         [2]

The columns of the labels are computed from the widths of the parts, so the two lines are built independently. -/

namespace BetaStepper

namespace Display

structure Options where
  color : Bool := true
  showLabels : Bool := true
  lambda : String := "λ"
deriving DecidableEq

/-- The label of a redex, to be put under column `position`. -/
structure Label where
  id : Option Int
  position : Int
  color : Option Color
deriving DecidableEq

/-- The colours of nested applications, from the outermost inwards and round again. -/
def depthColors : List Color := [.green, .cyan, .blue, .lightGreen, .lightCyan, .lightBlue]

def depthColor (depth : Nat) : Color := depthColors.getD (depth % depthColors.length) .green

/-- The text of a node, highlighted if a substitution put the node there. -/
def highlight (origin : Provenance) (text : String) : Span :=
  { onRed := origin.marked : Style }.span text

def inColor (color : Option Color) (text : String) : Span := { foreground := color : Style }.span text

/-! ## The term -/

/-- How far an abstraction is moved in by its own parentheses where it is one side of an application. -/
def inset (term : Term) : Nat := if term.isAbstraction then 1 else 0

/-- The number of characters of a term's text. -/
def width (lambda : String) : Term → Nat
  | .var name _ => name.length
  | .lam param body _ => (lambda ++ param ++ ".").length + width lambda body
  | .app func arg _ _ =>
    (width lambda func + 2 * inset func) + (width lambda arg + 2 * inset arg) + 3
  | .hole => 0

/-- Puts `inner` as one side of an application, in front of `rest`. -/
def enclose (term : Term) (inner : Styled → Styled) (rest : Styled) : Styled :=
  if term.isAbstraction then { text := "(" } :: inner ({ text := ")" } :: rest) else inner rest

/-- A term that stands inside `depth` applications, in front of `rest`. -/
def spans (lambda : String) (depth : Nat) : Term → Styled → Styled
  | .var name origin, rest => highlight origin name :: rest
  | .lam param body origin, rest =>
    highlight origin (lambda ++ param ++ ".") :: spans lambda depth body rest
  | .app func arg _ _, rest =>
    inColor (depthColor depth) "(" ::
      enclose func (spans lambda (depth + 1) func)
        ({ text := " " } ::
          enclose arg (spans lambda (depth + 1) arg) (inColor (depthColor depth) ")" :: rest))
  | .hole, rest => rest

/-- The labels of a term that stands inside `depth` applications and starts at `column`, in pre-order. -/
def labels (lambda : String) (depth column : Nat) : Term → List Label
  | .var _ _ => []
  | .lam param body _ => labels lambda depth (column + (lambda ++ param ++ ".").length) body
  | .app func arg label _ =>
    (label.toList.map fun id => { id := some id, position := column, color := some (depthColor depth) }) ++
      (labels lambda (depth + 1) (column + 1 + inset func) func ++
        labels lambda (depth + 1) (column + 1 + (width lambda func + 2 * inset func) + 1 + inset arg) arg)
  | .hole => []

/-! ## The line of labels -/

def Label.text (label : Label) : String :=
  match label.id with
  | some id => "[" ++ toString id ++ "]"
  | none => "[None]"

/-- The gap before a label on a line that is filled up to `column`: the label stands under its position if that is
still free, and otherwise one blank after the label before it. -/
def gap (column : Nat) (position : Int) : Nat :=
  if position > column then (position - column).toNat
  else if column = 0 then 0
  else 1

/-- Puts labels, given from left to right, on a line that is filled up to `column`. -/
def place (column : Nat) : List Label → Styled
  | [] => []
  | label :: rest =>
    let blanks := gap column label.position
    { text := Text.repeated ' ' blanks } :: inColor label.color label.text ::
      place (column + blanks + label.text.length) rest

/-- The line of labels. Labels with the same position keep their order. -/
def labelLine (labels : List Label) : Styled :=
  place 0 (labels.mergeSort fun left right => decide (left.position ≤ right.position))

/-- The term and, if it has labels that are to be shown, the line of labels under it. -/
def render (options : Options) (term : Term) : Styled :=
  let labels := labels options.lambda 0 0 term
  if options.showLabels && !labels.isEmpty then
    spans options.lambda 0 term ({ text := "\n" } :: labelLine labels)
  else spans options.lambda 0 term []

end Display

def Guarded.display (options : Display.Options) (term : Term) : Guarded.Result Styled := do
  Visit.all nestingLimit term
  return Display.render options term

end BetaStepper
