import BetaStepper.Text.Template.Item
import BetaStepper.Text.Template.Value

/-! # Message templates

A template is text with fields in braces that are filled with snippets: `{}` takes the next snippet, `{2}` the one
with that index, and a doubled brace stands for itself. Filling goes from left to right and stops at the first
fault. Doubling the braces of a text therefore makes a template of it that fills to the text itself.

The layout directive of a field may hold fields of its own, which are filled first, and counted after the field. -/

namespace BetaStepper.Template

/-- How the fields seen so far were chosen. -/
inductive Numbering where
  | undecided
  | automatic (next : Nat)
  | numbered

/-- The index of the snippet that a field with the given name takes. -/
def Numbering.choose (numbering : Numbering) (name : List Char) : Except Fault (Nat × Numbering) :=
  if name.isEmpty then
    match numbering with
    | undecided => .ok (0, automatic 1)
    | automatic next => .ok (next, automatic (next + 1))
    | numbered => .error .toAutomatic
  else
    match number? name with
    | .error fault => .error fault
    | .ok none => .error (.missingName (String.ofList name))
    | .ok (some index) =>
      match numbering with
      | automatic _ => .error .toNumbered
      | _ => .ok (index, numbered)

def startsStep (c : Char) : Bool := c == '.' || c == '['

/-- The value that the name of a field stands for. -/
def Field.value (snippets : List String) (numbering : Numbering) (field : Field) :
    Except Fault (Value × Numbering) := do
  let (index, numbering) ← numbering.choose (field.name.takeWhile (!startsStep ·))
  match snippets[index]? with
  | none => throw (.missingIndex index)
  | some snippet =>
    let value ← (steps .start (field.name.dropWhile (!startsStep ·))).foldlM Value.step (.text snippet)
    return (value, numbering)

/-- A way to fill a text, given how the fields before it were chosen. -/
abbrev Filler := Numbering → List Char → Except Fault (List Char × Numbering)

/-- What is put in for a field, whose layout directive is filled by `fillLayout`. -/
def Field.fill (fillLayout : Filler) (snippets : List String) (numbering : Numbering) (field : Field) :
    Except Fault (List Char × Numbering) := do
  let (value, numbering) ← field.value snippets numbering
  let value ← field.conversion.elim (pure value) value.convert
  let (layout, numbering) ←
    if field.layout.contains opening then fillLayout numbering field.layout else pure (field.layout, numbering)
  return (← value.set layout, numbering)

def fillItems (fillLayout : Filler) (snippets : List String) :
    Numbering → List Item → Except Fault (List Char × Numbering)
  | numbering, [] => .ok ([], numbering)
  | numbering, .literal c :: rest =>
    (fillItems fillLayout snippets numbering rest).map fun (text, numbering) => (c :: text, numbering)
  | numbering, .field field :: rest =>
    match field.fill fillLayout snippets numbering with
    | .error fault => .error fault
    | .ok (filled, numbering) =>
      (fillItems fillLayout snippets numbering rest).map fun (text, numbering) => (filled ++ text, numbering)
  | _, .malformed cause :: _ => .error (.malformed cause)

/-- Fills a template whose fields may nest up to `depth` levels. -/
def fillNested (snippets : List String) : Nat → Filler
  | 0, _, _ => .error .tooNested
  | depth + 1, numbering, template =>
    fillItems (fillNested snippets depth) snippets numbering (items template)

/-- Fields may stand in the layout of a field, but not in the layout of those. -/
def depthLimit : Nat := 2

/-- Fills the fields of the template with the snippets. -/
def fill (template : String) (snippets : List String) : Except Fault String :=
  (fillNested snippets depthLimit .undecided template.toList).map fun (text, _) => String.ofList text

def isBrace (c : Char) : Bool := c == opening || c == closing

/-- The template that fills to `text`. -/
def quote (text : String) : String :=
  String.ofList (text.toList.flatMap fun c => if isBrace c then [c, c] else [c])

end BetaStepper.Template
