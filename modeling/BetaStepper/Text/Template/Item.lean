import BetaStepper.Text.Template.Basic

/-! # Items of a template

A template is read into literal characters and fields. A field has a name, then maybe a conversion after an
exclamation mark, then maybe a layout directive after a colon. Brackets in the name hide all marks inside them;
braces in the directive stand in pairs. A doubled brace outside a field is a literal one. -/

namespace BetaStepper.Template

structure Field where
  name : List Char
  conversion : Option Char := none
  layout : List Char := []
deriving DecidableEq

inductive Item where
  | literal (char : Char)
  | field (field : Field)
  /-- What follows cannot be read. -/
  | malformed (cause : Malformed)
deriving DecidableEq

def opening : Char := '\x7b'

def closing : Char := '\x7d'

/-! ## Reading -/

/-- Where reading stands. What has been seen of a part is held with its last character first. -/
inductive Place where
  | text
  /-- After an opening brace. -/
  | opened
  /-- After a closing brace that closes no field. -/
  | closed
  | naming (seen : List Char)
  /-- In brackets inside a name. -/
  | bracket (seen : List Char)
  | converting (name : List Char)
  | converted (name : List Char) (conversion : Char)
  /-- In a layout directive, inside `depth` pairs of braces. -/
  | layout (name : List Char) (conversion : Option Char) (depth : Nat) (seen : List Char)

/-- What a character does: it leads to a place, it completes an item, or it cannot stand where it does. -/
inductive Move where
  | to (place : Place)
  | complete (item : Item)
  | stop (cause : Malformed)

/-- A character in the name of a field. -/
def Place.inName (seen : List Char) (c : Char) : Move :=
  if c = opening then .stop .nestedField
  else if c = closing then .complete (.field { name := seen.reverse })
  else if c = '!' then .to (.converting seen.reverse)
  else if c = ':' then .to (.layout seen.reverse none 0 [])
  else if c = '[' then .to (.bracket (c :: seen))
  else .to (.naming (c :: seen))

/-- A character in a layout directive. -/
def Place.inLayout (name : List Char) (conversion : Option Char) (depth : Nat) (seen : List Char) (c : Char) : Move :=
  if c = opening then .to (.layout name conversion (depth + 1) (c :: seen))
  else if c = closing then
    match depth with
    | 0 => .complete (.field { name, conversion, layout := seen.reverse })
    | depth + 1 => .to (.layout name conversion depth (c :: seen))
  else .to (.layout name conversion depth (c :: seen))

def Place.move : Place → Char → Move
  | .text, c =>
    if c = opening then .to .opened else if c = closing then .to .closed else .complete (.literal c)
  | .opened, c => if c = opening then .complete (.literal c) else inName [] c
  | .closed, c => if c = closing then .complete (.literal c) else .stop .loneClosing
  | .naming seen, c => inName seen c
  | .bracket seen, c => if c = ']' then .to (.naming (c :: seen)) else .to (.bracket (c :: seen))
  | .converting name, c => .to (.converted name c)
  | .converted name conversion, c =>
    if c = closing then .complete (.field { name, conversion := some conversion })
    else if c = ':' then .to (.layout name (some conversion) 0 [])
    else .stop .missingColon
  | .layout name conversion depth seen, c => inLayout name conversion depth seen c

/-- What is wrong with a template that ends at a place. -/
def Place.cut? : Place → Option Malformed
  | text => none
  | opened => some .loneOpening
  | closed => some .loneClosing
  | naming _ => some .unclosedField
  | bracket _ => some .unclosedField
  | converting _ => some .missingConversion
  | converted _ _ => some .unclosedLayout
  | layout _ _ _ _ => some .unclosedLayout

/-- The items of a template that is read from the given place on. -/
def itemsFrom (place : Place) : List Char → List Item
  | [] => place.cut?.toList.map .malformed
  | c :: rest =>
    match place.move c with
    | .to next => itemsFrom next rest
    | .complete item => item :: itemsFrom .text rest
    | .stop cause => [.malformed cause]

def items (template : List Char) : List Item := itemsFrom .text template

end BetaStepper.Template
