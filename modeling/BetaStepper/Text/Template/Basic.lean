import BetaStepper.Text.Layout
import BetaStepper.Text.Template.Kind

/-! # Templates: values and faults

A template is text with fields in braces. What a field stands for is a snippet, a part of a snippet, or what is known
of its kind. This file holds these values and all that can be wrong with a template. -/

namespace BetaStepper.Template

inductive Value where
  | text (text : String)
  | kind (of : Kind)
  | group (members : List Kind)
  | nothing
  /-- A kind with an argument. -/
  | applied (of : Kind) (argument : String)
  /-- An operation of a kind's values. -/
  | operation (action : Operation)
  /-- An operation of one value. -/
  | bound (action : Operation) (receiver : Value)
deriving DecidableEq

/-- The braces of a field, or the characters between them, are not as they have to be. -/
inductive Malformed where
  | loneOpening
  | loneClosing
  | unclosedField
  /-- An opening brace in the name of a field. -/
  | nestedField
  /-- The template ends where a conversion has to stand. -/
  | missingConversion
  /-- Something other than a colon follows a conversion. -/
  | missingColon
  /-- The layout directive of a field has no end. -/
  | unclosedLayout
deriving DecidableEq

inductive Fault where
  | malformed (cause : Malformed)
  /-- An automatic field after a numbered one. -/
  | toAutomatic
  /-- A numbered field after an automatic one. -/
  | toNumbered
  | missingIndex (index : Nat)
  | missingName (name : String)
  /-- A step into a value that names nothing. -/
  | emptyStep
  /-- A closing bracket is followed by something that starts no step. -/
  | afterBracket
  /-- A text or a group is shorter than the place asked for. -/
  | outOf (value : Value)
  /-- A place in a text or a group that is not a number. -/
  | unplaced (value : Value)
  /-- A value without places. -/
  | noPlaces (value : Value)
  | noAttribute (value : Value) (name : String)
  | unknownConversion (conversion : Char)
  /-- Values of the kind have no layout. -/
  | noLayout (kind : Kind)
  | layout (fault : Text.Layout.Fault)
  /-- Fields stand in the layouts of fields in layouts. -/
  | tooNested
deriving DecidableEq

end BetaStepper.Template
