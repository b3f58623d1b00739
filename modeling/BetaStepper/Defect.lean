import BetaStepper.Text.Template

/-! # Defects

A defect is a failure that the program does not expect. It is reported by a kind and a text. -/

namespace BetaStepper

/-- A failure that the program does not expect, with the kind and the text it is reported by. -/
structure Defect where
  kind : String
  text : String
deriving DecidableEq

namespace Text

/-- A character as a defect shows it: by its code in hexadecimal unless it is in ASCII and below `limit`. -/
def shownBelow (limit : Nat) (c : Char) : String :=
  if 32 < c.toNat ∧ c.toNat < limit then c.toString else "\\x" ++ String.ofList (Nat.toDigits 16 c.toNat)

namespace Layout.Fault

def defect : Layout.Fault → Defect
  | tooManyDigits => ⟨"ValueError", "Too many decimal digits in format string"⟩
  | bothSeparators => ⟨"ValueError", "Cannot specify both ',' and '_'."⟩
  | missingPrecision => ⟨"ValueError", "Format specifier missing precision"⟩
  | unreadable directive =>
    ⟨"ValueError", "Invalid format specifier '" ++ directive ++ "' for object of type 'str'"⟩
  | separator mark code =>
    ⟨"ValueError", "Cannot specify '" ++ mark.toString ++ "' with '" ++ shownBelow 128 code ++ "'."⟩
  | unknownCode code =>
    ⟨"ValueError", "Unknown format code '" ++ shownBelow 128 code ++ "' for object of type 'str'"⟩
  | blankSign => ⟨"ValueError", "Space not allowed in string format specifier"⟩
  | sign => ⟨"ValueError", "Sign not allowed in string format specifier"⟩
  | negativeZero => ⟨"ValueError", "Negative zero coercion (z) not allowed in string format specifier"⟩
  | alternateForm => ⟨"ValueError", "Alternate form (#) not allowed in string format specifier"⟩
  | innerAlignment => ⟨"ValueError", "'=' alignment not allowed in string format specifier"⟩
  | tooWide => ⟨"MemoryError", ""⟩

end Layout.Fault

end Text

namespace Template

def Malformed.text : Malformed → String
  | loneOpening => "Single '\x7b' encountered in format string"
  | loneClosing => "Single '\x7d' encountered in format string"
  | unclosedField => "expected '\x7d' before end of string"
  | nestedField => "unexpected '\x7b' in field name"
  | missingConversion => "end of string while looking for conversion specifier"
  | missingColon => "expected ':' after conversion specifier"
  | unclosedLayout => "unmatched '\x7b' in format spec"

namespace Value

/-- How a value is spoken of where it lacks an attribute. -/
def subject : Value → String
  | kind of => "type object '" ++ of.fullName ++ "'"
  | value => "'" ++ value.kindOf.fullName ++ "' object"

/-- A value that has places, in the words of the faults about them. -/
def placed : Value → String
  | group _ => "tuple"
  | _ => "string"

def unplaced : Value → String
  | group _ => "tuple indices must be integers or slices, not str"
  | _ => "string indices must be integers, not 'str'"

def noPlaces : Value → String
  | kind of => "type '" ++ of.fullName ++ "' is not subscriptable"
  | applied of argument => (applied of argument).toText ++ " is not a generic class"
  | value => value.subject ++ " is not subscriptable"

end Value

namespace Fault

def defect : Fault → Defect
  | malformed cause => ⟨"ValueError", cause.text⟩
  | toAutomatic =>
    ⟨"ValueError", "cannot switch from manual field specification to automatic field numbering"⟩
  | toNumbered =>
    ⟨"ValueError", "cannot switch from automatic field numbering to manual field specification"⟩
  | missingIndex index =>
    ⟨"IndexError", "Replacement index " ++ toString index ++ " out of range for positional args tuple"⟩
  | missingName name => ⟨"KeyError", Text.quoted name⟩
  | emptyStep => ⟨"ValueError", "Empty attribute in format string"⟩
  | afterBracket => ⟨"ValueError", "Only '.' or '[' may follow ']' in format field specifier"⟩
  | outOf value => ⟨"IndexError", value.placed ++ " index out of range"⟩
  | unplaced value => ⟨"TypeError", value.unplaced⟩
  | noPlaces value => ⟨"TypeError", value.noPlaces⟩
  | noAttribute value name => ⟨"AttributeError", value.subject ++ " has no attribute '" ++ name ++ "'"⟩
  | unknownConversion conversion =>
    ⟨"ValueError", "Unknown conversion specifier " ++ Text.shownBelow 127 conversion⟩
  | noLayout kind => ⟨"TypeError", "unsupported format string passed to " ++ kind.fullName ++ ".__format__"⟩
  | layout fault => fault.defect
  | tooNested => ⟨"ValueError", "Max string recursion exceeded"⟩

end Fault

end Template

end BetaStepper
