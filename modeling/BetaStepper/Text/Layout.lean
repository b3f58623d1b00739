import BetaStepper.Text.Basic

/-! # Layout of a text

A directive says how a text is set: cut to a precision, then padded to a width. It is written

    [[fill] < > ^ =] [+ - blank] [z] [#] [0] [width] [, _] [.precision] [code]

in that order, every part being optional. The signs, the separators, `z`, `#` and `=` have a meaning for numbers
only: a directive with one of them can be read, but there is no layout of text for it. -/

namespace BetaStepper.Text

inductive Alignment where
  | left
  | right
  | center
  /-- The fill goes between the sign and the digits. -/
  | inner
deriving DecidableEq

def Alignment.ofChar? : Char → Option Alignment
  | '<' => some .left
  | '>' => some .right
  | '^' => some .center
  | '=' => some .inner
  | _ => none

structure Layout where
  fill : Char := ' '
  alignment : Alignment := .left
  width : Nat := 0
  precision : Option Nat := none
deriving DecidableEq

namespace Layout

inductive Fault where
  | tooManyDigits
  | bothSeparators
  | missingPrecision
  /-- Text is left where the directive has to end. -/
  | unreadable (directive : String)
  | separator (mark code : Char)
  | unknownCode (code : Char)
  | blankSign
  | sign
  | negativeZero
  | alternateForm
  | innerAlignment
  /-- There is no room for a text of the width asked for. -/
  | tooWide
deriving DecidableEq

/-! ## Reading -/

structure Directive where
  fill : Option Char := none
  alignment : Option Alignment := none
  sign : Option Char := none
  negativeZero : Bool := false
  alternateForm : Bool := false
  zeroFill : Bool := false
  width : Option Nat := none
  separator : Option Char := none
  precision : Option Nat := none
  code : Char := 's'
deriving DecidableEq

/-- The largest number that can be written in a directive or as an index. -/
def numberLimit : Nat := Nat.pow 2 63 - 1

/-- The number at the front, if there is one, and what follows it. -/
def readNumber (chars : List Char) : Except Fault (Option Nat × List Char) :=
  let (digits, rest) := Numeral.leading chars
  let value := Numeral.value digits
  if value > numberLimit then .error .tooManyDigits
  else .ok (if digits.isEmpty then none else some value, rest)

/-- The fill, which has to stand before an alignment, the alignment, and what follows them. -/
def readAlignment : List Char → Option Char × Option Alignment × List Char
  | [] => (none, none, [])
  | first :: rest =>
    match rest with
    | second :: after =>
      match Alignment.ofChar? second, Alignment.ofChar? first with
      | some alignment, _ => (some first, some alignment, after)
      | none, some alignment => (none, some alignment, rest)
      | none, none => (none, none, first :: rest)
    | [] =>
      match Alignment.ofChar? first with
      | some alignment => (none, some alignment, [])
      | none => (none, none, [first])

/-- The first character if it is one of `marks`, and what follows it. -/
def readMark (marks : List Char) : List Char → Option Char × List Char
  | [] => (none, [])
  | c :: rest => if marks.contains c then (some c, rest) else (none, c :: rest)

/-- The separator of the groups of digits. There cannot be two different ones. -/
def readSeparator : List Char → Except Fault (Option Char × List Char)
  | ',' :: '_' :: _ => .error .bothSeparators
  | '_' :: ',' :: _ => .error .bothSeparators
  | ',' :: rest => .ok (some ',', rest)
  | '_' :: rest => .ok (some '_', rest)
  | chars => .ok (none, chars)

def readPrecision : List Char → Except Fault (Option Nat × List Char)
  | '.' :: rest =>
    match readNumber rest with
    | .ok (none, _) => .error .missingPrecision
    | result => result
  | chars => .ok (none, chars)

def readDirective (text : List Char) : Except Fault Directive := do
  let (fill, alignment, chars) := readAlignment text
  let (sign, chars) := readMark ['+', '-', ' '] chars
  let (negativeZero, chars) := readMark ['z'] chars
  let (alternateForm, chars) := readMark ['#'] chars
  let (zeroFill, chars) := readMark (if fill.isNone then ['0'] else []) chars
  let (width, chars) ← readNumber chars
  let (separator, chars) ← readSeparator chars
  let (precision, chars) ← readPrecision chars
  let directive : Directive :=
    { fill, alignment, sign, negativeZero := negativeZero.isSome, alternateForm := alternateForm.isSome,
      zeroFill := zeroFill.isSome, width, separator, precision }
  match chars with
  | [] => return directive
  | [code] => return { directive with code }
  | _ => throw (.unreadable (String.ofList text))

/-! ## Layouts of text -/

/-- The codes of numbers whose digits can be put into groups by the given mark. -/
def groupedCodes (mark : Char) : List Char :=
  ['d', 'e', 'f', 'g', 'E', 'G', '%', 'F', '\x00'] ++ if mark = '_' then ['b', 'o', 'x', 'X'] else []

/-- The layout of text that a directive asks for. -/
def Directive.layout (directive : Directive) : Except Fault Layout := do
  if let some mark := directive.separator then
    unless (groupedCodes mark).contains directive.code do throw (.separator mark directive.code)
  if directive.code ≠ 's' then throw (.unknownCode directive.code)
  if let some sign := directive.sign then throw (if sign = ' ' then .blankSign else .sign)
  if directive.negativeZero then throw .negativeZero
  if directive.alternateForm then throw .alternateForm
  if directive.alignment = some .inner then throw .innerAlignment
  return {
    fill := directive.fill.getD (if directive.zeroFill then '0' else ' ')
    alignment := directive.alignment.getD .left
    width := directive.width.getD 0
    precision := directive.precision }

def apply (layout : Layout) (text : List Char) : List Char :=
  let kept := layout.precision.elim text fun precision => text.take precision
  let missing := layout.width - kept.length
  let before :=
    match layout.alignment with
    | .right => missing
    | .center => missing / 2
    | _ => 0
  List.replicate before layout.fill ++ kept ++ List.replicate (missing - before) layout.fill

/-- Texts are shorter than this. -/
def sizeLimit : Nat := Nat.pow 2 32

/-- Sets a text as a directive says. The empty directive leaves it as it is. -/
def set (directive text : List Char) : Except Fault (List Char) := do
  if directive.isEmpty then return text
  let layout ← (← readDirective directive).layout
  if layout.width > max text.length sizeLimit then throw .tooWide
  return layout.apply text

end Layout

end BetaStepper.Text
