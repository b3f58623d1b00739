/-! # Reading and cutting text

What is done to the characters of a line before anything is made of them: blanks are cut from its ends, parts are taken
by signed bounds, and numerals are read. -/

namespace BetaStepper.Text

/-! ## Blank characters

The characters that separate tokens and that are cut from both ends of an input line. The class is the one of
the Unicode bidirectional types WS, B and S together with the space separators, so it is wider than the four
ASCII blanks of `Char.isWhitespace`. -/

def isBlank (c : Char) : Bool :=
  let n := c.toNat
  (0x9 ≤ n && n ≤ 0xD) || (0x1C ≤ n && n ≤ 0x20) || n == 0x85 || n == 0xA0 || n == 0x1680 ||
    (0x2000 ≤ n && n ≤ 0x200A) || n == 0x2028 || n == 0x2029 || n == 0x202F || n == 0x205F || n == 0x3000

/-- The characters without the blanks at both ends. -/
def stripChars (chars : List Char) : List Char :=
  ((chars.dropWhile isBlank).reverse.dropWhile isBlank).reverse

def strip (text : String) : String :=
  String.ofList (stripChars text.toList)

/-! ## Slices

A bound counts from the start, or from the end if it is negative, and is clipped to the text. -/

/-- The index that a signed bound stands for in a text of the given length. -/
def clip (length : Nat) (bound : Int) : Nat :=
  if bound < 0 then (length + bound).toNat else min bound.toNat length

/-- The characters from `start` on. -/
def dropTo (text : String) (start : Int) : String :=
  String.ofList (text.toList.drop (clip text.length start))

/-- The characters before `stop`. -/
def takeTo (text : String) (stop : Int) : String :=
  String.ofList (text.toList.take (clip text.length stop))

/-- The characters from `start` to before `stop`. -/
def slice (text : String) (start stop : Int) : String :=
  String.ofList ((text.toList.take (clip text.length stop)).drop (clip text.length start))

/-- One character repeated; a negative count is none. -/
def repeated (char : Char) (count : Int) : String := String.ofList (List.replicate count.toNat char)

/-! ## Numerals

Whole numbers as a user may type them: an optional sign and decimal digits of any script, with single underscores
between digits. Numerals with more than 4300 digits are refused, leading zeros counted. -/

/-- The code points of the digit zero of each script; the other nine digits follow it. -/
def digitZeros : List Nat :=
  [0x30, 0x660, 0x6F0, 0x7C0, 0x966, 0x9E6, 0xA66, 0xAE6, 0xB66, 0xBE6, 0xC66, 0xCE6, 0xD66, 0xDE6, 0xE50, 0xED0,
    0xF20, 0x1040, 0x1090, 0x17E0, 0x1810, 0x1946, 0x19D0, 0x1A80, 0x1A90, 0x1B50, 0x1BB0, 0x1C40, 0x1C50, 0xA620,
    0xA8D0, 0xA900, 0xA9D0, 0xA9F0, 0xAA50, 0xABF0, 0xFF10, 0x104A0, 0x10D30, 0x11066, 0x110F0, 0x11136, 0x111D0,
    0x112F0, 0x11450, 0x114D0, 0x11650, 0x116C0, 0x11730, 0x118E0, 0x11950, 0x11C50, 0x11D50, 0x11DA0, 0x16A60,
    0x16AC0, 0x16B50, 0x1D7CE, 0x1D7D8, 0x1D7E2, 0x1D7EC, 0x1D7F6, 0x1E140, 0x1E2F0, 0x1E950, 0x1FBF0]

def digit? (c : Char) : Option Nat :=
  digitZeros.findSome? fun first => if first ≤ c.toNat ∧ c.toNat < first + 10 then some (c.toNat - first) else none

def isDigit (c : Char) : Bool := (digit? c).isSome

/-- Not empty and nothing but digits. -/
def isDecimal (text : String) : Bool := !text.toList.isEmpty && text.toList.all isDigit

namespace Numeral

inductive Fault where
  | malformed
  | tooLong (digits : Nat)
deriving DecidableEq

def digitLimit : Nat := 4300

/-- The digits of an unsigned numeral. -/
def digits? : List Char → Option (List Nat)
  | [] => none
  | [c] => (digit? c).map ([·])
  | c :: '_' :: rest =>
    match digit? c, digits? rest with
    | some digit, some digits => some (digit :: digits)
    | _, _ => none
  | c :: next :: rest =>
    match digit? c, digits? (next :: rest) with
    | some digit, some digits => some (digit :: digits)
    | _, _ => none

def value (digits : List Nat) : Nat := digits.foldl (fun total digit => 10 * total + digit) 0

/-- The digits at the front and what follows them. -/
def leading (chars : List Char) : List Nat × List Char :=
  ((chars.takeWhile isDigit).filterMap digit?, chars.dropWhile isDigit)

def readUnsigned (chars : List Char) : Except Fault Nat :=
  match digits? chars with
  | none => .error .malformed
  | some digits =>
    if digits.length > digitLimit then .error (.tooLong digits.length) else .ok (value digits)

/-- The number that `text` denotes, blanks around it apart. -/
def read (text : String) : Except Fault Int :=
  match stripChars text.toList with
  | '+' :: rest => (readUnsigned rest).map Int.ofNat
  | '-' :: rest => (readUnsigned rest).map fun value => -Int.ofNat value
  | chars => (readUnsigned chars).map Int.ofNat

end Numeral

end BetaStepper.Text
