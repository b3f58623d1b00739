import BetaStepper.Text.Basic

/-! # Lexemes

The text of a term is cut into tokens by longest match. Blanks separate tokens and are dropped; a character that
starts no token becomes a `stray` token, so scanning itself never fails and the parser decides what is wrong
where. Positions count characters from the start of the text. -/

namespace BetaStepper

inductive Token where
  | leftParen
  | rightParen
  | dot
  | lambda
  | name (text : String)
  | stray (char : Char)
deriving DecidableEq

structure Lexeme where
  token : Token
  position : Nat
deriving DecidableEq

namespace Lexeme

/-- Names start with an ASCII letter. -/
def isNameStart (c : Char) : Bool := c.isAlpha

/-- Names go on with ASCII letters, digits, underscores and primes. -/
def isNameChar (c : Char) : Bool := c.isAlphanum || c == '_' || c == '\x27'

def symbol (c : Char) : Token :=
  if c == '(' then .leftParen
  else if c == ')' then .rightParen
  else if c == '.' then .dot
  else if c == 'λ' || c == '\\' then .lambda
  else .stray c

/-- The lexemes of `chars`, whose first character stands at `position`. -/
def scanFrom (position : Nat) : List Char → List Lexeme
  | [] => []
  | c :: rest =>
    if Text.isBlank c then
      scanFrom (position + 1) rest
    else if isNameStart c then
      let tail := rest.takeWhile isNameChar
      ⟨.name (String.ofList (c :: tail)), position⟩ ::
        scanFrom (position + 1 + tail.length) (rest.dropWhile isNameChar)
    else
      ⟨symbol c, position⟩ :: scanFrom (position + 1) rest
termination_by chars => chars.length
decreasing_by
  · simp
  · exact Nat.lt_succ_of_le (List.dropWhile_sublist isNameChar).length_le
  · simp

def scan (text : String) : List Lexeme := scanFrom 0 text.toList

end Lexeme

end BetaStepper
