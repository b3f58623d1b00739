/-! # Styled text

Text for a terminal is a list of spans. Colour is a matter of the last moment: every span knows its text both with
escape sequences and without, and printing picks one of the two.

The codes, the order in which the sequences of a style are opened and the one sequence that ends them all are an
assumption about the world outside: they are those that the function `colored` of `termcolor` writes with colour
switched on. What is shown about coloured output is shown of these sequences. -/

namespace BetaStepper

inductive Color where
  | red
  | green
  | blue
  | magenta
  | cyan
  | lightGreen
  | lightBlue
  | lightCyan
deriving DecidableEq

structure Style where
  foreground : Option Color := none
  onRed : Bool := false
  bold : Bool := false
deriving DecidableEq

/-- A piece of text, and how it looks in colour. -/
structure Span where
  text : String
  painted : String := text
deriving DecidableEq

abbrev Styled := List Span

def Color.code : Color → String
  | red => "31"
  | green => "32"
  | blue => "34"
  | magenta => "35"
  | cyan => "36"
  | lightGreen => "92"
  | lightBlue => "94"
  | lightCyan => "96"

/-- The escape sequence with the given code. -/
def escape (code : String) : String := "\x1b[" ++ code ++ "m"

namespace Style

/-- The escape sequences that switch the style on: weight, background, foreground. -/
def opening (style : Style) : String :=
  (if style.bold then escape "1" else "") ++ (if style.onRed then escape "41" else "") ++
    (match style.foreground with
    | some color => escape color.code
    | none => "")

/-- The text in the given style. An empty text is painted too. -/
def paint (style : Style) (text : String) : String :=
  if style = {} then text else style.opening ++ text ++ escape "0"

def span (style : Style) (text : String) : Span := { text, painted := style.paint text }

end Style

namespace Span

def render (color : Bool) (span : Span) : String :=
  if color then span.painted else span.text

end Span

namespace Styled

/-- Text without any style. -/
def plain (text : String) : Styled := [{ text }]

def render (color : Bool) (spans : Styled) : String :=
  String.join (spans.map (·.render color))

end Styled

end BetaStepper
