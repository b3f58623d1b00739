import BetaStepper.Term.Basic
import BetaStepper.Term.Lexeme

/-! # Parsing terms

The parser reads lexemes from left to right and keeps what is still open on a stack of frames: a parenthesis or
an abstraction, each with the application that stands to its left. An application associates to the left, and the
body of an abstraction extends as far as possible, so every open abstraction ends together with the parenthesis
around it or with the text.

The step that carries the argument is `State.advance`: whatever it accepts can still be completed to a term, so
the first lexeme it refuses is where the text goes wrong. -/

namespace BetaStepper

/-- What the parser was looking for. -/
inductive Expected where
  | term
  | parameter
  | dot
  | operand
  | rightParen
  | finish
deriving DecidableEq

structure ParseError where
  expected : Expected
  position : Nat
deriving DecidableEq

namespace Parser

inductive Frame where
  | paren (outer : Option Term)
  | lambda (param : String) (outer : Option Term)

/-- What the next lexeme has to be: part of a term, the parameter of an abstraction, or the dot after it. -/
inductive Stage where
  | term
  | parameter
  | dot (param : String)

/-- The open frames, innermost first, and the application `built` so far inside the innermost of them. -/
structure State where
  frames : List Frame := []
  built : Option Term := none
  stage : Stage := .term

def attach (outer : Option Term) (term : Term) : Term :=
  match outer with
  | none => term
  | some func => .app func term none {}

/-- Ends the abstractions on top of the stack. Gives the term they make and, if a parenthesis is open below them,
what stands to its left and the frames around it. -/
def closeLambdas (term : Term) : List Frame → Term × Option (Option Term × List Frame)
  | [] => (term, none)
  | .paren outer :: frames => (term, some (outer, frames))
  | .lambda param outer :: frames => closeLambdas (attach outer (.lam param term {})) frames

namespace State

/-- Reads one token, or says what had to stand in its place. -/
def advance (state : State) (token : Token) : Except Expected State :=
  match state.stage, token with
  | .parameter, .name param => .ok { state with stage := .dot param }
  | .parameter, _ => .error .parameter
  | .dot param, .dot => .ok { frames := .lambda param state.built :: state.frames }
  | .dot _, _ => .error .dot
  | .term, .leftParen => .ok { frames := .paren state.built :: state.frames }
  | .term, .lambda => .ok { state with stage := .parameter }
  | .term, .name name => .ok { state with built := some (attach state.built (.var name {})) }
  | .term, token =>
    match state.built with
    | none => .error .operand
    | some term =>
      match closeLambdas term state.frames, token with
      | (_, none), _ => .error .finish
      | (inner, some (outer, frames)), .rightParen => .ok { frames, built := some (attach outer inner) }
      | (_, some _), _ => .error .rightParen

/-- The term that has been read when the text ends here, or what was still to come. -/
def finish (state : State) : Except Expected Term :=
  match state.stage, state.built with
  | .parameter, _ => .error .parameter
  | .dot _, _ => .error .dot
  | .term, none => .error .operand
  | .term, some term =>
    match closeLambdas term state.frames with
    | (result, none) => .ok result
    | (_, some _) => .error .rightParen

/-- Reads the lexemes up to the end of the text, which is at `stop`. -/
def run (stop : Nat) (state : State) : List Lexeme → Except ParseError Term
  | [] =>
    match state.finish with
    | .ok term => .ok term
    | .error expected => .error ⟨expected, stop⟩
  | lexeme :: rest =>
    match state.advance lexeme.token with
    | .ok next => run stop next rest
    | .error expected => .error ⟨expected, lexeme.position⟩

end State

end Parser

def Term.parse (text : String) : Except ParseError Term :=
  match Lexeme.scan text with
  | [] => .error ⟨.term, text.length⟩
  | lexemes => Parser.State.run text.length {} lexemes

namespace Expected

def describe : Expected → String
  | term => "λ-term"
  | parameter => "parameter name"
  | dot => "'.'"
  | operand => "variable, '(' or 'λ'"
  | rightParen => "')'"
  | finish => "end of input"

end Expected

namespace ParseError

/-- What stands at the position of the error in `text`. -/
def found (error : ParseError) (text : String) : String :=
  match text.toList[error.position]? with
  | none => "end of input"
  | some c => "'" ++ c.toString ++ "'"

def message (error : ParseError) (text : String) : String :=
  match error.expected with
  | .term => "λ-term cannot be empty"
  | expected =>
    "expected " ++ expected.describe ++ " at position " ++ toString error.position ++ ", found " ++ error.found text

end ParseError

end BetaStepper
