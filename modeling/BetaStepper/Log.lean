import BetaStepper.Term.Basic

/-! # Log

The events worth a line in the log. How much of them is written depends on how verbose the program was asked to
be. -/

namespace BetaStepper.Log

inductive Level where
  | debug
  | info
deriving DecidableEq

inductive Event where
  | loaded (term : Term) (redexes : Nat)
  | contracting (label : Int) (redex : Term)
  | renamed (param fresh : String)
  | stepped (index : Nat) (label : Int) (term : Term)
  | undone (term : Term)
  | reset
  | warned (message : String)
  | failed (message : String)

namespace Event

def level : Event → Level
  | loaded _ _ => .info
  | stepped _ _ _ => .info
  | _ => .debug

/-- The part of the program that an event is logged for. -/
def origin : Event → String
  | contracting _ _ => "lcstep.pure.reduction"
  | renamed _ _ => "lcstep.pure.substitution"
  | warned _ => "lcstep.lang.error"
  | failed _ => "lcstep.lang.error"
  | _ => "lcstep.lang.session"

def message : Event → String
  | loaded term redexes => "loaded " ++ term.text ++ " (" ++ toString redexes ++ " redexes)"
  | contracting label redex => "β-reducing redex [" ++ toString label ++ "]: " ++ redex.text
  | renamed param fresh => "renaming bound variable " ++ param ++ " to " ++ fresh ++ " to avoid capture"
  | stepped index label term =>
    "step " ++ toString index ++ ": reduced [" ++ toString label ++ "] -> " ++ term.text
  | undone term => "undo: back to " ++ term.text
  | reset => "session reset"
  | warned message => "warning: " ++ message
  | failed message => "error: " ++ message

end Event

namespace Level

def name : Level → String
  | debug => "DEBUG"
  | info => "INFO"

/-- Whether events of this level are written when verbosity was asked for that many times. -/
def isWritten (verbosity : Nat) : Level → Bool
  | debug => verbosity ≥ 2
  | info => verbosity ≥ 1

end Level

namespace Event

def line (event : Event) : String :=
  event.level.name ++ " " ++ event.origin ++ ": " ++ event.message ++ "\n"

end Event

/-- The lines written for `events`. -/
def write (verbosity : Nat) (events : List Event) : String :=
  String.join ((events.filter (·.level.isWritten verbosity)).map (·.line))

end BetaStepper.Log
