import BetaStepper.Display
import BetaStepper.Session

/-! # The shell

A shell answers one line at a time. A line is a command, or else a term if none is loaded, or else the label of the
redex to contract. Loading and contracting stand inside the session's error handler, so their failures are printed
and the shell goes on; the other commands stand outside it. -/

namespace BetaStepper

/-! ## The sample terms on offer -/

structure Sample where
  name : String
  description : String
  term : String

def catalog : List Sample :=
  [⟨"Identity", "the simplest function, returns its argument", "(\\x.x) hello"⟩,
    ⟨"K Combinator", "takes two arguments and returns the first (TRUE in Church encoding)",
      "(\\x.\\y.x) first second"⟩,
    ⟨"S Combinator", "the substitution combinator", "(\\x.\\y.\\z.x z (y z)) a b c"⟩,
    ⟨"Church Numeral 2", "2 applied to successor and zero", "(\\f.\\x.f (f x)) (\\n.succ n) zero"⟩,
    ⟨"Boolean AND", "TRUE AND FALSE = FALSE", "(\\p.\\q.p q p) (\\x.\\y.x) (\\x.\\y.y)"⟩,
    ⟨"Boolean OR", "FALSE OR TRUE = TRUE", "(\\p.\\q.p p q) (\\x.\\y.y) (\\x.\\y.x)"⟩,
    ⟨"Church Addition", "2 + 2 in Church numerals",
      "(\\m.\\n.\\f.\\x.m f (n f x)) (\\f.\\x.f (f x)) (\\f.\\x.f (f x)) s z"⟩,
    ⟨"Omega", "self-application, reduces to itself forever", "(\\x.x x) (\\x.x x)"⟩]

/-! ## Lines -/

inductive Command where
  | blank
  | view
  | undo
  | reset
  | links
  | history
  | examples (choice : String)
  | help
  | endOfInput
  | exit
  | entry (line : String)
deriving DecidableEq

namespace Command

/-- The command of the given name, if there is one. -/
def named? (name rest : String) : Option Command :=
  match name with
  | "show" => some .view
  | "undo" => some .undo
  | "reset" => some .reset
  | "links" => some .links
  | "history" => some .history
  | "examples" => some (.examples rest)
  | "help" => some .help
  | "EOF" => some .endOfInput
  | "exit" => some .exit
  | "quit" => some .exit
  | "q" => some .exit
  | _ => none

def isWordChar (c : Char) : Bool := c.isAlphanum || c == '_'

/-- Reads a line: blanks around it are dropped, a question mark asks for help, and otherwise the letters, digits and
underscores at the front name the command. -/
def ofLine (line : String) : Command :=
  let chars := Text.stripChars line.toList
  match chars with
  | [] => .blank
  | '?' :: _ => .help
  | chars =>
    let name := String.ofList (chars.takeWhile isWordChar)
    let rest := String.ofList (Text.stripChars (chars.dropWhile isWordChar))
    (named? name rest).getD (.entry (String.ofList chars))

end Command

/-! ## Shells and replies -/

/-- What the shell asks for. -/
inductive Prompt where
  | term
  | redex
deriving DecidableEq

def Prompt.text : Prompt → String
  | term => "λ> "
  | redex => "> "

structure Shell where
  options : Display.Options := {}
  handler : Handler := { fatal := false }
  session : Session := {}
  prompt : Prompt := .term

namespace Shell

/-- A new shell. Its handler prints in colour if the shell does. -/
def new (options : Display.Options) : Shell := { options, handler := { fatal := false, color := options.color } }

structure Reply where
  shell : Shell
  out : Styled := []
  log : List Log.Event := []
  signal : Option Signal := none
  stop : Bool := false

namespace Reply

/-- Ends the work that the shell's handler stands around. -/
def handled (reply : Reply) : Reply :=
  let report := reply.shell.handler.leave reply.signal
  { reply with
    shell := { reply.shell with handler := report.handler }
    out := reply.out ++ report.out
    log := reply.log ++ report.log
    signal := report.signal }

/-- Puts output and log of earlier work in front. -/
def after (reply : Reply) (out : Styled) (log : List Log.Event) : Reply :=
  { reply with out := out ++ reply.out, log := log ++ reply.log }

end Reply

def say (shell : Shell) (text : String) : Reply := { shell, out := Styled.plain text }

/-- What the user can do next. -/
def status (session : Session) : String :=
  if session.isNormal then "Normal form reached. Type 'reset' to enter a new λ-term.\n"
  else
    let count := toString session.redexCount
    count ++ " redex(es) available. Reduce: [1-" ++ count ++ "]  |  undo  |  links  |  reset  |  exit\n"

/-- Shows the current term and what can be done next. -/
def view (shell : Shell) : Reply :=
  match Guarded.display shell.options (shell.session.current.getD .hole) with
  | .error fault => { shell, out := Styled.plain "\n", signal := some fault.signal }
  | .ok term => { shell, out := Styled.plain "\n" ++ term ++ Styled.plain ("\n\n" ++ status shell.session) }

/-! ## Commands -/

def notALabel (line : String) : Diagnostic :=
  .about [{ text := "'" }, Diagnostic.snippet line, { text := "' is not a redex number or command" }] line
    { explained := false }

/-- Loads a line as a term. -/
def loadLine (shell : Shell) (line : String) : Reply :=
  match shell.session.load line with
  | .error refusal => { shell, signal := some refusal.signal }
  | .ok session => ({ shell with session, prompt := .redex } : Shell).view.after [] session.loadLog

/-- Contracts the redex whose label is written in a line. -/
def reduceLine (shell : Shell) (line : String) : Reply :=
  match Text.Numeral.read line with
  | .error _ =>
    let report := shell.handler.warn (notALabel line)
    { shell, out := report.out, log := report.log }
  | .ok label =>
    let outcome := shell.session.reduce label
    let log := shell.session.reduceLog label outcome
    match outcome with
    | .error refusal => { shell, log, signal := some refusal.signal }
    | .ok session =>
      ({ shell with session } : Shell).view.after
        (Styled.plain ("\nAfter reducing redex [" ++ toString label ++ "]:\n")) log

/-- Takes a line that is no command: for a term if none is loaded, and otherwise for the label of a redex. -/
def enter (shell : Shell) (line : String) : Reply :=
  let line := Text.strip line
  if shell.session.loaded then shell.reduceLine line else shell.loadLine line

def undo (shell : Shell) : Reply :=
  match shell.session.undo with
  | none => shell.say "Nothing to undo.\n"
  | some session => ({ shell with session } : Shell).view.after [] session.undoLog

def reset (shell : Shell) : Reply :=
  { shell := { shell with session := shell.session.reset, prompt := .term }, log := [.reset] }

/-- Shows where the argument of the last step went. -/
def links (shell : Shell) : Reply :=
  match shell.session.lastLinks with
  | none => shell.say "No reduction has been performed yet.\n"
  | some (.error fault) => { shell, signal := some fault.signal }
  | some (.ok links) =>
    match links.redex with
    | none => { shell, signal := some Fault.notATerm.signal }
    | some redex =>
      let lambda := shell.options.lambda
      let results :=
        (if links.argumentUsed then [] else ["argument discarded"]) ++ links.copies.map (·.print lambda)
      shell.say <|
        "Redex [" ++ (match links.source with | some label => toString label | none => "None") ++ "]: " ++
          redex.term.print lambda ++ "\n" ++
        "  argument:   " ++ redex.arg.print lambda ++ "\n" ++
        "  parameter:  " ++ toString redex.parameterUses.length ++ " occurence(s) of '" ++ redex.param ++
          "' in the body\n" ++
        String.join (results.map fun result => "  result:     " ++ result ++ "\n")

/-- The line of the step with the given index. -/
def historyLine (lambda : String) (index : Nat) (linked : LinkedStep) : String :=
  let term := linked.step.term.print lambda
  match linked.links, linked.step.reduced with
  | some links, some label =>
    "  " ++ toString index ++ ": [" ++ toString label ++ "] -> " ++ term ++ "  (" ++
      toString links.copies.length ++ " copies)\n"
  | _, _ => "  " ++ toString index ++ ": " ++ term ++ "\n"

/-- Lists the steps under the text that they start from. That text is printed before the steps are linked. -/
def history (shell : Shell) : Reply :=
  if !shell.session.loaded then shell.say "No λ-term loaded.\n"
  else
    let heading := "Steps from: " ++ shell.session.source.getD "None" ++ "\n"
    match shell.session.chain with
    | .error fault => { shell, out := Styled.plain heading, signal := some fault.signal }
    | .ok chain => shell.say (heading ++ String.join (chain.mapIdx (historyLine shell.options.lambda)))

def catalogText : String :=
  String.join (catalog.mapIdx fun index sample =>
    "  " ++ toString (index + 1) ++ ". " ++ sample.name ++ ": " ++ sample.description ++ "\n     " ++
      sample.term ++ "\n") ++
  "Type 'examples <number>' to load one.\n"

def tooManyDigits (digits : Nat) : Defect where
  kind := "ValueError"
  text :=
    "Exceeds the limit (4300 digits) for integer string conversion: value has " ++ toString digits ++
      " digits; use sys.set_int_max_str_digits() to increase the limit"

def noSuchExample (choice : String) : Diagnostic :=
  .about
    [{ text := "example must be between 1 and " ++ toString catalog.length ++ ", got '" },
      Diagnostic.snippet choice, { text := "'" }]
    choice { explained := false }

/-- Loads the sample that `choice` names in place of the current term. -/
def loadExample (shell : Shell) (choice : String) : Reply :=
  let number : Except Text.Numeral.Fault Int :=
    if Text.isDecimal choice then Text.Numeral.read choice else .ok 0
  match number with
  | .error (.tooLong digits) => { shell, signal := some (.defect (tooManyDigits digits) false) }
  | .error .malformed => { shell, signal := some (.diagnostic (noSuchExample choice)) }
  | .ok number =>
    match if number < 1 then none else catalog[number.toNat - 1]? with
    | none => { shell, signal := some (.diagnostic (noSuchExample choice)) }
    | some sample =>
      let cleared := shell.reset
      (cleared.shell.enter sample.term).handled.after cleared.out cleared.log

def examples (shell : Shell) (choice : String) : Reply :=
  if choice = "" then shell.say catalogText else (shell.loadExample choice).handled

def helpText : String :=
  "Syntax:\n" ++
  "  Variables: x, y, z, foo, x'\n" ++
  "  Lambda:    λx.body  or  \\x.body\n" ++
  "  Apply:     (f x) or f x\n\n" ++
  "Enter a λ-term, then the number of the redex to reduce. Commands: show, undo, links,\n" ++
  "history, examples, reset, exit.\n"

/-- Shows the current term if there is one. -/
def viewIfLoaded (shell : Shell) : Reply := if shell.session.loaded then shell.view else { shell }

def run (shell : Shell) : Command → Reply
  | .blank => shell.viewIfLoaded
  | .view => shell.viewIfLoaded
  | .undo => shell.undo
  | .reset => shell.reset
  | .links => shell.links
  | .history => shell.history
  | .examples choice => shell.examples choice
  | .help => shell.say helpText
  | .endOfInput => { shell, out := Styled.plain "\n", stop := true }
  | .exit => { shell, stop := true }
  | .entry line => (shell.enter line).handled

/-- Answers one line. -/
def respond (shell : Shell) (line : String) : Reply := shell.run (Command.ofLine line)

end Shell

end BetaStepper
