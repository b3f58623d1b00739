import BetaStepper.CommandLine
import BetaStepper.Shell

/-! # The program

A run of the program as a function of its command line and its input: a term on the command line is entered first,
then the shell greets and answers line after line until it is told to stop. The end of the input is a line of its
own. A fatal handler stands around the conversation. -/

namespace BetaStepper.Program

structure Result where
  stdout : String := ""
  stderr : String := ""
  status : Nat := 0
deriving DecidableEq

def greeting : String :=
  "Lambda calculus beta reducer :: Python backend\nType '?' or 'help' for more information.\n"

def options (request : CommandLine.Request) : Display.Options where
  color := !request.noColor
  showLabels := !request.noIds
  lambda := if request.ascii then "\\" else "λ"

/-- The shell after the term of the command line, if there is one, has been entered. -/
def start (request : CommandLine.Request) : Shell.Reply :=
  let shell := Shell.new (options request)
  match request.term with
  | none => { shell }
  | some term => (shell.enter term).handled

/-- The line that stands for the end of the input. -/
def lastLine : String := "EOF"

/-- Answers the lines one by one, each after a prompt, until the shell stops or a signal escapes it. -/
def converse (shell : Shell) : List String → Shell.Reply
  | [] => (shell.respond lastLine).after (Styled.plain shell.prompt.text) []
  | line :: rest =>
    let reply := shell.respond line
    if reply.stop || reply.signal.isSome then reply.after (Styled.plain shell.prompt.text) []
    else (converse reply.shell rest).after (Styled.plain shell.prompt.text ++ reply.out) reply.log

/-- The handler around the conversation. -/
def guardian (request : CommandLine.Request) : Handler := { fatal := true, color := (options request).color }

/-- The status of a program that ends with the given signal. -/
def exitStatus : Option Signal → Nat
  | none => 0
  | some (.exit (.status code)) => code
  | some _ => 1

/-- The lines of the input. -/
def linesOf (input : String) : List String :=
  let pieces := input.splitOn "\n"
  if pieces.getLast? = some "" then pieces.dropLast else pieces

def serve (request : CommandLine.Request) (input : String) : Result :=
  let opening := start request
  let talk := converse opening.shell (linesOf input)
  let report := (guardian request).leave talk.signal
  { stdout :=
      Styled.render (options request).color (opening.out ++ Styled.plain greeting ++ talk.out ++ report.out)
    stderr := Log.write request.verbosity (opening.log ++ talk.log ++ report.log)
    status := exitStatus report.signal }

def run (words : List String) (input : String) : Result :=
  match CommandLine.parse words with
  | .error fault => { stderr := fault.report, status := 2 }
  | .ok request => if request.help then { stdout := CommandLine.helpText } else serve request input

end BetaStepper.Program
