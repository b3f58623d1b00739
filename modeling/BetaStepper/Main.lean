import BetaStepper.Program

/-! # The command

Reads lines as they come, prints the answers, and leaves every decision to `Program` and `Shell`. -/

namespace BetaStepper.Program

/-- Prints a reply. -/
def emit (request : CommandLine.Request) (out : Styled) (log : List Log.Event) : IO Unit := do
  IO.print (out.render (options request).color)
  (← IO.getStdout).flush
  IO.eprint (Log.write request.verbosity log)

/-- Reads a line without its end. -/
def readLine : IO String := do
  let line ← (← IO.getStdin).getLine
  if line.isEmpty then return lastLine
  return if line.endsWith "\n" then (line.dropEnd 1).toString else line

partial def interact (request : CommandLine.Request) (shell : Shell) : IO UInt32 := do
  emit request (Styled.plain shell.prompt.text) []
  let reply := shell.respond (← readLine)
  emit request reply.out reply.log
  if reply.stop || reply.signal.isSome then
    let report := (guardian request).leave reply.signal
    emit request report.out report.log
    return (exitStatus report.signal).toUInt32
  interact request reply.shell

end BetaStepper.Program

open BetaStepper in
def main (words : List String) : IO UInt32 := do
  match CommandLine.parse words with
  | .error fault =>
    IO.eprint fault.report
    return 2
  | .ok request =>
    if request.help then
      IO.print CommandLine.helpText
      return 0
    let opening := Program.start request
    Program.emit request opening.out opening.log
    Program.emit request (Styled.plain Program.greeting) []
    Program.interact request opening.shell
