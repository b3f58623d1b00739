import BetaStepper.Handler

/-! # Work inside nested handlers

A piece of work may raise a signal of its own, or report through the innermost handler around it. The signal then
passes the handlers from the inside out. -/

namespace BetaStepper

/-- Something that can go wrong, before it is made into a signal. -/
inductive Trouble where
  | generic (template : String) (snippets : List String) (details : Diagnostic.Details)
  | atPosition (message text : String) (position : Int)
  | tooDeep
  | interrupt
  | exit (text : String)
  | defect (defect : Defect)

def Trouble.signal : Trouble → Signal
  | generic template snippets details => .ofDiagnostic (Diagnostic.make template snippets details)
  | atPosition message text position => .ofDiagnostic (Diagnostic.atPosition message text position)
  | tooDeep => .tooDeep
  | interrupt => .interrupt
  | exit text => .exit (.text text)
  | defect cause => .defect cause false

inductive Work where
  | rest
  | raise (trouble : Trouble)
  | throw (trouble : Trouble)
  | warn (template : String) (snippets : List String) (details : Diagnostic.Details)

namespace Handler

/-- Throwing what is no diagnostic fails once it has been counted. -/
def throwOther (handler : Handler) (kind : String) : Report where
  handler := { handler with errors := handler.errors + 1 }
  signal := some (.defect ⟨"AttributeError", "'" ++ kind ++ "' object has no attribute 'internal'"⟩ false)

/-- Does the work inside the handler, up to the point where the handler is left. -/
def perform (handler : Handler) : Work → Report
  | .rest => { handler }
  | .raise trouble => { handler, signal := some trouble.signal }
  | .throw (.defect defect) => handler.throwOther defect.kind
  | .throw .tooDeep => handler.throwOther "RecursionError"
  | .throw .interrupt => handler.throwOther "KeyboardInterrupt"
  | .throw (.exit _) => handler.throwOther "SystemExit"
  | .throw trouble =>
    match trouble.signal with
    | .diagnostic diagnostic => handler.throw diagnostic
    | signal => { handler, signal := some signal }
  | .warn template snippets details =>
    match Diagnostic.make template snippets details with
    | .ok diagnostic => handler.warn diagnostic
    | .error fault => { handler, signal := some (.defect fault.defect false) }

/-- What nested handlers leave behind. -/
structure Outcome where
  handlers : List Handler
  out : String := ""
  signal : Option Signal := none

/-- The signal passes the handlers, from the innermost, which is the last, to the outermost. -/
def passOut (signal : Option Signal) : List Handler → Outcome
  | [] => { handlers := [], signal }
  | outer :: inner =>
    let done := passOut signal inner
    let left := outer.leave done.signal
    { handlers := left.handler :: done.handlers
      out := done.out ++ left.out.render outer.color
      signal := left.signal }

/-- Does the work inside the handlers, which are given from the outermost to the innermost. Only the innermost takes
part in the work; what the work raises then passes all of them. -/
def nest (work : Work) (handlers : List Handler) : Outcome :=
  match handlers.getLast? with
  | none => passOut (({} : Handler).perform work).signal []
  | some innermost =>
    let done := innermost.perform work
    let passed := passOut done.signal (handlers.dropLast ++ [done.handler])
    { passed with out := done.out.render innermost.color ++ passed.out }

end Handler

end BetaStepper
