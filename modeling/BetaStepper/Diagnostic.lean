import BetaStepper.Text.Basic
import BetaStepper.Text.Styled
import BetaStepper.Text.Template

/-! # Diagnostics

A diagnostic is a message about a piece of text together with the part of the text that it points at. The message
is a filled template whose snippets are set in bold. -/

namespace BetaStepper

/-- What goes with a message: the part of the subject it points at, whether to show that part, and whether the
program itself is to blame. A `stop` of -1 is the end of the subject. -/
structure Diagnostic.Details where
  start : Int := 0
  stop : Int := -1
  explained : Bool := true
  internal : Bool := false
deriving DecidableEq

structure Diagnostic where
  message : Styled
  subject : String
  start : Int
  stop : Int
  explained : Bool
  internal : Bool
deriving DecidableEq

namespace Diagnostic

inductive Fault where
  | template (fault : Template.Fault)
  /-- There are no snippets, so there is no subject. -/
  | noSubject
deriving DecidableEq

/-- A diagnostic about `subject` with a message that is already filled. -/
def about (message : Styled) (subject : String) (details : Details) : Diagnostic where
  message := message
  subject := subject
  start := details.start
  stop := if details.stop = -1 then subject.length else details.stop
  explained := details.explained
  internal := details.internal

/-- The style of the snippets in a message. -/
def snippetStyle : Style := { bold := true }

def snippet (text : String) : Span := snippetStyle.span text

/-- A diagnostic from a template and its snippets, the first of which is the subject. The template is filled twice,
with the snippets as they are and with the painted ones, and layouts count the characters of what they are given. -/
def make (template : String) (snippets : List String) (details : Details) : Except Fault Diagnostic := do
  let text ← (Template.fill template snippets).mapError .template
  let painted ← (Template.fill template (snippets.map snippetStyle.paint)).mapError .template
  match snippets with
  | [] => throw .noSubject
  | subject :: _ => return about [{ text, painted }] subject details

/-- A diagnostic that points at one character of `text`. The message may quote the text, so it is no template. -/
def atPosition (message text : String) (position : Int) : Except Fault Diagnostic :=
  make (Template.quote message) [text] { start := position, stop := position + 1 }

/-- The message without style. -/
def text (diagnostic : Diagnostic) : String := diagnostic.message.render false

inductive Severity where
  | error
  | warning
deriving DecidableEq

namespace Severity

def style : Severity → Style
  | error => { foreground := some .red, bold := true }
  | warning => { foreground := some .magenta, bold := true }

def heading : Severity → String
  | error => "error: "
  | warning => "warning: "

end Severity

/-- The subject with the part pointed at set off, and a line of carets under that part. -/
def excerpt (diagnostic : Diagnostic) (severity : Severity) : Styled :=
  let start := diagnostic.start
  let stop := max diagnostic.stop (start + 1)
  [{ text := "  " ++ Text.takeTo diagnostic.subject start },
    severity.style.span (Text.slice diagnostic.subject start stop),
    { text := Text.dropTo diagnostic.subject stop ++ "\n" },
    { text := "  " ++ Text.repeated ' ' start },
    severity.style.span ("^" ++ Text.repeated '~' (stop - start - 1))]

/-- All that is printed for a diagnostic. -/
def report (diagnostic : Diagnostic) (severity : Severity) : Styled :=
  let blame : Styled :=
    if diagnostic.internal && severity = .error then [severity.style.span "[internal] "] else []
  let details : Styled :=
    if !diagnostic.internal && diagnostic.subject ≠ "" && diagnostic.explained then
      diagnostic.excerpt severity ++ Styled.plain "\n"
    else []
  blame ++ severity.style.span severity.heading :: diagnostic.message ++ Styled.plain "\n" ++ details

end Diagnostic

end BetaStepper
