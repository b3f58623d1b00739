import BetaStepper.Text.Basic
import BetaStepper.Text.Quoted

/-! # The command line

Options may stand before or after the one term. Long options may be cut short as long as only one of them fits,
short options may be joined, and everything after `--` is a term. Words are sorted into options and others first,
so an ambiguous option is an error whatever else is asked for. -/

namespace BetaStepper.CommandLine

inductive Switch where
  | help
  | noColor
  | noIds
  | ascii
  | verbose
deriving DecidableEq

namespace Switch

/-- The spellings of a switch, short before long. -/
def spellings : Switch → List String
  | help => ["-h", "--help"]
  | noColor => ["--no-color"]
  | noIds => ["--no-ids"]
  | ascii => ["--ascii"]
  | verbose => ["-v", "--verbose"]

def all : List Switch := [help, noColor, noIds, ascii, verbose]

/-- Every spelling with its switch. -/
def table : List (String × Switch) :=
  all.flatMap fun switch => switch.spellings.map fun spelling => (spelling, switch)

def spelled? (spelling : String) : Option Switch := table.lookup spelling

end Switch

inductive Fault where
  | unrecognized (words : List String)
  | ambiguous (word : String) (candidates : List String)
  | ignoredValue (switch : Switch) (value : String)
deriving DecidableEq

def Fault.message : Fault → String
  | unrecognized words => "unrecognized arguments: " ++ " ".intercalate words
  | ambiguous word candidates =>
    "ambiguous option: " ++ word ++ " could match " ++ ", ".intercalate candidates
  | ignoredValue switch value =>
    "argument " ++ "/".intercalate switch.spellings ++ ": ignored explicit argument " ++ Text.quoted value

/-- What is asked for. `help` wins over the rest. -/
structure Request where
  term : Option String := none
  help : Bool := false
  noColor : Bool := false
  noIds : Bool := false
  ascii : Bool := false
  verbosity : Nat := 0
deriving DecidableEq

/-! ## Sorting words -/

/-- A word of the command line: the mark before terms, an option that is known, an option that is not, or a term.
`short` tells that the spelling has one dash, and `value` is what is attached to it. -/
inductive Word where
  | mark
  | option (switch : Switch) (short : Bool) (value : Option (List Char))
  | unknown (text : String)
  | term (text : String)

/-- A word without the line break that it may end with. -/
def dropLineBreak (chars : List Char) : List Char :=
  if chars.getLast? = some '\n' then chars.dropLast else chars

/-- A negative number, which is no option. One line break may follow it. -/
def isNegativeNumber (chars : List Char) : Bool :=
  match dropLineBreak chars with
  | '-' :: rest =>
    let whole := rest.takeWhile Text.isDigit
    match rest.dropWhile Text.isDigit with
    | [] => !whole.isEmpty
    | '.' :: fraction => !fraction.isEmpty && fraction.all Text.isDigit
    | _ => false
  | _ => false

/-- Cuts a word at its first equals sign. -/
def cutValue (chars : List Char) : List Char × Option (List Char) :=
  match chars.dropWhile (· != '=') with
  | _ :: value => (chars.takeWhile (· != '='), some value)
  | [] => (chars, none)

/-- The options that a word may stand for: for a long one all that start with it, for a short one the option of its
first letter, the other letters being attached to it. -/
def candidates (chars : List Char) : List (String × Switch × Bool × Option (List Char)) :=
  match chars with
  | '-' :: '-' :: _ =>
    let (front, value) := cutValue chars
    (Switch.table.filter fun entry => front.isPrefixOf entry.1.toList).map fun entry =>
      (entry.1, entry.2, false, value)
  | '-' :: letter :: value =>
    match Switch.spelled? (String.ofList ['-', letter]) with
    | some switch => [(String.ofList ['-', letter], switch, true, some value)]
    | none => []
  | _ => []

/-- Sorts one word that stands before any mark. -/
def sort (text : String) : Except Fault Word :=
  let chars := text.toList
  match chars with
  | '-' :: second :: _ =>
    let short := second != '-'
    match Switch.spelled? text with
    | some switch => .ok (.option switch short none)
    | none =>
      let (front, value) := cutValue chars
      match value, Switch.spelled? (String.ofList front) with
      | some value, some switch => .ok (.option switch short (some value))
      | _, _ =>
        match candidates chars with
        | [(_, switch, short, value)] => .ok (.option switch short value)
        | [] =>
          if isNegativeNumber chars || chars.contains ' ' then .ok (.term text) else .ok (.unknown text)
        | several => .error (.ambiguous text (several.map (·.1)))
  | _ => .ok (.term text)

/-- Sorts all words. After the first mark everything is a term. -/
def sortAll : List String → Except Fault (List Word)
  | [] => .ok []
  | "--" :: rest => .ok (.mark :: rest.map .term)
  | text :: rest =>
    match sort text with
    | .error fault => .error fault
    | .ok word => (sortAll rest).map (word :: ·)

/-! ## Reading words -/

/-- A request in the making. `taken` tells that the place of the term has been filled, or passed with a mark. -/
structure State where
  request : Request := {}
  taken : Bool := false
  extras : List String := []

def Request.apply (request : Request) : Switch → Request
  | .help => { request with help := true }
  | .noColor => { request with noColor := true }
  | .noIds => { request with noIds := true }
  | .ascii => { request with ascii := true }
  | .verbose => { request with verbosity := request.verbosity + 1 }

/-- Reads the letters attached to a short option as more short options. -/
def joined (switch : Switch) : List Char → Except Fault (List Switch)
  | [] => .ok [switch]
  | letter :: rest =>
    match Switch.spelled? (String.ofList ['-', letter]) with
    | none => .error (.ignoredValue switch (String.ofList (letter :: rest)))
    | some next => (joined next rest).map (switch :: ·)

/-- The switches that an option word sets. -/
def switches (switch : Switch) (short : Bool) : Option (List Char) → Except Fault (List Switch)
  | none => .ok [switch]
  | some value =>
    if short && !value.isEmpty then joined switch value
    else .error (.ignoredValue switch (String.ofList value))

def Word.text : Word → String
  | mark => "--"
  | option _ _ _ => ""
  | unknown text => text
  | term text => text

/-- Reads the words from left to right. A mark next to the term belongs to it. Asking for help ends the reading. -/
def read (state : State) : List Word → Except Fault State
  | [] => .ok state
  | .option switch short value :: rest =>
    match switches switch short value with
    | .error fault => .error fault
    | .ok switches =>
      let request := switches.foldl Request.apply state.request
      if request.help then .ok { state with request } else read { state with request } rest
  | .unknown text :: rest => read { state with extras := state.extras ++ [text] } rest
  | .term text :: .mark :: rest =>
    if state.taken then .ok { state with extras := state.extras ++ text :: "--" :: rest.map (·.text) }
    else .ok { state with request.term := some text, taken := true, extras := state.extras ++ rest.map (·.text) }
  | .term text :: rest =>
    if state.taken then read { state with extras := state.extras ++ [text] } rest
    else read { state with request.term := some text, taken := true } rest
  | .mark :: rest =>
    if state.taken then .ok { state with extras := state.extras ++ "--" :: rest.map (·.text) }
    else
      match rest with
      | [] => .ok { state with taken := true }
      | first :: others =>
        .ok { state with
          request.term := some first.text, taken := true, extras := state.extras ++ others.map (·.text) }

/-- The request that the words of a command line make. -/
def parse (words : List String) : Except Fault Request :=
  match sortAll words with
  | .error fault => .error fault
  | .ok sorted =>
    match read {} sorted with
    | .error fault => .error fault
    | .ok state =>
      if state.request.help || state.extras.isEmpty then .ok state.request
      else .error (.unrecognized state.extras)

/-! ## Texts -/

def usage : String := "usage: lcstep [-h] [--no-color] [--no-ids] [--ascii] [-v] [expr]\n"

def helpText : String :=
  usage ++
  "\n" ++
  "Step through beta reductions of a λ-term.\n" ++
  "\n" ++
  "positional arguments:\n" ++
  "  expr           λ-term to load (if empty, one is asked for at the prompt)\n" ++
  "\n" ++
  "options:\n" ++
  "  -h, --help     show this help message and exit\n" ++
  "  --no-color     do not color output\n" ++
  "  --no-ids       do not print redex ids under the term\n" ++
  "  --ascii        print '\\' instead of 'λ'\n" ++
  "  -v, --verbose  log more (repeat for debug output)\n"

def Fault.report (fault : Fault) : String := usage ++ "lcstep: error: " ++ fault.message ++ "\n"

end BetaStepper.CommandLine
