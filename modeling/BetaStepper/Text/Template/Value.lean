import BetaStepper.Text.Quoted
import BetaStepper.Text.Template.Basic

/-! # Values of fields

The name of a field picks a snippet, and steps after it go from a value to an attribute (`.name`) or to a place in a
text or a group (`[2]`). The value reached is converted to text if the field asks for it, and set as its layout
says. -/

namespace BetaStepper.Template

/-- The number that `text` is, if it is one. A text that starts with too large a number is refused. -/
def number? (text : List Char) : Except Fault (Option Nat) :=
  match Text.Layout.readNumber text with
  | .error fault => .error (.layout fault)
  | .ok (value, rest) => .ok (if rest.isEmpty then value else none)

/-! ## Steps -/

inductive Step where
  | attribute (name : List Char)
  | place (name : List Char)
  /-- What follows a closing bracket is no step. -/
  | stray
deriving DecidableEq

/-- Where reading the steps stands. What has been seen of a name is held with its last character first. -/
inductive Step.Position where
  | start
  | attribute (seen : List Char)
  | place (seen : List Char)

/-- The steps that are written after the name of a snippet. -/
def steps : Step.Position → List Char → List Step
  | .start, [] => []
  | .start, c :: rest =>
    if c = '.' then steps (.attribute []) rest
    else if c = '[' then steps (.place []) rest
    else [.stray]
  | .attribute seen, [] => [.attribute seen.reverse]
  | .attribute seen, c :: rest =>
    if c = '.' then .attribute seen.reverse :: steps (.attribute []) rest
    else if c = '[' then .attribute seen.reverse :: steps (.place []) rest
    else steps (.attribute (c :: seen)) rest
  | .place seen, [] => [.place seen.reverse]
  | .place seen, c :: rest =>
    if c = ']' then .place seen.reverse :: steps .start rest else steps (.place (c :: seen)) rest

namespace Value

def kindOf : Value → Kind
  | text _ => .text
  | kind _ => .kinds
  | group _ => .group
  | nothing => .nothing
  | applied _ _ => .applied
  | operation action => if action.slot then .slot else .method
  | bound action _ => if action.slot then .boundSlot else .boundMethod

/-! ## Values as text -/

/-- Members in parentheses. A comma tells a single member from a parenthesis. -/
def listed : List String → String
  | [member] => "(" ++ member ++ ",)"
  | members => "(" ++ ", ".intercalate members ++ ")"

def ofKind (kind : Kind) : String := "<class '" ++ kind.fullName ++ "'>"

/-- A value as text. Of the receiver of an operation only the kind is told. -/
def toText : Value → String
  | text chars => chars
  | kind of => ofKind of
  | group members => listed (members.map ofKind)
  | nothing => "None"
  | applied of argument => of.fullName ++ "[" ++ argument ++ "]"
  | operation action =>
    (if action.slot then "<slot wrapper '" else "<method '") ++ action.name ++ "' of '" ++
      action.owner.fullName ++ "' objects>"
  | bound action receiver =>
    (if action.slot then "<method-wrapper '" ++ action.name ++ "'" else "<built-in method " ++ action.name) ++
      " of " ++ receiver.kindOf.fullName ++ " object>"

/-- A value as text that tells a text from other values. -/
def quoted : Value → String
  | text chars => Text.quoted chars
  | value => value.toText

/-- A value as text: as it stands, quoted, or quoted in ASCII. The null character asks for no conversion. -/
def convert (value : Value) (conversion : Char) : Except Fault Value :=
  match conversion with
  | '\x00' => .ok value
  | 's' => .ok (text value.toText)
  | 'r' => .ok (text value.quoted)
  | 'a' => .ok (text (Text.inAscii value.quoted))
  | _ => .error (.unknownConversion conversion)

/-- The text of a value, set as a layout directive says. -/
def set (value : Value) (directive : List Char) : Except Fault (List Char) :=
  match value with
  | text chars =>
    match Text.Layout.set directive chars.toList with
    | .error fault => .error (.layout fault)
    | .ok set => .ok set
  | _ => if directive.isEmpty then .ok value.toText.toList else .error (.noLayout value.kindOf)

/-! ## Attributes and places -/

def ofText? (text? : Option String) : Value := text?.elim nothing text

/-- What is known of a kind. The operations are those of its values, before those of the kind itself. -/
def kindAttribute? (of : Kind) (name : String) : Option Value :=
  match name with
  | "__class__" => some (kind .kinds)
  | "__name__" => some (text of.name)
  | "__qualname__" => some (text of.name)
  | "__module__" => some (text of.home)
  | "__doc__" => some (ofText? of.summary?)
  | "__base__" => some (of.base?.elim nothing kind)
  | "__bases__" => some (group of.base?.toList)
  | "__mro__" => some (group of.ancestry)
  | _ =>
    match of.operation? name with
    | some found => some (operation found)
    | none => (Kind.kinds.operation? name).map (bound · (kind of))

/-- What is known of an operation. -/
def operationAttribute? (action : Operation) (name : String) : Option Value :=
  match name with
  | "__name__" => some (text action.name)
  | "__qualname__" => some (text (action.owner.name ++ "." ++ action.name))
  | "__objclass__" => some (kind action.owner)
  | _ => none

/-- What is known of an operation of one value. An operation behind a sign belongs to its owner, another one to the
kind of the receiver. -/
def boundAttribute? (action : Operation) (receiver : Value) (name : String) : Option Value :=
  match name, action.slot with
  | "__self__", _ => some receiver
  | _, true => operationAttribute? action name
  | "__name__", false => some (text action.name)
  | "__qualname__", false =>
    let place := match receiver with
      | kind of => of
      | _ => receiver.kindOf
    some (text (place.name ++ "." ++ action.name))
  | "__module__", false => some nothing
  | _, false => none

/-- What a value has of its own under a name, its kind and its operations apart. -/
def ownAttribute? (value : Value) (name : String) : Option Value :=
  match value, name with
  | text _, "__doc__" => some (ofText? value.kindOf.summary?)
  | group _, "__doc__" => some (ofText? value.kindOf.summary?)
  | nothing, "__doc__" => some nothing
  | operation action, _ => operationAttribute? action name
  | bound action receiver, _ => boundAttribute? action receiver name
  | _, _ => none

def attribute? (value : Value) (name : String) : Option Value :=
  match value, name with
  | kind of, _ => kindAttribute? of name
  | _, "__class__" => some (kind value.kindOf)
  | applied of _, "__origin__" => some (kind of)
  | applied of _, _ => kindAttribute? of name
  | _, _ => (value.ownAttribute? name).or ((value.kindOf.operation? name).map (bound · value))

/-- The value whose attributes a value has, if it has few of its own. -/
def bearer : Value → Value
  | applied of _ => kind of
  | value => value

/-- What stands at a place of a value: a character of a text, a member of a group. The places of a kind that takes
arguments are the kinds with an argument. -/
def place (value : Value) (name : List Char) (index? : Option Nat) : Except Fault Value :=
  match value, index? with
  | text chars, some index =>
    match chars.toList[index]? with
    | some c => .ok (text (String.singleton c))
    | none => .error (.outOf value)
  | group members, some index =>
    match members[index]? with
    | some member => .ok (kind member)
    | none => .error (.outOf value)
  | text _, none => .error (.unplaced value)
  | group _, none => .error (.unplaced value)
  | kind of, _ =>
    if of.isGeneric then .ok (applied of (index?.elim (Text.quoted (String.ofList name)) toString))
    else .error (.noPlaces value)
  | _, _ => .error (.noPlaces value)

def step (value : Value) : Step → Except Fault Value
  | .attribute [] => .error .emptyStep
  | .place [] => .error .emptyStep
  | .stray => .error .afterBracket
  | .attribute name =>
    match value.attribute? (String.ofList name) with
    | some next => .ok next
    | none => .error (.noAttribute value.bearer (String.ofList name))
  | .place name =>
    match number? name with
    | .error fault => .error fault
    | .ok index? => value.place name index?

end Value

end BetaStepper.Template
