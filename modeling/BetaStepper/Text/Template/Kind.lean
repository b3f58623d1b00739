/-! # Kinds of values

The name of a field may lead from a snippet to its kind, and from there to what is known of the kind: its name and
home, the kinds above it, a summary, and the operations of its values. A kind is itself a value with a kind. -/

namespace BetaStepper.Template

inductive Kind where
  | text
  /-- The kind of all kinds. -/
  | kinds
  /-- The kind above all others. -/
  | any
  | group
  | nothing
  /-- A kind with an argument. -/
  | applied
  | method
  | slot
  | boundMethod
  | boundSlot
deriving DecidableEq

namespace Kind

def name : Kind → String
  | text => "str"
  | kinds => "type"
  | any => "object"
  | group => "tuple"
  | nothing => "NoneType"
  | applied => "GenericAlias"
  | method => "method_descriptor"
  | slot => "wrapper_descriptor"
  | boundMethod => "builtin_function_or_method"
  | boundSlot => "method-wrapper"

/-- Where a kind is at home. -/
def home : Kind → String
  | applied => "types"
  | _ => "builtins"

/-- The name of a kind, after its home if it is not among the common kinds. -/
def fullName (kind : Kind) : String :=
  if kind.home = "builtins" then kind.name else kind.home ++ "." ++ kind.name

def base? : Kind → Option Kind
  | any => none
  | _ => some any

/-- A kind and those above it. -/
def ancestry (kind : Kind) : List Kind := kind :: kind.base?.toList

/-- Whether a kind takes arguments. -/
def isGeneric : Kind → Bool
  | kinds => true
  | group => true
  | _ => false

def summary? : Kind → Option String
  | text => some <|
    "str(object='') -> str\n" ++
    "str(bytes_or_buffer[, encoding[, errors]]) -> str\n\n" ++
    "Create a new string object from the given object. If encoding or\n" ++
    "errors is specified, then the object must expose a data buffer\n" ++
    "that will be decoded using the given encoding and error handler.\n" ++
    "Otherwise, returns the result of object.__str__() (if defined)\n" ++
    "or repr(object).\n" ++
    "encoding defaults to sys.getdefaultencoding().\n" ++
    "errors defaults to 'strict'."
  | kinds => some <|
    "type(object) -> the object's type\n" ++
    "type(name, bases, dict, **kwds) -> a new type"
  | any => some <|
    "The base class of the class hierarchy.\n\n" ++
    "When called, it accepts no arguments and returns a new featureless\n" ++
    "instance that has no instance attributes and cannot be given any.\n"
  | group => some <|
    "Built-in immutable sequence.\n\n" ++
    "If no argument is given, the constructor returns an empty tuple.\n" ++
    "If iterable is specified the tuple is initialized from iterable's items.\n\n" ++
    "If the argument is a tuple, the return value is the same object."
  | _ => none

/-! ## Operations -/

/-- The operations of a kind's values that are called by name. -/
def methods : Kind → List String
  | text =>
    ["capitalize", "casefold", "center", "count", "encode", "endswith", "expandtabs", "find", "format", "format_map",
      "index", "isalnum", "isalpha", "isascii", "isdecimal", "isdigit", "isidentifier", "islower", "isnumeric",
      "isprintable", "isspace", "istitle", "isupper", "join", "ljust", "lower", "lstrip", "partition", "removeprefix",
      "removesuffix", "replace", "rfind", "rindex", "rjust", "rpartition", "rsplit", "rstrip", "split", "splitlines",
      "startswith", "strip", "swapcase", "title", "translate", "upper", "zfill", "__format__", "__getnewargs__",
      "__sizeof__"]
  | kinds => ["mro", "__dir__", "__instancecheck__", "__sizeof__", "__subclasscheck__", "__subclasses__"]
  | any => ["__dir__", "__format__", "__getstate__", "__reduce__", "__reduce_ex__", "__sizeof__"]
  | group => ["count", "index", "__getnewargs__"]
  | nothing => []
  | applied => ["__dir__", "__instancecheck__", "__mro_entries__", "__reduce__", "__subclasscheck__"]
  | method => ["__reduce__"]
  | slot => ["__reduce__"]
  | boundMethod => ["__reduce__"]
  | boundSlot => ["__reduce__"]

/-- The operations of a kind's values that stand behind a sign, such as a sum or a comparison. -/
def slots : Kind → List String
  | text =>
    ["__add__", "__contains__", "__eq__", "__ge__", "__getattribute__", "__getitem__", "__gt__", "__hash__",
      "__iter__", "__le__", "__len__", "__lt__", "__mod__", "__mul__", "__ne__", "__repr__", "__rmod__", "__rmul__",
      "__str__"]
  | kinds =>
    ["__call__", "__delattr__", "__getattribute__", "__init__", "__or__", "__repr__", "__ror__", "__setattr__"]
  | any =>
    ["__delattr__", "__eq__", "__ge__", "__getattribute__", "__gt__", "__hash__", "__init__", "__le__", "__lt__",
      "__ne__", "__repr__", "__setattr__", "__str__"]
  | group =>
    ["__add__", "__contains__", "__eq__", "__ge__", "__getattribute__", "__getitem__", "__gt__", "__hash__",
      "__iter__", "__le__", "__len__", "__lt__", "__mul__", "__ne__", "__repr__", "__rmul__"]
  | nothing => ["__bool__", "__repr__"]
  | applied =>
    ["__call__", "__eq__", "__ge__", "__getattribute__", "__getitem__", "__gt__", "__hash__", "__iter__", "__le__",
      "__lt__", "__ne__", "__or__", "__repr__", "__ror__"]
  | method => ["__call__", "__get__", "__getattribute__", "__repr__"]
  | slot => ["__call__", "__get__", "__getattribute__", "__repr__"]
  | boundMethod => comparable
  | boundSlot => comparable
where
  /-- The signs of operations that can be called and compared. -/
  comparable : List String :=
    ["__call__", "__eq__", "__ge__", "__getattribute__", "__gt__", "__hash__", "__le__", "__lt__", "__ne__",
      "__repr__"]

end Kind

/-- An operation of the values of its owner, behind a sign or not. -/
structure Operation where
  name : String
  owner : Kind
  slot : Bool
deriving DecidableEq

/-- The operation of the given name that the values of a kind have, from the nearest kind that has it. -/
def Kind.operation? (kind : Kind) (name : String) : Option Operation :=
  kind.ancestry.findSome? fun owner =>
    if owner.methods.contains name then some { name, owner, slot := false }
    else if owner.slots.contains name then some { name, owner, slot := true }
    else none

end BetaStepper.Template
