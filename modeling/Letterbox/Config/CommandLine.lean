import Letterbox.Text.Blank
import Letterbox.Text.Numeral

/-! # The command line

Four settings that each take one value, and a request for help. A value that stands in an argument
of its own is looked at only when the next argument that is known has come, or the end; an argument
that is not known ends the reading before that. -/

namespace Letterbox

set_option autoImplicit false

open Text

structure CommandLine where
  config : Option String := none
  address : Option String := none
  port : Option UInt16 := none
  messagePath : Option String := none
deriving DecidableEq, Repr

namespace CommandLine

inductive Setting where
  | config
  | address
  | port
  | messagePath
deriving DecidableEq, Repr

def Setting.ofLong? (name : List Char) : Option Setting :=
  if name = "config".toList then some .config
  else if name = "address".toList then some .address
  else if name = "port".toList then some .port
  else if name = "message-path".toList then some .messagePath
  else none

def Setting.ofShort? (c : Char) : Option Setting :=
  if c = 'c' then some .config
  else if c = 'a' then some .address
  else if c = 'p' then some .port
  else none

inductive Fault where
  | unknownArgument
  /-- A value is missing, or empty where it must not be. -/
  | invalidValue
  | valueValidation
  | argumentConflict
  | tooManyValues
deriving DecidableEq, Repr

def Fault.message : Fault → String
  | unknownArgument => "unexpected argument"
  | invalidValue => "a value is required"
  | valueValidation => "invalid value for '--port'"
  | argumentConflict => "an argument cannot be used multiple times"
  | tooManyValues => "unexpected value for '--help'"

inductive Stop where
  | help
  | fault (f : Fault)
deriving DecidableEq, Repr

def isSet (c : CommandLine) : Setting → Bool
  | .config => c.config.isSome
  | .address => c.address.isSome
  | .port => c.port.isSome
  | .messagePath => c.messagePath.isSome

/-- Takes the value of a setting. That it is set twice is seen before the value is looked at. -/
def assign (c : CommandLine) (s : Setting) (value : List Char) : Except Stop CommandLine :=
  if c.isSet s then .error (.fault .argumentConflict)
  else match s with
    | .address => .ok { c with address := some (String.ofList value) }
    | .port => match numeral? 65535 value with
      | some n => .ok { c with port := some n.toUInt16 }
      | none => .error (.fault .valueValidation)
    | .config =>
      if value.isEmpty then .error (.fault .invalidValue)
      else .ok { c with config := some (String.ofList value) }
    | .messagePath =>
      if value.isEmpty then .error (.fault .invalidValue)
      else .ok { c with messagePath := some (String.ofList value) }

/-- A command line of which some arguments were read: a setting may have been named whose value was
not taken yet, and may not have come. -/
structure Reading where
  settings : CommandLine := {}
  pending : Option (Setting × Option (List Char)) := none
  /-- Whether a bare double dash has come. -/
  onlyValues : Bool := false

namespace Reading

def settle (r : Reading) : Except Stop Reading :=
  match r.pending with
  | none => .ok r
  | some (_, none) => .error (.fault .invalidValue)
  | some (s, some value) => do
    return { r with settings := ← r.settings.assign s value, pending := none }

def name (r : Reading) (s : Setting) (value : Option (List Char)) : Except Stop Reading := do
  let r ← r.settle
  match value with
  | some value => return { r with settings := ← r.settings.assign s value }
  | none => return { r with pending := some (s, none) }

def help (r : Reading) : Except Stop Reading := do
  let _ ← r.settle
  throw .help

def unknown : Except Stop Reading := .error (.fault .unknownArgument)

def long (r : Reading) (cs : List Char) : Except Stop Reading :=
  let (key, value) := match cutAt '=' cs with
    | some (key, value) => (key, some value)
    | none => (cs, none)
  match Setting.ofLong? key with
  | some s => r.name s value
  | none =>
    if key = "help".toList then
      if value.isSome then .error (.fault .tooManyValues) else r.help
    else unknown

def short (r : Reading) : List Char → Except Stop Reading
  | [] => unknown
  | c :: cs => match Setting.ofShort? c with
    | some s => r.name s (match cs with
      | [] => none
      | '=' :: value => some value
      | value => some value)
    | none => if c = 'h' then r.help else unknown

def value (r : Reading) (cs : List Char) : Except Stop Reading :=
  match r.pending with
  | some (s, none) => .ok { r with pending := some (s, some cs) }
  | _ => unknown

def argument (r : Reading) (a : String) : Except Stop Reading :=
  if r.onlyValues then unknown
  else match a.toList with
    | ['-', '-'] => .ok { r with onlyValues := true }
    | '-' :: '-' :: cs => r.long cs
    | '-' :: c :: cs => r.short (c :: cs)
    | cs => r.value cs

end Reading

def read (arguments : List String) : Except Stop CommandLine := do
  let r ← arguments.foldlM Reading.argument {}
  return (← r.settle).settings

def helpText : String :=
  "SMTP sink for testing: receives mail, stores it, relays it by rule\n" ++
  "\n" ++
  "Usage: mailsink [OPTIONS]\n" ++
  "\n" ++
  "Options:\n" ++
  "  -c, --config <CONFIG>              " ++
    "Configuration file (defaults to ./mailsink.toml when present)\n" ++
  "  -a, --address <ADDRESS>            SMTP listen address (\"any\" for all interfaces)\n" ++
  "  -p, --port <PORT>                  SMTP listen port\n" ++
  "      --message-path <MESSAGE_PATH>  Directory where received messages are stored\n" ++
  "  -h, --help                         Print help\n"

end CommandLine

end Letterbox
