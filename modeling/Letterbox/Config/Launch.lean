import Letterbox.Config.CommandLine
import Letterbox.Config.Reader
import Letterbox.Store.Disk

/-! # What the program is started with

The configuration comes from a file, if there is one, and the command line has the last word. -/

namespace Letterbox

set_option autoImplicit false

/-- Why the program does not run, and what it was about to do if that has to be said. -/
structure Trouble where
  context : Option String := none
  cause : Failure
deriving DecidableEq, Repr

namespace Trouble

def causes (f : Failure) : List String :=
  match f with
  | .system fault => [f.message, fault.message]
  | _ => [f.message]

def message (t : Trouble) : String := ": ".intercalate (t.context.toList ++ causes t.cause)

end Trouble

namespace Config

def defaultFile : String := "mailsink.toml"

/-- The file that a command line means, as a disk has it. One that is not named may be missing. -/
def fileOn (d : Disk) (l : CommandLine) : Option FileAnswer :=
  match l.config with
  | some path => some (d.read path)
  | none => if d.pathExists defaultFile then some (d.read defaultFile) else none

def base (machine : String) (named : Option String) (found : Option FileAnswer) :
    Except Trouble Config :=
  match found with
  | none => .ok (ofMachine machine)
  | some file => match load machine file with
    | .ok c => .ok c
    | .error cause => .error { context := named.map ("loading configuration from " ++ ·), cause }

def override (c : Config) (l : CommandLine) : Config :=
  { c with
    mail :=
      { c.mail with address := l.address.getD c.mail.address, port := l.port.getD c.mail.port }
    storage := { messagePath := l.messagePath.getD c.storage.messagePath } }

def launch (machine : String) (found : Option FileAnswer) (l : CommandLine) :
    Except Trouble Config := do
  let c := (← base machine l.config found).override l
  match c.validate with
  | .ok () => return c
  | .error cause => throw { cause }

end Config

end Letterbox
