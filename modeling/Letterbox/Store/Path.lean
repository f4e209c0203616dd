import Letterbox.Text.Blank

/-! # Paths

A path is a text; what it means is the row of its components. Slashes may be repeated and may end
it, and a dot stands for nothing but at the very beginning. Two dots are a component like any other:
where they lead is known only to the disk. -/

namespace Letterbox.Path

set_option autoImplicit false

open Text

inductive Component where
  | here
  | up
  | name (text : String)
deriving DecidableEq, Repr

structure Components where
  rooted : Bool
  parts : List Component
deriving DecidableEq, Repr

def isRooted (path : String) : Bool := path.toList.head? = some '/'

def segments (path : String) : List String :=
  ((splitAt '/' path.toList).filter (!·.isEmpty)).map String.ofList

def componentOf (segment : String) : Component := if segment = ".." then .up else .name segment

def beginsHere (path : String) : Bool := !isRooted path && (segments path).head? = some "."

def components (path : String) : Components :=
  { rooted := isRooted path
    parts := (if beginsHere path then [.here] else []) ++
      ((segments path).filter (· ≠ ".")).map componentOf }

def Components.parent? (c : Components) : Option Components :=
  if c.parts.isEmpty then none else some { c with parts := c.parts.dropLast }

def parent? (path : String) : Option Components := (components path).parent?

/-- Appends a path to another; a rooted one stands alone. -/
def join (base path : String) : String :=
  if isRooted path then path
  else if base.isEmpty || base.toList.getLast? = some '/' then base ++ path
  else base ++ "/" ++ path

def fileName? (path : String) : Option String :=
  match (components path).parts.getLast? with
  | some (.name n) => some n
  | _ => none

/-- What stands behind the last dot of a name that does not begin with its only dot. -/
def extension? (name : String) : Option String :=
  let pieces := splitAt '.' name.toList
  match pieces.reverse with
  | last :: before :: more =>
    if more.isEmpty && before.isEmpty then none else some (String.ofList last)
  | _ => none

def quoteChar (c : Char) : List Char :=
  if c = '"' then ['\\', '"']
  else if c = '\\' then ['\\', '\\']
  else if c = '\n' then ['\\', 'n']
  else if c = '\r' then ['\\', 'r']
  else if c = '\t' then ['\\', 't']
  else if c.toNat = 0 then ['\\', '0']
  else [c]

def quoted (path : String) : String :=
  String.ofList ('"' :: (path.toList.flatMap quoteChar ++ ['"']))

end Letterbox.Path
