import Letterbox.Failure
import Letterbox.Store.Path
import Letterbox.Text.Utf8

/-! # A disk

Files and directories without links, each at the row of names that leads to it from the root. Paths
are followed the way the operating system does: every name on the way must be a directory that
exists, and two dots lead back. -/

namespace Letterbox

set_option autoImplicit false

inductive Item where
  | file (data : Bytes) (createdAt : Int)
  | directory (size : UInt64) (createdAt : Int)
deriving DecidableEq, Repr

def Item.isDirectory : Item → Bool
  | .directory .. => true
  | .file .. => false

abbrev Place := List String

structure Disk where
  /-- All items but the root, each place once. -/
  items : List (Place × Item) := []
  current : Place := []
  /-- The size that the file system gives to a new directory. -/
  directorySize : UInt64 := 4096
deriving DecidableEq, Repr

namespace Disk

/-- The root, of which nothing is ever told. -/
def root : Item := .directory 4096 0

def item? (d : Disk) (p : Place) : Option Item :=
  if p.isEmpty then some root else d.items.lookup p

def follow (p : Place) (segment : String) : Place :=
  if segment = "." then p else if segment = ".." then p.dropLast else p ++ [segment]

def maxName : Nat := 255

def maxPath : Nat := 4095

def nameTooLong : SystemFault := .other "File name too long (os error 36)"

/-- Goes along segments; all but the last must be directories. -/
def walk (d : Disk) (p : Place) : List String → Except SystemFault Place
  | [] => .ok p
  | s :: rest => match d.item? p with
    | none => .error .notFound
    | some (.file ..) => .error .notADirectory
    | some (.directory ..) =>
      if maxName < s.utf8ByteSize then .error nameTooLong else walk d (follow p s) rest

/-- The segments of a path; a slash at the end demands a directory. -/
def segments (path : String) : List String :=
  Path.segments path ++ (if path.toList.getLast? = some '/' then ["."] else [])

def refusal? (path : String) : Option SystemFault :=
  if path.toList.contains '\x00' then some (.other "file name contained an unexpected NUL byte")
  else if maxPath < path.utf8ByteSize then some nameTooLong
  else none

def origin (d : Disk) (path : String) : Place := if Path.isRooted path then [] else d.current

def resolve (d : Disk) (path : String) : Except SystemFault Place :=
  match refusal? path with
  | some f => .error f
  | none => if path.isEmpty then .error .notFound else d.walk (d.origin path) (segments path)

def find (d : Disk) (path : String) : Except SystemFault Item := do
  match d.item? (← d.resolve path) with
  | some i => return i
  | none => throw .notFound

def pathExists (d : Disk) (path : String) : Bool := (d.find path).isOk

def read (d : Disk) (path : String) : Except SystemFault Bytes := do
  match ← d.find path with
  | .file data _ => return data
  | .directory .. => throw .isADirectory

def put (d : Disk) (p : Place) (i : Item) : Disk :=
  if d.items.any (·.1 = p) then
    { d with items := d.items.map fun e => if e.1 = p then (p, i) else e }
  else { d with items := d.items ++ [(p, i)] }

def erase (d : Disk) (p : Place) : Disk := { d with items := d.items.filter (·.1 ≠ p) }

/-- Writes a file; one that is there keeps its time. -/
def write (d : Disk) (path : String) (data : Bytes) (clock : Int) : Except SystemFault Disk := do
  let p ← d.resolve path
  match d.item? p with
  | some (.directory ..) => throw .isADirectory
  | some (.file _ createdAt) => return d.put p (.file data createdAt)
  | none => return d.put p (.file data clock)

def remove (d : Disk) (path : String) : Except SystemFault Disk := do
  let p ← d.resolve path
  match d.item? p with
  | none => throw .notFound
  | some (.directory ..) => throw .isADirectory
  | some (.file ..) => return d.erase p

def rename (d : Disk) (source target : String) : Except SystemFault Disk := do
  let p ← d.resolve source
  let i ← d.find source
  let q ← d.resolve target
  match d.item? q with
  | some (.directory ..) => throw .isADirectory
  | _ => return (d.erase p).put q i

/-- Makes the directories that are missing along segments, up to one that cannot be made; what was
made before stays. A file in the way is reported as such once something was `made`. -/
def makeAlong (d : Disk) (clock : Int) (p : Place) (made : Bool) :
    List String → Disk × Except SystemFault Unit
  | [] => (d, .ok ())
  | s :: rest => match d.item? (follow p s) with
    | some (.directory ..) => makeAlong d clock (follow p s) made rest
    | some (.file ..) =>
      (d, .error (if rest.isEmpty || made then .alreadyExists else .notADirectory))
    | none =>
      if maxName < s.utf8ByteSize then (d, .error nameTooLong)
      else
        makeAlong (d.put (follow p s) (.directory d.directorySize clock)) clock (follow p s) true
          rest

def makeUpTo (d : Disk) (clock : Int) (path : String) (limit : Nat) :
    Disk × Except SystemFault Unit :=
  match refusal? path with
  | some f => (d, .error f)
  | none => d.makeAlong clock (d.origin path) false ((Path.segments path).take limit)

def makeDirectories (d : Disk) (path : String) (clock : Int := 0) : Except SystemFault Disk :=
  match d.makeUpTo clock path (Path.segments path).length with
  | (d, .ok ()) => .ok d
  | (_, .error f) => .error f

def list (d : Disk) (path : String) : Except SystemFault (List String) := do
  match ← d.find path with
  | .file .. => throw .notADirectory
  | .directory .. =>
    let p ← d.resolve path
    return d.items.filterMap fun e => if e.1.dropLast = p then e.1.getLast? else none

end Disk

end Letterbox
