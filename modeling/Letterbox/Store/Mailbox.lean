import Letterbox.Store.Disk
import Letterbox.Store.Entry
import Letterbox.Text.Numeral

/-! # A directory of messages

Every message is a file of its own, with the extension `eml`. A new one is written in full to a
directory beside them and then moved among them, so that no file among them is ever half a message.
Paths are accepted only if they lead to something directly in the directory. An operation is a row
of small steps, each of which touches the disk once and may fail; other operations may take steps in
between. -/

namespace Letterbox

set_option autoImplicit false

open Text

structure Mailbox where
  base : String
deriving DecidableEq, Repr

namespace Mailbox

def extension : String := "eml"

def draftsOf (m : Mailbox) : String := Path.join m.base ".tmp"

/-- The name of a new message: the time in 17 digits, from the year to the millisecond, and a number
that makes it unique. -/
def messageName (time : Nat) (unique : UInt32) : String :=
  String.ofList (fixedDigits 10 17 time ++ '-' :: fixedDigits 16 8 unique.toNat ++ ".eml".toList)

def isMessageName (name : String) : Bool :=
  let cs := name.toList
  cs.length = 30 && (cs.take 17).all (fun c => (digit? c).isSome) && cs[17]? = some '-' &&
    ((cs.drop 18).take 8).all (fun c => (hexDigit? c).isSome && !(('A' ≤ c) && (c ≤ 'Z'))) &&
      cs.drop 26 = ".eml".toList

/-- Whether a path leads to something directly in the directory, as far as its text tells. -/
def contains (m : Mailbox) (path : String) : Bool :=
  Path.parent? path = some (Path.components m.base)

def checkContained (m : Mailbox) (path : String) : Except Failure Unit :=
  if m.contains path then .ok () else .error (.storage (path ++ " is not a message in " ++ m.base))

def entry (d : Disk) (path : String) : Except SystemFault StoredMessage := do
  let name := (Path.fileName? path).getD ""
  match ← d.find path with
  | .file data createdAt => return { path, name, size := data.length.toUInt64, createdAt }
  | .directory size createdAt => return { path, name, size, createdAt }

structure Mishap where
  fault : SystemFault
  /-- How much was done before: bytes that were written, or names of a path that were gone along in
  making directories. -/
  kept : Nat := 0
deriving DecidableEq, Repr

structure Turn where
  clock : Int := 0
  portion : Nat := 0
  mishap : Option Mishap := none
deriving DecidableEq, Repr

def Turn.attempt {α : Type} (turn : Turn) (answer : Except SystemFault α) : Except SystemFault α :=
  match turn.mishap with
  | some m => .error m.fault
  | none => answer

/-! ## Saving -/

inductive SaveStage where
  | checking
  | making
  | writing (written : Nat)
  | moving
  | measuring
  | done (answer : SaveAnswer)

structure Saving where
  name : String
  data : Bytes
  stage : SaveStage := .checking

namespace Saving

def draft (m : Mailbox) (s : Saving) : String := Path.join m.draftsOf s.name

def target (m : Mailbox) (s : Saving) : String := Path.join m.base s.name

def failed (s : Saving) (f : Failure) : Saving := { s with stage := .done (.error f) }

def unmade (m : Mailbox) (f : SystemFault) : Failure :=
  .storage ("Failed to create directory " ++ Path.quoted m.draftsOf ++ ": " ++ f.message)

def make (m : Mailbox) (turn : Turn) (d : Disk) (s : Saving) : Disk × Saving :=
  match turn.mishap with
  | some x => ((d.makeUpTo turn.clock m.draftsOf x.kept).1, s.failed (unmade m x.fault))
  | none => match d.makeUpTo turn.clock m.draftsOf (Path.segments m.draftsOf).length with
    | (d, .ok ()) => (d, { s with stage := .writing 0 })
    | (d, .error e) => (d, s.failed (unmade m e))

def write (m : Mailbox) (turn : Turn) (d : Disk) (s : Saving) (written : Nat) : Disk × Saving :=
  match turn.mishap with
  | some x =>
    (((d.write (s.draft m) (s.data.take (written + x.kept)) turn.clock).toOption).getD d,
      s.failed (.system x.fault))
  | none =>
    let reached := written + turn.portion
    match d.write (s.draft m) (s.data.take reached) turn.clock with
    | .ok d =>
      (d, { s with stage := if s.data.length ≤ reached then .moving else .writing reached })
    | .error e => (d, s.failed (.system e))

def move (m : Mailbox) (turn : Turn) (d : Disk) (s : Saving) : Disk × Saving :=
  match turn.attempt (d.rename (s.draft m) (s.target m)) with
  | .ok d => (d, { s with stage := .measuring })
  | .error e => (d, s.failed (.system e))

def measure (m : Mailbox) (turn : Turn) (d : Disk) (s : Saving) : Saving :=
  match turn.attempt (entry d (s.target m)) with
  | .ok e => { s with stage := .done (.ok e) }
  | .error e => s.failed (.system e)

def step (m : Mailbox) (turn : Turn) (d : Disk) (s : Saving) : Disk × Saving :=
  match s.stage with
  | .checking =>
    let there := turn.mishap.isNone && d.pathExists m.draftsOf
    (d, { s with stage := if there then .writing 0 else .making })
  | .making => s.make m turn d
  | .writing written => s.write m turn d written
  | .moving => s.move m turn d
  | .measuring => (d, s.measure m turn d)
  | .done _ => (d, s)

def steps (m : Mailbox) (d : Disk) (s : Saving) : List Turn → Disk × Saving
  | [] => (d, s)
  | turn :: rest => let (d, s) := s.step m turn d; steps m d s rest

end Saving

/-! ## Loading and deleting -/

def load (m : Mailbox) (d : Disk) (path : String) (turn : Turn := {}) : Except Failure Bytes := do
  m.checkContained path
  match turn.attempt (d.read path) with
  | .ok data => return data
  | .error e => throw (.system e)

def delete (m : Mailbox) (d : Disk) (path : String) (turn : Turn := {}) : Except Failure Disk := do
  m.checkContained path
  match turn.attempt (d.remove path) with
  | .ok d => return d
  | .error e => throw (.system e)

/-! ## Listing -/

inductive ListStage where
  | listing
  /-- Looking at one file after the other; one that has gone meanwhile is left out. -/
  | measuring (todo : List String) (found : List StoredMessage)
  | done (answer : Except Failure (List StoredMessage))

/-- The oldest first; of equal age, by name. -/
def comesBefore (a b : StoredMessage) : Bool :=
  a.createdAt < b.createdAt || (a.createdAt = b.createdAt && (a.name < b.name || a.name = b.name))

def listStep (m : Mailbox) (turn : Turn) (d : Disk) : ListStage → ListStage
  | .listing => match turn.attempt (d.list m.base) with
    | .ok names => .measuring (names.filter fun n => Path.extension? n = some extension) []
    | .error .notFound => .done (.ok [])
    | .error e => .done (.error (.system e))
  | .measuring [] found => .done (.ok (found.mergeSort comesBefore))
  | .measuring (n :: todo) found => match turn.attempt (entry d (Path.join m.base n)) with
    | .ok e => .measuring todo (found ++ [e])
    | .error _ => .measuring todo found
  | .done answer => .done answer

/-! ## Operations side by side -/

inductive Operation where
  | save (s : Saving)
  | load (path : String) (answer : Option (Except Failure Bytes))
  | delete (path : String) (answer : Option (Except Failure Unit))
  | list (stage : ListStage)

/-- One step of an operation; loading and deleting are done in one. -/
def Operation.step (m : Mailbox) (turn : Turn) (d : Disk) : Operation → Disk × Operation
  | .save s => let (d, s) := s.step m turn d; (d, .save s)
  | .load path none => (d, .load path (some (m.load d path turn)))
  | .delete path none => match m.delete d path turn with
    | .ok d => (d, .delete path (some (.ok ())))
    | .error f => (d, .delete path (some (.error f)))
  | .list stage => (d, .list (m.listStep turn d stage))
  | op => (d, op)

structure Traffic where
  disk : Disk
  operations : List Operation

namespace Traffic

def step (m : Mailbox) (t : Traffic) (index : Nat) (turn : Turn) : Traffic :=
  match t.operations[index]? with
  | none => t
  | some op =>
    let (disk, op) := op.step m turn t.disk
    { disk, operations := t.operations.set index op }

def steps (m : Mailbox) (t : Traffic) : List (Nat × Turn) → Traffic
  | [] => t
  | (index, turn) :: rest => steps m (t.step m index turn) rest

end Traffic

/-! ## One operation alone -/

def save (m : Mailbox) (d : Disk) (clock : Int) (name : String) (data : Bytes) :
    SaveAnswer × Disk :=
  let turn : Turn := { clock, portion := data.length }
  let (d, s) := Saving.steps m d { name, data } (List.replicate 6 turn)
  match s.stage with
  | .done answer => (answer, d)
  | _ => (.error (.storage ""), d)

def listAlone (m : Mailbox) (d : Disk) : (fuel : Nat) → ListStage → ListStage
  | 0, s => s
  | fuel + 1, s => listAlone m d fuel (m.listStep {} d s)

def enumerate (m : Mailbox) (d : Disk) : Except Failure (List StoredMessage) :=
  match m.listAlone d (d.items.length + 2) .listing with
  | .done answer => answer
  | _ => .ok []

end Mailbox

end Letterbox
