import Letterbox.Failure
import Letterbox.Text.Utf8

/-! # Stored messages

What is known of a stored message without opening it, and a store that keeps everything in memory.
Times are in nanoseconds. -/

namespace Letterbox

set_option autoImplicit false

structure StoredMessage where
  path : String
  name : String
  size : UInt64
  createdAt : Int := 0
deriving DecidableEq, Repr

abbrev SaveAnswer := Except Failure StoredMessage

/-- A store in memory that names its messages by the number of the attempt to save them. Some
attempts fail. -/
structure MemoryStore where
  attempts : Nat := 0
  kept : List Bytes := []
  failing : List Nat := []
deriving DecidableEq, Repr

namespace MemoryStore

def nextName (m : MemoryStore) : String := s!"msg-{m.attempts + 1}.eml"

def save (m : MemoryStore) (data : Bytes) : SaveAnswer × MemoryStore :=
  let attempts := m.attempts + 1
  if m.failing.contains attempts then
    (.error (.storage "disk full"), { m with attempts })
  else
    let entry : StoredMessage :=
      { path := "/store/" ++ m.nextName, name := m.nextName, size := data.length.toUInt64 }
    (.ok entry, { m with attempts, kept := m.kept ++ [data] })

end MemoryStore

end Letterbox
