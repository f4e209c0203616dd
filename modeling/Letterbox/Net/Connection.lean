import Letterbox.Failure
import Letterbox.Net.Address
import Letterbox.Text.Encoding

/-! # Connections

What is known of one accepted connection apart from the bytes on it: whether it is open, who must
hear of its end, the encoding in use and when it was last active. Once closed a connection stays
closed. Times are milliseconds since the connection was made; how a write ends is told from
outside. -/

namespace Letterbox

set_option autoImplicit false

structure Connection where
  id : Nat
  peer : Option SocketAddress := none
  encoding : Encoding := .latin1
  isOpen : Bool := true
  cancelled : Bool := false
  closeNotified : Bool := false
  lastActivity : Nat := 0
deriving DecidableEq, Repr

inductive WriteEnd where
  | done
  | refused (text : String)
  /-- The connection was closed while the write was pending; `announce` says whether that close
  asked for an announcement. -/
  | closedMeanwhile (announce : Bool)
deriving DecidableEq, Repr

namespace Connection

/-- Closes the connection. Only the call that closes it can announce the end. -/
def close (c : Connection) (announce : Bool) : Connection :=
  if c.isOpen then { c with isOpen := false, cancelled := true, closeNotified := announce }
  else c

def touch (c : Connection) (now : Nat) : Connection := { c with lastActivity := now }

def setEncoding (c : Connection) (e : Encoding) : Connection := { c with encoding := e }

def idleFor (c : Connection) (now : Nat) : Nat := now - c.lastActivity

def closedFailure (c : Connection) : Failure := .transport s!"connection {c.id} is closed"

def send (c : Connection) (now : Nat) (outcome : WriteEnd) : Connection × Except Failure Unit :=
  if c.isOpen then
    match outcome with
    | .done => (c.touch now, .ok ())
    | .refused text => (c.close true, .error (.transport text))
    | .closedMeanwhile announce =>
      (c.close announce, .error (.transport s!"connection {c.id} closed during write"))
  else (c, .error c.closedFailure)

def describe (c : Connection) : String :=
  let peer := match c.peer with
    | none => "None"
    | some a => "Some(" ++ a.toText ++ ")"
  "Connection \x7b id: " ++ toString c.id ++ ", peer: " ++ peer ++ ", connected: " ++
    toString c.isOpen ++ ", encoding: " ++ c.encoding.name ++ " \x7d"

theorem isOpen_close (c : Connection) (announce : Bool) : (c.close announce).isOpen = false := by
  unfold close
  split
  · rfl
  · simp_all

theorem close_of_not_isOpen {c : Connection} (announce : Bool) (h : c.isOpen = false) :
    c.close announce = c := by
  simp [close, h]

end Connection

end Letterbox
