import Letterbox.Net.Connection

/-! # Channels

A connection with the bytes that were written to it. What the far side refuses is a function of what
it has got so far. -/

namespace Letterbox

set_option autoImplicit false

structure Channel where
  connection : Connection
  sent : Bytes := []
  /-- Given what was sent and what is to be sent next, why the next write fails, if it does. -/
  refuses : Bytes → Bytes → Option String := fun _ _ => none
  now : Nat := 0

namespace Channel

def refuseBeyond (limit : Nat) (sent data : Bytes) : Option String :=
  if limit < sent.length + data.length then some "wire broken" else none

def send (c : Channel) (data : Bytes) : Channel × Except Failure Unit :=
  let outcome : WriteEnd := match c.refuses c.sent data with
    | none => .done
    | some text => .refused text
  let (connection, result) := c.connection.send c.now outcome
  match result with
  | .ok () => ({ c with connection, sent := c.sent ++ data }, .ok ())
  | .error f => ({ c with connection }, .error f)

def sendText (c : Channel) (s : String) : Channel × Except Failure Unit :=
  c.send (c.connection.encoding.encode s)

def setEncoding (c : Channel) (e : Encoding) : Channel :=
  { c with connection := c.connection.setEncoding e }

def close (c : Channel) (announce : Bool) : Channel :=
  { c with connection := c.connection.close announce }

def touch (c : Channel) : Channel := { c with connection := c.connection.touch c.now }

end Channel

end Letterbox
