import Letterbox.Failure
import Letterbox.Json.Reader
import Letterbox.Net.Address

/-! # Endpoints

An address as configured, with a port. Blank text and the word "any" stand for all interfaces. -/

namespace Letterbox

set_option autoImplicit false

structure Endpoint where
  address : String
  port : UInt16
deriving DecidableEq, Repr

namespace Endpoint

open Text

def isWildcard (e : Endpoint) : Bool :=
  let address := trim e.address
  address.isEmpty || sameIgnoringCase address "any"

/-- The address to bind or to connect to. The name "localhost" counts only without blanks around
it. -/
def socketAddress (e : Endpoint) : Except Failure SocketAddress :=
  if e.isWildcard then .ok ⟨.v4 .unspecified, e.port⟩
  else if sameIgnoringCase e.address "localhost" then .ok ⟨.v4 .loopback, e.port⟩
  else match IpAddress.ofText? (trim e.address) with
    | some ip => .ok ⟨ip, e.port⟩
    | none =>
      .error (.config ("Invalid endpoint address '" ++ e.address ++ "': invalid IP address syntax"))

def toText (e : Endpoint) : String :=
  (if e.isWildcard then "0.0.0.0" else e.address) ++ ":" ++ toString e.port.toNat

open Json in
def toJson (e : Endpoint) : Value :=
  .object [("address", .text e.address), ("port", .nat e.port.toNat)]

structure Draft where
  address : Option String := none
  port : Option UInt16 := none

open Json in
def readPort (v : Node) : Except Fault UInt16 := Nat.toUInt16 <$> v.natural 65535

open Json in
def Draft.field (d : Draft) : String → Option (Node → Except Fault Draft)
  | "address" => some fun v => return { d with address := ← once d.address v.string }
  | "port" => some fun v => return { d with port := ← once d.port (readPort v) }
  | _ => none

open Json in
def Draft.finish (d : Draft) : Except Fault Endpoint := do
  return ⟨← required d.address, ← required d.port⟩

open Json in
def inOrder : StateT Items (Except Fault) Endpoint := do
  return ⟨← Items.take Node.string none, ← Items.take readPort none⟩

open Json in
def ofNode : Node → Except Fault Endpoint := record false {} Draft.field Draft.finish inOrder

def ofSocketAddress (a : SocketAddress) : Endpoint := ⟨a.ip.toText, a.port⟩

end Endpoint

end Letterbox
