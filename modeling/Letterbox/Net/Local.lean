import Letterbox.Failure
import Letterbox.Net.Address

/-! # The network of one host

A host with its own addresses only, which share one set of ports, and without any way to other
hosts. -/

namespace Letterbox

set_option autoImplicit false

def IpAddress.isOwn : IpAddress → Bool
  | .v4 x => x.a = 127 || x = .unspecified
  | .v6 x => x.groups = [0, 0, 0, 0, 0, 0, 0, 1] || x.groups = [0, 0, 0, 0, 0, 0, 0, 0]

namespace Local

def bind (used : List UInt16) (a : SocketAddress) : Except SystemFault Unit :=
  if !a.ip.isOwn then .error .addressNotAvailable
  else if used.contains a.port then .error .addressInUse
  else .ok ()

def connect (listening : List UInt16) (a : SocketAddress) : Except SystemFault Unit :=
  if !a.ip.isOwn then .error .networkUnreachable
  else if listening.contains a.port then .ok ()
  else .error .connectionRefused

def unknownHost : SystemFault :=
  .other "failed to lookup address information: Temporary failure in name resolution"

def lookUp (host : String) (port : UInt16) : Except SystemFault SocketAddress :=
  if host = "localhost" then .ok ⟨.v4 .loopback, port⟩
  else match IpAddress.ofText? host with
    | some ip => .ok ⟨ip, port⟩
    | none => .error unknownHost

def reach (listening : List UInt16) (host : String) (port : UInt16) : Except SystemFault Unit := do
  connect listening (← lookUp host port)

end Local

end Letterbox
