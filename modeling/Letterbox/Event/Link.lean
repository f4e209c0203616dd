import Letterbox.Event.Frame
import Letterbox.Net.Endpoint
import Letterbox.Net.Local
import Letterbox.Text.Utf8

/-! # Telling events to another process

Each event goes over a connection of its own, as one frame. That nobody is there to hear it is no
failure of the program. -/

namespace Letterbox

set_option autoImplicit false

namespace Event

def isPassedOn : Event → Bool
  | .newMessage _ | .smtpServerBind .. | .ruleDispatchFailed _ => true
  | .appPreStart | .appReady | .appExit | .rulesUpdated _ => false

end Event

namespace Link

def unavailable (e : Endpoint) (fault : SystemFault) : Failure :=
  match fault with
  | .connectionRefused => .peerUnavailable ("nothing listening on " ++ e.toText)
  | fault => .peerUnavailable (e.toText ++ ": " ++ fault.message)

def reach (listening : List UInt16) (e : Endpoint) : Except Failure Unit := do
  match Local.connect listening (← e.socketAddress) with
  | .ok () => return ()
  | .error fault => throw (unavailable e fault)

def publish (listening : List UInt16) (e : Endpoint) (event : Event) : Except Failure Bytes := do
  reach listening e
  return Utf8.encode event.toFrame

end Link

end Letterbox
