import Letterbox.Text.Utf8

/-! # SMTP sessions

What one client has said so far: its name, and the transaction that it is in. -/

namespace Letterbox.Smtp

set_option autoImplicit false

structure Session where
  /-- The name that the client gave itself; it outlives the transaction. -/
  helo : Option String := none
  sender : Option String := none
  /-- In order of arrival, with repetitions. -/
  recipients : List String := []
  message : Bytes := []
  utf8 : Bool := false
deriving DecidableEq, Repr

namespace Session

def reset (s : Session) : Session := { helo := s.helo }

def hasSender (s : Session) : Bool := s.sender.isSome

def hasRecipients (s : Session) : Bool := !s.recipients.isEmpty

@[simp] theorem reset_reset (s : Session) : s.reset.reset = s.reset := rfl

end Session

end Letterbox.Smtp
