import Letterbox.Rule.Basic

/-! # How long mail is kept

A message is past its time when it is strictly older than the rule allows, to the nanosecond. A
message from the future is not. -/

namespace Letterbox.Rule

set_option autoImplicit false

def nanosPerMilli : Int := 1000000

def nanosPerDay : Int := 86400000 * nanosPerMilli

def maxAge (days : UInt32) : Int := days.toNat * nanosPerDay

def isOverdue (days : UInt32) (createdAt now : Int) : Bool := maxAge days < now - createdAt

/-- The same for times in whole milliseconds. -/
def isExpired (days : UInt32) (createdAt now : Int) : Bool :=
  isOverdue days (createdAt * nanosPerMilli) (now * nanosPerMilli)

end Letterbox.Rule
