import Letterbox.Failure
import Letterbox.Rule.Uuid

/-! # Rules

What is to be done with stored mail. Four kinds of rule act on a message when it arrives; the fifth
deletes old messages from time to time. -/

namespace Letterbox

set_option autoImplicit false

open Text

structure RelayHost where
  host : String
  port : UInt16 := 25
  username : Option String := none
  password : Option String := none
deriving DecidableEq, Repr

namespace RelayHost

/-- The user and the password, when both are set and the user is not empty. -/
def credentials (h : RelayHost) : Option (String × String) :=
  match h.username, h.password with
  | some user, some password => if user.isEmpty then none else some (user, password)
  | _, _ => none

def toText (h : RelayHost) : String := h.host ++ ":" ++ toString h.port.toNat

end RelayHost

structure RetryPolicy where
  retries : UInt32 := 3
  pauseSecs : UInt64 := 30
deriving DecidableEq, Repr

namespace RetryPolicy

def single : RetryPolicy := ⟨0, 0⟩

/-- The first try and the retries, as far as a word of 32 bits can count them. -/
def maxAttempts (p : RetryPolicy) : Nat := min (p.retries.toNat + 1) 0xffffffff

def pauseMillis (p : RetryPolicy) : Nat := p.pauseSecs.toNat * 1000

end RetryPolicy

structure Relay where
  host : RelayHost
  retry : RetryPolicy := {}
deriving DecidableEq, Repr

namespace Rule

inductive Kind where
  | relay
  | conditionalRelay
  | forward
  | invokeProcess
  | mailRetention
deriving DecidableEq, Repr

def Kind.name : Kind → String
  | relay => "Relay"
  | conditionalRelay => "ConditionalRelay"
  | forward => "Forward"
  | invokeProcess => "InvokeProcess"
  | mailRetention => "MailRetention"

def Kind.all : List Kind := [relay, conditionalRelay, forward, invokeProcess, mailRetention]

def Kind.ofName? (s : String) : Option Kind := all.find? (·.name = s)

inductive Action where
  | relay (via : Relay)
  | conditionalRelay (header body : Option String) (via : Relay)
  | forward (recipient : String) (sender : Option String) (via : Relay)
  | invokeProcess (program commandLine : String)
  | mailRetention (days : UInt32)
deriving DecidableEq, Repr

def Action.kind : Action → Kind
  | relay .. => .relay
  | conditionalRelay .. => .conditionalRelay
  | forward .. => .forward
  | invokeProcess .. => .invokeProcess
  | mailRetention .. => .mailRetention

end Rule

structure Rule where
  id : Uuid
  enabled : Bool := true
  action : Rule.Action
deriving DecidableEq, Repr

namespace Rule

def kind (r : Rule) : Kind := r.action.kind

def isPeriodic (r : Rule) : Bool := r.kind == .mailRetention

def via? (r : Rule) : Option Relay :=
  match r.action with
  | .relay via | .conditionalRelay _ _ via | .forward _ _ via => some via
  | .invokeProcess .. | .mailRetention .. => none

def minRetentionDays : Nat := 1

def maxRetentionDays : Nat := 3650

def validateRetention (days : UInt32) : Except Failure Unit :=
  if minRetentionDays ≤ days.toNat ∧ days.toNat ≤ maxRetentionDays then .ok ()
  else .error (.config
    s!"retention_days must be between {minRetentionDays} and {maxRetentionDays}, got {days.toNat}")

def validate (r : Rule) : Except Failure Unit :=
  match r.action with
  | .mailRetention days => validateRetention days
  | .invokeProcess program _ =>
    if program.isEmpty then .error (.config ("rule " ++ r.id.toText ++ ": process_path is empty"))
    else .ok ()
  | .forward recipient _ _ =>
    if blankText recipient then .error (.config ("rule " ++ r.id.toText ++ ": to_email is empty"))
    else .ok ()
  | .relay _ | .conditionalRelay .. => .ok ()

def validateAll : List Rule → Except Failure Unit
  | [] => .ok ()
  | r :: rest => do r.validate; validateAll rest

def actsOnMessages (r : Rule) : Bool := r.enabled && !r.isPeriodic

end Rule

end Letterbox
