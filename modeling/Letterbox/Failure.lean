import Letterbox.Json.Fault

/-! # Failures

Why an operation did not do its work, by cause. The wording that people see is in `Failure.message`
and nowhere else. -/

namespace Letterbox

set_option autoImplicit false

inductive SystemFault where
  | notFound
  | permissionDenied
  | notADirectory
  | isADirectory
  | alreadyExists
  | addressInUse
  | addressNotAvailable
  | networkUnreachable
  | connectionRefused
  | notText
  | other (text : String)
deriving DecidableEq, Repr

def SystemFault.message : SystemFault → String
  | notFound => "No such file or directory (os error 2)"
  | permissionDenied => "Permission denied (os error 13)"
  | alreadyExists => "File exists (os error 17)"
  | notADirectory => "Not a directory (os error 20)"
  | isADirectory => "Is a directory (os error 21)"
  | addressInUse => "Address already in use (os error 98)"
  | addressNotAvailable => "Cannot assign requested address (os error 99)"
  | networkUnreachable => "Network is unreachable (os error 101)"
  | connectionRefused => "Connection refused (os error 111)"
  | notText => "stream did not contain valid UTF-8"
  | other text => text

inductive Failure where
  | transport (text : String)
  | protocolViolation (text : String)
  | ruleMatch (text : String)
  /-- An action failed in every attempt; the reason is that of the last. -/
  | dispatch (attempts : Nat) (reason : String)
  | process (text : String)
  | peerUnavailable (text : String)
  | system (fault : SystemFault)
  | config (text : String)
  | unreadableConfig
  | storage (text : String)
  | json (fault : Json.Fault)
deriving DecidableEq, Repr

namespace Failure

def message : Failure → String
  | transport text => "Transport error: " ++ text
  | protocolViolation text => "Protocol violation: " ++ text
  | ruleMatch text => "Rule match error: " ++ text
  | dispatch attempts reason => s!"Dispatch failed after {attempts} attempt(s): " ++ reason
  | process text => "Process error: " ++ text
  | peerUnavailable text => "IPC peer unavailable: " ++ text
  | system fault => "IO error: " ++ fault.message
  | config text => "Configuration error: " ++ text
  | unreadableConfig => "<toml>"
  | storage text => "Storage error: " ++ text
  | json fault => "JSON error: " ++ fault.name

/-- Whether the connection it happened on is of no more use. -/
def isTransport : Failure → Bool
  | transport _ | system _ => true
  | _ => false

end Failure

end Letterbox
