import Letterbox.Rule.Basic

/-! # Events

What the parts of the program tell each other, and what the program and its user interface tell each
other. -/

namespace Letterbox

set_option autoImplicit false

/-- A message as it was accepted: where it is stored, from whom, for whom, and its size in bytes. -/
structure ReceivedMessage where
  path : String
  sender : String
  recipients : List String
  size : UInt64
deriving DecidableEq, Repr

/-- A rule that failed for good; the path is that of the message, if it was at work on one. -/
structure DispatchFailure where
  ruleId : Uuid
  ruleKind : Rule.Kind
  path : Option String
  attempts : UInt32
  error : String
deriving DecidableEq, Repr

inductive Event where
  | appPreStart
  | appReady
  | appExit
  | newMessage (message : ReceivedMessage)
  | smtpServerBind (address : String) (port : UInt16)
  | rulesUpdated (rules : List Rule)
  | ruleDispatchFailed (failure : DispatchFailure)
deriving DecidableEq, Repr

namespace Event

inductive Kind where
  | appPreStart
  | appReady
  | appExit
  | newMessage
  | smtpServerBind
  | rulesUpdated
  | ruleDispatchFailed
deriving DecidableEq, Repr

def Kind.all : List Kind :=
  [appPreStart, appReady, appExit, newMessage, smtpServerBind, rulesUpdated, ruleDispatchFailed]

def Kind.name : Kind → String
  | appPreStart => "AppPreStart"
  | appReady => "AppReady"
  | appExit => "AppExit"
  | newMessage => "NewMessage"
  | smtpServerBind => "SmtpServerBind"
  | rulesUpdated => "RulesUpdated"
  | ruleDispatchFailed => "RuleDispatchFailed"

def Kind.ofName? (s : String) : Option Kind := all.find? (·.name = s)

def kind : Event → Kind
  | .appPreStart => .appPreStart
  | .appReady => .appReady
  | .appExit => .appExit
  | .newMessage _ => .newMessage
  | .smtpServerBind .. => .smtpServerBind
  | .rulesUpdated _ => .rulesUpdated
  | .ruleDispatchFailed _ => .ruleDispatchFailed

def name (e : Event) : String := e.kind.name

end Event

end Letterbox
