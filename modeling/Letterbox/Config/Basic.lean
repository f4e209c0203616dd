import Letterbox.Net.Endpoint

/-! # Configuration

What can be set, what holds when it is not, and which settings make sense. The name of the machine
stands in where no host name is set. -/

namespace Letterbox

set_option autoImplicit false

namespace Config

structure Server where
  hostname : String
deriving DecidableEq, Repr

structure Mail where
  address : String := "any"
  port : UInt16 := 25
  maxMessageSize : Nat := 10485760
  /-- After how long a silent connection is closed; zero for never. -/
  idleTimeoutSecs : Nat := 300
  shutdownGraceSecs : Nat := 5
deriving DecidableEq, Repr

structure Link where
  enabled : Bool := true
  serviceAddress : String := "127.0.0.1"
  servicePort : UInt16 := 37402
  uiAddress : String := "127.0.0.1"
  uiPort : UInt16 := 37403
  publishTimeoutMillis : Nat := 500
deriving DecidableEq, Repr

structure Storage where
  messagePath : String := "./incoming"
deriving DecidableEq, Repr

structure Rules where
  path : Option String := none
  sweepIntervalSecs : Nat := 3600
deriving DecidableEq, Repr

structure Events where
  busCapacity : Nat := 256
deriving DecidableEq, Repr

structure Logging where
  level : String := "info"
  format : String := "pretty"
deriving DecidableEq, Repr

end Config

structure Config where
  server : Config.Server
  mail : Config.Mail := {}
  link : Config.Link := {}
  storage : Config.Storage := {}
  rules : Config.Rules := {}
  events : Config.Events := {}
  logging : Config.Logging := {}
deriving DecidableEq, Repr

namespace Config

def ofMachine (machine : String) : Config := { server := ⟨machine⟩ }

def mailEndpoint (c : Config) : Endpoint := ⟨c.mail.address, c.mail.port⟩

def serviceEndpoint (c : Config) : Endpoint := ⟨c.link.serviceAddress, c.link.servicePort⟩

def uiEndpoint (c : Config) : Endpoint := ⟨c.link.uiAddress, c.link.uiPort⟩

def idleTimeoutSecs? (c : Config) : Option Nat :=
  if c.mail.idleTimeoutSecs = 0 then none else some c.mail.idleTimeoutSecs

def idleTimeoutMillis? (c : Config) : Option Nat := c.idleTimeoutSecs?.map (· * 1000)

def reapIntervalSecs : Nat := 10

/-- The first setting that makes no sense decides the failure. -/
def validate (c : Config) : Except Failure Unit := do
  if c.mail.maxMessageSize = 0 then
    throw (.config "smtp.max_message_size must be greater than zero")
  if c.events.busCapacity = 0 then throw (.config "events.bus_capacity must be greater than zero")
  if c.logging.format ≠ "pretty" ∧ c.logging.format ≠ "json" then
    throw (.config ("unknown logging.format '" ++ c.logging.format ++ "'"))
  let _ ← c.mailEndpoint.socketAddress

end Config

end Letterbox
