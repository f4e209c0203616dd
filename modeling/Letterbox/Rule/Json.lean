import Letterbox.Json.Reader
import Letterbox.Rule.Basic

/-! # Rules as JSON

A rule is written as an object with its kind first and every setting that has a value. Reading fills
in the defaults and takes settings it does not know as if they were not there. A rule that gives no
identifier is given the one that `fresh` holds for its place in the list. -/

namespace Letterbox

set_option autoImplicit false

open Json

namespace RelayHost

def toJson (h : RelayHost) : Value :=
  .object <| [("host", .text h.host), ("port", .nat h.port.toNat)] ++
    (h.username.map fun s => ("username", Value.text s)).toList ++
    (h.password.map fun s => ("password", Value.text s)).toList

structure Draft where
  host : Option String := none
  port : Option UInt16 := none
  username : Option (Option String) := none
  password : Option (Option String) := none

def readPort (v : Node) : Except Fault UInt16 := Nat.toUInt16 <$> v.natural 65535

def Draft.field (d : Draft) : String → Option (Node → Except Fault Draft)
  | "host" => some fun v => return { d with host := ← once d.host v.string }
  | "port" => some fun v => return { d with port := ← once d.port (readPort v) }
  | "username" =>
    some fun v => return { d with username := ← once d.username (v.optional Node.string) }
  | "password" =>
    some fun v => return { d with password := ← once d.password (v.optional Node.string) }
  | _ => none

def Draft.finish (d : Draft) : Except Fault RelayHost := do
  return { host := ← required d.host, port := d.port.getD 25, username := d.username.getD none,
           password := d.password.getD none }

def inOrder : StateT Items (Except Fault) RelayHost := do
  let host ← Items.take Node.string none
  let port ← Items.take readPort (some 25)
  let username ← Items.take (Node.optional Node.string) (some none)
  let password ← Items.take (Node.optional Node.string) (some none)
  return { host, port, username, password }

def ofNode : Node → Except Fault RelayHost := record true {} Draft.field Draft.finish inOrder

end RelayHost

namespace RetryPolicy

def toJson (p : RetryPolicy) : Value :=
  .object [("retry_count", .nat p.retries.toNat), ("retry_delay_secs", .nat p.pauseSecs.toNat)]

structure Draft where
  retries : Option UInt32 := none
  pauseSecs : Option UInt64 := none

def readRetries (v : Node) : Except Fault UInt32 := Nat.toUInt32 <$> v.natural 0xffffffff

def readPause (v : Node) : Except Fault UInt64 := Nat.toUInt64 <$> v.natural 0xffffffffffffffff

def Draft.field (d : Draft) : String → Option (Node → Except Fault Draft)
  | "retry_count" => some fun v => return { d with retries := ← once d.retries (readRetries v) }
  | "retry_delay_secs" =>
    some fun v => return { d with pauseSecs := ← once d.pauseSecs (readPause v) }
  | _ => none

def Draft.finish (d : Draft) : Except Fault RetryPolicy :=
  .ok ⟨d.retries.getD 3, d.pauseSecs.getD 30⟩

def inOrder : StateT Items (Except Fault) RetryPolicy := do
  return ⟨← Items.take readRetries (some 3), ← Items.take readPause (some 30)⟩

def ofNode : Node → Except Fault RetryPolicy := record true {} Draft.field Draft.finish inOrder

end RetryPolicy

namespace Uuid

def ofNode (v : Node) : Except Fault Uuid := do
  match ofText? (← v.string) with
  | some u => return u
  | none => throw .mismatched

end Uuid

namespace Rule

def optionalField (name : String) : Option String → List (String × Value)
  | none => []
  | some s => [(name, .text s)]

def relayFields (via : Relay) : List (String × Value) :=
  [("relay", via.host.toJson), ("retry", via.retry.toJson)]

def Action.fields : Action → List (String × Value)
  | relay via => relayFields via
  | conditionalRelay header body via =>
    optionalField "header_regex" header ++ optionalField "body_regex" body ++ relayFields via
  | forward recipient sender via =>
    ("to_email", .text recipient) :: (optionalField "from_email" sender ++ relayFields via)
  | invokeProcess program commandLine =>
    [("process_path", .text program), ("command_line", .text commandLine)]
  | mailRetention days => [("retention_days", .nat days.toNat)]

def toJson (r : Rule) : Value :=
  let head := [("type", .text r.kind.name), ("id", .text r.id.toText), ("enabled", .bool r.enabled)]
  .object (head ++ r.action.fields)

structure Draft where
  id : Option Uuid := none
  enabled : Option Bool := none
  headerRegex : Option (Option String) := none
  bodyRegex : Option (Option String) := none
  toEmail : Option String := none
  fromEmail : Option (Option String) := none
  processPath : Option String := none
  commandLine : Option String := none
  relay : Option RelayHost := none
  retry : Option RetryPolicy := none
  retentionDays : Option UInt32 := none

def Kind.fieldNames : Kind → List String
  | relay => ["id", "enabled", "relay", "retry"]
  | conditionalRelay => ["id", "enabled", "header_regex", "body_regex", "relay", "retry"]
  | forward => ["id", "enabled", "to_email", "from_email", "relay", "retry"]
  | invokeProcess => ["id", "enabled", "process_path", "command_line"]
  | mailRetention => ["id", "enabled", "retention_days"]

def readDays (v : Node) : Except Fault UInt32 := Nat.toUInt32 <$> v.natural 0xffffffff

def Draft.assign (d : Draft) (name : String) (v : Node) : Except Fault Draft :=
  match name with
  | "id" => return { d with id := ← once d.id (Uuid.ofNode v) }
  | "enabled" => return { d with enabled := ← once d.enabled v.boolean }
  | "header_regex" => return { d with headerRegex := ← once d.headerRegex (v.optional Node.string) }
  | "body_regex" => return { d with bodyRegex := ← once d.bodyRegex (v.optional Node.string) }
  | "to_email" => return { d with toEmail := ← once d.toEmail v.string }
  | "from_email" => return { d with fromEmail := ← once d.fromEmail (v.optional Node.string) }
  | "process_path" => return { d with processPath := ← once d.processPath v.string }
  | "command_line" => return { d with commandLine := ← once d.commandLine v.string }
  | "relay" => return { d with relay := ← once d.relay (RelayHost.ofNode v) }
  | "retry" => return { d with retry := ← once d.retry (RetryPolicy.ofNode v) }
  | "retention_days" => return { d with retentionDays := ← once d.retentionDays (readDays v) }
  | _ => return d

def Draft.field (kind : Kind) (d : Draft) (name : String) : Option (Node → Except Fault Draft) :=
  if kind.fieldNames.contains name then some (d.assign name) else none

/-- Takes the settings of an array in their order; those behind its end are left to their
defaults. -/
def Draft.setInOrder (d : Draft) : List String → StateT Items (Except Fault) Draft
  | [] => return d
  | name :: names => do
    match ← (← get).next? with
    | (some v, l) => do set l; Draft.setInOrder (← d.assign name v) names
    | (none, l) => do set l; return d

def Draft.via (d : Draft) : Except Fault Relay := do
  return ⟨← required d.relay, d.retry.getD {}⟩

def Draft.action (kind : Kind) (d : Draft) : Except Fault Action :=
  match kind with
  | .relay => return .relay (← d.via)
  | .conditionalRelay =>
    return .conditionalRelay (d.headerRegex.getD none) (d.bodyRegex.getD none) (← d.via)
  | .forward => do
    let recipient ← required d.toEmail
    return .forward recipient (d.fromEmail.getD none) (← d.via)
  | .invokeProcess => return .invokeProcess (← required d.processPath) (d.commandLine.getD "")
  | .mailRetention => return .mailRetention (← required d.retentionDays)

def Draft.finish (fresh : Uuid) (kind : Kind) (d : Draft) : Except Fault Rule := do
  return { id := d.id.getD fresh, enabled := d.enabled.getD true, action := ← d.action kind }

def Kind.ofNode (v : Node) : Except Fault Kind := do
  match Kind.ofName? (← v.string) with
  | some k => return k
  | none => throw .mismatched

/-- Looks at all fields of a rule and picks out its kind, which must be given once. -/
def findKind (room : Nat) (held : Option Kind) : List (Literal × Node) → Except Fault (Option Kind)
  | [] => .ok held
  | (k, v) :: rest => do
    if (← k.content) = "type" then
      match held with
      | some _ => throw .mismatched
      | none => findKind room (some (← Kind.ofNode v)) rest
    else
      v.inspect room
      findKind room held rest

def settings (fields : List (Literal × Node)) : List (Literal × Node) :=
  fields.filter fun (k, _) => match k.content with
    | .ok name => name != "type"
    | .error _ => true

/-- Reads a rule that stands below `depthLimit - room` brackets. It is looked at as a whole before
its settings are read, since its kind may come last. -/
def ofNode (fresh : Uuid) (room : Nat) : Node → Except Fault Rule
  | .object fields defect => do
    let kind? ← findKind (room - 1) none fields
    ofDefect defect
    let kind ← required kind?
    let d ← foldFields (Draft.field kind) {} (settings fields)
    d.finish fresh kind
  | .array items defect => do
    match items with
    | [] => ofDefect defect; throw .mismatched
    | v :: rest =>
      let kind ← Kind.ofNode v
      Node.inspectItems (room - 1) rest
      ofDefect defect
      let (d, l) ← (Draft.setInOrder {} kind.fieldNames).run ⟨rest, none⟩
      let r ← d.finish fresh kind
      l.finish true
      return r
  | v => .error v.misfit

def listOfNode (fresh : Nat → Uuid) (room : Nat) (v : Node) : Except Fault (List Rule) :=
  v.list fun i v => ofNode (fresh i) (room - 1) v

/-- Reads a list of rules and accepts it only if each can be carried out. -/
def parseAll (fresh : Nat → Uuid) (s : String) : Except Failure (List Rule) :=
  match Json.read (listOfNode fresh depthLimit) s with
  | .error f => .error (.json f)
  | .ok rules => do
    validateAll rules
    return rules

end Rule

end Letterbox
