import Letterbox.Event.Basic
import Letterbox.Rule.Json

/-! # Events as JSON

An event is an object with its kind under `type` and, if it has any, its content under `payload`.
When the payload comes first it is looked at as a whole and read once the kind is known. -/

namespace Letterbox

set_option autoImplicit false

open Json

namespace ReceivedMessage

def toJson (m : ReceivedMessage) : Value :=
  .object
    [("path", .text m.path), ("mail_from", .text m.sender),
     ("recipients", Value.texts m.recipients), ("size", .nat m.size.toNat)]

structure Draft where
  path : Option String := none
  sender : Option String := none
  recipients : Option (List String) := none
  size : Option UInt64 := none

def readRecipients (v : Node) : Except Fault (List String) := v.list fun _ v => v.string

def readSize (v : Node) : Except Fault UInt64 := Nat.toUInt64 <$> v.natural 0xffffffffffffffff

def Draft.field (d : Draft) : String → Option (Node → Except Fault Draft)
  | "path" => some fun v => return { d with path := ← once d.path v.string }
  | "mail_from" => some fun v => return { d with sender := ← once d.sender v.string }
  | "recipients" =>
    some fun v => return { d with recipients := ← once d.recipients (readRecipients v) }
  | "size" => some fun v => return { d with size := ← once d.size (readSize v) }
  | _ => none

def Draft.finish (d : Draft) : Except Fault ReceivedMessage := do
  return ⟨← required d.path, ← required d.sender, ← required d.recipients, ← required d.size⟩

def inOrder : StateT Items (Except Fault) ReceivedMessage := do
  return ⟨← Items.take Node.string none, ← Items.take Node.string none,
    ← Items.take readRecipients none, ← Items.take readSize none⟩

def ofNode (aside : Bool) : Node → Except Fault ReceivedMessage :=
  record aside {} Draft.field Draft.finish inOrder

end ReceivedMessage

namespace DispatchFailure

def toJson (f : DispatchFailure) : Value :=
  .object <| [("rule_id", .text f.ruleId.toText), ("rule_type", .text f.ruleKind.name)] ++
    Rule.optionalField "path" f.path ++
      [("attempts", .nat f.attempts.toNat), ("error", .text f.error)]

structure Draft where
  ruleId : Option Uuid := none
  ruleKind : Option Rule.Kind := none
  path : Option (Option String) := none
  attempts : Option UInt32 := none
  error : Option String := none

/-- A name, or an object with a name as its only field and null under it. -/
def readTag {α : Type} (ofName? : String → Option α) : Node → Except Fault α
  | .object ((k, v) :: rest) defect => do
    match ofName? (← k.content) with
    | none => throw .mismatched
    | some a => match v with
      | .null => match rest with
        | [] => ofDefect defect; return a
        | _ :: _ => throw .malformed
      | v => throw v.misfit
  | .text t => do
    match ofName? (← t.content) with
    | some a => return a
    | none => throw .mismatched
  | .broken fault _ => .error fault
  | .object [] defect => do ofDefect defect; throw .malformed
  | _ => .error .malformed

def readAttempts (v : Node) : Except Fault UInt32 := Nat.toUInt32 <$> v.natural 0xffffffff

/-- A tag in a part that was set aside, where anything but a name or a one-field object is no
tag. -/
def readTagAside {α : Type} (ofName? : String → Option α) (v : Node) : Except Fault α :=
  (readTag ofName? v).mapError fun _ => .mismatched

def Draft.field (aside : Bool) (d : Draft) : String → Option (Node → Except Fault Draft)
  | "rule_id" => some fun v => return { d with ruleId := ← once d.ruleId (Uuid.ofNode v) }
  | "rule_type" => some fun v => do
    let tag := if aside then readTagAside Rule.Kind.ofName? v else readTag Rule.Kind.ofName? v
    return { d with ruleKind := ← once d.ruleKind tag }
  | "path" => some fun v => return { d with path := ← once d.path (v.optional Node.string) }
  | "attempts" => some fun v => return { d with attempts := ← once d.attempts (readAttempts v) }
  | "error" => some fun v => return { d with error := ← once d.error v.string }
  | _ => none

def Draft.finish (d : Draft) : Except Fault DispatchFailure := do
  return ⟨← required d.ruleId, ← required d.ruleKind, d.path.getD none, ← required d.attempts,
    ← required d.error⟩

end DispatchFailure

namespace Event

def payload : Event → Option Value
  | appPreStart | appReady | appExit => none
  | newMessage m => some m.toJson
  | smtpServerBind address port =>
    some (.object [("address", .text address), ("port", .nat port.toNat)])
  | rulesUpdated rules => some (.object [("rules", .array (rules.map Rule.toJson))])
  | ruleDispatchFailed f => some f.toJson

def toJson (e : Event) : Value :=
  .object (("type", .text e.name) :: (e.payload.map fun v => ("payload", v)).toList)

def readObject {σ α : Type} (start : σ) (field : σ → String → Option (Node → Except Fault σ))
    (finish : σ → Except Fault α) : Node → Except Fault α
  | .object fields defect => do
    let s ← foldFields field start fields
    ofDefect defect
    finish s
  | v => .error v.misfit

structure BindDraft where
  address : Option String := none
  port : Option UInt16 := none

def BindDraft.field (d : BindDraft) : String → Option (Node → Except Fault BindDraft)
  | "address" => some fun v => return { d with address := ← once d.address v.string }
  | "port" => some fun v => return { d with port := ← once d.port (RelayHost.readPort v) }
  | _ => none

def BindDraft.finish (d : BindDraft) : Except Fault Event := do
  return .smtpServerBind (← required d.address) (← required d.port)

def rulesField (fresh : Nat → Uuid) (room : Nat) (d : Option (List Rule)) :
    String → Option (Node → Except Fault (Option (List Rule)))
  | "rules" => some fun v => once d (Rule.listOfNode fresh room v)
  | _ => none

def readNothing : Node → Except Fault Unit
  | .null => .ok ()
  | v => .error v.misfit

def readPayload (fresh : Nat → Uuid) (aside : Bool) (kind : Kind) (v : Node) : Except Fault Event :=
  match kind with
  | .appPreStart => do readNothing v; return appPreStart
  | .appReady => do readNothing v; return appReady
  | .appExit => do readNothing v; return appExit
  | .newMessage => newMessage <$> ReceivedMessage.ofNode aside v
  | .smtpServerBind => readObject {} BindDraft.field BindDraft.finish v
  | .rulesUpdated =>
    readObject none (rulesField fresh (depthLimit - 2)) (fun d => rulesUpdated <$> required d) v
  | .ruleDispatchFailed =>
    ruleDispatchFailed <$>
      readObject {} (DispatchFailure.Draft.field aside) DispatchFailure.Draft.finish v

def withoutPayload : Kind → Except Fault Event
  | .appPreStart => .ok appPreStart
  | .appReady => .ok appReady
  | .appExit => .ok appExit
  | _ => .error .mismatched

inductive Draft where
  | empty
  | kind (kind : Kind)
  | payload (v : Node)
  | whole (e : Event)

def Draft.field (fresh : Nat → Uuid) (d : Draft) : String → Option (Node → Except Fault Draft)
  | "type" => some fun v => match d with
    | .empty => .kind <$> DispatchFailure.readTag Kind.ofName? v
    | .payload p => do
      let kind ← DispatchFailure.readTag Kind.ofName? v
      .whole <$> readPayload fresh true kind p
    | .kind _ | .whole _ => .error .mismatched
  | "payload" => some fun v => match d with
    | .empty => do v.inspect (depthLimit - 1); return .payload v
    | .kind k => .whole <$> readPayload fresh false k v
    | .payload _ | .whole _ => .error .mismatched
  | _ => none

def Draft.finish : Draft → Except Fault Event
  | empty | payload _ => .error .mismatched
  | kind k => withoutPayload k
  | whole e => .ok e

def readName (v : Node) : Except Fault Kind := do
  match Kind.ofName? (← v.string) with
  | some k => return k
  | none => throw .mismatched

def inOrder (fresh : Nat → Uuid) : StateT Items (Except Fault) Event := do
  let kind ← Items.take readName none
  Items.take (readPayload fresh false kind) none

def ofNode (fresh : Nat → Uuid) : Node → Except Fault Event :=
  record false .empty (Draft.field fresh) Draft.finish (inOrder fresh)

end Event

end Letterbox
