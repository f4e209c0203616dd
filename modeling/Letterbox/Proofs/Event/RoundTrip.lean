import Letterbox.Event.Frame
import Letterbox.Proofs.Rule.RoundTrip

/-!
# Events there and back

An event is read back from what is written of it: its kind under `type`, and behind it what it
carries.
-/

namespace Letterbox

set_option autoImplicit false

open Json Value

namespace ReceivedMessage

theorem readRecipients_texts (l : List String) : readRecipients (texts l).node = .ok l :=
  list_array (fun _ => string_text) l

theorem ofNode_toJson (aside : Bool) (m : ReceivedMessage) :
    ofNode aside m.toJson.node = .ok m := by
  have hpath : Reads Draft.field {} [("path", text m.path)] { path := some m.path } :=
    .set (fun p => { path := p : Draft }) rfl (string_text m.path)
  have hsender : Reads Draft.field { path := some m.path } [("mail_from", text m.sender)]
      { path := some m.path, sender := some m.sender } :=
    .set (fun s => { path := some m.path, sender := s : Draft }) rfl (string_text m.sender)
  have hrecipients : Reads Draft.field { path := some m.path, sender := some m.sender }
      [("recipients", texts m.recipients)]
      { path := some m.path, sender := some m.sender, recipients := some m.recipients } :=
    .set (fun l => { path := some m.path, sender := some m.sender, recipients := l : Draft }) rfl
      (readRecipients_texts m.recipients)
  have hsize : Reads Draft.field
      { path := some m.path, sender := some m.sender, recipients := some m.recipients }
      [("size", nat m.size.toNat)]
      ⟨some m.path, some m.sender, some m.recipients, some m.size⟩ :=
    .set (Draft.mk (some m.path) (some m.sender) (some m.recipients) ·) rfl (word64_nat m.size)
  have hreads := hpath.append (hsender.append (hrecipients.append hsize))
  exact hreads.record_eq (show Draft.finish _ = .ok m from rfl) aside inOrder

end ReceivedMessage

namespace DispatchFailure

theorem readTag_text {α : Type} {ofName? : String → Option α} {s : String} {a : α}
    (h : ofName? s = some a) : readTag ofName? (text s).node = .ok a := by
  rw [node]
  simp only [readTag, bind, Except.bind, h, pure, Except.pure]

theorem reads_toJson (f : DispatchFailure) :
    ∃ fields d, f.toJson = .object fields ∧ Reads (Draft.field false) {} fields d ∧
      d.finish = .ok f := by
  have hid : Reads (Draft.field false) {} [("rule_id", text f.ruleId.toText)]
      { ruleId := some f.ruleId } :=
    .set (fun id => { ruleId := id : Draft }) rfl f.ruleId.ofNode_toText
  have hkind : Reads (Draft.field false) { ruleId := some f.ruleId }
      [("rule_type", text f.ruleKind.name)]
      { ruleId := some f.ruleId, ruleKind := some f.ruleKind } :=
    .set (fun kind => { ruleId := some f.ruleId, ruleKind := kind : Draft }) rfl
      (readTag_text f.ruleKind.ofName?_name)
  have hpath : Reads (Draft.field false)
      { ruleId := some f.ruleId, ruleKind := some f.ruleKind } (Rule.optionalField "path" f.path)
      { ruleId := some f.ruleId, ruleKind := some f.ruleKind, path := f.path.map some } :=
    .optionalField
      (fun p => { ruleId := some f.ruleId, ruleKind := some f.ruleKind, path := p : Draft }) rfl
      f.path
  have hattempts : Reads (Draft.field false)
      { ruleId := some f.ruleId, ruleKind := some f.ruleKind, path := f.path.map some }
      [("attempts", nat f.attempts.toNat)]
      ⟨some f.ruleId, some f.ruleKind, f.path.map some, some f.attempts, none⟩ :=
    .set (Draft.mk (some f.ruleId) (some f.ruleKind) (f.path.map some) · none) rfl
      (word32_nat f.attempts)
  have herror : Reads (Draft.field false)
      ⟨some f.ruleId, some f.ruleKind, f.path.map some, some f.attempts, none⟩
      [("error", text f.error)]
      ⟨some f.ruleId, some f.ruleKind, f.path.map some, some f.attempts, some f.error⟩ :=
    .set (Draft.mk (some f.ruleId) (some f.ruleKind) (f.path.map some) (some f.attempts) ·) rfl
      (string_text f.error)
  refine ⟨_, _, rfl, ((hid.append hkind).append hpath).append (hattempts.append herror), ?_⟩
  simp only [Draft.finish, required, getD_map_some, bind, Except.bind, pure, Except.pure]

end DispatchFailure

theorem Json.Reads.readObject_eq {σ α : Type} {field : σ → String → Option (Node → Except Fault σ)}
    {s t : σ} {fields : List (String × Value)} {finish : σ → Except Fault α} {a : α}
    (h : Reads field s fields t) (hfinish : finish t = .ok a) :
    Event.readObject s field finish (object fields).node = .ok a := by
  rw [node]
  simp only [Event.readObject, h.foldFields_eq, ofDefect, bind, Except.bind, hfinish]

namespace Event

theorem Kind.ofName?_name (k : Kind) : Kind.ofName? k.name = some k := by
  cases k <;> rfl

variable (fresh : Nat → Uuid)

theorem withoutPayload_kind {e : Event} (h : e.payload = none) : withoutPayload e.kind = .ok e := by
  cases e with
  | appPreStart | appReady | appExit => rfl
  | newMessage | smtpServerBind | rulesUpdated | ruleDispatchFailed => cases h

/-- What an event carries is read back once its kind is known. -/
theorem readPayload_payload {e : Event} {v : Value} (h : e.payload = some v) :
    readPayload fresh false e.kind v.node = .ok e := by
  cases e with
  | appPreStart | appReady | appExit => cases h
  | newMessage m =>
    cases h
    simp only [kind, readPayload, m.ofNode_toJson, Functor.map, Except.map]
  | smtpServerBind address port =>
    cases h
    have haddress : Reads BindDraft.field {} [("address", text address)] ⟨some address, none⟩ :=
      .set (BindDraft.mk · none) rfl (string_text address)
    have hport : Reads BindDraft.field ⟨some address, none⟩ [("port", nat port.toNat)]
        ⟨some address, some port⟩ :=
      .set (BindDraft.mk (some address) ·) rfl (word16_nat port)
    exact (haddress.append hport).readObject_eq rfl
  | rulesUpdated rules =>
    cases h
    have hrules : Reads (rulesField fresh (depthLimit - 2)) none
        [("rules", array (rules.map Rule.toJson))] (some rules) :=
      .map some rfl (Rule.listOfNode_toJson fresh (by decide) rules)
    exact hrules.readObject_eq rfl
  | ruleDispatchFailed f =>
    cases h
    obtain ⟨fields, d, hfields, hreads, hfinish⟩ := f.reads_toJson
    simp only [kind, readPayload, hfields, hreads.readObject_eq hfinish, Functor.map, Except.map]

theorem ofNode_toJson (e : Event) : ofNode fresh e.toJson.node = .ok e := by
  have hkind : Reads (Draft.field fresh) .empty [("type", text e.name)] (.kind e.kind) :=
    .map Draft.kind rfl (DispatchFailure.readTag_text e.kind.ofName?_name)
  cases hpayload : e.payload with
  | none =>
    have hjson : e.toJson = .object [("type", text e.name)] := by
      rw [toJson, hpayload]
      rfl
    rw [hjson]
    exact hkind.record_eq (withoutPayload_kind hpayload) _ _
  | some v =>
    have hjson : e.toJson = .object ([("type", text e.name)] ++ [("payload", v)]) := by
      rw [toJson, hpayload]
      rfl
    have hwhole : Reads (Draft.field fresh) (.kind e.kind) [("payload", v)] (.whole e) :=
      .map Draft.whole rfl (readPayload_payload fresh hpayload)
    rw [hjson]
    exact (hkind.append hwhole).record_eq (show Draft.finish (.whole e) = .ok e from rfl) _ _

end Event

end Letterbox
