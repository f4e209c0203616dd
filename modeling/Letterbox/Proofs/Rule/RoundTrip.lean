import Letterbox.Proofs.Json.Records
import Letterbox.Proofs.Rule.Identifiers
import Letterbox.Rule.Json

/-!
# Rules there and back

A rule of any kind is read back from what is written of it, and so is a list of rules. Settings that
have no value are not written, and reading leaves them without one.
-/

namespace Letterbox

set_option autoImplicit false

open Json Value

theorem Uuid.ofNode_toText (u : Uuid) : Uuid.ofNode (text u.toText).node = .ok u := by
  simp only [Uuid.ofNode, string_text, bind, Except.bind, u.ofText?_toText, pure, Except.pure]

section OptionalFields
variable {σ : Type} {field : σ → String → Option (Node → Except Fault σ)}

theorem optionalField_eq_toList (name : String) (o : Option String) :
    Rule.optionalField name o = (o.map fun s => (name, text s)).toList := by
  cases o <;> rfl

/-- A setting that may be missing is known as it was, whether or not it was written. -/
theorem Json.Reads.optionalField {name : String} (put : Option (Option String) → σ)
    (hname : field (put none) name = some fun v => do
      return put (← once none (v.optional Node.string)))
    (o : Option String) :
    Reads field (put none) (Rule.optionalField name o) (put (o.map some)) := by
  cases o with
  | none => exact .nil _
  | some s => exact .set put hname rfl

theorem getD_map_some (o : Option String) : (o.map some).getD none = o := by
  cases o <;> rfl

end OptionalFields

namespace RelayHost

theorem ofNode_toJson (h : RelayHost) : ofNode h.toJson.node = .ok h := by
  have hhost : Reads Draft.field {} [("host", text h.host)] { host := some h.host } :=
    .set (Draft.mk · none none none) rfl (string_text h.host)
  have hport : Reads Draft.field { host := some h.host } [("port", nat h.port.toNat)]
      { host := some h.host, port := some h.port } :=
    .set (Draft.mk (some h.host) · none none) rfl (word16_nat h.port)
  have husername : Reads Draft.field _ (Rule.optionalField "username" h.username) _ :=
    .optionalField (Draft.mk (some h.host) (some h.port) · none) rfl h.username
  have hpassword : Reads Draft.field _ (Rule.optionalField "password" h.password) _ :=
    .optionalField (Draft.mk (some h.host) (some h.port) (h.username.map some) ·) rfl h.password
  have hreads := ((hhost.append hport).append husername).append hpassword
  rw [toJson, ← optionalField_eq_toList, ← optionalField_eq_toList]
  refine hreads.record_eq ?_ _ _
  simp only [Draft.finish, required, Option.getD_some, getD_map_some, bind, Except.bind, pure,
    Except.pure]

end RelayHost

namespace RetryPolicy

theorem ofNode_toJson (p : RetryPolicy) : ofNode p.toJson.node = .ok p := by
  have hretries : Reads Draft.field {} [("retry_count", nat p.retries.toNat)]
      { retries := some p.retries } :=
    .set (Draft.mk · none) rfl (word32_nat p.retries)
  have hpause : Reads Draft.field { retries := some p.retries }
      [("retry_delay_secs", nat p.pauseSecs.toNat)]
      { retries := some p.retries, pauseSecs := some p.pauseSecs } :=
    .set (Draft.mk (some p.retries) ·) rfl (word64_nat p.pauseSecs)
  have hreads := hretries.append hpause
  exact hreads.record_eq (show Draft.finish _ = .ok p from rfl) true inOrder

end RetryPolicy

namespace Rule

theorem Kind.ofName?_name (k : Kind) : Kind.ofName? k.name = some k := by
  cases k <;> rfl

theorem Kind.ofNode_name (k : Kind) : Kind.ofNode (text k.name).node = .ok k := by
  simp only [Kind.ofNode, string_text, k.ofName?_name, bind, Except.bind, pure, Except.pure]

/-! ## The settings of an action -/

theorem field_of_mem {kind : Kind} {name : String} (h : name ∈ kind.fieldNames) (d : Draft) :
    d.field kind name = some (d.assign name) := by
  rw [Draft.field, if_pos (List.contains_iff_mem.mpr h)]

theorem Kind.id_mem (k : Kind) : "id" ∈ k.fieldNames := by
  cases k <;> decide

theorem Kind.enabled_mem (k : Kind) : "enabled" ∈ k.fieldNames := by
  cases k <;> decide

theorem reads_relayFields {kind : Kind} (hrelay : "relay" ∈ kind.fieldNames)
    (hretry : "retry" ∈ kind.fieldNames) (d : Draft) (via : Relay) :
    Reads (Draft.field kind) { d with relay := none, retry := none } (relayFields via)
      { d with relay := some via.host, retry := some via.retry } := by
  have hhost : Reads (Draft.field kind) { d with relay := none, retry := none }
      [("relay", via.host.toJson)] { d with relay := some via.host, retry := none } :=
    .set (fun host => { d with relay := host, retry := none }) (field_of_mem hrelay _)
      via.host.ofNode_toJson
  have hpolicy : Reads (Draft.field kind) { d with relay := some via.host, retry := none }
      [("retry", via.retry.toJson)] { d with relay := some via.host, retry := some via.retry } :=
    .set (fun policy => { d with relay := some via.host, retry := policy }) (field_of_mem hretry _)
      via.retry.ofNode_toJson
  exact hhost.append hpolicy

/-- The settings of an action, read on top of what every rule has, make the action again. -/
theorem Action.reads (a : Action) (id : Option Uuid) (enabled : Option Bool) :
    ∃ d : Draft, Reads (Draft.field a.kind) { id, enabled } a.fields d ∧
      d.id = id ∧ d.enabled = enabled ∧ d.action a.kind = .ok a := by
  cases a with
  | relay via =>
    have hvia : Reads (Draft.field .relay) { id, enabled } (relayFields via) _ :=
      reads_relayFields (by decide) (by decide) { id, enabled } via
    exact ⟨_, hvia, rfl, rfl, rfl⟩
  | conditionalRelay header body via =>
    have hheader : Reads (Draft.field .conditionalRelay) { id, enabled }
        (optionalField "header_regex" header) { id, enabled, headerRegex := header.map some } :=
      .optionalField (fun p => { id, enabled, headerRegex := p : Draft }) rfl header
    have hbody : Reads (Draft.field .conditionalRelay)
        { id, enabled, headerRegex := header.map some } (optionalField "body_regex" body)
        { id, enabled, headerRegex := header.map some, bodyRegex := body.map some } :=
      .optionalField
        (fun p => { id, enabled, headerRegex := header.map some, bodyRegex := p : Draft }) rfl body
    have hvia : Reads (Draft.field .conditionalRelay)
        { id, enabled, headerRegex := header.map some, bodyRegex := body.map some }
        (relayFields via) _ :=
      reads_relayFields (by decide) (by decide)
        { id, enabled, headerRegex := header.map some, bodyRegex := body.map some } via
    refine ⟨_, (hheader.append hbody).append hvia, rfl, rfl, ?_⟩
    simp only [Draft.action, Action.kind, getD_map_some]
    rfl
  | forward recipient sender via =>
    have hrecipient : Reads (Draft.field .forward) { id, enabled } [("to_email", text recipient)]
        { id, enabled, toEmail := some recipient } :=
      .set (fun s => { id, enabled, toEmail := s : Draft }) rfl (string_text recipient)
    have hsender : Reads (Draft.field .forward) { id, enabled, toEmail := some recipient }
        (optionalField "from_email" sender)
        { id, enabled, toEmail := some recipient, fromEmail := sender.map some } :=
      .optionalField
        (fun s => { id, enabled, toEmail := some recipient, fromEmail := s : Draft }) rfl sender
    have hvia : Reads (Draft.field .forward)
        { id, enabled, toEmail := some recipient, fromEmail := sender.map some }
        (relayFields via) _ :=
      reads_relayFields (by decide) (by decide)
        { id, enabled, toEmail := some recipient, fromEmail := sender.map some } via
    refine ⟨_, hrecipient.append (hsender.append hvia), rfl, rfl, ?_⟩
    simp only [Draft.action, Action.kind, getD_map_some]
    rfl
  | invokeProcess program commandLine =>
    have hprogram : Reads (Draft.field .invokeProcess) { id, enabled }
        [("process_path", text program)] { id, enabled, processPath := some program } :=
      .set (fun s => { id, enabled, processPath := s : Draft }) rfl (string_text program)
    have hcommand : Reads (Draft.field .invokeProcess)
        { id, enabled, processPath := some program } [("command_line", text commandLine)]
        { id, enabled, processPath := some program, commandLine := some commandLine } :=
      .set (fun s => { id, enabled, processPath := some program, commandLine := s : Draft }) rfl
        (string_text commandLine)
    exact ⟨_, hprogram.append hcommand, rfl, rfl, rfl⟩
  | mailRetention days =>
    have hdays : Reads (Draft.field .mailRetention) { id, enabled }
        [("retention_days", nat days.toNat)] { id, enabled, retentionDays := some days } :=
      .set (fun n => { id, enabled, retentionDays := n : Draft }) rfl (word32_nat days)
    exact ⟨_, hdays, rfl, rfl, rfl⟩

def settingsOf (r : Rule) : List (String × Value) :=
  ("id", .text r.id.toText) :: ("enabled", .bool r.enabled) :: r.action.fields

theorem reads_settingsOf (fresh : Uuid) (r : Rule) :
    ∃ d : Draft, Reads (Draft.field r.kind) {} r.settingsOf d ∧ d.finish fresh r.kind = .ok r := by
  obtain ⟨d, hreads, hid, henabled, haction⟩ := r.action.reads (some r.id) (some r.enabled)
  have hidentifier : Reads (Draft.field r.kind) {} [("id", text r.id.toText)] { id := some r.id } :=
    .set (fun id => { id : Draft }) (field_of_mem r.kind.id_mem _) r.id.ofNode_toText
  have hswitch : Reads (Draft.field r.kind) { id := some r.id } [("enabled", bool r.enabled)]
      { id := some r.id, enabled := some r.enabled } :=
    .set (fun enabled => { id := some r.id, enabled : Draft })
      (field_of_mem r.kind.enabled_mem _) rfl
  refine ⟨d, hidentifier.append (hswitch.append hreads), ?_⟩
  simp only [Draft.finish, hid, henabled, Option.getD_some, Rule.kind, haction, bind, Except.bind,
    pure, Except.pure]

/-! ## Looking at a rule as a whole -/

/-- A setting, as it stands beside the kind of a rule: it can be looked at, and it is not the
kind. -/
def IsSetting (room : Nat) (f : String × Value) : Prop :=
  f.1 ≠ "type" ∧ f.2.node.inspect room = .ok ()

section Inspection
variable {room : Nat}

theorem isSetting_of_inspect {name : String} {v : Value} (hname : name ≠ "type")
    (hv : v.node.inspect room = .ok ()) : IsSetting room (name, v) := ⟨hname, hv⟩

theorem isSetting_optionalField {name : String} (hname : name ≠ "type") (o : Option String) :
    ∀ f ∈ optionalField name o, IsSetting room f := by
  cases o with
  | none => exact List.forall_mem_nil _
  | some s => exact List.forall_mem_singleton.mpr ⟨hname, inspect_text room s⟩

theorem inspect_host (h : RelayHost) : h.toJson.node.inspect (room + 1) = .ok () := by
  have hport := h.port.toNat_lt
  refine inspect_object ?_
  rw [← optionalField_eq_toList, ← optionalField_eq_toList]
  refine List.forall_mem_append.mpr ⟨List.forall_mem_append.mpr ⟨?_, ?_⟩, ?_⟩
  · exact List.forall_mem_cons.mpr
      ⟨inspect_text room h.host, List.forall_mem_singleton.mpr (inspect_nat room (by omega))⟩
  · exact fun f hf => (isSetting_optionalField (by decide) h.username f hf).2
  · exact fun f hf => (isSetting_optionalField (by decide) h.password f hf).2

theorem inspect_policy (p : RetryPolicy) : p.toJson.node.inspect (room + 1) = .ok () := by
  have hretries := p.retries.toNat_lt
  have hpause := p.pauseSecs.toNat_lt
  exact inspect_object <| List.forall_mem_cons.mpr
    ⟨inspect_nat room (by omega), List.forall_mem_singleton.mpr (inspect_nat room (by omega))⟩

theorem isSetting_relayFields (via : Relay) : ∀ f ∈ relayFields via, IsSetting (room + 1) f :=
  List.forall_mem_cons.mpr ⟨isSetting_of_inspect (by decide) (inspect_host via.host),
    List.forall_mem_singleton.mpr (isSetting_of_inspect (by decide) (inspect_policy via.retry))⟩

theorem isSetting_fields (a : Action) : ∀ f ∈ a.fields, IsSetting (room + 1) f := by
  cases a with
  | relay via => exact isSetting_relayFields via
  | conditionalRelay header body via =>
    exact List.forall_mem_append.mpr ⟨List.forall_mem_append.mpr
      ⟨isSetting_optionalField (by decide) header, isSetting_optionalField (by decide) body⟩,
      isSetting_relayFields via⟩
  | forward recipient sender via =>
    exact List.forall_mem_cons.mpr ⟨isSetting_of_inspect (by decide) (inspect_text _ recipient),
      List.forall_mem_append.mpr
        ⟨isSetting_optionalField (by decide) sender, isSetting_relayFields via⟩⟩
  | invokeProcess program commandLine =>
    exact List.forall_mem_cons.mpr ⟨isSetting_of_inspect (by decide) (inspect_text _ program),
      List.forall_mem_singleton.mpr (isSetting_of_inspect (by decide) (inspect_text _ commandLine))⟩
  | mailRetention days =>
    have hdays := days.toNat_lt
    exact List.forall_mem_singleton.mpr
      (isSetting_of_inspect (by decide) (inspect_nat _ (by omega)))

theorem isSetting_settingsOf (r : Rule) : ∀ f ∈ r.settingsOf, IsSetting (room + 1) f :=
  List.forall_mem_cons.mpr ⟨isSetting_of_inspect (by decide) (inspect_text _ _),
    List.forall_mem_cons.mpr ⟨isSetting_of_inspect (by decide) (inspect_bool _ _),
      isSetting_fields r.action⟩⟩

/-- Where the kind is none of the fields, looking at them finds no other. -/
theorem findKind_of_settings {held : Option Kind} {fields : List (String × Value)}
    (h : ∀ f ∈ fields, IsSetting room f) :
    findKind room held (fieldNodes fields) = .ok held := by
  induction fields with
  | nil => rfl
  | cons f rest ih =>
    obtain ⟨k, v⟩ := f
    obtain ⟨hk, hv⟩ := h (k, v) List.mem_cons_self
    rw [fieldNodes_cons]
    simp only [findKind, bind, Except.bind, if_neg hk, hv]
    exact ih fun g hg => h g (List.mem_cons_of_mem _ hg)

theorem settings_of_settings {fields : List (String × Value)}
    (h : ∀ f ∈ fields, IsSetting room f) : settings (fieldNodes fields) = fieldNodes fields := by
  rw [fieldNodes_eq_map, settings, List.filter_eq_self]
  intro g hg
  obtain ⟨f, hf, rfl⟩ := List.mem_map.mp hg
  exact bne_iff_ne.mpr (h f hf).1

end Inspection

/-! ## Rules and lists of them -/

theorem toJson_eq (r : Rule) : r.toJson = .object (("type", .text r.kind.name) :: r.settingsOf) :=
  rfl

theorem ofNode_toJson (fresh : Uuid) {room : Nat} (h : 2 ≤ room) (r : Rule) :
    ofNode fresh room r.toJson.node = .ok r := by
  obtain ⟨d, hreads, hfinish⟩ := r.reads_settingsOf fresh
  have hsetting : ∀ f ∈ r.settingsOf, IsSetting (room - 1) f := by
    rw [show room - 1 = room - 2 + 1 by omega]
    exact r.isSetting_settingsOf
  have hkind : findKind (room - 1) none (fieldNodes (("type", .text r.kind.name) :: r.settingsOf)) =
      .ok (some r.kind) := by
    rw [fieldNodes_cons]
    simp only [findKind, bind, Except.bind, if_true, r.kind.ofNode_name]
    exact findKind_of_settings hsetting
  have hsettings : settings (fieldNodes (("type", .text r.kind.name) :: r.settingsOf)) =
      fieldNodes r.settingsOf := by
    rw [fieldNodes_cons, settings, List.filter_cons]
    exact settings_of_settings hsetting
  rw [toJson_eq, node]
  simp only [ofNode, hkind, hsettings, ofDefect, required, hreads.foldFields_eq, hfinish, bind,
    Except.bind]

theorem listOfNode_toJson (fresh : Nat → Uuid) {room : Nat} (h : 3 ≤ room) (rules : List Rule) :
    listOfNode fresh room (array (rules.map toJson)).node = .ok rules :=
  list_array (fun i r => r.ofNode_toJson (fresh i) (by omega)) rules

end Rule

end Letterbox
