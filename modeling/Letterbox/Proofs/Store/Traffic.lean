import Letterbox.Proofs.Store.Operations

/-!
# Operations side by side

Operations take their steps in any order, each step may fail, and still the mailbox is a map that
changes only as the operations say: a message is in it in full or not at all. What is listed or
loaded at any time is what was there at the start or all of one message that was saved.
-/

namespace Letterbox

set_option autoImplicit false

namespace Mailbox

variable {m : Mailbox} {d : Disk} {ops : List Operation} {t : Traffic}

/-- The bytes were in the mailbox under that name at the start, or they are all of a message that is
saved under it. -/
def Known (m : Mailbox) (d : Disk) (ops : List Operation) (n : String) (data : Bytes) : Prop :=
  m.messages d n = some data ∨ ∃ s, Operation.save s ∈ ops ∧ s.name = n ∧ s.data = data

def Operation.Tells (m : Mailbox) (known : String → Bytes → Prop) : Operation → Prop
  | .load path (some (.ok data)) => ∃ n, Path.fileName? path = some n ∧
      (Path.extension? n = some extension → known n data)
  | .list stage => ∀ e ∈ stage.found, m.Shows known e
  | _ => True

theorem Operation.Acts.tells {now now' : Messages} {op op' : Operation}
    {known : String → Bytes → Prop} (h : op.Acts m now op' now')
    (hknown : ∀ n data, now n = some data → known n data) (hop : op.Tells m known) :
    op'.Tells m known := by
  cases h with
  | store | save | refuseLoad | delete | refuseDelete => trivial
  | load name there => exact ⟨_, name, fun hext => hknown _ _ (there hext)⟩
  | list told =>
    intro e he
    rcases told e he with he | he
    · exact hop e he
    · exact he.imp hknown
  | rest => exact hop

namespace Traffic

/-- What holds at any time when operations are carried out side by side. -/
structure Sound (m : Mailbox) (d : Disk) (ops : List Operation) (t : Traffic) : Prop where
  tidy : t.disk.Tidy
  grows : Disk.Grows d t.disk
  operations : ∀ op ∈ t.operations, op.Sound m t.disk
  begun : t.operations.map Operation.begun = ops
  known : ∀ n data, m.messages t.disk n = some data → Known m d ops n data
  tells : ∀ op ∈ t.operations, op.Tells m (Known m d ops)

theorem step_of_none (index : Nat) (turn : Turn) (h : t.operations[index]? = none) :
    t.step m index turn = t := by
  rw [step, h]

theorem step_of_some (turn : Turn) {index : Nat} {op : Operation}
    (h : t.operations[index]? = some op) : t.step m index turn =
      { disk := (op.step m turn t.disk).1
        operations := t.operations.set index (op.step m turn t.disk).2 } := by
  rw [step, h]

/-- No two operations give the same name. -/
theorem name?_ne {i j : Nat} {op : Operation} {s : Saving}
    (hdistinct : (t.operations.filterMap Operation.name?).Nodup) (hi : t.operations[i]? = some op)
    (hj : t.operations[j]? = some (.save s)) (hij : i ≠ j) : op.name? ≠ some s.name := by
  intro hname
  obtain ⟨hilt, rfl⟩ := List.getElem?_eq_some_iff.mp hi
  obtain ⟨hjlt, hs⟩ := List.getElem?_eq_some_iff.mp hj
  have hpair := List.pairwise_iff_getElem.mp (List.pairwise_filterMap.mp hdistinct)
  have hsname : Operation.name? t.operations[j] = some s.name := by
    rw [hs]
    rfl
  rcases Nat.lt_or_gt_of_ne hij with hlt | hlt
  · exact hpair i j hilt hjlt hlt _ hname _ hsname rfl
  · exact hpair j i hjlt hilt hlt _ hsname _ hname rfl

theorem Sound.names (h : t.Sound m d ops) :
    t.operations.filterMap Operation.name? = ops.filterMap Operation.name? := by
  have hname : Operation.name? ∘ Operation.begun = Operation.name? :=
    funext Operation.name?_begun
  rw [← h.begun, List.filterMap_map, hname]

/-- An operation that saves a message is one of those that were begun. -/
theorem Sound.mem_begun (h : t.Sound m d ops) {s : Saving} (hs : .save s ∈ t.operations) :
    .save { s with stage := .checking } ∈ ops := by
  rw [← h.begun]
  exact List.mem_map.mpr ⟨_, hs, rfl⟩

theorem Sound.leads (h : t.Sound m d ops) (turn : Turn) {index : Nat} {op : Operation}
    (hop : t.operations[index]? = some op) :
    op.Leads m t.disk (op.step m turn t.disk).1 (op.step m turn t.disk).2 :=
  Operation.leads_step h.tidy (h.operations op (List.mem_of_getElem? hop)) turn

theorem Sound.known_acts (h : t.Sound m d ops) {op op' : Operation} (hop : op ∈ t.operations)
    {now : Messages} (hacts : op.Acts m (m.messages t.disk) op' now) :
    ∀ n data, now n = some data → Known m d ops n data := by
  intro n data hdata
  cases hacts with
  | @store s s' moving moved same new =>
    rw [Function.update_apply] at hdata
    split at hdata
    · rename_i hn
      cases hdata
      exact .inr ⟨_, h.mem_begun hop, hn.symm, rfl⟩
    · exact h.known n data hdata
  | delete name there =>
    rw [Function.update_apply] at hdata
    split at hdata
    · cases hdata
    · exact h.known n data hdata
  | save | load | refuseLoad | refuseDelete | list | rest => exact h.known n data hdata

/-- One step of one operation. -/
theorem Sound.step (h : t.Sound m d ops) (hdistinct : (ops.filterMap Operation.name?).Nodup)
    (index : Nat) (turn : Turn) : (t.step m index turn).Sound m d ops := by
  cases hop : t.operations[index]? with
  | none =>
    rw [step_of_none index turn hop]
    exact h
  | some op =>
    have hleads := h.leads turn hop
    have hmem := List.mem_of_getElem? hop
    rw [step_of_some turn hop]
    refine ⟨hleads.tidy, h.grows.trans hleads.grows, fun op' hop' => ?_, ?_,
      h.known_acts hmem hleads.acts, fun op' hop' => ?_⟩
    · -- the operation that took the step is sound by itself, the others are framed
      obtain ⟨j, hj⟩ := List.mem_iff_getElem?.mp hop'
      by_cases hij : index = j
      · subst hij
        rw [List.getElem?_set_self (List.getElem?_eq_some_iff.mp hop).1, Option.some.injEq] at hj
        exact hj ▸ hleads.sound
      · rw [List.getElem?_set_ne hij] at hj
        have hsound := h.operations op' (List.mem_of_getElem? hj)
        cases op' with
        | save s =>
          have hother := name?_ne (h.names ▸ hdistinct) hop hj hij
          exact ⟨hsound.1, Operation.frame h.tidy (h.operations op hmem) turn hsound.1 hsound.2
            hother⟩
        | load | delete => trivial
        | list stage => exact hsound
    · rw [List.map_set, hleads.begun, ← h.begun]
      obtain ⟨hlt, rfl⟩ := List.getElem?_eq_some_iff.mp hop
      rw [← List.getElem_map Operation.begun (h := by rwa [List.length_map]), List.set_getElem_self]
    · rcases List.mem_or_eq_of_mem_set hop' with hold | rfl
      · exact h.tells op' hold
      · exact hleads.acts.tells h.known (h.tells op hmem)

theorem Sound.steps (h : t.Sound m d ops) (hdistinct : (ops.filterMap Operation.name?).Nodup)
    (schedule : List (Nat × Turn)) : (t.steps m schedule).Sound m d ops := by
  induction schedule generalizing t with
  | nil => exact h
  | cons next schedule ih => exact ih (h.step hdistinct next.1 next.2)

/-- Operations that have not begun; the messages that they save have names of their own, which are
new. -/
structure Fresh (m : Mailbox) (d : Disk) (ops : List Operation) : Prop where
  begun : ∀ op ∈ ops, op.begun = op
  named : ∀ s, .save s ∈ ops → s.Named
  distinct : (ops.filterMap Operation.name?).Nodup
  new : ∀ s, .save s ∈ ops → d.item? (m.home d ++ [s.name]) = none

theorem Fresh.sound (hd : d.Tidy) (h : Fresh m d ops) : Sound m d ops ⟨d, ops⟩ := by
  refine ⟨hd, Disk.Grows.refl d, fun op hop => ?_, ?_, fun n data hdata => .inl hdata,
    fun op hop => ?_⟩
  · have hbegun := h.begun op hop
    cases op with
    | save s =>
      refine ⟨h.named s hop, fun _ => .inl (h.new s hop), fun hmoving => ?_⟩
      rw [Operation.begun, Operation.save.injEq] at hbegun
      rw [← hbegun] at hmoving
      cases hmoving
    | load | delete => trivial
    | list stage =>
      cases hbegun
      trivial
  · exact (List.map_congr_left h.begun).trans (List.map_id ops)
  · have hbegun := h.begun op hop
    cases op with
    | save | delete => trivial
    | load path answer =>
      cases hbegun
      trivial
    | list stage =>
      cases hbegun
      exact fun e he => by cases he

/-- Of a new name nothing else is known than the message that is saved under it. -/
theorem Fresh.eq_of_known (h : Fresh m d ops) {s : Saving} (hs : .save s ∈ ops) {data : Bytes}
    (hknown : Known m d ops s.name data) : data = s.data := by
  rcases hknown with hdata | ⟨s', hs', hname, rfl⟩
  · obtain ⟨-, hfile⟩ := messages_eq_some.mp hdata
    rw [Disk.data?, h.new s hs] at hfile
    cases hfile
  · obtain ⟨i, hi⟩ := List.mem_iff_getElem?.mp hs'
    obtain ⟨j, hj⟩ := List.mem_iff_getElem?.mp hs
    by_cases hij : i = j
    · subst hij
      rw [hi, Option.some.injEq, Operation.save.injEq] at hj
      rw [hj]
    · exact absurd (congrArg some hname) (name?_ne (t := ⟨d, ops⟩) h.distinct hi hj hij)

/-- A list of a mailbox that nobody uses meanwhile has everything in it, and each message on it can
be loaded and deleted. -/
theorem enumerate_exact (hd : d.Tidy) :
    match d.list m.base with
    | .ok _ => ∃ l, m.enumerate d = .ok l ∧ m.Lists d l ∧
        ∀ e ∈ l, ∀ data, m.messages d e.name = some data →
          e.size = data.length.toUInt64 ∧ m.load d e.path = .ok data ∧
            ∃ d', m.delete d e.path = .ok d'
    | .error .notFound => m.enumerate d = .ok []
    | .error f => m.enumerate d = .error (.system f) := by
  have henumerate := m.enumerate_eq d
  cases hlist : d.list m.base with
  | error f =>
    rw [hlist] at henumerate
    cases f <;> exact henumerate
  | ok names =>
    obtain ⟨l, hl, hlists⟩ := enumerate_of_list hd hlist
    refine ⟨l, hl, hlists, fun e he data hdata => ?_⟩
    obtain ⟨n, i, hlistable, rfl⟩ := (hlists.mem_iff e).mp he
    rw [describe_name] at hdata
    obtain ⟨-, hfile⟩ := messages_eq_some.mp hdata
    have hload := load_join hd (Disk.list_eq_ok.mp hlist).1.2.2 hlistable.accepted hfile
    obtain ⟨t, hi⟩ := Disk.data?_eq_some.mp hfile
    rw [hlistable.there, Option.some.injEq] at hi
    rw [describe_path, hi]
    exact ⟨rfl, hload, _, delete_eq_ok.mpr ⟨⟨data, hload⟩, rfl⟩⟩

/-- Whatever operations are carried out side by side on whatever disk, in whatever order their steps
are taken and whichever of them fail: every step does to the mailbox, as a map from names to bytes,
what the operation says. A message is put in by the one step that moves its draft, which fails only
if the system does, and deleting takes out one. Under a new name nothing is ever there, loaded or
told of but all of the message that is saved under it. A list that is made while nothing else is
done has exactly what is called like a message on it, once, with the right size, and sorted; and
there is none only if the directory is missing or cannot be read. -/
theorem operations_refine (m : Mailbox) {d : Disk} {ops : List Operation} (hd : d.Tidy)
    (hops : Fresh m d ops) (schedule : List (Nat × Turn)) :
    let t := steps m ⟨d, ops⟩ schedule
    (∀ index turn op, t.operations[index]? = some op →
      ∃ op', (t.step m index turn).operations = t.operations.set index op' ∧
        op.Acts m (m.messages t.disk) op' (m.messages (t.step m index turn).disk) ∧
          ∀ s, op = .save s → s.stage = .moving → turn.mishap = none →
            s.name ∉ Path.segments m.base →
              op' = .save { s with stage := .measuring }) ∧
      (∀ n data, m.messages t.disk n = some data → Known m d ops n data) ∧
      (∀ op ∈ t.operations, op.Sound m t.disk ∧ op.Tells m (Known m d ops)) ∧
      (∀ s, .save s ∈ ops → ∀ data, Known m d ops s.name data → data = s.data) ∧
      match t.disk.list m.base with
      | .ok _ => ∃ l, m.enumerate t.disk = .ok l ∧ m.Lists t.disk l ∧
          ∀ e ∈ l, ∀ data, m.messages t.disk e.name = some data →
            e.size = data.length.toUInt64 ∧ m.load t.disk e.path = .ok data ∧
              ∃ d', m.delete t.disk e.path = .ok d'
      | .error .notFound => m.enumerate t.disk = .ok []
      | .error f => m.enumerate t.disk = .error (.system f) := by
  intro t
  have hsound : t.Sound m d ops := (hops.sound hd).steps hops.distinct schedule
  refine ⟨fun index turn op hop => ⟨(op.step m turn t.disk).2, ?_, ?_, ?_⟩, hsound.known,
    fun op hop => ⟨hsound.operations op hop, hsound.tells op hop⟩,
    fun s hs data => hops.eq_of_known hs, enumerate_exact hsound.tidy⟩
  · rw [step_of_some turn hop]
  · rw [step_of_some turn hop]
    exact (hsound.leads turn hop).acts
  · rintro s rfl hmoving hturn hbase
    obtain ⟨hn, hs⟩ := hsound.operations _ (List.mem_of_getElem? hop)
    have hmoved := Saving.step_moving hn hs hmoving hbase hturn
    obtain ⟨hname, hdata⟩ := (Saving.change_step (m := m) (s := s) hsound.tidy turn).name
    change Operation.save (s.step m turn t.disk).2 = _
    rw [← hname, ← hdata, ← hmoved]

/-- One message is saved while the mailbox is listed: in the end it is all that is there. -/
theorem operations_refine_saved_and_listed :
    let name := messageName 20240101000000000 1
    let ops : List Operation := [.save { name, data := [104, 105] }, .list .listing]
    let t := steps ⟨"store"⟩ ⟨{}, ops⟩ [(0, {}), (0, {}), (0, { portion := 1 }), (1, {}),
      (0, { portion := 1 }), (0, {}), (1, {})]
    messages ⟨"store"⟩ t.disk name = some [104, 105] ∧
      ∀ n data, messages ⟨"store"⟩ t.disk n = some data → n = name ∧ data = [104, 105] := by
  intro name ops t
  have hd : Disk.Tidy {} := ⟨List.nodup_nil, List.forall_mem_nil _, Disk.isDirectory_nil {}⟩
  have hops : Fresh ⟨"store"⟩ {} ops := by
    refine ⟨?_, fun s hs => ?_, by decide, fun s hs => ?_⟩
    · simp [ops, Operation.begun]
    · have hs : s = { name, data := [104, 105] } := by simpa [ops] using hs
      exact ⟨20240101000000000, 1, by rw [hs]⟩
    · rw [Disk.item?_eq_lookup (Disk.place_ne_nil _ s.name)]
      rfl
  refine ⟨by decide +kernel, fun n data hdata => ?_⟩
  obtain ⟨-, hknown, -⟩ := operations_refine ⟨"store"⟩ hd hops _
  rcases hknown n data hdata with hstart | ⟨s, hs, rfl, rfl⟩
  · obtain ⟨-, hfile⟩ := messages_eq_some.mp hstart
    obtain ⟨time, hi⟩ := Disk.data?_eq_some.mp hfile
    rw [Disk.item?_eq_lookup (Disk.place_ne_nil _ n)] at hi
    cases hi
  · have hs : s = { name, data := [104, 105] } := by simpa [ops] using hs
    rw [hs]
    exact ⟨rfl, rfl⟩

end Traffic

end Mailbox

end Letterbox
