import Letterbox.Proofs.Store.Operations

/-!
# Inside the directory

A mailbox accepts every path that it has told of itself. Of the other paths it reads and removes
only what lies directly in its directory, however a path is written.
-/

namespace Letterbox

set_option autoImplicit false

namespace Path

theorem componentOf_injective : Function.Injective componentOf := by
  intro s s' h
  unfold componentOf at h
  split at h <;> split at h
  · rename_i hs hs'
    rw [hs, hs']
  · cases h
  · cases h
  · exact Component.name.inj h

theorem componentOf_ne_here (s : String) : componentOf s ≠ .here := by
  unfold componentOf
  split <;> nofun

/-- But for a dot at the beginning, the components are the segments that lead somewhere. -/
theorem filter_parts (path : String) :
    (components path).parts.filter (· ≠ .here) =
      ((segments path).filter (· ≠ ".")).map componentOf := by
  have hfirst : (if beginsHere path then [Component.here] else []).filter (· ≠ .here) = [] := by
    split <;> rfl
  rw [components, List.filter_append, hfirst, List.nil_append, List.filter_eq_self]
  intro c hc
  obtain ⟨s, -, rfl⟩ := List.mem_map.mp hc
  exact decide_eq_true (componentOf_ne_here s)

end Path

namespace Disk

variable {d : Disk} {p q : Place} {l l' : List String} {path : String} {data : Bytes}

theorem directory_of_walk (h : d.walk p l = .ok q) (hq : d.IsDirectory q) :
    d.IsDirectory p := by
  cases l with
  | nil =>
    cases h
    exact hq
  | cons s l => exact (walk_cons_eq_ok.mp h).1

/-- Dots lead nowhere, and can stand wherever there is a directory. -/
theorem walk_filter (hq : d.IsDirectory q) :
    d.walk p (l.filter (· ≠ ".")) = .ok q ↔ d.walk p l = .ok q := by
  induction l generalizing p with
  | nil => rfl
  | cons s l ih =>
    by_cases hs : s = "."
    · subst hs
      rw [List.filter_cons_of_neg (by simp), ih, walk_cons_eq_ok, follow, if_pos rfl]
      constructor
      · intro h
        exact ⟨directory_of_walk h hq, by decide, h⟩
      · intro h
        exact h.2.2
    · rw [List.filter_cons_of_pos (by simpa using hs), walk_cons_eq_ok, walk_cons_eq_ok, ih]

theorem walk_segments (h : d.resolve path = .ok p) :
    d.walk (d.origin path) (Path.segments path) = .ok (d.place path) := by
  have hwalk := (resolve_eq_ok.mp h).2.2
  rw [segments, walk_append, bind_eq_ok] at hwalk
  obtain ⟨q, hq, -⟩ := hwalk
  rw [hq, eq_foldl_of_walk hq, place]

end Disk

namespace Mailbox

variable {m : Mailbox} {d d' : Disk} {path n : String} {data : Bytes} {turn : Turn}

/-! ## What is told -/

namespace ListStage

def Own (m : Mailbox) : ListStage → Prop
  | .measuring todo found => (∀ n ∈ todo, ProperName n) ∧ ∀ e ∈ found, m.contains e.path = true
  | .done (.ok l) => ∀ e ∈ l, m.contains e.path = true
  | .listing | .done (.error _) => True

end ListStage

theorem contains_entry {e : StoredMessage} (hn : ProperName n)
    (he : entry d (Path.join m.base n) = .ok e) : m.contains e.path = true := by
  obtain ⟨-, -, i, -, rfl⟩ := (entry_eq_ok hn).mp he
  rw [describe_path]
  exact contains_join hn

theorem own_listStep (h : d.Tidy) (turn : Turn) {stage : ListStage} (hs : stage.Own m) :
    (m.listStep turn d stage).Own m := by
  cases stage with
  | listing =>
    rw [listStep]
    split
    · rename_i names hnames
      obtain ⟨-, hlist⟩ := Disk.list_eq_ok.mp (Turn.attempt_eq_ok.mp hnames).2
      refine ⟨fun n hn => ?_, List.forall_mem_nil _⟩
      have hn := (List.mem_filter.mp hn).1
      rw [hlist] at hn
      obtain ⟨i, hi⟩ := h.mem_namesIn.mp hn
      exact (h.parent hi).1
    · exact List.forall_mem_nil _
    · trivial
  | measuring todo found =>
    obtain ⟨htodo, hfound⟩ := hs
    cases todo with
    | nil => exact fun e he => hfound e ((List.mergeSort_perm found comesBefore).mem_iff.mp he)
    | cons n todo =>
      obtain ⟨hn, htodo⟩ := List.forall_mem_cons.mp htodo
      rw [listStep]
      split
      · rename_i e he
        refine ⟨htodo, fun e' he' => ?_⟩
        rcases List.mem_append.mp he' with he' | he'
        · exact hfound e' he'
        · cases List.mem_singleton.mp he'
          exact contains_entry hn (Turn.attempt_eq_ok.mp he).2
      · exact ⟨htodo, hfound⟩
  | done answer => exact hs

theorem own_listAlone (h : d.Tidy) (fuel : Nat) {stage : ListStage} (hs : stage.Own m) :
    (m.listAlone d fuel stage).Own m := by
  induction fuel generalizing stage with
  | zero => exact hs
  | succ fuel ih => exact ih (own_listStep h {} hs)

namespace Saving

variable {s : Saving}

structure Own (m : Mailbox) (s : Saving) : Prop where
  named : s.Named
  told : ∀ e, s.stage = .done (.ok e) → m.contains e.path = true

theorem Own.of_stage {stage : SaveStage} (h : s.Own m) (hstage : ∀ answer, stage ≠ .done answer) :
    Own m { s with stage } := ⟨h.named, fun e he => absurd he (hstage (.ok e))⟩

theorem Own.failed (h : s.Own m) (f : Failure) : (s.failed f).Own m := by
  refine ⟨h.named, fun e he => ?_⟩
  cases he

theorem Own.step (h : s.Own m) (turn : Turn) (d : Disk) : (s.step m turn d).2.Own m := by
  rw [Saving.step]
  split
  · refine h.of_stage fun answer hanswer => ?_
    split at hanswer <;> cases hanswer
  · rw [make]
    split
    · exact h.failed _
    · split
      · exact h.of_stage fun _ => SaveStage.noConfusion
      · exact h.failed _
  · rw [write]
    split
    · exact h.failed _
    · dsimp only
      split
      · refine h.of_stage fun answer hanswer => ?_
        split at hanswer <;> cases hanswer
      · exact h.failed _
  · rw [move]
    split
    · exact h.of_stage fun _ => SaveStage.noConfusion
    · exact h.failed _
  · rw [measure]
    split
    · rename_i e he
      refine ⟨h.named, fun e' he' => ?_⟩
      cases he'
      exact contains_entry h.named.proper (Turn.attempt_eq_ok.mp he).2
    · exact h.failed _
  · exact h

theorem Own.steps (h : s.Own m) (d : Disk) (turns : List Turn) : (steps m d s turns).2.Own m := by
  induction turns generalizing d s with
  | nil => exact h
  | cons turn turns ih => exact ih (h.step turn d) _

end Saving

namespace Operation

/-- What an operation has told of messages. -/
def told : Operation → List StoredMessage
  | .save s => match s.stage with
    | .done (.ok e) => [e]
    | _ => []
  | .list stage => stage.found
  | .load .. | .delete .. => []

def Own (m : Mailbox) : Operation → Prop
  | .save s => s.Own m
  | .list stage => stage.Own m
  | .load .. | .delete .. => True

/-- An operation takes steps, each on the disk as it is then. -/
def run (m : Mailbox) (op : Operation) (sights : List (Turn × Disk)) : Operation :=
  sights.foldl (fun op x => (op.step m x.1 x.2).2) op

theorem Own.step {op : Operation} (h : op.Own m) (hd : d.Tidy) (turn : Turn) :
    (op.step m turn d).2.Own m := by
  cases op with
  | save s => exact Saving.Own.step h turn d
  | list stage => exact own_listStep hd turn h
  | load path answer => cases answer <;> trivial
  | delete path answer =>
    cases answer with
    | some answer => trivial
    | none =>
      rw [step_delete]
      split <;> trivial

theorem Own.run {op : Operation} (h : op.Own m) {sights : List (Turn × Disk)}
    (hsights : ∀ x ∈ sights, x.2.Tidy) : (op.run m sights).Own m := by
  induction sights generalizing op with
  | nil => exact h
  | cons x sights ih =>
    obtain ⟨hx, hsights⟩ := List.forall_mem_cons.mp hsights
    exact ih (h.step hx x.1) hsights

theorem own_of_begun {op : Operation} (hbegun : op.begun = op)
    (hnamed : ∀ s, op = .save s → s.Named) : op.Own m := by
  cases op with
  | save s =>
    refine ⟨hnamed s rfl, fun e he => ?_⟩
    rw [begun, save.injEq] at hbegun
    rw [← hbegun] at he
    cases he
  | list stage =>
    cases hbegun
    trivial
  | load | delete => trivial

theorem Own.contains {op : Operation} (h : op.Own m) :
    ∀ e ∈ op.told, m.contains e.path = true := by
  intro e he
  cases op with
  | save s =>
    rw [told] at he
    split at he
    · rename_i e' hdone
      cases List.mem_singleton.mp he
      exact Saving.Own.told h e hdone
    · cases he
  | list stage =>
    cases stage with
    | listing => cases he
    | measuring todo found => exact h.2 e he
    | done answer =>
      cases answer with
      | ok l => exact h e he
      | error f => cases he
  | load | delete => cases he

end Operation

theorem contains_of_enumerate (h : d.Tidy) {l : List StoredMessage}
    (hl : m.enumerate d = .ok l) : ∀ e ∈ l, m.contains e.path = true := by
  have hown : (m.listAlone d (d.items.length + 2) .listing).Own m := own_listAlone h _ trivial
  rw [enumerate] at hl
  split at hl
  · rename_i answer hdone
    rw [hdone, hl] at hown
    exact hown
  · cases hl
    exact List.forall_mem_nil _

theorem contains_of_save {clock : Int} {time : Nat} {unique : UInt32} {e : StoredMessage}
    (he : (m.save d clock (messageName time unique) data).1 = .ok e) :
    m.contains e.path = true := by
  have hown : Saving.Own m { name := messageName time unique, data } :=
    ⟨⟨time, unique, rfl⟩, nofun⟩
  have hend := hown.steps d (List.replicate 6 { clock, portion := data.length })
  dsimp only [save] at he
  generalize Saving.steps m d _ (List.replicate 6 _) = last at he hend
  split at he
  · rename_i answer hdone
    exact hend.told e (hdone.trans (congrArg SaveStage.done he))
  · cases he

/-! ## What is reached -/

/-- The path leads to a file that lies directly in the directory of the mailbox. -/
structure Child (m : Mailbox) (d : Disk) (path n : String) (data : Bytes) : Prop where
  base : d.Reaches m.base
  found : d.resolve path = .ok (m.home d ++ [n])
  file : d.data? (m.home d ++ [n]) = some data

/-- The directory is reached by its own path if a file in it is. -/
theorem reaches_of_contains (h : d.Tidy) (hc : m.contains path = true) {p : Place}
    (hr : d.resolve path = .ok p) (hdata : d.data? p = some data) : d.Reaches m.base := by
  obtain ⟨l, n, hl, hhere, hup⟩ := h.segments_of_file hr hdata
  obtain ⟨hrooted, hparts⟩ := parts_of_contains hc hl hhere hup
  have horigin : d.origin path = d.origin m.base := by rw [Disk.origin, hrooted, ← Disk.origin]
  have hsame : l.filter (· ≠ ".") = (Path.segments m.base).filter (· ≠ ".") := by
    have hfilter := congrArg (List.filter (· ≠ .here)) hparts
    rw [List.filter_append, Path.filter_parts, Path.filter_parts, hl, List.filter_append,
      List.filter_cons_of_pos (by simpa using hhere), List.filter_nil, List.map_append,
      List.map_singleton, Path.componentOf, if_neg hup] at hfilter
    exact Path.componentOf_injective.list_map (List.append_inj_left' hfilter rfl)
  have hwalk := Disk.walk_segments hr
  rw [hl, Disk.walk_concat_eq_ok, horigin] at hwalk
  obtain ⟨hway, hdir, -⟩ := hwalk
  have hbase := (Disk.walk_filter hdir).mpr hway
  rw [hsame, Disk.walk_filter hdir] at hbase
  have hplace : l.foldl Disk.follow (d.origin m.base) = d.place m.base :=
    Disk.eq_foldl_of_walk hbase
  rw [hplace] at hbase hdir
  exact ⟨hbase, hdir⟩

theorem child_of_load (h : d.Tidy) (hload : m.load d path turn = .ok data) :
    ∃ n, m.Child d path n data := by
  obtain ⟨hc, -, hread⟩ := load_eq_ok.mp hload
  obtain ⟨n, -, hplace, hdata⟩ := place_of_contains h hc hread
  have hr := (Disk.read_eq_ok.mp hread).1
  rw [hplace] at hr
  exact ⟨n, reaches_of_contains h hc hr hdata, hr, hdata⟩

theorem child_of_delete (h : d.Tidy) (hdelete : m.delete d path turn = .ok d') :
    ∃ n data, m.Child d path n data ∧ d' = d.erase (m.home d ++ [n]) := by
  obtain ⟨⟨data, hload⟩, rfl⟩ := delete_eq_ok.mp hdelete
  obtain ⟨n, hchild⟩ := child_of_load h hload
  refine ⟨n, data, hchild, ?_⟩
  rw [← Disk.place_of_resolve hchild.found]

/-- The path leads to no file directly in the directory. -/
def Foreign (m : Mailbox) (d : Disk) (path : String) : Prop := ∀ n data, ¬m.Child d path n data

theorem Foreign.load (hforeign : m.Foreign d path) (h : d.Tidy) (turn : Turn) :
    ∃ f, m.load d path turn = .error f := by
  cases hload : m.load d path turn with
  | error f => exact ⟨f, rfl⟩
  | ok data =>
    obtain ⟨n, hchild⟩ := child_of_load h hload
    exact absurd hchild (hforeign n data)

theorem Foreign.delete (hforeign : m.Foreign d path) (h : d.Tidy) (turn : Turn) :
    ∃ f, m.delete d path turn = .error f := by
  cases hdelete : m.delete d path turn with
  | error f => exact ⟨f, rfl⟩
  | ok d' =>
    obtain ⟨n, data, hchild, -⟩ := child_of_delete h hdelete
    exact absurd hchild (hforeign n data)

end Mailbox

end Letterbox
