import Letterbox.Proofs.Store.Saving

/-!
# One step of an operation

Every step of every operation is one of a few things done to the mailbox as a map: a message is put
in, all of it at once, one is taken out, or the map stays as it is and at most something is read
from it.
-/

namespace Letterbox

set_option autoImplicit false

namespace Mailbox

variable {m : Mailbox} {d d' : Disk}

/-- Something is told of a message, or of a directory that is called like one, that was right when
the mailbox held what it holds now. -/
def Shows (m : Mailbox) (holds : String → Bytes → Prop) (e : StoredMessage) : Prop :=
  ∃ n i, Path.extension? n = some extension ∧ e = m.describe n i ∧
    ∀ data t, i = .file data t → holds n data

theorem Shows.imp {holds holds' : String → Bytes → Prop} {e : StoredMessage}
    (himp : ∀ n data, holds n data → holds' n data) (h : m.Shows holds e) : m.Shows holds' e := by
  obtain ⟨n, i, hext, he, hi⟩ := h
  exact ⟨n, i, hext, he, fun data t heq => himp n data (hi data t heq)⟩

/-! ## Listing -/

def ListStage.found : ListStage → List StoredMessage
  | .measuring _ found => found
  | .done (.ok l) => l
  | _ => []

/-- A list never tells of the same name twice, and it is sorted in the end. -/
def ListStage.Sound : ListStage → Prop
  | .listing | .done (.error _) => True
  | .measuring todo found =>
    (∀ n ∈ todo, ProperName n ∧ Path.extension? n = some extension) ∧
      (found.map (·.name) ++ todo).Nodup
  | .done (.ok l) => (l.map (·.name)).Nodup ∧ l.Pairwise fun e e' => comesBefore e e' = true

theorem entry_shows {n : String} {e : StoredMessage} (hn : ProperName n)
    (hext : Path.extension? n = some extension) (he : entry d (Path.join m.base n) = .ok e) :
    e.name = n ∧ m.Shows (fun x data => m.messages d x = some data) e := by
  obtain ⟨-, -, i, hi, rfl⟩ := (entry_eq_ok hn).mp he
  refine ⟨describe_name m n i, n, i, hext, rfl, fun data t heq => ?_⟩
  exact messages_eq_some.mpr ⟨hext, Disk.data?_eq_some.mpr ⟨t, heq ▸ hi⟩⟩

theorem listStep_sound (h : d.Tidy) (turn : Turn) {stage : ListStage} (hs : stage.Sound) :
    (m.listStep turn d stage).Sound ∧ ∀ e ∈ (m.listStep turn d stage).found,
      e ∈ stage.found ∨ m.Shows (fun n data => m.messages d n = some data) e := by
  cases stage with
  | listing =>
    rw [listStep]
    split
    · rename_i names hnames
      have hlist := (Disk.list_eq_ok.mp (Turn.attempt_eq_ok.mp hnames).2).2
      refine ⟨⟨fun n hn => ?_, ?_⟩, fun e he => by cases he⟩
      · obtain ⟨hn, hext⟩ := List.mem_filter.mp hn
        rw [hlist] at hn
        obtain ⟨i, hi⟩ := h.mem_namesIn.mp hn
        exact ⟨(h.parent hi).1, of_decide_eq_true hext⟩
      · rw [hlist]
        exact (h.nodup_namesIn _).filter _
    · exact ⟨⟨List.nodup_nil, .nil⟩, fun e he => by cases he⟩
    · exact ⟨trivial, fun e he => by cases he⟩
  | measuring todo found =>
    obtain ⟨hnames, honce⟩ := hs
    cases todo with
    | nil =>
      refine ⟨⟨?_, List.pairwise_mergeSort comesBefore_trans comesBefore_total found⟩,
        fun e he => .inl ((List.mergeSort_perm found comesBefore).mem_iff.mp he)⟩
      rw [List.append_nil] at honce
      exact ((List.mergeSort_perm found comesBefore).map _).nodup_iff.mpr honce
    | cons n todo =>
      obtain ⟨⟨hn, hext⟩, hnames⟩ := List.forall_mem_cons.mp hnames
      rw [listStep]
      split
      · rename_i e he
        obtain ⟨hname, hshows⟩ := entry_shows hn hext (Turn.attempt_eq_ok.mp he).2
        refine ⟨⟨hnames, ?_⟩, fun e' he' => ?_⟩
        · rw [List.map_append, List.map_singleton, hname, List.append_assoc]
          exact honce
        · rcases List.mem_append.mp he' with he' | he'
          · exact .inl he'
          · cases List.mem_singleton.mp he'
            exact .inr hshows
      · exact ⟨⟨hnames, honce.sublist ((List.sublist_cons_self n todo).append_left _)⟩,
          fun e he => .inl he⟩
  | done answer => exact ⟨hs, fun e he => .inl he⟩

/-! ## All operations -/

namespace Operation

/-- The operation as it was before its first step. -/
def begun : Operation → Operation
  | .save s => .save { s with stage := .checking }
  | .load path _ => .load path none
  | .delete path _ => .delete path none
  | .list _ => .list .listing

def name? : Operation → Option String
  | .save s => some s.name
  | _ => none

theorem name?_begun (op : Operation) : op.begun.name? = op.name? := by
  cases op <;> rfl

theorem begun_save {s s' : Saving} (h : s'.name = s.name ∧ s'.data = s.data) :
    (save s').begun = (save s).begun := by
  rw [begun, begun, h.1, h.2]

/-- What a step of an operation does to the mailbox, as a map from names to bytes. -/
inductive Acts (m : Mailbox) (now : Messages) : Operation → Operation → Messages → Prop where
  /-- A message comes to be in it, all at once, when its draft is moved. -/
  | store {s s' : Saving} (moving : s.stage = .moving) (moved : s'.stage = .measuring)
      (same : s'.name = s.name ∧ s'.data = s.data) (new : now s.name = none) :
      Acts m now (.save s) (.save s') (Function.update now s.name (some s.data))
  | save {s s' : Saving} (unmoved : s'.stage ≠ .measuring)
      (same : s'.name = s.name ∧ s'.data = s.data) : Acts m now (.save s) (.save s') now
  | load {path n : String} {data : Bytes} (name : Path.fileName? path = some n)
      (there : Path.extension? n = some extension → now n = some data) :
      Acts m now (.load path none) (.load path (some (.ok data))) now
  | refuseLoad {path : String} {f : Failure} :
      Acts m now (.load path none) (.load path (some (.error f))) now
  /-- One message is taken out. -/
  | delete {path n : String} (name : Path.fileName? path = some n)
      (there : Path.extension? n = some extension → ∃ data, now n = some data) :
      Acts m now (.delete path none) (.delete path (some (.ok ()))) (Function.update now n none)
  | refuseDelete {path : String} {f : Failure} :
      Acts m now (.delete path none) (.delete path (some (.error f))) now
  /-- What is told of a message is what is in it now. -/
  | list {stage stage' : ListStage} (told : ∀ e ∈ stage'.found,
      e ∈ stage.found ∨ m.Shows (fun n data => now n = some data) e) :
      Acts m now (.list stage) (.list stage') now
  | rest {op : Operation} : Acts m now op op now

theorem step_load (turn : Turn) (path : String) : (load path none).step m turn d =
    (d, .load path (some (m.load d path turn))) := by
  rfl

theorem step_delete (turn : Turn) (path : String) : (delete path none).step m turn d =
    match m.delete d path turn with
    | .ok d => (d, .delete path (some (.ok ())))
    | .error f => (d, .delete path (some (.error f))) := by
  rfl

/-- What holds of an operation at any time. -/
def Sound (m : Mailbox) (d : Disk) : Operation → Prop
  | .save s => s.Named ∧ s.Sound m d
  | .list stage => stage.Sound
  | _ => True

/-- What a step of an operation leaves, and what it does to the mailbox. -/
structure Leads (m : Mailbox) (d : Disk) (op : Operation) (d' : Disk) (op' : Operation) : Prop where
  tidy : d'.Tidy
  grows : Disk.Grows d d'
  sound : op'.Sound m d'
  begun : op'.begun = op.begun
  acts : op.Acts m (m.messages d) op' (m.messages d')

theorem leads_step (h : d.Tidy) {op : Operation} (hop : op.Sound m d) (turn : Turn) :
    op.Leads m d (op.step m turn d).1 (op.step m turn d).2 := by
  have hrefl := Disk.Grows.refl d
  cases op with
  | save s =>
    obtain ⟨hn, hs⟩ := hop
    have hc := Saving.change_step (m := m) (s := s) h turn
    obtain ⟨htidy, hgrows⟩ := hc.grows h hn hs
    refine ⟨htidy, hgrows, ⟨hc.named hn, hc.sound h hn hs⟩, ?_, ?_⟩
    · exact begun_save hc.name
    · rcases hc.messages h hn hs with ⟨hmoving, hmoved, hnew, hmap⟩ | ⟨hunmoved, hmap⟩
      · refine hmap ▸ .store hmoving hmoved hc.name hnew
      · refine hmap ▸ .save hunmoved hc.name
  | load path answer =>
    cases answer with
    | some answer => exact ⟨h, hrefl, trivial, rfl, .rest⟩
    | none =>
      rw [step_load]
      refine ⟨h, hrefl, trivial, rfl, ?_⟩
      cases hload : m.load d path turn with
      | error f => exact .refuseLoad
      | ok data =>
        obtain ⟨n, hname, -, -, hmessage⟩ := load_messages h hload
        exact .load hname hmessage
  | delete path answer =>
    cases answer with
    | some answer => exact ⟨h, hrefl, trivial, rfl, .rest⟩
    | none =>
      rw [step_delete]
      cases hdelete : m.delete d path turn with
      | error f => exact ⟨h, hrefl, trivial, rfl, .refuseDelete⟩
      | ok d' =>
        obtain ⟨htidy, hgrows, n, hname, hthere, hmap, -⟩ := delete_messages h hdelete
        exact ⟨htidy, hgrows, trivial, rfl, hmap ▸ .delete hname hthere⟩
  | list stage =>
    obtain ⟨hsound, htold⟩ := listStep_sound (m := m) h turn hop
    exact ⟨h, hrefl, hsound, rfl, .list htold⟩

/-- An operation does nothing to a message that another one saves. -/
theorem frame (h : d.Tidy) {op : Operation} (hop : op.Sound m d) (turn : Turn) {s : Saving}
    (hn : s.Named) (hs : s.Sound m d) (hother : op.name? ≠ some s.name) :
    s.Sound m (op.step m turn d).1 := by
  cases op with
  | save s₁ =>
    obtain ⟨hn₁, hs₁⟩ := hop
    have hname : s.name ≠ s₁.name := fun heq => hother (congrArg some heq.symm)
    have hc := Saving.change_step (m := m) (s := s₁) h turn
    refine hs.frame (hc.grows h hn₁ hs₁).2 (hc.data?_elsewhere hn₁ ?_ fun _ => ?_) fun _ =>
      hc.free hn₁ hn.ne_drafts fun _ => hname
    · rw [Saving.place_draft d hn, Saving.place_draft d hn₁]
      simpa using hname
    · rw [Saving.place_target d hn₁]
      exact (Saving.ne_place_draft d hn s₁.name).symm
  | load path answer => cases answer <;> exact hs
  | list stage => exact hs
  | delete path answer =>
    cases answer with
    | some answer => exact hs
    | none =>
      rw [step_delete]
      cases hdelete : m.delete d path turn with
      | error f => exact hs
      | ok d' =>
        obtain ⟨-, hgrows, n, -, hthere, -, hsame⟩ := delete_messages h hdelete
        refine hs.frame hgrows (Disk.data?_congr (hsame _ ?_)) fun hpending =>
          .inl (hsame _ fun heq => ?_)
        · exact (Saving.ne_place_draft d hn n).symm
        · -- a message that has not been moved is not there to be deleted
          obtain rfl : s.name = n := by simpa using heq
          obtain ⟨data, hdata⟩ := hthere hn.extension
          rw [messages, if_pos hn.extension, hs.data?_eq_none hpending] at hdata
          cases hdata

end Operation

end Mailbox

end Letterbox
