import Letterbox.Dispatch.Clockwork
import Letterbox.Proofs.Dispatch.Steps
import Letterbox.Proofs.Store.Containment

/-!
# Messages that are not in the mailbox

Whoever tells of a message, nothing is done with it unless it is loaded, and only files in the
directory of the mailbox are.
-/

set_option autoImplicit false

namespace Letterbox

namespace Dispatcher

variable {d : Dispatcher} {now id : Nat} {l : Label} {t t' : Task}

namespace Task

/-- Nothing is done with the message. -/
def Idle (t : Task) : Prop := ∀ rules raw runs, t.stage = .running rules raw runs → runs = []

theorem idle_waiting (id : Nat) (message : ReceivedMessage) : Idle { id, message } := nofun

theorem Idle.begin (h : t.Idle) (rules : List Rule) : (t.begin rules).Idle := by
  intro rules' raw runs hstage
  unfold Task.begin at hstage
  split at hstage
  · split at hstage <;> cases hstage
    rfl
  · exact h rules' raw runs hstage
  · exact h rules' raw runs hstage

theorem Idle.loaded (h : t.Idle) (f : Failure) : (t.loaded (.error f)).Idle := by
  intro rules raw runs hstage
  unfold Task.loaded at hstage
  split at hstage
  · cases hstage
    rfl
  · exact h rules raw runs hstage
  · exact h rules raw runs hstage

theorem Idle.onRun (h : t.Idle) (index : Nat) (f : Retry.Trials Unit → Retry.Trials Unit) :
    (t.onRun index f).Idle := by
  intro rules raw runs hstage
  unfold Task.onRun at hstage
  split at hstage
  · rename_i hrunning
    cases hstage
    rw [h _ _ _ hrunning, List.modify_nil]
  · exact h rules raw runs hstage
  · exact h rules raw runs hstage

end Task

theorem mem_onTask {i : Nat} {f : Task → Task} (h : t' ∈ (d.onTask i f).tasks) :
    t' ∈ d.tasks ∨ ∃ t ∈ d.tasks, t.id = i ∧ t' = f t := by
  obtain ⟨t, ht, rfl⟩ := List.mem_map.mp h
  split
  · rename_i hid
    exact .inr ⟨t, ht, hid, rfl⟩
  · exact .inl ht

/-- Where the tasks after a step come from. -/
theorem mem_tasks_step (h : t' ∈ (d.step now l).tasks) :
    t' ∈ d.tasks ∨ (∃ m, t' = { id := d.nextId, message := m }) ∨
      ∃ t ∈ d.tasks, t' = t.begin d.rules ∨
        (∃ answer, l = .load t.id answer ∧ t' = t.loaded answer) ∨
        ∃ index f, t' = t.onRun index f := by
  cases l with
  | disconnect | shutdown | beginSweep | list | delete => exact .inl h
  | arrive | tick | leave | join =>
    refine .inl ?_
    simp only [step, tick, leave, join] at h
    repeat' split at h
    all_goals exact h
  | receive =>
    simp only [step, receive] at h
    repeat' split at h
    · rename_i e inbox hinbox
      rw [hear_eq] at h
      rcases List.mem_append.mp h with h | h
      · exact .inl h
      · obtain ⟨m, -, rfl⟩ := Option.map_eq_some_iff.mp (Option.mem_toList.mp h)
        exact .inr (.inl ⟨m, rfl⟩)
    all_goals exact .inl h
  | begin i =>
    rcases mem_onTask h with h | ⟨t, ht, -, rfl⟩
    · exact .inl h
    · exact .inr (.inr ⟨t, ht, .inl rfl⟩)
  | load i answer =>
    rcases mem_onTask h with h | ⟨t, ht, rfl, rfl⟩
    · exact .inl h
    · exact .inr (.inr ⟨t, ht, .inr (.inl ⟨answer, rfl, rfl⟩)⟩)
  | attempt i index answer =>
    rcases mem_onTask h with h | ⟨t, ht, -, rfl⟩
    · exact .inl h
    · exact .inr (.inr ⟨t, ht, .inr (.inr ⟨_, _, rfl⟩)⟩)
  | resume i index =>
    rcases mem_onTask h with h | ⟨t, ht, -, rfl⟩
    · exact .inl h
    · exact .inr (.inr ⟨t, ht, .inr (.inr ⟨_, _, rfl⟩)⟩)
  | finish i =>
    refine .inl ?_
    simp only [step, finish] at h
    repeat' split at h
    · exact h
    · exact h
    · exact (List.mem_filter.mp h).1
  | finishSweep i =>
    refine .inl ?_
    simp only [step, finishSweep] at h
    repeat' split at h
    all_goals simpa [announce] using h
  | cancel i =>
    refine .inl ?_
    simp only [step, cancel] at h
    split at h
    · rw [tasks_dropSweep] at h
      exact (List.mem_filter.mp h).1
    · exact h

/-- A step that does not load a message does nothing with it. -/
theorem idle_step (hidle : ∀ t ∈ d.tasks, t.id = id → t.Idle)
    (hl : ∀ answer, l = .load id answer → ∃ f, answer = .error f) :
    ∀ t ∈ (d.step now l).tasks, t.id = id → t.Idle := by
  intro t' ht' hid
  rcases mem_tasks_step ht' with h | ⟨m, rfl⟩ | ⟨t, ht, rfl | ⟨answer, rfl, rfl⟩ | ⟨index, f, rfl⟩⟩
  · exact hidle t' h hid
  · exact Task.idle_waiting _ m
  · rw [Task.id_begin] at hid
    exact (hidle t ht hid).begin d.rules
  · rw [Task.id_loaded] at hid
    obtain ⟨f, rfl⟩ := hl answer (by rw [hid])
    exact (hidle t ht hid).loaded f
  · rw [Task.id_onRun] at hid
    exact (hidle t ht hid).onRun index f

/-- As long as every load of a message fails, nothing is done with it. -/
theorem idle_steps (hidle : ∀ t ∈ d.tasks, t.id = id → t.Idle) {ls : List (Nat × Label)}
    (hls : ∀ now answer, (now, .load id answer) ∈ ls → ∃ f, answer = .error f) :
    ∀ t ∈ (d.steps ls).tasks, t.id = id → t.Idle := by
  induction ls generalizing d with
  | nil => exact hidle
  | cons x ls ih =>
    refine ih (idle_step hidle fun answer hl => ?_) fun now answer h =>
      hls now answer (List.mem_cons_of_mem x h)
    exact hls x.1 answer (hl ▸ List.mem_cons_self)

end Dispatcher

namespace Clockwork

variable {ω : Type}

/-- The work on a message that is not loaded leaves the world and the time alone. -/
theorem workOff_of_error {w : World ω} {world : ω} {f : Failure} {m : ReceivedMessage}
    (hload : w.load world m.path = .error f) (rules : List Rule) (id fuel now : Nat) :
    workOff w fuel now world (Dispatcher.Task.begin { id, message := m } rules) =
      (now, world, []) := by
  have hidle : ∀ fuel rules raw, workOff w fuel now world
      { id, message := m, stage := .running rules raw [] } = (now, world, []) := by
    intro fuel rules raw
    cases fuel <;> rfl
  rw [Dispatcher.Task.begin]
  dsimp only
  split
  · cases fuel with
    | zero => rfl
    | succ fuel =>
      rw [workOff, taskMove?]
      dsimp only
      rw [hload]
      exact hidle fuel rules []
  · exact hidle fuel rules []

end Clockwork

namespace Mailbox

/-- A mailbox keeps to its directory, whatever the path of that and however other paths are written.
Paths that it has told of itself are accepted, whatever else is going on on the disk. A path under
which a file is loaded or deleted leads to a file directly in the directory, and that one alone is
removed; any other path is an error, and the disk stays as it is. So no rule does anything with a
message of which no such path was told, whoever told of it. -/
theorem keeps_to_directory (m : Mailbox) :
    (∀ (op : Operation) (sights : List (Turn × Disk)), op.begun = op →
      (∀ s, op = .save s → s.Named) → (∀ x ∈ sights, x.2.Tidy) →
        ∀ e ∈ (op.run m sights).told, m.checkContained e.path = .ok ()) ∧
    (∀ (d : Disk) (l : List StoredMessage), d.Tidy → m.enumerate d = .ok l →
      ∀ e ∈ l, m.checkContained e.path = .ok ()) ∧
    (∀ (d : Disk) clock time unique data e,
      (m.save d clock (messageName time unique) data).1 = .ok e →
        m.checkContained e.path = .ok ()) ∧
    (∀ (d : Disk) path turn, d.Tidy →
      (∀ data, m.load d path turn = .ok data → ∃ n, m.Child d path n data) ∧
      (∀ d', m.delete d path turn = .ok d' →
        ∃ n data, m.Child d path n data ∧ d' = d.erase (m.home d ++ [n])) ∧
      (m.Foreign d path →
        (∃ f, (Operation.load path none).step m turn d = (d, .load path (some (.error f)))) ∧
        ∃ f, (Operation.delete path none).step m turn d = (d, .delete path (some (.error f))))) ∧
    (∀ (dispatcher : Dispatcher) (ls : List (Nat × Dispatcher.Label)),
      ∀ t ∈ (dispatcher.steps ls).tasks, (∀ t' ∈ dispatcher.tasks, t'.id ≠ t.id) →
        (∀ now answer, (now, .load t.id answer) ∈ ls → ∃ (d : Disk) (turn : Turn),
          d.Tidy ∧ m.Foreign d t.message.path ∧ answer = m.load d t.message.path turn) →
            t.Idle) ∧
    ∀ (ω : Type) (w : World ω) (world : ω) (message : ReceivedMessage) (d : Disk) (turn : Turn),
      d.Tidy → m.Foreign d message.path →
        w.load world message.path = m.load d message.path turn → ∀ rules id fuel now,
          Clockwork.workOff w fuel now world (Dispatcher.Task.begin { id, message } rules) =
            (now, world, []) := by
  refine ⟨fun op sights hbegun hnamed hsights e he => ?_, fun d l hd hl e he => ?_,
    fun d clock time unique data e he => ?_, fun d path turn hd => ⟨?_, ?_, fun hforeign => ?_⟩,
    fun dispatcher ls t ht hnew hls => ?_,
    fun ω w world message d turn hd hforeign hworld rules id fuel now => ?_⟩
  · exact checkContained_eq_ok.mpr
      (((Operation.own_of_begun hbegun hnamed).run hsights).contains e he)
  · exact checkContained_eq_ok.mpr (contains_of_enumerate hd hl e he)
  · exact checkContained_eq_ok.mpr (contains_of_save he)
  · exact fun data hload => child_of_load hd hload
  · exact fun d' hdelete => child_of_delete hd hdelete
  · obtain ⟨f, hload⟩ := hforeign.load hd turn
    obtain ⟨f', hdelete⟩ := hforeign.delete hd turn
    refine ⟨⟨f, ?_⟩, f', ?_⟩
    · rw [Operation.step_load, hload]
    · rw [Operation.step_delete, hdelete]
  · refine Dispatcher.idle_steps (fun t' ht' hid => absurd hid (hnew t' ht')) ?_ t ht rfl
    intro now answer hmem
    obtain ⟨d, turn, hd, hforeign, rfl⟩ := hls now answer hmem
    exact hforeign.load hd turn
  · obtain ⟨f, hload⟩ := hforeign.load hd turn
    exact Clockwork.workOff_of_error (hworld.trans hload) rules id fuel now

/-- A path that leads out of the directory, to a file that is there. -/
theorem keeps_to_directory_secret :
    let m : Mailbox := ⟨"in//box/."⟩
    let secret : Place × Item := (["secret"], .file [104, 105] 0)
    let d : Disk :=
      { items := [(["in"], .directory 4096 0), (["in", "box"], .directory 4096 0), secret] }
    let path := "in/box/../../secret"
    d.Tidy ∧ (d.read path).toOption = some [104, 105] ∧ m.Foreign d path ∧
      (∃ f, (Operation.load path none).step m {} d = (d, .load path (some (.error f)))) ∧
      ∃ f, (Operation.delete path none).step m {} d = (d, .delete path (some (.error f))) := by
  intro m secret d path
  have hd : d.Tidy := by decide +kernel
  have hforeign : m.Foreign d path := by
    intro n data hchild
    have hplace : d.resolve path = .ok ["secret"] := toOption_eq_some.mp (by decide +kernel)
    have hhome : m.home d = ["in", "box"] := by decide +kernel
    have hfound := hchild.found
    rw [hplace, hhome] at hfound
    exact absurd (Except.ok.inj hfound) (by simp)
  obtain ⟨-, -, -, hpaths, -⟩ := keeps_to_directory m
  exact ⟨hd, by decide +kernel, hforeign, (hpaths d path {} hd).2.2 hforeign⟩

/-- Slashes and dots in between are no part of a path, two dots are. -/
example :
    let note : Place × Item := (["in", "box", "note"], .file [104, 105] 0)
    let d : Disk :=
      { items := [(["in"], .directory 4096 0), (["in", "box"], .directory 4096 0), note] }
    let m : Mailbox := ⟨"in//box/."⟩
    (m.load d "in/./box//note").toOption = some [104, 105] ∧
      (m.load d "in/box/../box/note").toOption = none := by
  decide +kernel

end Mailbox

end Letterbox
