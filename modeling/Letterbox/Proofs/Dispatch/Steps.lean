import Letterbox.Dispatch.Dispatcher

/-!
# What a step of a dispatcher does

A step brings an event, lets the loop hear one, or leaves events and rules as they are. The task of
a message is made when the loop hears of the message; from then on a step leaves it alone, moves it
on or ends it.
-/

set_option autoImplicit false

namespace Letterbox

namespace Event

def message? : Event → Option ReceivedMessage
  | newMessage m => some m
  | _ => none

/-- The rules that an event puts in force: those of an update in which every rule can be carried
out. -/
def update? : Event → Option (List Rule)
  | rulesUpdated rules => match Rule.validateAll rules with
    | .ok () => some rules
    | .error _ => none
  | _ => none

end Event

namespace Dispatcher

variable (d : Dispatcher) (now id : Nat) (l : Label)

/-! ## Events and rules -/

@[simp] theorem inbox_dropSweep : (d.dropSweep id).inbox = d.inbox := by
  unfold dropSweep
  split <;> rfl

@[simp] theorem rules_dropSweep : (d.dropSweep id).rules = d.rules := by
  unfold dropSweep
  split <;> rfl

@[simp] theorem tasks_dropSweep : (d.dropSweep id).tasks = d.tasks := by
  unfold dropSweep
  split <;> rfl

@[simp] theorem nextId_dropSweep : (d.dropSweep id).nextId = d.nextId := by
  unfold dropSweep
  split <;> rfl

@[simp] theorem announced_dropSweep : (d.dropSweep id).announced = d.announced := by
  unfold dropSweep
  split <;> rfl

/-- The loop makes a task for a message, and puts rules in force. -/
theorem hear_eq (e : Event) :
    d.hear e =
      { d with
        rules := e.update?.getD d.rules
        tasks := d.tasks ++ (e.message?.map fun message => { id := d.nextId, message }).toList
        nextId := d.nextId + e.message?.toList.length } := by
  cases e with
  | newMessage m => rfl
  | rulesUpdated rules =>
    simp only [hear, Event.update?, Event.message?, Option.map_none, Option.toList_none,
      List.append_nil, List.length_nil, Nat.add_zero]
    cases Rule.validateAll rules <;> rfl
  | appPreStart | appReady | appExit | smtpServerBind | ruleDispatchFailed =>
    simp only [hear, Event.update?, Event.message?, Option.map_none, Option.toList_none,
      List.append_nil, List.length_nil, Nat.add_zero, Option.getD_none]

/-- All that a step can do to what has come in and to the rules. -/
theorem step_cases :
    (∃ e, l = .arrive e ∧ d.disconnected = false ∧
        d.step now l = { d with inbox := d.inbox ++ [e] }) ∨
      (∃ e rest, l = .receive ∧ d.loop = .serving ∧ d.inbox = e :: rest ∧
        d.step now l = { d with inbox := rest }.hear e) ∨
      ((∀ e, l = .arrive e → d.disconnected = true) ∧
        (l = .receive → d.loop = .serving → d.inbox = []) ∧
        (d.step now l).inbox = d.inbox ∧ (d.step now l).rules = d.rules) := by
  cases l with
  | arrive e =>
    cases h : d.disconnected with
    | false => exact .inl ⟨e, rfl, rfl, by simp only [step, h, Bool.false_eq_true, if_false]⟩
    | true => exact .inr (.inr ⟨fun _ _ => rfl, nofun, by simp only [step, h, if_true, and_self]⟩)
  | receive =>
    by_cases hloop : d.loop = .serving
    · cases hinbox : d.inbox with
      | cons e rest =>
        exact .inr (.inl ⟨e, rest, rfl, hloop, rfl, by simp only [step, receive, hloop, hinbox]⟩)
      | nil =>
        refine .inr (.inr ⟨nofun, fun _ _ => rfl, ?_⟩)
        simp only [step, receive, hloop, hinbox]
        split <;> simp [hinbox]
    · refine .inr (.inr ⟨nofun, fun _ h => absurd h hloop, ?_⟩)
      simp only [step, receive]
      split
      · contradiction
      · exact ⟨rfl, rfl⟩
      · exact ⟨rfl, rfl⟩
  | disconnect | shutdown | begin | load | attempt | resume | beginSweep | list | delete =>
    exact .inr (.inr ⟨nofun, nofun, rfl, rfl⟩)
  | tick =>
    refine .inr (.inr ⟨nofun, nofun, ?_⟩)
    simp only [step, tick]
    repeat' split
    all_goals exact ⟨rfl, rfl⟩
  | leave =>
    refine .inr (.inr ⟨nofun, nofun, ?_⟩)
    simp only [step, leave]
    split <;> exact ⟨rfl, rfl⟩
  | finish i =>
    refine .inr (.inr ⟨nofun, nofun, ?_⟩)
    simp only [step, finish]
    repeat' split
    all_goals exact ⟨rfl, rfl⟩
  | finishSweep i =>
    refine .inr (.inr ⟨nofun, nofun, ?_⟩)
    simp only [step, finishSweep]
    repeat' split
    all_goals simp [announce]
  | cancel i =>
    refine .inr (.inr ⟨nofun, nofun, ?_⟩)
    simp only [step, cancel]
    split <;> simp [dropTask]
  | join =>
    refine .inr (.inr ⟨nofun, nofun, ?_⟩)
    simp only [step, join]
    split <;> exact ⟨rfl, rfl⟩

theorem disconnected_dropSweep : (d.dropSweep id).disconnected = d.disconnected := by
  unfold dropSweep
  split <;> rfl

theorem disconnected_step :
    (d.step now l).disconnected = match l with
      | .disconnect => true
      | _ => d.disconnected := by
  cases l with
  | disconnect | shutdown | begin | load | attempt | resume | beginSweep | list | delete => rfl
  | arrive | tick | leave | join | finish | finishSweep | cancel =>
    simp only [step, tick, leave, join, finish, finishSweep, cancel]
    repeat' split
    all_goals simp [announce, dropTask, disconnected_dropSweep]
  | receive =>
    simp only [step, receive]
    split
    · split
      · rw [hear_eq]
      · split <;> rfl
    · rfl
    · rfl

/-! ## Tasks -/

/-- A change of one run leaves alone what it leaves alone of that run. -/
theorem map_modify_same {β : Type} {g : Run → β} {f : Run → Run} {runs : List Run} {index : Nat}
    (h : ∀ r, runs[index]? = some r → g (f r) = g r) :
    (runs.modify index f).map g = runs.map g := by
  apply List.ext_getElem?
  intro i
  simp only [List.getElem?_map, List.getElem?_modify]
  cases hget : runs[i]? with
  | none => rfl
  | some r =>
    split
    · rename_i hi
      exact congrArg some (h r (hi ▸ hget))
    · rfl

@[simp] theorem Task.id_begin (t : Task) (rules : List Rule) : (t.begin rules).id = t.id := by
  unfold Task.begin
  split <;> rfl

@[simp] theorem Task.id_loaded (t : Task) (answer : Except Failure Bytes) :
    (t.loaded answer).id = t.id := by
  unfold Task.loaded
  split <;> rfl

@[simp] theorem Task.id_onRun (t : Task) (index : Nat)
    (f : Retry.Trials Unit → Retry.Trials Unit) : (t.onRun index f).id = t.id := by
  unfold Task.onRun
  split <;> rfl

def task? : Option Task := d.tasks.find? (·.id = id)

variable {d id} in
theorem id_of_task? {t : Task} (h : d.task? id = some t) : t.id = id := by
  unfold task? at h
  simpa using List.find?_some h

theorem task?_onTask (i : Nat) {f : Task → Task} (hf : ∀ t, (f t).id = t.id) :
    (d.onTask i f).task? id = (d.task? id).map fun t => if i = t.id then f t else t := by
  have hid : ∀ t : Task, (if t.id = i then f t else t).id = t.id := by
    intro t
    split
    · exact hf t
    · rfl
  simp only [task?, onTask, List.find?_map, Function.comp_def, hid, eq_comm (a := i)]

theorem task?_dropTask (i : Nat) :
    (d.dropTask i).task? id = if i = id then none else d.task? id := by
  split
  · refine List.find?_eq_none.mpr fun t ht hid => ?_
    simp only [dropTask, List.mem_filter, bne_iff_ne, ne_eq] at ht
    exact ht.2 ((of_decide_eq_true hid).trans (Eq.symm ‹i = id›))
  · rename_i h
    simp only [task?, dropTask, List.find?_filter]
    congr 1
    funext t
    by_cases hid : t.id = id
    · simp [hid, Ne.symm h]
    · simp [hid]

/-- What a step makes of a task that it does not end. -/
def Task.step (rules : List Rule) (now : Nat) (t : Task) : Label → Task
  | .begin i => if i = t.id then t.begin rules else t
  | .load i answer => if i = t.id then t.loaded answer else t
  | .attempt i index answer => if i = t.id then t.onRun index (·.answered now answer) else t
  | .resume i index => if i = t.id then t.onRun index (·.resumed) else t
  | _ => t

inductive Task.EndsBy (d : Dispatcher) (t : Task) : Label → Prop where
  | finished (outcomes : List Outcome) : t.outcomes? = some outcomes → EndsBy d t (.finish t.id)
  | cancelled : d.stopping = true → EndsBy d t (.cancel t.id)

/-- The loop takes a message from the front of what has come in. -/
def Hears (d : Dispatcher) (m : ReceivedMessage) (l : Label) : Prop :=
  l = .receive ∧ d.loop = .serving ∧ ∃ rest, d.inbox = .newMessage m :: rest

theorem task?_hear (e : Event) :
    (d.hear e).task? id = d.task? id ∨
      ∃ m, e = .newMessage m ∧ d.task? id = none ∧ id = d.nextId ∧
        (d.hear e).task? id = some { id, message := m } := by
  rw [hear_eq]
  simp only [task?, List.find?_append]
  cases hfound : d.tasks.find? (·.id = id) with
  | some t => exact .inl rfl
  | none =>
    cases e with
    | newMessage m =>
      by_cases hid : id = d.nextId
      · subst hid
        exact .inr ⟨m, rfl, rfl, rfl, by simp [Event.message?]⟩
      · exact .inl (by simp [Event.message?, Ne.symm hid])
    | _ => exact .inl rfl

/-- All that a step can do to the task with a number: it moves it on or leaves it alone, ends it, or
makes it. -/
theorem task?_step :
    (d.step now l).task? id = (d.task? id).map (·.step d.rules now l) ∨
      (∃ t, d.task? id = some t ∧ t.EndsBy d l ∧ (d.step now l).task? id = none) ∨
      ∃ m, d.Hears m l ∧ d.task? id = none ∧ id = d.nextId ∧
        (d.step now l).task? id = some { id, message := m } := by
  have hsame {d' : Dispatcher} (hstep : ∀ t : Task, t.step d.rules now l = t)
      (h : d'.task? id = d.task? id) : d'.task? id = (d.task? id).map (·.step d.rules now l) := by
    simp only [h, hstep, Option.map_id']
  have hdropped {d' : Dispatcher} (i : Nat) (hstep : ∀ t : Task, t.step d.rules now l = t)
      (h : d'.task? id = (d.dropTask i).task? id) (hends : ∀ t, d.task? i = some t → t.EndsBy d l) :
      d'.task? id = (d.task? id).map (·.step d.rules now l) ∨
        ∃ t, d.task? id = some t ∧ t.EndsBy d l ∧ d'.task? id = none := by
    rw [task?_dropTask] at h
    split at h
    · subst i
      cases ht : d.task? id with
      | none => exact .inl h
      | some t => exact .inr ⟨t, rfl, hends t ht, h⟩
    · exact .inl (hsame hstep h)
  cases l with
  | begin i => exact .inl (d.task?_onTask id i fun t => t.id_begin d.rules)
  | load i answer => exact .inl (d.task?_onTask id i fun t => t.id_loaded answer)
  | attempt i index answer => exact .inl (d.task?_onTask id i fun t => t.id_onRun index _)
  | resume i index => exact .inl (d.task?_onTask id i fun t => t.id_onRun index _)
  | receive =>
    simp only [step, receive]
    split
    · rename_i hloop
      split
      · rename_i e rest hinbox
        rcases ({ d with inbox := rest } : Dispatcher).task?_hear id e with
          h | ⟨m, rfl, hnone, hid, h⟩
        · exact .inl (hsame (fun _ => rfl) h)
        · exact .inr (.inr ⟨m, ⟨rfl, hloop, rest, hinbox⟩, hnone, hid, h⟩)
      · refine .inl (hsame (fun _ => rfl) ?_)
        split <;> rfl
    · exact .inl (hsame (fun _ => rfl) rfl)
    · exact .inl (hsame (fun _ => rfl) rfl)
  | arrive | tick | leave | join | finishSweep =>
    refine .inl (hsame (fun _ => rfl) ?_)
    simp only [step, tick, leave, join, finishSweep]
    repeat' split
    all_goals simp [task?, announce]
  | disconnect | shutdown | beginSweep | list | delete => exact .inl (hsame (fun _ => rfl) rfl)
  | finish i =>
    simp only [step, finish]
    split
    · exact .inl (hsame (fun _ => rfl) rfl)
    · rename_i t ht
      split
      · exact .inl (hsame (fun _ => rfl) rfl)
      · rename_i outcomes houtcomes
        refine (hdropped i (fun _ => rfl) rfl fun u hu => ?_).imp_right .inl
        cases ht.symm.trans hu
        cases id_of_task? hu
        exact .finished outcomes houtcomes
  | cancel i =>
    simp only [step, cancel]
    split
    · rename_i hstopping
      have hsweep : ((d.dropTask i).dropSweep i).task? id = (d.dropTask i).task? id := by
        simp only [task?, tasks_dropSweep]
      refine (hdropped i (fun _ => rfl) hsweep fun u hu => ?_).imp_right .inl
      cases id_of_task? hu
      exact .cancelled hstopping
    · exact .inl (hsame (fun _ => rfl) rfl)

/-! ## Numbers -/

theorem nextId_le_step : d.nextId ≤ (d.step now l).nextId := by
  cases l with
  | arrive | tick | leave | join | finish | finishSweep | cancel =>
    simp only [step, tick, leave, join, finish, finishSweep, cancel]
    repeat' split
    all_goals simp [announce, dropTask]
  | receive =>
    simp only [step, receive]
    split
    · split
      · rw [hear_eq]
        exact Nat.le_add_right _ _
      · split <;> exact Nat.le_refl _
    · exact Nat.le_refl _
    · exact Nat.le_refl _
  | disconnect | shutdown | begin | load | attempt | resume | beginSweep | list | delete =>
    exact Nat.le_refl _

def Numbered : Prop := ∀ id, d.nextId ≤ id → d.task? id = none

variable {d}

theorem Numbered.step (h : d.Numbered) : (d.step now l).Numbered := by
  intro id hid
  have hnone := h id (Nat.le_trans (d.nextId_le_step now l) hid)
  rcases d.task?_step now id l with hsame | ⟨-, -, -, hgone⟩ |
    ⟨m, ⟨rfl, hloop, rest, hinbox⟩, -, rfl, -⟩
  · rw [hsame, hnone]
    rfl
  · exact hgone
  · have hnext : (d.step now .receive).nextId = d.nextId + 1 := by
      simp only [Dispatcher.step, receive, hloop, hinbox, hear_eq]
      rfl
    omega

/-! ## Messages and announcements -/

/-- The messages of tasks that were made since. -/
def spawned (d d' : Dispatcher) : List ReceivedMessage :=
  (d'.tasks.filter fun t => d.nextId ≤ t.id).map (·.message)

/-- The events that a step brings. -/
def brought (d : Dispatcher) : Label → List Event
  | .arrive e => if d.disconnected then [] else [e]
  | _ => []

theorem spawned_eq_nil {d' : Dispatcher} (h : ∀ id, d.nextId ≤ id → d'.task? id = none) :
    d.spawned d' = [] := by
  rw [spawned, List.map_eq_nil_iff, List.filter_eq_nil_iff]
  intro t ht hid
  have hnone := List.find?_eq_none.mp (h t.id (of_decide_eq_true hid)) t ht
  simp at hnone

/-- Every message that comes in gets one task, or waits in the inbox. -/
theorem spawned_step (h : d.Numbered) :
    d.spawned (d.step now l) ++ (d.step now l).inbox.filterMap Event.message? =
      (d.inbox ++ d.brought l).filterMap Event.message? := by
  have hnone : d.spawned d = [] := spawned_eq_nil h
  rcases d.step_cases now l with ⟨e, rfl, hopen, hstep⟩ | ⟨e, rest, rfl, hloop, hinbox, hstep⟩ |
    ⟨harrive, hreceive, hinbox, -⟩
  · have hsame : d.spawned { d with inbox := d.inbox ++ [e] } = [] := hnone
    rw [hstep, hsame, brought, hopen]
    rfl
  · have hspawned : d.spawned ({ d with inbox := rest }.hear e) = e.message?.toList := by
      rw [hear_eq, spawned, List.filter_append, List.map_append]
      have hold : (d.tasks.filter fun t => d.nextId ≤ t.id).map (·.message) = [] := hnone
      rw [hold, List.nil_append]
      cases e.message? with
      | none => rfl
      | some m => simp
    have hbrought : d.brought .receive = [] := rfl
    rw [hstep, hspawned, hear_eq, hbrought, List.append_nil, hinbox, List.filterMap_cons]
    cases e.message? with
    | none => rfl
    | some m => rfl
  · have hbrought : d.brought l = [] := by
      cases l with
      | arrive e => simp only [brought, harrive e rfl, if_true]
      | _ => rfl
    have hspawned : d.spawned (d.step now l) = [] := by
      refine spawned_eq_nil fun id hid => ?_
      have hnow := h id hid
      rcases d.task?_step now id l with hsame | ⟨-, -, -, hgone⟩ |
        ⟨m, ⟨hl, hloop, rest, hmessage⟩, -⟩
      · rw [hsame, hnow]
        rfl
      · exact hgone
      · rw [hreceive hl hloop] at hmessage
        cases hmessage
    rw [hspawned, hbrought, hinbox, List.nil_append, List.append_nil]

theorem message?_failureEvents (path : Option String) (outcomes : List Outcome) :
    (Outcome.failureEvents path outcomes).filterMap Event.message? = [] := by
  rw [List.filterMap_eq_nil_iff]
  intro e he
  obtain ⟨o, -, ho⟩ := List.mem_filterMap.mp he
  obtain ⟨text, -, rfl⟩ := Option.map_eq_some_iff.mp ho
  rfl

/-- A step announces failures and nothing else. -/
theorem announced_step :
    ∃ events, (d.step now l).announced = d.announced ++ events ∧
      events.filterMap Event.message? = [] := by
  have hnothing {d' : Dispatcher} (h : d'.announced = d.announced) :
      ∃ events, d'.announced = d.announced ++ events ∧ events.filterMap Event.message? = [] :=
    ⟨[], by rw [h, List.append_nil], rfl⟩
  cases l with
  | disconnect | shutdown | begin | load | attempt | resume | beginSweep | list | delete =>
    exact hnothing rfl
  | arrive | tick | leave | cancel | join =>
    apply hnothing
    simp only [step, tick, leave, cancel, join]
    repeat' split
    all_goals simp [dropTask, announced_dropSweep]
  | receive =>
    apply hnothing
    simp only [step, receive]
    repeat' split
    all_goals simp [hear_eq]
  | finish i =>
    simp only [step, finish]
    repeat' split
    · exact hnothing rfl
    · exact hnothing rfl
    · exact ⟨_, rfl, message?_failureEvents _ _⟩
  | finishSweep i =>
    simp only [step, finishSweep]
    repeat' split
    · exact hnothing rfl
    · exact ⟨_, by rw [announce, announced_dropSweep], message?_failureEvents _ _⟩
    · exact hnothing rfl

end Dispatcher

end Letterbox
