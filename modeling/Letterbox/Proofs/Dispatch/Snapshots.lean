import Mathlib.Data.List.Forall2
import Mathlib.Data.List.Induction
import Letterbox.Proofs.Dispatch.Independence

/-!
# The rules that a message is worked on with

The events of the bus come in one order, and the loop hears them in that order. The task of a
message looks at the rules once, when it first runs, and keeps to what it saw: from then on it makes
no difference what the loop hears.
-/

set_option autoImplicit false

namespace Letterbox

namespace Dispatcher

/-! ## Rules in force -/

/-- The rules that a dispatcher began with, or those of the last good update that it has heard. -/
def inForce (initial : List Rule) (heard : List Event) : List Rule :=
  (heard.filterMap Event.update?).getLast?.getD initial

theorem inForce_concat (initial : List Rule) (heard : List Event) (e : Event) :
    inForce initial (heard ++ [e]) = e.update?.getD (inForce initial heard) := by
  simp only [inForce, List.filterMap_append]
  cases h : e.update? with
  | none => simp [h]
  | some rules => simp [h]

theorem rules_of_update {e : Event} {rules : List Rule} (h : e.update? = some rules) :
    e = .rulesUpdated rules ∧ Rule.validateAll rules = .ok () := by
  unfold Event.update? at h
  split at h
  · split at h
    · rename_i hvalid
      cases h
      exact ⟨rfl, hvalid⟩
    · cases h
  · cases h

theorem inForce_cases (initial : List Rule) (heard : List Event) :
    inForce initial heard = initial ∨
      .rulesUpdated (inForce initial heard) ∈ heard ∧
        Rule.validateAll (inForce initial heard) = .ok () := by
  unfold inForce
  cases h : (heard.filterMap Event.update?).getLast? with
  | none => exact .inl rfl
  | some rules =>
    obtain ⟨e, he, hupdate⟩ := List.mem_filterMap.mp (List.mem_of_getLast? h)
    obtain ⟨rfl, hvalid⟩ := rules_of_update hupdate
    exact .inr ⟨he, hvalid⟩

def arrivals : List (Nat × Label) → List Event
  | [] => []
  | (_, .arrive e) :: rest => e :: arrivals rest
  | (_, .disconnect) :: _ => []
  | _ :: rest => arrivals rest

/-- What has come in and was not heard yet, and what is still to come. -/
def ahead (d : Dispatcher) (ls : List (Nat × Label)) : List Event :=
  d.inbox ++ if d.disconnected then [] else arrivals ls

variable {initial : List Rule}

/-- A step takes what it hears from the front of what is ahead. -/
theorem ahead_cons (d : Dispatcher) (now : Nat) (l : Label) {heard : List Event}
    (hrules : d.rules = inForce initial heard) :
    ∃ taken, (d.step now l).rules = inForce initial (heard ++ taken) ∧
      ∀ ls, d.ahead ((now, l) :: ls) = taken ++ (d.step now l).ahead ls := by
  rcases d.step_cases now l with ⟨e, rfl, hopen, hstep⟩ | ⟨e, rest, rfl, -, hinbox, hstep⟩ |
    ⟨harrive, -, hinbox, hsame⟩
  · refine ⟨[], ?_, fun ls => ?_⟩
    · rw [hstep, List.append_nil]
      exact hrules
    · simp [ahead, arrivals, hopen, hstep]
  · refine ⟨[e], ?_, fun ls => ?_⟩
    · rw [hstep, hear_eq, inForce_concat, ← hrules]
    · simp [ahead, arrivals, hinbox, hstep, hear_eq]
  · refine ⟨[], ?_, fun ls => ?_⟩
    · rw [hsame, List.append_nil]
      exact hrules
    · rw [List.nil_append, ahead, ahead, hinbox, disconnected_step]
      cases l with
      | arrive e => simp [harrive e rfl]
      | disconnect => simp [arrivals]
      | _ => rfl

theorem ahead_append (d : Dispatcher) (ls : List (Nat × Label)) {heard : List Event}
    (hrules : d.rules = inForce initial heard) :
    ∃ taken, (d.steps ls).rules = inForce initial (heard ++ taken) ∧
      ∀ more, d.ahead (ls ++ more) = taken ++ (d.steps ls).ahead more := by
  induction ls generalizing d heard with
  | nil => exact ⟨[], by rwa [List.append_nil], fun _ => rfl⟩
  | cons x ls ih =>
    obtain ⟨first, hfirst, hahead⟩ := d.ahead_cons x.1 x.2 hrules
    obtain ⟨taken, htaken, hmore⟩ := ih (d.step x.1 x.2) hfirst
    refine ⟨first ++ taken, ?_, fun more => ?_⟩
    · rw [← List.append_assoc]
      exact htaken
    · rw [List.cons_append, hahead, hmore, List.append_assoc]
      rfl

end Dispatcher

/-! ## Runs -/

open Dispatcher

namespace Run

/-- What is settled of a run from its beginning: the rule, its errand, and how it is tried. -/
def plan (r : Run) : Rule × Errand × String × Nat × Nat :=
  (r.rule, r.errand, r.trials.action, r.trials.limit, r.trials.pause)

def Starts (m : ReceivedMessage) (r : Rule) (run : Run) : Prop :=
  ∃ e, r.errand? m = some e ∧ run = { rule := r, errand := e, trials :=
    { action := e.name, limit := max 1 e.policy.maxAttempts, pause := e.policy.pauseMillis } }

theorem starts_ofRules (rules : List Rule) (m : ReceivedMessage) (raw : Bytes) :
    List.Forall₂ (Starts m) (rules.filter fun r => decide (r.Acts (Message.ofBytes raw)))
      (ofRules rules m raw) := by
  rw [ofRules, Rule.applicable_eq]
  induction rules with
  | nil => exact .nil
  | cons r rules ih =>
    by_cases hacts : r.Acts (Message.ofBytes raw)
    · obtain ⟨e, he⟩ := hacts.errand m
      rw [List.filter_cons_of_pos (by simpa using hacts), List.filterMap_cons, he, Option.map_some]
      exact .cons ⟨e, he, rfl⟩ ih
    · rwa [List.filter_cons_of_neg (by simpa using hacts)]

def tried (id index : Nat) (t : Retry.Trials Unit) : Nat × Label → Retry.Trials Unit
  | (now, .attempt i k answer) => if i = id ∧ k = index then t.answered now answer else t
  | (_, .resume i k) => if i = id ∧ k = index then t.resumed else t
  | _ => t

/-- The run with an index after these steps: they change its trials and nothing else. -/
def after (id : Nat) (ls : List (Nat × Label)) (index : Nat) (r : Run) : Run :=
  { r with trials := ls.foldl (tried id index) r.trials }

@[simp] theorem mapIdx_after_nil (id : Nat) (runs : List Run) :
    runs.mapIdx (after id []) = runs := by
  apply List.ext_getElem?
  intro k
  rw [List.getElem?_mapIdx]
  exact Option.map_id_apply

theorem after_concat (id index : Nat) (ls : List (Nat × Label)) (x : Nat × Label) (r : Run) :
    r.after id (ls ++ [x]) index = (r.after id ls index).after id [x] index := by
  simp only [after, List.foldl_append]

theorem map_plan_after (id : Nat) (x : Nat × Label) (runs : List Run) :
    (runs.mapIdx (after id [x])).map plan = runs.map plan := by
  have hsame : ∀ index r, (after id [x] index r).plan = r.plan := by
    intro index r
    simp only [plan, after, List.foldl_cons, List.foldl_nil, tried, Retry.Trials.answered,
      Retry.Trials.resumed]
    repeat' split
    all_goals rfl
  apply List.ext_getElem?
  intro k
  rw [List.getElem?_map, List.getElem?_map, List.getElem?_mapIdx, Option.map_map]
  exact congrFun (congrArg Option.map (funext (hsame k))) _

end Run

namespace Dispatcher

namespace Task

variable {m : ReceivedMessage} {id : Nat} {rules seen : List Rule} {raw : Bytes} {runs : List Run}

/-- Work that is going on goes on with the same runs, each by itself. -/
theorem step_running (others : List Rule) (now : Nat) (l : Label) :
    step others now ⟨id, m, .running seen raw runs⟩ l =
      ⟨id, m, .running seen raw (runs.mapIdx (Run.after id [(now, l)] · ·))⟩ := by
  have hmodify (index : Nat) (f : Retry.Trials Unit → Retry.Trials Unit) :
      (runs.modify index fun r => { r with trials := f r.trials }) =
        runs.mapIdx fun k r => { r with trials := if index = k then f r.trials else r.trials } := by
    apply List.ext_getElem?
    intro k
    rw [List.getElem?_modify, List.getElem?_mapIdx]
    cases runs[k]? with
    | none => rfl
    | some r =>
      by_cases hk : index = k
      · simp [hk]
      · simp [hk]
  have hnothing : runs.mapIdx (fun _ r => r) = runs := Run.mapIdx_after_nil id runs
  cases l with
  | attempt i index answer =>
    by_cases hi : i = id
    · simp only [step, onRun, Run.after, Run.tried, List.foldl_cons, List.foldl_nil, hi, true_and,
        if_true]
      rw [hmodify index (·.answered now answer)]
    · simp [step, Run.after, Run.tried, hi, hnothing]
  | resume i index =>
    by_cases hi : i = id
    · simp only [step, onRun, Run.after, Run.tried, List.foldl_cons, List.foldl_nil, hi, true_and,
        if_true]
      rw [hmodify index (·.resumed)]
    · simp [step, Run.after, Run.tried, hi, hnothing]
  | begin i => simp [step, begin, Run.after, Run.tried, hnothing]
  | load i answer => simp [step, loaded, Run.after, Run.tried, hnothing]
  | _ => simp [step, Run.after, Run.tried, hnothing]

/-- The work on a message with these rules, as far as the steps since it began have brought it.
Rules that do not wait for messages, and a message that cannot be loaded, leave nothing to do; else
every rule that acts on the message is run, and its trials are those of the steps. -/
inductive Works (m : ReceivedMessage) (rules : List Rule) (id : Nat) :
    List (Nat × Label) → Task → Prop where
  | idle (ls : List (Nat × Label)) :
    (∀ r ∈ rules, r.enabled = true → r.isPeriodic = true) →
      Works m rules id ls ⟨id, m, .running rules [] []⟩
  | loading {ls : List (Nat × Label)} :
    (∃ r ∈ rules, r.enabled = true ∧ r.isPeriodic = false) →
      (∀ x ∈ ls, ∀ answer, x.2 ≠ .load id answer) →
      Works m rules id ls ⟨id, m, .loading rules⟩
  | lost {asked : List (Nat × Label)} (now : Nat) (f : Failure) (ls : List (Nat × Label)) :
    (∃ r ∈ rules, r.enabled = true ∧ r.isPeriodic = false) →
      (∀ x ∈ asked, ∀ answer, x.2 ≠ .load id answer) →
      Works m rules id (asked ++ (now, .load id (.error f)) :: ls) ⟨id, m, .running rules [] []⟩
  | running {asked : List (Nat × Label)} {raw : Bytes} {runs : List Run} (now : Nat)
    (ls : List (Nat × Label)) :
    (∃ r ∈ rules, r.enabled = true ∧ r.isPeriodic = false) →
      (∀ x ∈ asked, ∀ answer, x.2 ≠ .load id answer) →
      List.Forall₂ (Run.Starts m)
        (rules.filter fun r => decide (r.Acts (Message.ofBytes raw))) runs →
      Works m rules id (asked ++ (now, .load id (.ok raw)) :: ls)
        ⟨id, m, .running rules raw (runs.mapIdx (Run.after id ls))⟩

theorem works_begin : Works m rules id [] (begin { id, message := m } rules) := by
  cases hany : rules.any (·.actsOnMessages) with
  | true =>
    obtain ⟨r, hr, hacts⟩ := List.any_eq_true.mp hany
    simp only [begin, hany, if_true]
    have hwaits : r.enabled = true ∧ r.isPeriodic = false := by
      simpa [Rule.actsOnMessages] using hacts
    exact .loading ⟨r, hr, hwaits⟩ (List.forall_mem_nil _)
  | false =>
    have hnone := List.any_eq_false.mp hany
    simp only [begin, hany, Bool.false_eq_true, if_false]
    refine .idle [] fun r hr henabled => ?_
    simpa [Rule.actsOnMessages, henabled] using hnone r hr

theorem Works.step {ls : List (Nat × Label)} {t : Task} (h : t.Works m rules id ls)
    (others : List Rule) (now : Nat) (l : Label) :
    (t.step others now l).Works m rules id (ls ++ [(now, l)]) := by
  cases h with
  | idle ls hidle =>
    rw [step_running]
    exact .idle _ hidle
  | loading hacts hnone =>
    by_cases hload : ∃ answer, l = .load id answer
    · obtain ⟨answer, rfl⟩ := hload
      simp only [Task.step, if_true, loaded]
      cases answer with
      | error f => exact .lost now f [] hacts hnone
      | ok raw => simpa using Works.running now [] hacts hnone (Run.starts_ofRules rules m raw)
    · have hsame : Task.step others now ⟨id, m, .loading rules⟩ l = ⟨id, m, .loading rules⟩ := by
        cases l with
        | load i answer =>
          rw [Task.step, if_neg]
          rintro rfl
          exact hload ⟨answer, rfl⟩
        | begin | attempt | resume => exact ite_self _
        | _ => rfl
      rw [hsame]
      refine .loading hacts fun x hx answer => ?_
      rcases List.mem_append.mp hx with hx | hx
      · exact hnone x hx answer
      · cases List.mem_singleton.mp hx
        exact fun h => hload ⟨answer, h⟩
  | lost before f ls hacts hnone =>
    rw [step_running, List.append_assoc, List.cons_append]
    exact .lost before f _ hacts hnone
  | running before ls hacts hnone hstarts =>
    rw [step_running, List.append_assoc, List.cons_append, List.mapIdx_mapIdx]
    have hafter : (fun k => (Run.after id [(now, l)] k ·) ∘ (Run.after id ls k ·)) =
        Run.after id (ls ++ [(now, l)]) := by
      funext k r
      exact (Run.after_concat id k ls (now, l) r).symm
    rw [hafter]
    exact .running before _ hacts hnone hstarts

/-- The work on a message with these rules, as far as the steps since its receipt have brought it:
it waits until it begins. -/
inductive Follows (m : ReceivedMessage) (rules : List Rule) (id : Nat) :
    List (Nat × Label) → Task → Prop where
  | waits {ls : List (Nat × Label)} : (∀ x ∈ ls, x.2 ≠ .begin id) →
    Follows m rules id ls { id, message := m }
  | begun {waited ls : List (Nat × Label)} {t : Task} (now : Nat) :
    (∀ x ∈ waited, x.2 ≠ .begin id) → t.Works m rules id ls →
      Follows m rules id (waited ++ (now, .begin id) :: ls) t

theorem Follows.cons {ls : List (Nat × Label)} {t : Task} {x : Nat × Label}
    (h : t.Follows m rules id ls) (hx : x.2 ≠ .begin id) : t.Follows m rules id (x :: ls) := by
  cases h with
  | waits hnone => exact .waits (List.forall_mem_cons.mpr ⟨hx, hnone⟩)
  | @begun waited _ _ now hnone hworks =>
    have hfirst : ∀ y ∈ x :: waited, y.2 ≠ .begin id := List.forall_mem_cons.mpr ⟨hx, hnone⟩
    exact .begun now hfirst hworks

theorem step_waiting {now : Nat} {l : Label} (hl : l ≠ .begin id) :
    step rules now { id, message := m } l = { id, message := m } := by
  cases l with
  | begin i =>
    rw [step, if_neg]
    rintro rfl
    exact hl rfl
  | load | attempt | resume => exact ite_self _
  | _ => rfl

/-- How the work on a message ends. Every run has come to its result and the failures are announced,
or the dispatcher is to end. -/
inductive Ends (d : Dispatcher) (now : Nat) (t : Task) : Label → Prop where
  | finished {seen : List Rule} {raw : Bytes} {runs : List Run} {outcomes : List Outcome} :
    t.stage = .running seen raw runs →
      List.Forall₂ (fun r o => ∃ result, r.trials.result? = some result ∧ o = r.outcome result)
        runs outcomes →
      (d.step now (.finish t.id)).announced =
        d.announced ++ Outcome.failureEvents (some t.message.path) outcomes →
      Ends d now t (.finish t.id)
  | cancelled : d.stopping = true → Ends d now t (.cancel t.id)

theorem results_of_mapM {outcomes : List Outcome} (h : runs.mapM Run.outcome? = some outcomes) :
    List.Forall₂ (fun r o => ∃ result, r.trials.result? = some result ∧ o = r.outcome result)
      runs outcomes := by
  induction runs generalizing outcomes with
  | nil =>
    cases h
    exact .nil
  | cons r runs ih =>
    simp only [List.mapM_cons, Option.bind_eq_bind, Option.bind_eq_some_iff, Option.pure_def,
      Option.some.injEq] at h
    obtain ⟨o, ho, rest, hrest, rfl⟩ := h
    obtain ⟨result, hresult, rfl⟩ := Option.map_eq_some_iff.mp ho
    exact .cons ⟨result, hresult, rfl⟩ (ih hrest)

theorem EndsBy.ends {d : Dispatcher} {t : Task} {l : Label} (h : t.EndsBy d l) (now : Nat)
    (ht : d.task? t.id = some t) : t.Ends d now l := by
  cases h with
  | cancelled hstopping => exact .cancelled hstopping
  | finished outcomes houtcomes =>
    have hrunning := houtcomes
    unfold outcomes? at hrunning
    split at hrunning
    · rename_i hstage
      exact .finished hstage (results_of_mapM hrunning) (announced_finish now ht houtcomes)
    · cases hrunning
    · cases hrunning

end Task

variable {m : ReceivedMessage} {rules : List Rule} {d : Dispatcher} {id : Nat}
  {initial : List Rule} {heard : List Event}

/-- A task that is there after a step was there before it, if its number had been given out. -/
theorem task?_of_step {now : Nat} {l : Label} {t' : Task} (hid : id < d.nextId)
    (h : (d.step now l).task? id = some t') :
    ∃ t, d.task? id = some t ∧ t' = t.step d.rules now l := by
  rcases d.task?_step now id l with hmoved | ⟨-, -, -, hgone⟩ | ⟨-, -, -, hnext, -⟩
  · obtain ⟨t, ht, rfl⟩ := Option.map_eq_some_iff.mp (hmoved.symm.trans h)
    exact ⟨t, ht, rfl⟩
  · cases hgone.symm.trans h
  · omega

/-- Work that has begun goes on with the rules that it began with. -/
theorem works_steps {past : List (Nat × Label)} (ls : List (Nat × Label)) (hid : id < d.nextId)
    (hworks : ∀ t, d.task? id = some t → t.Works m rules id past) :
    ∀ t, (d.steps ls).task? id = some t → t.Works m rules id (past ++ ls) := by
  induction ls generalizing d past with
  | nil => rwa [List.append_nil]
  | cons x ls ih =>
    rw [List.append_cons]
    apply ih (Nat.lt_of_lt_of_le hid (d.nextId_le_step x.1 x.2))
    intro t' ht'
    obtain ⟨t, ht, rfl⟩ := task?_of_step hid ht'
    exact (hworks t ht).step d.rules x.1 x.2

/-- A task that waits begins with the rules as they are at some time from now on, if it ever
does. -/
theorem follows_steps (ls : List (Nat × Label)) (hid : id < d.nextId)
    (hrules : d.rules = inForce initial heard)
    (hwaits : ∀ t, d.task? id = some t → t = { id, message := m }) :
    ∃ taken, taken <+: d.ahead ls ∧ ∀ mid, mid <+: ls → ∀ t, (d.steps mid).task? id = some t →
      t.Follows m (inForce initial (heard ++ taken)) id mid := by
  induction ls generalizing d heard with
  | nil =>
    refine ⟨[], List.nil_prefix, fun mid hmid t ht => ?_⟩
    cases List.prefix_nil.mp hmid
    cases hwaits t ht
    exact .waits (List.forall_mem_nil _)
  | cons x ls ih =>
    have hnext := Nat.lt_of_lt_of_le hid (d.nextId_le_step x.1 x.2)
    have hnow : ∀ rules t, (d.steps []).task? id = some t → t.Follows m rules id [] := by
      intro rules t ht
      cases hwaits t ht
      exact .waits (List.forall_mem_nil _)
    by_cases hbegin : x.2 = .begin id
    · -- The rules in force now are those that the work keeps to.
      refine ⟨[], List.nil_prefix, fun mid hmid t ht => ?_⟩
      rw [List.append_nil, ← hrules]
      cases mid with
      | nil => exact hnow d.rules t ht
      | cons y mid =>
        obtain ⟨rfl, -⟩ := List.cons_prefix_cons.mp hmid
        obtain ⟨now, l⟩ := y
        cases hbegin
        have hbegun : ∀ t, (d.step now (.begin id)).task? id = some t →
            t.Works m d.rules id [] := by
          intro t ht
          obtain ⟨u, hu, rfl⟩ := task?_of_step hid ht
          cases hwaits u hu
          simp only [Task.step, if_true]
          exact Task.works_begin
        have hnone : ∀ y ∈ ([] : List (Nat × Label)), y.2 ≠ .begin id :=
          List.forall_mem_nil _
        exact .begun now hnone (works_steps mid hnext hbegun t ht)
    · obtain ⟨first, hfirst, hahead⟩ := d.ahead_cons x.1 x.2 hrules
      have hstill : ∀ t, (d.step x.1 x.2).task? id = some t → t = { id, message := m } := by
        intro t ht
        obtain ⟨u, hu, rfl⟩ := task?_of_step hid ht
        cases hwaits u hu
        exact Task.step_waiting hbegin
      obtain ⟨taken, htaken, hmids⟩ := ih hnext hfirst hstill
      refine ⟨first ++ taken, ?_, fun mid hmid t ht => ?_⟩
      · rw [hahead]
        exact (List.prefix_append_right_inj first).mpr htaken
      · cases mid with
        | nil => exact hnow _ t ht
        | cons y mid =>
          obtain ⟨rfl, hrest⟩ := List.cons_prefix_cons.mp hmid
          rw [← List.append_assoc]
          exact (hmids mid hrest t ht).cons hbegin

/-- A task that is gone does not come back. -/
theorem task?_steps_none (ls : List (Nat × Label)) (hid : id < d.nextId)
    (hnone : d.task? id = none) : (d.steps ls).task? id = none := by
  induction ls generalizing d with
  | nil => exact hnone
  | cons x ls ih =>
    apply ih (Nat.lt_of_lt_of_le hid (d.nextId_le_step x.1 x.2))
    rw [Option.eq_none_iff_forall_ne_some]
    intro t ht
    obtain ⟨u, hu, -⟩ := task?_of_step hid ht
    cases hnone.symm.trans hu

/-- Runs that have been begun stay, and are tried as settled at their beginning. -/
theorem running_steps {seen : List Rule} {raw : Bytes} {runs : List Run}
    (ls : List (Nat × Label)) (hid : id < d.nextId)
    (hrunning : d.task? id = some ⟨id, m, .running seen raw runs⟩) :
    ∀ t, (d.steps ls).task? id = some t →
      ∃ runs', t = ⟨id, m, .running seen raw runs'⟩ ∧ runs'.map Run.plan = runs.map Run.plan := by
  induction ls generalizing d runs with
  | nil => exact fun t ht => ⟨runs, Option.some.inj (ht.symm.trans hrunning), rfl⟩
  | cons x ls ih =>
    intro t ht
    have hnext := Nat.lt_of_lt_of_le hid (d.nextId_le_step x.1 x.2)
    cases hstep : (d.step x.1 x.2).task? id with
    | none => cases (task?_steps_none ls hnext hstep).symm.trans ht
    | some u =>
      obtain ⟨v, hv, rfl⟩ := task?_of_step hid hstep
      cases hrunning.symm.trans hv
      rw [Task.step_running] at hstep
      obtain ⟨runs', ht, hplan⟩ := ih hnext hstep t ht
      exact ⟨runs', ht, hplan.trans (Run.map_plan_after id x runs)⟩

theorem ends_of_step {now : Nat} {l : Label} {t : Task} (ht : d.task? id = some t)
    (hgone : (d.step now l).task? id = none) : t.Ends d now l := by
  rcases d.task?_step now id l with hmoved | ⟨u, hu, hends, -⟩ | ⟨_, -, -, -, hmade⟩
  · rw [hmoved, ht] at hgone
    cases hgone
  · cases ht.symm.trans hu
    exact hends.ends now (id_of_task? ht ▸ ht)
  · cases hgone.symm.trans hmade

/-! ## Messages -/

theorem steps_append (d : Dispatcher) (ls more : List (Nat × Label)) :
    d.steps (ls ++ more) = (d.steps ls).steps more := by
  induction ls generalizing d with
  | nil => rfl
  | cons x ls ih => exact ih (d.step x.1 x.2)

theorem nextId_le_steps (d : Dispatcher) (ls : List (Nat × Label)) :
    d.nextId ≤ (d.steps ls).nextId := by
  induction ls generalizing d with
  | nil => exact Nat.le_refl _
  | cons x ls ih => exact Nat.le_trans (d.nextId_le_step x.1 x.2) (ih (d.step x.1 x.2))

theorem Numbered.steps (h : d.Numbered) (ls : List (Nat × Label)) : (d.steps ls).Numbered := by
  induction ls generalizing d with
  | nil => exact h
  | cons x ls ih => exact ih (h.step x.1 x.2)

/-- What becomes of a dispatcher that began with these rules. -/
def reached (initial : List Rule) (ls : List (Nat × Label)) : Dispatcher :=
  Dispatcher.steps { rules := initial } ls

theorem numbered_reached (initial : List Rule) (ls : List (Nat × Label)) :
    (reached initial ls).Numbered := by
  apply Numbered.steps
  intro id _
  rfl

/-- The loop makes a task when it hears of a message, and the rules stay as they are. -/
theorem receive_message {rest : List Event} (now : Nat) (h : d.Numbered) (hloop : d.loop = .serving)
    (hinbox : d.inbox = .newMessage m :: rest) :
    (d.step now .receive).task? d.nextId = some { id := d.nextId, message := m } ∧
      d.nextId < (d.step now .receive).nextId ∧ (d.step now .receive).rules = d.rules ∧
      ∀ ls, d.ahead ((now, .receive) :: ls) = .newMessage m :: (d.step now .receive).ahead ls := by
  have hnone : d.tasks.find? (·.id = d.nextId) = none := h d.nextId (Nat.le_refl _)
  have hstep : d.step now .receive = { d with inbox := rest }.hear (.newMessage m) := by
    simp only [step, receive, hloop, hinbox]
  rw [hstep, hear_eq]
  refine ⟨?_, Nat.lt_succ_self _, rfl, fun ls => ?_⟩
  · simp [task?, Event.message?, hnone]
  · simp [ahead, arrivals, hinbox]

/-- The work on a message, from the step that made its task on: `ls` are the steps that follow. -/
structure Handled (d : Dispatcher) (id : Nat) (m : ReceivedMessage) (rules : List Rule)
    (ls : List (Nat × Label)) : Prop where
  made : d.task? id = some { id, message := m }
  /-- Before it begins it waits; then it works off these rules and no others. -/
  follows : ∀ mid, mid <+: ls → ∀ t, (d.steps mid).task? id = some t → t.Follows m rules id mid
  /-- Runs that have been begun are not given up and not replaced. -/
  running : ∀ mid more seen raw runs,
    (d.steps mid).task? id = some ⟨id, m, .running seen raw runs⟩ →
      ∀ t, (d.steps (mid ++ more)).task? id = some t → ∃ runs',
        t = ⟨id, m, .running seen raw runs'⟩ ∧ runs'.map Run.plan = runs.map Run.plan
  /-- A step that takes the task away is its end. -/
  ends : ∀ mid now l t, (d.steps mid).task? id = some t →
    (d.steps (mid ++ [(now, l)])).task? id = none → t.Ends (d.steps mid) now l
  gone : ∀ mid more, (d.steps mid).task? id = none → (d.steps (mid ++ more)).task? id = none

/-- A task that waits is handled with the rules in force at some time from now on. -/
theorem handled (ls : List (Nat × Label)) (hid : id < d.nextId)
    (hrules : d.rules = inForce initial heard) (hmade : d.task? id = some { id, message := m }) :
    ∃ taken, taken <+: d.ahead ls ∧ d.Handled id m (inForce initial (heard ++ taken)) ls := by
  obtain ⟨taken, htaken, hfollows⟩ :=
    follows_steps ls hid hrules fun t ht => Option.some.inj (ht.symm.trans hmade)
  have hlater : ∀ mid, id < (d.steps mid).nextId :=
    fun mid => Nat.lt_of_lt_of_le hid (d.nextId_le_steps mid)
  refine ⟨taken, htaken, hmade, hfollows, ?_, ?_, ?_⟩
  · intro mid more seen raw runs hrunning
    rw [steps_append]
    exact running_steps more (hlater mid) hrunning
  · intro mid now l t ht hgone
    rw [steps_append] at hgone
    exact ends_of_step ht hgone
  · intro mid more hnone
    rw [steps_append]
    exact task?_steps_none more (hlater mid) hnone

/-- From the step in which the loop hears of a message, its task keeps to one list. -/
theorem handled_from_receipt {before : List (Nat × Label)} {l : Label}
    (hears : (reached initial before).Hears m l) (now : Nat) (after : List (Nat × Label)) :
    ∃ heard rest known, arrivals before = heard ++ .newMessage m :: rest ∧
      heard ++ [.newMessage m] <+: known ∧ known <+: arrivals (before ++ (now, l) :: after) ∧
      Handled (reached initial (before ++ [(now, l)])) (reached initial before).nextId m
        (inForce initial known) after := by
  obtain ⟨rfl, hloop, rest, hinbox⟩ := hears
  have hfresh : ({ rules := initial } : Dispatcher).rules = inForce initial [] := rfl
  obtain ⟨heard, hrules, hahead⟩ := ahead_append { rules := initial } before hfresh
  have harrivals : ∀ more,
      arrivals (before ++ more) = heard ++ (reached initial before).ahead more :=
    hahead
  have hfirst : reached initial (before ++ [(now, .receive)]) =
      (reached initial before).step now .receive :=
    steps_append { rules := initial } before [(now, .receive)]
  obtain ⟨htask, hnext, hsame, hcons⟩ :=
    receive_message now (numbered_reached initial before) hloop hinbox
  have hstart : ((reached initial before).step now .receive).rules =
      inForce initial (heard ++ [.newMessage m]) := by
    rw [hsame, inForce_concat]
    exact hrules
  obtain ⟨taken, htaken, hhandled⟩ := handled after hnext hstart htask
  refine ⟨heard, rest, heard ++ [.newMessage m] ++ taken, ?_, List.prefix_append _ _, ?_,
    hfirst ▸ hhandled⟩
  · have hnow := harrivals []
    rwa [List.append_nil, ahead, arrivals, ite_self, List.append_nil, hinbox] at hnow
  · rw [harrivals, hcons, List.append_assoc, List.singleton_append]
    exact (List.prefix_append_right_inj heard).mpr
      (List.cons_prefix_cons.mpr ⟨rfl, htaken⟩)

/-- A task comes from a step in which the loop hears of a message. -/
theorem task?_origin {ls : List (Nat × Label)} {t : Task}
    (ht : (reached initial ls).task? id = some t) :
    ∃ before now l after m, ls = before ++ (now, l) :: after ∧
      (reached initial before).Hears m l ∧ (reached initial before).nextId = id := by
  induction ls using List.reverseRecOn generalizing t with
  | nil => cases ht
  | append_singleton ls x ih =>
    have hlast : reached initial (ls ++ [x]) = (reached initial ls).step x.1 x.2 :=
      steps_append { rules := initial } ls [x]
    rw [hlast] at ht
    rcases (reached initial ls).task?_step x.1 id x.2 with
      hmoved | ⟨-, -, -, hgone⟩ | ⟨m, hears, -, hid, -⟩
    · obtain ⟨u, hu, -⟩ := Option.map_eq_some_iff.mp (hmoved.symm.trans ht)
      obtain ⟨before, now, l, after, m, rfl, horigin⟩ := ih hu
      exact ⟨before, now, l, after ++ [x], m, by simp, horigin⟩
    · cases hgone.symm.trans ht
    · exact ⟨ls, x.1, x.2, [], m, rfl, hears, hid.symm⟩

/-- Every message that the loop hears of is worked on with one list of rules throughout, whatever
steps are taken and whatever else is heard, and no other work is done. The list is the one in force
after some of the events that came over the bus, the message and all events before it among them:
the rules that the dispatcher began with, or those of a good update as a whole. -/
theorem one_list_throughout (initial : List Rule) (ls : List (Nat × Label)) :
    (∀ before now l after m, ls = before ++ (now, l) :: after →
      (reached initial before).Hears m l →
        ∃ heard rest known, arrivals before = heard ++ .newMessage m :: rest ∧
          heard ++ [.newMessage m] <+: known ∧ known <+: arrivals ls ∧
          (inForce initial known = initial ∨ .rulesUpdated (inForce initial known) ∈ known ∧
            Rule.validateAll (inForce initial known) = .ok ()) ∧
          Handled (reached initial (before ++ [(now, l)])) (reached initial before).nextId m
            (inForce initial known) after) ∧
    ∀ id t, (reached initial ls).task? id = some t →
      ∃ before now l after m, ls = before ++ (now, l) :: after ∧
        (reached initial before).Hears m l ∧ (reached initial before).nextId = id := by
  refine ⟨?_, fun id t ht => task?_origin ht⟩
  rintro before now l after m rfl hears
  obtain ⟨heard, rest, known, harrivals, hknown, hcame, hhandled⟩ :=
    handled_from_receipt hears now after
  exact ⟨heard, rest, known, harrivals, hknown, hcame, inForce_cases initial known, hhandled⟩

end Dispatcher

end Letterbox
