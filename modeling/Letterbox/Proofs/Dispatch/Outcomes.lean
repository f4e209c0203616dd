import Mathlib.Data.List.Basic
import Letterbox.Dispatch.Clockwork
import Letterbox.Proofs.Dispatch.Courses
import Letterbox.Proofs.Dispatch.Steps

/-!
# What comes of a message

The runs of a message go on side by side, and each comes to the end that it would come to alone. So
the outcomes of a list of rules are those of its rules, one by one.
-/

set_option autoImplicit false

namespace Letterbox

/-! ## Rules that act -/

namespace Rule

variable {r : Rule} {rules : List Rule} {m : Message}

/-- An enabled rule that waits for messages and matches this one. -/
def Acts (r : Rule) (m : Message) : Prop :=
  r.enabled = true ∧ r.isPeriodic = false ∧ r.acceptsMessage m = .ok true

theorem applies_iff : r.applies m = true ↔ r.Acts m := by
  have happlies : r.applies m = true ↔ r.acceptsMessage m = .ok true := by
    unfold applies
    cases r.acceptsMessage m with
    | ok b => simp [Except.toOption]
    | error f => simp [Except.toOption]
  rw [happlies]
  refine ⟨fun h => ?_, fun h => h.2.2⟩
  unfold acceptsMessage at h
  split at h
  · rename_i henabled
    refine ⟨henabled, ?_, by rwa [acceptsMessage, if_pos henabled]⟩
    unfold isPeriodic kind
    cases haction : r.action with
    | mailRetention days =>
      rw [haction] at h
      cases h
    | relay | conditionalRelay | forward | invokeProcess => rfl
  · cases h

instance : Decidable (r.Acts m) := decidable_of_iff _ applies_iff

theorem applicable_eq (rules : List Rule) (m : Message) :
    applicable rules m = rules.filter fun r => decide (r.Acts m) :=
  List.filter_congr fun r _ => by
    rw [← Bool.eq_iff_iff.mpr (applies_iff.trans decide_eq_true_iff.symm)]

theorem applicable_eq_nil (h : rules.any (·.actsOnMessages) = false) : applicable rules m = [] := by
  rw [applicable_eq, List.filter_eq_nil_iff]
  intro r hr hacts
  obtain ⟨henabled, hperiodic, -⟩ := of_decide_eq_true hacts
  have hany : rules.any (·.actsOnMessages) = true :=
    List.any_eq_true.mpr ⟨r, hr, by simp [actsOnMessages, henabled, hperiodic]⟩
  rw [h] at hany
  cases hany

/-- A rule that acts on a message has something to do for it. -/
theorem Acts.errand (h : r.Acts m) (received : ReceivedMessage) :
    ∃ e, r.errand? received = some e := by
  have hperiodic := h.2.1
  unfold isPeriodic kind at hperiodic
  unfold errand?
  cases haction : r.action with
  | mailRetention days =>
    rw [haction] at hperiodic
    cases hperiodic
  | relay | conditionalRelay | forward | invokeProcess => exact ⟨_, rfl⟩

def Malformed (setting : Option String) : Prop :=
  ∃ s, setting = some s ∧ s.isEmpty = false ∧ Pattern.ofText? s = none

/-- A rule of which one setting is to be a pattern and is none. -/
def BadPattern (r : Rule) : Prop :=
  ∃ header body via, r.action = .conditionalRelay header body via ∧
    (Malformed header ∨ Malformed body)

theorem readPattern_malformed {setting : Option String} (h : Malformed setting) :
    ∃ f, readPattern setting = .error f := by
  obtain ⟨s, rfl, hempty, hnone⟩ := h
  refine ⟨.ruleMatch ("invalid pattern '" ++ s ++ "'"), ?_⟩
  simp only [readPattern, hempty, hnone, Bool.false_eq_true, if_false]

theorem BadPattern.not_acts (h : r.BadPattern) : ¬r.Acts m := by
  obtain ⟨header, body, via, haction, hbad⟩ := h
  rintro ⟨henabled, -, haccepts⟩
  simp only [acceptsMessage, henabled, if_true, haction, patternsMatch] at haccepts
  rcases hbad with hheader | hbody
  · obtain ⟨f, hf⟩ := readPattern_malformed hheader
    rw [hf] at haccepts
    cases haccepts
  · obtain ⟨f, hf⟩ := readPattern_malformed hbody
    rw [hf] at haccepts
    cases hread : readPattern header with
    | ok p =>
      rw [hread] at haccepts
      cases haccepts
    | error g =>
      rw [hread] at haccepts
      cases haccepts

end Rule

/-! ## All at once -/

section

variable (rules others : List Rule) (loaded : Except Failure Bytes) (answers : Answers)
  (m : ReceivedMessage)

theorem dispatchMessage_ok (raw : Bytes) :
    dispatchMessage rules (.ok raw) answers m =
      (Rule.applicable rules (Message.ofBytes raw)).map (Rule.outcomeFor answers m) := by
  unfold dispatchMessage
  split
  · rfl
  · rename_i hnone
    rw [Rule.applicable_eq_nil (Bool.eq_false_iff.mpr hnone)]
    rfl

theorem dispatchMessage_error (f : Failure) :
    dispatchMessage rules (.error f) answers m = [] := by
  unfold dispatchMessage
  exact ite_self _

theorem dispatchMessage_append :
    dispatchMessage (rules ++ others) loaded answers m =
      dispatchMessage rules loaded answers m ++ dispatchMessage others loaded answers m := by
  cases loaded with
  | ok raw => simp only [dispatchMessage_ok, Rule.applicable, List.filter_append, List.map_append]
  | error f => simp only [dispatchMessage_error, List.append_nil]

theorem dispatchMessage_badPattern {r : Rule} (h : r.BadPattern) :
    dispatchMessage [r] loaded answers m = [] := by
  cases loaded with
  | ok raw =>
    rw [dispatchMessage_ok, Rule.applicable_eq, List.filter_cons_of_neg (by simp [h.not_acts])]
    rfl
  | error f => exact dispatchMessage_error [r] answers m f

end

/-! ## One run -/

namespace Run

variable (answers : Answers) (m : ReceivedMessage) (r : Run)

def endingIn (e : List Attempt × Except Failure Unit) : Outcome :=
  { r with trials := { r.trials with attempts := e.1 } }.outcome e.2

def comesTo : Outcome :=
  r.endingIn (r.trials.ending fun n => { answer := answers r.rule m n })

theorem comesTo_answered (now : Nat) :
    comesTo answers m
        { r with trials := r.trials.answered now (answers r.rule m r.trials.number) } =
      r.comesTo answers m :=
  congrArg r.endingIn (r.trials.ending_answered (fun n => { answer := answers r.rule m n }) now)

theorem comesTo_resumed :
    comesTo answers m { r with trials := r.trials.resumed } = r.comesTo answers m :=
  congrArg r.endingIn r.trials.ending_resumed

theorem comesTo_start {rule : Rule} {e : Errand} (h : rule.errand? m = some e) :
    (start rule e).comesTo answers m = rule.outcomeFor answers m := by
  unfold Rule.outcomeFor
  rw [h]
  exact congrArg (start rule e).endingIn
    (Retry.Trials.ending_start e.policy.maxAttempts)

theorem comesTo_of_result {result : Except Failure Unit} (h : r.trials.result? = some result) :
    r.comesTo answers m = r.outcome result :=
  congrArg r.endingIn (r.trials.ending_of_result h)

theorem outcome?_eq :
    r.outcome? = if r.trials.result?.isSome then some (r.comesTo answers m) else none := by
  unfold outcome?
  cases h : r.trials.result? with
  | none => rfl
  | some result => exact congrArg some (r.comesTo_of_result answers m h).symm

theorem map_comesTo_ofRules (rules : List Rule) (raw : Bytes) :
    (ofRules rules m raw).map (comesTo answers m) = dispatchMessage rules (.ok raw) answers m := by
  rw [dispatchMessage_ok, ofRules, List.map_filterMap]
  apply List.filterMap_eq_map_iff_forall_eq_some.mpr
  intro r hr
  have hacts := Rule.applies_iff.mp (List.mem_filter.mp hr).2
  obtain ⟨e, he⟩ := hacts.errand m
  rw [he, Option.map_some, Option.map_some, comesTo_start answers m he]

end Run

/-! ## All runs of a message -/

namespace Dispatcher.Task

/-- A step in the work on a message: it begins, the message comes from the store, an attempt ends,
or a pause is over. Any run that can go on may be the next to do so, at any time. -/
inductive Step (rules : List Rule) (stored : Except Failure Bytes) (answers : Answers) (t : Task) :
    Task → Prop where
  | begins : t.stage = .waiting → Step rules stored answers t (t.begin rules)
  | loads {seen : List Rule} : t.stage = .loading seen →
    Step rules stored answers t (t.loaded stored)
  | attempts {seen : List Rule} {raw : Bytes} {runs : List Run} {index : Nat} {r : Run}
    (now : Nat) :
    t.stage = .running seen raw runs → runs[index]? = some r → r.trials.phase = .trying →
      Step rules stored answers t
        (t.onRun index (·.answered now (answers r.rule t.message r.trials.number)))
  | resumes {seen : List Rule} {raw : Bytes} {runs : List Run} {index til : Nat} {r : Run} :
    t.stage = .running seen raw runs → runs[index]? = some r → r.trials.phase = .pausing til →
      Step rules stored answers t (t.onRun index (·.resumed))

/-- Whatever steps are taken, they come to an end, and then the outcomes are these. -/
inductive ComesTo (rules : List Rule) (stored : Except Failure Bytes) (answers : Answers)
    (outcomes : List Outcome) : Task → Prop where
  | ended (t : Task) : t.outcomes? = some outcomes → (∀ t', ¬t.Step rules stored answers t') →
    ComesTo rules stored answers outcomes t
  | goesOn (t : Task) : t.outcomes? = none → (∃ t', t.Step rules stored answers t') →
    (∀ t', t.Step rules stored answers t' → ComesTo rules stored answers outcomes t') →
      ComesTo rules stored answers outcomes t

variable {rules seen : List Rule} {stored : Except Failure Bytes} {answers : Answers} {raw : Bytes}
  {m : ReceivedMessage} {id : Nat} {runs : List Run}

/-- More than the number of events that runs can still take together. -/
def togo : List Run → Nat
  | [] => 0
  | r :: runs => r.trials.togo + togo runs

theorem togo_modify {index : Nat} {r : Run} {f : Run → Run} (hget : runs[index]? = some r)
    (hless : (f r).trials.togo < r.trials.togo) : togo (runs.modify index f) < togo runs := by
  induction runs generalizing index with
  | nil => cases hget
  | cons first runs ih =>
    cases index with
    | zero =>
      cases hget
      simpa [togo] using hless
    | succ index => simpa [togo] using ih hget

/-- A step of runs leaves alone what they come to, and brings them nearer to it. -/
theorem Step.running {t' : Task}
    (h : Step rules stored answers ⟨id, m, .running seen raw runs⟩ t') :
    ∃ runs', t' = ⟨id, m, .running seen raw runs'⟩ ∧ togo runs' < togo runs ∧
      runs'.map (·.comesTo answers m) = runs.map (·.comesTo answers m) := by
  cases h with
  | begins hstage => cases hstage
  | loads hstage => cases hstage
  | attempts now hstage hget hphase =>
    cases hstage
    refine ⟨_, rfl, togo_modify hget (Retry.Trials.togo_answered _ now _ hphase),
      map_modify_same fun r hr => ?_⟩
    cases hget.symm.trans hr
    exact Run.comesTo_answered answers m _ now
  | resumes hstage hget hphase =>
    cases hstage
    exact ⟨_, rfl, togo_modify hget (Retry.Trials.togo_resumed _ hphase),
      map_modify_same fun r _ => Run.comesTo_resumed answers m r⟩

/-- Only runs that have not ended take steps. -/
theorem Step.not_ended {t' : Task}
    (h : Step rules stored answers ⟨id, m, .running seen raw runs⟩ t') :
    ∃ r ∈ runs, r.trials.result? = none := by
  cases h with
  | begins hstage => cases hstage
  | loads hstage => cases hstage
  | attempts now hstage hget hphase =>
    cases hstage
    exact ⟨_, List.mem_of_getElem? hget, by simp only [Retry.Trials.result?, hphase]⟩
  | resumes hstage hget hphase =>
    cases hstage
    exact ⟨_, List.mem_of_getElem? hget, by simp only [Retry.Trials.result?, hphase]⟩

theorem exists_step {r : Run} (hr : r ∈ runs) (hnone : r.trials.result? = none) :
    ∃ t', Step rules stored answers ⟨id, m, .running seen raw runs⟩ t' := by
  obtain ⟨index, hget⟩ := List.mem_iff_getElem?.mp hr
  cases hphase : r.trials.phase with
  | trying => exact ⟨_, .attempts 0 rfl hget hphase⟩
  | pausing til => exact ⟨_, .resumes rfl hget hphase⟩
  | ended result =>
    simp only [Retry.Trials.result?, hphase] at hnone
    cases hnone

theorem mapM_outcome? (answers : Answers) (m : ReceivedMessage) (runs : List Run) :
    runs.mapM Run.outcome? =
      if ∀ r ∈ runs, r.trials.result?.isSome then some (runs.map (·.comesTo answers m))
      else none := by
  induction runs with
  | nil => simp
  | cons r runs ih =>
    simp only [List.mapM_cons, ih, r.outcome?_eq answers m, List.forall_mem_cons]
    by_cases hfirst : r.trials.result?.isSome
    · by_cases hrest : ∀ r ∈ runs, r.trials.result?.isSome
      · simp only [if_pos hfirst, if_pos hrest, if_pos (And.intro hfirst hrest)]
        rfl
      · simp only [if_pos hfirst, if_neg hrest, if_neg (fun h => hrest (And.right h))]
        rfl
    · simp only [if_neg hfirst, if_neg (fun h => hfirst (And.left h))]
      rfl

theorem comesTo_running (id : Nat) (seen : List Rule) (raw : Bytes) (runs : List Run) :
    ComesTo rules stored answers (runs.map (·.comesTo answers m))
      ⟨id, m, .running seen raw runs⟩ := by
  -- The induction is on the number of events that can still be taken.
  induction hn : togo runs using Nat.strongRecOn generalizing runs with
  | ind n ih =>
    have hsteps : ∀ t', Step rules stored answers ⟨id, m, .running seen raw runs⟩ t' →
        ComesTo rules stored answers (runs.map (·.comesTo answers m)) t' := by
      intro t' hstep
      obtain ⟨runs', rfl, hless, hsame⟩ := hstep.running
      rw [← hsame]
      exact ih (togo runs') (hn ▸ hless) runs' rfl
    have houtcomes := mapM_outcome? answers m runs
    by_cases hall : ∀ r ∈ runs, r.trials.result?.isSome
    · rw [if_pos hall] at houtcomes
      refine .ended _ houtcomes fun t' hstep => ?_
      obtain ⟨r, hr, hnone⟩ := hstep.not_ended
      have hsome := hall r hr
      rw [hnone] at hsome
      cases hsome
    · rw [if_neg hall] at houtcomes
      simp only [not_forall, Bool.not_eq_true, Option.isSome_eq_false_iff,
        Option.isNone_iff_eq_none] at hall
      obtain ⟨r, hr, hnone⟩ := hall
      exact .goesOn _ houtcomes (exists_step hr hnone) hsteps

theorem comesTo_loading (id : Nat) :
    ComesTo rules stored answers (dispatchMessage seen stored answers m)
      ⟨id, m, .loading seen⟩ := by
  refine .goesOn _ rfl ⟨_, .loads rfl⟩ fun t' hstep => ?_
  cases hstep with
  | begins hstage => cases hstage
  | attempts _ hstage => cases hstage
  | resumes hstage => cases hstage
  | loads hstage =>
    cases stored with
    | ok raw =>
      rw [← Run.map_comesTo_ofRules]
      exact comesTo_running id seen raw _
    | error f =>
      rw [dispatchMessage_error]
      exact comesTo_running id seen [] []

/-- The work on a message comes to the outcomes that the rules have one by one. -/
theorem comesTo_waiting (id : Nat) :
    ComesTo rules stored answers (dispatchMessage rules stored answers m) { id, message := m } := by
  refine .goesOn _ rfl ⟨_, .begins rfl⟩ fun t' hstep => ?_
  cases hstep with
  | loads hstage => cases hstage
  | attempts _ hstage => cases hstage
  | resumes hstage => cases hstage
  | begins hstage =>
    simp only [begin]
    split
    · exact comesTo_loading id
    · rename_i hnone
      have hnothing : dispatchMessage rules stored answers m = [] := by
        unfold dispatchMessage
        exact if_neg hnone
      rw [hnothing]
      exact comesTo_running id rules [] []

end Dispatcher.Task

end Letterbox
