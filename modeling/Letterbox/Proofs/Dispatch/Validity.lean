import Letterbox.Proofs.Dispatch.Snapshots
import Letterbox.Rule.Json

/-!
# Rules in force can be carried out

Rules that come in over the bus may be of any kind. A list is put in force as a whole if each of its
rules can be carried out, and not at all otherwise, so that a dispatcher that begins with good rules
never has others. Sweeps take their rules from there.
-/

set_option autoImplicit false

namespace Letterbox

namespace Rule

/-- Every rule of a list can be carried out. -/
def AllValid (rules : List Rule) : Prop := ∀ r ∈ rules, r.validate = .ok ()

theorem validateAll_eq_ok_iff {rules : List Rule} :
    validateAll rules = .ok () ↔ AllValid rules := by
  induction rules with
  | nil => exact ⟨fun _ => nofun, fun _ => rfl⟩
  | cons r rules ih =>
    rw [AllValid, List.forall_mem_cons, ← AllValid, ← ih, validateAll]
    cases r.validate with
    | ok u => exact ⟨fun h => ⟨rfl, h⟩, And.right⟩
    | error f => exact ⟨nofun, nofun⟩

/-- What is read from a text can be carried out. -/
theorem allValid_of_parseAll {fresh : Nat → Uuid} {text : String} {rules : List Rule}
    (h : parseAll fresh text = .ok rules) : AllValid rules := by
  unfold parseAll at h
  split at h
  · cases h
  · rename_i read _
    cases hvalid : validateAll read with
    | error f =>
      rw [hvalid] at h
      cases h
    | ok u =>
      rw [hvalid] at h
      cases h
      exact validateAll_eq_ok_iff.mp hvalid

theorem days_of_validate {r : Rule} {days : UInt32} (hr : r.validate = .ok ())
    (hdays : Retention.days? r = some days) : 1 ≤ days.toNat ∧ days.toNat ≤ 3650 := by
  unfold Retention.days? at hdays
  split at hdays
  · rename_i haction
    cases hdays
    simp only [validate, haction, validateRetention] at hr
    split at hr
    · assumption
    · cases hr
  · cases hdays

end Rule

/-! ## Sweeps -/

namespace Sweep

/-- The rules that a sweep has in hand: the one that it is at, and those that are left. -/
def inHand (s : Sweep) : List Rule :=
  match s.stage with
  | .listing r _ _ rest | .deleting r _ _ _ rest => r :: rest
  | .waiting | .finished => []

def days? (s : Sweep) : Option UInt32 :=
  match s.stage with
  | .listing _ days _ _ => some days
  | .deleting r _ _ _ _ => Retention.days? r
  | .waiting | .finished => none

structure Sound (s : Sweep) : Prop where
  valid : Rule.AllValid s.inHand
  days : ∀ days, s.days? = some days → ∃ r ∈ s.inHand, Retention.days? r = some days

inductive Moves (rules : List Rule) (s : Sweep) : Sweep → Prop where
  | begins (now : Nat) : Moves rules s (s.begin now rules)
  | lists (now : Nat) (clock : Int) (answer : Except Failure (List StoredMessage)) :
    Moves rules s (s.listed now clock answer)
  | deletes (now : Nat) (answer : Except Failure Unit) : Moves rules s (s.deleted now answer)

variable {s s' : Sweep} {rules : List Rule}

theorem sound_next (outcomes : List Outcome) (now : Nat) (h : Rule.AllValid rules) :
    (next outcomes now rules).Sound := by
  induction rules generalizing outcomes with
  | nil => exact ⟨nofun, nofun⟩
  | cons r rest ih =>
    have hrest := fun os => ih os fun q hq => h q (List.mem_cons_of_mem r hq)
    unfold next
    split
    · exact hrest _
    · rename_i days hdays
      split
      · exact hrest _
      · refine ⟨h, fun n hn => ?_⟩
        cases hn
        exact ⟨r, List.mem_cons_self, hdays⟩

theorem sound_deleteNext (outcomes : List Outcome) (now : Nat) (r : Rule) (done : List Attempt)
    {rest : List Rule} (todo : List StoredMessage) (h : Rule.AllValid (r :: rest)) :
    (deleteNext outcomes now r done rest todo).Sound := by
  cases todo with
  | nil => exact sound_next _ now fun q hq => h q (List.mem_cons_of_mem r hq)
  | cons m todo => exact ⟨h, fun _ hdays => ⟨r, List.mem_cons_self, hdays⟩⟩

theorem Sound.moves (h : s.Sound) (hrules : Rule.AllValid rules) (hmove : s.Moves rules s') :
    s'.Sound := by
  have hvalid := h.valid
  cases hmove with
  | begins now =>
    unfold Sweep.begin
    split
    · exact sound_next _ now hrules
    · exact h
  | lists now clock answer =>
    unfold listed
    split
    · rename_i r days since rest hstage
      rw [inHand, hstage] at hvalid
      split
      · exact sound_next _ now fun q hq => hvalid q (List.mem_cons_of_mem r hq)
      · exact sound_deleteNext _ now r [] _ hvalid
    · exact h
  | deletes now answer =>
    unfold deleted
    split
    · rename_i r m todo done rest hstage
      rw [inHand, hstage] at hvalid
      exact sound_deleteNext _ now r _ todo hvalid
    · exact h

end Sweep

namespace Dispatcher

variable {d : Dispatcher} {now : Nat} {l : Label}

theorem mem_sweeps_dropSweep {id : Nat} {t : SweepTask} (ht : t ∈ (d.dropSweep id).sweeps) :
    t ∈ d.sweeps := by
  unfold dropSweep at ht
  split at ht
  · exact (List.mem_filter.mp ht).1
  · exact ht

theorem mem_sweeps_onSweep {id : Nat} {f : Sweep → Sweep} {t : SweepTask}
    (ht : t ∈ (d.onSweep id f).sweeps) :
    t ∈ d.sweeps ∨ ∃ u ∈ d.sweeps, t.sweep = f u.sweep := by
  obtain ⟨u, hu, rfl⟩ := List.mem_map.mp ht
  split
  · exact .inr ⟨u, hu, rfl⟩
  · exact .inl hu

/-- All that a step can do to sweeps: leave them, begin one, or move one on. -/
theorem mem_sweeps_step {t : SweepTask} (ht : t ∈ (d.step now l).sweeps) :
    t ∈ d.sweeps ∨ t.sweep = {} ∨ ∃ u ∈ d.sweeps, u.sweep.Moves d.rules t.sweep := by
  cases l with
  | beginSweep id =>
    rcases mem_sweeps_onSweep ht with h | ⟨u, hu, h⟩
    · exact .inl h
    · exact .inr (.inr ⟨u, hu, h ▸ .begins now⟩)
  | list id clock answer =>
    rcases mem_sweeps_onSweep ht with h | ⟨u, hu, h⟩
    · exact .inl h
    · exact .inr (.inr ⟨u, hu, h ▸ .lists now clock answer⟩)
  | delete id answer =>
    rcases mem_sweeps_onSweep ht with h | ⟨u, hu, h⟩
    · exact .inl h
    · exact .inr (.inr ⟨u, hu, h ▸ .deletes now answer⟩)
  | tick =>
    simp only [step, tick] at ht
    repeat' split at ht
    · exact .inl ht
    · rcases List.mem_append.mp ht with h | h
      · exact .inl h
      · rw [List.mem_singleton.mp h]
        exact .inr (.inl rfl)
    · exact .inl ht
    · exact .inl ht
  | finishSweep id =>
    simp only [step, finishSweep] at ht
    repeat' split at ht
    · exact .inl ht
    · exact .inl (mem_sweeps_dropSweep ht)
    · exact .inl ht
  | cancel id =>
    simp only [step, cancel] at ht
    split at ht
    · exact .inl (mem_sweeps_dropSweep (d := d.dropTask id) ht)
    · exact .inl ht
  | receive =>
    simp only [step, receive] at ht
    repeat' split at ht
    all_goals first
      | exact .inl ht
      | rw [hear_eq] at ht; exact .inl ht
  | disconnect | shutdown | begin | load | attempt | resume => exact .inl ht
  | arrive | leave | finish | join =>
    simp only [step, leave, finish, join] at ht
    repeat' split at ht
    all_goals exact .inl ht

/-! ## Rules in force -/

def hears? (d : Dispatcher) : Label → Option Event
  | .receive => if d.loop = .serving then d.inbox.head? else none
  | _ => none

def afterEvent (rules : List Rule) : Option Event → List Rule
  | some (.rulesUpdated update) => if update.all (·.validate.isOk) then update else rules
  | _ => rules

theorem isOk_iff {f : Except Failure Unit} : f.isOk = true ↔ f = .ok () := by
  cases f with
  | ok u => exact ⟨fun _ => rfl, fun _ => rfl⟩
  | error e => exact ⟨nofun, nofun⟩

theorem all_isOk_iff {rules : List Rule} :
    rules.all (·.validate.isOk) = true ↔ Rule.AllValid rules := by
  simp only [List.all_eq_true, isOk_iff, Rule.AllValid]

theorem afterEvent_some (rules : List Rule) (e : Event) :
    afterEvent rules (some e) = e.update?.getD rules := by
  cases e with
  | rulesUpdated update =>
    simp only [afterEvent, Event.update?]
    split
    · rename_i h
      rw [Rule.validateAll_eq_ok_iff.mpr (all_isOk_iff.mp h), Option.getD_some]
    · rename_i h
      split
      · rename_i hvalid
        exact absurd (all_isOk_iff.mpr (Rule.validateAll_eq_ok_iff.mp hvalid)) h
      · rfl
  | appPreStart | appReady | appExit | newMessage | smtpServerBind | ruleDispatchFailed => rfl

/-- The rules change only when an event is heard that puts others in force. -/
theorem rules_step (d : Dispatcher) (now : Nat) (l : Label) :
    (d.step now l).rules = afterEvent d.rules (d.hears? l) := by
  rcases d.step_cases now l with ⟨e, rfl, -, hstep⟩ | ⟨e, rest, rfl, hloop, hinbox, hstep⟩ |
    ⟨-, hreceive, -, hrules⟩
  · rw [hstep]
    rfl
  · rw [hstep, hears?, if_pos hloop, hinbox, List.head?_cons, afterEvent_some, hear_eq]
  · have hsilent : d.hears? l = none := by
      cases l with
      | receive =>
        simp only [hears?]
        split
        · rename_i hloop
          rw [hreceive rfl hloop, List.head?_nil]
        · rfl
      | _ => rfl
    rw [hrules, hsilent]
    rfl

theorem allValid_afterEvent {rules : List Rule} (h : Rule.AllValid rules) (e : Option Event) :
    Rule.AllValid (afterEvent rules e) := by
  unfold afterEvent
  split
  · split
    · rename_i hvalid
      exact all_isOk_iff.mp hvalid
    · exact h
  · exact h

/-- The rules in force, and those that sweeps have in hand, can be carried out. -/
structure Valid (d : Dispatcher) : Prop where
  rules : Rule.AllValid d.rules
  sweeps : ∀ t ∈ d.sweeps, t.sweep.Sound

theorem Valid.step (h : d.Valid) (now : Nat) (l : Label) : (d.step now l).Valid := by
  refine ⟨d.rules_step now l ▸ allValid_afterEvent h.rules _, fun t ht => ?_⟩
  rcases mem_sweeps_step ht with hold | hnew | ⟨u, hu, hmove⟩
  · exact h.sweeps t hold
  · rw [hnew]
    exact ⟨nofun, nofun⟩
  · exact (h.sweeps u hu).moves h.rules hmove

theorem Valid.steps (h : d.Valid) (ls : List (Nat × Label)) : (d.steps ls).Valid := by
  induction ls generalizing d with
  | nil => exact h
  | cons x ls ih => exact ih (h.step x.1 x.2)

/-- A dispatcher that begins with good rules, as those read from a text are, has good rules after
any row of steps: those of the last good update that it has heard, or those that it began with. An
update replaces the list as a whole if each rule in it can be carried out; nothing else changes it.
So no sweep ever has other rules in hand, or goes by a number of days out of range. -/
theorem rules_stay_valid (initial : List Rule) :
    (∀ fresh text, Rule.parseAll fresh text = .ok initial → Rule.AllValid initial) ∧
      (Rule.AllValid initial → ∀ ls,
        Rule.AllValid (reached initial ls).rules ∧
          (∃ heard, heard <+: arrivals ls ∧ (reached initial ls).rules = inForce initial heard) ∧
          (∀ now l, ((reached initial ls).step now l).rules =
            afterEvent (reached initial ls).rules ((reached initial ls).hears? l)) ∧
          ∀ t ∈ (reached initial ls).sweeps, Rule.AllValid t.sweep.inHand ∧
            ∀ days, t.sweep.days? = some days → 1 ≤ days.toNat ∧ days.toNat ≤ 3650) := by
  refine ⟨fun fresh text => Rule.allValid_of_parseAll, fun hinitial ls => ?_⟩
  have hvalid : (reached initial ls).Valid := by
    apply Valid.steps
    exact ⟨hinitial, nofun⟩
  refine ⟨hvalid.rules, ?_, fun now l => rules_step _ now l, fun t ht => ?_⟩
  · have hfresh : ({ rules := initial } : Dispatcher).rules = inForce initial [] := rfl
    obtain ⟨heard, hrules, hahead⟩ := ahead_append { rules := initial } ls hfresh
    have hcame : arrivals ls = heard ++ (reached initial ls).ahead [] := by
      have h := hahead []
      rwa [List.append_nil] at h
    exact ⟨heard, ⟨_, hcame.symm⟩, hrules⟩
  · have hsound := hvalid.sweeps t ht
    refine ⟨hsound.valid, fun days hdays => ?_⟩
    obtain ⟨r, hr, hrule⟩ := hsound.days days hdays
    exact Rule.days_of_validate (hsound.valid r hr) hrule

/-- A bad update is passed over, and a good one replaces the rules under which a sweep has begun. -/
theorem rules_stay_valid_swept :
    let monthly : Rule := { id := ⟨1⟩, action := .mailRetention 30 }
    let endless : Rule := { id := ⟨2⟩, action := .mailRetention 4000 }
    let weekly : Rule := { id := ⟨3⟩, action := .mailRetention 7 }
    let ls : List (Nat × Label) :=
      [(0, .arrive (.rulesUpdated [weekly, endless])), (0, .arrive (.rulesUpdated [weekly])),
        (0, .tick), (0, .beginSweep 0), (0, .receive), (0, .receive)]
    Rule.AllValid [monthly] ∧ Rule.AllValid (reached [monthly] ls).rules ∧
      (reached [monthly] ls).rules = [weekly] ∧
      (reached [monthly] ls).sweeps.map (·.sweep.days?) = [some 30] ∧
      ∀ t ∈ (reached [monthly] ls).sweeps, Rule.AllValid t.sweep.inHand := by
  intro monthly endless weekly ls
  have hmonthly : Rule.AllValid [monthly] := List.forall_mem_singleton.mpr rfl
  have hvalid := (rules_stay_valid [monthly]).2 hmonthly ls
  exact ⟨hmonthly, hvalid.1, rfl, rfl, fun t ht => (hvalid.2.2.2 t ht).1⟩

end Dispatcher

end Letterbox
