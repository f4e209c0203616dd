import Letterbox.Dispatch.Clockwork
import Mathlib.Data.List.Basic

/-!
# What a sweep leaves

The rules of a sweep work one after the other on a store that becomes smaller. What one of them
could not delete the next one tries again. If the store refuses the same messages every time, then
all that comes of it is told from the list before the sweep.
-/

set_option autoImplicit false

namespace Letterbox

namespace Rule

def Expires (r : Rule) (clock : Int) (e : StoredMessage) : Prop :=
  r.enabled = true ∧ ∃ days, r.action = .mailRetention days ∧
    (1 ≤ days.toNat ∧ days.toNat ≤ 3650) ∧ (days.toNat : Int) * 86400000000000 < clock - e.createdAt

variable {r : Rule} {days : UInt32} {clock : Int} {e : StoredMessage}

theorem days?_eq_some :
    Retention.days? r = some days ↔ r.enabled = true ∧ r.action = .mailRetention days := by
  unfold Retention.days?
  split
  · rename_i hr haction
    simp [hr, haction]
  · rename_i hno
    constructor
    · intro h
      cases h
    · rintro ⟨hr, haction⟩
      exact absurd haction (hno days hr)

theorem validateRetention_eq_ok {u : Unit} :
    validateRetention days = .ok u ↔ 1 ≤ days.toNat ∧ days.toNat ≤ 3650 := by
  unfold validateRetention
  split
  · rename_i h
    exact ⟨fun _ => h, fun _ => rfl⟩
  · rename_i h
    exact ⟨nofun, fun h' => absurd h' h⟩

theorem expires_iff (hdays : Retention.days? r = some days) :
    r.Expires clock e ↔
      (1 ≤ days.toNat ∧ days.toNat ≤ 3650) ∧ isOverdue days e.createdAt clock = true := by
  obtain ⟨hr, haction⟩ := days?_eq_some.mp hdays
  rw [isOverdue, decide_eq_true_eq]
  constructor
  · rintro ⟨-, days', haction', h⟩
    obtain rfl : days = days' := by
      rw [haction] at haction'
      exact Action.mailRetention.inj haction'
    exact h
  · intro h
    exact ⟨hr, days, haction, h⟩

theorem not_expires (hdays : Retention.days? r = none) : ¬r.Expires clock e := by
  rintro ⟨hr, days, haction, -⟩
  rw [days?_eq_some.mpr ⟨hr, haction⟩] at hdays
  cases hdays

theorem not_expires_of_invalid {f : Failure} (hdays : Retention.days? r = some days)
    (hinvalid : validateRetention days = .error f) : ¬r.Expires clock e := by
  intro hexpires
  have hvalid := ((expires_iff hdays).mp hexpires).1
  rw [validateRetention_eq_ok (u := ()) |>.mpr hvalid] at hinvalid
  cases hinvalid

instance : Decidable (r.Expires clock e) :=
  match hdays : Retention.days? r with
  | none => isFalse (not_expires hdays)
  | some _ => decidable_of_iff _ (expires_iff hdays).symm

end Rule

namespace Retention

variable (answer : StoredMessage → Except Failure Unit) (clock : Int)

/-! ## All rules at once -/

/-- The store does not let go of the message. -/
def Stuck (e : StoredMessage) : Prop := (answer e).isOk = false

instance (e : StoredMessage) : Decidable (Stuck answer e) := inferInstanceAs (Decidable (_ = _))

/-- What some rules leave of messages. -/
def kept (rules : List Rule) (ms : List StoredMessage) : List StoredMessage :=
  ms.filter fun e => (∀ r ∈ rules, ¬r.Expires clock e) ∨ Stuck answer e

def outcomeOf (r : Rule) (days : UInt32) (ms : List StoredMessage) : Outcome :=
  match Rule.validateRetention days with
  | .error f => refused r f
  | .ok () => completed r ((expired days clock ms).map fun e => deletion e (answer e))

def outcomesOf : List Rule → List StoredMessage → List Outcome
  | [], _ => []
  | r :: rules, ms =>
    ((days? r).map fun days => outcomeOf answer clock r days ms).toList ++
      outcomesOf rules (kept answer clock [r] ms)

variable {answer clock} {rules before after : List Rule} {r : Rule} {days : UInt32}
  {ms : List StoredMessage} {e : StoredMessage}

theorem mem_kept : e ∈ kept answer clock rules ms ↔
    e ∈ ms ∧ ((∀ r ∈ rules, ¬r.Expires clock e) ∨ Stuck answer e) := by
  rw [kept, List.mem_filter, decide_eq_true_eq]

theorem kept_sublist (rules : List Rule) (ms : List StoredMessage) :
    (kept answer clock rules ms).Sublist ms := List.filter_sublist

theorem kept_append (before after : List Rule) (ms : List StoredMessage) :
    kept answer clock (before ++ after) ms =
      kept answer clock after (kept answer clock before ms) := by
  rw [kept, kept, kept, List.filter_filter]
  apply List.filter_congr
  intro e _
  rw [← Bool.decide_and]
  apply decide_eq_decide.mpr
  rw [List.forall_mem_append]
  tauto

theorem kept_cons (r : Rule) (rules : List Rule) (ms : List StoredMessage) :
    kept answer clock (r :: rules) ms = kept answer clock rules (kept answer clock [r] ms) :=
  kept_append [r] rules ms

@[simp] theorem kept_nil (ms : List StoredMessage) : kept answer clock [] ms = ms :=
  List.filter_eq_self.mpr fun _ _ => decide_eq_true (.inl (List.forall_mem_nil _))

theorem kept_of_not_expires (h : ∀ e, ¬r.Expires clock e) (ms : List StoredMessage) :
    kept answer clock [r] ms = ms :=
  List.filter_eq_self.mpr fun e _ => decide_eq_true (.inl (List.forall_mem_singleton.mpr (h e)))

/-- A rule that can be carried out deletes what it calls past its time. -/
theorem expired_eq (hdays : days? r = some days) (hvalid : 1 ≤ days.toNat ∧ days.toNat ≤ 3650) :
    expired days clock ms = ms.filter fun e => r.Expires clock e := by
  apply List.filter_congr
  intro e _
  rw [decide_eq_decide.mpr (Rule.expires_iff hdays), Bool.decide_and, decide_eq_true hvalid,
    Bool.true_and, Bool.decide_eq_true]

theorem outcomesOf_append (before after : List Rule) (ms : List StoredMessage) :
    outcomesOf answer clock (before ++ after) ms = outcomesOf answer clock before ms ++
      outcomesOf answer clock after (kept answer clock before ms) := by
  induction before generalizing ms with
  | nil => rw [List.nil_append, outcomesOf, List.nil_append, kept_nil]
  | cons r before ih =>
    rw [List.cons_append, outcomesOf, outcomesOf, ih, List.append_assoc, kept_cons r before]

/-- There is one outcome for each retention rule that is enabled. -/
theorem map_outcomesOf (rules : List Rule) (ms : List StoredMessage) :
    (outcomesOf answer clock rules ms).map (fun o => (o.ruleId, o.ruleKind)) =
      (rules.filter fun r => (days? r).isSome).map fun r => (r.id, r.kind) := by
  induction rules generalizing ms with
  | nil => rfl
  | cons r rules ih =>
    rw [outcomesOf, List.map_append, ih]
    cases hdays : days? r with
    | none => rw [List.filter_cons_of_neg (by simp [hdays])]; rfl
    | some days =>
      rw [List.filter_cons_of_pos (by simp [hdays]), List.map_cons, Option.map_some]
      unfold outcomeOf
      split <;> rfl

/-! ## One rule -/

theorem attempts_outcomeOf (hdays : days? r = some days) :
    (outcomeOf answer clock r days ms).attempts =
      (ms.filter fun e => r.Expires clock e).map fun e => deletion e (answer e) := by
  unfold outcomeOf
  split
  · rename_i f hf
    have hnone : (ms.filter fun e => r.Expires clock e) = [] := by
      refine List.filter_eq_nil_iff.mpr fun e _ hexpires => ?_
      exact Rule.not_expires_of_invalid hdays hf (of_decide_eq_true hexpires)
    rw [hnone]
    rfl
  · rename_i hvalid
    rw [expired_eq hdays (Rule.validateRetention_eq_ok.mp hvalid)]
    rfl

theorem succeeded_deletion (e : StoredMessage) (a : Except Failure Unit) :
    (deletion e a).succeeded = a.isOk := by
  cases a <;> rfl

/-- The failures are counted. -/
theorem error_outcomeOf (hdays : days? r = some days)
    (hvalid : 1 ≤ days.toNat ∧ days.toNat ≤ 3650) :
    (outcomeOf answer clock r days ms).error =
      let failures := (ms.filter fun e => r.Expires clock e).countP fun e => Stuck answer e
      if failures = 0 then none else some s!"{failures} deletion(s) failed" := by
  have hcount : ∀ l : List StoredMessage,
      ((l.map fun e => deletion e (answer e)).filter (!·.succeeded)).length =
        l.countP fun e => Stuck answer e := by
    intro l
    rw [← List.countP_eq_length_filter, List.countP_map]
    apply List.countP_congr
    intro e _
    rw [Function.comp_apply, succeeded_deletion, decide_eq_true_eq, Bool.not_eq_true', Stuck]
  unfold outcomeOf
  rw [Rule.validateRetention_eq_ok (u := ()) |>.mpr hvalid]
  dsimp only
  rw [completed, expired_eq hdays hvalid]
  dsimp only
  rw [hcount]

theorem success_outcomeOf (hdays : days? r = some days) :
    (outcomeOf answer clock r days ms).success = true ↔
      (1 ≤ days.toNat ∧ days.toNat ≤ 3650) ∧
        ∀ e ∈ ms, r.Expires clock e → ¬Stuck answer e := by
  by_cases hvalid : 1 ≤ days.toNat ∧ days.toNat ≤ 3650
  · rw [Outcome.success, error_outcomeOf hdays hvalid, and_iff_right hvalid]
    dsimp only
    split
    · rename_i hnone
      rw [List.countP_eq_zero] at hnone
      refine iff_of_true rfl fun e he hexpires hstuck => ?_
      exact hnone e (List.mem_filter.mpr ⟨he, decide_eq_true hexpires⟩) (decide_eq_true hstuck)
    · rename_i hsome
      rw [List.countP_eq_zero] at hsome
      refine iff_of_false Bool.false_ne_true fun hall => hsome fun e he hstuck => ?_
      obtain ⟨he, hexpires⟩ := List.mem_filter.mp he
      exact hall e he (of_decide_eq_true hexpires) (of_decide_eq_true hstuck)
  · refine iff_of_false ?_ fun h => hvalid h.1
    unfold outcomeOf
    split
    · exact Bool.false_ne_true
    · rename_i hok
      exact absurd (Rule.validateRetention_eq_ok.mp hok) hvalid

end Retention

/-! ## Step by step -/

namespace Sweep

variable {ω : Type}

/-- A step of a sweep: it begins, the store gives its list, or a deletion ends. -/
inductive Step (w : World ω) (rules : List Rule) (s : Sweep) (world : ω) : Sweep → ω → Prop where
  | begins (now : Nat) : s.stage = .waiting → Step w rules s world (s.begin now rules) world
  | lists {r : Rule} {days : UInt32} {since : Nat} {rest : List Rule} (now : Nat) :
    s.stage = .listing r days since rest →
      Step w rules s world (s.listed now (w.clock world) (w.list world)) world
  | deletes {r : Rule} {e : StoredMessage} {todo : List StoredMessage} {done : List Attempt}
      {rest : List Rule} (now : Nat) :
    s.stage = .deleting r e todo done rest →
      Step w rules s world (s.deleted now (w.delete world e).1) (w.delete world e).2

/-- Whatever time the steps take, they come to an end, with these outcomes, and leave this of the
world. -/
inductive ComesTo (w : World ω) (rules : List Rule) (outcomes : List Outcome) (left : ω) :
    Sweep → ω → Prop where
  | ended (s : Sweep) : s.isFinished = true → s.outcomes = outcomes →
    ComesTo w rules outcomes left s left
  | goesOn (s : Sweep) (world : ω) : (∃ s' world', Step w rules s world s' world') →
    (∀ s' world', Step w rules s world s' world' → ComesTo w rules outcomes left s' world') →
      ComesTo w rules outcomes left s world

/-- A store that lists what it holds, and refuses to delete the same messages every time. -/
structure Steady (w : World ω) (clock : Int) (answer : StoredMessage → Except Failure Unit)
    (Holds : List StoredMessage → ω → Prop) : Prop where
  clock : ∀ {ms world}, Holds ms world → w.clock world = clock
  list : ∀ {ms world}, Holds ms world → w.list world = .ok ms
  once : ∀ {ms world}, Holds ms world → ms.Nodup
  refuses : ∀ {ms world e f}, Holds ms world → e ∈ ms → answer e = .error f →
    w.delete world e = (.error f, world)
  deletes : ∀ {ms world e}, Holds ms world → e ∈ ms → answer e = .ok () →
    ∃ world', w.delete world e = (.ok (), world') ∧ Holds (ms.filter (· ≠ e)) world'

open Retention

section

variable {w : World ω} {clock : Int} {answer : StoredMessage → Except Failure Unit}
  {Holds : List StoredMessage → ω → Prop} {rules rest : List Rule} {r : Rule} {days : UInt32}
  {before os : List Outcome} {left world : ω} {ms todo : List StoredMessage} {e : StoredMessage}

/-! ### One step -/

theorem ComesTo.waiting (h : ∀ now, ComesTo w rules os left (next [] now rules) world) :
    ComesTo w rules os left {} world := by
  refine .goesOn _ _ ⟨_, _, .begins 0 rfl⟩ fun s' world' hstep => ?_
  cases hstep with
  | begins now hstage => exact h now
  | lists _ hstage => cases hstage
  | deletes _ hstage => cases hstage

theorem ComesTo.listing {since : Nat} (hlist : w.list world = .ok ms)
    (h : ∀ now, ComesTo w rules os left
      (deleteNext before now r [] rest (expired days (w.clock world) ms)) world) :
    ComesTo w rules os left ⟨before, .listing r days since rest⟩ world := by
  refine .goesOn _ _ ⟨_, _, .lists 0 rfl⟩ fun s' world' hstep => ?_
  cases hstep with
  | begins _ hstage => cases hstage
  | deletes _ hstage => cases hstage
  | lists now hstage =>
    cases hstage
    rw [hlist]
    exact h now

theorem ComesTo.deleting {done : List Attempt}
    (h : ∀ now, ComesTo w rules os left
      (deleteNext before now r (done ++ [deletion e (w.delete world e).1]) rest todo)
      (w.delete world e).2) :
    ComesTo w rules os left ⟨before, .deleting r e todo done rest⟩ world := by
  refine .goesOn _ _ ⟨_, _, .deletes 0 rfl⟩ fun s' world' hstep => ?_
  cases hstep with
  | begins _ hstage => cases hstage
  | lists _ hstage => cases hstage
  | deletes now hstage =>
    cases hstage
    exact h now

/-! ### All steps -/

/-- What is left of messages when the store was to delete some of them. -/
def without (answer : StoredMessage → Except Failure Unit) (todo ms : List StoredMessage) :
    List StoredMessage := ms.filter fun e => e ∉ todo ∨ Stuck answer e

theorem without_nil (ms : List StoredMessage) : without answer [] ms = ms :=
  List.filter_eq_self.mpr fun _ _ => decide_eq_true (.inl List.not_mem_nil)

theorem without_cons_of_stuck (he : Stuck answer e) (todo ms : List StoredMessage) :
    without answer (e :: todo) ms = without answer todo ms := by
  apply List.filter_congr
  intro x _
  apply decide_eq_decide.mpr
  by_cases hx : x = e
  · subst hx
    exact iff_of_true (.inr he) (.inr he)
  · rw [List.mem_cons, or_iff_right hx]

theorem without_cons_of_not_stuck (he : ¬Stuck answer e) (todo ms : List StoredMessage) :
    without answer (e :: todo) ms = without answer todo (ms.filter (· ≠ e)) := by
  rw [without, without, List.filter_filter]
  apply List.filter_congr
  intro x _
  rw [← Bool.decide_and]
  apply decide_eq_decide.mpr
  by_cases hx : x = e
  · subst hx
    simp [he]
  · simp [hx]

def Settled (answer : StoredMessage → Except Failure Unit) (clock : Int) (rules : List Rule)
    (ms : List StoredMessage) : Prop :=
  ∀ e ∈ ms, ∀ r ∈ rules, r.Expires clock e → Stuck answer e

theorem settled_cons : Settled answer clock (r :: rest) ms ↔
    (∀ e ∈ ms, r.Expires clock e → Stuck answer e) ∧ Settled answer clock rest ms := by
  simp only [Settled, List.forall_mem_cons]
  exact ⟨fun h => ⟨fun e he => (h e he).1, fun e he => (h e he).2⟩,
    fun h e he => ⟨h.1 e he, h.2 e he⟩⟩

def Clears (w : World ω) (clock : Int) (answer : StoredMessage → Except Failure Unit)
    (Holds : List StoredMessage → ω → Prop) (rules rest : List Rule) : Prop :=
  ∀ ms world, Holds ms world → ∃ left, Holds (kept answer clock rest ms) left ∧
    (Settled answer clock rest ms → left = world) ∧
    ∀ before now, ComesTo w rules (before ++ outcomesOf answer clock rest ms) left
      (next before now rest) world

/-- Deleting one message after the other. -/
theorem comesTo_deleteNext (hw : Steady w clock answer Holds)
    (hrest : Clears w clock answer Holds rules rest) (hms : Holds ms world) (hsub : todo ⊆ ms)
    (honce : todo.Nodup) :
    ∃ left, Holds (kept answer clock rest (without answer todo ms)) left ∧
      ((∀ e ∈ todo, Stuck answer e) → Settled answer clock rest ms → left = world) ∧
      ∀ before now done, ComesTo w rules
        (before ++ completed r (done ++ todo.map fun e => deletion e (answer e)) ::
          outcomesOf answer clock rest (without answer todo ms)) left
        (deleteNext before now r done rest todo) world := by
  induction todo generalizing ms world with
  | nil =>
    obtain ⟨left, hleft, hsame, hcomes⟩ := hrest ms world hms
    rw [without_nil]
    refine ⟨left, hleft, fun _ => hsame, fun before now done => ?_⟩
    rw [List.map_nil, List.append_nil, List.append_cons]
    exact hcomes (before ++ [completed r done]) now
  | cons e todo ih =>
    obtain ⟨he, hsub⟩ := List.cons_subset.mp hsub
    obtain ⟨hnew, honce⟩ := List.nodup_cons.mp honce
    simp only [List.map_cons]
    cases hanswer : answer e with
    | error f =>
      have hstuck : Stuck answer e := by
        rw [Stuck, hanswer]
        rfl
      have hdelete := hw.refuses hms he hanswer
      obtain ⟨left, hleft, hsame, hcomes⟩ := ih hms hsub honce
      rw [without_cons_of_stuck hstuck]
      refine ⟨left, hleft, fun hall => hsame (List.forall_mem_cons.mp hall).2,
        fun before now done => .deleting fun now' => ?_⟩
      rw [hdelete, List.append_cons done]
      exact hcomes before now' _
    | ok u =>
      have hgoes : ¬Stuck answer e := by
        rw [Stuck, hanswer]
        nofun
      obtain ⟨world', hdelete, hms'⟩ := hw.deletes hms he hanswer
      have hsub' : todo ⊆ ms.filter (· ≠ e) := by
        intro x hx
        refine List.mem_filter.mpr ⟨hsub hx, decide_eq_true ?_⟩
        rintro rfl
        exact hnew hx
      obtain ⟨left, hleft, -, hcomes⟩ := ih hms' hsub' honce
      rw [without_cons_of_not_stuck hgoes]
      refine ⟨left, hleft, fun hall => absurd (hall e List.mem_cons_self) hgoes,
        fun before now done => .deleting fun now' => ?_⟩
      rw [hdelete, List.append_cons done]
      exact hcomes before now' _

/-- A rule that deletes nothing does not matter. -/
theorem Clears.cons_of_not_expires (hrest : Clears w clock answer Holds rules rest)
    (hno : ∀ e, ¬r.Expires clock e) {o : Option Outcome}
    (hout : ∀ ms, (days? r).map (fun days => outcomeOf answer clock r days ms) = o)
    (hnext : ∀ before now, next before now (r :: rest) = next (before ++ o.toList) now rest) :
    Clears w clock answer Holds rules (r :: rest) := by
  intro ms world hms
  have hall : kept answer clock [r] ms = ms := kept_of_not_expires hno ms
  obtain ⟨left, hleft, hsame, hcomes⟩ := hrest ms world hms
  rw [kept_cons, outcomesOf, hall, hout]
  refine ⟨left, hleft, fun hsettled => hsame (settled_cons.mp hsettled).2, fun before now => ?_⟩
  rw [hnext, ← List.append_assoc]
  exact hcomes _ now

theorem Clears.cons_of_valid (hw : Steady w clock answer Holds)
    (hrest : Clears w clock answer Holds rules rest) (hdays : days? r = some days)
    (hvalid : Rule.validateRetention days = .ok ()) :
    Clears w clock answer Holds rules (r :: rest) := by
  intro ms world hms
  have hexpired : expired days clock ms = ms.filter fun e => r.Expires clock e :=
    expired_eq hdays (Rule.validateRetention_eq_ok.mp hvalid)
  have hnow : without answer (expired days clock ms) ms = kept answer clock [r] ms := by
    apply List.filter_congr
    intro e he
    apply decide_eq_decide.mpr
    rw [hexpired, List.mem_filter, decide_eq_true_eq, and_iff_right he, List.forall_mem_singleton]
  have hsub : expired days clock ms ⊆ ms := List.filter_subset_self ms
  obtain ⟨left, hleft, hsame, hcomes⟩ :=
    comesTo_deleteNext (r := r) hw hrest hms hsub ((hw.once hms).filter _)
  rw [hnow] at hleft hcomes
  rw [kept_cons, outcomesOf, hdays]
  refine ⟨left, hleft, fun hsettled => ?_, fun before now => ?_⟩
  · obtain ⟨hfirst, hsettled⟩ := settled_cons.mp hsettled
    refine hsame (fun e he => ?_) hsettled
    rw [hexpired] at he
    obtain ⟨he, hexpires⟩ := List.mem_filter.mp he
    exact hfirst e he (of_decide_eq_true hexpires)
  · have hout : outcomeOf answer clock r days ms =
        completed r ([] ++ (expired days clock ms).map fun e => deletion e (answer e)) := by
      unfold outcomeOf
      rw [hvalid]
      rfl
    have hnext : next before now (r :: rest) = ⟨before, .listing r days now rest⟩ := by
      rw [next, hdays]
      dsimp only
      rw [hvalid]
    rw [hnext, Option.map_some, Option.toList_some, List.singleton_append, hout]
    refine .listing (hw.list hms) fun now' => ?_
    rw [hw.clock hms]
    exact hcomes before now' []

theorem clears (hw : Steady w clock answer Holds) (rules rest : List Rule) :
    Clears w clock answer Holds rules rest := by
  induction rest with
  | nil =>
    intro ms world hms
    refine ⟨world, by rwa [kept_nil], fun _ => rfl, fun before now => ?_⟩
    exact .ended _ rfl (List.append_nil before).symm
  | cons r rest ih =>
    cases hdays : days? r with
    | none =>
      refine ih.cons_of_not_expires (o := none) (fun _ => Rule.not_expires hdays) ?_ ?_
      · intro ms
        rw [hdays, Option.map_none]
      · intro before now
        rw [next, hdays, Option.toList_none, List.append_nil]
    | some days =>
      cases hvalid : Rule.validateRetention days with
      | ok u => exact ih.cons_of_valid hw hdays hvalid
      | error f =>
        refine ih.cons_of_not_expires (o := some (refused r f))
          (fun _ => Rule.not_expires_of_invalid hdays hvalid) ?_ ?_
        · intro ms
          rw [hdays, Option.map_some]
          unfold outcomeOf
          rw [hvalid]
        · intro before now
          rw [next, hdays]
          dsimp only
          rw [hvalid, Option.toList_some]

/-- A sweep over a steady store. -/
theorem comesTo_waiting (hw : Steady w clock answer Holds) (rules : List Rule)
    (hms : Holds ms world) :
    ∃ left, Holds (kept answer clock rules ms) left ∧
      (Settled answer clock rules ms → left = world) ∧
      ComesTo w rules (outcomesOf answer clock rules ms) left {} world := by
  obtain ⟨left, hleft, hsame, hcomes⟩ := clears hw rules rules ms world hms
  exact ⟨left, hleft, hsame, .waiting fun now => hcomes [] now⟩

/-- After a sweep there is nothing left for another one. -/
theorem comesTo_again (hw : Steady w clock answer Holds) (rules : List Rule)
    (hms : Holds (kept answer clock rules ms) world) :
    ComesTo w rules (outcomesOf answer clock rules (kept answer clock rules ms)) world {}
      world := by
  obtain ⟨left, -, hsame, hcomes⟩ := comesTo_waiting hw rules hms
  obtain rfl : left = world := by
    refine hsame fun e he r hr hexpires => ?_
    exact (mem_kept.mp he).2.resolve_left fun hno => hno r hr hexpires
  exact hcomes

end

end Sweep

end Letterbox
