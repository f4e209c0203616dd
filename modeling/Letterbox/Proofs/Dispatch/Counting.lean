import Letterbox.Proofs.Dispatch.Courses
import Letterbox.Proofs.Dispatch.Retry
import Letterbox.Rule.Basic
import Mathlib.Data.List.Chain
import Mathlib.Data.List.Induction

/-!
# How often an action is tried

An action is tried until it succeeds, at least once and no more often than it may be. The attempts
are numbered without a gap, each begins a pause after the end of the one before, and the last of
them makes the result. A word of 32 bits is enough to count them.
-/

set_option autoImplicit false

namespace Letterbox.Retry

variable {α : Type} {action : String} {pause : Nat} {trial : Nat → Trial α}

namespace Trial

variable (t : Trial α)

def succeeds : Bool := t.answer.isOk

def error? : Option String :=
  match t.answer with
  | .ok _ => none
  | .error f => some f.message

def resultAt (number : Nat) : Except Failure α :=
  t.answer.mapError fun f => .dispatch number f.message

variable {t}

theorem exists_of_succeeds (h : t.succeeds = true) : ∃ a, t.answer = .ok a := by
  unfold succeeds at h
  cases ha : t.answer with
  | ok a => exact ⟨a, rfl⟩
  | error f =>
    rw [ha] at h
    cases h

theorem exists_of_not_succeeds (h : t.succeeds = false) : ∃ f, t.answer = .error f := by
  unfold succeeds at h
  cases ha : t.answer with
  | ok a =>
    rw [ha] at h
    cases h
  | error f => exact ⟨f, rfl⟩

end Trial

/-! ## The last attempt -/

/-- The number of the first attempt that succeeds, if there may be so many; otherwise the largest
number that there may be. -/
def lastNumber (most : Nat) (trial : Nat → Trial α) : Nat :=
  ((List.range' 1 most).find? fun k => (trial k).succeeds).getD most

theorem lastNumber_spec {most : Nat} (hmost : 1 ≤ most) (trial : Nat → Trial α) :
    1 ≤ lastNumber most trial ∧ lastNumber most trial ≤ most ∧
      (∀ k, 1 ≤ k → k < lastNumber most trial → (trial k).succeeds = false) ∧
      ((trial (lastNumber most trial)).succeeds = true ∨ lastNumber most trial = most) := by
  unfold lastNumber
  cases hfind : (List.range' 1 most).find? fun k => (trial k).succeeds with
  | none =>
    rw [List.find?_range'_eq_none] at hfind
    refine ⟨hmost, Nat.le_refl most, ?_, .inr rfl⟩
    intro k hk hlt
    have hfails := hfind k hk (by simp only [Option.getD_none] at hlt; omega)
    rwa [Bool.not_eq_true'] at hfails
  | some n =>
    rw [List.find?_range'_eq_some] at hfind
    obtain ⟨hsucceeds, hmem, hbefore⟩ := hfind
    rw [List.mem_range'_1] at hmem
    refine ⟨hmem.1, by simp only [Option.getD_some]; omega, ?_, .inl hsucceeds⟩
    intro k hk hlt
    have hfails := hbefore k hk hlt
    rwa [Bool.not_eq_true'] at hfails

/-! ## Courses -/

/-- The course of so many attempts, the first of which has the given number and begins at `now`. -/
structure Covers (action : String) (pause : Nat) (trial : Nat → Trial α) (first count now : Nat)
    (c : Course α) : Prop where
  numbers : c.began.map Prod.fst = List.range' first count
  opens : c.began.head? = some (first, now)
  apart : c.began.IsChain fun a b => b.2 = a.2 + (trial a.1).takes + pause
  closes : c.began.getLast?.map (fun a => a.2 + (trial a.1).takes) = some c.finish
  pauses : c.pauses = List.replicate (count - 1) pause
  attempts : c.attempts = (List.range' first count).map fun k => ⟨k, action, (trial k).error?⟩
  result : c.result = (trial (first + count - 1)).resultAt (first + count - 1)

theorem covers_single {number : Nat} {left : Nat}
    (h : (trial number).succeeds = true ∨ left = 0) (now : Nat) :
    Covers action pause trial number 1 now (courseFrom action pause trial left number now) := by
  cases ha : (trial number).answer with
  | ok a =>
    have hcourse : courseFrom action pause trial left number now =
        ⟨.ok a, [⟨number, action, none⟩], [(number, now)], [], now + (trial number).takes⟩ := by
      unfold courseFrom
      simp only [ha]
    rw [hcourse]
    refine ⟨rfl, rfl, List.isChain_singleton _, rfl, rfl, ?_, ?_⟩
    · simp only [List.range'_one, List.map_singleton, Trial.error?, ha]
    · simp only [Nat.add_sub_cancel, Trial.resultAt, ha]
      rfl
  | error f =>
    have hleft : left = 0 := by
      rcases h with hsucceeds | hleft
      · obtain ⟨a, hok⟩ := Trial.exists_of_succeeds hsucceeds
        rw [ha] at hok
        cases hok
      · exact hleft
    subst hleft
    have hcourse : courseFrom action pause trial 0 number now =
        ⟨.error (.dispatch number f.message), [⟨number, action, some f.message⟩], [(number, now)],
          [], now + (trial number).takes⟩ := by
      unfold courseFrom
      simp only [ha]
    rw [hcourse]
    refine ⟨rfl, rfl, List.isChain_singleton _, rfl, rfl, ?_, ?_⟩
    · simp only [List.range'_one, List.map_singleton, Trial.error?, ha]
    · simp only [Nat.add_sub_cancel, Trial.resultAt, ha]
      rfl

/-- A failure before other attempts. -/
theorem Covers.cons {number count now : Nat} {f : Failure} {c : Course α}
    (h : Covers action pause trial (number + 1) (count + 1) (now + (trial number).takes + pause) c)
    (ha : (trial number).answer = .error f) :
    Covers action pause trial number (count + 2) now
      { c with
        attempts := ⟨number, action, some f.message⟩ :: c.attempts
        began := (number, now) :: c.began
        pauses := pause :: c.pauses } := by
  obtain ⟨next, rest, hbegan⟩ : ∃ next rest, c.began = next :: rest := by
    cases hc : c.began with
    | nil =>
      have hopens := h.opens
      rw [hc] at hopens
      cases hopens
    | cons next rest => exact ⟨next, rest, rfl⟩
  have hnext : next = (number + 1, now + (trial number).takes + pause) := by
    have hopens := h.opens
    rw [hbegan] at hopens
    exact Option.some.inj hopens
  refine ⟨?_, rfl, ?_, ?_, ?_, ?_, ?_⟩
  · rw [List.map_cons, h.numbers, List.range'_succ (s := number)]
  · have hchain := h.apart
    rw [hbegan] at hchain ⊢
    rw [List.isChain_cons_cons]
    exact ⟨congrArg Prod.snd hnext, hchain⟩
  · have hcloses := h.closes
    rw [hbegan] at hcloses ⊢
    rwa [List.getLast?_cons_cons]
  · rw [h.pauses]
    rfl
  · rw [h.attempts, List.range'_succ (s := number), List.map_cons]
    simp only [Trial.error?, ha]
  · have hlast : number + (count + 2) - 1 = number + 1 + (count + 1) - 1 := by omega
    rw [hlast]
    exact h.result

/-- Attempts are made as long as they fail and another may follow. -/
theorem covers_courseFrom {most number now failures : Nat} (hmost : number + failures ≤ most)
    (hfailed : ∀ k, number ≤ k → k < number + failures → (trial k).succeeds = false)
    (hended : (trial (number + failures)).succeeds = true ∨ number + failures = most) :
    Covers action pause trial number (failures + 1) now
      (courseFrom action pause trial (most - number) number now) := by
  induction failures generalizing number now with
  | zero =>
    apply covers_single
    rcases hended with hsucceeds | hall
    · exact .inl hsucceeds
    · exact .inr (by omega)
  | succ failures ih =>
    obtain ⟨f, ha⟩ := Trial.exists_of_not_succeeds
      (hfailed number (Nat.le_refl number) (by omega))
    have hnext : number + 1 + failures = number + (failures + 1) := by omega
    have hrest : Covers action pause trial (number + 1) (failures + 1)
        (now + (trial number).takes + pause)
        (courseFrom action pause trial (most - (number + 1)) (number + 1)
          (now + (trial number).takes + pause)) := by
      apply ih
      · omega
      · intro k hk hlt
        exact hfailed k (by omega) (by omega)
      · rwa [hnext]
    rw [courseFrom_of_error (by omega) ha, if_neg (by omega)]
    exact hrest.cons ha

theorem covers_course (maxAttempts : Nat) :
    Covers action pause trial 1 (lastNumber (limit maxAttempts) trial) 0
      (course action maxAttempts pause trial) := by
  have hone : 1 ≤ limit maxAttempts := Nat.le_max_left 1 maxAttempts
  obtain ⟨hpos, hle, hfailed, hended⟩ := lastNumber_spec hone trial
  obtain ⟨failures, hn⟩ : ∃ failures, lastNumber (limit maxAttempts) trial = failures + 1 :=
    ⟨lastNumber (limit maxAttempts) trial - 1, by omega⟩
  rw [hn, Nat.add_comm failures 1] at hle hfailed hended
  rw [hn]
  exact covers_courseFrom hle hfailed hended

/-! ## Event by event -/

/-- What happens to trials: the attempt that is being made ends at `now`, or a pause is over. -/
inductive Happening where
  | answered (now : Nat)
  | resumed
deriving DecidableEq, Repr

namespace Trials

def happen (trial : Nat → Trial α) (t : Trials α) : Happening → Trials α
  | .answered now => t.answered now (trial t.number).answer
  | .resumed => t.resumed

theorem ending_foldl_happen (t : Trials α) (hs : List Happening) :
    (hs.foldl (happen trial) t).ending trial = t.ending trial := by
  induction hs generalizing t with
  | nil => rfl
  | cons h hs ih =>
    rw [List.foldl_cons, ih]
    cases h with
    | answered now => exact ending_answered t trial now
    | resumed => exact ending_resumed t

/-- Whatever happens, a failure ends trials exactly at the largest number. -/
theorem counted_foldl_happen (maxAttempts : Nat) (hs : List Happening) :
    (hs.foldl (happen trial) (start action maxAttempts pause)).Counted := by
  induction hs using List.reverseRecOn with
  | nil => exact counted_start action maxAttempts pause
  | append_singleton hs h ih =>
    rw [List.foldl_concat]
    cases h with
    | answered now => exact ih.answered now _
    | resumed => exact ih.resumed

/-- As long as trials have no result there is at least one more attempt to come. -/
theorem attempts_of_ending (trial : Nat → Trial α) (t : Trials α) :
    t.attempts <+: (t.ending trial).1 ∧
      (t.result? = none → t.number ≤ (t.ending trial).1.length) := by
  cases hphase : t.phase with
  | ended result =>
    simp only [ending, result?, hphase]
    exact ⟨List.prefix_rfl, fun h => by cases h⟩
  | trying | pausing =>
    have hne : (courseFrom t.action t.pause trial (t.limit - t.number) t.number 0).attempts ≠ [] :=
      attempts_ne_nil _ _ _
    have hmore := List.length_pos_iff.mpr hne
    simp only [ending, hphase, List.length_append]
    refine ⟨List.prefix_append _ _, fun _ => ?_⟩
    exact Nat.add_le_add_left hmore _

end Trials

/-- Retrying is bounded, exactly. Whatever the attempts are answered and however long they take: the
attempts that are made are those with the numbers from one to that of the first success, or to the
largest there may be; one begins a pause after the end of the one before; each is recorded, with its
own error; and the last makes the result. They can be counted in 32 bits, also under a policy, which
allows one attempt more than it has retries. Where the attempts are answered one event at a time, no
other attempt is ever begun, and the end is the same. -/
theorem tried_exactly (action : String) (maxAttempts : UInt32) (pause : Nat)
    (trial : Nat → Trial α) :
    let n := lastNumber (max 1 maxAttempts.toNat) trial
    let c := course action maxAttempts.toNat pause trial
    Covers action pause trial 1 n 0 c ∧
      n < UInt32.size ∧
      (∀ p : RetryPolicy, p.maxAttempts < UInt32.size ∧
        max 1 p.maxAttempts = min (p.retries.toNat + 1) (UInt32.size - 1)) ∧
      ∀ hs : List Happening,
        let t := hs.foldl (Trials.happen trial) (.start action maxAttempts.toNat pause)
        t.attempts <+: c.attempts ∧ (t.result? = none → t.number ≤ n) ∧
          ∀ result, t.result? = some result → t.attempts = c.attempts ∧ result = c.result := by
  intro n c
  have hcovers : Covers action pause trial 1 n 0 c := covers_course maxAttempts.toNat
  have hcount : c.attempts.length = n := by
    rw [hcovers.attempts, List.length_map, List.length_range']
  refine ⟨hcovers, ?_, ?_, ?_⟩
  · have hle := (lastNumber_spec (Nat.le_max_left 1 maxAttempts.toNat) trial).2.1
    have hword := maxAttempts.toNat_lt_size
    have hone : 1 < UInt32.size := by decide
    exact Nat.lt_of_le_of_lt hle (Nat.max_lt.mpr ⟨hone, hword⟩)
  · intro p
    have hretries := p.retries.toNat_lt_size
    simp only [RetryPolicy.maxAttempts, UInt32.size] at hretries ⊢
    omega
  · intro hs t
    have hending : t.ending trial = c.ending :=
      Trials.ending_foldl_happen (.start action maxAttempts.toNat pause) hs
    obtain ⟨hbegins, hmore⟩ := Trials.attempts_of_ending trial t
    rw [hending] at hbegins hmore
    refine ⟨hbegins, fun hnone => hcount ▸ hmore hnone, ?_⟩
    intro result hresult
    rw [Trials.ending_of_result t hresult] at hending
    exact ⟨congrArg Prod.fst hending, congrArg Prod.snd hending⟩

end Letterbox.Retry
