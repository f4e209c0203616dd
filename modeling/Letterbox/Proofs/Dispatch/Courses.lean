import Letterbox.Dispatch.Retry

/-!
# Trials and their course

Trials that are answered one event at a time end as the course that was worked out at once, whenever
the events happen. Every event brings the end nearer.
-/

set_option autoImplicit false

namespace Letterbox.Retry

variable {α : Type} {action : String} {pause : Nat} {trial : Nat → Trial α}

/-! ## Courses -/

def Course.ending (c : Course α) : List Attempt × Except Failure α := (c.attempts, c.result)

theorem ending_of_ok {number : Nat} {a : α} (h : (trial number).answer = .ok a) (left now : Nat) :
    (courseFrom action pause trial left number now).ending = ([⟨number, action, none⟩], .ok a) := by
  unfold courseFrom
  simp only [h, Course.ending]

theorem ending_of_error {number : Nat} {f : Failure} (h : (trial number).answer = .error f)
    (left now : Nat) :
    (courseFrom action pause trial left number now).ending = match left with
      | 0 => ([⟨number, action, some f.message⟩], .error (.dispatch number f.message))
      | left + 1 =>
        let rest := (courseFrom action pause trial left (number + 1)
          (now + (trial number).takes + pause)).ending
        (⟨number, action, some f.message⟩ :: rest.1, rest.2) := by
  rw [courseFrom]
  simp only [h]
  cases left <;> rfl

/-- The countdown is what the number of the attempt lacks to the largest one, so that a failure ends
the course where the two are equal and nowhere else. -/
theorem courseFrom_of_error {most number : Nat} {f : Failure} (hle : number ≤ most)
    (h : (trial number).answer = .error f) (now : Nat) :
    courseFrom action pause trial (most - number) number now =
      if number = most then
        ⟨.error (.dispatch number f.message), [⟨number, action, some f.message⟩], [(number, now)],
          [], now + (trial number).takes⟩
      else
        let c := courseFrom action pause trial (most - (number + 1)) (number + 1)
          (now + (trial number).takes + pause)
        { c with
          attempts := ⟨number, action, some f.message⟩ :: c.attempts
          began := (number, now) :: c.began
          pauses := pause :: c.pauses } := by
  split
  · rename_i heq
    subst heq
    rw [Nat.sub_self, courseFrom]
    simp only [h]
  · have hleft : most - number = most - (number + 1) + 1 := by omega
    rw [hleft, courseFrom]
    simp only [h]

/-- It does not matter when a course begins. -/
theorem ending_courseFrom (left number now later : Nat) :
    (courseFrom action pause trial left number now).ending =
      (courseFrom action pause trial left number later).ending := by
  induction left generalizing number now later with
  | zero =>
    cases h : (trial number).answer with
    | ok a => rw [ending_of_ok h, ending_of_ok h]
    | error f => rw [ending_of_error h, ending_of_error h]
  | succ left ih =>
    cases h : (trial number).answer with
    | ok a => rw [ending_of_ok h, ending_of_ok h]
    | error f =>
      rw [ending_of_error h, ending_of_error h]
      simp only [ih (number + 1) _ (later + (trial number).takes + pause)]

theorem length_attempts_courseFrom (left number now : Nat) :
    (courseFrom action pause trial left number now).ending.1.length ≤ left + 1 := by
  induction left generalizing number now with
  | zero =>
    cases h : (trial number).answer with
    | ok a => rw [ending_of_ok h]; exact Nat.le_refl _
    | error f => rw [ending_of_error h]; exact Nat.le_refl _
  | succ left ih =>
    cases h : (trial number).answer with
    | ok a => rw [ending_of_ok h]; exact Nat.le_add_left _ _
    | error f => rw [ending_of_error h]; exact Nat.succ_le_succ (ih _ _)

/-- An action is not tried more often than it may be. -/
theorem length_attempts_course (maxAttempts : Nat) :
    (course action maxAttempts pause trial).attempts.length ≤ limit maxAttempts := by
  have hone : 1 ≤ limit maxAttempts := Nat.le_max_left 1 maxAttempts
  have hlength : (course action maxAttempts pause trial).attempts.length ≤
      limit maxAttempts - 1 + 1 := length_attempts_courseFrom _ _ _
  omega

namespace Trials

variable (t : Trials α)

/-! ## Where trials end -/

/-- What trials come to if every further attempt is answered as its number says. -/
def ending (trial : Nat → Trial α) : List Attempt × Except Failure α :=
  match t.phase with
  | .ended result => (t.attempts, result)
  | .trying | .pausing _ =>
    let c := (courseFrom t.action t.pause trial (t.limit - t.number) t.number 0).ending
    (t.attempts ++ c.1, c.2)

theorem ending_start (maxAttempts : Nat) :
    (start action maxAttempts pause).ending trial =
      (course action maxAttempts pause trial).ending :=
  rfl

theorem ending_of_result {result : Except Failure α} (h : t.result? = some result) :
    t.ending trial = (t.attempts, result) := by
  unfold result? at h
  split at h
  · cases h
    simp only [ending, *]
  · cases h
  · cases h

theorem ending_answered (trial : Nat → Trial α) (now : Nat) :
    (t.answered now (trial t.number).answer).ending trial = t.ending trial := by
  cases hphase : t.phase with
  | trying =>
    cases h : (trial t.number).answer with
    | ok a => simp only [answered, ending, hphase, ending_of_ok h]
    | error f =>
      by_cases hlast : t.limit ≤ t.number
      · have hleft : t.limit - t.number = 0 := by omega
        simp only [answered, ending, hphase, hlast, if_true, hleft, ending_of_error h]
      · obtain ⟨left, hleft⟩ : ∃ left, t.limit - t.number = left + 1 :=
          ⟨t.limit - t.number - 1, by omega⟩
        have hanswered : t.answered now (.error f) =
            { t with
              attempts := t.attempts ++ [⟨t.number, t.action, some f.message⟩]
              phase := .pausing (now + t.pause) } := by
          simp only [answered, hphase, hlast, if_false]
        have hnumber : (t.answered now (.error f)).number = t.number + 1 := by
          simp [hanswered, number]
        have hnext : t.limit - (t.number + 1) = left := by omega
        rw [hanswered] at hnumber ⊢
        simp only [ending, hphase, hleft, ending_of_error h, hnumber, hnext]
        rw [ending_courseFrom _ _ 0 (0 + (trial t.number).takes + t.pause), List.append_assoc,
          List.singleton_append]
  | pausing | ended => simp only [answered, hphase]

theorem ending_resumed : t.resumed.ending trial = t.ending trial := by
  cases hphase : t.phase with
  | pausing => simp only [resumed, ending, hphase, number]
  | trying | ended => simp only [resumed, hphase]

/-! ## How often it is tried -/

/-- Trials that go on are at an attempt that may still be made. -/
def Counted (t : Trials α) : Prop := t.result? = none → t.number ≤ t.limit

theorem counted_start (action : String) (maxAttempts pause : Nat) :
    (start (α := α) action maxAttempts pause).Counted :=
  fun _ => Nat.le_max_left 1 maxAttempts

variable {t}

/-- A failure ends trials where the number of the attempt is the largest one; before that another
attempt comes after a pause. -/
theorem Counted.phase_answered (h : t.Counted) (hphase : t.phase = .trying) (now : Nat)
    (f : Failure) : (t.answered now (.error f)).phase =
      if t.number = t.limit then .ended (.error (.dispatch t.number f.message))
      else .pausing (now + t.pause) := by
  have hle := h (by simp only [result?, hphase])
  have hexit : t.limit ≤ t.number ↔ t.number = t.limit := by omega
  simp only [answered, hphase, hexit]

theorem Counted.answered (h : t.Counted) (now : Nat) (answer : Except Failure α) :
    (t.answered now answer).Counted := by
  cases hphase : t.phase with
  | trying =>
    cases answer with
    | ok a =>
      intro hnone
      simp only [Trials.answered, result?, hphase] at hnone
      cases hnone
    | error f =>
      intro hnone
      have hnext := h.phase_answered hphase now f
      have hle := h (by simp only [result?, hphase])
      split at hnext
      · simp only [result?, hnext] at hnone
        cases hnone
      · simp only [Trials.answered, hphase, number, List.length_append, List.length_singleton]
        simp only [number] at *
        omega
  | pausing | ended => simpa only [Trials.answered, hphase] using h

theorem Counted.resumed (h : t.Counted) : t.resumed.Counted := by
  cases hphase : t.phase with
  | pausing =>
    have hle := h (by simp only [result?, hphase])
    intro _
    simpa only [Trials.resumed, hphase, number] using hle
  | trying | ended => simpa only [Trials.resumed, hphase] using h

variable (t)

/-! ## How far it is to the end -/

/-- More than the number of events that trials can still take. -/
def togo : Nat :=
  match t.phase with
  | .ended _ => 0
  | .trying => 2 * (t.limit - t.attempts.length) + 2
  | .pausing _ => 2 * (t.limit - t.attempts.length) + 3

theorem togo_answered (now : Nat) (answer : Except Failure α) (h : t.phase = .trying) :
    (t.answered now answer).togo < t.togo := by
  cases answer with
  | ok a => simp [answered, togo, h]
  | error f =>
    by_cases hlast : t.limit ≤ t.number
    · simp [answered, togo, h, hlast]
    · simp only [answered, togo, h, hlast, if_false, List.length_append, List.length_singleton]
      have hmore : t.attempts.length + 1 < t.limit := Nat.not_le.mp hlast
      omega

theorem togo_resumed {til : Nat} (h : t.phase = .pausing til) : t.resumed.togo < t.togo := by
  simp [resumed, togo, h]

end Trials

end Letterbox.Retry
