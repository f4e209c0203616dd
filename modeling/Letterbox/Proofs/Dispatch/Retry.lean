import Letterbox.Dispatch.Retry

/-!
# Attempts that follow

Another attempt follows exactly if one may and the last one has failed.
-/

set_option autoImplicit false

namespace Letterbox.Retry

variable {α : Type} {action : String} {pause : Nat} {trial : Nat → Trial α}

theorem attempts_of_ok {number : Nat} {v : α} (h : (trial number).answer = .ok v)
    (left now : Nat) :
    (courseFrom action pause trial left number now).attempts = [⟨number, action, none⟩] := by
  unfold courseFrom
  simp only [h]

theorem attempts_of_error {number : Nat} {f : Failure} (h : (trial number).answer = .error f)
    (left now : Nat) :
    (courseFrom action pause trial left number now).attempts = ⟨number, action, some f.message⟩ ::
      match left with
      | 0 => []
      | left + 1 => (courseFrom action pause trial left (number + 1)
          (now + (trial number).takes + pause)).attempts := by
  rw [courseFrom]
  simp only [h]
  cases left <;> rfl

theorem attempts_ne_nil (left number now : Nat) :
    (courseFrom action pause trial left number now).attempts ≠ [] := by
  cases h : (trial number).answer with
  | ok v =>
    rw [attempts_of_ok h]
    exact List.cons_ne_nil _ _
  | error f =>
    rw [attempts_of_error h]
    exact List.cons_ne_nil _ _

theorem nothing_follows {attempts : List Attempt} {number : Nat} {e : Option String}
    {p : Nat → Prop} (h : attempts = [⟨number, action, e⟩]) (hp : ¬p number) :
    ∀ a ∈ attempts, number ≤ a.number ∧
      ((∃ b ∈ attempts, a.number < b.number) ↔ p a.number) := by
  intro a ha
  rw [h, List.mem_singleton] at ha
  subst ha
  refine ⟨Nat.le_refl number, iff_of_false ?_ hp⟩
  rintro ⟨b, hb, hlt⟩
  rw [h, List.mem_singleton] at hb
  subst hb
  exact Nat.lt_irrefl number hlt

/-- Another attempt follows exactly if one may and this one has failed. -/
theorem courseFrom_follows (left number now : Nat) :
    ∀ a ∈ (courseFrom action pause trial left number now).attempts,
      number ≤ a.number ∧
        ((∃ b ∈ (courseFrom action pause trial left number now).attempts, a.number < b.number) ↔
          a.number < number + left ∧ ∀ v, (trial a.number).answer ≠ .ok v) := by
  induction left generalizing number now with
  | zero =>
    obtain ⟨e, hsingle⟩ : ∃ e, (courseFrom action pause trial 0 number now).attempts =
        [⟨number, action, e⟩] := by
      cases h : (trial number).answer with
      | ok v => exact ⟨_, attempts_of_ok h 0 now⟩
      | error f => exact ⟨_, attempts_of_error h 0 now⟩
    exact nothing_follows (p := fun n => n < number + 0 ∧ ∀ v, (trial n).answer ≠ .ok v)
      hsingle (fun hmore => Nat.lt_irrefl number hmore.1)
  | succ left ih =>
    cases h : (trial number).answer with
    | ok v =>
      exact nothing_follows
        (p := fun n => n < number + (left + 1) ∧ ∀ v, (trial n).answer ≠ .ok v)
        (attempts_of_ok h (left + 1) now) (fun hmore => hmore.2 v h)
    | error f =>
      obtain ⟨later, hlater⟩ : ∃ later, now + (trial number).takes + pause = later := ⟨_, rfl⟩
      have hattempts : (courseFrom action pause trial (left + 1) number now).attempts =
          ⟨number, action, some f.message⟩ ::
            (courseFrom action pause trial left (number + 1) later).attempts := by
        rw [attempts_of_error h, hlater]
      rw [hattempts]
      -- The attempts behind this one are a course that begins with the next number.
      intro a ha
      rcases List.mem_cons.mp ha with rfl | ha
      · obtain ⟨b, hb⟩ := List.exists_mem_of_ne_nil _ (attempts_ne_nil left (number + 1) later)
        have hnumber : number < b.number := (ih (number + 1) later b hb).1
        refine ⟨Nat.le_refl number, iff_of_true ⟨b, List.mem_cons_of_mem _ hb, hnumber⟩ ?_⟩
        refine ⟨Nat.lt_add_of_pos_right (Nat.succ_pos left), fun v hv => ?_⟩
        dsimp only at hv
        rw [h] at hv
        cases hv
      · obtain ⟨hnumber, hfollows⟩ := ih (number + 1) later a ha
        refine ⟨Nat.le_of_succ_le hnumber, ?_⟩
        have hnot : ¬a.number < number := Nat.not_lt.mpr (Nat.le_of_succ_le hnumber)
        rw [← Nat.add_right_comm, Nat.add_assoc] at hfollows
        rw [← hfollows]
        simp only [List.mem_cons, exists_eq_or_imp, hnot, false_or]

theorem exists_first (maxAttempts : Nat) :
    ∃ a ∈ (course action maxAttempts pause trial).attempts, a.number = 1 := by
  rw [course]
  cases h : (trial 1).answer with
  | ok v =>
    rw [attempts_of_ok h]
    exact ⟨_, List.mem_cons_self, rfl⟩
  | error f =>
    rw [attempts_of_error h]
    exact ⟨_, List.mem_cons_self, rfl⟩

/-- In a course there is another attempt exactly if the limit allows one and this one has failed. -/
theorem course_follows {maxAttempts : Nat} {a : Attempt}
    (ha : a ∈ (course action maxAttempts pause trial).attempts) :
    (∃ b ∈ (course action maxAttempts pause trial).attempts, a.number < b.number) ↔
      a.number < limit maxAttempts ∧ ∀ v, (trial a.number).answer ≠ .ok v := by
  have hlimit : 1 + (limit maxAttempts - 1) = limit maxAttempts := by
    have : 1 ≤ limit maxAttempts := Nat.le_max_left 1 maxAttempts
    omega
  have hfollows := (courseFrom_follows (limit maxAttempts - 1) 1 0 a ha).2
  rwa [hlimit] at hfollows

end Letterbox.Retry
