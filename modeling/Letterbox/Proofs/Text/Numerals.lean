import Letterbox.Proofs.Text.Plain
import Letterbox.Text.Numeral

/-!
# Numerals and their numbers

A row of digits is read as the number that it denotes, unless that number is beyond the limit of the
reader.
-/

namespace Letterbox.Text

set_option autoImplicit false

theorem digitsFrom_of_digits {ds : List Char} (h : ∀ d ∈ ds, 48 ≤ d.toNat ∧ d.toNat ≤ 57)
    (acc : Nat) : digitsFrom acc ds = some (Nat.ofDigitChars 10 ds acc) := by
  induction ds generalizing acc with
  | nil => rfl
  | cons d ds ih =>
    have hdigit : digit? d = some (d.toNat - 48) := if_pos (h d List.mem_cons_self)
    simp only [digitsFrom, hdigit, Nat.ofDigitChars_cons]
    exact ih (fun c hc => h c (List.mem_cons_of_mem d hc)) _

/-- A number that is beyond the limit is not read at all. -/
theorem numeral?_of_digits {ds : List Char} (hne : ds ≠ [])
    (h : ∀ d ∈ ds, 48 ≤ d.toNat ∧ d.toNat ≤ 57) (limit : Nat) :
    numeral? limit ds =
      if Nat.ofDigitChars 10 ds 0 ≤ limit then some (Nat.ofDigitChars 10 ds 0) else none := by
  have hread : digits? ds = some (Nat.ofDigitChars 10 ds 0) := by
    obtain ⟨d, ds, rfl⟩ := List.exists_cons_of_ne_nil hne
    exact digitsFrom_of_digits h 0
  unfold numeral?
  split
  · exact absurd (h '+' List.mem_cons_self).1 (by decide)
  · simp only [hread, Option.filter_some, decide_eq_true_eq]

theorem numeral?_toDigits {n limit : Nat} (h : n ≤ limit) :
    numeral? limit (Nat.toDigits 10 n) = some n := by
  rw [numeral?_of_digits Nat.toDigits_ne_nil fun _ hd => digit_of_mem_toDigits hd,
    Nat.ofDigitChars_ten_toDigits, if_pos h]

end Letterbox.Text
