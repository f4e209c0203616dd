import Letterbox.Proofs.Text.Cuts
import Letterbox.Proofs.Text.Plain
import Letterbox.Rule.Uuid
import Mathlib.Algebra.Group.Nat.Defs

/-!
# Identifiers there and back

An identifier is read back from the text that it is written as.
-/

namespace Letterbox

set_option autoImplicit false

open Text

namespace Uuid

theorem hyphen_not_mem_fixedDigits (width n : Nat) : '-' ∉ fixedDigits 16 width n := by
  intro hmem
  have hall : ∀ d : Fin 16, '-' ≠ digitChar d := by decide
  obtain ⟨d, hd, heq⟩ := mem_fixedDigits hmem
  exact hall ⟨d, hd⟩ heq

/-- Hexadecimal digits are read back as the number that they were made from, as far as their width
holds it. -/
theorem foldlM_fixedDigits (width n acc : Nat) :
    (fixedDigits 16 width n).foldlM (fun n c => (hexDigit? c).map (n * 16 + ·)) acc =
      some (acc * 16 ^ width + n % 16 ^ width) := by
  induction width generalizing n with
  | zero => simp [fixedDigits, Nat.mod_one]
  | succ width ih =>
    have hdigit := hexDigit?_digitChar (Nat.mod_lt n (show 0 < 16 by decide))
    have hsplit : n % 16 ^ (width + 1) = n / 16 % 16 ^ width * 16 + n % 16 := by
      rw [Nat.pow_succ, Nat.mul_comm _ 16, Nat.mod_mul]
      omega
    rw [fixedDigits, List.foldlM_append, ih]
    simp only [List.foldlM_cons, List.foldlM_nil, bind, Option.bind, hdigit, Option.map_some, pure]
    rw [hsplit, Nat.pow_succ]
    congr 1
    rw [Nat.add_mul, Nat.mul_assoc, Nat.add_assoc]

theorem ofDigits?_fixedDigits (u : Uuid) : ofDigits? (fixedDigits 16 32 u.bits.toNat) = some u := by
  have hlt : u.bits.toNat < 16 ^ 32 := u.bits.isLt
  rw [ofDigits?, if_pos (length_fixedDigits 16 32 _), foldlM_fixedDigits, Nat.mod_eq_of_lt hlt,
    Nat.zero_mul, Nat.zero_add, Option.map_some, BitVec.ofNat_toNat, BitVec.setWidth_eq]

theorem ofGroups?_groups (u : Uuid) : ofGroups? (['-'].intercalate u.groups) = some u := by
  have hdigits := u.ofDigits?_fixedDigits
  have hlen := length_fixedDigits 16 32 u.bits.toNat
  have hhyphen := hyphen_not_mem_fixedDigits 32 u.bits.toNat
  rw [groups]
  generalize fixedDigits 16 32 u.bits.toNat = ds at hdigits hlen hhyphen
  rw [ofGroups?, splitAt_intercalate]
  · have hjoin : ds.take 8 ++ (ds.drop 8).take 4 ++ (ds.drop 12).take 4 ++ (ds.drop 16).take 4 ++
        ds.drop 20 = ds := by
      rw [← List.take_add, ← List.take_add, ← List.take_add, List.take_append_drop]
    dsimp only
    rw [if_pos (by simp only [List.length_take, List.length_drop, hlen]; decide), hjoin, hdigits]
  · intro w hw hmem
    apply hhyphen
    simp only [List.mem_cons, List.not_mem_nil, or_false] at hw
    rcases hw with rfl | rfl | rfl | rfl | rfl
    · exact List.mem_of_mem_take hmem
    · exact List.mem_of_mem_drop (List.mem_of_mem_take hmem)
    · exact List.mem_of_mem_drop (List.mem_of_mem_take hmem)
    · exact List.mem_of_mem_drop (List.mem_of_mem_take hmem)
    · exact List.mem_of_mem_drop hmem

theorem ofText?_toText (u : Uuid) : ofText? u.toText = some u := by
  have hgroups := u.ofGroups?_groups
  have hlen : (['-'].intercalate u.groups).length = 36 := by
    simp only [groups, List.intercalate_cons_cons, List.intercalate_singleton, List.length_append,
      List.length_take, List.length_drop, length_fixedDigits]
    decide
  have hdigits : ofDigits? (['-'].intercalate u.groups) = none := by
    rw [ofDigits?, hlen]
    rfl
  simp only [ofText?, toText, String.toList_ofList, hdigits, hgroups]

end Uuid

end Letterbox
