import Letterbox.Proofs.Net.Reassembly

/-!
# Rows of bytes as lines

Rows that are written one after the other, each ended by a line feed, are read as lines. They come
back as they were if none of them has a line feed in it.
-/

namespace Letterbox

set_option autoImplicit false

namespace Lines

theorem length_lines (bs : Bytes) : (lines bs).length = bs.count lf := by
  induction bs using induction_on_lines with
  | rest bs h => rw [lines_of_not_mem h, List.count_eq_zero_of_not_mem h, List.length_nil]
  | line l after h ih =>
    rw [lines_append_cons h, List.length_cons, ih, List.count_append, List.count_cons_self,
      List.count_eq_zero_of_not_mem h]
    omega

def ended (ks : List Bytes) : Bytes := ks.flatMap (· ++ [lf])

theorem ended_cons (k : Bytes) (ks : List Bytes) : ended (k :: ks) = k ++ lf :: ended ks := by
  simp only [ended, List.flatMap_cons, List.append_assoc, List.singleton_append]

theorem ended_append (ks more : List Bytes) : ended (ks ++ more) = ended ks ++ ended more :=
  List.flatMap_append

theorem count_ended_cons (k : Bytes) (ks : List Bytes) :
    (ended (k :: ks)).count lf = k.count lf + ((ended ks).count lf + 1) := by
  rw [ended_cons, List.count_append, List.count_cons_self]

theorem length_le_count_ended (ks : List Bytes) : ks.length ≤ (ended ks).count lf := by
  induction ks with
  | nil => exact Nat.zero_le _
  | cons k ks ih =>
    rw [count_ended_cons, List.length_cons]
    omega

theorem length_lt_count_ended {ks : List Bytes} {k : Bytes} (hk : k ∈ ks) (hlf : lf ∈ k) :
    ks.length < (ended ks).count lf := by
  induction ks with
  | nil => cases hk
  | cons j ks ih =>
    rw [count_ended_cons, List.length_cons]
    rcases List.mem_cons.mp hk with rfl | hk
    · have hpos := List.count_pos_iff.mpr hlf
      have hle := length_le_count_ended ks
      omega
    · have hlt := ih hk
      omega

theorem lines_ended {ks : List Bytes} (h : ∀ k ∈ ks, lf ∉ k) :
    lines (ended ks) = ks ∧ remainder (ended ks) = [] := by
  induction ks with
  | nil => exact ⟨rfl, rfl⟩
  | cons k ks ih =>
    obtain ⟨hlines, hremainder⟩ := ih fun j hj => h j (List.mem_cons_of_mem k hj)
    have hk := h k List.mem_cons_self
    rw [ended_cons, lines_append_cons hk, remainder_append_cons hk, hlines]
    exact ⟨rfl, hremainder⟩

theorem lines_ended_append {ks : List Bytes} (h : ∀ k ∈ ks, lf ∉ k) (rest : Bytes) :
    lines (ended ks ++ rest) = ks ++ lines rest := by
  induction ks with
  | nil => rfl
  | cons k ks ih =>
    rw [ended_cons, List.append_assoc, List.cons_append,
      lines_append_cons (h k List.mem_cons_self), ih fun j hj => h j (List.mem_cons_of_mem k hj)]
    rfl

/-- The rows come back just if there was no line feed in any of them. -/
theorem lines_ended_iff (ks : List Bytes) :
    (lines (ended ks) = ks ∧ remainder (ended ks) = []) ↔ ∀ k ∈ ks, lf ∉ k := by
  refine ⟨?_, lines_ended⟩
  intro h k hk hmem
  have hcount := congrArg List.length h.1
  rw [length_lines] at hcount
  have hlt := length_lt_count_ended hk hmem
  omega

theorem dropReturns_of_not_mem {bs : Bytes} (h : cr ∉ bs) : dropReturns bs = bs := by
  rw [dropReturns, List.filter_eq_self]
  exact fun b hb => bne_iff_ne.mpr (ne_of_mem_of_not_mem hb h)

theorem ended_dropReturns (ks : List Bytes) :
    ended (ks.map dropReturns) = dropReturns (ended ks) := by
  induction ks with
  | nil => rfl
  | cons k ks ih =>
    rw [List.map_cons, ended_cons, ended_cons, dropReturns_append, ih]
    rfl

theorem dropReturns_ended (ks : List Bytes) :
    dropReturns (ks.flatMap (· ++ [cr, lf])) = ended (ks.map dropReturns) := by
  induction ks with
  | nil => rfl
  | cons k ks ih =>
    rw [List.flatMap_cons, dropReturns_append, dropReturns_append, ih, List.map_cons, ended_cons,
      List.append_assoc]
    rfl

end Lines

end Letterbox
