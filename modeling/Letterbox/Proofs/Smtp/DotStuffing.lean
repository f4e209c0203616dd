import Letterbox.Proofs.Net.Reassembly
import Letterbox.Smtp.DotStuffing
import Letterbox.Smtp.Receiver

/-!
# Dot stuffing is undone

A message made of whole lines is sent as these lines, stuffed. None of them is taken for the end of
the message, and what is heard of them is the message.
-/

namespace Letterbox

set_option autoImplicit false

open Lines

def Unbroken (l : Bytes) : Prop := cr ∉ l ∧ lf ∉ l

namespace Lines

theorem lines_rows {ks : List Bytes} (h : ∀ k ∈ ks, Unbroken k) :
    lines (dropReturns (ks.flatMap (· ++ [cr, lf]))) = ks ∧
      remainder (dropReturns (ks.flatMap (· ++ [cr, lf]))) = [] := by
  induction ks with
  | nil => exact ⟨rfl, rfl⟩
  | cons k ks ih =>
    obtain ⟨hcr, hlf⟩ := h k List.mem_cons_self
    obtain ⟨hlines, hremainder⟩ := ih fun j hj => h j (List.mem_cons_of_mem k hj)
    have hkeep : dropReturns k = k := by
      rw [dropReturns, List.filter_eq_self]
      intro b hb
      rw [bne_iff_ne]
      rintro rfl
      exact hcr hb
    have hdrop : dropReturns ((k :: ks).flatMap (· ++ [cr, lf])) =
        k ++ lf :: dropReturns (ks.flatMap (· ++ [cr, lf])) := by
      rw [List.flatMap_cons, dropReturns_append, dropReturns_append, hkeep, List.append_assoc]
      rfl
    rw [hdrop, lines_append_cons hlf, remainder_append_cons hlf, hlines]
    exact ⟨rfl, hremainder⟩

end Lines

namespace Smtp

open Receiver

theorem splitLf_of_not_mem {bs : Bytes} (h : lf ∉ bs) : splitLf bs = [bs] := by
  induction bs with
  | nil => rfl
  | cons b rest ih =>
    rw [List.mem_cons, not_or] at h
    simp only [splitLf, if_neg (Ne.symm h.1), ih h.2]

theorem splitLf_append_cons {l : Bytes} (h : lf ∉ l) (after : Bytes) :
    splitLf (l ++ lf :: after) = l :: splitLf after := by
  induction l with
  | nil => simp only [List.nil_append, splitLf, if_true]
  | cons b rest ih =>
    rw [List.mem_cons, not_or] at h
    simp only [List.cons_append, splitLf, if_neg (Ne.symm h.1), ih h.2]

theorem splitLf_dropLast_rows {l : Bytes} {ls : List Bytes}
    (h : ∀ k ∈ l :: ls, Unbroken k) :
    splitLf ((l :: ls).flatMap (· ++ [cr, lf])).dropLast = (l :: ls).map (· ++ [cr]) := by
  induction ls generalizing l with
  | nil =>
    have hlf : lf ∉ l ++ [cr] := by
      simp only [List.mem_append, List.mem_singleton, not_or]
      exact ⟨(h l List.mem_cons_self).2, by decide⟩
    have hdrop : ([l].flatMap (· ++ [cr, lf])).dropLast = l ++ [cr] := by
      rw [List.flatMap_singleton, List.dropLast_append_of_ne_nil (List.cons_ne_nil _ _)]
      rfl
    rw [hdrop, splitLf_of_not_mem hlf]
    rfl
  | cons k ks ih =>
    have hlf : lf ∉ l ++ [cr] := by
      simp only [List.mem_append, List.mem_singleton, not_or]
      exact ⟨(h l List.mem_cons_self).2, by decide⟩
    have hne : (k :: ks).flatMap (· ++ [cr, lf]) ≠ [] := by simp
    have hdrop : ((l :: k :: ks).flatMap (· ++ [cr, lf])).dropLast =
        l ++ [cr] ++ lf :: ((k :: ks).flatMap (· ++ [cr, lf])).dropLast := by
      rw [List.flatMap_cons, List.dropLast_append_of_ne_nil hne, List.append_assoc,
        List.append_assoc]
      rfl
    rw [hdrop, splitLf_append_cons hlf, ih fun j hj => h j (List.mem_cons_of_mem l hj)]
    rfl

theorem messageLines_rows {l : Bytes} {ls : List Bytes} (h : ∀ k ∈ l :: ls, Unbroken k) :
    messageLines ((l :: ls).flatMap (· ++ [cr, lf])) = l :: ls := by
  have hlast : ((l :: ls).flatMap (· ++ [cr, lf])).getLast? = some lf := by
    rw [← List.dropLast_concat_getLast (List.cons_ne_nil l ls), List.flatMap_append,
      List.flatMap_singleton, ← List.append_assoc, List.getLast?_append]
    rfl
  simp only [messageLines, hlast, if_true, splitLf_dropLast_rows h, List.map_map]
  conv => rhs; rw [← List.map_id (l :: ls)]
  apply List.map_congr_left
  intro k _
  simp

def stuffed (l : Bytes) : Bytes := if l.head? = some 46 then 46 :: l else l

theorem stuffed_dot (rest : Bytes) : stuffed (46 :: rest) = 46 :: 46 :: rest := rfl

theorem stuffed_of_ne {l : Bytes} (h : l.head? ≠ some 46) : stuffed l = l := if_neg h

theorem stuffLine_eq (l : Bytes) : stuffLine l = stuffed l ++ [cr, lf] := by
  unfold stuffLine
  split
  · rfl
  · rename_i hne
    rw [stuffed_of_ne]
    · rfl
    · intro hhead
      obtain ⟨rest, rfl⟩ := List.head?_eq_some_iff.mp hhead
      exact hne rest rfl

theorem unstuff_stuffed (l : Bytes) : unstuff (stuffed l) = l := by
  by_cases h : l.head? = some 46
  · obtain ⟨rest, rfl⟩ := List.head?_eq_some_iff.mp h
    rfl
  · rw [stuffed_of_ne h]
    unfold unstuff
    split
    · exact absurd rfl h
    · rfl

theorem stuffed_ne_terminator (l : Bytes) : stuffed l ≠ terminator := by
  by_cases h : l.head? = some 46
  · obtain ⟨rest, rfl⟩ := List.head?_eq_some_iff.mp h
    simp [stuffed_dot, terminator]
  · rw [stuffed_of_ne h]
    rintro rfl
    exact h rfl

theorem stuffed_unbroken {l : Bytes} (h : Unbroken l) : Unbroken (stuffed l) := by
  by_cases hdot : l.head? = some 46
  · rw [stuffed, if_pos hdot]
    exact ⟨List.not_mem_cons_of_ne_of_not_mem (by decide) h.1,
      List.not_mem_cons_of_ne_of_not_mem (by decide) h.2⟩
  · rwa [stuffed_of_ne hdot]

theorem dotStuff_rows {ls : List Bytes} (h : ∀ l ∈ ls, Unbroken l) :
    dotStuff (ls.flatMap (· ++ [cr, lf])) = (ls.map stuffed).flatMap (· ++ [cr, lf]) := by
  cases ls with
  | nil => rfl
  | cons l ls =>
    have hne : ((l :: ls).flatMap (· ++ [cr, lf])).isEmpty = false := by simp
    rw [dotStuff, hne, if_neg Bool.false_ne_true, messageLines_rows h, List.flatMap_map]
    exact congrArg (List.flatMap · (l :: ls)) (funext stuffLine_eq)

end Smtp

end Letterbox
