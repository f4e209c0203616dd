import Letterbox.Text.Blank
import Mathlib.Data.List.DropRight
import Mathlib.Data.List.TakeWhile

/-!
# Cuts at blanks and separators

Text that neither begins nor ends with a blank is not changed by trimming, and what is cut off or
cut apart is a part of the whole.
-/

namespace Letterbox

set_option autoImplicit false

namespace Text

theorem blankText_of_mem {s : String} {c : Char} (hc : c ∈ s.toList) (hblank : isBlank c = false) :
    blankText s = false := by
  rw [blankText, List.all_eq_false]
  exact ⟨c, hc, by simp [hblank]⟩

theorem not_isBlank_of_all {cs : List Char} (h : (cs.all fun c => !isBlank c) = true) :
    ∀ c ∈ cs, isBlank c = false := by
  intro c hc
  simpa using List.all_eq_true.mp h c hc

theorem skipBlanks_cons {c : Char} (hc : isBlank c = false) (cs : List Char) :
    skipBlanks (c :: cs) = c :: cs := List.dropWhile_cons_of_neg (by simp [hc])

theorem dropBlanksEnd_concat {c : Char} (hc : isBlank c = false) (cs : List Char) :
    dropBlanksEnd (cs ++ [c]) = cs ++ [c] := by
  rw [dropBlanksEnd, List.reverse_concat, List.dropWhile_cons_of_neg (by simp [hc]),
    List.reverse_cons, List.reverse_reverse]

theorem dropBlanksEnd_concat_blank {c : Char} (hc : isBlank c = true) (cs : List Char) :
    dropBlanksEnd (cs ++ [c]) = dropBlanksEnd cs := by
  rw [dropBlanksEnd, List.reverse_concat, List.dropWhile_cons_of_pos hc, dropBlanksEnd]

theorem trimChars_of_ends {c d : Char} (hc : isBlank c = false) (hd : isBlank d = false)
    (cs : List Char) : trimChars (c :: (cs ++ [d])) = c :: (cs ++ [d]) := by
  rw [trimChars, skipBlanks_cons hc, ← List.cons_append, dropBlanksEnd_concat hd]

theorem cutAt_append {sep : Char} {cs : List Char} (h : sep ∉ cs) (rest : List Char) :
    cutAt sep (cs ++ sep :: rest) = some (cs, rest) := by
  induction cs with
  | nil => simp only [List.nil_append, cutAt, if_true]
  | cons c cs ih =>
    rw [List.mem_cons, not_or] at h
    simp only [List.cons_append, cutAt, if_neg (Ne.symm h.1), ih h.2, Option.map_some]

theorem cutAt_of_not_mem {sep : Char} {cs : List Char} (h : sep ∉ cs) : cutAt sep cs = none := by
  induction cs with
  | nil => rfl
  | cons c cs ih =>
    rw [List.mem_cons, not_or] at h
    simp only [cutAt, if_neg (Ne.symm h.1), ih h.2, Option.map_none]

theorem mem_dropWhile {p : Char → Bool} {c : Char} {cs : List Char} (hc : c ∈ cs)
    (hp : p c = false) : c ∈ cs.dropWhile p := by
  rw [← List.takeWhile_append_dropWhile (p := p) (l := cs)] at hc
  rcases List.mem_append.mp hc with h | h
  · rw [List.mem_takeWhile_imp h] at hp
    exact absurd hp (by decide)
  · exact h

theorem mem_trimChars {c : Char} {cs : List Char} (hc : c ∈ cs) (hblank : isBlank c = false) :
    c ∈ trimChars cs := by
  rw [trimChars, dropBlanksEnd, List.mem_reverse]
  apply mem_dropWhile _ hblank
  rw [List.mem_reverse]
  exact mem_dropWhile hc hblank

theorem trimChars_isInfix (cs : List Char) : trimChars cs <:+: cs := by
  have hfront : skipBlanks cs <:+ cs := List.dropWhile_suffix isBlank
  have hend : trimChars cs <+: skipBlanks cs := List.rdropWhile_prefix isBlank (skipBlanks cs)
  exact hend.isInfix.trans hfront.isInfix

theorem trimChars_subset (cs : List Char) : trimChars cs ⊆ cs := (trimChars_isInfix cs).subset

theorem pieces_ne_nil {p : Char → Bool} {c : Char} {cs : List Char} (hc : c ∈ cs)
    (hp : p c = false) : pieces p cs ≠ [] := by
  fun_induction pieces p cs with
  | case1 => simp at hc
  | case2 d rest hd ih =>
    rcases List.mem_cons.mp hc with rfl | hc
    · rw [hd] at hp
      exact absurd hp (by decide)
    · exact ih hc
  | case3 | case4 => exact List.cons_ne_nil _ _
  | case5 d hd e rest he hnil =>
    rw [hnil]
    exact List.cons_ne_nil _ _
  | case6 d hd e rest he v vs hv =>
    rw [hv]
    exact List.cons_ne_nil _ _

theorem mem_of_mem_pieces {p : Char → Bool} {w : List Char} {cs : List Char}
    (hw : w ∈ pieces p cs) : w ⊆ cs := by
  fun_induction pieces p cs generalizing w with
  | case1 => simp at hw
  | case2 d rest hd ih => exact List.Subset.trans (ih hw) (List.subset_cons_self d rest)
  | case3 c hc =>
    rw [List.mem_singleton] at hw
    exact hw ▸ List.Subset.refl _
  | case4 c hc d rest hd ih =>
    rcases List.mem_cons.mp hw with rfl | hw
    · exact List.cons_subset_cons c (List.nil_subset _)
    · exact List.Subset.trans (ih hw) (List.subset_cons_self c _)
  | case5 c hc d rest hd hnil ih =>
    rw [hnil, List.mem_singleton] at hw
    exact hw ▸ List.cons_subset_cons c (List.nil_subset _)
  | case6 c hc d rest hd v vs hv ih =>
    rw [hv] at hw ih
    rcases List.mem_cons.mp hw with rfl | hw
    · exact List.cons_subset_cons c (ih List.mem_cons_self)
    · exact List.Subset.trans (ih (List.mem_cons_of_mem v hw)) (List.subset_cons_self c _)

/-- No piece has a character in it at which the cuts are made. -/
theorem not_of_mem_pieces {p : Char → Bool} {w : List Char} {cs : List Char}
    (hw : w ∈ pieces p cs) : ∀ c ∈ w, p c = false := by
  fun_induction pieces p cs generalizing w with
  | case1 => simp at hw
  | case2 d rest hd ih => exact ih hw
  | case3 c hc =>
    rw [List.mem_singleton] at hw
    exact hw ▸ List.forall_mem_singleton.mpr (Bool.eq_false_iff.mpr hc)
  | case4 c hc d rest hd ih =>
    rcases List.mem_cons.mp hw with rfl | hw
    · exact List.forall_mem_singleton.mpr (Bool.eq_false_iff.mpr hc)
    · exact ih hw
  | case5 c hc d rest hd hnil ih =>
    rw [hnil, List.mem_singleton] at hw
    exact hw ▸ List.forall_mem_singleton.mpr (Bool.eq_false_iff.mpr hc)
  | case6 c hc d rest hd v vs hv ih =>
    rw [hv] at hw ih
    rcases List.mem_cons.mp hw with rfl | hw
    · exact List.forall_mem_cons.mpr ⟨Bool.eq_false_iff.mpr hc, ih List.mem_cons_self⟩
    · exact ih (List.mem_cons_of_mem v hw)

/-! ## Trimming once is enough -/

theorem dropBlanksEnd_eq_rdropWhile (cs : List Char) : dropBlanksEnd cs = cs.rdropWhile isBlank :=
  rfl

theorem skipBlanks_skipBlanks (cs : List Char) : skipBlanks (skipBlanks cs) = skipBlanks cs :=
  List.dropWhile_idempotent isBlank cs

/-- Cutting off the end of a text leaves its beginning. -/
theorem skipBlanks_dropBlanksEnd {cs : List Char} (h : skipBlanks cs = cs) :
    skipBlanks (dropBlanksEnd cs) = dropBlanksEnd cs := by
  obtain ⟨rest, hrest⟩ := List.rdropWhile_prefix isBlank cs
  rw [← dropBlanksEnd_eq_rdropWhile] at hrest
  cases ht : dropBlanksEnd cs with
  | nil => rfl
  | cons c ts =>
    rw [ht] at hrest
    apply skipBlanks_cons
    have hfirst := List.head?_dropWhile_not isBlank cs
    rw [show cs.dropWhile isBlank = c :: (ts ++ rest) from h.trans hrest.symm] at hfirst
    exact hfirst

theorem trimChars_trimChars (cs : List Char) : trimChars (trimChars cs) = trimChars cs := by
  have hskip : skipBlanks (trimChars cs) = trimChars cs :=
    skipBlanks_dropBlanksEnd (skipBlanks_skipBlanks cs)
  have htwice : dropBlanksEnd (trimChars cs) = trimChars cs :=
    List.rdropWhile_idempotent isBlank (skipBlanks cs)
  rw [trimChars, hskip, htwice]

theorem trimChars_of_not_isBlank {cs : List Char} (h : ∀ c ∈ cs, isBlank c = false) :
    trimChars cs = cs := by
  have hskip : skipBlanks cs = cs := by
    cases cs with
    | nil => rfl
    | cons c cs => exact skipBlanks_cons (h c List.mem_cons_self) cs
  rw [trimChars, hskip, dropBlanksEnd_eq_rdropWhile, List.rdropWhile_eq_self_iff]
  intro hne
  rw [h _ (List.getLast_mem hne)]
  exact Bool.false_ne_true

theorem cutAt_eq_some {sep : Char} {cs before after : List Char}
    (h : cutAt sep cs = some (before, after)) : cs = before ++ sep :: after ∧ sep ∉ before := by
  induction cs generalizing before with
  | nil => cases h
  | cons c cs ih =>
    simp only [cutAt] at h
    split at h
    · rename_i hc
      cases h
      exact ⟨by rw [hc, List.nil_append], List.not_mem_nil⟩
    · rename_i hc
      obtain ⟨⟨b, a⟩, hcut, heq⟩ := Option.map_eq_some_iff.mp h
      cases heq
      obtain ⟨rfl, hsep⟩ := ih hcut
      exact ⟨rfl, List.not_mem_cons_of_ne_of_not_mem (Ne.symm hc) hsep⟩

theorem splitAt_ne_nil (sep : Char) (cs : List Char) : splitAt sep cs ≠ [] := by
  cases cs with
  | nil => exact List.cons_ne_nil _ _
  | cons c cs =>
    simp only [splitAt]
    split
    · exact List.cons_ne_nil _ _
    · split <;> exact List.cons_ne_nil _ _

theorem splitAt_append_sep (sep : Char) (cs rest : List Char) :
    splitAt sep (cs ++ sep :: rest) = splitAt sep cs ++ splitAt sep rest := by
  induction cs with
  | nil => simp only [List.nil_append, splitAt, if_true, List.singleton_append]
  | cons c cs ih =>
    simp only [List.cons_append, splitAt, ih]
    split
    · rfl
    · cases h : splitAt sep cs with
      | nil => exact absurd h (splitAt_ne_nil sep cs)
      | cons w ws => rfl

/-- What lies between separators has none in it. -/
theorem of_mem_splitAt {sep : Char} {w cs : List Char} (hw : w ∈ splitAt sep cs) :
    sep ∉ w ∧ w ⊆ cs := by
  induction cs generalizing w with
  | nil =>
    cases List.mem_singleton.mp hw
    exact ⟨List.not_mem_nil, List.nil_subset _⟩
  | cons c cs ih =>
    simp only [splitAt] at hw
    split at hw
    · rcases List.mem_cons.mp hw with rfl | hw
      · exact ⟨List.not_mem_nil, List.nil_subset _⟩
      · exact ⟨(ih hw).1, List.subset_cons_of_subset c (ih hw).2⟩
    · rename_i hc
      split at hw
      · rename_i hnil
        exact absurd hnil (splitAt_ne_nil sep cs)
      · rename_i v vs hvs
        rw [hvs] at ih
        rcases List.mem_cons.mp hw with rfl | hw
        · have hv := ih List.mem_cons_self
          exact ⟨List.not_mem_cons_of_ne_of_not_mem (Ne.symm hc) hv.1,
            List.cons_subset_cons c hv.2⟩
        · have hv := ih (List.mem_cons_of_mem v hw)
          exact ⟨hv.1, List.subset_cons_of_subset c hv.2⟩

theorem splitAt_of_not_mem {sep : Char} {cs : List Char} (h : sep ∉ cs) :
    splitAt sep cs = [cs] := by
  induction cs with
  | nil => rfl
  | cons c cs ih =>
    rw [List.mem_cons, not_or] at h
    simp only [splitAt, if_neg (Ne.symm h.1), ih h.2]

theorem splitAt_append {sep : Char} {cs : List Char} (h : sep ∉ cs) (rest : List Char) :
    splitAt sep (cs ++ sep :: rest) = cs :: splitAt sep rest := by
  rw [splitAt_append_sep, splitAt_of_not_mem h, List.singleton_append]

/-- Pieces that are joined by a separator are cut apart again. -/
theorem splitAt_intercalate {sep : Char} {w : List Char} {ws : List (List Char)}
    (h : ∀ v ∈ w :: ws, sep ∉ v) : splitAt sep ([sep].intercalate (w :: ws)) = w :: ws := by
  induction ws generalizing w with
  | nil =>
    rw [List.intercalate_singleton]
    exact splitAt_of_not_mem (h w List.mem_cons_self)
  | cons v ws ih =>
    rw [List.intercalate_cons_cons, List.append_assoc, List.singleton_append,
      splitAt_append (h w List.mem_cons_self), ih fun u hu => h u (List.mem_cons_of_mem w hu)]

end Text

end Letterbox
