import Letterbox.Proofs.Text.Cuts

/-!
# Words and the blanks around them

The words of a text are those that stand between blanks, whatever the blanks are. Trimming takes
blanks away at the ends and nothing else, so neither the words nor what is trimmed again depends on
it.
-/

namespace Letterbox.Text

set_option autoImplicit false

variable {c : Char} {cs gap : List Char}

/-! ## Trimming -/

theorem skipBlanks_append (h : ∀ c ∈ gap, isBlank c = true) (cs : List Char) :
    skipBlanks (gap ++ cs) = skipBlanks cs := List.dropWhile_append_of_pos h

theorem dropBlanksEnd_cons (h : isBlank c = false) (cs : List Char) :
    dropBlanksEnd (c :: cs) = c :: dropBlanksEnd cs := by
  rw [dropBlanksEnd, dropBlanksEnd, List.reverse_cons, List.dropWhile_append]
  split
  · rename_i hnil
    rw [List.isEmpty_iff] at hnil
    rw [List.dropWhile_cons_of_neg (by simp [h]), hnil]
    rfl
  · rw [List.reverse_append]
    rfl

/-- A character that is not blank keeps what is in front of it. -/
theorem dropBlanksEnd_append_cons (h : isBlank c = false) (cs rest : List Char) :
    dropBlanksEnd (cs ++ c :: rest) = cs ++ c :: dropBlanksEnd rest := by
  rw [← dropBlanksEnd_cons h, dropBlanksEnd, dropBlanksEnd, List.reverse_append,
    List.dropWhile_append]
  split
  · rename_i hnil
    have hmem : c ∈ (c :: rest).reverse := List.mem_reverse.mpr List.mem_cons_self
    have hkept := mem_dropWhile hmem h
    rw [List.isEmpty_iff] at hnil
    rw [hnil] at hkept
    cases hkept
  · rw [List.reverse_append, List.reverse_reverse]

/-- Blanks at one end are told from those at the other by what is between them. -/
theorem blank_or_append_cons (cs : List Char) :
    (∀ c ∈ cs, isBlank c = true) ∨ ∃ gap c rest, cs = gap ++ c :: rest ∧
      (∀ c ∈ gap, isBlank c = true) ∧ isBlank c = false := by
  cases hrest : skipBlanks cs with
  | nil => exact .inl (List.dropWhile_eq_nil_iff.mp hrest)
  | cons c rest =>
    have hfirst := List.head?_dropWhile_not isBlank cs
    rw [show cs.dropWhile isBlank = c :: rest from hrest] at hfirst
    refine .inr ⟨cs.takeWhile isBlank, c, rest, ?_, fun d hd => List.mem_takeWhile_imp hd, hfirst⟩
    rw [← hrest]
    exact List.takeWhile_append_dropWhile.symm

theorem trimChars_append (h : ∀ c ∈ gap, isBlank c = true) (cs : List Char) :
    trimChars (gap ++ cs) = trimChars cs := by rw [trimChars, skipBlanks_append h, trimChars]

theorem trimChars_cons (h : isBlank c = false) (cs : List Char) :
    trimChars (c :: cs) = c :: dropBlanksEnd cs := by
  rw [trimChars, skipBlanks_cons h, dropBlanksEnd_cons h]

/-- A word in front stays as it is. -/
theorem trimChars_word {w : List Char} (hne : w ≠ []) (hw : ∀ c ∈ w, isBlank c = false)
    (rest : List Char) : trimChars (w ++ rest) = w ++ dropBlanksEnd rest := by
  obtain ⟨c, v, rfl⟩ := List.exists_cons_of_ne_nil hne
  obtain ⟨hc, hv⟩ := List.forall_mem_cons.mp hw
  rw [List.cons_append, trimChars_cons hc, List.cons_append]
  congr 1
  clear hne hw
  induction v with
  | nil => rfl
  | cons d v ih =>
    obtain ⟨hd, hv⟩ := List.forall_mem_cons.mp hv
    rw [List.cons_append, dropBlanksEnd_cons hd, ih hv, List.cons_append]

theorem trimChars_skipBlanks (cs : List Char) : trimChars (skipBlanks cs) = trimChars cs := by
  rw [trimChars, skipBlanks_skipBlanks, trimChars]

theorem trimChars_dropBlanksEnd (cs : List Char) : trimChars (dropBlanksEnd cs) = trimChars cs := by
  rcases blank_or_append_cons cs with hblank | ⟨gap, c, rest, rfl, hgap, hc⟩
  · have hnone : dropBlanksEnd cs = [] := by
      rw [dropBlanksEnd, List.reverse_eq_nil_iff, List.dropWhile_eq_nil_iff]
      exact fun c hc => hblank c (List.mem_reverse.mp hc)
    have hskip : skipBlanks cs = [] := List.dropWhile_eq_nil_iff.mpr hblank
    rw [hnone, trimChars, trimChars, hskip]
    rfl
  · have htwice := List.rdropWhile_idempotent isBlank rest
    rw [dropBlanksEnd_append_cons hc, trimChars_append hgap, trimChars_append hgap,
      trimChars_cons hc, trimChars_cons hc]
    exact congrArg (c :: ·) htwice

/-- Blanks at either end do not count. -/
theorem trimChars_padded {front back : List Char} (hfront : ∀ c ∈ front, isBlank c = true)
    (hback : ∀ c ∈ back, isBlank c = true) : trimChars (front ++ cs ++ back) = trimChars cs := by
  have hend : dropBlanksEnd (cs ++ back) = dropBlanksEnd cs := by
    rw [dropBlanksEnd, List.reverse_append, List.dropWhile_append_of_pos, dropBlanksEnd]
    exact fun c hc => hback c (List.mem_reverse.mp hc)
  rw [List.append_assoc, trimChars_append hfront, ← trimChars_dropBlanksEnd, hend,
    trimChars_dropBlanksEnd]

/-! ## Words -/

section Pieces
variable {p : Char → Bool}

theorem pieces_cons_of_pos (h : p c = true) (cs : List Char) :
    pieces p (c :: cs) = pieces p cs := by
  cases cs <;> simp only [pieces, h, if_true]

theorem pieces_append_left (h : ∀ c ∈ gap, p c = true) (cs : List Char) :
    pieces p (gap ++ cs) = pieces p cs := by
  induction gap with
  | nil => rfl
  | cons c gap ih =>
    rw [List.cons_append, pieces_cons_of_pos (h c List.mem_cons_self)]
    exact ih fun d hd => h d (List.mem_cons_of_mem c hd)

/-- A piece ends where the text does, or a character at which it is cut. -/
theorem pieces_word {w : List Char} (hne : w ≠ []) (hw : ∀ c ∈ w, p c = false)
    (hapart : ∀ c ∈ cs.head?, p c = true) : pieces p (w ++ cs) = w :: pieces p cs := by
  induction w with
  | nil => exact absurd rfl hne
  | cons c w ih =>
    have hc := hw c List.mem_cons_self
    cases w with
    | nil =>
      cases cs with
      | nil => simp only [List.append_nil, pieces, hc, Bool.false_eq_true, if_false]
      | cons d cs =>
        simp only [List.cons_append, List.nil_append, pieces, hc, hapart d rfl, Bool.false_eq_true,
          if_false, if_true]
    | cons d w =>
      have hd := hw d (List.mem_cons_of_mem c List.mem_cons_self)
      have hmore := ih (List.cons_ne_nil d w) fun e he => hw e (List.mem_cons_of_mem c he)
      rw [List.cons_append] at hmore
      rw [List.cons_append, List.cons_append, pieces]
      simp only [hc, hd, hmore, Bool.false_eq_true, if_false]

/-- Induction over the words of a text and the characters between them. -/
theorem induction_on_words {P : List Char → Prop} (nil : P [])
    (between : ∀ c cs, p c = true → P cs → P (c :: cs))
    (word : ∀ w cs, w ≠ [] → (∀ c ∈ w, p c = false) → (∀ c ∈ cs.head?, p c = true) → P cs →
      P (w ++ cs)) (cs : List Char) : P cs := by
  induction hn : cs.length using Nat.strongRecOn generalizing cs with
  | _ n ih =>
    cases cs with
    | nil => exact nil
    | cons c cs =>
      rw [List.length_cons] at hn
      cases hc : p c with
      | true => exact between c cs hc (ih cs.length (by omega) cs rfl)
      | false =>
        have hlen := (List.dropWhile_suffix (!p ·) (l := cs)).length_le
        have hword := word (c :: cs.takeWhile (!p ·)) (cs.dropWhile (!p ·)) (List.cons_ne_nil _ _)
          (List.forall_mem_cons.mpr ⟨hc, fun d hd => by simpa using List.mem_takeWhile_imp hd⟩)
          (fun d hd => by
            have hfirst := List.head?_dropWhile_not (!p ·) cs
            rw [Option.mem_def.mp hd] at hfirst
            simpa using hfirst)
          (ih _ (by omega) _ rfl)
        rwa [List.cons_append, List.takeWhile_append_dropWhile] at hword

theorem pieces_append_right (h : ∀ c ∈ gap, p c = true) (cs : List Char) :
    pieces p (cs ++ gap) = pieces p cs := by
  induction cs using induction_on_words (p := p) with
  | nil =>
    have hnone := pieces_append_left h []
    rwa [List.append_nil] at hnone
  | between c cs hc ih => rw [List.cons_append, pieces_cons_of_pos hc, pieces_cons_of_pos hc, ih]
  | word w cs hne hw hapart ih =>
    have hapart' : ∀ c ∈ (cs ++ gap).head?, p c = true := by
      intro c hc
      cases cs with
      | nil => exact h c (List.mem_of_mem_head? hc)
      | cons d cs => exact hapart c hc
    rw [List.append_assoc, pieces_word hne hw hapart', pieces_word hne hw hapart, ih]

end Pieces

theorem pieces_trimChars (cs : List Char) :
    pieces isBlank (trimChars cs) = pieces isBlank cs := by
  have hfront : pieces isBlank (skipBlanks cs) = pieces isBlank cs := by
    have hblank : ∀ c ∈ cs.takeWhile isBlank, isBlank c = true :=
      fun c hc => List.mem_takeWhile_imp hc
    have h := pieces_append_left hblank (cs.dropWhile isBlank)
    rw [List.takeWhile_append_dropWhile] at h
    exact h.symm
  have hend : pieces isBlank (dropBlanksEnd (skipBlanks cs)) = pieces isBlank (skipBlanks cs) := by
    have hblank : ∀ c ∈ (skipBlanks cs).rtakeWhile isBlank, isBlank c = true :=
      fun c hc => List.mem_rtakeWhile_imp hc
    have h := pieces_append_right hblank ((skipBlanks cs).rdropWhile isBlank)
    rw [List.rdropWhile_append_rtakeWhile] at h
    exact h.symm
  rw [trimChars, hend, hfront]

end Letterbox.Text
