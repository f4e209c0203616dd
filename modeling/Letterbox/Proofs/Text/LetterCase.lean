import Letterbox.Proofs.Text.Cuts

/-!
# Letters of either case

Two texts with the same letters, some of them in the other case, have the same blanks and separators
in the same places.
-/

namespace Letterbox.Text

set_option autoImplicit false

/-- The same text up to the case of ASCII letters. -/
def SameLetters (cs ds : List Char) : Prop := cs.map foldCase = ds.map foldCase

instance (cs ds : List Char) : Decidable (SameLetters cs ds) := by
  unfold SameLetters
  infer_instance

theorem foldCase_cases (c : Char) :
    foldCase c = c ∨ (65 ≤ c.toNat ∧ c.toNat ≤ 90 ∧ (foldCase c).toNat = c.toNat + 32) := by
  unfold foldCase
  split
  · rename_i h
    have hlow : 65 ≤ c.toNat := h.1
    have hhigh : c.toNat ≤ 90 := h.2
    refine .inr ⟨hlow, hhigh, ?_⟩
    have hvalid : (c.toNat + 32).isValidChar := .inl (by omega)
    have hchar : Char.ofNat (c.toNat + 32) = Char.ofNatAux (c.toNat + 32) hvalid := dif_pos hvalid
    exact congrArg Char.toNat hchar
  · exact .inl rfl

theorem isBlank_foldCase (c : Char) : isBlank (foldCase c) = isBlank c := by
  rcases foldCase_cases c with h | ⟨hlow, hhigh, h⟩
  · rw [h]
  · have hnot : ∀ d : Char, 65 ≤ d.toNat → d.toNat ≤ 122 → isBlank d = false := by
      intro d hd hd'
      simp only [isBlank, Bool.or_eq_false_iff, Bool.and_eq_false_iff, decide_eq_false_iff_not,
        beq_eq_false_iff_ne]
      omega
    rw [hnot (foldCase c) (by omega) (by omega), hnot c hlow (by omega)]

/-- Characters in front of the letters stand for themselves only. -/
theorem eq_of_foldCase_eq {c d : Char} (hd : d.toNat < 65) (h : foldCase c = foldCase d) :
    c = d := by
  have hself : foldCase d = d := by
    rcases foldCase_cases d with h | ⟨hlow, -, -⟩
    · exact h
    · omega
  rw [hself] at h
  rcases foldCase_cases c with hc | ⟨hlow, -, hc⟩
  · rw [← hc, h]
  · rw [h] at hc
    omega

namespace SameLetters

variable {cs ds : List Char}

theorem refl (cs : List Char) : SameLetters cs cs := rfl

theorem symm (h : SameLetters cs ds) : SameLetters ds cs := Eq.symm h

theorem trans {es : List Char} (h : SameLetters cs ds) (h' : SameLetters ds es) :
    SameLetters cs es := Eq.trans h h'

theorem length (h : SameLetters cs ds) : cs.length = ds.length := by
  have hlen := congrArg List.length h
  rwa [List.length_map, List.length_map] at hlen

theorem ne_nil (h : SameLetters cs ds) (hne : ds ≠ []) : cs ≠ [] := by
  rintro rfl
  exact hne (List.map_eq_nil_iff.mp (Eq.symm h))

theorem append {cs' ds' : List Char} (h : SameLetters cs ds) (h' : SameLetters cs' ds') :
    SameLetters (cs ++ cs') (ds ++ ds') := by
  rw [SameLetters, List.map_append, List.map_append, h, h']

theorem cons (c : Char) (h : SameLetters cs ds) : SameLetters (c :: cs) (c :: ds) := by
  rw [SameLetters, List.map_cons, List.map_cons, h]

theorem exists_append {front back : List Char} (h : SameLetters (front ++ back) ds) :
    ∃ front' back', ds = front' ++ back' ∧ SameLetters front front' ∧ SameLetters back back' := by
  rw [SameLetters, List.map_append] at h
  obtain ⟨front', back', rfl, hfront, hback⟩ := List.map_eq_append_iff.mp (Eq.symm h)
  exact ⟨front', back', rfl, hfront.symm, hback.symm⟩

/-- A character in front of the letters stays where it is. -/
theorem exists_cons {d : Char} (hd : d.toNat < 65) (h : SameLetters (d :: cs) ds) :
    ∃ ds', ds = d :: ds' ∧ SameLetters cs ds' := by
  cases ds with
  | nil => cases h
  | cons e ds =>
    obtain ⟨hhead, htail⟩ := List.cons.inj h
    exact ⟨ds, by rw [eq_of_foldCase_eq hd hhead.symm], htail⟩

theorem forall_isBlank {b : Bool} (h : SameLetters cs ds) (hds : ∀ c ∈ ds, isBlank c = b) :
    ∀ c ∈ cs, isBlank c = b := by
  intro c hc
  have hmem : foldCase c ∈ ds.map foldCase := h ▸ List.mem_map_of_mem hc
  obtain ⟨d, hd, heq⟩ := List.mem_map.mp hmem
  rw [← isBlank_foldCase, ← heq, isBlank_foldCase, hds d hd]

theorem head?_isBlank {b : Bool} (h : SameLetters cs ds) (hds : ∀ c ∈ ds.head?, isBlank c = b) :
    ∀ c ∈ cs.head?, isBlank c = b := by
  intro c hc
  obtain ⟨cs, rfl⟩ := List.head?_eq_some_iff.mp hc
  cases ds with
  | nil => cases h
  | cons d ds =>
    rw [← isBlank_foldCase, (List.cons.inj h).1, isBlank_foldCase, hds d rfl]

theorem not_mem {d : Char} (h : SameLetters cs ds) (hd : d.toNat < 65) (hds : d ∉ ds) :
    d ∉ cs := by
  intro hc
  have hmem : foldCase d ∈ ds.map foldCase := h ▸ List.mem_map_of_mem hc
  obtain ⟨e, he, heq⟩ := List.mem_map.mp hmem
  exact hds (eq_of_foldCase_eq hd heq ▸ he)

theorem dropBlanksEnd (h : SameLetters cs ds) :
    SameLetters (dropBlanksEnd cs) (dropBlanksEnd ds) := by
  have hcomp : isBlank ∘ foldCase = isBlank := funext isBlank_foldCase
  have hmap : ∀ es : List Char, (es.dropWhile isBlank).map foldCase =
      (es.map foldCase).dropWhile isBlank := fun es => by rw [List.dropWhile_map, hcomp]
  rw [SameLetters, Text.dropBlanksEnd, Text.dropBlanksEnd, List.map_reverse, List.map_reverse,
    hmap, hmap, List.map_reverse, List.map_reverse, h]

end SameLetters

theorem sameIgnoringCase_iff (s t : String) :
    sameIgnoringCase s t = true ↔ SameLetters s.toList t.toList := by
  rw [sameIgnoringCase, beq_iff_eq, SameLetters]

theorem sameIgnoringCase_congr {s s' : String} (h : SameLetters s.toList s'.toList) (t : String) :
    sameIgnoringCase s t = sameIgnoringCase s' t := by
  rw [sameIgnoringCase, sameIgnoringCase, h]

theorem sameIgnoringCase_congr_right {t t' : String} (h : SameLetters t.toList t'.toList)
    (s : String) : sameIgnoringCase s t = sameIgnoringCase s t' := by
  rw [sameIgnoringCase, sameIgnoringCase, h]

end Letterbox.Text
