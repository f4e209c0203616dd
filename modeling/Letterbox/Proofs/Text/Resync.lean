import Letterbox.Proofs.Text.Ascii

/-!
# A byte of ASCII ends what was begun

A reader of UTF-8 that is in the middle of a character, or of a fault, starts afresh at the next
byte of ASCII. So text is read line by line as it is read as a whole, whether or not it is UTF-8.
-/

namespace Letterbox.Utf8

set_option autoImplicit false

namespace Reading

/-! The number of bytes that are read, and the character that stands for them. -/

def size : Reading → Nat
  | .char _ size | .fault size | .cutOff size => size

def shown : Reading → Char
  | .char c _ => c
  | .fault _ | .cutOff _ => replacement

end Reading

theorem decodeSkipping_cons (b : UInt8) (rest : Bytes) :
    decodeSkipping 0 (b :: rest) =
      (readAt b rest).shown :: decodeSkipping ((readAt b rest).size - 1) rest := by
  rw [decodeSkipping]
  cases readAt b rest <;> rfl

section
variable {b : UInt8} (hb : b.toNat < 128) (rest : Bytes)
include hb

/-- A character that an ASCII byte interrupts is a fault of as many bytes as one that is cut off. -/
theorem takeFollowing_append {follow low high share seen : Nat} (hlow : 128 ≤ low) (l : Bytes) :
    let whole := takeFollowing follow low high share seen (l ++ b :: rest)
    let alone := takeFollowing follow low high share seen l
    whole.shown = alone.shown ∧ whole.size = alone.size ∧ alone.size ≤ seen + l.length := by
  induction follow generalizing low high share seen l with
  | zero => exact ⟨rfl, rfl, Nat.le_add_right _ _⟩
  | succ follow ih =>
    cases l with
    | nil =>
      -- The byte is no continuation, as these are 128 and more.
      have hout : ¬(low ≤ b.toNat ∧ b.toNat ≤ high) := by omega
      simp only [List.nil_append, takeFollowing, if_neg hout]
      exact ⟨rfl, rfl, Nat.le_refl _⟩
    | cons a l =>
      simp only [List.cons_append, takeFollowing]
      split
      · obtain ⟨hshown, hsize, hle⟩ := ih (show 128 ≤ 0x80 from Nat.le_refl _) l
        refine ⟨hshown, hsize, ?_⟩
        rw [List.length_cons]
        omega
      · exact ⟨rfl, rfl, Nat.le_add_right _ _⟩

theorem readAt_append (a : UInt8) (l : Bytes) :
    (readAt a (l ++ b :: rest)).shown = (readAt a l).shown ∧
      (readAt a (l ++ b :: rest)).size = (readAt a l).size ∧ (readAt a l).size ≤ 1 + l.length := by
  simp only [readAt]
  split
  · exact ⟨rfl, rfl, Nat.le_add_right _ _⟩
  · split
    · exact ⟨rfl, rfl, Nat.le_add_right _ _⟩
    · rename_i lead hlead
      obtain ⟨-, -, hlow, -, -⟩ := lead_bounds hlead
      exact takeFollowing_append hb rest hlow l

theorem decodeSkipping_append_ascii {used : Nat} {l : Bytes} (hused : used ≤ l.length) :
    decodeSkipping used (l ++ b :: rest) =
      decodeSkipping used l ++ Char.ofNat b.toNat :: decodeChars rest := by
  induction l generalizing used with
  | nil =>
    obtain rfl : used = 0 := Nat.le_zero.mp hused
    have hread : readAt b rest = .char (Char.ofNat b.toNat) 1 := by
      simp only [readAt, if_pos hb]
    rw [List.nil_append, decodeSkipping_cons, hread]
    rfl
  | cons a l ih =>
    cases used with
    | succ used => exact ih (Nat.le_of_succ_le_succ hused)
    | zero =>
      obtain ⟨hshown, hsize, hle⟩ := readAt_append hb rest a l
      have hrest : (readAt a l).size - 1 ≤ l.length := by omega
      rw [List.cons_append, decodeSkipping_cons, decodeSkipping_cons, hshown, hsize, ih hrest,
        List.cons_append]

theorem decodeChars_append_ascii (l : Bytes) :
    decodeChars (l ++ b :: rest) = decodeChars l ++ Char.ofNat b.toNat :: decodeChars rest :=
  decodeSkipping_append_ascii hb rest (Nat.zero_le _)

end

theorem decodeChars_eq_nil_iff (l : Bytes) : decodeChars l = [] ↔ l = [] := by
  constructor
  · intro h
    cases l with
    | nil => rfl
    | cons b rest =>
      rw [decodeChars, decodeSkipping_cons] at h
      cases h
  · rintro rfl
    rfl

end Letterbox.Utf8
