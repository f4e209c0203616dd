import Letterbox.Net.Lines
import Letterbox.Text.Base64
import Letterbox.Text.Encoding
import Mathlib.Algebra.Group.Nat.Defs

/-!
# ASCII among other text

An ASCII character is one byte in either encoding, and that byte stands for nothing else: text has a
line break in it exactly where its bytes have one.
-/

namespace Letterbox

set_option autoImplicit false

namespace Utf8

theorem toNat_lt (c : Char) : c.toNat < 0x110000 := by
  have h := c.valid
  simp only [UInt32.isValidChar, Nat.isValidChar] at h
  simp only [Char.toNat]
  omega

/-- The bytes of other characters are no ASCII. -/
theorem toNat_of_mem_encodeChar {c : Char} {b : UInt8} (hb : b ∈ encodeChar c)
    (hascii : b.toNat < 128) : c.toNat = b.toNat := by
  have hvalid := toNat_lt c
  simp only [encodeChar, Nat.toUInt8_eq] at hb
  generalize c.toNat = n at hb hvalid ⊢
  split at hb
  · rw [List.mem_singleton] at hb
    rw [hb, UInt8.toNat_ofNat']
    omega
  · split at hb
    · simp only [List.mem_cons, List.not_mem_nil, or_false] at hb
      rcases hb with rfl | rfl <;> rw [UInt8.toNat_ofNat'] at hascii <;> omega
    · split at hb
      · simp only [List.mem_cons, List.not_mem_nil, or_false] at hb
        rcases hb with rfl | rfl | rfl <;> rw [UInt8.toNat_ofNat'] at hascii <;> omega
      · simp only [List.mem_cons, List.not_mem_nil, or_false] at hb
        rcases hb with rfl | rfl | rfl | rfl <;> rw [UInt8.toNat_ofNat'] at hascii <;> omega

/-- A byte of ASCII is written for its own character only. -/
theorem mem_encode_iff {s : String} {c : Char} (hc : c.toNat < 128) :
    UInt8.ofNat c.toNat ∈ encode s ↔ c ∈ s.toList := by
  have hbyte : (UInt8.ofNat c.toNat).toNat = c.toNat := by
    rw [UInt8.toNat_ofNat']
    omega
  simp only [encode, encodeChars, List.mem_flatMap]
  constructor
  · rintro ⟨d, hd, hmem⟩
    have hsame := toNat_of_mem_encodeChar hmem (by omega)
    rw [hbyte] at hsame
    rwa [Char.toNat_inj.mp hsame] at hd
  · intro hmem
    refine ⟨c, hmem, ?_⟩
    simp only [encodeChar, if_pos hc, Nat.toUInt8_eq, List.mem_singleton]

/-- A number that is no character is read as the first one. -/
theorem toNat_ofNat_cases (n : Nat) :
    (Char.ofNat n).toNat = n ∨ (¬n.isValidChar ∧ (Char.ofNat n).toNat = 0) := by
  by_cases h : n.isValidChar
  · have hchar : Char.ofNat n = Char.ofNatAux n h := dif_pos h
    exact .inl (congrArg Char.toNat hchar)
  · have hchar : Char.ofNat n = Char.ofNat 0 := dif_neg h
    exact .inr ⟨h, congrArg Char.toNat hchar⟩

theorem toNat_ofNat_byte (b : UInt8) : (Char.ofNat b.toNat).toNat = b.toNat := by
  have hb := b.toNat_lt
  rcases toNat_ofNat_cases b.toNat with h | ⟨h, -⟩
  · exact h
  · exact absurd (.inl (by omega)) h

theorem byte_ofNat (b : UInt8) : UInt8.ofNat (Char.ofNat b.toNat).toNat = b := by
  rw [toNat_ofNat_byte, UInt8.ofNat_toNat]

theorem le_of_takeFollowing {follow low high share seen size : Nat} {rest : Bytes} {c : Char}
    (h : takeFollowing follow low high share seen rest = .char c size) :
    ∃ n, c = Char.ofNat n ∧ share * 64 ^ follow ≤ n := by
  induction follow generalizing low high share seen rest with
  | zero =>
    simp only [takeFollowing, Reading.char.injEq] at h
    exact ⟨share, h.1.symm, by omega⟩
  | succ follow ih =>
    cases rest with
    | nil => cases h
    | cons b rest =>
      simp only [takeFollowing] at h
      split at h
      · obtain ⟨n, hc, hn⟩ := ih h
        refine ⟨n, hc, Nat.le_trans ?_ hn⟩
        rw [Nat.pow_succ', ← Nat.mul_assoc]
        exact Nat.mul_le_mul_right _ (Nat.le_add_right _ _)
      · cases h

/-- The first byte behind a lead byte makes up for a share that is small. -/
theorem le_of_takeFollowing_succ {follow low high share seen size : Nat} {rest : Bytes} {c : Char}
    (hlow : 128 ≤ low) (hhigh : high < 192)
    (h : takeFollowing (follow + 1) low high share seen rest = .char c size) :
    ∃ n, c = Char.ofNat n ∧ (share * 64 + (low - 128)) * 64 ^ follow ≤ n := by
  cases rest with
  | nil => cases h
  | cons b rest =>
    simp only [takeFollowing] at h
    split at h
    · rename_i hb
      obtain ⟨n, hc, hn⟩ := le_of_takeFollowing h
      refine ⟨n, hc, Nat.le_trans (Nat.mul_le_mul_right _ ?_) hn⟩
      omega
    · cases h

theorem lead_bounds {b : UInt8} {l : Lead} (h : lead? b = some l) :
    ∃ follow, l.follow = follow + 1 ∧ 128 ≤ l.low ∧ l.high < 192 ∧
      128 ≤ (l.share * 64 + (l.low - 128)) * 64 ^ follow := by
  simp only [lead?] at h
  split at h
  · cases h
    exact ⟨0, rfl, Nat.le_refl _, by dsimp only; omega, by dsimp only; omega⟩
  split at h
  · cases h
    exact ⟨1, rfl, by decide, by decide, by decide⟩
  split at h
  · cases h
    exact ⟨1, rfl, by decide, by decide, by decide⟩
  split at h
  · cases h
    exact ⟨1, rfl, Nat.le_refl _, by dsimp only; omega, by dsimp only; omega⟩
  split at h
  · cases h
    exact ⟨2, rfl, by decide, by decide, by decide⟩
  split at h
  · cases h
    exact ⟨2, rfl, Nat.le_refl _, by dsimp only; omega, by dsimp only; omega⟩
  split at h
  · cases h
    exact ⟨2, rfl, by decide, by decide, by decide⟩
  · cases h

/-- A character is read from a byte of ASCII, or it is none of ASCII. -/
theorem char_of_readAt {b : UInt8} {rest : Bytes} {c : Char} {size : Nat}
    (h : readAt b rest = .char c size) :
    c = Char.ofNat b.toNat ∨ ∃ n, c = Char.ofNat n ∧ 128 ≤ n := by
  simp only [readAt] at h
  split at h
  · rw [Reading.char.injEq] at h
    exact .inl h.1.symm
  · split at h
    · cases h
    · rename_i l hl
      obtain ⟨follow, hfollow, hlow, hhigh, hshare⟩ := lead_bounds hl
      rw [hfollow] at h
      obtain ⟨n, hc, hn⟩ := le_of_takeFollowing_succ hlow hhigh h
      exact .inr ⟨n, hc, Nat.le_trans hshare hn⟩

theorem mem_of_mem_decodeSkipping {c : Char} (hc : 0 < c.toNat) (hascii : c.toNat < 128)
    {used : Nat} {bs : Bytes} (h : c ∈ decodeSkipping used bs) : UInt8.ofNat c.toNat ∈ bs := by
  have hreplacement : c ≠ replacement := by
    rintro rfl
    exact absurd hascii (by decide)
  fun_induction decodeSkipping used bs with
  | case1 => cases h
  | case2 used b rest ih => exact List.mem_cons_of_mem b (ih h)
  | case3 b rest d size hread ih =>
    rcases List.mem_cons.mp h with rfl | h
    · rcases char_of_readAt hread with hd | ⟨n, hd, hn⟩
      · rw [hd, byte_ofNat]
        exact List.mem_cons_self
      · have hn' := toNat_ofNat_cases n
        rw [← hd] at hn'
        omega
    · exact List.mem_cons_of_mem b (ih h)
  | case4 b rest size hread ih | case5 b rest size hread ih =>
    rcases List.mem_cons.mp h with heq | h
    · exact absurd heq hreplacement
    · exact List.mem_cons_of_mem b (ih h)

end Utf8

/-- A character of ASCII that is read, whatever the bytes are, has its byte among them. -/
theorem Encoding.mem_of_mem_decode (e : Encoding) {bs : Bytes} {c : Char} (hc : 0 < c.toNat)
    (hascii : c.toNat < 128) (h : c ∈ (e.decode bs).toList) : UInt8.ofNat c.toNat ∈ bs := by
  rw [Encoding.decode, String.toList_ofList] at h
  cases e with
  | utf8 => exact Utf8.mem_of_mem_decodeSkipping hc hascii h
  | latin1 =>
    obtain ⟨b, hb, rfl⟩ := List.mem_map.mp h
    rwa [latin1Char, Utf8.byte_ofNat]

namespace Base64

/-- Letters, digits and signs, none of which is a blank. -/
def Graphic (c : Char) : Prop := 32 < c.toNat ∧ c.toNat < 127

theorem graphic_digit (n : Nat) : Graphic (digit n) := by
  have hsmall : ∀ m, m < 0xd800 → (Char.ofNat m).toNat = m := by
    intro m hm
    rcases Utf8.toNat_ofNat_cases m with h | ⟨h, -⟩
    · exact h
    · exact absurd (.inl hm) h
  unfold digit Graphic
  split
  · rw [hsmall _ (by omega)]
    omega
  split
  · rw [hsmall _ (by omega)]
    omega
  split
  · rw [hsmall _ (by omega)]
    omega
  split
  · decide
  · decide

theorem graphic_of_mem_encode {bs : Bytes} {c : Char} (h : c ∈ encode bs) : Graphic c := by
  have hpad : Graphic '=' := by
    unfold Graphic
    decide
  fun_induction encode bs with
  | case1 => cases h
  | case2 a n =>
    simp only [List.mem_cons, List.not_mem_nil, or_false] at h
    rcases h with rfl | rfl | rfl | rfl
    · exact graphic_digit _
    · exact graphic_digit _
    · exact hpad
    · exact hpad
  | case3 a b n =>
    simp only [List.mem_cons, List.not_mem_nil, or_false] at h
    rcases h with rfl | rfl | rfl | rfl
    · exact graphic_digit _
    · exact graphic_digit _
    · exact graphic_digit _
    · exact hpad
  | case4 a b c rest n ih =>
    simp only [List.mem_cons] at h
    rcases h with rfl | rfl | rfl | rfl | h
    · exact graphic_digit _
    · exact graphic_digit _
    · exact graphic_digit _
    · exact graphic_digit _
    · exact ih h

end Base64

end Letterbox
