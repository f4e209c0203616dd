import Letterbox.Proofs.Text.Ascii

/-!
# UTF-8 there and back

What is written in UTF-8 is read back as it was, character by character.
-/

namespace Letterbox.Utf8

set_option autoImplicit false

theorem toNat_toUInt8 {n : Nat} (h : n < 256) : n.toUInt8.toNat = n := by
  rw [Nat.toUInt8_eq, UInt8.toNat_ofNat', Nat.mod_eq_of_lt h]

/-- No character is a surrogate. -/
theorem toNat_not_surrogate (c : Char) : c.toNat < 0xD800 ∨ 0xDFFF < c.toNat := by
  rcases c.valid with h | h
  · exact .inl h
  · exact .inr h.1

section Lead
variable {b : UInt8} {n : Nat}

theorem lead?_two (hb : b.toNat = 0xC0 + n) (hlow : 2 ≤ n) (hhigh : n < 32) :
    lead? b = some ⟨1, 0x80, 0xBF, n⟩ := by
  simp only [lead?, hb, if_pos (show 0xC2 ≤ 0xC0 + n ∧ 0xC0 + n ≤ 0xDF by omega),
    Nat.add_sub_cancel_left]

theorem lead?_three (hb : b.toNat = 0xE0 + n) (hhigh : n < 16) :
    lead? b =
      some ⟨2, if n = 0 then 0xA0 else 0x80, if n = 13 then 0x9F else 0xBF, n⟩ := by
  simp only [lead?, hb]
  rw [if_neg (by omega)]
  by_cases hzero : n = 0
  · subst hzero
    rfl
  rw [if_neg (by omega)]
  by_cases hd : n = 13
  · subst hd
    rfl
  rw [if_neg (by omega), if_pos (by omega), if_neg hzero, if_neg hd, Nat.add_sub_cancel_left]

theorem lead?_four (hb : b.toNat = 0xF0 + n) (hhigh : n < 5) :
    lead? b =
      some ⟨3, if n = 0 then 0x90 else 0x80, if n = 4 then 0x8F else 0xBF, n⟩ := by
  simp only [lead?, hb]
  rw [if_neg (by omega), if_neg (by omega), if_neg (by omega), if_neg (by omega)]
  by_cases hzero : n = 0
  · subst hzero
    rfl
  rw [if_neg (by omega)]
  by_cases hfour : n = 4
  · subst hfour
    rfl
  rw [if_pos (by omega), if_neg hzero, if_neg hfour, Nat.add_sub_cancel_left]

end Lead

theorem takeFollowing_cons {follow low high share seen : Nat} {b : UInt8} {n : Nat}
    (hb : b.toNat = 0x80 + n) (hn : n < 64) (hlow : low ≤ 0x80 + n) (hhigh : 0x80 + n ≤ high)
    (rest : Bytes) :
    takeFollowing (follow + 1) low high share seen (b :: rest) =
      takeFollowing follow 0x80 0xBF (share * 64 + n) (seen + 1) rest := by
  have hshare : (0x80 + n) % 64 = n := by omega
  simp only [takeFollowing, hb, hlow, hhigh, and_self, if_true, hshare]

/-- A character is read from its own bytes, whatever comes behind them. -/
theorem readAt_encodeChar (c : Char) (rest : Bytes) :
    ∃ b bs, encodeChar c = b :: bs ∧ readAt b (bs ++ rest) = .char c (bs.length + 1) := by
  have hvalid := toNat_lt c
  have hplain := toNat_not_surrogate c
  have hc : c = Char.ofNat c.toNat := c.ofNat_toNat.symm
  generalize hn : c.toNat = n at hvalid hplain hc
  by_cases hone : n < 0x80
  · refine ⟨n.toUInt8, [], by simp only [encodeChar, hn, if_pos hone], ?_⟩
    have hb := toNat_toUInt8 (show n < 256 by omega)
    simp only [readAt, hb, if_pos hone, ← hc]
    rfl
  have hlast : (0x80 + n % 64).toUInt8.toNat = 0x80 + n % 64 := toNat_toUInt8 (by omega)
  by_cases htwo : n < 0x800
  · refine ⟨(0xC0 + n / 64).toUInt8, [(0x80 + n % 64).toUInt8],
      by simp only [encodeChar, hn, if_neg hone, if_pos htwo], ?_⟩
    have hb := toNat_toUInt8 (show 0xC0 + n / 64 < 256 by omega)
    have hsum : n / 64 * 64 + n % 64 = n := by omega
    simp only [readAt, hb, if_neg (show ¬0xC0 + n / 64 < 0x80 by omega),
      lead?_two hb (by omega) (by omega), List.cons_append, List.nil_append]
    rw [takeFollowing_cons hlast (by omega) (by omega) (by omega), takeFollowing, hsum, ← hc]
    rfl
  have hmiddle : (0x80 + n / 64 % 64).toUInt8.toNat = 0x80 + n / 64 % 64 :=
    toNat_toUInt8 (by omega)
  by_cases hthree : n < 0x10000
  · refine ⟨(0xE0 + n / 4096).toUInt8, [(0x80 + n / 64 % 64).toUInt8, (0x80 + n % 64).toUInt8],
      by simp only [encodeChar, hn, if_neg hone, if_neg htwo, if_pos hthree], ?_⟩
    have hb := toNat_toUInt8 (show 0xE0 + n / 4096 < 256 by omega)
    have hsum : (n / 4096 * 64 + n / 64 % 64) * 64 + n % 64 = n := by omega
    simp only [readAt, hb, if_neg (show ¬0xE0 + n / 4096 < 0x80 by omega),
      lead?_three hb (by omega), List.cons_append, List.nil_append]
    rw [takeFollowing_cons hmiddle (by omega) (by split <;> omega) (by split <;> omega),
      takeFollowing_cons hlast (by omega) (by omega) (by omega), takeFollowing, hsum, ← hc]
    rfl
  · refine ⟨(0xF0 + n / 262144).toUInt8, [(0x80 + n / 4096 % 64).toUInt8,
        (0x80 + n / 64 % 64).toUInt8, (0x80 + n % 64).toUInt8],
      by simp only [encodeChar, hn, if_neg hone, if_neg htwo, if_neg hthree], ?_⟩
    have hb := toNat_toUInt8 (show 0xF0 + n / 262144 < 256 by omega)
    have hsecond : (0x80 + n / 4096 % 64).toUInt8.toNat = 0x80 + n / 4096 % 64 :=
      toNat_toUInt8 (by omega)
    have hsum : ((n / 262144 * 64 + n / 4096 % 64) * 64 + n / 64 % 64) * 64 + n % 64 = n := by
      omega
    simp only [readAt, hb, if_neg (show ¬0xF0 + n / 262144 < 0x80 by omega),
      lead?_four hb (by omega), List.cons_append, List.nil_append]
    rw [takeFollowing_cons hsecond (by omega) (by split <;> omega) (by split <;> omega),
      takeFollowing_cons hmiddle (by omega) (by omega) (by omega),
      takeFollowing_cons hlast (by omega) (by omega) (by omega), takeFollowing, hsum, ← hc]
    rfl

theorem decodeSkipping_append (bs rest : Bytes) :
    decodeSkipping bs.length (bs ++ rest) = decodeSkipping 0 rest := by
  induction bs with
  | nil => rfl
  | cons b bs ih => exact ih

/-- What comes behind does not matter, as no character is cut off. -/
theorem decodeChars_encodeChars_append (cs : List Char) (rest : Bytes) :
    decodeChars (encodeChars cs ++ rest) = cs ++ decodeChars rest := by
  induction cs with
  | nil => rfl
  | cons c cs ih =>
    obtain ⟨b, bs, hbytes, hread⟩ := readAt_encodeChar c (encodeChars cs ++ rest)
    have hcons : encodeChars (c :: cs) ++ rest = b :: (bs ++ (encodeChars cs ++ rest)) := by
      rw [encodeChars, List.flatMap_cons, hbytes, List.cons_append, List.cons_append,
        List.append_assoc]
      rfl
    rw [decodeChars, hcons]
    simp only [decodeSkipping, hread, Nat.add_sub_cancel, decodeSkipping_append]
    exact congrArg (c :: ·) ih

theorem decodeChars_encodeChars (cs : List Char) : decodeChars (encodeChars cs) = cs := by
  have h := decodeChars_encodeChars_append cs []
  rwa [List.append_nil, show decodeChars [] = [] from rfl, List.append_nil] at h

theorem decode_encode (s : String) : decode (encode s) = s := by
  rw [decode, encode, decodeChars_encodeChars, String.ofList_toList]

end Letterbox.Utf8
