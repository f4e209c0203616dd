import Letterbox.Proofs.Text.Utf8

/-!
# Well-formed UTF-8

Which rows of bytes stand for a character is said here by the ranges of the bytes alone, without a
reader and without numbers of characters. These are exactly the rows that are written, so bytes that
are read and written again come out as they were if and only if they are well-formed, and a reader
that reports faults reports none in exactly these.
-/

namespace Letterbox.Utf8

set_option autoImplicit false

/-- What may stand behind the first byte of a character. -/
def IsTail (b : UInt8) : Prop := 0x80 ≤ b.toNat ∧ b.toNat ≤ 0xBF

/-- The bytes of one character. Four of the first bytes narrow the second one: behind E0 and F0 a
smaller one makes an overlong form, behind ED a larger one a surrogate, and behind F4 a number above
those of all characters. -/
inductive WellFormedChar : Bytes → Prop where
  | one {a : UInt8} : a.toNat ≤ 0x7F → WellFormedChar [a]
  | two {a b : UInt8} : 0xC2 ≤ a.toNat → a.toNat ≤ 0xDF → IsTail b → WellFormedChar [a, b]
  | three {a b c : UInt8} : 0xE0 ≤ a.toNat → a.toNat ≤ 0xEF → IsTail b → IsTail c →
    (a.toNat = 0xE0 → 0xA0 ≤ b.toNat) → (a.toNat = 0xED → b.toNat ≤ 0x9F) →
    WellFormedChar [a, b, c]
  | four {a b c d : UInt8} : 0xF0 ≤ a.toNat → a.toNat ≤ 0xF4 → IsTail b → IsTail c → IsTail d →
    (a.toNat = 0xF0 → 0x90 ≤ b.toNat) → (a.toNat = 0xF4 → b.toNat ≤ 0x8F) →
    WellFormedChar [a, b, c, d]

inductive WellFormed : Bytes → Prop where
  | nil : WellFormed []
  | append {bs rest : Bytes} : WellFormedChar bs → WellFormed rest → WellFormed (bs ++ rest)

/-! ## What is written -/

theorem wellFormedChar_encodeChar (c : Char) : WellFormedChar (encodeChar c) := by
  have hvalid := toNat_lt c
  have hplain := toNat_not_surrogate c
  unfold encodeChar
  generalize c.toNat = n at hvalid hplain
  dsimp only
  have hlast : (0x80 + n % 64).toUInt8.toNat = 0x80 + n % 64 := toNat_toUInt8 (by omega)
  have hmiddle : (0x80 + n / 64 % 64).toUInt8.toNat = 0x80 + n / 64 % 64 :=
    toNat_toUInt8 (by omega)
  have hsecond : (0x80 + n / 4096 % 64).toUInt8.toNat = 0x80 + n / 4096 % 64 :=
    toNat_toUInt8 (by omega)
  split
  · have hfirst := toNat_toUInt8 (show n < 256 by omega)
    exact .one (by omega)
  split
  · have hfirst := toNat_toUInt8 (show 0xC0 + n / 64 < 256 by omega)
    exact .two (by omega) (by omega) ⟨by omega, by omega⟩
  split
  · have hfirst := toNat_toUInt8 (show 0xE0 + n / 4096 < 256 by omega)
    exact .three (by omega) (by omega) ⟨by omega, by omega⟩ ⟨by omega, by omega⟩ (by omega)
      (by omega)
  · have hfirst := toNat_toUInt8 (show 0xF0 + n / 262144 < 256 by omega)
    exact .four (by omega) (by omega) ⟨by omega, by omega⟩ ⟨by omega, by omega⟩
      ⟨by omega, by omega⟩ (by omega) (by omega)

theorem toNat_ofNat_of_lt {n : Nat} (h : n < 0x110000) (hplain : n < 0xD800 ∨ 0xDFFF < n) :
    (Char.ofNat n).toNat = n := by
  rcases toNat_ofNat_cases n with hn | ⟨hn, -⟩
  · exact hn
  · exact absurd (hplain.imp_right fun hlow => ⟨hlow, h⟩) hn

theorem byte_eq {n : Nat} {b : UInt8} (h : n = b.toNat) : n.toUInt8 = b := by
  rw [h, Nat.toUInt8_eq, UInt8.ofNat_toNat]

/-- Every well-formed row of bytes is written for some character. -/
theorem exists_encodeChar {bs : Bytes} (h : WellFormedChar bs) : ∃ c, encodeChar c = bs := by
  -- The number is put together from what the bytes add to it. The narrowed second bytes keep it in
  -- the range of its row and out of the surrogates.
  cases h with
  | @one a ha =>
    refine ⟨Char.ofNat a.toNat, ?_⟩
    rw [encodeChar, toNat_ofNat_byte, if_pos (by omega), byte_eq rfl]
  | @two a b hlow hhigh hb =>
    obtain ⟨n, hn⟩ : ∃ n, n = (a.toNat - 0xC0) * 64 + (b.toNat - 0x80) := ⟨_, rfl⟩
    obtain ⟨hb, hb'⟩ := hb
    have hchar := toNat_ofNat_of_lt (n := n) (by omega) (by omega)
    refine ⟨Char.ofNat n, ?_⟩
    rw [encodeChar, hchar, if_neg (by omega), if_pos (by omega), byte_eq (b := a) (by omega),
      byte_eq (b := b) (by omega)]
  | @three a b c hlow hhigh hb hc hover hsurrogate =>
    obtain ⟨n, hn⟩ : ∃ n, n = (a.toNat - 0xE0) * 4096 + (b.toNat - 0x80) * 64 + (c.toNat - 0x80) :=
      ⟨_, rfl⟩
    obtain ⟨hb, hb'⟩ := hb
    obtain ⟨hc, hc'⟩ := hc
    have hchar := toNat_ofNat_of_lt (n := n) (by omega) (by omega)
    refine ⟨Char.ofNat n, ?_⟩
    rw [encodeChar, hchar, if_neg (by omega), if_neg (by omega), if_pos (by omega),
      byte_eq (b := a) (by omega), byte_eq (b := b) (by omega), byte_eq (b := c) (by omega)]
  | @four a b c d hlow hhigh hb hc hd hover hlarge =>
    obtain ⟨n, hn⟩ : ∃ n, n = (a.toNat - 0xF0) * 262144 + (b.toNat - 0x80) * 4096 +
        (c.toNat - 0x80) * 64 + (d.toNat - 0x80) := ⟨_, rfl⟩
    obtain ⟨hb, hb'⟩ := hb
    obtain ⟨hc, hc'⟩ := hc
    obtain ⟨hd, hd'⟩ := hd
    have hchar := toNat_ofNat_of_lt (n := n) (by omega) (by omega)
    refine ⟨Char.ofNat n, ?_⟩
    rw [encodeChar, hchar, if_neg (by omega), if_neg (by omega), if_neg (by omega),
      byte_eq (b := a) (by omega), byte_eq (b := b) (by omega), byte_eq (b := c) (by omega),
      byte_eq (b := d) (by omega)]

theorem wellFormed_encodeChars (cs : List Char) : WellFormed (encodeChars cs) := by
  induction cs with
  | nil => exact .nil
  | cons c cs ih => exact .append (wellFormedChar_encodeChar c) ih

theorem WellFormed.exists_encodeChars {bs : Bytes} (h : WellFormed bs) :
    ∃ cs, encodeChars cs = bs := by
  induction h with
  | nil => exact ⟨[], rfl⟩
  | append hchar _ ih =>
    obtain ⟨c, rfl⟩ := exists_encodeChar hchar
    obtain ⟨cs, rfl⟩ := ih
    exact ⟨c :: cs, List.flatMap_cons⟩

theorem encodeChars_decodeChars_iff (bs : Bytes) :
    encodeChars (decodeChars bs) = bs ↔ WellFormed bs := by
  constructor
  · intro h
    rw [← h]
    exact wellFormed_encodeChars _
  · intro h
    obtain ⟨cs, rfl⟩ := h.exists_encodeChars
    rw [decodeChars_encodeChars]

theorem encode_decode_iff (bs : Bytes) : encode (decode bs) = bs ↔ WellFormed bs := by
  rw [encode, decode, String.toList_ofList, encodeChars_decodeChars_iff]

/-! ## What is read without a fault -/

section Follow
variable {follow low high share seen size : Nat} {rest : Bytes} {c : Char}

theorem size_of_takeFollowing_zero (h : takeFollowing 0 low high share seen rest = .char c size) :
    size = seen := (Reading.char.inj h).2.symm

theorem exists_of_takeFollowing_succ
    (h : takeFollowing (follow + 1) low high share seen rest = .char c size) :
    ∃ b rest', rest = b :: rest' ∧ low ≤ b.toNat ∧ b.toNat ≤ high ∧
      takeFollowing follow 0x80 0xBF (share * 64 + b.toNat % 64) (seen + 1) rest' =
        .char c size := by
  cases rest with
  | nil => cases h
  | cons b rest =>
    simp only [takeFollowing] at h
    split at h
    · rename_i hb
      exact ⟨b, rest, rfl, hb.1, hb.2, h⟩
    · cases h

end Follow

theorem lead?_eq_none {b : UInt8} (h : b.toNat < 0xC2 ∨ 0xF4 < b.toNat) : lead? b = none := by
  simp only [lead?]
  rw [if_neg (by omega), if_neg (by omega), if_neg (by omega), if_neg (by omega),
    if_neg (by omega), if_neg (by omega), if_neg (by omega)]

/-- The bounds that a lead byte sets are those of the row that it begins. -/
theorem lead?_cases {b : UInt8} {l : Lead} (h : lead? b = some l) :
    (l.follow = 1 ∧ 0xC2 ≤ b.toNat ∧ b.toNat ≤ 0xDF ∧ l.low = 0x80 ∧ l.high = 0xBF) ∨
    (l.follow = 2 ∧ 0xE0 ≤ b.toNat ∧ b.toNat ≤ 0xEF ∧ 0x80 ≤ l.low ∧ l.high ≤ 0xBF ∧
      (b.toNat = 0xE0 → 0xA0 ≤ l.low) ∧ (b.toNat = 0xED → l.high ≤ 0x9F)) ∨
    (l.follow = 3 ∧ 0xF0 ≤ b.toNat ∧ b.toNat ≤ 0xF4 ∧ 0x80 ≤ l.low ∧ l.high ≤ 0xBF ∧
      (b.toNat = 0xF0 → 0x90 ≤ l.low) ∧ (b.toNat = 0xF4 → l.high ≤ 0x8F)) := by
  have hlead : ¬(b.toNat < 0xC2 ∨ 0xF4 < b.toNat) := by
    intro hout
    rw [lead?_eq_none hout] at h
    cases h
  by_cases htwo : b.toNat ≤ 0xDF
  · have hn : b.toNat = 0xC0 + (b.toNat - 0xC0) := by omega
    rw [lead?_two hn (by omega) (by omega)] at h
    cases h
    exact .inl ⟨rfl, by omega, htwo, rfl, rfl⟩
  by_cases hthree : b.toNat ≤ 0xEF
  · have hn : b.toNat = 0xE0 + (b.toNat - 0xE0) := by omega
    rw [lead?_three hn (by omega)] at h
    cases h
    refine .inr (.inl ⟨rfl, by omega, hthree, ?_⟩)
    dsimp only
    split <;> split <;> omega
  · have hn : b.toNat = 0xF0 + (b.toNat - 0xF0) := by omega
    rw [lead?_four hn (by omega)] at h
    cases h
    refine .inr (.inr ⟨rfl, by omega, by omega, ?_⟩)
    dsimp only
    split <;> split <;> omega

/-- A reader that finds a character has found the bytes of one. -/
theorem wellFormedChar_of_readAt {b : UInt8} {rest : Bytes} {c : Char} {size : Nat}
    (h : readAt b rest = .char c size) :
    ∃ tails rest', rest = tails ++ rest' ∧ size = tails.length + 1 ∧
      WellFormedChar (b :: tails) := by
  simp only [readAt] at h
  split at h
  · rename_i hb
    exact ⟨[], rest, rfl, (Reading.char.inj h).2.symm, .one (by omega)⟩
  split at h
  · cases h
  rename_i l hl
  rcases lead?_cases hl with ⟨hfollow, hlow, hhigh, hl, hl'⟩ |
    ⟨hfollow, hlow, hhigh, hl, hl', hover, hsurrogate⟩ |
    ⟨hfollow, hlow, hhigh, hl, hl', hover, hlarge⟩
  · rw [hfollow] at h
    obtain ⟨d, rest, rfl, hd, hd', h⟩ := exists_of_takeFollowing_succ h
    exact ⟨[d], rest, rfl, size_of_takeFollowing_zero h, .two hlow hhigh ⟨by omega, by omega⟩⟩
  · rw [hfollow] at h
    obtain ⟨d, rest, rfl, hd, hd', h⟩ := exists_of_takeFollowing_succ h
    obtain ⟨e, rest, rfl, he, he', h⟩ := exists_of_takeFollowing_succ h
    exact ⟨[d, e], rest, rfl, size_of_takeFollowing_zero h,
      .three hlow hhigh ⟨by omega, by omega⟩ ⟨he, he'⟩ (by omega) (by omega)⟩
  · rw [hfollow] at h
    obtain ⟨d, rest, rfl, hd, hd', h⟩ := exists_of_takeFollowing_succ h
    obtain ⟨e, rest, rfl, he, he', h⟩ := exists_of_takeFollowing_succ h
    obtain ⟨f, rest, rfl, hf, hf', h⟩ := exists_of_takeFollowing_succ h
    exact ⟨[d, e, f], rest, rfl, size_of_takeFollowing_zero h,
      .four hlow hhigh ⟨by omega, by omega⟩ ⟨he, he'⟩ ⟨hf, hf'⟩ (by omega) (by omega)⟩

theorem faultFrom_append (position : Nat) (bs rest : Bytes) :
    faultFrom position bs.length (bs ++ rest) = faultFrom (position + bs.length) 0 rest := by
  induction bs generalizing position with
  | nil => rfl
  | cons b bs ih =>
    rw [List.length_cons, List.cons_append, faultFrom, ih]
    congr 1
    omega

theorem faultFrom_encodeChars (position : Nat) (cs : List Char) :
    faultFrom position 0 (encodeChars cs) = none := by
  induction cs generalizing position with
  | nil => rfl
  | cons c cs ih =>
    obtain ⟨b, bs, hbytes, hread⟩ := readAt_encodeChar c (encodeChars cs)
    rw [encodeChars, List.flatMap_cons, hbytes, List.cons_append]
    rw [encodeChars] at hread ih
    simp only [faultFrom, hread, Nat.add_sub_cancel, faultFrom_append, ih]

theorem wellFormed_of_faultFrom {position : Nat} {bs : Bytes}
    (h : faultFrom position 0 bs = none) : WellFormed bs := by
  induction hn : bs.length using Nat.strongRecOn generalizing position bs with
  | _ n ih =>
    cases bs with
    | nil => exact .nil
    | cons b rest =>
      simp only [faultFrom] at h
      split at h
      · rename_i c size hread
        obtain ⟨tails, rest', rfl, rfl, hchar⟩ := wellFormedChar_of_readAt hread
        rw [Nat.add_sub_cancel, faultFrom_append] at h
        rw [List.length_cons, List.length_append] at hn
        exact .append hchar (ih rest'.length (by omega) h rfl)
      · cases h
      · cases h

/-- A reader that reports faults reports none in well-formed bytes, and one in all others. -/
theorem fault?_eq_none_iff (bs : Bytes) : fault? bs = none ↔ WellFormed bs := by
  constructor
  · exact wellFormed_of_faultFrom
  · intro h
    obtain ⟨cs, rfl⟩ := h.exists_encodeChars
    exact faultFrom_encodeChars 0 cs

instance : DecidablePred WellFormed := fun bs => decidable_of_iff _ (fault?_eq_none_iff bs)

/-- A surrogate is not well-formed, and neither is a character that is cut off. -/
example : ¬ WellFormed [0xED, 0xA0, 0x80] ∧ ¬ WellFormed [0xE2, 0x82] := by decide

end Letterbox.Utf8
