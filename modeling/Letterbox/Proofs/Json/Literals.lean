import Letterbox.Json.Reader
import Letterbox.Proofs.Text.Numerals
import Letterbox.Proofs.Text.Plain
import Letterbox.Proofs.Text.Utf8

/-!
# Strings and numbers there and back

A string or a number that is written as JSON is read back as it was, whatever characters are in it
and whatever comes behind it.
-/

namespace Letterbox.Json

set_option autoImplicit false

open Text

/-! ## Strings -/

theorem length_le_encodeChars (cs : List Char) : cs.length ≤ (Utf8.encodeChars cs).length := by
  induction cs with
  | nil => exact Nat.zero_le _
  | cons c cs ih =>
    obtain ⟨b, bs, hbytes, -⟩ := Utf8.readAt_encodeChar c []
    have hcons : Utf8.encodeChars (c :: cs) = b :: (bs ++ Utf8.encodeChars cs) := by
      rw [Utf8.encodeChars, List.flatMap_cons, hbytes]
      rfl
    rw [hcons, List.length_cons, List.length_cons, List.length_append]
    omega

theorem unit_fixedDigits {n : Nat} (h : n < 65536) (rest : List Char) :
    unit (fixedDigits 16 4 n ++ rest) = .ok (n, rest) := by
  have hdigits : fixedDigits 16 4 n ++ rest =
      digitChar (n / 16 / 16 / 16 % 16) :: digitChar (n / 16 / 16 % 16) ::
        digitChar (n / 16 % 16) :: digitChar (n % 16) :: rest := by
    simp only [fixedDigits, List.nil_append, List.cons_append]
  have hlen : ¬(Utf8.encodeChars ((fixedDigits 16 4 n ++ rest).take 4)).length < 4 := by
    have hle := length_le_encodeChars ((fixedDigits 16 4 n ++ rest).take 4)
    rw [List.length_take, List.length_append, length_fixedDigits] at hle
    omega
  have hsum : ((n / 16 / 16 / 16 % 16 * 16 + n / 16 / 16 % 16) * 16 + n / 16 % 16) * 16 + n % 16 =
      n := by omega
  unfold unit
  rw [if_neg hlen, hdigits]
  simp only [hexDigit?_digitChar (Nat.mod_lt _ (show 0 < 16 by decide)), hsum]

/-- The ways in which a character is written between quotes. -/
inductive Escaped (c : Char) : List Char → Prop where
  | short (e : Char) : e ≠ 'u' → 32 ≤ e.toNat → shortEscape? e = some c → Escaped c ['\\', e]
  | unit : c.toNat < 32 → Escaped c ('\\' :: 'u' :: fixedDigits 16 4 c.toNat)
  | plain : c ≠ '"' → c ≠ '\\' → 32 ≤ c.toNat → Escaped c [c]

theorem escaped (c : Char) : Escaped c (escapeChar c) := by
  have hshort : ∀ e d : Char, e ≠ 'u' → 32 ≤ e.toNat → shortEscape? e = some d → c.toNat = d.toNat →
      Escaped c ['\\', e] := by
    intro e d hu he hd hc
    rw [Char.toNat_inj.mp hc]
    exact .short e hu he hd
  unfold escapeChar
  split
  · rename_i h
    exact hshort '"' '"' (by decide) (by decide) (by decide) (congrArg Char.toNat h)
  rename_i hquote
  split
  · rename_i h
    exact hshort '\\' '\\' (by decide) (by decide) (by decide) (congrArg Char.toNat h)
  rename_i hbackslash
  split
  · rename_i h
    exact hshort 'b' (Char.ofNat 8) (by decide) (by decide) (by decide) h
  split
  · rename_i h
    exact hshort 't' '\t' (by decide) (by decide) (by decide) h
  split
  · rename_i h
    exact hshort 'n' '\n' (by decide) (by decide) (by decide) h
  split
  · rename_i h
    exact hshort 'f' (Char.ofNat 12) (by decide) (by decide) (by decide) h
  split
  · rename_i h
    exact hshort 'r' '\r' (by decide) (by decide) (by decide) h
  split
  · rename_i h
    exact .unit h
  · rename_i h
    exact .plain hquote hbackslash (by omega)

theorem nextChar_escapeChar (c : Char) (rest : List Char) :
    nextChar (escapeChar c ++ rest) = .ok (some c, rest) := by
  have h := escaped c
  generalize escapeChar c = cs at h
  cases h with
  | short e hu _ hshort => simp only [List.cons_append, List.nil_append, nextChar, hshort]
  | unit hc =>
    have hlow : isLowSurrogate c.toNat = false := by
      simp only [isLowSurrogate, Bool.and_eq_false_iff, decide_eq_false_iff_not]
      omega
    have hhigh : isHighSurrogate c.toNat = false := by
      simp only [isHighSurrogate, Bool.and_eq_false_iff, decide_eq_false_iff_not]
      omega
    have hjoin : joinUnits c.toNat rest = .ok (c, rest) := by
      simp only [joinUnits, hlow, hhigh, Bool.false_eq_true, if_false, Char.ofNat_toNat]
    simp only [List.cons_append, nextChar, unit_fixedDigits (show c.toNat < 65536 by omega), bind,
      Except.bind, hjoin, pure, Except.pure]
  | plain hquote hbackslash hc =>
    rw [List.singleton_append]
    unfold nextChar
    split
    · contradiction
    · exact absurd (List.cons.inj ‹_›).1 hquote
    · exact absurd (List.cons.inj ‹_›).1 hbackslash
    · exact absurd (List.cons.inj ‹_›).1 hbackslash
    · exact absurd (List.cons.inj ‹_›).1 hbackslash
    · rename_i h
      obtain ⟨rfl, rfl⟩ := List.cons.inj h
      rw [if_neg (by omega)]

theorem passChar_escapeChar (c : Char) (rest : List Char) :
    passChar (escapeChar c ++ rest) = .ok (true, rest) := by
  have h := escaped c
  generalize escapeChar c = cs at h
  cases h with
  | short e hu _ hshort => simp only [List.cons_append, List.nil_append, passChar, hshort]
  | unit hc =>
    simp only [List.cons_append, passChar, unit_fixedDigits (show c.toNat < 65536 by omega), bind,
      Except.bind, pure, Except.pure]
  | plain hquote hbackslash hc =>
    rw [List.singleton_append]
    unfold passChar
    split
    · contradiction
    · exact absurd (List.cons.inj ‹_›).1 hquote
    · exact absurd (List.cons.inj ‹_›).1 hbackslash
    · exact absurd (List.cons.inj ‹_›).1 hbackslash
    · exact absurd (List.cons.inj ‹_›).1 hbackslash
    · rename_i h
      obtain ⟨rfl, rfl⟩ := List.cons.inj h
      rw [if_neg (by omega)]

theorem stringBody_escaped (cs rest : List Char) {fuel : Nat} (hfuel : cs.length < fuel) :
    stringBody fuel (cs.flatMap escapeChar ++ '"' :: rest) = .ok cs := by
  induction cs generalizing fuel with
  | nil =>
    obtain ⟨fuel, rfl⟩ := Nat.exists_eq_add_of_lt hfuel
    rfl
  | cons c cs ih =>
    obtain ⟨fuel, rfl⟩ : ∃ k, fuel = k + 1 := ⟨fuel - 1, by omega⟩
    rw [List.length_cons] at hfuel
    rw [List.flatMap_cons, List.append_assoc]
    have hcs := ih (show cs.length < fuel by omega)
    simp only [stringBody, nextChar_escapeChar, bind, Except.bind, hcs, pure, Except.pure]

theorem afterString_escaped (cs rest : List Char) {fuel : Nat} (hfuel : cs.length < fuel) :
    afterString fuel (cs.flatMap escapeChar ++ '"' :: rest) = .ok rest := by
  induction cs generalizing fuel with
  | nil =>
    obtain ⟨fuel, rfl⟩ := Nat.exists_eq_add_of_lt hfuel
    rfl
  | cons c cs ih =>
    obtain ⟨fuel, rfl⟩ : ∃ k, fuel = k + 1 := ⟨fuel - 1, by omega⟩
    rw [List.length_cons] at hfuel
    rw [List.flatMap_cons, List.append_assoc]
    simp only [afterString, passChar_escapeChar, bind, Except.bind]
    exact ih (by omega)

theorem length_le_escaped (cs : List Char) : cs.length ≤ (cs.flatMap escapeChar).length := by
  induction cs with
  | nil => exact Nat.zero_le _
  | cons c cs ih =>
    have hne : escapeChar c ≠ [] := by
      intro h
      have hc := escaped c
      rw [h] at hc
      cases hc
    have hpos := List.length_pos_iff.mpr hne
    rw [List.flatMap_cons, List.length_append, List.length_cons]
    omega

/-- A string is read back from between its quotes. -/
theorem readLiteral_quote (s : String) (rest : List Char) :
    readLiteral (s.toList.flatMap escapeChar ++ '"' :: rest) = (⟨.ok s, none⟩, some rest) := by
  have hfuel : s.toList.length < (s.toList.flatMap escapeChar ++ '"' :: rest).length + 1 := by
    have hle := length_le_escaped s.toList
    rw [List.length_append]
    omega
  simp only [readLiteral, stringBody_escaped _ _ hfuel, afterString_escaped _ _ hfuel, Except.map,
    String.ofList_toList]

/-! ## Numbers -/

theorem isDigit_iff (c : Char) : isDigit c = true ↔ 48 ≤ c.toNat ∧ c.toNat ≤ 57 := by
  rw [isDigit, Bool.and_eq_true, decide_eq_true_eq, decide_eq_true_eq]
  exact Iff.rfl

theorem isDigit_of_mem_toDigits {n : Nat} {c : Char} (hc : c ∈ Nat.toDigits 10 n) :
    isDigit c = true :=
  (isDigit_iff c).mpr (digit_of_mem_toDigits hc)

theorem digitsValue_toDigits (n : Nat) : digitsValue (Nat.toDigits 10 n) = n := by
  rw [digitsValue, digitsFrom_of_digits fun _ hc => digit_of_mem_toDigits hc, Option.getD_some,
    Nat.ofDigitChars_ten_toDigits]

/-- No number but zero is written with a zero in front. -/
theorem head_toDigits {n : Nat} (hn : 0 < n) {d : Char} {ds : List Char}
    (h : Nat.toDigits 10 n = d :: ds) : d ≠ '0' := by
  induction n using Nat.strongRecOn generalizing ds with
  | ind n ih =>
    by_cases hlt : n < 10
    · rw [Nat.toDigits_of_lt_base hlt, List.cons.injEq] at h
      rw [← h.1, ne_eq, Nat.digitChar_eq_zero]
      omega
    · rw [Nat.toDigits_of_base_le (by decide) (by omega)] at h
      obtain ⟨e, es, hes⟩ := List.exists_cons_of_ne_nil
        (Nat.toDigits_ne_nil (n := n / 10) (b := 10))
      rw [hes, List.cons_append, List.cons.injEq] at h
      obtain ⟨rfl, -⟩ := h
      exact ih (n / 10) (by omega) (by omega) hes

def EndsNumber (rest : List Char) : Prop :=
  ∀ c ∈ rest.head?, isDigit c = false ∧ c ≠ '.' ∧ c ≠ 'e' ∧ c ≠ 'E'

theorem takeWhile_toDigits {n : Nat} {rest : List Char} (h : EndsNumber rest) :
    (Nat.toDigits 10 n ++ rest).takeWhile isDigit = Nat.toDigits 10 n := by
  rw [List.takeWhile_append_of_pos fun _ hc => isDigit_of_mem_toDigits hc]
  cases rest with
  | nil => rw [List.takeWhile_nil, List.append_nil]
  | cons c rest =>
    rw [List.takeWhile_cons, if_neg (by rw [(h c rfl).1]; decide), List.append_nil]

theorem readExponent_of_ends {rest : List Char} (h : EndsNumber rest)
    (close : Option Int → Numeral) :
    readExponent rest close = (.number (close none), some rest) := by
  cases rest with
  | nil => rfl
  | cons c rest =>
    have hc := h c rfl
    simp only [readExponent, hc.2.2.1, hc.2.2.2, or_self, if_false]

theorem readRest_of_ends {rest : List Char} (h : EndsNumber rest) {negative : Bool}
    (whole : List Char) :
    (match rest with
      | '.' :: more =>
        if (more.takeWhile isDigit).isEmpty then numberDefect (more.dropWhile isDigit)
        else readExponent (more.dropWhile isDigit)
          (numeral negative whole (some (more.takeWhile isDigit)))
      | c :: _ =>
        if isDigit c then (.broken .malformed .malformed, none)
        else readExponent rest (numeral negative whole none)
      | [] => readExponent rest (numeral negative whole none)) =
      (.number (numeral negative whole none none), some rest) := by
  cases rest with
  | nil => exact readExponent_of_ends h _
  | cons c rest =>
    have hc := h c rfl
    split
    · exact absurd (List.cons.inj ‹_›).1 hc.2.1
    · rename_i d _ _ hd
      obtain ⟨rfl, rfl⟩ := List.cons.inj hd
      rw [if_neg (by rw [hc.1]; decide)]
      exact readExponent_of_ends h _
    · contradiction

/-- A number is read back from its digits. -/
theorem readNumber_toDigits (negative : Bool) (n : Nat) {rest : List Char} (h : EndsNumber rest) :
    readNumber negative (Nat.toDigits 10 n ++ rest) =
      (.number (numeral negative (Nat.toDigits 10 n) none none), some rest) := by
  have htake := takeWhile_toDigits (n := n) h
  have hdrop : (Nat.toDigits 10 n ++ rest).drop (Nat.toDigits 10 n).length = rest :=
    List.drop_left
  have hzero : ∀ more, Nat.toDigits 10 n ++ rest = '0' :: more → Nat.toDigits 10 n = ['0'] := by
    intro more hmore
    rcases Nat.eq_zero_or_pos n with rfl | hn
    · exact Nat.toDigits_zero 10
    · obtain ⟨d, ds, hds⟩ := List.exists_cons_of_ne_nil
        (Nat.toDigits_ne_nil (n := n) (b := 10))
      rw [hds, List.cons_append, List.cons.injEq] at hmore
      exact absurd hmore.1 (head_toDigits hn hds)
  have hne : (Nat.toDigits 10 n).isEmpty = false :=
    List.isEmpty_eq_false_iff.mpr Nat.toDigits_ne_nil
  generalize Nat.toDigits 10 n = whole at htake hdrop hzero hne ⊢
  generalize whole ++ rest = cs at htake hdrop hzero ⊢
  unfold readNumber
  -- A leading zero is a whole part of its own, so the digits are read in two ways.
  split
  · simp only [← hzero _ rfl, hdrop, hne, Bool.false_eq_true, if_false]
    exact readRest_of_ends h _
  · simp only [htake, hdrop, hne, Bool.false_eq_true, if_false]
    exact readRest_of_ends h _

def numeralOf (n : Int) : Numeral := if isHuge n.natAbs 0 then .huge else .integer n

theorem numeral_toDigits {n : Int} {negative : Bool} (h : negative = decide (n < 0)) :
    numeral negative (Nat.toDigits 10 n.natAbs) none none = numeralOf n := by
  have hvalue : digitsValue (Nat.toDigits 10 n.natAbs ++ []) = n.natAbs := by
    rw [List.append_nil, digitsValue_toDigits]
  simp only [numeral, Option.getD_none, hvalue, List.length_nil, numeralOf, Option.isSome_none,
    Bool.or_self, Bool.false_or, Int.sub_zero, Int.natCast_zero]
  subst h
  by_cases hn : n < 0
  · have habs : (n.natAbs == 0) = false := by
      rw [beq_eq_false_iff_ne]
      omega
    have hneg : -(n.natAbs : Int) = n := by omega
    simp only [hn, decide_true, Bool.true_and, habs, Bool.false_eq_true, if_true, if_false, hneg]
  · have hpos : (n.natAbs : Int) = n := by omega
    simp only [hn, decide_false, Bool.false_and, Bool.false_eq_true, if_false, hpos]

/-- A number of twenty digits is far from the range of double precision. -/
theorem numeralOf_nat {n : Nat} (h : n < 10 ^ 20) : numeralOf n = .integer n := by
  have hlen : (Nat.toDigits 10 n).length ≤ 20 :=
    (Nat.length_toDigits_le_iff (by decide) (by decide)).mpr h
  have hhuge : isHuge n 0 = false := by
    unfold isHuge
    split
    · rfl
    · rw [if_neg (by omega), if_pos (by omega)]
  rw [numeralOf, Int.natAbs_natCast, hhuge, if_neg Bool.false_ne_true]

end Letterbox.Json
