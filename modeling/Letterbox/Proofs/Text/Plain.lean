import Letterbox.Net.Lines
import Letterbox.Text.Encoding

/-!
# Plain text

Text of ASCII characters on one line. Both encodings of a connection write it alike, one byte for a
character, and read it back as it was.
-/

namespace Letterbox

set_option autoImplicit false

open Lines

def PlainChars (cs : List Char) : Prop := ∀ c ∈ cs, c.toNat < 128 ∧ c ≠ '\r' ∧ c ≠ '\n'

def Plain (s : String) : Prop := PlainChars s.toList

theorem plain_iff_all (s : String) :
    (s.toList.all fun c => c.toNat < 128 && c != '\r' && c != '\n') = true ↔ Plain s := by
  simp only [Plain, PlainChars, List.all_eq_true, Bool.and_eq_true, decide_eq_true_eq, bne_iff_ne,
    and_assoc]

instance (s : String) : Decidable (Plain s) := decidable_of_iff _ (plain_iff_all s)

theorem PlainChars.append {cs ds : List Char} (hc : PlainChars cs) (hd : PlainChars ds) :
    PlainChars (cs ++ ds) := by
  intro c h
  rcases List.mem_append.mp h with h | h
  · exact hc c h
  · exact hd c h

theorem Plain.append {s t : String} (hs : Plain s) (ht : Plain t) : Plain (s ++ t) := by
  rw [Plain, String.toList_append]
  exact PlainChars.append hs ht

theorem digit_of_mem_toDigits {n : Nat} {c : Char} (hc : c ∈ Nat.toDigits 10 n) :
    48 ≤ c.toNat ∧ c.toNat ≤ 57 := by
  have hdigit := Nat.isDigit_of_mem_toDigits (by decide) (by decide) hc
  simp only [Char.isDigit, ge_iff_le, Bool.and_eq_true, decide_eq_true_eq,
    UInt32.le_iff_toNat_le] at hdigit
  exact hdigit

theorem digit_of_mem_toString {n : Nat} {c : Char} (hc : c ∈ (toString n).toList) :
    48 ≤ c.toNat ∧ c.toNat ≤ 57 := by
  have hdigits : (toString n).toList = Nat.toDigits 10 n := Nat.toList_repr
  exact digit_of_mem_toDigits (hdigits ▸ hc)

theorem hexDigit?_digitChar {d : Nat} (h : d < 16) :
    Text.hexDigit? (Text.digitChar d) = some d := by
  have hall : ∀ d : Fin 16, Text.hexDigit? (Text.digitChar d) = some d.1 := by decide
  exact hall ⟨d, h⟩

theorem mem_fixedDigits {width n : Nat} {c : Char} (hc : c ∈ Text.fixedDigits 16 width n) :
    ∃ d, d < 16 ∧ c = Text.digitChar d := by
  induction width generalizing n with
  | zero => cases hc
  | succ width ih =>
    rw [Text.fixedDigits, List.mem_append, List.mem_singleton] at hc
    rcases hc with hc | rfl
    · exact ih hc
    · exact ⟨n % 16, Nat.mod_lt n (by decide), rfl⟩

theorem plain_toString (n : Nat) : Plain (toString n) := by
  intro c hc
  have hdigit := digit_of_mem_toString hc
  refine ⟨by omega, ?_, ?_⟩
  · rintro rfl
    exact absurd hdigit.1 (by decide)
  · rintro rfl
    exact absurd hdigit.1 (by decide)

namespace PlainChars

variable {cs : List Char} {c : Char}

theorem toNat_byte (hc : c.toNat < 128) : c.toNat.toUInt8.toNat = c.toNat :=
  UInt8.toNat_ofNat_of_lt' (Nat.lt_trans hc (by decide))

theorem encodeChar_utf8 (hc : c.toNat < 128) : Utf8.encodeChar c = [c.toNat.toUInt8] := by
  simp only [Utf8.encodeChar, if_pos hc]

theorem latin1Byte (hc : c.toNat < 128) : Encoding.latin1Byte c = c.toNat.toUInt8 := by
  rw [Encoding.latin1Byte, if_pos (by omega)]

theorem encodeChars_utf8 (h : PlainChars cs) :
    Utf8.encodeChars cs = Encoding.latin1.encodeChars cs := by
  induction cs with
  | nil => rfl
  | cons c cs ih =>
    have hc := (h c List.mem_cons_self).1
    have hcs : PlainChars cs := fun d hd => h d (List.mem_cons_of_mem c hd)
    rw [Utf8.encodeChars, List.flatMap_cons, encodeChar_utf8 hc]
    rw [Utf8.encodeChars] at ih
    rw [ih hcs]
    simp only [Encoding.encodeChars, List.map_cons, latin1Byte hc, List.singleton_append]

theorem decodeChars_latin1 (h : PlainChars cs) :
    Encoding.latin1.decodeChars (Encoding.latin1.encodeChars cs) = cs := by
  simp only [Encoding.decodeChars, Encoding.encodeChars, List.map_map]
  rw [List.map_congr_left (g := id), List.map_id]
  intro c hc
  have hlt := (h c hc).1
  rw [Function.comp_apply, latin1Byte hlt, Encoding.latin1Char, toNat_byte hlt, Char.ofNat_toNat]
  rfl

theorem mem_encodeChars (h : PlainChars cs) {b : UInt8}
    (hb : b ∈ Encoding.latin1.encodeChars cs) : b.toNat < 128 ∧ b ≠ cr ∧ b ≠ lf := by
  simp only [Encoding.encodeChars, List.mem_map] at hb
  obtain ⟨c, hc, rfl⟩ := hb
  obtain ⟨hlt, hcr, hlf⟩ := h c hc
  have hbyte := toNat_byte hlt
  rw [latin1Byte hlt]
  refine ⟨by omega, ?_, ?_⟩
  · intro heq
    rw [heq] at hbyte
    exact hcr (Char.toNat_inj.mp hbyte.symm)
  · intro heq
    rw [heq] at hbyte
    exact hlf (Char.toNat_inj.mp hbyte.symm)

end PlainChars

namespace Plain

variable {s : String}

theorem encode_utf8 (h : Plain s) : Utf8.encode s = Encoding.latin1.encode s :=
  PlainChars.encodeChars_utf8 h

theorem decode_latin1 (h : Plain s) : Encoding.latin1.decode (Encoding.latin1.encode s) = s := by
  rw [Encoding.decode, Encoding.encode, PlainChars.decodeChars_latin1 h, String.ofList_toList]

theorem ascii (h : Plain s) : ∀ b ∈ Encoding.latin1.encode s, b.toNat < 128 :=
  fun _ hb => (PlainChars.mem_encodeChars h hb).1

theorem cr_not_mem (h : Plain s) : cr ∉ Encoding.latin1.encode s :=
  fun hb => (PlainChars.mem_encodeChars h hb).2.1 rfl

theorem lf_not_mem (h : Plain s) : lf ∉ Encoding.latin1.encode s :=
  fun hb => (PlainChars.mem_encodeChars h hb).2.2 rfl

end Plain

theorem length_encode_latin1 (s : String) : (Encoding.latin1.encode s).length = s.length := by
  simp only [Encoding.encode, Encoding.encodeChars, List.length_map, String.length_toList]

theorem encode_append_latin1 (s t : String) :
    Encoding.latin1.encode (s ++ t) = Encoding.latin1.encode s ++ Encoding.latin1.encode t := by
  simp only [Encoding.encode, Encoding.encodeChars, String.toList_append, List.map_append]

theorem encode_append_utf8 (s t : String) :
    Utf8.encode (s ++ t) = Utf8.encode s ++ Utf8.encode t := by
  simp only [Utf8.encode, Utf8.encodeChars, String.toList_append, List.flatMap_append]

theorem fault?_of_ascii {bs : Bytes} (h : ∀ b ∈ bs, b.toNat < 128) : Utf8.fault? bs = none := by
  have hfrom : ∀ position, Utf8.faultFrom position 0 bs = none := by
    induction bs with
    | nil => exact fun _ => rfl
    | cons b rest ih =>
      intro position
      have hb : b.toNat < 0x80 := h b List.mem_cons_self
      simp only [Utf8.faultFrom, Utf8.readAt, if_pos hb]
      exact ih (fun c hc => h c (List.mem_cons_of_mem b hc)) (position + 1)
  exact hfrom 0

end Letterbox
