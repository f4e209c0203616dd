import Letterbox.Proofs.Net.Reassembly
import Letterbox.Proofs.Text.Resync
import Letterbox.Proofs.Text.WellFormed

/-!
# Text line by line

Text is read line by line as it is read as a whole, in either encoding and whatever the bytes are.
What reading and writing one after the other keep is said for each of the encodings: Latin-1 keeps
all bytes and UTF-8 all characters.
-/

namespace Letterbox.Encoding

set_option autoImplicit false

open Lines

section
variable (e : Encoding)

/-- A byte of ASCII cuts the text where it cuts the bytes. -/
theorem decodeChars_append {a : UInt8} (ha : a.toNat < 128) (x y : Bytes) :
    e.decodeChars (x ++ a :: y) = e.decodeChars x ++ Char.ofNat a.toNat :: e.decodeChars y := by
  cases e with
  | latin1 => exact List.map_append
  | utf8 => exact Utf8.decodeChars_append_ascii ha y x

theorem newline_not_mem_decodeChars {bs : Bytes} (h : lf ∉ bs) : '\n' ∉ e.decodeChars bs := by
  intro hmem
  apply h
  apply e.mem_of_mem_decode (show 0 < '\n'.toNat by decide) (by decide)
  rwa [decode, String.toList_ofList]

theorem splitOn_decodeChars (bs : Bytes) :
    (e.decodeChars bs).splitOn '\n' = (bs.splitOn lf).map e.decodeChars := by
  induction hn : bs.length using Nat.strongRecOn generalizing bs with
  | _ n ih =>
    by_cases hlf : lf ∈ bs
    · obtain ⟨line, rest, rfl, hline⟩ := List.eq_append_cons_of_mem hlf
      rw [List.length_append, List.length_cons] at hn
      have hnewline : Char.ofNat lf.toNat = '\n' := rfl
      rw [e.decodeChars_append (by decide), hnewline,
        List.splitOn_append_cons_self_of_not_mem (e.newline_not_mem_decodeChars hline),
        List.splitOn_append_cons_self_of_not_mem hline, List.map_cons,
        ih rest.length (by omega) rest rfl]
    · rw [List.splitOn_eq_singleton (e.newline_not_mem_decodeChars hlf),
        List.splitOn_eq_singleton hlf, List.map_singleton]

theorem map_decode_splitOn (bs : Bytes) :
    (bs.splitOn lf).map e.decode = ((e.decode bs).toList.splitOn '\n').map String.ofList := by
  rw [decode, String.toList_ofList, splitOn_decodeChars, List.map_map]
  rfl

theorem decode_append {a : UInt8} (ha : a.toNat < 128) (x y : Bytes) :
    e.decode (x ++ [a] ++ y) =
      e.decode x ++ String.singleton (Char.ofNat a.toNat) ++ e.decode y := by
  rw [List.append_assoc, List.singleton_append, decode, e.decodeChars_append ha]
  apply String.toList_inj.mp
  simp only [decode, String.toList_append, String.toList_ofList, String.toList_singleton,
    List.append_assoc, List.singleton_append]

end

/-! ## Latin-1 there and back -/

theorem latin1Byte_latin1Char (b : UInt8) : latin1Byte (latin1Char b) = b := by
  have hb := b.toNat_lt
  rw [latin1Byte, latin1Char, Utf8.toNat_ofNat_byte, if_pos (by omega), Nat.toUInt8_eq,
    UInt8.ofNat_toNat]

theorem latin1Char_latin1Byte (c : Char) :
    latin1Char (latin1Byte c) = if c.toNat ≤ 0xFF then c else '?' := by
  unfold latin1Byte
  split
  · rw [latin1Char, Utf8.toNat_toUInt8 (by omega), Char.ofNat_toNat]
  · rfl

theorem encode_decode_latin1 (bs : Bytes) : latin1.encode (latin1.decode bs) = bs := by
  have hsame : latin1Byte ∘ latin1Char = id := funext latin1Byte_latin1Char
  rw [encode, decode, String.toList_ofList, decodeChars, encodeChars, List.map_map, hsame,
    List.map_id]

theorem decode_encode_latin1 (s : String) :
    latin1.decode (latin1.encode s) = s.map fun c => if c.toNat ≤ 0xFF then c else '?' := by
  rw [encode, decode, decodeChars, encodeChars, List.map_map]
  apply String.toList_inj.mp
  rw [String.toList_ofList, String.toList_map]
  exact List.map_congr_left fun c _ => latin1Char_latin1Byte c

/-- Reading line by line is reading the whole, as a byte of ASCII is never taken into what stands
around it. Latin-1 loses characters beyond its own when it is written and nothing when it is read;
UTF-8 loses nothing when it is written, and bytes that are not well-formed when it is read. These
are the bytes in which a reader that reports faults finds one. -/
theorem decoding_linewise :
    (∀ (e : Encoding) (bs : Bytes),
      (bs.splitOn lf).map e.decode = ((e.decode bs).toList.splitOn '\n').map String.ofList) ∧
    (∀ (e : Encoding) (x y : Bytes) (a : UInt8), a.toNat < 128 →
      e.decode (x ++ [a] ++ y) =
        e.decode x ++ String.singleton (Char.ofNat a.toNat) ++ e.decode y) ∧
    (∀ bs, latin1.encode (latin1.decode bs) = bs) ∧
    (∀ s, latin1.decode (latin1.encode s) = s.map fun c => if c.toNat ≤ 0xFF then c else '?') ∧
    (∀ s, utf8.decode (utf8.encode s) = s) ∧
    (∀ bs, utf8.encode (utf8.decode bs) = bs ↔ Utf8.WellFormed bs) ∧
    ∀ bs, Utf8.fault? bs = none ↔ Utf8.WellFormed bs :=
  ⟨map_decode_splitOn, fun e x y _ ha => e.decode_append ha x y, encode_decode_latin1,
    decode_encode_latin1, Utf8.decode_encode, Utf8.encode_decode_iff, Utf8.fault?_eq_none_iff⟩

/-- A character that a line feed interrupts is a fault on either side of it. -/
theorem decoding_linewise_cut :
    lf.toNat < 128 ∧ ¬ Utf8.WellFormed [0xE2, 0x82, 10, 0xAC, 33] ∧
      utf8.decode ([0xE2, 0x82] ++ [lf] ++ [0xAC, 33]) = "\uFFFD" ++ "\n" ++ "\uFFFD!" := by
  have hlf : lf.toNat < 128 := by decide
  refine ⟨hlf, by decide, ?_⟩
  exact decoding_linewise.2.1 utf8 [0xE2, 0x82] [0xAC, 33] lf hlf

end Letterbox.Encoding
