import Letterbox.Proofs.Smtp.Framing
import Letterbox.Proofs.Smtp.Replies
import Letterbox.Proofs.Text.Numerals

/-!
# What is written of a reply is read of it

The sending side reads a reply up to the end that the server has given it, and no byte further. What
its lines begin with does not matter, nor whether it has any, nor how the bytes are cut into pieces
on the way.
-/

namespace Letterbox.Smtp

set_option autoImplicit false

open Sending

theorem threeDigits {code : Nat} (hlow : 100 ≤ code) (hhigh : code ≤ 999) : ThreeDigits code := by
  have hdigits : (toString code).toList = Nat.toDigits 10 code := Nat.toList_repr
  have hlen : (Nat.toDigits 10 code).length = 3 := by
    have hle := (Nat.length_toDigits_le_iff (k := 3) (show 1 < 10 by decide) (by decide)).mpr
      (show code < 10 ^ 3 by omega)
    have hnot := mt (Nat.length_toDigits_le_iff (k := 2) (show 1 < 10 by decide) (by decide)).mp
      (show ¬code < 10 ^ 2 by omega)
    omega
  have hlength : (Encoding.latin1.encode (toString code)).length = 3 := by
    rw [length_encode_latin1, ← String.length_toList, hdigits, hlen]
  have hdecode : (Encoding.latin1.encode (toString code)).map (fun b => Char.ofNat b.toNat) =
      Nat.toDigits 10 code :=
    (PlainChars.decodeChars_latin1 (plain_toString code)).trans hdigits
  refine ⟨hlength, ?_⟩
  rw [codeOf?, if_neg (by omega), List.take_of_length_le (Nat.le_of_eq hlength), hdecode,
    Text.numeral?_toDigits (by omega)]

namespace Reply

/-- A reply without lines is written as one with an empty line. -/
theorem formatLines_nil (code : Nat) : formatLines code [] = formatLines code [""] := by
  apply String.toList_injective
  simp only [formatLines, String.toList_append, List.append_assoc]
  rfl

theorem exists_readable {r : Reply} (hcode : 100 ≤ r.code ∧ r.code ≤ 999)
    (hlines : ∀ l ∈ r.lines, Plain l) :
    ∃ s : Reply, s.Readable ∧ s.code = r.code ∧ s.format = r.format := by
  obtain ⟨code, lines⟩ := r
  have hdigits := threeDigits hcode.1 hcode.2
  cases lines with
  | nil =>
    refine ⟨⟨code, [""]⟩, ⟨hdigits, List.cons_ne_nil _ _, ?_⟩, rfl, (formatLines_nil code).symm⟩
    exact List.forall_mem_singleton.mpr (by decide)
  | cons text more =>
    exact ⟨⟨code, text :: more⟩, ⟨hdigits, List.cons_ne_nil _ _, hlines⟩, rfl, rfl⟩

/-- A reply of ASCII text is written alike in either encoding. -/
theorem Readable.encode_format {r : Reply} (h : r.Readable) (encoding : Encoding) :
    encoding.encode r.format = Encoding.latin1.encode r.format := by
  obtain ⟨code, lines⟩ := r
  have hcode := (plain_toString code).encode encoding
  have hends : encoding.encode "\r\n" = Encoding.latin1.encode "\r\n" := by cases encoding <;> rfl
  have hspace := Plain.encode (s := " ") (by decide) encoding
  have hhyphen := Plain.encode (s := "-") (by decide) encoding
  have hlines : ∀ l ∈ lines, Plain l := h.lines
  have hne : lines ≠ [] := h.nonempty
  rw [format]
  dsimp only
  clear h
  induction lines with
  | nil => exact absurd rfl hne
  | cons text more ih =>
    have htext := (hlines text List.mem_cons_self).encode encoding
    cases more with
    | nil => simp only [formatLines, Encoding.encode_append, hcode, hends, hspace, htext]
    | cons next more =>
      have hmore := ih (fun l hl => hlines l (List.mem_cons_of_mem text hl))
        (List.cons_ne_nil next more)
      simp only [formatLines, Encoding.encode_append, hcode, hends, hhyphen, htext] at hmore ⊢
      rw [hmore]

end Reply

def Exchange.awaiting (code : Nat) : Exchange := ⟨[], code, true⟩

variable {refuses : Refusal} {r : Reply}

section Heard
variable (refuses : Refusal) (encoding : Encoding) (hcode : 100 ≤ r.code ∧ r.code ≤ 999)
  (hlines : ∀ l ∈ r.lines, Plain l) {rest : Bytes} {pieces : List Bytes}
  (hpieces : pieces.flatten = encoding.encode r.format ++ rest)
include hcode hlines hpieces

/-- A reply is heard from any pieces in which it comes. -/
theorem foldl_feed_reply {t : Sending} {e : Exchange} {later : List Exchange}
    (ht : t.stage = .waiting [] e later) (hpending : t.pending = []) :
    pieces.foldl (feed refuses) t =
      (t.heard refuses r.code (encoding.encode r.format) e later).feed refuses rest := by
  obtain ⟨s, hs, hsame, hformat⟩ := Reply.exists_readable hcode hlines
  have hall : pieces.foldl (feed refuses) (t.feed refuses []) =
      t.feed refuses ([] ++ pieces.flatten) := foldl_feed [] pieces
  rw [feed_nil hpending, List.nil_append] at hall
  rw [hall, hpieces, ← hformat, hs.encode_format encoding, ← hsame]
  exact feed_reply_append refuses hs ht hpending rest

theorem foldl_feed_awaiting (expected : Nat) :
    pieces.foldl (feed refuses) (start refuses [.awaiting expected]) =
      { stage := .ended (if r.code = expected then .ok ()
          else .error (unexpected expected (encoding.encode r.format)))
        pending := rest } := by
  rw [foldl_feed_reply refuses encoding hcode hlines hpieces
    (t := start refuses [.awaiting expected]) rfl rfl, Sending.heard]
  have hexpected : (Exchange.awaiting expected).expected = expected := rfl
  rw [hexpected]
  split
  · exact feed_of_isEnded rfl rest
  · exact feed_of_isEnded rfl rest

end Heard

/-- A reading that has not come to the end of its reply goes on. -/
theorem result_eq_none_of_more {t : Sending} {bs more : Bytes} (hmore : more ≠ [])
    (hpending : (t.feed refuses (bs ++ more)).pending = []) :
    (t.feed refuses bs).result? = none := by
  cases hstage : (t.feed refuses bs).stage with
  | waiting => simp only [result?, hstage]
  | ended result =>
    have hended : (t.feed refuses bs).isEnded = true := by rw [isEnded, hstage]
    rw [← feed_feed, feed_of_isEnded hended] at hpending
    exact absurd (List.append_eq_nil_iff.mp hpending).2 hmore

/-- A reply is read back exactly. Whatever its code of three digits and its lines of ASCII text, in
whichever encoding and whatever pieces its bytes arrive, and whatever comes behind them: the reading
ends with the last of these bytes and not before, leaves the rest alone, and succeeds if and only if
the code is the expected one. A talk that waits for the reply goes on from there with the rest. -/
theorem reply_read_exactly (encoding : Encoding) (hcode : 100 ≤ r.code ∧ r.code ≤ 999)
    (hlines : ∀ l ∈ r.lines, Plain l) (rest : Bytes) {pieces : List Bytes}
    (hpieces : pieces.flatten = encoding.encode r.format ++ rest) (refuses : Refusal) :
    (∀ expected,
      let reading := start refuses [.awaiting expected]
      let read := pieces.foldl (feed refuses) reading
      read.pending = rest ∧
        (read.result? = some (.ok ()) ↔ expected = r.code) ∧
        (expected ≠ r.code →
          read.result? = some (.error (unexpected expected (encoding.encode r.format)))) ∧
        ∀ begun more, begun ++ more = encoding.encode r.format → more ≠ [] →
          (reading.feed refuses begun).result? = none) ∧
      ∀ t e later, t.stage = .waiting [] e later → t.pending = [] →
        pieces.foldl (feed refuses) t =
          if e.expected = r.code then (t.next refuses later).feed refuses rest
          else { t.fail e (unexpected e.expected (encoding.encode r.format)) with
            pending := rest } := by
  refine ⟨fun expected => ?_, fun t e later ht hpending => ?_⟩
  · intro reading read
    have hread : read = _ :=
      foldl_feed_awaiting refuses encoding hcode hlines hpieces expected
    refine ⟨by rw [hread], ?_, ?_, ?_⟩
    · rw [hread, result?, Option.some.injEq]
      by_cases h : r.code = expected
      · exact iff_of_true (if_pos h) h.symm
      · rw [if_neg h]
        exact iff_of_false nofun (Ne.symm h)
    · intro h
      rw [hread, result?, if_neg h.symm]
    · intro begun more hwhole hmore
      refine result_eq_none_of_more hmore ?_
      have hone : [begun ++ more].flatten = encoding.encode r.format ++ [] := by simp [hwhole]
      have hall := foldl_feed_awaiting refuses encoding hcode hlines hone expected
      exact congrArg Sending.pending hall
  · rw [foldl_feed_reply refuses encoding hcode hlines hpieces ht hpending, Sending.heard]
    by_cases h : r.code = e.expected
    · rw [if_pos h, if_pos h.symm]
    · rw [if_neg h, if_neg (Ne.symm h), feed_of_isEnded rfl]
      simp only [fail, hpending, List.nil_append]

/-- Two lines that look like replies themselves, and an answer behind them that is not read. -/
theorem reply_read_exactly_nested :
    let r : Reply := ⟨250, ["250-", "-1 ?"]⟩
    let pieces := ["250-250-\r", "\n250 -1 ", "?\r\n221 b", "ye\r\n"].map Utf8.encode
    (100 ≤ r.code ∧ r.code ≤ 999) ∧ (∀ l ∈ r.lines, Plain l) ∧
      pieces.flatten = Utf8.encode r.format ++ Utf8.encode "221 bye\r\n" ∧
      (pieces.foldl (feed never) (start never [.awaiting 250])).pending =
        Utf8.encode "221 bye\r\n" ∧
      (pieces.foldl (feed never) (start never [.awaiting 250])).result? = some (.ok ()) := by
  have hcode : 100 ≤ 250 ∧ 250 ≤ 999 := by decide
  have hlines : ∀ l ∈ ["250-", "-1 ?"], Plain l := by decide
  have hpieces : (["250-250-\r", "\n250 -1 ", "?\r\n221 b", "ye\r\n"].map Utf8.encode).flatten =
      Utf8.encode (Reply.format ⟨250, ["250-", "-1 ?"]⟩) ++ Utf8.encode "221 bye\r\n" := by
    decide +kernel
  obtain ⟨hrest, hresult, -⟩ := (reply_read_exactly .utf8 (r := ⟨250, ["250-", "-1 ?"]⟩) hcode
    hlines (Utf8.encode "221 bye\r\n") hpieces never).1 250
  exact ⟨hcode, hlines, hpieces, hrest, hresult.mpr rfl⟩

end Letterbox.Smtp
