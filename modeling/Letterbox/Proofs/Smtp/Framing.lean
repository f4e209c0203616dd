import Letterbox.Proofs.Net.Rows
import Letterbox.Proofs.Smtp.Replies
import Letterbox.Proofs.Text.Ascii
import Letterbox.Proofs.Text.Cuts
import Letterbox.Smtp.Receiver

/-!
# Replies on the wire

In either encoding a reply is written as rows of three digits, a separator and text, so that the far
side finds where it ends. Its text has no line break in it if there is none in the names that a
server goes by: what a client says is quoted a word at a time.
-/

namespace Letterbox

set_option autoImplicit false

open Lines

/-! ## Text without a line break -/

def OneLine (s : String) : Prop := '\r' ∉ s.toList ∧ '\n' ∉ s.toList

instance (s : String) : Decidable (OneLine s) := by
  unfold OneLine
  infer_instance

theorem OneLine.append {s t : String} (hs : OneLine s) (ht : OneLine t) : OneLine (s ++ t) := by
  simp only [OneLine, String.toList_append, List.mem_append, not_or]
  exact ⟨⟨hs.1, ht.1⟩, hs.2, ht.2⟩

theorem Plain.oneLine {s : String} (h : Plain s) : OneLine s :=
  ⟨fun hc => (h _ hc).2.1 rfl, fun hc => (h _ hc).2.2 rfl⟩

theorem oneLine_toString (n : Nat) : OneLine (toString n) := (plain_toString n).oneLine

/-- A word is cut out between blanks, and a line break is one. -/
theorem oneLine_of_mem_words {s w : String} (h : w ∈ Text.words s) : OneLine w := by
  obtain ⟨cs, hcs, rfl⟩ := List.mem_map.mp h
  have hblank := Text.not_of_mem_pieces hcs
  rw [OneLine, String.toList_ofList]
  exact ⟨fun hc => absurd (hblank _ hc) (by decide), fun hc => absurd (hblank _ hc) (by decide)⟩

namespace Encoding

theorem encode_append (e : Encoding) (s t : String) :
    e.encode (s ++ t) = e.encode s ++ e.encode t := by
  cases e with
  | latin1 => exact encode_append_latin1 s t
  | utf8 => exact encode_append_utf8 s t

/-- A character of ASCII is written for itself only, but for the question mark. -/
theorem mem_of_mem_encode (e : Encoding) {s : String} {c : Char} (hc : c.toNat < 128)
    (hmark : c ≠ '?') (h : UInt8.ofNat c.toNat ∈ e.encode s) : c ∈ s.toList := by
  cases e with
  | utf8 => exact (Utf8.mem_encode_iff hc).mp h
  | latin1 =>
    obtain ⟨d, hd, hbyte⟩ := List.mem_map.mp h
    have hnat := congrArg UInt8.toNat hbyte
    rw [UInt8.toNat_ofNat', Nat.mod_eq_of_lt (by omega)] at hnat
    unfold latin1Byte at hnat
    split at hnat
    · rw [Nat.toUInt8_eq, UInt8.toNat_ofNat', Nat.mod_eq_of_lt (by omega)] at hnat
      exact Char.toNat_inj.mp hnat ▸ hd
    · have hquestion : '?'.toNat = c.toNat := hnat
      exact absurd (Char.toNat_inj.mp hquestion).symm hmark

end Encoding

theorem OneLine.encode {s : String} (h : OneLine s) (e : Encoding) :
    cr ∉ e.encode s ∧ lf ∉ e.encode s :=
  ⟨fun hb => h.1 (e.mem_of_mem_encode (c := '\r') (by decide) (by decide) hb),
    fun hb => h.2 (e.mem_of_mem_encode (c := '\n') (by decide) (by decide) hb)⟩

theorem Plain.encode {s : String} (h : Plain s) (e : Encoding) :
    e.encode s = Encoding.latin1.encode s := by
  cases e with
  | latin1 => rfl
  | utf8 => exact h.encode_utf8

namespace Smtp

open Sending

/-! ## Rows -/

/-- A row of a reply, but for its line feed: three digits, a separator, and text on one line. -/
def ReplyRow (separator : UInt8) (row : Bytes) : Prop :=
  ∃ digits text, row = digits ++ separator :: (text ++ [cr]) ∧ digits.length = 3 ∧
    (∀ d ∈ digits, 48 ≤ d.toNat ∧ d.toNat ≤ 57) ∧ cr ∉ text ∧ lf ∉ text

/-- A reply as it is written: a hyphen separates the text in every row but the last. -/
def WireReply (bs : Bytes) : Prop :=
  ∃ more last, bs = ended (more ++ [last]) ∧ (∀ row ∈ more, ReplyRow 45 row) ∧ ReplyRow 32 last

/-- Rows as far as the first without a hyphen behind three bytes, whatever else is in them. -/
def Framed (bs : Bytes) : Prop :=
  ∃ rows, bs = ended rows ∧ (∀ row ∈ rows, lf ∉ row) ∧ Whole rows

theorem ReplyRow.lf_not_mem {separator : UInt8} {row : Bytes} (h : ReplyRow separator row)
    (hsep : separator ≠ lf) : lf ∉ row := by
  obtain ⟨digits, text, rfl, -, hdigits, -, htext⟩ := h
  simp only [List.mem_append, List.mem_cons, List.not_mem_nil, or_false, not_or]
  refine ⟨fun hd => ?_, hsep.symm, htext, by decide⟩
  exact absurd (hdigits lf hd).1 (by decide)

theorem ReplyRow.isLast {separator : UInt8} {row : Bytes} (h : ReplyRow separator row) :
    isLast row = decide (separator ≠ 45) := by
  obtain ⟨digits, text, rfl, hlen, -⟩ := h
  rw [Sending.isLast, List.getElem?_append_right (Nat.le_of_eq hlen), hlen]
  simp only [Nat.sub_self, List.getElem?_cons_zero, ne_eq, Option.some.injEq]

theorem WireReply.framed {bs : Bytes} (h : WireReply bs) : Framed bs := by
  obtain ⟨more, last, rfl, hmore, hlast⟩ := h
  refine ⟨more ++ [last], rfl, ?_, more, last, rfl, ?_, ?_⟩
  · intro row hrow
    rcases List.mem_append.mp hrow with hrow | hrow
    · exact (hmore row hrow).lf_not_mem (by decide)
    · exact List.mem_singleton.mp hrow ▸ hlast.lf_not_mem (by decide)
  · intro row hrow
    rw [(hmore row hrow).isLast]
    rfl
  · rw [hlast.isLast]
    rfl

theorem Framed.ne_nil {bs : Bytes} (h : Framed bs) : bs ≠ [] := by
  obtain ⟨_, rfl, -, more, last, rfl, -⟩ := h
  rw [ended_append, ended_cons]
  simp

/-- What is framed tells where it ends. -/
theorem Framed.unique {r r' rest rest' : Bytes} (h : Framed r) (h' : Framed r')
    (heq : r ++ rest = r' ++ rest') : r = r' ∧ rest = rest' := by
  obtain ⟨rows, rfl, hlf, hwhole⟩ := h
  obtain ⟨rows', rfl, hlf', hwhole'⟩ := h'
  have hlines := congrArg lines heq
  rw [lines_ended_append hlf, lines_ended_append hlf'] at hlines
  obtain ⟨rfl, -⟩ := hwhole.unique hwhole' hlines
  exact ⟨rfl, List.append_cancel_left heq⟩

/-- Bytes are split into replies in one way at most. -/
theorem framed_unique {rs rs' : List Bytes} (h : ∀ r ∈ rs, Framed r) (h' : ∀ r ∈ rs', Framed r)
    (heq : rs.flatten = rs'.flatten) : rs = rs' := by
  induction rs generalizing rs' with
  | nil =>
    cases rs' with
    | nil => rfl
    | cons r' rs' =>
      rw [List.flatten_nil, List.flatten_cons] at heq
      exact absurd (List.append_eq_nil_iff.mp heq.symm).1 (h' r' List.mem_cons_self).ne_nil
  | cons r rs ih =>
    cases rs' with
    | nil =>
      rw [List.flatten_nil, List.flatten_cons] at heq
      exact absurd (List.append_eq_nil_iff.mp heq).1 (h r List.mem_cons_self).ne_nil
    | cons r' rs' =>
      rw [List.flatten_cons, List.flatten_cons] at heq
      obtain ⟨rfl, hrest⟩ := (h r List.mem_cons_self).unique (h' r' List.mem_cons_self) heq
      rw [ih (fun s hs => h s (List.mem_cons_of_mem r hs))
        (fun s hs => h' s (List.mem_cons_of_mem r hs)) hrest]

/-! ## What is written of a reply -/

/-- A reply with a code of three digits, and no line break in its lines. -/
structure Reply.Orderly (r : Reply) : Prop where
  code : (toString r.code).length = 3
  nonempty : r.lines ≠ []
  lines : ∀ l ∈ r.lines, OneLine l

def wireRow (e : Encoding) (code : Nat) (separator : UInt8) (text : String) : Bytes :=
  e.encode (toString code) ++ separator :: (e.encode text ++ [cr])

theorem replyRow_wireRow (e : Encoding) {code : Nat} (hcode : (toString code).length = 3)
    {text : String} (htext : OneLine text) (separator : UInt8) :
    ReplyRow separator (wireRow e code separator text) := by
  have hdigits : e.encode (toString code) = Encoding.latin1.encode (toString code) :=
    (plain_toString code).encode e
  refine ⟨e.encode (toString code), e.encode text, rfl, ?_, ?_, htext.encode e⟩
  · rw [hdigits, length_encode_latin1, hcode]
  · rw [hdigits]
    intro d hd
    obtain ⟨c, hc, rfl⟩ := List.mem_map.mp hd
    have hdigit := digit_of_mem_toString hc
    rw [PlainChars.latin1Byte (by omega), PlainChars.toNat_byte (by omega)]
    exact hdigit

theorem wireReply_formatLines (e : Encoding) {code : Nat} (hcode : (toString code).length = 3)
    {ls : List String} (hne : ls ≠ []) (hls : ∀ l ∈ ls, OneLine l) :
    WireReply (e.encode (Reply.formatLines code ls)) := by
  have hends : e.encode "\r\n" = [cr, lf] := by cases e <;> rfl
  induction ls with
  | nil => exact absurd rfl hne
  | cons text rest ih =>
    have htext := hls text List.mem_cons_self
    cases rest with
    | nil =>
      have hspace : e.encode " " = [32] := by cases e <;> rfl
      refine ⟨[], wireRow e code 32 text, ?_, List.forall_mem_nil _,
        replyRow_wireRow e hcode htext 32⟩
      simp only [Reply.formatLines, Encoding.encode_append, hends, hspace, wireRow,
        List.nil_append, ended_cons, List.append_assoc, List.cons_append]
      rfl
    | cons next rest =>
      have hhyphen : e.encode "-" = [45] := by cases e <;> rfl
      obtain ⟨more, last, hmore, hrows, hlast⟩ := ih (List.cons_ne_nil next rest)
        fun l hl => hls l (List.mem_cons_of_mem text hl)
      refine ⟨wireRow e code 45 text :: more, last, ?_, ?_, hlast⟩
      · rw [List.cons_append, ended_cons, ← hmore]
        simp only [Reply.formatLines, Encoding.encode_append, hends, hhyphen, wireRow,
          List.append_assoc, List.cons_append, List.nil_append]
      · exact List.forall_mem_cons.mpr ⟨replyRow_wireRow e hcode htext 45, hrows⟩

theorem Reply.Orderly.wire {r : Reply} (h : r.Orderly) (e : Encoding) :
    WireReply (e.encode r.format) :=
  wireReply_formatLines e h.code h.nonempty h.lines

end Smtp

end Letterbox
