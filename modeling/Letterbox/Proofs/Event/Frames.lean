import Letterbox.Proofs.Event.RoundTrip
import Letterbox.Proofs.Json.Written

/-!
# Frames

A frame is one line: whatever an event carries, the text that is written of it has no control
character in it, so the only line feed is the last character of the frame.
-/

namespace Letterbox

set_option autoImplicit false

open Json Text

namespace Event

variable (fresh : Nat → Uuid) (e : Event)

theorem control_not_mem_toText {c : Char} (hc : c.toNat < 32) :
    UInt8.ofNat c.toNat ∉ Utf8.encode e.toJson.toText := by
  rw [Utf8.mem_encode_iff (by omega), Value.toText, String.toList_ofList]
  intro hmem
  have hvisible := visible_write e.toJson c hmem
  omega

theorem cr_not_mem_toText : Lines.cr ∉ Utf8.encode e.toJson.toText :=
  e.control_not_mem_toText (show '\r'.toNat < 32 by decide)

theorem lf_not_mem_toText : Lines.lf ∉ Utf8.encode e.toJson.toText :=
  e.control_not_mem_toText (show '\n'.toNat < 32 by decide)

theorem encode_toFrame : Utf8.encode e.toFrame = Utf8.encode e.toJson.toText ++ [Lines.lf] :=
  encode_append_utf8 _ _

/-- The text of an event stands between two braces, so there is nothing to trim. -/
theorem toText_eq : ∃ cs, e.toJson.toText.toList = '{' :: (cs ++ ['}']) := by
  rw [Value.toText, String.toList_ofList]
  exact write_object _ _

theorem blankText_toText : blankText e.toJson.toText = false := by
  obtain ⟨cs, hcs⟩ := e.toText_eq
  exact blankText_of_mem (hcs ▸ List.mem_cons_self) (by decide)

theorem ofFrame_toText : ofFrame fresh e.toJson.toText = .ok e := by
  obtain ⟨cs, hcs⟩ := e.toText_eq
  have htrim : trim e.toJson.toText = e.toJson.toText := by
    rw [trim, hcs, trimChars_of_ends (by decide) (by decide), ← hcs, String.ofList_toList]
  rw [ofFrame, htrim, read_toText]
  exact ofNode_toJson fresh e

theorem ofFrame_toFrame : ofFrame fresh e.toFrame = .ok e := by
  obtain ⟨cs, hcs⟩ := e.toText_eq
  have htrim : trim e.toFrame = trim e.toJson.toText := by
    have hframe : e.toFrame.toList = '{' :: ((cs ++ ['}']) ++ ['\n']) := by
      rw [toFrame, String.toList_append, hcs]
      rfl
    rw [trim, trim, hframe, hcs, trimChars, trimChars, skipBlanks_cons (by decide),
      skipBlanks_cons (by decide), ← List.cons_append, dropBlanksEnd_concat_blank (by decide)]
  rw [ofFrame, htrim]
  exact ofFrame_toText fresh e

end Event

end Letterbox
