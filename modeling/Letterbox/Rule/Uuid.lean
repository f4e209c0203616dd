import Letterbox.Text.Blank
import Letterbox.Text.Numeral

/-! # Identifiers of rules

Numbers of 128 bits, written as 32 hexadecimal digits in groups of 8, 4, 4, 4 and 12. Where new ones
come from is not supplied here. -/

namespace Letterbox

set_option autoImplicit false

structure Uuid where
  bits : BitVec 128
deriving DecidableEq, Repr

namespace Uuid

open Text

def groups (u : Uuid) : List (List Char) :=
  let ds := fixedDigits 16 32 u.bits.toNat
  [ds.take 8, (ds.drop 8).take 4, (ds.drop 12).take 4, (ds.drop 16).take 4, ds.drop 20]

def toText (u : Uuid) : String := String.ofList (List.intercalate ['-'] u.groups)

def ofDigits? (ds : List Char) : Option Uuid :=
  if ds.length = 32 then
    (ds.foldlM (fun n c => (hexDigit? c).map (n * 16 + ·)) 0).map fun n => ⟨BitVec.ofNat 128 n⟩
  else none

def ofGroups? (cs : List Char) : Option Uuid :=
  match splitAt '-' cs with
  | [a, b, c, d, e] =>
    if a.length = 8 ∧ b.length = 4 ∧ c.length = 4 ∧ d.length = 4 ∧ e.length = 12 then
      ofDigits? (a ++ b ++ c ++ d ++ e)
    else none
  | _ => none

def label : List Char := ['u', 'r', 'n', ':', 'u', 'u', 'i', 'd', ':']

def ofText? (s : String) : Option Uuid :=
  let cs := s.toList
  match ofDigits? cs with
  | some u => some u
  | none => match ofGroups? cs with
    | some u => some u
    | none =>
      if cs.head? = some '{' ∧ cs.getLast? = some '}' then ofGroups? (cs.tail.dropLast)
      else if (cs.take 9).map foldCase = label then ofGroups? (cs.drop 9)
      else none

end Uuid

end Letterbox
