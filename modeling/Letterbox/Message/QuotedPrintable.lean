import Letterbox.Text.Numeral
import Letterbox.Text.Utf8

/-! # Quoted-printable text

A byte may be written as an equals sign and two hexadecimal digits. An equals sign at the end of a
line joins it with the next, and blanks at the end of a line are dropped; a blank that is written
with an equals sign is not. -/

namespace Letterbox.QuotedPrintable

set_option autoImplicit false

inductive Escape where
  | none
  | begun
  | half (digit : Nat)

def isBlank (b : UInt8) : Bool := b = 32 || b = 9 || b = 12

def hexValue? (b : UInt8) : Option Nat := Text.hexDigit? (Char.ofNat b.toNat)

structure Reader where
  escape : Escape := .none
  blanks : Bytes := []
  kept : Bytes := []
  afterReturn : Bool := false

namespace Reader

/-- A line end; the blanks in front of it go, unless an equals sign stood there. -/
def lineEnd (r : Reader) : Reader :=
  match r.escape with
  | .begun => { kept := r.blanks ++ r.kept }
  | .none | .half _ =>
    { r with
      kept := (if r.afterReturn then [10, 13] else [10]) ++ r.kept
      blanks := []
      afterReturn := false }

def plain (r : Reader) (b : UInt8) : Reader :=
  if isBlank b then { r with blanks := b :: r.blanks, afterReturn := false }
  else { r with kept := b :: (r.blanks ++ r.kept), blanks := [], afterReturn := false }

def step (r : Reader) (b : UInt8) : Option Reader :=
  if b = 61 then
    match r.escape with
    | .none => some { r with escape := .begun, afterReturn := false }
    | .begun | .half _ => Option.none
  else if b = 10 then some r.lineEnd
  else if b = 13 then some { r with afterReturn := true }
  else match r.escape with
    | .none => some (r.plain b)
    | .begun => match hexValue? b with
      | some d => some { r with escape := .half d, afterReturn := false }
      | Option.none => if isBlank b then some { r with afterReturn := false } else Option.none
    | .half d => match hexValue? b with
      | some e => some { kept := (d * 16 + e).toUInt8 :: (r.blanks ++ r.kept) }
      | Option.none => Option.none

end Reader

/-- The bytes that a text stands for; `none` where an equals sign is followed by neither digits nor
blanks. An escape that the end of the text cuts off is dropped. -/
def decode (bs : Bytes) : Option Bytes :=
  (bs.foldlM Reader.step {}).map fun r => (r.blanks ++ r.kept).reverse

end Letterbox.QuotedPrintable
