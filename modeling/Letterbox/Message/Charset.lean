import Letterbox.Text.Blank
import Letterbox.Text.Encoding

/-! # Character sets of message texts

The sets that a part of a message may name. A set that is not known here is read as UTF-8, with a
replacement character for every fault. -/

namespace Letterbox

set_option autoImplicit false

inductive Charset where
  | utf8
  | latin1
  | windows1252
deriving DecidableEq, Repr

namespace Charset

open Text

def latin1Names : List String :=
  ["iso-8859-1", "iso_8859-1", "iso8859-1", "latin1", "l1", "iso-ir-100", "ibm819", "cp819",
   "csisolatin1"]

def windowsNames : List String := ["windows-1252", "cp1252", "cswindows1252"]

def ofName (name : String) : Charset :=
  if latin1Names.any (sameIgnoringCase name) then latin1
  else if windowsNames.any (sameIgnoringCase name) then windows1252
  else utf8

/-- The characters of the bytes 128 to 159 in Windows-1252; the replacement character stands where
there is none. -/
def windowsUpper : List Nat :=
  [0x20AC, 0xFFFD, 0x201A, 0x0192, 0x201E, 0x2026, 0x2020, 0x2021, 0x02C6, 0x2030, 0x0160, 0x2039,
   0x0152, 0xFFFD, 0x017D, 0xFFFD, 0xFFFD, 0x2018, 0x2019, 0x201C, 0x201D, 0x2022, 0x2013, 0x2014,
   0x02DC, 0x2122, 0x0161, 0x203A, 0x0153, 0xFFFD, 0x017E, 0x0178]

def windowsChar (b : UInt8) : Char :=
  let n := b.toNat
  if 128 ≤ n ∧ n < 160 then Char.ofNat (windowsUpper.getD (n - 128) 0xFFFD) else Char.ofNat n

def decode : Charset → Bytes → List Char
  | utf8, bs => Utf8.decodeChars bs
  | latin1, bs => bs.map Encoding.latin1Char
  | windows1252, bs => bs.map windowsChar

end Charset

end Letterbox
