import Letterbox.Text.Utf8

/-! # Text encodings of a connection

A connection speaks Latin-1 until UTF-8 is agreed on. Reading never fails in either encoding. -/

namespace Letterbox

set_option autoImplicit false

inductive Encoding where
  | latin1
  | utf8
deriving DecidableEq, Repr

namespace Encoding

/-- The bytes of Latin-1 are the first 256 characters; any other character is written as a question
mark. -/
def latin1Byte (c : Char) : UInt8 := if c.toNat ≤ 0xFF then c.toNat.toUInt8 else 63

def latin1Char (b : UInt8) : Char := Char.ofNat b.toNat

def decodeChars : Encoding → Bytes → List Char
  | latin1, bs => bs.map latin1Char
  | utf8, bs => Utf8.decodeChars bs

def encodeChars : Encoding → List Char → Bytes
  | latin1, cs => cs.map latin1Byte
  | utf8, cs => Utf8.encodeChars cs

def decode (e : Encoding) (bs : Bytes) : String := String.ofList (e.decodeChars bs)

def encode (e : Encoding) (s : String) : Bytes := e.encodeChars s.toList

def name : Encoding → String
  | latin1 => "Latin1"
  | utf8 => "Utf8"

end Encoding

end Letterbox
