/-! # UTF-8

Writing of characters as bytes, and reading of bytes that need not be UTF-8 at all. A reader walks
the bytes from the left; where no character begins, the longest beginning of one that stands there
is a fault of its own. Reading can pass over faults (each becomes U+FFFD) or report the first. -/

namespace Letterbox

abbrev Bytes := List UInt8

namespace Utf8

set_option autoImplicit false

def encodeChar (c : Char) : Bytes :=
  let n := c.toNat
  if n < 0x80 then [n.toUInt8]
  else if n < 0x800 then [(0xC0 + n / 64).toUInt8, (0x80 + n % 64).toUInt8]
  else if n < 0x10000 then
    [(0xE0 + n / 4096).toUInt8, (0x80 + n / 64 % 64).toUInt8, (0x80 + n % 64).toUInt8]
  else
    [(0xF0 + n / 262144).toUInt8, (0x80 + n / 4096 % 64).toUInt8, (0x80 + n / 64 % 64).toUInt8,
      (0x80 + n % 64).toUInt8]

def encodeChars (cs : List Char) : Bytes := cs.flatMap encodeChar

def encode (s : String) : Bytes := encodeChars s.toList

structure Lead where
  follow : Nat
  low : Nat
  high : Nat
  share : Nat
deriving DecidableEq, Repr

/-- The lead bytes of two, three and four byte characters. The narrowed ranges keep out overlong
forms, surrogates and numbers above U+10FFFF. -/
def lead? (b : UInt8) : Option Lead :=
  let n := b.toNat
  if 0xC2 ≤ n ∧ n ≤ 0xDF then some ⟨1, 0x80, 0xBF, n - 0xC0⟩
  else if n = 0xE0 then some ⟨2, 0xA0, 0xBF, 0⟩
  else if n = 0xED then some ⟨2, 0x80, 0x9F, 0xD⟩
  else if 0xE1 ≤ n ∧ n ≤ 0xEF then some ⟨2, 0x80, 0xBF, n - 0xE0⟩
  else if n = 0xF0 then some ⟨3, 0x90, 0xBF, 0⟩
  else if 0xF1 ≤ n ∧ n ≤ 0xF3 then some ⟨3, 0x80, 0xBF, n - 0xF0⟩
  else if n = 0xF4 then some ⟨3, 0x80, 0x8F, 4⟩
  else none

/-- How the beginning of a list of bytes reads: a character, a fault that covers `size` bytes, or a
beginning that the end of the bytes cuts off. -/
inductive Reading where
  | char (c : Char) (size : Nat)
  | fault (size : Nat)
  | cutOff (size : Nat)
deriving DecidableEq, Repr

def takeFollowing (follow low high share seen : Nat) : Bytes → Reading
  | rest =>
    match follow with
    | 0 => .char (Char.ofNat share) seen
    | follow + 1 =>
      match rest with
      | [] => .cutOff seen
      | b :: rest =>
        if low ≤ b.toNat ∧ b.toNat ≤ high then
          takeFollowing follow 0x80 0xBF (share * 64 + b.toNat % 64) (seen + 1) rest
        else .fault seen

def readAt (b : UInt8) (rest : Bytes) : Reading :=
  if b.toNat < 0x80 then .char (Char.ofNat b.toNat) 1
  else match lead? b with
    | none => .fault 1
    | some l => takeFollowing l.follow l.low l.high l.share 1 rest

def replacement : Char := Char.ofNat 0xFFFD

/-- Reads all bytes; each fault becomes one replacement character. The list after the first byte is
passed along with the number of its bytes that the reading before has already used. -/
def decodeSkipping : (used : Nat) → Bytes → List Char
  | _, [] => []
  | used + 1, _ :: rest => decodeSkipping used rest
  | 0, b :: rest => match readAt b rest with
    | .char c size => c :: decodeSkipping (size - 1) rest
    | .fault size => replacement :: decodeSkipping (size - 1) rest
    | .cutOff size => replacement :: decodeSkipping (size - 1) rest

def decodeChars (bs : Bytes) : List Char := decodeSkipping 0 bs

def decode (bs : Bytes) : String := String.ofList (decodeChars bs)

/-- Where reading first fails: after how many good bytes, and how many bytes the fault covers
(`none` when the end of the bytes cuts a character off). -/
structure Fault where
  validUpTo : Nat
  size : Option Nat
deriving DecidableEq, Repr

def faultFrom (position : Nat) : (used : Nat) → Bytes → Option Fault
  | _, [] => none
  | used + 1, _ :: rest => faultFrom (position + 1) used rest
  | 0, b :: rest => match readAt b rest with
    | .char _ size => faultFrom (position + 1) (size - 1) rest
    | .fault size => some ⟨position, some size⟩
    | .cutOff _ => some ⟨position, none⟩

def fault? (bs : Bytes) : Option Fault := faultFrom 0 0 bs

def decode? (bs : Bytes) : Except Fault String :=
  match fault? bs with
  | none => .ok (decode bs)
  | some f => .error f

def Fault.message (f : Fault) : String :=
  match f.size with
  | some n => s!"invalid utf-8 sequence of {n} bytes from index {f.validUpTo}"
  | none => s!"incomplete utf-8 byte sequence from index {f.validUpTo}"

end Utf8

end Letterbox
