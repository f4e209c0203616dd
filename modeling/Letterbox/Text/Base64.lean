import Letterbox.Text.Utf8

/-! # Base64

The 64 digits of mail, three bytes at a time. Writing pads to a multiple of four digits. Reading
passes over blanks and takes a padding sign as the end of a group that may be short; digits behind
it begin a new group, and a short group without padding is dropped. -/

namespace Letterbox.Base64

set_option autoImplicit false

def digit (n : Nat) : Char :=
  if n < 26 then Char.ofNat (65 + n)
  else if n < 52 then Char.ofNat (71 + n)
  else if n < 62 then Char.ofNat (n - 4)
  else if n = 62 then '+'
  else '/'

def encode : Bytes → List Char
  | [] => []
  | [a] =>
    let n := a.toNat * 16
    [digit (n / 64), digit (n % 64), '=', '=']
  | [a, b] =>
    let n := (a.toNat * 256 + b.toNat) * 4
    [digit (n / 4096), digit (n / 64 % 64), digit (n % 64), '=']
  | a :: b :: c :: rest =>
    let n := (a.toNat * 256 + b.toNat) * 256 + c.toNat
    digit (n / 262144) :: digit (n / 4096 % 64) :: digit (n / 64 % 64) :: digit (n % 64) ::
      encode rest

def value? (b : UInt8) : Option Nat :=
  let n := b.toNat
  if 65 ≤ n ∧ n ≤ 90 then some (n - 65)
  else if 97 ≤ n ∧ n ≤ 122 then some (n - 71)
  else if 48 ≤ n ∧ n ≤ 57 then some (n + 4)
  else if n = 43 then some 62
  else if n = 47 then some 63
  else none

def groupBytes (a b c d : Nat) : Bytes :=
  [(a * 4 + b / 16).toUInt8, (b % 16 * 16 + c / 4).toUInt8, (c % 4 * 64 + d).toUInt8]

def shortGroup : List Nat → Bytes
  | [a] => [(a * 4).toUInt8]
  | [a, b] => [(a * 4 + b / 16).toUInt8]
  | [a, b, c] => (groupBytes a b c 0).take 2
  | _ => []

/-- Reads digits behind those of `group`, of which there are fewer than four. -/
def decodeFrom (group : List Nat) : Bytes → Option Bytes
  | [] => some []
  | b :: rest => match value? b with
    | some v => match group with
      | [x, y, z] => (decodeFrom [] rest).map (groupBytes x y z v ++ ·)
      | _ => decodeFrom (group ++ [v]) rest
    | none =>
      if b = 61 then (decodeFrom [] rest).map (shortGroup group ++ ·)
      else if b = 32 ∨ b = 9 ∨ b = 10 ∨ b = 13 then decodeFrom group rest
      else none

def decode (bs : Bytes) : Option Bytes := decodeFrom [] bs

end Letterbox.Base64
