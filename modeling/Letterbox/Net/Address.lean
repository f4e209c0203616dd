import Letterbox.Text.Blank
import Letterbox.Text.Numeral

/-! # Internet addresses as text

Reading and writing of IPv4 and IPv6 addresses. IPv6 is written in its shortened form: lower case,
no leading zeros, the first of the longest runs of zero groups left out, and a mapped IPv4 address
with its dots. Scopes and host names are not supplied here. -/

namespace Letterbox

set_option autoImplicit false

structure V4 where
  a : UInt8
  b : UInt8
  c : UInt8
  d : UInt8
deriving DecidableEq, Repr

structure V6 where
  groups : List UInt16
  eight : groups.length = 8
deriving DecidableEq, Repr

inductive IpAddress where
  | v4 (address : V4)
  | v6 (address : V6)
deriving DecidableEq, Repr

structure SocketAddress where
  ip : IpAddress
  port : UInt16
deriving DecidableEq, Repr

open Text

/-- An octet in decimal: no more than three digits, and no zero in front of another digit. -/
def octet? (cs : List Char) : Option UInt8 :=
  match cs with
  | '0' :: _ :: _ => none
  | _ =>
    if cs.length ≤ 3 then ((digits? cs).filter (· ≤ 255)).map Nat.toUInt8 else none

namespace V4

def unspecified : V4 := ⟨0, 0, 0, 0⟩

def loopback : V4 := ⟨127, 0, 0, 1⟩

def toText (x : V4) : List Char :=
  Nat.toDigits 10 x.a.toNat ++ '.' :: (Nat.toDigits 10 x.b.toNat ++
    '.' :: (Nat.toDigits 10 x.c.toNat ++ '.' :: Nat.toDigits 10 x.d.toNat))

def ofText? (cs : List Char) : Option V4 :=
  match splitAt '.' cs with
  | [a, b, c, d] => do return ⟨← octet? a, ← octet? b, ← octet? c, ← octet? d⟩
  | _ => none

end V4

namespace V6

def group? (cs : List Char) : Option UInt16 :=
  if cs.length = 0 ∨ 4 < cs.length then none
  else (cs.foldlM (fun n c => (hexDigit? c).map (n * 16 + ·)) 0).map Nat.toUInt16

/-- The groups of a row of pieces; the last piece may be an IPv4 address, which makes two. -/
def groups? : List (List Char) → Option (List UInt16)
  | [] => some []
  | [piece] => match V4.ofText? piece with
    | some x => some [x.a.toUInt16 * 256 + x.b.toUInt16, x.c.toUInt16 * 256 + x.d.toUInt16]
    | none => (group? piece).map ([·])
  | piece :: rest => do return (← group? piece) :: (← groups? rest)

def side? (cs : List Char) : Option (List UInt16) :=
  if cs.isEmpty then some [] else groups? (splitAt ':' cs)

def front? (cs : List Char) : Option (List UInt16) :=
  if cs.isEmpty then some [] else (splitAt ':' cs).mapM group?

def cutDouble : List Char → Option (List Char × List Char)
  | ':' :: ':' :: rest => some ([], rest)
  | c :: rest => (cutDouble rest).map fun (before, after) => (c :: before, after)
  | [] => none

def ofGroups? (gs : List UInt16) : Option V6 :=
  if h : gs.length = 8 then some ⟨gs, h⟩ else none

/-- The address with as many zero groups between the two sides as are missing, at least one. -/
def ofSides? (front back : List UInt16) : Option V6 :=
  if front.length + back.length ≤ 7 then
    ofGroups? (front ++ List.replicate (8 - front.length - back.length) 0 ++ back)
  else none

def ofText? (cs : List Char) : Option V6 :=
  match cutDouble cs with
  | some (before, after) => do ofSides? (← front? before) (← side? after)
  | none => do ofGroups? (← side? cs)

structure Run where
  start : Nat
  length : Nat
deriving DecidableEq, Repr

def zerosInFront (gs : List UInt16) : Nat := (gs.takeWhile (· == 0)).length

/-- The first of the longest runs of zero groups, looked for from position `i` on. -/
def longestRun (i : Nat) : List UInt16 → Run
  | [] => ⟨i, 0⟩
  | g :: rest =>
    let here : Run := ⟨i, zerosInFront (g :: rest)⟩
    let later := longestRun (i + 1) rest
    if here.length < later.length then later else here

def groupsText (gs : List UInt16) : List Char :=
  List.intercalate [':'] (gs.map fun g => Nat.toDigits 16 g.toNat)

def toText (x : V6) : List Char :=
  match x.groups with
  | [0, 0, 0, 0, 0, 0xFFFF, g, h] =>
    "::ffff:".toList ++
      V4.toText ⟨(g.toNat / 256).toUInt8, g.toUInt8, (h.toNat / 256).toUInt8, h.toUInt8⟩
  | gs =>
    let run := longestRun 0 gs
    if 1 < run.length then
      groupsText (gs.take run.start) ++ ':' :: ':' :: groupsText (gs.drop (run.start + run.length))
    else groupsText gs

end V6

namespace IpAddress

def toText : IpAddress → String
  | v4 x => String.ofList x.toText
  | v6 x => String.ofList x.toText

def ofText? (s : String) : Option IpAddress :=
  match V4.ofText? s.toList with
  | some x => some (v4 x)
  | none => (V6.ofText? s.toList).map v6

end IpAddress

namespace SocketAddress

def toText (a : SocketAddress) : String :=
  match a.ip with
  | .v4 _ => a.ip.toText ++ ":" ++ toString a.port.toNat
  | .v6 _ => "[" ++ a.ip.toText ++ "]:" ++ toString a.port.toNat

def ofText? (s : String) : Option SocketAddress := do
  match s.toList with
  | '[' :: rest =>
    let (inner, after) ← cutAt ']' rest
    let ':' :: port := after | none
    return ⟨.v6 (← V6.ofText? inner), Nat.toUInt16 (← (digits? port).filter (· ≤ 65535))⟩
  | cs =>
    let (front, port) ← cutAt ':' cs
    return ⟨.v4 (← V4.ofText? front), Nat.toUInt16 (← (digits? port).filter (· ≤ 65535))⟩

end SocketAddress

end Letterbox
