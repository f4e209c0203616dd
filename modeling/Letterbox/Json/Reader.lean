import Letterbox.Json.Node
import Letterbox.Text.Utf8

/-! # Reading of JSON text

From a text to the `Node` that it stands for, and the rest of the text behind it. -/

namespace Letterbox.Json

set_option autoImplicit false

open Text

def isSpace (c : Char) : Bool := c = ' ' || c = '\n' || c = '\t' || c = '\r'

def skipSpace (cs : List Char) : List Char := cs.dropWhile isSpace

/-! ## Strings -/

/-- The number that four hexadecimal digits write. Fewer than four bytes to the end of the text end
it too early, whatever they are. -/
def unit (cs : List Char) : Except Fault (Nat × List Char) :=
  if (Utf8.encodeChars (cs.take 4)).length < 4 then .error .truncated
  else match cs with
    | a :: b :: c :: d :: rest =>
      match hexDigit? a, hexDigit? b, hexDigit? c, hexDigit? d with
      | some a, some b, some c, some d => .ok (((a * 16 + b) * 16 + c) * 16 + d, rest)
      | _, _, _, _ => .error .malformed
    | _ => .error .malformed

def shortEscape? (c : Char) : Option Char :=
  if c = '"' ∨ c = '\\' ∨ c = '/' then some c
  else if c = 'b' then some (Char.ofNat 8)
  else if c = 'f' then some (Char.ofNat 12)
  else if c = 'n' then some '\n'
  else if c = 'r' then some '\r'
  else if c = 't' then some '\t'
  else none

def isHighSurrogate (n : Nat) : Bool := 0xD800 ≤ n && n ≤ 0xDBFF

def isLowSurrogate (n : Nat) : Bool := 0xDC00 ≤ n && n ≤ 0xDFFF

/-- The character that begins with the unit `n`; a high surrogate needs an escaped low one behind
it. -/
def joinUnits (n : Nat) (cs : List Char) : Except Fault (Char × List Char) :=
  if isLowSurrogate n then .error .malformed
  else if isHighSurrogate n then
    match cs with
    | [] => .error .truncated
    | '\\' :: [] => .error .truncated
    | '\\' :: 'u' :: rest => do
      let (m, rest) ← unit rest
      if isLowSurrogate m then
        return (Char.ofNat (0x10000 + (n - 0xD800) * 1024 + (m - 0xDC00)), rest)
      else throw .malformed
    | _ => .error .malformed
  else .ok (Char.ofNat n, cs)

def nextChar : List Char → Except Fault (Option Char × List Char)
  | [] => .error .truncated
  | '"' :: rest => .ok (none, rest)
  | '\\' :: [] => .error .truncated
  | '\\' :: 'u' :: rest => do
    let (n, rest) ← unit rest
    let (c, rest) ← joinUnits n rest
    return (some c, rest)
  | '\\' :: e :: rest => match shortEscape? e with
    | some c => .ok (some c, rest)
    | none => .error .malformed
  | c :: rest => if c.toNat < 32 then .error .malformed else .ok (some c, rest)

/-- Passes over the next character inside quotes, whose escapes may write lone surrogates; `none`
after the closing quote. -/
def passChar : List Char → Except Fault (Bool × List Char)
  | [] => .error .truncated
  | '"' :: rest => .ok (false, rest)
  | '\\' :: [] => .error .truncated
  | '\\' :: 'u' :: rest => do
    let (_, rest) ← unit rest
    return (true, rest)
  | '\\' :: e :: rest => match shortEscape? e with
    | some _ => .ok (true, rest)
    | none => .error .malformed
  | c :: rest => if c.toNat < 32 then .error .malformed else .ok (true, rest)

def stringBody : (fuel : Nat) → List Char → Except Fault (List Char)
  | 0, _ => .error .truncated
  | fuel + 1, cs => do
    match ← nextChar cs with
    | (none, _) => return []
    | (some c, rest) => return c :: (← stringBody fuel rest)

def afterString : (fuel : Nat) → List Char → Except Fault (List Char)
  | 0, _ => .error .truncated
  | fuel + 1, cs => do
    match ← passChar cs with
    | (false, rest) => return rest
    | (true, rest) => afterString fuel rest

def readLiteral (cs : List Char) : Literal × Option (List Char) :=
  let content := (stringBody (cs.length + 1) cs).map String.ofList
  match afterString (cs.length + 1) cs with
  | .ok rest => (⟨content, none⟩, some rest)
  | .error f => (⟨content, some f⟩, none)

/-! ## Numbers -/

def hugeBound : Nat := Nat.pow 2 1024 - Nat.pow 2 970

/-- Whether `m · 10 ^ e` is at least `hugeBound`. The number of digits decides where they are far
apart. -/
def isHuge (m : Nat) (e : Int) : Bool :=
  if m = 0 then false
  else
    let size : Int := (Nat.toDigits 10 m).length + e
    if 310 < size then true
    else if size < 300 then false
    else if 0 ≤ e then hugeBound ≤ m * Nat.pow 10 e.toNat
    else hugeBound * Nat.pow 10 (-e).toNat ≤ m

/-- A defect inside a number. Who passes over it takes the end of the text for any other wrong
character. -/
def numberDefect (cs : List Char) : Node × Option (List Char) :=
  (.broken (if cs.isEmpty then .truncated else .malformed) .malformed, none)

def isDigit (c : Char) : Bool := '0' ≤ c && c ≤ '9'

def digitsValue (ds : List Char) : Nat := (digitsFrom 0 ds).getD 0

def numeral (negative : Bool) (whole : List Char) (fraction : Option (List Char))
    (exponent : Option Int) : Numeral :=
  let m := digitsValue (whole ++ fraction.getD [])
  let e := exponent.getD 0 - (fraction.getD []).length
  if isHuge m e then .huge
  else if fraction.isSome || exponent.isSome || (negative && m == 0) then .real
  else .integer (if negative then -(m : Int) else m)

def readExponent (cs : List Char) (close : Option Int → Numeral) : Node × Option (List Char) :=
  match cs with
  | e :: rest =>
    if e = 'e' ∨ e = 'E' then
      let (sign, rest) : Int × List Char := match rest with
        | '+' :: rest => (1, rest)
        | '-' :: rest => (-1, rest)
        | _ => (1, rest)
      let ds := rest.takeWhile isDigit
      let rest := rest.dropWhile isDigit
      if ds.isEmpty then numberDefect rest
      else (.number (close (some (sign * digitsValue ds))), some rest)
    else (.number (close none), some cs)
  | [] => (.number (close none), some cs)

def readNumber (negative : Bool) (cs : List Char) : Node × Option (List Char) :=
  let whole := match cs with
    | '0' :: _ => ['0']
    | _ => cs.takeWhile isDigit
  let rest := cs.drop whole.length
  if whole.isEmpty then numberDefect rest
  else match rest with
    | '.' :: more =>
      let ds := more.takeWhile isDigit
      let rest := more.dropWhile isDigit
      if ds.isEmpty then numberDefect rest
      else readExponent rest (numeral negative whole (some ds))
    | c :: _ =>
      if isDigit c then (.broken .malformed .malformed, none)
      else readExponent rest (numeral negative whole none)
    | [] => readExponent rest (numeral negative whole none)

/-! ## Values -/

def readWord (v : Node) : (word cs : List Char) → Node × Option (List Char)
  | [], cs => (v, some cs)
  | _ :: _, [] => (.broken .truncated .truncated, none)
  | w :: word, c :: cs =>
    if w = c then readWord v word cs else (.broken .malformed .malformed, none)

def stop (cs : List Char) : Fault := if cs.isEmpty then .truncated else .malformed

mutual

def readNode : (fuel : Nat) → List Char → Node × Option (List Char)
  | 0, _ => (.broken .malformed .malformed, none)
  | fuel + 1, cs => match skipSpace cs with
    | [] => (.broken .truncated .truncated, none)
    | '"' :: rest =>
      let (t, rest) := readLiteral rest
      (.text t, rest)
    | '[' :: rest => match skipSpace rest with
      | ']' :: rest => (.array [] none, some rest)
      | [] => (.array [] (some .truncated), none)
      | rest =>
        let (items, defect, rest) := readItems fuel rest
        (.array items defect, rest)
    | '{' :: rest => match skipSpace rest with
      | '}' :: rest => (.object [] none, some rest)
      | rest =>
        let (fields, defect, rest) := readFields fuel rest
        (.object fields defect, rest)
    | 'n' :: rest => readWord .null ['u', 'l', 'l'] rest
    | 't' :: rest => readWord (.bool true) ['r', 'u', 'e'] rest
    | 'f' :: rest => readWord (.bool false) ['a', 'l', 's', 'e'] rest
    | '-' :: rest => readNumber true rest
    | c :: rest =>
      if isDigit c then readNumber false (c :: rest) else (.broken .malformed .malformed, none)

def readItems : (fuel : Nat) → List Char → List Node × Option Fault × Option (List Char)
  | 0, _ => ([], some .malformed, none)
  | fuel + 1, cs => match readNode fuel cs with
    | (v, none) => ([v], none, none)
    | (v, some rest) => match skipSpace rest with
      | ',' :: rest =>
        let (items, defect, rest) := readItems fuel rest
        (v :: items, defect, rest)
      | ']' :: rest => ([v], none, some rest)
      | rest => ([v], some (stop rest), none)

def readFields :
    (fuel : Nat) → List Char → List (Literal × Node) × Option Fault × Option (List Char)
  | 0, _ => ([], some .malformed, none)
  | fuel + 1, cs => match skipSpace cs with
    | '"' :: rest => match readLiteral rest with
      | (k, none) => ([(k, .broken .malformed .malformed)], none, none)
      | (k, some rest) => match skipSpace rest with
        | ':' :: rest => match readNode fuel rest with
          | (v, none) => ([(k, v)], none, none)
          | (v, some rest) => match skipSpace rest with
            | ',' :: rest =>
              let (fields, defect, rest) := readFields fuel rest
              ((k, v) :: fields, defect, rest)
            | '}' :: rest => ([(k, v)], none, some rest)
            | rest => ([(k, v)], some (stop rest), none)
        | rest => ([(k, .broken (stop rest) (stop rest))], none, none)
    | rest => ([], some (stop rest), none)

end

def readDocument (cs : List Char) : Node × Option (List Char) := readNode (2 * cs.length + 1) cs

def read {α : Type} (decode : Node → Except Fault α) (s : String) : Except Fault α := do
  let (v, rest) := readDocument s.toList
  let a ← decode v
  if (skipSpace (rest.getD [])).isEmpty then return a else throw .malformed

end Letterbox.Json
