import Letterbox.Text.Numeral
import Letterbox.Toml.Value

/-! # Strings, numbers and dates of TOML

Every reader answers what it has read and what follows it, or nothing where the text is wrong. -/

namespace Letterbox.Toml

set_option autoImplicit false

open Text

/-! ## Strings -/

def isControl (c : Char) : Bool := c.toNat < 0x20 || c.toNat = 0x7F

def isPrintable (c : Char) : Bool := c = '\t' || !isControl c

def isSpace (c : Char) : Bool := c = ' ' || c = '\t'

def skipSpaces (cs : List Char) : List Char := cs.dropWhile isSpace

def afterNewline? : List Char → Option (List Char)
  | '\n' :: rest => some rest
  | '\r' :: '\n' :: rest => some rest
  | _ => none

def charOf? (digits : List Char) : Option Char := do
  let n ← digits.foldlM (fun n c => (hexDigit? c).map (n * 16 + ·)) 0
  if n < 0xD800 ∨ (0xDFFF < n ∧ n < 0x110000) then some (Char.ofNat n) else none

def escape? : List Char → Option (Char × List Char)
  | 'b' :: rest => some ('\x08', rest)
  | 't' :: rest => some ('\t', rest)
  | 'n' :: rest => some ('\n', rest)
  | 'f' :: rest => some ('\x0c', rest)
  | 'r' :: rest => some ('\r', rest)
  | '"' :: rest => some ('"', rest)
  | '\\' :: rest => some ('\\', rest)
  | 'u' :: rest => if rest.length < 4 then none else (charOf? (rest.take 4)).map (·, rest.drop 4)
  | 'U' :: rest => if rest.length < 8 then none else (charOf? (rest.take 8)).map (·, rest.drop 8)
  | _ => none

def basic? : (fuel : Nat) → List Char → Option (List Char × List Char)
  | 0, _ => none
  | fuel + 1, cs => match cs with
    | [] => none
    | '"' :: rest => some ([], rest)
    | '\\' :: rest => do
      let (c, rest) ← escape? rest
      let (s, rest) ← basic? fuel rest
      return (c :: s, rest)
    | c :: rest =>
      if isPrintable c then (basic? fuel rest).map fun (s, rest) => (c :: s, rest) else none

def literal? : List Char → Option (List Char × List Char)
  | [] => none
  | '\'' :: rest => some ([], rest)
  | c :: rest => if isPrintable c then (literal? rest).map fun (s, rest) => (c :: s, rest) else none

def skipLines : (fuel : Nat) → List Char → List Char
  | 0, cs => cs
  | fuel + 1, cs =>
    let cs := skipSpaces cs
    match afterNewline? cs with
    | some rest => skipLines fuel rest
    | none => cs

/-- A row of quotes inside a string of several lines: it ends the string if there are three, and up
to two more before them belong to it. Answers the quotes that belong to the string and whether it
has ended. -/
def quotes (q : Char) (cs : List Char) : List Char × Bool × List Char :=
  let n := min 5 (cs.takeWhile (· = q)).length
  if 3 ≤ n then (List.replicate (n - 3) q, true, cs.drop n)
  else (List.replicate n q, false, cs.drop n)

def multiline? (q : Char) (escapes : Bool) :
    (fuel : Nat) → List Char → Option (List Char × List Char)
  | 0, _ => none
  | fuel + 1, cs =>
    match cs with
    | [] => none
    | c :: rest =>
      if c = q then
        let (s, ended, rest) := quotes q cs
        if ended then some (s, rest)
        else (multiline? q escapes fuel rest).map fun (t, rest) => (s ++ t, rest)
      else if c = '\\' && escapes then
        match afterNewline? (skipSpaces rest) with
        | some after => multiline? q escapes fuel (skipLines after.length after)
        | none => do
          let (e, rest) ← escape? rest
          let (t, rest) ← multiline? q escapes fuel rest
          return (e :: t, rest)
      else match afterNewline? cs with
        | some after => (multiline? q escapes fuel after).map fun (t, rest) => ('\n' :: t, rest)
        | none =>
          if isPrintable c then (multiline? q escapes fuel rest).map fun (t, rest) => (c :: t, rest)
          else none

/-- A line end right at the beginning of a string of several lines does not belong to it. -/
def skipFirstNewline (cs : List Char) : List Char := (afterNewline? cs).getD cs

def string? : List Char → Option (List Char × List Char)
  | '"' :: '"' :: '"' :: rest => multiline? '"' true (rest.length + 1) (skipFirstNewline rest)
  | '\'' :: '\'' :: '\'' :: rest => multiline? '\'' false (rest.length + 1) (skipFirstNewline rest)
  | '"' :: rest => basic? (rest.length + 1) rest
  | '\'' :: rest => literal? rest
  | _ => none

/-! ## Numbers -/

def grouped? (isDigit : Char → Bool) : List Char → Option (List Char)
  | [] => none
  | [c] => if isDigit c then some [c] else none
  | c :: '_' :: rest => if isDigit c then (grouped? isDigit rest).map (c :: ·) else none
  | c :: rest => if isDigit c then (grouped? isDigit rest).map (c :: ·) else none

def isDecimal (c : Char) : Bool := (digit? c).isSome

/-- Digits of a whole number, which do not begin with a zero unless it is zero. -/
def whole? (cs : List Char) : Option (List Char) :=
  match cs with
  | '0' :: _ :: _ => none
  | _ => grouped? isDecimal cs

def number (base : Nat) (digits : List Char) : Nat :=
  digits.foldl (fun n c => n * base + (hexDigit? c).getD 0) 0

def isNegative (cs : List Char) : Bool := cs.head? = some '-'

def dropSign : List Char → List Char
  | '+' :: rest | '-' :: rest => rest
  | cs => cs

def maxInteger : Nat := 0x7fffffffffffffff

def inBase? (base : Nat) (isDigit : Char → Bool) (cs : List Char) : Option Int := do
  let n := number base (← grouped? isDigit cs)
  if n ≤ maxInteger then return (n : Int) else none

def integer? (cs : List Char) : Option Int :=
  match cs with
  | '0' :: 'x' :: rest => inBase? 16 (fun c => (hexDigit? c).isSome) rest
  | '0' :: 'o' :: rest => inBase? 8 (fun c => '0' ≤ c && c ≤ '7') rest
  | '0' :: 'b' :: rest => inBase? 2 (fun c => c = '0' || c = '1') rest
  | _ => do
    let n := number 10 (← whole? (dropSign cs))
    if isNegative cs then if n ≤ maxInteger + 1 then return -(n : Int) else none
    else if n ≤ maxInteger then return (n : Int) else none

/-- Whether a number `mantissa * 10 ^ exponent` is too large to be told from infinity. -/
def isInfinite (mantissa : Nat) (exponent : Int) : Bool :=
  let limit := Nat.pow 2 1024 - Nat.pow 2 970
  if mantissa = 0 then false
  else if 400 < exponent then true
  else if 0 ≤ exponent then limit ≤ mantissa * Nat.pow 10 exponent.toNat
  else
    let shift := min (-exponent).toNat ((toString mantissa).length + 1)
    limit * Nat.pow 10 shift ≤ mantissa

def isExponentMark (c : Char) : Bool := c = 'e' || c = 'E'

def exponent? (cs : List Char) : Option Int := do
  let n := number 10 (← grouped? isDecimal (dropSign cs))
  return if isNegative cs then -(n : Int) else n

/-- Whether the text is a number with a fraction or an exponent, or one that is no number proper. -/
def isFloat (cs : List Char) : Bool :=
  let body := dropSign cs
  if body = ['i', 'n', 'f'] || body = ['n', 'a', 'n'] then true
  else
    let mantissa := body.takeWhile fun c => !isExponentMark c
    let mark := body.drop mantissa.length
    let before := mantissa.takeWhile (· ≠ '.')
    let fraction := mantissa.drop before.length
    if mark.isEmpty && fraction.isEmpty then false
    else
      match whole? before,
        (if fraction.isEmpty then some [] else grouped? isDecimal (fraction.drop 1)),
          (if mark.isEmpty then some 0 else exponent? (mark.drop 1)) with
      | some whole, some part, some e =>
        isNegative cs || !isInfinite (number 10 (whole ++ part)) (e - part.length)
      | _, _, _ => false

/-! ## Dates and times -/

def fixed? (width : Nat) (cs : List Char) : Option Nat :=
  if cs.length = width then digits? cs else none

def isLeap (year : Nat) : Bool := year % 4 = 0 && (year % 100 ≠ 0 || year % 400 = 0)

def daysIn (year month : Nat) : Nat :=
  if month = 2 then (if isLeap year then 29 else 28)
  else if month = 4 || month = 6 || month = 9 || month = 11 then 30
  else 31

def isDate (cs : List Char) : Bool :=
  match fixed? 4 (cs.take 4), cs[4]?, fixed? 2 ((cs.drop 5).take 2), cs[7]?,
    fixed? 2 (cs.drop 8) with
  | some year, some '-', some month, some '-', some day =>
    1 ≤ month && month ≤ 12 && 1 ≤ day && day ≤ daysIn year month
  | _, _, _, _, _ => false

def isClock (cs : List Char) : Bool :=
  match fixed? 2 (cs.take 2), cs[2]?, fixed? 2 (cs.drop 3) with
  | some hour, some ':', some minute => hour < 24 && minute < 60
  | _, _, _ => false

def isTime (cs : List Char) : Bool :=
  isClock (cs.take 5) && cs[5]? = some ':' && (fixed? 2 ((cs.drop 6).take 2)).any (· ≤ 60) &&
    match cs.drop 8 with
    | [] => true
    | '.' :: part => (digits? part).isSome
    | _ => false

def isZonedTime (cs : List Char) : Bool :=
  match cs.getLast? with
  | some 'Z' | some 'z' => isTime cs.dropLast
  | _ =>
    let zone := cs.drop (cs.length - 6)
    isTime cs ||
      ((zone.head? = some '+' || zone.head? = some '-') && isClock (zone.drop 1) &&
        isTime (cs.take (cs.length - 6)))

def isMoment (cs : List Char) : Bool :=
  isTime cs || isDate cs ||
    (isDate (cs.take 10) && (cs[10]? = some 'T' || cs[10]? = some 't' || cs[10]? = some ' ') &&
      isZonedTime (cs.drop 11))

/-! ## Words -/

def isWordChar (c : Char) : Bool := c.isAlphanum || "_+-.:".toList.contains c

/-- A value without quotes and what follows it. Between a date and a time a space may stand. -/
def word (cs : List Char) : List Char × List Char :=
  let w := cs.takeWhile isWordChar
  let rest := cs.drop w.length
  match rest with
  | ' ' :: c :: _ =>
    if isDate w && isDecimal c then
      let t := (rest.drop 1).takeWhile isWordChar
      (w ++ ' ' :: t, (rest.drop 1).drop t.length)
    else (w, rest)
  | _ => (w, rest)

def ofWord? (w : List Char) : Option Value :=
  if w = "true".toList then some (.boolean true)
  else if w = "false".toList then some (.boolean false)
  else if isMoment w then some .moment
  else if isFloat w then some .float
  else (integer? w).map .integer

end Letterbox.Toml
