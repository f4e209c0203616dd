/-! # Decimal numerals

Reading of unsigned numbers written in ASCII digits, and writing with a fixed width. A reader takes
the largest number that it may answer, so that a numeral beyond it is refused and never cut down. -/

namespace Letterbox.Text

set_option autoImplicit false

def digit? (c : Char) : Option Nat :=
  if '0' ≤ c ∧ c ≤ '9' then some (c.toNat - 48) else none

def digitsFrom (acc : Nat) : List Char → Option Nat
  | [] => some acc
  | c :: rest => match digit? c with
    | some d => digitsFrom (10 * acc + d) rest
    | none => none

def digits? : List Char → Option Nat
  | [] => none
  | cs => digitsFrom 0 cs

/-- A non-empty row of digits, a plus sign allowed in front, of a value up to `limit`. -/
def numeral? (limit : Nat) (cs : List Char) : Option Nat :=
  let body := match cs with
    | '+' :: rest => rest
    | _ => cs
  (digits? body).filter (· ≤ limit)

def digitChar (d : Nat) : Char :=
  if d < 10 then Char.ofNat (48 + d) else Char.ofNat (87 + d)

def hexDigit? (c : Char) : Option Nat :=
  if '0' ≤ c ∧ c ≤ '9' then some (c.toNat - 48)
  else if 'a' ≤ c ∧ c ≤ 'f' then some (c.toNat - 87)
  else if 'A' ≤ c ∧ c ≤ 'F' then some (c.toNat - 55)
  else none

def fixedDigits (base : Nat) : (width : Nat) → (n : Nat) → List Char
  | 0, _ => []
  | width + 1, n => fixedDigits base width (n / base) ++ [digitChar (n % base)]

theorem length_fixedDigits (base width n : Nat) : (fixedDigits base width n).length = width := by
  induction width generalizing n with
  | zero => rfl
  | succ width ih => simp [fixedDigits, ih]

end Letterbox.Text
