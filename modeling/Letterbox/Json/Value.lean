import Letterbox.Text.Numeral

/-! # JSON values and their compact text

No blanks are written, fields stay in their order, and only what must be escaped in a string is
escaped. -/

namespace Letterbox.Json

set_option autoImplicit false

inductive Value where
  | null
  | bool (b : Bool)
  | number (n : Int)
  | text (s : String)
  | array (items : List Value)
  | object (fields : List (String × Value))

namespace Value

def nat (n : Nat) : Value := number n

def option {α : Type} (f : α → Value) : Option α → Value
  | none => null
  | some a => f a

def texts (l : List String) : Value := array (l.map text)

/-- The value of a field; a missing one is null. -/
def get (v : Value) (name : String) : Value :=
  match v with
  | object fields => ((fields.find? (·.1 = name)).map (·.2)).getD null
  | _ => null

def items : Value → List Value
  | array l => l
  | _ => []

def string? : Value → Option String
  | text s => some s
  | _ => none

def nat? : Value → Option Nat
  | number (.ofNat n) => some n
  | _ => none

def int? : Value → Option Int
  | number n => some n
  | _ => none

end Value

open Text

def escapeChar (c : Char) : List Char :=
  if c = '"' then ['\\', '"']
  else if c = '\\' then ['\\', '\\']
  else if c.toNat = 8 then ['\\', 'b']
  else if c.toNat = 9 then ['\\', 't']
  else if c.toNat = 10 then ['\\', 'n']
  else if c.toNat = 12 then ['\\', 'f']
  else if c.toNat = 13 then ['\\', 'r']
  else if c.toNat < 32 then '\\' :: 'u' :: fixedDigits 16 4 c.toNat
  else [c]

def quote (s : String) : List Char := '"' :: (s.toList.flatMap escapeChar ++ ['"'])

def writeNumber (n : Int) : List Char :=
  if n < 0 then '-' :: Nat.toDigits 10 n.natAbs else Nat.toDigits 10 n.natAbs

mutual

def write : Value → List Char
  | .null => ['n', 'u', 'l', 'l']
  | .bool true => ['t', 'r', 'u', 'e']
  | .bool false => ['f', 'a', 'l', 's', 'e']
  | .number n => writeNumber n
  | .text s => quote s
  | .array items => '[' :: writeItems items
  | .object fields => '{' :: writeFields fields

def writeItems : List Value → List Char
  | [] => [']']
  | v :: rest => write v ++ writeMoreItems rest

def writeMoreItems : List Value → List Char
  | [] => [']']
  | v :: rest => ',' :: (write v ++ writeMoreItems rest)

def writeFields : List (String × Value) → List Char
  | [] => ['}']
  | (k, v) :: rest => quote k ++ ':' :: (write v ++ writeMoreFields rest)

def writeMoreFields : List (String × Value) → List Char
  | [] => ['}']
  | (k, v) :: rest => ',' :: (quote k ++ ':' :: (write v ++ writeMoreFields rest))

end

def Value.toText (v : Value) : String := String.ofList (write v)

end Letterbox.Json
