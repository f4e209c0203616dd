import Letterbox.Toml.Scalar

/-! # Reading TOML -/

namespace Letterbox.Toml

set_option autoImplicit false

/-- How deeply values may lie in each other, and how many parts a key may have; both must stay
below. -/
def depthLimit : Nat := 80

/-! ## Keys -/

def isBareKeyChar (c : Char) : Bool := c.isAlphanum || c = '_' || c = '-'

def keyPart? (cs : List Char) : Option (String × List Char) :=
  match cs with
  | '"' :: rest => (basic? (rest.length + 1) rest).map fun (s, rest) => (String.ofList s, rest)
  | '\'' :: rest => (literal? rest).map fun (s, rest) => (String.ofList s, rest)
  | _ =>
    let k := cs.takeWhile isBareKeyChar
    if k.isEmpty then none else some (String.ofList k, cs.drop k.length)

def keyParts? : (fuel : Nat) → List Char → Option (List String × List Char)
  | 0, _ => none
  | fuel + 1, cs => do
    let (k, rest) ← keyPart? (skipSpaces cs)
    match skipSpaces rest with
    | '.' :: rest =>
      let (ks, rest) ← keyParts? fuel rest
      return (k :: ks, rest)
    | rest => return ([k], rest)

def key? (cs : List Char) : Option ((List String × String) × List Char) := do
  let (ks, rest) ← keyParts? depthLimit cs
  if depthLimit ≤ ks.length then none
  let last ← ks.getLast?
  return ((ks.dropLast, last), rest)

/-! ## Values -/

/-- Skips a comment that may be there; it must not hold control characters. -/
def comment? (cs : List Char) : Option (List Char) :=
  match cs with
  | '#' :: rest =>
    let after := rest.dropWhile isPrintable
    if after.isEmpty || (afterNewline? after).isSome then some after else none
  | _ => some cs

def gap? : (fuel : Nat) → List Char → Option (List Char)
  | 0, _ => none
  | fuel + 1, cs => do
    let cs ← comment? (skipSpaces cs)
    match afterNewline? cs with
    | some rest => gap? fuel rest
    | none => return cs

inductive Place where
  | value
  | items
  | fields (soFar : Fields)

def read? : (fuel depth : Nat) → Place → List Char → Option (Value × List Char)
  | 0, _, _, _ => none
  | fuel + 1, depth, .value, cs =>
    match cs with
    | '"' :: _ | '\'' :: _ => (string? cs).map fun (s, rest) => (.text (String.ofList s), rest)
    | '[' :: rest => if depthLimit ≤ depth + 1 then none else read? fuel (depth + 1) .items rest
    | '\x7b' :: rest =>
      if depthLimit ≤ depth + 1 then none
      else match skipSpaces rest with
        | '\x7d' :: rest => some (.table .inline [], rest)
        | rest => read? fuel (depth + 1) (.fields []) rest
    | _ =>
      let (w, rest) := word cs
      (ofWord? w).map (·, rest)
  | fuel + 1, depth, .items, cs => do
    match ← gap? (cs.length + 1) cs with
    | ']' :: rest => return (.array [], rest)
    | cs =>
      let (v, rest) ← read? fuel depth .value cs
      match ← gap? (rest.length + 1) rest with
      | ',' :: rest =>
        match ← read? fuel depth .items rest with
        | (.array vs, rest) => return (.array (v :: vs), rest)
        | _ => none
      | ']' :: rest => return (.array [v], rest)
      | _ => none
  | fuel + 1, depth, .fields soFar, cs => do
    let ((path, key), rest) ← key? cs
    match rest with
    | '=' :: rest =>
      let (v, rest) ← read? fuel depth .value (skipSpaces rest)
      let soFar ← Fields.assign soFar path key v
      match skipSpaces rest with
      | ',' :: rest => read? fuel depth (.fields soFar) rest
      | '\x7d' :: rest => return (.table .inline soFar, rest)
      | _ => none
    | _ => none

def value? (cs : List Char) : Option (Value × List Char) := read? (2 * cs.length + 2) 0 .value cs

/-! ## Documents -/

def lineEnd? (cs : List Char) : Option (List Char) := do
  match ← comment? (skipSpaces cs) with
  | [] => return []
  | cs => afterNewline? cs

def lines? (root : Fields) (place : List String) : (fuel : Nat) → List Char → Option Fields
  | 0, _ => none
  | fuel + 1, cs =>
    match skipSpaces cs with
    | [] => some root
    | '[' :: '[' :: rest => do
      let ((path, key), rest) ← key? rest
      match rest with
      | ']' :: ']' :: rest =>
        let rest ← lineEnd? rest
        lines? (← root.within path (Fields.openRow key)) (path ++ [key]) fuel rest
      | _ => none
    | '[' :: rest => do
      let ((path, key), rest) ← key? rest
      match rest with
      | ']' :: rest =>
        let rest ← lineEnd? rest
        lines? (← root.within path (Fields.openTable key)) (path ++ [key]) fuel rest
      | _ => none
    | c :: rest =>
      if c = '#' || (afterNewline? (c :: rest)).isSome then do
        lines? root place fuel (← lineEnd? (c :: rest))
      else do
        let ((path, key), rest) ← key? (c :: rest)
        match rest with
        | '=' :: rest =>
          let (v, rest) ← value? (skipSpaces rest)
          let rest ← lineEnd? rest
          lines? (← root.within place fun below => below.assign path key v) place fuel rest
        | _ => none

def mark : Char := Char.ofNat 0xFEFF

def document? (s : String) : Option Fields :=
  let cs := s.toList
  let cs := if cs.head? = some mark then cs.drop 1 else cs
  lines? [] [] (cs.length + 1) cs

end Letterbox.Toml
