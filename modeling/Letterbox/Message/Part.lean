import Letterbox.Message.Charset
import Letterbox.Message.Fields
import Letterbox.Message.QuotedPrintable
import Letterbox.Text.Base64

/-! # Parts of a message

A message is one part, or several between delimiter lines, which may again be made of several. A
delimiter line begins with two hyphens and the boundary; two more hyphens close the last part. -/

namespace Letterbox.Message

set_option autoImplicit false

open Text

inductive Ending where
  | endOfText
  | delimiter
  | missing
deriving DecidableEq, Repr

structure Leaf where
  fields : List Field
  content : Bytes
  ending : Ending
  undivided : Bool := false
deriving DecidableEq, Repr

inductive Part where
  | leaf (leaf : Leaf)
  | several (fields : List Field) (parts : List Part) (closed : Bool)

def boundaryEnds : Bytes → Bool
  | [] => true
  | 45 :: 45 :: _ => true
  | b :: _ => b = 10 || b = 13 || b = 32 || b = 9

def afterDelimiter? (boundary bs : Bytes) : Option Bytes :=
  (dropPrefix? (45 :: 45 :: boundary) bs).filter boundaryEnds

/-- What stands before the first delimiter, its line end included, and what follows the boundary. -/
def cutAtDelimiter (boundary : Bytes) (lineBegins : Bool) : Bytes → Option (Bytes × Bytes)
  | [] => none
  | b :: rest =>
    match if lineBegins then afterDelimiter? boundary (b :: rest) else none with
    | some after => some ([], after)
    | none =>
      (cutAtDelimiter boundary (b = Lines.lf) rest).map fun (before, after) => (b :: before, after)

def dropLineEnd (bs : Bytes) : Bytes :=
  if bs.getLast? = some Lines.lf then
    let bs := bs.dropLast
    if bs.getLast? = some Lines.cr then bs.dropLast else bs
  else bs

def afterLineEnd : Bytes → Bytes
  | [] => []
  | b :: rest =>
    if b = Lines.lf then rest
    else if b = Lines.cr ∨ b = 32 ∨ b = 9 then afterLineEnd rest
    else b :: rest

def boundary? (fields : List Field) : Option Bytes := do
  let m ← mediaType? fields
  if m.kind = "multipart" then (m.parameter? "boundary").map Utf8.encodeChars else none

def leafOf (fields : List Field) (boundary : Option Bytes) (undivided : Bool) (body : Bytes) :
    Leaf × Option Bytes :=
  match boundary with
  | none => (⟨fields, body, .endOfText, undivided⟩, none)
  | some b => match cutAtDelimiter b true body with
    | some (before, after) => (⟨fields, dropLineEnd before, .delimiter, undivided⟩, some after)
    | none => (⟨fields, body, .missing, undivided⟩, none)

mutual

/-- Reads a part that the boundary around it ends, if there is one. Answers also what follows its
last delimiter. `fuel` bounds the number of parts. -/
def readPart (boundary : Option Bytes) : (fuel : Nat) → Bytes → Option (Part × Option Bytes)
  | 0, _ => none
  | fuel + 1, bs => match headLines bs with
    | none => none
    | some (lines, body) =>
      let fields := fieldsOf lines
      match boundary? fields with
      | none =>
        let (leaf, after) := leafOf fields boundary false body
        some (.leaf leaf, after)
      | some inner => match cutAtDelimiter inner true body with
        | none =>
          let (leaf, after) := leafOf fields boundary true body
          some (.leaf leaf, after)
        | some (_, after) =>
          let (parts, rest) := readParts inner fuel after
          let after := do (← cutAtDelimiter (← boundary) false (← rest)).2
          some (.several fields parts rest.isSome, after)

def readParts (boundary : Bytes) : (fuel : Nat) → Bytes → List Part × Option Bytes
  | 0, _ => ([], none)
  | fuel + 1, bs => match bs with
    | 45 :: 45 :: rest => ([], some rest)
    | _ => match readPart (some boundary) fuel (afterLineEnd bs) with
      | none => ([], none)
      | some (part, none) => ([part], none)
      | some (part, some after) =>
        let (parts, rest) := readParts boundary fuel after
        (part :: parts, rest)

end

def Part.ofBytes? (bs : Bytes) : Option Part := (readPart none (2 * bs.length + 2) bs).map (·.1)

namespace Leaf

/-- The bytes that the text stands for; `none` if it is not written as it says, or if its end is
missing. -/
def decoded? (l : Leaf) : Option Bytes :=
  if l.ending = .missing then none
  else match transferOf l.fields with
    | .verbatim => some l.content
    | .base64 => Base64.decode l.content
    | .quotedPrintable =>
      QuotedPrintable.decode <|
        if l.ending = .delimiter then (l.content.reverse.dropWhile QuotedPrintable.isBlank).reverse
        else l.content

def charset (l : Leaf) : Charset :=
  match (mediaType? l.fields).bind (·.parameter? "charset") with
  | some name => .ofName (String.ofList name)
  | none => .utf8

end Leaf

end Letterbox.Message
