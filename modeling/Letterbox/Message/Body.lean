import Letterbox.Message.Headers
import Letterbox.Message.Html
import Letterbox.Message.Part

/-! # The text of a message

Which part of a message is its text. Parts that are shown in line count, attachments do not; of
alternatives the plain one counts, and the one in HTML only if it is alone. Where no part is found,
the text is what follows the headers. -/

namespace Letterbox.Message

set_option autoImplicit false

open Text

inductive Content where
  | plain
  | html
  | otherText
  | media
  | other
deriving DecidableEq, Repr

inductive Grouping where
  | whole
  | alternative
  | related
  | digest
  | mixed
deriving DecidableEq, Repr

def Grouping.ofFields (fields : List Field) : Grouping :=
  match (mediaType? fields).bind (·.subkind) with
  | some "alternative" => alternative
  | some "related" => related
  | some "digest" => digest
  | _ => mixed

def announced (around : Grouping) (fields : List Field) : Content :=
  match mediaType? fields with
  | none => if around = .digest then .other else .plain
  | some m =>
    if m.kind = "text" then
      match m.subkind with
      | some "plain" => .plain
      | some "html" => .html
      | _ => .otherText
    else if m.kind = "image" ∨ m.kind = "audio" ∨ m.kind = "video" then .media
    else .other

structure Chosen where
  content : Content
  leaf : Leaf
deriving DecidableEq, Repr

structure Bodies where
  html : List Chosen := []
  plain : List Chosen := []

structure Wanted where
  html : Bool := true
  plain : Bool := true

structure Around where
  grouping : Grouping := .whole
  inAlternative : Bool := false

def isInline (around : Around) (index : Nat) (c : Content) (fields : List Field) : Bool :=
  (c = .plain || c = .html || c = .media) && !isAttachment fields &&
    (index = 0 || (around.grouping ≠ .related && (c = .media ||
      ((mediaType? fields).bind (·.parameter? "name")).isNone)))

/-- Puts a leaf where it belongs. A leaf that cannot be decoded belongs nowhere. -/
def addLeaf (around : Around) (index : Nat) (l : Leaf) (w : Wanted) (b : Bodies) :
    Wanted × Bodies :=
  let c :=
    if l.decoded?.isNone || l.undivided then .otherText else announced around.grouping l.fields
  let chosen : Chosen := ⟨c, l⟩
  if around.grouping = .alternative then
    match c with
    | .html => (w, { b with html := b.html ++ [chosen] })
    | .plain => (w, { b with plain := b.plain ++ [chosen] })
    | _ => (w, b)
  else if isInline around index c l.fields then
    let w := if around.inAlternative && (w.html || w.plain) then
        match c with
        | .html => { w with plain := false }
        | .plain => { w with html := false }
        | _ => w
      else w
    (w, { html := if w.html then b.html ++ [chosen] else b.html,
          plain := if w.plain then b.plain ++ [chosen] else b.plain })
  else (w, b)

/-- Of alternatives that are all of one kind, that kind makes the other text too. -/
def shareAlternatives (before b : Bodies) : Bodies :=
  let html := b.html.drop before.html.length
  let plain := b.plain.drop before.plain.length
  { html := if html.isEmpty then b.html ++ plain else b.html
    plain := if plain.isEmpty then b.plain ++ html else b.plain }

mutual

def addPart (around : Around) (index : Nat) (w : Wanted) (b : Bodies) : Part → Wanted × Bodies
  | .leaf l => addLeaf around index l w b
  | .several fields parts closed =>
    let grouping := Grouping.ofFields fields
    let inner : Around := ⟨grouping, around.inAlternative || grouping = .alternative⟩
    let (w', b') := addParts inner 0 w b parts
    let shared := closed && grouping = .alternative && w'.html && w'.plain
    (w, if shared then shareAlternatives b b' else b')

def addParts (around : Around) (index : Nat) (w : Wanted) (b : Bodies) : List Part → Wanted × Bodies
  | [] => (w, b)
  | p :: rest =>
    let (w, b) := addPart around index w b p
    addParts around (index + 1) w b rest

end

def Chosen.text? (c : Chosen) : Option (List Char) :=
  let text := c.leaf.decoded?.map c.leaf.charset.decode
  match c.content with
  | .plain | .otherText => text
  | .html => text.map Html.toText
  | .media | .other => none

def partText? (raw : Bytes) : Option (List Char) := do
  let (_, b) := addPart {} 0 {} {} (← Part.ofBytes? raw)
  (← b.plain.head?).text?

end Message

structure Message where
  headers : List String
  text : String
deriving DecidableEq, Repr

namespace Message

def ofBytes (raw : Bytes) : Message :=
  let (block, body) := splitBlock (Utf8.decodeChars raw)
  { headers := (unfold (blockLines block)).map String.ofList
    text := String.ofList ((partText? raw).getD body) }

def header? (m : Message) (name : String) : Option String :=
  lookup name (m.headers.map String.toList)

end Message

end Letterbox
