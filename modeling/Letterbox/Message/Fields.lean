import Letterbox.Net.Lines
import Letterbox.Text.Blank
import Letterbox.Text.Search

/-! # Fields in front of a part

What a part of a message says about itself: its kind of content, how it is encoded, and whether it
is an attachment. Fields end at the first empty line; of several fields of one name the last
counts. -/

namespace Letterbox.Message

set_option autoImplicit false

open Text

structure Field where
  name : String
  value : List Char
deriving DecidableEq, Repr

/-- The lines up to the first empty line, and what follows it; `none` if there is no empty line. -/
def headLines (bs : Bytes) : Option (List Bytes × Bytes) :=
  match _h : Lines.next? bs with
  | none => none
  | some (line, after) =>
    if line = [] ∨ line = [Lines.cr] then some ([], after)
    else (headLines after).map fun (lines, rest) => (line :: lines, rest)
termination_by bs.length
decreasing_by
  have := Lines.length_of_next? _h
  omega

def joinLines (lines : List (List Char)) : List (List Char) :=
  lines.foldl (fun fields line => match line, fields.getLast? with
    | ' ' :: _, some f | '\t' :: _, some f => fields.dropLast ++ [f ++ line]
    | _, _ => fields ++ [line]) []

def Field.ofLine? (line : List Char) : Option Field :=
  match cutAt ':' line with
  | none => none
  | some (name, value) =>
    let name := trimChars name
    if name.isEmpty then none else some ⟨String.ofList name, trimChars value⟩

def fieldsOf (lines : List Bytes) : List Field :=
  (joinLines (lines.map Utf8.decodeChars)).filterMap Field.ofLine?

/-- The value of the last field of that name. -/
def field? (name : String) (fields : List Field) : Option (List Char) :=
  (fields.reverse.find? fun f => sameIgnoringCase f.name name).map (·.value)

structure MediaType where
  kind : String
  subkind : Option String
  parameters : List (String × List Char)
deriving DecidableEq, Repr

namespace MediaType

def lower (cs : List Char) : String := String.ofList ((trimChars cs).map foldCase)

/-- What stands between quotation marks, where a backslash makes the next character stand for
itself, and what follows the closing mark. -/
def quoted : List Char → List Char × List Char
  | [] => ([], [])
  | '"' :: rest => ([], rest)
  | '\\' :: c :: rest => let (inner, rest) := quoted rest; (c :: inner, rest)
  | c :: rest => let (inner, rest) := quoted rest; (c :: inner, rest)

theorem length_quoted (cs : List Char) : (quoted cs).2.length ≤ cs.length := by
  fun_induction quoted cs <;> simp_all <;> omega

def endsValue (c : Char) : Bool := c = ';'

def parameterValue (cs : List Char) : List Char × List Char :=
  match skipBlanks cs with
  | '"' :: rest => ((quoted rest).1, (quoted rest).2.dropWhile (!endsValue ·))
  | rest => (trimChars (rest.takeWhile (!endsValue ·)), rest.dropWhile (!endsValue ·))

theorem length_dropWhile_le (p : Char → Bool) (cs : List Char) :
    (cs.dropWhile p).length ≤ cs.length :=
  (List.dropWhile_suffix p).length_le

theorem length_parameterValue (cs : List Char) : (parameterValue cs).2.length ≤ cs.length := by
  have hs : (skipBlanks cs).length ≤ cs.length := length_dropWhile_le _ _
  unfold parameterValue
  split
  · rename_i rest h
    have h₁ := length_quoted rest
    have h₂ := length_dropWhile_le (!endsValue ·) (quoted rest).2
    rw [h, List.length_cons] at hs
    exact Nat.le_trans h₂ (by omega)
  · exact Nat.le_trans (length_dropWhile_le _ _) hs

theorem length_of_cutAt {sep : Char} {cs before after : List Char}
    (h : cutAt sep cs = some (before, after)) : after.length < cs.length := by
  induction cs generalizing before after with
  | nil => simp [cutAt] at h
  | cons c rest ih =>
    unfold cutAt at h
    split at h
    · cases h; simp
    · obtain ⟨⟨b, a⟩, hb, he⟩ := Option.map_eq_some_iff.1 h
      cases he
      have := ih hb
      simp only [List.length_cons]
      omega

def parametersOf (cs : List Char) : List (String × List Char) :=
  match _h : cutAt '=' cs with
  | none => []
  | some (name, after) =>
    (lower (name.dropWhile (fun c => c = ';' || isBlank c)), (parameterValue after).1) ::
      parametersOf (parameterValue after).2
termination_by cs.length
decreasing_by
  have h₁ := length_of_cutAt _h
  have h₂ := length_parameterValue after
  omega

def ofValue? (value : List Char) : Option MediaType :=
  let head := value.takeWhile (!endsValue ·)
  let parameters := parametersOf (value.dropWhile (!endsValue ·))
  match cutAt '/' head with
  | some (kind, subkind) => some ⟨lower kind, some (lower subkind), parameters⟩
  | none => if (trimChars head).isEmpty then none else some ⟨lower head, none, parameters⟩

def parameter? (m : MediaType) (name : String) : Option (List Char) := m.parameters.lookup name

end MediaType

def mediaType? (fields : List Field) : Option MediaType :=
  (field? "Content-Type" fields).bind MediaType.ofValue?

def isAttachment (fields : List Field) : Bool :=
  ((field? "Content-Disposition" fields).bind MediaType.ofValue?).any (·.kind = "attachment")

inductive Transfer where
  | verbatim
  | quotedPrintable
  | base64
deriving DecidableEq, Repr

def transferOf (fields : List Field) : Transfer :=
  match (field? "Content-Transfer-Encoding" fields).map String.ofList with
  | none => .verbatim
  | some name =>
    if sameIgnoringCase name "quoted-printable" then .quotedPrintable
    else if sameIgnoringCase name "base64" then .base64
    else .verbatim

end Letterbox.Message
