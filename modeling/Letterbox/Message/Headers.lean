import Letterbox.Text.Blank
import Letterbox.Text.Search

/-! # Headers of a message

A message is a block of headers, an empty line, and a body. The empty line is looked for as CR LF CR
LF first, and only where there is none as LF LF. A header may go on over several lines: a line that
begins with a space or a tab continues the one before. -/

namespace Letterbox.Message

set_option autoImplicit false

open Text

def splitBlock (cs : List Char) : List Char × List Char :=
  match cutAround ['\r', '\n', '\r', '\n'] cs with
  | some parts => parts
  | none => match cutAround ['\n', '\n'] cs with
    | some parts => parts
    | none => (cs, [])

def dropReturn (line : List Char) : List Char :=
  if line.getLast? = some '\r' then line.dropLast else line

/-- The lines of a block. What follows the last line feed is a line if it is not empty, and keeps a
carriage return. -/
def blockLines (cs : List Char) : List (List Char) :=
  let pieces := splitAt '\n' cs
  pieces.dropLast.map dropReturn ++ (pieces.getLast?.filter (!·.isEmpty)).toList

def isContinuation : List Char → Bool
  | ' ' :: _ | '\t' :: _ => true
  | _ => false

/-- Joins the lines that belong to one header, each with one space. Lines that continue nothing and
empty lines are left out. -/
def unfold (lines : List (List Char)) : List (List Char) :=
  lines.foldl (fun headers line =>
    if isContinuation line then
      match headers.getLast? with
      | none => headers
      | some h => headers.dropLast ++ [h ++ ' ' :: trimChars line]
    else if line.isEmpty then headers
    else headers ++ [line]) []

def headersOf (cs : List Char) : List (List Char) := unfold (blockLines (splitBlock cs).1)

def valueFor? (name : String) (header : List Char) : Option String :=
  match cutAt ':' header with
  | none => none
  | some (field, value) =>
    if sameIgnoringCase (String.ofList (trimChars field)) name then
      some (String.ofList (trimChars value))
    else none

def lookup (name : String) (headers : List (List Char)) : Option String :=
  headers.findSome? (valueFor? name)

end Letterbox.Message
