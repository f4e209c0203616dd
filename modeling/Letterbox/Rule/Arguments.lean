import Letterbox.Text.Blank

/-! # Arguments of a program

A command line is cut into arguments at blanks. Between two quotation marks of one kind every
character stands for itself, the other mark included; quoted and bare pieces that touch make one
argument, and an empty pair of marks makes an empty one. There is no escape character. The place of
the message is put in after cutting, so it is never cut or looked into again. -/

namespace Letterbox.Arguments

set_option autoImplicit false

def isQuote (c : Char) : Bool := c = '"' || c = '\''

/-- Cuts a command line. `begun` is the argument so far, if one has begun, and `quote` the mark that
is still open. A mark that is never closed extends to the end. -/
def splitFrom (begun : Option (List Char)) (quote : Option Char) : List Char → List (List Char)
  | [] => begun.toList
  | c :: rest => match quote with
    | some q =>
      if c = q then splitFrom begun none rest
      else splitFrom (some (begun.getD [] ++ [c])) quote rest
    | none =>
      if isQuote c then splitFrom (some (begun.getD [])) (some c) rest
      else if Text.isBlank c then begun.toList ++ splitFrom none none rest
      else splitFrom (some (begun.getD [] ++ [c])) none rest

def splitChars (line : List Char) : List (List Char) := splitFrom none none line

def split (line : String) : List String := (splitChars line.toList).map String.ofList

def substitute (path : List Char) : List Char → List Char
  | '%' :: 'e' :: rest => path ++ substitute path rest
  | c :: rest => c :: substitute path rest
  | [] => []

def expand (line path : String) : List String :=
  (splitChars line.toList).map fun arg => String.ofList (substitute path.toList arg)

end Letterbox.Arguments
