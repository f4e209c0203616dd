import Letterbox.Text.Blank
import Letterbox.Text.Numeral

/-! # Plain text of HTML

One pass over the characters. Words are written out as they end, with a space in front where blanks
stood before and no line has just begun. Tags leave nothing behind, but for `<br>` and `</p>`, which
end a line; the head of a document and comments are passed over. -/

namespace Letterbox.Html

set_option autoImplicit false

open Text

def named : List (String × Nat) :=
  [("quot", 34), ("amp", 38), ("apos", 39), ("lt", 60), ("gt", 62), ("nbsp", 160), ("iexcl", 161),
   ("cent", 162), ("pound", 163), ("curren", 164), ("yen", 165), ("brvbar", 166), ("sect", 167),
   ("uml", 168), ("copy", 169), ("ordf", 170), ("laquo", 171), ("not", 172), ("shy", 173),
   ("reg", 174), ("macr", 175), ("deg", 176), ("plusmn", 177), ("sup2", 178), ("sup3", 179),
   ("acute", 180), ("micro", 181), ("para", 182), ("middot", 183), ("cedil", 184), ("sup1", 185),
   ("ordm", 186), ("raquo", 187), ("frac14", 188), ("frac12", 189), ("frac34", 190),
   ("iquest", 191), ("Agrave", 192), ("Aacute", 193), ("Acirc", 194), ("Atilde", 195),
   ("Auml", 196), ("Aring", 197), ("AElig", 198), ("Ccedil", 199), ("Egrave", 200), ("Eacute", 201),
   ("Ecirc", 202), ("Euml", 203), ("Igrave", 204), ("Iacute", 205), ("Icirc", 206), ("Iuml", 207),
   ("ETH", 208), ("Ntilde", 209), ("Ograve", 210), ("Oacute", 211), ("Ocirc", 212), ("Otilde", 213),
   ("Ouml", 214), ("times", 215), ("Oslash", 216), ("Ugrave", 217), ("Uacute", 218), ("Ucirc", 219),
   ("Uuml", 220), ("Yacute", 221), ("THORN", 222), ("szlig", 223), ("agrave", 224), ("aacute", 225),
   ("acirc", 226), ("atilde", 227), ("auml", 228), ("aring", 229), ("aelig", 230), ("ccedil", 231),
   ("egrave", 232), ("eacute", 233), ("ecirc", 234), ("euml", 235), ("igrave", 236),
   ("iacute", 237), ("icirc", 238), ("iuml", 239), ("eth", 240), ("ntilde", 241), ("ograve", 242),
   ("oacute", 243), ("ocirc", 244), ("otilde", 245), ("ouml", 246), ("divide", 247),
   ("oslash", 248), ("ugrave", 249), ("uacute", 250), ("ucirc", 251), ("uuml", 252),
   ("yacute", 253), ("thorn", 254), ("yuml", 255), ("ndash", 8211), ("mdash", 8212),
   ("lsquo", 8216), ("rsquo", 8217), ("ldquo", 8220), ("rdquo", 8221), ("bull", 8226),
   ("hellip", 8230), ("euro", 8364), ("trade", 8482)]

/-- The character of a number, if it is one; other numbers stand for the replacement character. -/
def charOfNumber (n : Nat) : Char := if n.isValidChar then Char.ofNat n else Char.ofNat 0xFFFD

def hexDigits? : List Char → Option Nat
  | [] => none
  | cs => cs.foldlM (fun n c => (hexDigit? c).map (n * 16 + ·)) 0

/-- The number of a numeric character; zero and numbers of more than 32 bits are none. -/
def reference? (cs : List Char) : Option Nat :=
  (match cs with
    | 'x' :: ds | 'X' :: ds => hexDigits? ds
    | ds => digits? ds).filter fun n => 0 < n && n < 0x100000000

def entity? (name : List Char) : Option Char :=
  match name with
  | '#' :: cs => (reference? cs).map charOfNumber
  | _ => (named.lookup (String.ofList name)).map Char.ofNat

def wordText (word : List Char) : List Char :=
  match word with
  | '&' :: rest =>
    if rest.getLast? = some ';' then
      match entity? rest.dropLast with
      | some c => [c]
      | none => word
    else word
  | _ => word

structure Tag where
  closing : Bool := false
  words : Nat := 0
  /-- The first word, and the slashes behind it that belong to it if it goes on. -/
  first : List Char := []
  slashes : List Char := []
  wordOpen : Bool := false

inductive Place where
  | text
  | tag (tag : Tag)
  /-- The last two characters decide whether a `>` ends the comment. -/
  | comment (beforeLast last : Char)

structure Pass where
  place : Place := .text
  inHead : Bool := false
  word : Option (List Char) := none
  afterBlank : Bool := false
  lineBegins : Bool := true
  written : List Char := []

namespace Pass

def write (p : Pass) (cs : List Char) : Pass := { p with written := cs.reverse ++ p.written }

def emit (p : Pass) (spaced : Bool) (more : List Char) : Pass :=
  match p.word with
  | none => p
  | some w =>
    { p with word := none }.write ((if spaced then [' '] else []) ++ wordText (w ++ more))

def openTag (p : Pass) : Pass :=
  let p := match p.place, p.inHead, p.word with
    | .text, false, some _ => { p.emit p.afterBlank [] with afterBlank := false }
    | _, _, _ => p
  { p with place := .tag {}, word := none }

def isName (t : Tag) (name : String) : Bool :=
  t.words = 1 && sameIgnoringCase (String.ofList t.first) name

def closeTag (p : Pass) (t : Tag) : Pass :=
  let p := { p with place := .text, word := none }
  if isName t "br" || (t.closing && isName t "p") then
    { p.write ['\n'] with afterBlank := false, lineBegins := true }
  else if isName t "head" then { p with inHead := !t.closing }
  else p

def isTagBlank (c : Char) : Bool := c = ' ' || c = '\t' || c = '\r' || c = '\n'

def tagWord (t : Tag) (c : Char) : Tag :=
  if t.wordOpen then
    if t.words = 1 then { t with first := t.first ++ t.slashes ++ [c], slashes := [] } else t
  else
    { t with
      words := t.words + 1
      wordOpen := true
      first := if t.words = 0 then [c] else t.first
      slashes := [] }

def inTag (p : Pass) (t : Tag) (c : Char) (ahead : List Char) : Pass :=
  if c = '<' then p.openTag
  else if c = '>' then p.closeTag t
  else if c = '/' then
    let t :=
      if t.words = 0 then { t with closing := true } else { t with slashes := t.slashes ++ ['/'] }
    { p with place := .tag t }
  else if c = '!' && t.words = 0 && ahead.take 2 = ['-', '-'] then
    { p with place := .comment ' ' ' ' }
  else if isTagBlank c then { p with place := .tag { t with wordOpen := false, slashes := [] } }
  else { p with place := .tag (tagWord t c) }

def inText (p : Pass) (c : Char) : Pass :=
  let spaced := p.afterBlank && !p.lineBegins
  if c = '<' then p.openTag
  else if isTagBlank c then
    if p.inHead then { p with word := none }
    else match p.word with
      | none => { p with afterBlank := true }
      | some _ => { p.emit spaced [] with lineBegins := false, afterBlank := true }
  else match p.word with
    | none => { p with word := some [c] }
    | some w =>
      if c = '&' && !p.inHead then
        { p.emit spaced [] with lineBegins := false, afterBlank := false, word := some ['&'] }
      else if c = ';' && !p.inHead then
        { p.emit spaced [';'] with lineBegins := false, afterBlank := false }
      else { p with word := some (w ++ [c]) }

def step (p : Pass) (c : Char) (ahead : List Char) : Pass :=
  match p.place with
  | .text => p.inText c
  | .tag t => p.inTag t c ahead
  | .comment beforeLast last =>
    if c = '>' && last = '-' && beforeLast = '-' then { p with place := .text, word := none }
    else { p with place := .comment last c }

def finish (p : Pass) : List Char :=
  let p := match p.place, p.inHead with
    | .text, false => p.emit (p.afterBlank && !p.lineBegins) []
    | _, _ => p
  p.written.reverse

def run (p : Pass) : List Char → Pass
  | [] => p
  | c :: ahead => run (p.step c ahead) ahead

end Pass

def toText (cs : List Char) : List Char := (Pass.run {} cs).finish

end Letterbox.Html
