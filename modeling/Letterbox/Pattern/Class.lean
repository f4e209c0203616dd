import Letterbox.Text.Blank
import Letterbox.Unicode.CaseFolding
import Letterbox.Unicode.Category
import Letterbox.Unicode.Script
import Letterbox.Unicode.Word

/-! # Classes of characters

The classes that a pattern can name, and how they are put together. -/

namespace Letterbox.Pattern

set_option autoImplicit false

inductive Property where
  | any
  | ascii
  | blank
  | word
  | letter
  | upper
  | lower
  | mark
  | number
  | decimal
  | punctuation
  | symbol
  | separator
  | latin
  | greek
  | cyrillic
  | hebrew
  | arabic
  | han
  | hiragana
  | katakana
deriving DecidableEq, Repr

namespace Property

def holds (c : Char) : Property → Bool
  | any => true
  | ascii => c.toNat < 128
  | blank => Text.isBlank c
  | word => Unicode.word.contains c
  | letter => Unicode.letter.contains c
  | upper => Unicode.upper.contains c
  | lower => Unicode.lower.contains c
  | mark => Unicode.mark.contains c
  | number => Unicode.number.contains c
  | decimal => Unicode.decimal.contains c
  | punctuation => Unicode.punctuation.contains c
  | symbol => Unicode.symbol.contains c
  | separator => Unicode.separator.contains c
  | latin => Unicode.latin.contains c
  | greek => Unicode.greek.contains c
  | cyrillic => Unicode.cyrillic.contains c
  | hebrew => Unicode.hebrew.contains c
  | arabic => Unicode.arabic.contains c
  | han => Unicode.han.contains c
  | hiragana => Unicode.hiragana.contains c
  | katakana => Unicode.katakana.contains c

def categories : List (String × Property) :=
  [("l", letter), ("letter", letter), ("lu", upper), ("uppercaseletter", upper), ("ll", lower),
   ("lowercaseletter", lower), ("m", mark), ("mark", mark), ("combiningmark", mark), ("n", number),
   ("number", number), ("nd", decimal), ("decimalnumber", decimal), ("digit", decimal),
   ("p", punctuation), ("punctuation", punctuation), ("punct", punctuation), ("s", symbol),
   ("symbol", symbol), ("z", separator), ("separator", separator), ("any", any), ("ascii", ascii)]

def scripts : List (String × Property) :=
  [("latin", latin), ("latn", latin), ("greek", greek), ("grek", greek), ("cyrillic", cyrillic),
   ("cyrl", cyrillic), ("hebrew", hebrew), ("hebr", hebrew), ("arabic", arabic), ("arab", arabic),
   ("han", han), ("hani", han), ("hiragana", hiragana), ("hira", hiragana), ("katakana", katakana),
   ("kana", katakana)]

def whiteSpace : List (String × Property) :=
  [("whitespace", blank), ("space", blank), ("wspace", blank)]

def plainName (cs : List Char) : String :=
  let cs := (cs.filter fun c => !(c = ' ' || c = '_' || c = '-')).map Text.foldCase
  String.ofList <| match cs with
    | 'i' :: 's' :: rest => if rest.isEmpty then cs else rest
    | _ => cs

def ofName? (cs : List Char) : Option Property :=
  (whiteSpace ++ categories ++ scripts).lookup (plainName cs)

def ofValue? (name value : List Char) : Option Property :=
  if ["generalcategory", "gc"].contains (plainName name) then categories.lookup (plainName value)
  else if ["script", "sc", "scriptextensions", "scx"].contains (plainName name) then
    scripts.lookup (plainName value)
  else none

end Property

inductive Class where
  | range (first last : Char)
  | named (p : Property)
  | none
  | union (a b : Class)
  | inter (a b : Class)
  | complement (a : Class)
  /-- With all characters that differ from a member only in case; where `ascii` is set, only in the
  case of an ASCII letter. -/
  | anyCase (ascii : Bool) (a : Class)
deriving DecidableEq, Repr

namespace Class

def mem : Class → Char → Bool
  | range first last, c => first ≤ c && c ≤ last
  | named p, c => p.holds c
  | none, _ => false
  | union a b, c => mem a c || mem b c
  | inter a b, c => mem a c && mem b c
  | complement a, c => !mem a c
  | anyCase ascii a, c =>
    (if ascii then Unicode.asciiVariants c else Unicode.variants c).any (mem a)

def single (c : Char) : Class := range c c

def unionAll (l : List Class) : Class := l.foldr union none

def ofRanges (l : List (Char × Char)) : Class := unionAll (l.map fun (a, b) => range a b)

def foldIf (insensitive ascii : Bool) (a : Class) : Class :=
  if insensitive then anyCase ascii a else a

def complementIf (negated : Bool) (a : Class) : Class := if negated then complement a else a

def asciiDigit : Class := range '0' '9'

def asciiWord : Class := ofRanges [('0', '9'), ('A', 'Z'), ('_', '_'), ('a', 'z')]

def asciiBlank : Class := ofRanges [('\t', '\r'), (' ', ' ')]

/-- The classes that stand between `[:` and `:]`; all lie within ASCII. -/
def bracketNamed? (name : String) : Option Class :=
  match name with
  | "alnum" => some (ofRanges [('0', '9'), ('A', 'Z'), ('a', 'z')])
  | "alpha" => some (ofRanges [('A', 'Z'), ('a', 'z')])
  | "ascii" => some (range (Char.ofNat 0) (Char.ofNat 127))
  | "blank" => some (ofRanges [('\t', '\t'), (' ', ' ')])
  | "cntrl" => some (ofRanges [(Char.ofNat 0, Char.ofNat 31), (Char.ofNat 127, Char.ofNat 127)])
  | "digit" => some asciiDigit
  | "graph" => some (range '!' '~')
  | "lower" => some (range 'a' 'z')
  | "print" => some (range ' ' '~')
  | "punct" => some (ofRanges [('!', '/'), (':', '@'), ('[', '`'), ('{', '~')])
  | "space" => some asciiBlank
  | "upper" => some (range 'A' 'Z')
  | "word" => some asciiWord
  | "xdigit" => some (ofRanges [('0', '9'), ('A', 'F'), ('a', 'f')])
  | _ => Option.none

/-- A class of bytes, which must hold only those of ASCII. -/
def asciiOnly? (a : Class) : Option Class :=
  if (List.range 128).any fun n => a.mem (Char.ofNat (n + 128)) then Option.none
  else some (inter a (range (Char.ofNat 0) (Char.ofNat 127)))

end Class

end Letterbox.Pattern
