/-! # Blank characters

The characters that separate words, and the cuts made at them. Blank means white space in the sense
of Unicode, so a no-break space is blank too; the narrower class of the mail grammar is not supplied
here. -/

namespace Letterbox.Text

set_option autoImplicit false

def isBlank (c : Char) : Bool :=
  let n := c.toNat
  (9 ≤ n && n ≤ 13) || n == 0x20 || n == 0x85 || n == 0xA0 || n == 0x1680 ||
    (0x2000 ≤ n && n ≤ 0x200A) || n == 0x2028 || n == 0x2029 || n == 0x202F || n == 0x205F ||
    n == 0x3000

def skipBlanks (cs : List Char) : List Char := cs.dropWhile isBlank

def dropBlanksEnd (cs : List Char) : List Char := (cs.reverse.dropWhile isBlank).reverse

def trimChars (cs : List Char) : List Char := dropBlanksEnd (skipBlanks cs)

def trim (s : String) : String := String.ofList (trimChars s.toList)

def trimEnd (s : String) : String := String.ofList (dropBlanksEnd s.toList)

def blankText (s : String) : Bool := s.toList.all isBlank

def pieces (p : Char → Bool) : List Char → List (List Char)
  | [] => []
  | c :: rest =>
    if p c then pieces p rest
    else match rest with
      | [] => [[c]]
      | d :: _ =>
        if p d then [c] :: pieces p rest
        else match pieces p rest with
          | [] => [[c]]
          | w :: ws => (c :: w) :: ws

def words (s : String) : List String := (pieces isBlank s.toList).map String.ofList

def cutAt (sep : Char) : List Char → Option (List Char × List Char)
  | [] => none
  | c :: rest =>
    if c = sep then some ([], rest)
    else (cutAt sep rest).map fun (before, after) => (c :: before, after)

/-- The pieces between the occurrences of `sep`: one more than there are occurrences. -/
def splitAt (sep : Char) : List Char → List (List Char)
  | [] => [[]]
  | c :: rest =>
    if c = sep then [] :: splitAt sep rest
    else match splitAt sep rest with
      | [] => [[c]]
      | w :: ws => (c :: w) :: ws

def foldCase (c : Char) : Char := if 'A' ≤ c ∧ c ≤ 'Z' then Char.ofNat (c.toNat + 32) else c

def sameIgnoringCase (s t : String) : Bool := s.toList.map foldCase == t.toList.map foldCase

end Letterbox.Text
