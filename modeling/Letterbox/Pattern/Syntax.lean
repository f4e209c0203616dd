import Letterbox.Pattern.Basic
import Letterbox.Text.Numeral
import Letterbox.Text.Search

/-! # The notation of patterns

Reading of a pattern from its text. Flags in force change what the parts behind them mean, up to the
end of the group they stand in. A text that is no pattern, or a pattern that would become too large,
is refused as a whole; why is not told. -/

namespace Letterbox.Pattern

set_option autoImplicit false

open Text

/-! ## Flags -/

structure Flags where
  insensitive : Bool := false
  multiline : Bool := false
  dotAll : Bool := false
  spaced : Bool := false
  crlf : Bool := false
  unicode : Bool := true
deriving DecidableEq, Repr

/-- Sets one flag. Which repetition is taken first does not matter to whether a pattern occurs, so
`U` changes nothing. -/
def Flags.set? (f : Flags) (c : Char) (on : Bool) : Option Flags :=
  match c with
  | 'i' => some { f with insensitive := on }
  | 'm' => some { f with multiline := on }
  | 's' => some { f with dotAll := on }
  | 'x' => some { f with spaced := on }
  | 'R' => some { f with crlf := on }
  | 'u' => some { f with unicode := on }
  | 'U' => some f
  | _ => none

/-- Reads flags up to a colon or a closing bracket, which is left. Answers the flags that were
named. A flag may be named once, and a minus, behind which flags are turned off, must be followed by
one. -/
def readFlags (on : Bool) (named : List Char) (f : Flags) :
    List Char → Option (Flags × List Char × List Char)
  | [] => none
  | c :: rest =>
    if c = ':' ∨ c = ')' then
      if named.getLast? = some '-' then none else some (f, named, c :: rest)
    else if named.contains c then none
    else if c = '-' then readFlags false (named ++ [c]) f rest
    else match f.set? c on with
      | none => none
      | some f => readFlags on (named ++ [c]) f rest

def skipSpaced (inComment : Bool) : List Char → List Char
  | [] => []
  | c :: rest =>
    if inComment then skipSpaced (c != '\n') rest
    else if c = '#' then skipSpaced true rest
    else if isBlank c then skipSpaced false rest
    else c :: rest

def Flags.skip (f : Flags) (cs : List Char) : List Char :=
  if f.spaced then skipSpaced false cs else cs

/-! ## Escapes -/

inductive Primitive where
  | literal (c : Char) (byte : Bool)
  | shorthand (p : Property) (ascii : Class) (negated : Bool)
  /-- A property has no narrower meaning within ASCII. -/
  | property (p : Property) (negated : Bool)
  | look (unicode ascii : Look)
deriving DecidableEq, Repr

def metaChars : List Char :=
  ['\\', '.', '+', '*', '?', '(', ')', '|', '[', ']', '{', '}', '^', '$', '#', '&', '-', '~']

def isEscapable (c : Char) : Bool :=
  c.toNat < 128 && !c.isAlphanum && c ≠ '<' && c ≠ '>'

def charOfDigits? (ds : List Nat) : Option Char :=
  let n := ds.foldl (fun n d => n * 16 + d) 0
  if n.isValidChar then some (Char.ofNat n) else none

def readHexFixed (f : Flags) (ds : List Nat) : (count : Nat) → List Char → Option (Char × List Char)
  | 0, cs => (charOfDigits? ds).map (·, cs)
  | n + 1, cs => match f.skip cs with
    | [] => none
    | c :: rest => match hexDigit? c with
      | none => none
      | some d => readHexFixed f (ds ++ [d]) n rest

def readHexBraced (f : Flags) (ds : List Nat) : (fuel : Nat) → List Char → Option (Char × List Char)
  | 0, _ => none
  | fuel + 1, cs => match f.skip cs with
    | [] => none
    | '}' :: rest => if ds.isEmpty then none else (charOfDigits? ds).map (·, f.skip rest)
    | c :: rest => match hexDigit? c with
      | none => none
      | some d => readHexBraced f (ds ++ [d]) fuel rest

def readHex (f : Flags) (count : Nat) (cs : List Char) : Option (Primitive × List Char) :=
  match f.skip cs with
  | '{' :: rest =>
    (readHexBraced f [] (rest.length + 1) rest).map fun (c, rest) => (.literal c false, rest)
  | cs => (readHexFixed f [] count cs).map fun (c, rest) => (.literal c (count = 2), f.skip rest)

def readName (f : Flags) (name : List Char) :
    (fuel : Nat) → List Char → Option (List Char × List Char)
  | 0, _ => none
  | fuel + 1, cs => match f.skip cs with
    | [] => none
    | '}' :: rest => some (name, rest)
    | c :: rest => readName f (name ++ [c]) fuel rest

/-- The class of a name, which may be a property with its value; with `!=` it is negated. -/
def propertyNamed? (name : List Char) (negated : Bool) : Option Primitive :=
  match cutAround ['!', '='] name with
  | some (n, v) => (Property.ofValue? n v).map (.property · (!negated))
  | none => match cutAt ':' name with
    | some (n, v) => (Property.ofValue? n v).map (.property · negated)
    | none => match cutAt '=' name with
      | some (n, v) => (Property.ofValue? n v).map (.property · negated)
      | none => (Property.ofName? name).map (.property · negated)

def readProperty (f : Flags) (negated : Bool) (cs : List Char) : Option (Primitive × List Char) :=
  match f.skip cs with
  | [] => none
  | '{' :: rest => do
    let (name, rest) ← readName f [] (rest.length + 1) rest
    return (← propertyNamed? name negated, rest)
  | c :: rest => (propertyNamed? [c] negated).map (·, f.skip rest)

def isLookNameChar (c : Char) : Bool := c.isAlpha || c = '-'

def lookNamed? (name : String) : Option Primitive :=
  match name with
  | "start" => some (.look (.wordStart false) (.wordStart true))
  | "end" => some (.look (.wordStop false) (.wordStop true))
  | "start-half" => some (.look (.noWordBefore false) (.noWordBefore true))
  | "end-half" => some (.look (.noWordAfter false) (.noWordAfter true))
  | _ => none

def readLookName (f : Flags) (name : List Char) : (fuel : Nat) → List Char → List Char × List Char
  | 0, cs => (name, cs)
  | fuel + 1, cs => match cs with
    | c :: rest =>
      if isLookNameChar c then readLookName f (name ++ [c]) fuel (f.skip rest) else (name, cs)
    | [] => (name, [])

def wordEdge : Primitive := .look (.wordEdge false) (.wordEdge true)

/-- An edge of a word; in braces it may be told which one. Braces that begin otherwise are a
count. -/
def readWordEdge (f : Flags) (cs : List Char) : Option (Primitive × List Char) :=
  match cs with
  | '{' :: rest => match f.skip rest with
    | [] => none
    | c :: more =>
      if isLookNameChar c then
        match readLookName f [] (more.length + 1) (c :: more) with
        | (name, '}' :: rest) => (lookNamed? (String.ofList name)).map (·, rest)
        | _ => none
      else some (wordEdge, cs)
  | _ => some (wordEdge, cs)

def readEscape (f : Flags) : List Char → Option (Primitive × List Char)
  | [] => none
  | c :: rest =>
    if metaChars.contains c || isEscapable c then some (.literal c false, rest)
    else match c with
      | 'x' => readHex f 2 rest
      | 'u' => readHex f 4 rest
      | 'U' => readHex f 8 rest
      | 'p' => readProperty f false rest
      | 'P' => readProperty f true rest
      | 'd' => some (.shorthand .decimal .asciiDigit false, rest)
      | 'D' => some (.shorthand .decimal .asciiDigit true, rest)
      | 's' => some (.shorthand .blank .asciiBlank false, rest)
      | 'S' => some (.shorthand .blank .asciiBlank true, rest)
      | 'w' => some (.shorthand .word .asciiWord false, rest)
      | 'W' => some (.shorthand .word .asciiWord true, rest)
      | 'a' => some (.literal (Char.ofNat 7) false, rest)
      | 'f' => some (.literal (Char.ofNat 12) false, rest)
      | 't' => some (.literal '\t' false, rest)
      | 'n' => some (.literal '\n' false, rest)
      | 'r' => some (.literal '\r' false, rest)
      | 'v' => some (.literal (Char.ofNat 11) false, rest)
      | 'A' => some (.look .start .start, rest)
      | 'z' => some (.look .stop .stop, rest)
      | 'b' => readWordEdge f rest
      | 'B' => some (.look (.noWordEdge false) (.noWordEdge true), rest)
      | '<' => some (.look (.wordStart false) (.wordStart true), rest)
      | '>' => some (.look (.wordStop false) (.wordStop true), rest)
      | _ => none

namespace Primitive

/-- A character at the end of a range. Where bytes are meant, it must be one of ASCII or be written
as a byte. -/
def char? (f : Flags) : Primitive → Option Char
  | literal c byte => if f.unicode || byte || c.toNat < 128 then some c else none
  | _ => none

def class? (f : Flags) : Primitive → Option Class
  | literal c byte => (char? f (literal c byte)).map .single
  | shorthand p ascii negated =>
    if f.unicode then some (Class.complementIf negated (.named p))
    else (Class.complementIf negated ascii).asciiOnly?
  | property p negated =>
    if f.unicode then some (Class.complementIf negated ((Class.named p).foldIf f.insensitive false))
    else none
  | look .. => none

end Primitive

/-! ## Classes in brackets -/

structure ClassFragment where
  members : Class
  depth : Nat := 0

inductive SetOperator where
  | both
  | without
  | eitherNotBoth
deriving DecidableEq, Repr

def SetOperator.apply (a b : Class) : SetOperator → Class
  | both => .inter a b
  | without => .inter a (.complement b)
  | eitherNotBoth => .union (.inter a (.complement b)) (.inter b (.complement a))

def unionOf (items : List ClassFragment) : ClassFragment :=
  match items with
  | [item] => item
  | [] => ⟨.none, 0⟩
  | _ => ⟨.unionAll (items.map (·.members)), 1 + (items.map (·.depth)).foldl max 0⟩

def operate (f : Flags) (left : Option (ClassFragment × SetOperator)) (items : List ClassFragment) :
    ClassFragment :=
  let right := unionOf items
  match left with
  | none => right
  | some (a, op) =>
    let fold := Class.foldIf f.insensitive !f.unicode
    ⟨op.apply (fold a.members) (fold right.members), 1 + max a.depth right.depth⟩

def readBracketNamed (f : Flags) (cs : List Char) : Option (Class × List Char) :=
  match cs with
  | ':' :: rest =>
    let (negated, rest) := match rest with
      | '^' :: rest => (true, rest)
      | _ => (false, rest)
    match cutAt ':' rest with
    | some (name, ']' :: rest) => (Class.bracketNamed? (String.ofList name)).map fun c =>
      (Class.complementIf negated (c.foldIf (f.insensitive && f.unicode) false), rest)
    | _ => none
  | _ => none

def readItem (f : Flags) : List Char → Option (Primitive × List Char)
  | [] => none
  | '\\' :: rest => readEscape f rest
  | c :: rest => some (.literal c false, rest)

/-- One character, escape or range. A hyphen in front of the closing bracket or of another hyphen
makes no range. -/
def readRange (f : Flags) (cs : List Char) : Option (Class × List Char) := do
  let (first, rest) ← readItem f cs
  let rest := f.skip rest
  match rest with
  | [] => none
  | '-' :: more =>
    match f.skip more with
    | [] => none
    | ']' :: _ | '-' :: _ => return (← first.class? f, rest)
    | more =>
      let (last, rest) ← readItem f more
      let a ← first.char? f
      let b ← last.char? f
      if a ≤ b then return (.range a b, rest) else none
  | _ => return (← first.class? f, rest)

def readHyphens (f : Flags) (items : List ClassFragment) :
    (fuel : Nat) → List Char → List ClassFragment × List Char
  | 0, cs => (items, cs)
  | fuel + 1, cs => match cs with
    | '-' :: rest => readHyphens f (items ++ [⟨.single '-', 0⟩]) fuel (f.skip rest)
    | _ => (items, cs)

/-- Closes a class: the other case is added before it is negated, and where bytes are meant it must
keep to ASCII. -/
def closeClass (f : Flags) (negated : Bool) (c : ClassFragment) : Option ClassFragment :=
  let closed := (c.members.foldIf f.insensitive !f.unicode).complementIf negated
  if f.unicode then some ⟨closed, c.depth + 1⟩ else closed.asciiOnly?.map (⟨·, c.depth + 1⟩)

mutual

def readClass (f : Flags) : (fuel : Nat) → List Char → Option (ClassFragment × List Char)
  | 0, _ => none
  | fuel + 1, cs => do
    let (negated, cs) := match f.skip cs with
      | '^' :: rest => (true, f.skip rest)
      | cs => (false, cs)
    let (items, cs) := readHyphens f [] (cs.length + 1) cs
    match items, cs with
    | [], ']' :: rest => readClassItems f negated none [⟨.single ']', 0⟩] fuel rest
    | _, _ => readClassItems f negated none items fuel cs

def readClassItems (f : Flags) (negated : Bool) (left : Option (ClassFragment × SetOperator))
    (items : List ClassFragment) : (fuel : Nat) → List Char → Option (ClassFragment × List Char)
  | 0, _ => none
  | fuel + 1, cs => match f.skip cs with
    | [] => none
    | ']' :: rest => (closeClass f negated (operate f left items)).map (·, rest)
    | '&' :: '&' :: rest =>
      readClassItems f negated (some (operate f left items, .both)) [] fuel rest
    | '-' :: '-' :: rest =>
      readClassItems f negated (some (operate f left items, .without)) [] fuel rest
    | '~' :: '~' :: rest =>
      readClassItems f negated (some (operate f left items, .eitherNotBoth)) [] fuel rest
    | '[' :: rest => match readBracketNamed f rest with
      | some (c, rest) => readClassItems f negated left (items ++ [⟨c, 0⟩]) fuel rest
      | none => do
        let (c, rest) ← readClass f fuel rest
        readClassItems f negated left (items ++ [c]) fuel rest
    | cs => do
      let (c, rest) ← readRange f cs
      readClassItems f negated left (items ++ [⟨c, 0⟩]) fuel rest

end

/-! ## Patterns -/

structure Fragment where
  pattern : Pattern
  size : Nat
  depth : Nat := 0

def sizeLimit : Nat := 320000

def depthLimit : Nat := 250

def Class.cost : Class → Nat
  | range _ last => if last.toNat < 128 then 1 else 4
  | none => 1
  | named p => if p = .ascii then 1 else 500
  | union a b => cost a + cost b
  | inter a b => max (cost a) (cost b)
  | complement _ => 10
  | anyCase _ a => 2 * cost a

def Fragment.ofClass (c : Class) (depth : Nat) : Fragment := ⟨.one c, c.cost, depth⟩

def Fragment.ofLook (l : Look) : Fragment := ⟨.look l, 1, 0⟩

structure Scope where
  flags : Flags := {}
  names : List (List Char) := []

def nothing : Fragment := ⟨.empty, 1, 0⟩

def totalSize : List Fragment → Nat
  | [] => 0
  | f :: fs => f.size + totalSize fs

def enclosingDepth : List Fragment → Nat
  | [] => 1
  | f :: fs => max (1 + f.depth) (enclosingDepth fs)

/-- Pieces one after the other; `none` stands for a change of flags. -/
def sequence (pieces : List (Option Fragment)) : Fragment :=
  match pieces with
  | [] => nothing
  | [piece] => piece.getD nothing
  | _ =>
    let fs := pieces.map (·.getD nothing)
    ⟨(fs.map (·.pattern)).foldr .seq .empty, totalSize fs, enclosingDepth fs⟩

def alternatives (first : Fragment) (others : List Fragment) : Fragment :=
  if others.isEmpty then first
  else
    ⟨others.foldl (fun p q => .alt p q.pattern) first.pattern, 1 + totalSize (first :: others),
      enclosingDepth (first :: others)⟩

def repeatLast (least : Nat) (most : Option Nat) :
    List (Option Fragment) → Option (List (Option Fragment))
  | some p :: before =>
    let size := 1 + (p.size + 1) * max 1 (most.getD (least + 1))
    if sizeLimit < size then none
    else some (some ⟨p.pattern.repeated least most, size, p.depth + 1⟩ :: before)
  | _ => none

def skipLazy : List Char → List Char
  | '?' :: rest => rest
  | cs => cs

/-- A number of a repetition, if there is one; it must fit 32 bits. -/
def readDecimal (f : Flags) (digits : List Char) :
    (fuel : Nat) → List Char → Option (Option Nat × List Char)
  | 0, _ => none
  | fuel + 1, cs => match cs with
    | c :: rest =>
      if '0' ≤ c ∧ c ≤ '9' then readDecimal f (digits ++ [c]) fuel (f.skip rest)
      else if digits.isEmpty then some (none, cs)
      else (numeral? 0xffffffff digits).map fun n => (some n, skipBlanks cs)
    | [] => none

def readBounds (f : Flags) (cs : List Char) : Option ((Nat × Option Nat) × List Char) := do
  let (least, rest) ← readDecimal f [] (cs.length + 1) (skipBlanks cs)
  let rest := skipBlanks rest
  match rest with
  | '}' :: rest =>
    let n ← least
    return ((n, some n), rest)
  | ',' :: rest =>
    let n ← least
    match f.skip rest with
    | '}' :: rest => return ((n, none), rest)
    | more =>
      let (most, rest) ← readDecimal f [] (more.length + 1) (skipBlanks more)
      let m ← most
      match rest with
      | '}' :: rest => if n ≤ m then return ((n, some m), rest) else none
      | _ => none
  | _ => none

def isNameChar (first : Bool) (c : Char) : Bool :=
  c = '_' || Property.letter.holds c ||
    (!first && (c = '.' || c = '[' || c = ']' || Property.number.holds c))

def readGroupName (name : List Char) : List Char → Option (List Char × List Char)
  | [] => none
  | '>' :: rest => if name.isEmpty then none else some (name, rest)
  | c :: rest => if isNameChar name.isEmpty c then readGroupName (name ++ [c]) rest else none

def dot (f : Flags) : Option Class :=
  if f.unicode then
    some (if f.dotAll then .named .any
      else if f.crlf then .complement (.ofRanges [('\n', '\n'), ('\r', '\r')])
      else .complement (.single '\n'))
  else none

def lineStart (f : Flags) : Look :=
  if f.multiline then (if f.crlf then .anyLineStart else .lineStart) else .start

def lineStop (f : Flags) : Look :=
  if f.multiline then (if f.crlf then .anyLineStop else .lineStop) else .stop

def Primitive.fragment? (f : Flags) : Primitive → Option Fragment
  | literal c byte =>
    if !f.unicode && byte && 128 ≤ c.toNat then none
    else some (.ofClass ((Class.single c).foldIf f.insensitive !f.unicode) 0)
  | look unicode ascii => some (.ofLook (if f.unicode then unicode else ascii))
  | p => (p.class? f).map (Fragment.ofClass · 0)

inductive Opening where
  | flags (f : Flags)
  | group (flags : Flags) (names : List (List Char))

/-- Reads what follows an opening bracket. Groups that look around are refused. -/
def readOpening (s : Scope) (cs : List Char) : Option (Opening × List Char) := do
  let named := fun (rest : List Char) => do
    let (name, rest) ← readGroupName [] rest
    if s.names.contains name then none else some (Opening.group s.flags (name :: s.names), rest)
  match s.flags.skip cs with
  | '?' :: '=' :: _ | '?' :: '!' :: _ | '?' :: '<' :: '=' :: _ | '?' :: '<' :: '!' :: _ => none
  | '?' :: 'P' :: '<' :: rest => named rest
  | '?' :: '<' :: rest => named rest
  | '?' :: rest =>
    let (f, given, rest) ← readFlags true [] s.flags rest
    match rest with
    | ')' :: rest => if given.isEmpty then none else some (.flags f, rest)
    | ':' :: rest => some (.group f s.names, rest)
    | _ => none
  | rest => some (.group s.flags s.names, rest)

mutual

def readAlternatives (s : Scope) : (fuel : Nat) → List Char → Option (Fragment × Scope × List Char)
  | 0, _ => none
  | fuel + 1, cs => do
    let (first, s, cs) ← readPieces s [] fuel cs
    let (others, s, cs) ← readOthers s fuel cs
    return (alternatives first others, s, cs)

def readOthers (s : Scope) : (fuel : Nat) → List Char → Option (List Fragment × Scope × List Char)
  | 0, _ => none
  | fuel + 1, cs => match cs with
    | '|' :: cs => do
      let (p, s, cs) ← readPieces s [] fuel cs
      let (others, s, cs) ← readOthers s fuel cs
      return (p :: others, s, cs)
    | _ => some ([], s, cs)

/-- Reads pieces that follow one another; `done` are those already read, the last one first. -/
def readPieces (s : Scope) (done : List (Option Fragment)) :
    (fuel : Nat) → List Char → Option (Fragment × Scope × List Char)
  | 0, _ => none
  | fuel + 1, cs => match s.flags.skip cs with
    | [] => some (sequence done.reverse, s, [])
    | ')' :: rest => some (sequence done.reverse, s, ')' :: rest)
    | '|' :: rest => some (sequence done.reverse, s, '|' :: rest)
    | '*' :: rest => do readPieces s (← repeatLast 0 none done) fuel (skipLazy rest)
    | '+' :: rest => do readPieces s (← repeatLast 1 none done) fuel (skipLazy rest)
    | '?' :: rest => do readPieces s (← repeatLast 0 (some 1) done) fuel (skipLazy rest)
    | '{' :: rest => do
      let ((least, most), rest) ← readBounds s.flags rest
      readPieces s (← repeatLast least most done) fuel (skipLazy (s.flags.skip rest))
    | '[' :: rest => do
      let (c, rest) ← readClass s.flags fuel rest
      readPieces s (some (.ofClass c.members c.depth) :: done) fuel rest
    | '(' :: rest => do
      match ← readOpening s rest with
      | (.flags flags, rest) => readPieces { s with flags } (none :: done) fuel rest
      | (.group flags names, rest) =>
        let (p, inner, rest) ← readAlternatives { flags, names } fuel rest
        match rest with
        | ')' :: rest =>
          readPieces { s with names := inner.names } (some { p with depth := p.depth + 1 } :: done)
            fuel rest
        | _ => none
    | '.' :: rest => do readPieces s (some (.ofClass (← dot s.flags) 0) :: done) fuel rest
    | '^' :: rest => readPieces s (some (.ofLook (lineStart s.flags)) :: done) fuel rest
    | '$' :: rest => readPieces s (some (.ofLook (lineStop s.flags)) :: done) fuel rest
    | cs => do
      let (p, rest) ← readItem s.flags cs
      readPieces s (some (← p.fragment? s.flags) :: done) fuel rest

end

def ofChars? (cs : List Char) : Option Pattern :=
  match readAlternatives {} (4 * cs.length + 8) cs with
  | some (p, _, []) => if p.size ≤ sizeLimit ∧ p.depth ≤ depthLimit then some p.pattern else none
  | _ => none

def ofText? (s : String) : Option Pattern := ofChars? s.toList

end Letterbox.Pattern
