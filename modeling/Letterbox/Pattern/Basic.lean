import Letterbox.Pattern.Class

/-! # Patterns

Regular patterns with assertions about the place they stand at, and where they occur in a text. A
pattern is not tried from one place after the other: it maps the set of places at which it may begin
to the set of places at which it may then end, so the work grows with the length of the text and
never with the number of ways to match it. -/

namespace Letterbox.Pattern

set_option autoImplicit false

structure Spot where
  before : Option Char
  after : Option Char
deriving DecidableEq, Repr

def spotsFrom (before : Option Char) : List Char → List Spot
  | [] => [⟨before, none⟩]
  | c :: rest => ⟨before, some c⟩ :: spotsFrom (some c) rest

def spotsOf (text : List Char) : List Spot := spotsFrom none text

inductive Look where
  | start
  | stop
  | lineStart
  | lineStop
  | anyLineStart
  | anyLineStop
  | wordEdge (ascii : Bool)
  | noWordEdge (ascii : Bool)
  | wordStart (ascii : Bool)
  | wordStop (ascii : Bool)
  | noWordBefore (ascii : Bool)
  | noWordAfter (ascii : Bool)
deriving DecidableEq, Repr

namespace Look

def isWord (ascii : Bool) (c : Option Char) : Bool :=
  c.any fun c => if ascii then Class.asciiWord.mem c else Property.word.holds c

def holds (s : Spot) : Look → Bool
  | start => s.before.isNone
  | stop => s.after.isNone
  | lineStart => s.before.isNone || s.before == some '\n'
  | lineStop => s.after.isNone || s.after == some '\n'
  | anyLineStart =>
    s.before.isNone || s.before == some '\n' || (s.before == some '\r' && s.after != some '\n')
  | anyLineStop =>
    s.after.isNone || s.after == some '\r' || (s.after == some '\n' && s.before != some '\r')
  | wordEdge a => isWord a s.before != isWord a s.after
  | noWordEdge a => isWord a s.before == isWord a s.after
  | wordStart a => !isWord a s.before && isWord a s.after
  | wordStop a => isWord a s.before && !isWord a s.after
  | noWordBefore a => !isWord a s.before
  | noWordAfter a => !isWord a s.after

end Look

end Pattern

inductive Pattern where
  | empty
  | look (l : Pattern.Look)
  | one (c : Pattern.Class)
  | seq (p q : Pattern)
  | alt (p q : Pattern)
  | star (p : Pattern)
deriving DecidableEq, Repr

namespace Pattern

abbrev Marks := List Bool

def Marks.union (a b : Marks) : Marks := List.zipWith (· || ·) a b

/-- The marked places behind which a character of the class stands, each moved behind that
character. -/
def advance (c : Class) (spots : List Spot) (marks : Marks) : Marks :=
  false :: (List.zipWith (fun s m => m && s.after.any fun a => c.mem a) spots marks).dropLast

/-- The marked places, and those reached from them over characters of the class alone. -/
def spread (c : Class) (reached : Bool) : List Spot → Marks → Marks
  | s :: spots, m :: marks =>
    let here := m || reached
    here :: spread c (here && s.after.any fun a => c.mem a) spots marks
  | _, _ => []

/-- Adds what `f` reaches until nothing is added, at most `fuel` times. -/
def saturate (f : Marks → Marks) : (fuel : Nat) → Marks → Marks
  | 0, marks => marks
  | fuel + 1, marks =>
    let more := marks.union (f marks)
    if more == marks then marks else saturate f fuel more

def ends (spots : List Spot) : Pattern → Marks → Marks
  | empty, marks => marks
  | look l, marks => List.zipWith (fun s m => m && l.holds s) spots marks
  | one c, marks => advance c spots marks
  | seq p q, marks => ends spots q (ends spots p marks)
  | alt p q, marks => (ends spots p marks).union (ends spots q marks)
  | star (one c), marks => spread c false spots marks
  | star p, marks => saturate (ends spots p) spots.length marks

def occursIn (p : Pattern) (text : List Char) : Bool :=
  let spots := spotsOf text
  (p.ends spots (spots.map fun _ => true)).any id

def times (p : Pattern) : Nat → Pattern
  | 0 => empty
  | 1 => p
  | n + 1 => seq p (times p n)

def optional (p : Pattern) : Pattern := alt p empty

def repeated (p : Pattern) (least : Nat) : (most : Option Nat) → Pattern
  | none => if least = 0 then star p else seq (times p least) (star p)
  | some most =>
    if most = least then times p least
    else if least = 0 then times p.optional most
    else seq (times p least) (times p.optional (most - least))

end Pattern

end Letterbox
