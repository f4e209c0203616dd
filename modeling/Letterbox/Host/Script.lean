import Letterbox.Text.Blank

/-! # Scripts

The syntax of the small command language that a host offers to programs of its own: words with
quotes and parameters, redirections, pipes, and lists of commands. Loops, functions and
substitutions of whole commands are not supplied. -/

namespace Letterbox.Host

set_option autoImplicit false

open Text

/-- A part of a word. What stands in quotes is not divided into fields. -/
inductive Piece where
  | text (s : String) (quoted : Bool)
  | parameter (name : String) (quoted : Bool)
deriving DecidableEq, Repr

abbrev Word := List Piece

inductive Redirection where
  | write (target : Word)
  | append (target : Word)
  | read (source : Word)
  | complaints (target : Word)
  | asComplaints
  | asOutput
deriving DecidableEq, Repr

inductive Command where
  | nothing
  | simple (assignments : List (String × Word)) (words : List Word)
      (redirections : List Redirection)
  | invert (c : Command)
  | pipe (source sink : Command)
  | both (first second : Command)
  | either (first second : Command)
  | sequence (first second : Command)
  | choice (condition yes no : Command)
  | apart (c : Command)
  | aside (c : Command)
deriving Repr

namespace Script

inductive Token where
  | word (w : Word)
  | mark (s : String)
deriving DecidableEq, Repr

/-! ## Words -/

def isNameStart (c : Char) : Bool := c.isAlpha || c = '_'

def isNameChar (c : Char) : Bool := c.isAlphanum || c = '_'

def isName (cs : List Char) : Bool := (cs.head?.any isNameStart) && cs.all isNameChar

def endsWord (c : Char) : Bool := " \t\n;&|<>()".toList.contains c

/-- The name of a parameter behind its dollar sign, and what follows; none if the sign stands for
itself. -/
def parameter? : List Char → Option (String × List Char)
  | '\x7b' :: rest => (cutAt '\x7d' rest).map fun (name, after) => (String.ofList name, after)
  | c :: rest =>
    if isNameStart c then
      some (String.ofList (c :: rest.takeWhile isNameChar), rest.dropWhile isNameChar)
    else if c.isDigit || "@*#?$!-".toList.contains c then some (c.toString, rest)
    else none
  | [] => none

def isEscapable (c : Char) : Bool := "$`\"\\".toList.contains c

def pieces? : (fuel : Nat) → (quoted : Bool) → List Char → Option (Word × List Char)
  | 0, _, _ => none
  | fuel + 1, quoted, cs =>
    let andThen := fun (p : Piece) (quoted : Bool) rest =>
      (pieces? fuel quoted rest).map fun (w, after) => (p :: w, after)
    match cs with
    | [] => if quoted then none else some ([], [])
    | '"' :: rest => andThen (.text "" true) (!quoted) rest
    | '`' :: _ => none
    | '$' :: rest => match rest.head? with
      | some '(' => none
      | _ => match parameter? rest with
        | some (name, rest) => andThen (.parameter name quoted) quoted rest
        | none => andThen (.text "$" quoted) quoted rest
    | '\\' :: '\n' :: rest => pieces? fuel quoted rest
    | '\\' :: c :: rest =>
      if quoted && !isEscapable c then andThen (.text (String.ofList ['\\', c]) true) true rest
      else andThen (.text c.toString true) quoted rest
    | '\'' :: rest =>
      if quoted then andThen (.text "'" true) true rest
      else match cutAt '\'' rest with
        | some (body, rest) => andThen (.text (String.ofList body) true) false rest
        | none => none
    | c :: rest =>
      if !quoted && endsWord c then some ([], c :: rest)
      else andThen (.text c.toString quoted) quoted rest

def isDescriptor (w : Word) (rest : List Char) : Bool :=
  w = [.text "2" false] && (rest.head? = some '>')

def tokens? : (fuel : Nat) → List Char → Option (List Token)
  | 0, _ => none
  | fuel + 1, cs =>
    match cs with
    | [] => some []
    | ' ' :: rest | '\t' :: rest => tokens? fuel rest
    | '#' :: rest => tokens? fuel (rest.dropWhile (· ≠ '\n'))
    | '&' :: '&' :: rest => (tokens? fuel rest).map (.mark "&&" :: ·)
    | '|' :: '|' :: rest => (tokens? fuel rest).map (.mark "||" :: ·)
    | '>' :: '>' :: rest => (tokens? fuel rest).map (.mark ">>" :: ·)
    | '\n' :: rest => (tokens? fuel rest).map (.mark "\n" :: ·)
    | c :: rest =>
      if endsWord c then (tokens? fuel rest).map (.mark c.toString :: ·)
      else match pieces? fuel false cs with
        | some (w, rest) =>
          (tokens? fuel rest).map ((if isDescriptor w rest then .mark "2" else .word w) :: ·)
        | none => none

/-! ## Commands -/

def plain? (w : Word) : Option String :=
  w.foldl (fun s p => match s, p with
    | some s, .text t false => some (s ++ t)
    | _, _ => none) (some "")

def isReserved (t : Token) (s : String) : Bool :=
  match t with
  | .word w => plain? w = some s
  | .mark _ => false

def assignment? (w : Word) : Option (String × Word) :=
  let front := w.takeWhile fun
    | .text t false => t ≠ "="
    | _ => false
  match plain? front, w.drop front.length with
  | some name, .text "=" false :: value => if isName name.toList then some (name, value) else none
  | _, _ => none

def redirection? : List Token → Option (Redirection × List Token)
  | .mark ">" :: .word w :: rest => some (.write w, rest)
  | .mark ">>" :: .word w :: rest => some (.append w, rest)
  | .mark "<" :: .word w :: rest => some (.read w, rest)
  | .mark "2" :: .mark ">" :: .word w :: rest | .mark "2" :: .mark ">>" :: .word w :: rest =>
    some (.complaints w, rest)
  | .mark ">" :: .mark "&" :: .word [.text "2" false] :: rest => some (.asComplaints, rest)
  | .mark "2" :: .mark ">" :: .mark "&" :: .word [.text "1" false] :: rest => some (.asOutput, rest)
  | _ => none

def simple : (fuel : Nat) → List Token → List Word × List Redirection × List Token
  | 0, ts => ([], [], ts)
  | fuel + 1, ts =>
    match redirection? ts with
    | some (r, rest) => let (ws, rs, rest) := simple fuel rest; (ws, r :: rs, rest)
    | none => match ts with
      | .word w :: rest => let (ws, rs, rest) := simple fuel rest; (w :: ws, rs, rest)
      | _ => ([], [], ts)

def closers : List String := ["then", "elif", "else", "fi", "\x7d"]

inductive Level where
  | list
  | chain
  | pipeline
  | single
  | branches

def skipLineEnds (ts : List Token) : List Token := ts.dropWhile (· = .mark "\n")

def filled? (r : Option (Command × List Token)) : Option (Command × List Token) :=
  r.filter fun
    | (.nothing, _) => false
    | _ => true

def parse? : (fuel : Nat) → Level → List Token → Option (Command × List Token)
  | 0, _, _ => none
  | fuel + 1, .list, ts => do
    let ts := skipLineEnds ts
    match ts with
    | [] | .mark ")" :: _ => return (.nothing, ts)
    | t :: _ =>
      if closers.any (isReserved t) then return (.nothing, ts)
      let (c, ts) ← parse? fuel .chain ts
      match ts with
      | .mark ";" :: rest | .mark "\n" :: rest =>
        let (d, ts) ← parse? fuel .list rest
        return (.sequence c d, ts)
      | .mark "&" :: rest =>
        let (d, ts) ← parse? fuel .list rest
        return (.sequence (.aside c) d, ts)
      | _ => return (c, ts)
  | fuel + 1, .chain, ts => do
    let (c, ts) ← parse? fuel .pipeline ts
    chainFrom fuel c ts
  | fuel + 1, .pipeline, ts => do
    match ts with
    | t :: rest =>
      if isReserved t "!" then
        if rest.head?.any (isReserved · "!") then none
        let (c, ts) ← parse? fuel .pipeline rest
        return (.invert c, ts)
      let (c, ts) ← parse? fuel .single ts
      match ts with
      | .mark "|" :: rest =>
        let (d, ts) ← parse? fuel .pipeline (skipLineEnds rest)
        return (.pipe c d, ts)
      | _ => return (c, ts)
    | [] => none
  | fuel + 1, .single, ts => do
    match ts with
    | .mark "(" :: rest =>
      let (c, ts) ← filled? (parse? fuel .list rest)
      match ts with
      | .mark ")" :: rest => return (.apart c, rest)
      | _ => none
    | t :: rest =>
      if isReserved t "\x7b" then
        let (c, ts) ← filled? (parse? fuel .list rest)
        match ts with
        | t :: rest => if isReserved t "\x7d" then return (c, rest) else none
        | [] => none
      else if isReserved t "if" then
        let (condition, ts) ← filled? (parse? fuel .list rest)
        let (choice, ts) ← parse? fuel .branches ts
        match choice with
        | .choice _ yes no => return (.choice condition yes no, ts)
        | _ => none
      else
        let (ws, rs, after) := simple fuel ts
        if ws.isEmpty && rs.isEmpty then none
        let assignments := (ws.map assignment?).takeWhile (·.isSome)
        return (.simple (assignments.filterMap id) (ws.drop assignments.length) rs, after)
    | [] => none
  | fuel + 1, .branches, ts => do
    match ts with
    | t :: rest =>
      if !isReserved t "then" then none
      let (yes, ts) ← filled? (parse? fuel .list rest)
      match ts with
      | t :: rest =>
        if isReserved t "fi" then return (.choice .nothing yes .nothing, rest)
        else if isReserved t "else" then
          let (no, ts) ← filled? (parse? fuel .list rest)
          match ts with
          | t :: rest => if isReserved t "fi" then return (.choice .nothing yes no, rest) else none
          | [] => none
        else if isReserved t "elif" then
          let (condition, ts) ← filled? (parse? fuel .list rest)
          let (choice, ts) ← parse? fuel .branches ts
          match choice with
          | .choice _ y n => return (.choice .nothing yes (.choice condition y n), ts)
          | _ => none
        else none
      | [] => none
    | [] => none
where
  chainFrom : (fuel : Nat) → Command → List Token → Option (Command × List Token)
    | 0, _, _ => none
    | fuel + 1, c, .mark "&&" :: rest => do
      let (d, ts) ← parse? fuel .pipeline (skipLineEnds rest)
      chainFrom fuel (.both c d) ts
    | fuel + 1, c, .mark "||" :: rest => do
      let (d, ts) ← parse? fuel .pipeline (skipLineEnds rest)
      chainFrom fuel (.either c d) ts
    | _ + 1, c, ts => some (c, ts)

def ofText? (text : String) : Option Command := do
  let cs := text.toList
  let ts ← tokens? (cs.length + 2) cs
  match ← parse? (8 * ts.length + 8) .list ts with
  | (c, []) => return c
  | _ => none

end Script

end Letterbox.Host
