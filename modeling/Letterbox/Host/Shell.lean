import Letterbox.Host.Ending
import Letterbox.Host.Script
import Letterbox.Pattern.Syntax
import Letterbox.Store.Disk
import Letterbox.Text.Numeral
import Letterbox.Text.Search

/-! # Running scripts

What a script does to a disk, what it writes, and how it ends. Every command of a script is one of a
few utilities, which know only the options that are named here. -/

namespace Letterbox.Host

set_option autoImplicit false

open Text

structure Shell where
  disk : Disk
  name : String := "sh"
  arguments : List String := []
  bindings : List (String × String) := []
  status : Nat := 0
  ending : Option Ending := none
  input : Bytes := []
  output : Bytes := []

namespace Shell

def processId : String := "4242"

def result (s : Shell) (status : Nat) : Shell := { s with status }

def decided (s : Shell) (b : Bool) : Shell := s.result (if b then 0 else 1)

def emit (s : Shell) (text : String) : Shell := { s with output := s.output ++ Utf8.encode text }

def finish (s : Shell) (e : Ending) : Shell := { s with ending := some e }

/-! ## Expansion -/

def valueOf (s : Shell) (parameter : String) : String :=
  if parameter = "#" then toString s.arguments.length
  else if parameter = "?" then toString s.status
  else if parameter = "$" then processId
  else if parameter = "*" ∨ parameter = "@" then " ".intercalate s.arguments
  else match digits? parameter.toList with
    | some 0 => s.name
    | some n => s.arguments.getD (n - 1) ""
    | none => (s.bindings.lookup parameter).getD ""

/-- The fields of a word: those that are complete, the last first, and the one that is being
made. -/
structure Fields where
  complete : List String := []
  current : Option String := none

namespace Fields

def append (f : Fields) (t : String) : Fields := { f with current := some (f.current.getD "" ++ t) }

def close (f : Fields) : Fields :=
  match f.current with
  | some t => { complete := t :: f.complete }
  | none => f

def appendEach (f : Fields) : List String → Fields
  | [] => f
  | [t] => f.append t
  | t :: rest => appendEach (f.append t).close rest

def isSeparator (c : Char) : Bool := c = ' ' || c = '\t' || c = '\n'

def divide (f : Fields) (t : String) : Fields :=
  t.toList.foldl (fun f c => if isSeparator c then f.close else f.append c.toString) f

def toList (f : Fields) : List String := f.close.complete.reverse

end Fields

def expandPiece (s : Shell) (f : Fields) : Piece → Fields
  | .text t _ => f.append t
  | .parameter name true =>
    if name = "@" then f.appendEach s.arguments else f.append (s.valueOf name)
  | .parameter name false => f.divide (s.valueOf name)

def expand (s : Shell) (w : Word) : List String := (w.foldl s.expandPiece {}).toList

def expandOne (s : Shell) (w : Word) : String :=
  w.foldl (fun t p => t ++ match p with
    | .text t _ => t
    | .parameter name _ => s.valueOf name) ""

/-! ## Utilities -/

def utilities : List String :=
  ["true", "false", "test", "[", "echo", "printf", "cat", "cp", "mv", "rm", "touch", "mkdir",
   "sleep", "pwd", "kill", "grep", "basename", "ls", "env", "date", "id", "uname", "hostname",
   "whoami"]

def programDirectories : List String := ["/bin/", "/usr/bin/"]

def utilityAt? (path : String) : Option String :=
  ("sh" :: utilities).find? fun u => programDirectories.any fun d => path = d ++ u

def isFile (d : Disk) (path : String) : Bool :=
  match d.find path with
  | .ok (.file ..) => true
  | _ => false

def isDirectory (d : Disk) (path : String) : Bool :=
  match d.find path with
  | .ok i => i.isDirectory
  | .error _ => false

def integer? (t : String) : Option Int :=
  match t.toList with
  | '-' :: cs => (digits? cs).map fun n => -(n : Int)
  | '+' :: cs | cs => (digits? cs).map fun n => (n : Int)

def compareNumbers (f : Int → Int → Bool) (a b : String) : Option Bool :=
  match integer? a, integer? b with
  | some a, some b => some (f a b)
  | _, _ => none

def test (d : Disk) : List String → Option Bool
  | [] => some false
  | [a] => some (a ≠ "")
  | ["!", a] => some (a = "")
  | ["-n", a] => some (a ≠ "")
  | ["-z", a] => some (a = "")
  | ["-f", a] => some (isFile d a)
  | ["-d", a] => some (isDirectory d a)
  | ["-e", a] | ["-r", a] | ["-w", a] => some (d.pathExists a)
  | ["-s", a] => some (match d.find a with
    | .ok (.file data _) => !data.isEmpty
    | .ok (.directory ..) => true
    | .error _ => false)
  | ["-x", a] => some (isDirectory d a || (utilityAt? a).isSome)
  | ["-h", _] | ["-L", _] | ["-t", _] | ["-p", _] | ["-S", _] | ["-b", _] => some false
  | [a, "=", b] => some (a = b)
  | [a, "!=", b] => some (a ≠ b)
  | [a, "-eq", b] => compareNumbers (· == ·) a b
  | [a, "-ne", b] => compareNumbers (· != ·) a b
  | [a, "-lt", b] => compareNumbers (· < ·) a b
  | [a, "-le", b] => compareNumbers (· ≤ ·) a b
  | [a, "-gt", b] => compareNumbers (· > ·) a b
  | [a, "-ge", b] => compareNumbers (· ≥ ·) a b
  | [a, "<", b] => some (a < b)
  | [a, ">", b] => some (b < a)
  | [a, "-a", b] => some (a ≠ "" && b ≠ "")
  | [a, "-o", b] => some (a ≠ "" || b ≠ "")
  | "!" :: rest => (test d rest).map (!·)
  | [a, b, "-a", c, e] => return (← test d [a, b]) && (← test d [c, e])
  | [a, b, "-o", c, e] => return (← test d [a, b]) || (← test d [c, e])
  | [a, b, c, "-a", e, f, g] => return (← test d [a, b, c]) && (← test d [e, f, g])
  | [a, b, c, "-o", e, f, g] => return (← test d [a, b, c]) || (← test d [e, f, g])
  | _ => none

def testStatus (s : Shell) (arguments : List String) : Shell :=
  match test s.disk arguments with
  | some b => s.decided b
  | none => s.result 2

def unescape : List Char → List Char
  | '\\' :: c :: rest =>
    match c with
    | 'n' => '\n' :: unescape rest
    | 't' => '\t' :: unescape rest
    | 'r' => '\r' :: unescape rest
    | 'a' => '\x07' :: unescape rest
    | '\\' => '\\' :: unescape rest
    | c => '\\' :: c :: unescape rest
  | c :: rest => c :: unescape rest
  | [] => []

def echo (s : Shell) : List String → Shell
  | "-n" :: arguments =>
    (s.emit (String.ofList (unescape (" ".intercalate arguments).toList))).result 0
  | arguments =>
    (s.emit (String.ofList (unescape (" ".intercalate arguments).toList) ++ "\n")).result 0

def format : List Char → List String → List Char × List String
  | '%' :: '%' :: rest, arguments => let (t, left) := format rest arguments; ('%' :: t, left)
  | '%' :: 's' :: rest, arguments | '%' :: 'd' :: rest, arguments =>
    let (t, left) := format rest (arguments.drop 1)
    ((arguments.head?.getD "").toList ++ t, left)
  | c :: rest, arguments => let (t, left) := format rest arguments; (c :: t, left)
  | [], arguments => ([], arguments)

def formatAll (cs : List Char) : (fuel : Nat) → List String → List Char
  | 0, _ => []
  | fuel + 1, arguments =>
    let (t, left) := format cs arguments
    if left.isEmpty ∨ left.length = arguments.length then t else t ++ formatAll cs fuel left

def gather (s : Shell) : List String → Bytes × Bool
  | [] => ([], true)
  | a :: rest =>
    let (data, good) := gather s rest
    if a = "-" then (s.input ++ data, good)
    else match s.disk.read a with
      | .ok d => (d ++ data, good)
      | .error _ => (data, false)

def cat (s : Shell) (arguments : List String) : Shell :=
  let (data, good) := s.gather (if arguments.isEmpty then ["-"] else arguments)
  { s with output := s.output ++ data }.decided good

def target (d : Disk) (source path : String) : String :=
  if isDirectory d path then Path.join path ((Path.fileName? source).getD "") else path

def onDisk (s : Shell) (answer : Except SystemFault Disk) : Shell :=
  match answer with
  | .ok disk => { s with disk, status := 0 }
  | .error _ => s.result 1

def copy (d : Disk) (source path : String) : Except SystemFault Disk := do
  d.write (target d source path) (← d.read source) 0

def touch (d : Disk) (path : String) : Except SystemFault Disk :=
  if d.pathExists path then .ok d else d.write path [] 0

def remove (s : Shell) (force : Bool) (paths : List String) : Shell :=
  paths.foldl (fun s p => match s.disk.remove p with
    | .ok disk => { s with disk }
    | .error .notFound => if force then s else s.result 1
    | .error _ => s.result 1) (s.result 0)

def linesOf (data : Bytes) : List (List Char) :=
  let ls := splitAt '\n' (Utf8.decode data).toList
  if ls.getLast? = some [] then ls.dropLast else ls

def grep (s : Shell) (quiet literal : Bool) (pattern : String) (files : List String) : Shell :=
  let (data, good) := s.gather (if files.isEmpty then ["-"] else files)
  let accepts := fun line =>
    if literal then (cutAround pattern.toList line).isSome
    else match Pattern.ofText? pattern with
      | some p => p.occursIn line
      | none => false
  let found := (linesOf data).filter accepts
  let s := if quiet then s else found.foldl (fun s l => s.emit (String.ofList (l ++ ['\n']))) s
  if !found.isEmpty then s.result 0 else s.result (if good then 1 else 2)

def harmless : List (Nat × String) :=
  [(0, "0"), (17, "CHLD"), (18, "CONT"), (23, "URG"), (28, "WINCH")]

def signal? (t : String) : Option Nat :=
  ((Ending.signals ++ harmless).find? fun x => toString x.1 = t ∨ x.2 = t).map (·.1)

def kill (s : Shell) : List String → Shell
  | [p] => send 15 p
  | ["-s", name, p] => match signal? name with
    | some n => send n p
    | none => s.result 2
  | [option, p] => match option.toList with
    | '-' :: name => match signal? (String.ofList name) with
      | some n => send n p
      | none => s.result 2
    | _ => s.result 2
  | _ => s.result 2
where
  /-- Only a signal to the script itself has an effect. -/
  send (n : Nat) (p : String) : Shell :=
    if p = processId then
      if (Ending.signals.lookup n).isSome then s.finish (.killed n) else s.result 0
    else if (digits? p.toList).isSome then s.result 1
    else s.result 2

def readLine (s : Shell) (names : List String) : Shell :=
  let line := s.input.takeWhile (· ≠ 10)
  let complete := line.length < s.input.length
  let rec assign : List String → List Char → List (String × String)
    | [], _ => []
    | [n], cs => [(n, String.ofList (trimChars cs))]
    | n :: rest, cs =>
      let cs := skipBlanks cs
      (n, String.ofList (cs.takeWhile fun c => !isBlank c)) ::
        assign rest (cs.dropWhile fun c => !isBlank c)
  { s with input := s.input.drop (line.length + 1)
           bindings := assign names (Utf8.decode line).toList ++ s.bindings }.decided complete

def utility? (s : Shell) (name : String) (arguments : List String) : Option Shell :=
  match name, arguments with
  | "true", _ => some (s.result 0)
  | "false", _ => some (s.result 1)
  | "test", _ => some (s.testStatus arguments)
  | "[", _ =>
    some (if arguments.getLast? = some "]" then s.testStatus arguments.dropLast else s.result 2)
  | "echo", _ => some (s.echo arguments)
  | "printf", [] => some (s.result 2)
  | "printf", f :: rest =>
    some ((s.emit (String.ofList (formatAll (unescape f.toList) (rest.length + 1) rest))).result 0)
  | "cat", _ => some (s.cat arguments)
  | "cp", [a, b] => some (s.onDisk (copy s.disk a b))
  | "mv", [a, b] => some (s.onDisk (s.disk.rename a (target s.disk a b)))
  | "rm", "-f" :: rest => some (s.remove true rest)
  | "rm", a :: rest => some (s.remove false (a :: rest))
  | "touch", [a] => some (s.onDisk (touch s.disk a))
  | "mkdir", ["-p", a] => some (s.onDisk (s.disk.makeDirectories a))
  | "mkdir", [a] =>
    some (if s.disk.pathExists a then s.result 1 else s.onDisk (s.disk.makeDirectories a))
  | "sleep", [a] => some (s.decided (a.toList.head?.any Char.isDigit))
  | "pwd", _ => some ((s.emit ("/" ++ "/".intercalate s.disk.current ++ "\n")).result 0)
  | "kill", _ => some (s.kill arguments)
  | "grep", "-q" :: "-F" :: p :: files | "grep", "-qF" :: p :: files
  | "grep", "-F" :: "-q" :: p :: files =>
    some (s.grep true true p files)
  | "grep", "-q" :: p :: files => some (s.grep true false p files)
  | "grep", "-F" :: p :: files => some (s.grep false true p files)
  | "grep", p :: files => some (s.grep false false p files)
  | "basename", [a] => some ((s.emit ((Path.fileName? a).getD a ++ "\n")).result 0)
  -- What the next ones print is different on every host and is not supplied.
  | "env", [] | "date", [] | "id", [] | "uname", [] | "hostname", [] | "whoami", [] =>
    some (s.result 0)
  | "ls", _ =>
    let paths := arguments.filter fun a => a.toList.head? != some '-'
    some (if paths.all s.disk.pathExists then s.result 0 else s.result 2)
  | name, _ => if utilities.contains name then some (s.result 1) else none

/-- The status that an argument gives; one that is no number of 31 bits is a fault. -/
def statusOf (a : String) : Nat :=
  match numeral? 2147483647 (skipBlanks a.toList) with
  | some n => n % 256
  | none => 2

def builtin? (s : Shell) (name : String) (arguments : List String) : Option Shell :=
  match name, arguments with
  | ":", _ | "export", _ | "unset", _ | "umask", _ | "wait", [] => some (s.result 0)
  | "exit", [] | "return", [] => some (s.finish (.exited s.status))
  | "exit", a :: _ | "return", a :: _ => some (s.finish (.exited (statusOf a)))
  | "shift", [] =>
    some
      (if s.arguments.isEmpty then s.finish (.exited 2)
      else { s with arguments := s.arguments.drop 1, status := 0 })
  | "shift", [a] =>
    let n := statusOf a
    some
      (if s.arguments.length < n then s.finish (.exited 2)
      else { s with arguments := s.arguments.drop n, status := 0 })
  | "read", _ => some (s.readLine (arguments.filter (· ≠ "-r")))
  | "cd", [a] => some (match s.disk.resolve a with
    | .ok p =>
      if isDirectory s.disk a then { s with disk := { s.disk with current := p }, status := 0 }
      else s.result 2
    | .error _ => s.result 2)
  | _, _ => s.utility? name arguments

def call (s : Shell) : List String → Shell
  | [] => s.result 0
  | "exec" :: name :: arguments => callOne true s name arguments
  | name :: arguments => callOne false s name arguments
where
  callOne (last : Bool) (s : Shell) (name : String) (arguments : List String) : Shell :=
    let s := match s.builtin? ((utilityAt? name).getD name) arguments with
      | some s => s
      | none => s.result (if name.contains '/' && s.disk.pathExists name then 126 else 127)
    if last && s.ending.isNone then s.finish (.exited s.status) else s

/-! ## Commands -/

def nowhere : String := "/dev/null"

/-- Opens what a command is redirected to. Answers the path that takes its output, if one does. -/
def redirect (s : Shell) : List Redirection → Except Unit (Shell × Option String)
  | [] => .ok (s, none)
  | r :: rest => do
    let (s, path) ← match r with
      | .write w =>
        let path := s.expandOne w
        match s.disk.write path [] 0 with
        | .ok disk => .ok ({ s with disk }, some path)
        | .error _ => .error ()
      | .append w =>
        let path := s.expandOne w
        match touch s.disk path with
        | .ok disk => .ok ({ s with disk }, some path)
        | .error _ => .error ()
      | .complaints w => match touch s.disk (s.expandOne w) with
        | .ok disk => .ok ({ s with disk }, none)
        | .error _ => .error ()
      | .asComplaints => .ok (s, some nowhere)
      | .asOutput => .ok (s, none)
      | .read w => match s.disk.read (s.expandOne w) with
        | .ok input => .ok ({ s with input }, none)
        | .error _ => .error ()
    let (s, later) ← redirect s rest
    .ok (s, later.or path)

def store (s : Shell) (path : String) (output : Bytes) : Shell :=
  let before := (s.disk.read path).toOption.getD []
  { s with disk := ((s.disk.write path (before ++ output) 0).toOption).getD s.disk }

def simple (s : Shell) (assignments : List (String × Word)) (words : List Word)
    (redirections : List Redirection) : Shell :=
  let given := assignments.map fun (n, w) => (n, s.expandOne w)
  match s.redirect redirections with
  | .error () => s.result 2
  | .ok (t, path) =>
    let command := words.flatMap s.expand
    let u := { t with output := [], bindings := given ++ t.bindings }.call command
    let u := if command.isEmpty then u else { u with bindings := u.bindings }
    let u := { u with input := if t.input = s.input then u.input else s.input }
    match path with
    | some path => { u.store path u.output with output := s.output }
    | none => { u with output := s.output ++ u.output }

/-- The shell after a part of it has run in a shell of its own. A signal that the part sends goes to
the whole. -/
def after (s inner : Shell) : Shell :=
  let s := { s with disk := { inner.disk with current := s.disk.current }, output := inner.output }
  match inner.ending with
  | some (.exited n) => s.result n
  | some (.killed n) => s.finish (.killed n)
  | none => s.result inner.status

def run (s : Shell) : Command → Shell
  | .nothing => s
  | .simple assignments words redirections => s.simple assignments words redirections
  | .invert c =>
    let t := run s c
    if t.ending.isSome then t else t.decided (t.status ≠ 0)
  | .pipe source sink =>
    let t := run { s with output := [] } source
    let s' := s.after { t with output := s.output }
    if s'.ending.isSome then s' else s'.after (run { s' with input := t.output } sink)
  | .both c d =>
    let t := run s c
    if t.ending.isSome ∨ t.status ≠ 0 then t else run t d
  | .either c d =>
    let t := run s c
    if t.ending.isSome ∨ t.status = 0 then t else run t d
  | .sequence c d =>
    let t := run s c
    if t.ending.isSome then t else run t d
  | .choice condition yes no =>
    let t := run s condition
    if t.ending.isSome then t
    else if t.status = 0 then run (t.result 0) yes
    else run (t.result 0) no
  | .apart c => s.after (run s c)
  | .aside c => (s.after (run s c)).result 0

def endingOf (s : Shell) : Ending := s.ending.getD (.exited s.status)

end Shell

end Letterbox.Host
