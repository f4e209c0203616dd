import Letterbox.Host.Shell

/-! # Programs of a host

A host has a shell and a few utilities; nothing else on its disk can be run. Input is empty, and
what a program writes is not kept. -/

namespace Letterbox.Host

set_option autoImplicit false

def bareItems : List (Place × Item) :=
  [["bin"], ["usr"], ["usr", "bin"], ["etc"], ["tmp"], ["dev"], ["home"], ["root"], ["var"]].map
      (·, Item.directory 4096 0) ++
    ("sh" :: Shell.utilities).flatMap (fun u =>
      [(["bin", u], Item.file [] 0), (["usr", "bin", u], Item.file [] 0)]) ++
    [(["etc", "passwd"], .file (Utf8.encode "root:x:0:0:root:/root:/bin/bash\n") 0)]

def bareDisk : Disk := { items := bareItems }

def programAt? : Place → Option String
  | ["bin", name] | ["usr", "bin", name] =>
    if name = "sh" ∨ Shell.utilities.contains name then some name else none
  | _ => none

def locate (d : Disk) (path : String) : Except SystemFault String := do
  if path.toList.contains '\x00' then throw (.other "nul byte found in provided data")
  let place ← if path.contains '/' then d.resolve path else match path with
    | "" => throw .notFound
    | name => if (programAt? ["bin", name]).isSome then pure ["bin", name] else throw .notFound
  match d.item? place with
  | none => throw .notFound
  | some (.directory ..) => throw .permissionDenied
  | some (.file ..) => match programAt? place with
    | some name => return name
    | none => throw .permissionDenied

def shellOptions : List String → Bool × List String
  | [] => (false, [])
  | a :: rest => match a.toList with
    | '-' :: c :: cs =>
      let (command, rest) := shellOptions rest
      (command || (c :: cs).contains 'c', rest)
    | _ => (false, a :: rest)

def runScript (s : Shell) (text : String) : Shell :=
  match Script.ofText? text with
  | some c => s.run c
  | none => s.result 2

def runShell (d : Disk) (arguments : List String) : Shell :=
  match shellOptions arguments with
  | (true, text :: name :: rest) => runScript { disk := d, name, arguments := rest } text
  | (true, [text]) => runScript { disk := d } text
  | (true, []) => { disk := d, status := 2 }
  | (false, file :: rest) => match d.read file with
    | .ok data => runScript { disk := d, name := file, arguments := rest } (Utf8.decode data)
    | .error _ => { disk := d, status := 2 }
  | (false, []) => { disk := d }

def run (d : Disk) (program : String) (arguments : List String) :
    Except SystemFault Ending × Disk :=
  match locate d program with
  | .error fault => (.error fault, d)
  | .ok name =>
    if arguments.any (·.toList.contains '\x00') then
      (.error (.other "nul byte found in provided data"), d)
    else
      let s := if name = "sh" then runShell d arguments
        else ({ disk := d : Shell }.utility? name arguments).getD { disk := d }
      (.ok s.endingOf, { s.disk with current := d.current })

end Letterbox.Host
