import Letterbox.Dispatch.Outcome
import Letterbox.Rule.Retention
import Letterbox.Store.Entry

/-! # Deleting old mail

Each enabled retention rule, in its turn, asks for the list of stored messages and deletes those
that are past its time, one after the other in the order of the list. A message that cannot be
deleted does not keep the others. `Sweep` goes through this one answer of the store at a time;
`sweepAll` gives the whole of it over a store that nobody else touches. -/

namespace Letterbox

set_option autoImplicit false

namespace Retention

def days? (r : Rule) : Option UInt32 :=
  match r.enabled, r.action with
  | true, .mailRetention days => some days
  | _, _ => none

def deletion (m : StoredMessage) (answer : Except Failure Unit) : Attempt :=
  { number := 1, action := "delete " ++ m.name
    error := match answer with
      | .ok () => none
      | .error f => some f.message }

def refused (r : Rule) (f : Failure) : Outcome :=
  { ruleId := r.id, ruleKind := r.kind, attempts := [], error := some f.message }

def completed (r : Rule) (attempts : List Attempt) : Outcome :=
  let failures := (attempts.filter (!·.succeeded)).length
  { ruleId := r.id, ruleKind := r.kind, attempts
    error := if failures = 0 then none else some s!"{failures} deletion(s) failed" }

def expired (days : UInt32) (now : Int) (messages : List StoredMessage) : List StoredMessage :=
  messages.filter fun m => Rule.isOverdue days m.createdAt now

end Retention

inductive Sweep.Stage where
  | waiting
  | listing (rule : Rule) (days : UInt32) (since : Nat) (rest : List Rule)
  | deleting (rule : Rule) (current : StoredMessage) (todo : List StoredMessage)
      (done : List Attempt) (rest : List Rule)
  | finished
deriving DecidableEq, Repr

structure Sweep where
  outcomes : List Outcome := []
  stage : Sweep.Stage := .waiting
deriving DecidableEq, Repr

namespace Sweep

open Retention

/-- Goes on with the rules that are left, up to the next one for which the store has to be asked. -/
def next (outcomes : List Outcome) (now : Nat) : List Rule → Sweep
  | [] => ⟨outcomes, .finished⟩
  | r :: rest => match days? r with
    | none => next outcomes now rest
    | some days => match Rule.validateRetention days with
      | .error f => next (outcomes ++ [refused r f]) now rest
      | .ok () => ⟨outcomes, .listing r days now rest⟩

def begin (s : Sweep) (now : Nat) (rules : List Rule) : Sweep :=
  match s.stage with
  | .waiting => next s.outcomes now rules
  | _ => s

def deleteNext (outcomes : List Outcome) (now : Nat) (r : Rule) (done : List Attempt)
    (rest : List Rule) : List StoredMessage → Sweep
  | [] => next (outcomes ++ [completed r done]) now rest
  | m :: todo => ⟨outcomes, .deleting r m todo done rest⟩

/-- The store has answered with its list, at `now`; `clock` is the time of day against which ages
are taken. -/
def listed (s : Sweep) (now : Nat) (clock : Int) (answer : Except Failure (List StoredMessage)) :
    Sweep :=
  match s.stage with
  | .listing r days _ rest => match answer with
    | .error f => next (s.outcomes ++ [refused r f]) now rest
    | .ok messages => deleteNext s.outcomes now r [] rest (expired days clock messages)
  | _ => s

def deleted (s : Sweep) (now : Nat) (answer : Except Failure Unit) : Sweep :=
  match s.stage with
  | .deleting r m todo done rest =>
    deleteNext s.outcomes now r (done ++ [deletion m answer]) rest todo
  | _ => s

def isFinished (s : Sweep) : Bool := s.stage = .finished

end Sweep

/-! ## All at once -/

def Retention.listings (rules : List Rule) : Nat :=
  (rules.filter fun r => (Retention.days? r).any fun d => (Rule.validateRetention d).isOk).length

/-- A store that nobody else touches: what it holds, in the order of its list, and which messages it
does not let go. -/
structure Shelf where
  messages : List StoredMessage
  stuck : StoredMessage → Bool := fun _ => false
  hidden : Option Failure := none

namespace Shelf

def inUse : Failure := .storage "file in use"

def answer (s : Shelf) (m : StoredMessage) : Except Failure Unit :=
  if s.stuck m then .error inUse else .ok ()

def deleteAll (s : Shelf) (gone : List StoredMessage) : Shelf :=
  { s with messages := s.messages.filter fun m => s.stuck m || !gone.contains m }

def apply (s : Shelf) (clock : Int) (r : Rule) (days : UInt32) : Outcome × Shelf :=
  match Rule.validateRetention days with
  | .error f => (Retention.refused r f, s)
  | .ok () => match s.hidden with
    | some f => (Retention.refused r f, s)
    | none =>
      let old := Retention.expired days clock s.messages
      (Retention.completed r (old.map fun m => Retention.deletion m (s.answer m)), s.deleteAll old)

def sweepAll (s : Shelf) (clock : Int) : List Rule → List Outcome × Shelf
  | [] => ([], s)
  | r :: rest => match Retention.days? r with
    | none => sweepAll s clock rest
    | some days =>
      let (o, s) := s.apply clock r days
      let (os, s) := sweepAll s clock rest
      (o :: os, s)

end Shelf

end Letterbox
