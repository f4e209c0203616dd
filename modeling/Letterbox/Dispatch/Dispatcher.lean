import Letterbox.Dispatch.Errand
import Letterbox.Dispatch.Retention

/-! # The dispatcher

Hears of messages and of changes of the rules, and sweeps old mail away from time to time. Every
message, and every sweep, is worked on by a task of its own, which looks at the rules when it first
runs and keeps to what it saw. The machine below takes one step at a time, named by a `Label` that
also carries what the outside answers; which step comes next is not decided here. A step that cannot
be taken changes nothing. -/

namespace Letterbox

set_option autoImplicit false

namespace Dispatcher

inductive Stage where
  | waiting
  | loading (rules : List Rule)
  | running (rules : List Rule) (raw : Bytes) (runs : List Run)

structure Task where
  id : Nat
  message : ReceivedMessage
  stage : Stage := .waiting

namespace Task

/-- Takes a snapshot of the rules. Where none of them waits for messages, there is nothing to do. -/
def begin (t : Task) (rules : List Rule) : Task :=
  match t.stage with
  | .waiting =>
    { t with
      stage := if rules.any (·.actsOnMessages) then .loading rules else .running rules [] [] }
  | .loading _ | .running .. => t

/-- The store's answer. A message that cannot be loaded is not worked on. -/
def loaded (t : Task) (answer : Except Failure Bytes) : Task :=
  match t.stage with
  | .loading rules => { t with stage := match answer with
      | .ok raw => .running rules raw (Run.ofRules rules t.message raw)
      | .error _ => .running rules [] [] }
  | .waiting | .running .. => t

def onRun (t : Task) (index : Nat) (f : Retry.Trials Unit → Retry.Trials Unit) : Task :=
  match t.stage with
  | .running rules raw runs =>
    { t with
      stage := .running rules raw (runs.modify index fun r => { r with trials := f r.trials }) }
  | .waiting | .loading _ => t

def outcomes? (t : Task) : Option (List Outcome) :=
  match t.stage with
  | .running _ _ runs => runs.mapM Run.outcome?
  | .waiting | .loading _ => none

end Task

structure SweepTask where
  id : Nat
  sweep : Sweep := {}

inductive Loop where
  | serving
  /-- It has ended and waits for the tasks. -/
  | draining
  | ended
deriving DecidableEq, Repr

inductive Label where
  | arrive (e : Event)
  | disconnect
  | receive
  | tick
  | shutdown
  | leave
  | begin (id : Nat)
  | load (id : Nat) (answer : Except Failure Bytes)
  | attempt (id index : Nat) (answer : Except Failure Unit)
  | resume (id index : Nat)
  | finish (id : Nat)
  | beginSweep (id : Nat)
  | list (id : Nat) (clock : Int) (answer : Except Failure (List StoredMessage))
  | delete (id : Nat) (answer : Except Failure Unit)
  | finishSweep (id : Nat)
  | cancel (id : Nat)
  | join

/-- Whether a step is one that the dispatcher takes by itself, and not one that it is made to
take. -/
def Label.isOwn : Label → Bool
  | .arrive _ | .disconnect | .shutdown => false
  | _ => true

end Dispatcher

open Dispatcher in
structure Dispatcher where
  rules : List Rule
  inbox : List Event := []
  disconnected : Bool := false
  loop : Loop := .serving
  stopping : Bool := false
  /-- Set while a sweep is being run, so that none is begun beside it. -/
  sweeping : Bool := false
  tasks : List Task := []
  sweeps : List SweepTask := []
  nextId : Nat := 0
  announced : List Event := []

namespace Dispatcher

/-- The event that the loop has taken. An update counts only if every rule in it can be carried out;
then it replaces all rules. -/
def hear (d : Dispatcher) (e : Event) : Dispatcher :=
  match e with
  | .newMessage m =>
    { d with tasks := d.tasks ++ [{ id := d.nextId, message := m }], nextId := d.nextId + 1 }
  | .rulesUpdated rules =>
    match Rule.validateAll rules with
    | .ok () => { d with rules }
    | .error _ => d
  | _ => d

def receive (d : Dispatcher) : Dispatcher :=
  match d.loop with
  | .serving => match d.inbox with
    | e :: inbox => { d with inbox }.hear e
    | [] => if d.disconnected then { d with loop := .draining } else d
  | .draining | .ended => d

def tick (d : Dispatcher) : Dispatcher :=
  match d.loop with
  | .serving =>
    if d.sweeping then d
    else
      { d with
        sweeping := true
        sweeps := d.sweeps ++ [{ id := d.nextId }]
        nextId := d.nextId + 1 }
  | .draining | .ended => d

def leave (d : Dispatcher) : Dispatcher :=
  match d.loop, d.stopping with
  | .serving, true => { d with loop := .draining }
  | _, _ => d

def onTask (d : Dispatcher) (id : Nat) (f : Task → Task) : Dispatcher :=
  { d with tasks := d.tasks.map fun t => if t.id = id then f t else t }

def onSweep (d : Dispatcher) (id : Nat) (f : Sweep → Sweep) : Dispatcher :=
  { d with sweeps := d.sweeps.map fun t => if t.id = id then { t with sweep := f t.sweep } else t }

def dropTask (d : Dispatcher) (id : Nat) : Dispatcher :=
  { d with tasks := d.tasks.filter (·.id != id) }

def dropSweep (d : Dispatcher) (id : Nat) : Dispatcher :=
  if d.sweeps.any (·.id = id) then
    { d with sweeps := d.sweeps.filter (·.id != id), sweeping := false }
  else d

def announce (d : Dispatcher) (events : List Event) : Dispatcher :=
  { d with announced := d.announced ++ events }

def finish (d : Dispatcher) (id : Nat) : Dispatcher :=
  match d.tasks.find? (·.id = id) with
  | none => d
  | some t => match t.outcomes? with
    | none => d
    | some outcomes =>
      (d.dropTask id).announce (Outcome.failureEvents (some t.message.path) outcomes)

def finishSweep (d : Dispatcher) (id : Nat) : Dispatcher :=
  match d.sweeps.find? (·.id = id) with
  | none => d
  | some t =>
    if t.sweep.isFinished then
      (d.dropSweep id).announce (Outcome.failureEvents none t.sweep.outcomes)
    else d

def cancel (d : Dispatcher) (id : Nat) : Dispatcher :=
  if d.stopping then (d.dropTask id).dropSweep id else d

def join (d : Dispatcher) : Dispatcher :=
  match d.loop, d.tasks, d.sweeps with
  | .draining, [], [] => { d with loop := .ended }
  | _, _, _ => d

def step (d : Dispatcher) (now : Nat) : Label → Dispatcher
  | .arrive e => if d.disconnected then d else { d with inbox := d.inbox ++ [e] }
  | .disconnect => { d with disconnected := true }
  | .receive => d.receive
  | .tick => d.tick
  | .shutdown => { d with stopping := true }
  | .leave => d.leave
  | .begin id => d.onTask id fun t => t.begin d.rules
  | .load id answer => d.onTask id (·.loaded answer)
  | .attempt id index answer => d.onTask id (·.onRun index (·.answered now answer))
  | .resume id index => d.onTask id (·.onRun index (·.resumed))
  | .finish id => d.finish id
  | .beginSweep id => d.onSweep id (·.begin now d.rules)
  | .list id clock answer => d.onSweep id (·.listed now clock answer)
  | .delete id answer => d.onSweep id (·.deleted now answer)
  | .finishSweep id => d.finishSweep id
  | .cancel id => d.cancel id
  | .join => d.join

def steps (d : Dispatcher) : List (Nat × Label) → Dispatcher
  | [] => d
  | (now, l) :: rest => steps (d.step now l) rest

end Dispatcher

end Letterbox
