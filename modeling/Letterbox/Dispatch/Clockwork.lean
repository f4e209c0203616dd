import Letterbox.Dispatch.Dispatcher

/-! # A dispatcher on a clock of its own

One way to choose the steps of a dispatcher: everything that can be done is done at once, in a fixed
order, and the clock moves on only when everything waits. What the outside answers is worked out by
a `World`. -/

namespace Letterbox

set_option autoImplicit false

/-- What a dispatcher meets outside; `ω` is what can change there. -/
structure World (ω : Type) where
  load : ω → String → Except Failure Bytes
  perform : ω → Nat → Errand → Bytes → Except Failure Unit × ω
  list : ω → Except Failure (List StoredMessage)
  listTakes : ω → Nat
  delete : ω → StoredMessage → Except Failure Unit × ω
  clock : ω → Int

variable {ω : Type}

namespace Clockwork

structure Move (ω : Type) where
  label : Dispatcher.Label
  world : ω

def runMove? (w : World ω) (world : ω) (now id : Nat) (raw : Bytes) :
    (index : Nat) → List Run → Option (Move ω)
  | _, [] => none
  | index, r :: rest => match r.trials.phase with
    | .trying =>
      let (answer, world) := w.perform world now r.errand raw
      some ⟨.attempt id index answer, world⟩
    | .pausing til =>
      if til ≤ now then some ⟨.resume id index, world⟩
      else runMove? w world now id raw (index + 1) rest
    | .ended _ => runMove? w world now id raw (index + 1) rest

/-- What a task can do, apart from being cancelled. -/
def taskMove? (w : World ω) (world : ω) (now : Nat) (t : Dispatcher.Task) : Option (Move ω) :=
  match t.stage with
  | .waiting => some ⟨.begin t.id, world⟩
  | .loading _ => some ⟨.load t.id (w.load world t.message.path), world⟩
  | .running _ raw runs =>
    match runMove? w world now t.id raw 0 runs with
    | some m => some m
    | none => t.outcomes?.map fun _ => ⟨.finish t.id, world⟩

def sweepMove? (w : World ω) (world : ω) (now : Nat) (t : Dispatcher.SweepTask) : Option (Move ω) :=
  match t.sweep.stage with
  | .waiting => some ⟨.beginSweep t.id, world⟩
  | .listing _ _ since _ =>
    if since + w.listTakes world ≤ now then some ⟨.list t.id (w.clock world) (w.list world), world⟩
    else none
  | .deleting _ m _ _ _ =>
    let (answer, world) := w.delete world m
    some ⟨.delete t.id answer, world⟩
  | .finished => some ⟨.finishSweep t.id, world⟩

end Clockwork

structure Clockwork (ω : Type) where
  dispatcher : Dispatcher
  world : ω
  now : Nat := 0
  nextTick : Nat := 0
  period : Nat

namespace Clockwork

def move? (w : World ω) (c : Clockwork ω) : Option (Move ω) :=
  let d := c.dispatcher
  match d.loop with
  | .ended => none
  | .serving | .draining =>
    if d.loop = .serving && d.stopping then some ⟨.leave, c.world⟩
    else if d.loop = .serving && c.nextTick ≤ c.now then some ⟨.tick, c.world⟩
    else if d.loop = .serving && (!d.inbox.isEmpty || d.disconnected) then some ⟨.receive, c.world⟩
    else if d.stopping then
      match d.tasks, d.sweeps with
      | t :: _, _ => some ⟨.cancel t.id, c.world⟩
      | [], t :: _ => some ⟨.cancel t.id, c.world⟩
      | [], [] => some ⟨.join, c.world⟩
    else
      (d.tasks.findSome? (taskMove? w c.world c.now)).or
        (d.sweeps.findSome? (sweepMove? w c.world c.now))

def apply (c : Clockwork ω) (m : Move ω) : Clockwork ω :=
  { c with
    dispatcher := c.dispatcher.step c.now m.label
    world := m.world
    nextTick := match m.label with
      | .tick => c.nextTick + c.period
      | _ => c.nextTick }

/-- Does all that can be done without time going by, up to `fuel` steps. -/
def settle (w : World ω) : (fuel : Nat) → Clockwork ω → Clockwork ω
  | 0, c => c
  | fuel + 1, c => match c.move? w with
    | none => c
    | some m => settle w fuel (c.apply m)

def runTime? (r : Run) : Option Nat :=
  match r.trials.phase with
  | .pausing til => some til
  | .trying | .ended _ => none

def times (w : World ω) (c : Clockwork ω) : List Nat :=
  (if c.dispatcher.loop = .serving then [c.nextTick] else []) ++
    c.dispatcher.tasks.flatMap (fun t => match t.stage with
      | .running _ _ runs => runs.filterMap runTime?
      | .waiting | .loading _ => []) ++
    c.dispatcher.sweeps.filterMap fun t => match t.sweep.stage with
      | .listing _ _ since _ => some (since + w.listTakes c.world)
      | _ => none

def earliest? : List Nat → Option Nat
  | [] => none
  | t :: rest => some (rest.foldl min t)

def passTo (w : World ω) (til : Nat) : (fuel : Nat) → Clockwork ω → Clockwork ω
  | 0, c => c
  | fuel + 1, c =>
    let c := c.settle w (fuel + 1)
    match earliest? ((c.times w).filter (c.now < ·)) with
    | none => { c with now := max c.now til }
    | some t =>
      if t ≤ til then passTo w til fuel { c with now := t } else { c with now := max c.now til }

def arrive (c : Clockwork ω) (e : Event) : Clockwork ω :=
  { c with dispatcher := c.dispatcher.step c.now (.arrive e) }

def shutdown (c : Clockwork ω) : Clockwork ω :=
  { c with dispatcher := c.dispatcher.step c.now .shutdown }

/-- Works on one message until every rule has come to an end. -/
def workOff (w : World ω) : (fuel : Nat) → Nat → ω → Dispatcher.Task → Nat × ω × List Outcome
  | 0, now, world, _ => (now, world, [])
  | fuel + 1, now, world, t =>
    match taskMove? w world now t with
    | none => match t.stage with
      | .running _ _ runs => match earliest? (runs.filterMap runTime?) with
        | some til => workOff w fuel (max now til) world t
        | none => (now, world, [])
      | .waiting | .loading _ => (now, world, [])
    | some m =>
      match m.label with
      | .load _ answer => workOff w fuel now m.world (t.loaded answer)
      | .attempt _ index answer =>
        workOff w fuel now m.world (t.onRun index (·.answered now answer))
      | .resume _ index => workOff w fuel now m.world (t.onRun index (·.resumed))
      | _ => (now, m.world, t.outcomes?.getD [])

end Clockwork

end Letterbox
