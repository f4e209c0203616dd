import Letterbox.Net.Lines

/-! # Listeners

Many connections at once, each worked on by a task of its own, and the registry of those that are
open. A listener takes one step at a time, named by a `Label`; which one comes next is not decided
here, and a step that cannot be taken changes nothing. What the tasks share goes along beside the
listener. Connections are numbered from one in the order in which they were accepted. -/

namespace Letterbox

set_option autoImplicit false

variable {κ σ : Type}

inductive Visit.Stage where
  | fresh
  | reading
  | ended
  /-- The task has left the registry, its last act. -/
  | gone
deriving DecidableEq, Repr

structure Visit (κ : Type) where
  session : LineSession κ
  stage : Visit.Stage := .fresh

namespace Visit

def id (v : Visit κ) : Nat := v.session.channel.connection.id

def onChannel (v : Visit κ) (f : Channel → Channel) : Visit κ :=
  { v with session := { v.session with channel := f v.session.channel } }

def close (v : Visit κ) : Visit κ := v.onChannel (·.close true)

def finish (v : Visit κ) : Visit κ := { v.close with stage := .ended }

def joined (v : Visit κ) (shared : σ) : LineSession (κ × σ) :=
  { channel := v.session.channel, state := (v.session.state, shared), pending := v.session.pending }

def ofJoined (s : LineSession (κ × σ)) (stage : Stage) : Visit κ × σ :=
  let session := { channel := s.channel, state := s.state.1, pending := s.pending }
  ({ session, stage }, s.state.2)

def begin (p : LineProtocol (κ × σ)) (v : Visit κ) (shared : σ) : Visit κ × σ :=
  match v.stage with
  | .fresh => match (v.joined shared).begin p with
    | (s, .ok ()) => ofJoined s .reading
    | (s, .error _) => let (v, shared) := ofJoined s .reading; (v.finish, shared)
  | .reading | .ended | .gone => (v, shared)

def read (p : LineProtocol (κ × σ)) (v : Visit κ) (shared : σ) (incoming : Incoming) :
    Visit κ × σ :=
  match v.stage with
  | .reading =>
    if v.session.channel.connection.isOpen then
      match incoming with
      | .ended | .failed => (v.finish, shared)
      | .closedMeanwhile announce => ((v.onChannel (·.close announce)).finish, shared)
      | .bytes [] => (v, shared)
      | .bytes data => match ((v.onChannel (·.touch)).joined shared).feed p data with
        | (s, .proceed) => ofJoined s .reading
        | (s, _) => let (v, shared) := ofJoined s .reading; (v.finish, shared)
    else (v.finish, shared)
  | .fresh | .ended | .gone => (v, shared)

end Visit

namespace Listener

inductive Phase where
  | accepting
  /-- It closes the connections that it found registered when it left off accepting. -/
  | closing (todo : List Nat)
  | draining
  | returned
deriving DecidableEq, Repr

inductive Label where
  | accept
  | begin (id : Nat)
  | read (id : Nat) (incoming : Incoming)
  | leave (id : Nat)
  | tick
  | examine
  | shutdown
  | retire
  | closeNext
  | drained
  | graceOver
  | pass (millis : Nat)
deriving DecidableEq, Repr

end Listener

structure Listener (κ : Type) where
  visits : List (Visit κ) := []
  registered : List Nat := []
  examining : List Nat := []
  phase : Listener.Phase := .accepting
  stopping : Bool := false
  now : Nat := 0

namespace Listener

def visit? (l : Listener κ) (id : Nat) : Option (Visit κ) := l.visits.find? (·.id = id)

def onVisit (l : Listener κ) (id : Nat) (f : Visit κ → Visit κ) : Listener κ :=
  { l with
    visits := l.visits.map fun v =>
      if v.id = id then f (v.onChannel fun c => { c with now := l.now }) else v }

def onTask (l : Listener κ) (shared : σ) (id : Nat) (f : Visit κ → Visit κ × σ) : Listener κ × σ :=
  match l.visit? id with
  | none => (l, shared)
  | some v =>
    let (v', shared) := f (v.onChannel fun c => { c with now := l.now })
    ({ l with visits := l.visits.map fun w => if w.id = id then v' else w }, shared)

def newVisit (l : Listener κ) (state : κ) : Visit κ :=
  let connection : Connection := { id := l.visits.length + 1, lastActivity := l.now }
  { session := { channel := { connection, now := l.now }, state } }

def accept (l : Listener κ) (state : κ) : Listener κ :=
  match l.phase with
  | .accepting =>
    { l with
      visits := l.visits ++ [l.newVisit state]
      registered := l.registered ++ [l.visits.length + 1] }
  | .closing _ | .draining | .returned => l

def isStale (l : Listener κ) (timeout : Nat) (v : Visit κ) : Bool :=
  timeout ≤ v.session.channel.connection.idleFor l.now

def examine (l : Listener κ) (idleTimeout : Option Nat) : Listener κ :=
  match l.examining, idleTimeout with
  | id :: rest, some timeout =>
    { l with examining := rest }.onVisit id fun v => if l.isStale timeout v then v.close else v
  | _, _ => l

def leave (l : Listener κ) (id : Nat) : Listener κ :=
  match l.visit? id with
  | some v => match v.stage with
    | .ended =>
      { l.onVisit id fun v => { v with stage := .gone } with
        registered := l.registered.filter (· ≠ id) }
    | .fresh | .reading | .gone => l
  | none => l

def closeNext (l : Listener κ) : Listener κ :=
  match l.phase with
  | .closing [] => { l with phase := .draining }
  | .closing (id :: rest) => { l with phase := .closing rest }.onVisit id Visit.close
  | .accepting | .draining | .returned => l

def isIdle (l : Listener κ) : Bool := l.visits.all (·.stage = .gone)

/-- One step of a listener for a protocol whose connections begin in state `state`; idle ones are
closed after `idleTimeout`. -/
def step (p : LineProtocol (κ × σ)) (state : κ) (idleTimeout : Option Nat) (l : Listener κ)
    (shared : σ) : Label → Listener κ × σ
  | .accept => (l.accept state, shared)
  | .begin id => l.onTask shared id fun v => v.begin p shared
  | .read id incoming => l.onTask shared id fun v => v.read p shared incoming
  | .leave id => (l.leave id, shared)
  | .tick =>
    (if idleTimeout.isSome && l.examining.isEmpty then { l with examining := l.registered } else l,
      shared)
  | .examine => (l.examine idleTimeout, shared)
  | .shutdown => ({ l with stopping := true }, shared)
  | .retire =>
    (if l.stopping && l.phase = .accepting then { l with phase := .closing l.registered } else l,
      shared)
  | .closeNext => (l.closeNext, shared)
  | .drained =>
    (if l.phase = .draining && l.isIdle then { l with phase := .returned } else l, shared)
  | .graceOver => (if l.phase = .draining then { l with phase := .returned } else l, shared)
  | .pass millis => ({ l with now := l.now + millis }, shared)

def steps (p : LineProtocol (κ × σ)) (state : κ) (idleTimeout : Option Nat) (l : Listener κ)
    (shared : σ) : List Label → Listener κ × σ
  | [] => (l, shared)
  | label :: rest =>
    let (l, shared) := l.step p state idleTimeout shared label
    steps p state idleTimeout l shared rest

def sentOn (l : Listener κ) (id : Nat) : Bytes :=
  ((l.visit? id).map (·.session.channel.sent)).getD []

/-- A guest who says something and then ends, waits or is thrown out, and all that follows until its
task is done. -/
def guest (id : Nat) (said : Bytes) (last : Incoming) : List Label :=
  [.accept, .begin id, .read id (.bytes said), .read id last, .leave id]

def windDown (l : Listener κ) : List Label :=
  [.shutdown, .retire] ++ List.replicate (l.registered.length + 1) .closeNext ++
    (l.visits.flatMap fun v => [.read v.id .ended, .leave v.id]) ++ [.drained]

end Listener

end Letterbox
