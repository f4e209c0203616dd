import Letterbox.Config.Launch
import Letterbox.Dispatch.Dispatcher
import Letterbox.Event.Bus
import Letterbox.Event.Intake
import Letterbox.Event.Link
import Letterbox.Net.Listener
import Letterbox.Smtp.Receiver

/-! # The program

The parts at work together: a listener for mail, one for events from outside, the dispatcher, and
the forwarder that tells the user interface what happens, all on one bus; and the course of the
program from its start to its end, which sets them up and takes them down. One step at a time is
taken, named by a `Label` that carries what the outside answers; which one comes next is not decided
here, and a step that cannot be taken changes nothing. `ω` is what can change outside, a store of
messages among it. -/

namespace Letterbox

set_option autoImplicit false

variable {ω : Type}

namespace Program

inductive Part where
  | mail
  | link
  | dispatcher
  | forwarder
deriving DecidableEq, Repr

inductive Stage where
  | preparing
  | announcing
  | loadingRules
  | bindingLink
  | bindingMail
  | sayingReady
  | running
  | joining (parts : List Part)
  | sayingExit
  | ended (trouble : Option Trouble)
deriving DecidableEq, Repr

structure Forwarder where
  reader : Nat
  sending : Option Event := none
  isRunning : Bool := true
deriving DecidableEq

inductive Label (ω : Type) where
  | prepare
  | told (heard : Bool)
  | rules (answer : Except Failure (List Rule))
  | linkBound (answer : Bool)
  | mailBound (answer : Except SystemFault UInt16)
  | interrupt
  | joined
  | graceOver
  | mail (l : Listener.Label)
  /-- The identifiers are for rules that come without. -/
  | link (l : Listener.Label) (ids : Nat → Nat → Uuid)
  | deliver
  | dispatcher (now : Nat) (l : Dispatcher.Label) (world : ω)
  | forward
  | forwarded (heard : Bool)
  | forwarderLeaves

end Program

open Program in
structure Program (ω : Type) where
  config : Config
  world : ω
  bus : Bus
  stage : Stage := .preparing
  stopping : Bool := false
  /-- The dispatcher, once it is set up, and its number among the readers of the bus. -/
  dispatcher : Option (Dispatcher × Nat) := none
  forwarder : Option Forwarder := none
  mail : Option (Listener Smtp.Receiver) := none
  link : Option (Listener Unit) := none
  told : List Event := []
  heard : List Event := []

namespace Program

def start (config : Config) (world : ω) : Program ω :=
  { config, world, bus := .ofCapacity config.events.busCapacity }

def setup (p : Program ω) : Smtp.Setup := ⟨p.config.server.hostname, p.config.mail.maxMessageSize⟩

def isEnded (p : Program ω) : Bool :=
  match p.stage with
  | .ended _ => true
  | _ => false

def publishAll (p : Program ω) (events : List Event) : Program ω :=
  { p with bus := events.foldl (fun b e => (b.publish e).1) p.bus }

/-- Begins to tell the user interface, if there is a link to it at all. -/
def tell (p : Program ω) (e : Event) (telling after : Stage) : Program ω :=
  if p.config.link.enabled then { p with stage := telling, told := p.told ++ [e] }
  else { p with stage := after }

def startForwarder (p : Program ω) : Program ω :=
  let (bus, reader) := p.bus.subscribe
  { p with bus, forwarder := some { reader } }

def startDispatcher (p : Program ω) (rules : List Rule) : Program ω :=
  let (bus, reader) := p.bus.subscribe
  { p with bus, dispatcher := some ({ rules }, reader) }

def afterTelling (p : Program ω) (heard : Bool) : Program ω :=
  let note := fun (e : Event) => if heard then p.heard ++ [e] else p.heard
  match p.stage with
  | .announcing => { p with stage := .loadingRules, heard := note .appPreStart }.startForwarder
  | .sayingReady => { p with stage := .running, heard := note .appReady }
  | .sayingExit => { p with stage := .ended none, heard := note .appExit }
  | _ => p

def afterRules (p : Program ω) (answer : Except Failure (List Rule)) : Program ω :=
  match p.stage, answer with
  | .loadingRules, .ok rules =>
    { p.startDispatcher rules with
      stage := if p.config.link.enabled then .bindingLink else .bindingMail }
  | .loadingRules, .error cause => { p with stage := .ended (some { cause }) }
  | _, _ => p

def bindEvent (c : Config) (port : UInt16) : Event := .smtpServerBind c.mail.address port

def afterMailBound (p : Program ω) (answer : Except SystemFault UInt16) : Program ω :=
  match p.stage, answer with
  | .bindingMail, .ok port =>
    let bound := { p with mail := some {} }.publishAll [bindEvent p.config port]
    bound.tell .appReady .sayingReady .running
  | .bindingMail, .error fault =>
    { p with
      stage := .ended (some { context := some "starting SMTP server", cause := .system fault }) }
  | _, _ => p

def onMail (keep : Smtp.Keep ω) (p : Program ω) (l : Listener.Label) : Program ω :=
  match p.mail with
  | none => p
  | some mail =>
    let protocol := Smtp.Service.protocol .standard p.setup keep
    let (mail, desk) := mail.step protocol {} p.config.idleTimeoutMillis? { store := p.world } l
    { p with mail := some mail, world := desk.store }.publishAll desk.events

def intake (ids : Nat → Nat → Uuid) : LineProtocol (Unit × List Event) :=
  (Event.intake ids).within (·.2) fun t events => (t.1, events)

def onLink (p : Program ω) (l : Listener.Label) (ids : Nat → Nat → Uuid) : Program ω :=
  match p.link with
  | none => p
  | some link =>
    let (link, events) := link.step (intake ids) () none [] l
    { p with link := some link }.publishAll events

def onDispatcher (p : Program ω) (now : Nat) (l : Dispatcher.Label) : Program ω :=
  match p.dispatcher with
  | none => p
  | some (d, reader) =>
    let d' := d.step now l
    { p with dispatcher := some (d', reader) }.publishAll (d'.announced.drop d.announced.length)

def deliver (p : Program ω) : Program ω :=
  match p.dispatcher with
  | none => p
  | some (d, reader) =>
    if d.loop = .serving ∧ d.inbox = [] then
      match p.bus.receive reader with
      | (bus, .event e) => { p with bus, dispatcher := some (d.step 0 (.arrive e), reader) }
      | (bus, .pending) => { p with bus }
      | (bus, .closed) => { p with bus, dispatcher := some (d.step 0 .disconnect, reader) }
    else p

def forward (p : Program ω) : Program ω :=
  match p.forwarder with
  | none => p
  | some f =>
    if f.isRunning ∧ f.sending = none then
      match p.bus.receive f.reader with
      | (bus, .event e) =>
        if e.isPassedOn then
          { p with bus, forwarder := some { f with sending := some e }, told := p.told ++ [e] }
        else { p with bus }
      | (bus, .pending) => { p with bus }
      | (bus, .closed) => { p with bus, forwarder := some { f with isRunning := false } }
    else p

def afterForwarding (p : Program ω) (heard : Bool) : Program ω :=
  match p.forwarder with
  | none => p
  | some f => match f.sending with
    | none => p
    | some e =>
      { p with
        forwarder := some { f with sending := none }
        heard := if heard then p.heard ++ [e] else p.heard }

/-- The forwarder sees that it is to end; an event that it is telling is told to the end first. -/
def forwarderLeaves (p : Program ω) : Program ω :=
  match p.forwarder with
  | none => p
  | some f =>
    if p.stopping ∧ f.sending = none then { p with forwarder := some { f with isRunning := false } }
    else p

/-- Whether a part has ended; one that was never set up has. -/
def hasEnded (p : Program ω) : Part → Bool
  | .mail => p.mail.all (·.phase = .returned)
  | .link => p.link.all (·.phase = .returned)
  | .dispatcher => p.dispatcher.all (·.1.loop = .ended)
  | .forwarder => p.forwarder.all (!·.isRunning)

def interrupt (keep : Smtp.Keep ω) (p : Program ω) : Program ω :=
  match p.stage with
  | .running =>
    let p := ((p.onMail keep .shutdown).onLink .shutdown fun _ _ => ⟨0⟩).onDispatcher 0 .shutdown
    { p with stage := .joining [.mail, .link, .dispatcher, .forwarder], stopping := true }
  | _ => p

def goOn (p : Program ω) : Program ω :=
  match p.stage with
  | .joining (_ :: []) => p.tell .appExit .sayingExit (.ended none)
  | .joining (_ :: parts) => { p with stage := .joining parts }
  | _ => p

def join (p : Program ω) : Program ω :=
  match p.stage with
  | .joining (part :: _) => if p.hasEnded part then p.goOn else p
  | _ => p

/-- One step; `keep` is how the store outside takes a message. That a part is to end is told by the
program alone, and so is what comes over the bus. Once the program has ended, nothing goes on. -/
def step (keep : Smtp.Keep ω) (p : Program ω) (l : Label ω) : Program ω :=
  if p.isEnded then p
  else match l with
  | .prepare => if p.stage = .preparing then p.tell .appPreStart .announcing .loadingRules else p
  | .told heard => p.afterTelling heard
  | .rules answer => p.afterRules answer
  | .linkBound answer =>
    if p.stage = .bindingLink then
      { p with stage := .bindingMail, link := if answer then some {} else none }
    else p
  | .mailBound answer => p.afterMailBound answer
  | .interrupt => p.interrupt keep
  | .joined => p.join
  | .graceOver => p.goOn
  | .mail l => if l = .shutdown then p else p.onMail keep l
  | .link l ids => if l = .shutdown then p else p.onLink l ids
  | .deliver => p.deliver
  | .dispatcher now l world => if l.isOwn then { p with world }.onDispatcher now l else p
  | .forward => p.forward
  | .forwarded heard => p.afterForwarding heard
  | .forwarderLeaves => p.forwarderLeaves

def steps (keep : Smtp.Keep ω) (p : Program ω) : List (Label ω) → Program ω
  | [] => p
  | l :: rest => steps keep (p.step keep l) rest

end Program

end Letterbox
