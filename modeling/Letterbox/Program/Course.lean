import Letterbox.Program.Basic
import Letterbox.Program.Neighbourhood
import Letterbox.Rule.File

/-! # The course of the program

One way to choose the steps of the program in its neighbourhood: everything that can be done is done
at once, and the clock moves on only when everything waits and something is still expected. -/

namespace Letterbox

set_option autoImplicit false

structure Course where
  program : Program Neighbourhood
  taken : List UInt16
  ids : Nat → Uuid
  now : Nat := 0
  nextTick : Nat := 0

namespace Course

def stepTo (c : Course) (l : Program.Label Neighbourhood) : Course :=
  { c with program := c.program.step Neighbourhood.keep l }

def uiHears (c : Course) : Bool :=
  (Link.reach c.program.world.listening c.program.config.uiEndpoint).isOk

/-- The rules that the program begins with; a file that is not there means none. -/
def initialRules (c : Course) : Except Failure (List Rule) :=
  let d := c.program.world.disk
  match c.program.config.rules.path with
  | none => .ok []
  | some path => if d.pathExists path then Rule.load c.ids path (d.read path) else .ok []

def tryBind (used : List UInt16) (e : Endpoint) : Except SystemFault UInt16 :=
  match e.socketAddress with
  | .ok a => (Local.bind used a).map fun () => a.port
  | .error f => .error (.other f.message)

def used (c : Course) : List UInt16 :=
  c.taken ++ c.program.world.listening ++
    (if c.program.link.isSome then [c.program.config.link.servicePort] else [])

def mainLabel? (c : Course) : Option (Program.Label Neighbourhood) :=
  let p := c.program
  match p.stage with
  | .preparing => some .prepare
  | .announcing | .sayingReady | .sayingExit => some (.told c.uiHears)
  | .loadingRules => some (.rules c.initialRules)
  | .bindingLink => some (.linkBound (tryBind c.used p.config.serviceEndpoint).isOk)
  | .bindingMail => some (.mailBound (tryBind c.used p.config.mailEndpoint))
  | .joining (part :: _) => if p.hasEnded part then some .joined else none
  | .joining [] | .running | .ended _ => none

def hasNews (b : Bus) (reader : Nat) : Bool :=
  match (b.receive reader).2 with
  | .event _ => true
  | .pending | .closed => false

def forwarderLabel? (c : Course) : Option (Program.Label Neighbourhood) :=
  match c.program.forwarder with
  | none => none
  | some f =>
    if !f.isRunning then none
    else if f.sending.isSome then some (.forwarded c.uiHears)
    else if hasNews c.program.bus f.reader then some .forward
    else if c.program.stopping then some .forwarderLeaves
    else none

def clockwork? (c : Course) : Option (Clockwork Neighbourhood) :=
  c.program.dispatcher.map fun (d, _) =>
    { dispatcher := d, world := c.program.world, now := c.now, nextTick := c.nextTick
      period := max (c.program.config.rules.sweepIntervalSecs * 1000) 1000 }

def dispatcherMove? (c : Course) : Option (Clockwork.Move Neighbourhood) :=
  c.clockwork?.bind fun k => k.move? Neighbourhood.world

def canDeliver (c : Course) : Bool :=
  match c.program.dispatcher with
  | some (d, reader) => d.loop = .serving && d.inbox.isEmpty && hasNews c.program.bus reader
  | none => false

def advance? (c : Course) : Option Course :=
  if c.program.isEnded then none
  else match c.mainLabel? with
  | some l => some (c.stepTo l)
  | none => match c.forwarderLabel? with
    | some l => some (c.stepTo l)
    | none => match c.dispatcherMove? with
      | some m =>
        let period := (c.clockwork?.map (·.period)).getD 0
        let nextTick := match m.label with
          | .tick => c.nextTick + period
          | _ => c.nextTick
        some { c.stepTo (.dispatcher c.now m.label m.world) with nextTick }
      | none => if c.canDeliver then some (c.stepTo .deliver) else none

def settle : (fuel : Nat) → Course → Course
  | 0, c => c
  | fuel + 1, c => match c.advance? with
    | none => c
    | some c => settle fuel c

/-- Settles, and lets time go on as long as something is expected that has not come, but not beyond
`til`. -/
def await (expected : Course → Bool) (fuel til : Nat) : (turns : Nat) → Course → Course
  | 0, c => c.settle fuel
  | turns + 1, c =>
    let c := c.settle fuel
    if expected c then c
    else
      let times := (c.clockwork?.map (·.times Neighbourhood.world)).getD []
      match Clockwork.earliest? (times.filter (c.now < ·)) with
      | some t => if t ≤ til then await expected fuel til turns { c with now := t } else c
      | none => c

def mailSteps (c : Course) (ls : List Listener.Label) : Course :=
  ls.foldl (fun c l => c.stepTo (.mail l)) c

def linkSteps (c : Course) (ls : List Listener.Label) : Course :=
  ls.foldl (fun c l => c.stepTo (.link l fun _ => c.ids)) c

/-- What a guest at a port is answered, and the course after that; `stays` says whether the guest
stays. -/
def visit (c : Course) (port : UInt16) (said : Bytes) (stays : Bool) : Bytes × Course :=
  let script := fun id => (Listener.guest id said .ended).take (if stays then 3 else 5)
  let p := c.program
  if p.mail.isSome && port = p.config.mail.port then
    let id := (p.mail.map (·.visits.length)).getD 0 + 1
    let c := c.mailSteps (script id)
    ((c.program.mail.map (·.sentOn id)).getD [], c)
  else if p.link.isSome && port = p.config.link.servicePort then
    let id := (p.link.map (·.visits.length)).getD 0 + 1
    let c := c.linkSteps (script id)
    ((c.program.link.map (·.sentOn id)).getD [], c)
  else ([], c)

def interrupt (c : Course) : Course :=
  let c := c.stepTo .interrupt
  let c := c.mailSteps (((c.program.mail.map (·.windDown)).getD []).drop 1)
  c.linkSteps (((c.program.link.map (·.windDown)).getD []).drop 1)

end Course

end Letterbox
