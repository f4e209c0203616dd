import Letterbox.Config.Launch
import Letterbox.Event.Link
import Letterbox.Host.Ending
import Letterbox.Program.Basic
import Letterbox.Program.Deferred
import Letterbox.Rule.File
import Letterbox.Smtp.Sending
import Letterbox.Store.Mailbox
import Std.Async.DNS
import Std.Async.Signal
import Std.Async.System
import Std.Async.TCP
import Std.Async.Timer
import Std.Sync.Mutex
import Std.Time

/-! # The program on a host

Threads that wait for the outside and tell the program what came of it, one label at a time; what
the program does then is decided by `Program.step` alone. Other programs cannot be started from
here, so that errands of that kind fail, and a sweep knows the messages that were stored since the
start. -/

namespace Letterbox.Outside

set_option autoImplicit false

open Std.Async

/-! ## Answers of the operating system -/

/-- The number of an error, which may have been negated on its way here. -/
def errorNumber (e : IO.Error) : Nat :=
  let n : UInt32 := match e with
    | .alreadyExists _ n _ | .noFileOrDirectory _ n _ | .invalidArgument _ n _
    | .permissionDenied _ n _ | .resourceExhausted _ n _
    | .inappropriateType _ n _ | .noSuchThing _ n _ | .interrupted _ n _ => n
    | .otherError n _ | .resourceBusy n _ | .resourceVanished n _ | .unsupportedOperation n _
    | .hardwareFault n _
    | .unsatisfiedConstraints n _ | .illegalOperation n _ | .protocolError n _
    | .timeExpired n _ => n
    | .unexpectedEof | .userError _ => 0
  if n < 0x80000000 then n.toNat else (0 - n).toNat

def faultOf (e : IO.Error) : SystemFault :=
  match errorNumber e with
  | 2 => .notFound
  | 13 => .permissionDenied
  | 17 => .alreadyExists
  | 20 => .notADirectory
  | 21 => .isADirectory
  | 98 => .addressInUse
  | 99 => .addressNotAvailable
  | 101 => .networkUnreachable
  | 111 => .connectionRefused
  | _ => .other (toString e)

def trying {α : Type} (act : IO α) : IO (Except SystemFault α) := do
  try return .ok (← act) catch e => return .error (faultOf e)

def readFile (path : String) : IO FileAnswer := trying do return (← IO.FS.readBinFile path).toList

def readFile? (path : String) : IO (Option FileAnswer) := do
  match ← readFile path with
  | .error .notFound => return none
  | file => return some file

/-! ## Connections -/

def onWire (a : SocketAddress) : Std.Net.SocketAddress :=
  match a.ip with
  | .v4 x => .v4 ⟨.ofParts x.a x.b x.c x.d, a.port⟩
  | .v6 x => .v6 ⟨⟨⟨x.groups.toArray, by simp [x.eight]⟩⟩, a.port⟩

def millis (n : Nat) : Std.Time.Millisecond.Offset := .ofNat n

/-- Connects, but does not wait longer than that; `none` if it took too long. -/
def dial (address : Std.Net.SocketAddress) (patience : Nat) : IO (Option TCP.Socket.Client) := do
  let client ← TCP.Socket.Client.mk
  let inTime := do client.connect address; return true
  let tooLate := do sleep (millis patience); return false
  return if ← (Async.race inTime tooLate).block then some client else none

def send (client : TCP.Socket.Client) (data : Bytes) : IO Unit := do
  unless data.isEmpty do (client.send ⟨data.toArray⟩).block

def receive (client : TCP.Socket.Client) (patience : Nat) : IO (Option (Option Bytes)) := do
  (do Selectable.one #[
    .case (client.recvSelector LineSession.readSize.toUInt64) fun data =>
      return some (data.map (·.toList)),
    .case (← Selector.sleep (millis patience)) fun () => return none] : Async _).block

def tell (c : Config) (e : Event) : IO Bool := do
  match c.uiEndpoint.socketAddress with
  | .error _ => return false
  | .ok address => try
      match ← dial (onWire address) c.link.publishTimeoutMillis with
      | none => return false
      | some client =>
        send client (Utf8.encode e.toFrame)
        client.shutdown.block
        return true
    catch _ => return false

/-- Goes on with a talk of which `written` bytes have been sent. -/
partial def converse (client : TCP.Socket.Client) (t : Smtp.Sending) (written : Nat) :
    IO Smtp.Sending := do
  send client (t.sent.drop written)
  if t.isEnded then return t
  match ← receive client 60000 with
  | none => return t.finish Smtp.Sending.never .silent
  | some none => return t.finish Smtp.Sending.never .ended
  | some (some data) => converse client (t.feed Smtp.Sending.never data) t.sent.length

def lookUp (host : String) (port : UInt16) : IO (List Std.Net.SocketAddress) := do
  match IpAddress.ofText? host with
  | some ip => return [onWire ⟨ip, port⟩]
  | none => return (← (DNS.getAddrInfo host "").block).toList.map fun
    | .v4 a => .v4 ⟨a, port⟩
    | .v6 a => .v6 ⟨a, port⟩

def handOn (name : String) (h : RelayHost) (e : Envelope) (message : Bytes) :
    IO (Except Failure Unit) := do
  let refused := fun (why : String) => Except.error (.transport ("connect to " ++ h.toText ++ why))
  let unknown := onWire ⟨.v4 .unspecified, 0⟩
  match ← trying (do dial ((← lookUp h.host h.port).headD unknown) 10000) with
  | .error fault => return refused (" failed: " ++ fault.message)
  | .ok none => return refused " timed out"
  | .ok (some client) =>
    let script := Smtp.Exchange.script name h.credentials e message
    match ← trying (converse client (.start Smtp.Sending.never script) 0) with
    | .ok t => return t.result?.getD (.ok ())
    | .error fault => return .error (.system fault)

/-! ## The site -/

structure Site where
  program : Std.Mutex (Program Deferred)
  config : Config
  stored : Std.Mutex (List StoredMessage)
  /-- When it all began, on the clock that only goes forward. -/
  began : Nat

namespace Site

def box (s : Site) : Mailbox := ⟨s.config.storage.messagePath⟩

def clock : IO Nat := return (← Std.Time.Timestamp.now).toNanosecondsSinceUnixEpoch.toInt.toNat

def newName : IO String := do
  let time := Std.Time.PlainDateTime.ofWallTime (.ofMilliseconds (millis ((← clock) / 1000000)))
  let digits := Text.digits? (time.format "uuuuMMddHHmmssSSS").toList
  return Mailbox.messageName (digits.getD 0) (← IO.rand 0 0xffffffff).toUInt32

def save (s : Site) (data : Bytes) : IO SaveAnswer := do
  let drafts := s.box.draftsOf
  match ← trying (IO.FS.createDirAll drafts) with
  | .error e =>
    return .error
      (.storage ("Failed to create directory " ++ Path.quoted drafts ++ ": " ++ e.message))
  | .ok () =>
    let name ← newName
    let path := Path.join s.box.base name
    let entry : StoredMessage := { path, name, size := data.length.toUInt64, createdAt := ← clock }
    match ← trying (do
      IO.FS.writeBinFile (Path.join drafts name) ⟨data.toArray⟩
      IO.FS.rename (Path.join drafts name) path) with
    | .error e => return .error (.system e)
    | .ok () =>
      s.stored.atomically (modify (· ++ [entry]))
      return .ok entry

def load (s : Site) (path : String) : IO (Except Failure Bytes) := do
  match s.box.checkContained path with
  | .error f => return .error f
  | .ok () => return (← readFile path).mapError .system

def delete (s : Site) (m : StoredMessage) : IO (Except Failure Unit) := do
  match s.box.checkContained m.path, ← trying (IO.FS.removeFile m.path) with
  | .error f, _ => return .error f
  | .ok (), .error e => return .error (.system e)
  | .ok (), .ok () =>
    s.stored.atomically (modify (·.filter (·.path ≠ m.path)))
    return .ok ()

def look {α : Type} (s : Site) (f : Program Deferred → α) : IO α :=
  s.program.atomically do return f (← get)

partial def act (s : Site) (l : Program.Label Deferred) : IO Unit := s.program.atomically go
where
  go : Std.AtomicT (Program Deferred) IO Unit := do
    let p ← get
    let after := p.step Deferred.keep l
    match after.world.wanted with
    | none => set { after with world := ({} : Deferred) }
    | some data =>
      let answer ← s.save data
      set { p with world := ({ answers := p.world.answers ++ [answer] } : Deferred) }
      go

def now (s : Site) : IO Nat := return (← IO.monoMsNow) - s.began

def dispatch (s : Site) (l : Dispatcher.Label) : IO Unit := do s.act (.dispatcher (← s.now) l {})

end Site

def start (act : IO Unit) : IO Unit := do let _ ← IO.asTask act .dedicated

def pause : IO Unit := IO.sleep 20

/-! ## Listeners -/

structure Port where
  wrap : Listener.Label → Program.Label Deferred
  phase : Program Deferred → Listener.Phase
  accepted : Program Deferred → Nat
  stage : Program Deferred → Nat → Visit.Stage
  sent : Program Deferred → Nat → Bytes

def Port.of {κ : Type} (wrap : Listener.Label → Program.Label Deferred)
    (listener : Program Deferred → Option (Listener κ)) : Port where
  wrap := wrap
  phase p := ((listener p).map (·.phase)).getD .returned
  accepted p := ((listener p).map (·.visits.length)).getD 0
  stage p id := (((listener p).bind (·.visit? id)).map (·.stage)).getD .gone
  sent p id := ((listener p).map (·.sentOn id)).getD []

def idsFrom (seed : Nat) (connection index : Nat) : Uuid :=
  ⟨BitVec.ofNat 128 (seed + connection * 0x10000000000 + index)⟩

def Port.mail : Port := .of .mail (·.mail)

def Port.link (seed : Nat) : Port := .of (fun l => .link l (idsFrom seed)) (·.link)

/-- Sends on what the program has sent on a connection beyond the first `written` bytes. -/
def forwardSent (s : Site) (port : Port) (client : TCP.Socket.Client) (id written : Nat) :
    IO Nat := do
  let sent ← s.look (port.sent · id)
  send client (sent.drop written)
  return sent.length

partial def attend (s : Site) (port : Port) (client : TCP.Socket.Client) (id written : Nat) :
    IO Unit := do
  let written ← forwardSent s port client id written
  match ← s.look (port.stage · id) with
  | .fresh => s.act (port.wrap (.begin id)); attend s port client id written
  | .reading =>
    let incoming : Incoming ← try match ← receive client 100 with
        | none => pure (.bytes [])
        | some none => pure .ended
        | some (some data) => pure (.bytes data)
      catch _ => pure .failed
    s.act (port.wrap (.read id incoming))
    attend s port client id written
  | .ended =>
    try client.shutdown.block catch _ => pure ()
    s.act (port.wrap (.leave id))
  | .gone => return ()

partial def listenOn (s : Site) (port : Port) (server : TCP.Socket.Server) : IO Unit := do
  let step := fun l => s.act (port.wrap l)
  match ← s.look port.phase with
  | .accepting =>
    let came ← (do Selectable.one #[
      .case server.acceptSelector fun client => return some client,
      .case (← Selector.sleep (millis 100)) fun () => return none] : Async _).block
    match came with
    | some client =>
      step .accept
      let id ← s.look port.accepted
      start (try attend s port client id 0 catch _ => do step (.read id .failed); step (.leave id))
    | none => step .retire
    listenOn s port server
  | .closing _ => step .closeNext; listenOn s port server
  | .draining => pause; step .drained; listenOn s port server
  | .returned => return ()

def bind (e : Endpoint) : IO (Except SystemFault TCP.Socket.Server) := do
  match e.socketAddress with
  | .error f => return .error (.other f.message)
  | .ok address => trying do
      let server ← TCP.Socket.Server.mk
      server.bind (onWire address)
      server.listen 128
      return server

def portOf (server : TCP.Socket.Server) : IO UInt16 := do
  match ← server.getSockName with
  | .v4 a => return a.port
  | .v6 a => return a.port

partial def watch (s : Site) (last nextReap : Nat) : IO Unit := do
  if ← s.look (·.isEnded) then return
  IO.sleep 100
  let now ← s.now
  s.act (.mail (.pass (now - last)))
  if now < nextReap then watch s now nextReap
  else
    s.act (.mail .tick)
    while !(← s.look fun p => (p.mail.map (·.examining)).getD [] |>.isEmpty) do
      s.act (.mail .examine)
    watch s now (now + Config.reapIntervalSecs * 1000)

/-! ## The dispatcher and the forwarder -/

def perform (s : Site) (e : Errand) (message : Bytes) : IO (Except Failure Unit) :=
  match e with
  | .relay host envelope _ => handOn s.config.server.hostname host envelope message
  | .invoke program _ =>
    return Ending.verdict program (.error (.other "Function not implemented (os error 38)"))

def task? (id : Nat) (p : Program Deferred) : Option Dispatcher.Task :=
  p.dispatcher.bind fun (d, _) => d.tasks.find? (·.id = id)

def taskStage? (id : Nat) (p : Program Deferred) : Option Dispatcher.Stage :=
  (task? id p).map (·.stage)

def sweepStage? (id : Nat) (p : Program Deferred) : Option Sweep.Stage :=
  p.dispatcher.bind fun (d, _) => (d.sweeps.find? (·.id = id)).map (·.sweep.stage)

partial def carryOut (s : Site) (id index : Nat) : IO Unit := do
  match ← s.look (taskStage? id) with
  | some (.running _ raw runs) => match runs[index]? with
    | some r => match r.trials.phase with
      | .trying => s.dispatch (.attempt id index (← perform s r.errand raw)); carryOut s id index
      | .pausing til =>
        if (← s.now) < til then pause else s.dispatch (.resume id index)
        carryOut s id index
      | .ended _ => return ()
    | none => return ()
  | _ => return ()

partial def workOn (s : Site) (id : Nat) : IO Unit := do
  match ← s.look (task? id) with
  | none => return ()
  | some t => match t.stage with
    | .waiting => s.dispatch (.begin id); workOn s id
    | .loading _ => s.dispatch (.load id (← s.load t.message.path)); workOn s id
    | .running _ _ runs =>
      let threads ← (List.range runs.length).mapM fun index =>
        IO.asTask (carryOut s id index) .dedicated
      for thread in threads do let _ ← IO.wait thread
      s.dispatch (.finish id)

partial def sweepOut (s : Site) (id : Nat) : IO Unit := do
  match ← s.look (sweepStage? id) with
  | none => return ()
  | some .waiting => s.dispatch (.beginSweep id); sweepOut s id
  | some (.listing ..) =>
    s.dispatch (.list id (← Site.clock) (.ok (← s.stored.atomically get))); sweepOut s id
  | some (.deleting _ m _ _ _) => s.dispatch (.delete id (← s.delete m)); sweepOut s id
  | some .finished => s.dispatch (.finishSweep id)

/-- What the dispatcher does next by itself; tasks numbered below `known` have their threads. -/
partial def runDispatcher (s : Site) (nextTick known : Nat) : IO Unit := do
  let some d ← s.look (·.dispatcher.map (·.1)) | return
  for t in d.tasks do if known ≤ t.id then start (workOn s t.id)
  for t in d.sweeps do if known ≤ t.id then start (sweepOut s t.id)
  let go := fun l => do s.dispatch l; runDispatcher s nextTick d.nextId
  if d.loop = .ended then return
  else if d.loop = .serving && d.stopping then go .leave
  else if d.loop = .serving && nextTick ≤ (← s.now) then
    s.dispatch .tick
    runDispatcher s (nextTick + max (s.config.rules.sweepIntervalSecs * 1000) 1000) d.nextId
  else if d.loop = .serving && !(d.inbox.isEmpty) then go .receive
  else if d.stopping then
    match d.tasks.map (·.id) ++ d.sweeps.map (·.id) with
    | id :: _ => go (.cancel id)
    | [] => go .join
  else
    s.act .deliver
    if (← s.look fun p => p.dispatcher.any (!·.1.inbox.isEmpty)) then pure () else pause
    runDispatcher s nextTick d.nextId

partial def runForwarder (s : Site) : IO Unit := do
  match ← s.look (·.forwarder) with
  | none => return ()
  | some f =>
    if !f.isRunning then return ()
    match f.sending with
    | some e => s.act (.forwarded (← tell s.config e))
    | none =>
      s.act .forward
      unless ← s.look fun p => p.forwarder.any (·.sending.isSome) do
        s.act .forwarderLeaves
        pause
    runForwarder s

/-! ## The course -/

partial def join (s : Site) (since : Nat) : IO Unit := do
  match ← s.look (·.stage) with
  | .joining parts =>
    s.act .joined
    let left ← s.look (·.stage)
    if left ≠ .joining parts then join s (← s.now)
    else if since + s.config.mail.shutdownGraceSecs * 1000 ≤ (← s.now) then
      s.act .graceOver; join s (← s.now)
    else pause; join s since
  | _ => return ()

def loadRules (c : Config) (seed : Nat) : IO (Except Failure (List Rule)) := do
  match c.rules.path with
  | none => return .ok []
  | some path => match ← readFile? path with
    | none => return .ok []
    | some file => return Rule.load (idsFrom seed 0) path file

/-- What has to be done before the program can go on to its next stage, until it is running, or it
ends. -/
partial def proceed (s : Site) (seed : Nat) : IO (Option Trouble) := do
  match ← s.look (·.stage) with
  | .preparing => s.act .prepare
  | .announcing => s.act (.told (← tell s.config .appPreStart)); start (runForwarder s)
  | .loadingRules => s.act (.rules (← loadRules s.config seed)); start (runDispatcher s 0 0)
  | .bindingLink => match ← bind s.config.serviceEndpoint with
    | .ok server => s.act (.linkBound true); start (listenOn s (.link seed) server)
    | .error _ => s.act (.linkBound false)
  | .bindingMail => match ← bind s.config.mailEndpoint with
    | .ok server => s.act (.mailBound (.ok (← portOf server))); start (listenOn s .mail server)
    | .error fault => s.act (.mailBound (.error fault))
  | .sayingReady => s.act (.told (← tell s.config .appReady))
  | .running =>
    let _ ← (← (← Signal.Waiter.mk .sigint false).wait).block
    s.act .interrupt
  | .joining _ => join s (← s.now)
  | .sayingExit => s.act (.told (← tell s.config .appExit))
  | .ended trouble => return trouble
  proceed s seed

def run (c : Config) : IO (Option Trouble) := do
  let program ← Std.Mutex.new (Program.start c {})
  let s : Site := { program, config := c, stored := ← Std.Mutex.new [], began := ← IO.monoMsNow }
  start (watch s 0 0)
  proceed s (← IO.rand 0 0xffffffffffffffffffffffffffffffff)

def report (t : Trouble) : IO UInt32 := do
  IO.eprintln ("Error: " ++ t.message)
  return 1

end Letterbox.Outside

open Letterbox in
def main (arguments : List String) : IO UInt32 := do
  match CommandLine.read arguments with
  | .error .help => IO.print CommandLine.helpText; return 0
  | .error (.fault f) => IO.eprintln ("error: " ++ f.message); return 2
  | .ok l =>
    let found ← match l.config with
      | some path => some <$> Outside.readFile path
      | none => Outside.readFile? Config.defaultFile
    match Config.launch (← Std.Async.System.getHostName) found l with
    | .error trouble => Outside.report trouble
    | .ok c => match ← Outside.run c with
      | some trouble => Outside.report trouble
      | none => return 0
