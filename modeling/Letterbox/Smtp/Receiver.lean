import Letterbox.Event.Basic
import Letterbox.Net.Lines
import Letterbox.Smtp.Command
import Letterbox.Store.Entry

/-! # Receiving mail

The server side of an SMTP session as a machine on raw lines. For every line it says what is to be
saved, announced and replied, which encoding is in force from then on, and whether to go on. The
store's answer to a save is an input of the step, so that a run is determined by its lines and those
answers. -/

namespace Letterbox.Smtp

set_option autoImplicit false

inductive Mode where
  | commands
  /-- A line of the message; `overflowed` once the message has become too large to be kept. -/
  | data (overflowed : Bool)
deriving DecidableEq, Repr

structure Receiver where
  session : Session := {}
  mode : Mode := .commands
deriving DecidableEq, Repr

structure Response where
  saved : Option Bytes := none
  event : Option Event := none
  reply : Option Reply := none
  encoding : Encoding
  flow : Flow := .proceed
deriving DecidableEq, Repr

namespace Receiver

def maxCommandLine : Nat := 512

def encodingFor (utf8 : Bool) : Encoding := if utf8 then .utf8 else .latin1

def terminator : Bytes := [46]

def crlf : Bytes := [13, 10]

def unstuff (line : Bytes) : Bytes :=
  match line with
  | 46 :: 46 :: rest => 46 :: rest
  | _ => line

def toSave? (r : Receiver) (raw : Bytes) : Option Bytes :=
  match r.mode with
  | .data false => if raw = terminator then some r.session.message else none
  | .data true | .commands => none

/-- A line of the message, kept unless the message becomes larger than it may. -/
def capture (maxSize : Nat) (s : Session) (overflowed : Bool) (raw : Bytes) : Receiver :=
  let line := unstuff raw
  if overflowed then ⟨s, .data true⟩
  else if maxSize < s.message.length + line.length + 2 then ⟨{ s with message := [] }, .data true⟩
  else ⟨{ s with message := s.message ++ line ++ crlf }, .data false⟩

def announcement (s : Session) (entry : StoredMessage) : Event :=
  .newMessage
    { path := entry.path, sender := s.sender.getD "", recipients := s.recipients
      size := entry.size }

def complete (maxSize : Nat) (s : Session) (overflowed : Bool) (answer : SaveAnswer) : Response :=
  if overflowed then { reply := some (.tooLarge maxSize), encoding := .latin1 }
  else match answer with
    | .ok entry =>
      { saved := some s.message, event := some (announcement s entry)
        reply := some (.queued entry.name), encoding := .latin1 }
    | .error _ => { saved := some s.message, reply := some .notStored, encoding := .latin1 }

def flowAfter : Next → Flow
  | .proceed | .captureData => .proceed
  | .quit => .close

def modeAfter : Next → Mode
  | .captureData => .data false
  | .proceed | .quit => .commands

def command (chain : CommandChain) (setup : Setup) (e : Encoding) (s : Session) (line : String) :
    Receiver × Response :=
  if Text.blankText line then (⟨s, .commands⟩, { encoding := e })
  else
    let outcome := (chain.dispatch setup line s).outcome
    (⟨outcome.session, modeAfter outcome.next⟩,
      { reply := some outcome.reply, encoding := encodingFor outcome.session.utf8
        flow := flowAfter outcome.next })

/-- One line, read in the encoding `e`. The answer is the store's, if it is asked to save. -/
def line (chain : CommandChain) (setup : Setup) (e : Encoding) (r : Receiver) (raw : Bytes)
    (answer : SaveAnswer) : Receiver × Response :=
  match r.mode with
  | .data overflowed =>
    if raw = terminator then
      (⟨r.session.reset, .commands⟩, complete setup.maxSize r.session overflowed answer)
    else (capture setup.maxSize r.session overflowed raw, { encoding := e })
  | .commands =>
    if maxCommandLine < raw.length then (r, { reply := some .lineTooLong, encoding := e })
    else command chain setup e r.session (e.decode raw)

end Receiver

structure Desk (ω : Type) where
  store : ω
  events : List Event := []
deriving DecidableEq, Repr

abbrev Keep (ω : Type) := ω → Bytes → SaveAnswer × ω

abbrev Service (ω : Type) := Receiver × Desk ω

namespace Service

variable {ω : Type}

def ask (keep : Keep ω) (v : Service ω) (raw : Bytes) : SaveAnswer × ω :=
  match v.1.toSave? raw with
  | some data => keep v.2.store data
  | none => (.error (.storage ""), v.2.store)

/-- Sends the reply, if there is one. When it cannot be sent, the lines that follow are commands. -/
def deliver (channel : Channel) (v : Service ω) (response : Response) :
    Channel × Service ω × Flow :=
  let channel := channel.setEncoding response.encoding
  match response.reply with
  | none => (channel, v, response.flow)
  | some reply => match channel.sendText reply.format with
    | (channel, .ok ()) => (channel, v, response.flow)
    | (channel, .error f) => (channel, ({ v.1 with mode := .commands }, v.2), .failed f)

def line (chain : CommandChain) (setup : Setup) (keep : Keep ω) (channel : Channel) (v : Service ω)
    (raw : Bytes) : Channel × Service ω × Flow :=
  let (answer, store) := v.ask keep raw
  let (receiver, response) := v.1.line chain setup channel.connection.encoding raw answer
  deliver channel (receiver, { store, events := v.2.events ++ response.event.toList }) response

def protocol (chain : CommandChain) (setup : Setup) (keep : Keep ω) : LineProtocol (Service ω) where
  begin channel v :=
    let (channel, result) := channel.sendText (Reply.greeting setup.hostname).format
    (channel, v, result)
  line := line chain setup keep

end Service

end Letterbox.Smtp
