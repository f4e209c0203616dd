import Letterbox.Proofs.Net.Reassembly
import Letterbox.Proofs.Smtp.Effects
import Letterbox.Smtp.Receiver

/-!
# Transcripts of mail sessions

A session on a channel that takes whatever is sent is a row of turns: the client says a line, and
something comes of it. The transcript is kept by a machine without a channel (`Talk`); the bytes
sent, the messages saved and the events announced are all read off it.
-/

namespace Letterbox

set_option autoImplicit false

open Lines

structure Channel.TakesAll (c : Channel) : Prop where
  isOpen : c.connection.isOpen = true
  refuses : ∀ sent data, c.refuses sent data = none

namespace Channel

variable {c : Channel}

theorem TakesAll.setEncoding (h : c.TakesAll) (e : Encoding) : (c.setEncoding e).TakesAll :=
  ⟨h.isOpen, h.refuses⟩

theorem TakesAll.touch (h : c.TakesAll) : c.touch.TakesAll := ⟨h.isOpen, h.refuses⟩

theorem TakesAll.sendText (h : c.TakesAll) (s : String) :
    c.sendText s =
      ({ c.touch with sent := c.sent ++ c.connection.encoding.encode s }, .ok ()) := by
  simp only [Channel.sendText, Channel.send, h.refuses, Connection.send, h.isOpen, if_true]
  rfl

end Channel

def Incoming.received : List Incoming → Bytes
  | .bytes data :: rest => data ++ received rest
  | _ => []

namespace Smtp

def Response.wire (r : Response) : Bytes :=
  (r.reply.map fun reply => r.encoding.encode reply.format).getD []

structure Turn where
  raw : Bytes
  encoding : Encoding
  /-- The store's, which counts only where it was asked. -/
  answer : SaveAnswer
  response : Response

namespace Turn

def text (t : Turn) : String := t.encoding.decode t.raw

def kind? (t : Turn) : Option CommandKind := CommandKind.ofVerb? (splitVerb t.text).1

def address? (t : Turn) (keyword : String) : Option String :=
  pathAddress? keyword (splitVerb t.text).2

def code? (t : Turn) : Option Nat := t.response.reply.map (·.code)

def save? (t : Turn) : Option (Bytes × SaveAnswer) := t.response.saved.map (·, t.answer)

end Turn

/-- A session without its channel, and the turns that it has had. -/
structure Talk (ω : Type) where
  encoding : Encoding := .latin1
  service : Service ω
  turns : List Turn := []

variable {ω : Type} (chain : CommandChain) (setup : Setup) (keep : Keep ω)

namespace Talk

def turn (k : Talk ω) (raw : Bytes) : Turn :=
  let answer := (k.service.ask keep raw).1
  ⟨raw, k.encoding, answer, (k.service.1.line chain setup k.encoding raw answer).2⟩

def hear (k : Talk ω) (raw : Bytes) : Talk ω × Flow :=
  let (answer, store) := k.service.ask keep raw
  let (receiver, response) := k.service.1.line chain setup k.encoding raw answer
  ({ encoding := response.encoding
     service := (receiver, { store, events := k.service.2.events ++ response.event.toList })
     turns := k.turns ++ [⟨raw, k.encoding, answer, response⟩] }, response.flow)

/-- The talk after as many of the lines as are listened to. -/
def hearAll (k : Talk ω) (ls : List Bytes) : Talk ω := (handover (hear chain setup keep) k ls).state

@[simp] theorem turns_hear (k : Talk ω) (raw : Bytes) :
    (k.hear chain setup keep raw).1.turns = k.turns ++ [k.turn chain setup keep raw] := rfl

@[simp] theorem encoding_hear (k : Talk ω) (raw : Bytes) :
    (k.hear chain setup keep raw).1.encoding = (k.turn chain setup keep raw).response.encoding :=
  rfl

@[simp] theorem receiver_hear (k : Talk ω) (raw : Bytes) :
    (k.hear chain setup keep raw).1.service.1 =
      (k.service.1.line chain setup k.encoding raw (k.service.ask keep raw).1).1 := rfl

@[simp] theorem events_hear (k : Talk ω) (raw : Bytes) :
    (k.hear chain setup keep raw).1.service.2.events =
      k.service.2.events ++ (k.turn chain setup keep raw).response.event.toList := rfl

@[simp] theorem store_hear (k : Talk ω) (raw : Bytes) :
    (k.hear chain setup keep raw).1.service.2.store = (k.service.ask keep raw).2 := rfl

end Talk

/-- A channel at which everything was sent that the turns of a talk send, behind `sent`. -/
structure Carries (sent : Bytes) (s : Channel × Service ω) (k : Talk ω) : Prop where
  takesAll : s.1.TakesAll
  encoding : s.1.connection.encoding = k.encoding
  sent : s.1.sent = sent ++ k.turns.flatMap (·.response.wire)
  service : s.2 = k.service

theorem deliver_of_takesAll {channel : Channel} (h : channel.TakesAll) (v : Service ω)
    (response : Response) :
    ∃ channel', Service.deliver channel v response = (channel', v, response.flow) ∧
      channel'.TakesAll ∧ channel'.connection.encoding = response.encoding ∧
      channel'.sent = channel.sent ++ response.wire := by
  have hset := h.setEncoding response.encoding
  cases hreply : response.reply with
  | none =>
    refine ⟨_, by simp only [Service.deliver, hreply], hset, rfl, ?_⟩
    simp only [Response.wire, hreply, Option.map_none, Option.getD_none, List.append_nil]
    rfl
  | some reply =>
    refine ⟨_, by simp only [Service.deliver, hreply, hset.sendText]; rfl, ?_, rfl, ?_⟩
    · exact ⟨h.isOpen, h.refuses⟩
    · simp only [Response.wire, hreply, Option.map_some, Option.getD_some]
      rfl

/-- With a far side that takes everything, a line is answered as in a talk. -/
theorem Carries.line {sent : Bytes} {s : Channel × Service ω} {k : Talk ω} (h : Carries sent s k)
    (raw : Bytes) :
    Carries sent ((Service.protocol chain setup keep).handle s raw).1
        (k.hear chain setup keep raw).1 ∧
      ((Service.protocol chain setup keep).handle s raw).2 = (k.hear chain setup keep raw).2 := by
  obtain ⟨channel, v⟩ := s
  obtain ⟨hopen, hencoding, hsent, hservice⟩ := h
  dsimp only at hopen hencoding hsent hservice
  subst hservice
  obtain ⟨channel', hdeliver, htakes, hnew, hwire⟩ := deliver_of_takesAll hopen
    (k.hear chain setup keep raw).1.service (k.turn chain setup keep raw).response
  have hline : (Service.protocol chain setup keep).handle (channel, k.service) raw =
      ((channel', (k.hear chain setup keep raw).1.service), (k.hear chain setup keep raw).2) := by
    simp only [LineProtocol.handle, Service.protocol, Service.line, hencoding]
    exact congrArg (fun r : Channel × Service ω × Flow => ((r.1, r.2.1), r.2.2)) hdeliver
  rw [hline]
  refine ⟨⟨htakes, hnew, ?_, rfl⟩, rfl⟩
  rw [hwire, hsent, Talk.turns_hear, List.flatMap_append, List.flatMap_singleton,
    List.append_assoc]

theorem Carries.handover {sent : Bytes} {s : Channel × Service ω} {k : Talk ω}
    (h : Carries sent s k) (ls : List Bytes) :
    let there := Lines.handover (Service.protocol chain setup keep).handle s ls
    let here := Lines.handover (Talk.hear chain setup keep) k ls
    Carries sent there.state here.state ∧ there.handed = here.handed ∧ there.flow = here.flow :=
  handover_related _ _ (fun _ _ l hk => hk.line chain setup keep l) h ls

/-- The lines of what is received, and no others, are listened to. -/
theorem receive_carries {sent : Bytes} {s : LineSession (Service ω)} {k : Talk ω}
    (h : Carries sent (s.channel, s.state) k) (hp : lf ∉ s.pending) (input : List Incoming) :
    let r := LineSession.receive (Service.protocol chain setup keep) s input
    let k' :=
      k.hearAll chain setup keep (lines (s.pending ++ dropReturns (Incoming.received input)))
    r.state = k'.service ∧ r.channel.sent = sent ++ k'.turns.flatMap (·.response.wire) := by
  induction input generalizing s k with
  | nil =>
    simp only [Incoming.received, dropReturns_nil, List.append_nil, lines_of_not_mem hp]
    exact ⟨h.service, h.sent⟩
  | cons incoming rest ih =>
    have hopen : s.channel.connection.isOpen = true := h.takesAll.isOpen
    cases incoming with
    | ended | failed | closedMeanwhile =>
      simp only [LineSession.receive, hopen, if_true, Incoming.received, dropReturns_nil,
        List.append_nil,
        lines_of_not_mem hp]
      exact ⟨h.service, h.sent⟩
    | bytes data =>
      by_cases hdata : data = []
      · subst hdata
        simp only [LineSession.receive, hopen, if_true, Incoming.received, List.nil_append]
        exact ih h hp
      have htouch : Carries sent ({ s with channel := s.channel.touch }.channel, s.state) k :=
        ⟨h.takesAll.touch, h.encoding, h.sent, h.service⟩
      obtain ⟨hstate, hflow, hpending⟩ := LineSession.feed_eq_handover
        (Service.protocol chain setup keep) { s with channel := s.channel.touch } data
      dsimp only at hstate hflow hpending ⊢
      rw [Incoming.received, dropReturns_append, ← List.append_assoc]
      generalize s.pending ++ dropReturns data = b at hstate hflow hpending ⊢
      obtain ⟨hcarries, -, hsame⟩ := htouch.handover chain setup keep (lines b)
      obtain ⟨t, flow, ht⟩ : ∃ t flow, LineSession.feed (Service.protocol chain setup keep)
        { s with channel := s.channel.touch } data = (t, flow) := ⟨_, _, rfl⟩
      rw [ht] at hstate hflow hpending
      rw [← hstate] at hcarries
      rw [Talk.hearAll, lines_append b]
      by_cases hf : flow = .proceed
      · subst hf
        have hb := hpending hflow.symm
        have htail : lf ∉ t.pending := hb ▸ not_mem_remainder b
        rw [handover_append_of_proceed _ _ (hsame.symm.trans hflow.symm), ← hb]
        simp only [LineSession.receive, hopen, if_true, ht]
        exact ih hcarries htail
      · rw [handover_append_of_stop _ _ (fun hk => hf (hflow.trans (hsame.trans hk)))]
        have hstop : LineSession.receive (Service.protocol chain setup keep) s
            (.bytes data :: rest) = t := by
          cases flow with
          | proceed => exact absurd rfl hf
          | close | failed => simp only [LineSession.receive, hopen, if_true, ht]
        rw [hstop]
        exact ⟨hcarries.service, hcarries.sent⟩

end Smtp

end Letterbox
