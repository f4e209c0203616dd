import Letterbox.Net.Channel

/-! # Lines

Bytes arrive in pieces of any size; a protocol is given whole lines. A line ends at a line feed, and
carriage returns are dropped wherever they stand. What is left without a line feed waits for the
next piece. -/

namespace Letterbox

set_option autoImplicit false

inductive Flow where
  | proceed
  | close
  | failed (failure : Failure)
deriving DecidableEq, Repr

namespace Lines

def lf : UInt8 := 10

def cr : UInt8 := 13

def dropReturns (bs : Bytes) : Bytes := bs.filter (· != cr)

def next? : Bytes → Option (Bytes × Bytes)
  | [] => none
  | b :: rest =>
    if b = lf then some ([], rest)
    else (next? rest).map fun (line, after) => (b :: line, after)

theorem length_of_next? {bs line after : Bytes} (h : next? bs = some (line, after)) :
    line.length + after.length + 1 = bs.length := by
  induction bs generalizing line after with
  | nil => simp [next?] at h
  | cons b rest ih =>
    unfold next? at h
    split at h
    · cases h; simp
    · obtain ⟨⟨l, a⟩, hl, he⟩ := Option.map_eq_some_iff.1 h
      cases he
      have := ih hl
      simp only [List.length_cons]
      omega

/-- Hands the complete lines of `pending` to `handle`, one after the other, until it does not want
to proceed. Answers the state, what is still pending, and how it went on. -/
def drain {σ : Type} (handle : σ → Bytes → σ × Flow) (s : σ) (pending : Bytes) : σ × Bytes × Flow :=
  match _h : next? pending with
  | none => (s, pending, .proceed)
  | some (line, after) =>
    match handle s line with
    | (s, .proceed) => drain handle s after
    | (s, flow) => (s, after, flow)
termination_by pending.length
decreasing_by
  have := length_of_next? _h
  omega

def feed {σ : Type} (handle : σ → Bytes → σ × Flow) (s : σ) (pending piece : Bytes) :
    σ × Bytes × Flow :=
  drain handle s (pending ++ dropReturns piece)

end Lines

/-- A protocol made of lines: how it opens, and what it does with each line. Its own state goes with
the channel that it writes to. -/
structure LineProtocol (τ : Type) where
  begin : Channel → τ → Channel × τ × Except Failure Unit
  line : Channel → τ → Bytes → Channel × τ × Flow

def LineProtocol.within {τ κ : Type} (get : τ → κ) (put : τ → κ → τ) (p : LineProtocol κ) :
    LineProtocol τ where
  begin channel t :=
    let (channel, k, result) := p.begin channel (get t)
    (channel, put t k, result)
  line channel t raw :=
    let (channel, k, flow) := p.line channel (get t) raw
    (channel, put t k, flow)

structure LineSession (τ : Type) where
  channel : Channel
  state : τ
  pending : Bytes := []

inductive Incoming where
  | bytes (data : Bytes)
  | ended
  | failed
  | closedMeanwhile (announce : Bool)
deriving DecidableEq, Repr

namespace LineSession

variable {τ : Type}

def begin (p : LineProtocol τ) (s : LineSession τ) : LineSession τ × Except Failure Unit :=
  let (channel, state, result) := p.begin s.channel s.state
  ({ s with channel, state }, result)

def feed (p : LineProtocol τ) (s : LineSession τ) (piece : Bytes) : LineSession τ × Flow :=
  let handle := fun (cs : Channel × τ) line =>
    let (channel, state, flow) := p.line cs.1 cs.2 line
    ((channel, state), flow)
  let ((channel, state), pending, flow) := Lines.feed handle (s.channel, s.state) s.pending piece
  ({ channel, state, pending }, flow)

def readSize : Nat := 8192

def receive (p : LineProtocol τ) (s : LineSession τ) : List Incoming → LineSession τ
  | [] => s
  | incoming :: rest =>
    if s.channel.connection.isOpen then
      match incoming with
      | .ended | .failed => s
      | .closedMeanwhile announce => { s with channel := s.channel.close announce }
      | .bytes [] => receive p s rest
      | .bytes data =>
        match feed p { s with channel := s.channel.touch } data with
        | (s, .proceed) => receive p s rest
        | (s, _) => s
    else s

/-- The whole life of a connection. It ends closed, with the end announced unless it was closed
before without. The answer also says whether the writing side was shut down in order, which is not
done when the protocol could not open. -/
def run (p : LineProtocol τ) (s : LineSession τ) (input : List Incoming) : LineSession τ × Bool :=
  match begin p s with
  | (s, .error _) => ({ s with channel := s.channel.close true }, false)
  | (s, .ok ()) =>
    let s := receive p s input
    ({ s with channel := s.channel.close true }, true)

end LineSession

end Letterbox
