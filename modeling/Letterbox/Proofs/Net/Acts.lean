import Letterbox.Proofs.Net.Happenings
import Letterbox.Event.Intake
import Letterbox.Smtp.Receiver

/-!
# What is done to a connection

Whoever holds a connection can close it, touch it, choose its encoding and send on it. A send that
was begun counts when it ends, which may be long after, and whatever was done to the connection in
between. Two things can be told from the acts alone: of the calls that close the connection the
first decides, and the last act that moves bytes gives the time of the last activity.
-/

set_option autoImplicit false

namespace Letterbox

namespace Connection

/-- How a send ends that is under way. -/
inductive SendEnd where
  | done
  | refused (text : String)
  | stopped
deriving DecidableEq, Repr

def endSend (c : Connection) (now : Nat) : SendEnd → Connection × Except Failure Unit
  | .done => (c.touch now, .ok ())
  | .refused text => (c.close true, .error (.transport text))
  | .stopped => (c.close true, .error (.transport s!"connection {c.id} closed during write"))

inductive Act where
  | close (announce : Bool)
  | touch
  | setEncoding (e : Encoding)
  | sendEnds (e : SendEnd)
deriving DecidableEq, Repr

namespace Act

/-- Whether an act is a call that closes the connection, and if it is, whether it asks for the end
to be announced. -/
def asks? : Act → Option Bool
  | close announce => some announce
  | sendEnds (.refused _) | sendEnds .stopped => some true
  | sendEnds .done | touch | setEncoding _ => none

def isActivity : Act → Bool
  | touch | sendEnds .done => true
  | close _ | setEncoding _ | sendEnds (.refused _) | sendEnds .stopped => false

end Act

def act (c : Connection) (now : Nat) : Act → Connection
  | .close announce => c.close announce
  | .touch => c.touch now
  | .setEncoding e => c.setEncoding e
  | .sendEnds e => (c.endSend now e).1

def actAll (c : Connection) (acts : List (Nat × Act)) : Connection :=
  acts.foldl (fun c a => c.act a.1 a.2) c

variable (c : Connection) (now : Nat)

theorem close_close (announce again : Bool) : (c.close announce).close again = c.close announce :=
  close_of_not_isOpen again (c.isOpen_close announce)

theorem id_close (announce : Bool) : (c.close announce).id = c.id := by
  unfold close
  split <;> rfl

theorem lastActivity_close (announce : Bool) :
    (c.close announce).lastActivity = c.lastActivity := by
  unfold close
  split <;> rfl

/-- A send that nothing comes between is begun and ended at once. -/
theorem send_eq (outcome : WriteEnd) :
    c.send now outcome =
      if c.isOpen then match outcome with
        | .done => c.endSend now .done
        | .refused text => c.endSend now (.refused text)
        | .closedMeanwhile announce => (c.close announce).endSend now .stopped
      else (c, .error c.closedFailure) := by
  unfold send
  split
  · cases outcome with
    | done | refused => rfl
    | closedMeanwhile announce => simp only [endSend, close_close, id_close]
  · rfl

/-- An act either closes the connection, if it is still open, or leaves that alone. -/
theorem act_cases (a : Act) :
    (∃ announce, a.asks? = some announce ∧ a.isActivity = false ∧
        c.act now a = c.close announce) ∨
      (a.asks? = none ∧ a.isActivity = true ∧ c.act now a = c.touch now) ∨
      (∃ e, a.asks? = none ∧ a.isActivity = false ∧ c.act now a = c.setEncoding e) := by
  cases a with
  | close announce => exact .inl ⟨announce, rfl, rfl, rfl⟩
  | touch => exact .inr (.inl ⟨rfl, rfl, rfl⟩)
  | setEncoding e => exact .inr (.inr ⟨e, rfl, rfl, rfl⟩)
  | sendEnds e =>
    cases e with
    | done => exact .inr (.inl ⟨rfl, rfl, rfl⟩)
    | refused | stopped => exact .inl ⟨true, rfl, rfl, rfl⟩

theorem id_act (a : Act) : (c.act now a).id = c.id := by
  rcases c.act_cases now a with ⟨announce, -, -, h⟩ | ⟨-, -, h⟩ | ⟨e, -, -, h⟩
  · rw [h, id_close]
  · rw [h]
    rfl
  · rw [h]
    rfl

theorem actAll_append (acts more : List (Nat × Act)) :
    c.actAll (acts ++ more) = (c.actAll acts).actAll more := List.foldl_append

theorem id_actAll (acts : List (Nat × Act)) : (c.actAll acts).id = c.id := by
  induction acts generalizing c with
  | nil => rfl
  | cons a acts ih => exact (ih _).trans (c.id_act a.1 a.2)

/-! ## Closing -/

/-- The state of a connection on which these calls of `close` were made, in their order: it is
closed once there was one, and the first of them decides whether its end is announced. -/
structure ClosedBy (asked : List Bool) (c : Connection) : Prop where
  isOpen : c.isOpen = asked.isEmpty
  cancelled : c.cancelled = !asked.isEmpty
  closeNotified : c.closeNotified = (asked.head? == some true)

variable {c} {asked : List Bool}

theorem ClosedBy.cancelled_iff (h : c.ClosedBy asked) : c.cancelled = true ↔ c.isOpen = false := by
  rw [h.cancelled, h.isOpen, Bool.not_eq_true']

theorem ClosedBy.close (h : c.ClosedBy asked) (announce : Bool) :
    (c.close announce).ClosedBy (asked ++ [announce]) := by
  obtain ⟨hopen, hcancelled, hnotified⟩ := h
  cases asked with
  | nil =>
    have hnow : c.close announce =
        { c with isOpen := false, cancelled := true, closeNotified := announce } := by
      have hopen : c.isOpen = true := hopen
      rw [Connection.close, if_pos hopen]
    rw [hnow]
    exact ⟨rfl, rfl, by cases announce <;> rfl⟩
  | cons first rest =>
    rw [close_of_not_isOpen announce hopen]
    exact ⟨hopen, hcancelled, hnotified⟩

theorem ClosedBy.act (h : c.ClosedBy asked) (now : Nat) (a : Act) :
    (c.act now a).ClosedBy (asked ++ a.asks?.toList) := by
  rcases c.act_cases now a with ⟨announce, hasks, -, hact⟩ | ⟨hasks, -, hact⟩ | ⟨e, hasks, -, hact⟩
  · rw [hact, hasks]
    exact h.close announce
  · rw [hact, hasks, Option.toList_none, List.append_nil]
    exact ⟨h.isOpen, h.cancelled, h.closeNotified⟩
  · rw [hact, hasks, Option.toList_none, List.append_nil]
    exact ⟨h.isOpen, h.cancelled, h.closeNotified⟩

def closings (acts : List (Nat × Act)) : List Bool := acts.filterMap (·.2.asks?)

theorem ClosedBy.actAll (h : c.ClosedBy asked) (acts : List (Nat × Act)) :
    (c.actAll acts).ClosedBy (asked ++ closings acts) := by
  induction acts generalizing c asked with
  | nil => exact (List.append_nil asked).symm ▸ h
  | cons a acts ih =>
    have hrest := ih (h.act a.1 a.2)
    have hcalls : closings (a :: acts) = a.2.asks?.toList ++ closings acts := by
      rw [closings, List.filterMap_cons]
      cases a.2.asks? <;> rfl
    rw [hcalls, ← List.append_assoc]
    exact hrest

/-! ## Activity -/

/-- The times at which bytes went over the connection. -/
def activity (acts : List (Nat × Act)) : List Nat := (acts.filter (·.2.isActivity)).map (·.1)

theorem lastActivity_act (c : Connection) (now : Nat) (a : Act) :
    (c.act now a).lastActivity = if a.isActivity then now else c.lastActivity := by
  rcases c.act_cases now a with ⟨announce, -, hquiet, hact⟩ | ⟨-, hactive, hact⟩ |
    ⟨e, -, hquiet, hact⟩
  · rw [hact, hquiet, lastActivity_close]
    rfl
  · rw [hact, hactive]
    rfl
  · rw [hact, hquiet]
    rfl

theorem lastActivity_actAll (c : Connection) (acts : List (Nat × Act)) :
    (c.actAll acts).lastActivity = (activity acts).getLastD c.lastActivity := by
  induction acts generalizing c with
  | nil => rfl
  | cons a acts ih =>
    change ((c.act a.1 a.2).actAll acts).lastActivity = _
    rw [ih, lastActivity_act, activity, activity, List.filter_cons]
    split
    · rw [List.map_cons, List.getLastD_cons]
    · rfl

end Connection

/-! ## Protocols that keep to these acts -/

/-- The channel has become another by sending, closing, touching and choosing the encoding, and by
nothing else. -/
inductive Channel.Reaches (c : Channel) : Channel → Prop where
  | refl : Reaches c c
  | send {d : Channel} (data : Bytes) : Reaches c d → Reaches c (d.send data).1
  | close {d : Channel} (announce : Bool) : Reaches c d → Reaches c (d.close announce)
  | touch {d : Channel} : Reaches c d → Reaches c d.touch
  | setEncoding {d : Channel} (e : Encoding) : Reaches c d → Reaches c (d.setEncoding e)

namespace Channel

variable {c d e : Channel}

theorem Reaches.trans (hcd : c.Reaches d) (hde : d.Reaches e) : c.Reaches e := by
  induction hde with
  | refl => exact hcd
  | send data _ ih => exact ih.send data
  | close announce _ ih => exact ih.close announce
  | touch _ ih => exact ih.touch
  | setEncoding e _ ih => exact ih.setEncoding e

theorem Reaches.sendText (h : c.Reaches d) (s : String) : c.Reaches (d.sendText s).1 :=
  h.send (d.connection.encoding.encode s)

end Channel

/-- A protocol that works its channel in no other way. -/
structure LineProtocol.Orderly {τ : Type} (p : LineProtocol τ) : Prop where
  begin : ∀ (c : Channel) t, c.Reaches (p.begin c t).1
  line : ∀ (c : Channel) t raw, c.Reaches (p.line c t raw).1

theorem LineProtocol.Orderly.within {τ κ : Type} {p : LineProtocol κ} (h : p.Orderly)
    (get : τ → κ) (put : τ → κ → τ) : (p.within get put).Orderly :=
  ⟨fun c t => h.begin c (get t), fun c t raw => h.line c (get t) raw⟩

theorem Event.orderly_intake (fresh : Nat → Nat → Uuid) : (Event.intake fresh).Orderly :=
  ⟨fun _ _ => Channel.Reaches.refl.setEncoding .utf8, fun _ _ _ => .refl⟩

section
open Smtp

variable {ω : Type}

theorem Smtp.Service.reaches_deliver (c : Channel) (v : Service ω) (response : Response) :
    c.Reaches (Service.deliver c v response).1 := by
  have hset := (Channel.Reaches.refl (c := c)).setEncoding response.encoding
  unfold Service.deliver
  split
  · exact hset
  · rename_i reply _
    have hsent := hset.sendText reply.format
    dsimp only
    split
    · rename_i h
      rwa [h] at hsent
    · rename_i h
      rwa [h] at hsent

theorem Smtp.Service.orderly_protocol (chain : CommandChain) (setup : Setup) (keep : Keep ω) :
    (Service.protocol chain setup keep).Orderly :=
  ⟨fun _ _ => Channel.Reaches.refl.sendText _, fun c _ _ => Service.reaches_deliver c _ _⟩

end

open Lines in
theorem LineSession.reaches_feed {τ : Type} {p : LineProtocol τ} (h : p.Orderly)
    (s : LineSession τ) (piece : Bytes) : s.channel.Reaches (feed p s piece).1.channel := by
  obtain ⟨hstate, -⟩ := feed_eq_handover p s piece
  have hreaches := handover_invariant p.handle (P := fun cs => s.channel.Reaches cs.1)
    (fun cs l hcs => hcs.trans (h.line cs.1 cs.2 l)) (s := (s.channel, s.state)) .refl
    (lines (s.pending ++ dropReturns piece))
  rw [← hstate] at hreaches
  exact hreaches

end Letterbox
