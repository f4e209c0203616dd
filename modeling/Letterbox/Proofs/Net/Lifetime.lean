import Letterbox.Net.Listener
import Letterbox.Proofs.Net.Acts

/-!
# The life of a connection

The line engine runs a session from one end to the other. Here its run is taken apart: whoever holds
the connection may do something to it between any two steps, a send may be under way while other
things happen, and may end well even on a connection that was closed meanwhile. However these steps
come one after the other, a connection is closed once, by the first call, which alone decides
whether its end is announced; and a run that ends, however it ends, leaves it closed.
-/

set_option autoImplicit false

namespace Letterbox

open Connection

inductive Leaving where
  | unopened
  | inputEnded
  | inputFailed
  | done
  | protocolFailed
  | cancelled
deriving DecidableEq, Repr

/-- A connection that is read, and what goes on at it. -/
structure Lifetime where
  connection : Connection
  written : Bytes := []
  /-- The sends under way, each with its number and what it has still to write. -/
  sends : List (Nat × Bytes) := []
  begun : Nat := 0
  stage : Visit.Stage := .fresh
  now : Nat := 0

namespace Lifetime

inductive Label where
  | send (data : Bytes)
  | sendText (text : String)
  | write (number count : Nat)
  | sendEnds (number : Nat) (e : SendEnd)
  | close (announce : Bool)
  | touch
  | setEncoding (e : Encoding)
  | opened
  | read (data : Bytes)
  | leave (why : Leaving)
  | pass (millis : Nat)
deriving DecidableEq, Repr

def Label.act? : Label → Option Act
  | close announce => some (.close announce)
  | touch | read _ => some .touch
  | setEncoding e => some (.setEncoding e)
  | sendEnds _ e => some (.sendEnds e)
  | leave _ => some (.close true)
  | send _ | sendText _ | write .. | opened | pass _ => none

def Label.toSend? (e : Encoding) : Label → Option Bytes
  | send data => some data
  | sendText text => some (e.encode text)
  | _ => none

def left? (s : Lifetime) (number : Nat) : Option Bytes := s.sends.lookup number

/-- Whether a step can be taken. A send is done when nothing is left of it, and sees that the
connection was closed only if it was; a connection is read, and left, while its protocol is open. -/
def possible (s : Lifetime) : Label → Bool
  | .send _ | .sendText _ => s.connection.isOpen
  | .write number _ => (s.left? number).isSome
  | .sendEnds number .done => s.left? number == some []
  | .sendEnds number (.refused _) => (s.left? number).isSome
  | .sendEnds number .stopped => (s.left? number).isSome && s.connection.cancelled
  | .opened | .leave .unopened => s.stage == .fresh
  | .read data => s.stage == .reading && !data.isEmpty
  | .leave .cancelled => s.stage == .reading && s.connection.cancelled
  | .leave _ => s.stage == .reading
  | .close _ | .touch | .setEncoding _ | .pass _ => true

/-- What a step does apart from the connection itself. -/
def note (s : Lifetime) : Label → Lifetime
  | .send data => { s with sends := s.sends ++ [(s.begun, data)], begun := s.begun + 1 }
  | .sendText text =>
    { s with
      sends := s.sends ++ [(s.begun, s.connection.encoding.encode text)]
      begun := s.begun + 1 }
  | .write number count =>
    { s with
      written := s.written ++ ((s.left? number).getD []).take count
      sends := s.sends.map fun x => if x.1 = number then (x.1, x.2.drop count) else x }
  | .sendEnds number _ => { s with sends := s.sends.filter (·.1 != number) }
  | .opened => { s with stage := .reading }
  | .leave _ => { s with stage := .ended }
  | .pass millis => { s with now := s.now + millis }
  | .close _ | .touch | .setEncoding _ | .read _ => s

def actsOf (s : Lifetime) (l : Label) : List (Nat × Act) :=
  if s.possible l then (l.act?.map (s.now, ·)).toList else []

def step (s : Lifetime) (l : Label) : Lifetime :=
  if s.possible l then { s.note l with connection := s.connection.actAll (s.actsOf l) } else s

def steps (s : Lifetime) (ls : List Label) : Lifetime := ls.foldl step s

def acts (s : Lifetime) : List Label → List (Nat × Act)
  | [] => []
  | l :: rest => s.actsOf l ++ acts (s.step l) rest

/-- What a send is answered, by the step that begins it on a closed connection or by the one that
ends it. -/
def answer? (s : Lifetime) (l : Label) : Option (Except Failure Unit) :=
  match l with
  | .send _ | .sendText _ =>
    if s.connection.isOpen then none else some (.error s.connection.closedFailure)
  | .sendEnds _ e => if s.possible l then some (s.connection.endSend s.now e).2 else none
  | _ => none

def made (id : Nat) (peer : Option SocketAddress) (now : Nat) : Lifetime :=
  { connection := { id, peer }, now }

variable (s : Lifetime) (l : Label)

theorem steps_append (ls more : List Label) :
    s.steps (ls ++ more) = (s.steps ls).steps more := List.foldl_append

/-! ## One step -/

theorem step_of_possible (h : s.possible l = true) :
    s.step l = { s.note l with connection := s.connection.actAll (s.actsOf l) } := by
  rw [step, if_pos h]

theorem step_of_impossible (h : s.possible l = false) : s.step l = s := by
  rw [step, h]
  rfl

theorem actsOf_of_impossible (h : s.possible l = false) : s.actsOf l = [] := by
  rw [actsOf, h]
  rfl

theorem connection_step : (s.step l).connection = s.connection.actAll (s.actsOf l) := by
  cases h : s.possible l with
  | true => rw [s.step_of_possible l h]
  | false =>
    rw [s.step_of_impossible l h, s.actsOf_of_impossible l h]
    rfl

theorem connection_steps (ls : List Label) :
    (s.steps ls).connection = s.connection.actAll (s.acts ls) := by
  induction ls generalizing s with
  | nil => rfl
  | cons l ls ih =>
    have hstep := ih (s.step l)
    rw [connection_step] at hstep
    rw [acts, actAll_append]
    exact hstep

theorem now_le_step : s.now ≤ (s.step l).now := by
  unfold step
  split
  · cases l with
    | pass millis => exact Nat.le_add_right _ _
    | _ => exact Nat.le_refl _
  · exact Nat.le_refl _

theorem actsOf_cases :
    s.actsOf l = [] ∨ ∃ a, s.possible l = true ∧ l.act? = some a ∧ s.actsOf l = [(s.now, a)] := by
  unfold actsOf
  split
  · rename_i h
    cases ha : l.act? with
    | none => exact .inl rfl
    | some a => exact .inr ⟨a, h, rfl, rfl⟩
  · exact .inl rfl

/-- Bytes go over the connection by a touch, a read or a send that is done, and by nothing else. -/
theorem lastActivity_step :
    (s.step l).connection.lastActivity = s.connection.lastActivity ∨
      ((s.step l).connection.lastActivity = s.now ∧
        (l = .touch ∨ (∃ data, l = .read data ∧ data ≠ [] ∧ s.stage = .reading) ∨
          ∃ number, l = .sendEnds number .done ∧ s.answer? l = some (.ok ()))) := by
  rcases s.actsOf_cases l with h | ⟨a, hpossible, ha, h⟩
  · rw [connection_step, h]
    exact .inl rfl
  have hlast : (s.step l).connection.lastActivity =
      if a.isActivity then s.now else s.connection.lastActivity := by
    rw [connection_step, h, ← lastActivity_act]
    rfl
  cases hactive : a.isActivity with
  | false => exact .inl (by rw [hlast, hactive]; rfl)
  | true =>
    refine .inr ⟨by rw [hlast, hactive]; rfl, ?_⟩
    cases l with
    | touch => exact .inl rfl
    | read data =>
      simp only [possible, Bool.and_eq_true, beq_iff_eq, Bool.not_eq_true',
        List.isEmpty_eq_false_iff] at hpossible
      exact .inr (.inl ⟨data, rfl, hpossible.2, hpossible.1⟩)
    | sendEnds number e =>
      cases ha
      cases e with
      | done => exact .inr (.inr ⟨number, rfl, by rw [answer?, if_pos hpossible]; rfl⟩)
      | refused | stopped => cases hactive
    | close | setEncoding | leave =>
      cases ha
      cases hactive
    | send | sendText | write | opened | pass => cases ha

variable {s l}

theorem step_acting {a : Act} (h : s.possible l = true) (ha : l.act? = some a) :
    s.step l = { s.note l with connection := s.connection.act s.now a } := by
  rw [step_of_possible _ _ h, actsOf, if_pos h, ha]
  rfl

theorem step_idle (h : s.possible l = true) (ha : l.act? = none) :
    s.step l = { s.note l with connection := s.connection } := by
  rw [step_of_possible _ _ h, actsOf, if_pos h, ha]
  rfl

/-- A send on a closed connection is answered at once, and does nothing. -/
theorem send_closed (hclosed : s.connection.isOpen = false) {data : Bytes}
    (hl : l.toSend? s.connection.encoding = some data) :
    s.answer? l = some (.error s.connection.closedFailure) ∧ s.step l = s := by
  have hanswer : s.answer? l = if s.connection.isOpen then none
      else some (.error s.connection.closedFailure) := by
    cases l with
    | send | sendText => rfl
    | _ => cases hl
  have hpossible : s.possible l = false := by
    cases l with
    | send | sendText => exact hclosed
    | _ => cases hl
  refine ⟨?_, s.step_of_impossible l hpossible⟩
  rw [hanswer, hclosed]
  rfl

/-- A send that fails leaves the connection closed, whether it was closed before or not. -/
theorem send_failed {f : Failure} (h : s.answer? l = some (.error f)) :
    (s.step l).connection.isOpen = false ∧ ∃ text, f = .transport text := by
  cases l with
  | send | sendText =>
    simp only [answer?] at h
    split at h
    · cases h
    · rename_i hopen
      have hclosed := Bool.eq_false_iff.mpr hopen
      cases h
      rw [(send_closed hclosed rfl).2]
      exact ⟨hclosed, _, rfl⟩
  | sendEnds number e =>
    simp only [answer?] at h
    split at h
    · rename_i hpossible
      rw [connection_step, actsOf, if_pos hpossible]
      cases e with
      | done => cases h
      | refused | stopped =>
        cases h
        exact ⟨isOpen_close _ true, _, rfl⟩
    · cases h
  | _ => cases h

theorem step_leave {why : Leaving} (h : s.possible (.leave why) = true) :
    s.step (.leave why) = { s with connection := s.connection.close true, stage := .ended } :=
  step_acting h rfl

theorem stage_step (h : (s.step l).stage = .ended) :
    s.stage = .ended ∨ closings (s.actsOf l) = [true] := by
  cases hpossible : s.possible l with
  | false =>
    rw [s.step_of_impossible l hpossible] at h
    exact .inl h
  | true =>
    cases l with
    | leave why =>
      rw [actsOf, if_pos hpossible]
      exact .inr rfl
    | opened =>
      rw [s.step_of_possible _ hpossible] at h
      cases h
    | _ =>
      rw [s.step_of_possible _ hpossible] at h
      exact .inl h

/-! ## Rows of steps -/

/-- What holds of a connection at any time, when these calls of `close` were made. -/
structure Kept (asked : List Bool) (s : Lifetime) : Prop where
  closedBy : s.connection.ClosedBy asked
  active : s.connection.lastActivity ≤ s.now
  left : s.stage = .ended → asked ≠ []

variable {asked : List Bool}

theorem kept_made (id : Nat) (peer : Option SocketAddress) (now : Nat) :
    (made id peer now).Kept [] :=
  ⟨⟨rfl, rfl, rfl⟩, Nat.zero_le now, nofun⟩

theorem Kept.step (h : s.Kept asked) (l : Label) :
    (s.step l).Kept (asked ++ closings (s.actsOf l)) := by
  have hnow := s.now_le_step l
  refine ⟨s.connection_step l ▸ h.closedBy.actAll _, ?_, fun hstage => ?_⟩
  · have hactive := h.active
    rcases s.lastActivity_step l with hsame | ⟨hlast, -⟩
    · omega
    · omega
  · rcases stage_step hstage with hended | hclosed
    · exact List.append_ne_nil_of_left_ne_nil (h.left hended) _
    · rw [hclosed]
      exact List.append_ne_nil_of_right_ne_nil _ (List.cons_ne_nil true [])

theorem Kept.steps (h : s.Kept asked) (ls : List Label) :
    (s.steps ls).Kept (asked ++ closings (s.acts ls)) := by
  induction ls generalizing s asked with
  | nil => exact (List.append_nil asked).symm ▸ h
  | cons l ls ih =>
    have hrest := ih (h.step l)
    rw [List.append_assoc] at hrest
    rw [acts, closings, List.filterMap_append]
    exact hrest

theorem Kept.isOpen (h : s.Kept asked) : s.connection.isOpen = false ↔ asked ≠ [] := by
  rw [h.closedBy.isOpen, List.isEmpty_eq_false_iff]

/-- A connection that is left is closed, and that was announced unless the first call did not ask
for it. -/
theorem Kept.announced (h : s.Kept asked) (hclosed : s.connection.isOpen = false) :
    s.connection.closeNotified = true ∨ asked.head? = some false := by
  cases asked with
  | nil => exact absurd rfl (h.isOpen.mp hclosed)
  | cons announce rest =>
    rw [h.closedBy.closeNotified]
    cases announce with
    | true => exact .inl rfl
    | false => exact .inr rfl

structure Heeds (s : Lifetime) (l : Label) : Prop where
  /-- A closed connection stays closed, and its end is not announced any more. -/
  closed : s.connection.isOpen = false → (s.step l).connection.isOpen = false ∧
    (s.step l).connection.closeNotified = s.connection.closeNotified
  /-- A send on it fails, and nothing comes of it. -/
  late : ∀ data, s.connection.isOpen = false → l.toSend? s.connection.encoding = some data →
    (∃ text, s.answer? l = some (.error (.transport text))) ∧ s.step l = s
  failed : ∀ f, s.answer? l = some (.error f) →
    (s.step l).connection.isOpen = false ∧ ∃ text, f = .transport text
  /-- The last activity is not taken back, and moves on just when bytes go over the connection. -/
  active : s.connection.lastActivity ≤ (s.step l).connection.lastActivity ∧
    ((s.step l).connection.lastActivity ≠ s.connection.lastActivity →
      (s.step l).connection.lastActivity = s.now ∧
        (l = .touch ∨ (∃ data, l = .read data ∧ data ≠ [] ∧ s.stage = .reading) ∨
          ∃ number, l = .sendEnds number .done ∧ s.answer? l = some (.ok ())))
  left : ∀ why, l = .leave why → s.possible l = true →
    (s.step l).stage = .ended ∧ (s.step l).connection.isOpen = false

theorem Kept.heeds (h : s.Kept asked) (l : Label) : s.Heeds l := by
  have hnext := h.step l
  refine ⟨fun hclosed => ?_, fun data hclosed hl => ?_, fun f => send_failed, ?_, ?_⟩
  · obtain ⟨first, rest, rfl⟩ := List.exists_cons_of_ne_nil (h.isOpen.mp hclosed)
    exact ⟨hnext.closedBy.isOpen, hnext.closedBy.closeNotified.trans h.closedBy.closeNotified.symm⟩
  · obtain ⟨hanswer, hstep⟩ := send_closed hclosed hl
    exact ⟨⟨_, hanswer⟩, hstep⟩
  · have hactive := h.active
    rcases s.lastActivity_step l with hsame | ⟨hlast, hmoved⟩
    · exact ⟨Nat.le_of_eq hsame.symm, fun hne => absurd hsame hne⟩
    · exact ⟨hlast ▸ hactive, fun _ => ⟨hlast, hmoved⟩⟩
  · rintro why rfl hpossible
    rw [step_leave hpossible]
    exact ⟨rfl, isOpen_close _ true⟩

/-! ## The line engine -/

/-- A lifetime at which no send is under way, as the engine sees it. -/
structure Shows (s : Lifetime) (c : Channel) : Prop where
  connection : s.connection = c.connection
  written : s.written = c.sent
  now : s.now = c.now
  sends : s.sends = []

/-- The lifetime comes to show this channel, by steps that belong to nobody's reading. -/
def Gets (s : Lifetime) (c : Channel) : Prop :=
  ∃ ls, (s.steps ls).Shows c ∧ (s.steps ls).stage = s.stage

variable {c d : Channel}

theorem Shows.gets (h : s.Shows c) : s.Gets c := ⟨[], h, rfl⟩

theorem Gets.trans (h : s.Gets c) (hnext : ∀ t : Lifetime, t.Shows c → t.Gets d) : s.Gets d := by
  obtain ⟨ls, hc, hstage⟩ := h
  obtain ⟨more, hd, hmore⟩ := hnext _ hc
  rw [← steps_append] at hd hmore
  exact ⟨ls ++ more, hd, hmore.trans hstage⟩

theorem Shows.gets_act (h : s.Shows c) {a : Act} (hact : l.act? = some a)
    (hpossible : s.possible l = true) (hnote : s.note l = s)
    (hd : d = { c with connection := c.connection.act c.now a }) : s.Gets d := by
  refine ⟨[l], ?_, ?_⟩
  · have hstep : s.steps [l] = { s with connection := s.connection.act s.now a } :=
      (step_acting hpossible hact).trans (by rw [hnote])
    rw [hstep, hd, h.connection, h.now]
    exact ⟨rfl, h.written, rfl, h.sends⟩
  · change (s.step l).stage = s.stage
    rw [step_of_possible _ _ hpossible, hnote]

theorem step_send (hopen : s.connection.isOpen = true) (hsends : s.sends = []) (data : Bytes) :
    s.step (.send data) = { s with sends := [(s.begun, data)], begun := s.begun + 1 } := by
  rw [step_idle (l := .send data) hopen rfl, note, hsends]
  rfl

theorem step_write {number : Nat} {data : Bytes} (hsends : s.sends = [(number, data)]) :
    s.step (.write number data.length) =
      { s with written := s.written ++ data, sends := [(number, [])] } := by
  have hleft : s.left? number = some data := by rw [left?, hsends, List.lookup_cons_self]
  have hpossible : s.possible (.write number data.length) = true := by
    rw [possible, hleft, Option.isSome_some]
  rw [step_idle hpossible rfl, note, hleft, hsends]
  simp

theorem step_sendEnds {number : Nat} {left : Bytes} {e : SendEnd}
    (hsends : s.sends = [(number, left)]) (hpossible : s.possible (.sendEnds number e) = true) :
    s.answer? (.sendEnds number e) = some (s.connection.endSend s.now e).2 ∧
      s.step (.sendEnds number e) =
        { s with connection := (s.connection.endSend s.now e).1, sends := [] } := by
  refine ⟨if_pos hpossible, ?_⟩
  rw [step_acting hpossible rfl, note, hsends]
  simp [act]

/-- Whatever becomes of a send, steps of a lifetime come to the same. It is begun, is written or is
not, perhaps the connection is closed, and then it ends; only on a closed connection it is answered
at once. -/
theorem exists_steps_send (hsends : s.sends = []) (data : Bytes) (outcome : WriteEnd) :
    ∃ ls l, (s.steps ls).answer? l = some (s.connection.send s.now outcome).2 ∧
      (s.steps ls).step l =
        { s with
          connection := (s.connection.send s.now outcome).1
          written := s.written ++ if s.connection.isOpen ∧ outcome = .done then data else []
          begun := s.begun + s.connection.isOpen.toNat } := by
  rw [send_eq]
  cases hopen : s.connection.isOpen with
  | false =>
    obtain ⟨hanswer, hstep⟩ := send_closed (l := .send data) hopen rfl
    exact ⟨[], .send data, hanswer, hstep.trans (by simp)⟩
  | true =>
    have hbegun := step_send hopen hsends data
    cases outcome with
    | done =>
      have hwritten : s.steps [.send data, .write s.begun data.length] =
          { s with
            written := s.written ++ data
            sends := [(s.begun, [])]
            begun := s.begun + 1 } := by
        change (s.step (.send data)).step (.write s.begun data.length) = _
        rw [hbegun, step_write rfl]
      refine ⟨[.send data, .write s.begun data.length], .sendEnds s.begun .done, ?_⟩
      rw [hwritten]
      obtain ⟨hanswer, hended⟩ := step_sendEnds
        (s := { s with
          written := s.written ++ data
          sends := [(s.begun, [])]
          begun := s.begun + 1 })
        rfl (e := .done) (by simp [possible, left?])
      exact ⟨hanswer, hended.trans (by simp [hsends])⟩
    | refused text =>
      have hpending : s.steps [.send data] =
          { s with sends := [(s.begun, data)], begun := s.begun + 1 } := hbegun
      refine ⟨[.send data], .sendEnds s.begun (.refused text), ?_⟩
      rw [hpending]
      obtain ⟨hanswer, hended⟩ := step_sendEnds
        (s := { s with sends := [(s.begun, data)], begun := s.begun + 1 })
        rfl (e := .refused text) (by simp [possible, left?])
      exact ⟨hanswer, hended.trans (by simp [hsends])⟩
    | closedMeanwhile announce =>
      have hclosed : s.steps [.send data, .close announce] =
          { s with
            connection := s.connection.close announce
            sends := [(s.begun, data)]
            begun := s.begun + 1 } := by
        change (s.step (.send data)).step (.close announce) = _
        rw [hbegun]
        rfl
      refine ⟨[.send data, .close announce], .sendEnds s.begun .stopped, ?_⟩
      rw [hclosed]
      obtain ⟨hanswer, hended⟩ := step_sendEnds
        (s := { s with
          connection := s.connection.close announce
          sends := [(s.begun, data)]
          begun := s.begun + 1 })
        rfl (e := .stopped) (by simp [possible, left?, Connection.close, hopen])
      exact ⟨hanswer, hended.trans (by simp [hsends])⟩

theorem Shows.gets_send (h : s.Shows c) (data : Bytes) : s.Gets (c.send data).1 := by
  obtain ⟨hconnection, hwritten, hnow, hsends⟩ := h
  have hgets (outcome : WriteEnd) {d : Channel}
      (hd : d = { c with
        connection := (c.connection.send c.now outcome).1
        sent := c.sent ++ if c.connection.isOpen ∧ outcome = .done then data else [] }) :
      s.Gets d := by
    obtain ⟨ls, l, -, hended⟩ := exists_steps_send hsends data outcome
    have hrow : s.steps (ls ++ [l]) = (s.steps ls).step l := s.steps_append ls [l]
    refine ⟨ls ++ [l], ?_, by rw [hrow, hended]⟩
    rw [hrow, hended, hd, hconnection, hwritten, hnow]
    exact ⟨rfl, rfl, rfl, hsends⟩
  rcases c.send_cases data with ⟨hopen, -, hsend⟩ | ⟨text, hopen, -, hsend⟩ | ⟨hopen, hsend⟩
  · exact hgets .done (by simp [hsend, Connection.send, hopen, Channel.touch])
  · exact hgets (.refused text) (by simp [hsend, Connection.send, hopen, Channel.close])
  · exact hgets .done (by simp [hsend, Connection.send, hopen])

/-- Whatever a channel is worked to by sending, closing, touching and choosing the encoding, steps
of a lifetime lead there. -/
theorem Shows.gets_of_reaches (h : s.Shows c) (hd : c.Reaches d) : s.Gets d := by
  induction hd with
  | refl => exact h.gets
  | send data _ ih => exact ih.trans fun t ht => ht.gets_send data
  | close announce _ ih =>
    exact ih.trans fun t ht => ht.gets_act (l := .close announce) rfl rfl rfl rfl
  | touch _ ih => exact ih.trans fun t ht => ht.gets_act (l := .touch) rfl rfl rfl rfl
  | setEncoding e _ ih =>
    exact ih.trans fun t ht => ht.gets_act (l := .setEncoding e) rfl rfl rfl rfl

section
variable {τ : Type} {p : LineProtocol τ} {why : Leaving}

/-- The lifetime is read to an end, which comes when it shows this channel. -/
def Leaves (s : Lifetime) (c : Channel) : Prop :=
  ∃ ls why, why ≠ .unopened ∧ (s.steps ls).possible (.leave why) = true ∧ (s.steps ls).Shows c

theorem Shows.leaves (h : s.Shows c) (why : Leaving) (hwhy : why ≠ .unopened)
    (hpossible : s.possible (.leave why) = true) : s.Leaves c := ⟨[], why, hwhy, hpossible, h⟩

theorem Leaves.of_steps (ls : List Label) (h : (s.steps ls).Leaves c) : s.Leaves c := by
  obtain ⟨more, why, hwhy, hpossible, hc⟩ := h
  rw [← steps_append] at hpossible hc
  exact ⟨ls ++ more, why, hwhy, hpossible, hc⟩

theorem possible_leave (hstage : s.stage = .reading) (hopened : why ≠ .unopened)
    (hcancelled : why ≠ .cancelled) : s.possible (.leave why) = true := by
  cases why with
  | unopened => exact absurd rfl hopened
  | cancelled => exact absurd rfl hcancelled
  | _ => simp only [possible, hstage, beq_self_eq_true]

theorem Kept.possible_leave_cancelled (h : s.Kept asked) (hstage : s.stage = .reading)
    (hclosed : s.connection.isOpen = false) : s.possible (.leave .cancelled) = true := by
  simp only [possible, hstage, beq_self_eq_true, Bool.true_and]
  exact h.closedBy.cancelled_iff.mpr hclosed

theorem Shows.read (h : s.Shows c) (hstage : s.stage = .reading) {data : Bytes}
    (hdata : data ≠ []) :
    (s.step (.read data)).Shows c.touch ∧ (s.step (.read data)).stage = .reading := by
  have hpossible : s.possible (.read data) = true := by
    simp only [possible, hstage, beq_self_eq_true, Bool.true_and, Bool.not_eq_true',
      List.isEmpty_eq_false_iff]
    exact hdata
  have hstep : s.step (.read data) = { s with connection := s.connection.touch s.now } :=
    step_acting hpossible rfl
  rw [hstep, h.connection, h.now]
  exact ⟨⟨rfl, h.written, rfl, h.sends⟩, hstage⟩

theorem Shows.leaves_receive (hp : p.Orderly) (session : LineSession τ)
    (h : s.Shows session.channel) (hkept : s.Kept asked) (hstage : s.stage = .reading)
    (input : List Incoming) : s.Leaves (session.receive p input).channel := by
  induction input generalizing s session asked with
  | nil => exact h.leaves .inputEnded (by decide) (possible_leave hstage (by decide) (by decide))
  | cons incoming rest ih =>
    by_cases hopen : session.channel.connection.isOpen = true
    · cases incoming with
      | ended =>
        simp only [LineSession.receive, hopen, if_true]
        exact h.leaves .inputEnded (by decide) (possible_leave hstage (by decide) (by decide))
      | failed =>
        simp only [LineSession.receive, hopen, if_true]
        exact h.leaves .inputFailed (by decide) (possible_leave hstage (by decide) (by decide))
      | closedMeanwhile announce =>
        simp only [LineSession.receive, hopen, if_true]
        have hgets : s.Gets (session.channel.close announce) :=
          h.gets_act (l := .close announce) rfl rfl rfl rfl
        obtain ⟨ls, hc, hsame⟩ := hgets
        -- the engine is at its read, and finds the connection closed by somebody else
        refine Leaves.of_steps ls (hc.leaves .cancelled (by decide) ?_)
        refine (hkept.steps ls).possible_leave_cancelled (hsame.trans hstage) ?_
        rw [hc.connection]
        exact isOpen_close _ announce
      | bytes data =>
        by_cases hdata : data = []
        · subst hdata
          simp only [LineSession.receive, hopen, if_true]
          exact ih session h hkept hstage
        -- the connection is touched before the protocol sees any of the bytes
        obtain ⟨hread, hreading⟩ := h.read hstage hdata
        obtain ⟨ls, hfed, hsame⟩ := hread.gets_of_reaches (LineSession.reaches_feed hp
          { session with channel := session.channel.touch } data)
        have hthere : (s.steps (.read data :: ls)).stage = .reading := hsame.trans hreading
        obtain ⟨t, flow, ht⟩ : ∃ t flow, LineSession.feed p
          { session with channel := session.channel.touch } data = (t, flow) := ⟨_, _, rfl⟩
        rw [ht] at hfed
        have hfed : (s.steps (.read data :: ls)).Shows t.channel := hfed
        refine Leaves.of_steps (.read data :: ls) ?_
        cases flow with
        | close =>
          simp only [LineSession.receive, hopen, if_true, ht]
          exact hfed.leaves .done (by decide) (possible_leave hthere (by decide) (by decide))
        | failed f =>
          simp only [LineSession.receive, hopen, if_true, ht]
          exact hfed.leaves .protocolFailed (by decide)
            (possible_leave hthere (by decide) (by decide))
        | proceed =>
          simp only [LineSession.receive, hopen, if_true, ht]
          exact ih t hfed (hkept.steps _) hthere
    · simp only [LineSession.receive, if_neg hopen]
      refine h.leaves .cancelled (by decide) (hkept.possible_leave_cancelled hstage ?_)
      rw [h.connection]
      exact Bool.eq_false_iff.mpr hopen

/-- The whole run of the engine. The protocol opens or it does not, and only then is there anything
to read. -/
theorem Shows.run (hp : p.Orderly) (session : LineSession τ) (h : s.Shows session.channel)
    (hkept : s.Kept asked) (hstage : s.stage = .fresh) (input : List Incoming) :
    ∃ ls why, (s.steps ls).possible (.leave why) = true ∧
      ((s.steps ls).step (.leave why)).Shows (session.run p input).1.channel ∧
      ((session.run p input).2 = true ↔ why ≠ .unopened) := by
  have hclose {t : Lifetime} {c : Channel} {why : Leaving} (ht : t.Shows c)
      (hpossible : t.possible (.leave why) = true) :
      (t.step (.leave why)).Shows (c.close true) := by
    rw [step_leave hpossible, ht.connection]
    exact ⟨rfl, ht.written, ht.now, ht.sends⟩
  have hbegun : s.Gets (session.begin p).1.channel :=
    h.gets_of_reaches (hp.begin session.channel session.state)
  obtain ⟨ls, hopening, hsame⟩ := hbegun
  have hfresh : (s.steps ls).stage = .fresh := hsame.trans hstage
  unfold LineSession.run
  split
  · rename_i t f ht
    rw [ht] at hopening
    have hpossible : (s.steps ls).possible (.leave .unopened) = true := by
      simp only [possible, hfresh, beq_self_eq_true]
    exact ⟨ls, .unopened, hpossible, hclose hopening hpossible, by simp⟩
  · rename_i t ht
    rw [ht] at hopening
    have hpossible : (s.steps ls).possible .opened = true := by
      simp only [possible, hfresh, beq_self_eq_true]
    have hopened : (s.steps ls).step .opened = { s.steps ls with stage := .reading } :=
      step_idle hpossible rfl
    have hreading : ((s.steps ls).step .opened).Shows t.channel := by
      rw [hopened]
      exact ⟨hopening.connection, hopening.written, hopening.now, hopening.sends⟩
    obtain ⟨more, why, hwhy, hleft, hshows⟩ :=
      hreading.leaves_receive hp t ((hkept.steps ls).step .opened) (by rw [hopened]) input
    have hrow : s.steps (ls ++ .opened :: more) = ((s.steps ls).step .opened).steps more :=
      s.steps_append ls (.opened :: more)
    rw [← hrow] at hleft hshows
    exact ⟨ls ++ .opened :: more, why, hleft, hclose hshows hleft, by simp [hwhy]⟩

end

/-- Of every run of the line engine the steps can be told, and the last of them leaves the
connection closed. -/
def Told {τ : Type} (p : LineProtocol τ) (id : Nat) (peer : Option SocketAddress) (start : Nat) :
    Prop :=
  ∀ (refuses : Bytes → Bytes → Option String) (state : τ) (input : List Incoming),
    let session : LineSession τ :=
      { channel := { connection := { id, peer }, refuses, now := start }, state }
    let ended := session.run p input
    ended.1.channel.connection.isOpen = false ∧
    ∃ ls why,
      let s := (made id peer start).steps ls
      s.possible (.leave why) = true ∧ (s.step (.leave why)).Shows ended.1.channel ∧
      (ended.2 = true ↔ why ≠ .unopened) ∧
      (ended.1.channel.connection.closeNotified = true ∨
        (closings ((made id peer start).acts ls)).head? = some false)

theorem told_of_orderly {τ : Type} {p : LineProtocol τ} (hp : p.Orderly) (id : Nat)
    (peer : Option SocketAddress) (start : Nat) : Told p id peer start := by
  intro refuses state input
  have hmade := kept_made id peer start
  obtain ⟨ls, why, hpossible, hshows, hshut⟩ := Shows.run (s := made id peer start) hp
    { channel := { connection := { id, peer }, refuses, now := start }, state }
    ⟨rfl, rfl, rfl, rfl⟩ hmade rfl input
  have hkept := hmade.steps ls
  rw [List.nil_append] at hkept
  have hleft := step_leave hpossible
  refine ⟨?_, ls, why, hpossible, hshows, hshut, ?_⟩
  · rw [← hshows.connection, hleft]
    exact isOpen_close _ true
  · rw [← hshows.connection, hleft]
    -- either the leaving itself closes the connection, or somebody did before
    cases hopen : ((made id peer start).steps ls).connection.isOpen with
    | true =>
      left
      simp only [Connection.close, hopen, if_true]
    | false =>
      rw [close_of_not_isOpen true hopen]
      exact hkept.announced hopen

/-! ### The protocols of the program -/

theorem told_mail {ω : Type} (chain : Smtp.CommandChain) (setup : Smtp.Setup) (keep : Smtp.Keep ω)
    (id : Nat) (peer : Option SocketAddress) (start : Nat) :
    Told (Smtp.Service.protocol chain setup keep) id peer start :=
  told_of_orderly (Smtp.Service.orderly_protocol chain setup keep) id peer start

theorem told_link (fresh : Nat → Nat → Uuid) (id : Nat) (peer : Option SocketAddress)
    (start : Nat) : Told (Event.intake fresh) id peer start :=
  told_of_orderly (Event.orderly_intake fresh) id peer start

/-- Whatever is done to a connection, by whom and in what order: the first call of `close` closes
it and decides whether its end is announced, and the last activity is that of the last bytes that
went over it. A send that nothing comes between is some of the steps. Of every run of the line
engine the steps can be told, and the last of them leaves the connection closed. -/
theorem first_close_decides {τ : Type} (p : LineProtocol τ) (hp : p.Orderly) (id : Nat)
    (peer : Option SocketAddress) (start : Nat) :
    (∀ ls : List Label,
      let s := (made id peer start).steps ls
      let did := (made id peer start).acts ls
      (s.connection.isOpen = false ↔ closings did ≠ []) ∧
      (s.connection.cancelled = true ↔ s.connection.isOpen = false) ∧
      (s.connection.closeNotified = true ↔ (closings did).head? = some true) ∧
      s.connection.lastActivity = (activity did).getLastD 0 ∧
      (s.stage = .ended → s.connection.isOpen = false ∧
        (s.connection.closeNotified = true ∨ (closings did).head? = some false)) ∧
      (∀ l, s.Heeds l) ∧
      (s.sends = [] → ∀ (data : Bytes) (outcome : WriteEnd), ∃ more l,
        let t := s.steps more
        t.answer? l = some (s.connection.send s.now outcome).2 ∧
        (t.step l).connection = (s.connection.send s.now outcome).1 ∧
        (t.step l).written =
          s.written ++ if s.connection.isOpen ∧ outcome = .done then data else [])) ∧
    ∀ (refuses : Bytes → Bytes → Option String) (state : τ) (input : List Incoming),
      let session : LineSession τ :=
        { channel := { connection := { id, peer }, refuses, now := start }, state }
      let ended := session.run p input
      ended.1.channel.connection.isOpen = false ∧
      ∃ ls why,
        let s := (made id peer start).steps ls
        s.possible (.leave why) = true ∧ (s.step (.leave why)).Shows ended.1.channel ∧
        (ended.2 = true ↔ why ≠ .unopened) ∧
        (ended.1.channel.connection.closeNotified = true ∨
          (closings ((made id peer start).acts ls)).head? = some false) := by
  have hmade := kept_made id peer start
  refine ⟨fun ls => ?_, told_of_orderly hp id peer start⟩
  have hkept := hmade.steps ls
  rw [List.nil_append] at hkept
  refine ⟨hkept.isOpen, hkept.closedBy.cancelled_iff, ?_, ?_, fun hstage => ?_, hkept.heeds,
    fun hsends data outcome => ?_⟩
  · rw [hkept.closedBy.closeNotified, beq_iff_eq]
  · rw [connection_steps, lastActivity_actAll]
    rfl
  · have hclosed := hkept.isOpen.mpr (hkept.left hstage)
    exact ⟨hclosed, hkept.announced hclosed⟩
  · obtain ⟨more, l, hanswer, hended⟩ := exists_steps_send hsends data outcome
    exact ⟨more, l, hanswer, congrArg connection hended, congrArg written hended⟩

/-- A send that is under way when the connection is closed without announcement sees that, and asks
for one in vain, as does the engine when it leaves. -/
theorem first_close_decides_silently :
    (Event.intake fun _ _ => ⟨0⟩).Orderly ∧
      let ls : List Label :=
        [.send [104], .opened, .pass 5, .read [72, 10], .write 0 1, .close false,
          .sendEnds 0 .stopped, .leave .cancelled]
      let s := (made 1 none 0).steps ls
      closings ((made 1 none 0).acts ls) = [false, true, true] ∧ s.stage = .ended ∧
        s.connection.isOpen = false ∧ s.connection.closeNotified = false ∧
        s.connection.lastActivity = 5 := by
  have hp := Event.orderly_intake fun _ _ => ⟨0⟩
  have hrow := (first_close_decides _ hp 1 none 0).1
    [.send [104], .opened, .pass 5, .read [72, 10], .write 0 1, .close false,
      .sendEnds 0 .stopped, .leave .cancelled]
  obtain ⟨-, -, hnotified, hactive, hended, -⟩ := hrow
  refine ⟨hp, rfl, rfl, (hended rfl).1, ?_, hactive⟩
  rw [Bool.eq_false_iff, ne_eq, hnotified]
  exact nofun

end Lifetime

end Letterbox
