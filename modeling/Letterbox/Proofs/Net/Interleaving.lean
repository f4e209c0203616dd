import Mathlib.Data.List.Forall2
import Mathlib.Data.List.Nodup
import Letterbox.Net.Listener
import Letterbox.Proofs.Net.Acts

/-!
# Connections worked by many hands

In one step of a listener a task opens its protocol, or takes in a read and does all that comes of
it. The tasks go about this side by side: while one of them is at a line the clock goes on, other
connections are accepted, idle ones are looked for and the listener may be told to end. Here every
act on a connection is a move of its own, made by anybody at any time, and every row of steps of a
listener is matched by a row of such moves.
-/

set_option autoImplicit false

namespace Letterbox

variable {κ σ : Type}

namespace Visit

def connection (v : Visit κ) : Connection := v.session.channel.connection

def outside (v : Visit κ) : Connection × Stage := (v.connection, v.stage)

def act (v : Visit κ) (a : Connection.Act) : Visit κ :=
  v.onChannel fun c => { c with connection := c.connection.act c.now a }

def refuse (v : Visit κ) : Visit κ := if v.stage = .fresh then v.finish else v

variable {v : Visit κ} {w : Visit Unit}

theorem id_of_outside (h : v.outside = w.outside) : v.id = w.id :=
  congrArg (fun x => x.1.id) h

end Visit

namespace Listener

/-- A protocol that does nothing of its own accord. -/
def silent : LineProtocol (Unit × Unit) where
  begin channel state := (channel, state, .ok ())
  line channel state _ := (channel, state, .proceed)

/-- What happens at a listener whose connections are worked by anybody at any time. -/
inductive Move where
  | step (label : Label)
  | act (id : Nat) (a : Connection.Act)
  | refuse (id : Nat)
deriving DecidableEq, Repr

def move (idleTimeout : Option Nat) (l : Listener Unit) : Move → Listener Unit
  | .step label => (l.step silent () idleTimeout () label).1
  | .act id a => l.onVisit id (·.act a)
  | .refuse id => l.onVisit id Visit.refuse

def moves (idleTimeout : Option Nat) (l : Listener Unit) (ms : List Move) : Listener Unit :=
  ms.foldl (move idleTimeout) l

theorem moves_append (idleTimeout : Option Nat) (l : Listener Unit) (ms more : List Move) :
    l.moves idleTimeout (ms ++ more) = (l.moves idleTimeout ms).moves idleTimeout more :=
  List.foldl_append

/-! ## The numbers of connections -/

/-- The numbers of the connections tell in which order they were accepted. -/
def Numbered (l : Listener κ) : Prop := l.visits.map Visit.id = List.range' 1 l.visits.length

variable {l : Listener κ} {m : Listener Unit} {idleTimeout : Option Nat}

theorem Numbered.nodup (h : l.Numbered) : (l.visits.map Visit.id).Nodup := by
  unfold Numbered at h
  rw [h]
  exact List.nodup_range'

theorem Numbered.of_visits {l' : Listener κ} (h : l.Numbered)
    (hids : l'.visits.map Visit.id = l.visits.map Visit.id) : l'.Numbered := by
  have hlength : l'.visits.length = l.visits.length := by
    rw [← List.length_map Visit.id, hids, List.length_map]
  unfold Numbered
  rw [hids, hlength]
  exact h

theorem Numbered.eq_of_id (h : l.Numbered) {v w : Visit κ} (hv : v ∈ l.visits) (hw : w ∈ l.visits)
    (hid : v.id = w.id) : v = w := List.inj_on_of_nodup_map h.nodup hv hw hid

theorem ids_onVisit (l : Listener κ) (id : Nat) {f : Visit κ → Visit κ}
    (hf : ∀ v : Visit κ, (f v).id = v.id) :
    (l.onVisit id f).visits.map Visit.id = l.visits.map Visit.id := by
  simp only [onVisit, List.map_map]
  refine List.map_congr_left fun v _ => ?_
  simp only [Function.comp_apply]
  split
  · exact hf _
  · rfl

theorem Numbered.accept (h : l.Numbered) (state : κ) : (l.accept state).Numbered := by
  unfold Listener.accept
  split
  · simp only [Numbered, List.map_append, List.length_append, List.length_singleton]
    rw [show l.visits.map Visit.id = _ from h, List.range'_concat, Nat.one_mul, Nat.add_comm 1]
    rfl
  all_goals exact h

theorem mem_of_visit? {id : Nat} {v : Visit κ} (h : l.visit? id = some v) :
    v ∈ l.visits ∧ v.id = id := by
  have hid := List.find?_some h
  exact ⟨List.mem_of_find?_eq_some h, of_decide_eq_true hid⟩

theorem visit?_of_mem (h : l.Numbered) {v : Visit κ} (hv : v ∈ l.visits) {id : Nat}
    (hid : v.id = id) : l.visit? id = some v := by
  cases hfound : l.visit? id with
  | none => exact absurd (decide_eq_true hid) (List.find?_eq_none.mp hfound v hv)
  | some w =>
    obtain ⟨hw, hid'⟩ := mem_of_visit? hfound
    rw [h.eq_of_id hw hv (hid'.trans hid.symm)]

/-- As the numbers are different, the task that is at work changes the one visit that it belongs
to. -/
theorem onTask_eq_onVisit (h : l.Numbered) (shared : σ) (id : Nat) (f : Visit κ → Visit κ × σ) :
    (l.onTask shared id f).1 = l.onVisit id fun v => (f v).1 := by
  unfold onTask
  split
  · rename_i hnone
    have hall : ∀ v ∈ l.visits, v.id ≠ id := fun v hv =>
      of_decide_eq_true (by simpa using List.find?_eq_none.mp hnone v hv)
    have hsame : l.visits.map (fun v => if v.id = id then
        (f (v.onChannel fun c => { c with now := l.now })).1 else v) = l.visits := by
      conv_rhs => rw [← List.map_id l.visits]
      refine List.map_congr_left fun v hv => ?_
      rw [if_neg (hall v hv)]
      rfl
    rw [onVisit, hsame]
  · rename_i v hv
    obtain ⟨hmem, hid⟩ := mem_of_visit? hv
    have hsame : (l.visits.map fun w => if w.id = id then
        (f (v.onChannel fun c => { c with now := l.now })).1 else w) =
          l.visits.map fun w => if w.id = id then
            (f (w.onChannel fun c => { c with now := l.now })).1 else w := by
      refine List.map_congr_left fun w hw => ?_
      split
      · rename_i hw'
        rw [h.eq_of_id hmem hw (hid.trans hw'.symm)]
      · rfl
    rw [onVisit, ← hsame]

/-! ## The silent protocol -/

theorem begin_silent (v : Visit Unit) :
    (v.begin silent ()).1 = { v with stage := if v.stage = .fresh then .reading else v.stage } := by
  obtain ⟨session, stage⟩ := v
  cases stage <;> rfl

/-- Lines are handed over to no effect. -/
theorem feed_silent (s : LineSession (Unit × Unit)) (piece : Bytes) :
    (s.feed silent piece).1.channel = s.channel ∧ (s.feed silent piece).2 = .proceed := by
  obtain ⟨hstate, hflow, -⟩ := LineSession.feed_eq_handover silent s piece
  have hall (cs : Channel × Unit × Unit) (ls : List Bytes) :
      (Lines.handover silent.handle cs ls).state.1 = cs.1 ∧
        (Lines.handover silent.handle cs ls).flow = .proceed := by
    induction ls with
    | nil => exact ⟨rfl, rfl⟩
    | cons l ls ih => exact ih
  exact ⟨(congrArg Prod.fst hstate).trans (hall _ _).1, hflow.trans (hall _ _).2⟩

/-- What everybody can see of a connection after a read of which nothing comes. -/
theorem read_silent (v : Visit Unit) (incoming : Incoming) :
    (v.read silent () incoming).1.outside =
      if v.stage = .reading then
        if v.connection.isOpen then match incoming with
          | .ended | .failed => (v.connection.close true, .ended)
          | .closedMeanwhile announce => (v.connection.close announce, .ended)
          | .bytes data =>
            if data = [] then v.outside
            else (v.connection.touch v.session.channel.now, .reading)
        else (v.connection.close true, .ended)
      else v.outside := by
  obtain ⟨session, stage⟩ := v
  cases stage with
  | reading =>
    by_cases hopen : session.channel.connection.isOpen = true
    · simp only [Visit.read, Visit.connection, hopen, if_true]
      cases incoming with
      | ended | failed => rfl
      | closedMeanwhile announce =>
        simp only [Visit.outside, Visit.connection, Visit.finish, Visit.close, Visit.onChannel,
          Channel.close, Connection.close_close]
      | bytes data =>
        cases data with
        | nil => rfl
        | cons b bs =>
          obtain ⟨hchannel, hflow⟩ := feed_silent
            ((Visit.onChannel ⟨session, .reading⟩ (·.touch)).joined ()) (b :: bs)
          obtain ⟨t, flow, ht⟩ : ∃ t flow, LineSession.feed silent
            ((Visit.onChannel ⟨session, .reading⟩ (·.touch)).joined ()) (b :: bs) = (t, flow) :=
              ⟨_, _, rfl⟩
          rw [ht] at hchannel hflow
          have hconnection := congrArg Channel.connection hchannel
          cases hflow
          simp only [ht, if_neg (List.cons_ne_nil b bs)]
          exact congrArg (·, Visit.Stage.reading) hconnection
    · simp only [Visit.read, if_true, if_neg hopen]
      exact (if_neg hopen).symm
  | fresh | ended | gone => rfl

theorem read_failed_silent (v : Visit Unit) (h : v.stage = .reading) :
    (v.read silent () .failed).1.outside = (v.connection.close true, .ended) := by
  rw [read_silent, if_pos h]
  exact ite_self _

/-! ## Two listeners of which the same can be seen -/

/-- The same can be seen of the connections and of the listener itself. -/
structure Alike (l : Listener κ) (m : Listener Unit) : Prop where
  visits : List.Forall₂ (fun v w => v.outside = w.outside) l.visits m.visits
  registered : l.registered = m.registered
  examining : l.examining = m.examining
  phase : l.phase = m.phase
  stopping : l.stopping = m.stopping
  now : l.now = m.now

theorem alike_empty : Alike ({} : Listener κ) {} := ⟨.nil, rfl, rfl, rfl, rfl, rfl⟩

namespace Alike

theorem ids (h : l.Alike m) : l.visits.map Visit.id = m.visits.map Visit.id := by
  obtain ⟨hvisits, -⟩ := h
  generalize l.visits = vs, m.visits = ws at hvisits
  induction hvisits with
  | nil => rfl
  | cons hvw _ ih => rw [List.map_cons, List.map_cons, Visit.id_of_outside hvw, ih]

theorem numbered (h : l.Alike m) (hm : m.Numbered) : l.Numbered := by
  unfold Numbered at hm ⊢
  rw [h.ids, h.visits.length_eq]
  exact hm

theorem onVisit (h : l.Alike m) (id : Nat) {f : Visit κ → Visit κ} {g : Visit Unit → Visit Unit}
    (hfg : ∀ v w, v.outside = w.outside → (f v).outside = (g w).outside) :
    (l.onVisit id f).Alike (m.onVisit id g) := by
  refine ⟨?_, h.registered, h.examining, h.phase, h.stopping, h.now⟩
  refine List.forall₂_map_left_iff.mpr (List.forall₂_map_right_iff.mpr (h.visits.imp ?_))
  intro v w hvw
  rw [Visit.id_of_outside hvw]
  split
  · exact hfg _ _ hvw
  · exact hvw

theorem visit? (h : l.Alike m) (id : Nat) :
    (l.visit? id = none ∧ m.visit? id = none) ∨
      ∃ v w, l.visit? id = some v ∧ m.visit? id = some w ∧ v.outside = w.outside := by
  obtain ⟨hvisits, -⟩ := h
  unfold Listener.visit?
  generalize l.visits = vs, m.visits = ws at hvisits
  induction hvisits with
  | nil => exact .inl ⟨rfl, rfl⟩
  | @cons v w vs ws hvw _ ih =>
    rw [List.find?_cons, List.find?_cons, Visit.id_of_outside hvw]
    split
    · exact .inr ⟨v, w, rfl, rfl, hvw⟩
    · exact ih

theorem isIdle (h : l.Alike m) : l.isIdle = m.isIdle := by
  obtain ⟨hvisits, -⟩ := h
  unfold Listener.isIdle
  generalize l.visits = vs, m.visits = ws at hvisits
  induction hvisits with
  | nil => rfl
  | cons hvw _ ih =>
    have hstage := congrArg Prod.snd hvw
    rw [List.all_cons, List.all_cons, ih]
    exact congrArg (fun stage => decide (stage = Visit.Stage.gone) && _) hstage

theorem close (h : l.Alike m) (id : Nat) :
    (l.onVisit id Visit.close).Alike (m.onVisit id Visit.close) := by
  refine h.onVisit id fun v w hvw => ?_
  simp only [Visit.outside, Prod.mk.injEq] at hvw ⊢
  exact ⟨congrArg (·.close true) hvw.1, hvw.2⟩

theorem accept (h : l.Alike m) (state : κ) : (l.accept state).Alike (m.accept ()) := by
  have hlength := h.visits.length_eq
  unfold Listener.accept
  rw [h.phase]
  split
  · refine ⟨List.rel_append h.visits (.cons ?_ .nil), ?_, h.examining, rfl, h.stopping, h.now⟩
    · simp only [newVisit, Visit.outside, Visit.connection, hlength, h.now]
    · simp only [h.registered, hlength]
  all_goals exact h

theorem leave (h : l.Alike m) (id : Nat) : (l.leave id).Alike (m.leave id) := by
  unfold Listener.leave
  rcases h.visit? id with ⟨hl, hm⟩ | ⟨v, w, hl, hm, hvw⟩
  · rw [hl, hm]
    exact h
  · have hstage : v.stage = w.stage := congrArg Prod.snd hvw
    rw [hl, hm]
    dsimp only
    rw [hstage]
    split
    · have hgone := h.onVisit id (f := fun v => { v with stage := .gone })
        (g := fun w => { w with stage := .gone })
        fun v w hvw => congrArg (fun x => (x.1, Visit.Stage.gone)) hvw
      exact ⟨hgone.visits, congrArg _ h.registered, h.examining, h.phase, h.stopping, h.now⟩
    all_goals exact h

theorem examine (h : l.Alike m) : (l.examine idleTimeout).Alike (m.examine idleTimeout) := by
  unfold Listener.examine
  rw [h.examining]
  split
  · rename_i id rest timeout hrest
    have hbase : Alike { l with examining := rest } { m with examining := rest } :=
      ⟨h.visits, h.registered, rfl, h.phase, h.stopping, h.now⟩
    refine hbase.onVisit id fun v w hvw => ?_
    have hconnection : v.connection = w.connection := congrArg Prod.fst hvw
    have hstale : l.isStale timeout v = m.isStale timeout w := by
      unfold isStale
      rw [h.now]
      exact congrArg (fun c : Connection => decide (timeout ≤ c.idleFor m.now)) hconnection
    rw [hstale]
    split
    · exact congrArg (fun x => (x.1.close true, x.2)) hvw
    · exact hvw
  · exact h

theorem closeNext (h : l.Alike m) : l.closeNext.Alike m.closeNext := by
  unfold Listener.closeNext
  rw [h.phase]
  split
  · exact ⟨h.visits, h.registered, h.examining, rfl, h.stopping, h.now⟩
  · rename_i id rest hphase
    have hbase : Alike { l with phase := .closing rest } { m with phase := .closing rest } :=
      ⟨h.visits, h.registered, h.examining, rfl, h.stopping, h.now⟩
    exact hbase.close id
  all_goals exact h

end Alike

/-- Whether a step is one of the listener itself, not of a task at work on its connection. -/
def Label.isOwn : Label → Bool
  | .begin _ | .read .. => false
  | .accept | .leave _ | .tick | .examine | .shutdown | .retire | .closeNext | .drained
  | .graceOver | .pass _ => true

/-- The listener itself goes on in the same way whatever the protocol. -/
theorem Alike.step (h : l.Alike m) {label : Label} (hown : label.isOwn = true)
    (p : LineProtocol (κ × σ)) (state : κ) (shared : σ) :
    (l.step p state idleTimeout shared label).1.Alike
      (m.step silent () idleTimeout () label).1 := by
  cases label with
  | begin | read => cases hown
  | accept => exact h.accept state
  | leave id => exact h.leave id
  | examine => exact h.examine
  | closeNext => exact h.closeNext
  | tick =>
    simp only [Listener.step, h.examining]
    split
    · exact ⟨h.visits, h.registered, h.registered, h.phase, h.stopping, h.now⟩
    · exact h
  | shutdown => exact ⟨h.visits, h.registered, h.examining, h.phase, rfl, h.now⟩
  | retire =>
    simp only [Listener.step, h.stopping, h.phase, h.registered]
    split
    · exact ⟨h.visits, rfl, h.examining, rfl, rfl, h.now⟩
    · exact h
  | drained =>
    simp only [Listener.step, h.phase, h.isIdle]
    split
    · exact ⟨h.visits, h.registered, h.examining, rfl, h.stopping, h.now⟩
    · exact h
  | graceOver =>
    simp only [Listener.step, h.phase]
    split
    · exact ⟨h.visits, h.registered, h.examining, rfl, h.stopping, h.now⟩
    · exact h
  | pass millis =>
    exact ⟨h.visits, h.registered, h.examining, h.phase, h.stopping,
      congrArg (· + millis) h.now⟩

/-! ## One move -/

theorem id_refuse (v : Visit κ) : v.refuse.id = v.id := by
  unfold Visit.refuse
  split
  · exact Connection.id_close _ true
  · rfl

theorem id_read_silent (v : Visit Unit) (incoming : Incoming) :
    (v.read silent () incoming).1.id = v.id := by
  have hid : (v.read silent () incoming).1.id = (v.read silent () incoming).1.outside.1.id := rfl
  rw [hid, read_silent]
  split
  · split
    · cases incoming with
      | ended | failed => exact Connection.id_close _ true
      | closedMeanwhile announce => exact Connection.id_close _ announce
      | bytes data =>
        dsimp only
        split <;> rfl
    · exact Connection.id_close _ true
  · rfl

theorem move_begin (h : m.Numbered) (id : Nat) :
    m.move idleTimeout (.step (.begin id)) =
      m.onVisit id fun v => (v.begin silent ()).1 := onTask_eq_onVisit h () id _

theorem move_read (h : m.Numbered) (id : Nat) (incoming : Incoming) :
    m.move idleTimeout (.step (.read id incoming)) =
      m.onVisit id fun v => (v.read silent () incoming).1 := onTask_eq_onVisit h () id _

theorem accept_of_ne (l : Listener κ) (state : κ) (h : l.phase ≠ .accepting) :
    l.accept state = l := by
  unfold Listener.accept
  split
  · contradiction
  all_goals rfl

inductive Does (idleTimeout : Option Nat) (m : Listener Unit) : Move → Listener Unit → Prop where
  | nothing {label : Label} (hown : label.isOwn = true)
    (haccept : label = .accept → m.phase ≠ .accepting)
    (hexamine : label = .examine → m.examining = [] ∨ idleTimeout = none) :
    Does idleTimeout m (.step label) m
  | accepts (hphase : m.phase = .accepting) : Does idleTimeout m (.step .accept) (m.accept ())
  | begins (id : Nat) :
    Does idleTimeout m (.step (.begin id)) (m.onVisit id fun v => (v.begin silent ()).1)
  | reads (id : Nat) (incoming : Incoming) :
    Does idleTimeout m (.step (.read id incoming))
      (m.onVisit id fun v => (v.read silent () incoming).1)
  | acts (id : Nat) (a : Connection.Act) :
    Does idleTimeout m (.act id a) (m.onVisit id fun v => v.act a)
  | refuses (id : Nat) : Does idleTimeout m (.refuse id) (m.onVisit id fun v => v.refuse)
  | leaves {v : Visit Unit} (hv : v ∈ m.visits) (hended : v.stage = .ended) :
    Does idleTimeout m (.step (.leave v.id))
      { m.onVisit v.id fun v => { v with stage := .gone } with
        registered := m.registered.filter (· ≠ v.id) }
  | ticks (hnone : m.examining = []) :
    Does idleTimeout m (.step .tick) { m with examining := m.registered }
  | examines {id timeout : Nat} {rest : List Nat} (hnext : m.examining = id :: rest)
    (htimeout : idleTimeout = some timeout) :
    Does idleTimeout m (.step .examine)
      ({ m with examining := rest }.onVisit id fun v =>
        if m.isStale timeout v then v.close else v)
  | told : Does idleTimeout m (.step .shutdown) { m with stopping := true }
  | retires (hstopping : m.stopping = true) (hphase : m.phase = .accepting) :
    Does idleTimeout m (.step .retire) { m with phase := .closing m.registered }
  | closes {id : Nat} {rest : List Nat} (hphase : m.phase = .closing (id :: rest)) :
    Does idleTimeout m (.step .closeNext) ({ m with phase := .closing rest }.onVisit id Visit.close)
  | drains (hphase : m.phase = .closing []) :
    Does idleTimeout m (.step .closeNext) { m with phase := .draining }
  | returns (hphase : m.phase = .draining) :
    Does idleTimeout m (.step .drained) { m with phase := .returned }
  | givesUp (hphase : m.phase = .draining) :
    Does idleTimeout m (.step .graceOver) { m with phase := .returned }
  | passes (millis : Nat) :
    Does idleTimeout m (.step (.pass millis)) { m with now := m.now + millis }

theorem does_move (h : m.Numbered) (x : Move) : Does idleTimeout m x (m.move idleTimeout x) := by
  cases x with
  | act id a => exact .acts id a
  | refuse id => exact .refuses id
  | step label =>
    cases label with
    | begin id =>
      rw [move_begin h]
      exact .begins id
    | read id incoming =>
      rw [move_read h]
      exact .reads id incoming
    | shutdown => exact .told
    | pass millis => exact .passes millis
    | accept =>
      by_cases hphase : m.phase = .accepting
      · exact .accepts hphase
      · have hsame : m.move idleTimeout (.step .accept) = m := m.accept_of_ne () hphase
        rw [hsame]
        exact .nothing rfl (fun _ => hphase) Label.noConfusion
    | leave id =>
      simp only [Listener.move, Listener.step, Listener.leave]
      split
      · rename_i v hv
        obtain ⟨hmem, rfl⟩ := mem_of_visit? hv
        split
        · rename_i hended
          exact .leaves hmem hended
        all_goals exact .nothing rfl Label.noConfusion Label.noConfusion
      · exact .nothing rfl Label.noConfusion Label.noConfusion
    | tick =>
      simp only [Listener.move, Listener.step]
      split
      · rename_i htick
        exact .ticks (List.isEmpty_iff.mp (Bool.and_eq_true_iff.mp htick).2)
      · exact .nothing rfl Label.noConfusion Label.noConfusion
    | examine =>
      simp only [Listener.move, Listener.step, Listener.examine]
      cases hnext : m.examining with
      | nil => exact .nothing rfl Label.noConfusion fun _ => .inl hnext
      | cons id rest =>
        cases idleTimeout with
        | none => exact .nothing rfl Label.noConfusion fun _ => .inr rfl
        | some timeout => exact .examines hnext rfl
    | retire =>
      simp only [Listener.move, Listener.step]
      split
      · rename_i hretire
        obtain ⟨hstopping, hphase⟩ := Bool.and_eq_true_iff.mp hretire
        exact .retires hstopping (of_decide_eq_true hphase)
      · exact .nothing rfl Label.noConfusion Label.noConfusion
    | closeNext =>
      simp only [Listener.move, Listener.step, Listener.closeNext]
      split
      · rename_i hphase
        exact .drains hphase
      · rename_i id rest hphase
        exact .closes hphase
      all_goals exact .nothing rfl Label.noConfusion Label.noConfusion
    | drained =>
      simp only [Listener.move, Listener.step]
      split
      · rename_i hdrained
        exact .returns (of_decide_eq_true (Bool.and_eq_true_iff.mp hdrained).1)
      · exact .nothing rfl Label.noConfusion Label.noConfusion
    | graceOver =>
      simp only [Listener.move, Listener.step]
      split
      · rename_i hphase
        exact .givesUp hphase
      · exact .nothing rfl Label.noConfusion Label.noConfusion

theorem Numbered.of_does {x : Move} {m' : Listener Unit} (h : m.Numbered)
    (hdoes : Does idleTimeout m x m') : m'.Numbered := by
  have honVisit (id : Nat) {f : Visit Unit → Visit Unit} (hf : ∀ v, (f v).id = v.id) :
      (m.onVisit id f).Numbered := h.of_visits (m.ids_onVisit id hf)
  cases hdoes with
  | accepts => exact h.accept ()
  | begins id =>
    refine honVisit id fun v => ?_
    rw [begin_silent]
    rfl
  | reads id incoming => exact honVisit id fun v => id_read_silent v incoming
  | acts id a => exact honVisit id fun v => Connection.id_act _ _ a
  | refuses id => exact honVisit id id_refuse
  | leaves => exact honVisit _ (f := fun v => { v with stage := .gone }) fun _ => rfl
  | @examines id timeout =>
    refine honVisit id (f := fun v => if m.isStale timeout v then v.close else v) fun v => ?_
    split
    · exact Connection.id_close _ true
    · rfl
  | closes => exact honVisit _ (f := Visit.close) fun v => Connection.id_close _ true
  | nothing | ticks | told | retires | drains | returns | givesUp | passes => exact h

theorem Numbered.move (h : m.Numbered) (x : Move) : (m.move idleTimeout x).Numbered :=
  h.of_does (does_move h x)

theorem Numbered.moves (h : m.Numbered) (ms : List Move) : (m.moves idleTimeout ms).Numbered := by
  induction ms generalizing m with
  | nil => exact h
  | cons x ms ih => exact ih (h.move x)

/-! ## Tasks at work -/

def put (l : Listener κ) (id : Nat) (v : Visit κ) : Listener κ :=
  { l with visits := l.visits.map fun w => if w.id = id then v else w }

variable {id : Nat} {v v' : Visit κ}

theorem put_visit? (h : l.Numbered) (hv : l.visit? id = some v) : l.put id v = l := by
  obtain ⟨hmem, hid⟩ := mem_of_visit? hv
  have hsame : (l.visits.map fun w => if w.id = id then v else w) = l.visits := by
    conv_rhs => rw [← List.map_id l.visits]
    refine List.map_congr_left fun w hw => ?_
    split
    · rename_i hw'
      exact h.eq_of_id hmem hw (hid.trans hw'.symm)
    · rfl
  rw [put, hsame]

namespace Alike

theorem put_congr (h : (l.put id v).Alike m) (hv : v'.outside = v.outside) :
    (l.put id v').Alike m := by
  refine ⟨?_, h.registered, h.examining, h.phase, h.stopping, h.now⟩
  refine List.forall₂_map_left_iff.mpr ((List.forall₂_map_left_iff.mp h.visits).imp ?_)
  intro w x hwx
  split
  · rename_i hw
    rw [if_pos hw] at hwx
    exact hv.trans hwx
  · rename_i hw
    rwa [if_neg hw] at hwx

/-- One visit goes on, in the listener and in the other one. -/
theorem put_onVisit (h : (l.put id v).Alike m) (hid : v.id = id) {g : Visit Unit → Visit Unit}
    (hg : ∀ w : Visit Unit, v.outside = w.outside →
      v'.outside = (g (w.onChannel fun c => { c with now := m.now })).outside) :
    (l.put id v').Alike (m.onVisit id g) := by
  refine ⟨?_, h.registered, h.examining, h.phase, h.stopping, h.now⟩
  refine List.forall₂_map_left_iff.mpr (List.forall₂_map_right_iff.mpr
    ((List.forall₂_map_left_iff.mp h.visits).imp ?_))
  intro w x hwx
  by_cases hw : w.id = id
  · rw [if_pos hw] at hwx
    have hx : x.id = id := (Visit.id_of_outside hwx).symm.trans hid
    rw [if_pos hw, if_pos hx]
    exact hg x hwx
  · rw [if_neg hw] at hwx
    have hx : x.id ≠ id := fun heq => hw ((Visit.id_of_outside hwx).trans heq)
    rwa [if_neg hw, if_neg hx]

theorem put_acts (h : (l.put id v).Alike m) (hid : v.id = id) (as : List Connection.Act)
    (hv' : v'.outside = (v.connection.actAll (as.map (m.now, ·)), v.stage)) :
    (l.put id v').Alike (m.moves idleTimeout (as.map (.act id))) := by
  induction as generalizing v m with
  | nil => exact h.put_congr hv'
  | cons a as ih =>
    let u : Visit κ := v.onChannel fun c => { c with connection := c.connection.act m.now a }
    have hu : (l.put id u).Alike (m.move idleTimeout (.act id a)) := by
      refine h.put_onVisit hid (g := (·.act a)) fun w hw => ?_
      simp only [Visit.outside, Prod.mk.injEq] at hw ⊢
      exact ⟨congrArg (·.act m.now a) hw.1, hw.2⟩
    exact ih hu ((Connection.id_act _ _ a).trans hid) hv'

end Alike

end Listener

/-- What is made of a channel in these ways is made of its connection by some acts, all of them
now. -/
theorem Channel.Reaches.acts {c d : Channel} (h : c.Reaches d) :
    d.now = c.now ∧
      ∃ as : List Connection.Act, d.connection = c.connection.actAll (as.map (c.now, ·)) := by
  have hmore {d : Connection} {as : List Connection.Act}
      (h : d = c.connection.actAll (as.map (c.now, ·))) (a : Connection.Act) :
      d.act c.now a = c.connection.actAll ((as ++ [a]).map (c.now, ·)) := by
    rw [List.map_append, Connection.actAll_append, ← h]
    rfl
  induction h with
  | refl => exact ⟨rfl, [], rfl⟩
  | @send d data _ ih =>
    obtain ⟨hnow, as, has⟩ := ih
    rcases d.send_cases data with ⟨-, -, hsend⟩ | ⟨text, -, -, hsend⟩ | ⟨-, hsend⟩
    · rw [hsend]
      exact ⟨hnow, _, (congrArg d.connection.touch hnow).trans (hmore has (.sendEnds .done))⟩
    · rw [hsend]
      exact ⟨hnow, _, hmore has (.sendEnds (.refused text))⟩
    · rw [hsend]
      exact ⟨hnow, as, has⟩
  | close announce _ ih =>
    obtain ⟨hnow, as, has⟩ := ih
    exact ⟨hnow, _, hmore has (.close announce)⟩
  | @touch d _ ih =>
    obtain ⟨hnow, as, has⟩ := ih
    exact ⟨hnow, _, (congrArg d.connection.touch hnow).trans (hmore has .touch)⟩
  | setEncoding e _ ih =>
    obtain ⟨hnow, as, has⟩ := ih
    exact ⟨hnow, _, hmore has (.setEncoding e)⟩

namespace Listener

variable {l : Listener κ} {m : Listener Unit} {idleTimeout : Option Nat} {id : Nat} {v v' : Visit κ}
  {p : LineProtocol (κ × σ)}

namespace Alike

/-- What a protocol makes of a channel is matched by acts. -/
theorem put_reaches (h : (l.put id v).Alike m) (hid : v.id = id)
    (hnow : v.session.channel.now = m.now)
    (hreaches : v.session.channel.Reaches v'.session.channel) (hstage : v'.stage = v.stage) :
    ∃ ms, (l.put id v').Alike (m.moves idleTimeout ms) := by
  obtain ⟨-, as, has⟩ := hreaches.acts
  rw [hnow] at has
  refine ⟨_, h.put_acts hid as ?_⟩
  rw [Visit.outside, hstage, Visit.connection, has]
  rfl

/-- After some moves there comes another one. -/
theorem put_concat (ms : List Move) (h : (l.put id v).Alike (m.moves idleTimeout ms))
    (hid : v.id = id) {x : Move} {g : Visit Unit → Visit Unit}
    (hx : (m.moves idleTimeout ms).move idleTimeout x = (m.moves idleTimeout ms).onVisit id g)
    (hg : ∀ w : Visit Unit, v.outside = w.outside →
      w.session.channel.now = (m.moves idleTimeout ms).now → v'.outside = (g w).outside) :
    (l.put id v').Alike (m.moves idleTimeout (ms ++ [x])) := by
  rw [moves_append]
  change (l.put id v').Alike ((m.moves idleTimeout ms).move idleTimeout x)
  rw [hx]
  exact h.put_onVisit hid fun w hw => hg _ hw rfl

/-- A task at work is matched if what it does to its own connection is. -/
theorem task (h : l.Alike m) (hm : m.Numbered) (shared : σ) (id : Nat)
    (f : Visit κ → Visit κ × σ)
    (hf : ∀ v : Visit κ, v.id = id → v.session.channel.now = m.now → (l.put id v).Alike m →
      ∃ ms, (l.put id (f v).1).Alike (m.moves idleTimeout ms)) :
    ∃ ms, (l.onTask shared id f).1.Alike (m.moves idleTimeout ms) := by
  unfold onTask
  cases hv : l.visit? id with
  | none => exact ⟨[], h⟩
  | some v =>
    have hplace : (l.put id v).Alike m := (put_visit? (h.numbered hm) hv).symm ▸ h
    exact hf (v.onChannel fun c => { c with now := l.now }) (mem_of_visit? hv).2 h.now
      (hplace.put_congr rfl)

theorem begin (h : l.Alike m) (hm : m.Numbered) (hp : p.Orderly) (shared : σ) (id : Nat) :
    ∃ ms, (l.onTask shared id fun v => v.begin p shared).1.Alike (m.moves idleTimeout ms) := by
  refine h.task hm shared id _ fun v hid hnow hput => ?_
  obtain ⟨session, stage⟩ := v
  cases stage with
  | reading | ended | gone => exact ⟨[], hput⟩
  | fresh =>
    obtain ⟨t, result, ht⟩ : ∃ t result,
      LineSession.begin p (Visit.joined ⟨session, .fresh⟩ shared) = (t, result) := ⟨_, _, rfl⟩
    have hreaches : session.channel.Reaches t.channel := by
      have hbegin := hp.begin session.channel (session.state, shared)
      exact congrArg (fun x => x.1.channel) ht ▸ hbegin
    have hmoves : ∃ ms, (l.put id (Visit.ofJoined t .fresh).1).Alike (m.moves idleTimeout ms) :=
      hput.put_reaches hid hnow hreaches rfl
    obtain ⟨ms, hms⟩ := hmoves
    have hkept : t.channel.connection.id = id := by
      obtain ⟨-, as, has⟩ := hreaches.acts
      rw [has, Connection.id_actAll]
      exact hid
    simp only [Visit.begin, ht]
    cases result with
    | ok =>
      refine ⟨_, hms.put_concat _ hkept (move_begin (hm.moves ms) id) fun w hw _ => ?_⟩
      have hfresh : w.stage = .fresh := (congrArg Prod.snd hw).symm
      rw [begin_silent, hfresh]
      exact congrArg (fun x => (x.1, Visit.Stage.reading)) hw
    | error f =>
      refine ⟨_, hms.put_concat _ hkept (x := .refuse id) rfl fun w hw _ => ?_⟩
      have hfresh : w.stage = .fresh := (congrArg Prod.snd hw).symm
      rw [Visit.refuse, if_pos hfresh]
      exact congrArg (fun x => (x.1.close true, Visit.Stage.ended)) hw

/-- Bytes are read, the protocol is at work on their lines, and perhaps it has had enough then. -/
theorem read_bytes {session : LineSession κ} (h : (l.put id ⟨session, .reading⟩).Alike m)
    (hm : m.Numbered) (hp : p.Orderly) (shared : σ) (hid : session.channel.connection.id = id)
    (hnow : session.channel.now = m.now) (hopen : session.channel.connection.isOpen = true)
    (data : Bytes) :
    ∃ ms, (l.put id (Visit.read p ⟨session, .reading⟩ shared (.bytes data)).1).Alike
      (m.moves idleTimeout ms) := by
  simp only [Visit.read, hopen, if_true]
  split
  · contradiction
  · contradiction
  · contradiction
  · exact ⟨[], h⟩
  · rename_i data hdata hread
    cases hread
    have hfilled : data ≠ [] := hdata
    -- the read itself comes before all that the protocol does
    have htouch : (l.put id (Visit.onChannel ⟨session, .reading⟩ (·.touch))).Alike
        (m.moves idleTimeout ([] ++ [.step (.read id (.bytes data))])) := by
      refine Alike.put_concat [] h hid (move_read hm id _) fun w hw hw' => ?_
      have hreading : w.stage = .reading := (congrArg Prod.snd hw).symm
      have hconnection : w.connection = session.channel.connection := (congrArg Prod.fst hw).symm
      rw [read_silent, if_pos hreading, hconnection, if_pos hopen]
      simp only [if_neg hfilled, hw']
      exact congrArg (fun now => (session.channel.connection.touch now, Visit.Stage.reading)) hnow
    obtain ⟨t, flow, ht⟩ : ∃ t flow, LineSession.feed p
      ((Visit.onChannel ⟨session, .reading⟩ (·.touch)).joined shared) data = (t, flow) :=
        ⟨_, _, rfl⟩
    have hreaches : session.channel.touch.Reaches t.channel := by
      have hfed := LineSession.reaches_feed hp
        ((Visit.onChannel ⟨session, .reading⟩ (·.touch)).joined shared) data
      rw [ht] at hfed
      exact hfed
    have hkept : t.channel.connection.id = id := by
      obtain ⟨-, as, has⟩ := hreaches.acts
      rw [has, Connection.id_actAll]
      exact hid
    have hmoves : ∃ ms, (l.put id (Visit.ofJoined t .reading).1).Alike
        (m.moves idleTimeout ([.step (.read id (.bytes data))] ++ ms)) := by
      have hclock : session.channel.touch.now =
          (m.moves idleTimeout [.step (.read id (.bytes data))]).now :=
        hnow.trans (congrArg Listener.now (move_read hm id (.bytes data))).symm
      simp only [moves_append]
      exact htouch.put_reaches hid hclock hreaches rfl
    obtain ⟨ms, hms⟩ := hmoves
    simp only [ht]
    cases flow with
    | proceed => exact ⟨_, hms⟩
    | close | failed =>
      refine ⟨_, hms.put_concat _ hkept (move_read (hm.moves _) id .failed) fun w hw _ => ?_⟩
      have hreading : w.stage = .reading := (congrArg Prod.snd hw).symm
      rw [read_failed_silent w hreading]
      exact congrArg (fun x => (x.1.close true, Visit.Stage.ended)) hw

theorem read (h : l.Alike m) (hm : m.Numbered) (hp : p.Orderly) (shared : σ) (id : Nat)
    (incoming : Incoming) :
    ∃ ms, (l.onTask shared id fun v => v.read p shared incoming).1.Alike
      (m.moves idleTimeout ms) := by
  refine h.task hm shared id _ fun v hid hnow hput => ?_
  obtain ⟨session, stage⟩ := v
  cases stage with
  | fresh | ended | gone => exact ⟨[], hput⟩
  | reading =>
    have hends {c : Connection} {v' : Visit κ} (hv' : v'.outside = (c, .ended))
        (hc : ∀ w : Visit Unit, w.stage = .reading → w.connection = session.channel.connection →
          (w.read silent () incoming).1.outside = (c, .ended)) :
        ∃ ms, (l.put id v').Alike (m.moves idleTimeout ms) := by
      refine ⟨_, Alike.put_concat [] hput hid (move_read hm id incoming) fun w hw _ => ?_⟩
      rw [hv', hc w (congrArg Prod.snd hw).symm (congrArg Prod.fst hw).symm]
    by_cases hopen : session.channel.connection.isOpen = true
    · cases incoming with
      | ended | failed =>
        simp only [Visit.read, hopen, if_true]
        refine hends rfl fun w hw hc => ?_
        rw [read_silent, if_pos hw, hc, if_pos hopen]
        rfl
      | closedMeanwhile announce =>
        simp only [Visit.read, hopen, if_true]
        refine hends (congrArg (·, Visit.Stage.ended) (Connection.close_close _ announce true))
          fun w hw hc => ?_
        rw [read_silent, if_pos hw, hc, if_pos hopen]
      | bytes data => exact hput.read_bytes hm hp shared hid hnow hopen data
    · simp only [Visit.read, if_neg hopen]
      refine hends rfl fun w hw hc => ?_
      rw [read_silent, if_pos hw, hc, if_neg hopen]
      rfl

end Alike

/-- Each row of steps of a listener is matched by a row of moves. -/
theorem Alike.steps (h : l.Alike m) (hm : m.Numbered) (hp : p.Orderly) (state : κ) (shared : σ)
    (ls : List Label) :
    ∃ ms, (l.steps p state idleTimeout shared ls).1.Alike (m.moves idleTimeout ms) := by
  induction ls generalizing l m shared with
  | nil => exact ⟨[], h⟩
  | cons label ls ih =>
    have hstep : ∃ ms, (l.step p state idleTimeout shared label).1.Alike
        (m.moves idleTimeout ms) := by
      cases label with
      | begin id => exact h.begin hm hp shared id
      | read id incoming => exact h.read hm hp shared id incoming
      | _ => exact ⟨[.step _], h.step rfl p state shared⟩
    obtain ⟨ms, hms⟩ := hstep
    obtain ⟨more, hmore⟩ := ih hms (hm.moves ms) (l.step p state idleTimeout shared label).2
    rw [← moves_append] at hmore
    exact ⟨ms ++ more, hmore⟩

end Listener

end Letterbox
