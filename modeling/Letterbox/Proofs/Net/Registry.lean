import Letterbox.Proofs.Net.Interleaving

/-!
# The registry of a listener

The registry holds the connections whose tasks have not left. It is read twice as a whole, by those
who look for idle connections and by the listener when it is to end, and either time what is done
with the copy is done later, while tasks come and go. Nothing gets lost by that: a connection is
registered until its task leaves, a task leaves its connection closed, and from the time that the
listener left off accepting there are no new ones.
-/

set_option autoImplicit false

namespace Letterbox.Listener

/-! ## What becomes of one connection -/

/-- What a move may make of a visit, apart from the leaving of its task. -/
structure Goes (v w : Visit Unit) : Prop where
  id : w.id = v.id
  closed : v.connection.isOpen = false → w.connection.isOpen = false
  gone : w.stage = .gone ↔ v.stage = .gone
  ended : w.stage = .ended → v.stage = .ended ∨ w.connection.isOpen = false

theorem isOpen_act {c : Connection} (now : Nat) (a : Connection.Act) (h : c.isOpen = false) :
    (c.act now a).isOpen = false := by
  rcases c.act_cases now a with ⟨announce, -, -, hact⟩ | ⟨-, -, hact⟩ | ⟨e, -, -, hact⟩
  · rw [hact]
    exact c.isOpen_close announce
  · rw [hact]
    exact h
  · rw [hact]
    exact h

variable (v : Visit Unit)

theorem goes_act (a : Connection.Act) : Goes v (v.act a) :=
  ⟨Connection.id_act _ _ a, isOpen_act _ a, Iff.rfl, .inl⟩

theorem goes_close : Goes v v.close :=
  ⟨Connection.id_close _ true, fun _ => Connection.isOpen_close _ true, Iff.rfl, .inl⟩

theorem goes_refuse : Goes v v.refuse := by
  unfold Visit.refuse
  split
  · rename_i hfresh
    have hclosed : v.finish.connection.isOpen = false := Connection.isOpen_close _ true
    refine ⟨Connection.id_close _ true, fun _ => hclosed, ?_, fun _ => .inr hclosed⟩
    rw [hfresh]
    exact ⟨nofun, nofun⟩
  · exact ⟨rfl, id, Iff.rfl, .inl⟩

theorem goes_begin : Goes v (v.begin silent ()).1 := by
  rw [begin_silent]
  obtain ⟨session, stage⟩ := v
  refine ⟨rfl, id, ?_, ?_⟩ <;> cases stage <;> simp

def takes (v : Visit Unit) : Incoming → Bool
  | .bytes data => v.stage == .reading && v.connection.isOpen && !data.isEmpty
  | .ended | .failed | .closedMeanwhile _ => false

/-- A read brings bytes in, or ends the reading, or does nothing. -/
theorem read_silent_cases (incoming : Incoming) :
    (takes v incoming = true ∧ v.stage = .reading ∧ (v.read silent () incoming).1.outside =
        (v.connection.touch v.session.channel.now, .reading)) ∨
      (takes v incoming = false ∧ v.stage = .reading ∧ ∃ announce,
        (v.read silent () incoming).1.outside = (v.connection.close announce, .ended)) ∨
      (takes v incoming = false ∧ (v.read silent () incoming).1.outside = v.outside) := by
  rw [read_silent]
  by_cases hstage : v.stage = .reading
  · rw [if_pos hstage]
    cases hopen : v.connection.isOpen with
    | true =>
      rw [if_pos rfl]
      cases incoming with
      | ended | failed => exact .inr (.inl ⟨rfl, hstage, true, rfl⟩)
      | closedMeanwhile announce => exact .inr (.inl ⟨rfl, hstage, announce, rfl⟩)
      | bytes data =>
        cases data with
        | nil => exact .inr (.inr ⟨by simp [takes], rfl⟩)
        | cons b bs => exact .inl ⟨by simp [takes, hstage, hopen], hstage, rfl⟩
    | false =>
      refine .inr (.inl ⟨?_, hstage, true, rfl⟩)
      cases incoming with
      | bytes data => simp [takes, hopen]
      | ended | failed | closedMeanwhile => rfl
  · rw [if_neg hstage]
    refine .inr (.inr ⟨?_, rfl⟩)
    cases incoming with
    | bytes data => simp [takes, hstage]
    | ended | failed | closedMeanwhile => rfl

theorem goes_read (incoming : Incoming) : Goes v (v.read silent () incoming).1 := by
  have hid := id_read_silent v incoming
  have hcases := read_silent_cases v incoming
  generalize (v.read silent () incoming).1 = w at hid hcases
  rcases hcases with ⟨-, hreading, hw⟩ | ⟨-, hreading, announce, hw⟩ | ⟨-, hw⟩
  · obtain ⟨hconnection, hstage⟩ := Prod.mk.inj hw
    refine ⟨hid, fun hclosed => hconnection ▸ hclosed, ?_, ?_⟩
    · rw [hstage, hreading]
    · rw [hstage]
      exact nofun
  · obtain ⟨hconnection, hstage⟩ := Prod.mk.inj hw
    have hclosed : w.connection.isOpen = false := hconnection ▸ v.connection.isOpen_close announce
    refine ⟨hid, fun _ => hclosed, ?_, fun _ => .inr hclosed⟩
    rw [hstage, hreading]
    exact ⟨nofun, nofun⟩
  · obtain ⟨hconnection, hstage⟩ := Prod.mk.inj hw
    refine ⟨hid, fun hclosed => hconnection ▸ hclosed, ?_, fun hended => .inl (hstage ▸ hended)⟩
    rw [hstage]

/-! ## The registry -/

def Phase.toClose? : Phase → Option (List Nat)
  | accepting => none
  | closing todo => some todo
  | draining | returned => some []

/-- What holds of a listener at any time. -/
structure Kept (l : Listener Unit) : Prop where
  numbered : l.Numbered
  registered : l.registered = (l.visits.filter (·.stage ≠ .gone)).map Visit.id
  done : ∀ v ∈ l.visits, v.stage = .ended ∨ v.stage = .gone → v.connection.isOpen = false
  stopping : l.phase ≠ .accepting → l.stopping = true
  /-- Nothing open is forgotten. -/
  closing : ∀ todo, l.phase.toClose? = some todo → ∀ v ∈ l.visits,
    v.connection.isOpen = true → v.id ∈ todo

theorem kept_empty : Kept {} :=
  ⟨rfl, rfl, List.forall_mem_nil _, fun h => absurd rfl h, fun _ _ => List.forall_mem_nil _⟩

namespace Kept

variable {l : Listener Unit} {idleTimeout : Option Nat}

theorem mem_registered (h : l.Kept) {v : Visit Unit} (hv : v ∈ l.visits) :
    v.id ∈ l.registered ↔ v.stage ≠ .gone := by
  rw [h.registered, List.mem_map]
  constructor
  · rintro ⟨w, hw, hid⟩
    obtain ⟨hmem, hstage⟩ := List.mem_filter.mp hw
    rw [← h.numbered.eq_of_id hmem hv hid]
    exact of_decide_eq_true hstage
  · intro hstage
    exact ⟨v, List.mem_filter.mpr ⟨hv, decide_eq_true hstage⟩, rfl⟩

theorem exists_of_mem_registered (h : l.Kept) {id : Nat} (hid : id ∈ l.registered) :
    ∃ v ∈ l.visits, v.id = id := by
  rw [h.registered] at hid
  obtain ⟨v, hv, hid⟩ := List.mem_map.mp hid
  exact ⟨v, List.mem_of_mem_filter hv, hid⟩

/-- A listener keeps what it has if one connection goes on. -/
theorem onVisit (h : l.Kept) (id : Nat) {f : Visit Unit → Visit Unit} (hf : ∀ v, Goes v (f v)) :
    (l.onVisit id f).Kept := by
  let g (v : Visit Unit) : Visit Unit :=
    if v.id = id then f (v.onChannel fun c => { c with now := l.now }) else v
  have hg (v : Visit Unit) : Goes v (g v) := by
    simp only [g]
    split
    · obtain ⟨hid, hclosed, hgone, hended⟩ := hf (v.onChannel fun c => { c with now := l.now })
      exact ⟨hid, hclosed, hgone, hended⟩
    · exact ⟨rfl, fun hclosed => hclosed, Iff.rfl, .inl⟩
  have hvisits : (l.onVisit id f).visits = l.visits.map g := rfl
  refine ⟨?_, ?_, fun w hw hstage => ?_, h.stopping, fun todo htodo w hw hopen => ?_⟩
  · refine h.numbered.of_visits ?_
    rw [hvisits, List.map_map]
    exact List.map_congr_left fun v _ => (hg v).id
  · have hsame (v : Visit Unit) : decide ((g v).stage ≠ .gone) = decide (v.stage ≠ .gone) := by
      rw [decide_eq_decide]
      exact not_congr (hg v).gone
    rw [hvisits, List.filter_map, List.map_map]
    simp only [Function.comp_def, hsame, (hg _).id]
    exact h.registered
  · obtain ⟨v, hv, rfl⟩ := List.mem_map.mp hw
    rcases hstage with hended | hgone
    · rcases (hg v).ended hended with hended | hclosed
      · exact (hg v).closed (h.done v hv (.inl hended))
      · exact hclosed
    · exact (hg v).closed (h.done v hv (.inr ((hg v).gone.mp hgone)))
  · obtain ⟨v, hv, rfl⟩ := List.mem_map.mp hw
    rw [(hg v).id]
    refine h.closing todo htodo v hv (eq_true_of_ne_false fun hclosed => ?_)
    rw [(hg v).closed hclosed] at hopen
    cases hopen

theorem accept (h : l.Kept) (hphase : l.phase = .accepting) : (l.accept ()).Kept := by
  have hnumbered := h.numbered.accept ()
  have haccepted : l.accept () =
      { l with
        visits := l.visits ++ [l.newVisit ()]
        registered := l.registered ++ [l.visits.length + 1] } := by
    rw [Listener.accept, hphase]
  rw [haccepted] at hnumbered ⊢
  refine ⟨hnumbered, ?_, fun v hv hstage => ?_, h.stopping, fun todo htodo => ?_⟩
  · rw [List.filter_append, List.map_append, ← h.registered]
    rfl
  · rcases List.mem_append.mp hv with hv | hv
    · exact h.done v hv hstage
    · cases List.mem_singleton.mp hv
      rcases hstage with hstage | hstage <;> cases hstage
  · simp only [hphase, Phase.toClose?] at htodo
    cases htodo

/-- Without the visits of this number, which are gone, fewer are registered. -/
theorem registered_gone (l : Listener Unit) (id : Nat) :
    ((l.onVisit id fun v => { v with stage := .gone }).visits.filter (·.stage ≠ .gone)).map
        Visit.id =
      ((l.visits.filter (·.stage ≠ .gone)).map Visit.id).filter (· ≠ id) := by
  simp only [Listener.onVisit]
  induction l.visits with
  | nil => rfl
  | cons v vs ih =>
    rw [List.map_cons]
    by_cases hid : v.id = id
    · rw [if_pos hid, List.filter_cons_of_neg (by simp), ih, List.filter_cons]
      split
      · rw [List.map_cons, List.filter_cons_of_neg (by simp [hid])]
      · rfl
    · rw [if_neg hid, List.filter_cons, List.filter_cons]
      split
      · rw [List.map_cons, List.map_cons, List.filter_cons_of_pos (by simp [hid]), ih]
      · exact ih

/-- A task leaves that is done with its connection. -/
theorem leave (h : l.Kept) {v : Visit Unit} (hv : v ∈ l.visits) (hended : v.stage = .ended) :
    Kept { l.onVisit v.id fun v => { v with stage := .gone } with
      registered := l.registered.filter (· ≠ v.id) } := by
  have hclosed := h.done v hv (.inl hended)
  have hids := l.ids_onVisit v.id (f := fun v => { v with stage := .gone }) fun _ => rfl
  refine ⟨h.numbered.of_visits hids, ?_, fun w hw hstage => ?_, h.stopping,
    fun todo htodo w hw hopen => ?_⟩
  · rw [registered_gone, ← h.registered]
  · obtain ⟨u, hu, rfl⟩ := List.mem_map.mp hw
    by_cases hid : u.id = v.id
    · rw [if_pos hid]
      rw [h.numbered.eq_of_id hu hv hid]
      exact hclosed
    · rw [if_neg hid] at hstage ⊢
      exact h.done u hu hstage
  · obtain ⟨u, hu, rfl⟩ := List.mem_map.mp hw
    by_cases hid : u.id = v.id
    · rw [if_pos hid] at hopen
      rw [h.numbered.eq_of_id hu hv hid] at hopen
      exact absurd (hclosed.symm.trans hopen) Bool.false_ne_true
    · rw [if_neg hid] at hopen ⊢
      exact h.closing todo htodo u hu hopen

/-- The first of the connections that are to be closed is closed. -/
theorem closeNext (h : l.Kept) {id : Nat} {rest : List Nat}
    (hphase : l.phase = .closing (id :: rest)) :
    ({ l with phase := .closing rest }.onVisit id Visit.close).Kept := by
  have hclosed := h.onVisit id goes_close
  refine ⟨hclosed.numbered, hclosed.registered, hclosed.done, fun _ => h.stopping ?_,
    fun todo htodo w hw hopen => ?_⟩
  · rw [hphase]
    exact nofun
  · cases htodo
    refine (List.mem_cons.mp (hclosed.closing (id :: rest) (congrArg Phase.toClose? hphase) w hw
      hopen)).resolve_left fun hid => ?_
    obtain ⟨v, -, rfl⟩ := List.mem_map.mp hw
    by_cases hv : v.id = id
    · rw [if_pos hv] at hopen
      exact absurd ((Connection.isOpen_close _ true).symm.trans hopen) Bool.false_ne_true
    · rw [if_neg hv] at hid
      exact hv hid

/-- There is nothing more to be closed. -/
theorem of_phase (h : l.Kept) {phase : Phase} (hnow : l.phase.toClose? = some [])
    (hnext : phase.toClose? = some []) : Kept { l with phase } := by
  refine ⟨h.numbered, h.registered, h.done, fun _ => h.stopping fun hphase => ?_,
    fun todo htodo => ?_⟩
  · rw [hphase] at hnow
    cases hnow
  · cases hnext.symm.trans htodo
    exact h.closing [] hnow

theorem of_does (h : l.Kept) {x : Move} {l' : Listener Unit} (hdoes : Does idleTimeout l x l') :
    l'.Kept := by
  cases hdoes with
  | nothing => exact h
  | accepts hphase => exact h.accept hphase
  | begins id => exact h.onVisit id goes_begin
  | reads id incoming => exact h.onVisit id fun v => goes_read v incoming
  | acts id a => exact h.onVisit id fun v => goes_act v a
  | refuses id => exact h.onVisit id goes_refuse
  | leaves hv hended => exact h.leave hv hended
  | ticks | passes => exact ⟨h.numbered, h.registered, h.done, h.stopping, h.closing⟩
  | @examines id timeout rest =>
    have hbase : Kept { l with examining := rest } :=
      ⟨h.numbered, h.registered, h.done, h.stopping, h.closing⟩
    refine hbase.onVisit id (f := fun v => if l.isStale timeout v then v.close else v) fun v => ?_
    split
    · exact goes_close v
    · exact ⟨rfl, fun hclosed => hclosed, Iff.rfl, .inl⟩
  | told => exact ⟨h.numbered, h.registered, h.done, fun _ => rfl, h.closing⟩
  | retires hstopping =>
    refine ⟨h.numbered, h.registered, h.done, fun _ => hstopping, fun todo htodo v hv hopen => ?_⟩
    cases htodo
    refine (h.mem_registered hv).mpr fun hgone => ?_
    rw [h.done v hv (.inr hgone)] at hopen
    cases hopen
  | closes hphase => exact h.closeNext hphase
  | drains hphase => exact h.of_phase (congrArg Phase.toClose? hphase) rfl
  | returns hphase | givesUp hphase => exact h.of_phase (congrArg Phase.toClose? hphase) rfl

theorem move (h : l.Kept) (x : Move) : (l.move idleTimeout x).Kept :=
  h.of_does (does_move h.numbered x)

theorem moves (h : l.Kept) (ms : List Move) : (l.moves idleTimeout ms).Kept := by
  induction ms generalizing l with
  | nil => exact h
  | cons x ms ih => exact ih (h.move x)

end Kept

/-! ## The last use of a connection -/

/-- The connection that a move makes or that bytes go over by it, with the time. -/
def use? (l : Listener Unit) : Move → Option (Nat × Nat)
  | .step .accept => if l.phase = .accepting then some (l.visits.length + 1, l.now) else none
  | .step (.read id incoming) =>
    if (l.visit? id).any (takes · incoming) then some (id, l.now) else none
  | .act id a => if a.isActivity then some (id, l.now) else none
  | .step _ | .refuse _ => none

def uses (idleTimeout : Option Nat) (l : Listener Unit) : List Move → List (Nat × Nat)
  | [] => []
  | x :: ms => uses idleTimeout (l.move idleTimeout x) ms ++ (l.use? x).toList

/-- The records of its uses tell when a connection was active last. -/
def Recorded (used : List (Nat × Nat)) (l : Listener Unit) : Prop :=
  ∀ v ∈ l.visits, used.lookup v.id = some v.connection.lastActivity

namespace Recorded

variable {l : Listener Unit} {idleTimeout : Option Nat} {used : List (Nat × Nat)}

/-- One connection goes on, and is used at most. -/
theorem onVisit (h : Recorded used l) (id : Nat) {f : Visit Unit → Visit Unit} {now? : Option Nat}
    (hid : ∀ v, (f v).id = v.id)
    (hf : ∀ v ∈ l.visits, v.id = id →
      (f (v.onChannel fun c => { c with now := l.now })).connection.lastActivity =
        now?.getD v.connection.lastActivity) :
    Recorded ((now?.map (id, ·)).toList ++ used) (l.onVisit id f) := by
  intro w hw
  obtain ⟨v, hv, rfl⟩ := List.mem_map.mp hw
  by_cases hv' : v.id = id
  · have hsame : (f (v.onChannel fun c => { c with now := l.now })).id = id := (hid _).trans hv'
    rw [if_pos hv', hf v hv hv', hsame]
    cases now? with
    | none => exact hv' ▸ h v hv
    | some now => simp
  · rw [if_neg hv']
    cases now? with
    | none => exact h v hv
    | some now =>
      have hne : (v.id == id) = false := beq_false_of_ne hv'
      rw [Option.map_some, Option.toList_some, List.singleton_append, List.lookup_cons, hne]
      exact h v hv

/-- One connection goes on without being used. -/
theorem onVisit_quiet (h : Recorded used l) (id : Nat) {f : Visit Unit → Visit Unit}
    (hid : ∀ v, (f v).id = v.id)
    (hf : ∀ v, (f v).connection.lastActivity = v.connection.lastActivity) :
    Recorded used (l.onVisit id f) := by
  have hnone : Recorded (((none : Option Nat).map (id, ·)).toList ++ used) (l.onVisit id f) :=
    h.onVisit id hid fun _ _ _ => hf _
  exact hnone

theorem accept (h : Recorded used l) (hl : l.Kept) (hphase : l.phase = .accepting) :
    Recorded ((l.use? (.step .accept)).toList ++ used) (l.accept ()) := by
  have hused : l.use? (.step .accept) = some (l.visits.length + 1, l.now) := if_pos hphase
  rw [hused, Option.toList_some, List.singleton_append]
  intro v hv
  simp only [Listener.accept, hphase] at hv
  rcases List.mem_append.mp hv with hv | hv
  · have hids := hl.numbered
    have hlt : v.id ∈ List.range' 1 l.visits.length := hids ▸ List.mem_map_of_mem hv
    have hne : (v.id == l.visits.length + 1) = false := by
      rw [List.mem_range'_1] at hlt
      exact beq_false_of_ne (by omega)
    rw [List.lookup_cons, hne]
    exact h v hv
  · cases List.mem_singleton.mp hv
    exact List.lookup_cons_self

theorem read (h : Recorded used l) (hl : l.Kept) (id : Nat) (incoming : Incoming) :
    Recorded ((l.use? (.step (.read id incoming))).toList ++ used)
      (l.onVisit id fun v => (v.read silent () incoming).1) := by
  have hused : l.use? (.step (.read id incoming)) =
      (if (l.visit? id).any (takes · incoming) then some l.now else none).map (id, ·) := by
    simp only [use?]
    split <;> rfl
  rw [hused]
  refine h.onVisit id (fun v => id_read_silent v incoming) fun v hv hid => ?_
  rw [visit?_of_mem hl.numbered hv hid, Option.any_some]
  have hcases := read_silent_cases (v.onChannel fun c => { c with now := l.now }) incoming
  have htakes : takes (v.onChannel fun c => { c with now := l.now }) incoming =
      takes v incoming := by cases incoming <;> rfl
  rw [htakes] at hcases
  rcases hcases with ⟨hused, -, hw⟩ | ⟨hquiet, -, announce, hw⟩ | ⟨hquiet, hw⟩
  · rw [hused, (Prod.mk.inj hw).1]
    rfl
  · rw [hquiet, (Prod.mk.inj hw).1, Connection.lastActivity_close]
    rfl
  · rw [hquiet, (Prod.mk.inj hw).1]
    rfl

theorem act (h : Recorded used l) (id : Nat) (a : Connection.Act) :
    Recorded ((l.use? (.act id a)).toList ++ used) (l.onVisit id fun v => v.act a) := by
  have hused : l.use? (.act id a) =
      (if a.isActivity then some l.now else none).map (id, ·) := by
    simp only [use?]
    split <;> rfl
  rw [hused]
  refine h.onVisit id (fun v => Connection.id_act _ _ a) fun v _ _ => ?_
  refine (Connection.lastActivity_act _ _ a).trans ?_
  split <;> rfl

theorem of_does (h : Recorded used l) (hl : l.Kept) {x : Move} {l' : Listener Unit}
    (hdoes : Does idleTimeout l x l') : Recorded ((l.use? x).toList ++ used) l' := by
  have hclose (v : Visit Unit) : v.close.id = v.id ∧
      v.close.connection.lastActivity = v.connection.lastActivity :=
    ⟨Connection.id_close _ true, Connection.lastActivity_close _ true⟩
  cases hdoes with
  | @nothing label hown haccept =>
    have hunused : l.use? (.step label) = none := by
      cases label with
      | accept => exact if_neg (haccept rfl)
      | begin | read => cases hown
      | _ => rfl
    rw [hunused]
    exact h
  | accepts hphase => exact h.accept hl hphase
  | begins id =>
    refine h.onVisit_quiet id (fun v => (goes_begin v).id) fun v => ?_
    rw [begin_silent]
    rfl
  | reads id incoming => exact h.read hl id incoming
  | acts id a => exact h.act id a
  | refuses id =>
    refine h.onVisit_quiet id id_refuse fun v => ?_
    unfold Visit.refuse
    split
    · exact Connection.lastActivity_close _ true
    · rfl
  | @leaves v =>
    exact h.onVisit_quiet v.id (f := fun v => { v with stage := .gone }) (fun _ => rfl) fun _ => rfl
  | @examines id timeout rest =>
    have hbase : Recorded used { l with examining := rest } := h
    refine hbase.onVisit_quiet id (f := fun v => if l.isStale timeout v then v.close else v)
      (fun v => ?_) fun v => ?_
    · split
      · exact (hclose v).1
      · rfl
    · split
      · exact (hclose v).2
      · rfl
  | @closes id rest =>
    have hbase : Recorded used { l with phase := .closing rest } := h
    exact hbase.onVisit_quiet id (fun v => (hclose v).1) fun v => (hclose v).2
  | ticks | told | retires | drains | returns | givesUp | passes => exact h

theorem move (h : Recorded used l) (hl : l.Kept) (x : Move) :
    Recorded ((l.use? x).toList ++ used) (l.move idleTimeout x) :=
  h.of_does hl (does_move hl.numbered x)

theorem moves (h : Recorded used l) (hl : l.Kept) (ms : List Move) :
    Recorded (uses idleTimeout l ms ++ used) (l.moves idleTimeout ms) := by
  induction ms generalizing l used with
  | nil => exact h
  | cons x ms ih =>
    have hrest := ih (l := l.move idleTimeout x) (h.move hl x) (hl.move x)
    rw [← List.append_assoc] at hrest
    exact hrest

end Recorded

/-! ## Looking for idle connections -/

variable {l : Listener Unit} {idleTimeout : Option Nat}

def looked (idleTimeout : Option Nat) (l : Listener Unit) : List Move → List Nat
  | [] => []
  | x :: ms =>
    (if x = .step .examine then l.examining.head?.toList else []) ++
      looked idleTimeout (l.move idleTimeout x) ms

structure Reaps (timeout : Nat) (l : Listener Unit) : Prop where
  /-- The connection that is looked at is closed if it has been idle for so long, and apart from
  that nothing changes. -/
  examine : ∀ id rest, l.examining = id :: rest →
    let next := l.move (some timeout) (.step .examine)
    next.examining = rest ∧ next.registered = l.registered ∧ next.phase = l.phase ∧
      next.visits.map Visit.outside = l.visits.map fun v =>
        if v.id = id ∧ timeout ≤ l.now - v.connection.lastActivity
        then (v.connection.close true, v.stage) else v.outside
  /-- Until the next pass begins those are looked at who were registered at the beginning of this
  one, each in its turn. -/
  pass : l.examining = [] → ∀ ms, .step .tick ∉ ms →
    let begun := l.move (some timeout) (.step .tick)
    begun.visits = l.visits ∧
      l.registered = begun.looked (some timeout) ms ++ (begun.moves (some timeout) ms).examining

theorem Does.examining {x : Move} {l' : Listener Unit} {timeout : Nat}
    (hdoes : Does (some timeout) l x l') (hx : x ≠ .step .tick) :
    l.examining = (if x = .step .examine then l.examining.head?.toList else []) ++
      l'.examining := by
  cases hdoes with
  | @nothing label _ _ hexamine =>
    split
    · rename_i hlabel
      cases hlabel
      rw [(hexamine rfl).resolve_right (Option.some_ne_none timeout)]
      rfl
    · rfl
  | ticks => exact absurd rfl hx
  | examines hnext =>
    rw [if_pos rfl, hnext]
    rfl
  | accepts hphase =>
    simp only [Listener.accept, hphase]
    rfl
  | begins | reads | acts | refuses | leaves | told | retires | closes | drains | returns | givesUp
  | passes => rfl

theorem Kept.examining_moves (h : l.Kept) {ms : List Move} (hms : .step .tick ∉ ms)
    (timeout : Nat) :
    l.examining = l.looked (some timeout) ms ++ (l.moves (some timeout) ms).examining := by
  induction ms generalizing l with
  | nil => rfl
  | cons x ms ih =>
    obtain ⟨hx, hrest⟩ := not_or.mp (fun h => hms (List.mem_cons.mpr h))
    have hstep : l.examining = _ ++ (l.move (some timeout) x).examining :=
      (does_move h.numbered x).examining (Ne.symm hx)
    rw [looked, List.append_assoc]
    exact hstep.trans (congrArg _ (ih (h.move x) hrest))

theorem Kept.reaps (h : l.Kept) (timeout : Nat) : l.Reaps timeout := by
  refine ⟨fun id rest hrest => ?_, fun hnone ms hms => ?_⟩
  · have hnext : l.move (some timeout) (.step .examine) = { l with examining := rest }.onVisit id
        fun v => if l.isStale timeout v then v.close else v := by
      simp only [Listener.move, Listener.step, Listener.examine, hrest]
    rw [hnext]
    refine ⟨rfl, rfl, rfl, ?_⟩
    simp only [Listener.onVisit, List.map_map]
    refine List.map_congr_left fun v _ => ?_
    simp only [Function.comp_apply, isStale, Connection.idleFor]
    by_cases hid : v.id = id
    · by_cases hstale : timeout ≤ l.now - v.connection.lastActivity
      · rw [if_pos hid, if_pos ⟨hid, hstale⟩]
        exact congrArg Visit.outside (if_pos (decide_eq_true hstale))
      · rw [if_pos hid, if_neg (fun h => hstale h.2)]
        exact (congrArg Visit.outside (if_neg fun h => hstale (of_decide_eq_true h))).trans rfl
    · rw [if_neg hid, if_neg (fun h => hid h.1)]
  · have hbegun : l.move (some timeout) (.step .tick) = { l with examining := l.registered } := by
      simp only [Listener.move, Listener.step, hnone]
      rfl
    rw [hbegun]
    have hmoved : Kept { l with examining := l.registered } :=
      ⟨h.numbered, h.registered, h.done, h.stopping, h.closing⟩
    exact ⟨rfl, hmoved.examining_moves hms timeout⟩

/-! ## The end of a listener -/

/-- A listener that has left off accepting takes up no connection. -/
structure Retired (idleTimeout : Option Nat) (l : Listener Unit) : Prop where
  told : l.stopping = true
  shut : ∀ ms, (l.moves idleTimeout ms).phase ≠ .accepting ∧
    (l.moves idleTimeout ms).visits.length = l.visits.length ∧
    (l.moves idleTimeout ms).registered ⊆ l.registered
  closed : ∀ ms, (l.moves idleTimeout ms).phase = .returned → ∀ id ∈ l.registered,
    ∃ v ∈ (l.moves idleTimeout ms).visits, v.id = id ∧ v.connection.isOpen = false

theorem Does.shut {x : Move} {l' : Listener Unit} (hdoes : Does idleTimeout l x l')
    (h : l.phase ≠ .accepting) :
    l'.phase ≠ .accepting ∧ l'.visits.length = l.visits.length ∧
      l'.registered ⊆ l.registered := by
  have hsame := List.Subset.refl l.registered
  cases hdoes with
  | nothing | ticks | told | passes => exact ⟨h, rfl, hsame⟩
  | accepts hphase | retires _ hphase => exact absurd hphase h
  | begins | reads | acts | refuses | examines => exact ⟨h, List.length_map _, hsame⟩
  | leaves => exact ⟨h, List.length_map _, List.filter_sublist.subset⟩
  | closes => exact ⟨Phase.noConfusion, List.length_map _, hsame⟩
  | drains | returns | givesUp => exact ⟨Phase.noConfusion, rfl, hsame⟩

theorem Kept.shut_moves (h : l.Kept) (hphase : l.phase ≠ .accepting) (ms : List Move) :
    (l.moves idleTimeout ms).phase ≠ .accepting ∧
      (l.moves idleTimeout ms).visits.length = l.visits.length ∧
      (l.moves idleTimeout ms).registered ⊆ l.registered := by
  induction ms generalizing l with
  | nil => exact ⟨hphase, rfl, List.Subset.refl _⟩
  | cons x ms ih =>
    have hdoes : Does idleTimeout l x (l.move idleTimeout x) := does_move h.numbered x
    obtain ⟨hleft, hlength, hless⟩ := hdoes.shut hphase
    obtain ⟨hlater, hlengths, hlesser⟩ := ih (h.move x) hleft
    exact ⟨hlater, hlengths.trans hlength, List.Subset.trans hlesser hless⟩

/-- A listener that waits for its tasks has closed every connection. -/
theorem Kept.all_closed (h : l.Kept) (hphase : l.phase = .draining ∨ l.phase = .returned) :
    ∀ v ∈ l.visits, v.connection.isOpen = false := by
  intro v hv
  have hnone : l.phase.toClose? = some [] := by
    rcases hphase with hphase | hphase <;> rw [hphase] <;> rfl
  exact Bool.eq_false_iff.mpr fun hopen => List.not_mem_nil (h.closing [] hnone v hv hopen)

theorem Kept.retired (h : l.Kept) (hphase : l.phase ≠ .accepting) : l.Retired idleTimeout := by
  refine ⟨h.stopping hphase, h.shut_moves hphase, fun ms hreturned id hid => ?_⟩
  have hlater : (l.moves idleTimeout ms).Kept := h.moves ms
  obtain ⟨v, hv, rfl⟩ := h.exists_of_mem_registered hid
  have hmem : v.id ∈ (l.moves idleTimeout ms).visits.map Visit.id := by
    rw [show (l.moves idleTimeout ms).visits.map Visit.id = _ from hlater.numbered,
      (h.shut_moves hphase ms).2.1, ← show l.visits.map Visit.id = _ from h.numbered]
    exact List.mem_map_of_mem hv
  obtain ⟨w, hw, hid⟩ := List.mem_map.mp hmem
  exact ⟨w, hw, hid, hlater.all_closed (.inr hreturned) w hw⟩

/-- The listener for mail moves in no other ways. -/
theorem alike_mail {ω : Type} (setup : Smtp.Setup) (keep : Smtp.Keep ω) (idleTimeout : Option Nat)
    (desk : Smtp.Desk ω) (ls : List Label) : ∃ ms : List Move,
      (steps (Smtp.Service.protocol .standard setup keep) {} idleTimeout {} desk ls).1.Alike
        (moves idleTimeout {} ms) :=
  alike_empty.steps rfl (Smtp.Service.orderly_protocol .standard setup keep) {} desk ls

/-- Nor does the one for events, which looks for no idle connections. -/
theorem alike_link (ids : Nat → Nat → Uuid) (events : List Event) (ls : List Label) :
    let intake := (Event.intake ids).within Prod.snd fun (t : Unit × List Event) es => (t.1, es)
    ∃ ms : List Move, (steps intake () none {} events ls).1.Alike (moves none {} ms) :=
  alike_empty.steps rfl ((Event.orderly_intake ids).within _ _) () events ls

/-- However accepting, the tasks, the search for idle connections and the end of the listener come
in between of each other: the registry holds exactly those connections whose tasks have not left,
idle ones and no others are closed for that, and when the listener returns every connection is
closed. The rows of steps of a listener are among the rows of moves. -/
theorem registry_in_every_interleaving {κ σ : Type} (p : LineProtocol (κ × σ)) (hp : p.Orderly)
    (state : κ) (shared : σ) (idleTimeout : Option Nat) :
    (∀ ms : List Move,
      let l := moves idleTimeout {} ms
      (l.visits.map Visit.id).Pairwise (· < ·) ∧
      l.registered.Nodup ∧
      (∀ id ∈ l.registered, ∃ v ∈ l.visits, v.id = id) ∧
      (∀ v ∈ l.visits, (v.id ∈ l.registered ↔ v.stage ≠ .gone) ∧
        (v.stage = .ended ∨ v.stage = .gone → v.connection.isOpen = false) ∧
        (uses idleTimeout {} ms).lookup v.id = some v.connection.lastActivity) ∧
      (∀ timeout, idleTimeout = some timeout → l.Reaps timeout) ∧
      (l.phase ≠ .accepting → l.Retired idleTimeout) ∧
      (l.phase = .draining ∨ l.phase = .returned → ∀ v ∈ l.visits, v.connection.isOpen = false)) ∧
    ∀ ls : List Label, ∃ ms : List Move,
      (steps p state idleTimeout {} shared ls).1.Alike (moves idleTimeout {} ms) := by
  refine ⟨fun ms => ?_, fun ls => alike_empty.steps rfl hp state shared ls⟩
  have hkept : (moves idleTimeout {} ms).Kept := kept_empty.moves ms
  have hrecorded : Recorded (uses idleTimeout {} ms) (moves idleTimeout {} ms) := by
    have hempty : Recorded [] {} := List.forall_mem_nil _
    exact (List.append_nil (uses idleTimeout {} ms)) ▸ hempty.moves kept_empty ms
  refine ⟨?_, ?_, fun id hid => hkept.exists_of_mem_registered hid, fun v hv => ?_,
    fun timeout _ => hkept.reaps timeout, hkept.retired, hkept.all_closed⟩
  · rw [show List.map Visit.id _ = _ from hkept.numbered]
    exact List.pairwise_lt_range'
  · rw [hkept.registered]
    exact (hkept.numbered.nodup.sublist (List.filter_sublist.map _))
  · exact ⟨hkept.mem_registered hv, hkept.done v hv, hrecorded v hv⟩

/-- The first of two connections is idle for too long, and its task leaves; the second one is closed
when the listener is to end. -/
theorem registry_in_every_interleaving_of_two :
    (Smtp.Service.protocol .standard ⟨"sink.test", 1000⟩ MemoryStore.save).Orderly ∧
      let l := moves (some 100) {}
        [.step .accept, .step (.begin 1), .step (.pass 60), .step .accept, .act 2 .touch,
          .step (.pass 60), .step .tick, .step .examine, .step .examine, .step (.read 1 .ended),
          .step (.leave 1), .step .shutdown, .step .retire, .step .closeNext, .step .closeNext,
          .step .graceOver]
      l.registered = [2] ∧ l.phase = .returned ∧ ∀ v ∈ l.visits, v.connection.isOpen = false := by
  have hp := Smtp.Service.orderly_protocol .standard ⟨"sink.test", 1000⟩ MemoryStore.save
  obtain ⟨-, -, -, -, -, -, hclosed⟩ :=
    (registry_in_every_interleaving _ hp {} ⟨{}, []⟩ (some 100)).1
    [.step .accept, .step (.begin 1), .step (.pass 60), .step .accept, .act 2 .touch,
      .step (.pass 60), .step .tick, .step .examine, .step .examine, .step (.read 1 .ended),
      .step (.leave 1), .step .shutdown, .step .retire, .step .closeNext, .step .closeNext,
      .step .graceOver]
  exact ⟨hp, rfl, rfl, hclosed (.inr rfl)⟩

end Letterbox.Listener
