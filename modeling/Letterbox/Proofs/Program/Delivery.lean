import Mathlib.Data.List.Infix
import Letterbox.Proofs.Program.Wiring
import Letterbox.Proofs.Smtp.Listening

/-!
# From the clients to the dispatcher

Beside a run a record is kept of what the clients said and what came of it. A message that the store
has taken, on whatever connection, is announced once, and the dispatcher makes one task for it.
-/

set_option autoImplicit false

namespace Letterbox.Program

open Smtp (Turn ofConnection)

variable {ω : Type} (keep : Smtp.Keep ω)

/-! ## What the clients say -/

def takenBy (p : Program ω) : Label ω → List (Nat × Bytes)
  | .mail l =>
    if p.isEnded then [] else (p.mail.map fun mail => Smtp.takenIn mail l).getD []
  | _ => []

def turnsOf (p : Program ω) : Label ω → List (Nat × Turn)
  | .mail l =>
    if p.isEnded then []
    else (p.mail.map fun mail => Smtp.turned p.setup keep mail p.world l).getD []
  | _ => []

def connections (p : Program ω) : List Nat :=
  (p.mail.map fun mail => mail.visits.map Visit.id).getD []

/-- The connections of the program agree with a record of what was said. -/
structure Attends (config : Config) (taken : List (Nat × Bytes)) (turns : List (Nat × Turn))
    (p : Program ω) : Prop where
  config : p.config = config
  attended : ∀ mail, p.mail = some mail → Smtp.Attended p.setup taken turns mail
  unbound : p.mail = none → taken = [] ∧ turns = []

variable {config : Config} {taken : List (Nat × Bytes)} {turns : List (Nat × Turn)}
  {p p' : Program ω}

theorem attends_start (config : Config) (world : ω) : Attends config [] [] (start config world) :=
  ⟨rfl, nofun, fun _ => ⟨rfl, rfl⟩⟩

/-! ## Steps that do not concern the mail -/

def mailSide (p : Program ω) : Config × Option (Listener Smtp.Receiver) × ω :=
  (p.config, p.mail, p.world)

theorem mailSide_tell (p : Program ω) (e : Event) (telling after : Stage) :
    (p.tell e telling after).mailSide = p.mailSide := by
  unfold Program.tell
  split <;> rfl

theorem mailSide_afterTelling (p : Program ω) (heard : Bool) :
    (p.afterTelling heard).mailSide = p.mailSide := by
  cases h : p.stage <;> simp only [Program.afterTelling, h, Program.startForwarder] <;> rfl

theorem mailSide_afterRules (p : Program ω) (answer : Except Failure (List Rule)) :
    (p.afterRules answer).mailSide = p.mailSide := by
  unfold Program.afterRules
  split <;> rfl

theorem mailSide_goOn (p : Program ω) : p.goOn.mailSide = p.mailSide := by
  unfold Program.goOn
  split
  · exact mailSide_tell p _ _ _
  · rfl
  · rfl

theorem mailSide_join (p : Program ω) : p.join.mailSide = p.mailSide := by
  unfold Program.join
  split
  · split
    · exact mailSide_goOn p
    · rfl
  · rfl

theorem mailSide_onLink (p : Program ω) (l : Listener.Label) (ids : Nat → Nat → Uuid) :
    (p.onLink l ids).mailSide = p.mailSide := by
  unfold Program.onLink
  split <;> rfl

theorem mailSide_onDispatcher (p : Program ω) (now : Nat) (l : Dispatcher.Label) :
    (p.onDispatcher now l).mailSide = p.mailSide := by
  unfold Program.onDispatcher
  split <;> rfl

theorem mailSide_deliver (p : Program ω) : p.deliver.mailSide = p.mailSide := by
  unfold Program.deliver
  repeat' split
  all_goals rfl

theorem mailSide_forward (p : Program ω) : p.forward.mailSide = p.mailSide := by
  unfold Program.forward
  repeat' split
  all_goals rfl

theorem mailSide_afterForwarding (p : Program ω) (heard : Bool) :
    (p.afterForwarding heard).mailSide = p.mailSide := by
  unfold Program.afterForwarding
  repeat' split
  all_goals rfl

theorem mailSide_forwarderLeaves (p : Program ω) : p.forwarderLeaves.mailSide = p.mailSide := by
  unfold Program.forwarderLeaves
  repeat' split
  all_goals rfl

theorem mailSide_onMail {mail : Listener Smtp.Receiver} (h : p.mail = some mail)
    (l : Listener.Label) :
    (p.onMail keep l).mailSide =
      (p.config, some (p.mailStep keep mail l).1, (p.mailStep keep mail l).2.store) := by
  simp only [Program.onMail, h]
  rfl

theorem mailSide_interrupt (p : Program ω) (hstage : p.stage = .running) :
    (p.interrupt keep).mailSide = (p.onMail keep .shutdown).mailSide := by
  simp only [Program.interrupt, hstage]
  exact (mailSide_onDispatcher _ 0 .shutdown).trans (mailSide_onLink _ .shutdown _)

theorem Attends.of_same (h : Attends config taken turns p) (hconfig : p'.config = p.config)
    (hmail : p'.mail = p.mail) : Attends config taken turns p' := by
  refine ⟨hconfig.trans h.config, fun mail hm => ?_, fun hnone => h.unbound (hmail ▸ hnone)⟩
  have hsetup : p'.setup = p.setup := by rw [Program.setup, Program.setup, hconfig]
  rw [hsetup]
  exact h.attended mail (hmail ▸ hm)

/-! ## One step -/

/-- What a step does to the listener for mail: it takes a step itself, or it is set up, or it is
left alone. -/
inductive Concerns (p : Program ω) (l : Label ω) : Prop where
  | serves (mail : Listener Smtp.Receiver) (k : Listener.Label) (hmail : p.mail = some mail)
    (hside : (p.step keep l).mailSide =
      (p.config, some (p.mailStep keep mail k).1, (p.mailStep keep mail k).2.store))
    (htaken : p.takenBy l = Smtp.takenIn mail k)
    (hturns : p.turnsOf keep l = Smtp.turned p.setup keep mail p.world k)
    (hpublished : p.published keep l = (p.mailStep keep mail k).2.events.map (.here, ·))
  | opens (hmail : p.mail = none) (hside : (p.step keep l).mailSide = (p.config, some {}, p.world))
    (htaken : p.takenBy l = []) (hturns : p.turnsOf keep l = [])
    (hpublished : ∀ x ∈ p.published keep l, x.1 = .here → x.2.message? = none)
  | stays (hconfig : (p.step keep l).config = p.config) (hmail : (p.step keep l).mail = p.mail)
    (hworld : (p.step keep l).world = p.world ∨ ∃ now k world, l = .dispatcher now k world)
    (htaken : p.takenBy l = []) (hturns : p.turnsOf keep l = [])
    (hpublished : ∀ x ∈ p.published keep l, x.1 = .here → x.2.message? = none)

theorem Concerns.of_same {l : Label ω} (hside : (p.step keep l).mailSide = p.mailSide)
    (htaken : p.takenBy l = []) (hturns : p.turnsOf keep l = [])
    (hpublished : ∀ x ∈ p.published keep l, x.1 = .here → x.2.message? = none) :
    Concerns keep p l := by
  simp only [mailSide, Prod.mk.injEq] at hside
  exact .stays hside.1 hside.2.1 (.inl hside.2.2) htaken hturns hpublished

/-- A step that publishes nothing. -/
theorem Concerns.of_silent (hended : ¬p.isEnded = true) {l : Label ω}
    (hside : (p.step keep l).mailSide = p.mailSide) (htaken : p.takenBy l = [])
    (hturns : p.turnsOf keep l = []) (hputs : p.puts keep l = []) : Concerns keep p l := by
  refine .of_same keep hside htaken hturns ?_
  rw [published_eq_puts hended, hputs]
  exact List.forall_mem_nil _

section
variable (hended : ¬p.isEnded = true)
include hended

theorem concerns_mail (k : Listener.Label) : Concerns keep p (.mail k) := by
  have hstep : p.step keep (.mail k) = if k = .shutdown then p else p.onMail keep k :=
    if_neg hended
  have htaken : p.takenBy (.mail k) = (p.mail.map fun mail => Smtp.takenIn mail k).getD [] :=
    if_neg hended
  have hturns : p.turnsOf keep (.mail k) =
      (p.mail.map fun mail => Smtp.turned p.setup keep mail p.world k).getD [] := if_neg hended
  by_cases hk : k = .shutdown
  · subst hk
    rw [if_pos rfl] at hstep
    refine .of_silent keep hended (congrArg mailSide hstep) ?_ ?_ rfl
    · rw [htaken]
      cases p.mail <;> rfl
    · rw [hturns]
      cases p.mail <;> rfl
  · rw [if_neg hk] at hstep
    have hputs : p.puts keep (.mail k) = publishedBy .here p.mail
      fun mail => (p.mailStep keep mail k).2.events := if_neg hk
    cases hmail : p.mail with
    | none =>
      rw [hmail] at htaken hturns hputs
      refine .of_silent keep hended ?_ htaken hturns hputs
      simp only [hstep, Program.onMail, hmail]
    | some mail =>
      rw [hmail] at htaken hturns hputs
      exact .serves mail k hmail (hstep ▸ mailSide_onMail keep hmail k) htaken hturns
        ((published_eq_puts hended _).trans hputs)

theorem concerns_interrupt : Concerns keep p .interrupt := by
  have hstep : p.step keep .interrupt = p.interrupt keep := if_neg hended
  by_cases hrunning : p.stage = .running
  · have hside := hstep ▸ mailSide_interrupt keep p hrunning
    cases hmail : p.mail with
    | none =>
      refine .of_silent keep hended (hside.trans ?_) rfl rfl rfl
      simp only [Program.onMail, hmail]
    | some mail =>
      exact .serves mail .shutdown hmail (hside.trans (mailSide_onMail keep hmail _)) rfl rfl
        (published_eq_puts hended _)
  · exact .of_silent keep hended (by rw [hstep, interrupt_of_ne hrunning]) rfl rfl rfl

theorem concerns_mailBound (hstage : p.stage.Fits p) (answer : Except SystemFault UInt16) :
    Concerns keep p (.mailBound answer) := by
  have hstep : p.step keep (.mailBound answer) = p.afterMailBound answer := if_neg hended
  by_cases hbinding : p.stage = .bindingMail
  · cases answer with
    | ok port =>
      rw [hbinding] at hstage
      have hputs : p.puts keep (.mailBound (.ok port)) = [(.here, bindEvent p.config port)] :=
        if_pos hbinding
      refine .opens hstage.2 ?_ rfl rfl ?_
      · rw [hstep]
        simp only [afterMailBound, hbinding]
        exact mailSide_tell _ _ _ _
      · rw [published_eq_puts hended, hputs]
        exact List.forall_mem_singleton.mpr fun _ => rfl
    | error fault =>
      refine .of_silent keep hended ?_ rfl rfl rfl
      simp only [hstep, afterMailBound, hbinding]
      rfl
  · refine .of_silent keep hended (by rw [hstep, afterMailBound_of_ne hbinding]) rfl rfl ?_
    cases answer with
    | ok port => exact if_neg hbinding
    | error fault => rfl

/-- What comes over the link was not published here. -/
theorem concerns_link (k : Listener.Label) (ids : Nat → Nat → Uuid) :
    Concerns keep p (.link k ids) := by
  have hstep : p.step keep (.link k ids) = if k = .shutdown then p else p.onLink k ids :=
    if_neg hended
  refine .of_same keep ?_ rfl rfl ?_
  · rw [hstep]
    split
    · rfl
    · exact mailSide_onLink p k ids
  · intro x hx hhere
    rw [published_eq_puts hended, puts] at hx
    split at hx
    · exact absurd hx List.not_mem_nil
    · obtain ⟨e, -, rfl⟩ := List.mem_map.mp hx
      cases hhere

/-- The dispatcher announces failures, and no messages. -/
theorem concerns_dispatcher (now : Nat) (k : Dispatcher.Label) (world : ω) :
    Concerns keep p (.dispatcher now k world) := by
  have hstep : p.step keep (.dispatcher now k world) =
      if k.isOwn then { p with world }.onDispatcher now k else p := if_neg hended
  have hside : (p.step keep (.dispatcher now k world)).config = p.config ∧
      (p.step keep (.dispatcher now k world)).mail = p.mail := by
    rw [hstep]
    split
    · have hsame := mailSide_onDispatcher { p with world } now k
      simp only [mailSide, Prod.mk.injEq] at hsame
      exact ⟨hsame.1, hsame.2.1⟩
    · exact ⟨rfl, rfl⟩
  refine .stays hside.1 hside.2 (.inr ⟨now, k, world, rfl⟩) rfl rfl ?_
  intro x hx _
  rw [published_eq_puts hended, puts] at hx
  split at hx
  · cases hd : p.dispatcher with
    | none =>
      rw [hd] at hx
      cases hx
    | some y =>
      obtain ⟨events, hannounced, hnone⟩ := y.1.announced_step now k
      rw [hd, publishedBy, Option.map_some, Option.getD_some, hannounced, List.drop_left] at hx
      obtain ⟨e, he, rfl⟩ := List.mem_map.mp hx
      exact List.filterMap_eq_nil_iff.mp hnone e he
  · cases hx

end

theorem concerns_step (hstage : p.stage.Fits p) (l : Label ω) : Concerns keep p l := by
  by_cases hended : p.isEnded = true
  · have hstep : p.step keep l = p := if_pos hended
    have hpublished : p.published keep l = [] := if_pos hended
    refine .of_same keep (congrArg mailSide hstep) ?_ ?_ ?_
    · cases l <;> simp only [takenBy, hended, if_true]
    · cases l <;> simp only [turnsOf, hended, if_true]
    · rw [hpublished]
      exact List.forall_mem_nil _
  have hsilent {l : Label ω} {p' : Program ω} (hstep : p.step keep l = p')
      (hside : p'.mailSide = p.mailSide) (htaken : p.takenBy l = [])
      (hturns : p.turnsOf keep l = []) (hputs : p.puts keep l = []) : Concerns keep p l :=
    .of_silent keep hended (hstep ▸ hside) htaken hturns hputs
  -- Only mail, its port and the end of the program reach the listener for mail.
  cases l with
  | prepare =>
    refine hsilent (if_neg hended) ?_ rfl rfl rfl
    dsimp only
    split
    · exact mailSide_tell p _ _ _
    · rfl
  | linkBound answer =>
    refine hsilent (if_neg hended) ?_ rfl rfl rfl
    dsimp only
    split <;> rfl
  | told heard => exact hsilent (if_neg hended) (mailSide_afterTelling p heard) rfl rfl rfl
  | rules answer => exact hsilent (if_neg hended) (mailSide_afterRules p answer) rfl rfl rfl
  | joined => exact hsilent (if_neg hended) (mailSide_join p) rfl rfl rfl
  | graceOver => exact hsilent (if_neg hended) (mailSide_goOn p) rfl rfl rfl
  | deliver => exact hsilent (if_neg hended) (mailSide_deliver p) rfl rfl rfl
  | forward => exact hsilent (if_neg hended) (mailSide_forward p) rfl rfl rfl
  | forwarded heard => exact hsilent (if_neg hended) (mailSide_afterForwarding p heard) rfl rfl rfl
  | forwarderLeaves => exact hsilent (if_neg hended) (mailSide_forwarderLeaves p) rfl rfl rfl
  | mailBound answer => exact concerns_mailBound keep hended hstage answer
  | interrupt => exact concerns_interrupt keep hended
  | mail k => exact concerns_mail keep hended k
  | link k ids => exact concerns_link keep hended k ids
  | dispatcher now k world => exact concerns_dispatcher keep hended now k world

variable {keep}

theorem Attends.step (h : Attends config taken turns p) (hstage : p.stage.Fits p) (l : Label ω) :
    Attends config (taken ++ p.takenBy l) (turns ++ p.turnsOf keep l) (p.step keep l) := by
  cases concerns_step keep hstage l with
  | serves mail k hmail hside htaken hturns hpublished =>
    simp only [mailSide, Prod.mk.injEq] at hside
    obtain ⟨hconfig, hstepped, -⟩ := hside
    have hsetup : (p.step keep l).setup = p.setup := by
      rw [Program.setup, Program.setup, hconfig]
    rw [htaken, hturns]
    refine ⟨hconfig.trans h.config, fun after hafter => ?_, fun hnone => ?_⟩
    · cases hstepped.symm.trans hafter
      rw [hsetup]
      exact ((h.attended mail hmail).step keep p.config.idleTimeoutMillis? p.world k).1
    · cases hstepped.symm.trans hnone
  | opens hmail hside htaken hturns hpublished =>
    obtain ⟨rfl, rfl⟩ := h.unbound hmail
    simp only [mailSide, Prod.mk.injEq] at hside
    obtain ⟨hconfig, hopened, -⟩ := hside
    rw [htaken, hturns]
    refine ⟨hconfig.trans h.config, fun mail hm => ?_, fun hnone => ?_⟩
    · cases hopened.symm.trans hm
      exact Smtp.attended_empty
    · cases hopened.symm.trans hnone
  | stays hconfig hmail hworld htaken hturns hpublished =>
    rw [htaken, hturns, List.append_nil, List.append_nil]
    exact h.of_same hconfig hmail

/-- The store is given what the turns of a step save, and nothing else. -/
theorem Attends.saves_step (h : Attends config taken turns p) (hstage : p.stage.Fits p)
    {l : Label ω} (hl : ∀ now k world, l ≠ .dispatcher now k world) :
    keep.Leads p.world ((p.turnsOf keep l).filterMap (·.2.save?)) (p.step keep l).world := by
  cases concerns_step keep hstage l with
  | serves mail k hmail hside htaken hturns hpublished =>
    simp only [mailSide, Prod.mk.injEq] at hside
    rw [hturns, hside.2.2]
    exact ((h.attended mail hmail).step keep p.config.idleTimeoutMillis? p.world k).2.saves
  | opens hmail hside htaken hturns hpublished =>
    simp only [mailSide, Prod.mk.injEq] at hside
    rw [hturns, hside.2.2]
    exact .nil
  | stays hconfig hmail hworld htaken hturns hpublished =>
    rcases hworld with hworld | ⟨now, k, world, rfl⟩
    · rw [hturns, hworld]
      exact .nil
    · exact absurd rfl (hl now k world)

def ownMessages (log : List (Origin × Event)) : List ReceivedMessage :=
  (log.filter (·.1 = .here)).filterMap (·.2.message?)

theorem ownMessages_eq_nil {log : List (Origin × Event)}
    (h : ∀ x ∈ log, x.1 = .here → x.2.message? = none) : ownMessages log = [] := by
  refine List.filterMap_eq_nil_iff.mpr fun x hx => ?_
  obtain ⟨hmem, hhere⟩ := List.mem_filter.mp hx
  exact h x hmem (of_decide_eq_true hhere)

theorem ownMessages_map (events : List Event) :
    ownMessages (events.map (.here, ·)) = events.filterMap Event.message? := by
  simp [ownMessages, List.filter_map, List.filterMap_map, Function.comp_def]

theorem ownMessages_append (log more : List (Origin × Event)) :
    ownMessages (log ++ more) = ownMessages log ++ ownMessages more := by
  rw [ownMessages, List.filter_append, List.filterMap_append, ownMessages, ownMessages]

theorem ownMessages_eq {log : List (Origin × Event)} (h : ∀ m, (.peer, .newMessage m) ∉ log) :
    ownMessages log = log.filterMap (·.2.message?) := by
  rw [ownMessages, List.filterMap_filter]
  refine List.filterMap_congr fun x hx => ?_
  obtain ⟨origin, e⟩ := x
  cases origin with
  | here => rfl
  | peer =>
    cases e with
    | newMessage m => exact absurd hx (h m)
    | _ => rfl

/-- The messages that a step publishes here are those that its turns announce. -/
theorem Attends.ownMessages_step (h : Attends config taken turns p) (hstage : p.stage.Fits p)
    (l : Label ω) :
    ownMessages (p.published keep l) = (p.turnsOf keep l).filterMap (·.2.announced?) := by
  cases concerns_step keep hstage l with
  | serves mail k hmail hside htaken hturns hpublished =>
    have hevents := ((h.attended mail hmail).step keep p.config.idleTimeoutMillis? p.world
      k).2.events
    rw [hpublished, hturns, ownMessages_map, mailStep, hevents, List.filterMap_filterMap]
    rfl
  | opens hmail hside htaken hturns hpublished =>
    rw [hturns, ownMessages_eq_nil hpublished]
    rfl
  | stays hconfig hmail hworld htaken hturns hpublished =>
    rw [hturns, ownMessages_eq_nil hpublished]
    rfl

/-! ## Runs -/

/-- The dispatcher has had everything that was published. -/
def DispatcherDone (p : Program ω) : Prop :=
  ∀ x ∈ p.dispatcher, p.bus.readers[x.2]? = some (some p.bus.written) ∧ x.1.inbox = []

instance : Decidable p.DispatcherDone :=
  inferInstanceAs (Decidable (∀ x ∈ p.dispatcher, _ ∧ x.1.inbox = []))

variable {always always' : Prop} {log : List (Origin × Event)} {messages : List ReceivedMessage}

/-- The dispatcher makes tasks for messages of the bus, each once and in the order of the bus. -/
theorem Wired.messages_sublist (h : Wired always always' (log.map (·.2)) messages p) :
    messages.Sublist (log.filterMap (·.2.message?)) := by
  cases hd : p.dispatcher with
  | none =>
    rw [(h.unheard hd).2.1]
    exact List.nil_sublist _
  | some x =>
    obtain ⟨d, reader⟩ := x
    obtain ⟨-, -, got, ⟨place, -, hsublist, -⟩, hmessages⟩ := h.dispatcher d reader hd
    have hgot : (got.filterMap Event.message?).Sublist (log.filterMap (·.2.message?)) := by
      have hall := (hsublist.trans (List.take_sublist place _)).filterMap Event.message?
      rwa [List.filterMap_map] at hall
    exact (hmessages ▸ List.sublist_append_left _ _).trans hgot

/-- If it always followed, and has had everything, it has made a task for every message. -/
theorem Wired.messages_of_done (h : Wired always always' (log.map (·.2)) messages p)
    (hfollows : always) (hdone : p.DispatcherDone) :
    messages = log.filterMap (·.2.message?) := by
  cases hd : p.dispatcher with
  | none =>
    obtain ⟨hlog, hmessages, -⟩ := h.unheard hd
    rw [hmessages, List.map_eq_nil_iff.mp hlog]
    rfl
  | some x =>
    obtain ⟨d, reader⟩ := x
    obtain ⟨hplace, hinbox⟩ := hdone (d, reader) hd
    obtain ⟨-, -, got, ⟨place, hplace', -, hall⟩, hmessages⟩ := h.dispatcher d reader hd
    cases hplace.symm.trans hplace'
    rw [hinbox, List.filterMap_nil, List.append_nil, hall hfollows, h.bus.written,
      List.take_length, List.filterMap_map] at hmessages
    exact hmessages

theorem fits_steps (keep : Smtp.Keep ω) (config : Config) (world : ω) (ls : List (Label ω)) :
    ((start config world).steps keep ls).stage.Fits ((start config world).steps keep ls) := by
  have hwired : Wired False False _ _ ((start config world).steps keep ls) :=
    wired_steps config world ls False.elim False.elim
  exact hwired.stage

/-- What the clients said and what was announced, throughout a run. -/
theorem attends_steps (keep : Smtp.Keep ω) (config : Config) (world : ω) (ls : List (Label ω)) :
    Attends config (gather keep takenBy (start config world) ls)
        (gather keep (turnsOf keep) (start config world) ls) ((start config world).steps keep ls) ∧
      ownMessages (gather keep (published keep) (start config world) ls) =
        (gather keep (turnsOf keep) (start config world) ls).filterMap (·.2.announced?) := by
  induction ls using List.reverseRecOn with
  | nil => exact ⟨attends_start config world, rfl⟩
  | append_singleton ls l ih =>
    obtain ⟨hattends, hmessages⟩ := ih
    have hstage := fits_steps keep config world ls
    rw [gather_concat, gather_concat, gather_concat, steps_append]
    refine ⟨hattends.step hstage l, ?_⟩
    rw [ownMessages_append, hmessages, hattends.ownMessages_step hstage l, List.filterMap_append]

/-- The messages that the clients gave and the store took, one connection after the other. -/
def savedMessages (p : Program ω) (turns : List (Nat × Turn)) : List ReceivedMessage :=
  p.connections.flatMap fun id => Smtp.accepted (ofConnection id turns)

theorem Attends.savedMessages_perm (h : Attends config taken turns p) :
    (p.savedMessages turns).Perm (turns.filterMap (·.2.announced?)) := by
  cases hmail : p.mail with
  | none =>
    have hnone : p.savedMessages turns = [] := by simp only [savedMessages, connections, hmail]; rfl
    rw [hnone, (h.unbound hmail).2]
    exact .nil
  | some mail =>
    have hsome : p.savedMessages turns = (mail.visits.map Visit.id).flatMap fun id =>
        Smtp.accepted (ofConnection id turns) := by
      simp only [savedMessages, connections, hmail]; rfl
    rw [hsome]
    exact (h.attended mail hmail).perm_accepted

/-- Two clients, whose mail comes in pieces one after the other. The store does not take the first
message of the second. -/
def twoClients : List (Label MemoryStore) :=
  let said := fun (id : Nat) (text : String) => .mail (.read id (.bytes (Utf8.encode text)))
  [.prepare, .told true, .rules (.ok []), .linkBound true, .mailBound (.ok 2525), .told true,
    .mail .accept, .mail .accept, .mail (.begin 1), .mail (.begin 2),
    said 1 "MAIL FROM:<a@b.com>\r\nRCPT TO:<c@d.com>\r\n",
    said 2 "MAIL FROM:<x@y.z>\r\nRCPT TO:<u@v.w>\r\nDATA\r\n",
    said 1 "DATA\r\nhi\r\n.\r\n", said 2 "ho\r\n.\r\n", .deliver,
    said 2 "MAIL FROM:<x@y.z>\r\nRCPT TO:<u@v.w>\r\nDATA\r\nho ho\r\n.\r\n",
    .dispatcher 0 .receive {}, .deliver, .dispatcher 0 .receive {}, .deliver,
    .dispatcher 0 .receive {}]

/-- The course of that run. -/
theorem course_twoClients :
    let first := start (Config.ofMachine "sink.test") { failing := [2] }
    (∀ mid ∈ twoClients.inits, (first.steps MemoryStore.save mid).bus.written ≤
        (first.steps MemoryStore.save mid).bus.slots.length) ∧
      gather MemoryStore.save (published MemoryStore.save) first twoClients =
        [(.here, .smtpServerBind "any" 2525),
          (.here, .newMessage ⟨"/store/msg-1.eml", "a@b.com", ["c@d.com"], 4⟩),
          (.here, .newMessage ⟨"/store/msg-3.eml", "x@y.z", ["u@v.w"], 7⟩)] ∧
      gather MemoryStore.save (begun MemoryStore.save) first twoClients =
        [⟨"/store/msg-1.eml", "a@b.com", ["c@d.com"], 4⟩,
          ⟨"/store/msg-3.eml", "x@y.z", ["u@v.w"], 7⟩] ∧
      (first.steps MemoryStore.save twoClients).DispatcherDone := by
  decide +kernel

end Letterbox.Program
