import Mathlib.Data.List.Induction
import Letterbox.Program.Basic
import Letterbox.Proofs.Dispatch.Steps
import Letterbox.Proofs.Event.History

/-!
# What goes over the bus

Every event that a part of the program publishes is seen by the dispatcher and by the forwarder, in
the order of the bus. Beside a run a record is kept of what was published, where it came from, and
which messages the dispatcher has made tasks for; the parts agree with that record after every step.
-/

set_option autoImplicit false

namespace Letterbox

namespace Program

variable {ω : Type} (keep : Smtp.Keep ω)

/-! ## Records of a run -/

inductive Origin where
  /-- From a part of this program: mail that it took, its port for mail, a rule that failed here. -/
  | here
  /-- From another process, over the event link. -/
  | peer
deriving DecidableEq, Repr

/-- One step of the listener for mail, at its desk. -/
def mailStep (p : Program ω) (mail : Listener Smtp.Receiver) (l : Listener.Label) :
    Listener Smtp.Receiver × Smtp.Desk ω :=
  mail.step (Smtp.Service.protocol .standard p.setup keep) {} p.config.idleTimeoutMillis?
    { store := p.world } l

def publishedBy {κ : Type} (origin : Origin) (part : Option κ) (f : κ → List Event) :
    List (Origin × Event) :=
  ((part.map f).getD []).map (origin, ·)

theorem map_publishedBy {κ : Type} (origin : Origin) (part : Option κ) (f : κ → List Event) :
    (publishedBy origin part f).map (·.2) = (part.map f).getD [] := by
  rw [publishedBy, List.map_map]
  exact List.map_id _

/-- The events that a step of a program that has not ended puts on the bus. -/
def puts (p : Program ω) : Label ω → List (Origin × Event)
  | .mailBound (.ok port) =>
    if p.stage = .bindingMail then [(.here, bindEvent p.config port)] else []
  | .mail l =>
    if l = .shutdown then []
    else publishedBy .here p.mail fun mail => (p.mailStep keep mail l).2.events
  | .link l ids =>
    if l = .shutdown then []
    else publishedBy .peer p.link fun link => (link.step (intake ids) () none [] l).2
  | .dispatcher now l _ =>
    if l.isOwn then
      publishedBy .here p.dispatcher fun d => (d.1.step now l).announced.drop d.1.announced.length
    else []
  | _ => []

def published (p : Program ω) (l : Label ω) : List (Origin × Event) :=
  if p.isEnded then [] else p.puts keep l

def begun (p : Program ω) (l : Label ω) : List ReceivedMessage :=
  match p.dispatcher, (p.step keep l).dispatcher with
  | some (d, _), some (d', _) => d.spawned d'
  | _, _ => []

/-- What the steps of a run add to a record. -/
def gather {β : Type} (note : Program ω → Label ω → List β) (p : Program ω) :
    List (Label ω) → List β
  | [] => []
  | l :: rest => note p l ++ gather note (p.step keep l) rest

theorem steps_append (p : Program ω) (ls more : List (Label ω)) :
    p.steps keep (ls ++ more) = (p.steps keep ls).steps keep more := by
  induction ls generalizing p with
  | nil => rfl
  | cons l ls ih => exact ih (p.step keep l)

theorem gather_concat {β : Type} (note : Program ω → Label ω → List β) (p : Program ω)
    (ls : List (Label ω)) (l : Label ω) :
    gather keep note p (ls ++ [l]) = gather keep note p ls ++ note (p.steps keep ls) l := by
  induction ls generalizing p with
  | nil => exact List.append_nil _
  | cons k ls ih => rw [List.cons_append, gather, ih, gather, List.append_assoc]; rfl

/-! ## The parts and the record -/

def Stage.Fits (stage : Stage) (p : Program ω) : Prop :=
  match stage with
  | .preparing | .announcing => p.bus.readers = [] ∧ p.forwarder = none ∧ p.dispatcher = none
  | .loadingRules => p.dispatcher = none
  | .bindingLink | .bindingMail => p.dispatcher ≠ none ∧ p.mail = none
  | .sayingReady | .running => p.dispatcher ≠ none
  | .joining _ | .sayingExit | .ended _ => True

theorem Stage.Fits.of_dispatcher {stage : Stage} {p p' : Program ω} (h : stage.Fits p)
    (hp : p.dispatcher ≠ none) (hp' : p'.dispatcher ≠ none) (hmail : p'.mail = p.mail) :
    stage.Fits p' := by
  cases stage with
  | preparing | announcing => exact absurd h.2.2 hp
  | loadingRules => exact absurd h hp
  | bindingLink | bindingMail => exact ⟨hp', hmail.trans h.2⟩
  | sayingReady | running => exact hp'
  | joining | sayingExit | ended => trivial

theorem Stage.Fits.of_same {stage : Stage} {p p' : Program ω} (h : stage.Fits p)
    (hdispatcher : p'.dispatcher = p.dispatcher)
    (hfresh : p.bus.readers = [] ∧ p.forwarder = none →
      p'.bus.readers = [] ∧ p'.forwarder = none)
    (hmail : p.mail = none → p'.mail = none) : stage.Fits p' := by
  cases stage with
  | preparing | announcing =>
    obtain ⟨hreaders, hforwarder⟩ := hfresh ⟨h.1, h.2.1⟩
    exact ⟨hreaders, hforwarder, hdispatcher.trans h.2.2⟩
  | loadingRules => exact hdispatcher.trans h
  | bindingLink | bindingMail => exact ⟨hdispatcher ▸ h.1, hmail h.2⟩
  | sayingReady | running => exact fun hnone => h (hdispatcher.symm.trans hnone)
  | joining | sayingExit | ended => trivial

def DispatcherFollows (p : Program ω) : Prop :=
  ∀ d reader, p.dispatcher = some (d, reader) → p.bus.Follows reader

def ForwarderFollows (p : Program ω) : Prop :=
  ∀ f, p.forwarder = some f → p.bus.Follows f.reader

/-- The parts of a program agree with a record of it: these events were published, and these
messages have got tasks. The dispatcher, and the forwarder, has had everything that lies behind it
if it always followed. -/
structure Wired (always always' : Prop) (history : List Event) (messages : List ReceivedMessage)
    (p : Program ω) : Prop where
  stage : p.stage.Fits p
  bus : p.bus.Holds history
  unheard : p.dispatcher = none → history = [] ∧ messages = [] ∧ p.mail = none ∧ p.link = none
  dispatcher : ∀ d reader, p.dispatcher = some (d, reader) →
    d.Numbered ∧ d.disconnected = false ∧ ∃ got, p.bus.Got history always reader got ∧
      messages ++ d.inbox.filterMap Event.message? = got.filterMap Event.message?
  untold : p.forwarder = none → p.told.filter Event.isPassedOn = []
  forwarder : ∀ f, p.forwarder = some f → ∃ got, p.bus.Got history always' f.reader got ∧
    p.told.filter Event.isPassedOn = got.filter Event.isPassedOn
  apart : ∀ f d reader, p.forwarder = some f → p.dispatcher = some (d, reader) → f.reader ≠ reader

variable {always always' : Prop} {history : List Event} {messages : List ReceivedMessage}
  {p p' : Program ω}

theorem wired_start (config : Config) (world : ω) :
    Wired always always' [] [] (start config world) := by
  refine ⟨⟨rfl, rfl, rfl⟩, Bus.holds_ofCapacity _, fun _ => ⟨rfl, rfl, rfl, rfl⟩, ?_, fun _ => rfl,
    ?_, ?_⟩
  · intro d reader h
    cases h
  · intro f h
    cases h
  · intro f d reader h
    cases h

/-- A step that leaves alone the bus and who reads it. -/
theorem Wired.quiet (h : Wired always always' history messages p) (hbus : p'.bus = p.bus)
    (hdispatcher : p'.dispatcher = p.dispatcher)
    (hforwarder : p'.forwarder.map (·.reader) = p.forwarder.map (·.reader))
    (htold : p'.told.filter Event.isPassedOn = p.told.filter Event.isPassedOn)
    (hparts : p.dispatcher = none → p'.mail = none ∧ p'.link = none) (hstage : p'.stage.Fits p') :
    Wired always always' history messages p' := by
  have hreader : ∀ f, p'.forwarder = some f → ∃ g, p.forwarder = some g ∧ f.reader = g.reader := by
    intro f hf
    rw [hf, Option.map_some] at hforwarder
    obtain ⟨g, hg, heq⟩ := Option.map_eq_some_iff.mp hforwarder.symm
    exact ⟨g, hg, heq.symm⟩
  refine ⟨hstage, hbus ▸ h.bus, fun hnone => ?_, fun d reader hd => ?_, fun hnone => ?_,
    fun f hf => ?_, fun f d reader hf hd => ?_⟩
  · obtain ⟨hhistory, hmessages, -⟩ := h.unheard (hdispatcher ▸ hnone)
    exact ⟨hhistory, hmessages, hparts (hdispatcher ▸ hnone)⟩
  · rw [hbus]
    exact h.dispatcher d reader (hdispatcher ▸ hd)
  · rw [hnone, Option.map_none] at hforwarder
    exact htold.trans (h.untold (Option.map_eq_none_iff.mp hforwarder.symm))
  · obtain ⟨g, hg, heq⟩ := hreader f hf
    rw [hbus, heq, htold]
    exact h.forwarder g hg
  · obtain ⟨g, hg, heq⟩ := hreader f hf
    rw [heq]
    exact h.apart g d reader hg (hdispatcher ▸ hd)

theorem Wired.publishAll (h : Wired always always' history messages p) {events : List Event}
    (hevents : p.dispatcher = none → events = []) :
    Wired always always' (history ++ events) messages (p.publishAll events) := by
  -- The dispatcher reads the bus, so that what is published is kept; before there is one, nothing
  -- is published.
  cases hd : p.dispatcher with
  | none =>
    rw [hevents hd, List.append_nil]
    exact h
  | some x =>
    obtain ⟨d, reader⟩ := x
    obtain ⟨-, -, got, ⟨place, hplace, -⟩, -⟩ := h.dispatcher d reader hd
    obtain ⟨hholds, hreaders, -⟩ := h.bus.publish_all hplace events
    have hgot : ∀ {always : Prop} {reader : Nat} {got : List Event},
        p.bus.Got history always reader got →
          (p.publishAll events).bus.Got (history ++ events) always reader got :=
      fun hgot => (hgot.append h.bus events).of_readers (by rw [Program.publishAll, hreaders])
    refine ⟨?_, hholds, fun hnone => ?_, fun d reader hd => ?_, h.untold, fun f hf => ?_, h.apart⟩
    · have hsome : p.dispatcher ≠ none := hd ▸ nofun
      exact h.stage.of_dispatcher hsome hsome rfl
    · exact absurd (hd.symm.trans hnone) nofun
    · obtain ⟨hnumbered, hopen, got, h₁, h₂⟩ := h.dispatcher d reader hd
      exact ⟨hnumbered, hopen, got, hgot h₁, h₂⟩
    · obtain ⟨got, h₁, h₂⟩ := h.forwarder f hf
      exact ⟨got, hgot h₁, h₂⟩

/-! ## Setting up -/

theorem Wired.tell (h : Wired always always' history messages p) {e : Event}
    (he : e.isPassedOn = false) {telling after : Stage} (htelling : telling.Fits p)
    (hafter : after.Fits p) : Wired always always' history messages (p.tell e telling after) := by
  unfold Program.tell
  split
  · refine h.quiet rfl rfl rfl ?_ (fun hnone => (h.unheard hnone).2.2) htelling
    rw [List.filter_append, List.filter_cons_of_neg (by simp [he]), List.filter_nil,
      List.append_nil]
  · exact h.quiet rfl rfl rfl rfl (fun hnone => (h.unheard hnone).2.2) hafter

theorem Wired.prepare (h : Wired always always' history messages p)
    (hstage : p.stage = .preparing) :
    Wired always always' history messages (p.tell .appPreStart .announcing .loadingRules) := by
  have hfits := h.stage
  rw [hstage] at hfits
  exact h.tell rfl hfits hfits.2.2

theorem Wired.startForwarder (h : Wired always always' history messages p)
    (hforwarder : p.forwarder = none) (hdispatcher : p.dispatcher = none)
    (hstage : p.stage = .loadingRules) :
    Wired always always' history messages p.startForwarder := by
  obtain ⟨rfl, rfl, hparts⟩ := h.unheard hdispatcher
  refine ⟨?_, h.bus.subscribe, fun _ => ⟨rfl, rfl, hparts⟩, fun d reader hd => ?_, nofun,
    fun f hf => ?_, fun f d reader _ hd => ?_⟩
  · simp only [Program.startForwarder, hstage]
    exact hdispatcher
  · cases hdispatcher.symm.trans hd
  · cases hf
    exact ⟨[], Bus.got_subscribe p.bus, h.untold hforwarder⟩
  · cases hdispatcher.symm.trans hd

theorem Wired.afterTelling (h : Wired always always' history messages p) (heard : Bool) :
    Wired always always' history messages (p.afterTelling heard) := by
  have hparts (hnone : p.dispatcher = none) : p.mail = none ∧ p.link = none :=
    (h.unheard hnone).2.2
  cases hstage : p.stage with
  | announcing =>
    have hfits := h.stage
    rw [hstage] at hfits
    obtain ⟨-, hforwarder, hdispatcher⟩ := hfits
    simp only [Program.afterTelling, hstage]
    refine Wired.startForwarder ?_ hforwarder hdispatcher rfl
    exact h.quiet rfl rfl rfl rfl hparts hdispatcher
  | sayingReady =>
    have hfits := h.stage
    rw [hstage] at hfits
    simp only [Program.afterTelling, hstage]
    exact h.quiet rfl rfl rfl rfl hparts hfits
  | sayingExit =>
    simp only [Program.afterTelling, hstage]
    exact h.quiet rfl rfl rfl rfl hparts trivial
  | preparing | loadingRules | bindingLink | bindingMail | running | joining | ended =>
    simp only [Program.afterTelling, hstage]
    exact h

theorem Wired.startDispatcher (h : Wired always always' history messages p)
    (hdispatcher : p.dispatcher = none) (rules : List Rule) {stage : Stage}
    (hstage : stage = .bindingLink ∨ stage = .bindingMail) :
    Wired always always' history messages { p.startDispatcher rules with stage } := by
  obtain ⟨rfl, rfl, hmail, -⟩ := h.unheard hdispatcher
  have hreaders : ∀ {reader place : Nat}, p.bus.readers[reader]? = some (some place) →
      reader < p.bus.readers.length ∧
        p.bus.subscribe.1.readers[reader]? = p.bus.readers[reader]? := by
    intro reader place hreader
    have hlt : reader < p.bus.readers.length := (List.getElem?_eq_some_iff.mp hreader).1
    exact ⟨hlt, List.getElem?_append_left hlt⟩
  refine ⟨?_, h.bus.subscribe, nofun, fun d reader hd => ?_, h.untold, fun f hf => ?_,
    fun f d reader hf hd => ?_⟩
  · rcases hstage with rfl | rfl
    · exact ⟨nofun, hmail⟩
    · exact ⟨nofun, hmail⟩
  · cases hd
    exact ⟨fun _ _ => rfl, rfl, [], Bus.got_subscribe p.bus, rfl⟩
  · obtain ⟨got, hgot, htold⟩ := h.forwarder f hf
    obtain ⟨place, hplace, -⟩ := id hgot
    exact ⟨got, hgot.of_readers (hreaders hplace).2, htold⟩
  · obtain ⟨got, ⟨place, hplace, -⟩, -⟩ := h.forwarder f hf
    cases hd
    exact Nat.ne_of_lt (hreaders hplace).1

theorem Wired.afterRules (h : Wired always always' history messages p)
    (answer : Except Failure (List Rule)) :
    Wired always always' history messages (p.afterRules answer) := by
  unfold Program.afterRules
  split
  · rename_i hstage
    have hfits := h.stage
    rw [hstage] at hfits
    apply h.startDispatcher hfits
    split
    · exact .inl rfl
    · exact .inr rfl
  · exact h.quiet rfl rfl rfl rfl (fun hnone => (h.unheard hnone).2.2) trivial
  · exact h

theorem Wired.linkBound (h : Wired always always' history messages p)
    (hstage : p.stage = .bindingLink) (link : Option (Listener Unit)) :
    Wired always always' history messages { p with stage := .bindingMail, link } := by
  have hsome := h.stage
  rw [hstage] at hsome
  exact h.quiet rfl rfl rfl rfl (fun hnone => absurd hnone hsome.1) hsome

theorem Wired.mailBound (h : Wired always always' history messages p)
    (hstage : p.stage = .bindingMail) (port : UInt16) :
    Wired always always' (history ++ [bindEvent p.config port]) messages
      (p.afterMailBound (.ok port)) := by
  have hfits := h.stage
  rw [hstage] at hfits
  obtain ⟨hsome, -⟩ := hfits
  have hbound : Wired always always' history messages
      { p with mail := some {}, stage := .running } :=
    h.quiet rfl rfl rfl rfl (fun hnone => absurd hnone hsome) hsome
  have hsame : p.afterMailBound (.ok port) =
      ({ p with mail := some {}, stage := .running }.publishAll [bindEvent p.config port]).tell
        .appReady .sayingReady .running := by
    simp only [Program.afterMailBound, hstage, Program.tell]
    rfl
  rw [hsame]
  exact (hbound.publishAll fun hnone => absurd hnone hsome).tell rfl hsome hsome

/-! ## At work -/

@[simp] theorem dispatcher_onMail (p : Program ω) (l : Listener.Label) :
    (p.onMail keep l).dispatcher = p.dispatcher := by
  unfold Program.onMail
  split <;> rfl

@[simp] theorem dispatcher_onLink (p : Program ω) (l : Listener.Label) (ids : Nat → Nat → Uuid) :
    (p.onLink l ids).dispatcher = p.dispatcher := by
  unfold Program.onLink
  split <;> rfl

theorem dispatcher_onDispatcher {d : Dispatcher} {reader : Nat}
    (hd : p.dispatcher = some (d, reader)) (now : Nat) (l : Dispatcher.Label) :
    (p.onDispatcher now l).dispatcher = some (d.step now l, reader) := by
  simp only [Program.onDispatcher, hd]
  rfl

theorem Wired.onMail (h : Wired always always' history messages p) (l : Listener.Label) :
    Wired always always' (history ++ (publishedBy .here p.mail
      fun mail => (p.mailStep keep mail l).2.events).map (·.2)) messages (p.onMail keep l) := by
  unfold Program.onMail
  cases hmail : p.mail with
  | none =>
    rw [map_publishedBy, Option.map_none, Option.getD_none, List.append_nil]
    exact h
  | some mail =>
    have hsome : p.dispatcher ≠ none := by
      intro hnone
      cases hmail.symm.trans (h.unheard hnone).2.2.1
    rw [map_publishedBy]
    refine Wired.publishAll ?_ fun hnone => absurd hnone hsome
    refine h.quiet rfl rfl rfl rfl (fun hnone => absurd hnone hsome) ?_
    exact h.stage.of_same rfl id fun hnone => nomatch hmail.symm.trans hnone

theorem Wired.onLink (h : Wired always always' history messages p) (l : Listener.Label)
    (ids : Nat → Nat → Uuid) :
    Wired always always' (history ++ (publishedBy .peer p.link
      fun link => (link.step (intake ids) () none [] l).2).map (·.2)) messages
      (p.onLink l ids) := by
  unfold Program.onLink
  cases hlink : p.link with
  | none =>
    rw [map_publishedBy, Option.map_none, Option.getD_none, List.append_nil]
    exact h
  | some link =>
    have hsome : p.dispatcher ≠ none := by
      intro hnone
      cases hlink.symm.trans (h.unheard hnone).2.2.2
    rw [map_publishedBy]
    refine Wired.publishAll ?_ fun hnone => absurd hnone hsome
    exact h.quiet rfl rfl rfl rfl (fun hnone => absurd hnone hsome) h.stage

/-- The dispatcher takes a step, or gets an event. -/
theorem Wired.redispatch (h : Wired always always' history messages p) {d d' : Dispatcher}
    {reader : Nat} (hd : p.dispatcher = some (d, reader)) {bus : Bus}
    {more : List ReceivedMessage} {got : List Event} (hbus : bus.Holds history)
    (hothers : ∀ other, other ≠ reader → bus.readers[other]? = p.bus.readers[other]?)
    (hnumbered : d'.Numbered) (hopen : d'.disconnected = false)
    (hgot : bus.Got history always reader got)
    (hmessages : messages ++ (more ++ d'.inbox.filterMap Event.message?) =
      got.filterMap Event.message?) :
    Wired always always' history (messages ++ more)
      { p with bus, dispatcher := some (d', reader) } := by
  have hsome : p.dispatcher ≠ none := hd ▸ nofun
  refine ⟨h.stage.of_dispatcher hsome nofun rfl, hbus, nofun, fun e other he => ?_, h.untold,
    fun f hf => ?_, fun f e other hf he => ?_⟩
  · cases he
    exact ⟨hnumbered, hopen, got, hgot, (List.append_assoc ..).trans hmessages⟩
  · obtain ⟨told, htold, hsame⟩ := h.forwarder f hf
    exact ⟨told, htold.of_readers (hothers f.reader (h.apart f d reader hf hd)), hsame⟩
  · cases he
    exact h.apart f d reader hf hd

theorem Wired.onDispatcher (h : Wired always always' history messages p) {d : Dispatcher}
    {reader : Nat} (hd : p.dispatcher = some (d, reader)) (now : Nat) {l : Dispatcher.Label}
    (hbrought : d.brought l = []) (hdisconnect : l ≠ .disconnect) :
    Wired always always' (history ++ (d.step now l).announced.drop d.announced.length)
      (messages ++ d.spawned (d.step now l)) (p.onDispatcher now l) := by
  obtain ⟨hnumbered, hopen, got, hgot, hmessages⟩ := h.dispatcher d reader hd
  have hspawned := Dispatcher.spawned_step now l hnumbered
  rw [hbrought, List.append_nil] at hspawned
  have hstays : (d.step now l).disconnected = false := by
    rw [d.disconnected_step now l]
    split
    · exact absurd rfl hdisconnect
    · exact hopen
  simp only [Program.onDispatcher, hd]
  refine Wired.publishAll ?_ nofun
  exact h.redispatch hd h.bus (fun _ _ => rfl) (hnumbered.step now l) hstays hgot
    (hspawned.symm ▸ hmessages)

theorem Wired.deliver (h : Wired always always' history messages p) {d : Dispatcher}
    {reader : Nat} (hd : p.dispatcher = some (d, reader))
    (hfollows : always → p.DispatcherFollows) :
    ∃ d', p.deliver.dispatcher = some (d', reader) ∧
      Wired always always' history (messages ++ d.spawned d') p.deliver := by
  obtain ⟨hnumbered, hopen, got, hgot, hmessages⟩ := h.dispatcher d reader hd
  have hstill : Wired always always' history (messages ++ d.spawned d) p := by
    rw [Dispatcher.spawned_eq_nil hnumbered, List.append_nil]
    exact h
  simp only [Program.deliver, hd]
  split
  · rcases hgot.receive h.bus (fun always => hfollows always d reader hd) with
      hpending | ⟨e, bus, hreceive, hbus, hgot', hothers⟩
    · rw [hpending]
      refine ⟨d, rfl, ?_⟩
      exact hstill.quiet rfl hd.symm rfl rfl (fun hnone => (h.unheard hnone).2.2)
        (h.stage.of_same hd.symm id id)
    · rw [hreceive]
      have hbrought : d.brought (.arrive e) = [e] := by
        simp only [Dispatcher.brought, hopen, Bool.false_eq_true, if_false]
      have hstays : (d.step 0 (.arrive e)).disconnected = false :=
        (d.disconnected_step 0 (.arrive e)).trans hopen
      refine ⟨d.step 0 (.arrive e), rfl, ?_⟩
      apply h.redispatch hd hbus hothers (hnumbered.step 0 (.arrive e)) hstays hgot'
      rw [Dispatcher.spawned_step 0 (.arrive e) hnumbered, hbrought, List.filterMap_append,
        List.filterMap_append, ← hmessages, List.append_assoc]
  · exact ⟨d, hd, hstill⟩

/-- The forwarder has got the next event. -/
theorem Wired.reforward (h : Wired always always' history messages p) {f : Forwarder}
    (hf : p.forwarder = some f) {bus : Bus} {got told : List Event} (hbus : bus.Holds history)
    (hothers : ∀ other, other ≠ f.reader → bus.readers[other]? = p.bus.readers[other]?)
    (hgot : bus.Got history always' f.reader got)
    (htold : told.filter Event.isPassedOn = got.filter Event.isPassedOn) (sending : Option Event) :
    Wired always always' history messages
      { p with bus, forwarder := some { f with sending }, told } := by
  refine ⟨?_, hbus, h.unheard, fun d reader hd => ?_, nofun, fun g hg => ?_,
    fun g d reader hg hd => ?_⟩
  · exact h.stage.of_same rfl (fun hnone => nomatch hf.symm.trans hnone.2) id
  · obtain ⟨hnumbered, hopen, heard, hheard, hmessages⟩ := h.dispatcher d reader hd
    have hapart : reader ≠ f.reader := (h.apart f d reader hf hd).symm
    exact ⟨hnumbered, hopen, heard, hheard.of_readers (hothers reader hapart), hmessages⟩
  · cases hg
    exact ⟨got, hgot, htold⟩
  · cases hg
    exact h.apart f d reader hf hd

theorem Wired.forward (h : Wired always always' history messages p)
    (hfollows : always' → p.ForwarderFollows) :
    Wired always always' history messages p.forward := by
  have hparts (hnone : p.dispatcher = none) : p.mail = none ∧ p.link = none :=
    (h.unheard hnone).2.2
  unfold Program.forward
  cases hf : p.forwarder with
  | none => exact h
  | some f =>
    dsimp only
    split
    · obtain ⟨got, hgot, htold⟩ := h.forwarder f hf
      rcases hgot.receive h.bus (fun always => hfollows always f hf) with
        hpending | ⟨e, bus, hreceive, hbus, hgot', hothers⟩
      · rw [hpending]
        exact h.quiet rfl rfl (congrArg _ hf.symm) rfl hparts
          (h.stage.of_same rfl (fun hnone => nomatch hf.symm.trans hnone.2) id)
      · rw [hreceive]
        dsimp only
        split
        · rename_i hpassed
          apply h.reforward hf hbus hothers hgot'
          rw [List.filter_append, List.filter_append, htold]
        · rename_i hpassed
          refine h.reforward hf hbus hothers hgot' ?_ f.sending
          rw [List.filter_append, List.filter_cons_of_neg hpassed, List.filter_nil,
            List.append_nil, htold]
    · exact h

theorem Wired.afterForwarding (h : Wired always always' history messages p) (heard : Bool) :
    Wired always always' history messages (p.afterForwarding heard) := by
  have hparts (hnone : p.dispatcher = none) : p.mail = none ∧ p.link = none :=
    (h.unheard hnone).2.2
  unfold Program.afterForwarding
  cases hf : p.forwarder with
  | none => exact h
  | some f =>
    dsimp only
    split
    · exact h
    · exact h.quiet rfl rfl (by rw [hf]; rfl) rfl hparts
        (h.stage.of_same rfl (fun hnone => nomatch hf.symm.trans hnone.2) id)

theorem Wired.forwarderLeaves (h : Wired always always' history messages p) :
    Wired always always' history messages p.forwarderLeaves := by
  have hparts (hnone : p.dispatcher = none) : p.mail = none ∧ p.link = none :=
    (h.unheard hnone).2.2
  unfold Program.forwarderLeaves
  cases hf : p.forwarder with
  | none => exact h
  | some f =>
    dsimp only
    split
    · exact h.quiet rfl rfl (by rw [hf]; rfl) rfl hparts
        (h.stage.of_same rfl (fun hnone => nomatch hf.symm.trans hnone.2) id)
    · exact h

/-! ## Taking down -/

theorem Wired.goOn (h : Wired always always' history messages p) :
    Wired always always' history messages p.goOn := by
  unfold Program.goOn
  split
  · exact h.tell rfl trivial trivial
  · exact h.quiet rfl rfl rfl rfl (fun hnone => (h.unheard hnone).2.2) trivial
  · exact h

theorem Wired.join (h : Wired always always' history messages p) :
    Wired always always' history messages p.join := by
  unfold Program.join
  split
  · split
    · exact h.goOn
    · exact h
  · exact h

theorem Wired.interrupt (h : Wired always always' history messages p) {d : Dispatcher}
    {reader : Nat} (hd : p.dispatcher = some (d, reader)) (hstage : p.stage = .running) :
    (p.interrupt keep).dispatcher = some (d.step 0 .shutdown, reader) ∧
      Wired always always' history (messages ++ d.spawned (d.step 0 .shutdown))
        (p.interrupt keep) := by
  have hmail := h.onMail keep .shutdown
  have hnothing : (publishedBy .here p.mail fun mail =>
      (p.mailStep keep mail .shutdown).2.events).map (·.2) = [] := by
    rw [map_publishedBy]
    cases p.mail <;> rfl
  rw [hnothing, List.append_nil] at hmail
  have hlink := hmail.onLink .shutdown fun _ _ => ⟨0⟩
  have hsilent : (publishedBy .peer (p.onMail keep .shutdown).link fun link =>
      (link.step (intake fun _ _ => ⟨0⟩) () none [] .shutdown).2).map (·.2) = [] := by
    rw [map_publishedBy]
    cases (p.onMail keep .shutdown).link <;> rfl
  rw [hsilent, List.append_nil] at hlink
  have hsame : ((p.onMail keep .shutdown).onLink .shutdown fun _ _ => ⟨0⟩).dispatcher =
      some (d, reader) := by
    rw [dispatcher_onLink, dispatcher_onMail, hd]
  have hall := hlink.onDispatcher hsame 0 (l := .shutdown) rfl nofun
  have hquiet : (d.step 0 .shutdown).announced.drop d.announced.length = [] := List.drop_length
  rw [hquiet, List.append_nil] at hall
  simp only [Program.interrupt, hstage]
  exact ⟨dispatcher_onDispatcher hsame 0 .shutdown,
    hall.quiet rfl rfl rfl rfl (fun hnone => (hall.unheard hnone).2.2) trivial⟩

/-! ## Runs -/

variable {keep}

theorem begun_eq {d d' : Dispatcher} {reader reader' : Nat} {l : Label ω}
    (hd : p.dispatcher = some (d, reader)) (hd' : (p.step keep l).dispatcher = some (d', reader')) :
    p.begun keep l = d.spawned d' := by
  simp only [begun, hd, hd']

/-- A step that leaves the dispatcher alone makes no task. -/
theorem Wired.begun_eq_nil (h : Wired always always' history messages p) {l : Label ω}
    (hsame : p.dispatcher ≠ none → (p.step keep l).dispatcher = p.dispatcher) :
    p.begun keep l = [] := by
  cases hd : p.dispatcher with
  | none => simp only [begun, hd]
  | some x =>
    obtain ⟨d, reader⟩ := x
    have hnone : d.spawned d = [] := Dispatcher.spawned_eq_nil (h.dispatcher d reader hd).1
    rw [begun_eq hd ((hsame (hd ▸ nofun)).trans hd), hnone]

def Noted (keep : Smtp.Keep ω) (always always' : Prop) (history : List Event)
    (messages : List ReceivedMessage) (p : Program ω) (l : Label ω) : Prop :=
  Wired always always' (history ++ (p.published keep l).map (·.2)) (messages ++ p.begun keep l)
    (p.step keep l)

theorem Wired.still (h : Wired always always' history messages p) {l : Label ω}
    (hpublished : p.published keep l = [])
    (hsame : p.dispatcher ≠ none → (p.step keep l).dispatcher = p.dispatcher)
    (hwired : Wired always always' history messages (p.step keep l)) :
    Noted keep always always' history messages p l := by
  rw [Noted, hpublished, h.begun_eq_nil hsame, List.map_nil, List.append_nil, List.append_nil]
  exact hwired

theorem published_eq_puts (hended : ¬p.isEnded = true) (l : Label ω) :
    p.published keep l = p.puts keep l := if_neg hended

theorem afterMailBound_of_ne (hstage : p.stage ≠ .bindingMail)
    (answer : Except SystemFault UInt16) :
    p.afterMailBound answer = p := by
  unfold Program.afterMailBound
  split
  · exact absurd ‹_› hstage
  · exact absurd ‹_› hstage
  · rfl

theorem interrupt_of_ne (hstage : p.stage ≠ .running) : p.interrupt keep = p := by
  unfold Program.interrupt
  split
  · exact absurd ‹_› hstage
  · rfl

@[simp] theorem dispatcher_tell (p : Program ω) (e : Event) (telling after : Stage) :
    (p.tell e telling after).dispatcher = p.dispatcher := by
  unfold Program.tell
  split <;> rfl

@[simp] theorem dispatcher_afterTelling (p : Program ω) (heard : Bool) :
    (p.afterTelling heard).dispatcher = p.dispatcher := by
  cases h : p.stage <;> simp only [Program.afterTelling, h, Program.startForwarder]

@[simp] theorem dispatcher_goOn (p : Program ω) : p.goOn.dispatcher = p.dispatcher := by
  unfold Program.goOn
  split
  · exact dispatcher_tell p _ _ _
  · rfl
  · rfl

@[simp] theorem dispatcher_join (p : Program ω) : p.join.dispatcher = p.dispatcher := by
  unfold Program.join
  split
  · split
    · exact dispatcher_goOn p
    · rfl
  · rfl

@[simp] theorem dispatcher_afterMailBound (p : Program ω) (answer : Except SystemFault UInt16) :
    (p.afterMailBound answer).dispatcher = p.dispatcher := by
  unfold Program.afterMailBound
  split
  · exact dispatcher_tell _ _ _ _
  · rfl
  · rfl

@[simp] theorem dispatcher_forward (p : Program ω) : p.forward.dispatcher = p.dispatcher := by
  unfold Program.forward
  repeat' split
  all_goals rfl

@[simp] theorem dispatcher_afterForwarding (p : Program ω) (heard : Bool) :
    (p.afterForwarding heard).dispatcher = p.dispatcher := by
  unfold Program.afterForwarding
  repeat' split
  all_goals rfl

@[simp] theorem dispatcher_forwarderLeaves (p : Program ω) :
    p.forwarderLeaves.dispatcher = p.dispatcher := by
  unfold Program.forwarderLeaves
  repeat' split
  all_goals rfl

theorem Wired.dispatcher_afterRules (h : Wired always always' history messages p)
    (hsome : p.dispatcher ≠ none) (answer : Except Failure (List Rule)) :
    (p.afterRules answer).dispatcher = p.dispatcher := by
  unfold Program.afterRules
  split
  · rename_i hstage
    have hfits := h.stage
    rw [hstage] at hfits
    exact absurd hfits hsome
  · rfl
  · rfl

section
variable (h : Wired always always' history messages p) (hended : ¬p.isEnded = true)
include h hended

theorem Wired.noted_mailBound (answer : Except SystemFault UInt16) :
    Noted keep always always' history messages p (.mailBound answer) := by
  have hstep : p.step keep (.mailBound answer) = p.afterMailBound answer := if_neg hended
  have hsame : p.dispatcher ≠ none →
      (p.step keep (.mailBound answer)).dispatcher = p.dispatcher :=
    fun _ => hstep ▸ dispatcher_afterMailBound p answer
  by_cases hstage : p.stage = .bindingMail
  · cases answer with
    | ok port =>
      have hputs : p.puts keep (.mailBound (.ok port)) = [(.here, bindEvent p.config port)] :=
        if_pos hstage
      rw [Noted, published_eq_puts hended, hputs, h.begun_eq_nil hsame, hstep, List.append_nil]
      exact h.mailBound hstage port
    | error fault =>
      refine h.still (published_eq_puts hended _) hsame ?_
      simp only [hstep, afterMailBound, hstage]
      exact h.quiet rfl rfl rfl rfl (fun hnone => (h.unheard hnone).2.2) trivial
  · refine h.still ?_ hsame (by rwa [hstep, afterMailBound_of_ne hstage])
    rw [published_eq_puts hended]
    cases answer with
    | ok port => exact if_neg hstage
    | error fault => rfl

theorem Wired.noted_interrupt : Noted keep always always' history messages p .interrupt := by
  have hstep : p.step keep .interrupt = p.interrupt keep := if_neg hended
  by_cases hstage : p.stage = .running
  · have hsome := h.stage
    rw [hstage] at hsome
    obtain ⟨⟨d, reader⟩, hd⟩ := Option.ne_none_iff_exists'.mp hsome
    obtain ⟨hd', hwired⟩ := h.interrupt keep hd hstage
    rw [← hstep] at hd' hwired
    rw [Noted, begun_eq hd hd', published_eq_puts hended]
    exact (List.append_nil history).symm ▸ hwired
  · rw [interrupt_of_ne hstage] at hstep
    exact h.still (published_eq_puts hended _) (fun _ => congrArg _ hstep) (by rwa [hstep])

theorem Wired.noted_mail (l : Listener.Label) :
    Noted keep always always' history messages p (.mail l) := by
  have hstep : p.step keep (.mail l) = if l = .shutdown then p else p.onMail keep l :=
    if_neg hended
  by_cases hl : l = .shutdown
  · rw [if_pos hl] at hstep
    exact h.still ((published_eq_puts hended _).trans (if_pos hl)) (fun _ => congrArg _ hstep)
      (by rwa [hstep])
  · rw [if_neg hl] at hstep
    have hputs : p.puts keep (.mail l) = publishedBy .here p.mail
      fun mail => (p.mailStep keep mail l).2.events := if_neg hl
    rw [Noted, published_eq_puts hended, hputs,
      h.begun_eq_nil fun _ => hstep ▸ dispatcher_onMail keep p l, hstep, List.append_nil]
    exact h.onMail keep l

theorem Wired.noted_link (l : Listener.Label) (ids : Nat → Nat → Uuid) :
    Noted keep always always' history messages p (.link l ids) := by
  have hstep : p.step keep (.link l ids) = if l = .shutdown then p else p.onLink l ids :=
    if_neg hended
  by_cases hl : l = .shutdown
  · rw [if_pos hl] at hstep
    exact h.still ((published_eq_puts hended _).trans (if_pos hl)) (fun _ => congrArg _ hstep)
      (by rwa [hstep])
  · rw [if_neg hl] at hstep
    have hputs : p.puts keep (.link l ids) = publishedBy .peer p.link
      fun link => (link.step (intake ids) () none [] l).2 := if_neg hl
    rw [Noted, published_eq_puts hended, hputs,
      h.begun_eq_nil fun _ => hstep ▸ dispatcher_onLink p l ids, hstep, List.append_nil]
    exact h.onLink l ids

theorem Wired.noted_deliver (hdispatcher : always → p.DispatcherFollows) :
    Noted keep always always' history messages p .deliver := by
  have hstep : p.step keep .deliver = p.deliver := if_neg hended
  cases hd : p.dispatcher with
  | none =>
    have hnothing : p.deliver = p := by simp only [Program.deliver, hd]
    rw [hnothing] at hstep
    exact h.still (published_eq_puts hended _) (fun _ => congrArg _ hstep) (by rwa [hstep])
  | some x =>
    obtain ⟨d, reader⟩ := x
    obtain ⟨d', hd', hwired⟩ := h.deliver hd hdispatcher
    rw [← hstep] at hd' hwired
    rw [Noted, begun_eq hd hd', published_eq_puts hended]
    exact (List.append_nil history).symm ▸ hwired

theorem Wired.noted_dispatcher (now : Nat) (l : Dispatcher.Label) (world : ω) :
    Noted keep always always' history messages p (.dispatcher now l world) := by
  have hstep : p.step keep (.dispatcher now l world) =
      if l.isOwn then { p with world }.onDispatcher now l else p := if_neg hended
  by_cases hown : l.isOwn = true
  · have hworld : Wired always always' history messages { p with world } :=
      h.quiet rfl rfl rfl rfl (fun hnone => (h.unheard hnone).2.2) h.stage
    rw [if_pos hown] at hstep
    have hputs : p.puts keep (.dispatcher now l world) = publishedBy .here p.dispatcher fun d =>
        (d.1.step now l).announced.drop d.1.announced.length := if_pos hown
    cases hd : p.dispatcher with
    | none =>
      have hnothing : { p with world }.onDispatcher now l = { p with world } := by
        simp only [Program.onDispatcher, hd]
      rw [hnothing] at hstep
      refine h.still ?_ (fun hsome => absurd hd hsome) (by rwa [hstep])
      rw [published_eq_puts hended, hputs, hd]
      rfl
    | some x =>
      obtain ⟨d, reader⟩ := x
      have hd' : (p.step keep (.dispatcher now l world)).dispatcher =
          some (d.step now l, reader) := by
        rw [hstep]
        exact dispatcher_onDispatcher (p := { p with world }) hd now l
      have hbrought : d.brought l = [] := by
        cases l with
        | arrive => cases hown
        | _ => rfl
      have hconnected : l ≠ .disconnect := by
        rintro rfl
        cases hown
      rw [Noted, begun_eq hd hd', published_eq_puts hended, hputs, map_publishedBy, hd, hstep]
      exact hworld.onDispatcher (p := { p with world }) hd now hbrought hconnected
  · rw [if_neg hown] at hstep
    exact h.still ((published_eq_puts hended _).trans (if_neg hown)) (fun _ => congrArg _ hstep)
      (by rwa [hstep])

end

/-- The parts agree with the record after every step. -/
theorem Wired.step (h : Wired always always' history messages p)
    (hdispatcher : always → p.DispatcherFollows) (hforwarder : always' → p.ForwarderFollows)
    (l : Label ω) : Noted keep always always' history messages p l := by
  by_cases hended : p.isEnded = true
  · have hstep : p.step keep l = p := if_pos hended
    have hpublished : p.published keep l = [] := if_pos hended
    exact h.still hpublished (fun _ => congrArg _ hstep) (by rwa [hstep])
  cases l with
  | prepare =>
    have hstep : p.step keep .prepare = if p.stage = .preparing then
        p.tell .appPreStart .announcing .loadingRules else p := if_neg hended
    refine h.still (published_eq_puts hended _) ?_ ?_
    · rw [hstep]
      split
      · exact fun _ => dispatcher_tell p _ _ _
      · exact fun _ => rfl
    · rw [hstep]
      split
      · exact h.prepare ‹_›
      · exact h
  | told heard =>
    have hstep : p.step keep (.told heard) = p.afterTelling heard := if_neg hended
    exact h.still (published_eq_puts hended _) (fun _ => hstep ▸ dispatcher_afterTelling p heard)
      (hstep ▸ h.afterTelling heard)
  | rules answer =>
    have hstep : p.step keep (.rules answer) = p.afterRules answer := if_neg hended
    exact h.still (published_eq_puts hended _)
      (fun hsome => hstep ▸ h.dispatcher_afterRules hsome answer) (hstep ▸ h.afterRules answer)
  | linkBound answer =>
    have hstep : p.step keep (.linkBound answer) = if p.stage = .bindingLink then
        { p with stage := .bindingMail, link := if answer then some {} else none } else p :=
      if_neg hended
    refine h.still (published_eq_puts hended _) ?_ ?_
    · rw [hstep]
      split <;> exact fun _ => rfl
    · rw [hstep]
      split
      · exact h.linkBound ‹_› _
      · exact h
  | mailBound answer => exact h.noted_mailBound hended answer
  | interrupt => exact h.noted_interrupt hended
  | joined =>
    have hstep : p.step keep .joined = p.join := if_neg hended
    exact h.still (published_eq_puts hended _) (fun _ => hstep ▸ dispatcher_join p) (hstep ▸ h.join)
  | graceOver =>
    have hstep : p.step keep .graceOver = p.goOn := if_neg hended
    exact h.still (published_eq_puts hended _) (fun _ => hstep ▸ dispatcher_goOn p) (hstep ▸ h.goOn)
  | mail l => exact h.noted_mail hended l
  | link l ids => exact h.noted_link hended l ids
  | deliver => exact h.noted_deliver hended hdispatcher
  | dispatcher now l world => exact h.noted_dispatcher hended now l world
  | forward =>
    have hstep : p.step keep .forward = p.forward := if_neg hended
    exact h.still (published_eq_puts hended _) (fun _ => hstep ▸ dispatcher_forward p)
      (hstep ▸ h.forward hforwarder)
  | forwarded heard =>
    have hstep : p.step keep (.forwarded heard) = p.afterForwarding heard := if_neg hended
    exact h.still (published_eq_puts hended _) (fun _ => hstep ▸ dispatcher_afterForwarding p heard)
      (hstep ▸ h.afterForwarding heard)
  | forwarderLeaves =>
    have hstep : p.step keep .forwarderLeaves = p.forwarderLeaves := if_neg hended
    exact h.still (published_eq_puts hended _) (fun _ => hstep ▸ dispatcher_forwarderLeaves p)
      (hstep ▸ h.forwarderLeaves)

/-- The parts agree with the record throughout a run. -/
theorem wired_steps (config : Config) (world : ω) (ls : List (Label ω))
    (hdispatcher : always → ∀ mid, mid <+: ls →
      ((start config world).steps keep mid).DispatcherFollows)
    (hforwarder : always' → ∀ mid, mid <+: ls →
      ((start config world).steps keep mid).ForwarderFollows) :
    Wired always always' ((gather keep (published keep) (start config world) ls).map (·.2))
      (gather keep (begun keep) (start config world) ls) ((start config world).steps keep ls) := by
  -- The record grows at its end, so the last step is taken off.
  induction ls using List.reverseRecOn with
  | nil => exact wired_start config world
  | append_singleton ls l ih =>
    have hbefore {P : Program ω → Prop} (h : ∀ mid, mid <+: ls ++ [l] →
        P ((start config world).steps keep mid)) :
        ∀ mid, mid <+: ls → P ((start config world).steps keep mid) :=
      fun mid hmid => h mid (hmid.trans (List.prefix_append ls [l]))
    rw [gather_concat, gather_concat, List.map_append, steps_append]
    exact (ih (fun h => hbefore (hdispatcher h)) fun h => hbefore (hforwarder h)).step
      (fun h => hdispatcher h ls (List.prefix_append ls [l]))
      (fun h => hforwarder h ls (List.prefix_append ls [l])) l

end Program

end Letterbox
