import Mathlib.Data.List.Infix
import Letterbox.Proofs.Program.Wiring

/-!
# What the user interface is told

The forwarder goes by the kind of an event, and the bus does not say where an event came from. So
what another process has told of mail, of a port or of a failure is told to the user interface like
what happened here.
-/

set_option autoImplicit false

namespace Letterbox.Program

variable {ω : Type}

/-- The forwarder has had everything that was published. -/
def ForwarderDone (p : Program ω) : Prop :=
  ∃ f ∈ p.forwarder, p.bus.readers[f.reader]? = some (some p.bus.written)

instance (p : Program ω) : Decidable p.ForwarderDone :=
  inferInstanceAs (Decidable (∃ f ∈ p.forwarder, _))

variable {always always' : Prop} {log : List (Origin × Event)} {messages : List ReceivedMessage}
  {p : Program ω}

/-- Events are passed on in the order in which they were published, wherever they came from. -/
theorem Wired.exists_seen (h : Wired always always' (log.map (·.2)) messages p) :
    ∃ seen : List (Origin × Event), seen.Sublist log ∧
      p.told.filter Event.isPassedOn = (seen.map (·.2)).filter Event.isPassedOn := by
  cases hf : p.forwarder with
  | none => exact ⟨[], List.nil_sublist log, h.untold hf⟩
  | some f =>
    obtain ⟨got, ⟨place, -, hsublist, -⟩, htold⟩ := h.forwarder f hf
    obtain ⟨seen, hseen, rfl⟩ :=
      List.sublist_map_iff.mp (hsublist.trans (List.take_sublist place _))
    exact ⟨seen, hseen, htold⟩

theorem Wired.told_of_done (h : Wired always always' (log.map (·.2)) messages p)
    (hfollows : always') (hdone : p.ForwarderDone) :
    p.told.filter Event.isPassedOn = (log.map (·.2)).filter Event.isPassedOn := by
  obtain ⟨f, hf, hplace⟩ := hdone
  obtain ⟨got, ⟨place, hplace', -, hall⟩, htold⟩ := h.forwarder f hf
  cases hplace.symm.trans hplace'
  rw [htold, hall hfollows, h.bus.written, List.take_length]

theorem mem_map_origin {e : Event} :
    e ∈ log.map (·.2) ↔ (Origin.here, e) ∈ log ∨ (Origin.peer, e) ∈ log := by
  rw [List.mem_map]
  constructor
  · rintro ⟨⟨origin, e⟩, he, rfl⟩
    cases origin with
    | here => exact .inl he
    | peer => exact .inr he
  · rintro (he | he)
    · exact ⟨_, he, rfl⟩
    · exact ⟨_, he, rfl⟩

/-- What the forwarder tells is a part of what was published, in that order. As long as it follows,
and once it has had everything, it has told of something that did not happen here if and only if
another process has told of something of the same kinds that did not happen here. -/
theorem echoes_iff (keep : Smtp.Keep ω) (config : Config) (world : ω) (ls : List (Label ω)) :
    let p := (start config world).steps keep ls
    let log := gather keep (published keep) (start config world) ls
    (∃ seen : List (Origin × Event), seen.Sublist log ∧
        p.told.filter Event.isPassedOn = (seen.map (·.2)).filter Event.isPassedOn) ∧
      ((∀ mid, mid <+: ls → ((start config world).steps keep mid).ForwarderFollows) →
        p.ForwarderDone →
          ((∃ e ∈ p.told, e.isPassedOn = true ∧ (.here, e) ∉ log) ↔
            ∃ e, (.peer, e) ∈ log ∧ e.isPassedOn = true ∧ (.here, e) ∉ log)) := by
  intro p log
  have hwired : Wired False
      (∀ mid, mid <+: ls → ((start config world).steps keep mid).ForwarderFollows)
      (log.map (·.2)) (gather keep (begun keep) (start config world) ls) p :=
    wired_steps config world ls False.elim id
  refine ⟨hwired.exists_seen, fun hfollows hdone => ?_⟩
  have htold : ∀ e : Event, e.isPassedOn = true →
      (e ∈ p.told ↔ (.here, e) ∈ log ∨ (.peer, e) ∈ log) := by
    intro e he
    have hfilter := hwired.told_of_done hfollows hdone
    have hmem : e ∈ p.told.filter Event.isPassedOn ↔
        e ∈ (log.map (·.2)).filter Event.isPassedOn := by rw [hfilter]
    rw [List.mem_filter, List.mem_filter, mem_map_origin] at hmem
    simpa only [he, and_true] using hmem
  constructor
  · rintro ⟨e, hmem, he, hhere⟩
    exact ⟨e, ((htold e he).mp hmem).resolve_left hhere, he, hhere⟩
  · rintro ⟨e, hpeer, he, hhere⟩
    exact ⟨e, (htold e he).mpr (.inr hpeer), he, hhere⟩

/-! ### A message that another process tells of -/

def refuseAll : Smtp.Keep Unit := fun w _ => (.error (.storage "full"), w)

def elsewhere : ReceivedMessage := ⟨"/elsewhere/x.eml", "a@b.com", ["c@d.com"], 3⟩

/-- The program starts, and another process tells of a message; then the forwarder goes on until it
has had everything. -/
def toldOfMail : List (Label Unit) :=
  let ids := fun _ _ => ⟨0⟩
  let frame := Utf8.encode (Event.newMessage elsewhere).toFrame
  [.prepare, .told true, .rules (.ok []), .linkBound true, .mailBound (.ok 2525), .told true,
    .link .accept ids, .link (.begin 1) ids, .link (.read 1 (.bytes frame)) ids,
    .forward, .forwarded true, .forward, .forwarded true]

/-- The course of that run. -/
theorem course_toldOfMail :
    let first := start (Config.ofMachine "sink.test") ()
    let p := first.steps refuseAll toldOfMail
    (∀ mid ∈ toldOfMail.inits, (first.steps refuseAll mid).bus.written ≤
        (first.steps refuseAll mid).bus.slots.length) ∧
      gather refuseAll (published refuseAll) first toldOfMail =
        [(.here, .smtpServerBind "any" 2525), (.peer, .newMessage elsewhere)] ∧
      p.ForwarderDone ∧
      p.heard = [.appPreStart, .appReady, .smtpServerBind "any" 2525, .newMessage elsewhere] := by
  decide +kernel

theorem echoes_iff_toldOfMail :
    let first := start (Config.ofMachine "sink.test") ()
    let log := gather refuseAll (published refuseAll) first toldOfMail
    ∃ e ∈ (first.steps refuseAll toldOfMail).told, e.isPassedOn = true ∧ (.here, e) ∉ log := by
  intro first log
  obtain ⟨hfew, hlog, hdone, -⟩ := course_toldOfMail
  have hlog : log = [(.here, .smtpServerBind "any" 2525), (.peer, .newMessage elsewhere)] := hlog
  have hfollows : ∀ mid, mid <+: toldOfMail → (first.steps refuseAll mid).ForwarderFollows :=
    fun mid hmid _ _ => .of_written (hfew mid ((List.mem_inits _ _).mpr hmid)) _
  have hpeer : (Origin.peer, Event.newMessage elsewhere) ∈ log := by
    rw [hlog]
    exact List.mem_cons_of_mem _ List.mem_cons_self
  have hhere : (Origin.here, Event.newMessage elsewhere) ∉ log := by
    rw [hlog]
    decide
  obtain ⟨-, hechoes⟩ := echoes_iff refuseAll (Config.ofMachine "sink.test") () toldOfMail
  exact (hechoes hfollows hdone).mpr ⟨.newMessage elsewhere, hpeer, rfl, hhere⟩

/-- The message goes back to where such news came from, though nothing of it happened here. -/
theorem echoed_message :
    let p := (start (Config.ofMachine "sink.test") ()).steps refuseAll toldOfMail
    let log := gather refuseAll (published refuseAll) (start (Config.ofMachine "sink.test") ())
      toldOfMail
    log = [(.here, .smtpServerBind "any" 2525), (.peer, .newMessage elsewhere)] ∧
      p.heard = [.appPreStart, .appReady, .smtpServerBind "any" 2525, .newMessage elsewhere] := by
  obtain ⟨-, hlog, -, hheard⟩ := course_toldOfMail
  exact ⟨hlog, hheard⟩

end Letterbox.Program
