import Letterbox.Proofs.Program.Forwarding

/-!
# The last thing that the user interface hears

The main course tells the user interface of the start, that the program is ready, and of the end;
the forwarder tells it, over connections of its own, what happens in between. The main course waits
for the forwarder before it tells of the end, but not for ever.
-/

set_option autoImplicit false

namespace Letterbox.Program

variable {ω : Type} {keep : Smtp.Keep ω} {p p' : Program ω}

/-- What the main course has told by a stage, where there is a link. -/
def Stage.spoken : Stage → List Event
  | .preparing => []
  | .announcing | .loadingRules | .bindingLink | .bindingMail | .ended (some _) => [.appPreStart]
  | .sayingReady | .running | .joining _ => [.appPreStart, .appReady]
  | .sayingExit | .ended none => [.appPreStart, .appReady, .appExit]

def tellingSide (p : Program ω) : Config × Option Forwarder × List Event × List Event :=
  (p.config, p.forwarder, p.told, p.heard)

/-! ## What a step tells -/

inductive Tells (p p' : Program ω) : Prop where
  | same (hstage : p'.stage = p.stage) (hside : p'.tellingSide = p.tellingSide)
  | begins (hfrom : p.stage = .preparing) (hto : p'.stage = .announcing)
    (hside : p'.tellingSide = (p.config, p.forwarder, p.told ++ [.appPreStart], p.heard))
  | started (reader : Nat) (heard : List Event) (hfrom : p.stage = .announcing)
    (hto : p'.stage = .loadingRules)
    (hside : p'.tellingSide = (p.config, some { reader }, p.told, heard))
  | prepares (hfrom : p.stage ≠ .announcing ∧ p.stage.spoken = [.appPreStart])
    (hto : p'.stage ≠ .announcing ∧ p'.stage.spoken = [.appPreStart])
    (hside : p'.tellingSide = p.tellingSide)
  | ready (hfrom : p.stage = .bindingMail) (hto : p'.stage = .sayingReady)
    (hside : p'.tellingSide = (p.config, p.forwarder, p.told ++ [.appReady], p.heard))
  | goesOn (heard : List Event) (hfrom : p.stage.spoken = [.appPreStart, .appReady])
    (hto : p'.stage.spoken = [.appPreStart, .appReady])
    (hside : p'.tellingSide = (p.config, p.forwarder, p.told, heard))
  | leaves (hfrom : p.stage.spoken = [.appPreStart, .appReady]) (hto : p'.stage = .sayingExit)
    (hside : p'.tellingSide = (p.config, p.forwarder, p.told ++ [.appExit], p.heard))
  | ends (heard : Bool) (hfrom : p.stage = .sayingExit) (hto : p'.stage = .ended none)
    (hside : p'.tellingSide = (p.config, p.forwarder, p.told,
      if heard then p.heard ++ [.appExit] else p.heard))
  | takes (f : Forwarder) (e : Event) (hf : p.forwarder = some f)
    (hidle : f.isRunning = true ∧ f.sending = none) (he : e.isPassedOn = true)
    (hstage : p'.stage = p.stage)
    (hside : p'.tellingSide = (p.config, some { f with sending := some e }, p.told ++ [e], p.heard))
  | passes (f : Forwarder) (e : Event) (heard : List Event) (hf : p.forwarder = some f)
    (hsending : f.sending = some e) (hstage : p'.stage = p.stage)
    (hside : p'.tellingSide = (p.config, some { f with sending := none }, p.told, heard))
  | stops (f : Forwarder) (hf : p.forwarder = some f) (hsending : f.sending = none)
    (hstage : p'.stage = p.stage)
    (hside : p'.tellingSide = (p.config, some { f with isRunning := false }, p.told, p.heard))

theorem tells_refl (p : Program ω) : Tells p p := .same rfl rfl

theorem telling_onMail (p : Program ω) (l : Listener.Label) :
    (p.onMail keep l).stage = p.stage ∧ (p.onMail keep l).tellingSide = p.tellingSide := by
  unfold Program.onMail
  split <;> exact ⟨rfl, rfl⟩

theorem telling_onLink (p : Program ω) (l : Listener.Label) (ids : Nat → Nat → Uuid) :
    (p.onLink l ids).stage = p.stage ∧ (p.onLink l ids).tellingSide = p.tellingSide := by
  unfold Program.onLink
  split <;> exact ⟨rfl, rfl⟩

theorem telling_onDispatcher (p : Program ω) (now : Nat) (l : Dispatcher.Label) :
    (p.onDispatcher now l).stage = p.stage ∧
      (p.onDispatcher now l).tellingSide = p.tellingSide := by
  unfold Program.onDispatcher
  split <;> exact ⟨rfl, rfl⟩

theorem tells_deliver (p : Program ω) : Tells p p.deliver := by
  unfold Program.deliver
  repeat' split
  all_goals exact .same rfl rfl

theorem tells_forward (p : Program ω) : Tells p p.forward := by
  unfold Program.forward
  split
  · exact tells_refl p
  · rename_i f hf
    split
    · rename_i hidle
      split
      · split
        · rename_i e _ he
          exact .takes f e hf hidle he rfl rfl
        · exact .same rfl rfl
      · exact .same rfl rfl
      · exact .stops f hf hidle.2 rfl rfl
    · exact tells_refl p

theorem tells_afterForwarding (p : Program ω) (heard : Bool) :
    Tells p (p.afterForwarding heard) := by
  unfold Program.afterForwarding
  split
  · exact tells_refl p
  · rename_i f hf
    split
    · exact tells_refl p
    · rename_i e hsending
      exact .passes f e _ hf hsending rfl rfl

theorem tells_forwarderLeaves (p : Program ω) : Tells p p.forwarderLeaves := by
  unfold Program.forwarderLeaves
  split
  · exact tells_refl p
  · rename_i f hf
    split
    · rename_i hleaves
      exact .stops f hf hleaves.2 rfl rfl
    · exact tells_refl p

theorem tells_afterTelling (p : Program ω) (heard : Bool) : Tells p (p.afterTelling heard) := by
  cases hstage : p.stage with
  | announcing =>
    simp only [Program.afterTelling, hstage]
    exact .started _ _ hstage rfl rfl
  | sayingReady =>
    simp only [Program.afterTelling, hstage]
    exact .goesOn _ (by rw [hstage]; rfl) rfl rfl
  | sayingExit =>
    simp only [Program.afterTelling, hstage]
    exact .ends heard hstage rfl rfl
  | preparing | loadingRules | bindingLink | bindingMail | running | joining | ended =>
    simp only [Program.afterTelling, hstage]
    exact tells_refl p

theorem tells_afterRules (p : Program ω) (answer : Except Failure (List Rule)) :
    Tells p (p.afterRules answer) := by
  unfold Program.afterRules
  split
  · rename_i hstage
    refine .prepares ?_ ?_ rfl
    · rw [hstage]
      exact ⟨nofun, rfl⟩
    · dsimp only
      split <;> exact ⟨nofun, rfl⟩
  · rename_i hstage
    refine .prepares ?_ ⟨nofun, rfl⟩ rfl
    rw [hstage]
    exact ⟨nofun, rfl⟩
  · exact tells_refl p

/-- Where there is a link, what the main course has to say is told. -/
theorem tell_of_enabled (h : p.config.link.enabled = true) (e : Event) (telling after : Stage) :
    p.tell e telling after = { p with stage := telling, told := p.told ++ [e] } := if_pos h

theorem tells_afterMailBound (h : p.config.link.enabled = true)
    (answer : Except SystemFault UInt16) : Tells p (p.afterMailBound answer) := by
  unfold Program.afterMailBound
  split
  · rename_i port hstage
    have hto := tell_of_enabled
      (p := { p with mail := some {} }.publishAll [bindEvent p.config port]) h .appReady
      .sayingReady .running
    dsimp only
    rw [hto]
    exact .ready hstage rfl rfl
  · rename_i hstage
    refine .prepares ?_ ⟨nofun, rfl⟩ rfl
    rw [hstage]
    exact ⟨nofun, rfl⟩
  · exact tells_refl p

theorem tells_goOn (h : p.config.link.enabled = true) : Tells p p.goOn := by
  unfold Program.goOn
  split
  · rename_i hstage
    rw [tell_of_enabled h]
    exact .leaves (by rw [hstage]; rfl) rfl rfl
  · rename_i hstage
    exact .goesOn p.heard (by rw [hstage]; rfl) rfl rfl
  · exact tells_refl p

theorem tells_join (h : p.config.link.enabled = true) : Tells p p.join := by
  unfold Program.join
  split
  · split
    · exact tells_goOn h
    · exact tells_refl p
  · exact tells_refl p

theorem tells_interrupt (p : Program ω) : Tells p (p.interrupt keep) := by
  unfold Program.interrupt
  split
  · rename_i hstage
    refine .goesOn p.heard (by rw [hstage]; rfl) rfl ?_
    exact (telling_onDispatcher _ _ _).2.trans
      ((telling_onLink _ _ _).2.trans (telling_onMail p _).2)
  · exact tells_refl p

theorem tells_step (h : p.config.link.enabled = true) (l : Label ω) : Tells p (p.step keep l) := by
  unfold Program.step
  split
  · exact tells_refl p
  cases l with
  | prepare =>
    dsimp only
    split
    · rename_i hstage
      rw [tell_of_enabled h]
      exact .begins hstage rfl rfl
    · exact tells_refl p
  | told heard => exact tells_afterTelling p heard
  | rules answer => exact tells_afterRules p answer
  | linkBound answer =>
    dsimp only
    split
    · rename_i hstage
      exact .prepares (by rw [hstage]; exact ⟨nofun, rfl⟩) ⟨nofun, rfl⟩ rfl
    · exact tells_refl p
  | mailBound answer => exact tells_afterMailBound h answer
  | interrupt => exact tells_interrupt p
  | joined => exact tells_join h
  | graceOver => exact tells_goOn h
  | mail l =>
    dsimp only
    split
    · exact tells_refl p
    · exact .same (telling_onMail p l).1 (telling_onMail p l).2
  | link l ids =>
    dsimp only
    split
    · exact tells_refl p
    · exact .same (telling_onLink p l ids).1 (telling_onLink p l ids).2
  | deliver => exact tells_deliver p
  | dispatcher now l world =>
    dsimp only
    split
    · obtain ⟨hstage, hside⟩ := telling_onDispatcher { p with world } now l
      exact .same hstage hside
    · exact tells_refl p
  | forward => exact tells_forward p
  | forwarded heard => exact tells_afterForwarding p heard
  | forwarderLeaves => exact tells_forwarderLeaves p

theorem of_tellingSide {config : Config} {forwarder : Option Forwarder} {told heard : List Event}
    (h : p.tellingSide = (config, forwarder, told, heard)) :
    p.config = config ∧ p.forwarder = forwarder ∧ p.told = told ∧ p.heard = heard := by
  simpa only [tellingSide, Prod.mk.injEq] using h

/-- Nothing that was told is taken back. -/
theorem Tells.told_grows (h : Tells p p') : p.told <+: p'.told := by
  have hmore {e : Event} (htold : p'.told = p.told ++ [e]) : p.told <+: p'.told :=
    htold ▸ List.prefix_append p.told [e]
  have hnone (htold : p'.told = p.told) : p.told <+: p'.told := htold ▸ List.prefix_refl p.told
  cases h with
  | begins _ _ hside | ready _ _ hside | leaves _ _ hside =>
    exact hmore (of_tellingSide hside).2.2.1
  | takes f e _ _ _ _ hside => exact hmore (of_tellingSide hside).2.2.1
  | same _ hside | started _ _ _ _ hside | prepares _ _ hside | goesOn _ _ _ hside
  | ends _ _ _ hside | passes _ _ _ _ _ _ hside | stops _ _ _ _ hside =>
    exact hnone (of_tellingSide hside).2.2.1

/-! ## The main course -/

/-- What holds at any time of what is told, where there is a link. -/
structure Spoken (p : Program ω) : Prop where
  link : p.config.link.enabled = true
  byMain : p.told.filter (!·.isPassedOn) = p.stage.spoken
  fresh : p.stage = .preparing → p.told = []
  first : p.stage ≠ .preparing → p.told.head? = some .appPreStart
  alone : p.stage = .preparing ∨ p.stage = .announcing → p.forwarder = none
  finished : ∀ f, p.forwarder = some f → f.isRunning = false → f.sending = none

theorem spoken_start {config : Config} (h : config.link.enabled = true) (world : ω) :
    (start config world).Spoken :=
  ⟨h, rfl, fun _ => rfl, fun hstage => absurd rfl hstage, fun _ => rfl, nofun⟩

namespace Spoken

theorem ne_of_spoken {stage : Stage} {e : Event} {events : List Event}
    (h : stage.spoken = e :: events) : stage ≠ .preparing := by
  rintro rfl
  cases h

/-- The main course has told nothing new, and so has the forwarder. -/
theorem of_stage (h : p.Spoken) (hfrom : p.stage ≠ .preparing) (hto : p'.stage ≠ .preparing)
    (hspoken : p'.stage.spoken = p.stage.spoken) (hconfig : p'.config = p.config)
    (htold : p'.told = p.told) (halone : p'.stage = .announcing → p'.forwarder = none)
    (hfinished : ∀ f, p'.forwarder = some f → f.isRunning = false → f.sending = none) :
    p'.Spoken := by
  refine ⟨hconfig ▸ h.link, ?_, fun hstage => absurd hstage hto, fun _ => htold ▸ h.first hfrom,
    fun hstage => halone (hstage.resolve_left hto), hfinished⟩
  rw [htold, h.byMain, hspoken]

/-- The main course tells something. -/
theorem of_speech (h : p.Spoken) {e : Event} (he : e.isPassedOn = false)
    (hspoken : p'.stage.spoken = p.stage.spoken ++ [e])
    (hfirst : p.stage = .preparing → e = .appPreStart)
    (halone : p'.stage = .announcing → p.stage = .preparing)
    (hside : p'.tellingSide = (p.config, p.forwarder, p.told ++ [e], p.heard)) : p'.Spoken := by
  obtain ⟨hconfig, hforwarder, htold, -⟩ := of_tellingSide hside
  have hto : p'.stage ≠ .preparing := by
    intro hstage
    rw [hstage] at hspoken
    exact absurd hspoken.symm (List.append_ne_nil_of_right_ne_nil _ (List.cons_ne_nil e []))
  refine ⟨hconfig ▸ h.link, ?_, fun hstage => absurd hstage hto, fun _ => ?_, fun hstage => ?_,
    hforwarder ▸ h.finished⟩
  · rw [htold, List.filter_append, h.byMain, hspoken, List.filter_singleton, he]
    rfl
  · rw [htold]
    by_cases hstage : p.stage = .preparing
    · rw [h.fresh hstage, hfirst hstage]
      rfl
    · rw [List.head?_append, h.first hstage]
      rfl
  · rw [hforwarder]
    exact h.alone (.inl (halone (hstage.resolve_left hto)))

/-- The forwarder is there, so that the start has been told. -/
theorem of_forwarder (h : p.Spoken) {f f' : Forwarder} (hf : p.forwarder = some f)
    (hstage : p'.stage = p.stage) (hconfig : p'.config = p.config)
    (hforwarder : p'.forwarder = some f') {events : List Event}
    (htold : p'.told = p.told ++ events) (hpassed : ∀ e ∈ events, e.isPassedOn = true)
    (hfinished : f'.isRunning = false → f'.sending = none) : p'.Spoken := by
  have hlater : ¬(p.stage = .preparing ∨ p.stage = .announcing) := fun hearly => by
    rw [h.alone hearly] at hf
    cases hf
  have hnone : events.filter (!·.isPassedOn) = [] :=
    List.filter_eq_nil_iff.mpr fun e he => by simp [hpassed e he]
  refine ⟨hconfig ▸ h.link, ?_, fun hp => absurd (.inl (hstage ▸ hp)) hlater, fun _ => ?_,
    fun hp => absurd (hstage ▸ hp) hlater, ?_⟩
  · rw [htold, List.filter_append, h.byMain, hnone, List.append_nil, hstage]
  · rw [htold, List.head?_append, h.first fun hp => hlater (.inl hp)]
    rfl
  · intro g hg
    cases hforwarder.symm.trans hg
    exact hfinished

theorem of_tells (h : p.Spoken) (ht : Tells p p') : p'.Spoken := by
  cases ht with
  | same hstage hside =>
    obtain ⟨hconfig, hforwarder, htold, -⟩ := of_tellingSide hside
    refine ⟨hconfig ▸ h.link, ?_, ?_, ?_, ?_, hforwarder ▸ h.finished⟩
    · rw [htold, hstage, h.byMain]
    · rw [htold, hstage]
      exact h.fresh
    · rw [htold, hstage]
      exact h.first
    · rw [hforwarder, hstage]
      exact h.alone
  | begins hfrom hto hside =>
    exact h.of_speech rfl (by rw [hfrom, hto]; rfl) (fun _ => rfl) (fun _ => hfrom) hside
  | ready hfrom hto hside =>
    refine h.of_speech rfl (by rw [hfrom, hto]; rfl) ?_ ?_ hside
    · rw [hfrom]
      exact nofun
    · rw [hto]
      exact nofun
  | leaves hfrom hto hside =>
    refine h.of_speech rfl (by rw [hfrom, hto]; rfl) ?_ ?_ hside
    · exact fun hp => absurd hp (ne_of_spoken hfrom)
    · rw [hto]
      exact nofun
  | started reader heard hfrom hto hside =>
    obtain ⟨hconfig, hforwarder, htold, -⟩ := of_tellingSide hside
    refine h.of_stage ?_ ?_ ?_ hconfig htold ?_ ?_
    · rw [hfrom]
      exact nofun
    · rw [hto]
      exact nofun
    · rw [hfrom, hto]
      rfl
    · rw [hto]
      exact nofun
    · intro g hg
      cases hforwarder.symm.trans hg
      exact fun _ => rfl
  | prepares hfrom hto hside =>
    obtain ⟨hconfig, hforwarder, htold, -⟩ := of_tellingSide hside
    exact h.of_stage (ne_of_spoken hfrom.2) (ne_of_spoken hto.2) (hto.2.trans hfrom.2.symm) hconfig
      htold (fun hp => absurd hp hto.1) (hforwarder ▸ h.finished)
  | goesOn heard hfrom hto hside =>
    obtain ⟨hconfig, hforwarder, htold, -⟩ := of_tellingSide hside
    refine h.of_stage (ne_of_spoken hfrom) (ne_of_spoken hto) (hto.trans hfrom.symm) hconfig htold
      (fun hp => ?_) (hforwarder ▸ h.finished)
    rw [hp] at hto
    cases hto
  | ends heard hfrom hto hside =>
    obtain ⟨hconfig, hforwarder, htold, -⟩ := of_tellingSide hside
    refine h.of_stage ?_ ?_ ?_ hconfig htold ?_ (hforwarder ▸ h.finished)
    · rw [hfrom]
      exact nofun
    · rw [hto]
      exact nofun
    · rw [hfrom, hto]
      rfl
    · rw [hto]
      exact nofun
  | takes f e hf hidle he hstage hside =>
    obtain ⟨hconfig, hforwarder, htold, -⟩ := of_tellingSide hside
    refine h.of_forwarder hf hstage hconfig hforwarder htold ?_ fun hended => ?_
    · rintro _ hmem
      rwa [List.mem_singleton.mp hmem]
    · exact absurd (hidle.1.symm.trans hended) nofun
  | passes f e heard hf hsending hstage hside =>
    obtain ⟨hconfig, hforwarder, htold, -⟩ := of_tellingSide hside
    exact h.of_forwarder hf hstage hconfig hforwarder (htold.trans (List.append_nil _).symm)
      (List.forall_mem_nil _) fun _ => rfl
  | stops f hf hsending hstage hside =>
    obtain ⟨hconfig, hforwarder, htold, -⟩ := of_tellingSide hside
    exact h.of_forwarder hf hstage hconfig hforwarder (htold.trans (List.append_nil _).symm)
      (List.forall_mem_nil _) fun _ => hsending

theorem step (h : p.Spoken) (l : Label ω) : (p.step keep l).Spoken :=
  h.of_tells (tells_step h.link l)

theorem steps (h : p.Spoken) (ls : List (Label ω)) : (p.steps keep ls).Spoken := by
  induction ls generalizing p with
  | nil => exact h
  | cons l ls ih => exact ih (h.step l)

theorem told_grows (h : p.Spoken) (ls : List (Label ω)) : p.told <+: (p.steps keep ls).told := by
  induction ls generalizing p with
  | nil => exact List.prefix_refl _
  | cons l ls ih => exact (tells_step h.link l).told_grows.trans (ih (h.step l))

end Spoken

/-! ## The end -/

/-- Nothing else is told while the user interface is told of the end, nor after that. -/
structure Silent (told heard : List Event) (p : Program ω) : Prop where
  stage : p.stage = .sayingExit ∧ p.heard = heard ∨
    p.stage = .ended none ∧ (p.heard = heard ∨ p.heard = heard ++ [.appExit])
  told : p.told = told
  forwarder : ∀ f, p.forwarder = some f → f.isRunning = false ∧ f.sending = none

variable {told heard : List Event}

theorem Silent.spoken (h : p.Silent told heard) :
    p.stage.spoken = [.appPreStart, .appReady, .appExit] := by
  rcases h.stage with ⟨hstage, -⟩ | ⟨hstage, -⟩ <;> rw [hstage] <;> rfl

theorem Silent.of_tells (h : p.Silent told heard) (ht : Tells p p') : p'.Silent told heard := by
  have hspoken := h.spoken
  cases ht with
  | same hstage hside =>
    obtain ⟨-, hforwarder, htold, hheard⟩ := of_tellingSide hside
    exact ⟨by rw [hstage, hheard]; exact h.stage, htold.trans h.told, hforwarder ▸ h.forwarder⟩
  | ends answer hfrom hto hside =>
    obtain ⟨-, hforwarder, htold, hheard⟩ := of_tellingSide hside
    refine ⟨.inr ⟨hto, ?_⟩, htold.trans h.told, hforwarder ▸ h.forwarder⟩
    rcases h.stage with ⟨-, hsame⟩ | ⟨hended, -⟩
    · rw [hheard, hsame]
      cases answer with
      | false => exact .inl rfl
      | true => exact .inr rfl
    · exact absurd (hfrom.symm.trans hended) nofun
  | begins hfrom | started _ _ hfrom | ready hfrom =>
    rw [hfrom] at hspoken
    cases hspoken
  | prepares hfrom => exact absurd (hfrom.2.symm.trans hspoken) (by simp)
  | goesOn _ hfrom | leaves hfrom => exact absurd (hfrom.symm.trans hspoken) (by simp)
  | takes f e hf hidle =>
    exact absurd (hidle.1.symm.trans (h.forwarder f hf).1) nofun
  | passes f e _ hf hsending =>
    exact absurd (hsending.symm.trans (h.forwarder f hf).2) nofun
  | stops f hf hsending hstage hside =>
    obtain ⟨-, hforwarder, htold, hheard⟩ := of_tellingSide hside
    refine ⟨by rw [hstage, hheard]; exact h.stage, htold.trans h.told, fun g hg => ?_⟩
    cases hforwarder.symm.trans hg
    exact ⟨rfl, hsending⟩

theorem Silent.steps (h : p.Silent told heard) (hspoken : p.Spoken) (ls : List (Label ω)) :
    (p.steps keep ls).Silent told heard := by
  induction ls generalizing p with
  | nil => exact h
  | cons l ls ih => exact ih (h.of_tells (tells_step hspoken.link l)) (hspoken.step l)

/-- There is one way to come to tell of the end. -/
theorem Tells.leaving (ht : Tells p p') (hbefore : p.stage ≠ .sayingExit)
    (hafter : p'.stage = .sayingExit) :
    p'.tellingSide = (p.config, p.forwarder, p.told ++ [.appExit], p.heard) := by
  cases ht with
  | leaves _ _ hside => exact hside
  | same hstage => exact absurd (hstage.symm.trans hafter) hbefore
  | takes _ _ _ _ _ hstage | passes _ _ _ _ _ hstage | stops _ _ _ hstage =>
    exact absurd (hstage.symm.trans hafter) hbefore
  | begins _ hto | started _ _ _ hto | ready _ hto | ends _ _ hto =>
    exact absurd (hto.symm.trans hafter) nofun
  | prepares _ hto =>
    rw [hafter] at hto
    exact absurd hto.2 (by simp [Stage.spoken])
  | goesOn _ _ hto =>
    rw [hafter] at hto
    exact absurd hto (by simp [Stage.spoken])

theorem length_spoken_le (stage : Stage) : stage.spoken.length ≤ 3 := by
  cases stage with
  | ended trouble => cases trouble <;> simp [Stage.spoken]
  | _ => simp [Stage.spoken]

/-- What is told begins with the start and has the readiness and the end in it, once each, and
apart from these only what the forwarder passes on. After the end the forwarder may go on, if it was
waited for no longer; if it had ended by then, nothing else is told and nothing else is heard. -/
theorem exit_told_last (keep : Smtp.Keep ω) (config : Config)
    (hlink : config.link.enabled = true) (world : ω) (ls : List (Label ω)) :
    let p := (start config world).steps keep ls
    (p.stage = .ended none → p.told.head? = some .appPreStart ∧
      p.told.filter (!·.isPassedOn) = [.appPreStart, .appReady, .appExit]) ∧
    ∀ before l after, ls = before ++ l :: after →
      let q := (start config world).steps keep before
      q.stage ≠ .sayingExit → (q.step keep l).stage = .sayingExit →
        (∃ rest, p.told = q.told ++ .appExit :: rest ∧ ∀ e ∈ rest, e.isPassedOn = true) ∧
        (q.hasEnded .forwarder = true →
          p.told = q.told ++ [.appExit] ∧ (∀ f, p.forwarder = some f → f.sending = none) ∧
          (p.heard = q.heard ∨ p.heard = q.heard ++ [.appExit])) := by
  intro p
  have hstart := spoken_start hlink world
  have hp : p.Spoken := hstart.steps ls
  refine ⟨fun hended => ⟨hp.first (by rw [hended]; exact nofun), ?_⟩, ?_⟩
  · rw [hp.byMain, hended]
    rfl
  intro before l after hls q hbefore hafter
  have hq : q.Spoken := hstart.steps before
  have htells : Tells q (q.step keep l) := tells_step hq.link l
  obtain ⟨-, hforwarder, htold, hheard⟩ := of_tellingSide (htells.leaving hbefore hafter)
  have hlater : p = (q.step keep l).steps keep after := by
    change (start config world).steps keep ls = _
    rw [hls, steps_append]
    rfl
  have hspoken : (q.step keep l).Spoken := hq.step l
  refine ⟨?_, fun hended => ?_⟩
  · obtain ⟨rest, hrest⟩ : (q.step keep l).told <+: p.told := hlater ▸ hspoken.told_grows after
    have hall := hspoken.byMain
    have hlength := length_spoken_le p.stage
    rw [hafter] at hall
    rw [← hp.byMain, ← hrest, List.filter_append, hall, List.length_append] at hlength
    have hnone : rest.filter (!·.isPassedOn) = [] :=
      List.length_eq_zero_iff.mp (by simp only [Stage.spoken, List.length_cons] at hlength; omega)
    rw [htold, List.append_assoc, List.singleton_append] at hrest
    refine ⟨rest, hrest.symm, fun e he => ?_⟩
    simpa using List.filter_eq_nil_iff.mp hnone e he
  · have hsilent : (q.step keep l).Silent (q.told ++ [.appExit]) q.heard := by
      refine ⟨.inl ⟨hafter, hheard⟩, htold, fun f hf => ?_⟩
      rw [hforwarder] at hf
      have hidle : f.isRunning = false := by
        simpa only [hasEnded, hf, Option.all_some, Bool.not_eq_true'] using hended
      exact ⟨hidle, hq.finished f hf hidle⟩
    have hlast : p.Silent (q.told ++ [.appExit]) q.heard :=
      hlater ▸ hsilent.steps hspoken after
    refine ⟨hlast.told, fun f hf => (hlast.forwarder f hf).2, ?_⟩
    rcases hlast.stage with ⟨-, hsame⟩ | ⟨-, heither⟩
    · exact .inl hsame
    · exact heither

/-! ### Two farewells -/

def untilReady : List (Label Unit) :=
  [.prepare, .told true, .rules (.ok []), .linkBound true, .mailBound (.ok 2525), .told true]

/-- It is interrupted, and waits for none of its parts but the forwarder. -/
def untilForwarder : List (Label Unit) := [.interrupt, .graceOver, .graceOver, .graceOver]

/-- The forwarder sees that it is to end, though it has not told of the port for mail. -/
theorem exit_told_last_awaited :
    let config := Config.ofMachine "sink.test"
    let p := (start config ()).steps refuseAll
      (untilReady ++ untilForwarder ++ [.forwarderLeaves, .joined, .forward, .told true])
    config.link.enabled = true ∧ p.stage = .ended none ∧
      p.told = [.appPreStart, .appReady, .appExit] := by
  have hrow : untilReady ++ untilForwarder ++ [.forwarderLeaves, .joined, .forward, .told true] =
      (untilReady ++ untilForwarder ++ [.forwarderLeaves]) ++
        .joined :: [.forward, .told true] := by
    rw [List.append_assoc _ [Label.forwarderLeaves]]
    rfl
  have hrun :
      let first := start (Config.ofMachine "sink.test") ()
      let q := first.steps refuseAll (untilReady ++ untilForwarder ++ [.forwarderLeaves])
      q.stage ≠ .sayingExit ∧ (q.step refuseAll .joined).stage = .sayingExit ∧
        q.hasEnded .forwarder = true ∧ q.told = [.appPreStart, .appReady] := by decide +kernel
  obtain ⟨hbefore, hafter, hended, htold⟩ := hrun
  obtain ⟨-, hlast⟩ := (exit_told_last refuseAll (Config.ofMachine "sink.test") rfl () _).2 _ _ _
    hrow hbefore hafter
  obtain ⟨htelling, -⟩ := hlast hended
  rw [htold] at htelling
  exact ⟨rfl, by decide +kernel, htelling⟩

def hasty : Config :=
  let c := Config.ofMachine "sink.test"
  { c with mail := { c.mail with shutdownGraceSecs := 0 } }

/-- When the time for waiting is over the forwarder is still telling of the port for mail, and the
user interface hears that while it is told of the end. -/
theorem exit_not_told_last :
    let q := (start hasty ()).steps refuseAll
      (untilReady ++ .forward :: untilForwarder ++ [.graceOver])
    let p := q.steps refuseAll [.forwarded true, .told true]
    hasty.validate.isOk = true ∧ hasty.link.enabled = true ∧ q.stage = .sayingExit ∧
      q.told = [.appPreStart, .appReady, .smtpServerBind "any" 2525, .appExit] ∧
      q.heard = [.appPreStart, .appReady] ∧ p.stage = .ended none ∧
      p.heard = q.heard ++ [.smtpServerBind "any" 2525, .appExit] := by
  decide +kernel

end Letterbox.Program
