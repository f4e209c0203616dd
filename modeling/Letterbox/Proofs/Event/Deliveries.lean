import Mathlib.Algebra.Group.Nat.Defs
import Mathlib.Data.List.Basic
import Letterbox.Proofs.Event.Chronicle

/-!
# A bus gives what its chronicle says

The slots of a bus and the places of its readers come to the same as the chronicle of all that was
published: every reader is given the oldest event that it has not been given and that is still kept.
What a reader is given does not depend on what others take, and it misses an event only if as many
later ones were published as the bus has slots.
-/

set_option autoImplicit false

namespace Letterbox.Bus

/-! ## Slots -/

theorem le_size (capacity : Nat) : max capacity 1 ≤ size capacity := by
  unfold size
  split
  · omega
  · have := Nat.lt_log2_self (n := capacity - 1)
    rw [Nat.pow_eq]
    omega

theorem size_lt (capacity : Nat) : size capacity < 2 * max capacity 1 := by
  unfold size
  split
  · omega
  · have := Nat.log2_self_le (n := capacity - 1) (by omega)
    rw [Nat.pow_eq, Nat.pow_succ]
    omega

theorem size_eq_pow (capacity : Nat) : ∃ k, size capacity = 2 ^ k := by
  unfold size
  split
  · exact ⟨0, rfl⟩
  · exact ⟨_, rfl⟩

/-! ## A bus beside its chronicle -/

/-- The bus stands as the chronicle says. The first `silent` events were published before any of its
readers came, or while there were none; nothing was kept of those that nobody was there to hear. -/
structure Tells (b : Bus) (c : Chronicle) (slots silent : Nat) : Prop where
  isOpen : b.isOpen = c.isOpen
  pos : 0 < slots
  length : b.slots.length = slots
  written : b.written + silent = c.events.length
  readers : b.readers = c.subscribers.map fun s => if s.left then none else some (s.place - silent)
  since : ∀ s ∈ c.subscribers, s.left = false → silent ≤ s.since
  kept : ∀ s ∈ c.subscribers, s.left = false → ∀ p e, s.since ≤ p → c.events[p]? = some e →
    c.events.length ≤ p + slots → b.slots[(p - silent) % slots]? = some (some e)

variable {b : Bus} {c : Chronicle} {slots silent reader : Nat}

theorem tells_ofCapacity (capacity : Nat) : (ofCapacity capacity).Tells {} (size capacity) 0 := by
  refine ⟨rfl, ?_, List.length_replicate, rfl, rfl, nofun, nofun⟩
  have := le_size capacity
  omega

theorem Tells.readerCount (h : b.Tells c slots silent) : b.readerCount = c.presentCount := by
  rw [Bus.readerCount, h.readers, List.filter_map, List.length_map, Chronicle.presentCount]
  congr 2
  funext s
  simp only [Function.comp_apply]
  cases s.left <;> rfl

theorem not_left_of_present {s : Subscriber} (hs : s ∈ c.subscribers) (h : s.left = false) :
    c.presentCount ≠ 0 := by
  have hmem : s ∈ c.subscribers.filter (!·.left) := List.mem_filter.mpr ⟨hs, by simp [h]⟩
  exact Nat.ne_of_gt (List.length_pos_of_mem hmem)

/-- The event goes into a slot if anybody is there; otherwise it is not kept. -/
theorem Tells.publish (h : b.Tells c slots silent) (e : Event) :
    ∃ more, (b.publish e).1.Tells (c.act slots (.publish e)) slots more := by
  simp only [Bus.publish, Chronicle.act, h.isOpen, h.readerCount]
  cases hopen : c.isOpen with
  | false => exact ⟨silent, by simpa [hopen] using h⟩
  | true =>
    by_cases hcount : c.presentCount = 0
    · have habsent : ∀ s ∈ c.subscribers, s.left = true := by
        intro s hs
        cases hleft : s.left with
        | true => rfl
        | false => exact absurd hcount (not_left_of_present hs hleft)
      refine ⟨silent + 1, ?_⟩
      simp only [hcount, bne_self_eq_false, Bool.and_false, Bool.false_eq_true, if_false, if_true]
      refine ⟨h.isOpen.trans hopen, h.pos, h.length, ?_, ?_, ?_, ?_⟩
      · have := h.written
        simp only [List.length_append, List.length_singleton]
        omega
      · rw [h.readers]
        refine List.map_congr_left fun s hs => ?_
        rw [if_pos (habsent s hs), if_pos (habsent s hs)]
      · intro s hs hleft
        rw [habsent s hs] at hleft
        cases hleft
      · intro s hs hleft
        rw [habsent s hs] at hleft
        cases hleft
    · refine ⟨silent, ?_⟩
      simp only [bne_iff_ne, ne_eq, hcount, not_false_eq_true, if_true, slotOf, Bool.true_and]
      have hslots := h.pos
      have hwritten := h.written
      rw [h.length]
      refine ⟨rfl, hslots, ?_, ?_, h.readers, h.since, ?_⟩
      · rw [List.length_set, h.length]
      · simp only [List.length_append, List.length_singleton]
        omega
      · intro s hs hleft p f hsince hf hlast
        have hsilent := h.since s hs hleft
        simp only [List.length_append, List.length_singleton] at hlast ⊢
        have hbound : p < c.events.length + 1 := by
          simpa using (List.getElem?_eq_some_iff.mp hf).1
        by_cases hnew : p = c.events.length
        · subst hnew
          rw [List.getElem?_concat_length, Option.some.injEq] at hf
          have hplace : c.events.length - silent = b.written := by omega
          have hslot : b.written % slots < b.slots.length := by
            rw [h.length]
            exact Nat.mod_lt _ hslots
          rw [hplace, List.getElem?_set_self hslot, hf]
        · -- Two places of which both are kept do not share a slot.
          have hapart : b.written % slots ≠ (p - silent) % slots := by
            intro hsame
            have hdvd : slots ∣ b.written - (p - silent) :=
              Nat.dvd_of_mod_eq_zero (Nat.sub_mod_eq_zero_of_mod_eq hsame)
            have := Nat.le_of_dvd (by omega) hdvd
            omega
          rw [List.getElem?_set_ne hapart]
          rw [List.getElem?_append_left (by omega)] at hf
          exact h.kept s hs hleft p f hsince hf (by omega)

theorem Tells.subscribe (h : b.Tells c slots silent) :
    b.subscribe.1.Tells (c.act slots .subscribe) slots silent := by
  have hwritten := h.written
  refine ⟨h.isOpen, h.pos, h.length, hwritten, ?_, ?_, ?_⟩
  · simp only [Bus.subscribe, Chronicle.act, h.readers, List.map_append, List.map_singleton]
    have hplace : c.events.length - silent = b.written := by omega
    simp [Subscriber.place, hplace]
  · intro s hs hleft
    rcases List.mem_append.mp hs with hs | hs
    · exact h.since s hs hleft
    · rw [List.mem_singleton.mp hs]
      exact Nat.le.intro ((Nat.add_comm _ _).trans hwritten)
  · intro s hs hleft p e hsince he
    rcases List.mem_append.mp hs with hs | hs
    · exact h.kept s hs hleft p e hsince he
    · rw [List.mem_singleton.mp hs] at hsince
      exact absurd (List.getElem?_eq_some_iff.mp he).1 (Nat.not_lt.mpr hsince)

theorem map_modify_eq_set {α β : Type} {f : α → β} {g : α → α} {v : β} {l : List α} {i : Nat}
    (h : ∀ a, l[i]? = some a → f (g a) = v) : (l.modify i g).map f = (l.map f).set i v := by
  apply List.ext_getElem?
  intro j
  rw [List.getElem?_map, List.getElem?_modify, List.getElem?_set, List.getElem?_map,
    List.length_map]
  by_cases hij : i = j
  · subst hij
    cases ha : l[i]? with
    | none =>
      have := List.getElem?_eq_none_iff.mp ha
      simp [Nat.not_lt.mpr this]
    | some a =>
      have := (List.getElem?_eq_some_iff.mp ha).1
      simp [this, h a ha]
  · cases l[j]? <;> simp [hij]

theorem Tells.unsubscribe (h : b.Tells c slots silent) :
    (b.unsubscribe reader).Tells (c.act slots (.unsubscribe reader)) slots silent := by
  have hmem : ∀ s ∈ c.subscribers.modify reader fun s => { s with left := true },
      s.left = false → s ∈ c.subscribers := by
    intro s hs hleft
    rcases Chronicle.mem_modify hs with hs | ⟨t, -, rfl⟩
    · exact hs
    · cases hleft
  refine ⟨h.isOpen, h.pos, h.length, h.written, ?_, ?_, ?_⟩
  · simp only [Bus.unsubscribe, Chronicle.act, h.readers]
    exact (map_modify_eq_set fun s _ => by simp).symm
  · exact fun s hs hleft => h.since s (hmem s hs hleft) hleft
  · exact fun s hs hleft => h.kept s (hmem s hs hleft) hleft

theorem Tells.close (h : b.Tells c slots silent)  :
    b.close.Tells (c.act slots .close) slots silent :=
  ⟨rfl, h.pos, h.length, h.written, h.readers, h.since, h.kept⟩

/-- A reader goes on from where its subscriber was given something last. -/
theorem Tells.place {s : Subscriber} (h : b.Tells c slots silent)
    (hs : c.present? reader = some s) :
    b.readers[reader]? = some (some (s.place - silent)) := by
  obtain ⟨hget, hleft⟩ := Chronicle.present?_eq_some.mp hs
  rw [h.readers, List.getElem?_map, hget, Option.map_some, hleft]
  rfl

theorem Tells.receive_absent (h : b.Tells c slots silent) (hs : c.present? reader = none) :
    b.receive reader = (b, .closed) := by
  have hreader : ∀ place, b.readers[reader]? ≠ some (some place) := by
    intro place hplace
    rw [h.readers, List.getElem?_map] at hplace
    obtain ⟨s, hget, hplace⟩ := Option.map_eq_some_iff.mp hplace
    cases hleft : s.left with
    | true => simp [hleft] at hplace
    | false =>
      rw [Chronicle.present?_eq_some.mpr ⟨hget, hleft⟩] at hs
      cases hs
  unfold Bus.receive
  split
  · rename_i place hplace
    exact absurd hplace (hreader place)
  · rfl

/-- What a reader gets, and the bus behind it. -/
theorem Tells.receive (h : b.Tells c slots silent) (hc : c.Sound slots) (reader : Nat) :
    (b.receive reader).2 = c.answer slots reader ∧
      (b.receive reader).1.Tells (c.act slots (.receive reader)) slots silent := by
  cases hs : c.present? reader with
  | none =>
    have hnext : c.next? slots reader = none := by rw [Chronicle.next?, hs]; rfl
    rw [h.receive_absent hs]
    refine ⟨?_, ?_⟩
    · rw [Chronicle.answer, hnext, hs]
      rfl
    · simp only [Chronicle.act, hnext]
      exact h
  | some s =>
    obtain ⟨hget, hleft⟩ := Chronicle.present?_eq_some.mp hs
    have hmem := List.mem_of_getElem? hget
    have hsound := hc s hmem
    have hsilent := h.since s hmem hleft
    have hwritten := h.written
    have hsince := hsound.since_le
    have hstart : b.oldest (s.place - silent) + silent =
        s.start slots c.events.length := by
      simp only [oldest, Subscriber.start, h.length]
      omega
    have hnext := hc.next? hs
    simp only [Bus.receive, h.place hs]
    by_cases hlt : s.start slots c.events.length < c.events.length
    · rw [if_pos hlt] at hnext
      obtain ⟨e, he⟩ : ∃ e, c.events[s.start slots c.events.length]? = some e :=
        ⟨_, List.getElem?_eq_getElem hlt⟩
      have hmax : s.start slots c.events.length = max s.place (c.events.length - slots) := rfl
      have hkept := h.kept s hmem hleft _ e (by omega) he (by omega)
      rw [← hstart, Nat.add_sub_cancel] at hkept
      have hbehind : b.oldest (s.place - silent) < b.written := by omega
      simp only [hbehind, if_true, slotOf, h.length, hkept]
      refine ⟨?_, ?_⟩
      · rw [Chronicle.answer, hnext, Option.bind_some, he]
      · have hgiven : ∀ t, t ∈ c.subscribers.modify reader
            (Chronicle.give · (s.start slots c.events.length)) →
            ∃ u ∈ c.subscribers, t.since = u.since ∧ t.left = u.left := by
          intro t ht
          rcases Chronicle.mem_modify ht with ht | ⟨u, hu, rfl⟩
          · exact ⟨t, ht, rfl, rfl⟩
          · exact ⟨u, List.mem_of_getElem? hu, rfl, rfl⟩
        simp only [Chronicle.act, hnext]
        refine ⟨h.isOpen, h.pos, h.length, hwritten, ?_, ?_, ?_⟩
        · rw [h.readers, map_modify_eq_set]
          intro t ht
          cases hget.symm.trans ht
          have hleft' : (Chronicle.give s (s.start slots c.events.length)).left = false :=
            hleft
          rw [hleft', Subscriber.place_give]
          simp only [Bool.false_eq_true, if_false]
          congr 1
          omega
        · intro t ht htleft
          obtain ⟨u, hu, hsame, huleft⟩ := hgiven t ht
          rw [hsame]
          exact h.since u hu (huleft ▸ htleft)
        · intro t ht htleft
          obtain ⟨u, hu, hsame, huleft⟩ := hgiven t ht
          rw [hsame]
          exact h.kept u hu (huleft ▸ htleft)
    · rw [if_neg hlt] at hnext
      have hnothing : ¬ b.oldest (s.place - silent) < b.written := by omega
      simp only [hnothing, if_false]
      refine ⟨?_, ?_⟩
      · rw [Chronicle.answer, hnext, hs, h.isOpen]
        simp only [Option.bind_none, Option.isSome_some, Bool.true_and]
      · simp only [Chronicle.act, hnext]
        exact h

theorem Tells.act (h : b.Tells c slots silent) (hc : c.Sound slots) (a : Action) :
    ∃ more, (b.act a).1.Tells (c.act slots a) slots more := by
  cases a with
  | publish e => exact h.publish e
  | subscribe => exact ⟨silent, h.subscribe⟩
  | unsubscribe reader => exact ⟨silent, h.unsubscribe⟩
  | receive reader => exact ⟨silent, (h.receive hc reader).2⟩
  | close => exact ⟨silent, h.close⟩

/-! ## Runs -/

def afterAll (b : Bus) (actions : List Action) : Bus := actions.foldl (fun b a => (b.act a).1) b

def gets (b : Bus) (reader : Nat) : Action → List Event
  | .receive r => if r = reader then
      match (b.receive r).2 with
      | .event e => [e]
      | .pending | .closed => []
    else []
  | _ => []

def heardBy (reader : Nat) : Bus → List Action → List Event
  | _, [] => []
  | b, a :: rest => b.gets reader a ++ heardBy reader (b.act a).1 rest

theorem heardBy_append (b : Bus) (actions more : List Action) :
    heardBy reader b (actions ++ more) =
      heardBy reader b actions ++ heardBy reader (b.afterAll actions) more := by
  induction actions generalizing b with
  | nil => rfl
  | cons a actions ih =>
    rw [List.cons_append, heardBy, heardBy, ih, List.append_assoc]
    rfl

theorem afterAll_append (b : Bus) (actions more : List Action) :
    b.afterAll (actions ++ more) = (b.afterAll actions).afterAll more := List.foldl_append

theorem tells_after (capacity : Nat) (actions : List Action) :
    ∃ silent, ((ofCapacity capacity).afterAll actions).Tells
      (Chronicle.after (size capacity) actions) (size capacity) silent := by
  induction actions using List.reverseRecOn with
  | nil => exact ⟨0, tells_ofCapacity capacity⟩
  | append_singleton actions a ih =>
    obtain ⟨silent, htells⟩ := ih
    rw [afterAll_append, Chronicle.after_concat]
    exact htells.act (Chronicle.sound_after _ actions) a

end Letterbox.Bus

namespace Letterbox.Chronicle

variable {slots : Nat} {c : Chronicle} {reader : Nat}

/-- The events that a reader was given; none before it came. -/
def heard (c : Chronicle) (reader : Nat) : List Event :=
  (c.subscribers[reader]?.map c.givenTo).getD []

def grants (slots : Nat) (c : Chronicle) (reader : Nat) : Bus.Action → List Event
  | .receive r => if r = reader then ((c.next? slots r).bind (c.events[·]?)).toList else []
  | _ => []

theorem heard_act (h : c.Sound slots) (reader : Nat) (a : Bus.Action) :
    (c.act slots a).heard reader = c.heard reader ++ c.grants slots reader a := by
  cases a with
  | publish e =>
    simp only [act, grants, List.append_nil]
    split
    · cases hs : c.subscribers[reader]? with
      | none => simp only [heard, hs, Option.map_none]
      | some s =>
        simp only [heard, hs, Option.map_some, Option.getD_some, givenTo]
        have hsound := h s (List.mem_of_getElem? hs)
        refine List.filterMap_congr fun p hp => ?_
        have hlt := Nat.lt_of_lt_of_le (hsound.bounds p hp).2 hsound.place_le
        exact List.getElem?_append_left hlt
    · rfl
  | subscribe =>
    simp only [heard, act, grants, List.append_nil, List.getElem?_append]
    split
    · rfl
    · rename_i hge
      rw [List.getElem?_eq_none (Nat.not_lt.mp hge), List.getElem?_singleton]
      split <;> rfl
  | unsubscribe r =>
    simp only [heard, act, grants, List.append_nil, List.getElem?_modify]
    cases c.subscribers[reader]? with
    | none => rfl
    | some s => split <;> rfl
  | close => exact (List.append_nil _).symm
  | receive r =>
    cases hnext : c.next? slots r with
    | none =>
      simp only [act, grants, hnext, Option.bind_none, Option.toList_none, ite_self,
        List.append_nil]
    | some p =>
      obtain ⟨s, hs, -⟩ := Option.bind_eq_some_iff.mp hnext
      have hget := (present?_eq_some.mp hs).1
      simp only [heard, act, grants, hnext, Option.bind_some, List.getElem?_modify]
      by_cases hr : r = reader
      · subst hr
        simp [hget, givenTo, give, List.filterMap_cons, List.filterMap_nil]
        cases c.events[p]? <;> rfl
      · cases c.subscribers[reader]? <;> simp [hr, givenTo]

end Letterbox.Chronicle

namespace Letterbox.Bus

variable {b : Bus} {c : Chronicle} {slots silent reader : Nat}

theorem Tells.gets (h : b.Tells c slots silent) (hc : c.Sound slots) (a : Action) :
    b.gets reader a = c.grants slots reader a := by
  cases a with
  | receive r =>
    simp only [Bus.gets, Chronicle.grants, (h.receive hc r).1, Chronicle.answer]
    cases (c.next? slots r).bind (c.events[·]?) with
    | some e => rfl
    | none =>
      simp only [Option.toList_none]
      cases (c.present? r).isSome && c.isOpen <;> rfl
  | publish | subscribe | unsubscribe | close => rfl

/-- What a reader gets over the bus is what the chronicle says that it was given. -/
theorem heardBy_eq (capacity : Nat) (actions : List Action) (reader : Nat) :
    heardBy reader (ofCapacity capacity) actions =
      (Chronicle.after (size capacity) actions).heard reader := by
  induction actions using List.reverseRecOn with
  | nil => rfl
  | append_singleton actions a ih =>
    obtain ⟨silent, htells⟩ := tells_after capacity actions
    have hsound := Chronicle.sound_after (size capacity) actions
    rw [heardBy_append, Chronicle.after_concat, Chronicle.heard_act hsound, ih, heardBy, heardBy,
      List.append_nil, htells.gets hsound]

end Letterbox.Bus
