import Letterbox.Proofs.Event.Deliveries

/-!
# What subscribers can rely on

A subscriber gets a part of what was published since it came, in order and nothing twice. It misses
an event only if at least as many later ones as the capacity were published in the meantime, it does
not notice what others take, and when nobody publishes any more it still gets all that is kept.
-/

set_option autoImplicit false

namespace Letterbox.Bus

variable {b b' : Bus} {c : Chronicle} {slots silent reader : Nat} {s : Subscriber}

/-! ## Taking all that is there -/

theorem Tells.receive_of_waiting_nil (h : b.Tells c slots silent) (hc : c.Sound slots)
    (hs : c.present? reader = some s) (hnone : c.waiting slots s = []) :
    (b.receive reader).2 = if c.isOpen then .pending else .closed := by
  rw [(h.receive hc reader).1, Chronicle.answer, Chronicle.next?, hs, Option.bind_some, hnone]
  rfl

/-- Behind the next event the others are still waiting. -/
theorem waiting_act {p : Nat} {rest : List Nat} (hc : c.Sound slots)
    (hs : c.present? reader = some s) (hwaiting : c.waiting slots s = p :: rest) :
    let c' := c.act slots (.receive reader)
    c'.events = c.events ∧ c'.isOpen = c.isOpen ∧
      c'.present? reader = some (Chronicle.give s p) ∧
      c'.waiting slots (Chronicle.give s p) = rest := by
  obtain ⟨hget, hleft⟩ := Chronicle.present?_eq_some.mp hs
  have hnext : c.next? slots reader = some p := by
    rw [Chronicle.next?, hs, Option.bind_some, hwaiting, List.head?_cons]
  have hsound := hc s (List.mem_of_getElem? hget)
  have hact : c.act slots (.receive reader) =
      { c with subscribers := c.subscribers.modify reader (Chronicle.give · p) } := by
    simp only [Chronicle.act, hnext]
  have hpresent : (c.act slots (.receive reader)).present? reader = some (Chronicle.give s p) := by
    rw [Chronicle.present?_eq_some, hact]
    simp only [List.getElem?_modify, hget, Chronicle.give, hleft]
    exact ⟨by simp [hleft], trivial⟩
  have hgiven := hc.act (.receive reader) (Chronicle.give s p)
    (List.mem_of_getElem? (Chronicle.present?_eq_some.mp hpresent).1)
  have hplaces := Chronicle.waiting_eq hsound
  rw [hwaiting, eq_comm, List.range'_eq_cons_iff] at hplaces
  obtain ⟨hp, hlt, hrest⟩ := hplaces
  refine ⟨by rw [hact], by rw [hact], hpresent, ?_⟩
  rw [Chronicle.waiting_eq hgiven, hrest, hact]
  simp only [Subscriber.start, Subscriber.place_give] at hp hlt ⊢
  have hnow : max (p + 1) (c.events.length - slots) = p + 1 := by omega
  rw [hnow]
  congr 1
  omega

/-- A subscriber that goes on taking gets all that is waiting for it, and then hears that there is
nothing yet, or that there will be nothing. -/
theorem Tells.drain (h : b.Tells c slots silent) (hc : c.Sound slots)
    (hs : c.present? reader = some s) (n : Nat) :
    heardBy reader b (List.replicate n (.receive reader)) =
        ((c.waiting slots s).take n).filterMap (c.events[·]?) ∧
      ((c.waiting slots s).length ≤ n →
        ((b.afterAll (List.replicate n (.receive reader))).receive reader).2 =
          if c.isOpen then .pending else .closed) := by
  induction n generalizing b c s with
  | zero =>
    refine ⟨rfl, fun hlen => ?_⟩
    exact h.receive_of_waiting_nil hc hs (List.length_eq_zero_iff.mp (Nat.le_zero.mp hlen))
  | succ n ih =>
    have htells := (h.receive hc reader).2
    have hsound := hc.act (.receive reader)
    rw [List.replicate_succ, heardBy, h.gets hc, Chronicle.grants, if_pos rfl, Chronicle.next?, hs,
      Option.bind_some]
    cases hwaiting : c.waiting slots s with
    | nil =>
      have hsame : c.act slots (.receive reader) = c := by
        simp only [Chronicle.act, Chronicle.next?, hs, Option.bind_some, hwaiting, List.head?_nil]
      rw [hsame] at htells
      obtain ⟨hheard, hend⟩ := ih htells hc hs
      rw [hwaiting] at hheard hend
      refine ⟨?_, fun _ => hend (Nat.zero_le n)⟩
      rw [Bus.act, hheard, List.take_nil, List.take_nil]
      rfl
    | cons p rest =>
      obtain ⟨hevents, hopen, hpresent, hrest⟩ := waiting_act hc hs hwaiting
      obtain ⟨hheard, hend⟩ := ih htells hsound hpresent
      rw [hrest, hevents] at hheard
      rw [hrest, hopen] at hend
      refine ⟨?_, fun hlen => hend (Nat.le_of_succ_le_succ hlen)⟩
      rw [Bus.act, hheard, List.take_succ_cons, List.filterMap_cons, List.head?_cons,
        Option.bind_some]
      cases c.events[p]? <;> rfl

/-! ## Others -/

/-- Two buses are the same but for the places of other readers. -/
structure Alike (reader : Nat) (b b' : Bus) : Prop where
  slots : b.slots = b'.slots
  written : b.written = b'.written
  isOpen : b.isOpen = b'.isOpen
  present : b.readers.map Option.isSome = b'.readers.map Option.isSome
  own : b.readers[reader]? = b'.readers[reader]?

theorem Alike.readerCount (h : Alike reader b b') : b.readerCount = b'.readerCount := by
  have hcount : ∀ c : Bus, c.readerCount = (c.readers.map Option.isSome).count true := by
    intro c
    rw [Bus.readerCount, ← List.countP_eq_length_filter, List.count, List.countP_map]
    congr 1
    funext r
    cases r <;> rfl
  rw [hcount, hcount, h.present]

theorem Alike.length (h : Alike reader b b') : b.readers.length = b'.readers.length := by
  have hlength := congrArg List.length h.present
  rwa [List.length_map, List.length_map] at hlength

/-- What other readers take makes no difference. -/
theorem Alike.skip (h : Alike reader b b') {other : Nat} (hother : other ≠ reader) :
    Alike reader (b.receive other).1 b' := by
  unfold Bus.receive
  split
  · rename_i place hplace
    have hlt := (List.getElem?_eq_some_iff.mp hplace).1
    have hmoved : ∀ p : Nat,
        Alike reader { b with readers := b.readers.set other (some p) } b' := by
      intro p
      refine ⟨h.slots, h.written, h.isOpen, ?_, ?_⟩
      · have hsome : (b.readers.map Option.isSome)[other]? = some true := by
          rw [List.getElem?_map, hplace]
          rfl
        obtain ⟨hbound, htrue⟩ := List.getElem?_eq_some_iff.mp hsome
        rw [← h.present, List.map_set, Option.isSome_some, ← htrue, List.set_getElem_self]
      · rw [← h.own]
        exact List.getElem?_set_ne hother
    dsimp only
    repeat' split
    · exact hmoved _
    all_goals exact h
  · exact h

theorem Alike.receive (h : Alike reader b b') :
    (b.receive reader).2 = (b'.receive reader).2 ∧
      Alike reader (b.receive reader).1 (b'.receive reader).1 := by
  simp only [Bus.receive, h.own]
  split
  · rename_i place hplace
    have hplace' := h.own.trans hplace
    simp only [oldest, slotOf, h.slots, h.written, h.isOpen]
    by_cases hlt : max place (b'.written - b'.slots.length) < b'.written
    · simp only [hlt, if_true]
      rcases b'.slots[max place (b'.written - b'.slots.length) % b'.slots.length]? with
        _ | _ | e
      · exact ⟨rfl, h⟩
      · exact ⟨rfl, h⟩
      · refine ⟨rfl, rfl, rfl, rfl, ?_, ?_⟩
        · rw [List.map_set, List.map_set, h.present]
        · rw [List.getElem?_set_self (List.getElem?_eq_some_iff.mp hplace').1,
            List.getElem?_set_self (List.getElem?_eq_some_iff.mp hplace).1]
    · simp only [hlt, if_false]
      exact ⟨trivial, h⟩
  · exact ⟨rfl, h⟩

/-- Whether an action can make a difference to a reader. -/
def concerns (reader : Nat) : Action → Bool
  | .receive other => other = reader
  | _ => true

theorem Alike.act (h : Alike reader b b') {a : Action} (ha : concerns reader a = true) :
    b.gets reader a = b'.gets reader a ∧ Alike reader (b.act a).1 (b'.act a).1 := by
  cases a with
  | publish e =>
    refine ⟨rfl, ?_⟩
    simp only [Bus.act, publish, h.readerCount, h.isOpen, slotOf, h.slots, h.written]
    split
    · exact ⟨rfl, rfl, rfl, h.present, h.own⟩
    · exact h
  | subscribe =>
    refine ⟨rfl, h.slots, h.written, h.isOpen, ?_, ?_⟩
    · simp only [Bus.act, subscribe, List.map_append, h.present, List.map_singleton,
        Option.isSome_some]
    · simp only [Bus.act, subscribe, List.getElem?_append, h.length, h.own, h.written]
  | unsubscribe other =>
    refine ⟨rfl, h.slots, h.written, h.isOpen, ?_, ?_⟩
    · simp only [Bus.act, unsubscribe, List.map_set, h.present]
    · simp only [Bus.act, unsubscribe, List.getElem?_set, h.length, h.own]
  | receive other =>
    cases of_decide_eq_true ha
    obtain ⟨hsame, halike⟩ := h.receive
    exact ⟨by simp only [gets, hsame], halike⟩
  | close => exact ⟨rfl, h.slots, h.written, rfl, h.present, h.own⟩

/-- A reader gets the same when others take nothing. -/
theorem Alike.heardBy (h : Alike reader b b') (actions : List Action) :
    Bus.heardBy reader b actions = Bus.heardBy reader b' (actions.filter (concerns reader)) ∧
      Alike reader (b.afterAll actions) (b'.afterAll (actions.filter (concerns reader))) := by
  induction actions generalizing b b' with
  | nil => exact ⟨rfl, h⟩
  | cons a actions ih =>
    cases ha : concerns reader a with
    | true =>
      obtain ⟨hgets, halike⟩ := h.act ha
      obtain ⟨hrest, hend⟩ := ih halike
      rw [List.filter_cons_of_pos ha, Bus.heardBy, Bus.heardBy, hgets, hrest]
      exact ⟨rfl, hend⟩
    | false =>
      cases a with
      | receive other =>
        have hother : other ≠ reader := of_decide_eq_false ha
        obtain ⟨hrest, hend⟩ := ih (h.skip hother)
        rw [List.filter_cons_of_neg (by simp [ha]), Bus.heardBy, gets, if_neg hother]
        exact ⟨hrest, hend⟩
      | publish | subscribe | unsubscribe | close => cases ha

/-! ## All together -/

/-- An event that a subscriber has not been given is still waiting for it, or many came later. -/
theorem waiting_or_later {p : Nat} (hsince : s.since ≤ p)
    (hlt : p < c.events.length) (hgiven : p ∉ s.given) :
    p ∈ c.waiting slots s ∨ slots ≤ c.events.length - (p + 1) := by
  by_cases hkept : c.events.length ≤ p + slots
  · refine .inl (List.mem_filter.mpr ⟨List.mem_range.mpr hlt, ?_⟩)
    simp [hsince, hgiven, hkept]
  · exact .inr (by omega)

/-- Whatever is done with a bus in whatever order, it has as many slots as the least power of two
that is no less than its capacity; every reader gets the oldest event that was published since it
came, that it has not got yet and that is among the last of that number; and publishing answers how
many subscribers there are. What a subscriber gets is a part of what was published since it came, in
order and without repetition. It misses an event only when at least as many as the capacity came
later, and what others take makes no difference to it. As long as it stays it can take all that is
kept for it, also when nobody publishes any more, and only then it hears that this is the end. -/
theorem deliveries_exact (capacity : Nat) (actions : List Action) :
    let slots := size capacity
    let b := (ofCapacity capacity).afterAll actions
    let c := Chronicle.after slots actions
    ((∃ k, slots = 2 ^ k) ∧ max capacity 1 ≤ slots ∧ slots < 2 * max capacity 1) ∧
      (∀ reader, (b.receive reader).2 = c.answer slots reader) ∧
      (∀ e, (b.publish e).2 = if c.isOpen then c.presentCount else 0) ∧
      (∀ reader,
        heardBy reader (ofCapacity capacity) actions =
            heardBy reader (ofCapacity capacity) (actions.filter (concerns reader)) ∧
          (b.receive reader).2 =
            (((ofCapacity capacity).afterAll (actions.filter (concerns reader))).receive
              reader).2) ∧
      ∀ reader s, c.subscribers[reader]? = some s →
        heardBy reader (ofCapacity capacity) actions = c.givenTo s ∧
          (c.givenTo s).Sublist (c.events.drop s.since) ∧ s.given.Pairwise (· < ·) ∧
          (∀ p, s.since ≤ p → p < c.events.length → p ∉ s.given →
            p ∈ c.waiting slots s ∨ capacity ≤ c.events.length - (p + 1)) ∧
          (s.left = false → ∀ n,
            heardBy reader b (List.replicate n (.receive reader)) =
                ((c.waiting slots s).take n).filterMap (c.events[·]?) ∧
              ((c.waiting slots s).length ≤ n →
                ((b.afterAll (List.replicate n (.receive reader))).receive reader).2 =
                  if c.isOpen then .pending else .closed)) := by
  intro slots b c
  obtain ⟨silent, htells⟩ := tells_after capacity actions
  have hsound : c.Sound slots := Chronicle.sound_after slots actions
  have hcapacity : max capacity 1 ≤ slots := le_size capacity
  refine ⟨⟨size_eq_pow capacity, hcapacity, size_lt capacity⟩,
    fun reader => (htells.receive hsound reader).1, fun e => ?_, fun reader => ?_,
    fun reader s hs => ⟨?_, ?_, ?_, ?_, ?_⟩⟩
  · have hopen : b.isOpen = c.isOpen := htells.isOpen
    have hcount : b.readerCount = c.presentCount := htells.readerCount
    simp only [publish, hopen, hcount]
    cases c.isOpen with
    | false => rfl
    | true => by_cases hzero : c.presentCount = 0 <;> simp [hzero]
  · have hstart : Alike reader (ofCapacity capacity) (ofCapacity capacity) :=
      ⟨rfl, rfl, rfl, rfl, rfl⟩
    obtain ⟨hheard, hend⟩ := hstart.heardBy actions
    exact ⟨hheard, hend.receive.1⟩
  · rw [heardBy_eq, Chronicle.heard, hs, Option.map_some, Option.getD_some]
  · have hgiven := hsound s (List.mem_of_getElem? hs)
    exact Chronicle.sublist_of_rising c.events hgiven.ordered fun p hp => (hgiven.bounds p hp).1
  · exact (hsound s (List.mem_of_getElem? hs)).ordered
  · intro p hsince hlt hgiven
    rcases waiting_or_later hsince hlt hgiven with h | h
    · exact .inl h
    · exact .inr (by omega)
  · intro hleft n
    exact htells.drain hsound (Chronicle.present?_eq_some.mpr ⟨hs, hleft⟩) n

/-- Of three events on a bus for two, the subscriber that lags behind gets the last two, also when
the bus has been closed. -/
theorem deliveries_exact_lagging :
    let actions : List Action :=
      [.subscribe, .subscribe, .publish .appPreStart, .receive 1, .publish .appReady,
        .publish .appExit, .close]
    let b := (ofCapacity 2).afterAll actions
    heardBy 0 b (List.replicate 2 (.receive 0)) = [.appReady, .appExit] ∧
      ((b.afterAll (List.replicate 2 (.receive 0))).receive 0).2 = .closed := by
  intro actions b
  obtain ⟨-, -, -, -, hreaders⟩ := deliveries_exact 2 actions
  obtain ⟨-, -, -, -, htaken⟩ := hreaders 0 { since := 0 } rfl
  obtain ⟨hheard, hend⟩ := htaken rfl 2
  exact ⟨hheard, hend (by decide)⟩

end Letterbox.Bus
