import Letterbox.Event.Bus

/-!
# What a bus still knows of its history

The slots of a bus hold the last events of all that were ever published on it. A reader gets them in
their order, each at most once, and all of them as long as it does not fall behind by more than the
slots there are.
-/

set_option autoImplicit false

namespace Letterbox.Bus

/-- The bus is open, and its slots hold the last of these events. -/
structure Holds (b : Bus) (history : List Event) : Prop where
  isOpen : b.isOpen = true
  slots : 0 < b.slots.length
  written : b.written = history.length
  holds : ∀ place e, history[place]? = some e → history.length ≤ place + b.slots.length →
    b.slots[b.slotOf place]? = some (some e)
  readers : ∀ reader place : Nat, b.readers[reader]? = some (some place) → place ≤ history.length

variable {b : Bus} {history : List Event}

theorem size_pos (capacity : Nat) : 0 < size capacity := by
  unfold size
  split
  · exact Nat.one_pos
  · exact Nat.two_pow_pos _

theorem holds_ofCapacity (capacity : Nat) : (ofCapacity capacity).Holds [] := by
  refine ⟨rfl, ?_, rfl, fun place e he => ?_, fun reader place hplace => ?_⟩
  · simpa [ofCapacity] using size_pos capacity
  · cases he
  · cases hplace

/-! ## Publishing -/

def put (b : Bus) (e : Event) : Bus :=
  { b with slots := b.slots.set (b.slotOf b.written) (some e), written := b.written + 1 }

theorem publish_eq_put (hopen : b.isOpen = true) {reader place : Nat}
    (hreader : b.readers[reader]? = some (some place)) (e : Event) : (b.publish e).1 = b.put e := by
  have hcount : b.readerCount ≠ 0 := by
    have hmem : some place ∈ b.readers.filter (·.isSome) :=
      List.mem_filter.mpr ⟨List.mem_of_getElem? hreader, rfl⟩
    exact Nat.ne_of_gt (List.length_pos_of_mem hmem)
  have hseen : (b.isOpen && b.readerCount != 0) = true := by simp [hopen, hcount]
  simp only [publish, hseen, if_true, put]

theorem Holds.put (h : b.Holds history) (e : Event) : (b.put e).Holds (history ++ [e]) := by
  refine ⟨h.isOpen, ?_, ?_, fun place f hf hlast => ?_, fun reader place hplace => ?_⟩
  · simpa only [Bus.put, List.length_set] using h.slots
  · simp only [Bus.put, h.written, List.length_append, List.length_singleton]
  · simp only [Bus.put, slotOf, List.length_set, List.length_append,
    List.length_singleton] at hlast ⊢
    rw [h.written]
    have hslots := h.slots
    by_cases hnew : place = history.length
    · subst hnew
      rw [List.getElem?_concat_length, Option.some.injEq] at hf
      rw [List.getElem?_set_self (Nat.mod_lt _ hslots), hf]
    · have hbound : place < history.length + 1 := by
        have hlt := (List.getElem?_eq_some_iff.mp hf).1
        simpa using hlt
      -- Two places of which both are kept do not share a slot.
      have hapart : history.length % b.slots.length ≠ place % b.slots.length := by
        intro hsame
        have hdvd : b.slots.length ∣ history.length - place :=
          Nat.dvd_of_mod_eq_zero (Nat.sub_mod_eq_zero_of_mod_eq hsame)
        have hle := Nat.le_of_dvd (by omega) hdvd
        omega
      rw [List.getElem?_set_ne hapart]
      rw [List.getElem?_append_left (by omega)] at hf
      exact h.holds place f hf (by omega)
  · have hle := h.readers reader place hplace
    rw [List.length_append]
    omega

/-- With somebody to read them, all events that are published are kept for a while. -/
theorem Holds.publish_all (h : b.Holds history) {reader place : Nat}
    (hreader : b.readers[reader]? = some (some place)) (events : List Event) :
    let after := events.foldl (fun b e => (b.publish e).1) b
    after.Holds (history ++ events) ∧ after.readers = b.readers ∧
      after.slots.length = b.slots.length := by
  induction events generalizing b history with
  | nil =>
    rw [List.append_nil]
    exact ⟨h, rfl, rfl⟩
  | cons e events ih =>
    have hput := publish_eq_put h.isOpen hreader e
    obtain ⟨hholds, hreaders, hslots⟩ := ih (b := b.put e) (h.put e) hreader
    rw [List.foldl_cons, hput, List.append_cons]
    refine ⟨hholds, hreaders, hslots.trans ?_⟩
    simp only [Bus.put, List.length_set]

/-! ## Reading -/

theorem Holds.subscribe (h : b.Holds history) : b.subscribe.1.Holds history := by
  refine ⟨h.isOpen, h.slots, h.written, h.holds, fun reader place hplace => ?_⟩
  simp only [Bus.subscribe, List.getElem?_append] at hplace
  split at hplace
  · exact h.readers reader place hplace
  · rw [List.getElem?_singleton] at hplace
    split at hplace
    · cases hplace
      exact Nat.le_of_eq h.written
    · cases hplace

theorem Holds.moved (h : b.Holds history) {place : Nat} (hplace : place ≤ history.length)
    (reader : Nat) : { b with readers := b.readers.set reader (some place) }.Holds history := by
  refine ⟨h.isOpen, h.slots, h.written, h.holds, fun other p hp => ?_⟩
  rcases List.mem_or_eq_of_mem_set (List.mem_of_getElem? hp) with hmem | heq
  · obtain ⟨i, hi⟩ := List.mem_iff_getElem?.mp hmem
    exact h.readers i p hi
  · cases heq
    exact hplace

/-- All that a reader can get: nothing if it has got everything, and else the next event, or the
oldest that is still kept. -/
theorem Holds.receive (h : b.Holds history) {reader place : Nat}
    (hreader : b.readers[reader]? = some (some place)) :
    b.receive reader = (b, .pending) ∨
      ∃ e, history[b.oldest place]? = some e ∧
        b.receive reader =
          ({ b with readers := b.readers.set reader (some (b.oldest place + 1)) }, .event e) := by
  have hplace := h.readers reader place hreader
  have holdest : b.oldest place ≤ history.length := by
    simp only [oldest, h.written]
    omega
  rcases Nat.lt_or_eq_of_le holdest with hlt | heq
  · obtain ⟨e, he⟩ : ∃ e, history[b.oldest place]? = some e :=
      ⟨_, List.getElem?_eq_getElem hlt⟩
    have hkept : history.length ≤ b.oldest place + b.slots.length := by
      simp only [oldest, h.written]
      omega
    refine .inr ⟨e, he, ?_⟩
    simp only [Bus.receive, hreader, h.written, hlt, if_true, h.holds _ e he hkept]
  · refine .inl ?_
    simp only [Bus.receive, hreader, h.written, heq, Nat.lt_irrefl, if_false, h.isOpen, if_true]

/-- A reader has not missed anything: it is no more behind than there are slots. -/
def Follows (b : Bus) (reader : Nat) : Prop :=
  ∀ place, b.readers[reader]? = some (some place) → b.written ≤ place + b.slots.length

/-- Nobody is behind on a bus that has had no more events than it has slots. -/
theorem Follows.of_written (h : b.written ≤ b.slots.length) (reader : Nat) : b.Follows reader :=
  fun _ _ => Nat.le_trans h (Nat.le_add_left _ _)

/-- A reader has got these events of those that lie behind it, and all of them if it always
followed. -/
def Got (b : Bus) (history : List Event) (always : Prop) (reader : Nat) (events : List Event) :
    Prop :=
  ∃ place, b.readers[reader]? = some (some place) ∧ events.Sublist (history.take place) ∧
    (always → events = history.take place)

variable {always : Prop} {reader : Nat} {events : List Event}

theorem got_subscribe (b : Bus) : b.subscribe.1.Got [] always b.subscribe.2 [] :=
  ⟨b.written, List.getElem?_concat_length, List.nil_sublist _, fun _ => List.take_nil.symm⟩

theorem Got.of_readers (h : b.Got history always reader events) {b' : Bus}
    (hsame : b'.readers[reader]? = b.readers[reader]?) : b'.Got history always reader events := by
  obtain ⟨place, hplace, hgot⟩ := h
  exact ⟨place, hsame.trans hplace, hgot⟩

theorem Got.append (h : b.Got history always reader events) (hb : b.Holds history)
    (more : List Event) : b.Got (history ++ more) always reader events := by
  obtain ⟨place, hplace, hgot⟩ := h
  rw [← List.take_append_of_le_length (hb.readers reader place hplace)] at hgot
  exact ⟨place, hplace, hgot⟩

theorem Got.receive (h : b.Got history always reader events) (hb : b.Holds history)
    (hfollows : always → b.Follows reader) :
    b.receive reader = (b, .pending) ∨
      ∃ e b', b.receive reader = (b', .event e) ∧ b'.Holds history ∧
        b'.Got history always reader (events ++ [e]) ∧
        ∀ other, other ≠ reader → b'.readers[other]? = b.readers[other]? := by
  obtain ⟨place, hplace, hsublist, hall⟩ := h
  rcases hb.receive hplace with hpending | ⟨e, he, hreceive⟩
  · exact .inl hpending
  · have hlt : b.oldest place < history.length := (List.getElem?_eq_some_iff.mp he).1
    have htake : history.take (b.oldest place + 1) = history.take (b.oldest place) ++ [e] := by
      rw [List.take_add_one, he]
      rfl
    have hbefore : history.take place <+: history.take (b.oldest place) :=
      List.take_prefix_take_left (Nat.le_max_left _ _)
    refine .inr ⟨e, _, hreceive, hb.moved hlt reader, ⟨b.oldest place + 1, ?_, ?_, ?_⟩, ?_⟩
    · exact List.getElem?_set_self (List.getElem?_eq_some_iff.mp hplace).1
    · rw [htake]
      exact (hsublist.trans hbefore.sublist).append (List.Sublist.refl [e])
    · intro halways
      have hnext : b.oldest place = place := by
        have hnear := hfollows halways place hplace
        simp only [oldest]
        omega
      rw [htake, hnext, hall halways]
    · intro other hother
      exact List.getElem?_set_ne (Ne.symm hother)

end Letterbox.Bus
