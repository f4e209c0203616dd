import Mathlib.Data.List.Induction
import Letterbox.Event.Bus

/-!
# Chronicle of a bus

All that was ever published, and for each subscriber the places of the events that it was given. A
subscriber is given the oldest event that was published after it came, that it has not been given
yet, and that is among the last of all. There are no slots here, and no reader has a place of its
own; that the chronicle can do without them follows from what is shown of it.
-/

set_option autoImplicit false

namespace Letterbox

structure Subscriber where
  /-- How many events had been published when it came. -/
  since : Nat
  /-- The places of the events that it was given, one after the other. -/
  given : List Nat := []
  left : Bool := false

structure Chronicle where
  events : List Event := []
  subscribers : List Subscriber := []
  isOpen : Bool := true

namespace Chronicle

/-- The places of the events that a subscriber can still be given, if `slots` events are kept. -/
def waiting (slots : Nat) (c : Chronicle) (s : Subscriber) : List Nat :=
  (List.range c.events.length).filter fun place =>
    s.since ≤ place ∧ place ∉ s.given ∧ c.events.length ≤ place + slots

/-- A subscriber that has not left. -/
def present? (c : Chronicle) (reader : Nat) : Option Subscriber :=
  c.subscribers[reader]?.filter (!·.left)

def presentCount (c : Chronicle) : Nat := (c.subscribers.filter (!·.left)).length

def next? (slots : Nat) (c : Chronicle) (reader : Nat) : Option Nat :=
  (c.present? reader).bind fun s => (c.waiting slots s).head?

def answer (slots : Nat) (c : Chronicle) (reader : Nat) : Bus.Delivery :=
  match (c.next? slots reader).bind (c.events[·]?) with
  | some e => .event e
  | none => if (c.present? reader).isSome && c.isOpen then .pending else .closed

def give (s : Subscriber) (place : Nat) : Subscriber := { s with given := s.given ++ [place] }

def act (slots : Nat) (c : Chronicle) : Bus.Action → Chronicle
  | .publish e => if c.isOpen then { c with events := c.events ++ [e] } else c
  | .subscribe => { c with subscribers := c.subscribers ++ [{ since := c.events.length }] }
  | .unsubscribe reader =>
    { c with subscribers := c.subscribers.modify reader fun s => { s with left := true } }
  | .receive reader => match c.next? slots reader with
    | some place => { c with subscribers := c.subscribers.modify reader (give · place) }
    | none => c
  | .close => { c with isOpen := false }

def after (slots : Nat) (actions : List Bus.Action) : Chronicle := actions.foldl (act slots) {}

def givenTo (c : Chronicle) (s : Subscriber) : List Event := s.given.filterMap (c.events[·]?)

end Chronicle

namespace Subscriber

/-- Where a subscriber goes on: behind the last event that it was given. -/
def place (s : Subscriber) : Nat := (s.given.getLast?.map (· + 1)).getD s.since

/-- A subscriber is given events in their order, none from before it came, and has been passed over
only by events that were no longer kept. -/
structure Sound (slots length : Nat) (s : Subscriber) : Prop where
  ordered : s.given.Pairwise (· < ·)
  bounds : ∀ p ∈ s.given, s.since ≤ p ∧ p < s.place
  since_le : s.since ≤ s.place
  place_le : s.place ≤ length
  missed : ∀ p, s.since ≤ p → p < s.place → p ∉ s.given → p + slots < length

variable {slots length : Nat} {s : Subscriber}

theorem sound_new (slots length : Nat) : ({ since := length } : Subscriber).Sound slots length := by
  refine ⟨.nil, nofun, Nat.le_refl _, Nat.le_refl _, fun p hsince hplace => ?_⟩
  exact absurd hplace (Nat.not_lt.mpr hsince)

theorem Sound.mono (h : s.Sound slots length) {more : Nat} (hmore : length ≤ more) :
    s.Sound slots more :=
  ⟨h.ordered, h.bounds, h.since_le, Nat.le_trans h.place_le hmore,
    fun p hsince hplace hgiven => Nat.lt_of_lt_of_le (h.missed p hsince hplace hgiven) hmore⟩

theorem Sound.leave (h : s.Sound slots length) : { s with left := true }.Sound slots length :=
  ⟨h.ordered, h.bounds, h.since_le, h.place_le, h.missed⟩

def start (slots length : Nat) (s : Subscriber) : Nat := max s.place (length - slots)

@[simp] theorem place_give (s : Subscriber) (p : Nat) : (Chronicle.give s p).place = p + 1 := by
  simp [place, Chronicle.give]

theorem Sound.give (h : s.Sound slots length) (hlt : s.start slots length < length) :
    (Chronicle.give s (s.start slots length)).Sound slots length := by
  have hplace : s.place ≤ s.start slots length := Nat.le_max_left _ _
  refine ⟨?_, ?_, ?_, ?_, ?_⟩
  · refine List.pairwise_append.mpr ⟨h.ordered, List.pairwise_singleton _ _, fun p hp q hq => ?_⟩
    rw [List.mem_singleton.mp hq]
    exact Nat.lt_of_lt_of_le (h.bounds p hp).2 hplace
  · intro p hp
    rw [place_give]
    rcases List.mem_append.mp hp with hp | hp
    · have hold := h.bounds p hp
      exact ⟨hold.1, by omega⟩
    · rw [List.mem_singleton.mp hp]
      exact ⟨Nat.le_trans h.since_le hplace, Nat.lt_succ_self _⟩
  · rw [place_give]
    exact Nat.le_succ_of_le (Nat.le_trans h.since_le hplace)
  · rw [place_give]
    exact hlt
  · intro p hsince hp hgiven
    rw [place_give] at hp
    have hnot : p ∉ s.given ∧ p ≠ s.start slots length := by
      simpa [Chronicle.give] using hgiven
    by_cases hbefore : p < s.place
    · exact h.missed p hsince hbefore hnot.1
    · have hstart : s.start slots length = max s.place (length - slots) := rfl
      omega

end Subscriber

namespace Chronicle

variable {slots : Nat} {c : Chronicle} {s : Subscriber} {reader : Nat}

/-- What can still be given to a subscriber is all from one place on. -/
theorem waiting_eq (h : s.Sound slots c.events.length) :
    c.waiting slots s =
      List.range' (s.start slots c.events.length)
        (c.events.length - s.start slots c.events.length) := by
  have hstart : s.start slots c.events.length = max s.place (c.events.length - slots) := rfl
  have hle : s.start slots c.events.length ≤ c.events.length := by
    have := h.place_le
    omega
  have hsplit : List.range c.events.length =
      List.range' 0 (s.start slots c.events.length) ++
        List.range' (s.start slots c.events.length)
          (c.events.length - s.start slots c.events.length) := by
    have happend : List.range' 0 (s.start slots c.events.length) ++
        List.range' (0 + s.start slots c.events.length)
          (c.events.length - s.start slots c.events.length) = _ := List.range'_append_1
    rw [Nat.zero_add, Nat.add_sub_cancel' hle] at happend
    rw [List.range_eq_range', happend]
  rw [waiting, hsplit, List.filter_append]
  have hbefore : ∀ p ∈ List.range' 0 (s.start slots c.events.length),
      ¬ (s.since ≤ p ∧ p ∉ s.given ∧ c.events.length ≤ p + slots) := by
    rintro p hp ⟨hsince, hgiven, hkept⟩
    rw [List.mem_range'_1] at hp
    by_cases hplace : p < s.place
    · have := h.missed p hsince hplace hgiven
      omega
    · omega
  have hbehind : ∀ p ∈ List.range' (s.start slots c.events.length)
      (c.events.length - s.start slots c.events.length),
      s.since ≤ p ∧ p ∉ s.given ∧ c.events.length ≤ p + slots := by
    intro p hp
    rw [List.mem_range'_1] at hp
    have hsince := h.since_le
    refine ⟨by omega, fun hgiven => ?_, by omega⟩
    have := (h.bounds p hgiven).2
    omega
  rw [List.filter_eq_nil_iff.mpr fun p hp => by simpa using hbefore p hp,
    List.filter_eq_self.mpr fun p hp => by simpa using hbehind p hp, List.nil_append]

theorem head?_waiting (h : s.Sound slots c.events.length) :
    (c.waiting slots s).head? =
      if s.start slots c.events.length < c.events.length then some (s.start slots c.events.length)
      else none := by
  rw [waiting_eq h]
  split
  · rename_i hlt
    rw [List.head?_range', if_neg (by omega)]
  · rename_i hge
    rw [List.head?_range', if_pos (by omega)]

def Sound (slots : Nat) (c : Chronicle) : Prop :=
  ∀ s ∈ c.subscribers, s.Sound slots c.events.length

theorem mem_modify {α : Type} {f : α → α} {l : List α} {i : Nat} {a : α} (h : a ∈ l.modify i f) :
    a ∈ l ∨ ∃ b, l[i]? = some b ∧ a = f b := by
  obtain ⟨j, hj⟩ := List.mem_iff_getElem?.mp h
  rw [List.getElem?_modify] at hj
  obtain ⟨b, hb, rfl⟩ := Option.map_eq_some_iff.mp hj
  split
  · rename_i hi
    exact .inr ⟨b, hi ▸ hb, rfl⟩
  · exact .inl (List.mem_of_getElem? hb)

theorem present?_eq_some : c.present? reader = some s ↔
    c.subscribers[reader]? = some s ∧ s.left = false := by
  simp [present?, Option.filter_eq_some_iff]

theorem Sound.next? (h : c.Sound slots) (hs : c.present? reader = some s) :
    c.next? slots reader =
      if s.start slots c.events.length < c.events.length then some (s.start slots c.events.length)
      else none := by
  have hmem := List.mem_of_getElem? (present?_eq_some.mp hs).1
  rw [Chronicle.next?, hs, Option.bind_some, head?_waiting (h s hmem)]

theorem Sound.act (h : c.Sound slots) (a : Bus.Action) : (c.act slots a).Sound slots := by
  cases a with
  | publish e =>
    simp only [Chronicle.act]
    split
    · intro s hs
      exact (h s hs).mono (by simp)
    · exact h
  | subscribe =>
    intro s hs
    rcases List.mem_append.mp hs with hs | hs
    · exact h s hs
    · rw [List.mem_singleton.mp hs]
      exact Subscriber.sound_new slots _
  | unsubscribe reader =>
    intro s hs
    rcases mem_modify hs with hs | ⟨t, ht, rfl⟩
    · exact h s hs
    · exact (h t (List.mem_of_getElem? ht)).leave
  | receive reader =>
    simp only [Chronicle.act]
    split
    · rename_i place hplace
      intro s hs
      rcases mem_modify hs with hs | ⟨t, ht, rfl⟩
      · exact h s hs
      · obtain ⟨u, hu, -⟩ := Option.bind_eq_some_iff.mp hplace
        have hut : u = t := Option.some.inj ((present?_eq_some.mp hu).1.symm.trans ht)
        subst hut
        rw [h.next? hu] at hplace
        split at hplace
        · rename_i hlt
          cases hplace
          exact (h u (List.mem_of_getElem? ht)).give hlt
        · cases hplace
    · exact h
  | close => exact h

theorem after_concat (slots : Nat) (actions : List Bus.Action) (a : Bus.Action) :
    after slots (actions ++ [a]) = (after slots actions).act slots a := by
  rw [after, List.foldl_append]
  rfl

theorem sound_after (slots : Nat) (actions : List Bus.Action) :
    (after slots actions).Sound slots := by
  induction actions using List.reverseRecOn with
  | nil => exact nofun
  | append_singleton actions a ih =>
    rw [after_concat]
    exact ih.act a

/-! ## What follows for a subscriber -/

/-- Events at rising places are a part of all of them, in the same order. -/
theorem sublist_of_rising {places : List Nat} {first : Nat} (events : List Event)
    (hrising : places.Pairwise (· < ·)) (hfirst : ∀ p ∈ places, first ≤ p) :
    (places.filterMap (events[·]?)).Sublist (events.drop first) := by
  induction places generalizing first with
  | nil => exact List.nil_sublist _
  | cons p places ih =>
    obtain ⟨hlt, hrising⟩ := List.pairwise_cons.mp hrising
    have hrest := ih hrising hlt
    have hsuffix : (events.drop p).Sublist (events.drop first) := by
      have hp := hfirst p List.mem_cons_self
      rw [← Nat.add_sub_cancel' hp, ← List.drop_drop]
      exact List.drop_sublist _ _
    refine List.Sublist.trans ?_ hsuffix
    rw [List.filterMap_cons]
    split
    · exact hrest.trans (List.drop_sublist_drop_left events (Nat.le_succ p))
    · rename_i e he
      rw [List.drop_eq_getElem?_toList_append, he]
      exact hrest.cons_cons e

end Chronicle

end Letterbox
