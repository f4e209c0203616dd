import Letterbox.Proofs.Store.Changes
import Mathlib.Data.String.Basic

/-!
# What is listed

Listing a mailbox that nobody else uses meanwhile shows everything in it that is named as a message,
once, the oldest first. A path that leads to nothing shows nothing.
-/

namespace Letterbox

set_option autoImplicit false

namespace Mailbox

variable {m : Mailbox} {d d' : Disk} {n path : String} {e : StoredMessage} {data : Bytes}

theorem Turn.attempt_eq_ok {α : Type} {turn : Turn} {answer : Except SystemFault α} {a : α} :
    turn.attempt answer = .ok a ↔ turn.mishap = none ∧ answer = .ok a := by
  rw [Turn.attempt]
  split
  · rename_i hmishap
    simp [hmishap]
  · rename_i hmishap
    simp [hmishap]

theorem toOption_eq_some {ε α : Type} {x : Except ε α} {a : α} :
    x.toOption = some a ↔ x = .ok a := by
  cases x <;> simp [Except.toOption]

def home (m : Mailbox) (d : Disk) : Place := d.place m.base

theorem home_of_grows (h : Disk.Grows d d') : m.home d' = m.home d := h.place m.base

def describe (m : Mailbox) (n : String) : Item → StoredMessage
  | .file data createdAt =>
    { path := Path.join m.base n, name := n, size := data.length.toUInt64, createdAt }
  | .directory size createdAt => { path := Path.join m.base n, name := n, size, createdAt }

@[simp] theorem describe_path (m : Mailbox) (n : String) (i : Item) :
    (m.describe n i).path = Path.join m.base n := by
  cases i <;> rfl

@[simp] theorem describe_name (m : Mailbox) (n : String) (i : Item) :
    (m.describe n i).name = n := by
  cases i <;> rfl

theorem entry_eq_ok (hn : ProperName n) : entry d (Path.join m.base n) = .ok e ↔
    Disk.refusal? (Path.join m.base n) = none ∧ d.Reaches m.base ∧
      ∃ i, d.item? (m.home d ++ [n]) = some i ∧ e = m.describe n i := by
  rw [entry, bind_eq_ok, Path.fileName?_join hn]
  have hplace := Disk.place_join d m.base hn
  constructor
  · rintro ⟨i, hi, h⟩
    obtain ⟨hr, hi⟩ := Disk.find_eq_ok.mp hi
    obtain ⟨hok, hreach, -⟩ := (Disk.resolve_join hn).mp hr
    refine ⟨hok, hreach, i, hplace ▸ hi, ?_⟩
    cases i <;>
      · cases h
        rfl
  · rintro ⟨hok, hreach, i, hi, rfl⟩
    refine ⟨i, Disk.find_eq_ok.mpr ⟨(Disk.resolve_join hn).mpr ⟨hok, hreach, hplace⟩, ?_⟩, ?_⟩
    · rw [hplace]
      exact hi
    · cases i <;> rfl

/-! ## Listing alone -/

def messageNames (names : List String) : List String :=
  names.filter fun n => Path.extension? n = some extension

/-- What is told of those that are still there when they are looked at. -/
def looks (m : Mailbox) (d : Disk) (names : List String) : List StoredMessage :=
  names.filterMap fun n => (entry d (Path.join m.base n)).toOption

theorem listAlone_done (m : Mailbox) (d : Disk) (fuel : Nat)
    (answer : Except Failure (List StoredMessage)) :
    m.listAlone d fuel (.done answer) = .done answer := by
  induction fuel with
  | zero => rfl
  | succ fuel ih => exact ih

theorem listAlone_measuring (m : Mailbox) (d : Disk) {fuel : Nat} {todo : List String}
    (hfuel : todo.length < fuel) (found : List StoredMessage) :
    m.listAlone d fuel (.measuring todo found) =
      .done (.ok ((found ++ m.looks d todo).mergeSort comesBefore)) := by
  induction todo generalizing fuel found with
  | nil =>
    obtain ⟨fuel, rfl⟩ := Nat.exists_eq_succ_of_ne_zero (Nat.ne_zero_of_lt hfuel)
    rw [listAlone, listStep, listAlone_done, looks, List.filterMap_nil, List.append_nil]
  | cons n todo ih =>
    obtain ⟨fuel, rfl⟩ := Nat.exists_eq_succ_of_ne_zero (Nat.ne_zero_of_lt hfuel)
    have hless : todo.length < fuel := Nat.lt_of_succ_lt_succ hfuel
    rw [listAlone, listStep, Turn.attempt, looks, List.filterMap_cons]
    cases entry d (Path.join m.base n) with
    | ok e =>
      refine (ih hless _).trans ?_
      rw [List.append_assoc, List.singleton_append]
      rfl
    | error f => exact ih hless found

/-- Listing in one go. -/
theorem enumerate_eq (m : Mailbox) (d : Disk) : m.enumerate d =
    match d.list m.base with
    | .ok names => .ok ((m.looks d (messageNames names)).mergeSort comesBefore)
    | .error .notFound => .ok []
    | .error f => .error (.system f) := by
  rw [enumerate, listAlone, listStep, Turn.attempt]
  cases hlist : d.list m.base with
  | error f => cases f <;> rw [listAlone_done]
  | ok names =>
    have hfuel : (messageNames names).length < d.items.length + 1 := by
      have hlength := d.length_namesIn (d.place m.base)
      rw [← (Disk.list_eq_ok.mp hlist).2] at hlength
      have hfilter := List.length_filter_le (fun n => Path.extension? n = some extension) names
      rw [messageNames]
      omega
    have hdone := m.listAlone_measuring d hfuel []
    dsimp only
    rw [messageNames] at hdone ⊢
    rw [hdone]
    rfl

theorem comesBefore_trans (a b c : StoredMessage) (hab : comesBefore a b = true)
    (hbc : comesBefore b c = true) : comesBefore a c = true := by
  simp only [comesBefore, Bool.or_eq_true, Bool.and_eq_true, decide_eq_true_eq] at *
  rcases hab with hab | ⟨hab, hname⟩
  · rcases hbc with hbc | ⟨hbc, -⟩
    · exact .inl (hab.trans hbc)
    · exact .inl (hbc ▸ hab)
  · rcases hbc with hbc | ⟨hbc, hname'⟩
    · exact .inl (hab ▸ hbc)
    · refine .inr ⟨hab.trans hbc, ?_⟩
      rcases hname with hname | hname
      · rcases hname' with hname' | hname'
        · exact .inl (String.lt_trans hname hname')
        · exact .inl (hname' ▸ hname)
      · rw [hname]
        exact hname'

theorem comesBefore_total (a b : StoredMessage) : (comesBefore a b || comesBefore b a) = true := by
  simp only [comesBefore, Bool.or_eq_true, Bool.and_eq_true, decide_eq_true_eq]
  rcases lt_trichotomy a.createdAt b.createdAt with h | h | h
  · exact .inl (.inl h)
  · rcases lt_trichotomy a.name b.name with hname | hname | hname
    · exact .inl (.inr ⟨h, .inl hname⟩)
    · exact .inl (.inr ⟨h, .inr hname⟩)
    · exact .inr (.inr ⟨h.symm, .inl hname⟩)
  · exact .inr (.inl h)

structure Listable (m : Mailbox) (d : Disk) (n : String) (i : Item) : Prop where
  there : d.item? (m.home d ++ [n]) = some i
  named : Path.extension? n = some extension
  accepted : Disk.refusal? (Path.join m.base n) = none

theorem mem_looks (h : d.Tidy) (hreach : d.Reaches m.base) :
    e ∈ m.looks d (messageNames (d.namesIn (m.home d))) ↔
      ∃ n i, m.Listable d n i ∧ e = m.describe n i := by
  rw [looks, List.mem_filterMap]
  constructor
  · rintro ⟨n, hn, he⟩
    obtain ⟨hn, hext⟩ := List.mem_filter.mp hn
    obtain ⟨i, hi⟩ := h.mem_namesIn.mp hn
    obtain ⟨hok, -, i', hi', rfl⟩ := (entry_eq_ok (h.parent hi).1).mp (toOption_eq_some.mp he)
    exact ⟨n, i', ⟨hi', of_decide_eq_true hext, hok⟩, rfl⟩
  · rintro ⟨n, i, hlist, rfl⟩
    refine ⟨n, List.mem_filter.mpr
      ⟨h.mem_namesIn.mpr ⟨i, hlist.there⟩, decide_eq_true hlist.named⟩, ?_⟩
    exact toOption_eq_some.mpr ((entry_eq_ok (h.parent hlist.there).1).mpr
      ⟨hlist.accepted, hreach, i, hlist.there, rfl⟩)

theorem nodup_looks (h : d.Tidy) :
    ((m.looks d (messageNames (d.namesIn (m.home d)))).map (·.name)).Nodup := by
  rw [looks, List.Nodup, List.pairwise_map]
  refine List.pairwise_filterMap.mpr (((h.nodup_namesIn _).filter _).imp_of_mem ?_)
  intro n n' hn hn' hne e he e' he'
  have hname : ∀ {x : String} {y : StoredMessage}, x ∈ messageNames (d.namesIn (m.home d)) →
      (entry d (Path.join m.base x)).toOption = some y → y.name = x := by
    intro x y hx hy
    obtain ⟨i, hi⟩ := h.mem_namesIn.mp (List.mem_filter.mp hx).1
    obtain ⟨-, -, i', -, rfl⟩ := (entry_eq_ok (h.parent hi).1).mp (toOption_eq_some.mp hy)
    exact describe_name m x i'
  rw [hname hn he, hname hn' he']
  exact hne

/-- A list has everything that is called like a message in it, once, the oldest first. -/
structure Lists (m : Mailbox) (d : Disk) (l : List StoredMessage) : Prop where
  sorted : l.Pairwise fun e e' => comesBefore e e' = true
  once : (l.map (·.name)).Nodup
  mem_iff : ∀ e, e ∈ l ↔ ∃ n i, m.Listable d n i ∧ e = m.describe n i

theorem enumerate_of_list (h : d.Tidy) {names : List String} (hlist : d.list m.base = .ok names) :
    ∃ l, m.enumerate d = .ok l ∧ m.Lists d l := by
  obtain ⟨⟨-, -, hreach⟩, hnames⟩ := Disk.list_eq_ok.mp hlist
  refine ⟨(m.looks d (messageNames names)).mergeSort comesBefore, ?_, ?_, ?_, fun e => ?_⟩
  · rw [enumerate_eq, hlist]
  · exact List.pairwise_mergeSort comesBefore_trans comesBefore_total _
  · rw [((List.mergeSort_perm _ _).map _).nodup_iff, hnames]
    exact nodup_looks h
  · rw [(List.mergeSort_perm _ _).mem_iff, hnames]
    exact mem_looks h hreach

end Mailbox

end Letterbox
