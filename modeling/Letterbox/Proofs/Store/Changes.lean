import Letterbox.Proofs.Store.Tree

/-!
# Changes of a disk

What is known of a disk once something was done to it: an answer that all went well tells which
place was meant and what had been there, and making directories adds nothing but directories on the
way.
-/

namespace Letterbox

set_option autoImplicit false

theorem bind_eq_ok {ε α β : Type} {x : Except ε α} {f : α → Except ε β} {b : β} :
    (x >>= f) = .ok b ↔ ∃ a, x = .ok a ∧ f a = .ok b := by
  cases x with
  | error e =>
    constructor
    · intro h
      cases h
    · rintro ⟨a, ha, -⟩
      cases ha
  | ok a =>
    constructor
    · intro h
      exact ⟨a, rfl, h⟩
    · rintro ⟨a', ha, h⟩
      cases ha
      exact h

namespace Disk

variable {d d' : Disk} {p q : Place} {n path base : String} {data : Bytes}

/-! ## Files -/

theorem read_eq_ok : d.read path = .ok data ↔
    d.resolve path = .ok (d.place path) ∧ ∃ t, d.item? (d.place path) = some (.file data t) := by
  rw [read, bind_eq_ok]
  constructor
  · rintro ⟨i, hi, h⟩
    obtain ⟨hr, hi⟩ := find_eq_ok.mp hi
    cases i with
    | directory => cases h
    | file data' t =>
      cases h
      exact ⟨hr, t, hi⟩
  · rintro ⟨hr, t, hi⟩
    exact ⟨.file data t, find_eq_ok.mpr ⟨hr, hi⟩, rfl⟩

theorem write_eq_ok {clock : Int} (h : d.write path data clock = .ok d') :
    d.resolve path = .ok (d.place path) ∧ ¬d.IsDirectory (d.place path) ∧
      ∃ t, d' = d.put (d.place path) (.file data t) := by
  rw [write, bind_eq_ok] at h
  obtain ⟨p, hr, h⟩ := h
  cases place_of_resolve hr
  refine ⟨hr, ?_⟩
  split at h
  · cases h
  · rename_i t hi
    cases h
    exact ⟨by simp [isDirectory_of_item? hi, Item.isDirectory], t, rfl⟩
  · rename_i hi
    cases h
    exact ⟨not_isDirectory_of_none hi, clock, rfl⟩

theorem remove_eq_ok : d.remove path = .ok d' ↔
    (∃ data, d.read path = .ok data) ∧ d' = d.erase (d.place path) := by
  rw [remove, bind_eq_ok]
  constructor
  · rintro ⟨p, hr, h⟩
    cases place_of_resolve hr
    split at h
    · cases h
    · cases h
    · rename_i data t hi
      cases h
      exact ⟨⟨data, read_eq_ok.mpr ⟨hr, t, hi⟩⟩, rfl⟩
  · rintro ⟨⟨data, hread⟩, rfl⟩
    obtain ⟨hr, t, hi⟩ := read_eq_ok.mp hread
    exact ⟨d.place path, hr, by simp only [hi]; rfl⟩

theorem rename_eq_ok {source target : String} : d.rename source target = .ok d' ↔
    d.resolve source = .ok (d.place source) ∧ d.resolve target = .ok (d.place target) ∧
      ¬d.IsDirectory (d.place target) ∧ ∃ i, d.item? (d.place source) = some i ∧
        d' = (d.erase (d.place source)).put (d.place target) i := by
  rw [rename, bind_eq_ok]
  constructor
  · rintro ⟨p, hp, h⟩
    obtain ⟨i, hi, h⟩ := bind_eq_ok.mp h
    obtain ⟨q, hq, h⟩ := bind_eq_ok.mp h
    cases place_of_resolve hp
    cases place_of_resolve hq
    split at h
    · cases h
    · rename_i hno
      cases h
      have hnot : ¬d.IsDirectory (d.place target) := by
        rw [isDirectory_iff]
        rintro ⟨size, createdAt, hdir⟩
        exact hno size createdAt hdir
      exact ⟨hp, hq, hnot, i, (find_eq_ok.mp hi).2, rfl⟩
  · rintro ⟨hp, hq, hno, i, hi, rfl⟩
    refine ⟨_, hp, bind_eq_ok.mpr ⟨i, find_eq_ok.mpr ⟨hp, hi⟩, bind_eq_ok.mpr ⟨_, hq, ?_⟩⟩⟩
    split
    · rename_i h
      exact absurd ⟨_, h, rfl⟩ hno
    · rfl

/-! ## Listing -/

def namesIn (d : Disk) (p : Place) : List String :=
  d.items.filterMap fun e => if e.1.dropLast = p then e.1.getLast? else none

/-- A slash at the end asks for the directory that is there anyway. -/
theorem resolve_directory : d.resolve path = .ok (d.place path) ∧
    d.IsDirectory (d.place path) ↔
      refusal? path = none ∧ path ≠ "" ∧ d.Reaches path := by
  rw [resolve_eq_ok, segments]
  split
  · rw [walk_concat_eq_ok]
    constructor
    · rintro ⟨⟨hok, hne, hw, hi, -⟩, -⟩
      exact ⟨hok, hne, hw, hi⟩
    · rintro ⟨hok, hne, hw, hi⟩
      exact ⟨⟨hok, hne, hw, hi, by decide, rfl⟩, hi⟩
  · rw [List.append_nil]
    constructor
    · rintro ⟨⟨hok, hne, hw⟩, hi⟩
      exact ⟨hok, hne, hw, hi⟩
    · rintro ⟨hok, hne, hw, hi⟩
      exact ⟨⟨hok, hne, hw⟩, hi⟩

theorem list_eq_ok {names : List String} : d.list path = .ok names ↔
    (refusal? path = none ∧ path ≠ "" ∧ d.Reaches path) ∧ names = d.namesIn (d.place path) := by
  rw [← resolve_directory, list, bind_eq_ok]
  constructor
  · rintro ⟨i, hi, h⟩
    obtain ⟨hr, hi⟩ := find_eq_ok.mp hi
    cases i with
    | file data t => cases h
    | directory size createdAt =>
      obtain ⟨p, hp, h⟩ := bind_eq_ok.mp h
      cases place_of_resolve hp
      cases h
      exact ⟨⟨hr, _, hi, rfl⟩, rfl⟩
  · rintro ⟨⟨hr, hdir⟩, rfl⟩
    obtain ⟨size, createdAt, hi⟩ := isDirectory_iff.mp hdir
    exact ⟨.directory size createdAt, find_eq_ok.mpr ⟨hr, hi⟩, bind_eq_ok.mpr ⟨_, hr, rfl⟩⟩

theorem Tidy.mem_namesIn (h : d.Tidy) : n ∈ d.namesIn p ↔ ∃ i, d.item? (p ++ [n]) = some i := by
  rw [namesIn, List.mem_filterMap]
  constructor
  · rintro ⟨⟨q, i⟩, he, hn⟩
    obtain ⟨r, n', hq, -, -⟩ := h.rooted _ he
    dsimp only at hq hn
    subst hq
    rw [List.dropLast_concat, List.getLast?_concat] at hn
    split at hn
    · rename_i hr
      cases hr
      cases hn
      exact ⟨i, h.item?_of_mem he⟩
    · cases hn
  · rintro ⟨i, hi⟩
    refine ⟨_, mem_items_of_item? (place_ne_nil p n) hi, ?_⟩
    dsimp only
    rw [List.dropLast_concat, if_pos rfl, List.getLast?_concat]

/-- No name is there twice. -/
theorem Tidy.nodup_namesIn (h : d.Tidy) (p : Place) : (d.namesIn p).Nodup := by
  have hitems : d.items.Pairwise fun e e' => e.1 ≠ e'.1 := List.pairwise_map.mp h.once
  -- two items of one name in one place would be at the same place
  refine List.pairwise_filterMap.mpr (hitems.imp_of_mem ?_)
  rintro ⟨q, i⟩ ⟨q', i'⟩ he he' hne n hn n' hn'
  obtain ⟨r, m, hq, -, -⟩ := h.rooted _ he
  obtain ⟨r', m', hq', -, -⟩ := h.rooted _ he'
  dsimp only at hq hq' hn hn' hne
  subst hq hq'
  rw [List.dropLast_concat, List.getLast?_concat] at hn hn'
  split at hn
  · split at hn'
    · rename_i hr hr'
      cases hn
      cases hn'
      rintro rfl
      exact hne (by rw [hr, hr'])
    · cases hn'
  · cases hn

theorem length_namesIn (d : Disk) (p : Place) : (d.namesIn p).length ≤ d.items.length :=
  List.length_filterMap_le _ _

/-! ## Making directories -/

/-- What making directories along segments may have done to a disk: at places on the way where
nothing was there are directories now. -/
structure Built (d d' : Disk) (p : Place) (l : List String) : Prop where
  tidy : d'.Tidy
  grows : Grows d d'
  new : ∀ q, d'.item? q = d.item? q ∨
    d.item? q = none ∧ d'.IsDirectory q ∧
      ∃ l₁ s l₂, l = l₁ ++ s :: l₂ ∧ q = l₁.foldl follow p ++ [s]

theorem Built.refl (h : d.Tidy) (p : Place) (l : List String) : Built d d p l :=
  ⟨h, Grows.refl d, fun _ => .inl rfl⟩

/-- A place that has nothing is a place of a new name. -/
theorem Tidy.follow_of_none (h : d.Tidy) (hp : d.IsDirectory p) {s : String}
    (hs : d.item? (follow p s) = none) : s ≠ "." ∧ s ≠ ".." ∧ follow p s = p ++ [s] := by
  unfold follow at hs ⊢
  split at hs
  · exact absurd hp (not_isDirectory_of_none hs)
  · rename_i hhere
    split at hs
    · obtain ⟨i, hi, -⟩ := hp
      exact absurd (h.dropLast hi) (not_isDirectory_of_none hs)
    · rename_i hup
      exact ⟨hhere, hup, by rw [if_neg hhere, if_neg hup]⟩

theorem Tidy.makeAlong (h : d.Tidy) (hp : d.IsDirectory p) {l : List String}
    (hl : ∀ s ∈ l, s ≠ "" ∧ '/' ∉ s.toList ∧ '\x00' ∉ s.toList) (clock : Int) (made : Bool) :
    Built d (d.makeAlong clock p made l).1 p l := by
  induction l generalizing d p made with
  | nil => exact Built.refl h p []
  | cons s l ih =>
    obtain ⟨hs, hl⟩ := List.forall_mem_cons.mp hl
    rw [Disk.makeAlong]
    split
    · rename_i hi
      obtain ⟨htidy, hgrows, hnew⟩ := ih h ⟨_, hi, rfl⟩ hl made
      refine ⟨htidy, hgrows, fun q => (hnew q).imp_right ?_⟩
      rintro ⟨hnone, hdir, l₁, s', l₂, rfl, rfl⟩
      exact ⟨hnone, hdir, s :: l₁, s', l₂, rfl, rfl⟩
    · exact Built.refl h p (s :: l)
    · rename_i hi
      split
      · exact Built.refl h p (s :: l)
      · rename_i hsize
        obtain ⟨hhere, hup, hfollow⟩ := h.follow_of_none hp hi
        rw [hfollow] at hi ⊢
        have hproper : ProperName s :=
          ⟨hs.1, hhere, hup, hs.2.1, hs.2.2, Nat.not_lt.mp hsize⟩
        have hnil := place_ne_nil p s
        -- from the new directory on it goes as on a disk that had it before
        have hput : (d.put (p ++ [s]) (.directory d.directorySize clock)).IsDirectory (p ++ [s]) :=
          ⟨.directory d.directorySize clock, by rw [item?_put hnil, if_pos rfl, Option.mem_def],
            rfl⟩
        obtain ⟨htidy, hgrows, hnew⟩ := ih (h.put hproper hp (.inl rfl)) hput hl true
        refine ⟨htidy, (Grows.put hnil (.inl rfl)).trans hgrows, fun q => ?_⟩
        by_cases hq : q = p ++ [s]
        · subst hq
          exact .inr ⟨hi, hgrows.directory _ hput, [], s, l, rfl, rfl⟩
        · have hsame :
              (d.put (p ++ [s]) (.directory d.directorySize clock)).item? q = d.item? q := by
            rw [item?_put hnil, if_neg hq]
          rw [← hsame]
          refine (hnew q).imp_right ?_
          rintro ⟨hnone, hdir, l₁, s', l₂, rfl, rfl⟩
          exact ⟨hnone, hdir, s :: l₁, s', l₂, rfl, by rw [List.foldl_cons, hfollow]⟩

theorem Tidy.origin (h : d.Tidy) (path : String) : d.IsDirectory (d.origin path) := by
  rw [Disk.origin]
  split
  · exact d.isDirectory_nil
  · exact h.current

theorem Tidy.makeUpTo (h : d.Tidy) (clock : Int) (path : String) (limit : Nat) :
    Built d (d.makeUpTo clock path limit).1 (d.origin path) (Path.segments path) := by
  rw [Disk.makeUpTo]
  split
  · exact Built.refl h _ _
  · rename_i hok
    have hnul := (refusal?_eq_none.mp hok).1
    have hl : ∀ s ∈ (Path.segments path).take limit,
        s ≠ "" ∧ '/' ∉ s.toList ∧ '\x00' ∉ s.toList := by
      intro s hs
      obtain ⟨hempty, hslash, hsub⟩ := Path.of_mem_segments (List.mem_of_mem_take hs)
      exact ⟨hempty, hslash, fun hmem => hnul (hsub hmem)⟩
    obtain ⟨htidy, hgrows, hnew⟩ := h.makeAlong (h.origin path) hl clock false
    refine ⟨htidy, hgrows, fun q => (hnew q).imp_right ?_⟩
    rintro ⟨hnone, hdir, l₁, s, l₂, heq, rfl⟩
    refine ⟨hnone, hdir, l₁, s, l₂ ++ (Path.segments path).drop limit, ?_, rfl⟩
    rw [← List.cons_append, ← List.append_assoc, ← heq, List.take_append_drop]

end Disk

end Letterbox
