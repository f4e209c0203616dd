import Letterbox.Proofs.Store.Paths

/-!
# A disk is a tree

On a tidy disk every item lies in a directory, so that whatever can be reached by its path is where
the text of the path says. Directories stay where they are once they have been made: what could be
reached before can be reached afterwards.
-/

namespace Letterbox

set_option autoImplicit false

namespace Disk

variable {d d' d'' : Disk} {p q : Place} {i : Item} {n path base : String}

/-! ## What lies where -/

theorem place_ne_nil (p : Place) (n : String) : p ++ [n] ≠ [] :=
  List.append_ne_nil_of_right_ne_nil p (List.cons_ne_nil n [])

@[simp] theorem item?_nil (d : Disk) : d.item? [] = some root := rfl

def IsDirectory (d : Disk) (p : Place) : Prop := ∃ i ∈ d.item? p, i.isDirectory = true

theorem isDirectory_iff :
    d.IsDirectory p ↔ ∃ size createdAt, d.item? p = some (.directory size createdAt) := by
  constructor
  · rintro ⟨i | ⟨size, createdAt⟩, hi, hdir⟩
    · cases hdir
    · exact ⟨size, createdAt, hi⟩
  · rintro ⟨size, createdAt, hi⟩
    exact ⟨_, hi, rfl⟩

instance (d : Disk) (p : Place) : Decidable (d.IsDirectory p) :=
  inferInstanceAs (Decidable (∃ i ∈ d.item? p, i.isDirectory = true))

theorem isDirectory_nil (d : Disk) : d.IsDirectory [] := ⟨root, rfl, rfl⟩

theorem isDirectory_of_item? (hi : d.item? p = some i) :
    d.IsDirectory p ↔ i.isDirectory = true := by
  simp [IsDirectory, hi]

theorem isDirectory_congr (h : d'.item? p = d.item? p) : d'.IsDirectory p ↔ d.IsDirectory p := by
  rw [IsDirectory, IsDirectory, h]

theorem not_isDirectory_of_none (hi : d.item? p = none) : ¬d.IsDirectory p := by
  simp [IsDirectory, hi]

theorem item?_eq_lookup (hp : p ≠ []) : d.item? p = d.items.lookup p := by
  rw [item?, if_neg (by simpa using hp)]

theorem lookup_cons_of_ne (h : q ≠ p) (i : Item) (l : List (Place × Item)) :
    ((p, i) :: l).lookup q = l.lookup q := by
  rw [List.lookup_cons, beq_eq_false_iff_ne.mpr h]

theorem lookup_map_at (l : List (Place × Item)) (p q : Place) (i : Item) :
    (l.map fun e => if e.1 = p then (p, i) else e).lookup q =
      if q = p ∧ l.any (·.1 = p) then some i else l.lookup q := by
  induction l with
  | nil => simp
  | cons e l ih =>
    obtain ⟨place, item⟩ := e
    rw [List.map_cons]
    by_cases hplace : place = p
    · subst hplace
      rw [if_pos rfl]
      by_cases hq : q = place
      · subst hq
        simp
      · rw [lookup_cons_of_ne hq, lookup_cons_of_ne hq, ih, if_neg fun h => hq h.1,
          if_neg fun h => hq h.1]
    · rw [if_neg hplace]
      by_cases hq : q = place
      · subst hq
        rw [List.lookup_cons_self, List.lookup_cons_self, if_neg fun h => hplace h.1]
      · rw [lookup_cons_of_ne hq, lookup_cons_of_ne hq, ih, List.any_cons,
          decide_eq_false hplace, Bool.false_or]

theorem lookup_eq_none_of_any {l : List (Place × Item)} (h : l.any (·.1 = p) = false) :
    l.lookup p = none := by
  rw [List.lookup_eq_none_iff]
  intro e he
  rw [List.any_eq_false] at h
  exact bne_iff_ne.mpr fun heq => h e he (decide_eq_true heq.symm)

theorem item?_put (hp : p ≠ []) (i : Item) (q : Place) :
    (d.put p i).item? q = if q = p then some i else d.item? q := by
  by_cases hq : q = []
  · subst hq
    rw [if_neg (Ne.symm hp), item?_nil, item?_nil]
  · rw [item?_eq_lookup hq, item?_eq_lookup hq, put]
    split
    · rename_i hany
      dsimp only
      rw [lookup_map_at, hany]
      simp only [and_true]
    · rename_i hany
      have hnone := lookup_eq_none_of_any (Bool.eq_false_iff.mpr hany)
      dsimp only
      rw [List.lookup_append]
      by_cases hqp : q = p
      · subst hqp
        rw [hnone, if_pos rfl, List.lookup_cons_self, Option.none_or]
      · rw [if_neg hqp, lookup_cons_of_ne hqp, List.lookup_nil, Option.or_none]

theorem lookup_filter_ne (l : List (Place × Item)) (p q : Place) :
    (l.filter (·.1 ≠ p)).lookup q = if q = p then none else l.lookup q := by
  induction l with
  | nil => simp
  | cons e l ih =>
    obtain ⟨place, item⟩ := e
    by_cases hplace : place = p
    · subst hplace
      rw [List.filter_cons_of_neg (by simp), ih]
      by_cases hq : q = place
      · rw [if_pos hq, if_pos hq]
      · rw [if_neg hq, if_neg hq, lookup_cons_of_ne hq]
    · rw [List.filter_cons_of_pos (by simpa using hplace)]
      by_cases hq : q = place
      · subst hq
        rw [if_neg hplace, List.lookup_cons_self, List.lookup_cons_self]
      · rw [lookup_cons_of_ne hq, lookup_cons_of_ne hq, ih]

theorem item?_erase (hp : p ≠ []) (q : Place) :
    (d.erase p).item? q = if q = p then none else d.item? q := by
  by_cases hq : q = []
  · subst hq
    rw [if_neg (Ne.symm hp), item?_nil, item?_nil]
  · rw [item?_eq_lookup hq, item?_eq_lookup hq, erase]
    exact lookup_filter_ne d.items p q

@[simp] theorem current_put (d : Disk) (p : Place) (i : Item) :
    (d.put p i).current = d.current := by
  rw [put]
  split <;> rfl

/-- Everything lies in a directory, once. -/
structure Tidy (d : Disk) : Prop where
  once : (d.items.map Prod.fst).Nodup
  rooted : ∀ e ∈ d.items, ∃ q n, e.1 = q ++ [n] ∧ ProperName n ∧ d.IsDirectory q
  current : d.IsDirectory d.current

theorem rooted_iff (d : Disk) (p : Place) :
    (∃ n ∈ p.getLast?, ProperName n ∧ d.IsDirectory p.dropLast) ↔
      ∃ q n, p = q ++ [n] ∧ ProperName n ∧ d.IsDirectory q := by
  constructor
  · rintro ⟨n, hn, hrooted⟩
    obtain ⟨q, rfl⟩ := List.getLast?_eq_some_iff.mp hn
    rw [List.dropLast_concat] at hrooted
    exact ⟨q, n, rfl, hrooted⟩
  · rintro ⟨q, n, rfl, hrooted⟩
    refine ⟨n, List.getLast?_concat, ?_⟩
    rwa [List.dropLast_concat]

instance (d : Disk) : Decidable d.Tidy :=
  decidable_of_iff ((d.items.map Prod.fst).Nodup ∧
      (∀ e ∈ d.items, ∃ n ∈ e.1.getLast?, ProperName n ∧
        d.IsDirectory e.1.dropLast) ∧ d.IsDirectory d.current)
    ⟨fun h => ⟨h.1, fun e he => (rooted_iff d e.1).mp (h.2.1 e he), h.2.2⟩,
      fun h => ⟨h.once, fun e he => (rooted_iff d e.1).mpr (h.rooted e he), h.current⟩⟩

theorem mem_of_lookup {l : List (Place × Item)} (h : l.lookup p = some i) : (p, i) ∈ l := by
  obtain ⟨l₁, l₂, rfl, -⟩ := List.lookup_eq_some_iff.mp h
  exact List.mem_append_right l₁ List.mem_cons_self

theorem lookup_of_mem {l : List (Place × Item)} (hl : (l.map Prod.fst).Nodup) (h : (p, i) ∈ l) :
    l.lookup p = some i := by
  obtain ⟨l₁, l₂, rfl⟩ := List.append_of_mem h
  rw [List.lookup_eq_some_iff]
  refine ⟨l₁, l₂, rfl, fun e he => bne_iff_ne.mpr ?_⟩
  rintro rfl
  rw [List.map_append, List.map_cons, List.nodup_append] at hl
  exact hl.2.2 _ (List.mem_map_of_mem he) _ List.mem_cons_self rfl

theorem mem_items_of_item? (hp : p ≠ []) (h : d.item? p = some i) : (p, i) ∈ d.items := by
  rw [item?_eq_lookup hp] at h
  exact mem_of_lookup h

theorem Tidy.item?_of_mem (h : d.Tidy) (hmem : (p, i) ∈ d.items) : d.item? p = some i := by
  obtain ⟨q, n, hp, -, -⟩ := h.rooted _ hmem
  dsimp only at hp
  have hnil : p ≠ [] := by
    rw [hp]
    exact place_ne_nil q n
  rw [item?_eq_lookup hnil]
  exact lookup_of_mem h.once hmem

theorem Tidy.parent (h : d.Tidy) (hi : d.item? (q ++ [n]) = some i) :
    ProperName n ∧ d.IsDirectory q := by
  have hmem := mem_items_of_item? (place_ne_nil q n) hi
  obtain ⟨q', n', heq, hn, hq⟩ := h.rooted _ hmem
  obtain ⟨rfl, hname⟩ := List.append_inj' heq rfl
  cases hname
  exact ⟨hn, hq⟩

theorem Tidy.dropLast (h : d.Tidy) (hi : d.item? p = some i) :
    d.IsDirectory p.dropLast := by
  rcases List.eq_nil_or_concat' p with rfl | ⟨q, n, rfl⟩
  · exact d.isDirectory_nil
  · rw [List.dropLast_concat]
    exact (h.parent hi).2

/-! ## Directories stay -/

/-- What is a directory is one afterwards. -/
structure Grows (d d' : Disk) : Prop where
  current : d'.current = d.current
  directory : ∀ p, d.IsDirectory p → d'.IsDirectory p

theorem Grows.refl (d : Disk) : Grows d d := ⟨rfl, fun _ h => h⟩

theorem Grows.trans (h : Grows d d') (h' : Grows d' d'') : Grows d d'' :=
  ⟨h'.current.trans h.current, fun p hp => h'.directory p (h.directory p hp)⟩

theorem Grows.put (hp : p ≠ []) (hi : i.isDirectory = true ∨ ¬d.IsDirectory p) :
    Grows d (d.put p i) := by
  refine ⟨current_put d p i, fun q hq => ?_⟩
  rw [IsDirectory, item?_put hp]
  split
  · rename_i heq
    rcases hi with hi | hi
    · exact ⟨i, rfl, hi⟩
    · exact absurd (heq ▸ hq) hi
  · exact hq

theorem Grows.erase (hp : ¬d.IsDirectory p) : Grows d (d.erase p) := by
  have hnil : p ≠ [] := by
    rintro rfl
    exact hp d.isDirectory_nil
  refine ⟨rfl, fun q hq => ?_⟩
  rw [IsDirectory, item?_erase hnil, if_neg]
  · exact hq
  · rintro rfl
    exact hp hq

theorem Tidy.put (h : d.Tidy) (hn : ProperName n) (hq : d.IsDirectory q)
    (hi : i.isDirectory = true ∨ ¬d.IsDirectory (q ++ [n])) : (d.put (q ++ [n]) i).Tidy := by
  have hgrows : Grows d (d.put (q ++ [n]) i) :=
    Grows.put (place_ne_nil q n) hi
  refine ⟨?_, fun e he => ?_, ?_⟩
  · rw [Disk.put]
    split
    · have hsame : (d.items.map fun e => if e.1 = q ++ [n] then (q ++ [n], i) else e).map Prod.fst =
          d.items.map Prod.fst := by
        rw [List.map_map]
        apply List.map_congr_left
        intro e _
        dsimp only [Function.comp]
        split
        · rename_i heq
          exact heq.symm
        · rfl
      dsimp only
      rw [hsame]
      exact h.once
    · rename_i hany
      dsimp only
      rw [List.map_append, List.nodup_append]
      refine ⟨h.once, List.pairwise_singleton _ _, fun a ha b hb => ?_⟩
      cases List.mem_singleton.mp hb
      rintro rfl
      obtain ⟨e, he, heq⟩ := List.mem_map.mp ha
      exact hany (List.any_eq_true.mpr ⟨e, he, by simpa using heq⟩)
  · have hcase : e ∈ d.items ∨ e = (q ++ [n], i) := by
      rw [Disk.put] at he
      split at he
      · obtain ⟨e', he', rfl⟩ := List.mem_map.mp he
        split
        · exact .inr rfl
        · exact .inl he'
      · rcases List.mem_append.mp he with he | he
        · exact .inl he
        · exact .inr (List.mem_singleton.mp he)
    rcases hcase with he | rfl
    · obtain ⟨q', n', heq, hn', hq'⟩ := h.rooted e he
      exact ⟨q', n', heq, hn', hgrows.directory q' hq'⟩
    · exact ⟨q, n, rfl, hn, hgrows.directory q hq⟩
  · rw [hgrows.current]
    exact hgrows.directory _ h.current

theorem Tidy.erase (h : d.Tidy) (hp : ¬d.IsDirectory p) : (d.erase p).Tidy := by
  have hgrows := Grows.erase hp
  refine ⟨h.once.sublist (List.filter_sublist.map Prod.fst), fun e he => ?_,
    hgrows.directory _ h.current⟩
  obtain ⟨q, n, heq, hn, hq⟩ := h.rooted e (List.mem_filter.mp he).1
  exact ⟨q, n, heq, hn, hgrows.directory q hq⟩

/-! ## Following paths -/

theorem walk_append (d : Disk) (p : Place) (l l' : List String) :
    d.walk p (l ++ l') = d.walk p l >>= fun q => d.walk q l' := by
  induction l generalizing p with
  | nil => rfl
  | cons s l ih =>
    simp only [List.cons_append, walk]
    split
    · rfl
    · rfl
    · split
      · rfl
      · exact ih (follow p s)

theorem walk_cons_eq_ok {s : String} {l : List String} :
    d.walk p (s :: l) = .ok q ↔
      d.IsDirectory p ∧ s.utf8ByteSize ≤ maxName ∧ d.walk (follow p s) l = .ok q := by
  simp only [walk]
  split
  · rename_i hi
    simp [not_isDirectory_of_none hi]
  · rename_i hi
    simp [isDirectory_of_item? hi, Item.isDirectory]
  · rename_i hi
    have hdir : d.IsDirectory p := ⟨_, hi, rfl⟩
    split
    · rename_i hlong
      simp [Nat.not_le.mpr hlong]
    · rename_i hshort
      simp [hdir, Nat.not_lt.mp hshort]

theorem eq_foldl_of_walk {l : List String} (h : d.walk p l = .ok q) : q = l.foldl follow p := by
  induction l generalizing p with
  | nil =>
    cases h
    rfl
  | cons s l ih => exact ih (walk_cons_eq_ok.mp h).2.2

theorem Grows.walk (h : Grows d d') {l : List String} (hw : d.walk p l = .ok q) :
    d'.walk p l = .ok q := by
  induction l generalizing p with
  | nil => exact hw
  | cons s l ih =>
    obtain ⟨hi, hs, hw⟩ := walk_cons_eq_ok.mp hw
    exact walk_cons_eq_ok.mpr ⟨h.directory p hi, hs, ih hw⟩

theorem Grows.origin (h : Grows d d') (path : String) : d'.origin path = d.origin path := by
  rw [Disk.origin, Disk.origin, h.current]

theorem Grows.place (h : Grows d d') (path : String) : d'.place path = d.place path := by
  rw [Disk.place, Disk.place, h.origin]

structure Reaches (d : Disk) (path : String) : Prop where
  walk : d.walk (d.origin path) (Path.segments path) = .ok (d.place path)
  directory : d.IsDirectory (d.place path)

theorem Grows.reaches (h : Grows d d') (hr : d.Reaches path) : d'.Reaches path := by
  refine ⟨?_, ?_⟩
  · rw [h.origin, h.place]
    exact h.walk hr.walk
  · rw [h.place]
    exact h.directory _ hr.directory

/-- A row of names leads on from a directory. -/
theorem walk_concat_eq_ok {l : List String} {s : String} :
    d.walk p (l ++ [s]) = .ok q ↔
      d.walk p l = .ok (l.foldl follow p) ∧ d.IsDirectory (l.foldl follow p) ∧
        s.utf8ByteSize ≤ maxName ∧ q = follow (l.foldl follow p) s := by
  rw [walk_append]
  cases hw : d.walk p l with
  | error f =>
    constructor
    · intro h
      cases h
    · rintro ⟨h, -⟩
      cases h
  | ok r =>
    rw [eq_foldl_of_walk hw]
    refine Iff.trans (walk_cons_eq_ok (d := d) (l := [])) ?_
    rw [walk, Except.ok.injEq, eq_comm (a := follow _ s)]
    exact ⟨fun h => ⟨rfl, h⟩, fun h => h.2⟩

theorem resolve_eq_ok : d.resolve path = .ok p ↔
    refusal? path = none ∧ path ≠ "" ∧ d.walk (d.origin path) (segments path) = .ok p := by
  rw [resolve]
  cases refusal? path with
  | some f => simp
  | none =>
    dsimp only
    split
    · rename_i h
      simp [String.isEmpty_iff.mp h]
    · rename_i h
      have hne : path ≠ "" := fun heq => h (String.isEmpty_iff.mpr heq)
      simp [hne]

theorem place_of_resolve (h : d.resolve path = .ok p) : p = d.place path := by
  rw [eq_foldl_of_walk (resolve_eq_ok.mp h).2.2, foldl_follow_segments, place]

theorem Grows.resolve (h : Grows d d') (hr : d.resolve path = .ok p) : d'.resolve path = .ok p := by
  obtain ⟨hok, hne, hw⟩ := resolve_eq_ok.mp hr
  rw [← h.origin] at hw
  exact resolve_eq_ok.mpr ⟨hok, hne, h.walk hw⟩

theorem resolve_join (hn : ProperName n) : d.resolve (Path.join base n) = .ok p ↔
    refusal? (Path.join base n) = none ∧ d.Reaches base ∧ p = d.place base ++ [n] := by
  rw [resolve_eq_ok, segments_join hn, origin_join d hn, walk_concat_eq_ok, follow_of_proper hn]
  constructor
  · rintro ⟨hok, -, hw, hi, -, rfl⟩
    exact ⟨hok, ⟨hw, hi⟩, rfl⟩
  · rintro ⟨hok, hr, rfl⟩
    exact ⟨hok, Path.join_ne_empty hn, hr.walk, hr.directory, hn.size, rfl⟩

theorem reaches_join (hn : ProperName n) : d.Reaches (Path.join base n) ↔
    d.Reaches base ∧ d.IsDirectory (d.place base ++ [n]) := by
  constructor
  · rintro ⟨hw, hi⟩
    rw [Path.segments_join _ hn, origin_join d hn, walk_concat_eq_ok] at hw
    rw [place_join d _ hn] at hi
    exact ⟨⟨hw.1, hw.2.1⟩, hi⟩
  · rintro ⟨hr, hi⟩
    refine ⟨?_, by rw [place_join d _ hn]; exact hi⟩
    rw [Path.segments_join _ hn, origin_join d hn, walk_concat_eq_ok, place_join d _ hn,
      follow_of_proper hn]
    exact ⟨hr.walk, hr.directory, hn.size, rfl⟩

theorem find_eq_ok : d.find path = .ok i ↔
    d.resolve path = .ok (d.place path) ∧ d.item? (d.place path) = some i := by
  rw [find]
  cases hr : d.resolve path with
  | error f => simp [bind, Except.bind]
  | ok p =>
    cases place_of_resolve hr
    cases hi : d.item? (d.place path) with
    | none => simp [bind, Except.bind, hi, throw, throwThe, MonadExceptOf.throw]
    | some j => simp [bind, Except.bind, hi, pure, Except.pure]

end Disk

end Letterbox
