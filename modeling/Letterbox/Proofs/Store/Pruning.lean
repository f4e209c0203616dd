import Letterbox.Proofs.Store.Contents
import Letterbox.Proofs.Store.Listed
import Mathlib.Data.List.Nodup

/-!
# Deleting from the list

A message that is on the list of a mailbox can be deleted unless the system refuses, or it is a
directory. Then the list has all the others on it, in the same order, and nothing else has changed.
-/

namespace Letterbox

set_option autoImplicit false

namespace Mailbox

variable {m : Mailbox} {d d' : Disk} {n : String} {i : Item} {e e' : StoredMessage}
  {l ms : List StoredMessage} {turn : Turn}

theorem listed_of_enumerate (hl : m.enumerate d = .ok l) : m.listed d = l := by
  rw [listed, hl]
  rfl

/-- What is on the list is there, and its path can be followed. -/
theorem listable_of_mem (h : d.Tidy) (hl : m.enumerate d = .ok l) (he : e ∈ l) :
    (Disk.refusal? m.base = none ∧ m.base ≠ "" ∧ d.Reaches m.base) ∧
      ∃ n i, ProperName n ∧ m.Listable d n i ∧ e = m.describe n i ∧
        d.place e.path = m.home d ++ [n] := by
  rw [← listed_of_enumerate hl] at he
  obtain ⟨hopen, n, i, hlistable, rfl⟩ := (mem_listed h).mp he
  have hn := (h.parent hlistable.there).1
  refine ⟨hopen, n, i, hn, hlistable, rfl, ?_⟩
  rw [describe_path]
  exact Disk.place_join d m.base hn

theorem lists_of_mem (h : d.Tidy) (hl : m.enumerate d = .ok l) (he : e ∈ l) : m.Lists d l := by
  obtain ⟨hopen, -⟩ := listable_of_mem h hl he
  obtain ⟨l', hl', hlists⟩ := enumerate_of_list h (Disk.list_eq_ok.mpr ⟨hopen, rfl⟩)
  rw [hl] at hl'
  cases hl'
  exact hlists

/-- The oldest are listed first. -/
theorem oldest_first (h : d.Tidy) (hl : m.enumerate d = .ok l) :
    l.Pairwise fun e e' => e.createdAt ≤ e'.createdAt := by
  cases hcase : l with
  | nil => exact .nil
  | cons e l' =>
    rw [← hcase]
    have hlists := lists_of_mem (e := e) h hl (by rw [hcase]; exact List.mem_cons_self)
    refine hlists.sorted.imp fun hbefore => ?_
    simp only [comesBefore, Bool.or_eq_true, Bool.and_eq_true, decide_eq_true_eq] at hbefore
    omega

theorem nodup_of_enumerate (h : d.Tidy) (hl : m.enumerate d = .ok l) : l.Nodup := by
  rw [← listed_of_enumerate hl]
  exact nodup_listed h

/-! ## One message -/

def removed (turn : Turn) (d : Disk) (p : Place) : Item → Except Failure Disk
  | .directory .. => match turn.mishap with
    | some x => .error (.system x.fault)
    | none => .error (.system .isADirectory)
  | .file .. => match turn.mishap with
    | some x => .error (.system x.fault)
    | none => .ok (d.erase p)

theorem delete_listable (h : d.Tidy) (hreach : d.Reaches m.base) (hlistable : m.Listable d n i)
    (turn : Turn) :
    m.delete d (Path.join m.base n) turn = removed turn d (m.home d ++ [n]) i := by
  have hn := (h.parent hlistable.there).1
  have hresolve : d.resolve (Path.join m.base n) = .ok (m.home d ++ [n]) :=
    (Disk.resolve_join hn).mpr ⟨hlistable.accepted, hreach, rfl⟩
  have hthere := hlistable.there
  rw [delete, checkContained, if_pos (contains_join hn), Turn.attempt, Disk.remove, hresolve]
  unfold removed
  cases turn.mishap with
  | some x => cases i <;> rfl
  | none =>
    cases i <;>
      · dsimp only [bind, Except.bind]
        rw [hthere]
        rfl

theorem of_removed {p : Place} (h : removed turn d p i = .ok d') :
    i.isDirectory = false ∧ d' = d.erase p := by
  unfold removed at h
  split at h
  · split at h <;> cases h
  · split at h
    · cases h
    · cases h
      exact ⟨rfl, rfl⟩

/-- A list that is sorted as those of a mailbox are, and has the same messages on it. -/
theorem Lists.eq_of_mem_iff (hlists : m.Lists d l)
    (hsorted : ms.Pairwise fun e e' => comesBefore e e')
    (honce : ms.Nodup) (hmem : ∀ e, e ∈ l ↔ e ∈ ms) : l = ms := by
  have hnodup : l.Nodup :=
    (List.pairwise_map.mp hlists.once).imp fun hne heq => hne (congrArg _ heq)
  refine List.Perm.eq_of_pairwise ?_ hlists.sorted hsorted
    ((List.perm_ext_iff_of_nodup hnodup honce).mpr hmem)
  intro e e' he he' hbefore hafter
  refine List.inj_on_of_nodup_map hlists.once he ((hmem e').mpr he') ?_
  simp only [comesBefore, Bool.or_eq_true, Bool.and_eq_true, decide_eq_true_eq] at hbefore hafter
  rcases hbefore with hbefore | ⟨hsame, hbefore⟩
  · omega
  · rcases hafter with hafter | ⟨-, hafter⟩
    · omega
    · rcases hbefore with hbefore | hbefore
      · rcases hafter with hafter | hafter
        · exact absurd (String.lt_trans hbefore hafter) (lt_irrefl _)
        · exact hafter.symm
      · exact hbefore

/-- A message that is deleted is taken off the list. -/
theorem enumerate_erase (h : d.Tidy) (hl : m.enumerate d = .ok l) (he : m.describe n i ∈ l)
    (hn : ProperName n) (hi : ¬d.IsDirectory (m.home d ++ [n])) :
    m.enumerate (d.erase (m.home d ++ [n])) = .ok (l.filter (· ≠ m.describe n i)) := by
  obtain ⟨⟨hok, hne, hreach⟩, -⟩ := listable_of_mem h hl he
  have hlists := lists_of_mem h hl he
  have hgrows := Disk.Grows.erase hi
  obtain ⟨l', hl', hlists'⟩ := enumerate_of_list (h.erase hi)
    (Disk.list_eq_ok.mpr ⟨⟨hok, hne, hgrows.reaches hreach⟩, rfl⟩)
  have hlistable : ∀ n' i', m.Listable (d.erase (m.home d ++ [n])) n' i' ↔
      n' ≠ n ∧ m.Listable d n' i' := by
    intro n' i'
    have hitem := Disk.item?_erase (d := d) (Disk.place_ne_nil (m.home d) n) (m.home d ++ [n'])
    by_cases hname : n' = n
    · subst hname
      rw [if_pos rfl] at hitem
      refine iff_of_false (fun hlistable => ?_) fun hboth => hboth.1 rfl
      have hthere := hlistable.there
      rw [home_of_grows hgrows, hitem] at hthere
      cases hthere
    · rw [if_neg (by simpa using hname)] at hitem
      rw [and_iff_right hname]
      constructor
      · rintro ⟨hthere, hnamed, hok⟩
        rw [home_of_grows hgrows, hitem] at hthere
        exact ⟨hthere, hnamed, hok⟩
      · rintro ⟨hthere, hnamed, hok⟩
        refine ⟨?_, hnamed, hok⟩
        rw [home_of_grows hgrows, hitem]
        exact hthere
  rw [hl']
  congr 1
  refine hlists'.eq_of_mem_iff (hlists.sorted.filter _) ((nodup_of_enumerate h hl).filter _)
    fun x => ?_
  rw [hlists'.mem_iff, List.mem_filter, hlists.mem_iff, decide_eq_true_eq]
  constructor
  · rintro ⟨n', i', hthere, rfl⟩
    obtain ⟨hname, hthere⟩ := (hlistable n' i').mp hthere
    refine ⟨⟨n', i', hthere, rfl⟩, fun heq => hname ?_⟩
    rw [← describe_name m n' i', heq, describe_name]
  · rintro ⟨⟨n', i', hthere, rfl⟩, hother⟩
    refine ⟨n', i', (hlistable n' i').mpr ⟨?_, hthere⟩, rfl⟩
    rintro rfl
    refine hother (List.inj_on_of_nodup_map hlists.once ((hlists.mem_iff _).mpr ⟨_, _, hthere, rfl⟩)
      he ?_)
    rw [describe_name, describe_name]

/-! ## Several messages -/

/-- Of the messages that were listed on a disk, `ms`, those that are not on the list any more have
been deleted, and nothing else has changed. -/
structure Pruned (m : Mailbox) (d : Disk) (ms l : List StoredMessage) (d' : Disk) : Prop where
  tidy : d'.Tidy
  grows : Disk.Grows d d'
  listed : m.enumerate d' = .ok l
  sub : l ⊆ ms
  gone : ∀ e ∈ ms, e ∉ l → d'.item? (d.place e.path) = none
  same : ∀ q, (∀ e ∈ ms, e ∉ l → d.place e.path ≠ q) → d'.item? q = d.item? q

theorem Pruned.refl (h : d.Tidy) (hms : m.enumerate d = .ok ms) : m.Pruned d ms ms d :=
  ⟨h, Disk.Grows.refl d, hms, fun _ he => he, fun _ he hnot => absurd he hnot, fun _ _ => rfl⟩

theorem Pruned.item (h : m.Pruned d ms l d') {q : Place} (hi : d'.item? q = some i) :
    d.item? q = some i := by
  rw [← h.same q, hi]
  rintro e he hnot rfl
  rw [h.gone e he hnot] at hi
  cases hi

def removal (m : Mailbox) (turn : Turn) (d : Disk) (e : StoredMessage) : Except Failure Unit :=
  (m.delete d e.path turn).map fun _ => ()

/-- The answer is the same as before other messages were deleted. -/
theorem Pruned.removal (h : m.Pruned d ms l d') (hd : d.Tidy) (hms : m.enumerate d = .ok ms)
    (he : e ∈ l) (turn : Turn) : m.removal turn d' e = m.removal turn d e := by
  obtain ⟨⟨-, -, hreach⟩, n, i, -, hlistable, rfl, -⟩ := listable_of_mem hd hms (h.sub he)
  obtain ⟨⟨-, -, hreach'⟩, n', i', -, hlistable', heq, -⟩ := listable_of_mem h.tidy h.listed he
  obtain rfl : n = n' := by rw [← describe_name m n i, heq, describe_name]
  have hi := h.item hlistable'.there
  rw [home_of_grows h.grows, hlistable.there, Option.some.injEq] at hi
  subst hi
  rw [Mailbox.removal, Mailbox.removal, describe_path, delete_listable hd hreach hlistable,
    delete_listable h.tidy hreach' hlistable']
  unfold removed
  cases turn.mishap <;> cases i <;> rfl

theorem removal_eq_ok {u : Unit} (h : m.removal turn d e = .ok u) :
    ∃ d', m.delete d e.path turn = .ok d' := by
  rw [removal] at h
  cases hdelete : m.delete d e.path turn with
  | error f =>
    rw [hdelete] at h
    cases h
  | ok d' => exact ⟨d', rfl⟩

/-- One more message is deleted. -/
theorem Pruned.delete (h : m.Pruned d ms l d') (he : e ∈ l)
    (hanswer : m.removal turn d' e = .ok ()) :
    ∃ d'', m.delete d' e.path turn = .ok d'' ∧ m.Pruned d ms (l.filter (· ≠ e)) d'' := by
  have hplace : d'.place e.path = d.place e.path := h.grows.place e.path
  obtain ⟨d'', hdelete⟩ := removal_eq_ok hanswer
  refine ⟨d'', hdelete, ?_⟩
  obtain ⟨⟨-, -, hreach⟩, n, i, hn, hlistable, rfl, hhome⟩ := listable_of_mem h.tidy h.listed he
  rw [describe_path, delete_listable h.tidy hreach hlistable] at hdelete
  obtain ⟨hfile, rfl⟩ := of_removed hdelete
  have hnot : ¬d'.IsDirectory (m.home d' ++ [n]) := by
    simp [Disk.isDirectory_of_item? hlistable.there, hfile]
  have hitem := Disk.item?_erase (d := d') (Disk.place_ne_nil (m.home d') n)
  refine ⟨h.tidy.erase hnot, h.grows.trans (Disk.Grows.erase hnot),
    enumerate_erase h.tidy h.listed he hn hnot, fun x hx => h.sub (List.mem_filter.mp hx).1, ?_, ?_⟩
  · intro e' he' hleft
    rw [hitem]
    split
    · rfl
    · rename_i hother
      refine h.gone e' he' fun hmem => hleft ?_
      refine List.mem_filter.mpr ⟨hmem, decide_eq_true ?_⟩
      rintro rfl
      exact hother (hplace.symm.trans hhome)
  · intro q hq
    have hne : q ≠ m.home d' ++ [n] := by
      rintro rfl
      refine hq _ (h.sub he) (fun hmem => ?_) (hplace.symm.trans hhome)
      exact of_decide_eq_true (List.mem_filter.mp hmem).2 rfl
    rw [hitem, if_neg hne]
    exact h.same q fun e' he' hleft => hq e' he' fun hmem => hleft (List.mem_filter.mp hmem).1

end Mailbox

end Letterbox
