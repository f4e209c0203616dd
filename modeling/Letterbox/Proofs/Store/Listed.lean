import Letterbox.Proofs.Store.Listing
import Mathlib.Data.List.Induction

/-!
# What is seen of a mailbox

What lies among the messages can be listed as soon as the path to them can be followed. A path that
does not lead back can be followed wherever there is something at its end; one that leads back from
a missing directory cannot, and then making that directory brings everything to light.
-/

namespace Letterbox

set_option autoImplicit false

namespace Disk

variable {d d' : Disk} {p q : Place} {l : List String} {path : String} {i : Item}

/-! ## Paths that do not lead back -/

theorem prefix_follow {s : String} (hs : s ≠ "..") (p : Place) : p <+: follow p s := by
  unfold follow
  rw [if_neg hs]
  split
  · exact List.prefix_rfl
  · exact List.prefix_append p [s]

theorem prefix_foldl (hl : ".." ∉ l) (p : Place) : p <+: l.foldl follow p := by
  induction l generalizing p with
  | nil => exact List.prefix_rfl
  | cons s l ih =>
    rw [List.mem_cons, not_or] at hl
    exact (prefix_follow (Ne.symm hl.1) p).trans (ih hl.2 (follow p s))

theorem Tidy.directory_of_prefix (h : d.Tidy) (hi : d.IsDirectory q) (hp : p <+: q) :
    d.IsDirectory p := by
  obtain ⟨r, rfl⟩ := hp
  induction r using List.reverseRecOn with
  | nil => rwa [List.append_nil] at hi
  | append_singleton r s ih =>
    rw [← List.append_assoc] at hi
    obtain ⟨i, hi, -⟩ := hi
    exact ih (h.parent hi).2

/-- Where there is a directory its path can be followed. -/
theorem Tidy.walk (h : d.Tidy) (hl : ".." ∉ l)
    (hi : d.IsDirectory (l.foldl follow p)) : d.walk p l = .ok (l.foldl follow p) := by
  induction l generalizing p with
  | nil => rfl
  | cons s l ih =>
    rw [List.mem_cons, not_or] at hl
    have hnext := h.directory_of_prefix hi (prefix_foldl hl.2 (follow p s))
    refine walk_cons_eq_ok.mpr ⟨h.directory_of_prefix hnext (prefix_follow (Ne.symm hl.1) p), ?_,
      ih hl.2 hi⟩
    unfold follow at hnext
    rw [if_neg (Ne.symm hl.1)] at hnext
    split at hnext
    · rename_i hs
      rw [hs]
      decide
    · obtain ⟨i, hi, -⟩ := hnext
      exact (h.parent hi).1.size

theorem Tidy.reaches (h : d.Tidy) (hl : ".." ∉ Path.segments path)
    (hi : d.IsDirectory (d.place path)) : d.Reaches path :=
  ⟨h.walk hl hi, hi⟩

/-- All that is passed on a path that can be followed are directories. -/
theorem Reaches.passed (h : d.Reaches path) {l₁ l₂ : List String} {s : String}
    (hl : Path.segments path = l₁ ++ s :: l₂) :
    d.IsDirectory (follow (l₁.foldl follow (d.origin path)) s) := by
  have hw := h.walk
  have hend := h.directory
  rw [hl, walk_append, bind_eq_ok] at hw
  obtain ⟨q, hq, hw⟩ := hw
  rw [← eq_foldl_of_walk hq]
  have hrest := (walk_cons_eq_ok.mp hw).2.2
  cases l₂ with
  | nil =>
    rw [eq_foldl_of_walk hrest] at hw
    rw [place, hl, List.foldl_append, ← eq_foldl_of_walk hq] at hend
    exact hend
  | cons s' l₂ => exact (walk_cons_eq_ok.mp hrest).1

end Disk

namespace Mailbox

variable {m : Mailbox} {d d' : Disk} {n : String} {e : StoredMessage}

/-! ## What is listed -/

def listed (m : Mailbox) (d : Disk) : List StoredMessage := (m.enumerate d).toOption.getD []

theorem listed_of_error {f : SystemFault} (h : d.list m.base = .error f) : m.listed d = [] := by
  rw [listed, enumerate_eq, h]
  cases f <;> rfl

theorem mem_listed (h : d.Tidy) : e ∈ m.listed d ↔
    (Disk.refusal? m.base = none ∧ m.base ≠ "" ∧ d.Reaches m.base) ∧
      ∃ n i, m.Listable d n i ∧ e = m.describe n i := by
  cases hlist : d.list m.base with
  | error f =>
    rw [listed_of_error hlist]
    constructor
    · intro he
      cases he
    · rintro ⟨hopen, -⟩
      rw [Disk.list_eq_ok.mpr ⟨hopen, rfl⟩] at hlist
      cases hlist
  | ok names =>
    obtain ⟨l, hl, hlists⟩ := enumerate_of_list h hlist
    rw [listed, hl]
    exact (hlists.mem_iff e).trans ⟨fun h => ⟨(Disk.list_eq_ok.mp hlist).1, h⟩, fun h => h.2⟩

theorem nodup_listed (h : d.Tidy) : (m.listed d).Nodup := by
  cases hlist : d.list m.base with
  | error f =>
    rw [listed_of_error hlist]
    exact List.nodup_nil
  | ok names =>
    obtain ⟨l, hl, hlists⟩ := enumerate_of_list h hlist
    rw [listed, hl]
    exact (List.pairwise_map.mp hlists.once).imp fun hne heq => hne (congrArg _ heq)

/-- The path to the messages leads to a directory, or it does not lead back. -/
def Stands (m : Mailbox) (d : Disk) : Prop :=
  (∃ names, d.list m.base = .ok names) ∨ m.base ≠ "" ∧ ".." ∉ Path.segments m.base

theorem Stands.ne_empty (h : m.Stands d) : m.base ≠ "" := by
  rcases h with ⟨names, hlist⟩ | ⟨hne, -⟩
  · exact (Disk.list_eq_ok.mp hlist).1.2.1
  · exact hne

theorem Stands.grows (h : m.Stands d) (hgrows : Disk.Grows d d') : m.Stands d' := by
  refine h.imp_left ?_
  rintro ⟨names, hlist⟩
  obtain ⟨hok, hne, hreach⟩ := (Disk.list_eq_ok.mp hlist).1
  exact ⟨_, Disk.list_eq_ok.mpr ⟨⟨hok, hne, hgrows.reaches hreach⟩, rfl⟩⟩

theorem follow_of_extension (h : Path.extension? n = some extension) (p : Place) :
    Disk.follow p n = p ++ [n] := by
  have hne : ∀ s : String, Path.extension? s ≠ some extension → n ≠ s := by
    rintro s hs rfl
    exact hs h
  rw [Disk.follow, if_neg (hne "." (by decide)), if_neg (hne ".." (by decide))]

/-- No directory that is missing on the way to the messages would lie among them. -/
theorem Stands.ne_home (h : m.Stands d) (hext : Path.extension? n = some extension)
    {l₁ l₂ : List String} (hl : Path.segments m.base = l₁ ++ n :: l₂)
    (hnone : d.item? (m.home d ++ [n]) = none) :
    m.home d ≠ l₁.foldl Disk.follow (d.origin m.base) := by
  intro hhome
  rcases h with ⟨names, hlist⟩ | ⟨-, hup⟩
  · have hpassed := (Disk.list_eq_ok.mp hlist).1.2.2.passed hl
    rw [follow_of_extension hext, ← hhome] at hpassed
    exact Disk.not_isDirectory_of_none hnone hpassed
  · -- the way goes on from a place below, and never leads back from there
    have hl₂ : ".." ∉ l₂ := by
      rw [hl] at hup
      exact fun hmem => hup (List.mem_append_right l₁ (List.mem_cons_of_mem n hmem))
    have hend : m.home d = l₂.foldl Disk.follow
        (Disk.follow (l₁.foldl Disk.follow (d.origin m.base)) n) := by
      rw [home, Disk.place, hl, List.foldl_append, List.foldl_cons]
    rw [← hhome, follow_of_extension hext] at hend
    have hlong := Disk.prefix_foldl hl₂ (m.home d ++ [n])
    rw [← hend] at hlong
    have hlength := hlong.length_le
    rw [List.length_append, List.length_singleton] at hlength
    omega

end Mailbox

end Letterbox
