import Letterbox.Proofs.Store.Listing
import Mathlib.Logic.Function.Basic

/-!
# What a mailbox holds

A mailbox as a map from names to bytes. A path that is accepted and leads to a file leads to one
among the messages, under the name at its end: that is what is loaded, and what deleting takes away.
-/

namespace Letterbox

set_option autoImplicit false

namespace Disk

variable {d d' : Disk} {p q : Place} {l : List String} {path : String} {data : Bytes} {t : Int}

def data? (d : Disk) (p : Place) : Option Bytes :=
  match d.item? p with
  | some (.file data _) => some data
  | _ => none

theorem data?_eq_some : d.data? p = some data ↔ ∃ t, d.item? p = some (.file data t) := by
  rw [data?]
  split
  · rename_i data' t hi
    simp [hi]
  · rename_i hno
    simp only [reduceCtorEq, false_iff, not_exists]
    exact fun t => hno data t

theorem data?_congr (h : d'.item? p = d.item? p) : d'.data? p = d.data? p := by
  rw [data?, h, data?]

theorem data?_put (hp : p ≠ []) (q : Place) :
    (d.put p (.file data t)).data? q = if q = p then some data else d.data? q := by
  by_cases hq : q = p
  · rw [data?, item?_put hp, if_pos hq, if_pos hq]
  · rw [data?, item?_put hp, if_neg hq, if_neg hq, data?]

theorem IsDirectory.data?_eq_none (h : d.IsDirectory p) : d.data? p = none := by
  obtain ⟨size, createdAt, hi⟩ := isDirectory_iff.mp h
  rw [data?, hi]

theorem data?_erase (hp : p ≠ []) (q : Place) :
    (d.erase p).data? q = if q = p then none else d.data? q := by
  by_cases hq : q = p
  · rw [data?, item?_erase hp, if_pos hq, if_pos hq]
  · rw [data?, item?_erase hp, if_neg hq, if_neg hq, data?]

/-- Neither dots nor two dots end a path that leads to a file. -/
theorem Tidy.segments_of_file (h : d.Tidy) (hr : d.resolve path = .ok p)
    (hfile : d.data? p = some data) :
    ∃ l n, Path.segments path = l ++ [n] ∧ n ≠ "." ∧ n ≠ ".." := by
  obtain ⟨t, hi⟩ := data?_eq_some.mp hfile
  obtain ⟨-, -, hw⟩ := resolve_eq_ok.mp hr
  have hnot : ¬d.IsDirectory p := by simp [isDirectory_of_item? hi, Item.isDirectory]
  rcases List.eq_nil_or_concat' (segments path) with hnil | ⟨l, s, hl⟩
  · rw [hnil] at hw
    cases hw
    exact absurd (h.origin path) hnot
  · -- the last segment starts from a directory, and dots lead to one
    rw [hl, walk_concat_eq_ok] at hw
    obtain ⟨-, hdir, -, rfl⟩ := hw
    unfold follow at hnot
    split at hnot
    · exact absurd hdir hnot
    · rename_i hhere
      split at hnot
      · obtain ⟨i, hi, -⟩ := hdir
        exact absurd (h.dropLast hi) hnot
      · rename_i hup
        refine ⟨l, s, ?_, hhere, hup⟩
        rw [segments] at hl
        split at hl
        · exact absurd (List.append_inj' hl rfl).2 (by simpa [eq_comm] using hhere)
        · rwa [List.append_nil] at hl

end Disk

namespace Mailbox

variable {m : Mailbox} {d d' : Disk} {n path : String} {data : Bytes}

/-! ## Paths to messages -/

theorem contains_join (hn : ProperName n) : m.contains (Path.join m.base n) = true := by
  have hrooted := Path.isRooted_join m.base hn
  have hsegments := Path.segments_join m.base hn
  have hhere : Path.beginsHere (Path.join m.base n) = Path.beginsHere m.base := by
    rw [Path.beginsHere, Path.beginsHere, hrooted, hsegments]
    cases Path.segments m.base with
    | nil => simp [hn.ne_here]
    | cons s l => rfl
  have hparts : (Path.components (Path.join m.base n)).parts =
      (Path.components m.base).parts ++ [.name n] := by
    simp only [Path.components, hhere, hsegments, List.filter_append, List.map_append,
      List.append_assoc]
    rw [List.filter_cons_of_pos (by simpa using hn.ne_here), List.filter_nil, List.map_singleton,
      Path.componentOf, if_neg hn.ne_up]
  have hparent : Path.parent? (Path.join m.base n) = some (Path.components m.base) := by
    rw [Path.parent?, Path.Components.parent?, hparts, if_neg (by simp), List.dropLast_concat]
    simp only [Path.components, hrooted]
  rw [contains, hparent, decide_eq_true_eq]

/-- A path that is accepted and ends in a name is the path of the mailbox and that name. -/
theorem parts_of_contains (hc : m.contains path = true) {l : List String}
    (hl : Path.segments path = l ++ [n]) (hhere : n ≠ ".") (hup : n ≠ "..") :
    Path.isRooted path = Path.isRooted m.base ∧
      (Path.components path).parts = (Path.components m.base).parts ++ [.name n] := by
  obtain ⟨parts, hparts⟩ : ∃ parts, (Path.components path).parts = parts ++ [.name n] := by
    refine ⟨(if Path.beginsHere path then [.here] else []) ++
      (l.filter (· ≠ ".")).map Path.componentOf, ?_⟩
    rw [Path.components, hl, List.filter_append, List.filter_cons_of_pos (by simpa using hhere),
      List.filter_nil, List.map_append, List.map_singleton, Path.componentOf, if_neg hup,
      List.append_assoc]
  have hparent := of_decide_eq_true hc
  rw [Path.parent?, Path.Components.parent?, hparts, if_neg (by simp), List.dropLast_concat,
    Option.some.injEq] at hparent
  rw [hparts]
  exact ⟨congrArg Path.Components.rooted hparent,
    congrArg (·.parts ++ [Path.Component.name n]) hparent⟩

/-- A path that is accepted and leads to a file leads to one among the messages. -/
theorem place_of_contains (h : d.Tidy) (hc : m.contains path = true)
    (hread : d.read path = .ok data) :
    ∃ n, Path.fileName? path = some n ∧ d.place path = m.home d ++ [n] ∧
      d.data? (m.home d ++ [n]) = some data := by
  obtain ⟨hr, hfile⟩ := Disk.read_eq_ok.mp hread
  have hdata := Disk.data?_eq_some.mpr hfile
  obtain ⟨l, n, hl, hhere, hup⟩ := h.segments_of_file hr hdata
  obtain ⟨hrooted, hparts⟩ := parts_of_contains hc hl hhere hup
  have hplace : d.place path = m.home d ++ [n] := by
    rw [Disk.place_eq_foldl_lead, hparts, List.foldl_append, home, Disk.place_eq_foldl_lead,
      Disk.origin, hrooted, ← Disk.origin]
    rfl
  refine ⟨n, ?_, hplace, hplace ▸ hdata⟩
  rw [Path.fileName?, hparts, List.getLast?_concat]

/-! ## Messages -/

abbrev Messages := String → Option Bytes

/-- The files among the messages that are named as such. -/
def messages (m : Mailbox) (d : Disk) : Messages := fun n =>
  if Path.extension? n = some extension then d.data? (m.home d ++ [n]) else none

theorem messages_eq_some : m.messages d n = some data ↔
    Path.extension? n = some extension ∧ d.data? (m.home d ++ [n]) = some data := by
  rw [messages]
  split
  · rename_i h
    simp [h]
  · rename_i h
    simp [h]

theorem messages_congr (hgrows : Disk.Grows d d')
    (h : ∀ n, d'.data? (m.home d ++ [n]) = d.data? (m.home d ++ [n])) :
    m.messages d' = m.messages d := by
  funext n
  rw [messages, messages, home_of_grows hgrows, h n]

/-- A change of one file among the messages. -/
theorem messages_update {now : Option Bytes} (hgrows : Disk.Grows d d')
    (hext : Path.extension? n = some extension)
    (h : ∀ x, d'.data? (m.home d ++ [x]) = if x = n then now else d.data? (m.home d ++ [x])) :
    m.messages d' = Function.update (m.messages d) n now := by
  funext x
  rw [Function.update_apply, messages, messages, home_of_grows hgrows, h x]
  by_cases hx : x = n
  · subst hx
    rw [if_pos rfl, if_pos rfl, if_pos hext]
  · rw [if_neg hx, if_neg hx]

theorem checkContained_eq_ok {u : Unit} :
    m.checkContained path = .ok u ↔ m.contains path = true := by
  rw [checkContained]
  split
  · rename_i hc
    simp [hc]
  · rename_i hc
    simp [hc]

theorem load_eq_ok {turn : Turn} : m.load d path turn = .ok data ↔
    m.contains path = true ∧ turn.mishap = none ∧ d.read path = .ok data := by
  rw [load, bind_eq_ok]
  simp only [checkContained_eq_ok]
  constructor
  · rintro ⟨-, hc, h⟩
    split at h
    · rename_i hdata
      cases h
      exact ⟨hc, Turn.attempt_eq_ok.mp hdata⟩
    · cases h
  · rintro ⟨hc, hread⟩
    refine ⟨(), hc, ?_⟩
    rw [Turn.attempt_eq_ok.mpr hread]
    rfl

theorem delete_eq_ok {turn : Turn} : m.delete d path turn = .ok d' ↔
    (∃ data, m.load d path turn = .ok data) ∧ d' = d.erase (d.place path) := by
  simp only [load_eq_ok]
  rw [delete, bind_eq_ok]
  simp only [checkContained_eq_ok]
  constructor
  · rintro ⟨-, hc, h⟩
    split at h
    · rename_i hd
      cases h
      obtain ⟨hmishap, hremove⟩ := Turn.attempt_eq_ok.mp hd
      obtain ⟨⟨data, hread⟩, rfl⟩ := Disk.remove_eq_ok.mp hremove
      exact ⟨⟨data, hc, hmishap, hread⟩, rfl⟩
    · cases h
  · rintro ⟨⟨data, hc, hmishap, hread⟩, rfl⟩
    refine ⟨(), hc, ?_⟩
    rw [Turn.attempt_eq_ok.mpr ⟨hmishap, Disk.remove_eq_ok.mpr ⟨⟨data, hread⟩, rfl⟩⟩]
    rfl

/-- What is loaded is the message of the name at the end of the path. -/
theorem load_messages {turn : Turn} (h : d.Tidy) (hload : m.load d path turn = .ok data) :
    ∃ n, Path.fileName? path = some n ∧ d.place path = m.home d ++ [n] ∧
      d.data? (m.home d ++ [n]) = some data ∧
        (Path.extension? n = some extension → m.messages d n = some data) := by
  obtain ⟨hc, -, hread⟩ := load_eq_ok.mp hload
  obtain ⟨n, hname, hplace, hdata⟩ := place_of_contains h hc hread
  exact ⟨n, hname, hplace, hdata, fun hext => messages_eq_some.mpr ⟨hext, hdata⟩⟩

/-- A message whose path can be followed is loaded. -/
theorem load_join (h : d.Tidy) (hreach : d.Reaches m.base)
    (hok : Disk.refusal? (Path.join m.base n) = none)
    (hn : d.data? (m.home d ++ [n]) = some data) :
    m.load d (Path.join m.base n) = .ok data := by
  obtain ⟨t, hi⟩ := Disk.data?_eq_some.mp hn
  have hproper := (h.parent hi).1
  have hplace : d.place (Path.join m.base n) = m.home d ++ [n] := Disk.place_join d _ hproper
  refine load_eq_ok.mpr ⟨contains_join hproper, rfl, Disk.read_eq_ok.mpr ⟨?_, t, ?_⟩⟩
  · exact (Disk.resolve_join hproper).mpr ⟨hok, hreach, hplace⟩
  · rw [hplace]
    exact hi

/-- What deleting leaves. -/
theorem delete_messages {turn : Turn} (h : d.Tidy) (hdelete : m.delete d path turn = .ok d') :
    d'.Tidy ∧ Disk.Grows d d' ∧ ∃ n, Path.fileName? path = some n ∧
      (Path.extension? n = some extension → ∃ data, m.messages d n = some data) ∧
        m.messages d' = Function.update (m.messages d) n none ∧
          ∀ q, q ≠ m.home d ++ [n] → d'.item? q = d.item? q := by
  obtain ⟨⟨data, hload⟩, rfl⟩ := delete_eq_ok.mp hdelete
  obtain ⟨n, hname, hplace, hdata, hmessage⟩ := load_messages h hload
  have hnil := Disk.place_ne_nil (m.home d) n
  have hfile : ¬d.IsDirectory (m.home d ++ [n]) := by
    obtain ⟨t, hi⟩ := Disk.data?_eq_some.mp hdata
    simp [Disk.isDirectory_of_item? hi, Item.isDirectory]
  have hgrows := Disk.Grows.erase hfile
  rw [hplace]
  refine ⟨h.erase hfile, hgrows, n, hname, fun hext => ⟨data, hmessage hext⟩, ?_, fun q hq => ?_⟩
  · by_cases hext : Path.extension? n = some extension
    · refine messages_update hgrows hext fun x => ?_
      rw [Disk.data?_erase hnil]
      simp only [List.append_cancel_left_eq, List.cons.injEq, and_true]
    · have hnone : m.messages d n = none := if_neg hext
      rw [← hnone, Function.update_eq_self]
      funext x
      rw [messages, messages, home_of_grows hgrows]
      by_cases hx : x = n
      · rw [hx, if_neg hext, if_neg hext]
      · have hother : m.home d ++ [x] ≠ m.home d ++ [n] := by simpa using hx
        rw [Disk.data?_erase hnil, if_neg hother]
  · rw [Disk.item?_erase hnil, if_neg hq]

end Mailbox

end Letterbox
