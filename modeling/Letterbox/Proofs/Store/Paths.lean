import Letterbox.Proofs.Text.Cuts
import Letterbox.Store.Mailbox

/-!
# Where paths lead

Without links, a path that can be followed at all leads to a place that its text tells: names go
down, two dots lead back, dots and repeated slashes do nothing. What is appended to a path is its
last segment, and the name of a new message can be one.
-/

namespace Letterbox

set_option autoImplicit false

open Text

/-- What something in a directory can be called. -/
structure ProperName (n : String) : Prop where
  ne_empty : n ≠ ""
  ne_here : n ≠ "."
  ne_up : n ≠ ".."
  slash : '/' ∉ n.toList
  nul : '\x00' ∉ n.toList
  size : n.utf8ByteSize ≤ Disk.maxName

instance (n : String) : Decidable (ProperName n) :=
  decidable_of_iff (n ≠ "" ∧ n ≠ "." ∧ n ≠ ".." ∧ '/' ∉ n.toList ∧ '\x00' ∉ n.toList ∧
      n.utf8ByteSize ≤ Disk.maxName)
    ⟨fun h => ⟨h.1, h.2.1, h.2.2.1, h.2.2.2.1, h.2.2.2.2.1, h.2.2.2.2.2⟩,
      fun h => ⟨h.ne_empty, h.ne_here, h.ne_up, h.slash, h.nul, h.size⟩⟩

/-! ## Texts -/

theorem utf8ByteSize_ofList_le (cs : List Char) :
    (String.ofList cs).utf8ByteSize ≤ 4 * cs.length := by
  induction cs with
  | nil => decide
  | cons c cs ih =>
    have hc := c.utf8Size_le_four
    rw [String.ofList_cons, String.utf8ByteSize_append, String.utf8ByteSize_singleton,
      List.length_cons]
    omega

theorem toList_ne_nil {s : String} (h : s ≠ "") : s.toList ≠ [] :=
  fun hnil => h (String.toList_eq_nil_iff.mp hnil)

namespace Path

variable {base n : String}

theorem segments_of_proper (hn : ProperName n) : segments n = [n] := by
  rw [segments, splitAt_of_not_mem hn.slash,
    List.filter_cons_of_pos (by simpa using toList_ne_nil hn.ne_empty), List.filter_nil,
    List.map_singleton, String.ofList_toList]

theorem of_mem_segments {path s : String} (hs : s ∈ segments path) :
    s ≠ "" ∧ '/' ∉ s.toList ∧ s.toList ⊆ path.toList := by
  obtain ⟨w, hw, rfl⟩ := List.mem_map.mp hs
  obtain ⟨hw, hne⟩ := List.mem_filter.mp hw
  obtain ⟨hsep, hsub⟩ := of_mem_splitAt hw
  rw [String.toList_ofList]
  refine ⟨fun heq => ?_, hsep, hsub⟩
  rw [String.ofList_eq_empty_iff.mp heq] at hne
  exact absurd hne (by decide)

theorem segments_append_slash (base n : String) :
    segments (base ++ "/" ++ n) = segments base ++ segments n := by
  rw [segments, String.toList_append, String.toList_append, List.append_assoc,
    show "/".toList = ['/'] from rfl, List.singleton_append, splitAt_append_sep, List.filter_append,
    List.map_append, segments, segments]

/-- A slash at the end of a path does not add to its segments. -/
theorem segments_append_of_slash (h : base.toList.getLast? = some '/') (n : String) :
    segments (base ++ n) = segments base ++ segments n := by
  obtain ⟨cs, hcs⟩ := List.getLast?_eq_some_iff.mp h
  have hend : splitAt '/' base.toList = splitAt '/' cs ++ [[]] := by
    rw [hcs, splitAt_append_sep]
    rfl
  rw [segments, segments, segments, hend, String.toList_append, hcs, List.append_assoc,
    List.singleton_append, splitAt_append_sep, List.filter_append, List.map_append,
    List.filter_append, List.filter_cons_of_neg (by decide), List.filter_nil, List.append_nil]

theorem isRooted_of_proper (hn : ProperName n) : isRooted n = false := by
  rw [isRooted, decide_eq_false_iff_not]
  intro h
  exact hn.slash (List.mem_of_head? h)

/-- What is appended to a path by a name is that name. -/
theorem segments_join (base : String) (hn : ProperName n) :
    segments (join base n) = segments base ++ [n] := by
  rw [← segments_of_proper hn, join, isRooted_of_proper hn, if_neg Bool.false_ne_true]
  split
  · rename_i h
    rcases Bool.or_eq_true_iff.mp h with hempty | hslash
    · rw [String.isEmpty_iff.mp hempty]
      rfl
    · exact segments_append_of_slash (of_decide_eq_true hslash) n
  · exact segments_append_slash base n

theorem isRooted_join (base : String) (hn : ProperName n) :
    isRooted (join base n) = isRooted base := by
  have hfirst : ∀ s t : String, s ≠ "" → isRooted (s ++ t) = isRooted s := by
    intro s t hs
    rw [isRooted, isRooted, String.toList_append, List.head?_append_of_ne_nil _ (toList_ne_nil hs)]
  rw [join, isRooted_of_proper hn, if_neg Bool.false_ne_true]
  by_cases hbase : base = ""
  · subst hbase
    rw [if_pos (by decide), String.empty_append, isRooted_of_proper hn]
    rfl
  · split
    · exact hfirst base n hbase
    · rw [String.append_assoc]
      exact hfirst base _ hbase

theorem join_ne_empty (hn : ProperName n) : join base n ≠ "" := by
  intro h
  have hsegments := segments_join base hn
  rw [h] at hsegments
  exact List.append_ne_nil_of_right_ne_nil _ (List.cons_ne_nil n []) hsegments.symm

theorem join_cases (base : String) (hn : ProperName n) :
    join base n = base ++ n ∨ join base n = base ++ "/" ++ n := by
  rw [join, isRooted_of_proper hn, if_neg Bool.false_ne_true]
  split
  · exact .inl rfl
  · exact .inr rfl

theorem getLast?_join (hn : ProperName n) : (join base n).toList.getLast? = n.toList.getLast? := by
  rcases join_cases base hn with h | h <;>
    rw [h, String.toList_append, List.getLast?_append_of_ne_nil _ (toList_ne_nil hn.ne_empty)]

theorem utf8ByteSize_join (base : String) (hn : ProperName n) :
    base.utf8ByteSize + n.utf8ByteSize ≤ (join base n).utf8ByteSize ∧
      (join base n).utf8ByteSize ≤ base.utf8ByteSize + 1 + n.utf8ByteSize := by
  have hslash : "/".utf8ByteSize = 1 := by decide
  rcases join_cases base hn with h | h <;>
    · simp only [h, String.utf8ByteSize_append, hslash]
      omega

theorem mem_toList_join (hn : ProperName n) {c : Char} (hc : c ≠ '/') :
    c ∈ (join base n).toList ↔ c ∈ base.toList ∨ c ∈ n.toList := by
  rcases join_cases base hn with h | h
  · rw [h, String.toList_append, List.mem_append]
  · simp [h, String.toList_append, hc]

theorem fileName?_join (hn : ProperName n) : fileName? (join base n) = some n := by
  have hlast : (components (join base n)).parts.getLast? = some (.name n) := by
    rw [components, segments_join base hn, List.filter_append,
      List.filter_cons_of_pos (by simpa using hn.ne_here), List.filter_nil, List.map_append,
      List.map_singleton, componentOf, if_neg hn.ne_up, ← List.append_assoc,
      List.getLast?_append_cons]
    rfl
  rw [fileName?, hlast]

end Path

namespace Disk

variable {n : String}

def lead (p : Place) : Path.Component → Place
  | .here => p
  | .up => p.dropLast
  | .name n => p ++ [n]

/-- Where a path leads, as far as its text tells. -/
def place (d : Disk) (path : String) : Place := (Path.segments path).foldl follow (d.origin path)

theorem lead_componentOf {s : String} (hs : s ≠ ".") (p : Place) :
    lead p (Path.componentOf s) = follow p s := by
  unfold Path.componentOf follow
  rw [if_neg hs]
  split <;> rfl

theorem foldl_lead (p : Place) (l : List String) :
    ((l.filter (· ≠ ".")).map Path.componentOf).foldl lead p = l.foldl follow p := by
  induction l generalizing p with
  | nil => rfl
  | cons s l ih =>
    by_cases hs : s = "."
    · rw [List.filter_cons_of_neg (by simp [hs]), ih, List.foldl_cons, follow, if_pos hs]
    · rw [List.filter_cons_of_pos (by simpa using hs), List.map_cons, List.foldl_cons,
        lead_componentOf hs, ih, List.foldl_cons]

/-- Paths with the same components lead to the same place. -/
theorem place_eq_foldl_lead (d : Disk) (path : String) :
    d.place path = (Path.components path).parts.foldl lead (d.origin path) := by
  rw [Path.components, List.foldl_append, foldl_lead]
  split <;> rfl

theorem foldl_follow_segments (path : String) (p : Place) :
    (segments path).foldl follow p = (Path.segments path).foldl follow p := by
  rw [segments, List.foldl_append]
  split <;> rfl

theorem segments_join {base : String} (hn : ProperName n) :
    segments (Path.join base n) = Path.segments base ++ [n] := by
  have hlast : (Path.join base n).toList.getLast? ≠ some '/' := by
    rw [Path.getLast?_join hn]
    exact fun h => hn.slash (List.mem_of_getLast? h)
  rw [segments, if_neg hlast, List.append_nil, Path.segments_join base hn]

theorem origin_join (d : Disk) {base : String} (hn : ProperName n) :
    d.origin (Path.join base n) = d.origin base := by
  rw [origin, Path.isRooted_join base hn, origin]

theorem follow_of_proper (hn : ProperName n) (p : Place) : follow p n = p ++ [n] := by
  rw [follow, if_neg hn.ne_here, if_neg hn.ne_up]

theorem place_join (d : Disk) (base : String) (hn : ProperName n) :
    d.place (Path.join base n) = d.place base ++ [n] := by
  rw [place, Path.segments_join base hn, origin_join d hn, List.foldl_append, List.foldl_cons,
    List.foldl_nil, follow_of_proper hn, place]

theorem refusal?_eq_none {path : String} :
    refusal? path = none ↔ '\x00' ∉ path.toList ∧ path.utf8ByteSize ≤ maxPath := by
  simp only [refusal?, List.contains_iff_mem]
  split
  · rename_i h
    exact ⟨fun hnone => absurd hnone (Option.some_ne_none _), fun hno => absurd h hno.1⟩
  · rename_i h
    split
    · rename_i hlong
      exact ⟨fun hnone => absurd hnone (Option.some_ne_none _), fun hno => absurd hno.2 (by omega)⟩
    · rename_i hshort
      exact ⟨fun _ => ⟨h, by omega⟩, fun _ => rfl⟩

/-- A path is accepted if a longer one is. -/
theorem refusal?_of_join {base : String} (hn : ProperName n)
    (h : refusal? (Path.join base n) = none) : refusal? base = none := by
  obtain ⟨hnul, hsize⟩ := refusal?_eq_none.mp h
  have hlonger := Path.utf8ByteSize_join base hn
  rw [Path.mem_toList_join hn (by decide), not_or] at hnul
  exact refusal?_eq_none.mpr ⟨hnul.1, by omega⟩

/-- A path is accepted if the same name in a directory beside it is. -/
theorem refusal?_beside {base beside : String} (hn : ProperName n) (hbeside : ProperName beside)
    (h : refusal? (Path.join (Path.join base beside) n) = none) :
    refusal? (Path.join base n) = none := by
  have hbase := (refusal?_eq_none.mp (refusal?_of_join hbeside (refusal?_of_join hn h))).1
  have hsize := (refusal?_eq_none.mp h).2
  have hlong := Path.utf8ByteSize_join (Path.join base beside) hn
  have hlonger := Path.utf8ByteSize_join base hbeside
  have hshort := Path.utf8ByteSize_join base hn
  have hpositive : beside.utf8ByteSize ≠ 0 :=
    fun h => hbeside.ne_empty (String.utf8ByteSize_eq_zero_iff.mp h)
  refine refusal?_eq_none.mpr ⟨?_, by omega⟩
  rw [Path.mem_toList_join hn (by decide), not_or]
  exact ⟨hbase, hn.nul⟩

end Disk

/-! ## Names of messages -/

namespace Mailbox

/-- Every digit is below the base. -/
theorem digitChar_of_mem_fixedDigits {base width k : Nat} (hbase : 0 < base) {c : Char}
    (hc : c ∈ fixedDigits base width k) : ∃ d < base, c = digitChar d := by
  induction width generalizing k with
  | zero => cases hc
  | succ width ih =>
    rcases List.mem_append.mp hc with hc | hc
    · exact ih hc
    · exact ⟨k % base, Nat.mod_lt k hbase, List.mem_singleton.mp hc⟩

def stem (time : Nat) (unique : UInt32) : List Char :=
  fixedDigits 10 17 time ++ '-' :: fixedDigits 16 8 unique.toNat

theorem messageName_eq (time : Nat) (unique : UInt32) :
    messageName time unique = String.ofList (stem time unique ++ '.' :: extension.toList) := by
  have hextension : ".eml".toList = '.' :: extension.toList := by decide
  rw [messageName, hextension, stem]

theorem length_stem (time : Nat) (unique : UInt32) : (stem time unique).length = 26 := by
  rw [stem, List.length_append, List.length_cons, length_fixedDigits, length_fixedDigits]

theorem not_mem_stem {c : Char} (hdash : c ≠ '-') (hdigit : ∀ d < 16, c ≠ digitChar d) (time : Nat)
    (unique : UInt32) : c ∉ stem time unique := by
  intro hc
  rcases List.mem_append.mp hc with hc | hc
  · obtain ⟨d, hd, rfl⟩ := digitChar_of_mem_fixedDigits (by decide) hc
    exact hdigit d (by omega) rfl
  · rcases List.mem_cons.mp hc with rfl | hc
    · exact hdash rfl
    · obtain ⟨d, hd, rfl⟩ := digitChar_of_mem_fixedDigits (by decide) hc
      exact hdigit d hd rfl

theorem extension?_messageName (time : Nat) (unique : UInt32) :
    Path.extension? (messageName time unique) = some extension := by
  have hdot : '.' ∉ stem time unique := not_mem_stem (by decide) (by decide) time unique
  have hstem : (stem time unique).isEmpty = false := by
    rw [List.isEmpty_eq_false_iff, ← List.length_pos_iff, length_stem]
    decide
  rw [Path.extension?, messageName_eq, String.toList_ofList, splitAt_append hdot,
    splitAt_of_not_mem (by decide)]
  simp only [List.reverse_cons, List.reverse_nil, List.nil_append, List.singleton_append, hstem,
    Bool.and_false, Bool.false_eq_true, if_false]
  rfl

theorem proper_messageName (time : Nat) (unique : UInt32) :
    ProperName (messageName time unique) := by
  have hlength : (messageName time unique).toList.length = 30 := by
    rw [messageName_eq, String.toList_ofList, List.length_append, length_stem]
    rfl
  have hmem : ∀ c, c ≠ '-' → (∀ d < 16, c ≠ digitChar d) → c ∉ '.' :: extension.toList →
      c ∉ (messageName time unique).toList := by
    intro c hdash hdigit hext hc
    rw [messageName_eq, String.toList_ofList] at hc
    rcases List.mem_append.mp hc with hc | hc
    · exact not_mem_stem hdash hdigit time unique hc
    · exact hext hc
  refine ⟨?_, ?_, ?_, hmem _ (by decide) (by decide) (by decide),
    hmem _ (by decide) (by decide) (by decide), ?_⟩
  · intro h
    rw [h] at hlength
    cases hlength
  · intro h
    rw [h] at hlength
    cases hlength
  · intro h
    rw [h] at hlength
    cases hlength
  · have hsize := utf8ByteSize_ofList_le (messageName time unique).toList
    rw [hlength, String.ofList_toList] at hsize
    exact Nat.le_trans hsize (by decide)

theorem proper_drafts : ProperName ".tmp" :=
  ⟨by decide, by decide, by decide, by decide, by decide, by decide⟩

end Mailbox

end Letterbox
