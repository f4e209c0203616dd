import Letterbox.Proofs.Smtp.EndOfData

/-!
# A receiver that ends lines at CR LF only

To such a receiver a carriage return or a line feed by itself is a byte like any other. A message
that is sent with dots in front of dots has no byte of that kind for it at the end of a line: it
takes the lines of the message, finds the single dot where it was put, and nowhere before.
-/

namespace Letterbox.Smtp

set_option autoImplicit false

open Lines

/-! ## Cutting at CR LF -/

/-- The pieces between the places where CR LF stands: one more than there are such places. -/
def splitCrlf : Bytes → List Bytes
  | [] => [[]]
  | 13 :: 10 :: rest => [] :: splitCrlf rest
  | b :: rest => (splitCrlf rest).modifyHead (b :: ·)

theorem splitCrlf_cons {b : UInt8} {rest : Bytes} (h : b = cr → rest.head? ≠ some lf) :
    splitCrlf (b :: rest) = (splitCrlf rest).modifyHead (b :: ·) := by
  apply splitCrlf.eq_3
  rintro more rfl rfl
  exact h rfl rfl

theorem splitCrlf_ne_nil (bs : Bytes) : splitCrlf bs ≠ [] := by
  induction bs using splitCrlf.induct with
  | case1 => exact List.cons_ne_nil _ _
  | case2 rest ih => exact List.cons_ne_nil _ _
  | case3 b rest hnot ih =>
    rw [splitCrlf.eq_3 b rest hnot]
    exact fun h => ih (List.modifyHead_eq_nil_iff.mp h)

/-- No two places overlap, so that a cut is made at every one of them. -/
theorem splitCrlf_append (before rest : Bytes) :
    splitCrlf (before ++ cr :: lf :: rest) = splitCrlf before ++ splitCrlf rest := by
  induction before using splitCrlf.induct with
  | case1 => rfl
  | case2 before ih => exact congrArg ([] :: ·) ih
  | case3 b before hnot ih =>
    have halone : b = cr → before.head? ≠ some lf := by
      intro hb hhead
      obtain ⟨more, rfl⟩ := List.head?_eq_some_iff.mp hhead
      exact hnot more hb rfl
    have hwhole : b = cr → (before ++ cr :: lf :: rest).head? ≠ some lf := by
      intro hb
      cases before with
      | nil => exact fun h => absurd (Option.some.inj h) (by decide)
      | cons c before => exact halone hb
    obtain ⟨l, ls, hls⟩ := List.exists_cons_of_ne_nil (splitCrlf_ne_nil before)
    rw [List.cons_append, splitCrlf_cons hwhole, splitCrlf_cons halone, ih, hls]
    rfl

theorem splitCrlf_of_not_mem {l : Bytes} (h : lf ∉ l) : splitCrlf l = [l] := by
  induction l with
  | nil => rfl
  | cons b l ih =>
    rw [List.mem_cons, not_or] at h
    have hhead : l.head? ≠ some lf := fun hhead => h.2 (List.mem_of_head? hhead)
    rw [splitCrlf_cons fun _ => hhead, ih h.2]
    rfl

theorem splitCrlf_rows {ls : List Bytes} (h : ∀ l ∈ ls, lf ∉ l) (rest : Bytes) :
    splitCrlf (ls.flatMap (· ++ [cr, lf]) ++ rest) = ls ++ splitCrlf rest := by
  induction ls with
  | nil => rfl
  | cons l ls ih =>
    have hfirst := splitCrlf_append l (ls.flatMap (· ++ [cr, lf]) ++ rest)
    rw [splitCrlf_of_not_mem (h l List.mem_cons_self),
      ih fun k hk => h k (List.mem_cons_of_mem l hk)] at hfirst
    rw [List.flatMap_cons, List.append_assoc, List.append_assoc]
    exact hfirst

/-! ## The lines of a text -/

def closed (data : Bytes) : Bytes :=
  if data = [] ∨ data.getLast? = some lf then data else data ++ [lf]

/-- One carriage return before a line feed belongs to the end of the line. -/
def withoutReturn (l : Bytes) : Bytes := if l.getLast? = some cr then l.dropLast else l

def textLines (data : Bytes) : List Bytes := (lines (closed data)).map withoutReturn

theorem splitLf_ne_nil (bs : Bytes) : splitLf bs ≠ [] := by
  induction bs using induction_on_lines with
  | rest bs h =>
    rw [splitLf_of_not_mem h]
    exact List.cons_ne_nil _ _
  | line l after h ih =>
    rw [splitLf_append_cons h]
    exact List.cons_ne_nil _ _

theorem lines_concat (bs : Bytes) : lines (bs ++ [lf]) = splitLf bs := by
  induction bs using induction_on_lines with
  | rest bs h => rw [lines_append_cons h, splitLf_of_not_mem h, lines_of_not_mem List.not_mem_nil]
  | line l after h ih =>
    rw [List.append_assoc, List.cons_append, lines_append_cons h, ih, splitLf_append_cons h]

theorem messageLines_eq {data : Bytes} (h : data ≠ []) : messageLines data = textLines data := by
  have hbody : lines (closed data) =
      splitLf (if data.getLast? = some lf then data.dropLast else data) := by
    unfold closed
    by_cases hlast : data.getLast? = some lf
    · rw [if_pos (.inr hlast), if_pos hlast, ← lines_concat]
      obtain ⟨body, rfl⟩ := List.getLast?_eq_some_iff.mp hlast
      rw [List.dropLast_concat]
    · rw [if_neg (by simp [h, hlast]), if_neg hlast, lines_concat]
  rw [textLines, hbody]
  rfl

/-! ## What is sent -/

/-- Takes off a dot in front, whatever stands behind it. -/
def undotted : Bytes → Bytes
  | 46 :: rest => rest
  | l => l

theorem undotted_stuffed (l : Bytes) : undotted (stuffed l) = l := by
  by_cases h : l.head? = some 46
  · obtain ⟨rest, rfl⟩ := List.head?_eq_some_iff.mp h
    rfl
  · rw [stuffed_of_ne h]
    unfold undotted
    split
    · exact absurd rfl h
    · rfl

theorem undotted_sentLines (data : Bytes) : (sentLines data).map undotted = textLines data := by
  by_cases h : data = []
  · subst h
    rfl
  · have hempty : data.isEmpty = false := List.isEmpty_eq_false_iff.mpr h
    have hid : undotted ∘ stuffed = id := funext undotted_stuffed
    rw [sentLines, hempty, if_neg Bool.false_ne_true, List.map_map, hid, List.map_id,
      messageLines_eq h]

theorem terminator_not_mem_sentLines (data : Bytes) : [46] ∉ sentLines data := by
  unfold sentLines
  split
  · exact List.not_mem_nil
  · intro h
    obtain ⟨l, -, hl⟩ := List.mem_map.mp h
    exact stuffed_ne_terminator l hl

theorem splitCrlf_dotStuff (data rest : Bytes) :
    splitCrlf (dotStuff data ++ rest) = sentLines data ++ splitCrlf rest := by
  rw [dotStuff_eq]
  exact splitCrlf_rows (fun l hl => lf_not_mem_sentLines hl) rest

theorem dotStuff_eq_nil_iff (data : Bytes) : dotStuff data = [] ↔ data = [] := by
  constructor
  · intro h
    have hlines := splitCrlf_dotStuff data []
    by_contra hne
    have hsent : sentLines data = [] := by
      rw [h] at hlines
      exact List.append_left_eq_self.mp hlines.symm
    have htext := undotted_sentLines data
    rw [hsent, ← messageLines_eq hne] at htext
    exact splitLf_ne_nil _ (List.map_eq_nil_iff.mp htext.symm)
  · rintro rfl
    rfl

theorem suffix_rows {ls : List Bytes} (h : ls.flatMap (· ++ [cr, lf]) ≠ []) :
    [cr, lf] <:+ ls.flatMap (· ++ [cr, lf]) := by
  rcases List.eq_nil_or_concat' ls with rfl | ⟨ls, l, rfl⟩
  · exact absurd rfl h
  · rw [List.flatMap_append, List.flatMap_singleton, ← List.append_assoc]
    exact List.suffix_append _ _

/-- A line feed stands at the end of a row, and so behind a carriage return. -/
theorem return_before_lf {ls : List Bytes} (h : ∀ l ∈ ls, lf ∉ l) {before after : Bytes}
    (heq : ls.flatMap (· ++ [cr, lf]) = before ++ lf :: after) : [cr] <:+ before := by
  induction ls generalizing before with
  | nil => simp at heq
  | cons l ls ih =>
    have hl : lf ∉ l ++ [cr] := by
      simp only [List.mem_append, List.mem_singleton, not_or]
      exact ⟨h l List.mem_cons_self, by decide⟩
    have hrow : (l ++ [cr]) ++ lf :: ls.flatMap (· ++ [cr, lf]) = before ++ lf :: after := by
      rw [← heq, List.flatMap_cons, List.append_assoc, List.append_assoc]
      rfl
    rcases List.append_eq_append_iff.mp hrow with ⟨more, rfl, hmore⟩ | ⟨rest, hrest, hfirst⟩
    · cases more with
      | nil =>
        rw [List.append_nil]
        exact List.suffix_append l [cr]
      | cons b more =>
        rw [List.cons_append, List.cons.injEq] at hmore
        have hlater := ih (fun k hk => h k (List.mem_cons_of_mem l hk)) hmore.2
        exact (hlater.trans (List.suffix_cons b more)).trans (List.suffix_append _ _)
    · -- Otherwise the line feed would stand within the row.
      cases rest with
      | nil =>
        rw [← List.append_nil before, ← hrest]
        exact List.suffix_append l [cr]
      | cons b rest =>
        rw [List.cons_append, List.cons.injEq] at hfirst
        rw [hrest, ← hfirst.1] at hl
        exact absurd (List.mem_append_right before List.mem_cons_self) hl

/-- Behind a CR LF put in front, no single dot is a line of a message. -/
theorem terminator_not_infix (data : Bytes) :
    ¬[cr, lf, 46, cr, lf] <:+: [cr, lf] ++ dotStuff data := by
  rintro ⟨before, after, heq⟩
  have hcut : splitCrlf (before ++ [cr, lf, 46, cr, lf] ++ after) =
      splitCrlf before ++ [46] :: splitCrlf after := by
    have hfirst := splitCrlf_append before ([46, cr, lf] ++ after)
    have hnext := splitCrlf_append [46] after
    rw [List.append_assoc]
    exact hfirst.trans (congrArg (splitCrlf before ++ ·) hnext)
  have hwhole : splitCrlf ([cr, lf] ++ dotStuff data) = [] :: (sentLines data ++ [[]]) := by
    have hlines := splitCrlf_dotStuff data []
    rw [List.append_nil] at hlines
    exact congrArg ([] :: ·) hlines
  have hmem : [46] ∈ [] :: (sentLines data ++ [[]]) := by
    rw [← hwhole, ← heq, hcut]
    exact List.mem_append_right _ List.mem_cons_self
  have hdot : [46] ∉ sentLines data := terminator_not_mem_sentLines data
  simp [hdot] at hmem

/-- Nowhere before the end of a message does the row of bytes stand that ends it. -/
theorem length_le_of_terminator {data more before after : Bytes}
    (heq : [cr, lf] ++ dataStream data ++ more = before ++ [cr, lf, 46, cr, lf] ++ after) :
    (dotStuff data).length ≤ before.length := by
  by_contra hless
  have hwhole : before ++ [cr, lf, 46, cr, lf] <+: [cr, lf] ++ dataStream data ++ more :=
    ⟨after, heq.symm⟩
  have hshort : before ++ [cr, lf, 46, cr, lf] <+: [cr, lf] ++ dotStuff data ++ [46] ++ [cr] := by
    refine List.prefix_of_prefix_length_le hwhole ⟨[lf] ++ more, ?_⟩ ?_
    · simp only [dataStream, List.append_assoc, List.cons_append, List.nil_append]
    · simp only [List.length_append, List.length_cons, List.length_nil]
      omega
  -- The last byte of the row is a line feed, and the two behind the message are not.
  have hlast : ∀ (l : Bytes) (b : UInt8), b ≠ lf → before ++ [cr, lf, 46, cr, lf] ≠ l ++ [b] := by
    intro l b hb h
    have hend := congrArg List.getLast? h
    rw [List.getLast?_append_of_ne_nil _ (List.cons_ne_nil _ _), List.getLast?_concat] at hend
    exact hb (Option.some.inj hend).symm
  rcases List.prefix_concat_iff.mp hshort with h | h
  · exact hlast _ cr (by decide) h
  · rcases List.prefix_concat_iff.mp h with h | h
    · exact hlast _ 46 (by decide) h
    · exact terminator_not_infix data ((List.suffix_append before _).isInfix.trans h.isInfix)

/-- A message on its way to a receiver that ends lines at CR LF only, with whatever comes behind it.
Only an empty one is sent as nothing, and any other ends in CR LF. Every line feed in it stands
behind a carriage return. A single dot is no line of it, so that the first one is that which was put
behind it, and its lines without the dots in front of them are the lines of the message. -/
theorem dotStuff_exact (data more : Bytes) :
    (dotStuff data = [] ↔ data = []) ∧ (dotStuff data = [] ∨ [cr, lf] <:+ dotStuff data) ∧
      (∀ before after, dotStuff data = before ++ lf :: after → [cr] <:+ before) ∧
      ¬[46, cr, lf] <+: dotStuff data ∧ ¬[cr, lf, 46, cr, lf] <:+: dotStuff data ∧
      (∀ before after, [cr, lf] ++ dataStream data ++ more =
        before ++ [cr, lf, 46, cr, lf] ++ after → (dotStuff data).length ≤ before.length) ∧
      ∃ ls, splitCrlf (dotStuff data) = ls ++ [[]] ∧ [46] ∉ ls ∧
        splitCrlf (dataStream data ++ more) = ls ++ [46] :: splitCrlf more ∧
        ls.map undotted = textLines data := by
  have hrows := dotStuff_eq data
  refine ⟨dotStuff_eq_nil_iff data, ?_, ?_, ?_, ?_, ?_, sentLines data, ?_, ?_, ?_, ?_⟩
  · rw [or_iff_not_imp_left, hrows]
    exact suffix_rows
  · intro before after heq
    rw [hrows] at heq
    exact return_before_lf (fun l hl => lf_not_mem_sentLines hl) heq
  · rintro ⟨after, heq⟩
    apply terminator_not_infix data
    exact ⟨[], after, by rw [← heq]; rfl⟩
  · intro h
    exact terminator_not_infix data (h.trans (List.suffix_append _ _).isInfix)
  · intro before after heq
    exact length_le_of_terminator heq
  · have hlines := splitCrlf_dotStuff data []
    rwa [List.append_nil] at hlines
  · exact terminator_not_mem_sentLines data
  · have hdot : splitCrlf ([46, cr, lf] ++ more) = [46] :: splitCrlf more :=
      splitCrlf_append [46] more
    rw [dataStream, List.append_assoc, splitCrlf_dotStuff, hdot]
  · exact undotted_sentLines data

example : dotStuff (Utf8.encode ".a\n\r\r\n.\nb\r") = Utf8.encode "..a\r\n\r\r\n..\r\nb\r\n" ∧
    textLines (Utf8.encode ".a\n\r\r\n.\nb\r") = [".a", "\r", ".", "b"].map Utf8.encode := by
  decide

end Letterbox.Smtp
