import Letterbox.Message.Headers
import Letterbox.Proofs.Text.Cuts

/-!
# Headers line by line

The header block of a message is found by its text, as what stands before two line ends in a row.
For a message that is made of whole lines this is told from the lines: the block has the first line,
whatever it is, and those after it up to an empty one.
-/

namespace Letterbox

set_option autoImplicit false

namespace Text

/-- What is looked for begins with a character that the first part does not have. -/
theorem cutAround_append {c : Char} {w : List Char} (hc : c ∉ w) (needle rest : List Char) :
    cutAround (c :: needle) (w ++ rest) =
      (cutAround (c :: needle) rest).map fun (before, after) => (w ++ before, after) := by
  induction w with
  | nil => simp only [List.nil_append, Option.map_id']
  | cons d w ih =>
    rw [List.mem_cons, not_or] at hc
    have hnot : (c :: needle).isPrefixOf (d :: (w ++ rest)) = false := by
      rw [List.isPrefixOf, beq_eq_false_iff_ne.mpr hc.1, Bool.false_and]
    rw [List.cons_append, cutAround, hnot, ih hc.2, if_neg Bool.false_ne_true, Option.map_map]
    rfl

end Text

namespace Message

open Text

def newline : List Char := ['\r', '\n']

def rows (ws : List (List Char)) : List Char := ws.flatMap (· ++ newline)

def Whole (w : List Char) : Prop := '\r' ∉ w ∧ '\n' ∉ w

theorem rows_cons (w : List Char) (ws : List (List Char)) :
    rows (w :: ws) = w ++ '\r' :: '\n' :: rows ws := by
  rw [rows, List.flatMap_cons, List.append_assoc]
  rfl

/-! ## Where the block ends -/

theorem cutAround_empty_line {w : List Char} (hw : '\r' ∉ w) (rest : List Char) :
    cutAround (newline ++ newline) (w ++ (newline ++ (newline ++ rest))) = some (w, rest) := by
  rw [newline, List.cons_append, cutAround_append hw]
  simp [cutAround]

/-- A line is passed over if the next one is not empty. -/
theorem cutAround_full_line {w : List Char} (hw : '\r' ∉ w) {c : Char} (hc : '\r' ≠ c)
    (rest : List Char) :
    cutAround (newline ++ newline) (w ++ (newline ++ c :: rest)) =
      (cutAround (newline ++ newline) (c :: rest)).map
        fun (before, after) => (w ++ newline ++ before, after) := by
  have hfeed := cutAround_append (show '\r' ∉ ['\n'] by decide) ['\n', '\r', '\n'] (c :: rest)
  have hnot : ['\r', '\n', '\r', '\n'].isPrefixOf ('\r' :: '\n' :: c :: rest) = false := by
    simp [List.isPrefixOf, hc]
  rw [List.singleton_append] at hfeed
  rw [newline, List.cons_append, List.cons_append, List.cons_append, List.cons_append,
    List.nil_append, List.nil_append, cutAround_append hw, cutAround, hnot,
    if_neg Bool.false_ne_true, hfeed, Option.map_map, Option.map_map]
  apply congrArg (Option.map · _)
  funext parts
  simp only [Function.comp_apply, List.append_assoc, List.cons_append, List.nil_append]

/-- After a line that is not the last one comes a cut if the next one is empty, and otherwise the
search goes on in the next one. -/
theorem cutAround_rows_cons {w : List Char} (hw : Whole w) {v : List Char} (hv : '\r' ∉ v)
    (ws : List (List Char)) :
    cutAround (newline ++ newline) (rows (w :: v :: ws)) =
      if v = [] then some (w, rows ws)
      else (cutAround (newline ++ newline) (rows (v :: ws))).map
        fun (before, after) => (w ++ newline ++ before, after) := by
  rw [rows_cons]
  split
  · rename_i hempty
    rw [hempty, rows_cons]
    exact cutAround_empty_line hw.1 (rows ws)
  · rename_i hne
    obtain ⟨c, v, rfl⟩ := List.exists_cons_of_ne_nil hne
    have hc : '\r' ≠ c := fun heq => hv (heq ▸ List.mem_cons_self)
    rw [rows_cons]
    exact cutAround_full_line hw.1 hc (v ++ '\r' :: '\n' :: rows ws)

theorem splitBlock_of_cut {cs : List Char} {parts : List Char × List Char}
    (h : cutAround (newline ++ newline) cs = some parts) : splitBlock cs = parts := by
  simp only [splitBlock]
  rw [show cutAround ['\r', '\n', '\r', '\n'] cs = some parts from h]

theorem splitBlock_of_no_cut {cs : List Char} (h : cutAround (newline ++ newline) cs = none)
    (hfeeds : cutAround ['\n', '\n'] cs = none) : splitBlock cs = (cs, []) := by
  simp only [splitBlock]
  rw [show cutAround ['\r', '\n', '\r', '\n'] cs = none from h, hfeeds]

/-- The cut is at the first empty line after the first line. -/
theorem cutAround_rows {w : List Char} {ws : List (List Char)} (h : ∀ v ∈ w :: ws, Whole v) :
    cutAround (newline ++ newline) (rows (w :: ws)) =
      match ws.dropWhile (!·.isEmpty) with
      | [] => none
      | _ :: body => some (newline.intercalate (w :: ws.takeWhile (!·.isEmpty)), rows body) := by
  induction ws generalizing w with
  | nil =>
    have hstep := cutAround_append (h w List.mem_cons_self).1 ['\n', '\r', '\n'] newline
    rw [rows_cons]
    exact hstep
  | cons v ws ih =>
    have hrest : ∀ u ∈ v :: ws, Whole u := fun u hu => h u (List.mem_cons_of_mem w hu)
    rw [cutAround_rows_cons (h w List.mem_cons_self) (hrest v List.mem_cons_self).1]
    cases v with
    | nil => simp
    | cons c v =>
      -- A line that is not empty is passed over: the cut is where it is in the rest.
      rw [if_neg (List.cons_ne_nil c v), ih hrest]
      simp only [List.dropWhile_cons, List.takeWhile_cons, List.isEmpty_cons, Bool.not_false,
        if_true]
      cases ws.dropWhile (!·.isEmpty) with
      | nil => rfl
      | cons u body => rw [Option.map_some, List.intercalate_cons_cons]

/-- There is a carriage return before each line feed. -/
theorem cutAround_feeds_rows {ws : List (List Char)} (h : ∀ v ∈ ws, Whole v) :
    cutAround ['\n', '\n'] (rows ws) = none := by
  induction ws with
  | nil => rfl
  | cons w ws ih =>
    have hrest : ∀ u ∈ ws, Whole u := fun u hu => h u (List.mem_cons_of_mem w hu)
    have hnext : ['\n'].isPrefixOf (rows ws) = false := by
      cases ws with
      | nil => rfl
      | cons v ws =>
        rw [rows_cons]
        cases v with
        | nil => rfl
        | cons c v =>
          have hc : '\n' ≠ c := fun heq =>
            (hrest (c :: v) List.mem_cons_self).2 (heq ▸ List.mem_cons_self)
          simp [List.isPrefixOf, hc]
    have hnot : ['\n', '\n'].isPrefixOf ('\n' :: rows ws) = false := by
      rw [List.isPrefixOf, hnext, Bool.and_false]
    have hreturn : cutAround ['\n', '\n'] ('\r' :: '\n' :: rows ws) =
        (cutAround ['\n', '\n'] ('\n' :: rows ws)).map
          fun (before, after) => ('\r' :: before, after) := rfl
    rw [rows_cons, cutAround_append (h w List.mem_cons_self).2, hreturn, cutAround, hnot,
      if_neg Bool.false_ne_true, ih hrest]
    rfl

/-! ## The lines of the block -/

theorem blockLines_append {w : List Char} (hw : '\n' ∉ w) (rest : List Char) :
    blockLines (w ++ '\r' :: '\n' :: rest) = w :: blockLines rest := by
  have hfeed : '\n' ∉ w ++ ['\r'] := by
    rw [List.mem_append, not_or]
    exact ⟨hw, by decide⟩
  have hsplit : splitAt '\n' (w ++ '\r' :: '\n' :: rest) =
      (w ++ ['\r']) :: splitAt '\n' rest := by
    rw [← splitAt_append hfeed, List.append_assoc, List.singleton_append]
  have hdrop : dropReturn (w ++ ['\r']) = w := by
    rw [dropReturn, List.getLast?_concat, if_pos rfl, List.dropLast_concat]
  obtain ⟨v, vs, hvs⟩ := List.exists_cons_of_ne_nil (splitAt_ne_nil '\n' rest)
  simp only [blockLines, hsplit, hvs]
  rw [List.dropLast_cons_cons, List.map_cons, hdrop, List.getLast?_cons_cons, List.cons_append]

theorem blockLines_of_not_mem {w : List Char} (hw : '\n' ∉ w) :
    blockLines w = [w].filter (!·.isEmpty) := by
  simp only [blockLines, splitAt_of_not_mem hw]
  cases w <;> rfl

theorem blockLines_rows {ws : List (List Char)} (h : ∀ v ∈ ws, Whole v) :
    blockLines (rows ws) = ws := by
  induction ws with
  | nil => rfl
  | cons w ws ih =>
    rw [rows_cons, blockLines_append (h w List.mem_cons_self).2,
      ih fun u hu => h u (List.mem_cons_of_mem w hu)]

/-- Without an end of the last line it is not seen if it is empty. -/
theorem blockLines_intercalate {w : List Char} {ws : List (List Char)}
    (h : ∀ v ∈ w :: ws, Whole v) :
    (blockLines (newline.intercalate (w :: ws))).filter (!·.isEmpty) =
      (w :: ws).filter (!·.isEmpty) := by
  induction ws generalizing w with
  | nil =>
    rw [List.intercalate_singleton, blockLines_of_not_mem (h w List.mem_cons_self).2,
      List.filter_filter]
    simp only [Bool.and_self]
  | cons v ws ih =>
    have hrest : ∀ u ∈ v :: ws, Whole u := fun u hu => h u (List.mem_cons_of_mem w hu)
    have hjoin : newline.intercalate (w :: v :: ws) =
        w ++ '\r' :: '\n' :: newline.intercalate (v :: ws) := by
      rw [List.intercalate_cons_cons, List.append_assoc]
      rfl
    rw [hjoin, blockLines_append (h w List.mem_cons_self).2, List.filter_cons, List.filter_cons,
      ih hrest]

/-- The first line, and the lines after it up to an empty one. -/
def topLines {α : Type} : List (List α) → List (List α)
  | [] => []
  | w :: ws => w :: ws.takeWhile (!·.isEmpty)

theorem topLines_subset {α : Type} (ws : List (List α)) : topLines ws ⊆ ws := by
  cases ws with
  | nil => exact List.nil_subset _
  | cons w ws => exact List.cons_subset_cons w (List.takeWhile_sublist _).subset

theorem blockLines_splitBlock_rows {ws : List (List Char)} (h : ∀ v ∈ ws, Whole v) :
    (blockLines (splitBlock (rows ws)).1).filter (!·.isEmpty) =
      (topLines ws).filter (!·.isEmpty) := by
  cases ws with
  | nil => rfl
  | cons w ws =>
    have hcut := cutAround_rows h
    have hsplit := List.takeWhile_append_dropWhile (p := (!·.isEmpty)) (l := ws)
    cases hbody : ws.dropWhile (!·.isEmpty) with
    | nil =>
      rw [hbody] at hcut hsplit
      rw [List.append_nil] at hsplit
      rw [splitBlock_of_no_cut hcut (cutAround_feeds_rows h), blockLines_rows h, topLines, hsplit]
    | cons u body =>
      rw [hbody] at hcut
      rw [splitBlock_of_cut hcut]
      exact blockLines_intercalate fun v hv => h v (topLines_subset _ hv)

/-! ## Joining -/

def unfoldLine (headers : List (List Char)) (line : List Char) : List (List Char) :=
  if isContinuation line then
    match headers.getLast? with
    | none => headers
    | some h => headers.dropLast ++ [h ++ ' ' :: trimChars line]
  else if line.isEmpty then headers
  else headers ++ [line]

theorem unfold_eq_foldl (ws : List (List Char)) : unfold ws = ws.foldl unfoldLine [] := rfl

/-- Empty lines do not count. -/
theorem unfold_filter (ws : List (List Char)) : unfold (ws.filter (!·.isEmpty)) = unfold ws := by
  rw [unfold_eq_foldl, unfold_eq_foldl, List.foldl_filter]
  apply congrArg (List.foldl · [] ws)
  funext headers w
  cases w with
  | nil => rfl
  | cons c w => rfl

theorem unfoldLine_ne_nil {headers : List (List Char)} (h : headers ≠ []) (w : List Char) :
    unfoldLine headers w ≠ [] := by
  unfold unfoldLine
  split
  · split
    · exact h
    · exact List.append_ne_nil_of_right_ne_nil _ (List.cons_ne_nil _ _)
  · split
    · exact h
    · exact List.append_ne_nil_of_left_ne_nil h _

theorem foldl_unfoldLine_ne_nil {headers : List (List Char)} (h : headers ≠ [])
    (ws : List (List Char)) : ws.foldl unfoldLine headers ≠ [] := by
  induction ws generalizing headers with
  | nil => exact h
  | cons w ws ih => exact ih (unfoldLine_ne_nil h w)

/-- Without a line that a header begins with there are no headers. -/
theorem unfold_eq_nil_iff (ws : List (List Char)) :
    unfold ws = [] ↔ ∀ w ∈ ws, isContinuation w = true ∨ w = [] := by
  rw [unfold_eq_foldl]
  induction ws with
  | nil => simp
  | cons w ws ih =>
    rw [List.foldl_cons, List.forall_mem_cons]
    by_cases hw : isContinuation w = true ∨ w = []
    · have hnone : unfoldLine [] w = [] := by
        rcases hw with hw | rfl
        · rw [unfoldLine, if_pos hw]
          rfl
        · rfl
      rw [hnone, ih, and_iff_right hw]
    · rw [not_or] at hw
      have hfirst : unfoldLine [] w = [w] := by
        rw [unfoldLine, if_neg hw.1, if_neg (by simpa using hw.2), List.nil_append]
      rw [hfirst]
      constructor
      · intro hnil
        exact absurd hnil (foldl_unfoldLine_ne_nil (List.cons_ne_nil w []) ws)
      · intro hall
        exact absurd hall.1 (not_or.mpr hw)

theorem headersOf_rows {ws : List (List Char)} (h : ∀ v ∈ ws, Whole v) :
    headersOf (rows ws) = unfold (topLines ws) := by
  rw [headersOf, ← unfold_filter, blockLines_splitBlock_rows h, unfold_filter]

end Message

end Letterbox
