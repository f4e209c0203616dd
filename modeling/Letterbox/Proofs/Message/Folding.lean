import Letterbox.Proofs.Message.Headers
import Letterbox.Proofs.Text.Utf8
import Mathlib.Data.List.Forall2

/-!
# Folded headers

A header may be broken where a single space stands between two characters that are not blank: a line
end and any blanks take the place of the space. However the headers of a message are folded, and
whatever its body is, the same headers are read from it.
-/

namespace Letterbox.Message

set_option autoImplicit false

open Text

/-- The last character is not blank. -/
def EndsFull (w : List Char) : Prop := ∃ c ∈ w.getLast?, isBlank c = false

/-- What can stand in a header. -/
structure HeaderText (h : List Char) : Prop where
  whole : Whole h
  first : isContinuation h = false
  last : EndsFull h

/-- The ways to fold a text. -/
inductive Folds : List Char → List Char → Prop where
  | whole (h : List Char) : Folds h h
  | fold {a b : Char} {blanks back folded : List Char} (front : List Char)
      (ha : isBlank a = false) (hb : isBlank b = false)
      (hne : blanks ≠ []) (hblanks : ∀ c ∈ blanks, c = ' ' ∨ c = '\t')
      (hback : Folds (b :: back) folded) :
      Folds (front ++ a :: ' ' :: b :: back) (front ++ a :: (newline ++ (blanks ++ folded)))

/-! ## Blanks at both ends -/

theorem endsFull_concat {c : Char} (hc : isBlank c = false) (w : List Char) :
    EndsFull (w ++ [c]) := ⟨c, List.getLast?_concat, hc⟩

theorem EndsFull.of_append_cons {v w : List Char} {c : Char} (h : EndsFull (v ++ c :: w)) :
    EndsFull (c :: w) := by
  obtain ⟨d, hd, hfull⟩ := h
  rw [List.getLast?_append_cons] at hd
  exact ⟨d, hd, hfull⟩

theorem EndsFull.dropBlanksEnd {w : List Char} (h : EndsFull w) : dropBlanksEnd w = w := by
  obtain ⟨c, hc, hfull⟩ := h
  obtain ⟨v, rfl⟩ := List.getLast?_eq_some_iff.mp hc
  exact dropBlanksEnd_concat hfull v

theorem isBlank_of_space_or_tab {c : Char} (h : c = ' ' ∨ c = '\t') : isBlank c = true := by
  rcases h with rfl | rfl <;> decide

theorem trimChars_blanks_append {blanks w : List Char} {b : Char}
    (hblanks : ∀ c ∈ blanks, c = ' ' ∨ c = '\t') (hfirst : w.head? = some b)
    (hb : isBlank b = false) (hlast : EndsFull w) : trimChars (blanks ++ w) = w := by
  obtain ⟨v, rfl⟩ := List.head?_eq_some_iff.mp hfirst
  have hskip : skipBlanks (blanks ++ b :: v) = b :: v := by
    rw [skipBlanks, List.dropWhile_append_of_pos fun c hc => isBlank_of_space_or_tab (hblanks c hc)]
    exact skipBlanks_cons hb v
  rw [trimChars, hskip, hlast.dropBlanksEnd]

/-! ## The lines of a folded header -/

theorem isContinuation_congr {v w : List Char} (h : v.head? = w.head?) :
    isContinuation v = isContinuation w := by
  cases v with
  | nil =>
    obtain rfl : w = [] := List.head?_eq_none_iff.mp h.symm
    rfl
  | cons c v =>
    obtain ⟨w, rfl⟩ := List.head?_eq_some_iff.mp h.symm
    unfold isContinuation
    split <;> split <;> simp_all

theorem isContinuation_blanks_append {blanks : List Char} (hne : blanks ≠ [])
    (hblanks : ∀ c ∈ blanks, c = ' ' ∨ c = '\t') (w : List Char) :
    isContinuation (blanks ++ w) = true := by
  obtain ⟨c, rest, rfl⟩ := List.exists_cons_of_ne_nil hne
  rcases hblanks c List.mem_cons_self with rfl | rfl <;> rfl

theorem unfoldLine_continuation {line : List Char} (hline : isContinuation line = true)
    (before : List (List Char)) (h : List Char) :
    unfoldLine (before ++ [h]) line = before ++ [h ++ ' ' :: trimChars line] := by
  rw [unfoldLine, if_pos hline, List.getLast?_concat, List.dropLast_concat]

/-- A folded header is a first line and continuations of it, which are joined to what it was. -/
theorem Folds.lines {h folded : List Char} (hfold : Folds h folded) (hwhole : Whole h)
    (hlast : EndsFull h) :
    ∃ w ws, folded ++ newline = rows (w :: ws) ∧ w.head? = h.head? ∧ EndsFull w ∧ Whole w ∧
      (∀ v ∈ ws, Whole v ∧ isContinuation v = true) ∧
      ∀ before x, ws.foldl unfoldLine (before ++ [x ++ w]) = before ++ [x ++ h] := by
  induction hfold with
  | whole h =>
    refine ⟨h, [], ?_, rfl, hlast, hwhole, List.forall_mem_nil _, fun _ _ => rfl⟩
    rw [rows, List.flatMap_singleton]
  | @fold a b blanks back folded front ha hb hne hblanks hback ih =>
    have hfront : Whole (front ++ [a]) ∧ Whole (b :: back) := by
      simp only [Whole, List.mem_append, List.mem_cons, not_or] at hwhole ⊢
      tauto
    have hlastBack : EndsFull (b :: back) := by
      rw [List.append_cons, List.append_cons] at hlast
      exact hlast.of_append_cons
    obtain ⟨w, ws, hrows, hfirst, hfull, hw, hws, hjoin⟩ := ih hfront.2 hlastBack
    have htrim : trimChars (blanks ++ w) = w := trimChars_blanks_append hblanks hfirst hb hfull
    have hcont := isContinuation_blanks_append hne hblanks w
    have hblankWhole : Whole (blanks ++ w) := by
      constructor <;> rw [List.mem_append, not_or]
      · exact ⟨fun hc => by simpa using hblanks _ hc, hw.1⟩
      · exact ⟨fun hc => by simpa using hblanks _ hc, hw.2⟩
    refine ⟨front ++ [a], (blanks ++ w) :: ws, ?_, ?_, endsFull_concat ha front, hfront.1, ?_, ?_⟩
    · rw [rows_cons, rows_cons, List.append_assoc blanks, ← rows_cons, ← hrows]
      simp only [newline, List.append_assoc, List.cons_append, List.nil_append]
    · cases front <;> rfl
    · exact List.forall_mem_cons.mpr ⟨⟨hblankWhole, hcont⟩, hws⟩
    · intro before x
      have hnext := hjoin before (x ++ (front ++ [a]) ++ [' '])
      rw [List.foldl_cons, unfoldLine_continuation hcont, htrim]
      simp only [List.append_assoc, List.cons_append, List.nil_append] at hnext ⊢
      exact hnext

/-! ## The lines of all headers -/

theorem unfoldLine_first {w : List Char} (hw : isContinuation w = false) (hne : w ≠ [])
    (before : List (List Char)) : unfoldLine before w = before ++ [w] := by
  rw [unfoldLine, if_neg (by rw [hw]; decide), if_neg (by simpa using hne)]

theorem EndsFull.ne_nil {w : List Char} (h : EndsFull w) : w ≠ [] := by
  rintro rfl
  obtain ⟨c, hc, -⟩ := h
  cases hc

theorem lines_of_folds {hs fs : List (List Char)} (hfold : List.Forall₂ Folds hs fs)
    (htext : ∀ h ∈ hs, HeaderText h) :
    ∃ ws, rows fs = rows ws ∧ (∀ w ∈ ws, Whole w ∧ w ≠ []) ∧
      ∀ before, ws.foldl unfoldLine before = before ++ hs := by
  induction hfold with
  | nil => exact ⟨[], rfl, List.forall_mem_nil _, fun before => (List.append_nil before).symm⟩
  | @cons h f hs fs hhf _ ih =>
    rw [List.forall_mem_cons] at htext
    obtain ⟨hh, hhs⟩ := htext
    obtain ⟨w, vs, hrow, hfirst, hfull, hw, hvs, hjoin⟩ := hhf.lines hh.whole hh.last
    obtain ⟨ws, hrows, hws, hunfold⟩ := ih hhs
    have hcont : isContinuation w = false := (isContinuation_congr hfirst).trans hh.first
    refine ⟨w :: vs ++ ws, ?_, ?_, ?_⟩
    · calc rows (f :: fs) = (f ++ newline) ++ rows fs := by rw [rows, List.flatMap_cons]; rfl
        _ = rows (w :: vs) ++ rows ws := by rw [hrow, hrows]
        _ = rows (w :: vs ++ ws) := by rw [rows, rows, rows, List.flatMap_append]
    · intro v hv
      rcases List.mem_append.mp hv with hv | hv
      · rcases List.mem_cons.mp hv with rfl | hv
        · exact ⟨hw, hfull.ne_nil⟩
        · refine ⟨(hvs v hv).1, ?_⟩
          rintro rfl
          exact absurd (hvs [] hv).2 (by decide)
      · exact hws v hv
    · intro before
      rw [List.foldl_append, List.foldl_cons, unfoldLine_first hcont hfull.ne_nil]
      have hone := hjoin before []
      rw [List.nil_append, List.nil_append] at hone
      rw [hone, hunfold, List.append_assoc, List.singleton_append]

/-! ## The whole message -/

theorem rows_eq_intercalate (w : List Char) (ws : List (List Char)) :
    rows (w :: ws) = newline.intercalate (w :: ws) ++ newline := by
  induction ws generalizing w with
  | nil => rw [rows, List.flatMap_singleton, List.intercalate_singleton]
  | cons v ws ih =>
    rw [rows, List.flatMap_cons, List.intercalate_cons_cons, List.append_assoc (w ++ newline), ← ih]
    rfl

/-- The block ends behind lines of which none is empty, with an empty one. -/
theorem cutAround_block {w : List Char} {ws : List (List Char)} (hw : '\r' ∉ w)
    (hws : ∀ v ∈ ws, '\r' ∉ v ∧ v ≠ []) (rest : List Char) :
    cutAround (newline ++ newline) (rows (w :: ws) ++ (newline ++ rest)) =
      some (newline.intercalate (w :: ws), rest) := by
  induction ws generalizing w with
  | nil =>
    rw [rows, List.flatMap_singleton, List.intercalate_singleton, List.append_assoc]
    exact cutAround_empty_line hw rest
  | cons v ws ih =>
    obtain ⟨⟨hv, hne⟩, hrest⟩ := List.forall_mem_cons.mp hws
    have hnext := ih hv hrest
    obtain ⟨c, v, rfl⟩ := List.exists_cons_of_ne_nil hne
    have hc : '\r' ≠ c := fun heq => hv (heq ▸ List.mem_cons_self)
    rw [rows_cons, List.cons_append, List.cons_append] at hnext
    have hstep := cutAround_full_line hw hc (v ++ '\r' :: '\n' :: rows ws ++ (newline ++ rest))
    rw [hnext] at hstep
    rw [rows_cons, rows_cons, List.intercalate_cons_cons, List.append_assoc w]
    exact hstep

theorem headersOf_block {w : List Char} {ws : List (List Char)}
    (h : ∀ v ∈ w :: ws, Whole v ∧ v ≠ []) (rest : List Char) :
    headersOf (rows (w :: ws) ++ (newline ++ rest)) = unfold (w :: ws) := by
  have hcut := cutAround_block (h w List.mem_cons_self).1.1
    (fun v hv => ⟨(h v (List.mem_cons_of_mem w hv)).1.1, (h v (List.mem_cons_of_mem w hv)).2⟩) rest
  rw [headersOf, splitBlock_of_cut hcut, ← unfold_filter,
    blockLines_intercalate fun v hv => (h v hv).1, unfold_filter]

theorem headersOf_folds {hs fs : List (List Char)} (hne : hs ≠ [])
    (htext : ∀ h ∈ hs, HeaderText h) (hfold : List.Forall₂ Folds hs fs) (rest : List Char) :
    headersOf (rows fs ++ (newline ++ rest)) = hs := by
  obtain ⟨ws, hrows, hws, hunfold⟩ := lines_of_folds hfold htext
  cases ws with
  | nil => exact absurd (hunfold []).symm hne
  | cons w ws =>
    rw [hrows, headersOf_block hws, unfold_eq_foldl, hunfold, List.nil_append]

/-- Headers are read as they were before they were folded, wherever that was done and with
whichever blanks, and no body makes a difference. So it makes none for looking up a header or for
patterns for headers. -/
theorem folding_unseen {hs fs : List String} (hne : hs ≠ [])
    (htext : ∀ h ∈ hs, HeaderText h.toList)
    (hfold : List.Forall₂ (fun h f => Folds h.toList f.toList) hs fs) (body : Bytes) :
    let m := ofBytes (Utf8.encode (String.intercalate "\r\n" fs ++ "\r\n\r\n") ++ body)
    m.headers = hs ∧ (∀ text name, m.header? name = (Message.mk hs text).header? name) ∧
      ∀ text pattern, Rule.patternsMatch pattern none m =
        Rule.patternsMatch pattern none ⟨hs, text⟩ := by
  intro m
  have hfolds : List.Forall₂ Folds (hs.map String.toList) (fs.map String.toList) :=
    List.forall₂_map_left_iff.mpr (List.forall₂_map_right_iff.mpr hfold)
  have hchars : Utf8.decodeChars
      (Utf8.encode (String.intercalate "\r\n" fs ++ "\r\n\r\n") ++ body) =
        rows (fs.map String.toList) ++ (newline ++ Utf8.decodeChars body) := by
    cases fs with
    | nil =>
      cases hfold
      exact absurd rfl hne
    | cons f fs =>
      rw [Utf8.encode, Utf8.decodeChars_encodeChars_append, String.toList_append,
        String.toList_intercalate, List.map_cons, rows_eq_intercalate, List.append_assoc,
        List.append_assoc]
      rfl
  have hheaders : m.headers = hs := by
    rw [headers_ofBytes, hchars, headersOf_folds (by simpa using hne) (by simpa using htext) hfolds,
      List.map_map]
    simp [Function.comp_def]
  refine ⟨hheaders, ?_, ?_⟩
  · intro text name
    simp only [header?, hheaders]
  · intro text pattern
    rw [patternsMatch_header, patternsMatch_header, hheaders]

/-- The first header is folded at both of its spaces, and the text looks like a header. -/
theorem folding_unseen_twice :
    let hs := ["A: b c", "D: e"]
    let fs := ["A:\r\n \tb\r\n c", "D: e"]
    let m := ofBytes (Utf8.encode (String.intercalate "\r\n" fs ++ "\r\n\r\n") ++
      Utf8.encode "\r\nX: y")
    hs ≠ [] ∧ (∀ h ∈ hs, HeaderText h.toList) ∧
      List.Forall₂ (fun h f => Folds h.toList f.toList) hs fs ∧ m.headers = hs := by
  intro hs fs m
  have htext : ∀ h ∈ hs, HeaderText h.toList := by
    simp only [hs, List.forall_mem_cons]
    exact ⟨⟨by unfold Whole; decide, by decide, 'c', by decide, by decide⟩,
      ⟨by unfold Whole; decide, by decide, 'e', by decide, by decide⟩, List.forall_mem_nil _⟩
  have hlast : Folds ['b', ' ', 'c'] ['b', '\r', '\n', ' ', 'c'] :=
    .fold [] (by decide) (by decide) (List.cons_ne_nil ' ' [])
      (List.forall_mem_singleton.mpr (.inl rfl)) (.whole ['c'])
  have hfirst : Folds ['A', ':', ' ', 'b', ' ', 'c']
      ['A', ':', '\r', '\n', ' ', '\t', 'b', '\r', '\n', ' ', 'c'] :=
    .fold ['A'] (by decide) (by decide) (List.cons_ne_nil ' ' ['\t'])
      (List.forall_mem_cons.mpr ⟨.inl rfl, List.forall_mem_singleton.mpr (.inr rfl)⟩) hlast
  have hfold : List.Forall₂ (fun h f => Folds h.toList f.toList) hs fs := by
    refine .cons ?_ (.cons (.whole _) .nil)
    rwa [show "A: b c".toList = ['A', ':', ' ', 'b', ' ', 'c'] by decide,
      show "A:\r\n \tb\r\n c".toList =
        ['A', ':', '\r', '\n', ' ', '\t', 'b', '\r', '\n', ' ', 'c'] by decide]
  exact ⟨by decide, htext, hfold, (folding_unseen (by decide) htext hfold _).1⟩

end Letterbox.Message
