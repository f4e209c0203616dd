import Letterbox.Proofs.Smtp.Parties

/-!
# Talks line by line

What comes of a talk is a matter of the lines of all that the far side says, what is left by its end
being a line too.
-/

namespace Letterbox.Smtp.Sending

set_option autoImplicit false

open Lines

variable {refuses : Refusal} {t : Sending}

def lineAll (refuses : Refusal) (t : Sending) (raws : List Bytes) : Sending :=
  raws.foldl (line refuses) t

theorem lineAll_append (refuses : Refusal) (t : Sending) (raws more : List Bytes) :
    lineAll refuses t (raws ++ more) = lineAll refuses (lineAll refuses t raws) more :=
  List.foldl_append

theorem line_of_isEnded (ht : t.isEnded = true) (raw : Bytes) : t.line refuses raw = t := by
  obtain ⟨stage, sent, pending⟩ := t
  cases stage with
  | ended _ => rfl
  | waiting _ _ _ => simp [isEnded] at ht

theorem lineAll_of_isEnded (ht : t.isEnded = true) (raws : List Bytes) :
    lineAll refuses t raws = t := by
  induction raws with
  | nil => rfl
  | cons raw raws ih => rwa [lineAll, List.foldl_cons, line_of_isEnded ht]

/-- The lines of some input, with their line feeds. What is left by the end is a line too. -/
def linesOf (input : Bytes) (cut : Cut) : List Bytes :=
  (lines input).map (· ++ [lf]) ++
    if cut = .ended ∧ remainder input ≠ [] then [remainder input] else []

def cutOff (t : Sending) (cut : Cut) : Sending :=
  match t.stage with
  | .ended _ => t
  | .waiting _ e _ => t.fail e cut.failure

theorem handover_lineAll (t : Sending) (ls : List Bytes) :
    (handover (handle refuses) t ls).state = lineAll refuses t (ls.map (· ++ [lf])) := by
  induction ls generalizing t with
  | nil => rfl
  | cons l ls ih =>
    obtain ⟨u, hu⟩ : ∃ u, t.line refuses (l ++ [lf]) = u := ⟨_, rfl⟩
    have hline : lineAll refuses t ((l :: ls).map (· ++ [lf])) =
        lineAll refuses u (ls.map (· ++ [lf])) := by
      rw [List.map_cons, lineAll, List.foldl_cons, hu]
      rfl
    rw [hline]
    cases hended : u.isEnded with
    | true =>
      have hhandle : handle refuses t l = (u, .close) := by simp only [handle, hu, hended, if_true]
      rw [handover_cons_of_stop _ hhandle Flow.noConfusion, lineAll_of_isEnded hended]
    | false =>
      have hhandle : handle refuses t l = (u, .proceed) := by
        simp only [handle, hu, hended, Bool.false_eq_true, if_false]
      rw [handover_cons_of_proceed _ hhandle]
      exact ih u

/-- The input leads a talk line by line, and what is behind the last line is still pending. -/
theorem feed_lineAll (ht : t.isEnded = false) (hpending : t.pending = []) (input : Bytes) :
    ∃ rest, t.feed refuses input =
        { lineAll refuses t ((lines input).map (· ++ [lf])) with pending := rest } ∧
      ((lineAll refuses t ((lines input).map (· ++ [lf]))).isEnded = false →
        rest = remainder input) := by
  obtain ⟨hstate, hflow, hrest⟩ := drain_eq_handover (handle refuses) t input
  have hstop := flow_drain refuses ht input
  rw [← handover_lineAll, ← hstate]
  refine ⟨_, by rw [feed_of_not_isEnded ht, hpending, List.nil_append], ?_⟩
  intro hended
  rw [hended, if_neg Bool.false_ne_true] at hstop
  exact hrest (hflow.symm.trans hstop)

theorem cutOff_with_pending (u : Sending) (pending : Bytes) (cut : Cut) :
    { u with pending }.cutOff cut = { u.cutOff cut with pending } := by
  obtain ⟨stage, sent, was⟩ := u
  cases stage <;> rfl

theorem sent_cutOff (u : Sending) (cut : Cut) : (u.cutOff cut).sent = u.sent := by
  obtain ⟨stage, sent, was⟩ := u
  cases stage <;> rfl

theorem finish_eq (refuses : Refusal) (u : Sending) (rest : Bytes) (cut : Cut) :
    ∃ left, { u with pending := rest }.finish refuses cut =
      { (lineAll refuses u (if cut = .ended ∧ rest ≠ [] then [rest] else [])).cutOff cut with
        pending := left } := by
  by_cases hleft : cut = .ended ∧ rest ≠ []
  · have hfinish : { u with pending := rest }.finish refuses cut =
        { { u with pending := rest }.line refuses rest with pending := [] }.cutOff cut := by
      simp only [finish, if_pos hleft]
      rfl
    refine ⟨[], ?_⟩
    rw [hfinish, if_pos hleft, line_with_pending]
    exact cutOff_with_pending (u.line refuses rest) [] cut
  · have hfinish : { u with pending := rest }.finish refuses cut =
        { u with pending := rest }.cutOff cut := by
      simp only [finish, if_neg hleft]
      rfl
    refine ⟨rest, ?_⟩
    rw [hfinish, if_neg hleft]
    exact cutOff_with_pending u rest cut

/-- A whole talk is led by the lines of all that the far side says, whatever the pieces. -/
theorem talk_eq (refuses : Refusal) (script : List Exchange) (pieces : List Bytes) (cut : Cut) :
    ∃ left, talk refuses script pieces cut =
      { (lineAll refuses (start refuses script) (linesOf pieces.flatten cut)).cutOff cut with
        pending := left } := by
  have hpending : (start refuses script).pending = [] := pending_next refuses _ script
  rw [talk, foldl_feed_start, linesOf, lineAll_append]
  cases ht : (start refuses script).isEnded with
  | true =>
    obtain ⟨left, hfinish⟩ := finish_eq refuses (start refuses script)
      ((start refuses script).pending ++ pieces.flatten) cut
    refine ⟨left, ?_⟩
    rw [feed_of_isEnded ht, hfinish, lineAll_of_isEnded ht, lineAll_of_isEnded ht,
      lineAll_of_isEnded ht]
  | false =>
    obtain ⟨rest, hfeed, hrest⟩ := feed_lineAll ht hpending pieces.flatten
    obtain ⟨left, hfinish⟩ := finish_eq refuses
      (lineAll refuses (start refuses script) ((lines pieces.flatten).map (· ++ [lf]))) rest cut
    refine ⟨left, ?_⟩
    rw [hfeed, hfinish]
    cases hended : (lineAll refuses (start refuses script)
        ((lines pieces.flatten).map (· ++ [lf]))).isEnded with
    | true => rw [lineAll_of_isEnded hended, lineAll_of_isEnded hended]
    | false => rw [hrest hended]

theorem result_talk (refuses : Refusal) (script : List Exchange) (pieces : List Bytes) (cut : Cut) :
    (talk refuses script pieces cut).result? =
      ((lineAll refuses (start refuses script) (linesOf pieces.flatten cut)).cutOff
        cut).result? := by
  obtain ⟨left, htalk⟩ := talk_eq refuses script pieces cut
  rw [htalk]
  rfl

end Letterbox.Smtp.Sending
