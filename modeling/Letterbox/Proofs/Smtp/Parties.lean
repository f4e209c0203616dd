import Letterbox.Proofs.Net.Dialogue
import Letterbox.Proofs.Net.Reassembly
import Letterbox.Smtp.Receiver
import Letterbox.Smtp.Sending

/-!
# Both sides of a mail dialogue

The side that hands mail on and the side that receives it, as parties of a dialogue. Both are
steady: what they have said, and where they stand, depends on the bytes that they have heard and not
on the pieces in which these came.
-/

namespace Letterbox

set_option autoImplicit false

open Lines

namespace LineSession

variable {τ : Type} (p : LineProtocol τ)

/-- A session as a party. What comes after it has stopped is not heard. -/
def party (s : LineSession τ) : Party (LineSession τ × Flow) where
  start := match s.begin p with
    | (s, .ok ()) => (s, .proceed)
    | (s, .error f) => (s, .failed f)
  hear
    | (s, .proceed), piece => s.feed p piece
    | stopped, _ => stopped
  said s := s.1.channel.sent

def standing (s : LineSession τ × Flow) : (Channel × τ) × Flow := ((s.1.channel, s.1.state), s.2)

def Appends : Prop := ∀ s l, s.1.sent <+: (p.handle s l).1.1.sent

variable {p}

theorem standing_foldl_hear (s : LineSession τ) {t : LineSession τ} (ht : lf ∉ t.pending)
    (pieces : List Bytes) :
    standing (pieces.foldl (s.party p).hear (t, .proceed)) =
      let h := handover p.handle (t.channel, t.state)
        (lines (t.pending ++ dropReturns pieces.flatten))
      (h.state, h.flow) := by
  have hall : pieces.foldl (s.party p).hear (t, .proceed) = feedAll p t pieces := by
    have hstopped : ∀ u : LineSession τ × Flow, u.2 ≠ .proceed → ∀ rest : List Bytes,
        rest.foldl (s.party p).hear u = u := by
      rintro ⟨u, flow⟩ hu rest
      induction rest with
      | nil => rfl
      | cons piece rest ih =>
        cases flow with
        | proceed => exact absurd rfl hu
        | close | failed => exact ih
    clear ht
    induction pieces generalizing t with
    | nil => rfl
    | cons piece rest ih =>
      obtain ⟨u, flow, hu⟩ : ∃ u flow, feed p t piece = (u, flow) := ⟨_, _, rfl⟩
      have hhear : (s.party p).hear (t, .proceed) piece = (u, flow) := hu
      rw [List.foldl_cons, hhear]
      by_cases hf : flow = .proceed
      · subst hf
        simp only [feedAll, hu]
        exact ih
      · rw [hstopped (u, flow) hf]
        cases flow with
        | proceed => exact absurd rfl hf
        | close | failed => simp only [feedAll, hu]
  obtain ⟨hstate, hflow, -⟩ := feedAll_eq_handover p ht pieces
  rw [hall]
  exact Prod.ext hstate hflow

/-- A session that has begun is a steady party. -/
theorem party_steady {s t : LineSession τ} (hbegin : s.begin p = (t, .ok ()))
    (hpending : t.pending = []) (happends : Appends p) : (s.party p).Steady standing := by
  have hlf : lf ∉ t.pending := by simp [hpending]
  have hstart : (s.party p).start = (t, .proceed) := by simp only [party, hbegin]
  have hview : ∀ pieces, standing ((s.party p).hears pieces) =
      standing ((s.party p).whole pieces.flatten) := by
    intro pieces
    have hwhole : (s.party p).whole pieces.flatten =
        [pieces.flatten].foldl (s.party p).hear (t, .proceed) := by
      rw [Party.whole, hstart]
      rfl
    rw [Party.hears, hstart, hwhole, standing_foldl_hear s hlf, standing_foldl_hear s hlf,
      List.flatten_cons, List.flatten_nil, List.append_nil]
  refine ⟨fun pieces => congrArg (·.1.1.sent) (hview pieces), hview, ?_⟩
  rintro ⟨u, flow⟩ piece
  cases flow with
  | close | failed => exact List.prefix_rfl
  | proceed =>
    have hgrows : u.channel.sent <+: (handover p.handle (u.channel, u.state)
        (lines (u.pending ++ dropReturns piece))).state.1.sent :=
      handover_invariant p.handle (P := fun v => u.channel.sent <+: v.1.sent)
        (fun v l hv => hv.trans (happends v l)) List.prefix_rfl _
    rw [← (feed_eq_handover p u piece).1] at hgrows
    exact hgrows

end LineSession

namespace Smtp.Sending

variable {refuses : Refusal} {t : Sending}

/-- What a talk does with a line, whatever is pending behind it. -/
def handle (refuses : Refusal) (t : Sending) (raw : Bytes) : Sending × Flow :=
  let t := t.line refuses (raw ++ [lf])
  (t, if t.isEnded then .close else .proceed)

theorem next_with_pending (refuses : Refusal) (t : Sending) (pending : Bytes)
    (later : List Exchange) :
    { t with pending }.next refuses later = { t.next refuses later with pending } := by
  cases later with
  | nil => rfl
  | cons e later =>
    simp only [next]
    obtain ⟨written, result, hw⟩ : ∃ written result,
      writeAll refuses t.sent e.writes = (written, result) := ⟨_, _, rfl⟩
    rw [hw]
    cases result <;> rfl

theorem line_with_pending (pending raw : Bytes) :
    { t with pending }.line refuses raw = { t.line refuses raw with pending } := by
  obtain ⟨stage, sent, was⟩ := t
  cases stage with
  | ended _ => rfl
  | waiting reply e later =>
    simp only [line]
    cases Utf8.fault? raw with
    | some f => rfl
    | none =>
      dsimp only
      split
      · split
        · exact next_with_pending refuses ⟨.waiting reply e later, sent, was⟩ pending later
        · rfl
      · rfl

theorem drain_with_pending (pending bs : Bytes) :
    Lines.drain (handle refuses) { t with pending } bs =
      ({ (Lines.drain (handle refuses) t bs).1 with pending },
        (Lines.drain (handle refuses) t bs).2) := by
  induction bs using induction_on_lines generalizing t with
  | rest bs h => rw [drain_of_not_mem _ _ h, drain_of_not_mem _ _ h]
  | line l after h ih =>
    rw [drain_append_cons _ _ h, drain_append_cons _ _ h]
    simp only [handle, line_with_pending]
    have hended : isEnded { t.line refuses (l ++ [lf]) with pending } =
        (t.line refuses (l ++ [lf])).isEnded := rfl
    rw [hended]
    cases (t.line refuses (l ++ [lf])).isEnded with
    | true => rfl
    | false => exact ih

/-- A talk stops at the line with which it ends. -/
theorem flow_drain (refuses : Refusal) (ht : t.isEnded = false) (bs : Bytes) :
    (Lines.drain (handle refuses) t bs).2.2 =
      if (Lines.drain (handle refuses) t bs).1.isEnded then .close else .proceed := by
  induction bs using induction_on_lines generalizing t with
  | rest bs h =>
    rw [drain_of_not_mem _ _ h, ht]
    rfl
  | line l after h ih =>
    rw [drain_append_cons _ _ h]
    obtain ⟨u, hu⟩ : ∃ u, t.line refuses (l ++ [lf]) = u := ⟨_, rfl⟩
    cases hended : u.isEnded with
    | true =>
      have hhandle : handle refuses t l = (u, .close) := by simp only [handle, hu, hended, if_true]
      rw [hhandle, hended, if_pos rfl]
    | false =>
      have hhandle : handle refuses t l = (u, .proceed) := by
        simp only [handle, hu, hended, Bool.false_eq_true, if_false]
      rw [hhandle]
      exact ih hended

theorem feed_of_isEnded (ht : t.isEnded = true) (piece : Bytes) :
    t.feed refuses piece = { t with pending := t.pending ++ piece } := by
  have hended : isEnded { t with pending := t.pending ++ piece } = true := ht
  simp only [feed, drain, hended, if_true]

theorem feed_of_not_isEnded (ht : t.isEnded = false) (piece : Bytes) :
    t.feed refuses piece =
      { (Lines.drain (handle refuses) t (t.pending ++ piece)).1 with
        pending := (Lines.drain (handle refuses) t (t.pending ++ piece)).2.1 } := by
  have hended : isEnded { t with pending := t.pending ++ piece } = false := ht
  have hfeed : t.feed refuses piece =
      let r := Lines.drain (handle refuses) { t with pending := t.pending ++ piece }
        (t.pending ++ piece)
      { r.1 with pending := r.2.1 } := by
    simp only [feed, drain, hended, Bool.false_eq_true, if_false]
    rfl
  rw [hfeed, drain_with_pending]

/-- Two pieces are heard as one. -/
theorem feed_feed (a b : Bytes) : (t.feed refuses a).feed refuses b = t.feed refuses (a ++ b) := by
  cases ht : t.isEnded with
  | true =>
    have hended : isEnded { t with pending := t.pending ++ a } = true := ht
    rw [feed_of_isEnded ht, feed_of_isEnded ht, feed_of_isEnded hended, List.append_assoc]
  | false =>
    rw [feed_of_not_isEnded ht, feed_of_not_isEnded ht, ← List.append_assoc,
      drain_append (handle refuses) t (t.pending ++ a) b]
    have hflow := flow_drain refuses ht (t.pending ++ a)
    obtain ⟨u, rest, flow, hu⟩ : ∃ u rest flow,
      Lines.drain (handle refuses) t (t.pending ++ a) = (u, rest, flow) := ⟨_, _, _, rfl⟩
    rw [hu] at hflow ⊢
    dsimp only at hflow ⊢
    cases hended : u.isEnded with
    | true =>
      rw [hended, if_pos rfl] at hflow
      have hended' : isEnded { u with pending := rest } = true := hended
      rw [feed_of_isEnded hended', hflow]
    | false =>
      rw [hended, if_neg Bool.false_ne_true] at hflow
      have hended' : isEnded { u with pending := rest } = false := hended
      rw [feed_of_not_isEnded hended', hflow]
      simp only [drain_with_pending]

theorem foldl_feed (a : Bytes) (pieces : List Bytes) :
    pieces.foldl (feed refuses) (t.feed refuses a) = t.feed refuses (a ++ pieces.flatten) := by
  induction pieces generalizing a with
  | nil => rw [List.foldl_nil, List.flatten_nil, List.append_nil]
  | cons piece rest ih => rw [List.foldl_cons, feed_feed, ih, List.flatten_cons, List.append_assoc]

theorem feed_nil (hpending : t.pending = []) : t.feed refuses [] = t := by
  obtain ⟨stage, sent, pending⟩ := t
  dsimp only at hpending
  subst hpending
  cases ht : isEnded ⟨stage, sent, []⟩ with
  | true => rw [feed_of_isEnded ht, List.append_nil]
  | false => rw [feed_of_not_isEnded ht, List.append_nil, drain_of_not_mem _ _ List.not_mem_nil]

theorem pending_next (refuses : Refusal) (t : Sending) (later : List Exchange) :
    (t.next refuses later).pending = t.pending := by
  have h : t.next refuses later = { t.next refuses later with pending := t.pending } :=
    next_with_pending refuses t t.pending later
  rw [h]

theorem foldl_feed_start (refuses : Refusal) (script : List Exchange) (pieces : List Bytes) :
    pieces.foldl (feed refuses) (start refuses script) =
      (start refuses script).feed refuses pieces.flatten := by
  have h : pieces.foldl (feed refuses) ((start refuses script).feed refuses []) = _ :=
    foldl_feed [] pieces
  rwa [feed_nil (pending_next refuses _ script), List.nil_append] at h

def party (script : List Exchange) : Party Sending where
  start := start never script
  hear := feed never
  said := sent

theorem writeAll_never (sent : Bytes) (pieces : List Bytes) :
    writeAll never sent pieces = (sent ++ pieces.flatten, .ok ()) := by
  induction pieces generalizing sent with
  | nil => simp only [writeAll, List.flatten_nil, List.append_nil]
  | cons piece rest ih => simp only [writeAll, never, ih, List.flatten_cons, List.append_assoc]

theorem next_never_cons (t : Sending) (e : Exchange) (later : List Exchange) :
    t.next never (e :: later) =
      { t with sent := t.sent ++ e.writes.flatten, stage := .waiting [] e later } := by
  simp only [next, writeAll_never]

theorem sent_line (raw : Bytes) : t.sent <+: (t.line never raw).sent := by
  unfold line
  cases t.stage with
  | ended _ => exact List.prefix_rfl
  | waiting reply e later =>
    dsimp only
    cases Utf8.fault? raw with
    | some f => exact List.prefix_rfl
    | none =>
      dsimp only
      split
      · split
        · cases later with
          | nil => exact List.prefix_rfl
          | cons e later =>
            rw [next_never_cons]
            exact List.prefix_append _ _
        · exact List.prefix_rfl
      · exact List.prefix_rfl

theorem party_steady (script : List Exchange) : (party script).Steady id := by
  have hview : ∀ pieces, (party script).hears pieces = (party script).whole pieces.flatten :=
    foldl_feed_start never script
  refine ⟨fun pieces => congrArg sent (hview pieces), hview, ?_⟩
  intro t piece
  cases ht : t.isEnded with
  | true =>
    refine ⟨[], ?_⟩
    simp only [party, feed_of_isEnded ht, List.append_nil]
  | false =>
    simp only [party]
    rw [feed_of_not_isEnded ht, (drain_eq_handover (handle never) t (t.pending ++ piece)).1]
    exact handover_invariant (handle never) (P := fun u => t.sent <+: u.sent)
      (fun u l hu => hu.trans (sent_line (l ++ [lf]))) List.prefix_rfl _

end Smtp.Sending

end Letterbox
