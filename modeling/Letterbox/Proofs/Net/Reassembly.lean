import Letterbox.Net.Lines

/-!
# Lines do not depend on the pieces in which they arrive

Input is cut at line feeds once, as a whole (`lines`, `remainder`); the engine cuts it piece by
piece. Both hand the same lines to any protocol, up to the first line after which the protocol
does not want to proceed. Nothing is assumed of the protocol: its answers may depend on all it
has seen, and it may change the encoding of its channel between two lines of one piece.
-/

namespace Letterbox

set_option autoImplicit false

namespace Lines

/-- The lines that end within the bytes, without their line feeds. -/
def lines (bs : Bytes) : List Bytes := (bs.splitOn lf).dropLast

/-- What stands behind the last line feed. -/
def remainder (bs : Bytes) : Bytes := (bs.splitOn lf).getLastD []

theorem lines_of_not_mem {bs : Bytes} (h : lf ∉ bs) : lines bs = [] := by
  simp [lines, List.splitOn_eq_singleton h]

theorem remainder_of_not_mem {bs : Bytes} (h : lf ∉ bs) : remainder bs = bs := by
  simp [remainder, List.splitOn_eq_singleton h]

theorem lines_append_cons {line : Bytes} (h : lf ∉ line) (after : Bytes) :
    lines (line ++ lf :: after) = line :: lines after := by
  simp only [lines, List.splitOn_append_cons_self_of_not_mem h]
  exact List.dropLast_cons_of_ne_nil (List.splitOn_ne_nil lf after)

theorem remainder_append_cons {line : Bytes} (h : lf ∉ line) (after : Bytes) :
    remainder (line ++ lf :: after) = remainder after := by
  have hne := List.splitOn_ne_nil lf after
  simp only [remainder, List.splitOn_append_cons_self_of_not_mem h]
  rw [List.getLastD_cons, List.getLastD_eq_getLast?, List.getLastD_eq_getLast?,
    List.getLast?_eq_some_getLast hne]
  rfl

theorem next?_of_not_mem {bs : Bytes} (h : lf ∉ bs) : next? bs = none := by
  induction bs with
  | nil => rfl
  | cons b rest ih =>
    rw [List.mem_cons, not_or] at h
    obtain ⟨hb, hrest⟩ := h
    simp only [next?, if_neg (Ne.symm hb), ih hrest, Option.map_none]

theorem next?_append_cons {line : Bytes} (h : lf ∉ line) (after : Bytes) :
    next? (line ++ lf :: after) = some (line, after) := by
  induction line with
  | nil => simp only [List.nil_append, next?, if_true]
  | cons b rest ih =>
    rw [List.mem_cons, not_or] at h
    obtain ⟨hb, hrest⟩ := h
    simp only [List.cons_append, next?, if_neg (Ne.symm hb), ih hrest, Option.map_some]

/-- Induction over the lines of some bytes. -/
theorem induction_on_lines {P : Bytes → Prop} (rest : ∀ bs, lf ∉ bs → P bs)
    (line : ∀ l after, lf ∉ l → P after → P (l ++ lf :: after)) (bs : Bytes) : P bs := by
  induction hn : bs.length using Nat.strongRecOn generalizing bs with
  | _ n ih =>
    by_cases hb : lf ∈ bs
    · obtain ⟨l, after, rfl, hl⟩ := List.eq_append_cons_of_mem hb
      have hlen : after.length < n := by
        rw [← hn, List.length_append, List.length_cons]
        omega
      exact line l after hl (ih after.length hlen after rfl)
    · exact rest bs hb

theorem not_mem_remainder (bs : Bytes) : lf ∉ remainder bs := by
  induction bs using induction_on_lines with
  | rest bs h => rwa [remainder_of_not_mem h]
  | line l after h ih => rwa [remainder_append_cons h]

theorem lines_append (bs more : Bytes) :
    lines (bs ++ more) = lines bs ++ lines (remainder bs ++ more) := by
  induction bs using induction_on_lines with
  | rest bs h => simp [lines_of_not_mem h, remainder_of_not_mem h]
  | line l after h ih =>
    rw [List.append_assoc, List.cons_append, lines_append_cons h, lines_append_cons h,
      remainder_append_cons h, ih, List.cons_append]

theorem remainder_append (bs more : Bytes) :
    remainder (bs ++ more) = remainder (remainder bs ++ more) := by
  induction bs using induction_on_lines with
  | rest bs h => rw [remainder_of_not_mem h]
  | line l after h ih =>
    rw [List.append_assoc, List.cons_append, remainder_append_cons h, remainder_append_cons h, ih]

section Handover
variable {σ : Type} (handle : σ → Bytes → σ × Flow)

/-- What became of a row of lines: the state after them, those that were handed over, and how it
went on. -/
structure Handover (σ : Type) where
  state : σ
  handed : List Bytes
  flow : Flow

def handover : σ → List Bytes → Handover σ
  | s, [] => ⟨s, [], .proceed⟩
  | s, l :: rest => match handle s l with
    | (s, .proceed) =>
      let h := handover s rest
      { h with handed := l :: h.handed }
    | (s, flow) => ⟨s, [l], flow⟩

theorem handover_cons_of_proceed {s s' : σ} {l : Bytes} (h : handle s l = (s', .proceed))
    (rest : List Bytes) :
    handover handle s (l :: rest) =
      { handover handle s' rest with handed := l :: (handover handle s' rest).handed } := by
  simp only [handover, h]

theorem handover_cons_of_stop {s s' : σ} {l : Bytes} {flow : Flow} (h : handle s l = (s', flow))
    (hne : flow ≠ .proceed) (rest : List Bytes) :
    handover handle s (l :: rest) = ⟨s', [l], flow⟩ := by
  cases flow with
  | proceed => exact absurd rfl hne
  | close | failed => simp only [handover, h]

theorem handover_append_of_proceed {s : σ} {ls : List Bytes} (more : List Bytes)
    (h : (handover handle s ls).flow = .proceed) :
    handover handle s (ls ++ more) =
      let k := handover handle (handover handle s ls).state more
      { k with handed := ls ++ k.handed } := by
  induction ls generalizing s with
  | nil => rfl
  | cons l rest ih =>
    obtain ⟨s', flow, hs⟩ : ∃ s' flow, handle s l = (s', flow) := ⟨_, _, rfl⟩
    by_cases hf : flow = .proceed
    · subst hf
      rw [handover_cons_of_proceed handle hs] at h
      rw [List.cons_append, handover_cons_of_proceed handle hs, handover_cons_of_proceed handle hs,
        ih h]
      rfl
    · rw [handover_cons_of_stop handle hs hf] at h
      exact absurd h hf

theorem handover_append_of_stop {s : σ} {ls : List Bytes} (more : List Bytes)
    (h : (handover handle s ls).flow ≠ .proceed) :
    handover handle s (ls ++ more) = handover handle s ls := by
  induction ls generalizing s with
  | nil => exact absurd rfl h
  | cons l rest ih =>
    obtain ⟨s', flow, hs⟩ : ∃ s' flow, handle s l = (s', flow) := ⟨_, _, rfl⟩
    by_cases hf : flow = .proceed
    · subst hf
      rw [handover_cons_of_proceed handle hs] at h
      rw [List.cons_append, handover_cons_of_proceed handle hs, handover_cons_of_proceed handle hs,
        ih h]
    · rw [List.cons_append, handover_cons_of_stop handle hs hf, handover_cons_of_stop handle hs hf]

/-- What every single line preserves is preserved by a row of them. -/
theorem handover_invariant {P : σ → Prop} (step : ∀ s l, P s → P (handle s l).1) {s : σ} (hs : P s)
    (ls : List Bytes) : P (handover handle s ls).state := by
  induction ls generalizing s with
  | nil => exact hs
  | cons l ls ih =>
    obtain ⟨s', flow, h⟩ : ∃ s' flow, handle s l = (s', flow) := ⟨_, _, rfl⟩
    have hs' : P s' := by simpa only [h] using step s l hs
    by_cases hf : flow = .proceed
    · subst hf
      rw [handover_cons_of_proceed handle h]
      exact ih hs'
    · rw [handover_cons_of_stop handle h hf]
      exact hs'

/-- Two ways of handling lines that stay related and answer alike are given the same lines. -/
theorem handover_related {σ' : Type} (handle' : σ' → Bytes → σ' × Flow) {R : σ → σ' → Prop}
    (step : ∀ s s' l, R s s' →
      R (handle s l).1 (handle' s' l).1 ∧ (handle s l).2 = (handle' s' l).2)
    {s : σ} {s' : σ'} (hs : R s s') (ls : List Bytes) :
    R (handover handle s ls).state (handover handle' s' ls).state ∧
      (handover handle s ls).handed = (handover handle' s' ls).handed ∧
      (handover handle s ls).flow = (handover handle' s' ls).flow := by
  induction ls generalizing s s' with
  | nil => exact ⟨hs, rfl, rfl⟩
  | cons l ls ih =>
    obtain ⟨hR, hflow⟩ := step s s' l hs
    obtain ⟨t, flow, h⟩ : ∃ t flow, handle s l = (t, flow) := ⟨_, _, rfl⟩
    obtain ⟨t', flow', h'⟩ : ∃ t' flow', handle' s' l = (t', flow') := ⟨_, _, rfl⟩
    rw [h, h'] at hR hflow
    dsimp only at hR hflow
    subst hflow
    by_cases hf : flow = .proceed
    · subst hf
      rw [handover_cons_of_proceed handle h, handover_cons_of_proceed handle' h']
      obtain ⟨hstate, hhanded, hf⟩ := ih hR
      exact ⟨hstate, congrArg (l :: ·) hhanded, hf⟩
    · rw [handover_cons_of_stop handle h hf, handover_cons_of_stop handle' h' hf]
      exact ⟨hR, rfl, rfl⟩

theorem drain_of_not_mem (s : σ) {pending : Bytes} (h : lf ∉ pending) :
    drain handle s pending = (s, pending, .proceed) := by
  rw [drain]
  split
  · rfl
  · rename_i hs
    simp [next?_of_not_mem h] at hs

theorem drain_append_cons (s : σ) {line : Bytes} (h : lf ∉ line) (after : Bytes) :
    drain handle s (line ++ lf :: after) = match handle s line with
      | (s, .proceed) => drain handle s after
      | (s, flow) => (s, after, flow) := by
  rw [drain]
  split
  · rename_i hs
    simp [next?_append_cons h] at hs
  · rename_i l a hs
    cases (next?_append_cons h after).symm.trans hs
    rfl

/-- More input is taken up where the handling of the input before it stopped. -/
theorem drain_append (s : σ) (bs more : Bytes) :
    drain handle s (bs ++ more) = match drain handle s bs with
      | (s, rest, .proceed) => drain handle s (rest ++ more)
      | (s, rest, flow) => (s, rest ++ more, flow) := by
  induction bs using induction_on_lines generalizing s with
  | rest bs h => rw [drain_of_not_mem handle s h]
  | line l after h ih =>
    rw [List.append_assoc, List.cons_append, drain_append_cons handle s h,
      drain_append_cons handle s h]
    obtain ⟨s', flow, hs⟩ : ∃ s' flow, handle s l = (s', flow) := ⟨_, _, rfl⟩
    rw [hs]
    cases flow with
    | proceed => exact ih s'
    | close | failed => rfl

/-- The engine hands over the lines that end within what is pending, and keeps what is left. -/
theorem drain_eq_handover (s : σ) (pending : Bytes) :
    (drain handle s pending).1 = (handover handle s (lines pending)).state ∧
      (drain handle s pending).2.2 = (handover handle s (lines pending)).flow ∧
      ((handover handle s (lines pending)).flow = .proceed →
        (drain handle s pending).2.1 = remainder pending) := by
  induction pending using induction_on_lines generalizing s with
  | rest bs h =>
    rw [drain_of_not_mem handle s h, lines_of_not_mem h, remainder_of_not_mem h]
    exact ⟨rfl, rfl, fun _ => rfl⟩
  | line l after h ih =>
    rw [drain_append_cons handle s h, lines_append_cons h, remainder_append_cons h]
    obtain ⟨s', flow, hs⟩ : ∃ s' flow, handle s l = (s', flow) := ⟨_, _, rfl⟩
    by_cases hf : flow = .proceed
    · subst hf
      rw [handover_cons_of_proceed handle hs, hs]
      exact ih s'
    · rw [handover_cons_of_stop handle hs hf, hs]
      cases flow with
      | proceed => exact absurd rfl hf
      | close | failed => exact ⟨rfl, rfl, fun hp => absurd hp hf⟩

/-- The state after some lines, whatever the answers to them. -/
def after (s : σ) (ls : List Bytes) : σ := ls.foldl (fun s l => (handle s l).1) s

/-- Every one of the lines, given one after the other, is answered with the wish to proceed. -/
def Proceeds (s : σ) (ls : List Bytes) : Prop :=
  ∀ before l rest, ls = before ++ l :: rest → (handle (after handle s before) l).2 = .proceed

theorem proceeds_nil (s : σ) : Proceeds handle s [] := by
  intro before l rest h
  simp at h

theorem proceeds_cons {s s' : σ} {l : Bytes} (h : handle s l = (s', .proceed)) {ls : List Bytes}
    (hls : Proceeds handle s' ls) : Proceeds handle s (l :: ls) := by
  intro before k rest heq
  cases before with
  | nil =>
    obtain ⟨rfl, -⟩ := List.cons.inj heq
    exact congrArg Prod.snd h
  | cons b before =>
    obtain ⟨rfl, htail⟩ := List.cons.inj heq
    simpa only [after, List.foldl_cons, h] using hls before k rest htail

/-- What is handed over are all lines, or those up to and with the first that is not answered with
the wish to proceed. -/
theorem handover_spec (s : σ) (ls : List Bytes) :
    let h := handover handle s ls
    h.state = after handle s h.handed ∧
      ((h.flow = .proceed ∧ h.handed = ls ∧ Proceeds handle s ls) ∨
        ∃ before last rest, ls = before ++ last :: rest ∧ h.handed = before ++ [last] ∧
          Proceeds handle s before ∧ (handle (after handle s before) last).2 = h.flow ∧
          h.flow ≠ .proceed) := by
  induction ls generalizing s with
  | nil => exact ⟨rfl, .inl ⟨rfl, rfl, proceeds_nil handle s⟩⟩
  | cons l ls ih =>
    obtain ⟨s', flow, hs⟩ : ∃ s' flow, handle s l = (s', flow) := ⟨_, _, rfl⟩
    by_cases hf : flow = .proceed
    · subst hf
      obtain ⟨hstate, hcases⟩ := ih s'
      have hafter : ∀ ks, after handle s (l :: ks) = after handle s' ks := by
        intro ks
        simp only [after, List.foldl_cons, hs]
      simp only [handover_cons_of_proceed handle hs, hafter]
      refine ⟨hstate, ?_⟩
      rcases hcases with ⟨hflow, hhanded, hp⟩ | ⟨before, last, rest, rfl, hhanded, hp, hlast, hne⟩
      · exact .inl ⟨hflow, by rw [hhanded], proceeds_cons handle hs hp⟩
      · refine .inr ⟨l :: before, last, rest, rfl, ?_, proceeds_cons handle hs hp, ?_, hne⟩
        · rw [hhanded, List.cons_append]
        · rwa [hafter]
    · simp only [handover_cons_of_stop handle hs hf]
      refine ⟨?_, .inr ⟨[], l, ls, rfl, rfl, proceeds_nil handle s, ?_, hf⟩⟩
      · simp only [after, List.foldl_cons, List.foldl_nil, hs]
      · simp only [after, List.foldl_nil, hs]

end Handover

@[simp] theorem dropReturns_nil : dropReturns [] = [] := rfl

theorem dropReturns_append (bs more : Bytes) :
    dropReturns (bs ++ more) = dropReturns bs ++ dropReturns more := List.filter_append bs more

end Lines

open Lines

namespace LineProtocol

variable {τ : Type} (p : LineProtocol τ)

def handle (s : Channel × τ) (raw : Bytes) : (Channel × τ) × Flow :=
  let (channel, state, flow) := p.line s.1 s.2 raw
  ((channel, state), flow)

/-- The protocol, keeping a record of the raw lines that it is given. -/
def recording : LineProtocol (τ × List Bytes) where
  begin channel t :=
    let (channel, state, result) := p.begin channel t.1
    (channel, (state, t.2), result)
  line channel t raw :=
    let (channel, state, flow) := p.line channel t.1 raw
    (channel, (state, t.2 ++ [raw]), flow)

/-- Keeping a record changes nothing else, and the record is that of the lines handed over. -/
theorem handover_recording (channel : Channel) (t : τ) (record : List Bytes) (ls : List Bytes) :
    handover p.recording.handle (channel, t, record) ls =
      let h := handover p.handle (channel, t) ls
      ⟨(h.state.1, h.state.2, record ++ h.handed), h.handed, h.flow⟩ := by
  induction ls generalizing channel t record with
  | nil => simp only [handover, List.append_nil]
  | cons l ls ih =>
    obtain ⟨channel', t', flow, hs⟩ : ∃ channel' t' flow,
      p.handle (channel, t) l = ((channel', t'), flow) := ⟨_, _, _, rfl⟩
    have hr : p.recording.handle (channel, t, record) l =
        ((channel', t', record ++ [l]), flow) := by
      simp only [handle, Prod.mk.injEq] at hs
      obtain ⟨⟨rfl, rfl⟩, rfl⟩ := hs
      rfl
    by_cases hf : flow = .proceed
    · subst hf
      rw [handover_cons_of_proceed _ hs, handover_cons_of_proceed _ hr, ih]
      simp only [List.append_assoc, List.singleton_append]
    · rw [handover_cons_of_stop _ hs hf, handover_cons_of_stop _ hr hf]

end LineProtocol

namespace LineSession

variable {τ : Type} (p : LineProtocol τ)

/-- Takes in one piece of input after the other, until the protocol does not want to proceed. -/
def feedAll (s : LineSession τ) : List Bytes → LineSession τ × Flow
  | [] => (s, .proceed)
  | piece :: rest => match feed p s piece with
    | (s, .proceed) => feedAll s rest
    | (s, flow) => (s, flow)

theorem feed_eq_handover (s : LineSession τ) (piece : Bytes) :
    let h := handover p.handle (s.channel, s.state) (lines (s.pending ++ dropReturns piece))
    ((feed p s piece).1.channel, (feed p s piece).1.state) = h.state ∧
      (feed p s piece).2 = h.flow ∧
      (h.flow = .proceed →
        (feed p s piece).1.pending = remainder (s.pending ++ dropReturns piece)) :=
  drain_eq_handover p.handle (s.channel, s.state) (s.pending ++ dropReturns piece)

/-- All input is handed over in whole lines, as if it had come in one piece. -/
theorem feedAll_eq_handover {s : LineSession τ} (hs : lf ∉ s.pending) (pieces : List Bytes) :
    let input := s.pending ++ dropReturns pieces.flatten
    let h := handover p.handle (s.channel, s.state) (lines input)
    ((feedAll p s pieces).1.channel, (feedAll p s pieces).1.state) = h.state ∧
      (feedAll p s pieces).2 = h.flow ∧
      (h.flow = .proceed → (feedAll p s pieces).1.pending = remainder input) := by
  induction pieces generalizing s with
  | nil =>
    have hinput : s.pending ++ dropReturns ([] : List Bytes).flatten = s.pending :=
      List.append_nil s.pending
    simp only [hinput, lines_of_not_mem hs, remainder_of_not_mem hs]
    exact ⟨rfl, rfl, fun _ => rfl⟩
  | cons piece rest ih =>
    obtain ⟨hstate, hflow, hpending⟩ := feed_eq_handover p s piece
    have hinput : s.pending ++ dropReturns (piece :: rest).flatten =
        (s.pending ++ dropReturns piece) ++ dropReturns rest.flatten := by
      rw [List.flatten_cons, dropReturns_append, List.append_assoc]
    dsimp only at hstate hflow hpending ⊢
    generalize s.pending ++ dropReturns piece = b at hinput hstate hflow hpending
    rw [hinput, lines_append b, remainder_append b]
    obtain ⟨t, flow, ht⟩ : ∃ t flow, feed p s piece = (t, flow) := ⟨_, _, rfl⟩
    rw [ht] at hstate hflow hpending
    by_cases hf : flow = .proceed
    · subst hf
      have hp := hpending hflow.symm
      have htail : lf ∉ t.pending := hp ▸ not_mem_remainder b
      rw [handover_append_of_proceed p.handle _ hflow.symm, ← hstate, ← hp]
      simp only [feedAll, ht]
      exact ih htail
    · rw [handover_append_of_stop p.handle _ (hflow ▸ hf)]
      have hstop : feedAll p s (piece :: rest) = (t, flow) := by
        cases flow with
        | proceed => exact absurd rfl hf
        | close | failed => simp only [feedAll, ht]
      rw [hstop]
      exact ⟨hstate, hflow, fun h => absurd (hflow.trans h) hf⟩

/-- The protocol is given the lines of the whole input, each once and in order, up to and with the
first after which it does not want to proceed; if there is none, what stands behind the last line
feed is kept. Its record of the lines changes nothing else, and where the pieces end does not
matter. -/
theorem feedAll_reassembles (channel : Channel) (t : τ) (pieces : List Bytes) :
    let input := dropReturns pieces.flatten
    let recorded := feedAll p.recording { channel, state := (t, []) } pieces
    let given := recorded.1.state.2
    let flow := recorded.2
    let plain := feedAll p { channel, state := t } pieces
    let whole := feed p { channel, state := t } pieces.flatten
    ((flow = .proceed ∧ given = lines input ∧ Proceeds p.handle (channel, t) given ∧
          recorded.1.pending = remainder input) ∨
        ∃ before last rest, lines input = before ++ last :: rest ∧ given = before ++ [last] ∧
          Proceeds p.handle (channel, t) before ∧
          (p.handle (after p.handle (channel, t) before) last).2 = flow ∧ flow ≠ .proceed) ∧
      (recorded.1.channel, recorded.1.state.1) = after p.handle (channel, t) given ∧
      (plain.1.channel = recorded.1.channel ∧ plain.1.state = recorded.1.state.1 ∧
        plain.2 = flow) ∧
      (whole.1.channel = recorded.1.channel ∧ whole.1.state = recorded.1.state.1 ∧
        whole.2 = flow) := by
  have hr := feedAll_eq_handover p.recording (s := { channel, state := (t, []) })
    List.not_mem_nil pieces
  have hplain := feedAll_eq_handover p (s := { channel, state := t }) List.not_mem_nil pieces
  have hwhole := feed_eq_handover p { channel, state := t } pieces.flatten
  have hspec := handover_spec p.handle (channel, t) (lines (dropReturns pieces.flatten))
  dsimp only at hr hplain hwhole hspec ⊢
  rw [List.nil_append] at hr hplain hwhole
  rw [p.handover_recording] at hr
  generalize handover p.handle (channel, t) (lines (dropReturns pieces.flatten)) = h at *
  obtain ⟨hstate, hflow, hpending⟩ := hr
  have hchannel := congrArg Prod.fst hstate
  have hown := congrArg (·.2.1) hstate
  have hgiven := congrArg (·.2.2) hstate
  dsimp only [List.nil_append] at hchannel hown hgiven
  rw [hchannel, hown, hgiven, hflow]
  refine ⟨?_, hspec.1, ?_, ?_⟩
  · rcases hspec.2 with ⟨hp, hall, hproceeds⟩ | hstop
    · exact .inl ⟨hp, hall, hall ▸ hproceeds, hpending hp⟩
    · exact .inr hstop
  · exact ⟨congrArg Prod.fst hplain.1, congrArg Prod.snd hplain.1, hplain.2.1⟩
  · exact ⟨congrArg Prod.fst hwhole.1, congrArg Prod.snd hwhole.1, hwhole.2.1⟩

end LineSession

end Letterbox
