import Letterbox.Proofs.Net.Reassembly

/-!
# What happens to a connection

A protocol on lines is given lines; apart from that its channel is only touched, closed, or lives
on to another time. Every state of a session is reached by such happenings, however the input is
cut into pieces, so what each of them preserves holds throughout a session.
-/

namespace Letterbox

set_option autoImplicit false

open Lines

inductive Happening where
  | line (raw : Bytes)
  | touched
  | closed (announce : Bool)
  | clock (now : Nat)
deriving DecidableEq, Repr

/-- A line that is handed over has neither returns nor line feeds in it. -/
def Happening.Clean : Happening → Prop
  | line raw => cr ∉ raw ∧ lf ∉ raw
  | touched | closed _ | clock _ => True

namespace Channel

variable (c : Channel)

/-- All that sending can come to. -/
theorem send_cases (data : Bytes) :
    (c.connection.isOpen = true ∧ c.refuses c.sent data = none ∧
        c.send data = ({ c.touch with sent := c.sent ++ data }, .ok ())) ∨
      (∃ text, c.connection.isOpen = true ∧ c.refuses c.sent data = some text ∧
        c.send data = (c.close true, .error (.transport text))) ∨
      (c.connection.isOpen = false ∧ c.send data = (c, .error c.connection.closedFailure)) := by
  cases hopen : c.connection.isOpen with
  | false =>
    refine .inr (.inr ⟨rfl, ?_⟩)
    simp only [send, Connection.send, hopen, Bool.false_eq_true, if_false]
  | true =>
    cases hrefuses : c.refuses c.sent data with
    | none =>
      refine .inl ⟨rfl, rfl, ?_⟩
      simp only [send, Connection.send, hopen, hrefuses, if_true]
      rfl
    | some text =>
      refine .inr (.inl ⟨text, rfl, rfl, ?_⟩)
      simp only [send, Connection.send, hopen, hrefuses, if_true]
      rfl

@[simp] theorem encoding_close (announce : Bool) :
    (c.close announce).connection.encoding = c.connection.encoding := by
  simp only [Channel.close, Connection.close]
  split <;> rfl

@[simp] theorem encoding_sendText (s : String) :
    (c.sendText s).1.connection.encoding = c.connection.encoding := by
  rcases c.send_cases (c.connection.encoding.encode s) with ⟨-, -, h⟩ | ⟨text, -, -, h⟩ | ⟨-, h⟩
  · rw [sendText, h]
    rfl
  · rw [sendText, h]
    exact encoding_close c true
  · rw [sendText, h]

theorem id_close (announce : Bool) : (c.close announce).connection.id = c.connection.id := by
  simp only [Channel.close, Connection.close]
  split <;> rfl

theorem id_sendText (s : String) : (c.sendText s).1.connection.id = c.connection.id := by
  rcases c.send_cases (c.connection.encoding.encode s) with ⟨-, -, h⟩ | ⟨text, -, -, h⟩ | ⟨-, h⟩
  · rw [sendText, h]
    rfl
  · rw [sendText, h]
    exact id_close c true
  · rw [sendText, h]

end Channel

namespace LineProtocol

variable {τ : Type} (p : LineProtocol τ)

/-- The state in which a protocol opens, whether or not it could say so. -/
def opened (channel : Channel) (t : τ) : Channel × τ :=
  let (channel, t, _) := p.begin channel t
  (channel, t)

def happen (s : Channel × τ) : Happening → Channel × τ
  | .line raw => (p.handle s raw).1
  | .touched => (s.1.touch, s.2)
  | .closed announce => (s.1.close announce, s.2)
  | .clock now => ({ s.1 with now }, s.2)

def happenAll (s : Channel × τ) (hs : List Happening) : Channel × τ := hs.foldl p.happen s

theorem happenAll_append (s : Channel × τ) (hs ks : List Happening) :
    p.happenAll s (hs ++ ks) = p.happenAll (p.happenAll s hs) ks := List.foldl_append

/-- What every single happening preserves is preserved by a row of them. -/
theorem happenAll_invariant {P : Channel × τ → Prop} {hs : List Happening}
    (step : ∀ s, ∀ h ∈ hs, P s → P (p.happen s h)) {s : Channel × τ} (hs₀ : P s) :
    P (p.happenAll s hs) := by
  induction hs generalizing s with
  | nil => exact hs₀
  | cons h hs ih =>
    apply ih
    · intro t k hk
      exact step t k (List.mem_cons_of_mem h hk)
    · exact step s h List.mem_cons_self hs₀

/-- Lines that are handed over happen one after the other. -/
theorem handover_happens (s : Channel × τ) (ls : List Bytes) :
    (handover p.handle s ls).state =
      p.happenAll s ((handover p.handle s ls).handed.map .line) := by
  rw [(handover_spec p.handle s ls).1]
  simp only [after, happenAll, List.foldl_map]
  rfl

end LineProtocol

namespace Lines

theorem not_mem_dropReturns (bs : Bytes) : cr ∉ dropReturns bs := by
  simp [dropReturns]

theorem mem_of_mem_lines {bs l : Bytes} (h : l ∈ lines bs) : lf ∉ l ∧ ∀ b ∈ l, b ∈ bs := by
  induction bs using induction_on_lines with
  | rest bs hb =>
    rw [lines_of_not_mem hb] at h
    cases h
  | line k rest hk ih =>
    rw [lines_append_cons hk] at h
    rcases List.mem_cons.mp h with rfl | h
    · exact ⟨hk, fun b hb => List.mem_append_left _ hb⟩
    · obtain ⟨hl, hmem⟩ := ih h
      exact ⟨hl, fun b hb => List.mem_append_right _ (List.mem_cons_of_mem lf (hmem b hb))⟩

theorem mem_of_mem_remainder {bs : Bytes} {b : UInt8} (h : b ∈ remainder bs) : b ∈ bs := by
  induction bs using induction_on_lines with
  | rest bs hb => rwa [remainder_of_not_mem hb] at h
  | line k rest hk ih =>
    rw [remainder_append_cons hk] at h
    exact List.mem_append_right _ (List.mem_cons_of_mem lf (ih h))

/-- Only lines that were there are handed over. -/
theorem mem_of_mem_handed {σ : Type} (handle : σ → Bytes → σ × Flow) (s : σ) {ls : List Bytes}
    {l : Bytes} (h : l ∈ (handover handle s ls).handed) : l ∈ ls := by
  rcases (handover_spec handle s ls).2 with ⟨-, hhanded, -⟩ | ⟨before, last, rest, hls, hhanded, -⟩
  · rwa [hhanded] at h
  · rw [hhanded] at h
    rw [hls]
    rcases List.mem_append.mp h with hbefore | hlast
    · exact List.mem_append_left _ hbefore
    · cases List.mem_singleton.mp hlast
      exact List.mem_append_right _ List.mem_cons_self

end Lines

namespace LineSession

variable {τ : Type} (p : LineProtocol τ)

theorem feed_happens (s : LineSession τ) (hp : cr ∉ s.pending) (piece : Bytes) :
    ∃ hs : List Happening, (∀ h ∈ hs, h.Clean) ∧
      ((feed p s piece).1.channel, (feed p s piece).1.state) =
        p.happenAll (s.channel, s.state) hs ∧
      ((feed p s piece).2 = .proceed → cr ∉ (feed p s piece).1.pending) := by
  obtain ⟨hstate, hflow, hpending⟩ := feed_eq_handover p s piece
  have hcr : cr ∉ s.pending ++ dropReturns piece := by
    rw [List.mem_append, not_or]
    exact ⟨hp, not_mem_dropReturns piece⟩
  generalize s.pending ++ dropReturns piece = b at hstate hflow hpending hcr
  rw [p.handover_happens] at hstate
  refine ⟨_, ?_, hstate, ?_⟩
  · intro h hh
    obtain ⟨l, hl, rfl⟩ := List.mem_map.mp hh
    obtain ⟨hlf, hmem⟩ := mem_of_mem_lines (mem_of_mem_handed _ _ hl)
    exact ⟨fun hb => hcr (hmem cr hb), hlf⟩
  · intro hproceed hmem
    rw [hpending (hflow.symm.trans hproceed)] at hmem
    exact hcr (mem_of_mem_remainder hmem)

/-- Whatever comes in, and however, a session goes from one happening to the next. -/
theorem receive_happens (s : LineSession τ) (hp : cr ∉ s.pending) (input : List Incoming) :
    ∃ hs : List Happening, (∀ h ∈ hs, h.Clean) ∧
      ((receive p s input).channel, (receive p s input).state) =
        p.happenAll (s.channel, s.state) hs := by
  have hstay : ∃ hs : List Happening, (∀ h ∈ hs, h.Clean) ∧
      (s.channel, s.state) = p.happenAll (s.channel, s.state) hs :=
    ⟨[], List.forall_mem_nil _, rfl⟩
  induction input generalizing s with
  | nil => exact hstay
  | cons incoming rest ih =>
    by_cases hopen : s.channel.connection.isOpen = true
    · cases incoming with
      | ended | failed =>
        simp only [receive, hopen, if_true]
        exact hstay
      | closedMeanwhile announce =>
        simp only [receive, hopen, if_true]
        exact ⟨[.closed announce], List.forall_mem_singleton.mpr trivial, rfl⟩
      | bytes data =>
        by_cases hdata : data = []
        · subst hdata
          simp only [receive, hopen, if_true]
          exact ih s hp hstay
        obtain ⟨hs, hclean, hstate, hpending⟩ :=
          feed_happens p { s with channel := s.channel.touch } hp data
        have htouched : ∀ h ∈ Happening.touched :: hs, h.Clean :=
          List.forall_mem_cons.mpr ⟨trivial, hclean⟩
        obtain ⟨t, flow, ht⟩ : ∃ t flow, feed p { s with channel := s.channel.touch } data =
          (t, flow) := ⟨_, _, rfl⟩
        rw [ht] at hstate hpending
        cases flow with
        | close | failed =>
          simp only [receive, hopen, if_true, ht]
          exact ⟨.touched :: hs, htouched, hstate⟩
        | proceed =>
          simp only [receive, hopen, if_true, ht]
          obtain ⟨ks, hks, hfinal⟩ := ih t (hpending rfl) ⟨[], List.forall_mem_nil _, rfl⟩
          refine ⟨(.touched :: hs) ++ ks, List.forall_mem_append.mpr ⟨htouched, hks⟩, ?_⟩
          rw [hfinal, p.happenAll_append, hstate]
          rfl
    · simp only [receive, if_neg hopen]
      exact hstay

/-- The whole life of a connection, from where its protocol has opened. -/
theorem run_happens (s : LineSession τ) (hp : cr ∉ s.pending) (input : List Incoming) :
    ∃ hs : List Happening, (∀ h ∈ hs, h.Clean) ∧
      ((run p s input).1.channel, (run p s input).1.state) =
        p.happenAll (p.opened s.channel s.state) hs := by
  have hclosed : ∀ h ∈ [Happening.closed true], h.Clean := List.forall_mem_singleton.mpr trivial
  obtain ⟨t, result, ht⟩ : ∃ t result, begin p s = (t, result) := ⟨_, _, rfl⟩
  have hpending : t.pending = s.pending := by
    cases ht
    rfl
  have hopened : p.opened s.channel s.state = (t.channel, t.state) := by
    cases ht
    rfl
  rw [hopened]
  cases result with
  | error f =>
    simp only [run, ht]
    exact ⟨[.closed true], hclosed, rfl⟩
  | ok u =>
    simp only [run, ht]
    obtain ⟨hs, hclean, hstate⟩ := receive_happens p t (hpending ▸ hp) input
    refine ⟨hs ++ [.closed true], List.forall_mem_append.mpr ⟨hclean, hclosed⟩, ?_⟩
    rw [p.happenAll_append, ← hstate]
    rfl

end LineSession

end Letterbox
