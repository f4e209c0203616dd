import Letterbox.Text.Utf8
import Mathlib.Logic.Relation

/-!
# Dialogues over two streams

Two parties hear bytes and say bytes. What one of them says reaches the other in pieces of any size
and after any delay, but complete and in order. If what a party says depends only on the bytes that
it has heard, then the pieces and the order of their deliveries do not matter: where one run of the
dialogue comes to rest, every run comes to rest, and at the same place.
-/

namespace Letterbox

set_option autoImplicit false

structure Party (σ : Type) where
  start : σ
  hear : σ → Bytes → σ
  said : σ → Bytes

namespace Party

variable {σ ρ : Type} (p : Party σ)

def hears (pieces : List Bytes) : σ := pieces.foldl p.hear p.start

def whole (x : Bytes) : σ := p.hear p.start x

/-- What a party says, and what is seen of it, depends on the bytes and not on their pieces, and
what was said is not taken back. -/
structure Steady (view : σ → ρ) : Prop where
  said_hears : ∀ pieces, p.said (p.hears pieces) = p.said (p.whole pieces.flatten)
  view_hears : ∀ pieces, view (p.hears pieces) = view (p.whole pieces.flatten)
  said_hear : ∀ s piece, p.said s <+: p.said (p.hear s piece)

variable {p} {view : σ → ρ}

theorem hears_concat (pieces : List Bytes) (piece : Bytes) :
    p.hears (pieces ++ [piece]) = p.hear (p.hears pieces) piece := by
  simp only [hears, List.foldl_append, List.foldl_cons, List.foldl_nil]

theorem Steady.said_whole_mono (h : p.Steady view) {x z : Bytes} (hxz : x <+: z) :
    p.said (p.whole x) <+: p.said (p.whole z) := by
  obtain ⟨rest, rfl⟩ := hxz
  have hrest : p.said (p.hears [x, rest]) = p.said (p.whole (x ++ rest)) := by
    simpa only [List.flatten_cons, List.flatten_nil, List.append_nil] using h.said_hears [x, rest]
  rw [← hrest]
  exact h.said_hear (p.whole x) rest

end Party

/-- Two parties, and the bytes that each of them has heard from the other. -/
structure Dialogue (σ τ : Type) where
  near : σ
  far : τ
  heardNear : Bytes := []
  heardFar : Bytes := []

namespace Dialogue

variable {σ τ ρ υ : Type} (p : Party σ) (q : Party τ)

def fresh : Dialogue σ τ := { near := p.start, far := q.start }

inductive Step : Dialogue σ τ → Dialogue σ τ → Prop where
  | toFar (d : Dialogue σ τ) (piece : Bytes) : piece ≠ [] → d.heardFar ++ piece <+: p.said d.near →
    Step d { d with far := q.hear d.far piece, heardFar := d.heardFar ++ piece }
  | toNear (d : Dialogue σ τ) (piece : Bytes) : piece ≠ [] → d.heardNear ++ piece <+: q.said d.far →
    Step d { d with near := p.hear d.near piece, heardNear := d.heardNear ++ piece }

/-- Some deliveries lead from one state to another. -/
def Reaches : Dialogue σ τ → Dialogue σ τ → Prop := Relation.ReflTransGen (Step p q)

/-- Nothing more can arrive. -/
def Ended (d : Dialogue σ τ) : Prop := ∀ d', ¬ Step p q d d'

structure AtRest (d : Dialogue σ τ) : Prop where
  far : d.heardFar = p.said d.near
  near : d.heardNear = q.said d.far

/-- What holds at all times: each party has heard, in some pieces, a beginning of what the other has
said. -/
structure Sound (d : Dialogue σ τ) : Prop where
  near : ∃ pieces, d.near = p.hears pieces ∧ pieces.flatten = d.heardNear
  far : ∃ pieces, d.far = q.hears pieces ∧ pieces.flatten = d.heardFar
  heardNear : d.heardNear <+: q.said d.far
  heardFar : d.heardFar <+: p.said d.near

variable {p q} {view : σ → ρ} {look : τ → υ} {d e : Dialogue σ τ}

theorem sound_fresh : Sound p q (fresh p q) :=
  ⟨⟨[], rfl, rfl⟩, ⟨[], rfl, rfl⟩, List.nil_prefix, List.nil_prefix⟩

theorem Sound.step (hp : p.Steady view) (hq : q.Steady look) (h : Sound p q d)
    (hstep : Step p q d e) : Sound p q e := by
  cases hstep with
  | toFar piece _ hpiece =>
    obtain ⟨pieces, hfar, hheard⟩ := h.far
    refine ⟨h.near, ⟨pieces ++ [piece], ?_, ?_⟩, ?_, hpiece⟩
    · rw [Party.hears_concat, hfar]
    · rw [List.flatten_concat, hheard]
    · exact h.heardNear.trans (hq.said_hear d.far piece)
  | toNear piece _ hpiece =>
    obtain ⟨pieces, hnear, hheard⟩ := h.near
    refine ⟨⟨pieces ++ [piece], ?_, ?_⟩, h.far, hpiece, ?_⟩
    · rw [Party.hears_concat, hnear]
    · rw [List.flatten_concat, hheard]
    · exact h.heardFar.trans (hp.said_hear d.near piece)

theorem sound_of_reaches (hp : p.Steady view) (hq : q.Steady look)
    (h : Reaches p q (fresh p q) d) : Sound p q d := by
  induction h with
  | refl => exact sound_fresh
  | tail _ hstep ih => exact ih.step hp hq hstep

theorem Sound.said_near (hp : p.Steady view) (h : Sound p q d) :
    p.said d.near = p.said (p.whole d.heardNear) := by
  obtain ⟨pieces, hnear, hheard⟩ := h.near
  rw [hnear, hp.said_hears, hheard]

theorem Sound.said_far (hq : q.Steady look) (h : Sound p q d) :
    q.said d.far = q.said (q.whole d.heardFar) := by
  obtain ⟨pieces, hfar, hheard⟩ := h.far
  rw [hfar, hq.said_hears, hheard]

theorem Sound.view_near (hp : p.Steady view) (h : Sound p q d) :
    view d.near = view (p.whole d.heardNear) := by
  obtain ⟨pieces, hnear, hheard⟩ := h.near
  rw [hnear, hp.view_hears, hheard]

theorem Sound.look_far (hq : q.Steady look) (h : Sound p q d) :
    look d.far = look (q.whole d.heardFar) := by
  obtain ⟨pieces, hfar, hheard⟩ := h.far
  rw [hfar, hq.view_hears, hheard]

/-- At all times less has been heard than at any state of rest. -/
theorem heard_le_of_atRest (hp : p.Steady view) (hq : q.Steady look)
    (hd : Reaches p q (fresh p q) d) (he : Sound p q e) (hrest : AtRest p q e) :
    d.heardNear <+: e.heardNear ∧ d.heardFar <+: e.heardFar := by
  induction hd with
  | refl => exact ⟨List.nil_prefix, List.nil_prefix⟩
  | @tail c d hc hstep ih =>
    obtain ⟨hnear, hfar⟩ := ih
    have hsound := sound_of_reaches hp hq hc
    cases hstep with
    | toFar piece _ hpiece =>
      refine ⟨hnear, hpiece.trans ?_⟩
      rw [hsound.said_near hp, hrest.far, he.said_near hp]
      exact hp.said_whole_mono hnear
    | toNear piece _ hpiece =>
      refine ⟨hpiece.trans ?_, hfar⟩
      rw [hsound.said_far hq, hrest.near, he.said_far hq]
      exact hq.said_whole_mono hfar

theorem heard_eq_of_atRest (hp : p.Steady view) (hq : q.Steady look)
    (hd : Reaches p q (fresh p q) d) (he : Reaches p q (fresh p q) e) (hdrest : AtRest p q d)
    (herest : AtRest p q e) : d.heardNear = e.heardNear ∧ d.heardFar = e.heardFar := by
  obtain ⟨hnear, hfar⟩ := heard_le_of_atRest hp hq hd (sound_of_reaches hp hq he) herest
  obtain ⟨hnear', hfar'⟩ := heard_le_of_atRest hp hq he (sound_of_reaches hp hq hd) hdrest
  exact ⟨hnear.eq_of_length_le hnear'.length_le, hfar.eq_of_length_le hfar'.length_le⟩

/-- As long as something is on its way, something can arrive. -/
theorem Sound.atRest_of_ended (h : Sound p q d) (hended : Ended p q d) : AtRest p q d := by
  obtain ⟨restFar, hrestFar⟩ := h.heardFar
  obtain ⟨restNear, hrestNear⟩ := h.heardNear
  constructor
  · by_cases hempty : restFar = []
    · rw [← hrestFar, hempty, List.append_nil]
    · exact absurd (.toFar d restFar hempty ⟨[], by rw [List.append_nil, hrestFar]⟩) (hended _)
  · by_cases hempty : restNear = []
    · rw [← hrestNear, hempty, List.append_nil]
    · exact absurd (.toNear d restNear hempty ⟨[], by rw [List.append_nil, hrestNear]⟩) (hended _)

/-- If some run comes to rest, none goes on for ever. -/
theorem acc_of_atRest (hp : p.Steady view) (hq : q.Steady look) (he : Sound p q e)
    (hrest : AtRest p q e) (hd : Reaches p q (fresh p q) d) :
    Acc (fun d' d => Step p q d d') d := by
  -- With every step more has been heard, and never more than at rest.
  induction hn : e.heardNear.length + e.heardFar.length - (d.heardNear.length + d.heardFar.length)
    using Nat.strongRecOn generalizing d with
  | _ n ih =>
    constructor
    intro d' hstep
    have hd' : Reaches p q (fresh p q) d' := hd.tail hstep
    obtain ⟨hnear, hfar⟩ := heard_le_of_atRest hp hq hd' he hrest
    have hnearlen := hnear.length_le
    have hfarlen := hfar.length_le
    refine ih _ ?_ hd' rfl
    rw [← hn]
    cases hstep with
    | toFar piece hne _ | toNear piece hne _ =>
      have hpos := List.length_pos_iff.mpr hne
      simp only [List.length_append] at hnearlen hfarlen ⊢
      omega

/-- Where one run comes to rest, every run comes to an end, and each sees the same. -/
theorem settles (hp : p.Steady view) (hq : q.Steady look) (he : Reaches p q (fresh p q) e)
    (hrest : AtRest p q e) :
    Acc (fun d' d => Step p q d d') (fresh p q) ∧
      ∀ d, Reaches p q (fresh p q) d → Ended p q d →
        view d.near = view e.near ∧ look d.far = look e.far := by
  have hesound := sound_of_reaches hp hq he
  refine ⟨acc_of_atRest hp hq hesound hrest .refl, ?_⟩
  intro d hd hended
  have hsound := sound_of_reaches hp hq hd
  obtain ⟨hnear, hfar⟩ := heard_eq_of_atRest hp hq hd he (hsound.atRest_of_ended hended) hrest
  refine ⟨?_, ?_⟩
  · rw [hsound.view_near hp, hesound.view_near hp, hnear]
  · rw [hsound.look_far hq, hesound.look_far hq, hfar]

end Dialogue

end Letterbox
