import Mathlib.Data.Bool.Basic
import Mathlib.Data.List.Basic
import Letterbox.Proofs.Dispatch.Snapshots

/-!
# One sweep at a time

The loop marks that a sweep is being run, and the task of the sweep takes the mark back, whether it
is done or was told to end. In a step of a dispatcher a task ends at once. Here its end is taken
apart: it announces its failures one by one, then takes back the mark, then is gone, and between any
two of these the loop and the other tasks go on.
-/

set_option autoImplicit false

namespace Letterbox.Dispatcher

structure Departure where
  toTell : List Event := []
  /-- Whether it has still to take back the mark of its sweep. -/
  isMarked : Bool := false

/-- A dispatcher, and the tasks at their end. -/
structure Crew where
  core : Dispatcher
  departing : List Departure := []

namespace Crew

def finish (s : Crew) (id : Nat) : Crew :=
  match s.core.tasks.find? (·.id = id) with
  | none => s
  | some t => match t.outcomes? with
    | none => s
    | some outcomes =>
      { core := s.core.dropTask id
        departing := s.departing ++
          [{ toTell := Outcome.failureEvents (some t.message.path) outcomes }] }

def finishSweep (s : Crew) (id : Nat) : Crew :=
  match s.core.sweeps.find? (·.id = id) with
  | none => s
  | some t =>
    if t.sweep.isFinished then
      { core := { s.core with sweeps := s.core.sweeps.filter (·.id != id) }
        departing := s.departing ++
          [{ toTell := Outcome.failureEvents none t.sweep.outcomes, isMarked := true }] }
    else s

def cancel (s : Crew) (id : Nat) : Crew :=
  if s.core.stopping then
    { core := { s.core.dropTask id with sweeps := s.core.sweeps.filter (·.id != id) }
      departing := s.departing ++
        ((s.core.tasks.filter (·.id == id)).map fun _ => {}) ++
        (s.core.sweeps.filter (·.id == id)).map fun _ => { isMarked := true } }
  else s

inductive Move where
  | step (now : Nat) (l : Label)
  | tell (index : Nat)
  | unmark (index : Nat)
  | part (index : Nat)

def move (s : Crew) : Move → Crew
  | .step _ (.finish id) => s.finish id
  | .step _ (.finishSweep id) => s.finishSweep id
  | .step _ (.cancel id) => s.cancel id
  | .step _ .join => if s.departing.isEmpty then { s with core := s.core.join } else s
  | .step now l => { s with core := s.core.step now l }
  | .tell index => match s.departing[index]? with
    | some ⟨e :: rest, isMarked⟩ =>
      { core := s.core.announce [e], departing := s.departing.set index ⟨rest, isMarked⟩ }
    | _ => s
  | .unmark index => match s.departing[index]? with
    | some ⟨[], true⟩ =>
      { core := { s.core with sweeping := false }, departing := s.departing.set index {} }
    | _ => s
  | .part index => match s.departing[index]? with
    | some ⟨[], false⟩ => { s with departing := s.departing.eraseIdx index }
    | _ => s

def moves (s : Crew) (ms : List Move) : Crew := ms.foldl move s

theorem moves_append (s : Crew) (ms more : List Move) :
    s.moves (ms ++ more) = (s.moves ms).moves more := List.foldl_append

/-! ## The mark -/

/-- The mark is set for one sweep that is being run or has yet to take it back; when the loop has
ended nobody is left. -/
structure Kept (s : Crew) : Prop where
  marked : s.core.sweeps.length + s.departing.countP (·.isMarked) = s.core.sweeping.toNat
  ended : s.core.loop = .ended → s.core.tasks = [] ∧ s.core.sweeps = [] ∧ s.departing = []

theorem kept_new (initial : List Rule) : Kept { core := { rules := initial } } := ⟨rfl, nofun⟩

/-- A task in its place among those at their end. -/
theorem departure_split {ds : List Departure} {index : Nat} {x : Departure}
    (h : ds[index]? = some x) :
    ∃ before after, ds = before ++ x :: after ∧
      (∀ y, ds.set index y = before ++ y :: after) ∧ ds.eraseIdx index = before ++ after := by
  induction ds generalizing index with
  | nil => cases h
  | cons d ds ih =>
    cases index with
    | zero =>
      cases h
      exact ⟨[], ds, rfl, fun _ => rfl, rfl⟩
    | succ index =>
      obtain ⟨before, after, hds, hset, herase⟩ := ih h
      refine ⟨d :: before, after, congrArg (d :: ·) hds, fun y => congrArg (d :: ·) (hset y), ?_⟩
      exact congrArg (d :: ·) herase

variable {s : Crew}

/-- Steps in which no task ends. -/
theorem Kept.core_step (h : s.Kept) (now : Nat) (l : Label) (hfinish : ∀ id, l ≠ .finish id)
    (hsweep : ∀ id, l ≠ .finishSweep id) (hcancel : ∀ id, l ≠ .cancel id) (hjoin : l ≠ .join) :
    Kept { s with core := s.core.step now l } := by
  obtain ⟨core, departing⟩ := s
  obtain ⟨hmarked, hended⟩ := h
  dsimp only at hmarked hended ⊢
  cases l with
  | finish id => exact absurd rfl (hfinish id)
  | finishSweep id => exact absurd rfl (hsweep id)
  | cancel id => exact absurd rfl (hcancel id)
  | join => exact absurd rfl hjoin
  | disconnect | shutdown => exact ⟨hmarked, hended⟩
  | arrive e =>
    simp only [step]
    split <;> exact ⟨hmarked, hended⟩
  | receive =>
    simp only [step, receive]
    split
    · rename_i hloop
      split
      · rw [hear_eq]
        refine ⟨hmarked, fun hloop' => ?_⟩
        exact absurd (hloop.symm.trans hloop') Loop.noConfusion
      · split
        · exact ⟨hmarked, Loop.noConfusion⟩
        · exact ⟨hmarked, hended⟩
    · exact ⟨hmarked, hended⟩
    · exact ⟨hmarked, hended⟩
  | tick =>
    simp only [step, tick]
    split
    · rename_i hloop
      cases hsweeping : core.sweeping with
      | true => exact ⟨hmarked, hended⟩
      | false =>
        refine ⟨?_, fun hloop' => absurd (hloop.symm.trans hloop') Loop.noConfusion⟩
        rw [hsweeping] at hmarked
        simp only [Bool.false_eq_true, if_false, List.length_append, List.length_singleton,
          Bool.toNat_true, Bool.toNat_false] at hmarked ⊢
        omega
    · exact ⟨hmarked, hended⟩
    · exact ⟨hmarked, hended⟩
  | leave =>
    simp only [step, leave]
    split
    · exact ⟨hmarked, Loop.noConfusion⟩
    · exact ⟨hmarked, hended⟩
  | begin | load | attempt | resume =>
    refine ⟨hmarked, fun hloop => ?_⟩
    obtain ⟨htasks, hsweeps, hdeparting⟩ := hended hloop
    exact ⟨List.map_eq_nil_iff.mpr htasks, hsweeps, hdeparting⟩
  | beginSweep | list | delete =>
    refine ⟨?_, fun hloop => ?_⟩
    · simp only [step, onSweep, List.length_map]
      exact hmarked
    · obtain ⟨htasks, hsweeps, hdeparting⟩ := hended hloop
      exact ⟨htasks, List.map_eq_nil_iff.mpr hsweeps, hdeparting⟩

theorem Kept.finish (h : s.Kept) (id : Nat) : (s.finish id).Kept := by
  unfold Crew.finish
  split
  · exact h
  · rename_i t ht
    split
    · exact h
    · refine ⟨?_, fun hloop => ?_⟩
      · rw [List.countP_append]
        exact h.marked
      · rw [(h.ended hloop).1] at ht
        cases ht

/-- A sweep that is done was the only one. -/
theorem Kept.finishSweep (h : s.Kept) (id : Nat) : (s.finishSweep id).Kept := by
  unfold Crew.finishSweep
  split
  · exact h
  · rename_i t ht
    have hfound := List.find?_some ht
    have hid : t.id = id := of_decide_eq_true hfound
    split
    · have hmarked := h.marked
      have hle := Bool.toNat_le s.core.sweeping
      have hone : s.core.sweeps = [t] := by
        have hmem := List.mem_of_find?_eq_some ht
        cases hsweeps : s.core.sweeps with
        | nil =>
          rw [hsweeps] at hmem
          cases hmem
        | cons u rest =>
          rw [hsweeps, List.length_cons] at hmarked
          have hrest : rest = [] := List.length_eq_zero_iff.mp (by omega)
          rw [hsweeps, hrest] at hmem
          rw [List.mem_singleton.mp hmem, hrest]
      refine ⟨?_, fun hloop => ?_⟩
      · rw [List.countP_append, hone, List.filter_cons_of_neg (by simp [hid])]
        rw [hone] at hmarked
        simp only [List.filter_nil, List.length_nil, List.length_singleton,
          List.countP_singleton, if_true] at hmarked ⊢
        omega
      · rw [(h.ended hloop).2.1] at ht
        cases ht
    · exact h

/-- Whoever sees that it is to end goes among those at their end, a sweep with its mark. -/
theorem Kept.cancel (h : s.Kept) (id : Nat) : (s.cancel id).Kept := by
  unfold Crew.cancel
  split
  · refine ⟨?_, fun hloop => ?_⟩
    · have hmarked := h.marked
      have hparts := List.length_eq_length_filter_add (l := s.core.sweeps) (·.id == id)
      rw [List.countP_append, List.countP_append, List.countP_map, List.countP_map]
      simp only [Function.comp_def, List.countP_false, Function.const_apply, List.countP_true,
        dropTask, Nat.add_zero] at hmarked hparts ⊢
      have hsame : (s.core.sweeps.filter (·.id != id)).length =
          (s.core.sweeps.filter (!·.id == id)).length := rfl
      omega
    · obtain ⟨htasks, hsweeps, hdeparting⟩ := h.ended hloop
      rw [dropTask, htasks, hsweeps, hdeparting]
      exact ⟨rfl, rfl, rfl⟩
  · exact h

theorem Kept.join (h : s.Kept) (hdeparting : s.departing = []) :
    Kept { s with core := s.core.join } := by
  unfold Dispatcher.join
  split
  · rename_i htasks hsweeps
    exact ⟨h.marked, fun _ => ⟨htasks, hsweeps, hdeparting⟩⟩
  · exact h

theorem Kept.move (h : s.Kept) (x : Move) : (s.move x).Kept := by
  cases x with
  | step now l =>
    cases l with
    | finish id => exact h.finish id
    | finishSweep id => exact h.finishSweep id
    | cancel id => exact h.cancel id
    | join =>
      simp only [Crew.move]
      split
      · rename_i hdeparting
        exact h.join (List.isEmpty_iff.mp hdeparting)
      · exact h
    | _ => exact h.core_step now _ nofun nofun nofun nofun
  | tell index =>
    simp only [Crew.move]
    split
    · rename_i e rest isMarked hget
      obtain ⟨before, after, hds, hset, -⟩ := departure_split hget
      refine ⟨?_, fun hloop => ?_⟩
      · have hmarked := h.marked
        rw [hds, List.countP_append, List.countP_cons] at hmarked
        rw [hset, List.countP_append, List.countP_cons]
        exact hmarked
      · rw [(h.ended hloop).2.2] at hget
        cases hget
    · exact h
  | unmark index =>
    simp only [Crew.move]
    split
    · rename_i hget
      obtain ⟨before, after, hds, hset, -⟩ := departure_split hget
      refine ⟨?_, fun hloop => ?_⟩
      · have hmarked := h.marked
        have hle := Bool.toNat_le s.core.sweeping
        rw [hds, List.countP_append, List.countP_cons] at hmarked
        rw [hset, List.countP_append, List.countP_cons]
        simp only [if_true, Bool.false_eq_true, if_false, Bool.toNat_false] at hmarked ⊢
        omega
      · rw [(h.ended hloop).2.2] at hget
        cases hget
    · exact h
  | part index =>
    simp only [Crew.move]
    split
    · rename_i hget
      obtain ⟨before, after, hds, -, herase⟩ := departure_split hget
      refine ⟨?_, fun hloop => ?_⟩
      · have hmarked := h.marked
        rw [hds, List.countP_append, List.countP_cons] at hmarked
        rw [herase, List.countP_append]
        exact hmarked
      · rw [(h.ended hloop).2.2] at hget
        cases hget
    · exact h

theorem Kept.moves (h : s.Kept) (ms : List Move) : (s.moves ms).Kept := by
  induction ms generalizing s with
  | nil => exact h
  | cons x ms ih => exact ih (h.move x)

/-! ## After the end -/

/-- When the loop has ended nothing is announced any more. -/
theorem Kept.ended_move (h : s.Kept) (hloop : s.core.loop = .ended) (x : Move) :
    (s.move x).core.loop = .ended ∧ (s.move x).core.announced = s.core.announced := by
  obtain ⟨htasks, hsweeps, hdeparting⟩ := h.ended hloop
  cases x with
  | tell index | unmark index | part index =>
    have hnone : s.departing[index]? = none := by rw [hdeparting]; rfl
    simp only [Crew.move, hnone]
    exact ⟨hloop, trivial⟩
  | step now l =>
    cases l with
    | finish id =>
      simp only [Crew.move, Crew.finish, htasks, List.find?_nil]
      exact ⟨hloop, trivial⟩
    | finishSweep id =>
      simp only [Crew.move, Crew.finishSweep, hsweeps, List.find?_nil]
      exact ⟨hloop, trivial⟩
    | cancel id =>
      simp only [Crew.move, Crew.cancel]
      split <;> exact ⟨hloop, rfl⟩
    | join =>
      simp only [Crew.move, Dispatcher.join, hloop]
      split <;> exact ⟨hloop, rfl⟩
    | arrive e =>
      simp only [Crew.move, Dispatcher.step]
      split <;> exact ⟨hloop, rfl⟩
    | receive | tick | leave =>
      simp only [Crew.move, Dispatcher.step, receive, tick, leave, hloop, and_self]
    | disconnect | shutdown | begin | load | attempt | resume | beginSweep | list | delete =>
      exact ⟨hloop, rfl⟩

theorem Kept.ended_moves (h : s.Kept) (hloop : s.core.loop = .ended) (ms : List Move) :
    (s.moves ms).core.loop = .ended ∧ (s.moves ms).core.announced = s.core.announced := by
  induction ms generalizing s with
  | nil => exact ⟨hloop, rfl⟩
  | cons x ms ih =>
    obtain ⟨hloop', hsame⟩ := h.ended_move hloop x
    obtain ⟨hlater, hsames⟩ := ih (h.move x) hloop'
    exact ⟨hlater, hsames.trans hsame⟩

/-! ## Ends that nothing comes between -/

/-- A task announces all that it has to. -/
theorem tells (core : Dispatcher) (events : List Event) (isMarked : Bool) (rest : List Departure) :
    ∃ ms, moves ⟨core, ⟨events, isMarked⟩ :: rest⟩ ms =
      ⟨core.announce events, ⟨[], isMarked⟩ :: rest⟩ := by
  induction events generalizing core with
  | nil => exact ⟨[], by rw [announce, List.append_nil]; rfl⟩
  | cons e events ih =>
    obtain ⟨ms, hms⟩ := ih (core.announce [e])
    refine ⟨.tell 0 :: ms, hms.trans ?_⟩
    simp only [announce, List.append_assoc, List.singleton_append]

/-- All that are at their end come to it. -/
theorem departs (core : Dispatcher) (departing : List Departure) :
    ∃ ms, moves ⟨core, departing⟩ ms =
      { core :=
          { core.announce (departing.flatMap (·.toTell)) with
            sweeping := core.sweeping && !departing.any (·.isMarked) } } := by
  induction departing generalizing core with
  | nil =>
    refine ⟨[], ?_⟩
    simp only [List.flatMap_nil, announce, List.append_nil, List.any_nil, Bool.not_false,
      Bool.and_true]
    rfl
  | cons x departing ih =>
    obtain ⟨events, isMarked⟩ := x
    obtain ⟨tells, htells⟩ := tells core events isMarked departing
    cases isMarked with
    | false =>
      obtain ⟨ms, hms⟩ := ih (core.announce events)
      refine ⟨tells ++ .part 0 :: ms, ?_⟩
      rw [moves_append, htells]
      refine hms.trans ?_
      simp only [announce, List.flatMap_cons, List.append_assoc, List.any_cons, Bool.false_or]
    | true =>
      obtain ⟨ms, hms⟩ := ih { core.announce events with sweeping := false }
      refine ⟨tells ++ .unmark 0 :: .part 0 :: ms, ?_⟩
      rw [moves_append, htells]
      refine hms.trans ?_
      simp only [announce, List.flatMap_cons, List.append_assoc, List.any_cons, Bool.true_or,
        Bool.not_true, Bool.and_false, Bool.false_and]

/-- Where all that are at their end come to it. -/
def settled (s : Crew) : Dispatcher :=
  { s.core.announce (s.departing.flatMap (·.toTell)) with
    sweeping := s.core.sweeping && !s.departing.any (·.isMarked) }

theorem settled_core (d : Dispatcher) : settled { core := d } = d := by
  simp only [settled, List.flatMap_nil, announce, List.append_nil, List.any_nil, Bool.not_false,
    Bool.and_true]

theorem settled_finish (d : Dispatcher) (id : Nat) :
    (Crew.finish { core := d } id).settled = d.finish id := by
  cases hfound : d.tasks.find? (·.id = id) with
  | none =>
    simp only [Crew.finish, Dispatcher.finish, hfound]
    exact settled_core d
  | some t =>
    cases houtcomes : t.outcomes? with
    | none =>
      simp only [Crew.finish, Dispatcher.finish, hfound, houtcomes]
      exact settled_core d
    | some outcomes =>
      simp only [Crew.finish, Dispatcher.finish, hfound, houtcomes, settled, List.nil_append,
        List.flatMap_singleton, List.any_cons, List.any_nil, Bool.or_self, Bool.not_false,
        Bool.and_true]
      rfl

theorem settled_finishSweep (d : Dispatcher) (id : Nat) :
    (Crew.finishSweep { core := d } id).settled = d.finishSweep id := by
  cases hfound : d.sweeps.find? (·.id = id) with
  | none =>
    simp only [Crew.finishSweep, Dispatcher.finishSweep, hfound]
    exact settled_core d
  | some t =>
    have hid := List.find?_some hfound
    have hany : d.sweeps.any (·.id = id) = true :=
      List.any_eq_true.mpr ⟨t, List.mem_of_find?_eq_some hfound, hid⟩
    simp only [Crew.finishSweep, Dispatcher.finishSweep, hfound]
    split
    · simp only [settled, List.nil_append, List.flatMap_singleton, List.any_cons, List.any_nil,
        Bool.or_false, Bool.not_true, Bool.and_false, dropSweep, hany, if_true]
      rfl
    · exact settled_core d

theorem settled_cancel (d : Dispatcher) (id : Nat) :
    (Crew.cancel { core := d } id).settled = d.cancel id := by
  simp only [Crew.cancel, Dispatcher.cancel]
  split
  · have hnothing {α : Type} (xs : List α) (isMarked : Bool) :
        (xs.map fun _ => ({ isMarked } : Departure)).flatMap (·.toTell) = [] :=
      List.flatMap_eq_nil_iff.mpr (List.forall_mem_map.mpr fun _ _ => rfl)
    have htasks : ((d.tasks.filter (·.id == id)).map fun _ => ({} : Departure)).any (·.isMarked) =
        false := List.any_eq_false.mpr (List.forall_mem_map.mpr fun _ _ => Bool.false_ne_true)
    simp only [settled, List.nil_append, List.flatMap_append, List.any_append, hnothing, htasks,
      Bool.false_or, List.any_map, Function.comp_def, List.any_filter, Bool.and_true, announce,
      List.append_nil]
    have hsame : (d.dropTask id).sweeps.any (·.id = id) = d.sweeps.any (·.id == id) := rfl
    rw [dropSweep, hsame]
    cases hany : d.sweeps.any (·.id == id) with
    | true =>
      simp only [Bool.not_true, Bool.and_false, if_true]
      rfl
    | false =>
      -- nobody leaves the list of sweeps
      have hkeep : d.sweeps.filter (·.id != id) = d.sweeps :=
        List.filter_eq_self.mpr fun t ht => by simpa using List.any_eq_false.mp hany t ht
      simp only [hkeep, Bool.not_false, Bool.and_true, Bool.false_eq_true, if_false]
      rfl
  · exact settled_core d

/-- A step of a dispatcher is the same as some moves: the first brings tasks to their end, and
nothing comes between until they are gone. -/
theorem step_moves (d : Dispatcher) (now : Nat) (l : Label) :
    ∃ ms, moves { core := d } ms = { core := d.step now l } := by
  obtain ⟨ms, hms⟩ := departs (move { core := d } (.step now l)).core
    (move { core := d } (.step now l)).departing
  refine ⟨.step now l :: ms, hms.trans (congrArg (fun core => Crew.mk core []) ?_)⟩
  change settled (move { core := d } (.step now l)) = d.step now l
  cases l with
  | finish id => exact settled_finish d id
  | finishSweep id => exact settled_finishSweep d id
  | cancel id => exact settled_cancel d id
  | _ => exact settled_core _

theorem steps_moves (d : Dispatcher) (ls : List (Nat × Label)) :
    ∃ ms, moves { core := d } ms = { core := d.steps ls } := by
  induction ls generalizing d with
  | nil => exact ⟨[], rfl⟩
  | cons x ls ih =>
    obtain ⟨ms, hms⟩ := step_moves d x.1 x.2
    obtain ⟨more, hmore⟩ := ih (d.step x.1 x.2)
    refine ⟨ms ++ more, ?_⟩
    rw [moves_append, hms]
    exact hmore

/-! ## Sweeps -/

/-- However the tasks go on and come to their ends: no two sweeps are run at a time, the mark stands
for the one that is or that has yet to take it back, so that a tick begins a sweep when there is
none, and once the loop has ended nobody is at work and nothing more is announced. The steps of a
dispatcher are among the moves. -/
theorem one_sweep_at_a_time (initial : List Rule) :
    (∀ ms : List Move,
      let s := moves { core := { rules := initial } } ms
      s.core.sweeps.length ≤ 1 ∧
      (s.core.sweeping = true ↔
        s.core.sweeps ≠ [] ∨ ∃ x ∈ s.departing, x.isMarked = true) ∧
      (s.core.sweeps ≠ [] → ∀ x ∈ s.departing, x.isMarked = false) ∧
      (s.core.loop = .serving → ∀ now,
        (s.move (.step now .tick)).core.sweeps =
          if s.core.sweeping then s.core.sweeps else [{ id := s.core.nextId }]) ∧
      (s.core.loop = .ended → ∀ more,
        let t := s.moves more
        t.core.tasks = [] ∧ t.core.sweeps = [] ∧ t.departing = [] ∧
          t.core.announced = s.core.announced)) ∧
    ∀ ls : List (Nat × Label), ∃ ms,
      moves { core := { rules := initial } } ms = { core := reached initial ls } := by
  refine ⟨fun ms => ?_, steps_moves _⟩
  have hkept : (moves { core := { rules := initial } } ms).Kept := (kept_new initial).moves ms
  generalize moves { core := { rules := initial } } ms = s at hkept
  have hmarked := hkept.marked
  have hle := Bool.toNat_le s.core.sweeping
  have hsweeps : s.core.sweeps ≠ [] ↔ 0 < s.core.sweeps.length := List.length_pos_iff.symm
  have hmarks : (∃ x ∈ s.departing, x.isMarked = true) ↔ 0 < s.departing.countP (·.isMarked) :=
    List.countP_pos_iff.symm
  refine ⟨by omega, ?_, fun hrunning x hx => ?_, fun hloop now => ?_, fun hloop more => ?_⟩
  · rw [hsweeps, hmarks]
    cases hsweeping : s.core.sweeping with
    | true =>
      rw [hsweeping, Bool.toNat_true] at hmarked
      exact iff_of_true rfl (by omega)
    | false =>
      rw [hsweeping, Bool.toNat_false] at hmarked
      exact iff_of_false nofun (by omega)
  · have hpos := hsweeps.mp hrunning
    refine Bool.eq_false_iff.mpr fun hmark => ?_
    have hmore := hmarks.mp ⟨x, hx, hmark⟩
    omega
  · simp only [move, Dispatcher.step, tick, hloop]
    split
    · rfl
    · rename_i hsweeping
      rw [Bool.eq_false_iff.mpr hsweeping, Bool.toNat_false] at hmarked
      have hnone : s.core.sweeps = [] := List.length_eq_zero_iff.mp (by omega)
      rw [hnone]
      rfl
  · have hended := hkept.ended_moves hloop more
    obtain ⟨htasks, hnone, hdeparting⟩ := (hkept.moves more).ended hended.1
    exact ⟨htasks, hnone, hdeparting, hended.2⟩

/-- A sweep is told to end before it has looked at the rules, and the loop waits until the mark is
taken back and its task is gone. -/
theorem one_sweep_at_a_time_cancelled :
    let s := moves { core := { rules := [] } }
      [.step 0 .tick, .step 1 .tick, .step 2 .shutdown, .step 2 (.cancel 0), .step 3 .leave,
        .step 3 .join, .unmark 0, .part 0, .step 4 .join]
    s.core.loop = .ended ∧ ∀ more, (s.moves more).core.announced = [] := by
  have hrow := (one_sweep_at_a_time []).1
    [.step 0 .tick, .step 1 .tick, .step 2 .shutdown, .step 2 (.cancel 0), .step 3 .leave,
      .step 3 .join, .unmark 0, .part 0, .step 4 .join]
  obtain ⟨-, -, -, -, hended⟩ := hrow
  exact ⟨rfl, fun more => (hended rfl more).2.2.2⟩

end Crew

end Letterbox.Dispatcher
