import Letterbox.Proofs.Store.Contents

/-!
# Saving, step by step

All that a step of saving can do to a disk: make directories, write the draft, or move it. Until it
is moved nothing of the message is among the others, and what is moved is all of it.
-/

namespace Letterbox

set_option autoImplicit false

namespace Mailbox

namespace Saving

variable {m : Mailbox} {d d' : Disk} {s s' : Saving}

def Named (s : Saving) : Prop := ∃ time unique, s.name = messageName time unique

theorem Named.proper (h : s.Named) : ProperName s.name := by
  obtain ⟨time, unique, h⟩ := h
  exact h ▸ proper_messageName time unique

theorem Named.extension (h : s.Named) : Path.extension? s.name = some Mailbox.extension := by
  obtain ⟨time, unique, h⟩ := h
  exact h ▸ extension?_messageName time unique

theorem Named.ne_drafts (h : s.Named) : s.name ≠ ".tmp" := by
  intro heq
  have hext := h.extension
  rw [heq] at hext
  exact absurd hext (by decide)

/-! ## Places -/

theorem place_target (d : Disk) (h : s.Named) : d.place (s.target m) = m.home d ++ [s.name] :=
  Disk.place_join d _ h.proper

theorem place_draft (d : Disk) (h : s.Named) :
    d.place (s.draft m) = m.home d ++ [".tmp", s.name] := by
  rw [draft, Disk.place_join d _ h.proper, draftsOf, Disk.place_join d _ proper_drafts,
    List.append_assoc]
  rfl

theorem place_target_ne_nil (d : Disk) (h : s.Named) : d.place (s.target m) ≠ [] := by
  rw [place_target d h]
  exact Disk.place_ne_nil _ _

theorem place_draft_ne_nil (d : Disk) (h : s.Named) : d.place (s.draft m) ≠ [] := by
  rw [place_draft d h]
  exact List.append_ne_nil_of_right_ne_nil _ (List.cons_ne_nil _ _)

/-- No draft lies among the messages. -/
theorem ne_place_draft (d : Disk) (h : s.Named) (n : String) :
    m.home d ++ [n] ≠ d.place (s.draft m) := by
  rw [place_draft d h]
  intro heq
  have hlength := congrArg List.length heq
  simp at hlength

theorem place_target_ne_draft (d : Disk) (h : s.Named) :
    d.place (s.target m) ≠ d.place (s.draft m) := by
  rw [place_target d h]
  exact ne_place_draft d h s.name

/-! ## One step -/

inductive Change (m : Mailbox) (d : Disk) (s : Saving) : Disk → Saving → Prop where
  | look {stage : SaveStage} (now : s.stage = .checking)
      (next : stage = .writing 0 ∨ stage = .making) : Change m d s d { s with stage }
  | make {made : Disk} {stage : SaveStage} (now : s.stage = .making)
      (built : Disk.Built d made (d.origin m.draftsOf) (Path.segments m.draftsOf))
      (next : stage = .writing 0 ∨ ∃ f, stage = .done (.error f)) :
      Change m d s made { s with stage }
  | write {reached : Nat} {t : Int} {stage : SaveStage} (now : ∃ w, s.stage = .writing w)
      (found : d.resolve (s.draft m) = .ok (d.place (s.draft m)))
      (free : ¬d.IsDirectory (d.place (s.draft m)))
      (next : stage = .moving ∧ s.data.length ≤ reached ∨ (∃ w, stage = .writing w) ∨
        ∃ f, stage = .done (.error f)) :
      Change m d s (d.put (d.place (s.draft m)) (.file (s.data.take reached) t)) { s with stage }
  | move {i : Item} (now : s.stage = .moving)
      (found : d.resolve (s.target m) = .ok (d.place (s.target m)))
      (free : ¬d.IsDirectory (d.place (s.target m)))
      (there : d.item? (d.place (s.draft m)) = some i) :
      Change m d s ((d.erase (d.place (s.draft m))).put (d.place (s.target m)) i)
        { s with stage := .measuring }
  | measure {answer : SaveAnswer} (now : s.stage = .measuring)
      (next : ∀ e, answer = .ok e → entry d (s.target m) = .ok e) :
      Change m d s d { s with stage := .done answer }
  | fail {f : Failure} (now : (∃ w, s.stage = .writing w) ∨ s.stage = .moving) :
      Change m d s d (s.failed f)
  | rest {answer : SaveAnswer} (now : s.stage = .done answer) : Change m d s d s

theorem change_make (h : d.Tidy) (turn : Turn) (hs : s.stage = .making) :
    Change m d s (s.make m turn d).1 (s.make m turn d).2 := by
  rw [make]
  cases turn.mishap with
  | some x => exact .make hs (h.makeUpTo turn.clock m.draftsOf x.kept) (.inr ⟨_, rfl⟩)
  | none =>
    have hbuilt := h.makeUpTo turn.clock m.draftsOf (Path.segments m.draftsOf).length
    dsimp only
    split
    · rename_i made heq
      rw [heq] at hbuilt
      exact .make hs hbuilt (.inl rfl)
    · rename_i made f heq
      rw [heq] at hbuilt
      exact .make hs hbuilt (.inr ⟨_, rfl⟩)

theorem change_write (turn : Turn) {written : Nat} (hs : s.stage = .writing written) :
    Change m d s (s.write m turn d written).1 (s.write m turn d written).2 := by
  rw [write]
  cases turn.mishap with
  | some x =>
    dsimp only
    cases hw : d.write (s.draft m) (s.data.take (written + x.kept)) turn.clock with
    | error f => exact .fail (.inl ⟨_, hs⟩)
    | ok d' =>
      obtain ⟨hr, hno, t, rfl⟩ := Disk.write_eq_ok hw
      exact .write ⟨_, hs⟩ hr hno (.inr (.inr ⟨_, rfl⟩))
  | none =>
    dsimp only
    cases hw : d.write (s.draft m) (s.data.take (written + turn.portion)) turn.clock with
    | error f => exact .fail (.inl ⟨_, hs⟩)
    | ok d' =>
      obtain ⟨hr, hno, t, rfl⟩ := Disk.write_eq_ok hw
      dsimp only
      split
      · rename_i hall
        exact .write ⟨_, hs⟩ hr hno (.inl ⟨rfl, hall⟩)
      · exact .write ⟨_, hs⟩ hr hno (.inr (.inl ⟨_, rfl⟩))

theorem change_move (turn : Turn) (hs : s.stage = .moving) :
    Change m d s (s.move m turn d).1 (s.move m turn d).2 := by
  rw [move]
  cases hanswer : turn.attempt (d.rename (s.draft m) (s.target m)) with
  | error f => exact .fail (.inr hs)
  | ok d' =>
    obtain ⟨-, hr, hno, i, hi, rfl⟩ := Disk.rename_eq_ok.mp (Turn.attempt_eq_ok.mp hanswer).2
    exact .move hs hr hno hi

theorem change_measure (turn : Turn) (hs : s.stage = .measuring) :
    Change m d s d (s.measure m turn d) := by
  rw [measure]
  cases hanswer : turn.attempt (entry d (s.target m)) with
  | error f => exact .measure hs fun e he => by cases he
  | ok e =>
    refine .measure hs fun e' he => ?_
    cases he
    exact (Turn.attempt_eq_ok.mp hanswer).2

theorem change_step (h : d.Tidy) (turn : Turn) :
    Change m d s (s.step m turn d).1 (s.step m turn d).2 := by
  rw [step]
  split
  · rename_i hs
    refine .look hs ?_
    split
    · exact .inl rfl
    · exact .inr rfl
  · rename_i hs
    exact change_make h turn hs
  · rename_i written hs
    exact change_write turn hs
  · rename_i hs
    exact change_move turn hs
  · rename_i hs
    exact change_measure turn hs
  · rename_i answer hs
    exact .rest hs

theorem Change.name (h : Change m d s d' s') : s'.name = s.name ∧ s'.data = s.data := by
  cases h <;> exact ⟨rfl, rfl⟩

theorem Change.named (h : Change m d s d' s') (hn : s.Named) : s'.Named := by
  rw [Named, h.name.1]
  exact hn

/-- Elsewhere than at its draft and its place among the messages, saving only makes directories. -/
theorem Change.elsewhere (h : Change m d s d' s') (hn : s.Named) {q : Place}
    (hdraft : q ≠ d.place (s.draft m))
    (htarget : s'.stage = .measuring → q ≠ d.place (s.target m)) :
    d'.item? q = d.item? q ∨ d.item? q = none ∧ d'.IsDirectory q ∧
      ∃ l₁ x l₂, Path.segments m.draftsOf = l₁ ++ x :: l₂ ∧
        q = l₁.foldl Disk.follow (d.origin m.draftsOf) ++ [x] := by
  cases h with
  | look | measure | fail | rest => exact .inl rfl
  | make now built next => exact built.new q
  | write now found free next =>
    rw [Disk.item?_put (place_draft_ne_nil d hn), if_neg hdraft]
    exact .inl rfl
  | move now found free there =>
    rw [Disk.item?_put (place_target_ne_nil d hn), if_neg (htarget rfl),
      Disk.item?_erase (place_draft_ne_nil d hn), if_neg hdraft]
    exact .inl rfl

theorem Change.data?_elsewhere (h : Change m d s d' s') (hn : s.Named) {q : Place}
    (hdraft : q ≠ d.place (s.draft m))
    (htarget : s'.stage = .measuring → q ≠ d.place (s.target m)) :
    d'.data? q = d.data? q := by
  rcases h.elsewhere hn hdraft htarget with heq | ⟨hnone, hdir, -⟩
  · exact Disk.data?_congr heq
  · rw [hdir.data?_eq_none, Disk.data?, hnone]

end Saving

/-- The message has not been moved yet and still can be. -/
def SaveStage.Pending : SaveStage → Prop
  | .checking | .making | .writing _ | .moving => True
  | .measuring | .done _ => False

namespace Saving

variable {m : Mailbox} {d d' : Disk} {s s' : Saving}

/-- Before a message is moved nothing is in its place, unless it is a directory on the way to all
messages, and when it can be moved the draft is all of it. -/
structure Sound (m : Mailbox) (d : Disk) (s : Saving) : Prop where
  free : s.stage.Pending → d.item? (m.home d ++ [s.name]) = none ∨
    s.name ∈ Path.segments m.base ∧ d.IsDirectory (m.home d ++ [s.name])
  drafted : s.stage = .moving → d.resolve (s.draft m) = .ok (d.place (s.draft m)) ∧
    d.data? (d.place (s.draft m)) = some s.data

/-- Of a message that has been moved, or cannot be any more, nothing is asked. -/
theorem Sound.of_not_pending (h : ¬s.stage.Pending) : s.Sound m d := by
  refine ⟨fun hpending => absurd hpending h, fun hmoving => absurd ?_ h⟩
  rw [hmoving]
  trivial

theorem Sound.data?_eq_none (h : s.Sound m d) (hs : s.stage.Pending) :
    d.data? (m.home d ++ [s.name]) = none := by
  rcases h.free hs with hi | ⟨-, hdir⟩
  · rw [Disk.data?, hi]
  · exact hdir.data?_eq_none

theorem Sound.file_of_moving (h : s.Sound m d) (hs : s.stage = .moving) {i : Item}
    (hi : d.item? (d.place (s.draft m)) = some i) : ∃ t, i = .file s.data t := by
  obtain ⟨t, hfile⟩ := Disk.data?_eq_some.mp (h.drafted hs).2
  rw [hi, Option.some.injEq] at hfile
  exact ⟨t, hfile⟩

theorem Change.grows (hc : Change m d s d' s') (h : d.Tidy) (hn : s.Named) (hs : s.Sound m d) :
    d'.Tidy ∧ Disk.Grows d d' := by
  cases hc with
  | look | measure | fail | rest => exact ⟨h, Disk.Grows.refl d⟩
  | make now built next => exact ⟨built.tidy, built.grows⟩
  | write now found free next =>
    obtain ⟨-, hreach, hplace⟩ := (Disk.resolve_join hn.proper).mp found
    refine ⟨?_, Disk.Grows.put (place_draft_ne_nil d hn) (.inr free)⟩
    rw [hplace] at free ⊢
    exact h.put hn.proper hreach.directory (.inr free)
  | move now found free there =>
    obtain ⟨t, rfl⟩ := hs.file_of_moving now there
    have hdraft : ¬d.IsDirectory (d.place (s.draft m)) := by
      simp [Disk.isDirectory_of_item? there, Item.isDirectory]
    -- the draft is gone when the message is put, and it was no directory in between
    have hgrows := Disk.Grows.erase hdraft
    have htarget : ¬(d.erase (d.place (s.draft m))).IsDirectory (d.place (s.target m)) := by
      rw [Disk.IsDirectory, Disk.item?_erase (place_draft_ne_nil d hn),
        if_neg (place_target_ne_draft d hn)]
      exact free
    obtain ⟨-, hreach, hplace⟩ := (Disk.resolve_join hn.proper).mp found
    refine ⟨?_, hgrows.trans (Disk.Grows.put (place_target_ne_nil d hn) (.inr htarget))⟩
    rw [hplace] at htarget ⊢
    exact (h.erase hdraft).put hn.proper (hgrows.directory _ hreach.directory) (.inr htarget)

/-- What others leave alone stays as it is. -/
theorem Sound.frame (hs : s.Sound m d) (hgrows : Disk.Grows d d')
    (hdraft : d'.data? (d.place (s.draft m)) = d.data? (d.place (s.draft m)))
    (htarget : s.stage.Pending →
      d'.item? (m.home d ++ [s.name]) = d.item? (m.home d ++ [s.name]) ∨
        s.name ∈ Path.segments m.base ∧ d'.IsDirectory (m.home d ++ [s.name])) :
    s.Sound m d' := by
  refine ⟨fun hpending => ?_, fun hmoving => ?_⟩
  · rw [home_of_grows hgrows]
    rcases htarget hpending with heq | hdir
    · rw [heq, Disk.isDirectory_congr heq]
      exact hs.free hpending
    · exact .inr hdir
  · obtain ⟨hr, hdata⟩ := hs.drafted hmoving
    rw [hgrows.place, hdraft]
    exact ⟨hgrows.resolve hr, hdata⟩

/-- Saving leaves alone what lies among the messages, except the message that it moves. Only a
directory that is missing on the way to them may come to be there. -/
theorem Change.among (hc : Change m d s d' s') (hn : s.Named) {n : String} (hname : n ≠ ".tmp")
    (hother : s'.stage = .measuring → n ≠ s.name) :
    d'.item? (m.home d ++ [n]) = d.item? (m.home d ++ [n]) ∨
      d.item? (m.home d ++ [n]) = none ∧ d'.IsDirectory (m.home d ++ [n]) ∧
        ∃ l₁ l₂, Path.segments m.base = l₁ ++ n :: l₂ ∧
          m.home d = l₁.foldl Disk.follow (d.origin m.base) := by
  have htarget : s'.stage = .measuring → m.home d ++ [n] ≠ d.place (s.target m) := by
    intro hstage heq
    rw [place_target d hn] at heq
    exact hother hstage (by simpa using heq)
  refine (hc.elsewhere hn (ne_place_draft d hn n) htarget).imp_right ?_
  rintro ⟨hnone, hdir, l₁, x, l₂, hl, hq⟩
  obtain ⟨hhome, hx⟩ := List.append_inj' hq rfl
  obtain rfl : n = x := by simpa using hx
  rw [draftsOf, Path.segments_join _ proper_drafts] at hl
  rw [draftsOf, Disk.origin_join d proper_drafts] at hhome
  -- the last name on the way to the drafts is theirs; before it is the way to the messages
  rcases List.eq_nil_or_concat' l₂ with rfl | ⟨l₂, y, rfl⟩
  · obtain rfl : ".tmp" = n := by simpa using (List.append_inj' hl rfl).2
    exact absurd rfl hname
  · rw [← List.cons_append, ← List.append_assoc] at hl
    exact ⟨hnone, hdir, l₁, l₂, (List.append_inj' hl rfl).1, hhome⟩

theorem Change.free (hc : Change m d s d' s') (hn : s.Named) {n : String} (hname : n ≠ ".tmp")
    (hother : s'.stage = .measuring → n ≠ s.name) :
    d'.item? (m.home d ++ [n]) = d.item? (m.home d ++ [n]) ∨
      n ∈ Path.segments m.base ∧ d'.IsDirectory (m.home d ++ [n]) := by
  refine (hc.among hn hname hother).imp_right ?_
  rintro ⟨-, hdir, l₁, l₂, hl, -⟩
  exact ⟨hl ▸ List.mem_append_right l₁ List.mem_cons_self, hdir⟩

/-- Writing a message to its draft leaves it sound. -/
theorem Change.sound (hc : Change m d s d' s') (h : d.Tidy) (hn : s.Named) (hs : s.Sound m d) :
    s'.Sound m d' := by
  have hgrows := (hc.grows h hn hs).2
  have hfree : s.stage.Pending → s'.stage ≠ .measuring → d'.item? (m.home d' ++ [s.name]) = none ∨
      s.name ∈ Path.segments m.base ∧ d'.IsDirectory (m.home d' ++ [s.name]) := by
    intro hpending hstage
    rw [home_of_grows hgrows]
    rcases hc.free hn hn.ne_drafts (fun heq => absurd heq hstage) with heq | hdir
    · rw [heq, Disk.isDirectory_congr heq]
      exact hs.free hpending
    · exact .inr hdir
  cases hc with
  | look now next =>
    rcases next with rfl | rfl
    · exact ⟨fun _ => hs.free (by rw [now]; trivial), nofun⟩
    · exact ⟨fun _ => hs.free (by rw [now]; trivial), nofun⟩
  | make now built next =>
    rcases next with rfl | ⟨f, rfl⟩
    · exact ⟨fun _ => hfree (by rw [now]; trivial) (by simp), nofun⟩
    · exact .of_not_pending id
  | @write reached t _ now found free next =>
    obtain ⟨w, now⟩ := now
    rcases next with ⟨rfl, hall⟩ | ⟨w', rfl⟩ | ⟨f, rfl⟩
    · refine ⟨fun _ => hfree (by rw [now]; trivial) (by simp), fun _ => ?_⟩
      have hdata : (d.put (d.place (s.draft m)) (.file (s.data.take reached) t)).data?
          (d.place (s.draft m)) = _ := Disk.data?_put (place_draft_ne_nil d hn) _
      rw [if_pos rfl] at hdata
      rw [hgrows.place]
      exact ⟨hgrows.resolve found, hdata.trans (congrArg some (List.take_of_length_le hall))⟩
    · exact ⟨fun _ => hfree (by rw [now]; trivial) (by simp), nofun⟩
    · exact .of_not_pending id
  | move | measure | fail => exact .of_not_pending id
  | rest => exact hs

/-- A message comes among the others at once and in full, when it is moved. -/
theorem Change.messages (hc : Change m d s d' s') (h : d.Tidy) (hn : s.Named) (hs : s.Sound m d) :
    s.stage = .moving ∧ s'.stage = .measuring ∧ m.messages d s.name = none ∧
        m.messages d' = Function.update (m.messages d) s.name (some s.data) ∨
      s'.stage ≠ .measuring ∧ m.messages d' = m.messages d := by
  have hgrows := (hc.grows h hn hs).2
  by_cases hstage : s'.stage = .measuring
  · refine .inl ?_
    cases hc with
    | look now next => rcases next with rfl | rfl <;> cases hstage
    | make now built next => rcases next with rfl | ⟨f, rfl⟩ <;> cases hstage
    | write now found free next =>
      rcases next with ⟨rfl, -⟩ | ⟨w, rfl⟩ | ⟨f, rfl⟩ <;> cases hstage
    | measure | fail => cases hstage
    | rest now =>
      rw [now] at hstage
      cases hstage
    | move now found free there =>
      obtain ⟨t, rfl⟩ := hs.file_of_moving now there
      have hnone := hs.data?_eq_none (by rw [now]; trivial)
      refine ⟨now, rfl, ?_, messages_update hgrows hn.extension fun x => ?_⟩
      · rw [Mailbox.messages, if_pos hn.extension, hnone]
      · rw [Disk.data?_put (place_target_ne_nil d hn), Disk.data?_erase (place_draft_ne_nil d hn),
          if_neg (ne_place_draft d hn x), place_target d hn]
        simp only [List.append_cancel_left_eq, List.cons.injEq, and_true]
  · refine .inr ⟨hstage, messages_congr hgrows fun n => ?_⟩
    exact hc.data?_elsewhere hn (ne_place_draft d hn n) fun heq => absurd heq hstage

/-- When nothing goes wrong a message that has been written is moved. -/
theorem step_moving (hn : s.Named) (hs : s.Sound m d) (hstage : s.stage = .moving)
    (hbase : s.name ∉ Path.segments m.base) {turn : Turn} (hturn : turn.mishap = none) :
    (s.step m turn d).2.stage = .measuring := by
  obtain ⟨hr, hdata⟩ := hs.drafted hstage
  obtain ⟨t, hi⟩ := Disk.data?_eq_some.mp hdata
  obtain ⟨hok, hreach, -⟩ := (Disk.resolve_join hn.proper).mp hr
  have htarget : d.resolve (s.target m) = .ok (d.place (s.target m)) :=
    (Disk.resolve_join hn.proper).mpr ⟨Disk.refusal?_beside hn.proper proper_drafts hok,
      ((Disk.reaches_join proper_drafts).mp hreach).1, place_target d hn⟩
  have hfree : ¬d.IsDirectory (d.place (s.target m)) := by
    rw [place_target d hn]
    rcases hs.free (by rw [hstage]; trivial) with hnone | ⟨hmem, -⟩
    · exact Disk.not_isDirectory_of_none hnone
    · exact absurd hmem hbase
  rw [step, hstage]
  dsimp only
  rw [move, Turn.attempt_eq_ok.mpr
    ⟨hturn, Disk.rename_eq_ok.mpr ⟨hr, htarget, hfree, _, hi, rfl⟩⟩]

end Saving

end Mailbox

end Letterbox
