import Letterbox.Proofs.Store.Listed
import Letterbox.Proofs.Store.Saving
import Letterbox.Smtp.Receiver

/-!
# Refused messages

A message whose saving fails is not listed afterwards, unless it failed only when it was looked at
in its place: then it stays there, while its sender is told that it was not stored. Nothing else
comes or goes, provided that the path to the mailbox leads to a directory already or does not lead
back.
-/

namespace Letterbox

set_option autoImplicit false

namespace Mailbox

variable {m : Mailbox} {d d' : Disk} {n : String} {e : StoredMessage}

/-! ## Saving alone -/

namespace Saving

variable {s s' : Saving}

/-- What is called like a message stays as it is, except the message that is moved. -/
theorem Change.leaves (hc : Change m d s d' s') (hn : s.Named) (hstands : m.Stands d)
    (hext : Path.extension? n = some Mailbox.extension)
    (hother : s'.stage = .measuring → n ≠ s.name) :
    d'.item? (m.home d ++ [n]) = d.item? (m.home d ++ [n]) := by
  have hname : n ≠ ".tmp" := by
    rintro rfl
    exact absurd hext (by decide)
  rcases hc.among hn hname hother with heq | ⟨hnone, -, l₁, l₂, hl, hhome⟩
  · exact heq
  · exact absurd hhome (hstands.ne_home hext hl hnone)

theorem steps_concat (m : Mailbox) (d : Disk) (s : Saving) (turns : List Turn) (turn : Turn) :
    steps m d s (turns ++ [turn]) =
      (steps m d s turns).2.step m turn (steps m d s turns).1 := by
  induction turns generalizing d s with
  | nil => rfl
  | cons first turns ih => exact ih _ _

/-! ## Saving comes to an end -/

/-- How many steps are left at most when all bytes are written at once. -/
def left (s : Saving) : Nat :=
  match s.stage with
  | .checking => 5
  | .making => 4
  | .writing _ => 3
  | .moving => 2
  | .measuring => 1
  | .done _ => 0

theorem left_make (turn : Turn) : (s.make m turn d).2.left ≤ 3 := by
  rw [make]
  cases turn.mishap with
  | some x => exact Nat.zero_le 3
  | none =>
    rcases d.makeUpTo turn.clock m.draftsOf (Path.segments m.draftsOf).length with ⟨made, u | f⟩
    · exact Nat.zero_le 3
    · exact Nat.le_refl 3

theorem left_write (turn : Turn) (hall : s.data.length ≤ turn.portion) (written : Nat) :
    (s.write m turn d written).2.left ≤ 2 := by
  rw [write]
  cases turn.mishap with
  | some x => exact Nat.zero_le 2
  | none =>
    dsimp only
    cases d.write (s.draft m) (s.data.take (written + turn.portion)) turn.clock with
    | error f => exact Nat.zero_le 2
    | ok d' =>
      have hreached : s.data.length ≤ written + turn.portion := by omega
      dsimp only
      rw [if_pos hreached]
      exact Nat.le_refl 2

theorem left_move (turn : Turn) : (s.move m turn d).2.left ≤ 1 := by
  rw [move]
  cases turn.attempt (d.rename (s.draft m) (s.target m)) with
  | error f => exact Nat.zero_le 1
  | ok d' => exact Nat.le_refl 1

theorem left_measure (turn : Turn) : (s.measure m turn d).left = 0 := by
  rw [measure]
  cases turn.attempt (entry d (s.target m)) <;> rfl

theorem left_step (turn : Turn) (hall : s.data.length ≤ turn.portion) :
    (s.step m turn d).2.left ≤ s.left - 1 := by
  rw [step]
  cases hs : s.stage with
  | checking =>
    rw [show s.left = 5 by rw [left, hs]]
    cases hthere : turn.mishap.isNone && d.pathExists m.draftsOf with
    | true => exact Nat.le_succ 3
    | false => exact Nat.le_refl 4
  | making =>
    rw [show s.left = 4 by rw [left, hs]]
    exact left_make turn
  | writing written =>
    rw [show s.left = 3 by rw [left, hs]]
    exact left_write turn hall written
  | moving =>
    rw [show s.left = 2 by rw [left, hs]]
    exact left_move turn
  | measuring => exact (left_measure turn).le.trans (Nat.zero_le _)
  | done answer =>
    rw [show s.left = 0 by rw [left, hs]]

/-! ## Where saving leads -/

/-- Whether the message is moved among the others in one of the turns. -/
def Moves (m : Mailbox) (d : Disk) (s : Saving) (turns : List Turn) : Prop :=
  ∃ before, before <+: turns ∧ (steps m d s before).2.stage = .measuring

theorem moves_concat {turns : List Turn} {turn : Turn} : Moves m d s (turns ++ [turn]) ↔
    Moves m d s turns ∨ (steps m d s (turns ++ [turn])).2.stage = .measuring := by
  simp only [Moves, List.prefix_concat_iff]
  constructor
  · rintro ⟨before, rfl | hbefore, hstage⟩
    · exact .inr hstage
    · exact .inl ⟨before, hbefore, hstage⟩
  · rintro (⟨before, hbefore, hstage⟩ | hstage)
    · exact ⟨before, .inr hbefore, hstage⟩
    · exact ⟨_, .inl rfl, hstage⟩

/-- How far it has come with a message that nobody else saves or deletes. -/
structure Course (m : Mailbox) (d : Disk) (s : Saving) (d' : Disk) (s' : Saving) : Prop where
  tidy : d'.Tidy
  grows : Disk.Grows d d'
  same : s'.name = s.name ∧ s'.data = s.data
  named : s'.Named
  sound : s'.Sound m d'
  others : ∀ n, Path.extension? n = some Mailbox.extension → n ≠ s.name →
    d'.item? (m.home d ++ [n]) = d.item? (m.home d ++ [n])

structure Absent (m : Mailbox) (d' : Disk) (s' : Saving) : Prop where
  free : d'.item? (m.home d' ++ [s'.name]) = none
  stage : s'.stage.Pending ∨ ∃ f, s'.stage = .done (.error f)

structure Present (m : Mailbox) (d' : Disk) (s' : Saving) : Prop where
  there : ∃ t, d'.item? (m.home d' ++ [s'.name]) = some (.file s'.data t)
  accepted : Disk.refusal? (s'.target m) = none
  reaches : d'.Reaches m.base
  stage : s'.stage = .measuring ∨ ∃ answer, s'.stage = .done answer ∧
    ∀ e, answer = .ok e → entry d' (s'.target m) = .ok e

theorem Course.step {now : Disk} {s₁ : Saving} (h : Course m d s now s₁) (hstands : m.Stands d)
    (turn : Turn) : Course m d s (s₁.step m turn now).1 (s₁.step m turn now).2 := by
  have hc := change_step (m := m) (s := s₁) h.tidy turn
  obtain ⟨htidy, hgrows⟩ := hc.grows h.tidy h.named h.sound
  refine ⟨htidy, h.grows.trans hgrows, ?_, hc.named h.named, hc.sound h.tidy h.named h.sound,
    fun n hext hother => ?_⟩
  · rw [hc.name.1, hc.name.2]
    exact h.same
  · rw [← h.others n hext hother, ← home_of_grows h.grows]
    exact hc.leaves h.named (hstands.grows h.grows) hext fun _ => h.same.1 ▸ hother

theorem Change.absent (hc : Change m d s d' s') (h : d.Tidy) (hn : s.Named) (hs : s.Sound m d)
    (hstands : m.Stands d) (hout : s.Absent m d) :
    s'.stage ≠ .measuring ∧ s'.Absent m d' ∨ s'.stage = .measuring ∧ s'.Present m d' := by
  have hgrows := (hc.grows h hn hs).2
  have hfree : s'.stage ≠ .measuring → d'.item? (m.home d' ++ [s'.name]) = none := by
    intro hstage
    rw [home_of_grows hgrows, hc.name.1, ← hout.free]
    exact hc.leaves hn hstands hn.extension fun heq => absurd heq hstage
  have hstay : (s'.stage.Pending ∨ ∃ f, s'.stage = .done (.error f)) →
      s'.stage ≠ .measuring ∧ s'.Absent m d' := by
    intro hstage
    have hunmoved : s'.stage ≠ .measuring := by
      intro hmeasuring
      rw [hmeasuring] at hstage
      rcases hstage with hno | ⟨f, hno⟩
      · exact hno
      · cases hno
    exact ⟨hunmoved, hfree hunmoved, hstage⟩
  cases hc with
  | look now next =>
    rcases next with rfl | rfl
    · exact .inl (hstay (.inl trivial))
    · exact .inl (hstay (.inl trivial))
  | make now built next =>
    rcases next with rfl | hfailed
    · exact .inl (hstay (.inl trivial))
    · exact .inl (hstay (.inr hfailed))
  | write now found free next =>
    rcases next with ⟨rfl, -⟩ | ⟨w, rfl⟩ | hfailed
    · exact .inl (hstay (.inl trivial))
    · exact .inl (hstay (.inl trivial))
    · exact .inl (hstay (.inr hfailed))
  | move now found free there =>
    obtain ⟨t, rfl⟩ := hs.file_of_moving now there
    obtain ⟨hok, hreach, hplace⟩ := (Disk.resolve_join hn.proper).mp found
    refine .inr ⟨rfl, ⟨t, ?_⟩, hok, hgrows.reaches hreach, .inl rfl⟩
    rw [home_of_grows hgrows, Disk.item?_put (place_target_ne_nil d hn), place_target d hn,
      if_pos rfl]
  | measure now next =>
    have hpending := hout.stage
    rw [now] at hpending
    rcases hpending with hno | ⟨f, hno⟩
    · exact hno.elim
    · cases hno
  | @fail f now => exact .inl (hstay (.inr ⟨f, rfl⟩))
  | rest now => exact .inl (hstay hout.stage)

theorem Present.not_pending (h : s.Present m d) : ¬s.stage.Pending := by
  rcases h.stage with hstage | ⟨answer, hstage, -⟩ <;>
    · rw [hstage]
      exact id

theorem Change.present (hc : Change m d s d' s') (hin : s.Present m d) : s'.Present m d' := by
  have hstage := hin.not_pending
  cases hc with
  | measure now next => exact ⟨hin.there, hin.accepted, hin.reaches, .inr ⟨_, rfl, next⟩⟩
  | rest now => exact hin
  | look now | make now | move now => exact absurd (by rw [now]; trivial) hstage
  | write now =>
    obtain ⟨w, now⟩ := now
    exact absurd (by rw [now]; trivial) hstage
  | fail now =>
    rcases now with ⟨w, now⟩ | now
    · exact absurd (by rw [now]; trivial) hstage
    · exact absurd (by rw [now]; trivial) hstage

/-- Saving a message in any number of turns, of which any may fail. -/
theorem course_steps (hd : d.Tidy) (hn : s.Named) (hstage : s.stage = .checking)
    (hnew : d.item? (m.home d ++ [s.name]) = none) (hstands : m.Stands d) (turns : List Turn) :
    let r := steps m d s turns
    Course m d s r.1 r.2 ∧
      (Moves m d s turns ∧ r.2.Present m r.1 ∨ ¬Moves m d s turns ∧ r.2.Absent m r.1) := by
  induction turns using List.reverseRecOn with
  | nil =>
    have hpending : s.stage.Pending := by
      rw [hstage]
      trivial
    refine ⟨⟨hd, Disk.Grows.refl d, ⟨rfl, rfl⟩, hn, ⟨fun _ => .inl hnew, fun hmoving => ?_⟩,
      fun n _ _ => rfl⟩, .inr ⟨?_, hnew, .inl hpending⟩⟩
    · cases hstage.symm.trans hmoving
    · rintro ⟨before, hbefore, hmeasuring⟩
      rw [List.prefix_nil.mp hbefore, steps, hstage] at hmeasuring
      cases hmeasuring
  | append_singleton turns turn ih =>
    obtain ⟨hcourse, hstate⟩ := ih
    have hc := change_step (m := m) (s := (steps m d s turns).2) hcourse.tidy turn
    rw [moves_concat, steps_concat]
    refine ⟨hcourse.step hstands turn, ?_⟩
    rcases hstate with ⟨hmoves, hin⟩ | ⟨hmoves, hout⟩
    · exact .inl ⟨.inl hmoves, hc.present hin⟩
    · rcases hc.absent hcourse.tidy hcourse.named hcourse.sound (hstands.grows hcourse.grows) hout
        with ⟨hstage', hout'⟩ | ⟨hstage', hin'⟩
      · exact .inr ⟨fun h => h.elim hmoves hstage', hout'⟩
      · exact .inl ⟨.inr hstage', hin'⟩

/-- Whatever goes wrong, there is an answer once all bytes could have been written. -/
theorem steps_answer (hd : d.Tidy) (hn : s.Named) (hstage : s.stage = .checking)
    (hnew : d.item? (m.home d ++ [s.name]) = none) (hstands : m.Stands d) {turns : List Turn}
    (hall : ∀ turn ∈ turns, s.data.length ≤ turn.portion) (henough : 5 ≤ turns.length) :
    ∃ answer, (steps m d s turns).2.stage = .done answer := by
  have hleft : ∀ before, before <+: turns →
      (steps m d s before).2.left ≤ 5 - before.length := by
    intro before hbefore
    induction before using List.reverseRecOn with
    | nil =>
      rw [steps, left, hstage]
      exact Nat.le_refl 5
    | append_singleton before turn ih =>
      have hless := ih ((List.prefix_append before [turn]).trans hbefore)
      have hturn := hall turn (hbefore.subset (List.mem_append_right before List.mem_cons_self))
      rw [← (course_steps hd hn hstage hnew hstands before).1.same.2] at hturn
      have hstep := left_step (m := m) (d := (steps m d s before).1) turn hturn
      rw [steps_concat, List.length_append, List.length_singleton]
      omega
  have hzero := hleft turns List.prefix_rfl
  rw [left] at hzero
  split at hzero
  case h_6 answer hdone => exact ⟨answer, hdone⟩
  all_goals omega

/-! ## What is listed afterwards -/

/-- Something among the messages can be reached, unless the path to them leads back. -/
theorem reaches_of_there (hd : d.Tidy) (hstands : m.Stands d) {i : Item}
    (hi : d.item? (m.home d ++ [n]) = some i) : d.Reaches m.base := by
  rcases hstands with ⟨names, hlist⟩ | ⟨-, hup⟩
  · exact (Disk.list_eq_ok.mp hlist).1.2.2
  · exact hd.reaches hup (hd.parent hi).2

/-- What had been listed still is, and nothing else is except the message that is saved. -/
theorem Course.mem_listed_iff (h : Course m d s d' s') (hd : d.Tidy) (hstands : m.Stands d)
    (hnew : d.item? (m.home d ++ [s.name]) = none) :
    e ∈ m.listed d ↔ e ∈ m.listed d' ∧ e.name ≠ s.name := by
  rw [mem_listed hd, mem_listed h.tidy]
  constructor
  · rintro ⟨⟨hok, hne, hreach⟩, n, i, hlist, rfl⟩
    have hother : n ≠ s.name := by
      rintro rfl
      rw [hlist.there] at hnew
      cases hnew
    refine ⟨⟨⟨hok, hne, h.grows.reaches hreach⟩, n, i, ⟨?_, hlist.named, hlist.accepted⟩, rfl⟩, ?_⟩
    · rw [home_of_grows h.grows, h.others n hlist.named hother]
      exact hlist.there
    · rwa [describe_name]
  · rintro ⟨⟨⟨hok, hne, -⟩, n, i, hlist, rfl⟩, hother⟩
    rw [describe_name] at hother
    have hthere := hlist.there
    rw [home_of_grows h.grows, h.others n hlist.named hother] at hthere
    exact ⟨⟨hok, hne, reaches_of_there hd hstands hthere⟩, n, i,
      ⟨hthere, hlist.named, hlist.accepted⟩, rfl⟩

/-- A message has come to be listed, with all its bytes, and nothing else has changed. -/
structure Added (m : Mailbox) (d : Disk) (s : Saving) (d' : Disk) (e : StoredMessage) : Prop where
  listed : (m.listed d').Perm (e :: m.listed d)
  name : e.name = s.name
  new : e ∉ m.listed d
  size : e.size = s.data.length.toUInt64
  loaded : m.load d' e.path = .ok s.data

theorem Course.added (h : Course m d s d' s') (hd : d.Tidy) (hstands : m.Stands d)
    (hnew : d.item? (m.home d ++ [s.name]) = none) (hin : s'.Present m d') :
    ∃ i, d'.item? (m.home d' ++ [s'.name]) = some i ∧ Added m d s d' (m.describe s'.name i) := by
  obtain ⟨t, hi⟩ := hin.there
  obtain ⟨hname, hdata⟩ := h.same
  have hlistable : m.Listable d' s'.name (.file s'.data t) := ⟨hi, h.named.extension, hin.accepted⟩
  have hopen : Disk.refusal? m.base = none ∧ m.base ≠ "" ∧ d'.Reaches m.base :=
    ⟨Disk.refusal?_of_join h.named.proper hin.accepted, hstands.ne_empty, hin.reaches⟩
  have hfile : d'.data? (m.home d' ++ [s'.name]) = some s'.data := Disk.data?_eq_some.mpr ⟨t, hi⟩
  have hout : m.describe s'.name (.file s'.data t) ∉ m.listed d := by
    rw [h.mem_listed_iff hd hstands hnew, describe_name]
    exact fun hmem => hmem.2 hname
  refine ⟨_, hi, ?_, ?_, hout, ?_, ?_⟩
  · rw [List.perm_ext_iff_of_nodup (nodup_listed h.tidy)
      (List.nodup_cons.mpr ⟨hout, nodup_listed hd⟩)]
    intro e
    rw [List.mem_cons, h.mem_listed_iff hd hstands hnew]
    constructor
    · intro he
      by_cases hother : e.name = s.name
      · obtain ⟨-, n, j, hlist, rfl⟩ := (mem_listed h.tidy).mp he
        rw [describe_name, ← hname] at hother
        subst hother
        have hthere := hlist.there
        rw [hi, Option.some.injEq] at hthere
        exact .inl (by rw [hthere])
      · exact .inr ⟨he, hother⟩
    · rintro (rfl | ⟨he, -⟩)
      · exact (mem_listed h.tidy).mpr ⟨hopen, _, _, hlistable, rfl⟩
      · exact he
  · rw [describe_name, hname]
  · rw [← hdata]
    rfl
  · rw [describe_path, ← hdata]
    exact load_join h.tidy hin.reaches hin.accepted hfile

theorem Course.unchanged (h : Course m d s d' s') (hd : d.Tidy) (hstands : m.Stands d)
    (hnew : d.item? (m.home d ++ [s.name]) = none) (hout : s'.Absent m d') :
    (m.listed d').Perm (m.listed d) := by
  rw [List.perm_ext_iff_of_nodup (nodup_listed h.tidy) (nodup_listed hd)]
  intro e
  rw [h.mem_listed_iff hd hstands hnew, iff_self_and]
  intro he hname
  obtain ⟨-, n, i, hlist, rfl⟩ := (mem_listed h.tidy).mp he
  rw [describe_name] at hname
  have hfree := hout.free
  rw [h.same.1, ← hname, hlist.there] at hfree
  cases hfree

/-- Whatever the disk is and whichever steps fail of saving a message under a new name, as long as
the path to the messages leads to a directory or does not lead back: there is an answer once all
bytes could have been written. A message that is accepted and announced is listed with all its
bytes, and nothing else has changed. One that is refused, and of which nothing is announced, has
changed nothing exactly if it was not moved among the others, that is, if it was not the last look
at it that failed; then it has come to be listed all the same. -/
theorem refused_unlisted_iff (m : Mailbox) {d : Disk} {s : Saving} (hd : d.Tidy) (hn : s.Named)
    (hstage : s.stage = .checking) (hnew : d.item? (m.home d ++ [s.name]) = none)
    (hstands : m.Stands d) (turns : List Turn) (maxSize : Nat) (session : Smtp.Session) :
    let r := steps m d s turns
    (5 ≤ turns.length → (∀ turn ∈ turns, s.data.length ≤ turn.portion) →
        ∃ answer, r.2.stage = .done answer) ∧
      ∀ answer, r.2.stage = .done answer →
        let response := Smtp.Receiver.complete maxSize session false answer
        match answer with
        | .ok e => response.event = some (Smtp.Receiver.announcement session e) ∧
            response.reply = some (.queued e.name) ∧ Added m d s r.1 e
        | .error _ => response.event = none ∧ response.reply = some .notStored ∧
            ((m.listed r.1).Perm (m.listed d) ↔ ¬Moves m d s turns) ∧
              (Moves m d s turns → ∃ e, Added m d s r.1 e) := by
  intro r
  refine ⟨fun henough hall => steps_answer hd hn hstage hnew hstands hall henough,
    fun answer hdone => ?_⟩
  intro response
  obtain ⟨hcourse, hstate⟩ := course_steps hd hn hstage hnew hstands turns
  cases answer with
  | ok e =>
    refine ⟨rfl, rfl, ?_⟩
    rcases hstate with ⟨-, hin⟩ | ⟨-, hout⟩
    · obtain ⟨i, hi, hadded⟩ := hcourse.added hd hstands hnew hin
      rcases hin.stage with hmeasuring | ⟨answer, hanswer, hlook⟩
      · rw [hdone] at hmeasuring
        cases hmeasuring
      · rw [hdone, SaveStage.done.injEq] at hanswer
        obtain ⟨-, -, j, hj, rfl⟩ := (entry_eq_ok hcourse.named.proper).mp (hlook e hanswer.symm)
        rw [hi, Option.some.injEq] at hj
        exact hj ▸ hadded
    · have hnone := hout.stage
      rw [hdone] at hnone
      rcases hnone with hnone | ⟨f, hnone⟩
      · exact hnone.elim
      · cases hnone
  | error f =>
    refine ⟨rfl, rfl, ?_⟩
    rcases hstate with ⟨hmoves, hin⟩ | ⟨hmoves, hout⟩
    · obtain ⟨i, -, hadded⟩ := hcourse.added hd hstands hnew hin
      refine ⟨⟨fun hperm => ?_, fun hno => absurd hmoves hno⟩, fun _ => ⟨_, hadded⟩⟩
      -- the list would have to be one longer than itself
      have hlength := (hperm.symm.trans hadded.listed).length_eq
      rw [List.length_cons] at hlength
      omega
    · exact ⟨⟨fun _ => hmoves, fun _ => hcourse.unchanged hd hstands hnew hout⟩,
        fun hno => absurd hno hmoves⟩

def answer? (s : Saving) : Option SaveAnswer :=
  match s.stage with
  | .done answer => some answer
  | _ => none

theorem answer?_eq_some {answer : SaveAnswer} :
    s.answer? = some answer ↔ s.stage = .done answer := by
  rw [answer?]
  split
  · rename_i given hstage
    rw [hstage, Option.some.injEq, SaveStage.done.injEq]
  · rename_i hno
    constructor
    · intro h
      cases h
    · intro h
      exact absurd h (hno answer)

/-- A message that is saved without trouble is the only one that is listed. -/
theorem refused_unlisted_iff_saved :
    let s : Saving := { name := messageName 20240101000000000 1, data := [104, 105] }
    let r := steps ⟨"store"⟩ {} s [{}, {}, { portion := 2 }, {}, {}]
    ∃ e, (listed ⟨"store"⟩ r.1).Perm [e] ∧ e.size = 2 ∧
      load ⟨"store"⟩ r.1 e.path = .ok [104, 105] := by
  intro s r
  have hd : Disk.Tidy {} := ⟨List.nodup_nil, List.forall_mem_nil _, Disk.isDirectory_nil {}⟩
  have hnone : listed ⟨"store"⟩ {} = [] := by decide +kernel
  have hdone : r.2.answer? = some (.ok (describe ⟨"store"⟩ s.name (.file s.data 0))) := by
    decide +kernel
  have hn : s.Named := ⟨20240101000000000, 1, rfl⟩
  have hanswered := (refused_unlisted_iff ⟨"store"⟩ hd hn rfl (by decide)
    (.inr ⟨by decide, by decide⟩) [{}, {}, { portion := 2 }, {}, {}] 1000 {}).2
  obtain ⟨-, -, hadded⟩ := hanswered _ (answer?_eq_some.mp hdone)
  refine ⟨_, ?_, hadded.size, hadded.loaded⟩
  have hlisted := hadded.listed
  rwa [hnone] at hlisted

/-- A message is refused and listed all the same when the last look at it fails. And where the path
to the messages leads back from a directory that is missing, a message that is not stored at all
brings another one to light. -/
theorem refused_but_listed :
    let s : Saving := { name := messageName 20240101000000000 1, data := [104, 105] }
    (let d : Disk :=
      { items := [(["store"], .directory 4096 0), (["store", ".tmp"], .directory 4096 0)] }
      let r := steps ⟨"store"⟩ d s
        [{}, { portion := 2 }, {}, { mishap := some { fault := .permissionDenied } }]
      r.2.answer? = some (.error (.system .permissionDenied)) ∧ listed ⟨"store"⟩ d = [] ∧
        (listed ⟨"store"⟩ r.1).map (·.name) = [s.name]) ∧
      let d : Disk :=
        { items := [(["store"], .directory 4096 0), (["store", "m.eml"], .file [120] 0),
            (["store", ".tmp"], .file [] 0)] }
      let r := steps ⟨"a/../store"⟩ d s [{}, {}]
      r.2.answer? = some (.error (unmade ⟨"a/../store"⟩ .alreadyExists)) ∧
        listed ⟨"a/../store"⟩ d = [] ∧ (listed ⟨"a/../store"⟩ r.1).map (·.name) = ["m.eml"] := by
  intro s
  refine ⟨⟨?_, ?_, ?_⟩, ?_, ?_, ?_⟩
  · decide +kernel
  · decide +kernel
  · decide +kernel
  · decide +kernel
  · decide +kernel
  · decide +kernel

end Saving

end Mailbox

end Letterbox
