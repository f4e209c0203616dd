import Mathlib.Data.List.Forall2
import Letterbox.Proofs.Dispatch.Outcomes

/-!
# Rules do not get in each other's way

The outcomes of a message are those of its rules, in their order; the failures among them are
announced one by one, and the work leaves the store alone.
-/

set_option autoImplicit false

namespace Letterbox

/-! ## Announcements of failures -/

namespace Outcome

structure ToldBy (path : Option String) (o : Outcome) (f : DispatchFailure) : Prop where
  ruleId : f.ruleId = o.ruleId
  ruleKind : f.ruleKind = o.ruleKind
  path : f.path = path
  attempts : f.attempts.toNat = o.attempts.length
  error : o.error = some f.error

/-- Every failure is announced once, in order, with all its attempts, if a word can count these. -/
theorem failureEvents_told (path : Option String) {outcomes : List Outcome}
    (hcount : ∀ o ∈ outcomes, o.attempts.length < UInt32.size) :
    ∃ failures, failureEvents path outcomes = failures.map .ruleDispatchFailed ∧
      List.Forall₂ (ToldBy path) (outcomes.filter (!·.success)) failures := by
  induction outcomes with
  | nil => exact ⟨[], rfl, .nil⟩
  | cons o outcomes ih =>
    obtain ⟨hfirst, hrest⟩ := List.forall_mem_cons.mp hcount
    obtain ⟨failures, hevents, htold⟩ := ih hrest
    cases herror : o.error with
    | none =>
      refine ⟨failures, ?_, ?_⟩
      · simpa [failureEvents, failureEvent, herror] using hevents
      · rwa [List.filter_cons_of_neg (by simp [success, herror])]
    | some text =>
      refine ⟨⟨o.ruleId, o.ruleKind, path, o.attempts.length.toUInt32, text⟩ :: failures, ?_, ?_⟩
      · simpa [failureEvents, failureEvent, herror] using hevents
      · rw [List.filter_cons_of_pos (by simp [success, herror])]
        exact .cons ⟨rfl, rfl, rfl, UInt32.toNat_ofNat_of_lt' hfirst, herror⟩ htold

end Outcome

/-- A rule is not tried more often than a word can count. -/
theorem Rule.length_attempts_outcomeFor (answers : Answers) (m : ReceivedMessage) (r : Rule) :
    (r.outcomeFor answers m).attempts.length < UInt32.size := by
  have hpolicy : ∀ p : RetryPolicy, p.maxAttempts < UInt32.size := by
    intro p
    exact Nat.lt_of_le_of_lt (Nat.min_le_right _ _) (by decide)
  have hmax : ((r.errand? m).map (·.policy.maxAttempts)).getD 1 < UInt32.size := by
    cases r.errand? m with
    | none => decide
    | some e => exact hpolicy e.policy
  refine Nat.lt_of_le_of_lt (Retry.length_attempts_course _) ?_
  exact Nat.max_lt.mpr ⟨by decide, hmax⟩

theorem length_attempts_dispatchMessage {rules : List Rule} {stored : Except Failure Bytes}
    {answers : Answers} {m : ReceivedMessage} :
    ∀ o ∈ dispatchMessage rules stored answers m, o.attempts.length < UInt32.size := by
  intro o ho
  cases stored with
  | ok raw =>
    rw [dispatchMessage_ok] at ho
    obtain ⟨r, -, rfl⟩ := List.mem_map.mp ho
    exact r.length_attempts_outcomeFor answers m
  | error f =>
    rw [dispatchMessage_error] at ho
    cases ho

/-! ## The store -/

namespace Clockwork

variable {ω σ : Type} {w : World ω} {view : ω → σ}

theorem view_runMove?
    (hperform : ∀ world now e raw, view (w.perform world now e raw).2 = view world)
    {world : ω} {now id : Nat} {raw : Bytes} {index : Nat} {runs : List Run} {move : Move ω}
    (h : runMove? w world now id raw index runs = some move) : view move.world = view world := by
  induction runs generalizing index with
  | nil => cases h
  | cons r runs ih =>
    unfold runMove? at h
    split at h
    · cases h
      exact hperform world now r.errand raw
    · split at h
      · cases h
        rfl
      · exact ih h
    · exact ih h

theorem view_taskMove?
    (hperform : ∀ world now e raw, view (w.perform world now e raw).2 = view world)
    {world : ω} {now : Nat} {t : Dispatcher.Task} {move : Move ω}
    (h : taskMove? w world now t = some move) : view move.world = view world := by
  unfold taskMove? at h
  split at h
  · cases h
    rfl
  · cases h
    rfl
  · split at h
    · rename_i hrun
      cases h
      exact view_runMove? hperform hrun
    · obtain ⟨-, -, rfl⟩ := Option.map_eq_some_iff.mp h
      rfl

/-- The work on a message changes of the world no more than errands do. -/
theorem view_workOff (hperform : ∀ world now e raw, view (w.perform world now e raw).2 = view world)
    (fuel now : Nat) (world : ω) (t : Dispatcher.Task) :
    view (workOff w fuel now world t).2.1 = view world := by
  induction fuel generalizing now world t with
  | zero => rfl
  | succ fuel ih =>
    unfold workOff
    split
    · repeat' split
      · exact ih _ _ _
      · rfl
      · rfl
      · rfl
    · rename_i hmove
      have hview := view_taskMove? hperform hmove
      split
      · exact (ih _ _ _).trans hview
      · exact (ih _ _ _).trans hview
      · exact (ih _ _ _).trans hview
      · exact hview

end Clockwork

/-! ## Messages -/

theorem Dispatcher.announced_finish {d : Dispatcher} {t : Task} {id : Nat} {outcomes : List Outcome}
    (now : Nat) (htask : d.task? id = some t) (hend : t.outcomes? = some outcomes) :
    (d.step now (.finish id)).announced =
      d.announced ++ Outcome.failureEvents (some t.message.path) outcomes := by
  unfold task? at htask
  simp only [step, finish, htask, hend, announce, dropTask]

/-- The rules that a message meets do not depend on each other. Whatever the order of the steps, its
task comes to an end, and then its outcomes are one for each rule that acts on it, as that rule has
them alone. -/
theorem rules_independent (stored : Except Failure Bytes) (answers : Answers)
    (m : ReceivedMessage) :
    (∀ rules id, Dispatcher.Task.ComesTo rules stored answers
        (dispatchMessage rules stored answers m) { id, message := m }) ∧
      (∀ rules others, dispatchMessage (rules ++ others) stored answers m =
        dispatchMessage rules stored answers m ++ dispatchMessage others stored answers m) ∧
      (∀ rules, dispatchMessage rules stored answers m = match stored with
        | .ok raw => (rules.filter fun r => decide (r.Acts (Message.ofBytes raw))).map
            (Rule.outcomeFor answers m)
        | .error _ => []) ∧
      (∀ rules r others, r.BadPattern → dispatchMessage (rules ++ r :: others) stored answers m =
        dispatchMessage (rules ++ others) stored answers m) ∧
      (∀ rules path, ∃ failures,
        Outcome.failureEvents path (dispatchMessage rules stored answers m) =
          failures.map .ruleDispatchFailed ∧
        List.Forall₂ (Outcome.ToldBy path)
          ((dispatchMessage rules stored answers m).filter (!·.success)) failures) ∧
      (∀ (d : Dispatcher) (now id : Nat) (t : Dispatcher.Task) (outcomes : List Outcome),
        d.task? id = some t → t.outcomes? = some outcomes →
          (d.step now (.finish id)).announced =
            d.announced ++ Outcome.failureEvents (some t.message.path) outcomes) ∧
      ∀ (ω σ : Type) (w : World ω) (view : ω → σ),
        (∀ world now e raw, view (w.perform world now e raw).2 = view world) →
          ∀ (fuel now : Nat) (world : ω) (id : Nat),
            view (Clockwork.workOff w fuel now world { id, message := m }).2.1 = view world := by
  refine ⟨fun rules id => Dispatcher.Task.comesTo_waiting id,
    fun rules others => dispatchMessage_append rules others stored answers m, fun rules => ?_,
    fun rules r others hbad => ?_,
    fun rules path => Outcome.failureEvents_told path length_attempts_dispatchMessage,
    fun d now id t outcomes htask hend => Dispatcher.announced_finish now htask hend,
    fun ω σ w view hperform fuel now world id =>
      Clockwork.view_workOff hperform fuel now world { id, message := m }⟩
  · cases stored with
    | ok raw => rw [dispatchMessage_ok, Rule.applicable_eq]
    | error f => exact dispatchMessage_error rules answers m f
  · rw [dispatchMessage_append, ← List.singleton_append, dispatchMessage_append,
      dispatchMessage_badPattern stored answers m hbad, List.nil_append, ← dispatchMessage_append]

/-! ### A pattern that cannot be read -/

def unreadable : Rule :=
  ⟨⟨1⟩, true, .conditionalRelay (some "(") none ⟨{ host := "relay.test" }, {}⟩⟩

def passesOn : Rule := ⟨⟨2⟩, true, .relay ⟨{ host := "relay.test" }, {}⟩⟩

theorem rules_independent_unreadable :
    let m : ReceivedMessage := ⟨"/store/msg-1.eml", "a@b.com", ["c@d.com"], 4⟩
    let raw : Bytes := [104, 105, 13, 10]
    unreadable.BadPattern ∧
      dispatchMessage [unreadable, passesOn] (.ok raw) (fun _ _ _ => .ok ()) m =
        dispatchMessage [passesOn] (.ok raw) (fun _ _ _ => .ok ()) m ∧
      (dispatchMessage [passesOn] (.ok raw) (fun _ _ _ => .ok ()) m).length = 1 := by
  intro m raw
  have hbad : unreadable.BadPattern :=
    ⟨some "(", none, _, rfl, .inl ⟨"(", rfl, by decide, by decide +kernel⟩⟩
  obtain ⟨-, -, -, hskip, -⟩ := rules_independent (.ok raw) (fun _ _ _ => .ok ()) m
  exact ⟨hbad, hskip [] unreadable [passesOn] hbad, by decide +kernel⟩

end Letterbox
