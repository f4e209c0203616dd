import Letterbox.Proofs.Dispatch.Retention
import Letterbox.Proofs.Store.Pruning

/-!
# Mail past its time

A sweep over a mailbox that nobody else uses meanwhile, while the time of day stands still: it
deletes what is past its time for one of the rules, and nothing else.
-/

set_option autoImplicit false

namespace Letterbox

namespace Mailbox

open Retention

variable {m : Mailbox} {d : Disk} {ms : List StoredMessage}

/-- A mailbox as a sweep meets it. What happens to a deletion is told for each message; a sweep runs
no errands. -/
def world (m : Mailbox) (turns : StoredMessage → Turn) (clock : Int) : World Disk where
  load d path := m.load d path
  perform d _ _ _ := (.ok (), d)
  list d := m.enumerate d
  listTakes _ := 0
  delete d e := match m.delete d e.path (turns e) with
    | .ok d' => (.ok (), d')
    | .error f => (.error f, d)
  clock _ := clock

theorem removal_eq_error {turn : Turn} {e : StoredMessage} {f : Failure}
    (h : m.removal turn d e = .error f) : m.delete d e.path turn = .error f := by
  rw [removal] at h
  cases hdelete : m.delete d e.path turn with
  | ok d' =>
    rw [hdelete] at h
    cases h
  | error f' =>
    rw [hdelete] at h
    cases h
    rfl

theorem steady (hd : d.Tidy) (hms : m.enumerate d = .ok ms) (turns : StoredMessage → Turn)
    (clock : Int) :
    Sweep.Steady (m.world turns clock) clock (fun e => m.removal (turns e) d e)
      (m.Pruned d ms) where
  clock _ := rfl
  list h := h.listed
  once h := nodup_of_enumerate h.tidy h.listed
  refuses := by
    intro l d' e f h he hanswer
    rw [← h.removal hd hms he] at hanswer
    simp only [world, removal_eq_error hanswer]
  deletes := by
    intro l d' e h he hanswer
    rw [← h.removal hd hms he] at hanswer
    obtain ⟨d'', hdelete, hpruned⟩ := h.delete he hanswer
    exact ⟨d'', by simp only [world, hdelete], hpruned⟩

/-- What a sweep does to a mailbox. It comes to an end, and then those messages are left that no
rule calls past their time or that cannot be deleted; nothing else on the disk has changed. There
is one outcome for each retention rule that is enabled, in their order. Its attempts are at the
messages past its time that the rules before it have left, the oldest first; it is a success if
the rule can be carried out and no attempt failed, and otherwise the failures are counted. A
second sweep leaves everything as it is. -/
theorem sweep_exact (hd : d.Tidy) (hms : m.enumerate d = .ok ms) (rules : List Rule) (clock : Int)
    (turns : StoredMessage → Turn) :
    let answer := fun e => m.removal (turns e) d e
    ∃ outcomes left,
      Sweep.ComesTo (m.world turns clock) rules outcomes left {} d ∧
      m.enumerate left =
        .ok (ms.filter fun e => (∀ r ∈ rules, ¬r.Expires clock e) ∨ Stuck answer e) ∧
      (∀ e ∈ ms, (∃ r ∈ rules, r.Expires clock e) → ¬Stuck answer e →
        left.item? (d.place e.path) = none) ∧
      (∀ q, (∀ e ∈ ms, (∃ r ∈ rules, r.Expires clock e) → ¬Stuck answer e → d.place e.path ≠ q) →
        left.item? q = d.item? q) ∧
      outcomes.map (fun o => (o.ruleId, o.ruleKind)) =
        (rules.filter fun r => (days? r).isSome).map (fun r => (r.id, r.kind)) ∧
      (∀ before r after days, rules = before ++ r :: after →
        r.enabled = true → r.action = .mailRetention days →
          let due := (kept answer clock before ms).filter fun e => r.Expires clock e
          let failures := due.countP fun e => Stuck answer e
          let valid := 1 ≤ days.toNat ∧ days.toNat ≤ 3650
          due.Pairwise (fun e e' => e.createdAt ≤ e'.createdAt) ∧
            ∃ o, outcomes[(before.filter fun r => (days? r).isSome).length]? = some o ∧
              o.attempts = due.map (fun e => deletion e (answer e)) ∧
              (o.success = true ↔ valid ∧ failures = 0) ∧
              (valid → o.error =
                if failures = 0 then none else some s!"{failures} deletion(s) failed")) ∧
      ∃ again, Sweep.ComesTo (m.world turns clock) rules again left {} left := by
  intro answer
  have hsteady := steady hd hms turns clock
  obtain ⟨left, hleft, -, hcomes⟩ := Sweep.comesTo_waiting hsteady rules (Pruned.refl hd hms)
  refine ⟨_, left, hcomes, hleft.listed, fun e he ⟨r, hr, hexpires⟩ hgoes => ?_, fun q hq => ?_,
    map_outcomesOf rules ms, ?_, _, Sweep.comesTo_again hsteady rules hleft⟩
  · refine hleft.gone e he fun hkept => ?_
    rcases (mem_kept.mp hkept).2 with hno | hstuck
    · exact hno r hr hexpires
    · exact hgoes hstuck
  · refine hleft.same q fun e he hgone => ?_
    rw [mem_kept, and_iff_right he, not_or] at hgone
    obtain ⟨hexpires, hgoes⟩ := hgone
    refine hq e he ?_ hgoes
    simpa using hexpires
  · rintro before r after days rfl henabled haction due failures valid
    have hdays := Rule.days?_eq_some.mpr ⟨henabled, haction⟩
    have hold : due.Pairwise fun e e' => e.createdAt ≤ e'.createdAt :=
      ((oldest_first hd hms).sublist (kept_sublist before ms)).filter _
    have hlength : (outcomesOf answer clock before ms).length =
        (before.filter fun r => (days? r).isSome).length := by
      rw [← List.length_map, map_outcomesOf, List.length_map]
    refine ⟨hold, outcomeOf answer clock r days (kept answer clock before ms), ?_,
      attempts_outcomeOf hdays, ?_, fun hvalid => error_outcomeOf hdays hvalid⟩
    · rw [← hlength, outcomesOf_append, outcomesOf, hdays, List.getElem?_append_right le_rfl,
        Nat.sub_self]
      rfl
    · rw [success_outcomeOf hdays, List.countP_eq_zero, List.forall_mem_filter]
      simp only [decide_eq_true_eq]
      rfl

/-- Of two old messages one is in use, a third one is new; two of the rules do nothing. -/
theorem sweep_exact_month :
    let m : Mailbox := ⟨"box"⟩
    let d : Disk := { items := [(["box"], .directory 4096 0), (["box", "a.eml"], .file [1] 0),
      (["box", "c.eml"], .file [3] 0), (["box", "b.eml"], .file [2] 1728000000000000)] }
    let turns : StoredMessage → Turn := fun e =>
      if e.name = "c.eml" then { mishap := some ⟨.permissionDenied, 0⟩ } else {}
    let rules : List Rule :=
      [⟨⟨1⟩, true, .mailRetention 30⟩, ⟨⟨2⟩, false, .mailRetention 1⟩,
        ⟨⟨3⟩, true, .mailRetention 0⟩]
    ∃ outcomes left, Sweep.ComesTo (m.world turns 2678400000000000) rules outcomes left {} d ∧
      m.enumerate left =
        .ok [⟨"box/c.eml", "c.eml", 1, 0⟩, ⟨"box/b.eml", "b.eml", 1, 1728000000000000⟩] := by
  intro m d turns rules
  have hd : d.Tidy := by decide +kernel
  have hms : m.enumerate d = .ok [⟨"box/a.eml", "a.eml", 1, 0⟩, ⟨"box/c.eml", "c.eml", 1, 0⟩,
      ⟨"box/b.eml", "b.eml", 1, 1728000000000000⟩] := by
    have hlist : d.list m.base = .ok ["a.eml", "c.eml", "b.eml"] :=
      toOption_eq_some.mp (by decide +kernel)
    have hlooks : m.looks d (messageNames ["a.eml", "c.eml", "b.eml"]) =
        [⟨"box/a.eml", "a.eml", 1, 0⟩, ⟨"box/c.eml", "c.eml", 1, 0⟩,
          ⟨"box/b.eml", "b.eml", 1, 1728000000000000⟩] := by decide +kernel
    rw [enumerate_eq, hlist]
    dsimp only
    rw [hlooks, List.mergeSort_of_pairwise (by decide +kernel)]
  obtain ⟨outcomes, left, hcomes, hleft, -⟩ := sweep_exact hd hms rules 2678400000000000 turns
  exact ⟨outcomes, left, hcomes, hleft.trans (congrArg Except.ok (by decide +kernel))⟩

end Mailbox

end Letterbox
