import Letterbox.Dispatch.Errand
import Letterbox.Proofs.Dispatch.Retry
import Letterbox.Proofs.Smtp.Talk

/-!
# Mail that was accepted

A message is accepted with the reply 250 to the single dot behind it. What comes of the talk after
that, and of further attempts to hand the message on, depends on two things only: whether the reply
is UTF-8, and whether the farewell can be written.
-/

namespace Letterbox.Smtp

set_option autoImplicit false

open Lines

namespace Sending

variable {refuses : Refusal} {t : Sending}

/-! ## Acceptance -/

/-- The lines of a whole reply with the code 250, whatever its text. -/
def Accepts (reply : List Bytes) : Prop :=
  ∃ more last, reply = more ++ [last] ∧ (∀ l ∈ more, isLast l = false) ∧ isLast last = true ∧
    codeOf? reply.flatten = some 250

def Legible (reply : List Bytes) : Prop := ∀ l ∈ reply, Utf8.fault? l = none

theorem line_of_fault {acc raw : Bytes} {e : Exchange} {later : List Exchange} {f : Utf8.Fault}
    (ht : t.stage = .waiting acc e later) (hheeded : e.heeded = true)
    (hfault : Utf8.fault? raw = some f) :
    (t.line refuses raw).stage = .ended (.error (.system (.other f.message))) := by
  simp only [line, ht, hfault, fail, hheeded, if_true]

theorem line_of_more {acc raw : Bytes} {e : Exchange} {later : List Exchange}
    (ht : t.stage = .waiting acc e later) (hfault : Utf8.fault? raw = none)
    (hlast : isLast raw = false) :
    t.line refuses raw = { t with stage := .waiting (acc ++ raw) e later } := by
  simp only [line, ht, hfault, hlast, Bool.false_eq_true, if_false]

theorem line_of_last {acc raw : Bytes} {e : Exchange} {later : List Exchange}
    (ht : t.stage = .waiting acc e later) (hfault : Utf8.fault? raw = none)
    (hlast : isLast raw = true) (hcode : codeOf? (acc ++ raw) = some e.expected) :
    t.line refuses raw = t.next refuses later := by
  simp only [line, ht, hfault, hlast, hcode, if_true]

/-- A legible reply lets a talk go on; it fails at the first line that is not legible. -/
theorem lineAll_reply (refuses : Refusal) {t : Sending} {acc last : Bytes} {more : List Bytes}
    {e : Exchange} {later : List Exchange} (ht : t.stage = .waiting acc e later)
    (hheeded : e.heeded = true) (hmore : ∀ l ∈ more, isLast l = false) (hlast : isLast last = true)
    (hcode : codeOf? (acc ++ (more ++ [last]).flatten) = some e.expected) :
    (Legible (more ++ [last]) →
        lineAll refuses t (more ++ [last]) = t.next refuses later) ∧
      (¬Legible (more ++ [last]) →
        ∃ f, (lineAll refuses t (more ++ [last])).stage = .ended (.error f)) := by
  -- What has come of the reply grows line by line, as far as the first fault.
  induction more generalizing t acc with
  | nil =>
    rw [List.nil_append, List.flatten_cons, List.flatten_nil, List.append_nil] at hcode
    cases hfault : Utf8.fault? last with
    | none =>
      have hlegible : Legible ([] ++ [last]) := by
        intro l hl
        rw [List.nil_append, List.mem_singleton] at hl
        rwa [hl]
      exact ⟨fun _ => line_of_last ht hfault hlast hcode, fun h => absurd hlegible h⟩
    | some f =>
      refine ⟨fun h => ?_, fun _ => ⟨_, line_of_fault ht hheeded hfault⟩⟩
      rw [h last (by simp)] at hfault
      cases hfault
  | cons raw more ih =>
    rw [List.cons_append, lineAll, List.foldl_cons]
    cases hfault : Utf8.fault? raw with
    | none =>
      have hline : t.line refuses raw = { t with stage := .waiting (acc ++ raw) e later } :=
        line_of_more ht hfault (hmore raw List.mem_cons_self)
      rw [List.cons_append, List.flatten_cons, ← List.append_assoc] at hcode
      have hih := ih (t := { t with stage := .waiting (acc ++ raw) e later }) rfl
        (fun l hl => hmore l (List.mem_cons_of_mem raw hl)) hcode
      have hiff : Legible (raw :: (more ++ [last])) ↔ Legible (more ++ [last]) := by
        simp only [Legible, List.forall_mem_cons, hfault, true_and]
      rw [hline, hiff]
      refine ⟨fun h => (hih.1 h).trans ?_, hih.2⟩
      cases later <;> rfl
    | some f =>
      obtain ⟨failure, hstage⟩ : ∃ failure, (t.line refuses raw).stage = .ended (.error failure) :=
        ⟨_, line_of_fault ht hheeded hfault⟩
      refine ⟨fun h => ?_, fun _ => ⟨failure, ?_⟩⟩
      · rw [h raw List.mem_cons_self] at hfault
        cases hfault
      · have hended : (t.line refuses raw).isEnded = true := by rw [isEnded, hstage]
        exact (congrArg stage (lineAll_of_isEnded hended _)).trans hstage

theorem line_after_farewell {acc : Bytes} (ht : t.stage = .waiting acc .farewell [])
    (raw : Bytes) :
    (t.line refuses raw).sent = t.sent ∧
      ((t.line refuses raw).stage = .ended (.ok ()) ∨
        ∃ acc, (t.line refuses raw).stage = .waiting acc .farewell []) := by
  simp only [line, ht]
  cases Utf8.fault? raw with
  | some f => exact ⟨rfl, .inl rfl⟩
  | none =>
    dsimp only
    split
    · split <;> exact ⟨rfl, .inl rfl⟩
    · exact ⟨rfl, .inr ⟨_, rfl⟩⟩

/-- Whatever comes in reply to the farewell, or nothing, does no harm. -/
theorem result_after_farewell {acc : Bytes} (ht : t.stage = .waiting acc .farewell [])
    (raws : List Bytes) (cut : Cut) :
    ((lineAll refuses t raws).cutOff cut).result? = some (.ok ()) := by
  induction raws generalizing t acc with
  | nil =>
    obtain ⟨stage, sent, pending⟩ := t
    dsimp only at ht
    subst ht
    rfl
  | cons raw raws ih =>
    rw [lineAll, List.foldl_cons]
    rcases (line_after_farewell ht raw).2 with hended | ⟨acc', hwaiting⟩
    · have hstop : (t.line refuses raw).isEnded = true := by rw [isEnded, hended]
      have hall : raws.foldl (line refuses) (t.line refuses raw) = t.line refuses raw :=
        lineAll_of_isEnded hstop raws
      rw [hall, cutOff, hended]
      simp only [result?, hended]
    · exact ih hwaiting

def quit : Bytes := Utf8.encode ("QUIT" ++ "\r\n")

theorem next_farewell (refuses : Refusal) (t : Sending) :
    t.next refuses [.farewell] = match refuses t.sent quit with
      | none => { t with sent := t.sent ++ quit, stage := .waiting [] .farewell [] }
      | some (kept, text) =>
        { t with
          sent := t.sent ++ quit.take kept
          stage := .ended (.error (.system (.other text))) } := by
  have hwrites : Exchange.farewell.writes = [quit] := rfl
  simp only [next, hwrites, writeAll]
  cases refuses t.sent quit with
  | none => rfl
  | some failure => rfl

theorem result_of_stage {result : Except Failure Unit} (ht : t.stage = .ended result)
    (raws : List Bytes) (cut : Cut) :
    ((lineAll refuses t raws).cutOff cut).result? = some result := by
  have hended : t.isEnded = true := by rw [isEnded, ht]
  rw [lineAll_of_isEnded hended, cutOff, ht]
  simp only [result?, ht]

/-- After an acceptance a talk succeeds exactly if the reply is legible and the farewell can be
written. -/
theorem result_accepted {message : Bytes} {reply : List Bytes}
    (ht : t.stage = .waiting [] (.body message) [.farewell]) (hreply : Accepts reply)
    (rest : List Bytes) (cut : Cut) :
    ((lineAll refuses t (reply ++ rest)).cutOff cut).result? = some (.ok ()) ↔
      Legible reply ∧ refuses t.sent quit = none := by
  obtain ⟨more, last, rfl, hmore, hlast, hcode⟩ := hreply
  obtain ⟨hgood, hbad⟩ := lineAll_reply refuses ht rfl hmore hlast hcode
  rw [lineAll_append]
  by_cases hlegible : Legible (more ++ [last])
  · rw [hgood hlegible]
    have hnext := next_farewell refuses t
    cases hrefuses : refuses t.sent quit with
    | none =>
      rw [hrefuses] at hnext
      have hstage : (t.next refuses [.farewell]).stage = .waiting [] .farewell [] := by rw [hnext]
      exact iff_of_true (result_after_farewell hstage rest cut) ⟨hlegible, rfl⟩
    | some failure =>
      rw [hrefuses] at hnext
      have hstage : (t.next refuses [.farewell]).stage =
          .ended (.error (.system (.other failure.2))) := by rw [hnext]
      rw [result_of_stage hstage]
      refine iff_of_false ?_ ?_
      · intro h
        cases h
      · intro h
        cases h.2
  · obtain ⟨f, hstage⟩ := hbad hlegible
    rw [result_of_stage hstage]
    refine iff_of_false ?_ (fun h => hlegible h.1)
    intro h
    cases h

theorem exists_result_cutOff (t : Sending) (cut : Cut) :
    ∃ result, (t.cutOff cut).result? = some result := by
  obtain ⟨stage, sent, pending⟩ := t
  cases stage with
  | ended result => exact ⟨result, rfl⟩
  | waiting acc e later => exact ⟨_, rfl⟩

end Sending

/-! ## Attempts -/

/-- What a far side does in one attempt: which writes it refuses, what it says and how that ends. -/
structure FarSide where
  refuses : Sending.Refusal := Sending.never
  pieces : List Bytes
  cut : Sending.Cut

namespace FarSide

open Sending

def outcome (f : FarSide) (script : List Exchange) : Except Failure Unit :=
  (talk f.refuses script f.pieces f.cut).result?.getD (.ok ())

/-- The reply to the single dot behind the message is an acceptance; `sent` was written by then. -/
def AcceptsMail (f : FarSide) (script : List Exchange) (message sent : Bytes)
    (reply : List Bytes) : Prop :=
  Accepts reply ∧ ∃ before rest,
    linesOf f.pieces.flatten f.cut = before ++ (reply ++ rest) ∧
      (lineAll f.refuses (start f.refuses script) before).stage =
        .waiting [] (.body message) [.farewell] ∧
      (lineAll f.refuses (start f.refuses script) before).sent = sent

theorem outcome_accepted {f : FarSide} {script : List Exchange} {message sent : Bytes}
    {reply : List Bytes} (h : f.AcceptsMail script message sent reply) :
    f.outcome script = .ok () ↔ Legible reply ∧ f.refuses sent quit = none := by
  obtain ⟨hreply, before, rest, hlines, hstage, rfl⟩ := h
  have hresult := result_talk f.refuses script f.pieces f.cut
  rw [hlines, lineAll_append] at hresult
  rw [← result_accepted hstage hreply rest f.cut, ← hresult, outcome, hresult]
  obtain ⟨result, hsome⟩ := exists_result_cutOff (lineAll f.refuses
    (lineAll f.refuses (start f.refuses script) before) (reply ++ rest)) f.cut
  rw [hsome, Option.getD_some, Option.some.injEq]

end FarSide

/-- A message that is to be handed on, and what each attempt at that meets: a far side, or a reason
why there is none. -/
structure Delivery where
  name : String
  host : RelayHost
  policy : RetryPolicy
  envelope : Envelope
  message : Bytes
  takes : Nat → Nat := fun _ => 0
  meets : Nat → Except Failure FarSide

namespace Delivery

open Sending

def script (d : Delivery) : List Exchange :=
  Exchange.script d.name d.host.credentials d.envelope d.message

def answer (d : Delivery) (number : Nat) : Except Failure Unit := do
  let f ← d.meets number
  f.outcome d.script

def course (d : Delivery) : Retry.Course Unit :=
  Retry.course (Errand.relay d.host d.envelope d.policy).name d.policy.maxAttempts
    d.policy.pauseMillis fun n => { takes := d.takes n, answer := d.answer n }

def AcceptedIn (d : Delivery) (number : Nat) (f : FarSide) (sent : Bytes) (reply : List Bytes) :
    Prop :=
  d.meets number = .ok f ∧ f.AcceptsMail d.script d.message sent reply

variable {d : Delivery} {f : FarSide} {sent : Bytes} {reply : List Bytes}

theorem answer_accepted {number : Nat} (h : d.AcceptedIn number f sent reply) :
    d.answer number = .ok () ↔ Legible reply ∧ f.refuses sent quit = none := by
  have hanswer : d.answer number = f.outcome d.script := by rw [answer, h.1]; rfl
  rw [hanswer]
  exact FarSide.outcome_accepted h.2

/-- A message that was accepted is sent again exactly if there may be another attempt and the reply
was not UTF-8 or the farewell could not be written. -/
theorem sent_again_iff {a : Attempt} (ha : a ∈ d.course.attempts)
    (h : d.AcceptedIn a.number f sent reply) :
    (d.answer a.number = .ok () ↔ Legible reply ∧ f.refuses sent quit = none) ∧
      ((∃ b ∈ d.course.attempts, a.number < b.number) ↔
        a.number < Retry.limit d.policy.maxAttempts ∧
          ¬(Legible reply ∧ f.refuses sent quit = none)) := by
  have hanswer := answer_accepted h
  refine ⟨hanswer, ?_⟩
  have hfails : (∀ v, d.answer a.number ≠ .ok v) ↔
      ¬(Legible reply ∧ f.refuses sent quit = none) := by
    rw [← hanswer]
    exact ⟨fun hno => hno (), fun hno _ => hno⟩
  rw [← hfails]
  exact Retry.course_follows ha

/-! ### A note with one recipient -/

def opening : List Bytes :=
  ["220 hi\r\n", "250 ok\r\n", "250 ok\r\n", "250 ok\r\n", "354 go\r\n"].map Utf8.encode

def taker (refuses : Refusal) (reply : Bytes) : FarSide :=
  { refuses, pieces := opening ++ [reply], cut := .ended }

/-- The far side is gone when the farewell is written. -/
def hangsUp : Refusal := fun _ piece => if piece = quit then some (0, "Broken pipe") else none

def dot : Bytes := [46, 13, 10]

def note (meets : Nat → Except Failure FarSide) : Delivery :=
  { name := "sink.test", host := { host := "relay.test" }, policy := { retries := 1 }
    envelope := ⟨"a@b.com", ["c@d.com"]⟩, message := dot, meets }

def noteScript : List Exchange :=
  Exchange.script "sink.test" none ⟨"a@b.com", ["c@d.com"]⟩ dot

def thanks : Bytes := Utf8.encode "250 ok\r\n"

def thanksInLatin1 : Bytes := Encoding.latin1.encode "250 für\r\n"

theorem note_acceptedIn {meets : Nat → Except Failure FarSide} {number : Nat} {refuses : Refusal}
    {reply : Bytes} (h : meets number = .ok (taker refuses reply)) (hreply : Accepts [reply])
    (hlines : linesOf (taker refuses reply).pieces.flatten .ended = opening ++ [reply])
    (hstage : (lineAll refuses (start refuses noteScript) opening).stage =
      .waiting [] (.body dot) [.farewell]) :
    (note meets).AcceptedIn number (taker refuses reply)
      (lineAll refuses (start refuses noteScript) opening).sent [reply] :=
  ⟨h, hreply, opening, [], hlines, hstage, rfl⟩

theorem accepts_thanks : Accepts [thanks] :=
  ⟨[], thanks, rfl, nofun, by decide, by decide⟩

theorem accepts_thanksInLatin1 : Accepts [thanksInLatin1] :=
  ⟨[], thanksInLatin1, rfl, nofun, by decide, by decide⟩

theorem not_legible_thanksInLatin1 : ¬Legible [thanksInLatin1] := by
  intro h
  have hfault : Utf8.fault? thanksInLatin1 = none := h thanksInLatin1 List.mem_cons_self
  exact absurd hfault (by decide)

/-- A note that is accepted legibly by a far side that stays for the farewell is sent once. -/
theorem note_sent_once :
    let d := note fun _ => .ok (taker never thanks)
    ∃ a ∈ d.course.attempts, d.answer a.number = .ok () ∧
      ¬∃ b ∈ d.course.attempts, a.number < b.number := by
  intro d
  obtain ⟨a, ha, -⟩ : ∃ a ∈ d.course.attempts, a.number = 1 := Retry.exists_first _
  have haccepted : d.AcceptedIn a.number (taker never thanks) _ [thanks] :=
    note_acceptedIn rfl accepts_thanks (by decide) rfl
  have hlegible : Legible [thanks] := by
    intro l hl
    rw [List.mem_singleton] at hl
    subst hl
    decide
  obtain ⟨hanswer, hagain⟩ := sent_again_iff ha haccepted
  refine ⟨a, ha, hanswer.mpr ⟨hlegible, rfl⟩, fun hmore => ?_⟩
  exact (hagain.mp hmore).2 ⟨hlegible, rfl⟩

/-- A note is accepted twice: the far side that accepts it first is gone when the farewell is
written, and the reply of the other one is in Latin-1. Neither attempt is a success. -/
theorem note_accepted_twice :
    let first := taker hangsUp thanks
    let second := taker never thanksInLatin1
    let d := note fun n => .ok (if n = 1 then first else second)
    ∃ a ∈ d.course.attempts, ∃ b ∈ d.course.attempts, a.number < b.number ∧
      (∃ sent, d.AcceptedIn a.number first sent [thanks]) ∧ d.answer a.number ≠ .ok () ∧
        (∃ sent, d.AcceptedIn b.number second sent [thanksInLatin1]) ∧
          d.answer b.number ≠ .ok () := by
  intro first second d
  obtain ⟨a, ha, hnumber⟩ : ∃ a ∈ d.course.attempts, a.number = 1 := Retry.exists_first _
  have hfirst : d.AcceptedIn a.number first _ [thanks] :=
    note_acceptedIn (by rw [if_pos hnumber]) accepts_thanks (by decide) rfl
  have hfails : d.answer a.number ≠ .ok () := by
    intro hok
    have hfarewell := ((answer_accepted hfirst).mp hok).2
    exact absurd hfarewell (by decide)
  have hagain : ∃ b ∈ d.course.attempts, a.number < b.number := by
    refine (Retry.course_follows ha).mpr ⟨?_, fun _ => hfails⟩
    rw [hnumber]
    decide
  obtain ⟨b, hb, hlt⟩ := hagain
  have hsecond : d.AcceptedIn b.number second _ [thanksInLatin1] :=
    note_acceptedIn (by rw [if_neg (by omega)]) accepts_thanksInLatin1 (by decide) rfl
  refine ⟨a, ha, b, hb, hlt, ⟨_, hfirst⟩, hfails, ⟨_, hsecond⟩, ?_⟩
  exact fun hok => not_legible_thanksInLatin1 ((answer_accepted hsecond).mp hok).1

end Delivery

end Letterbox.Smtp
