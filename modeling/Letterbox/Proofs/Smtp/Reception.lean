import Letterbox.Proofs.Smtp.Commands
import Letterbox.Proofs.Smtp.DotStuffing
import Letterbox.Proofs.Smtp.Provenance

/-!
# How the receiving side hears a message

What a server that speaks Latin-1 answers to single commands of plain text, and to all the lines of
a message with its end.
-/

namespace Letterbox.Smtp

set_option autoImplicit false

open Lines Receiver

/-- The bytes that were sent in all turns. -/
def Talk.wire {ω : Type} (k : Talk ω) : Bytes := k.turns.flatMap (·.response.wire)

structure Talk.Stands {ω : Type} (k : Talk ω) (r : Receiver) (desk : Desk ω) : Prop where
  encoding : k.encoding = .latin1
  service : k.service = (r, desk)

variable {ω : Type} {setup : Setup} {k : Talk ω} {s : Session} {desk : Desk ω} (keep : Keep ω)

/-- The lines lead from one talk to another, in which the reply has been sent as well. -/
def Answers (setup : Setup) (keep : Keep ω) (k : Talk ω) (ls : List Bytes) (reply : Bytes)
    (k' : Talk ω) (flow : Flow) : Prop :=
  (handover (Talk.hear .standard setup keep) k ls).state = k' ∧
    (handover (Talk.hear .standard setup keep) k ls).flow = flow ∧ k'.wire = k.wire ++ reply

theorem answers_single {raw reply : Bytes} {k' : Talk ω} {flow : Flow}
    (h : k.hear .standard setup keep raw = (k', flow)) (hwire : k'.wire = k.wire ++ reply) :
    Answers setup keep k [raw] reply k' flow := by
  by_cases hf : flow = .proceed
  · subst hf
    rw [Answers, handover_cons_of_proceed _ h]
    exact ⟨rfl, rfl, hwire⟩
  · rw [Answers, handover_cons_of_stop _ h hf]
    exact ⟨rfl, rfl, hwire⟩

/-- What a talk comes to with a line, read off the receiver. -/
theorem hear_of_line {r r' : Receiver} {raw : Bytes} {answer : SaveAnswer} {store : ω}
    {response : Response} (hk : k.Stands r desk)
    (hask : Service.ask keep (r, desk) raw = (answer, store))
    (hline : r.line .standard setup .latin1 raw answer = (r', response))
    (hencoding : response.encoding = .latin1) :
    ∃ k', k.hear .standard setup keep raw = (k', response.flow) ∧
      k'.wire = k.wire ++ response.wire ∧
      k'.Stands r' { store, events := desk.events ++ response.event.toList } := by
  obtain ⟨encoding, service, turns⟩ := k
  obtain ⟨rfl, rfl⟩ := hk
  refine ⟨⟨.latin1, (r', { store, events := desk.events ++ response.event.toList }),
    turns ++ [⟨raw, .latin1, answer, response⟩]⟩, ?_, ?_, rfl, rfl⟩
  · simp only [Talk.hear, hask, hline, hencoding]
  · simp only [Talk.wire, List.flatMap_append, List.flatMap_singleton]

theorem answers_command {text : String} {outcome : Outcome} (hk : k.Stands ⟨s, .commands⟩ desk)
    (htext : Plain text) (hlen : text.length ≤ maxCommandLine)
    (hblank : Text.blankText text = false)
    (houtcome : (CommandChain.standard.dispatch setup text s).outcome = outcome)
    (hutf8 : outcome.session.utf8 = false) :
    ∃ k', Answers setup keep k [Encoding.latin1.encode text]
        (Encoding.latin1.encode outcome.reply.format) k' (flowAfter outcome.next) ∧
      k'.Stands ⟨outcome.session, modeAfter outcome.next⟩ desk := by
  have hshort : ¬maxCommandLine < (Encoding.latin1.encode text).length := by
    rw [length_encode_latin1]
    omega
  have hline : Receiver.line .standard setup .latin1 ⟨s, .commands⟩ (Encoding.latin1.encode text)
      (.error (.storage "")) = (⟨outcome.session, modeAfter outcome.next⟩,
        { reply := some outcome.reply, encoding := .latin1, flow := flowAfter outcome.next }) := by
    simp only [Receiver.line, if_neg hshort, Receiver.command, htext.decode_latin1, hblank,
      Bool.false_eq_true, if_false, houtcome, hutf8, encodingFor]
  obtain ⟨k', hhear, hwire, hstands⟩ := hear_of_line keep hk rfl hline rfl
  refine ⟨k', answers_single keep hhear hwire, ?_⟩
  rwa [Option.toList_none, List.append_nil] at hstands

theorem hear_captured {raw : Bytes} {overflowed : Bool} (hk : k.Stands ⟨s, .data overflowed⟩ desk)
    (hraw : raw ≠ terminator) :
    ∃ k', k.hear .standard setup keep raw = (k', .proceed) ∧ k'.wire = k.wire ∧
      k'.Stands (capture setup.maxSize s overflowed raw) desk := by
  have hask : Service.ask keep (⟨s, .data overflowed⟩, desk) raw =
      (.error (.storage ""), desk.store) := by
    cases overflowed with
    | true => rfl
    | false => simp only [Service.ask, toSave?, if_neg hraw]
  have hline : Receiver.line .standard setup .latin1 ⟨s, .data overflowed⟩ raw
      (.error (.storage "")) =
        (capture setup.maxSize s overflowed raw, { encoding := .latin1 }) := by
    simp only [Receiver.line, if_neg hraw]
  obtain ⟨k', hhear, hwire, hstands⟩ := hear_of_line keep hk hask hline rfl
  refine ⟨k', hhear, ?_, ?_⟩
  · rw [hwire]
    exact List.append_nil _
  · rwa [Option.toList_none, List.append_nil] at hstands

/-- The envelope of the session, which the lines of a message leave alone. -/
def SameEnvelope (s s' : Session) : Prop := s'.sender = s.sender ∧ s'.recipients = s.recipients

theorem hear_body {raws : List Bytes} (hraws : ∀ raw ∈ raws, raw ≠ terminator)
    {seen : List Bytes} {overflowed : Bool} (hk : k.Stands ⟨s, .data overflowed⟩ desk)
    (hcaptures : Captures setup.maxSize seen (.data overflowed) s.message) :
    ∃ k' s' now, (handover (Talk.hear .standard setup keep) k raws).state = k' ∧
      (handover (Talk.hear .standard setup keep) k raws).flow = .proceed ∧ k'.wire = k.wire ∧
      k'.Stands ⟨s', .data now⟩ desk ∧ SameEnvelope s s' ∧
      Captures setup.maxSize (seen ++ raws) (.data now) s'.message := by
  induction raws generalizing k s seen overflowed with
  | nil =>
    refine ⟨k, s, overflowed, rfl, rfl, rfl, hk, ⟨rfl, rfl⟩, ?_⟩
    rwa [List.append_nil]
  | cons raw raws ih =>
    obtain ⟨k₁, hhear, hwire, hstands⟩ := hear_captured keep hk
      (hraws raw List.mem_cons_self)
    obtain ⟨now, hmode⟩ := capture_mode setup.maxSize s overflowed raw
    have hcaptured := captures_concat raw hcaptures
    obtain ⟨hsender, hrecipients⟩ := capture_envelope setup.maxSize s overflowed raw
    generalize capture setup.maxSize s overflowed raw = r at *
    obtain ⟨s₁, mode⟩ := r
    dsimp only at hmode hcaptured hsender hrecipients
    subst hmode
    obtain ⟨k', s', last, hstate, hflow, hwire', hstands', ⟨hsender', hrecipients'⟩, hcaptures'⟩ :=
      ih (fun l hl => hraws l (List.mem_cons_of_mem raw hl)) hstands hcaptured
    rw [handover_cons_of_proceed _ hhear]
    refine ⟨k', s', last, hstate, hflow, hwire'.trans hwire, hstands',
      ⟨hsender'.trans hsender, hrecipients'.trans hrecipients⟩, ?_⟩
    rwa [List.append_assoc] at hcaptures'

theorem answers_append {raws ls : List Bytes} {reply : Bytes} {k₁ k' : Talk ω} {flow : Flow}
    (hstate : (handover (Talk.hear .standard setup keep) k raws).state = k₁)
    (hflow : (handover (Talk.hear .standard setup keep) k raws).flow = .proceed)
    (hwire : k₁.wire = k.wire) (h : Answers setup keep k₁ ls reply k' flow) :
    Answers setup keep k (raws ++ ls) reply k' flow := by
  rw [Answers, handover_append_of_proceed _ _ hflow, hstate, ← hwire]
  exact h

section Message
variable {raws : List Bytes} (hraws : ∀ raw ∈ raws, raw ≠ terminator)
  (hk : k.Stands ⟨s, .data false⟩ desk) (hempty : s.message = [])
include hraws hk hempty

theorem answers_message {entry : StoredMessage} {store : ω}
    (hfits : (Ledger.captured raws).length ≤ setup.maxSize)
    (hkeep : keep desk.store (Ledger.captured raws) = (.ok entry, store)) :
    ∃ k' s', Answers setup keep k (raws ++ [terminator])
        (Encoding.latin1.encode (Reply.queued entry.name).format) k' .proceed ∧
      k'.Stands ⟨s', .commands⟩ { store, events := desk.events ++ [announcement s entry] } ∧
      s'.utf8 = false := by
  have hnothing : Captures setup.maxSize [] (.data false) s.message := by
    rw [hempty]
    exact .kept (Nat.zero_le _)
  obtain ⟨k₁, s₁, now, hstate, hflow, hwire, hstands, ⟨hsender, hrecipients⟩, hcaptures⟩ :=
    hear_body keep hraws hk hnothing
  rw [List.nil_append] at hcaptures
  generalize hmessage : s₁.message = message at hcaptures
  cases hcaptures with
  | overflowed _ hover => omega
  | kept _ =>
    have hask : Service.ask keep (⟨s₁, .data false⟩, desk) terminator = (.ok entry, store) := by
      simp only [Service.ask, toSave?, if_true, hmessage, hkeep]
    have hannounce : announcement s₁ entry = announcement s entry := by
      simp only [announcement, hsender, hrecipients]
    have hline : Receiver.line .standard setup .latin1 ⟨s₁, .data false⟩ terminator (.ok entry) =
        (⟨s₁.reset, .commands⟩, complete setup.maxSize s₁ false (.ok entry)) := by
      simp only [Receiver.line, if_true]
    obtain ⟨k', hhear, hwire', hstands'⟩ := hear_of_line keep hstands hask hline rfl
    refine ⟨k', s₁.reset, ?_, ?_, rfl⟩
    · exact answers_append keep hstate hflow hwire (answers_single keep hhear hwire')
    · rw [← hannounce]
      exact hstands'

theorem answers_message_tooLarge (hover : setup.maxSize < (Ledger.captured raws).length) :
    ∃ k' s', Answers setup keep k (raws ++ [terminator])
        (Encoding.latin1.encode (Reply.tooLarge setup.maxSize).format) k' .proceed ∧
      k'.Stands ⟨s', .commands⟩ desk := by
  have hnothing : Captures setup.maxSize [] (.data false) s.message := by
    rw [hempty]
    exact .kept (Nat.zero_le _)
  obtain ⟨k₁, s₁, now, hstate, hflow, hwire, hstands, -, hcaptures⟩ :=
    hear_body keep hraws hk hnothing
  rw [List.nil_append] at hcaptures
  generalize hmessage : s₁.message = message at hcaptures
  cases hcaptures with
  | kept hkept => omega
  | overflowed _ _ =>
    have hline : Receiver.line .standard setup .latin1 ⟨s₁, .data true⟩ terminator
        (.error (.storage "")) =
          (⟨s₁.reset, .commands⟩, complete setup.maxSize s₁ true (.error (.storage ""))) := by
      simp only [Receiver.line, if_true]
    obtain ⟨k', hhear, hwire', hstands'⟩ := hear_of_line keep hstands rfl hline rfl
    refine ⟨k', s₁.reset,
      answers_append keep hstate hflow hwire (answers_single keep hhear hwire'), ?_⟩
    have hnone : (complete setup.maxSize s₁ true (.error (.storage ""))).event = none := rfl
    rwa [hnone, Option.toList_none, List.append_nil] at hstands'

end Message

end Letterbox.Smtp
