import Letterbox.Proofs.Net.Happenings
import Letterbox.Proofs.Smtp.Effects
import Letterbox.Smtp.Receiver

/-!
# What holds between any two lines of a mail session

The order of commands is kept by the session itself: whatever chain answers its lines, whatever the
store and the far side do, there are no recipients without a sender and no message without both.
That text is read as UTF-8 is known twice, to the session and to its connection, and the two never
disagree. A reply that cannot be sent does no harm, since nothing of a message is kept when a reply
is due.
-/

namespace Letterbox

set_option autoImplicit false

open Lines

namespace Smtp

open Receiver

structure Session.Ordered (s : Session) : Prop where
  sender : s.recipients ≠ [] → s.sender.isSome
  room : s.recipients.length ≤ maxRecipients
  utf8 : s.utf8 = true → s.sender.isSome

theorem Session.ordered_reset (helo : Option String) : Session.Ordered { helo } := by
  refine ⟨?_, Nat.zero_le _, ?_⟩
  · intro h
    exact absurd rfl h
  · intro h
    cases h

theorem Session.Ordered.of_effect {setup : Setup} {args : String} {s : Session}
    {kind : CommandKind} {outcome : Outcome} (h : s.Ordered)
    (heffect : Effect setup args s kind outcome) : outcome.session.Ordered := by
  cases heffect with
  | refused reply hkind hrefused => exact h
  | greeted domain reply hcode => exact ordered_reset _
  | sender address utf8 hnone haddress => exact ⟨fun _ => rfl, h.room, fun _ => rfl⟩
  | recipient address hsome hroom haddress =>
    refine ⟨fun _ => hsome, ?_, fun _ => hsome⟩
    simp only [List.length_append, List.length_singleton]
    omega
  | data hsome hrecipients => exact ⟨h.sender, h.room, h.utf8⟩
  | reset => exact ordered_reset _
  | noop | verify | help | quit => exact h

/-- A message is begun where there is nothing of another, and with an envelope that is complete. -/
theorem message_of_effect {setup : Setup} {args : String} {s : Session} {kind : CommandKind}
    {outcome : Outcome} (hs : s.message = []) (heffect : Effect setup args s kind outcome) :
    outcome.session.message = [] ∧
      (outcome.next = .captureData →
        outcome.session.sender.isSome ∧ outcome.session.recipients ≠ []) := by
  cases heffect with
  | data hsome hrecipients => exact ⟨rfl, fun _ => ⟨hsome, hrecipients⟩⟩
  | greeted | reset => exact ⟨rfl, fun h => by cases h⟩
  | refused | sender | recipient | noop | verify | help | quit => exact ⟨hs, fun h => by cases h⟩

/-- What holds of a receiver between any two lines. -/
structure Receiver.Coherent (maxSize : Nat) (r : Receiver) : Prop where
  ordered : r.session.Ordered
  capturing : ∀ overflowed, r.mode = .data overflowed →
    r.session.sender.isSome ∧ r.session.recipients ≠ []
  kept : r.session.message ≠ [] → r.mode = .data false
  size : r.session.message.length ≤ maxSize

namespace Receiver

variable {maxSize : Nat} {r : Receiver}

/-- Between two messages the order of the transaction is all there is. -/
theorem coherent_commands {s : Session} (h : s.Ordered) (hs : s.message = []) :
    (⟨s, .commands⟩ : Receiver).Coherent maxSize := by
  refine ⟨h, fun _ hmode => (by cases hmode), fun hne => absurd hs hne, ?_⟩
  rw [hs]
  exact Nat.zero_le _

theorem coherent_fresh : Coherent maxSize {} :=
  coherent_commands (Session.ordered_reset none) rfl

/-- Nothing is kept unless it is going to be saved. -/
theorem Coherent.message_eq_nil (h : r.Coherent maxSize) (hmode : r.mode ≠ .data false) :
    r.session.message = [] := by
  by_cases hm : r.session.message = []
  · exact hm
  · exact absurd (h.kept hm) hmode

theorem utf8_capture (s : Session) (overflowed : Bool) (raw : Bytes) :
    (capture maxSize s overflowed raw).session.utf8 = s.utf8 := by
  simp only [capture]
  split
  · rfl
  · split <;> rfl

theorem Coherent.capture {overflowed : Bool} (h : r.Coherent maxSize)
    (hmode : r.mode = .data overflowed) (raw : Bytes) :
    (capture maxSize r.session overflowed raw).Coherent maxSize := by
  obtain ⟨hsome, hrecipients⟩ := h.capturing overflowed hmode
  have hordered : ∀ message, Session.Ordered { r.session with message } := fun _ =>
    ⟨h.ordered.sender, h.ordered.room, h.ordered.utf8⟩
  simp only [Receiver.capture]
  split
  · rename_i hover
    have hempty : r.session.message = [] := by
      apply h.message_eq_nil
      rw [hmode, hover]
      nofun
    exact ⟨h.ordered, fun _ _ => ⟨hsome, hrecipients⟩, fun hne => absurd hempty hne, h.size⟩
  · split
    · refine ⟨hordered [], fun _ _ => ⟨hsome, hrecipients⟩, ?_, Nat.zero_le _⟩
      intro hne
      exact absurd rfl hne
    · rename_i hfits
      refine ⟨hordered _, fun _ _ => ⟨hsome, hrecipients⟩, fun _ => rfl, ?_⟩
      simp only [List.length_append, crlf, List.length_cons, List.length_nil]
      omega

variable (chain : CommandChain) {setup : Setup} (e : Encoding)

/-- What a line of text does, whichever commands there are. -/
theorem dispatch_coherent {s : Session} (h : s.Ordered) (hs : s.message = []) (line : String) :
    let outcome := (chain.dispatch setup line s).outcome
    (⟨outcome.session, modeAfter outcome.next⟩ : Receiver).Coherent setup.maxSize ∧
      outcome.session.message = [] := by
  intro outcome
  have houtcome : outcome.session.Ordered ∧ outcome.session.message = [] ∧
      (outcome.next = .captureData →
        outcome.session.sender.isSome ∧ outcome.session.recipients ≠ []) := by
    have hdispatch := outcome_dispatch setup s chain line
    cases hfind : chain.find? (·.knows (splitVerb line).1) with
    | none =>
      simp only [hfind] at hdispatch
      rw [show outcome = _ from hdispatch]
      exact ⟨h, hs, fun hnext => by cases hnext⟩
    | some handler =>
      simp only [hfind] at hdispatch
      rw [show outcome = _ from hdispatch]
      have heffect := execute_effect setup (splitVerb line).1 (splitVerb line).2 s handler
      exact ⟨h.of_effect heffect, message_of_effect hs heffect⟩
  obtain ⟨hordered, hmessage, hcaptures⟩ := houtcome
  refine ⟨⟨hordered, ?_, fun hne => absurd hmessage hne, ?_⟩, hmessage⟩
  · intro overflowed hmode
    apply hcaptures
    cases hnext : outcome.next with
    | captureData => rfl
    | proceed | quit =>
      rw [hnext] at hmode
      cases hmode
  · rw [hmessage]
    exact Nat.zero_le _

/-- A line keeps the receiver coherent, also where its reply cannot be sent, and says in which
encoding the next line is to be read. -/
theorem Coherent.line (h : r.Coherent setup.maxSize) (he : e = encodingFor r.session.utf8)
    (raw : Bytes) (answer : SaveAnswer) :
    let out := r.line chain setup e raw answer
    out.1.Coherent setup.maxSize ∧
      (out.2.reply.isSome → Coherent setup.maxSize { out.1 with mode := .commands }) ∧
      out.2.encoding = encodingFor out.1.session.utf8 := by
  obtain ⟨s, mode⟩ := r
  have hcommands : ∀ {s' : Session}, s'.Ordered → s'.message = [] →
      (⟨s', .commands⟩ : Receiver).Coherent setup.maxSize := coherent_commands
  cases mode with
  | data overflowed =>
    by_cases hdot : raw = terminator
    · simp only [Receiver.line, if_pos hdot]
      have hfresh := hcommands (Session.ordered_reset s.helo) rfl
      refine ⟨hfresh, fun _ => hfresh, ?_⟩
      unfold complete
      split
      · rfl
      · split <;> rfl
    · simp only [Receiver.line, if_neg hdot]
      refine ⟨h.capture rfl raw, fun hreply => (by cases hreply), ?_⟩
      rw [he, utf8_capture]
  | commands =>
    have hempty : s.message = [] := h.message_eq_nil nofun
    by_cases hlong : maxCommandLine < raw.length
    · simp only [Receiver.line, if_pos hlong]
      exact ⟨h, fun _ => h, he⟩
    · simp only [Receiver.line, if_neg hlong, Receiver.command]
      split
      · exact ⟨h, fun _ => h, he⟩
      · obtain ⟨hnext, hmessage⟩ := dispatch_coherent chain h.ordered hempty (e.decode raw)
        exact ⟨hnext, fun _ => hcommands hnext.ordered hmessage, rfl⟩

theorem encodingFor_eq_utf8_iff (utf8 : Bool) : encodingFor utf8 = .utf8 ↔ utf8 = true := by
  cases utf8 <;> decide

end Receiver

namespace Service

variable {ω : Type}

/-- The receiver is coherent, and its connection reads text as the session has asked for. -/
structure Coherent (maxSize : Nat) (s : Channel × Service ω) : Prop where
  receiver : s.2.1.Coherent maxSize
  encoding : s.1.connection.encoding = encodingFor s.2.1.session.utf8

/-- A reply is in the encoding of its response; if it cannot be sent, nothing changes but the
mode. -/
theorem deliver_cases (channel : Channel) (v : Service ω) (response : Response) :
    let out := deliver channel v response
    out.1.connection.encoding = response.encoding ∧
      (out.2.1 = v ∨ response.reply.isSome ∧ out.2.1 = ({ v.1 with mode := .commands }, v.2)) := by
  simp only [deliver]
  cases response.reply with
  | none => exact ⟨rfl, .inl rfl⟩
  | some reply =>
    have hkeeps := (channel.setEncoding response.encoding).encoding_sendText reply.format
    obtain ⟨sent, result, hsent⟩ : ∃ sent result,
      (channel.setEncoding response.encoding).sendText reply.format = (sent, result) := ⟨_, _, rfl⟩
    rw [hsent] at hkeeps
    simp only [hsent]
    cases result with
    | ok u => exact ⟨hkeeps, .inl rfl⟩
    | error f => exact ⟨hkeeps, .inr ⟨rfl, rfl⟩⟩

theorem coherent_deliver {maxSize : Nat} (channel : Channel) {v : Service ω} {response : Response}
    (hv : v.1.Coherent maxSize)
    (hreply : response.reply.isSome → Receiver.Coherent maxSize { v.1 with mode := .commands })
    (hencoding : response.encoding = encodingFor v.1.session.utf8) :
    let out := deliver channel v response
    Coherent maxSize (out.1, out.2.1) := by
  obtain ⟨hsent, hout⟩ := deliver_cases channel v response
  dsimp only at hsent hout ⊢
  rcases hout with hsame | ⟨hsome, hstopped⟩
  · rw [hsame]
    exact ⟨hv, hsent.trans hencoding⟩
  · rw [hstopped]
    exact ⟨hreply hsome, hsent.trans hencoding⟩

variable (chain : CommandChain) (setup : Setup) (keep : Keep ω)

/-- One happening: a line is answered by some response, and nothing else touches the encoding. -/
theorem Coherent.happen {s : Channel × Service ω} (h : Coherent setup.maxSize s) (k : Happening) :
    Coherent setup.maxSize ((protocol chain setup keep).happen s k) := by
  obtain ⟨channel, v⟩ := s
  cases k with
  | line raw =>
    obtain ⟨hreceiver, hreply, hencoding⟩ := h.receiver.line chain channel.connection.encoding
      h.encoding raw (v.ask keep raw).1
    exact coherent_deliver channel hreceiver hreply hencoding
  | touched => exact ⟨h.receiver, h.encoding⟩
  | closed announce =>
    exact ⟨h.receiver, (Channel.encoding_close channel announce).trans h.encoding⟩
  | clock now => exact ⟨h.receiver, h.encoding⟩

theorem Coherent.happenAll {s : Channel × Service ω} (h : Coherent setup.maxSize s)
    (hs : List Happening) : Coherent setup.maxSize ((protocol chain setup keep).happenAll s hs) :=
  (protocol chain setup keep).happenAll_invariant (fun _ k _ hk => hk.happen chain setup keep k) h

/-- A connection on which nothing has been said yet, whether or not the greeting could be sent. -/
theorem coherent_opened {maxSize : Nat} {channel : Channel}
    (hencoding : channel.connection.encoding = .latin1) (desk : Desk ω) :
    Coherent maxSize ((protocol chain setup keep).opened channel ({}, desk)) :=
  ⟨Receiver.coherent_fresh, (Channel.encoding_sendText _ _).trans hencoding⟩

/-- The invariant of mail sessions. Whatever commands there are, whatever the store answers and the
far side refuses, and whatever lines have come: recipients belong to a sender and are not too many;
a message is taken only for a complete envelope; what is kept of it is going to be saved and is not
too large; and text is read as UTF-8 just where the sender of the transaction has asked for it. -/
theorem session_invariant (refuses : Bytes → Bytes → Option String) (id : Nat)
    (peer : Option SocketAddress) (now : Nat) (desk : Desk ω) (hs : List Happening) :
    let p := protocol chain setup keep
    let s := p.happenAll (p.opened { connection := { id, peer }, refuses, now } ({}, desk)) hs
    let session := s.2.1.session
    let mode := s.2.1.mode
    (session.recipients ≠ [] → session.sender.isSome) ∧
      session.recipients.length ≤ maxRecipients ∧
      (∀ overflowed, mode = .data overflowed →
        session.sender.isSome ∧ session.recipients ≠ []) ∧
      (session.message ≠ [] → mode = .data false) ∧
      session.message.length ≤ setup.maxSize ∧
      (mode = .data true → session.message = []) ∧
      (session.utf8 = true → session.sender.isSome) ∧
      (s.1.connection.encoding = .utf8 ↔ session.utf8 = true) := by
  intro p s session mode
  have h : Coherent setup.maxSize s :=
    (coherent_opened chain setup keep rfl desk).happenAll chain setup keep hs
  refine ⟨h.receiver.ordered.sender, h.receiver.ordered.room, h.receiver.capturing,
    h.receiver.kept, h.receiver.size, ?_, h.receiver.ordered.utf8, ?_⟩
  · intro hover
    apply h.receiver.message_eq_nil
    rw [show s.2.1.mode = .data true from hover]
    nofun
  · rw [h.encoding]
    exact encodingFor_eq_utf8_iff session.utf8

end Service

end Smtp

end Letterbox
