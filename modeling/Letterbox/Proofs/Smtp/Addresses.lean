import Letterbox.Proofs.Smtp.Invariant
import Letterbox.Proofs.Smtp.Provenance
import Letterbox.Proofs.Text.Ascii
import Letterbox.Proofs.Text.Cuts

/-!
# Where addresses come from

An address that a session takes is cut out of one of its lines. So it stands on one line itself and
has no blanks at its ends; whether it is an address in any other sense is not looked at. What a
session announces is made of such addresses.
-/

namespace Letterbox

set_option autoImplicit false

namespace Smtp

open Receiver Text

/-- A part of a line without blanks at its ends. -/
structure CutFrom (line address : String) : Prop where
  part : address.toList ⊆ line.toList
  trimmed : trim address = address

theorem afterKeyword?_suffix {keyword : String} {cs rest : List Char}
    (h : afterKeyword? keyword cs = some rest) : rest <:+ cs := by
  simp only [afterKeyword?] at h
  split at h
  · cases h
    exact (List.dropWhile_suffix isBlank).trans (List.drop_suffix _ cs)
  · cases h

/-- An address is trimmed, in brackets and without. -/
theorem parsePath?_cut {cs address parameters : List Char}
    (h : parsePath? cs = some (address, parameters)) :
    address <:+: cs ∧ trimChars address = address := by
  simp only [parsePath?] at h
  split at h
  · rename_i inner hinner
    obtain ⟨⟨before, after⟩, hcut, heq⟩ := Option.map_eq_some_iff.mp h
    cases heq
    obtain ⟨rfl, -⟩ := cutAt_eq_some hcut
    refine ⟨?_, trimChars_trimChars before⟩
    have hbefore : before <:+: '<' :: (before ++ '>' :: after) :=
      (List.prefix_append before _).isInfix.trans (List.suffix_cons '<' _).isInfix
    exact (trimChars_isInfix before).trans (hbefore.trans (hinner ▸ trimChars_isInfix cs))
  · cases h
  · cases h
    refine ⟨?_, trimChars_of_not_isBlank ?_⟩
    · exact (List.takeWhile_prefix _).isInfix.trans (trimChars_isInfix cs)
    · intro c hc
      simpa using List.mem_takeWhile_imp hc

theorem pathAddress?_isInfix {keyword args address : String}
    (h : pathAddress? keyword args = some address) :
    address.toList <:+: args.toList ∧ trim address = address := by
  obtain ⟨⟨cs, parameters⟩, hpath, rfl⟩ := Option.map_eq_some_iff.mp h
  obtain ⟨rest, hrest, hparse⟩ := Option.bind_eq_some_iff.mp hpath
  obtain ⟨hpart, htrim⟩ := parsePath?_cut hparse
  refine ⟨?_, ?_⟩
  · rw [String.toList_ofList]
    exact hpart.trans (afterKeyword?_suffix hrest).isInfix
  · rw [trim, String.toList_ofList, htrim]

theorem splitVerb_isInfix (line : String) : (splitVerb line).2.toList <:+: line.toList := by
  simp only [splitVerb]
  split
  · rename_i verb args hcut
    obtain ⟨hcs, -⟩ := cutAt_eq_some hcut
    have hargs : args <:+ skipBlanks line.toList := by
      rw [hcs, List.append_cons]
      exact List.suffix_append _ args
    rw [String.toList_ofList]
    exact (trimChars_isInfix args).trans
      (hargs.trans (List.dropWhile_suffix isBlank)).isInfix
  · exact List.nil_infix

theorem pathAddress?_cut {keyword line address : String}
    (h : pathAddress? keyword (splitVerb line).2 = some address) : CutFrom line address :=
  have hcut := pathAddress?_isInfix h
  ⟨(hcut.1.trans (splitVerb_isInfix line)).subset, hcut.2⟩

/-- A recipient without an address is refused. -/
theorem rcptTo_of_empty {args : String} (h : pathAddress? "TO:" args = some "") (s : Session) :
    (rcptTo args s).session = s := by
  obtain ⟨⟨cs, parameters⟩, hpath, hempty⟩ := Option.map_eq_some_iff.mp h
  obtain ⟨rest, hrest, hparse⟩ := Option.bind_eq_some_iff.mp hpath
  have hcs : cs = [] := String.ofList_eq_empty_iff.mp hempty
  subst hcs
  simp only [rcptTo]
  split
  · rfl
  · simp only [hrest, hparse]

/-- A line adds to an envelope only what it names, whichever commands there are. -/
theorem dispatch_named (chain : CommandChain) (setup : Setup) (line : String) (s : Session) :
    let outcome := (chain.dispatch setup line s).outcome
    (∀ a ∈ outcome.session.sender,
        a ∈ s.sender ∨ pathAddress? "FROM:" (splitVerb line).2 = some a) ∧
      ∀ a ∈ outcome.session.recipients,
        a ∈ s.recipients ∨ (pathAddress? "TO:" (splitVerb line).2 = some a ∧ a ≠ "") := by
  intro outcome
  have hdispatch : outcome = _ := outcome_dispatch setup s chain line
  cases hfind : chain.find? (·.knows (splitVerb line).1) with
  | none =>
    simp only [hfind] at hdispatch
    rw [hdispatch]
    exact ⟨fun _ ha => .inl ha, fun _ ha => .inl ha⟩
  | some h =>
    simp only [hfind] at hdispatch
    rw [hdispatch]
    have heffect := execute_effect setup (splitVerb line).1 (splitVerb line).2 s h
    generalize hout : h.execute setup (splitVerb line).1 (splitVerb line).2 s = out at heffect ⊢
    generalize hkind : h.kind = kind at heffect
    cases heffect with
    | refused | data | noop | verify | help | quit =>
      exact ⟨fun _ ha => .inl ha, fun _ ha => .inl ha⟩
    | greeted | reset => exact ⟨fun _ ha => (by cases ha), fun _ ha => (by cases ha)⟩
    | sender address utf8 hnone haddress =>
      refine ⟨?_, fun _ ha => .inl ha⟩
      intro a ha
      cases ha
      exact .inr haddress
    | recipient address hsome hroom haddress =>
      refine ⟨fun _ ha => .inl ha, ?_⟩
      intro a ha
      rcases List.mem_append.mp ha with ha | ha
      · exact .inl ha
      · cases List.mem_singleton.mp ha
        refine .inr ⟨haddress, ?_⟩
        -- An empty address would have left the recipients as they were.
        rintro rfl
        simp only [CommandHandler.execute, hkind] at hout
        have hkept := congrArg Session.recipients (rcptTo_of_empty haddress s)
        rw [hout] at hkept
        simp at hkept

/-- What a line adds to an envelope is cut out of it. -/
theorem dispatch_envelope (chain : CommandChain) (setup : Setup) (line : String) (s : Session) :
    let outcome := (chain.dispatch setup line s).outcome
    (∀ a ∈ outcome.session.sender, a ∈ s.sender ∨ CutFrom line a) ∧
      ∀ a ∈ outcome.session.recipients, a ∈ s.recipients ∨ (CutFrom line a ∧ a ≠ "") := by
  intro outcome
  obtain ⟨hsender, hrecipients⟩ := dispatch_named chain setup line s
  exact ⟨fun a ha => (hsender a ha).imp_right pathAddress?_cut,
    fun a ha => (hrecipients a ha).imp_right fun h => ⟨pathAddress?_cut h.1, h.2⟩⟩

/-! ## What a session announces -/

/-- An address as a session takes it. -/
structure Neat (address : String) : Prop where
  noReturn : '\r' ∉ address.toList
  noLineFeed : '\n' ∉ address.toList
  trimmed : trim address = address

theorem neat_empty : Neat "" := ⟨List.not_mem_nil, List.not_mem_nil, rfl⟩

theorem CutFrom.neat {e : Encoding} {raw : Bytes} {address : String}
    (h : CutFrom (e.decode raw) address) (hclean : Lines.cr ∉ raw ∧ Lines.lf ∉ raw) :
    Neat address := by
  refine ⟨?_, ?_, h.trimmed⟩
  · intro hmem
    exact hclean.1 (e.mem_of_mem_decode (by decide) (by decide) (h.part hmem))
  · intro hmem
    exact hclean.2 (e.mem_of_mem_decode (by decide) (by decide) (h.part hmem))

structure Session.Neat (s : Session) : Prop where
  sender : ∀ a ∈ s.sender, Smtp.Neat a
  recipients : ∀ a ∈ s.recipients, Smtp.Neat a ∧ a ≠ ""

theorem Session.neat_reset (helo : Option String) : Session.Neat { helo } :=
  ⟨fun _ ha => (by cases ha), fun _ ha => (by cases ha)⟩

/-- A message with an envelope that is complete and made of addresses as a session takes them. -/
structure Proper (m : ReceivedMessage) : Prop where
  sender : Neat m.sender
  recipients : ∀ a ∈ m.recipients, Neat a ∧ a ≠ ""
  nonempty : m.recipients ≠ []
  room : m.recipients.length ≤ maxRecipients

theorem Session.Neat.announcement {s : Session} (h : s.Neat) (hordered : s.Ordered)
    (hne : s.recipients ≠ []) (entry : StoredMessage) {m : ReceivedMessage}
    (hm : announcement s entry = .newMessage m) : Proper m := by
  cases hm
  refine ⟨?_, h.recipients, hne, hordered.room⟩
  cases hsender : s.sender with
  | none => exact neat_empty
  | some a => exact h.sender a hsender

section Line
variable (chain : CommandChain) (setup : Setup) (e : Encoding) {r : Receiver} {raw : Bytes}
  (answer : SaveAnswer)

theorem event_line {event : Event}
    (h : (r.line chain setup e raw answer).2.event = some event) :
    r.mode = .data false ∧ ∃ entry, event = announcement r.session entry := by
  obtain ⟨s, mode⟩ := r
  cases mode with
  | commands =>
    simp only [Receiver.line, Receiver.command] at h
    split at h
    · cases h
    · split at h <;> cases h
  | data overflowed =>
    simp only [Receiver.line] at h
    split at h
    · cases overflowed with
      | true => cases h
      | false =>
        cases answer with
        | ok entry => exact ⟨rfl, entry, (Option.some.inj h).symm⟩
        | error f => cases h
    · cases h

theorem Session.Neat.line (h : r.session.Neat) (hclean : Lines.cr ∉ raw ∧ Lines.lf ∉ raw) :
    (r.line chain setup e raw answer).1.session.Neat := by
  obtain ⟨s, mode⟩ := r
  cases mode with
  | data overflowed =>
    simp only [Receiver.line]
    split
    · exact neat_reset s.helo
    · obtain ⟨hsender, hrecipients⟩ := capture_envelope setup.maxSize s overflowed raw
      exact ⟨hsender ▸ h.sender, hrecipients ▸ h.recipients⟩
  | commands =>
    simp only [Receiver.line, Receiver.command]
    split
    · exact h
    · split
      · exact h
      · obtain ⟨hsender, hrecipients⟩ := dispatch_envelope chain setup (e.decode raw) s
        refine ⟨?_, ?_⟩
        · intro a ha
          rcases hsender a ha with ha | hcut
          · exact h.sender a ha
          · exact hcut.neat hclean
        · intro a ha
          rcases hrecipients a ha with ha | ⟨hcut, hne⟩
          · exact h.recipients a ha
          · exact ⟨hcut.neat hclean, hne⟩

end Line

namespace Service

variable {ω : Type}

/-- All that is on the way is fit to be announced, and so was all that has been. -/
structure Neat (maxSize : Nat) (s : Channel × Service ω) : Prop where
  coherent : Coherent maxSize s
  session : s.2.1.session.Neat
  announced : ∀ m, .newMessage m ∈ s.2.2.events → Proper m

variable (chain : CommandChain) (setup : Setup) (keep : Keep ω)

/-- Whether or not the reply can be sent, the session and the events are those of the line. -/
theorem handle_line (s : Channel × Service ω) (raw : Bytes) :
    let out := s.2.1.line chain setup s.1.connection.encoding raw (s.2.ask keep raw).1
    let next := ((protocol chain setup keep).handle s raw).1
    next.2.1.session = out.1.session ∧
      next.2.2.events = s.2.2.events ++ out.2.event.toList := by
  obtain ⟨channel, v⟩ := s
  dsimp only
  generalize hout : v.1.line chain setup channel.connection.encoding raw (v.ask keep raw).1 = out
  obtain ⟨-, hcases⟩ := deliver_cases channel
    ((out.1, { store := (v.ask keep raw).2, events := v.2.events ++ out.2.event.toList }) :
      Service ω) out.2
  simp only [LineProtocol.handle, protocol, Service.line, hout]
  dsimp only at hcases
  rcases hcases with hsame | ⟨-, hstopped⟩
  · rw [hsame]
    exact ⟨rfl, rfl⟩
  · rw [hstopped]
    exact ⟨rfl, rfl⟩

theorem Neat.happen {s : Channel × Service ω} (h : Neat setup.maxSize s) {k : Happening}
    (hk : k.Clean) : Neat setup.maxSize ((protocol chain setup keep).happen s k) := by
  have hcoherent := h.coherent.happen chain setup keep k
  cases k with
  | touched | closed | clock => exact ⟨hcoherent, h.session, h.announced⟩
  | line raw =>
    obtain ⟨hsession, hevents⟩ := handle_line chain setup keep s raw
    refine ⟨hcoherent, ?_, ?_⟩
    · simp only [LineProtocol.happen, hsession]
      exact h.session.line chain setup _ _ hk
    · intro m hm
      simp only [LineProtocol.happen, hevents, List.mem_append, Option.mem_toList] at hm
      rcases hm with hm | hm
      · exact h.announced m hm
      · obtain ⟨hmode, entry, hentry⟩ := event_line chain setup _ _ hm
        have hcomplete := h.coherent.receiver.capturing false hmode
        exact h.session.announcement h.coherent.receiver.ordered hcomplete.2 entry hentry.symm

end Service

/-- A mail session announces the message, whatever it is told and in whatever pieces, whatever its
store answers and the far side refuses. -/
def Announced (m : ReceivedMessage) : Prop :=
  ∃ (ω : Type) (chain : CommandChain) (setup : Setup) (keep : Keep ω) (store : ω)
    (refuses : Bytes → Bytes → Option String) (id : Nat) (peer : Option SocketAddress) (now : Nat)
    (input : List Incoming),
    .newMessage m ∈ (LineSession.run (Service.protocol chain setup keep)
      { channel := { connection := { id, peer }, refuses, now }
        state := ({}, { store }) } input).1.state.2.events

theorem Announced.proper {m : ReceivedMessage} (h : Announced m) : Proper m := by
  obtain ⟨ω, chain, setup, keep, store, refuses, id, peer, now, input, hm⟩ := h
  obtain ⟨hs, hclean, hstate⟩ := LineSession.run_happens (Service.protocol chain setup keep)
    { channel := { connection := { id, peer }, refuses, now }, state := ({}, { store }) }
    List.not_mem_nil input
  have hopened : Service.Neat setup.maxSize ((Service.protocol chain setup keep).opened
      { connection := { id, peer }, refuses, now } ({}, { store })) :=
    ⟨Service.coherent_opened chain setup keep rfl _, Session.neat_reset none,
      fun m hm => (by cases hm)⟩
  have hneat := (Service.protocol chain setup keep).happenAll_invariant
    (P := Service.Neat setup.maxSize) (fun _ k hk h => h.happen chain setup keep (hclean k hk))
    hopened
  rw [← hstate] at hneat
  exact hneat.announced m hm

end Smtp

end Letterbox
