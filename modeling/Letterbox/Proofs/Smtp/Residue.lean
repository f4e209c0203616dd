import Letterbox.Proofs.Smtp.Invariant
import Letterbox.Proofs.Smtp.Provenance

/-!
# Nothing is left of a transaction

Once a transaction has ended, a session goes on as one that has just begun would. The name that the
client gave outlives the transaction, but nothing that the session does depends on it. Two sessions
that differ in nothing else are followed side by side; the far sides and the stores are the same in
what they will answer, and need not have the same past.
-/

namespace Letterbox

set_option autoImplicit false

open Lines

/-- The two tell the line engine the same, apart from the words of a failure. -/
def Flow.Alike (f g : Flow) : Prop := (f = .proceed ↔ g = .proceed) ∧ (f = .close ↔ g = .close)

theorem Flow.Alike.refl (f : Flow) : f.Alike f := ⟨Iff.rfl, Iff.rfl⟩

theorem Flow.alike_failed (f g : Failure) : (Flow.failed f).Alike (.failed g) :=
  ⟨⟨nofun, nofun⟩, ⟨nofun, nofun⟩⟩

structure Channel.Alike (c d : Channel) : Prop where
  isOpen : c.connection.isOpen = d.connection.isOpen
  refuses : ∀ more data, c.refuses (c.sent ++ more) data = d.refuses (d.sent ++ more) data

namespace Channel

variable {c d : Channel}

/-- Far sides that take whatever is sent are alike. -/
theorem TakesAll.alike (hc : c.TakesAll) (hd : d.TakesAll) : c.Alike d := by
  refine ⟨hc.isOpen.trans hd.isOpen.symm, ?_⟩
  intro more data
  rw [hc.refuses, hd.refuses]

theorem Alike.setEncoding (h : c.Alike d) (e : Encoding) :
    (c.setEncoding e).Alike (d.setEncoding e) := ⟨h.isOpen, h.refuses⟩

theorem Alike.close (h : c.Alike d) (announce : Bool) :
    (c.close announce).Alike (d.close announce) :=
  ⟨(Connection.isOpen_close _ _).trans (Connection.isOpen_close _ _).symm, h.refuses⟩

/-- What is sent gets through to both far sides or to neither. -/
theorem Alike.send (h : c.Alike d) (data : Bytes) :
    ∃ sent, (c.send data).1.sent = c.sent ++ sent ∧ (d.send data).1.sent = d.sent ++ sent ∧
      (c.send data).1.Alike (d.send data).1 ∧
      (((c.send data).2 = .ok () ∧ (d.send data).2 = .ok ()) ∨
        ∃ f g, (c.send data).2 = .error f ∧ (d.send data).2 = .error g) := by
  have hrefuses : c.refuses c.sent data = d.refuses d.sent data := by
    simpa only [List.append_nil] using h.refuses [] data
  rcases c.send_cases data with ⟨ho, hr, hc⟩ | ⟨text, ho, hr, hc⟩ | ⟨ho, hc⟩
  · rcases d.send_cases data with ⟨-, -, hd⟩ | ⟨text, -, hr', -⟩ | ⟨ho', -⟩
    · rw [hc, hd]
      refine ⟨data, rfl, rfl, ⟨h.isOpen, ?_⟩, .inl ⟨rfl, rfl⟩⟩
      intro more x
      simp only [List.append_assoc]
      exact h.refuses (data ++ more) x
    · rw [← hrefuses, hr] at hr'
      cases hr'
    · rw [← h.isOpen, ho] at ho'
      cases ho'
  · rcases d.send_cases data with ⟨-, hr', -⟩ | ⟨text', -, -, hd⟩ | ⟨ho', -⟩
    · rw [← hrefuses, hr] at hr'
      cases hr'
    · rw [hc, hd]
      exact ⟨[], (List.append_nil _).symm, (List.append_nil _).symm, h.close true,
        .inr ⟨_, _, rfl, rfl⟩⟩
    · rw [← h.isOpen, ho] at ho'
      cases ho'
  · rcases d.send_cases data with ⟨ho', -, -⟩ | ⟨text, ho', -, -⟩ | ⟨-, hd⟩
    · rw [← h.isOpen, ho] at ho'
      cases ho'
    · rw [← h.isOpen, ho] at ho'
      cases ho'
    · rw [hc, hd]
      exact ⟨[], (List.append_nil _).symm, (List.append_nil _).symm, h, .inr ⟨_, _, rfl, rfl⟩⟩

theorem Alike.sendText (h : c.Alike d) (he : c.connection.encoding = d.connection.encoding)
    (s : String) :
    ∃ sent, (c.sendText s).1.sent = c.sent ++ sent ∧ (d.sendText s).1.sent = d.sent ++ sent ∧
      (c.sendText s).1.Alike (d.sendText s).1 ∧
      (((c.sendText s).2 = .ok () ∧ (d.sendText s).2 = .ok ()) ∨
        ∃ f g, (c.sendText s).2 = .error f ∧ (d.sendText s).2 = .error g) := by
  have hsend := h.send (c.connection.encoding.encode s)
  simp only [Channel.sendText, ← he]
  exact hsend

end Channel

namespace Smtp

open Receiver

/-! ## The name of the client -/

def Session.nameless (s : Session) : Session := { s with helo := none }

def Receiver.nameless (r : Receiver) : Receiver := { r with session := r.session.nameless }

def Outcome.nameless (o : Outcome) : Outcome := { o with session := o.session.nameless }

theorem Outcome.of_nameless {o o' : Outcome} (h : o.nameless = o'.nameless) :
    o.reply = o'.reply ∧ o.next = o'.next ∧ o.session.nameless = o'.session.nameless ∧
      o.session.utf8 = o'.session.utf8 := by
  obtain ⟨reply, next, session⟩ := o
  obtain ⟨reply', next', session'⟩ := o'
  simp only [Outcome.nameless, Outcome.mk.injEq] at h
  obtain ⟨rfl, rfl, hsession⟩ := h
  have hutf8 : session.nameless.utf8 = session'.nameless.utf8 := by rw [hsession]
  exact ⟨rfl, rfl, hsession, hutf8⟩

section Command
variable (setup : Setup) (verb args : String) (s : Session)

theorem nameless_mailFrom :
    (mailFrom setup args s).nameless = (mailFrom setup args s.nameless).nameless := by
  have hsender : s.nameless.hasSender = s.hasSender := rfl
  simp only [mailFrom, hsender]
  cases s.hasSender with
  | true => rfl
  | false =>
    simp only [Bool.false_eq_true, if_false]
    cases afterKeyword? "FROM:" args.toList with
    | none => rfl
    | some rest =>
      dsimp only
      cases parsePath? rest with
      | none => rfl
      | some path =>
        dsimp only
        cases readParameters setup.maxSize false (Text.pieces Text.isBlank path.2) with
        | error reply => rfl
        | ok utf8 => rfl

theorem nameless_rcptTo : (rcptTo args s).nameless = (rcptTo args s.nameless).nameless := by
  have hsender : s.nameless.hasSender = s.hasSender := rfl
  have hrecipients : s.nameless.recipients = s.recipients := rfl
  simp only [rcptTo, hsender, hrecipients]
  cases s.hasSender with
  | false => rfl
  | true =>
    simp only [Bool.not_true, Bool.false_eq_true, if_false]
    cases afterKeyword? "TO:" args.toList with
    | none => rfl
    | some rest =>
      dsimp only
      split
      · rfl
      · rfl
      · split <;> rfl

theorem nameless_data : (data s).nameless = (data s.nameless).nameless := by
  have hcomplete : (s.nameless.hasSender && s.nameless.hasRecipients) =
      (s.hasSender && s.hasRecipients) := rfl
  simp only [data, hcomplete]
  split <;> rfl

/-- No command looks at the name. -/
theorem nameless_execute (h : CommandHandler) :
    (h.execute setup verb args s).nameless = (h.execute setup verb args s.nameless).nameless := by
  obtain ⟨kind, verbs⟩ := h
  cases kind with
  | greeting =>
    simp only [CommandHandler.execute, greet]
    split <;> rfl
  | mailFrom => exact nameless_mailFrom setup args s
  | rcptTo => exact nameless_rcptTo args s
  | data => exact nameless_data s
  | reset | noop | verify | help | quit => rfl

theorem nameless_dispatch (chain : CommandChain) (line : String) :
    (chain.dispatch setup line s).outcome.nameless =
      (chain.dispatch setup line s.nameless).outcome.nameless := by
  rw [outcome_dispatch, outcome_dispatch]
  cases chain.find? (·.knows (splitVerb line).1) with
  | none => rfl
  | some h => exact nameless_execute setup _ _ s h

end Command

/-- A receiver without a name gives the same response, and stays the same but for the name. -/
theorem nameless_line (chain : CommandChain) (setup : Setup) (e : Encoding) (r : Receiver)
    (raw : Bytes) (answer : SaveAnswer) :
    (r.line chain setup e raw answer).2 = (r.nameless.line chain setup e raw answer).2 ∧
      (r.line chain setup e raw answer).1.nameless =
        (r.nameless.line chain setup e raw answer).1.nameless := by
  obtain ⟨s, mode⟩ := r
  cases mode with
  | data overflowed =>
    simp only [Receiver.line, Receiver.nameless]
    split
    · exact ⟨rfl, rfl⟩
    · refine ⟨rfl, ?_⟩
      simp only [capture]
      have hmessage : s.nameless.message = s.message := rfl
      rw [hmessage]
      split
      · rfl
      · split <;> rfl
  | commands =>
    simp only [Receiver.line, Receiver.nameless, Receiver.command]
    split
    · exact ⟨rfl, rfl⟩
    · split
      · exact ⟨rfl, rfl⟩
      · obtain ⟨hreply, hnext, hsession, hutf8⟩ :=
          Outcome.of_nameless (nameless_dispatch setup s chain (e.decode raw))
        rw [hreply, hnext, hsession, hutf8]
        exact ⟨rfl, rfl⟩

/-- Nor does a receiver, whatever its lines. -/
theorem line_of_nameless (chain : CommandChain) (setup : Setup) (e : Encoding) {r r' : Receiver}
    (h : r.nameless = r'.nameless) (raw : Bytes) (answer : SaveAnswer) :
    (r.line chain setup e raw answer).2 = (r'.line chain setup e raw answer).2 ∧
      (r.line chain setup e raw answer).1.nameless =
        (r'.line chain setup e raw answer).1.nameless := by
  obtain ⟨hresponse, hnext⟩ := nameless_line chain setup e r raw answer
  obtain ⟨hresponse', hnext'⟩ := nameless_line chain setup e r' raw answer
  rw [hresponse, hresponse', hnext, hnext', h]
  exact ⟨rfl, rfl⟩

/-! ## Stores -/

section Stores
variable {ω ω' : Type}

/-- The store after some more saves. -/
def Keep.after (keep : Keep ω) (store : ω) (saves : List Bytes) : ω :=
  saves.foldl (fun store data => (keep store data).2) store

/-- From here on both stores give the same answers. -/
def Keep.Alike (keep : Keep ω) (keep' : Keep ω') (store : ω) (store' : ω') : Prop :=
  ∀ saves data, (keep (keep.after store saves) data).1 = (keep' (keep'.after store' saves) data).1

theorem Keep.Alike.save {keep : Keep ω} {keep' : Keep ω'} {store : ω} {store' : ω'}
    (h : keep.Alike keep' store store') (data : Bytes) :
    (keep store data).1 = (keep' store' data).1 ∧
      keep.Alike keep' (keep store data).2 (keep' store' data).2 :=
  ⟨h [] data, fun saves => h (data :: saves)⟩

end Stores

/-! ## Two sessions side by side -/

namespace Service

/-- A session with a record of its saves, its channel counted with it. -/
abbrev Recorded (ω : Type) := Channel × Service (ω × List (Bytes × SaveAnswer))

variable {ω ω' : Type} {keep : Keep ω} {keep' : Keep ω'}

/-- Two sessions that differ in the name of the client and in their past only. -/
structure Alike (keep : Keep ω) (keep' : Keep ω') (s : Recorded ω) (s' : Recorded ω') : Prop where
  channel : s.1.Alike s'.1
  encoding : s.1.connection.encoding = s'.1.connection.encoding
  receiver : s.2.1.nameless = s'.2.1.nameless
  store : keep.Alike keep' s.2.2.store.1 s'.2.2.store.1

/-- Since they were as at the beginning, the same was sent, saved and announced in both. -/
structure SameSince (s t : Recorded ω) (s' t' : Recorded ω') : Prop where
  sent : ∃ sent, t.1.sent = s.1.sent ++ sent ∧ t'.1.sent = s'.1.sent ++ sent
  saves : ∃ saves, t.2.2.store.2 = s.2.2.store.2 ++ saves ∧
    t'.2.2.store.2 = s'.2.2.store.2 ++ saves
  events : ∃ events, t.2.2.events = s.2.2.events ++ events ∧
    t'.2.2.events = s'.2.2.events ++ events

theorem SameSince.refl (s : Recorded ω) (s' : Recorded ω') : SameSince s s s' s' :=
  ⟨⟨[], (List.append_nil _).symm, (List.append_nil _).symm⟩,
    ⟨[], (List.append_nil _).symm, (List.append_nil _).symm⟩,
    ⟨[], (List.append_nil _).symm, (List.append_nil _).symm⟩⟩

theorem SameSince.trans {s t u : Recorded ω} {s' t' u' : Recorded ω'} (h : SameSince s t s' t')
    (k : SameSince t u t' u') : SameSince s u s' u' := by
  obtain ⟨⟨sent, hs, hs'⟩, ⟨saves, hv, hv'⟩, ⟨events, he, he'⟩⟩ := h
  obtain ⟨⟨sent₂, ks, ks'⟩, ⟨saves₂, kv, kv'⟩, ⟨events₂, ke, ke'⟩⟩ := k
  refine ⟨⟨sent ++ sent₂, ?_, ?_⟩, ⟨saves ++ saves₂, ?_, ?_⟩, ⟨events ++ events₂, ?_, ?_⟩⟩
  · rw [ks, hs, List.append_assoc]
  · rw [ks', hs', List.append_assoc]
  · rw [kv, hv, List.append_assoc]
  · rw [kv', hv', List.append_assoc]
  · rw [ke, he, List.append_assoc]
  · rw [ke', he', List.append_assoc]

theorem ask_alike {v : Service (ω × List (Bytes × SaveAnswer))}
    {v' : Service (ω' × List (Bytes × SaveAnswer))} (hreceiver : v.1.nameless = v'.1.nameless)
    (hstore : keep.Alike keep' v.2.store.1 v'.2.store.1) (raw : Bytes) :
    (v.ask keep.recording raw).1 = (v'.ask keep'.recording raw).1 ∧
      keep.Alike keep' (v.ask keep.recording raw).2.1 (v'.ask keep'.recording raw).2.1 ∧
      ∃ saves, (v.ask keep.recording raw).2.2 = v.2.store.2 ++ saves ∧
        (v'.ask keep'.recording raw).2.2 = v'.2.store.2 ++ saves := by
  have hsave : v.1.toSave? raw = v'.1.toSave? raw := congrArg (·.toSave? raw) hreceiver
  simp only [ask, hsave]
  cases v'.1.toSave? raw with
  | none => exact ⟨rfl, hstore, [], (List.append_nil _).symm, (List.append_nil _).symm⟩
  | some data =>
    obtain ⟨hanswer, hnext⟩ := hstore.save data
    refine ⟨hanswer, hnext, [(data, (keep v.2.store.1 data).1)], rfl, ?_⟩
    rw [hanswer]
    rfl

theorem deliver_alike {channel channel' : Channel} (h : channel.Alike channel')
    {v : Service (ω × List (Bytes × SaveAnswer))} {w : Service (ω' × List (Bytes × SaveAnswer))}
    (hreceiver : v.1.nameless = w.1.nameless)
    (hstore : keep.Alike keep' v.2.store.1 w.2.store.1) (response : Response) :
    let out := deliver channel v response
    let out' := deliver channel' w response
    Alike keep keep' (out.1, out.2.1) (out'.1, out'.2.1) ∧ out.2.2.Alike out'.2.2 ∧
      (∃ sent, out.1.sent = channel.sent ++ sent ∧ out'.1.sent = channel'.sent ++ sent) ∧
      out.2.1.2 = v.2 ∧ out'.2.1.2 = w.2 := by
  have hset := h.setEncoding response.encoding
  simp only [deliver]
  cases response.reply with
  | none =>
    exact ⟨⟨hset, rfl, hreceiver, hstore⟩, .refl _,
      ⟨[], (List.append_nil _).symm, (List.append_nil _).symm⟩, rfl, rfl⟩
  | some reply =>
    have hsame := hset.sendText rfl reply.format
    have hencoding := (channel.setEncoding response.encoding).encoding_sendText reply.format
    have hencoding' := (channel'.setEncoding response.encoding).encoding_sendText reply.format
    have hstopped : Receiver.nameless { v.1 with mode := .commands } =
        Receiver.nameless { w.1 with mode := .commands } :=
      congrArg (fun r : Receiver => { r with mode := .commands }) hreceiver
    obtain ⟨c, result, hc⟩ : ∃ c result,
      (channel.setEncoding response.encoding).sendText reply.format = (c, result) := ⟨_, _, rfl⟩
    obtain ⟨d, result', hd⟩ : ∃ d result',
      (channel'.setEncoding response.encoding).sendText reply.format = (d, result') := ⟨_, _, rfl⟩
    rw [hc] at hsame hencoding
    rw [hd] at hsame hencoding'
    have hboth : c.connection.encoding = d.connection.encoding := hencoding.trans hencoding'.symm
    simp only [hc, hd]
    obtain ⟨sent, hsent, hsent', halike, ⟨rfl, rfl⟩ | ⟨f, g, rfl, rfl⟩⟩ := hsame
    · exact ⟨⟨halike, hboth, hreceiver, hstore⟩, .refl _, ⟨sent, hsent, hsent'⟩, rfl, rfl⟩
    · exact ⟨⟨halike, hboth, hstopped, hstore⟩, Flow.alike_failed f g, ⟨sent, hsent, hsent'⟩,
        rfl, rfl⟩

/-- One line does the same in both, and leaves them as alike as they were. -/
theorem Alike.line {s : Recorded ω} {s' : Recorded ω'} (h : Alike keep keep' s s')
    (chain : CommandChain) (setup : Setup) (raw : Bytes) :
    let out := (protocol chain setup keep.recording).handle s raw
    let out' := (protocol chain setup keep'.recording).handle s' raw
    Alike keep keep' out.1 out'.1 ∧ SameSince s out.1 s' out'.1 ∧ out.2.Alike out'.2 := by
  obtain ⟨channel, v⟩ := s
  obtain ⟨channel', v'⟩ := s'
  obtain ⟨hchannel, hencoding, hreceiver, hstore⟩ := h
  obtain ⟨hanswer, hnext, saves, hsaves, hsaves'⟩ := ask_alike hreceiver hstore raw
  obtain ⟨hresponse, hafter⟩ := line_of_nameless chain setup channel.connection.encoding hreceiver
    raw (v.ask keep.recording raw).1
  dsimp only at hencoding hanswer hnext hsaves hsaves'
  simp only [LineProtocol.handle, protocol, Service.line, ← hencoding, ← hanswer, ← hresponse]
  generalize v.1.line chain setup channel.connection.encoding raw (v.ask keep.recording raw).1 =
    done at hafter ⊢
  generalize v'.1.line chain setup channel.connection.encoding raw (v.ask keep.recording raw).1 =
    done' at hafter ⊢
  generalize v.ask keep.recording raw = asked at hnext hsaves ⊢
  generalize v'.ask keep'.recording raw = asked' at hnext hsaves' ⊢
  obtain ⟨halike, hflow, ⟨sent, hsent, hsent'⟩, hdesk, hdesk'⟩ := deliver_alike
    (v := (done.1, { store := asked.2, events := v.2.events ++ done.2.event.toList }))
    (w := (done'.1, { store := asked'.2, events := v'.2.events ++ done.2.event.toList }))
    hchannel hafter hnext done.2
  refine ⟨halike, ⟨⟨sent, hsent, hsent'⟩, ⟨saves, ?_, ?_⟩, ⟨done.2.event.toList, ?_, ?_⟩⟩, hflow⟩
  · rw [hdesk]
    exact hsaves
  · rw [hdesk']
    exact hsaves'
  · rw [hdesk]
  · rw [hdesk']

/-- So does whatever else happens to both connections. -/
theorem Alike.happen {s : Recorded ω} {s' : Recorded ω'} (h : Alike keep keep' s s')
    (chain : CommandChain) (setup : Setup) (k : Happening) :
    let next := (protocol chain setup keep.recording).happen s k
    let next' := (protocol chain setup keep'.recording).happen s' k
    Alike keep keep' next next' ∧ SameSince s next s' next' := by
  obtain ⟨hchannel, hencoding, hreceiver, hstore⟩ := id h
  have hsame := SameSince.refl s s'
  cases k with
  | line raw =>
    obtain ⟨hnext, hsince, -⟩ := h.line chain setup raw
    exact ⟨hnext, hsince⟩
  | touched => exact ⟨⟨⟨hchannel.isOpen, hchannel.refuses⟩, hencoding, hreceiver, hstore⟩,
      hsame.sent, hsame.saves, hsame.events⟩
  | clock now => exact ⟨⟨⟨hchannel.isOpen, hchannel.refuses⟩, hencoding, hreceiver, hstore⟩,
      hsame.sent, hsame.saves, hsame.events⟩
  | closed announce =>
    have hboth : (s.1.close announce).connection.encoding =
        (s'.1.close announce).connection.encoding :=
      (Channel.encoding_close _ _).trans (hencoding.trans (Channel.encoding_close _ _).symm)
    exact ⟨⟨hchannel.close announce, hboth, hreceiver, hstore⟩,
      hsame.sent, hsame.saves, hsame.events⟩

theorem Alike.happenAll {s : Recorded ω} {s' : Recorded ω'} (h : Alike keep keep' s s')
    (chain : CommandChain) (setup : Setup) (hs : List Happening) :
    let now := (protocol chain setup keep.recording).happenAll s hs
    let now' := (protocol chain setup keep'.recording).happenAll s' hs
    Alike keep keep' now now' ∧ SameSince s now s' now' := by
  induction hs generalizing s s' with
  | nil => exact ⟨h, .refl s s'⟩
  | cons k hs ih =>
    obtain ⟨hnext, hsince⟩ := h.happen chain setup k
    obtain ⟨hnow, hrest⟩ := ih hnext
    exact ⟨hnow, hsince.trans hrest⟩

/-! ## The end of a transaction -/

def turn (setup : Setup) (keep : Keep ω) (s : Channel × Service ω) (raw : Bytes) : Turn :=
  Talk.turn .standard setup keep { encoding := s.1.connection.encoding, service := s.2 } raw

/-- The line is the end of a message, whatever becomes of the message, or a command that begins a
new transaction. -/
def EndsTransaction (setup : Setup) (keep : Keep ω) (s : Channel × Service ω) (raw : Bytes) :
    Prop :=
  match s.2.1.mode with
  | .data _ => raw = terminator
  | .commands => (turn setup keep s raw).startsOver

theorem startsOver_iff (t : Turn) :
    t.startsOver = true ↔
      (t.kind? = some .reset ∧ t.raw.length ≤ maxCommandLine) ∨
        (t.kind? = some .greeting ∧ t.code? = some 250) := by
  simp only [Turn.startsOver, Bool.or_eq_true, Bool.and_eq_true, decide_eq_true_eq]

theorem startsOver_line (setup : Setup) {r : Receiver} {e : Encoding} {raw : Bytes}
    {answer : SaveAnswer} (hmode : r.mode = .commands)
    (h : Turn.startsOver ⟨raw, e, answer, (r.line .standard setup e raw answer).2⟩) :
    ∃ helo, (r.line .standard setup e raw answer).1 = ⟨{ helo }, .commands⟩ ∧
      (r.line .standard setup e raw answer).2.encoding = .latin1 := by
  obtain ⟨s, mode⟩ := r
  cases hmode
  have hkind : Turn.kind? ⟨raw, e, answer,
      (Receiver.line .standard setup e ⟨s, .commands⟩ raw answer).2⟩ =
        CommandKind.ofVerb? (splitVerb (e.decode raw)).1 := rfl
  rw [startsOver_iff, hkind] at h
  by_cases hlong : maxCommandLine < raw.length
  · rcases h with ⟨-, hshort⟩ | ⟨-, hcode⟩
    · exact absurd hshort (Nat.not_le_of_lt hlong)
    · simp only [Receiver.line, if_pos hlong] at hcode
      cases hcode
  · simp only [Receiver.line, if_neg hlong, Receiver.command] at h ⊢
    split at h
    · rename_i hblank
      rw [ofVerb?_of_blankText hblank] at h
      rcases h with ⟨hkind, -⟩ | ⟨hkind, -⟩ <;> cases hkind
    · rename_i hblank
      rw [if_neg hblank]
      rcases standard_effect setup s (e.decode raw) with ⟨kind, hk, heffect⟩ | ⟨hk, -⟩
      · generalize (CommandChain.standard.dispatch setup (e.decode raw) s).outcome = outcome
          at h heffect ⊢
        rw [hk] at h
        rcases h with ⟨hkind, -⟩ | ⟨hkind, hcode⟩
        · cases hkind
          cases heffect with
          | refused reply hkind => simp at hkind
          | reset => exact ⟨s.helo, rfl, rfl⟩
        · cases hkind
          cases heffect with
          | refused reply hkind hrefused =>
            have h250 : reply.code = 250 := Option.some.inj hcode
            simp [Reply.isPositive, h250] at hrefused
          | greeted domain reply => exact ⟨some domain, rfl, rfl⟩
      · rw [hk] at h
        rcases h with ⟨hkind, -⟩ | ⟨hkind, -⟩ <;> cases hkind

/-- Only the name is left of a session. -/
theorem line_of_endsTransaction (setup : Setup) {keep : Keep ω} {s : Channel × Service ω}
    {raw : Bytes} (h : EndsTransaction setup keep s raw) :
    let next := ((protocol .standard setup keep).handle s raw).1
    next.2.1.nameless = {} ∧ next.1.connection.encoding = .latin1 := by
  obtain ⟨channel, r, desk⟩ := s
  have hleft : ∃ helo response,
      r.line .standard setup channel.connection.encoding raw
        (ask keep (r, desk) raw).1 = (⟨{ helo }, .commands⟩, response) ∧
      response.encoding = .latin1 := by
    cases hmode : r.mode with
    | data overflowed =>
      simp only [EndsTransaction, hmode] at h
      simp only [Receiver.line, hmode, if_pos h, Session.reset]
      refine ⟨_, _, rfl, ?_⟩
      simp only [complete]
      split
      · rfl
      · split <;> rfl
    | commands =>
      simp only [EndsTransaction, hmode] at h
      obtain ⟨helo, hnext, hencoding⟩ := startsOver_line setup hmode h
      exact ⟨helo, _, Prod.ext hnext rfl, hencoding⟩
  obtain ⟨helo, response, hline, hencoding⟩ := hleft
  simp only [LineProtocol.handle, protocol, Service.line, hline]
  obtain ⟨hsent, hout⟩ := deliver_cases channel
    ((⟨{ helo }, .commands⟩,
      { store := (ask keep (r, desk) raw).2, events := desk.events ++ response.event.toList }) :
        Service ω) response
  dsimp only at hsent hout ⊢
  refine ⟨?_, hsent.trans hencoding⟩
  rcases hout with hsame | ⟨-, hstopped⟩
  · rw [hsame]
    rfl
  · rw [hstopped]
    rfl

/-- Once a transaction has ended, all that follows is as in a session that has just begun, on a
connection whose far side and with a store that will answer the same: the same is sent, saved and
announced, and after every line both go on, or are closed, alike. -/
theorem no_residue (setup : Setup) (keep : Keep ω) (keep' : Keep ω') (old : Channel)
    (desk : Desk (ω × List (Bytes × SaveAnswer))) (history : List Happening) (last : Bytes)
    (refuses : Bytes → Bytes → Option String) (id : Nat) (peer : Option SocketAddress) (now : Nat)
    (store : ω') :
    let p := protocol .standard setup keep.recording
    let p' := protocol .standard setup keep'.recording
    let before := p.happenAll (p.opened old ({}, desk)) history
    let s := (p.handle before last).1
    let s' := p'.opened { connection := { id, peer }, refuses, now } ({}, { store := (store, []) })
    EndsTransaction setup keep.recording before last → s.1.Alike s'.1 →
      keep.Alike keep' s.2.2.store.1 store → ∀ hs : List Happening,
        let t := p.happenAll s hs
        let t' := p'.happenAll s' hs
        SameSince s t s' t' ∧ ∀ raw, (p.handle t raw).2.Alike (p'.handle t' raw).2 := by
  intro p p' before s s' hends hchannel hstore hs
  obtain ⟨hname, hencoding⟩ := line_of_endsTransaction setup hends
  have hencoding' : s'.1.connection.encoding = .latin1 :=
    Channel.encoding_sendText { connection := { id, peer }, refuses, now } _
  have halike : Alike keep keep' s s' := ⟨hchannel, hencoding.trans hencoding'.symm, hname, hstore⟩
  obtain ⟨hnow, hsince⟩ := halike.happenAll .standard setup hs
  refine ⟨hsince, ?_⟩
  intro raw
  exact (hnow.line .standard setup raw).2.2

theorem takesAll_handle (setup : Setup) (keep : Keep ω) {s : Channel × Service ω}
    (h : s.1.TakesAll) (raw : Bytes) :
    ((protocol .standard setup keep).handle s raw).1.1.TakesAll := by
  obtain ⟨channel, v⟩ := s
  simp only [LineProtocol.handle, protocol, Service.line]
  obtain ⟨channel', hdeliver, htakes, -⟩ := deliver_of_takesAll h _ _
  rw [hdeliver]
  exact htakes

theorem takesAll_happenAll (setup : Setup) (keep : Keep ω) {s : Channel × Service ω}
    (h : s.1.TakesAll) {hs : List Happening} (hlines : ∀ k ∈ hs, ∃ raw, k = .line raw) :
    ((protocol .standard setup keep).happenAll s hs).1.TakesAll := by
  refine LineProtocol.happenAll_invariant _ (P := fun s => s.1.TakesAll) ?_ h
  intro t k hk ht
  obtain ⟨raw, rfl⟩ := hlines k hk
  exact takesAll_handle setup keep ht raw

def fullStore : Keep Unit := fun store _ => (.error (.storage "no space"), store)

def fullServer : LineProtocol (Service (Unit × List (Bytes × SaveAnswer))) :=
  protocol .standard ⟨"sink", 100⟩ fullStore.recording

def fullServer.newcomer (id : Nat) : Recorded Unit :=
  fullServer.opened { connection := { id } } ({}, { store := ((), []) })

/-- A client of it that has said all of a short message but its last line. -/
def fullServer.waiting : Recorded Unit :=
  fullServer.happenAll (fullServer.newcomer 1)
    (["MAIL FROM:<a>", "RCPT TO:<b>", "DATA", "hi"].map fun text =>
      .line (Encoding.latin1.encode text))

theorem mode_waiting : fullServer.waiting.2.1.mode = .data false := by
  decide +kernel

/-- A message that the store does not take leaves nothing behind. -/
theorem no_residue_full_store :
    EndsTransaction ⟨"sink", 100⟩ fullStore.recording fullServer.waiting terminator ∧
      ∀ hs : List Happening,
        SameSince (fullServer.handle fullServer.waiting terminator).1
          (fullServer.happenAll (fullServer.handle fullServer.waiting terminator).1 hs)
          (fullServer.newcomer 2) (fullServer.happenAll (fullServer.newcomer 2) hs) := by
  have hends : EndsTransaction ⟨"sink", 100⟩ fullStore.recording fullServer.waiting terminator := by
    rw [EndsTransaction, mode_waiting]
  have hfresh : ∀ id, (fullServer.newcomer id).1.TakesAll := fun _ => ⟨rfl, fun _ _ => rfl⟩
  have hwaiting : fullServer.waiting.1.TakesAll := by
    refine takesAll_happenAll _ _ (hfresh 1) ?_
    intro k hk
    obtain ⟨text, -, rfl⟩ := List.mem_map.mp hk
    exact ⟨_, rfl⟩
  have hstore : ∀ store store', fullStore.Alike fullStore store store' := fun _ _ _ _ => rfl
  refine ⟨hends, ?_⟩
  intro hs
  exact (no_residue ⟨"sink", 100⟩ fullStore fullStore { connection := { id := 1 } }
    { store := ((), []) } _ terminator (fun _ _ => none) 2 none 0 () hends
    ((takesAll_handle _ _ hwaiting _).alike (hfresh 2)) (hstore _ _) hs).1

end Service

end Smtp

end Letterbox
