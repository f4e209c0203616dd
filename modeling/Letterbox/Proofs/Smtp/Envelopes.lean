import Letterbox.Proofs.Smtp.CommandLines
import Letterbox.Proofs.Smtp.Reception
import Mathlib.Data.List.Forall2

/-!
# Envelopes that are handed on

An address that a session took is written between angle brackets again when its message is handed
on. The line goes out in UTF-8, and the next server reads it as Latin-1, up to the first closing
bracket, unless it is too long. So an address of ASCII characters without such a bracket comes back
as it was; others need not.
-/

namespace Letterbox.Smtp

set_option autoImplicit false

open Lines Receiver Sending

namespace Exchange

theorem expected_addressing {e : Envelope} {x : Exchange} (hx : x ∈ addressing e) :
    x.expected = 250 := by
  rcases List.mem_cons.mp hx with rfl | hx
  · rfl
  · obtain ⟨a, -, rfl⟩ := List.mem_map.mp hx
    rfl

theorem wire_addressing {e : Envelope} (h : ∀ l ∈ addressLines e, Plain l) :
    (addressing e).flatMap wire =
      ((addressLines e).map Encoding.latin1.encode).flatMap (· ++ [cr, lf]) := by
  rw [List.flatMap_def, map_wire_addressing, List.flatMap_map, List.flatMap_def]
  congr 1
  exact List.map_congr_left fun l hl => by rw [(h l hl).encode_utf8]

end Exchange

theorem unbroken_latin1 {ls : List String} (h : ∀ l ∈ ls, Plain l) :
    ∀ l ∈ ls.map Encoding.latin1.encode, Unbroken l :=
  List.forall_mem_map.mpr fun l hl => ⟨(h l hl).cr_not_mem, (h l hl).lf_not_mem⟩

/-! ## Hearing an envelope -/

def okLine : Bytes := Encoding.latin1.encode "250 OK\r"

theorem ended_okLine : ended [okLine] = Encoding.latin1.encode Reply.ok.format := by decide

theorem grants_okLine {x : Exchange} (hx : x.expected = 250) : Grants x [okLine] :=
  grants_row (by decide) (by decide) (hx ▸ by decide) (by decide)

section Talk
variable {ω : Type} {setup : Setup} {keep : Keep ω} {k : Talk ω} {s : Session} {desk : Desk ω}

theorem Answers.append {ls ls' : List Bytes} {reply reply' : Bytes} {k₁ k' : Talk ω} {flow : Flow}
    (h : Answers setup keep k ls reply k₁ .proceed)
    (h' : Answers setup keep k₁ ls' reply' k' flow) :
    Answers setup keep k (ls ++ ls') (reply ++ reply') k' flow := by
  obtain ⟨hstate, hflow, hwire⟩ := h
  obtain ⟨hstate', hflow', hwire'⟩ := h'
  rw [Answers, handover_append_of_proceed _ _ hflow, hstate]
  refine ⟨hstate', hflow', ?_⟩
  rw [hwire', hwire, List.append_assoc]

theorem answers_nil : Answers setup keep k [] [] k .proceed :=
  ⟨rfl, rfl, (List.append_nil _).symm⟩

variable (keep)

/-- A command that is granted. -/
theorem answers_ok {text : String} {s' : Session} (hk : k.Stands ⟨s, .commands⟩ desk)
    (htext : Plain text) (hlen : text.length ≤ maxCommandLine)
    (hblank : Text.blankText text = false)
    (houtcome : (CommandChain.standard.dispatch setup text s).outcome =
      { reply := .ok, session := s' }) (hutf8 : s'.utf8 = false) :
    ∃ k', Answers setup keep k [Encoding.latin1.encode text] (ended [okLine]) k' .proceed ∧
      k'.Stands ⟨s', .commands⟩ desk := by
  rw [ended_okLine]
  exact answers_command keep hk htext hlen hblank houtcome hutf8

variable (setup)

theorem answers_recipients (rs : List String) (hk : k.Stands ⟨s, .commands⟩ desk)
    (hsome : s.sender.isSome) (hutf8 : s.utf8 = false)
    (hrs : ∀ a ∈ rs, Addressable a ∧ a ≠ "" ∧ ("RCPT TO:<" ++ a ++ ">").length ≤ maxCommandLine)
    (hroom : s.recipients.length + rs.length ≤ maxRecipients) :
    ∃ k', Answers setup keep k
        ((rs.map fun a => "RCPT TO:<" ++ a ++ ">").map Encoding.latin1.encode)
        (ended (rs.map fun _ => okLine)) k' .proceed ∧
      k'.Stands ⟨{ s with recipients := s.recipients ++ rs }, .commands⟩ desk := by
  induction rs generalizing k s with
  | nil =>
    rw [List.append_nil]
    exact ⟨k, answers_nil, hk⟩
  | cons a rs ih =>
    obtain ⟨haddress, hne, hlen⟩ := hrs a List.mem_cons_self
    rw [List.length_cons] at hroom
    have hplain : Plain ("RCPT TO:<" ++ a ++ ">") := plain_bracketed (by decide) haddress.plain
    have hblank : Text.blankText ("RCPT TO:<" ++ a ++ ">") = false :=
      Text.blankText_of_mem (c := 'R') (by simp) (by decide)
    obtain ⟨k₁, hanswers₁, hstands₁⟩ := answers_ok keep hk hplain hlen hblank
      (outcome_recipient setup s haddress hne hsome (by omega)) hutf8
    have hlength : (s.recipients ++ [a]).length + rs.length ≤ maxRecipients := by
      rw [List.length_append, List.length_singleton]
      omega
    obtain ⟨k', hanswers, hstands⟩ := ih hstands₁ hsome hutf8
      (fun b hb => hrs b (List.mem_cons_of_mem a hb)) hlength
    have hall := hanswers₁.append hanswers
    rw [← ended_append] at hall
    refine ⟨k', hall, ?_⟩
    rwa [List.append_assoc] at hstands

/-- An envelope whose lines are heard as they were said. -/
structure Audible (e : Envelope) : Prop where
  sender : Addressable e.sender
  recipients : ∀ a ∈ e.recipients, Addressable a ∧ a ≠ ""
  room : e.recipients.length ≤ maxRecipients
  fits : ∀ l ∈ Exchange.addressLines e, l.length ≤ maxCommandLine

omit setup keep in
theorem Audible.plain {e : Envelope} (h : Audible e) :
    ∀ l ∈ Exchange.addressLines e, Plain l := by
  intro l hl
  rcases List.mem_cons.mp hl with rfl | hl
  · exact plain_bracketed (by decide) h.sender.plain
  · obtain ⟨a, ha, rfl⟩ := List.mem_map.mp hl
    exact plain_bracketed (by decide) (h.recipients a ha).1.plain

theorem answers_envelope {e : Envelope} (h : Audible e) (hk : k.Stands ⟨s, .commands⟩ desk)
    (hnone : s.sender = none) (hempty : s.recipients = []) :
    ∃ k', Answers setup keep k ((Exchange.addressLines e).map Encoding.latin1.encode)
        (ended ((Exchange.addressing e).map fun _ => okLine)) k' .proceed ∧
      k'.Stands ⟨{ s with sender := some e.sender, recipients := e.recipients, utf8 := false },
        .commands⟩ desk := by
  have hblank : Text.blankText ("MAIL FROM:<" ++ e.sender ++ ">") = false :=
    Text.blankText_of_mem (c := 'M') (by simp) (by decide)
  obtain ⟨k₁, hanswers₁, hstands₁⟩ := answers_ok keep hk (h.plain _ List.mem_cons_self)
    (h.fits _ List.mem_cons_self) hblank (outcome_sender setup s h.sender hnone) rfl
  have hrecipients : ∀ a ∈ e.recipients,
      Addressable a ∧ a ≠ "" ∧ ("RCPT TO:<" ++ a ++ ">").length ≤ maxCommandLine := by
    intro a ha
    obtain ⟨haddress, hne⟩ := h.recipients a ha
    exact ⟨haddress, hne, h.fits _ (List.mem_cons_of_mem _ (List.mem_map_of_mem ha))⟩
  have hroom : s.recipients.length + e.recipients.length ≤ maxRecipients := by
    simpa [hempty] using h.room
  obtain ⟨k', hanswers, hstands⟩ :=
    answers_recipients setup keep e.recipients hstands₁ rfl rfl hrecipients hroom
  refine ⟨k', ?_, ?_⟩
  · have hall := hanswers₁.append hanswers
    rw [← ended_append] at hall
    simpa only [Exchange.addressLines, Exchange.addressing, List.map_cons, List.map_map,
      Function.comp_def, List.singleton_append] using hall
  · rwa [hempty, List.nil_append] at hstands

end Talk

/-! ## Handing an envelope on -/

section Session
variable {ω : Type} {setup : Setup} {keep : Keep ω} {s : LineSession (Service ω)}

/-- A session that may hear of a new envelope, over a channel that takes all replies. -/
structure Unaddressed (s : LineSession (Service ω)) : Prop where
  pending : s.pending = []
  mode : s.state.1.mode = .commands
  sender : s.state.1.session.sender = none
  recipients : s.state.1.session.recipients = []
  encoding : s.channel.connection.encoding = .latin1
  takesAll : s.channel.TakesAll

def talkFrom (s : LineSession (Service ω)) : Talk ω := { service := s.state }

/-- What lines lead to in a talk, they lead to in a session, in whatever pieces they come. -/
theorem feedAll_answers (hpending : s.pending = [])
    (hencoding : s.channel.connection.encoding = .latin1) (htakes : s.channel.TakesAll)
    {ls : List Bytes} (hls : ∀ l ∈ ls, Unbroken l)
    {pieces : List Bytes} (hpieces : pieces.flatten = ls.flatMap (· ++ [cr, lf])) {reply : Bytes}
    {k' : Talk ω} {flow : Flow} (h : Answers setup keep (talkFrom s) ls reply k' flow) :
    let out := LineSession.feedAll (Service.protocol .standard setup keep) s pieces
    out.2 = flow ∧ out.1.state = k'.service ∧ out.1.channel.sent = s.channel.sent ++ reply := by
  have hcarries : Carries s.channel.sent (s.channel, s.state) (talkFrom s) :=
    ⟨htakes, hencoding, (List.append_nil _).symm, rfl⟩
  have hclear : lf ∉ s.pending := by simp [hpending]
  obtain ⟨hstate, hflow, -⟩ := LineSession.feedAll_eq_handover
    (Service.protocol .standard setup keep) hclear pieces
  rw [hpending, hpieces, List.nil_append, (lines_rows hls).1] at hstate hflow
  obtain ⟨hcarried, -, hsame⟩ := hcarries.handover .standard setup keep ls
  obtain ⟨rfl, hanswered, hwire⟩ := h
  rw [← hstate] at hcarried
  refine ⟨hflow.trans (hsame.trans hanswered), hcarried.service, hcarried.sent.trans ?_⟩
  exact congrArg (s.channel.sent ++ ·) hwire

end Session

/-- A rule without addresses of its own hands a message on with the envelope that it came with. -/
theorem envelope_of_errand {r : Rule} {m : ReceivedMessage} {host : RelayHost} {e : Envelope}
    {policy : RetryPolicy} (h : r.errand? m = some (.relay host e policy))
    (hown : ownAddresses r = []) : e = ⟨m.sender, m.recipients⟩ := by
  obtain ⟨id, enabled, action⟩ := r
  cases action with
  | relay | conditionalRelay =>
    cases h
    rfl
  | forward => cases hown
  | invokeProcess | mailRetention => cases h

theorem Neat.addressable {address : String} (h : Neat address)
    (hascii : ∀ c ∈ address.toList, c.toNat < 128 ∧ c ≠ '>') : Addressable address := by
  refine ⟨?_, fun hmem => (hascii '>' hmem).2 rfl, h.trimmed⟩
  intro c hc
  refine ⟨(hascii c hc).1, ?_, ?_⟩
  · rintro rfl
    exact h.noReturn hc
  · rintro rfl
    exact h.noLineFeed hc

theorem Addressable.ascii {address : String} (h : Addressable address) :
    ∀ c ∈ address.toList, c.toNat < 128 ∧ c ≠ '>' := by
  intro c hc
  refine ⟨(h.plain c hc).1, ?_⟩
  rintro rfl
  exact h.unbracketed hc

theorem Proper.audible {m : ReceivedMessage} (h : Proper m)
    (hascii : ∀ a ∈ m.sender :: m.recipients, ∀ c ∈ a.toList, c.toNat < 128 ∧ c ≠ '>')
    (hfits : ∀ l ∈ Exchange.addressLines ⟨m.sender, m.recipients⟩, l.length ≤ maxCommandLine) :
    Audible ⟨m.sender, m.recipients⟩ := by
  refine ⟨h.sender.addressable (hascii _ List.mem_cons_self), ?_, h.room, hfits⟩
  intro a ha
  obtain ⟨hneat, hne⟩ := h.recipients a ha
  exact ⟨hneat.addressable (hascii a (List.mem_cons_of_mem _ ha)), hne⟩

/-- An envelope that a session took comes back as it was when its message is handed on, in whatever
pieces the lines arrive: every line is granted, and in the end the server that hears them has the
same sender and the same recipients. -/
theorem envelope_returns {r : Rule} {m : ReceivedMessage} {host : RelayHost} {e : Envelope}
    {policy : RetryPolicy} (herrand : r.errand? m = some (.relay host e policy))
    (hown : ownAddresses r = []) (hannounced : Announced m)
    (hascii : ∀ a ∈ m.sender :: m.recipients, ∀ c ∈ a.toList, c.toNat < 128 ∧ c ≠ '>')
    (hfits : ∀ l ∈ Exchange.addressLines ⟨m.sender, m.recipients⟩, l.length ≤ maxCommandLine)
    {ω : Type} (setup : Setup) (keep : Keep ω) {s : LineSession (Service ω)} (hs : Unaddressed s)
    {pieces : List Bytes}
    (hpieces : pieces.flatten = (Exchange.addressing e).flatMap Exchange.wire) :
    let heard := LineSession.feedAll (Service.protocol .standard setup keep) s pieces
    heard.2 = .proceed ∧
      heard.1.state = (⟨{ s.state.1.session with
          sender := some m.sender, recipients := m.recipients, utf8 := false }, .commands⟩,
        s.state.2) ∧
      ∃ replies, List.Forall₂ Grants (Exchange.addressing e) replies ∧
        heard.1.channel.sent = s.channel.sent ++ ended replies.flatten := by
  have henvelope := envelope_of_errand herrand hown
  have haudible : Audible e := henvelope ▸ hannounced.proper.audible hascii hfits
  have hstands : (talkFrom s).Stands ⟨s.state.1.session, .commands⟩ s.state.2 :=
    ⟨rfl, Prod.ext (congrArg (Receiver.mk s.state.1.session) hs.mode) rfl⟩
  obtain ⟨k', hanswers, hstands'⟩ :=
    answers_envelope setup keep haudible hstands hs.sender hs.recipients
  rw [Exchange.wire_addressing haudible.plain] at hpieces
  obtain ⟨hflow, hstate, hsent⟩ := feedAll_answers hs.pending hs.encoding hs.takesAll
    (unbroken_latin1 haudible.plain) hpieces hanswers
  rw [hstands'.service, henvelope] at hstate
  refine ⟨hflow, hstate, (Exchange.addressing e).map fun _ => [okLine], ?_, ?_⟩
  · rw [List.forall₂_map_right_iff, List.forall₂_same]
    exact fun x hx => grants_okLine (Exchange.expected_addressing hx)
  · rw [hsent, ← List.flatMap_def, ← List.map_eq_flatMap]

/-! ## Addresses that do not return -/

section Talk
variable {ω : Type} (setup : Setup) (keep : Keep ω) {k : Talk ω} {s : Session} {desk : Desk ω}

/-- A line that is too long changes nothing. -/
theorem answers_tooLong {raw : Bytes} (hk : k.Stands ⟨s, .commands⟩ desk)
    (hlong : maxCommandLine < raw.length) :
    ∃ k', Answers setup keep k [raw] (Encoding.latin1.encode Reply.lineTooLong.format) k' .proceed ∧
      k'.Stands ⟨s, .commands⟩ desk := by
  have hline : Receiver.line .standard setup .latin1 ⟨s, .commands⟩ raw (.error (.storage "")) =
      (⟨s, .commands⟩, { reply := some .lineTooLong, encoding := .latin1 }) := by
    simp only [Receiver.line, if_pos hlong]
  obtain ⟨k', hhear, hwire, hstands⟩ := hear_of_line keep hk rfl hline rfl
  refine ⟨k', answers_single keep hhear hwire, ?_⟩
  rwa [Option.toList_none, List.append_nil] at hstands

end Talk

structure Bare (address : String) : Prop where
  plain : Plain address
  unblank : ∀ c ∈ address.toList, Text.isBlank c = false
  nonempty : address.toList ≠ []
  unopened : address.toList.head? ≠ some '<'

theorem parsePath?_bare {address : String} (h : Bare address) :
    parsePath? address.toList = some (address.toList, []) := by
  have htrim := Text.trimChars_of_not_isBlank h.unblank
  have htake : address.toList.takeWhile (!Text.isBlank ·) = address.toList :=
    List.takeWhile_eq_self_iff.mpr fun c hc => by simp [h.unblank c hc]
  have hdrop : address.toList.dropWhile (!Text.isBlank ·) = [] :=
    List.dropWhile_eq_nil_iff.mpr fun c hc => by simp [h.unblank c hc]
  have hnonempty := h.nonempty
  have hunopened := h.unopened
  rw [parsePath?, htrim]
  generalize address.toList = cs at *
  split
  · exact absurd rfl hunopened
  · exact absurd rfl hnonempty
  · rw [htake, hdrop]
    rfl

theorem outcome_sender_bare (setup : Setup) {s : Session} {address : String} (h : Bare address)
    (hnone : s.sender = none) :
    (CommandChain.standard.dispatch setup ("MAIL FROM:" ++ address) s).outcome =
      { reply := .ok, session := { s with sender := some address, utf8 := false } } := by
  have hline : "MAIL FROM:" ++ address = String.ofList
      ('M' :: ['A', 'I', 'L'] ++ ' ' :: ("FROM:".toList ++ address.toList)) := by
    apply String.toList_injective
    simp only [String.toList_append, String.toList_ofList]
    rfl
  have hsplit : splitVerb ("MAIL FROM:" ++ address) =
      ("MAIL", String.ofList ("FROM:".toList ++ address.toList)) := by
    have hunblank : ∀ c ∈ "FROM:".toList ++ address.toList, Text.isBlank c = false :=
      List.forall_mem_append.mpr ⟨Text.not_isBlank_of_all (by decide), h.unblank⟩
    rw [hline, splitVerb_append (by decide) (by decide), Text.trimChars_of_not_isBlank hunblank]
  have hskip : Text.skipBlanks address.toList = address.toList := by
    obtain ⟨c, cs, hcs⟩ := List.exists_cons_of_ne_nil h.nonempty
    have hc : Text.isBlank c = false := h.unblank c (hcs ▸ List.mem_cons_self)
    rw [hcs, Text.skipBlanks_cons hc]
  have hnot : s.hasSender = false := by simp [Session.hasSender, hnone]
  rw [outcome_of_verb .mailFrom hsplit (by decide)]
  simp only [CommandHandler.execute, CommandHandler.ofKind, mailFrom, hnot, Bool.false_eq_true,
    if_false, String.toList_ofList]
  simp only [afterKeyword?_append, hskip, parsePath?_bare h, String.ofList_toList]
  rfl

/-! ### Short messages -/

namespace Short

def setup : Setup := ⟨"sink.test", 100⟩

def fresh : LineSession (Service MemoryStore) :=
  { channel := { connection := { id := 1 } }, state := ({}, { store := {} }) }

def line : Bytes := Encoding.latin1.encode "hi"

def rows (mail rcpt : Bytes) : List Bytes :=
  [mail, rcpt, Encoding.latin1.encode "DATA", line, terminator]

def events (mail rcpt : Bytes) : List Event :=
  (LineSession.run (Service.protocol .standard setup MemoryStore.save) fresh
    [.bytes ((rows mail rcpt).flatMap (· ++ [cr, lf]))]).1.state.2.events

def message (e : Envelope) : ReceivedMessage := ⟨"/store/msg-1.eml", e.sender, e.recipients, 4⟩

theorem announced {e : Envelope} (mail rcpt : Bytes)
    (h : events mail rcpt = [.newMessage (message e)]) : Announced (message e) :=
  ⟨MemoryStore, .standard, setup, MemoryStore.save, {}, fun _ _ => none, 1, none, 0,
    [.bytes ((rows mail rcpt).flatMap (· ++ [cr, lf]))],
    List.mem_of_mem_head? (congrArg List.head? h)⟩

/-- Such a message is announced; when it is handed on, a session that hears of its envelope has this
sender and these recipients. -/
structure Reread (e : Envelope) (sender : Option String) (recipients : List String) : Prop where
  announced : Announced (message e)
  handedOn : ∃ host policy, relayRule.errand? (message e) = some (.relay host e policy)
  session :
    let heard := LineSession.feedAll (Service.protocol .standard setup MemoryStore.save) fresh
      [(Exchange.addressing e).flatMap Exchange.wire]
    (heard.1.state.1.session.sender, heard.1.state.1.session.recipients) = (sender, recipients)

theorem handedOn_message (e : Envelope) :
    ∃ host policy, relayRule.errand? (message e) = some (.relay host e policy) := ⟨_, _, rfl⟩

theorem unaddressed_fresh : Unaddressed fresh :=
  ⟨rfl, rfl, rfl, rfl, rfl, ⟨rfl, fun _ _ => rfl⟩⟩

theorem stands_fresh : (talkFrom fresh).Stands ⟨{}, .commands⟩ { store := {} } := ⟨rfl, rfl⟩

theorem events_of_answers {mail rcpt reply : Bytes} (h : ∀ l ∈ rows mail rcpt, Unbroken l)
    {k' : Talk MemoryStore} {flow : Flow}
    (hanswers : Answers setup MemoryStore.save (talkFrom fresh) (rows mail rcpt) reply k' flow) :
    events mail rcpt = k'.service.2.events := by
  let greeted : Channel :=
    { connection := { id := 1 }
      sent := Encoding.latin1.encode (Reply.greeting setup.hostname).format }
  have hcarries : Carries greeted.sent (greeted, (talkFrom fresh).service) (talkFrom fresh) :=
    ⟨⟨rfl, fun _ _ => rfl⟩, rfl, (List.append_nil _).symm, rfl⟩
  obtain ⟨hstate, -⟩ := receive_carries .standard setup MemoryStore.save
    (s := { fresh with channel := greeted }) hcarries List.not_mem_nil
    [.bytes ((rows mail rcpt).flatMap (· ++ [cr, lf]))]
  have hrun : events mail rcpt =
      (LineSession.receive (Service.protocol .standard setup MemoryStore.save)
        { fresh with channel := greeted }
        [.bytes ((rows mail rcpt).flatMap (· ++ [cr, lf]))]).state.2.events := rfl
  rw [hrun, hstate]
  simp only [Incoming.received, fresh, List.nil_append, List.append_nil, (lines_rows h).1]
  rw [Talk.hearAll, ← hanswers.1]
  rfl

theorem addressable_recipient : Addressable "c@d.com" := ⟨by decide, by decide, by decide⟩

/-- A message from an address without brackets. -/
theorem announced_bare {address : String} (h : Bare address)
    (hfits : ("MAIL FROM:" ++ address).length ≤ maxCommandLine) :
    Announced (message ⟨address, ["c@d.com"]⟩) := by
  have hplain : Plain ("MAIL FROM:" ++ address) := Plain.append (by decide) h.plain
  have hblank : Text.blankText ("MAIL FROM:" ++ address) = false :=
    Text.blankText_of_mem (c := 'M') (by simp) (by decide)
  have hkeep : MemoryStore.save {} (Ledger.captured [line]) =
      (.ok { path := "/store/msg-1.eml", name := "msg-1.eml", size := 4 },
        (MemoryStore.save {} (Ledger.captured [line])).2) := Prod.ext (by decide) rfl
  obtain ⟨k₁, hanswers₁, hstands₁⟩ := answers_ok MemoryStore.save stands_fresh hplain hfits hblank
    (outcome_sender_bare setup h rfl) rfl
  obtain ⟨k₂, hanswers₂, hstands₂⟩ := answers_ok MemoryStore.save hstands₁ (by decide) (by decide)
    (by decide) (outcome_recipient setup _ addressable_recipient (by decide) rfl
      (show 0 < maxRecipients by decide)) rfl
  obtain ⟨k₃, hanswers₃, hstands₃⟩ := answers_command MemoryStore.save hstands₂ (by decide)
    (by decide) (by decide) (outcome_data setup _ rfl (by simp)) rfl
  have hlines : ∀ l ∈ [line], l ≠ terminator := by decide
  obtain ⟨k₄, s₄, hanswers₄, hstands₄, -⟩ :=
    answers_message MemoryStore.save hlines hstands₃ rfl (show _ ≤ setup.maxSize by decide) hkeep
  have hanswers := ((hanswers₁.append hanswers₂).append hanswers₃).append hanswers₄
  refine announced _ _ ((events_of_answers ?_ hanswers).trans ?_)
  · intro l hl
    simp only [rows, List.mem_cons, List.not_mem_nil, or_false] at hl
    rcases hl with rfl | rfl | rfl | rfl | rfl
    · exact ⟨hplain.cr_not_mem, hplain.lf_not_mem⟩
    all_goals exact ⟨by decide, by decide⟩
  · rw [hstands₄.service]
    rfl

/-- An address that fits the command only without brackets. -/
theorem reread_tooLong {address : String} (h : Bare address)
    (hfits : ("MAIL FROM:" ++ address).length ≤ maxCommandLine)
    (hlong : maxCommandLine < ("MAIL FROM:<" ++ address ++ ">").length) :
    Reread ⟨address, ["c@d.com"]⟩ none [] := by
  have hplain : ∀ l ∈ Exchange.addressLines ⟨address, ["c@d.com"]⟩, Plain l :=
    List.forall_mem_cons.mpr ⟨plain_bracketed (by decide) h.plain,
      show ∀ l ∈ ["RCPT TO:<c@d.com>"], Plain l by decide⟩
  have hbad : (CommandChain.standard.dispatch setup "RCPT TO:<c@d.com>" {}).outcome =
      { reply := .badSequence, session := {} } := rfl
  rw [← length_encode_latin1] at hlong
  obtain ⟨k₁, hanswers₁, hstands₁⟩ := answers_tooLong setup MemoryStore.save stands_fresh hlong
  obtain ⟨k₂, hanswers₂, hstands₂⟩ :=
    answers_command MemoryStore.save hstands₁ (by decide) (by decide) (by decide) hbad rfl
  obtain ⟨-, hstate, -⟩ := feedAll_answers (s := fresh) rfl rfl unaddressed_fresh.takesAll
    (unbroken_latin1 hplain) (List.flatten_singleton.trans (Exchange.wire_addressing hplain))
    (hanswers₁.append hanswers₂)
  refine ⟨announced_bare h hfits, handedOn_message _, ?_⟩
  dsimp only
  rw [hstate, hstands₂.service]

/-- An address without brackets comes back from between them. -/
theorem envelope_returns_short :
    Reread ⟨"a@b.com", ["c@d.com"]⟩ (some "a@b.com") ["c@d.com"] := by
  have hannounced : Announced (message ⟨"a@b.com", ["c@d.com"]⟩) :=
    announced_bare ⟨by decide, Text.not_isBlank_of_all (by decide), by decide, by decide⟩
      (by decide)
  have hsender : Addressable "a@b.com" := ⟨by decide, by decide, by decide⟩
  have hascii : ∀ a ∈ ["a@b.com", "c@d.com"], ∀ c ∈ a.toList, c.toNat < 128 ∧ c ≠ '>' :=
    List.forall_mem_cons.mpr
      ⟨hsender.ascii, List.forall_mem_singleton.mpr addressable_recipient.ascii⟩
  obtain ⟨host, policy, herrand⟩ := handedOn_message ⟨"a@b.com", ["c@d.com"]⟩
  obtain ⟨-, hstate, -⟩ := envelope_returns herrand rfl hannounced hascii (by decide) setup
    MemoryStore.save unaddressed_fresh List.flatten_singleton
  refine ⟨hannounced, ⟨host, policy, herrand⟩, ?_⟩
  dsimp only
  rw [hstate]
  rfl

def letters (more : Nat) : String := String.ofList ('a' :: List.replicate more 'a')

theorem bare_letters (more : Nat) : Bare (letters more) := by
  have hcons : (letters more).toList = 'a' :: List.replicate more 'a' := String.toList_ofList
  have hmem : ∀ c ∈ (letters more).toList, c = 'a' := by
    rw [hcons]
    exact List.forall_mem_cons.mpr ⟨rfl, fun _ hc => List.eq_of_mem_replicate hc⟩
  refine ⟨?_, ?_, ?_, ?_⟩
  · intro c hc
    rw [hmem c hc]
    decide
  · intro c hc
    rw [hmem c hc]
    decide
  · rw [hcons]
    exact List.cons_ne_nil _ _
  · rw [hcons, List.head?_cons]
    decide

theorem length_letters (more : Nat) : (letters more).length = more + 1 := by
  rw [letters, String.length_ofList, List.length_cons, List.length_replicate]

/-- Addresses that do not come back as they were: one with a letter of Latin-1, one with a bracket,
and one that fits the command only without brackets. -/
theorem envelope_changed :
    Reread ⟨"é@b.com", ["c@d.com"]⟩ (some "Ã©@b.com") ["c@d.com"] ∧
      Reread ⟨"a@b.com", ["x>y@d.com"]⟩ (some "a@b.com") ["x"] ∧
      Reread ⟨letters 501, ["c@d.com"]⟩ none [] := by
  refine ⟨⟨?_, handedOn_message _, by decide +kernel⟩,
    ⟨?_, handedOn_message _, by decide +kernel⟩, reread_tooLong (bare_letters 501) ?_ ?_⟩
  · exact announced (Encoding.latin1.encode "MAIL FROM:<é@b.com>")
      (Utf8.encode "RCPT TO:<c@d.com>") (by decide +kernel)
  · exact announced (Utf8.encode "MAIL FROM:<a@b.com>") (Utf8.encode "RCPT TO:x>y@d.com")
      (by decide +kernel)
  · rw [String.length_append, length_letters]
    decide
  · rw [String.length_append, String.length_append, length_letters]
    decide

end Short

end Letterbox.Smtp
