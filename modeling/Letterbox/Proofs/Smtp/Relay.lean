import Letterbox.Proofs.Smtp.Parties
import Letterbox.Proofs.Smtp.Reception
import Letterbox.Proofs.Smtp.Replies

/-!
# Handing mail on to a server of the same kind

One run of the dialogue is followed in which everything said is heard at once: exchange after
exchange the server answers with the code that is waited for, up to the end of the message, where
the answer depends on its size. All runs come to the same.
-/

namespace Letterbox.Smtp

set_option autoImplicit false

open Lines Receiver Dialogue

variable {ω : Type}

structure Call (ω : Type) where
  setup : Setup
  keep : Keep ω
  store : ω
  id : Nat
  peer : Option SocketAddress := none
  now : Nat := 0

namespace Call

def protocol (c : Call ω) : LineProtocol (Service ω) := Service.protocol .standard c.setup c.keep

def server (c : Call ω) : Party (LineSession (Service ω) × Flow) :=
  LineSession.party c.protocol
    { channel := { connection := { id := c.id, peer := c.peer }, now := c.now }
      state := ({}, { store := c.store }) }

def greeting (c : Call ω) : Bytes :=
  Encoding.latin1.encode (Reply.greeting c.setup.hostname).format

/-- The session once that is said. -/
def opened (c : Call ω) : LineSession (Service ω) :=
  { channel :=
      { connection := { id := c.id, peer := c.peer, lastActivity := c.now }
        sent := c.greeting, now := c.now }
    state := ({}, { store := c.store }) }

theorem start_server (c : Call ω) : c.server.start = (c.opened, .proceed) := by
  have hsent : c.greeting = [] ++ c.greeting := (List.nil_append _).symm
  rw [opened, hsent]
  rfl

theorem sent_opened (c : Call ω) : c.opened.channel.sent = c.greeting := by
  simp only [opened]

theorem said_opened (c : Call ω) : c.server.said (c.opened, .proceed) = c.greeting := by
  simp only [server, LineSession.party, sent_opened]

end Call

/-- A state of the dialogue in which the near side has heard all that was said, and the far side all
but `unheard`. -/
structure At (c : Call ω) (script : List Exchange)
    (d : Dialogue Sending (LineSession (Service ω) × Flow)) (k : Talk ω) (flow : Flow)
    (unheard : Bytes) : Prop where
  reached : Reaches (Sending.party script) c.server (fresh (Sending.party script) c.server) d
  sent : d.near.sent = d.heardFar ++ unheard
  far : d.far.2 = flow
  pending : flow = .proceed → d.far.1.pending = []
  carries : Carries c.greeting (d.far.1.channel, d.far.1.state) k
  heard : d.heardNear = d.far.1.channel.sent

variable {c : Call ω} {script : List Exchange}
  {d : Dialogue Sending (LineSession (Service ω) × Flow)} {k k' : Talk ω}

theorem At.atRest {flow : Flow} (h : At c script d k flow []) :
    AtRest (Sending.party script) c.server d := by
  refine ⟨?_, h.heard⟩
  have hsent := h.sent
  rw [List.append_nil] at hsent
  exact hsent.symm

/-- Both sides hear once what the other has said. -/
theorem At.round {flow : Flow} {unheard reply : Bytes} (more : Bytes) {ks : List Bytes}
    (h : At c script d k .proceed unheard) (hne : unheard ≠ [])
    (hunheard : unheard = ks.flatMap (· ++ [cr, lf])) (hks : ∀ l ∈ ks, Unbroken l)
    (hanswers : Answers c.setup c.keep k ks reply k' flow) (hreply : reply ≠ [])
    (hmore : (d.near.feed Sending.never reply).sent = d.near.sent ++ more) :
    ∃ d', At c script d' k' flow more ∧ d'.near = d.near.feed Sending.never reply := by
  obtain ⟨hreached, hsent, hflow, hpending, hcarries, hheard⟩ := h
  obtain ⟨near, ⟨session, flow₀⟩, heardNear, heardFar⟩ := d
  dsimp only at hsent hflow hpending hcarries hheard hmore
  subst hflow
  obtain ⟨hlines, hremainder⟩ := lines_rows hks
  rw [← hunheard] at hlines hremainder
  obtain ⟨hstate, hstop, hrest⟩ := LineSession.feed_eq_handover c.protocol session unheard
  rw [hpending rfl, List.nil_append, hlines] at hstate hstop hrest
  obtain ⟨hcarried, -, hsame⟩ := hcarries.handover .standard c.setup c.keep ks
  obtain ⟨hk', hflow', hwire⟩ := hanswers
  obtain ⟨heard, stop, hfeed⟩ : ∃ heard stop, session.feed c.protocol unheard = (heard, stop) :=
    ⟨_, _, rfl⟩
  rw [hfeed] at hstate hstop hrest
  dsimp only at hstate hstop hrest
  have hcarries' : Carries c.greeting (heard.channel, heard.state) k' := by
    rw [hstate, ← hk']
    exact hcarried
  have hstop' : stop = flow := by
    rw [hstop, ← hflow']
    exact hsame
  have hsaid : heard.channel.sent = heardNear ++ reply := by
    rw [hheard]
    have hold := hcarries.sent
    have hnew := hcarries'.sent
    dsimp only at hold hnew
    rw [hold, hnew, List.append_assoc]
    exact congrArg (c.greeting ++ ·) hwire
  have htoFar : Step (Sending.party script) c.server
      ⟨near, (session, .proceed), heardNear, heardFar⟩
      ⟨near, (heard, stop), heardNear, heardFar ++ unheard⟩ := by
    rw [← hfeed]
    refine .toFar _ unheard hne ⟨[], ?_⟩
    rw [List.append_nil]
    exact hsent.symm
  have htoNear : Step (Sending.party script) c.server
      ⟨near, (heard, stop), heardNear, heardFar ++ unheard⟩
      ⟨near.feed Sending.never reply, (heard, stop), heardNear ++ reply, heardFar ++ unheard⟩ := by
    refine .toNear _ reply hreply ⟨[], ?_⟩
    rw [List.append_nil]
    exact hsaid.symm
  refine ⟨_, ⟨(hreached.tail htoFar).tail htoNear, ?_, hstop', ?_, hcarries', hsaid.symm⟩, rfl⟩
  · rw [hmore, hsent]
  · intro hproceed
    rw [hrest (hstop.symm.trans (hstop'.trans hproceed)), hremainder]

/-- The near side waits for the replies to some exchanges, of which it has said the first. -/
def Waits (c : Call ω) (script : List Exchange)
    (d : Dialogue Sending (LineSession (Service ω) × Flow)) (k : Talk ω) : List Exchange → Prop
  | [] => False
  | e :: later => At c script d k .proceed e.writes.flatten ∧
      d.near.stage = .waiting [] e later ∧ d.near.pending = []

variable {e : Exchange} {later : List Exchange} {ks : List Bytes} {r : Reply}

theorem format_ne_nil (hr : r.Readable) : Encoding.latin1.encode r.format ≠ [] := by
  obtain ⟨l, ls, hlines⟩ := List.exists_cons_of_ne_nil hr.nonempty
  rw [Reply.format, hlines]
  cases ls with
  | nil =>
    rw [encode_formatLines_last]
    simp
  | cons next rest =>
    rw [encode_formatLines_cons]
    simp

section Exchange
variable (hwaits : Waits c script d k (e :: later)) (hne : e.writes.flatten ≠ [])
  (hsaid : e.writes.flatten = ks.flatMap (· ++ [cr, lf])) (hks : ∀ l ∈ ks, Unbroken l)
  (hr : r.Readable)
include hwaits hne hsaid hks hr

/-- The reply that is waited for lets the near side say what comes next. -/
theorem Waits.granted
    (hanswers : Answers c.setup c.keep k ks (Encoding.latin1.encode r.format) k' .proceed)
    (hcode : r.code = e.expected) (hlater : later ≠ []) :
    ∃ d', Waits c script d' k' later := by
  obtain ⟨hat, hstage, hpending⟩ := hwaits
  have hfeed := (feed_reply hr hstage hpending).1 hcode
  obtain ⟨e', later', rfl⟩ := List.exists_cons_of_ne_nil hlater
  rw [Sending.next_never_cons] at hfeed
  obtain ⟨d', hat', hnear⟩ := hat.round e'.writes.flatten hne hsaid hks hanswers
    (format_ne_nil hr) (by rw [hfeed])
  refine ⟨d', hat', ?_, ?_⟩
  · rw [hnear, hfeed]
  · rw [hnear, hfeed]
    exact hpending

theorem Waits.ended {flow : Flow}
    (hanswers : Answers c.setup c.keep k ks (Encoding.latin1.encode r.format) k' flow)
    (hcode : r.code = e.expected) (hlater : later = []) :
    ∃ d', At c script d' k' flow [] ∧ d'.near.result? = some (.ok ()) := by
  obtain ⟨hat, hstage, hpending⟩ := hwaits
  have hfeed := (feed_reply hr hstage hpending).1 hcode
  subst hlater
  obtain ⟨d', hat', hnear⟩ := hat.round [] hne hsaid hks hanswers
    (format_ne_nil hr) (by rw [hfeed, List.append_nil]; rfl)
  refine ⟨d', hat', ?_⟩
  rw [hnear, hfeed]
  rfl

theorem Waits.refused {flow : Flow}
    (hanswers : Answers c.setup c.keep k ks (Encoding.latin1.encode r.format) k' flow)
    (hcode : r.code ≠ e.expected) (hheeded : e.heeded = true) :
    ∃ d' f, At c script d' k' flow [] ∧ d'.near.result? = some (.error f) := by
  obtain ⟨hat, hstage, hpending⟩ := hwaits
  obtain ⟨f, hfeed⟩ := (feed_reply hr hstage hpending).2 hcode
  obtain ⟨d', hat', hnear⟩ := hat.round [] hne hsaid hks hanswers
    (format_ne_nil hr) (by rw [hfeed, List.append_nil]; rfl)
  refine ⟨d', f, hat', ?_⟩
  rw [hnear, hfeed]
  simp only [Sending.fail, hheeded, if_true, Sending.result?]

end Exchange

theorem flatten_say {text : String} (htext : Plain text) (code : Nat) :
    (Exchange.say text code).writes.flatten =
      [Encoding.latin1.encode text].flatMap (· ++ [cr, lf]) := by
  simp only [Exchange.say, List.flatten_cons, List.flatten_nil, List.append_nil,
    List.flatMap_singleton, encode_append_utf8, htext.encode_utf8]
  rfl

theorem unbroken_encode {text : String} (htext : Plain text) :
    ∀ l ∈ [Encoding.latin1.encode text], Unbroken l := by
  intro l hl
  rw [List.mem_singleton] at hl
  exact hl ▸ ⟨htext.cr_not_mem, htext.lf_not_mem⟩

theorem Waits.command {text : String} {code : Nat} {s : Session} {desk : Desk ω}
    {outcome : Outcome} (hwaits : Waits c script d k (.say text code :: later))
    (hstands : k.Stands ⟨s, .commands⟩ desk) (htext : Plain text)
    (hlen : text.length ≤ maxCommandLine) (hblank : Text.blankText text = false)
    (houtcome : (CommandChain.standard.dispatch c.setup text s).outcome = outcome)
    (hutf8 : outcome.session.utf8 = false) (hproceed : flowAfter outcome.next = .proceed)
    (hr : outcome.reply.Readable) (hcode : outcome.reply.code = code) (hlater : later ≠ []) :
    ∃ d' k', Waits c script d' k' later ∧
      k'.Stands ⟨outcome.session, modeAfter outcome.next⟩ desk := by
  obtain ⟨k', hanswers, hstands'⟩ :=
    answers_command c.keep hstands htext hlen hblank houtcome hutf8
  rw [hproceed] at hanswers
  have hne : (Exchange.say text code).writes.flatten ≠ [] := by
    rw [flatten_say htext]
    simp
  obtain ⟨d', hwaits'⟩ := hwaits.granted hne (flatten_say htext code) (unbroken_encode htext) hr
    hanswers hcode hlater
  exact ⟨d', k', hwaits', hstands'⟩

/-! ## Replies -/

theorem readable_line {code : Nat} {text : String} (hcode : ThreeDigits code) (htext : Plain text) :
    (Reply.line code text).Readable := by
  refine ⟨hcode, List.cons_ne_nil _ _, ?_⟩
  intro l hl
  rw [Reply.line, List.mem_singleton] at hl
  exact hl ▸ htext

theorem readable_ok : Reply.ok.Readable := readable_line ⟨by decide, by decide⟩ (by decide)

theorem readable_startData : Reply.startData.Readable :=
  readable_line ⟨by decide, by decide⟩ (by decide)

theorem readable_greeting {hostname : String} (h : Plain hostname) :
    (Reply.greeting hostname).Readable :=
  readable_line ⟨by decide, by decide⟩ (h.append (by decide))

theorem readable_closing {hostname : String} (h : Plain hostname) :
    (Reply.closing hostname).Readable :=
  readable_line ⟨by decide, by decide⟩ (h.append (by decide))

theorem readable_queued {name : String} (h : Plain name) : (Reply.queued name).Readable :=
  readable_line ⟨by decide, by decide⟩ (Plain.append (by decide) h)

theorem readable_tooLarge (maxSize : Nat) : (Reply.tooLarge maxSize).Readable :=
  readable_line ⟨by decide, by decide⟩
    (((Plain.append (by decide) (plain_toString maxSize))).append (by decide))

theorem readable_extensions {setup : Setup} {banner : String} (h : Plain banner) :
    Reply.Readable ⟨250, extensions setup banner⟩ := by
  have hcode : ThreeDigits 250 := ⟨by decide, by decide⟩
  have hsize : Plain ("SIZE " ++ toString setup.maxSize) :=
    Plain.append (by decide) (plain_toString setup.maxSize)
  refine ⟨hcode, List.cons_ne_nil _ _, ?_⟩
  intro l hl
  simp only [extensions, List.mem_cons, List.not_mem_nil, or_false] at hl
  rcases hl with rfl | rfl | rfl | rfl | rfl
  · exact h
  · decide
  · decide
  · exact hsize
  · decide

/-! ## The dialogue -/

/-- An envelope that a server takes, and a name that it takes from whoever calls. -/
structure Presentable (name : String) (e : Envelope) : Prop where
  plain : Plain name
  named : Text.blankText name = false
  helloFits : ("EHLO " ++ name).length ≤ maxCommandLine
  sender : Addressable e.sender
  senderFits : ("MAIL FROM:<" ++ e.sender ++ ">").length ≤ maxCommandLine
  recipients : ∀ r ∈ e.recipients,
    Addressable r ∧ r ≠ "" ∧ ("RCPT TO:<" ++ r ++ ">").length ≤ maxCommandLine
  addressed : e.recipients ≠ []
  room : e.recipients.length ≤ maxRecipients

theorem waits_first (c : Call ω) (hhost : Plain c.setup.hostname) (hlater : later ≠ []) :
    ∃ d k, Waits c (.greeting :: later) d k later ∧
      k.Stands ⟨{}, .commands⟩ { store := c.store } := by
  obtain ⟨e, later', rfl⟩ := List.exists_cons_of_ne_nil hlater
  let script := .greeting :: e :: later'
  let near := Sending.start Sending.never script
  have hready := readable_greeting hhost
  have hfeed := (feed_reply hready (t := near) rfl rfl).1 rfl
  rw [Sending.next_never_cons] at hfeed
  have hstep : Step (Sending.party script) c.server (fresh (Sending.party script) c.server)
      ⟨near.feed Sending.never c.greeting, (c.opened, .proceed), [] ++ c.greeting, []⟩ := by
    have hall : [] ++ c.greeting ++ [] = c.server.said (c.opened, .proceed) := by
      rw [c.said_opened, List.append_nil, List.nil_append]
    rw [fresh, c.start_server]
    exact .toNear _ c.greeting (format_ne_nil hready) ⟨[], hall⟩
  refine ⟨_, { service := ({}, { store := c.store }) },
    ⟨⟨.single hstep, ?_, rfl, fun _ => rfl, ?_, ?_⟩, ?_, ?_⟩, ⟨rfl, rfl⟩⟩
  · exact congrArg Sending.sent hfeed
  · exact ⟨⟨rfl, fun _ _ => rfl⟩, rfl, c.sent_opened.trans (List.append_nil _).symm, rfl⟩
  · exact (List.nil_append _).trans c.sent_opened.symm
  · exact congrArg Sending.stage hfeed
  · exact congrArg Sending.pending hfeed

theorem Waits.recipients {s : Session} {desk : Desk ω} (rs : List String)
    (hwaits : Waits c script d k (rs.map Exchange.recipient ++ later))
    (hstands : k.Stands ⟨s, .commands⟩ desk) (hsome : s.sender.isSome) (hutf8 : s.utf8 = false)
    (hrs : ∀ r ∈ rs, Addressable r ∧ r ≠ "" ∧ ("RCPT TO:<" ++ r ++ ">").length ≤ maxCommandLine)
    (hroom : s.recipients.length + rs.length ≤ maxRecipients) (hlater : later ≠ []) :
    ∃ d' k', Waits c script d' k' later ∧
      k'.Stands ⟨{ s with recipients := s.recipients ++ rs }, .commands⟩ desk := by
  induction rs generalizing d k s with
  | nil =>
    rw [List.append_nil]
    exact ⟨d, k, hwaits, hstands⟩
  | cons r rs ih =>
    obtain ⟨haddress, hne, hfits⟩ := hrs r List.mem_cons_self
    have hplain : Plain ("RCPT TO:<" ++ r ++ ">") :=
      (Plain.append (by decide) haddress.plain).append (by decide)
    have hblank : Text.blankText ("RCPT TO:<" ++ r ++ ">") = false :=
      Text.blankText_of_mem (c := 'R') (by simp) (by decide)
    rw [List.length_cons] at hroom
    have hnext : rs.map Exchange.recipient ++ later ≠ [] := by simp [hlater]
    obtain ⟨d₁, k₁, hwaits₁, hstands₁⟩ := Waits.command hwaits hstands hplain hfits hblank
      (outcome_recipient c.setup s haddress hne hsome (by omega)) hutf8 rfl readable_ok rfl hnext
    have hlen : (s.recipients ++ [r]).length + rs.length ≤ maxRecipients := by
      rw [List.length_append, List.length_singleton]
      omega
    obtain ⟨d', k', hwaits', hstands'⟩ := ih hwaits₁ hstands₁ hsome hutf8
      (fun r' hr' => hrs r' (List.mem_cons_of_mem r hr')) hlen
    refine ⟨d', k', hwaits', ?_⟩
    rwa [List.append_assoc] at hstands'

variable {name : String} {envelope : Envelope} {message : Bytes}

theorem waits_body (c : Call ω) (hhost : Plain c.setup.hostname) (h : Presentable name envelope)
    (message : Bytes) :
    ∃ d k s, Waits c (Exchange.script name none envelope message) d k
        [.body message, .farewell] ∧
      k.Stands ⟨s, .data false⟩ { store := c.store } ∧ s.sender = some envelope.sender ∧
      s.recipients = envelope.recipients ∧ s.message = [] := by
  have hscript : Exchange.script name none envelope message =
      .greeting :: .hello name :: .sender envelope.sender ::
        (envelope.recipients.map Exchange.recipient ++ [.data, .body message, .farewell]) := rfl
  rw [hscript]
  obtain ⟨d₀, k₀, hwaits₀, hstands₀⟩ := waits_first c hhost (List.cons_ne_nil (.hello name)
    (.sender envelope.sender ::
      (envelope.recipients.map Exchange.recipient ++ [.data, .body message, .farewell])))
  obtain ⟨domain, hdomain, houtcome⟩ := outcome_hello c.setup {} h.plain h.named
  have hbanner : Plain (c.setup.hostname ++ " Hello " ++ domain) :=
    (hhost.append (by decide)).append hdomain
  have hhello : Text.blankText ("EHLO " ++ name) = false :=
    Text.blankText_of_mem (c := 'E') (by simp) (by decide)
  obtain ⟨d₁, k₁, hwaits₁, hstands₁⟩ := Waits.command hwaits₀ hstands₀
    (Plain.append (by decide) h.plain) h.helloFits hhello houtcome rfl rfl
    (readable_extensions hbanner) rfl (List.cons_ne_nil _ _)
  have hplain : Plain ("MAIL FROM:<" ++ envelope.sender ++ ">") :=
    (Plain.append (by decide) h.sender.plain).append (by decide)
  have hmail : Text.blankText ("MAIL FROM:<" ++ envelope.sender ++ ">") = false :=
    Text.blankText_of_mem (c := 'M') (by simp) (by decide)
  obtain ⟨d₂, k₂, hwaits₂, hstands₂⟩ := Waits.command hwaits₁ hstands₁ hplain h.senderFits hmail
    (outcome_sender c.setup _ h.sender rfl) rfl rfl readable_ok rfl (by simp)
  obtain ⟨d₃, k₃, hwaits₃, hstands₃⟩ := Waits.recipients envelope.recipients hwaits₂ hstands₂ rfl
    rfl h.recipients (by simpa using h.room) (List.cons_ne_nil _ _)
  have hdata := outcome_data c.setup
    { helo := some domain, sender := some envelope.sender, recipients := [] ++ envelope.recipients }
    rfl (by simpa using h.addressed)
  obtain ⟨d₄, k₄, hwaits₄, hstands₄⟩ := Waits.command hwaits₃ hstands₃ (by decide) (by decide)
    (by decide) hdata rfl rfl readable_startData rfl (List.cons_ne_nil _ _)
  exact ⟨d₄, k₄, _, hwaits₄, hstands₄, rfl, rfl, rfl⟩

section Body
variable {ls : List Bytes} (hls : ∀ l ∈ ls, Unbroken l)
include hls

theorem flatten_body :
    (Exchange.body (ls.flatMap (· ++ [cr, lf]))).writes.flatten =
      (ls.map stuffed ++ [terminator]).flatMap (· ++ [cr, lf]) := by
  simp only [Exchange.body, dotStuff_rows hls, List.flatten_cons, List.flatten_nil,
    List.append_nil, List.flatMap_append, List.flatMap_singleton]
  rfl

theorem unbroken_body : ∀ l ∈ ls.map stuffed ++ [terminator], Unbroken l := by
  intro l hl
  rcases List.mem_append.mp hl with hl | hl
  · obtain ⟨k, hk, rfl⟩ := List.mem_map.mp hl
    exact stuffed_unbroken (hls k hk)
  · rw [List.mem_singleton] at hl
    exact hl ▸ ⟨by decide, by decide⟩

omit hls in
theorem captured_stuffed : Ledger.captured (ls.map stuffed) = ls.flatMap (· ++ [cr, lf]) := by
  simp only [Ledger.captured, List.flatMap_map, unstuff_stuffed]
  rfl

omit hls in
theorem stuffed_go_on : ∀ raw ∈ ls.map stuffed, raw ≠ terminator := by
  intro raw hraw
  obtain ⟨l, -, rfl⟩ := List.mem_map.mp hraw
  exact stuffed_ne_terminator l

def announced (envelope : Envelope) (entry : StoredMessage) : Event :=
  .newMessage
    { path := entry.path, sender := envelope.sender, recipients := envelope.recipients
      size := entry.size }

theorem rests_taken (c : Call ω) (hhost : Plain c.setup.hostname) (h : Presentable name envelope)
    (hfits : (ls.flatMap (· ++ [cr, lf])).length ≤ c.setup.maxSize) {entry : StoredMessage}
    {store : ω} (hkeep : c.keep c.store (ls.flatMap (· ++ [cr, lf])) = (.ok entry, store))
    (hentry : Plain entry.name) :
    ∃ d k flow s,
      At c (Exchange.script name none envelope (ls.flatMap (· ++ [cr, lf]))) d k flow [] ∧
      d.near.result? = some (.ok ()) ∧
      k.Stands ⟨s, .commands⟩ { store, events := [announced envelope entry] } := by
  obtain ⟨d, k, s, hwaits, hstands, hsender, hrecipients, hempty⟩ := waits_body c hhost h
    (ls.flatMap (· ++ [cr, lf]))
  have hne : (Exchange.body (ls.flatMap (· ++ [cr, lf]))).writes.flatten ≠ [] := by
    rw [flatten_body hls]
    simp
  rw [← captured_stuffed] at hfits hkeep
  obtain ⟨k₁, s₁, hanswers, hstands₁, hutf8⟩ :=
    answers_message c.keep stuffed_go_on hstands hempty hfits hkeep
  obtain ⟨d₁, hwaits₁⟩ := hwaits.granted hne (flatten_body hls) (unbroken_body hls)
    (readable_queued hentry) hanswers rfl (List.cons_ne_nil _ _)
  obtain ⟨k₂, hanswers₂, hstands₂⟩ := answers_command c.keep hstands₁ (by decide) (by decide)
    (by decide) (outcome_quit c.setup s₁) hutf8
  have hquit : Exchange.farewell.writes.flatten =
      [Encoding.latin1.encode "QUIT"].flatMap (· ++ [cr, lf]) := flatten_say (by decide) 221
  obtain ⟨d₂, hat, hresult⟩ := hwaits₁.ended (by decide) hquit (unbroken_encode (by decide))
    (readable_closing hhost) hanswers₂ rfl rfl
  refine ⟨d₂, k₂, _, s₁, hat, hresult, ?_⟩
  have hannounce : announcement s entry = announced envelope entry := by
    simp only [announcement, announced, hsender, hrecipients, Option.getD_some]
  rw [← hannounce]
  exact hstands₂

theorem rests_refused (c : Call ω) (hhost : Plain c.setup.hostname) (h : Presentable name envelope)
    (hover : c.setup.maxSize < (ls.flatMap (· ++ [cr, lf])).length) :
    ∃ d k flow s f,
      At c (Exchange.script name none envelope (ls.flatMap (· ++ [cr, lf]))) d k flow [] ∧
      d.near.result? = some (.error f) ∧ k.Stands ⟨s, .commands⟩ { store := c.store } := by
  obtain ⟨d, k, s, hwaits, hstands, -, -, hempty⟩ := waits_body c hhost h
    (ls.flatMap (· ++ [cr, lf]))
  have hne : (Exchange.body (ls.flatMap (· ++ [cr, lf]))).writes.flatten ≠ [] := by
    rw [flatten_body hls]
    simp
  rw [← captured_stuffed] at hover
  obtain ⟨k₁, s₁, hanswers, hstands₁⟩ :=
    answers_message_tooLarge c.keep stuffed_go_on hstands hempty hover
  have hcode : (Reply.tooLarge c.setup.maxSize).code ≠ 250 := show (552 : Nat) ≠ 250 by decide
  obtain ⟨d₁, f, hat, hresult⟩ := hwaits.refused hne (flatten_body hls) (unbroken_body hls)
    (readable_tooLarge c.setup.maxSize) hanswers hcode rfl
  exact ⟨d₁, k₁, _, s₁, f, hat, hresult, hstands₁⟩

end Body

theorem sent_send (channel : Channel) (data : Bytes) :
    channel.sent <+: (channel.send data).1.sent := by
  simp only [Channel.send]
  split
  · exact List.prefix_append _ _
  · exact List.prefix_rfl

theorem sent_deliver (channel : Channel) (v : Service ω) (response : Response) :
    channel.sent <+: (Service.deliver channel v response).1.sent := by
  unfold Service.deliver
  cases response.reply with
  | none => exact List.prefix_rfl
  | some reply =>
    have hsent : channel.sent <+:
        ((channel.setEncoding response.encoding).sendText reply.format).1.sent :=
      sent_send (channel.setEncoding response.encoding) _
    obtain ⟨channel', result, hsend⟩ : ∃ channel' result,
      (channel.setEncoding response.encoding).sendText reply.format = (channel', result) :=
        ⟨_, _, rfl⟩
    rw [hsend] at hsent
    simp only [hsend]
    cases result with
    | ok _ => exact hsent
    | error f => exact hsent

theorem appends_protocol (c : Call ω) : LineSession.Appends c.protocol :=
  fun s _ => sent_deliver s.1 _ _

theorem server_steady (c : Call ω) : c.server.Steady LineSession.standing :=
  LineSession.party_steady rfl rfl (appends_protocol c)

def Call.recorded (c : Call ω) : Call (ω × List (Bytes × SaveAnswer)) :=
  { setup := c.setup, keep := c.keep.recording, store := (c.store, []), id := c.id, peer := c.peer
    now := c.now }

/-- A message made of whole lines is handed on faithfully, whatever the pieces in which the bytes
arrive on both sides, and whenever they do. The dialogue does not go on for ever, and when nothing
more can arrive, the near side has succeeded exactly if the message is not too large for the far
side. In that case the far side has saved the message once, as it was, and announced it with the
envelope as it was; otherwise it has saved and announced nothing. -/
theorem relay_faithful (c : Call ω) (name : String) (envelope : Envelope) (ls : List Bytes)
    (entry : StoredMessage) (hls : ∀ l ∈ ls, Unbroken l) (h : Presentable name envelope)
    (hhost : Plain c.setup.hostname) (hentry : Plain entry.name)
    (hkeep : (c.keep c.store (ls.flatMap (· ++ [cr, lf]))).1 = .ok entry) :
    let message := ls.flatMap (· ++ [cr, lf])
    let client := Sending.party (Exchange.script name none envelope message)
    let server := c.recorded.server
    Acc (fun d' d => Step client server d d') (fresh client server) ∧
      ∀ d, Reaches client server (fresh client server) d → Ended client server d →
        (∃ result, d.near.result? = some result ∧
          (result = .ok () ↔ message.length ≤ c.setup.maxSize)) ∧
        if message.length ≤ c.setup.maxSize then
          d.far.1.state.2.store.2 = [(message, .ok entry)] ∧
            d.far.1.state.2.events = [announced envelope entry]
        else d.far.1.state.2.store.2 = [] ∧ d.far.1.state.2.events = [] := by
  intro message client server
  have hclient : client.Steady id := Sending.party_steady _
  have hserver : server.Steady LineSession.standing := server_steady c.recorded
  by_cases hfits : message.length ≤ c.setup.maxSize
  · have hrecorded : c.recorded.keep c.recorded.store message =
        (.ok entry, ((c.keep c.store message).2, [(message, .ok entry)])) := by
      simp only [Call.recorded, Keep.recording, message, hkeep, List.nil_append]
    obtain ⟨e, k, flow, s, hat, hresult, hstands⟩ :=
      rests_taken hls c.recorded hhost h hfits hrecorded hentry
    obtain ⟨hacc, hsettles⟩ := settles hclient hserver hat.reached hat.atRest
    refine ⟨hacc, ?_⟩
    intro d hd hended
    obtain ⟨hnear, hfar⟩ := hsettles d hd hended
    have hstate : d.far.1.state = e.far.1.state := congrArg (fun u => u.1.2) hfar
    have hservice := hstate.trans (hat.carries.service.trans hstands.service)
    rw [if_pos hfits, hservice]
    refine ⟨⟨.ok (), ?_, iff_of_true rfl hfits⟩, rfl, rfl⟩
    rw [← hresult]
    exact congrArg Sending.result? hnear
  · obtain ⟨e, k, flow, s, f, hat, hresult, hstands⟩ :=
      rests_refused hls c.recorded hhost h (Nat.lt_of_not_le hfits)
    obtain ⟨hacc, hsettles⟩ := settles hclient hserver hat.reached hat.atRest
    refine ⟨hacc, ?_⟩
    intro d hd hended
    obtain ⟨hnear, hfar⟩ := hsettles d hd hended
    have hstate : d.far.1.state = e.far.1.state := congrArg (fun u => u.1.2) hfar
    have hservice := hstate.trans (hat.carries.service.trans hstands.service)
    rw [if_neg hfits, hservice]
    refine ⟨⟨.error f, ?_, iff_of_false (fun herror => by cases herror) hfits⟩, rfl, rfl⟩
    rw [← hresult]
    exact congrArg Sending.result? hnear

/-- A message whose only line is a dot arrives as it is. -/
theorem relay_faithful_single_dot :
    let c : Call MemoryStore :=
      { setup := ⟨"mx.example.org", 3⟩, keep := MemoryStore.save, store := {}, id := 1 }
    let envelope : Envelope := ⟨"", ["you@example.org"]⟩
    let client := Sending.party (Exchange.script "me" none envelope [46, cr, lf])
    ∀ d, Reaches client c.recorded.server (fresh client c.recorded.server) d →
      Ended client c.recorded.server d →
        d.near.result? = some (.ok ()) ∧
          d.far.1.state.2.store.2.map Prod.fst = [[46, cr, lf]] := by
  intro c envelope client d hd hended
  have hpresentable : Presentable "me" envelope := by
    refine ⟨by decide, by decide, by decide, ⟨by decide, by decide, by decide⟩, by decide, ?_,
      by decide, by decide⟩
    intro r hr
    rw [List.mem_singleton] at hr
    subst hr
    exact ⟨⟨by decide, by decide, by decide⟩, by decide, by decide⟩
  have hdot : ∀ l ∈ [([46] : Bytes)], Unbroken l := by
    intro l hl
    rw [List.mem_singleton] at hl
    exact hl ▸ ⟨by decide, by decide⟩
  obtain ⟨-, hrests⟩ := relay_faithful c "me" envelope [[46]]
    { path := "/store/msg-1.eml", name := "msg-1.eml", size := 3 } hdot hpresentable (by decide)
    (by decide) (by decide)
  obtain ⟨⟨result, hresult, hok⟩, hsaved⟩ := hrests d hd hended
  rw [if_pos (by decide)] at hsaved
  refine ⟨?_, ?_⟩
  · rw [hresult, hok.mpr (by decide)]
  · rw [hsaved.1]
    rfl

end Letterbox.Smtp
