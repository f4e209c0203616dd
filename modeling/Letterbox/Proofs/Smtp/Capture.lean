import Letterbox.Proofs.Smtp.EndOfData

/-!
# What is kept of a message

The size of a message is checked line by line, before each line is kept, and what was kept is
thrown away when it becomes too much. In the end this is one check of the whole: the message is
handed to the store as it was sent, or it is refused because it is too large. Until the single dot
nothing is answered, whatever the lines look like.
-/

namespace Letterbox.Smtp

set_option autoImplicit false

open Lines Receiver

/-- The message that some lines make. Of two dots at the beginning of a line one is taken off. -/
def messageOf (ls : List Bytes) : Bytes :=
  ls.flatMap fun l => (if [46, 46] <+: l then l.tail else l) ++ [13, 10]

theorem unstuff_eq (l : Bytes) : unstuff l = if [46, 46] <+: l then l.tail else l := by
  unfold unstuff
  split
  · rename_i rest
    rw [if_pos ⟨rest, rfl⟩]
    rfl
  · rename_i hne
    rw [if_neg]
    rintro ⟨rest, rfl⟩
    exact hne rest rfl

theorem captured_eq_messageOf (ls : List Bytes) : Ledger.captured ls = messageOf ls := by
  simp only [Ledger.captured, messageOf, unstuff_eq, crlf]

/-- A reply 354 is only given to a command, and the message that comes now is empty so far. -/
theorem line_of_startData {chain : CommandChain} {setup : Setup} {e : Encoding} {r : Receiver}
    {raw : Bytes} {answer : SaveAnswer}
    (h : (r.line chain setup e raw answer).2.reply.map (·.code) = some 354) :
    let out := r.line chain setup e raw answer
    r.mode = .commands ∧ out.1.mode = .data false ∧ out.1.session.message = [] ∧
      out.2.event = none := by
  obtain ⟨s, mode⟩ := r
  cases mode with
  | data overflowed =>
    simp only [Receiver.line] at h
    split at h
    · simp only [complete] at h
      split at h
      · simp [Reply.tooLarge, Reply.line] at h
      · cases answer with
        | ok entry => simp [Reply.queued, Reply.line] at h
        | error f => simp [Reply.notStored, Reply.line] at h
    · cases h
  | commands =>
    simp only [Receiver.line, Receiver.command] at h ⊢
    split at h
    · simp [Reply.lineTooLong, Reply.line] at h
    rename_i hshort
    split at h
    · cases h
    rename_i hblank
    rw [if_neg hshort, if_neg hblank]
    simp only [outcome_dispatch] at h ⊢
    split at h
    · simp [Reply.unrecognized, Reply.line] at h
    · rename_i handler _
      have heffect := execute_effect setup (splitVerb (e.decode raw)).1
        (splitVerb (e.decode raw)).2 s handler
      generalize handler.kind = kind at heffect
      generalize handler.execute setup (splitVerb (e.decode raw)).1
        (splitVerb (e.decode raw)).2 s = outcome at h heffect ⊢
      cases heffect with
      | data => exact ⟨trivial, rfl, rfl, trivial⟩
      | refused reply _ hrefused =>
        have hcode : reply.code = 354 := Option.some.inj h
        simp [Reply.isPositive, hcode] at hrefused
      | greeted domain reply h250 =>
        have hcode : reply.code = 354 := Option.some.inj h
        omega
      | sender | recipient | reset | noop => simp [Reply.ok, Reply.line] at h
      | verify => simp [verifyReply, Reply.line] at h
      | help => simp [helpReply, Reply.line] at h
      | quit => simp [Reply.closing, Reply.line] at h

namespace Service

variable {ω : Type} (chain : CommandChain) (setup : Setup)

section Lines
variable (keep : Keep ω) {s : Channel × Service ω} {raw : Bytes}

def hear (s : Channel × Service ω) (raw : Bytes) : Receiver × Response :=
  s.2.1.line chain setup s.1.connection.encoding raw (s.2.ask keep raw).1

theorem handle_eq_deliver {answer : SaveAnswer} {store : ω} {out : Receiver × Response}
    (hask : s.2.ask keep raw = (answer, store))
    (hline : s.2.1.line chain setup s.1.connection.encoding raw answer = out) :
    (protocol chain setup keep).handle s raw =
      let sent := deliver s.1 (out.1, { store, events := s.2.2.events ++ out.2.event.toList }) out.2
      ((sent.1, sent.2.1), sent.2.2) := by
  simp only [LineProtocol.handle, protocol, Service.line, hask, hline]

theorem deliver_of_proceed {channel : Channel} {v : Service ω} {r : Response}
    (h : (deliver channel v r).2.2 = .proceed) : (deliver channel v r).2.1 = v := by
  unfold deliver at h ⊢
  cases hreply : r.reply with
  | none => rfl
  | some reply =>
    simp only [hreply] at h ⊢
    cases hsent : (channel.setEncoding r.encoding).sendText reply.format with
    | mk channel result =>
      simp only [hsent] at h ⊢
      cases result with
      | ok u => rfl
      | error f => cases h

/-- The line is answered with 354, and the answer could be sent. -/
structure Invites (s : Channel × Service ω) (raw : Bytes) : Prop where
  code : (hear chain setup keep s raw).2.reply.map (·.code) = some 354
  sent : ((protocol chain setup keep).handle s raw).2 = .proceed

/-- A message is awaited of which nothing has come yet; the store has not been asked for anything,
and nothing was announced. -/
theorem Invites.awaits (h : Invites chain setup keep s raw) :
    let t := ((protocol chain setup keep).handle s raw).1
    t.2.1.mode = .data false ∧ t.2.1.session.message = [] ∧ t.2.2 = s.2.2 := by
  obtain ⟨hcommands, hmode, hmessage, hevent⟩ := line_of_startData h.code
  have hask : s.2.ask keep raw = (.error (.storage ""), s.2.2.store) := by
    simp only [ask, toSave?, hcommands]
  have hhandle := handle_eq_deliver chain setup keep hask rfl
  rw [hask] at hmode hmessage hevent
  have hsent := h.sent
  rw [hhandle] at hsent ⊢
  dsimp only at hsent ⊢
  rw [deliver_of_proceed hsent]
  refine ⟨hmode, hmessage, ?_⟩
  rw [hevent, Option.toList_none, List.append_nil]

/-- A line of the message is heard in silence, and leaves all but the receiver alone. -/
theorem handle_captured {overflowed : Bool} (hmode : s.2.1.mode = .data overflowed)
    (hraw : raw ≠ terminator) :
    (protocol chain setup keep).handle s raw =
      ((s.1, (capture setup.maxSize s.2.1.session overflowed raw, s.2.2)), .proceed) := by
  have hask : s.2.ask keep raw = (.error (.storage ""), s.2.2.store) := by
    cases overflowed with
    | true => simp only [ask, toSave?, hmode]
    | false => simp only [ask, toSave?, hmode, if_neg hraw]
  have hline : s.2.1.line chain setup s.1.connection.encoding raw (.error (.storage "")) =
      (capture setup.maxSize s.2.1.session overflowed raw,
        { encoding := s.1.connection.encoding }) := by
    simp only [Receiver.line, hmode, if_neg hraw]
  rw [handle_eq_deliver chain setup keep hask hline]
  simp only [deliver, Option.toList_none, List.append_nil]
  rfl

/-- A line that is replied to, and after which commands follow whether or not the reply can be
sent. -/
theorem handle_of_reply {answer : SaveAnswer} {store : ω} {r : Receiver} {response : Response}
    {reply : Reply} (hask : s.2.ask keep raw = (answer, store))
    (hline : s.2.1.line chain setup s.1.connection.encoding raw answer = (r, response))
    (hmode : r.mode = .commands) (hreply : response.reply = some reply) :
    ((protocol chain setup keep).handle s raw).1 =
      (((s.1.setEncoding response.encoding).sendText reply.format).1,
        (r, { store, events := s.2.2.events ++ response.event.toList })) := by
  obtain ⟨session, mode⟩ := r
  cases hmode
  rw [handle_eq_deliver chain setup keep hask hline]
  simp only [deliver, hreply]
  cases (s.1.setEncoding response.encoding).sendText reply.format with
  | mk channel result =>
    cases result with
    | ok u => rfl
    | error f => rfl

theorem helo_capture (maxSize : Nat) (s : Session) (overflowed : Bool) (raw : Bytes) :
    (capture maxSize s overflowed raw).session.helo = s.helo := by
  simp only [capture]
  split
  · rfl
  · split <;> rfl

/-- What is known while a message is being taken: its lines since `t` are `ls`. -/
structure Taking (t : Channel × Service ω) (ls : List Bytes) (s : Channel × Service ω) : Prop where
  channel : s.1 = t.1
  desk : s.2.2 = t.2.2
  captures : Captures setup.maxSize ls s.2.1.mode s.2.1.session.message
  helo : s.2.1.session.helo = t.2.1.session.helo

variable {t : Channel × Service ω} {ls : List Bytes}

theorem Taking.exists_mode (h : Taking setup t ls s) :
    ∃ overflowed, s.2.1.mode = .data overflowed := by
  have hcaptures := h.captures
  generalize s.2.1.mode = mode, s.2.1.session.message = message at hcaptures
  cases hcaptures with
  | kept => exact ⟨false, rfl⟩
  | overflowed => exact ⟨true, rfl⟩

/-- One line more: nothing is sent, and the store is left alone. -/
theorem Taking.line (h : Taking setup t ls s) (hraw : raw ≠ terminator) :
    ∃ r overflowed, (protocol chain setup keep).handle s raw = ((t.1, (r, t.2.2)), .proceed) ∧
      r.mode = .data overflowed ∧ Taking setup t (ls ++ [raw]) (t.1, (r, t.2.2)) := by
  obtain ⟨overflowed, hmode⟩ := h.exists_mode
  obtain ⟨now, hnow⟩ := capture_mode setup.maxSize s.2.1.session overflowed raw
  have hcaptures := h.captures
  rw [hmode] at hcaptures
  refine ⟨_, now, ?_, hnow, rfl, rfl, captures_concat raw hcaptures, ?_⟩
  · rw [handle_captured chain setup keep hmode hraw, h.channel, h.desk]
  · exact (helo_capture _ _ _ _).trans h.helo

theorem Taking.after (h : Taking setup t ls s) {more : List Bytes}
    (hmore : ∀ l ∈ more, l ≠ terminator) :
    Taking setup t (ls ++ more) (Lines.after (protocol chain setup keep).handle s more) := by
  induction more generalizing s ls with
  | nil => rwa [List.append_nil]
  | cons l more ih =>
    obtain ⟨r, overflowed, hhandle, -, htaking⟩ :=
      h.line chain setup keep (hmore l List.mem_cons_self)
    have hrest := ih htaking fun k hk => hmore k (List.mem_cons_of_mem l hk)
    rw [List.append_assoc] at hrest
    rw [Lines.after, List.foldl_cons, hhandle]
    exact hrest

def verdict : SaveAnswer → Reply
  | .ok entry => .queued entry.name
  | .error _ => .notStored

/-- A message that is small enough is handed to the store at its end. -/
theorem Taking.ends_kept (h : Taking setup t ls s)
    (hfits : (Ledger.captured ls).length ≤ setup.maxSize) :
    let ended := ((protocol chain setup keep).handle s terminator).1
    let saved := keep t.2.2.store (Ledger.captured ls)
    ended.1 = ((t.1.setEncoding .latin1).sendText (verdict saved.1).format).1 ∧
      ended.2.1 = ⟨{ helo := t.2.1.session.helo }, .commands⟩ ∧ ended.2.2.store = saved.2 := by
  obtain ⟨hchannel, hdesk, hcaptures, hhelo⟩ := h
  generalize hmode : s.2.1.mode = mode at hcaptures
  generalize hmessage : s.2.1.session.message = message at hcaptures
  cases hcaptures with
  | overflowed _ hover => omega
  | kept _ =>
    have hask : s.2.ask keep terminator = keep t.2.2.store (Ledger.captured ls) := by
      simp only [ask, toSave?, hmode, if_true, hmessage, hdesk]
    generalize keep t.2.2.store (Ledger.captured ls) = saved at hask
    obtain ⟨answer, store⟩ := saved
    have hline : s.2.1.line chain setup s.1.connection.encoding terminator answer =
        (⟨s.2.1.session.reset, .commands⟩,
          complete setup.maxSize s.2.1.session false answer) := by
      simp only [Receiver.line, hmode, if_true]
    have hreply : (complete setup.maxSize s.2.1.session false answer).reply =
          some (verdict answer) ∧
        (complete setup.maxSize s.2.1.session false answer).encoding = .latin1 := by
      cases answer with
      | ok entry => exact ⟨rfl, rfl⟩
      | error f => exact ⟨rfl, rfl⟩
    rw [handle_of_reply chain setup keep hask hline rfl hreply.1, hreply.2, hchannel,
      Session.reset, hhelo]
    exact ⟨rfl, rfl, rfl⟩

/-- A message that has become too large is refused at its end. -/
theorem Taking.ends_refused (h : Taking setup t ls s)
    (hover : setup.maxSize < (Ledger.captured ls).length) :
    let ended := ((protocol chain setup keep).handle s terminator).1
    ended.1 = ((t.1.setEncoding .latin1).sendText (Reply.tooLarge setup.maxSize).format).1 ∧
      ended.2.1 = ⟨{ helo := t.2.1.session.helo }, .commands⟩ ∧ ended.2.2 = t.2.2 := by
  obtain ⟨hchannel, hdesk, hcaptures, hhelo⟩ := h
  generalize hmode : s.2.1.mode = mode at hcaptures
  generalize hmessage : s.2.1.session.message = message at hcaptures
  cases hcaptures with
  | kept hkept => omega
  | overflowed _ _ =>
    have hask : s.2.ask keep terminator = (.error (.storage ""), s.2.2.store) := by
      simp only [ask, toSave?, hmode]
    have hline : s.2.1.line chain setup s.1.connection.encoding terminator (.error (.storage "")) =
        (⟨s.2.1.session.reset, .commands⟩,
          { reply := some (.tooLarge setup.maxSize), encoding := .latin1 }) := by
      simp only [Receiver.line, hmode, if_true, complete]
    rw [handle_of_reply chain setup keep hask hline rfl rfl, Option.toList_none, List.append_nil,
      hchannel, hdesk, Session.reset, hhelo]
    exact ⟨rfl, rfl, rfl⟩

end Lines

/-- A message is taken exactly. A line was answered with 354, and now the lines of a message come,
none of which is a single dot, and then the single dot. Whatever the lines look like and however
long they are, none of them is answered and nothing is handed to the store before the end. Then, if
the message that they make is not larger than it may be, it is handed to the store, once and as it
is; otherwise nothing is, and the answer is 552. Commands follow, with nothing left of the
transaction. -/
theorem message_taken_exactly (keep : Keep ω)
    {s : Channel × Service (ω × List (Bytes × SaveAnswer))} {command : Bytes}
    (h : Invites chain setup keep.recording s command) {ls : List Bytes}
    (hls : ∀ l ∈ ls, l ≠ [46]) :
    let handle := (protocol chain setup keep.recording).handle
    let begun := (handle s command).1
    let ended := (handle (Lines.after handle begun ls) [46]).1
    let message := messageOf ls
    let saved := keep s.2.2.store.1 message
    (∀ before l rest, ls = before ++ l :: rest → ∃ r overflowed, r.mode = .data overflowed ∧
        handle (Lines.after handle begun before) l = ((begun.1, (r, s.2.2)), .proceed)) ∧
      (message.length ≤ setup.maxSize →
        ended.2.2.store = (saved.2, s.2.2.store.2 ++ [(message, saved.1)]) ∧
          ended.1 = ((begun.1.setEncoding .latin1).sendText (verdict saved.1).format).1) ∧
      (setup.maxSize < message.length →
        ended.2.2 = s.2.2 ∧ ∃ reply : Reply, reply.code = 552 ∧
          ended.1 = ((begun.1.setEncoding .latin1).sendText reply.format).1) ∧
      ended.2.1 = ⟨{ helo := begun.2.1.session.helo }, .commands⟩ := by
  intro handle begun ended message saved
  obtain ⟨hmode, hmessage, hdesk⟩ := h.awaits
  have hbegun : Taking setup begun [] begun := by
    refine ⟨rfl, rfl, ?_, rfl⟩
    rw [show begun.2.1.mode = .data false from hmode,
      show begun.2.1.session.message = [] from hmessage]
    exact .kept (Nat.zero_le _)
  have htaking : ∀ more, (∀ l ∈ more, l ≠ terminator) →
      Taking setup begun more (Lines.after handle begun more) := fun more hmore =>
    hbegun.after chain setup keep.recording hmore
  have hcaptured : Ledger.captured ls = message := captured_eq_messageOf ls
  refine ⟨?_, ?_, ?_, ?_⟩
  · rintro before l rest rfl
    have hbefore := htaking before fun k hk => hls k (List.mem_append_left _ hk)
    obtain ⟨r, overflowed, hhandle, hdata, -⟩ := hbefore.line chain setup keep.recording
      (hls l (List.mem_append_right _ List.mem_cons_self))
    rw [show begun.2.2 = s.2.2 from hdesk] at hhandle
    exact ⟨r, overflowed, hdata, hhandle⟩
  · intro hfits
    rw [← hcaptured] at hfits
    obtain ⟨hsent, -, hstore⟩ := (htaking ls hls).ends_kept chain setup keep.recording hfits
    rw [hcaptured, show begun.2.2 = s.2.2 from hdesk] at hsent hstore
    exact ⟨hstore, hsent⟩
  · intro hover
    rw [← hcaptured] at hover
    obtain ⟨hsent, -, hsame⟩ := (htaking ls hls).ends_refused chain setup keep.recording hover
    exact ⟨hsame.trans hdesk, _, rfl, hsent⟩
  · rcases Nat.lt_or_ge setup.maxSize (Ledger.captured ls).length with hover | hfits
    · exact ((htaking ls hls).ends_refused chain setup keep.recording hover).2.1
    · exact ((htaking ls hls).ends_kept chain setup keep.recording hfits).2.1

/-! ### A message of exactly the size that is allowed -/

def small : Setup := ⟨"sink.test", 7⟩

def addressed : Channel × Service (MemoryStore × List (Bytes × SaveAnswer)) :=
  (wire, ({ session := { sender := some "a@b.com", recipients := ["c@d.com"] } },
    { store := ({}, []) }))

/-- Of the two dots one is kept, and with the ends of the lines there are seven bytes. -/
def dotAndLetters : List Bytes := [Utf8.encode "..", Utf8.encode "ab"]

theorem message_taken_exactly_small :
    let handle := (protocol .standard small (Keep.recording MemoryStore.save)).handle
    let begun := (handle addressed (Utf8.encode "DATA")).1
    let ended := (handle (Lines.after handle begun dotAndLetters) [46]).1
    Invites .standard small (Keep.recording MemoryStore.save) addressed (Utf8.encode "DATA") ∧
      (∀ l ∈ dotAndLetters, l ≠ [46]) ∧
      ended.2.2.store.2 =
        [(Utf8.encode ".\r\nab\r\n", .ok ⟨"/store/msg-1.eml", "msg-1.eml", 7, 0⟩)] := by
  have hinvites : Invites .standard small (Keep.recording MemoryStore.save) addressed
      (Utf8.encode "DATA") := ⟨by decide +kernel, by decide +kernel⟩
  have hdots : ∀ l ∈ dotAndLetters, l ≠ [46] := by decide
  refine ⟨hinvites, hdots, ?_⟩
  have hkept := (message_taken_exactly .standard small MemoryStore.save hinvites hdots).2.1
    (by decide +kernel)
  rw [hkept.1]
  decide +kernel

end Service

end Letterbox.Smtp
