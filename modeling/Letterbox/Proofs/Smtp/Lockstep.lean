import Letterbox.Proofs.Smtp.Framing
import Letterbox.Proofs.Smtp.Provenance

/-!
# Lines and replies in step

A client can count replies. There is one for the greeting, one for every command line that is too
long or not blank, and one for the dot that ends a message; blank lines and the lines of a message
get none. Where a reply ends can be seen on the wire.
-/

namespace Letterbox.Smtp

set_option autoImplicit false

open Lines Receiver

/-! ## What a server says -/

namespace Reply

theorem orderly_line {code : Nat} {text : String} (hcode : (toString code).length = 3)
    (htext : OneLine text) : (line code text).Orderly :=
  ⟨hcode, List.cons_ne_nil _ _, List.forall_mem_singleton.mpr htext⟩

theorem orderly_greeting {hostname : String} (h : OneLine hostname) : (greeting hostname).Orderly :=
  orderly_line (by decide) (h.append (by decide))

theorem orderly_closing {hostname : String} (h : OneLine hostname) : (closing hostname).Orderly :=
  orderly_line (by decide) (h.append (by decide))

theorem orderly_queued {name : String} (h : OneLine name) : (queued name).Orderly :=
  orderly_line (by decide) (OneLine.append (by decide) h)

theorem orderly_tooLarge (maxSize : Nat) : (tooLarge maxSize).Orderly :=
  orderly_line (by decide)
    ((OneLine.append (by decide) (oneLine_toString maxSize)).append (by decide))

theorem orderly_ok : ok.Orderly := orderly_line (by decide) (by decide)

theorem orderly_badSequence : badSequence.Orderly := orderly_line (by decide) (by decide)

theorem orderly_syntaxError {detail : String} (h : OneLine detail) :
    (syntaxError detail).Orderly :=
  orderly_line (by decide) (OneLine.append (by decide) h)

end Reply

open Reply

section Commands
variable {setup : Setup} (hhost : OneLine setup.hostname) (verb args : String) (s : Session)

theorem orderly_readParameters {maxSize : Nat} {utf8 : Bool} {ps : List (List Char)}
    {reply : Reply} (h : readParameters maxSize utf8 ps = .error reply) : reply.Orderly := by
  fun_induction readParameters maxSize utf8 ps with
  | case1 => simp at h
  | case2 utf8 p rest key value hp hasks ih => exact ih h
  | case3 utf8 p rest key value hp hasks hsize n hn hlt =>
    cases h
    exact orderly_tooLarge maxSize
  | case4 utf8 p rest key value hp hasks hsize n hn hlt ih => exact ih h
  | case5 utf8 p rest key value hp hasks hsize hn =>
    cases h
    exact orderly_syntaxError (by decide)
  | case6 utf8 p rest key value hp hasks hsize ih => exact ih h

theorem orderly_mailFrom : (mailFrom setup args s).reply.Orderly := by
  unfold mailFrom
  split
  · exact orderly_badSequence
  split
  · exact orderly_syntaxError (by decide)
  split
  · exact orderly_syntaxError (by decide)
  split
  · rename_i reply hread
    exact orderly_readParameters hread
  · exact orderly_ok

theorem orderly_rcptTo : (rcptTo args s).reply.Orderly := by
  unfold rcptTo
  split
  · exact orderly_badSequence
  split
  · exact orderly_syntaxError (by decide)
  split
  · exact orderly_syntaxError (by decide)
  · exact orderly_syntaxError (by decide)
  split
  · exact orderly_line (by decide) (by decide)
  · exact orderly_ok

theorem orderly_data : (data s).reply.Orderly := by
  unfold data
  split
  · exact orderly_line (by decide) (by decide)
  · exact orderly_badSequence

include hhost

/-- The name that a client gives is quoted in the reply. -/
theorem orderly_greet : (greet setup verb args s).reply.Orderly := by
  unfold greet
  split
  · exact orderly_syntaxError (by decide)
  · rename_i domain _ hwords
    have hdomain : OneLine domain := oneLine_of_mem_words (hwords ▸ List.mem_cons_self)
    have hbanner := (hhost.append (show OneLine " Hello " by decide)).append hdomain
    have hsize : OneLine ("SIZE " ++ toString setup.maxSize) :=
      OneLine.append (by decide) (oneLine_toString setup.maxSize)
    dsimp only
    split
    · refine ⟨show (toString 250).length = 3 by decide, List.cons_ne_nil _ _, ?_⟩
      simp only [extensions, List.forall_mem_cons]
      exact ⟨hbanner, by decide, by decide, hsize, by decide, List.forall_mem_nil _⟩
    · exact orderly_line (by decide) hbanner

theorem orderly_execute (h : CommandHandler) : (h.execute setup verb args s).reply.Orderly := by
  unfold CommandHandler.execute
  split
  · exact orderly_greet hhost verb args s
  · exact orderly_mailFrom args s
  · exact orderly_rcptTo args s
  · exact orderly_data s
  · exact orderly_ok
  · exact orderly_ok
  · exact orderly_line (by decide) (by decide)
  · exact orderly_line (by decide) (by decide)
  · exact orderly_closing hhost

theorem orderly_dispatch (chain : CommandChain) (line : String) :
    (chain.dispatch setup line s).outcome.reply.Orderly := by
  rw [outcome_dispatch]
  split
  · exact orderly_line (by decide) (by decide)
  · exact orderly_execute hhost _ _ s _

/-- Every reply to a line can be written, as long as the store names its messages decently. -/
theorem orderly_response {chain : CommandChain} {r : Receiver} {e : Encoding} {raw : Bytes}
    {answer : SaveAnswer} (hname : ∀ entry, answer = .ok entry → OneLine entry.name)
    {reply : Reply} (h : (r.line chain setup e raw answer).2.reply = some reply) :
    reply.Orderly := by
  obtain ⟨s, mode⟩ := r
  cases mode with
  | commands =>
    simp only [Receiver.line, Receiver.command] at h
    split at h
    · cases h
      exact orderly_line (by decide) (by decide)
    split at h
    · cases h
    · cases h
      exact orderly_dispatch hhost s chain _
  | data overflowed =>
    simp only [Receiver.line, complete] at h
    split at h
    · split at h
      · cases h
        exact orderly_tooLarge setup.maxSize
      · cases answer with
        | ok entry =>
          cases h
          exact orderly_queued (hname entry rfl)
        | error f =>
          cases h
          exact orderly_line (by decide) (by decide)
    · cases h

end Commands

/-! ## Which lines call for a reply -/

namespace Turn

def captures (inside : Bool) (t : Turn) : Bool :=
  if inside then t.raw ≠ terminator else t.code? = some 354

/-- Whether a line calls for a reply: the dot behind a message does, and any command that is too
long or not blank. -/
def calls (inside : Bool) (t : Turn) : Bool :=
  if inside then t.raw = terminator
  else maxCommandLine < t.raw.length || !Text.blankText t.text

end Turn

/-- Whether what comes next is a line of a message. -/
def capturing (inside : Bool) (ts : List Turn) : Bool := ts.foldl Turn.captures inside

def calling (inside : Bool) : List Turn → List Turn
  | [] => []
  | t :: ts =>
    if t.calls inside then t :: calling (t.captures inside) ts else calling (t.captures inside) ts

theorem capturing_concat (inside : Bool) (ts : List Turn) (t : Turn) :
    capturing inside (ts ++ [t]) = t.captures (capturing inside ts) := by
  rw [capturing, List.foldl_append]
  rfl

theorem calling_concat (inside : Bool) (ts : List Turn) (t : Turn) :
    calling inside (ts ++ [t]) =
      calling inside ts ++ if t.calls (capturing inside ts) then [t] else [] := by
  induction ts generalizing inside with
  | nil => rfl
  | cons u ts ih =>
    rw [List.cons_append, calling, calling, ih]
    split <;> rfl

section Line
variable {setup : Setup} {r : Receiver} (e : Encoding) (raw : Bytes) (answer : SaveAnswer)

/-- The code of a reply tells what follows. -/
def Foretells (code : Nat) (next : Next) : Prop :=
  (code = 354 ↔ next = .captureData) ∧ (code = 221 ↔ next = .quit)

instance (code : Nat) (next : Next) : Decidable (Foretells code next) := by
  unfold Foretells
  infer_instance

theorem foretells_of_effect {args : String} {s : Session} {kind : CommandKind} {outcome : Outcome}
    (h : Effect setup args s kind outcome) : Foretells outcome.reply.code outcome.next := by
  cases h with
  | refused reply _ hrefused =>
    have hrange : reply.code < 200 ∨ 400 ≤ reply.code := by
      simp only [Reply.isPositive, Bool.and_eq_false_iff, decide_eq_false_iff_not] at hrefused
      omega
    show Foretells reply.code .proceed
    exact ⟨iff_of_false (by omega) Next.noConfusion, iff_of_false (by omega) Next.noConfusion⟩
  | greeted domain reply hcode =>
    rw [hcode]
    exact show Foretells 250 .proceed by decide
  | sender | recipient | reset | noop => exact show Foretells 250 .proceed by decide
  | data => exact show Foretells 354 .captureData by decide
  | verify => exact show Foretells 252 .proceed by decide
  | help => exact show Foretells 214 .proceed by decide
  | quit => exact show Foretells 221 .quit by decide

theorem foretells_dispatch (setup : Setup) (line : String) (s : Session) :
    Foretells (CommandChain.standard.dispatch setup line s).outcome.reply.code
      (CommandChain.standard.dispatch setup line s).outcome.next := by
  rcases standard_effect setup s line with ⟨kind, -, heffect⟩ | ⟨-, hout⟩
  · exact foretells_of_effect heffect
  · rw [hout]
    exact show Foretells 500 .proceed by decide

theorem modeAfter_eq_commands_iff (next : Next) :
    modeAfter next = .commands ↔ next ≠ .captureData := by
  cases next <;> decide

theorem flowAfter_eq_proceed_iff (next : Next) : flowAfter next = .proceed ↔ next ≠ .quit := by
  cases next <;> decide

variable (setup)

/-- A command is answered if it is too long or not blank. The reply tells whether a message comes
next, and whether anything does. -/
theorem command_calls (hmode : r.mode = .commands) :
    let out := r.line .standard setup e raw answer
    let t : Turn := ⟨raw, e, answer, out.2⟩
    out.2.reply.isSome = t.calls false ∧ (out.1.mode = .commands ↔ t.captures false = false) ∧
      (out.2.flow = .proceed ↔ t.code? ≠ some 221) := by
  obtain ⟨s, mode⟩ := r
  obtain rfl := hmode
  by_cases hlong : maxCommandLine < raw.length
  · simp [Receiver.line, Turn.calls, Turn.captures, Turn.code?, hlong, Reply.lineTooLong,
      Reply.line]
  · by_cases hblank : Text.blankText (e.decode raw) = true
    · simp [Receiver.line, Receiver.command, Turn.calls, Turn.captures, Turn.code?, Turn.text,
        hlong, hblank]
    · have hforetells := foretells_dispatch setup (e.decode raw) s
      generalize hout : (CommandChain.standard.dispatch setup (e.decode raw) s).outcome = outcome
        at hforetells
      simp [Receiver.line, Receiver.command, Turn.calls, Turn.captures, Turn.code?, Turn.text,
        hlong, hblank, hout, hforetells.1, hforetells.2, modeAfter_eq_commands_iff,
        flowAfter_eq_proceed_iff]

/-- Of the lines of a message only the dot is answered, and commands come after it. -/
theorem data_calls (hmode : r.mode ≠ .commands) :
    let out := r.line .standard setup e raw answer
    let t : Turn := ⟨raw, e, answer, out.2⟩
    out.2.reply.isSome = t.calls true ∧ (out.1.mode = .commands ↔ t.captures true = false) ∧
      (out.2.flow = .proceed ↔ t.code? ≠ some 221) := by
  obtain ⟨s, mode⟩ := r
  cases mode with
  | commands => exact absurd rfl hmode
  | data overflowed =>
    by_cases hdot : raw = terminator
    · have hreply : ∃ reply, (complete setup.maxSize s overflowed answer).reply = some reply ∧
          reply.code ≠ 221 := by
        unfold complete
        split
        · exact ⟨_, rfl, show 552 ≠ 221 by decide⟩
        · cases answer with
          | ok entry => exact ⟨_, rfl, show 250 ≠ 221 by decide⟩
          | error f => exact ⟨_, rfl, show 451 ≠ 221 by decide⟩
      have hflow : (complete setup.maxSize s overflowed answer).flow = .proceed := by
        unfold complete
        split
        · rfl
        · cases answer <;> rfl
      obtain ⟨reply, hreply, hcode⟩ := hreply
      simp [Receiver.line, Turn.calls, Turn.captures, Turn.code?, hdot, hreply, hcode, hflow]
    · obtain ⟨now, hnow⟩ := capture_mode setup.maxSize s overflowed raw
      simp [Receiver.line, Turn.calls, Turn.captures, Turn.code?, hdot, hnow]

/-- Only after a farewell nothing more is heard. -/
theorem flow_iff :
    (r.line .standard setup e raw answer).2.flow = .proceed ↔
      (Turn.mk raw e answer (r.line .standard setup e raw answer).2).code? ≠ some 221 := by
  by_cases hmode : r.mode = .commands
  · exact (command_calls setup e raw answer hmode).2.2
  · exact (data_calls setup e raw answer hmode).2.2

end Line

/-! ## Sessions -/

variable {ω : Type} {setup : Setup} {keep : Keep ω} {k : Talk ω}

def Keep.NamesOnOneLine (keep : Keep ω) : Prop :=
  ∀ store data entry, (keep store data).1 = .ok entry → OneLine entry.name

/-- What was written in a talk are the replies that were called for. -/
structure Talk.InStep (k : Talk ω) : Prop where
  mode : k.service.1.mode = .commands ↔ capturing false k.turns = false
  wire : k.turns.flatMap (·.response.wire) = ((calling false k.turns).map (·.response.wire)).flatten
  replies : ∀ t ∈ calling false k.turns, WireReply t.response.wire

theorem Talk.ask_name (hkeep : keep.NamesOnOneLine) (k : Talk ω) (raw : Bytes) :
    ∀ entry, (k.service.ask keep raw).1 = .ok entry → OneLine entry.name := by
  intro entry h
  unfold Service.ask at h
  split at h
  · exact hkeep _ _ entry h
  · cases h

theorem Talk.InStep.hear (hhost : OneLine setup.hostname) (hkeep : keep.NamesOnOneLine)
    (h : k.InStep) (raw : Bytes) : (k.hear .standard setup keep raw).1.InStep := by
  obtain ⟨inside, hinside⟩ : ∃ inside, capturing false k.turns = inside := ⟨_, rfl⟩
  have hmode := h.mode
  rw [hinside] at hmode
  have hline : (k.turn .standard setup keep raw).response.reply.isSome =
        (k.turn .standard setup keep raw).calls inside ∧
      ((k.hear .standard setup keep raw).1.service.1.mode = .commands ↔
        (k.turn .standard setup keep raw).captures inside = false) := by
    cases inside with
    | false =>
      obtain ⟨hcalls, hcaptures, -⟩ :=
        command_calls setup k.encoding raw (k.service.ask keep raw).1 (hmode.mpr rfl)
      exact ⟨hcalls, hcaptures⟩
    | true =>
      obtain ⟨hcalls, hcaptures, -⟩ :=
        data_calls setup k.encoding raw (k.service.ask keep raw).1
          (fun hc => Bool.noConfusion (hmode.mp hc))
      exact ⟨hcalls, hcaptures⟩
  obtain ⟨hcalls, hcaptures⟩ := hline
  refine ⟨?_, ?_, ?_⟩
  · rw [Talk.turns_hear, capturing_concat, hinside]
    exact hcaptures
  · rw [Talk.turns_hear, calling_concat, hinside, ← hcalls, List.flatMap_append, List.map_append,
      List.flatten_append, h.wire, List.flatMap_singleton]
    cases hreply : (k.turn .standard setup keep raw).response.reply with
    | none => simp [Response.wire, hreply]
    | some reply => simp
  · intro t ht
    rw [Talk.turns_hear, calling_concat, hinside, ← hcalls] at ht
    rcases List.mem_append.mp ht with ht | ht
    · exact h.replies t ht
    · cases hreply : (k.turn .standard setup keep raw).response.reply with
      | none => simp [hreply] at ht
      | some reply =>
        simp only [hreply, Option.isSome_some, if_true, List.mem_singleton] at ht
        have horderly : reply.Orderly :=
          orderly_response hhost (k.ask_name hkeep raw) hreply
        rw [ht, Response.wire, hreply]
        exact horderly.wire _

/-- Nothing is heard after a farewell. -/
theorem Talk.open_hearAll (setup : Setup) (keep : Keep ω) {k : Talk ω}
    (hk : ∀ t ∈ k.turns, t.code? ≠ some 221) (ls : List Bytes) :
    ∀ t ∈ (k.hearAll .standard setup keep ls).turns.dropLast, t.code? ≠ some 221 := by
  induction ls generalizing k with
  | nil => exact fun t ht => hk t (List.dropLast_subset k.turns ht)
  | cons l ls ih =>
    obtain ⟨k', flow, h⟩ : ∃ k' flow, k.hear .standard setup keep l = (k', flow) := ⟨_, _, rfl⟩
    have hturns : k'.turns = k.turns ++ [k.turn .standard setup keep l] := by
      rw [← Talk.turns_hear, h]
    have hflow : flow = .proceed ↔ (k.turn .standard setup keep l).code? ≠ some 221 := by
      have hsame : flow = (k.service.1.line .standard setup k.encoding l
          (k.service.ask keep l).1).2.flow := (congrArg Prod.snd h).symm
      rw [hsame]
      exact flow_iff setup k.encoding l (k.service.ask keep l).1
    by_cases hf : flow = .proceed
    · have hall : k.hearAll .standard setup keep (l :: ls) =
          k'.hearAll .standard setup keep ls := by
        subst hf
        simp only [Talk.hearAll, handover_cons_of_proceed _ h]
      rw [hall]
      apply ih
      rw [hturns]
      exact List.forall_mem_append.mpr ⟨hk, List.forall_mem_singleton.mpr (hflow.mp hf)⟩
    · have hall : k.hearAll .standard setup keep (l :: ls) = k' := by
        simp only [Talk.hearAll, handover_cons_of_stop _ h hf]
      rw [hall, hturns, List.dropLast_concat]
      exact hk

/-- What a whole session comes to is what the talk comes to that is made of its lines. -/
theorem run_hearAll (setup : Setup) (keep : Keep ω) (store : ω) (id : Nat)
    (peer : Option SocketAddress) (now : Nat) (input : List Incoming) :
    let k := Talk.hearAll .standard setup keep { service := ({}, { store }) }
      (lines (dropReturns (Incoming.received input)))
    let session := (LineSession.run (Service.protocol .standard setup keep)
      { channel := { connection := { id, peer }, now }, state := ({}, { store }) } input).1
    session.state = k.service ∧
      session.channel.sent = Encoding.latin1.encode (Reply.greeting setup.hostname).format ++
        k.turns.flatMap (·.response.wire) := by
  let fresh : Talk ω := { service := ({}, { store }) }
  let greeted : Channel :=
    { connection := { id, peer, lastActivity := now }
      sent := Encoding.latin1.encode (Reply.greeting setup.hostname).format, now }
  have hcarries : Carries greeted.sent (greeted, fresh.service) fresh :=
    ⟨⟨rfl, fun _ _ => rfl⟩, rfl, (List.append_nil _).symm, rfl⟩
  exact receive_carries .standard setup keep
    (s := { channel := greeted, state := fresh.service }) hcarries List.not_mem_nil input

/-- The bytes that a session sends are the greeting and one reply for each line that calls for one,
in the order of the lines and up to a farewell. They can be split into replies in this way only, and
no row of a reply has a line break inside. -/
theorem replies_in_step (hhost : OneLine setup.hostname) (hkeep : keep.NamesOnOneLine) (store : ω)
    (id : Nat) (peer : Option SocketAddress) (now : Nat) (input : List Incoming) :
    let received := lines (dropReturns (Incoming.received input))
    let ts := transcript setup keep store (Incoming.received input)
    let session := (LineSession.run (Service.protocol .standard setup keep)
      { channel := { connection := { id, peer }, now }, state := ({}, { store }) } input).1
    let replies := Encoding.latin1.encode (Reply.greeting setup.hostname).format ::
      (calling false ts).map (·.response.wire)
    (session.channel.sent = replies.flatten ∧ (∀ r ∈ replies, WireReply r) ∧
        ∀ rs, (∀ r ∈ rs, Framed r) → rs.flatten = session.channel.sent → rs = replies) ∧
      (session.state.1.mode = .commands ↔ capturing false ts = false) ∧
      (∀ t ∈ ts.dropLast, t.code? ≠ some 221) ∧
      (ts.map (·.raw) = received ∨ ts.map (·.raw) <+: received ∧
        ∃ before last, ts = before ++ [last] ∧
          last.kind? = some .quit ∧ last.code? = some 221) := by
  intro received ts session replies
  let fresh : Talk ω := { service := ({}, { store }) }
  have hstep : (fresh.hearAll .standard setup keep received).InStep :=
    handover_invariant _ (fun _ l hk => hk.hear hhost hkeep l)
      ⟨iff_of_true rfl rfl, rfl, List.forall_mem_nil _⟩ received
  obtain ⟨hstate, hsent⟩ := run_hearAll setup keep store id peer now input
  have hreplies : ∀ r ∈ replies, WireReply r := by
    refine List.forall_mem_cons.mpr ⟨(Reply.orderly_greeting hhost).wire .latin1, ?_⟩
    exact List.forall_mem_map.mpr hstep.replies
  have hflatten : session.channel.sent = replies.flatten := by
    rw [List.flatten_cons]
    exact hsent.trans (congrArg _ hstep.wire)
  refine ⟨⟨hflatten, hreplies, ?_⟩, ?_, ?_, ?_⟩
  · intro rs hframed heq
    exact framed_unique hframed (fun r hr => (hreplies r hr).framed) (heq.trans hflatten)
  · exact (congrArg (fun v : Service ω => v.1.mode = .commands) hstate) ▸ hstep.mode
  · exact Talk.open_hearAll setup keep (List.forall_mem_nil _) received
  · obtain ⟨raws, hraws, hcases⟩ := Talk.raws_hearAll setup keep fresh received
    exact hraws ▸ hcases

/-! ### A visit -/

theorem memoryStore_namesOnOneLine : Keep.NamesOnOneLine MemoryStore.save := by
  intro store data entry h
  simp only [MemoryStore.save] at h
  split at h
  · cases h
  · cases h
    exact (OneLine.append (by decide) (oneLine_toString (store.attempts + 1))).append (by decide)

/-- A client that leaves a blank line between its commands and goes on after the farewell. -/
def visit : Bytes :=
  Utf8.encode ("EHLO me\r\n\r\nMAIL FROM:<a@b.com>\r\nRCPT TO:<c@d.com>\r\nDATA\r\n" ++
    "hi\r\n.\r\nQUIT\r\nNOOP\r\n")

theorem replies_in_step_visit :
    OneLine "sink.test" ∧ Keep.NamesOnOneLine MemoryStore.save ∧
      (LineSession.run (Service.protocol .standard ⟨"sink.test", 1000⟩ MemoryStore.save)
        { channel := { connection := { id := 1 } }, state := ({}, { store := {} }) }
        [.bytes visit]).1.channel.sent =
      (["220 sink.test ESMTP mailsink ready\r\n",
        "250-sink.test Hello me\r\n250-8BITMIME\r\n250-SMTPUTF8\r\n250-SIZE 1000\r\n250 HELP\r\n",
        "250 OK\r\n", "250 OK\r\n", "354 Start mail input; end with <CRLF>.<CRLF>\r\n",
        "250 OK: message queued as msg-1.eml\r\n",
        "221 sink.test closing connection\r\n"].map Utf8.encode).flatten := by
  have hhost : OneLine "sink.test" := by decide
  obtain ⟨⟨hsent, -, -⟩, -⟩ := replies_in_step
    (show OneLine (Setup.mk "sink.test" 1000).hostname from hhost) memoryStore_namesOnOneLine
    {} 1 none 0 [.bytes visit]
  refine ⟨hhost, memoryStore_namesOnOneLine, hsent.trans ?_⟩
  decide +kernel

end Letterbox.Smtp
