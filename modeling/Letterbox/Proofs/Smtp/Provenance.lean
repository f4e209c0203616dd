import Letterbox.Proofs.Smtp.Transcript
import Mathlib.Data.List.TakeWhile

/-!
# Where stored mail comes from

A ledger is kept of a transcript by looking only at what is on the wire: the lines of the client and
the codes of the replies. It knows the commands of the transaction that is open, and the lines of
the message that is being sent. Every save and every announcement of a session is accounted for by
the ledger as it stood before, and by nothing else.
-/

namespace Letterbox.Smtp

set_option autoImplicit false

open Lines Receiver

/-- What an observer knows: the commands since the transaction began, and the lines of the message
that is being sent, if one is. -/
structure Ledger where
  commands : List Turn := []
  body : Option (List Bytes) := none

namespace Turn

/-- A command that begins a new transaction. -/
def startsOver (t : Turn) : Bool :=
  (t.kind? = some .reset && t.raw.length ≤ maxCommandLine) ||
    (t.kind? = some .greeting && t.code? = some 250)

def grants (t : Turn) (kind : CommandKind) : Bool := t.kind? = some kind && t.code? = some 250

end Turn

namespace Ledger

/-- A line of a message goes on until a single dot; a reply 354 begins one. -/
def add (l : Ledger) (t : Turn) : Ledger :=
  match l.body with
  | some ls => if t.raw = terminator then {} else { l with body := some (ls ++ [t.raw]) }
  | none =>
    if t.startsOver then {}
    else { commands := l.commands ++ [t], body := if t.code? = some 354 then some [] else none }

def ofTurns (ts : List Turn) : Ledger := ts.foldl add {}

/-- The addresses of the commands of one kind that were granted in this transaction. -/
def granted (l : Ledger) (kind : CommandKind) (keyword : String) : List (Option String) :=
  (l.commands.filter (·.grants kind)).map (·.address? keyword)

def captured (ls : List Bytes) : Bytes := ls.flatMap fun l => unstuff l ++ crlf

/-- The message that is handed over if the next line is a single dot. -/
def due? (l : Ledger) (maxSize : Nat) (raw : Bytes) : Option Bytes :=
  match l.body with
  | some ls =>
    if raw = terminator ∧ (captured ls).length ≤ maxSize then some (captured ls) else none
  | none => none

theorem ofTurns_concat (ts : List Turn) (t : Turn) : ofTurns (ts ++ [t]) = (ofTurns ts).add t := by
  rw [ofTurns, List.foldl_append]
  rfl

theorem captured_concat (ls : List Bytes) (l : Bytes) :
    captured (ls ++ [l]) = captured ls ++ unstuff l ++ crlf := by
  simp only [captured, List.flatMap_append, List.flatMap_singleton, List.append_assoc]

end Ledger

/-- A turn saves the message that is due and nothing else. If the store takes it, it is announced
once, with its sender and its recipients, and the client is told so; otherwise only the client is
told. -/
def Accounted (setup : Setup) (l : Ledger) (t : Turn) : Prop :=
  match l.due? setup.maxSize t.raw with
  | none => t.response.saved = none ∧ t.response.event = none
  | some message =>
    t.response.saved = some message ∧
      ∃ sender recipients, l.granted .mailFrom "FROM:" = [some sender] ∧
        l.granted .rcptTo "TO:" = recipients.map some ∧
        match t.answer with
        | .ok entry =>
          t.response.event =
              some (.newMessage { path := entry.path, sender, recipients, size := entry.size }) ∧
            t.response.reply = some (.queued entry.name)
        | .error _ => t.response.event = none ∧ t.response.reply = some .notStored

/-- What a receiver knows of the message that is being sent. -/
inductive Captures (maxSize : Nat) (ls : List Bytes) : Mode → Bytes → Prop where
  | kept : (Ledger.captured ls).length ≤ maxSize →
    Captures maxSize ls (.data false) (Ledger.captured ls)
  | overflowed (message : Bytes) : maxSize < (Ledger.captured ls).length →
    Captures maxSize ls (.data true) message

structure Agrees (setup : Setup) (l : Ledger) (r : Receiver) : Prop where
  sender : l.granted .mailFrom "FROM:" = (r.session.sender.map some).toList
  recipients : l.granted .rcptTo "TO:" = r.session.recipients.map some
  commands : l.body = none → r.mode = .commands
  data : ∀ ls, l.body = some ls →
    r.session.sender.isSome ∧ Captures setup.maxSize ls r.mode r.session.message

variable {setup : Setup} {l : Ledger} {r : Receiver}

theorem agrees_fresh : Agrees setup {} {} := ⟨rfl, rfl, fun _ => rfl, fun _ h => by cases h⟩

theorem capture_envelope (maxSize : Nat) (s : Session) (overflowed : Bool) (raw : Bytes) :
    (capture maxSize s overflowed raw).session.sender = s.sender ∧
      (capture maxSize s overflowed raw).session.recipients = s.recipients := by
  simp only [capture]
  split
  · exact ⟨rfl, rfl⟩
  · split <;> exact ⟨rfl, rfl⟩

theorem capture_mode (maxSize : Nat) (s : Session) (overflowed : Bool) (raw : Bytes) :
    ∃ now, (capture maxSize s overflowed raw).mode = .data now := by
  simp only [capture]
  split
  · exact ⟨true, rfl⟩
  · split
    · exact ⟨true, rfl⟩
    · exact ⟨false, rfl⟩

/-- The size is checked line by line as if it were checked once, at the end. -/
theorem captures_concat {ls : List Bytes} {s : Session} {overflowed : Bool} (raw : Bytes)
    (h : Captures setup.maxSize ls (.data overflowed) s.message) :
    Captures setup.maxSize (ls ++ [raw]) (capture setup.maxSize s overflowed raw).mode
      (capture setup.maxSize s overflowed raw).session.message := by
  have hlen : (Ledger.captured (ls ++ [raw])).length =
      (Ledger.captured ls).length + (unstuff raw).length + 2 := by
    rw [Ledger.captured_concat, List.length_append, List.length_append]
    rfl
  cases overflowed with
  | true =>
    cases h with
    | overflowed _ hover => exact .overflowed _ (by omega)
  | false =>
    generalize hm : s.message = message at h
    cases h with
    | kept hkept =>
      simp only [capture, Bool.false_eq_true, if_false, hm]
      split
      · exact .overflowed _ (by omega)
      · rw [← Ledger.captured_concat]
        exact .kept (by omega)

/-! ## Commands -/

theorem add_command {t : Turn} (hb : l.body = none) (hstart : t.startsOver = false) :
    l.add t =
      { commands := l.commands ++ [t], body := if t.code? = some 354 then some [] else none } := by
  simp only [Ledger.add, hb, hstart, Bool.false_eq_true, if_false]

theorem add_startsOver {t : Turn} (hb : l.body = none) (hstart : t.startsOver = true) :
    l.add t = {} := by
  simp only [Ledger.add, hb, hstart, if_true]

theorem granted_concat (l : Ledger) (t : Turn) (body : Option (List Bytes)) (kind : CommandKind)
    (keyword : String) :
    Ledger.granted { commands := l.commands ++ [t], body } kind keyword =
      l.granted kind keyword ++ if t.grants kind then [t.address? keyword] else [] := by
  simp only [Ledger.granted, List.filter_append, List.map_append, List.filter_cons, List.filter_nil]
  cases t.grants kind <;> rfl

/-- A command that is neither granted nor begins anything leaves receiver and ledger in
agreement. -/
theorem agrees_unchanged {t : Turn} (h : Agrees setup l r) (hb : l.body = none)
    (hstart : t.startsOver = false) (hcode : t.code? ≠ some 354)
    (hmail : t.grants .mailFrom = false) (hrcpt : t.grants .rcptTo = false) :
    Agrees setup (l.add t) ⟨r.session, .commands⟩ := by
  rw [add_command hb hstart, if_neg hcode]
  refine ⟨?_, ?_, fun _ => rfl, fun _ h => by cases h⟩
  · rw [granted_concat, hmail, if_neg Bool.false_ne_true, List.append_nil]
    exact h.sender
  · rw [granted_concat, hrcpt, if_neg Bool.false_ne_true, List.append_nil]
    exact h.recipients

theorem agrees_unknown {t : Turn} (h : Agrees setup l r) (hb : l.body = none)
    (hkind : t.kind? = none) (hcode : t.code? ≠ some 354) :
    Agrees setup (l.add t) ⟨r.session, .commands⟩ := by
  apply agrees_unchanged h hb
  · simp [Turn.startsOver, hkind]
  · exact hcode
  · simp [Turn.grants, hkind]
  · simp [Turn.grants, hkind]

theorem agrees_ungranted {t : Turn} (h : Agrees setup l r) (hb : l.body = none)
    (hreset : t.kind? = some .reset → maxCommandLine < t.raw.length)
    (hcode : t.code? ≠ some 250) (hcode' : t.code? ≠ some 354) :
    Agrees setup (l.add t) ⟨r.session, .commands⟩ := by
  apply agrees_unchanged h hb
  · simpa [Turn.startsOver, hcode] using hreset
  · exact hcode'
  · simp [Turn.grants, hcode]
  · simp [Turn.grants, hcode]

theorem agrees_reset (hb : l.body = none) {t : Turn} (hstart : t.startsOver = true)
    (helo : Option String) : Agrees setup (l.add t) ⟨{ helo }, .commands⟩ := by
  rw [add_startsOver hb hstart]
  exact ⟨rfl, rfl, fun _ => rfl, fun _ h => by cases h⟩

/-- The ledger follows every command by its verb and the code of its reply. -/
theorem agrees_of_effect {t : Turn} {kind : CommandKind} {outcome : Outcome}
    (h : Agrees setup l r) (hb : l.body = none) (hk : t.kind? = some kind)
    (hcode : t.code? = some outcome.reply.code) (hlen : t.raw.length ≤ maxCommandLine)
    (heffect : Effect setup (splitVerb t.text).2 r.session kind outcome) :
    Agrees setup (l.add t) ⟨outcome.session, modeAfter outcome.next⟩ := by
  cases heffect with
  | refused reply hkind hrefused =>
    have h250 : reply.code ≠ 250 := by
      intro h250
      simp [Reply.isPositive, h250] at hrefused
    have h354 : reply.code ≠ 354 := by
      intro h354
      simp [Reply.isPositive, h354] at hrefused
    apply agrees_ungranted h hb
    · intro hreset
      rw [hk, Option.some.injEq] at hreset
      simp [hreset] at hkind
    · simpa only [hcode, ne_eq, Option.some.injEq] using h250
    · simpa only [hcode, ne_eq, Option.some.injEq] using h354
  | greeted domain reply h250 =>
    apply agrees_reset hb
    simp [Turn.startsOver, hk, hcode, h250]
  | sender address utf8 hnone haddress =>
    have hempty : l.granted .mailFrom "FROM:" = [] := by rw [h.sender, hnone]; rfl
    rw [add_command hb (by simp [Turn.startsOver, hk])]
    refine ⟨?_, ?_, fun _ => rfl, fun ls hls => by simp [hcode, Reply.ok, Reply.line] at hls⟩
    · have hnamed : t.address? "FROM:" = some address := haddress
      rw [granted_concat, if_pos (by simp [Turn.grants, hk, hcode, Reply.ok, Reply.line]), hempty,
        hnamed]
      rfl
    · rw [granted_concat, if_neg (by simp [Turn.grants, hk]), List.append_nil]
      exact h.recipients
  | recipient address hsome hroom haddress =>
    rw [add_command hb (by simp [Turn.startsOver, hk])]
    refine ⟨?_, ?_, fun _ => rfl, fun ls hls => by simp [hcode, Reply.ok, Reply.line] at hls⟩
    · rw [granted_concat, if_neg (by simp [Turn.grants, hk]), List.append_nil]
      exact h.sender
    · have hnamed : t.address? "TO:" = some address := haddress
      rw [granted_concat, if_pos (by simp [Turn.grants, hk, hcode, Reply.ok, Reply.line]),
        List.map_append, h.recipients, hnamed]
      rfl
  | data hsome hrecipients =>
    rw [add_command hb (by simp [Turn.startsOver, hk]),
      if_pos (by simp [hcode, Reply.startData, Reply.line])]
    refine ⟨?_, ?_, fun h => (by cases h), ?_⟩
    · rw [granted_concat, if_neg (by simp [Turn.grants, hk]), List.append_nil]
      exact h.sender
    · rw [granted_concat, if_neg (by simp [Turn.grants, hk]), List.append_nil]
      exact h.recipients
    · intro ls hls
      cases hls
      exact ⟨hsome, .kept (Nat.zero_le _)⟩
  | reset =>
    apply agrees_reset hb
    simp [Turn.startsOver, hk, hlen]
  | noop | verify | help | quit =>
    apply agrees_unchanged h hb
    · simp [Turn.startsOver, hk]
    · simp [hcode, Reply.ok, Reply.line, verifyReply, helpReply, Reply.closing]
    · simp [Turn.grants, hk]
    · simp [Turn.grants, hk]

theorem ofVerb?_of_blankText {text : String} (h : Text.blankText text = true) :
    CommandKind.ofVerb? (splitVerb text).1 = none := by
  have hskip : Text.skipBlanks text.toList = [] := by
    rw [Text.skipBlanks, List.dropWhile_eq_nil_iff]
    exact List.all_eq_true.mp h
  have hverb : (splitVerb text).1 = "" := by
    simp only [splitVerb, hskip]
    rfl
  rw [hverb]
  decide

/-! ## Lines -/

theorem accounted_of_quiet {t : Turn} (hdue : l.due? setup.maxSize t.raw = none)
    (hsaved : t.response.saved = none) (hevent : t.response.event = none) :
    Accounted setup l t := by
  simp only [Accounted, hdue]
  exact ⟨hsaved, hevent⟩

section Line
variable (e : Encoding) (raw : Bytes) (answer : SaveAnswer)

theorem command_accounted (h : Agrees setup l r) (hb : l.body = none) :
    let out := r.line .standard setup e raw answer
    Accounted setup l ⟨raw, e, answer, out.2⟩ ∧
      Agrees setup (l.add ⟨raw, e, answer, out.2⟩) out.1 := by
  have hmode := h.commands hb
  have hdue : l.due? setup.maxSize raw = none := by simp only [Ledger.due?, hb]
  by_cases hlong : maxCommandLine < raw.length
  · simp only [Receiver.line, hmode, if_pos hlong]
    refine ⟨accounted_of_quiet hdue rfl rfl, ?_⟩
    obtain ⟨s, mode⟩ := r
    cases hmode
    apply agrees_ungranted h hb (fun _ => hlong)
    · simp [Turn.code?, Reply.lineTooLong, Reply.line]
    · simp [Turn.code?, Reply.lineTooLong, Reply.line]
  · simp only [Receiver.line, hmode, if_neg hlong, Receiver.command]
    split
    · rename_i hblank
      refine ⟨accounted_of_quiet hdue rfl rfl, ?_⟩
      apply agrees_unknown h hb
      · exact ofVerb?_of_blankText hblank
      · simp [Turn.code?]
    · refine ⟨accounted_of_quiet hdue rfl rfl, ?_⟩
      rcases standard_effect setup r.session (e.decode raw) with ⟨kind, hk, heffect⟩ | ⟨hk, hout⟩
      · exact agrees_of_effect h hb hk rfl (Nat.le_of_not_lt hlong) heffect
      · simp only [hout]
        apply agrees_unknown h hb
        · exact hk
        · simp [Turn.code?, Reply.unrecognized, Reply.line]

theorem data_accounted {ls : List Bytes} (h : Agrees setup l r) (hb : l.body = some ls) :
    let out := r.line .standard setup e raw answer
    Accounted setup l ⟨raw, e, answer, out.2⟩ ∧
      Agrees setup (l.add ⟨raw, e, answer, out.2⟩) out.1 := by
  obtain ⟨hsome, hcaptures⟩ := h.data ls hb
  obtain ⟨s, mode⟩ := r
  obtain ⟨sender, hsender⟩ : ∃ sender, s.sender = some sender := Option.isSome_iff_exists.mp hsome
  cases mode with
  | commands => cases hcaptures
  | data overflowed =>
    by_cases hdot : raw = terminator
    · have hadd : ∀ response, l.add ⟨raw, e, answer, response⟩ = {} := by
        intro response
        simp only [Ledger.add, hb, if_pos hdot]
      simp only [Receiver.line, if_pos hdot, hadd]
      refine ⟨?_, rfl, rfl, fun _ => rfl, fun _ h => by cases h⟩
      generalize hm : s.message = message at hcaptures
      cases hcaptures with
      | overflowed _ hover =>
        refine accounted_of_quiet ?_ rfl rfl
        simp only [Ledger.due?, hb, Nat.not_le_of_lt hover, and_false, if_false]
      | kept hkept =>
        simp only [Accounted, Ledger.due?, hb, hdot, hkept, and_self, if_true, Receiver.complete,
          Bool.false_eq_true, if_false]
        have hmail : l.granted .mailFrom "FROM:" = [some sender] := by
          rw [h.sender, hsender]
          rfl
        cases answer with
        | ok entry =>
          refine ⟨congrArg some hm, sender, s.recipients, hmail, h.recipients, ?_, rfl⟩
          simp only [announcement, hsender, Option.getD_some]
        | error f => exact ⟨congrArg some hm, sender, s.recipients, hmail, h.recipients, rfl, rfl⟩
    · simp only [Receiver.line, if_neg hdot]
      constructor
      · refine accounted_of_quiet ?_ rfl rfl
        simp only [Ledger.due?, hb, hdot, false_and, if_false]
      · have henvelope := capture_envelope setup.maxSize s overflowed raw
        simp only [Ledger.add, hb, if_neg hdot]
        refine ⟨?_, ?_, fun h => (by cases h), ?_⟩
        · rw [henvelope.1]
          exact h.sender
        · rw [henvelope.2]
          exact h.recipients
        · intro ks hks
          cases hks
          exact ⟨henvelope.1 ▸ hsome, captures_concat raw hcaptures⟩

theorem line_accounted (h : Agrees setup l r) :
    let out := r.line .standard setup e raw answer
    Accounted setup l ⟨raw, e, answer, out.2⟩ ∧
      Agrees setup (l.add ⟨raw, e, answer, out.2⟩) out.1 := by
  cases hb : l.body with
  | none => exact command_accounted e raw answer h hb
  | some ls => exact data_accounted e raw answer h hb

/-- The store is asked exactly for what is saved. -/
theorem saved_line (chain : CommandChain) (setup : Setup) :
    (r.line chain setup e raw answer).2.saved = r.toSave? raw := by
  obtain ⟨s, mode⟩ := r
  cases mode with
  | commands =>
    simp only [Receiver.line, Receiver.toSave?, Receiver.command]
    split
    · rfl
    · split <;> rfl
  | data overflowed =>
    simp only [Receiver.line, Receiver.toSave?]
    by_cases hdot : raw = terminator
    · cases overflowed with
      | true => simp only [if_pos hdot, Receiver.complete, if_true]
      | false =>
        simp only [if_pos hdot, Receiver.complete, Bool.false_eq_true, if_false]
        cases answer <;> rfl
    · cases overflowed <;> simp only [if_neg hdot]

/-- Only a farewell ends a session. -/
theorem flow_line (h : (r.line .standard setup e raw answer).2.flow ≠ .proceed) :
    let t : Turn := ⟨raw, e, answer, (r.line .standard setup e raw answer).2⟩
    t.kind? = some .quit ∧ t.code? = some 221 := by
  obtain ⟨s, mode⟩ := r
  cases mode with
  | data overflowed =>
    simp only [Receiver.line] at h
    split at h
    · simp only [complete] at h
      split at h
      · exact absurd rfl h
      · split at h <;> exact absurd rfl h
    · exact absurd rfl h
  | commands =>
    simp only [Receiver.line, Receiver.command] at h ⊢
    split at h
    · exact absurd rfl h
    · rename_i hshort
      split at h
      · exact absurd rfl h
      · rename_i hblank
        rw [if_neg hshort, if_neg hblank]
        rcases standard_effect setup s (e.decode raw) with ⟨kind, hk, heffect⟩ | ⟨-, hout⟩
        · generalize (CommandChain.standard.dispatch setup (e.decode raw) s).outcome = outcome
            at h heffect ⊢
          cases heffect with
          | quit => exact ⟨hk, rfl⟩
          | _ => exact absurd rfl h
        · rw [hout] at h
          exact absurd rfl h

end Line

/-! ## Sessions -/

def AllAccounted (setup : Setup) (ts : List Turn) : Prop :=
  ∀ before t rest, ts = before ++ t :: rest → Accounted setup (.ofTurns before) t

theorem allAccounted_nil (setup : Setup) : AllAccounted setup [] := by
  intro before t rest h
  simp at h

theorem allAccounted_concat {ts : List Turn} {t : Turn} (hts : AllAccounted setup ts)
    (ht : Accounted setup (.ofTurns ts) t) : AllAccounted setup (ts ++ [t]) := by
  intro before u rest h
  rcases List.append_eq_append_iff.mp h with ⟨mid, hbefore, hmid⟩ | ⟨mid, rfl, hmid⟩
  · cases mid with
    | nil =>
      rw [List.append_nil] at hbefore
      obtain ⟨rfl, -⟩ := List.cons.inj hmid
      rwa [hbefore]
    | cons m mid =>
      obtain ⟨-, hnil⟩ := List.cons.inj hmid
      simp at hnil
  · cases mid with
    | nil =>
      obtain ⟨rfl, -⟩ := List.cons.inj hmid
      rwa [List.append_nil] at ht
    | cons m mid =>
      obtain ⟨rfl, -⟩ := List.cons.inj hmid
      exact hts before _ mid rfl

/-- The store, keeping a record of what it was given and what it answered. -/
def Keep.recording {ω : Type} (keep : Keep ω) : Keep (ω × List (Bytes × SaveAnswer)) :=
  fun s data =>
    let (answer, store) := keep s.1 data
    (answer, (store, s.2 ++ [(data, answer)]))

variable {ω : Type} (keep : Keep ω)

/-- What was saved and announced in a talk is what its turns say, and they are accounted for. -/
structure Talk.Sound (setup : Setup) (k : Talk (ω × List (Bytes × SaveAnswer))) : Prop where
  agrees : Agrees setup (.ofTurns k.turns) k.service.1
  accounted : AllAccounted setup k.turns
  saves : k.service.2.store.2 = k.turns.filterMap (·.save?)
  events : k.service.2.events = k.turns.filterMap (·.response.event)

theorem Talk.Sound.hear {k : Talk (ω × List (Bytes × SaveAnswer))} (h : k.Sound setup)
    (raw : Bytes) : (k.hear .standard setup keep.recording raw).1.Sound setup := by
  obtain ⟨haccounted, hagrees⟩ := line_accounted k.encoding raw
    (k.service.ask keep.recording raw).1 h.agrees
  refine ⟨?_, ?_, ?_, ?_⟩
  · rw [Talk.turns_hear, Talk.receiver_hear, Ledger.ofTurns_concat]
    exact hagrees
  · rw [Talk.turns_hear]
    exact allAccounted_concat h.accounted haccounted
  · have hsaved : (k.turn .standard setup keep.recording raw).save? =
        (k.service.1.toSave? raw).map (·, (k.service.ask keep.recording raw).1) := by
      rw [← saved_line k.encoding raw (k.service.ask keep.recording raw).1 .standard setup]
      rfl
    rw [Talk.turns_hear, Talk.store_hear, List.filterMap_append, ← h.saves, List.filterMap_cons,
      hsaved]
    simp only [Service.ask]
    cases k.service.1.toSave? raw with
    | none => exact (List.append_nil _).symm
    | some data => rfl
  · rw [Talk.turns_hear, Talk.events_hear, List.filterMap_append, h.events, List.filterMap_cons]
    cases (k.turn .standard setup keep.recording raw).response.event with
    | none => rfl
    | some event => rfl

/-- A talk is given lines until it ends, which it does only with a farewell. -/
theorem Talk.raws_hearAll (setup : Setup) (keep : Keep ω) (k : Talk ω) (ls : List Bytes) :
    ∃ heard, (k.hearAll .standard setup keep ls).turns.map (·.raw) = k.turns.map (·.raw) ++ heard ∧
      (heard = ls ∨ heard <+: ls ∧
        ∃ before last, (k.hearAll .standard setup keep ls).turns = before ++ [last] ∧
          last.kind? = some .quit ∧ last.code? = some 221) := by
  induction ls generalizing k with
  | nil => exact ⟨[], by simp only [Talk.hearAll, handover, List.append_nil], .inl rfl⟩
  | cons l ls ih =>
    obtain ⟨k', flow, h⟩ : ∃ k' flow, k.hear .standard setup keep l = (k', flow) := ⟨_, _, rfl⟩
    have hturns : k'.turns = k.turns ++ [k.turn .standard setup keep l] := by
      rw [← Talk.turns_hear, h]
    by_cases hf : flow = .proceed
    · subst hf
      obtain ⟨heard, hraws, hcases⟩ := ih k'
      have hall : k.hearAll .standard setup keep (l :: ls) =
          k'.hearAll .standard setup keep ls := by
        simp only [Talk.hearAll, handover_cons_of_proceed _ h]
      rw [hall]
      refine ⟨l :: heard, ?_, ?_⟩
      · rw [hraws, hturns, List.map_append, List.append_assoc]
        rfl
      · rcases hcases with rfl | ⟨⟨rest, rfl⟩, hlast⟩
        · exact .inl rfl
        · exact .inr ⟨⟨rest, rfl⟩, hlast⟩
    · have hall : k.hearAll .standard setup keep (l :: ls) = k' := by
        simp only [Talk.hearAll, handover_cons_of_stop _ h hf]
      have hstop : (k.hear .standard setup keep l).2 ≠ .proceed := by rwa [h]
      rw [hall, hturns]
      refine ⟨[l], ?_, .inr ⟨⟨ls, rfl⟩, k.turns, _, rfl, ?_⟩⟩
      · rw [List.map_append]
        rfl
      · exact flow_line k.encoding l (k.service.ask keep l).1 hstop

/-- The turns of a session in which the given bytes are received. -/
def transcript (setup : Setup) (keep : Keep ω) (store : ω) (received : Bytes) : List Turn :=
  (Talk.hearAll .standard setup keep { service := ({}, { store }) }
    (lines (dropReturns received))).turns

/-- Mail is stored and announced for the reasons that the transcript of a session shows, and for no
others. The lines of the client are heard as far as a farewell. Each is followed by its reply; what
the store is given, and what is announced, is what the turns account for, in their order. -/
theorem run_provenance (setup : Setup) (keep : Keep ω) (store : ω) (id : Nat)
    (peer : Option SocketAddress) (now : Nat) (input : List Incoming) :
    let ts := transcript setup keep.recording (store, []) (Incoming.received input)
    let session := (LineSession.run (Service.protocol .standard setup keep.recording)
      { channel := { connection := { id, peer }, now }
        state := ({}, { store := (store, []) }) } input).1
    (ts.map (·.raw) = lines (dropReturns (Incoming.received input)) ∨
        ts.map (·.raw) <+: lines (dropReturns (Incoming.received input)) ∧
          ∃ before last, ts = before ++ [last] ∧
            last.kind? = some .quit ∧ last.code? = some 221) ∧
      session.channel.sent =
        Encoding.latin1.encode (Reply.greeting setup.hostname).format ++
          ts.flatMap (·.response.wire) ∧
      session.state.2.store.2 = ts.filterMap (·.save?) ∧
      session.state.2.events = ts.filterMap (·.response.event) ∧
      AllAccounted setup ts := by
  let fresh : Talk (ω × List (Bytes × SaveAnswer)) := { service := ({}, { store := (store, []) }) }
  let heard := lines (dropReturns (Incoming.received input))
  have hsound : (fresh.hearAll .standard setup keep.recording heard).Sound setup :=
    handover_invariant _ (fun _ l hk => hk.hear keep l)
      ⟨agrees_fresh, allAccounted_nil setup, rfl, rfl⟩ heard
  let greeted : Channel :=
    { connection := { id, peer, lastActivity := now }
      sent := Encoding.latin1.encode (Reply.greeting setup.hostname).format, now }
  have hcarries : Carries greeted.sent (greeted, fresh.service) fresh :=
    ⟨⟨rfl, fun _ _ => rfl⟩, rfl, (List.append_nil _).symm, rfl⟩
  obtain ⟨hstate, hsent⟩ := receive_carries .standard setup keep.recording
    (s := { channel := greeted, state := fresh.service }) hcarries List.not_mem_nil input
  have hrun : (LineSession.run (Service.protocol .standard setup keep.recording)
      { channel := { connection := { id, peer }, now }, state := fresh.service } input).1 =
        let s := LineSession.receive (Service.protocol .standard setup keep.recording)
          { channel := greeted, state := fresh.service } input
        { s with channel := s.channel.close true } := rfl
  rw [List.nil_append] at hstate hsent
  dsimp only
  rw [hrun]
  refine ⟨?_, hsent, ?_, ?_, hsound.accounted⟩
  · obtain ⟨raws, hraws, hcases⟩ := Talk.raws_hearAll setup keep.recording fresh heard
    exact hraws ▸ hcases
  · rw [hstate]
    exact hsound.saves
  · rw [hstate]
    exact hsound.events

end Letterbox.Smtp
