import Letterbox.Net.Listener
import Letterbox.Proofs.Net.Happenings
import Letterbox.Proofs.Smtp.Provenance

/-!
# Transcripts of connections

Each connection of a mail listener has a transcript of its own, however the reads of the connections
come one after the other. What is announced is what these transcripts account for.
-/

set_option autoImplicit false

namespace Letterbox.Smtp

open Lines

variable {ω : Type} {setup : Setup} {keep : Keep ω}

/-! ## Talks that go on -/

/-- A store that was given these messages one after the other, with these answers. -/
inductive Keep.Leads (keep : Keep ω) (store : ω) : List (Bytes × SaveAnswer) → ω → Prop where
  | nil : Leads keep store [] store
  | concat {saves : List (Bytes × SaveAnswer)} {now : ω} (data : Bytes) :
    Leads keep store saves now →
      Leads keep store (saves ++ [(data, (keep now data).1)]) (keep now data).2

/-- A talk that goes on behind some turns, at a desk with this store. -/
structure Talk.Continues (setup : Setup) (keep : Keep ω) (store : ω) (before : List Turn)
    (k : Talk ω) : Prop where
  agrees : Agrees setup (.ofTurns (before ++ k.turns)) k.service.1
  accounted : AllAccounted setup (before ++ k.turns)
  saves : keep.Leads store (k.turns.filterMap (·.save?)) k.service.2.store
  events : k.service.2.events = k.turns.filterMap (·.response.event)

theorem Talk.Continues.hear {store : ω} {before : List Turn} {k : Talk ω}
    (h : k.Continues setup keep store before) (raw : Bytes) :
    (k.hear .standard setup keep raw).1.Continues setup keep store before := by
  obtain ⟨haccounted, hagrees⟩ := line_accounted k.encoding raw (k.service.ask keep raw).1 h.agrees
  refine ⟨?_, ?_, ?_, ?_⟩
  · rw [Talk.turns_hear, Talk.receiver_hear, ← List.append_assoc, Ledger.ofTurns_concat]
    exact hagrees
  · rw [Talk.turns_hear, ← List.append_assoc]
    exact allAccounted_concat h.accounted haccounted
  · have hsaved : (k.turn .standard setup keep raw).save? =
        (k.service.1.toSave? raw).map (·, (k.service.ask keep raw).1) := by
      rw [← saved_line k.encoding raw (k.service.ask keep raw).1 .standard setup]
      rfl
    rw [Talk.turns_hear, Talk.store_hear, List.filterMap_append, List.filterMap_cons, hsaved]
    simp only [Service.ask]
    cases k.service.1.toSave? raw with
    | none => exact (List.append_nil _).symm ▸ h.saves
    | some data => exact h.saves.concat data
  · rw [Talk.turns_hear, Talk.events_hear, List.filterMap_append, h.events, List.filterMap_cons]
    cases (k.turn .standard setup keep raw).response.event with
    | none => rfl
    | some event => rfl

/-- The turns of a talk are the lines that it is given. -/
theorem Talk.raws_handover (chain : CommandChain) (setup : Setup) (keep : Keep ω) (k : Talk ω)
    (ls : List Bytes) :
    let h := handover (Talk.hear chain setup keep) k ls
    h.state.turns.map (·.raw) = k.turns.map (·.raw) ++ h.handed := by
  induction ls generalizing k with
  | nil => exact (List.append_nil _).symm
  | cons l ls ih =>
    obtain ⟨k', flow, h⟩ : ∃ k' flow, k.hear chain setup keep l = (k', flow) := ⟨_, _, rfl⟩
    have hturns : k'.turns.map (·.raw) = k.turns.map (·.raw) ++ [l] := by
      have hk : k'.turns = k.turns ++ [k.turn chain setup keep l] := by
        rw [← Talk.turns_hear, h]
      rw [hk, List.map_append]
      rfl
    by_cases hf : flow = .proceed
    · subst hf
      simp only [handover_cons_of_proceed _ h, ih k', hturns, List.append_assoc,
        List.singleton_append]
    · simp only [handover_cons_of_stop _ h hf, hturns]

theorem handed_prefix {σ : Type} (handle : σ → Bytes → σ × Flow) (s : σ) (ls : List Bytes) :
    (handover handle s ls).handed <+: ls ∧
      ((handover handle s ls).flow = .proceed → (handover handle s ls).handed = ls) := by
  rcases (handover_spec handle s ls).2 with
    ⟨-, hall, -⟩ | ⟨before, last, rest, hls, hhanded, -, -, hstop⟩
  · exact ⟨⟨[], (List.append_nil _).trans hall⟩, fun _ => hall⟩
  · refine ⟨⟨rest, ?_⟩, fun hproceed => absurd hproceed hstop⟩
    rw [hhanded, hls, List.append_assoc, List.singleton_append]

/-- Over a channel that takes everything a piece of input goes on with a talk. If the session goes
on, it was the talk of all lines of the piece. -/
theorem feed_talks (setup : Setup) (keep : Keep ω) {sent : Bytes} {s : LineSession (Service ω)}
    {k : Talk ω}
    (h : Carries sent (s.channel, s.state) k) (data : Bytes) :
    let r := LineSession.feed (Service.protocol .standard setup keep) s data
    let ls := lines (s.pending ++ dropReturns data)
    let k' := k.hearAll .standard setup keep ls
    Carries sent (r.1.channel, r.1.state) k' ∧
      ∃ heard, k'.turns.map (·.raw) = k.turns.map (·.raw) ++ heard ∧ heard <+: ls ∧
        (r.2 = .proceed →
          heard = ls ∧ r.1.pending = remainder (s.pending ++ dropReturns data)) := by
  obtain ⟨hstate, hflow, hpending⟩ :=
    LineSession.feed_eq_handover (Service.protocol .standard setup keep) s data
  dsimp only
  generalize s.pending ++ dropReturns data = input at *
  obtain ⟨hafter, -, hsame⟩ := h.handover .standard setup keep (lines input)
  obtain ⟨hheard, hall⟩ := handed_prefix (Talk.hear .standard setup keep) k (lines input)
  refine ⟨hstate ▸ hafter, _, Talk.raws_handover .standard setup keep k (lines input), hheard,
    fun hproceed => ?_⟩
  have hgoes := hflow.symm.trans hproceed
  exact ⟨hall (hsame.symm.trans hgoes), hpending hgoes⟩

/-! ## One connection -/

def opening (setup : Setup) : Bytes := Encoding.latin1.encode (Reply.greeting setup.hostname).format

/-- A connection at which these bytes were taken in, and its transcript: its lines are those of the
client, all of them as long as the connection is read, and the replies are what was sent. -/
structure Transcribed (setup : Setup) (v : Visit Receiver) (received : Bytes) (ts : List Turn) :
    Prop where
  refuses : ∀ sent data, v.session.channel.refuses sent data = none
  raws : ts.map (·.raw) <+: lines (dropReturns received)
  accounted : AllAccounted setup ts
  sent : v.session.channel.sent = [] ∧ ts = [] ∨
    v.session.channel.sent = opening setup ++ ts.flatMap (·.response.wire)
  fresh : v.stage = .fresh → v.session.state = {} ∧ v.session.pending = [] ∧
    v.session.channel.connection.encoding = .latin1 ∧ v.session.channel.sent = [] ∧ received = []
  live : v.stage = .reading → v.session.channel.connection.isOpen = true →
    ts.map (·.raw) = lines (dropReturns received) ∧
      v.session.pending = remainder (dropReturns received) ∧
      Agrees setup (.ofTurns ts) v.session.state ∧
      v.session.channel.sent = opening setup ++ ts.flatMap (·.response.wire)

variable {v v' : Visit Receiver} {received : Bytes} {ts : List Turn}

theorem Transcribed.of_channel (h : Transcribed setup v received ts)
    (hstate : v'.session.state = v.session.state)
    (hpending : v'.session.pending = v.session.pending)
    (hsent : v'.session.channel.sent = v.session.channel.sent)
    (hrefuses : v'.session.channel.refuses = v.session.channel.refuses)
    (hencoding : v'.session.channel.connection.encoding = v.session.channel.connection.encoding)
    (hfresh : v'.stage = .fresh → v.stage = .fresh)
    (hlive : v'.stage = .reading → v'.session.channel.connection.isOpen = true →
      v.stage = .reading ∧ v.session.channel.connection.isOpen = true) :
    Transcribed setup v' received ts := by
  refine ⟨hrefuses ▸ h.refuses, h.raws, h.accounted, hsent ▸ h.sent, fun hs => ?_,
    fun hs hopen => ?_⟩
  · rw [hstate, hpending, hencoding, hsent]
    exact h.fresh (hfresh hs)
  · obtain ⟨hreading, hopened⟩ := hlive hs hopen
    rw [hstate, hpending, hsent]
    exact h.live hreading hopened

theorem Transcribed.close (h : Transcribed setup v received ts) (announce : Bool) :
    Transcribed setup (v.onChannel (·.close announce)) received ts := by
  refine h.of_channel rfl rfl rfl rfl (Channel.encoding_close _ announce) id fun _ hopen => ?_
  exact absurd hopen (by simp [Visit.onChannel, Channel.close, Connection.isOpen_close])

theorem Transcribed.staged (h : Transcribed setup v received ts) {stage : Visit.Stage}
    (hfresh : stage ≠ .fresh) (hreading : stage ≠ .reading) :
    Transcribed setup { v with stage } received ts :=
  h.of_channel rfl rfl rfl rfl rfl (fun hs => absurd hs hfresh) fun hs => absurd hs hreading

theorem Transcribed.finish (h : Transcribed setup v received ts) :
    Transcribed setup v.finish received ts :=
  (h.close true).staged nofun nofun

theorem Transcribed.clock (h : Transcribed setup v received ts) (now : Nat) :
    Transcribed setup (v.onChannel fun c => { c with now }) received ts :=
  h.of_channel rfl rfl rfl rfl rfl id fun hs hopen => ⟨hs, hopen⟩

theorem Transcribed.turns_nil (h : Transcribed setup v [] ts) : ts = [] := by
  have hraws := h.raws
  rw [dropReturns_nil, lines_of_not_mem List.not_mem_nil, List.prefix_nil,
    List.map_eq_nil_iff] at hraws
  exact hraws

/-- The opening sends the greeting, or ends a connection that was closed before. -/
theorem Transcribed.begin (keep : Keep ω) (h : Transcribed setup v received ts) (desk : Desk ω) :
    Transcribed setup (v.begin (Service.protocol .standard setup keep) desk).1 received ts ∧
      (v.begin (Service.protocol .standard setup keep) desk).2 = desk := by
  unfold Visit.begin
  split
  · rename_i hstage
    obtain ⟨hstate, hpending, hencoding, hsent, rfl⟩ := h.fresh hstage
    have hturns := h.turns_nil
    subst hturns
    simp only [LineSession.begin, Visit.joined, Service.protocol, Channel.sendText]
    rcases v.session.channel.send_cases
        (v.session.channel.connection.encoding.encode (Reply.greeting setup.hostname).format) with
      ⟨hopen, -, hsend⟩ | ⟨text, -, hrefused, -⟩ | ⟨hclosed, hsend⟩
    · rw [hsend]
      have hopening : v.session.channel.sent ++ v.session.channel.connection.encoding.encode
          (Reply.greeting setup.hostname).format = opening setup := by
        rw [hsent, hencoding, List.nil_append, opening]
      have hread : Visit.Stage.reading ≠ .fresh := by decide
      refine ⟨⟨h.refuses, h.raws, h.accounted, .inr ?_, fun hs => absurd hs hread,
        fun _ _ => ⟨?_, ?_, ?_, ?_⟩⟩, rfl⟩
      · exact hopening.trans (List.append_nil _).symm
      · exact (lines_of_not_mem List.not_mem_nil).symm
      · exact hpending.trans (remainder_of_not_mem List.not_mem_nil).symm
      · exact hstate.symm ▸ agrees_fresh
      · exact hopening.trans (List.append_nil _).symm
    · rw [h.refuses] at hrefused
      cases hrefused
    · rw [hsend]
      exact ⟨h.finish, rfl⟩
  · exact ⟨h, rfl⟩
  · exact ⟨h, rfl⟩
  · exact ⟨h, rfl⟩

/-! ## Reading -/

/-- A connection that takes in what comes. -/
def Listens (v : Visit Receiver) : Prop :=
  v.stage = .reading ∧ v.session.channel.connection.isOpen = true

instance : Decidable (Listens v) := inferInstanceAs (Decidable (_ ∧ _))

def talkOf (setup : Setup) (keep : Keep ω) (v : Visit Receiver) (store : ω) (data : Bytes) :
    Talk ω :=
  Talk.hearAll .standard setup keep
    { encoding := v.session.channel.connection.encoding, service := (v.session.state, { store }) }
    (lines (v.session.pending ++ dropReturns data))

theorem talkOf_continues (keep : Keep ω) (h : Transcribed setup v received ts)
    (hlistens : Listens v) (store : ω)
    (data : Bytes) : (talkOf setup keep v store data).Continues setup keep store ts := by
  obtain ⟨-, -, hagrees, -⟩ := h.live hlistens.1 hlistens.2
  refine handover_invariant _ (fun _ l hk => hk.hear l) ⟨?_, ?_, .nil, rfl⟩ _
  · exact (List.append_nil ts).symm ▸ hagrees
  · exact (List.append_nil ts).symm ▸ h.accounted

theorem talkOf_nil (h : Transcribed setup v received ts) (hlistens : Listens v) (store : ω) :
    talkOf setup keep v store [] =
      { encoding := v.session.channel.connection.encoding
        service := (v.session.state, { store }) } := by
  obtain ⟨-, hpending, -⟩ := h.live hlistens.1 hlistens.2
  have hnone : lines (v.session.pending ++ dropReturns []) = [] := by
    rw [hpending, dropReturns_nil, List.append_nil]
    exact lines_of_not_mem (not_mem_remainder _)
  rw [talkOf, hnone]
  rfl

/-- A connection after it has taken something in, whether or not it is to go on. -/
theorem Transcribed.after (h : Transcribed setup v received ts) (hlistens : Listens v) {store : ω}
    {data : Bytes} {channel : Channel} {pending : Bytes} {stage : Visit.Stage}
    (hcarries : Carries v.session.channel.sent (channel, (talkOf setup keep v store data).service)
      (talkOf setup keep v store data))
    (hraws : (talkOf setup keep v store data).turns.map (·.raw) <+:
      lines (v.session.pending ++ dropReturns data))
    (hfresh : stage ≠ .fresh)
    (hlive : stage = .reading → (talkOf setup keep v store data).turns.map (·.raw) =
        lines (v.session.pending ++ dropReturns data) ∧
      pending = remainder (v.session.pending ++ dropReturns data)) :
    Transcribed setup
      { session := { channel, state := (talkOf setup keep v store data).service.1, pending },
        stage }
      (received ++ data) (ts ++ (talkOf setup keep v store data).turns) := by
  obtain ⟨hlines, hpending, -, hsent⟩ := h.live hlistens.1 hlistens.2
  have hcontinues := talkOf_continues keep h hlistens store data
  have hinput : lines (dropReturns (received ++ data)) =
      lines (dropReturns received) ++ lines (v.session.pending ++ dropReturns data) := by
    rw [dropReturns_append, lines_append, hpending]
  have hwires : channel.sent = opening setup ++
      (ts ++ (talkOf setup keep v store data).turns).flatMap (·.response.wire) := by
    rw [List.flatMap_append, ← List.append_assoc, ← hsent]
    exact hcarries.sent
  refine ⟨hcarries.takesAll.refuses, ?_, hcontinues.accounted, .inr hwires,
    fun hs => absurd hs hfresh, fun hs _ => ?_⟩
  · rw [hinput, List.map_append, hlines]
    exact (List.prefix_append_right_inj _).mpr hraws
  · obtain ⟨hmore, hrest⟩ := hlive hs
    refine ⟨?_, ?_, hcontinues.agrees, hwires⟩
    · rw [hinput, List.map_append, hlines, hmore]
    · rw [dropReturns_append, remainder_append, ← hpending]
      exact hrest

/-- What a connection takes in goes on with its transcript, and the desk is left as the talk leaves
it. -/
theorem Transcribed.read (keep : Keep ω) (h : Transcribed setup v received ts)
    (hlistens : Listens v)
    (store : ω) (data : Bytes) :
    let r := v.read (Service.protocol .standard setup keep) { store } (.bytes data)
    Transcribed setup r.1 (received ++ data) (ts ++ (talkOf setup keep v store data).turns) ∧
      r.2 = (talkOf setup keep v store data).service.2 := by
  obtain ⟨hreading, hopen⟩ := id hlistens
  cases data with
  | nil =>
    -- A read without bytes changes nothing, not even the time of the last activity.
    have hread : v.read (Service.protocol .standard setup keep) { store } (.bytes []) =
        (v, { store }) := by
      simp only [Visit.read, hreading, hopen, if_true]
    rw [hread, talkOf_nil h hlistens, List.append_nil, List.append_nil]
    exact ⟨h, rfl⟩
  | cons b bs =>
    let s : LineSession (Service ω) := (v.onChannel (·.touch)).joined { store }
    have hcarries : Carries v.session.channel.sent (s.channel, s.state)
        { encoding := v.session.channel.connection.encoding
          service := (v.session.state, { store }) } :=
      ⟨⟨hopen, h.refuses⟩, rfl, (List.append_nil _).symm, rfl⟩
    obtain ⟨hafter, heard, hraws, hheard, hall⟩ :=
      feed_talks setup keep hcarries (b :: bs)
    obtain ⟨⟨channel, state, pending⟩, flow, ht⟩ : ∃ t flow,
      LineSession.feed (Service.protocol .standard setup keep)
        ((v.onChannel (·.touch)).joined { store }) (b :: bs) = (t, flow) := ⟨_, _, rfl⟩
    simp only [Visit.read, hreading, hopen, if_true, ht]
    rw [show LineSession.feed _ s _ = _ from ht] at hafter hall
    have htalk : (talkOf setup keep v store (b :: bs)).turns.map (·.raw) = heard := hraws
    have hstate : state = (talkOf setup keep v store (b :: bs)).service := hafter.service
    subst hstate
    have hended : Transcribed setup
        { session := ⟨channel, (talkOf setup keep v store (b :: bs)).service.1, pending⟩
          stage := .ended } (received ++ b :: bs)
        (ts ++ (talkOf setup keep v store (b :: bs)).turns) :=
      h.after hlistens hafter (htalk.symm ▸ hheard) nofun nofun
    cases flow with
    | proceed =>
      obtain ⟨hlines, hrest⟩ := hall rfl
      exact ⟨h.after hlistens hafter (htalk.symm ▸ hheard) nofun
        fun _ => ⟨htalk.trans hlines, hrest⟩, rfl⟩
    | close => exact ⟨hended.finish, rfl⟩
    | failed failure => exact ⟨hended.finish, rfl⟩

/-- Nothing is taken in by a connection that does not listen, and nothing else makes turns. -/
theorem Transcribed.read_idle (keep : Keep ω) (h : Transcribed setup v received ts) (desk : Desk ω)
    {incoming : Incoming} (hidle : ∀ data, incoming = .bytes data → ¬Listens v) :
    Transcribed setup (v.read (Service.protocol .standard setup keep) desk incoming).1 received ts ∧
      (v.read (Service.protocol .standard setup keep) desk incoming).2 = desk := by
  unfold Visit.read
  split
  · rename_i hstage
    split
    · rename_i hopen
      split
      · exact ⟨h.finish, rfl⟩
      · exact ⟨h.finish, rfl⟩
      · rename_i announce
        exact ⟨(h.close announce).finish, rfl⟩
      · exact absurd ⟨hstage, hopen⟩ (hidle _ rfl)
      · exact absurd ⟨hstage, hopen⟩ (hidle _ rfl)
    · exact ⟨h.finish, rfl⟩
  · exact ⟨h, rfl⟩
  · exact ⟨h, rfl⟩
  · exact ⟨h, rfl⟩

/-! ## Numbers of connections -/

theorem id_deliver (channel : Channel) (w : Service ω) (response : Response) :
    (Service.deliver channel w response).1.connection.id = channel.connection.id := by
  unfold Service.deliver
  split
  · rfl
  · rename_i reply hreply
    have hid := Channel.id_sendText (channel.setEncoding response.encoding) reply.format
    dsimp only
    split
    · rename_i hsend
      rw [hsend] at hid
      exact hid
    · rename_i hsend
      rw [hsend] at hid
      exact hid

theorem id_feed (setup : Setup) (keep : Keep ω) (s : LineSession (Service ω)) (data : Bytes) :
    (LineSession.feed (Service.protocol .standard setup keep) s data).1.channel.connection.id =
      s.channel.connection.id := by
  obtain ⟨hstate, -⟩ := LineSession.feed_eq_handover (Service.protocol .standard setup keep) s data
  have hid := handover_invariant (Service.protocol .standard setup keep).handle
    (P := fun cs => cs.1.connection.id = s.channel.connection.id)
    (fun cs l hcs => (id_deliver cs.1 _ _).trans hcs) (s := (s.channel, s.state)) rfl
    (lines (s.pending ++ dropReturns data))
  rw [← hstate] at hid
  exact hid

theorem id_close (v : Visit Receiver) (announce : Bool) :
    (v.onChannel (·.close announce)).id = v.id := Channel.id_close _ announce

theorem id_finish (v : Visit Receiver) : v.finish.id = v.id := id_close v true

theorem id_begin (v : Visit Receiver) (desk : Desk ω) :
    (v.begin (Service.protocol .standard setup keep) desk).1.id = v.id := by
  unfold Visit.begin
  split
  · have hid : (LineSession.begin (Service.protocol .standard setup keep)
        (v.joined desk)).1.channel.connection.id = v.id :=
      Channel.id_sendText v.session.channel (Reply.greeting setup.hostname).format
    split
    · rename_i hbegin
      rw [hbegin] at hid
      exact hid
    · rename_i hbegin
      rw [hbegin] at hid
      exact (id_finish _).trans hid
  · rfl
  · rfl
  · rfl

theorem id_read (v : Visit Receiver) (desk : Desk ω) (incoming : Incoming) :
    (v.read (Service.protocol .standard setup keep) desk incoming).1.id = v.id := by
  unfold Visit.read
  split
  · split
    · split
      · exact id_finish v
      · exact id_finish v
      · exact (id_finish _).trans (id_close v _)
      · rfl
      · rename_i data _
        have hid := id_feed setup keep
          ((v.onChannel (·.touch)).joined desk) data
        split
        · rename_i hfeed
          rw [hfeed] at hid
          exact hid
        · rename_i hfeed
          rw [hfeed] at hid
          exact (id_finish _).trans hid
    · exact id_finish v
  · rfl
  · rfl
  · rfl

end Letterbox.Smtp
