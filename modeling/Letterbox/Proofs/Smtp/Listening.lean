import Mathlib.Data.List.Perm.Basic
import Letterbox.Proofs.Dispatch.Steps
import Letterbox.Proofs.Smtp.Visits

/-!
# The transcripts of a listener

While a listener goes on, two records are kept of all its connections together, in the order of
events: what each connection took in, and the turns that came of it. What belongs to one connection
is its own transcript, whatever the others did in between.
-/

set_option autoImplicit false

namespace Letterbox.Smtp

open Lines

variable {ω : Type} {setup : Setup} {keep : Keep ω}

def ofConnection {β : Type} (id : Nat) (xs : List (Nat × β)) : List β :=
  (xs.filter (·.1 = id)).map (·.2)

section
variable {β : Type} {id other : Nat}

@[simp] theorem ofConnection_append (xs ys : List (Nat × β)) :
    ofConnection id (xs ++ ys) = ofConnection id xs ++ ofConnection id ys := by
  simp only [ofConnection, List.filter_append, List.map_append]

theorem ofConnection_map (id : Nat) (ys : List β) : ofConnection id (ys.map (id, ·)) = ys := by
  simp [ofConnection, List.filter_map, Function.comp_def]

theorem ofConnection_map_of_ne (h : other ≠ id) (ys : List β) :
    ofConnection other (ys.map (id, ·)) = [] := by
  simp [ofConnection, List.filter_map, Function.comp_def, Ne.symm h]

/-- What belongs to each of the connections is all that there is. -/
theorem perm_flatMap_ofConnection {ids : List Nat} (hnodup : ids.Nodup) (xs : List (Nat × β))
    (hids : ∀ x ∈ xs, x.1 ∈ ids) :
    (ids.flatMap fun id => ofConnection id xs).Perm (xs.map (·.2)) := by
  induction ids generalizing xs with
  | nil =>
    rw [List.eq_nil_iff_forall_not_mem.mpr fun x hx => List.not_mem_nil (hids x hx)]
    exact .nil
  | cons id ids ih =>
    obtain ⟨hnew, hrest⟩ := List.nodup_cons.mp hnodup
    -- What belongs to the first connection makes no difference for the rest of them.
    let others := xs.filter fun x => !decide (x.1 = id)
    have hothers : ∀ x ∈ others, x.1 ∈ ids := by
      intro x hx
      obtain ⟨hmem, hne⟩ := List.mem_filter.mp hx
      simp only [Bool.not_eq_eq_eq_not, Bool.not_true, decide_eq_false_iff_not] at hne
      exact (List.mem_cons.mp (hids x hmem)).resolve_left hne
    have hsame : (ids.flatMap fun other => ofConnection other xs) =
        ids.flatMap fun other => ofConnection other others := by
      refine List.flatMap_congr fun other hother => ?_
      have hne : other ≠ id := fun heq => hnew (heq ▸ hother)
      rw [ofConnection, ofConnection, List.filter_filter]
      congr 1
      refine List.filter_congr fun x _ => ?_
      by_cases hx : x.1 = other
      · simp [hx, hne]
      · simp [hx]
    rw [List.flatMap_cons, hsame]
    refine ((ih hrest others hothers).append_left _).trans ?_
    rw [ofConnection, ← List.map_append]
    exact (List.filter_append_perm _ xs).map _

theorem ofConnection_eq_nil {xs : List (Nat × β)} (h : ∀ x ∈ xs, x.1 ≠ id) :
    ofConnection id xs = [] := by
  rw [ofConnection, List.map_eq_nil_iff, List.filter_eq_nil_iff]
  exact fun x hx hid => h x hx (of_decide_eq_true hid)

end

/-- The connection that takes something in at a step, and what it takes in. -/
def listening? (l : Listener Receiver) : Listener.Label → Option (Visit Receiver × Bytes)
  | .read id (.bytes data) => ((l.visit? id).filter (Listens ·)).map (·, data)
  | _ => none

def takenIn (l : Listener Receiver) (label : Listener.Label) : List (Nat × Bytes) :=
  (listening? l label).toList.map fun x => (x.1.id, x.2)

def turned (setup : Setup) (keep : Keep ω) (l : Listener Receiver) (store : ω)
    (label : Listener.Label) : List (Nat × Turn) :=
  (listening? l label).toList.flatMap fun x =>
    (talkOf setup keep x.1 store x.2).turns.map (x.1.id, ·)

/-- What turns save and announce, and nothing else, has gone to the store and is announced. -/
structure Desk.Shows (keep : Keep ω) (store : ω) (turns : List (Nat × Turn)) (desk : Desk ω) :
    Prop where
  saves : keep.Leads store (turns.filterMap (·.2.save?)) desk.store
  events : desk.events = turns.filterMap (·.2.response.event)

/-- The connections of a listener agree with the records. -/
structure Attended (setup : Setup) (taken : List (Nat × Bytes)) (turns : List (Nat × Turn))
    (l : Listener Receiver) : Prop where
  ids : l.visits.map Visit.id = List.range' 1 l.visits.length
  takenAt : ∀ x ∈ taken, x.1 ∈ l.visits.map Visit.id
  turnsAt : ∀ x ∈ turns, x.1 ∈ l.visits.map Visit.id
  transcribed : ∀ v ∈ l.visits,
    Transcribed setup v (ofConnection v.id taken).flatten (ofConnection v.id turns)

variable {taken : List (Nat × Bytes)} {turns : List (Nat × Turn)} {l l' : Listener Receiver}

theorem attended_empty : Attended setup [] [] {} :=
  ⟨rfl, List.forall_mem_nil _, List.forall_mem_nil _, List.forall_mem_nil _⟩

/-- A step that changes connections without making turns. -/
theorem Attended.map (h : Attended setup taken turns l) {f : Visit Receiver → Visit Receiver}
    (hvisits : l'.visits = l.visits.map f) (hid : ∀ v ∈ l.visits, (f v).id = v.id)
    (hf : ∀ v ∈ l.visits, Transcribed setup (f v) (ofConnection v.id taken).flatten
      (ofConnection v.id turns)) : Attended setup taken turns l' := by
  have hids : l'.visits.map Visit.id = l.visits.map Visit.id := by
    rw [hvisits, List.map_map]
    exact List.map_congr_left hid
  refine ⟨?_, fun x hx => hids ▸ h.takenAt x hx, fun x hx => hids ▸ h.turnsAt x hx, fun v hv => ?_⟩
  · rw [hids, hvisits, List.length_map]
    exact h.ids
  · rw [hvisits] at hv
    obtain ⟨w, hw, rfl⟩ := List.mem_map.mp hv
    rw [hid w hw]
    exact hf w hw

theorem Attended.of_visits (h : Attended setup taken turns l) (hvisits : l'.visits = l.visits) :
    Attended setup taken turns l' :=
  h.map (hvisits.trans (List.map_id _).symm) (fun _ _ => rfl) h.transcribed

/-- One connection is changed, and perhaps goes on with its transcript. -/
theorem Attended.change (h : Attended setup taken turns l) {id : Nat} {w : Visit Receiver}
    (hid : id ∈ l.visits.map Visit.id) (hw : w.id = id) {data : List Bytes} {ts : List Turn}
    (hvisits : l'.visits = l.visits.map fun v => if v.id = id then w else v)
    (htranscribed : Transcribed setup w ((ofConnection id taken).flatten ++ data.flatten)
      (ofConnection id turns ++ ts)) :
    Attended setup (taken ++ data.map (id, ·)) (turns ++ ts.map (id, ·)) l' := by
  have hids : l'.visits.map Visit.id = l.visits.map Visit.id := by
    rw [hvisits, List.map_map]
    refine List.map_congr_left fun v _ => ?_
    simp only [Function.comp_apply]
    split
    · rename_i hv
      rw [hw, hv]
    · rfl
  have hmem {β : Type} {xs : List (Nat × β)} {ys : List β}
      (hxs : ∀ x ∈ xs, x.1 ∈ l.visits.map Visit.id) :
      ∀ x ∈ xs ++ ys.map (id, ·), x.1 ∈ l'.visits.map Visit.id := by
    rw [hids]
    refine List.forall_mem_append.mpr ⟨hxs, List.forall_mem_map.mpr fun _ _ => hid⟩
  refine ⟨?_, hmem h.takenAt, hmem h.turnsAt, fun v hv => ?_⟩
  · rw [hids, hvisits, List.length_map]
    exact h.ids
  · rw [hvisits] at hv
    obtain ⟨u, hu, rfl⟩ := List.mem_map.mp hv
    rw [ofConnection_append, ofConnection_append, List.flatten_append]
    split
    · rw [hw, ofConnection_map, ofConnection_map]
      exact htranscribed
    · rename_i hne
      rw [ofConnection_map_of_ne hne, ofConnection_map_of_ne hne, List.flatten_nil,
        List.append_nil, List.append_nil]
      exact h.transcribed u hu

theorem Attended.accept (h : Attended setup taken turns l) :
    Attended setup taken turns (l.accept {}) := by
  unfold Listener.accept
  split
  · have hids : (l.visits ++ [l.newVisit {}]).map Visit.id =
        List.range' 1 (l.visits ++ [l.newVisit {}]).length := by
      rw [List.map_append, h.ids, List.length_append, List.length_singleton, List.range'_concat,
        Nat.one_mul, Nat.add_comm 1]
      rfl
    have hold {β : Type} {xs : List (Nat × β)} (hxs : ∀ x ∈ xs, x.1 ∈ l.visits.map Visit.id) :
        ∀ x ∈ xs, x.1 ∈ (l.visits ++ [l.newVisit {}]).map Visit.id := by
      intro x hx
      rw [List.map_append]
      exact List.mem_append_left _ (hxs x hx)
    -- The number of the new connection is larger than any that a record can hold.
    have hnew {β : Type} {xs : List (Nat × β)} (hxs : ∀ x ∈ xs, x.1 ∈ l.visits.map Visit.id) :
        ofConnection (l.newVisit ({} : Receiver)).id xs = [] := by
      refine ofConnection_eq_nil fun x hx heq => ?_
      have hlt := hxs x hx
      rw [h.ids, List.mem_range'_1, heq] at hlt
      exact absurd hlt.2 (by simp [Listener.newVisit, Visit.id, Nat.add_comm])
    refine ⟨hids, hold h.takenAt, hold h.turnsAt, fun v hv => ?_⟩
    rcases List.mem_append.mp hv with hv | hv
    · exact h.transcribed v hv
    · cases List.mem_singleton.mp hv
      rw [hnew h.takenAt, hnew h.turnsAt]
      exact ⟨fun _ _ => rfl, List.nil_prefix, allAccounted_nil setup, .inl ⟨rfl, rfl⟩,
        fun _ => ⟨rfl, rfl, rfl, rfl, rfl⟩, nofun⟩
  · exact h
  · exact h
  · exact h

/-- One connection is changed from outside of its task. -/
theorem Attended.onVisit (h : Attended setup taken turns l) (id : Nat)
    {f : Visit Receiver → Visit Receiver} (hid : ∀ v, (f v).id = v.id)
    (hf : ∀ v received ts, Transcribed setup v received ts → Transcribed setup (f v) received ts) :
    Attended setup taken turns (l.onVisit id f) := by
  refine h.map rfl (fun v _ => ?_) fun v hv => ?_
  · split
    · exact hid _
    · rfl
  · split
    · exact hf _ _ _ ((h.transcribed v hv).clock l.now)
    · exact h.transcribed v hv

theorem Attended.leave (h : Attended setup taken turns l) (id : Nat) :
    Attended setup taken turns (l.leave id) := by
  unfold Listener.leave
  split
  · split
    · exact (h.onVisit id (f := fun v => { v with stage := .gone }) (fun _ => rfl)
        fun v received ts hv => hv.staged nofun nofun).of_visits rfl
    · exact h
    · exact h
    · exact h
  · exact h

theorem Attended.examine (h : Attended setup taken turns l) (idle : Option Nat) :
    Attended setup taken turns (l.examine idle) := by
  unfold Listener.examine
  split
  · rename_i id rest timeout _
    have hrest : Attended setup taken turns { l with examining := rest } := h.of_visits rfl
    refine hrest.onVisit id (fun v => ?_) fun v received ts hv => ?_
    · split
      · exact id_close v true
      · rfl
    · split
      · exact hv.close true
      · exact hv
  · exact h

theorem Attended.closeNext (h : Attended setup taken turns l) :
    Attended setup taken turns l.closeNext := by
  unfold Listener.closeNext
  split
  · exact h.of_visits rfl
  · rename_i id rest _
    have hrest : Attended setup taken turns { l with phase := .closing rest } := h.of_visits rfl
    exact hrest.onVisit id (fun v => id_close v true) fun v received ts hv => hv.close true
  · exact h
  · exact h
  · exact h

theorem mem_of_visit? {id : Nat} {v : Visit Receiver} (h : l.visit? id = some v) :
    v ∈ l.visits ∧ v.id = id := by
  unfold Listener.visit? at h
  exact ⟨List.mem_of_find?_eq_some h, by simpa using List.find?_some h⟩

/-- A task takes a step that makes these turns. -/
theorem Attended.onTask (h : Attended setup taken turns l) (desk : Desk ω) {desk' : Desk ω}
    {id : Nat} {f : Visit Receiver → Visit Receiver × Desk ω} {v : Visit Receiver}
    (hv : l.visit? id = some v) (data : List Bytes) (ts : List Turn)
    (hid : (f (v.onChannel fun c => { c with now := l.now })).1.id = v.id)
    (hdesk : (f (v.onChannel fun c => { c with now := l.now })).2 = desk')
    (htranscribed : Transcribed setup (f (v.onChannel fun c => { c with now := l.now })).1
      ((ofConnection id taken).flatten ++ data.flatten) (ofConnection id turns ++ ts)) :
    Attended setup (taken ++ data.map (id, ·)) (turns ++ ts.map (id, ·))
        (l.onTask desk id f).1 ∧ (l.onTask desk id f).2 = desk' := by
  obtain ⟨hmem, hsame⟩ := mem_of_visit? hv
  simp only [Listener.onTask, hv]
  exact ⟨h.change (List.mem_map.mpr ⟨v, hmem, hsame⟩) (hid.trans hsame) rfl htranscribed, hdesk⟩

theorem Attended.begin (keep : Keep ω) (h : Attended setup taken turns l) (desk : Desk ω)
    (id : Nat) :
    Attended setup taken turns
        (l.onTask desk id fun v => v.begin (Service.protocol .standard setup keep) desk).1 ∧
      (l.onTask desk id fun v =>
        v.begin (Service.protocol .standard setup keep) desk).2 = desk := by
  cases hv : l.visit? id with
  | none =>
    simp only [Listener.onTask, hv]
    exact ⟨h, trivial⟩
  | some v =>
    obtain ⟨hmem, rfl⟩ := mem_of_visit? hv
    obtain ⟨hbegun, hdesk⟩ :=
      ((h.transcribed v hmem).clock l.now).begin keep desk
    have htask := h.onTask (f := fun v => v.begin (Service.protocol .standard setup keep) desk)
      desk hv [] [] (id_begin _ desk) hdesk (by simpa using hbegun)
    simpa using htask

theorem Attended.read (keep : Keep ω) (h : Attended setup taken turns l) (store : ω) (id : Nat)
    (incoming : Incoming) :
    let r := l.onTask { store } id fun v =>
      v.read (Service.protocol .standard setup keep) { store } incoming
    Attended setup (taken ++ takenIn l (.read id incoming))
        (turns ++ turned setup keep l store (.read id incoming)) r.1 ∧
      r.2.Shows keep store (turned setup keep l store (.read id incoming)) := by
  cases hv : l.visit? id with
  | none =>
    have hnone : listening? l (.read id incoming) = none := by
      cases incoming <;> simp only [listening?, hv, Option.filter_none, Option.map_none]
    simp only [takenIn, turned, hnone, Listener.onTask, hv]
    exact ⟨by simpa using h, .nil, rfl⟩
  | some v =>
    obtain ⟨hmem, rfl⟩ := mem_of_visit? hv
    have htranscribed := (h.transcribed v hmem).clock l.now
    -- Only bytes that reach a connection that listens go on with its transcript.
    by_cases hlistens : Listens v ∧ ∃ data, incoming = .bytes data
    · obtain ⟨hlistens, data, rfl⟩ := hlistens
      have hsome : listening? l (.read v.id (.bytes data)) = some (v, data) := by
        simp only [listening?, hv, Option.filter_some, hlistens, decide_true, if_true,
          Option.map_some]
      obtain ⟨hread, hdesk⟩ := htranscribed.read keep hlistens store data
      have hcontinues := talkOf_continues keep htranscribed hlistens store data
      obtain ⟨hattended, hleft⟩ := h.onTask
        (f := fun v => v.read (Service.protocol .standard setup keep) { store } (.bytes data))
        { store } hv [data] _ (id_read _ _ _) hdesk (by simpa using hread)
      simp only [takenIn, turned, hsome, Option.toList_some, List.map_cons, List.map_nil,
        List.flatMap_cons, List.flatMap_nil, List.append_nil]
      refine ⟨hattended, ?_, ?_⟩
      · rw [hleft, List.filterMap_map]
        exact hcontinues.saves
      · rw [hleft, List.filterMap_map]
        exact hcontinues.events
    · have hnone : listening? l (.read v.id incoming) = none := by
        cases incoming with
        | bytes data =>
          have hdeaf : ¬Listens v := fun hl => hlistens ⟨hl, data, rfl⟩
          simp only [listening?, hv, Option.filter_some, hdeaf, decide_false, Bool.false_eq_true,
            if_false, Option.map_none]
        | ended | failed | closedMeanwhile => rfl
      obtain ⟨hread, hdesk⟩ := htranscribed.read_idle keep { store }
        fun data (hdata : incoming = .bytes data) hl => hlistens ⟨hl, data, hdata⟩
      have htask := h.onTask
        (f := fun v => v.read (Service.protocol .standard setup keep) { store } incoming)
        { store } hv [] [] (id_read _ _ _) hdesk (by simpa using hread)
      simp only [takenIn, turned, hnone, Option.toList_none, List.map_nil, List.flatMap_nil,
        List.append_nil] at htask ⊢
      rw [htask.2]
      exact ⟨htask.1, .nil, rfl⟩

/-- The connections agree with the records after every step, and what the step stores and announces
is what the new turns tell of. -/
theorem Attended.step (keep : Keep ω) (h : Attended setup taken turns l) (idle : Option Nat)
    (store : ω)
    (label : Listener.Label) :
    let r := l.step (Service.protocol .standard setup keep) {} idle { store } label
    Attended setup (taken ++ takenIn l label) (turns ++ turned setup keep l store label) r.1 ∧
      r.2.Shows keep store (turned setup keep l store label) := by
  have hstill {l' : Listener Receiver} (hnone : listening? l label = none)
      (hattended : Attended setup taken turns l') :
      Attended setup (taken ++ takenIn l label) (turns ++ turned setup keep l store label) l' ∧
        Desk.Shows keep store (turned setup keep l store label) { store } := by
    simp only [takenIn, turned, hnone, Option.toList_none, List.map_nil, List.flatMap_nil,
      List.append_nil]
    exact ⟨hattended, .nil, rfl⟩
  cases label with
  | read id incoming => exact h.read keep store id incoming
  | begin id =>
    obtain ⟨hattended, hdesk⟩ := h.begin keep { store } id
    obtain ⟨hall, hshows⟩ := hstill rfl hattended
    refine ⟨hall, ?_⟩
    rw [← hdesk] at hshows
    exact hshows
  | accept => exact hstill rfl h.accept
  | leave id => exact hstill rfl (h.leave id)
  | examine => exact hstill rfl (h.examine idle)
  | closeNext => exact hstill rfl h.closeNext
  | shutdown | pass => exact hstill rfl (h.of_visits rfl)
  | tick | retire | drained | graceOver =>
    refine hstill rfl (h.of_visits ?_)
    simp only [Listener.step]
    split <;> rfl

/-! ## Messages that are taken -/

/-- The message that was saved in a turn, as an observer of the connection knows it: where the store
put it and how large it is, and the envelope that the client gave for it. -/
def Ledger.accepted? (l : Ledger) (t : Turn) : Option ReceivedMessage :=
  match t.save? with
  | some (_, .ok entry) => some
    { path := entry.path
      sender := ((l.granted .mailFrom "FROM:").filterMap id).headD ""
      recipients := (l.granted .rcptTo "TO:").filterMap id
      size := entry.size }
  | _ => none

def acceptedFrom (l : Ledger) : List Turn → List ReceivedMessage
  | [] => []
  | t :: ts => (l.accepted? t).toList ++ acceptedFrom (l.add t) ts

def accepted (ts : List Turn) : List ReceivedMessage := acceptedFrom {} ts

def Turn.announced? (t : Turn) : Option ReceivedMessage := t.response.event.bind Event.message?

/-- What a turn announces is what it has saved. -/
theorem Accounted.accepted? {ledger : Ledger} {t : Turn} (h : Accounted setup ledger t) :
    ledger.accepted? t = t.announced? := by
  unfold Accounted at h
  split at h
  · simp only [Ledger.accepted?, Turn.save?, Turn.announced?, h.1, h.2, Option.map_none,
      Option.bind_none]
  · obtain ⟨hsaved, sender, recipients, hsender, hrecipients, hanswer⟩ := h
    cases hstore : t.answer with
    | ok entry =>
      rw [hstore] at hanswer
      have hgranted : (recipients.map some).filterMap id = recipients := by simp
      simp only [Ledger.accepted?, Turn.save?, Turn.announced?, hsaved, hstore, hanswer.1, hsender,
        hrecipients, hgranted, Option.map_some, Option.bind_some, Event.message?]
      rfl
    | error f =>
      rw [hstore] at hanswer
      simp only [Ledger.accepted?, Turn.save?, Turn.announced?, hsaved, hstore, hanswer.1,
        Option.map_some, Option.bind_none]

theorem acceptedFrom_eq (before ts : List Turn) (h : AllAccounted setup (before ++ ts)) :
    acceptedFrom (.ofTurns before) ts = ts.filterMap Turn.announced? := by
  induction ts generalizing before with
  | nil => rfl
  | cons t ts ih =>
    have haccepted := (h before t ts rfl).accepted?
    have hrest := ih (before ++ [t]) (by rwa [List.append_assoc])
    rw [Ledger.ofTurns_concat] at hrest
    rw [acceptedFrom, haccepted, hrest, List.filterMap_cons]
    cases t.announced? <;> rfl

/-- Of all messages that the connections took together, each is announced once. -/
theorem Attended.perm_accepted (h : Attended setup taken turns l) :
    ((l.visits.map Visit.id).flatMap fun id => accepted (ofConnection id turns)).Perm
      (turns.filterMap (·.2.announced?)) := by
  have hnodup : (l.visits.map Visit.id).Nodup := h.ids ▸ List.nodup_range'
  have heach : ((l.visits.map Visit.id).flatMap fun id => accepted (ofConnection id turns)) =
      ((l.visits.map Visit.id).flatMap fun id => ofConnection id turns).filterMap
        Turn.announced? := by
    rw [List.filterMap_flatMap]
    refine List.flatMap_congr fun id hid => ?_
    obtain ⟨v, hv, rfl⟩ := List.mem_map.mp hid
    exact acceptedFrom_eq [] _ (h.transcribed v hv).accounted
  rw [heach]
  refine ((perm_flatMap_ofConnection hnodup turns h.turnsAt).filterMap _).trans ?_
  rw [List.filterMap_map]
  rfl

end Letterbox.Smtp
