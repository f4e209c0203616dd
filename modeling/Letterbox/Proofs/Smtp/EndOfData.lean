import Letterbox.Proofs.Net.Rows
import Letterbox.Proofs.Smtp.Invariant
import Letterbox.Proofs.Smtp.Reception

/-!
# Where a message ends

The sending side puts a dot before every line that begins with one. The receiving side drops the
carriage returns of a line before it looks for the single dot that ends a message. A message is
heard to its end, and nothing of it as a command, if no dot in it is hidden from the one side and
not from the other.
-/

namespace Letterbox.Smtp

set_option autoImplicit false

open Lines Receiver

/-! ## The lines of a message on the wire -/

theorem lf_not_mem_splitLf {bs l : Bytes} (h : l ∈ splitLf bs) : lf ∉ l := by
  induction bs using induction_on_lines generalizing l with
  | rest bs hb =>
    rw [splitLf_of_not_mem hb, List.mem_singleton] at h
    rwa [h]
  | line k after hk ih =>
    rw [splitLf_append_cons hk] at h
    rcases List.mem_cons.mp h with rfl | h
    · exact hk
    · exact ih h

theorem lf_not_mem_messageLines {data l : Bytes} (h : l ∈ messageLines data) : lf ∉ l := by
  obtain ⟨k, hk, rfl⟩ := List.mem_map.mp h
  have hlf := lf_not_mem_splitLf hk
  split
  · intro hmem
    exact hlf (List.dropLast_subset k hmem)
  · exact hlf

/-- The lines in which a message is sent. -/
def sentLines (data : Bytes) : List Bytes :=
  if data.isEmpty then [] else (messageLines data).map stuffed

theorem dotStuff_eq (data : Bytes) : dotStuff data = (sentLines data).flatMap (· ++ [cr, lf]) := by
  unfold dotStuff sentLines
  split
  · rfl
  · rw [List.flatMap_map]
    exact congrArg (List.flatMap · (messageLines data)) (funext stuffLine_eq)

theorem lf_not_mem_stuffed {l : Bytes} (h : lf ∉ l) : lf ∉ stuffed l := by
  unfold stuffed
  split
  · exact List.not_mem_cons_of_ne_of_not_mem (by decide) h
  · exact h

theorem lf_not_mem_sentLines {data l : Bytes} (h : l ∈ sentLines data) : lf ∉ l := by
  unfold sentLines at h
  split at h
  · cases h
  · obtain ⟨k, hk, rfl⟩ := List.mem_map.mp h
    exact lf_not_mem_stuffed (lf_not_mem_messageLines hk)

def dataStream (data : Bytes) : Bytes := dotStuff data ++ [46, cr, lf]

theorem lines_dataStream (data : Bytes) :
    lines (dropReturns (dataStream data)) = (sentLines data).map dropReturns ++ [terminator] := by
  have hstream : dropReturns (dataStream data) =
      ended ((sentLines data).map dropReturns ++ [terminator]) := by
    rw [dataStream, dropReturns_append, dotStuff_eq, dropReturns_ended, ended_append]
    rfl
  rw [hstream]
  apply (lines_ended _).1
  intro l hl
  rcases List.mem_append.mp hl with hl | hl
  · obtain ⟨k, hk, rfl⟩ := List.mem_map.mp hl
    intro hmem
    exact lf_not_mem_sentLines hk ((List.mem_filter.mp hmem).1)
  · rw [List.mem_singleton.mp hl]
    decide

/-! ## Hidden dots -/

/-- A line that does not begin with a dot, and is a single dot without its carriage returns. -/
def HidesDot (l : Bytes) : Prop := l.head? = some cr ∧ dropReturns l = terminator

instance (l : Bytes) : Decidable (HidesDot l) := inferInstanceAs (Decidable (_ ∧ _))

theorem dropReturns_stuffed_iff (l : Bytes) :
    dropReturns (stuffed l) = terminator ↔ HidesDot l := by
  cases l with
  | nil =>
    refine iff_of_false ?_ ?_
    · exact fun h => absurd h (by decide)
    · rintro ⟨hhead, -⟩
      cases hhead
  | cons b rest =>
    by_cases hdot : b = 46
    · subst hdot
      refine iff_of_false ?_ ?_
      · rw [stuffed_dot]
        intro h
        have hlen := congrArg List.length h
        simp [dropReturns, terminator, cr] at hlen
      · rintro ⟨hhead, -⟩
        exact absurd (Option.some.inj hhead) (by decide)
    · have hkept : stuffed (b :: rest) = b :: rest :=
        stuffed_of_ne fun h => hdot (Option.some.inj h)
      rw [hkept]
      refine ⟨fun h => ⟨?_, h⟩, fun h => h.2⟩
      -- A first byte that is no carriage return would have been kept.
      by_cases hcr : b = cr
      · exact congrArg some hcr
      · rw [dropReturns, List.filter_cons_of_pos (by simpa using hcr)] at h
        exact absurd (List.cons.inj h).1 hdot

theorem terminator_mem_sentLines_iff (data : Bytes) :
    terminator ∈ (sentLines data).map dropReturns ↔ ∃ l ∈ messageLines data, HidesDot l := by
  unfold sentLines
  split
  · rename_i hempty
    rw [List.isEmpty_iff.mp hempty]
    exact iff_of_false List.not_mem_nil (by decide)
  · simp only [List.map_map, List.mem_map, Function.comp_apply, dropReturns_stuffed_iff]

/-! ## A receiver that is taking a message -/

namespace Service

variable {ω : Type}

/-- The next line is one of a message. -/
def TakesMessage (v : Service ω) : Prop := ∃ overflowed, v.1.mode = .data overflowed

variable (chain : CommandChain) (setup : Setup) (keep : Keep ω)

/-- The single dot ends a message, whatever becomes of the reply; no other line does. -/
theorem handle_message {s : Channel × Service ω} (h : TakesMessage s.2) (raw : Bytes) :
    (raw ≠ terminator → TakesMessage ((protocol chain setup keep).handle s raw).1.2 ∧
        ((protocol chain setup keep).handle s raw).2 = .proceed) ∧
      (raw = terminator → ¬TakesMessage ((protocol chain setup keep).handle s raw).1.2) := by
  obtain ⟨channel, v⟩ := s
  obtain ⟨overflowed, hmode⟩ := h
  dsimp only at hmode
  simp only [LineProtocol.handle, protocol, Service.line, Receiver.line, hmode]
  constructor
  · intro hraw
    simp only [if_neg hraw]
    exact ⟨capture_mode setup.maxSize v.1.session overflowed raw, rfl⟩
  · intro hraw
    simp only [if_pos hraw]
    obtain ⟨-, hout⟩ := deliver_cases channel
      ((⟨v.1.session.reset, .commands⟩, _) : Service ω)
      (complete setup.maxSize v.1.session overflowed (v.ask keep raw).1)
    rintro ⟨now, hnow⟩
    rcases hout with hsame | ⟨-, hstopped⟩
    · rw [hsame] at hnow
      cases hnow
    · rw [hstopped] at hnow
      cases hnow

theorem takesMessage_after {s : Channel × Service ω} (h : TakesMessage s.2) {ls : List Bytes}
    (hls : terminator ∉ ls) : TakesMessage (after (protocol chain setup keep).handle s ls).2 := by
  induction ls generalizing s with
  | nil => exact h
  | cons l ls ih =>
    rw [List.mem_cons, not_or] at hls
    exact ih ((handle_message chain setup keep h l).1 (Ne.symm hls.1)).1 hls.2

theorem handover_message {s : Channel × Service ω} (h : TakesMessage s.2) {ls : List Bytes}
    (hls : terminator ∉ ls) (last : Bytes) :
    (handover (protocol chain setup keep).handle s (ls ++ [last])).handed = ls ++ [last] := by
  induction ls generalizing s with
  | nil =>
    obtain ⟨t, flow, ht⟩ : ∃ t flow, (protocol chain setup keep).handle s last = (t, flow) :=
      ⟨_, _, rfl⟩
    by_cases hf : flow = .proceed
    · subst hf
      rw [List.nil_append, handover_cons_of_proceed _ ht]
      rfl
    · rw [List.nil_append, handover_cons_of_stop _ ht hf]
  | cons l ls ih =>
    rw [List.mem_cons, not_or] at hls
    obtain ⟨htakes, hflow⟩ := (handle_message chain setup keep h l).1 (Ne.symm hls.1)
    obtain ⟨t, flow, ht⟩ : ∃ t flow, (protocol chain setup keep).handle s l = (t, flow) :=
      ⟨_, _, rfl⟩
    rw [ht] at htakes hflow
    dsimp only at htakes hflow
    subst hflow
    rw [List.cons_append, handover_cons_of_proceed _ ht]
    exact congrArg (l :: ·) (ih htakes hls.2)

/-! ## A message that is fed in pieces -/

/-- What is handed over are the lines of the message and the single dot behind them. Each is taken
for a line of the message, and with the last of them it is over. -/
structure HeardToItsEnd (channel : Channel) (v : Service ω) (data : Bytes)
    (pieces : List Bytes) : Prop where
  given : (LineSession.feedAll (protocol chain setup keep).recording
    { channel, state := (v, []) } pieces).1.state.2 =
      (sentLines data).map dropReturns ++ [terminator]
  taken : ∀ before l rest, (sentLines data).map dropReturns ++ [terminator] = before ++ l :: rest →
    TakesMessage (after (protocol chain setup keep).handle (channel, v) before).2
  ended : ¬TakesMessage (LineSession.feedAll (protocol chain setup keep)
    { channel, state := v } pieces).1.state

variable {channel : Channel} {v : Service ω} {data : Bytes} {pieces : List Bytes}

/-- What is handed over of a message in pieces, and the state after that. -/
theorem feedAll_dataStream (channel : Channel) (v : Service ω)
    (hpieces : pieces.flatten = dataStream data) :
    let fed := handover (protocol chain setup keep).handle (channel, v)
      ((sentLines data).map dropReturns ++ [terminator])
    (LineSession.feedAll (protocol chain setup keep).recording
        { channel, state := (v, []) } pieces).1.state.2 = fed.handed ∧
      (LineSession.feedAll (protocol chain setup keep) { channel, state := v } pieces).1.state =
        (after (protocol chain setup keep).handle (channel, v) fed.handed).2 := by
  have hrecorded := (LineSession.feedAll_eq_handover (protocol chain setup keep).recording
    (s := { channel, state := (v, []) }) List.not_mem_nil pieces).1
  have hplain := (LineSession.feedAll_eq_handover (protocol chain setup keep)
    (s := { channel, state := v }) List.not_mem_nil pieces).1
  have hstate := (handover_spec (protocol chain setup keep).handle (channel, v)
    ((sentLines data).map dropReturns ++ [terminator])).1
  rw [LineProtocol.handover_recording] at hrecorded
  rw [List.nil_append, hpieces, lines_dataStream] at hrecorded hplain
  constructor
  · simpa only [List.nil_append] using congrArg (fun x => x.2.2) hrecorded
  · rw [← hstate]
    exact congrArg Prod.snd hplain

/-- The lines of a message before the first single dot are heard as such, and the dot ends it. -/
theorem heardToItsEnd_of_not_mem (hv : TakesMessage v) (hpieces : pieces.flatten = dataStream data)
    (hclean : terminator ∉ (sentLines data).map dropReturns) :
    HeardToItsEnd chain setup keep channel v data pieces := by
  obtain ⟨hgiven, hfinal⟩ := feedAll_dataStream chain setup keep channel v hpieces
  rw [handover_message chain setup keep hv hclean terminator] at hgiven hfinal
  refine ⟨hgiven, ?_, ?_⟩
  · intro before l rest hsplit
    apply takesMessage_after chain setup keep hv
    intro hmem
    have hbefore : before <+: (sentLines data).map dropReturns := by
      have hsub : before ++ [l] <+: (sentLines data).map dropReturns ++ [terminator] :=
        ⟨rest, by rw [hsplit, List.append_assoc, List.singleton_append]⟩
      rcases List.prefix_concat_iff.mp hsub with hall | hsome
      · obtain ⟨rfl, -⟩ := List.append_inj' hall rfl
        exact List.prefix_rfl
      · exact (List.prefix_append before [l]).trans hsome
    exact hclean (hbefore.subset hmem)
  · rw [hfinal, after, List.foldl_append]
    exact (handle_message chain setup keep (takesMessage_after chain setup keep hv hclean)
      terminator).2 rfl

/-- A single dot among the lines of a message ends it too soon: the line behind it is a command. -/
theorem not_heardToItsEnd_of_mem (hdot : terminator ∈ (sentLines data).map dropReturns) :
    ¬HeardToItsEnd chain setup keep channel v data pieces := by
  intro h
  obtain ⟨before, rest, hsplit⟩ := List.append_of_mem hdot
  obtain ⟨next, more, hnext⟩ : ∃ next more, rest ++ [terminator] = next :: more :=
    List.exists_cons_of_ne_nil (List.append_ne_nil_of_right_ne_nil rest (List.cons_ne_nil _ _))
  have hall : (sentLines data).map dropReturns ++ [terminator] =
      before ++ terminator :: (next :: more) := by
    rw [hsplit, List.append_assoc, List.cons_append, hnext]
  have htakes := h.taken before terminator (next :: more) hall
  refine (handle_message chain setup keep htakes terminator).2 rfl ?_
  have hlater := h.taken (before ++ [terminator]) next more (by
    rw [hall, List.append_assoc, List.singleton_append])
  rwa [after, List.foldl_append] at hlater

/-- A message that is fed in pieces to a session that waits for it, with the single dot behind it,
is heard to its end and nothing of it as a command, if none of its lines hides a dot behind a
carriage return, and only then. -/
theorem message_ends_iff (hv : TakesMessage v) (hpieces : pieces.flatten = dataStream data) :
    HeardToItsEnd chain setup keep channel v data pieces ↔
      ∀ l ∈ messageLines data, ¬HidesDot l := by
  have hiff := terminator_mem_sentLines_iff data
  constructor
  · intro h l hl hhides
    exact not_heardToItsEnd_of_mem chain setup keep (hiff.mpr ⟨l, hl, hhides⟩) h
  · intro h
    apply heardToItsEnd_of_not_mem chain setup keep hv hpieces
    intro hmem
    obtain ⟨l, hl, hhides⟩ := hiff.mp hmem
    exact h l hl hhides

/-! ### A session with a store in memory -/

def sink : Setup := ⟨"sink.test", 1000⟩

def wire : Channel := { connection := { id := 1 } }

def waiting : Service MemoryStore :=
  ({ session := { sender := some "a@b.com", recipients := ["c@d.com"] }, mode := .data false },
    { store := {} })

theorem waiting_takesMessage : TakesMessage waiting := ⟨false, rfl⟩

def dotted : Bytes := Utf8.encode "hi\r\n.\r\n..\r\nbare\nlast\r"

/-- Lines that are dots do no harm, and neither does a carriage return at the end. -/
theorem message_ends_dotted :
    let pieces := [(dataStream dotted).take 8, (dataStream dotted).drop 8]
    TakesMessage waiting ∧ pieces.flatten = dataStream dotted ∧
      HeardToItsEnd .standard sink MemoryStore.save wire waiting dotted pieces := by
  intro pieces
  have hpieces : pieces.flatten = dataStream dotted := by
    simp only [pieces, List.flatten_cons, List.flatten_nil, List.append_nil,
      List.take_append_drop]
  refine ⟨waiting_takesMessage, hpieces, ?_⟩
  refine (message_ends_iff .standard sink MemoryStore.save waiting_takesMessage hpieces).mpr ?_
  decide

/-- A message in which a second one is hidden, with its envelope. -/
def nested : Bytes :=
  Utf8.encode "hi\r\n\r.\r\nMAIL FROM:<x@y.z>\r\nRCPT TO:<u@v.w>\r\nDATA\r\nboo\r\n"

/-- A dot behind a carriage return ends the message that it stands in. The lines behind it are heard
as commands, and a message is announced that nobody has sent. -/
theorem nested_message_announced :
    TakesMessage waiting ∧
      ¬HeardToItsEnd .standard sink MemoryStore.save wire waiting nested [dataStream nested] ∧
      (LineSession.feedAll (protocol .standard sink MemoryStore.save)
          { channel := wire, state := waiting } [dataStream nested]).1.state.2.events =
        [.newMessage ⟨"/store/msg-1.eml", "a@b.com", ["c@d.com"], 4⟩,
          .newMessage ⟨"/store/msg-2.eml", "x@y.z", ["u@v.w"], 5⟩] := by
  refine ⟨waiting_takesMessage, not_heardToItsEnd_of_mem .standard sink MemoryStore.save ?_, ?_⟩
  · decide
  · rw [(feedAll_dataStream .standard sink MemoryStore.save wire waiting List.flatten_singleton).2]
    decide +kernel

end Service

end Letterbox.Smtp
