import Letterbox.Event.Intake
import Letterbox.Proofs.Event.Frames
import Letterbox.Proofs.Net.Rows

/-!
# The event link

The frames of some events, with other lines between them that hold no event, bring the very events,
however the bytes are cut into pieces. The other lines do no harm: the connection stays as it is.
-/

namespace Letterbox

set_option autoImplicit false

namespace Event

open Lines

/-- What comes over the link: an event as a frame, or a line of any other bytes. -/
inductive Item where
  | event (e : Event)
  | noise (raw : Bytes)

namespace Item

def row : Item → Bytes
  | event e => Utf8.encode e.toJson.toText
  | noise raw => raw

def bytes : Item → Bytes
  | event e => Utf8.encode e.toFrame
  | noise raw => raw ++ [lf]

def event? : Item → Option Event
  | event e => some e
  | noise _ => none

/-- A line of other bytes holds no line feed, and what is read of it once its carriage returns are
dropped is blank or no event. -/
def Idle (fresh : Nat → Nat → Uuid) : Item → Prop
  | event _ => True
  | noise raw => lf ∉ raw ∧ (Text.blankText (Utf8.decode (dropReturns raw)) = true ∨
      ∀ n, ∃ fault, ofFrame (fresh n) (Utf8.decode (dropReturns raw)) = .error fault)

theorem bytes_eq (i : Item) : i.bytes = i.row ++ [lf] := by
  cases i with
  | event e => exact e.encode_toFrame
  | noise raw => rfl

theorem flatMap_bytes (items : List Item) : items.flatMap bytes = ended (items.map row) := by
  rw [ended, List.flatMap_map]
  exact List.flatMap_congr fun i _ => i.bytes_eq

variable {fresh : Nat → Nat → Uuid} {i : Item}

theorem lf_not_mem_row (h : i.Idle fresh) : lf ∉ i.row := by
  cases i with
  | event e => exact e.lf_not_mem_toText
  | noise raw => exact h.1

/-- A line brings the event that was told with it, if it was one. -/
theorem ofLine?_row (h : i.Idle fresh) (n : Nat) :
    ofLine? (fresh n) (Utf8.decode (dropReturns i.row)) = i.event? := by
  cases i with
  | event e =>
    rw [row, dropReturns_of_not_mem e.cr_not_mem_toText, Utf8.decode_encode, ofLine?,
      e.blankText_toText, ofFrame_toText]
    rfl
  | noise raw =>
    rw [ofLine?, row]
    rcases h.2 with hblank | hfails
    · rw [if_pos hblank]
      rfl
    · obtain ⟨fault, hfault⟩ := hfails n
      rw [hfault]
      exact ite_self none

end Item

variable {fresh : Nat → Nat → Uuid} {items : List Item}

/-- One line after the other, the events that were told are taken in. -/
theorem handover_rows (hidle : ∀ i ∈ items, i.Idle fresh) {channel : Channel}
    (hencoding : channel.connection.encoding = .utf8) (told : List Event) :
    let rows := items.map fun i => dropReturns i.row
    handover (intake fresh).handle (channel, told) rows =
      ⟨(channel, told ++ items.filterMap Item.event?), rows, .proceed⟩ := by
  induction items generalizing told with
  | nil =>
    rw [List.filterMap_nil, List.append_nil]
    rfl
  | cons i items ih =>
    have hline : (intake fresh).handle (channel, told) (dropReturns i.row) =
        ((channel, told ++ i.event?.toList), .proceed) := by
      have hevent := Item.ofLine?_row (hidle i List.mem_cons_self) told.length
      simp only [LineProtocol.handle, intake, hencoding, Encoding.decode, Encoding.decodeChars]
      rw [← hevent]
      rfl
    have hrest := ih (fun j hj => hidle j (List.mem_cons_of_mem i hj)) (told ++ i.event?.toList)
    dsimp only at hrest ⊢
    rw [List.map_cons, handover_cons_of_proceed _ hline, hrest, List.append_assoc]
    cases i with
    | event e => rfl
    | noise raw => rfl

/-- The session of a link that has taken in the events that were told, with nothing pending. -/
theorem feedAll_items (channel : Channel) (hencoding : channel.connection.encoding = .utf8)
    (told : List Event) (hidle : ∀ i ∈ items, i.Idle fresh) {pieces : List Bytes}
    (hpieces : pieces.flatten = items.flatMap Item.bytes) :
    LineSession.feedAll (intake fresh) { channel, state := told } pieces =
      ({ channel, state := told ++ items.filterMap Item.event? }, .proceed) := by
  have hlf : ∀ row ∈ items.map fun i => dropReturns i.row, lf ∉ row := by
    intro row hrow hmem
    obtain ⟨i, hi, rfl⟩ := List.mem_map.mp hrow
    exact Item.lf_not_mem_row (hidle i hi) (List.mem_filter.mp hmem).1
  have hinput : dropReturns pieces.flatten = ended (items.map fun i => dropReturns i.row) := by
    rw [hpieces, Item.flatMap_bytes, ← ended_dropReturns, List.map_map]
    rfl
  obtain ⟨hlines, hremainder⟩ := lines_ended hlf
  have hfed := LineSession.feedAll_eq_handover (intake fresh)
    (s := { channel, state := told }) List.not_mem_nil pieces
  dsimp only at hfed
  rw [List.nil_append, hinput, hlines, hremainder, handover_rows hidle hencoding] at hfed
  obtain ⟨hstate, hflow, hpending⟩ := hfed
  generalize LineSession.feedAll (intake fresh) { channel, state := told } pieces = fed
    at hstate hflow hpending
  obtain ⟨⟨fedChannel, fedState, fedPending⟩, flow⟩ := fed
  dsimp only at hstate hflow hpending
  obtain ⟨rfl, rfl⟩ := Prod.mk.inj hstate
  obtain rfl := hflow
  obtain rfl := hpending rfl
  rfl

/-- A link loses nothing and adds nothing. Of the frames of some events, with idle lines between
them, exactly the events are taken in, each once and in their order, wherever the bytes are cut; the
channel stays as it was opened. A frame has no carriage return in it and one line feed, its last
byte, and is read back as its event. -/
theorem link_exact (channel : Channel) (told : List Event) (hidle : ∀ i ∈ items, i.Idle fresh)
    {pieces : List Bytes} (hpieces : pieces.flatten = items.flatMap Item.bytes) :
    let opening := LineSession.begin (intake fresh) { channel, state := told }
    (opening.2 = .ok () ∧
      LineSession.feedAll (intake fresh) opening.1 pieces =
        ({ channel := channel.setEncoding .utf8, state := told ++ items.filterMap Item.event? },
          .proceed)) ∧
      ∀ e : Event, cr ∉ Utf8.encode e.toFrame ∧
        (∃ text, Utf8.encode e.toFrame = text ++ [lf] ∧ lf ∉ text) ∧
        ∀ ids, ofFrame ids e.toFrame = .ok e := by
  refine ⟨⟨rfl, feedAll_items (channel.setEncoding .utf8) rfl told hidle hpieces⟩, fun e => ?_⟩
  refine ⟨?_, ⟨_, e.encode_toFrame, e.lf_not_mem_toText⟩, fun ids => ofFrame_toFrame ids e⟩
  rw [e.encode_toFrame, List.mem_append, not_or]
  exact ⟨e.cr_not_mem_toText, by decide⟩

/-- Two events with a line between them that holds none. The path of the message has quotes and a
line break in it. -/
def noteAndExit : List Item :=
  [.event (.newMessage ⟨"in/\"a\"\r\n.eml", "é@example.org", ["b@example.org"], 7⟩),
    .noise (Utf8.encode "no\revent"), .event .appExit]

theorem link_exact_noteAndExit :
    let fresh : Nat → Nat → Uuid := fun _ _ => ⟨0⟩
    let pieces := (noteAndExit.flatMap Item.bytes).map ([·])
    (∀ i ∈ noteAndExit, i.Idle fresh) ∧ pieces.flatten = noteAndExit.flatMap Item.bytes ∧
      LineSession.feedAll (intake fresh)
        (LineSession.begin (intake fresh)
          { channel := { connection := { id := 1 } }, state := [] }).1 pieces =
        ({ channel := { connection := { id := 1, encoding := .utf8 } },
           state := [.newMessage ⟨"in/\"a\"\r\n.eml", "é@example.org", ["b@example.org"], 7⟩,
            .appExit] },
          .proceed) := by
  have hfault : ofFrame (fun _ => ⟨0⟩) (Utf8.decode (dropReturns (Utf8.encode "no\revent"))) =
      .error .malformed := by decide +kernel
  have hnoise : (Item.noise (Utf8.encode "no\revent")).Idle fun _ _ => ⟨0⟩ :=
    ⟨by decide +kernel, .inr fun _ => ⟨.malformed, hfault⟩⟩
  have hidle : ∀ i ∈ noteAndExit, i.Idle fun _ _ => ⟨0⟩ := by
    rw [noteAndExit, List.forall_mem_cons, List.forall_mem_cons, List.forall_mem_singleton]
    exact ⟨trivial, hnoise, trivial⟩
  have hpieces : ((noteAndExit.flatMap Item.bytes).map ([·])).flatten =
      noteAndExit.flatMap Item.bytes := by
    rw [← List.flatMap_def, List.flatMap_singleton']
  refine ⟨hidle, hpieces, ?_⟩
  exact (link_exact { connection := { id := 1 } } [] hidle hpieces).1.2

/-- A line that holds no event as it stands may hold one without its carriage returns. -/
theorem line_healed :
    let fresh : Nat → Nat → Uuid := fun _ _ => ⟨0⟩
    let raw := Utf8.encode "\x7b\"type\":\"App\rReady\"\x7d"
    (lf ∉ raw ∧ Text.blankText (Utf8.decode raw) = false ∧
      ofFrame (fresh 0) (Utf8.decode raw) = .error .malformed) ∧
      (LineSession.feedAll (intake fresh)
        (LineSession.begin (intake fresh)
          { channel := { connection := { id := 1 } }, state := [] }).1 [raw ++ [lf]]).1.state =
        [.appReady] := by
  decide +kernel

end Event

end Letterbox
