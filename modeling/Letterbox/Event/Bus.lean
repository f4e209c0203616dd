import Letterbox.Event.Basic

/-! # The bus

A row of slots that is written round and round, and readers that each keep their own place.
Publishing never waits: who falls behind by more than the slots there are goes on with the oldest
event that is still kept. Places are counted from the first event ever published. -/

namespace Letterbox

set_option autoImplicit false

structure Bus where
  /-- Slot `n` holds the last event whose place leaves `n` when divided by the number of slots. -/
  slots : List (Option Event)
  written : Nat := 0
  /-- The place at which each reader goes on, in the order in which they came; none once it has
  left. -/
  readers : List (Option Nat) := []
  isOpen : Bool := true
deriving DecidableEq

namespace Bus

/-- The number of slots that a capacity makes: the least power of two that is no less than it. -/
def size (capacity : Nat) : Nat := if capacity ≤ 1 then 1 else Nat.pow 2 ((capacity - 1).log2 + 1)

def ofCapacity (capacity : Nat) : Bus := { slots := List.replicate (size capacity) none }

inductive Delivery where
  | event (e : Event)
  | pending
  | closed
deriving DecidableEq, Repr

def readerCount (b : Bus) : Nat := (b.readers.filter (·.isSome)).length

def slotOf (b : Bus) (place : Nat) : Nat := place % b.slots.length

/-- Answers how many readers will see the event. What nobody will see is not kept. -/
def publish (b : Bus) (e : Event) : Bus × Nat :=
  if b.isOpen && b.readerCount != 0 then
    ({ b with slots := b.slots.set (b.slotOf b.written) (some e), written := b.written + 1 },
      b.readerCount)
  else (b, 0)

def subscribe (b : Bus) : Bus × Nat :=
  ({ b with readers := b.readers ++ [some b.written] }, b.readers.length)

def unsubscribe (b : Bus) (reader : Nat) : Bus := { b with readers := b.readers.set reader none }

def close (b : Bus) : Bus := { b with isOpen := false }

def oldest (b : Bus) (place : Nat) : Nat := max place (b.written - b.slots.length)

def receive (b : Bus) (reader : Nat) : Bus × Delivery :=
  match b.readers[reader]? with
  | some (some place) =>
    let place := b.oldest place
    if place < b.written then
      match b.slots[b.slotOf place]? with
      | some (some e) => ({ b with readers := b.readers.set reader (some (place + 1)) }, .event e)
      | _ => (b, .pending)
    else (b, if b.isOpen then .pending else .closed)
  | _ => (b, .closed)

inductive Action where
  | publish (e : Event)
  | subscribe
  | unsubscribe (reader : Nat)
  | receive (reader : Nat)
  | close
deriving DecidableEq, Repr

def act (b : Bus) : Action → Bus × Option Delivery
  | .publish e => ((b.publish e).1, none)
  | .subscribe => (b.subscribe.1, none)
  | .unsubscribe reader => (b.unsubscribe reader, none)
  | .receive reader => let (b, d) := b.receive reader; (b, some d)
  | .close => (b.close, none)

end Bus

end Letterbox
