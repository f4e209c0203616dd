import Letterbox.Dispatch.Clockwork
import Letterbox.Host.Program

/-! # Surroundings made up for a dispatcher

A store in memory whose messages have any age, hosts that answer from lists, and the programs of a
bare system. -/

namespace Letterbox

set_option autoImplicit false

structure Handover where
  host : RelayHost
  envelope : Envelope
  data : Bytes
  time : Nat
deriving DecidableEq, Repr

structure Surroundings where
  messages : List (StoredMessage × Bytes) := []
  stuck : List String := []
  hidden : Bool := false
  listTakes : Nat := 0
  /-- What each host answers, call after call; the last answer stays. `ok` is a success. -/
  hosts : List (String × List String) := []
  handovers : List Handover := []
  disk : Disk := Host.bareDisk

namespace Surroundings

def pathOf (name : String) : String := "/store/" ++ name

def insert (s : Surroundings) (name : String) (data : Bytes) (age : Int) : Surroundings :=
  let entry : StoredMessage :=
    { path := pathOf name, name, size := data.length.toUInt64, createdAt := -age * 1000000000 }
  { s with messages := s.messages ++ [(entry, data)] }

def names (s : Surroundings) : List String := s.messages.map (·.1.name)

def hostAnswer (s : Surroundings) (host : String) : Except Failure Unit :=
  match s.hosts.lookup host with
  | none => .ok ()
  | some answers =>
    let calls := (s.handovers.filter (·.host.host = host)).length
    match (answers.drop (min calls (answers.length - 1))).head? with
    | none | some "ok" => .ok ()
    | some text => .error (.transport text)

def hiddenFailure : Failure := .storage "cannot list"

def world : World Surroundings where
  load s path := match s.messages.find? (·.1.path = path) with
    | some (_, data) => .ok data
    | none => .error (.storage "not found")
  perform s now e data := match e with
    | .relay host envelope _ =>
      (s.hostAnswer host.host, { s with handovers := s.handovers ++ [⟨host, envelope, data, now⟩] })
    | .invoke program arguments =>
      let (ending, disk) := Host.run s.disk program arguments
      (Ending.verdict program ending, { s with disk })
  list s := if s.hidden then .error hiddenFailure else .ok (s.messages.map (·.1))
  listTakes := listTakes
  delete s m :=
    if s.stuck.contains m.name then (.error Shelf.inUse, s)
    else (.ok (), { s with messages := s.messages.filter (·.1.path != m.path) })
  clock _ := 0

def shelf (s : Surroundings) : Shelf :=
  { messages := s.messages.map (·.1), stuck := fun m => s.stuck.contains m.name
    hidden := if s.hidden then some hiddenFailure else none }

/-- Sweeps once with nothing else going on. Answers the time that it took. -/
def sweepAlone (s : Surroundings) (rules : List Rule) : Nat × List Outcome × Surroundings :=
  let (outcomes, left) := s.shelf.sweepAll 0 rules
  (Retention.listings rules * s.listTakes, outcomes,
    { s with messages := s.messages.filter fun m => left.messages.contains m.1 })

end Surroundings

end Letterbox
