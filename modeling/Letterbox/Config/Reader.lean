import Letterbox.Config.Basic
import Letterbox.Store.TextFile
import Letterbox.Toml.Reader

/-! # Reading the configuration

Every setting may be missing, and unknown ones do not matter. A section is a table, or an array of
its settings in order. -/

namespace Letterbox.Config

set_option autoImplicit false

open Toml

/-- A setting of a section: its name, and how its value changes the section. -/
abbrev Setting (σ : Type) := String × (σ → Value → Option σ)

variable {σ : Type}

def text (f : σ → String → σ) (s : σ) : Value → Option σ
  | .text t => some (f s t)
  | _ => none

def boolean (f : σ → Bool → σ) (s : σ) : Value → Option σ
  | .boolean b => some (f s b)
  | _ => none

def natural (limit : Nat) (f : σ → Nat → σ) (s : σ) : Value → Option σ
  | .integer n => if 0 ≤ n ∧ n ≤ limit then some (f s n.toNat) else none
  | _ => none

def port (f : σ → UInt16 → σ) : σ → Value → Option σ := natural 65535 fun s n => f s n.toUInt16

def amount (f : σ → Nat → σ) : σ → Value → Option σ := natural 0xffffffffffffffff f

def ofFields (settings : List (Setting σ)) : σ → Fields → Option σ
  | s, [] => some s
  | s, (key, v) :: rest => match settings.lookup key with
    | none => ofFields settings s rest
    | some f => do ofFields settings (← f s v) rest

def ofItems : List (Setting σ) → σ → List Value → Option σ
  | (_, f) :: settings, s, v :: rest => do ofItems settings (← f s v) rest
  | _, s, _ => some s

def table (settings : List (Setting σ)) (s : σ) : Value → Option σ
  | .table _ fields => ofFields settings s fields
  | .array items => ofItems settings s items
  | .tables rows => ofItems settings s (rows.map (.table .header))
  | .moment => some s
  | _ => none

def serverSettings : List (Setting Server) :=
  [("hostname", text fun s t => { s with hostname := t })]

def mailSettings : List (Setting Mail) :=
  [("address", text fun s t => { s with address := t }),
   ("port", port fun s n => { s with port := n }),
   ("max_message_size", amount fun s n => { s with maxMessageSize := n }),
   ("idle_timeout_secs", amount fun s n => { s with idleTimeoutSecs := n }),
   ("shutdown_grace_secs", amount fun s n => { s with shutdownGraceSecs := n })]

def linkSettings : List (Setting Link) :=
  [("enabled", boolean fun s b => { s with enabled := b }),
   ("service_address", text fun s t => { s with serviceAddress := t }),
   ("service_port", port fun s n => { s with servicePort := n }),
   ("ui_address", text fun s t => { s with uiAddress := t }),
   ("ui_port", port fun s n => { s with uiPort := n }),
   ("publish_timeout_ms", amount fun s n => { s with publishTimeoutMillis := n })]

def storageSettings : List (Setting Storage) :=
  [("message_path", text fun s t => { s with messagePath := t })]

def rulesSettings : List (Setting Rules) :=
  [("rules_path", text fun s t => { s with path := some t }),
   ("retention_sweep_interval_secs", amount fun s n => { s with sweepIntervalSecs := n })]

def eventsSettings : List (Setting Events) :=
  [("bus_capacity", amount fun s n => { s with busCapacity := n })]

def loggingSettings : List (Setting Logging) :=
  [("level", text fun s t => { s with level := t }),
   ("format", text fun s t => { s with format := t })]

def subsection {τ : Type} (settings : List (Setting τ)) (get : σ → τ) (put : σ → τ → σ) (s : σ)
    (v : Value) : Option σ :=
  (table settings (get s) v).map (put s)

def settings : List (Setting Config) :=
  [("server", subsection serverSettings (·.server) fun c x => { c with server := x }),
   ("smtp", subsection mailSettings (·.mail) fun c x => { c with mail := x }),
   ("ipc", subsection linkSettings (·.link) fun c x => { c with link := x }),
   ("storage", subsection storageSettings (·.storage) fun c x => { c with storage := x }),
   ("rules", subsection rulesSettings (·.rules) fun c x => { c with rules := x }),
   ("events", subsection eventsSettings (·.events) fun c x => { c with events := x }),
   ("logging", subsection loggingSettings (·.logging) fun c x => { c with logging := x })]

def ofText? (machine : String) (s : String) : Option Config := do
  ofFields settings (ofMachine machine) (← document? s)

def ofText (machine : String) (s : String) : Except Failure Config :=
  match ofText? machine s with
  | none => .error .unreadableConfig
  | some c => do
    c.validate
    return c

def load (machine : String) (file : FileAnswer) : Except Failure Config :=
  match file.text with
  | .error e => .error (.config e.message)
  | .ok s => ofText machine s

end Letterbox.Config
