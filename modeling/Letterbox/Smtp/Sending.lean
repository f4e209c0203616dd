import Letterbox.Failure
import Letterbox.Net.Lines
import Letterbox.Smtp.DotStuffing
import Letterbox.Smtp.Envelope
import Letterbox.Text.Base64
import Letterbox.Text.Blank
import Letterbox.Text.Numeral

/-! # Handing mail on

The sending side of SMTP. What is said is fixed beforehand as a row of exchanges: each writes
something and waits for a reply with a certain code. The first reply with another code ends the
talk, and so does any fault of the connection. Only the reply to the last exchange, the farewell, is
not heeded. -/

namespace Letterbox.Smtp

set_option autoImplicit false

/-- Something that is said, in the pieces in which it is written, and the code that must come
back. -/
structure Exchange where
  writes : List Bytes
  expected : Nat
  heeded : Bool := true
deriving DecidableEq, Repr

namespace Exchange

def say (line : String) (expected : Nat) : Exchange :=
  ⟨[Utf8.encode (line ++ "\r\n")], expected, true⟩

def greeting : Exchange := ⟨[], 220, true⟩

def hello (name : String) : Exchange := say ("EHLO " ++ name) 250

def loginToken (user password : String) : String :=
  String.ofList (Base64.encode (Utf8.encode ("\x00" ++ user ++ "\x00" ++ password)))

def login (user password : String) : Exchange := say ("AUTH PLAIN " ++ loginToken user password) 235

def sender (address : String) : Exchange := say ("MAIL FROM:<" ++ address ++ ">") 250

def recipient (address : String) : Exchange := say ("RCPT TO:<" ++ address ++ ">") 250

def data : Exchange := say "DATA" 354

def body (message : Bytes) : Exchange := ⟨[dotStuff message, [46, 13, 10]], 250, true⟩

def farewell : Exchange := { say "QUIT" 221 with heeded := false }

def script (name : String) (credentials : Option (String × String)) (e : Envelope)
    (message : Bytes) : List Exchange :=
  [greeting, hello name] ++ (credentials.map fun (user, password) => login user password).toList ++
    sender e.sender :: (e.recipients.map recipient ++ [data, body message, farewell])

end Exchange

/-! ## Replies -/

namespace Sending

def isLast (raw : Bytes) : Bool := raw[3]? ≠ some 45

/-- The code of a reply: its first three characters, read as a number. -/
def codeOf? (reply : Bytes) : Option Nat :=
  if reply.length < 3 then none
  else Text.numeral? 65535 ((reply.take 3).map fun b => Char.ofNat b.toNat)

def unexpected (expected : Nat) (reply : Bytes) : Failure :=
  .protocolViolation (s!"expected {expected}, got: " ++ Text.trimEnd (Utf8.decode reply))

inductive Cut where
  | ended
  | silent
  | broken (text : String)
deriving DecidableEq, Repr

def Cut.failure : Cut → Failure
  | ended => .transport "relay closed the connection"
  | silent => .transport "timed out waiting for relay"
  | broken text => .system (.other text)

end Sending

/-! ## The talk -/

inductive Sending.Stage where
  | waiting (reply : Bytes) (exchange : Exchange) (later : List Exchange)
  | ended (result : Except Failure Unit)

structure Sending where
  stage : Sending.Stage
  sent : Bytes := []
  pending : Bytes := []

namespace Sending

/-- Given what was written and what is to be written next, why that fails, if it does, and how much
of it is written all the same. -/
abbrev Refusal := Bytes → Bytes → Option (Nat × String)

def never : Refusal := fun _ _ => none

def writeAll (refuses : Refusal) (sent : Bytes) : List Bytes → Bytes × Except Failure Unit
  | [] => (sent, .ok ())
  | p :: rest => match refuses sent p with
    | none => writeAll refuses (sent ++ p) rest
    | some (kept, text) => (sent ++ p.take kept, .error (.system (.other text)))

def next (refuses : Refusal) (t : Sending) : List Exchange → Sending
  | [] => { t with stage := .ended (.ok ()) }
  | e :: later => match writeAll refuses t.sent e.writes with
    | (sent, .ok ()) => { t with sent, stage := .waiting [] e later }
    | (sent, .error f) => { t with sent, stage := .ended (.error f) }

def start (refuses : Refusal) (script : List Exchange) : Sending :=
  next refuses { stage := .ended (.ok ()) } script

def fail (t : Sending) (e : Exchange) (f : Failure) : Sending :=
  { t with stage := .ended (if e.heeded then .error f else .ok ()) }

def line (refuses : Refusal) (t : Sending) (raw : Bytes) : Sending :=
  match t.stage with
  | .ended _ => t
  | .waiting reply e later => match Utf8.fault? raw with
    | some f => t.fail e (.system (.other f.message))
    | none =>
      let reply := reply ++ raw
      if isLast raw then
        if codeOf? reply = some e.expected then t.next refuses later
        else t.fail e (unexpected e.expected reply)
      else { t with stage := .waiting reply e later }

def isEnded (t : Sending) : Bool :=
  match t.stage with
  | .ended _ => true
  | .waiting .. => false

def drain (refuses : Refusal) (t : Sending) : Sending :=
  let handle := fun (t : Sending) raw =>
    let t := t.line refuses (raw ++ [Lines.lf])
    (t, if t.isEnded then Flow.close else .proceed)
  if t.isEnded then t
  else
    let (t', pending, _) := Lines.drain handle t t.pending
    { t' with pending }

def feed (refuses : Refusal) (t : Sending) (piece : Bytes) : Sending :=
  { t with pending := t.pending ++ piece }.drain refuses

/-- Nothing more comes. What was left by the end without a line feed is a line. -/
def finish (refuses : Refusal) (t : Sending) (cut : Cut) : Sending :=
  let t :=
    if cut = .ended ∧ t.pending ≠ [] then { t.line refuses t.pending with pending := [] } else t
  match t.stage with
  | .ended _ => t
  | .waiting _ e _ => t.fail e cut.failure

def result? (t : Sending) : Option (Except Failure Unit) :=
  match t.stage with
  | .ended result => some result
  | .waiting .. => none

def talk (refuses : Refusal) (script : List Exchange) (pieces : List Bytes) (cut : Cut) : Sending :=
  (pieces.foldl (·.feed refuses ·) (start refuses script)).finish refuses cut

end Sending

end Letterbox.Smtp
