import Letterbox.Dispatch.Outcome
import Letterbox.Rule.Arguments
import Letterbox.Rule.Match
import Letterbox.Smtp.Envelope

/-! # Errands

What a rule has to do for a message: hand it on to a host, or run a program. -/

namespace Letterbox

set_option autoImplicit false

inductive Errand where
  | relay (host : RelayHost) (envelope : Envelope) (policy : RetryPolicy)
  | invoke (program : String) (arguments : List String)
deriving DecidableEq, Repr

namespace Errand

def name : Errand → String
  | relay host _ _ => "relay via " ++ host.toText
  | invoke program _ => "invoke " ++ program

/-- A program is run once and never again. -/
def policy : Errand → RetryPolicy
  | relay _ _ policy => policy
  | invoke .. => .single

end Errand

namespace Rule

def errand? (r : Rule) (m : ReceivedMessage) : Option Errand :=
  match r.action with
  | .relay via | .conditionalRelay _ _ via =>
    some (.relay via.host ⟨m.sender, m.recipients⟩ via.retry)
  | .forward recipient sender via =>
    some (.relay via.host ⟨sender.getD m.sender, [recipient]⟩ via.retry)
  | .invokeProcess program commandLine =>
    some (.invoke program (Arguments.expand commandLine m.path))
  | .mailRetention _ => none

def applies (r : Rule) (m : Message) : Bool := (r.acceptsMessage m).toOption.getD false

def applicable (rules : List Rule) (m : Message) : List Rule := rules.filter (·.applies m)

end Rule

structure Run where
  rule : Rule
  errand : Errand
  trials : Retry.Trials Unit

namespace Run

def start (rule : Rule) (errand : Errand) : Run :=
  { rule, errand, trials := .start errand.name errand.policy.maxAttempts errand.policy.pauseMillis }

def outcome (r : Run) (result : Except Failure Unit) : Outcome :=
  { ruleId := r.rule.id, ruleKind := r.rule.kind, attempts := r.trials.attempts
    error := match result with
      | .ok () => none
      | .error f => some f.message }

def outcome? (r : Run) : Option Outcome := r.trials.result?.map r.outcome

def ofRules (rules : List Rule) (m : ReceivedMessage) (raw : Bytes) : List Run :=
  (Rule.applicable rules (Message.ofBytes raw)).filterMap fun r => (r.errand? m).map (start r)

end Run

/-! ## All at once

Where the answers that a rule gets depend on nothing but the rule, the message and the number of the
attempt, the outcomes can be given without the order in which things happen. -/

abbrev Answers := Rule → ReceivedMessage → Nat → Except Failure Unit

def Rule.outcomeFor (answers : Answers) (m : ReceivedMessage) (r : Rule) : Outcome :=
  let e := r.errand? m
  let c := Retry.course ((e.map Errand.name).getD "") ((e.map (·.policy.maxAttempts)).getD 1)
    ((e.map (·.policy.pauseMillis)).getD 0) fun n => { answer := answers r m n }
  { ruleId := r.id, ruleKind := r.kind, attempts := c.attempts
    error := match c.result with
      | .ok () => none
      | .error f => some f.message }

/-- The outcomes of all rules that act on a message, which the store has given as `loaded`. Where no
rule is waiting for messages, the store is not asked. -/
def dispatchMessage (rules : List Rule) (loaded : Except Failure Bytes) (answers : Answers)
    (m : ReceivedMessage) : List Outcome :=
  if rules.any (·.actsOnMessages) then
    match loaded with
    | .ok raw => (Rule.applicable rules (Message.ofBytes raw)).map (Rule.outcomeFor answers m)
    | .error _ => []
  else []

end Letterbox
