import Letterbox.Dispatch.Retry
import Letterbox.Event.Basic

/-! # What came of a rule -/

namespace Letterbox

set_option autoImplicit false

structure Outcome where
  ruleId : Uuid
  ruleKind : Rule.Kind
  attempts : List Attempt
  error : Option String
deriving DecidableEq, Repr

namespace Outcome

def success (o : Outcome) : Bool := o.error.isNone

/-- The announcement of a failure; the path is that of the message, if the rule was at work on
one. -/
def failureEvent (o : Outcome) (path : Option String) : Option Event :=
  o.error.map fun error =>
    .ruleDispatchFailed
      { ruleId := o.ruleId, ruleKind := o.ruleKind, path
        attempts := o.attempts.length.toUInt32, error }

def failureEvents (path : Option String) (outcomes : List Outcome) : List Event :=
  outcomes.filterMap (·.failureEvent path)

end Outcome

end Letterbox
