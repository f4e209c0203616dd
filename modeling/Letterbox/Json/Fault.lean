/-! # Why a JSON text was refused -/

namespace Letterbox.Json

set_option autoImplicit false

inductive Fault where
  | truncated
  | malformed
  | mismatched
deriving DecidableEq, Repr

def Fault.name : Fault → String
  | truncated => "<eof>"
  | malformed => "<syntax>"
  | mismatched => "<data>"

end Letterbox.Json
