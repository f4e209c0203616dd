import Letterbox.Message.Body
import Letterbox.Pattern.Syntax
import Letterbox.Rule.Basic

/-! # Which messages a rule acts on -/

namespace Letterbox.Rule

set_option autoImplicit false

/-- The pattern of a setting; an empty text is no pattern. -/
def readPattern : Option String → Except Failure (Option Pattern)
  | none => .ok none
  | some s =>
    if s.isEmpty then .ok none
    else match Pattern.ofText? s with
      | some p => .ok (some p)
      | none => .error (.ruleMatch ("invalid pattern '" ++ s ++ "'"))

/-- Whether the header pattern occurs in a header, or the body pattern in the text. Both must be
patterns, the one for headers first. -/
def patternsMatch (header body : Option String) (m : Message) : Except Failure Bool := do
  let headerPattern ← readPattern header
  let bodyPattern ← readPattern body
  return headerPattern.any (fun p => m.headers.any fun h => p.occursIn h.toList) ||
    bodyPattern.any (·.occursIn m.text.toList)

def acceptsMessage (r : Rule) (m : Message) : Except Failure Bool :=
  if r.enabled then
    match r.action with
    | .relay _ | .forward .. | .invokeProcess .. => .ok true
    | .conditionalRelay header body _ => patternsMatch header body m
    | .mailRetention _ => .ok false
  else .ok false

end Letterbox.Rule
