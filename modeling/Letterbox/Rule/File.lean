import Letterbox.Rule.Json
import Letterbox.Store.TextFile

/-! # Rules from a file -/

namespace Letterbox.Rule

set_option autoImplicit false

def load (fresh : Nat → Uuid) (path : String) (file : FileAnswer) : Except Failure (List Rule) :=
  match file.text with
  | .ok s => parseAll fresh s
  | .error e => .error (.config ("cannot read rules " ++ path ++ ": " ++ e.message))

end Letterbox.Rule
