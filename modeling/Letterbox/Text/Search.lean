/-! # Finding a row of items in a list -/

namespace Letterbox.Text

set_option autoImplicit false

variable {α : Type} [BEq α]

def cutAround (needle : List α) : List α → Option (List α × List α)
  | [] => if needle.isEmpty then some ([], []) else none
  | a :: rest =>
    if needle.isPrefixOf (a :: rest) then some ([], (a :: rest).drop needle.length)
    else (cutAround needle rest).map fun (before, after) => (a :: before, after)

def dropPrefix? (needle l : List α) : Option (List α) :=
  if needle.isPrefixOf l then some (l.drop needle.length) else none

end Letterbox.Text
