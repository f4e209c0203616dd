/-! # Sets of characters by their numbers

A set is written as the runs of numbers that it holds, in ascending order, and as stretches of which
it holds every second number, which is how capital and small letters take turns. -/

namespace Letterbox

set_option autoImplicit false

structure CharTable where
  runs : List (Nat × Nat)
  alternating : List (Nat × Nat) := []

namespace CharTable

def inRuns (n : Nat) : List (Nat × Nat) → Bool
  | [] => false
  | (first, last) :: rest => if n < first then false else n ≤ last || inRuns n rest

def inStretch (n : Nat) (s : Nat × Nat) : Bool := s.1 ≤ n && n ≤ s.2 && (n - s.1) % 2 == 0

def contains (t : CharTable) (c : Char) : Bool :=
  inRuns c.toNat t.runs || t.alternating.any (inStretch c.toNat)

end CharTable

end Letterbox
