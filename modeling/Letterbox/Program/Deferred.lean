import Letterbox.Smtp.Receiver

/-! # A store that is asked from outside

A step of the program may need an answer of the store that only the outside can give. It is taken
with the answers that are known; where one is missing, the step says what is to be saved, and is
taken again from the beginning once that has been answered too. -/

namespace Letterbox

set_option autoImplicit false

structure Deferred where
  answers : List SaveAnswer := []
  /-- The first message for which there was no answer. -/
  wanted : Option Bytes := none

namespace Deferred

/-- Stands in for an answer that is missing; what comes of it is not kept. -/
def unanswered : Failure := .storage "not asked"

def keep : Smtp.Keep Deferred := fun d data =>
  match d.answers with
  | answer :: answers => (answer, { d with answers })
  | [] => (.error unanswered, { d with wanted := d.wanted.or (some data) })

end Deferred

end Letterbox
