import Letterbox.Failure

/-! # Trying again

An action is tried until it succeeds or has been tried often enough, with the same pause after every
failure but the last. `course` gives the whole course of events at once; `Trials` goes through it
one event at a time, for when other things happen in between. -/

namespace Letterbox

set_option autoImplicit false

variable {α : Type}

structure Attempt where
  number : Nat
  action : String
  error : Option String
deriving DecidableEq, Repr

def Attempt.succeeded (a : Attempt) : Bool := a.error.isNone

namespace Retry

/-- An action is tried at least once. -/
def limit (maxAttempts : Nat) : Nat := max 1 maxAttempts

structure Trial (α : Type) where
  takes : Nat := 0
  answer : Except Failure α

structure Course (α : Type) where
  result : Except Failure α
  attempts : List Attempt
  began : List (Nat × Nat)
  pauses : List Nat := []
  finish : Nat

/-- The course from attempt `number` on, which begins at `now`; `left` further attempts may follow
it. -/
def courseFrom (action : String) (pause : Nat) (trial : Nat → Trial α) :
    (left number now : Nat) → Course α
  | left, number, now =>
    let t := trial number
    let finish := now + t.takes
    match t.answer with
    | .ok a => ⟨.ok a, [⟨number, action, none⟩], [(number, now)], [], finish⟩
    | .error f =>
      let attempt : Attempt := ⟨number, action, some f.message⟩
      match left with
      | 0 => ⟨.error (.dispatch number f.message), [attempt], [(number, now)], [], finish⟩
      | left + 1 =>
        let c := courseFrom action pause trial left (number + 1) (finish + pause)
        { c with
          attempts := attempt :: c.attempts
          began := (number, now) :: c.began
          pauses := pause :: c.pauses }

def course (action : String) (maxAttempts pause : Nat) (trial : Nat → Trial α) : Course α :=
  courseFrom action pause trial (limit maxAttempts - 1) 1 0

inductive Phase (α : Type) where
  | trying
  | pausing (til : Nat)
  | ended (result : Except Failure α)

structure Trials (α : Type) where
  action : String
  limit : Nat
  pause : Nat
  attempts : List Attempt := []
  phase : Phase α := .trying

namespace Trials

def start (action : String) (maxAttempts pause : Nat) : Trials α :=
  { action, limit := Retry.limit maxAttempts, pause }

/-- The number of the attempt that is being made or comes next. -/
def number (t : Trials α) : Nat := t.attempts.length + 1

def result? (t : Trials α) : Option (Except Failure α) :=
  match t.phase with
  | .ended result => some result
  | .trying | .pausing _ => none

def answered (t : Trials α) (now : Nat) (answer : Except Failure α) : Trials α :=
  match t.phase with
  | .trying =>
    match answer with
    | .ok a =>
      { t with attempts := t.attempts ++ [⟨t.number, t.action, none⟩], phase := .ended (.ok a) }
    | .error f =>
      { t with
        attempts := t.attempts ++ [⟨t.number, t.action, some f.message⟩]
        phase :=
          if t.limit ≤ t.number then .ended (.error (.dispatch t.number f.message))
          else .pausing (now + t.pause) }
  | .pausing _ | .ended _ => t

def resumed (t : Trials α) : Trials α :=
  match t.phase with
  | .pausing _ => { t with phase := .trying }
  | .trying | .ended _ => t

end Trials

end Retry

end Letterbox
