import Letterbox.Failure

/-! # How programs end

A program that was started ends with a status or by a signal; one that cannot be started does not
run at all. -/

namespace Letterbox

set_option autoImplicit false

inductive Ending where
  | exited (status : Nat)
  | killed (signal : Nat)
deriving DecidableEq, Repr

namespace Ending

def signals : List (Nat × String) :=
  [(1, "HUP"), (2, "INT"), (3, "QUIT"), (4, "ILL"), (5, "TRAP"), (6, "ABRT"), (7, "BUS"),
   (8, "FPE"), (9, "KILL"), (10, "USR1"), (11, "SEGV"), (12, "USR2"), (13, "PIPE"), (14, "ALRM"),
   (15, "TERM"), (16, "STKFLT"), (24, "XCPU"), (25, "XFSZ"), (26, "VTALRM"), (27, "PROF"),
   (29, "IO"), (30, "PWR"), (31, "SYS")]

def toText : Ending → String
  | exited status => s!"exit status: {status}"
  | killed signal => s!"signal: {signal}" ++ match signals.lookup signal with
    | some name => " (SIG" ++ name ++ ")"
    | none => ""

def isSuccess (e : Ending) : Bool := e = .exited 0

/-- What running a program comes to: anything but a success is a failure. -/
def verdict (program : String) : Except SystemFault Ending → Except Failure Unit
  | .error fault => .error (.process ("failed to start " ++ program ++ ": " ++ fault.message))
  | .ok e =>
    if e.isSuccess then .ok () else .error (.process (program ++ " exited with " ++ e.toText))

end Ending

end Letterbox
