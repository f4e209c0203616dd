import Letterbox.Event.Json

/-! # Frames

An event on a line connection: one line of compact JSON. Line feeds inside strings are escaped, so a
frame holds one line feed, its last character. -/

namespace Letterbox.Event

set_option autoImplicit false

def toFrame (e : Event) : String := e.toJson.toText ++ "\n"

/-- Reads a line without its line feed; blanks around the event do not count. -/
def ofFrame (fresh : Nat → Uuid) (line : String) : Except Json.Fault Event :=
  Json.read (ofNode fresh) (Text.trim line)

end Letterbox.Event
