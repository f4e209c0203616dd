import Letterbox.Event.Frame
import Letterbox.Net.Lines

/-! # Taking in events

The receiving end of the event link, as a protocol on lines. Frames are always UTF-8. A blank line
means nothing, and a line that holds no event is dropped; neither ends the connection, and nothing
is ever sent back. -/

namespace Letterbox.Event

set_option autoImplicit false

def ofLine? (fresh : Nat → Uuid) (line : String) : Option Event :=
  if Text.blankText line then none else (ofFrame fresh line).toOption

/-- The events taken in so far are the state. `fresh n` holds the identifiers for the rules of the
event after `n` others. -/
def intake (fresh : Nat → Nat → Uuid) : LineProtocol (List Event) where
  begin channel events := (channel.setEncoding .utf8, events, .ok ())
  line channel events raw :=
    let event? := ofLine? (fresh events.length) (channel.connection.encoding.decode raw)
    (channel, events ++ event?.toList, .proceed)

end Letterbox.Event
