import Letterbox.Failure
import Letterbox.Text.Utf8

/-! # Files of text

What a file holds or why it cannot be read is an input of whoever needs the file; here its bytes
become text. -/

namespace Letterbox

set_option autoImplicit false

abbrev FileAnswer := Except SystemFault Bytes

def FileAnswer.text (file : FileAnswer) : Except SystemFault String := do
  match Utf8.decode? (← file) with
  | .ok s => return s
  | .error _ => throw .notText

end Letterbox
