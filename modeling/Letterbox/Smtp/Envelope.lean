import Letterbox.Text.Utf8

/-! # Envelopes -/

namespace Letterbox

set_option autoImplicit false

structure Envelope where
  sender : String
  recipients : List String
deriving DecidableEq, Repr

end Letterbox
