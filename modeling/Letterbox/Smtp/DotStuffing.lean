import Letterbox.Net.Lines

/-! # Dot stuffing

A message as it is sent: every line ends in CR LF, and a line that begins with a dot is given
another one, so that no line of the message is taken for its end. -/

namespace Letterbox.Smtp

set_option autoImplicit false

open Lines in
def splitLf : Bytes → List Bytes
  | [] => [[]]
  | b :: rest =>
    if b = lf then [] :: splitLf rest
    else match splitLf rest with
      | [] => [[b]]
      | l :: ls => (b :: l) :: ls

open Lines in
/-- The lines of a message: a line feed at its very end begins no further line, and one carriage
return before a line feed belongs to it. -/
def messageLines (data : Bytes) : List Bytes :=
  let body := if data.getLast? = some lf then data.dropLast else data
  (splitLf body).map fun l => if l.getLast? = some cr then l.dropLast else l

def stuffLine (l : Bytes) : Bytes :=
  (match l with
    | 46 :: _ => 46 :: l
    | _ => l) ++ [13, 10]

/-- The message as it is sent, without the line that ends it. An empty message stays empty. -/
def dotStuff (data : Bytes) : Bytes :=
  if data.isEmpty then [] else (messageLines data).flatMap stuffLine

end Letterbox.Smtp
