/-! # Replies of a mail server

A code and any number of text lines. On the wire all lines but the last have a hyphen behind the
code. -/

namespace Letterbox.Smtp

set_option autoImplicit false

structure Reply where
  code : Nat
  lines : List String
deriving DecidableEq, Repr

namespace Reply

def line (code : Nat) (text : String) : Reply := ⟨code, [text]⟩

def ok : Reply := line 250 "OK"

def greeting (hostname : String) : Reply := line 220 (hostname ++ " ESMTP mailsink ready")

def startData : Reply := line 354 "Start mail input; end with <CRLF>.<CRLF>"

def closing (hostname : String) : Reply := line 221 (hostname ++ " closing connection")

def unrecognized : Reply := line 500 "Syntax error, command unrecognized"

def lineTooLong : Reply := line 500 "Line too long"

def syntaxError (detail : String) : Reply := line 501 ("Syntax error in parameters: " ++ detail)

def badSequence : Reply := line 503 "Bad sequence of commands"

def tooLarge (maxSize : Nat) : Reply := line 552 s!"Message size exceeds limit of {maxSize} bytes"

def tooManyRecipients (most : Nat) : Reply := line 452 s!"Too many recipients (max {most})"

def queued (name : String) : Reply := line 250 ("OK: message queued as " ++ name)

def notStored : Reply := line 451 "Requested action aborted: local error in processing"

def isPositive (r : Reply) : Bool := 200 ≤ r.code && r.code < 400

def formatLines (code : Nat) : List String → String
  | [] => toString code ++ " \r\n"
  | [last] => toString code ++ " " ++ last ++ "\r\n"
  | line :: rest => toString code ++ "-" ++ line ++ "\r\n" ++ formatLines code rest

/-- The text on the wire. A reply without lines is written as one empty line. -/
def format (r : Reply) : String := formatLines r.code r.lines

end Reply

end Letterbox.Smtp
