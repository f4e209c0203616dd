import Letterbox.Smtp.Reply
import Letterbox.Smtp.Session
import Letterbox.Text.Blank
import Letterbox.Text.Numeral

/-! # Commands of a mail client

A line is a verb and what follows it. A chain of handlers is asked in order, and the first that
knows the verb answers. The order of commands is strict within a transaction: recipients need a
sender, data need a recipient, and a second sender is refused. -/

namespace Letterbox.Smtp

set_option autoImplicit false

open Text

structure Setup where
  hostname : String
  maxSize : Nat
deriving DecidableEq, Repr

inductive CommandKind where
  | greeting
  | mailFrom
  | rcptTo
  | data
  | reset
  | noop
  | verify
  | help
  | quit
deriving DecidableEq, Repr

namespace CommandKind

def verbs : CommandKind → List String
  | greeting => ["HELO", "EHLO"]
  | mailFrom => ["MAIL"]
  | rcptTo => ["RCPT"]
  | data => ["DATA"]
  | reset => ["RSET"]
  | noop => ["NOOP"]
  | verify => ["VRFY"]
  | help => ["HELP"]
  | quit => ["QUIT"]

def name : CommandKind → String
  | greeting => "Greeting"
  | mailFrom => "MailFrom"
  | rcptTo => "RcptTo"
  | data => "Data"
  | reset => "Reset"
  | noop => "Noop"
  | verify => "Verify"
  | help => "Help"
  | quit => "Quit"

def all : List CommandKind := [greeting, mailFrom, rcptTo, data, reset, noop, verify, help, quit]

end CommandKind

inductive Next where
  | proceed
  | captureData
  | quit
deriving DecidableEq, Repr

structure Outcome where
  reply : Reply
  next : Next := .proceed
  session : Session
deriving DecidableEq, Repr

structure CommandHandler where
  kind : CommandKind
  verbs : List String
deriving DecidableEq, Repr

abbrev CommandChain := List CommandHandler

def CommandHandler.ofKind (kind : CommandKind) : CommandHandler := ⟨kind, kind.verbs⟩

def CommandChain.standard : CommandChain := CommandKind.all.map CommandHandler.ofKind

/-! ## Parts of a line -/

def splitVerb (line : String) : String × String :=
  let cs := skipBlanks line.toList
  match cutAt ' ' cs with
  | some (verb, args) => (String.ofList verb, String.ofList (trimChars args))
  | none => (String.ofList (dropBlanksEnd cs), "")

def afterKeyword? (keyword : String) (cs : List Char) : Option (List Char) :=
  let n := keyword.toList.length
  if (cs.take n).map foldCase = keyword.toList.map foldCase then some (skipBlanks (cs.drop n))
  else none

/-- The address of a path and the parameters behind it. Angle brackets may be left out. -/
def parsePath? (cs : List Char) : Option (List Char × List Char) :=
  match trimChars cs with
  | '<' :: inner =>
    (cutAt '>' inner).map fun (address, rest) => (trimChars address, trimChars rest)
  | [] => none
  | bare => some (bare.takeWhile (!isBlank ·), trimChars (bare.dropWhile (!isBlank ·)))

def sizeLimit : Nat := 0xffffffffffffffff

def splitParameter (p : List Char) : String × String :=
  match cutAt '=' p with
  | some (key, value) => (String.ofList key, String.ofList value)
  | none => (String.ofList p, "")

def asksForUtf8 (key value : String) : Bool :=
  sameIgnoringCase key "SMTPUTF8" ||
    (sameIgnoringCase key "BODY" && sameIgnoringCase value "8BITMIME")

/-- Goes through the parameters of MAIL from the left. Answers whether UTF-8 is asked for, or the
reply to the first parameter that is refused. -/
def readParameters (maxSize : Nat) (utf8 : Bool) : List (List Char) → Except Reply Bool
  | [] => .ok utf8
  | p :: rest =>
    let (key, value) := splitParameter p
    if asksForUtf8 key value then readParameters maxSize true rest
    else if sameIgnoringCase key "SIZE" then
      match numeral? sizeLimit value.toList with
      | some n =>
        if maxSize < n then .error (.tooLarge maxSize) else readParameters maxSize utf8 rest
      | none => .error (.syntaxError "invalid SIZE")
    else readParameters maxSize utf8 rest

/-! ## Commands -/

def maxRecipients : Nat := 100

def extensions (setup : Setup) (banner : String) : List String :=
  [banner, "8BITMIME", "SMTPUTF8", s!"SIZE {setup.maxSize}", "HELP"]

def greet (setup : Setup) (verb args : String) (s : Session) : Outcome :=
  match words args with
  | [] => { reply := .syntaxError "domain required", session := s }
  | domain :: _ =>
    let banner := setup.hostname ++ " Hello " ++ domain
    { reply :=
        if sameIgnoringCase verb "EHLO" then ⟨250, extensions setup banner⟩ else .line 250 banner
      session := { s with helo := some domain }.reset }

def mailFrom (setup : Setup) (args : String) (s : Session) : Outcome :=
  if s.hasSender then { reply := .badSequence, session := s }
  else match afterKeyword? "FROM:" args.toList with
    | none => { reply := .syntaxError "expected FROM:<address>", session := s }
    | some rest => match parsePath? rest with
      | none => { reply := .syntaxError "malformed reverse-path", session := s }
      | some (address, parameters) =>
        match readParameters setup.maxSize false (pieces isBlank parameters) with
        | .error reply => { reply, session := s }
        | .ok utf8 =>
          { reply := .ok, session := { s with sender := some (String.ofList address), utf8 } }

def rcptTo (args : String) (s : Session) : Outcome :=
  if !s.hasSender then { reply := .badSequence, session := s }
  else match afterKeyword? "TO:" args.toList with
    | none => { reply := .syntaxError "expected TO:<address>", session := s }
    | some rest => match parsePath? rest with
      | none | some ([], _) => { reply := .syntaxError "malformed forward-path", session := s }
      | some (address, _) =>
        if maxRecipients ≤ s.recipients.length then
          { reply := .tooManyRecipients maxRecipients, session := s }
        else
          let recipients := s.recipients ++ [String.ofList address]
          { reply := .ok, session := { s with recipients } }

def data (s : Session) : Outcome :=
  if s.hasSender && s.hasRecipients then
    { reply := .startData, next := .captureData, session := { s with message := [] } }
  else { reply := .badSequence, session := s }

def verifyReply : Reply :=
  .line 252 "Cannot VRFY user, but will accept message and attempt delivery"

def helpReply : Reply := .line 214 "Commands: HELO EHLO MAIL RCPT DATA RSET NOOP VRFY HELP QUIT"

namespace CommandHandler

def knows (h : CommandHandler) (verb : String) : Bool := h.verbs.any (sameIgnoringCase · verb)

def execute (setup : Setup) (h : CommandHandler) (verb args : String) (s : Session) : Outcome :=
  match h.kind with
  | .greeting => greet setup verb args s
  | .mailFrom => mailFrom setup args s
  | .rcptTo => rcptTo args s
  | .data => data s
  | .reset => { reply := .ok, session := s.reset }
  | .noop => { reply := .ok, session := s }
  | .verify => { reply := verifyReply, session := s }
  | .help => { reply := helpReply, session := s }
  | .quit => { reply := .closing setup.hostname, next := .quit, session := s }

end CommandHandler

structure Dispatched where
  handler : Option Nat
  outcome : Outcome
deriving DecidableEq, Repr

def CommandChain.dispatch (chain : CommandChain) (setup : Setup) (line : String) (s : Session) :
    Dispatched :=
  let (verb, args) := splitVerb line
  match chain.findIdx? (·.knows verb) with
  | none => ⟨none, { reply := .unrecognized, session := s }⟩
  | some i => match chain[i]? with
    | none => ⟨none, { reply := .unrecognized, session := s }⟩
    | some h => ⟨some i, h.execute setup verb args s⟩

end Letterbox.Smtp
