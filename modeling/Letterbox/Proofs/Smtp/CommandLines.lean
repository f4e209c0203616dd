import Letterbox.Event.Intake
import Letterbox.Proofs.Net.Rows
import Letterbox.Proofs.Smtp.Acceptance
import Letterbox.Proofs.Smtp.Addresses
import Letterbox.Proofs.Text.Plain

/-!
# What is said before a message

Every text that goes into a command is written as it is. With a far side that grants everything, the
lines that it hears before the message are the commands, each once and in order, if no address of
the envelope has a line feed in it, and only then. Addresses that came in over SMTP have none; those
of an event frame or of a forwarding rule may.
-/

namespace Letterbox

set_option autoImplicit false

open Lines

namespace Smtp

open Sending

/-! ## What is said -/

namespace Exchange

def commands (name : String) (credentials : Option (String × String)) (e : Envelope) :
    List String :=
  ["EHLO " ++ name] ++
    (credentials.map fun (user, password) => "AUTH PLAIN " ++ loginToken user password).toList ++
      ("MAIL FROM:<" ++ e.sender ++ ">") ::
        (e.recipients.map (fun r => "RCPT TO:<" ++ r ++ ">") ++ ["DATA"])

def wire (e : Exchange) : Bytes := e.writes.flatten

theorem wire_say (text : String) (code : Nat) :
    (say text code).wire = Utf8.encode text ++ [cr, lf] := by
  simp only [wire, say, List.flatten_cons, List.flatten_nil, List.append_nil, encode_append_utf8]
  rfl

/-- What tells a far side who a message is from and for. -/
def addressing (e : Envelope) : List Exchange := sender e.sender :: e.recipients.map recipient

def addressLines (e : Envelope) : List String :=
  ("MAIL FROM:<" ++ e.sender ++ ">") :: e.recipients.map fun a => "RCPT TO:<" ++ a ++ ">"

theorem map_wire_addressing (e : Envelope) :
    (addressing e).map wire = (addressLines e).map fun l => Utf8.encode l ++ [cr, lf] := by
  simp only [addressing, addressLines, List.map_cons, List.map_map, sender, wire_say]
  congr 1
  exact List.map_congr_left fun a _ => wire_say _ _

def opening (name : String) (credentials : Option (String × String)) (e : Envelope) :
    List Exchange :=
  [greeting, hello name] ++ (credentials.map fun (user, password) => login user password).toList ++
    sender e.sender :: e.recipients.map recipient

variable (name : String) (credentials : Option (String × String)) (e : Envelope)

/-- The last that is said before the message is who it is from and for. -/
theorem opening_eq :
    opening name credentials e = [greeting, hello name] ++
      (credentials.map fun (user, password) => login user password).toList ++ addressing e := rfl

theorem commands_eq :
    commands name credentials e = ["EHLO " ++ name] ++
      (credentials.map fun (user, password) => "AUTH PLAIN " ++ loginToken user password).toList ++
        (addressLines e ++ ["DATA"]) := rfl

theorem script_eq (message : Bytes) :
    script name credentials e message =
      opening name credentials e ++ data :: [body message, farewell] := by
  simp only [script, opening, List.append_assoc, List.cons_append]

theorem heeded_opening {x : Exchange} (hx : x ∈ opening name credentials e) : x.heeded = true := by
  simp only [opening, List.mem_append, List.mem_cons, List.mem_map, Option.mem_toList,
    Option.map_eq_some_iff, List.not_mem_nil, or_false] at hx
  rcases hx with ((rfl | rfl) | ⟨pair, -, rfl⟩) | rfl | ⟨r, -, rfl⟩ <;> rfl

theorem map_wire_opening :
    (opening name credentials e ++ [data]).map wire =
      [] :: (commands name credentials e).map fun l => Utf8.encode l ++ [cr, lf] := by
  have hgreeting : greeting.wire = [] := rfl
  simp only [opening_eq, commands_eq, List.map_append, map_wire_addressing, List.map_cons,
    List.map_nil, hgreeting, hello, data, wire_say]
  cases credentials with
  | none =>
    simp only [Option.map_none, Option.toList_none, List.map_nil, List.append_nil,
      List.cons_append, List.nil_append]
  | some pair =>
    simp only [Option.map_some, Option.toList_some, List.map_cons, List.map_nil, login, wire_say,
      List.cons_append, List.nil_append]

/-- The bytes of the commands, each on what is meant to be a line of its own. -/
theorem wire_opening :
    (opening name credentials e ++ [data]).flatMap wire =
      ((commands name credentials e).map Utf8.encode).flatMap (· ++ [cr, lf]) := by
  rw [List.flatMap_def, map_wire_opening, List.flatten_cons, List.nil_append, List.flatMap_map,
    List.flatMap_def]

end Exchange

/-! ## A far side that grants everything -/

namespace Sending

/-- The lines of a reply that grants what was asked for. -/
structure Grants (e : Exchange) (reply : List Bytes) : Prop where
  noLineFeed : ∀ l ∈ reply, lf ∉ l
  legible : Legible (reply.map (· ++ [lf]))
  code : codeOf? (ended reply) = some e.expected
  whole : ∃ more last, reply = more ++ [last] ∧ (∀ l ∈ more, isLast (l ++ [lf]) = false) ∧
    isLast (last ++ [lf]) = true

/-- A reply of one line. -/
theorem grants_row {x : Exchange} {row : Bytes} (hrow : lf ∉ row)
    (hlegible : Utf8.fault? (row ++ [lf]) = none)
    (hcode : codeOf? (ended [row]) = some x.expected) (hlast : isLast (row ++ [lf]) = true) :
    Grants x [row] :=
  ⟨List.forall_mem_singleton.mpr hrow, List.forall_mem_singleton.mpr hlegible, hcode,
    [], row, rfl, List.forall_mem_nil _, hlast⟩

theorem flatten_map_eq_ended (ks : List Bytes) : (ks.map (· ++ [lf])).flatten = ended ks := by
  rw [ended, List.flatMap_def]

/-- A reply that grants an exchange lets the talk go on to the next. -/
theorem lineAll_grants (refuses : Refusal) {t : Sending} {e : Exchange} {later : List Exchange}
    {reply : List Bytes} (ht : t.stage = .waiting [] e later) (hheeded : e.heeded = true)
    (h : Grants e reply) :
    lineAll refuses t (reply.map (· ++ [lf])) = t.next refuses later := by
  obtain ⟨more, last, rfl, hmore, hlast⟩ := h.whole
  have hlegible := h.legible
  have hcode := h.code
  rw [← flatten_map_eq_ended] at hcode
  rw [List.map_append, List.map_singleton] at hlegible hcode ⊢
  refine (lineAll_reply refuses ht hheeded ?_ hlast ?_).1 hlegible
  · intro l hl
    obtain ⟨k, hk, rfl⟩ := List.mem_map.mp hl
    exact hmore k hk
  · rwa [List.nil_append]

/-- With replies to all but the last of some exchanges, the talk waits for the reply to the last. -/
theorem lineAll_granted {xs : List Exchange} {replies : List (List Bytes)}
    (h : List.Forall₂ Grants xs replies) (hheeded : ∀ x ∈ xs, x.heeded = true) (x : Exchange)
    (later : List Exchange) (t : Sending) :
    let u := lineAll never (t.next never (xs ++ x :: later)) (replies.flatten.map (· ++ [lf]))
    u.stage = .waiting [] x later ∧ u.sent = t.sent ++ (xs ++ [x]).flatMap Exchange.wire := by
  induction h generalizing t with
  | nil =>
    rw [List.nil_append, next_never_cons]
    refine ⟨rfl, ?_⟩
    rw [List.nil_append, List.flatMap_singleton]
    rfl
  | @cons y reply ys replies hreply _ ih =>
    rw [List.cons_append, next_never_cons, List.flatten_cons, List.map_append, lineAll_append,
      lineAll_grants never rfl (hheeded y List.mem_cons_self) hreply]
    obtain ⟨hstage, hsent⟩ := ih (fun z hz => hheeded z (List.mem_cons_of_mem y hz))
      { t with sent := t.sent ++ y.wire, stage := .waiting [] y (ys ++ x :: later) }
    refine ⟨hstage, hsent.trans ?_⟩
    rw [List.cons_append, List.flatMap_cons, List.append_assoc]

theorem noLineFeed_of_grants {xs : List Exchange} {replies : List (List Bytes)}
    (h : List.Forall₂ Grants xs replies) : ∀ l ∈ replies.flatten, lf ∉ l := by
  induction h with
  | nil => exact List.forall_mem_nil _
  | cons hreply _ ih =>
    rw [List.flatten_cons]
    exact List.forall_mem_append.mpr ⟨hreply.noLineFeed, ih⟩

/-- What was said once the far side has granted all that comes before the message. -/
theorem granted_opening {name : String} {credentials : Option (String × String)} {e : Envelope}
    (message : Bytes) {replies : List (List Bytes)}
    (h : List.Forall₂ Grants (Exchange.opening name credentials e) replies)
    {pieces : List Bytes} (hpieces : pieces.flatten = ended replies.flatten) :
    let t := pieces.foldl (feed never) (start never (Exchange.script name credentials e message))
    t.stage = .waiting [] .data [.body message, .farewell] ∧
      t.sent =
        ((Exchange.commands name credentials e).map Utf8.encode).flatMap (· ++ [cr, lf]) := by
  have hrows := noLineFeed_of_grants h
  obtain ⟨hstage, hsent⟩ := lineAll_granted h
    (fun x hx => Exchange.heeded_opening name credentials e hx) .data
    [.body message, .farewell] { stage := .ended (.ok ()) }
  have hopen : (start never (Exchange.script name credentials e message)).isEnded = false := by
    rw [start, Exchange.script_eq, Exchange.opening, List.append_assoc, List.append_assoc,
      List.cons_append, next_never_cons]
    rfl
  obtain ⟨rest, hfeed, -⟩ := feed_lineAll hopen (pending_next never _ _) (ended replies.flatten)
  rw [(lines_ended hrows).1, start, Exchange.script_eq] at hfeed
  rw [foldl_feed_start, hpieces, start, Exchange.script_eq, hfeed]
  refine ⟨hstage, hsent.trans ?_⟩
  rw [Exchange.wire_opening]
  rfl

end Sending

/-! ## Line breaks in addresses -/

theorem lineFeed_mem_iff (text : String) :
    lf ∈ dropReturns (Utf8.encode text) ↔ '\n' ∈ text.toList := by
  have h : lf ∈ Utf8.encode text ↔ '\n' ∈ text.toList :=
    Utf8.mem_encode_iff (show '\n'.toNat < 128 by decide)
  rw [← h, dropReturns, List.mem_filter]
  exact and_iff_left (by decide)

theorem lineFeed_not_mem_loginToken (user password : String) :
    '\n' ∉ (Exchange.loginToken user password).toList := by
  rw [Exchange.loginToken, String.toList_ofList]
  intro h
  have hgraphic := Base64.graphic_of_mem_encode h
  exact absurd hgraphic.1 (by decide)

/-- Between the fixed words of the commands nothing but the addresses can break a line. -/
theorem lineFeed_not_mem_commands {name : String} (hname : '\n' ∉ name.toList)
    (credentials : Option (String × String)) (e : Envelope) :
    (∀ l ∈ Exchange.commands name credentials e, '\n' ∉ l.toList) ↔
      ∀ a ∈ e.sender :: e.recipients, '\n' ∉ a.toList := by
  have hwords : ∀ before text after : String, '\n' ∉ before.toList → '\n' ∉ after.toList →
      ('\n' ∉ (before ++ text ++ after).toList ↔ '\n' ∉ text.toList) := by
    intro before text after hbefore hafter
    simp only [String.toList_append, List.mem_append, hbefore, hafter, false_or, or_false]
  have hlogin : ∀ l ∈ (credentials.map fun (user, password) =>
      "AUTH PLAIN " ++ Exchange.loginToken user password).toList, '\n' ∉ l.toList := by
    intro l hl
    obtain ⟨pair, -, rfl⟩ := Option.map_eq_some_iff.mp (Option.mem_toList.mp hl)
    rw [String.toList_append, List.mem_append, not_or]
    exact ⟨by decide, lineFeed_not_mem_loginToken pair.1 pair.2⟩
  have hhello : '\n' ∉ ("EHLO " ++ name).toList := by
    rw [String.toList_append, List.mem_append, not_or]
    exact ⟨by decide, hname⟩
  have hmail := fun a => hwords "MAIL FROM:<" a ">" (by decide) (by decide)
  have hrcpt := fun a => hwords "RCPT TO:<" a ">" (by decide) (by decide)
  simp only [Exchange.commands, List.forall_mem_append, List.forall_mem_cons, List.forall_mem_map,
    hmail, hrcpt]
  constructor
  · rintro ⟨-, hsender, hrecipients, -⟩
    exact ⟨hsender, hrecipients⟩
  · rintro ⟨hsender, hrecipients⟩
    exact ⟨⟨⟨hhello, List.forall_mem_nil _⟩, hlogin⟩, hsender, hrecipients, by decide,
      List.forall_mem_nil _⟩

/-! ## The commands of an errand -/

/-- The addresses that a rule brings along itself. -/
def ownAddresses (r : Rule) : List String :=
  match r.action with
  | .forward recipient sender _ => recipient :: sender.toList
  | .relay _ | .conditionalRelay .. | .invokeProcess .. | .mailRetention _ => []

/-- The envelope of an errand is made of the addresses of the message and of those of the rule. -/
theorem mem_of_errand {r : Rule} {m : ReceivedMessage} {host : RelayHost} {envelope : Envelope}
    {policy : RetryPolicy} (h : r.errand? m = some (.relay host envelope policy)) {a : String}
    (ha : a ∈ envelope.sender :: envelope.recipients) :
    a ∈ m.sender :: m.recipients ∨ a ∈ ownAddresses r := by
  obtain ⟨id, enabled, action⟩ := r
  cases action with
  | invokeProcess | mailRetention => cases h
  | relay | conditionalRelay =>
    cases h
    exact .inl ha
  | forward recipient sender via =>
    cases h
    rcases List.mem_cons.mp ha with rfl | ha
    · cases sender with
      | none => exact .inl List.mem_cons_self
      | some a => exact .inr (List.mem_cons_of_mem _ List.mem_cons_self)
    · cases List.mem_singleton.mp ha
      exact .inr List.mem_cons_self

/-- A far side that grants everything hears the commands, one line each and no others, before the
message, exactly if no address of the envelope has a line feed in it. So it is for a message that
came in over SMTP, as long as the rule does not bring a line feed along. -/
theorem command_lines_iff {r : Rule} {m : ReceivedMessage} {host : RelayHost} {envelope : Envelope}
    {policy : RetryPolicy} (herrand : r.errand? m = some (.relay host envelope policy))
    {name : String} (hname : '\n' ∉ name.toList) (message : Bytes) {replies : List (List Bytes)}
    (hgranted : List.Forall₂ Grants (Exchange.opening name host.credentials envelope) replies)
    {pieces : List Bytes} (hpieces : pieces.flatten = ended replies.flatten) :
    let t := pieces.foldl (feed never)
      (start never (Exchange.script name host.credentials envelope message))
    let heard := dropReturns t.sent
    t.stage = .waiting [] .data [.body message, .farewell] ∧
      ((lines heard = (Exchange.commands name host.credentials envelope).map
            (fun l => dropReturns (Utf8.encode l)) ∧ remainder heard = []) ↔
        ∀ a ∈ envelope.sender :: envelope.recipients, '\n' ∉ a.toList) ∧
      (Announced m → (∀ a ∈ ownAddresses r, '\n' ∉ a.toList) →
        ∀ a ∈ envelope.sender :: envelope.recipients, '\n' ∉ a.toList) := by
  obtain ⟨hstage, hsent⟩ := granted_opening message hgranted hpieces
  refine ⟨hstage, ?_, ?_⟩
  · rw [hsent, dropReturns_ended, List.map_map, ← lineFeed_not_mem_commands hname host.credentials]
    refine (lines_ended_iff _).trans ?_
    rw [List.forall_mem_map]
    exact forall₂_congr fun l _ => not_congr (lineFeed_mem_iff l)
  · intro hannounced hown a ha
    have hproper := hannounced.proper
    rcases mem_of_errand herrand ha with hmem | hmem
    · rcases List.mem_cons.mp hmem with rfl | hmem
      · exact hproper.sender.noLineFeed
      · exact (hproper.recipients a hmem).1.noLineFeed
    · exact hown a hmem

/-! ### A note to one recipient -/

def welcome : List (List Bytes) :=
  [["220 hi"], ["250 ok"], ["250 ok"], ["250 ok"]].map (·.map Utf8.encode)

theorem grants_ok {x : Exchange} (hx : x.expected = 250) : Grants x [Utf8.encode "250 ok"] :=
  grants_row (by decide) (by decide) (hx ▸ by decide) (by decide)

theorem grants_hi : Grants .greeting [Utf8.encode "220 hi"] :=
  grants_row (by decide) (by decide) (by decide) (by decide)

theorem grants_welcome (sender recipient : String) :
    List.Forall₂ Grants (Exchange.opening "sink.test" none ⟨sender, [recipient]⟩) welcome :=
  .cons grants_hi (.cons (grants_ok rfl) (.cons (grants_ok rfl) (.cons (grants_ok rfl) .nil)))

def relayRule : Rule := { id := ⟨0⟩, action := .relay { host := { host := "relay.test" } } }

def heardBefore (envelope : Envelope) : List Bytes :=
  lines (dropReturns ([ended welcome.flatten].foldl (feed never)
    (start never (Exchange.script "sink.test" none envelope []))).sent)

/-- A note from one address to another goes out as four lines. -/
theorem command_lines_note :
    relayRule.errand? ⟨"note.eml", "a@b.com", ["c@d.com"], 0⟩ =
        some (.relay { host := "relay.test" } ⟨"a@b.com", ["c@d.com"]⟩ {}) ∧
      heardBefore ⟨"a@b.com", ["c@d.com"]⟩ =
        ["EHLO sink.test", "MAIL FROM:<a@b.com>", "RCPT TO:<c@d.com>", "DATA"].map Utf8.encode := by
  refine ⟨rfl, ?_⟩
  obtain ⟨-, hlines, -⟩ := command_lines_iff
    (show relayRule.errand? ⟨"note.eml", "a@b.com", ["c@d.com"], 0⟩ = some _ from rfl)
    (show '\n' ∉ "sink.test".toList by decide) [] (grants_welcome "a@b.com" "c@d.com")
    (List.flatten_singleton (l := ended welcome.flatten))
  refine (hlines.mpr ?_).1.trans ?_
  · decide
  · decide +kernel

/-- An event frame in which the address of the sender ends the command that it is written into. -/
def frame : String :=
  "\x7b\"type\":\"NewMessage\",\"payload\":\x7b\"path\":\"note.eml\",\"mail_from\":" ++
    "\"a@b.com>\\r\\nRCPT TO:<x@y.z\",\"recipients\":[\"c@d.com\"],\"size\":0\x7d\x7d"

def forwardRule : Rule :=
  { id := ⟨0⟩
    action := .forward "c@d.com>\r\nRCPT TO:<x@y.z" none { host := { host := "relay.test" } } }

theorem heardBefore_eq (sender recipient : String) :
    heardBefore ⟨sender, [recipient]⟩ =
      lines (ended (((Exchange.commands "sink.test" none ⟨sender, [recipient]⟩).map
        Utf8.encode).map dropReturns)) := by
  obtain ⟨-, hsent⟩ := granted_opening [] (grants_welcome sender recipient)
    (List.flatten_singleton (l := ended welcome.flatten))
  rw [heardBefore, hsent, dropReturns_ended]

/-- A recipient that nobody has named: once the line feed comes in an event frame, once from a rule
that passes its check. -/
theorem recipient_injected :
    (∃ m host envelope policy, Event.ofLine? (fun _ => ⟨0⟩) frame = some (.newMessage m) ∧
        relayRule.errand? m = some (.relay host envelope policy) ∧
        envelope.recipients = ["c@d.com"] ∧
        heardBefore envelope =
          ["EHLO sink.test", "MAIL FROM:<a@b.com>", "RCPT TO:<x@y.z>", "RCPT TO:<c@d.com>",
            "DATA"].map Utf8.encode) ∧
      forwardRule.validate = .ok () ∧
      ∃ host envelope policy,
        forwardRule.errand? ⟨"note.eml", "a@b.com", ["u@v.w"], 0⟩ =
          some (.relay host envelope policy) ∧
        envelope.recipients.length = 1 ∧
        heardBefore envelope =
          ["EHLO sink.test", "MAIL FROM:<a@b.com>", "RCPT TO:<c@d.com>", "RCPT TO:<x@y.z>",
            "DATA"].map Utf8.encode := by
  refine ⟨⟨⟨"note.eml", "a@b.com>\r\nRCPT TO:<x@y.z", ["c@d.com"], 0⟩, _, _, _, ?_, rfl, rfl, ?_⟩,
    rfl, _, _, _, rfl, rfl, ?_⟩
  · decide +kernel
  · rw [heardBefore_eq]
    decide +kernel
  · rw [heardBefore_eq]
    decide +kernel

end Smtp

end Letterbox
