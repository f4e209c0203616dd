import Letterbox.Proofs.Smtp.CommandLines
import Letterbox.Proofs.Smtp.Replies

/-!
# How far a talk gets

Whatever the far side says, a talk goes through its script item by item: what was written reaches
one exchange beyond those that were granted, and the talk succeeds just if all were.
-/

namespace Letterbox

set_option autoImplicit false

open Lines

namespace Smtp

open Sending

namespace Exchange

def steps (name : String) (credentials : Option (String × String)) (e : Envelope)
    (message : Bytes) : List Exchange :=
  opening name credentials e ++ [data, body message]

structure Numbered (x : Exchange) : Prop where
  large : 100 ≤ x.expected
  length : (Utf8.encode (toString x.expected)).length = 3
  read : codeOf? (Utf8.encode (toString x.expected)) = some x.expected

variable (name : String) (credentials : Option (String × String)) (e : Envelope) (message : Bytes)

theorem script_eq_steps :
    script name credentials e message = steps name credentials e message ++ [farewell] := by
  rw [script_eq, steps, List.append_assoc]
  rfl

theorem map_wire_script :
    (script name credentials e message).map wire =
      ([] :: (commands name credentials e).map fun l => Utf8.encode l ++ [cr, lf]) ++
        [dotStuff message ++ [46, cr, lf], Utf8.encode "QUIT" ++ [cr, lf]] := by
  have hbody : (body message).wire = dotStuff message ++ [46, cr, lf] := by
    simp only [wire, body, List.flatten_cons, List.flatten_nil, List.append_nil]
    rfl
  have hfarewell : farewell.wire = Utf8.encode "QUIT" ++ [cr, lf] := wire_say "QUIT" 221
  rw [← map_wire_opening, ← hbody, ← hfarewell, script_eq, List.map_append, List.map_append,
    List.append_assoc]
  rfl

theorem map_expected_steps :
    (steps name credentials e message).map (·.expected) =
      [220, 250] ++ (credentials.map fun _ => 235).toList ++
        250 :: (e.recipients.map fun _ => 250) ++ [354, 250] := by
  cases credentials with
  | none | some =>
    simp only [steps, opening, List.map_append, List.map_cons, List.map_map]
    rfl

theorem heeded_steps {x : Exchange} (hx : x ∈ steps name credentials e message) :
    x.heeded = true := by
  rcases List.mem_append.mp hx with hx | hx
  · exact heeded_opening name credentials e hx
  · simp only [List.mem_cons, List.not_mem_nil, or_false] at hx
    rcases hx with rfl | rfl <;> rfl

theorem numbered_steps {x : Exchange} (hx : x ∈ steps name credentials e message) :
    x.Numbered := by
  have hcodes : x.expected ∈ (steps name credentials e message).map (·.expected) :=
    List.mem_map_of_mem hx
  have hexpected : x.expected = 220 ∨ x.expected = 250 ∨ x.expected = 235 ∨ x.expected = 354 := by
    simp only [map_expected_steps, List.mem_append, List.mem_cons, List.mem_map, Option.mem_toList,
      Option.map_eq_some_iff, List.not_mem_nil, or_false] at hcodes
    omega
  have hread : ∀ n ∈ [220, 250, 235, 354], 100 ≤ n ∧
      (Utf8.encode (toString n)).length = 3 ∧ codeOf? (Utf8.encode (toString n)) = some n := by
    decide
  have hmem : x.expected ∈ [220, 250, 235, 354] := by
    simpa only [List.mem_cons, List.not_mem_nil, or_false] using hexpected
  exact ⟨(hread _ hmem).1, (hread _ hmem).2.1, (hread _ hmem).2.2⟩

end Exchange

/-! ## Codes -/

namespace Sending

theorem toNat_of_digit? {c : Char} {d : Nat} (h : Text.digit? c = some d) :
    c.toNat = 48 + d ∧ d ≤ 9 := by
  unfold Text.digit? at h
  split at h
  · rename_i hrange
    have hlow : '0'.toNat ≤ c.toNat := hrange.1
    have hhigh : c.toNat ≤ '9'.toNat := hrange.2
    have hzero : '0'.toNat = 48 := rfl
    have hnine : '9'.toNat = 57 := rfl
    have hd : c.toNat - 48 = d := Option.some.inj h
    omega
  · cases h

theorem toNat_of_digit?_byte {b : UInt8} {d : Nat} (h : Text.digit? (Char.ofNat b.toNat) = some d) :
    b.toNat = 48 + d ∧ d ≤ 9 := by
  rw [← Utf8.toNat_ofNat_byte]
  exact toNat_of_digit? h

theorem digitsFrom_cons {acc n : Nat} {c : Char} {cs : List Char}
    (h : Text.digitsFrom acc (c :: cs) = some n) :
    ∃ d, Text.digit? c = some d ∧ Text.digitsFrom (10 * acc + d) cs = some n := by
  rw [Text.digitsFrom] at h
  cases hd : Text.digit? c with
  | none => rw [hd] at h; cases h
  | some d => rw [hd] at h; exact ⟨d, rfl, h⟩

/-- The characters of a large code are its digits; a plus sign leaves room for two only. -/
theorem digits_of_codeOf? {reply : Bytes} {n : Nat} (h : codeOf? reply = some n) (hn : 100 ≤ n) :
    ∃ a b c, reply.take 3 = [a, b, c] ∧ a.toNat = 48 + n / 100 ∧ b.toNat = 48 + n / 10 % 10 ∧
      c.toNat = 48 + n % 10 := by
  unfold codeOf? at h
  split at h
  · cases h
  rename_i hlen
  obtain ⟨a, b, c, rest, rfl⟩ : ∃ a b c rest, reply = a :: b :: c :: rest := by
    match reply, hlen with
    | a :: b :: c :: rest, _ => exact ⟨a, b, c, rest, rfl⟩
    | [], hlen | [_], hlen | [_, _], hlen => exact absurd (by simp) hlen
  refine ⟨a, b, c, rfl, ?_⟩
  have hfrom : ∀ cs, Text.digits? cs = some n → Text.digitsFrom 0 cs = some n := by
    intro cs hcs
    cases cs with
    | nil => cases hcs
    | cons _ _ => exact hcs
  unfold Text.numeral? at h
  rw [Option.filter_eq_some_iff] at h
  have hdigits := hfrom _ h.1
  rw [List.take_succ_cons, List.take_succ_cons, List.take_succ_cons, List.take_zero, List.map_cons,
    List.map_cons, List.map_cons, List.map_nil] at hdigits
  split at hdigits
  · rename_i hplus
    rw [List.cons.injEq] at hplus
    obtain ⟨-, rfl⟩ := hplus
    obtain ⟨y, hy, hdigits⟩ := digitsFrom_cons hdigits
    obtain ⟨z, hz, hdigits⟩ := digitsFrom_cons hdigits
    have hvalue := Option.some.inj hdigits
    have hy := (toNat_of_digit?_byte hy).2
    have hz := (toNat_of_digit?_byte hz).2
    omega
  · obtain ⟨x, hx, hdigits⟩ := digitsFrom_cons hdigits
    obtain ⟨y, hy, hdigits⟩ := digitsFrom_cons hdigits
    obtain ⟨z, hz, hdigits⟩ := digitsFrom_cons hdigits
    have hvalue := Option.some.inj hdigits
    have hx := toNat_of_digit?_byte hx
    have hy := toNat_of_digit?_byte hy
    have hz := toNat_of_digit?_byte hz
    omega

theorem take_eq_of_codeOf? {r s : Bytes} {n : Nat} (hr : codeOf? r = some n)
    (hs : codeOf? s = some n) (hn : 100 ≤ n) : r.take 3 = s.take 3 := by
  obtain ⟨a, b, c, htake, ha, hb, hc⟩ := digits_of_codeOf? hr hn
  obtain ⟨a', b', c', htake', ha', hb', hc'⟩ := digits_of_codeOf? hs hn
  rw [htake, htake', UInt8.toNat_inj.mp (ha.trans ha'.symm), UInt8.toNat_inj.mp (hb.trans hb'.symm),
    UInt8.toNat_inj.mp (hc.trans hc'.symm)]

/-- A reply has the code of an exchange just if it starts with its three digits. -/
theorem codeOf?_eq_iff {x : Exchange} (hx : x.Numbered) (reply : Bytes) :
    codeOf? reply = some x.expected ↔ reply.take 3 = Utf8.encode (toString x.expected) := by
  have hwhole : (Utf8.encode (toString x.expected)).take 3 = Utf8.encode (toString x.expected) :=
    List.take_of_length_le (Nat.le_of_eq hx.length)
  constructor
  · intro h
    rw [take_eq_of_codeOf? h hx.read hx.large, hwhole]
  · intro h
    have hlen : 3 ≤ reply.length := by
      have htake := congrArg List.length h
      rw [hx.length, List.length_take] at htake
      omega
    have hread := hx.read
    unfold codeOf? at hread ⊢
    rw [if_neg (by rw [hx.length]; decide), hwhole] at hread
    rw [if_neg (by omega), h]
    exact hread

/-! ## Replies one after the other -/

structure Passes (x : Exchange) (reply : List Bytes) : Prop where
  whole : Whole reply
  legible : Legible reply
  code : reply.flatten.take 3 = Utf8.encode (toString x.expected)

/-- The lines that have come begin with replies that let the first `count` exchanges pass. -/
def Granted (xs : List Exchange) (raws : List Bytes) (count : Nat) : Prop :=
  count ≤ xs.length ∧ ∃ replies rest, raws = replies.flatten ++ rest ∧
    List.Forall₂ Passes (xs.take count) replies

variable {t : Sending} {x : Exchange} {xs : List Exchange} {raws : List Bytes}

theorem granted_zero (xs : List Exchange) (raws : List Bytes) : Granted xs raws 0 :=
  ⟨Nat.zero_le _, [], raws, rfl, .nil⟩

theorem granted_succ_iff (count : Nat) :
    Granted (x :: xs) raws (count + 1) ↔
      ∃ reply rest, raws = reply ++ rest ∧ Passes x reply ∧ Granted xs rest count := by
  constructor
  · rintro ⟨hcount, replies, rest, rfl, hpasses⟩
    rw [List.take_succ_cons] at hpasses
    cases hpasses with
    | @cons _ reply _ replies hreply hreplies =>
      refine ⟨reply, replies.flatten ++ rest, ?_, hreply, ?_⟩
      · rw [List.flatten_cons, List.append_assoc]
      · exact ⟨Nat.le_of_succ_le_succ hcount, replies, rest, rfl, hreplies⟩
  · rintro ⟨reply, _, rfl, hreply, hcount, replies, rest, rfl, hreplies⟩
    refine ⟨Nat.succ_le_succ hcount, reply :: replies, rest, ?_, ?_⟩
    · rw [List.flatten_cons, List.append_assoc]
    · rw [List.take_succ_cons]
      exact .cons hreply hreplies

theorem granted_cons_iff {reply rest : List Bytes} (h : Passes x reply) (count : Nat) :
    Granted (x :: xs) (reply ++ rest) (count + 1) ↔ Granted xs rest count := by
  rw [granted_succ_iff]
  constructor
  · rintro ⟨reply', rest', heq, h', hgranted⟩
    obtain ⟨-, rfl⟩ := h.whole.unique h'.whole heq
    exact hgranted
  · intro hgranted
    exact ⟨reply, rest, rfl, h, hgranted⟩

/-! ## What a talk has come to -/

/-- Without a reply that lets its exchange pass, a talk writes nothing more and fails in the end. -/
theorem lineAll_refused (more : List Bytes) {later : List Exchange} (hx : x.Numbered)
    (hheeded : x.heeded = true) (ht : t.stage = .waiting more.flatten x later)
    (hmore : ∀ l ∈ more, isLast l = false) (hlegible : Legible more)
    (hnone : ∀ reply rest, raws = reply ++ rest → ¬Passes x (more ++ reply)) :
    (lineAll never t raws).sent = t.sent ∧
      ∀ cut, ∃ f, ((lineAll never t raws).cutOff cut).result? = some (.error f) := by
  induction raws generalizing t more with
  | nil =>
    refine ⟨rfl, fun cut => ⟨cut.failure, ?_⟩⟩
    simp only [lineAll, List.foldl_nil, cutOff, ht, fail, hheeded, if_true, result?]
  | cons raw raws ih =>
    have hstop : ∀ f, (t.line never raw).sent = t.sent →
        (t.line never raw).stage = .ended (.error f) →
        (lineAll never t (raw :: raws)).sent = t.sent ∧
          ∀ cut, ∃ f, ((lineAll never t (raw :: raws)).cutOff cut).result? = some (.error f) := by
      intro f hsent hstage
      have hended : (t.line never raw).isEnded = true := by rw [isEnded, hstage]
      rw [lineAll, List.foldl_cons]
      exact ⟨(congrArg Sending.sent (lineAll_of_isEnded hended raws)).trans hsent,
        fun cut => ⟨f, result_of_stage hstage raws cut⟩⟩
    cases hfault : Utf8.fault? raw with
    | some fault =>
      refine hstop _ ?_ (line_of_fault ht hheeded hfault)
      simp only [line, ht, hfault, fail]
    | none =>
      have hlegible' : Legible (more ++ [raw]) := by
        intro l hl
        rcases List.mem_append.mp hl with hl | hl
        · exact hlegible l hl
        · rwa [List.mem_singleton.mp hl]
      cases hlast : isLast raw with
      | false =>
        have hmore' : ∀ l ∈ more ++ [raw], isLast l = false := by
          intro l hl
          rcases List.mem_append.mp hl with hl | hl
          · exact hmore l hl
          · rwa [List.mem_singleton.mp hl]
        have hflatten : (more ++ [raw]).flatten = more.flatten ++ raw := by
          rw [List.flatten_append, List.flatten_singleton]
        rw [lineAll, List.foldl_cons, line_of_more ht hfault hlast, ← hflatten]
        refine ih (t := { t with stage := .waiting (more ++ [raw]).flatten x later })
          (more ++ [raw]) rfl hmore' hlegible' ?_
        rintro reply rest rfl
        rw [List.append_assoc]
        exact hnone (raw :: reply) rest rfl
      | true =>
        have hcode : codeOf? (more.flatten ++ raw) ≠ some x.expected := by
          intro hcode
          rw [codeOf?_eq_iff hx] at hcode
          refine hnone [raw] raws rfl ⟨⟨more, raw, rfl, hmore, hlast⟩, hlegible', ?_⟩
          rwa [List.flatten_append, List.flatten_singleton]
        have hline : t.line never raw = t.fail x (unexpected x.expected (more.flatten ++ raw)) := by
          simp only [line, ht, hfault, hlast, if_true, if_neg hcode]
        refine hstop (unexpected x.expected (more.flatten ++ raw)) (by rw [hline]; rfl) ?_
        rw [hline]
        simp only [fail, hheeded, if_true]

theorem sent_after_farewell {acc : Bytes} (ht : t.stage = .waiting acc .farewell [])
    (raws : List Bytes) : (lineAll never t raws).sent = t.sent := by
  induction raws generalizing t acc with
  | nil => rfl
  | cons raw raws ih =>
    obtain ⟨hsent, hstage⟩ : (t.line never raw).sent = t.sent ∧ _ := line_after_farewell ht raw
    rw [lineAll, List.foldl_cons, ← hsent]
    rcases hstage with hended | ⟨acc', hwaiting⟩
    · have hstop : (t.line never raw).isEnded = true := by rw [isEnded, hended]
      exact congrArg Sending.sent (lineAll_of_isEnded hstop raws)
    · exact ih hwaiting

theorem next_never_waiting (t : Sending) (x : Exchange) (later : List Exchange) :
    (t.next never (x :: later)).stage = .waiting [] x later ∧
      (t.next never (x :: later)).sent = t.sent ++ x.wire := by
  rw [next_never_cons]
  exact ⟨rfl, rfl⟩

theorem lineAll_passes {reply : List Bytes} {later : List Exchange} (hx : x.Numbered)
    (hheeded : x.heeded = true) (ht : t.stage = .waiting [] x later) (h : Passes x reply) :
    lineAll never t reply = t.next never later := by
  obtain ⟨more, last, rfl, hmore, hlast⟩ := h.whole
  refine (lineAll_reply never ht hheeded hmore hlast ?_).1 h.legible
  rw [List.nil_append, codeOf?_eq_iff hx]
  exact h.code

/-- The exchanges that were granted tell what was written and what comes of the talk. -/
theorem lineAll_progress (hnumbered : ∀ x ∈ xs, x.Numbered) (hheeded : ∀ x ∈ xs, x.heeded = true)
    (t : Sending) (raws : List Bytes) :
    let u := lineAll never (t.next never (xs ++ [Exchange.farewell])) raws
    ∃ count, (∀ n, Granted xs raws n ↔ n ≤ count) ∧
      u.sent = t.sent ++ ((xs ++ [Exchange.farewell]).take (count + 1)).flatMap Exchange.wire ∧
      ∀ cut, ∃ result, (u.cutOff cut).result? = some result ∧
        (result = .ok () ↔ count = xs.length) := by
  induction xs generalizing t raws with
  | nil =>
    obtain ⟨hstage, hsent⟩ := next_never_waiting t .farewell []
    refine ⟨0, fun n => ⟨fun h => h.1, fun h => ?_⟩, ?_, fun cut => ⟨.ok (), ?_, ?_⟩⟩
    · obtain rfl := Nat.le_zero.mp h
      exact granted_zero [] raws
    · exact (sent_after_farewell hstage raws).trans hsent
    · exact result_after_farewell hstage raws cut
    · exact iff_of_true rfl rfl
  | cons x xs ih =>
    have hx := hnumbered x List.mem_cons_self
    have hheed := hheeded x List.mem_cons_self
    obtain ⟨hstage, hsent⟩ := next_never_waiting t x (xs ++ [.farewell])
    by_cases hpasses : ∃ reply rest, raws = reply ++ rest ∧ Passes x reply
    · obtain ⟨reply, rest, rfl, hreply⟩ := hpasses
      obtain ⟨count, hgranted, hsent', hresult⟩ := ih
        (fun y hy => hnumbered y (List.mem_cons_of_mem x hy))
        (fun y hy => hheeded y (List.mem_cons_of_mem x hy))
        (t.next never (x :: (xs ++ [.farewell]))) rest
      rw [List.cons_append, lineAll_append, lineAll_passes hx hheed hstage hreply]
      refine ⟨count + 1, ?_, ?_, ?_⟩
      · intro n
        cases n with
        | zero => exact iff_of_true (granted_zero _ _) (Nat.zero_le _)
        | succ n => rw [granted_cons_iff hreply, hgranted, Nat.succ_le_succ_iff]
      · rw [hsent', hsent, List.take_succ_cons, List.flatMap_cons, List.append_assoc]
      · intro cut
        obtain ⟨result, hresult, hiff⟩ := hresult cut
        exact ⟨result, hresult, hiff.trans Nat.succ_inj.symm⟩
    · obtain ⟨hrefused, hresult⟩ := lineAll_refused [] hx hheed hstage
        (List.forall_mem_nil _) (List.forall_mem_nil _)
        fun reply rest h hreply => hpasses ⟨reply, rest, h, hreply⟩
      refine ⟨0, ?_, ?_, ?_⟩
      · intro n
        cases n with
        | zero => exact iff_of_true (granted_zero _ _) (Nat.zero_le _)
        | succ n =>
          refine iff_of_false (fun h => ?_) (Nat.not_succ_le_zero n)
          obtain ⟨reply, rest, heq, hreply, -⟩ := (granted_succ_iff n).mp h
          exact hpasses ⟨reply, rest, heq, hreply⟩
      · rw [List.cons_append, hrefused, hsent, List.take_succ_cons, List.take_zero,
          List.flatMap_singleton]
      · intro cut
        obtain ⟨f, hf⟩ := hresult cut
        refine ⟨.error f, hf, iff_of_false (fun h => ?_) (Nat.succ_ne_zero _).symm⟩
        cases h

end Sending

theorem credentials_eq_some_iff (host : RelayHost) (user password : String) :
    host.credentials = some (user, password) ↔
      host.username = some user ∧ host.password = some password ∧ user ≠ "" := by
  obtain ⟨_, _, username, secret⟩ := host
  cases username with
  | none => simp [RelayHost.credentials]
  | some u =>
    cases secret with
    | none => simp [RelayHost.credentials]
    | some p =>
      simp only [RelayHost.credentials, String.isEmpty_iff, Option.ite_none_left_eq_some,
        Option.some.injEq, Prod.mk.injEq]
      constructor
      · rintro ⟨hne, rfl, rfl⟩
        exact ⟨rfl, rfl, hne⟩
      · rintro ⟨rfl, rfl, hne⟩
        exact ⟨hne, rfl, rfl⟩

/-- Whatever a far side says, in whatever pieces and however it ends, no more than the script is
written. At any time the items written are the first, and one more for each exchange that was
granted; the talk always has a result, a good one just if all exchanges before the farewell were
granted. -/
theorem talk_keeps_to_script (name : String) (host : RelayHost) (e : Envelope) (message : Bytes)
    (pieces : List Bytes) :
    let script := Exchange.script name host.credentials e message
    let steps := Exchange.steps name host.credentials e message
    (script = steps ++ [.farewell] ∧
      script.map Exchange.wire =
        ([] :: (Exchange.commands name host.credentials e).map
            fun l => Utf8.encode l ++ [cr, lf]) ++
          [dotStuff message ++ [46, cr, lf], Utf8.encode "QUIT" ++ [cr, lf]] ∧
      steps.map (·.expected) =
        [220, 250] ++ (host.credentials.map fun _ => 235).toList ++
          250 :: (e.recipients.map fun _ => 250) ++ [354, 250] ∧
      ∀ user password, host.credentials = some (user, password) ↔
        host.username = some user ∧ host.password = some password ∧ user ≠ "") ∧
      (∃ count,
        (∀ n, Granted steps ((lines pieces.flatten).map (· ++ [lf])) n ↔ n ≤ count) ∧
        (pieces.foldl (feed never) (start never script)).sent =
          (script.take (count + 1)).flatMap Exchange.wire) ∧
      ∀ cut, ∃ count result,
        (∀ n, Granted steps (linesOf pieces.flatten cut) n ↔ n ≤ count) ∧
        (talk never script pieces cut).sent =
          (script.take (count + 1)).flatMap Exchange.wire ∧
        (talk never script pieces cut).result? = some result ∧
        (result = .ok () ↔ count = steps.length) := by
  intro script steps
  have hscript : script = steps ++ [.farewell] := Exchange.script_eq_steps name _ e message
  have hprogress := lineAll_progress
    (fun x hx => Exchange.numbered_steps name host.credentials e message hx)
    (fun x hx => Exchange.heeded_steps name host.credentials e message hx)
    { stage := .ended (.ok ()) }
  have hopen : (start never script).isEnded = false := by
    have hstage : (start never script).stage = .waiting [] .greeting script.tail :=
      (next_never_waiting _ _ _).1
    rw [isEnded, hstage]
  refine ⟨⟨hscript, Exchange.map_wire_script name _ e message,
    Exchange.map_expected_steps name _ e message, credentials_eq_some_iff host⟩, ?_, ?_⟩
  · obtain ⟨count, hgranted, hsent, -⟩ := hprogress ((lines pieces.flatten).map (· ++ [lf]))
    obtain ⟨rest, hfeed, -⟩ := feed_lineAll hopen (pending_next never _ script) pieces.flatten
    refine ⟨count, hgranted, ?_⟩
    rw [foldl_feed_start, hfeed, start, hscript]
    exact hsent
  · intro cut
    obtain ⟨count, hgranted, hsent, hresult⟩ := hprogress (linesOf pieces.flatten cut)
    obtain ⟨result, hresult, hiff⟩ := hresult cut
    obtain ⟨left, htalk⟩ := talk_eq never script pieces cut
    refine ⟨count, result, hgranted, ?_, ?_, hiff⟩
    · rw [htalk, sent_cutOff, start, hscript]
      exact hsent
    · rw [htalk, start, hscript]
      exact hresult

end Smtp

end Letterbox
