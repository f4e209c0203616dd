import Letterbox.Proofs.Smtp.Parties
import Letterbox.Proofs.Text.Plain
import Letterbox.Smtp.Reply

/-!
# Replies as the sending side reads them

A reply that a server has written, on one line or on several, is read back with the code that it was
written with. The sending side goes on if it is the code that it waits for; otherwise its talk ends.
-/

namespace Letterbox.Smtp

set_option autoImplicit false

open Lines Sending

structure ThreeDigits (code : Nat) : Prop where
  length : (Encoding.latin1.encode (toString code)).length = 3
  read : codeOf? (Encoding.latin1.encode (toString code)) = some code

structure Reply.Readable (r : Reply) : Prop where
  code : ThreeDigits r.code
  nonempty : r.lines ≠ []
  lines : ∀ l ∈ r.lines, Plain l

def replyLine (code : Nat) (separator : UInt8) (text : String) : Bytes :=
  Encoding.latin1.encode (toString code) ++ separator :: (Encoding.latin1.encode text ++ [cr])

variable {code : Nat} {text : String}

theorem encode_formatLines_last (code : Nat) (text : String) :
    Encoding.latin1.encode (Reply.formatLines code [text]) = replyLine code 32 text ++ [lf] := by
  simp only [Reply.formatLines, encode_append_latin1, replyLine, List.append_assoc,
    List.cons_append]
  rfl

theorem encode_formatLines_cons (code : Nat) (text next : String) (rest : List String) :
    Encoding.latin1.encode (Reply.formatLines code (text :: next :: rest)) =
      replyLine code 45 text ++
        lf :: Encoding.latin1.encode (Reply.formatLines code (next :: rest)) := by
  simp only [Reply.formatLines, encode_append_latin1, replyLine, List.append_assoc,
    List.cons_append]
  rfl

theorem ascii_replyLine (htext : Plain text) {separator : UInt8} (hsep : separator.toNat < 128) :
    ∀ b ∈ replyLine code separator text ++ [lf], b.toNat < 128 := by
  intro b hb
  simp only [replyLine, List.append_assoc, List.cons_append, List.mem_append, List.mem_cons,
    List.not_mem_nil, or_false, List.nil_append] at hb
  rcases hb with hb | rfl | hb | rfl | rfl
  · exact (plain_toString code).ascii b hb
  · exact hsep
  · exact htext.ascii b hb
  · decide
  · decide

theorem lf_not_mem_replyLine (htext : Plain text) {separator : UInt8} (hsep : separator ≠ lf) :
    lf ∉ replyLine code separator text := by
  simp only [replyLine, List.mem_append, List.mem_cons, List.not_mem_nil, or_false, not_or]
  refine ⟨(plain_toString code).lf_not_mem, Ne.symm hsep, htext.lf_not_mem, by decide⟩

theorem codeOf?_append {bs : Bytes} (h : bs.length = 3) (rest : Bytes) :
    codeOf? (bs ++ rest) = codeOf? bs := by
  have htake : (bs ++ rest).take 3 = bs.take 3 := by
    rw [List.take_append_of_le_length (Nat.le_of_eq h.symm)]
  have hlen : ¬(bs ++ rest).length < 3 := by
    rw [List.length_append]
    omega
  have hlen' : ¬bs.length < 3 := by omega
  rw [codeOf?, codeOf?, if_neg hlen, if_neg hlen', htake]

theorem isLast_replyLine (hcode : ThreeDigits code) (separator : UInt8) :
    isLast (replyLine code separator text ++ [lf]) = decide (separator ≠ 45) := by
  have hat : (replyLine code separator text ++ [lf])[3]? = some separator := by
    rw [replyLine, List.append_assoc, List.getElem?_append_right (Nat.le_of_eq hcode.length),
      hcode.length]
    rfl
  rw [isLast, hat]
  simp only [ne_eq, Option.some.injEq]

/-- What has come of a reply before its last line: nothing, or lines with its code. -/
def Begins (code : Nat) (reply : Bytes) : Prop :=
  reply = [] ∨ ∃ rest, reply = Encoding.latin1.encode (toString code) ++ rest

theorem begins_append {reply : Bytes} (h : Begins code reply) (separator : UInt8) (text : String) :
    ∃ rest, reply ++ (replyLine code separator text ++ [lf]) =
      Encoding.latin1.encode (toString code) ++ rest := by
  rcases h with rfl | ⟨rest, rfl⟩
  · exact ⟨_, by rw [List.nil_append, replyLine, List.append_assoc]⟩
  · exact ⟨_, by rw [List.append_assoc]⟩

variable {t : Sending} {reply : Bytes} {e : Exchange} {later : List Exchange}

def Sending.heard (refuses : Refusal) (t : Sending) (code : Nat) (reply : Bytes) (e : Exchange)
    (later : List Exchange) : Sending :=
  if code = e.expected then t.next refuses later else t.fail e (unexpected e.expected reply)

theorem heard_with_stage (refuses : Refusal) (stage : Stage) :
    Sending.heard refuses { t with stage } code reply e later =
      t.heard refuses code reply e later := by
  unfold Sending.heard
  split
  · cases later <;> rfl
  · rfl

theorem pending_heard (refuses : Refusal) :
    (t.heard refuses code reply e later).pending = t.pending := by
  unfold Sending.heard
  split
  · exact pending_next refuses t later
  · rfl

variable (refuses : Refusal)

theorem handle_more (hcode : ThreeDigits code) (htext : Plain text)
    (ht : t.stage = .waiting reply e later) :
    handle refuses t (replyLine code 45 text) =
      ({ t with stage := .waiting (reply ++ (replyLine code 45 text ++ [lf])) e later },
        .proceed) := by
  have hascii : ∀ b ∈ replyLine code 45 text ++ [lf], b.toNat < 128 :=
    ascii_replyLine htext (by decide)
  have hline : t.line refuses (replyLine code 45 text ++ [lf]) =
      { t with stage := .waiting (reply ++ (replyLine code 45 text ++ [lf])) e later } := by
    simp only [Sending.line, ht, fault?_of_ascii hascii, isLast_replyLine hcode]
    rfl
  rw [handle, hline]
  rfl

theorem handle_last (hcode : ThreeDigits code) (htext : Plain text)
    (ht : t.stage = .waiting reply e later) (hreply : Begins code reply) {u : Sending}
    (hu : t.heard refuses code (reply ++ (replyLine code 32 text ++ [lf])) e later = u) :
    handle refuses t (replyLine code 32 text) =
      (u, if u.isEnded then .close else .proceed) := by
  have hascii : ∀ b ∈ replyLine code 32 text ++ [lf], b.toNat < 128 :=
    ascii_replyLine htext (by decide)
  obtain ⟨rest, hrest⟩ := begins_append hreply 32 text
  have hread : codeOf? (reply ++ (replyLine code 32 text ++ [lf])) = some code := by
    rw [hrest, codeOf?_append hcode.length, hcode.read]
  have hline : t.line refuses (replyLine code 32 text ++ [lf]) = u := by
    rw [← hu]
    simp only [Sending.line, ht, fault?_of_ascii hascii, isLast_replyLine hcode, hread,
      Option.some.injEq]
    exact if_pos (by decide)
  rw [handle, hline]

/-- What comes behind a reply is looked at only if the talk goes on. -/
theorem drain_reply (hcode : ThreeDigits code) {ls : List String} (hne : ls ≠ [])
    (hplain : ∀ l ∈ ls, Plain l) (ht : t.stage = .waiting reply e later)
    (hreply : Begins code reply) (rest : Bytes) {u : Sending}
    (hu : t.heard refuses code (reply ++ Encoding.latin1.encode (Reply.formatLines code ls)) e
      later = u) :
    Lines.drain (handle refuses) t (Encoding.latin1.encode (Reply.formatLines code ls) ++ rest) =
      if u.isEnded then (u, rest, .close) else Lines.drain (handle refuses) u rest := by
  induction ls generalizing t reply with
  | nil => exact absurd rfl hne
  | cons text more ih =>
    have htext := hplain text List.mem_cons_self
    cases more with
    | nil =>
      rw [encode_formatLines_last] at hu ⊢
      rw [List.append_assoc, List.singleton_append,
        drain_append_cons _ _ (lf_not_mem_replyLine htext (by decide)),
        handle_last refuses hcode htext ht hreply hu]
      cases u.isEnded with
      | true => rfl
      | false => rfl
    | cons next more =>
      obtain ⟨begun, hbegun⟩ := begins_append hreply 45 text
      rw [encode_formatLines_cons] at hu ⊢
      rw [List.append_assoc, List.cons_append,
        drain_append_cons _ _ (lf_not_mem_replyLine htext (by decide)),
        handle_more refuses hcode htext ht]
      refine ih (List.cons_ne_nil next more) (fun l hl => hplain l (List.mem_cons_of_mem text hl))
        rfl (.inr ⟨begun, hbegun⟩) ?_
      rw [heard_with_stage, ← hu]
      simp only [List.append_assoc, List.singleton_append]

/-- A reply is heard as a whole, and what comes behind it is heard after it. -/
theorem feed_reply_append {r : Reply} (hr : r.Readable) (ht : t.stage = .waiting [] e later)
    (hpending : t.pending = []) (rest : Bytes) :
    t.feed refuses (Encoding.latin1.encode r.format ++ rest) =
      (t.heard refuses r.code (Encoding.latin1.encode r.format) e later).feed refuses rest := by
  have hended : t.isEnded = false := by rw [isEnded, ht]
  obtain ⟨u, hu⟩ : ∃ u, t.heard refuses r.code (Encoding.latin1.encode r.format) e later = u :=
    ⟨_, rfl⟩
  have hnone : u.pending = [] := by rw [← hu, pending_heard, hpending]
  have hdrain := drain_reply refuses hr.code hr.nonempty hr.lines ht (.inl rfl) rest hu
  rw [hu, feed_of_not_isEnded hended, hpending, List.nil_append, Reply.format, hdrain]
  cases hstop : u.isEnded with
  | true => rw [if_pos rfl, feed_of_isEnded hstop, hnone, List.nil_append]
  | false => rw [if_neg Bool.false_ne_true, feed_of_not_isEnded hstop, hnone, List.nil_append]

omit refuses in
/-- A reply with the code that is waited for makes a talk go on, and no other reply does. -/
theorem feed_reply {r : Reply} (hr : r.Readable) (ht : t.stage = .waiting [] e later)
    (hpending : t.pending = []) :
    (r.code = e.expected → t.feed never (Encoding.latin1.encode r.format) = t.next never later) ∧
      (r.code ≠ e.expected →
        ∃ f, t.feed never (Encoding.latin1.encode r.format) = t.fail e f) := by
  have hfeed := feed_reply_append never hr ht hpending []
  rw [List.append_nil, feed_nil ((pending_heard never).trans hpending)] at hfeed
  rw [hfeed]
  exact ⟨fun h => if_pos h, fun h => ⟨_, if_neg h⟩⟩

/-! ## Where a reply ends -/

namespace Sending

/-- The lines of a reply, as far as the first that has no hyphen behind the code. -/
def Whole (reply : List Bytes) : Prop :=
  ∃ more last, reply = more ++ [last] ∧ (∀ l ∈ more, isLast l = false) ∧ isLast last = true

/-- A whole reply ends where it ends, whatever comes behind it. -/
theorem Whole.unique {reply reply' rest rest' : List Bytes} (h : Whole reply) (h' : Whole reply')
    (heq : reply ++ rest = reply' ++ rest') : reply = reply' ∧ rest = rest' := by
  obtain ⟨more, last, rfl, hmore, hlast⟩ := h
  obtain ⟨more', last', rfl, hmore', hlast'⟩ := h'
  rw [List.append_assoc, List.append_assoc] at heq
  induction more generalizing more' with
  | nil =>
    cases more' with
    | nil =>
      obtain ⟨rfl, hrest⟩ := List.cons.inj heq
      exact ⟨rfl, hrest⟩
    | cons m more' =>
      rw [(List.cons.inj heq).1, hmore' m List.mem_cons_self] at hlast
      cases hlast
  | cons m more ih =>
    cases more' with
    | nil =>
      rw [← (List.cons.inj heq).1, hmore m List.mem_cons_self] at hlast'
      cases hlast'
    | cons m' more' =>
      obtain ⟨rfl, htail⟩ := List.cons.inj heq
      obtain ⟨hreply, hrest⟩ := ih (fun l hl => hmore l (List.mem_cons_of_mem m hl)) more'
        htail fun l hl => hmore' l (List.mem_cons_of_mem m hl)
      exact ⟨congrArg (m :: ·) hreply, hrest⟩

end Sending

end Letterbox.Smtp
