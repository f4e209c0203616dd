import Letterbox.Proofs.Message.HeaderLines
import Letterbox.Proofs.Smtp.DotStuffing
import Letterbox.Proofs.Text.Resync
import Letterbox.Rule.Match

/-!
# What is seen as a header

A message that came over SMTP is made of whole lines. Its headers are told from its lines: from the
first one, and from those after it up to an empty one. So an empty line at the very beginning does
not end the headers, although it does for the text of the message.
-/

namespace Letterbox.Message

set_option autoImplicit false

open Lines

theorem decodeChars_rows (ls : List Bytes) :
    Utf8.decodeChars (ls.flatMap (· ++ [cr, lf])) = rows (ls.map Utf8.decodeChars) := by
  induction ls with
  | nil => rfl
  | cons l ls ih =>
    have hfeed := Utf8.decodeChars_append_ascii (show lf.toNat < 128 by decide)
      (ls.flatMap (· ++ [cr, lf])) []
    rw [List.nil_append] at hfeed
    rw [List.flatMap_cons, List.append_assoc, List.cons_append, List.cons_append, List.nil_append,
      Utf8.decodeChars_append_ascii (by decide), hfeed, ih, List.map_cons, rows_cons]
    rfl

theorem whole_decodeChars {l : Bytes} (h : Unbroken l) : Whole (Utf8.decodeChars l) := by
  constructor
  · intro hcr
    exact h.1 (Utf8.mem_of_mem_decodeSkipping (by decide) (by decide) hcr)
  · intro hlf
    exact h.2 (Utf8.mem_of_mem_decodeSkipping (by decide) (by decide) hlf)

theorem isEmpty_decodeChars (l : Bytes) : (Utf8.decodeChars l).isEmpty = l.isEmpty := by
  rw [Bool.eq_iff_iff, List.isEmpty_iff, List.isEmpty_iff]
  exact Utf8.decodeChars_eq_nil_iff l

theorem takeWhile_decodeChars (ls : List Bytes) :
    (ls.map Utf8.decodeChars).takeWhile (!·.isEmpty) =
      (ls.takeWhile (!·.isEmpty)).map Utf8.decodeChars := by
  rw [List.takeWhile_map]
  apply congrArg (List.map Utf8.decodeChars <| List.takeWhile · ls)
  funext l
  simp only [Function.comp_apply, isEmpty_decodeChars]

theorem topLines_decodeChars (ls : List Bytes) :
    topLines (ls.map Utf8.decodeChars) = (topLines ls).map Utf8.decodeChars := by
  cases ls with
  | nil => rfl
  | cons l ls => rw [List.map_cons, topLines, takeWhile_decodeChars, topLines, List.map_cons]

def headersIn (ls : List Bytes) : List String :=
  (unfold (ls.map Utf8.decodeChars)).map String.ofList

theorem headers_ofBytes (raw : Bytes) :
    (ofBytes raw).headers = (headersOf (Utf8.decodeChars raw)).map String.ofList := rfl

theorem headers_rows {ls : List Bytes} (h : ∀ l ∈ ls, Unbroken l) :
    (ofBytes (ls.flatMap (· ++ [cr, lf]))).headers = headersIn (topLines ls) := by
  have hwhole : ∀ w ∈ ls.map Utf8.decodeChars, Whole w := by
    intro w hw
    obtain ⟨l, hl, rfl⟩ := List.mem_map.mp hw
    exact whole_decodeChars (h l hl)
  rw [headers_ofBytes, decodeChars_rows, headersOf_rows hwhole, topLines_decodeChars, headersIn]

/-- Behind an empty line at the beginning only lines that continue something make no header. -/
theorem headersIn_topLines_iff (ls : List Bytes) :
    headersIn (topLines ls) = headersIn (ls.takeWhile (!·.isEmpty)) ↔
      (ls.head? = some [] → ∀ l ∈ ls.tail.takeWhile (!·.isEmpty),
        isContinuation (Utf8.decodeChars l) = true) := by
  cases ls with
  | nil => simp [topLines]
  | cons l ls =>
    cases l with
    | cons b l =>
      have hsame : topLines ((b :: l) :: ls) = ((b :: l) :: ls).takeWhile (!·.isEmpty) := rfl
      rw [hsame]
      simp
    | nil =>
      have hnone : headersIn (([] :: ls).takeWhile (!·.isEmpty)) = [] := rfl
      have htop : topLines ([] :: ls) = [] :: ls.takeWhile (!·.isEmpty) := rfl
      rw [hnone, htop, headersIn, List.map_eq_nil_iff, unfold_eq_nil_iff, List.head?_cons,
        List.tail_cons, List.map_cons, List.forall_mem_cons, List.forall_mem_map]
      constructor
      · rintro ⟨-, hall⟩ - l hl
        rcases hall l hl with hcontinued | hempty
        · exact hcontinued
        · have hl' := List.mem_takeWhile_imp hl
          rw [(Utf8.decodeChars_eq_nil_iff l).mp hempty] at hl'
          cases hl'
      · intro hall
        exact ⟨.inr rfl, fun l hl => .inl (hall rfl l hl)⟩

theorem patternsMatch_header (pattern : Option String) (m : Message) :
    Rule.patternsMatch pattern none m = (Rule.readPattern pattern).map fun p =>
      p.any fun p => m.headers.any fun header => p.occursIn header.toList := by
  have hbody : Rule.readPattern none = .ok none := rfl
  rw [Rule.patternsMatch, hbody]
  cases Rule.readPattern pattern with
  | error f => rfl
  | ok p => exact congrArg Except.ok (Bool.or_false _)

theorem patternsMatch_header_iff (pattern : Option String) (m : Message) :
    Rule.patternsMatch pattern none m = .ok true ↔
      ∃ p, Rule.readPattern pattern = .ok (some p) ∧
        ∃ header ∈ m.headers, p.occursIn header.toList = true := by
  rw [patternsMatch_header]
  cases Rule.readPattern pattern with
  | error f => simp [Except.map]
  | ok p => cases p <;> simp [Except.map]

/-- Which lines of a message are seen as headers. They are the first line, whatever it is, and those
after it up to an empty one, and these make all the headers there are. They are the lines before the
first empty one exactly if the message does not begin with an empty line, or if behind that nothing
but continuations comes up to the next one. A pattern for headers is satisfied by one of them, or it
is not satisfied. -/
theorem headers_exact_iff {ls : List Bytes} (h : ∀ l ∈ ls, Unbroken l) :
    let m := ofBytes (ls.flatMap (· ++ [cr, lf]))
    m.headers = headersIn (topLines ls) ∧
      (m.headers = headersIn (ls.takeWhile (!·.isEmpty)) ↔
        (ls.head? = some [] → ∀ l ∈ ls.tail.takeWhile (!·.isEmpty),
          isContinuation (Utf8.decodeChars l) = true)) ∧
      ∀ pattern, Rule.patternsMatch pattern none m = .ok true ↔
        ∃ p, Rule.readPattern pattern = .ok (some p) ∧
          ∃ header ∈ headersIn (topLines ls), p.occursIn header.toList = true := by
  intro m
  have hheaders : m.headers = headersIn (topLines ls) := headers_rows h
  refine ⟨hheaders, ?_, ?_⟩
  · rw [hheaders]
    exact headersIn_topLines_iff ls
  · intro pattern
    rw [← hheaders]
    exact patternsMatch_header_iff pattern m

def noteLines : List Bytes :=
  [Utf8.encode "Subject: part one", Utf8.encode "  part two", [], Utf8.encode "X: y"]

theorem headers_exact_note :
    (∀ l ∈ noteLines, Unbroken l) ∧
      (ofBytes (noteLines.flatMap (· ++ [cr, lf]))).headers = ["Subject: part one part two"] := by
  have hlines : ∀ l ∈ noteLines, Unbroken l := by
    unfold Unbroken
    decide
  refine ⟨hlines, ?_⟩
  rw [(headers_exact_iff hlines).1]
  decide

/-- The same line behind an empty first line is text, and is taken for a header. -/
theorem text_taken_for_header :
    let ls := [[], Utf8.encode "X: y"]
    let m := ofBytes (ls.flatMap (· ++ [cr, lf]))
    (∀ l ∈ ls, Unbroken l) ∧ headersIn (ls.takeWhile (!·.isEmpty)) = [] ∧
      m = ⟨["X: y"], "X: y\r\n"⟩ ∧ Rule.patternsMatch (some "^X: y$") none m = .ok true := by
  refine ⟨?_, rfl, ?_, ?_⟩
  · unfold Unbroken
    decide
  · decide +kernel
  · decide +kernel

end Letterbox.Message
