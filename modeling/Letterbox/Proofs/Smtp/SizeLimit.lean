import Letterbox.Proofs.Smtp.PathLines
import Letterbox.Proofs.Text.Numerals

/-!
# Sizes that are announced

A client may say with its sender how large the message will be. The sizes are read from the left and
compared with the limit of the server. A number is refused in one way if it is above that limit, and
in another if it is so large that it is not read as a number; the first one to be refused decides.
-/

namespace Letterbox.Smtp

set_option autoImplicit false

open Text

/-- What stands in front of the first equals sign. -/
def parameterName (p : List Char) : List Char := p.takeWhile (· ≠ '=')

/-- What stands behind the first equals sign. -/
def parameterValue (p : List Char) : List Char := (p.dropWhile (· ≠ '=')).tail

def IsSize (p : List Char) : Prop := SameLetters (parameterName p) "SIZE".toList

def AsksUtf8 (p : List Char) : Prop :=
  SameLetters (parameterName p) "SMTPUTF8".toList ∨
    (SameLetters (parameterName p) "BODY".toList ∧
      SameLetters (parameterValue p) "8BITMIME".toList)

instance : DecidablePred IsSize := fun p => by
  unfold IsSize
  infer_instance

instance : DecidablePred AsksUtf8 := fun p => by
  unfold AsksUtf8
  infer_instance

/-- If a parameter is about the size, then its value is a row of digits of any length. -/
def Numbered (p : List Char) : Prop :=
  IsSize p → parameterValue p ≠ [] ∧ (parameterValue p).all Char.isDigit = true

instance : DecidablePred Numbered := fun p => by
  unfold Numbered
  infer_instance

/-- The numbers that the sizes denote, in order. -/
def sizes (ps : List (List Char)) : List Nat :=
  (ps.filter IsSize).map fun p => Nat.ofDigitChars 10 (parameterValue p) 0

theorem sizes_cons_of_pos {p : List Char} (h : IsSize p) (ps : List (List Char)) :
    sizes (p :: ps) = Nat.ofDigitChars 10 (parameterValue p) 0 :: sizes ps := by
  rw [sizes, List.filter_cons_of_pos (by simpa using h), List.map_cons, sizes]

theorem sizes_cons_of_neg {p : List Char} (h : ¬ IsSize p) (ps : List (List Char)) :
    sizes (p :: ps) = sizes ps := by
  rw [sizes, List.filter_cons_of_neg (by simpa using h), sizes]

/-! ## Reading the parameters -/

theorem splitParameter_eq (p : List Char) :
    splitParameter p = (String.ofList (parameterName p), String.ofList (parameterValue p)) := by
  have hname : ∀ {cs : List Char}, '=' ∉ cs → ∀ c ∈ cs, decide (c ≠ '=') = true :=
    fun h c hc => decide_eq_true fun heq => h (heq ▸ hc)
  by_cases hmem : '=' ∈ p
  · obtain ⟨name, value, rfl, hnot⟩ := List.eq_append_cons_of_mem hmem
    simp only [splitParameter, cutAt_append hnot, parameterName, parameterValue,
      List.takeWhile_append_of_pos (hname hnot), List.dropWhile_append_of_pos (hname hnot)]
    rw [List.takeWhile_cons_of_neg (by simp), List.dropWhile_cons_of_neg (by simp),
      List.append_nil, List.tail_cons]
  · simp only [splitParameter, cutAt_of_not_mem hmem, parameterName, parameterValue,
      List.takeWhile_eq_self_iff.mpr (hname hmem), List.dropWhile_eq_nil_iff.mpr (hname hmem)]
    rfl

theorem asksForUtf8_iff (p : List Char) :
    asksForUtf8 (String.ofList (parameterName p)) (String.ofList (parameterValue p)) = true ↔
      AsksUtf8 p := by
  simp only [asksForUtf8, Bool.or_eq_true, Bool.and_eq_true, sameIgnoringCase_iff,
    String.toList_ofList, AsksUtf8]

theorem IsSize.not_asksUtf8 {p : List Char} (h : IsSize p) : ¬ AsksUtf8 p := by
  rintro (hname | ⟨hname, -⟩)
  · exact absurd (h.symm.trans hname) (by decide)
  · exact absurd (h.symm.trans hname) (by decide)

def oversized (maxSize n : Nat) : Reply :=
  if n ≤ sizeLimit then .tooLarge maxSize else .syntaxError "invalid SIZE"

section Parameters
variable {maxSize : Nat} {p : List Char}

theorem readParameters_size (hword : maxSize ≤ sizeLimit) (utf8 : Bool) (hp : IsSize p)
    (hnumbered : Numbered p) (ps : List (List Char)) :
    readParameters maxSize utf8 (p :: ps) =
      if maxSize < Nat.ofDigitChars 10 (parameterValue p) 0 then
        .error (oversized maxSize (Nat.ofDigitChars 10 (parameterValue p) 0))
      else readParameters maxSize utf8 ps := by
  obtain ⟨hne, hall⟩ := hnumbered hp
  have hdigits : ∀ d ∈ parameterValue p, 48 ≤ d.toNat ∧ d.toNat ≤ 57 := fun d hd =>
    Char.isDigit_iff_toNat.mp (List.all_eq_true.mp hall d hd)
  have hasks := (asksForUtf8_iff p).not.mpr hp.not_asksUtf8
  have hsize := (sameIgnoringCase_iff (String.ofList (parameterName p)) "SIZE").mpr
    (by rwa [String.toList_ofList])
  rw [readParameters, splitParameter_eq]
  simp only [hasks, hsize, if_true, Bool.false_eq_true, if_false, String.toList_ofList,
    numeral?_of_digits hne hdigits]
  generalize Nat.ofDigitChars 10 (parameterValue p) 0 = n
  by_cases hlimit : n ≤ sizeLimit
  · simp only [if_pos hlimit, oversized]
  · have hover : maxSize < n := by omega
    simp only [if_neg hlimit, if_pos hover, oversized]

theorem readParameters_utf8 (utf8 : Bool) (hp : AsksUtf8 p) (ps : List (List Char)) :
    readParameters maxSize utf8 (p :: ps) = readParameters maxSize true ps := by
  rw [readParameters, splitParameter_eq]
  simp only [(asksForUtf8_iff p).mpr hp, if_true]

theorem readParameters_other (utf8 : Bool) (hsize : ¬ IsSize p) (hasks : ¬ AsksUtf8 p)
    (ps : List (List Char)) :
    readParameters maxSize utf8 (p :: ps) = readParameters maxSize utf8 ps := by
  have hnot := (sameIgnoringCase_iff (String.ofList (parameterName p)) "SIZE").not.mpr
    (by rwa [String.toList_ofList])
  rw [readParameters, splitParameter_eq]
  simp only [(asksForUtf8_iff p).not.mpr hasks, hnot, Bool.false_eq_true, if_false]

/-- The first size above the limit decides; without one, no parameter is refused. -/
theorem readParameters_numbered (hword : maxSize ≤ sizeLimit) (utf8 : Bool)
    {ps : List (List Char)} (hps : ∀ p ∈ ps, Numbered p) :
    readParameters maxSize utf8 ps =
      match (sizes ps).find? (maxSize < ·) with
      | some n => .error (oversized maxSize n)
      | none => .ok (utf8 || ps.any (AsksUtf8 ·)) := by
  induction ps generalizing utf8 with
  | nil => simp only [readParameters, sizes, List.filter_nil, List.map_nil, List.find?_nil,
      List.any_nil, Bool.or_false]
  | cons p ps ih =>
    obtain ⟨hp, hps⟩ := List.forall_mem_cons.mp hps
    rw [List.any_cons]
    by_cases hsize : IsSize p
    · rw [readParameters_size hword utf8 hsize hp, sizes_cons_of_pos hsize, ih utf8 hps,
        decide_eq_false hsize.not_asksUtf8, Bool.false_or]
      split
      · rename_i hover
        rw [List.find?_cons_of_pos (by simpa using hover)]
      · rename_i hover
        rw [List.find?_cons_of_neg (by simpa using hover)]
    · rw [sizes_cons_of_neg hsize]
      by_cases hasks : AsksUtf8 p
      · rw [readParameters_utf8 utf8 hasks, ih true hps, decide_eq_true hasks, Bool.true_or,
          Bool.or_true]
      · rw [readParameters_other utf8 hsize hasks, ih utf8 hps, decide_eq_false hasks,
          Bool.false_or]

end Parameters

/-! ## The command -/

/-- Sizes are enforced on a line: above the limit they are refused as too large, and otherwise the
sender is taken. -/
structure SizeEnforced (setup : Setup) (s : Session) (line : String) (address : List Char)
    (ps : List (List Char)) : Prop where
  refused : (∃ n ∈ sizes ps, setup.maxSize < n) →
    (CommandChain.standard.dispatch setup line s).outcome.reply.code = 552 ∧
      (CommandChain.standard.dispatch setup line s).outcome.session = s
  granted : (∀ n ∈ sizes ps, n ≤ setup.maxSize) →
    (CommandChain.standard.dispatch setup line s).outcome.reply.code = 250 ∧
      (CommandChain.standard.dispatch setup line s).outcome.session =
        { s with sender := some (String.ofList address), utf8 := ps.any (AsksUtf8 ·) }

section Line
variable {setup : Setup} (hword : setup.maxSize ≤ sizeLimit) {s : Session} (hnone : s.sender = none)
  {opening address text tail : List Char} (hopening : Opening "MAIL" "FROM:" opening)
  (hpath : PathText address text tail) (hnumbered : ∀ p ∈ pieces isBlank tail, Numbered p)
include hword hnone hopening hpath hnumbered

theorem outcome_numbered :
    (CommandChain.standard.dispatch setup (String.ofList (opening ++ (text ++ tail))) s).outcome =
      match (sizes (pieces isBlank tail)).find? (setup.maxSize < ·) with
      | some n => { reply := oversized setup.maxSize n, session := s }
      | none =>
        { reply := .ok
          session := { s with
            sender := some (String.ofList address)
            utf8 := (pieces isBlank tail).any (AsksUtf8 ·) } } := by
  obtain ⟨v, args, rest, hsplit, hverb, hafter, hrest⟩ := hopening.split .mail (text ++ tail)
  obtain ⟨parameters, hparse, hpieces⟩ := hpath.parse
  have hfree : s.hasSender = false := by rw [Session.hasSender, hnone, Option.isSome_none]
  rw [outcome_of_verb .mailFrom hsplit ((ofVerb?_congr hverb).trans NamesPath.mail.ofVerb?)]
  simp only [CommandHandler.execute, CommandHandler.ofKind, mailFrom, hfree, Bool.false_eq_true,
    if_false, hafter, hrest, hparse, hpieces, readParameters_numbered hword false hnumbered]
  cases (sizes (pieces isBlank tail)).find? (setup.maxSize < ·) with
  | some n => rfl
  | none => simp only [Bool.false_or]

/-- A first size that is not read as a number is taken for something that is none. -/
theorem outcome_unread {n : Nat}
    (hfirst : (sizes (pieces isBlank tail)).find? (setup.maxSize < ·) = some n)
    (hover : sizeLimit < n) :
    (CommandChain.standard.dispatch setup (String.ofList (opening ++ (text ++ tail))) s).outcome =
      { reply := .syntaxError "invalid SIZE", session := s } := by
  rw [outcome_numbered hword hnone hopening hpath hnumbered]
  simp only [hfirst, oversized, if_neg (Nat.not_le_of_lt hover)]

theorem sizeEnforced_of_read
    (hread : ∀ n ∈ (sizes (pieces isBlank tail)).find? (setup.maxSize < ·), n ≤ sizeLimit) :
    SizeEnforced setup s (String.ofList (opening ++ (text ++ tail))) address
      (pieces isBlank tail) := by
  have hout := outcome_numbered hword hnone hopening hpath hnumbered
  cases hfirst : (sizes (pieces isBlank tail)).find? (setup.maxSize < ·) with
  | none =>
    rw [hfirst] at hout
    refine ⟨?_, fun _ => by rw [hout]; exact ⟨rfl, rfl⟩⟩
    rintro ⟨n, hn, hlt⟩
    exact absurd (decide_eq_true hlt) (List.find?_eq_none.mp hfirst n hn)
  | some n =>
    simp only [hfirst, oversized, if_pos (hread n hfirst)] at hout
    refine ⟨fun _ => by rw [hout]; exact ⟨rfl, rfl⟩, fun hall => ?_⟩
    have hlt : setup.maxSize < n := by simpa using List.find?_some hfirst
    exact absurd hlt (Nat.not_lt_of_le (hall n (List.mem_of_find?_eq_some hfirst)))

end Line

/-- Sizes are enforced on a line whose sizes are numbers of any length, unless the first one above
the limit of the server is beyond what is read as a number. Then the line is refused like one whose
size is no number. -/
theorem size_enforced_iff {setup : Setup} (hword : setup.maxSize ≤ sizeLimit) {s : Session}
    (hnone : s.sender = none) {opening address text tail : List Char}
    (hopening : Opening "MAIL" "FROM:" opening) (hpath : PathText address text tail)
    (hnumbered : ∀ p ∈ pieces isBlank tail, Numbered p) :
    let line := String.ofList (opening ++ (text ++ tail))
    let first := (sizes (pieces isBlank tail)).find? (setup.maxSize < ·)
    (SizeEnforced setup s line address (pieces isBlank tail) ↔ ∀ n ∈ first, n ≤ sizeLimit) ∧
      ∀ n ∈ first, sizeLimit < n →
        (CommandChain.standard.dispatch setup line s).outcome =
          { reply := .syntaxError "invalid SIZE", session := s } := by
  intro line first
  have hunread : ∀ n ∈ first, sizeLimit < n → _ :=
    fun n hfirst => outcome_unread hword hnone hopening hpath hnumbered hfirst
  refine ⟨⟨fun henforced n hfirst => ?_,
    sizeEnforced_of_read hword hnone hopening hpath hnumbered⟩, hunread⟩
  have hlt : setup.maxSize < n := by simpa using List.find?_some hfirst
  have hcode := (henforced.refused ⟨n, List.mem_of_find?_eq_some hfirst, hlt⟩).1
  by_contra hover
  have hother : (Reply.syntaxError "invalid SIZE").code ≠ 552 := by decide
  rw [hunread n hfirst (Nat.lt_of_not_le hover)] at hcode
  exact hother hcode

/-- A size that is not read as a number does not matter behind one that is above the limit. -/
theorem size_enforced_first :
    SizeEnforced { hostname := "sink.test", maxSize := 1000 } {}
      "mail From: <a@b.com> BODY=7BIT size=1001 SIZE=18446744073709551616" "a@b.com".toList
      ["BODY=7BIT".toList, "size=1001".toList, "SIZE=18446744073709551616".toList] := by
  have hopening : Opening "MAIL" "FROM:" "mail From:".toList :=
    .intro [] "mail".toList [] "From:".toList nofun (by decide) nofun (by decide)
  have hpath : PathText "a@b.com".toList " <a@b.com>".toList
      " BODY=7BIT size=1001 SIZE=18446744073709551616".toList :=
    .bracketed [' '] "a@b.com".toList _ (List.forall_mem_singleton.mpr (by decide)) (by decide)
  exact (size_enforced_iff (by decide) rfl hopening hpath (by decide)).1.mpr (by decide)

/-- The first number that is not read as one is taken for something that is no number. -/
theorem oversize_unread :
    Opening "MAIL" "FROM:" "MAIL FROM:".toList ∧
      PathText "a@b.com".toList "<a@b.com>".toList " SIZE=18446744073709551616".toList ∧
      pieces isBlank " SIZE=18446744073709551616".toList = ["SIZE=18446744073709551616".toList] ∧
      Numbered "SIZE=18446744073709551616".toList ∧
      ¬ SizeEnforced { hostname := "sink.test", maxSize := 1000 } {}
        "MAIL FROM:<a@b.com> SIZE=18446744073709551616" "a@b.com".toList
        ["SIZE=18446744073709551616".toList] := by
  refine ⟨?_, ?_, by decide, by decide, ?_⟩
  · exact .intro [] "MAIL".toList [] "FROM:".toList nofun (by decide) nofun (by decide)
  · exact .bracketed [] "a@b.com".toList _ nofun (by decide)
  · intro h
    have hcode := (h.refused ⟨18446744073709551616, by decide, by decide⟩).1
    exact absurd hcode (by decide)

end Letterbox.Smtp
