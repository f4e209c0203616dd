import Letterbox.Proofs.Smtp.Effects
import Letterbox.Proofs.Text.Cuts
import Letterbox.Proofs.Text.Plain

/-!
# The commands of the sending side

What the commands that are said to hand mail on do to the session of the server that hears them.
-/

namespace Letterbox.Smtp

set_option autoImplicit false

open Text

structure Addressable (address : String) : Prop where
  plain : Plain address
  unbracketed : '>' ∉ address.toList
  trimmed : trim address = address

theorem Addressable.trimChars_toList {address : String} (h : Addressable address) :
    trimChars address.toList = address.toList := by
  have htrim := congrArg String.toList h.trimmed
  rwa [trim, String.toList_ofList] at htrim

/-- A command that ends with an address and the closing bracket. -/
theorem plain_bracketed {command address : String} (hcommand : Plain command)
    (haddress : Plain address) : Plain (command ++ address ++ ">") :=
  (hcommand.append haddress).append (by decide)

/-- A line of a verb and its arguments falls apart at the first space. -/
theorem splitVerb_append {c : Char} {verb : List Char} (hc : isBlank c = false)
    (hspace : ' ' ∉ c :: verb) (args : List Char) :
    splitVerb (String.ofList (c :: verb ++ ' ' :: args)) =
      (String.ofList (c :: verb), String.ofList (trimChars args)) := by
  simp only [splitVerb, String.toList_ofList]
  rw [List.cons_append, skipBlanks_cons hc, ← List.cons_append, cutAt_append hspace]

theorem parsePath?_brackets {address : String} (h : Addressable address) :
    parsePath? ('<' :: (address.toList ++ ['>'])) = some (address.toList, []) := by
  rw [parsePath?, trimChars_of_ends (by decide) (by decide)]
  simp only [cutAt_append h.unbracketed, Option.map_some, h.trimChars_toList]
  rfl

theorem afterKeyword?_append (keyword : String) (cs : List Char) :
    afterKeyword? keyword (keyword.toList ++ cs) = some (skipBlanks cs) := by
  simp only [afterKeyword?, List.take_left, List.drop_left, if_true]

theorem splitVerb_path (c d : Char) (verb keyword : List Char) (hc : isBlank c = false)
    (hd : isBlank d = false) (hspace : ' ' ∉ c :: verb) (address : List Char) :
    splitVerb (String.ofList (c :: verb ++ ' ' :: d :: keyword ++ '<' :: (address ++ ['>']))) =
      (String.ofList (c :: verb),
        String.ofList (d :: keyword ++ '<' :: (address ++ ['>']))) := by
  have h := splitVerb_append hc hspace (d :: keyword ++ '<' :: (address ++ ['>']))
  have htrim := trimChars_of_ends hd (d := '>') (by decide) (keyword ++ '<' :: address)
  simp only [List.append_assoc, List.cons_append] at h htrim ⊢
  rw [h, htrim]

theorem outcome_of_verb {setup : Setup} {s : Session} {line verb args : String}
    (kind : CommandKind) (hsplit : splitVerb line = (verb, args))
    (hkind : CommandKind.ofVerb? verb = some kind) :
    (CommandChain.standard.dispatch setup line s).outcome =
      (CommandHandler.ofKind kind).execute setup verb args s := by
  rw [outcome_dispatch, hsplit, find?_standard, hkind]
  rfl

variable (setup : Setup) (s : Session)

theorem outcome_hello {name : String} (hname : Plain name) (hblank : blankText name = false) :
    ∃ domain, Plain domain ∧
      (CommandChain.standard.dispatch setup ("EHLO " ++ name) s).outcome =
        { reply := ⟨250, extensions setup (setup.hostname ++ " Hello " ++ domain)⟩
          session := { helo := some domain } } := by
  have hsplit : splitVerb ("EHLO " ++ name) = ("EHLO", trim name) := by
    have h := splitVerb_append (c := 'E') (show isBlank 'E' = false by decide)
      (show ' ' ∉ ['E', 'H', 'L', 'O'] by decide) name.toList
    rw [List.append_cons, String.ofList_append, String.ofList_toList] at h
    exact h
  rw [outcome_of_verb .greeting hsplit (by decide)]
  obtain ⟨c, hc, hcblank⟩ := List.all_eq_false.mp hblank
  have hmem : c ∈ trimChars name.toList := mem_trimChars hc (by simpa using hcblank)
  obtain ⟨w, ws, hwords⟩ : ∃ w ws, words (trim name) = w :: ws := by
    apply List.exists_cons_of_ne_nil
    simp only [words, trim, String.toList_ofList, ne_eq, List.map_eq_nil_iff]
    exact pieces_ne_nil hmem (by simpa using hcblank)
  refine ⟨w, ?_, ?_⟩
  · have hw : w ∈ words (trim name) := by simp [hwords]
    simp only [words, trim, String.toList_ofList, List.mem_map] at hw
    obtain ⟨cs, hcs, rfl⟩ := hw
    intro d hd
    rw [String.toList_ofList] at hd
    exact hname d (trimChars_subset _ (mem_of_mem_pieces hcs hd))
  · simp only [CommandHandler.execute, CommandHandler.ofKind, greet, hwords]
    rfl

theorem outcome_sender {address : String} (h : Addressable address) (hnone : s.sender = none) :
    (CommandChain.standard.dispatch setup ("MAIL FROM:<" ++ address ++ ">") s).outcome =
      { reply := .ok, session := { s with sender := some address, utf8 := false } } := by
  have hsplit := splitVerb_path 'M' 'F' ['A', 'I', 'L'] ['R', 'O', 'M', ':'] (by decide) (by decide)
    (by decide) address.toList
  have hline : "MAIL FROM:<" ++ address ++ ">" = String.ofList
      ('M' :: ['A', 'I', 'L'] ++ ' ' :: 'F' :: ['R', 'O', 'M', ':'] ++
        '<' :: (address.toList ++ ['>'])) := by
    apply String.toList_injective
    simp only [String.toList_append, String.toList_ofList]
    rfl
  have hafter := afterKeyword?_append "FROM:" ('<' :: (address.toList ++ ['>']))
  have hnot : s.hasSender = false := by simp [Session.hasSender, hnone]
  rw [hline, outcome_of_verb .mailFrom hsplit (by decide)]
  simp only [CommandHandler.execute, CommandHandler.ofKind, mailFrom, hnot, Bool.false_eq_true,
    if_false, String.toList_ofList]
  have hpath : (['F', 'R', 'O', 'M', ':'] ++ '<' :: (address.toList ++ ['>'])) =
      "FROM:".toList ++ '<' :: (address.toList ++ ['>']) := rfl
  rw [hpath, hafter, skipBlanks_cons (by decide)]
  simp only [parsePath?_brackets h, String.ofList_toList]
  rfl

theorem outcome_recipient {address : String} (h : Addressable address) (hne : address ≠ "")
    (hsome : s.sender.isSome) (hroom : s.recipients.length < maxRecipients) :
    (CommandChain.standard.dispatch setup ("RCPT TO:<" ++ address ++ ">") s).outcome =
      { reply := .ok, session := { s with recipients := s.recipients ++ [address] } } := by
  have hsplit := splitVerb_path 'R' 'T' ['C', 'P', 'T'] ['O', ':'] (by decide) (by decide)
    (by decide) address.toList
  have hline : "RCPT TO:<" ++ address ++ ">" = String.ofList
      ('R' :: ['C', 'P', 'T'] ++ ' ' :: 'T' :: ['O', ':'] ++
        '<' :: (address.toList ++ ['>'])) := by
    apply String.toList_injective
    simp only [String.toList_append, String.toList_ofList]
    rfl
  have hafter := afterKeyword?_append "TO:" ('<' :: (address.toList ++ ['>']))
  have hpath : (['T', 'O', ':'] ++ '<' :: (address.toList ++ ['>'])) =
      "TO:".toList ++ '<' :: (address.toList ++ ['>']) := rfl
  have hlist : address.toList ≠ [] := fun hnil => hne (String.toList_eq_nil_iff.mp hnil)
  obtain ⟨c, cs, hcs⟩ := List.exists_cons_of_ne_nil hlist
  rw [hline, outcome_of_verb .rcptTo hsplit (by decide)]
  simp only [CommandHandler.execute, CommandHandler.ofKind, rcptTo, Session.hasSender, hsome,
    Bool.not_true, Bool.false_eq_true, if_false, String.toList_ofList]
  rw [hpath, hafter, skipBlanks_cons (by decide)]
  have hbrackets := parsePath?_brackets h
  rw [hcs] at hbrackets ⊢
  simp only [hbrackets, if_neg (Nat.not_le_of_lt hroom)]
  rw [← hcs, String.ofList_toList]

theorem outcome_data (hsome : s.sender.isSome) (hne : s.recipients ≠ []) :
    (CommandChain.standard.dispatch setup "DATA" s).outcome =
      { reply := .startData, next := .captureData, session := { s with message := [] } } := by
  have hdata : s.hasSender && s.hasRecipients := by
    simp [Session.hasSender, Session.hasRecipients, hsome, hne]
  rw [outcome_of_verb .data (show splitVerb "DATA" = ("DATA", "") by decide) (by decide)]
  simp only [CommandHandler.execute, CommandHandler.ofKind, data, hdata, if_true]

theorem outcome_quit :
    (CommandChain.standard.dispatch setup "QUIT" s).outcome =
      { reply := .closing setup.hostname, next := .quit, session := s } := by
  rw [outcome_of_verb .quit (show splitVerb "QUIT" = ("QUIT", "") by decide) (by decide)]
  rfl

end Letterbox.Smtp
