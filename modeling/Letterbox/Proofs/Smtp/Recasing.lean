import Letterbox.Proofs.Smtp.Addresses
import Letterbox.Proofs.Smtp.PathLines

/-!
# Keywords in letters of either case

The case of letters does not matter where a line has a word that is compared with known ones: its
verb, its keyword, the names of its parameters, and the value of one of them. Everywhere else the
letters are kept, so an address stands in the session as it stands in the line.
-/

namespace Letterbox.Smtp

set_option autoImplicit false

open Text

/-- A parameter of MAIL with its name in letters of another case. Only one name has a value that may
be changed with it. -/
inductive SameParameter : List Char → List Char → Prop where
  | bare {name name' : List Char} : '=' ∉ name → SameLetters name name' → SameParameter name name'
  | valued (name name' value : List Char) : '=' ∉ name → SameLetters name name' →
    SameParameter (name ++ '=' :: value) (name' ++ '=' :: value)
  | body (name name' value value' : List Char) : SameLetters name "BODY".toList →
    SameLetters name name' → SameLetters value value' →
      SameParameter (name ++ '=' :: value) (name' ++ '=' :: value')

/-- Parameters of MAIL and the blanks around them, with the same blanks on both sides. -/
inductive SameParameters : List Char → List Char → Prop where
  | nil : SameParameters [] []
  | blank {c : Char} {cs cs' : List Char} : isBlank c = true → SameParameters cs cs' →
    SameParameters (c :: cs) (c :: cs')
  | parameter {p p' cs cs' : List Char} : p ≠ [] → (∀ c ∈ p, isBlank c = false) →
    (∀ c ∈ cs.head?, isBlank c = true) → SameParameter p p' → SameParameters cs cs' →
      SameParameters (p ++ cs) (p' ++ cs')

inductive Recased : List Char → List Char → Prop where
  | same (line : List Char) : Recased line line
  | verb {lead v v' rest : List Char} : (∀ c ∈ lead, isBlank c = true) →
    (∀ c ∈ v.head?, isBlank c = false) → v ≠ [] → ' ' ∉ v →
      (∀ c ∈ rest.head?, c = ' ') → SameLetters v v' →
        Recased (lead ++ (v ++ rest)) (lead ++ (v' ++ rest))
  | keyword {kind : CommandKind} {verb keyword : String} {opening opening' : List Char}
    (tail : List Char) : NamesPath kind verb keyword → Opening verb keyword opening →
      SameLetters opening opening' → Recased (opening ++ tail) (opening' ++ tail)
  | parameters {opening opening' address text tail tail' : List Char} :
    Opening "MAIL" "FROM:" opening → SameLetters opening opening' → PathText address text tail →
      SameParameters tail tail' → Recased (opening ++ (text ++ tail)) (opening' ++ (text ++ tail'))

/-! ## Parameters -/

theorem SameParameter.sameLetters {p p' : List Char} (h : SameParameter p p') :
    SameLetters p p' := by
  cases h with
  | bare _ hname => exact hname
  | valued name name' value _ hname => exact hname.append (.refl _)
  | body name name' value value' _ hname hvalue => exact hname.append (.cons '=' hvalue)

theorem SameParameter.split {p p' : List Char} (h : SameParameter p p') :
    ∃ key value key' value', splitParameter p = (key, value) ∧ splitParameter p' = (key', value') ∧
      SameLetters key.toList key'.toList ∧ SameLetters value.toList value'.toList ∧
      (value = value' ∨ SameLetters key.toList "BODY".toList) := by
  have hnamed : ∀ {name value : List Char}, '=' ∉ name →
      splitParameter (name ++ '=' :: value) = (String.ofList name, String.ofList value) :=
    fun h => by simp only [splitParameter, cutAt_append h]
  have hlone : ∀ {name : List Char}, '=' ∉ name → splitParameter name = (String.ofList name, "") :=
    fun h => by simp only [splitParameter, cutAt_of_not_mem h]
  have hletters : ∀ {cs ds : List Char}, SameLetters cs ds →
      SameLetters (String.ofList cs).toList (String.ofList ds).toList :=
    fun h => by rwa [String.toList_ofList, String.toList_ofList]
  cases h with
  | bare hname hsame =>
    exact ⟨_, _, _, _, hlone hname, hlone (hsame.symm.not_mem (by decide) hname), hletters hsame,
      .refl _, .inl rfl⟩
  | valued name name' value hname hsame =>
    exact ⟨_, _, _, _, hnamed hname, hnamed (hsame.symm.not_mem (by decide) hname), hletters hsame,
      .refl _, .inl rfl⟩
  | body name name' value value' hbody hsame hvalue =>
    have hname := hbody.not_mem (d := '=') (by decide) (by decide)
    refine ⟨_, _, _, _, hnamed hname, hnamed (hsame.symm.not_mem (by decide) hname), hletters hsame,
      hletters hvalue, .inr ?_⟩
    rwa [String.toList_ofList]

theorem readParameters_congr (maxSize : Nat) (utf8 : Bool) {ps ps' : List (List Char)}
    (h : List.Forall₂ SameParameter ps ps') :
    readParameters maxSize utf8 ps = readParameters maxSize utf8 ps' := by
  induction h generalizing utf8 with
  | nil => rfl
  | @cons p p' ps ps' hp _ ih =>
    obtain ⟨key, value, key', value', hsplit, hsplit', hkey, hvalue, hkept⟩ := hp.split
    have hasks : asksForUtf8 key value = asksForUtf8 key' value' := by
      simp only [asksForUtf8, sameIgnoringCase_congr hkey, sameIgnoringCase_congr hvalue]
    rw [readParameters, readParameters, hsplit, hsplit']
    simp only [hasks, sameIgnoringCase_congr hkey "SIZE", ih]
    split
    · rfl
    · split
      · rename_i hsize
        -- A size keeps its value, as its name is not the one whose value may be changed.
        have hsame : value = value' := hkept.resolve_right fun hbody => by
          rw [← sameIgnoringCase_congr hkey, sameIgnoringCase_iff] at hsize
          exact absurd (hsize.symm.trans hbody) (by decide)
        rw [hsame]
      · rfl

namespace SameParameters

variable {cs cs' : List Char}

theorem sameLetters (h : SameParameters cs cs') : SameLetters cs cs' := by
  induction h with
  | nil => exact .refl []
  | blank _ _ ih => exact ih.cons _
  | parameter _ _ _ hp _ ih => exact hp.sameLetters.append ih

theorem pieces (h : SameParameters cs cs') :
    List.Forall₂ SameParameter (pieces isBlank cs) (pieces isBlank cs') := by
  induction h with
  | nil => exact .nil
  | blank hc _ ih => rwa [pieces_cons_of_pos hc, pieces_cons_of_pos hc]
  | parameter hne hword hapart hp hrest ih =>
    have hsame := hp.sameLetters.symm
    rw [pieces_word hne hword hapart, pieces_word (hsame.ne_nil hne) (hsame.forall_isBlank hword)
      (hrest.sameLetters.symm.head?_isBlank hapart)]
    exact .cons hp ih

end SameParameters

/-! ## Lines -/

theorem Opening.recase {verb keyword : String} {opening opening' : List Char}
    (h : Opening verb keyword opening) (hsame : SameLetters opening opening') :
    Opening verb keyword opening' := by
  cases h with
  | intro _ _ _ _ hlead hv hgap hk =>
    obtain ⟨lead, back, rfl, hslead, hback⟩ := hsame.exists_append
    obtain ⟨v, args, rfl, hsv, hargs⟩ := hback.exists_append
    obtain ⟨args, rfl, hparts⟩ := hargs.exists_cons (by decide)
    obtain ⟨gap, k, rfl, hsgap, hsk⟩ := hparts.exists_append
    exact .intro lead v gap k (hslead.symm.forall_isBlank hlead) (hsv.symm.trans hv)
      (hsgap.symm.forall_isBlank hgap) (hsk.symm.trans hk)

theorem PathText.recase {address text tail tail' : List Char} (h : PathText address text tail)
    (hsame : SameLetters tail tail') : PathText address text tail' := by
  cases h with
  | bracketed gap inner _ hgap hinner => exact .bracketed gap inner tail' hgap hinner
  | bare hgap hne hword hopen hapart =>
    exact .bare hgap hne hword hopen (hsame.symm.head?_isBlank hapart)

/-- A verb is cut off from its arguments at the same place, whatever its letters are. -/
theorem splitVerb_verb {lead v rest : List Char} (hlead : ∀ c ∈ lead, isBlank c = true)
    (hfirst : ∀ c ∈ v.head?, isBlank c = false) (hne : v ≠ []) (hspace : ' ' ∉ v)
    (hrest : ∀ c ∈ rest.head?, c = ' ') :
    splitVerb (String.ofList (lead ++ (v ++ rest))) =
      (String.ofList (if rest = [] then dropBlanksEnd v else v),
        String.ofList (trimChars rest.tail)) := by
  obtain ⟨c, v, rfl⟩ := List.exists_cons_of_ne_nil hne
  have hskip : skipBlanks (lead ++ (c :: v ++ rest)) = c :: v ++ rest := by
    rw [skipBlanks_append hlead, List.cons_append, skipBlanks_cons (hfirst c rfl)]
  cases rest with
  | nil =>
    rw [List.append_nil] at hskip ⊢
    simp only [splitVerb, String.toList_ofList, hskip, cutAt_of_not_mem hspace, if_true]
    rfl
  | cons d args =>
    cases hrest d rfl
    simp only [splitVerb, String.toList_ofList, hskip, cutAt_append hspace, List.cons_ne_nil,
      if_false, List.tail_cons]

/-! ## Commands -/

section Commands
variable {setup : Setup} {s : Session}

theorem knows_congr {v v' : String} (h : SameLetters v.toList v'.toList) (c : CommandHandler) :
    c.knows v = c.knows v' := by
  simp only [CommandHandler.knows, sameIgnoringCase_congr_right h]

/-- Lines with the same verb are answered alike if the command that goes by it does the same. -/
theorem dispatch_congr {line line' v v' args args' : String} (hsplit : splitVerb line = (v, args))
    (hsplit' : splitVerb line' = (v', args')) (hverb : SameLetters v.toList v'.toList)
    (hexecute : ∀ kind, CommandKind.ofVerb? v = some kind →
      (CommandHandler.ofKind kind).execute setup v args s =
        (CommandHandler.ofKind kind).execute setup v' args' s) :
    CommandChain.standard.dispatch setup line s = CommandChain.standard.dispatch setup line' s := by
  have hhandler : (CommandChain.standard.dispatch setup line s).handler =
      (CommandChain.standard.dispatch setup line' s).handler := by
    simp only [handler_dispatch, hsplit, hsplit', knows_congr hverb]
  have houtcome : (CommandChain.standard.dispatch setup line s).outcome =
      (CommandChain.standard.dispatch setup line' s).outcome := by
    simp only [outcome_dispatch, hsplit, hsplit', find?_standard, ← ofVerb?_congr hverb]
    cases hkind : CommandKind.ofVerb? v with
    | none => rfl
    | some kind => exact hexecute kind hkind
  rw [Dispatched.mk.injEq]
  exact ⟨hhandler, houtcome⟩

/-- A verb is used once more in its command, where it is compared as well. -/
theorem execute_congr {v v' : String} (h : SameLetters v.toList v'.toList) (c : CommandHandler)
    (args : String) : c.execute setup v args s = c.execute setup v' args s := by
  unfold CommandHandler.execute
  split
  · simp only [greet, sameIgnoringCase_congr h]
  all_goals rfl

/-- A keyword is not looked at any more once the path is read. -/
theorem execute_path_congr {kind : CommandKind} {verb keyword v v' args args' : String}
    {rest rest' : List Char} (hkind : NamesPath kind verb keyword)
    (h : afterKeyword? keyword args.toList = some rest)
    (h' : afterKeyword? keyword args'.toList = some rest')
    (hpath : parsePath? rest = parsePath? rest') :
    (CommandHandler.ofKind kind).execute setup v args s =
      (CommandHandler.ofKind kind).execute setup v' args' s := by
  cases hkind with
  | mail => simp only [CommandHandler.execute, CommandHandler.ofKind, mailFrom, h, h', hpath]
  | rcpt => simp only [CommandHandler.execute, CommandHandler.ofKind, rcptTo, h, h', hpath]

theorem Recased.dispatch {line line' : List Char} (h : Recased line line') :
    CommandChain.standard.dispatch setup (String.ofList line) s =
      CommandChain.standard.dispatch setup (String.ofList line') s := by
  cases h with
  | same => rfl
  | @verb lead v v' rest hlead hfirst hne hspace hrest hsame =>
    have hverb : SameLetters (String.ofList (if rest = [] then dropBlanksEnd v else v)).toList
        (String.ofList (if rest = [] then dropBlanksEnd v' else v')).toList := by
      rw [String.toList_ofList, String.toList_ofList]
      split
      · exact hsame.dropBlanksEnd
      · exact hsame
    exact dispatch_congr (splitVerb_verb hlead hfirst hne hspace hrest)
      (splitVerb_verb hlead (hsame.symm.head?_isBlank hfirst) (hsame.symm.ne_nil hne)
        (hsame.symm.not_mem (by decide) hspace) hrest)
      hverb fun _ _ => execute_congr hverb _ _
  | @keyword kind verb keyword opening opening' tail hkind hopening hsame =>
    obtain ⟨v, args, rest, hsplit, hverb, hafter, hrest⟩ := hopening.split hkind tail
    obtain ⟨v', args', rest', hsplit', hverb', hafter', hrest'⟩ :=
      (hopening.recase hsame).split hkind tail
    refine dispatch_congr hsplit hsplit' (hverb.trans hverb'.symm) fun kind' hkind' => ?_
    rw [ofVerb?_congr hverb, hkind.ofVerb?] at hkind'
    cases hkind'
    exact execute_path_congr hkind hafter hafter' (hrest.trans hrest'.symm)
  | @parameters opening opening' address text tail tail' hopening hsame hpath hparameters =>
    obtain ⟨v, args, rest, hsplit, hverb, hafter, hrest⟩ := hopening.split .mail (text ++ tail)
    obtain ⟨v', args', rest', hsplit', hverb', hafter', hrest'⟩ :=
      (hopening.recase hsame).split .mail (text ++ tail')
    obtain ⟨ps, hparse, hpieces⟩ := hpath.parse
    obtain ⟨ps', hparse', hpieces'⟩ := (hpath.recase hparameters.sameLetters).parse
    have hread : readParameters setup.maxSize false (pieces isBlank ps) =
        readParameters setup.maxSize false (pieces isBlank ps') := by
      rw [hpieces, hpieces']
      exact readParameters_congr _ _ hparameters.pieces
    refine dispatch_congr hsplit hsplit' (hverb.trans hverb'.symm) fun kind' hkind' => ?_
    rw [ofVerb?_congr hverb, NamesPath.mail.ofVerb?] at hkind'
    cases hkind'
    simp only [CommandHandler.execute, CommandHandler.ofKind, mailFrom, hafter, hafter', hrest,
      hrest', hparse, hparse', hread]

end Commands

/-- A line is answered in the same way in letters of another case, and the addresses that it adds to
the session are parts of it, letter by letter. -/
theorem keywords_ignore_case (setup : Setup) (s : Session) {line line' : String}
    (h : Recased line.toList line'.toList) :
    let dispatched := CommandChain.standard.dispatch setup line s
    CommandChain.standard.dispatch setup line' s = dispatched ∧
      (∀ a ∈ dispatched.outcome.session.sender, a ∈ s.sender ∨ a.toList <:+: line.toList) ∧
      ∀ a ∈ dispatched.outcome.session.recipients,
        a ∈ s.recipients ∨ a.toList <:+: line.toList := by
  intro dispatched
  have hsame : CommandChain.standard.dispatch setup (String.ofList line.toList) s =
      CommandChain.standard.dispatch setup (String.ofList line'.toList) s := h.dispatch
  rw [String.ofList_toList, String.ofList_toList] at hsame
  have hpart : ∀ {keyword a : String}, pathAddress? keyword (splitVerb line).2 = some a →
      a.toList <:+: line.toList :=
    fun hnamed => (pathAddress?_isInfix hnamed).1.trans (splitVerb_isInfix line)
  obtain ⟨hsender, hrecipients⟩ := dispatch_named .standard setup line s
  exact ⟨hsame.symm, fun a ha => (hsender a ha).imp_right hpart,
    fun a ha => (hrecipients a ha).imp_right fun hnamed => hpart hnamed.1⟩

theorem keywords_ignore_case_parameters :
    let outcome : Outcome :=
      { reply := .ok, session := { sender := some "Ann@B.com", utf8 := true } }
    (CommandChain.standard.dispatch { hostname := "sink.test", maxSize := 1000 }
        "MAIL FROM:<Ann@B.com> BODY=8BITMIME SIZE=5" {}).outcome = outcome ∧
      (CommandChain.standard.dispatch { hostname := "sink.test", maxSize := 1000 }
        "mail From:<Ann@B.com> body=8bitMime size=5" {}).outcome = outcome := by
  intro outcome
  have hopening : Opening "MAIL" "FROM:" "MAIL FROM:".toList :=
    .intro [] "MAIL".toList [] "FROM:".toList nofun (by decide) nofun (by decide)
  have hpath : PathText "Ann@B.com".toList "<Ann@B.com>".toList " BODY=8BITMIME SIZE=5".toList :=
    .bracketed [] "Ann@B.com".toList _ nofun (by decide)
  have hsize : SameParameter "SIZE=5".toList "size=5".toList :=
    .valued "SIZE".toList "size".toList ['5'] (by decide) (by decide)
  have hbody : SameParameter "BODY=8BITMIME".toList "body=8bitMime".toList :=
    .body "BODY".toList "body".toList "8BITMIME".toList "8bitMime".toList (by decide) (by decide)
      (by decide)
  have hlast : SameParameters ("SIZE=5".toList ++ []) ("size=5".toList ++ []) :=
    .parameter (by decide) (not_isBlank_of_all (by decide)) nofun hsize .nil
  have hapart : ∀ c ∈ (' ' :: ("SIZE=5".toList ++ [])).head?, isBlank c = true := by
    rintro c ⟨⟩
    decide
  have hparameters : SameParameters " BODY=8BITMIME SIZE=5".toList " body=8bitMime size=5".toList :=
    .blank (by decide) (.parameter (by decide) (not_isBlank_of_all (by decide)) hapart hbody
      (.blank (by decide) hlast))
  have hletters : SameLetters "MAIL FROM:".toList "mail From:".toList := by decide
  have hrecased : Recased "MAIL FROM:<Ann@B.com> BODY=8BITMIME SIZE=5".toList
      "mail From:<Ann@B.com> body=8bitMime size=5".toList :=
    .parameters hopening hletters hpath hparameters
  have hanswer : (CommandChain.standard.dispatch { hostname := "sink.test", maxSize := 1000 }
      "MAIL FROM:<Ann@B.com> BODY=8BITMIME SIZE=5" {}).outcome = outcome := by decide
  refine ⟨hanswer, ?_⟩
  rw [(keywords_ignore_case _ _ hrecased).1, hanswer]

end Letterbox.Smtp
