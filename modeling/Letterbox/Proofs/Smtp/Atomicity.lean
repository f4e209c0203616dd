import Letterbox.Proofs.Smtp.Effects

/-!
# Commands as a whole or not at all

A line goes to the first handler that knows its verb. What that handler refuses leaves the session
as it was, however much of the arguments was in order, and what it grants changes what its kind of
command is for and nothing else. This holds of any table of handlers.
-/

namespace Letterbox.Smtp

set_option autoImplicit false

open Text

/-! ## The handler of a line -/

/-- One of the verbs of the handler is the given one, up to the case of ASCII letters. -/
def CommandHandler.GoesBy (h : CommandHandler) (verb : String) : Prop :=
  ∃ v ∈ h.verbs, v.toList.map foldCase = verb.toList.map foldCase

theorem CommandHandler.knows_iff (h : CommandHandler) (verb : String) :
    h.knows verb = true ↔ h.GoesBy verb := by
  simp only [knows, GoesBy, List.any_eq_true, sameIgnoringCase, beq_iff_eq]

/-- The handler at this place goes by the verb, and none before it does. -/
structure CommandChain.FirstAt (chain : CommandChain) (verb : String) (i : Nat)
    (h : CommandHandler) : Prop where
  here : chain[i]? = some h
  goesBy : h.GoesBy verb
  first : ∀ j < i, ∀ g, chain[j]? = some g → ¬g.GoesBy verb

theorem CommandChain.findIdx?_knows_iff (chain : CommandChain) (verb : String) (i : Nat) :
    chain.findIdx? (·.knows verb) = some i ↔ ∃ h, chain.FirstAt verb i h := by
  rw [List.findIdx?_eq_some_iff_getElem]
  constructor
  · rintro ⟨hlt, hknows, hbefore⟩
    refine ⟨chain[i], List.getElem?_eq_getElem hlt, (chain[i].knows_iff verb).mp hknows, ?_⟩
    intro j hj g hg hgoes
    obtain ⟨hjlt, rfl⟩ := List.getElem?_eq_some_iff.mp hg
    exact hbefore j hj ((CommandHandler.knows_iff _ verb).mpr hgoes)
  · rintro ⟨h, hhere, hgoes, hfirst⟩
    obtain ⟨hlt, rfl⟩ := List.getElem?_eq_some_iff.mp hhere
    refine ⟨hlt, (CommandHandler.knows_iff _ verb).mpr hgoes, ?_⟩
    intro j hj hknows
    have hjlt : j < chain.length := Nat.lt_trans hj hlt
    apply hfirst j hj chain[j] (List.getElem?_eq_getElem hjlt)
    exact (CommandHandler.knows_iff _ verb).mp hknows

variable (chain : CommandChain) (setup : Setup) (line : String) (s : Session)

/-- What comes of a line, by the first handler that goes by its verb. -/
theorem CommandChain.dispatch_cases :
    (∃ i h, chain.FirstAt (splitVerb line).1 i h ∧
        chain.dispatch setup line s =
          ⟨some i, h.execute setup (splitVerb line).1 (splitVerb line).2 s⟩) ∨
      ((∀ h ∈ chain, ¬h.GoesBy (splitVerb line).1) ∧
        chain.dispatch setup line s = ⟨none, { reply := .unrecognized, session := s }⟩) := by
  simp only [CommandChain.dispatch]
  cases hfind : chain.findIdx? (·.knows (splitVerb line).1) with
  | none =>
    refine .inr ⟨?_, rfl⟩
    intro h hmem hgoes
    have hknows := List.findIdx?_eq_none_iff.mp hfind h hmem
    rw [(h.knows_iff (splitVerb line).1).mpr hgoes] at hknows
    cases hknows
  | some i =>
    obtain ⟨h, hfirst⟩ := (chain.findIdx?_knows_iff (splitVerb line).1 i).mp hfind
    refine .inl ⟨i, h, hfirst, ?_⟩
    simp only [hfirst.here]

/-- Two handlers cannot both be the first. -/
theorem CommandChain.FirstAt.unique {chain : CommandChain} {verb : String} {i j : Nat}
    {h g : CommandHandler} (hi : chain.FirstAt verb i h) (hj : chain.FirstAt verb j g) :
    i = j ∧ h = g := by
  have hij : i = j := by
    rcases Nat.lt_trichotomy i j with hlt | heq | hlt
    · exact absurd hi.goesBy (hj.first i hlt h hi.here)
    · exact heq
    · exact absurd hj.goesBy (hi.first j hlt g hj.here)
  subst hij
  exact ⟨rfl, Option.some.inj (hi.here.symm.trans hj.here)⟩

/-! ## What a command changes -/

/-- The change that a granted command of each kind makes. -/
def Session.ChangedBy (args : String) (s s' : Session) : CommandKind → Prop
  | .greeting => ∃ domain, (words args).head? = some domain ∧
      s' = { s with helo := some domain }.reset
  | .mailFrom => ∃ address utf8, pathAddress? "FROM:" args = some address ∧
      s' = { s with sender := some address, utf8 }
  | .rcptTo => ∃ address, pathAddress? "TO:" args = some address ∧
      s' = { s with recipients := s.recipients ++ [address] }
  | .data => s' = { s with message := [] }
  | .reset => s' = s.reset
  | .noop | .verify | .help | .quit => s' = s

theorem greet_changed (verb args : String) :
    let outcome := greet setup verb args s
    outcome.reply.isPositive = true → s.ChangedBy args outcome.session .greeting := by
  unfold greet
  split
  · intro outcome hpositive
    cases hpositive
  · rename_i domain rest hwords
    intro outcome _
    exact ⟨domain, by rw [hwords]; rfl, rfl⟩

theorem execute_changed (verb args : String) (h : CommandHandler) :
    let outcome := h.execute setup verb args s
    (outcome.reply.isPositive = false → outcome.session = s ∧ outcome.next = .proceed) ∧
      (outcome.reply.isPositive = true → s.ChangedBy args outcome.session h.kind) := by
  have heffect := execute_effect setup verb args s h
  have hgreet : h.kind = .greeting → h.execute setup verb args s = greet setup verb args s := by
    intro hkind
    simp only [CommandHandler.execute, hkind]
  generalize h.kind = kind at heffect hgreet
  generalize h.execute setup verb args s = outcome at heffect hgreet
  intro o
  cases heffect with
  | refused reply _ hrefused =>
    refine ⟨fun _ => ⟨rfl, rfl⟩, fun hpositive => ?_⟩
    rw [show reply.isPositive = true from hpositive] at hrefused
    cases hrefused
  | greeted domain reply hcode =>
    refine ⟨fun hrefused => ?_, fun hpositive => ?_⟩
    · simp [o, Reply.isPositive, hcode] at hrefused
    · have hchanged := greet_changed setup s verb args
      rw [← hgreet rfl] at hchanged
      exact hchanged hpositive
  | sender address utf8 _ haddress =>
    exact ⟨fun hrefused => (by cases hrefused), fun _ => ⟨address, utf8, haddress, rfl⟩⟩
  | recipient address _ _ haddress =>
    exact ⟨fun hrefused => (by cases hrefused), fun _ => ⟨address, haddress, rfl⟩⟩
  | data | reset | noop | verify | help | quit =>
    exact ⟨fun hrefused => (by cases hrefused), fun _ => rfl⟩

theorem isPositive_iff (r : Reply) : r.isPositive = true ↔ 200 ≤ r.code ∧ r.code < 400 := by
  simp only [Reply.isPositive, Bool.and_eq_true, decide_eq_true_eq]

theorem not_isPositive_iff (r : Reply) :
    r.isPositive = false ↔ r.code < 200 ∨ 400 ≤ r.code := by
  rw [← Bool.not_eq_true, isPositive_iff]
  omega

/-- A command is carried out as a whole or not at all. Whatever the handlers, the line, the session
and the settings: an answer that is not positive leaves the session as it was and goes on; the line
is answered by the first handler that goes by its verb, or with 500 where there is none; and a
positive answer changes only what that kind of command is for. -/
theorem dispatch_atomic (chain : CommandChain) (setup : Setup) (line : String) (s : Session) :
    let d := chain.dispatch setup line s
    let verb := (splitVerb line).1
    let args := (splitVerb line).2
    (d.outcome.reply.code < 200 ∨ 400 ≤ d.outcome.reply.code →
        d.outcome.session = s ∧ d.outcome.next = .proceed) ∧
      (∀ i, d.handler = some i ↔ ∃ h, chain.FirstAt verb i h) ∧
      (d.handler = none ↔ ∀ h ∈ chain, ¬h.GoesBy verb) ∧
      (d.handler = none → d.outcome.reply.code = 500) ∧
      ∀ i h, d.handler = some i → chain[i]? = some h → 200 ≤ d.outcome.reply.code →
        d.outcome.reply.code < 400 → s.ChangedBy args d.outcome.session h.kind := by
  intro d verb args
  rcases chain.dispatch_cases setup line s with ⟨i, h, hfirst, hd⟩ | ⟨hnone, hd⟩
  · obtain ⟨hrefused, hgranted⟩ := execute_changed setup s verb args h
    rw [show d = _ from hd]
    refine ⟨?_, ?_, ?_, fun hnone => (by cases hnone), ?_⟩
    · intro hcode
      exact hrefused ((not_isPositive_iff _).mpr hcode)
    · intro j
      constructor
      · intro hj
        cases hj
        exact ⟨h, hfirst⟩
      · rintro ⟨g, hg⟩
        exact congrArg some (hfirst.unique hg).1
    · refine iff_of_false nofun ?_
      intro hall
      exact hall h (List.mem_of_getElem? hfirst.here) hfirst.goesBy
    · intro j g hj hg hlow hhigh
      cases hj
      cases Option.some.inj (hfirst.here.symm.trans hg)
      exact hgranted ((isPositive_iff _).mpr ⟨hlow, hhigh⟩)
  · rw [show d = _ from hd]
    refine ⟨fun _ => ⟨rfl, rfl⟩, ?_, iff_of_true rfl hnone, fun _ => rfl, nofun⟩
    intro i
    refine iff_of_false nofun ?_
    rintro ⟨h, hfirst⟩
    exact hnone h (List.mem_of_getElem? hfirst.here) hfirst.goesBy

end Letterbox.Smtp
