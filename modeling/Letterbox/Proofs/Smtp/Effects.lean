import Letterbox.Smtp.Command

/-!
# What a command does

Every command of a session does one of a few things, whatever is said with it. A command that is
refused leaves the session as it was. The arguments are looked into only as far as the address
goes.
-/

namespace Letterbox.Smtp

set_option autoImplicit false

def pathAddress? (keyword args : String) : Option String :=
  ((afterKeyword? keyword args.toList).bind parsePath?).map fun p => String.ofList p.1

/-- What the kinds of command do to a session. -/
inductive Effect (setup : Setup) (args : String) (s : Session) : CommandKind → Outcome → Prop where
  | refused {kind : CommandKind} (reply : Reply) :
    kind ∈ [.greeting, .mailFrom, .rcptTo, .data] → reply.isPositive = false →
      Effect setup args s kind { reply, session := s }
  | greeted (domain : String) (reply : Reply) : reply.code = 250 →
    Effect setup args s .greeting { reply, session := { helo := some domain } }
  | sender (address : String) (utf8 : Bool) : s.sender = none →
    pathAddress? "FROM:" args = some address →
      Effect setup args s .mailFrom
        { reply := .ok, session := { s with sender := some address, utf8 } }
  | recipient (address : String) : s.sender.isSome → s.recipients.length < maxRecipients →
    pathAddress? "TO:" args = some address →
      Effect setup args s .rcptTo
        { reply := .ok, session := { s with recipients := s.recipients ++ [address] } }
  | data : s.sender.isSome → s.recipients ≠ [] →
    Effect setup args s .data
      { reply := .startData, next := .captureData, session := { s with message := [] } }
  | reset : Effect setup args s .reset { reply := .ok, session := s.reset }
  | noop : Effect setup args s .noop { reply := .ok, session := s }
  | verify : Effect setup args s .verify { reply := verifyReply, session := s }
  | help : Effect setup args s .help { reply := helpReply, session := s }
  | quit : Effect setup args s .quit
      { reply := .closing setup.hostname, next := .quit, session := s }

theorem not_isPositive_of_readParameters {maxSize : Nat} {utf8 : Bool} {ps : List (List Char)}
    {reply : Reply} (h : readParameters maxSize utf8 ps = .error reply) :
    reply.isPositive = false := by
  fun_induction readParameters maxSize utf8 ps with
  | case1 => simp at h
  | case2 utf8 p rest key value hp hasks ih => exact ih h
  | case3 utf8 p rest key value hp hasks hsize n hn hlt =>
    cases h
    rfl
  | case4 utf8 p rest key value hp hasks hsize n hn hlt ih => exact ih h
  | case5 utf8 p rest key value hp hasks hsize hn =>
    cases h
    rfl
  | case6 utf8 p rest key value hp hasks hsize ih => exact ih h

variable (setup : Setup) (verb args : String) (s : Session)

theorem greet_effect : Effect setup args s .greeting (greet setup verb args s) := by
  unfold greet
  split
  · exact .refused _ (by decide) rfl
  · refine .greeted _ _ ?_
    split <;> rfl

theorem mailFrom_effect : Effect setup args s .mailFrom (mailFrom setup args s) := by
  unfold mailFrom
  split
  · exact .refused _ (by decide) rfl
  · rename_i hnone
    split
    · exact .refused _ (by decide) rfl
    · rename_i rest hrest
      split
      · exact .refused _ (by decide) rfl
      · rename_i address parameters hpath
        split
        · rename_i reply hread
          exact .refused _ (by decide) (not_isPositive_of_readParameters hread)
        · refine .sender _ _ ?_ ?_
          · simpa [Session.hasSender] using hnone
          · simp only [pathAddress?, hrest, Option.bind_some, hpath, Option.map_some]

theorem rcptTo_effect : Effect setup args s .rcptTo (rcptTo args s) := by
  unfold rcptTo
  split
  · exact .refused _ (by decide) rfl
  · rename_i hsome
    split
    · exact .refused _ (by decide) rfl
    · rename_i rest hrest
      split
      · exact .refused _ (by decide) rfl
      · exact .refused _ (by decide) rfl
      · rename_i address parameters _ hpath
        split
        · exact .refused _ (by decide) rfl
        · rename_i hroom
          refine .recipient _ ?_ (Nat.lt_of_not_le hroom) ?_
          · simpa [Session.hasSender, Option.isSome_iff_ne_none] using hsome
          · simp only [pathAddress?, hrest, Option.bind_some, hpath, Option.map_some]

theorem data_effect : Effect setup args s .data (data s) := by
  unfold data
  split
  · rename_i h
    rw [Bool.and_eq_true] at h
    refine .data h.1 ?_
    simpa [Session.hasRecipients] using h.2
  · exact .refused _ (by decide) rfl

theorem execute_effect (h : CommandHandler) :
    Effect setup args s h.kind (h.execute setup verb args s) := by
  unfold CommandHandler.execute
  split
  · rename_i hk
    exact hk ▸ greet_effect setup verb args s
  · rename_i hk
    exact hk ▸ mailFrom_effect setup args s
  · rename_i hk
    exact hk ▸ rcptTo_effect setup args s
  · rename_i hk
    exact hk ▸ data_effect setup args s
  · rename_i hk
    exact hk ▸ .reset
  · rename_i hk
    exact hk ▸ .noop
  · rename_i hk
    exact hk ▸ .verify
  · rename_i hk
    exact hk ▸ .help
  · rename_i hk
    exact hk ▸ .quit

/-- The first handler that knows the verb answers; where there is none, the line is not
understood. -/
theorem outcome_dispatch (chain : CommandChain) (line : String) :
    (chain.dispatch setup line s).outcome =
      match chain.find? (·.knows (splitVerb line).1) with
      | none => { reply := .unrecognized, session := s }
      | some h => h.execute setup (splitVerb line).1 (splitVerb line).2 s := by
  simp only [CommandChain.dispatch]
  cases hi : chain.findIdx? (·.knows (splitVerb line).1) with
  | none =>
    have hnone : chain.find? (·.knows (splitVerb line).1) = none := by
      rw [List.find?_eq_none]
      intro h hh
      simp [List.findIdx?_eq_none_iff.mp hi h hh]
    simp only [hnone]
  | some i =>
    obtain ⟨hlt, hidx⟩ := List.findIdx?_eq_some_iff_findIdx_eq.mp hi
    have hsome : chain.find? (·.knows (splitVerb line).1) = some chain[i] := by
      rw [List.find?_eq_getElem?_findIdx, hidx, List.getElem?_eq_getElem hlt]
    simp only [hsome, List.getElem?_eq_getElem hlt]

theorem handler_dispatch (chain : CommandChain) (line : String) :
    (chain.dispatch setup line s).handler = chain.findIdx? (·.knows (splitVerb line).1) := by
  simp only [CommandChain.dispatch]
  cases hi : chain.findIdx? (·.knows (splitVerb line).1) with
  | none => rfl
  | some i =>
    obtain ⟨hlt, -⟩ := List.findIdx?_eq_some_iff_findIdx_eq.mp hi
    simp only [List.getElem?_eq_getElem hlt]

def CommandKind.ofVerb? (verb : String) : Option CommandKind :=
  CommandKind.all.find? fun k => k.verbs.any (Text.sameIgnoringCase · verb)

theorem find?_standard :
    CommandChain.standard.find? (·.knows verb) = (CommandKind.ofVerb? verb).map .ofKind :=
  List.find?_map

/-- What the full set of commands does with a line: the kind of command that goes by its verb has
its effect, and other lines are not understood. -/
theorem standard_effect (line : String) :
    (∃ kind, CommandKind.ofVerb? (splitVerb line).1 = some kind ∧
        Effect setup (splitVerb line).2 s kind
          (CommandChain.standard.dispatch setup line s).outcome) ∨
      (CommandKind.ofVerb? (splitVerb line).1 = none ∧
        (CommandChain.standard.dispatch setup line s).outcome =
          { reply := .unrecognized, session := s }) := by
  rw [outcome_dispatch, find?_standard]
  cases hk : CommandKind.ofVerb? (splitVerb line).1 with
  | none => exact .inr ⟨rfl, rfl⟩
  | some kind =>
    exact .inl ⟨kind, rfl,
      execute_effect setup (splitVerb line).1 (splitVerb line).2 s (.ofKind kind)⟩

end Letterbox.Smtp
