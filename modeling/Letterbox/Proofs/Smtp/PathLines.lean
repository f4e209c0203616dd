import Letterbox.Proofs.Smtp.Commands
import Letterbox.Proofs.Text.LetterCase
import Letterbox.Proofs.Text.Words

/-!
# Lines that name a path

A line of MAIL or RCPT is put together from its verb, its keyword, a path in brackets or a bare one,
and what stands behind the path. It is taken apart into the same parts, whatever the case of the
letters and however many blanks are between them.
-/

namespace Letterbox.Smtp

set_option autoImplicit false

open Text

/-- What stands in a line in front of the path: a verb and a keyword, with letters of either case
and with blanks around them. -/
inductive Opening (verb keyword : String) : List Char → Prop where
  | intro (lead v gap k : List Char) : (∀ c ∈ lead, isBlank c = true) →
    SameLetters v verb.toList → (∀ c ∈ gap, isBlank c = true) → SameLetters k keyword.toList →
      Opening verb keyword (lead ++ (v ++ ' ' :: (gap ++ k)))

/-- An address, a path that holds it, and what may stand behind the path. -/
inductive PathText : List Char → List Char → List Char → Prop where
  | bracketed (gap inner tail : List Char) : (∀ c ∈ gap, isBlank c = true) →
    '>' ∉ inner → PathText (trimChars inner) (gap ++ '<' :: (inner ++ ['>'])) tail
  | bare {gap address tail : List Char} : (∀ c ∈ gap, isBlank c = true) → address ≠ [] →
    (∀ c ∈ address, isBlank c = false) → address.head? ≠ some '<' →
      (∀ c ∈ tail.head?, isBlank c = true) → PathText address (gap ++ address) tail

/-- The commands that name a path, with their verbs and keywords. -/
inductive NamesPath : CommandKind → String → String → Prop where
  | mail : NamesPath .mailFrom "MAIL" "FROM:"
  | rcpt : NamesPath .rcptTo "RCPT" "TO:"

theorem NamesPath.ofVerb? {kind : CommandKind} {verb keyword : String}
    (h : NamesPath kind verb keyword) : CommandKind.ofVerb? verb = some kind := by
  cases h <;> decide

theorem NamesPath.words {kind : CommandKind} {verb keyword : String}
    (h : NamesPath kind verb keyword) :
    (verb.toList ≠ [] ∧ ∀ c ∈ verb.toList, isBlank c = false) ∧
      (keyword.toList ≠ [] ∧ ∀ c ∈ keyword.toList, isBlank c = false) := by
  cases h <;> exact ⟨⟨by decide, not_isBlank_of_all (by decide)⟩, by decide,
    not_isBlank_of_all (by decide)⟩

theorem ofVerb?_congr {v w : String} (h : SameLetters v.toList w.toList) :
    CommandKind.ofVerb? v = CommandKind.ofVerb? w := by
  simp only [CommandKind.ofVerb?, sameIgnoringCase_congr_right h]

theorem afterKeyword?_word {keyword : String} {k : List Char} (h : SameLetters k keyword.toList)
    (rest : List Char) : afterKeyword? keyword (k ++ rest) = some (skipBlanks rest) := by
  simp only [afterKeyword?, ← h.length, List.take_left, List.drop_left]
  exact if_pos h

/-- Blanks at the ends of a path and its parameters do not count. -/
theorem parsePath?_congr {cs ds : List Char} (h : trimChars cs = trimChars ds) :
    parsePath? cs = parsePath? ds := by rw [parsePath?, parsePath?, h]

/-- A line is taken apart at its verb and its keyword. -/
theorem Opening.split {kind : CommandKind} {verb keyword : String}
    (hkind : NamesPath kind verb keyword) {opening : List Char}
    (h : Opening verb keyword opening) (tail : List Char) :
    ∃ v args rest, splitVerb (String.ofList (opening ++ tail)) = (v, args) ∧
      SameLetters v.toList verb.toList ∧ afterKeyword? keyword args.toList = some rest ∧
      parsePath? rest = parsePath? tail := by
  obtain ⟨⟨hverbne, hverb⟩, hkeyne, hkey⟩ := hkind.words
  cases h with
  | intro lead v gap k hlead hv hgap hk =>
    obtain ⟨c, v, rfl⟩ := List.exists_cons_of_ne_nil (hv.ne_nil hverbne)
    have hword := hv.forall_isBlank hverb
    have hspace : ' ' ∉ c :: v := fun hmem => absurd (hword _ hmem) (by decide)
    have hsplit : splitVerb (String.ofList (lead ++ (c :: v ++ ' ' :: (gap ++ k)) ++ tail)) =
        (String.ofList (c :: v), String.ofList (k ++ dropBlanksEnd tail)) := by
      have h := splitVerb_append (hword c List.mem_cons_self) hspace (gap ++ (k ++ tail))
      rw [trimChars_append hgap, trimChars_word (hk.ne_nil hkeyne) (hk.forall_isBlank hkey)] at h
      rw [← h]
      simp only [splitVerb, String.toList_ofList, List.append_assoc, List.cons_append,
        skipBlanks_append hlead]
    refine ⟨_, _, skipBlanks (dropBlanksEnd tail), hsplit, ?_, ?_, ?_⟩
    · rwa [String.toList_ofList]
    · rw [String.toList_ofList, afterKeyword?_word hk]
    · exact parsePath?_congr ((trimChars_skipBlanks _).trans (trimChars_dropBlanksEnd tail))

/-- A path is told from what stands behind it. -/
theorem PathText.parse {address text tail : List Char} (h : PathText address text tail) :
    ∃ parameters, parsePath? (text ++ tail) = some (address, parameters) ∧
      pieces isBlank parameters = pieces isBlank tail := by
  cases h with
  | bracketed gap inner _ hgap hinner =>
    refine ⟨trimChars (dropBlanksEnd tail), ?_, ?_⟩
    · have htrim : trimChars (gap ++ '<' :: (inner ++ ['>']) ++ tail) =
          '<' :: (inner ++ '>' :: dropBlanksEnd tail) := by
        rw [List.append_assoc, trimChars_append hgap, List.cons_append, List.append_assoc,
          List.singleton_append, trimChars_cons (by decide), dropBlanksEnd_append_cons (by decide)]
      simp only [parsePath?, htrim, cutAt_append hinner, Option.map_some]
    · rw [trimChars_dropBlanksEnd, pieces_trimChars]
  | @bare gap address tail hgap hne hword hopen hapart =>
    refine ⟨trimChars (dropBlanksEnd tail), ?_, ?_⟩
    · have htrim : trimChars (gap ++ address ++ tail) = address ++ dropBlanksEnd tail := by
        rw [List.append_assoc, trimChars_append hgap, trimChars_word hne hword]
      have hpositive : ∀ c ∈ address, (!isBlank c) = true := fun c hc => by simp [hword c hc]
      obtain ⟨cut, hcut⟩ := List.rdropWhile_prefix isBlank tail
      rw [← dropBlanksEnd_eq_rdropWhile] at hcut
      have hends : (dropBlanksEnd tail).takeWhile (!isBlank ·) = [] ∧
          (dropBlanksEnd tail).dropWhile (!isBlank ·) = dropBlanksEnd tail := by
        cases hback : dropBlanksEnd tail with
        | nil => exact ⟨rfl, rfl⟩
        | cons c back =>
          rw [hback, List.cons_append] at hcut
          have hc : isBlank c = true := hapart c (by rw [← hcut]; rfl)
          simp [hc]
      have htake : (address ++ dropBlanksEnd tail).takeWhile (!isBlank ·) = address := by
        rw [List.takeWhile_append_of_pos hpositive, hends.1, List.append_nil]
      have hdrop : (address ++ dropBlanksEnd tail).dropWhile (!isBlank ·) = dropBlanksEnd tail := by
        rw [List.dropWhile_append_of_pos hpositive, hends.2]
      rw [parsePath?, htrim]
      split
      · rename_i inner heq
        obtain ⟨c, a, rfl⟩ := List.exists_cons_of_ne_nil hne
        rw [List.cons_append, List.cons.injEq] at heq
        exact absurd (congrArg some heq.1) hopen
      · rename_i heq
        exact absurd (List.append_eq_nil_iff.mp heq).1 hne
      · rw [htake, hdrop]
    · rw [trimChars_dropBlanksEnd, pieces_trimChars]

end Letterbox.Smtp
