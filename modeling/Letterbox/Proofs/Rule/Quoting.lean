import Letterbox.Rule.Arguments
import Mathlib.Data.List.Forall2
import Mathlib.Data.List.Infix

/-!
# Every argument can be written

An argument is written as a row of pieces, each bare or between two marks that are not in it.
However that is done, a command line is cut into the arguments that were written, so any list of
arguments can be given to a program. What is put in for the place of the message is put into
arguments that have been cut already.
-/

namespace Letterbox.Arguments

set_option autoImplicit false

open Text

/-! ## Writing -/

/-- A piece of an argument, and how it is written. -/
inductive Piece : List Char → List Char → Prop where
  | quoted (mark : Char) (content : List Char) : isQuote mark = true → mark ∉ content →
    Piece content (mark :: (content ++ [mark]))
  | bare {c : Char} : isQuote c = false → isBlank c = false → Piece [c] [c]

/-- An argument, and how it is written: a piece after another. -/
inductive Written : List Char → List Char → Prop where
  | last {content text : List Char} : Piece content text → Written content text
  | piece {content text arg written : List Char} : Piece content text → Written arg written →
    Written (content ++ arg) (text ++ written)

/-- Arguments, and a line in which they are written: there are blanks between them, and there may be
blanks around them. -/
inductive Line : List (List Char) → List Char → Prop where
  | nothing : Line [] []
  | blank {c : Char} {args : List (List Char)} {line : List Char} : isBlank c = true →
    Line args line → Line args (c :: line)
  | argument {arg text : List Char} {args : List (List Char)} {line : List Char} :
    Written arg text → (∀ c ∈ line.head?, isBlank c = true) → Line args line →
      Line (arg :: args) (text ++ line)

theorem isQuote_of_isBlank {c : Char} (h : isBlank c = true) : isQuote c = false := by
  rw [isQuote, Bool.or_eq_false_iff, decide_eq_false_iff_not, decide_eq_false_iff_not]
  constructor
  · rintro rfl
    exact absurd h (by decide)
  · rintro rfl
    exact absurd h (by decide)

/-- What is between two marks is taken as it is. -/
theorem splitFrom_open {mark : Char} {content : List Char} (h : mark ∉ content)
    (arg rest : List Char) :
    splitFrom (some arg) (some mark) (content ++ mark :: rest) =
      splitFrom (some (arg ++ content)) none rest := by
  induction content generalizing arg with
  | nil => simp only [List.nil_append, splitFrom, if_true, List.append_nil]
  | cons c content ih =>
    rw [List.mem_cons, not_or] at h
    simp only [List.cons_append, splitFrom, if_neg (Ne.symm h.1), Option.getD_some]
    rw [ih h.2, List.append_assoc, List.singleton_append]

theorem splitFrom_piece {content text : List Char} (h : Piece content text)
    (begun : Option (List Char)) (rest : List Char) :
    splitFrom begun none (text ++ rest) =
      splitFrom (some (begun.getD [] ++ content)) none rest := by
  cases h with
  | quoted mark content hmark hclear =>
    rw [List.cons_append, List.append_assoc, List.singleton_append, splitFrom]
    simp only [hmark, if_true]
    exact splitFrom_open hclear _ rest
  | bare hquote hblank =>
    rw [List.singleton_append, splitFrom]
    simp only [hquote, hblank, Bool.false_eq_true, if_false]

theorem splitFrom_written {arg text : List Char} (h : Written arg text)
    (begun : Option (List Char)) (rest : List Char) :
    splitFrom begun none (text ++ rest) =
      splitFrom (some (begun.getD [] ++ arg)) none rest := by
  induction h generalizing begun with
  | last hpiece => exact splitFrom_piece hpiece begun rest
  | piece hpiece _ ih =>
    rw [List.append_assoc, splitFrom_piece hpiece, ih, Option.getD_some, List.append_assoc]

/-- An argument that has begun is ended by a blank, or with the line. -/
theorem splitFrom_some_of_apart {line : List Char} (h : ∀ c ∈ line.head?, isBlank c = true)
    (arg : List Char) : splitFrom (some arg) none line = arg :: splitFrom none none line := by
  cases line with
  | nil => rfl
  | cons c line =>
    have hblank := h c rfl
    simp only [splitFrom, isQuote_of_isBlank hblank, hblank, if_true, Bool.false_eq_true, if_false]
    rfl

theorem splitChars_line {args : List (List Char)} {line : List Char} (h : Line args line) :
    splitChars line = args := by
  rw [splitChars]
  induction h with
  | nothing => rfl
  | blank hblank _ ih =>
    simp only [splitFrom, isQuote_of_isBlank hblank, hblank, if_true, Bool.false_eq_true, if_false]
    exact ih
  | argument hwritten hapart _ ih =>
    rw [splitFrom_written hwritten, splitFrom_some_of_apart hapart, ih]
    rfl

/-! ## Every list of arguments -/

/-- An argument between single marks; where it has such a mark itself, that one is put between
double marks. -/
def quote (arg : List Char) : List Char :=
  '\'' :: (arg.flatMap (fun c => if c = '\'' then "'\"'\"'".toList else [c]) ++ ['\''])

/-- A line in which the arguments are written with a space between them. -/
def quoteAll (args : List (List Char)) : List Char := [' '].intercalate (args.map quote)

theorem written_quote (arg : List Char) : Written arg (quote arg) := by
  -- The piece that has begun holds what is before the next mark.
  have hfrom : ∀ begun, '\'' ∉ begun → Written (begun ++ arg)
      ('\'' :: (begun ++ (arg.flatMap (fun c => if c = '\'' then "'\"'\"'".toList else [c]) ++
        ['\'']))) := by
    induction arg with
    | nil =>
      intro begun hbegun
      rw [List.append_nil]
      exact .last (.quoted _ _ (by decide) hbegun)
    | cons c arg ih =>
      intro begun hbegun
      rw [List.flatMap_cons]
      by_cases hc : c = '\''
      · subst hc
        have hmark : Piece ['\''] ('"' :: (['\''] ++ ['"'])) := .quoted _ _ (by decide) (by decide)
        have hrest := ih [] List.not_mem_nil
        have hall := Written.piece (.quoted _ _ (by decide) hbegun) (.piece hmark hrest)
        rw [if_pos rfl]
        simpa using hall
      · have hall := ih (begun ++ [c]) (by simp [hbegun, Ne.symm hc])
        rw [if_neg hc]
        simpa using hall
  exact hfrom [] List.not_mem_nil

theorem line_quoteAll (args : List (List Char)) : Line args (quoteAll args) := by
  induction args with
  | nil => exact .nothing
  | cons arg args ih =>
    cases args with
    | nil =>
      have hlast := Line.argument (written_quote arg) (fun _ h => by cases h) .nothing
      rw [List.append_nil] at hlast
      rw [quoteAll, List.map_singleton, List.intercalate_singleton]
      exact hlast
    | cons next args =>
      rw [quoteAll, List.map_cons, List.map_cons, List.intercalate_cons_cons, List.append_assoc]
      refine .argument (written_quote arg) ?_ (.blank (by decide) ih)
      rintro c ⟨⟩
      decide

/-! ## The place of the message -/

/-- What stands for the place of the message. -/
def token : List Char := ['%', 'e']

/-- A text is cut at every place where the token stands, and joined again with the path. -/
def Replaced (path arg out : List Char) : Prop :=
  ∃ between, arg = token.intercalate between ∧ (∀ w ∈ between, ¬token <:+: w) ∧
    out = path.intercalate between

theorem substitute_append (path : List Char) {w : List Char} (hw : ¬token <:+: w) {rest : List Char}
    (hrest : rest.head? ≠ some 'e') : substitute path (w ++ rest) = w ++ substitute path rest := by
  induction w with
  | nil => rfl
  | cons c w ih =>
    have hnot : ∀ more, c = '%' → w ++ rest = 'e' :: more → False := by
      rintro more rfl heq
      cases w with
      | nil =>
        rw [List.nil_append] at heq
        exact hrest (by rw [heq]; rfl)
      | cons d w =>
        rw [List.cons_append, List.cons.injEq] at heq
        exact hw (heq.1 ▸ (List.prefix_append token w).isInfix)
    rw [List.cons_append, substitute.eq_2 path c (w ++ rest) hnot,
      ih fun h => hw (h.trans (List.suffix_cons c w).isInfix), List.cons_append]

theorem substitute_intercalate (path : List Char) {between : List (List Char)}
    (h : ∀ w ∈ between, ¬token <:+: w) :
    substitute path (token.intercalate between) = path.intercalate between := by
  induction between with
  | nil => rfl
  | cons w between ih =>
    have hw := h w List.mem_cons_self
    cases between with
    | nil =>
      have hsame : substitute path (w ++ []) = w ++ substitute path [] :=
        substitute_append path hw (by decide)
      rw [List.append_nil, substitute, List.append_nil] at hsame
      rw [List.intercalate_singleton, List.intercalate_singleton, hsame]
    | cons v between =>
      have hmore := ih fun u hu => h u (List.mem_cons_of_mem w hu)
      have htoken : ∀ rest, substitute path (token ++ rest) = path ++ substitute path rest :=
        fun _ => rfl
      have hclear : (token ++ token.intercalate (v :: between)).head? ≠ some 'e' := by
        rw [token, List.cons_append, List.head?_cons]
        decide
      rw [List.intercalate_cons_cons, List.intercalate_cons_cons, List.append_assoc,
        List.append_assoc, substitute_append path hw hclear, htoken, hmore]

theorem intercalate_cons (sep w : List Char) (between : List (List Char)) :
    ∃ tail, ∀ front, sep.intercalate ((front ++ w) :: between) = front ++ (w ++ tail) := by
  cases between with
  | nil => exact ⟨[], fun front => by rw [List.intercalate_singleton, List.append_nil]⟩
  | cons v between =>
    refine ⟨sep ++ sep.intercalate (v :: between), fun front => ?_⟩
    rw [List.intercalate_cons_cons]
    simp only [List.append_assoc]

theorem exists_between (arg : List Char) :
    ∃ w between, arg = token.intercalate (w :: between) ∧ ∀ v ∈ w :: between, ¬token <:+: v := by
  induction arg using substitute.induct with
  | case1 rest ih =>
    obtain ⟨w, between, hrest, hclear⟩ := ih
    refine ⟨[], w :: between, ?_, List.forall_mem_cons.mpr ⟨by decide, hclear⟩⟩
    rw [List.intercalate_cons_cons, ← hrest]
    rfl
  | case2 c rest hnot ih =>
    obtain ⟨w, between, hrest, hclear⟩ := ih
    obtain ⟨tail, htail⟩ := intercalate_cons token w between
    have hw : rest = w ++ tail := hrest.trans (htail [])
    rw [List.forall_mem_cons] at hclear
    refine ⟨c :: w, between, ?_, List.forall_mem_cons.mpr ⟨?_, hclear.2⟩⟩
    · rw [hw]
      exact (htail [c]).symm
    · intro hinfix
      rcases List.infix_cons_iff.mp hinfix with ⟨more, hprefix⟩ | hinfix
      · -- The token would stand at the beginning, where it has been looked for.
        obtain ⟨rfl, hmore⟩ := List.cons.inj hprefix
        exact hnot (more ++ tail) rfl (by rw [hw, ← hmore]; rfl)
      · exact hclear.1 hinfix
  | case3 => exact ⟨[], [], rfl, List.forall_mem_singleton.mpr (by decide)⟩

theorem replaced_iff {path arg out : List Char} :
    Replaced path arg out ↔ out = substitute path arg := by
  constructor
  · rintro ⟨between, rfl, hclear, rfl⟩
    exact (substitute_intercalate path hclear).symm
  · rintro rfl
    obtain ⟨w, between, rfl, hclear⟩ := exists_between arg
    exact ⟨w :: between, rfl, hclear, substitute_intercalate path hclear⟩

/-- What a program gets for an argument. -/
theorem ofList_substitute_iff {path arg new : String} :
    String.ofList (substitute path.toList arg.toList) = new ↔
      Replaced path.toList arg.toList new.toList := by
  rw [replaced_iff, ← String.toList_inj, String.toList_ofList, eq_comm]

/-- Any list of arguments can be written in a line, and from every line in which it is written, with
whatever quotation marks and blanks, the program gets just these arguments. In each of them the path
takes the place of every token that stood there, and nothing else happens to it. -/
theorem quoting_complete (args : List String) :
    Line (args.map String.toList) (quoteAll (args.map String.toList)) ∧
      ∀ line : String, Line (args.map String.toList) line.toList →
        split line = args ∧
          ∀ (path : String) (out : List String), expand line path = out ↔
            List.Forall₂ (fun arg new => Replaced path.toList arg.toList new.toList) args out := by
  refine ⟨line_quoteAll _, fun line hline => ?_⟩
  have hcut := splitChars_line hline
  refine ⟨?_, fun path out => ?_⟩
  · rw [split, hcut, List.map_map]
    exact List.map_id'' (fun _ => String.ofList_toList) args
  · have hout : (fun arg new : String => Replaced path.toList arg.toList new.toList) =
        fun arg new => String.ofList (substitute path.toList arg.toList) = new := by
      funext arg new
      exact propext ofList_substitute_iff.symm
    rw [expand, hcut, List.map_map, ← List.forall₂_eq_eq_eq, List.forall₂_map_left_iff, hout]
    rfl

/-- Both kinds of marks, bare pieces, an empty argument, and a path that looks like a token. -/
theorem quoting_complete_mixed :
    let args := ["it's", "", "%e %%e"]
    let line := "\tit\"'\"'s'\u00a0 \"\" '%e'\" %%e\""
    Line (args.map String.toList) line.toList ∧ split line = args ∧
      expand line "/in box/%e" = ["it's", "", "/in box/%e %/in box/%e"] := by
  have hfirst : Written ['i', 't', '\'', 's'] ['i', 't', '"', '\'', '"', '\'', 's', '\''] :=
    .piece (.bare (by decide) (by decide)) (.piece (.bare (by decide) (by decide))
      (.piece (.quoted '"' ['\''] (by decide) (by decide))
        (.last (.quoted '\'' ['s'] (by decide) (by decide)))))
  have hsecond : Written [] ['"', '"'] := .last (.quoted '"' [] (by decide) (by decide))
  have hthird : Written ['%', 'e', ' ', '%', '%', 'e']
      ['\'', '%', 'e', '\'', '"', ' ', '%', '%', 'e', '"'] :=
    .piece (.quoted '\'' ['%', 'e'] (by decide) (by decide))
      (.last (.quoted '"' [' ', '%', '%', 'e'] (by decide) (by decide)))
  have hapart : ∀ c : Char, isBlank c = true → ∀ line : List Char,
      ∀ d ∈ (c :: line).head?, isBlank d = true := by
    rintro c hc line d ⟨⟩
    exact hc
  have hline : Line (["it's", "", "%e %%e"].map String.toList)
      "\tit\"'\"'s'\u00a0 \"\" '%e'\" %%e\"".toList :=
    .blank (by decide) (.argument hfirst (hapart '\u00a0' (by decide) _) (.blank (by decide)
      (.blank (by decide) (.argument hsecond (hapart ' ' (by decide) _) (.blank (by decide)
        (.argument hthird nofun .nothing))))))
  obtain ⟨hsplit, hexpand⟩ := (quoting_complete _).2 _ hline
  refine ⟨hline, hsplit, (hexpand _ _).mpr ?_⟩
  exact .cons (ofList_substitute_iff.mp (by decide)) (.cons (ofList_substitute_iff.mp (by decide))
    (.cons (ofList_substitute_iff.mp (by decide)) .nil))

end Letterbox.Arguments
