import Letterbox.Proofs.Json.Literals

/-!
# JSON values there and back

The compact text of a value is read as the node of the value, whatever the value is: a node without
defects, of the same shape, with the same strings and numbers.
-/

namespace Letterbox.Json

set_option autoImplicit false

open Text

namespace Value

mutual

def node : Value → Node
  | .null => .null
  | .bool b => .bool b
  | .number n => .number (numeralOf n)
  | .text s => .text ⟨.ok s, none⟩
  | .array items => .array (nodes items) none
  | .object fields => .object (fieldNodes fields) none

def nodes : List Value → List Node
  | [] => []
  | v :: rest => node v :: nodes rest

def fieldNodes : List (String × Value) → List (Literal × Node)
  | [] => []
  | (k, v) :: rest => (⟨.ok k, none⟩, node v) :: fieldNodes rest

end

end Value

open Value

/-! ## How a value begins -/

theorem skipSpace_cons {c : Char} (h : isSpace c = false) (cs : List Char) :
    skipSpace (c :: cs) = c :: cs := by
  rw [skipSpace, List.dropWhile_cons, if_neg (by rw [h]; decide)]

theorem isDigit_ne {c d : Char} (hc : isDigit c = true) (hd : isDigit d = false) : c ≠ d := by
  rintro rfl
  rw [hc] at hd
  cases hd

theorem not_isSpace_of_isDigit {c : Char} (h : isDigit c = true) : isSpace c = false := by
  simp only [isSpace, Bool.or_eq_false_iff, decide_eq_false_iff_not]
  exact ⟨⟨⟨isDigit_ne h rfl, isDigit_ne h rfl⟩, isDigit_ne h rfl⟩, isDigit_ne h rfl⟩

/-- A value begins with a character that is neither a space nor a closing bracket. -/
theorem write_cons (v : Value) :
    ∃ c cs, write v = c :: cs ∧ isSpace c = false ∧ c ≠ ']' := by
  cases v with
  | null => exact ⟨_, _, rfl, by decide, by decide⟩
  | bool b => cases b <;> exact ⟨_, _, rfl, by decide, by decide⟩
  | text | array | object =>
    rw [write]
    exact ⟨_, _, rfl, by decide, by decide⟩
  | number n =>
    rw [write, writeNumber]
    split
    · exact ⟨_, _, rfl, by decide, by decide⟩
    · obtain ⟨d, ds, hds⟩ := List.exists_cons_of_ne_nil
        (Nat.toDigits_ne_nil (n := n.natAbs) (b := 10))
      have hd : isDigit d = true := isDigit_of_mem_toDigits (hds ▸ List.mem_cons_self)
      exact ⟨d, ds, hds, not_isSpace_of_isDigit hd, isDigit_ne hd rfl⟩

/-! ## Reading what was written -/

theorem readNode_digit {d : Char} (hd : isDigit d = true) (fuel : Nat) (ds : List Char) :
    readNode (fuel + 1) (d :: ds) = readNumber false (d :: ds) := by
  rw [readNode, skipSpace_cons (not_isSpace_of_isDigit hd)]
  split
  · contradiction
  -- The seven characters that anything else but a number begins with are no digits.
  iterate 7 exact absurd (List.cons.inj ‹_›).1 (isDigit_ne hd rfl)
  · rename_i h
    obtain ⟨rfl, rfl⟩ := List.cons.inj h
    rw [if_pos hd]

theorem readNode_number (n : Int) (fuel : Nat) {rest : List Char} (h : EndsNumber rest) :
    readNode (fuel + 1) (writeNumber n ++ rest) = (.number (numeralOf n), some rest) := by
  unfold writeNumber
  split
  · rename_i hn
    rw [List.cons_append, readNode, skipSpace_cons (by decide)]
    have hread := readNumber_toDigits true n.natAbs h
    rw [numeral_toDigits (by rw [decide_eq_true hn])] at hread
    exact hread
  · rename_i hn
    obtain ⟨d, ds, hds⟩ := List.exists_cons_of_ne_nil
      (Nat.toDigits_ne_nil (n := n.natAbs) (b := 10))
    have hd : isDigit d = true := isDigit_of_mem_toDigits (hds ▸ List.mem_cons_self)
    have hread := readNumber_toDigits false n.natAbs h
    rw [numeral_toDigits (by rw [decide_eq_false hn])] at hread
    rw [hds, List.cons_append] at hread ⊢
    rw [readNode_digit hd, hread]

/-- What may come behind a value: the end, or what an array or an object goes on with. -/
def EndsValue (rest : List Char) : Prop := ∀ c ∈ rest.head?, c = ',' ∨ c = ']' ∨ c = '}'

theorem EndsValue.endsNumber {rest : List Char} (h : EndsValue rest) : EndsNumber rest := by
  intro c hc
  rcases h c hc with rfl | rfl | rfl <;> decide

theorem endsValue_writeMoreItems (items : List Value) (rest : List Char) :
    EndsValue (writeMoreItems items ++ rest) := by
  cases items with
  | nil => exact fun c hc => .inr (.inl (Option.some.inj hc).symm)
  | cons v items => exact fun c hc => .inl (Option.some.inj hc).symm

theorem endsValue_writeMoreFields (fields : List (String × Value)) (rest : List Char) :
    EndsValue (writeMoreFields fields ++ rest) := by
  cases fields with
  | nil => exact fun c hc => .inr (.inr (Option.some.inj hc).symm)
  | cons f fields => exact fun c hc => .inl (Option.some.inj hc).symm

theorem writeMoreItems_cons (v : Value) (items : List Value) :
    writeMoreItems (v :: items) = ',' :: writeItems (v :: items) := by
  rw [writeMoreItems, writeItems]

theorem writeMoreFields_cons (f : String × Value) (fields : List (String × Value)) :
    writeMoreFields (f :: fields) = ',' :: writeFields (f :: fields) := by
  rw [writeMoreFields, writeFields]

section Steps
variable {fuel : Nat} {rest : List Char}

theorem readNode_text (s : String) (fuel : Nat) (rest : List Char) :
    readNode (fuel + 1) (quote s ++ rest) = (.text ⟨.ok s, none⟩, some rest) := by
  rw [quote, List.cons_append, List.append_assoc, readNode, skipSpace_cons (by decide)]
  simp only [List.singleton_append, readLiteral_quote]

theorem readNode_array {v : Value} {items : List Value} {ns : List Node}
    (h : readItems fuel (write v ++ (writeMoreItems items ++ rest)) = (ns, none, some rest)) :
    readNode (fuel + 1) (write (.array (v :: items)) ++ rest) = (.array ns none, some rest) := by
  obtain ⟨c, cs, hv, hspace, hbracket⟩ := write_cons v
  rw [hv, List.cons_append] at h
  rw [write, writeItems, hv, List.cons_append, readNode, skipSpace_cons (by decide)]
  simp only [List.append_assoc, List.cons_append, skipSpace_cons hspace]
  split
  · exact absurd (List.cons.inj ‹_›).1 hbracket
  · contradiction
  · rw [h]

theorem readNode_object {f : String × Value} {fields : List (String × Value)}
    {ns : List (Literal × Node)}
    (h : readFields fuel (writeFields (f :: fields) ++ rest) = (ns, none, some rest)) :
    readNode (fuel + 1) (write (.object (f :: fields)) ++ rest) = (.object ns none, some rest) := by
  rw [write, List.cons_append, readNode, skipSpace_cons (by decide)]
  rw [writeFields, quote] at h ⊢
  simp only [List.cons_append, skipSpace_cons (show isSpace '"' = false by decide)] at h ⊢
  split
  · exact absurd (List.cons.inj ‹_›).1 (by decide)
  · rw [h]

theorem readItems_nil {v : Value} {n : Node}
    (h : readNode fuel (write v ++ ']' :: rest) = (n, some (']' :: rest))) :
    readItems (fuel + 1) (write v ++ ']' :: rest) = ([n], none, some rest) := by
  simp only [readItems, h, skipSpace_cons (show isSpace ']' = false by decide)]

theorem readItems_cons {v : Value} {n : Node} {ns : List Node} {more : List Char}
    (h : readNode fuel (write v ++ ',' :: more) = (n, some (',' :: more)))
    (hmore : readItems fuel more = (ns, none, some rest)) :
    readItems (fuel + 1) (write v ++ ',' :: more) = (n :: ns, none, some rest) := by
  simp only [readItems, h, skipSpace_cons (show isSpace ',' = false by decide), hmore]

theorem readFields_nil {k : String} {v : Value} {n : Node}
    (h : readNode fuel (write v ++ '}' :: rest) = (n, some ('}' :: rest))) :
    readFields (fuel + 1) (quote k ++ ':' :: (write v ++ '}' :: rest)) =
      ([(⟨.ok k, none⟩, n)], none, some rest) := by
  rw [readFields, quote, List.cons_append, skipSpace_cons (by decide), List.append_assoc,
    List.singleton_append]
  simp only [readLiteral_quote, skipSpace_cons (show isSpace ':' = false by decide), h,
    skipSpace_cons (show isSpace '}' = false by decide)]

theorem readFields_cons {k : String} {v : Value} {n : Node} {ns : List (Literal × Node)}
    {more : List Char} (h : readNode fuel (write v ++ ',' :: more) = (n, some (',' :: more)))
    (hmore : readFields fuel more = (ns, none, some rest)) :
    readFields (fuel + 1) (quote k ++ ':' :: (write v ++ ',' :: more)) =
      ((⟨.ok k, none⟩, n) :: ns, none, some rest) := by
  rw [readFields, quote, List.cons_append, skipSpace_cons (by decide), List.append_assoc,
    List.singleton_append]
  simp only [readLiteral_quote, skipSpace_cons (show isSpace ':' = false by decide), h,
    skipSpace_cons (show isSpace ',' = false by decide), hmore]

end Steps

theorem length_quote (s : String) : 2 ≤ (quote s).length := by
  rw [quote, List.length_cons, List.length_append, List.length_singleton]
  omega

/-- With this much fuel, what is no longer than it is read back, whatever comes behind it. -/
structure ReadsBack (fuel : Nat) : Prop where
  node : ∀ v rest, (write v).length ≤ fuel → EndsValue rest →
    readNode fuel (write v ++ rest) = (v.node, some rest)
  items : ∀ v items rest, (writeItems (v :: items)).length ≤ fuel →
    readItems fuel (writeItems (v :: items) ++ rest) = (nodes (v :: items), none, some rest)
  fields : ∀ f fields rest, (writeFields (f :: fields)).length ≤ fuel →
    readFields fuel (writeFields (f :: fields) ++ rest) =
      (fieldNodes (f :: fields), none, some rest)

namespace ReadsBack
variable {fuel : Nat}

theorem zero : ReadsBack 0 where
  node v rest h := by
    obtain ⟨c, cs, hv, -⟩ := write_cons v
    rw [hv] at h
    cases h
  items v items rest h := by
    obtain ⟨c, cs, hv, -⟩ := write_cons v
    rw [writeItems, hv] at h
    cases h
  fields f fields rest h := by
    have hquote := length_quote f.1
    rw [writeFields, List.length_append] at h
    omega

theorem node_succ (ih : ReadsBack fuel) (v : Value) (rest : List Char)
    (h : (write v).length ≤ fuel + 1) (hrest : EndsValue rest) :
    readNode (fuel + 1) (write v ++ rest) = (v.node, some rest) := by
  cases v with
  | null =>
    rw [write]
    rfl
  | bool b => cases b <;> rw [write] <;> rfl
  | number n => exact readNode_number n fuel hrest.endsNumber
  | text s => exact readNode_text s fuel rest
  | array items =>
    cases items with
    | nil =>
      rw [write]
      rfl
    | cons v items =>
      rw [write, List.length_cons] at h
      have hitems := ih.items v items rest (by omega)
      rw [writeItems, List.append_assoc] at hitems
      exact readNode_array hitems
  | object fields =>
    cases fields with
    | nil =>
      rw [write]
      rfl
    | cons f fields =>
      rw [write, List.length_cons] at h
      exact readNode_object (ih.fields f fields rest (by omega))

theorem items_succ (ih : ReadsBack fuel) (v : Value) (items : List Value) (rest : List Char)
    (h : (writeItems (v :: items)).length ≤ fuel + 1) :
    readItems (fuel + 1) (writeItems (v :: items) ++ rest) =
      (nodes (v :: items), none, some rest) := by
  rw [writeItems, List.length_append] at h
  rw [writeItems, List.append_assoc]
  have hnode := ih.node v (writeMoreItems items ++ rest)
  have hends := endsValue_writeMoreItems items rest
  cases items with
  | nil =>
    rw [writeMoreItems, List.length_singleton] at h
    exact readItems_nil (hnode (by omega) hends)
  | cons w items =>
    rw [writeMoreItems_cons, List.length_cons] at h
    have hmore := ih.items w items rest (by omega)
    rw [writeMoreItems_cons] at hnode hends ⊢
    exact readItems_cons (hnode (by omega) hends) hmore

theorem fields_succ (ih : ReadsBack fuel) (f : String × Value) (fields : List (String × Value))
    (rest : List Char) (h : (writeFields (f :: fields)).length ≤ fuel + 1) :
    readFields (fuel + 1) (writeFields (f :: fields) ++ rest) =
      (fieldNodes (f :: fields), none, some rest) := by
  obtain ⟨k, v⟩ := f
  have hquote := length_quote k
  rw [writeFields, List.length_append, List.length_cons, List.length_append] at h
  rw [writeFields, List.append_assoc, List.cons_append, List.append_assoc]
  have hnode := ih.node v (writeMoreFields fields ++ rest)
  have hends := endsValue_writeMoreFields fields rest
  cases fields with
  | nil =>
    rw [writeMoreFields, List.length_singleton] at h
    exact readFields_nil (hnode (by omega) hends)
  | cons f fields =>
    rw [writeMoreFields_cons, List.length_cons] at h
    have hmore := ih.fields f fields rest (by omega)
    rw [writeMoreFields_cons] at hnode hends ⊢
    exact readFields_cons (hnode (by omega) hends) hmore

end ReadsBack

-- Every step of the reader uses up a character at least, so fuel for each of them is enough.
theorem readsBack (fuel : Nat) : ReadsBack fuel := by
  induction fuel with
  | zero => exact .zero
  | succ fuel ih => exact ⟨ih.node_succ, ih.items_succ, ih.fields_succ⟩

/-- What is written is read back as the node of the value, and nothing is left behind it. -/
theorem read_toText {α : Type} (decode : Node → Except Fault α) (v : Value) :
    Json.read decode v.toText = decode v.node := by
  have hread := (readsBack (2 * (write v).length + 1)).node v [] (by omega) (fun c hc => nomatch hc)
  rw [List.append_nil] at hread
  have hdocument : readDocument v.toText.toList = (v.node, some []) := by
    rw [Value.toText, String.toList_ofList]
    exact hread
  simp only [Json.read, hdocument]
  cases decode v.node <;> rfl

end Letterbox.Json
