import Letterbox.Proofs.Json.Literals

/-!
# What is written

The text of a value has no control character in it, whatever its strings hold, and that of an object
stands between braces.
-/

namespace Letterbox.Json

set_option autoImplicit false

open Text

def Visible (cs : List Char) : Prop := ∀ c ∈ cs, 32 ≤ c.toNat

theorem visible_iff_all (cs : List Char) : (cs.all fun c => 32 ≤ c.toNat) = true ↔ Visible cs := by
  simp only [Visible, List.all_eq_true, decide_eq_true_eq]

instance (cs : List Char) : Decidable (Visible cs) := decidable_of_iff _ (visible_iff_all cs)

namespace Visible
variable {cs ds : List Char}

theorem append (hc : Visible cs) (hd : Visible ds) : Visible (cs ++ ds) :=
  List.forall_mem_append.mpr ⟨hc, hd⟩

theorem cons {c : Char} (hc : 32 ≤ c.toNat) (hcs : Visible cs) : Visible (c :: cs) :=
  List.forall_mem_cons.mpr ⟨hc, hcs⟩

theorem nil : Visible [] := List.forall_mem_nil _

end Visible

theorem visible_escapeChar (c : Char) : Visible (escapeChar c) := by
  have hall : ∀ n : Fin 16, 32 ≤ (digitChar n).toNat := by decide
  have h := escaped c
  generalize escapeChar c = cs at h
  cases h with
  | short e _ he _ => exact .cons (by decide) (.cons he .nil)
  | unit _ =>
    refine .cons (by decide) (.cons (by decide) fun d hd => ?_)
    obtain ⟨n, hn, rfl⟩ := mem_fixedDigits hd
    exact hall ⟨n, hn⟩
  | plain _ _ hc => exact .cons hc .nil

theorem visible_quote (s : String) : Visible (quote s) := by
  refine .cons (by decide) (.append ?_ (.cons (by decide) .nil))
  intro c hc
  obtain ⟨d, -, hd⟩ := List.mem_flatMap.mp hc
  exact visible_escapeChar d c hd

theorem visible_writeNumber (n : Int) : Visible (writeNumber n) := by
  have hdigits : Visible (Nat.toDigits 10 n.natAbs) := by
    intro c hc
    have hdigit := digit_of_mem_toDigits hc
    omega
  unfold writeNumber
  split
  · exact .cons (by decide) hdigits
  · exact hdigits

mutual

theorem visible_write : ∀ v : Value, Visible (write v)
  | .null | .bool true | .bool false => by
    rw [write]
    decide
  | .number n => by
    rw [write]
    exact visible_writeNumber n
  | .text s => by
    rw [write]
    exact visible_quote s
  | .array items => by
    rw [write]
    exact .cons (by decide) (visible_writeItems items)
  | .object fields => by
    rw [write]
    exact .cons (by decide) (visible_writeFields fields)

theorem visible_writeItems : ∀ items : List Value, Visible (writeItems items)
  | [] => by
    rw [writeItems]
    exact .cons (by decide) .nil
  | v :: rest => by
    rw [writeItems]
    exact (visible_write v).append (visible_writeMoreItems rest)

theorem visible_writeMoreItems : ∀ items : List Value, Visible (writeMoreItems items)
  | [] => by
    rw [writeMoreItems]
    exact .cons (by decide) .nil
  | v :: rest => by
    rw [writeMoreItems]
    exact .cons (by decide) ((visible_write v).append (visible_writeMoreItems rest))

theorem visible_writeFields : ∀ fields : List (String × Value), Visible (writeFields fields)
  | [] => by
    rw [writeFields]
    exact .cons (by decide) .nil
  | (k, v) :: rest => by
    rw [writeFields]
    exact (visible_quote k).append
      (.cons (by decide) ((visible_write v).append (visible_writeMoreFields rest)))

theorem visible_writeMoreFields : ∀ fields : List (String × Value),
    Visible (writeMoreFields fields)
  | [] => by
    rw [writeMoreFields]
    exact .cons (by decide) .nil
  | (k, v) :: rest => by
    rw [writeMoreFields]
    exact .cons (by decide) ((visible_quote k).append
      (.cons (by decide) ((visible_write v).append (visible_writeMoreFields rest))))

end

theorem writeMoreFields_concat (fields : List (String × Value)) :
    ∃ cs, writeMoreFields fields = cs ++ ['}'] := by
  induction fields with
  | nil => exact ⟨[], by rw [writeMoreFields, List.nil_append]⟩
  | cons f rest ih =>
    obtain ⟨cs, hcs⟩ := ih
    refine ⟨',' :: (quote f.1 ++ ':' :: (write f.2 ++ cs)), ?_⟩
    rw [writeMoreFields, hcs]
    simp only [List.cons_append, List.append_assoc]

/-- An object stands between its braces. -/
theorem write_object (f : String × Value) (fields : List (String × Value)) :
    ∃ cs, write (.object (f :: fields)) = '{' :: (cs ++ ['}']) := by
  obtain ⟨cs, hcs⟩ := writeMoreFields_concat fields
  refine ⟨quote f.1 ++ ':' :: (write f.2 ++ cs), ?_⟩
  rw [write, writeFields, hcs]
  simp only [List.cons_append, List.append_assoc]

end Letterbox.Json
