import Letterbox.Proofs.Json.RoundTrip

/-!
# Records there and back

`Reads field s fields t` says that the values of some fields, read one after the other, take what is
known of a record from `s` to `t`. Such rows of fields are put together, so a record is read back if
each of its fields is.
-/

namespace Letterbox.Json

set_option autoImplicit false

open Value

theorem fieldNodes_cons (k : String) (v : Value) (rest : List (String × Value)) :
    fieldNodes ((k, v) :: rest) = (⟨.ok k, none⟩, v.node) :: fieldNodes rest := by
  rw [fieldNodes]

theorem fieldNodes_eq_map (fields : List (String × Value)) :
    fieldNodes fields = fields.map fun f => (⟨.ok f.1, none⟩, f.2.node) := by
  induction fields with
  | nil => rw [fieldNodes, List.map_nil]
  | cons f rest ih => rw [fieldNodes_cons, List.map_cons, ih]

theorem nodes_eq_map (items : List Value) : nodes items = items.map node := by
  induction items with
  | nil => rw [nodes, List.map_nil]
  | cons v rest ih => rw [nodes, List.map_cons, ih]

/-! ## Fields -/

section Fields
variable {σ α : Type} {field : σ → String → Option (Node → Except Fault σ)}

inductive Reads (field : σ → String → Option (Node → Except Fault σ)) :
    σ → List (String × Value) → σ → Prop where
  | nil (s : σ) : Reads field s [] s
  | cons {s t u : σ} {k : String} {v : Value} {rest : List (String × Value)}
      {read : Node → Except Fault σ} : field s k = some read → read v.node = .ok t →
      Reads field t rest u → Reads field s ((k, v) :: rest) u

namespace Reads
variable {s t u : σ} {fields more : List (String × Value)}

theorem one {k : String} {v : Value} {read : Node → Except Fault σ} (hk : field s k = some read)
    (hv : read v.node = .ok t) : Reads field s [(k, v)] t := .cons hk hv (.nil t)

theorem map {β : Type} {k : String} {v : Value} {read : Node → Except Fault β} {b : β}
    (put : β → σ) (hk : field s k = some fun v => put <$> read v) (hv : read v.node = .ok b) :
    Reads field s [(k, v)] (put b) := by
  refine .one hk ?_
  rw [hv]
  rfl

/-- A field that is to be given once, and of which nothing was known. -/
theorem set {β : Type} {k : String} {v : Value} {read : Node → Except Fault β} {b : β}
    (put : Option β → σ) (hk : field s k = some fun v => do return put (← once none (read v)))
    (hv : read v.node = .ok b) : Reads field s [(k, v)] (put (some b)) := by
  refine .one hk ?_
  simp only [once, hv, bind, Except.bind, Functor.map, Except.map, pure, Except.pure]

theorem append (h : Reads field s fields t) (hmore : Reads field t more u) :
    Reads field s (fields ++ more) u := by
  induction h with
  | nil => exact hmore
  | cons hk hv _ ih => exact .cons hk hv (ih hmore)

theorem foldFields_eq (h : Reads field s fields t) :
    foldFields field s (fieldNodes fields) = .ok t := by
  induction h with
  | nil => rfl
  | cons hk hv _ ih =>
    rw [fieldNodes_cons]
    simp only [foldFields, hk, hv, bind, Except.bind, ih]

theorem record_eq {finish : σ → Except Fault α} {a : α} (h : Reads field s fields t)
    (hfinish : finish t = .ok a) (aside : Bool) (inOrder : StateT Items (Except Fault) α) :
    record aside s field finish inOrder (object fields).node = .ok a := by
  rw [node]
  simp only [record, h.foldFields_eq, ofDefect, bind, Except.bind, hfinish]

end Reads

end Fields

/-! ## Values of fields -/

theorem string_text (s : String) : (text s).node.string = .ok s := rfl

theorem node_nat {n : Nat} (h : n < 10 ^ 20) : (nat n).node = .number (.integer n) := by
  rw [nat, node, numeralOf_nat h]

theorem natural_nat {n limit : Nat} (hn : n ≤ limit) (hlimit : limit < 10 ^ 20) :
    (nat n).node.natural limit = .ok n := by
  rw [node_nat (by omega)]
  exact if_pos hn

theorem word16_nat (n : UInt16) : Nat.toUInt16 <$> (nat n.toNat).node.natural 65535 = .ok n := by
  have hn := n.toNat_lt
  rw [natural_nat (by omega) (by omega)]
  exact congrArg Except.ok UInt16.ofNat_toNat

theorem word32_nat (n : UInt32) :
    Nat.toUInt32 <$> (nat n.toNat).node.natural 0xffffffff = .ok n := by
  have hn := n.toNat_lt
  rw [natural_nat (by omega) (by omega)]
  exact congrArg Except.ok UInt32.ofNat_toNat

theorem word64_nat (n : UInt64) :
    Nat.toUInt64 <$> (nat n.toNat).node.natural 0xffffffffffffffff = .ok n := by
  have hn := n.toNat_lt
  rw [natural_nat (by omega) (by omega)]
  exact congrArg Except.ok UInt64.ofNat_toNat

theorem mapM_zipIdx_map {α : Type} {encode : α → Value} {read : Nat → Node → Except Fault α}
    (h : ∀ i a, read i (encode a).node = .ok a) (l : List α) (start : Nat) :
    ((l.map fun a => (encode a).node).zipIdx start).mapM (fun (v, i) => read i v) = .ok l := by
  induction l generalizing start with
  | nil => rfl
  | cons a l ih =>
    rw [List.map_cons, List.zipIdx_cons, List.mapM_cons, ih]
    simp only [h, bind, Except.bind, pure, Except.pure]

/-- A list is read back if its items are, wherever they stand in it. -/
theorem list_array {α : Type} {encode : α → Value} {read : Nat → Node → Except Fault α}
    (h : ∀ i a, read i (encode a).node = .ok a) (l : List α) :
    (array (l.map encode)).node.list read = .ok l := by
  rw [node, nodes_eq_map, List.map_map]
  have hitems := mapM_zipIdx_map h l 0
  simp only [Node.list, Function.comp_def, hitems, bind, Except.bind, ofDefect, pure, Except.pure]

/-! ## Values that are looked at as a whole -/

theorem inspect_text (room : Nat) (s : String) : (text s).node.inspect room = .ok () := rfl

theorem inspect_bool (room : Nat) (b : Bool) : (bool b).node.inspect room = .ok () := rfl

theorem inspect_nat (room : Nat) {n : Nat} (h : n < 10 ^ 20) :
    (nat n).node.inspect room = .ok () := by
  rw [node_nat h]
  rfl

theorem inspectFields_fieldNodes {room : Nat} {fields : List (String × Value)}
    (h : ∀ f ∈ fields, f.2.node.inspect room = .ok ()) :
    Node.inspectFields room (fieldNodes fields) = .ok () := by
  induction fields with
  | nil => rfl
  | cons f rest ih =>
    obtain ⟨k, v⟩ := f
    have hv := h (k, v) List.mem_cons_self
    rw [fieldNodes_cons]
    simp only [Node.inspectFields, hv, bind, Except.bind]
    exact ih fun g hg => h g (List.mem_cons_of_mem _ hg)

theorem inspect_object {room : Nat} {fields : List (String × Value)}
    (h : ∀ f ∈ fields, f.2.node.inspect room = .ok ()) :
    (object fields).node.inspect (room + 1) = .ok () := by
  rw [node]
  simp only [Node.inspect, inspectFields_fieldNodes h, bind, Except.bind, ofDefect]

end Letterbox.Json
