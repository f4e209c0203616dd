import Letterbox.Json.Fault
import Letterbox.Json.Value

/-! # JSON text as read

A `Node` is what reading a text yields, defects included: reading never fails, it leaves a mark
where the text stops being JSON, and nothing follows that mark. Who looks at a node meets its
defects in the order of the text, together with the places where the text does not say what was
asked for, and reports the first of them. A part that nobody looks at is only passed over, which is
less strict: it may hold lone surrogates, numbers out of range and any depth. -/

namespace Letterbox.Json

set_option autoImplicit false

/-- A string between quotes: its content, if it has one, and the defect that ends the text inside
it, if there is one. -/
structure Literal where
  content : Except Fault String
  cut : Option Fault

inductive Numeral where
  | integer (n : Int)
  /-- With a fraction or an exponent, or a negative zero. -/
  | real
  | huge
deriving DecidableEq, Repr

inductive Node where
  | null
  | bool (b : Bool)
  | number (n : Numeral)
  | text (t : Literal)
  | array (items : List Node) (defect : Option Fault)
  | object (fields : List (Literal × Node)) (defect : Option Fault)
  /-- No value: the defect as met by who reads it, and as met by who passes over it. -/
  | broken (read skipped : Fault)

/-- How deep arrays and objects may be nested where they are looked at. -/
def depthLimit : Nat := 127

def ofDefect : Option Fault → Except Fault Unit
  | none => .ok ()
  | some f => .error f

namespace Node

mutual

def pass : Node → Except Fault Unit
  | .text t => ofDefect t.cut
  | .array items defect => do passItems items; ofDefect defect
  | .object fields defect => do passFields fields; ofDefect defect
  | .broken _ skipped => .error skipped
  | .null | .bool _ | .number _ => .ok ()

def passItems : List Node → Except Fault Unit
  | [] => .ok ()
  | v :: rest => do pass v; passItems rest

def passFields : List (Literal × Node) → Except Fault Unit
  | [] => .ok ()
  | (k, v) :: rest => do ofDefect k.cut; pass v; passFields rest

end

mutual

def inspect (room : Nat) : Node → Except Fault Unit
  | .text t => do let _ ← t.content
  | .number .huge => .error .malformed
  | .array items defect => match room with
    | 0 => .error .malformed
    | room + 1 => do inspectItems room items; ofDefect defect
  | .object fields defect => match room with
    | 0 => .error .malformed
    | room + 1 => do inspectFields room fields; ofDefect defect
  | .broken read _ => .error read
  | .null | .bool _ | .number _ => .ok ()

def inspectItems (room : Nat) : List Node → Except Fault Unit
  | [] => .ok ()
  | v :: rest => do inspect room v; inspectItems room rest

def inspectFields (room : Nat) : List (Literal × Node) → Except Fault Unit
  | [] => .ok ()
  | (k, v) :: rest => do let _ ← k.content; inspect room v; inspectFields room rest

end

def misfit : Node → Fault
  | .text t => match t.content with
    | .ok _ => .mismatched
    | .error f => f
  | .number .huge => .malformed
  | .broken read _ => read
  | _ => .mismatched

def string : Node → Except Fault String
  | .text t => t.content
  | v => .error v.misfit

def boolean : Node → Except Fault Bool
  | .bool b => .ok b
  | v => .error v.misfit

def natural (limit : Nat) : Node → Except Fault Nat
  | .number (.integer (.ofNat n)) => if n ≤ limit then .ok n else .error .mismatched
  | v => .error v.misfit

def optional {α : Type} (read : Node → Except Fault α) : Node → Except Fault (Option α)
  | .null => .ok none
  | v => some <$> read v

mutual

def value : Node → Except Fault Value
  | .null => .ok .null
  | .bool b => .ok (.bool b)
  | .number (.integer n) => .ok (.number n)
  | .number n => .error (misfit (.number n))
  | .text t => .text <$> t.content
  | .array items defect => do
    let l ← valueItems items
    ofDefect defect
    return .array l
  | .object fields defect => do
    let l ← valueFields fields
    ofDefect defect
    return .object l
  | .broken read _ => .error read

def valueItems : List Node → Except Fault (List Value)
  | [] => .ok []
  | v :: rest => do return (← value v) :: (← valueItems rest)

def valueFields : List (Literal × Node) → Except Fault (List (String × Value))
  | [] => .ok []
  | (k, v) :: rest => do
    let name ← k.content
    return (name, ← value v) :: (← valueFields rest)

end

def list {α : Type} (read : Nat → Node → Except Fault α) : Node → Except Fault (List α)
  | .array items defect => do
    let l ← items.zipIdx.mapM fun (v, i) => read i v
    ofDefect defect
    return l
  | v => .error v.misfit

end Node

structure Items where
  rest : List Node
  defect : Option Fault

namespace Items

def next? (l : Items) : Except Fault (Option Node × Items) :=
  match l.rest with
  | v :: rest => .ok (some v, { l with rest })
  | [] => do ofDefect l.defect; return (none, l)

/-- The next item as `read` reads it; without `default`, one must be there. -/
def take {α : Type} (read : Node → Except Fault α) (default : Option α) :
    StateT Items (Except Fault) α := do
  match ← (← get).next? with
  | (some v, l) => set l; read v
  | (none, l) => set l; match default with
    | some a => return a
    | none => throw .mismatched

/-- No item may be left. In a part of the text that was set aside before it was read, one item too
many is a matter of what the text says; elsewhere it breaks the text. -/
def finish (aside : Bool) (l : Items) : Except Fault Unit :=
  match l.rest with
  | [] => ofDefect l.defect
  | _ :: _ => .error (if aside then .mismatched else .malformed)

end Items

def once {α : Type} (held : Option α) (read : Except Fault α) : Except Fault (Option α) :=
  match held with
  | some _ => .error .mismatched
  | none => some <$> read

def required {α : Type} : Option α → Except Fault α
  | some a => .ok a
  | none => .error .mismatched

/-- Reads the fields of an object in their order. For a name that it knows, `field` answers what
becomes of the state; the value of any other name is passed over. -/
def foldFields {σ : Type} (field : σ → String → Option (Node → Except Fault σ)) :
    σ → List (Literal × Node) → Except Fault σ
  | s, [] => .ok s
  | s, (k, v) :: rest => do
    let name ← k.content
    match field s name with
    | some read => foldFields field (← read v) rest
    | none => v.pass; foldFields field s rest

/-- A record given as an object, or as an array of its fields in their order. -/
def record {σ α : Type} (aside : Bool) (start : σ)
    (field : σ → String → Option (Node → Except Fault σ)) (finish : σ → Except Fault α)
    (inOrder : StateT Items (Except Fault) α) : Node → Except Fault α
  | .object fields defect => do
    let s ← foldFields field start fields
    ofDefect defect
    finish s
  | .array items defect => do
    let (a, l) ← inOrder.run ⟨items, defect⟩
    l.finish aside
    return a
  | v => .error v.misfit

end Letterbox.Json
