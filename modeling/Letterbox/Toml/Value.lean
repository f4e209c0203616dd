/-! # Values of TOML

What a TOML text says. Tables know where they come from, because that decides whether the text may
still add to them. Of numbers with a fraction and of dates and times nothing is kept but that they
stand there. -/

namespace Letterbox.Toml

set_option autoImplicit false

inductive Origin where
  | inline
  | implied
  | dotted
  | header
deriving DecidableEq, Repr

inductive Value where
  | text (s : String)
  | integer (n : Int)
  | float
  | boolean (b : Bool)
  | moment
  | array (items : List Value)
  | table (origin : Origin) (fields : List (String × Value))
  | tables (rows : List (List (String × Value)))

abbrev Fields := List (String × Value)

namespace Fields

def replace (fields : Fields) (key : String) (v : Value) : Fields :=
  fields.map fun (k, w) => (k, if k = key then v else w)

/-- Changes the table at the end of a path, and makes the tables on the way that are not there. What
is changed is told where it comes from. `dotted` says that the path is a dotted key, which does not
lead into tables with a header. -/
def alter (dotted : Bool) (f : Origin → Fields → Option Fields) (origin : Origin)
    (fields : Fields) : List String → Option Fields
  | [] => f origin fields
  | key :: path => match fields.lookup key with
    | none => do
      let made := if dotted then Origin.dotted else .implied
      return fields ++ [(key, .table made (← alter dotted f made [] path))]
    | some (.table inner below) =>
      if inner = .inline || (dotted && inner = .header) then none
      else do return fields.replace key (.table inner (← alter dotted f inner below path))
    | some (.tables rows) => match rows.getLast? with
      | none => none
      | some last => do
        let row ← alter dotted f .header last path
        return fields.replace key (.tables (rows.dropLast ++ [row]))
    | some _ => none

def add (fields : Fields) (key : String) (v : Value) : Option Fields :=
  if (fields.lookup key).isSome then none else some (fields ++ [(key, v)])

def assign (fields : Fields) (path : List String) (key : String) (v : Value) : Option Fields :=
  let put := fun origin below =>
    if path.isEmpty || origin = .dotted then add below key v else none
  alter true put .header fields path

def openTable (key : String) (fields : Fields) : Option Fields :=
  match fields.lookup key with
  | none => some (fields ++ [(key, .table .header [])])
  | some (.table .implied below) => some (fields.replace key (.table .header below))
  | some _ => none

def openRow (key : String) (fields : Fields) : Option Fields :=
  match fields.lookup key with
  | none => some (fields ++ [(key, .tables [[]])])
  | some (.tables rows) => some (fields.replace key (.tables (rows ++ [[]])))
  | some _ => none

def within (fields : Fields) (path : List String) (f : Fields → Option Fields) : Option Fields :=
  alter false (fun _ below => f below) .header fields path

end Fields

end Letterbox.Toml
