/-!
# Trees of a TOML document

Tables hold values by keys, each key at most once. What may still be added to a table depends on how
it came into being: by a header, because a header below it implied it, by a dotted key, or in
braces.
-/

namespace PeerWatch.Toml

/-- How a table came into being. -/
inductive Origin
  /-- Written in braces, complete at once. -/
  | inline
  /-- Opened by a header of its own. -/
  | header
  /-- Needed by the header of a table below it. -/
  | implied
  /-- Needed by a dotted key. -/
  | dotted
  deriving DecidableEq, Repr

inductive Value
  | string (s : String)
  | integer (n : Int)
  /-- A floating-point number as written. -/
  | float (text : String)
  | bool (b : Bool)
  /-- A date, a time or both, as written. -/
  | moment (text : String)
  | array (items : List Value)
  | table (origin : Origin) (members : List (String × Value))
  /-- The tables of headers in double brackets, each opened by one. -/
  | tables (elements : List (List (String × Value)))

/-- The members of a table. -/
abbrev Members := List (String × Value)

namespace Members

def get? (members : Members) (key : String) : Option Value :=
  (members.find? (·.1 = key)).map (·.2)

/-- Replaces the value of a key, or adds a key at the end. `f` may refuse. -/
def alter (key : String) (f : Option Value → Option Value) : Members → Option Members
  | [] => (f none).map fun v => [(key, v)]
  | (k, v) :: rest =>
    if k = key then (f (some v)).map fun v => (k, v) :: rest
    else (alter key f rest).map ((k, v) :: ·)

/-- Gives a value to a key without one. The parts of a dotted key before the last lead through
tables that dotted keys brought into being, or create them; only on the way to such a table may one
lead through a table that is implied. -/
def assign (v : Value) : List String → Members → Option Members
  | [], _ => none
  | [key], members =>
    members.alter key fun
      | none => some v
      | some _ => none
  | key :: next :: path, members =>
    members.alter key fun
      | none => (assign v (next :: path) []).map (.table .dotted)
      | some (.table origin inner) =>
        if origin = .dotted ∨ (origin = .implied ∧ path ≠ []) then
          (assign v (next :: path) inner).map (.table origin)
        else none
      | some _ => none

/-- Changes the table at a path. Tables on the way that are missing become implied; of the tables of
headers in double brackets the last counts. -/
def within (f : Members → Option Members) : List String → Members → Option Members
  | [], members => f members
  | key :: path, members =>
    members.alter key fun
      | none => (within f path []).map (.table .implied)
      | some (.table origin inner) =>
        if origin = .inline then none else (within f path inner).map (.table origin)
      | some (.tables elements) =>
        match elements.getLast? with
        | none => none
        | some last => (within f path last).map fun last => .tables (elements.dropLast ++ [last])
      | some _ => none

def openTable (key : String) (members : Members) : Option Members :=
  members.alter key fun
    | none => some (.table .header [])
    | some (.table .implied inner) => some (.table .header inner)
    | some _ => none

/-- Opens one more of the tables of a header in double brackets. -/
def openElement (key : String) (members : Members) : Option Members :=
  members.alter key fun
    | none => some (.tables [[]])
    | some (.tables elements) => some (.tables (elements ++ [[]]))
    | some _ => none

/-- Changes what the last part of a path names in the table before it. -/
def atLast (f : String → Members → Option Members) (path : List String) (members : Members) :
    Option Members :=
  match path.getLast? with
  | none => none
  | some key => within (f key) path.dropLast members

end Members
end PeerWatch.Toml
