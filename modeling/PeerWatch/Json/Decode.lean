import PeerWatch.Json.Value

/-!
# Decoding records

A record is written as an object, whose unknown members are skipped, or as an array of its fields in
order, of which the last may be missing. An object must not repeat a field of the record.
-/

namespace PeerWatch.Json

/-- The members of an object that are fields of a record. The keys of the others are read, their
values are not. -/
def knownMembers? (fields : List String) :
    List (List Unit16 × Raw) → Option (List (String × Raw))
  | [] => some []
  | (units, raw) :: rest => do
    let key ← textOfUnits units
    let found ← knownMembers? fields rest
    if fields.contains key then
      if found.any (·.1 = key) then none else some ((key, raw) :: found)
    else some found

/-- The fields of a record of at most `depth` levels by their names. -/
def Raw.record? (fields : List String) (depth : Nat) : Raw → Option (List (String × Raw))
  | .object members => if depth = 0 then none else knownMembers? fields members
  | .array items =>
    if depth = 0 ∨ items.length > fields.length then none else some (fields.zip items)
  | _ => none

/-- The field of a record, decoded by `decode`, or `absent`. -/
def fieldOr? {α : Type} (name : String) (decode : Raw → Option α) (absent : α)
    (found : List (String × Raw)) : Option α :=
  match found.find? (·.1 = name) with
  | some (_, raw) => decode raw
  | none => some absent

def Raw.optionalText? : Raw → Option (Option String)
  | .null => some none
  | .string units => (textOfUnits units).map some
  | _ => none

def maxHalfWord : Nat := UInt32.size - 1

def Raw.halfWord? : Raw → Option Nat
  | .number t =>
    match t.value? with
    | some (.natural n) => if n ≤ maxHalfWord then some n else none
    | _ => none
  | _ => none

def Raw.text? : Raw → Option String
  | .string units => textOfUnits units
  | _ => none

/-- The payload of a body: nothing for `null`, else what `decode` makes of it. -/
def payload? {α : Type} (decode : Raw → Option α) (body : String) : Option (Option α) :=
  match Raw.read? body.toList with
  | none => none
  | some .null => some none
  | some raw => (decode raw).map some

end PeerWatch.Json
