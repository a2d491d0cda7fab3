import PeerWatch.Json.Decode
import PeerWatch.Text.Blank

/-!
# Contacts

The presence of one peer as a node reports it, and the list of contacts in the order of the report.
Reading is lenient: a status, a path, a count or a flag may be of any JSON type, and what cannot be
understood counts as empty, zero or unset. Writing gives every field its own type.
-/

namespace PeerWatch.Presence

open PeerWatch.Json (Raw Value)

/-- The presence of one peer. -/
structure Contact where
  name : Option String
  tracker : Option String
  status : String
  /-- The number of unread private messages. -/
  messages : Nat
  /-- The path under which all pages of the contact lie. -/
  path : String
  /-- Set when some of the unread messages are new since the last report. -/
  hasNew : Bool
  deriving DecidableEq, Repr

/-- The user's own identity is listed as a contact whose path ends in this. -/
def selfEnding : String := "myself"

def Contact.isSelf (c : Contact) : Bool := selfEnding.toList.isSuffixOf c.path.toList

/-- Contacts by identifier, in the order of the report. -/
structure ContactList where
  contacts : List (String × Contact)
  deriving DecidableEq, Repr

def ContactList.get? (list : ContactList) (id : String) : Option Contact :=
  (list.contacts.find? (·.1 = id)).map (·.2)

/-! ## Lenient fields -/

/-- The number written by decimal digits alone, at least one. -/
def decimal? (cs : List Char) : Option Nat :=
  if cs.isEmpty then none
  else cs.foldlM (fun n c => if c.isDigit then some (n * 10 + Json.digitValue c) else none) 0

/-- The number written by decimal digits after an optional plus sign. -/
def unsigned? : List Char → Option Nat
  | '+' :: cs => decimal? cs
  | cs => decimal? cs

/-- A count: a nonnegative integer, the largest of 32 bits if it is larger, or a text that holds one
of 32 bits; anything else is zero. -/
def countOf : Value → Nat
  | .number (.natural n) => min n Json.maxHalfWord
  | .string s =>
    match unsigned? (Text.trim s.toList) with
    | some n => if n ≤ Json.maxHalfWord then n else 0
    | none => 0
  | _ => 0

def isNonzero : Json.Number → Bool
  | .natural n => n != 0
  | .negative n => n != 0
  | .double _ m => !m.isZero

/-- A flag: true, a text with characters or a number other than zero. -/
def flagOf : Value → Bool
  | .bool b => b
  | .string s => !s.isEmpty
  | .number n => isNonzero n
  | _ => false

/-- A text: a number or a truth value as it is written, anything else that is no text as empty. -/
def textOf : Value → String
  | .string s => s
  | .number n => String.ofList n.text
  | .bool b => if b then "true" else "false"
  | _ => ""

/-! ## Reading -/

def contactFields : List String :=
  ["name", "tracker", "status", "messages", "prefix", "newmessages"]

/-- A contact of at most `depth` levels. -/
def Contact.ofRaw? (depth : Nat) (raw : Raw) : Option Contact := do
  let found ← raw.record? contactFields depth
  let lenient {α : Type} (field : String) (f : Value → α) (absent : α) : Option α :=
    Json.fieldOr? field (fun r => (r.value? (depth - 1)).map f) absent found
  return {
    name := ← Json.fieldOr? "name" Raw.optionalText? none found
    tracker := ← Json.fieldOr? "tracker" Raw.optionalText? none found
    status := ← lenient "status" textOf ""
    messages := ← lenient "messages" countOf 0
    path := ← lenient "prefix" textOf ""
    hasNew := ← lenient "newmessages" flagOf false }

/-- The contacts of an object, in the order of its members. -/
def contactsOfMembers? (depth : Nat) :
    List (List Json.Unit16 × Raw) → Option (List (String × Contact))
  | [] => some []
  | (units, raw) :: rest => do
    let id ← Json.textOfUnits units
    let contact ← Contact.ofRaw? depth raw
    let others ← contactsOfMembers? depth rest
    return (id, contact) :: others

/-- The contacts of a list: an object of at most `depth` levels, or nothing. -/
def contactsOfRaw? (depth : Nat) : Raw → Option (List (String × Contact))
  | .null => some []
  | .object members => if depth = 0 then none else contactsOfMembers? (depth - 1) members
  | _ => none

/-- A contact list of at most `depth` levels. -/
def ContactList.ofRaw? (depth : Nat) (raw : Raw) : Option ContactList := do
  let found ← raw.record? ["contacts"] depth
  let contacts ← Json.fieldOr? "contacts" (contactsOfRaw? (depth - 1)) [] found
  return ⟨contacts⟩

/-- The contact list of a body, or nothing for `null`. -/
def ContactList.decode? (body : String) : Option (Option ContactList) :=
  Json.payload? (ContactList.ofRaw? Json.maxDepth) body

/-! ## Writing -/

def optionalValue : Option String → Value
  | some s => .string s
  | none => .null

def Contact.toValue (c : Contact) : Value :=
  .object [("name", optionalValue c.name), ("tracker", optionalValue c.tracker),
    ("status", .string c.status), ("messages", .number (.natural c.messages)),
    ("prefix", .string c.path), ("newmessages", .bool c.hasNew)]

/-- A contact list as a value, one member for each contact. -/
def ContactList.toValue (list : ContactList) : Value :=
  .object [("contacts", .object (list.contacts.map fun (id, c) => (id, c.toValue)))]

def ContactList.encode (list : ContactList) : String := list.toValue.compact

end PeerWatch.Presence
