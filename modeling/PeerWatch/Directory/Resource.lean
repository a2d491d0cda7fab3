import PeerWatch.Json.Value
import PeerWatch.Text.Shown

/-!
# Resources of a directory

One entry of a listing as a node sends it, and the link under which it is found.
-/

namespace PeerWatch.Directory

open PeerWatch.Json (Value)

inductive ResourceKind
  | directory
  | file
  | unknown
  deriving DecidableEq, Repr

def ResourceKind.ofTag : String → ResourceKind
  | "directory" => .directory
  | "file" => .file
  | _ => .unknown

structure Resource where
  name : String
  hash : Option String
  contact : Option String
  kind : ResourceKind
  url : Option String
  deriving DecidableEq, Repr

def filled (s : Option String) : Option String := s.filter (· ≠ "")

namespace Resource

def blank : Resource := ⟨"", none, none, .unknown, none⟩

def isDirectory (r : Resource) : Bool := r.kind == .directory

/-- Where the resource lies, unless that is empty. -/
def location? (r : Resource) : Option String := filled r.url

/-- The link to a resource. A hash of the content always leads to it. For a user the link goes
through that user's files, or those of the contact who shares them; without a user it is relative.
Links to directories end in a slash. -/
def link (r : Resource) (user : Option String) : String :=
  match filled r.hash with
  | some hash => "/" ++ hash
  | none =>
    let target := match filled user with
      | some user =>
        let owner := match filled r.contact with
          | some contact => "/contacts/" ++ contact
          | none => "/myself"
        let url := (r.location?).getD ""
        "/" ++ user ++ owner ++ "/files" ++ (if url.toList.head? = some '/' then "" else "/") ++ url
      | none => r.name
    if r.isDirectory then target ++ "/" else target

end Resource

/-! ## Reading -/

/-- Why a value is no resource. -/
inductive ResourceError
  | wrongType (found : Value) (expected : String)
  | tooLong (length : Nat)

def found : Value → String
  | .null => "null"
  | .bool b => "boolean " ++ tick ++ (if b then "true" else "false") ++ tick
  | .number n =>
    (match n with
      | .double _ _ => "floating point "
      | _ => "integer ") ++ tick ++ String.ofList n.text ++ tick
  | .string s => "string " ++ Text.shown s
  | .array _ => "sequence"
  | .object _ => "map"
where
  /-- The mark around a value. -/
  tick : String := "\x60"

def ResourceError.message : ResourceError → String
  | .wrongType value expected => "invalid type: " ++ found value ++ ", expected " ++ expected
  | .tooLong n => "invalid length " ++ toString n ++ ", expected fewer elements in array"

def textOf : Value → Except ResourceError String
  | .string s => .ok s
  | v => .error (.wrongType v "a string")

def optionalTextOf : Value → Except ResourceError (Option String)
  | .null => .ok none
  | v => (textOf v).map some

namespace Resource

/-- Reads one field into a resource. Unknown fields are passed over. -/
def setField (r : Resource) (field : String) (v : Value) : Except ResourceError Resource :=
  match field with
  | "name" => (textOf v).map fun s => { r with name := s }
  | "hash" => (optionalTextOf v).map fun s => { r with hash := s }
  | "contact" => (optionalTextOf v).map fun s => { r with contact := s }
  | "type" => (textOf v).map fun s => { r with kind := ResourceKind.ofTag s }
  | "url" => (optionalTextOf v).map fun s => { r with url := s }
  | _ => .ok r

def setFields (r : Resource) (fields : List (String × Value)) : Except ResourceError Resource :=
  fields.foldlM (fun r (field, v) => r.setField field v) r

def fieldNames : List String := ["name", "hash", "contact", "type", "url"]

/-- The fields of an object that belong to a resource, in alphabetical order. -/
def fieldsOf (members : List (String × Value)) : List (String × Value) :=
  ["contact", "hash", "name", "type", "url"].filterMap fun field =>
    (Json.member? field members).map fun v => (field, v)

/-- The resource that a value describes: an object, whose fields are read in alphabetical order, or
an array of the fields in their own order, of which the last may be missing. -/
def ofValue? : Value → Except ResourceError Resource
  | .object members => blank.setFields (fieldsOf members)
  | .array items => do
    let r ← blank.setFields (fieldNames.zip items)
    if items.length > fieldNames.length then .error (.tooLong items.length) else .ok r
  | v => .error (.wrongType v "struct Resource")

end Resource
end PeerWatch.Directory
