import PeerWatch.Directory.Resource
import PeerWatch.Log.Event
import PeerWatch.Markup.Escape

/-!
# Directory listings

The result of one request for a directory: rows of names and links, or the remark that there are no
files or that the request failed.
-/

namespace PeerWatch.Directory

open PeerWatch.Json (Value)

structure Row where
  name : String
  link : String
  deriving DecidableEq, Repr

inductive Listing
  | entries (rows : List Row)
  | empty
  | failed
  deriving DecidableEq, Repr

namespace Listing

def row? (user : Option String) (v : Value) : Option Row :=
  match Resource.ofValue? v with
  | .ok r => if r.location?.isSome then some ⟨r.name, r.link user⟩ else none
  | .error _ => none

/-- The listing of a value: anything but a filled array counts as empty. -/
def ofValue (user : Option String) : Value → Listing
  | .array [] => .empty
  | .array items => .entries (items.filterMap (row? user))
  | _ => .empty

def ofBody (body : String) (user : Option String) : Listing :=
  match Value.read? body with
  | some v => ofValue user v
  | none => .failed

def outcome : Listing → String
  | .entries _ => "entries"
  | .empty => "empty"
  | .failed => "failed"

def emptyRemark : String := "No files"

def failedRemark : String := "Failed"

def rowMarkup (row : Row) : String :=
  "<tr><td><a href=\"" ++ Markup.escape row.link ++ "\">" ++ Markup.escape row.name
    ++ "</a></td></tr>"

/-- The markup of a listing: a table, or a remark. -/
def render : Listing → String
  | .entries rows =>
    "<table class=\"files\">" ++ String.join (rows.map rowMarkup) ++ "</table>"
  | .empty => emptyRemark
  | .failed => failedRemark

/-! ## Log -/

def logTarget : String := "teapot_client::directory::listing"

/-- The events of reading a body: it is not JSON, or some of its elements are no resources. -/
def readingEvents (body : String) : List Log.Event :=
  match Value.read? body with
  | none => [⟨.debug, logTarget, "Listing body is not JSON", [("error", .display "invalid JSON")]⟩]
  | some (.array items) =>
    items.filterMap fun item =>
      match Resource.ofValue? item with
      | .ok _ => none
      | .error e =>
        some ⟨.debug, logTarget, "Skipping malformed resource", [("error", .display e.message)]⟩
  | some _ => []

end Listing
end PeerWatch.Directory
