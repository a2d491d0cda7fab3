import PeerWatch.Text.Blank
import PeerWatch.Uri.Component

/-!
# Cookies of a session

The name and value pairs of a `Cookie` header in header order. Values are kept as they were sent and
unescaped when they are looked up; a name may occur more than once, and the first occurrence counts.
-/

namespace PeerWatch.Session

/-- The cookies of one session, in header order. -/
structure CookieJar where
  pairs : List (String × String)
  deriving DecidableEq, Repr

namespace CookieJar

def empty : CookieJar := ⟨[]⟩

/-- One piece of a header: a name and a value around the first equals sign, or a name alone. -/
def pairOf (piece : List Char) : String × String :=
  match Text.cutOnce '=' piece with
  | some (name, value) => (String.ofList (Text.trim name), String.ofList value)
  | none => (String.ofList piece, "")

/-- The cookies of a header. Blanks around the pieces between semicolons do not count, nor do pieces
that consist of blanks only. -/
def parse (header : String) : CookieJar :=
  ⟨((Text.cut ';' header.toList).map Text.trim).filter (! ·.isEmpty) |>.map pairOf⟩

def pairText (pair : String × String) : List Char := pair.1.toList ++ '=' :: pair.2.toList

def toHeader (jar : CookieJar) : String :=
  String.ofList (Text.join [';', ' '] (jar.pairs.map pairText))

/-- The value of the first cookie of a name, as it was sent. -/
def raw? (jar : CookieJar) (name : String) : Option String :=
  (jar.pairs.find? (·.1 = name)).map (·.2)

def get? (jar : CookieJar) (name : String) : Option String := (jar.raw? name).map Uri.unescape

def names (jar : CookieJar) : List String := jar.pairs.map (·.1)

/-- Whether a cookie is there and does not unescape to nothing. -/
def isSet (jar : CookieJar) (name : String) : Bool := (jar.get? name).any (! ·.isEmpty)

/-- Gives the first pair of a name a new value, or puts a new pair at the end. -/
def setPair (name value : String) : List (String × String) → List (String × String)
  | [] => [(name, value)]
  | (n, v) :: rest => if n = name then (n, value) :: rest else (n, v) :: setPair name value rest

/-- The cookies with the first one of a name set, in its place or at the end. -/
def set (jar : CookieJar) (name value : String) : CookieJar := ⟨setPair name value jar.pairs⟩

def remove (jar : CookieJar) (name : String) : CookieJar := ⟨jar.pairs.filter (·.1 ≠ name)⟩

def isEmpty (jar : CookieJar) : Bool := jar.pairs.isEmpty

end CookieJar
end PeerWatch.Session
