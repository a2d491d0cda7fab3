import PeerWatch.Text.Blank
import PeerWatch.Uri.Component

/-!
# Locations

The parts of an absolute address of the web: whether it is secure, the host, the number of the
service on it, the path and the query. A reference is read on its own or relative to a location.
Backslashes count as slashes, segments of one or two dots are resolved, and what a request line
cannot hold is percent-encoded.
-/

namespace PeerWatch.Uri

structure Location where
  secure : Bool
  host : String
  /-- The number of the service on the host, unless it is the usual one. -/
  service : Option Nat
  /-- The segments of the path, each after a slash. -/
  segments : List String
  query : Option String
  deriving DecidableEq, Repr

namespace Location

/-- The number of a service that a location does not name. -/
def usualService (secure : Bool) : Nat := if secure then 443 else 80

/-- The number of the service by which a location is reached. -/
def reachedService (l : Location) : Nat := l.service.getD (usualService l.secure)

/-- The host with the number of the service, unless it is the usual one. -/
def authority (l : Location) : String :=
  match l.service with
  | some n => l.host ++ ":" ++ toString n
  | none => l.host

def target (l : Location) : String :=
  String.join (l.segments.map ("/" ++ ·))
    ++ match l.query with
      | some query => "?" ++ query
      | none => ""

/-- Whether two locations are on one service of one host. -/
def isBeside (l other : Location) : Bool :=
  l.host == other.host && l.reachedService == other.reachedService

/-! ## Reading -/

def isSlash (c : Char) : Bool := c == '/' || c == '\\'

def isEdge (c : Char) : Bool := c.toNat ≤ 0x20

/-- A reference without what is passed over in one: controls and spaces around it, and tabs and line
ends in it. -/
def tidy (cs : List Char) : List Char :=
  ((cs.dropWhile isEdge).reverse.dropWhile isEdge).reverse.filter
    fun c => c != '\t' && c != '\n' && c != '\r'

/-- Whether a character of a path or query is kept as it is, apart from the given ones. -/
def isPrintable (others : List Char) (c : Char) : Bool :=
  0x20 < c.toNat && c.toNat < 0x7F && ! others.contains c

/-- Encodes the characters that `keep` does not keep. -/
def encodeUnless (keep : Char → Bool) (cs : List Char) : String :=
  String.ofList (cs.flatMap fun c =>
    if keep c then [c] else (String.utf8EncodeChar c).flatMap escapeByte)

def encodeSegment (cs : List Char) : String :=
  encodeUnless (isPrintable ['"', '#', '<', '>', '?', '^', '\x60', '\x7b', '\x7d']) cs

def encodeQuery (cs : List Char) : String :=
  encodeUnless (isPrintable ['"', '#', '<', '>', '\'']) cs

/-- The name of a segment of dots, which may be encoded. -/
def dots (cs : List Char) : List Char :=
  match cs with
  | '%' :: '2' :: e :: rest => if e = 'e' ∨ e = 'E' then '.' :: rest else cs
  | '.' :: '%' :: '2' :: e :: rest => if e = 'e' ∨ e = 'E' then '.' :: '.' :: rest else cs
  | cs => cs

def isHere (cs : List Char) : Bool := dots cs == ['.']

def isAbove (cs : List Char) : Bool := dots (dots cs) == ['.', '.']

/-- Follows segments from a directory, given in reverse. A segment of dots at the end leads to a
directory. -/
def follow (directory : List String) : List (List Char) → List String
  | [] => directory.reverse
  | [last] =>
    if isAbove last then ("" :: directory.drop 1).reverse
    else if isHere last then ("" :: directory).reverse
    else (encodeSegment last :: directory).reverse
  | segment :: rest =>
    if isAbove segment then follow (directory.drop 1) rest
    else if isHere segment then follow directory rest
    else follow (encodeSegment segment :: directory) rest

/-- A text up to the first character of a sort, and from there on. -/
def breakAt (p : Char → Bool) (cs : List Char) : List Char × List Char :=
  (cs.takeWhile (! p ·), cs.dropWhile (! p ·))

/-- The path and the query of a reference. What follows a hash sign is passed over. -/
def splitQuery (cs : List Char) : List Char × Option (List Char) :=
  let (cs, _) := breakAt (· == '#') cs
  match breakAt (· == '?') cs with
  | (path, _ :: query) => (path, some query)
  | (path, []) => (path, none)

def pathSegments (cs : List Char) : List (List Char) :=
  Text.cut '/' (cs.map fun c => if isSlash c then '/' else c)

def fromRoot (cs : List Char) : List String :=
  follow [] (pathSegments (match cs with
    | c :: rest => if isSlash c then rest else cs
    | [] => []))

/-- The number of a service: digits, or nothing for the usual one. -/
def readService (secure : Bool) (cs : List Char) : Option (Option Nat) :=
  if ¬ cs.all Char.isDigit then none
  else
    let n := cs.foldl (fun n c => n * 10 + (c.toNat - '0'.toNat)) 0
    if cs.isEmpty ∨ n = usualService secure then some none
    else if n ≤ 65535 then some (some n) else none

/-- Whether a character may stand in the name of a host. -/
def isHostChar (c : Char) : Bool :=
  isPrintable ['#', '%', '/', ':', '<', '>', '?', '@', '[', '\\', ']', '^', '|', '"', '\x60'] c

/-- The host and the service of an authority. What precedes an at sign is passed over. -/
def readAuthority (secure : Bool) (cs : List Char) : Option (String × Option Nat) := do
  let cs := (cs.reverse.takeWhile (· != '@')).reverse
  let (host, rest) := match cs with
    | '[' :: _ =>
      let (inner, rest) := breakAt (· == ']') cs
      (inner ++ rest.take 1, rest.drop 1)
    | cs => breakAt (· == ':') cs
  let service ← match rest with
    | [] => some none
    | ':' :: digits => readService secure digits
    | _ => none
  let bare := if host.head? = some '[' then host.filter fun c => c != '[' && c != ']' && c != ':'
    else host
  if bare.isEmpty ∨ ¬ bare.all isHostChar then none
  else some (String.ofList (host.map Char.toLower), service)

def readRest (secure : Bool) (cs : List Char) : Option Location := do
  let (authority, rest) := breakAt (fun c => isSlash c || c == '?' || c == '#') cs
  let (host, service) ← readAuthority secure authority
  let (path, query) := splitQuery rest
  return ⟨secure, host, service, fromRoot path, query.map encodeQuery⟩

/-- The scheme of a reference in lower case, and what follows its colon. -/
def scheme? (cs : List Char) : Option (String × List Char) :=
  match breakAt (fun c => ! (c.isAlphanum || c == '+' || c == '-' || c == '.')) cs with
  | (c :: name, ':' :: rest) =>
    if c.isAlpha then some (String.ofList ((c :: name).map Char.toLower), rest) else none
  | _ => none

/-- Whether a scheme is secure, if it is one of the web. -/
def webScheme? : String → Option Bool
  | "http" => some false
  | "https" => some true
  | _ => none

def read? (s : String) : Option Location := do
  let (scheme, rest) ← scheme? (tidy s.toList)
  let secure ← webScheme? scheme
  readRest secure (rest.dropWhile isSlash)

/-- A reference without a scheme, relative to a location. -/
def resolveRelative (l : Location) (cs : List Char) : Option Location :=
  match cs with
  | [] => some l
  | '#' :: _ => some l
  | '?' :: _ => some { l with query := (splitQuery cs).2.map encodeQuery }
  | c :: rest =>
    let (path, query) := splitQuery cs
    let query := query.map encodeQuery
    if isSlash c then
      if (rest.head?.map isSlash).getD false then readRest l.secure (rest.dropWhile isSlash)
      else some { l with segments := fromRoot path, query }
    else
      some { l with segments := follow (l.segments.reverse.drop 1) (pathSegments path), query }

/-- The location to which a reference leads from a location. One that names the scheme of the
location without two slashes after it is relative. -/
def resolve? (l : Location) (reference : String) : Option Location :=
  let cs := tidy reference.toList
  match scheme? cs with
  | none => resolveRelative l cs
  | some (scheme, rest) =>
    match webScheme? scheme with
    | none => none
    | some secure =>
      if secure = l.secure ∧ rest.take 2 ≠ ['/', '/'] then resolveRelative l rest
      else readRest secure (rest.dropWhile isSlash)

end Location
end PeerWatch.Uri
