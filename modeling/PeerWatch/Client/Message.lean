import PeerWatch.Text.Blank
import PeerWatch.Uri.Location

/-!
# Requests and responses

The bytes of a request, and the reading of a response: a head of lines up to an empty one, and a
body that has an announced length, comes in chunks, or lasts until the connection is closed. A body
that ends before it is whole is told from one that is.
-/

namespace PeerWatch.Client

open PeerWatch.Uri (Location)

structure Request where
  location : Location
  cookie : Option String
  deriving DecidableEq, Repr

def acceptedContent : String := "application/json"

def isHeaderValue (s : String) : Bool :=
  s.toList.all fun c => c == '\t' || (0x20 ≤ c.toNat && c.toNat != 0x7F)

/-- The text that asks for a location, after which the connection is to be closed. -/
def Request.text (r : Request) : String :=
  "GET " ++ r.location.target ++ " HTTP/1.1\r\naccept: " ++ acceptedContent ++ "\r\n"
    ++ (match r.cookie with
      | some cookie => "cookie: " ++ cookie ++ "\r\n"
      | none => "")
    ++ "host: " ++ r.location.authority ++ "\r\nconnection: close\r\n\r\n"

structure Response where
  status : Nat
  /-- Where the response refers to. -/
  location : Option String
  body : List UInt8
  /-- Whether the body is whole. -/
  whole : Bool
  deriving DecidableEq, Repr

/-- What bytes amount to that were received so far. -/
inductive Reading
  | response (r : Response)
  | unfinished
  | malformed
  deriving DecidableEq, Repr

/-! ## Heads -/

/-- A line without the carriage return at its end, given in reverse. -/
def lineOf : List UInt8 → List UInt8
  | 13 :: line => line.reverse
  | line => line.reverse

/-- The lines up to an empty one, and what follows it. `line` is the current line in reverse. -/
def headLines (line : List UInt8) : List UInt8 → Option (List (List UInt8) × List UInt8)
  | [] => none
  | b :: rest =>
    if b = 10 then
      match lineOf line with
      | [] => some ([], rest)
      | first => (headLines [] rest).map fun (lines, rest) => (first :: lines, rest)
    else headLines (b :: line) rest

def charsOf (bytes : List UInt8) : List Char := bytes.map fun b => Char.ofNat b.toNat

def numberOf? (cs : List Char) : Option Nat :=
  if cs.isEmpty ∨ ¬ cs.all Char.isDigit then none
  else some (cs.foldl (fun n c => n * 10 + (c.toNat - '0'.toNat)) 0)

def statusOf? (line : List UInt8) : Option Nat := do
  let rest ← Text.dropStart? "HTTP/1.".toList (charsOf line)
  let (_, rest) ← Text.cutOnce ' ' rest
  if (rest.drop 3).head?.getD ' ' = ' ' then numberOf? (rest.take 3) else none

/-- The name of a header in lower case, with its value. -/
def headerOf? (line : List UInt8) : Option (String × List UInt8) := do
  let cs := charsOf line
  let (name, value) ← Text.cutOnce ':' cs
  let lead := (value.takeWhile Text.isBlank).length
  let kept := (Text.trim value).length
  return (String.ofList (name.map Char.toLower), ((line.drop (name.length + 1 + lead)).take kept))

def header? (headers : List (String × List UInt8)) (name : String) : Option (List UInt8) :=
  (headers.find? (·.1 = name)).map (·.2)

/-! ## Bodies -/

/-- How the end of a body is known. -/
inductive Framing
  | length (n : Nat)
  | chunks
  | close
  deriving DecidableEq, Repr

def framingOf (status : Nat) (headers : List (String × List UInt8)) : Framing :=
  if status = 204 ∨ status = 304 then .length 0
  else if (header? headers "transfer-encoding").isSome then .chunks
  else
    match (header? headers "content-length").bind fun v => numberOf? (charsOf v) with
    | some n => .length n
    | none => .close

def chunkLength? (line : List Char) : Option Nat :=
  let digits := line.takeWhile fun c => (Text.hexValue? c).isSome
  if digits.isEmpty then none else Uri.hexNumber? digits

/-- The contents of chunks, and whether the last one was seen. A chunk takes at least one byte, so
there are at most `fuel` of them in as many bytes. -/
def readChunks : (fuel : Nat) → List UInt8 → List UInt8 × Bool
  | 0, _ => ([], false)
  | fuel + 1, bytes =>
    let line := bytes.takeWhile (· != 10)
    match chunkLength? (charsOf line) with
    | none => ([], false)
    | some 0 => ([], true)
    | some n =>
      let rest := bytes.drop (line.length + 1)
      if rest.length < n then (rest, false)
      else
        let (others, whole) := readChunks fuel (((rest.drop n).dropWhile (· != 10)).drop 1)
        (rest.take n ++ others, whole)

/-- The body in the bytes after a head, and whether it is whole. `ended` tells whether the
connection is closed. -/
def readBody (framing : Framing) (ended : Bool) (bytes : List UInt8) : List UInt8 × Bool :=
  match framing with
  | .length n => (bytes.take n, n ≤ bytes.length)
  | .chunks => readChunks bytes.length bytes
  | .close => (bytes, ended)

def Response.read (ended : Bool) (bytes : List UInt8) : Reading :=
  match headLines [] bytes with
  | none => if ended then .malformed else .unfinished
  | some ([], _) => .malformed
  | some (first :: lines, rest) =>
    match statusOf? first with
    | none => .malformed
    | some status =>
      let headers := lines.filterMap headerOf?
      let (body, whole) := readBody (framingOf status headers) ended rest
      if whole || ended then
        .response ⟨status,
          (header? headers "location").bind fun v => String.fromUTF8? ⟨v.toArray⟩, body, whole⟩
      else .unfinished

end PeerWatch.Client
