import PeerWatch.Text.Hexadecimal

/-!
# Components of a URI

Percent-encoding of a text as one component of a URI, and the reading of escapes back. The encoder
works on the bytes of the text; the reader turns each escape into one code point.
-/

namespace PeerWatch.Uri

open PeerWatch.Text (hexValue?)

/-- The characters that stand for themselves in a component. -/
def isUnreserved (c : Char) : Bool :=
  c.isAlphanum || c == '-' || c == '_' || c == '.' || c == '!' || c == '~' || c == '*' || c == '\''
    || c == '(' || c == ')'

/-- A digit below sixteen, in upper case. -/
def hexUpper (n : Nat) : Char :=
  if n < 10 then Char.ofNat ('0'.toNat + n) else Char.ofNat ('A'.toNat + (n - 10))

def escapeByte (b : UInt8) : List Char :=
  ['%', hexUpper (b.toNat / 16), hexUpper (b.toNat % 16)]

def encodeChar (c : Char) : List Char :=
  if isUnreserved c then [c] else (String.utf8EncodeChar c).flatMap escapeByte

def encodeChars (cs : List Char) : List Char := cs.flatMap encodeChar

def encode (s : String) : String := String.ofList (encodeChars s.toList)

/-- The value of hexadecimal digits, the first of which weighs most. -/
def hexNumber? (cs : List Char) : Option Nat :=
  cs.foldlM (fun n c => (hexValue? c).map (16 * n + ·)) 0

/-- The character with this code point, unless it is half of a surrogate pair. -/
def charOfCode? (n : Nat) : Option Char :=
  if n.isValidChar then some (Char.ofNat n) else none

/-- The character that an escape stands for and the length of the escape, given what follows its
percent sign: either `u` and four digits, or two digits. -/
def escapeAhead? : List Char → Option (Char × Nat)
  | 'u' :: a :: b :: c :: d :: _ => do
    let n ← hexNumber? [a, b, c, d]
    let ch ← charOfCode? n
    return (ch, 5)
  | a :: b :: _ => do
    let n ← hexNumber? [a, b]
    return (Char.ofNat n, 2)
  | _ => none

/-- The text with its escapes replaced by the characters they stand for. A percent sign that starts
no escape is kept. -/
def unescapeChars : List Char → List Char
  | [] => []
  | c :: cs =>
    if c = '%' then
      match escapeAhead? cs with
      | some (ch, n) => ch :: unescapeChars (cs.drop n)
      | none => '%' :: unescapeChars cs
    else c :: unescapeChars cs
termination_by cs => cs.length
decreasing_by all_goals simp; try omega

/-- The text with its escapes replaced by the characters they stand for. -/
def unescape (s : String) : String := String.ofList (unescapeChars s.toList)

/-- The URL with `key=value` appended to its query, which is started if there is none. -/
def appendParam (url key value : String) : String :=
  let sep := if url.toList.contains '?' then "&" else "?"
  url ++ sep ++ encode key ++ "=" ++ encode value

end PeerWatch.Uri
