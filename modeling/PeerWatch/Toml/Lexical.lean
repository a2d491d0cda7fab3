import PeerWatch.Text.Hexadecimal

/-!
# Characters, lines, strings and keys of TOML

Readers take the characters of a text and return what they read with the characters after it.
-/

namespace PeerWatch.Toml

open PeerWatch.Text (hexValue?)

def isBlank (c : Char) : Bool := c == ' ' || c == '\t'

def skipBlanks (cs : List Char) : List Char := cs.dropWhile isBlank

/-- Characters that may stand for themselves: all but control characters, tabs excepted. -/
def isPlain (c : Char) : Bool := c == '\t' || (0x20 ≤ c.toNat && c.toNat != 0x7F)

/-! ## Lines -/

/-- The text after a comment, which does not include the end of its line. -/
def skipComment : List Char → List Char
  | '#' :: cs => cs.dropWhile isPlain
  | cs => cs

def endLine : List Char → Option (List Char)
  | [] => some []
  | '\n' :: cs => some cs
  | '\r' :: '\n' :: cs => some cs
  | _ => none

/-- The text after a line of which only blanks and a comment are left. -/
def finishLine (cs : List Char) : Option (List Char) := endLine (skipComment (skipBlanks cs))

/-- The text after blanks, ends of lines and comments. A comment with a character that must not
stand in it is left at that character. -/
def skipLines (inComment : Bool) : List Char → List Char
  | [] => []
  | '\n' :: cs => skipLines false cs
  | '\r' :: '\n' :: cs => skipLines false cs
  | c :: cs =>
    if inComment then if isPlain c then skipLines true cs else c :: cs
    else if isBlank c then skipLines false cs
    else if c = '#' then skipLines true cs
    else c :: cs

/-! ## Strings -/

/-- The character whose code is written in hexadecimal digits. -/
def charOfHex? (digits : List Char) : Option Char := do
  let n ← digits.foldlM (fun n c => (hexValue? c).map (n * 16 + ·)) 0
  if n.isValidChar then some (Char.ofNat n) else none

def escaped? : Char → Option Char
  | 'b' => some '\x08'
  | 't' => some '\t'
  | 'n' => some '\n'
  | 'f' => some '\x0c'
  | 'r' => some '\r'
  | '"' => some '"'
  | '\\' => some '\\'
  | _ => none

def prepend (c : Char) (r : List Char × List Char) : List Char × List Char := (c :: r.1, r.2)

def readBasic : List Char → Option (List Char × List Char)
  | [] => none
  | '"' :: rest => some ([], rest)
  | '\\' :: 'u' :: a :: b :: c :: d :: rest => do
    return prepend (← charOfHex? [a, b, c, d]) (← readBasic rest)
  | '\\' :: 'U' :: a :: b :: c :: d :: e :: f :: g :: h :: rest => do
    return prepend (← charOfHex? [a, b, c, d, e, f, g, h]) (← readBasic rest)
  | '\\' :: c :: rest => do return prepend (← escaped? c) (← readBasic rest)
  | c :: rest =>
    if isPlain c ∧ c ≠ '\\' then (readBasic rest).map (prepend c) else none

def readLiteral : List Char → Option (List Char × List Char)
  | [] => none
  | '\'' :: rest => some ([], rest)
  | c :: rest => if isPlain c then (readLiteral rest).map (prepend c) else none

/-- The end of a string of many lines, after its closing quotes: up to two more quotes belong to
the string. -/
def closeLines (quote : Char) : List Char → List Char × List Char
  | a :: b :: rest =>
    if a ≠ quote then ([], a :: b :: rest)
    else if b ≠ quote then ([a], b :: rest)
    else ([a, b], rest)
  | [a] => if a = quote then ([a], []) else ([], [a])
  | [] => ([], [])

/-- The text after the end of a line that directly follows opening quotes. -/
def skipFirstLine : List Char → List Char
  | '\n' :: cs => cs
  | '\r' :: '\n' :: cs => cs
  | cs => cs

/-- What a backslash at the end of a line takes away. -/
inductive Joint
  /-- Nothing. -/
  | off
  /-- Blanks up to the end of the line, which must follow. -/
  | pending
  /-- Blanks and ends of lines. -/
  | skipping
  deriving DecidableEq, Repr

/-- The rest of a string of many lines in double quotes. The end of a line counts as one character
however it is written. -/
def readBasicLines : Joint → List Char → Option (List Char × List Char)
  | _, [] => none
  | .pending, '\n' :: rest => readBasicLines .skipping rest
  | .pending, '\r' :: '\n' :: rest => readBasicLines .skipping rest
  | .pending, c :: rest => if isBlank c then readBasicLines .pending rest else none
  | .skipping, '\n' :: rest => readBasicLines .skipping rest
  | .skipping, '\r' :: '\n' :: rest => readBasicLines .skipping rest
  | .off, '\n' :: rest => (readBasicLines .off rest).map (prepend '\n')
  | .off, '\r' :: '\n' :: rest => (readBasicLines .off rest).map (prepend '\n')
  | _, '"' :: '"' :: '"' :: rest => some (closeLines '"' rest)
  | _, '\\' :: 'u' :: a :: b :: c :: d :: rest => do
    return prepend (← charOfHex? [a, b, c, d]) (← readBasicLines .off rest)
  | _, '\\' :: 'U' :: a :: b :: c :: d :: e :: f :: g :: h :: rest => do
    return prepend (← charOfHex? [a, b, c, d, e, f, g, h]) (← readBasicLines .off rest)
  | _, '\\' :: '\n' :: rest => readBasicLines .skipping rest
  | _, '\\' :: '\r' :: '\n' :: rest => readBasicLines .skipping rest
  | _, '\\' :: c :: rest =>
    if isBlank c then readBasicLines .pending rest
    else do return prepend (← escaped? c) (← readBasicLines .off rest)
  | joint, c :: rest =>
    if joint = .skipping ∧ isBlank c then readBasicLines .skipping rest
    else if isPlain c ∧ c ≠ '\\' then (readBasicLines .off rest).map (prepend c)
    else none

/-- The rest of a string of many lines in single quotes. -/
def readLiteralLines : List Char → Option (List Char × List Char)
  | [] => none
  | '\'' :: '\'' :: '\'' :: rest => some (closeLines '\'' rest)
  | '\n' :: rest => (readLiteralLines rest).map (prepend '\n')
  | '\r' :: '\n' :: rest => (readLiteralLines rest).map (prepend '\n')
  | c :: rest => if isPlain c then (readLiteralLines rest).map (prepend c) else none

def readString : List Char → Option (List Char × List Char)
  | '"' :: '"' :: '"' :: rest => readBasicLines .off (skipFirstLine rest)
  | '"' :: rest => readBasic rest
  | '\'' :: '\'' :: '\'' :: rest => readLiteralLines (skipFirstLine rest)
  | '\'' :: rest => readLiteral rest
  | _ => none

/-! ## Keys -/

def isBare (c : Char) : Bool := c.isAlphanum || c == '-' || c == '_'

def readKeyPart : List Char → Option (List Char × List Char)
  | '"' :: rest => readBasic rest
  | '\'' :: rest => readLiteral rest
  | cs =>
    match cs.takeWhile isBare with
    | [] => none
    | part => some (part, cs.dropWhile isBare)

/-- The parts of a key with points between them. The number bounds how many are read. -/
def readKeyParts : Nat → List Char → Option (List String × List Char)
  | 0, _ => none
  | n + 1, cs => do
    let (part, rest) ← readKeyPart (skipBlanks cs)
    match skipBlanks rest with
    | '.' :: rest => do
      let (parts, rest) ← readKeyParts n rest
      return (String.ofList part :: parts, rest)
    | rest => return ([String.ofList part], rest)

/-- Keys have fewer parts, and values fewer levels, than this. -/
def levelLimit : Nat := 80

def readKey (cs : List Char) : Option (List String × List Char) := readKeyParts (levelLimit - 1) cs

end PeerWatch.Toml
