import PeerWatch.Toml.Scalar

/-!
# Documents

A document is a sequence of headers and of keys with values, one a line. Keys belong to the table
that the header before them opened. A document is refused as a whole where any part of it is.
-/

namespace PeerWatch.Toml

/-! ## Values -/

mutual

/-- A value and the text after it. The first number bounds the steps of the reading, the second one
the levels of nesting. -/
def readValue : Nat → Nat → List Char → Option (Value × List Char)
  | 0, _, _ => none
  | n + 1, levels, cs =>
    match cs with
    | 't' :: 'r' :: 'u' :: 'e' :: rest => some (.bool true, rest)
    | 'f' :: 'a' :: 'l' :: 's' :: 'e' :: rest => some (.bool false, rest)
    | '[' :: rest =>
      if levels = 0 then none
      else (readItems n (levels - 1) rest).map fun (items, rest) => (.array items, rest)
    | '\x7b' :: rest =>
      if levels = 0 then none
      else
        match skipBlanks rest with
        | '\x7d' :: rest => some (.table .inline [], rest)
        | rest =>
          (readMembers n (levels - 1) [] rest).map fun (members, rest) =>
            (.table .inline members, rest)
    | c :: _ =>
      if c = '"' ∨ c = '\'' then
        (readString cs).map fun (s, rest) => (.string (String.ofList s), rest)
      else readScalar cs
    | [] => none

/-- The items of an array up to the closing bracket, after the opening one or a comma. -/
def readItems : Nat → Nat → List Char → Option (List Value × List Char)
  | 0, _, _ => none
  | n + 1, levels, cs =>
    match skipLines false cs with
    | ']' :: rest => some ([], rest)
    | cs =>
      match readValue n levels cs with
      | none => none
      | some (item, rest) =>
        match skipLines false rest with
        | ',' :: rest => (readItems n levels rest).map fun (items, rest) => (item :: items, rest)
        | ']' :: rest => some ([item], rest)
        | _ => none

/-- The members of a table in braces up to the closing one, added to those before them. -/
def readMembers : Nat → Nat → Members → List Char → Option (Members × List Char)
  | 0, _, _, _ => none
  | n + 1, levels, members, cs =>
    match readKey cs with
    | some (path, '=' :: rest) =>
      match readValue n levels (skipBlanks rest) with
      | none => none
      | some (value, rest) =>
        match members.assign value path with
        | none => none
        | some members =>
          match skipBlanks rest with
          | ',' :: rest => readMembers n levels members rest
          | '\x7d' :: rest => some (members, rest)
          | _ => none
    | _ => none

end

/-! ## Lines -/

/-- A document up to some line. -/
structure Draft where
  root : Members
  /-- The path of the table to which keys are added. -/
  current : List String

namespace Draft

def start : Draft := ⟨[], []⟩

def openTable (d : Draft) (path : List String) : Option Draft := do
  return ⟨← d.root.atLast Members.openTable path, path⟩

/-- One more table opened by a header in double brackets. -/
def openElement (d : Draft) (path : List String) : Option Draft := do
  return ⟨← d.root.atLast Members.openElement path, path⟩

def assign (d : Draft) (path : List String) (value : Value) : Option Draft := do
  return { d with root := ← d.root.within (Members.assign value path) d.current }

end Draft

/-- A header, a key with its value, or an empty line, with the text after it. -/
def readLine (d : Draft) (cs : List Char) : Option (Draft × List Char) :=
  match skipBlanks cs with
  | '[' :: '[' :: rest => do
    let (path, rest) ← readKey rest
    let rest ← expect ']' (← expect ']' rest)
    return (← d.openElement path, ← finishLine rest)
  | '[' :: rest => do
    let (path, rest) ← readKey rest
    return (← d.openTable path, ← finishLine (← expect ']' rest))
  | cs =>
    match finishLine cs with
    | some rest => some (d, rest)
    | none => do
      let (path, rest) ← readKey cs
      let rest := skipBlanks (← expect '=' rest)
      let (value, rest) ← readValue (rest.length + 1) (levelLimit - 1) rest
      return (← d.assign path value, ← finishLine rest)

/-- All lines of a text. The number bounds how many are read. -/
def readLines : Nat → Draft → List Char → Option Members
  | _, d, [] => some d.root
  | 0, _, _ => none
  | n + 1, d, cs => do
    let (d, rest) ← readLine d cs
    readLines n d rest

/-- The text after the mark with which a file may start. -/
def skipMark : List Char → List Char
  | '\ufeff' :: cs => cs
  | cs => cs

/-- The root table of a document. Every line but the last has a character at its end, so the length
of the text bounds how many there are. -/
def read? (s : String) : Option Members :=
  let cs := skipMark s.toList
  readLines (cs.length + 1) Draft.start cs

end PeerWatch.Toml
