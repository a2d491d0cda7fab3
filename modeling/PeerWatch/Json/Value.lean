import PeerWatch.Json.Raw

/-!
# JSON values

Values kept for later use: numbers in range, strings of whole characters, at most 127 levels of
nesting. A key that an object repeats keeps its last value. The printer writes values without
blanks, or with one member a line.
-/

namespace PeerWatch.Json

inductive Value
  | null
  | bool (b : Bool)
  | number (n : Number)
  | string (s : String)
  | array (items : List Value)
  | object (members : List (String × Value))

/-- Puts a member into an object: over the member with the same key, or at the end. -/
def putMember (key : String) (value : Value) : List (String × Value) → List (String × Value)
  | [] => [(key, value)]
  | (k, v) :: rest =>
    if k = key then (key, value) :: rest else (k, v) :: putMember key value rest

/-! ## Reading -/

def maxDepth : Nat := 127

mutual

/-- The value of a tree of at most `depth` levels. -/
def Raw.value? : Nat → Raw → Option Value
  | _, .null => some .null
  | _, .bool b => some (.bool b)
  | _, .number t => t.value?.map .number
  | _, .string units => (textOfUnits units).map .string
  | depth, .array items =>
    match depth with
    | 0 => none
    | depth + 1 => (rawValues? depth items).map .array
  | depth, .object members =>
    match depth with
    | 0 => none
    | depth + 1 => (rawMembers? depth members []).map .object

/-- The values of trees of at most `depth` levels. -/
def rawValues? : Nat → List Raw → Option (List Value)
  | _, [] => some []
  | depth, item :: items => do
    let value ← item.value? depth
    let values ← rawValues? depth items
    return value :: values

/-- The members of an object, put one after the other into `members`. -/
def rawMembers? : Nat → List (List Unit16 × Raw) → List (String × Value) →
    Option (List (String × Value))
  | _, [], members => some members
  | depth, (key, raw) :: rest, members => do
    let key ← textOfUnits key
    let value ← raw.value? depth
    rawMembers? depth rest (putMember key value members)

end

def Value.read? (s : String) : Option Value := Raw.read? s.toList >>= Raw.value? maxDepth

def member? (key : String) (members : List (String × Value)) : Option Value :=
  (members.find? (·.1 = key)).map (·.2)

/-! ## Writing -/

def hexDigit (n : Nat) : Char :=
  if n < 10 then Char.ofNat ('0'.toNat + n) else Char.ofNat ('a'.toNat + (n - 10))

def writeChar (c : Char) : List Char :=
  match c with
  | '"' => ['\\', '"']
  | '\\' => ['\\', '\\']
  | '\x08' => ['\\', 'b']
  | '\x0c' => ['\\', 'f']
  | '\n' => ['\\', 'n']
  | '\r' => ['\\', 'r']
  | '\t' => ['\\', 't']
  | c =>
    if c.toNat < 0x20 then
      ['\\', 'u', '0', '0', hexDigit (c.toNat / 16), hexDigit (c.toNat % 16)]
    else [c]

def writeString (s : String) : List Char := '"' :: s.toList.flatMap writeChar ++ ['"']

mutual

/-- The text of a value, without blanks. -/
def Value.write : Value → List Char
  | .null => "null".toList
  | .bool b => (if b then "true" else "false").toList
  | .number n => n.text
  | .string s => writeString s
  | .array items => '[' :: writeItems items ++ [']']
  | .object members => '\x7b' :: writeMembers members ++ ['\x7d']

def writeItems : List Value → List Char
  | [] => []
  | [item] => item.write
  | item :: items => item.write ++ ',' :: writeItems items

def writeMembers : List (String × Value) → List Char
  | [] => []
  | [(key, value)] => writeString key ++ ':' :: value.write
  | (key, value) :: rest => writeString key ++ ':' :: value.write ++ ',' :: writeMembers rest

end

/-- The text of a value, without blanks. -/
def Value.compact (v : Value) : String := String.ofList v.write

def newLine (level : Nat) : List Char := '\n' :: List.replicate (2 * level) ' '

mutual

/-- The text of a value with one item or member a line, two blanks a level. -/
def Value.writeLines (level : Nat) : Value → List Char
  | .array [] => ['[', ']']
  | .array (item :: items) =>
    '[' :: newLine (level + 1) ++ item.writeLines (level + 1) ++ writeItemLines (level + 1) items
      ++ newLine level ++ [']']
  | .object [] => ['\x7b', '\x7d']
  | .object ((key, value) :: rest) =>
    '\x7b' :: newLine (level + 1) ++ writeString key ++ [':', ' '] ++ value.writeLines (level + 1)
      ++ writeMemberLines (level + 1) rest ++ newLine level ++ ['\x7d']
  | v => v.write

def writeItemLines (level : Nat) : List Value → List Char
  | [] => []
  | item :: items => ',' :: newLine level ++ item.writeLines level ++ writeItemLines level items

def writeMemberLines (level : Nat) : List (String × Value) → List Char
  | [] => []
  | (key, value) :: rest =>
    ',' :: newLine level ++ writeString key ++ [':', ' '] ++ value.writeLines level
      ++ writeMemberLines level rest

end

/-- The text of a value with one item or member a line. -/
def Value.pretty (v : Value) : String := String.ofList (v.writeLines 0)

end PeerWatch.Json
