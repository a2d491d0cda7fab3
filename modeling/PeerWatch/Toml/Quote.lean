import PeerWatch.Toml.Lexical

/-!
# Writing TOML strings

A string is written in the plainest of the four forms that can hold it: on one line in double quotes
or in single quotes, on many lines in double or in single quotes. Only what no form can hold as it
is gets escapes.
-/

namespace PeerWatch.Toml

/-- Whether `quote` occurs at least `n` times in a row; `seen` of them stand before the text. -/
def hasRun (quote : Char) (n seen : Nat) : List Char → Bool
  | [] => n ≤ seen
  | c :: cs => n ≤ seen || hasRun quote n (if c = quote then seen + 1 else 0) cs

/-- Whether a text holds control characters other than tabs and ends of lines. -/
def hasControl (cs : List Char) : Bool := cs.any fun c => ! isPlain c && c != '\n'

def hexDigit (n : Nat) : Char :=
  if n < 10 then Char.ofNat ('0'.toNat + n) else Char.ofNat ('A'.toNat + (n - 10))

def codeEscape (c : Char) : List Char :=
  ['\\', 'u', '0', '0', hexDigit (c.toNat / 16), hexDigit (c.toNat % 16)]

/-- A character within double quotes, other than a quote. -/
def escapeChar (manyLines : Bool) (c : Char) : List Char :=
  match c with
  | '\x08' => ['\\', 'b']
  | '\t' => ['\\', 't']
  | '\n' => if manyLines then ['\n'] else ['\\', 'n']
  | '\x0c' => ['\\', 'f']
  | '\r' => ['\\', 'r']
  | '\\' => ['\\', '\\']
  | c => if isPlain c then [c] else codeEscape c

def escape (cs : List Char) : List Char :=
  cs.flatMap fun c => if c = '"' then ['\\', '"'] else escapeChar false c

/-- The text within double quotes on many lines, where every third quote in a row is escaped; `seen`
quotes stand unescaped before it. -/
def escapeLines (seen : Nat) : List Char → List Char
  | [] => []
  | c :: cs =>
    if c = '"' then
      if seen < 2 then c :: escapeLines (seen + 1) cs else '\\' :: '"' :: escapeLines 0 cs
    else escapeChar true c ++ escapeLines 0 cs

/-- The start of a string on many lines: the end of a line, if the text has one itself. -/
def firstLine (cs : List Char) : List Char := if cs.contains '\n' then ['\n'] else []

/-- The forms of a string. -/
inductive Form
  | basic
  | literal
  | basicLines
  | literalLines
  deriving DecidableEq, Repr

/-- The first form that can hold a text as it is, or else the one that holds it with escapes. -/
def Form.choose (cs : List Char) : Form :=
  let newline := cs.contains '\n'
  let control := hasControl cs
  let backslash := cs.contains '\\'
  if ¬ control ∧ ¬ newline ∧ ¬ backslash ∧ ¬ hasRun '"' 1 0 cs then .basic
  else if ¬ control ∧ ¬ newline ∧ ¬ hasRun '\'' 1 0 cs then .literal
  else if ¬ control ∧ ¬ backslash ∧ ¬ hasRun '"' 3 0 cs then .basicLines
  else if ¬ control ∧ ¬ hasRun '\'' 3 0 cs then .literalLines
  else if newline then .basicLines
  else .basic

def Form.write (cs : List Char) : Form → List Char
  | .basic => ['"'] ++ escape cs ++ ['"']
  | .literal => ['\''] ++ cs ++ ['\'']
  | .basicLines => ['"', '"', '"'] ++ firstLine cs ++ escapeLines 0 cs ++ ['"', '"', '"']
  | .literalLines => ['\'', '\'', '\''] ++ firstLine cs ++ cs ++ ['\'', '\'', '\'']

def quote (s : String) : String :=
  String.ofList ((Form.choose s.toList).write s.toList)

end PeerWatch.Toml
