import PeerWatch.Text.Alphanumeric
import PeerWatch.Text.Blank
import PeerWatch.Text.Hexadecimal

/-!
# Patterns for values

A directive of a log filter may ask for a field with a certain value: a number, or a regular
expression that the value matches. No event of this program is told apart by a value, so only
whether one can be read matters here: what the groups, classes, escapes and repetitions of an
expression have to look like. Repetitions are counted in braces; a directive ends a value at the
closing one, so a count never ends.
-/

namespace PeerWatch.Log.ValuePattern

/-- How an expression is read from some place on. -/
structure Mode where
  /-- Blanks, and comments up to the end of the line, are skipped. -/
  verbose : Bool
  /-- Characters of all scripts are meant, not only those of ASCII. -/
  unicode : Bool
  deriving DecidableEq, Repr

/-- A part of an expression that stands for itself. -/
inductive Atom
  | letter (c : Char)
  /-- One character of a set. -/
  | set
  /-- A place between characters. -/
  | edge
  deriving DecidableEq, Repr

/-! ## What is skipped -/

/-- Skips what the mode skips, and dashes if they count for nothing. -/
def Mode.skipAll (m : Mode) (dashes inComment : Bool) : List Char → List Char
  | [] => []
  | c :: cs =>
    if inComment then m.skipAll dashes (c != '\n') cs
    else if (dashes && c == '-') || (m.verbose && Text.isBlank c) then m.skipAll dashes false cs
    else if m.verbose && c == '#' then m.skipAll dashes true cs
    else c :: cs

def Mode.skip (m : Mode) : List Char → List Char := m.skipAll false false

/-! ## Escapes -/

/-- A number of hexadecimal digits, after digits of some value. -/
def Mode.readDigits (m : Mode) (value : Nat) : (digits : Nat) → List Char → Option (Nat × List Char)
  | 0, cs => some (value, cs)
  | _ + 1, [] => none
  | n + 1, c :: cs =>
    (Text.hexValue? c).bind fun d => m.readDigits (16 * value + d) n (m.skip cs)

/-- The character with a code of so many digits. Of two digits are the codes of bytes, and those
beyond ASCII are no characters. -/
def Mode.readCode (m : Mode) (digits : Nat) (cs : List Char) : Option (Atom × List Char) := do
  let (n, rest) ← m.readDigits 0 digits (m.skip cs)
  if n.isValidChar && (m.unicode || digits != 2 || n < 0x80) then
    some (.letter (Char.ofNat n), rest)
  else none

/-- The letters that name a class of Unicode categories. -/
def categoryLetters : List Char := "CLMNPSZclmnpsz".toList

def Mode.readCategory (m : Mode) (cs : List Char) : Option (Atom × List Char) :=
  match m.skip cs with
  | [] => none
  | c :: rest => if m.unicode && categoryLetters.contains c then some (.set, m.skip rest) else none

/-- The control characters that are written as a letter. -/
def controlOf? : Char → Option Char
  | 'a' => some '\x07'
  | 'f' => some '\x0c'
  | 'n' => some '\n'
  | 'r' => some '\r'
  | 't' => some '\t'
  | 'v' => some '\x0b'
  | _ => none

/-- What is escaped, after the backslash. The edges of words are judged by the words of ASCII, and
sets that leave out letters hold more than ASCII. -/
def Mode.readEscape (m : Mode) : List Char → Option (Atom × List Char)
  | [] => none
  | 'x' :: cs => m.readCode 2 cs
  | 'u' :: cs => m.readCode 4 cs
  | 'U' :: cs => m.readCode 8 cs
  | 'p' :: cs => m.readCategory cs
  | 'P' :: cs => m.readCategory cs
  | c :: cs =>
    if ['d', 's', 'w'].contains c then some (.set, cs)
    else if ['D', 'S', 'W'].contains c then if m.unicode then some (.set, cs) else none
    else if ['A', 'z'].contains c then some (.edge, cs)
    else if ['b', 'B', '<', '>'].contains c then if m.unicode then none else some (.edge, cs)
    else
      match controlOf? c with
      | some d => some (.letter d, cs)
      | none => if c.toNat < 0x80 && !c.isAlphanum then some (.letter c, cs) else none

/-! ## Classes -/

/-- The start of a class, after its bracket. Dashes there mean themselves, and so does a closing
bracket. What is left when something is taken away is more than ASCII. -/
def Mode.openClass (m : Mode) (cs : List Char) : Option (List Char) :=
  let members := fun cs =>
    match m.skip cs with
    | '-' :: rest => m.skipAll true false rest
    | ']' :: rest => rest
    | cs => cs
  match m.skip cs with
  | '^' :: rest => if m.unicode then some (members rest) else none
  | cs => some (members cs)

def Mode.readMember (m : Mode) (cs : List Char) : Option (Atom × List Char) := do
  let (atom, rest) ← match cs with
    | [] => none
    | '\\' :: cs => m.readEscape cs
    | c :: cs => some (.letter c, cs)
  match atom with
  | .letter c => if m.unicode || c.toNat < 0x80 then some (atom, rest) else none
  | .set => some (atom, rest)
  | .edge => none

/-- A member of a class, or a range of characters. The ends of a range are in order. -/
def Mode.readMembers (m : Mode) (cs : List Char) : Option (List Char) := do
  let (first, rest) ← m.readMember cs
  match m.skip rest with
  | '-' :: more =>
    match m.skip more with
    | ']' :: _ => some ('-' :: more)
    | '-' :: _ => some ('-' :: more)
    | cs =>
      let (last, rest) ← m.readMember cs
      match first, last with
      | .letter a, .letter b => if a ≤ b then some rest else none
      | _, _ => none
  | rest => some rest

/-- The rest of a class inside of `depth` others, in at most `steps` steps. -/
def Mode.readClass (m : Mode) : (steps : Nat) → (depth : Nat) → List Char → Option (List Char)
  | 0, _, _ => none
  | steps + 1, depth, cs =>
    match m.skip cs with
    | [] => none
    | '[' :: rest => (m.openClass rest).bind (m.readClass steps (depth + 1))
    | ']' :: rest =>
      match depth with
      | 0 => some rest
      | depth + 1 => m.readClass steps depth rest
    | '&' :: '&' :: rest => m.readClass steps depth rest
    | '-' :: '-' :: rest => m.readClass steps depth rest
    | '~' :: '~' :: rest => m.readClass steps depth rest
    | rest => (m.readMembers rest).bind (m.readClass steps depth)

/-! ## Groups -/

def flagLetters : List Char := "imsUuRx".toList

/-- Flags up to the colon or the bracket after them, each at most once: the mode that they set, and
whether it was the bracket. Those after a dash, which needs some, are switched off. -/
def Mode.readFlags (m : Mode) (seen : List Char) : List Char → Option (Mode × Bool × List Char)
  | [] => none
  | c :: cs =>
    let on := !seen.contains '-'
    if c = ':' ∨ c = ')' then
      if seen.head? = some '-' ∨ (c = ')' ∧ seen = []) then none else some (m, c = ')', cs)
    else if seen.contains c then none
    else if c = 'u' then { m with unicode := on }.readFlags (c :: seen) cs
    else if c = 'x' then { m with verbose := on }.readFlags (c :: seen) cs
    else if c = '-' ∨ c ∈ flagLetters then m.readFlags (c :: seen) cs
    else none

/-- The name of a group, up to a closing angle bracket. -/
def readName (cs : List Char) : Option (List Char × List Char) := do
  let (name, rest) ← Text.cutOnce '>' cs
  let c ← name.head?
  if (c == '_' || Text.isAlphabetic c)
      && name.all fun c => ['_', '.', '[', ']'].contains c || Text.isAlphanumeric c then
    some (name, rest)
  else none

/-! ## Expressions -/

/-- What was learnt from the part of an expression that was read. -/
structure Reading where
  mode : Mode
  /-- The modes outside of the groups that are open, the innermost first. -/
  outer : List Mode
  /-- The names of groups, of which no two are the same. -/
  names : List (List Char)
  /-- Something was read last that can be repeated. -/
  repeatable : Bool
  deriving DecidableEq, Repr

namespace Reading

def start : Reading := ⟨⟨false, true⟩, [], [], false⟩

def enter (r : Reading) (mode : Mode) : Reading :=
  { r with mode, outer := r.mode :: r.outer, repeatable := false }

def enterNamed (r : Reading) (cs : List Char) : Option (Reading × List Char) := do
  let (name, rest) ← readName cs
  if r.names.contains name then none
  else some ({ r.enter r.mode with names := name :: r.names }, rest)

/-- The start of a group, after its bracket. One that holds flags alone sets the mode of the group
around it. -/
def openGroup (r : Reading) (cs : List Char) : Option (Reading × List Char) :=
  match r.mode.skip cs with
  | '?' :: 'P' :: '<' :: rest => r.enterNamed rest
  | '?' :: '<' :: rest => r.enterNamed rest
  | '?' :: rest => do
    let (mode, alone, rest) ← r.mode.readFlags [] rest
    if alone then some ({ r with mode, repeatable := false }, rest) else some (r.enter mode, rest)
  | rest => some (r.enter r.mode, rest)

/-- Whether the rest of an expression can be read, in at most `steps` steps. -/
def finishes (r : Reading) : (steps : Nat) → List Char → Bool
  | 0, _ => false
  | steps + 1, cs =>
    let again := { r with repeatable := true }
    match r.mode.skip cs with
    | [] => r.outer.isEmpty
    | '(' :: rest =>
      match r.openGroup rest with
      | some (r, rest) => r.finishes steps rest
      | none => false
    | ')' :: rest =>
      match r.outer with
      | mode :: outer => { again with mode, outer }.finishes steps rest
      | [] => false
    | '[' :: rest =>
      match (r.mode.openClass rest).bind (r.mode.readClass (rest.length + 1) 0) with
      | some rest => again.finishes steps rest
      | none => false
    | '\\' :: rest =>
      match r.mode.readEscape rest with
      | some (_, rest) => again.finishes steps rest
      | none => false
    | c :: rest =>
      if c = '|' then { r with repeatable := false }.finishes steps rest
      else if c = '{' then false
      else if ['?', '*', '+'].contains c then r.repeatable && r.finishes steps rest
      else (c != '.' || r.mode.unicode) && again.finishes steps rest

end Reading

/-- Whether a text can be read as a regular expression. Every step reads something. -/
def isExpression (cs : List Char) : Bool := Reading.start.finishes (cs.length + 1) cs

/-! ## Numbers -/

/-- What may follow the digits of a number: nothing, or a power of ten. -/
def isPower : List Char → Bool
  | [] => true
  | c :: cs =>
    let digits := match cs with
      | '+' :: digits => digits
      | '-' :: digits => digits
      | digits => digits
    (c == 'e' || c == 'E') && !digits.isEmpty && digits.all Char.isDigit

def isNumber (cs : List Char) : Bool :=
  let (whole, rest) := cs.span Char.isDigit
  let (fraction, rest) := match rest with
    | '.' :: rest => rest.span Char.isDigit
    | rest => ([], rest)
  (!(whole ++ fraction).isEmpty && isPower rest)
    || ["inf", "infinity", "nan"].contains (String.ofList (cs.map Char.toLower))

end ValuePattern

/-- Whether a value can be asked for. A number is an expression too unless it has a plus sign. -/
def isValuePattern (cs : List Char) : Bool :=
  match cs with
  | '+' :: number => ValuePattern.isNumber number
  | cs => ValuePattern.isExpression cs

end PeerWatch.Log
