import PeerWatch.Number.Magnitude
import PeerWatch.Toml.Lexical
import PeerWatch.Toml.Value

/-!
# Numbers and moments of TOML

Integers must fit into 64 bits with a sign, floating-point numbers must not overflow upwards, and
dates must exist. Underscores may stand between digits.
-/

namespace PeerWatch.Toml

open PeerWatch.Text (hexValue?)

/-! ## Integers -/

/-- More digits, with an underscore before any of them. -/
def readMoreDigits (isDigit : Char → Bool) : List Char → Option (List Char × List Char)
  | [] => some ([], [])
  | '_' :: c :: rest =>
    if isDigit c then (readMoreDigits isDigit rest).map (prepend c) else none
  | c :: rest =>
    if c = '_' then none
    else if isDigit c then (readMoreDigits isDigit rest).map (prepend c)
    else some ([], c :: rest)

/-- Digits, at least one. -/
def readDigits (isDigit : Char → Bool) : List Char → Option (List Char × List Char)
  | c :: rest => if isDigit c then (readMoreDigits isDigit rest).map (prepend c) else none
  | [] => none

/-- Decimal digits of an integer, where a zero in front stands alone. -/
def readWhole : List Char → Option (List Char × List Char)
  | '0' :: rest => some (['0'], rest)
  | cs => readDigits Char.isDigit cs

def digitsValue (base : Nat) (digits : List Char) : Nat :=
  digits.foldl (fun n c => n * base + (hexValue? c).getD 0) 0

def inRange (n : Int) : Bool := -0x8000000000000000 ≤ n && n < 0x8000000000000000

/-- An integer in a base other than ten, after its mark. -/
def readBased (base : Nat) (isDigit : Char → Bool) (cs : List Char) :
    Option (Value × List Char) := do
  let (digits, rest) ← readDigits isDigit cs
  let n := digitsValue base digits
  if inRange n then some (.integer n, rest) else none

/-! ## Floating-point numbers -/

/-- Whether digits times a power of ten exceed what a double can hold. -/
def overflows (digits : List Char) (exponent : Int) : Bool :=
  let digits := digits.dropWhile (· == '0')
  let point := exponent + digits.length
  if digits.isEmpty ∨ point ≤ 308 then false
  else if point > 309 then true
  else
    Number.Magnitude.ofRatio (digitsValue 10 digits * Nat.pow 10 exponent.toNat)
      (Nat.pow 10 (-exponent).toNat) = .infinite

def readSign : List Char → List Char × List Char
  | '+' :: rest => (['+'], rest)
  | '-' :: rest => (['-'], rest)
  | cs => ([], cs)

/-- The digits after a point, if there is one. -/
def readFraction : List Char → Option (Option (List Char) × List Char)
  | '.' :: rest => (readDigits Char.isDigit rest).map fun (digits, rest) => (some digits, rest)
  | cs => some (none, cs)

/-- An exponent with its sign, if there is one. -/
def readExponent : List Char → Option (Option (List Char × List Char) × List Char)
  | [] => some (none, [])
  | c :: rest =>
    if c = 'e' ∨ c = 'E' then do
      let (sign, rest) := readSign rest
      let (digits, rest) ← readDigits Char.isDigit rest
      return (some (sign, digits), rest)
    else some (none, c :: rest)

def exponentValue (sign digits : List Char) : Int :=
  if sign = ['-'] then -(digitsValue 10 digits : Int) else digitsValue 10 digits

def readDecimal (sign cs : List Char) : Option (Value × List Char) := do
  let (whole, rest) ← readWhole cs
  let (fraction, rest) ← readFraction rest
  let (exponent, rest) ← readExponent rest
  match fraction, exponent with
  | none, none =>
    let n : Int := digitsValue 10 whole
    let n := if sign = ['-'] then -n else n
    if inRange n then some (.integer n, rest) else none
  | fraction, exponent =>
    let after := fraction.getD []
    let (down, power) := exponent.getD ([], [])
    if sign ≠ ['-'] ∧ overflows (whole ++ after) (exponentValue down power - after.length) then none
    else
      some (.float (String.ofList (sign ++ whole ++ (if after = [] then [] else '.' :: after)
        ++ (if power = [] then [] else 'e' :: down ++ power))), rest)

/-! ## Moments -/

def readFixed (n : Nat) (cs : List Char) : Option (Nat × List Char) :=
  let digits := cs.take n
  if digits.length = n ∧ digits.all Char.isDigit then some (digitsValue 10 digits, cs.drop n)
  else none

def expect (c : Char) : List Char → Option (List Char)
  | d :: rest => if d = c then some rest else none
  | [] => none

def monthDays (year month : Nat) : Nat :=
  if month = 2 then
    if year % 4 = 0 ∧ (year % 100 ≠ 0 ∨ year % 400 = 0) then 29 else 28
  else if month = 4 ∨ month = 6 ∨ month = 9 ∨ month = 11 then 30
  else 31

/-- The text after a date, its year included. -/
def readDate (cs : List Char) : Option (List Char) := do
  let (year, rest) ← readFixed 4 cs
  let (month, rest) ← readFixed 2 (← expect '-' rest)
  let (day, rest) ← readFixed 2 (← expect '-' rest)
  if 1 ≤ month ∧ month ≤ 12 ∧ 1 ≤ day ∧ day ≤ monthDays year month then some rest else none

/-- The text after the fraction of a second, if there is one. -/
def skipSecondFraction : List Char → List Char
  | '.' :: c :: rest => if c.isDigit then rest.dropWhile Char.isDigit else '.' :: c :: rest
  | cs => cs

def readTime (cs : List Char) : Option (List Char) := do
  let (hour, rest) ← readFixed 2 cs
  let (minute, rest) ← readFixed 2 (← expect ':' rest)
  let (second, rest) ← readFixed 2 (← expect ':' rest)
  if hour ≤ 23 ∧ minute ≤ 59 ∧ second ≤ 60 then some (skipSecondFraction rest) else none

/-- The text after the offset of a time zone, if there is one. -/
def readOffset : List Char → Option (List Char)
  | [] => some []
  | c :: rest =>
    if c = 'Z' ∨ c = 'z' then some rest
    else if c = '+' ∨ c = '-' then do
      let (hour, rest) ← readFixed 2 rest
      let (minute, rest) ← readFixed 2 (← expect ':' rest)
      if hour ≤ 23 ∧ minute ≤ 59 then some rest else none
    else some (c :: rest)

def startsTime (cs : List Char) : Bool :=
  match readFixed 2 cs with
  | some (_, ':' :: _) => true
  | _ => false

def startsDate (cs : List Char) : Bool :=
  match readFixed 4 cs with
  | some (_, '-' :: _) => true
  | _ => false

/-- The text after a date with the time that may follow it. -/
def readDateTime (cs : List Char) : Option (List Char) := do
  match ← readDate cs with
  | [] => return []
  | c :: rest =>
    if (c = 'T' ∨ c = 't' ∨ c = ' ') ∧ startsTime rest then readOffset (← readTime rest)
    else return c :: rest

/-- What was read of a text, given what is left of it. -/
def taken (cs rest : List Char) : String := String.ofList (cs.take (cs.length - rest.length))

def readScalar (cs : List Char) : Option (Value × List Char) :=
  if startsDate cs then (readDateTime cs).map fun rest => (.moment (taken cs rest), rest)
  else if startsTime cs then (readTime cs).map fun rest => (.moment (taken cs rest), rest)
  else
    match cs with
    | '0' :: 'x' :: rest => readBased 16 (fun c => (hexValue? c).isSome) rest
    | '0' :: 'o' :: rest => readBased 8 (fun c => '0' ≤ c && c ≤ '7') rest
    | '0' :: 'b' :: rest => readBased 2 (fun c => c == '0' || c == '1') rest
    | cs =>
      let (sign, rest) := readSign cs
      match rest with
      | 'i' :: 'n' :: 'f' :: rest => some (.float (String.ofList (sign ++ "inf".toList)), rest)
      | 'n' :: 'a' :: 'n' :: rest => some (.float (String.ofList (sign ++ "nan".toList)), rest)
      | rest => readDecimal sign rest

end PeerWatch.Toml
