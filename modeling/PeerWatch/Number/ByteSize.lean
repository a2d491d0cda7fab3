import PeerWatch.Number.Shortest

/-!
# Sizes in bytes

A size is shown in the largest unit of which it holds at least one, with a chosen number of
significant digits. The digits come from binary64 arithmetic: the quotient by the unit, the power of
ten that shifts the digits before the point, and their product are each rounded. Counts of digits
are 32-bit integers and wrap around.
-/

namespace PeerWatch.Number

/-! ## Units -/

/-- The units, each a thousand times the one before. -/
def unitNames : List String := ["Bytes", "KB", "MB", "GB", "TB"]

/-- A unit by its place in `unitNames`, and the bytes that it holds. -/
structure SizeUnit where
  index : Nat
  scale : Nat
  deriving DecidableEq, Repr

/-- Climbs at most `n` units, while the size holds a thousand of the unit reached. -/
def climb (bytes : Nat) : Nat → SizeUnit → SizeUnit
  | 0, u => u
  | n + 1, u =>
    if bytes / u.scale ≥ 1000 then climb bytes n ⟨u.index + 1, u.scale * 1000⟩ else u

def unitFor (bytes : Nat) : SizeUnit := climb bytes (unitNames.length - 1) ⟨0, 1⟩

/-! ## Significant digits -/

def wrap32 (i : Int) : Int := i.bmod UInt32.size

/-- Multiplies `r` by `a ^ n`, squaring `a` for each binary digit of `n`. -/
def powerBySquares (a r : Magnitude) : Nat → Nat → Magnitude
  | 0, _ => r
  | fuel + 1, n =>
    let r := if n % 2 = 1 then r.mul a else r
    if n / 2 = 0 then r else powerBySquares (a.mul a) r fuel (n / 2)

/-- The power of ten with a 32-bit exponent; a negative one gives the reciprocal. -/
def tenTo (n : Int) : Magnitude :=
  let r := powerBySquares (Magnitude.ofNat 10) (Magnitude.ofNat 1) 32 n.natAbs
  if n < 0 then (Magnitude.ofNat 1).div r else r

def integerText : Magnitude → List Char
  | .infinite => ['i', 'n', 'f']
  | .finite m e => Nat.toDigits 10 (Magnitude.numerator m e / Magnitude.denominator e)

/-- The first `precision` digits of a value whose leading digit has the given exponent. -/
def leadingDigits (value : Magnitude) (precision : Int) (exponent : Nat) : Magnitude :=
  (value.mul (tenTo (wrap32 (wrap32 (precision - 1) - exponent)))).round

/-- Significant digits set with a point, or with an exponent where the part before the point would
need more digits than there are. -/
def placePoint (digits : List Char) (precision : Int) (exponent : Nat) : List Char :=
  if exponent ≥ precision then
    let mantissa := match digits.drop 1 with
      | [] => digits
      | tail => digits.take 1 ++ '.' :: tail
    mantissa ++ ['e', '+'] ++ Nat.toDigits 10 exponent
  else if exponent + 1 ≥ digits.length then digits
  else digits.take (exponent + 1) ++ '.' :: digits.drop (exponent + 1)

/-- How many of the numbers right below a power of ten have a logarithm that is rounded up to that
of the power, by the exponent of the power. No size comes as close to a power beyond the last. -/
def roundedUpBelow : List Nat := [0, 0, 1, 5, 2, 6, 9, 5]

/-- The integral part of the decimal logarithm of a number of at least one, the logarithm being
rounded. -/
def logFloor (m : Nat) (e : Int) : Nat :=
  let exponent := (leadingExponent m e).toNat
  match Magnitude.ofNat (Nat.pow 10 (exponent + 1)) with
  | .finite next f =>
    if e = f ∧ next ≤ m + roundedUpBelow.getD (exponent + 1) 0 then exponent + 1 else exponent
  | .infinite => exponent

/-- A value of at least one with `precision` significant digits. Digits that round up to the next
power of ten are taken again one place higher. -/
def significant (value : Magnitude) (precision : Int) : List Char :=
  match value with
  | .infinite => integerText value
  | .finite m e =>
    let exponent := logFloor m e
    let digits := leadingDigits value precision exponent
    if (tenTo precision).le digits then
      placePoint (integerText (leadingDigits value precision (exponent + 1))) precision
        (exponent + 1)
    else placePoint (integerText digits) precision exponent

/-- The number of significant digits for a number of digits after the first: three by default, and
never less than one. -/
def precisionFor (decimals : Option Nat) : Int :=
  let wanted : Nat := (decimals.map fun d => (d + 1) % UInt32.size).getD 3
  wrap32 (max wanted 1 : Nat)

def sizeText (bytes : Nat) (decimals : Option Nat) : String :=
  if bytes = 0 then "0 B"
  else
    let u := unitFor bytes
    let value := (Magnitude.ofNat bytes).div (Magnitude.ofNat u.scale)
    String.ofList (significant value (precisionFor decimals)) ++ " "
      ++ unitNames.getD u.index ""

end PeerWatch.Number
