/-!
# Binary floating-point magnitudes

Nonnegative numbers in the binary64 format, in exact integer arithmetic. A quotient is rounded to
the nearest number of the format, a half to the even neighbour; what is too large becomes infinity.
-/

namespace PeerWatch.Number

/-- `mantissa * 2 ^ exponent`, or infinity. -/
inductive Magnitude
  | finite (mantissa : Nat) (exponent : Int)
  | infinite
  deriving DecidableEq, Repr

namespace Magnitude

def zero : Magnitude := .finite 0 (-1074)

/-- The numerator of a finite magnitude as a fraction of integers. -/
def numerator (m : Nat) (e : Int) : Nat := m * Nat.pow 2 e.toNat

/-- The denominator of a finite magnitude as a fraction of integers. -/
def denominator (e : Int) : Nat := Nat.pow 2 (-e).toNat

def isZero : Magnitude → Bool
  | .finite m _ => m == 0
  | .infinite => false

/-- The quotient of two integers rounded to the nearest integer, a half to the even neighbour. -/
def nearest (num den : Nat) : Nat :=
  let q := num / den
  let twice := 2 * (num % den)
  if twice > den ∨ (twice = den ∧ q % 2 = 1) then q + 1 else q

/-- The exponent at which `num / den` has 53 binary digits before the point, or the least exponent
of the format. -/
def fittingExponent (num den : Nat) : Int :=
  let guess : Int := (Nat.log2 num : Int) - Nat.log2 den - 52
  let e :=
    if num * Nat.pow 2 (-guess).toNat < Nat.pow 2 52 * (den * Nat.pow 2 guess.toNat) then guess - 1
    else guess
  max e (-1074)

/-- The number of the format that is nearest to `num / den`. -/
def ofRatio (num den : Nat) : Magnitude :=
  if num = 0 then zero
  else
    let e := fittingExponent num den
    let m := nearest (num * Nat.pow 2 (-e).toNat) (den * Nat.pow 2 e.toNat)
    let (m, e) := if m = Nat.pow 2 53 then (Nat.pow 2 52, e + 1) else (m, e)
    if e > 971 then .infinite else .finite m e

def ofNat (n : Nat) : Magnitude := ofRatio n 1

/-- The product, rounded. -/
def mul : Magnitude → Magnitude → Magnitude
  | .finite m e, .finite n f =>
    ofRatio (numerator m e * numerator n f) (denominator e * denominator f)
  | _, _ => .infinite

/-- The quotient by a number other than zero, rounded. -/
def div : Magnitude → Magnitude → Magnitude
  | .finite m e, .finite n f =>
    ofRatio (numerator m e * denominator f) (denominator e * numerator n f)
  | .finite _ _, .infinite => zero
  | .infinite, _ => .infinite

def le : Magnitude → Magnitude → Bool
  | _, .infinite => true
  | .infinite, .finite _ _ => false
  | .finite m e, .finite n f =>
    numerator m e * denominator f ≤ numerator n f * denominator e

/-- The nearest integer, a half upwards. -/
def roundHalfUp (m : Nat) (e : Int) : Nat :=
  (2 * numerator m e + denominator e) / (2 * denominator e)

/-- The magnitude of an integral magnitude rounded to an integer, a half upwards. -/
def round : Magnitude → Magnitude
  | .finite m e => ofNat (roundHalfUp m e)
  | .infinite => .infinite

end Magnitude
end PeerWatch.Number
