import PeerWatch.Number.Magnitude

/-!
# Shortest decimals

The fewest decimal digits that read back as a given binary64 magnitude, and of several such decimals
the nearest. For each number of digits the two neighbours of the magnitude on that decimal grid are
tested in exact integer arithmetic.
-/

namespace PeerWatch.Number

/-- The decimal `digits * 10 ^ exponent`. -/
structure Decimal where
  digits : Nat
  exponent : Int
  deriving DecidableEq, Repr

/-- `a * 10 ^ u ≤ b * 2 ^ w`, by integers. -/
private def decimalLe (a : Nat) (u : Int) (b : Nat) (w : Int) : Bool :=
  a * Nat.pow 10 u.toNat * Nat.pow 2 (-w).toNat ≤ b * Nat.pow 2 w.toNat * Nat.pow 10 (-u).toNat

/-- `b * 2 ^ w ≤ a * 10 ^ u`, by integers. -/
private def binaryLe (b : Nat) (w : Int) (a : Nat) (u : Int) : Bool :=
  b * Nat.pow 2 w.toNat * Nat.pow 10 (-u).toNat ≤ a * Nat.pow 10 u.toNat * Nat.pow 2 (-w).toNat

/-- Whether the decimal reads back as `m * 2 ^ e`: it lies between the halfway points to the
neighbours of that number, which are included exactly when `m` is even. -/
def readsBack (m : Nat) (e : Int) (d : Decimal) : Bool :=
  let below := if m = Nat.pow 2 52 ∧ e > -1074 then 4 * m - 1 else 4 * m - 2
  let above := 4 * m + 2
  if m % 2 = 0 then
    binaryLe below (e - 2) d.digits d.exponent && decimalLe d.digits d.exponent above (e - 2)
  else
    !decimalLe d.digits d.exponent below (e - 2) && !binaryLe above (e - 2) d.digits d.exponent

/-- The largest `k` with `10 ^ k ≤ num / den`, sought downwards from `k` plus the number of steps.
-/
def tensBelow (num den : Nat) (k : Int) : Nat → Int
  | 0 => k
  | n + 1 =>
    let j := k + n + 1
    if Nat.pow 10 j.toNat * den ≤ num * Nat.pow 10 (-j).toNat then j else tensBelow num den k n

/-- The exponent of the leading decimal digit of a positive magnitude. -/
def leadingExponent (m : Nat) (e : Int) : Int :=
  let num := Magnitude.numerator m e
  let den := Magnitude.denominator e
  let guess : Int := ((Nat.log2 num : Int) - Nat.log2 den) * 3 / 10
  tensBelow num den (guess - 4) 8

/-- The nearer of the two neighbours on the grid `10 ^ u` that read back, the even one of a tie. -/
def onGrid (m : Nat) (e u : Int) : Option Decimal :=
  let num := Magnitude.numerator m e * Nat.pow 10 (-u).toNat
  let den := Magnitude.denominator e * Nat.pow 10 u.toNat
  let low := num / den
  let lower : Decimal := ⟨low, u⟩
  let upper : Decimal := ⟨low + 1, u⟩
  let lowerFits := low ≠ 0 && readsBack m e lower
  let upperFits := readsBack m e upper
  let twice := 2 * (num % den)
  let upperNearer := twice > den || (twice == den && low % 2 == 1)
  if lowerFits && upperFits then some (if upperNearer then upper else lower)
  else if lowerFits then some lower
  else if upperFits then some upper
  else none

/-- The first grid with a decimal that reads back, from `digits` digits on. -/
def shortestFrom (m : Nat) (e lead : Int) (digits : Nat) : Nat → Decimal
  | 0 => ⟨0, 0⟩
  | n + 1 =>
    match onGrid m e (lead + 1 - digits) with
    | some d => d
    | none => shortestFrom m e lead (digits + 1) n

/-- Moves the zeros at the end of the digits into the exponent. -/
def Decimal.trimZeros (d : Decimal) : Nat → Decimal
  | 0 => d
  | n + 1 =>
    if d.digits % 10 = 0 ∧ d.digits ≠ 0 then
      Decimal.trimZeros ⟨d.digits / 10, d.exponent + 1⟩ n
    else d

/-- The shortest decimal that reads back as `m * 2 ^ e`. Seventeen digits always suffice. -/
def shortest (m : Nat) (e : Int) : Decimal :=
  (shortestFrom m e (leadingExponent m e) 1 17).trimZeros 20

end PeerWatch.Number
