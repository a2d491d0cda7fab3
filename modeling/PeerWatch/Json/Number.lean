import PeerWatch.Number.Shortest

/-!
# Numbers of a JSON text

A number is kept as an integer where it is one and fits into 64 bits, and as a binary64 magnitude
with a sign otherwise. Reading takes as many digits as fit into 64 bits, scales them by a power of
ten, and refuses what overflows.
-/

namespace PeerWatch.Json

open PeerWatch.Number (Magnitude)

/-- A number as it is written: digits before the point, digits after it, exponent with its sign. -/
structure NumberText where
  negative : Bool
  whole : List Char
  fraction : Option (List Char)
  exponent : Option (Bool × List Char)
  deriving DecidableEq, Repr

/-- A number that was kept. -/
inductive Number
  | natural (n : Nat)
  /-- The integer `-n`. -/
  | negative (n : Nat)
  | double (minus : Bool) (magnitude : Magnitude)
  deriving DecidableEq, Repr

def maxWord : Nat := UInt64.size - 1

def digitValue (c : Char) : Nat := c.toNat - '0'.toNat

/-! ## Reading -/

/-- Digits taken into a significand, and the power of ten by which it is to be scaled. -/
structure Scaled where
  significand : Nat
  exponent : Int
  deriving DecidableEq, Repr

/-- Takes digits before the point: one that no longer fits only raises the scale, and so do all that
follow. -/
def takeWhole (s : Scaled) : List Char → Scaled
  | [] => s
  | c :: cs =>
    let next := s.significand * 10 + digitValue c
    if s.exponent = 0 ∧ next ≤ maxWord then takeWhole ⟨next, 0⟩ cs
    else takeWhole ⟨s.significand, s.exponent + 1⟩ cs

/-- Takes digits after the point, up to the first that does not fit. -/
def takeFraction (s : Scaled) : List Char → Scaled
  | [] => s
  | c :: cs =>
    let next := s.significand * 10 + digitValue c
    if next ≤ maxWord then takeFraction ⟨next, s.exponent - 1⟩ cs else s

def maxExponent : Nat := 0x7FFFFFFF

/-- The value of the digits of an exponent, unless it is beyond `maxExponent`. -/
def exponentValue? (cs : List Char) : Option Nat :=
  cs.foldlM (fun n c =>
    let next := n * 10 + digitValue c
    if next ≤ maxExponent then some next else none) 0

/-- The power of ten `10 ^ n` as a magnitude. -/
def power (n : Nat) : Magnitude := Magnitude.ofNat (Nat.pow 10 n)

/-- `m * 10 ^ e` by steps of at most `10 ^ 308`, or nothing where it overflows. A magnitude that the
steps bring down to zero stays there, after which the exponent no longer counts. -/
def scale (m : Magnitude) (e : Int) : Nat → Option Magnitude
  | 0 => some m
  | n + 1 =>
    if e.natAbs ≤ 308 then
      if e ≥ 0 then
        match m.mul (power e.natAbs) with
        | .infinite => none
        | product => some product
      else some (m.div (power e.natAbs))
    else if m.isZero then some m
    else if e ≥ 0 then none
    else scale (m.div (power 308)) (e + 308) n

/-- The magnitude of scaled digits, or nothing where it overflows. Four steps bring every 64-bit
significand to zero. -/
def Scaled.magnitude? (s : Scaled) : Option Magnitude :=
  scale (Magnitude.ofNat s.significand) s.exponent 4

/-- The number that is kept for a written one, or nothing where it overflows. -/
def NumberText.value? (t : NumberText) : Option Number :=
  let whole := takeWhole ⟨0, 0⟩ t.whole
  match t.fraction, t.exponent with
  | none, none =>
    if whole.exponent ≠ 0 then whole.magnitude?.map (.double t.negative)
    else if ¬ t.negative then some (.natural whole.significand)
    else if whole.significand = 0 ∨ whole.significand > 0x8000000000000000 then
      some (.double true (Magnitude.ofNat whole.significand))
    else some (.negative whole.significand)
  | fraction, exponent =>
    let s := takeFraction whole (fraction.getD [])
    match exponent with
    | none => s.magnitude?.map (.double t.negative)
    | some (down, digits) =>
      match exponentValue? digits with
      | some n =>
        let e := if down then s.exponent - n else s.exponent + n
        (Scaled.mk s.significand e).magnitude?.map (.double t.negative)
      | none =>
        if s.significand ≠ 0 ∧ ¬ down then none else some (.double t.negative Magnitude.zero)

/-! ## Writing -/

/-- Digits of a decimal with a point after `n` of them. -/
private def pointAfter (n : Nat) (digits : List Char) : List Char :=
  digits.take n ++ '.' :: digits.drop n

/-- The text of a decimal: positional from `0.00001` up to below `10 ^ 16` and with a point always;
with an exponent beyond, whose sign is written. -/
def decimalText (d : Number.Decimal) : List Char :=
  let digits := Nat.toDigits 10 d.digits
  let point := digits.length + d.exponent
  if 0 ≤ d.exponent ∧ point ≤ 16 then
    digits ++ List.replicate d.exponent.toNat '0' ++ ['.', '0']
  else if 0 < point ∧ point ≤ 16 then pointAfter point.toNat digits
  else if -5 < point ∧ point ≤ 0 then
    ['0', '.'] ++ List.replicate (-point).toNat '0' ++ digits
  else
    let mantissa := if digits.length = 1 then digits else pointAfter 1 digits
    let exponent := point - 1
    mantissa ++ ['e', if exponent < 0 then '-' else '+'] ++ Nat.toDigits 10 exponent.natAbs

def magnitudeText : Magnitude → List Char
  | .infinite => "inf".toList
  | .finite m e => if m = 0 then "0.0".toList else decimalText (Number.shortest m e)

def Number.text : Number → List Char
  | .natural n => Nat.toDigits 10 n
  | .negative n => '-' :: Nat.toDigits 10 n
  | .double minus m => (if minus then ['-'] else []) ++ magnitudeText m

end PeerWatch.Json
