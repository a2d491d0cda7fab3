import PeerWatch.Proofs.Number.Logarithm

/-!
# Checked arithmetic

The text of a size computed with every operation checked: sums, differences and products of 32 and
64 bits are refused when they do not fit, and so are a division by zero, a conversion that would
change the sign, and a cut behind the end of the digits. The number of digits is the only limit.
-/

namespace PeerWatch.Number

open Magnitude

/-! ## Checked operations -/

def word32? (n : Nat) : Option Nat := if n < UInt32.size then some n else none

def word64? (n : Nat) : Option Nat := if n < UInt64.size then some n else none

def int32? (i : Int) : Option Int :=
  if Int32.minValue.toInt ≤ i ∧ i ≤ Int32.maxValue.toInt then some i else none

def div? (n d : Nat) : Option Nat := if d = 0 then none else some (n / d)

def climb? (bytes : Nat) : Nat → SizeUnit → Option SizeUnit
  | 0, u => some u
  | n + 1, u =>
    (div? bytes u.scale).bind fun q =>
      if q ≥ 1000 then
        (word64? (u.scale * 1000)).bind fun scale => climb? bytes n ⟨u.index + 1, scale⟩
      else some u

def precisionFor? (decimals : Option Nat) : Option Int := do
  let wanted ← match decimals with
    | none => some 3
    | some d => word32? (d + 1)
  int32? (max wanted 1 : Nat)

def leadingDigits? (value : Magnitude) (precision : Int) (exponent : Nat) : Option Magnitude := do
  let before ← int32? (precision - 1)
  let power ← int32? (before - exponent)
  return (value.mul (tenTo power)).round

def placePoint? (digits : List Char) (precision : Int) (exponent : Nat) : Option (List Char) := do
  let _ ← int32? (exponent + 1)
  if digits.isEmpty then none else return placePoint digits precision exponent

def significant? (value : Magnitude) (precision : Int) : Option (List Char) :=
  match value with
  | .infinite => none
  | .finite m e => do
    let exponent := logFloor m e
    let digits ← leadingDigits? value precision exponent
    if (tenTo precision).le digits then
      let digits ← leadingDigits? value precision (exponent + 1)
      placePoint? (integerText digits) precision (exponent + 1)
    else placePoint? (integerText digits) precision exponent

def sizeText? (bytes : Nat) (decimals : Option Nat) : Option String :=
  if bytes = 0 then some "0 B"
  else do
    let precision ← precisionFor? decimals
    let u ← climb? bytes (unitNames.length - 1) ⟨0, 1⟩
    let name ← unitNames[u.index]?
    let text ← significant? ((Magnitude.ofNat bytes).div (Magnitude.ofNat u.scale)) precision
    return String.ofList text ++ " " ++ name

/-! ## What is never refused -/

theorem int32?_eq_some {i : Int} (hlow : -2147483648 ≤ i) (hhigh : i ≤ 2147483647) :
    int32? i = some i := if_pos ⟨hlow, hhigh⟩

theorem wrap32_eq_self {i : Int} (hlow : -2147483648 ≤ i) (hhigh : i ≤ 2147483647) :
    wrap32 i = i := by
  have hsize : UInt32.size = 4294967296 := rfl
  rw [wrap32, hsize]
  exact Int.bmod_eq_of_le (by omega) (by omega)

theorem climb?_eq {bytes n : Nat} {u : SizeUnit} (hpos : 0 < u.scale)
    (hfits : u.scale * 1000 ^ n < UInt64.size) : climb? bytes n u = some (climb bytes n u) := by
  induction n generalizing u with
  | zero => rfl
  | succ n ih =>
      have hnext : u.scale * 1000 * 1000 ^ n < UInt64.size := by
        rwa [Nat.pow_succ', ← Nat.mul_assoc] at hfits
      have hscale : word64? (u.scale * 1000) = some (u.scale * 1000) :=
        if_pos (lt_of_le_of_lt (Nat.le_mul_of_pos_right _ (Nat.pow_pos (by decide))) hnext)
      rw [climb?, climb, div?, if_neg hpos.ne', Option.bind_some, hscale, Option.bind_some]
      split
      · exact ih (Nat.mul_pos hpos (by decide)) hnext
      · rfl

/-- More digits than a signed 32-bit number can count are refused. -/
theorem precisionFor?_eq_none {d : Nat} (h : 2147483647 ≤ d) : precisionFor? (some d) = none := by
  have htoo : int32? (max (d + 1) 1 : Nat) = none := by
    refine if_neg fun hfits => ?_
    have hmax : ((max (d + 1) 1 : Nat) : Int) ≤ 2147483647 := hfits.2
    omega
  dsimp only [precisionFor?]
  rw [word32?]
  split
  · exact htoo
  · rfl

/-- The number of significant digits, without a wrap. -/
def digitCount (decimals : Option Nat) : Nat := decimals.elim 3 (· + 1)

section

variable {decimals : Option Nat} (h : ∀ d ∈ decimals, d < 2147483647)

include h

theorem digitCount_bounds : 1 ≤ digitCount decimals ∧ digitCount decimals ≤ 2147483647 := by
  cases decimals with
  | none => decide
  | some d => exact ⟨Nat.succ_pos d, h d rfl⟩

theorem precisionFor?_eq : precisionFor? decimals = some (digitCount decimals : Int) := by
  cases decimals with
  | none => rfl
  | some d =>
      have hd := h d rfl
      have hsize : UInt32.size = 4294967296 := rfl
      have hword : word32? (d + 1) = some (d + 1) := if_pos (by omega)
      dsimp only [precisionFor?]
      rw [hword, Option.bind_eq_bind, Option.bind_some, Nat.max_eq_left (by omega)]
      exact int32?_eq_some (by omega) (by omega)

theorem precisionFor_eq : precisionFor decimals = digitCount decimals := by
  cases decimals with
  | none => rfl
  | some d =>
      have hd := h d rfl
      have hsize : UInt32.size = 4294967296 := rfl
      dsimp only [precisionFor, Option.map_some, Option.getD_some]
      rw [Nat.mod_eq_of_lt (by omega), Nat.max_eq_left (by omega)]
      exact wrap32_eq_self (by omega) (by omega)

end

/-- The power of ten that shifts the digits, without a wrap. -/
theorem leadingDigits_eq {p exponent : Nat} (value : Magnitude) (hpos : 1 ≤ p)
    (hp : p ≤ 2147483647) (hexponent : exponent ≤ 8) :
    leadingDigits value p exponent = (value.mul (tenTo (p - 1 - exponent))).round := by
  rw [leadingDigits, wrap32_eq_self (i := p - 1) (by omega) (by omega),
    wrap32_eq_self (by omega) (by omega)]

theorem leadingDigits?_eq {p exponent : Nat} (value : Magnitude) (hpos : 1 ≤ p)
    (hp : p ≤ 2147483647) (hexponent : exponent ≤ 8) :
    leadingDigits? value p exponent = some (leadingDigits value p exponent) := by
  rw [leadingDigits_eq value hpos hp hexponent]
  dsimp only [leadingDigits?]
  rw [int32?_eq_some (by omega) (by omega), Option.bind_eq_bind, Option.bind_some,
    int32?_eq_some (by omega) (by omega)]
  rfl

theorem placePoint?_eq (a : Magnitude) (precision : Int) {exponent : Nat} (h : exponent ≤ 8) :
    placePoint? (integerText a) precision exponent =
      some (placePoint (integerText a) precision exponent) := by
  have hne : (integerText a).isEmpty = false := by
    cases a with
    | infinite => rfl
    | finite m e => exact List.isEmpty_eq_false_iff.2 Nat.toDigits_ne_nil
  dsimp only [placePoint?]
  rw [int32?_eq_some (by omega) (by omega), hne]
  rfl

theorem significant?_eq {m p : Nat} {e : Int} (h : Shown m e) (hpos : 1 ≤ p)
    (hp : p ≤ 2147483647) :
    significant? (.finite m e) p = some (significant (.finite m e) p) := by
  have hexponent := (logFloor_bounds h).1
  dsimp only [significant?, significant]
  rw [leadingDigits?_eq _ hpos hp (by omega), Option.bind_eq_bind, Option.bind_some]
  split
  · rw [leadingDigits?_eq _ hpos hp (by omega), Option.bind_some]
    exact placePoint?_eq _ _ (by omega)
  · exact placePoint?_eq _ _ (by omega)

/-! ## Sizes -/

theorem sizeText?_eq {bytes : Nat} {decimals : Option Nat} (hbytes : bytes < 2 ^ 64)
    (hdecimals : ∀ d ∈ decimals, d < 2147483647) :
    sizeText? bytes decimals = some (sizeText bytes decimals) := by
  rcases Nat.eq_zero_or_pos bytes with rfl | hpos
  · rfl
  obtain ⟨hp, hple⟩ := digitCount_bounds hdecimals
  obtain ⟨m, e, hvalue, hshown⟩ := exists_quotient hpos hbytes
  have hunit : climb? bytes (unitNames.length - 1) ⟨0, 1⟩ = some (unitFor bytes) :=
    climb?_eq (by decide) (by decide)
  obtain ⟨name, -, hname?, hname⟩ := exists_unitName hpos
  rw [sizeText_of_pos hpos, sizeText?, if_neg hpos.ne', precisionFor?_eq hdecimals,
    precisionFor_eq hdecimals, hunit, hvalue, hname]
  dsimp only [Option.bind_eq_bind, Option.bind_some]
  rw [hname?, Option.bind_some, ← quotient, hvalue,
    significant?_eq hshown hp hple]
  rfl

/-- A count of digits that does not fit is refused. -/
theorem sizeText?_eq_none {bytes d : Nat} (hpos : 0 < bytes) (h : 2147483647 ≤ d) :
    sizeText? bytes (some d) = none := by
  rw [sizeText?, if_neg hpos.ne', precisionFor?_eq_none h]
  rfl

end PeerWatch.Number
