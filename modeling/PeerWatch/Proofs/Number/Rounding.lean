import Mathlib.Algebra.Order.Field.Power
import Mathlib.Data.Nat.Log
import Mathlib.Tactic.FieldSimp
import Mathlib.Tactic.GCongr
import Mathlib.Tactic.Linarith
import Mathlib.Tactic.NormNum
import Mathlib.Tactic.Positivity
import Mathlib.Tactic.Ring
import PeerWatch.Number.Magnitude

/-!
# Rounding to binary floating point

A quotient of integers is rounded to a magnitude of 53 binary digits that is off by a factor of at
most `1 + 2⁻⁵³`, and to infinity only beyond the format. Rounding does not step over a number of the
format. Products and quotients of magnitudes are rounded in this way.
-/

namespace PeerWatch.Number.Magnitude

/-- The rational number of a finite magnitude. -/
def toRat (m : Nat) (e : Int) : ℚ := m * 2 ^ e

theorem denominator_pos (e : Int) : 0 < denominator e := Nat.pow_pos (by decide)

theorem numerator_pos {m : Nat} (hm : 0 < m) (e : Int) : 0 < numerator m e :=
  Nat.mul_pos hm (Nat.pow_pos (by decide))

theorem toRat_pos {m : Nat} (hm : 0 < m) (e : Int) : 0 < toRat m e := by
  unfold toRat
  positivity

theorem toRat_le_toRat {m n : Nat} (h : m ≤ n) (e : Int) : toRat m e ≤ toRat n e := by
  have h : (m : ℚ) ≤ n := Nat.cast_le.2 h
  unfold toRat
  gcongr

theorem toRat_zero (m : Nat) : toRat m 0 = m := by rw [toRat, zpow_zero, mul_one]

theorem toRat_two_pow (n : Nat) (e : Int) : toRat (2 ^ n) e = 2 ^ (e + n) := by
  rw [toRat, zpow_add₀ two_ne_zero, zpow_natCast, mul_comm, Nat.cast_pow, Nat.cast_ofNat]

/-- A number of a coarse grid is one of every finer grid. -/
theorem toRat_refine {e j : Int} (h : e ≤ j) (k : Nat) :
    toRat k j = toRat (k * 2 ^ (j - e).toNat) e := by
  obtain ⟨n, rfl⟩ : ∃ n : Nat, j = e + n := ⟨(j - e).toNat, by omega⟩
  rw [toRat, toRat, zpow_add₀ two_ne_zero, add_sub_cancel_left, Int.toNat_natCast, zpow_natCast]
  push_cast
  ring

/-- Both exponents of a fraction scaled by a power of two are natural numbers. -/
theorem scaled_div (num den : Nat) (e : Int) :
    ((num * 2 ^ (-e).toNat : Nat) : ℚ) / ((den * 2 ^ e.toNat : Nat) : ℚ) =
      (num / den : ℚ) / 2 ^ e := by
  obtain ⟨n, rfl | rfl⟩ := e.eq_nat_or_neg
  · rw [Int.toNat_natCast, Int.toNat_of_nonpos (by omega), zpow_natCast]
    push_cast
    rw [mul_one, div_div]
  · rw [neg_neg, Int.toNat_natCast, Int.toNat_of_nonpos (by omega), zpow_neg, zpow_natCast]
    push_cast
    rw [mul_one, div_inv_eq_mul, mul_div_right_comm]

theorem numerator_div_denominator (m : Nat) (e : Int) :
    (numerator m e : ℚ) / denominator e = toRat m e := by
  have h := scaled_div m 1 (-e)
  rw [neg_neg, one_mul, Nat.cast_one, div_one, zpow_neg, div_inv_eq_mul] at h
  exact h

/-! ## The nearest integer -/

theorem nearest_cases (num den : Nat) :
    nearest num den = num / den ∧ 2 * (num % den) ≤ den ∨
      nearest num den = num / den + 1 ∧ den ≤ 2 * (num % den) := by
  dsimp only [nearest]
  split
  · next hup => exact .inr ⟨rfl, by omega⟩
  · next hdown => exact .inl ⟨rfl, by omega⟩

theorem abs_nearest_sub_le (num : Nat) {den : Nat} (hden : 0 < den) :
    |(nearest num den : ℚ) - num / den| ≤ 1 / 2 := by
  have hpos : (0 : ℚ) < den := Nat.cast_pos.2 hden
  have hsplit : (den * (num / den : Nat) + (num % den : Nat) : ℚ) = num := by
    exact_mod_cast Nat.div_add_mod num den
  have hrest : ((num % den : Nat) : ℚ) ≤ den := by exact_mod_cast (Nat.mod_lt num hden).le
  have hratio : (num / den : ℚ) = (num / den : Nat) + (num % den : Nat) / den := by
    rw [← hsplit, add_div, mul_div_cancel_left₀ _ hpos.ne']
  rw [hratio, abs_le]
  rcases nearest_cases num den with ⟨hq, hdown⟩ | ⟨hq, hup⟩
  · have hdown : ((num % den : Nat) : ℚ) / den ≤ 1 / 2 := by
      rw [div_le_iff₀ hpos]
      have : (2 * (num % den : Nat) : ℚ) ≤ den := by exact_mod_cast hdown
      linarith
    have hnonneg : (0 : ℚ) ≤ ((num % den : Nat) : ℚ) / den := by positivity
    rw [hq]
    constructor <;> linarith
  · have hup : 1 / 2 ≤ ((num % den : Nat) : ℚ) / den := by
      rw [le_div_iff₀ hpos]
      have : (den : ℚ) ≤ 2 * (num % den : Nat) := by exact_mod_cast hup
      linarith
    have hone : ((num % den : Nat) : ℚ) / den ≤ 1 := (div_le_one hpos).2 hrest
    rw [hq]
    push_cast
    constructor <;> linarith

theorem le_nearest {num den k : Nat} (hden : 0 < den) (h : k * den ≤ num) :
    k ≤ nearest num den := by
  have hdiv : k ≤ num / den := (Nat.le_div_iff_mul_le hden).2 h
  rcases nearest_cases num den with ⟨hq, -⟩ | ⟨hq, -⟩ <;> omega

theorem nearest_le {num den k : Nat} (hden : 0 < den) (h : num ≤ k * den) :
    nearest num den ≤ k := by
  have hdiv : num / den ≤ k := Nat.div_le_of_le_mul (by rwa [Nat.mul_comm] at h)
  rcases nearest_cases num den with ⟨hq, -⟩ | ⟨hq, hup⟩
  · omega
  · -- The quotient is not exact, so that it is less than `k`.
    have hsplit := Nat.div_add_mod num den
    have hne : num / den ≠ k := by
      rintro rfl
      rw [Nat.mul_comm] at h
      omega
    omega

/-! ## The exponent -/

theorem log2_div_bounds {num den : Nat} (hnum : 0 < num) (hden : 0 < den) :
    (2 : ℚ) ^ ((num.log2 : Int) - den.log2 - 1) < num / den ∧
      (num / den : ℚ) < 2 ^ ((num.log2 : Int) - den.log2 + 1) := by
  have hpos : (0 : ℚ) < den := Nat.cast_pos.2 hden
  have hnumLow : (2 : ℚ) ^ num.log2 ≤ num := by exact_mod_cast Nat.log2_self_le hnum.ne'
  have hnumHigh : (num : ℚ) < 2 ^ (num.log2 + 1) := by
    exact_mod_cast Nat.lt_log2_self (n := num)
  have hdenLow : (2 : ℚ) ^ den.log2 ≤ den := by exact_mod_cast Nat.log2_self_le hden.ne'
  have hdenHigh : (den : ℚ) < 2 ^ (den.log2 + 1) := by
    exact_mod_cast Nat.lt_log2_self (n := den)
  constructor
  · rw [sub_sub, zpow_sub₀ two_ne_zero, zpow_natCast]
    calc (2 : ℚ) ^ num.log2 / 2 ^ ((den.log2 : Int) + 1)
        = 2 ^ num.log2 / 2 ^ (den.log2 + 1) := by norm_cast
      _ ≤ num / 2 ^ (den.log2 + 1) := by gcongr
      _ < num / den := by gcongr
  · rw [sub_add_eq_add_sub, zpow_sub₀ two_ne_zero, zpow_natCast]
    calc (num / den : ℚ) ≤ num / 2 ^ den.log2 := by gcongr
      _ < 2 ^ (num.log2 + 1) / 2 ^ den.log2 := by gcongr
      _ = 2 ^ ((num.log2 : Int) + 1) / 2 ^ den.log2 := by norm_cast

theorem ratio_le_iff {num den k : Nat} (hden : 0 < den) (e : Int) :
    (num / den : ℚ) ≤ toRat k e ↔ num * 2 ^ (-e).toNat ≤ k * (den * 2 ^ e.toNat) := by
  have hpos : (0 : ℚ) < (den * 2 ^ e.toNat : Nat) := by
    exact_mod_cast Nat.mul_pos hden (Nat.pow_pos (by decide))
  have htwo : (0 : ℚ) < 2 ^ e := by positivity
  rw [toRat, ← div_le_iff₀ htwo, ← scaled_div, div_le_iff₀ hpos]
  exact_mod_cast Iff.rfl

theorem le_ratio_iff {num den k : Nat} (hden : 0 < den) (e : Int) :
    toRat k e ≤ num / den ↔ k * (den * 2 ^ e.toNat) ≤ num * 2 ^ (-e).toNat := by
  have hpos : (0 : ℚ) < (den * 2 ^ e.toNat : Nat) := by
    exact_mod_cast Nat.mul_pos hden (Nat.pow_pos (by decide))
  have htwo : (0 : ℚ) < 2 ^ e := by positivity
  rw [toRat, ← le_div_iff₀ htwo, ← scaled_div, le_div_iff₀ hpos]
  exact_mod_cast Iff.rfl

/-- The quotient has 53 binary digits before the point of the exponent that fits it. -/
theorem fittingExponent_bounds {num den : Nat} (hnum : 0 < num) (hden : 0 < den)
    (hlow : (2 : ℚ) ^ (-100 : Int) ≤ num / den) :
    toRat (2 ^ 52) (fittingExponent num den) ≤ num / den ∧
      (num / den : ℚ) < toRat (2 ^ 53) (fittingExponent num den) := by
  obtain ⟨hbelow, habove⟩ := log2_div_bounds hnum hden
  obtain ⟨guess, hguess⟩ : ∃ guess : Int, guess = (num.log2 : Int) - den.log2 - 52 := ⟨_, rfl⟩
  have hbelow : toRat (2 ^ 52) (guess - 1) < num / den := by
    rw [toRat_two_pow]
    convert hbelow using 2
    omega
  have habove : (num / den : ℚ) < toRat (2 ^ 53) guess := by
    rw [toRat_two_pow]
    convert habove using 2
    omega
  have hnormal : -1074 ≤ guess - 1 := by
    have hpow : (2 : ℚ) ^ (-100 : Int) < 2 ^ (guess + 53) := by
      have := hlow.trans_lt habove
      rwa [toRat_two_pow] at this
    have := (zpow_lt_zpow_iff_right₀ one_lt_two).1 hpow
    omega
  have hstep : toRat (2 ^ 53) (guess - 1) = toRat (2 ^ 52) guess := by
    rw [toRat_two_pow, toRat_two_pow]
    congr 1
    omega
  dsimp only [fittingExponent, Nat.pow_eq]
  rw [← hguess]
  split
  · next hsmall =>
      rw [max_eq_left hnormal, hstep]
      exact ⟨hbelow.le, not_le.1 fun h => absurd ((le_ratio_iff hden guess).1 h) (not_le.2 hsmall)⟩
  · next hlarge =>
      rw [max_eq_left (by omega)]
      exact ⟨(le_ratio_iff hden guess).2 (not_lt.1 hlarge), habove⟩

/-! ## Rounding -/

/-- The largest factor by which rounding is off. -/
def slack : ℚ := 1 + 2⁻¹ ^ 53

theorem one_le_slack : 1 ≤ slack := by norm_num [slack]

theorem slack_pos : 0 < slack := by norm_num [slack]

/-- The power of two that all finite magnitudes are less than. -/
def limit : ℚ := 2 ^ 1024

theorem limit_pos : 0 < limit := pow_pos two_pos 1024

/-- A mantissa of 53 binary digits, and an exponent of the format. -/
structure Normal (m : Nat) (e : Int) : Prop where
  le_mantissa : 2 ^ 52 ≤ m
  mantissa_lt : m < 2 ^ 53
  exponent_le : e ≤ 971

/-- A magnitude to which a positive number is rounded. -/
inductive Rounds (x : ℚ) : Magnitude → Prop
  /-- The number is off by the slack at most, and numbers of the format stay on their side. -/
  | finite {m : Nat} {e : Int} (normal : Normal m e) (le : toRat m e ≤ x * slack)
    (ge : x ≤ toRat m e * slack)
    (above : ∀ (k : Nat) (j : Int), k ≤ 2 ^ 53 → toRat k j ≤ x → toRat k j ≤ toRat m e)
    (below : ∀ (k : Nat) (j : Int), k ≤ 2 ^ 53 → x ≤ toRat k j → toRat m e ≤ toRat k j) :
    Rounds x (.finite m e)
  | infinite (ge : limit ≤ x * slack) : Rounds x .infinite

/-- The nearest integer to a number of 53 binary digits, and what it is off by. -/
theorem nearest_close {num den : Nat} (hden : 0 < den) (hlow : 2 ^ 52 * den ≤ num) :
    (nearest num den : ℚ) ≤ num / den * slack ∧ (num / den : ℚ) ≤ nearest num den * slack := by
  have hpos : (0 : ℚ) < den := Nat.cast_pos.2 hden
  have hclose := abs_le.1 (abs_nearest_sub_le num hden)
  have hratio : (2 : ℚ) ^ 52 ≤ num / den := by
    rw [le_div_iff₀ hpos]
    exact_mod_cast hlow
  have hinteger : (2 : ℚ) ^ 52 ≤ nearest num den := by
    exact_mod_cast le_nearest hden hlow
  have hslack : slack = 1 + 1 / 2 ^ 53 := by norm_num [slack]
  rw [hslack]
  constructor <;> nlinarith

/-- A number of the format that is finer than a grid lies below the start of that grid. -/
theorem toRat_le_of_lt {k : Nat} {e j : Int} (hk : k ≤ 2 ^ 53) (h : j < e) :
    toRat k j ≤ toRat (2 ^ 52) e := by
  calc toRat k j ≤ toRat (2 ^ 53) j := toRat_le_toRat hk j
    _ = 2 ^ (j + 53) := by rw [toRat_two_pow]; rfl
    _ ≤ 2 ^ (e + 52) := zpow_le_zpow_right₀ one_le_two (by omega)
    _ = toRat (2 ^ 52) e := by rw [toRat_two_pow]; rfl

theorem toRat_carry (e : Int) : toRat (2 ^ 52) (e + 1) = toRat (2 ^ 53) e := by
  rw [toRat_two_pow, toRat_two_pow]
  congr 1
  omega

/-- An integer of 53 binary digits at an exponent that stands for a number, before it is seen
whether the exponent is one of the format. -/
structure Fits (x : ℚ) (q : Nat) (e : Int) : Prop where
  ge_mantissa : 2 ^ 52 ≤ q
  le_mantissa : q ≤ 2 ^ 53
  le : toRat q e ≤ x * slack
  ge : x ≤ toRat q e * slack
  above : ∀ (k : Nat) (j : Int), k ≤ 2 ^ 53 → toRat k j ≤ x → toRat k j ≤ toRat q e
  below : ∀ (k : Nat) (j : Int), k ≤ 2 ^ 53 → x ≤ toRat k j → toRat q e ≤ toRat k j

theorem fits_nearest {num den : Nat} {e : Int} (hden : 0 < den)
    (hlower : toRat (2 ^ 52) e ≤ num / den) (hupper : (num / den : ℚ) ≤ toRat (2 ^ 53) e) :
    Fits (num / den) (nearest (num * 2 ^ (-e).toNat) (den * 2 ^ e.toNat)) e := by
  have hscaled : 0 < den * 2 ^ e.toNat := Nat.mul_pos hden (Nat.pow_pos (by decide))
  have hge := le_nearest hscaled ((le_ratio_iff hden e).1 hlower)
  have hle := nearest_le hscaled ((ratio_le_iff hden e).1 hupper)
  have hnear := nearest_close hscaled ((le_ratio_iff hden e).1 hlower)
  have htwo : (0 : ℚ) < 2 ^ e := by positivity
  rw [scaled_div] at hnear
  refine ⟨hge, hle, ?_, ?_, fun k j hk hkx => ?_, fun k j hk hxk => ?_⟩
  · calc toRat _ e ≤ num / den / 2 ^ e * slack * 2 ^ e := by
          unfold toRat
          gcongr
          exact hnear.1
      _ = num / den * slack := by field_simp
  · calc (num / den : ℚ) = num / den / 2 ^ e * 2 ^ e := by field_simp
      _ ≤ nearest (num * 2 ^ (-e).toNat) (den * 2 ^ e.toNat) * slack * 2 ^ e := by
          gcongr
          exact hnear.2
      _ = toRat _ e * slack := by rw [toRat]; ring
  · rcases le_or_gt e j with hej | hje
    · rw [toRat_refine hej] at hkx ⊢
      exact toRat_le_toRat (le_nearest hscaled ((le_ratio_iff hden e).1 hkx)) e
    · exact (toRat_le_of_lt hk hje).trans (toRat_le_toRat hge e)
  · rcases le_or_gt e j with hej | hje
    · rw [toRat_refine hej] at hxk ⊢
      exact toRat_le_toRat (nearest_le hscaled ((ratio_le_iff hden e).1 hxk)) e
    · -- The quotient is the least number of its grid.
      have hstart : (num / den : ℚ) ≤ toRat (2 ^ 52) e := hxk.trans (toRat_le_of_lt hk hje)
      have hleast := nearest_le hscaled ((ratio_le_iff hden e).1 hstart)
      exact (toRat_le_toRat hleast e).trans (hlower.trans hxk)

namespace Fits

variable {x : ℚ} {q : Nat} {e : Int} (h : Fits x q e)

include h

/-- Beyond the largest exponent of the format there is infinity. -/
theorem rounds_infinite {n : Nat} (hn : 2 ^ n ≤ q) (hexponent : 1024 ≤ e + n) :
    Rounds x .infinite := by
  refine .infinite ?_
  calc limit = 2 ^ (1024 : Int) := (zpow_natCast 2 1024).symm
    _ ≤ 2 ^ (e + n) := zpow_le_zpow_right₀ one_le_two hexponent
    _ = toRat (2 ^ n) e := (toRat_two_pow n e).symm
    _ ≤ toRat q e := toRat_le_toRat hn e
    _ ≤ x * slack := h.le

theorem rounds : Rounds x
    (if q = 2 ^ 53 then (if e + 1 > 971 then .infinite else .finite (2 ^ 52) (e + 1))
    else if e > 971 then .infinite else .finite q e) := by
  by_cases hcarry : q = 2 ^ 53
  · rw [if_pos hcarry]
    split
    · exact h.rounds_infinite hcarry.ge (by omega)
    · have hsame : toRat q e = toRat (2 ^ 52) (e + 1) := by rw [hcarry, toRat_carry]
      exact .finite ⟨le_rfl, by decide, by omega⟩ (hsame ▸ h.le) (hsame ▸ h.ge)
        (hsame ▸ h.above) (hsame ▸ h.below)
  · have hle := h.le_mantissa
    rw [if_neg hcarry]
    split
    · exact h.rounds_infinite h.ge_mantissa (by omega)
    · exact .finite ⟨h.ge_mantissa, by omega, by omega⟩ h.le h.ge h.above h.below

end Fits

theorem rounds_ofRatio {num den : Nat} (hnum : 0 < num) (hden : 0 < den)
    (hlow : (2 : ℚ) ^ (-100 : Int) ≤ num / den) : Rounds (num / den) (ofRatio num den) := by
  obtain ⟨hlower, hupper⟩ := fittingExponent_bounds hnum hden hlow
  have hrounds := (fits_nearest hden hlower hupper.le).rounds
  dsimp only [ofRatio, Nat.pow_eq]
  rw [if_neg hnum.ne']
  split_ifs at hrounds ⊢ <;> exact hrounds

end PeerWatch.Number.Magnitude
