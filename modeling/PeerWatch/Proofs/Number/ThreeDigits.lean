import PeerWatch.Proofs.Number.Checked
import PeerWatch.Proofs.Number.Numeral

/-!
# Three digits

By default a size has three significant digits, those of the quotient by its unit. The unit is
chosen before the digits are rounded, so that a size that is rounded up to a thousand of its unit
stays in that unit, where a thousand is written with an exponent.
-/

namespace PeerWatch.Number

open Magnitude

/-! ## The scaled digits -/

theorem le_finite_iff {m n : Nat} {e f : Int} :
    (Magnitude.finite m e).le (.finite n f) = true ↔ toRat m e ≤ toRat n f := by
  have he : (0 : ℚ) < denominator e := Nat.cast_pos.2 (denominator_pos e)
  have hf : (0 : ℚ) < denominator f := Nat.cast_pos.2 (denominator_pos f)
  rw [Magnitude.le, decide_eq_true_eq, ← numerator_div_denominator, ← numerator_div_denominator,
    div_le_div_iff₀ he hf]
  exact_mod_cast Iff.rfl

/-- What three digits are compared with to see whether they are four. -/
theorem tenTo_three_le_iff {d : Nat} (hpos : 0 < d) (hd : d ≤ 2 ^ 53) :
    (tenTo 3).le (Magnitude.ofNat d) = true ↔ 1000 ≤ d := by
  have hthousand : tenTo 3 = Magnitude.ofNat 1000 := by decide +kernel
  obtain ⟨m, e, hm, -, hrat⟩ := exists_ofNat (k := 1000) (by decide) (by decide)
  obtain ⟨n, f, hn, -, hrat'⟩ := exists_ofNat hpos hd
  rw [hthousand, hm, hn, le_finite_iff, hrat, hrat']
  exact Nat.cast_le

/-- The power of ten with exponent zero leaves a number as it is. -/
theorem toRat_mul_tenTo_zero {m k : Nat} {e f : Int} (h : Shown m e)
    (hproduct : (Magnitude.finite m e).mul (tenTo 0) = .finite k f) : toRat k f = toRat m e := by
  have hone : tenTo 0 = Magnitude.ofNat 1 := by decide +kernel
  obtain ⟨n, g, hn, hnormal, hrat⟩ := exists_ofNat Nat.one_pos (by decide)
  have hround := rounds_mul h.pos hnormal.pos (e := e) (f := g) (by
    rw [hrat, Nat.cast_one, mul_one]
    exact le_trans (by norm_num) h.one_le)
  rw [← hn, ← hone, hproduct, hrat, Nat.cast_one, mul_one] at hround
  cases hround with
  | finite normal le ge above below =>
      have hm : m ≤ 2 ^ 53 := h.mantissa_lt.le
      exact le_antisymm (below m e hm le_rfl) (above m e hm le_rfl)

section

variable {d k : Nat} {y : ℚ} (h : |(d : ℚ) - y| ≤ 501 / 1000)

include h

theorem le_of_near (hk : (k : ℚ) - 499 / 1000 < y) : k ≤ d := by
  by_contra hless
  have hless : (d : ℚ) + 1 ≤ k := by exact_mod_cast not_le.1 hless
  have hnear := (abs_le.1 h).1
  linarith

theorem near_le (hk : y < k + 499 / 1000) : d ≤ k := by
  by_contra hmore
  have hmore : (k : ℚ) + 1 ≤ d := by exact_mod_cast not_le.1 hmore
  have hnear := (abs_le.1 h).2
  linarith

end

theorem scaled_next (y : ℚ) (n : Nat) :
    y * 10 ^ (2 - (n + 1 : Nat) : Int) = y * 10 ^ (2 - n : Int) / 10 := by
  rw [Nat.cast_succ, ← sub_sub, zpow_sub_one₀ (by norm_num), ← mul_assoc, div_eq_mul_inv]

section

variable {m : Nat} {e : Int} (h : Shown m e)

include h

/-- The scaled value is off by less than a thousandth. -/
theorem exists_scaled {i : Int} (hlow : -2 ≤ i) (hhigh : i ≤ 2)
    (hsmall : toRat m e * 10 ^ i ≤ 1000) :
    ∃ k f, (Magnitude.finite m e).mul (tenTo i) = .finite k f ∧
      |toRat k f - toRat m e * 10 ^ i| ≤ 1 / 1000 := by
  have happrox := approx_scaled h (i := i) (by omega) (by omega)
  have hslack : slack ^ (i.natAbs + 2) ≤ 1 + 2⁻¹ ^ 20 := slack_pow_le (by omega)
  have hfinite := happrox.ne_infinite (by omega) (by
    have := ten_pow_lt_limit (n := 3) (by decide)
    linarith)
  have hpos : 0 < toRat m e * 10 ^ i := mul_pos (toRat_pos h.pos e) (by positivity)
  generalize (Magnitude.finite m e).mul (tenTo i) = a at happrox hfinite
  cases happrox with
  | infinite => exact absurd rfl hfinite
  | @finite k f normal le ge =>
      have hkpos := toRat_pos normal.pos f
      have hle : toRat k f ≤ toRat m e * 10 ^ i * (1 + 2⁻¹ ^ 20) := le.trans (by gcongr)
      have hge : toRat m e * 10 ^ i ≤ toRat k f * (1 + 2⁻¹ ^ 20) := ge.trans (by gcongr)
      refine ⟨k, f, rfl, abs_le.2 ?_⟩
      norm_num at hle hge ⊢
      constructor <;> linarith

theorem exists_leadingDigits {exponent : Nat} (hexponent : exponent ≤ 4)
    (hsmall : toRat m e * 10 ^ (2 - exponent : Int) ≤ 1000) :
    ∃ d : Nat, leadingDigits (.finite m e) 3 exponent = Magnitude.ofNat d ∧
      |(d : ℚ) - toRat m e * 10 ^ (2 - exponent : Int)| ≤ 501 / 1000 ∧
      (exponent = 2 → (1000 ≤ d ↔ 1999 / 2 ≤ toRat m e)) := by
  have hshift : ((3 : Nat) : Int) - 1 - exponent = 2 - exponent := by omega
  have hdigits := leadingDigits_eq (p := 3) (.finite m e) (by decide) (by decide)
    (show exponent ≤ 8 by omega)
  rw [hshift] at hdigits
  obtain ⟨k, f, hproduct, hnear⟩ := exists_scaled h (by omega) (by omega) hsmall
  have hround := abs_roundHalfUp_sub_le k f
  refine ⟨roundHalfUp k f, by rw [← Nat.cast_ofNat, hdigits, hproduct]; rfl, ?_, ?_⟩
  · rw [abs_le] at hnear hround ⊢
    constructor <;> linarith
  · rintro rfl
    rw [le_roundHalfUp_iff, toRat_mul_tenTo_zero h hproduct]
    norm_num
    constructor <;> intro hle <;> linarith

/-- Where the leading digit is put, the value has three digits before the point. -/
theorem scaled_bounds :
    100 ≤ toRat m e * 10 ^ (2 - logFloor m e : Int) * (1 + 2⁻¹ ^ 48) ∧
      toRat m e * 10 ^ (2 - logFloor m e : Int) < 1000 := by
  have hlow := le_scaled h (2 - logFloor m e)
  have hhigh := scaled_lt h (2 - logFloor m e)
  have htwo : (logFloor m e : Int) + (2 - logFloor m e) = 2 := by omega
  have hthree : (logFloor m e : Int) + 1 + (2 - logFloor m e) = 3 := by omega
  rw [htwo] at hlow
  rw [hthree] at hhigh
  exact ⟨le_trans (by norm_num) hlow, hhigh.trans_le (by norm_num)⟩

theorem logFloor_le_three (htop : toRat m e ≤ 1000) : logFloor m e ≤ 3 := by
  obtain ⟨-, -, habove⟩ := logFloor_bounds h
  have hpow : (10 : ℚ) ^ logFloor m e < 10 ^ 4 := by
    norm_num at habove ⊢
    linarith
  exact Nat.le_of_lt_succ (lt_of_ten_pow_lt hpow)

/-- The digits at the place of the leading one, and those at the next place, which are taken where
the first are four. -/
structure Candidates (m : Nat) (e : Int) (first second : Nat) : Prop where
  first_ge : 100 ≤ first
  first_le : first ≤ 1000
  second_le : second ≤ 100
  first_near : |(first : ℚ) - toRat m e * 10 ^ (2 - logFloor m e : Int)| ≤ 501 / 1000
  second_near : |(second : ℚ) - toRat m e * 10 ^ (2 - logFloor m e : Int) / 10| ≤ 501 / 1000
  carry_iff : logFloor m e = 2 → (1000 ≤ first ↔ 1999 / 2 ≤ toRat m e)
  significant_eq : significant (.finite m e) 3 =
    if 1000 ≤ first then placePoint (Nat.toDigits 10 second) 3 (logFloor m e + 1)
    else placePoint (Nat.toDigits 10 first) 3 (logFloor m e)

theorem exists_candidates (htop : toRat m e ≤ 1000) :
    ∃ first second, Candidates m e first second := by
  obtain ⟨hlow, hhigh⟩ := scaled_bounds h
  have hfloor := logFloor_le_three h htop
  have hnext := scaled_next (toRat m e) (logFloor m e)
  obtain ⟨first, hfirst, hnear, hcarry⟩ := exists_leadingDigits h (by omega) hhigh.le
  obtain ⟨second, hsecond, hnear', -⟩ :=
    exists_leadingDigits h (show logFloor m e + 1 ≤ 4 by omega) (by linarith)
  rw [hnext] at hnear'
  have hleast : 100 ≤ first := le_of_near hnear (by norm_num at hlow ⊢; linarith)
  have hmost : first ≤ 1000 := near_le hnear (by norm_num; linarith)
  have hmost' : second ≤ 100 := near_le hnear' (by norm_num; linarith)
  refine ⟨first, second, hleast, hmost, hmost', hnear, hnear', hcarry, ?_⟩
  dsimp only [significant]
  rw [hfirst, hsecond, integerText_ofNat (by omega), integerText_ofNat (by omega)]
  exact if_congr (tenTo_three_le_iff (by omega) (by omega)) rfl rfl

/-! ## Plain and carried digits -/

/-- Below 999.5 there are three digits, and at most three of them stand before the point. -/
theorem exists_plain (hless : toRat m e < 1999 / 2) :
    ∃ d exponent : Nat, 100 ≤ d ∧ d < 1000 ∧ exponent ≤ 2 ∧
      |(d : ℚ) - toRat m e * 10 ^ (2 - exponent : Int)| ≤ 501 / 1000 ∧
      significant (.finite m e) 3 = placePoint (Nat.toDigits 10 d) 3 exponent := by
  obtain ⟨first, second, hdigits⟩ := exists_candidates h (by linarith)
  have htext := hdigits.significant_eq
  have hfloor : logFloor m e ≤ 2 := by
    obtain ⟨-, -, habove⟩ := logFloor_bounds h
    have hpow : (10 : ℚ) ^ logFloor m e < 10 ^ 3 := by
      norm_num at habove ⊢
      linarith
    exact Nat.le_of_lt_succ (lt_of_ten_pow_lt hpow)
  by_cases hcarry : 1000 ≤ first
  · -- A carry from the units would mean 999.5 or more, so that there is a place after the point.
    have hplace : logFloor m e ≠ 2 := fun htwo =>
      absurd ((hdigits.carry_iff htwo).1 hcarry) (not_le.2 hless)
    have hscaled : (999 : ℚ) + 499 / 1000 ≤ toRat m e * 10 ^ (2 - logFloor m e : Int) := by
      have hcarry : (1000 : ℚ) ≤ first := by exact_mod_cast hcarry
      have hclose := (abs_le.1 hdigits.first_near).2
      linarith
    have hleast : 100 ≤ second := le_of_near hdigits.second_near (by norm_num; linarith)
    have hmost := hdigits.second_le
    have hnear := hdigits.second_near
    rw [if_pos hcarry] at htext
    rw [← scaled_next] at hnear
    exact ⟨second, logFloor m e + 1, hleast, by omega, by omega, hnear, htext⟩
  · rw [if_neg hcarry] at htext
    exact ⟨first, logFloor m e, hdigits.first_ge, not_le.1 hcarry, hfloor, hdigits.first_near,
      htext⟩

/-- From 999.5 on the digits are carried to a thousand. -/
theorem significant_of_carry (hlow : 1999 / 2 ≤ toRat m e) (htop : toRat m e ≤ 1000) :
    significant (.finite m e) 3 = ['1', '.', '0', '0', 'e', '+', '3'] := by
  have hthousand : placePoint (Nat.toDigits 10 100) 3 3 = ['1', '.', '0', '0', 'e', '+', '3'] := by
    decide
  obtain ⟨first, second, hdigits⟩ := exists_candidates h htop
  have hfloor : logFloor m e = 2 ∨ logFloor m e = 3 := by
    obtain ⟨-, hbelow, -⟩ := logFloor_bounds h
    have hpow : (10 : ℚ) ^ 2 < 10 ^ (logFloor m e + 1) := by
      norm_num at hbelow ⊢
      linarith
    have hlow := lt_of_ten_pow_lt hpow
    have hhigh := logFloor_le_three h htop
    omega
  rcases hfloor with htwo | hthree
  · -- The units are carried, and the digits are taken again at the place of the thousands.
    have hleast : 100 ≤ second :=
      le_of_near hdigits.second_near (by rw [htwo]; norm_num; linarith)
    rw [hdigits.significant_eq, if_pos ((hdigits.carry_iff htwo).2 hlow), htwo,
      Nat.le_antisymm hdigits.second_le hleast]
    exact hthousand
  · -- The logarithm is rounded up to three.
    have hmost : first ≤ 100 := near_le hdigits.first_near (by rw [hthree]; norm_num; linarith)
    rw [hdigits.significant_eq, if_neg (by omega), hthree,
      Nat.le_antisymm hmost hdigits.first_ge]
    exact hthousand

end

/-! ## Numerals with three digits -/

/-- A numeral without an exponent that has three significant digits and is less than a thousand. -/
structure Numeral.ThreeDigits (n : Numeral) : Prop where
  plain : n.exponent = none
  length_digits : n.digits.length = 3
  head_digits : n.digits.head? ≠ some '0'
  value_lt : n.value < 1000

/-- The numeral is the number rounded to its last digit, up to a hundredth of that digit. -/
def Numeral.CloseTo (n : Numeral) (x : ℚ) : Prop :=
  |n.value - x| * 10 ^ n.fractionDigits.length ≤ 51 / 100

theorem exists_threeDigits {d exponent : Nat} (hlow : 100 ≤ d) (hhigh : d < 1000)
    (hexponent : exponent ≤ 2) :
    ∃ n : Numeral, n.ThreeDigits ∧ n.text = placePoint (Nat.toDigits 10 d) 3 exponent ∧
      n.fractionDigits.length = 2 - exponent ∧ n.value = d / 10 ^ (2 - exponent) := by
  obtain ⟨n, htext, hdigits, hplain⟩ := exists_placePoint (.ofNat d) 3 exponent
  obtain ⟨hnone, hfraction⟩ := hplain (by omega)
  change n.digits = Nat.toDigits 10 d at hdigits
  change n.fractionDigits = (Nat.toDigits 10 d).drop (exponent + 1) at hfraction
  have hlength : (Nat.toDigits 10 d).length = 3 := by
    have hle := (Nat.length_toDigits_le_iff (n := d) (k := 3) (by decide : 1 < 10) (by decide)).2 hhigh
    have hge := mt (Nat.length_toDigits_le_iff (n := d) (k := 2) (by decide : 1 < 10) (by decide)).1
      (not_lt.2 hlow)
    omega
  have hcount : n.fractionDigits.length = 2 - exponent := by
    rw [hfraction, List.length_drop, hlength]
    omega
  have hvalue : n.value = d / 10 ^ (2 - exponent) := by
    rw [Numeral.value, Numeral.power, hnone, hdigits, hcount, Nat.ofDigitChars_ten_toDigits,
      zpow_zero, mul_one]
  refine ⟨n, ⟨hnone, by rw [hdigits, hlength], ?_, ?_⟩, htext, hcount, hvalue⟩
  · rw [hdigits]
    exact head?_toDigits_ne_zero (by omega)
  · have hd : (d : ℚ) < 1000 := by exact_mod_cast hhigh
    have hone : (1 : ℚ) ≤ 10 ^ (2 - exponent) := one_le_pow₀ (by norm_num)
    rw [hvalue, div_lt_iff₀ (by positivity)]
    linarith

/-- The text of a numeral ends at the first blank, and one with an exponent is not plain. -/
theorem not_plain_of_label {n : Numeral} {unit name : String}
    (h : n.label unit = "1.00e+3 " ++ name) : n.exponent ≠ none := by
  intro hplain
  have htext : n.text ++ ' ' :: unit.toList =
      ['1', '.', '0', '0', 'e', '+', '3'] ++ ' ' :: name.toList := by
    have hlist := congrArg String.toList h
    simpa [Numeral.label] using hlist
  have hbare : ∀ c ∈ n.text, (c != ' ') = true := fun c hc => by
    rcases Numeral.mem_text_of_plain hplain hc with hdigit | rfl
    · refine bne_iff_ne.2 fun hblank => ?_
      rw [hblank] at hdigit
      cases hdigit
    · rfl
  have hcut := congrArg (List.takeWhile (· != ' ')) htext
  rw [List.takeWhile_append_of_pos hbare, List.takeWhile_cons_of_neg (by decide), List.append_nil,
    List.takeWhile_append_of_pos (List.all_eq_true.1 rfl), List.takeWhile_cons_of_neg (by decide),
    List.append_nil] at hcut
  have hexponent : 'e' ∈ n.text := by
    rw [hcut]
    decide
  exact absurd (Numeral.mem_text_of_plain hplain hexponent) (by decide)

/-! ## Sizes -/

/-- The size is less than a thousand of the unit in place `k`, and a thousand of it when it is
rounded to three digits. -/
def RoundsUpToThousand (bytes k : Nat) : Prop :=
  1999 * 1000 ^ k ≤ 2 * bytes ∧ bytes < 1000 ^ (k + 1)

theorem roundsUpToThousand_iff {bytes k : Nat} {u : SizeUnit} (h : u.Holds bytes 4)
    (hless : bytes < 999 * 10 ^ 12) :
    RoundsUpToThousand bytes k ↔ k = u.index ∧ 1999 * u.scale ≤ 2 * bytes := by
  have hscale := h.scale_eq
  have hle := h.scale_le
  constructor
  · rintro ⟨hlow, hhigh⟩
    have hindex : u.index < k + 1 := by
      refine (Nat.pow_lt_pow_iff_right (a := 1000) (by decide)).1 ?_
      omega
    have hsame : k = u.index := by
      rcases Nat.lt_or_ge u.index 4 with hmore | htop
      · have hnext := h.lt_next hmore
        have hplace : k < u.index + 1 := by
          refine (Nat.pow_lt_pow_iff_right (a := 1000) (by decide)).1 ?_
          omega
        omega
      · have hpow : 1000 ^ 4 ≤ 1000 ^ k := Nat.pow_le_pow_right (by decide) (by omega)
        omega
    exact ⟨hsame, by rwa [hscale, ← hsame]⟩
  · rintro ⟨rfl, hlow⟩
    rw [hscale] at hlow
    refine ⟨hlow, h.lt_next ?_⟩
    by_contra htop
    have hfour : u.index = 4 := Nat.le_antisymm h.index_le (not_lt.1 htop)
    rw [hfour] at hlow
    omega

section

variable {bytes : Nat} (hpos : 0 < bytes) (hless : bytes < 999 * 10 ^ 12)

include hpos hless

/-- Below 999.5 of its unit, a size is so by more than it is rounded. -/
theorem quotient_gap (hplain : 2 * bytes < 1999 * (unitFor bytes).scale) :
    (bytes / (unitFor bytes).scale : ℚ) ≤ 1999 / 2 - 1 / (2 * 10 ^ 9) := by
  have hunit := holds_unitFor hpos
  have hscale : (0 : ℚ) < (unitFor bytes).scale := Nat.cast_pos.2 hunit.scale_pos
  have hgap : 2 * 10 ^ 9 * bytes + (unitFor bytes).scale ≤
      1999 * 10 ^ 9 * (unitFor bytes).scale := by
    rcases Nat.lt_or_ge (unitFor bytes).index 4 with hmore | htop
    · have hsmall : (unitFor bytes).scale ≤ 1000 ^ 3 :=
        hunit.scale_eq ▸ Nat.pow_le_pow_right (by decide) (Nat.le_of_lt_succ hmore)
      omega
    · have hterabyte : (unitFor bytes).scale = 1000 ^ 4 := by
        rw [hunit.scale_eq, Nat.le_antisymm hunit.index_le htop]
      omega
  have hgap : (2 * 10 ^ 9 * bytes + (unitFor bytes).scale : ℚ) ≤
      1999 * 10 ^ 9 * (unitFor bytes).scale := by exact_mod_cast hgap
  rw [div_le_iff₀ hscale]
  linarith

theorem exists_quotient_lt (hplain : 2 * bytes < 1999 * (unitFor bytes).scale) :
    ∃ m e, quotient bytes = .finite m e ∧ Shown m e ∧ toRat m e < 1999 / 2 ∧
      |toRat m e - bytes / (unitFor bytes).scale| ≤ 2⁻¹ ^ 40 := by
  have hgap := quotient_gap hpos hless hplain
  obtain ⟨m, e, hvalue, hshown⟩ := exists_quotient hpos (by omega)
  have hround := rounds_quotient hpos (by omega)
  rw [hvalue] at hround
  cases hround with
  | finite normal le ge above below =>
      rw [slack] at le ge
      have hbelow : toRat m e < 1999 / 2 := by
        norm_num at le hgap ⊢
        linarith
      refine ⟨m, e, hvalue, hshown, hbelow, abs_le.2 ?_⟩
      norm_num at le ge hgap ⊢
      constructor <;> linarith

theorem exists_quotient_ge (hcarry : 1999 * (unitFor bytes).scale ≤ 2 * bytes) :
    ∃ m e, quotient bytes = .finite m e ∧ Shown m e ∧ 1999 / 2 ≤ toRat m e ∧
      toRat m e ≤ 1000 := by
  have hunit := holds_unitFor hpos
  have hscale : (0 : ℚ) < (unitFor bytes).scale := Nat.cast_pos.2 hunit.scale_pos
  have hlow : toRat 1999 (-1) ≤ bytes / (unitFor bytes).scale := by
    have hcarry : (1999 * (unitFor bytes).scale : ℚ) ≤ 2 * bytes := by exact_mod_cast hcarry
    rw [le_div_iff₀ hscale]
    norm_num [toRat]
    linarith
  have hhigh : (bytes / (unitFor bytes).scale : ℚ) ≤ toRat 1000 0 := by
    have hnext := ((roundsUpToThousand_iff hunit hless).2 ⟨rfl, hcarry⟩).2
    rw [Nat.pow_succ, ← hunit.scale_eq] at hnext
    have hnext : (bytes : ℚ) ≤ (unitFor bytes).scale * 1000 := by exact_mod_cast hnext.le
    rw [div_le_iff₀ hscale]
    norm_num [toRat]
    linarith
  obtain ⟨m, e, hvalue, hshown⟩ := exists_quotient hpos (by omega)
  have hround := rounds_quotient hpos (by omega)
  rw [hvalue] at hround
  cases hround with
  | finite normal le ge above below =>
      have habove := above 1999 (-1) (by decide) hlow
      have hbelow := below 1000 0 (by decide) hhigh
      refine ⟨m, e, hvalue, hshown, le_trans ?_ habove, hbelow.trans ?_⟩ <;> norm_num [toRat]

/-- The three digits are those of the size, rounded. -/
theorem exists_label (hplain : 2 * bytes < 1999 * (unitFor bytes).scale) :
    ∃ n : Numeral, n.ThreeDigits ∧ n.CloseTo (bytes / (unitFor bytes).scale) ∧
      sizeText bytes none = n.label (unitNames.getD (unitFor bytes).index "") := by
  obtain ⟨m, e, hvalue, hshown, hbelow, hclose⟩ := exists_quotient_lt hpos hless hplain
  obtain ⟨d, exponent, hlow, hhigh, hexponent, hnear, hdigits⟩ := exists_plain hshown hbelow
  obtain ⟨n, hthree, htext, hcount, hn⟩ := exists_threeDigits hlow hhigh hexponent
  refine ⟨n, hthree, ?_, ?_⟩
  · have hplace : (2 - exponent : Int) = (2 - exponent : Nat) := by omega
    rw [hplace, zpow_natCast] at hnear
    have hten : (10 : ℚ) ^ (2 - exponent) ≤ 10 ^ 2 := pow_le_pow_right₀ (by norm_num) (by omega)
    have hpower : (0 : ℚ) < 10 ^ (2 - exponent) := by positivity
    rw [Numeral.CloseTo, hn, hcount]
    generalize (10 : ℚ) ^ (2 - exponent) = t at hnear hten hpower
    calc |(d : ℚ) / t - bytes / (unitFor bytes).scale| * t
        = |(d - toRat m e * t) + (toRat m e - bytes / (unitFor bytes).scale) * t| := by
          rw [← abs_of_pos hpower, ← abs_mul, abs_of_pos hpower, sub_mul, sub_mul,
            div_mul_cancel₀ _ hpower.ne', sub_add_sub_cancel]
      _ ≤ |d - toRat m e * t| + |toRat m e - bytes / (unitFor bytes).scale| * t := by
          refine (abs_add_le _ _).trans (le_of_eq ?_)
          rw [abs_mul, abs_of_pos hpower]
      _ ≤ 501 / 1000 + 2⁻¹ ^ 40 * 10 ^ 2 := by gcongr
      _ ≤ 51 / 100 := by norm_num
  · rw [sizeText_of_pos hpos, hvalue, Numeral.label, htext, ← hdigits]
    rfl

end

/-- A size has three digits and no exponent unless they are rounded up to a thousand of its unit:
then it stays in that unit. The digits are those of the size in a unit that it holds. -/
theorem three_digits_shown_iff {bytes : Nat} (hpos : 0 < bytes) (hless : bytes < 999 * 10 ^ 12) :
    ((∃ n : Numeral, n.ThreeDigits ∧ ∃ unit ∈ unitNames, sizeText bytes none = n.label unit) ↔
        ∀ k, ¬ RoundsUpToThousand bytes k) ∧
      ((∀ k, ¬ RoundsUpToThousand bytes k) →
        ∃ n : Numeral, n.ThreeDigits ∧ ∃ k, 1000 ^ k ≤ bytes ∧ n.CloseTo (bytes / 1000 ^ k) ∧
          sizeText bytes none = n.label (unitNames.getD k "")) ∧
      ∀ k, RoundsUpToThousand bytes k →
        sizeText bytes none = "1.00e+3 " ++ unitNames.getD k "" := by
  have hunit := holds_unitFor hpos
  obtain ⟨unit, hmem, -, hname⟩ := exists_unitName hpos
  have hcarried : ∀ k, RoundsUpToThousand bytes k →
      sizeText bytes none = "1.00e+3 " ++ unitNames.getD k "" := by
    intro k hk
    obtain ⟨rfl, hcarry⟩ := (roundsUpToThousand_iff hunit hless).1 hk
    obtain ⟨m, e, hvalue, hshown, hlow, htop⟩ := exists_quotient_ge hpos hless hcarry
    have hdigits : significant (.finite m e) (precisionFor none) = _ :=
      significant_of_carry hshown hlow htop
    rw [sizeText_of_pos hpos, hvalue, hdigits]
    rfl
  have hrounded : (∀ k, ¬ RoundsUpToThousand bytes k) →
      ∃ n : Numeral, n.ThreeDigits ∧ n.CloseTo (bytes / (unitFor bytes).scale) ∧
        sizeText bytes none = n.label (unitNames.getD (unitFor bytes).index "") := by
    intro hnone
    refine exists_label hpos hless ?_
    by_contra hcarry
    exact hnone _ ((roundsUpToThousand_iff hunit hless).2 ⟨rfl, not_lt.1 hcarry⟩)
  refine ⟨⟨?_, fun hnone => ?_⟩, fun hnone => ?_, hcarried⟩
  · rintro ⟨n, hthree, unit, -, hlabel⟩ k hk
    exact not_plain_of_label (hlabel.symm.trans (hcarried k hk)) hthree.plain
  · obtain ⟨n, hthree, -, hlabel⟩ := hrounded hnone
    exact ⟨n, hthree, unit, hmem, hname ▸ hlabel⟩
  · obtain ⟨n, hthree, hclose, hlabel⟩ := hrounded hnone
    have hle := hunit.scale_le
    rw [hunit.scale_eq] at hclose hle
    rw [Nat.cast_pow, Nat.cast_ofNat] at hclose
    exact ⟨n, hthree, _, hle, hclose, hlabel⟩

theorem three_digits_shown_below_carry :
    0 < 999499 ∧ 999499 < 999 * 10 ^ 12 ∧
      ∃ n : Numeral, n.ThreeDigits ∧ ∃ unit ∈ unitNames, sizeText 999499 none = n.label unit := by
  refine ⟨by decide, by decide, ?_⟩
  refine (three_digits_shown_iff (show 0 < 999499 by decide) (by decide)).1.2 fun k hk => ?_
  obtain ⟨hlow, hhigh⟩ := hk
  cases k with
  | zero => omega
  | succ k =>
      have hpower : 1 ≤ 1000 ^ k := Nat.pow_pos (by decide)
      rw [Nat.pow_succ] at hlow
      omega

/-- From 999500 bytes on, a thousand kilobytes are not a megabyte. -/
theorem thousand_kilobytes_shown :
    sizeText 999500 none = "1.00e+3 KB" ∧
      ¬ ∃ n : Numeral, n.ThreeDigits ∧ ∃ unit ∈ unitNames, sizeText 999500 none = n.label unit := by
  have htext : sizeText 999500 none = "1.00e+3 " ++ "KB" := by decide +kernel
  refine ⟨htext, ?_⟩
  rintro ⟨n, hthree, unit, -, hlabel⟩
  exact not_plain_of_label (hlabel.symm.trans htext) hthree.plain

end PeerWatch.Number
