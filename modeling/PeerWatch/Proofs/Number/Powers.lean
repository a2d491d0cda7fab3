import Mathlib.Algebra.Order.Ring.Pow
import PeerWatch.Number.ByteSize
import PeerWatch.Proofs.Number.Rounding

/-!
# Computed powers of ten

What a number of roundings does to a product: each is off by the slack of one rounding at most, and
infinity comes out only where the product with all its slack is beyond the format. A power of ten is
computed by repeated squaring with as many roundings as its exponent, so that it is infinite from
the 309th on and not before.
-/

namespace PeerWatch.Number.Magnitude

/-- A magnitude that comes from a positive number by at most `k` roundings. -/
inductive Approx (k : Nat) (x : ℚ) : Magnitude → Prop
  | finite {m : Nat} {e : Int} (normal : Normal m e) (le : toRat m e ≤ x * slack ^ k)
    (ge : x ≤ toRat m e * slack ^ k) : Approx k x (.finite m e)
  | infinite (ge : limit ≤ x * slack ^ k) : Approx k x .infinite

theorem Normal.pos {m : Nat} {e : Int} (h : Normal m e) : 0 < m :=
  Nat.lt_of_lt_of_le (by decide) h.le_mantissa

theorem Normal.toRat_lt {m : Nat} {e : Int} (h : Normal m e) : toRat m e < limit := by
  calc toRat m e < toRat (2 ^ 53) e := by
        have hm : (m : ℚ) < (2 ^ 53 : Nat) := Nat.cast_lt.2 h.mantissa_lt
        unfold toRat
        gcongr
    _ = 2 ^ (e + 53) := by rw [toRat_two_pow]; rfl
    _ ≤ 2 ^ (1024 : Int) := zpow_le_zpow_right₀ one_le_two (by have := h.exponent_le; omega)
    _ = limit := zpow_natCast 2 1024

/-- What is far from the limit is rounded to a finite magnitude. -/
theorem Rounds.ne_infinite {x : ℚ} {a : Magnitude} (h : Rounds x a) (hx : x ≤ 2 ^ 1000) :
    a ≠ .infinite := by
  rintro rfl
  cases h with
  | infinite ge =>
      have hpos := slack_pos
      have hslack : slack ≤ 2 := by norm_num [slack]
      have hsmall : limit ≤ 2 ^ 1000 * 2 := ge.trans (by gcongr)
      rw [← pow_succ] at hsmall
      exact absurd hsmall (not_le.2 (pow_lt_pow_right₀ one_lt_two (by decide)))

/-! ## Slack -/

theorem slack_pow_pos (k : Nat) : 0 < slack ^ k := pow_pos slack_pos k

theorem slack_pow_le {k : Nat} (hk : k ≤ 2 ^ 32) : slack ^ k ≤ 1 + 2⁻¹ ^ 20 := by
  -- The product with `(1 - 2⁻⁵³) ^ k`, which is nearly one, is at most one.
  have hbernoulli := one_add_mul_le_pow (a := (-(2⁻¹ ^ 53) : ℚ)) (by norm_num) k
  have hproduct : slack ^ k * (1 + -(2⁻¹ ^ 53)) ^ k ≤ 1 := by
    rw [← mul_pow]
    exact pow_le_one₀ (by norm_num [slack]) (by norm_num [slack])
  have hk : (k : ℚ) ≤ 2 ^ 32 := by exact_mod_cast hk
  have hnear : (1 - 2⁻¹ ^ 21 : ℚ) ≤ (1 + -(2⁻¹ ^ 53)) ^ k := by
    refine le_trans ?_ hbernoulli
    have : (k : ℚ) * 2⁻¹ ^ 53 ≤ 2 ^ 32 * 2⁻¹ ^ 53 := by gcongr
    norm_num at this ⊢
    linarith
  have hscaled : slack ^ k * (1 - 2⁻¹ ^ 21) ≤ 1 :=
    le_trans (by gcongr; exact (slack_pow_pos k).le) hproduct
  have hpos := slack_pow_pos k
  norm_num at hscaled ⊢
  linarith

/-! ## Products and quotients -/

theorem Approx.mono {k l : Nat} {x : ℚ} {a : Magnitude} (h : Approx k x a) (hkl : k ≤ l)
    (hx : 0 ≤ x) : Approx l x a := by
  have hslack : slack ^ k ≤ slack ^ l := pow_le_pow_right₀ one_le_slack hkl
  cases h with
  | finite normal le ge =>
      have hpos := toRat_pos normal.pos
      exact .finite normal (le.trans (by gcongr)) (ge.trans (by gcongr; exact (hpos _).le))
  | infinite ge => exact .infinite (ge.trans (by gcongr))

/-- A number of the format is itself without rounding. -/
theorem approx_self {m : Nat} {e : Int} (h : Normal m e) :
    Approx 0 (toRat m e) (.finite m e) :=
  .finite h (by rw [pow_zero, mul_one]) (by rw [pow_zero, mul_one])

/-- One more rounding. -/
theorem Rounds.approx {k : Nat} {x y : ℚ} {a : Magnitude} (h : Rounds y a)
    (hle : y ≤ x * slack ^ k) (hge : x ≤ y * slack ^ k) : Approx (k + 1) x a := by
  have hslack := slack_pos
  have hpow := slack_pow_pos k
  cases h with
  | finite normal le ge above below =>
      refine .finite normal ?_ ?_
      · calc _ ≤ y * slack := le
          _ ≤ x * slack ^ k * slack := by gcongr
          _ = x * slack ^ (k + 1) := by ring
      · calc x ≤ y * slack ^ k := hge
          _ ≤ _ * slack * slack ^ k := by gcongr
          _ = _ * slack ^ (k + 1) := by ring
  | infinite ge =>
      refine .infinite ?_
      calc limit ≤ y * slack := ge
        _ ≤ x * slack ^ k * slack := by gcongr
        _ = x * slack ^ (k + 1) := by ring

theorem rounds_ofNat {n : Nat} (hn : 0 < n) : Rounds n (ofNat n) := by
  have hone : (1 : ℚ) ≤ n := by exact_mod_cast hn
  have h := rounds_ofRatio hn Nat.one_pos (by
    rw [Nat.cast_one, div_one]
    exact le_trans (by norm_num) hone)
  rwa [Nat.cast_one, div_one] at h

theorem rounds_mul {m n : Nat} {e f : Int} (hm : 0 < m) (hn : 0 < n)
    (hlow : (2 : ℚ) ^ (-100 : Int) ≤ toRat m e * toRat n f) :
    Rounds (toRat m e * toRat n f) (mul (.finite m e) (.finite n f)) := by
  have hratio : ((numerator m e * numerator n f : Nat) / (denominator e * denominator f : Nat) : ℚ) =
      toRat m e * toRat n f := by
    push_cast
    rw [mul_div_mul_comm, numerator_div_denominator, numerator_div_denominator]
  rw [← hratio] at hlow ⊢
  exact rounds_ofRatio (Nat.mul_pos (numerator_pos hm e) (numerator_pos hn f))
    (Nat.mul_pos (denominator_pos e) (denominator_pos f)) hlow

theorem rounds_div {m n : Nat} {e f : Int} (hm : 0 < m) (hn : 0 < n)
    (hlow : (2 : ℚ) ^ (-100 : Int) ≤ toRat m e / toRat n f) :
    Rounds (toRat m e / toRat n f) (div (.finite m e) (.finite n f)) := by
  have hratio : ((numerator m e * denominator f : Nat) / (denominator e * numerator n f : Nat) : ℚ) =
      toRat m e / toRat n f := by
    push_cast
    rw [mul_div_mul_comm, numerator_div_denominator, ← inv_div (numerator n f : ℚ),
      numerator_div_denominator, div_eq_mul_inv]
  rw [← hratio] at hlow ⊢
  exact rounds_ofRatio (Nat.mul_pos (numerator_pos hm e) (denominator_pos f))
    (Nat.mul_pos (denominator_pos e) (numerator_pos hn f)) hlow

theorem Approx.mul {i j : Nat} {x y : ℚ} {a b : Magnitude} (ha : Approx i x a)
    (hb : Approx j y b) (hx : 1 ≤ x) (hy : (2 : ℚ) ^ (-90 : Int) ≤ y)
    (hfinite : a = .infinite → 1 ≤ y) (hij : i + j ≤ 2 ^ 32) :
    Approx (i + j + 1) (x * y) (a.mul b) := by
  have hypos : 0 < y := lt_of_lt_of_le (by positivity) hy
  have hi := slack_pow_pos i
  have hj := slack_pow_pos j
  have hmore : slack ^ i ≤ slack ^ (i + j + 1) :=
    pow_le_pow_right₀ one_le_slack (by omega)
  have hmore' : slack ^ j ≤ slack ^ (i + j + 1) :=
    pow_le_pow_right₀ one_le_slack (by omega)
  cases ha with
  | infinite ge =>
      refine .infinite ?_
      have hone := hfinite rfl
      calc limit ≤ x * 1 * slack ^ i := by rwa [mul_one]
        _ ≤ x * y * slack ^ (i + j + 1) := by gcongr
  | @finite m e hm le ge =>
      have hmpos := toRat_pos hm.pos e
      cases hb with
      | infinite ge' =>
          refine .infinite ?_
          calc limit ≤ 1 * y * slack ^ j := by rwa [one_mul]
            _ ≤ x * y * slack ^ (i + j + 1) := by gcongr
      | @finite n f hn le' ge' =>
          have hnpos := toRat_pos hn.pos f
          have hle : toRat m e * toRat n f ≤ x * y * slack ^ (i + j) := by
            calc toRat m e * toRat n f ≤ x * slack ^ i * (y * slack ^ j) := by gcongr
              _ = x * y * slack ^ (i + j) := by ring
          have hge : x * y ≤ toRat m e * toRat n f * slack ^ (i + j) := by
            calc x * y ≤ toRat m e * slack ^ i * (toRat n f * slack ^ j) := by gcongr
              _ = toRat m e * toRat n f * slack ^ (i + j) := by ring
          have hlow : (2 : ℚ) ^ (-100 : Int) ≤ toRat m e * toRat n f := by
            have hslack : slack ^ (i + j) ≤ 2 := (slack_pow_le hij).trans (by norm_num)
            have hdouble : x * y ≤ toRat m e * toRat n f * 2 := hge.trans (by gcongr)
            have hxy : (2 : ℚ) ^ (-90 : Int) ≤ x * y := by nlinarith
            norm_num at hxy ⊢
            linarith
          exact (rounds_mul hm.pos hn.pos hlow).approx hle hge

/-! ## Powers of ten -/

/-- The factor for the last binary digit of the exponent. -/
theorem Approx.lastDigit {n i j : Nat} {x y : ℚ} {a r : Magnitude} (ha : Approx i x a)
    (hr : Approx j y r) (hx : 1 ≤ x) (hy : 1 ≤ y) (hcount : j + n * (i + 1) ≤ 2 ^ 32) :
    Approx (j + n % 2 * (i + 1)) (y * x ^ (n % 2)) (if n % 2 = 1 then r.mul a else r) := by
  rcases Nat.mod_two_eq_zero_or_one n with hzero | hone
  · rw [hzero, if_neg (by decide), zero_mul, pow_zero, mul_one]
    exact hr
  · have hle : i + 1 ≤ n * (i + 1) := Nat.le_mul_of_pos_left _ (by omega)
    rw [hone, if_pos rfl, one_mul, pow_one]
    exact hr.mul ha hy (le_trans (by norm_num) hx) (fun _ => hx) (by omega)

theorem approx_powerBySquares {fuel n i j : Nat} {x y : ℚ} {a r : Magnitude}
    (ha : Approx i x a) (hr : Approx j y r) (hx : 1 ≤ x) (hy : 1 ≤ y) (hn : n < 2 ^ fuel)
    (hcount : j + n * (i + 1) ≤ 2 ^ 32) :
    Approx (j + n * (i + 1)) (y * x ^ n) (powerBySquares a r fuel n) := by
  induction fuel generalizing n i j x y a r with
  | zero =>
      obtain rfl : n = 0 := by omega
      rw [powerBySquares, zero_mul, pow_zero, mul_one]
      exact hr
  | succ fuel ih =>
      have hlast := ha.lastDigit hr hx hy hcount
      have hdigits : 2 * (n / 2) + n % 2 = n := Nat.div_add_mod n 2
      rw [powerBySquares]
      split
      · next hhalf =>
          have hn : n % 2 = n := by omega
          rwa [hn] at hlast ⊢
      · next hhalf =>
          have hle : 2 * (i + 1) ≤ n * (i + 1) := Nat.mul_le_mul_right _ (by omega)
          have hsquare : Approx (i + i + 1) (x * x) (a.mul a) :=
            ha.mul ha hx (le_trans (by norm_num) hx) (fun _ => hx) (by omega)
          have hsum : j + n % 2 * (i + 1) + n / 2 * (i + i + 1 + 1) = j + n * (i + 1) := by
            calc _ = j + (2 * (n / 2) + n % 2) * (i + 1) := by ring
              _ = j + n * (i + 1) := by rw [hdigits]
          have hpower : y * x ^ (n % 2) * (x * x) ^ (n / 2) = y * x ^ n := by
            calc _ = y * x ^ (2 * (n / 2) + n % 2) := by ring
              _ = y * x ^ n := by rw [hdigits]
          have hone : 1 ≤ x ^ (n % 2) := one_le_pow₀ hx
          have hshorter : n / 2 < 2 ^ fuel :=
            Nat.div_lt_of_lt_mul (by rwa [pow_succ, mul_comm] at hn)
          have hrest := ih hsquare hlast (one_le_mul_of_one_le_of_one_le hx hx)
            (one_le_mul_of_one_le_of_one_le hy hone) hshorter (hsum ▸ hcount)
          rwa [hsum, hpower] at hrest

/-- An integer of 53 binary digits is a number of the format. -/
theorem exists_ofNat {k : Nat} (hk : 0 < k) (hle : k ≤ 2 ^ 53) :
    ∃ m e, ofNat k = .finite m e ∧ Normal m e ∧ toRat m e = k := by
  have hself := toRat_zero k
  have hround := rounds_ofNat hk
  have hfinite := hround.ne_infinite (by
    have hle : (k : ℚ) ≤ 2 ^ 53 := by exact_mod_cast hle
    exact hle.trans (pow_le_pow_right₀ one_le_two (by decide)))
  generalize ofNat k = a at hround hfinite
  cases hround with
  | infinite => exact absurd rfl hfinite
  | @finite m e normal le ge above below =>
      have hlow := above k 0 hle hself.le
      have hhigh := below k 0 hle hself.ge
      exact ⟨m, e, rfl, normal, (le_antisymm hhigh hlow).trans hself⟩

theorem approx_ofNat {k : Nat} (hk : 0 < k) (hle : k ≤ 2 ^ 53) : Approx 0 k (ofNat k) := by
  obtain ⟨m, e, hvalue, hnormal, hrat⟩ := exists_ofNat hk hle
  rw [hvalue, ← hrat]
  exact approx_self hnormal

theorem approx_tenTo {n : Nat} (hn : n < 2 ^ 32) : Approx n (10 ^ n) (tenTo n) := by
  have hpower := approx_powerBySquares (approx_ofNat (by decide : 0 < 10) (by decide))
    (approx_ofNat Nat.one_pos (by decide)) (by norm_num) (by norm_num) hn (by omega)
  rw [Nat.cast_one, one_mul, zero_add, zero_add, mul_one] at hpower
  rw [tenTo, if_neg (by omega), Int.natAbs_natCast]
  exact hpower

theorem ten_pow_lt_limit {n : Nat} (hn : n ≤ 308) : (10 : ℚ) ^ n * 3 < limit * 2 := by
  have hlargest : 10 ^ 308 * 3 < 2 ^ 1024 * 2 := by decide +kernel
  have h : 10 ^ n * 3 < 2 ^ 1024 * 2 := by
    refine lt_of_le_of_lt ?_ hlargest
    exact Nat.mul_le_mul_right 3 (pow_le_pow_right₀ (by decide) hn)
  have h : ((10 ^ n * 3 : Nat) : ℚ) < (2 ^ 1024 * 2 : Nat) := Nat.cast_lt.2 h
  rwa [Nat.cast_mul, Nat.cast_mul, Nat.cast_pow, Nat.cast_pow, Nat.cast_ofNat, Nat.cast_ofNat,
    Nat.cast_ofNat] at h

theorem limit_lt_ten_pow {n : Nat} (hn : 309 ≤ n) : limit * 5 < (10 : ℚ) ^ n := by
  have hsmallest : 2 ^ 1024 * 5 < 10 ^ 309 := by decide +kernel
  have h : 2 ^ 1024 * 5 < 10 ^ n :=
    lt_of_lt_of_le hsmallest (pow_le_pow_right₀ (by decide) hn)
  have h : ((2 ^ 1024 * 5 : Nat) : ℚ) < (10 ^ n : Nat) := Nat.cast_lt.2 h
  rwa [Nat.cast_mul, Nat.cast_pow, Nat.cast_pow, Nat.cast_ofNat, Nat.cast_ofNat,
    Nat.cast_ofNat] at h

theorem slack_pow_le_three_halves {k : Nat} (hk : k ≤ 2 ^ 32) : slack ^ k ≤ 3 / 2 :=
  (slack_pow_le hk).trans (by norm_num)

theorem Approx.ne_infinite {k : Nat} {x : ℚ} {a : Magnitude} (h : Approx k x a)
    (hk : k ≤ 2 ^ 32) (hx : x * 3 < limit * 2) : a ≠ .infinite := by
  rintro rfl
  cases h with
  | infinite ge =>
      have hslack := slack_pow_le_three_halves hk
      have hpos := slack_pow_pos k
      have hx' : 0 < x := pos_of_mul_pos_left (limit_pos.trans_le ge) hpos.le
      have hsmall : limit ≤ x * (3 / 2) := ge.trans (by gcongr)
      linarith

theorem Approx.eq_infinite {k : Nat} {x : ℚ} {a : Magnitude} (h : Approx k x a)
    (hk : k ≤ 2 ^ 32) (hx : limit * 3 ≤ x * 2) : a = .infinite := by
  cases h with
  | infinite => rfl
  | @finite m e normal le ge =>
      have hslack := slack_pow_le_three_halves hk
      have hpos := toRat_pos normal.pos e
      have hsmall : x ≤ toRat m e * (3 / 2) := ge.trans (by gcongr)
      have hfinite := normal.toRat_lt
      linarith

/-- A negative power is the reciprocal of the positive one. -/
theorem approx_tenTo_neg {n : Nat} (hn : n ≤ 22) :
    Approx (n + 1) ((10 : ℚ) ^ n)⁻¹ (tenTo (-n)) := by
  have hpower := approx_tenTo (show n < 2 ^ 32 by omega)
  have hten : (10 : ℚ) ^ n ≤ 10 ^ 22 := pow_le_pow_right₀ (by norm_num) hn
  have hpos : (0 : ℚ) < 10 ^ n := by positivity
  rcases Nat.eq_zero_or_pos n with rfl | hpositive
  · have hone : ((10 : ℚ) ^ 0)⁻¹ = 10 ^ 0 := by norm_num
    rw [hone]
    exact hpower.mono (by decide) (by norm_num)
  have hsplit : tenTo (-n) = (ofNat 1).div (tenTo n) := by
    rw [tenTo, tenTo, if_pos (by omega), if_neg (by omega), Int.natAbs_neg]
  obtain ⟨k, f, hone, hk, hvalue⟩ := exists_ofNat Nat.one_pos (by decide)
  rw [hsplit, hone]
  have hfinite := hpower.ne_infinite (by omega) (ten_pow_lt_limit (by omega))
  generalize tenTo n = a at hpower hfinite
  cases hpower with
  | infinite => exact absurd rfl hfinite
  | @finite m e normal le ge =>
      have hmpos := toRat_pos normal.pos e
      have hslack := slack_pow_le_three_halves (show n ≤ 2 ^ 32 by omega)
      have hround : Rounds (1 / toRat m e) ((Magnitude.finite k f).div (.finite m e)) := by
        rw [Nat.cast_one] at hvalue
        rw [← hvalue]
        refine rounds_div hk.pos normal.pos ?_
        rw [hvalue, le_div_iff₀ hmpos]
        have hpow := slack_pow_pos n
        have hbound : toRat m e ≤ 10 ^ 22 * (3 / 2) := le.trans (by gcongr)
        norm_num at hbound ⊢
        linarith
      refine hround.approx ?_ ?_
      · rw [div_le_iff₀ hmpos, inv_mul_eq_div, div_mul_eq_mul_div, one_le_div hpos, mul_comm]
        exact ge
      · rw [div_mul_eq_mul_div, one_mul, le_div_iff₀ hmpos, inv_mul_eq_div, div_le_iff₀ hpos,
          mul_comm]
        exact le

theorem approx_tenTo_zpow {i : Int} (hlow : -22 ≤ i) (hhigh : i < 2 ^ 32) :
    Approx (i.natAbs + 1) ((10 : ℚ) ^ i) (tenTo i) := by
  obtain ⟨n, rfl | rfl⟩ := i.eq_nat_or_neg
  · rw [zpow_natCast, Int.natAbs_natCast]
    exact (approx_tenTo (by omega)).mono (Nat.le_succ n) (by positivity)
  · rw [zpow_neg, zpow_natCast, Int.natAbs_neg, Int.natAbs_natCast]
    exact approx_tenTo_neg (by omega)

end PeerWatch.Number.Magnitude
