import PeerWatch.Proofs.Number.Units

/-!
# Decimal logarithms

The power of ten below a magnitude is found by comparing integers. The logarithm from which the
leading digit is placed is itself rounded, and reaches the next power of ten a little early.
-/

namespace PeerWatch.Number

open Magnitude

/-! ## Powers of ten below -/

theorem lt_of_ten_pow_lt {a b : Nat} (h : (10 : ℚ) ^ a < 10 ^ b) : a < b :=
  (pow_lt_pow_iff_right₀ (by norm_num)).1 h

/-- Whichever sign the exponent has, the powers are natural numbers. -/
theorem ten_zpow_le_ratio_iff {den : Nat} (num : Nat) (hden : 0 < den) (j : Int) :
    Nat.pow 10 j.toNat * den ≤ num * Nat.pow 10 (-j).toNat ↔ (10 : ℚ) ^ j ≤ num / den := by
  have hpos : (0 : ℚ) < den := Nat.cast_pos.2 hden
  rw [Nat.pow_eq, Nat.pow_eq, le_div_iff₀ hpos]
  obtain ⟨n, rfl | rfl⟩ := j.eq_nat_or_neg
  · rw [Int.toNat_natCast, Int.toNat_of_nonpos (by omega), pow_zero, mul_one, zpow_natCast]
    exact_mod_cast Iff.rfl
  · have hten : (0 : ℚ) < 10 ^ n := by positivity
    rw [neg_neg, Int.toNat_natCast, Int.toNat_of_nonpos (by omega), pow_zero, one_mul, zpow_neg,
      zpow_natCast, inv_mul_le_iff₀ hten, mul_comm (10 ^ n : ℚ)]
    exact_mod_cast Iff.rfl

theorem tensBelow_bounds {num den n : Nat} {k : Int} (hden : 0 < den)
    (hlow : (10 : ℚ) ^ k ≤ num / den) (hhigh : (num / den : ℚ) < 10 ^ (k + n + 1)) :
    (10 : ℚ) ^ tensBelow num den k n ≤ num / den ∧
      (num / den : ℚ) < 10 ^ (tensBelow num den k n + 1) := by
  induction n with
  | zero =>
      rw [Nat.cast_zero, add_zero] at hhigh
      exact ⟨hlow, hhigh⟩
  | succ n ih =>
      rw [Nat.cast_succ, ← add_assoc] at hhigh
      dsimp only [tensBelow]
      split
      · next hle => exact ⟨(ten_zpow_le_ratio_iff num hden _).1 hle, hhigh⟩
      · next hless =>
          exact ih (not_le.1 fun h => hless ((ten_zpow_le_ratio_iff num hden _).2 h))

/-- The binary digits tell the decimal ones well enough for the search. -/
theorem decimal_guess_bounds :
    ∀ d ≤ 25, 10 ^ (d * 3 / 10 - 4) ≤ 2 ^ (d - 1) ∧ 2 ^ (d + 1) ≤ 10 ^ (d * 3 / 10 + 5) := by
  decide

theorem exists_leadingExponent {m : Nat} {e : Int} (h : Shown m e) :
    ∃ n : Nat, leadingExponent m e = n ∧ n ≤ 7 ∧ (10 : ℚ) ^ n ≤ toRat m e ∧
      toRat m e < 10 ^ (n + 1) := by
  have hden := denominator_pos e
  obtain ⟨hlow, hhigh⟩ := log2_div_bounds (numerator_pos h.pos e) hden
  have hone := h.one_le
  have htop := h.le_top
  rw [numerator_div_denominator] at hlow hhigh
  obtain ⟨d, hd⟩ : ∃ d : Nat, ((numerator m e).log2 : Int) - (denominator e).log2 = d := by
    have hpow : (2 : ℚ) ^ (0 : Int) < _ := (zpow_zero (2 : ℚ)).trans_le hone |>.trans_lt hhigh
    have := (zpow_lt_zpow_iff_right₀ one_lt_two).1 hpow
    exact Int.eq_ofNat_of_zero_le (by omega)
  rw [hd] at hlow hhigh
  have hdle : d ≤ 25 := by
    have hpow := hlow.trans_le htop
    rw [← zpow_natCast] at hpow
    have := (zpow_lt_zpow_iff_right₀ one_lt_two).1 hpow
    omega
  obtain ⟨hguessLow, hguessHigh⟩ := decimal_guess_bounds d hdle
  have hbinary : (2 : ℚ) ^ (d - 1) ≤ toRat m e := by
    rcases Nat.eq_zero_or_pos d with rfl | hpos
    · rwa [Nat.zero_sub, pow_zero]
    · rw [← zpow_natCast, Nat.cast_sub hpos]
      exact hlow.le
  have hstart : (10 : ℚ) ^ ((d : Int) * 3 / 10 - 4) ≤ toRat m e := by
    calc (10 : ℚ) ^ ((d : Int) * 3 / 10 - 4)
        ≤ 10 ^ ((d * 3 / 10 - 4 : Nat) : Int) := zpow_le_zpow_right₀ (by norm_num) (by omega)
      _ ≤ 2 ^ (d - 1) := by
          rw [zpow_natCast]
          exact_mod_cast hguessLow
      _ ≤ toRat m e := hbinary
  have hend : toRat m e < 10 ^ ((d : Int) * 3 / 10 - 4 + (8 : Nat) + 1) := by
    calc toRat m e < 2 ^ (d + 1) := by exact_mod_cast hhigh
      _ ≤ 10 ^ (d * 3 / 10 + 5) := by exact_mod_cast hguessHigh
      _ = 10 ^ ((d * 3 / 10 + 5 : Nat) : Int) := (zpow_natCast _ _).symm
      _ = 10 ^ ((d : Int) * 3 / 10 - 4 + (8 : Nat) + 1) := by
          congr 1
          omega
  rw [← numerator_div_denominator] at hstart hend
  obtain ⟨hbelow, habove⟩ := tensBelow_bounds hden hstart hend
  rw [numerator_div_denominator, ← hd] at hbelow habove
  change (10 : ℚ) ^ leadingExponent m e ≤ _ at hbelow
  change _ < (10 : ℚ) ^ (leadingExponent m e + 1) at habove
  obtain ⟨n, hn⟩ : ∃ n : Nat, leadingExponent m e = n := by
    have hpow : (10 : ℚ) ^ (0 : Int) < _ := (zpow_zero (10 : ℚ)).trans_le hone |>.trans_lt habove
    have := (zpow_lt_zpow_iff_right₀ (by norm_num : (1 : ℚ) < 10)).1 hpow
    exact Int.eq_ofNat_of_zero_le (by omega)
  rw [hn] at hbelow habove
  rw [zpow_natCast] at hbelow
  refine ⟨n, hn, ?_, hbelow, by exact_mod_cast habove⟩
  have hpow : (10 : ℚ) ^ n < 10 ^ 8 := hbelow.trans_lt (htop.trans_lt (by norm_num))
  exact Nat.le_of_lt_succ (lt_of_ten_pow_lt hpow)

/-! ## The rounded logarithm -/

theorem logFloor_cases {m n : Nat} {e : Int} (hn : leadingExponent m e = n) (hle : n ≤ 7) :
    logFloor m e = n ∨
      logFloor m e = n + 1 ∧ (10 : ℚ) ^ (n + 1) ≤ toRat (m + 9) e := by
  have hten : 10 ^ (n + 1) ≤ 2 ^ 53 := by
    calc 10 ^ (n + 1) ≤ 10 ^ 8 := Nat.pow_le_pow_right (by decide) (by omega)
      _ ≤ 2 ^ 53 := by decide
  obtain ⟨next, f, hnext, -, hvalue⟩ :=
    exists_ofNat (Nat.pow_pos (n := n + 1) (by decide : 0 < 10)) hten
  have hrounded : ∀ n ≤ 7, roundedUpBelow.getD (n + 1) 0 ≤ 9 := by decide
  dsimp only [logFloor, Nat.pow_eq]
  rw [hn, Int.toNat_natCast, hnext]
  dsimp only
  split
  · next hclose =>
      obtain ⟨rfl, hclose⟩ := hclose
      have hm : next ≤ m + 9 := hclose.trans (Nat.add_le_add_left (hrounded n hle) m)
      refine .inr ⟨rfl, ?_⟩
      calc (10 : ℚ) ^ (n + 1) = toRat next e := by rw [hvalue]; push_cast; rfl
        _ ≤ toRat (m + 9) e := toRat_le_toRat hm e
  · exact .inl rfl

/-- The exponent is that of the leading digit, or one more for a number right below a power of ten.
-/
theorem logFloor_bounds {m : Nat} {e : Int} (h : Shown m e) :
    logFloor m e ≤ 7 ∧ toRat m e < 10 ^ (logFloor m e + 1) ∧
      (10 : ℚ) ^ logFloor m e ≤ toRat m e * (1 + 2⁻¹ ^ 48) := by
  obtain ⟨n, hn, hle, hlow, hhigh⟩ := exists_leadingExponent h
  have hpos := toRat_pos h.pos e
  rcases logFloor_cases hn hle with hsame | ⟨hnext, hclose⟩
  · rw [hsame]
    exact ⟨hle, hhigh, hlow.trans (by norm_num; linarith)⟩
  · have hm : (2 : ℚ) ^ 52 ≤ m := by exact_mod_cast h.le_mantissa
    have hnear : toRat (m + 9) e ≤ toRat m e * (1 + 2⁻¹ ^ 48) := by
      have hm' : ((m + 9 : Nat) : ℚ) ≤ m * (1 + 2⁻¹ ^ 48) := by
        push_cast
        linarith
      rw [toRat, toRat, mul_right_comm]
      gcongr
    rw [hnext]
    refine ⟨?_, hhigh.trans (pow_lt_pow_right₀ (by norm_num) (by omega)), hclose.trans hnear⟩
    have htop := h.le_top
    have hpow : (10 : ℚ) ^ (n + 1) < 10 ^ 8 := by
      refine (hclose.trans hnear).trans_lt ?_
      calc toRat m e * (1 + 2⁻¹ ^ 48) ≤ 2 ^ 25 * (1 + 2⁻¹ ^ 48) := by gcongr
        _ < 10 ^ 8 := by norm_num
    exact Nat.le_of_lt_succ (lt_of_ten_pow_lt hpow)

/-! ## Scaling by a power of ten -/

theorem scaled_lt {m : Nat} {e : Int} (h : Shown m e) (i : Int) :
    toRat m e * 10 ^ i < 10 ^ ((logFloor m e : Int) + 1 + i) := by
  obtain ⟨-, hbelow, -⟩ := logFloor_bounds h
  calc toRat m e * 10 ^ i < 10 ^ (logFloor m e + 1) * 10 ^ i := by gcongr
    _ = 10 ^ ((logFloor m e : Int) + 1 + i) := by
        rw [zpow_add₀ (by norm_num) _ i]
        norm_cast

theorem le_scaled {m : Nat} {e : Int} (h : Shown m e) (i : Int) :
    (10 : ℚ) ^ ((logFloor m e : Int) + i) ≤ toRat m e * 10 ^ i * (1 + 2⁻¹ ^ 48) := by
  obtain ⟨-, -, habove⟩ := logFloor_bounds h
  calc (10 : ℚ) ^ ((logFloor m e : Int) + i) = 10 ^ logFloor m e * 10 ^ i := by
        rw [zpow_add₀ (by norm_num), zpow_natCast]
    _ ≤ toRat m e * (1 + 2⁻¹ ^ 48) * 10 ^ i := by gcongr
    _ = toRat m e * 10 ^ i * (1 + 2⁻¹ ^ 48) := mul_right_comm _ _ _

theorem approx_scaled {m : Nat} {e i : Int} (h : Shown m e) (hlow : -22 ≤ i)
    (hhigh : i ≤ 2147483647) :
    Approx (i.natAbs + 2) (toRat m e * 10 ^ i) ((Magnitude.finite m e).mul (tenTo i)) := by
  have hten : (2 : ℚ) ^ (-90 : Int) ≤ 10 ^ i := by
    calc (2 : ℚ) ^ (-90 : Int) ≤ 10 ^ (-22 : Int) := by norm_num
      _ ≤ 10 ^ i := zpow_le_zpow_right₀ (by norm_num) hlow
  have hproduct := (approx_self h.toNormal).mul (approx_tenTo_zpow hlow (by omega)) h.one_le hten
    (fun hinfinite => by cases hinfinite) (by omega)
  rwa [Nat.zero_add] at hproduct

end PeerWatch.Number
