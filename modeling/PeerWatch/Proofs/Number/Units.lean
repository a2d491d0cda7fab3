import PeerWatch.Proofs.Number.Powers

/-!
# The unit of a size

The unit is the largest one that the size holds, and the size in that unit, rounded twice, is a
number of at least one that has the digits of the size.
-/

namespace PeerWatch.Number

/-! ## Climbing -/

/-- A unit that the size holds, the largest of those up to the one in place `top`. -/
structure SizeUnit.Holds (bytes top : Nat) (u : SizeUnit) : Prop where
  scale_eq : u.scale = 1000 ^ u.index
  scale_le : u.scale ≤ bytes
  index_le : u.index ≤ top
  lt_next : u.index < top → bytes < 1000 ^ (u.index + 1)

/-- The quotient is cut off, which does not matter for whether it reaches a whole number. -/
theorem holds_thousand_iff {bytes scale : Nat} (h : 0 < scale) :
    bytes / scale ≥ 1000 ↔ scale * 1000 ≤ bytes := by
  rw [ge_iff_le, Nat.le_div_iff_mul_le h, Nat.mul_comm]

theorem holds_climb {bytes n : Nat} {u : SizeUnit} (hscale : u.scale = 1000 ^ u.index)
    (hle : u.scale ≤ bytes) : (climb bytes n u).Holds bytes (u.index + n) := by
  induction n generalizing u with
  | zero => exact ⟨hscale, hle, le_rfl, fun h => absurd h (lt_irrefl _)⟩
  | succ n ih =>
      have hpos : 0 < u.scale := hscale ▸ Nat.pow_pos (by decide)
      have hnext : u.scale * 1000 = 1000 ^ (u.index + 1) := by rw [hscale, Nat.pow_succ]
      rw [climb]
      split
      · next hholds =>
          have h := ih (u := ⟨u.index + 1, u.scale * 1000⟩) hnext
            ((holds_thousand_iff hpos).1 hholds)
          rwa [Nat.add_right_comm] at h
      · next hsmall =>
          have hless : bytes < u.scale * 1000 :=
            not_le.1 fun h => hsmall ((holds_thousand_iff hpos).2 h)
          exact ⟨hscale, hle, Nat.le_add_right _ _, fun _ => hnext ▸ hless⟩

theorem holds_unitFor {bytes : Nat} (h : 0 < bytes) : (unitFor bytes).Holds bytes 4 := by
  have hclimb := holds_climb (n := unitNames.length - 1) (u := ⟨0, 1⟩) rfl h
  exact hclimb

namespace SizeUnit.Holds

variable {bytes : Nat} {u : SizeUnit} (h : u.Holds bytes 4)

include h

theorem scale_pos : 0 < u.scale := h.scale_eq ▸ Nat.pow_pos (by decide)

theorem scale_le_terabyte : u.scale ≤ 10 ^ 12 := by
  rw [h.scale_eq]
  calc 1000 ^ u.index ≤ 1000 ^ 4 := Nat.pow_le_pow_right (by decide) h.index_le
    _ = 10 ^ 12 := by decide

theorem bytes_le (hbytes : bytes < 2 ^ 64) : bytes ≤ 2 ^ 25 * u.scale := by
  rcases Nat.lt_or_ge u.index 4 with hless | htop
  · have hnext := h.lt_next hless
    rw [Nat.pow_succ, ← h.scale_eq] at hnext
    omega
  · rw [h.scale_eq, Nat.le_antisymm h.index_le htop]
    omega

end SizeUnit.Holds

/-! ## The size in its unit -/

/-- The size in its unit, in binary64 arithmetic. -/
def quotient (bytes : Nat) : Magnitude :=
  (Magnitude.ofNat bytes).div (Magnitude.ofNat (unitFor bytes).scale)

theorem sizeText_of_pos {bytes : Nat} (h : 0 < bytes) (decimals : Option Nat) :
    sizeText bytes decimals =
      String.ofList (significant (quotient bytes) (precisionFor decimals)) ++ " " ++
        unitNames.getD (unitFor bytes).index "" := by
  rw [sizeText, if_neg h.ne']
  rfl

/-- Every unit that is chosen has a name. -/
theorem exists_unitName {bytes : Nat} (h : 0 < bytes) :
    ∃ unit ∈ unitNames, unitNames[(unitFor bytes).index]? = some unit ∧
      unitNames.getD (unitFor bytes).index "" = unit := by
  have hindex : (unitFor bytes).index < unitNames.length :=
    Nat.lt_succ_of_le (holds_unitFor h).index_le
  have hname := List.getElem?_eq_getElem hindex
  exact ⟨_, List.getElem_mem hindex, hname, by rw [List.getD_eq_getElem?_getD, hname]; rfl⟩

namespace Magnitude

/-- A number of the format from one to `2 ^ 25`, which no size exceeds in its unit. -/
structure Shown (m : Nat) (e : Int) : Prop extends Normal m e where
  one_le : 1 ≤ toRat m e
  le_top : toRat m e ≤ 2 ^ 25

theorem Rounds.exists_shown {x : ℚ} {a : Magnitude} (h : Rounds x a) (hone : 1 ≤ x)
    (htop : x ≤ 2 ^ 25) : ∃ m e, a = .finite m e ∧ Shown m e := by
  have hfinite := h.ne_infinite (htop.trans (pow_le_pow_right₀ one_le_two (by decide)))
  cases h with
  | infinite => exact absurd rfl hfinite
  | finite normal le ge above below =>
      have hleast : toRat 1 0 = 1 := by norm_num [toRat]
      have hlargest : toRat 1 25 = 2 ^ 25 := by norm_num [toRat]
      refine ⟨_, _, rfl, normal, ?_, ?_⟩
      · exact hleast ▸ above 1 0 (by decide) (hleast ▸ hone)
      · exact hlargest ▸ below 1 25 (by decide) (hlargest ▸ htop)

end Magnitude

open Magnitude

/-- What is divided is the size itself unless it has more than 53 binary digits. -/
theorem exists_rounds_quotient {bytes : Nat} (hpos : 0 < bytes) (hbytes : bytes < 2 ^ 64) :
    ∃ x : ℚ, 1 ≤ x ∧ x ≤ 2 ^ 25 ∧ Rounds x (quotient bytes) ∧
      (bytes ≤ 2 ^ 53 → x = bytes / (unitFor bytes).scale) := by
  have hunit := holds_unitFor hpos
  have hsmall : (unitFor bytes).scale ≤ 2 ^ 53 := hunit.scale_le_terabyte.trans (by decide)
  have hscale : (0 : ℚ) < (unitFor bytes).scale := Nat.cast_pos.2 hunit.scale_pos
  obtain ⟨k, f, hdivisor, hk, hvalue⟩ := exists_ofNat hunit.scale_pos hsmall
  have hround := rounds_ofNat hpos
  have hfinite := hround.ne_infinite (by
    have hle : (bytes : ℚ) ≤ 2 ^ 64 := by exact_mod_cast hbytes.le
    exact hle.trans (pow_le_pow_right₀ one_le_two (by decide)))
  rw [quotient, hdivisor, ← hvalue]
  generalize hdividend : ofNat bytes = a at hround hfinite
  cases hround with
  | infinite => exact absurd rfl hfinite
  | @finite m e normal le ge above below =>
      have hleast : toRat k f ≤ toRat m e := by
        have hself := toRat_zero (unitFor bytes).scale
        have hle : ((unitFor bytes).scale : ℚ) ≤ bytes := Nat.cast_le.2 hunit.scale_le
        rw [hvalue, ← hself]
        exact above _ _ hsmall (hself ▸ hle)
      have hlargest : toRat m e ≤ 2 ^ 25 * toRat k f := by
        have hle : (bytes : ℚ) ≤ 2 ^ 25 * (unitFor bytes).scale := by
          exact_mod_cast hunit.bytes_le hbytes
        have hself : toRat (unitFor bytes).scale 25 = 2 ^ 25 * (unitFor bytes).scale := by
          norm_num [toRat, mul_comm]
        rw [hvalue, ← hself]
        exact below _ _ hsmall (hself ▸ hle)
      rw [← hvalue] at hscale
      have hone : 1 ≤ toRat m e / toRat k f := (one_le_div hscale).2 hleast
      refine ⟨toRat m e / toRat k f, hone, (div_le_iff₀ hscale).2 hlargest,
        rounds_div normal.pos hk.pos (le_trans (by norm_num) hone), fun hexact => ?_⟩
      obtain ⟨m', e', hsame, -, hbytes⟩ := exists_ofNat hpos hexact
      rw [hdividend] at hsame
      cases hsame
      rw [hbytes]

theorem exists_quotient {bytes : Nat} (hpos : 0 < bytes) (hbytes : bytes < 2 ^ 64) :
    ∃ m e, quotient bytes = .finite m e ∧ Shown m e := by
  obtain ⟨x, hone, htop, hround, -⟩ := exists_rounds_quotient hpos hbytes
  exact hround.exists_shown hone htop

theorem rounds_quotient {bytes : Nat} (hpos : 0 < bytes) (hbytes : bytes ≤ 2 ^ 53) :
    Rounds (bytes / (unitFor bytes).scale) (quotient bytes) := by
  obtain ⟨x, -, -, hround, hexact⟩ :=
    exists_rounds_quotient hpos (lt_of_le_of_lt hbytes (by decide))
  exact hexact hbytes ▸ hround

end PeerWatch.Number
