import PeerWatch.Proofs.Number.Checked

/-!
# The loop over the units

The loop that looks for the unit of a size, one turn at a time and with every operation checked. A
turn multiplies the scale only where the size holds the product, so that it fits wherever the size
does; every turn leaves fewer units, and the unit in which the loop ends is the largest that the
size holds.
-/

namespace PeerWatch.Number

open Magnitude

/-! ## Turns -/

/-- A turn with every operation checked: `none` where one is refused, and otherwise the unit that
the loop goes on with, if it does. -/
def turn? (bytes : Nat) (u : SizeUnit) : Option (Option SizeUnit) :=
  if u.index < unitNames.length - 1 then do
    let q ← div? bytes u.scale
    if q ≥ 1000 then
      let scale ← word64? (u.scale * 1000)
      let index ← word64? (u.index + 1)
      return some ⟨index, scale⟩
    else return none
  else return none

theorem turn?_of_top {bytes : Nat} {u : SizeUnit} (h : unitNames.length - 1 ≤ u.index) :
    turn? bytes u = some none :=
  if_neg (not_lt.2 h)

section

variable {bytes : Nat} {u : SizeUnit} (hindex : u.index < unitNames.length - 1)
  (hpos : 0 < u.scale)

include hindex hpos

theorem turn?_of_lt (hless : bytes < u.scale * 1000) : turn? bytes u = some none := by
  have hquotient : ¬ bytes / u.scale ≥ 1000 :=
    fun h => not_lt.2 ((holds_thousand_iff hpos).1 h) hless
  rw [turn?, if_pos hindex, div?, if_neg hpos.ne', Option.bind_eq_bind, Option.bind_some,
    if_neg hquotient]
  rfl

/-- The product fits because the size, which holds it, does. -/
theorem turn?_of_le (hle : u.scale * 1000 ≤ bytes) (hbytes : bytes < UInt64.size) :
    turn? bytes u = some (some ⟨u.index + 1, u.scale * 1000⟩) := by
  have hscale : word64? (u.scale * 1000) = some (u.scale * 1000) :=
    if_pos (lt_of_le_of_lt hle hbytes)
  have hnext : word64? (u.index + 1) = some (u.index + 1) :=
    if_pos (lt_of_le_of_lt (Nat.succ_le_of_lt hindex) (by decide))
  rw [turn?, if_pos hindex, div?, if_neg hpos.ne', Option.bind_eq_bind, Option.bind_some,
    if_pos ((holds_thousand_iff hpos).2 hle), hscale, Option.bind_some, hnext]
  rfl

end

/-! ## The largest unit -/

namespace SizeUnit.Holds

variable {bytes : Nat} {u : SizeUnit} (h : u.Holds bytes 4)

include h

theorem isGreatest : IsGreatest {k | k ≤ 4 ∧ 1000 ^ k ≤ bytes} u.index := by
  refine ⟨⟨h.index_le, h.scale_eq ▸ h.scale_le⟩, ?_⟩
  rintro k ⟨htop, hk⟩
  by_contra hmore
  have hnext : bytes < 1000 ^ (u.index + 1) := h.lt_next (by omega)
  have hmono : 1000 ^ (u.index + 1) ≤ 1000 ^ k := Nat.pow_le_pow_right (by decide) (by omega)
  omega

theorem unique {v : SizeUnit} (hv : v.Holds bytes 4) : u = v := by
  have hindex : u.index = v.index := h.isGreatest.unique hv.isGreatest
  have hscale : u.scale = v.scale := by rw [h.scale_eq, hv.scale_eq, hindex]
  cases u
  cases v
  cases hindex
  cases hscale
  rfl

end SizeUnit.Holds

/-! ## Runs -/

/-- The units that the loop comes by. -/
inductive Passed (bytes : Nat) : SizeUnit → Prop
  | start : Passed bytes ⟨0, 1⟩
  | next {u v : SizeUnit} (h : Passed bytes u) (hturn : turn? bytes u = some (some v)) :
      Passed bytes v

/-- What every turn keeps. -/
structure Climbing (bytes : Nat) (u : SizeUnit) : Prop where
  scale_eq : u.scale = 1000 ^ u.index
  scale_le : u.scale ≤ bytes
  index_le : u.index ≤ 4

theorem Climbing.holds {bytes : Nat} {u : SizeUnit} (h : Climbing bytes u)
    (hless : u.index < 4 → bytes < u.scale * 1000) : u.Holds bytes 4 := by
  refine ⟨h.scale_eq, h.scale_le, h.index_le, fun hindex => ?_⟩
  rw [Nat.pow_succ, ← h.scale_eq]
  exact hless hindex

theorem Climbing.turn_cases {bytes : Nat} {u : SizeUnit} (h : Climbing bytes u)
    (hbytes : bytes < UInt64.size) :
    turn? bytes u = some none ∧ u.Holds bytes 4 ∨
      ∃ v, turn? bytes u = some (some v) ∧ v.index = u.index + 1 ∧ Climbing bytes v := by
  have hpos : 0 < u.scale := h.scale_eq ▸ Nat.pow_pos (by decide)
  rcases Nat.lt_or_ge u.index 4 with hindex | htop
  · rcases Nat.lt_or_ge bytes (u.scale * 1000) with hless | hle
    · exact .inl ⟨turn?_of_lt hindex hpos hless, h.holds fun _ => hless⟩
    · have hnext : u.scale * 1000 = 1000 ^ (u.index + 1) := by rw [h.scale_eq, Nat.pow_succ]
      exact .inr ⟨_, turn?_of_le hindex hpos hle hbytes, rfl, hnext, hle, hindex⟩
  · exact .inl ⟨turn?_of_top htop, h.holds fun hindex => absurd htop (not_le.2 hindex)⟩

section

variable {bytes : Nat} (hpos : 0 < bytes) (hbytes : bytes < UInt64.size)

include hpos hbytes

theorem Passed.climbing {u : SizeUnit} (h : Passed bytes u) : Climbing bytes u := by
  induction h with
  | start => exact ⟨rfl, hpos, Nat.zero_le 4⟩
  | next _ hturn ih =>
      rcases ih.turn_cases hbytes with ⟨hover, -⟩ | ⟨w, hw, -, hclimbing⟩
      · rw [hover] at hturn
        cases hturn
      · rw [hw] at hturn
        cases hturn
        exact hclimbing

theorem Passed.turn?_ne_none {u : SizeUnit} (h : Passed bytes u) : turn? bytes u ≠ none := by
  rcases (h.climbing hpos hbytes).turn_cases hbytes with ⟨hover, -⟩ | ⟨v, hv, -, -⟩
  · simp [hover]
  · simp [hv]

theorem Passed.holds {u : SizeUnit} (h : Passed bytes u) (hover : turn? bytes u = some none) :
    u.Holds bytes 4 := by
  rcases (h.climbing hpos hbytes).turn_cases hbytes with ⟨-, hholds⟩ | ⟨v, hv, -, -⟩
  · exact hholds
  · rw [hover] at hv
    cases hv

/-- The induction is on the number of units that are left. -/
theorem Passed.exists_over {u : SizeUnit} (h : Passed bytes u) (n : Nat) (hn : u.index + n = 4) :
    ∃ v, Passed bytes v ∧ turn? bytes v = some none := by
  induction n generalizing u with
  | zero => exact ⟨u, h, turn?_of_top hn.ge⟩
  | succ n ih =>
      rcases (h.climbing hpos hbytes).turn_cases hbytes with ⟨hover, -⟩ | ⟨v, hv, hindex, -⟩
      · exact ⟨u, h, hover⟩
      · exact ih (h.next hv) (by omega)

theorem passed_over_iff (u : SizeUnit) :
    Passed bytes u ∧ turn? bytes u = some none ↔ u = unitFor bytes := by
  constructor
  · rintro ⟨h, hover⟩
    exact (h.holds hpos hbytes hover).unique (holds_unitFor hpos)
  · rintro rfl
    obtain ⟨v, hv, hover⟩ := Passed.start.exists_over hpos hbytes 4 rfl
    have hsame : v = unitFor bytes := (hv.holds hpos hbytes hover).unique (holds_unitFor hpos)
    exact hsame ▸ ⟨hv, hover⟩

end

/-! ## Sizes in their units -/

/-- As many of a unit as it is there for: at least one, and less than a thousand of all but the
last. -/
structure InUnit (u : SizeUnit) (x : ℚ) : Prop where
  one_le : 1 ≤ x
  lt_thousand : unitNames[u.index]? = some "TB" ∨ x < 1000

theorem SizeUnit.Holds.name_or_lt {bytes : Nat} {u : SizeUnit} (h : u.Holds bytes 4) :
    unitNames[u.index]? = some "TB" ∨ u.index < 4 ∧ bytes < u.scale * 1000 := by
  rcases Nat.lt_or_ge u.index 4 with hindex | htop
  · have hnext := h.lt_next hindex
    rw [Nat.pow_succ, ← h.scale_eq] at hnext
    exact .inr ⟨hindex, hnext⟩
  · rw [Nat.le_antisymm h.index_le htop]
    exact .inl rfl

theorem SizeUnit.Holds.inUnit {bytes : Nat} {u : SizeUnit} (h : u.Holds bytes 4) :
    InUnit u (bytes / u.scale) := by
  have hscale : (0 : ℚ) < u.scale := Nat.cast_pos.2 h.scale_pos
  refine ⟨(one_le_div hscale).2 (Nat.cast_le.2 h.scale_le), ?_⟩
  refine h.name_or_lt.imp_right fun ⟨_, hless⟩ => ?_
  rw [div_lt_iff₀ hscale, mul_comm]
  exact_mod_cast hless

/-- The rounding does not reach a thousand: the size is short of it by a byte, and the unit has no
more than `10 ^ 9` of them. -/
theorem exists_quotient_inUnit {bytes : Nat} (hpos : 0 < bytes) (hbytes : bytes < 2 ^ 64) :
    ∃ m e, quotient bytes = .finite m e ∧ InUnit (unitFor bytes) (toRat m e) := by
  have hunit := holds_unitFor hpos
  obtain ⟨m, e, hvalue, hshown⟩ := exists_quotient hpos hbytes
  refine ⟨m, e, hvalue, hshown.one_le, hunit.name_or_lt.imp_right ?_⟩
  rintro ⟨hindex, hless⟩
  have hsmall : (unitFor bytes).scale ≤ 1000 ^ 3 :=
    hunit.scale_eq ▸ Nat.pow_le_pow_right (by decide) (Nat.le_of_lt_succ hindex)
  have hgap : (bytes / (unitFor bytes).scale : ℚ) ≤ 1000 - 1 / 10 ^ 9 := by
    have hscale : (0 : ℚ) < (unitFor bytes).scale := Nat.cast_pos.2 hunit.scale_pos
    have hbyte : 10 ^ 9 * bytes + (unitFor bytes).scale ≤
        10 ^ 12 * (unitFor bytes).scale := by omega
    have hbyte : (10 ^ 9 * bytes + (unitFor bytes).scale : ℚ) ≤
        10 ^ 12 * (unitFor bytes).scale := by exact_mod_cast hbyte
    rw [div_le_iff₀ hscale]
    linarith
  have hround := rounds_quotient hpos (by omega)
  rw [hvalue] at hround
  cases hround with
  | finite normal le ge above below =>
      rw [slack] at le
      norm_num at le hgap
      linarith

/-- No operation of the loop is refused, and the loop ends in the largest unit that the size holds.
The size in that unit is at least one and, below the last unit, less than a thousand, before and
after it is rounded. -/
theorem unit_loop_ends_in_largest {bytes : Nat} (hpos : 0 < bytes)
    (hbytes : bytes < UInt64.size) :
    (∀ u, Passed bytes u → turn? bytes u ≠ none) ∧
      (∀ u, Passed bytes u ∧ turn? bytes u = some none ↔ u = unitFor bytes) ∧
      (unitFor bytes).scale = 1000 ^ (unitFor bytes).index ∧
      IsGreatest {k | k ≤ 4 ∧ 1000 ^ k ≤ bytes} (unitFor bytes).index ∧
      InUnit (unitFor bytes) (bytes / (unitFor bytes).scale) ∧
      ∃ m e, quotient bytes = .finite m e ∧ InUnit (unitFor bytes) (toRat m e) := by
  have hunit := holds_unitFor hpos
  exact ⟨fun u h => h.turn?_ne_none hpos hbytes, passed_over_iff hpos hbytes, hunit.scale_eq,
    hunit.isGreatest, hunit.inUnit, exists_quotient_inUnit hpos hbytes⟩

/-- The largest size below a terabyte, which is less than a thousand gigabytes. -/
theorem unit_loop_ends_in_gigabytes :
    0 < 999999999999 ∧ 999999999999 < UInt64.size ∧ unitFor 999999999999 = ⟨3, 1000 ^ 3⟩ ∧
      (∀ u, Passed 999999999999 u → turn? 999999999999 u ≠ none) ∧
      Passed 999999999999 ⟨3, 1000 ^ 3⟩ ∧ turn? 999999999999 ⟨3, 1000 ^ 3⟩ = some none ∧
      IsGreatest {k | k ≤ 4 ∧ 1000 ^ k ≤ 999999999999} 3 ∧
      ∃ m e, quotient 999999999999 = .finite m e ∧ 1 ≤ toRat m e ∧ toRat m e < 1000 := by
  have hpos : 0 < 999999999999 := by decide
  have hbytes : 999999999999 < UInt64.size := by decide
  have hunit : unitFor 999999999999 = ⟨3, 1000 ^ 3⟩ := by decide
  obtain ⟨hsafe, hends, -, hlargest, -, m, e, hvalue, hin⟩ :=
    unit_loop_ends_in_largest hpos hbytes
  rw [hunit] at hlargest hin
  obtain ⟨hpassed, hover⟩ := (hends _).2 hunit.symm
  exact ⟨hpos, hbytes, hunit, hsafe, hpassed, hover, hlargest, m, e, hvalue, hin.one_le,
    hin.lt_thousand.resolve_left (by decide)⟩

end PeerWatch.Number
