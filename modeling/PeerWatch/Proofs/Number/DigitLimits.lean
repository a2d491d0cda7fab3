import PeerWatch.Proofs.Number.Checked
import PeerWatch.Proofs.Number.Numeral

/-!
# How many digits a size can have

The digits of a size are brought before the point by a power of ten, and a product beyond the format
is infinite. Up to 309 digits the text is a numeral, from 311 on it never is, and with 310 digits
the size decides.
-/

namespace PeerWatch.Number

open Magnitude

/-! ## Scaled values -/

section

variable {m p exponent : Nat} {e : Int} (h : Shown m e)

include h

/-- The scaled digits are those of an integer while their count stays below the format. -/
theorem leadingDigits_ne_infinite (hpos : 1 ≤ p) (hexponent : exponent ≤ 8)
    (hp : p + logFloor m e ≤ exponent + 308) :
    leadingDigits (.finite m e) p exponent ≠ .infinite := by
  obtain ⟨hfloor, -, -⟩ := logFloor_bounds h
  obtain ⟨n, hn, hsum⟩ : ∃ n : Nat, n ≤ 308 ∧
      (logFloor m e : Int) + 1 + (p - 1 - exponent) ≤ n :=
    ⟨308, le_rfl, by omega⟩
  have hscaled : toRat m e * 10 ^ ((p : Int) - 1 - exponent) ≤ 10 ^ n := by
    calc toRat m e * 10 ^ ((p : Int) - 1 - exponent)
        ≤ 10 ^ ((logFloor m e : Int) + 1 + (p - 1 - exponent)) := (scaled_lt h _).le
      _ ≤ 10 ^ (n : Int) := zpow_le_zpow_right₀ (by norm_num) hsum
      _ = 10 ^ n := zpow_natCast 10 n
  have happrox := approx_scaled h (i := p - 1 - exponent) (by omega) (by omega)
  have hfinite := happrox.ne_infinite (by omega) (by
    have := ten_pow_lt_limit hn
    linarith)
  rw [leadingDigits_eq _ hpos (by omega) hexponent]
  generalize (Magnitude.finite m e).mul (tenTo (p - 1 - exponent)) = a at happrox hfinite
  cases happrox with
  | infinite => exact absurd rfl hfinite
  | finite normal => exact round_ne_infinite normal

theorem leadingDigits_eq_infinite (hple : p ≤ 2147483647) (hexponent : exponent ≤ 8)
    (hp : 310 + exponent ≤ p + logFloor m e) :
    leadingDigits (.finite m e) p exponent = .infinite := by
  obtain ⟨hfloor, -, -⟩ := logFloor_bounds h
  obtain ⟨n, hn, hsum⟩ : ∃ n : Nat, 309 ≤ n ∧
      (n : Int) ≤ (logFloor m e : Int) + (p - 1 - exponent) :=
    ⟨309, le_rfl, by omega⟩
  have hscaled : (10 : ℚ) ^ n ≤ toRat m e * 10 ^ ((p : Int) - 1 - exponent) * (1 + 2⁻¹ ^ 48) := by
    calc (10 : ℚ) ^ n = 10 ^ (n : Int) := (zpow_natCast 10 n).symm
      _ ≤ 10 ^ ((logFloor m e : Int) + (p - 1 - exponent)) :=
          zpow_le_zpow_right₀ (by norm_num) hsum
      _ ≤ toRat m e * 10 ^ ((p : Int) - 1 - exponent) * (1 + 2⁻¹ ^ 48) := le_scaled h _
  have happrox := approx_scaled h (i := p - 1 - exponent) (by omega) (by omega)
  have hinfinite := happrox.eq_infinite (by omega) (by
    have := limit_lt_ten_pow hn
    have := limit_pos
    norm_num at hscaled
    linarith)
  rw [leadingDigits_eq _ (by omega) hple hexponent, hinfinite]
  rfl

end

/-! ## Numerals -/

theorem le_infinite (a : Magnitude) : a.le .infinite = true := by cases a <;> rfl

theorem exists_numeral_of_ne_infinite {a : Magnitude} (ha : a ≠ .infinite) (precision : Int)
    (exponent : Nat) :
    ∃ n : Numeral, n.text = placePoint (integerText a) precision exponent := by
  obtain ⟨k, hk⟩ := exists_integerText ha
  obtain ⟨n, hn, -⟩ := exists_placePoint (.ofNat k) precision exponent
  exact ⟨n, by rw [hn, hk]; rfl⟩

/-- Digits that are infinite at the first place are taken at the second one, and nothing else can
keep them from being a numeral. -/
theorem exists_numeral_significant {m p : Nat} {e : Int} (h : Shown m e) (hpos : 1 ≤ p)
    (hfew : p ≤ 309 ∨ leadingDigits (.finite m e) p (logFloor m e + 1) ≠ .infinite) :
    ∃ n : Numeral, n.text = significant (.finite m e) p := by
  obtain ⟨hfloor, -, -⟩ := logFloor_bounds h
  have hsecond : leadingDigits (.finite m e) p (logFloor m e + 1) ≠ .infinite := by
    rcases hfew with hless | hfinite
    · exact leadingDigits_ne_infinite h hpos (by omega) (by omega)
    · exact hfinite
  dsimp only [significant]
  split
  · exact exists_numeral_of_ne_infinite hsecond _ _
  · next hless =>
      refine exists_numeral_of_ne_infinite (fun hinfinite => hless ?_) _ _
      rw [hinfinite]
      exact le_infinite _

theorem head?_significant {m p : Nat} {e : Int} (h : Shown m e) (hlarge : 310 ≤ p)
    (hp : p ≤ 2147483647)
    (hsecond : leadingDigits (.finite m e) p (logFloor m e + 1) = .infinite) :
    (significant (.finite m e) p).head? = some 'i' := by
  obtain ⟨hfloor, -, -⟩ := logFloor_bounds h
  have hfirst : leadingDigits (.finite m e) p (logFloor m e) = .infinite :=
    leadingDigits_eq_infinite h hp (by omega) (by omega)
  dsimp only [significant]
  rw [hfirst, if_pos (le_infinite _), hsecond]
  exact head?_placePoint_infinite _ _

/-! ## Sizes -/

/-- A numeral, a blank and the name of a unit. -/
def IsSizeText (text : String) : Prop :=
  ∃ n : Numeral, ∃ unit ∈ "B" :: unitNames, text = n.label unit

theorem isSizeText_zero : IsSizeText "0 B" :=
  ⟨⟨.ofNat 0, none, none⟩, "B", List.mem_cons_self, by decide⟩

theorem IsSizeText.exists_head {text : String} (h : IsSizeText text) :
    ∃ c, text.toList.head? = some c ∧ c.isDigit = true := by
  obtain ⟨n, unit, -, rfl⟩ := h
  obtain ⟨c, cs, hcs, hdigit⟩ := n.exists_head
  exact ⟨c, by simp [Numeral.label, hcs], hdigit⟩

/-- The digits of a size that is shown with 310 of them, taken one place higher. -/
def lastScaling (bytes : Nat) : Magnitude :=
  match quotient bytes with
  | .finite m e => leadingDigits (.finite m e) 310 (logFloor m e + 1)
  | .infinite => .infinite

theorem lastScaling_of_finite {bytes m : Nat} {e : Int} (h : quotient bytes = .finite m e) :
    lastScaling bytes = leadingDigits (.finite m e) 310 (logFloor m e + 1) := by
  rw [lastScaling, h]

section

variable {bytes : Nat} (hpos : 0 < bytes) (hbytes : bytes < UInt64.size)

include hpos hbytes

theorem isSizeText_sizeText {decimals : Option Nat}
    (hfew : ∀ d ∈ decimals, d ≤ 308 ∨ d = 309 ∧ lastScaling bytes ≠ .infinite) :
    IsSizeText (sizeText bytes decimals) := by
  obtain ⟨m, e, hvalue, hshown⟩ := exists_quotient hpos hbytes
  obtain ⟨unit, hunit, -, hname⟩ := exists_unitName hpos
  have hcount : ∀ d ∈ decimals, d < 2147483647 := fun d hd => by
    rcases hfew d hd with hless | ⟨hexact, -⟩ <;> omega
  have hdigits : digitCount decimals ≤ 309 ∨
      leadingDigits (.finite m e) (digitCount decimals) (logFloor m e + 1) ≠ .infinite := by
    cases decimals with
    | none => exact .inl (by decide)
    | some d =>
        rcases hfew d rfl with hless | ⟨rfl, hfinite⟩
        · exact .inl (Nat.succ_le_succ hless)
        · rw [lastScaling_of_finite hvalue] at hfinite
          exact .inr hfinite
  obtain ⟨n, hn⟩ := exists_numeral_significant hshown (digitCount_bounds hcount).1 hdigits
  refine ⟨n, unit, List.mem_cons_of_mem _ hunit, ?_⟩
  rw [sizeText_of_pos hpos, hvalue, precisionFor_eq hcount, ← hn, hname]
  rfl

theorem decimals_le_of_isSizeText {d : Nat} (hd : d < 2147483647)
    (htext : IsSizeText (sizeText bytes (some d))) :
    d ≤ 308 ∨ d = 309 ∧ lastScaling bytes ≠ .infinite := by
  obtain ⟨m, e, hvalue, hshown⟩ := exists_quotient hpos hbytes
  have hcount : ∀ d' ∈ some d, d' < 2147483647 := fun d' hd' => by
    cases hd'
    exact hd
  by_contra hmany
  have hsecond : leadingDigits (.finite m e) (d + 1 : Nat) (logFloor m e + 1) = .infinite := by
    by_cases hexact : d = 309
    · by_contra hfinite
      refine hmany (.inr ⟨hexact, ?_⟩)
      rw [hexact] at hfinite
      rwa [lastScaling_of_finite hvalue]
    · have hfloor := (logFloor_bounds hshown).1
      exact leadingDigits_eq_infinite hshown hd (by omega) (by omega)
  have hhead := head?_significant hshown (by omega) hd hsecond
  obtain ⟨c, hc, hdigit⟩ := htext.exists_head
  rw [sizeText_of_pos hpos, precisionFor_eq hcount, hvalue] at hc
  simp only [String.toList_append, String.toList_ofList, List.append_assoc, List.head?_append,
    digitCount, Option.elim_some, hhead, Option.some_or] at hc
  cases hc
  cases hdigit

end

/-- A size is evaluated without a step beyond its type, and to a numeral with a unit, as long as it
is asked for at most 308 digits after the first. With one more it is the computed power of ten that
decides, and with more than that the digits are those of infinity. -/
theorem numeral_shown_iff {bytes : Nat} (hbytes : bytes < UInt64.size) (decimals : Option Nat) :
    sizeText? bytes decimals = some (sizeText bytes decimals) ∧
        IsSizeText (sizeText bytes decimals) ↔
      bytes = 0 ∨ ∀ d ∈ decimals, d ≤ 308 ∨ d = 309 ∧ lastScaling bytes ≠ .infinite := by
  rcases Nat.eq_zero_or_pos bytes with rfl | hpos
  · exact ⟨fun _ => .inl rfl, fun _ => ⟨rfl, isSizeText_zero⟩⟩
  constructor
  · rintro ⟨hchecked, htext⟩
    refine .inr fun d hd => ?_
    cases hd
    refine decimals_le_of_isSizeText hpos hbytes ?_ htext
    by_contra hmany
    rw [sizeText?_eq_none hpos (not_lt.1 hmany)] at hchecked
    cases hchecked
  · intro hfew
    have hfew := hfew.resolve_left hpos.ne'
    refine ⟨sizeText?_eq hbytes fun d hd => ?_, isSizeText_sizeText hpos hbytes hfew⟩
    rcases hfew d hd with hless | ⟨hexact, -⟩ <;> omega

theorem numeral_shown_for_three_decimals :
    1234 < UInt64.size ∧ sizeText 1234 (some 3) = "1.234 KB" ∧
      sizeText? 1234 (some 3) = some "1.234 KB" ∧ IsSizeText "1.234 KB" := by
  have htext : sizeText 1234 (some 3) = "1.234 KB" := by decide +kernel
  obtain ⟨hchecked, hnumeral⟩ := (numeral_shown_iff (show 1234 < UInt64.size by decide) (some 3)).2
    (.inr fun d hd => .inl (by cases hd; decide))
  rw [htext] at hchecked hnumeral
  exact ⟨by decide, htext, hchecked, hnumeral⟩

/-- With 401 digits, those of a single byte are the letters of infinity, cut at a point. -/
theorem infinity_shown_for_one_byte :
    sizeText 1 (some 400) = "in.f Bytes" ∧ ¬ IsSizeText (sizeText 1 (some 400)) := by
  have htext : sizeText 1 (some 400) = "in.f Bytes" := by decide +kernel
  refine ⟨htext, fun h => ?_⟩
  obtain ⟨c, hc, hdigit⟩ := h.exists_head
  rw [htext] at hc
  cases hc
  cases hdigit

end PeerWatch.Number
