import PeerWatch.Proofs.Number.Digits
import PeerWatch.Proofs.Number.Powers

/-!
# Numerals

A decimal numeral is made of digits, and its parts cannot be empty. Digits set with a point are one,
and they are the digits of an integer unless the number that they come from is infinite.
-/

namespace PeerWatch.Number

/-- Decimal digits, at least one. -/
structure DigitText where
  chars : List Char
  ne_nil : chars ≠ []
  isDigit : ∀ c ∈ chars, c.isDigit = true

def DigitText.ofNat (n : Nat) : DigitText :=
  ⟨Nat.toDigits 10 n, Nat.toDigits_ne_nil, fun _ => isDigit_of_mem_toDigits⟩

def DigitText.value (ds : DigitText) : Nat := Nat.ofDigitChars 10 ds.chars 0

/-- A numeral: digits, digits after a point, and an exponent of ten by whether it is negative. -/
structure Numeral where
  whole : DigitText
  fraction : Option DigitText
  exponent : Option (Bool × DigitText)

namespace Numeral

/-- The digits after the point. -/
def fractionDigits (n : Numeral) : List Char := n.fraction.elim [] DigitText.chars

/-- The digits on both sides of the point. -/
def digits (n : Numeral) : List Char := n.whole.chars ++ n.fractionDigits

def fractionText : Option DigitText → List Char
  | none => []
  | some ds => '.' :: ds.chars

def exponentText : Option (Bool × DigitText) → List Char
  | none => []
  | some (negative, ds) => 'e' :: (if negative then '-' else '+') :: ds.chars

def text (n : Numeral) : List Char :=
  n.whole.chars ++ (fractionText n.fraction ++ exponentText n.exponent)

/-- The power of ten that the exponent stands for. -/
def power (n : Numeral) : Int :=
  match n.exponent with
  | none => 0
  | some (negative, ds) => if negative then -ds.value else ds.value

def value (n : Numeral) : ℚ :=
  Nat.ofDigitChars 10 n.digits 0 / 10 ^ n.fractionDigits.length * 10 ^ n.power

/-- A numeral and the name of a unit. -/
def label (n : Numeral) (unit : String) : String := String.ofList n.text ++ " " ++ unit

theorem exists_head (n : Numeral) : ∃ c cs, n.text = c :: cs ∧ c.isDigit = true := by
  obtain ⟨c, cs, hcs⟩ := List.exists_cons_of_ne_nil n.whole.ne_nil
  have hdigit := n.whole.isDigit c (hcs ▸ List.mem_cons_self)
  exact ⟨c, cs ++ (fractionText n.fraction ++ exponentText n.exponent), by rw [text, hcs]; rfl,
    hdigit⟩

theorem mem_text_of_plain {n : Numeral} (h : n.exponent = none) {c : Char} (hc : c ∈ n.text) :
    c.isDigit = true ∨ c = '.' := by
  rw [text, h, exponentText, List.append_nil, List.mem_append] at hc
  rcases hc with hwhole | hfraction
  · exact .inl (n.whole.isDigit c hwhole)
  · cases hds : n.fraction with
    | none => rw [hds] at hfraction; cases hfraction
    | some ds =>
        rw [hds, fractionText, List.mem_cons] at hfraction
        exact hfraction.symm.imp_left (ds.isDigit c)

end Numeral

/-! ## Digits set with a point -/

theorem exists_placePoint (ds : DigitText) (precision : Int) (exponent : Nat) :
    ∃ n : Numeral, n.text = placePoint ds.chars precision exponent ∧ n.digits = ds.chars ∧
      (exponent < precision →
        n.exponent = none ∧ n.fractionDigits = ds.chars.drop (exponent + 1)) := by
  unfold placePoint
  split
  · next hlarge =>
      obtain ⟨c, cs, hcs⟩ := List.exists_cons_of_ne_nil ds.ne_nil
      have hdigit : ∀ d ∈ c :: cs, d.isDigit = true := hcs ▸ ds.isDigit
      have hfirst : ∀ d ∈ [c], d.isDigit = true := fun d hd =>
        hdigit d (List.mem_cons.2 (.inl (List.mem_singleton.1 hd)))
      rw [hcs]
      cases cs with
      | nil =>
          refine ⟨⟨ds, none, some (false, .ofNat exponent)⟩, ?_, ?_,
            fun h => absurd h (not_lt.2 hlarge)⟩
          · rw [Numeral.text, hcs]
            rfl
          · rw [Numeral.digits, hcs]
            rfl
      | cons d cs =>
          let first : DigitText := ⟨[c], List.cons_ne_nil _ _, hfirst⟩
          let rest : DigitText :=
            ⟨d :: cs, List.cons_ne_nil _ _, fun d hd => hdigit d (List.mem_cons_of_mem c hd)⟩
          refine ⟨⟨first, some rest, some (false, .ofNat exponent)⟩, ?_, rfl,
            fun h => absurd h (not_lt.2 hlarge)⟩
          simp [Numeral.text, Numeral.fractionText, Numeral.exponentText, first, rest,
            DigitText.ofNat]
  · split
    · next hshort =>
        exact ⟨⟨ds, none, none⟩, List.append_nil _, List.append_nil _, fun _ =>
          ⟨rfl, (List.drop_eq_nil_of_le hshort).symm⟩⟩
    · next hlong =>
        let left : DigitText := ⟨ds.chars.take (exponent + 1), by
          simp [List.take_eq_nil_iff, ds.ne_nil], fun c hc => ds.isDigit c (List.mem_of_mem_take hc)⟩
        let right : DigitText := ⟨ds.chars.drop (exponent + 1), by
          rw [ne_eq, List.drop_eq_nil_iff]
          exact hlong, fun c hc => ds.isDigit c (List.mem_of_mem_drop hc)⟩
        refine ⟨⟨left, some right, none⟩, ?_, List.take_append_drop _ _, fun _ => ⟨rfl, rfl⟩⟩
        rw [Numeral.text, Numeral.exponentText, List.append_nil]
        rfl

/-- What is no number is not set as a numeral either. -/
theorem head?_placePoint_infinite (precision : Int) (exponent : Nat) :
    (placePoint (integerText .infinite) precision exponent).head? = some 'i' := by
  change (placePoint ['i', 'n', 'f'] precision exponent).head? = some 'i'
  unfold placePoint
  split
  · rfl
  · split <;> rfl

/-! ## Integers -/

open Magnitude

theorem exists_integerText {a : Magnitude} (h : a ≠ .infinite) :
    ∃ k, integerText a = Nat.toDigits 10 k := by
  cases a with
  | infinite => exact absurd rfl h
  | finite m e => exact ⟨_, rfl⟩

theorem integerText_ofNat {n : Nat} (hn : n ≤ 2 ^ 53) :
    integerText (Magnitude.ofNat n) = Nat.toDigits 10 n := by
  rcases Nat.eq_zero_or_pos n with rfl | hpos
  · have hzero : numerator 0 (-1074) / denominator (-1074) = 0 := by
      rw [numerator, Nat.zero_mul, Nat.zero_div]
    exact congrArg (Nat.toDigits 10) hzero
  · obtain ⟨m, e, hvalue, -, hrat⟩ := exists_ofNat hpos hn
    have hden := denominator_pos e
    rw [← numerator_div_denominator, div_eq_iff (Nat.cast_pos.2 hden).ne'] at hrat
    have hexact : numerator m e = n * denominator e := by exact_mod_cast hrat
    rw [hvalue, integerText, hexact, Nat.mul_div_cancel n hden]

theorem le_roundHalfUp_iff {m k : Nat} {e : Int} :
    k ≤ roundHalfUp m e ↔ (k : ℚ) ≤ toRat m e + 1 / 2 := by
  have hden := denominator_pos e
  have hpos : (0 : ℚ) < denominator e := Nat.cast_pos.2 hden
  rw [roundHalfUp, Nat.le_div_iff_mul_le (by omega), ← numerator_div_denominator,
    div_add_div _ _ hpos.ne' two_ne_zero, le_div_iff₀ (by positivity)]
  constructor
  · intro h
    have h : ((k * (2 * denominator e) : Nat) : ℚ) ≤ (2 * numerator m e + denominator e : Nat) :=
      Nat.cast_le.2 h
    push_cast at h
    linarith
  · intro h
    have h : ((k * (2 * denominator e) : Nat) : ℚ) ≤ (2 * numerator m e + denominator e : Nat) := by
      push_cast
      linarith
    exact Nat.cast_le.1 h

theorem abs_roundHalfUp_sub_le (m : Nat) (e : Int) :
    |(roundHalfUp m e : ℚ) - toRat m e| ≤ 1 / 2 := by
  have hlow : (roundHalfUp m e : ℚ) ≤ toRat m e + 1 / 2 := le_roundHalfUp_iff.1 le_rfl
  have hhigh : ¬ ((roundHalfUp m e + 1 : Nat) : ℚ) ≤ toRat m e + 1 / 2 := fun h =>
    absurd (le_roundHalfUp_iff.2 h) (Nat.not_succ_le_self _)
  push_cast at hhigh
  rw [abs_le]
  constructor <;> linarith

/-- The largest number of the format is far enough from infinity for its nearest integer. -/
theorem largest_round_lt : (((2 : ℚ) ^ 53 - 1) * 2 ^ 971 + 1 / 2) * slack < limit := by
  have hlarge : (2 : ℚ) ^ 60 ≤ 2 ^ 971 := pow_le_pow_right₀ one_le_two (by decide)
  have hsplit : limit = 2 ^ 53 * 2 ^ 971 := by rw [limit, ← pow_add]
  rw [hsplit, slack]
  generalize (2 : ℚ) ^ 971 = t at hlarge
  norm_num at hlarge ⊢
  linarith

theorem round_ne_infinite {m : Nat} {e : Int} (h : Normal m e) :
    (Magnitude.finite m e).round ≠ .infinite := by
  change Magnitude.ofNat (roundHalfUp m e) ≠ .infinite
  have hnear : (roundHalfUp m e : ℚ) ≤ toRat m e + 1 / 2 := le_roundHalfUp_iff.1 le_rfl
  rcases Nat.eq_zero_or_pos (roundHalfUp m e) with hzero | hpos
  · rw [hzero]
    exact Magnitude.noConfusion
  · intro hinfinite
    have hround := rounds_ofNat hpos
    rw [hinfinite] at hround
    cases hround with
    | infinite ge =>
        have hslack := slack_pos
        have hlargest : toRat m e ≤ (2 ^ 53 - 1) * 2 ^ 971 := by
          have hm : (m : ℚ) + 1 ≤ 2 ^ 53 := by exact_mod_cast h.mantissa_lt
          have he : (2 : ℚ) ^ e ≤ 2 ^ (971 : Int) := zpow_le_zpow_right₀ one_le_two h.exponent_le
          rw [zpow_ofNat] at he
          exact mul_le_mul (by linarith) he (by positivity) (by norm_num)
        refine absurd ge (not_le.2 (lt_of_le_of_lt ?_ largest_round_lt))
        gcongr
        exact hnear.trans (by gcongr)

end PeerWatch.Number
