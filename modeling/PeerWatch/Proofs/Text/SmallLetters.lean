import PeerWatch.Text.Capitalize

/-!
# Small characters

Lower-casing a text leaves characters that it leaves alone from then on: the lower-case form of a
character consists of small ones, and a text of small characters is its own lower case. No character
becomes blank or ceases to be. For the characters beyond ASCII this is read off the table of
capitals, run against run.
-/

namespace PeerWatch.Text

/-- A character that is its own lower-case form. -/
def isSmall (c : Char) : Bool := lowerChar c == [c]

theorem lowerChar_of_isSmall {c : Char} (h : isSmall c = true) : lowerChar c = [c] := eq_of_beq h

/-- The capital sigma has a lower-case form of its own in the table, too. -/
theorem ne_sigma_of_isSmall {c : Char} (h : isSmall c = true) : c ≠ 'Σ' := by
  rintro rfl
  revert h
  decide

/-! ## The table of capitals -/

/-- The code point to which a run of capitals leads. -/
def CaseRun.image (run : CaseRun) (n : Nat) : Nat := (n + run.shift).toNat

/-- Code points that need no look at their neighbours: there is no blank among them, no capital of
ASCII, no capital I with a dot and no surrogate. -/
def calmRanges : List (Nat × Nat) :=
  [(0x61, 0x7A), (0xA1, 0x12F), (0x131, 0x167F), (0x1681, 0x1FFF), (0x2060, 0x2FFF),
   (0x3001, 0xD7FF), (0xE000, 0x10FFFF)]

def CaseRun.isCalm (run : CaseRun) : Bool :=
  calmRanges.any fun r => Nat.ble r.1 (run.image run.first) && Nat.ble (run.image run.last) r.2

/-- The small letters of one run are not among the capitals of another: the two are apart, or go in
steps of two with an odd distance between them. -/
def CaseRun.misses (run other : CaseRun) : Bool :=
  Nat.blt (run.image run.last) other.first || Nat.blt other.last (run.image run.first) ||
    ((run.step == 2 || run.first == run.last) && other.step == 2 &&
      (run.image run.first + other.first) % 2 == 1)

theorem lowerRuns_calm : lowerRuns.all CaseRun.isCalm = true := by decide +kernel

theorem lowerRuns_miss : (lowerRuns.all fun run => lowerRuns.all run.misses) = true := by
  decide +kernel

theorem CaseRun.holds_iff {run : CaseRun} {n : Nat} :
    run.holds n = true ↔ run.first ≤ n ∧ n ≤ run.last ∧ (n - run.first) % run.step = 0 := by
  simp only [holds, Bool.and_eq_true, decide_eq_true_eq, beq_iff_eq, and_assoc]

theorem mem_calmRange {run : CaseRun} {n : Nat} (hrun : run ∈ lowerRuns)
    (hn : run.holds n = true) :
    ∃ r ∈ calmRanges, r.1 ≤ run.image n ∧ run.image n ≤ r.2 ∧ r.1 ≤ run.image run.first := by
  obtain ⟨r, hr, hinside⟩ := List.any_eq_true.1 (List.all_eq_true.1 lowerRuns_calm run hrun)
  obtain ⟨hfirst, hlast⟩ := Bool.and_eq_true_iff.1 hinside
  have hlow : r.1 ≤ run.image run.first := Nat.le_of_ble_eq_true hfirst
  have hhigh : run.image run.last ≤ r.2 := Nat.le_of_ble_eq_true hlast
  obtain ⟨hle, hge, -⟩ := CaseRun.holds_iff.1 hn
  have hmono : run.image run.first ≤ run.image n ∧ run.image n ≤ run.image run.last := by
    unfold CaseRun.image
    omega
  exact ⟨r, hr, Nat.le_trans hlow hmono.1, Nat.le_trans hmono.2 hhigh, hlow⟩

theorem calm_pos : ∀ r ∈ calmRanges, 0x61 ≤ r.1 := by decide

/-- What a run leads to is no capital of the table. -/
theorem not_holds_image {run other : CaseRun} {n : Nat} (hrun : run ∈ lowerRuns)
    (hother : other ∈ lowerRuns) (hn : run.holds n = true) :
    other.holds (run.image n) = false := by
  have hmiss : run.misses other = true :=
    List.all_eq_true.1 (List.all_eq_true.1 lowerRuns_miss run hrun) other hother
  obtain ⟨r, hr, -, -, hcalm⟩ := mem_calmRange hrun hn
  have hpos : 0x61 ≤ run.image run.first := Nat.le_trans (calm_pos r hr) hcalm
  obtain ⟨hfirst, hlast, hstep⟩ := CaseRun.holds_iff.1 hn
  rw [Bool.eq_false_iff, Ne, CaseRun.holds_iff]
  rintro ⟨hlow, hhigh, hother⟩
  simp only [CaseRun.misses, Bool.or_eq_true, Bool.and_eq_true, beq_iff_eq, Nat.blt_eq] at hmiss
  unfold CaseRun.image at *
  rcases hmiss with (hbefore | hbehind) | ⟨⟨heven | hone, htwo⟩, hodd⟩
  · omega
  · omega
  · rw [heven] at hstep
    rw [htwo] at hother
    omega
  · rw [htwo] at hother
    omega

theorem calm_code {r : Nat × Nat} {n : Nat} (hr : r ∈ calmRanges) (hlow : r.1 ≤ n)
    (hhigh : n ≤ r.2) :
    (Char.ofNat n).toNat = n ∧ n ≠ 0x130 ∧ ∀ c : Char, c.toNat = n → isSolid c = true := by
  have hcode : n.isValidChar ∧ n ≠ 0x130 ∧ ∀ c : Char, c.toNat = n → isSolid c = true := by
    simp only [isSolid, isBlank, Nat.isValidChar]
    simp only [calmRanges, List.mem_cons, List.not_mem_nil, or_false] at hr
    rcases hr with rfl | rfl | rfl | rfl | rfl | rfl | rfl <;> simp only at hlow hhigh <;>
      refine ⟨by omega, by omega, ?_⟩ <;> rintro c rfl <;> simp <;> omega
  refine ⟨?_, hcode.2⟩
  rw [Char.ofNat, dif_pos hcode.1]
  rfl

/-! ## Lower-case forms -/

theorem small_toLower_ascii : ∀ n < 0x80, isSmall (Char.ofNat n).toLower = true ∧
    (isSolid (Char.ofNat n) = true → isSolid (Char.ofNat n).toLower = true) := by
  decide +kernel

theorem toLower_of_small_ascii : ∀ n < 0x80, 0x61 ≤ n →
    (Char.ofNat n).toLower = Char.ofNat n := by
  decide +kernel

theorem isSmall_of_calm {c : Char} {r : Nat × Nat} (hr : r ∈ calmRanges) (hlow : r.1 ≤ c.toNat)
    (hhigh : c.toNat ≤ r.2) (hcapital : ∀ run ∈ lowerRuns, run.holds c.toNat = false) :
    isSmall c = true := by
  have hdot : c.toNat ≠ 0x130 := (calm_code hr hlow hhigh).2.1
  have hnone : lowerRuns.find? (·.holds c.toNat) = none :=
    List.find?_eq_none.2 fun run hrun => by simp [hcapital run hrun]
  have hlower : lowerChar c = [c] := by
    unfold lowerChar
    by_cases hascii : c.toNat < 0x80
    · have hself := toLower_of_small_ascii c.toNat hascii (Nat.le_trans (calm_pos r hr) hlow)
      rw [Char.ofNat_toNat] at hself
      rw [if_pos hascii, hself]
    · rw [if_neg hascii, if_neg hdot, hnone]
  exact beq_iff_eq.2 hlower

/-- The lower-case form of a character is small, and solid if the character is. -/
theorem small_of_mem_lowerChar {c x : Char} (h : x ∈ lowerChar c) :
    isSmall x = true ∧ (isSolid c = true → isSolid x = true) := by
  have hform := h
  unfold lowerChar at hform
  split at hform
  · next hascii =>
      have hsmall := small_toLower_ascii c.toNat hascii
      rw [Char.ofNat_toNat] at hsmall
      rwa [List.mem_singleton.1 hform]
  split at hform
  · have hletter : isSmall 'i' = true ∧ isSolid 'i' = true := by decide
    have hdot : isSmall '\u0307' = true ∧ isSolid '\u0307' = true := by decide
    rw [List.mem_cons, List.mem_singleton] at hform
    rcases hform with rfl | rfl
    · exact ⟨hletter.1, fun _ => hletter.2⟩
    · exact ⟨hdot.1, fun _ => hdot.2⟩
  split at hform
  · next run hfound =>
      have hrun : run ∈ lowerRuns := List.mem_of_find?_eq_some hfound
      have hholds : run.holds c.toNat = true :=
        List.find?_some (p := fun other : CaseRun => other.holds c.toNat) hfound
      obtain ⟨r, hr, hlow, hhigh, -⟩ := mem_calmRange hrun hholds
      have hx : x = Char.ofNat (run.image c.toNat) := List.mem_singleton.1 hform
      obtain ⟨hvalid, -, hsolid⟩ := calm_code hr hlow hhigh
      have hcode : x.toNat = run.image c.toNat := by rw [hx, hvalid]
      refine ⟨isSmall_of_calm hr (hcode ▸ hlow) (hcode ▸ hhigh) fun other hother => ?_,
        fun _ => hsolid x hcode⟩
      rw [hcode]
      exact not_holds_image hrun hother hholds
  · next hnone =>
      have hx : x = c := List.mem_singleton.1 hform
      have hself : lowerChar c = [c] := by
        unfold lowerChar
        simp only [*, if_false]
      rw [hx]
      exact ⟨beq_iff_eq.2 hself, id⟩

theorem isSmall_lowerSigma (before after : List Char) :
    isSmall (lowerSigma before after) = true ∧ isSolid (lowerSigma before after) = true := by
  unfold lowerSigma
  split <;> decide

theorem small_of_mem_lowerAfter {before cs : List Char} {x : Char}
    (h : x ∈ lowerAfter before cs) :
    isSmall x = true ∧ ((∀ c ∈ cs, isSolid c = true) → isSolid x = true) := by
  induction cs generalizing before with
  | nil => exact absurd h List.not_mem_nil
  | cons c cs ih =>
      rcases List.mem_append.1 h with hfirst | hrest
      · split at hfirst
        · rw [List.mem_singleton.1 hfirst]
          have hsigma := isSmall_lowerSigma before cs
          exact ⟨hsigma.1, fun _ => hsigma.2⟩
        · have hsmall := small_of_mem_lowerChar hfirst
          exact ⟨hsmall.1, fun hcs => hsmall.2 (hcs c List.mem_cons_self)⟩
      · have hsmall := ih hrest
        exact ⟨hsmall.1, fun hcs => hsmall.2 fun y hy => hcs y (List.mem_cons_of_mem c hy)⟩

theorem lowerAfter_of_small {before cs : List Char} (h : ∀ c ∈ cs, isSmall c = true) :
    lowerAfter before cs = cs := by
  induction cs generalizing before with
  | nil => rfl
  | cons c cs ih =>
      have hc : isSmall c = true := h c List.mem_cons_self
      rw [lowerAfter, if_neg (ne_sigma_of_isSmall hc), lowerChar_of_isSmall hc,
        ih fun x hx => h x (List.mem_cons_of_mem c hx), List.singleton_append]

/-- The texts that are their own lower case are those of small characters. -/
theorem lower_eq_self_iff {cs : List Char} : lower cs = cs ↔ ∀ c ∈ cs, isSmall c = true := by
  refine ⟨fun h c hc => ?_, lowerAfter_of_small⟩
  have hlower : c ∈ lowerAfter [] cs := by
    rwa [← lower, h]
  exact (small_of_mem_lowerAfter hlower).1

end PeerWatch.Text
