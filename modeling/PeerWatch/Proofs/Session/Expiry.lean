import PeerWatch.Session.Assignment

/-!
# Expiry dates

A cookie that is set for a number of days expires that many days later, and two limits stand in the
way: the milliseconds of a duration are a signed 64-bit number, and the calendar ends. Seen from an
instant that has a date, the calendar is the narrower limit, and every number of days but zero goes
beyond it from some instant.

Instants are whole seconds: a number of days carries a fraction of a second along unchanged, so that
it decides nothing here. The instants within a leap second are left out.
-/

namespace PeerWatch.Session

open Time

/-- The seconds of a number of days, if a duration can hold them. -/
def duration? (days : Int) : Option Int :=
  let seconds := days * secondsPerDay
  if (seconds * 1000).natAbs < Nat.pow 2 63 then some seconds else none

/-- The instant that lies some seconds behind another, if it has a date. -/
def instantAfter? (now seconds : Int) : Option Int :=
  if hasDate (now + seconds) then some (now + seconds) else none

/-- The instant at which a cookie expires, within both limits. -/
def expiry? (now days : Int) : Option Int := (duration? days).bind (instantAfter? now)

theorem hasDate_iff {second : Int} :
    hasDate second = true ↔ -8334601228800 ≤ second ∧ second ≤ 8210266876799 := by
  have hfirst : firstSecond = -8334601228800 := by decide
  have hlast : lastSecond = 8210266876799 := by decide
  rw [hasDate, hfirst, hlast, Bool.and_eq_true, decide_eq_true_eq, decide_eq_true_eq]

/-- Two instants that have dates are no further apart than a duration can hold. -/
theorem duration?_of_hasDate {now days : Int} (hnow : hasDate now = true)
    (hexpiry : hasDate (now + days * secondsPerDay) = true) :
    duration? days = some (days * secondsPerDay) := by
  have hnow := hasDate_iff.1 hnow
  have hexpiry := hasDate_iff.1 hexpiry
  rw [duration?, Nat.pow_eq]
  exact if_pos (by omega)

theorem expiry?_eq {now : Int} (hnow : hasDate now = true) (days : Int) :
    expiry? now days =
      if hasDate (now + days * secondsPerDay) then some (now + days * secondsPerDay) else none := by
  by_cases hexpiry : hasDate (now + days * secondsPerDay) = true
  · rw [expiry?, duration?_of_hasDate hnow hexpiry]
    rfl
  · rw [if_neg hexpiry, expiry?, duration?]
    split
    · exact if_neg hexpiry
    · rfl

theorem isSome_expiry?_iff {now : Int} (hnow : hasDate now = true) (days : Int) :
    (expiry? now days).isSome = true ↔
      -((now - firstSecond) / secondsPerDay) ≤ days ∧ days ≤ (lastSecond - now) / secondsPerDay := by
  have hfirst : firstSecond = -8334601228800 := by decide
  have hlast : lastSecond = 8210266876799 := by decide
  have hday : secondsPerDay = 86400 := rfl
  rw [expiry?_eq hnow, Option.isSome_ite, hasDate_iff, hfirst, hlast, hday]
  omega

/-- The text that sets a cookie, with the date of its expiry. -/
theorem assignment_of_ne_zero {now days : Int} (hnow : hasDate now = true) (hdays : days ≠ 0)
    (name value : String) :
    assignment now name value (some days) =
      match expiry? now days with
      | some expiry => .ok (name ++ "=" ++ value ++ "; expires=" ++ headerDate expiry)
      | none => .error .outOfRange := by
  have hfilter : (some days).filter (· ≠ 0) = some days := by simp [Option.filter, hdays]
  rw [assignment, hfilter, expiry?_eq hnow]
  dsimp only
  split <;> rfl

theorem assignment_of_session {now : Int} (name value : String) {days : Option Int}
    (hdays : ∀ d ∈ days, d = 0) : assignment now name value days = .ok (name ++ "=" ++ value) := by
  have hfilter : days.filter (· ≠ 0) = none := by
    cases days with
    | none => rfl
    | some d => simp [Option.filter, hdays d rfl]
  rw [assignment, hfilter]

theorem exists_assignment_iff {now : Int} (hnow : hasDate now = true) (name value : String)
    (days : Option Int) :
    (∃ text, assignment now name value days = .ok text) ↔
      ∀ d ∈ days, d = 0 ∨ (expiry? now d).isSome = true := by
  by_cases hsession : ∀ d ∈ days, d = 0
  · rw [assignment_of_session name value hsession]
    exact ⟨fun _ d hd => .inl (hsession d hd), fun _ => ⟨_, rfl⟩⟩
  · obtain ⟨d, rfl, hne⟩ : ∃ d, days = some d ∧ d ≠ 0 := by
      cases days with
      | none => exact absurd (fun _ hd => by cases hd) hsession
      | some d => exact ⟨d, rfl, fun hzero => hsession fun _ hd => by cases hd; exact hzero⟩
    simp only [Option.mem_some_iff, forall_eq', hne, false_or]
    rw [assignment_of_ne_zero hnow hne]
    cases expiry? now d with
    | some expiry => exact ⟨fun _ => rfl, fun _ => ⟨_, rfl⟩⟩
    | none =>
        refine ⟨?_, fun h => by cases h⟩
        rintro ⟨text, h⟩
        cases h

theorem exists_removal_iff {now : Int} (hnow : hasDate now = true) (name : String) :
    (∃ text, removal now name = .ok text) ↔ firstSecond + secondsPerDay ≤ now := by
  have hbounds := hasDate_iff.1 hnow
  have hfirst : firstSecond = -8334601228800 := by decide
  have hlast : lastSecond = 8210266876799 := by decide
  have hday : secondsPerDay = 86400 := rfl
  rw [removal, exists_assignment_iff hnow]
  simp only [Option.mem_some_iff, forall_eq', isSome_expiry?_iff hnow, hfirst, hlast, hday]
  omega

/-- From the last instant of the calendar no cookie can be set for the time to come, and from the
first none can be taken back. -/
theorem exists_expiry?_eq_none {days : Int} (hdays : days ≠ 0) :
    ∃ now, hasDate now = true ∧ expiry? now days = none := by
  have hfirst : hasDate firstSecond = true := by decide
  have hlast : hasDate lastSecond = true := by decide
  have hday : secondsPerDay = 86400 := rfl
  rcases Int.lt_or_gt_of_ne hdays with hneg | hpos
  · refine ⟨firstSecond, hfirst, ?_⟩
    rw [← Option.not_isSome_iff_eq_none, isSome_expiry?_iff hfirst, hday]
    omega
  · refine ⟨lastSecond, hlast, ?_⟩
    rw [← Option.not_isSome_iff_eq_none, isSome_expiry?_iff hlast, hday]
    omega

/-- At an instant that has a date, a cookie can be set for a number of days exactly if its expiry
keeps within both limits. That is so for the days up to the end of the calendar and back to its
start, so that removing a cookie takes one day since that start; and apart from zero there is no
number of days for which a cookie can be set at every instant. -/
theorem cookie_set_iff_expiry_dated {now : Int} (hnow : hasDate now = true) (name value : String)
    (days : Option Int) :
    ((∃ text, assignment now name value days = .ok text) ↔
        ∀ d ∈ days, d = 0 ∨ (expiry? now d).isSome = true) ∧
      (∀ d : Int, (expiry? now d).isSome = true ↔
        -((now - firstSecond) / secondsPerDay) ≤ d ∧ d ≤ (lastSecond - now) / secondsPerDay) ∧
      ((∃ text, removal now name = .ok text) ↔ firstSecond + secondsPerDay ≤ now) ∧
      ∀ d ∈ days, d ≠ 0 → ∃ other, hasDate other = true ∧
        assignment other name value days = .error .outOfRange := by
  refine ⟨exists_assignment_iff hnow name value days, fun d => isSome_expiry?_iff hnow d,
    exists_removal_iff hnow name, fun d hd hne => ?_⟩
  obtain ⟨other, hother, hnone⟩ := exists_expiry?_eq_none hne
  cases hd
  refine ⟨other, hother, ?_⟩
  rw [assignment_of_ne_zero hother hne, hnone]

theorem cookie_set_for_thirty_days :
    hasDate 1360000000 = true ∧
      ∃ text, assignment 1360000000 "name" "alice" (some 30) = .ok text :=
  have hnow : hasDate 1360000000 = true := by decide
  have hdated : ∀ d ∈ some (30 : Int), d = 0 ∨ (expiry? 1360000000 d).isSome = true := by
    rintro d ⟨⟩
    exact .inr (by decide)
  ⟨hnow, (cookie_set_iff_expiry_dated hnow "name" "alice" (some 30)).1.2 hdated⟩

/-- A hundred million days lead from 2013 beyond the calendar. -/
theorem cookie_expiry_beyond_calendar :
    hasDate 1360000000 = true ∧
      assignment 1360000000 "name" "alice" (some 100000000) = .error .outOfRange :=
  ⟨by decide, rfl⟩

end PeerWatch.Session
