import Mathlib.Tactic.Ring

/-!
# `Go.Calendar` — the proleptic Gregorian arithmetic of Go's `time` package

`Time.Format` turns an instant into a civil date with `absDate`, and `time.Parse` turns the date back
into a day count with `Date`. This module models both halves on day counts from 0001-01-01 (Go counts
from an absolute epoch 292277022399 years earlier, a whole number of 400-year cycles, so the arithmetic
is the same) and proves that they are inverse:

- `yearAndDay` cuts a day count into 400-, 100-, 4- and 1-year cycles, as Go's `absDate` does, and
  `monthAndDay` finds the month by Go's "estimate with 31-day months, then correct by one" step.
- `daysBeforeYear` is Go's `daysSinceEpoch` in closed form, and `dayOfYear` the month-and-day part of
  `Date`.
- `absDate_spec`: the date of a day count is a valid date, the check `time.Parse` makes before it calls
  `Date`, and gives that day count back; `absDate_daysOfDate` is the other direction, so the two are
  inverse on valid dates.
-/

namespace CloudEvents.Go

/-- Go's `isLeap`. -/
def isLeap (year : Int) : Bool := year % 4 == 0 && (year % 100 != 0 || year % 400 == 0)

theorem isLeap_iff (y : Int) : isLeap y = true ↔ y % 4 = 0 ∧ (y % 100 ≠ 0 ∨ y % 400 = 0) := by
  simp [isLeap]

/-- Go's `daysBefore[m]`: the days of the first `m` months of a common year. -/
def daysBefore : Nat → Nat
  | 0 => 0 | 1 => 31 | 2 => 59 | 3 => 90 | 4 => 120 | 5 => 151 | 6 => 181
  | 7 => 212 | 8 => 243 | 9 => 273 | 10 => 304 | 11 => 334 | _ => 365

/-- Go's `daysIn(m, year)`: the length of month `m` (from 1). -/
def daysIn (month : Nat) (year : Int) : Nat :=
  if month = 2 ∧ isLeap year then 29 else daysBefore month - daysBefore (month - 1)

/-- No month is longer than 31 days. -/
theorem daysIn_le (m : Nat) (y : Int) : daysIn m y ≤ 31 := by
  unfold daysIn
  split
  · omega
  · rcases m with _|_|_|_|_|_|_|_|_|_|_|_|_|m <;> simp [daysBefore]

/-- The table facts the month estimate rests on: no month is longer than 31 days, and the first `k + 1`
months hold at least `31 k` days. -/
theorem daysBefore_bounds : ∀ k ≤ 11,
    daysBefore k ≤ 31 * k ∧ 31 * k ≤ daysBefore (k + 1) ∧ 31 ≤ daysBefore (k + 1) ∧
      daysBefore k ≤ daysBefore (k + 1) ∧ (2 ≤ k → 59 ≤ daysBefore k) ∧
      (k ≤ 1 → daysBefore (k + 1) ≤ 59) := by
  decide

/-! ## From a day count to a date -/

/-- Go's `absDate`, first half: the year holding day `d` (counted from 0001-01-01) and the day within
that year, from 0. -/
def yearAndDay (d : Int) : Int × Nat :=
  let r400 := (d % 146097).toNat
  let n100 := min (r400 / 36524) 3
  let r100 := r400 - 36524 * n100
  let n4 := r100 / 1461
  let r4 := r100 - 1461 * n4
  let n1 := min (r4 / 365) 3
  (400 * (d / 146097) + 100 * n100 + 4 * n4 + n1 + 1, r4 - 365 * n1)

/-- Go's `absDate`, second half: the month (from 1) and day (from 1) of day `yday` of a year. -/
def monthAndDay (leap : Bool) (yday : Nat) : Nat × Nat :=
  if leap ∧ yday = 59 then (2, 29) else
  let day := if leap ∧ 59 < yday then yday - 1 else yday
  let m := day / 31
  if daysBefore (m + 1) ≤ day then (m + 2, day - daysBefore (m + 1) + 1)
  else (m + 1, day - daysBefore m + 1)

/-- Go's `absDate`: year, month and day of day `d`. -/
def absDate (d : Int) : Int × Nat × Nat :=
  let yd := yearAndDay d
  let md := monthAndDay (isLeap yd.1) yd.2
  (yd.1, md.1, md.2)

/-! ## From a date to a day count -/

/-- Go's `daysSinceEpoch`, moved to 0001-01-01: the days before January 1 of `year`. -/
def daysBeforeYear (year : Int) : Int :=
  let y := year - 1
  365 * y + y / 4 - y / 100 + y / 400

/-- What Go's `Date` adds to the start of the year for a month and a day. -/
def dayOfYear (leap : Bool) (month day : Nat) : Nat :=
  daysBefore (month - 1) + (if leap ∧ 3 ≤ month then 1 else 0) + day - 1

/-- The day count of a valid date, from 0001-01-01. -/
def daysOfDate (year : Int) (month day : Nat) : Int :=
  daysBeforeYear year + dayOfYear (isLeap year) month day

/-! ## The two directions agree -/

/-- The closed form of `daysSinceEpoch` adds up the cycles a year number is made of. -/
theorem daysBeforeYear_cycles (a b c e : Int) (hb : 0 ≤ b ∧ b ≤ 3) (hc : 0 ≤ c ∧ c ≤ 24)
    (he : 0 ≤ e ∧ e ≤ 3) :
    daysBeforeYear (400 * a + 100 * b + 4 * c + e + 1) =
      146097 * a + 36524 * b + 1461 * c + 365 * e := by
  have h4 : (400 * a + 100 * b + 4 * c + e) / 4 = 100 * a + 25 * b + c := by omega
  have h100 : (400 * a + 100 * b + 4 * c + e) / 100 = 4 * a + b := by omega
  have h400 : (400 * a + 100 * b + 4 * c + e) / 400 = a := by omega
  simp only [daysBeforeYear, add_sub_cancel_right, h4, h100, h400]; ring

/-- **The year cut.** The year starts `yd` days before `d`, and day 365 exists only in a leap year. -/
theorem yearAndDay_spec (d : Int) :
    daysBeforeYear (yearAndDay d).1 + (yearAndDay d).2 = d ∧
      ((yearAndDay d).2 < 365 ∨ ((yearAndDay d).2 = 365 ∧ isLeap (yearAndDay d).1 = true)) := by
  have hd := Int.emod_add_ediv d 146097
  have hr := Int.emod_nonneg d (by decide : (146097 : Int) ≠ 0)
  have hr' := Int.emod_lt_of_pos d (by decide : (0 : Int) < 146097)
  simp only [yearAndDay]
  generalize d / 146097 = a at hd ⊢
  generalize hR : (d % 146097).toNat = r
  have hrR : (r : Int) = d % 146097 := by omega
  generalize hB : min (r / 36524) 3 = b
  have hb : b ≤ 3 ∧ 36524 * b ≤ r ∧ (b < 3 → r < 36524 * b + 36524) := by omega
  generalize hC : (r - 36524 * b) / 1461 = c
  have hc : c ≤ 24 ∧ 1461 * c ≤ r - 36524 * b ∧ r - 36524 * b < 1461 * c + 1461 := by omega
  generalize hE : min ((r - 36524 * b - 1461 * c) / 365) 3 = e
  have he : e ≤ 3 ∧ 365 * e ≤ r - 36524 * b - 1461 * c ∧
      (e < 3 → r - 36524 * b - 1461 * c < 365 * e + 365) := by omega
  rw [daysBeforeYear_cycles a b c e (by omega) (by omega) (by omega), isLeap_iff]
  omega

/-- **The month estimate.** On a common-year day, the estimated month or the next one holds it. -/
theorem monthAndDay_common (day : Nat) (h : day < 365) :
    let md := monthAndDay false day
    1 ≤ md.1 ∧ md.1 ≤ 12 ∧ 1 ≤ md.2 ∧ md.2 ≤ daysBefore md.1 - daysBefore (md.1 - 1) ∧
      daysBefore (md.1 - 1) + md.2 - 1 = day ∧ (md.1 ≤ 2 ↔ day < 59) := by
  have hm : day / 31 ≤ 11 := by omega
  have h31 := Nat.div_add_mod day 31
  have h31' := Nat.mod_lt day (by decide : 31 > 0)
  simp only [monthAndDay, Bool.false_eq_true, false_and, if_false]
  generalize day / 31 = m at *
  obtain ⟨b0, b1, b2, -, -, b5⟩ := daysBefore_bounds m hm
  split
  · have : m ≠ 11 := by rintro rfl; simp only [daysBefore] at *; omega
    obtain ⟨-, c1, -, -, c4, -⟩ := daysBefore_bounds (m + 1) (by omega)
    have : 59 ≤ daysBefore (m + 1) := c4 (by omega)
    rw [show m + 1 + 1 = m + 2 from rfl] at c1
    dsimp only
    rw [show m + 2 - 1 = m + 1 from rfl]
    exact ⟨by omega, by omega, by omega, by omega, by omega, by omega⟩
  · dsimp only
    rw [Nat.add_sub_cancel]
    refine ⟨by omega, by omega, by omega, by omega, by omega, ?_⟩
    by_cases hm1 : m ≤ 1
    · have := b5 hm1; omega
    · omega

/-- In a leap year the month search runs on the common-year day, once February 29 is set aside. -/
theorem monthAndDay_leap {yday : Nat} (h : yday ≠ 59) :
    monthAndDay true yday = monthAndDay false (if 59 < yday then yday - 1 else yday) := by
  simp only [monthAndDay, h, true_and, and_false, if_false, Bool.false_eq_true, false_and]

/-- **The date of a day of the year.** `monthAndDay` gives a valid month and day, and `dayOfYear` takes
them back to the day. -/
theorem monthAndDay_spec (leap : Bool) (yday : Nat) (h : yday < 365 ∨ (yday = 365 ∧ leap = true)) :
    let md := monthAndDay leap yday
    1 ≤ md.1 ∧ md.1 ≤ 12 ∧ 1 ≤ md.2 ∧
      md.2 ≤ (if md.1 = 2 ∧ leap then 29 else daysBefore md.1 - daysBefore (md.1 - 1)) ∧
      dayOfYear leap md.1 md.2 = yday := by
  cases leap with
  | false =>
    obtain ⟨h1, h2, h3, h4, h5, -⟩ := monthAndDay_common yday (by simpa using h)
    generalize monthAndDay false yday = md at *
    simp only [Bool.false_eq_true, and_false, false_and, if_false, dayOfYear, Nat.add_zero]
    exact ⟨h1, h2, h3, h4, by omega⟩
  | true =>
    by_cases h59 : yday = 59
    · subst h59; decide
    · rw [monthAndDay_leap h59]
      generalize hday : (if 59 < yday then yday - 1 else yday) = day
      have hday' : (59 < yday → day = yday - 1) ∧ (yday ≤ 59 → day = yday) := by
        split at hday <;> omega
      obtain ⟨h1, h2, h3, h4, h5, h6⟩ := monthAndDay_common day (by omega)
      generalize monthAndDay false day = md at *
      obtain ⟨m, dd⟩ := md
      dsimp only at *
      refine ⟨h1, h2, h3, ?_, ?_⟩
      · split
        · next hm => rw [hm.1] at h4; simp only [daysBefore] at h4; omega
        · exact h4
      · simp only [dayOfYear, true_and]
        split <;> omega

/-- **Calendar round trip.** `absDate` gives a valid date, and `Date` counts it back to the same day. -/
theorem absDate_spec (d : Int) :
    let ymd := absDate d
    1 ≤ ymd.2.1 ∧ ymd.2.1 ≤ 12 ∧ 1 ≤ ymd.2.2 ∧ ymd.2.2 ≤ daysIn ymd.2.1 ymd.1 ∧
      daysOfDate ymd.1 ymd.2.1 ymd.2.2 = d := by
  obtain ⟨hy, hd⟩ := yearAndDay_spec d
  obtain ⟨h1, h2, h3, h4, h5⟩ := monthAndDay_spec (isLeap (yearAndDay d).1) (yearAndDay d).2 hd
  refine ⟨h1, h2, h3, h4, ?_⟩
  simp only [absDate, daysOfDate, h5, hy]

/-! ## A date and back

`time.Parse` hands `Date` the date it read, and `Format` prints the date `absDate` finds in the day count
`Date` made of it. The other direction of the round trip: that date is the one `Parse` read. -/

/-- A year is 366 days long in a leap year and 365 in a common one. -/
theorem daysBeforeYear_succ (y : Int) :
    daysBeforeYear (y + 1) = daysBeforeYear y + if isLeap y then 366 else 365 := by
  have h := isLeap_iff y
  simp only [daysBeforeYear, add_sub_cancel_right]
  cases hl : isLeap y <;> simp only [hl, if_true, Bool.false_eq_true, if_false, true_iff, false_iff] at h ⊢ <;>
    omega

theorem daysBeforeYear_le {a b : Int} (h : a ≤ b) : daysBeforeYear a ≤ daysBeforeYear b := by
  simp only [daysBeforeYear]; omega

/-- The day bound of `yearAndDay_spec` says that the day falls before the next year starts. -/
theorem inYear_iff (y : Int) (yd : Nat) :
    (yd < 365 ∨ (yd = 365 ∧ isLeap y = true)) ↔ daysBeforeYear y + yd < daysBeforeYear (y + 1) := by
  rw [daysBeforeYear_succ]
  cases isLeap y <;> simp only [Bool.false_eq_true, and_false, or_false, if_false, and_true, if_true] <;> omega

/-- **The year cut is unique**: a day of year `y`, counted from its start, is cut back into `y` and that
day. -/
theorem yearAndDay_daysBeforeYear {y : Int} {yd : Nat} (h : yd < 365 ∨ (yd = 365 ∧ isLeap y = true)) :
    yearAndDay (daysBeforeYear y + yd) = (y, yd) := by
  obtain ⟨hs, hb⟩ := yearAndDay_spec (daysBeforeYear y + yd)
  generalize yearAndDay (daysBeforeYear y + yd) = p at hs hb
  obtain ⟨Y, D⟩ := p
  rw [inYear_iff] at h hb
  dsimp only at hs hb
  have hY : Y = y := by
    rcases lt_trichotomy Y y with hlt | heq | hgt
    · have := daysBeforeYear_le (show Y + 1 ≤ y by omega); omega
    · exact heq
    · have := daysBeforeYear_le (show y + 1 ≤ Y by omega); omega
  subst hY
  rw [Prod.mk.injEq]
  omega

/-- The months follow each other: a month ends before any later one starts. -/
theorem dayOfYear_table : ∀ leap : Bool, ∀ m < 13, ∀ m' < 13, 1 ≤ m → m < m' →
    dayOfYear leap m (if m = 2 ∧ leap then 29 else daysBefore m - daysBefore (m - 1)) <
      dayOfYear leap m' 1 := by
  decide

/-- December ends the year. -/
theorem dayOfYear_yearEnd : ∀ leap : Bool, ∀ m < 13, 1 ≤ m →
    dayOfYear leap m (if m = 2 ∧ leap then 29 else daysBefore m - daysBefore (m - 1)) ≤
      if leap then 365 else 364 := by
  decide

section

variable {leap : Bool} {m d : Nat}
  (hv : 1 ≤ m ∧ m ≤ 12 ∧ 1 ≤ d ∧ d ≤ if m = 2 ∧ leap then 29 else daysBefore m - daysBefore (m - 1))
include hv

/-- A valid month and day fall within the year. -/
theorem dayOfYear_inYear : dayOfYear leap m d < 365 ∨ (dayOfYear leap m d = 365 ∧ leap = true) := by
  have hend := dayOfYear_yearEnd leap m (by omega) hv.1
  generalize (if m = 2 ∧ leap then 29 else daysBefore m - daysBefore (m - 1)) = len at hv hend
  unfold dayOfYear at *
  cases leap <;> simp only [if_true, Bool.false_eq_true, if_false, and_true, and_false] at hend ⊢ <;> omega

/-- Distinct valid months and days are distinct days of the year. -/
theorem dayOfYear_injective {m' d' : Nat}
    (hv' : 1 ≤ m' ∧ m' ≤ 12 ∧ 1 ≤ d' ∧ d' ≤ if m' = 2 ∧ leap then 29 else daysBefore m' - daysBefore (m' - 1))
    (h : dayOfYear leap m d = dayOfYear leap m' d') : m = m' ∧ d = d' := by
  rcases lt_trichotomy m m' with hlt | rfl | hgt
  · have := dayOfYear_table leap m (by omega) m' (by omega) hv.1 hlt
    unfold dayOfYear at *; omega
  · unfold dayOfYear at h; omega
  · have := dayOfYear_table leap m' (by omega) m (by omega) hv'.1 hgt
    unfold dayOfYear at *; omega

/-- **The month search is unique**: `monthAndDay` finds the month and day a day of the year was counted
from. -/
theorem monthAndDay_dayOfYear : monthAndDay leap (dayOfYear leap m d) = (m, d) := by
  obtain ⟨h1, h2, h3, h4, h5⟩ := monthAndDay_spec leap _ (dayOfYear_inYear hv)
  obtain ⟨hm, hd⟩ := dayOfYear_injective ⟨h1, h2, h3, h4⟩ hv h5
  exact Prod.ext hm hd

end

/-- **Calendar round trip, the other way.** `absDate` takes the day count of a valid date back to that
date. -/
theorem absDate_daysOfDate {y : Int} {m d : Nat} (hm : 1 ≤ m ∧ m ≤ 12) (hd : 1 ≤ d ∧ d ≤ daysIn m y) :
    absDate (daysOfDate y m d) = (y, m, d) := by
  have hv : 1 ≤ m ∧ m ≤ 12 ∧ 1 ≤ d ∧ d ≤ if m = 2 ∧ isLeap y then 29 else daysBefore m - daysBefore (m - 1) :=
    ⟨hm.1, hm.2, hd.1, hd.2⟩
  simp only [absDate, daysOfDate, yearAndDay_daysBeforeYear (dayOfYear_inYear hv), monthAndDay_dayOfYear hv]

end CloudEvents.Go
