import Mathlib.Algebra.Order.Ring.Int

/-!
The proleptic Gregorian calendar, over days counted from the first of January 1970.

`daysBefore` counts the days before a year in closed form, and `year` divides by the mean
length of a year and corrects the quotient by one. A day of the year comes back after a
year at the earliest (`le_of_yday_eq`), so that two days that are closer have the same
day of the year only if they are one (`yday_inj`).
-/

namespace GestAqua.Gregorian

def Leap (y : ℤ) : Prop := y % 4 = 0 ∧ (y % 100 ≠ 0 ∨ y % 400 = 0)

instance (y : ℤ) : Decidable (Leap y) := inferInstanceAs (Decidable (_ ∧ _))

def yearLength (y : ℤ) : ℤ := if Leap y then 366 else 365

/-- The days from the first of January 1970 to the first of January of a year. -/
def daysBefore (y : ℤ) : ℤ :=
  365 * (y - 1970) + (y - 1969) / 4 - (y - 1901) / 100 + (y - 1601) / 400

/-- The year of a day; 400 years have 146097 days. -/
def year (d : ℤ) : ℤ :=
  let y := 1970 + 400 * d / 146097
  if d < daysBefore y then y - 1 else if daysBefore (y + 1) ≤ d then y + 1 else y

def yday (d : ℤ) : ℤ := d - daysBefore (year d)

theorem daysBefore_succ (y : ℤ) : daysBefore (y + 1) = daysBefore y + yearLength y := by
  by_cases h : Leap y
  · rw [yearLength, if_pos h]
    unfold Leap at h
    unfold daysBefore
    omega
  · rw [yearLength, if_neg h]
    unfold Leap at h
    unfold daysBefore
    omega

theorem daysBefore_add_le {y y' : ℤ} (h : y < y') : daysBefore y + 365 ≤ daysBefore y' := by
  unfold daysBefore
  omega

/-- A year begins about where years of the mean length would put it. -/
theorem daysBefore_mean (y : ℤ) : 146097 * (y - 1970) - 506 ≤ 400 * daysBefore y ∧
    400 * daysBefore y ≤ 146097 * (y - 1970) + 589 := by
  unfold daysBefore
  omega

/-- The year of a day contains it. -/
theorem daysBefore_year (d : ℤ) :
    daysBefore (year d) ≤ d ∧ d < daysBefore (year d + 1) := by
  have hbefore := daysBefore_mean (1970 + 400 * d / 146097 - 1)
  have hafter := daysBefore_mean (1970 + 400 * d / 146097 + 1 + 1)
  simp only [year]
  split
  · rw [sub_add_cancel]
    omega
  · split <;> omega

theorem yday_nonneg (d : ℤ) : 0 ≤ yday d := sub_nonneg.mpr (daysBefore_year d).1

theorem yday_lt (d : ℤ) : yday d < yearLength (year d) := by
  have h := (daysBefore_year d).2
  rw [daysBefore_succ] at h
  rw [yday]
  omega

/-- Two days that have the same place in their years are a year apart at least. -/
theorem le_of_yday_eq {d d' : ℤ} (h : yday d = yday d') (hlt : d < d') : d + 365 ≤ d' := by
  rw [yday, yday] at h
  rcases lt_trichotomy (year d) (year d') with hyear | hyear | hyear
  · have := daysBefore_add_le hyear
    omega
  · rw [hyear] at h
    omega
  · have := daysBefore_add_le hyear
    omega

theorem yday_inj {d d' : ℤ} (hd : |d - d'| < 365) : yday d = yday d' ↔ d = d' := by
  refine ⟨fun h => ?_, fun h => h ▸ rfl⟩
  obtain ⟨hlo, hhi⟩ := abs_lt.mp hd
  rcases lt_trichotomy d d' with hlt | heq | hlt
  · have := le_of_yday_eq h hlt
    omega
  · exact heq
  · have := le_of_yday_eq h.symm hlt
    omega

/-- The last day of 2023, and the first of March of the years 2000 and 2100. -/
example : (year 19723, yday 19722, yday 19723) = (2024, 364, 0) ∧
    (yday 11017, yday 47541) = (60, 59) := by decide

end GestAqua.Gregorian
