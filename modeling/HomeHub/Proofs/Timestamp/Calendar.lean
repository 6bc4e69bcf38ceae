import HomeHub.Timestamp
import Mathlib.Tactic.Common

/-!
# Days and dates

The calendar counts in years that begin in March, so that the day that a leap year adds is its last.
`OnDay` states what a date is in such years; `dateOfDays` gives the one date that lies on a day, which
`daysOfDate` takes back to the day. Of two days the later has the later date.
-/

namespace HomeHub.Timestamp

/-- The days in the years before one, years beginning in March. -/
def daysBefore (y : Int) : Int := 365 * y + y / 4 - y / 100 + y / 400

/-- The days of a year before its month `s`, months counted from March. -/
def monthStart (s : Int) : Int := (153 * s + 2) / 5

/-- The day `d` of month `s` of year `y` lies `z` days after the beginning of the count. -/
structure OnDay (z y s d : Int) : Prop where
  month : 0 ≤ s ∧ s ≤ 11
  first : 1 ≤ d
  day : z = daysBefore y + monthStart s + d - 1
  /-- Months but the last end where the next one begins. -/
  last : s < 11 → monthStart s + d ≤ monthStart (s + 1)
  /-- The last month ends with the year. -/
  inside : z < daysBefore (y + 1)

theorem daysBefore_succ (y : Int) : daysBefore y + 365 ≤ daysBefore (y + 1) ∧
    daysBefore (y + 1) ≤ daysBefore y + 366 := by
  simp only [daysBefore]
  omega

theorem daysBefore_mono {y y' : Int} (h : y ≤ y') : daysBefore y ≤ daysBefore y' := by
  simp only [daysBefore]
  omega

/-- The year of an era that a day of it falls into. -/
def yearOfEra (d : Int) : Int := (d - d / 1460 + d / 36524 - d / 146096) / 365

theorem yearOfEra_mono {d d' : Int} (h : d ≤ d') : yearOfEra d ≤ yearOfEra d' := by
  have step (d : Int) : yearOfEra d ≤ yearOfEra (d + 1) := by
    refine Int.ediv_le_ediv (by decide) ?_
    -- the first and the last correction step together
    have hfour (d : Int) : d / 146096 = d / 36524 / 4 := by
      rw [Int.ediv_ediv_of_nonneg (by decide)]
      rfl
    have hcenturies : d / 36524 ≤ (d + 1) / 36524 ∧ (d + 1) / 36524 ≤ d / 36524 + 1 := by omega
    have hyears : (d + 1) / 1460 ≤ d / 1460 + 1 := by omega
    rw [hfour, hfour]
    generalize d / 36524 = h at *
    generalize (d + 1) / 36524 = h' at *
    omega
  obtain ⟨n, rfl⟩ := Int.le.dest h
  induction n with
  | zero => simp
  | succ n ih => exact Int.le_trans (ih (by omega)) (Int.add_assoc d n 1 ▸ step (d + n))

/-- The first and the last day of each year of an era. -/
theorem yearOfEra_ends : ∀ y < 400, yearOfEra (daysBefore (y : Nat)) = y ∧
    yearOfEra (daysBefore ((y : Nat) + 1) - 1) = y := by
  decide +kernel

theorem yearOfEra_spec {d : Int} (h0 : 0 ≤ d) (h1 : d < 146097) :
    0 ≤ yearOfEra d ∧ yearOfEra d ≤ 399 ∧ daysBefore (yearOfEra d) ≤ d ∧
      d < daysBefore (yearOfEra d + 1) := by
  have hlow : 0 ≤ yearOfEra d := yearOfEra_mono h0
  have hhigh : yearOfEra d ≤ 399 := yearOfEra_mono (show d ≤ 146096 by omega)
  obtain ⟨y, hy⟩ := Int.eq_ofNat_of_zero_le hlow
  refine ⟨hlow, hhigh, ?_, ?_⟩
  · by_contra hlt
    -- the day would come before its year, so in another one
    cases y with
    | zero => exact hlt (hy ▸ h0)
    | succ y =>
      have hends := (yearOfEra_ends y (by omega)).2
      have := yearOfEra_mono (show d ≤ daysBefore (y + 1 : Int) - 1 by
        rw [hy] at hlt
        push_cast at hlt
        omega)
      omega
  · by_contra hle
    by_cases hlast : y = 399
    · rw [hy, hlast] at hle
      exact hle h1
    · have hends := (yearOfEra_ends (y + 1) (by omega)).1
      have := yearOfEra_mono (show daysBefore (y + 1 : Int) ≤ d by rw [hy] at hle; omega)
      push_cast at hends
      omega

theorem daysBefore_era (era y : Int) : daysBefore (y + era * 400) = era * 146097 + daysBefore y := by
  simp only [daysBefore]
  omega

/-- The month of a year that a day of it falls into. -/
theorem monthStart_spec {n : Int} (h0 : 0 ≤ n) (h1 : n ≤ 365) {s : Int} (hs : s = (5 * n + 2) / 153) :
    0 ≤ s ∧ s ≤ 11 ∧ monthStart s ≤ n ∧ (s < 11 → n < monthStart (s + 1)) := by
  simp only [monthStart]
  omega

/-- The civil year of month `s`, months counted from March. -/
def civilYear (y s : Int) : Int := if s < 10 then y else y + 1

/-- The civil number of a month counted from March. -/
def civilMonth (s : Int) : Nat := if s < 10 then (s + 3).toNat else (s - 9).toNat

theorem dateOfDays_spec (days : Int) : ∃ y s d, OnDay (days + 719468) y s d ∧
    dateOfDays days = (civilYear y s, civilMonth s, d.toNat) := by
  obtain ⟨z, hz⟩ : ∃ z, z = days + 719468 := ⟨_, rfl⟩
  obtain ⟨era, hera⟩ : ∃ era, era = z / 146097 := ⟨_, rfl⟩
  obtain ⟨n, hn⟩ : ∃ n, n = z % 146097 := ⟨_, rfl⟩
  obtain ⟨hlow, hhigh, hstart, hend⟩ := yearOfEra_spec (d := n) (by omega) (by omega)
  obtain ⟨y, hy⟩ : ∃ y, y = yearOfEra n := ⟨_, rfl⟩
  rw [← hy] at hlow hhigh hstart hend
  have hlength := daysBefore_succ y
  obtain ⟨s, hs⟩ : ∃ s, s = (5 * (n - daysBefore y) + 2) / 153 := ⟨_, rfl⟩
  obtain ⟨hs0, hs11, hday, hnext⟩ := monthStart_spec (by omega) (by omega) hs
  refine ⟨y + era * 400, s, n - daysBefore y - monthStart s + 1, ⟨⟨hs0, hs11⟩, by omega, ?_, ?_, ?_⟩, ?_⟩
  · rw [daysBefore_era]
    omega
  · intro h
    have := hnext h
    omega
  · rw [Int.add_right_comm, daysBefore_era]
    omega
  · have hyear : n - (365 * y + y / 4 - y / 100) = n - daysBefore y := by
      simp only [daysBefore]
      omega
    simp only [dateOfDays, ← hz, ← hera, ← hn]
    rw [show (n - n / 1460 + n / 36524 - n / 146096) / 365 = y from hy.symm, hyear, ← hs]
    simp only [civilYear, civilMonth, monthStart]
    split
    · rw [if_neg (by omega)]
    · rw [if_pos (by omega)]

namespace OnDay

variable {z z' y y' s s' d d' : Int}

theorem starts (h : OnDay z y s d) : daysBefore y ≤ z := by
  have := h.month
  have := h.first
  have := h.day
  simp only [monthStart] at *
  omega

theorem day_toNat (h : OnDay z y s d) : (d.toNat : Int) = d := by
  have := h.first
  omega

theorem civilMonth_eq (h : OnDay z y s d) :
    (civilMonth s : Int) = if s < 10 then s + 3 else s - 9 := by
  have := h.month
  unfold civilMonth
  split <;> omega

theorem civilMonth_mem (h : OnDay z y s d) : 1 ≤ civilMonth s ∧ civilMonth s ≤ 12 := by
  have := h.month
  unfold civilMonth
  split <;> omega

/-- Counting the days up to a date gives the day that it is on. -/
theorem daysOfDate_eq (h : OnDay z y s d) :
    daysOfDate (civilYear y s) (civilMonth s) d.toNat = z - 719468 := by
  have hmonth := h.month
  have hshift : ((civilMonth s : Int) + 9) % 12 = s := by
    rw [h.civilMonth_eq]
    split <;> omega
  have hyear : (if civilMonth s ≤ 2 then civilYear y s - 1 else civilYear y s) = y := by
    have := h.civilMonth_eq
    unfold civilYear
    split <;> split <;> omega
  rw [h.day]
  simp only [daysOfDate, hshift, hyear, h.day_toNat, daysBefore, monthStart]
  omega

/-- A year that has a 366th day ends in the February of a leap year. -/
theorem isLeapYear_of_full (h : daysBefore (y + 1) = daysBefore y + 366) :
    isLeapYear (y + 1) = true := by
  have hleap : (y + 1) % 4 = 0 ∧ ((y + 1) % 100 ≠ 0 ∨ (y + 1) % 400 = 0) := by
    simp only [daysBefore] at h
    omega
  simpa [isLeapYear] using hleap

theorem day_le (h : OnDay z y s d) : d.toNat ≤ daysInMonth (civilYear y s) (civilMonth s) := by
  obtain ⟨⟨hs0, hs11⟩, hfirst, hday, hlast, hinside⟩ := h
  have hlength := daysBefore_succ y
  have hmonths : s = 0 ∨ s = 1 ∨ s = 2 ∨ s = 3 ∨ s = 4 ∨ s = 5 ∨ s = 6 ∨ s = 7 ∨ s = 8 ∨ s = 9 ∨
      s = 10 ∨ s = 11 := by omega
  by_cases hs : s = 11
  · subst hs
    have hfeb : daysInMonth (civilYear y 11) (civilMonth 11) =
        if isLeapYear (y + 1) then 29 else 28 := rfl
    rw [hfeb]
    by_cases hfull : daysBefore (y + 1) = daysBefore y + 366
    · rw [isLeapYear_of_full hfull]
      simp only [monthStart, if_true] at *
      omega
    · have h28 : d.toNat ≤ 28 := by
        simp only [monthStart] at *
        omega
      split <;> omega
  · have := hlast (by omega)
    simp only [monthStart] at this
    rcases hmonths with rfl | rfl | rfl | rfl | rfl | rfl | rfl | rfl | rfl | rfl | rfl | rfl <;>
      simp [daysInMonth, civilMonth] <;> omega

/-- Of two days the later has the later date. -/
theorem lt (h : OnDay z y s d) (h' : OnDay z' y' s' d') (hlt : z < z') :
    y < y' ∨ y = y' ∧ (s < s' ∨ s = s' ∧ d < d') := by
  have hyears : y ≤ y' := by
    by_contra hgt
    have := daysBefore_mono (show y' + 1 ≤ y by omega)
    have := h.starts
    have := h'.inside
    omega
  refine (Int.lt_or_eq_of_le hyears).imp_right fun hy => ⟨hy, ?_⟩
  subst hy
  have hmonths : s ≤ s' := by
    by_contra hgt
    have hlast := h'.last (by have := h.month; omega)
    have hstart : monthStart (s' + 1) ≤ monthStart s := by
      simp only [monthStart]
      omega
    have := h.day
    have := h'.day
    have := h.first
    omega
  refine (Int.lt_or_eq_of_le hmonths).imp_right fun hs => ⟨hs, ?_⟩
  subst hs
  have := h.day
  have := h'.day
  omega

end OnDay

/-- The date of a day is one of the calendar, and is on that day. -/
theorem dateOfDays_valid (days : Int) :
    daysOfDate (dateOfDays days).1 (dateOfDays days).2.1 (dateOfDays days).2.2 = days ∧
      1 ≤ (dateOfDays days).2.1 ∧ (dateOfDays days).2.1 ≤ 12 ∧ 1 ≤ (dateOfDays days).2.2 ∧
      (dateOfDays days).2.2 ≤ daysInMonth (dateOfDays days).1 (dateOfDays days).2.1 := by
  obtain ⟨y, s, d, h, heq⟩ := dateOfDays_spec days
  rw [heq]
  have hfirst : 1 ≤ d.toNat := by
    have := h.first
    omega
  exact ⟨by rw [h.daysOfDate_eq]; omega, h.civilMonth_mem.1, h.civilMonth_mem.2, hfirst, h.day_le⟩

/-- Dates are ordered by year, then by month, then by day. -/
theorem dateOfDays_lt {a b : Int} (h : a < b) :
    (dateOfDays a).1 < (dateOfDays b).1 ∨ (dateOfDays a).1 = (dateOfDays b).1 ∧
      ((dateOfDays a).2.1 < (dateOfDays b).2.1 ∨ (dateOfDays a).2.1 = (dateOfDays b).2.1 ∧
        (dateOfDays a).2.2 < (dateOfDays b).2.2) := by
  obtain ⟨y, s, d, ha, heqa⟩ := dateOfDays_spec a
  obtain ⟨y', s', d', hb, heqb⟩ := dateOfDays_spec b
  rw [heqa, heqb]
  have hm := ha.month
  have hm' := hb.month
  have := ha.first
  have := hb.first
  -- the last two months from March on are the first two of the next civil year
  have hlt := ha.lt hb (by omega)
  simp only [civilYear, civilMonth]
  split <;> split <;> omega

end HomeHub.Timestamp
