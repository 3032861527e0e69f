import Mathlib.Data.Nat.Basic
import Mathlib.Logic.Function.Iterate
import Mathlib.Order.Basic
import Mathlib.Tactic.IntervalCases

/-!
# The Gregorian calendar

The proleptic calendar from the year 0 on: the date after a date, and the number of days from 0000-01-01.
-/

namespace Gregorian

def IsLeap (year : Nat) : Prop := year % 4 = 0 ∧ (year % 100 ≠ 0 ∨ year % 400 = 0)

instance (year : Nat) : Decidable (IsLeap year) := inferInstanceAs (Decidable (_ ∧ _))

def yearLength (year : Nat) : Nat := if IsLeap year then 366 else 365

theorem yearLength_eq (year : Nat) : (IsLeap year ∧ yearLength year = 366) ∨
    (¬ IsLeap year ∧ yearLength year = 365) := by
  by_cases h : IsLeap year
  · exact .inl ⟨h, if_pos h⟩
  · exact .inr ⟨h, if_neg h⟩

def monthLength (year : Nat) : Nat → Nat
  | 0 => 0
  | 2 => if IsLeap year then 29 else 28
  | 4 | 6 | 9 | 11 => 30
  | _ => 31

/-- A day of the calendar. -/
@[ext]
structure Date where
  year : Nat
  month : Nat
  day : Nat
  month_pos : 1 ≤ month
  month_le : month ≤ 12
  day_pos : 1 ≤ day
  day_le : day ≤ monthLength year month

/-- The days before the first of January, from year zero. -/
def daysBeforeYear : Nat → Nat
  | 0 => 0
  | year + 1 => daysBeforeYear year + yearLength year

/-- The days of the year before the month. -/
def daysBeforeMonth (year : Nat) : Nat → Nat
  | 0 => 0
  | month + 1 => daysBeforeMonth year month + monthLength year month

/-- The day-count formula for the days before a year. -/
theorem daysBeforeYear_eq (year : Nat) :
    daysBeforeYear year = 365 * year + (year + 3) / 4 - (year + 99) / 100 + (year + 399) / 400 := by
  induction year with
  | zero => rfl
  | succ year ih =>
    have hlength := yearLength_eq year
    unfold IsLeap at hlength
    rw [daysBeforeYear, ih]
    omega

theorem monthLength_pos {month : Nat} (year : Nat) (h : 1 ≤ month) : 1 ≤ monthLength year month := by
  unfold monthLength
  split <;> first | omega | (split_ifs <;> omega)

theorem daysBeforeMonth_mono {year m n : Nat} (h : m ≤ n) :
    daysBeforeMonth year m ≤ daysBeforeMonth year n := by
  induction h with
  | refl => exact Nat.le_refl _
  | step h ih => exact Nat.le_trans ih (Nat.le_add_right _ _)

theorem daysBeforeYear_mono {m n : Nat} (h : m ≤ n) : daysBeforeYear m ≤ daysBeforeYear n := by
  induction h with
  | refl => exact Nat.le_refl _
  | step h ih => exact Nat.le_trans ih (Nat.le_add_right _ _)

theorem daysBeforeMonth_all (year : Nat) : daysBeforeMonth year 13 = yearLength year := by
  simp only [daysBeforeMonth, monthLength, yearLength]
  split_ifs <;> rfl

namespace Date

variable {a b : Date}

/-- The days from 0000-01-01 to the date. -/
def number (a : Date) : Nat := daysBeforeYear a.year + daysBeforeMonth a.year a.month + (a.day - 1)

def next (a : Date) : Date :=
  if hday : a.day < monthLength a.year a.month then
    ⟨a.year, a.month, a.day + 1, a.month_pos, a.month_le, by omega, hday⟩
  else if hmonth : a.month < 12 then
    ⟨a.year, a.month + 1, 1, by omega, hmonth, Nat.le_refl _, monthLength_pos _ (by omega)⟩
  else ⟨a.year + 1, 1, 1, Nat.le_refl _, by omega, Nat.le_refl _, monthLength_pos _ (Nat.le_refl _)⟩

theorem number_next (a : Date) : a.next.number = a.number + 1 := by
  obtain ⟨year, month, day, month_pos, month_le, day_pos, day_le⟩ := a
  simp only [next]
  split_ifs with hday hmonth
  · simp only [number]
    omega
  · simp only [number, daysBeforeMonth]
    omega
  · obtain rfl : month = 12 := Nat.le_antisymm month_le (Nat.le_of_not_lt hmonth)
    have hall : daysBeforeMonth year 12 + monthLength year 12 = yearLength year := daysBeforeMonth_all year
    have hfirst : daysBeforeMonth (year + 1) 1 = 0 := rfl
    simp only [number, hfirst, daysBeforeYear]
    omega

theorem number_lt_of_year (h : a.year < b.year) : a.number < b.number := by
  have hmonth : daysBeforeMonth a.year (a.month + 1) ≤ daysBeforeMonth a.year 13 :=
    daysBeforeMonth_mono (Nat.succ_le_succ a.month_le)
  have hyear := daysBeforeYear_mono (show a.year + 1 ≤ b.year from h)
  have hday := a.day_le
  have hpos := a.day_pos
  rw [daysBeforeMonth_all] at hmonth
  simp only [daysBeforeMonth, daysBeforeYear, number] at *
  omega

theorem number_lt_of_month (hyear : a.year = b.year) (h : a.month < b.month) : a.number < b.number := by
  have hmonth : daysBeforeMonth b.year (a.month + 1) ≤ daysBeforeMonth b.year b.month :=
    daysBeforeMonth_mono h
  have hday := a.day_le
  have hpos := a.day_pos
  simp only [daysBeforeMonth, number, hyear] at *
  omega

/-- A date is told by its number. -/
theorem number_inj : a.number = b.number ↔ a = b := by
  refine ⟨fun h => ?_, fun h => by rw [h]⟩
  have hyear : a.year = b.year := by
    rcases Nat.lt_trichotomy a.year b.year with hlt | heq | hlt
    · exact absurd h (Nat.ne_of_lt (number_lt_of_year hlt))
    · exact heq
    · exact absurd h.symm (Nat.ne_of_lt (number_lt_of_year hlt))
  have hmonth : a.month = b.month := by
    rcases Nat.lt_trichotomy a.month b.month with hlt | heq | hlt
    · exact absurd h (Nat.ne_of_lt (number_lt_of_month hyear hlt))
    · exact heq
    · exact absurd h.symm (Nat.ne_of_lt (number_lt_of_month hyear.symm hlt))
  have ha := a.day_pos
  have hb := b.day_pos
  refine Date.ext hyear hmonth ?_
  simp only [number, hyear, hmonth] at h
  omega

/-- The date `n` days later. -/
theorem number_iterate (a : Date) (n : Nat) : (Nat.iterate next n a).number = a.number + n := by
  induction n with
  | zero => rfl
  | succ n ih =>
    rw [Function.iterate_succ_apply', number_next, ih]
    omega

end Date

/-! ### Years that begin in March -/

/-- The days from 0000-03-01 to the first of March of a year. -/
def daysBeforeMarch (year : Nat) : Nat := 365 * year + year / 4 - year / 100 + year / 400

/-- Where the months of a year that begins in March stand in it, from March on. -/
def daysBefore (mp : Nat) : Nat := (153 * mp + 2) / 5

theorem january_number (year : Nat) : daysBeforeYear (year + 1) = daysBeforeMarch year + 366 := by
  rw [daysBeforeYear_eq, daysBeforeMarch]
  omega

theorem march_number (year : Nat) :
    daysBeforeYear year + daysBeforeMonth year 3 = daysBeforeMarch year + 60 := by
  have hjanuary := january_number year
  have hfebruary : daysBeforeMonth year 3 + 306 = daysBeforeMonth year 13 := rfl
  rw [daysBeforeMonth_all] at hfebruary
  rw [daysBeforeYear] at hjanuary
  omega

theorem march_succ (year : Nat) : daysBeforeMarch (year + 1) = daysBeforeMarch year + yearLength
    (year + 1) := by
  have hthis := january_number year
  have hnext := january_number (year + 1)
  rw [daysBeforeYear] at hnext
  omega

theorem march_era (year era : Nat) : daysBeforeMarch (year + 400 * era) = daysBeforeMarch year +
    146097 * era := by
  unfold daysBeforeMarch
  omega

/-- The months from March on, which stand in both years alike. -/
theorem month_number {mp : Nat} (year : Nat) (h : mp < 10) :
    daysBeforeMonth year (mp + 3) = daysBeforeMonth year 3 + daysBefore mp ∧
    daysBefore (mp + 1) = daysBefore mp + monthLength year (mp + 3) := by
  interval_cases mp <;> exact ⟨rfl, rfl⟩

end Gregorian
