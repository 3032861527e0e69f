import Mathlib
import BetterFrame.Lib.Gregorian

/-!
# The date of a WS-Security timestamp (onvif_events.rs)

`epoch_days_to_ymd` counts in years that begin in March and eras of 400 years.
`epoch_days_to_ymd_exact` says that it gives the date that many days after 1970-01-01, with no
subtraction below zero on the way.
-/

namespace SoapClock

open Gregorian

/-! ### The conversion -/

/-- The operations of `u64`, which fail where the result is not one. -/
def add (a b : Nat) : Option Nat := if a + b < 2 ^ 64 then some (a + b) else none

/-- Checked subtraction of `u64`. -/
def sub (a b : Nat) : Option Nat := if b ≤ a then some (a - b) else none

/-- Checked multiplication of `u64`. -/
def mul (a b : Nat) : Option Nat := if a * b < 2 ^ 64 then some (a * b) else none

/-- The civil date of a day since 1970, with every `u64` operation checked. -/
def epoch_days_to_ymd (days : Nat) : Option (Nat × Nat × Nat) := do
  let z ← add days 719468
  let era := z / 146097
  let doe ← sub z (← mul era 146097)
  let yoe := (← sub (← add (← sub doe (doe / 1460)) (doe / 36524)) (doe / 146096)) / 365
  let y ← add yoe (← mul era 400)
  let doy ← sub doe (← sub (← add (← mul 365 yoe) (yoe / 4)) (yoe / 100))
  let mp := (← add (← mul 5 doy) 2) / 153
  let d ← add (← sub doy ((← add (← mul 153 mp) 2) / 5)) 1
  let m ← if mp < 10 then add mp 3 else sub mp 9
  let y ← if m ≤ 2 then add y 1 else some y
  some (y, m, d)

/-- `{n:02}` and `{n:04}` -/
def padded (width n : Nat) : String :=
  let digits := toString n
  String.ofList (List.replicate (width - digits.length) '0') ++ digits

/-- The timestamp of a number of seconds since the epoch. -/
def chrono_now (secs : Nat) : Option String := do
  let days := secs / 86400
  let remaining := secs % 86400
  let hours := remaining / 3600
  let minutes := (remaining % 3600) / 60
  let seconds := remaining % 60
  let (year, month, day) ← epoch_days_to_ymd days
  some (padded 4 year ++ "-" ++ padded 2 month ++ "-" ++ padded 2 day ++ "T" ++ padded 2 hours ++
    ":" ++ padded 2 minutes ++ ":" ++ padded 2 seconds ++ "Z")

/-! ### Within an era -/

section Era

variable {doe doy : Nat}

/-- The days of the era less its leap days, as far as they are told from the day alone. -/
def commonDays (doe : Nat) : Nat := doe - doe / 1460 + doe / 36524 - doe / 146096

theorem commonDays_le_succ (doe : Nat) : commonDays doe ≤ commonDays (doe + 1) := by
  unfold commonDays
  omega

theorem commonDays_mono {a b : Nat} (h : a ≤ b) : commonDays a ≤ commonDays b :=
  monotone_nat_of_le_succ commonDays_le_succ h

/-- On the first day of a year of the era, and on the day before it. -/
theorem commonDays_first : ∀ year < 400, 365 * year ≤ commonDays (daysBeforeMarch year) ∧
    (year = 0 ∨ commonDays (daysBeforeMarch year - 1) < 365 * year) := by
  decide +kernel

theorem year_spec (h : doe < 146097) : commonDays doe / 365 ≤ 399 ∧
    daysBeforeMarch (commonDays doe / 365) ≤ doe ∧
    doe < daysBeforeMarch (commonDays doe / 365 + 1) := by
  have hlast := commonDays_mono (show doe ≤ 146096 by omega)
  have hmax : commonDays 146096 = 145999 := rfl
  obtain ⟨year, hyear⟩ : ∃ year, year = commonDays doe / 365 := ⟨_, rfl⟩
  have hle : year ≤ 399 := by omega
  rw [← hyear]
  refine ⟨hle, ?_, ?_⟩
  · by_contra hlt
    have hbefore := commonDays_mono (show doe ≤ daysBeforeMarch year - 1 by omega)
    rcases (commonDays_first year (by omega)).2 with rfl | hday
    · exact hlt (Nat.zero_le _)
    · omega
  · by_contra hge
    rcases Nat.lt_or_ge (year + 1) 400 with hlt | hmany
    · have hafter := commonDays_mono (show daysBeforeMarch (year + 1) ≤ doe by omega)
      have hday := (commonDays_first (year + 1) hlt).1
      omega
    · obtain rfl : year = 399 := by omega
      exact hge h

/-- The month of a year that begins in March, and the day of the month. -/
theorem month_spec (h : doy < 366) : (5 * doy + 2) / 153 ≤ 11 ∧ daysBefore ((5 * doy + 2) / 153) ≤ doy ∧
    doy < daysBefore ((5 * doy + 2) / 153 + 1) := by
  unfold daysBefore
  omega

end Era

/-! ### Dates -/

/-- The date in a year that begins in March. -/
theorem exists_date {year doy : Nat} (h : doy < yearLength (year + 1)) : ∃ date : Date,
    date.number = daysBeforeMarch year + 60 + doy ∧
      date.day = doy - daysBefore ((5 * doy + 2) / 153) + 1 ∧
      date.month = (if (5 * doy + 2) / 153 < 10 then (5 * doy + 2) / 153 + 3 else (5 * doy + 2) / 153 - 9) ∧
      date.year = if date.month ≤ 2 then year + 1 else year := by
  have hlength := yearLength_eq (year + 1)
  obtain ⟨hmp, hfirst, hlast⟩ := month_spec (show doy < 366 by omega)
  obtain ⟨mp, heq⟩ : ∃ mp, mp = (5 * doy + 2) / 153 := ⟨_, rfl⟩
  rw [← heq] at hmp hfirst hlast ⊢
  rcases Nat.lt_or_ge mp 10 with hlt | hge
  · obtain ⟨hmonth, hday⟩ := month_number year hlt
    have hmarch := march_number year
    refine ⟨⟨year, mp + 3, doy - daysBefore mp + 1, by omega, by omega, by omega, by omega⟩, ?_,
      rfl, (if_pos hlt).symm, ?_⟩
    · simp only [Date.number]
      omega
    · exact (if_neg (by show ¬ mp + 3 ≤ 2; omega)).symm
  · have hjanuary := january_number year
    obtain rfl | rfl : mp = 10 ∨ mp = 11 := by omega
    · have hten : daysBefore 10 = 306 := rfl
      have heleven : daysBefore 11 = 337 := rfl
      have hdays : monthLength (year + 1) 1 = 31 := rfl
      have hbefore : daysBeforeMonth (year + 1) 1 = 0 := rfl
      refine ⟨⟨year + 1, 1, doy - daysBefore 10 + 1, by omega, by omega, by omega, by omega⟩, ?_,
        rfl, rfl, rfl⟩
      simp only [Date.number]
      omega
    · have heleven : daysBefore 11 = 337 := rfl
      have hdays : monthLength (year + 1) 2 + 337 = yearLength (year + 1) := by
        rw [← daysBeforeMonth_all]
        show _ = daysBeforeMonth (year + 1) 2 + monthLength (year + 1) 2 + 306
        have : daysBeforeMonth (year + 1) 2 = 31 := rfl
        omega
      have hbefore : daysBeforeMonth (year + 1) 2 = 31 := rfl
      refine ⟨⟨year + 1, 2, doy - daysBefore 11 + 1, by omega, by omega, by omega, by omega⟩, ?_,
        rfl, rfl, rfl⟩
      simp only [Date.number]
      omega

def epoch : Date := ⟨1970, 1, 1, le_rfl, by decide, le_rfl, by decide⟩

theorem number_epoch : epoch.number = 719528 := by
  simp only [epoch, Date.number, daysBeforeYear_eq]
  rfl

theorem add_eq {a b : Nat} (h : a + b < 2 ^ 64) : add a b = pure (a + b) := if_pos h

theorem sub_eq {a b : Nat} (h : b ≤ a) : sub a b = pure (a - b) := if_pos h

theorem mul_eq {a b : Nat} (h : a * b < 2 ^ 64) : mul a b = pure (a * b) := if_pos h

/-- Every operation stays within `u64`. -/
theorem epoch_days_to_ymd_eq {days : Nat} (h : days < 2 ^ 64 - 719468) :
    ∃ date : Date, date.number = days + 719528 ∧
    epoch_days_to_ymd days = some (date.year, date.month, date.day) := by
  obtain ⟨era, hera⟩ : ∃ era, era = (days + 719468) / 146097 := ⟨_, rfl⟩
  obtain ⟨doe, hdoe⟩ : ∃ doe, doe = days + 719468 - era * 146097 := ⟨_, rfl⟩
  obtain ⟨yoe, hyoe⟩ : ∃ yoe, yoe = commonDays doe / 365 := ⟨_, rfl⟩
  have hrange : doe < 146097 := by omega
  obtain ⟨hle, hstart, hend⟩ := year_spec hrange
  rw [← hyoe] at hle hstart hend
  have hmarch : daysBeforeMarch yoe = 365 * yoe + yoe / 4 - yoe / 100 := by
    rw [daysBeforeMarch]
    omega
  obtain ⟨doy, hdoy⟩ : ∃ doy, doy = doe - (365 * yoe + yoe / 4 - yoe / 100) := ⟨_, rfl⟩
  have hyear := march_era yoe era
  have hnext := march_era (yoe + 1) era
  have hlength : doy < yearLength (yoe + 400 * era + 1) := by
    have hsucc := march_succ (yoe + 400 * era)
    rw [show yoe + 400 * era + 1 = yoe + 1 + 400 * era by omega] at hsucc ⊢
    omega
  obtain ⟨date, hnumber, hday, hmonth, hdateYear⟩ := exists_date hlength
  refine ⟨date, by omega, ?_⟩
  have hcommon : doe - doe / 1460 + doe / 36524 - doe / 146096 = commonDays doe := rfl
  unfold epoch_days_to_ymd
  rw [add_eq (by omega), pure_bind]
  dsimp only
  -- the era and the day of it
  rw [← hera, mul_eq (by omega), pure_bind, sub_eq (by omega),
    pure_bind, ← hdoe]
  -- the year of the era
  rw [sub_eq (by omega), pure_bind, add_eq (by omega), pure_bind, sub_eq (by omega),
    pure_bind, hcommon, ← hyoe]
  -- the year, and the day of it
  rw [mul_eq (by omega), pure_bind, add_eq (by omega), pure_bind, mul_eq (by omega),
    pure_bind, add_eq (by omega), pure_bind, sub_eq (by omega), pure_bind,
    sub_eq (by omega), pure_bind, ← hdoy]
  -- the month, and the day of it
  rw [mul_eq (by omega), pure_bind, add_eq (by omega), pure_bind, mul_eq (by omega),
    pure_bind, add_eq (by omega), pure_bind, sub_eq (by omega), pure_bind,
    add_eq (by omega), pure_bind]
  have hyearLength := yearLength_eq (yoe + 400 * era + 1)
  have hmp := (month_spec (show doy < 366 by omega)).1
  rw [daysBefore] at hday
  rw [hday, hdateYear, hmonth, Nat.mul_comm era 400]
  by_cases hten : (5 * doy + 2) / 153 < 10
  · rw [if_pos hten, if_pos hten, add_eq (by omega), pure_bind, if_neg (by omega), if_neg (by omega)]
    rfl
  · rw [if_neg hten, if_neg hten, sub_eq (by omega), pure_bind, if_pos (by omega), if_pos (by omega),
      add_eq (by omega), pure_bind]

/-- The date that many days after 1970-01-01, which the day-count formula takes back to their number. -/
theorem epoch_days_to_ymd_exact {days : Nat} (h : days < 2 ^ 64 - 719468) : ∃ date : Date,
    epoch_days_to_ymd days = some (date.year, date.month, date.day) ∧
    date = Nat.iterate Date.next days epoch ∧
      365 * date.year + (date.year + 3) / 4 - (date.year + 99) / 100 + (date.year + 399) / 400 +
        daysBeforeMonth date.year date.month + (date.day - 1) = days + 719528 := by
  obtain ⟨date, hnumber, heq⟩ := epoch_days_to_ymd_eq h
  refine ⟨date, heq, ?_, ?_⟩
  · rw [← Date.number_inj, Date.number_iterate, hnumber, number_epoch, Nat.add_comm]
  · rw [← daysBeforeYear_eq]
    exact hnumber

/-- A leap day of a year that 400 divides. -/
theorem epoch_days_to_ymd_exact_leap : ∃ date : Date,
    epoch_days_to_ymd 11016 = some (date.year, date.month, date.day) ∧
    date = Nat.iterate Date.next 11016 epoch ∧
      365 * date.year + (date.year + 3) / 4 - (date.year + 99) / 100 + (date.year + 399) / 400 +
        daysBeforeMonth date.year date.month + (date.day - 1) = 11016 + 719528 :=
  epoch_days_to_ymd_exact (by decide)

/-- Every clock reading has a timestamp, with the date of its day. -/
theorem chrono_now_eq {secs : Nat} (h : secs < 2 ^ 64) : ∃ date : Date, date = Nat.iterate Date.next
    (secs / 86400) epoch ∧
    chrono_now secs = some (padded 4 date.year ++ "-" ++ padded 2 date.month ++ "-" ++
      padded 2 date.day ++ "T" ++ padded 2 (secs % 86400 / 3600) ++ ":" ++
      padded 2 (secs % 86400 % 3600 / 60) ++ ":" ++ padded 2 (secs % 86400 % 60) ++ "Z") := by
  have hdays : secs / 86400 < 2 ^ 64 - 719468 := by omega
  obtain ⟨date, heq, hdate, -⟩ := epoch_days_to_ymd_exact hdays
  exact ⟨date, hdate, by rw [chrono_now, heq, Option.bind_eq_bind, Option.bind_some]⟩

example : epoch_days_to_ymd 11016 = some (2000, 2, 29) := by decide

end SoapClock
