import Ciphr.LibCalendar
import Ciphr.AuditTime

/-!
`civil_from_days` is the calendar: the date that it makes of a count of days is the one that lies so
many days after 1970-01-01, and none of its operations leaves the range of an `i64`.
-/

namespace Ciphr

open Calendar (Date dayNumber daysSince daysBeforeYear daysBeforeMonth daysInMonth IsLeap nextDay)

def unixEpoch : Date := ⟨1970, 1, 1⟩

/-- `civil_from_days`, as a date. -/
def dateOf (days : Int) : Date :=
  ⟨(civilFromDays days).1, (civilFromDays days).2.1, (civilFromDays days).2.2⟩

/-! ### The cycle of 400 years -/

/-- The days of an era before the March of one of its years. -/
def eraDay (yearOfEra : Int) : Int := 365 * yearOfEra + yearOfEra / 4 - yearOfEra / 100

/-- What the year of an era is computed from. -/
def eraYears (dayOfEra : Int) : Int :=
  dayOfEra - dayOfEra / 1460 + dayOfEra / 36524 - dayOfEra / 146096

theorem eraYears_mono {day day' : Int} (h : day ≤ day') : eraYears day ≤ eraYears day' := by
  have hfours : day - day / 1460 ≤ day' - day' / 1460 := by omega
  have hcenturies : day / 36524 - day / 146096 ≤ day' / 36524 - day' / 146096 := by
    have hle : day / 36524 ≤ day' / 36524 := by omega
    have hquarter : day / 146096 = day / 36524 / 4 := by omega
    have hquarter' : day' / 146096 = day' / 36524 / 4 := by omega
    rw [hquarter, hquarter']
    generalize day / 36524 = century at *
    generalize day' / 36524 = century' at *
    omega
  unfold eraYears
  omega

/-- The first and the last day of each year of an era. -/
theorem eraYears_ends : ∀ year : Nat, year < 400 → 365 * (year : Int) ≤ eraYears (eraDay year) ∧
    (0 < year → eraYears (eraDay year - 1) < 365 * (year : Int)) := by
  decide +kernel

theorem yearOfEra_spec {day : Int} (hmin : 0 ≤ day) (hmax : day ≤ 146096) :
    0 ≤ eraYears day / 365 ∧ eraYears day / 365 < 400 ∧ eraDay (eraYears day / 365) ≤ day ∧
      (eraYears day / 365 < 399 → day < eraDay (eraYears day / 365 + 1)) := by
  have hlow : 0 ≤ eraYears day := eraYears_mono hmin
  have hhigh : eraYears day ≤ 145999 := eraYears_mono hmax
  obtain ⟨year, hyear⟩ : ∃ year : Nat, eraYears day / 365 = year :=
    ⟨(eraYears day / 365).toNat, by omega⟩
  have hlt : year < 400 := by omega
  rw [hyear]
  refine ⟨by omega, by omega, ?_, ?_⟩
  · by_contra hbefore
    rcases Nat.eq_zero_or_pos year with rfl | hpos
    · exact hbefore hmin
    · have hsmall := (eraYears_ends year hlt).2 hpos
      have hmono := eraYears_mono (show day ≤ eraDay year - 1 by omega)
      omega
  · intro hnext
    by_contra hafter
    have hlarge := (eraYears_ends (year + 1) (by omega)).1
    have hmono := eraYears_mono (show eraDay ((year + 1 : Nat) : Int) ≤ day by
      push_cast
      omega)
    push_cast at hlarge hmono
    omega

/-- A year of an era has 365 days, or 366 with the leap day that its March-based year ends with. -/
theorem dayOfYear_spec {day : Int} (hmin : 0 ≤ day) (hmax : day ≤ 146096) :
    0 ≤ day - eraDay (eraYears day / 365) ∧ day - eraDay (eraYears day / 365) ≤ 365 ∧
      (day - eraDay (eraYears day / 365) = 365 → IsLeap (eraYears day / 365 + 1)) := by
  obtain ⟨hyear, hyear', hstart, hend⟩ := yearOfEra_spec hmin hmax
  generalize eraYears day / 365 = year at *
  unfold eraDay at *
  unfold IsLeap
  have hfours : year / 4 ≤ (year + 1) / 4 ∧ (year + 1) / 4 ≤ year / 4 + 1 := by omega
  have hcenturies : year / 100 ≤ (year + 1) / 100 := by omega
  refine ⟨by omega, ?_, ?_⟩
  · by_cases hlast : year < 399
    · have hbound := hend hlast
      omega
    · omega
  · intro hday
    by_cases hlast : year < 399
    · have hbound := hend hlast
      have hfour : (year + 1) / 4 = year / 4 + 1 := by omega
      have hcentury : (year + 1) / 100 = year / 100 := by omega
      clear hbound hend hstart hday
      omega
    · omega

/-! ### The months from March on -/

/-- From March on, the months begin where `(153 * m + 2) / 5` says. -/
theorem daysInMonth_march (year : Int) {monthPrime : Nat} (h : monthPrime < 10) :
    (153 * (monthPrime + 1) + 2) / 5 =
      (153 * monthPrime + 2) / 5 + daysInMonth year (monthPrime + 3) := by
  have hlength : ∀ before < 10, (153 * (before + 1) + 2) / 5 =
      (153 * before + 2) / 5 + if before + 3 = 4 ∨ before + 3 = 6 ∨ before + 3 = 9 ∨
        before + 3 = 11 then 30 else 31 := by
    decide
  unfold daysInMonth
  rw [if_neg (by omega)]
  exact hlength monthPrime h

theorem daysBeforeMonth_march (year : Int) {monthPrime : Nat} (h : monthPrime < 10) :
    daysBeforeMonth year (monthPrime + 3) =
      31 + daysInMonth year 2 + (153 * monthPrime + 2) / 5 := by
  induction monthPrime with
  | zero =>
      have hfirst : daysBeforeMonth year 1 = 0 := rfl
      rw [Calendar.daysBeforeMonth_succ year (by decide : 1 ≤ 2),
        Calendar.daysBeforeMonth_succ year (by decide : 1 ≤ 1), hfirst]
      rfl
  | succ before ih =>
      have hlength := daysInMonth_march year (show before < 10 by omega)
      have hnext : before + 1 + 3 = before + 3 + 1 := by omega
      rw [hnext, Calendar.daysBeforeMonth_succ year (by omega), ih (by omega)]
      omega

/-- The days before a year that ends the March-based year of an era. -/
theorem daysBeforeYear_era {yearOfEra : Int} (era : Int) (hmin : 0 ≤ yearOfEra)
    (hmax : yearOfEra < 400) :
    daysBeforeYear (yearOfEra + era * 400 + 1) = eraDay yearOfEra + era * 146097 := by
  unfold daysBeforeYear eraDay
  omega

theorem eraOf_eq (z : Int) : (if 0 ≤ z then z else z - 146096).tdiv 146097 = z / 146097 := by
  split
  · rename_i hz
    exact Int.tdiv_eq_ediv_of_nonneg hz
  · rename_i hz
    have hneg : z - 146096 = -(146096 - z) := by omega
    rw [hneg, Int.neg_tdiv, Int.tdiv_eq_ediv_of_nonneg (by omega)]
    omega

/-- The date of the day of an era, with its months counted from March. -/
def eraDate (era dayOfEra : Int) : Date :=
  let yearOfEra := eraYears dayOfEra / 365
  let dayOfYear := dayOfEra - eraDay yearOfEra
  let monthPrime := (5 * dayOfYear + 2) / 153
  let month := if monthPrime < 10 then monthPrime + 3 else monthPrime - 9
  ⟨if month ≤ 2 then yearOfEra + era * 400 + 1 else yearOfEra + era * 400, month.toNat,
    (dayOfYear - (153 * monthPrime + 2) / 5 + 1).toNat⟩

/-- Where no part of the date is negative, Rust's division is the one that rounds down. -/
theorem dateOf_eq (days : Int) :
    dateOf days = eraDate ((days + 719468) / 146097) ((days + 719468) % 146097) := by
  have hofEra : days + 719468 - (days + 719468) / 146097 * 146097 = (days + 719468) % 146097 := by
    omega
  have hmin : 0 ≤ (days + 719468) % 146097 := by omega
  have hmax : (days + 719468) % 146097 ≤ 146096 := by omega
  unfold dateOf civilFromDays eraDate
  dsimp only
  rw [eraOf_eq, hofEra]
  generalize (days + 719468) % 146097 = dayOfEra at *
  generalize (days + 719468) / 146097 = era at *
  clear hofEra
  obtain ⟨hyear, hyear', -, -⟩ := yearOfEra_spec hmin hmax
  obtain ⟨hday, hday', -⟩ := dayOfYear_spec hmin hmax
  have hyears : (dayOfEra - dayOfEra.tdiv 1460 + dayOfEra.tdiv 36524 - dayOfEra.tdiv 146096).tdiv 365 =
      eraYears dayOfEra / 365 := by
    rw [Int.tdiv_eq_ediv_of_nonneg hmin, Int.tdiv_eq_ediv_of_nonneg hmin,
      Int.tdiv_eq_ediv_of_nonneg hmin]
    exact Int.tdiv_eq_ediv_of_nonneg (by
      have hlow : eraYears 0 ≤ eraYears dayOfEra := eraYears_mono hmin
      exact hlow)
  rw [hyears]
  generalize eraYears dayOfEra / 365 = yearOfEra at *
  have hdayOfYear : dayOfEra - (365 * yearOfEra + yearOfEra.tdiv 4 - yearOfEra.tdiv 100) =
      dayOfEra - eraDay yearOfEra := by
    rw [Int.tdiv_eq_ediv_of_nonneg hyear, Int.tdiv_eq_ediv_of_nonneg hyear]
    rfl
  rw [hdayOfYear]
  generalize dayOfEra - eraDay yearOfEra = dayOfYear at *
  clear hyears hdayOfYear
  rw [Int.tdiv_eq_ediv_of_nonneg (a := 5 * dayOfYear + 2) (by omega),
    Int.tdiv_eq_ediv_of_nonneg (a := 153 * ((5 * dayOfYear + 2) / 153) + 2) (by omega)]
  have hprime : 0 ≤ (5 * dayOfYear + 2) / 153 ∧ (5 * dayOfYear + 2) / 153 ≤ 11 := by omega
  have hrest : 0 ≤ dayOfYear - (153 * ((5 * dayOfYear + 2) / 153) + 2) / 5 + 1 ∧
      dayOfYear - (153 * ((5 * dayOfYear + 2) / 153) + 2) / 5 + 1 ≤ 40 := by omega
  generalize (5 * dayOfYear + 2) / 153 = monthPrime at *
  generalize dayOfYear - (153 * monthPrime + 2) / 5 + 1 = day at *
  have hmonth : 0 ≤ (if monthPrime < 10 then monthPrime + 3 else monthPrime - 9) ∧
      (if monthPrime < 10 then monthPrime + 3 else monthPrime - 9) ≤ 12 := by
    split
    · omega
    · omega
  generalize (if monthPrime < 10 then monthPrime + 3 else monthPrime - 9) = month at *
  have hfitsMonth : (if 0 ≤ month ∧ month < 2 ^ 32 then month.toNat else 1) = month.toNat :=
    if_pos (by omega)
  have hfitsDay : (if 0 ≤ day ∧ day < 2 ^ 32 then day.toNat else 1) = day.toNat :=
    if_pos (by omega)
  simp only [hfitsMonth, hfitsDay]
  congr 1
  by_cases hearly : month ≤ 2
  · rw [if_pos hearly, if_pos (by omega)]
  · rw [if_neg hearly, if_neg (by omega)]

/-! ### The date that a count of days is -/

theorem isLeap_era (year era : Int) : IsLeap (year + era * 400) ↔ IsLeap year := by
  unfold IsLeap
  omega

theorem eraDate_spec {era dayOfEra : Int} (hmin : 0 ≤ dayOfEra) (hmax : dayOfEra ≤ 146096) :
    (eraDate era dayOfEra).Valid ∧
      dayNumber (eraDate era dayOfEra) = era * 146097 + dayOfEra - 306 := by
  obtain ⟨hyear, hyear', -, -⟩ := yearOfEra_spec hmin hmax
  obtain ⟨hday, hday', hleap⟩ := dayOfYear_spec hmin hmax
  have hcount : dayOfEra =
      eraDay (eraYears dayOfEra / 365) + (dayOfEra - eraDay (eraYears dayOfEra / 365)) := by
    omega
  have hyears := daysBeforeYear_era era hyear hyear'
  unfold eraDate
  dsimp only
  generalize dayOfEra - eraDay (eraYears dayOfEra / 365) = dayOfYear at *
  generalize eraYears dayOfEra / 365 = yearOfEra at *
  obtain ⟨monthPrime, hprime⟩ : ∃ monthPrime : Nat, (5 * dayOfYear + 2) / 153 = monthPrime :=
    ⟨((5 * dayOfYear + 2) / 153).toNat, by omega⟩
  obtain ⟨day, hnumber⟩ : ∃ day : Nat, dayOfYear = (153 * monthPrime + 2) / 5 + day :=
    ⟨(dayOfYear - (153 * (monthPrime : Int) + 2) / 5).toNat, by omega⟩
  have hlast : monthPrime ≤ 11 := by omega
  have hdayText : (dayOfYear - (153 * (monthPrime : Int) + 2) / 5 + 1).toNat = day + 1 := by omega
  rw [hprime, hdayText]
  by_cases hlate : monthPrime < 10
  · -- March to December
    have hmonth : ¬((monthPrime : Int) + 3 ≤ 2) := by omega
    have hmonthText : ((monthPrime : Int) + 3).toNat = monthPrime + 3 := by omega
    rw [if_pos (show (monthPrime : Int) < 10 by omega), if_neg hmonth, hmonthText]
    rw [Calendar.daysBeforeYear_succ] at hyears
    generalize yearOfEra + era * 400 = year at *
    have hlength := daysInMonth_march year hlate
    have hmonths := daysBeforeMonth_march year hlate
    refine ⟨⟨?_, ?_, ?_, ?_⟩, ?_⟩
    · exact Nat.le_add_left 1 (monthPrime + 2)
    · change monthPrime + 3 ≤ 12
      omega
    · exact Nat.le_add_left 1 day
    · change day + 1 ≤ daysInMonth year (monthPrime + 3)
      have hstart : (153 * (monthPrime : Int) + 2) / 5 = ((153 * monthPrime + 2) / 5 : Nat) := rfl
      rw [hstart] at hnumber
      clear hmonths hyears hcount hstart hdayText
      omega
    · unfold dayNumber
      dsimp only
      rw [hmonths]
      unfold daysInMonth
      rw [if_pos rfl]
      clear hlength hmonths hprime
      split_ifs at hyears ⊢
      · omega
      · omega
  · -- January and February belong to the next year
    have hmonth : (monthPrime : Int) - 9 ≤ 2 := by omega
    have hleap' : IsLeap (yearOfEra + era * 400 + 1) ↔ IsLeap (yearOfEra + 1) := by
      rw [← isLeap_era (yearOfEra + 1) era, Int.add_right_comm]
    rw [if_neg (show ¬(monthPrime : Int) < 10 by omega), if_pos hmonth]
    generalize yearOfEra + era * 400 + 1 = year at *
    rcases (show monthPrime = 10 ∨ monthPrime = 11 by omega) with rfl | rfl
    · have hfirst : daysBeforeMonth year 1 = 0 := rfl
      have hlength : daysInMonth year 1 = 31 := rfl
      refine ⟨⟨(by decide : 1 ≤ 1), (by decide : 1 ≤ 12), Nat.le_add_left 1 day, ?_⟩, ?_⟩
      · change day + 1 ≤ daysInMonth year 1
        omega
      · change daysBeforeYear year + (daysBeforeMonth year 1 : Nat) + ((day + 1 : Nat) : Int) - 1 = _
        rw [hfirst, hyears]
        omega
    · have hsecond : daysBeforeMonth year 2 = 31 := rfl
      refine ⟨⟨(by decide : 1 ≤ 2), (by decide : 2 ≤ 12), Nat.le_add_left 1 day, ?_⟩, ?_⟩
      · change day + 1 ≤ daysInMonth year 2
        unfold daysInMonth
        rw [if_pos rfl]
        split
        · omega
        · rename_i hcommon
          have hshort : dayOfYear ≠ 365 := fun heq => hcommon (hleap'.mpr (hleap heq))
          omega
      · change daysBeforeYear year + (daysBeforeMonth year 2 : Nat) + ((day + 1 : Nat) : Int) - 1 = _
        rw [hsecond, hyears]
        omega

theorem dayNumber_unixEpoch : dayNumber unixEpoch = 719162 := by decide

theorem dateOf_valid (days : Int) : (dateOf days).Valid := by
  rw [dateOf_eq]
  exact (eraDate_spec (by omega) (by omega)).1

/-- The date lies that many days after 1970-01-01. -/
theorem daysSince_dateOf (days : Int) : daysSince unixEpoch (dateOf days) = days := by
  unfold daysSince
  rw [dateOf_eq, (eraDate_spec (by omega) (by omega)).2, dayNumber_unixEpoch]
  omega

theorem dayNumber_dateOf (days : Int) : dayNumber (dateOf days) = days + 719162 := by
  have hsince := daysSince_dateOf days
  unfold daysSince at hsince
  rw [dayNumber_unixEpoch] at hsince
  omega

theorem dateOf_daysSince {date : Date} (h : date.Valid) : dateOf (daysSince unixEpoch date) = date := by
  apply Calendar.dayNumber_injective (dateOf_valid _) h
  rw [dayNumber_dateOf]
  unfold daysSince
  rw [dayNumber_unixEpoch]
  omega

/-- From each day to the next the date goes on to the next day of the calendar. -/
theorem dateOf_succ (days : Int) : dateOf (days + 1) = nextDay (dateOf days) := by
  apply Calendar.dayNumber_injective (dateOf_valid _) (Calendar.nextDay_valid (dateOf_valid days))
  rw [Calendar.dayNumber_nextDay (dateOf_valid days), dayNumber_dateOf, dayNumber_dateOf]
  omega

theorem dateOf_before_iff {days days' : Int} :
    Calendar.Before (dateOf days) (dateOf days') ↔ days < days' := by
  rw [← Calendar.dayNumber_lt_iff (dateOf_valid days) (dateOf_valid days'), dayNumber_dateOf,
    dayNumber_dateOf]
  omega

/-- The days from 0000-01-01 to 9999-12-31 are the days of the years with four digits. -/
theorem dateOf_year_iff (days : Int) :
    0 ≤ (dateOf days).year ∧ (dateOf days).year ≤ 9999 ↔ -719528 ≤ days ∧ days ≤ 2932896 := by
  obtain ⟨hstart, hend⟩ := Calendar.dayNumber_bounds (dateOf_valid days)
  rw [dayNumber_dateOf] at hstart hend
  have hfirst : Calendar.daysBeforeYear 0 = -366 := by decide
  have hlast : Calendar.daysBeforeYear 10000 = 3652059 := by decide
  constructor
  · rintro ⟨hmin, hmax⟩
    have hlow := Calendar.daysBeforeYear_mono hmin
    have hhigh := Calendar.daysBeforeYear_mono (show (dateOf days).year + 1 ≤ 10000 by omega)
    omega
  · rintro ⟨hmin, hmax⟩
    constructor
    · by_contra hbefore
      have hhigh := Calendar.daysBeforeYear_mono (show (dateOf days).year + 1 ≤ 0 by omega)
      omega
    · by_contra hafter
      have hlow := Calendar.daysBeforeYear_mono (show 10000 ≤ (dateOf days).year by omega)
      omega

end Ciphr
