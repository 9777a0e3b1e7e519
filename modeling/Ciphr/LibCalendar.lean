import Mathlib

/-!
The proleptic Gregorian calendar: which dates there are, and how many days lie between two of them.
-/

namespace Calendar

/-- The year has a 29th of February. -/
def IsLeap (year : Int) : Prop := year % 4 = 0 ∧ (year % 100 ≠ 0 ∨ year % 400 = 0)

instance (year : Int) : Decidable (IsLeap year) := by
  unfold IsLeap
  infer_instance

def daysInMonth (year : Int) (month : Nat) : Nat :=
  if month = 2 then if IsLeap year then 29 else 28
  else if month = 4 ∨ month = 6 ∨ month = 9 ∨ month = 11 then 30
  else 31

theorem daysInMonth_pos (year : Int) (month : Nat) : 1 ≤ daysInMonth year month := by
  unfold daysInMonth
  split_ifs
  · decide
  · decide
  · decide
  · decide

theorem daysInMonth_le (year : Int) (month : Nat) : daysInMonth year month ≤ 31 := by
  unfold daysInMonth
  split_ifs
  · decide
  · decide
  · decide
  · decide

structure Date where
  year : Int
  month : Nat
  day : Nat
  deriving DecidableEq, Repr

namespace Date

structure Valid (date : Date) : Prop where
  month_pos : 1 ≤ date.month
  month_le : date.month ≤ 12
  day_pos : 1 ≤ date.day
  day_le : date.day ≤ daysInMonth date.year date.month

end Date

/-! ### Counting days -/

/-- The days of the years before this one, from the beginning of the year 1. -/
def daysBeforeYear (year : Int) : Int :=
  365 * (year - 1) + (year - 1) / 4 - (year - 1) / 100 + (year - 1) / 400

/-- The days of the months before this one, in its year. -/
def daysBeforeMonth (year : Int) (month : Nat) : Nat :=
  ((List.range (month - 1)).map fun before => daysInMonth year (before + 1)).sum

/-- The days from the beginning of the year 1. -/
def dayNumber (date : Date) : Int :=
  daysBeforeYear date.year + daysBeforeMonth date.year date.month + date.day - 1

def daysSince (epoch date : Date) : Int := dayNumber date - dayNumber epoch

theorem daysBeforeYear_succ (year : Int) :
    daysBeforeYear (year + 1) = daysBeforeYear year + if IsLeap year then 366 else 365 := by
  unfold daysBeforeYear IsLeap
  split_ifs
  · omega
  · omega

theorem daysBeforeMonth_succ (year : Int) {month : Nat} (hmonth : 1 ≤ month) :
    daysBeforeMonth year (month + 1) = daysBeforeMonth year month + daysInMonth year month := by
  obtain ⟨before, rfl⟩ : ∃ before, month = before + 1 := ⟨month - 1, by omega⟩
  unfold daysBeforeMonth
  rw [Nat.add_sub_cancel, Nat.add_sub_cancel, List.range_succ, List.map_append, List.sum_append,
    List.map_singleton, List.sum_singleton]

/-- The twelve months make up the year. -/
theorem daysBeforeMonth_thirteen (year : Int) :
    daysBeforeMonth year 13 = if IsLeap year then 366 else 365 := by
  have hmonths : daysBeforeMonth year 13 = 31 + daysInMonth year 2 + 306 := by
    simp [daysBeforeMonth, List.range_succ, daysInMonth]
    omega
  rw [hmonths]
  unfold daysInMonth
  rw [if_pos rfl]
  split
  · rfl
  · rfl

theorem daysBeforeMonth_mono (year : Int) {month month' : Nat} (hmonth : 1 ≤ month)
    (h : month ≤ month') : daysBeforeMonth year month ≤ daysBeforeMonth year month' := by
  induction month', h using Nat.le_induction with
  | base => exact Nat.le_refl _
  | succ later hle ih =>
      rw [daysBeforeMonth_succ year (Nat.le_trans hmonth hle)]
      exact Nat.le_trans ih (Nat.le_add_right _ _)

theorem daysBeforeYear_mono {year year' : Int} (h : year ≤ year') :
    daysBeforeYear year ≤ daysBeforeYear year' := by
  unfold daysBeforeYear
  omega

/-- A date is behind the beginning of its year, and before the beginning of the next. -/
theorem dayNumber_bounds {date : Date} (h : date.Valid) :
    daysBeforeYear date.year ≤ dayNumber date ∧ dayNumber date < daysBeforeYear (date.year + 1) := by
  have hday := h.day_pos
  have hlast := h.day_le
  have hmonth := daysBeforeMonth_mono date.year (Nat.le_add_left 1 date.month)
    (show date.month + 1 ≤ 13 from Nat.succ_le_succ h.month_le)
  rw [daysBeforeMonth_succ date.year h.month_pos, daysBeforeMonth_thirteen] at hmonth
  rw [daysBeforeYear_succ]
  unfold dayNumber
  split_ifs at hmonth ⊢
  · omega
  · omega

/-- The order of dates: by year, then by month, then by day. -/
def Before (date date' : Date) : Prop :=
  date.year < date'.year ∨ date.year = date'.year ∧
    (date.month < date'.month ∨ date.month = date'.month ∧ date.day < date'.day)

theorem before_trichotomy (date date' : Date) :
    Before date date' ∨ date = date' ∨ Before date' date := by
  unfold Before
  rcases lt_trichotomy date.year date'.year with hyear | hyear | hyear
  · exact .inl (.inl hyear)
  · rcases lt_trichotomy date.month date'.month with hmonth | hmonth | hmonth
    · exact .inl (.inr ⟨hyear, .inl hmonth⟩)
    · rcases lt_trichotomy date.day date'.day with hday | hday | hday
      · exact .inl (.inr ⟨hyear, .inr ⟨hmonth, hday⟩⟩)
      · right
        left
        cases date
        cases date'
        cases hyear
        cases hmonth
        cases hday
        rfl
      · exact .inr (.inr (.inr ⟨hyear.symm, .inr ⟨hmonth.symm, hday⟩⟩))
    · exact .inr (.inr (.inr ⟨hyear.symm, .inl hmonth⟩))
  · exact .inr (.inr (.inl hyear))

/-- An earlier date has a smaller number. -/
theorem dayNumber_lt {date date' : Date} (h : date.Valid) (h' : date'.Valid)
    (hbefore : Before date date') : dayNumber date < dayNumber date' := by
  rcases hbefore with hyear | ⟨hyear, hmonth | ⟨hmonth, hday⟩⟩
  · have hend := (dayNumber_bounds h).2
    have hstart := (dayNumber_bounds h').1
    have hyears := daysBeforeYear_mono (show date.year + 1 ≤ date'.year by omega)
    omega
  · have hlast := h.day_le
    have hfirst := h'.day_pos
    have hmonths := daysBeforeMonth_mono date.year (Nat.le_add_left 1 date.month)
      (show date.month + 1 ≤ date'.month by omega)
    rw [daysBeforeMonth_succ date.year h.month_pos] at hmonths
    unfold dayNumber
    rw [← hyear]
    omega
  · unfold dayNumber
    rw [← hyear, ← hmonth]
    omega

theorem dayNumber_lt_iff {date date' : Date} (h : date.Valid) (h' : date'.Valid) :
    dayNumber date < dayNumber date' ↔ Before date date' := by
  refine ⟨fun hlt => ?_, dayNumber_lt h h'⟩
  rcases before_trichotomy date date' with hbefore | rfl | hafter
  · exact hbefore
  · omega
  · have hgt := dayNumber_lt h' h hafter
    omega

/-- Different dates have different numbers. -/
theorem dayNumber_injective {date date' : Date} (h : date.Valid) (h' : date'.Valid)
    (heq : dayNumber date = dayNumber date') : date = date' := by
  rcases before_trichotomy date date' with hbefore | hsame | hafter
  · have hlt := dayNumber_lt h h' hbefore
    omega
  · exact hsame
  · have hgt := dayNumber_lt h' h hafter
    omega

/-! ### The next day -/

/-- The day after. -/
def nextDay (date : Date) : Date :=
  if date.day < daysInMonth date.year date.month then { date with day := date.day + 1 }
  else if date.month < 12 then ⟨date.year, date.month + 1, 1⟩
  else ⟨date.year + 1, 1, 1⟩

theorem nextDay_valid {date : Date} (h : date.Valid) : (nextDay date).Valid := by
  unfold nextDay
  split
  · rename_i hmore
    exact ⟨h.month_pos, h.month_le, Nat.le_add_left 1 _, hmore⟩
  · split
    · rename_i hmonth
      exact ⟨Nat.le_add_left 1 _, hmonth, Nat.le_refl 1, daysInMonth_pos _ _⟩
    · exact ⟨Nat.le_refl 1, (by decide : 1 ≤ 12), Nat.le_refl 1, daysInMonth_pos _ _⟩

/-- The count of days goes up by one from each day to the next. -/
theorem dayNumber_nextDay {date : Date} (h : date.Valid) :
    dayNumber (nextDay date) = dayNumber date + 1 := by
  have hday := h.day_le
  unfold nextDay
  split
  · unfold dayNumber
    dsimp only
    omega
  · rename_i hlast
    split
    · unfold dayNumber
      dsimp only
      rw [daysBeforeMonth_succ date.year h.month_pos]
      omega
    · rename_i hmonth
      have htwelve : date.month = 12 := by
        have hle := h.month_le
        omega
      have hyear := daysBeforeMonth_thirteen date.year
      rw [daysBeforeMonth_succ date.year (by decide : 1 ≤ 12)] at hyear
      have hnone : daysBeforeMonth (date.year + 1) 1 = 0 := rfl
      unfold dayNumber
      dsimp only
      rw [hnone, daysBeforeYear_succ]
      rw [htwelve] at hday hlast ⊢
      split_ifs at hyear ⊢
      · omega
      · omega

end Calendar
