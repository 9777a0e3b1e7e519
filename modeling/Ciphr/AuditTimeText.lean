import Ciphr.LibFixedWidth
import Ciphr.RustText
import Ciphr.AuditCalendar

/-!
The text of a timestamp. From the year 0000 to the year 9999 every part of it has its fixed number of
digits, so that the text has 24 characters with the separators at fixed places.
-/

namespace Ciphr

open FixedWidth (DigitBlock Part Writes writes_mark_iff writes_number_iff writes_nil_iff)

theorem padZeros_toList {width : Nat} {n : Int} (hmin : 0 ≤ n) :
    (padZeros width n).toList =
      List.replicate (width - (toString n.natAbs).length) '0' ++ (toString n.natAbs).toList := by
  unfold padZeros
  dsimp only
  rw [if_neg (Int.not_lt.mpr hmin)]
  simp

theorem padZeros_digits {width : Nat} {n : Int} (hwidth : 0 < width) (hmin : 0 ≤ n)
    (hmax : n < 10 ^ width) : DigitBlock width (padZeros width n).toList := by
  have hlength : (toString n.natAbs).length ≤ width := by
    have hlt : n.natAbs < 10 ^ width := by
      have hcast : (n.natAbs : Int) < 10 ^ width := by
        rw [Int.natAbs_of_nonneg hmin]
        exact hmax
      exact_mod_cast hcast
    rw [show toString n.natAbs = n.natAbs.repr from rfl]
    exact (Nat.length_repr_le_iff hwidth).mpr hlt
  rw [padZeros_toList hmin]
  constructor
  · rw [List.length_append, List.length_replicate, String.length_toList]
    exact Nat.sub_add_cancel hlength
  · intro c hc
    rcases List.mem_append.mp hc with hzero | hdigit
    · rw [List.eq_of_mem_replicate hzero]
      rfl
    · exact Rust.isDigit_of_mem_toString hdigit

/-- Zeros in front of the digits of a number do not change it. -/
theorem zeros_digits (zeros n : Nat) :
    List.replicate zeros '0' ++ (toString n).toList ≠ [] ∧
      (List.replicate zeros '0' ++ (toString n).toList).all Char.isDigit = true ∧
      FixedWidth.value (List.replicate zeros '0' ++ (toString n).toList) = n := by
  refine ⟨?_, ?_, ?_⟩
  · intro h
    exact Rust.toList_toString_ne_nil n (List.append_eq_nil_iff.mp h).2
  · rw [List.all_append, Bool.and_eq_true, List.all_eq_true, List.all_eq_true]
    refine ⟨fun c hc => ?_, fun c hc => Rust.isDigit_of_mem_toString hc⟩
    rw [List.eq_of_mem_replicate hc]
    rfl
  · unfold FixedWidth.value
    rw [Nat.ofDigitChars_append, Nat.ofDigitChars_replicate_zero, Nat.mul_zero]
    calc Nat.ofDigitChars 10 (toString n).toList 0
        = Nat.ofDigitChars 10 (Nat.toDigits 10 n) 0 := by
          rw [show toString n = n.repr from rfl, Nat.toList_repr]
      _ = n := Nat.ofDigitChars_ten_toDigits

theorem value_padZeros {width : Nat} {n : Int} (hmin : 0 ≤ n) :
    FixedWidth.value (padZeros width n).toList = n.toNat := by
  rw [padZeros_toList hmin, (zeros_digits _ _).2.2]
  omega

theorem padZeros_writes {width : Nat} {n : Int} (hwidth : 0 < width) (hmin : 0 ≤ n)
    (hmax : n < 10 ^ width) {parts : List Part} {numbers : List Nat} {rest : List Char}
    (h : Writes parts numbers rest) :
    Writes (.number width :: parts) (n.toNat :: numbers) ((padZeros width n).toList ++ rest) := by
  rw [← @value_padZeros width n hmin]
  exact .number (padZeros_digits hwidth hmin hmax) h

/-! ### The parts of a timestamp -/

/-- The date of an instant. -/
def instantDate (millis : Int) : Calendar.Date := dateOf (millis / 1000 / 86400)

theorem instantDate_valid (millis : Int) : (instantDate millis).Valid := dateOf_valid _

/-- What is behind the year in a timestamp. -/
def behindYear : List Part :=
  [.mark '-', .number 2, .mark '-', .number 2, .mark 'T', .number 2, .mark ':', .number 2,
    .mark ':', .number 2, .mark '.', .number 3, .mark 'Z']

/-- The month, the day, the hour, the minute, the second and the millisecond of an instant. -/
def instantNumbers (millis : Int) : List Nat :=
  [(instantDate millis).month, (instantDate millis).day, (millis / 3600000 % 24).toNat,
    (millis / 60000 % 60).toNat, (millis / 1000 % 60).toNat, (millis % 1000).toNat]

/-- A timestamp is the year, and all the rest in a fixed number of digits. -/
theorem rfc3339Millis_writes (millis : Int) :
    ∃ rest, Writes behindYear (instantNumbers millis) rest ∧
      (rfc3339Millis millis).toList = (padZeros 4 (instantDate millis).year).toList ++ rest := by
  have hmonth := (instantDate_valid millis).month_le
  have hday := (instantDate_valid millis).day_le
  have hlast := Calendar.daysInMonth_le (instantDate millis).year (instantDate millis).month
  have hhourText : (millis / 1000 % 86400).tdiv 3600 = millis / 3600000 % 24 := by
    rw [Int.tdiv_eq_ediv_of_nonneg (by omega)]
    omega
  have hminuteText : ((millis / 1000 % 86400).tmod 3600).tdiv 60 = millis / 60000 % 60 := by
    rw [Int.tmod_eq_emod_of_nonneg (by omega), Int.tdiv_eq_ediv_of_nonneg (by omega)]
    omega
  have hsecondText : (millis / 1000 % 86400).tmod 60 = millis / 1000 % 60 := by
    rw [Int.tmod_eq_emod_of_nonneg (by omega)]
    omega
  have hmilli := padZeros_writes (n := millis % 1000) (by decide : 0 < 3) (by omega) (by omega)
    (.mark 'Z' .done)
  have hsecond := padZeros_writes (n := millis / 1000 % 60) (by decide : 0 < 2) (by omega) (by omega)
    (.mark '.' hmilli)
  have hminute := padZeros_writes (n := millis / 60000 % 60) (by decide : 0 < 2) (by omega)
    (by omega) (.mark ':' hsecond)
  have hhour := padZeros_writes (n := millis / 3600000 % 24) (by decide : 0 < 2) (by omega)
    (by omega) (.mark ':' hminute)
  have hday := padZeros_writes (n := (instantDate millis).day) (by decide : 0 < 2) (by omega)
    (by omega) (.mark 'T' hhour)
  have hmonth := padZeros_writes (n := (instantDate millis).month) (by decide : 0 < 2) (by omega)
    (by omega) (.mark '-' hday)
  refine ⟨_, .mark '-' hmonth, ?_⟩
  unfold rfc3339Millis
  dsimp only
  rw [hhourText, hminuteText, hsecondText]
  simp only [String.toList_append]
  simp [instantDate, dateOf]

/-- The timestamp of a moment in the years 0000 to 9999. -/
theorem rfc3339Millis_text {millis : Int} (hmin : -62167219200000 ≤ millis)
    (hmax : millis ≤ 253402300799999) :
    ∃ year month day hour minute second milli, DigitBlock 4 year ∧ DigitBlock 2 month ∧
      DigitBlock 2 day ∧ DigitBlock 2 hour ∧ DigitBlock 2 minute ∧ DigitBlock 2 second ∧
      DigitBlock 3 milli ∧
      (rfc3339Millis millis).toList = year ++ '-' :: (month ++ '-' :: (day ++ 'T' :: (hour ++
        ':' :: (minute ++ ':' :: (second ++ '.' :: (milli ++ ['Z'])))))) := by
  obtain ⟨hyear₀, hyear₁⟩ := (dateOf_year_iff (millis / 1000 / 86400)).mpr (by omega)
  obtain ⟨rest, hrest, htext⟩ := rfc3339Millis_writes millis
  simp only [behindYear, writes_mark_iff, writes_number_iff, writes_nil_iff] at hrest
  obtain ⟨_, rfl, month, _, _, hmonth, rfl, -, _, rfl, day, _, _, hday, rfl, -, _, rfl, hour, _, _,
    hhour, rfl, -, _, rfl, minute, _, _, hminute, rfl, -, _, rfl, second, _, _, hsecond, rfl, -, _,
    rfl, milli, _, _, hmilli, rfl, -, _, rfl, -, rfl⟩ := hrest
  exact ⟨_, month, day, hour, minute, second, milli,
    padZeros_digits (n := (instantDate millis).year) (by decide) hyear₀ (Int.lt_of_le_of_lt hyear₁ (by decide)),
    hmonth, hday, hhour, hminute, hsecond, hmilli, htext⟩

end Ciphr
