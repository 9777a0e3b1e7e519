import Ciphr.AuditTimeText
import Ciphr.AuditFile

/-!
Timestamps denote their instants: the operations of `rfc3339_millis` stay in the range of an `i64`
for every `i64` of milliseconds, the text reads back as the instant, and from the year 0000 to the
year 9999 the order of the texts is that of the instants.
-/

namespace Ciphr

open Calendar (Date daysSince)
open FixedWidth (Writes Part)

/-! ### Overflow -/

/-- The result of an operation on `i64`, where there is one. -/
def checked (n : Int) : Option Int := if Rust.i64Min ≤ n ∧ n ≤ Rust.i64Max then some n else none

/-- `civil_from_days` with every addition, subtraction and multiplication checked. The divisors are
positive constants, by which no division overflows. -/
def civilFromDaysChecked (days : Int) : Option (Int × Nat × Nat) := do
  let z ← checked (days + 719468)
  let shifted ← (if 0 ≤ z then some z else checked (z - 146096) : Option Int)
  let era := shifted.tdiv 146097
  let eraDays ← checked (era * 146097)
  let dayOfEra ← checked (z - eraDays)
  let withoutFours ← checked (dayOfEra - dayOfEra.tdiv 1460)
  let withCenturies ← checked (withoutFours + dayOfEra.tdiv 36524)
  let withoutLast ← checked (withCenturies - dayOfEra.tdiv 146096)
  let yearOfEra := withoutLast.tdiv 365
  let eraYears ← checked (era * 400)
  let year ← checked (yearOfEra + eraYears)
  let commonDays ← checked (365 * yearOfEra)
  let withLeaps ← checked (commonDays + yearOfEra.tdiv 4)
  let yearDays ← checked (withLeaps - yearOfEra.tdiv 100)
  let dayOfYear ← checked (dayOfEra - yearDays)
  let fiveDays ← checked (5 * dayOfYear)
  let rounded ← checked (fiveDays + 2)
  let monthPrime := rounded.tdiv 153
  let monthDays ← checked (153 * monthPrime)
  let monthRounded ← checked (monthDays + 2)
  let dayBefore ← checked (dayOfYear - monthRounded.tdiv 5)
  let day ← checked (dayBefore + 1)
  let month ← (if monthPrime < 10 then checked (monthPrime + 3) else checked (monthPrime - 9) :
    Option Int)
  let toU32 (n : Int) : Nat := if 0 ≤ n ∧ n < 2 ^ 32 then n.toNat else 1
  let civilYear ← (if toU32 month ≤ 2 then checked (year + 1) else some year : Option Int)
  some (civilYear, toU32 month, toU32 day)

/-- `rfc3339_millis` with every operation checked: `div_euclid` and `rem_euclid` by a positive
constant have a result. -/
def rfc3339MillisChecked (millis : Int) : Option String := do
  let seconds ← checked (millis / 1000)
  let subMilli ← checked (millis % 1000)
  let days ← checked (seconds / 86400)
  let secondOfDay ← checked (seconds % 86400)
  let (year, month, day) ← civilFromDaysChecked days
  let hour := secondOfDay.tdiv 3600
  let minute := (secondOfDay.tmod 3600).tdiv 60
  let second := secondOfDay.tmod 60
  some (padZeros 4 year ++ "-" ++ padZeros 2 month ++ "-" ++ padZeros 2 day ++ "T" ++
    padZeros 2 hour ++ ":" ++ padZeros 2 minute ++ ":" ++ padZeros 2 second ++ "." ++
    padZeros 3 subMilli ++ "Z")

theorem checked_eq {n : Int} (hmin : -2 ^ 63 ≤ n) (hmax : n < 2 ^ 63) : checked n = some n :=
  if_pos ⟨hmin, Int.le_sub_one_of_lt hmax⟩

/-- No operation overflows for days within a hundred thousand million of the epoch. -/
theorem civilFromDaysChecked_eq {days : Int} (hmin : -10 ^ 12 ≤ days) (hmax : days ≤ 10 ^ 12) :
    civilFromDaysChecked days = some (civilFromDays days) := by
  have hofEra : days + 719468 - (days + 719468) / 146097 * 146097 = (days + 719468) % 146097 := by
    omega
  have hera : -10 ^ 7 ≤ (days + 719468) / 146097 ∧ (days + 719468) / 146097 ≤ 10 ^ 7 := by omega
  have hday : 0 ≤ (days + 719468) % 146097 := by omega
  have hday' : (days + 719468) % 146097 ≤ 146096 := by omega
  have hshifted : (if 0 ≤ days + 719468 then some (days + 719468)
      else checked (days + 719468 - 146096)) =
      some (if 0 ≤ days + 719468 then days + 719468 else days + 719468 - 146096) := by
    split
    · rfl
    · exact checked_eq (by omega) (by omega)
  unfold civilFromDaysChecked civilFromDays
  dsimp only [bind]
  rw [checked_eq (n := days + 719468) (by omega) (by omega), Option.bind_some, hshifted,
    Option.bind_some, eraOf_eq, checked_eq (n := (days + 719468) / 146097 * 146097) (by omega) (by omega),
    Option.bind_some, hofEra, checked_eq (n := (days + 719468) % 146097) (by omega) (by omega),
    Option.bind_some]
  clear hshifted hofEra
  generalize (days + 719468) / 146097 = era at *
  generalize (days + 719468) % 146097 = dayOfEra at *
  obtain ⟨hyear, hyear', -, -⟩ := yearOfEra_spec hday hday'
  obtain ⟨hofYear, hofYear', -⟩ := dayOfYear_spec hday hday'
  rw [Int.tdiv_eq_ediv_of_nonneg hday, Int.tdiv_eq_ediv_of_nonneg hday,
    Int.tdiv_eq_ediv_of_nonneg hday, checked_eq (n := dayOfEra - dayOfEra / 1460) (by omega) (by omega),
    Option.bind_some,
    checked_eq (n := dayOfEra - dayOfEra / 1460 + dayOfEra / 36524) (by omega) (by omega),
    Option.bind_some,
    checked_eq (n := dayOfEra - dayOfEra / 1460 + dayOfEra / 36524 - dayOfEra / 146096) (by omega)
      (by omega),
    Option.bind_some, checked_eq (n := era * 400) (by omega) (by omega), Option.bind_some]
  have hyears : (dayOfEra - dayOfEra / 1460 + dayOfEra / 36524 - dayOfEra / 146096).tdiv 365 =
      eraYears dayOfEra / 365 :=
    Int.tdiv_eq_ediv_of_nonneg (by omega)
  rw [hyears]
  generalize eraYears dayOfEra / 365 = yearOfEra at *
  clear hyears
  have hyearDays : 365 * yearOfEra + yearOfEra / 4 - yearOfEra / 100 = eraDay yearOfEra := rfl
  rw [checked_eq (n := yearOfEra + era * 400) (by omega) (by omega), Option.bind_some,
    checked_eq (n := 365 * yearOfEra) (by omega) (by omega), Option.bind_some,
    Int.tdiv_eq_ediv_of_nonneg hyear, Int.tdiv_eq_ediv_of_nonneg hyear,
    checked_eq (n := 365 * yearOfEra + yearOfEra / 4) (by omega) (by omega), Option.bind_some, hyearDays,
    checked_eq (n := eraDay yearOfEra) (by omega) (by omega), Option.bind_some,
    checked_eq (n := dayOfEra - eraDay yearOfEra) (by omega) (by omega), Option.bind_some]
  clear hyearDays
  have hyearBounds : -10 ^ 10 ≤ yearOfEra + era * 400 ∧ yearOfEra + era * 400 ≤ 10 ^ 10 := by omega
  generalize yearOfEra + era * 400 = year at *
  generalize dayOfEra - eraDay yearOfEra = dayOfYear at *
  rw [checked_eq (n := 5 * dayOfYear) (by omega) (by omega), Option.bind_some,
    checked_eq (n := 5 * dayOfYear + 2) (by omega) (by omega), Option.bind_some,
    Int.tdiv_eq_ediv_of_nonneg (a := 5 * dayOfYear + 2) (by omega)]
  have hprime : 0 ≤ (5 * dayOfYear + 2) / 153 ∧ (5 * dayOfYear + 2) / 153 ≤ 11 := by omega
  generalize (5 * dayOfYear + 2) / 153 = monthPrime at *
  have hmonth : (if monthPrime < 10 then checked (monthPrime + 3) else checked (monthPrime - 9)) =
      some (if monthPrime < 10 then monthPrime + 3 else monthPrime - 9) := by
    split
    · exact checked_eq (by omega) (by omega)
    · exact checked_eq (by omega) (by omega)
  rw [checked_eq (n := 153 * monthPrime) (by omega) (by omega), Option.bind_some,
    checked_eq (n := 153 * monthPrime + 2) (by omega) (by omega), Option.bind_some,
    Int.tdiv_eq_ediv_of_nonneg (a := 153 * monthPrime + 2) (by omega),
    checked_eq (n := dayOfYear - (153 * monthPrime + 2) / 5) (by omega) (by omega), Option.bind_some,
    checked_eq (n := dayOfYear - (153 * monthPrime + 2) / 5 + 1) (by omega) (by omega),
    Option.bind_some, hmonth, Option.bind_some]
  generalize (if monthPrime < 10 then monthPrime + 3 else monthPrime - 9) = month
  have hcivil (monthText : Nat) : (if monthText ≤ 2 then checked (year + 1) else some year) =
      some (if monthText ≤ 2 then year + 1 else year) := by
    split
    · exact checked_eq (by omega) (by omega)
    · rfl
  rw [hcivil]
  rfl

theorem rfc3339MillisChecked_eq {millis : Int} (hmin : Rust.i64Min ≤ millis)
    (hmax : millis ≤ Rust.i64Max) : rfc3339MillisChecked millis = some (rfc3339Millis millis) := by
  unfold Rust.i64Min at hmin
  unfold Rust.i64Max at hmax
  unfold rfc3339MillisChecked rfc3339Millis
  dsimp only [bind]
  rw [checked_eq (n := millis / 1000) (by omega) (by omega), Option.bind_some,
    checked_eq (n := millis % 1000) (by omega) (by omega), Option.bind_some,
    checked_eq (n := millis / 1000 / 86400) (by omega) (by omega), Option.bind_some,
    checked_eq (n := millis / 1000 % 86400) (by omega) (by omega), Option.bind_some,
    civilFromDaysChecked_eq (by omega) (by omega)]
  rfl

/-! ### Reading -/

/-- A number without a width: decimal digits behind at most a minus sign. -/
def readYear (chars : List Char) : Option Int :=
  let digits := if chars.head? = some '-' then chars.tail else chars
  if digits ≠ [] ∧ digits.all Char.isDigit = true then
    some (if chars.head? = some '-' then -FixedWidth.value digits else FixedWidth.value digits)
  else none

instance (date : Date) : Decidable date.Valid :=
  decidable_of_iff (1 ≤ date.month ∧ date.month ≤ 12 ∧ 1 ≤ date.day ∧
      date.day ≤ Calendar.daysInMonth date.year date.month)
    ⟨fun h => ⟨h.1, h.2.1, h.2.2.1, h.2.2.2⟩, fun h => ⟨h.1, h.2, h.3, h.4⟩⟩

/-- The instant that a timestamp denotes, in milliseconds since 1970-01-01T00:00:00Z: a date of the
proleptic Gregorian calendar with a year of any length, and a time of the day. -/
def readTimestamp (text : String) : Option Int :=
  let front := text.toList.length - FixedWidth.width behindYear
  match readYear (text.toList.take front), FixedWidth.read behindYear (text.toList.drop front) with
  | some year, some [month, day, hour, minute, second, milli] =>
      if Date.Valid ⟨year, month, day⟩ ∧ hour < 24 ∧ minute < 60 ∧ second < 60 then
        some ((daysSince unixEpoch ⟨year, month, day⟩ * 86400 + hour * 3600 + minute * 60 + second) *
          1000 + milli)
      else none
  | _, _ => none

theorem padZeros_neg {width : Nat} {n : Int} (h : n < 0) :
    (padZeros width n).toList = '-' :: (List.replicate (width - (1 + (toString n.natAbs).length)) '0' ++
      (toString n.natAbs).toList) := by
  unfold padZeros
  dsimp only
  rw [if_pos h]
  simp [show "-".length = 1 from rfl]

theorem readYear_padZeros (width : Nat) (n : Int) : readYear (padZeros width n).toList = some n := by
  unfold readYear
  by_cases hneg : n < 0
  · obtain ⟨hne, hall, hvalue⟩ := zeros_digits (width - (1 + (toString n.natAbs).length)) n.natAbs
    rw [padZeros_neg hneg]
    dsimp only
    rw [if_pos List.head?_cons, if_pos List.head?_cons, List.tail_cons, if_pos ⟨hne, hall⟩, hvalue]
    refine congrArg some ?_
    omega
  · obtain ⟨hne, hall, hvalue⟩ := zeros_digits (width - (toString n.natAbs).length) n.natAbs
    have hsign : (List.replicate (width - (toString n.natAbs).length) '0' ++
        (toString n.natAbs).toList).head? ≠ some '-' := by
      intro hhead
      have hdigit := List.all_eq_true.mp hall '-' (List.mem_of_head? hhead)
      exact absurd hdigit (by decide)
    rw [padZeros_toList (Int.not_lt.mp hneg)]
    dsimp only
    rw [if_neg hsign, if_neg hsign, if_pos ⟨hne, hall⟩, hvalue]
    refine congrArg some ?_
    omega

theorem readTimestamp_rfc3339Millis (millis : Int) :
    readTimestamp (rfc3339Millis millis) = some millis := by
  obtain ⟨rest, hrest, htext⟩ := rfc3339Millis_writes millis
  have hlength : (rfc3339Millis millis).toList.length - FixedWidth.width behindYear =
      (padZeros 4 (instantDate millis).year).toList.length := by
    rw [htext, List.length_append, hrest.length_eq, Nat.add_sub_cancel]
  unfold readTimestamp
  dsimp only
  rw [hlength, htext, List.take_left, List.drop_left, readYear_padZeros, hrest.read]
  dsimp only [instantNumbers]
  rw [if_pos ⟨instantDate_valid millis, by omega, by omega, by omega⟩]
  have hdays : daysSince unixEpoch (instantDate millis) = millis / 1000 / 86400 := daysSince_dateOf _
  change some ((daysSince unixEpoch (instantDate millis) * 86400 + _ + _ + _) * 1000 + _) = _
  rw [hdays]
  refine congrArg some ?_
  omega

/-! ### Order -/

/-- ASCII is encoded in one byte a character. -/
theorem bytesOf_ofList_ascii {chars : List Char} (h : ∀ c ∈ chars, c.toNat < 0x80) :
    bytesOf (String.ofList chars) = chars.map fun c => UInt8.ofNat c.toNat := by
  induction chars with
  | nil => rfl
  | cons c chars ih =>
      have hfirst : String.utf8EncodeChar c = [UInt8.ofNat c.toNat] := by
        have hascii := h c List.mem_cons_self
        have hvalue : (UInt8.ofNat c.toNat).toNat = c.toNat :=
          UInt8.toNat_ofNat_of_lt (by
            have hbits : UInt8.size = 256 := rfl
            omega)
        have hbyte : UInt8.ofNat c.toNat < 0x80 := by
          rw [UInt8.lt_iff_toNat_lt, hvalue]
          exact hascii
        have hencode := Rust.utf8EncodeChar_ofNat hbyte
        rw [hvalue, Char.ofNat_toNat] at hencode
        exact hencode
      rw [bytesOf_ofList_cons, hfirst, ih fun d hd => h d (List.mem_cons_of_mem c hd)]
      rfl

/-- On ASCII the order of the bytes is the order of the characters. -/
theorem bytesOf_lt_iff {chars chars' : List Char} (h : ∀ c ∈ chars, c.toNat < 0x80)
    (h' : ∀ c ∈ chars', c.toNat < 0x80) :
    bytesOf (String.ofList chars) < bytesOf (String.ofList chars') ↔ chars < chars' := by
  rw [bytesOf_ofList_ascii h, bytesOf_ofList_ascii h']
  induction chars generalizing chars' with
  | nil =>
      cases chars' with
      | nil => simp
      | cons d chars' => simp
  | cons c chars ih =>
      cases chars' with
      | nil => simp
      | cons d chars' =>
          have hc := h c List.mem_cons_self
          have hd := h' d List.mem_cons_self
          have hrest := ih (fun b hb => h b (List.mem_cons_of_mem c hb))
            (fun b hb => h' b (List.mem_cons_of_mem d hb))
          have hbits : UInt8.size = 256 := rfl
          have hvalue : (UInt8.ofNat c.toNat).toNat = c.toNat := UInt8.toNat_ofNat_of_lt (by omega)
          have hvalue' : (UInt8.ofNat d.toNat).toNat = d.toNat := UInt8.toNat_ofNat_of_lt (by omega)
          rw [List.map_cons, List.map_cons, List.cons_lt_cons_iff, List.cons_lt_cons_iff, hrest,
            UInt8.lt_iff_toNat_lt, ← UInt8.toNat_inj, hvalue, hvalue', FixedWidth.char_lt_iff,
            FixedWidth.char_eq_iff]

/-- The instants whose timestamp has a year of four digits. -/
def HasFourDigitYear (millis : Int) : Prop :=
  0 ≤ (instantDate millis).year ∧ (instantDate millis).year ≤ 9999

/-- A timestamp with a year of four digits has a fixed width. -/
theorem timestamp_writes {millis : Int} (h : HasFourDigitYear millis) :
    Writes (.number 4 :: behindYear) ((instantDate millis).year.toNat :: instantNumbers millis)
      (rfc3339Millis millis).toList := by
  obtain ⟨rest, hrest, htext⟩ := rfc3339Millis_writes millis
  rw [htext]
  exact padZeros_writes (by decide) h.1 (Int.lt_of_le_of_lt h.2 (by decide)) hrest

theorem timestamp_ascii {millis : Int} (h : HasFourDigitYear millis) :
    ∀ c ∈ (rfc3339Millis millis).toList, c.toNat < 0x80 := by
  intro c hc
  rcases (timestamp_writes h).mem hc with hdigit | hmark
  · have hmax := (FixedWidth.isDigit_bounds hdigit).2
    omega
  · simp only [behindYear, List.mem_cons, Part.mark.injEq, reduceCtorEq, false_or, or_false,
      List.not_mem_nil] at hmark
    rcases hmark with rfl | rfl | rfl | rfl | rfl | rfl | rfl
    · decide
    · decide
    · decide
    · decide
    · decide
    · decide
    · decide

/-- Times of one day are ordered by the hour, the minute, the second and the millisecond. -/
theorem time_lt_iff {hour hour' minute minute' second second' milli milli' : Nat}
    (hminute : minute < 60) (hminute' : minute' < 60) (hsecond : second < 60) (hsecond' : second' < 60)
    (hmilli : milli < 1000) (hmilli' : milli' < 1000) :
    (hour < hour' ∨ hour = hour' ∧ (minute < minute' ∨ minute = minute' ∧
      (second < second' ∨ second = second' ∧ milli < milli'))) ↔
      ((hour * 60 + minute) * 60 + second) * 1000 + milli <
        ((hour' * 60 + minute') * 60 + second') * 1000 + milli' := by
  rcases lt_trichotomy hour hour' with hlt | rfl | hgt
  · exact iff_of_true (.inl hlt) (by omega)
  · rcases lt_trichotomy minute minute' with hlt | rfl | hgt
    · exact iff_of_true (.inr ⟨rfl, .inl hlt⟩) (by omega)
    · omega
    · exact iff_of_false (by omega) (by omega)
  · exact iff_of_false (by omega) (by omega)

theorem emod_sixty_lt (n : Int) : (n % 60).toNat < 60 := by omega

theorem emod_thousand_lt (n : Int) : (n % 1000).toNat < 1000 := by omega

/-- An instant is its day and its time of the day. -/
theorem instant_parts (millis : Int) :
    millis = millis / 1000 / 86400 * 86400000 + ((((millis / 3600000 % 24).toNat * 60 +
      (millis / 60000 % 60).toNat) * 60 + (millis / 1000 % 60).toNat) * 1000 +
        (millis % 1000).toNat : Nat) := by
  omega

theorem lt_iff_of_same_day {millis other start : Int} {time time' : Nat} (h : millis = start + time)
    (h' : other = start + time') : time < time' ↔ millis < other := by
  omega

/-- The numbers of a timestamp are ordered as the instants. -/
theorem instantNumbers_lt_iff {millis other : Int} (h : HasFourDigitYear millis)
    (h' : HasFourDigitYear other) :
    (instantDate millis).year.toNat :: instantNumbers millis <
      (instantDate other).year.toNat :: instantNumbers other ↔ millis < other := by
  obtain ⟨hyear, -⟩ := h
  obtain ⟨hyear', -⟩ := h'
  unfold instantNumbers
  simp only [List.cons_lt_cons_iff, List.not_lt_nil, and_false, or_false]
  rcases lt_trichotomy (millis / 1000 / 86400) (other / 1000 / 86400) with hlt | heq | hgt
  · have hbefore : Calendar.Before (instantDate millis) (instantDate other) :=
      dateOf_before_iff.mpr hlt
    unfold Calendar.Before at hbefore
    exact iff_of_true (by omega) (by omega)
  · have hdate : instantDate millis = instantDate other := congrArg dateOf heq
    rw [hdate]
    simp only [Nat.lt_irrefl, false_or, true_and]
    have hparts := instant_parts millis
    have hparts' := instant_parts other
    rw [time_lt_iff (emod_sixty_lt _) (emod_sixty_lt _) (emod_sixty_lt _) (emod_sixty_lt _)
      (emod_thousand_lt _) (emod_thousand_lt _)]
    rw [heq] at hparts
    exact lt_iff_of_same_day hparts hparts'
  · have hafter : Calendar.Before (instantDate other) (instantDate millis) :=
      dateOf_before_iff.mpr hgt
    unfold Calendar.Before at hafter
    exact iff_of_false (by omega) (by omega)

theorem rfc3339Millis_lt_iff {millis other : Int} (h : HasFourDigitYear millis)
    (h' : HasFourDigitYear other) :
    bytesOf (rfc3339Millis millis) < bytesOf (rfc3339Millis other) ↔ millis < other := by
  calc bytesOf (rfc3339Millis millis) < bytesOf (rfc3339Millis other)
      ↔ (rfc3339Millis millis).toList < (rfc3339Millis other).toList := by
        have hbytes := bytesOf_lt_iff (timestamp_ascii h) (timestamp_ascii h')
        rw [String.ofList_toList, String.ofList_toList] at hbytes
        exact hbytes
    _ ↔ _ := (timestamp_writes h).lt_iff (timestamp_writes h')
    _ ↔ millis < other := instantNumbers_lt_iff h h'

/-- The timestamp of each `i64` of milliseconds is computed without an overflow and denotes that
instant, whose date is the one of the calendar; with years of four digits, timestamps are ordered as
their instants. -/
theorem timestamps_exact {millis : Int} (hmin : Rust.i64Min ≤ millis) (hmax : millis ≤ Rust.i64Max) :
    rfc3339MillisChecked millis = some (rfc3339Millis millis) ∧
      readTimestamp (rfc3339Millis millis) = some millis ∧
      (∀ days, (dateOf days).Valid ∧ daysSince unixEpoch (dateOf days) = days) ∧
      (∀ date : Date, date.Valid → dateOf (daysSince unixEpoch date) = date) ∧
      ∀ other, HasFourDigitYear millis → HasFourDigitYear other →
        (bytesOf (rfc3339Millis millis) < bytesOf (rfc3339Millis other) ↔ millis < other) :=
  ⟨rfc3339MillisChecked_eq hmin hmax, readTimestamp_rfc3339Millis millis,
    fun days => ⟨dateOf_valid days, daysSince_dateOf days⟩, fun _ => dateOf_daysSince,
    fun _ => rfc3339Millis_lt_iff⟩

namespace Sample

/-- The last millisecond before 1970. -/
theorem timestamps_exact_before_epoch :
    rfc3339MillisChecked (-1) = some (rfc3339Millis (-1)) ∧
      readTimestamp (rfc3339Millis (-1)) = some (-1) ∧
      bytesOf (rfc3339Millis (-1)) < bytesOf (rfc3339Millis 0) := by
  have h := timestamps_exact (show Rust.i64Min ≤ -1 by decide) (by decide)
  have hyears : HasFourDigitYear (-1) ∧ HasFourDigitYear 0 := by
    unfold HasFourDigitYear
    decide +kernel
  exact ⟨h.1, h.2.1, (h.2.2.2.2 0 hyears.1 hyears.2).mpr (by decide)⟩

end Sample

end Ciphr
