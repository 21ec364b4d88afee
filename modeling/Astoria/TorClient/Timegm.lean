import Astoria.TorClient.Accounting
import Astoria.TorClient.IsoTime
import Mathlib.Data.List.TakeWhile

/-!
# From dates to times

`torTimegm` is the time of a date with fields that are numbers of any size; here the same function
also takes fields that are out of range, or negative.  It accepts a date exactly if it is one of the
Gregorian calendar, but for some days: the leap year is checked with the number of years since 1900,
so it misses the 29th of February of 2000 and takes that of 2300 for a date.

Texts in the format of RFC 1123 are read back as the time, with the same exception
(`time_roundTrips`).
-/

namespace Astoria

open List Option
open Gregorian

/-! ### All fields -/

/-- Whether a year is a leap year (`IS_LEAPYEAR`). -/
def isLeapyearInt (y : ℤ) : Bool := y % 4 = 0 && (y % 100 ≠ 0 || y % 400 = 0)

/-- The number of leap days between the starts of two years (`n_leapdays`). -/
def nLeapdaysInt (y₁ y₂ : ℤ) : ℤ :=
  ((y₂ - 1) / 4 - (y₁ - 1) / 4) - ((y₂ - 1) / 100 - (y₁ - 1) / 100) +
    ((y₂ - 1) / 400 - (y₁ - 1) / 400)

/-- The days of the month of a broken-down time (`dpm`).  The leap year is checked with the number
of years since 1900. -/
def dpm (tm : LocalTm) (invalidYear : Bool) : ℤ :=
  if 0 ≤ tm.tmMon ∧ tm.tmMon ≤ 11 then
    if tm.tmMon = 1 ∧ invalidYear = false ∧ isLeapyearInt tm.tmYear = true then 29
    else daysPerMonth.getD tm.tmMon.toNat 0
  else 0

/-- The time of a broken-down time, if it is valid (`tor_timegm`). -/
def torTimegmInt (tm : LocalTm) : Option ℤ :=
  let year := if tm.tmYear < 2 ^ 31 - 1 - 1900 then tm.tmYear + 1900 else 2 ^ 31 - 1
  let invalidYear := year < 1970 || 2 ^ 31 - 1 - 1900 ≤ tm.tmYear
  if invalidYear = true ∨ tm.tmMon < 0 ∨ 11 < tm.tmMon ∨ tm.tmMday < 1 ∨
      dpm tm invalidYear < tm.tmMday ∨ tm.tmHour < 0 ∨ 23 < tm.tmHour ∨ tm.tmMin < 0 ∨
      59 < tm.tmMin ∨ tm.tmSec < 0 ∨ 60 < tm.tmSec then none
  else
    let days :=
      365 * (year - 1970) + nLeapdaysInt 1970 year + (daysPerMonth.take tm.tmMon.toNat).sum +
        (if 1 < tm.tmMon ∧ isLeapyearInt year = true then 1 else 0) + (tm.tmMday - 1)
    some (((days * 24 + tm.tmHour) * 60 + tm.tmMin) * 60 + tm.tmSec)

/-- The time of day of a broken-down time is valid.  There may be a leap second. -/
def LocalTm.ClockOk (tm : LocalTm) : Prop :=
  0 ≤ tm.tmHour ∧ tm.tmHour ≤ 23 ∧ 0 ≤ tm.tmMin ∧ tm.tmMin ≤ 59 ∧ 0 ≤ tm.tmSec ∧ tm.tmSec ≤ 60

/-- The day of a broken-down time is one of the Gregorian calendar. -/
def LocalTm.DateOk (tm : LocalTm) : Prop :=
  0 ≤ tm.tmMon ∧ tm.tmMon ≤ 11 ∧ 1 ≤ tm.tmMday ∧ tm.tmMday ≤ monthLength tm.month

/-- The seconds since the start of 1970. -/
def LocalTm.seconds (tm : LocalTm) : ℤ :=
  ((tm.day * 24 + tm.tmHour) * 60 + tm.tmMin) * 60 + tm.tmSec

/-- The day is the 29th of February of a year that is taken for a leap year wrongly, or for none; or
the year is too large for the code. -/
def LocalTm.DateMisjudged (tm : LocalTm) : Prop :=
  if tm.tmYear < 2 ^ 31 - 1 - 1900 then
    tm.tmMon = 1 ∧ tm.tmMday = 29 ∧ ((tm.tmYear + 1900) % 400 = 0 ∨ (tm.tmYear + 1900) % 400 = 300)
  else tm.DateOk

section Fields

variable {tm : LocalTm}

lemma isLeapyearInt_iff (y : ℤ) : isLeapyearInt y = true ↔ IsLeap y := by
  unfold isLeapyearInt IsLeap
  simp only [Bool.and_eq_true, Bool.or_eq_true, decide_eq_true_eq]

lemma isLeapyearInt_sub (y : ℤ) : isLeapyearInt y = true ↔
    (y + 1900) % 400 = 300 ∨ ((y + 1900) % 400 ≠ 0 ∧ IsLeap (y + 1900)) := by
  rw [isLeapyearInt_iff]
  unfold IsLeap
  omega

section

variable (hmon : 0 ≤ tm.tmMon) (hmon' : tm.tmMon ≤ 11)

include hmon hmon'

lemma month_div_mod : tm.month / 12 = tm.tmYear + 1900 ∧ tm.month % 12 = tm.tmMon := by
  unfold LocalTm.month
  constructor <;> omega

/-- The days of a month, as the code has them. -/
lemma monthLength_month :
    (monthLength tm.month : ℤ) =
      if tm.tmMon = 1 ∧ IsLeap (tm.tmYear + 1900) then 29
      else daysPerMonth.getD tm.tmMon.toNat 0 := by
  obtain ⟨hyear, hmonth⟩ := month_div_mod hmon hmon'
  unfold monthLength Gregorian.monthLengths daysPerMonth
  rw [hyear, hmonth]
  generalize tm.tmMon = mon at hmon hmon'
  by_cases hleap : IsLeap (tm.tmYear + 1900)
  · simp only [hleap, and_true, if_true]
    interval_cases mon <;> rfl
  · simp only [hleap, and_false, if_false]

/-- The days of the months before a month, as the code has them. -/
lemma sum_take_month (y : ℤ) : (((Gregorian.monthLengths y).take tm.tmMon.toNat).sum : ℤ) =
      (daysPerMonth.take tm.tmMon.toNat).sum + if 1 < tm.tmMon ∧ IsLeap y then 1 else 0 := by
  unfold Gregorian.monthLengths daysPerMonth
  generalize tm.tmMon = mon at hmon hmon'
  by_cases hleap : IsLeap y
  · simp only [hleap, and_true, if_true]
    interval_cases mon <;> rfl
  · simp only [hleap, and_false, if_false]
    interval_cases mon <;> rfl

/-- The days before a day are those of whole years, of whole months and of the month. -/
lemma day_eq : 365 * (tm.tmYear + 1900 - 1970) + nLeapdaysInt 1970 (tm.tmYear + 1900) +
      (daysPerMonth.take tm.tmMon.toNat).sum +
        (if 1 < tm.tmMon ∧ isLeapyearInt (tm.tmYear + 1900) = true then 1 else 0) +
          (tm.tmMday - 1) = tm.day := by
  obtain ⟨hyear', hmonth⟩ := month_div_mod hmon hmon'
  have hsum := sum_take_month hmon hmon' (tm.tmYear + 1900)
  unfold LocalTm.day monthStart
  rw [hyear', hmonth, hsum]
  simp only [isLeapyearInt_iff]
  unfold yearStart nLeapdaysInt
  omega

end

/-- A broken-down time is accepted. -/
def LocalTm.Accepted (tm : LocalTm) : Prop :=
  tm.tmYear < 2 ^ 31 - 1 - 1900 ∧ 0 ≤ tm.tmMon ∧ tm.tmMon ≤ 11 ∧ 1 ≤ tm.tmMday ∧
    tm.tmMday ≤ dpm tm false ∧ tm.ClockOk

/-- **The time of an accepted broken-down time** from 1970 on is exact. -/
lemma torTimegmInt_of_accepted (hyear : 70 ≤ tm.tmYear) (h : tm.Accepted) :
    torTimegmInt tm = some tm.seconds := by
  obtain ⟨hlarge, hmon, hmon', hmday, hdpm, hclock⟩ := h
  have hvalid : (decide (tm.tmYear + 1900 < 1970) || decide (2 ^ 31 - 1 - 1900 ≤ tm.tmYear)) =
      false := by
    rw [Bool.or_eq_false_iff, decide_eq_false_iff_not, decide_eq_false_iff_not]
    omega
  unfold LocalTm.ClockOk at hclock
  unfold torTimegmInt
  dsimp only
  rw [if_pos hlarge, hvalid, if_neg (by simp only [Bool.false_eq_true, false_or]; omega),
    day_eq hmon hmon']
  rfl

/-- Other broken-down times are not accepted. -/
lemma torTimegmInt_of_not_accepted (hyear : 70 ≤ tm.tmYear) (h : ¬ tm.Accepted) :
    torTimegmInt tm = none := by
  unfold LocalTm.Accepted LocalTm.ClockOk at h
  unfold torTimegmInt
  dsimp only
  by_cases hlarge : tm.tmYear < 2 ^ 31 - 1 - 1900
  · have hvalid : (decide (tm.tmYear + 1900 < 1970) || decide (2 ^ 31 - 1 - 1900 ≤ tm.tmYear)) =
        false := by
      rw [Bool.or_eq_false_iff, decide_eq_false_iff_not, decide_eq_false_iff_not]
      omega
    rw [if_pos hlarge, hvalid, if_pos (by simp only [Bool.false_eq_true, false_or]; omega)]
  · have hinvalid : (decide ((2 : ℤ) ^ 31 - 1 < 1970) || decide (2 ^ 31 - 1 - 1900 ≤ tm.tmYear)) =
        true := by
      rw [Bool.or_eq_true, decide_eq_true_eq, decide_eq_true_eq]
      omega
    rw [if_neg hlarge, if_pos (.inl hinvalid)]

/-- The days of a month, as the reader has them, are those of the calendar unless the date is
misjudged. -/
lemma dpm_iff (hmon : 0 ≤ tm.tmMon) (hmon' : tm.tmMon ≤ 11) :
    (tm.tmMday ≤ dpm tm false ↔ tm.tmMday ≤ monthLength tm.month) ↔
      ¬ (tm.tmMon = 1 ∧ tm.tmMday = 29 ∧
        ((tm.tmYear + 1900) % 400 = 0 ∨ (tm.tmYear + 1900) % 400 = 300)) := by
  unfold dpm
  rw [monthLength_month hmon hmon', if_pos ⟨hmon, hmon'⟩]
  by_cases hfeb : tm.tmMon = 1
  · have h28 : daysPerMonth.getD (Int.toNat 1) 0 = 28 := rfl
    simp only [hfeb, true_and, isLeapyearInt_sub, h28, Nat.cast_ite, Nat.cast_ofNat]
    unfold IsLeap
    split_ifs <;> omega
  · simp only [hfeb, false_and, if_false, not_false_iff]

/-- **A date is accepted** exactly if it is one of the calendar, unless it is misjudged. -/
lemma accepted_iff : (tm.Accepted ↔ tm.DateOk ∧ tm.ClockOk) ↔
    ¬ (tm.DateMisjudged ∧ tm.ClockOk) := by
  unfold LocalTm.Accepted LocalTm.DateMisjudged LocalTm.DateOk
  by_cases hclock : tm.ClockOk
  · by_cases hlarge : tm.tmYear < 2 ^ 31 - 1 - 1900
    · simp only [hclock, hlarge, and_true, true_and, if_true]
      by_cases hmon : 0 ≤ tm.tmMon ∧ tm.tmMon ≤ 11
      · have hiff := dpm_iff hmon.1 hmon.2
        rw [← hiff]
        have h29 := dpm_iff hmon.1 hmon.2
        simp only [hmon.1, hmon.2, true_and]
        by_cases hpos : 1 ≤ tm.tmMday
        · simp only [hpos, true_and]
        · simp only [hpos, false_and, true_iff]
          rw [h29]
          omega
      · omega
    · simp only [hclock, hlarge, false_and, false_iff, and_true, if_false]
  · simp only [hclock, and_false, not_false_iff]

/-! ### Dates that numbers can have -/

/-- A date as a broken-down time. -/
def Tm.toLocalTm (tm : Tm) (wday : ℤ) : LocalTm :=
  ⟨tm.year - 1900, tm.mon, tm.mday, tm.hour, tm.min, tm.sec, wday⟩

/-- The days of the month of a date. -/
lemma dpm_toLocalTm {tm : Tm} (wday : ℤ) (hyear : 1970 ≤ tm.year) (hmon : tm.mon ≤ 11) :
    dpm (tm.toLocalTm wday) false = checkedDaysPerMonth tm.year tm.mon := by
  have hleap : isLeapyearInt ((tm.year : ℤ) - 1900) = isLeapyear (tm.year - 1900) := by
    rw [Bool.eq_iff_iff, isLeapyearInt_iff]
    unfold IsLeap isLeapyear
    simp only [Bool.and_eq_true, Bool.or_eq_true, decide_eq_true_eq]
    omega
  unfold dpm checkedDaysPerMonth Tm.toLocalTm
  dsimp only
  rw [if_pos ⟨Int.natCast_nonneg _, by omega⟩, hleap, Int.toNat_natCast]
  by_cases hfeb : tm.mon = 1 ∧ isLeapyear (tm.year - 1900) = true
  · rw [if_pos ⟨by omega, rfl, hfeb.2⟩, if_pos hfeb]
    rfl
  · rw [if_neg fun h => hfeb ⟨by omega, h.2.2⟩, if_neg hfeb]

/-- **Both functions agree.** -/
theorem torTimegmInt_toLocalTm {tm : Tm} (wday : ℤ) (hyear : 1970 ≤ tm.year) :
    torTimegmInt (tm.toLocalTm wday) = (torTimegm tm).map Nat.cast := by
  have hyear' : 70 ≤ (tm.toLocalTm wday).tmYear := by
    unfold Tm.toLocalTm
    dsimp only
    omega
  by_cases hmon : tm.mon ≤ 11
  · have hdpm := dpm_toLocalTm wday hyear hmon
    unfold torTimegm
    by_cases hok : tm.year < 2 ^ 31 - 1 ∧ 1 ≤ tm.mday ∧
        tm.mday ≤ checkedDaysPerMonth tm.year tm.mon ∧ tm.hour ≤ 23 ∧ tm.min ≤ 59 ∧ tm.sec ≤ 60
    · have haccepted : (tm.toLocalTm wday).Accepted := by
        unfold LocalTm.Accepted LocalTm.ClockOk
        rw [hdpm]
        unfold Tm.toLocalTm
        dsimp only
        omega
      rw [torTimegmInt_of_accepted hyear' haccepted, if_neg (by omega), map_some]
      congr 1
      have hleap : isLeapyearInt ((tm.year : ℤ) - 1900 + 1900) = isLeapyear tm.year := by
        rw [Bool.eq_iff_iff, isLeapyearInt_iff, sub_add_cancel]
        unfold IsLeap isLeapyear
        simp only [Bool.and_eq_true, Bool.or_eq_true, decide_eq_true_eq]
        omega
      have hdays := nLeapdays_eq hyear
      unfold LocalTm.seconds
      rw [← day_eq haccepted.2.1 haccepted.2.2.1]
      unfold Tm.toLocalTm nLeapdaysInt
      dsimp only
      rw [hleap, Int.toNat_natCast]
      by_cases hfeb : 1 < tm.mon ∧ isLeapyear tm.year = true
      · rw [if_pos ⟨by omega, hfeb.2⟩, if_pos hfeb]
        push_cast
        omega
      · rw [if_neg fun h => hfeb ⟨by omega, h.2⟩, if_neg hfeb]
        push_cast
        omega
    · rw [torTimegmInt_of_not_accepted hyear', if_pos (by omega)]
      · rfl
      · unfold LocalTm.Accepted LocalTm.ClockOk
        rw [hdpm]
        unfold Tm.toLocalTm
        dsimp only
        omega
  · have hrejected : ¬ (tm.toLocalTm wday).Accepted := by
      rintro ⟨-, -, hle, -⟩
      unfold Tm.toLocalTm at hle
      dsimp only at hle
      omega
    unfold torTimegm
    rw [torTimegmInt_of_not_accepted hyear' hrejected, if_pos (by omega)]
    rfl

end Fields

/-! ### Texts in the format of RFC 1123 -/

def weekdayNames : List DocText :=
  ["Sun", "Mon", "Tue", "Wed", "Thu", "Fri", "Sat"].map String.toList

def monthNames : List DocText :=
  ["Jan", "Feb", "Mar", "Apr", "May", "Jun", "Jul", "Aug", "Sep", "Oct", "Nov", "Dec"].map
    String.toList

/-- The day of the week of a time. -/
def weekday (t : ℕ) : ℕ := (t / 86400 + 4) % 7

/-- The text of a time (`format_rfc1123_time`). -/
def formatRfc1123Time (t : ℕ) : DocText :=
  let tm := torGmtime t
  weekdayNames.getD (weekday t) [] ++ ',' :: ' ' :: twoDigits tm.mday ++ ' ' ::
    monthNames.getD tm.mon [] ++ ' ' :: Nat.toDigits 10 tm.year ++ ' ' :: formatClock tm ++
    " GMT".toList

/-- The first characters of a text up to white space, and what follows them (`scan_string`). -/
def scanString (width : ℕ) (s : DocText) : DocText × DocText :=
  let word := (s.take width).takeWhile fun c => !isWhite c
  (word, s.drop word.length)

/-- The fields of a text: the month and the numbers. -/
def scanRfc1123 (s : DocText) : Option (ℕ × DocText × ℕ × ℕ × ℕ × ℕ) := do
  let s ← scanChar ',' (scanString 3 s).2
  let s ← scanChar ' ' s
  let (mday, s) ← scanUnsigned 2 s
  let s ← scanChar ' ' s
  let (month, s) := scanString 3 s
  let s ← scanChar ' ' s
  let (year, s) ← scanUnsigned maxScanfWidth s
  let s ← scanChar ' ' s
  let (hour, s) ← scanUnsigned 2 s
  let s ← scanChar ':' s
  let (min, s) ← scanUnsigned 2 s
  let s ← scanChar ':' s
  let (sec, _) ← scanUnsigned 2 s
  some (mday, month, year, hour, min, sec)

/-- The time in a text (`parse_rfc1123_time`). -/
def parseRfc1123Time (s : DocText) : Option ℕ :=
  if s.length ≠ 29 then none
  else
    match scanRfc1123 s with
    | none => none
    | some (mday, month, year, hour, min, sec) =>
      let mon := monthNames.idxOf month
      if 12 ≤ mon then none
      else
        let invalidYear := 2 ^ 31 - 1 ≤ year ∨ year < 1970
        let dpm := if mon = 1 ∧ ¬ invalidYear ∧ isLeapyear year = true then 29
          else daysPerMonth.getD mon 0
        if invalidYear ∨ mday < 1 ∨ dpm < mday ∨ 23 < hour ∨ 59 < min ∨ 60 < sec then none
        else torTimegm ⟨year, mon, mday, hour, min, sec⟩

lemma scanString_append {word s : DocText} (hword : ∀ c ∈ word, isWhite c = false) :
    scanString word.length (word ++ s) = (word, s) := by
  have htake : (word.takeWhile fun c => !isWhite c) = word :=
    takeWhile_eq_self_iff.mpr fun c hc => by rw [hword c hc]; rfl
  unfold scanString
  rw [take_left, htake]
  dsimp only
  rw [drop_left]

lemma monthNames_spec : ∀ mon < 12, (monthNames.getD mon []).length = 3 ∧
    (monthNames.getD mon []).all (fun c => !isWhite c) = true ∧
      monthNames.idxOf (monthNames.getD mon []) = mon := by decide

lemma weekdayNames_spec : ∀ wday < 7, (weekdayNames.getD wday []).length = 3 ∧
    (weekdayNames.getD wday []).all (fun c => !isWhite c) = true := by decide

lemma length_toDigits_year {y : ℕ} (hle : 1000 ≤ y) (hlt : y ≤ 9999) :
    (Nat.toDigits 10 y).length = 4 := by
  have h₁ : (Nat.toDigits 10 y).length ≤ 4 :=
    (Nat.length_toDigits_le_iff (by decide) (by decide)).mpr (by omega)
  have h₂ : ¬ (Nat.toDigits 10 y).length ≤ 3 := by
    rw [Nat.length_toDigits_le_iff (by decide) (by decide)]
    omega
  omega

section Texts

variable {t : ℕ}

/-- The text of a time has the length that the reader checks. -/
lemma length_formatRfc1123Time (hyear : (gmtime t).year ≤ 9999) :
    (formatRfc1123Time t).length = 29 := by
  obtain ⟨h1970, hmon, -⟩ := gmtime_spec t
  have hday : weekday t < 7 := Nat.mod_lt _ (by decide)
  have hlen := length_toDigits_year (by omega) hyear
  unfold formatRfc1123Time torGmtime formatClock
  rw [if_neg (not_lt.mpr hyear)]
  simp only [length_append, length_cons, (monthNames_spec _ hmon).1, (weekdayNames_spec _ hday).1,
    hlen, twoDigits, length_nil]
  rfl

/-- **The fields of the text of a time** are scanned. -/
lemma scanRfc1123_formatRfc1123Time (hyear : (gmtime t).year ≤ 9999) :
    scanRfc1123 (formatRfc1123Time t) = some ((gmtime t).mday, monthNames.getD (gmtime t).mon [],
      (gmtime t).year, (gmtime t).hour, (gmtime t).min, (gmtime t).sec) := by
  obtain ⟨h1970, hmon, -⟩ := gmtime_spec t
  obtain ⟨hhour, hmin, hsec, -⟩ := gmtime_day t
  have hmday := gmtime_mday t
  have hday : weekday t < 7 := Nat.mod_lt _ (by decide)
  have hweekday : ∀ s, scanString 3 (weekdayNames.getD (weekday t) [] ++ s) =
      (weekdayNames.getD (weekday t) [], s) := by
    intro s
    obtain ⟨hlen, hall⟩ := weekdayNames_spec _ hday
    rw [← hlen]
    exact scanString_append fun c hc => by simpa using List.all_eq_true.mp hall c hc
  have hmonth : ∀ s, scanString 3 (monthNames.getD (gmtime t).mon [] ++ s) =
      (monthNames.getD (gmtime t).mon [], s) := by
    intro s
    obtain ⟨hlen, hall, -⟩ := monthNames_spec _ hmon
    rw [← hlen]
    exact scanString_append fun c hc => by simpa using List.all_eq_true.mp hall c hc
  have hscanYear : ∀ s, scanUnsigned maxScanfWidth (Nat.toDigits 10 (gmtime t).year ++ ' ' :: s) =
      some ((gmtime t).year, ' ' :: s) := by
    intro s
    have hlen : (Nat.toDigits 10 (gmtime t).year).length ≤ maxScanfWidth :=
      (length_toDigits_year (by omega) hyear).trans_le (by decide)
    rw [scanUnsigned_append Nat.toDigits_ne_nil (fun c hc => isDigit_of_mem_toDigits hc) hlen
      (.inr (by rintro c hc; obtain rfl := Option.some.inj hc; decide))
      (by rw [digitsValue_toDigits]; omega), digitsValue_toDigits]
  have htwo : ∀ n < 100, ∀ s, scanUnsigned 2 (twoDigits n ++ s) = some (n, s) :=
    fun n hn s => scanUnsigned_twoDigits hn s
  unfold scanRfc1123 formatRfc1123Time torGmtime formatClock
  rw [if_neg (not_lt.mpr hyear)]
  simp only [append_assoc, cons_append, bind_eq_bind, bind_some, scanChar, if_true,
    hweekday, hmonth, hscanYear, htwo _ (show (gmtime t).mday < 100 by omega),
    htwo _ (show (gmtime t).hour < 100 by omega), htwo _ (show (gmtime t).min < 100 by omega),
    htwo _ (show (gmtime t).sec < 100 by omega)]

lemma parseRfc1123Time_formatRfc1123Time (hyear : (gmtime t).year ≤ 9999) :
    parseRfc1123Time (formatRfc1123Time t) = torTimegm (gmtime t) := by
  obtain ⟨h1970, hmon, hmday, hmdays, -⟩ := gmtime_spec t
  obtain ⟨hhour, hmin, hsec, -⟩ := gmtime_day t
  have hvalid : ¬ (2 ^ 31 - 1 ≤ (gmtime t).year ∨ (gmtime t).year < 1970) := by omega
  unfold parseRfc1123Time
  rw [if_neg (not_not.mpr (length_formatRfc1123Time hyear)), scanRfc1123_formatRfc1123Time hyear]
  dsimp only
  rw [(monthNames_spec _ hmon).2.2, if_neg (not_le.mpr hmon)]
  simp only [hvalid, not_false_iff, true_and, false_or]
  rw [if_neg (by omega)]

end Texts

/-- **Times and dates.**  A time with a year of four digits is read back from its texts and from its
date if and only if it is not on the 29th of February of a year that is a multiple of 400.  A
broken-down time from 1970 on is accepted exactly if it is valid, and its time is exact, if and only
if its date is not misjudged. -/
theorem time_roundTrips (t : ℕ) (wday : ℤ) (tm : LocalTm) :
    ((gmtime t).year ≤ 9999 →
      ((parseIsoTime (formatIsoTime t) = some t ∧ parseRfc1123Time (formatRfc1123Time t) = some t ∧
        torTimegmInt ((gmtime t).toLocalTm wday) = some (t : ℤ)) ↔
          ¬ ((gmtime t).year % 400 = 0 ∧ (gmtime t).mon = 1 ∧ (gmtime t).mday = 29))) ∧
    (70 ≤ tm.tmYear →
      ((((torTimegmInt tm).isSome ↔ tm.DateOk ∧ tm.ClockOk) ∧ ∀ s, torTimegmInt tm = some s →
        s = tm.seconds) ↔
        ¬ (tm.DateMisjudged ∧ tm.ClockOk))) := by
  constructor
  · intro hyear
    obtain ⟨h1970, -⟩ := gmtime_spec t
    have hiso := parseIsoTime_formatIsoTime t
    unfold TimeReadable at hiso
    rw [hiso, parseRfc1123Time_formatRfc1123Time hyear, torTimegmInt_toLocalTm wday h1970,
      torTimegm_gmtime (by omega)]
    by_cases hmissed : (gmtime t).year % 400 = 0 ∧ (gmtime t).mon = 1 ∧ (gmtime t).mday = 29
    · exact iff_of_false (fun h => h.1.2 hmissed) (not_not.mpr hmissed)
    · rw [if_neg hmissed]
      exact iff_of_true ⟨⟨hyear, hmissed⟩, rfl, rfl⟩ hmissed
  · intro hyear
    rw [← accepted_iff]
    by_cases haccepted : tm.Accepted
    · rw [torTimegmInt_of_accepted hyear haccepted]
      constructor
      · exact fun h => iff_of_true haccepted (h.1.mp rfl)
      · exact fun h => ⟨iff_of_true rfl (h.mp haccepted), fun s hs => (Option.some.inj hs).symm⟩
    · rw [torTimegmInt_of_not_accepted hyear haccepted]
      constructor
      · exact fun h => iff_of_false haccepted fun hok => Bool.false_ne_true (h.1.mpr hok)
      · exact fun h => ⟨iff_of_false Bool.false_ne_true fun hok => haccepted (h.mpr hok),
          fun s hs => by cases hs⟩

/-- The 29th of February 2000 at midnight is not read back, and is not accepted. -/
theorem not_time_roundTrips :
    (¬ ∀ t, (gmtime t).year ≤ 9999 → parseRfc1123Time (formatRfc1123Time t) = some t) ∧
      ¬ ∀ tm : LocalTm, 70 ≤ tm.tmYear → ((torTimegmInt tm).isSome ↔ tm.DateOk ∧ tm.ClockOk) := by
  constructor
  · intro h
    have hread := h 951782400 (by decide +kernel)
    have hnone : parseRfc1123Time (formatRfc1123Time 951782400) = none := by decide +kernel
    rw [hnone] at hread
    cases hread
  · intro h
    have hiff := h ⟨100, 1, 29, 0, 0, 0, 2⟩ (by decide)
    have hnone : (torTimegmInt ⟨100, 1, 29, 0, 0, 0, 2⟩).isSome = false := by decide
    rw [hnone] at hiff
    have hdate : (⟨100, 1, 29, 0, 0, 0, 2⟩ : LocalTm).DateOk :=
      ⟨by decide, by decide, by decide, by decide⟩
    have hclock : (⟨100, 1, 29, 0, 0, 0, 2⟩ : LocalTm).ClockOk := by
      unfold LocalTm.ClockOk
      decide
    exact Bool.false_ne_true (hiff.mpr ⟨hdate, hclock⟩)

end Astoria
