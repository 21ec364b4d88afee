import Mathlib.Tactic.IntervalCases
import Astoria.Library.DecimalText
import Astoria.TorClient.DirvoteAdd

/-!
# Times in text

Times are seconds since 1970, and documents contain them as dates.  A date is the year, month and
day that a number of days leads to, going through the years and months one after another.

What is read from the text of a time is the time (`parseIsoTime_formatIsoTime`), with two
exceptions: the text of times after the year 9999 is that of the end of this year, and the reader
takes the 29th of February for an invalid date in years that are multiples of 400.
-/

namespace Astoria

open List Option

/-! ### Calendar dates -/

/-- A broken-down time (`struct tm`), but with the full year. -/
structure Tm where
  year : ℕ
  /-- The month, counted from 0. -/
  mon : ℕ
  mday : ℕ
  hour : ℕ
  min : ℕ
  sec : ℕ
  deriving DecidableEq

/-- Whether a year is a leap year. -/
def isLeapyear (y : ℕ) : Bool := y % 4 = 0 && (y % 100 ≠ 0 || y % 400 = 0)

/-- The number of leap days between the starts of two years. -/
def nLeapdays (y₁ y₂ : ℕ) : ℕ :=
  (y₂ - 1) / 4 - (y₁ - 1) / 4 - ((y₂ - 1) / 100 - (y₁ - 1) / 100) +
    ((y₂ - 1) / 400 - (y₁ - 1) / 400)

/-- The number of days of a month in a year that is no leap year. -/
def daysPerMonth : List ℕ := [31, 28, 31, 30, 31, 30, 31, 31, 30, 31, 30, 31]

/-- The days of a month.  The leap year is checked with the number of years since 1900. -/
def checkedDaysPerMonth (year mon : ℕ) : ℕ :=
  if mon = 1 ∧ isLeapyear (year - 1900) then 29 else daysPerMonth.getD mon 0

/-- The time of a date, if the date is valid (`tor_timegm`). -/
def torTimegm (tm : Tm) : Option ℕ :=
  if tm.year < 1970 ∨ 2 ^ 31 - 1 ≤ tm.year ∨ 11 < tm.mon ∨ tm.mday < 1 ∨
      checkedDaysPerMonth tm.year tm.mon < tm.mday ∨ 23 < tm.hour ∨ 59 < tm.min ∨ 60 < tm.sec then
    none
  else
    let days := 365 * (tm.year - 1970) + nLeapdays 1970 tm.year + (daysPerMonth.take tm.mon).sum +
      (if 1 < tm.mon ∧ isLeapyear tm.year then 1 else 0) + (tm.mday - 1)
    some (((days * 24 + tm.hour) * 60 + tm.min) * 60 + tm.sec)

/-- The number of days of a year. -/
def yearLength (y : ℕ) : ℕ := if isLeapyear y then 366 else 365

/-- The number of days of the months of a year. -/
def monthLengths (y : ℕ) : List ℕ :=
  [31, if isLeapyear y then 29 else 28, 31, 30, 31, 30, 31, 31, 30, 31, 30, 31]

/-- The year in which a day is, and which of its days it is.  Each pass skips a year. -/
def yearOfDays : ℕ → ℕ → ℕ → ℕ × ℕ
  | 0, y, days => (y, days)
  | n + 1, y, days =>
    if days < yearLength y then (y, days) else yearOfDays n (y + 1) (days - yearLength y)

/-- The month in which a day is, and which of its days it is. -/
def monthOfDays : List ℕ → ℕ → ℕ × ℕ
  | [], days => (0, days)
  | m :: ms, days =>
    if days < m then (0, days)
    else ((monthOfDays ms (days - m)).1 + 1, (monthOfDays ms (days - m)).2)

/-- The date of a time (`gmtime`). -/
def gmtime (t : ℕ) : Tm :=
  let yd := yearOfDays (t / 86400) 1970 (t / 86400)
  let md := monthOfDays (monthLengths yd.1) yd.2
  ⟨yd.1, md.1, md.2 + 1, t % 86400 / 3600, t % 3600 / 60, t % 60⟩

/-- The date of a time, but not after the year 9999 (`tor_gmtime_r`). -/
def torGmtime (t : ℕ) : Tm := if 9999 < (gmtime t).year then ⟨9999, 11, 31, 23, 59, 59⟩
    else gmtime t

/-! ### Text -/

def twoDigits (n : ℕ) : DocText := [Nat.digitChar (n / 10), Nat.digitChar (n % 10)]

/-- The text of the day of a date. -/
def formatDay (tm : Tm) : DocText :=
  Nat.toDigits 10 tm.year ++ '-' :: twoDigits (tm.mon + 1) ++ '-' :: twoDigits tm.mday

/-- The text of the time of day of a date. -/
def formatClock (tm : Tm) : DocText :=
  twoDigits tm.hour ++ ':' :: twoDigits tm.min ++ ':' :: twoDigits tm.sec

/-- The text of a date. -/
def formatTm (tm : Tm) : DocText := formatDay tm ++ ' ' :: formatClock tm

/-- The text of a time (`format_iso_time`). -/
def formatIsoTime (t : ℕ) : DocText := formatTm (torGmtime t)

/-- The number at the start of a text, of at most so many digits, and what follows it
(`scan_unsigned`). -/
def scanUnsigned (width : ℕ) (s : DocText) : Option (ℕ × DocText) :=
  let digits := (s.take width).takeWhile Char.isDigit
  if digits = [] ∨ 2 ^ 32 ≤ digitsValue digits then none
  else some (digitsValue digits, s.drop digits.length)

/-- The text after a character that must be there. -/
def scanChar (c : Char) : DocText → Option DocText
  | [] => none
  | d :: s => if d = c then some s else none

/-- The largest width of a number that is read (`MAX_SCANF_WIDTH`). -/
def maxScanfWidth : ℕ := 9999

/-- The date in a text, which must be all of it. -/
def scanTm (s : DocText) : Option Tm := do
  let (year, s) ← scanUnsigned maxScanfWidth s
  let s ← scanChar '-' s
  let (month, s) ← scanUnsigned 2 s
  let s ← scanChar '-' s
  let (day, s) ← scanUnsigned 2 s
  let s ← scanChar ' ' s
  let (hour, s) ← scanUnsigned 2 s
  let s ← scanChar ':' s
  let (minute, s) ← scanUnsigned 2 s
  let s ← scanChar ':' s
  let (second, s) ← scanUnsigned 2 s
  if s ≠ [] ∨ month < 1 then none else some ⟨year, month - 1, day, hour, minute, second⟩

/-- The time in a text (`parse_iso_time`). -/
def parseIsoTime (s : DocText) : Option ℕ :=
  match scanTm s with
  | none => none
  | some tm =>
    if tm.year < 1970 ∨ 11 < tm.mon ∨ tm.mday < 1 ∨ 31 < tm.mday ∨ 23 < tm.hour ∨ 59 < tm.min ∨
        60 < tm.sec ∨ 2 ^ 31 - 1 ≤ tm.year then none
    else torTimegm tm

example : parseIsoTime "2015-06-30 23:59:60".toList = some 1435708800 := by decide
example : String.ofList (formatIsoTime 1435708800) = "2015-07-01 00:00:00" := by decide

/-! ### Years and months -/

def daysBeforeYear (y : ℕ) : ℕ := 365 * (y - 1970) + nLeapdays 1970 y

lemma div_of_pos {y : ℕ} (hy : 0 < y) (m : ℕ) : y / m = (y - 1) / m + if m ∣ y then 1 else 0 := by
  obtain ⟨y, rfl⟩ := Nat.exists_eq_succ_of_ne_zero hy.ne'
  exact Nat.succ_div

/-- Between two years there are more multiples of smaller numbers. -/
lemma nLeapdays_eq {y : ℕ} (h : 1970 ≤ y) :
    nLeapdays 1970 y + 477 + (y - 1) / 100 = (y - 1) / 4 + (y - 1) / 400 := by
  have h4 : (1970 - 1) / 4 = 492 := rfl
  have h100 : (1970 - 1) / 100 = 19 := rfl
  have h400 : (1970 - 1) / 400 = 4 := rfl
  have hle : (y - 1) / 100 - 19 ≤ (y - 1) / 4 - 492 := by omega
  have hmono : 492 ≤ (y - 1) / 4 ∧ 19 ≤ (y - 1) / 100 ∧ 4 ≤ (y - 1) / 400 := by omega
  unfold nLeapdays
  rw [h4, h100, h400]
  omega

/-- A year has one day more if it is a leap year. -/
lemma daysBeforeYear_succ {y : ℕ} (h : 1970 ≤ y) :
    daysBeforeYear (y + 1) = daysBeforeYear y + yearLength y := by
  have hy := nLeapdays_eq h
  have hsucc := nLeapdays_eq (h.trans (Nat.le_succ y))
  have hpos : 0 < y := by omega
  rw [Nat.succ_eq_add_one, Nat.add_sub_cancel, div_of_pos hpos 4, div_of_pos hpos 100,
    div_of_pos hpos 400] at hsucc
  have h100 : 100 ∣ y → 4 ∣ y := fun hd => (by decide : 4 ∣ 100).trans hd
  have h400 : 400 ∣ y → 100 ∣ y := fun hd => (by decide : 100 ∣ 400).trans hd
  have hleap : yearLength y = 365 + (if 4 ∣ y then 1 else 0) + (if 400 ∣ y then 1 else 0) -
      if 100 ∣ y then 1 else 0 := by
    unfold yearLength isLeapyear
    simp only [Nat.dvd_iff_mod_eq_zero] at h100 h400 ⊢
    by_cases h₄ : y % 4 = 0 <;> by_cases h₁ : y % 100 = 0 <;> by_cases h₀ : y % 400 = 0 <;>
      simp_all
  unfold daysBeforeYear
  rw [hleap]
  split_ifs at hsucc ⊢ <;> omega

lemma daysBeforeYear_mono {y₁ y₂ : ℕ} (h₁ : 1970 ≤ y₁) (h : y₁ ≤ y₂) :
    daysBeforeYear y₁ ≤ daysBeforeYear y₂ := by
  induction y₂, h using Nat.le_induction with
  | base => exact le_rfl
  | succ y hy ih =>
    rw [daysBeforeYear_succ (h₁.trans hy)]
    omega

/-- **The year of a day.** -/
lemma yearOfDays_spec {n y days : ℕ} (hy : 1970 ≤ y) (hn : days ≤ n) :
    y ≤ (yearOfDays n y days).1 ∧ (yearOfDays n y days).2 < yearLength (yearOfDays n y days).1 ∧
      daysBeforeYear (yearOfDays n y days).1 + (yearOfDays n y days).2 =
        daysBeforeYear y + days := by
  have hlength : ∀ y, 0 < yearLength y := by
    intro y
    unfold yearLength
    split_ifs <;> decide
  induction n generalizing y days with
  | zero =>
    obtain rfl := Nat.le_zero.mp hn
    exact ⟨le_rfl, hlength y, rfl⟩
  | succ n ih =>
    rw [yearOfDays]
    split_ifs with hday
    · exact ⟨le_rfl, hday, rfl⟩
    · have hpos := hlength y
      obtain ⟨hle, hlt, hsum⟩ := @ih (y + 1) (days - yearLength y) (by omega) (by omega)
      refine ⟨by omega, hlt, ?_⟩
      rw [hsum, daysBeforeYear_succ hy]
      omega

/-- **The month of a day.** -/
lemma monthOfDays_spec {ms : List ℕ} {days : ℕ} (h : days < ms.sum) :
    (monthOfDays ms days).1 < ms.length ∧
      (monthOfDays ms days).2 < ms.getD (monthOfDays ms days).1 0 ∧
      (ms.take (monthOfDays ms days).1).sum + (monthOfDays ms days).2 = days := by
  induction ms generalizing days with
  | nil => exact absurd h (Nat.not_lt_zero _)
  | cons m ms ih =>
    rw [monthOfDays]
    split_ifs with hday
    · exact ⟨Nat.succ_pos _, hday, zero_add _⟩
    · rw [sum_cons] at h
      obtain ⟨hlen, hlt, hsum⟩ := @ih (days - m) (by omega)
      refine ⟨Nat.succ_lt_succ hlen, hlt, ?_⟩
      rw [take_succ_cons, sum_cons]
      omega

lemma monthLengths_take {y mon : ℕ} (h : mon < 12) :
    ((monthLengths y).take mon).sum = (daysPerMonth.take mon).sum +
      if 1 < mon ∧ isLeapyear y then 1 else 0 := by
  unfold monthLengths daysPerMonth
  cases isLeapyear y <;> interval_cases mon <;> rfl

lemma monthLengths_getD {y mon : ℕ} (h : mon < 12) :
    (monthLengths y).getD mon 0 = if mon = 1 ∧ isLeapyear y then 29
      else daysPerMonth.getD mon 0 := by
  unfold monthLengths daysPerMonth
  cases isLeapyear y <;> interval_cases mon <;> rfl

lemma sum_monthLengths (y : ℕ) : (monthLengths y).sum = yearLength y := by
  unfold monthLengths yearLength
  cases isLeapyear y <;> rfl

/-! ### Dates -/

section Dates

variable {t : ℕ}

/-- **The date of a time** is a date, and as many days after 1970 as the time. -/
lemma gmtime_spec (t : ℕ) : 1970 ≤ (gmtime t).year ∧ (gmtime t).mon < 12 ∧ 1 ≤ (gmtime t).mday ∧
    (gmtime t).mday ≤ (if (gmtime t).mon = 1 ∧ isLeapyear (gmtime t).year then 29
      else daysPerMonth.getD (gmtime t).mon 0) ∧
    daysBeforeYear (gmtime t).year + (daysPerMonth.take (gmtime t).mon).sum +
      (if 1 < (gmtime t).mon ∧ isLeapyear (gmtime t).year then 1 else 0) + ((gmtime t).mday - 1) =
        t / 86400 := by
  obtain ⟨hyear, hday, hdays⟩ := yearOfDays_spec (y := 1970) le_rfl (le_refl (t / 86400))
  have hzero : daysBeforeYear 1970 = 0 := by decide
  rw [hzero, zero_add] at hdays
  rw [← sum_monthLengths] at hday
  obtain ⟨hmon, hlt, hsum⟩ := monthOfDays_spec hday
  have hmon' : (monthOfDays (monthLengths (yearOfDays (t / 86400) 1970 (t / 86400)).1)
      (yearOfDays (t / 86400) 1970 (t / 86400)).2).1 < 12 := hmon
  rw [monthLengths_getD hmon'] at hlt
  rw [monthLengths_take hmon'] at hsum
  unfold gmtime
  dsimp only
  refine ⟨hyear, hmon', Nat.le_add_left 1 _, hlt, ?_⟩
  omega

lemma gmtime_mday (t : ℕ) : (gmtime t).mday ≤ 31 := by
  obtain ⟨-, hmon, -, hmdays, -⟩ := gmtime_spec t
  refine hmdays.trans ?_
  have hall : ∀ mon < 12, daysPerMonth.getD mon 0 ≤ 31 := by decide
  split_ifs
  · decide
  · exact hall _ hmon

lemma gmtime_day (t : ℕ) : (gmtime t).hour ≤ 23 ∧ (gmtime t).min ≤ 59 ∧ (gmtime t).sec ≤ 59 ∧
    ((gmtime t).hour * 60 + (gmtime t).min) * 60 + (gmtime t).sec = t % 86400 := by
  unfold gmtime
  dsimp only
  refine ⟨?_, ?_, ?_, ?_⟩ <;> omega

lemma isLeapyear_sub {y : ℕ} (h : 1970 ≤ y) (hleap : isLeapyear y = true) :
    isLeapyear (y - 1900) = true ↔ y % 400 ≠ 0 := by
  unfold isLeapyear at hleap ⊢
  simp only [Bool.and_eq_true, Bool.or_eq_true, decide_eq_true_eq] at hleap ⊢
  omega

/-- **The time of the date of a time** is the time, unless the reader takes the date for an invalid
one. -/
lemma torTimegm_gmtime (hyear : (gmtime t).year < 2 ^ 31 - 1) :
    torTimegm (gmtime t) = if (gmtime t).year % 400 = 0 ∧ (gmtime t).mon = 1 ∧
    (gmtime t).mday = 29 then
      none else some t := by
  obtain ⟨h1970, hmon, hmday, hmdays, hdays⟩ := gmtime_spec t
  obtain ⟨hhour, hmin, hsec, htime⟩ := gmtime_day t
  have hchecked : (gmtime t).mday ≤ checkedDaysPerMonth (gmtime t).year (gmtime t).mon ↔
      ¬ ((gmtime t).year % 400 = 0 ∧ (gmtime t).mon = 1 ∧ (gmtime t).mday = 29) := by
    unfold checkedDaysPerMonth
    by_cases hfeb : (gmtime t).mon = 1
    · simp only [hfeb, true_and] at hmdays ⊢
      have hfebDays : daysPerMonth.getD 1 0 = 28 := rfl
      rw [hfebDays] at hmdays ⊢
      by_cases hleap : isLeapyear (gmtime t).year = true
      · rw [if_pos hleap] at hmdays
        have hsub := isLeapyear_sub h1970 hleap
        by_cases h400 : (gmtime t).year % 400 = 0
        · rw [if_neg (fun h => hsub.mp h h400)]
          omega
        · rw [if_pos (hsub.mpr h400)]
          omega
      · rw [if_neg hleap] at hmdays
        refine iff_of_true ?_ (by omega)
        split_ifs <;> omega
    · simp only [hfeb, false_and, if_false, and_false, not_false_iff, iff_true] at hmdays ⊢
      exact hmdays
  unfold torTimegm
  by_cases hmissed : (gmtime t).year % 400 = 0 ∧ (gmtime t).mon = 1 ∧ (gmtime t).mday = 29
  · have hlt := hchecked.not.mpr (not_not.mpr hmissed)
    rw [if_pos hmissed, if_pos (by omega)]
  · have hle := hchecked.mpr hmissed
    rw [if_neg hmissed, if_neg (by omega)]
    refine congrArg some ?_
    unfold daysBeforeYear at hdays
    rw [hdays]
    omega

end Dates

/-! ### Reading dates -/

/-- A number is read from its digits, if no digit follows or no more may follow. -/
lemma scanUnsigned_append {width : ℕ} {digits s : DocText} (hne : digits ≠ [])
    (hdigits : ∀ c ∈ digits, c.isDigit = true) (hlen : digits.length ≤ width)
    (hnext : digits.length = width ∨ ∀ c ∈ s.head?, c.isDigit = false)
    (hvalue : digitsValue digits < 2 ^ 32) :
    scanUnsigned width (digits ++ s) = some (digitsValue digits, s) := by
  have hstop : (s.take (width - digits.length)).takeWhile Char.isDigit = [] := by
    rcases hnext with hfull | hnext
    · rw [hfull, Nat.sub_self, take_zero, takeWhile_nil]
    · cases s with
      | nil => simp
      | cons c s =>
        cases hrest : width - digits.length with
        | zero => rfl
        | succ n =>
          rw [take_succ_cons, takeWhile_cons_of_neg]
          rw [hnext c rfl]
          exact Bool.false_ne_true
  have hscan : ((digits ++ s).take width).takeWhile Char.isDigit = digits := by
    rw [take_append, take_of_length_le hlen,
      takeWhile_append_of_pos hdigits, hstop, append_nil]
  unfold scanUnsigned
  rw [hscan]
  dsimp only
  rw [if_neg (by rw [not_or]; exact ⟨hne, by omega⟩), drop_left]

lemma twoDigits_spec {n : ℕ} (h : n < 100) : (twoDigits n).length = 2 ∧
    (∀ c ∈ twoDigits n, c.isDigit = true) ∧ digitsValue (twoDigits n) = n := by
  have hdigit : ∀ d < 10, (Nat.digitChar d).isDigit = true ∧
      (Nat.digitChar d).toNat - '0'.toNat = d := by
    decide
  obtain ⟨htens, htensValue⟩ := hdigit (n / 10) (by omega)
  obtain ⟨hones, honesValue⟩ := hdigit (n % 10) (by omega)
  refine ⟨rfl, fun c hc => ?_, ?_⟩
  · rcases mem_pair.mp hc with rfl | rfl
    · exact htens
    · exact hones
  · have hvalue : digitsValue (twoDigits n) =
        (0 * 10 + ((Nat.digitChar (n / 10)).toNat - '0'.toNat)) * 10 +
          ((Nat.digitChar (n % 10)).toNat - '0'.toNat) := rfl
    rw [hvalue, htensValue, honesValue]
    omega

lemma scanUnsigned_twoDigits {n : ℕ} (h : n < 100) (s : DocText) :
    scanUnsigned 2 (twoDigits n ++ s) = some (n, s) := by
  obtain ⟨hlen, hdigits, hvalue⟩ := twoDigits_spec h
  rw [scanUnsigned_append (by simp [twoDigits]) hdigits hlen.le (.inl hlen) (by omega), hvalue]

lemma scanUnsigned_year {year : ℕ} (h : year ≤ 9999) (s : DocText) :
    scanUnsigned maxScanfWidth (Nat.toDigits 10 year ++ '-' :: s) = some (year, '-' :: s) := by
  have hlen : (Nat.toDigits 10 year).length ≤ maxScanfWidth :=
    (Nat.toDigits_length 10 year 4 (by decide) (by omega)).trans (by decide)
  rw [scanUnsigned_append Nat.toDigits_ne_nil (fun c hc => isDigit_of_mem_toDigits hc) hlen
    (.inr (by rintro c hc; obtain rfl := Option.some.inj hc; decide))
    (by rw [digitsValue_toDigits]; omega), digitsValue_toDigits]

/-- **A date is read from its text.** -/
lemma scanTm_formatTm {tm : Tm} (hyear : tm.year ≤ 9999) (hmon : tm.mon ≤ 11) (hmday : tm.mday ≤ 31)
    (hhour : tm.hour ≤ 23) (hmin : tm.min ≤ 59) (hsec : tm.sec ≤ 60) :
    scanTm (formatTm tm) = some tm := by
  have hsecond := scanUnsigned_twoDigits (n := tm.sec) (by omega) []
  rw [append_nil] at hsecond
  unfold scanTm formatTm formatDay formatClock
  simp only [append_assoc, cons_append, scanUnsigned_year hyear, bind_eq_bind, bind_some, scanChar,
    if_true, scanUnsigned_twoDigits (n := tm.mon + 1) (by omega),
    scanUnsigned_twoDigits (n := tm.mday) (by omega),
    scanUnsigned_twoDigits (n := tm.hour) (by omega),
    scanUnsigned_twoDigits (n := tm.min) (by omega), hsecond]
  rw [if_neg (by simp)]
  rfl

/-- **A time is read from its text** exactly if its year is not after 9999 and it is not on a leap
day that the reader misses. -/
def TimeReadable (t : ℕ) : Prop :=
  (gmtime t).year ≤ 9999 ∧ ¬ ((gmtime t).year % 400 = 0 ∧ (gmtime t).mon = 1 ∧ (gmtime t).mday = 29)

lemma parseIsoTime_formatTm {tm : Tm} (hyear : tm.year ≤ 9999) (hpast : 1970 ≤ tm.year)
    (hmon : tm.mon ≤ 11) (hmday : 1 ≤ tm.mday ∧ tm.mday ≤ 31) (hhour : tm.hour ≤ 23)
    (hmin : tm.min ≤ 59) (hsec : tm.sec ≤ 60) : parseIsoTime (formatTm tm) = torTimegm tm := by
  unfold parseIsoTime
  rw [scanTm_formatTm hyear hmon hmday.2 hhour hmin hsec]
  dsimp only
  rw [if_neg (by omega)]

/-- **The round trip of times.** -/
theorem parseIsoTime_formatIsoTime (t : ℕ) :
    parseIsoTime (formatIsoTime t) = some t ↔ TimeReadable t := by
  obtain ⟨h1970, hmon, hmday, -, hdays⟩ := gmtime_spec t
  obtain ⟨hhour, hmin, hsec, -⟩ := gmtime_day t
  have hmonth := gmtime_mday t
  unfold formatIsoTime torGmtime TimeReadable
  by_cases hyear : 9999 < (gmtime t).year
  · -- the text is that of the last second of the year 9999
    rw [if_pos hyear]
    refine iff_of_false (fun h => ?_) (by omega)
    rw [parseIsoTime_formatTm (by decide) (by decide) (by decide) (by decide) (by decide)
      (by decide)
      (by decide)] at h
    have hlast : torTimegm ⟨9999, 11, 31, 23, 59, 59⟩ = some 253402300799 := by decide
    rw [hlast] at h
    have ht := Option.some.inj h
    have hmono : daysBeforeYear 10000 ≤ daysBeforeYear (gmtime t).year :=
      daysBeforeYear_mono (by decide) hyear
    have h10000 : daysBeforeYear 10000 = 2932897 := by decide
    omega
  · rw [if_neg hyear, parseIsoTime_formatTm (by omega) h1970 (by omega) ⟨hmday, hmonth⟩ hhour hmin
      (by omega),
      torTimegm_gmtime (by omega)]
    split_ifs with hmissed
    · exact iff_of_false nofun fun h => h.2 hmissed
    · exact iff_of_true rfl ⟨by omega, hmissed⟩

end Astoria
