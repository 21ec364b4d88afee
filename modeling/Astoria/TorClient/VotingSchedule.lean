import Astoria.TorClient.Timegm

/-!
# The voting schedule

Authorities vote in intervals.  A day starts a fresh interval at midnight, and an interval at its
end that would last only half as long is rolled into the one before.  The start of the next interval
is shifted by an offset, and if the shifted start is more than an interval away, the start before it
is taken instead.

The last step takes the interval before to be as long as all others.  Authorities agree on the start
of an interval exactly if this is so where it matters, and midnight is found: the 29th of February
is not found in years that are multiples of 400 (`voting_schedule_agrees_iff`).
-/

namespace Astoria

open Gregorian

/-! ### The start of the next interval -/

/-- The broken-down time of a time in UTC (`tor_gmtime_r`).  The library function fails if the year
is no 32-bit integer. -/
def torGmtimeR (now : ℤ) : LocalTm :=
  let tm := localtime 0 now
  if -2 ^ 31 ≤ tm.tmYear ∧ tm.tmYear ≤ 2 ^ 31 - 1 then correctTm tm
  else if now < 0 then
    { tm with tmYear := 70, tmMon := 0, tmMday := 1, tmHour := 0, tmMin := 0, tmSec := 0 }
  else if 2 ^ 31 - 1 ≤ now then
    { tm with tmYear := 137, tmMon := 11, tmMday := 31, tmHour := 23, tmMin := 59, tmSec := 59 }
  else ⟨0, 0, 0, 0, 0, 0, 0⟩

/-- The start of the day of a broken-down time. -/
def LocalTm.startOfDay (tm : LocalTm) : LocalTm := { tm with tmHour := 0, tmMin := 0, tmSec := 0 }

/-- The midnight before a time, which is 0 if it cannot be found. -/
def midnightToday (now : ℤ) : ℤ :=
  (torTimegmInt (torGmtimeR now).startOfDay).getD 0

/-- The start of the next interval after a time, given the midnight before it. -/
def startAfterMidnight (midnight now interval offset : ℤ) : ℤ :=
  let midnightTomorrow := midnight + 24 * 60 * 60
  let next := midnight + ((now - midnight).tdiv interval + 1) * interval
  -- intervals never cross midnight
  let next := if midnightTomorrow < next then midnightTomorrow else next
  -- a short interval is left out
  let next := if midnightTomorrow < next + interval.tdiv 2 then midnightTomorrow else next
  let next := next + offset
  if now < next - interval then next - interval else next

/-- The start of the next interval after a time (`dirvote_get_start_of_next_interval`). -/
def dirvoteGetStartOfNextInterval (now interval offset : ℤ) : ℤ :=
  startAfterMidnight (midnightToday now) now interval offset

/-- The start of the next interval is later, and it is the same for all times before it. -/
def ScheduleAgrees (now interval offset : ℤ) : Prop :=
  now < dirvoteGetStartOfNextInterval now interval offset ∧
    ∀ now', now ≤ now' → now' < dirvoteGetStartOfNextInterval now interval offset →
      dirvoteGetStartOfNextInterval now' interval offset =
        dirvoteGetStartOfNextInterval now interval offset

/-! ### Midnight -/

section Midnight

variable {now : ℤ}

/-- The first second after the year 9999. -/
def endOfCalendar : ℤ := 253402300800

/-- A day is the 29th of February of a year that is a multiple of 400. -/
def Misjudged (day : ℤ) : Prop := day % 146097 = 11016

lemma tmYear_nonneg (h : 0 ≤ now) : 70 ≤ (localtime 0 now).tmYear := by
  have hmono : monthOfDay 0 ≤ monthOfDay ((now + 0) / 86400) := monthOfDay_mono (by omega)
  have hzero : monthOfDay 0 = 12 * 1970 := monthOfDay_eq (by decide) (by decide)
  unfold localtime
  dsimp only
  omega

lemma tmYear_neg (h : now < 0) : (localtime 0 now).tmYear < 70 := by
  have hmono : monthOfDay ((now + 0) / 86400) ≤ monthOfDay (-1) := monthOfDay_mono (by omega)
  have hlast : monthOfDay (-1) = 12 * 1970 - 1 := monthOfDay_eq (by decide) (by decide)
  unfold localtime
  dsimp only
  omega

lemma tmYear_le (h : now < endOfCalendar) : (localtime 0 now).tmYear ≤ 8099 := by
  unfold endOfCalendar at h
  have hmono : monthOfDay ((now + 0) / 86400) ≤ monthOfDay 2932896 := monthOfDay_mono (by omega)
  have hlast : monthOfDay 2932896 = 12 * 10000 - 1 := monthOfDay_eq (by decide) (by decide)
  unfold localtime
  dsimp only
  omega

lemma lt_tmYear (h : endOfCalendar ≤ now) : 8099 < (localtime 0 now).tmYear := by
  unfold endOfCalendar at h
  have hmono : monthOfDay 2932897 ≤ monthOfDay ((now + 0) / 86400) := monthOfDay_mono (by omega)
  have hfirst : monthOfDay 2932897 = 12 * 10000 := monthOfDay_eq (by decide) (by decide)
  unfold localtime
  dsimp only
  omega

lemma tmYear_le_of_lt (h : now < endOfCalendar + 86400) : (localtime 0 now).tmYear ≤ 8100 := by
  unfold endOfCalendar at h
  have hmono : monthOfDay ((now + 0) / 86400) ≤ monthOfDay 2932897 := monthOfDay_mono (by omega)
  have hlast : monthOfDay 2932897 = 12 * 10000 := monthOfDay_eq (by decide) (by decide)
  unfold localtime
  dsimp only
  omega

lemma monthStart_february (y : ℤ) : monthStart (12 * y + 1) = yearStart y + 31 := by
  have hyear : (12 * y + 1) / 12 = y := by omega
  have hmonth : ((12 * y + 1) % 12).toNat = 1 := by omega
  unfold monthStart
  rw [hyear, hmonth]
  rfl

lemma monthLength_february {y : ℤ} (hy : y % 400 = 0) : monthLength (12 * y + 1) = 29 := by
  have hyear : (12 * y + 1) / 12 = y := by omega
  have hmonth : ((12 * y + 1) % 12).toNat = 1 := by omega
  have hleap : IsLeap y := ⟨by omega, .inr hy⟩
  unfold monthLength Gregorian.monthLengths
  rw [hyear, hmonth, if_pos hleap]
  rfl

lemma misjudged_iff (day : ℤ) : Misjudged day ↔ ∃ y, y % 400 = 0 ∧ day = monthStart
    (12 * y + 1) + 28 := by
  simp only [monthStart_february]
  unfold Misjudged yearStart
  constructor
  · intro h
    exact ⟨2000 + 400 * (day / 146097), by omega, by omega⟩
  · rintro ⟨y, hy, rfl⟩
    omega

/-- The 29th of February of a year that is a multiple of 400, as a broken-down time. -/
lemma misjudged_localtime_iff (now : ℤ) : Misjudged (now / 86400) ↔
    (localtime 0 now).tmMon = 1 ∧ (localtime 0 now).tmMday = 29 ∧
    ((localtime 0 now).tmYear + 1900) % 400 = 0 := by
  have hday := day_localtime 0 now
  have hmonth : (localtime 0 now).month = monthOfDay (now / 86400) := by
    rw [month_localtime, add_zero]
  rw [add_zero] at hday
  rw [misjudged_iff]
  constructor
  · rintro ⟨y, hy, hstart⟩
    have hmonth' : monthOfDay (now / 86400) = 12 * y + 1 := by
      refine monthOfDay_eq (by omega) ?_
      rw [monthStart_succ]
      have hlen := monthLength_february hy
      omega
    unfold LocalTm.day at hday
    rw [hmonth, hmonth'] at hday
    rw [hmonth'] at hmonth
    unfold LocalTm.month at hmonth
    have hmon : 0 ≤ (localtime 0 now).tmMon ∧ (localtime 0 now).tmMon ≤ 11 := by
      unfold localtime
      dsimp only
      omega
    omega
  · rintro ⟨hmon, hmday, hyear⟩
    refine ⟨(localtime 0 now).tmYear + 1900, hyear, ?_⟩
    unfold LocalTm.day LocalTm.month at hday
    rw [hmon] at hday
    omega

lemma torTimegmInt_of_lt {tm : LocalTm} (h : tm.tmYear < 70) : torTimegmInt tm = none := by
  have hinvalid : (decide (tm.tmYear + 1900 < 1970) || decide (2 ^ 31 - 1 - 1900 ≤ tm.tmYear)) =
      true := by
    rw [Bool.or_eq_true, decide_eq_true_eq, decide_eq_true_eq]
    omega
  have hsmall : tm.tmYear < 2 ^ 31 - 1 - 1900 := by omega
  unfold torTimegmInt
  dsimp only
  rw [if_pos hsmall, if_pos (.inl hinvalid)]

lemma torTimegmInt_startOfDay (tm : LocalTm) :
    torTimegmInt tm.startOfDay = torTimegmInt ⟨tm.tmYear, tm.tmMon, tm.tmMday, 0, 0, 0, 0⟩ := rfl

/-- Before 1970, midnight is not found. -/
lemma midnightToday_of_neg (h : now < 0) : midnightToday now = 0 := by
  have hyear := tmYear_neg h
  have hfirst : torTimegmInt ⟨70, 0, 1, 0, 0, 0, 0⟩ = some 0 := by decide
  unfold midnightToday
  rw [torTimegmInt_startOfDay]
  unfold torGmtimeR
  dsimp only
  split_ifs
  · rw [torTimegmInt_of_lt]
    · rfl
    · unfold correctTm
      split_ifs <;> dsimp only <;> omega
  · rw [hfirst]
    rfl

lemma dateOk_localtime (now : ℤ) : (localtime 0 now).DateOk := by
  obtain ⟨hstart, hend⟩ := monthOfDay_spec ((now + 0) / 86400)
  rw [monthStart_succ] at hend
  unfold LocalTm.DateOk
  rw [month_localtime]
  unfold localtime
  dsimp only
  omega

/-- **Midnight is found** from 1970 on up to the year 9999, unless the day is misjudged. -/
lemma midnightToday_of_lt (h : 0 ≤ now) (hlt : now < endOfCalendar) :
    midnightToday now = if now / 86400 % 146097 = 11016 then 0 else now - now % 86400 := by
  have hyear : 70 ≤ (localtime 0 now).startOfDay.tmYear := tmYear_nonneg h
  have hyear' : (localtime 0 now).startOfDay.tmYear ≤ 8099 := tmYear_le hlt
  obtain ⟨hmon, hmon', hmday, hlen⟩ := dateOk_localtime now
  have hcorrect : correctTm (localtime 0 now) = localtime 0 now :=
    torLocaltime_of_inCalendar ⟨le_trans (by decide) hyear, hyear'⟩
  have hday := day_localtime 0 now
  have hmisjudged := misjudged_localtime_iff now
  have hdpm := dpm_iff hmon hmon'
  have hfeb := monthLength_month hmon hmon'
  unfold Misjudged at hmisjudged
  unfold midnightToday torGmtimeR
  dsimp only
  rw [if_pos ⟨le_trans (by decide) hyear, le_trans hyear' (by decide)⟩, hcorrect]
  by_cases hmis : now / 86400 % 146097 = 11016
  · have hrejected : ¬ (localtime 0 now).startOfDay.Accepted := by
      intro haccepted
      have hle : (localtime 0 now).tmMday ≤ dpm (localtime 0 now) false := haccepted.2.2.2.2.1
      obtain ⟨hfeb, h29, h400⟩ := hmisjudged.mp hmis
      exact hdpm.mp (iff_of_true hle hlen) ⟨hfeb, h29, .inl h400⟩
    rw [if_pos hmis, torTimegmInt_of_not_accepted hyear hrejected]
    rfl
  · have hle : (localtime 0 now).tmMday ≤ dpm (localtime 0 now) false := by
      refine (hdpm.mpr ?_).mpr hlen
      rintro ⟨hfeb, h29, h400 | h300⟩
      · exact hmis (hmisjudged.mpr ⟨hfeb, h29, h400⟩)
      · -- there is no such day
        rw [monthLength_month hmon hmon', if_neg] at hlen
        · rw [hfeb, h29] at hlen
          exact absurd hlen (by decide)
        · unfold IsLeap
          omega
    have haccepted : (localtime 0 now).startOfDay.Accepted := by
      refine ⟨?_, hmon, hmon', hmday, hle, ?_⟩
      · omega
      · unfold LocalTm.ClockOk LocalTm.startOfDay
        dsimp only
        decide
    have hseconds : (localtime 0 now).startOfDay.seconds =
        ((((localtime 0 now).day * 24 + 0) * 60 + 0) * 60 + 0 : ℤ) :=
      rfl
    rw [if_neg hmis, torTimegmInt_of_accepted hyear haccepted, hseconds, hday, Option.getD_some]
    omega

/-- Times after the year 9999 have the midnight of its last day, or an earlier one if they are much
later. -/
lemma midnightToday_of_le (h : endOfCalendar ≤ now) :
    midnightToday now = endOfCalendar - 86400 ∨
      endOfCalendar + 86400 ≤ now ∧ midnightToday now + 86400 ≤ endOfCalendar := by
  have hyear := lt_tmYear h
  have hlast : torTimegmInt ⟨8099, 11, 31, 0, 0, 0, 0⟩ = some (endOfCalendar - 86400) := by decide
  have h2037 : torTimegmInt ⟨137, 11, 31, 0, 0, 0, 0⟩ = some 2145830400 := by decide
  unfold midnightToday
  rw [torTimegmInt_startOfDay]
  unfold torGmtimeR
  dsimp only
  by_cases hint : -2 ^ 31 ≤ (localtime 0 now).tmYear ∧ (localtime 0 now).tmYear ≤ 2 ^ 31 - 1
  · left
    unfold correctTm
    rw [if_pos hint, if_pos hyear, hlast]
    rfl
  · right
    have hle : endOfCalendar + 86400 ≤ now := by
      by_contra hlt
      have hyear' := tmYear_le_of_lt (not_le.mp hlt)
      omega
    unfold endOfCalendar at h
    refine ⟨hle, ?_⟩
    rw [if_neg hint, if_neg (by omega), if_pos (by omega), h2037]
    decide

end Midnight

/-! ### Slots -/

section Slots

variable {interval offset x x' : ℤ}

/-- The multiple of the interval up to a time. -/
def slotStart (interval x : ℤ) : ℤ := x - x % interval

lemma slotStart_bounds (hinterval : 0 < interval) (x : ℤ) :
    slotStart interval x ≤ x ∧ x < slotStart interval x + interval := by
  have hnonneg := Int.emod_nonneg x hinterval.ne'
  have hlt := Int.emod_lt_of_pos x hinterval
  unfold slotStart
  omega

lemma dvd_slotStart (interval x : ℤ) : interval ∣ slotStart interval x := Int.dvd_self_sub_emod

lemma slotStart_eq {p : ℤ} (hdvd : interval ∣ p) (hle : p ≤ x) (hlt : x < p + interval) :
    slotStart interval x = p := by
  obtain ⟨k, rfl⟩ := hdvd
  have hmod : x % interval = x - interval * k := by
    have hx : x = (x - interval * k) + interval * k := by omega
    conv_lhs => rw [hx, Int.add_mul_emod_self_left]
    exact Int.emod_eq_of_lt (by omega) (by omega)
  unfold slotStart
  omega

lemma le_of_dvd_of_lt {p q : ℤ} (hp : interval ∣ p) (hq : interval ∣ q) (hlt : p < q) :
    p + interval ≤ q := by
  have hle := Int.le_of_dvd (by omega) (Int.dvd_sub hq hp)
  omega

lemma slotStart_mono (hinterval : 0 < interval) (h : x ≤ x') :
    slotStart interval x ≤ slotStart interval x' := by
  by_contra hlt
  have hstep :=
    le_of_dvd_of_lt (dvd_slotStart interval x') (dvd_slotStart interval x) (not_le.mp hlt)
  have hx := slotStart_bounds hinterval x
  have hx' := slotStart_bounds hinterval x'
  omega

lemma slotStart_nonneg (hinterval : 0 < interval) (h : 0 ≤ x) : 0 ≤ slotStart interval x := by
  have hzero : slotStart interval 0 = 0 := slotStart_eq (dvd_zero interval) le_rfl (by omega)
  exact hzero ▸ slotStart_mono hinterval h

/-- The start of the interval after a time in a slot, where a short slot at the end of the day is
left out. -/
def startOfSlot (interval offset p x : ℤ) : ℤ :=
  let slotEnd := if 86400 < p + interval + interval / 2 then 86400 else p + interval
  if x < slotEnd + offset - interval then slotEnd + offset - interval else slotEnd + offset

lemma startAfterMidnight_eq_startOfSlot (hinterval : 0 < interval) {midnight now p : ℤ}
    (hp : ((now - midnight).tdiv interval + 1) * interval = p + interval) :
    startAfterMidnight midnight now interval offset = midnight + startOfSlot interval offset p
      (now - midnight) := by
  have hhalf : interval.tdiv 2 = interval / 2 := Int.tdiv_eq_ediv_of_nonneg hinterval.le
  unfold startAfterMidnight startOfSlot
  rw [hp, hhalf]
  dsimp only
  split_ifs <;> omega

lemma tdiv_mul_eq (h : 0 ≤ x) :
    (x.tdiv interval + 1) * interval = slotStart interval x + interval := by
  have hdiv := Int.mul_ediv_add_emod x interval
  unfold slotStart
  rw [Int.tdiv_eq_ediv_of_nonneg h]
  linarith

lemma tdiv_mul_eq_neg (h : x < 0) : (x.tdiv interval + 1) * interval = -slotStart interval
    (-x) + interval := by
  have hneg : ((-x).tdiv interval + 1) * interval = slotStart interval (-x) + interval :=
    tdiv_mul_eq (by omega)
  rw [Int.neg_tdiv] at hneg
  linarith

/-- The start of the interval after a time of day. -/
def startInDay (interval offset x : ℤ) : ℤ := startOfSlot interval offset (slotStart interval x) x

/-- **The start is the same** for the times of a day before it, unless the last slots of the day
differ in their lengths. -/
lemma startInDay_eq (hinterval : 0 < interval) (hoffset : 0 ≤ offset) (hlt : offset < interval)
    (hx : 0 ≤ x) (hxx' : x ≤ x') (hx' : x' < 86400) (hstart : x' < startInDay interval offset x)
    (haligned : offset ≠ 0 →
      ¬ (¬ interval ∣ 86400 ∧ slotStart interval x + interval + interval / 2 ≤ 86400 ∧
      86400 < slotStart interval x + 2 * interval + interval / 2 ∧
      offset ≤ x - slotStart interval x)) :
    startInDay interval offset x' = startInDay interval offset x := by
  have hbounds := slotStart_bounds hinterval x
  have hbounds' := slotStart_bounds hinterval x'
  have hdvd := dvd_slotStart interval x
  have hdvd' := dvd_slotStart interval x'
  have hnonneg := slotStart_nonneg hinterval hx
  have hmono := slotStart_mono hinterval hxx'
  have hnext :=
    le_of_dvd_of_lt (q := slotStart interval x') (Int.dvd_add hdvd (dvd_refl interval)) hdvd'
  have hthis := le_of_dvd_of_lt hdvd hdvd'
  have hday {q : ℤ} (hq : interval ∣ q) (h : interval ∣ 86400) (hlt : q < 86400) :
      q + interval ≤ 86400 :=
    le_of_dvd_of_lt hq h hlt
  have hend := Int.dvd_add hdvd (dvd_refl interval)
  have hend' := Int.dvd_add hdvd' (dvd_refl interval)
  unfold startInDay startOfSlot at hstart ⊢
  generalize slotStart interval x = p at *
  generalize slotStart interval x' = p' at *
  by_cases hinter : interval ∣ 86400
  · have h1 := hday hdvd hinter
    have h2 := hday hdvd' hinter
    have h3 := hday hend hinter
    have h4 := hday hend' hinter
    clear hday haligned hdvd hdvd'
    dsimp only at hstart ⊢
    split_ifs at hstart ⊢ <;> omega
  · have h1 := haligned
    simp only [hinter, not_false_iff, true_and] at h1
    clear hday haligned hdvd hdvd'
    dsimp only at hstart ⊢
    split_ifs at hstart ⊢ <;> omega

lemma lt_startInDay (hinterval : 0 < interval) (hoffset : 0 ≤ offset) (hx : x < 86400) :
    x < startInDay interval offset x := by
  have hbounds := slotStart_bounds hinterval x
  unfold startInDay startOfSlot
  dsimp only
  split_ifs <;> omega

lemma startInDay_of_lt_offset (hlt : offset < interval) (hinterval : interval ≤ 86400) (hx : 0 ≤ x)
    (hxo : x < offset) : startInDay interval offset x =
      if 86400 < interval + interval / 2 then 86400 + offset - interval else offset := by
  have hslot : slotStart interval x = 0 := slotStart_eq (dvd_zero interval) hx (by omega)
  unfold startInDay startOfSlot
  rw [hslot, zero_add]
  dsimp only
  split_ifs <;> omega

/-- A start on the next day is the first one there, unless the last slots of the day differ in their
lengths. -/
lemma startInDay_of_gt (hinterval : 0 < interval) (hlt : offset < interval) (hoffset : 0 ≤ offset)
    (hx : 0 ≤ x) (hstart : 86400 < startInDay interval offset x)
    (haligned : offset ≠ 0 →
      ¬ (¬ interval ∣ 86400 ∧ slotStart interval x + interval + interval / 2 ≤ 86400 ∧
      86400 < slotStart interval x + 2 * interval + interval / 2 ∧
      offset ≤ x - slotStart interval x)) :
    offset ≠ 0 ∧ 86400 < slotStart interval x + interval + interval / 2 ∧
    86400 + offset - interval ≤ x ∧
      startInDay interval offset x = 86400 + offset := by
  have hbounds := slotStart_bounds hinterval x
  have hdvd := dvd_slotStart interval x
  have hend := Int.dvd_add hdvd (dvd_refl interval)
  have hnonneg := slotStart_nonneg hinterval hx
  unfold startInDay startOfSlot at hstart ⊢
  generalize slotStart interval x = p at *
  by_cases hinter : interval ∣ 86400
  · have h1 : p + interval < 86400 → p + interval + interval ≤ 86400 := le_of_dvd_of_lt hend hinter
    clear haligned
    dsimp only at hstart ⊢
    split_ifs at hstart ⊢ <;> omega
  · have h1 := haligned
    simp only [hinter, not_false_iff, true_and] at h1
    clear haligned
    dsimp only at hstart ⊢
    split_ifs at hstart ⊢ <;> omega

end Slots

/-! ### The days -/

section Days

variable {interval offset now : ℤ}

section

variable (hinterval : 0 < interval)

include hinterval

/-- **The start on a day** from 1970 on up to the year 9999 that is not misjudged. -/
lemma dirvoteGetStart_of_day (h : 0 ≤ now) (hlt : now < endOfCalendar)
    (hday : ¬ Misjudged (now / 86400)) :
    dirvoteGetStartOfNextInterval now interval offset =
      now - now % 86400 + startInDay interval offset (now % 86400) := by
  have hrest : now - (now - now % 86400) = now % 86400 := by omega
  unfold Misjudged at hday
  unfold dirvoteGetStartOfNextInterval
  rw [midnightToday_of_lt h hlt, if_neg hday,
    startAfterMidnight_eq_startOfSlot hinterval (tdiv_mul_eq (by omega)), hrest]
  rfl

lemma dirvoteGetStart_of_neg (h : now < 0) : dirvoteGetStartOfNextInterval now interval offset =
      startOfSlot interval offset (-slotStart interval (-now)) now := by
  unfold dirvoteGetStartOfNextInterval
  rw [midnightToday_of_neg h,
    startAfterMidnight_eq_startOfSlot hinterval (tdiv_mul_eq_neg (by omega)), sub_zero,
    zero_add]

lemma startAfterMidnight_late (hoffset : offset < interval) {midnight : ℤ}
    (h : midnight + 86400 ≤ now) :
    startAfterMidnight midnight now interval offset = midnight + 86400 + offset := by
  have hbounds := slotStart_bounds hinterval (now - midnight)
  rw [startAfterMidnight_eq_startOfSlot hinterval (tdiv_mul_eq (by omega))]
  unfold startOfSlot
  dsimp only
  split_ifs <;> omega

lemma dirvoteGetStart_of_misjudged (hoffset : offset < interval) (h : 0 ≤ now)
    (hlt : now < endOfCalendar) (hday : Misjudged (now / 86400)) :
    dirvoteGetStartOfNextInterval now interval offset = 86400 + offset := by
  unfold Misjudged at hday
  unfold dirvoteGetStartOfNextInterval
  rw [midnightToday_of_lt h hlt, if_pos hday, startAfterMidnight_late hinterval hoffset (by omega),
    zero_add]

lemma dirvoteGetStart_of_le (hoffset : offset < interval) (h : endOfCalendar ≤ now) :
    dirvoteGetStartOfNextInterval now interval offset = endOfCalendar + offset ∨
      endOfCalendar + 86400 ≤ now ∧
        dirvoteGetStartOfNextInterval now interval offset ≤ endOfCalendar + offset := by
  unfold dirvoteGetStartOfNextInterval
  rcases midnightToday_of_le h with hmidnight | ⟨hlate, hmidnight⟩
  · left
    rw [hmidnight, startAfterMidnight_late hinterval hoffset (by omega)]
    omega
  · right
    rw [startAfterMidnight_late hinterval hoffset (by omega)]
    exact ⟨hlate, by omega⟩

end

/-- The times at which authorities may not agree on the start of the next interval.

Before 1970, intervals are counted from 1970 in both directions, and after the year 9999 all days
are taken for the last one.  In between it is one of these: the day is misjudged; the interval does
not divide the day, and a time in the last slot but one is past the offset; or the next interval
starts on the next day after the offset there, and that day is misjudged or has one interval
only. -/
def Misaligned (now interval offset : ℤ) : Prop :=
  if now < 0 then
    2 ≤ offset ∧ now ≤ -interval ∨ offset = 0 ∧ now = -interval ∧ 86400 < interval + interval / 2 ∧
      interval ≠ 86400
  else if endOfCalendar ≤ now then endOfCalendar + offset ≤ now
  else
    let x := now % 86400
    Misjudged (now / 86400) ∨ offset ≠ 0 ∧
      ((¬ interval ∣ 86400 ∧ slotStart interval x + interval + interval / 2 ≤ 86400 ∧
        86400 < slotStart interval x + 2 * interval + interval / 2 ∧
        offset ≤ x - slotStart interval x) ∨
      (86400 < slotStart interval x + interval + interval / 2 ∧ 86400 + offset - interval ≤ x ∧
        (Misjudged (now / 86400 + 1) ∨
          86400 < interval + interval / 2 ∧ interval ≠ 86400 ∧ now < endOfCalendar - 86400)))

variable (hinterval : 0 < interval)

include hinterval

lemma neg_slot_facts {x : ℤ} (h : x < 0) :
    interval ∣ -slotStart interval (-x) ∧ -slotStart interval (-x) - interval < x ∧
      x ≤ -slotStart interval (-x) ∧ -slotStart interval (-x) ≤ 0 := by
  have hbounds := slotStart_bounds hinterval (-x)
  have hnonneg := slotStart_nonneg hinterval (x := -x) (by omega)
  exact ⟨(Int.dvd_neg).mpr (dvd_slotStart interval (-x)), by omega, by omega, by omega⟩

variable (hday : interval ≤ 86400) (hoffset : 0 ≤ offset) (hlt : offset < interval)

include hday hoffset hlt

/-- **Before 1970**, authorities agree unless the time is misaligned. -/
lemma scheduleAgrees_of_neg (h : now < 0) (haligned : ¬ Misaligned now interval offset) :
    ScheduleAgrees now interval offset := by
  unfold Misaligned at haligned
  rw [if_pos h] at haligned
  unfold ScheduleAgrees
  rw [dirvoteGetStart_of_neg hinterval h]
  obtain ⟨hdvd, hlow, hhigh, hnonpos⟩ := neg_slot_facts hinterval h
  have hzero := le_of_dvd_of_lt hdvd (dvd_zero interval)
  have hzero' := le_of_dvd_of_lt (Int.dvd_add hdvd (dvd_refl interval)) (dvd_zero interval)
  constructor
  · unfold startOfSlot
    dsimp only
    split_ifs <;> omega
  · intro now' hle hstart
    by_cases hneg : now' < 0
    · rw [dirvoteGetStart_of_neg hinterval hneg]
      obtain ⟨hdvd', hlow', hhigh', hnonpos'⟩ := neg_slot_facts hinterval hneg
      have hmono := neg_le_neg (slotStart_mono hinterval (neg_le_neg hle))
      have hnext := le_of_dvd_of_lt hdvd hdvd'
      have hnext' := le_of_dvd_of_lt (Int.dvd_add hdvd (dvd_refl interval)) hdvd'
      have hend := le_of_dvd_of_lt hdvd' (dvd_zero interval)
      generalize -slotStart interval (-now') = p' at *
      generalize -slotStart interval (-now) = p at *
      clear hdvd hdvd'
      unfold startOfSlot at hstart ⊢
      dsimp only at hstart ⊢
      split_ifs at hstart ⊢ <;> omega
    · -- the start is on the first day of 1970
      have hsmall : now' < 86400 := by
        unfold startOfSlot at hstart
        dsimp only at hstart
        split_ifs at hstart <;> omega
      have hmod : now' % 86400 = now' := by omega
      have hfirst : ¬ Misjudged (now' / 86400) := by
        unfold Misjudged
        omega
      have hcalendar : now' < endOfCalendar := by
        unfold endOfCalendar
        omega
      rw [dirvoteGetStart_of_day hinterval (not_lt.mp hneg) hcalendar hfirst, hmod, sub_self,
        zero_add]
      have hbounds := slotStart_bounds hinterval now'
      have hnonneg := slotStart_nonneg hinterval (not_lt.mp hneg)
      have hslot := le_of_dvd_of_lt (dvd_zero interval) (dvd_slotStart interval now')
      unfold startInDay
      generalize slotStart interval now' = p' at *
      generalize -slotStart interval (-now) = p at *
      clear hdvd
      unfold startOfSlot at hstart ⊢
      dsimp only at hstart ⊢
      split_ifs at hstart ⊢ <;> omega

/-- **Before 1970**, authorities do not agree if the time is misaligned. -/
lemma not_scheduleAgrees_of_neg (h : now < 0) (hmisaligned : Misaligned now interval offset) :
    ¬ ScheduleAgrees now interval offset := by
  unfold Misaligned at hmisaligned
  rw [if_pos h] at hmisaligned
  obtain ⟨hdvd, hlow, hhigh, hnonpos⟩ := neg_slot_facts hinterval h
  have hzero := le_of_dvd_of_lt hdvd (dvd_zero interval)
  -- the first time of the next slot
  have hneg : -slotStart interval (-now) + 1 < 0 := by omega
  obtain ⟨hdvd', hlow', hhigh', hnonpos'⟩ := neg_slot_facts hinterval hneg
  have hnext := le_of_dvd_of_lt hdvd hdvd'
  have hend := le_of_dvd_of_lt hdvd' (dvd_zero interval)
  rintro ⟨-, hsame⟩
  have hagree := hsame (-slotStart interval (-now) + 1)
  rw [dirvoteGetStart_of_neg hinterval h, dirvoteGetStart_of_neg hinterval hneg] at hagree
  generalize -slotStart interval (-(-slotStart interval (-now) + 1)) = p' at *
  generalize -slotStart interval (-now) = p at *
  clear hdvd hdvd'
  unfold startOfSlot at hagree
  dsimp only at hagree
  split_ifs at hagree <;> omega

/-- **From 1970 on up to the year 9999**, authorities agree unless the time is misaligned. -/
lemma scheduleAgrees_of_day (h : 0 ≤ now) (hcalendar : now < endOfCalendar)
    (haligned : ¬ Misaligned now interval offset) : ScheduleAgrees now interval offset := by
  unfold Misaligned at haligned
  rw [if_neg (not_lt.mpr h), if_neg (not_le.mpr hcalendar)] at haligned
  obtain ⟨hjudged, hslots⟩ := not_or.mp haligned
  have hslots' (hne : offset ≠ 0) := not_or.mp (not_and.mp hslots hne)
  have hx : 0 ≤ now % 86400 ∧ now % 86400 < 86400 := by omega
  unfold ScheduleAgrees
  rw [dirvoteGetStart_of_day hinterval h hcalendar hjudged]
  have hlater := lt_startInDay hinterval hoffset hx.2
  refine ⟨by omega, fun now' hle hstart => ?_⟩
  by_cases hsame : now' / 86400 = now / 86400
  · have hcalendar' : now' < endOfCalendar := by
      unfold endOfCalendar at hcalendar ⊢
      omega
    rw [dirvoteGetStart_of_day hinterval (h.trans hle) hcalendar' (hsame ▸ hjudged),
      startInDay_eq hinterval hoffset hlt hx.1 (by omega : now % 86400 ≤ now' % 86400) (by omega)
        (by omega)
        fun hne => (hslots' hne).1]
    omega
  · -- the start is on the next day
    obtain ⟨hne, hroll, hlast, heq⟩ := startInDay_of_gt hinterval hlt hoffset hx.1 (by omega)
      fun hne => (hslots' hne).1
    have hnext := not_and.mp (not_and.mp (hslots' hne).2 hroll) hlast
    rw [heq] at hstart ⊢
    have hdays : now' / 86400 = now / 86400 + 1 := by omega
    by_cases hcalendar' : now' < endOfCalendar
    · have hjudged' : ¬ Misjudged (now' / 86400) := by
        rw [hdays]
        exact fun hmis => hnext (.inl hmis)
      have hone : 86400 < interval + interval / 2 → interval = 86400 := by
        intro hroll
        by_contra hne
        refine hnext (.inr ⟨hroll, hne, ?_⟩)
        unfold endOfCalendar at hcalendar' ⊢
        omega
      rw [dirvoteGetStart_of_day hinterval (h.trans hle) hcalendar' hjudged',
        startInDay_of_lt_offset hlt hday (by omega) (by omega)]
      split_ifs <;> omega
    · unfold endOfCalendar at hcalendar
      rcases dirvoteGetStart_of_le hinterval hlt (not_lt.mp hcalendar') with hend | ⟨hlate, -⟩
      · rw [hend]
        unfold endOfCalendar at hcalendar' ⊢
        omega
      · unfold endOfCalendar at hlate
        omega

/-- **From 1970 on up to the year 9999**, authorities do not agree if the time is misaligned. -/
lemma not_scheduleAgrees_of_day (h : 0 ≤ now) (hcalendar : now < endOfCalendar)
    (hmisaligned : Misaligned now interval offset) : ¬ ScheduleAgrees now interval offset := by
  unfold Misaligned at hmisaligned
  rw [if_neg (not_lt.mpr h), if_neg (not_le.mpr hcalendar)] at hmisaligned
  have hx : 0 ≤ now % 86400 ∧ now % 86400 < 86400 := by omega
  rintro ⟨hlater, hsame⟩
  by_cases hjudged : Misjudged (now / 86400)
  · rw [dirvoteGetStart_of_misjudged hinterval hlt h hcalendar hjudged] at hlater
    unfold Misjudged at hjudged
    omega
  · rw [dirvoteGetStart_of_day hinterval h hcalendar hjudged] at hsame
    obtain ⟨hne, ⟨hdvd, hlow, hhigh, hpast⟩ | ⟨hroll, hlast, hnext⟩⟩ :=
      (or_iff_right hjudged).mp hmisaligned
    · -- the start of the last slot is taken for the start, and there it is not
      have hbounds := slotStart_bounds hinterval (now % 86400)
      have hnonneg := slotStart_nonneg hinterval hx.1
      have hend := Int.dvd_add (dvd_slotStart interval (now % 86400)) (dvd_refl interval)
      have hslot := slotStart_eq hend le_rfl (by omega)
      have hone : slotStart interval (now % 86400) + interval ≠ 86400 := fun h => hdvd (h ▸ hend)
      have htwo : slotStart interval (now % 86400) + interval + interval ≠ 86400 :=
        fun h => hdvd (h ▸ Int.dvd_add hend (dvd_refl interval))
      have hagree := hsame (now - now % 86400 + (slotStart interval (now % 86400) + interval))
      have hmod : (now - now % 86400 + (slotStart interval (now % 86400) + interval)) % 86400 =
          slotStart interval (now % 86400) + interval := by omega
      have hdiv : (now - now % 86400 + (slotStart interval (now % 86400) + interval)) / 86400 =
          now / 86400 := by
        omega
      have hcalendar' : now - now % 86400 + (slotStart interval (now % 86400) + interval) <
          endOfCalendar := by
        unfold endOfCalendar at hcalendar ⊢
        omega
      rw [dirvoteGetStart_of_day hinterval (by omega) hcalendar' (hdiv ▸ hjudged), hmod] at hagree
      unfold startInDay at hagree
      rw [hslot] at hagree
      generalize slotStart interval (now % 86400) = p at *
      unfold startOfSlot at hagree
      dsimp only at hagree
      split_ifs at hagree <;> omega
    · -- at midnight, the start is another one
      have heq : startInDay interval offset (now % 86400) = 86400 + offset := by
        have hbounds := slotStart_bounds hinterval (now % 86400)
        unfold startInDay startOfSlot
        dsimp only
        split_ifs <;> omega
      have hagree := hsame (now - now % 86400 + 86400)
      rw [heq] at hagree
      have hmod : (now - now % 86400 + 86400) % 86400 = 0 := by omega
      have hdiv : (now - now % 86400 + 86400) / 86400 = now / 86400 + 1 := by omega
      by_cases hjudged' : Misjudged (now / 86400 + 1)
      · have hcalendar' : now - now % 86400 + 86400 < endOfCalendar := by
          unfold endOfCalendar at hcalendar ⊢
          unfold Misjudged at hjudged'
          omega
        rw [dirvoteGetStart_of_misjudged hinterval hlt (by omega) hcalendar'
          (hdiv ▸ hjudged')] at hagree
        unfold Misjudged at hjudged'
        omega
      · obtain ⟨hone, hne', hcalendar'⟩ := (or_iff_right hjudged').mp hnext
        rw [dirvoteGetStart_of_day hinterval (by omega) (by omega) (hdiv ▸ hjudged'), hmod,
          startInDay_of_lt_offset hlt hday le_rfl (by omega), if_pos hone] at hagree
        omega

/-- **After the year 9999**, authorities agree up to the offset of the first day only. -/
lemma scheduleAgrees_of_le_iff (h : endOfCalendar ≤ now) :
    ScheduleAgrees now interval offset ↔ ¬ Misaligned now interval offset := by
  have hneg : ¬ now < 0 := by
    unfold endOfCalendar at h
    omega
  unfold Misaligned ScheduleAgrees
  rw [if_neg hneg, if_pos h, not_le]
  constructor
  · rintro ⟨hlater, -⟩
    rcases dirvoteGetStart_of_le hinterval hlt h with hstart | ⟨-, hstart⟩ <;> omega
  · intro hbefore
    have hstart : ∀ t, endOfCalendar ≤ t → t < endOfCalendar + offset →
        dirvoteGetStartOfNextInterval t interval offset = endOfCalendar + offset := by
      intro t ht htlt
      rcases dirvoteGetStart_of_le hinterval hlt ht with hstart | ⟨hlate, -⟩
      · exact hstart
      · omega
    rw [hstart now h hbefore]
    exact ⟨hbefore, fun now' hle hlt' => hstart now' (h.trans hle) hlt'⟩

end Days

/-- **The voting schedule.**  For every interval up to a day, every offset below it and every time,
the start of the next interval is later, and the same for all times before it, exactly if the time
is not misaligned. -/
theorem voting_schedule_agrees_iff (now : ℤ) {interval offset : ℤ}
    (hinterval : 1 ≤ interval ∧ interval ≤ 86400) (hoffset : 0 ≤ offset ∧ offset ≤ interval - 1) :
    ScheduleAgrees now interval offset ↔ ¬ Misaligned now interval offset := by
  have hpos : 0 < interval := by omega
  have hlt : offset < interval := by omega
  by_cases hneg : now < 0
  · constructor
    · exact fun h hmis => not_scheduleAgrees_of_neg hpos hinterval.2 hoffset.1 hlt hneg hmis h
    · exact scheduleAgrees_of_neg hpos hinterval.2 hoffset.1 hlt hneg
  · by_cases hcalendar : endOfCalendar ≤ now
    · exact scheduleAgrees_of_le_iff hpos hinterval.2 hoffset.1 hlt hcalendar
    · constructor
      · exact fun h hmis =>
          not_scheduleAgrees_of_day hpos hinterval.2 hoffset.1 hlt (not_lt.mp hneg)
            (not_le.mp hcalendar) hmis h
      · exact scheduleAgrees_of_day hpos hinterval.2 hoffset.1 hlt (not_lt.mp hneg)
          (not_le.mp hcalendar)

/-- Authorities agree at any time if the interval is an hour and there is no offset, unless the time
is misaligned. -/
theorem voting_schedule_agrees_hour :
    ScheduleAgrees 1700000000 3600 0 ↔ ¬ Misaligned 1700000000 3600 0 :=
  voting_schedule_agrees_iff 1700000000 (by decide) (by decide)

/-- **Authorities do not agree** at 05:33:20 with an interval of 50000 seconds and an offset of
10000: they take 16:40:00 for the start, but at 13:53:20 they take one that is on the next day. -/
theorem not_voting_schedule_agrees :
    ¬ ∀ now interval offset : ℤ, 1 ≤ interval ∧ interval ≤ 86400 → 0 ≤ offset ∧
    offset ≤ interval - 1 →
      ScheduleAgrees now interval offset := by
  intro h
  obtain ⟨-, hsame⟩ := h 1700026400 50000 10000 (by decide) (by decide)
  have hstart : dirvoteGetStartOfNextInterval 1700026400 50000 10000 = 1700066400 := by decide
  have hstart' : dirvoteGetStartOfNextInterval 1700056400 50000 10000 = 1700102800 := by decide
  have hagree := hsame 1700056400 (by decide) (by rw [hstart]; decide)
  rw [hstart, hstart'] at hagree
  exact absurd hagree (by decide)

end Astoria
