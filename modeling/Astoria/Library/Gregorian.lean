import Mathlib

/-!
# The Gregorian calendar

Days are counted from the first day of 1970, and months from the first month of the year 0, both in
both directions.  A month starts on a day, and each month starts when the month before it is over
(`monthStart_succ`).  So a day number out of range is still meaningful: it is a day of another
month. Every day is in one month (`monthOfDay_spec`), which is found with an estimate of its year.
-/

namespace Astoria.Gregorian

open List

/-- Whether a year is a leap year. -/
def IsLeap (y : ℤ) : Prop := y % 4 = 0 ∧ (y % 100 ≠ 0 ∨ y % 400 = 0)

instance (y : ℤ) : Decidable (IsLeap y) := inferInstanceAs (Decidable (_ ∧ _))

/-- The number of days of a year. -/
def yearLength (y : ℤ) : ℤ := if IsLeap y then 366 else 365

/-- The first day of a year. -/
def yearStart (y : ℤ) : ℤ := 365 * (y - 1970) + (y - 1) / 4 - (y - 1) / 100 + (y - 1) / 400 - 477

/-- The number of days of each month of a year. -/
def monthLengths (y : ℤ) : List ℕ :=
  [31, if IsLeap y then 29 else 28, 31, 30, 31, 30, 31, 31, 30, 31, 30, 31]

/-- The first day of a month. -/
def monthStart (k : ℤ) : ℤ := yearStart (k / 12) + ((monthLengths (k / 12)).take (k % 12).toNat).sum

/-- The number of days of a month. -/
def monthLength (k : ℤ) : ℕ := (monthLengths (k / 12)).getD (k % 12).toNat 0

/-- **A year starts when the year before it is over.** -/
theorem yearStart_succ (y : ℤ) : yearStart (y + 1) = yearStart y + yearLength y := by
  have h4 : (y + 1 - 1) / 4 = (y - 1) / 4 + if y % 4 = 0 then 1 else 0 := by
    split_ifs <;> omega
  have h100 : (y + 1 - 1) / 100 = (y - 1) / 100 + if y % 100 = 0 then 1 else 0 := by
    split_ifs <;> omega
  have h400 : (y + 1 - 1) / 400 = (y - 1) / 400 + if y % 400 = 0 then 1 else 0 := by
    split_ifs <;> omega
  have hleap : yearLength y = 365 + (if y % 4 = 0 then 1 else 0) - (if y % 100 = 0 then 1 else 0) +
      if y % 400 = 0 then 1 else 0 := by
    unfold yearLength IsLeap
    split_ifs <;> omega
  unfold yearStart
  rw [h4, h100, h400, hleap]
  omega

/-- The days of all months of a year. -/
lemma sum_monthLengths (y : ℤ) : ((monthLengths y).sum : ℤ) = yearLength y := by
  unfold monthLengths yearLength
  split_ifs <;> rfl

/-- The first months of a year. -/
lemma sum_take_succ {ms : List ℕ} {m : ℕ} (h : m < ms.length) :
    (ms.take (m + 1)).sum = (ms.take m).sum + ms.getD m 0 := by
  rw [take_succ_eq_append_getElem h, sum_append, sum_singleton, getD_eq_getElem _ _ h]

/-- **A month starts when the month before it is over.** -/
theorem monthStart_succ (k : ℤ) : monthStart (k + 1) = monthStart k + monthLength k := by
  unfold monthStart monthLength
  by_cases hlast : k % 12 = 11
  · -- the first month of the next year
    have hyear : (k + 1) / 12 = k / 12 + 1 := by omega
    have hmonth : (k + 1) % 12 = 0 := by omega
    have htake : (monthLengths (k / 12)).take (11 + 1) = monthLengths (k / 12) := rfl
    have hsum : ((monthLengths (k / 12)).take 11).sum + (monthLengths (k / 12)).getD 11 0 =
        (monthLengths (k / 12)).sum := by
      rw [← sum_take_succ (Nat.lt_succ_self 11), htake]
    have hnone : ((monthLengths (k / 12 + 1)).take (0 : ℤ).toNat).sum = 0 := rfl
    have hall : ((monthLengths (k / 12)).take (11 : ℤ).toNat).sum +
        (monthLengths (k / 12)).getD (11 : ℤ).toNat 0 = (monthLengths (k / 12)).sum := hsum
    rw [hyear, hmonth, hlast, yearStart_succ, ← sum_monthLengths, hnone, ← hall]
    push_cast
    omega
  · have hyear : (k + 1) / 12 = k / 12 := by omega
    have hmonth : ((k + 1) % 12).toNat = (k % 12).toNat + 1 := by omega
    have hlt : (k % 12).toNat < (monthLengths (k / 12)).length := by
      have hlen : (monthLengths (k / 12)).length = 12 := rfl
      omega
    rw [hyear, hmonth, sum_take_succ hlt]
    push_cast
    omega

/-- No month is shorter than 28 or longer than 31 days. -/
lemma monthLength_bounds (k : ℤ) : 28 ≤ monthLength k ∧ monthLength k ≤ 31 := by
  have hlt : (k % 12).toNat < 12 := by omega
  unfold monthLength monthLengths
  generalize (k % 12).toNat = m at hlt
  split_ifs <;> interval_cases m <;> decide

/-- Later months start later. -/
lemma monthStart_strictMono : StrictMono monthStart := by
  refine strictMono_int_of_lt_succ fun k => ?_
  have hpos := (monthLength_bounds k).1
  rw [monthStart_succ]
  omega

/-! ### The month of a day -/

/-- The month in a list in which a day is. -/
def findMonth : List ℕ → ℤ → ℕ
  | [], _ => 0
  | m :: ms, day => if day < m then 0 else findMonth ms (day - m) + 1

def yearOfDay (day : ℤ) : ℤ :=
  let guess := 1970 + 400 * day / 146097
  if day < yearStart guess then guess - 1 else if yearStart (guess + 1) ≤ day then guess + 1
    else guess

def monthOfDay (day : ℤ) : ℤ :=
  12 * yearOfDay day + findMonth (monthLengths (yearOfDay day)) (day - yearStart (yearOfDay day))

/-- **The year of a day** has started and is not over. -/
lemma yearOfDay_spec (day : ℤ) : yearStart (yearOfDay day) ≤ day ∧ day < yearStart
    (yearOfDay day + 1) := by
  unfold yearOfDay
  dsimp only
  generalize hguess : 1970 + 400 * day / 146097 = guess
  split_ifs with hbefore hafter
  · refine ⟨?_, by rwa [sub_add_cancel]⟩
    unfold yearStart at hbefore ⊢
    omega
  · refine ⟨hafter, ?_⟩
    unfold yearStart at hafter ⊢
    omega
  · exact ⟨not_lt.mp hbefore, not_le.mp hafter⟩

/-- The month in a list in which a day is has started and is not over. -/
lemma findMonth_spec {ms : List ℕ} {day : ℤ} (h : 0 ≤ day) (hlt : day < ms.sum) :
    findMonth ms day < ms.length ∧ ((ms.take (findMonth ms day)).sum : ℤ) ≤ day ∧
      day < ((ms.take (findMonth ms day + 1)).sum : ℕ) := by
  induction ms generalizing day with
  | nil =>
    rw [sum_nil] at hlt
    omega
  | cons m ms ih =>
    rw [findMonth]
    split_ifs with hday
    · refine ⟨Nat.succ_pos _, h, ?_⟩
      rw [take_succ_cons, take_zero, sum_singleton]
      exact hday
    · rw [sum_cons, Nat.cast_add] at hlt
      obtain ⟨hlen, hle, hlt'⟩ := @ih (day - m) (by omega) (by omega)
      refine ⟨Nat.succ_lt_succ hlen, ?_, ?_⟩
      · rw [take_succ_cons, sum_cons, Nat.cast_add]
        omega
      · rw [take_succ_cons, sum_cons, Nat.cast_add]
        omega

/-- **The month of a day** has started and is not over. -/
theorem monthOfDay_spec (day : ℤ) :
    monthStart (monthOfDay day) ≤ day ∧ day < monthStart (monthOfDay day + 1) := by
  obtain ⟨hle, hlt⟩ := yearOfDay_spec day
  rw [yearStart_succ, ← sum_monthLengths] at hlt
  obtain ⟨hlen, hle', hlt'⟩ := findMonth_spec (by omega) (sub_lt_iff_lt_add'.mpr hlt)
  have hlen' : findMonth (monthLengths (yearOfDay day)) (day - yearStart (yearOfDay day)) < 12 :=
    hlen
  unfold monthOfDay
  generalize findMonth (monthLengths (yearOfDay day)) (day - yearStart (yearOfDay day)) = m at *
  rw [monthStart_succ]
  have hyear : (12 * yearOfDay day + (m : ℤ)) / 12 = yearOfDay day := by omega
  have hmonth : ((12 * yearOfDay day + (m : ℤ)) % 12).toNat = m := by omega
  rw [sum_take_succ hlen] at hlt'
  unfold monthStart monthLength
  rw [hyear, hmonth]
  rw [Nat.cast_add] at hlt'
  constructor <;> omega

lemma monthOfDay_eq {k day : ℤ} (hle : monthStart k ≤ day) (hlt : day < monthStart (k + 1)) :
    monthOfDay day = k := by
  obtain ⟨hle', hlt'⟩ := monthOfDay_spec day
  have h₁ := monthStart_strictMono.lt_iff_lt.mp (hle.trans_lt hlt')
  have h₂ := monthStart_strictMono.lt_iff_lt.mp (hle'.trans_lt hlt)
  omega

/-- Later days are not in earlier months. -/
lemma monthOfDay_mono : Monotone monthOfDay := by
  intro a b h
  have h₁ := monthStart_strictMono.lt_iff_lt.mp
    ((monthOfDay_spec a).1.trans_lt (h.trans_lt (monthOfDay_spec b).2))
  omega

end Astoria.Gregorian
