import Mathlib
import Astoria.Library.Gregorian

/-!
# Accounting periods

A relay limits the bytes of an accounting period, which is a month, a week or a day from a
configured day and time of day on.  The edges of the period of a time are computed from its
broken-down local time, in a time zone with a fixed offset.

The periods of weeks and days tile the time line.  Those of months only do so if they start at
midnight: before the time of day of the first day, the code takes the period to come for that of the
time (`accountingPeriods_wellFormed`).
-/

namespace Astoria

open Gregorian

/-! ### Local time -/

/-- A broken-down time (`struct tm`), with fields that may be out of range. -/
structure LocalTm where
  /-- The year, counted from 1900. -/
  tmYear : ℤ
  tmMon : ℤ
  tmMday : ℤ
  tmHour : ℤ
  tmMin : ℤ
  tmSec : ℤ
  /-- The day of the week, with 0 for Sunday. -/
  tmWday : ℤ
  deriving DecidableEq

/-- The broken-down time of a time (`localtime`). -/
def localtime (offset t : ℤ) : LocalTm :=
  let day := (t + offset) / 86400
  let month := monthOfDay day
  { tmYear := month / 12 - 1900
    tmMon := month % 12
    tmMday := day - monthStart month + 1
    tmHour := (t + offset) % 86400 / 3600
    tmMin := (t + offset) % 3600 / 60
    tmSec := (t + offset) % 60
    tmWday := (day + 4) % 7 }

/-- The time of a broken-down time (`mktime`), whatever its fields are. -/
def mktime (offset : ℤ) (tm : LocalTm) : ℤ :=
  (((monthStart (12 * (tm.tmYear + 1900) + tm.tmMon) + (tm.tmMday - 1)) * 24 + tm.tmHour) * 60 +
    tm.tmMin) * 60 +
    tm.tmSec - offset

/-- Dates after the year 9999 or before the year 1 are replaced (`correct_tm`). -/
def correctTm (tm : LocalTm) : LocalTm :=
  if 8099 < tm.tmYear then
    { tm with tmYear := 8099, tmMon := 11, tmMday := 31, tmHour := 23, tmMin := 59, tmSec := 59 }
  else if tm.tmYear < 1 - 1900 then
    { tm with tmYear := 1 - 1900, tmMon := 0, tmMday := 1, tmHour := 0, tmMin := 0, tmSec := 0 }
  else tm

/-- The broken-down time of a time (`tor_localtime_r`). -/
def torLocaltime (offset t : ℤ) : LocalTm := correctTm (localtime offset t)

/-- A time whose date is not replaced. -/
def InCalendar (offset t : ℤ) : Prop :=
  1 - 1900 ≤ (localtime offset t).tmYear ∧ (localtime offset t).tmYear ≤ 8099

/-! ### Periods -/

/-- The unit of accounting (`time_unit_t`). -/
inductive AccountingUnit
  | month
  | week
  | day
  deriving DecidableEq

/-- A configuration that is accepted (`accounting_parse_options`). -/
structure AccountingConfig where
  cfgUnit : AccountingUnit
  cfgStartDay : ℤ
  cfgStartHour : ℤ
  cfgStartMin : ℤ
  day_ok : match cfgUnit with
    | .month => 1 ≤ cfgStartDay ∧ cfgStartDay ≤ 28
    | .week => 1 ≤ cfgStartDay ∧ cfgStartDay ≤ 7
    | .day => cfgStartDay = 0
  hour_ok : 0 ≤ cfgStartHour ∧ cfgStartHour ≤ 23
  min_ok : 0 ≤ cfgStartMin ∧ cfgStartMin ≤ 59

/-- A broken-down time is before the time of day at which periods change. -/
def AccountingConfig.before (cfg : AccountingConfig) (tm : LocalTm) : Bool :=
  tm.tmHour < cfg.cfgStartHour || (tm.tmHour = cfg.cfgStartHour && tm.tmMin < cfg.cfgStartMin)

/-- The day of an edge of the period of a broken-down time. -/
def AccountingConfig.edgeDay (cfg : AccountingConfig) (tm : LocalTm) (getEnd : Bool) : LocalTm :=
  let before := cfg.before tm
  match cfg.cfgUnit with
  | .month =>
    let mon := if tm.tmMday < cfg.cfgStartDay ∨ (tm.tmMday < cfg.cfgStartDay ∧ before = true) then
      tm.tmMon - 1
      else tm.tmMon
    { tm with tmMday := cfg.cfgStartDay, tmMon := if getEnd then mon + 1 else mon }
  | .week =>
    let wday := cfg.cfgStartDay % 7
    let delta := (7 + tm.tmWday - wday) % 7
    let delta := if delta = 0 ∧ before = true then 7 else delta
    let mday := tm.tmMday - delta
    { tm with tmMday := if getEnd then mday + 7 else mday }
  | .day =>
    let mday := if before then tm.tmMday - 1 else tm.tmMday
    { tm with tmMday := if getEnd then mday + 1 else mday }

/-- An edge of the period of a time (`edge_of_accounting_period_containing`). -/
def edgeOfAccountingPeriodContaining (cfg : AccountingConfig) (offset now : ℤ) (getEnd : Bool) :
    ℤ :=
  mktime offset { cfg.edgeDay (torLocaltime offset now) getEnd with
    tmHour := cfg.cfgStartHour, tmMin := cfg.cfgStartMin, tmSec := 0 }

/-- The start of the period of a time (`start_of_accounting_period_containing`). -/
def startOfAccountingPeriodContaining (cfg : AccountingConfig) (offset now : ℤ) : ℤ :=
  edgeOfAccountingPeriodContaining cfg offset now false

/-- The start of the next period (`start_of_accounting_period_after`). -/
def startOfAccountingPeriodAfter (cfg : AccountingConfig) (offset now : ℤ) : ℤ :=
  edgeOfAccountingPeriodContaining cfg offset now true

/-- **The period of a time is well formed**: the time is in it, all times in it have the same start,
and the next period starts where it ends. -/
structure PeriodWellFormed (cfg : AccountingConfig) (offset now : ℤ) : Prop where
  start_le : startOfAccountingPeriodContaining cfg offset now ≤ now
  lt_after : now < startOfAccountingPeriodAfter cfg offset now
  same_start : ∀ t, InCalendar offset t → startOfAccountingPeriodContaining cfg offset now ≤ t →
    t < startOfAccountingPeriodAfter cfg offset now →
      startOfAccountingPeriodContaining cfg offset t =
        startOfAccountingPeriodContaining cfg offset now
  next_start : InCalendar offset (startOfAccountingPeriodAfter cfg offset now) →
    startOfAccountingPeriodContaining cfg offset (startOfAccountingPeriodAfter cfg offset now) =
      startOfAccountingPeriodAfter cfg offset now

/-! ### Edges -/

section Edges

variable {cfg : AccountingConfig} {offset now t : ℤ}

/-- The seconds from midnight to the start of a period. -/
def AccountingConfig.startOfDay (cfg : AccountingConfig) : ℤ :=
  (cfg.cfgStartHour * 60 + cfg.cfgStartMin) * 60

/-- The edges of the periods, in local time. -/
def AccountingConfig.edge (cfg : AccountingConfig) (i : ℤ) : ℤ :=
  match cfg.cfgUnit with
  | .month => 86400 * (monthStart i + cfg.cfgStartDay - 1) + cfg.startOfDay
  | .week => 86400 * (7 * i + cfg.cfgStartDay % 7 - 4) + cfg.startOfDay
  | .day => 86400 * i + cfg.startOfDay

lemma startOfDay_bounds (cfg : AccountingConfig) : 0 ≤ cfg.startOfDay ∧ cfg.startOfDay < 86400 := by
  obtain ⟨hhour, hhour'⟩ := cfg.hour_ok
  obtain ⟨hmin, hmin'⟩ := cfg.min_ok
  unfold AccountingConfig.startOfDay
  omega

/-- Later periods have later edges. -/
lemma edge_strictMono (cfg : AccountingConfig) : StrictMono cfg.edge := by
  intro i j h
  unfold AccountingConfig.edge
  cases cfg.cfgUnit with
  | month =>
    have hmonth := monthStart_strictMono h
    dsimp only
    omega
  | week =>
    dsimp only
    omega
  | day =>
    dsimp only
    omega

lemma torLocaltime_of_inCalendar (h : InCalendar offset t) :
    torLocaltime offset t = localtime offset t := by
  unfold torLocaltime correctTm
  rw [if_neg (not_lt.mpr h.2), if_neg (not_lt.mpr h.1)]

lemma before_localtime (cfg : AccountingConfig) (offset t : ℤ) :
    cfg.before (localtime offset t) = true ↔ (t + offset) % 86400 < cfg.startOfDay := by
  obtain ⟨hmin, hmin'⟩ := cfg.min_ok
  unfold AccountingConfig.before AccountingConfig.startOfDay localtime
  simp only [Bool.or_eq_true, Bool.and_eq_true, decide_eq_true_eq]
  omega

/-- The month of a broken-down time. -/
def LocalTm.month (tm : LocalTm) : ℤ := 12 * (tm.tmYear + 1900) + tm.tmMon

/-- The day of a broken-down time. -/
def LocalTm.day (tm : LocalTm) : ℤ := monthStart tm.month + (tm.tmMday - 1)

lemma month_localtime (offset t : ℤ) : (localtime offset t).month = monthOfDay
    ((t + offset) / 86400) := by
  unfold LocalTm.month localtime
  dsimp only
  omega

lemma day_localtime (offset t : ℤ) : (localtime offset t).day = (t + offset) / 86400 := by
  unfold LocalTm.day
  rw [month_localtime]
  unfold localtime
  dsimp only
  omega

/-- An edge is a day and a time of day. -/
lemma edgeOfAccountingPeriodContaining_eq (h : InCalendar offset t) (getEnd : Bool) :
    edgeOfAccountingPeriodContaining cfg offset t getEnd =
      86400 * (cfg.edgeDay (localtime offset t) getEnd).day + cfg.startOfDay - offset := by
  unfold edgeOfAccountingPeriodContaining
  rw [torLocaltime_of_inCalendar h]
  generalize cfg.edgeDay (localtime offset t) getEnd = tm
  unfold mktime AccountingConfig.startOfDay LocalTm.day LocalTm.month
  dsimp only
  omega

lemma edgeDay_month (hunit : cfg.cfgUnit = .month) (tm : LocalTm) (getEnd : Bool) :
    (cfg.edgeDay tm getEnd).day =
      monthStart ((if tm.tmMday < cfg.cfgStartDay then tm.month - 1 else tm.month) +
        if getEnd then 1 else 0) +
        (cfg.cfgStartDay - 1) := by
  have hor : (tm.tmMday < cfg.cfgStartDay ∨ (tm.tmMday < cfg.cfgStartDay ∧ cfg.before tm = true)) ↔
      tm.tmMday < cfg.cfgStartDay := or_iff_left_of_imp And.left
  unfold AccountingConfig.edgeDay LocalTm.day LocalTm.month
  rw [hunit]
  simp only [hor]
  congr 2
  cases getEnd <;> split_ifs <;> first | rfl | omega

/-- The days since the last day on which weekly periods start. -/
def AccountingConfig.delta (cfg : AccountingConfig) (tm : LocalTm) : ℤ :=
  if (7 + tm.tmWday - cfg.cfgStartDay % 7) % 7 = 0 ∧ cfg.before tm = true then 7
  else (7 + tm.tmWday - cfg.cfgStartDay % 7) % 7

lemma edgeDay_week (hunit : cfg.cfgUnit = .week) (tm : LocalTm) (getEnd : Bool) :
    (cfg.edgeDay tm getEnd).day = tm.day - cfg.delta tm + if getEnd then 7 else 0 := by
  unfold AccountingConfig.edgeDay LocalTm.day LocalTm.month
  rw [hunit]
  dsimp only
  have hdelta : (if (7 + tm.tmWday - cfg.cfgStartDay % 7) % 7 = 0 ∧ cfg.before tm = true then 7
    else (7 + tm.tmWday - cfg.cfgStartDay % 7) % 7) = cfg.delta tm := rfl
  rw [hdelta]
  generalize cfg.delta tm = delta
  cases getEnd <;> simp only [if_true, Bool.false_eq_true, if_false] <;> omega

lemma edgeDay_day (hunit : cfg.cfgUnit = .day) (tm : LocalTm) (getEnd : Bool) :
    (cfg.edgeDay tm getEnd).day = tm.day - (if cfg.before tm then 1 else 0) + if getEnd then 1
      else 0 := by
  unfold AccountingConfig.edgeDay LocalTm.day LocalTm.month
  rw [hunit]
  dsimp only
  cases getEnd <;> cases cfg.before tm <;> simp only [if_true, Bool.false_eq_true, if_false] <;>
    omega

/-- A time is on the first day of a monthly period, but before the period starts. -/
def AccountingConfig.Early (cfg : AccountingConfig) (offset t : ℤ) : Prop :=
  cfg.cfgUnit = .month ∧ (localtime offset t).tmMday = cfg.cfgStartDay ∧
    cfg.before (localtime offset t) = true

/-- The edges of a period are the given one and the one after it. -/
def EdgesAt (cfg : AccountingConfig) (offset t i : ℤ) : Prop :=
  startOfAccountingPeriodContaining cfg offset t = cfg.edge i - offset ∧
    startOfAccountingPeriodAfter cfg offset t = cfg.edge (i + 1) - offset

/-- **The edges around a time**, in months. -/
lemma exists_edges_month (hunit : cfg.cfgUnit = .month) (h : InCalendar offset t) :
    ∃ i, EdgesAt cfg offset t i ∧ t + offset < cfg.edge (i + 1) ∧
      (cfg.edge i ≤ t + offset ↔ ¬ cfg.Early offset t) := by
  have hedge : ∀ i, cfg.edge i = 86400 * (monthStart i + cfg.cfgStartDay - 1) + cfg.startOfDay := by
    intro i
    unfold AccountingConfig.edge
    rw [hunit]
  have hearly : cfg.Early offset t ↔
      (localtime offset t).tmMday = cfg.cfgStartDay ∧ (t + offset) % 86400 < cfg.startOfDay := by
    unfold AccountingConfig.Early
    rw [before_localtime]
    exact and_iff_right hunit
  have hmday : (localtime offset t).tmMday =
      (t + offset) / 86400 - monthStart (monthOfDay ((t + offset) / 86400)) + 1 := rfl
  have hday := cfg.day_ok
  rw [hunit] at hday
  dsimp only at hday
  obtain ⟨hstart, hstart'⟩ := startOfDay_bounds cfg
  obtain ⟨hle, hlt⟩ := monthOfDay_spec ((t + offset) / 86400)
  have hmonth := month_localtime offset t
  simp only [EdgesAt, startOfAccountingPeriodContaining, startOfAccountingPeriodAfter,
    edgeOfAccountingPeriodContaining_eq h, edgeDay_month hunit, hearly, hedge, hmonth, hmday,
    if_true, Bool.false_eq_true, if_false, add_zero]
  generalize monthOfDay ((t + offset) / 86400) = k at *
  split_ifs with hearlier
  · -- the period started in the month before
    have hprev := monthStart_succ (k - 1)
    have hlen := (monthLength_bounds (k - 1)).1
    rw [sub_add_cancel] at hprev
    refine ⟨k - 1, ⟨?_, ?_⟩, ?_, ?_⟩
    · omega
    · omega
    · rw [sub_add_cancel]
      omega
    · exact iff_of_true (by omega) (by omega)
  · refine ⟨k, ⟨?_, ?_⟩, ?_, ?_⟩ <;> omega

/-- **The edges around a time**, in weeks. -/
lemma exists_edges_week (hunit : cfg.cfgUnit = .week) (h : InCalendar offset t) :
    ∃ i, EdgesAt cfg offset t i ∧ t + offset < cfg.edge (i + 1) ∧ cfg.edge i ≤ t + offset := by
  have hedge : ∀ i, cfg.edge i = 86400 * (7 * i + cfg.cfgStartDay % 7 - 4) + cfg.startOfDay := by
    intro i
    unfold AccountingConfig.edge
    rw [hunit]
  have hdelta : 0 ≤ cfg.delta (localtime offset t) ∧ cfg.delta (localtime offset t) ≤ 7 ∧
      ((t + offset) / 86400 - cfg.delta (localtime offset t) + 4 - cfg.cfgStartDay % 7) % 7 = 0 ∧
      (cfg.delta (localtime offset t) = 0 → cfg.startOfDay ≤ (t + offset) % 86400) ∧
      (cfg.delta (localtime offset t) = 7 → (t + offset) % 86400 < cfg.startOfDay) := by
    have hwday : (localtime offset t).tmWday = ((t + offset) / 86400 + 4) % 7 := rfl
    have hbefore := before_localtime cfg offset t
    unfold AccountingConfig.delta
    rw [hwday]
    split_ifs with hfirst
    · have hlt := hbefore.mp hfirst.2
      omega
    · rw [hbefore] at hfirst
      omega
  obtain ⟨hstart, hstart'⟩ := startOfDay_bounds cfg
  simp only [EdgesAt, startOfAccountingPeriodContaining, startOfAccountingPeriodAfter,
    edgeOfAccountingPeriodContaining_eq h, edgeDay_week hunit, hedge, day_localtime, if_true,
    Bool.false_eq_true, if_false]
  generalize cfg.delta (localtime offset t) = delta at *
  refine ⟨((t + offset) / 86400 - delta + 4 - cfg.cfgStartDay % 7) / 7, ⟨?_, ?_⟩, ?_, ?_⟩ <;> omega

/-- **The edges around a time**, in days. -/
lemma exists_edges_day (hunit : cfg.cfgUnit = .day) (h : InCalendar offset t) :
    ∃ i, EdgesAt cfg offset t i ∧ t + offset < cfg.edge (i + 1) ∧ cfg.edge i ≤ t + offset := by
  have hedge : ∀ i, cfg.edge i = 86400 * i + cfg.startOfDay := by
    intro i
    unfold AccountingConfig.edge
    rw [hunit]
  obtain ⟨hstart, hstart'⟩ := startOfDay_bounds cfg
  have hbefore := before_localtime cfg offset t
  simp only [EdgesAt, startOfAccountingPeriodContaining, startOfAccountingPeriodAfter,
    edgeOfAccountingPeriodContaining_eq h, edgeDay_day hunit, hedge, day_localtime, hbefore,
    if_true, Bool.false_eq_true, if_false]
  split_ifs with hearlier
  · refine ⟨(t + offset) / 86400 - 1, ⟨?_, ?_⟩, ?_, ?_⟩ <;> omega
  · refine ⟨(t + offset) / 86400, ⟨?_, ?_⟩, ?_, ?_⟩ <;> omega

/-- **The edges around a time.**  The time is before the later one, and not before the earlier one
unless it is early on the first day of a month. -/
theorem exists_edges (cfg : AccountingConfig) (h : InCalendar offset t) :
    ∃ i, EdgesAt cfg offset t i ∧ t + offset < cfg.edge (i + 1) ∧
      (cfg.edge i ≤ t + offset ↔ ¬ cfg.Early offset t) := by
  cases hunit : cfg.cfgUnit with
  | month => exact exists_edges_month hunit h
  | week =>
    obtain ⟨i, hedges, hlt, hle⟩ := exists_edges_week hunit h
    exact ⟨i, hedges, hlt, iff_of_true hle fun hearly => nomatch hunit.symm.trans hearly.1⟩
  | day =>
    obtain ⟨i, hedges, hlt, hle⟩ := exists_edges_day hunit h
    exact ⟨i, hedges, hlt, iff_of_true hle fun hearly => nomatch hunit.symm.trans hearly.1⟩

lemma edge_unique {i j : ℤ} (hi : cfg.edge i ≤ t) (hi' : t < cfg.edge (i + 1)) (hj : cfg.edge j ≤ t)
    (hj' : t < cfg.edge (j + 1)) : i = j := by
  have h₁ := (edge_strictMono cfg).lt_iff_lt.mp (hi.trans_lt hj')
  have h₂ := (edge_strictMono cfg).lt_iff_lt.mp (hj.trans_lt hi')
  omega

/-- **Periods are well formed** if no time is early. -/
theorem periodWellFormed (hearly : ∀ t, ¬ cfg.Early offset t) (hnow : InCalendar offset now) :
    PeriodWellFormed cfg offset now := by
  obtain ⟨i, ⟨hstart, hafter⟩, hlt, hle⟩ := exists_edges cfg hnow
  have hle := hle.mpr (hearly now)
  refine ⟨by omega, by omega, fun t ht hstart' hafter' => ?_, fun hnext => ?_⟩
  · obtain ⟨j, ⟨hstartt, -⟩, hltt, hlet⟩ := exists_edges cfg ht
    obtain rfl :=
      edge_unique (hlet.mpr (hearly t)) hltt (show cfg.edge i ≤ t + offset by omega) (by omega)
    rw [hstart, hstartt]
  · obtain ⟨j, ⟨hstartt, -⟩, hltt, hlet⟩ := exists_edges cfg hnext
    have hmono := edge_strictMono cfg (Int.lt_succ (i + 1))
    have hedge : startOfAccountingPeriodAfter cfg offset now + offset = cfg.edge (i + 1) := by omega
    rw [hedge] at hltt hlet
    obtain rfl := edge_unique (hlet.mpr (hearly _)) hltt le_rfl hmono
    rw [hstartt, hafter]

/-- A time early on a first day, in the year 2000. -/
lemma exists_early (hunit : cfg.cfgUnit = .month) (hpos : 0 < cfg.startOfDay) (offset : ℤ) :
    ∃ now, InCalendar offset now ∧ cfg.Early offset now := by
  have hday := cfg.day_ok
  rw [hunit] at hday
  dsimp only at hday
  have hsucc := monthStart_succ 24001
  have hlen := (monthLength_bounds 24001).1
  have hnow : 86400 * (monthStart 24001 + cfg.cfgStartDay - 1) - offset + offset =
      86400 * (monthStart 24001 + cfg.cfgStartDay - 1) := sub_add_cancel _ _
  have hdays : 86400 * (monthStart 24001 + cfg.cfgStartDay - 1) / 86400 =
      monthStart 24001 + cfg.cfgStartDay - 1 := by
    omega
  have hmonth : monthOfDay (monthStart 24001 + cfg.cfgStartDay - 1) = 24001 :=
    monthOfDay_eq (by omega) (by omega)
  refine ⟨86400 * (monthStart 24001 + cfg.cfgStartDay - 1) - offset, ?_, hunit, ?_, ?_⟩
  · unfold InCalendar localtime
    dsimp only
    rw [hnow, hdays, hmonth]
    decide
  · unfold localtime
    dsimp only
    rw [hnow, hdays, hmonth]
    omega
  · rw [before_localtime, hnow]
    omega

end Edges

/-- **Accounting periods** are well formed for a configuration if and only if it is not for months
or its months start at midnight.  A time is in its period unless it is early on the first day of a
month. -/
theorem accountingPeriods_wellFormed (cfg : AccountingConfig) (offset : ℤ) :
    ((∀ now, InCalendar offset now → PeriodWellFormed cfg offset now) ↔
      (cfg.cfgUnit ≠ .month ∨ (cfg.cfgStartHour = 0 ∧ cfg.cfgStartMin = 0))) ∧
    ∀ now, InCalendar offset now → ((startOfAccountingPeriodContaining cfg offset now ≤ now ∧
      now < startOfAccountingPeriodAfter cfg offset now) ↔
        ¬ (cfg.cfgUnit = .month ∧ (localtime offset now).tmMday = cfg.cfgStartDay ∧
          cfg.before (localtime offset now) = true)) := by
  have hcontains : ∀ now, InCalendar offset now →
      ((startOfAccountingPeriodContaining cfg offset now ≤ now ∧
        now < startOfAccountingPeriodAfter cfg offset now) ↔ ¬ cfg.Early offset now) := by
    intro now hnow
    obtain ⟨i, ⟨hstart, hafter⟩, hlt, hle⟩ := exists_edges cfg hnow
    rw [← hle]
    omega
  refine ⟨⟨fun hall => ?_, fun hcond now hnow => ?_⟩, hcontains⟩
  · by_contra hcond
    obtain ⟨hmonth, htime⟩ := not_or.mp hcond
    obtain ⟨hhour, -⟩ := cfg.hour_ok
    obtain ⟨hmin, -⟩ := cfg.min_ok
    have hpos : 0 < cfg.startOfDay := by
      unfold AccountingConfig.startOfDay
      omega
    obtain ⟨now, hnow, hearly⟩ := exists_early (not_not.mp hmonth) hpos offset
    have hwell := hall now hnow
    exact (hcontains now hnow).mp ⟨hwell.start_le, hwell.lt_after⟩ hearly
  · refine periodWellFormed (fun t hearly => ?_) hnow
    obtain ⟨hunit, -, hbefore⟩ := hearly
    rcases hcond with hcond | ⟨hhour, hmin⟩
    · exact hcond hunit
    · rw [before_localtime] at hbefore
      unfold AccountingConfig.startOfDay at hbefore
      omega

/-- Months from the 15th at noon. -/
def midmonthNoon : AccountingConfig := ⟨.month, 15, 12, 0, by decide, by decide, by decide⟩

/-- In the morning of the 15th, the period of now starts at noon. -/
theorem not_accountingPeriods_wellFormed : ¬ ∀ (cfg : AccountingConfig) (offset now : ℤ),
    InCalendar offset now → PeriodWellFormed cfg offset now := by
  intro h
  have hcalendar : InCalendar 0 1434326400 := ⟨by decide, by decide⟩
  have hle := (h midmonthNoon 0 1434326400 hcalendar).start_le
  have hstart : startOfAccountingPeriodContaining midmonthNoon 0 1434326400 = 1434369600 := by
    decide
  rw [hstart] at hle
  omega

end Astoria
