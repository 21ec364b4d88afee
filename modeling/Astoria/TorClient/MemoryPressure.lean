import Mathlib.Data.Int.Order.Basic
import Mathlib.Data.List.Induction

/-!
# Memory pressure

A relay adds up now and then what its queues and caches have allocated (`cellQueuesCheckSize`).  It
notes the time if this is much, and frees memory if it is too much.  Others ask whether this has
been so in the last half hour.

The comparison of the two times is the wrong way round: the answer is always the opposite of the
right one (`haveBeenUnderMemoryPressure_iff`).
-/

namespace Astoria.MemoryPressure

open List

/-- So many seconds after having been low on memory it is conserved (`MEMORY_PRESSURE_INTERVAL`). -/
def memoryPressureInterval : ℤ := 30 * 60

/-- A check: the allocations in bytes, the options and the time. -/
structure Check where
  cells : UInt64
  buf : UInt64
  zlib : UInt64
  rendCache : UInt64
  /-- What is left in the cache when so many bytes of descriptors are to be removed. -/
  rendCacheCleanV2DescsAsDir : UInt64 → UInt64
  maxMemInQueues : UInt64
  maxMemInQueuesLowThreshold : UInt64
  approxTime : ℤ

/-- The total allocation that a check finds. -/
def Check.alloc (c : Check) : UInt64 := c.cells + c.buf + c.zlib + c.rendCache

/-- The time of the last pressure after a check, and the allocation for which `circuits_handle_oom`
is invoked, if it is. -/
def cellQueuesCheckSize (lastTimeUnderMemoryPressure : ℤ) (c : Check) : ℤ × Option UInt64 :=
  if c.maxMemInQueuesLowThreshold ≤ c.alloc then
    if c.maxMemInQueues ≤ c.alloc then
      if c.maxMemInQueues / 5 < c.rendCache then
        let bytesToRemove := c.rendCache - c.maxMemInQueues / 10
        (c.approxTime, some (c.alloc - c.rendCache + c.rendCacheCleanV2DescsAsDir bytesToRemove))
      else (c.approxTime, some c.alloc)
    else (c.approxTime, none)
  else (lastTimeUnderMemoryPressure, none)

/-- The time of the last pressure after some checks. -/
def lastTimeUnderMemoryPressure (checks : List Check) : ℤ :=
  checks.foldl (fun last c => (cellQueuesCheckSize last c).1) 0

def haveBeenUnderMemoryPressure (checks : List Check) (approxTime : ℤ) : Bool :=
  lastTimeUnderMemoryPressure checks + memoryPressureInterval < approxTime

/-- Some check in the last `memoryPressureInterval` seconds found much memory allocated. -/
def RecentPressure (checks : List Check) (now : ℤ) : Prop :=
  ∃ c ∈ checks, c.maxMemInQueuesLowThreshold ≤ c.alloc ∧ now ≤ c.approxTime + memoryPressureInterval

section Runs

variable {checks : List Check} {now : ℤ}

/-- **Step lemma.**  What a check notes. -/
lemma cellQueuesCheckSize_fst (last : ℤ) (c : Check) :
    (cellQueuesCheckSize last c).1 = if c.maxMemInQueuesLowThreshold ≤ c.alloc then c.approxTime
      else last := by
  unfold cellQueuesCheckSize
  split_ifs <;> rfl

/-- **Run lemma.**  The time that was noted is the last one of a pressure. -/
lemma recentPressure_iff (hmono : (checks.map (·.approxTime)).Pairwise (· ≤ ·))
    (hnow : memoryPressureInterval < now) : RecentPressure checks now ↔
    now ≤ lastTimeUnderMemoryPressure checks + memoryPressureInterval := by
  induction checks using reverseRecOn with
  | nil =>
    refine iff_of_false (fun ⟨c, hc, _⟩ => not_mem_nil hc) ?_
    rw [lastTimeUnderMemoryPressure, foldl_nil]
    omega
  | append_singleton checks c ih =>
    rw [map_append, pairwise_append] at hmono
    obtain ⟨hbefore, -, hle⟩ := hmono
    have hlast : lastTimeUnderMemoryPressure (checks ++ [c]) =
        if c.maxMemInQueuesLowThreshold ≤ c.alloc then c.approxTime
        else lastTimeUnderMemoryPressure checks := by
      rw [lastTimeUnderMemoryPressure, foldl_append]
      exact cellQueuesCheckSize_fst _ c
    have hsplit : RecentPressure (checks ++ [c]) now ↔ RecentPressure checks now ∨
        c.maxMemInQueuesLowThreshold ≤ c.alloc ∧ now ≤ c.approxTime + memoryPressureInterval := by
      simp only [RecentPressure, mem_append, mem_singleton, or_and_right, exists_or, exists_eq_left]
    rw [hlast, hsplit]
    split_ifs with hlow
    · refine ⟨?_, fun h => .inr ⟨hlow, h⟩⟩
      rintro (⟨c', hc', -, hrecent⟩ | ⟨-, h⟩)
      · have := hle _ (List.mem_map_of_mem hc') _ (List.mem_map_of_mem mem_cons_self)
        omega
      · exact h
    · rw [ih hbefore]
      exact or_iff_left fun h => hlow h.1

/-- **The answer is the opposite of the right one.** -/
lemma haveBeenUnderMemoryPressure_iff (hmono : (checks.map (·.approxTime)).Pairwise (· ≤ ·))
    (hnow : memoryPressureInterval < now) :
    haveBeenUnderMemoryPressure checks now = true ↔ ¬RecentPressure checks now := by
  rw [recentPressure_iff hmono hnow, haveBeenUnderMemoryPressure, decide_eq_true_iff, not_le]

end Runs

/-- Memory is freed by exactly the checks that find too much allocated. -/
def HandlesOom (checks : List Check) : Prop :=
  ∀ last, ∀ c ∈ checks, (cellQueuesCheckSize last c).2.isSome ↔ c.maxMemInQueues ≤ c.alloc

structure Reported (checks : List Check) (now : ℤ) : Prop where
  pressure : haveBeenUnderMemoryPressure checks now = true ↔ RecentPressure checks now
  oom : HandlesOom checks

/-- **No answer is right**, at any moment of any run.  Only memory is freed when it should be, if no
lower threshold is above the other one. -/
theorem not_reported (checks : List Check) (now : ℤ)
    (hmono : (checks.map (·.approxTime)).Pairwise (· ≤ ·)) (hnow : memoryPressureInterval < now) :
    ¬Reported checks now ∧
      ((∀ c ∈ checks, c.maxMemInQueuesLowThreshold ≤ c.maxMemInQueues) → HandlesOom checks) := by
  constructor
  · intro hreported
    have hopposite := (haveBeenUnderMemoryPressure_iff hmono hnow).symm.trans hreported.pressure
    exact iff_not_self hopposite.symm
  · intro hthresholds last c hc
    unfold cellQueuesCheckSize
    split_ifs with hlow hmax
    · exact iff_of_true rfl hmax
    · exact iff_of_true rfl hmax
    · exact iff_of_false nofun hmax
    · exact iff_of_false nofun fun hmax => hlow (UInt64.le_trans (hthresholds c hc) hmax)

/-- A check in the thirty-fifth minute that finds 7 of 8 bytes allocated. -/
def lowCheck : Check := ⟨7, 0, 0, 0, id, 8, 6, 2100⟩

theorem not_reported_lowCheck : ¬Reported [lowCheck] 4000 :=
  (not_reported [lowCheck] 4000 (by simp) (by decide)).1

/-- One second after the check, the relay says that it has not been under pressure. -/
theorem not_pressure_lowCheck : ¬Reported [lowCheck] 2101 ∧ haveBeenUnderMemoryPressure
    [lowCheck] 2101 = false := by
  have hanswer : haveBeenUnderMemoryPressure [lowCheck] 2101 = false := by decide
  refine ⟨fun h => ?_, hanswer⟩
  have hright := h.pressure.mpr ⟨lowCheck, mem_cons_self, by decide, by decide⟩
  exact Bool.false_ne_true (hanswer.symm.trans hright)

end Astoria.MemoryPressure
