import Mathlib.Data.List.Sort

/-!
# Order statistics

The `k`-th smallest member of a list, counted from 0, is what stands at position `k` when the list
is sorted.  It is at most a bound if and only if more than `k` members are (`nth_le_iff`).
-/

namespace Astoria.OrderStatistic

open List

variable {α ι : Type*} [LinearOrder α] {k : ℕ} {l : List α}

/-- The `k`-th smallest member of a list, if the list is long enough. -/
def nth (l : List α) (k : ℕ) : Option α := (l.insertionSort (· ≤ ·))[k]?

/-- There is one if the list is long enough. -/
lemma exists_nth (hk : k < l.length) : ∃ x ∈ l, nth l k = some x := by
  have hlen : k < (l.insertionSort (· ≤ ·)).length := by
    rwa [length_insertionSort]
  refine ⟨(l.insertionSort (· ≤ ·))[k], ?_, getElem?_eq_getElem hlen⟩
  exact (mem_insertionSort _).mp (getElem_mem hlen)

/-- Sorted lists do not depend on the order before. -/
lemma insertionSort_eq_of_perm {l' : List α} (h : l.Perm l') :
    l.insertionSort (· ≤ ·) = l'.insertionSort (· ≤ ·) := by
  refine Perm.eq_of_pairwise' (pairwise_insertionSort _ l) (pairwise_insertionSort _ l') ?_
  exact ((perm_insertionSort _ l).trans h).trans (perm_insertionSort _ l').symm

/-- In a sorted list, the members up to a bound come first. -/
lemma getElem?_le_iff (h : l.Pairwise (· ≤ ·)) {y : α} (hy : l[k]? = some y) (x : α) :
    y ≤ x ↔ k < l.countP (· ≤ x) := by
  induction l generalizing k with
  | nil => cases hy
  | cons a l ih =>
    obtain ⟨ha, hl⟩ := pairwise_cons.mp h
    rw [countP_cons]
    by_cases hax : a ≤ x
    · rw [if_pos (decide_eq_true hax)]
      cases k with
      | zero =>
        obtain rfl := Option.some.inj hy
        exact iff_of_true hax (Nat.succ_pos _)
      | succ k =>
        rw [getElem?_cons_succ] at hy
        rw [ih hl hy]
        omega
    · have hzero : l.countP (· ≤ x) = 0 := by
        rw [countP_eq_zero]
        intro b hb hbx
        exact hax ((ha b hb).trans (of_decide_eq_true hbx))
      have hay : a ≤ y := by
        rcases mem_cons.mp (mem_of_getElem? hy) with rfl | hmem
        · exact le_rfl
        · exact ha y hmem
      rw [if_neg (by simpa using hax), hzero]
      exact iff_of_false (fun hyx => hax (hay.trans hyx)) (Nat.not_lt_zero k)

/-- **The `k`-th smallest member is at most a bound** if more than `k` members are. -/
theorem nth_le_iff {y : α} (hy : nth l k = some y) (x : α) : y ≤ x ↔ k < l.countP (· ≤ x) := by
  rw [getElem?_le_iff (pairwise_insertionSort (· ≤ ·) l) hy,
    (perm_insertionSort (· ≤ ·) l).countP_eq]

end Astoria.OrderStatistic
