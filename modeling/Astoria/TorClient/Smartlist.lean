import Mathlib.Data.List.Sort
import Mathlib.Data.String.Basic

/-!
# Lists that are sorted and counted

`smartlist_sort` sorts with a comparison function, in an unknown order of equal members.  Sorted
lists are then gone through for duplicates, for members that occur often and for the most frequent
one.  These functions compare neighbours only.
-/

namespace Astoria

open List

variable {α : Type*}

/-! ### Comparison functions -/

/-- The order of strings and bytes (`strcmp` and `memcmp`). -/
def memcmp [LinearOrder α] (a b : α) : ℤ := if a < b then -1 else if a = b then 0 else 1

/-- The order of strings. -/
def strcmp (a b : String) : ℤ := memcmp a b

/-- A comparison function is a total preorder on the members of a list. -/
structure TotalPreorderOn (compare : α → α → ℤ) (l : List α) : Prop where
  lt_iff : ∀ a ∈ l, ∀ b ∈ l, compare a b < 0 ↔ ¬ compare b a ≤ 0
  trans : ∀ a ∈ l, ∀ b ∈ l, ∀ c ∈ l, compare a b ≤ 0 → compare b c ≤ 0 → compare a c ≤ 0

/-- A correct sorting function (`smartlist_sort`).  The order of equal members is not known. -/
structure SmartlistSort (α : Type*) where
  sort : (α → α → ℤ) → List α → List α
  perm : ∀ compare l, (sort compare l).Perm l
  sorted : ∀ compare l, TotalPreorderOn compare l →
    (sort compare l).Pairwise fun a b => compare a b ≤ 0

/-- Insertion sort is a correct sorting function. -/
def SmartlistSort.insertion (α : Type*) : SmartlistSort α where
  sort compare l := (l.attach.insertionSort fun a b => compare a.1 b.1 ≤ 0).map (·.1)
  perm compare l := by
    have hperm :=
      (perm_insertionSort (fun a b : { x // x ∈ l } => compare a.1 b.1 ≤ 0) l.attach).map (·.1)
    rwa [List.attach_map_subtype_val] at hperm
  sorted compare l h := by
    have : Std.Total fun a b : { x // x ∈ l } => compare a.1 b.1 ≤ 0 :=
      ⟨fun a b => or_iff_not_imp_left.mpr fun hab =>
        Int.le_of_lt ((h.lt_iff b.1 b.2 a.1 a.2).mpr hab)⟩
    have : IsTrans { x // x ∈ l } fun a b => compare a.1 b.1 ≤ 0 :=
      ⟨fun a b c => h.trans a.1 a.2 b.1 b.2 c.1 c.2⟩
    exact pairwise_map.mpr (pairwise_insertionSort _ l.attach)

/-! ### Neighbours -/

/-- Remove adjacent duplicates (`smartlist_uniq_strings`). -/
def smartlistUniqStrings : List String → List String
  | [] => []
  | a :: l => if l.head? = some a then smartlistUniqStrings l else a :: smartlistUniqStrings l

/-- Remove members that equal the one before them (`smartlist_uniq`). -/
def smartlistUniq (compare : α → α → ℤ) : List α → List α
  | [] => []
  | a :: l => go a l
where
  /-- The last member that stays is given. -/
  go (a : α) : List α → List α
    | [] => [a]
    | b :: l => if compare a b = 0 then go a l else a :: go b l

/-- The runs of equal members so far: the most frequent one, and the current one. -/
structure MostFrequent (α : Type*) where
  mostFrequent : Option α
  mostFrequentCount : ℕ
  cur : Option α
  count : ℕ

/-- The current run is compared with the most frequent one. -/
def MostFrequent.close (s : MostFrequent α) : MostFrequent α :=
  if s.cur.isSome ∧ s.mostFrequentCount ≤ s.count then
    { s with mostFrequent := s.cur, mostFrequentCount := s.count }
  else s

/-- One more member: it belongs to the current run or starts a new one. -/
def MostFrequent.next (compare : α → α → ℤ) (s : MostFrequent α) (item : α) : MostFrequent α :=
  if s.cur.any fun cur => decide (compare cur item = 0) then { s with count := s.count + 1 }
  else { s.close with cur := some item, count := 1 }

/-- The most frequent member of a sorted list, and the last one if there are several
(`smartlist_get_most_frequent`). -/
def smartlistGetMostFrequent (compare : α → α → ℤ) (l : List α) : Option α :=
  (l.foldl (MostFrequent.next compare) ⟨none, 0, none, 0⟩).close.mostFrequent

/-- The runs are of members with a property. -/
def MostFrequent.All (P : α → Prop) (s : MostFrequent α) : Prop :=
  (∀ x ∈ s.mostFrequent, P x) ∧ ∀ x ∈ s.cur, P x

lemma MostFrequent.All.close {P : α → Prop} {s : MostFrequent α} (h : s.All P) : s.close.All P := by
  unfold MostFrequent.close
  split_ifs
  · exact ⟨h.2, h.2⟩
  · exact h

/-- One more member with the property keeps this. -/
lemma MostFrequent.All.next {P : α → Prop} {s : MostFrequent α} (h : s.All P) (compare : α → α → ℤ)
    {item : α} (hitem : P item) : (s.next compare item).All P := by
  unfold MostFrequent.next
  split_ifs
  · exact h
  · refine ⟨h.close.1, ?_⟩
    rintro x hx
    obtain rfl := Option.some.inj hx
    exact hitem

lemma mem_of_getMostFrequent {compare : α → α → ℤ} {l : List α} {x : α}
    (h : smartlistGetMostFrequent compare l = some x) : x ∈ l := by
  have hfold : ∀ (l' : List α) (s : MostFrequent α), (∀ y ∈ l', y ∈ l) → s.All (· ∈ l) →
      (l'.foldl (MostFrequent.next compare) s).All (· ∈ l) := by
    intro l'
    induction l' with
    | nil => exact fun s _ hs => hs
    | cons a l' ih =>
      intro s hl' hs
      exact ih _ (fun y hy => hl' y (mem_cons_of_mem a hy))
        (hs.next compare (hl' a mem_cons_self))
  have hall := hfold l ⟨none, 0, none, 0⟩ (fun _ hy => hy) ⟨by simp, by simp⟩
  exact hall.close.1 x h

/-- The members of a sorted list of strings that occur more than so many times
(`get_frequent_members`). -/
def getFrequentMembers (l : List String) (min : ℕ) : List String := go l none 0
where
  /-- The current run is given. -/
  go : List String → Option String → ℕ → List String
    | [], cur, count => if min < count then cur.toList else []
    | cp :: rest, cur, count =>
      if cur = some cp then go rest cur (count + 1)
      else if min < count then cur.toList ++ go rest (some cp) 1
      else go rest (some cp) 1

example : getFrequentMembers ["a", "b", "b", "c", "c", "c"] 1 = ["b", "c"] := by decide

/-! ### Removing -/

/-- The loop of `smartlist_remove` over the members that it has still to look at: the last member
comes in the place of one that is removed, and is looked at next. -/
def smartlistRemoveLoop [DecidableEq α] (element : α) : ℕ → List α → List α
  | 0, rest => rest
  | _ + 1, [] => []
  | n + 1, x :: rest =>
    if x = element then
      smartlistRemoveLoop element n (rest.getLast?.elim [] fun last => last :: rest.dropLast)
    else x :: smartlistRemoveLoop element n rest

/-- Remove a member everywhere (`smartlist_remove`). -/
def smartlistRemove [DecidableEq α] (l : List α) (element : α) : List α :=
  smartlistRemoveLoop element l.length l

/-- **Removing keeps the other members**, in some order. -/
lemma smartlistRemove_perm [DecidableEq α] (l : List α) (element : α) :
    (smartlistRemove l element).Perm (l.filter (· ≠ element)) := by
  have hloop (n : ℕ) (rest : List α) (hn : rest.length ≤ n) :
      (smartlistRemoveLoop element n rest).Perm (rest.filter (· ≠ element)) := by
    induction n generalizing rest with
    | zero =>
      obtain rfl := length_eq_zero_iff.mp (Nat.le_zero.mp hn)
      exact .nil
    | succ n ih =>
      cases rest with
      | nil => exact .nil
      | cons x rest =>
        rw [length_cons, Nat.succ_le_succ_iff] at hn
        rw [smartlistRemoveLoop]
        split
        · next hx =>
          rw [filter_cons_of_neg (by simp [hx])]
          cases hlast : rest.getLast? with
          | none =>
            obtain rfl := getLast?_eq_none_iff.mp hlast
            exact ih [] (Nat.zero_le n)
          | some last =>
            have hmove : (last :: rest.dropLast).Perm rest := by
              conv_rhs => rw [← dropLast_append_getLast? last hlast]
              exact (perm_append_singleton last rest.dropLast).symm
            exact (ih _ (hmove.length_eq.trans_le hn)).trans (hmove.filter _)
        · next hx =>
          rw [filter_cons_of_pos (by simp [hx])]
          exact (ih rest hn).cons x
  exact hloop l.length l (le_refl _)

lemma count_smartlistRemove [DecidableEq α] (l : List α) (element x : α) :
    (smartlistRemove l element).count x = if x = element then 0 else l.count x := by
  rw [(smartlistRemove_perm l element).count_eq]
  split
  · next hx => exact count_eq_zero_of_not_mem fun hmem => by simp [hx] at hmem
  · next hx => exact count_filter (by simp [hx])

end Astoria
