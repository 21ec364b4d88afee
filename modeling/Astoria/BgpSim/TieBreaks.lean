import Astoria.BgpSim.MiniDestination
import Astoria.Library.FirstMin

/-!
# Breaking ties

A node chooses among potential parents by keys: the hash of the node and the parent, or the number
of the parent. `tieBreak` looks for the first parent with the smallest key, and `sortByHashValue`
sorts parents by their keys, so that the first one is the chosen one.

With hashes both can fail.  The search starts from the largest key there is, so that a single parent
with this key is not found; and the sorting goes through a table by keys, which does not take two
parents with the same key.
-/

namespace Astoria

open List
open FirstMin (IsFirstMin)

variable {P : Params} {n : Asn} {l : List Asn}

lemma tieBreak_eq_scan (P : Params) (l : List Asn) (n : Asn) :
    tieBreak P l n = (FirstMin.scan (tieBreakKey P n) (uint32Max, uint32Max) l).2 := rfl

lemma tieBreakKey_le (hl : ∀ i ∈ l, i < 2 ^ 32) {i : Asn} (hi : i ∈ l) :
    tieBreakKey P n i ≤ uint32Max := by
  rw [tieBreakKey]
  split
  · exact Nat.le_pred_of_lt (UInt32.toNat_lt_size _)
  · exact Nat.le_pred_of_lt (hl i hi)

/-- **The search finds the first smallest key**, unless all keys are the largest one there is and
the first parent is not the largest number there is. -/
lemma isFirstMin_tieBreak_iff (hne : l ≠ []) (hl : ∀ i ∈ l, i < 2 ^ 32) :
    IsFirstMin (tieBreakKey P n) l (tieBreak P l n) ↔
      ((∀ i ∈ l, tieBreakKey P n i = uint32Max) → l.head? = some uint32Max) := by
  rw [tieBreak_eq_scan]
  rcases FirstMin.scan_spec (tieBreakKey P n) (uint32Max, uint32Max) l with
    ⟨heq, hall⟩ | ⟨a, heq, ha, hmin⟩
  · rw [heq]
    have hmax : ∀ i ∈ l, tieBreakKey P n i = uint32Max := fun i hi =>
      (tieBreakKey_le hl hi).antisymm (hall i hi)
    constructor
    · intro h _
      exact h.head?_eq fun b hb => (hmax b hb).trans (hmax _ h.mem).symm
    · intro h
      obtain ⟨b, rest, rfl⟩ := exists_cons_of_ne_nil hne
      obtain rfl : b = uint32Max := Option.some.inj (h hmax)
      refine FirstMin.isFirstMin_cons fun b hb => le_of_eq ?_
      rw [hmax _ mem_cons_self, hmax _ (mem_cons_of_mem _ hb)]
  · rw [heq]
    exact iff_of_true hmin fun hmax => absurd (hmax a hmin.mem) ha.ne

lemma sortByHashValue_eq_some_iff {s : List Asn} : sortByHashValue P l n = some s ↔
    (P.hash = true → (l.map (hash6432shift n)).Nodup) ∧
      s = l.insertionSort fun a b => tieBreakKey P n a ≤ tieBreakKey P n b := by
  rw [sortByHashValue]
  split
  · next h => exact iff_of_false nofun fun hs => h.2 (hs.1 h.1)
  · next h =>
    rw [Option.some_inj, eq_comm]
    exact (and_iff_right fun hhash => not_not.mp fun hdup => h ⟨hhash, hdup⟩).symm

lemma sorted_perm (P : Params) (n : Asn) (l : List Asn) :
    (l.insertionSort fun a b => tieBreakKey P n a ≤ tieBreakKey P n b).Perm l :=
      perm_insertionSort _ l

lemma sorted_pairwise (P : Params) (n : Asn) (l : List Asn) :
    (l.insertionSort fun a b => tieBreakKey P n a ≤ tieBreakKey P n b).Pairwise
      fun a b => tieBreakKey P n a ≤ tieBreakKey P n b := by
  have : Std.Total fun a b : Asn => tieBreakKey P n a ≤ tieBreakKey P n b :=
    ⟨fun a b => le_total _ _⟩
  have : IsTrans Asn fun a b => tieBreakKey P n a ≤ tieBreakKey P n b := ⟨fun a b c => le_trans⟩
  exact pairwise_insertionSort _ l

/-- The law of breaking ties: the chosen parent is the first one with the smallest key, and sorting
gives the same parents in the order of their keys, of which the first is the chosen one. -/
def TieBreakLaw (P : Params) (n : Asn) (l : List Asn) : Prop :=
  IsFirstMin (tieBreakKey P n) l (tieBreak P l n) ∧
    ∃ s, sortByHashValue P l n = some s ∧ s.Perm l ∧
      (s.Pairwise fun a b => tieBreakKey P n a ≤ tieBreakKey P n b) ∧
      s.head? = some (tieBreak P s n)

/-- **When the law holds**: ties are not broken by hashes, or no two parents have the same hash and
the parent is not a single one with the largest hash there is. -/
theorem tieBreakLaw_iff (P : Params) (n : Asn) (l : List Asn) (hne : l ≠ [])
    (hl : ∀ i ∈ l, i < 2 ^ 32) :
    TieBreakLaw P n l ↔ (P.hash = true → (l.map (hash6432shift n)).Nodup ∧
      ∀ i, l = [i] → hash6432shift n i = uint32Max → i = uint32Max) := by
  have hkey (hhash : P.hash = true) (i : Asn) : tieBreakKey P n i = hash6432shift n i :=
    if_pos hhash
  have hnumber (hhash : ¬ P.hash = true) (i : Asn) : tieBreakKey P n i = i := if_neg hhash
  constructor
  · rintro ⟨hmin, s, hs, -⟩ hhash
    refine ⟨(sortByHashValue_eq_some_iff.mp hs).1 hhash, ?_⟩
    rintro i rfl hi
    refine Option.some.inj ((isFirstMin_tieBreak_iff hne hl).mp hmin fun j hj => ?_)
    rw [mem_singleton.mp hj, hkey hhash, hi]
  · intro h
    -- of parents with different hashes only a single one has the largest hash
    have hmax (m : List Asn) (hm : m.Perm l) (hall : ∀ i ∈ m, tieBreakKey P n i = uint32Max) :
        m.head? = some uint32Max := by
      obtain ⟨i, rest, rfl⟩ := exists_cons_of_ne_nil fun hnil => hne (nil_perm.mp (hnil ▸ hm))
      by_cases hhash : P.hash = true
      · obtain ⟨hnodup, hsingle⟩ := h hhash
        have hnodup' : ((i :: rest).map (hash6432shift n)).Nodup := (hm.map _).nodup_iff.mpr hnodup
        have hrest : rest = [] := by
          cases rest with
          | nil => rfl
          | cons j rest =>
            rw [map_cons, map_cons, nodup_cons, mem_cons, not_or] at hnodup'
            refine absurd ?_ hnodup'.1.1
            rw [← hkey hhash, ← hkey hhash, hall i mem_cons_self,
              hall j (mem_cons_of_mem _ mem_cons_self)]
        obtain rfl := hrest
        have hi : hash6432shift n i = uint32Max := by rw [← hkey hhash, hall i mem_cons_self]
        rw [head?_cons, hsingle i (perm_singleton.mp hm.symm) hi]
      · rw [head?_cons, ← hnumber hhash i, hall i mem_cons_self]
    refine ⟨(isFirstMin_tieBreak_iff hne hl).mpr (hmax l (Perm.refl l)), _,
      sortByHashValue_eq_some_iff.mpr ⟨fun hhash => (h hhash).1, rfl⟩, sorted_perm P n l,
      sorted_pairwise P n l, ?_⟩
    have hperm := sorted_perm P n l
    have hsorted := sorted_pairwise P n l
    revert hperm hsorted
    generalize (l.insertionSort fun a b => tieBreakKey P n a ≤ tieBreakKey P n b) = s
    intro hperm hsorted
    obtain ⟨a, rest, rfl⟩ := exists_cons_of_ne_nil fun hnil => hne (nil_perm.mp (hnil ▸ hperm))
    have hfirst : IsFirstMin (tieBreakKey P n) (a :: rest) a :=
      FirstMin.isFirstMin_cons (pairwise_cons.mp hsorted).1
    have hsearch :=
      (isFirstMin_tieBreak_iff (cons_ne_nil a rest) fun i hi => hl i (hperm.subset hi)).mpr
        (hmax _ hperm)
    exact congrArg some (hfirst.unique hsearch)

/-- A node that ranks three parents by their hashes. -/
theorem tieBreakLaw_iff_three : TieBreakLaw {} 701 [3356, 174, 1299] := by
  refine (tieBreakLaw_iff {} 701 [3356, 174, 1299] (by decide) (by decide)).mpr fun _ =>
    ⟨by decide, ?_⟩
  intro i hi
  cases hi

/-- A single parent with the largest hash there is is not found. -/
theorem not_tieBreakLaw : ¬ (tieBreak {} [22356] 23819 ∈ [22356]) ∧ ¬ TieBreakLaw {} 23819
    [22356] := by
  have hnot : tieBreak {} [22356] 23819 ∉ [22356] := by decide
  exact ⟨hnot, fun h => hnot h.1.mem⟩

end Astoria
