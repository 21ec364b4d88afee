import Astoria.Library.BinaryHeap
import Astoria.Library.Runs
import Mathlib.Data.Finset.Image

/-!
# Priority queues

The priority queues on smartlists: a binary heap in an array, whose items store their own index, so
that an item can be removed from any place.  The items are compared by a function whose result is
negative, zero or positive.

Adding moves the new item towards the root, and popping moves the last item, put in the place of the
root, away from it.  Removing does the same at the place of the item.  There the last item can come
before the parent of the place, and the order is lost: `pqueue_ok` says that this is the only way.
-/

namespace Astoria

open List Option
open Function

/-! ### The operations -/

/-- A smartlist with the indices that are stored in the items. -/
structure Pqueue (α : Type*) where
  list : ℕ → α
  /-- The number of its entries that are in use. -/
  numUsed : ℕ
  /-- The indices stored in the items. -/
  index : α → ℤ

section Operations

variable {α : Type*} [DecidableEq α]

/-- Exchange two entries and store their new indices. -/
def Pqueue.exchange (s : Pqueue α) (i j : ℕ) : Pqueue α :=
  { s with
    list := update (update s.list i (s.list j)) j (s.list i)
    index := update (update s.index (s.list j) i) (s.list i) j }

/-- The first of an item and its children, of which there is at least one. -/
def bestIdx (compare : α → α → ℤ) (s : Pqueue α) (idx : ℕ) : ℕ :=
  let left := 2 * idx + 1
  let best := if compare (s.list idx) (s.list left) < 0 then idx else left
  if left + 1 < s.numUsed ∧ compare (s.list (left + 1)) (s.list best) < 0 then left + 1 else best

/-- Move an item away from the root, in as many rounds as there are entries. -/
def smartlistHeapify (compare : α → α → ℤ) : ℕ → Pqueue α → ℕ → Pqueue α
  | 0, s, _ => s
  | fuel + 1, s, idx =>
    if s.numUsed ≤ 2 * idx + 1 then s
    else if bestIdx compare s idx = idx then s
    else smartlistHeapify compare fuel (s.exchange idx (bestIdx compare s idx))
      (bestIdx compare s idx)

/-- Move an item towards the root. -/
def moveUp (compare : α → α → ℤ) : ℕ → Pqueue α → ℕ → Pqueue α
  | 0, s, _ => s
  | fuel + 1, s, idx =>
    if idx = 0 then s
    else if compare (s.list idx) (s.list (BinaryHeap.parent idx)) < 0 then
      moveUp compare fuel (s.exchange (BinaryHeap.parent idx) idx) (BinaryHeap.parent idx)
    else s

def smartlistPqueueAdd (compare : α → α → ℤ) (s : Pqueue α) (item : α) : Pqueue α :=
  moveUp compare s.numUsed
    { list := update s.list s.numUsed item
      numUsed := s.numUsed + 1
      index := update s.index item s.numUsed } s.numUsed

/-- Put the last entry, which is no longer in use, in the place of another one. -/
def Pqueue.replaceByLast (s : Pqueue α) (idx : ℕ) : Pqueue α :=
  { s with
    list := update s.list idx (s.list s.numUsed)
    index := update s.index (s.list s.numUsed) idx }

/-- Remove the first item, which must exist, and return it. -/
def smartlistPqueuePop (compare : α → α → ℤ) (s : Pqueue α) : Option (Pqueue α × α) :=
  if s.numUsed = 0 then none
  else
    let top := s.list 0
    let s := { s with index := update s.index top (-1), numUsed := s.numUsed - 1 }
    if s.numUsed = 0 then some (s, top)
    else some (smartlistHeapify compare s.numUsed (s.replaceByLast 0) 0, top)

/-- Remove an item, whose index must be valid. -/
def smartlistPqueueRemove (compare : α → α → ℤ) (s : Pqueue α) (item : α) : Option (Pqueue α) :=
  let idx := (s.index item).toNat
  if s.index item < 0 ∨ s.list idx ≠ item then none
  else
    let s := { s with index := update s.index item (-1), numUsed := s.numUsed - 1 }
    if idx = s.numUsed then some s
    else some (smartlistHeapify compare s.numUsed (s.replaceByLast idx) idx)

/-- The assertions about a queue, from its last entry on. -/
def smartlistPqueueAssertOk (compare : α → α → ℤ) (s : Pqueue α) : Bool :=
  (range s.numUsed).reverse.all fun i =>
    (i = 0 || compare (s.list (BinaryHeap.parent i)) (s.list i) ≤ 0) && s.index (s.list i) = i

inductive PqueueCall (α : Type*)
  | add (item : α)
  /-- Remove the first item. -/
  | pop
  | remove (item : α)

/-- A call, with the item that it returns. -/
def pqueueCall (compare : α → α → ℤ) (s : Pqueue α) : PqueueCall α → Option (Pqueue α × Option α)
  | .add item => some (smartlistPqueueAdd compare s item, none)
  | .pop => (smartlistPqueuePop compare s).map fun r => (r.1, some r.2)
  | .remove item => (smartlistPqueueRemove compare s item).map fun s' => (s', none)

/-- The items in a queue. -/
def Pqueue.contents (s : Pqueue α) : Finset α := (Finset.range s.numUsed).image s.list

end Operations

/-! ### Queues in order -/

/-- The comparison function of a total preorder. -/
structure TotalPreorder {α : Type*} (compare : α → α → ℤ) : Prop where
  lt_iff : ∀ a b, compare a b < 0 ↔ ¬ compare b a ≤ 0
  trans : ∀ a b c, compare a b ≤ 0 → compare b c ≤ 0 → compare a c ≤ 0

/-- A queue is a heap and its items store their indices. -/
structure Pqueue.Ok {α : Type*} (compare : α → α → ℤ) (s : Pqueue α) : Prop where
  /-- No item comes before its parent. -/
  ordered : BinaryHeap.Ordered (fun a b => compare a b ≤ 0) s.numUsed s.list
  /-- Every item stores its index. -/
  index_eq : ∀ i < s.numUsed, s.index (s.list i) = i

section Order

variable {α : Type*} {compare : α → α → ℤ}

lemma TotalPreorder.refl (h : TotalPreorder compare) (a : α) : compare a a ≤ 0 := by
  by_contra hgt
  have := (h.lt_iff a a).2 hgt
  omega

lemma TotalPreorder.le_of_not_lt (h : TotalPreorder compare) {a b : α} (hlt : ¬ compare a b < 0) :
    compare b a ≤ 0 := by
  by_contra hgt
  exact hlt ((h.lt_iff a b).2 hgt)

/-- The assertions hold for a queue in order. -/
lemma Pqueue.Ok.assertOk {s : Pqueue α} (h : s.Ok compare) :
    smartlistPqueueAssertOk compare s = true := by
  rw [smartlistPqueueAssertOk, List.all_eq_true]
  intro i hi
  rw [mem_reverse, mem_range] at hi
  rw [Bool.and_eq_true, Bool.or_eq_true, decide_eq_true_eq, decide_eq_true_eq, decide_eq_true_eq]
  refine ⟨?_, h.index_eq i hi⟩
  rcases Nat.eq_zero_or_pos i with hzero | hpos
  · exact .inl hzero
  · exact .inr (h.ordered i hpos hi)

end Order

/-! ### Items and their indices

What is said here does not depend on how the items are compared.
-/

section Indexed

variable {α : Type*} {compare : α → α → ℤ} {s s' : Pqueue α} {item : α} {i j n idx : ℕ}

/-- Every item stores its index. -/
def Pqueue.Indexed (s : Pqueue α) : Prop := ∀ i < s.numUsed, s.index (s.list i) = i

lemma Pqueue.Indexed.injective (h : s.Indexed) (hi : i < s.numUsed) (hj : j < s.numUsed)
    (heq : s.list i = s.list j) : i = j := by
  have hindex := h i hi
  rw [heq, h j hj] at hindex
  omega

lemma Pqueue.Ok.injective (h : s.Ok compare) (hi : i < s.numUsed) (hj : j < s.numUsed)
    (heq : s.list i = s.list j) : i = j :=
  Pqueue.Indexed.injective h.index_eq hi hj heq

lemma lt_bestIdx (hleft : 2 * idx + 1 < s.numUsed) (hne : bestIdx compare s idx ≠ idx) :
    idx < bestIdx compare s idx ∧ bestIdx compare s idx < s.numUsed := by
  unfold bestIdx at hne ⊢
  dsimp only at hne ⊢
  split_ifs at hne ⊢ <;> omega

variable [DecidableEq α]

lemma Pqueue.mem_contents {x : α} : x ∈ s.contents ↔ ∃ i < s.numUsed, s.list i = x := by
  simp [Pqueue.contents]

lemma Pqueue.list_exchange (s : Pqueue α) (i j : ℕ) :
    (s.exchange i j).list = s.list ∘ Equiv.swap i j := by
  funext k
  rw [Pqueue.exchange, comp_apply]
  dsimp only
  by_cases hkj : k = j
  · rw [hkj, update_self, Equiv.swap_apply_right]
  · rw [update_of_ne hkj]
    by_cases hki : k = i
    · rw [hki, update_self, Equiv.swap_apply_left]
    · rw [update_of_ne hki, Equiv.swap_apply_of_ne_of_ne hki hkj]

/-- An exchange of entries that are in use keeps the items. -/
lemma Pqueue.contents_exchange (hi : i < s.numUsed) (hj : j < s.numUsed) :
    (s.exchange i j).contents = s.contents := by
  have hswap : ∀ k < s.numUsed, Equiv.swap i j k < s.numUsed := by
    intro k hk
    rw [Equiv.swap_apply_def]
    split_ifs <;> assumption
  ext x
  rw [mem_contents, mem_contents, list_exchange]
  constructor
  · rintro ⟨k, hk, rfl⟩
    exact ⟨Equiv.swap i j k, hswap k hk, rfl⟩
  · rintro ⟨k, hk, rfl⟩
    refine ⟨Equiv.swap i j k, hswap k hk, ?_⟩
    rw [comp_apply, Equiv.swap_apply_self]

lemma Pqueue.index_exchange_of_notMem (hi : i < s.numUsed) (hj : j < s.numUsed) {x : α}
    (hx : x ∉ s.contents) : (s.exchange i j).index x = s.index x := by
  have hne : ∀ k < s.numUsed, x ≠ s.list k := fun k hk heq =>
    hx (mem_contents.mpr ⟨k, hk, heq.symm⟩)
  rw [Pqueue.exchange]
  dsimp only
  rw [update_of_ne (hne i hi), update_of_ne (hne j hj)]

lemma Pqueue.list_mem_contents (hi : i < s.numUsed) : s.list i ∈ s.contents :=
  Pqueue.mem_contents.mpr ⟨i, hi, rfl⟩

/-- An exchange stores the new indices. -/
lemma Pqueue.Indexed.exchange (h : s.Indexed) (hi : i < s.numUsed) (hj : j < s.numUsed)
    (hij : i ≠ j) : (s.exchange i j).Indexed := by
  intro k hk
  rw [list_exchange, comp_apply, Pqueue.exchange]
  dsimp only
  by_cases hkj : k = j
  · rw [hkj, Equiv.swap_apply_right, update_self]
  · by_cases hki : k = i
    · rw [hki, Equiv.swap_apply_left, update_of_ne fun heq => hij (h.injective hj hi heq).symm,
        update_self]
    · rw [Equiv.swap_apply_of_ne_of_ne hki hkj,
        update_of_ne fun heq => hki (h.injective hk hi heq),
        update_of_ne fun heq => hkj (h.injective hk hj heq)]
      exact h k hk

/-- A queue after exchanges of entries that are in use. -/
inductive Pqueue.Exchanged : Pqueue α → Pqueue α → Prop
  /-- Nothing is exchanged. -/
  | refl (s : Pqueue α) : Exchanged s s
  /-- Two entries are exchanged, and others after them. -/
  | exchange {s s' : Pqueue α} {i j : ℕ} (hi : i < s.numUsed) (hj : j < s.numUsed) (hij : i ≠ j)
      (h : Exchanged (s.exchange i j) s') : Exchanged s s'

/-- Exchanges keep the items and store the indices of no others. -/
lemma Pqueue.Exchanged.keeps (h : s.Exchanged s') :
    s'.numUsed = s.numUsed ∧ s'.contents = s.contents ∧ (s.Indexed → s'.Indexed) ∧
    ∀ x, x ∉ s.contents → s'.index x = s.index x := by
  induction h with
  | refl s => exact ⟨rfl, rfl, fun h => h, fun _ _ => rfl⟩
  | exchange hi hj hij _ ih =>
    obtain ⟨hnum, hcont, hindexed, hindex⟩ := ih
    have hexchange := contents_exchange hi hj
    exact ⟨hnum, hcont.trans hexchange, fun h => hindexed (h.exchange hi hj hij), fun x hx =>
      (hindex x (hexchange ▸ hx)).trans (index_exchange_of_notMem hi hj hx)⟩

/-- Moving an item towards the root exchanges entries. -/
lemma exchanged_moveUp (compare : α → α → ℤ) (fuel : ℕ) (hidx : idx < s.numUsed) :
    s.Exchanged (moveUp compare fuel s idx) := by
  induction fuel generalizing s idx with
  | zero => exact .refl s
  | succ fuel ih =>
    unfold moveUp
    split_ifs with hzero
    · exact .refl s
    · have hp := BinaryHeap.parent_lt (Nat.pos_of_ne_zero hzero)
      have hpn : BinaryHeap.parent idx < s.numUsed := by omega
      exact .exchange hpn hidx (by omega) (ih hpn)
    · exact .refl s

/-- Moving an item away from the root exchanges entries. -/
lemma exchanged_smartlistHeapify (compare : α → α → ℤ) (fuel : ℕ) (hidx : idx < s.numUsed) :
    s.Exchanged (smartlistHeapify compare fuel s idx) := by
  induction fuel generalizing s idx with
  | zero => exact .refl s
  | succ fuel ih =>
    unfold smartlistHeapify
    split_ifs with hleaf hstop
    · exact .refl s
    · exact .refl s
    · obtain ⟨hlt, hbn⟩ := lt_bestIdx (s := s) (by omega) hstop
      exact .exchange hidx hbn (by omega) (ih hbn)

/-- An item is put behind the others. -/
lemma Pqueue.Indexed.append (h : s.Indexed) (hitem : item ∉ s.contents) :
    Pqueue.Indexed ⟨update s.list s.numUsed item, s.numUsed + 1,
        update s.index item s.numUsed⟩ ∧
      Pqueue.contents ⟨update s.list s.numUsed item, s.numUsed + 1,
        update s.index item s.numUsed⟩ = insert item s.contents := by
  have hne : ∀ i < s.numUsed, s.list i ≠ item :=
    fun i hi heq => hitem (Pqueue.mem_contents.mpr ⟨i, hi, heq⟩)
  constructor
  · intro i hi
    dsimp only at hi ⊢
    by_cases hin : i = s.numUsed
    · rw [hin, update_self, update_self]
    · have hlt : i < s.numUsed := by omega
      rw [update_of_ne hin, update_of_ne (hne i hlt)]
      exact h i hlt
  · ext x
    rw [Finset.mem_insert, Pqueue.mem_contents, Pqueue.mem_contents]
    constructor
    · rintro ⟨i, hi, rfl⟩
      dsimp only at hi ⊢
      by_cases hin : i = s.numUsed
      · rw [hin, update_self]
        exact .inl rfl
      · rw [update_of_ne hin]
        exact .inr ⟨i, by omega, rfl⟩
    · rintro (rfl | ⟨i, hi, rfl⟩)
      · exact ⟨s.numUsed, Nat.lt_succ_self _, update_self _ _ _⟩
      · exact ⟨i, Nat.lt_succ_of_lt hi, update_of_ne (by omega) _ _⟩

/-- The last item is no longer in use. -/
lemma Pqueue.Indexed.dropLast (h : s.Indexed) (hn : s.numUsed = n + 1) :
    Pqueue.Indexed ⟨s.list, n, update s.index (s.list n) (-1)⟩ ∧
      Pqueue.contents ⟨s.list, n, update s.index (s.list n) (-1)⟩ =
        s.contents.erase (s.list n) := by
  refine ⟨fun i hi => ?_, ?_⟩
  · dsimp only at hi ⊢
    rw [update_of_ne fun heq => ?_]
    · exact h i (by omega)
    · have := h.injective (by omega) (by omega) heq
      omega
  · ext x
    rw [Finset.mem_erase, Pqueue.mem_contents, Pqueue.mem_contents]
    dsimp only
    constructor
    · rintro ⟨i, hi, rfl⟩
      refine ⟨fun heq => ?_, i, by omega, rfl⟩
      have := h.injective (by omega) (by omega) heq
      omega
    · rintro ⟨hne, i, hi, rfl⟩
      refine ⟨i, ?_, rfl⟩
      have : i ≠ n := fun heq => hne (by rw [heq])
      omega

lemma Pqueue.Indexed.replaceByLast (h : s.Indexed) (hn : s.numUsed = n + 1) (hidx : idx < n) :
    (Pqueue.replaceByLast ⟨s.list, n, update s.index (s.list idx) (-1)⟩ idx).Indexed ∧
      (Pqueue.replaceByLast ⟨s.list, n, update s.index (s.list idx) (-1)⟩ idx).contents =
        s.contents.erase (s.list idx) := by
  constructor
  · intro i hi
    dsimp only [Pqueue.replaceByLast] at hi ⊢
    by_cases hii : i = idx
    · rw [hii, update_self, update_self]
    · rw [update_of_ne hii, update_of_ne fun heq => ?_,
        update_of_ne fun heq => hii (h.injective (by omega) (by omega) heq)]
      · exact h i (by omega)
      · have := h.injective (by omega) (by omega) heq
        omega
  · ext x
    rw [Finset.mem_erase, Pqueue.mem_contents, Pqueue.mem_contents]
    dsimp only [Pqueue.replaceByLast]
    constructor
    · rintro ⟨i, hi, rfl⟩
      by_cases hii : i = idx
      · rw [hii, update_self]
        refine ⟨fun heq => ?_, n, by omega, rfl⟩
        have := h.injective (by omega) (by omega) heq
        omega
      · rw [update_of_ne hii]
        exact ⟨fun heq => hii (h.injective (by omega) (by omega) heq), i, by omega, rfl⟩
    · rintro ⟨hne, i, hi, rfl⟩
      by_cases hin : i = n
      · exact ⟨idx, hidx, by rw [hin, update_self]⟩
      · have hii : i ≠ idx := fun heq => hne (by rw [heq])
        exact ⟨i, by omega, update_of_ne hii _ _⟩

/-- **An item is added** that is not in the queue. -/
lemma Pqueue.Indexed.add (h : s.Indexed) (compare : α → α → ℤ) (hitem : item ∉ s.contents) :
    (smartlistPqueueAdd compare s item).Indexed ∧
      (smartlistPqueueAdd compare s item).numUsed = s.numUsed + 1 ∧
      (smartlistPqueueAdd compare s item).contents = insert item s.contents := by
  obtain ⟨happend, hcont⟩ := h.append hitem
  obtain ⟨hnum, hcont', hindexed, -⟩ :=
    (exchanged_moveUp compare s.numUsed (s := ⟨update s.list s.numUsed item, s.numUsed + 1,
      update s.index item s.numUsed⟩) (Nat.lt_succ_self s.numUsed)).keeps
  exact ⟨hindexed happend, hnum, hcont'.trans hcont⟩

/-- Adding an item stores no indices for others outside the queue. -/
lemma index_smartlistPqueueAdd_of_notMem (h : s.Indexed) (compare : α → α → ℤ)
    (hitem : item ∉ s.contents) {x : α} (hx : x ∉ s.contents) (hne : x ≠ item) :
    (smartlistPqueueAdd compare s item).index x = s.index x := by
  obtain ⟨-, hcont⟩ := h.append hitem
  obtain ⟨-, -, -, hindex⟩ :=
    (exchanged_moveUp compare s.numUsed (s := ⟨update s.list s.numUsed item, s.numUsed + 1,
      update s.index item s.numUsed⟩) (Nat.lt_succ_self s.numUsed)).keeps
  have hout : x ∉ insert item s.contents := fun hmem => (Finset.mem_insert.mp hmem).elim hne hx
  exact (hindex x (hcont ▸ hout)).trans (update_of_ne hne _ _)

/-- A queue whose item at an index is removed: the last one takes its place and is moved away from
the root. -/
def Pqueue.removeAt (compare : α → α → ℤ) (s : Pqueue α) (n idx : ℕ) : Pqueue α :=
  let s := ⟨s.list, n, update s.index (s.list idx) (-1)⟩
  if idx = n then s else smartlistHeapify compare n (s.replaceByLast idx) idx

lemma smartlistPqueuePop_eq (compare : α → α → ℤ) (hn : s.numUsed = n + 1) :
    smartlistPqueuePop compare s = some (s.removeAt compare n 0, s.list 0) := by
  unfold smartlistPqueuePop Pqueue.removeAt
  rw [if_neg (by omega)]
  dsimp only
  rw [hn, Nat.add_sub_cancel]
  split_ifs <;> first | rfl | omega

lemma smartlistPqueueRemove_eq (h : s.Indexed) (compare : α → α → ℤ) (hn : s.numUsed = n + 1)
    (hidx : idx ≤ n) :
    smartlistPqueueRemove compare s (s.list idx) = some (s.removeAt compare n idx) := by
  unfold smartlistPqueueRemove Pqueue.removeAt
  dsimp only
  rw [h idx (by omega), Int.toNat_natCast, if_neg (by simp), hn, Nat.add_sub_cancel]
  split_ifs <;> rfl

/-- **An item is removed from its place**: it has no index any longer, and the indices that are
stored outside the queue are kept. -/
lemma Pqueue.Indexed.removeAt (h : s.Indexed) (compare : α → α → ℤ) (hn : s.numUsed = n + 1)
    (hidx : idx ≤ n) :
    (s.removeAt compare n idx).Indexed ∧ (s.removeAt compare n idx).numUsed = n ∧
      (s.removeAt compare n idx).contents = s.contents.erase (s.list idx) ∧
      (s.removeAt compare n idx).index (s.list idx) = -1 ∧
      ∀ x, x ∉ s.contents → (s.removeAt compare n idx).index x = s.index x := by
  have hmem : s.list idx ∈ s.contents := Pqueue.list_mem_contents (by omega)
  have hne : ∀ x, x ∉ s.contents → x ≠ s.list idx := fun x hx heq => hx (heq ▸ hmem)
  unfold Pqueue.removeAt
  by_cases hlast : idx = n
  · subst hlast
    obtain ⟨hindexed, hcont⟩ := h.dropLast hn
    rw [if_pos rfl]
    exact ⟨hindexed, rfl, hcont, update_self _ _ _, fun x hx => update_of_ne (hne x hx) _ _⟩
  · have hlt : idx < n := by omega
    obtain ⟨hreplaced, hcont⟩ := h.replaceByLast hn hlt
    obtain ⟨hnum, hcont', hindexed, hindex⟩ := (exchanged_smartlistHeapify compare n (s :=
      Pqueue.replaceByLast ⟨s.list, n, update s.index (s.list idx) (-1)⟩ idx) hlt).keeps
    rw [if_neg hlast]
    -- the last item takes the place of the removed one, which is not in the queue any longer
    have hout : ∀ x, x ∉ s.contents.erase (s.list idx) → (smartlistHeapify compare n
        (Pqueue.replaceByLast ⟨s.list, n, update s.index (s.list idx) (-1)⟩ idx) idx).index x =
        update s.index (s.list idx) (-1) x := by
      intro x hx
      refine (hindex x (hcont ▸ hx)).trans (update_of_ne (fun heq => hx ?_) _ _)
      rw [heq]
      have hn' : n < s.numUsed := by omega
      exact Finset.mem_erase.mpr ⟨fun heq => hlast (h.injective (hlt.trans hn') hn' heq.symm),
        Pqueue.list_mem_contents hn'⟩
    refine ⟨hindexed hreplaced, hnum, hcont'.trans hcont, ?_, fun x hx => ?_⟩
    · rw [hout _ (Finset.notMem_erase _ _), update_self]
    · rw [hout x fun hmem' => hx (Finset.mem_of_mem_erase hmem'), update_of_ne (hne x hx)]

/-- **An item is popped** if there is one. -/
lemma Pqueue.Indexed.exists_pop (h : s.Indexed) (compare : α → α → ℤ) (hn : s.numUsed = n + 1) :
    ∃ s' top, smartlistPqueuePop compare s = some (s', top) ∧ top ∈ s.contents ∧ s'.Indexed ∧
      s'.numUsed = n ∧ s'.contents = s.contents.erase top := by
  obtain ⟨hindexed, hnum, hcont, -⟩ := h.removeAt compare hn (Nat.zero_le n)
  exact ⟨_, _, smartlistPqueuePop_eq compare hn, Pqueue.list_mem_contents (by omega), hindexed,
    hnum, hcont⟩

/-- **An item is removed** that is in the queue. -/
lemma Pqueue.Indexed.exists_remove (h : s.Indexed) (compare : α → α → ℤ)
    (hitem : item ∈ s.contents) :
    ∃ s', smartlistPqueueRemove compare s item = some s' ∧ s'.Indexed ∧
      s'.numUsed + 1 = s.numUsed ∧ s'.contents = s.contents.erase item ∧ s'.index item = -1 ∧
      ∀ x, x ∉ s.contents → s'.index x = s.index x := by
  obtain ⟨idx, hidx, rfl⟩ := Pqueue.mem_contents.mp hitem
  obtain ⟨n, hn⟩ := Nat.exists_eq_succ_of_ne_zero (show s.numUsed ≠ 0 by omega)
  obtain ⟨hindexed, hnum, hcont⟩ := h.removeAt compare hn (show idx ≤ n by omega)
  exact ⟨_, smartlistPqueueRemove_eq h compare hn (by omega), hindexed, by omega, hcont⟩

end Indexed

/-! ### Moving an item -/

section Moving

variable {α : Type*} {compare : α → α → ℤ} {s : Pqueue α}

lemma leftBest_spec (hc : TotalPreorder compare) (s : Pqueue α) (idx : ℕ) :
    compare (s.list (if compare (s.list idx) (s.list (2 * idx + 1)) < 0 then idx else 2 * idx + 1))
        (s.list idx) ≤ 0 ∧
      compare
        (s.list (if compare (s.list idx) (s.list (2 * idx + 1)) < 0 then idx else 2 * idx + 1))
        (s.list (2 * idx + 1)) ≤ 0 := by
  split_ifs with hlt
  · exact ⟨hc.refl _, le_of_lt hlt⟩
  · exact ⟨hc.le_of_not_lt hlt, hc.refl _⟩

/-- The first of an item and its children. -/
lemma bestIdx_spec (hc : TotalPreorder compare) {idx : ℕ} (hleft : 2 * idx + 1 < s.numUsed) :
    (bestIdx compare s idx = idx ∨
      bestIdx compare s idx < s.numUsed ∧ 0 < bestIdx compare s idx ∧
        BinaryHeap.parent (bestIdx compare s idx) = idx) ∧
    compare (s.list (bestIdx compare s idx)) (s.list idx) ≤ 0 ∧
    ∀ i, 0 < i → i < s.numUsed → BinaryHeap.parent i = idx →
      compare (s.list (bestIdx compare s idx)) (s.list i) ≤ 0 := by
  obtain ⟨hself, hl⟩ := leftBest_spec hc s idx
  have hbest : (if compare (s.list idx) (s.list (2 * idx + 1)) < 0 then idx else 2 * idx + 1) =
      idx ∨ (if compare (s.list idx) (s.list (2 * idx + 1)) < 0 then idx else 2 * idx + 1) =
        2 * idx + 1 := by
    split_ifs
    · exact .inl rfl
    · exact .inr rfl
  unfold bestIdx
  dsimp only
  generalize (if compare (s.list idx) (s.list (2 * idx + 1)) < 0 then idx else 2 * idx + 1) = best
    at hself hl hbest ⊢
  split_ifs with hright
  · -- the second child comes before the first of the other two
    obtain ⟨hn, hlt⟩ := hright
    refine ⟨.inr ⟨hn, by omega, BinaryHeap.parent_right idx⟩,
      hc.trans _ _ _ (le_of_lt hlt) hself, fun i hi hin hp => ?_⟩
    rcases BinaryHeap.eq_of_parent_eq hi hp with rfl | rfl
    · exact hc.trans _ _ _ (le_of_lt hlt) hl
    · exact hc.refl _
  · refine ⟨?_, hself, fun i hi hin hp => ?_⟩
    · rcases hbest with hbest | hbest
      · exact .inl hbest
      · rw [hbest]
        exact .inr ⟨hleft, by omega, BinaryHeap.parent_left idx⟩
    · rcases BinaryHeap.eq_of_parent_eq hi hp with rfl | rfl
      · exact hl
      · exact hc.le_of_not_lt fun hlt => hright ⟨hin, hlt⟩

variable [DecidableEq α]

/-- Moving an item towards the root restores the order. -/
lemma ordered_moveUp (hc : TotalPreorder compare) {fuel idx : ℕ} (hfuel : idx ≤ fuel)
    (hidx : idx < s.numUsed)
    (horder : BinaryHeap.UpOrder (fun a b => compare a b ≤ 0) s.numUsed s.list idx) :
    BinaryHeap.Ordered (fun a b => compare a b ≤ 0) s.numUsed (moveUp compare fuel s idx).list := by
  induction fuel generalizing s idx with
  | zero => exact horder.ordered fun h => absurd h (by omega)
  | succ fuel ih =>
    unfold moveUp
    split_ifs with hzero hlt
    · exact horder.ordered fun h => absurd h (by omega)
    · have hpos : 0 < idx := Nat.pos_of_ne_zero hzero
      have hp := BinaryHeap.parent_lt hpos
      have hup := horder.swap hc.trans hpos hidx (le_of_lt hlt)
      rw [Equiv.swap_comm, ← Pqueue.list_exchange] at hup
      exact ih (s := s.exchange (BinaryHeap.parent idx) idx) (by omega) (hp.trans hidx) hup
    · exact horder.ordered fun _ => hc.le_of_not_lt hlt

/-- Moving an item away from the root restores the order. -/
lemma ordered_smartlistHeapify (hc : TotalPreorder compare) {fuel idx : ℕ}
    (hfuel : s.numUsed ≤ idx + fuel) (hidx : idx < s.numUsed)
    (horder : BinaryHeap.DownOrder (fun a b => compare a b ≤ 0) s.numUsed s.list idx) :
    BinaryHeap.Ordered (fun a b => compare a b ≤ 0) s.numUsed
      (smartlistHeapify compare fuel s idx).list := by
  induction fuel generalizing s idx with
  | zero => omega
  | succ fuel ih =>
    unfold smartlistHeapify
    split_ifs with hleaf hstop
    · refine horder.ordered fun i hi hin hp => ?_
      have := BinaryHeap.eq_of_parent_eq hi hp
      omega
    · obtain ⟨-, -, hmin⟩ := bestIdx_spec hc (Nat.lt_of_not_le hleaf)
      rw [hstop] at hmin
      exact horder.ordered hmin
    · obtain ⟨hchild, hle, hmin⟩ := bestIdx_spec hc (Nat.lt_of_not_le hleaf)
      obtain ⟨hbn, hbpos, hbp⟩ := hchild.resolve_left hstop
      have hlt := BinaryHeap.parent_lt hbpos
      have hdown := horder.swap hbpos hbn hbp hmin hle
      rw [← Pqueue.list_exchange] at hdown
      exact ih (s := s.exchange idx (bestIdx compare s idx)) (show s.numUsed ≤ _ by omega) hbn hdown

end Moving

/-! ### Comparisons that agree -/

section Agree

variable {α : Type*} {compare compare' : α → α → ℤ} {s : Pqueue α}

/-- Two comparisons that agree on the items. -/
def Pqueue.Agree [DecidableEq α] (compare compare' : α → α → ℤ) (s : Pqueue α) : Prop :=
  ∀ x ∈ s.contents, ∀ y ∈ s.contents, compare x y = compare' x y

variable [DecidableEq α]

/-- The first of an item and its children is the same. -/
lemma bestIdx_congr (h : s.Agree compare compare') {idx : ℕ} (hleft : 2 * idx + 1 < s.numUsed) :
    bestIdx compare s idx = bestIdx compare' s idx := by
  have hidx : s.list idx ∈ s.contents := Pqueue.list_mem_contents (by omega)
  have hchild : s.list (2 * idx + 1) ∈ s.contents := Pqueue.list_mem_contents hleft
  have hbest :
    s.list (if compare' (s.list idx) (s.list (2 * idx + 1)) < 0 then idx else 2 * idx + 1) ∈
      s.contents := by
    split_ifs <;> assumption
  unfold bestIdx
  dsimp only
  rw [h _ hidx _ hchild]
  by_cases hright : 2 * idx + 1 + 1 < s.numUsed
  · rw [h _ (Pqueue.list_mem_contents hright) _ hbest]
  · have hnot : ∀ p : Prop, ¬(2 * idx + 1 + 1 < s.numUsed ∧ p) := fun p hand => hright hand.1
    rw [if_neg (hnot _), if_neg (hnot _)]

/-- Items are moved away from the root in the same way. -/
lemma smartlistHeapify_congr (h : s.Agree compare compare') (fuel : ℕ) {idx : ℕ}
    (hidx : idx < s.numUsed) :
    smartlistHeapify compare fuel s idx = smartlistHeapify compare' fuel s idx := by
  induction fuel generalizing s idx with
  | zero => rfl
  | succ fuel ih =>
    unfold smartlistHeapify
    by_cases hleaf : s.numUsed ≤ 2 * idx + 1
    · rw [if_pos hleaf, if_pos hleaf]
    · rw [if_neg hleaf, if_neg hleaf, bestIdx_congr h (Nat.lt_of_not_le hleaf)]
      by_cases hstop : bestIdx compare' s idx = idx
      · rw [if_pos hstop, if_pos hstop]
      · obtain ⟨-, hbn⟩ := lt_bestIdx (s := s) (Nat.lt_of_not_le hleaf) hstop
        have hcont := Pqueue.contents_exchange hidx hbn
        rw [if_neg hstop, if_neg hstop]
        refine ih (fun x hx y hy => ?_) hbn
        rw [hcont] at hx hy
        exact h x hx y hy

/-- An item is removed in the same way if the comparisons agree on the others. -/
lemma Pqueue.removeAt_congr (h : s.Indexed) {n idx : ℕ} (hn : s.numUsed = n + 1)
    (hidx : idx ≤ n)
    (hagree : ∀ x ∈ s.contents.erase (s.list idx), ∀ y ∈ s.contents.erase (s.list idx),
      compare x y = compare' x y) :
    s.removeAt compare n idx = s.removeAt compare' n idx := by
  unfold Pqueue.removeAt
  split_ifs with hlast
  · rfl
  · have hlt : idx < n := by omega
    refine smartlistHeapify_congr (fun x hx y hy => ?_) n hlt
    rw [(h.replaceByLast hn hlt).2] at hx hy
    exact hagree x hx y hy

lemma Pqueue.Ok.congr (h : s.Ok compare)
    (hsign : ∀ x ∈ s.contents, ∀ y ∈ s.contents, compare x y ≤ 0 → compare' x y ≤ 0) :
    s.Ok compare' where
  ordered i hpos hi := by
    have hp := BinaryHeap.parent_lt hpos
    exact hsign _ (Pqueue.list_mem_contents (by omega)) _ (Pqueue.list_mem_contents hi)
      (h.ordered i hpos hi)
  index_eq := h.index_eq

end Agree

/-! ### The calls -/

/-- The calls that keep a queue in order: an item is added that is not in the queue, there is an
item to pop, and an item is removed that is in the queue and after whose parent the last item does
not come out of order. -/
def PqueueCall.Safe {α : Type*} [DecidableEq α] (compare : α → α → ℤ) (s : Pqueue α) :
    PqueueCall α → Prop
  | .add item => item ∉ s.contents
  | .pop => s.numUsed ≠ 0
  | .remove item => ∃ i < s.numUsed, s.list i = item ∧
      (0 < i → i ≠ s.numUsed - 1 →
        ¬ compare (s.list (s.numUsed - 1)) (s.list (BinaryHeap.parent i)) < 0)

instance {α : Type*} [DecidableEq α] (compare : α → α → ℤ) (s : Pqueue α) :
    DecidablePred (PqueueCall.Safe compare s)
  | .add item => inferInstanceAs (Decidable (item ∉ s.contents))
  | .pop => inferInstanceAs (Decidable (s.numUsed ≠ 0))
  | .remove item => inferInstanceAs (Decidable (∃ i < s.numUsed, s.list i = item ∧ _))

/-- What a call does to the items, and what it returns. -/
def PqueueCall.Done {α : Type*} [DecidableEq α] (compare : α → α → ℤ) (s s' : Pqueue α)
    (out : Option α) : PqueueCall α → Prop
  | .add item => item ∉ s.contents ∧ s'.contents = insert item s.contents ∧
      s'.numUsed = s.numUsed + 1
  | .pop => ∃ top ∈ s.contents, out = some top ∧ (∀ x ∈ s.contents, compare top x ≤ 0) ∧
      s'.contents = s.contents.erase top ∧ s'.numUsed + 1 = s.numUsed
  | .remove item => item ∈ s.contents ∧ s'.contents = s.contents.erase item ∧
      s'.numUsed + 1 = s.numUsed

section Calls

variable {α : Type*} [DecidableEq α] {compare : α → α → ℤ} {s : Pqueue α}

section

variable (hc : TotalPreorder compare) (h : s.Ok compare)

include hc h

lemma smartlistPqueueAdd_spec {item : α} (hitem : item ∉ s.contents) :
    (smartlistPqueueAdd compare s item).Ok compare ∧
      (smartlistPqueueAdd compare s item).contents = insert item s.contents ∧
      (smartlistPqueueAdd compare s item).numUsed = s.numUsed + 1 := by
  obtain ⟨hindex, hnum, hcont⟩ := Pqueue.Indexed.add h.index_eq compare hitem
  have hordered := ordered_moveUp hc (s := ⟨update s.list s.numUsed item,
    s.numUsed + 1, update s.index item s.numUsed⟩) (le_refl s.numUsed)
    (Nat.lt_succ_self s.numUsed) (h.ordered.insert item)
  exact ⟨⟨hnum ▸ hordered, hindex⟩, hcont, hnum⟩

/-- The order is kept when an item is removed whose parent does not come after the last item. -/
lemma Pqueue.Ok.removeAt {n idx : ℕ} (hn : s.numUsed = n + 1) (hidx : idx ≤ n)
    (hle : 0 < idx → idx ≠ n → ¬ compare (s.list n) (s.list (BinaryHeap.parent idx)) < 0) :
    (s.removeAt compare n idx).Ok compare := by
  obtain ⟨hindex, hnum, -⟩ := Pqueue.Indexed.removeAt h.index_eq compare hn hidx
  refine ⟨?_, hindex⟩
  have hordered := h.ordered
  rw [hn] at hordered
  rw [hnum]
  unfold Pqueue.removeAt
  split_ifs with hlast
  · exact fun i hi hin => hordered i hi (by omega)
  · have hlt : idx < n := by omega
    exact ordered_smartlistHeapify hc (s := Pqueue.replaceByLast
      ⟨s.list, n, update s.index (s.list idx) (-1)⟩ idx) (Nat.le_add_left n idx) hlt
      (hordered.replace hc.trans hlt fun hpos => hc.le_of_not_lt (hle hpos hlast))

/-- **The first item is popped after it has changed**, so that the comparison agrees with the one of
the queue on the other items only. -/
lemma Pqueue.Ok.exists_pop_changed {n : ℕ} (hn : s.numUsed = n + 1) (compare' : α → α → ℤ)
    (hagree : ∀ x ∈ s.contents.erase (s.list 0), ∀ y ∈ s.contents.erase (s.list 0),
      compare x y = compare' x y) :
    ∃ s', smartlistPqueuePop compare' s = some (s', s.list 0) ∧ s'.Ok compare' ∧
      s'.contents = s.contents.erase (s.list 0) ∧ s'.index (s.list 0) = -1 ∧
      ∀ x, x ∉ s.contents → s'.index x = s.index x := by
  obtain ⟨-, -, hcont, hindex, hframe⟩ :=
    Pqueue.Indexed.removeAt h.index_eq compare hn (Nat.zero_le n)
  have hok := h.removeAt hc hn (Nat.zero_le n) fun hpos => absurd hpos (lt_irrefl 0)
  have hcongr := Pqueue.removeAt_congr h.index_eq hn (Nat.zero_le n) hagree
  rw [hcongr] at hok hcont hindex hframe
  refine ⟨_, smartlistPqueuePop_eq compare' hn, hok.congr fun x hx y hy hle => ?_, hcont,
    hindex, hframe⟩
  rw [hcont] at hx hy
  rw [← hagree x hx y hy]
  exact hle

/-- **One call.**  A safe call succeeds, keeps the queue in order, and does what it should. -/
lemma PqueueCall.Safe.spec {call : PqueueCall α} (hsafe : call.Safe compare s) :
    ∃ s' out, pqueueCall compare s call = some (s', out) ∧ s'.Ok compare ∧
      call.Done compare s s' out := by
  cases call with
  | add item =>
    obtain ⟨hok, hcont, hnum⟩ := smartlistPqueueAdd_spec hc h hsafe
    exact ⟨_, _, rfl, hok, hsafe, hcont, hnum⟩
  | pop =>
    obtain ⟨n, hn⟩ := Nat.exists_eq_succ_of_ne_zero (show s.numUsed ≠ 0 from hsafe)
    have hmin : ∀ x ∈ s.contents, compare (s.list 0) x ≤ 0 := by
      intro x hx
      obtain ⟨i, hi, rfl⟩ := Pqueue.mem_contents.mp hx
      exact h.ordered.root_le hc.refl hc.trans hi
    have hok := h.removeAt hc hn (Nat.zero_le n) fun hpos => absurd hpos (lt_irrefl 0)
    obtain ⟨-, hnum, hcont, -⟩ := Pqueue.Indexed.removeAt h.index_eq compare hn (Nat.zero_le n)
    unfold pqueueCall
    rw [smartlistPqueuePop_eq compare hn, map_some]
    exact ⟨_, _, rfl, hok, s.list 0, Pqueue.list_mem_contents (by omega), rfl, hmin, hcont,
      (congrArg (· + 1) hnum).trans hn.symm⟩
  | remove item =>
    obtain ⟨idx, hidx, rfl, hle⟩ := hsafe
    obtain ⟨n, hn⟩ := Nat.exists_eq_succ_of_ne_zero (show s.numUsed ≠ 0 by omega)
    have hidx' : idx ≤ n := by omega
    rw [hn, Nat.succ_sub_one] at hle
    obtain ⟨-, hnum, hcont, -⟩ := Pqueue.Indexed.removeAt h.index_eq compare hn hidx'
    have hok := h.removeAt hc hn hidx' hle
    unfold pqueueCall
    dsimp only
    rw [smartlistPqueueRemove_eq h.index_eq compare hn hidx', map_some]
    exact ⟨_, _, rfl, hok, Pqueue.list_mem_contents hidx, hcont,
      (congrArg (· + 1) hnum).trans hn.symm⟩

end

/-- Calls, one after another. -/
def pqueueCalls (compare : α → α → ℤ) (s : Pqueue α) (calls : List (PqueueCall α)) :
    Option (Pqueue α) :=
  calls.foldlM (fun s call => (pqueueCall compare s call).map Prod.fst) s

/-- **Priority queues stay in order.**  In every run of safe calls from an empty queue, the queue is
a heap whose items store their indices before and after every call, the assertions hold, and every
call does what it should: a pop returns a first item, and no item is lost or duplicated. -/
theorem pqueue_ok (hc : TotalPreorder compare) (list : ℕ → α) (index : α → ℤ)
    (before rest : List (PqueueCall α)) (call : PqueueCall α)
    (hsafe : Runs.MeetsAlong (fun s call => (pqueueCall compare s call).map Prod.fst)
      (fun s call => call.Safe compare s) (before ++ call :: rest) ⟨list, 0, index⟩) :
    ∃ s s' out, pqueueCalls compare ⟨list, 0, index⟩ before = some s ∧
      pqueueCall compare s call = some (s', out) ∧ s.Ok compare ∧ s'.Ok compare ∧
      smartlistPqueueAssertOk compare s = true ∧ smartlistPqueueAssertOk compare s' = true ∧
      call.Done compare s s' out := by
  have hempty : Pqueue.Ok compare (⟨list, 0, index⟩ : Pqueue α) :=
    ⟨fun i _ hi => absurd hi (Nat.not_lt_zero i), fun i hi => absurd hi (Nat.not_lt_zero i)⟩
  have hstep : ∀ (s : Pqueue α) (call : PqueueCall α), s.Ok compare → call.Safe compare s →
      ∃ s', (pqueueCall compare s call).map Prod.fst = some s' ∧ s'.Ok compare := by
    intro s call hok hs
    obtain ⟨s', out, hcall, hok', -⟩ := hs.spec hc hok
    exact ⟨s', by rw [hcall, map_some], hok'⟩
  obtain ⟨s, hrun, hok, hs⟩ := hsafe.exists_before hstep hempty
  obtain ⟨s', out, hcall, hok', hdone⟩ := hs.spec hc hok
  exact ⟨s, s', out, hrun, hcall, hok, hok', hok.assertOk, hok'.assertOk, hdone⟩

end Calls

def compareNat (a b : ℕ) : ℤ := (a : ℤ) - b

lemma totalPreorder_compareNat : TotalPreorder compareNat where
  lt_iff a b := by
    unfold compareNat
    omega
  trans a b c hab hbc := by
    unfold compareNat at *
    omega

/-- Items are added, one of them is removed from the middle, and the first one is popped. -/
theorem pqueue_ok_five_items :
    ∃ s s' out, pqueueCalls compareNat ⟨fun _ => 0, 0, fun _ => -1⟩
        [.add 5, .add 3, .add 4, .add 8, .add 7, .remove 4] = some s ∧
      pqueueCall compareNat s .pop = some (s', out) ∧ s.Ok compareNat ∧ s'.Ok compareNat ∧
      smartlistPqueueAssertOk compareNat s = true ∧ smartlistPqueueAssertOk compareNat s' = true ∧
      PqueueCall.Done compareNat s s' out .pop :=
  pqueue_ok totalPreorder_compareNat (fun _ => 0) (fun _ => -1)
    [.add 5, .add 3, .add 4, .add 8, .add 7, .remove 4] [.add 6] .pop (by decide +kernel)

/-- After the removal of an item from the middle, the last item comes before its new parent. -/
theorem not_pqueue_ok_remove :
    (pqueueCalls compareNat ⟨fun _ => 0, 0, fun _ => -1⟩
      [.add 0, .add 10, .add 1, .add 11, .add 12, .add 2, .add 3, .remove 11]).map
        (smartlistPqueueAssertOk compareNat) = some false := by
  decide +kernel

end Astoria
