import Mathlib.Logic.Equiv.Basic

/-!
# Binary heaps in arrays

An array of `n` entries is a binary heap if no entry comes before its parent.  The two ways to
restore the order move one entry, the hole: towards the root while it comes before its parent
(`UpOrder`), and away from it while one of its children comes before it (`DownOrder`).  The rules
say that one exchange keeps the order except at the hole, and when the hole is in order too.
-/

namespace BinaryHeap

open Function

variable {α : Type*} {le : α → α → Prop} {n hole : ℕ} {f : ℕ → α}

def parent (i : ℕ) : ℕ := (i - 1) / 2

/-- The parent comes before its children in the array. -/
lemma parent_lt {i : ℕ} (h : 0 < i) : parent i < i := by
  unfold parent
  omega

/-- The indices with the parent `p`. -/
lemma eq_of_parent_eq {i p : ℕ} (hi : 0 < i) (h : parent i = p) :
    i = 2 * p + 1 ∨ i = 2 * p + 2 := by
  unfold parent at h
  omega

/-- The parent of the first child. -/
lemma parent_left (p : ℕ) : parent (2 * p + 1) = p := by
  unfold parent
  omega

/-- The parent of the second child. -/
lemma parent_right (p : ℕ) : parent (2 * p + 2) = p := by
  unfold parent
  omega

/-- The first `n` entries are a heap. -/
def Ordered (le : α → α → Prop) (n : ℕ) (f : ℕ → α) : Prop :=
  ∀ i, 0 < i → i < n → le (f (parent i)) (f i)

/-- A heap but for the hole, which may come before its parent. -/
structure UpOrder (le : α → α → Prop) (n : ℕ) (f : ℕ → α) (hole : ℕ) : Prop where
  except : ∀ i, 0 < i → i < n → i ≠ hole → le (f (parent i)) (f i)
  grand : ∀ i, 0 < i → i < n → parent i = hole → 0 < hole → le (f (parent hole)) (f i)

/-- A heap but for the hole, whose children may come before it. -/
structure DownOrder (le : α → α → Prop) (n : ℕ) (f : ℕ → α) (hole : ℕ) : Prop where
  /-- The entries other than the children of the hole do not come before their parents. -/
  except : ∀ i, 0 < i → i < n → parent i ≠ hole → le (f (parent i)) (f i)
  grand : ∀ i, 0 < i → i < n → parent i = hole → 0 < hole → le (f (parent hole)) (f i)

/-- The root comes first. -/
lemma Ordered.root_le (h : Ordered le n f) (hrefl : ∀ a, le a a)
    (htrans : ∀ a b c, le a b → le b c → le a c) {i : ℕ} (hi : i < n) : le (f 0) (f i) := by
  induction i using Nat.strongRecOn with
  | ind i ih =>
    rcases Nat.eq_zero_or_pos i with rfl | hpos
    · exact hrefl _
    · have hlt := parent_lt hpos
      exact htrans _ _ _ (ih _ hlt (by omega)) (h i hpos hi)

/-! ### Towards the root -/

/-- A new last entry may come before its parent. -/
lemma Ordered.insert (h : Ordered le n f) (a : α) :
    UpOrder le (n + 1) (update f n a) n := by
  constructor
  · intro i hi hin hne
    have hp := parent_lt hi
    rw [update_of_ne (by omega), update_of_ne hne]
    exact h i hi (by omega)
  · intro i hi hin hp
    have := parent_lt hi
    omega

/-- The hole is exchanged with its parent, which it comes before. -/
lemma UpOrder.swap (h : UpOrder le n f hole) (htrans : ∀ a b c, le a b → le b c → le a c)
    (hpos : 0 < hole) (hn : hole < n) (hle : le (f hole) (f (parent hole))) :
    UpOrder le n (f ∘ Equiv.swap hole (parent hole)) (parent hole) := by
  have hlt := parent_lt hpos
  have hswap : ∀ i, i ≠ hole → i ≠ parent hole →
      (f ∘ Equiv.swap hole (parent hole)) i = f i := by
    intro i h₁ h₂
    rw [comp_apply, Equiv.swap_apply_of_ne_of_ne h₁ h₂]
  have hhole : (f ∘ Equiv.swap hole (parent hole)) hole = f (parent hole) := by
    rw [comp_apply, Equiv.swap_apply_left]
  have hparent : (f ∘ Equiv.swap hole (parent hole)) (parent hole) = f hole := by
    rw [comp_apply, Equiv.swap_apply_right]
  constructor
  · intro i hi hin hne
    by_cases hih : i = hole
    · rw [hih, hparent, hhole]
      exact hle
    · rw [hswap i hih hne]
      by_cases hph : parent i = hole
      · rw [hph, hhole]
        exact h.grand i hi hin hph hpos
      · by_cases hpp : parent i = parent hole
        · rw [hpp, hparent]
          exact htrans _ _ _ hle (hpp ▸ h.except i hi hin hih)
        · rw [hswap _ hph hpp]
          exact h.except i hi hin hih
  · intro i hi hin hpi hpos'
    have hlt' := parent_lt hpos'
    have hgrand := h.except (parent hole) hpos' (by omega) (by omega)
    rw [hswap (parent (parent hole)) (by omega) (by omega)]
    by_cases hih : i = hole
    · rw [hih, hhole]
      exact hgrand
    · have := parent_lt hi
      rw [hswap i hih (by omega)]
      exact htrans _ _ _ hgrand (hpi ▸ h.except i hi hin hih)

/-- The array is a heap if the hole does not come before its parent. -/
lemma UpOrder.ordered (h : UpOrder le n f hole)
    (hle : 0 < hole → le (f (parent hole)) (f hole)) : Ordered le n f := by
  intro i hi hin
  by_cases hih : i = hole
  · subst hih
    exact hle hi
  · exact h.except i hi hin hih

/-! ### Away from the root -/

/-- An entry is replaced by the last one, which does not come before the parent of the entry. -/
lemma Ordered.replace (h : Ordered le (n + 1) f) (htrans : ∀ a b c, le a b → le b c → le a c)
    (hn : hole < n) (hle : 0 < hole → le (f (parent hole)) (f n)) :
    DownOrder le n (update f hole (f n)) hole := by
  constructor
  · intro i hi hin hp
    rw [update_of_ne hp]
    by_cases hih : i = hole
    · subst hih
      rw [update_self]
      exact hle hi
    · rw [update_of_ne hih]
      exact h i hi (by omega)
  · intro i hi hin hp hpos
    have hlt := parent_lt hi
    have hlt' := parent_lt hpos
    rw [update_of_ne (by omega), update_of_ne (by omega)]
    have hchild := h i hi (by omega)
    rw [hp] at hchild
    exact htrans _ _ _ (h hole hpos (by omega)) hchild

/-- The hole is exchanged with its first child, which comes before it. -/
lemma DownOrder.swap (h : DownOrder le n f hole) {c : ℕ} (hc : 0 < c) (hcn : c < n)
    (hp : parent c = hole) (hmin : ∀ i, 0 < i → i < n → parent i = hole → le (f c) (f i))
    (hle : le (f c) (f hole)) : DownOrder le n (f ∘ Equiv.swap hole c) c := by
  have hlt := parent_lt hc
  have hswap : ∀ i, i ≠ hole → i ≠ c → (f ∘ Equiv.swap hole c) i = f i := by
    intro i h₁ h₂
    rw [comp_apply, Equiv.swap_apply_of_ne_of_ne h₁ h₂]
  have hhole : (f ∘ Equiv.swap hole c) hole = f c := by
    rw [comp_apply, Equiv.swap_apply_left]
  have hchild : (f ∘ Equiv.swap hole c) c = f hole := by
    rw [comp_apply, Equiv.swap_apply_right]
  constructor
  · intro i hi hin hpi
    have hlti := parent_lt hi
    by_cases hih : i = hole
    · subst hih
      rw [hhole, hswap _ (by omega) hpi]
      exact h.grand c hc hcn hp hi
    · by_cases hic : i = c
      · rw [hic, hp, hhole, hchild]
        exact hle
      · rw [hswap i hih hic]
        by_cases hph : parent i = hole
        · rw [hph, hhole]
          exact hmin i hi hin hph
        · rw [hswap _ hph hpi]
          exact h.except i hi hin hph
  · intro i hi hin hpi _
    have hlti := parent_lt hi
    rw [hp, hhole, hswap i (by omega) (by omega)]
    have hexcept := h.except i hi hin (by omega)
    rwa [hpi] at hexcept

/-- The array is a heap if no child comes before the hole. -/
lemma DownOrder.ordered (h : DownOrder le n f hole)
    (hle : ∀ i, 0 < i → i < n → parent i = hole → le (f hole) (f i)) : Ordered le n f := by
  intro i hi hin
  by_cases hp : parent i = hole
  · rw [hp]
    exact hle i hi hin hp
  · exact h.except i hi hin hp

end BinaryHeap
