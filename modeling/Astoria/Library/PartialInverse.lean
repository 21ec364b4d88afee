import Mathlib.Tactic.Common

/-!
# Tables that are inverse to each other

A table from keys to owners and a table from owners to the key of each are inverse if a key belongs
to an owner exactly when the owner holds the key (`Inverse`).  They stay so when a key is taken away
from its owner (`Inverse.erase`), and when a key that belongs to nobody is given to an owner without
one (`Inverse.insert`).
-/

namespace Astoria

open Function

variable {κ ι : Type*} [DecidableEq κ] [DecidableEq ι] {f : κ → Option ι} {g : ι → Option κ}
  {k : κ} {i : ι}

/-- A key belongs to an owner exactly when the owner holds the key. -/
def Inverse (f : κ → Option ι) (g : ι → Option κ) : Prop :=
  ∀ k i, f k = some i ↔ g i = some k

namespace Inverse

omit [DecidableEq κ] [DecidableEq ι] in
omit [DecidableEq κ] [DecidableEq ι] in
lemma owner_unique (h : Inverse f g) {j : ι} (hi : g i = some k) (hj : g j = some k) : i = j :=
  Option.some.inj (((h k i).mpr hi).symm.trans ((h k j).mpr hj))

omit [DecidableEq κ] [DecidableEq ι] in
/-- A key that belongs to nobody is held by nobody. -/
lemma not_held (h : Inverse f g) (hk : f k = none) (i : ι) : g i ≠ some k := by
  intro hi
  rw [(h k i).mpr hi] at hk
  cases hk

omit [DecidableEq κ] [DecidableEq ι] in
/-- An owner without a key owns nothing. -/
lemma not_owner (h : Inverse f g) (hi : g i = none) (k : κ) : f k ≠ some i := by
  intro hk
  rw [(h k i).mp hk] at hi
  cases hi

/-- A key is taken away from its owner. -/
lemma erase (h : Inverse f g) (hk : g i = some k) :
    Inverse (update f k none) (update g i none) := by
  intro k' i'
  by_cases hk' : k' = k
  · subst hk'
    rw [update_self]
    refine iff_of_false nofun fun hi' => ?_
    by_cases hii : i' = i
    · rw [hii, update_self] at hi'
      cases hi'
    · rw [update_of_ne hii] at hi'
      exact hii (h.owner_unique hi' hk)
  · rw [update_of_ne hk']
    by_cases hii : i' = i
    · subst hii
      rw [update_self]
      refine iff_of_false (fun hf => hk' ?_) nofun
      exact Option.some.inj (((h k' i').mp hf).symm.trans hk)
    · rw [update_of_ne hii]
      exact h k' i'

/-- A key that belongs to nobody is given to an owner without one. -/
lemma insert (h : Inverse f g) (hk : f k = none) (hi : g i = none) :
    Inverse (update f k (some i)) (update g i (some k)) := by
  intro k' i'
  by_cases hk' : k' = k
  · subst hk'
    rw [update_self, Option.some.injEq]
    by_cases hii : i' = i
    · rw [hii, update_self]
      exact iff_of_true rfl rfl
    · rw [update_of_ne hii]
      exact iff_of_false (Ne.symm hii) (h.not_held hk i')
  · rw [update_of_ne hk']
    by_cases hii : i' = i
    · subst hii
      rw [update_self, Option.some.injEq]
      exact iff_of_false (h.not_owner hi k') (Ne.symm hk')
    · rw [update_of_ne hii]
      exact h k' i'

end Inverse

end Astoria
