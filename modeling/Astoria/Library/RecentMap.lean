import Mathlib.Order.Bounds.Basic

/-!
# Maps of latest times

A map from keys to times can stand for a history of events: it has for a key the time of its latest
event. It may have forgotten a key if all its events are old.  The rules say what recording an event
and removing old entries do to such a map (`Remembers.record`, `Remembers.evict`), where a threshold
that only rises tells which times are old (`Remembers.mono`).
-/

namespace Astoria.RecentMap

open Option Function

variable {κ τ : Type*} {history : Set (κ × τ)}

/-- The times of the events of a key. -/
def times (history : Set (κ × τ)) (k : κ) : Set τ := {t | (k, t) ∈ history}

/-- The events of a key after one more event. -/
lemma times_insert [DecidableEq κ] (k k' : κ) (t : τ) :
    times (insert (k, t) history) k' = if k' = k then insert t (times history k')
      else times history k' := by
  ext t'
  unfold times
  split_ifs with hk
  · rw [hk]
    simp
  · simp [hk]

variable [LinearOrder τ] {m : κ → Option τ} {old old' : τ → Prop}

/-- **A map of latest times**, but for keys all of whose events are old. -/
structure Remembers (m : κ → Option τ) (history : Set (κ × τ)) (old : τ → Prop) : Prop where
  found : ∀ k t, m k = some t → IsGreatest (times history k) t
  missed : ∀ k, m k = none → ∀ t ∈ times history k, old t

/-- An empty map stands for no events. -/
lemma Remembers.empty (old : τ → Prop) : Remembers (fun _ : κ => none) ∅ old :=
  ⟨fun _ _ h => (some_ne_none _ h.symm).elim, fun _ _ _ ht => ht.elim⟩

/-- More times may become old. -/
lemma Remembers.mono (h : Remembers m history old) (hold : ∀ t, old t → old' t) :
    Remembers m history old' :=
  ⟨h.found, fun k hk t ht => hold t (h.missed k hk t ht)⟩

/-- **Old entries are removed.** -/
lemma Remembers.evict (h : Remembers m history old) (old₁ : τ → Prop) [DecidablePred old₁]
    (hold : ∀ t, old₁ t → old t) (hdown : ∀ t t', t ≤ t' → old t' → old t) :
    Remembers (fun k => (m k).filter fun t => ¬ old₁ t) history old := by
  constructor
  · intro k t hk
    exact h.found k t (filter_eq_some_iff.mp hk).1
  · intro k hk t ht
    cases hm : m k with
    | none => exact h.missed k hm t ht
    | some t' =>
      rw [hm, filter_eq_none_iff] at hk
      have hgone : old₁ t' := by simpa using hk t' rfl
      exact hdown t t' ((h.found k t' hm).2 ht) (hold t' hgone)

variable [DecidableEq κ]

/-- **An event is recorded** at a time that is not before the recorded ones. -/
lemma Remembers.record (h : Remembers m history old) {k : κ} {t : τ}
    (hlast : ∀ t' ∈ times history k, t' ≤ t) :
    Remembers (update m k (some t)) (insert (k, t) history) old := by
  constructor
  · intro k' t' hk'
    rw [times_insert]
    by_cases hkey : k' = k
    · subst hkey
      rw [update_self, Option.some.injEq] at hk'
      subst hk'
      rw [if_pos rfl]
      exact ⟨Set.mem_insert _ _, fun t' ht' => ht'.elim le_of_eq (hlast t')⟩
    · rw [update_of_ne hkey] at hk'
      rw [if_neg hkey]
      exact h.found k' t' hk'
  · intro k' hk'
    have hkey : k' ≠ k := by
      rintro rfl
      rw [update_self] at hk'
      cases hk'
    rw [update_of_ne hkey] at hk'
    rw [times_insert, if_neg hkey]
    exact h.missed k' hk'

end Astoria.RecentMap
