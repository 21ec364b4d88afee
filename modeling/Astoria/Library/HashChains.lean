import Mathlib.Data.List.Induction

/-!
# Hash tables with chains

A table has a list of entries for every hash value.  `install` replaces the value of a key that is
there, and puts other keys in front of their chain.  What is looked up is then a map:
`lookup_install` and `lookup_installAll` say what it is after one and after many entries, for every
hash function.
-/

namespace HashChains

open List Function

variable {κ α : Type*} [DecidableEq κ] {hash : κ → ℕ} {tab : ℕ → List (κ × α)} {k k' : κ} {a : α}

/-- The value of a key in a chain. -/
def chainLookup (chain : List (κ × α)) (k : κ) : Option α :=
  (chain.find? fun entry => entry.1 = k).map Prod.snd

/-- Replace the value of the first entry of a key. -/
def replaceFirst (chain : List (κ × α)) (k : κ) (a : α) : List (κ × α) :=
  match chain with
  | [] => []
  | entry :: chain => if entry.1 = k then (k, a) :: chain else entry :: replaceFirst chain k a

/-- The value of a key. -/
def lookup (hash : κ → ℕ) (tab : ℕ → List (κ × α)) (k : κ) : Option α :=
  chainLookup (tab (hash k)) k

/-- Enter a value for a key. -/
def install (hash : κ → ℕ) (tab : ℕ → List (κ × α)) (k : κ) (a : α) : ℕ → List (κ × α) :=
  match lookup hash tab k with
  | none => update tab (hash k) ((k, a) :: tab (hash k))
  | some _ => update tab (hash k) (replaceFirst (tab (hash k)) k a)

/-- Enter the values of a list. -/
def installAll (hash : κ → ℕ) (tab : ℕ → List (κ × α)) (entries : List (κ × α)) :
    ℕ → List (κ × α) :=
  entries.foldl (fun tab entry => install hash tab entry.1 entry.2) tab

/-- The value of the last entry of a key. -/
def lastOf (entries : List (κ × α)) (k : κ) : Option α := chainLookup entries.reverse k

/-- The value of a key in a chain with one more entry. -/
lemma chainLookup_cons (entry : κ × α) (chain : List (κ × α)) :
    chainLookup (entry :: chain) k = if entry.1 = k then some entry.2 else chainLookup chain k := by
  rw [chainLookup, find?_cons]
  by_cases h : entry.1 = k
  · simp [h]
  · simp [h, chainLookup]

/-- The last value of a key after one more entry. -/
lemma lastOf_append_singleton (entries : List (κ × α)) (entry : κ × α) :
    lastOf (entries ++ [entry]) k = if entry.1 = k then some entry.2 else lastOf entries k := by
  rw [lastOf, reverse_append, reverse_singleton, singleton_append, chainLookup_cons, ← lastOf]

lemma chainLookup_replaceFirst (chain : List (κ × α)) (hk : (chainLookup chain k).isSome) :
    chainLookup (replaceFirst chain k a) k' = if k' = k then some a else chainLookup chain k' := by
  induction chain with
  | nil => cases hk
  | cons entry chain ih =>
    by_cases h : entry.1 = k
    · rw [replaceFirst, if_pos h, chainLookup_cons, chainLookup_cons, h]
      by_cases hkk : k' = k
      · rw [if_pos hkk.symm, if_pos hkk]
      · rw [if_neg (Ne.symm hkk), if_neg hkk, if_neg (Ne.symm hkk)]
    · rw [chainLookup_cons, if_neg h] at hk
      rw [replaceFirst, if_neg h, chainLookup_cons, chainLookup_cons, ih hk]
      by_cases hkk : k' = k
      · rw [if_pos hkk, if_neg (by rw [hkk]; exact h), if_pos hkk]
      · rw [if_neg hkk, if_neg hkk]

/-- **What is looked up after an entry.** -/
theorem lookup_install : lookup hash (install hash tab k a) k' = if k' = k then some a
    else lookup hash tab k' := by
  unfold install
  cases hl : lookup hash tab k with
  | none =>
    dsimp only
    by_cases hh : hash k' = hash k
    · rw [lookup, lookup, hh, update_self, chainLookup_cons]
      simp only [eq_comm]
    · have hne : k' ≠ k := fun h => hh (congrArg hash h)
      rw [lookup, lookup, update_of_ne hh, if_neg hne]
  | some v =>
    dsimp only
    by_cases hh : hash k' = hash k
    · rw [lookup, lookup, hh, update_self]
      apply chainLookup_replaceFirst
      rw [lookup] at hl
      rw [hl]
      rfl
    · have hne : k' ≠ k := fun h => hh (congrArg hash h)
      rw [lookup, lookup, update_of_ne hh, if_neg hne]

/-- **What is looked up after many entries**: the last one, or what was there before. -/
theorem lookup_installAll (entries : List (κ × α)) :
    lookup hash (installAll hash tab entries) k = (lastOf entries k).or (lookup hash tab k) := by
  induction entries using reverseRecOn with
  | nil => rfl
  | append_singleton entries entry ih =>
    rw [installAll, foldl_append, foldl_cons, foldl_nil, ← installAll, lookup_install, ih,
      lastOf_append_singleton]
    by_cases h : k = entry.1
    · rw [if_pos h, if_pos h.symm]
      rfl
    · rw [if_neg h, if_neg (Ne.symm h)]

/-- The last entry of a key is an entry. -/
lemma mem_of_lastOf {entries : List (κ × α)} (h : lastOf entries k = some a) :
    (k, a) ∈ entries := by
  obtain ⟨entry, hfind, rfl⟩ := Option.map_eq_some_iff.mp h
  have hkey : entry.1 = k := by simpa using find?_some hfind
  rw [← hkey]
  exact mem_reverse.mp (mem_of_find?_eq_some hfind)

end HashChains
