import Mathlib

/-!
# Merging sorted lists with cursors

Several lists are sorted by a key, and each has a cursor.  One pass looks at the entries under the
cursors, takes those whose key is lowest, advances their cursors, and emits something for them, or
nothing. The passes end when all cursors have reached the end of their lists.

If the lists are strictly sorted, then the passes visit each key once, in ascending order, and see
all entries that have the key (`exists_mergeLoop`).
-/

namespace Astoria.KWayMerge

open List Option

/-- A list with a cursor, and a label that says which list it is. -/
structure Cursor (ι α : Type*) where
  label : ι
  list : List α
  index : ℕ

section Merge

variable {ι α κ β : Type*} [LinearOrder κ] (key : α → κ) (emit : κ → List (ι × α) → Option β)

/-- The entry under the cursor, if the list has not ended. -/
def Cursor.current (c : Cursor ι α) : Option α := c.list[c.index]?

/-- The lowest key under the cursors, if there is any. -/
def lowestKey (cursors : List (Cursor ι α)) : Option κ :=
  cursors.foldl (fun lowest c =>
    match c.current, lowest with
    | none, lowest => lowest
    | some a, none => some (key a)
    | some a, some k => if key a < k then some (key a) else some k) none

/-- The entry under the cursor, if it has the key. -/
def Cursor.matching (k : κ) (c : Cursor ι α) : Option (ι × α) :=
  c.current.bind fun a => if key a = k then some (c.label, a) else none

/-- The cursor after a pass for the key. -/
def Cursor.advance (k : κ) (c : Cursor ι α) : Cursor ι α :=
  if (c.matching key k).isSome then { c with index := c.index + 1 } else c

/-- The passes, at most a given number of them, and what they emit. -/
def mergeLoop : ℕ → List (Cursor ι α) → Option (List β)
  | 0, _ => none
  | n + 1, cursors =>
    match lowestKey key cursors with
    | none => some []
    | some k =>
      (mergeLoop n (cursors.map (Cursor.advance key k))).map
        ((emit k (cursors.filterMap (Cursor.matching key k))).toList ++ ·)

def Cursor.rest (c : Cursor ι α) : List α := c.list.drop c.index

/-- The entry with a key, from the cursor on. -/
def Cursor.lookup (k : κ) (c : Cursor ι α) : Option (ι × α) :=
  (c.rest.find? fun a => key a = k).map (c.label, ·)

variable {key} {c : Cursor ι α} {k k' : κ} {cursors : List (Cursor ι α)}

/-- The entry under the cursor is the first one of the rest. -/
lemma Cursor.current_eq (c : Cursor ι α) : c.current = c.rest.head? := by
  rw [Cursor.current, Cursor.rest, head?_drop]

/-- **The lowest key** is under a cursor, and none is lower. -/
lemma lowestKey_spec (key : α → κ) (cursors : List (Cursor ι α)) :
    (lowestKey key cursors = none ∧ ∀ c ∈ cursors, c.current = none) ∨
      ∃ k, lowestKey key cursors = some k ∧ (∃ c ∈ cursors, ∃ a, c.current = some a ∧ key a = k) ∧
        ∀ c ∈ cursors, ∀ a, c.current = some a → k ≤ key a := by
  unfold lowestKey
  induction cursors using reverseRecOn with
  | nil => exact .inl ⟨rfl, nofun⟩
  | append_singleton cursors c ih =>
    rw [foldl_append, foldl_cons, foldl_nil]
    cases hcur : c.current with
    | none =>
      rcases ih with ⟨hnone, hall⟩ | ⟨k, hk, ⟨c', hc', a, ha, hak⟩, hlow⟩
      · refine .inl ⟨by rw [hnone], fun c' hc' => ?_⟩
        rcases mem_append.mp hc' with hc' | hc'
        · exact hall c' hc'
        · rw [mem_singleton.mp hc', hcur]
      · refine .inr ⟨k, by rw [hk], ⟨c', mem_append_left _ hc', a, ha, hak⟩, ?_⟩
        intro c₁ hc₁ a₁ ha₁
        rcases mem_append.mp hc₁ with hc₁ | hc₁
        · exact hlow c₁ hc₁ a₁ ha₁
        · rw [mem_singleton.mp hc₁, hcur] at ha₁
          cases ha₁
    | some b =>
      have hlast : c ∈ cursors ++ [c] := mem_append_right _ mem_cons_self
      rcases ih with ⟨hnone, hall⟩ | ⟨k, hk, ⟨c', hc', a, ha, hak⟩, hlow⟩
      · refine .inr ⟨key b, by rw [hnone], ⟨c, hlast, b, hcur, rfl⟩, fun c₁ hc₁ a₁ ha₁ => ?_⟩
        rcases mem_append.mp hc₁ with hc₁ | hc₁
        · rw [hall c₁ hc₁] at ha₁
          cases ha₁
        · rw [mem_singleton.mp hc₁, hcur] at ha₁
          rw [Option.some.inj ha₁]
      · by_cases hlt : key b < k
        · refine .inr ⟨key b, by rw [hk]; exact if_pos hlt, ⟨c, hlast, b, hcur, rfl⟩, ?_⟩
          intro c₁ hc₁ a₁ ha₁
          rcases mem_append.mp hc₁ with hc₁ | hc₁
          · exact hlt.le.trans (hlow c₁ hc₁ a₁ ha₁)
          · rw [mem_singleton.mp hc₁, hcur] at ha₁
            rw [Option.some.inj ha₁]
        · refine .inr ⟨k, by rw [hk]; exact if_neg hlt,
            ⟨c', mem_append_left _ hc', a, ha, hak⟩, fun c₁ hc₁ a₁ ha₁ => ?_⟩
          rcases mem_append.mp hc₁ with hc₁ | hc₁
          · exact hlow c₁ hc₁ a₁ ha₁
          · rw [mem_singleton.mp hc₁, hcur] at ha₁
            rw [← Option.some.inj ha₁]
            exact not_lt.mp hlt

/-- The rest of the list is strictly sorted. -/
def Cursor.Sorted (key : α → κ) (c : Cursor ι α) : Prop := c.rest.Pairwise fun a b => key a < key b

section

variable (h : c.Sorted key) (hlow : ∀ a, c.current = some a → k ≤ key a)

include h hlow

/-- What a cursor with a lowest key has under it. -/
lemma Cursor.Sorted.matching_eq : c.matching key k = c.lookup key k := by
  unfold Cursor.matching Cursor.lookup
  rw [Cursor.current_eq] at hlow ⊢
  unfold Cursor.Sorted at h
  cases hrest : c.rest with
  | nil => rfl
  | cons a rest =>
    rw [hrest] at h hlow
    obtain ⟨hfirst, -⟩ := pairwise_cons.mp h
    rw [head?_cons, bind_some]
    by_cases hk : key a = k
    · rw [if_pos hk, find?_cons_of_pos (by simpa using hk)]
      rfl
    · have hlt : k < key a := lt_of_le_of_ne (hlow a rfl) fun heq => hk heq.symm
      have hnone : rest.find? (fun a => decide (key a = k)) = none := by
        rw [find?_eq_none]
        intro b hb heq
        exact absurd (of_decide_eq_true heq) (hlt.trans (hfirst b hb)).ne'
      rw [if_neg hk, find?_cons_of_neg (by simpa using hk), hnone]
      rfl

/-- **A cursor after a pass** for the lowest key: what is left has the other keys. -/
lemma Cursor.Sorted.rest_advance : (c.advance key k).rest = c.rest.filter fun a => key a ≠ k := by
  unfold Cursor.advance Cursor.matching
  rw [Cursor.current_eq] at hlow ⊢
  unfold Cursor.Sorted at h
  cases hrest : c.rest with
  | nil =>
    rw [head?_nil, bind_none, if_neg (by simp), hrest]
    rfl
  | cons a rest =>
    rw [hrest] at h hlow
    obtain ⟨hfirst, -⟩ := pairwise_cons.mp h
    have hle : k ≤ key a := hlow a rfl
    have hfilter : rest.filter (fun a => decide (key a ≠ k)) = rest := by
      rw [filter_eq_self]
      intro b hb
      exact decide_eq_true (hle.trans_lt (hfirst b hb)).ne'
    rw [head?_cons, bind_some]
    by_cases hk : key a = k
    · rw [if_pos hk, filter_cons_of_neg (by simpa using hk), hfilter]
      have htail : c.rest.tail = rest := by rw [hrest, tail_cons]
      rw [← htail, isSome_some, if_pos rfl, Cursor.rest, Cursor.rest, tail_drop]
    · rw [if_neg hk, filter_cons_of_pos (by simpa using hk), hfilter]
      exact hrest

lemma Cursor.Sorted.advance : (c.advance key k).Sorted key := by
  unfold Cursor.Sorted
  rw [h.rest_advance hlow]
  exact h.filter _

end

lemma Cursor.label_advance (c : Cursor ι α) (k : κ) : (c.advance key k).label = c.label := by
  unfold Cursor.advance
  split_ifs <;> rfl

/-- What is found for another key stays. -/
lemma Cursor.Sorted.lookup_advance (h : c.Sorted key) (hlow : ∀ a, c.current = some a → k ≤ key a)
    (hne : k' ≠ k) : (c.advance key k).lookup key k' = c.lookup key k' := by
  unfold Cursor.lookup
  rw [h.rest_advance hlow, Cursor.label_advance, find?_filter]
  congr 2
  funext a
  by_cases hk' : key a = k'
  · rw [hk']
    simp [hne]
  · simp [hk']

/-- The number of entries that are left. -/
def remaining (cursors : List (Cursor ι α)) : ℕ := (cursors.map fun c => c.rest.length).sum

/-- A pass takes at least one entry. -/
lemma remaining_advance_lt (hsorted : ∀ c ∈ cursors, c.Sorted key)
    (hmem : ∃ c ∈ cursors, ∃ a, c.current = some a ∧ key a = k)
    (hlow : ∀ c ∈ cursors, ∀ a, c.current = some a → k ≤ key a) :
    remaining (cursors.map (Cursor.advance key k)) < remaining cursors := by
  unfold remaining
  rw [List.map_map]
  refine sum_lt_sum _ _ (fun c hc => ?_) ?_
  · rw [Function.comp_apply, (hsorted c hc).rest_advance (hlow c hc)]
    exact length_filter_le _ _
  · obtain ⟨c, hc, a, ha, hak⟩ := hmem
    refine ⟨c, hc, ?_⟩
    rw [Function.comp_apply, (hsorted c hc).rest_advance (hlow c hc)]
    rw [Cursor.current_eq] at ha
    exact length_filter_lt_length_iff_exists.mpr
      ⟨a, mem_of_head? ha, by simp [hak]⟩

/-- **The passes visit each key once**, in ascending order, with all entries that have it. -/
theorem exists_mergeLoop (hsorted : ∀ c ∈ cursors, c.Sorted key) {n : ℕ}
    (hn : remaining cursors < n) : ∃ ks : List κ, ks.Pairwise (· < ·) ∧
      (∀ k, k ∈ ks ↔ ∃ c ∈ cursors, ∃ a ∈ c.rest, key a = k) ∧
      mergeLoop key emit n cursors =
        some (ks.filterMap fun k => emit k (cursors.filterMap (Cursor.lookup key k))) := by
  induction n generalizing cursors with
  | zero => exact absurd hn (Nat.not_lt_zero _)
  | succ n ih =>
    rcases lowestKey_spec key cursors with ⟨hnone, hall⟩ | ⟨k, hk, hmem, hlow⟩
    · refine ⟨[], List.Pairwise.nil, fun k => ?_, ?_⟩
      · refine iff_of_false not_mem_nil ?_
        rintro ⟨c, hc, a, ha, -⟩
        have hcur := hall c hc
        rw [Cursor.current_eq, head?_eq_none_iff] at hcur
        rw [hcur] at ha
        cases ha
      · rw [mergeLoop, hnone]
        rfl
    · have hsorted' : ∀ c ∈ cursors.map (Cursor.advance key k), c.Sorted key := by
        intro c hc
        obtain ⟨c₀, hc₀, rfl⟩ := List.mem_map.mp hc
        exact (hsorted c₀ hc₀).advance (hlow c₀ hc₀)
      obtain ⟨ks, hks, hmemks, hloop⟩ := ih hsorted'
        (lt_of_lt_of_le (remaining_advance_lt hsorted hmem hlow) (Nat.le_of_lt_succ hn))
      -- the keys that are left are those other than the lowest one
      have hleft : ∀ k', k' ∈ ks ↔ k' ≠ k ∧ ∃ c ∈ cursors, ∃ a ∈ c.rest, key a = k' := by
        intro k'
        rw [hmemks]
        constructor
        · rintro ⟨c, hc, a, ha, rfl⟩
          obtain ⟨c₀, hc₀, rfl⟩ := List.mem_map.mp hc
          rw [(hsorted c₀ hc₀).rest_advance (hlow c₀ hc₀), mem_filter, decide_eq_true_eq] at ha
          exact ⟨ha.2, c₀, hc₀, a, ha.1, rfl⟩
        · rintro ⟨hne, c, hc, a, ha, rfl⟩
          refine ⟨c.advance key k, List.mem_map_of_mem hc, a, ?_, rfl⟩
          rw [(hsorted c hc).rest_advance (hlow c hc), mem_filter, decide_eq_true_eq]
          exact ⟨ha, hne⟩
      have hlower : ∀ c ∈ cursors, ∀ a ∈ c.rest, k ≤ key a := by
        intro c hc a ha
        have hsort := hsorted c hc
        unfold Cursor.Sorted at hsort
        cases hrest : c.rest with
        | nil =>
          rw [hrest] at ha
          cases ha
        | cons b rest =>
          rw [hrest] at ha hsort
          have hb : k ≤ key b := hlow c hc b (by rw [Cursor.current_eq, hrest, head?_cons])
          rcases mem_cons.mp ha with rfl | ha
          · exact hb
          · exact hb.trans ((pairwise_cons.mp hsort).1 a ha).le
      refine ⟨k :: ks, pairwise_cons.mpr ⟨fun k' hk' => ?_, hks⟩, fun k' => ?_, ?_⟩
      · obtain ⟨hne, c, hc, a, ha, rfl⟩ := (hleft k').mp hk'
        exact lt_of_le_of_ne (hlower c hc a ha) hne.symm
      · rw [mem_cons, hleft]
        by_cases hkk : k' = k
        · refine iff_of_true (.inl hkk) ?_
          obtain ⟨c, hc, a, ha, hak⟩ := hmem
          rw [Cursor.current_eq] at ha
          exact ⟨c, hc, a, mem_of_head? ha, hak.trans hkk.symm⟩
        · simp [hkk]
      · have hmatch : cursors.filterMap (Cursor.matching key k) =
            cursors.filterMap (Cursor.lookup key k) :=
          filterMap_congr fun c hc => (hsorted c hc).matching_eq (hlow c hc)
        have hrest : ∀ k' ∈ ks, (cursors.map (Cursor.advance key k)).filterMap
            (Cursor.lookup key k') = cursors.filterMap (Cursor.lookup key k') := by
          intro k' hk'
          rw [filterMap_map]
          exact filterMap_congr fun c hc =>
            (hsorted c hc).lookup_advance (hlow c hc) ((hleft k').mp hk').1
        rw [mergeLoop, hk]
        dsimp only
        rw [hloop, map_some, hmatch, filterMap_cons]
        have hcongr := filterMap_congr (l := ks) fun k' hk' =>
          congrArg (emit k') (hrest k' hk')
        rw [hcongr]
        cases emit k (cursors.filterMap (Cursor.lookup key k)) with
        | none => rfl
        | some b => rfl

end Merge

end Astoria.KWayMerge
