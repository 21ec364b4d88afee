import Mathlib.Data.Finset.Max

/-!
# Runs in sorted lists

In a list that is sorted by a key, the members of one key stand together (`filter_isInfix`), but
members of one key may stand in any order.  A run of equal members, a list `List.replicate n t`
inside a list, is never longer than the number of these members, and members that are not all equal
can always be arranged so that no run is longer than half of them (`exists_perm_shortRuns`).
-/

namespace SortedRuns

open List

variable {α β : Type*}

/-! ### Sorted lists -/

/-- In a list that is sorted by a key, the members of one key stand together. -/
theorem filter_isInfix [LinearOrder β] {key : α → β} {l : List α}
    (h : l.Pairwise fun a b => key a ≤ key b) (k : β) : ∃ before after, l =
      before ++ l.filter (fun x => key x = k) ++ after ∧ (∀ x ∈ before, key x < k) ∧
      ∀ x ∈ after, k < key x := by
  induction l with
  | nil => exact ⟨[], [], rfl, nofun, nofun⟩
  | cons a l ih =>
    obtain ⟨ha, hl⟩ := pairwise_cons.mp h
    rcases lt_trichotomy (key a) k with hlt | heq | hgt
    · obtain ⟨before, after, hsplit, hbefore, hafter⟩ := ih hl
      refine ⟨a :: before, after, ?_, forall_mem_cons.mpr ⟨hlt, hbefore⟩, hafter⟩
      rw [filter_cons_of_neg (by simpa using hlt.ne), cons_append, cons_append, ← hsplit]
    · obtain ⟨before, after, hsplit, hbefore, hafter⟩ := ih hl
      -- nothing of a smaller key follows
      obtain rfl : before = [] := by
        refine eq_nil_iff_forall_not_mem.mpr fun x hx => ?_
        have hmem : x ∈ l := by
          rw [hsplit, append_assoc]
          exact mem_append_left _ hx
        exact absurd (hbefore x hx) (heq ▸ ha x hmem).not_gt
      refine ⟨[], after, ?_, nofun, hafter⟩
      rw [filter_cons_of_pos (by simpa using heq), nil_append, cons_append]
      rw [nil_append] at hsplit
      rw [← hsplit]
    · have hall : ∀ x ∈ a :: l, k < key x :=
        forall_mem_cons.mpr ⟨hgt, fun x hx => hgt.trans_le (ha x hx)⟩
      have hnil : (a :: l).filter (fun x => key x = k) = [] :=
        filter_eq_nil_iff.mpr fun x hx => by simpa using (hall x hx).ne'
      exact ⟨[], a :: l, by rw [hnil]; rfl, nofun, hall⟩

/-- The members of one key can be put in another order. -/
lemma pairwise_rearranged [LinearOrder β] {key : α → β} {before mid mid' after : List α} {k : β}
    (h : (before ++ mid ++ after).Pairwise fun a b => key a ≤ key b) (hmid : ∀ x ∈ mid, key x = k)
    (hperm : mid'.Perm mid) : (before ++ mid' ++ after).Pairwise fun a b => key a ≤ key b := by
  have hmem {x : α} : x ∈ mid' ↔ x ∈ mid := hperm.mem_iff
  rw [append_assoc, pairwise_append, pairwise_append] at h ⊢
  obtain ⟨hbefore, ⟨-, hafter, hma⟩, hb⟩ := h
  refine ⟨hbefore, ⟨?_, hafter, fun a ha => hma a (hmem.mp ha)⟩, fun a ha x hx => ?_⟩
  · refine pairwise_of_forall_mem_list fun a ha b hb => ?_
    rw [hmid a (hmem.mp ha), hmid b (hmem.mp hb)]
  · refine hb a ha x ?_
    rw [mem_append, hmem] at hx
    exact mem_append.mpr hx

/-! ### Runs -/

variable {t a b : α} {n : ℕ} {l xs ys : List α}

/-- A run among the members of one kind. -/
lemma replicate_infix_filter {p : α → Bool} (h : replicate n t <:+: l) (ht : p t = true) :
    replicate n t <:+: l.filter p := by
  obtain ⟨xs, ys, rfl⟩ := h
  rw [filter_append, filter_append, filter_replicate_of_pos ht]
  exact ⟨xs.filter p, ys.filter p, rfl⟩

/-- A run is not longer than the number of its members. -/
lemma le_count_of_infix [DecidableEq α] (h : replicate n t <:+: l) : n ≤ l.count t := by
  have hle := h.sublist.count_le t
  rwa [count_replicate_self] at hle

/-- A run of other members at the start of a list ends before a member. -/
lemma replicate_prefix_append_cons (hb : b ≠ t) (h : replicate n t <+: xs ++ b :: ys) :
    replicate n t <+: xs := by
  induction xs generalizing n with
  | nil =>
    cases n with
    | zero => exact nil_prefix
    | succ n =>
      rw [replicate_succ, nil_append, cons_prefix_cons] at h
      exact absurd h.1.symm hb
  | cons x xs ih =>
    cases n with
    | zero => exact nil_prefix
    | succ n =>
      rw [replicate_succ, cons_append, cons_prefix_cons] at h
      rw [replicate_succ, cons_prefix_cons]
      exact ⟨h.1, ih h.2⟩

/-- A run of other members is before a member or after it. -/
lemma replicate_infix_append_cons (hb : b ≠ t) (h : replicate n t <:+: xs ++ b :: ys) :
    replicate n t <:+: xs ∨ replicate n t <:+: ys := by
  induction xs with
  | nil =>
    rcases infix_cons_iff.mp h with hpre | hin
    · exact .inl (replicate_prefix_append_cons hb hpre).isInfix
    · exact .inr hin
  | cons x xs ih =>
    rcases infix_cons_iff.mp h with hpre | hin
    · have hxs : replicate n t <+: x :: xs := replicate_prefix_append_cons hb hpre
      exact .inl hxs.isInfix
    · exact (ih hin).imp_left fun hxs => hxs.trans (suffix_cons x xs).isInfix

/-- A run does not go on where two members differ. -/
lemma replicate_infix_append_of_ne [DecidableEq α] (hab : a ≠ b)
    (h : replicate n t <:+: xs ++ a :: b :: ys) :
    replicate n t <:+: xs ++ [a] ∨ replicate n t <:+: b :: ys := by
  by_cases hb : b = t
  · exact (replicate_infix_append_cons (hb ▸ hab) h).imp_left fun hxs =>
      hxs.trans (prefix_append xs [a]).isInfix
  · have happend : xs ++ a :: b :: ys = (xs ++ [a]) ++ b :: ys := by rw [append_assoc]; rfl
    rw [happend] at h
    exact (replicate_infix_append_cons hb h).imp_right fun hys =>
      hys.trans (suffix_cons b ys).isInfix

/-- **Members that are not all equal** can be arranged so that no run is longer than half of
them. -/
theorem exists_perm_shortRuns [DecidableEq α] (ha : a ∈ l) (hb : b ∈ l) (hab : a ≠ b) :
    ∃ d : List α, d.Perm l ∧ ∀ n t, replicate n t <:+: d → n ≤ l.length / 2 := by
  -- the most frequent member is split into two halves by another one
  obtain ⟨s, -, hmax⟩ :=
    Finset.exists_max_image l.toFinset (fun t => l.count t) ⟨a, List.mem_toFinset.mpr ha⟩
  obtain ⟨c, rest, hothers⟩ : ∃ c rest, l.filter (fun x => !decide (x = s)) = c :: rest := by
    refine exists_cons_of_ne_nil fun hnil => ?_
    rw [filter_eq_nil_iff] at hnil
    have hsa : a = s := by simpa using hnil a ha
    have hsb : b = s := by simpa using hnil b hb
    exact hab (hsa.trans hsb.symm)
  have hc : c ≠ s := by
    have hmem : c ∈ l.filter (fun x => !decide (x = s)) := by rw [hothers]; exact mem_cons_self
    simpa using (mem_filter.mp hmem).2
  have hsplit : (replicate (l.count s) s ++ c :: rest).Perm l := by
    rw [← hothers, ← filter_eq]
    exact filter_append_perm _ l
  have hperm :
    (replicate (l.count s / 2) s ++ c :: (replicate (l.count s - l.count s / 2) s ++ rest)).Perm
      l := by
    refine Perm.trans ?_ hsplit
    have hhalves : l.count s = l.count s / 2 + (l.count s - l.count s / 2) := by omega
    conv_rhs => rw [hhalves, replicate_add, append_assoc]
    exact (perm_middle.symm).append_left _
  have hlen : l.count s + (rest.length + 1) = l.length := by
    rw [← hsplit.length_eq, length_append, length_replicate, length_cons]
  have hrest : rest.count s = 0 := by
    refine count_eq_zero.mpr fun hmem => ?_
    have hfilter : s ∈ l.filter (fun x => !decide (x = s)) := by
      rw [hothers]; exact mem_cons_of_mem _ hmem
    simpa using (mem_filter.mp hfilter).2
  refine ⟨_, hperm, fun n t hrun => ?_⟩
  by_cases hts : t = s
  · subst hts
    rcases replicate_infix_append_cons hc hrun with hleft | hright
    · have hle := le_count_of_infix hleft
      rw [count_replicate_self] at hle
      omega
    · have hle := le_count_of_infix hright
      rw [count_append, count_replicate_self, hrest] at hle
      omega
  · have hle := le_count_of_infix hrun
    rw [hperm.count_eq] at hle
    have hcount : l.count t ≤ l.count s := by
      by_cases ht : t ∈ l
      · exact hmax t (List.mem_toFinset.mpr ht)
      · rw [count_eq_zero.mpr ht]
        exact Nat.zero_le _
    have hother : l.count t ≤ rest.length + 1 := by
      rw [← hsplit.count_eq, count_append, count_replicate, if_neg (by simpa using Ne.symm hts),
        zero_add]
      exact count_le_length
    omega

end SortedRuns
