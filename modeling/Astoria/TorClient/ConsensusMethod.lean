import Mathlib.Data.Prod.Lex
import Astoria.Library.SortedRuns
import Astoria.TorClient.ConsensusCompute

/-!
# The consensus method

Each vote lists the consensus methods that its authority supports, as texts.  The texts of a vote
are sorted by the numbers that they are, and of those with the same number one stays.  Those of all
votes are then sorted together, and the texts that occur more often than in two thirds of the votes
are looked for by comparing neighbours as texts.

So a number is only found if its supporters spell it alike, and a text that is no number may be
found instead (`compute_consensus_method_iff`).
-/

namespace Astoria

open List Option

/-! ### Results for any order of equal texts -/

/-- A list as `smartlist_sort` may leave it: the order of members that compare equal is not
known. -/
structure IsSorting {α : Type*} (compare : α → α → ℤ) (l s : List α) : Prop where
  perm : s.Perm l
  sorted : s.Pairwise fun a b => compare a b ≤ 0

/-- The method that is found in the sorted methods of all votes. -/
def methodOfSorted (nVotes : ℕ) (allMethods : List String) : ℕ :=
  match (getFrequentMembers allMethods (nVotes * 2 / 3)).getLast? with
  | some best => ((torParseLong best.toList 1 (2 ^ 31 - 1)).getD 0).toNat
  | none => 1

/-- A method that `compute_consensus_method` may return. -/
def IsMethodResult (supportedMethods : List (List String)) (result : ℕ) : Prop :=
  ∃ sorted, Forall₂ (IsSorting cmpIntStrings) supportedMethods sorted ∧
    ∃ allMethods, IsSorting cmpIntStrings (sorted.flatMap (smartlistUniq cmpIntStrings))
      allMethods ∧ result = methodOfSorted supportedMethods.length allMethods

/-! ### The order of methods -/

section Order

variable {a b t : String} {l : List String} {m : ℕ}

/-- The number that a text is, or 0. -/
def methodValue (t : String) : ℤ := (torParseLong t.toList 1 (2 ^ 31 - 1)).getD 0

/-- Methods are sorted by their numbers, and texts that are no numbers by themselves. -/
def methodKey (t : String) : ℤ ×ₗ String :=
  toLex (methodValue t, if methodValue t = 0 then t else "")

/-- A text denotes a method. -/
def Denotes (t : String) (m : ℕ) : Prop := torParseLong t.toList 1 (2 ^ 31 - 1) = some (m : ℤ)

instance (t : String) (m : ℕ) : Decidable (Denotes t m) := inferInstanceAs (Decidable (_ = _))

def numberKey (m : ℕ) : ℤ ×ₗ String := toLex ((m : ℤ), "")

lemma methodValue_nonneg (t : String) : 0 ≤ methodValue t := by
  unfold methodValue
  cases h : torParseLong t.toList 1 (2 ^ 31 - 1) with
  | none => exact le_rfl
  | some r => exact le_trans Int.one_nonneg (torParseLong_mem h).1

lemma Denotes.pos (h : Denotes t m) : 0 < m := by
  have := (torParseLong_mem h).1
  omega

/-- A text denotes a method if it has its key. -/
lemma methodKey_eq_numberKey_iff : methodKey t = numberKey m ∧ 0 < m ↔ Denotes t m := by
  unfold methodKey numberKey Denotes methodValue
  constructor
  · rintro ⟨hkey, hm⟩
    obtain ⟨hvalue, -⟩ := Prod.mk.inj (toLex_inj.mp hkey)
    cases h : torParseLong t.toList 1 (2 ^ 31 - 1) with
    | none =>
      rw [h, getD_none] at hvalue
      omega
    | some r =>
      rw [h, getD_some] at hvalue
      rw [hvalue]
  · intro h
    have hpos : 0 < m := Denotes.pos h
    rw [h, getD_some, if_neg (by omega)]
    exact ⟨rfl, hpos⟩

lemma strcmp_le_iff : strcmp a b ≤ 0 ↔ a ≤ b := by
  unfold strcmp memcmp
  split_ifs with hlt heq
  · exact iff_of_true (by decide) hlt.le
  · exact iff_of_true le_rfl heq.le
  · exact iff_of_false (by decide) fun hle => (hle.lt_or_eq.elim hlt heq)

lemma strcmp_eq_zero_iff : strcmp a b = 0 ↔ a = b := by
  unfold strcmp memcmp
  split_ifs with hlt heq
  · exact iff_of_false (by decide) hlt.ne
  · exact iff_of_true rfl heq
  · exact iff_of_false (by decide) heq

lemma cmpIntStrings_eq (a b : String) :
    cmpIntStrings a b = if methodValue a < methodValue b then -1
      else if methodValue a = methodValue b then if methodValue a = 0 then strcmp a b else 0
        else 1 := rfl

/-- The comparison function compares the keys. -/
lemma cmpIntStrings_le_iff : cmpIntStrings a b ≤ 0 ↔ methodKey a ≤ methodKey b := by
  rw [cmpIntStrings_eq, methodKey, methodKey, Prod.Lex.toLex_le_toLex]
  rcases lt_trichotomy (methodValue a) (methodValue b) with hlt | heq | hgt
  · rw [if_pos hlt]
    exact iff_of_true (by decide) (.inl hlt)
  · rw [if_neg heq.not_lt, if_pos heq, ← heq]
    by_cases hzero : methodValue a = 0
    · rw [if_pos hzero, if_pos hzero, if_pos hzero, strcmp_le_iff]
      exact ⟨fun hle => .inr ⟨rfl, hle⟩, fun h => (h.resolve_left (lt_irrefl _)).2⟩
    · rw [if_neg hzero, if_neg hzero, if_neg hzero]
      exact iff_of_true le_rfl (.inr ⟨rfl, le_rfl⟩)
  · rw [if_neg hgt.not_gt, if_neg hgt.ne']
    refine iff_of_false (by decide) ?_
    rintro (hlt | ⟨heq, -⟩)
    · exact hgt.not_gt hlt
    · exact hgt.ne' heq

/-- Methods compare equal if their keys are equal. -/
lemma cmpIntStrings_eq_zero_iff : cmpIntStrings a b = 0 ↔ methodKey a = methodKey b := by
  rw [cmpIntStrings_eq, methodKey, methodKey, toLex_inj, Prod.mk.injEq]
  rcases lt_trichotomy (methodValue a) (methodValue b) with hlt | heq | hgt
  · rw [if_pos hlt]
    exact iff_of_false (by decide) fun h => hlt.ne h.1
  · rw [if_neg heq.not_lt, if_pos heq, ← heq]
    by_cases hzero : methodValue a = 0
    · rw [if_pos hzero, if_pos hzero, if_pos hzero, strcmp_eq_zero_iff]
      exact ⟨fun h => ⟨rfl, h⟩, And.right⟩
    · rw [if_neg hzero, if_neg hzero, if_neg hzero]
      exact iff_of_true rfl ⟨rfl, rfl⟩
  · rw [if_neg hgt.not_gt, if_neg hgt.ne']
    exact iff_of_false (by decide) fun h => hgt.ne' h.1

lemma pairwise_methodKey (h : l.Pairwise fun a b => cmpIntStrings a b ≤ 0) :
    l.Pairwise fun a b => methodKey a ≤ methodKey b :=
  h.imp cmpIntStrings_le_iff.mp

lemma isSorting_sort (sort : SmartlistSort String) (l : List String) :
    IsSorting cmpIntStrings l (sort.sort cmpIntStrings l) := by
  refine ⟨sort.perm _ _, sort.sorted _ _ ⟨fun a _ b _ => ?_, fun a _ b _ c _ hab hbc => ?_⟩⟩
  · rw [cmpIntStrings_le_iff, not_le, lt_iff_le_and_ne, lt_iff_le_and_ne, cmpIntStrings_le_iff, Ne,
      cmpIntStrings_eq_zero_iff]
  · rw [cmpIntStrings_le_iff] at hab hbc ⊢
    exact hab.trans hbc

end Order

/-! ### Neighbours -/

section Neighbours

variable {t cur : String} {l : List String} {min count : ℕ} {k : ℤ ×ₗ String}

lemma replicate_infix_replicate_iff :
    replicate (min + 1) t <:+: replicate count cur ↔ min < count ∧ t = cur := by
  rw [infix_replicate_iff, length_replicate, replicate_right_inj (Nat.succ_ne_zero min)]
  rfl

/-- The texts that are found are those of which there are long enough runs. -/
lemma mem_getFrequentMembers_iff : t ∈ getFrequentMembers l min ↔ replicate (min + 1) t <:+: l := by
  -- the current run stands before the rest of the list
  have hgo : ∀ (l : List String) (cur : String) (count : ℕ),
      (t ∈ getFrequentMembers.go min l (some cur) (count + 1) ↔
        replicate (min + 1) t <:+: replicate (count + 1) cur ++ l) := by
    intro l
    induction l with
    | nil =>
      intro cur count
      rw [append_nil, replicate_infix_replicate_iff, getFrequentMembers.go]
      split
      · next hmin =>
        rw [mem_toList, some_inj]
        exact ⟨fun h => ⟨hmin, h.symm⟩, fun h => h.2.symm⟩
      · next hmin => exact iff_of_false not_mem_nil fun h => hmin h.1
    | cons cp rest ih =>
      intro cur count
      have hrun : replicate (count + 1) cur ++ cp :: rest =
          replicate count cur ++ cur :: cp :: rest := by
        rw [replicate_succ', append_assoc]
        rfl
      rw [getFrequentMembers.go]
      by_cases hcp : cur = cp
      · subst hcp
        have hlonger : replicate (count + 1) cur ++ cur :: rest =
            replicate (count + 1 + 1) cur ++ rest := by
          rw [replicate_succ' (n := count + 1), append_assoc]
          rfl
        rw [if_pos rfl, ih, hlonger]
      · have hsplit : replicate (min + 1) t <:+: replicate (count + 1) cur ++ cp :: rest ↔
            min < count + 1 ∧ t = cur ∨ replicate (min + 1) t <:+: cp :: rest := by
          rw [← replicate_infix_replicate_iff, hrun]
          constructor
          · intro h
            rw [replicate_succ' (n := count)]
            exact SortedRuns.replicate_infix_append_of_ne hcp h
          · rw [← hrun]
            rintro (h | h)
            · exact h.trans (prefix_append _ _).isInfix
            · exact h.trans (suffix_append _ _).isInfix
        rw [if_neg fun h => hcp (Option.some.inj h), hsplit]
        split
        · next hmin =>
          rw [mem_append, ih, mem_toList, some_inj]
          exact or_congr_left ⟨fun h => ⟨hmin, h.symm⟩, fun h => h.2.symm⟩
        · next hmin =>
          rw [ih]
          exact ⟨.inr, fun h => h.resolve_left fun h => hmin h.1⟩
  cases l with
  | nil =>
    refine iff_of_false not_mem_nil fun h => ?_
    have hlen := h.length_le
    rw [length_replicate] at hlen
    exact absurd hlen (by simp)
  | cons cp rest =>
    have hstart : getFrequentMembers (cp :: rest) min = getFrequentMembers.go min rest
        (some cp) 1 := by
      rw [getFrequentMembers, getFrequentMembers.go, if_neg nofun, if_neg (Nat.not_lt_zero min)]
    rw [hstart]
    exact hgo rest cp 0

/-- The texts that are found stand in the order of the list. -/
lemma getFrequentMembers_sublist (l : List String) (min : ℕ) :
    (getFrequentMembers l min).Sublist l := by
  have hgo : ∀ (l : List String) (cur : String) (count : ℕ),
      (getFrequentMembers.go min l (some cur) count).Sublist (cur :: l) := by
    intro l
    induction l with
    | nil =>
      intro cur count
      rw [getFrequentMembers.go]
      split
      · exact Sublist.refl _
      · exact nil_sublist _
    | cons cp rest ih =>
      intro cur count
      rw [getFrequentMembers.go]
      split
      · next hcp =>
        obtain rfl := Option.some.inj hcp
        exact (ih cur (count + 1)).cons cur
      · split
        · exact (ih cp 1).cons_cons cur
        · exact (ih cp 1).cons cur
  cases l with
  | nil => exact nil_sublist _
  | cons cp rest =>
    rw [getFrequentMembers, getFrequentMembers.go, if_neg nofun, if_neg (Nat.not_lt_zero min)]
    exact hgo rest cp 1

/-- Of the texts of a vote that have a key, the first one stays. -/
lemma filter_smartlistUniq (h : l.Pairwise fun a b => methodKey a ≤ methodKey b) :
    (smartlistUniq cmpIntStrings l).filter (fun t => methodKey t = k) =
      (l.filter fun t => methodKey t = k).take 1 := by
  have hgo : ∀ (l : List String) (a : String), (a :: l).Pairwise
      (fun a b => methodKey a ≤ methodKey b) → (smartlistUniq.go cmpIntStrings a l).filter
        (fun t => methodKey t = k) = ((a :: l).filter fun t => methodKey t = k).take 1 := by
    intro l
    induction l with
    | nil =>
      intro a _
      rw [smartlistUniq.go]
      by_cases ha : methodKey a = k
      · rw [filter_cons_of_pos (by simpa using ha)]
        rfl
      · rw [filter_cons_of_neg (by simpa using ha)]
        rfl
    | cons b l ih =>
      intro a hsorted
      obtain ⟨ha, hrest⟩ := pairwise_cons.mp hsorted
      obtain ⟨hb, hl⟩ := pairwise_cons.mp hrest
      rw [smartlistUniq.go]
      split
      · next hab =>
        -- the first one stays of those with its key
        have hkey := cmpIntStrings_eq_zero_iff.mp hab
        rw [ih a (pairwise_cons.mpr ⟨fun x hx => ha x (mem_cons_of_mem b hx), hl⟩)]
        by_cases hk : methodKey a = k
        · rw [filter_cons_of_pos (by simpa using hk), filter_cons_of_pos (by simpa using hk)]
          rfl
        · rw [filter_cons_of_neg (by simpa using hk), filter_cons_of_neg (by simpa using hk),
            filter_cons_of_neg (by simpa using hkey ▸ hk)]
      · next hab =>
        by_cases hk : methodKey a = k
        · -- no other text has its key
          have hlt : ∀ x ∈ b :: l, k < methodKey x := by
            have hkb : methodKey a < methodKey b :=
              lt_of_le_of_ne (ha b mem_cons_self) fun heq => hab (cmpIntStrings_eq_zero_iff.mpr heq)
            exact forall_mem_cons.mpr ⟨hk ▸ hkb, fun x hx => (hk ▸ hkb).trans_le (hb x hx)⟩
          have hnil : (b :: l).filter (fun t => methodKey t = k) = [] :=
            filter_eq_nil_iff.mpr fun x hx => by simpa using (hlt x hx).ne'
          rw [filter_cons_of_pos (by simpa using hk), filter_cons_of_pos (by simpa using hk),
            ih b hrest, hnil]
          rfl
        · rw [filter_cons_of_neg (by simpa using hk), filter_cons_of_neg (by simpa using hk),
            ih b hrest]
  cases l with
  | nil => rfl
  | cons a l => exact hgo l a h

end Neighbours

/-! ### Methods that two thirds of the votes support -/

section Agreed

variable (votes : List (List String))

/-- More than two thirds of the votes list a text that denotes the method. -/
def Agreed (m : ℕ) : Prop := 2 * votes.length < 3 * votes.countP fun v => v.any fun t => Denotes t m

instance (m : ℕ) : Decidable (Agreed votes m) := inferInstanceAs (Decidable (_ < _))

/-- More than two thirds of the votes list the text. -/
def AgreedText (t : String) : Prop := 2 * votes.length < 3 * votes.countP fun v => decide (t ∈ v)

/-- The method to use: the greatest one that more than two thirds of the votes support, or 1 if
there is none. -/
def IsConsensusMethod (r : ℕ) : Prop :=
  IsGreatest {m | Agreed votes m} r ∨ (∀ m, ¬ Agreed votes m) ∧ r = 1

/-- All texts that denote the method are the same. -/
def SpelledAlike (m : ℕ) : Prop :=
  ∀ v ∈ votes, ∀ w ∈ votes, ∀ s ∈ v, ∀ t ∈ w, Denotes s m → Denotes t m → s = t

/-- No text that is not a number is in more than two thirds of the votes. -/
def NumbersOnly : Prop := ∀ t, methodValue t = 0 → ¬ AgreedText votes t

/-- The votes spell the greatest method that is supported alike, unless there is one vote only; and
if that method is 1, or there is none, it is enough that they do not agree on a text that is no
number. -/
def SpellingsAgree : Prop :=
  (∀ m, IsGreatest {m | Agreed votes m} m →
    votes.length = 1 ∨ SpelledAlike votes m ∨ m = 1 ∧ NumbersOnly votes) ∧
    ((∀ m, ¬ Agreed votes m) → NumbersOnly votes)

end Agreed

section Results

variable {votes sorted : List (List String)} {allMethods l : List String} {t : String} {m : ℕ}
  {k : ℤ ×ₗ String}

/-- The votes that list a text with a key. -/
def supporters (votes : List (List String)) (k : ℤ ×ₗ String) : ℕ :=
  votes.countP fun v => v.any fun t => methodKey t = k

/-- Each vote contributes one text to each key that it lists. -/
lemma length_filter_kept (hsorted : Forall₂ (IsSorting cmpIntStrings) votes sorted)
    (k : ℤ ×ₗ String) : ((sorted.flatMap (smartlistUniq cmpIntStrings)).filter fun t =>
      methodKey t = k).length = supporters votes k := by
  induction hsorted with
  | nil => rfl
  | @cons v s votes sorted hs _ ih =>
    have hany : (v.any fun t => methodKey t = k) = true ↔
        (s.filter fun t => methodKey t = k) ≠ [] := by
      rw [List.any_eq_true, Ne, filter_eq_nil_iff]
      push Not
      exact exists_congr fun t => and_congr_left fun _ => hs.perm.mem_iff.symm
    rw [flatMap_cons, filter_append, length_append, ih,
      filter_smartlistUniq (pairwise_methodKey hs.sorted),
      supporters, supporters, countP_cons, add_comm]
    congr 1
    cases hfilter : s.filter fun t => methodKey t = k with
    | nil =>
      rw [if_neg fun h => hany.mp h hfilter]
      rfl
    | cons a rest =>
      rw [if_pos (hany.mpr (by rw [hfilter]; exact cons_ne_nil _ _))]
      rfl

/-- A method is agreed on if its key is. -/
lemma agreed_iff : Agreed votes m ↔ 0 < m ∧ 2 * votes.length < 3 * supporters votes
    (numberKey m) := by
  have hcount : 0 < m → votes.countP (fun v => v.any fun t => Denotes t m) =
      supporters votes (numberKey m) := by
    intro hm
    refine countP_congr fun v _ => ?_
    rw [List.any_eq_true, List.any_eq_true]
    refine exists_congr fun t => and_congr_right fun _ => ?_
    rw [decide_eq_true_eq, decide_eq_true_eq, ← methodKey_eq_numberKey_iff]
    exact and_iff_left hm
  constructor
  · intro h
    have hpos : 0 < votes.countP fun v => v.any fun t => Denotes t m := by
      unfold Agreed at h
      omega
    obtain ⟨v, -, hv⟩ := countP_pos_iff.mp hpos
    obtain ⟨t, -, ht⟩ := List.any_eq_true.mp hv
    have hm : 0 < m := Denotes.pos (of_decide_eq_true ht)
    exact ⟨hm, hcount hm ▸ h⟩
  · rintro ⟨hm, h⟩
    rwa [Agreed, hcount hm]

/-- Some method is the greatest one that is agreed on, if there is any. -/
lemma exists_isGreatest_agreed (h : Agreed votes m) : ∃ r, IsGreatest {m | Agreed votes m} r := by
  classical
  have hbound : ∀ r, Agreed votes r → r ≤ 2 ^ 31 := by
    intro r hr
    have hpos : 0 < votes.countP fun v => v.any fun t => Denotes t r := by
      unfold Agreed at hr
      omega
    obtain ⟨v, -, hv⟩ := countP_pos_iff.mp hpos
    obtain ⟨t, -, ht⟩ := List.any_eq_true.mp hv
    have := (torParseLong_mem (of_decide_eq_true ht)).2
    omega
  refine ⟨Nat.findGreatest (Agreed votes) (2 ^ 31), Nat.findGreatest_spec (hbound m h) h,
    fun r hr => ?_⟩
  exact Nat.le_findGreatest (hbound r hr) hr

lemma eq_of_methodKey_eq {s : String} (ht : methodValue t = 0) (h : methodKey s = methodKey t) :
    s = t := by
  unfold methodKey at h
  obtain ⟨hvalue, htext⟩ := Prod.mk.inj (toLex_inj.mp h)
  rw [hvalue, if_pos ht, if_pos ht] at htext
  exact htext

/-- A text that is no number is agreed on if its key is. -/
lemma agreedText_iff (ht : methodValue t = 0) :
    AgreedText votes t ↔ 2 * votes.length < 3 * supporters votes (methodKey t) := by
  have hcount : votes.countP (fun v => decide (t ∈ v)) = supporters votes (methodKey t) := by
    refine countP_congr fun v _ => ?_
    rw [decide_eq_true_eq, List.any_eq_true]
    refine ⟨fun h => ⟨t, h, decide_eq_true rfl⟩, ?_⟩
    rintro ⟨s, hs, hkey⟩
    rwa [← eq_of_methodKey_eq ht (of_decide_eq_true hkey)]
  rw [AgreedText, hcount]

lemma denotes_of_methodValue (h : methodValue t ≠ 0) : Denotes t (methodValue t).toNat := by
  unfold Denotes
  rw [Int.toNat_of_nonneg (methodValue_nonneg t)]
  unfold methodValue at h ⊢
  cases hparse : torParseLong t.toList 1 (2 ^ 31 - 1) with
  | none => rw [hparse] at h; exact absurd rfl h
  | some r => rfl

lemma Denotes.methodValue_eq (h : Denotes t m) : methodValue t = m := by
  rw [methodValue, h, getD_some]

/-- **What is found is agreed on.** -/
lemma supporters_of_mem (hsorted : Forall₂ (IsSorting cmpIntStrings) votes sorted)
    (hall : IsSorting cmpIntStrings (sorted.flatMap (smartlistUniq cmpIntStrings)) allMethods)
    (ht : t ∈ getFrequentMembers allMethods (votes.length * 2 / 3)) :
    2 * votes.length < 3 * supporters votes (methodKey t) := by
  have hrun := mem_getFrequentMembers_iff.mp ht
  have hclass := (SortedRuns.replicate_infix_filter (p := fun s => methodKey s = methodKey t) hrun
    (decide_eq_true rfl)).length_le
  rw [length_replicate, (hall.perm.filter _).length_eq, length_filter_kept hsorted] at hclass
  omega

/-- **What is agreed on is found** if all that is left of its key is the same text. -/
lemma mem_of_supporters (hsorted : Forall₂ (IsSorting cmpIntStrings) votes sorted)
    (hall : IsSorting cmpIntStrings (sorted.flatMap (smartlistUniq cmpIntStrings)) allMethods)
    (hsupp : 2 * votes.length < 3 * supporters votes k)
    (halike : ∀ s ∈ allMethods, methodKey s = k → s = t) :
    t ∈ getFrequentMembers allMethods (votes.length * 2 / 3) := by
  have hclass : allMethods.filter (fun s => methodKey s = k) =
      replicate (supporters votes k) t := by
    rw [eq_replicate_iff]
    refine ⟨?_, fun s hs => ?_⟩
    · rw [(hall.perm.filter _).length_eq, length_filter_kept hsorted]
    · obtain ⟨hmem, hkey⟩ := mem_filter.mp hs
      exact halike s hmem (of_decide_eq_true hkey)
  obtain ⟨before, after, hsplit, -, -⟩ :=
    SortedRuns.filter_isInfix (pairwise_methodKey hall.sorted) k
  have hinfix : replicate (supporters votes k) t <:+: allMethods :=
    ⟨before, after, by rw [← hclass]; exact hsplit.symm⟩
  rw [mem_getFrequentMembers_iff]
  refine IsInfix.trans ?_ hinfix
  rw [infix_replicate_iff, length_replicate]
  exact ⟨by omega, rfl⟩

/-- The result is the number of the last text that is found, which is the greatest one. -/
lemma methodOfSorted_spec (hall : IsSorting cmpIntStrings l allMethods) (nVotes : ℕ) :
    getFrequentMembers allMethods (nVotes * 2 / 3) = [] ∧ methodOfSorted nVotes allMethods = 1 ∨
      ∃ best ∈ getFrequentMembers allMethods (nVotes * 2 / 3),
        methodOfSorted nVotes allMethods = (methodValue best).toNat ∧
          ∀ t ∈ getFrequentMembers allMethods (nVotes * 2 / 3), methodValue t ≤
            methodValue best := by
  have hfound : (getFrequentMembers allMethods (nVotes * 2 / 3)).Pairwise fun a b =>
      methodKey a ≤ methodKey b :=
    (pairwise_methodKey hall.sorted).sublist (getFrequentMembers_sublist _ _)
  unfold methodOfSorted
  cases hlast : (getFrequentMembers allMethods (nVotes * 2 / 3)).getLast? with
  | none => exact .inl ⟨getLast?_eq_none_iff.mp hlast, rfl⟩
  | some best =>
    refine .inr ⟨best, mem_of_getLast? hlast, rfl, fun t ht => ?_⟩
    have hle : methodKey t ≤ methodKey best := by
      rw [← dropLast_append_getLast? best hlast] at ht hfound
      rcases mem_append.mp ht with ht | ht
      · exact (pairwise_append.mp hfound).2.2 t ht best (mem_singleton_self best)
      · rw [mem_singleton.mp ht]
    unfold methodKey at hle
    rw [Prod.Lex.toLex_le_toLex] at hle
    exact hle.elim le_of_lt fun h => h.1.le

lemma exists_mem_vote (hsorted : Forall₂ (IsSorting cmpIntStrings) votes sorted)
    (hall : IsSorting cmpIntStrings (sorted.flatMap (smartlistUniq cmpIntStrings)) allMethods)
    (ht : t ∈ allMethods) : ∃ v ∈ votes, t ∈ v := by
  have hkept := hall.perm.mem_iff.mp ht
  have hclass : t ∈ (sorted.flatMap (smartlistUniq cmpIntStrings)).filter fun s =>
      methodKey s = methodKey t :=
    mem_filter.mpr ⟨hkept, decide_eq_true rfl⟩
  clear hkept hall ht
  induction hsorted with
  | nil => cases hclass
  | @cons v s votes sorted hs _ ih =>
    rw [flatMap_cons, filter_append, filter_smartlistUniq (pairwise_methodKey hs.sorted),
      mem_append]
      at hclass
    rcases hclass with hhere | hrest
    · have hmem := (mem_filter.mp (mem_of_mem_take hhere)).1
      exact ⟨v, mem_cons_self, hs.perm.mem_iff.mp hmem⟩
    · obtain ⟨w, hw, htw⟩ := ih hrest
      exact ⟨w, mem_cons_of_mem v hw, htw⟩

/-- **If the spellings agree**, every result is the method to use. -/
lemma isConsensusMethod_of_spellingsAgree (hagree : SpellingsAgree votes)
    (hsorted : Forall₂ (IsSorting cmpIntStrings) votes sorted)
    (hall : IsSorting cmpIntStrings (sorted.flatMap (smartlistUniq cmpIntStrings)) allMethods) :
    IsConsensusMethod votes (methodOfSorted votes.length allMethods) := by
  have hnumber : ∀ t ∈ getFrequentMembers allMethods (votes.length * 2 / 3), ∀ m, Denotes t m →
      Agreed votes m := by
    intro t ht m hm
    have hkey := methodKey_eq_numberKey_iff.mpr hm
    exact agreed_iff.mpr ⟨hkey.2, hkey.1 ▸ supporters_of_mem hsorted hall ht⟩
  have htext : NumbersOnly votes →
      ∀ t ∈ getFrequentMembers allMethods (votes.length * 2 / 3), methodValue t ≠ 0 := by
    intro hnumbers t ht hzero
    exact hnumbers t hzero ((agreedText_iff hzero).mpr (supporters_of_mem hsorted hall ht))
  have hspec := methodOfSorted_spec hall votes.length
  by_cases hex : ∃ m, Agreed votes m
  · obtain ⟨m₀, hm₀⟩ := hex
    obtain ⟨m, hm⟩ := exists_isGreatest_agreed hm₀
    obtain ⟨hpos, hsupp⟩ := agreed_iff.mp hm.1
    refine .inl ?_
    -- some text denotes the method, and if no other text of this method is left, it is found
    have hlength : (allMethods.filter fun t => methodKey t = numberKey m).length =
        supporters votes (numberKey m) := by
      rw [(hall.perm.filter _).length_eq, length_filter_kept hsorted]
    obtain ⟨t, ht⟩ : ∃ t, t ∈ allMethods.filter fun t => methodKey t = numberKey m := by
      refine exists_mem_of_length_pos ?_
      rw [hlength]
      omega
    obtain ⟨htall, htkey⟩ := mem_filter.mp ht
    have htm : Denotes t m := methodKey_eq_numberKey_iff.mp ⟨of_decide_eq_true htkey, hpos⟩
    have hfound (halike : ∀ s ∈ allMethods, methodKey s = numberKey m → s = t) :
        IsGreatest {m | Agreed votes m} (methodOfSorted votes.length allMethods) := by
      have htfound := mem_of_supporters hsorted hall hsupp halike
      rcases hspec with ⟨hnil, -⟩ | ⟨best, hbest, hr, hgreatest⟩
      · rw [hnil] at htfound
        cases htfound
      · have hle := hgreatest t htfound
        rw [htm.methodValue_eq] at hle
        have hdenotes : Denotes best (methodValue best).toNat := denotes_of_methodValue (by omega)
        have hge := hm.2 (hnumber best hbest _ hdenotes)
        have hvalue : (methodValue best).toNat = m := by omega
        rwa [hr, hvalue]
    rcases (hagree.1 m hm) with hone | halike | ⟨rfl, hnumbers⟩
    · refine hfound fun s hs hkey => ?_
      have hle : supporters votes (numberKey m) ≤ votes.length := countP_le_length
      obtain ⟨a, ha⟩ := length_eq_one_iff.mp (show
        (allMethods.filter fun t => methodKey t = numberKey m).length = 1 by omega)
      have hsmem : s ∈ allMethods.filter fun t => methodKey t = numberKey m :=
        mem_filter.mpr ⟨hs, decide_eq_true hkey⟩
      rw [ha, mem_singleton] at hsmem ht
      rw [hsmem, ht]
    · refine hfound fun s hs hkey => ?_
      obtain ⟨v, hv, hsv⟩ := exists_mem_vote hsorted hall hs
      obtain ⟨w, hw, htw⟩ := exists_mem_vote hsorted hall htall
      exact halike v hv w hw s hsv t htw (methodKey_eq_numberKey_iff.mp ⟨hkey, hpos⟩) htm
    · -- nothing but the method 1 can be found
      rcases hspec with ⟨-, hr⟩ | ⟨best, hbest, hr, -⟩
      · rwa [hr]
      · have hdenotes := denotes_of_methodValue (htext hnumbers best hbest)
        have hle := hm.2 (hnumber best hbest _ hdenotes)
        have hvalue : (methodValue best).toNat = 1 := le_antisymm hle hdenotes.pos
        rwa [hr, hvalue]
  · have hnone : ∀ m, ¬ Agreed votes m := fun m hm => hex ⟨m, hm⟩
    refine .inr ⟨hnone, ?_⟩
    rcases hspec with ⟨-, hr⟩ | ⟨best, hbest, -, -⟩
    · exact hr
    · exact absurd
        (hnumber best hbest _ (denotes_of_methodValue (htext (hagree.2 hnone) best hbest)))
        (hnone _)

/-- A list can be sorted so that a member comes first of those with its key. -/
lemma exists_isSorting_first (ht : t ∈ l) :
    ∃ s, IsSorting cmpIntStrings l s ∧
    (s.filter fun x => methodKey x = methodKey t).head? = some t := by
  have hs₀ := isSorting_sort (SmartlistSort.insertion String) l
  obtain ⟨before, after, hsplit, hbefore, hafter⟩ :=
    SortedRuns.filter_isInfix (pairwise_methodKey hs₀.sorted) (methodKey t)
  set s₀ := (SmartlistSort.insertion String).sort cmpIntStrings l
  have htmid : t ∈ s₀.filter fun x => methodKey x = methodKey t :=
    mem_filter.mpr ⟨hs₀.perm.mem_iff.mpr ht, decide_eq_true rfl⟩
  have hperm := (perm_cons_erase htmid).symm
  refine ⟨before ++ t :: (s₀.filter fun x => methodKey x = methodKey t).erase t ++ after,
    ⟨?_, ?_⟩, ?_⟩
  · refine Perm.trans ?_ hs₀.perm
    conv_rhs => rw [hsplit]
    exact (hperm.append_left before).append_right after
  · have hsorted := pairwise_methodKey hs₀.sorted
    rw [hsplit] at hsorted
    have hmid : ∀ x ∈ s₀.filter (fun x => methodKey x = methodKey t), methodKey x = methodKey t :=
      fun x hx => of_decide_eq_true (mem_filter.mp hx).2
    exact (SortedRuns.pairwise_rearranged hsorted hmid hperm).imp cmpIntStrings_le_iff.mpr
  · have hnil : before.filter (fun x => methodKey x = methodKey t) = [] :=
      filter_eq_nil_iff.mpr fun x hx => by simpa using (hbefore x hx).ne
    rw [append_assoc, filter_append, hnil, nil_append, cons_append,
      filter_cons_of_pos (by simp)]
    rfl

/-- **If two votes spell a method differently**, they can be sorted so that different texts of it
are left. -/
lemma exists_different_kept (hlong : 2 ≤ supporters votes k) {v w : List String} {x y : String}
    (hv : v ∈ votes) (hw : w ∈ votes) (hx : x ∈ v) (hy : y ∈ w) (hxk : methodKey x = k)
    (hyk : methodKey y = k) (hxy : x ≠ y) :
    ∃ sorted, Forall₂ (IsSorting cmpIntStrings) votes sorted ∧
      ∃ a ∈ (sorted.flatMap (smartlistUniq cmpIntStrings)).filter (fun t => methodKey t = k),
        ∃ b ∈ (sorted.flatMap (smartlistUniq cmpIntStrings)).filter (fun t => methodKey t = k),
          a ≠ b := by
  by_contra hno
  push Not at hno
  -- sort all votes in some way: all that is left of the method is one text
  let sort := (SmartlistSort.insertion String).sort cmpIntStrings
  have hmap (l : List (List String)) : Forall₂ (IsSorting cmpIntStrings) l (l.map sort) := by
    rw [forall₂_map_right_iff, forall₂_same]
    exact fun l _ => isSorting_sort _ l
  obtain ⟨z, hz⟩ : ∃ z, z ∈ ((votes.map sort).flatMap (smartlistUniq cmpIntStrings)).filter fun t =>
      methodKey t = k := by
    refine exists_mem_of_length_pos ?_
    rw [length_filter_kept (hmap votes)]
    omega
  -- some vote has another text, which can be left of it
  obtain ⟨u, hu, t, htu, htk, htz⟩ : ∃ u ∈ votes, ∃ t ∈ u, methodKey t = k ∧ t ≠ z := by
    by_cases hxz : x = z
    · exact ⟨w, hw, y, hy, hyk, fun hyz => hxy (hxz.trans hyz.symm)⟩
    · exact ⟨v, hv, x, hx, hxk, hxz⟩
  obtain ⟨vs₁, vs₂, rfl⟩ := append_of_mem hu
  obtain ⟨s, hs, hfirst⟩ := exists_isSorting_first htu
  have hsorted : Forall₂ (IsSorting cmpIntStrings) (vs₁ ++ u :: vs₂)
      (vs₁.map sort ++ s :: vs₂.map sort) :=
    rel_append (hmap vs₁) (Forall₂.cons hs (hmap vs₂))
  have hkept : ((vs₁.map sort ++ s :: vs₂.map sort).flatMap (smartlistUniq cmpIntStrings)).filter
      (fun t => methodKey t = k) =
      ((vs₁.map sort).flatMap (smartlistUniq cmpIntStrings)).filter (fun t => methodKey t = k) ++
        t :: ((vs₂.map sort).flatMap (smartlistUniq cmpIntStrings)).filter
          (fun t => methodKey t = k) := by
    obtain ⟨rest, hrest⟩ := head?_eq_some_iff.mp (htk ▸ hfirst)
    rw [flatMap_append, filter_append, flatMap_cons, filter_append,
      filter_smartlistUniq (pairwise_methodKey hs.sorted), hrest]
    rfl
  have hlength := length_filter_kept hsorted k
  have htmem :
    t ∈ ((vs₁.map sort ++ s :: vs₂.map sort).flatMap (smartlistUniq cmpIntStrings)).filter
      fun t => methodKey t = k := by
    rw [hkept]
    exact mem_append_right _ mem_cons_self
  -- another vote contributes to both sortings
  obtain ⟨c, hc⟩ : ∃ c, c ∈ ((vs₁.map sort).flatMap (smartlistUniq cmpIntStrings)).filter
      (fun t => methodKey t = k) ++ ((vs₂.map sort).flatMap (smartlistUniq cmpIntStrings)).filter
        (fun t => methodKey t = k) := by
    refine exists_mem_of_length_pos ?_
    rw [hkept, length_append, length_cons] at hlength
    rw [length_append]
    omega
  have hct : c = t := by
    refine hno _ hsorted c ?_ t htmem
    rw [hkept]
    rcases mem_append.mp hc with hc | hc
    · exact mem_append_left _ hc
    · exact mem_append_right _ (mem_cons_of_mem _ hc)
  have hcz : c = z := by
    refine hno _ (hmap _) c ?_ z hz
    rw [map_append, map_cons, flatMap_append, filter_append, flatMap_cons, filter_append]
    rcases mem_append.mp hc with hc | hc
    · exact mem_append_left _ hc
    · exact mem_append_right _ (mem_append_right _ hc)
  exact htz (hct.symm.trans hcz)

/-- Different texts of a method can be arranged so that none of them is found. -/
lemma exists_isSorting_not_found (hsorted : Forall₂ (IsSorting cmpIntStrings) votes sorted)
    {a b : String} (ha : a ∈ (sorted.flatMap (smartlistUniq cmpIntStrings)).filter fun t =>
      methodKey t = k)
    (hb : b ∈ (sorted.flatMap (smartlistUniq cmpIntStrings)).filter fun t => methodKey t = k)
    (hab : a ≠ b) : ∃ allMethods, IsSorting cmpIntStrings
      (sorted.flatMap (smartlistUniq cmpIntStrings)) allMethods ∧
      ∀ t ∈ getFrequentMembers allMethods (votes.length * 2 / 3), methodKey t ≠ k := by
  have hs₀ :=
    isSorting_sort (SmartlistSort.insertion String) (sorted.flatMap (smartlistUniq cmpIntStrings))
  obtain ⟨before, after, hsplit, hbefore, hafter⟩ :=
    SortedRuns.filter_isInfix (pairwise_methodKey hs₀.sorted) k
  obtain ⟨d, hd, hruns⟩ := SortedRuns.exists_perm_shortRuns ha hb hab
  set s₀ := (SmartlistSort.insertion String).sort cmpIntStrings
    (sorted.flatMap (smartlistUniq cmpIntStrings))
  have hperm : d.Perm (s₀.filter fun t => methodKey t = k) := hd.trans (hs₀.perm.filter _).symm
  have hmid : ∀ x ∈ s₀.filter (fun t => methodKey t = k), methodKey x = k :=
    fun x hx => of_decide_eq_true (mem_filter.mp hx).2
  refine ⟨before ++ d ++ after, ⟨?_, ?_⟩, fun t ht htk => ?_⟩
  · refine Perm.trans ?_ hs₀.perm
    conv_rhs => rw [hsplit]
    exact (hperm.append_left before).append_right after
  · have hsorted := pairwise_methodKey hs₀.sorted
    rw [hsplit] at hsorted
    exact (SortedRuns.pairwise_rearranged hsorted hmid hperm).imp cmpIntStrings_le_iff.mpr
  · -- a run of the text is one of the arrangement
    have hclass : (before ++ d ++ after).filter (fun t => methodKey t = k) = d := by
      have hbeforeNil : before.filter (fun x => methodKey x = k) = [] :=
        filter_eq_nil_iff.mpr fun x hx => by simpa using (hbefore x hx).ne
      have hafterNil : after.filter (fun x => methodKey x = k) = [] :=
        filter_eq_nil_iff.mpr fun x hx => by simpa using (hafter x hx).ne'
      have hdAll : d.filter (fun x => methodKey x = k) = d :=
        filter_eq_self.mpr fun x hx => decide_eq_true (hmid x (hperm.mem_iff.mp hx))
      rw [filter_append, filter_append, hbeforeNil, hafterNil, hdAll, nil_append, append_nil]
    have hrun := SortedRuns.replicate_infix_filter (p := fun s => methodKey s = k)
      (mem_getFrequentMembers_iff.mp ht) (decide_eq_true htk)
    rw [hclass] at hrun
    have hshort := hruns _ _ hrun
    rw [length_filter_kept hsorted] at hshort
    have hle : supporters votes k ≤ votes.length := countP_le_length
    omega

/-- **If the spellings do not agree**, some result is not the method to use. -/
lemma spellingsAgree_of_results (hlaw : ∀ r, IsMethodResult votes r → IsConsensusMethod votes r) :
    SpellingsAgree votes := by
  -- a text that is no number and that is agreed on is found in any order
  have htext {sorted : List (List String)} {allMethods : List String}
      (hsorted : Forall₂ (IsSorting cmpIntStrings) votes sorted)
      (hall : IsSorting cmpIntStrings (sorted.flatMap (smartlistUniq cmpIntStrings)) allMethods)
      {t : String} (hzero : methodValue t = 0) (ht : AgreedText votes t) :
      t ∈ getFrequentMembers allMethods (votes.length * 2 / 3) :=
    mem_of_supporters hsorted hall ((agreedText_iff hzero).mp ht) fun _ _ hkey =>
      eq_of_methodKey_eq hzero hkey
  constructor
  · intro m hm
    obtain ⟨hpos, hsupp⟩ := agreed_iff.mp hm.1
    by_contra hno
    rw [not_or, not_or] at hno
    obtain ⟨hone, halike, hnumbers⟩ := hno
    unfold SpelledAlike at halike
    push Not at halike
    obtain ⟨v, hv, w, hw, s, hs, t, ht, hsm, htm, hst⟩ := halike
    have hlong : 2 ≤ supporters votes (numberKey m) := by
      have hle : supporters votes (numberKey m) ≤ votes.length := countP_le_length
      omega
    obtain ⟨sorted, hsorted, a, ha, b, hb, hab⟩ := exists_different_kept hlong hv hw hs ht
      (methodKey_eq_numberKey_iff.mpr hsm).1 (methodKey_eq_numberKey_iff.mpr htm).1 hst
    obtain ⟨allMethods, hall, hnotFound⟩ := exists_isSorting_not_found hsorted ha hb hab
    have hresult : methodOfSorted votes.length allMethods = m := by
      rcases hlaw _ ⟨sorted, hsorted, allMethods, hall, rfl⟩ with hgreatest | ⟨hnone, -⟩
      · exact hgreatest.unique hm
      · exact absurd hm.1 (hnone m)
    rcases methodOfSorted_spec hall votes.length with ⟨hnil, hr⟩ | ⟨best, hbest, hr, -⟩
    · -- only the method 1 can be right, and no text that is agreed on was found
      refine hnumbers ⟨hresult.symm.trans hr, fun t hzero ht => ?_⟩
      have hfound := htext hsorted hall hzero ht
      rw [hnil] at hfound
      cases hfound
    · rw [hr] at hresult
      have hdenotes : Denotes best (methodValue best).toNat := denotes_of_methodValue (by omega)
      rw [hresult] at hdenotes
      exact hnotFound best hbest (methodKey_eq_numberKey_iff.mpr hdenotes).1
  · intro hnone t hzero ht
    have hsorted : Forall₂ (IsSorting cmpIntStrings) votes
        (votes.map ((SmartlistSort.insertion String).sort cmpIntStrings)) := by
      rw [forall₂_map_right_iff, forall₂_same]
      exact fun l _ => isSorting_sort _ l
    have hall := isSorting_sort (SmartlistSort.insertion String)
      ((votes.map ((SmartlistSort.insertion String).sort cmpIntStrings)).flatMap
        (smartlistUniq cmpIntStrings))
    have hfound := htext hsorted hall hzero ht
    rcases methodOfSorted_spec hall votes.length with ⟨hnil, -⟩ | ⟨best, hbest, hr, -⟩
    · rw [hnil] at hfound
      cases hfound
    · -- what is found is no number, so that the result is 0
      have hbestZero : methodValue best = 0 := by
        by_contra hne
        have hkey := methodKey_eq_numberKey_iff.mpr (denotes_of_methodValue hne)
        exact hnone _ (agreed_iff.mpr ⟨hkey.2, hkey.1 ▸ supporters_of_mem hsorted hall hbest⟩)
      rcases hlaw _ ⟨_, hsorted, _, hall, rfl⟩ with hgreatest | ⟨-, hone⟩
      · exact hnone _ hgreatest.1
      · rw [hr, hbestZero] at hone
        cases hone

end Results

/-- **When the consensus method is right.**  For every list of votes, every result that the function
may return is the greatest method that more than two thirds of the votes support, or 1 if there is
none, exactly if the votes spell this method alike; and where 1 is right, if the votes do not agree
on a text that is no number. -/
theorem compute_consensus_method_iff (votes : List (List String)) :
    (∀ r, IsMethodResult votes r → IsConsensusMethod votes r) ↔ SpellingsAgree votes := by
  refine ⟨spellingsAgree_of_results, ?_⟩
  rintro hagree r ⟨sorted, hsorted, allMethods, hall, rfl⟩
  exact isConsensusMethod_of_spellingsAgree hagree hsorted hall

/-- All of three votes support the method 13, but one of them spells it differently.  Then it is not
found, and 1 is returned. -/
theorem not_compute_consensus_method : IsMethodResult [["13"], ["13"], ["013"]] 1 ∧
    IsConsensusMethod [["13"], ["13"], ["013"]] 13 ∧
    ¬ IsConsensusMethod [["13"], ["13"], ["013"]] 1 := by
  have hagreed : Agreed [["13"], ["13"], ["013"]] 13 := by decide
  have hgreatest : IsGreatest {m | Agreed [["13"], ["13"], ["013"]] m} 13 := by
    refine ⟨hagreed, fun m hm => ?_⟩
    have hpos : 0 < [["13"], ["13"], ["013"]].countP fun v => v.any fun t => Denotes t m := by
      have : 2 * 3 < 3 * [["13"], ["13"], ["013"]].countP fun v => v.any fun t => Denotes t m := hm
      omega
    obtain ⟨v, hv, hlist⟩ := countP_pos_iff.mp hpos
    obtain ⟨t, ht, hdenotes⟩ := List.any_eq_true.mp hlist
    have hall : ∀ v ∈ [["13"], ["13"], ["013"]], ∀ t ∈ v, torParseLong t.toList 1 (2 ^ 31 - 1) =
      some 13 := by decide
    have hthirteen := (hall v hv t ht).symm.trans (of_decide_eq_true hdenotes)
    have heq := Option.some.inj hthirteen
    omega
  refine ⟨⟨[["13"], ["13"], ["013"]], ?_, ["13", "13", "013"], ⟨.refl _, by decide⟩, by decide⟩,
    Or.inl hgreatest, ?_⟩
  · rw [forall₂_same]
    intro v hv
    refine ⟨.refl _, ?_⟩
    revert v
    decide
  · rintro (hone | ⟨hnone, -⟩)
    · exact absurd (hone.unique hgreatest) (by decide)
    · exact hnone 13 hagreed

end Astoria
