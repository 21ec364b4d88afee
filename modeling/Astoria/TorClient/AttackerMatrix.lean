import Mathlib.Algebra.Order.Field.Rat
import Mathlib.Data.Finset.Card
import Mathlib.Data.List.TakeWhile

/-!
# The attacker matrix

A pair of an entry and an exit is attacked by the ASes that are on both its entry segment and its
exit segment.  The client tests all pairs, one after another, and builds the list of the attackers
and a matrix `S` with a row for every attacker and a column for every pair, which is handed to a
linear program.

The loop that fills a new row with zeros reuses the index `j` of the loop over the entry segment.
After a new attacker has been found, the test of the pair therefore goes on at the position `paths +
1` of the segment.  What the tests reach is described by `scanned`; the matrix is exact if and only
if the tests reach all common ASes and there are no more attackers than row pointers.
-/

namespace Astoria

open List
open Option hiding or_assoc

/-- The ASes of a segment. -/
abbrev Segment := List ℤ

/-! ### Building the matrix -/

/-- The attackers found so far and their rows. -/
structure AttackerState where
  attackers : List ℤ
  /-- The rows of the matrix, one for every attacker. -/
  S : List (List ℚ)

/-- The pairs of segments in the order of the tests. -/
def segmentPairs (entryParts exitParts : List Segment) : List (Segment × Segment) :=
  entryParts.flatMap fun entry => exitParts.map fun exit => (entry, exit)

/-- Record that `as` attacks the pair `pnum`.  A new attacker gets a new row; there are `paths` row
pointers. -/
def recordAttacker (paths pnum : ℕ) (s : AttackerState) (as : ℤ) : Option AttackerState :=
  let a := s.attackers.idxOf as
  if a ≠ s.attackers.length then some { s with S := s.S.modify a fun row => row.set pnum 1 }
  else if paths ≤ a then none
  else some ⟨s.attackers ++ [as], s.S ++ [(replicate paths 0).set pnum 1]⟩

/-- Test a pair from the position `j` of the entry segment on.  The result says whether an attacker
has been found.  The loop is given fuel, and it fails if the fuel does not suffice. -/
def scanEntry (paths pnum : ℕ) (entry exit : Segment) :
    ℕ → ℕ → AttackerState → Bool → Option (AttackerState × Bool)
  | fuel, j, s, hasAttacker =>
    match entry[j]? with
    | none => some (s, hasAttacker)
    | some as =>
      match fuel with
      | 0 => none
      | fuel + 1 =>
        if as ∈ exit then
          -- filling a new row with zeros leaves `j` at `paths`
          (recordAttacker paths pnum s as).bind fun s' =>
            scanEntry paths pnum entry exit fuel
              ((if as ∈ s.attackers then j else paths) + 1) s' true
        else scanEntry paths pnum entry exit fuel (j + 1) s hasAttacker

/-- The test of a pair.  No position is visited more often than there are attackers on the segment,
and once more. -/
def testPair (paths : ℕ) (st : AttackerState × List Bool) (pair : (Segment × Segment) × ℕ) :
    Option (AttackerState × List Bool) :=
  let entry := pair.1.1
  (scanEntry paths pair.2 entry pair.1.2 ((entry.length + 1) * (entry.length + 1)) 0 st.1
    false).map fun r => (r.1, st.2 ++ [!r.2])

/-- The attackers, their rows and for every pair whether it is free of attackers. -/
structure AttackerMatrix extends AttackerState where
  attackerFree : List Bool

/-- The number of ASes for which a segment has room (`relyasns.all`). -/
def maxPartAses : ℕ := 200

/-- Test all pairs.  Segments that do not fit their arrays are written over other memory. -/
def attackerMatrix (entryParts exitParts : List Segment) : Option AttackerMatrix :=
  if ∃ part ∈ entryParts ++ exitParts, maxPartAses < part.length then none
  else
    ((segmentPairs entryParts exitParts).zipIdx.foldlM
      (testPair (entryParts.length * exitParts.length)) (⟨[], []⟩, [])).map fun st =>
        { toAttackerState := st.1, attackerFree := st.2 }

lemma length_segmentPairs (entryParts exitParts : List Segment) :
    (segmentPairs entryParts exitParts).length = entryParts.length * exitParts.length := by
  simp [segmentPairs, length_flatMap]

/-! ### What the matrix says -/

/-- The entry of a matrix in row `a` and column `p`. -/
def matrixEntry (S : List (List ℚ)) (a p : ℕ) : Option ℚ := S[a]?.bind fun row => row[p]?

/-- The matrix says that the AS `c` attacks the pair `p` exactly when `inc c p` holds. -/
structure Represents (paths : ℕ) (inc : ℤ → ℕ → Prop) (s : AttackerState) : Prop where
  /-- No attacker is listed twice. -/
  nodup : s.attackers.Nodup
  mem : ∀ c, c ∈ s.attackers ↔ ∃ p, inc c p
  /-- There is a row pointer for every attacker. -/
  length_le : s.attackers.length ≤ paths
  length : s.S.length = s.attackers.length
  one : ∀ (a : ℕ) c p, s.attackers[a]? = some c → p < paths → inc c p → matrixEntry s.S a p = some 1
  zero : ∀ (a : ℕ) c p, s.attackers[a]? = some c → p < paths → ¬ inc c p →
    matrixEntry s.S a p = some 0

section Record

variable {paths pnum : ℕ} {inc inc' : ℤ → ℕ → Prop} {s s' : AttackerState} {as : ℤ}

lemma represents_nil : Represents paths (fun _ _ => False) ⟨[], []⟩ := by
  constructor <;> simp

lemma Represents.congr (h : Represents paths inc s) (hinc : ∀ c p, inc c p ↔ inc' c p) :
    Represents paths inc' s where
  nodup := h.nodup
  mem c := (h.mem c).trans (exists_congr (hinc c))
  length_le := h.length_le
  length := h.length
  one a c p ha hp hi := h.one a c p ha hp ((hinc c p).2 hi)
  zero a c p ha hp hi := h.zero a c p ha hp fun hc => hi ((hinc c p).1 hc)

/-- Recording an attacker that is known sets an entry of its row. -/
lemma Represents.record_known (h : Represents paths inc s) (has : as ∈ s.attackers) :
    ∃ s', recordAttacker paths pnum s as = some s' ∧ s'.attackers = s.attackers ∧
      Represents paths (fun c p => inc c p ∨ (c = as ∧ p = pnum)) s' := by
  have hidx : s.attackers.idxOf as < s.attackers.length := idxOf_lt_length_iff.mpr has
  have hget : s.attackers[s.attackers.idxOf as]? = some as := by
    rw [getElem?_eq_getElem hidx, getElem_idxOf]
  refine ⟨{ s with S := s.S.modify (s.attackers.idxOf as) fun row => row.set pnum 1 },
    by rw [recordAttacker, if_pos (ne_of_lt hidx)], rfl, ?_⟩
  -- the other rows belong to other attackers
  have hrow : ∀ (a : ℕ) c, s.attackers[a]? = some c → (a = s.attackers.idxOf as ↔ c = as) := by
    intro a c ha
    constructor
    · rintro rfl
      exact some.inj (ha.symm.trans hget)
    · rintro rfl
      obtain ⟨hlt, heq⟩ := List.getElem?_eq_some_iff.mp ha
      rw [← heq]
      exact (h.nodup.idxOf_getElem a hlt).symm
  have hentry : ∀ (a : ℕ) c p, s.attackers[a]? = some c → p < paths →
      matrixEntry (s.S.modify (s.attackers.idxOf as) fun row => row.set pnum 1) a p =
        if c = as ∧ p = pnum then some 1 else matrixEntry s.S a p := by
    intro a c p ha hpp
    rw [matrixEntry, getElem?_modify]
    by_cases hc : c = as
    · simp only [((hrow a c ha).2 hc).symm, if_true, Option.map_eq_map]
      have hsome : ∃ v, matrixEntry s.S a p = some v := by
        by_cases hi : inc c p
        · exact ⟨1, h.one a c p ha hpp hi⟩
        · exact ⟨0, h.zero a c p ha hpp hi⟩
      obtain ⟨v, hv⟩ := hsome
      obtain ⟨row, hrow', hv⟩ := bind_eq_some_iff.mp hv
      obtain ⟨hlt, -⟩ := List.getElem?_eq_some_iff.mp hv
      rw [matrixEntry, hrow', map_some, bind_some, bind_some, getElem?_set]
      by_cases hpn : p = pnum
      · rw [if_pos hpn.symm, if_pos (hpn ▸ hlt), if_pos ⟨hc, hpn⟩]
      · rw [if_neg (Ne.symm hpn), if_neg fun hc => hpn hc.2]
    · have hidx' : s.attackers.idxOf as ≠ a := fun he => hc ((hrow a c ha).1 he.symm)
      simp [matrixEntry, hidx', hc]
  constructor
  case nodup => exact h.nodup
  case mem =>
    intro c
    rw [h.mem]
    constructor
    · rintro ⟨p, hi⟩
      exact ⟨p, .inl hi⟩
    · rintro ⟨p, hi | ⟨rfl, -⟩⟩
      · exact ⟨p, hi⟩
      · exact (h.mem c).1 has
  case length_le => exact h.length_le
  case length => rw [length_modify, h.length]
  case one =>
    intro a c p ha hpp hi
    rw [hentry a c p ha hpp]
    split_ifs with hc
    · rfl
    · exact h.one a c p ha hpp (hi.resolve_right hc)
  case zero =>
    intro a c p ha hpp hi
    rw [not_or] at hi
    rw [hentry a c p ha hpp, if_neg hi.2]
    exact h.zero a c p ha hpp hi.1

/-- Recording a new attacker adds a row, as long as there is a row pointer. -/
lemma Represents.record_new (h : Represents paths inc s) (hp : pnum < paths)
    (has : as ∉ s.attackers) (hroom : s.attackers.length < paths) :
    ∃ s', recordAttacker paths pnum s as = some s' ∧ s'.attackers = s.attackers ++ [as] ∧
      Represents paths (fun c p => inc c p ∨ (c = as ∧ p = pnum)) s' := by
  have hidx : s.attackers.idxOf as = s.attackers.length := idxOf_eq_length_iff.mpr has
  have hno : ∀ p, ¬ inc as p := fun p hi => has ((h.mem as).2 ⟨p, hi⟩)
  refine ⟨⟨s.attackers ++ [as], s.S ++ [(replicate paths 0).set pnum 1]⟩,
    by rw [recordAttacker, hidx, if_neg (by simp), if_neg (not_le.mpr hroom)], rfl, ?_⟩
  have hold : ∀ (a : ℕ) c p, s.attackers[a]? = some c →
      matrixEntry (s.S ++ [(replicate paths (0 : ℚ)).set pnum 1]) a p =
        matrixEntry s.S a p := by
    intro a c p ha
    obtain ⟨hlt, -⟩ := List.getElem?_eq_some_iff.mp ha
    rw [matrixEntry, getElem?_append_left (by rw [h.length]; exact hlt), matrixEntry]
  have hnew : ∀ (a : ℕ) c, (s.attackers ++ [as])[a]? = some c →
      s.attackers[a]? = some c ∨ (a = s.attackers.length ∧ c = as) := by
    intro a c ha
    by_cases hlt : a < s.attackers.length
    · rw [getElem?_append_left hlt] at ha
      exact .inl ha
    · rw [getElem?_append_right (by omega)] at ha
      obtain ⟨h0, rfl⟩ := List.getElem?_eq_some_iff.mp ha
      rw [length_singleton] at h0
      exact .inr ⟨by omega, by simp⟩
  have hfresh : ∀ p, p < paths →
      matrixEntry (s.S ++ [(replicate paths (0 : ℚ)).set pnum 1]) s.attackers.length p =
        some (if p = pnum then 1 else 0) := by
    intro p hpp
    rw [matrixEntry, getElem?_append_right (by rw [h.length]), h.length, Nat.sub_self,
      getElem?_cons_zero, bind_some, getElem?_set, length_replicate]
    by_cases hpn : p = pnum
    · rw [if_pos hpn.symm, if_pos hp, if_pos hpn]
    · rw [if_neg (Ne.symm hpn), if_neg hpn, getElem?_replicate, if_pos hpp]
  have hne : ∀ (a : ℕ) c, s.attackers[a]? = some c → c ≠ as := by
    rintro a c ha rfl
    exact has (mem_of_getElem? ha)
  constructor
  case nodup =>
    exact nodup_append.mpr ⟨h.nodup, nodup_singleton as, fun a ha b hb he =>
      has (by rw [mem_singleton] at hb; rwa [← hb, ← he])⟩
  case mem =>
    intro c
    rw [mem_append, mem_singleton, h.mem]
    constructor
    · rintro (⟨p, hi⟩ | rfl)
      · exact ⟨p, .inl hi⟩
      · exact ⟨pnum, .inr ⟨rfl, rfl⟩⟩
    · rintro ⟨p, hi | ⟨rfl, -⟩⟩
      · exact .inl ⟨p, hi⟩
      · exact .inr rfl
  case length_le =>
    rw [length_append, length_singleton]
    omega
  case length => simp [h.length]
  case one =>
    intro a c p ha hpp hi
    rcases hnew a c ha with ha | ⟨rfl, rfl⟩
    · rw [hold a c p ha]
      exact h.one a c p ha hpp (hi.resolve_right fun he => hne a c ha he.1)
    · rw [hfresh p hpp, if_pos (hi.resolve_left (hno p)).2]
  case zero =>
    intro a c p ha hpp hi
    rw [not_or] at hi
    rcases hnew a c ha with ha | ⟨rfl, rfl⟩
    · rw [hold a c p ha]
      exact h.zero a c p ha hpp hi.1
    · rw [hfresh p hpp, if_neg fun he => hi.2 ⟨rfl, he⟩]

lemma recordAttacker_eq_none (has : as ∉ s.attackers) (hfull : paths ≤ s.attackers.length) :
    recordAttacker paths pnum s as = none := by
  rw [recordAttacker, idxOf_eq_length_iff.mpr has, if_neg (by simp), if_pos hfull]

end Record

/-! ### What a test reaches -/

/-- The ASes of an entry segment that a test reaches: those up to the first fresh one, and those
from the position `paths + 1` on. -/
def scanned (paths : ℕ) (fresh : ℤ → Bool) (entry : Segment) : List ℤ :=
  entry.take ((entry.takeWhile fun c => !fresh c).length + 1) ++ entry.drop (paths + 1)

/-- There are more ASes of a kind than row pointers. -/
def TooMany (paths : ℕ) (common : ℤ → Prop) : Prop :=
  ∃ l : List ℤ, l.Nodup ∧ paths < l.length ∧ ∀ c ∈ l, common c

section Scan

variable {paths pnum : ℕ} {entry exit : Segment} {inc : ℤ → ℕ → Prop} {s : AttackerState}

/-- The ASes of a segment that are not recorded yet, and the positions after `j`, bound the number
of steps from the position `j` on. -/
def scanBound (entry : Segment) (attackers : List ℤ) (j : ℕ) : ℕ :=
  (entry.filter fun c => c ∉ attackers).length * (entry.length + 1) + (entry.length - j)

/-- A new attacker lowers the bound, wherever the test goes on. -/
lemma scanBound_new {attackers : List ℤ} {as : ℤ} (hentry : as ∈ entry) (has : as ∉ attackers)
    (j k : ℕ) : scanBound entry (attackers ++ [as]) k < scanBound entry attackers j := by
  have hlt : (entry.filter fun c => c ∉ attackers ++ [as]).length <
      (entry.filter fun c => c ∉ attackers).length := by
    have hfilter : (entry.filter fun c => c ∉ attackers ++ [as]) =
        (entry.filter fun c => c ∉ attackers).filter fun c => c ≠ as := by
      rw [List.filter_filter]
      refine filter_congr fun c _ => ?_
      simp [and_comm]
    rw [hfilter, length_filter_lt_length_iff_exists]
    exact ⟨as, by simp [hentry, has], by simp⟩
  unfold scanBound
  calc (entry.filter fun c => c ∉ attackers ++ [as]).length * (entry.length + 1) +
        (entry.length - k)
      < (entry.filter fun c => c ∉ attackers ++ [as]).length * (entry.length + 1) +
        (entry.length + 1) := by omega
    _ = ((entry.filter fun c => c ∉ attackers ++ [as]).length + 1) * (entry.length + 1) := by
        rw [Nat.add_mul, one_mul]
    _ ≤ (entry.filter fun c => c ∉ attackers).length * (entry.length + 1) :=
        Nat.mul_le_mul_right _ hlt
    _ ≤ _ := Nat.le_add_right _ _

/-- The outcome of a test that reaches the ASes in `reached` and reports `flag`: it adds the common
ASes among those that it reaches to the matrix, unless the row pointers do not suffice. -/
def Reaches (paths pnum : ℕ) (exit : Segment) (inc : ℤ → ℕ → Prop) (flag : Bool)
    (reached : List ℤ) (r : Option (AttackerState × Bool)) : Prop :=
  (∃ s, r = some (s, flag) ∧ Represents paths (fun c p => inc c p ∨
    (p = pnum ∧ c ∈ exit ∧ c ∈ reached)) s) ∨
  (r = none ∧ TooMany paths fun c => (∃ p, inc c p) ∨ (c ∈ exit ∧ c ∈ reached))

lemma Represents.reaches (h : Represents paths inc s) {flag : Bool} {reached : List ℤ}
    (hdone : ∀ c ∈ exit, c ∈ reached → inc c pnum) :
    Reaches paths pnum exit inc flag reached (some (s, flag)) := by
  refine .inl ⟨s, rfl, h.congr fun c p => ⟨.inl, ?_⟩⟩
  rintro (hi | ⟨rfl, hc, hr⟩)
  · exact hi
  · exact hdone c hc hr

/-- Recording an attacker before the rest of a test. -/
lemma Represents.bind_record (h : Represents paths inc s) (hp : pnum < paths) {as : ℤ}
    (hexit : as ∈ exit) {flag : Bool} {reached : List ℤ} (rest : List ℤ)
    (hreached : ∀ c ∈ exit, (inc c pnum ∨ c ∈ reached) ↔ (inc c pnum ∨ c = as) ∨ c ∈ rest)
    {f : AttackerState → Option (AttackerState × Bool)}
    (hf : ∀ s₁, s₁.attackers = (if as ∈ s.attackers then s.attackers else s.attackers ++ [as]) →
      Represents paths (fun c p => inc c p ∨ (c = as ∧ p = pnum)) s₁ →
      Reaches paths pnum exit (fun c p => inc c p ∨ (c = as ∧ p = pnum)) flag rest (f s₁)) :
    Reaches paths pnum exit inc flag reached ((recordAttacker paths pnum s as).bind f) := by
  have hback : ∀ c ∈ exit, (inc c pnum ∨ c = as) ∨ c ∈ rest →
      (∃ p, inc c p) ∨ (c ∈ exit ∧ c ∈ reached) := by
    intro c hc h
    rcases (hreached c hc).2 h with hi | hi
    · exact .inl ⟨pnum, hi⟩
    · exact .inr ⟨hc, hi⟩
  have hcommon : ∀ c, ((∃ p, inc c p ∨ (c = as ∧ p = pnum)) ∨ (c ∈ exit ∧ c ∈ rest)) →
      (∃ p, inc c p) ∨ (c ∈ exit ∧ c ∈ reached) := by
    rintro c (⟨p, hi | ⟨rfl, -⟩⟩ | ⟨hc, hi⟩)
    · exact .inl ⟨p, hi⟩
    · exact hback c hexit (.inl (.inr rfl))
    · exact hback c hc (.inr hi)
  have hrest : ∀ s₁, recordAttacker paths pnum s as = some s₁ →
      s₁.attackers = (if as ∈ s.attackers then s.attackers else s.attackers ++ [as]) →
      Represents paths (fun c p => inc c p ∨ (c = as ∧ p = pnum)) s₁ →
      Reaches paths pnum exit inc flag reached ((recordAttacker paths pnum s as).bind f) := by
    intro s₁ hs₁ hatt h₁
    rw [hs₁, bind_some]
    rcases hf s₁ hatt h₁ with ⟨s', hs', h'⟩ | ⟨hnone, l, hnd, hlen, hl⟩
    · refine .inl ⟨s', hs', h'.congr fun c p => ?_⟩
      by_cases hc : p = pnum ∧ c ∈ exit
      · obtain ⟨rfl, hc⟩ := hc
        simpa [hc] using (hreached c hc).symm
      · have hne : ¬ (c = as ∧ p = pnum) := fun he => hc ⟨he.2, he.1 ▸ hexit⟩
        have hno : ∀ l : List ℤ, ¬ (p = pnum ∧ c ∈ exit ∧ c ∈ l) := fun l he => hc ⟨he.1, he.2.1⟩
        simp [hne, hno]
    · exact .inr ⟨hnone, l, hnd, hlen, fun c hc => hcommon c (hl c hc)⟩
  by_cases hknown : as ∈ s.attackers
  · obtain ⟨s₁, hs₁, hatt, h₁⟩ := h.record_known hknown
    exact hrest s₁ hs₁ (by rw [hatt, if_pos hknown]) h₁
  · by_cases hroom : s.attackers.length < paths
    · obtain ⟨s₁, hs₁, hatt, h₁⟩ := h.record_new hp hknown hroom
      exact hrest s₁ hs₁ (by rw [hatt, if_neg hknown]) h₁
    · rw [recordAttacker_eq_none hknown (not_lt.mp hroom)]
      refine .inr ⟨rfl, s.attackers ++ [as], ?_, ?_, fun c hc => ?_⟩
      · exact nodup_append.mpr ⟨h.nodup, nodup_singleton as, fun a ha b hb he =>
          hknown (by rw [mem_singleton] at hb; rwa [← hb, ← he])⟩
      · rw [length_append, length_singleton]
        omega
      · rcases mem_append.mp hc with hc | hc
        · exact .inl ((h.mem c).1 hc)
        · rw [mem_singleton] at hc
          exact hback c (hc ▸ hexit) (.inl (.inr hc))

lemma scanEntry_end {fuel j : ℕ} {hasAttacker : Bool} (hj : entry[j]? = none) :
    scanEntry paths pnum entry exit fuel j s hasAttacker = some (s, hasAttacker) := by
  cases fuel with
  | zero => rw [scanEntry, hj]
  | succ fuel => rw [scanEntry, hj]

/-- A test that has found a new attacker reaches everything from the position `paths + 1` on. -/
lemma scanEntry_tail (hp : pnum < paths) {fuel j : ℕ} (h : Represents paths inc s) (hj : paths < j)
    (hdone : ∀ k as, paths < k → k < j → entry[k]? = some as → as ∈ exit → inc as pnum)
    (hfuel : scanBound entry s.attackers j ≤ fuel) :
    Reaches paths pnum exit inc true (entry.drop (paths + 1))
      (scanEntry paths pnum entry exit fuel j s true) := by
  induction fuel generalizing j s inc with
  | zero =>
    have hnone : entry[j]? = none := by
      rw [List.getElem?_eq_none_iff]
      unfold scanBound at hfuel
      omega
    rw [scanEntry_end hnone]
    refine h.reaches fun c hc hmem => ?_
    obtain ⟨k, hk⟩ := mem_iff_getElem?.mp hmem
    rw [getElem?_drop] at hk
    rw [List.getElem?_eq_none_iff] at hnone
    obtain ⟨hlt, -⟩ := List.getElem?_eq_some_iff.mp hk
    exact hdone _ c (by omega) (by omega) hk hc
  | succ fuel ih =>
    cases has : entry[j]? with
    | none =>
      rw [scanEntry_end has]
      refine h.reaches fun c hc hmem => ?_
      obtain ⟨k, hk⟩ := mem_iff_getElem?.mp hmem
      rw [getElem?_drop] at hk
      rw [List.getElem?_eq_none_iff] at has
      obtain ⟨hlt, -⟩ := List.getElem?_eq_some_iff.mp hk
      exact hdone _ c (by omega) (by omega) hk hc
    | some as =>
      obtain ⟨hlt, -⟩ := List.getElem?_eq_some_iff.mp has
      have hentry : as ∈ entry := mem_of_getElem? has
      have hdrop : as ∈ entry.drop (paths + 1) := by
        refine mem_iff_getElem?.mpr ⟨j - (paths + 1), ?_⟩
        rw [getElem?_drop, ← has]
        congr 1
        omega
      have hnext : scanBound entry s.attackers (j + 1) ≤ fuel := by
        unfold scanBound at hfuel ⊢
        omega
      rw [scanEntry, has]
      by_cases hexit : as ∈ exit
      · simp only [if_pos hexit]
        refine h.bind_record hp hexit (entry.drop (paths + 1)) (fun c _ => ?_) ?_
        · constructor
          · exact fun hc => hc.imp_left .inl
          · rintro ((hc | rfl) | hc)
            · exact .inl hc
            · exact .inr hdrop
            · exact .inr hc
        · intro s₁ hatt h₁
          by_cases hknown : as ∈ s.attackers
          · rw [if_pos hknown] at hatt ⊢
            refine ih h₁ (by omega) (fun k b hk hkj hb hbe => ?_) (by rw [hatt]; exact hnext)
            rcases Nat.lt_succ_iff_lt_or_eq.mp hkj with hkj | rfl
            · exact .inl (hdone k b hk hkj hb hbe)
            · exact .inr ⟨some.inj (hb.symm.trans has), rfl⟩
          · rw [if_neg hknown] at hatt ⊢
            refine ih h₁ (by omega) (fun k b hk hkj => by omega) ?_
            have := scanBound_new hentry hknown j (paths + 1)
            rw [hatt]
            omega
      · simp only [if_neg hexit]
        refine ih h (by omega) (fun k b hk hkj hb hbe => ?_) hnext
        rcases Nat.lt_succ_iff_lt_or_eq.mp hkj with hkj | rfl
        · exact hdone k b hk hkj hb hbe
        · exact absurd (some.inj (hb.symm.trans has) ▸ hbe) hexit

/-- The length of the beginning of a list before the first member without a property. -/
lemma length_takeWhile_eq {q : ℤ → Bool} {l : List ℤ} {j : ℕ} {a : ℤ} (ha : l[j]? = some a)
    (hqa : q a = false) (hq : ∀ (k : ℕ) b, k < j → l[k]? = some b → q b = true) :
    (l.takeWhile q).length = j := by
  induction l generalizing j with
  | nil => cases ha
  | cons b l ih =>
    cases j with
    | zero =>
      rw [getElem?_cons_zero, some.injEq] at ha
      rw [takeWhile_cons, ha, hqa]
      rfl
    | succ j =>
      rw [takeWhile_cons, if_pos (hq 0 b (by omega) rfl), length_cons,
        ih (by simpa using ha) fun k c hk hc => hq (k + 1) c (by omega) (by simpa using hc)]

/-- The beginning of a list that has a property is no longer than the list up to the first member
without it. -/
lemma le_length_takeWhile {q : ℤ → Bool} {l : List ℤ} {j : ℕ} (hj : j ≤ l.length)
    (hq : ∀ (k : ℕ) b, k < j → l[k]? = some b → q b = true) : j ≤ (l.takeWhile q).length := by
  induction l generalizing j with
  | nil => exact hj
  | cons b l ih =>
    cases j with
    | zero => exact Nat.zero_le _
    | succ j =>
      rw [takeWhile_cons, if_pos (hq 0 b (by omega) rfl), length_cons]
      refine Nat.succ_le_succ (ih (Nat.le_of_succ_le_succ hj) fun k c hk hc => ?_)
      exact hq (k + 1) c (by omega) (by simpa using hc)

/-- At the end of the segment, a test that has found no new attacker has reached everything. -/
lemma scanEntry_head_end {attackers : List ℤ} {fuel j : ℕ} {hasAttacker : Bool}
    (h : Represents paths inc s)
    (hdone : ∀ k as, k < j → entry[k]? = some as → as ∈ exit → inc as pnum ∧ as ∈ attackers)
    (hj : entry.length ≤ j) :
    Reaches paths pnum exit inc (hasAttacker || (entry.drop j).any fun c => c ∈ exit)
      (scanned paths (fun c => c ∈ exit ∧ c ∉ attackers) entry)
      (scanEntry paths pnum entry exit fuel j s hasAttacker) := by
  rw [scanEntry_end (List.getElem?_eq_none_iff.mpr hj), drop_of_length_le hj, any_nil,
    Bool.or_false]
  refine h.reaches fun c hc hmem => ?_
  have hentry : c ∈ entry := by
    rcases mem_append.mp hmem with hmem | hmem
    · exact mem_of_mem_take hmem
    · exact mem_of_mem_drop hmem
  obtain ⟨k, hk⟩ := mem_iff_getElem?.mp hentry
  obtain ⟨hlt, -⟩ := List.getElem?_eq_some_iff.mp hk
  exact (hdone k c (by omega) hk hc).1

/-- A test reaches the ASes up to the first fresh one and, if there is one, those from the position
`paths + 1` on; it reports whether there is a common AS. -/
lemma scanEntry_head (hp : pnum < paths) {attackers : List ℤ} {fuel j : ℕ} {hasAttacker : Bool}
    (h : Represents paths inc s) (hatt : s.attackers = attackers)
    (hdone : ∀ k as, k < j → entry[k]? = some as → as ∈ exit → inc as pnum ∧ as ∈ attackers)
    (hfuel : scanBound entry s.attackers j ≤ fuel) :
    Reaches paths pnum exit inc (hasAttacker || (entry.drop j).any fun c => c ∈ exit)
      (scanned paths (fun c => c ∈ exit ∧ c ∉ attackers) entry)
      (scanEntry paths pnum entry exit fuel j s hasAttacker) := by
  induction fuel generalizing j s inc hasAttacker with
  | zero =>
    refine scanEntry_head_end h hdone ?_
    unfold scanBound at hfuel
    omega
  | succ fuel ih =>
    cases has : entry[j]? with
    | none => exact scanEntry_head_end h hdone (List.getElem?_eq_none_iff.mp has)
    | some as =>
      obtain ⟨hlt, hget⟩ := List.getElem?_eq_some_iff.mp has
      have hentry : as ∈ entry := mem_of_getElem? has
      have hnext : scanBound entry s.attackers (j + 1) ≤ fuel := by
        unfold scanBound at hfuel ⊢
        omega
      have hdrop : entry.drop j = as :: entry.drop (j + 1) := by
        rw [drop_eq_getElem_cons hlt, hget]
      -- no AS before the position `j` is fresh
      have hold : ∀ (k : ℕ) b, k < j → entry[k]? = some b →
          (!decide (b ∈ exit ∧ b ∉ attackers)) = true := by
        intro k b hk hb
        by_cases hbe : b ∈ exit
        · simp [(hdone k b hk hb hbe).2]
        · simp [hbe]
      rw [scanEntry, has]
      by_cases hexit : as ∈ exit
      · have hflag : (hasAttacker || (entry.drop j).any fun c => c ∈ exit) = true := by
          simp [hdrop, hexit]
        simp only [if_pos hexit]
        rw [hflag]
        by_cases hknown : as ∈ s.attackers
        · have hmem : as ∈ scanned paths (fun c => c ∈ exit ∧ c ∉ attackers) entry := by
            have hle := @le_length_takeWhile (fun c => !decide (c ∈ exit ∧ c ∉ attackers)) entry j
              (le_of_lt hlt) hold
            exact mem_append_left _ (mem_take_iff_getElem.mpr
              ⟨j, Nat.lt_min.mpr ⟨Nat.lt_succ_of_le hle, hlt⟩, hget⟩)
          refine h.bind_record hp hexit
            (scanned paths (fun c => c ∈ exit ∧ c ∉ attackers) entry) (fun c _ => ?_) ?_
          · constructor
            · exact fun hc => hc.imp_left .inl
            · rintro ((hc | rfl) | hc)
              · exact .inl hc
              · exact .inr hmem
              · exact .inr hc
          · intro s₁ hatt₁ h₁
            rw [if_pos hknown] at hatt₁ ⊢
            have hrest := @ih _ s₁ (j + 1) true h₁ (hatt₁.trans hatt) (fun k b hk hb hbe => by
              rcases Nat.lt_succ_iff_lt_or_eq.mp hk with hk | rfl
              · exact ⟨.inl (hdone k b hk hb hbe).1, (hdone k b hk hb hbe).2⟩
              · obtain rfl := some.inj (hb.symm.trans has)
                exact ⟨.inr ⟨rfl, rfl⟩, hatt ▸ hknown⟩) (by rw [hatt₁]; exact hnext)
            rwa [Bool.true_or] at hrest
        · have hlen := @length_takeWhile_eq (fun c => !decide (c ∈ exit ∧ c ∉ attackers)) entry j as
            has (by simp [hexit, ← hatt, hknown]) hold
          refine h.bind_record hp hexit (entry.drop (paths + 1)) (fun c hc => ?_) ?_
          · rw [scanned, hlen, mem_append]
            constructor
            · rintro (hi | hmem | hmem)
              · exact .inl (.inl hi)
              · obtain ⟨k, hk, rfl⟩ := mem_take_iff_getElem.mp hmem
                refine .inl ?_
                rcases Nat.lt_succ_iff_lt_or_eq.mp (lt_of_lt_of_le hk (Nat.min_le_left _ _))
                  with hkj | rfl
                · exact .inl (hdone k _ hkj (getElem?_eq_getElem (by omega)) hc).1
                · exact .inr hget
              · exact .inr hmem
            · rintro ((hi | rfl) | hmem)
              · exact .inl hi
              · exact .inr (.inl (mem_take_iff_getElem.mpr ⟨j, by omega, hget⟩))
              · exact .inr (.inr hmem)
          · intro s₁ hatt₁ h₁
            rw [if_neg hknown] at hatt₁ ⊢
            refine scanEntry_tail hp h₁ (by omega) (fun k b hk hkj => by omega) ?_
            have := scanBound_new hentry hknown j (paths + 1)
            rw [hatt₁]
            omega
      · have hflag : (hasAttacker || (entry.drop j).any fun c => c ∈ exit) =
            (hasAttacker || (entry.drop (j + 1)).any fun c => c ∈ exit) := by
          simp [hdrop, hexit]
        simp only [if_neg hexit]
        rw [hflag]
        refine ih h hatt (fun k b hk hb hbe => ?_) hnext
        rcases Nat.lt_succ_iff_lt_or_eq.mp hk with hk | rfl
        · exact hdone k b hk hb hbe
        · exact absurd (some.inj (hb.symm.trans has) ▸ hbe) hexit

end Scan

/-! ### All tests -/

/-- The common ASes of a pair that its test reaches, when the attackers in `seen` are known. -/
def reachedAses (paths : ℕ) (seen : List ℤ) (pair : Segment × Segment) : List ℤ :=
  (scanned paths (fun c => c ∈ pair.2 ∧ c ∉ seen) pair.1).filter fun c => c ∈ pair.2

/-- The common ASes that the tests reach, pair by pair. -/
def reachedBy (paths : ℕ) : List ℤ → List (Segment × Segment) → List (List ℤ)
  | _, [] => []
  | seen, pair :: rest =>
    reachedAses paths seen pair :: reachedBy paths (seen ++ reachedAses paths seen pair) rest

section Tests

variable {paths : ℕ} {inc : ℤ → ℕ → Prop} {s : AttackerState}

lemma mem_reachedAses {seen : List ℤ} {pair : Segment × Segment} {c : ℤ} :
    c ∈ reachedAses paths seen pair ↔
      c ∈ pair.2 ∧ c ∈ scanned paths (fun c => c ∈ pair.2 ∧ c ∉ seen) pair.1 := by
  rw [reachedAses, mem_filter, decide_eq_true_eq, and_comm]

lemma mem_of_mem_scanned {fresh : ℤ → Bool} {entry : Segment} {c : ℤ}
    (h : c ∈ scanned paths fresh entry) : c ∈ entry := by
  rcases mem_append.mp h with h | h
  · exact mem_of_mem_take h
  · exact mem_of_mem_drop h

/-- Whether a pair of segments has no common AS. -/
def isFree (pair : Segment × Segment) : Bool := !pair.1.any fun c => c ∈ pair.2

lemma scanBound_le (entry : Segment) (attackers : List ℤ) :
    scanBound entry attackers 0 ≤ (entry.length + 1) * (entry.length + 1) := by
  have hle : (entry.filter fun c => c ∉ attackers).length * (entry.length + 1) ≤
      entry.length * (entry.length + 1) := Nat.mul_le_mul_right _ (length_filter_le _ _)
  have hsucc : (entry.length + 1) * (entry.length + 1) =
      entry.length * (entry.length + 1) + (entry.length + 1) := Nat.succ_mul _ _
  unfold scanBound
  omega

/-- The tests of a list of pairs, of which the first one has the number `k`. -/
lemma foldlM_testPair {pairs : List (Segment × Segment)} {k : ℕ} {seen : List ℤ}
    {flags : List Bool} (h : Represents paths inc s) (hseen : ∀ c, c ∈ seen ↔ c ∈ s.attackers)
    (hk : k + pairs.length ≤ paths) :
    (∃ s', (pairs.zipIdx k).foldlM (testPair paths) (s, flags) =
        some (s', flags ++ pairs.map isFree) ∧
      Represents paths (fun c p => inc c p ∨ ∃ i r, p = k + i ∧
        (reachedBy paths seen pairs)[i]? = some r ∧ c ∈ r) s') ∨
    ((pairs.zipIdx k).foldlM (testPair paths) (s, flags) = none ∧
      TooMany paths fun c => (∃ p, inc c p) ∨ ∃ r ∈ reachedBy paths seen pairs, c ∈ r) := by
  induction pairs generalizing k seen flags s inc with
  | nil =>
    refine .inl ⟨s, by simp, h.congr fun c p => ?_⟩
    simp [reachedBy]
  | cons pair pairs ih =>
    rw [length_cons] at hk
    have hscan := @scanEntry_head paths k pair.1 pair.2 inc s (by omega) s.attackers
      ((pair.1.length + 1) * (pair.1.length + 1)) 0 false h rfl (fun k as hk => by omega)
      (scanBound_le _ _)
    rw [Bool.false_or, drop_zero] at hscan
    have hscanned : (fun c => decide (c ∈ pair.2 ∧ c ∉ s.attackers)) =
        fun c => decide (c ∈ pair.2 ∧ c ∉ seen) := by
      funext c
      simp [hseen c]
    rw [zipIdx_cons, foldlM_cons, testPair]
    rcases hscan with ⟨s₁, hs₁, h₁⟩ | ⟨hnone, l, hnd, hlen, hl⟩
    · simp only [hs₁, map_some, bind_eq_bind, bind_some]
      rw [hscanned] at h₁
      have hseen₁ : ∀ c, c ∈ seen ++ reachedAses paths seen pair ↔ c ∈ s₁.attackers := by
        intro c
        rw [mem_append, h₁.mem, hseen, h.mem, mem_reachedAses]
        constructor
        · rintro (⟨p, hi⟩ | hi)
          · exact ⟨p, .inl hi⟩
          · exact ⟨k, .inr ⟨rfl, hi⟩⟩
        · rintro ⟨p, hi | ⟨-, hi⟩⟩
          · exact .inl ⟨p, hi⟩
          · exact .inr hi
      rcases @ih _ _ (k + 1) _ (flags ++ [isFree pair]) h₁ hseen₁ (by omega) with
        ⟨s', hs', h'⟩ | ⟨hnone, l, hnd, hlen, hl⟩
      · refine .inl ⟨s', ?_, h'.congr fun c p => ?_⟩
        · rw [append_assoc] at hs'
          exact hs'
        · rw [reachedBy]
          constructor
          · rintro ((hi | ⟨rfl, hc⟩) | ⟨i, r, rfl, hr, hc⟩)
            · exact .inl hi
            · exact .inr ⟨0, _, rfl, rfl, mem_reachedAses.2 hc⟩
            · exact .inr ⟨i + 1, r, by omega, by simpa using hr, hc⟩
          · rintro (hi | ⟨i, r, rfl, hr, hc⟩)
            · exact .inl (.inl hi)
            · cases i with
              | zero =>
                rw [getElem?_cons_zero, some.injEq] at hr
                subst hr
                exact .inl (.inr ⟨rfl, mem_reachedAses.1 hc⟩)
              | succ i => exact .inr ⟨i, r, by omega, by simpa using hr, hc⟩
      · refine .inr ⟨hnone, l, hnd, hlen, fun c hc => ?_⟩
        rw [reachedBy]
        rcases hl c hc with ⟨p, hi | ⟨-, hi⟩⟩ | ⟨r, hr, hc⟩
        · exact .inl ⟨p, hi⟩
        · exact .inr ⟨_, mem_cons_self, mem_reachedAses.2 hi⟩
        · exact .inr ⟨r, mem_cons_of_mem _ hr, hc⟩
    · simp only [hnone, map_none, bind_eq_bind, bind_none]
      refine .inr ⟨trivial, l, hnd, hlen, fun c hc => (hl c hc).imp_right fun hi => ?_⟩
      rw [hscanned] at hi
      exact ⟨_, mem_cons_self, mem_reachedAses.2 hi⟩

end Tests

/-! ### When the matrix is exact -/

/-- The common ASes of the pairs before the pair `p`. -/
def commonBefore (pairs : List (Segment × Segment)) (p : ℕ) : List ℤ :=
  (pairs.take p).flatMap fun pair => pair.1.filter fun c => c ∈ pair.2

/-- The test of every pair reaches all its common ASes: each of them is on the entry segment at a
position up to the first AS that is common to the pair and to no pair before, or at a position after
`paths`. -/
def TestsReachAll (paths : ℕ) (pairs : List (Segment × Segment)) : Prop :=
  ∀ (p : ℕ) pair, pairs[p]? = some pair → ∀ c ∈ pair.1, c ∈ pair.2 →
    c ∈ scanned paths (fun c => c ∈ pair.2 ∧ c ∉ commonBefore pairs p) pair.1

/-- The list has the attackers of all pairs, each once, and the matrix has a one exactly where an
attacker is on both segments of a pair. -/
structure ExactMatrix (pairs : List (Segment × Segment)) (m : AttackerMatrix) : Prop where
  /-- No attacker is listed twice. -/
  nodup : m.attackers.Nodup
  mem : ∀ c, c ∈ m.attackers ↔ ∃ pair ∈ pairs, c ∈ pair.1 ∧ c ∈ pair.2
  entry : ∀ (a p : ℕ) c pair, m.attackers[a]? = some c → pairs[p]? = some pair →
    matrixEntry m.S a p = some (if c ∈ pair.1 ∧ c ∈ pair.2 then 1 else 0)

section Exact

variable {paths : ℕ} {pairs : List (Segment × Segment)}

lemma mem_commonBefore {p : ℕ} {c : ℤ} : c ∈ commonBefore pairs p ↔
    ∃ pair ∈ pairs.take p, c ∈ pair.1 ∧ c ∈ pair.2 := by
  simp [commonBefore, mem_flatMap, mem_filter]

lemma common_of_mem_reachedBy {seen r : List ℤ} {p : ℕ} {c : ℤ}
    (hr : (reachedBy paths seen pairs)[p]? = some r) (hc : c ∈ r) :
    ∃ pair, pairs[p]? = some pair ∧ c ∈ pair.1 ∧ c ∈ pair.2 := by
  induction pairs generalizing seen p with
  | nil => simp [reachedBy] at hr
  | cons pair pairs ih =>
    rw [reachedBy] at hr
    cases p with
    | zero =>
      rw [getElem?_cons_zero, some.injEq] at hr
      subst hr
      obtain ⟨hce, hcs⟩ := mem_reachedAses.1 hc
      exact ⟨pair, rfl, mem_of_mem_scanned hcs, hce⟩
    | succ p =>
      rw [getElem?_cons_succ] at hr
      obtain ⟨pr, hpr, hc⟩ := ih hr
      exact ⟨pr, by simpa using hpr, hc⟩

/-- The tests reach all common ASes of the pairs exactly when each of them does, knowing all common
ASes of the pairs before as attackers. -/
lemma reachedBy_complete_iff {seen : List ℤ} :
    (∀ (p : ℕ) pair, pairs[p]? = some pair → ∀ c ∈ pair.1, c ∈ pair.2 →
      ∃ r, (reachedBy paths seen pairs)[p]? = some r ∧ c ∈ r) ↔
    ∀ (p : ℕ) pair, pairs[p]? = some pair → ∀ c ∈ pair.1, c ∈ pair.2 →
      c ∈ scanned paths (fun c => c ∈ pair.2 ∧ c ∉ seen ++ commonBefore pairs p) pair.1 := by
  induction pairs generalizing seen with
  | nil => simp
  | cons pair pairs ih =>
    -- once the first pair is complete, the rest knows its common ASes
    have hcommon : (∀ c ∈ pair.1, c ∈ pair.2 → c ∈ reachedAses paths seen pair) → ∀ p,
        (fun c => decide (c ∈ seen ++ commonBefore (pair :: pairs) (p + 1))) =
          fun c => decide (c ∈ (seen ++ reachedAses paths seen pair) ++ commonBefore pairs p) := by
      intro hfirst p
      funext c
      refine decide_eq_decide.mpr ?_
      simp only [mem_append, mem_commonBefore, take_succ_cons, mem_cons,
        exists_eq_or_imp, or_assoc]
      refine or_congr_right (or_congr_left ?_)
      exact ⟨fun h => hfirst c h.1 h.2, fun h => ⟨mem_of_mem_scanned (mem_reachedAses.1 h).2,
        (mem_reachedAses.1 h).1⟩⟩
    have hscanned : (∀ c ∈ pair.1, c ∈ pair.2 → c ∈ reachedAses paths seen pair) →
        ∀ p (pr : Segment × Segment),
          scanned paths (fun c => c ∈ pr.2 ∧ c ∉ seen ++ commonBefore (pair :: pairs) (p + 1))
            pr.1 = scanned paths (fun c => c ∈ pr.2 ∧
              c ∉ (seen ++ reachedAses paths seen pair) ++ commonBefore pairs p) pr.1 := by
      intro hfirst p pr
      congr 1
      funext c
      have := congrFun (hcommon hfirst p) c
      rw [decide_eq_decide] at this
      simp only [this]
    have hzero : ∀ c, c ∈ pair.2 → (c ∈ reachedAses paths seen pair ↔
        c ∈ scanned paths (fun c => c ∈ pair.2 ∧ c ∉ seen ++ commonBefore (pair :: pairs) 0)
          pair.1) := by
      intro c hc
      rw [mem_reachedAses]
      simp [commonBefore, hc]
    constructor
    · intro h
      have hfirst : ∀ c ∈ pair.1, c ∈ pair.2 → c ∈ reachedAses paths seen pair := by
        intro c hc hce
        obtain ⟨r, hr, hcr⟩ := h 0 pair rfl c hc hce
        rw [reachedBy, getElem?_cons_zero, some.injEq] at hr
        exact hr ▸ hcr
      intro p pr hpr c hc hce
      cases p with
      | zero =>
        rw [getElem?_cons_zero, some.injEq] at hpr
        subst hpr
        exact (hzero c hce).1 (hfirst c hc hce)
      | succ p =>
        rw [getElem?_cons_succ] at hpr
        rw [hscanned hfirst]
        refine ih.1 (fun q qr hqr b hb hbe => ?_) p pr hpr c hc hce
        have := h (q + 1) qr (by simpa using hqr) b hb hbe
        simpa [reachedBy] using this
    · intro h
      have hfirst : ∀ c ∈ pair.1, c ∈ pair.2 → c ∈ reachedAses paths seen pair :=
        fun c hc hce => (hzero c hce).2 (h 0 pair rfl c hc hce)
      intro p pr hpr c hc hce
      cases p with
      | zero =>
        rw [getElem?_cons_zero, some.injEq] at hpr
        subst hpr
        exact ⟨_, by rw [reachedBy, getElem?_cons_zero], hfirst c hc hce⟩
      | succ p =>
        rw [getElem?_cons_succ] at hpr
        obtain ⟨r, hr, hcr⟩ := ih.2 (fun q qr hqr b hb hbe => by
          rw [← hscanned hfirst]
          exact h (q + 1) qr (by simpa using hqr) b hb hbe) p pr hpr c hc hce
        exact ⟨r, by rw [reachedBy, getElem?_cons_succ]; exact hr, hcr⟩

/-- The attackers of all pairs. -/
def allCommon (pairs : List (Segment × Segment)) : Finset ℤ :=
  (commonBefore pairs pairs.length).toFinset

lemma mem_allCommon {c : ℤ} : c ∈ allCommon pairs ↔ ∃ pair ∈ pairs, c ∈ pair.1 ∧ c ∈ pair.2 := by
  rw [allCommon, List.mem_toFinset, mem_commonBefore, take_length]

/-- The ASes that the tests enter as attackers. -/
def listedAttackers (entryParts exitParts : List Segment) : Finset ℤ :=
  (reachedBy (entryParts.length * exitParts.length) []
    (segmentPairs entryParts exitParts)).flatten.toFinset

lemma listedAttackers_subset (entryParts exitParts : List Segment) :
    listedAttackers entryParts exitParts ⊆ allCommon (segmentPairs entryParts exitParts) := by
  intro c hc
  rw [listedAttackers, List.mem_toFinset, mem_flatten] at hc
  obtain ⟨r, hr, hc⟩ := hc
  obtain ⟨p, hp⟩ := mem_iff_getElem?.mp hr
  obtain ⟨pair, hpair, hc⟩ := common_of_mem_reachedBy hp hc
  exact mem_allCommon.2 ⟨pair, mem_of_getElem? hpair, hc⟩

/-- What the tests of all pairs leave, if the segments fit their arrays. -/
lemma attackerMatrix_spec {entryParts exitParts : List Segment}
    (hfit : ∀ part ∈ entryParts ++ exitParts, part.length ≤ maxPartAses) :
    (∃ m, attackerMatrix entryParts exitParts = some m ∧
      m.attackerFree = (segmentPairs entryParts exitParts).map isFree ∧
      Represents (entryParts.length * exitParts.length) (fun c p => ∃ r,
        (reachedBy (entryParts.length * exitParts.length) []
          (segmentPairs entryParts exitParts))[p]? = some r ∧ c ∈ r) m.toAttackerState) ∨
    (attackerMatrix entryParts exitParts = none ∧
      entryParts.length * exitParts.length < (listedAttackers entryParts exitParts).card) := by
  have hguard : ¬ ∃ part ∈ entryParts ++ exitParts, maxPartAses < part.length := by
    rintro ⟨part, hpart, hlt⟩
    have := hfit part hpart
    omega
  have hrun := @foldlM_testPair (entryParts.length * exitParts.length) _ ⟨[], []⟩
    (segmentPairs entryParts exitParts) 0 [] [] represents_nil (fun c => Iff.rfl)
    (by rw [length_segmentPairs, zero_add])
  rcases hrun with ⟨s, hs, h⟩ | ⟨hnone, l, hnd, hlen, hl⟩
  · refine .inl ⟨_, by rw [attackerMatrix, if_neg hguard, hs, map_some], by simp,
      h.congr fun c p => ?_⟩
    simp
  · refine .inr ⟨by rw [attackerMatrix, if_neg hguard, hnone, map_none],
      lt_of_lt_of_le hlen ?_⟩
    rw [← toFinset_card_of_nodup hnd]
    refine Finset.card_le_card fun c hc => ?_
    rw [List.mem_toFinset] at hc
    obtain ⟨r, hr, hcr⟩ := (hl c hc).resolve_left fun ⟨_, h⟩ => h
    exact List.mem_toFinset.mpr (mem_flatten.mpr ⟨r, hr, hcr⟩)

/-- The tests return exactly when the segments fit their arrays and the attackers the row pointers;
they then report which pairs have no common AS. -/
theorem attackerMatrix_eq_some_iff (entryParts exitParts : List Segment) :
    (∃ m, attackerMatrix entryParts exitParts = some m) ↔
      (∀ part ∈ entryParts ++ exitParts, part.length ≤ maxPartAses) ∧
        (listedAttackers entryParts exitParts).card ≤ entryParts.length * exitParts.length := by
  by_cases hfit : ∀ part ∈ entryParts ++ exitParts, part.length ≤ maxPartAses
  · rcases attackerMatrix_spec hfit with ⟨m, hm, -, h⟩ | ⟨hnone, hcard⟩
    · refine ⟨fun _ => ⟨hfit, ?_⟩, fun _ => ⟨m, hm⟩⟩
      -- the attackers that are listed are those of the matrix
      have hset : listedAttackers entryParts exitParts = m.attackers.toFinset := by
        ext c
        rw [listedAttackers, List.mem_toFinset, List.mem_toFinset, mem_flatten, h.mem]
        constructor
        · rintro ⟨r, hr, hc⟩
          obtain ⟨p, hp⟩ := mem_iff_getElem?.mp hr
          exact ⟨p, r, hp, hc⟩
        · rintro ⟨p, r, hp, hc⟩
          exact ⟨r, mem_of_getElem? hp, hc⟩
      rw [hset, toFinset_card_of_nodup h.nodup]
      exact h.length_le
    · refine ⟨fun ⟨m, hm⟩ => ?_, fun ⟨_, hle⟩ => ?_⟩
      · rw [hnone] at hm
        cases hm
      · omega
  · refine ⟨fun ⟨m, hm⟩ => ?_, fun h => absurd h.1 hfit⟩
    rw [attackerMatrix, if_pos] at hm
    · cases hm
    · by_contra hno
      refine hfit fun part hpart => ?_
      by_contra hlt
      exact hno ⟨part, hpart, by omega⟩

lemma attackerFree_eq {entryParts exitParts : List Segment} {m : AttackerMatrix}
    (h : attackerMatrix entryParts exitParts = some m) :
    m.attackerFree = (segmentPairs entryParts exitParts).map isFree := by
  have hfit := ((attackerMatrix_eq_some_iff entryParts exitParts).1 ⟨m, h⟩).1
  rcases attackerMatrix_spec hfit with ⟨m', hm', hfree, -⟩ | ⟨hnone, -⟩
  · rw [some.inj (h.symm.trans hm'), hfree]
  · rw [hnone] at h
    cases h

/-! ### When the row pointers suffice -/

/-- The ASes that are common to a pair at a position of the entry segment after `paths`.  A test
reaches them all. -/
def farCommon (paths : ℕ) (pairs : List (Segment × Segment)) : Finset ℤ :=
  (pairs.flatMap fun pair => (pair.1.drop (paths + 1)).filter fun c => c ∈ pair.2).toFinset

/-- The first common AS of every pair. -/
def firstCommon (pairs : List (Segment × Segment)) : Finset ℤ :=
  (pairs.filterMap fun pair => pair.1.find? fun c => c ∈ pair.2).toFinset

/-- There are no more common ASes than row pointers, or else there is a pointer for every far one
and one for every pair with another one. -/
def RowsSuffice (entryParts exitParts : List Segment) : Prop :=
  let paths := entryParts.length * exitParts.length
  let pairs := segmentPairs entryParts exitParts
  (allCommon pairs).card ≤ paths ∨
    (farCommon paths pairs).card +
      pairs.countP (fun pair => pair.1.any fun c => c ∈ pair.2 ∧ c ∉ farCommon paths pairs) ≤ paths

/-- There is a row pointer for every AS that is far or comes first. -/
def RowsNeeded (entryParts exitParts : List Segment) : Prop :=
  let paths := entryParts.length * exitParts.length
  let pairs := segmentPairs entryParts exitParts
  (farCommon paths pairs ∪ firstCommon pairs).card ≤ paths

instance (entryParts exitParts : List Segment) : Decidable (RowsSuffice entryParts exitParts) :=
  inferInstanceAs (Decidable (_ ∨ _))

section Rows

variable {far : Finset ℤ} {seen : List ℤ} {pair : Segment × Segment} {c : ℤ}

lemma take_takeWhile (q : ℤ → Bool) (l : List ℤ) :
    l.take ((l.takeWhile q).length + 1) = l.takeWhile q ++ (l.dropWhile q).take 1 := by
  calc l.take ((l.takeWhile q).length + 1)
      = (l.takeWhile q ++ l.dropWhile q).take ((l.takeWhile q).length + 1) := by
        rw [takeWhile_append_dropWhile]
    _ = l.takeWhile q ++ (l.dropWhile q).take 1 := take_length_add_append 1

/-- Of the ASes that a test reaches, one at most is neither known nor far. -/
lemma card_reachedAses_le (hfar : ∀ c ∈ pair.1.drop (paths + 1), c ∈ pair.2 → c ∈ far) :
    ((reachedAses paths seen pair).toFinset \ (far ∪ seen.toFinset)).card ≤
      if pair.1.any (fun c => c ∈ pair.2 ∧ c ∉ far) then 1 else 0 := by
  -- it is the first fresh one
  have hfirst : ∀ c ∈ (reachedAses paths seen pair).toFinset \ (far ∪ seen.toFinset),
      (c ∈ pair.1 ∧ c ∈ pair.2 ∧ c ∉ far) ∧
        c ∈ (pair.1.dropWhile fun c => !decide (c ∈ pair.2 ∧ c ∉ seen)).take 1 := by
    intro c hc
    simp only [Finset.mem_sdiff, List.mem_toFinset, Finset.mem_union, not_or] at hc
    obtain ⟨hr, hnotFar, hnotSeen⟩ := hc
    obtain ⟨hexit, hscan⟩ := mem_reachedAses.1 hr
    refine ⟨⟨mem_of_mem_scanned hscan, hexit, hnotFar⟩, ?_⟩
    rw [scanned, take_takeWhile, mem_append, mem_append] at hscan
    rcases hscan with (hold | hfresh) | hdrop
    · have := mem_takeWhile_imp hold
      simp [hexit, hnotSeen] at this
    · exact hfresh
    · exact absurd (hfar c hdrop hexit) hnotFar
  split_ifs with hany
  · refine (Finset.card_le_card fun c hc => List.mem_toFinset.mpr (hfirst c hc).2).trans ?_
    exact (toFinset_card_le _).trans (length_take_le _ _)
  · refine Nat.le_zero.mpr
      (Finset.card_eq_zero.mpr (Finset.eq_empty_of_forall_notMem fun c hc => hany ?_))
    obtain ⟨⟨hentry, hcommon⟩, -⟩ := hfirst c hc
    exact List.any_eq_true.mpr ⟨c, hentry, decide_eq_true hcommon⟩

/-- Every test enters at most one AS that is not far. -/
lemma card_reachedBy_le
    (hfar : ∀ pair ∈ pairs, ∀ c ∈ pair.1.drop (paths + 1), c ∈ pair.2 → c ∈ far) :
    ((reachedBy paths seen pairs).flatten.toFinset \ (far ∪ seen.toFinset)).card ≤
      pairs.countP fun pair => pair.1.any fun c => c ∈ pair.2 ∧ c ∉ far := by
  induction pairs generalizing seen with
  | nil => simp [reachedBy]
  | cons pair pairs ih =>
    obtain ⟨hpair, hpairs⟩ := forall_mem_cons.mp hfar
    have hone := @card_reachedAses_le paths far seen pair hpair
    have hrest := @ih (seen ++ reachedAses paths seen pair) hpairs
    have hsub : (reachedBy paths seen (pair :: pairs)).flatten.toFinset \ (far ∪ seen.toFinset) ⊆
        ((reachedAses paths seen pair).toFinset \ (far ∪ seen.toFinset)) ∪
          ((reachedBy paths (seen ++ reachedAses paths seen pair) pairs).flatten.toFinset \
            (far ∪ (seen ++ reachedAses paths seen pair).toFinset)) := by
      intro c
      simp only [reachedBy, flatten_cons, toFinset_append, Finset.mem_sdiff, Finset.mem_union,
        List.mem_toFinset]
      tauto
    rw [countP_cons]
    have hle := (Finset.card_le_card hsub).trans (Finset.card_union_le _ _)
    omega

/-- The first common AS of a pair and the far ones are entered. -/
lemma mem_reachedBy_of_needed (hmem : pair ∈ pairs) (hexit : c ∈ pair.2)
    (hc : c ∈ pair.1.drop (paths + 1) ∨ pair.1.find? (fun c => c ∈ pair.2) = some c) :
    c ∈ seen ∨ c ∈ (reachedBy paths seen pairs).flatten := by
  induction pairs generalizing seen with
  | nil => cases hmem
  | cons head pairs ih =>
    rw [reachedBy, flatten_cons, mem_append]
    rcases mem_cons.mp hmem with rfl | hmem
    · by_cases hseen : c ∈ seen
      · exact .inl hseen
      · refine .inr (.inl (mem_reachedAses.2 ⟨hexit, mem_append.mpr ?_⟩))
        refine hc.symm.imp_left fun hfind => ?_
        obtain ⟨-, before, after, hsplit, hbefore⟩ := find?_eq_some_iff_append.mp hfind
        have hold : ∀ b ∈ before, (!decide (b ∈ pair.2 ∧ b ∉ seen)) = true := by
          intro b hb
          have hnot : b ∉ pair.2 := by simpa using hbefore b hb
          simp [hnot]
        rw [take_takeWhile, hsplit, dropWhile_append_of_pos hold,
          dropWhile_cons_of_neg (by simp [hexit, hseen])]
        exact mem_append_right _ mem_cons_self
    · rcases @ih (seen ++ reachedAses paths seen head) hmem with h | h
      · rcases mem_append.mp h with h | h
        · exact .inl h
        · exact .inr (.inl h)
      · exact .inr (.inr h)

end Rows

/-- **When the row pointers suffice.**  Between the two conditions it depends on the order of the
pairs. -/
lemma attackerMatrix_rows {entryParts exitParts : List Segment}
    (hfit : ∀ part ∈ entryParts ++ exitParts, part.length ≤ maxPartAses) :
    (RowsSuffice entryParts exitParts → ∃ m, attackerMatrix entryParts exitParts = some m) ∧
      ((∃ m, attackerMatrix entryParts exitParts = some m) → RowsNeeded entryParts exitParts) := by
  rw [attackerMatrix_eq_some_iff, and_iff_right hfit]
  refine ⟨fun h => ?_, fun h => (Finset.card_le_card fun c hc => ?_).trans h⟩
  · rcases h with h | h
    · exact (Finset.card_le_card (listedAttackers_subset _ _)).trans h
    · set far :=
        farCommon (entryParts.length * exitParts.length) (segmentPairs entryParts exitParts)
      have hle := @card_reachedBy_le (entryParts.length * exitParts.length)
        (segmentPairs entryParts exitParts) far [] fun pair hpair c hc hexit =>
          List.mem_toFinset.mpr (mem_flatMap.mpr
            ⟨pair, hpair, mem_filter.mpr ⟨hc, decide_eq_true hexit⟩⟩)
      rw [toFinset_nil, Finset.union_empty] at hle
      have hsplit :=
        Finset.card_le_card_sdiff_add_card (s := listedAttackers entryParts exitParts) (t := far)
      rw [listedAttackers] at hsplit ⊢
      omega
  · rw [listedAttackers, List.mem_toFinset]
    simp only [Finset.mem_union, farCommon, firstCommon, List.mem_toFinset, mem_flatMap,
      mem_filterMap] at hc
    rcases hc with ⟨pair, hpair, hc⟩ | ⟨pair, hpair, hfind⟩
    · obtain ⟨hdrop, hexit⟩ := mem_filter.mp hc
      exact (mem_reachedBy_of_needed hpair (of_decide_eq_true hexit) (.inl hdrop)).resolve_left
        not_mem_nil
    · have hexit : c ∈ pair.2 := by simpa using find?_some hfind
      exact (mem_reachedBy_of_needed hpair hexit (.inr hfind)).resolve_left not_mem_nil

/-- **When the matrix is exact.**  The attacker list and the matrix are exact if and only if the
segments fit their arrays, the test of every pair reaches all common ASes of the pair and there are
at most as many attackers as pairs. -/
theorem attackerMatrix_exact_iff (entryParts exitParts : List Segment) :
    (∃ m, attackerMatrix entryParts exitParts = some m ∧
      ExactMatrix (segmentPairs entryParts exitParts) m) ↔
    (∀ part ∈ entryParts ++ exitParts, part.length ≤ maxPartAses) ∧
      TestsReachAll (entryParts.length * exitParts.length) (segmentPairs entryParts exitParts) ∧
      (allCommon (segmentPairs entryParts exitParts)).card ≤
        entryParts.length * exitParts.length := by
  have hlength := length_segmentPairs entryParts exitParts
  have hcomplete := @reachedBy_complete_iff (entryParts.length * exitParts.length)
    (segmentPairs entryParts exitParts) []
  simp only [nil_append] at hcomplete
  constructor
  · rintro ⟨m, hm, hexact⟩
    have hfit := ((attackerMatrix_eq_some_iff entryParts exitParts).1 ⟨m, hm⟩).1
    rcases attackerMatrix_spec hfit with ⟨m', hm', -, h⟩ | ⟨hnone, -⟩
    · obtain rfl := Option.some.inj (hm.symm.trans hm')
      refine ⟨hfit, hcomplete.1 fun p pair hp c hc hce => ?_, ?_⟩
      · obtain ⟨hlt, -⟩ := List.getElem?_eq_some_iff.mp hp
        have hmem := (hexact.mem c).2 ⟨pair, mem_of_getElem? hp, hc, hce⟩
        obtain ⟨a, ha⟩ := mem_iff_getElem?.mp hmem
        by_contra hno
        -- the entry of a missed AS would be zero
        have hzero := h.zero a c p ha (by omega) hno
        rw [hexact.entry a p c pair ha hp, if_pos ⟨hc, hce⟩] at hzero
        simp at hzero
      · have hset : allCommon (segmentPairs entryParts exitParts) = m.attackers.toFinset := by
          ext c
          rw [mem_allCommon, List.mem_toFinset, hexact.mem]
        rw [hset, toFinset_card_of_nodup hexact.nodup]
        exact h.length_le
    · rw [hnone] at hm
      cases hm
  · rintro ⟨hfit, hreach, hcard⟩
    have hinc : ∀ c (p : ℕ) (pair : Segment × Segment),
        (segmentPairs entryParts exitParts)[p]? = some pair →
        ((∃ r, (reachedBy (entryParts.length * exitParts.length) []
          (segmentPairs entryParts exitParts))[p]? = some r ∧ c ∈ r) ↔
            c ∈ pair.1 ∧ c ∈ pair.2) := by
      intro c p pair hp
      constructor
      · rintro ⟨r, hr, hc⟩
        obtain ⟨pair', hp', hc⟩ := common_of_mem_reachedBy hr hc
        obtain rfl := Option.some.inj (hp.symm.trans hp')
        exact hc
      · exact fun hc => hcomplete.2 hreach p pair hp c hc.1 hc.2
    have hlisted := (Finset.card_le_card (listedAttackers_subset entryParts exitParts)).trans hcard
    rcases attackerMatrix_spec hfit with ⟨m, hm, -, h⟩ | ⟨-, hlt⟩
    · refine ⟨m, hm, h.nodup, fun c => ?_, fun a p c pair ha hp => ?_⟩
      · rw [h.mem]
        constructor
        · rintro ⟨p, r, hr, hc⟩
          obtain ⟨pair, hp, hc⟩ := common_of_mem_reachedBy hr hc
          exact ⟨pair, mem_of_getElem? hp, hc⟩
        · rintro ⟨pair, hp, hc⟩
          obtain ⟨p, hp⟩ := mem_iff_getElem?.mp hp
          exact ⟨p, (hinc c p pair hp).2 hc⟩
      · obtain ⟨hlt, -⟩ := List.getElem?_eq_some_iff.mp hp
        split_ifs with hc
        · exact h.one a c p ha (by omega) ((hinc c p pair hp).2 hc)
        · exact h.zero a c p ha (by omega) fun hi => hc ((hinc c p pair hp).1 hi)
    · omega

/-- With one pair whose segments both consist of the ASes 1 and 2, the test jumps over AS 2, which
is not listed as an attacker. -/
theorem attackerMatrix_not_exact :
    ¬ ∃ m, attackerMatrix [[1, 2]] [[1, 2]] = some m ∧
      ExactMatrix (segmentPairs [[1, 2]] [[1, 2]]) m := by
  rintro ⟨m, hm, hexact⟩
  have hattackers : (attackerMatrix [[1, 2]] [[1, 2]]).map (fun m => m.attackers) = some [1] := by
    decide +kernel
  rw [hm, map_some, Option.some.injEq] at hattackers
  have hmem := (hexact.mem 2).2 ⟨([1, 2], [1, 2]), by decide, by decide, by decide⟩
  rw [hattackers] at hmem
  simp at hmem

end Exact

end Astoria
