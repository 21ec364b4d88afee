import Mathlib.Data.List.GetD
import Astoria.Library.Binary64
import Astoria.TorClient.AttackerMatrix

/-!
# Selecting a pair

The client weighs every pair of an entry and an exit by the product of their bandwidths and,
besides, by its security: if there are pairs that are free of attackers, the other pairs get the
security zero.  The two distributions are mixed with a parameter `alpha`, and a pair is drawn from
the mixture until the ASes of both its nodes are known.

The parameter is set to one, so the security does not count, and a pair is drawn by its bandwidth.
An attacked pair is selected whenever a draw falls into its part of the distribution; the first pair
is also selected by the greatest draw, which falls into no part at all.
-/

namespace Astoria

open List Option

/-! ### Distributions -/

namespace Doubles

/-- Weights divided by their sum (`generate_distribution`). -/
def generateDistribution (values : List Binary64) (uniform : Bool) : List Binary64 :=
  if uniform then values.map fun _ => 1 / .ofRat values.length
  else values.map fun v => v / Binary64.sum values

/-- The mixture of two distributions (`tune_distributions`). -/
def tuneDistributions (d1 d2 : List Binary64) (alpha : Binary64) : List Binary64 :=
  let denom := (d1.zip d2).foldl (fun denom d => denom + d.1 * alpha + d.2 * (1 - alpha)) 0
  (d1.zip d2).map fun d => (d.1 * alpha + d.2 * (1 - alpha)) / denom

/-- The random number that is compared with the running sums. -/
def randomNumber (randMax : ℕ) (dist : List Binary64) (r : ℕ) : Binary64 :=
  .ofRat r / .ofRat randMax * Binary64.sum dist

/-- The random number falls into the part of an index: from the running sum before it to that with
it. -/
def InPart (randMax : ℕ) (dist : List Binary64) (r i : ℕ) : Prop :=
  Binary64.sum (dist.take i) ≤ randomNumber randMax dist r ∧
    randomNumber randMax dist r < Binary64.sum (dist.take (i + 1))

instance (randMax : ℕ) (dist : List Binary64) (r i : ℕ) : Decidable (InPart randMax dist r i) :=
  inferInstanceAs (Decidable (_ ∧ _))

/-- The index that the random number `r` selects, or the first one if it falls into no part
(`pick_from_dist`). -/
def pickFromDist (randMax : ℕ) (dist : List Binary64) (r : ℕ) : ℕ :=
  ((range dist.length).find? fun i => dist.getD i 0 ≠ 0 ∧ InPart randMax dist r i).getD 0

section Pick

variable {d₁ d₂ dist : List Binary64} {randMax r i j : ℕ}

open Binary64

/-- With the parameter one, a mixture with finite probabilities is the first distribution, divided
by its sum once more; if that has a member without a value, nothing in the mixture has one. -/
lemma tuneDistributions_one (hlen : d₁.length = d₂.length)
    (h : (∀ b ∈ d₂, b.isFinite = true) ∨ nan ∈ d₁) :
    tuneDistributions d₁ d₂ 1 = d₁.map fun v => v / Binary64.sum d₁ := by
  have hfst : (d₁.zip d₂).map Prod.fst = d₁ := map_fst_zip hlen.le
  have hterm (b : Binary64) (hb : b.isFinite = true) : b * (1 - 1) = 0 := by
    cases b with
    | finite x hx hx' =>
      rw [sub_self_one]
      change ofRat (x * 0) = 0
      rw [mul_zero]
      exact ofRat_of_representable representable_zero _
    | infinite negative => cases hb
    | nan => cases hb
  rcases h with hfin | hnan
  · have hzero : ∀ d ∈ d₁.zip d₂, d.2 * (1 - 1) = 0 := fun d hd =>
      hterm _ (hfin _ (of_mem_zip hd).2)
    have hdenom : (d₁.zip d₂).foldl (fun denom d => denom + d.1 * 1 + d.2 * (1 - 1)) 0 =
        Binary64.sum d₁ := by
      conv_rhs => rw [← hfst, Binary64.sum, foldl_map]
      refine foldl_ext _ _ _ fun denom d hd => ?_
      rw [hzero d hd, Binary64.mul_one, Binary64.add_zero]
    unfold tuneDistributions
    simp only [hdenom]
    generalize Binary64.sum d₁ = denom
    conv_rhs => rw [← hfst, List.map_map]
    refine map_congr_left fun d hd => ?_
    rw [hzero d hd, Binary64.mul_one, Binary64.add_zero, Function.comp_apply]
  · have hdenom : (d₁.zip d₂).foldl (fun denom d => denom + d.1 * 1 + d.2 * (1 - 1)) 0 = nan := by
      have hflat : nan ∈ (d₁.zip d₂).flatMap fun d => [d.1 * 1, d.2 * (1 - 1)] := by
        rw [← hfst] at hnan
        obtain ⟨d, hd, hd1⟩ := mem_map.mp hnan
        refine mem_flatMap.mpr ⟨d, hd, ?_⟩
        rw [hd1]
        exact mem_cons_self
      rw [← sum_eq_nan hflat, Binary64.sum, foldl_flatMap]
      rfl
    unfold tuneDistributions
    simp only [hdenom, sum_eq_nan hnan, div_nan]
    rw [map_const', map_const', length_zip, hlen, Nat.min_self]

/-- A random number falls into the part of a probability that is not zero. -/
lemma InPart.ne_zero (h : InPart randMax dist r i) : i < dist.length ∧ dist.getD i 0 ≠ 0 := by
  have hi : i < dist.length := by
    by_contra hge
    rw [InPart, take_of_length_le (by omega), take_of_length_le (by omega)] at h
    exact not_lt_of_le h.1 h.2
  refine ⟨hi, fun h0 => ?_⟩
  rw [getD_eq_getElem _ _ hi] at h0
  rw [InPart, sum_take_succ hi, h0, Binary64.add_zero] at h
  exact not_lt_of_le h.1 h.2

/-- It falls into one part only. -/
lemma InPart.unique (hd : ∀ v ∈ dist, ¬ v < 0) (hi : InPart randMax dist r i)
    (hj : InPart randMax dist r j) : i = j := by
  have hlt {i j : ℕ} (hi : InPart randMax dist r i) (hj : InPart randMax dist r j) : ¬ i < j := by
    intro hij
    rcases Binary64.sum_take_le hd (Nat.succ_le_of_lt hij) with hnan | hle
    · rw [InPart, hnan] at hj
      cases hj.1
    · exact not_lt_of_le (le_trans hle hj.1) hi.2
  exact le_antisymm (not_lt.mp (hlt hj hi)) (not_lt.mp (hlt hi hj))

/-- **The draw of an index**: the one into whose part the random number falls, or else the first. -/
lemma pickFromDist_eq_iff (hd : ∀ v ∈ dist, ¬ v < 0) : pickFromDist randMax dist r = i ↔
    InPart randMax dist r i ∨ (i = 0 ∧ ∀ j, ¬ InPart randMax dist r j) := by
  by_cases hpart : ∃ j, InPart randMax dist r j
  · obtain ⟨j, hj⟩ := hpart
    obtain ⟨l, hl⟩ : ∃ l, (range dist.length).find?
        (fun i => dist.getD i 0 ≠ 0 ∧ InPart randMax dist r i) = some l := by
      rw [← isSome_iff_exists, find?_isSome]
      exact ⟨j, mem_range.mpr hj.ne_zero.1, decide_eq_true ⟨hj.ne_zero.2, hj⟩⟩
    have hlpart := find?_some hl
    rw [decide_eq_true_eq] at hlpart
    rw [pickFromDist, hl, getD_some]
    constructor
    · rintro rfl
      exact .inl hlpart.2
    · rintro (hi | ⟨-, hno⟩)
      · exact hlpart.2.unique hd hi
      · exact absurd hj (hno j)
  · rw [not_exists] at hpart
    have hnone : (range dist.length).find?
        (fun i => dist.getD i 0 ≠ 0 ∧ InPart randMax dist r i) = none := by
      rw [find?_eq_none]
      exact fun j _ hj => hpart j (of_decide_eq_true hj).2
    rw [pickFromDist, hnone, getD_none]
    exact ⟨fun h => .inr ⟨h.symm, hpart⟩, fun h => (h.resolve_left (hpart i)).1.symm⟩

/-- The greatest random number falls into no part. -/
lemma not_inPart_randMax (hd : ∀ v ∈ dist, ¬ v < 0) : ¬ InPart randMax dist randMax i := by
  intro h
  have hlt := h.2
  rcases div_self_cases (.ofRat randMax) with hone | hnan
  · rw [randomNumber, hone, Binary64.one_mul] at hlt
    have hle := Binary64.sum_take_le hd (Nat.succ_le_of_lt h.ne_zero.1)
    rw [take_length] at hle
    rcases hle with hnan | hle
    · rw [hnan] at hlt
      cases hlt
    · exact not_lt_of_le hle hlt
  · rw [randomNumber, hnan] at hlt
    cases hlt

/-- Some random number draws the index: it is the first one, or there is a number that falls into
its part. -/
def Drawn (randMax : ℕ) (dist : List Binary64) (i : ℕ) : Prop :=
  i = 0 ∨ ∃ r ≤ randMax, InPart randMax dist r i

lemma exists_pickFromDist_iff (hd : ∀ v ∈ dist, ¬ v < 0) :
    (∃ r ≤ randMax, pickFromDist randMax dist r = i) ↔ Drawn randMax dist i := by
  constructor
  · rintro ⟨r, hr, hpick⟩
    rcases (pickFromDist_eq_iff hd).mp hpick with hpart | ⟨hi, -⟩
    · exact .inr ⟨r, hr, hpart⟩
    · exact .inl hi
  · rintro (rfl | ⟨r, hr, hpart⟩)
    · exact ⟨randMax, le_rfl,
        (pickFromDist_eq_iff hd).mpr (.inr ⟨rfl, fun _ => not_inPart_randMax hd⟩)⟩
    · exact ⟨r, hr, (pickFromDist_eq_iff hd).mpr (.inl hpart)⟩

end Pick

end Doubles

/-! ### The selection -/

/-- A node that may be used as an entry or as an exit. -/
structure Candidate where
  /-- The number of its AS as a text; "-1" if it is not known. -/
  as : List Char
  /-- The weight of its bandwidth. -/
  bw : Binary64
  part : Segment
  deriving DecidableEq

/-- The pairs of candidates in the order of the tests (`pathDetails`). -/
def candidatePairs (entries exits : List Candidate) : List (Candidate × Candidate) :=
  entries.flatMap fun entry => exits.map fun exit => (entry, exit)

/-- The weights of the pairs (`lp_bw_mins`). -/
def pairWeights (pairs : List (Candidate × Candidate)) : List Binary64 :=
  pairs.map fun pair => pair.1.bw * pair.2.bw

/-- The number of pairs for which there is room (`res`). -/
def maxPairs : ℕ := 10000

/-- The parameter of the mixture. -/
def alpha : Binary64 := 1

/-- The security of the pairs (`res`).  The linear program `solveLp` is only solved if no pair is
free. -/
def securityResult (solveLp : List (List ℚ) → ℕ → ℕ → List Binary64) (m : AttackerMatrix) :
    List Binary64 :=
  let cntFree := m.attackerFree.count true
  if cntFree = 0 then solveLp m.S m.attackerFree.length m.attackers.length
  else m.attackerFree.map fun free => if free then 1 / .ofRat cntFree else 0

/-- The security of the pairs, where a free pair gets its weight (`lp_sec_prob`). -/
def securityWeights (weights res : List Binary64) (attackerFree : List Bool) : List Binary64 :=
  (attackerFree.zip (weights.zip res)).map fun e => if e.1 then e.2.1 else e.2.2

/-- The mixture of the distribution by the weights and that by the security, for the rows of the
attackers. -/
def mixedDistribution (solveLp : List (List ℚ) → ℕ → ℕ → List Binary64)
    (entries exits : List Candidate) (m : AttackerMatrix) : List Binary64 :=
  let weights := pairWeights (candidatePairs entries exits)
  Doubles.tuneDistributions (Doubles.generateDistribution weights false)
    (Doubles.generateDistribution
      (securityWeights weights (securityResult solveLp m) m.attackerFree) false) alpha

/-- The distribution from which a pair is drawn. -/
def tunedDistribution (solveLp : List (List ℚ) → ℕ → ℕ → List Binary64)
    (entries exits : List Candidate) : Option (List Binary64) :=
  if maxPairs < (candidatePairs entries exits).length then none
  else
    (attackerMatrix (entries.map Candidate.part) (exits.map Candidate.part)).map
      (mixedDistribution solveLp entries exits)

/-- The ASes of both nodes of a pair are known. -/
def KnownAses (pair : Candidate × Candidate) : Prop :=
  pair.1.as ≠ "-1".toList ∧ pair.2.as ≠ "-1".toList

instance : DecidablePred KnownAses := fun _ => inferInstanceAs (Decidable (_ ∧ _))

/-- Draw pairs until the ASes of a pair are known. -/
def selectPair (randMax : ℕ) (pairs : List (Candidate × Candidate)) (dist : List Binary64)
    (draws : List ℕ) : Option (Candidate × Candidate) :=
  draws.findSome? fun r =>
    pairs[Doubles.pickFromDist randMax dist r]?.filter fun pair => KnownAses pair

/-! ### The distribution of the pairs -/

/-- The shares of some weights: they are divided by their sum, and the quotients, which rounding may
have moved, by theirs. -/
def shares (weights : List Binary64) : List Binary64 :=
  let quotients := weights.map fun w => w / Binary64.sum weights
  quotients.map fun v => v / Binary64.sum quotients

/-- The two segments of a pair have no common AS. -/
def NoCommonAs (pair : Candidate × Candidate) : Prop := ∀ c ∈ pair.1.part, c ∉ pair.2.part

instance : DecidablePred NoCommonAs := fun pair =>
  inferInstanceAs (Decidable (∀ c ∈ pair.1.part, c ∉ pair.2.part))

/-- The arrays of the selection suffice: the pairs fit the array of the securities, the segments
theirs, and the attackers the row pointers, of which `rows` is asked. -/
structure SelectionFits (rows : List Segment → List Segment → Prop)
    (entries exits : List Candidate) : Prop where
  pairs : entries.length * exits.length ≤ maxPairs
  parts : ∀ node ∈ entries ++ exits, node.part.length ≤ maxPartAses
  attackers : rows (entries.map Candidate.part) (exits.map Candidate.part)

section Distribution

variable {entries exits : List Candidate} {weights sec : List Binary64}
  {solveLp : List (List ℚ) → ℕ → ℕ → List Binary64}

open Binary64

lemma segmentPairs_parts (entries exits : List Candidate) :
    segmentPairs (entries.map Candidate.part) (exits.map Candidate.part) =
      (candidatePairs entries exits).map fun pair => (pair.1.part, pair.2.part) := by
  simp [segmentPairs, candidatePairs, flatMap_map, map_flatMap, Function.comp_def]

lemma length_candidatePairs (entries exits : List Candidate) :
    (candidatePairs entries exits).length = entries.length * exits.length := by
  simp [candidatePairs, length_flatMap]

lemma mem_candidatePairs {pair : Candidate × Candidate} :
    pair ∈ candidatePairs entries exits ↔ pair.1 ∈ entries ∧ pair.2 ∈ exits := by
  obtain ⟨x, y⟩ := pair
  simp [candidatePairs]

lemma forall_mem_pairWeights {P : Binary64 → Prop} :
    (∀ w ∈ pairWeights (candidatePairs entries exits), P w) ↔
      ∀ entry ∈ entries, ∀ exit ∈ exits, P (entry.bw * exit.bw) := by
  simp only [pairWeights, List.forall_mem_map, mem_candidatePairs, Prod.forall, and_imp]
  exact forall_congr' fun entry => forall_comm

lemma attackerFree_parts {m : AttackerMatrix}
    (hm : attackerMatrix (entries.map Candidate.part) (exits.map Candidate.part) = some m) :
    m.attackerFree = (candidatePairs entries exits).map fun pair => decide (NoCommonAs pair) := by
  rw [attackerFree_eq hm, segmentPairs_parts, List.map_map]
  refine map_congr_left fun pair _ => ?_
  rw [Function.comp_apply, Bool.eq_iff_iff, decide_eq_true_eq]
  simp [isFree, NoCommonAs]

/-- Weights with a member that is not finite have no distribution. -/
lemma nan_mem_generateDistribution (hw : ∀ w ∈ weights, ¬ w < 0)
    (h : ¬ ∀ w ∈ weights, w.isFinite = true) :
    nan ∈ Doubles.generateDistribution weights false := by
  push Not at h
  obtain ⟨w, hmem, hfin⟩ := h
  refine mem_map.mpr ⟨w, hmem, ?_⟩
  have hsum : ¬ (Binary64.sum weights).isFinite = true := fun hsum =>
    hfin (isFinite_of_sum hsum hmem)
  rcases not_neg_cases (hw w hmem) with rfl | rfl | ⟨x, hx, hx', rfl, -⟩
  · rfl
  · rcases not_neg_cases (sum_not_neg hw) with heq | heq | ⟨t, ht, ht', heq, -⟩
    · rw [heq]
      rfl
    · rw [heq]
      rfl
    · exact absurd (by rw [heq]; rfl) hsum
  · exact absurd rfl hfin

/-- Securities with a positive sum have finite probabilities. -/
lemma isFinite_generateDistribution (hs : ∀ v ∈ sec, ¬ v < 0) (hf : ∀ v ∈ sec, v.isFinite = true)
    (hpos : ∃ v ∈ sec, 0 < v) :
    ∀ v ∈ Doubles.generateDistribution sec false, v.isFinite = true := by
  intro v hv
  obtain ⟨w, hw, rfl⟩ := mem_map.mp hv
  have hnan := sum_ne_nan hs hf
  obtain ⟨u, hu, hu0⟩ := hpos
  exact isFinite_div (hs w hw) (hf w hw) (lt_of_lt_of_le hu0 (le_sum hs hu hnan))
    (le_sum hs hw hnan)

/-- **The mixture** has the shares of the weights: the securities do not count. -/
lemma tuneDistributions_eq_shares (hlen : sec.length = weights.length) (hw : ∀ w ∈ weights, ¬ w < 0)
    (hsec : (∀ w ∈ weights, w.isFinite = true) →
      (∀ v ∈ sec, ¬ v < 0) ∧ (∀ v ∈ sec, v.isFinite = true) ∧ ∃ v ∈ sec, 0 < v) :
    Doubles.tuneDistributions (Doubles.generateDistribution weights false)
      (Doubles.generateDistribution sec false) alpha = shares weights := by
  refine Doubles.tuneDistributions_one (by simp [Doubles.generateDistribution, hlen]) ?_
  by_cases hf : ∀ w ∈ weights, w.isFinite = true
  · obtain ⟨hs, hsf, hpos⟩ := hsec hf
    exact .inl (isFinite_generateDistribution hs hsf hpos)
  · exact .inr (nan_mem_generateDistribution hw hf)

lemma shares_not_neg (hw : ∀ w ∈ weights, ¬ w < 0) : ∀ v ∈ shares weights, ¬ v < 0 := by
  have hq : ∀ v ∈ weights.map fun w => w / Binary64.sum weights, ¬ v < 0 := by
    rw [List.forall_mem_map]
    exact fun w hmem => div_not_neg (hw w hmem) (sum_not_neg hw)
  unfold shares
  rw [List.forall_mem_map]
  exact fun v hmem => div_not_neg (hq v hmem) (sum_not_neg hq)

/-- There is a distribution if the arrays suffice, and only with arrays that are as large as needed;
it is then `dist`, if that is what the mixture is. -/
lemma tunedDistribution_spec {dist : List Binary64}
    (h : ∀ m, attackerMatrix (entries.map Candidate.part) (exits.map Candidate.part) = some m →
      mixedDistribution solveLp entries exits m = dist) :
    (SelectionFits RowsSuffice entries exits →
      tunedDistribution solveLp entries exits = some dist) ∧
      ∀ dist', tunedDistribution solveLp entries exits = some dist' →
        SelectionFits RowsNeeded entries exits ∧ dist' = dist := by
  have hparts : (∀ part ∈ entries.map Candidate.part ++ exits.map Candidate.part,
      part.length ≤ maxPartAses) ↔ ∀ node ∈ entries ++ exits, node.part.length ≤ maxPartAses := by
    rw [← map_append, List.forall_mem_map]
  unfold tunedDistribution
  rw [length_candidatePairs]
  constructor
  · intro hfits
    obtain ⟨m, hm⟩ := (attackerMatrix_rows (hparts.mpr hfits.parts)).1 hfits.attackers
    rw [if_neg (not_lt.mpr hfits.pairs), hm, map_some, h m hm]
  · intro dist' hdist
    split_ifs at hdist with hmax
    obtain ⟨m, hm, rfl⟩ := map_eq_some_iff.mp hdist
    have hfit := ((attackerMatrix_eq_some_iff _ _).1 ⟨m, hm⟩).1
    exact ⟨⟨not_lt.mp hmax, hparts.mp hfit, (attackerMatrix_rows hfit).2 ⟨m, hm⟩⟩, h m hm⟩

/-- If a pair of positive weight is free, the mixture has the shares of the weights. -/
lemma tuneDistributions_of_free {m : AttackerMatrix}
    (hw : ∀ w ∈ pairWeights (candidatePairs entries exits), ¬ w < 0)
    (hfree : ∃ pair ∈ candidatePairs entries exits, 0 < pair.1.bw * pair.2.bw ∧ NoCommonAs pair)
    (hm : attackerMatrix (entries.map Candidate.part) (exits.map Candidate.part) = some m) :
    mixedDistribution solveLp entries exits m =
      shares (pairWeights (candidatePairs entries exits)) := by
  obtain ⟨pair, hpair, hpos, hno⟩ := hfree
  have hflags := attackerFree_parts hm
  have hcount : m.attackerFree.count true ≠ 0 := by
    refine (count_pos_iff.mpr ?_).ne'
    rw [hflags]
    exact mem_map.mpr ⟨pair, hpair, decide_eq_true hno⟩
  -- the security of an attacked pair is zero
  have hsec : securityWeights (pairWeights (candidatePairs entries exits))
      (securityResult solveLp m) m.attackerFree = (candidatePairs entries exits).map fun pair =>
        if NoCommonAs pair then pair.1.bw * pair.2.bw else 0 := by
    have hres : securityResult solveLp m = (candidatePairs entries exits).map fun pair =>
        if NoCommonAs pair then 1 / .ofRat (m.attackerFree.count true) else 0 := by
      unfold securityResult
      simp only [if_neg hcount]
      nth_rewrite 2 [hflags]
      simp [Function.comp_def]
    refine ext_getElem (by simp [securityWeights, hres, hflags, pairWeights]) fun i h1 h2 => ?_
    simp only [securityWeights, hres, hflags, pairWeights, getElem_map, getElem_zip,
      decide_eq_true_eq]
    split_ifs <;> rfl
  rw [mixedDistribution, hsec]
  refine tuneDistributions_eq_shares (by simp [pairWeights]) hw fun hf => ⟨?_, ?_, ?_⟩
  · rw [List.forall_mem_map]
    intro p hp
    split_ifs
    · exact hw _ (List.mem_map_of_mem hp)
    · exact Bool.false_ne_true
  · rw [List.forall_mem_map]
    intro p hp
    split_ifs
    · exact hf _ (List.mem_map_of_mem hp)
    · rfl
  · exact ⟨_, mem_map.mpr ⟨pair, hpair, if_pos hno⟩, hpos⟩

end Distribution

/-! ### Which pairs are selected -/

/-- No random number draws an attacked pair whose ASes are known. -/
def AttackedNotDrawn (randMax : ℕ) (pairs : List (Candidate × Candidate)) : Prop :=
  ∀ (i : ℕ) pair, pairs[i]? = some pair → KnownAses pair → ¬ NoCommonAs pair →
    ¬ Doubles.Drawn randMax (shares (pairWeights pairs)) i

/-- There is a distribution, and whatever is drawn, the pair that is selected is free. -/
def SelectsFree (solveLp : List (List ℚ) → ℕ → ℕ → List Binary64) (randMax : ℕ)
    (entries exits : List Candidate) : Prop :=
  ∃ dist, tunedDistribution solveLp entries exits = some dist ∧
    ∀ draws : List ℕ, (∀ r ∈ draws, r ≤ randMax) →
      ∀ pair, selectPair randMax (candidatePairs entries exits) dist draws = some pair →
      NoCommonAs pair

section Select

variable {entries exits : List Candidate} {randMax : ℕ}

lemma selectPair_singleton {pairs : List (Candidate × Candidate)} {dist : List Binary64} {r i : ℕ}
    {pair : Candidate × Candidate} (hpick : Doubles.pickFromDist randMax dist r = i)
    (hpair : pairs[i]? = some pair) (hknown : KnownAses pair) :
    selectPair randMax pairs dist [r] = some pair := by
  simp [selectPair, hpick, hpair, hknown]

/-- A pair is selected by some draws exactly when its ASes are known and it is drawn. -/
lemma exists_selectPair_iff {pairs : List (Candidate × Candidate)} {dist : List Binary64}
    (hd : ∀ v ∈ dist, ¬ v < 0) {pair : Candidate × Candidate} :
    (∃ draws : List ℕ, (∀ r ∈ draws, r ≤ randMax) ∧
      selectPair randMax pairs dist draws = some pair) ↔
      ∃ i, pairs[i]? = some pair ∧ KnownAses pair ∧ Doubles.Drawn randMax dist i := by
  constructor
  · rintro ⟨draws, hdraws, hselect⟩
    obtain ⟨r, hr, hpick⟩ := exists_of_findSome?_eq_some hselect
    rw [filter_eq_some_iff, decide_eq_true_eq] at hpick
    exact ⟨_, hpick.1, hpick.2, (Doubles.exists_pickFromDist_iff hd).mp ⟨r, hdraws r hr, rfl⟩⟩
  · rintro ⟨i, hpair, hknown, hdrawn⟩
    obtain ⟨r, hr, hpick⟩ := (Doubles.exists_pickFromDist_iff hd).mpr hdrawn
    exact ⟨[r], by simpa using hr, selectPair_singleton hpick hpair hknown⟩

/-- **When only free pairs are selected.**  Let the bandwidths not be negative, and let some pair of
positive weight be free.  Whatever is drawn, the pair that is selected is free, if the arrays
suffice and no attacked pair is drawn; conversely, the arrays are as large as needed and no attacked
pair is drawn. -/
theorem selectPair_noCommonAs (solveLp : List (List ℚ) → ℕ → ℕ → List Binary64)
    (hbw : ∀ node ∈ entries ++ exits, 0 ≤ node.bw)
    (hfree : ∃ pair ∈ candidatePairs entries exits, 0 < pair.1.bw * pair.2.bw ∧ NoCommonAs pair) :
    (SelectionFits RowsSuffice entries exits ∧
        AttackedNotDrawn randMax (candidatePairs entries exits) →
      SelectsFree solveLp randMax entries exits) ∧
    (SelectsFree solveLp randMax entries exits →
      SelectionFits RowsNeeded entries exits ∧
        AttackedNotDrawn randMax (candidatePairs entries exits)) := by
  have hw : ∀ w ∈ pairWeights (candidatePairs entries exits), ¬ w < 0 :=
    forall_mem_pairWeights.mpr fun entry hentry exit hexit => Binary64.mul_not_neg
      (Binary64.not_lt_of_le (hbw _ (mem_append_left _ hentry)))
      (Binary64.not_lt_of_le (hbw _ (mem_append_right _ hexit)))
  have hd := shares_not_neg hw
  obtain ⟨hfits, hneeded⟩ := tunedDistribution_spec fun m hm =>
    @tuneDistributions_of_free _ _ solveLp m hw hfree hm
  constructor
  · rintro ⟨hfit, hnot⟩
    refine ⟨_, hfits hfit, fun draws hdraws pair hselect => ?_⟩
    obtain ⟨i, hpair, hknown, hdrawn⟩ := (exists_selectPair_iff hd).mp ⟨draws, hdraws, hselect⟩
    by_contra hattacked
    exact hnot i pair hpair hknown hattacked hdrawn
  · rintro ⟨dist, hdist, hselect⟩
    obtain ⟨hfit, rfl⟩ := hneeded dist hdist
    refine ⟨hfit, fun i pair hpair hknown hattacked hdrawn => hattacked ?_⟩
    obtain ⟨draws, hdraws, hpick⟩ := (exists_selectPair_iff hd).mpr ⟨i, hpair, hknown, hdrawn⟩
    exact hselect draws hdraws pair hpick

/-- An entry whose segment consists of AS 7. -/
def sharedEntry : Candidate := ⟨"1".toList, 1, [7]⟩

/-- An exit of the given bandwidth that shares AS 7 with the entry. -/
def attackedExit (bw : Binary64) : Candidate := ⟨"2".toList, bw, [7]⟩

/-- An exit that shares no AS with the entry. -/
def freeExit : Candidate := ⟨"3".toList, 1, [8]⟩

/-- If the attacked exit has no bandwidth and is not the first, the free one is always selected. -/
theorem selectPair_noCommonAs_freeExit : SelectsFree (fun _ n _ => replicate n 0) 2147483647
    [sharedEntry] [freeExit, attackedExit 0] := by
  refine (selectPair_noCommonAs (fun _ n _ => replicate n 0) (by decide +kernel)
    (by decide +kernel)).1 ⟨⟨by decide, by decide, by decide +kernel⟩, ?_⟩
  have hpairs : candidatePairs [sharedEntry] [freeExit, attackedExit 0] =
      [(sharedEntry, freeExit), (sharedEntry, attackedExit 0)] := rfl
  rw [hpairs]
  rintro i pair hpair - hattacked (rfl | ⟨r, -, hpart⟩)
  · obtain rfl := Option.some.inj hpair
    exact absurd (by decide) hattacked
  · have hzero : ∀ i : Fin 2, i ≠ 0 → (shares (pairWeights
        [(sharedEntry, freeExit), (sharedEntry, attackedExit 0)])).getD i 0 = 0 := by
      decide +kernel
    match i with
    | 0 =>
      obtain rfl := Option.some.inj hpair
      exact absurd (by decide) hattacked
    | 1 => exact hpart.ne_zero.2 (hzero 1 (by decide))
    | i + 2 => cases hpair

/-- If the attacked exit comes first, the random number zero selects it, although the other exit
forms a free pair of positive weight. -/
theorem selectPair_attackedExit :
    (∃ pair ∈ candidatePairs [sharedEntry] [attackedExit 1, freeExit],
      0 < pair.1.bw * pair.2.bw ∧ NoCommonAs pair) ∧
    ((tunedDistribution (fun _ n _ => replicate n 0) [sharedEntry]
      [attackedExit 1, freeExit]).bind fun dist =>
        selectPair 2147483647 (candidatePairs [sharedEntry] [attackedExit 1, freeExit]) dist [0]) =
      some (sharedEntry, attackedExit 1) ∧
    ¬ NoCommonAs (sharedEntry, attackedExit 1) := by
  refine ⟨by decide +kernel, by decide +kernel, by decide⟩

end Select

end Astoria
