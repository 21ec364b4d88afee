import Astoria.TorClient.PairSelection

/-!
# Leaving the selection of a pair

Pairs are drawn until the ASes of both relays are known.  Each bandwidth is positive, so a pair
whose ASes are known has a positive probability.  But a draw is one of finitely many random numbers:
a pair with a small probability may lie between two of them, and then the loop goes on forever.

The loop can be left if some random number draws a pair whose ASes are known (`selection_leaves`).
-/

namespace Astoria

open List
open Binary64 (Within representable_zpow)

/-- The program is solved: the result for some pairs are numbers from zero to one, not all of them
zero. -/
def SolvesPairs (solveLp : List (List ℚ) → ℕ → ℕ → List Binary64) : Prop :=
  ∀ S n m, 0 < n → (solveLp S n m).length = n ∧ (∀ x ∈ solveLp S n m, 0 ≤ x ∧ x ≤ 1) ∧
    ∃ x ∈ solveLp S n m, 0 < x

/-- The loop can be left: there is a distribution in which some pair whose ASes are known has a
positive probability, and some draws select one. -/
def LeavesSelection (solveLp : List (List ℚ) → ℕ → ℕ → List Binary64) (randMax : ℕ)
    (entries exits : List Candidate) : Prop :=
  ∃ dist, tunedDistribution solveLp entries exits = some dist ∧
    (∃ (i : ℕ) (pair : Candidate × Candidate), (candidatePairs entries exits)[i]? = some pair ∧
      KnownAses pair ∧ 0 < dist.getD i 0) ∧
    ∃ draws : List ℕ, (∀ r ∈ draws, r ≤ randMax) ∧
      (selectPair randMax (candidatePairs entries exits) dist draws).isSome

/-- Some random number draws a pair whose ASes are known. -/
def KnownDrawn (randMax : ℕ) (pairs : List (Candidate × Candidate)) : Prop :=
  ∃ (i : ℕ) (pair : Candidate × Candidate), pairs[i]? = some pair ∧ KnownAses pair ∧
    Doubles.Drawn randMax (shares (pairWeights pairs)) i

/-- What `compute_weighted_bandwidths` gives: half a byte at least, and at most `2 ^ 31` bytes. -/
def IsBandwidth (bw : Binary64) : Prop := Within (1 / 2) (2 ^ 31) bw

section Loop

variable {solveLp : List (List ℚ) → ℕ → ℕ → List Binary64} {randMax : ℕ}
  {entries exits : List Candidate}

lemma pairWeights_within (hbw : ∀ node ∈ entries ++ exits, IsBandwidth node.bw) :
    ∀ w ∈ pairWeights (candidatePairs entries exits), Within (1 / 4) (2 ^ 62) w := by
  refine forall_mem_pairWeights.mpr fun entry hentry exit hexit => ?_
  have h := (hbw _ (mem_append_left _ hentry)).mul (hbw _ (mem_append_right _ hexit))
    (by norm_num) (by norm_num) (representable_zpow (-2) (by norm_num) (by norm_num))
    (representable_zpow 62 (by norm_num) (by norm_num)) (by
      rw [← pow_add]
      exact pow_lt_pow_right₀ one_lt_two (by norm_num))
  exact h.mono (by norm_num) (by norm_num)

/-- The sum of up to `maxPairs` numbers. -/
lemma sum_within {k j : ℤ} {l : List Binary64} {n : ℕ} (hn : n ≤ 900) (hk : -1074 ≤ k)
    (hl : ∀ a ∈ l, Within (2 ^ k) (2 ^ n) a) (hlen : l.length ≤ maxPairs) (hne : l ≠ [])
    (hj : j = n + 14) : Within (2 ^ k) (2 ^ j) (Binary64.sum l) := by
  have h := Binary64.within_sum hn (representable_zpow k hk rfl) (Binary64.two_zpow_pos k).le hl
    (hlen.trans (by norm_num [maxPairs])) hne
  refine h.mono le_rfl ?_
  have hlen' : (l.length : ℚ) ≤ 2 ^ 14 := by
    have : (l.length : ℚ) ≤ 10000 := by exact_mod_cast hlen
    linarith
  rw [hj, zpow_add₀ two_ne_zero, zpow_natCast, mul_comm]
  exact mul_le_mul_of_nonneg_left (by exact_mod_cast hlen') (pow_nonneg zero_le_two _)

/-- The shares of up to `maxPairs` weights of bandwidths are positive. -/
lemma shares_pos {weights : List Binary64} (hw : ∀ w ∈ weights, Within (1 / 4) (2 ^ 62) w)
    (hlen : weights.length ≤ maxPairs) : ∀ v ∈ shares weights, 0 < v := by
  have hquarter : (1 / 4 : ℚ) = 2 ^ (-2 : ℤ) := by norm_num
  have hquotient {a b : Binary64} {lo hi lo' hi' : ℤ} (ha : Within (2 ^ lo) (2 ^ hi) a)
      (hb : Within (2 ^ lo') (2 ^ hi') b) (hmin : -1074 ≤ lo - hi') (hmin' : -1074 ≤ hi - lo')
      (hmax : hi - lo' < 1024) : Within (2 ^ (lo - hi')) (2 ^ (hi - lo')) (a / b) := by
    have hsub (m n : ℤ) : (2 : ℚ) ^ (m - n) = 2 ^ m / 2 ^ n := zpow_sub₀ two_ne_zero m n
    have h := ha.div hb (Binary64.two_zpow_pos _).le (Binary64.two_zpow_pos _)
      (representable_zpow _ hmin (hsub _ _).symm) (representable_zpow _ hmin' (hsub _ _).symm) (by
        rw [← hsub, ← zpow_natCast]
        exact zpow_lt_zpow_right₀ one_lt_two hmax)
    rwa [hsub, hsub]
  intro v hv
  have hne : weights ≠ [] := by
    rintro rfl
    cases hv
  obtain ⟨q, hq, rfl⟩ := List.mem_map.mp hv
  have hq' : ∀ q ∈ weights.map fun w => w / Binary64.sum weights, Within (2 ^ (-78 : ℤ))
      (2 ^ 64) q := by
    rw [List.forall_mem_map]
    intro w hmem
    have hw' := hw w hmem
    rw [hquarter] at hw'
    have hsum := sum_within (k := -2) (j := 76) (show 62 ≤ 900 by norm_num) (by norm_num)
      (fun w hmem => by rw [← hquarter]; exact hw w hmem) hlen hne (by norm_num)
    exact @hquotient _ _ (-2) 62 (-2) 76 hw' hsum (by norm_num) (by norm_num) (by norm_num)
  have hsum := sum_within (k := -78) (j := 78) (show 64 ≤ 900 by norm_num) (by norm_num) hq'
    (by simpa using hlen) (by simpa using hne) (by norm_num)
  exact (@hquotient _ _ (-78) 64 (-78) 78 (hq' q hq) hsum (by norm_num) (by norm_num)
    (by norm_num)).pos (Binary64.two_zpow_pos _)

/-- **The distribution** of pairs of such bandwidths has their shares. -/
lemma tuneDistributions_of_bandwidths (hlp : SolvesPairs solveLp)
    (hbw : ∀ node ∈ entries ++ exits, IsBandwidth node.bw) (hne : candidatePairs entries exits ≠ [])
    {m : AttackerMatrix}
    (hm : attackerMatrix (entries.map Candidate.part) (exits.map Candidate.part) = some m) :
    mixedDistribution solveLp entries exits m =
      shares (pairWeights (candidatePairs entries exits)) := by
  have hw := pairWeights_within hbw
  by_cases hfree : ∃ pair ∈ candidatePairs entries exits, NoCommonAs pair
  · obtain ⟨pair, hpair, hno⟩ := hfree
    exact tuneDistributions_of_free (fun w hmem => (hw w hmem).not_neg (by norm_num))
      ⟨pair, hpair, (hw _ (List.mem_map_of_mem hpair)).pos (by norm_num), hno⟩ hm
  · have hflags := attackerFree_parts hm
    have hnone : m.attackerFree = replicate (candidatePairs entries exits).length false := by
      rw [hflags, eq_replicate_iff]
      refine ⟨length_map _, List.forall_mem_map.mpr fun pair hpair => ?_⟩
      exact decide_eq_false fun hno => hfree ⟨pair, hpair, hno⟩
    have hres : securityResult solveLp m =
        solveLp m.S (candidatePairs entries exits).length m.attackers.length := by
      unfold securityResult
      simp only [hnone, count_replicate, length_replicate]
      rfl
    obtain ⟨hlplen, hlpmem, hlppos⟩ := hlp m.S (candidatePairs entries exits).length
      m.attackers.length (length_pos_of_ne_nil hne)
    -- no pair is free, so the securities are those of the program
    have hsec : securityWeights (pairWeights (candidatePairs entries exits))
        (securityResult solveLp m) m.attackerFree =
          solveLp m.S (candidatePairs entries exits).length m.attackers.length := by
      rw [hres]
      refine ext_getElem (by simp [securityWeights, hnone, hlplen, pairWeights]) fun i h1 h2 => ?_
      simp [securityWeights, hnone]
    rw [mixedDistribution, hsec]
    refine tuneDistributions_eq_shares (by rw [hlplen, pairWeights, length_map])
      (fun w hmem => (hw w hmem).not_neg (by norm_num)) fun _ => ⟨?_, ?_, hlppos⟩
    · exact fun v hmem => Binary64.not_lt_of_le (hlpmem v hmem).1
    · intro v hmem
      obtain ⟨hv0, hv1⟩ := hlpmem v hmem
      cases v with
      | finite x hx hx' => rfl
      | infinite negative =>
        cases negative with
        | false => cases hv1
        | true => cases hv0
      | nan => cases hv0

lemma tunedDistribution_of_bandwidths (hlp : SolvesPairs solveLp)
    (hbw : ∀ node ∈ entries ++ exits, IsBandwidth node.bw) {i : ℕ} {pair : Candidate × Candidate}
    (hpair : (candidatePairs entries exits)[i]? = some pair) :
    (SelectionFits RowsSuffice entries exits → tunedDistribution solveLp entries exits =
      some (shares (pairWeights (candidatePairs entries exits)))) ∧
    ∀ dist, tunedDistribution solveLp entries exits = some dist →
      SelectionFits RowsNeeded entries exits ∧
        dist = shares (pairWeights (candidatePairs entries exits)) :=
  tunedDistribution_spec fun _ hm => tuneDistributions_of_bandwidths hlp hbw
    (ne_nil_of_mem (mem_of_getElem? hpair)) hm

lemma leavesSelection_of_fits (hlp : SolvesPairs solveLp)
    (hbw : ∀ node ∈ entries ++ exits, IsBandwidth node.bw)
    (hfit : SelectionFits RowsSuffice entries exits)
    (hdrawn : KnownDrawn randMax (candidatePairs entries exits)) :
    LeavesSelection solveLp randMax entries exits := by
  have hw := pairWeights_within hbw
  obtain ⟨i, pair, hpair, hknown, hdrawn⟩ := hdrawn
  have hi : i < (shares (pairWeights (candidatePairs entries exits))).length := by
    simpa [shares, pairWeights] using (List.getElem?_eq_some_iff.mp hpair).1
  refine ⟨_, (tunedDistribution_of_bandwidths hlp hbw hpair).1 hfit, ⟨i, pair, hpair, hknown, ?_⟩,
    ?_⟩
  · rw [getD_eq_getElem _ _ hi]
    refine shares_pos hw ?_ _ (getElem_mem hi)
    rw [pairWeights, length_map, length_candidatePairs]
    exact hfit.pairs
  · obtain ⟨draws, hdraws, hselect⟩ := (exists_selectPair_iff (shares_not_neg fun w hmem =>
      (hw w hmem).not_neg (by norm_num))).mpr ⟨i, hpair, hknown, hdrawn⟩
    exact ⟨draws, hdraws, by rw [hselect]; rfl⟩

lemma LeavesSelection.needed (hlp : SolvesPairs solveLp)
    (hbw : ∀ node ∈ entries ++ exits, IsBandwidth node.bw)
    (h : LeavesSelection solveLp randMax entries exits) :
    SelectionFits RowsNeeded entries exits ∧ KnownDrawn randMax (candidatePairs entries exits) := by
  have hw := pairWeights_within hbw
  obtain ⟨dist, hdist, ⟨i, pair, hpair, -, -⟩, draws, hdraws, hsome⟩ := h
  obtain ⟨hfit, rfl⟩ := (tunedDistribution_of_bandwidths hlp hbw hpair).2 dist hdist
  obtain ⟨drawn, hselect⟩ := Option.isSome_iff_exists.mp hsome
  obtain ⟨j, hj, hknown, hdrawn⟩ := (exists_selectPair_iff (shares_not_neg fun w hmem =>
    (hw w hmem).not_neg (by norm_num))).mp ⟨draws, hdraws, hselect⟩
  exact ⟨hfit, j, drawn, hj, hknown, hdrawn⟩

/-- **When the loop can be left.**  For any candidates with such bandwidths, it can if the arrays
suffice and some random number draws a pair whose ASes are known; conversely, the arrays are as
large as needed and some number draws such a pair. -/
theorem selection_leaves (hlp : SolvesPairs solveLp)
    (hbw : ∀ node ∈ entries ++ exits, IsBandwidth node.bw) :
    (SelectionFits RowsSuffice entries exits ∧ KnownDrawn randMax (candidatePairs entries exits) →
      LeavesSelection solveLp randMax entries exits) ∧
    (LeavesSelection solveLp randMax entries exits →
      SelectionFits RowsNeeded entries exits ∧ KnownDrawn randMax (candidatePairs entries exits)) :=
  ⟨fun h => leavesSelection_of_fits hlp hbw h.1 h.2, LeavesSelection.needed hlp hbw⟩

/-- The linear program is not needed if a pair is free. -/
def firstPair (_ : List (List ℚ)) (n _ : ℕ) : List Binary64 :=
  if n = 0 then [] else 1 :: replicate (n - 1) 0

lemma solvesPairs_firstPair : SolvesPairs firstPair := by
  intro S n m hn
  rw [firstPair, if_neg hn.ne']
  refine ⟨by rw [length_cons, length_replicate]; omega, ?_, 1, mem_cons_self,
    by decide +kernel⟩
  intro x hx
  rcases mem_cons.mp hx with rfl | hx
  · decide +kernel
  · rw [eq_of_mem_replicate hx]
    decide +kernel

/-- A candidate of a known or an unknown AS, whose segment shares no AS with the other ones. -/
def lonelyCandidate (known : Bool) (bw : ℚ) (c : ℤ) : Candidate :=
  ⟨if known then "1".toList else "-1".toList, .ofRat bw, [c]⟩

/-- The greatest bandwidth that is given. -/
def greatestBandwidth : ℚ := 2 ^ 31 - 1 / 2

lemma isBandwidth_ofRat {bw : ℚ} (h : 1 / 2 ≤ bw) (h' : bw ≤ 2 ^ 31) : IsBandwidth (.ofRat bw) :=
  Binary64.within_ofRat (representable_zpow (-1) (by norm_num) (by norm_num)) (by norm_num)
    (representable_zpow 31 (by norm_num) (by norm_num))
    (pow_lt_pow_right₀ one_lt_two (by norm_num)) h h'

lemma isBandwidth_greatest : IsBandwidth (.ofRat greatestBandwidth) :=
  isBandwidth_ofRat (by norm_num [greatestBandwidth]) (by norm_num [greatestBandwidth])

lemma isBandwidth_least : IsBandwidth (.ofRat (1 / 2)) := isBandwidth_ofRat le_rfl (by norm_num)

/-- An entry of a known AS with the least bandwidth, and one of an unknown AS with the greatest. -/
def lightEntry : Candidate := lonelyCandidate true (1 / 2) 7

def heavyEntry : Candidate := lonelyCandidate false greatestBandwidth 8

def heavyExit : Candidate := lonelyCandidate true greatestBandwidth 9

/-- If the light entry comes first, the loop can be left. -/
theorem selection_leaves_first :
    LeavesSelection firstPair 2147483647 [lightEntry, heavyEntry] [heavyExit] := by
  refine (selection_leaves solvesPairs_firstPair ?_).1
    ⟨⟨by decide, by decide, by decide +kernel⟩, 0, _, rfl, by decide, .inl rfl⟩
  simp only [cons_append, nil_append, forall_mem_cons]
  exact ⟨isBandwidth_least, isBandwidth_greatest, isBandwidth_greatest, by simp⟩

/-- The random numbers below one are one step below it at least. -/
lemma randomNumber_lt {r : ℕ} (hr : r < 2147483647) :
    Binary64.ofRat r / .ofRat 2147483647 < .ofRat (1 - 1 / 2 ^ 32) := by
  have hmax : ∀ x : ℚ, |x| < 2 ^ 32 → |x| < 2 ^ 1024 := fun x hx =>
    hx.trans (pow_lt_pow_right₀ one_lt_two (by norm_num))
  have hone : (1 : ℚ) < 2 ^ 1024 := one_lt_pow₀ one_lt_two (by norm_num)
  have hr' : (r : ℚ) ≤ 2147483646 := by exact_mod_cast Nat.le_of_lt_succ hr
  have hnum := Binary64.ofRat_of_representable
    (Binary64.representable_natCast (hr.le.trans (by norm_num)))
    (hmax r (by rw [Nat.abs_cast]; norm_num; linarith))
  have hden := Binary64.ofRat_of_representable
    (Binary64.representable_natCast (n := 2147483647) (by norm_num)) (hmax _ (by norm_num))
  have hstep : (r : ℚ) / (2147483647 : ℕ) ≤ 1 - 1 / 2 ^ 31 := by
    rw [div_le_iff₀ (by norm_num)]
    norm_num
    linarith
  have hbelow : (1 - 1 / 2 ^ 31 : ℚ) ≤ 1 := by norm_num
  have hlow : Within 0 (1 - 1 / 2 ^ 31) (.ofRat (r / (2147483647 : ℕ))) :=
    Binary64.within_ofRat Binary64.representable_zero le_rfl
      ⟨2 ^ 31 - 1, -31, by norm_num, by norm_num, by norm_num⟩
      (hbelow.trans_lt hone) (div_nonneg r.cast_nonneg (Nat.cast_nonneg _)) hstep
  have hhigh : Within (1 - 1 / 2 ^ 32) 1 (.ofRat (1 - 1 / 2 ^ 32)) :=
    Binary64.within_ofRat ⟨2 ^ 32 - 1, -32, by norm_num, by norm_num, by norm_num⟩ (by norm_num)
      Binary64.representable_one hone le_rfl (by norm_num)
  obtain ⟨x, hx, hx', heq, -, hxle⟩ := hlow
  obtain ⟨y, hy, hy', heq', hyle, -⟩ := hhigh
  have hquotient : Binary64.ofRat r / .ofRat 2147483647 = .ofRat (r / (2147483647 : ℕ)) := by
    have hcast : (2147483647 : ℚ) = (2147483647 : ℕ) := by norm_num
    have hne : ((2147483647 : ℕ) : ℚ) ≠ 0 := by norm_num
    rw [hcast, hnum, hden, Binary64.finite_div_finite _ _ _ _ hne]
  rw [hquotient, heq, heq']
  refine decide_eq_true ?_
  linarith

/-- If the heavy entry comes first, no random number draws the other pair: its part is smaller than
the steps of the random numbers. -/
theorem not_selection_leaves :
    (∃ pair ∈ candidatePairs [heavyEntry, lightEntry] [heavyExit], KnownAses pair) ∧
    ¬ LeavesSelection firstPair 2147483647 [heavyEntry, lightEntry] [heavyExit] := by
  refine ⟨⟨_, mem_cons_of_mem _ mem_cons_self, by decide⟩, fun h => ?_⟩
  have hbw : ∀ node ∈ [heavyEntry, lightEntry] ++ [heavyExit], IsBandwidth node.bw := by
    simp only [cons_append, nil_append, forall_mem_cons]
    exact ⟨isBandwidth_greatest, isBandwidth_least, isBandwidth_greatest, by simp⟩
  obtain ⟨-, i, pair, hpair, hknown, hdrawn⟩ := h.needed solvesPairs_firstPair hbw
  rcases i with _ | _ | i
  · obtain rfl := Option.some.inj hpair
    exact absurd hknown (by decide)
  · obtain ⟨r, hr, hpart⟩ := hdrawn.resolve_left one_ne_zero
    have hd := shares_not_neg fun w hmem => (pairWeights_within hbw w hmem).not_neg (by norm_num)
    rcases hr.lt_or_eq with hlt | rfl
    · have hsum : Binary64.sum (shares (pairWeights
          (candidatePairs [heavyEntry, lightEntry] [heavyExit]))) = 1 := by
        decide +kernel
      have hfirst : Binary64.sum ((shares (pairWeights
          (candidatePairs [heavyEntry, lightEntry] [heavyExit]))).take 1) =
            .ofRat (1 - 1 / 2 ^ 32) := by
        decide +kernel
      have hle := hpart.1
      rw [zero_add, hfirst, Doubles.randomNumber, hsum, Binary64.mul_one] at hle
      exact Binary64.not_lt_of_le hle (randomNumber_lt hlt)
    · exact Doubles.not_inPart_randMax hd hpart
  · cases hpair

end Loop

end Astoria
