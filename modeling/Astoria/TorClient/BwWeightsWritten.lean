import Mathlib.Tactic.Ring
import Astoria.TorClient.BwWeights

/-!
# The networks that get bandwidth weights

The checks of the weights allow for the rounding of the divisions, and with a scale of 10000
rounding alone never fails them.  Only case 2b3 can fail: if the middle nodes have so much bandwidth
that the weight for them would be negative, it is taken to be zero and the others are left as they
are, so that guards and exits are out of balance unless the middle nodes have just a bit more than a
third of the bandwidth.

A network with bandwidth in every class gets weights exactly if it is not one of these
(`bw_weights_written_iff`).
-/

namespace Astoria

open List

def networkTotals (g m e d : ℤ) : BwTotals := ⟨g, m, e, d, g + m + e + d⟩

/-! ### Divisions -/

section Divisions

variable {x y : ℤ}

lemma tdiv_bounds (hx : 0 ≤ x) (hy : 0 < y) :
    y * x.tdiv y ≤ x ∧ x < y * x.tdiv y + y := by
  rw [Int.tdiv_eq_ediv_of_nonneg hx]
  have hdiv := Int.mul_ediv_add_emod x y
  have hnonneg := Int.emod_nonneg x hy.ne'
  have hlt := Int.emod_lt_of_pos x hy
  exact ⟨by linarith, by linarith⟩

lemma sub_tdiv_bounds (x : ℤ) (hy : 0 < y) : -y < x - y * x.tdiv y ∧ x - y * x.tdiv y < y := by
  rcases le_or_gt 0 x with hx | hx
  · obtain ⟨hle, hlt⟩ := tdiv_bounds hx hy
    exact ⟨by linarith, by linarith⟩
  · obtain ⟨hle, hlt⟩ := tdiv_bounds (x := -x) (y := y) (by omega) hy
    rw [Int.neg_tdiv] at hle hlt
    exact ⟨by linarith, by linarith⟩

/-- A quotient is negative if the divisor fits into the number. -/
lemma tdiv_neg_iff (hy : 0 < y) : x.tdiv y < 0 ↔ x ≤ -y := by
  rcases le_or_gt 0 x with hx | hx
  · have hquot : 0 ≤ x.tdiv y := Int.tdiv_nonneg hx hy.le
    constructor <;> intro h <;> omega
  · obtain ⟨hle, hlt⟩ := tdiv_bounds (x := -x) (y := y) (by omega) hy
    rw [Int.neg_tdiv] at hle hlt
    constructor
    · intro h
      have hmul : y * 1 ≤ y * -x.tdiv y := Int.mul_le_mul_of_nonneg_left (by omega) hy.le
      linarith
    · intro h
      by_contra hquot
      have hmul : y * -x.tdiv y ≤ y * 0 := Int.mul_le_mul_of_nonneg_left (by omega) hy.le
      linarith

lemma tdiv_le_iff (hx : 0 ≤ x) (hy : 0 < y) (k : ℤ) : x.tdiv y ≤ k ↔ x < y * (k + 1) := by
  rw [Int.tdiv_eq_ediv_of_nonneg hx, ← Int.lt_add_one_iff, Int.ediv_lt_iff_lt_mul hy, mul_comm]

lemma abs_le_margin_iff {t : ℤ} (ht : 0 ≤ t) (x : ℤ) :
    |x| ≤ (10 * t).tdiv 3 ↔ -(10 * t) ≤ 3 * x ∧ 3 * x ≤ 10 * t := by
  rw [Int.tdiv_eq_ediv_of_nonneg (by omega), abs_le]
  omega

end Divisions

/-! ### The checks -/

section Checks

variable {w : BwWeights} {scale : ℤ} {b : BwTotals}

/-- Weights in range whose sums and positions of guards and exits are balanced have no other
error. -/
lemma checkWeights_of_proper (h : w.Proper scale) (hb : w.EgBalanced b) :
    networkstatusCheckWeights w scale b 10 true =
      if checkEq (w.guardTotal b) (w.middleTotal b scale) ((10 * b.t).tdiv 3) then .noError
        else .balanceMidError := by
  have hd : checkEq (w.wed + w.wmd + w.wgd) scale 10 = true := by
    rw [checkEq_iff, show w.wed + w.wmd + w.wgd = w.wgd + w.wmd + w.wed by omega]
    exact h.sum_d
  have hg : checkEq (w.wmg + w.wgg) scale 10 = true := by
    rw [checkEq_iff, add_comm w.wmg]
    exact h.sum_g
  have he : checkEq (w.wme + w.wee) scale 10 = true := by
    rw [checkEq_iff, add_comm w.wme]
    exact h.sum_e
  have hr : rangeCheck w scale = true := rangeCheck_iff.mpr h.range
  have heg : checkEq (w.guardTotal b) (w.exitTotal b) ((10 * b.t).tdiv 3) = true :=
    checkEq_iff.mpr hb
  unfold networkstatusCheckWeights
  rw [hd, hg, he, hr, heg]
  cases checkEq (w.guardTotal b) (w.middleTotal b scale) ((10 * b.t).tdiv 3) <;> rfl

/-- **Weights pass the check** if they are proper and all positions are balanced. -/
lemma checkWeights_eq_noError_iff : networkstatusCheckWeights w scale b 10 true = .noError ↔
    w.Proper scale ∧ w.EgBalanced b ∧ w.MidBalanced b scale := by
  constructor
  · intro h
    obtain ⟨hproper, heg⟩ := proper_of_checkWeights (.inl h)
    exact ⟨hproper, heg, midBalanced_of_checkWeights h⟩
  · rintro ⟨hproper, heg, hmid⟩
    rw [checkWeights_of_proper hproper heg, if_pos (checkEq_iff.mpr hmid)]

/-- **Weights are tolerated** in case 2b if they are proper and guards and exits are balanced. -/
lemma checkWeights_tolerated_iff :
    (networkstatusCheckWeights w scale b 10 true = .noError ∨
      networkstatusCheckWeights w scale b 10 true = .balanceMidError) ↔
    w.Proper scale ∧ w.EgBalanced b := by
  constructor
  · exact proper_of_checkWeights
  · rintro ⟨hproper, heg⟩
    rw [checkWeights_of_proper hproper heg]
    split_ifs
    · exact .inl rfl
    · exact .inr rfl

end Checks

/-! ### The cases in which all checks pass -/

section Cases

variable {g m e d : ℤ}

lemma egBalanced_of_bounds {w : BwWeights} (ht : 0 ≤ g + m + e + d)
    (hlow : -(10 * (g + m + e + d)) ≤ 3 * (w.wgg * g + w.wgd * d - (w.wee * e + w.wed * d)))
    (hhigh : 3 * (w.wgg * g + w.wgd * d - (w.wee * e + w.wed * d)) ≤ 10 * (g + m + e + d)) :
    w.EgBalanced (networkTotals g m e d) :=
  (abs_le_margin_iff ht _).mpr ⟨hlow, hhigh⟩

lemma midBalanced_of_bounds {w : BwWeights} {scale : ℤ} (ht : 0 ≤ g + m + e + d)
    (hlow : -(10 * (g + m + e + d)) ≤
      3 * (w.wgg * g + w.wgd * d - (m * scale + w.wmd * d + w.wme * e + w.wmg * g)))
    (hhigh : 3 * (w.wgg * g + w.wgd * d - (m * scale + w.wmd * d + w.wme * e + w.wmg * g)) ≤
      10 * (g + m + e + d)) :
    w.MidBalanced (networkTotals g m e d) scale :=
  (abs_le_margin_iff ht _).mpr ⟨hlow, hhigh⟩

lemma proper_of_bounds {w : BwWeights}
    (hpos : 0 ≤ w.wgg ∧ 0 ≤ w.wgd ∧ 0 ≤ w.wmg ∧ 0 ≤ w.wme ∧ 0 ≤ w.wmd ∧ 0 ≤ w.wed ∧ 0 ≤ w.wee)
    (hmax : w.wgd ≤ 10000 ∧ w.wmd ≤ 10000 ∧ w.wed ≤ 10000) (hg : w.wgg + w.wmg = 10000)
    (he : w.wee + w.wme = 10000) (hlow : 9990 ≤ w.wgd + w.wmd + w.wed)
    (hhigh : w.wgd + w.wmd + w.wed ≤ 10010) :
    w.Proper 10000 := by
  refine ⟨fun a ha => ?_, ?_, ?_, ?_⟩
  · simp only [BwWeights.toList, mem_cons, not_mem_nil, or_false] at ha
    omega
  all_goals
    rw [abs_le]
    omega

section

variable (hg : 0 < g) (hm : 0 < m) (he : 0 < e) (hd : 0 < d)

include hg hm he hd

/-- **Case 1**: the checks pass. -/
lemma checkWeights_case1 (hexit : g + m + e + d ≤ 3 * e) (hguard : g + m + e + d ≤ 3 * g) :
    networkstatusCheckWeights (bwWeightsCase1 (networkTotals g m e d) 10000) 10000
      (networkTotals g m e d) 10 true =
      .noError := by
  have hwee := tdiv_part (x := e + g + m) (y := 3 * e) (by decide : (0 : ℤ) < 10000) (by omega)
    (by omega) (by omega)
  have hwmg :=
    tdiv_part (x := 2 * g - e - m) (y := 3 * g) (by decide : (0 : ℤ) < 10000) (by omega) (by omega)
      (by omega)
  have hwee' := tdiv_bounds (x := 10000 * (e + g + m)) (y := 3 * e) (by omega) (by omega)
  have hwmg' := tdiv_bounds (x := 10000 * (2 * g - e - m)) (y := 3 * g) (by omega) (by omega)
  have hthird : (10000 : ℤ).tdiv 3 = 3333 := by decide
  unfold bwWeightsCase1 networkTotals
  dsimp only
  rw [hthird]
  generalize (10000 * (e + g + m)).tdiv (3 * e) = wee at hwee hwee' ⊢
  generalize (10000 * (2 * g - e - m)).tdiv (3 * g) = wmg at hwmg hwmg' ⊢
  rw [checkWeights_eq_noError_iff]
  refine ⟨proper_of_bounds (by dsimp only; omega) (by dsimp only; omega) ?_ ?_ ?_ ?_,
    egBalanced_of_bounds (by omega) ?_ ?_,
    midBalanced_of_bounds (by omega) ?_ ?_⟩
  all_goals
    dsimp only
    linarith

/-- **Case 2b2**: the weights are tolerated if the weight of the nodes that are both is not
negative. -/
lemma tolerated_case2b2 (hexit : 3 * e < g + m + e + d)
    (hguard : 3 * g < g + m + e + d) (hmiddle : 10000 * (3 * m - (g + m + e + d)) < 3 * d) :
    (bwWeightsCase2b2 (networkTotals g m e d) 10000).Proper 10000 ∧
      (bwWeightsCase2b2 (networkTotals g m e d) 10000).EgBalanced (networkTotals g m e d) := by
  have hwed := tdiv_bounds (x := 10000 * (d - 2 * e + g + m)) (y := 3 * d) (by omega) (by omega)
  have hwed' : 0 ≤ (10000 * (d - 2 * e + g + m)).tdiv (3 * d) :=
    Int.tdiv_nonneg (by omega) (by omega)
  have hwmd := sub_tdiv_bounds (10000 * (d - 2 * m + g + e)) (y := 3 * d) (by omega)
  have hwmd' : ¬ (10000 * (d - 2 * m + g + e)).tdiv (3 * d) < 0 := by
    rw [tdiv_neg_iff (by omega)]
    omega
  unfold bwWeightsCase2b2 networkTotals
  dsimp only
  rw [if_neg hwmd']
  generalize (10000 * (d - 2 * e + g + m)).tdiv (3 * d) = wed at hwed hwed' ⊢
  generalize (10000 * (d - 2 * m + g + e)).tdiv (3 * d) = wmd at hwmd hwmd' ⊢
  -- the three weights share the scale, up to rounding
  have hsum : wed + wmd ≤ 10000 := by
    by_contra hlt
    have hmul : 3 * d * 10001 ≤ 3 * d * (wed + wmd) :=
      Int.mul_le_mul_of_nonneg_left (by omega) (by omega)
    linarith
  refine ⟨proper_of_bounds (by dsimp only; omega) (by dsimp only; omega) ?_ ?_ ?_ ?_,
    egBalanced_of_bounds (by omega) ?_ ?_⟩
  all_goals
    dsimp only
    linarith

/-- **Case 3b**: the checks pass. -/
lemma checkWeights_case3b (hscarce : ¬ (g + m + e + d ≤ 3 * e ∧ g + m + e + d ≤ 3 * g))
    (hother : ¬ (3 * e < g + m + e + d ∧ 3 * g < g + m + e + d))
    (hpart : g + m + e + d ≤ 3 * (min e g + d)) :
    networkstatusCheckWeights (bwWeightsCase3b (networkTotals g m e d) 10000) 10000
      (networkTotals g m e d) 10 true =
      .noError := by
  unfold bwWeightsCase3b networkTotals
  dsimp only
  by_cases h : g < e
  · rw [min_eq_right h.le] at hpart
    have hwgd := tdiv_part (x := d - 2 * g + e + m) (y := 3 * d) (by decide : (0 : ℤ) < 10000)
      (by omega) (by omega) (by omega)
    have hwgd' := tdiv_bounds (x := 10000 * (d - 2 * g + e + m)) (y := 3 * d) (by omega) (by omega)
    have hwee := tdiv_part (x := e + m) (y := 2 * e) (by decide : (0 : ℤ) < 10000) (by omega)
      (by omega) (by omega)
    have hwee' := tdiv_bounds (x := 10000 * (e + m)) (y := 2 * e) (by omega) (by omega)
    rw [if_pos h]
    generalize (10000 * (d - 2 * g + e + m)).tdiv (3 * d) = wgd at hwgd hwgd' ⊢
    generalize (10000 * (e + m)).tdiv (2 * e) = wee at hwee hwee' ⊢
    have hhalf := tdiv_bounds (x := 10000 - wgd) (y := 2) (by omega) (by omega)
    generalize (10000 - wgd).tdiv 2 = half at hhalf ⊢
    have hlow := Int.mul_nonneg hd.le (by omega : 0 ≤ 10000 - wgd - 2 * half)
    have hhigh := Int.mul_nonneg hd.le (by omega : 0 ≤ 2 * half + 1 - (10000 - wgd))
    rw [checkWeights_eq_noError_iff]
    refine ⟨proper_of_bounds (by dsimp only; omega) (by dsimp only; omega) ?_ ?_ ?_ ?_,
      egBalanced_of_bounds (by omega) ?_ ?_,
      midBalanced_of_bounds (by omega) ?_ ?_⟩
    all_goals
      dsimp only
      linarith
  · rw [min_eq_left (not_lt.mp h)] at hpart
    have hwed := tdiv_part (x := d - 2 * e + g + m) (y := 3 * d) (by decide : (0 : ℤ) < 10000)
      (by omega) (by omega) (by omega)
    have hwed' := tdiv_bounds (x := 10000 * (d - 2 * e + g + m)) (y := 3 * d) (by omega) (by omega)
    have hwgg := tdiv_part (x := g + m) (y := 2 * g) (by decide : (0 : ℤ) < 10000) (by omega)
      (by omega) (by omega)
    have hwgg' := tdiv_bounds (x := 10000 * (g + m)) (y := 2 * g) (by omega) (by omega)
    rw [if_neg h]
    generalize (10000 * (d - 2 * e + g + m)).tdiv (3 * d) = wed at hwed hwed' ⊢
    generalize (10000 * (g + m)).tdiv (2 * g) = wgg at hwgg hwgg' ⊢
    have hhalf := tdiv_bounds (x := 10000 - wed) (y := 2) (by omega) (by omega)
    generalize (10000 - wed).tdiv 2 = half at hhalf ⊢
    have hlow := Int.mul_nonneg hd.le (by omega : 0 ≤ 10000 - wed - 2 * half)
    have hhigh := Int.mul_nonneg hd.le (by omega : 0 ≤ 2 * half + 1 - (10000 - wed))
    rw [checkWeights_eq_noError_iff]
    refine ⟨proper_of_bounds (by dsimp only; omega) (by dsimp only; omega) ?_ ?_ ?_ ?_,
      egBalanced_of_bounds (by omega) ?_ ?_,
      midBalanced_of_bounds (by omega) ?_ ?_⟩
    all_goals
      dsimp only
      linarith

/-! ### Too much middle bandwidth -/

/-- **Case 2b3**: the weights are tolerated if the part of the exits is in range and the middle
nodes do not have much more than a third of the bandwidth. -/
lemma tolerated_case2b3_iff (hexit : 3 * e < g + m + e + d)
    (hmiddle : 3 * d ≤ 10000 * (3 * m - (g + m + e + d))) :
    (bwWeightsCase2b2 (networkTotals g m e d) 10000).Proper 10000 ∧
        (bwWeightsCase2b2 (networkTotals g m e d) 10000).EgBalanced (networkTotals g m e d) ↔
      10000 * (g + m + e + d - 3 * e) < 3 * d * 10001 ∧
        10000 * (3 * m - (g + m + e + d)) ≤
          10 * (g + m + e + d) + 2 * (10000 * (g + m + e + d - 3 * e) % (3 * d)) := by
  have hrest : g + m + e + d - 3 * e = d - 2 * e + g + m := by ring
  have hwed' : 0 ≤ (10000 * (d - 2 * e + g + m)).tdiv (3 * d) :=
    Int.tdiv_nonneg (by omega) (by omega)
  have hle :=
    tdiv_le_iff (x := 10000 * (d - 2 * e + g + m)) (y := 3 * d) (by omega) (by omega) 10000
  have hmod := Int.mul_ediv_add_emod (10000 * (d - 2 * e + g + m)) (3 * d)
  have hmodlt := Int.emod_lt_of_pos (10000 * (d - 2 * e + g + m)) (by omega : 0 < 3 * d)
  rw [← Int.tdiv_eq_ediv_of_nonneg (by omega)] at hmod
  have hwmd : (10000 * (d - 2 * m + g + e)).tdiv (3 * d) < 0 := by
    rw [tdiv_neg_iff (by omega)]
    omega
  rw [hrest]
  unfold bwWeightsCase2b2 networkTotals
  dsimp only
  rw [if_pos hwmd]
  generalize (10000 * (d - 2 * e + g + m)).tdiv (3 * d) = wed at hwed' hle hmod ⊢
  generalize 10000 * (d - 2 * e + g + m) % (3 * d) = r at hmod hmodlt ⊢
  constructor
  · rintro ⟨hproper, heg⟩
    have hrange := hproper.range wed (by simp [BwWeights.toList])
    have hbalance := (abs_le_margin_iff (t := g + m + e + d) (by omega) _).mp heg
    simp only [BwWeights.guardTotal, BwWeights.exitTotal] at hbalance
    exact ⟨hle.mp hrange.2, by linarith [hbalance.1]⟩
  · rintro ⟨hrange, hbalance⟩
    have hwed := hle.mpr hrange
    refine ⟨proper_of_bounds (by dsimp only; omega) (by dsimp only; omega) ?_ ?_ ?_ ?_,
      egBalanced_of_bounds (by omega) ?_ ?_⟩
    all_goals
      dsimp only
      linarith

end

/-- **Case 2b1**: with that much middle bandwidth, the checks pass if it is only a little more than
that of the guards. -/
lemma checkWeights_case2b1_iff (he : 0 < e) (hd : 0 < d) (hexit : 3 * e < g + m + e + d)
    (hguard : 3 * g < g + m + e + d) (hboth : max e g ≤ min e g + d)
    (hmiddle : 3 * d ≤ 10000 * (3 * m - (g + m + e + d))) :
    networkstatusCheckWeights (bwWeightsCase2b1 (networkTotals g m e d) 10000) 10000
      (networkTotals g m e d) 10 true =
        .noError ↔
      10000 * (m - g) < e ∧ -(3 * d) < 10000 * (d - 2 * e + 4 * g - 2 * m) := by
  have hge : g - e ≤ d := by
    have hmax := le_max_right e g
    have hmin := min_le_left e g
    omega
  have hwed := sub_tdiv_bounds (10000 * (d - 2 * e + 4 * g - 2 * m)) (y := 3 * d) (by omega)
  have hwed' := tdiv_neg_iff (x := 10000 * (d - 2 * e + 4 * g - 2 * m)) (y := 3 * d) (by omega)
  have hwme := tdiv_neg_iff (x := 10000 * (g - m)) he
  rw [checkWeights_eq_noError_iff]
  unfold bwWeightsCase2b1 networkTotals
  dsimp only
  generalize (10000 * (d - 2 * e + 4 * g - 2 * m)).tdiv (3 * d) = wed at hwed hwed' ⊢
  constructor
  · rintro ⟨hproper, -, -⟩
    have hrange := hproper.range
    simp only [BwWeights.toList, forall_mem_cons] at hrange
    obtain ⟨-, -, -, ⟨hwme0, -⟩, -, ⟨hwed0, -⟩, -⟩ := hrange
    rw [← not_lt, hwme] at hwme0
    rw [← not_lt, hwed'] at hwed0
    exact ⟨by omega, by omega⟩
  · rintro ⟨hguards, hexits⟩
    -- exits stay in their position
    have hzero : (10000 * (g - m)).tdiv e = 0 := by
      have hbounds := sub_tdiv_bounds (10000 * (g - m)) he
      have hnonneg : ¬ (10000 * (g - m)).tdiv e < 0 := by
        rw [hwme]
        omega
      by_contra hne
      have hmul : e * 1 ≤ e * (10000 * (g - m)).tdiv e :=
        Int.mul_le_mul_of_nonneg_left (by omega) he.le
      linarith [hbounds.1]
    have hfull : (10000 * (e - g + m)).tdiv e = 10000 := by
      have hle := (tdiv_le_iff (x := 10000 * (e - g + m)) (by omega) he 10000).mpr (by linarith)
      have hlt := tdiv_le_iff (x := 10000 * (e - g + m)) (by omega) he 9999
      have hge : ¬ (10000 * (e - g + m)).tdiv e ≤ 9999 := by
        rw [hlt]
        linarith
      omega
    have hwed0 : 0 ≤ wed := by
      rw [← not_lt, hwed']
      omega
    have hwed1 : wed ≤ 10000 := by
      by_contra hlt
      have hmul : 3 * d * 10001 ≤ 3 * d * wed := Int.mul_le_mul_of_nonneg_left (by omega) (by omega)
      linarith [hwed.1]
    have hhalf := tdiv_bounds (x := 10000 - wed) (y := 2) (by omega) (by omega)
    rw [hzero, hfull]
    generalize (10000 - wed).tdiv 2 = half at hhalf ⊢
    have hlow := Int.mul_nonneg hd.le (by omega : 0 ≤ 10000 - wed - 2 * half)
    have hhigh := Int.mul_nonneg hd.le (by omega : 0 ≤ 2 * half + 1 - (10000 - wed))
    refine ⟨proper_of_bounds (by dsimp only; omega) (by dsimp only; omega) ?_ ?_ ?_ ?_,
      egBalanced_of_bounds (by omega) ?_ ?_,
      midBalanced_of_bounds (by omega) ?_ ?_⟩
    all_goals
      dsimp only
      linarith

end Cases

/-! ### The networks without weights -/

/-- The middle nodes have too much bandwidth: guards and exits are both scarce, the nodes that are
both suffice to equalise them, and the middle nodes have so much more than a third of the bandwidth
that their weight would be negative. They do not just have a little more than the guards, and the
part of the exits is out of range or leaves the exits without balance. -/
def TooMuchMiddle (g m e d : ℤ) : Prop :=
  (3 * e < g + m + e + d ∧ 3 * g < g + m + e + d) ∧ max e g ≤ min e g + d ∧
    3 * d ≤ 10000 * (3 * m - (g + m + e + d)) ∧
    ¬ (10000 * (m - g) < e ∧ -(3 * d) < 10000 * (d - 2 * e + 4 * g - 2 * m)) ∧
    (3 * d * 10001 ≤ 10000 * (g + m + e + d - 3 * e) ∨
      10 * (g + m + e + d) + 2 * (10000 * (g + m + e + d - 3 * e) % (3 * d)) <
        10000 * (3 * m - (g + m + e + d)))

section Written

variable {g m e d : ℤ}

/-- In case 2b, weights are written if those of one of the two subcases are accepted. -/
lemma isSome_case2b_iff (hg : 0 < g) (hm : 0 < m) (he : 0 < e) (hd : 0 < d)
    (hscarce : 3 * e < g + m + e + d ∧ 3 * g < g + m + e + d) (hboth : max e g ≤ min e g + d) :
    (bwWeightsV10 (networkTotals g m e d) 10000).isSome ↔
      networkstatusCheckWeights (bwWeightsCase2b1 (networkTotals g m e d) 10000) 10000
        (networkTotals g m e d) 10
          true = .noError ∨
        (bwWeightsCase2b2 (networkTotals g m e d) 10000).Proper 10000 ∧
          (bwWeightsCase2b2 (networkTotals g m e d) 10000).EgBalanced (networkTotals g m e d) := by
  have hpos : ¬ (g ≤ 0 ∨ m ≤ 0 ∨ e ≤ 0 ∨ d ≤ 0) := by omega
  have h1 : ¬ (3 * e ≥ g + m + e + d ∧ 3 * g ≥ g + m + e + d) := by omega
  rw [← checkWeights_tolerated_iff]
  unfold bwWeightsV10
  rw [networkTotals, if_neg hpos, if_neg h1, if_pos hscarce, if_neg (not_lt.mpr hboth),
    ← networkTotals]
  unfold checkedWeights
  by_cases hb1 : networkstatusCheckWeights (bwWeightsCase2b1 (networkTotals g m e d) 10000) 10000
      (networkTotals g m e d) 10 true = .noError
  · rw [if_pos hb1]
    exact iff_of_true rfl (.inl hb1)
  · rw [if_neg hb1, or_iff_right hb1]
    dsimp only
    split_ifs with herr
    · exact iff_of_false (by simp) (by tauto)
    · exact iff_of_true rfl (by tauto)

/-- **The weights can be computed** unless the middle nodes have too much bandwidth. -/
lemma isSome_bwWeightsV10_iff (hg : 0 < g) (hm : 0 < m) (he : 0 < e) (hd : 0 < d) :
    (bwWeightsV10 (networkTotals g m e d) 10000).isSome ↔ ¬ TooMuchMiddle g m e d := by
  have hpos : ¬ (g ≤ 0 ∨ m ≤ 0 ∨ e ≤ 0 ∨ d ≤ 0) := by omega
  by_cases h2 : 3 * e < g + m + e + d ∧ 3 * g < g + m + e + d
  · by_cases hboth : max e g ≤ min e g + d
    · rw [isSome_case2b_iff hg hm he hd h2 hboth]
      by_cases hmiddle : 3 * d ≤ 10000 * (3 * m - (g + m + e + d))
      · rw [checkWeights_case2b1_iff he hd h2.1 h2.2 hboth hmiddle,
          tolerated_case2b3_iff hg hm he hd h2.1 hmiddle]
        simp only [TooMuchMiddle, h2, hboth, hmiddle, true_and, not_and_or, not_or, not_le, not_lt]
      · refine iff_of_true (.inr ?_) fun h => hmiddle h.2.2.1
        exact tolerated_case2b2 hg hm he hd h2.1 h2.2 (not_le.mp hmiddle)
    · have h1 : ¬ (3 * e ≥ g + m + e + d ∧ 3 * g ≥ g + m + e + d) := by omega
      refine iff_of_true ?_ fun h => hboth h.2.1
      unfold bwWeightsV10 networkTotals
      rw [if_neg hpos, if_neg h1, if_pos h2, if_pos (not_le.mp hboth)]
      rfl
  · refine iff_of_true ?_ fun h => h2 h.1
    by_cases h1 : g + m + e + d ≤ 3 * e ∧ g + m + e + d ≤ 3 * g
    · have hchecks := checkWeights_case1 hg hm he hd h1.1 h1.2
      unfold networkTotals at hchecks
      unfold bwWeightsV10 networkTotals checkedWeights
      rw [if_neg hpos, if_pos h1, if_pos hchecks]
      rfl
    · by_cases h3a : 3 * (min e g + d) < g + m + e + d
      · unfold bwWeightsV10 networkTotals
        rw [if_neg hpos, if_neg h1, if_neg h2, if_pos h3a]
        rfl
      · have hchecks := checkWeights_case3b hg hm he hd h1 h2 (not_lt.mp h3a)
        unfold networkTotals at hchecks
        unfold bwWeightsV10 networkTotals checkedWeights
        rw [if_neg hpos, if_neg h1, if_neg h2, if_neg h3a, if_pos hchecks]
        rfl

end Written

/-- **The networks with bandwidth weights.**  For all positive totals, a consensus gets a line with
bandwidth weights exactly if the middle nodes do not have too much bandwidth. -/
theorem bw_weights_written_iff {g m e d : ℤ} (hg : 0 < g) (hm : 0 < m) (he : 0 < e) (hd : 0 < d) :
    (∃ line, networkstatusComputeBwWeightsV10 (networkTotals g m e d) 10000 = some (some line)) ↔
      ¬ TooMuchMiddle g m e d := by
  rw [← isSome_bwWeightsV10_iff hg hm he hd]
  unfold networkstatusComputeBwWeightsV10
  cases bwWeightsV10 (networkTotals g m e d) 10000 with
  | none => exact iff_of_false (fun ⟨line, hline⟩ => by cases hline) (by simp)
  | some w => exact iff_of_true ⟨_, rfl⟩ rfl

/-- A network with bandwidth in equal parts has a line. -/
theorem bw_weights_written_equal :
    (∃ line, networkstatusComputeBwWeightsV10 (networkTotals 1 1 1 1) 10000 = some (some line)) ↔
      ¬ TooMuchMiddle 1 1 1 1 :=
  bw_weights_written_iff (by decide) (by decide) (by decide) (by decide)

/-- **A network without weights**: the middle nodes have two of five parts of the bandwidth. -/
theorem not_bw_weights_written :
    ¬ ∀ g m e d : ℤ, 0 < g → 0 < m → 0 < e → 0 < d → 40000 * (g + m + e + d) < 2 ^ 63 →
      ∃ line, networkstatusComputeBwWeightsV10 (networkTotals g m e d) 10000 =
        some (some line) := by
  intro h
  obtain ⟨line, hline⟩ := h 1 2 1 1 (by decide) (by decide) (by decide) (by decide) (by decide)
  have hnone : networkstatusComputeBwWeightsV10 (networkTotals 1 2 1 1) 10000 = some none := by
    decide
  rw [hnone] at hline
  cases hline

end Astoria
