import Mathlib.Tactic.Linarith

/-!
# Bandwidth weights

The consensus says with which weights guards, middle nodes, exits and nodes that are both should be
chosen for each position.  The weights are computed from the total bandwidths `G`, `M`, `E` and `D`
of these classes, in seven cases, with integer divisions that truncate.  In most of the cases the
result is checked before it is written.

Whatever is written is in range, the weights of one class add up, and the totals of the positions
are balanced as the case demands (`bw_weights_balanced`).
-/

namespace Astoria

open List

/-- The weights: of guards, of guards that are exits too, and so on, in the guard, the middle and
the exit position. -/
structure BwWeights where
  wgg : ℤ
  wgd : ℤ
  wmg : ℤ
  wme : ℤ
  wmd : ℤ
  wed : ℤ
  wee : ℤ

/-- The total bandwidths of the guards, the middle nodes, the exits and the nodes that are both
guards and exits, and of all nodes. -/
structure BwTotals where
  g : ℤ
  m : ℤ
  e : ℤ
  d : ℤ
  t : ℤ

inductive BwWeightsError
  | noError | rangeError | sumgError | sumeError | sumdError | balanceMidError | balanceEgError
  deriving DecidableEq

/-- Whether two numbers differ by a margin at most (`CHECK_EQ`). -/
def checkEq (a b margin : ℤ) : Bool :=
  if 0 ≤ a - b then decide (a - b ≤ margin) else decide (b - a ≤ margin)

/-- Whether all weights are in the range up to a bound (`RANGE_CHECK`). -/
def rangeCheck (w : BwWeights) (mx : ℤ) : Bool :=
  [w.wgg, w.wgd, w.wmg, w.wme, w.wmd, w.wed, w.wee].all fun a => decide (0 ≤ a ∧ a ≤ mx)

/-- The weighted bandwidth in the guard position. -/
def BwWeights.guardTotal (w : BwWeights) (b : BwTotals) : ℤ := w.wgg * b.g + w.wgd * b.d

/-- The weighted bandwidth in the exit position. -/
def BwWeights.exitTotal (w : BwWeights) (b : BwTotals) : ℤ := w.wee * b.e + w.wed * b.d

/-- The weighted bandwidth in the middle position. -/
def BwWeights.middleTotal (w : BwWeights) (b : BwTotals) (scale : ℤ) : ℤ :=
  b.m * scale + w.wmd * b.d + w.wme * b.e + w.wmg * b.g

/-- Check that weights satisfy the balance formulas. -/
def networkstatusCheckWeights (w : BwWeights) (scale : ℤ) (b : BwTotals) (margin : ℤ)
    (doBalance : Bool) : BwWeightsError :=
  if !checkEq (w.wed + w.wmd + w.wgd) scale margin then .sumdError
  else if !checkEq (w.wmg + w.wgg) scale margin then .sumgError
  else if !checkEq (w.wme + w.wee) scale margin then .sumeError
  else if !rangeCheck w scale then .rangeError
  else if !doBalance then .noError
  else if !checkEq (w.guardTotal b) (w.exitTotal b) ((margin * b.t).tdiv 3) then .balanceEgError
  else if !checkEq (w.guardTotal b) (w.middleTotal b scale) ((margin * b.t).tdiv 3) then
    .balanceMidError
  else .noError

/-- The weights if they pass the check. -/
def checkedWeights (w : BwWeights) (weightScale : ℤ) (b : BwTotals) : Option BwWeights :=
  if networkstatusCheckWeights w weightScale b 10 true = .noError then some w else none

/-- Case 1: neither guards nor exits are scarce. -/
def bwWeightsCase1 (b : BwTotals) (weightScale : ℤ) : BwWeights :=
  let wee := (weightScale * (b.e + b.g + b.m)).tdiv (3 * b.e)
  let wmg := (weightScale * (2 * b.g - b.e - b.m)).tdiv (3 * b.g)
  { wgd := weightScale.tdiv 3
    wed := weightScale.tdiv 3
    wmd := weightScale.tdiv 3
    wee := wee
    wme := weightScale - wee
    wmg := wmg
    wgg := weightScale - wmg }

/-- Case 2a: both are scarce, and one of them so much that it gets all of `D`. -/
def bwWeightsCase2a (b : BwTotals) (weightScale : ℤ) : BwWeights :=
  { wgg := weightScale
    wee := weightScale
    wmg := 0
    wme := 0
    wmd := 0
    wed := if b.e < b.g then weightScale else 0
    wgd := if b.e < b.g then 0 else weightScale }

/-- Case 2b1: both are scarce, and the guards stay in the guard position. -/
def bwWeightsCase2b1 (b : BwTotals) (weightScale : ℤ) : BwWeights :=
  let wed := (weightScale * (b.d - 2 * b.e + 4 * b.g - 2 * b.m)).tdiv (3 * b.d)
  { wee := (weightScale * (b.e - b.g + b.m)).tdiv b.e
    wed := wed
    wme := (weightScale * (b.g - b.m)).tdiv b.e
    wmg := 0
    wgg := weightScale
    wmd := (weightScale - wed).tdiv 2
    wgd := (weightScale - wed).tdiv 2 }

/-- Cases 2b2 and 2b3: both are scarce, and guards and exits stay in their positions. -/
def bwWeightsCase2b2 (b : BwTotals) (weightScale : ℤ) : BwWeights :=
  let wed := (weightScale * (b.d - 2 * b.e + b.g + b.m)).tdiv (3 * b.d)
  let wmd := (weightScale * (b.d - 2 * b.m + b.g + b.e)).tdiv (3 * b.d)
  let wmd := if wmd < 0 then 0 else wmd
  { wgg := weightScale
    wee := weightScale
    wed := wed
    wmd := wmd
    wme := 0
    wmg := 0
    wgd := weightScale - wed - wmd }

/-- Case 3a: one of them is scarce and gets all of `D`. -/
def bwWeightsCase3a (b : BwTotals) (weightScale : ℤ) : BwWeights :=
  if b.g < b.e then
    let wme := if b.e < b.m then 0 else (weightScale * (b.e - b.m)).tdiv (2 * b.e)
    { wgg := weightScale
      wgd := weightScale
      wmd := 0
      wed := 0
      wmg := 0
      wme := wme
      wee := weightScale - wme }
  else
    let wmg := if b.g < b.m then 0 else (weightScale * (b.g - b.m)).tdiv (2 * b.g)
    { wee := weightScale
      wed := weightScale
      wmd := 0
      wgd := 0
      wme := 0
      wmg := wmg
      wgg := weightScale - wmg }

/-- Case 3b: one of them is scarce and gets a part of `D`. -/
def bwWeightsCase3b (b : BwTotals) (weightScale : ℤ) : BwWeights :=
  if b.g < b.e then
    let wgd := (weightScale * (b.d - 2 * b.g + b.e + b.m)).tdiv (3 * b.d)
    let wee := (weightScale * (b.e + b.m)).tdiv (2 * b.e)
    { wgg := weightScale
      wgd := wgd
      wmg := 0
      wee := wee
      wme := weightScale - wee
      wmd := (weightScale - wgd).tdiv 2
      wed := (weightScale - wgd).tdiv 2 }
  else
    let wed := (weightScale * (b.d - 2 * b.e + b.g + b.m)).tdiv (3 * b.d)
    let wgg := (weightScale * (b.g + b.m)).tdiv (2 * b.g)
    { wee := weightScale
      wed := wed
      wme := 0
      wgg := wgg
      wmg := weightScale - wgg
      wmd := (weightScale - wed).tdiv 2
      wgd := (weightScale - wed).tdiv 2 }

/-- The weights for the totals, if they can be computed. -/
def bwWeightsV10 (b : BwTotals) (weightScale : ℤ) : Option BwWeights :=
  if b.g ≤ 0 ∨ b.m ≤ 0 ∨ b.e ≤ 0 ∨ b.d ≤ 0 then none
  else if 3 * b.e ≥ b.t ∧ 3 * b.g ≥ b.t then
    checkedWeights (bwWeightsCase1 b weightScale) weightScale b
  else if 3 * b.e < b.t ∧ 3 * b.g < b.t then
    if min b.e b.g + b.d < max b.e b.g then some (bwWeightsCase2a b weightScale)
    else
      match checkedWeights (bwWeightsCase2b1 b weightScale) weightScale b with
      | some w => some w
      | none =>
        let w := bwWeightsCase2b2 b weightScale
        let berr := networkstatusCheckWeights w weightScale b 10 true
        -- the middle nodes may have too much bandwidth
        if berr ≠ .noError ∧ berr ≠ .balanceMidError then none else some w
  else if 3 * (min b.e b.g + b.d) < b.t then some (bwWeightsCase3a b weightScale)
  else checkedWeights (bwWeightsCase3b b weightScale) weightScale b

/-- A number as a 32-bit integer. -/
def castInt (w : ℤ) : ℤ := Int.bmod w (2 ^ 32)

def bandwidthWeightsLine (w : BwWeights) (weightScale : ℤ) : List (String × ℤ) :=
  [("Wbd", castInt w.wmd), ("Wbe", castInt w.wme), ("Wbg", castInt w.wmg),
    ("Wbm", castInt weightScale),
    ("Wdb", castInt weightScale),
    ("Web", castInt weightScale), ("Wed", castInt w.wed), ("Wee", castInt w.wee),
    ("Weg", castInt w.wed), ("Wem", castInt w.wee),
    ("Wgb", castInt weightScale), ("Wgd", castInt w.wgd), ("Wgg", castInt w.wgg),
    ("Wgm", castInt w.wgg),
    ("Wmb", castInt weightScale), ("Wmd", castInt w.wmd), ("Wme", castInt w.wme),
    ("Wmg", castInt w.wmg), ("Wmm", castInt weightScale)]

/-- Compute the weights and add their line to the consensus.  `none` is a failed assertion, and
there is no line if no weights could be computed. -/
def networkstatusComputeBwWeightsV10 (b : BwTotals) (weightScale : ℤ) :
    Option (Option (List (String × ℤ))) :=
  match bwWeightsV10 b weightScale with
  | none => some none
  | some w =>
    if 0 < weightScale ∧ weightScale ≤ 2 ^ 31 - 1 then
      some (some (bandwidthWeightsLine w weightScale))
    else none

/-! ### The checks -/

def BwWeights.toList (w : BwWeights) : List ℤ := [w.wgg, w.wgd, w.wmg, w.wme, w.wmd, w.wed, w.wee]

/-- Weights are in range, and those of one class add up to the scale. -/
structure BwWeights.Proper (w : BwWeights) (scale : ℤ) : Prop where
  range : ∀ a ∈ w.toList, 0 ≤ a ∧ a ≤ scale
  sum_g : |w.wgg + w.wmg - scale| ≤ 10
  sum_e : |w.wee + w.wme - scale| ≤ 10
  sum_d : |w.wgd + w.wmd + w.wed - scale| ≤ 10

/-- The guard and the exit position get about the same bandwidth. -/
def BwWeights.EgBalanced (w : BwWeights) (b : BwTotals) : Prop :=
  |w.guardTotal b - w.exitTotal b| ≤ (10 * b.t).tdiv 3

/-- The guard and the middle position get about the same bandwidth. -/
def BwWeights.MidBalanced (w : BwWeights) (b : BwTotals) (scale : ℤ) : Prop :=
  |w.guardTotal b - w.middleTotal b scale| ≤ (10 * b.t).tdiv 3

/-- The balance that is demanded in the case of the totals: of all positions in cases 1 and 3b, of
guards and exits in case 2b, and that the scarce class gets all of `D` in cases 2a and 3a. -/
def BwWeights.Balanced (w : BwWeights) (b : BwTotals) (scale : ℤ) : Prop :=
  if 3 * b.e ≥ b.t ∧ 3 * b.g ≥ b.t then w.EgBalanced b ∧ w.MidBalanced b scale
  else if 3 * b.e < b.t ∧ 3 * b.g < b.t then
    if min b.e b.g + b.d < max b.e b.g then
      if b.e < b.g then w.wed = scale else w.wgd = scale
    else w.EgBalanced b
  else if 3 * (min b.e b.g + b.d) < b.t then
    if b.g < b.e then w.wgd = scale else w.wed = scale
  else w.EgBalanced b ∧ w.MidBalanced b scale

section Checks

variable {w w' : BwWeights} {scale margin : ℤ} {b : BwTotals}

lemma checkEq_iff {a c : ℤ} : checkEq a c margin = true ↔ |a - c| ≤ margin := by
  unfold checkEq
  split_ifs with h
  · rw [decide_eq_true_eq, abs_of_nonneg h]
  · rw [decide_eq_true_eq, abs_of_neg (not_le.mp h), neg_sub]

lemma rangeCheck_iff : rangeCheck w scale = true ↔ ∀ a ∈ w.toList, 0 ≤ a ∧ a ≤ scale := by
  unfold rangeCheck
  rw [List.all_eq_true]
  simp only [decide_eq_true_eq]
  rfl

/-- The errors that weights can have before the middle balance is checked. -/
lemma checks_of_checkWeights
    (h : networkstatusCheckWeights w scale b 10 true = .noError ∨
      networkstatusCheckWeights w scale b 10 true = .balanceMidError) :
    checkEq (w.wed + w.wmd + w.wgd) scale 10 = true ∧ checkEq (w.wmg + w.wgg) scale 10 = true ∧
      checkEq (w.wme + w.wee) scale 10 = true ∧ rangeCheck w scale = true ∧
      checkEq (w.guardTotal b) (w.exitTotal b) ((10 * b.t).tdiv 3) = true ∧
      (networkstatusCheckWeights w scale b 10 true = .noError →
        checkEq (w.guardTotal b) (w.middleTotal b scale) ((10 * b.t).tdiv 3) = true) := by
  unfold networkstatusCheckWeights at h ⊢
  cases hd : checkEq (w.wed + w.wmd + w.wgd) scale 10 with
  | false => rw [hd] at h; exact absurd h (by simp)
  | true =>
    cases hg : checkEq (w.wmg + w.wgg) scale 10 with
    | false => rw [hd, hg] at h; exact absurd h (by simp)
    | true =>
      cases he : checkEq (w.wme + w.wee) scale 10 with
      | false => rw [hd, hg, he] at h; exact absurd h (by simp)
      | true =>
        cases hr : rangeCheck w scale with
        | false => rw [hd, hg, he, hr] at h; exact absurd h (by simp)
        | true =>
          cases hb : checkEq (w.guardTotal b) (w.exitTotal b) ((10 * b.t).tdiv 3) with
          | false => rw [hd, hg, he, hr, hb] at h; exact absurd h (by simp)
          | true =>
            refine ⟨rfl, rfl, rfl, rfl, rfl, fun hno => ?_⟩
            cases hm : checkEq (w.guardTotal b) (w.middleTotal b scale) ((10 * b.t).tdiv 3) with
            | false => rw [hm] at hno; exact absurd hno (by simp)
            | true => rfl

/-- **Weights whose only error is the middle balance** are proper, and guards and exits are
balanced. -/
lemma proper_of_checkWeights
    (h : networkstatusCheckWeights w scale b 10 true = .noError ∨
      networkstatusCheckWeights w scale b 10 true = .balanceMidError) :
    w.Proper scale ∧ w.EgBalanced b := by
  obtain ⟨hd, hg, he, hr, hb, -⟩ := checks_of_checkWeights h
  rw [checkEq_iff] at hd hg he hb
  refine ⟨⟨rangeCheck_iff.mp hr, ?_, ?_, ?_⟩, hb⟩
  · rwa [add_comm w.wgg]
  · rwa [add_comm w.wee]
  · rwa [show w.wgd + w.wmd + w.wed = w.wed + w.wmd + w.wgd by omega]

lemma midBalanced_of_checkWeights (h : networkstatusCheckWeights w scale b 10 true = .noError) :
    w.MidBalanced b scale := by
  obtain ⟨-, -, -, -, -, hm⟩ := checks_of_checkWeights (.inl h)
  exact checkEq_iff.mp (hm h)

lemma checkedWeights_eq_some (h : checkedWeights w scale b = some w') :
    w' = w ∧ w.Proper scale ∧ w.EgBalanced b ∧ w.MidBalanced b scale := by
  unfold checkedWeights at h
  split_ifs at h with hcheck
  obtain ⟨hproper, heg⟩ := proper_of_checkWeights (.inl hcheck)
  exact ⟨(Option.some.inj h).symm, hproper, heg, midBalanced_of_checkWeights hcheck⟩

/-! ### The cases without a check -/

lemma tdiv_part {x y : ℤ} (hscale : 0 < scale) (hx : 0 ≤ x) (hxy : x ≤ y) (hy : 0 < y) :
    0 ≤ (scale * x).tdiv y ∧ (scale * x).tdiv y ≤ scale := by
  have hnonneg : 0 ≤ scale * x := Int.mul_nonneg (Int.le_of_lt hscale) hx
  rw [Int.tdiv_eq_ediv_of_nonneg hnonneg]
  refine ⟨Int.ediv_nonneg hnonneg (Int.le_of_lt hy), ?_⟩
  have hle : scale * x ≤ scale * y := Int.mul_le_mul_of_nonneg_left hxy (Int.le_of_lt hscale)
  exact Int.ediv_le_of_le_mul hy hle

lemma BwWeights.Proper.of_exact (hrange : ∀ a ∈ w.toList, 0 ≤ a ∧ a ≤ scale)
    (hg : w.wgg + w.wmg = scale) (he : w.wee + w.wme = scale) (hd : w.wgd + w.wmd + w.wed = scale) :
    w.Proper scale := by
  refine ⟨hrange, ?_, ?_, ?_⟩
  · rw [hg, sub_self, abs_zero]
    decide
  · rw [he, sub_self, abs_zero]
    decide
  · rw [hd, sub_self, abs_zero]
    decide

/-- **Case 2a**: the weights are proper. -/
lemma proper_case2a (hscale : 0 < scale) : (bwWeightsCase2a b scale).Proper scale := by
  unfold bwWeightsCase2a
  split_ifs with h
  all_goals
    refine BwWeights.Proper.of_exact (fun a ha => ?_) (Int.add_zero _) (Int.add_zero _) (by simp)
    simp only [BwWeights.toList, mem_cons, not_mem_nil, or_false] at ha
    omega

/-- **Case 3a**: the weights are proper. -/
lemma proper_case3a (hscale : 0 < scale) (hm : 0 < b.m) (hg : 0 < b.g) (he : 0 < b.e) :
    (bwWeightsCase3a b scale).Proper scale := by
  -- the weight of a class that is not scarce in the middle position
  have hpart : ∀ x, 0 < x → 0 ≤ (if x < b.m then 0 else (scale * (x - b.m)).tdiv (2 * x)) ∧
      (if x < b.m then 0 else (scale * (x - b.m)).tdiv (2 * x)) ≤ scale := by
    intro x hx
    split_ifs with hlt
    · exact ⟨le_rfl, Int.le_of_lt hscale⟩
    · exact tdiv_part hscale (by omega) (by omega) (by omega)
  unfold bwWeightsCase3a
  by_cases h : b.g < b.e
  · have hwme := hpart b.e he
    rw [if_pos h]
    dsimp only
    generalize (if b.e < b.m then 0 else (scale * (b.e - b.m)).tdiv (2 * b.e)) = wme at hwme ⊢
    refine BwWeights.Proper.of_exact (fun a ha => ?_) (Int.add_zero _) (Int.sub_add_cancel _ _)
      (by simp)
    simp only [BwWeights.toList, mem_cons, not_mem_nil, or_false] at ha
    omega
  · have hwmg := hpart b.g hg
    rw [if_neg h]
    dsimp only
    generalize (if b.g < b.m then 0 else (scale * (b.g - b.m)).tdiv (2 * b.g)) = wmg at hwmg ⊢
    refine BwWeights.Proper.of_exact (fun a ha => ?_) (Int.sub_add_cancel _ _) (Int.add_zero _)
      (by simp)
    simp only [BwWeights.toList, mem_cons, not_mem_nil, or_false] at ha
    omega

/-- **The weights that are computed** are proper and balanced. -/
lemma proper_of_bwWeightsV10 (hscale : 0 < scale) (h : bwWeightsV10 b scale = some w) :
    w.Proper scale ∧ w.Balanced b scale := by
  unfold bwWeightsV10 at h
  by_cases hpos : b.g ≤ 0 ∨ b.m ≤ 0 ∨ b.e ≤ 0 ∨ b.d ≤ 0
  · rw [if_pos hpos] at h
    cases h
  · obtain ⟨hg, hm, he, hd⟩ : 0 < b.g ∧ 0 < b.m ∧ 0 < b.e ∧ 0 < b.d := by omega
    rw [if_neg hpos] at h
    unfold BwWeights.Balanced
    by_cases h1 : 3 * b.e ≥ b.t ∧ 3 * b.g ≥ b.t
    · rw [if_pos h1] at h ⊢
      obtain ⟨rfl, hproper, heg, hmid⟩ := checkedWeights_eq_some h
      exact ⟨hproper, heg, hmid⟩
    · rw [if_neg h1] at h ⊢
      by_cases h2 : 3 * b.e < b.t ∧ 3 * b.g < b.t
      · rw [if_pos h2] at h ⊢
        by_cases h2a : min b.e b.g + b.d < max b.e b.g
        · rw [if_pos h2a] at h ⊢
          obtain rfl := Option.some.inj h
          refine ⟨proper_case2a hscale, ?_⟩
          split_ifs with heg
          · exact if_pos heg
          · exact if_neg heg
        · rw [if_neg h2a] at h ⊢
          cases hb1 : checkedWeights (bwWeightsCase2b1 b scale) scale b with
          | some w₁ =>
            rw [hb1] at h
            obtain rfl := Option.some.inj h
            obtain ⟨rfl, hproper, heg, -⟩ := checkedWeights_eq_some hb1
            exact ⟨hproper, heg⟩
          | none =>
            rw [hb1] at h
            dsimp only at h
            split_ifs at h with herr
            obtain rfl := Option.some.inj h
            exact proper_of_checkWeights (by tauto)
      · rw [if_neg h2] at h ⊢
        by_cases h3a : 3 * (min b.e b.g + b.d) < b.t
        · rw [if_pos h3a] at h ⊢
          obtain rfl := Option.some.inj h
          refine ⟨proper_case3a hscale hm hg he, ?_⟩
          unfold bwWeightsCase3a
          split_ifs <;> rfl
        · rw [if_neg h3a] at h ⊢
          obtain ⟨rfl, hproper, heg, hmid⟩ := checkedWeights_eq_some h
          exact ⟨hproper, heg, hmid⟩

lemma BwWeights.Proper.castInt_eq (h : w.Proper scale) (hscale : scale ≤ 2 ^ 31 - 1) :
    ∀ a ∈ w.toList, castInt a = a := by
  intro a ha
  obtain ⟨hnonneg, hle⟩ := h.range a ha
  exact Int.bmod_eq_of_le (by omega) (by omega)

end Checks

/-- **The weights are balanced.**  Whatever weights are written, they are 32-bit integers in range,
the weights of one class add up to about the scale, and the totals of the positions are balanced as
the case demands. -/
theorem bw_weights_balanced (b : BwTotals) (weightScale : ℤ)
    (hscale : 0 < weightScale ∧ weightScale ≤ 2 ^ 31 - 1) :
    ∃ line, networkstatusComputeBwWeightsV10 b weightScale = some line ∧
      ∀ written, line = some written → ∃ w, written = bandwidthWeightsLine w weightScale ∧
        (∀ a ∈ w.toList, castInt a = a) ∧ w.Proper weightScale ∧ w.Balanced b weightScale := by
  unfold networkstatusComputeBwWeightsV10
  cases hw : bwWeightsV10 b weightScale with
  | none => exact ⟨none, rfl, nofun⟩
  | some w =>
    dsimp only
    rw [if_pos hscale]
    refine ⟨_, rfl, fun written hwritten => ⟨w, (Option.some.inj hwritten).symm, ?_⟩⟩
    obtain ⟨hproper, hbalanced⟩ := proper_of_bwWeightsV10 hscale.1 hw
    exact ⟨hproper.castInt_eq hscale.2, hproper, hbalanced⟩

/-- The weights of a small network. -/
theorem bw_weights_balanced_small :
    ∃ line, networkstatusComputeBwWeightsV10 ⟨4000, 2000, 3000, 1000, 10000⟩ 10000 = some line ∧
      ∀ written, line = some written → ∃ w, written = bandwidthWeightsLine w 10000 ∧
        (∀ a ∈ w.toList, castInt a = a) ∧ w.Proper 10000 ∧
          w.Balanced ⟨4000, 2000, 3000, 1000, 10000⟩ 10000 :=
  bw_weights_balanced ⟨4000, 2000, 3000, 1000, 10000⟩ 10000 (by decide)

/-- Weights are written for a network in which exits are scarce. -/
example : (networkstatusComputeBwWeightsV10 ⟨4000, 2000, 3000, 1000, 10000⟩ 10000).map
    (Option.map fun line => line.take 3) =
      some (some [("Wbd", 3333), ("Wbe", 0), ("Wbg", 2500)]) := by
  decide

end Astoria
