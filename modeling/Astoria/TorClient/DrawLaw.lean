import Mathlib.Data.List.GetD
import Mathlib.Tactic.Linarith
import Mathlib.Tactic.Positivity
import Mathlib.Tactic.Ring

/-!
# The law of the draw

Distributions are generated from weights, two of them are mixed, and an index is drawn from the
mixture. Bandwidths and distributions are rational numbers here, so that nothing is rounded.

The probabilities have the sum one, and a random number draws the index into whose part it falls,
unless it is the greatest one, which falls into no part at all (`drawLaw_iff`).
-/

namespace Astoria

open List Option

/-! ### Exact distributions -/

/-- Weights divided by their sum.  Weights without a sum cannot be divided. -/
def generateDistribution (values : List ℚ) (uniform : Bool) : Option (List ℚ) :=
  if uniform then some (values.map fun _ => 1 / (values.length : ℚ))
  else if values.sum = 0 then none
  else some (values.map fun v => v / values.sum)

/-- The mixture of two distributions. -/
def tuneDistributions (d1 d2 : List ℚ) (alpha : ℚ) : List ℚ :=
  let mix := d1.zipWith (fun a b => a * alpha + b * (1 - alpha)) d2
  mix.map fun v => v / mix.sum

/-- The index that the random number `r` selects; no index is found for the number `randMax`. -/
def pickFromDist (randMax : ℕ) (dist : List ℚ) (r : ℕ) : ℕ :=
  let randomNumber := (r : ℚ) / randMax * dist.sum
  ((range dist.length).find? fun i => dist.getD i 0 ≠ 0 ∧
    (dist.take i).sum ≤ randomNumber ∧ randomNumber < (dist.take (i + 1)).sum).getD 0

/-! ### Drawing from a distribution -/

section Pick

variable {weights dist : List ℚ} {randMax r i j : ℕ} {x : ℚ}

/-- The sums of the beginnings of a list of weights do not decrease. -/
lemma sum_take_le (hw : ∀ w ∈ weights, 0 ≤ w) (hij : i ≤ j) :
    (weights.take i).sum ≤ (weights.take j).sum := by
  induction weights generalizing i j with
  | nil => simp
  | cons w weights ih =>
    have hrest : ∀ v ∈ weights, 0 ≤ v := fun v hv => hw v (mem_cons_of_mem _ hv)
    cases j with
    | zero =>
      rw [Nat.le_zero.mp hij]
    | succ j =>
      have hw0 : 0 ≤ w := hw w mem_cons_self
      rw [take_succ_cons, sum_cons]
      cases i with
      | zero =>
        have h0 := ih hrest (Nat.zero_le j)
        rw [take_zero, sum_nil] at h0 ⊢
        linarith
      | succ i =>
        have hle := ih hrest (Nat.le_of_succ_le_succ hij)
        rw [take_succ_cons, sum_cons]
        linarith

/-- A number below the sum of the first `n` weights falls into the part of one of them. -/
lemma exists_part (hx : 0 ≤ x) {n : ℕ} (hn : x < (weights.take n).sum) :
    ∃ i < n, (weights.take i).sum ≤ x ∧ x < (weights.take (i + 1)).sum := by
  induction n with
  | zero =>
    rw [take_zero, sum_nil] at hn
    linarith
  | succ n ih =>
    rcases lt_or_ge x (weights.take n).sum with hlt | hge
    · obtain ⟨i, hi, h⟩ := ih hlt
      exact ⟨i, Nat.lt_succ_of_lt hi, h⟩
    · exact ⟨n, Nat.lt_succ_self n, hge, hn⟩

/-- A number falls into the part of one weight only. -/
lemma part_unique (hw : ∀ w ∈ weights, 0 ≤ w)
    (hi : (weights.take i).sum ≤ x ∧ x < (weights.take (i + 1)).sum)
    (hj : (weights.take j).sum ≤ x ∧ x < (weights.take (j + 1)).sum) : i = j := by
  rcases Nat.lt_trichotomy i j with hlt | heq | hgt
  · have := sum_take_le hw (show i + 1 ≤ j from hlt)
    linarith [hi.2, hj.1]
  · exact heq
  · have := sum_take_le hw (show j + 1 ≤ i from hgt)
    linarith [hi.1, hj.2]

lemma getD_ne_zero_of_part (h : (weights.take i).sum ≤ x ∧ x < (weights.take (i + 1)).sum) :
    i < weights.length ∧ weights.getD i 0 ≠ 0 := by
  have hi : i < weights.length := by
    by_contra hge
    rw [take_of_length_le (by omega), take_of_length_le (by omega)] at h
    linarith [h.1, h.2]
  refine ⟨hi, fun h0 => ?_⟩
  rw [getD_eq_getElem _ _ hi] at h0
  rw [List.sum_take_succ _ _ hi, h0] at h
  linarith [h.1, h.2]

/-- **The draw of an index.**  A random number below the greatest one selects the index into whose
part it falls. -/
lemma pickFromDist_eq_iff (hd : ∀ v ∈ dist, 0 ≤ v) (hsum : 0 < dist.sum) (hr : r < randMax) :
    pickFromDist randMax dist r = i ↔ (dist.take i).sum ≤ (r : ℚ) / randMax * dist.sum ∧
      (r : ℚ) / randMax * dist.sum < (dist.take (i + 1)).sum := by
  have hpos : (0 : ℚ) < randMax := by exact_mod_cast Nat.zero_lt_of_lt hr
  have hone : (r : ℚ) / randMax < 1 := (div_lt_one hpos).mpr (by exact_mod_cast hr)
  have hx : 0 ≤ (r : ℚ) / randMax * dist.sum := by positivity
  have hlt : (r : ℚ) / randMax * dist.sum < (dist.take dist.length).sum := by
    rw [take_length]
    exact mul_lt_of_lt_one_left hsum hone
  obtain ⟨k, hk, hpart⟩ := exists_part hx hlt
  -- the search finds an index, and only `k` can be found
  have hfind : ∃ l, (range dist.length).find? (fun i => dist.getD i 0 ≠ 0 ∧
      (dist.take i).sum ≤ (r : ℚ) / randMax * dist.sum ∧
        (r : ℚ) / randMax * dist.sum < (dist.take (i + 1)).sum) = some l := by
    rw [← isSome_iff_exists, find?_isSome]
    exact ⟨k, mem_range.mpr hk, decide_eq_true ⟨(getD_ne_zero_of_part hpart).2, hpart⟩⟩
  obtain ⟨l, hl⟩ := hfind
  have hlpart := find?_some hl
  rw [decide_eq_true_eq] at hlpart
  have hpick : pickFromDist randMax dist r = l := by rw [pickFromDist, hl, getD_some]
  rw [hpick]
  constructor
  · rintro rfl
    exact hlpart.2
  · exact fun hi => part_unique hd hlpart.2 hi

end Pick

/-! ### The law of the draw -/

section Draw

variable {values values₁ values₂ d d₁ d₂ : List ℚ} {uniform uniform₁ uniform₂ : Bool} {c : ℚ}
  {randMax r : ℕ}

lemma sum_map_div (weights : List ℚ) (c : ℚ) :
    (weights.map fun v => v / c).sum = weights.sum / c := by
  induction weights with
  | nil => simp
  | cons w weights ih => rw [map_cons, sum_cons, ih, sum_cons, add_div]

/-- The generated distribution: as many probabilities as values, none of them negative, with the sum
one. -/
lemma generateDistribution_spec (hv : ∀ v ∈ values, 0 ≤ v) (hsum : 0 < values.sum)
    (uniform : Bool) : ∃ d, generateDistribution values uniform = some d ∧
    d.length = values.length ∧ (∀ v ∈ d, 0 ≤ v) ∧ d.sum = 1 := by
  cases uniform with
  | true =>
    refine ⟨_, rfl, length_map _, fun v hv => ?_, ?_⟩
    · obtain ⟨w, -, rfl⟩ := mem_map.mp hv
      positivity
    · have hne : (values.length : ℚ) ≠ 0 := by
        rw [Nat.cast_ne_zero, Ne, length_eq_zero_iff]
        rintro rfl
        exact absurd hsum (lt_irrefl _)
      rw [map_const', sum_replicate, nsmul_eq_mul, mul_one_div_cancel hne]
  | false =>
    refine ⟨values.map fun v => v / values.sum, ?_, length_map _, fun v hv' => ?_, ?_⟩
    · rw [generateDistribution, if_neg Bool.false_ne_true, if_neg hsum.ne']
    · obtain ⟨w, hw, rfl⟩ := mem_map.mp hv'
      exact div_nonneg (hv w hw) hsum.le
    · rw [sum_map_div, div_self hsum.ne']

lemma sum_mix (hlen : d₁.length = d₂.length) (c : ℚ) :
    (d₁.zipWith (fun a b => a * c + b * (1 - c)) d₂).sum = d₁.sum * c + d₂.sum * (1 - c) := by
  induction d₁ generalizing d₂ with
  | nil =>
    rw [eq_nil_of_length_eq_zero hlen.symm]
    simp
  | cons a d₁ ih =>
    cases d₂ with
    | nil => cases hlen
    | cons b d₂ =>
      have hrest := ih (Nat.succ.inj hlen)
      rw [zipWith_cons_cons, sum_cons, sum_cons, sum_cons, hrest]
      ring

/-- The mixture of two distributions: none of its probabilities is negative, and their sum is
one. -/
lemma tuneDistributions_spec (hlen : d₁.length = d₂.length) (h₁ : ∀ v ∈ d₁, 0 ≤ v)
    (h₂ : ∀ v ∈ d₂, 0 ≤ v) (hs₁ : d₁.sum = 1) (hs₂ : d₂.sum = 1) (hc : 0 ≤ c) (hc' : c ≤ 1) :
    (∀ v ∈ tuneDistributions d₁ d₂ c, 0 ≤ v) ∧ (tuneDistributions d₁ d₂ c).sum = 1 := by
  have hmix : (d₁.zipWith (fun a b => a * c + b * (1 - c)) d₂).sum = 1 := by
    rw [sum_mix hlen, hs₁, hs₂]
    ring
  refine ⟨fun v hv => ?_, ?_⟩
  · obtain ⟨w, hw, rfl⟩ := mem_map.mp hv
    obtain ⟨i, hi, rfl⟩ := mem_iff_getElem.mp hw
    rw [getElem_zipWith, hmix, div_one]
    have ha := h₁ _ (getElem_mem (lt_length_left_of_zipWith hi))
    have hb := h₂ _ (getElem_mem (lt_length_right_of_zipWith hi))
    exact add_nonneg (mul_nonneg ha hc) (mul_nonneg hb (sub_nonneg.mpr hc'))
  · unfold tuneDistributions
    dsimp only
    rw [sum_map_div, hmix, div_one]

/-- The law of the draw: the generated distributions and their mixture have the sum one, and the
index that is drawn has a positive probability; it is the only one into whose part the random number
falls. -/
def DrawLaw (values₁ values₂ : List ℚ) (uniform₁ uniform₂ : Bool) (c : ℚ) (randMax r : ℕ) : Prop :=
  ∃ d₁ d₂, generateDistribution values₁ uniform₁ = some d₁ ∧
    generateDistribution values₂ uniform₂ = some d₂ ∧ d₁.sum = 1 ∧ d₂.sum = 1 ∧
    (tuneDistributions d₁ d₂ c).sum = 1 ∧
    0 < (tuneDistributions d₁ d₂ c).getD (pickFromDist randMax (tuneDistributions d₁ d₂ c) r) 0 ∧
    ∀ i, pickFromDist randMax (tuneDistributions d₁ d₂ c) r = i ↔
      ((tuneDistributions d₁ d₂ c).take i).sum ≤
        (r : ℚ) / randMax * (tuneDistributions d₁ d₂ c).sum ∧
        (r : ℚ) / randMax * (tuneDistributions d₁ d₂ c).sum <
          ((tuneDistributions d₁ d₂ c).take (i + 1)).sum

/-- **When the law holds**: the random number is not the greatest one. -/
theorem drawLaw_iff (hlen : values₁.length = values₂.length) (h₁ : ∀ v ∈ values₁, 0 ≤ v)
    (h₂ : ∀ v ∈ values₂, 0 ≤ v) (hs₁ : 0 < values₁.sum) (hs₂ : 0 < values₂.sum) (hc : 0 ≤ c)
    (hc' : c ≤ 1) (hrand : 0 < randMax) (hr : r ≤ randMax) :
    DrawLaw values₁ values₂ uniform₁ uniform₂ c randMax r ↔ r ≠ randMax := by
  obtain ⟨d₁, hd₁, hlen₁, hn₁, hone₁⟩ := generateDistribution_spec h₁ hs₁ uniform₁
  obtain ⟨d₂, hd₂, hlen₂, hn₂, hone₂⟩ := generateDistribution_spec h₂ hs₂ uniform₂
  have hlen' : d₁.length = d₂.length := by rw [hlen₁, hlen₂, hlen]
  obtain ⟨hn, hone⟩ := tuneDistributions_spec hlen' hn₁ hn₂ hone₁ hone₂ hc hc'
  constructor
  · rintro ⟨d₁', d₂', hd₁', hd₂', -, -, hone', -, hlaw⟩ rfl
    obtain rfl := Option.some.inj (hd₁.symm.trans hd₁')
    obtain rfl := Option.some.inj (hd₂.symm.trans hd₂')
    -- the greatest number is the whole sum, which is below no sum of a beginning
    obtain ⟨-, hlt⟩ := (hlaw _).mp rfl
    have hpos : (0 : ℚ) < r := by exact_mod_cast hrand
    rw [div_self hpos.ne', one_mul, hone'] at hlt
    have hle := (take_sublist (pickFromDist r (tuneDistributions d₁ d₂ c) r + 1)
      (tuneDistributions d₁ d₂ c)).sum_le_sum hn
    rw [hone'] at hle
    linarith
  · intro hne
    have hlt : r < randMax := lt_of_le_of_ne hr hne
    have hpick (i : ℕ) := pickFromDist_eq_iff (i := i) hn (by rw [hone]; exact one_pos) hlt
    refine ⟨d₁, d₂, hd₁, hd₂, hone₁, hone₂, hone, ?_, hpick⟩
    obtain ⟨hi, hnz⟩ := getD_ne_zero_of_part ((hpick _).mp rfl)
    refine lt_of_le_of_ne ?_ hnz.symm
    rw [getD_eq_getElem _ _ hi]
    exact hn _ (getElem_mem hi)

/-- A draw from a mixture in which the first index has the probability zero. -/
theorem drawLaw_iff_second : DrawLaw [0, 3] [0, 1] false false (1 / 2) 2147483647 5 :=
  (@drawLaw_iff [0, 3] [0, 1] false false (1 / 2) 2147483647 5 rfl (by decide) (by decide)
    (by decide +kernel)
    (by decide +kernel) (by decide +kernel) (by decide +kernel) (by decide) (by decide)).mpr
      (by decide)

/-- There the greatest random number draws the first index, whose probability is zero. -/
theorem not_drawLaw : ¬ DrawLaw [0, 3] [0, 1] false false (1 / 2) 2147483647 2147483647 := by
  rintro ⟨d₁, d₂, hd₁, hd₂, -, -, -, hpos, -⟩
  have h₁ : generateDistribution [0, 3] false = some [0, 1] := by decide +kernel
  have h₂ : generateDistribution [0, 1] false = some [0, 1] := by decide +kernel
  obtain rfl := Option.some.inj (hd₁.symm.trans h₁)
  obtain rfl := Option.some.inj (hd₂.symm.trans h₂)
  have hzero : (tuneDistributions [0, 1] [0, 1] (1 / 2)).getD
      (pickFromDist 2147483647 (tuneDistributions [0, 1] [0, 1] (1 / 2)) 2147483647) 0 = 0 := by
        decide +kernel
  rw [hzero] at hpos
  exact lt_irrefl _ hpos

end Draw

end Astoria
