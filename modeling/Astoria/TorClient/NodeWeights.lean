import Mathlib.Data.Rat.Floor
import Astoria.TorClient.BandwidthTotals
import Astoria.TorClient.Nodelist

/-!
# The weights of relays

A relay is drawn with a probability that depends on its bandwidth and on the weights in the
consensus.  The bandwidth is the one that the consensus says, or for a bridge the one of its
descriptor, within bounds.  Half a byte is added to each weighted bandwidth, and the sum is scaled
to 61 bits before the weights are rounded.

So each relay of a list can be drawn if the list has at most `2 ^ 30` of them (`canChoose_iff`).
-/

namespace Astoria.NodeWeights

open List

/-! ### Bandwidths -/

/-- What the consensus says of a relay (`routerstatus_t`).  Only guards have guardfractions, and
these are percentages. -/
structure StatusBandwidth where
  bandwidthKb : Option UInt32
  guardfractionPercentage : Option UInt32
  isPossibleGuard : Bool
  dirPort : UInt16
  guardfraction_le : ∀ p ∈ guardfractionPercentage, p ≤ 100
  guardfraction_guard : guardfractionPercentage.isSome → isPossibleGuard = true

/-- What the descriptor of a relay says (`routerinfo_t`). -/
structure DescriptorBandwidth where
  bandwidthcapacity : UInt32
  bandwidthrate : UInt32
  dirPort : UInt16

/-- What is known of a relay, besides its flags. -/
structure RelayBandwidth where
  rs : Option StatusBandwidth
  ri : Option DescriptorBandwidth
  isExit : Bool

/-- The weights of a consensus: their scale, and all of them by their names, if there are any. -/
structure ConsensusWeights where
  bwweightscale : Option ℤ
  weightParams : Option (String → Option ℤ)

/-- Bytes of so many kilobytes, without overflow (`kb_to_bytes`). -/
def kbToBytes (bw : UInt32) : ℕ := if (2 ^ 31 - 1) / 1000 < bw.toNat then 2 ^ 31 - 1
    else bw.toNat * 1000

/-- The bandwidth of a bridge, within bounds (`bridge_get_advertised_bandwidth_bounded`). -/
def bridgeGetAdvertisedBandwidthBounded (ri : DescriptorBandwidth) : ℕ :=
  let result := ri.bandwidthcapacity.toNat
  let result := if ri.bandwidthrate.toNat < result then ri.bandwidthrate.toNat else result
  if 100000 < result then 100000 else if result < 20000 then 20000 else result

/-- The bandwidth of a relay (`this_bw`), if something is known of it. -/
def RelayBandwidth.thisBw (relay : RelayBandwidth) : Option ℕ :=
  match relay.rs, relay.ri with
  | some rs, _ =>
    match rs.bandwidthKb with
    | none => some 30000
    | some kb => some (kbToBytes kb)
  | none, some ri => some (bridgeGetAdvertisedBandwidthBounded ri)
  | none, none => none

/-- A relay is a directory (`node_is_dir`). -/
def RelayBandwidth.isDir (relay : RelayBandwidth) : Bool :=
  match relay.rs, relay.ri with
  | some rs, _ => rs.dirPort ≠ 0
  | none, some ri => ri.dirPort ≠ 0
  | none, none => false

/-! ### Weights -/

/-- The scale of the weights (`networkstatus_get_weight_scale_param`). -/
def ConsensusWeights.weightScale (c : ConsensusWeights) : ℤ :=
  networkstatusGetParam c.bwweightscale 10000 1 (2 ^ 31 - 1)

/-- A weight by its name, at most the scale (`networkstatus_get_bw_weight`). -/
def ConsensusWeights.getBwWeight (c : ConsensusWeights) (weightName : String) (defaultVal : ℤ) :
    ℤ :=
  match c.weightParams with
  | none => defaultVal
  | some params =>
    let param := networkstatusGetParam (params weightName) defaultVal (-1) (2 ^ 31 - 1)
    if c.weightScale < param then c.weightScale else param

/-- The weights for a rule: for guards, others, exits and guards that are exits, and the same for
directories. -/
structure RuleWeights where
  wg : ℚ
  wm : ℚ
  we : ℚ
  wd : ℚ
  wgb : ℚ
  wmb : ℚ
  web : ℚ
  wdb : ℚ

/-- The weights of the consensus for a rule, before they are scaled. -/
def ConsensusWeights.rawWeights (c : ConsensusWeights) (rule : WeightRule) : List ℤ :=
  (match rule with
  | .guard => [c.getBwWeight "Wgg" (-1), c.getBwWeight "Wgm" (-1), 0, c.getBwWeight "Wgd" (-1)]
  | .mid =>
    [c.getBwWeight "Wmg" (-1), c.getBwWeight "Wmm" (-1), c.getBwWeight "Wme" (-1),
      c.getBwWeight "Wmd" (-1)]
  | .exit =>
    [c.getBwWeight "Weg" (-1), c.getBwWeight "Wem" (-1), c.getBwWeight "Wee" (-1),
      c.getBwWeight "Wed" (-1)]) ++
  [c.getBwWeight "Wgb" (-1), c.getBwWeight "Wmb" (-1), c.getBwWeight "Web" (-1),
    c.getBwWeight "Wdb" (-1)]

/-- The weights for a rule.  If one is missing, all are the same. -/
def ConsensusWeights.ruleWeights (c : ConsensusWeights) (rule : WeightRule) : RuleWeights :=
  let raw := c.rawWeights rule
  let raw := if raw.any (· < 0) then raw.map fun _ => c.weightScale else raw
  let w (i : ℕ) : ℚ := raw.getD i 0 / c.weightScale
  ⟨w 0, w 1, w 2, w 3, w 4, w 5, w 6, w 7⟩

/-- The weight of a relay, and the one that it would have without the flag of a guard, which is used
for guards only. -/
def RuleWeights.ofFlags (w : RuleWeights) (isGuard isExit isDir : Bool) : ℚ × ℚ :=
  if isGuard && isExit then
    (if isDir then w.wdb * w.wd else w.wd, if isDir then w.web * w.we else w.we)
  else if isGuard then (if isDir then w.wgb * w.wg else w.wg, if isDir then w.wmb * w.wm else w.wm)
  else if isExit then (if isDir then w.web * w.we else w.we, 0)
  else (if isDir then w.wmb * w.wm else w.wm, 0)

/-- The weighted bandwidth of a relay.  It is zero if nothing is known of it. -/
def weightedBandwidth (c : ConsensusWeights) (rule : WeightRule) (node : Node)
    (relay : RelayBandwidth) : ℚ :=
  match relay.thisBw with
  | none => 0
  | some thisBw =>
    let isExit := relay.isExit && !node.isBadExit
    let (weight, weightWithoutGuardFlag) :=
      (c.ruleWeights rule).ofFlags node.isPossibleGuard isExit relay.isDir
    let finalWeight : ℚ :=
      match relay.rs.bind (·.guardfractionPercentage), rule with
      | none, _ | _, .guard => weight * thisBw
      | some percentage, _ =>
        match guardGetGuardfractionBandwidth thisBw percentage with
        | none => weight * thisBw
        | some (guardBw, nonGuardBw) => guardBw * weight + nonGuardBw * weightWithoutGuardFlag
    finalWeight + 1 / 2

/-- A weight that is scaled and rounded, if the sum of all is `total`
(`scale_array_elements_to_u64`).  The greatest number that is used, `INT64_MAX / 4`, is rounded up
as well. -/
def scaleToU64 (total entry : ℚ) : ℕ := if 0 < total then ⌊entry * (2 ^ 61 / total) + 1 / 2⌋₊ else 0

/-! ### Bounds -/

section Bounds

/-- A weight is between zero and one. -/
def IsWeight (x : ℚ) : Prop := 0 ≤ x ∧ x ≤ 1

lemma IsWeight.mul {x y : ℚ} (hx : IsWeight x) (hy : IsWeight y) : IsWeight (x * y) :=
  ⟨mul_nonneg hx.1 hy.1, mul_le_one₀ hx.2 hy.1 hy.2⟩

lemma IsWeight.ite_mul {x y : ℚ} (hx : IsWeight x) (hy : IsWeight y) (b : Bool) :
    IsWeight (if b then x * y else y) := by
  cases b with
  | false => exact hy
  | true => exact hx.mul hy

variable (c : ConsensusWeights) (rule : WeightRule)

lemma weightScale_pos : 0 < c.weightScale := by
  have h := (networkstatusGetParam_mem c.bwweightscale 10000 (show (1 : ℤ) ≤ 2 ^ 31 - 1 by omega)).1
  unfold ConsensusWeights.weightScale
  omega

/-- A weight of the consensus is at most the scale. -/
lemma getBwWeight_le (weightName : String) : c.getBwWeight weightName (-1) ≤ c.weightScale := by
  have hpos := weightScale_pos c
  unfold ConsensusWeights.getBwWeight
  cases c.weightParams with
  | none =>
    dsimp only
    omega
  | some params =>
    dsimp only
    split_ifs with h
    · exact le_refl _
    · exact not_lt.mp h

lemma rawWeights_le : ∀ x ∈ c.rawWeights rule, x ≤ c.weightScale := by
  have hpos := weightScale_pos c
  have h := getBwWeight_le c
  intro x hx
  unfold ConsensusWeights.rawWeights at hx
  cases rule <;> simp only [cons_append, nil_append, mem_cons, not_mem_nil, or_false] at hx <;>
    rcases hx with rfl | rfl | rfl | rfl | rfl | rfl | rfl | rfl <;>
      first | exact h _ | exact hpos.le

lemma isWeight_div {x : ℤ} (h : 0 ≤ x ∧ x ≤ c.weightScale) : IsWeight (x / c.weightScale : ℚ) := by
  have hpos : (0 : ℚ) < c.weightScale := by exact_mod_cast weightScale_pos c
  constructor
  · exact div_nonneg (by exact_mod_cast h.1) hpos.le
  · rw [div_le_one hpos]
    exact_mod_cast h.2

lemma isWeight_getD (i : ℕ) : IsWeight
    (((if (c.rawWeights rule).any (· < 0) then (c.rawWeights rule).map fun _ => c.weightScale
      else c.rawWeights rule).getD i 0 : ℤ) / c.weightScale) := by
  apply isWeight_div
  have hpos := weightScale_pos c
  generalize hraw :
    (if (c.rawWeights rule).any (· < 0) then (c.rawWeights rule).map fun _ => c.weightScale
    else c.rawWeights rule) = raw
  have hall : ∀ x ∈ raw, 0 ≤ x ∧ x ≤ c.weightScale := by
    subst hraw
    intro x hx
    split_ifs at hx with hany
    · obtain ⟨y, -, rfl⟩ := List.mem_map.mp hx
      exact ⟨hpos.le, le_refl _⟩
    · refine ⟨?_, rawWeights_le c rule x hx⟩
      by_contra hneg
      exact hany (List.any_eq_true.mpr ⟨x, hx, decide_eq_true (not_le.mp hneg)⟩)
  rw [getD_eq_getElem?_getD]
  cases hx : raw[i]? with
  | none => exact ⟨le_refl _, hpos.le⟩
  | some x => exact hall x (mem_of_getElem? hx)

/-- The weight of a relay is one, and so is the one without the flag of a guard. -/
lemma isWeight_ofFlags (isGuard isExit isDir : Bool) :
    IsWeight ((c.ruleWeights rule).ofFlags isGuard isExit isDir).1 ∧
      IsWeight ((c.ruleWeights rule).ofFlags isGuard isExit isDir).2 := by
  have hw := isWeight_getD c rule
  have hzero : IsWeight 0 := ⟨le_refl _, zero_le_one⟩
  unfold RuleWeights.ofFlags
  cases isGuard <;> cases isExit
  · exact ⟨(hw 5).ite_mul (hw 1) isDir, hzero⟩
  · exact ⟨(hw 6).ite_mul (hw 2) isDir, hzero⟩
  · exact ⟨(hw 4).ite_mul (hw 0) isDir, (hw 5).ite_mul (hw 1) isDir⟩
  · exact ⟨(hw 7).ite_mul (hw 3) isDir, (hw 6).ite_mul (hw 2) isDir⟩

/-- The bandwidth of a relay is a positive number of 32 bits, with its sign. -/
lemma thisBw_lt {relay : RelayBandwidth} {thisBw : ℕ} (h : relay.thisBw = some thisBw) :
    thisBw < 2 ^ 31 := by
  have hkb (kb : UInt32) : kbToBytes kb < 2 ^ 31 := by
    unfold kbToBytes
    split_ifs <;> omega
  have hbridge (ri : DescriptorBandwidth) : bridgeGetAdvertisedBandwidthBounded ri < 2 ^ 31 := by
    unfold bridgeGetAdvertisedBandwidthBounded
    dsimp only
    split_ifs <;> omega
  unfold RelayBandwidth.thisBw at h
  split at h
  · split at h
    · obtain rfl := Option.some.inj h
      norm_num
    · obtain rfl := Option.some.inj h
      exact hkb _
  · obtain rfl := Option.some.inj h
    exact hbridge _
  · exact absurd h nofun

lemma weighted_parts {x y : ℚ} (hx : IsWeight x) (hy : IsWeight y) {a b : ℚ} (ha : 0 ≤ a)
    (hab : a ≤ b) : 0 ≤ a * x + (b - a) * y ∧ a * x + (b - a) * y ≤ b := by
  have hrest : 0 ≤ b - a := sub_nonneg.mpr hab
  have h₁ := mul_nonneg ha hx.1
  have h₂ := mul_nonneg hrest hy.1
  have h₃ := mul_le_of_le_one_right ha hx.2
  have h₄ := mul_le_of_le_one_right hrest hy.2
  constructor <;> linarith

/-- The weighted bandwidth of a relay of which something is known: half a byte at least. -/
lemma weightedBandwidth_mem (node : Node) {relay : RelayBandwidth}
    (h : relay.rs.isSome ∨ relay.ri.isSome) : 1 / 2 ≤ weightedBandwidth c rule node relay ∧
    weightedBandwidth c rule node relay ≤ 2 ^ 31 := by
  obtain ⟨thisBw, hbw⟩ : ∃ thisBw, relay.thisBw = some thisBw := by
    unfold RelayBandwidth.thisBw
    cases hrs : relay.rs with
    | some rs =>
      dsimp only
      cases rs.bandwidthKb with
      | none => exact ⟨_, rfl⟩
      | some kb => exact ⟨_, rfl⟩
    | none =>
      cases hri : relay.ri with
      | some ri => exact ⟨_, rfl⟩
      | none => simp [hrs, hri] at h
  have hlt : (thisBw : ℚ) + 1 ≤ 2 ^ 31 := by exact_mod_cast thisBw_lt hbw
  have hnonneg : (0 : ℚ) ≤ thisBw := Nat.cast_nonneg _
  unfold weightedBandwidth
  rw [hbw]
  dsimp only
  obtain ⟨hx, hy⟩ :=
    isWeight_ofFlags c rule node.isPossibleGuard (relay.isExit && !node.isBadExit) relay.isDir
  generalize (c.ruleWeights rule).ofFlags node.isPossibleGuard (relay.isExit && !node.isBadExit)
    relay.isDir = w at hx hy ⊢
  have hwhole : 0 ≤ w.1 * thisBw ∧ w.1 * thisBw ≤ thisBw :=
    ⟨mul_nonneg hx.1 hnonneg, mul_le_of_le_one_left hnonneg hx.2⟩
  cases hpercentage : relay.rs.bind (·.guardfractionPercentage) with
  | none => constructor <;> dsimp only <;> linarith
  | some percentage =>
    have hp : percentage ≤ 100 := by
      obtain ⟨rs, hrs, hsome⟩ := Option.bind_eq_some_iff.mp hpercentage
      exact rs.guardfraction_le percentage hsome
    have hthis := thisBw_lt hbw
    obtain ⟨h₁, h₂⟩ := percentOf_le (n := thisBw) (UInt32.le_iff_toNat_le.mp hp) (by omega)
    have hsplit : guardGetGuardfractionBandwidth thisBw percentage =
        some (percentOf percentage.toNat thisBw, thisBw - percentOf percentage.toNat thisBw) := by
      rw [guardGetGuardfractionBandwidth, if_pos hp]
      exact if_pos (by omega)
    have hparts := weighted_parts hx hy (a := (percentOf percentage.toNat thisBw : ℤ)) (b := thisBw)
      (by exact_mod_cast h₁) (by exact_mod_cast h₂)
    have hsplit' : ((thisBw - percentOf percentage.toNat thisBw : ℤ) : ℚ) =
        thisBw - (percentOf percentage.toNat thisBw : ℤ) := by push_cast; rfl
    cases rule with
    | guard => constructor <;> dsimp only <;> linarith
    | mid =>
      dsimp only
      rw [hsplit]
      dsimp only
      rw [hsplit']
      constructor <;> linarith [hparts.1, hparts.2]
    | exit =>
      dsimp only
      rw [hsplit]
      dsimp only
      rw [hsplit']
      constructor <;> linarith [hparts.1, hparts.2]

end Bounds

/-! ### Draws -/

section Draws

/-- What the client knows about the network, with the bandwidths of all relays.  Relays of which
nothing is known are not kept (`node_is_usable`). -/
structure Network extends Directory where
  consensus : ConsensusWeights
  relay : Node → RelayBandwidth
  usable : ∀ node ∈ nodes, (relay node).rs.isSome ∨ (relay node).ri.isSome
  /-- The weights are scaled together (`compute_weighted_bandwidths`). -/
  scaled : scaledBandwidth = fun rule sl node =>
    scaleToU64 (sl.map fun node => weightedBandwidth consensus rule node (relay node)).sum
      (weightedBandwidth consensus rule node (relay node))

variable (net : Network) (rule : WeightRule) {sl : List Node}

/-- The sum of the weighted bandwidths of a list. -/
def Network.totalWeight (rule : WeightRule) (sl : List Node) : ℚ :=
  (sl.map fun node => weightedBandwidth net.consensus rule node (net.relay node)).sum

/-- The sum of the weighted bandwidths of a list that is not empty. -/
lemma totalWeight_mem (hsl : ∀ node ∈ sl, node ∈ net.nodes) (hne : sl ≠ []) :
    0 < net.totalWeight rule sl ∧ net.totalWeight rule sl ≤ sl.length * 2 ^ 31 := by
  have hmem : ∀ w ∈ sl.map fun node => weightedBandwidth net.consensus rule node (net.relay node),
      1 / 2 ≤ w ∧ w ≤ 2 ^ 31 := by
    rw [List.forall_mem_map]
    intro node hnode
    exact weightedBandwidth_mem net.consensus rule node (net.usable node (hsl node hnode))
  constructor
  · apply sum_pos
    · intro w hw
      linarith [(hmem w hw).1]
    · simpa using hne
  · have h := sum_le_card_nsmul _ (2 ^ 31 : ℚ) fun w hw => (hmem w hw).2
    rw [length_map, nsmul_eq_mul] at h
    exact h

lemma scaleToU64_pos {total entry : ℚ} (hpos : 0 < total) (hle : total ≤ 2 ^ 61)
    (hentry : 1 / 2 ≤ entry) : 0 < scaleToU64 total entry := by
  unfold scaleToU64
  rw [if_pos hpos, Nat.floor_pos]
  have hfactor : 1 ≤ 2 ^ 61 / total := (one_le_div hpos).mpr hle
  have hmul : 1 / 2 * 1 ≤ entry * (2 ^ 61 / total) :=
    mul_le_mul hentry hfactor zero_le_one (le_trans (by norm_num) hentry)
  linarith

/-- **Each relay of a list can be drawn**, if the list is not too long. -/
theorem canChoose_iff (hsl : ∀ node ∈ sl, node ∈ net.nodes) (hlen : sl.length ≤ 2 ^ 30)
    {node : Node} : (∃ rand, net.nodeSlChooseByBandwidth rule sl rand = some node) ↔ node ∈ sl := by
  rw [Directory.exists_nodeSlChooseByBandwidth_iff]
  constructor
  · exact fun h => h.1
  · intro hmem
    refine ⟨hmem, .inl ?_⟩
    obtain ⟨hpos, hle⟩ := totalWeight_mem net rule hsl (ne_nil_of_mem hmem)
    have hlen' : (sl.length : ℚ) ≤ 2 ^ 30 := by exact_mod_cast hlen
    rw [net.scaled]
    apply scaleToU64_pos hpos
    · calc net.totalWeight rule sl ≤ sl.length * 2 ^ 31 := hle
        _ ≤ 2 ^ 30 * 2 ^ 31 := mul_le_mul_of_nonneg_right hlen' (by norm_num)
        _ = 2 ^ 61 := by norm_num
    · exact (weightedBandwidth_mem net.consensus rule node (net.usable node (hsl node hmem))).1

lemma mem_of_nodeSlChooseByBandwidth {rule : WeightRule} {rand : ℕ} {node : Node}
    (h : net.nodeSlChooseByBandwidth rule sl rand = some node) : node ∈ sl :=
  (Directory.exists_nodeSlChooseByBandwidth_iff.mp ⟨rand, h⟩).1

end Draws

end Astoria.NodeWeights
