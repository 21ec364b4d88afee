import Astoria.BgpSim.Simulation

/-!
# The weights of the ASes

The initial state of the deployment process turns the stubs and the early adopters on and gives
every AS a weight.  With a constant `K`, the listed ASes get the number of the other ASes as their
weight and the others `K` times the number of the listed ones, cut to 16 bits; for `K = 0` the
listed ASes have weight one and the others none.

Together with `ExactUtility` this says when the numbers of a simulation are the exact ones: the
weights if they fit in 16 bits, and the utilities of a destination if they are below `2 ^ 31`.
-/

namespace Astoria

open Option
open RelationshipType

/-- The nodes without customers. -/
def NetworkGraph.getStubs (g : NetworkGraph) : List Asn :=
  g.asNodes.filter fun n => (g.neighbors n providerTo).isEmpty

/-- The ASes that are on at the beginning: the stubs, except for the five big ones, and the early
adopters. -/
def initiallyOn (g : NetworkGraph) (earlyAdopters : List Asn) : List Asn :=
  g.getStubs.filter (· ∉ big5List) ++ earlyAdopters

/-- The initial state without weights.  AS numbers outside of the arrays throw. -/
def initGSHelper (g : NetworkGraph) (earlyAdopters : List Asn) : Option GlobalState :=
  if ∀ n ∈ initiallyOn g earlyAdopters, n < numASNs then
    some ⟨fun n => decide (n ∈ initiallyOn g earlyAdopters), fun _ => 0, g.getNonStubs⟩
  else none

/-- The initial state in which the listed ASes have weight one and the others none. -/
def initGlobalStateOne (g : NetworkGraph) (earlyAdopters weightedOne : List Asn) :
    Option GlobalState :=
  (initGSHelper g earlyAdopters).bind fun gs =>
    if ∀ n ∈ weightedOne, n < numASNs then
      some { gs with W := fun n => if n ∈ weightedOne then 1 else 0 }
    else none

/-- The initial state with weights by the number of the listed ASes and `K`. -/
def initGlobalState (g : NetworkGraph) (earlyAdopters weightedNodes : List Asn) (K : ℤ) :
    Option GlobalState :=
  if K = 0 then initGlobalStateOne g earlyAdopters weightedNodes
  else (initGSHelper g earlyAdopters).bind fun gs =>
    let topXWeight := UInt16.ofInt (g.asNodes.length - weightedNodes.length)
    let everyoneElseWeight := UInt16.ofInt (K * weightedNodes.length)
    if ∀ n ∈ g.asNodes, n < numASNs then
      some { gs with W := fun n =>
        if n ∈ g.asNodes then if n ∈ weightedNodes then topXWeight else everyoneElseWeight else 0 }
    else none

lemma toNat_ofInt {x : ℤ} (h₀ : 0 ≤ x) (h : x < 2 ^ 16) : ((UInt16.ofInt x).toNat : ℤ) = x := by
  rw [UInt16.ofInt, UInt16.toNat_ofNat']
  omega

/-- The weights without cuts: the number of the other ASes, and `K` times the number of the listed
ones. -/
def AssignsWeights (g : NetworkGraph) (earlyAdopters weightedNodes : List Asn) (K : ℤ) : Prop :=
  ∀ gs, initGlobalState g earlyAdopters weightedNodes K = some gs → ∀ n ∈ g.asNodes,
    ((gs.W n).toNat : ℤ) =
      if n ∈ weightedNodes then (g.asNodes.length : ℤ) - weightedNodes.length
      else K * weightedNodes.length

section Initial

variable {g : NetworkGraph} {earlyAdopters weightedNodes : List Asn} {K : ℤ} {gs : GlobalState}
  {n : Asn}

lemma W_of_K_eq_zero (h : initGlobalState g earlyAdopters weightedNodes 0 = some gs) :
    gs.W n = if n ∈ weightedNodes then 1 else 0 := by
  rw [initGlobalState, if_pos rfl] at h
  obtain ⟨gs₀, -, h⟩ := bind_eq_some_iff.mp h
  split_ifs at h
  rw [← Option.some.inj h]

/-- The weights for the other `K`. -/
lemma W_of_K_ne_zero (hK : K ≠ 0) (h : initGlobalState g earlyAdopters weightedNodes K = some gs)
    (hn : n ∈ g.asNodes) :
    gs.W n = UInt16.ofInt (if n ∈ weightedNodes then (g.asNodes.length : ℤ) - weightedNodes.length
      else K * weightedNodes.length) := by
  rw [initGlobalState, if_neg hK] at h
  obtain ⟨gs₀, -, h⟩ := bind_eq_some_iff.mp h
  dsimp only at h
  split_ifs at h
  rw [← Option.some.inj h]
  dsimp only
  rw [if_pos hn]
  split_ifs
  · rfl
  · rfl

end Initial

/-- **The numbers of a simulation.**  For `K = 0` the listed ASes have weight one and the others
none; otherwise the weights are those without cuts, where these fit in 16 bits.  The utilities of
`ComputeU` and of the workers are exact where the exact values are below `2 ^ 31`. -/
theorem initGlobalState_exact (g : NetworkGraph) (earlyAdopters weightedNodes : List Asn) (K : ℤ)
    (gs : GlobalState) (h : initGlobalState g earlyAdopters weightedNodes K = some gs) :
    (K = 0 → ∀ n, (gs.W n).toNat = if n ∈ weightedNodes then 1 else 0) ∧
    (K ≠ 0 → 0 ≤ (g.asNodes.length : ℤ) - weightedNodes.length →
      (g.asNodes.length : ℤ) - weightedNodes.length < 2 ^ 16 →
      ∀ n ∈ g.asNodes, n ∈ weightedNodes →
        ((gs.W n).toNat : ℤ) = g.asNodes.length - weightedNodes.length) ∧
    (K ≠ 0 → 0 ≤ K * weightedNodes.length → K * weightedNodes.length < 2 ^ 16 →
      ∀ n ∈ g.asNodes, n ∉ weightedNodes →
        ((gs.W n).toNat : ℤ) = K * weightedNodes.length) ∧
    (∀ f D n, exactU f gs.W D n < 2 ^ 31 → (computeU f gs.W D).U n = exactU f gs.W D n) ∧
    (∀ f T chosenParent secP S n L bestRelation r,
      computeUtility f T chosenParent secP S n L bestRelation gs.W = some r →
      ∃ u, exactWorkerUtility f T chosenParent secP S n L bestRelation gs.W = some u ∧
        (u < 2 ^ 31 → r.utility.toInt = u)) := by
  refine ⟨?_, fun hK h₀ hlt n hn hmem => ?_, fun hK h₀ hlt n hn hmem => ?_,
    fun f D n => computeU_eq_exactU, fun f T chosenParent secP S n L bestRelation r =>
      computeUtility_eq_exact⟩
  · rintro rfl n
    rw [W_of_K_eq_zero h]
    split_ifs
    · rfl
    · rfl
  · rw [W_of_K_ne_zero hK h hn, if_pos hmem]
    exact toNat_ofInt h₀ hlt
  · rw [W_of_K_ne_zero hK h hn, if_neg hmem]
    exact toNat_ofInt h₀ hlt

/-- A provider with two customers. -/
def threeNodes : NetworkGraph := processCyclopsFile ["1\t2\tp2c".toList, "1\t3\tp2c".toList]

/-- The weights if the provider is listed and `K` is one. -/
theorem initGlobalState_exact_threeNodes :
    ∃ gs, initGlobalState threeNodes [] [1] 1 = some gs ∧ ((gs.W 1).toNat : ℤ) = 2 ∧
      ((gs.W 2).toNat : ℤ) = 1 := by
  have hsome : (initGlobalState threeNodes [] [1] 1).isSome = true := by decide +kernel
  have hnodes : threeNodes.asNodes = [1, 2, 3] := by decide +kernel
  obtain ⟨gs, hgs⟩ := isSome_iff_exists.mp hsome
  obtain ⟨-, hlisted, hothers, -⟩ := initGlobalState_exact threeNodes [] [1] 1 gs hgs
  rw [hnodes] at hlisted hothers
  exact ⟨gs, hgs, hlisted (by decide) (by decide) (by decide) 1 (by decide) (by decide),
    hothers (by decide) (by decide) (by decide) 2 (by decide) (by decide)⟩

/-- For `K = 0`, a listed AS among three has weight one, not two. -/
theorem not_assignsWeights_threeNodes : ¬ AssignsWeights threeNodes [] [1] 0 := by
  intro h
  have hsome : (initGlobalState threeNodes [] [1] 0).isSome = true := by decide +kernel
  have hnodes : threeNodes.asNodes = [1, 2, 3] := by decide +kernel
  obtain ⟨gs, hgs⟩ := isSome_iff_exists.mp hsome
  have hweight := h gs hgs 1 (by rw [hnodes]; decide)
  rw [W_of_K_eq_zero hgs, hnodes] at hweight
  exact absurd hweight (by decide)

end Astoria
