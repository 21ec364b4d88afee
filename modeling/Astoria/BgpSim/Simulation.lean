import Astoria.BgpSim.ExactUtility
import Astoria.BgpSim.GraphConstruction
import Mathlib.Algebra.Order.BigOperators.Group.List

/-!
# The deployment process

A round of the simulation computes, for every destination, the utilities of all ASes under the
current deployment vector `S` and, for the ASes that could gain a secure path, what their utilities
would be if they changed their minds (`computeOnDestination`).  The sums over the destinations
decide who changes (`updateGlobalState`): an AS flips, in either direction, if its utility would
grow by more than a given fraction.

With `justProgress`, changed utilities are computed only for ASes that are off.  An AS that is on is
compared with its own current utility, or with zero if it is a stub, so it never flips as long as
the arithmetic is exact: `deployment_grows`.
-/

namespace Astoria

open List Option
open RelationshipType
open Function

/-! ### States and messages -/

/-- The static switches of the deployment process. -/
structure SimulationParams extends Params where
  justProgress : Bool := true
  /-- Whether weights also depend on the length of the route to the destination. -/
  useMiniDWeight : Bool := false
  utilityComputation : UtilityComputationType := .basic

/-- The state of the deployment process. -/
structure GlobalState where
  /-- The deployment vector. -/
  S : Asn → Bool
  /-- The weights of the ASes. -/
  W : Asn → UInt16
  /-- The ASes that are providers. -/
  nonStubs : List Asn

/-- What is computed for one destination. -/
structure Message where
  /-- The utilities under the current deployment vector. -/
  UBefore : Asn → ℤ
  /-- The utilities after a change of the state of the AS alone. -/
  UAfter : Asn → ℤ

/-! ### One destination -/

/-- The weights for a destination.  Products are cut to 16 bits. -/
def wToUse (Q : SimulationParams) (m : MiniDestination) (gs : GlobalState) (i : Asn) : UInt16 :=
  if Q.useMiniDWeight then UInt16.ofNat ((gs.W i).toNat * m.W i) else gs.W i

/-- Whether some parent of a node has a secure path. -/
def hasSecPThroughParent (D : Destination) (node : Asn) : Bool :=
  match D.best node with
  | none => false
  | some parents => parents.any D.secP

/-- The state of the loop over the ASes that are not stubs. -/
structure NonStubLoop where
  /-- The destination, whose arrays the workers are given. -/
  D : Destination
  /-- The copy of the deployment vector that the workers are given. -/
  copyOfS : Asn → Bool
  /-- The changed utilities. -/
  UAfter : Asn → ℤ

/-- The changed utility of one AS: computed by a worker if the AS could gain or lose by security,
otherwise the current one. -/
def computeNonStub (Q : SimulationParams) (W : Asn → UInt16) (gs : GlobalState) (UBefore : Asn → ℤ)
    (s : NonStubLoop) (asn : Asn) : Option NonStubLoop :=
  if numASNs ≤ asn then none
  else if hasSecPThroughParent s.D asn && (!Q.justProgress || (Q.justProgress && !gs.S asn)) then
    (computeUtility Q.utilityComputation s.D.toRouteTables s.D.chosenParent s.D.secP s.copyOfS asn
      (s.D.L asn) (s.D.bestRelation asn) W).map fun r =>
        { D := { s.D with chosenParent := r.chosenParent, secP := r.secP }
          copyOfS := r.S
          UAfter := update s.UAfter asn r.utility.toInt }
  else some { s with UAfter := update s.UAfter asn (UBefore asn) }

/-- Compute the utilities for one destination.  If the destination is off, nothing can change. -/
def computeOnDestination (Q : SimulationParams) (m : MiniDestination) (gs : GlobalState) :
    Option Message := do
  let D₀ ← updatePaths Q.toParams gs.S (Destination.ofMiniDestination m)
  let D := computeU Q.utilityComputation (wToUse Q m gs) D₀
  if !gs.S D.destination then return ⟨D.U, D.U⟩
  else
    let s ← gs.nonStubs.foldlM (computeNonStub Q (wToUse Q m gs) gs D.U) ⟨D, gs.S, fun _ => 0⟩
    return ⟨D.U, s.UAfter⟩

/-! ### Rounds -/

/-- The current utility of an AS over all destinations. -/
def sumBefore (results : List Message) (asn : Asn) : ℤ := (results.map fun r => r.UBefore asn).sum

/-- The changed utility of an AS over all destinations. -/
def sumAfter (results : List Message) (asn : Asn) : ℤ := (results.map fun r => r.UAfter asn).sum

/-- Flip the ASes whose utility would grow by more than the given fraction.  Without results,
nothing happens. -/
def updateGlobalState (gs : GlobalState) (results : List Message) (percent : ℚ) : GlobalState :=
  if results = [] then gs
  else
    { gs with
      S := fun asn =>
        if asn < numASNs ∧ (sumBefore results asn : ℚ) * (1 + percent) < (sumAfter results asn : ℚ)
        then !(gs.S asn)
        else gs.S asn }

/-- One round: all destinations under the current state, then the update of the state. -/
def simulationRound (Q : SimulationParams) (dests : List MiniDestination) (percent : ℚ)
    (gs : GlobalState) : Option GlobalState :=
  (dests.mapM fun m => computeOnDestination Q m gs).map fun results =>
    updateGlobalState gs results percent

def simulationRounds (Q : SimulationParams) (dests : List MiniDestination) (percent : ℚ) :
    ℕ → GlobalState → Option GlobalState
  | 0, gs => some gs
  | k + 1, gs => (simulationRounds Q dests percent k gs).bind (simulationRound Q dests percent)

/-! ### Only progress -/

/-- In a round from the given state, the current utilities are those of exact arithmetic. -/
def ExactRound (Q : SimulationParams) (dests : List MiniDestination) (gs : GlobalState) : Prop :=
  ∀ m ∈ dests, ∀ D, updatePaths Q.toParams gs.S (Destination.ofMiniDestination m) = some D →
    ∀ n, (computeU Q.utilityComputation (wToUse Q m gs) D).U n =
      exactU Q.utilityComputation (wToUse Q m gs) D n

section Progress

variable {Q : SimulationParams} {dests : List MiniDestination} {percent : ℚ} {gs gs' : GlobalState}
  {m : MiniDestination} {n : Asn}

/-- With `justProgress`, the loop leaves an AS that is on at zero or at its current utility. -/
lemma UAfter_of_on (hQ : Q.justProgress = true) (hn : gs.S n = true) {W : Asn → UInt16}
    {UBefore : Asn → ℤ} {l : List Asn} {s s' : NonStubLoop}
    (hs : s.UAfter n = 0 ∨ s.UAfter n = UBefore n)
    (h : l.foldlM (computeNonStub Q W gs UBefore) s = some s') :
    s'.UAfter n = 0 ∨ s'.UAfter n = UBefore n := by
  induction l generalizing s with
  | nil =>
    obtain rfl := some.inj h
    exact hs
  | cons asn l ih =>
    rw [foldlM_cons] at h
    obtain ⟨s₁, hs₁, h⟩ := bind_eq_some_iff.mp h
    refine ih ?_ h
    unfold computeNonStub at hs₁
    split_ifs at hs₁ with hrange hworker
    · obtain ⟨r, -, rfl⟩ := map_eq_some_iff.mp hs₁
      have hne : n ≠ asn := by
        rintro rfl
        simp [hQ, hn] at hworker
      dsimp only
      rw [update_of_ne hne]
      exact hs
    · obtain rfl := some.inj hs₁
      dsimp only
      by_cases hne : n = asn
      · subst hne
        rw [update_self]
        exact .inr rfl
      · rw [update_of_ne hne]
        exact hs

/-- For an AS that is on, no destination promises more than the current utility. -/
lemma UAfter_le_of_on (hQ : Q.justProgress = true) (hexact : ExactRound Q dests gs) (hm : m ∈ dests)
    {r : Message} (h : computeOnDestination Q m gs = some r) (hn : gs.S n = true) :
    0 ≤ r.UBefore n ∧ r.UAfter n ≤ r.UBefore n := by
  obtain ⟨D, hD, h⟩ := bind_eq_some_iff.mp h
  have hnonneg : 0 ≤ (computeU Q.utilityComputation (wToUse Q m gs) D).U n := by
    rw [hexact m hm D hD n]
    exact Int.natCast_nonneg _
  dsimp only at h
  split_ifs at h with hoff
  · obtain rfl := some.inj h
    exact ⟨hnonneg, le_refl _⟩
  · obtain ⟨s, hs, h⟩ := bind_eq_some_iff.mp h
    obtain rfl := some.inj h
    refine ⟨hnonneg, ?_⟩
    rcases UAfter_of_on hQ hn (.inl rfl) hs with hzero | hsame
    · exact hzero.trans_le hnonneg
    · exact hsame.le

/-- **One round**: an AS that is on stays on. -/
lemma simulationRound_on (hQ : Q.justProgress = true) (hpercent : 0 ≤ percent)
    (hexact : ExactRound Q dests gs) (h : simulationRound Q dests percent gs = some gs')
    (hn : gs.S n = true) : gs'.S n = true := by
  obtain ⟨results, hresults, rfl⟩ := map_eq_some_iff.mp h
  have hall : ∀ r ∈ results, 0 ≤ r.UBefore n ∧ r.UAfter n ≤ r.UBefore n := by
    intro r hr
    obtain ⟨m, hm, hmr⟩ := Runs.exists_of_mem_mapM hresults hr
    exact UAfter_le_of_on hQ hexact hm hmr hn
  have hbefore : 0 ≤ sumBefore results n :=
    sum_nonneg fun u hu => by
      obtain ⟨r, hr, rfl⟩ := List.mem_map.mp hu
      exact (hall r hr).1
  have hafter : sumAfter results n ≤ sumBefore results n :=
    sum_le_sum fun r hr => (hall r hr).2
  unfold updateGlobalState
  split_ifs with hnil
  · exact hn
  · have hkeep : ¬ (n < numASNs ∧
        (sumBefore results n : ℚ) * (1 + percent) < (sumAfter results n : ℚ)) := by
      rintro ⟨-, hlt⟩
      have hbefore' : (0 : ℚ) ≤ sumBefore results n := by exact_mod_cast hbefore
      have hafter' : (sumAfter results n : ℚ) ≤ sumBefore results n := by exact_mod_cast hafter
      have hgrow : (sumBefore results n : ℚ) ≤ sumBefore results n * (1 + percent) :=
        le_mul_of_one_le_right hbefore' (by linarith)
      linarith
    dsimp only
    rw [if_neg hkeep]
    exact hn

/-- **Deployment only grows.**  With `justProgress` and a fraction that is not negative, in every
run of the deployment process whose utilities are exact, an AS that is on after some rounds is on
after all later rounds. -/
theorem deployment_grows (Q : SimulationParams) (hQ : Q.justProgress = true)
    (dests : List MiniDestination) (percent : ℚ) (hpercent : 0 ≤ percent) (gs gs₁ gs₂ : GlobalState)
    (i j : ℕ)
    (hexact : ∀ k < i + j, ∀ gs', simulationRounds Q dests percent k gs = some gs' →
      ExactRound Q dests gs')
    (h₁ : simulationRounds Q dests percent i gs = some gs₁)
    (h₂ : simulationRounds Q dests percent (i + j) gs = some gs₂) (n : Asn)
    (hn : gs₁.S n = true) : gs₂.S n = true := by
  induction j generalizing gs₂ with
  | zero =>
    obtain rfl := Option.some.inj (h₁.symm.trans h₂)
    exact hn
  | succ j ih =>
    obtain ⟨gs', hgs', hround⟩ := bind_eq_some_iff.mp h₂
    have hn' := ih gs' (fun k hk => hexact k (by omega)) hgs'
    exact simulationRound_on hQ hpercent (hexact (i + j) (by omega) gs' hgs') hround hn'

/-- The tables of destination 1 with its provider 2 as the only other AS. -/
def customerTables : MiniDestination where
  destination := 1
  bucketTable row col :=
    if row = 0 ∧ col = customerColumn then some [1]
    else if row = 1 ∧ col = customerColumn then some [2]
    else none
  best n := if n = 1 ∨ n = 2 then some [1] else none
  bestNew _ := none
  L n := if n = 2 then 1 else 0
  bestRelation _ := customerColumn
  W _ := 1

/-- The paths after the provider has adopted security. -/
def customerDestination : Destination where
  toRouteTables := customerTables.toRouteTables
  secP := update (update (fun _ => false) 1 false) 2 false
  chosenParent := update (update (fun _ => 0) 1 1) 2 1
  chosenPath :=
    update (update (fun _ => none) 1 (some [1])) 2 (some [2, join 1 customerColumn])
  U _ := 0

/-- The paths are recomputed without an exception. -/
lemma updatePaths_customerTables :
    updatePaths {} (fun a => a = 2) (Destination.ofMiniDestination customerTables) =
      some customerDestination := by
  have hnodes : customerTables.bucketNodes 1 = [(1, customerColumn, 2)] := by decide +kernel
  have hparent : tieBreak {} [1] 2 = 1 := by decide +kernel
  have hset : tieBreakSet true (fun _ => false) [1] = [1] := by decide +kernel
  have hdest : updateDestinations (fun a => decide (a = 2))
      (Destination.ofMiniDestination customerTables) = some
        ⟨customerTables.toRouteTables, update (fun _ => false) 1 false,
          update (fun _ => 0) 1 1, update (fun _ => none) 1 (some [1]),
          fun _ => 0⟩ := rfl
  rw [updatePaths, hdest, bind_some]
  dsimp only
  rw [hnodes, foldlM_cons]
  simp [updateNode, customerDestination, customerTables, hset, hparent, updatePath, numASNs]

/-- The provider has adopted security and keeps it for a round. -/
theorem deployment_grows_customerTables :
    ∃ gs, simulationRounds {} [customerTables] (1 / 20) 1
        ⟨fun a => a = 2, fun _ => 1, [2]⟩ = some gs ∧ gs.S 2 = true := by
  have hround : ∃ gs, simulationRounds {} [customerTables] (1 / 20) 1
      ⟨fun a => a = 2, fun _ => 1, [2]⟩ = some gs := by
    apply isSome_iff_exists.mp
    rw [simulationRounds, simulationRounds, bind_some, simulationRound, mapM_cons,
      computeOnDestination, updatePaths_customerTables]
    rfl
  obtain ⟨gs, hgs⟩ := hround
  refine ⟨gs, hgs, ?_⟩
  refine deployment_grows {} rfl [customerTables] (1 / 20) (by norm_num) _ _ gs 0 1
    (fun k hk gs' hgs' => ?_) rfl hgs 2 (by decide)
  obtain rfl : k = 0 := by omega
  obtain rfl := Option.some.inj hgs'
  intro m hm D hD n
  obtain rfl := mem_singleton.mp hm
  obtain rfl := Option.some.inj (hD.symm.trans updatePaths_customerTables)
  have hdirect : ∀ i path, customerDestination.chosenPath i = some path →
      ∀ joined ∈ path.tail, (unjoin joined).1 = customerDestination.destination := by
    intro i path hpath
    simp only [customerDestination, update_apply] at hpath
    split_ifs at hpath
    · obtain rfl := Option.some.inj hpath
      decide
    · obtain rfl := Option.some.inj hpath
      decide
  apply computeU_eq_exactU
  rw [exactU, exactTempU_of_direct hdirect]
  exact Nat.two_pow_pos 31
end Progress

end Astoria
