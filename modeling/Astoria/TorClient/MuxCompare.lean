import Astoria.TorClient.Ewma
import Astoria.TorClient.Scheduler

/-!
# Comparing multiplexers

Of two channels whose multiplexers have the same policy, the scheduler takes the one first whose
multiplexer the policy prefers.  The policy that prefers quiet circuits means to prefer the
multiplexer whose best circuit has sent least.  It reads the data of the first multiplexer twice and
so prefers none: the channels are served in the order in which the queue happens to hold them.
-/

namespace Astoria

/-- The multiplexers of the channels. -/
structure Muxes (M D C K : Type) where
  /-- The policy of a multiplexer, by its address.  It is zero if there is none. -/
  policy : M → ℕ
  /-- The data of the policy, by their address. -/
  policyData : M → D
  data : D → EwmaPolicyData C K
  /-- The address of the policy that prefers quiet circuits, the only one that can compare. -/
  ewmaPolicy : ℕ
  ewmaPolicy_pos : 0 < ewmaPolicy
  cmux : ChanId → M

section Comparison

variable {M D C K : Type} [DecidableEq M] [DecidableEq D] [LinearOrder K]

/-- Compare two multiplexers under the policy that prefers quiet circuits. -/
def ewmaCmpCmux (data : D → EwmaPolicyData C K) (polData1 _polData2 : D) : ℤ :=
  let p1 := polData1
  -- the second data are the first ones, too
  let p2 := polData1
  if p1 ≠ p2 then
    match ewmaPickActiveCircuit (data p1), ewmaPickActiveCircuit (data p2) with
    | some ce1, some ce2 =>
      compareCellEwmaCounts (fun e : D × C => (data e.1).cellEwma e.2) (p1, ce1) (p2, ce2)
    | some _, none => -1
    | none, some _ => 1
    | none, none => 0
  else 0

/-- Compare two multiplexers.  They are equivalent if they have not the same policy, or one that
does not know how to compare. -/
def circuitmuxCompareMuxes (w : Muxes M D C K) (cmux1 cmux2 : M) : ℤ :=
  if cmux1 = cmux2 then 0
  else if w.policy cmux1 ≠ 0 ∧ w.policy cmux2 ≠ 0 then
    if w.policy cmux1 = w.policy cmux2 then
      if w.policy cmux1 = w.ewmaPolicy then
        ewmaCmpCmux w.data (w.policyData cmux1) (w.policyData cmux2)
      else 0
    else 0
  else 0

/-- The scheduler with the multiplexers of its channels. -/
def Sched.withMuxes (s : Sched) (w : Muxes M D C K) : Sched :=
  { s with
    circuitmuxPolicy := fun chan => w.policy (w.cmux chan)
    compareMuxes := fun chan1 chan2 => circuitmuxCompareMuxes w (w.cmux chan1) (w.cmux chan2) }

/-! ### What the comparison is for -/

/-- The smallest cell count of an active circuit of a multiplexer, above all counts if there is
none. -/
def Muxes.bestCount [DecidableEq C] (w : Muxes M D C K) (cmux : M) : WithTop K :=
  let data := w.data (w.policyData cmux)
  data.activeCircuitPqueue.contents.inf fun circ => ((data.cellEwma circ).cellCount : WithTop K)

variable [DecidableEq C]

/-- The channels whose multiplexers have the policy that prefers quiet circuits. -/
def Muxes.underEwma (w : Muxes M D C K) (pending : Finset ChanId) : Finset ChanId :=
  pending.filter fun chan => w.policy (w.cmux chan) = w.ewmaPolicy

/-- The comparison serves its purpose for some pending channels: under the policy that prefers quiet
circuits it prefers the multiplexer with the smaller count, it is antisymmetric and transitive, and
if all the channels are under this policy, every queue in order that holds them hands out one whose
best circuit is quietest. -/
structure Muxes.QuietestFirst (w : Muxes M D C K) (s : Sched) (pending : Finset ChanId) : Prop where
  cmp_neg : ∀ chan1 ∈ w.underEwma pending, ∀ chan2 ∈ w.underEwma pending,
    ewmaCmpCmux w.data (w.policyData (w.cmux chan1)) (w.policyData (w.cmux chan2)) < 0 ↔
      w.bestCount (w.cmux chan1) < w.bestCount (w.cmux chan2)
  cmp_pos : ∀ chan1 ∈ w.underEwma pending, ∀ chan2 ∈ w.underEwma pending,
    0 < ewmaCmpCmux w.data (w.policyData (w.cmux chan1)) (w.policyData (w.cmux chan2)) ↔
      w.bestCount (w.cmux chan2) < w.bestCount (w.cmux chan1)
  antisymm : ∀ chan1 chan2, schedulerCompareChannels (s.withMuxes w) chan1 chan2 =
    -schedulerCompareChannels (s.withMuxes w) chan2 chan1
  trans : ∀ chan1 chan2 chan3, schedulerCompareChannels (s.withMuxes w) chan1 chan2 ≤ 0 →
    schedulerCompareChannels (s.withMuxes w) chan2 chan3 ≤ 0 →
    schedulerCompareChannels (s.withMuxes w) chan1 chan3 ≤ 0
  pop_quietest : w.underEwma pending = pending → pending.Nonempty → ∀ q : Pqueue ChanId,
    q.Ok (schedulerCompareChannels (s.withMuxes w)) → q.contents = pending →
    ∃ q' top, smartlistPqueuePop (schedulerCompareChannels (s.withMuxes w)) q = some (q', top) ∧
      ∀ chan ∈ pending, w.bestCount (w.cmux top) ≤ w.bestCount (w.cmux chan)

/-! ### What it does -/

omit [DecidableEq C] in
@[simp] lemma ewmaCmpCmux_eq (data : D → EwmaPolicyData C K) (polData1 polData2 : D) :
    ewmaCmpCmux data polData1 polData2 = 0 :=
  if_neg (not_not.mpr rfl)

omit [DecidableEq C] in
@[simp] lemma circuitmuxCompareMuxes_eq (w : Muxes M D C K) (cmux1 cmux2 : M) :
    circuitmuxCompareMuxes w cmux1 cmux2 = 0 := by
  unfold circuitmuxCompareMuxes
  rw [ewmaCmpCmux_eq]
  split_ifs <;> rfl

omit [DecidableEq C] in
lemma schedulerCompareChannels_withMuxes (s : Sched) (w : Muxes M D C K) (chan1 chan2 : ChanId) :
    schedulerCompareChannels (s.withMuxes w) chan1 chan2 =
      if w.policy (w.cmux chan1) = w.policy (w.cmux chan2) then 0
      else if w.policy (w.cmux chan1) < w.policy (w.cmux chan2) then -1 else 1 := by
  unfold schedulerCompareChannels Sched.withMuxes
  by_cases heq : chan1 = chan2
  · rw [heq, if_neg (not_not.mpr rfl), if_pos rfl]
  · rw [if_pos heq]
    dsimp only
    rw [circuitmuxCompareMuxes_eq]

/-- Popping returns the first item. -/
lemma exists_smartlistPqueuePop {α : Type} [DecidableEq α] (compare : α → α → ℤ) {q : Pqueue α}
    (hq : q.numUsed ≠ 0) : ∃ q', smartlistPqueuePop compare q = some (q', q.list 0) := by
  unfold smartlistPqueuePop
  rw [if_neg hq]
  dsimp only
  split_ifs
  · exact ⟨_, rfl⟩
  · exact ⟨_, rfl⟩

/-- **The comparison serves its purpose only where there is nothing to choose**: for pending
channels, if and only if all of those under the policy that prefers quiet circuits have the same
best cell count. -/
theorem quietest_first_iff (w : Muxes M D C K) (s : Sched) (pending : Finset ChanId) :
    w.QuietestFirst s pending ↔ ∀ chan1 ∈ w.underEwma pending, ∀ chan2 ∈ w.underEwma pending,
      w.bestCount (w.cmux chan1) = w.bestCount (w.cmux chan2) := by
  constructor
  · intro h chan1 h1 chan2 h2
    have hneg := h.cmp_neg chan1 h1 chan2 h2
    have hpos := h.cmp_pos chan1 h1 chan2 h2
    rw [ewmaCmpCmux_eq] at hneg hpos
    exact le_antisymm (not_lt.mp fun hlt => absurd (hpos.mpr hlt) (lt_irrefl 0))
      (not_lt.mp fun hlt => absurd (hneg.mpr hlt) (lt_irrefl 0))
  · intro heq
    refine ⟨fun chan1 h1 chan2 h2 => ?_, fun chan1 h1 chan2 h2 => ?_, fun chan1 chan2 => ?_,
      fun chan1 chan2 chan3 h12 h23 => ?_, fun hall hne q _ hq => ?_⟩
    · rw [ewmaCmpCmux_eq, heq chan1 h1 chan2 h2]
      simp only [lt_irrefl]
    · rw [ewmaCmpCmux_eq, heq chan1 h1 chan2 h2]
      simp only [lt_irrefl]
    · rw [schedulerCompareChannels_withMuxes, schedulerCompareChannels_withMuxes]
      split_ifs <;> omega
    · rw [schedulerCompareChannels_withMuxes] at h12 h23 ⊢
      split_ifs at h12 h23 ⊢ <;> omega
    · obtain ⟨chan, hchan⟩ := hne
      obtain ⟨i, hi, -⟩ := Pqueue.mem_contents.mp (hq ▸ hchan)
      obtain ⟨q', hpop⟩ := exists_smartlistPqueuePop (schedulerCompareChannels (s.withMuxes w))
        (show q.numUsed ≠ 0 by omega)
      have htop : q.list 0 ∈ pending := hq ▸ Pqueue.list_mem_contents (by omega)
      rw [hall] at heq
      exact ⟨q', _, hpop, fun chan hchan => (heq _ htop chan hchan).le⟩

/-- The queue of a multiplexer with one active circuit, which has sent a number of cells. -/
def EwmaPolicyData.single (n : ℕ) : EwmaPolicyData ℕ ℕ :=
  ⟨⟨fun _ => 0, 1, fun _ => 0⟩, 0, fun _ => ⟨0, n⟩, {0}⟩

/-- The channels 0 and 1, whose best circuits have sent 2 cells and 1 cell. -/
def twoMuxes : Muxes ChanId ChanId ℕ ℕ :=
  ⟨fun _ => 1, id, fun d => .single (2 - d.toNat), 1, one_pos, id⟩

/-- The channel whose best circuit is quieter is not preferred. -/
theorem not_quietest_first :
    ¬ twoMuxes.QuietestFirst (schedulerInit 0) {0, 1} ∧
      ewmaCmpCmux twoMuxes.data (twoMuxes.policyData 0) (twoMuxes.policyData 1) = 0 ∧
      twoMuxes.bestCount 0 = 2 ∧ twoMuxes.bestCount 1 = 1 := by
  have h0 : twoMuxes.bestCount 0 = 2 := by decide
  have h1 : twoMuxes.bestCount 1 = 1 := by decide
  refine ⟨fun h => ?_, by decide, h0, h1⟩
  have hpos := (h.cmp_pos 0 (by decide) 1 (by decide)).mpr
    (show twoMuxes.bestCount 1 < twoMuxes.bestCount 0 by rw [h0, h1]; decide)
  exact absurd hpos (by decide)

end Comparison

end Astoria
