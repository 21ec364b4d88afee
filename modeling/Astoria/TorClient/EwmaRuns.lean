import Mathlib
import Astoria.TorClient.Ewma

/-!
# The circuit that is picked has sent least

The queue of active circuits is a heap for the averages, and the averages in it are all at the tick
of the last recalibration.  Rescaling them keeps their order, and the circuit that has sent cells is
the first one, so that its average can grow before it is taken from the queue.

A circuit that becomes inactive is removed from the middle of the queue.  There the order can be
lost, and with it the minimum (`not_ewma_pick_minimal`).
-/

namespace Astoria

open List Option
open Function

section Comparison

variable {C K : Type} [LinearOrder K]

lemma compareCellEwmaCounts_le_iff (cellEwma : C → CellEwma K) (a b : C) :
    compareCellEwmaCounts cellEwma a b ≤ 0 ↔ (cellEwma a).cellCount ≤ (cellEwma b).cellCount := by
  unfold compareCellEwmaCounts
  split_ifs with hlt hgt
  · exact iff_of_true (by decide) (le_of_lt hlt)
  · exact iff_of_false (by decide) (not_le_of_gt hgt)
  · exact iff_of_true le_rfl (not_lt.mp hgt)

lemma totalPreorder_compareCellEwmaCounts (cellEwma : C → CellEwma K) :
    TotalPreorder (compareCellEwmaCounts cellEwma) where
  lt_iff a b := by
    rw [compareCellEwmaCounts_le_iff, not_le]
    unfold compareCellEwmaCounts
    split_ifs with hlt hgt
    · exact iff_of_true (by decide) hlt
    · exact iff_of_false (by decide) hlt
    · exact iff_of_false (by decide) hlt
  trans a b c hab hbc := by
    rw [compareCellEwmaCounts_le_iff] at hab hbc ⊢
    exact hab.trans hbc

lemma compareCellEwmaCounts_congr {e e' : C → CellEwma K} {a b : C} (ha : e a = e' a)
    (hb : e b = e' b) : compareCellEwmaCounts e a b = compareCellEwmaCounts e' a b := by
  unfold compareCellEwmaCounts
  rw [ha, hb]

end Comparison

section Policy

variable {C K : Type} [DecidableEq C] [LinearOrder K] {s : EwmaPolicyData C K} {active : Finset C}
  {circ : C}

/-- The queue is a heap of some circuits, whose averages are at one tick, and stores no indices for
the others. -/
structure EwmaPolicyData.Ok (active : Finset C) (s : EwmaPolicyData C K) : Prop where
  ok : s.activeCircuitPqueue.Ok (compareCellEwmaCounts s.cellEwma)
  contents : s.activeCircuitPqueue.contents = active
  current : ∀ c ∈ active,
    (s.cellEwma c).lastAdjustedTick = s.activeCircuitPqueueLastRecalibrated
  outside : ∀ c, c ∉ active → s.activeCircuitPqueue.index c = -1

/-- The average of a circuit outside the queue does not matter. -/
lemma EwmaPolicyData.Ok.setOutside (h : s.Ok active) (hcirc : circ ∉ active) (e : CellEwma K) :
    EwmaPolicyData.Ok active { s with cellEwma := update s.cellEwma circ e } := by
  have hne : ∀ c ∈ active, c ≠ circ := fun c hc heq => hcirc (heq ▸ hc)
  refine ⟨h.ok.congr fun x hx y hy hle => ?_, h.contents, fun c hc => ?_, h.outside⟩
  · rw [h.contents] at hx hy
    rw [← compareCellEwmaCounts_congr (update_of_ne (hne x hx) _ _).symm
      (update_of_ne (hne y hy) _ _).symm]
    exact hle
  · dsimp only
    rw [update_of_ne (hne c hc)]
    exact h.current c hc

/-- **A circuit is removed from the queue**, and the order is not lost. -/
lemma EwmaPolicyData.Ok.exists_remove (h : s.Ok active) (hcirc : circ ∈ active)
    (hsafe : PqueueCall.Safe (compareCellEwmaCounts s.cellEwma) s.activeCircuitPqueue
      (.remove circ)) :
    ∃ s', removeCellEwma s circ = some s' ∧ s'.Ok (active.erase circ) ∧ s'.active = s.active := by
  have hmem : circ ∈ s.activeCircuitPqueue.contents := h.contents ▸ hcirc
  obtain ⟨q, hremove, -, -, hcont, hindex, hframe⟩ :=
    Pqueue.Indexed.exists_remove h.ok.index_eq (compareCellEwmaCounts s.cellEwma) hmem
  have hok : q.Ok (compareCellEwmaCounts s.cellEwma) := by
    obtain ⟨q', out, hcall, hok, -⟩ := hsafe.spec (totalPreorder_compareCellEwmaCounts _) h.ok
    obtain ⟨q'', hq'', heq⟩ := map_eq_some_iff.mp hcall
    rw [hremove] at hq''
    rw [Option.some.inj hq'', (Prod.mk.inj heq).1]
    exact hok
  have hne : s.activeCircuitPqueue.index circ ≠ -1 := by
    obtain ⟨i, hi, rfl⟩ := Pqueue.mem_contents.mp hmem
    rw [h.ok.index_eq i hi]
    omega
  unfold removeCellEwma
  rw [if_pos hne, hremove]
  refine ⟨_, rfl, ⟨hok, hcont.trans (by rw [h.contents]), fun c hc => ?_, fun c hc => ?_⟩, rfl⟩
  · exact h.current c (Finset.mem_of_mem_erase hc)
  · by_cases heq : c = circ
    · rw [heq]
      exact hindex
    · have hout : c ∉ active := fun hmem' => hc (Finset.mem_erase.mpr ⟨heq, hmem'⟩)
      exact (hframe c (h.contents ▸ hout)).trans (h.outside c hout)

end Policy

/-! ### Rescaling -/

section Rescaling

variable {C K : Type} [DecidableEq C] [Field K]

/-- Different circuits at the old tick are rescaled, one after another. -/
lemma exists_foldlM_scaleActiveCircuit {oldTick : UInt32} (curTick : UInt32) (factor : K)
    {l : List C} (hnodup : l.Nodup) {s : EwmaPolicyData C K}
    (hold : ∀ c ∈ l, (s.cellEwma c).lastAdjustedTick = oldTick) :
    ∃ cellEwma, l.foldlM (scaleActiveCircuit oldTick curTick factor) s =
        some { s with cellEwma := cellEwma } ∧
      (∀ c ∈ l, cellEwma c = ⟨curTick, (s.cellEwma c).cellCount * factor⟩) ∧
      ∀ c, c ∉ l → cellEwma c = s.cellEwma c := by
  induction l generalizing s with
  | nil => exact ⟨s.cellEwma, rfl, nofun, fun _ _ => rfl⟩
  | cons e rest ih =>
    obtain ⟨he, hrest⟩ := nodup_cons.mp hnodup
    have hne : ∀ c ∈ rest, c ≠ e := fun c hc heq => he (heq ▸ hc)
    have hold' : ∀ c ∈ rest, (update s.cellEwma e
        ⟨curTick, (s.cellEwma e).cellCount * factor⟩ c).lastAdjustedTick = oldTick := by
      intro c hc
      rw [update_of_ne (hne c hc)]
      exact hold c (mem_cons_of_mem e hc)
    obtain ⟨cellEwma, hfold, hin, hout⟩ := ih hrest (s := { s with
      cellEwma := update s.cellEwma e ⟨curTick, (s.cellEwma e).cellCount * factor⟩ }) hold'
    refine ⟨cellEwma, ?_, fun c hc => ?_, fun c hc => ?_⟩
    · rw [foldlM_cons, scaleActiveCircuit, if_pos (hold e mem_cons_self)]
      exact hfold
    · rcases mem_cons.mp hc with rfl | hc
      · rw [hout c he]
        exact update_self _ _ _
      · rw [hin c hc]
        dsimp only
        rw [update_of_ne (hne c hc)]
    · have hce : c ≠ e := fun heq => hc (by rw [heq]; exact mem_cons_self)
      rw [hout c fun hmem => hc (mem_cons_of_mem e hmem)]
      exact update_of_ne hce _ _

end Rescaling

section Scaled

variable {C K : Type} [DecidableEq C] [Field K] [LinearOrder K] {s : EwmaPolicyData C K}
  {active : Finset C} {circ : C}

/-- **A circuit is added to the queue.** -/
lemma EwmaPolicyData.Ok.exists_add (h : s.Ok active) (scale : EwmaScale K) (hcirc : circ ∉ active) :
    ∃ s', addCellEwma scale s circ = some s' ∧ s'.Ok (insert circ active) ∧
    s'.active = s.active := by
  have hscaled := h.setOutside hcirc ⟨s.activeCircuitPqueueLastRecalibrated,
    (s.cellEwma circ).cellCount * getScaleFactor scale (s.cellEwma circ).lastAdjustedTick
      s.activeCircuitPqueueLastRecalibrated⟩
  have hnot : circ ∉ s.activeCircuitPqueue.contents := by
    rw [h.contents]
    exact hcirc
  obtain ⟨hok, hcont, -⟩ :=
    smartlistPqueueAdd_spec (totalPreorder_compareCellEwmaCounts _) hscaled.ok hnot
  refine ⟨_, if_pos (h.outside circ hcirc), ⟨hok, ?_, fun c hc => ?_, fun c hc => ?_⟩, rfl⟩
  · exact hcont.trans (by rw [hscaled.contents])
  · rcases Finset.mem_insert.mp hc with rfl | hc
    · show (update s.cellEwma c _ c).lastAdjustedTick = _
      rw [update_self]
      rfl
    · exact hscaled.current c hc
  · have hout : c ∉ active := fun hmem => hc (Finset.mem_insert_of_mem hmem)
    have hne : c ≠ circ := fun heq => hc (heq ▸ Finset.mem_insert_self _ _)
    have hout' : c ∉ s.activeCircuitPqueue.contents := by
      rw [h.contents]
      exact hout
    exact (index_smartlistPqueueAdd_of_notMem h.ok.index_eq (compareCellEwmaCounts
      (update s.cellEwma circ ⟨s.activeCircuitPqueueLastRecalibrated,
        (s.cellEwma circ).cellCount * getScaleFactor scale (s.cellEwma circ).lastAdjustedTick
          s.activeCircuitPqueueLastRecalibrated⟩)) hnot hout' hne).trans (h.outside c hout)

lemma Pqueue.Indexed.entries {q : Pqueue C} (h : q.Indexed) :
    q.entries.Nodup ∧ ∀ c, c ∈ q.entries ↔ c ∈ q.contents := by
  unfold Pqueue.entries
  refine ⟨Nodup.map_on ?_ nodup_range, fun c => ?_⟩
  · intro i hi j hj heq
    exact h.injective (mem_range.mp hi) (mem_range.mp hj) heq
  · rw [List.mem_map, Pqueue.mem_contents]
    simp only [mem_range]

/-- **The averages of the active circuits are rescaled.** -/
lemma EwmaPolicyData.Ok.exists_scale [IsStrictOrderedRing K] (h : s.Ok active)
    (scale : EwmaScale K) (curTick : UInt32) :
    ∃ s', scaleActiveCircuits scale s curTick = some s' ∧ s'.Ok active ∧ s'.active = s.active ∧
      s'.activeCircuitPqueue = s.activeCircuitPqueue := by
  have hindexed : s.activeCircuitPqueue.Indexed := h.ok.index_eq
  obtain ⟨hnodup, hmem⟩ := hindexed.entries
  have hfactor : 0 < getScaleFactor scale s.activeCircuitPqueueLastRecalibrated curTick :=
    scale.pow_pos _
  obtain ⟨cellEwma, hfold, hin, -⟩ := exists_foldlM_scaleActiveCircuit
    curTick (getScaleFactor scale s.activeCircuitPqueueLastRecalibrated curTick) hnodup
    fun c hc => h.current c (h.contents ▸ (hmem c).mp hc)
  unfold scaleActiveCircuits
  dsimp only
  rw [hfold]
  refine ⟨_, rfl, ⟨h.ok.congr fun x hx y hy hle => ?_, h.contents, fun c hc => ?_, h.outside⟩,
    rfl, rfl⟩
  · rw [compareCellEwmaCounts_le_iff] at hle ⊢
    dsimp only
    rw [hin x ((hmem x).mpr hx), hin y ((hmem y).mpr hy)]
    exact mul_le_mul_of_nonneg_right hle (le_of_lt hfactor)
  · exact congrArg CellEwma.lastAdjustedTick (hin c ((hmem c).mpr (h.contents ▸ hc)))

/-- **Cells are sent on the circuit that is picked.** -/
lemma EwmaPolicyData.Ok.exists_notifyXmit [IsStrictOrderedRing K] (h : s.Ok active)
    (scale : EwmaScale K) {nCells : ℕ}
    (hcells : 0 < nCells) (hpick : ewmaPickActiveCircuit s = some circ) (tick : UInt32)
    (fractionalTick : K) :
    ∃ s', ewmaNotifyXmitCells scale s circ nCells tick fractionalTick = some s' ∧ s'.Ok active ∧
      s'.active = s.active := by
  have hscale : ∃ s₁, rescaleIfNeeded scale s tick = some s₁ ∧ s₁.Ok active ∧
      s₁.active = s.active ∧ s₁.activeCircuitPqueue = s.activeCircuitPqueue := by
    unfold rescaleIfNeeded
    split_ifs
    · exact h.exists_scale scale tick
    · exact ⟨s, rfl, h, rfl, rfl⟩
  obtain ⟨s₁, hs₁, h₁, hactive, hqueue⟩ := hscale
  have hhead : 0 < s₁.activeCircuitPqueue.numUsed ∧ s₁.activeCircuitPqueue.list 0 = circ := by
    unfold ewmaPickActiveCircuit at hpick
    rw [hqueue]
    split_ifs at hpick with hpos
    exact ⟨hpos, Option.some.inj hpick⟩
  obtain ⟨n, hn⟩ := Nat.exists_eq_succ_of_ne_zero (ne_of_gt hhead.1)
  have hcirc : circ ∈ active := by
    rw [← h₁.contents, ← hhead.2]
    exact Pqueue.list_mem_contents hhead.1
  -- only the average of the first circuit changes
  obtain ⟨q, hpop, hok, hcont, hindex, hframe⟩ := h₁.ok.exists_pop_changed
    (totalPreorder_compareCellEwmaCounts _) hn (compareCellEwmaCounts
      (update s₁.cellEwma circ ⟨(s₁.cellEwma circ).lastAdjustedTick,
        (s₁.cellEwma circ).cellCount + (nCells : K) * scale.pow (-fractionalTick)⟩))
    fun x hx y hy => by
      rw [hhead.2] at hx hy
      exact compareCellEwmaCounts_congr (update_of_ne (Finset.ne_of_mem_erase hx) _ _).symm
        (update_of_ne (Finset.ne_of_mem_erase hy) _ _).symm
  rw [hhead.2, h₁.contents] at hcont
  rw [hhead.2] at hpop hindex
  have hpopped : EwmaPolicyData.Ok (active.erase circ) { s₁ with
      cellEwma := update s₁.cellEwma circ ⟨(s₁.cellEwma circ).lastAdjustedTick,
        (s₁.cellEwma circ).cellCount + (nCells : K) * scale.pow (-fractionalTick)⟩
      activeCircuitPqueue := q } := by
    refine ⟨hok, hcont, fun c hc => ?_, fun c hc => ?_⟩
    · show (update s₁.cellEwma circ _ c).lastAdjustedTick = _
      rw [update_of_ne (Finset.ne_of_mem_erase hc)]
      exact h₁.current c (Finset.mem_of_mem_erase hc)
    · by_cases heq : c = circ
      · rw [heq]
        exact hindex
      · have hout : c ∉ active := fun hmem => hc (Finset.mem_erase.mpr ⟨heq, hmem⟩)
        exact (hframe c (by rw [h₁.contents]; exact hout)).trans (h₁.outside c hout)
  obtain ⟨s', hs', hok', hactive'⟩ := hpopped.exists_add scale (Finset.notMem_erase circ _)
  rw [Finset.insert_erase hcirc] at hok'
  refine ⟨s', ?_, hok', hactive'.trans hactive⟩
  unfold ewmaNotifyXmitCells popFirstCellEwma
  rw [if_pos hcells, hs₁]
  simp only [bind_eq_bind, bind_some, hpop, if_true]
  exact hs'

lemma EwmaPolicyData.Ok.allocCircData (h : s.Ok active) (hcirc : circ ∉ active) (tick : UInt32) :
    (ewmaAllocCircData s circ tick).Ok active := by
  have hne : ∀ i < s.activeCircuitPqueue.numUsed, s.activeCircuitPqueue.list i ≠ circ := by
    intro i hi heq
    rw [← h.contents, ← heq] at hcirc
    exact hcirc (Pqueue.list_mem_contents hi)
  have hset := h.setOutside hcirc ⟨tick, 0⟩
  refine ⟨⟨hset.ok.ordered, fun i hi => ?_⟩, hset.contents, hset.current, fun c hc => ?_⟩
  · show update s.activeCircuitPqueue.index circ (-1) (s.activeCircuitPqueue.list i) = i
    rw [update_of_ne (hne i hi)]
    exact h.ok.index_eq i hi
  · show update s.activeCircuitPqueue.index circ (-1) c = -1
    by_cases heq : c = circ
    · rw [heq, update_self]
    · rw [update_of_ne heq]
      exact h.outside c hc

/-- **One event** that the multiplexer brings about and that is safe. -/
lemma EwmaPolicyData.Ok.exists_step [IsStrictOrderedRing K] (h : s.Ok s.active)
    (scale : EwmaScale K) {ev : EwmaEvent C K}
    (hcalled : ev.Called s) (hsafe : ev.Safe s) :
    ∃ s', ewmaStep scale s ev = some s' ∧ s'.Ok s'.active := by
  cases ev with
  | attach circ tick => exact ⟨_, rfl, h.allocCircData hcalled tick⟩
  | activate circ =>
    obtain ⟨s', hs', hok, hactive⟩ := h.exists_add scale hcalled
    rw [← hactive] at hok
    refine ⟨{ s' with active := insert circ s'.active }, ?_, hok.ok, hok.contents, hok.current,
      hok.outside⟩
    show (addCellEwma scale s circ).bind _ = _
    rw [hs']
    rfl
  | deactivate circ =>
    obtain ⟨s', hs', hok, hactive⟩ := h.exists_remove hcalled hsafe
    rw [← hactive] at hok
    refine ⟨{ s' with active := s'.active.erase circ }, ?_, hok.ok, hok.contents, hok.current,
      hok.outside⟩
    show (removeCellEwma s circ).bind _ = _
    rw [hs']
    rfl
  | transmit circ nCells tick fractionalTick =>
    obtain ⟨s', hs', hok, hactive⟩ :=
      h.exists_notifyXmit scale hcalled.1 hcalled.2 tick fractionalTick
    exact ⟨s', hs', hactive.symm ▸ hok⟩

/-- The circuit that is picked, if there is one, is active and its average is minimal. -/
lemma EwmaPolicyData.Ok.exists_pick [IsStrictOrderedRing K] (h : s.Ok active)
    (scale : EwmaScale K) (hne : active.Nonempty)
    (curTick : UInt32) :
    ∃ circ ∈ active, ewmaPickActiveCircuit s = some circ ∧
      ∀ c ∈ active, s.decayed scale circ curTick ≤ s.decayed scale c curTick := by
  obtain ⟨c, hc⟩ := hne
  rw [← h.contents] at hc
  obtain ⟨i, hi, -⟩ := Pqueue.mem_contents.mp hc
  have hpos : 0 < s.activeCircuitPqueue.numUsed := by omega
  have hhead : s.activeCircuitPqueue.list 0 ∈ active := by
    rw [← h.contents]
    exact Pqueue.list_mem_contents hpos
  refine ⟨s.activeCircuitPqueue.list 0, hhead, if_pos hpos, fun c hc => ?_⟩
  have hle : (s.cellEwma (s.activeCircuitPqueue.list 0)).cellCount ≤ (s.cellEwma c).cellCount := by
    have hmem := hc
    rw [← h.contents] at hmem
    obtain ⟨j, hj, rfl⟩ := Pqueue.mem_contents.mp hmem
    have hpre := totalPreorder_compareCellEwmaCounts s.cellEwma
    rw [← compareCellEwmaCounts_le_iff]
    exact h.ok.ordered.root_le hpre.refl hpre.trans hj
  unfold EwmaPolicyData.decayed
  rw [h.current _ hhead, h.current c hc]
  exact mul_le_mul_of_nonneg_right hle (le_of_lt (scale.pow_pos _))

lemma ok_ewmaInit (list : ℕ → C) (tick : UInt32) :
    (EwmaPolicyData.init list tick : EwmaPolicyData C K).Ok ∅ := by
  refine ⟨⟨fun i _ hi => absurd hi (Nat.not_lt_zero i), fun i hi => absurd hi (Nat.not_lt_zero i)⟩,
    ?_, nofun, fun _ _ => rfl⟩
  ext c
  rw [Pqueue.mem_contents]
  exact iff_of_false (fun ⟨i, hi, _⟩ => absurd hi (Nat.not_lt_zero i)) (Finset.notMem_empty c)

/-- In a run whose events are brought about by the multiplexer and safe, everything stays in
order. -/
lemma exists_ewmaSteps [IsStrictOrderedRing K] (scale : EwmaScale K) (list : ℕ → C) (tick : UInt32)
    {events : List (EwmaEvent C K)}
    (hevents : Runs.MeetsAlong (ewmaStep scale) (fun s ev => ev.Called s ∧ ev.Safe s) events
      (EwmaPolicyData.init list tick)) :
    ∃ s, ewmaSteps scale (EwmaPolicyData.init list tick) events = some s ∧ s.Ok s.active := by
  have hstep : ∀ (s : EwmaPolicyData C K) (ev : EwmaEvent C K), s.Ok s.active →
      ev.Called s ∧ ev.Safe s → ∃ s', ewmaStep scale s ev = some s' ∧ s'.Ok s'.active :=
    fun s ev h hev => h.exists_step scale hev.1 hev.2
  exact hevents.exists_foldlM hstep (ok_ewmaInit list tick)

end Scaled

/-! ### Rational averages -/

lemma compareCellEwmaCounts_mapCounts {C K L : Type} [LinearOrder K] [LinearOrder L] {f : K → L}
    (hf : StrictMono f) (cellEwma : C → CellEwma K) :
    compareCellEwmaCounts (fun c => ⟨(cellEwma c).lastAdjustedTick, f (cellEwma c).cellCount⟩) =
      compareCellEwmaCounts cellEwma := by
  funext a b
  unfold compareCellEwmaCounts
  simp only [hf.lt_iff_lt, gt_iff_lt]

/-- The average of one circuit is set. -/
lemma mapCounts_update {C K L : Type} [DecidableEq C] (f : K → L) (cellEwma : C → CellEwma K)
    (circ : C) (e : CellEwma K) :
    (fun c => (⟨(update cellEwma circ e c).lastAdjustedTick,
        f (update cellEwma circ e c).cellCount⟩ : CellEwma L)) =
      update (fun c => ⟨(cellEwma c).lastAdjustedTick, f (cellEwma c).cellCount⟩) circ
        ⟨e.lastAdjustedTick, f e.cellCount⟩ := by
  funext c
  by_cases hc : c = circ
  · subst hc
    simp only [update_self]
  · simp only [update_of_ne hc]

section Cast

variable {C K L : Type} [DecidableEq C] [Field K] [LinearOrder K] [Field L] [LinearOrder L]

/-- The averages are mapped to another field. -/
def EwmaPolicyData.mapCounts (f : K → L) (s : EwmaPolicyData C K) : EwmaPolicyData C L :=
  { s with cellEwma := fun c => ⟨(s.cellEwma c).lastAdjustedTick, f (s.cellEwma c).cellCount⟩ }

/-- The fraction of a tick is mapped to another field. -/
def EwmaEvent.mapFraction (f : K → L) : EwmaEvent C K → EwmaEvent C L
  | .attach circ tick => .attach circ tick
  | .activate circ => .activate circ
  | .deactivate circ => .deactivate circ
  | .transmit circ nCells tick fractionalTick => .transmit circ nCells tick (f fractionalTick)

/-- Cells are sent at the start of a tick. -/
def EwmaEvent.AtStart : EwmaEvent C K → Prop
  | .transmit _ _ _ fractionalTick => fractionalTick = 0
  | _ => True

/-- Whether cells are sent at the start of a tick can be computed. -/
instance decidableAtStart : DecidablePred (EwmaEvent.AtStart (C := C) (K := K))
  | .attach _ _ => isTrue trivial
  | .activate _ => isTrue trivial
  | .deactivate _ => isTrue trivial
  | .transmit _ _ _ _ => inferInstanceAs (Decidable (_ = _))

/-- Whether the multiplexer brings an event about can be computed. -/
instance decidableCalled (s : EwmaPolicyData C K) : DecidablePred (EwmaEvent.Called s)
  | .attach _ _ => inferInstanceAs (Decidable (_ ∉ s.active))
  | .activate _ => inferInstanceAs (Decidable (_ ∉ s.active))
  | .deactivate _ => inferInstanceAs (Decidable (_ ∈ s.active))
  | .transmit _ _ _ _ => inferInstanceAs (Decidable (_ ∧ _))

/-- Whether an event is safe can be computed. -/
instance decidableSafe (s : EwmaPolicyData C K) : DecidablePred (EwmaEvent.Safe s)
  | .attach _ _ => isTrue trivial
  | .activate _ => isTrue trivial
  | .deactivate _ => inferInstanceAs (Decidable (∃ i, i < _ ∧ _ ∧ _))
  | .transmit _ _ _ _ => isTrue trivial

variable {f : K →+* L} (hf : StrictMono f) {scale : EwmaScale K} {scale' : EwmaScale L}

omit [DecidableEq C] [LinearOrder K] [LinearOrder L] in
lemma EwmaEvent.Called.mapCounts {s : EwmaPolicyData C K} {ev : EwmaEvent C K} (h : ev.Called s) :
    (ev.mapFraction f).Called (s.mapCounts f) := by
  cases ev with
  | attach circ tick => exact h
  | activate circ => exact h
  | deactivate circ => exact h
  | transmit circ nCells tick fractionalTick => exact h

include hf in
lemma EwmaEvent.Safe.mapCounts {s : EwmaPolicyData C K} {ev : EwmaEvent C K} (h : ev.Safe s) :
    (ev.mapFraction f).Safe (s.mapCounts f) := by
  cases ev with
  | attach circ tick => trivial
  | activate circ => trivial
  | deactivate circ =>
    unfold EwmaEvent.mapFraction EwmaEvent.Safe EwmaPolicyData.mapCounts
    dsimp only
    rw [compareCellEwmaCounts_mapCounts hf]
    exact h
  | transmit circ nCells tick fractionalTick => trivial

omit [LinearOrder K] [LinearOrder L] in
/-- The averages of some circuits are rescaled, one after another. -/
lemma foldlM_scaleActiveCircuit_mapCounts (oldTick curTick : UInt32) (factor : K) (l : List C)
    (s : EwmaPolicyData C K) :
    l.foldlM (scaleActiveCircuit oldTick curTick (f factor)) (s.mapCounts f) =
      (l.foldlM (scaleActiveCircuit oldTick curTick factor) s).map (·.mapCounts f) := by
  induction l generalizing s with
  | nil => rfl
  | cons e rest ih =>
    rw [foldlM_cons, foldlM_cons]
    have hstep : scaleActiveCircuit oldTick curTick (f factor) (s.mapCounts f) e =
        (scaleActiveCircuit oldTick curTick factor s e).map (·.mapCounts f) := by
      unfold scaleActiveCircuit EwmaPolicyData.mapCounts
      dsimp only
      split_ifs
      · simp only [map_some, mapCounts_update, map_mul]
      · rfl
    rw [hstep]
    cases scaleActiveCircuit oldTick curTick factor s e with
    | none => rfl
    | some s₁ => exact ih s₁

/-- The averages are rescaled if a new tick has begun. -/
lemma rescaleIfNeeded_mapCounts (hpow : ∀ z : ℤ, f (scale.pow z) = scale'.pow z)
    (s : EwmaPolicyData C K) (tick : UInt32) :
    rescaleIfNeeded scale' (s.mapCounts f) tick =
      (rescaleIfNeeded scale s tick).map (·.mapCounts f) := by
  have hfactor (fromTick : UInt32) :
      getScaleFactor scale' fromTick tick = f (getScaleFactor scale fromTick tick) := (hpow _).symm
  unfold rescaleIfNeeded scaleActiveCircuits
  dsimp only
  rw [hfactor]
  have hfold :=
    foldlM_scaleActiveCircuit_mapCounts (f := f) s.activeCircuitPqueueLastRecalibrated tick
      (getScaleFactor scale s.activeCircuitPqueueLastRecalibrated tick)
      s.activeCircuitPqueue.entries s
  show (if tick ≠ s.activeCircuitPqueueLastRecalibrated then _ else _) = _
  split_ifs
  · show (List.foldlM (scaleActiveCircuit s.activeCircuitPqueueLastRecalibrated tick
      (f (getScaleFactor scale s.activeCircuitPqueueLastRecalibrated tick))) (s.mapCounts f)
      s.activeCircuitPqueue.entries).bind _ = _
    rw [hfold]
    cases s.activeCircuitPqueue.entries.foldlM (scaleActiveCircuit
      s.activeCircuitPqueueLastRecalibrated tick
      (getScaleFactor scale s.activeCircuitPqueueLastRecalibrated tick)) s with
    | none => rfl
    | some s₁ => rfl
  · rfl

include hf in
lemma addCellEwma_mapCounts (hpow : ∀ z : ℤ, f (scale.pow z) = scale'.pow z)
    (s : EwmaPolicyData C K) (circ : C) :
    addCellEwma scale' (s.mapCounts f) circ = (addCellEwma scale s circ).map (·.mapCounts f) := by
  have hscaled :
      scaleSingleCellEwma scale' (s.mapCounts f) circ s.activeCircuitPqueueLastRecalibrated =
        (scaleSingleCellEwma scale s circ s.activeCircuitPqueueLastRecalibrated).mapCounts f := by
    unfold scaleSingleCellEwma EwmaPolicyData.mapCounts getScaleFactor
    dsimp only
    rw [mapCounts_update, map_mul, hpow]
  unfold addCellEwma
  show (if s.activeCircuitPqueue.index circ = -1 then _ else none) = _
  split_ifs
  · dsimp only
    rw [show (s.mapCounts f).activeCircuitPqueueLastRecalibrated =
      s.activeCircuitPqueueLastRecalibrated from rfl, hscaled]
    unfold EwmaPolicyData.mapCounts
    dsimp only
    rw [compareCellEwmaCounts_mapCounts hf]
    rfl
  · rfl

include hf in
lemma removeCellEwma_mapCounts (s : EwmaPolicyData C K) (circ : C) :
    removeCellEwma (s.mapCounts f) circ = (removeCellEwma s circ).map (·.mapCounts f) := by
  unfold removeCellEwma EwmaPolicyData.mapCounts
  dsimp only
  rw [compareCellEwmaCounts_mapCounts hf]
  split_ifs
  · cases smartlistPqueueRemove (compareCellEwmaCounts s.cellEwma) s.activeCircuitPqueue circ with
    | none => rfl
    | some q => rfl
  · rfl

include hf in
/-- The first circuit is removed from the queue. -/
lemma popFirstCellEwma_mapCounts (s : EwmaPolicyData C K) :
    popFirstCellEwma (s.mapCounts f) =
      (popFirstCellEwma s).map fun r => (r.1.mapCounts f, r.2) := by
  unfold popFirstCellEwma EwmaPolicyData.mapCounts
  dsimp only
  rw [compareCellEwmaCounts_mapCounts hf]
  cases smartlistPqueuePop (compareCellEwmaCounts s.cellEwma) s.activeCircuitPqueue with
  | none => rfl
  | some r => rfl

include hf in
/-- Cells are sent at the start of a tick. -/
lemma ewmaNotifyXmitCells_mapCounts (hpow : ∀ z : ℤ, f (scale.pow z) = scale'.pow z)
    (s : EwmaPolicyData C K) (circ : C) (nCells : ℕ) (tick : UInt32) :
    ewmaNotifyXmitCells scale' (s.mapCounts f) circ nCells tick 0 =
      (ewmaNotifyXmitCells scale s circ nCells tick 0).map (·.mapCounts f) := by
  have hzero : f (scale.pow (-0)) = scale'.pow (-0) := by simpa using hpow 0
  have hupdate (s : EwmaPolicyData C K) : ({ s.mapCounts f with
      cellEwma := update (s.mapCounts f).cellEwma circ
        ⟨((s.mapCounts f).cellEwma circ).lastAdjustedTick,
          ((s.mapCounts f).cellEwma circ).cellCount + (nCells : L) * scale'.pow (-0)⟩ } :
        EwmaPolicyData C L) =
      EwmaPolicyData.mapCounts f { s with
        cellEwma := update s.cellEwma circ ⟨(s.cellEwma circ).lastAdjustedTick,
          (s.cellEwma circ).cellCount + (nCells : K) * scale.pow (-0)⟩ } := by
    unfold EwmaPolicyData.mapCounts
    dsimp only
    rw [mapCounts_update, map_add, map_mul, map_natCast, hzero]
  by_cases hcells : 0 < nCells
  · unfold ewmaNotifyXmitCells
    rw [if_pos hcells, if_pos hcells, rescaleIfNeeded_mapCounts hpow]
    cases rescaleIfNeeded scale s tick with
    | none => rfl
    | some s₁ =>
      dsimp only [bind_eq_bind, bind_some, map_some]
      rw [hupdate, popFirstCellEwma_mapCounts hf]
      generalize popFirstCellEwma (C := C) (K := K) _ = popped
      cases popped with
      | none => rfl
      | some r =>
        obtain ⟨s₂, top⟩ := r
        dsimp only [map_some, bind_some]
        split_ifs
        · exact addCellEwma_mapCounts hf hpow s₂ circ
        · rfl
  · unfold ewmaNotifyXmitCells
    rw [if_neg hcells, if_neg hcells]
    rfl

include hf in
/-- **An event of the rational averages is one of their images.** -/
lemma ewmaStep_mapCounts (hpow : ∀ z : ℤ, f (scale.pow z) = scale'.pow z) {s : EwmaPolicyData C K}
    {ev : EwmaEvent C K} (hstart : ev.AtStart) :
    ewmaStep scale' (s.mapCounts f) (ev.mapFraction f) =
      (ewmaStep scale s ev).map (·.mapCounts f) := by
  cases ev with
  | attach circ tick =>
    simp only [ewmaStep, EwmaEvent.mapFraction, ewmaAllocCircData, EwmaPolicyData.mapCounts,
      map_some, mapCounts_update, map_zero]
  | activate circ =>
    show (addCellEwma scale' (s.mapCounts f) circ).bind _ =
      Option.map _ ((addCellEwma scale s circ).bind _)
    rw [addCellEwma_mapCounts hf hpow]
    cases addCellEwma scale s circ with
    | none => rfl
    | some s₁ => rfl
  | deactivate circ =>
    show (removeCellEwma (s.mapCounts f) circ).bind _ =
      Option.map _ ((removeCellEwma s circ).bind _)
    rw [removeCellEwma_mapCounts hf]
    cases removeCellEwma s circ with
    | none => rfl
    | some s₁ => rfl
  | transmit circ nCells tick fractionalTick =>
    obtain rfl := hstart
    show ewmaNotifyXmitCells scale' (s.mapCounts f) circ nCells tick (f 0) = _
    rw [map_zero]
    exact ewmaNotifyXmitCells_mapCounts hf hpow s circ nCells tick

/-- The events, one after another, while they are as they should be and cells are sent at the starts
of ticks. -/
def ewmaStepsWhile (meets : EwmaPolicyData C K → EwmaEvent C K → Prop)
    [∀ s, DecidablePred (meets s)] (scale : EwmaScale K) (s : EwmaPolicyData C K)
    (events : List (EwmaEvent C K)) : Option (EwmaPolicyData C K) :=
  events.foldlM (fun s ev => if meets s ev ∧ ev.AtStart then ewmaStep scale s ev else none) s

include hf in
/-- **A run of the rational averages is one of their images.** -/
lemma ewmaSteps_mapCounts (hpow : ∀ z : ℤ, f (scale.pow z) = scale'.pow z)
    {meets : EwmaPolicyData C K → EwmaEvent C K → Prop} [∀ s, DecidablePred (meets s)]
    {meets' : EwmaPolicyData C L → EwmaEvent C L → Prop}
    (hmeets : ∀ s ev, meets s ev → meets' (s.mapCounts f) (ev.mapFraction f))
    {events : List (EwmaEvent C K)} {s s' : EwmaPolicyData C K}
    (h : ewmaStepsWhile meets scale s events = some s') :
    Runs.MeetsAlong (ewmaStep scale') meets' (events.map (·.mapFraction f)) (s.mapCounts f) ∧
      ewmaSteps scale' (s.mapCounts f) (events.map (·.mapFraction f)) = some (s'.mapCounts f) := by
  induction events generalizing s with
  | nil =>
    obtain rfl := Option.some.inj h
    exact ⟨trivial, rfl⟩
  | cons ev events ih =>
    unfold ewmaStepsWhile at h
    rw [foldlM_cons] at h
    obtain ⟨s₁, hs₁, hrest⟩ := bind_eq_some_iff.mp h
    split_ifs at hs₁ with hev
    have hstep : ewmaStep scale' (s.mapCounts f) (ev.mapFraction f) = some (s₁.mapCounts f) := by
      rw [ewmaStep_mapCounts hf hpow hev.2, hs₁, map_some]
    obtain ⟨hrun, hsteps⟩ := ih hrest
    refine ⟨⟨hmeets s ev hev.1, fun s₂ hs₂ => ?_⟩, ?_⟩
    · rw [hstep] at hs₂
      rw [← Option.some.inj hs₂]
      exact hrun
    · rw [map_cons, ewmaSteps, foldlM_cons, hstep]
      exact hsteps

end Cast

/-- The powers of one tenth, for whole exponents. -/
def EwmaScale.tenth : EwmaScale ℚ := ⟨fun x => (1 / 10) ^ x.num, fun x => by positivity⟩

lemma tenth_pow (hpos : (0 : ℝ) < 1 / 10) (z : ℤ) :
    Rat.castHom ℝ (EwmaScale.tenth.pow z) = (EwmaScale.ofReal (1 / 10) hpos).pow z := by
  show (((1 / 10 : ℚ) ^ (z : ℚ).num : ℚ) : ℝ) = (1 / 10 : ℝ) ^ (z : ℝ)
  rw [Rat.num_intCast, Real.rpow_intCast]
  push_cast
  rfl

/-- A new policy is the image of one. -/
lemma mapCounts_init (list : ℕ → ℕ) (tick : UInt32) :
    (EwmaPolicyData.init list tick : EwmaPolicyData ℕ ℚ).mapCounts (Rat.castHom ℝ) =
      EwmaPolicyData.init list tick := by
  unfold EwmaPolicyData.mapCounts EwmaPolicyData.init
  simp only [map_zero]

/-- A run of the rational averages, and the run of the real ones that it stands for. -/
lemma exists_real_run (hpos : (0 : ℝ) < 1 / 10)
    {meets : EwmaPolicyData ℕ ℚ → EwmaEvent ℕ ℚ → Prop} [∀ s, DecidablePred (meets s)]
    (meets' : EwmaPolicyData ℕ ℝ → EwmaEvent ℕ ℝ → Prop)
    (hmeets : ∀ s ev, meets s ev →
      meets' (s.mapCounts (Rat.castHom ℝ)) (ev.mapFraction (Rat.castHom ℝ)))
    {events : List (EwmaEvent ℕ ℚ)} {s : EwmaPolicyData ℕ ℚ}
    (h : ewmaStepsWhile meets EwmaScale.tenth (EwmaPolicyData.init id 0) events = some s) :
    Runs.MeetsAlong (ewmaStep (EwmaScale.ofReal (1 / 10) hpos)) meets'
        (events.map (·.mapFraction (Rat.castHom ℝ))) (EwmaPolicyData.init id 0) ∧
      ewmaSteps (EwmaScale.ofReal (1 / 10) hpos) (EwmaPolicyData.init id 0)
        (events.map (·.mapFraction (Rat.castHom ℝ))) = some (s.mapCounts (Rat.castHom ℝ)) := by
  have hmono : StrictMono (Rat.castHom ℝ) := fun a b hab => Rat.cast_lt.mpr hab
  rw [← mapCounts_init]
  exact ewmaSteps_mapCounts hmono (tenth_pow hpos) hmeets h

/-! ### The circuit that is picked -/

/-- **The circuit that is picked has sent least.**  Over the reals, in every run in which no circuit
that becomes inactive is replaced in the queue by one that comes before its parent, no assertion
fails, and if a circuit is active, then one is picked whose cell count, decayed to any tick, is
minimal among the active ones. -/
theorem ewma_pick_minimal {C : Type} [DecidableEq C] (ewmaScaleFactor : ℝ)
    (hpos : 0 < ewmaScaleFactor) (list : ℕ → C) (tick : UInt32) (events : List (EwmaEvent C ℝ))
    (hevents : Runs.MeetsAlong (ewmaStep (EwmaScale.ofReal ewmaScaleFactor hpos))
      (fun s ev => ev.Called s ∧ ev.Safe s) events (EwmaPolicyData.init list tick)) :
    ∃ s, ewmaSteps (EwmaScale.ofReal ewmaScaleFactor hpos) (EwmaPolicyData.init list tick) events =
        some s ∧
      (s.active.Nonempty → ∀ curTick, ∃ circ ∈ s.active, ewmaPickActiveCircuit s = some circ ∧
        ∀ c ∈ s.active, s.decayed (EwmaScale.ofReal ewmaScaleFactor hpos) circ curTick ≤
          s.decayed (EwmaScale.ofReal ewmaScaleFactor hpos) c curTick) := by
  obtain ⟨s, hs, hok⟩ := exists_ewmaSteps _ list tick hevents
  exact ⟨s, hs, fun hne curTick => hok.exists_pick _ hne curTick⟩

/-- Four circuits become active and each sends cells when it is picked, the last one at a new tick.
Then one becomes inactive whose place in the middle of the queue the last one takes. -/
def fourCircuits (K : Type) [Zero K] : List (EwmaEvent ℕ K) :=
  [.activate 1, .activate 2, .activate 3, .activate 4, .transmit 1 8 0 0, .transmit 2 5 0 0,
    .transmit 4 3 0 0, .transmit 3 2 1 0, .deactivate 2]

/-- Three circuits are active in the end, and a circuit is picked that has sent least. -/
theorem ewma_pick_minimal_fourCircuits :
    ∃ s, ewmaSteps (EwmaScale.ofReal (1 / 10) (by norm_num)) (EwmaPolicyData.init id 0)
        (fourCircuits ℝ) = some s ∧
      (s.active.Nonempty → ∀ curTick, ∃ circ ∈ s.active, ewmaPickActiveCircuit s = some circ ∧
        ∀ c ∈ s.active, s.decayed (EwmaScale.ofReal (1 / 10) (by norm_num)) circ curTick ≤
          s.decayed (EwmaScale.ofReal (1 / 10) (by norm_num)) c curTick) := by
  have hrun : ((ewmaStepsWhile (fun s ev => ev.Called s ∧ ev.Safe s) EwmaScale.tenth
      (EwmaPolicyData.init id 0) (fourCircuits ℚ)).map fun s =>
        (ewmaPickActiveCircuit s, s.active)) = some (some 4, {1, 3, 4}) := by
    decide +kernel
  obtain ⟨s, hs, -⟩ := map_eq_some_iff.mp hrun
  obtain ⟨hmeets, -⟩ := exists_real_run (by norm_num) (fun s ev => ev.Called s ∧ ev.Safe s)
    (fun _ _ hev => ⟨hev.1.mapCounts, hev.2.mapCounts fun a b hab => Rat.cast_lt.mpr hab⟩) hs
  have hevents : (fourCircuits ℚ).map (·.mapFraction (Rat.castHom ℝ)) = fourCircuits ℝ := by
    simp [fourCircuits, EwmaEvent.mapFraction]
  rw [hevents] at hmeets
  exact ewma_pick_minimal (1 / 10) (by norm_num) id 0 (fourCircuits ℝ) hmeets

/-- A circuit sends some cells while it is the only active one. -/
def sendsAlone (n : ℕ) : List (EwmaEvent ℕ ℚ) := [.activate n, .transmit n n 0 0, .deactivate n]

/-- Each circuit has sent its number of cells.  Then eight circuits become active, and four of them
inactive again. -/
def lostOrderEvents : List (EwmaEvent ℕ ℚ) :=
  [10, 1, 11, 12, 2, 3, 13].flatMap sendsAlone ++
    [0, 10, 1, 11, 12, 2, 3].map EwmaEvent.activate ++
    [11, 1, 2].map EwmaEvent.deactivate ++ [EwmaEvent.activate 13, EwmaEvent.deactivate 0]

/-- The circuit that has sent ten cells is picked, although the one that has sent three is
active. -/
lemma exists_lostOrder : ∃ s : EwmaPolicyData ℕ ℚ,
    ewmaStepsWhile (fun s ev => ev.Called s) EwmaScale.tenth (EwmaPolicyData.init id 0)
        lostOrderEvents = some s ∧
      ewmaPickActiveCircuit s = some 10 ∧ 3 ∈ s.active ∧
      s.cellEwma 10 = ⟨0, 10⟩ ∧ s.cellEwma 3 = ⟨0, 3⟩ := by
  have hrun : ((ewmaStepsWhile (fun s ev => ev.Called s) EwmaScale.tenth
      (EwmaPolicyData.init id 0) lostOrderEvents).map fun s =>
        (ewmaPickActiveCircuit s, decide (3 ∈ s.active), (s.cellEwma 10).lastAdjustedTick,
          (s.cellEwma 10).cellCount,
        (s.cellEwma 3).lastAdjustedTick, (s.cellEwma 3).cellCount)) =
      some (some 10, true, 0, 10, 0, 3) := by
    decide +kernel
  obtain ⟨s, hs, hs'⟩ := map_eq_some_iff.mp hrun
  simp only [Prod.mk.injEq, decide_eq_true_eq] at hs'
  obtain ⟨hpick, hmem, htick, hcount, htick', hcount'⟩ := hs'
  refine ⟨s, hs, hpick, hmem, ?_, ?_⟩
  · rw [← htick, ← hcount]
  · rw [← htick', ← hcount']

/-- **The order can be lost.**  A circuit in the middle of the queue becomes inactive, and later a
circuit is picked that has sent more than another active one. -/
theorem not_ewma_pick_minimal :
    ¬ ∀ (ewmaScaleFactor : ℝ) (hpos : 0 < ewmaScaleFactor) (list : ℕ → ℕ) (tick : UInt32)
      (events : List (EwmaEvent ℕ ℝ)),
      Runs.MeetsAlong (ewmaStep (EwmaScale.ofReal ewmaScaleFactor hpos))
        (fun s ev => ev.Called s) events (EwmaPolicyData.init list tick) →
      ∃ s, ewmaSteps (EwmaScale.ofReal ewmaScaleFactor hpos)
          (EwmaPolicyData.init list tick) events = some s ∧
        (s.active.Nonempty → ∀ curTick, ∃ circ ∈ s.active, ewmaPickActiveCircuit s = some circ ∧
          ∀ c ∈ s.active, s.decayed (EwmaScale.ofReal ewmaScaleFactor hpos) circ curTick ≤
            s.decayed (EwmaScale.ofReal ewmaScaleFactor hpos) c curTick) := by
  intro hclaim
  have hpos : (0 : ℝ) < 1 / 10 := by norm_num
  obtain ⟨s₀, hs₀, hpick, hmem, hten, hthree⟩ := exists_lostOrder
  obtain ⟨hmeets, hsteps⟩ := exists_real_run hpos (fun s ev => ev.Called s)
    (fun _ _ hev => hev.mapCounts) hs₀
  obtain ⟨s, hs, hmin⟩ := hclaim (1 / 10) hpos id 0 _ hmeets
  rw [hsteps] at hs
  obtain rfl := Option.some.inj hs
  obtain ⟨circ, -, hcirc, hle⟩ := hmin ⟨3, hmem⟩ 0
  obtain rfl : circ = 10 := Option.some.inj (hcirc.symm.trans hpick)
  have hle : Rat.castHom ℝ (s₀.cellEwma 10).cellCount * getScaleFactor _
      (s₀.cellEwma 10).lastAdjustedTick 0 ≤ Rat.castHom ℝ (s₀.cellEwma 3).cellCount *
      getScaleFactor _ (s₀.cellEwma 3).lastAdjustedTick 0 := hle 3 hmem
  rw [hten, hthree] at hle
  have hcounts : ((10 : ℚ) : ℝ) ≤ ((3 : ℚ) : ℝ) :=
    le_of_mul_le_mul_right hle ((EwmaScale.ofReal (1 / 10) hpos).pow_pos _)
  norm_num at hcounts

end Astoria
