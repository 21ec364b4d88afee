import Astoria.TorClient.Scheduler

/-!
# No lost wake-ups

The states of the channels against what the channels can do.  A channel that waits for cells has
none, a channel that waits to write accepts none, an idle one does neither, and a pending channel is
in the queue, unless `scheduler_run` has popped it.  So a channel with cells and room for them is
pending.

`scheduler_run` leaves this as it is as long as it does not stop in the middle of a channel because
of the high-water mark.  There it takes the channel for one without cells, and the channel waits
until more cells arrive, although it could send the ones that it has.
-/

namespace Astoria

open List
open Function

/-! ### States and channels -/

/-- The state of a channel says the truth about what the channel has and accepts. -/
def SchedulerState.Fits (cells writeable : ℕ) : SchedulerState → Prop
  | .idle => cells = 0 ∧ writeable = 0
  | .waitingForCells => cells = 0
  | .waitingToWrite => writeable = 0
  | .pending => True

/-- The states of the channels are right.  Some channels are pending but have been popped from the
queue. -/
structure Sched.Fits (popped : List ChanId) (s : Sched) : Prop where
  maxFlush_pos : 0 < s.schedMaxFlushCells.toNat
  indexed : s.channelsPending.Indexed
  nodup : popped.Nodup
  notMem : ∀ chan ∈ popped, chan ∉ s.channelsPending.contents
  pending_iff : ∀ chan, s.schedulerState chan = .pending ↔
    chan ∈ s.channelsPending.contents ∨ chan ∈ popped
  fits : ∀ chan, (s.schedulerState chan).Fits (s.cells chan) (s.numCellsWriteable chan)

section Channels

variable {s s' : Sched} {popped : List ChanId} {chan : ChanId} {n : ℕ} {state : SchedulerState}
  {writeable : ℕ}

lemma SchedulerState.Fits.eq_pending {cells : ℕ}
    (h : state.Fits cells writeable) (hcells : 0 < cells) (hwriteable : 0 < writeable) :
    state = .pending := by
  cases state with
  | idle => exact absurd h.1 (by omega)
  | waitingForCells => exact absurd h (ne_of_gt hcells)
  | waitingToWrite => exact absurd h (ne_of_gt hwriteable)
  | pending => rfl

lemma SchedulerState.Fits.mono {cells cells' writeable' : ℕ}
    (h : state.Fits cells writeable) (hcells : cells = 0 → cells' = 0)
    (hwriteable : writeable = 0 → writeable' = 0) : state.Fits cells' writeable' := by
  cases state with
  | idle => exact ⟨hcells h.1, hwriteable h.2⟩
  | waitingForCells => exact hcells h
  | waitingToWrite => exact hwriteable h
  | pending => trivial

/-- Whether the states are right depends on the states, the queue and the channels only. -/
lemma Sched.Fits.congr (h : s.Fits popped) (hqueue : s'.channelsPending = s.channelsPending)
    (hstate : s'.schedulerState = s.schedulerState)
    (hmax : s'.schedMaxFlushCells = s.schedMaxFlushCells) (hcells : s'.cells = s.cells)
    (hwriteable : s'.numCellsWriteable = s.numCellsWriteable) : s'.Fits popped where
  maxFlush_pos := hmax ▸ h.maxFlush_pos
  indexed := hqueue ▸ h.indexed
  nodup := h.nodup
  notMem := hqueue ▸ h.notMem
  pending_iff := by
    rw [hqueue, hstate]
    exact h.pending_iff
  fits := by
    rw [hstate, hcells, hwriteable]
    exact h.fits

lemma Sched.Fits.perm {popped' : List ChanId} (h : s.Fits popped) (hperm : popped.Perm popped') :
    s.Fits popped' where
  maxFlush_pos := h.maxFlush_pos
  indexed := h.indexed
  nodup := hperm.nodup_iff.mp h.nodup
  notMem chan hchan := h.notMem chan (hperm.mem_iff.mpr hchan)
  pending_iff chan := by rw [h.pending_iff, hperm.mem_iff]
  fits := h.fits

/-- The cells and the room of a channel change, and its state stays right. -/
lemma Sched.Fits.setChannel (h : s.Fits popped) {cells : ℕ}
    (hfits : (s.schedulerState chan).Fits cells writeable) :
    ((s.setCells chan cells).setWriteable chan writeable).Fits popped where
  maxFlush_pos := h.maxFlush_pos
  indexed := h.indexed
  nodup := h.nodup
  notMem := h.notMem
  pending_iff := h.pending_iff
  fits c := by
    dsimp only [Sched.setCells, Sched.setWriteable]
    by_cases hc : c = chan
    · rw [hc, update_self, update_self]
      exact hfits
    · rw [update_of_ne hc, update_of_ne hc]
      exact h.fits c

lemma Sched.Fits.setCells (h : s.Fits popped) {cells : ℕ}
    (hfits : (s.schedulerState chan).Fits cells (s.numCellsWriteable chan)) :
    (s.setCells chan cells).Fits popped :=
  (h.setChannel hfits).congr rfl rfl rfl rfl (update_eq_self chan _).symm

lemma Sched.Fits.setWriteable (h : s.Fits popped)
    (hfits : (s.schedulerState chan).Fits (s.cells chan) writeable) :
    (s.setWriteable chan writeable).Fits popped :=
  (h.setChannel hfits).congr rfl rfl rfl (update_eq_self chan _).symm rfl

/-- A channel that has been popped goes to a state that is right. -/
lemma Sched.Fits.settle (h : s.Fits (chan :: popped))
    (hstate : state ≠ .pending) (hfits : state.Fits (s.cells chan) (s.numCellsWriteable chan)) :
    (s.setState chan state).Fits popped where
  maxFlush_pos := h.maxFlush_pos
  indexed := h.indexed
  nodup := h.nodup.of_cons
  notMem c hc := h.notMem c (mem_cons_of_mem _ hc)
  pending_iff c := by
    dsimp only [Sched.setState]
    by_cases hc : c = chan
    · have hqueue := h.notMem c (hc ▸ mem_cons_self)
      have hpopped : c ∉ popped := hc ▸ (nodup_cons.mp h.nodup).1
      rw [hc, update_self]
      rw [hc] at hqueue hpopped
      simp only [hstate, hqueue, hpopped, or_self]
    · rw [update_of_ne hc, h.pending_iff, mem_cons, or_iff_right hc]
  fits c := by
    dsimp only [Sched.setState]
    by_cases hc : c = chan
    · rw [hc, update_self]
      exact hfits
    · rw [update_of_ne hc]
      exact h.fits c

/-- A channel that is not pending goes to a state that is right and is not the pending one. -/
lemma Sched.Fits.setState (h : s.Fits popped)
    (hold : s.schedulerState chan ≠ .pending) (hstate : state ≠ .pending)
    (hfits : state.Fits (s.cells chan) (s.numCellsWriteable chan)) :
    (s.setState chan state).Fits popped where
  maxFlush_pos := h.maxFlush_pos
  indexed := h.indexed
  nodup := h.nodup
  notMem := h.notMem
  pending_iff c := by
    dsimp only [Sched.setState]
    by_cases hc : c = chan
    · rw [← h.pending_iff, hc, update_self]
      exact iff_of_false hstate hold
    · rw [update_of_ne hc, h.pending_iff]
  fits c := by
    dsimp only [Sched.setState]
    by_cases hc : c = chan
    · rw [hc, update_self]
      exact hfits
    · rw [update_of_ne hc]
      exact h.fits c

/-- A channel that is not pending becomes pending, and is not in the queue yet. -/
lemma Sched.Fits.setPending (h : s.Fits popped) (hold : s.schedulerState chan ≠ .pending) :
    (s.setState chan .pending).Fits (chan :: popped) := by
  have hnot := fun hmem => hold ((h.pending_iff chan).mpr hmem)
  refine ⟨h.maxFlush_pos, h.indexed, nodup_cons.mpr ⟨fun hmem => hnot (.inr hmem), h.nodup⟩,
    fun c hc => ?_, fun c => ?_, fun c => ?_⟩
  · rcases mem_cons.mp hc with rfl | hc
    · exact fun hmem => hnot (.inl hmem)
    · exact h.notMem c hc
  · dsimp only [Sched.setState]
    by_cases hc : c = chan
    · rw [hc, update_self]
      exact iff_of_true rfl (.inr mem_cons_self)
    · rw [update_of_ne hc, h.pending_iff, mem_cons, or_iff_right hc]
  · dsimp only [Sched.setState]
    by_cases hc : c = chan
    · rw [hc, update_self]
      trivial
    · rw [update_of_ne hc]
      exact h.fits c

/-- A channel that has been popped is added to the queue. -/
lemma Sched.Fits.addPending (h : s.Fits (chan :: popped)) : (addPending s chan).Fits popped := by
  obtain ⟨hindexed, -, hcont⟩ :=
    h.indexed.add (schedulerCompareChannels s) (h.notMem chan mem_cons_self)
  refine ⟨h.maxFlush_pos, hindexed, h.nodup.of_cons, fun c hc hmem => ?_, fun c => ?_, h.fits⟩
  · have hmem' := hcont ▸ hmem
    rcases Finset.mem_insert.mp hmem' with rfl | hmem'
    · exact (nodup_cons.mp h.nodup).1 hc
    · exact h.notMem c (mem_cons_of_mem _ hc) hmem'
  · have hqueue : c ∈ (Astoria.addPending s chan).channelsPending.contents ↔
        c = chan ∨ c ∈ s.channelsPending.contents := by
      rw [← Finset.mem_insert]
      exact Iff.of_eq (congrArg (c ∈ ·) hcont)
    refine (h.pending_iff c).trans ?_
    rw [hqueue, mem_cons, or_left_comm, or_assoc]

/-- A channel of the queue is popped from it, or removed. -/
lemma Sched.Fits.takePending (h : s.Fits popped) {q : Pqueue ChanId}
    (hchan : chan ∈ s.channelsPending.contents) (hindexed : q.Indexed)
    (hcont : q.contents = s.channelsPending.contents.erase chan) :
    Sched.Fits (chan :: popped) { s with channelsPending := q } := by
  have hnot : chan ∉ popped := fun hmem => h.notMem chan hmem hchan
  refine ⟨h.maxFlush_pos, hindexed, nodup_cons.mpr ⟨hnot, h.nodup⟩, fun c hc => ?_, fun c => ?_,
    h.fits⟩
  · dsimp only
    rw [hcont, Finset.mem_erase]
    rcases mem_cons.mp hc with rfl | hc
    · exact fun hmem => hmem.1 rfl
    · exact fun hmem => h.notMem c hc hmem.2
  · refine (h.pending_iff c).trans ?_
    dsimp only
    rw [hcont, Finset.mem_erase, mem_cons]
    by_cases hc : c = chan
    · subst hc
      exact iff_of_true (.inl hchan) (.inr (.inl rfl))
    · rw [and_iff_right hc, or_iff_right hc]

lemma Sched.Fits.exists_removePending (h : s.Fits popped)
    (hchan : chan ∈ s.channelsPending.contents) :
    ∃ q, removePending s chan = some { s with channelsPending := q } ∧
      Sched.Fits (chan :: popped) { s with channelsPending := q } := by
  obtain ⟨q, hq, hindexed, -, hcont, -⟩ :=
    h.indexed.exists_remove (schedulerCompareChannels s) hchan
  refine ⟨q, ?_, h.takePending hchan hindexed hcont⟩
  rw [removePending, hq]
  rfl

lemma Sched.Fits.exists_pop (h : s.Fits popped) (hn : s.channelsPending.numUsed = n + 1) :
    ∃ q chan, smartlistPqueuePop (schedulerCompareChannels s) s.channelsPending = some (q, chan) ∧
      q.numUsed = n ∧ Sched.Fits (chan :: popped) { s with channelsPending := q } := by
  obtain ⟨q, chan, hq, hchan, hindexed, hnum, hcont⟩ :=
    h.indexed.exists_pop (schedulerCompareChannels s) hn
  exact ⟨q, chan, hq, hnum, h.takePending hchan hindexed hcont⟩

end Channels

/-! ### The queue heuristic -/

section Heuristic

variable {s : Sched} {popped : List ChanId}

lemma exists_schedulerUpdateQueueHeuristic (s : Sched) (now : ℤ) :
    ∃ heuristic timestamp, schedulerUpdateQueueHeuristic s now =
      { s with queueHeuristic := heuristic, queueHeuristicTimestamp := timestamp } := by
  unfold schedulerUpdateQueueHeuristic
  split_ifs
  · exact ⟨_, _, rfl⟩
  · exact ⟨_, _, rfl⟩
  · exact ⟨_, _, rfl⟩

/-- Adjusting the heuristic changes it and its time only. -/
lemma exists_schedulerAdjustQueueSize (s : Sched) (dir : ℤ) (adj : UInt64) :
    ∃ heuristic timestamp, schedulerAdjustQueueSize s dir adj =
      { s with queueHeuristic := heuristic, queueHeuristicTimestamp := timestamp } := by
  obtain ⟨heuristic, timestamp, heq⟩ := exists_schedulerUpdateQueueHeuristic s s.approxTime
  unfold schedulerAdjustQueueSize
  dsimp only
  rw [heq]
  split_ifs
  · exact ⟨_, _, rfl⟩
  · exact ⟨_, _, rfl⟩
  · exact ⟨_, _, rfl⟩

lemma Sched.Fits.adjustQueueSize (h : s.Fits popped) (dir : ℤ) (adj : UInt64) :
    (schedulerAdjustQueueSize s dir adj).Fits popped ∧
      (schedulerAdjustQueueSize s dir adj).channelsPending = s.channelsPending ∧
      (schedulerAdjustQueueSize s dir adj).cells = s.cells := by
  obtain ⟨heuristic, timestamp, heq⟩ := exists_schedulerAdjustQueueSize s dir adj
  rw [heq]
  exact ⟨h.congr rfl rfl rfl rfl rfl, rfl, rfl⟩

/-- Adjustments keep the states right. -/
lemma Sched.Fits.foldl_adjust (h : s.Fits popped) (adjustments : List (ℤ × UInt64)) :
    (adjustments.foldl (fun s adj => schedulerAdjustQueueSize s adj.1 adj.2) s).Fits popped ∧
      (adjustments.foldl (fun s adj => schedulerAdjustQueueSize s adj.1 adj.2) s).channelsPending =
        s.channelsPending ∧
      (adjustments.foldl (fun s adj => schedulerAdjustQueueSize s adj.1 adj.2) s).cells =
        s.cells := by
  induction adjustments generalizing s with
  | nil => exact ⟨h, rfl, rfl⟩
  | cons adj rest ih =>
    obtain ⟨hadj, hqueue, hcells⟩ := h.adjustQueueSize adj.1 adj.2
    obtain ⟨hrest, hqueue', hcells'⟩ := ih hadj
    exact ⟨hrest, hqueue'.trans hqueue, hcells'.trans hcells⟩

lemma Sched.Fits.getQueueHeuristic (h : s.Fits popped) :
    (schedulerGetQueueHeuristic s).Fits popped ∧
      (schedulerGetQueueHeuristic s).channelsPending = s.channelsPending ∧
      (schedulerGetQueueHeuristic s).cells = s.cells := by
  obtain ⟨heuristic, timestamp, heq⟩ := exists_schedulerUpdateQueueHeuristic s s.approxTime
  rw [schedulerGetQueueHeuristic, heq]
  exact ⟨h.congr rfl rfl rfl rfl rfl, rfl, rfl⟩

end Heuristic

/-! ### Running the scheduler -/

section Running

variable {s : Sched} {popped : List ChanId} {chan : ChanId}

/-- A channel that has been popped is flushed.  If nothing is flushed, it has no cells. -/
lemma Sched.Fits.flushSomeCells (h : s.Fits popped) (hchan : chan ∈ popped) (numCells : ℕ) :
    (channelFlushSomeCells s chan numCells).1.Fits popped ∧
      (channelFlushSomeCells s chan numCells).1.channelsPending = s.channelsPending ∧
      (0 < numCells → (channelFlushSomeCells s chan numCells).2 = 0 →
        (channelFlushSomeCells s chan numCells).1.cells chan = 0) := by
  have hpending := (h.pending_iff chan).mpr (.inr hchan)
  unfold channelFlushSomeCells
  dsimp only
  generalize s.answers.headD _ = answer
  have hfits : (s.schedulerState chan).Fits
      (s.cells chan - min (min numCells (s.cells chan)) (answer.more + 1)) answer.writeable := by
    rw [hpending]
    trivial
  have hchannel : Sched.Fits popped
      { (s.setCells chan
        (s.cells chan - min (min numCells (s.cells chan)) (answer.more + 1))).setWriteable
          chan answer.writeable with
        compareMuxes := answer.compareMuxes, answers := s.answers.tail } :=
    (h.setChannel hfits).congr rfl rfl rfl rfl rfl
  obtain ⟨hfold, hqueue, hcells⟩ := hchannel.foldl_adjust answer.adjustments
  refine ⟨hfold, hqueue, fun hpos hzero => ?_⟩
  refine (congrFun hcells chan).trans ?_
  dsimp only [Sched.setCells, Sched.setWriteable]
  rw [update_self]
  omega

/-- The flushes of a channel that are not cut short use the allowance, or all cells. -/
lemma Sched.Fits.flushAllowance {nCells fuel flushed : ℕ} (h : s.Fits popped)
    (hchan : chan ∈ popped) (hfuel : nCells ≤ flushed + fuel)
    (hcut : allowanceCut chan nCells fuel flushed s = false) :
    (flushAllowance chan nCells fuel flushed s).1.Fits popped ∧
      (flushAllowance chan nCells fuel flushed s).1.channelsPending = s.channelsPending ∧
      ((flushAllowance chan nCells fuel flushed s).2 < nCells →
        (flushAllowance chan nCells fuel flushed s).1.cells chan = 0) := by
  induction fuel generalizing flushed s with
  | zero => exact ⟨h, rfl, fun hlt => absurd hlt (by simpa [Astoria.flushAllowance] using hfuel)⟩
  | succ fuel ih =>
    obtain ⟨hget, hqueue, hcells⟩ := h.getQueueHeuristic
    unfold Astoria.flushAllowance
    unfold allowanceCut at hcut
    by_cases hlt : flushed < nCells
    · rw [if_pos hlt] at hcut ⊢
      by_cases hbelow : belowHighWater s
      · rw [if_pos hbelow] at hcut ⊢
        dsimp only at hcut ⊢
        have hmax := h.maxFlush_pos
        obtain ⟨hflush, hqueue', hzero⟩ := hget.flushSomeCells hchan
          (min s.schedMaxFlushCells.toNat (nCells - flushed))
        by_cases hnone : (channelFlushSomeCells (schedulerGetQueueHeuristic s) chan
            (min s.schedMaxFlushCells.toNat (nCells - flushed))).2 = 0
        · rw [if_pos hnone]
          exact ⟨hflush, hqueue'.trans hqueue, fun _ => hzero (by omega) hnone⟩
        · rw [if_neg hnone] at hcut ⊢
          obtain ⟨hrest, hqueue₂, hdone⟩ := ih hflush (by omega) hcut
          exact ⟨hrest, (hqueue₂.trans hqueue').trans hqueue, hdone⟩
      · rw [if_neg hbelow] at hcut ⊢
        refine ⟨hget, hqueue, fun _ => ?_⟩
        dsimp only
        rw [hcells]
        exact Nat.eq_zero_of_not_pos (of_decide_eq_false hcut)
    · rw [if_neg hlt]
      exact ⟨h, rfl, fun hlt' => absurd hlt' hlt⟩

/-- The state after the flushes that are not cut short is right. -/
lemma stateAfterFlush_fits {nCells flushed : ℕ} {state : SchedulerState}
    (hdone : flushed < nCells → s.cells chan = 0)
    (hstate : stateAfterFlush s chan nCells flushed = some state) :
    state ≠ .pending ∧ state.Fits (s.cells chan) (s.numCellsWriteable chan) := by
  unfold stateAfterFlush at hstate
  split_ifs at hstate with hlt hcells hroom hroom
  · obtain rfl := Option.some.inj hstate
    exact ⟨nofun, hdone hlt⟩
  · obtain rfl := Option.some.inj hstate
    exact ⟨nofun, Nat.eq_zero_of_not_pos hroom⟩
  · obtain rfl := Option.some.inj hstate
    exact ⟨nofun, Nat.eq_zero_of_not_pos hcells⟩
  · obtain rfl := Option.some.inj hstate
    exact ⟨nofun, Nat.eq_zero_of_not_pos hcells, Nat.eq_zero_of_not_pos hroom⟩

variable {toReadd : List ChanId}

lemma Sched.Fits.handlePopped (h : s.Fits (chan :: toReadd))
    (hcut : allowanceCut chan (s.numCellsWriteable chan) (s.numCellsWriteable chan) 0 s = false) :
    (handlePopped s chan toReadd).1.Fits (handlePopped s chan toReadd).2 ∧
      (handlePopped s chan toReadd).1.channelsPending = s.channelsPending := by
  unfold Astoria.handlePopped
  dsimp only
  by_cases hroom : 0 < s.numCellsWriteable chan
  · rw [if_pos hroom]
    obtain ⟨hflush, hqueue, hdone⟩ :=
      h.flushAllowance mem_cons_self (Nat.le_add_left _ _) hcut
    cases hstate : stateAfterFlush (Astoria.flushAllowance chan (s.numCellsWriteable chan)
        (s.numCellsWriteable chan) 0 s).1 chan (s.numCellsWriteable chan)
        (Astoria.flushAllowance chan (s.numCellsWriteable chan) (s.numCellsWriteable chan) 0
          s).2 with
    | some state =>
      obtain ⟨hne, hfits⟩ := stateAfterFlush_fits hdone hstate
      exact ⟨hflush.settle hne hfits, hqueue⟩
    | none => exact ⟨hflush.perm (perm_append_singleton chan toReadd).symm, hqueue⟩
  · rw [if_neg hroom]
    exact ⟨h.settle nofun (Nat.eq_zero_of_not_pos hroom), rfl⟩

/-- The channels of the queue are handled, and no flushes are cut short. -/
lemma Sched.Fits.exists_runPending {fuel : ℕ} (h : s.Fits toReadd)
    (hcut : pendingCut fuel s toReadd = false) :
    ∃ r, runPending fuel s toReadd = some r ∧ r.1.Fits r.2 := by
  induction fuel generalizing s toReadd with
  | zero => exact ⟨_, rfl, h.getQueueHeuristic.1⟩
  | succ fuel ih =>
    obtain ⟨hget, hqueue, -⟩ := h.getQueueHeuristic
    unfold runPending
    unfold pendingCut at hcut
    dsimp only at hcut ⊢
    by_cases hmore : belowHighWater s ∧ 0 < (schedulerGetQueueHeuristic s).channelsPending.numUsed
    · rw [if_pos hmore] at hcut ⊢
      obtain ⟨n, hn⟩ := Nat.exists_eq_succ_of_ne_zero (ne_of_gt hmore.2)
      obtain ⟨q, chan, hpop, hnum, hpopped⟩ := hget.exists_pop hn
      rw [hpop] at hcut ⊢
      obtain ⟨hnow, hrest⟩ := Bool.or_eq_false_iff.mp hcut
      exact ih (hpopped.handlePopped hnow).1 hrest
    · rw [if_neg hmore]
      exact ⟨_, rfl, hget⟩

/-- The channels that are still pending are added to the queue again. -/
lemma Sched.Fits.foldl_readd (h : s.Fits toReadd) : (toReadd.foldl readdPending s).Fits [] := by
  induction toReadd generalizing s with
  | nil => exact h
  | cons chan rest ih =>
    have hpending := (h.pending_iff chan).mpr (.inr mem_cons_self)
    have hself : s.setState chan .pending = s := by
      unfold Sched.setState
      rw [← hpending, update_eq_self]
    rw [foldl_cons, readdPending, hself]
    exact ih h.addPending

/-- **Running the scheduler** keeps the states right if no flushes are cut short. -/
lemma Sched.Fits.exists_schedulerRun (h : s.Fits []) (hcut : s.cutShort = false) :
    ∃ s', schedulerRun s = some s' ∧ s'.Fits [] := by
  obtain ⟨hget, -, -⟩ := h.getQueueHeuristic
  unfold schedulerRun
  unfold Sched.cutShort at hcut
  dsimp only at hcut ⊢
  by_cases hlow : (schedulerGetQueueHeuristic s).queueHeuristic <
      (schedulerGetQueueHeuristic s).schedQLowWater.toUInt64
  · rw [if_pos hlow]
    rw [decide_eq_true hlow, Bool.true_and] at hcut
    obtain ⟨r, hrun, hfits⟩ := hget.exists_runPending hcut
    rw [hrun]
    exact ⟨_, rfl, hfits.foldl_readd⟩
  · rw [if_neg hlow]
    exact ⟨_, rfl, hget⟩

end Running

/-! ### Runs -/

section Events

variable {s : Sched} {chan : ChanId}

section

variable (h : s.Fits [])

include h

lemma Sched.Fits.hasWaitingCells (chan : ChanId) (cells : ℕ) :
    (schedulerChannelHasWaitingCells (s.setCells chan cells) chan).Fits [] := by
  have hold := h.fits chan
  unfold schedulerChannelHasWaitingCells
  have hsame : (s.setCells chan cells).schedulerState chan = s.schedulerState chan := rfl
  rw [hsame]
  split_ifs with hcells hother
  · -- the channel is pending, and then has cells
    have hne : s.schedulerState chan ≠ .pending := by
      rw [hcells]
      nofun
    have hpending : Sched.Fits [chan] ((s.setState chan .pending).setCells chan cells) := by
      refine (h.setPending hne).setCells ?_
      dsimp only [Sched.setState]
      rw [update_self]
      trivial
    exact hpending.addPending.congr rfl rfl rfl rfl rfl
  · refine h.setCells ?_
    rcases hother with hstate | hstate
    · rw [hstate] at hold ⊢
      exact hold
    · rw [hstate]
      trivial
  · -- the channel waits to write, and then has cells
    have hidle : s.schedulerState chan = .idle := by
      cases hstate : s.schedulerState chan with
      | idle => rfl
      | waitingForCells => exact absurd hstate hcells
      | waitingToWrite => exact absurd (.inl hstate) hother
      | pending => exact absurd (.inr hstate) hother
    rw [hidle] at hold
    have hne : s.schedulerState chan ≠ .pending := by
      rw [hidle]
      nofun
    refine Sched.Fits.setCells (s := s.setState chan .waitingToWrite)
      (h.setState hne nofun hold.2) ?_
    dsimp only [Sched.setState]
    rw [update_self]
    exact hold.2

/-- A channel that accepts cells reports it. -/
lemma Sched.Fits.wantsWrites (chan : ChanId) (writeable : ℕ) :
    (schedulerChannelWantsWrites (s.setWriteable chan writeable) chan).Fits [] := by
  have hold := h.fits chan
  unfold schedulerChannelWantsWrites
  have hsame : (s.setWriteable chan writeable).schedulerState chan = s.schedulerState chan := rfl
  rw [hsame]
  split_ifs with hwrite hother
  · have hne : s.schedulerState chan ≠ .pending := by
      rw [hwrite]
      nofun
    have hpending : Sched.Fits [chan] ((s.setState chan .pending).setWriteable chan writeable) := by
      refine (h.setPending hne).setWriteable ?_
      dsimp only [Sched.setState]
      rw [update_self]
      trivial
    exact hpending.addPending.congr rfl rfl rfl rfl rfl
  · refine h.setWriteable ?_
    rcases hother with hstate | hstate
    · rw [hstate] at hold ⊢
      exact hold
    · rw [hstate]
      trivial
  · have hidle : s.schedulerState chan = .idle := by
      cases hstate : s.schedulerState chan with
      | idle => rfl
      | waitingForCells => exact absurd (.inl hstate) hother
      | waitingToWrite => exact absurd hstate hwrite
      | pending => exact absurd (.inr hstate) hother
    rw [hidle] at hold
    have hne : s.schedulerState chan ≠ .pending := by
      rw [hidle]
      nofun
    refine Sched.Fits.setWriteable (s := s.setState chan .waitingForCells)
      (h.setState hne nofun hold.1) ?_
    dsimp only [Sched.setState]
    rw [update_self]
    exact hold.1

/-- A channel that accepts no cells any longer reports it. -/
lemma Sched.Fits.exists_doesntWantWrites (chan : ChanId) :
    ∃ s', schedulerChannelDoesntWantWrites (s.setWriteable chan 0) chan = some s' ∧ s'.Fits [] := by
  have hzero : (s.setWriteable chan 0).Fits [] :=
    h.setWriteable ((h.fits chan).mono id fun _ => rfl)
  have hnone : (s.setWriteable chan 0).numCellsWriteable chan = 0 := update_self _ _ _
  unfold schedulerChannelDoesntWantWrites
  split_ifs with hpending hcells
  · have hmem := ((hzero.pending_iff chan).mp hpending).resolve_right not_mem_nil
    obtain ⟨q, hq, hremoved⟩ := hzero.exists_removePending hmem
    rw [hq]
    exact ⟨_, rfl, hremoved.settle nofun hnone⟩
  · have hold := hzero.fits chan
    rw [hcells] at hold
    exact ⟨_, rfl, hzero.setState (by rw [hcells]; nofun) nofun ⟨hold, hnone⟩⟩
  · exact ⟨_, rfl, hzero⟩

lemma Sched.Fits.exists_release (chan : ChanId) :
    ∃ s', schedulerReleaseChannel ((s.setCells chan 0).setWriteable chan 0) chan = some s' ∧
      s'.Fits [] := by
  have hzero : ((s.setCells chan 0).setWriteable chan 0).Fits [] :=
    h.setChannel ((h.fits chan).mono (fun _ => rfl) fun _ => rfl)
  have hidle : SchedulerState.idle.Fits (((s.setCells chan 0).setWriteable chan 0).cells chan)
      (((s.setCells chan 0).setWriteable chan 0).numCellsWriteable chan) :=
    ⟨update_self _ _ _, update_self _ _ _⟩
  unfold schedulerReleaseChannel
  split_ifs with hpending
  · have hmem := ((hzero.pending_iff chan).mp hpending).resolve_right not_mem_nil
    obtain ⟨q, hq, hremoved⟩ := hzero.exists_removePending hmem
    rw [hq]
    exact ⟨_, rfl, hremoved.settle nofun hidle⟩
  · exact ⟨_, rfl, hzero.setState hpending nofun hidle⟩

/-- The position of a channel in the queue is brought up to date. -/
lemma Sched.Fits.exists_touch (chan : ChanId) :
    ∃ s', schedulerTouchChannel s chan = some s' ∧ s'.Fits [] := by
  unfold schedulerTouchChannel
  split_ifs with hpending
  · have hmem := ((h.pending_iff chan).mp hpending).resolve_right not_mem_nil
    obtain ⟨q, hq, hremoved⟩ := h.exists_removePending hmem
    rw [hq]
    exact ⟨_, rfl, hremoved.addPending⟩
  · exact ⟨_, rfl, h⟩

lemma Sched.Fits.exists_callback (hcut : Sched.cutShort { s with runSchedEv := false } = false) :
    ∃ s', schedulerEvtCallback s = some s' ∧ s'.Fits [] := by
  have hoff : Sched.Fits [] { s with runSchedEv := false } := h.congr rfl rfl rfl rfl rfl
  obtain ⟨s₁, hrun, h₁⟩ := hoff.exists_schedulerRun hcut
  obtain ⟨hget, -, -⟩ := h₁.getQueueHeuristic
  unfold schedulerEvtCallback
  rw [hrun]
  refine ⟨_, rfl, ?_⟩
  split_ifs
  · exact hget.congr rfl rfl rfl rfl rfl
  · exact hget

/-- **One event** that is truthful and cuts no flushes short. -/
lemma Sched.Fits.exists_schedStep {ev : SchedEvent} (htruthful : ev.Truthful s)
    (hcut : ¬ ev.CutShort s) : ∃ s', schedStep s ev = some s' ∧ s'.Fits [] := by
  cases ev with
  | hasWaitingCells chan cells => exact ⟨_, rfl, h.hasWaitingCells chan cells⟩
  | wantsWrites chan writeable => exact ⟨_, rfl, h.wantsWrites chan writeable⟩
  | doesntWantWrites chan => exact h.exists_doesntWantWrites chan
  | release chan => exact h.exists_release chan
  | run answers =>
    have hanswers : Sched.Fits [] { s with answers := answers } := h.congr rfl rfl rfl rfl rfl
    exact hanswers.exists_schedulerRun (Bool.eq_false_of_not_eq_true hcut)
  | callback answers =>
    have hanswers : Sched.Fits [] { s with answers := answers } := h.congr rfl rfl rfl rfl rfl
    exact hanswers.exists_callback (Bool.eq_false_of_not_eq_true hcut)
  | touch chan compareMuxes =>
    have hmuxes : Sched.Fits [] { s with compareMuxes := compareMuxes } :=
      h.congr rfl rfl rfl rfl rfl
    exact hmuxes.exists_touch chan
  | adjust dir adj => exact ⟨_, rfl, (h.adjustQueueSize dir adj).1⟩
  | change chan cells writeable compareMuxes =>
    obtain ⟨hcells, hwriteable⟩ := htruthful
    exact ⟨_, rfl,
      (h.setChannel ((h.fits chan).mono hcells hwriteable)).congr rfl rfl rfl rfl rfl⟩
  | setPolicy chan policy => exact ⟨_, rfl, h.congr rfl rfl rfl rfl rfl⟩
  | setWatermarks lo hi maxFlush =>
    have hpos : 0 < maxFlush.toNat := htruthful.2.2
    refine ⟨_, if_pos htruthful, ⟨hpos, h.indexed, h.nodup, h.notMem, h.pending_iff, h.fits⟩⟩
  | tick now => exact ⟨_, rfl, h.congr rfl rfl rfl rfl rfl⟩

end

/-- The states are right when the scheduler has been set up. -/
lemma fits_schedulerInit (now : ℤ) : (schedulerInit now).Fits [] where
  maxFlush_pos := Nat.zero_lt_succ 15
  indexed _ hi := absurd hi (Nat.not_lt_zero _)
  nodup := nodup_nil
  notMem _ := nofun
  pending_iff _ := by
    refine iff_of_false nofun ?_
    rintro (hmem | hmem)
    · obtain ⟨i, hi, -⟩ := Pqueue.mem_contents.mp hmem
      exact absurd hi (Nat.not_lt_zero _)
    · exact not_mem_nil hmem
  fits _ := ⟨rfl, rfl⟩

/-- **No lost wake-up.**  In every run in which the channels' conditions are reported truthfully and
no run of the scheduler cuts the flushes of a channel short, the calls succeed, and every channel
that has cells and accepts some is pending and in the queue. -/
theorem scheduler_pending_of_ready (now : ℤ) (events : List SchedEvent)
    (hevents : Runs.MeetsAlong schedStep (fun s ev => ev.Truthful s ∧ ¬ ev.CutShort s) events
      (schedulerInit now)) :
    ∃ s, schedSteps (schedulerInit now) events = some s ∧
      ∀ chan, 0 < s.cells chan → 0 < s.numCellsWriteable chan →
        s.schedulerState chan = .pending ∧ chan ∈ s.channelsPending.contents := by
  have hstep : ∀ (s : Sched) (ev : SchedEvent), s.Fits [] → ev.Truthful s ∧ ¬ ev.CutShort s →
      ∃ s', schedStep s ev = some s' ∧ s'.Fits [] :=
    fun s ev h hev => h.exists_schedStep hev.1 hev.2
  obtain ⟨s, hrun, hfits⟩ := hevents.exists_foldlM hstep (fits_schedulerInit now)
  refine ⟨s, hrun, fun chan hcells hwriteable => ?_⟩
  have hpending := (hfits.fits chan).eq_pending hcells hwriteable
  exact ⟨hpending, ((hfits.pending_iff chan).mp hpending).resolve_right not_mem_nil⟩

end Events

/-- A channel accepts 64 of its 70 cells, has accepted them after four flushes, and accepts ten
more. -/
theorem scheduler_pending_of_ready_seventy :
    ∃ s, schedSteps (schedulerInit 1000) [.wantsWrites 1 64, .hasWaitingCells 1 70,
        .run [⟨15, 48, [(1, 100)], fun _ _ => 0⟩, ⟨15, 32, [(1, 100)], fun _ _ => 0⟩,
          ⟨15, 16, [(1, 100)], fun _ _ => 0⟩, ⟨15, 10, [(1, 100)], fun _ _ => 0⟩]] = some s ∧
      ∀ chan, 0 < s.cells chan → 0 < s.numCellsWriteable chan →
        s.schedulerState chan = .pending ∧ chan ∈ s.channelsPending.contents := by
  refine scheduler_pending_of_ready 1000 _ ?_
  refine ⟨⟨Nat.zero_lt_succ 63, id⟩, fun s₁ h₁ => ⟨⟨Nat.zero_lt_succ 69, id⟩, fun s₂ h₂ =>
    ⟨⟨trivial, ?_⟩, fun _ _ => trivial⟩⟩⟩
  obtain rfl := Option.some.inj h₁
  obtain rfl := Option.some.inj h₂
  show ¬ Sched.cutShort _ = true
  decide +kernel

/-- The heuristic goes over the high-water mark in the middle of a channel.  The channel has 22
cells left and accepts 16, but it waits for cells and is not in the queue. -/
theorem not_scheduler_pending_of_ready :
    let events : List SchedEvent := [.wantsWrites 1 64, .hasWaitingCells 1 70, .adjust 1 16000,
      .run [⟨15, 48, [(1, 8224)], fun _ _ => 0⟩, ⟨15, 32, [(1, 8224)], fun _ _ => 0⟩,
        ⟨15, 16, [(1, 8224)], fun _ _ => 0⟩]]
    Runs.MeetsAlong schedStep (fun s ev => ev.Truthful s) events (schedulerInit 1000) ∧
      ∃ s, schedSteps (schedulerInit 1000) events = some s ∧ s.cells 1 = 22 ∧
        s.numCellsWriteable 1 = 16 ∧ s.schedulerState 1 = .waitingForCells ∧
        1 ∉ s.channelsPending.contents := by
  refine ⟨⟨Nat.zero_lt_succ 63, fun _ _ => ⟨Nat.zero_lt_succ 69, fun _ _ => ⟨trivial, fun _ _ =>
    ⟨trivial, fun _ _ => trivial⟩⟩⟩⟩, _, rfl, ?_⟩
  decide +kernel

end Astoria
