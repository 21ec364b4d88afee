import Mathlib.Algebra.BigOperators.Group.Finset.Basic
import Astoria.Library.Outcomes
import Astoria.TorClient.ChannelQueue

/-!
# Cells reach the lower layer in order

What has been written to a channel is what its lower layer has taken, followed by what is in its
queue. The size of the queue and the global counters say how much that is, so that the assertion
about the counters holds.  Every call and every change of a state keeps this, whatever the lower
layers answer.
-/

namespace Astoria

open List
open Outcomes
open Function

variable {ι α : Type*} [DecidableEq ι]

/-! ### What is counted -/

def entriesSize (wideCircIds : Bool) (l : List (CellQueueEntry α)) : ℕ :=
  (l.map (channelGetCellQueueEntrySize wideCircIds)).sum

lemma entriesSize_append (wideCircIds : Bool) (l₁ l₂ : List (CellQueueEntry α)) :
    entriesSize wideCircIds (l₁ ++ l₂) =
      entriesSize wideCircIds l₁ + entriesSize wideCircIds l₂ := by
  unfold entriesSize
  rw [map_append, sum_append]

lemma entriesSize_cons (wideCircIds : Bool) (q : CellQueueEntry α) (l : List (CellQueueEntry α)) :
    entriesSize wideCircIds (q :: l) =
      channelGetCellQueueEntrySize wideCircIds q + entriesSize wideCircIds l :=
  rfl

lemma entriesSize_singleton (wideCircIds : Bool) (q : CellQueueEntry α) :
    entriesSize wideCircIds [q] = channelGetCellQueueEntrySize wideCircIds q :=
  add_zero _

/-- The counters of some channels: how many cells have been taken and are in queues, and their
bytes. -/
structure Channels.Counted (channels : Finset ι) (s : Channels ι α) : Prop where
  cellsInQueues : s.nChannelCellsInQueues =
    UInt64.ofNat (∑ c ∈ channels, (s.chan c).outgoingQueue.length)
  cellsPassed : s.nChannelCellsPassedToLowerLayer =
    UInt64.ofNat (∑ c ∈ channels, (s.lowerLayer c).length)
  bytesInQueues : s.nChannelBytesInQueues =
    UInt64.ofNat (∑ c ∈ channels, entriesSize (s.chan c).wideCircIds (s.chan c).outgoingQueue)
  bytesPassed : s.nChannelBytesPassedToLowerLayer =
    UInt64.ofNat (∑ c ∈ channels, entriesSize (s.chan c).wideCircIds (s.lowerLayer c))
  cellsQueued : s.nChannelCellsQueued = s.nChannelCellsInQueues + s.nChannelCellsPassedToLowerLayer
  bytesQueued : s.nChannelBytesQueued = s.nChannelBytesInQueues + s.nChannelBytesPassedToLowerLayer

/-- The channels are right, where some cells have been written to each. -/
structure Channels.Ok (channels : Finset ι) (wide : ι → Bool)
    (written : ι → List (CellQueueEntry α)) (s : Channels ι α) : Prop where
  wideCircIds : ∀ c, (s.chan c).wideCircIds = wide c
  order : ∀ c, written c = s.lowerLayer c ++ (s.chan c).outgoingQueue
  outside : ∀ c, c ∉ channels → written c = []
  hasCell : ∀ c, ∀ q ∈ (s.chan c).outgoingQueue, q.hasCell
  bytesInQueue : ∀ c, (s.chan c).bytesInQueue =
    UInt64.ofNat (entriesSize (wide c) (s.chan c).outgoingQueue)
  counted : s.Counted channels

/-! ### What does not matter -/

/-- A channel without what is only counted for the statistics and for the scheduler. -/
def Channel.view (chan : Channel α) : Channel α :=
  { chan with state := .closed, nCellsXmitted := 0, nBytesXmitted := 0, bytesQueuedForXmit := 0 }

/-- The channels without what is only counted for the statistics and for the scheduler. -/
def Channels.view (s : Channels ι α) : Channels ι α :=
  { s with
    chan := fun c => (s.chan c).view
    estimatedTotalQueueSize := 0
    answers := []
    estimates := [] }

section View

variable {s s' : Channels ι α} {c : ι} {channels : Finset ι} {wide : ι → Bool}
  {written : ι → List (CellQueueEntry α)}

omit [DecidableEq ι] in
lemma Channels.ok_view : s.view.Ok channels wide written ↔ s.Ok channels wide written := by
  constructor
  · rintro ⟨hwide, horder, houtside, hcell, hbytes, ⟨h₁, h₂, h₃, h₄, h₅, h₆⟩⟩
    exact ⟨hwide, horder, houtside, hcell, hbytes, ⟨h₁, h₂, h₃, h₄, h₅, h₆⟩⟩
  · rintro ⟨hwide, horder, houtside, hcell, hbytes, ⟨h₁, h₂, h₃, h₄, h₅, h₆⟩⟩
    exact ⟨hwide, horder, houtside, hcell, hbytes, ⟨h₁, h₂, h₃, h₄, h₅, h₆⟩⟩

omit [DecidableEq ι] in
lemma Channels.Ok.congr (h : s.Ok channels wide written) (hview : s'.view = s.view) :
    s'.Ok channels wide written := by
  rw [← Channels.ok_view, hview, Channels.ok_view]
  exact h

omit [DecidableEq ι] in
lemma Channels.written_eq_of_view (hview : s'.view = s.view) : s'.written = s.written :=
  show s'.view.written = s.view.written by rw [hview]

omit [DecidableEq ι] in
lemma Channels.Ok.setWritten (h : s.Ok channels wide written)
    (record : ι → List (CellQueueEntry α)) :
    Channels.Ok channels wide written { s with written := record } := by
  obtain ⟨hwide, horder, houtside, hcell, hbytes, ⟨h₁, h₂, h₃, h₄, h₅, h₆⟩⟩ := h
  exact ⟨hwide, horder, houtside, hcell, hbytes, ⟨h₁, h₂, h₃, h₄, h₅, h₆⟩⟩

@[simp] lemma Channels.set_chan_self (s : Channels ι α) (c : ι) (chan : Channel α) :
    (s.set c chan).chan c = chan :=
  update_self _ _ _

/-- A channel that looks the same is put in the place of another. -/
lemma Channels.view_set {chan : Channel α} (h : chan.view = (s.chan c).view) :
    (s.set c chan).view = s.view := by
  have hchan : (fun d => ((s.set c chan).chan d).view) = fun d => (s.chan d).view := by
    funext d
    dsimp only [Channels.set]
    by_cases hd : d = c
    · rw [hd, update_self, h]
    · rw [update_of_ne hd]
  unfold Channels.view
  rw [hchan]
  rfl

/-- Updating the estimate changes nothing that matters. -/
lemma view_channelUpdateXmitQueueSize (s : Channels ι α) (c : ι) :
    (channelUpdateXmitQueueSize s c).view = s.view := by
  unfold channelUpdateXmitQueueSize
  dsimp only
  cases (s.estimates.headD (0, none)).2
  all_goals
    dsimp only
    split_ifs
    all_goals
      first
      | rfl
      | exact Channels.view_set (s := { s with estimates := s.estimates.tail }) rfl

/-- Going to another state changes nothing that matters. -/
lemma view_setChannelState (s : Channels ι α) (c : ι) (toState : ChannelState) :
    (setChannelState s c toState).view = s.view := by
  have hset : (s.set c { s.chan c with state := toState }).view = s.view := Channels.view_set rfl
  unfold setChannelState
  dsimp only
  split_ifs
  · exact hset
  · exact hset
  · exact hset
  · exact hset

end View

/-! ### One cell -/

section Cells

variable {s : Channels ι α} {c : ι} {channels : Finset ι} {wide : ι → Bool}
  {written : ι → List (CellQueueEntry α)} {q : CellQueueEntry α}

private lemma add_swap (a b c : UInt64) : a + b + c = a + (c + b) := by
  rw [UInt64.add_assoc, UInt64.add_comm b]

/-- A counter follows the total when one summand changes. -/
lemma counter_eq {g g' : ι → ℕ} {n n' : UInt64} (hc : c ∈ channels)
    (hne : ∀ d, d ≠ c → g' d = g d) (h : n = UInt64.ofNat (∑ d ∈ channels, g d))
    (h' : n' + UInt64.ofNat (g c) = n + UInt64.ofNat (g' c)) :
    n' = UInt64.ofNat (∑ d ∈ channels, g' d) := by
  have hrest : ∑ d ∈ channels.erase c, g' d = ∑ d ∈ channels.erase c, g d :=
    Finset.sum_congr rfl fun d hd => hne d (Finset.ne_of_mem_erase hd)
  have hsum : (∑ d ∈ channels, g d) + g' c = (∑ d ∈ channels, g' d) + g c := by
    rw [← Finset.add_sum_erase channels g' hc, ← Finset.add_sum_erase channels g hc, hrest]
    omega
  rw [h, ← UInt64.ofNat_add, hsum, UInt64.ofNat_add] at h'
  exact (UInt64.add_left_inj _).mp h'

/-- How the channels, the lower layers and the counters change when one channel does. -/
structure Channels.ChangedAt (c : ι) (chan : Channel α) (lower : List (CellQueueEntry α))
    (s s' : Channels ι α) : Prop where
  chan_self : s'.chan c = chan
  chan_of_ne : ∀ d, d ≠ c → s'.chan d = s.chan d
  lower_self : s'.lowerLayer c = lower
  lower_of_ne : ∀ d, d ≠ c → s'.lowerLayer d = s.lowerLayer d
  cellsInQueues : s'.nChannelCellsInQueues + UInt64.ofNat (s.chan c).outgoingQueue.length =
    s.nChannelCellsInQueues + UInt64.ofNat chan.outgoingQueue.length
  cellsPassed : s'.nChannelCellsPassedToLowerLayer + UInt64.ofNat (s.lowerLayer c).length =
    s.nChannelCellsPassedToLowerLayer + UInt64.ofNat lower.length
  bytesInQueues : s'.nChannelBytesInQueues +
      UInt64.ofNat (entriesSize (s.chan c).wideCircIds (s.chan c).outgoingQueue) =
    s.nChannelBytesInQueues + UInt64.ofNat (entriesSize (s.chan c).wideCircIds chan.outgoingQueue)
  bytesPassed : s'.nChannelBytesPassedToLowerLayer +
      UInt64.ofNat (entriesSize (s.chan c).wideCircIds (s.lowerLayer c)) =
    s.nChannelBytesPassedToLowerLayer + UInt64.ofNat (entriesSize (s.chan c).wideCircIds lower)
  cellsQueued : s'.nChannelCellsQueued =
    s'.nChannelCellsInQueues + s'.nChannelCellsPassedToLowerLayer
  bytesQueued : s'.nChannelBytesQueued =
    s'.nChannelBytesInQueues + s'.nChannelBytesPassedToLowerLayer

/-- The channels stay right when one of them changes and the counters follow. -/
lemma Channels.Ok.of_changedAt (h : s.Ok channels wide written) (hc : c ∈ channels)
    (chan : Channel α) (lower : List (CellQueueEntry α)) {s' : Channels ι α}
    {written' : List (CellQueueEntry α)} (hchanged : Channels.ChangedAt c chan lower s s')
    (hwide : chan.wideCircIds = (s.chan c).wideCircIds)
    (horder : written' = lower ++ chan.outgoingQueue) (hcell : ∀ q ∈ chan.outgoingQueue, q.hasCell)
    (hbytes : chan.bytesInQueue = UInt64.ofNat (entriesSize (wide c) chan.outgoingQueue)) :
    s'.Ok channels wide (update written c written') where
  wideCircIds d := by
    by_cases hd : d = c
    · rw [hd, hchanged.chan_self, hwide, h.wideCircIds]
    · rw [hchanged.chan_of_ne d hd, h.wideCircIds]
  order d := by
    by_cases hd : d = c
    · rw [hd, update_self, hchanged.chan_self, hchanged.lower_self, horder]
    · rw [update_of_ne hd, hchanged.chan_of_ne d hd, hchanged.lower_of_ne d hd, h.order]
  outside d hd := by
    have hdc : d ≠ c := fun heq => hd (heq ▸ hc)
    rw [update_of_ne hdc, h.outside d hd]
  hasCell d := by
    by_cases hd : d = c
    · rw [hd, hchanged.chan_self]
      exact hcell
    · rw [hchanged.chan_of_ne d hd]
      exact h.hasCell d
  bytesInQueue d := by
    by_cases hd : d = c
    · rw [hd, hchanged.chan_self, hbytes]
    · rw [hchanged.chan_of_ne d hd, h.bytesInQueue]
  counted := by
    have hchan := hchanged.chan_self
    have hlower := hchanged.lower_self
    refine ⟨counter_eq hc (fun d hd => by rw [hchanged.chan_of_ne d hd]) h.counted.cellsInQueues ?_,
      counter_eq hc (fun d hd => by rw [hchanged.lower_of_ne d hd]) h.counted.cellsPassed ?_,
      counter_eq hc (fun d hd => by rw [hchanged.chan_of_ne d hd]) h.counted.bytesInQueues ?_,
      counter_eq hc (fun d hd => by rw [hchanged.chan_of_ne d hd, hchanged.lower_of_ne d hd])
        h.counted.bytesPassed ?_, hchanged.cellsQueued, hchanged.bytesQueued⟩
    · rw [hchan, hchanged.cellsInQueues]
    · rw [hlower, hchanged.cellsPassed]
    · rw [hchan, hwide, hchanged.bytesInQueues]
    · rw [hchan, hlower, hwide, hchanged.bytesPassed]

omit [DecidableEq ι] in
lemma channelAssertCounterConsistency_eq_ok
    (hcells : s.nChannelCellsQueued = s.nChannelCellsInQueues + s.nChannelCellsPassedToLowerLayer)
    (hbytes : s.nChannelBytesQueued = s.nChannelBytesInQueues + s.nChannelBytesPassedToLowerLayer) :
    channelAssertCounterConsistency s = .ok s :=
  if_pos ⟨hcells, hbytes⟩

variable (h : s.Ok channels wide written) (hc : c ∈ channels)

include h hc

/-- **An entry is put into a queue.** -/
lemma Channels.Ok.exists_insertTail
    (hq : q.hasCell) {size : ℕ} (hsize : channelGetCellQueueEntrySize (wide c) q = size) :
    ∃ s', insertTail s c q size = .ok s' ∧
      s'.Ok channels wide (update written c (written c ++ [q])) ∧
      s'.written = s.written := by
  have hwide := h.wideCircIds c
  have hcells : s.nChannelCellsQueued + 1 =
      s.nChannelCellsInQueues + 1 + s.nChannelCellsPassedToLowerLayer := by
    rw [h.counted.cellsQueued]
    ac_rfl
  have hbytes : s.nChannelBytesQueued + UInt64.ofNat size =
      s.nChannelBytesInQueues + UInt64.ofNat size + s.nChannelBytesPassedToLowerLayer := by
    rw [h.counted.bytesQueued]
    ac_rfl
  unfold insertTail
  dsimp only
  rw [channelAssertCounterConsistency_eq_ok hcells hbytes]
  refine ⟨_, rfl, h.of_changedAt hc { s.chan c with
      outgoingQueue := (s.chan c).outgoingQueue ++ [q]
      bytesInQueue := (s.chan c).bytesInQueue + UInt64.ofNat size } (s.lowerLayer c)
    ⟨?_, fun d hd => ?_, rfl, fun _ _ => rfl, ?_, rfl, ?_, rfl, hcells, hbytes⟩ rfl ?_
      (fun q' hq' => ?_) ?_,
    rfl⟩
  · dsimp only [Channels.set]
    rw [update_self, update_self]
  · dsimp only [Channels.set]
    rw [update_of_ne hd, update_of_ne hd]
  · rw [length_append, UInt64.ofNat_add]
    exact add_swap _ _ _
  · rw [entriesSize_append, entriesSize_singleton, hwide, hsize, UInt64.ofNat_add]
    exact add_swap _ _ _
  · rw [h.order, append_assoc]
  · rcases mem_append.mp hq' with hq' | hq'
    · exact h.hasCell c q' hq'
    · rw [mem_singleton.mp hq']
      exact hq
  · rw [entriesSize_append, entriesSize_singleton, hsize, UInt64.ofNat_add, ← h.bytesInQueue]

/-- **A cell is sent right out**, which the lower layer has taken. -/
lemma Channels.Ok.exists_noteSent (hempty : (s.chan c).outgoingQueue = []) {size : ℕ}
    (hsize : channelGetCellQueueEntrySize (wide c) q = size) {s₁ : Channels ι α}
    (hlower : s₁ = { s with
      lowerLayer := update s.lowerLayer c (s.lowerLayer c ++ [q])
      answers := s.answers.tail }) :
    ∃ s', noteSent s₁ c size = .ok s' ∧
      s'.Ok channels wide (update written c (written c ++ [q])) ∧
      s'.written = s.written := by
  subst hlower
  have hwide := h.wideCircIds c
  have hcells : s.nChannelCellsQueued + 1 =
      s.nChannelCellsInQueues + (s.nChannelCellsPassedToLowerLayer + 1) := by
    rw [h.counted.cellsQueued, UInt64.add_assoc]
  have hbytes : s.nChannelBytesQueued + UInt64.ofNat size =
      s.nChannelBytesInQueues + (s.nChannelBytesPassedToLowerLayer + UInt64.ofNat size) := by
    rw [h.counted.bytesQueued, UInt64.add_assoc]
  unfold noteSent
  dsimp only
  rw [channelAssertCounterConsistency_eq_ok hcells hbytes]
  refine ⟨_, rfl, h.of_changedAt hc { s.chan c with
      nCellsXmitted := (s.chan c).nCellsXmitted + 1
      nBytesXmitted := (s.chan c).nBytesXmitted + UInt64.ofNat size } (s.lowerLayer c ++ [q])
    ⟨update_self _ _ _, fun d hd => update_of_ne hd _ _, update_self _ _ _,
      fun d hd => update_of_ne hd _ _, rfl, ?_, rfl, ?_, hcells, hbytes⟩ rfl ?_ (h.hasCell c)
    (h.bytesInQueue c), rfl⟩
  · rw [length_append, UInt64.ofNat_add]
    exact add_swap _ _ _
  · rw [entriesSize_append, entriesSize_singleton, hwide, hsize, UInt64.ofNat_add]
    exact add_swap _ _ _
  · rw [h.order, hempty, append_nil, append_nil]

/-- **The first entry is removed from a queue**, whose cell the lower layer has taken. -/
lemma Channels.Ok.exists_removeHead
    {rest : List (CellQueueEntry α)} (hqueue : (s.chan c).outgoingQueue = q :: rest) {size : ℕ}
    (hsize : channelGetCellQueueEntrySize (wide c) q = size) {s₁ : Channels ι α}
    (hlower : s₁ = { s with
      lowerLayer := update s.lowerLayer c (s.lowerLayer c ++ [q])
      answers := s.answers.tail }) :
    ∃ s', removeHead (noteXmitted s₁ c size) c size = .ok s' ∧ s'.Ok channels wide written ∧
      s'.written = s.written := by
  subst hlower
  have hwide := h.wideCircIds c
  have hmove : ∀ a b x : UInt64, a + b = a - x + (b + x) := fun a b x => by
    rw [UInt64.add_comm b, ← UInt64.add_assoc, UInt64.sub_add_cancel]
  have hcells : s.nChannelCellsQueued =
      s.nChannelCellsInQueues - 1 + (s.nChannelCellsPassedToLowerLayer + 1) :=
    h.counted.cellsQueued.trans (hmove _ _ _)
  have hbytes : s.nChannelBytesQueued = s.nChannelBytesInQueues - UInt64.ofNat size +
      (s.nChannelBytesPassedToLowerLayer + UInt64.ofNat size) :=
    h.counted.bytesQueued.trans (hmove _ _ _)
  unfold removeHead
  dsimp only
  rw [channelAssertCounterConsistency_eq_ok hcells hbytes]
  have horder : written c = s.lowerLayer c ++ [q] ++ rest := by
    rw [h.order, hqueue, append_assoc, singleton_append]
  have hok := fun s' (hchanged : Channels.ChangedAt c _ _ s s') => h.of_changedAt hc { s.chan c with
      nCellsXmitted := (s.chan c).nCellsXmitted + 1
      nBytesXmitted := (s.chan c).nBytesXmitted + UInt64.ofNat size
      outgoingQueue := rest
      bytesInQueue := (s.chan c).bytesInQueue - UInt64.ofNat size } (s.lowerLayer c ++ [q])
    hchanged rfl horder
    (fun q' hq' => h.hasCell c q' (hqueue ▸ mem_cons_of_mem _ hq'))
    (by rw [h.bytesInQueue, hqueue, entriesSize_cons, hsize, Nat.add_comm, UInt64.ofNat_add,
      UInt64.add_sub_cancel])
  rw [update_eq_self] at hok
  refine ⟨_, rfl, hok _ ⟨?_, fun d hd => ?_, update_self _ _ _,
    fun d hd => update_of_ne hd _ _, ?_, ?_, ?_, ?_, hcells, hbytes⟩, rfl⟩
  · dsimp only [Channels.set, noteXmitted]
    rw [update_self, update_self, update_self, hqueue]
    rfl
  · dsimp only [Channels.set, noteXmitted]
    rw [update_of_ne hd, update_of_ne hd, update_of_ne hd]
  · rw [hqueue, length_cons, Nat.add_comm, UInt64.ofNat_add, ← UInt64.add_assoc]
    exact congrArg (· + _) (UInt64.sub_add_cancel _ _)
  · rw [length_append, UInt64.ofNat_add]
    exact add_swap _ _ _
  · rw [hqueue, entriesSize_cons, hwide, hsize, UInt64.ofNat_add, ← UInt64.add_assoc]
    exact congrArg (· + _) (UInt64.sub_add_cancel _ _)
  · rw [entriesSize_append, entriesSize_singleton, hwide, hsize, UInt64.ofNat_add]
    exact add_swap _ _ _

end Cells

/-! ### Calls -/

section Calls

variable {s : Channels ι α} {c : ι} {channels : Finset ι} {wide : ι → Bool}
  {written : ι → List (CellQueueEntry α)} {q : CellQueueEntry α}

/-- The channels are right after a program, which leaves the history alone, and if the program
aborts, then not because of the counters. -/
def Keeps (channels : Finset ι) (wide : ι → Bool) (written record : ι → List (CellQueueEntry α))
    (x : Except ChannelAbort (Channels ι α)) : Prop :=
  Satisfies (fun s' => s'.Ok channels wide written ∧ s'.written = record)
    (· ≠ ChannelAbort.counterConsistency) x

lemma lowerLayerWrite_cases (s : Channels ι α) (c : ι) (q : CellQueueEntry α) :
    lowerLayerWrite s c q = ({ s with
      lowerLayer := update s.lowerLayer c (s.lowerLayer c ++ [q])
      answers := s.answers.tail }, 1) ∨
    lowerLayerWrite s c q = ({ s with answers := s.answers.tail }, 0) := by
  unfold lowerLayerWrite
  dsimp only
  split_ifs
  · exact .inl rfl
  · exact .inr rfl

section

variable (h : s.Ok channels wide written) (hc : c ∈ channels)

include h hc

/-- **Flushing a queue** keeps the channels right. -/
lemma Channels.Ok.flushQueue (numCells : ℤ) (fuel : ℕ) (flushed : ℤ) :
    Satisfies (fun r => r.1.Ok channels wide written ∧ r.1.written = s.written)
      (· ≠ ChannelAbort.counterConsistency) (flushQueue c numCells fuel flushed s) := by
  induction fuel generalizing s flushed with
  | zero => exact ⟨h, rfl⟩
  | succ fuel ih =>
    unfold Astoria.flushQueue
    split_ifs with hmore
    · cases hqueue : (s.chan c).outgoingQueue with
      | nil => exact ⟨h, rfl⟩
      | cons q rest =>
        have hq : q.hasCell := h.hasCell c q (hqueue ▸ mem_cons_self)
        dsimp only
        rw [if_pos hq, h.wideCircIds]
        rcases lowerLayerWrite_cases s c q with hwrite | hwrite
        · obtain ⟨s', hs', hok, hwritten⟩ := h.exists_removeHead hc hqueue rfl rfl
          rw [hwrite, if_pos one_ne_zero, hs', ← hwritten]
          exact ih hok (flushed + 1)
        · rw [hwrite, if_neg (not_not_intro rfl)]
          exact ⟨h.congr rfl, rfl⟩
    · exact ⟨h, rfl⟩

/-- Flushing some cells from the outgoing queue keeps the channels right. -/
lemma Channels.Ok.flushSome (numCells : ℤ) :
    Satisfies (fun r => r.1.Ok channels wide written ∧ r.1.written = s.written)
      (· ≠ ChannelAbort.counterConsistency)
      (channelFlushSomeCellsFromOutgoingQueue s c numCells) := by
  unfold channelFlushSomeCellsFromOutgoingQueue
  split_ifs with hzero hopen
  · exact ⟨h, rfl⟩
  · refine (h.flushQueue hc numCells _ 0).bind fun r hr => ?_
    have hview := view_channelUpdateXmitQueueSize r.1 c
    exact ⟨hr.1.congr hview, (Channels.written_eq_of_view hview).trans hr.2⟩
  · have hview := view_channelUpdateXmitQueueSize s c
    exact ⟨h.congr hview, Channels.written_eq_of_view hview⟩

lemma Channels.Ok.flushCells : Keeps channels wide written s.written (channelFlushCells s c) :=
  (h.flushSome hc (-1)).bind fun _ hr => hr

/-- An entry is put into the queue, and the queue is flushed. -/
lemma Channels.Ok.queueEntry (hq : q.hasCell) :
    Keeps channels wide (update written c (written c ++ [q])) s.written
      (queueEntry s c q (channelGetCellQueueEntrySize (wide c) q)) := by
  obtain ⟨s', hs', hok, hwritten⟩ := h.exists_insertTail hc hq rfl
  unfold Astoria.queueEntry
  rw [hs', ← hwritten]
  show Keeps _ _ _ _ (if (s'.chan c).state = .open then channelFlushCells s' c else .ok s')
  split_ifs
  · exact hok.flushCells hc
  · exact ⟨hok, rfl⟩

/-- **Writing a cell** keeps the channels right, with one more cell written. -/
lemma Channels.Ok.writeCellQueueEntry (hq : q.hasCell) :
    Keeps channels wide (update written c (written c ++ [q])) s.written
      (channelWriteCellQueueEntry s c q) := by
  unfold channelWriteCellQueueEntry
  dsimp only
  rw [h.wideCircIds]
  split_ifs with hstate hdirect hsent
  · rcases lowerLayerWrite_cases s c q with hwrite | hwrite
    · obtain ⟨s', hs', hok, hwritten⟩ := h.exists_noteSent hc hdirect.1 rfl rfl
      rw [hwrite, hs', ← hwritten]
      exact ⟨hok, rfl⟩
    · rw [hwrite] at hsent
      exact absurd hsent (lt_irrefl 0)
  · rcases lowerLayerWrite_cases s c q with hwrite | hwrite
    · rw [hwrite] at hsent
      exact absurd one_pos hsent
    · have htail : Channels.Ok channels wide written { s with answers := s.answers.tail } :=
        h.congr rfl
      rw [hwrite]
      exact htail.queueEntry hc hq
  · exact h.queueEntry hc hq
  · exact nofun

end

lemma Channels.Ok.write (h : s.Ok channels wide s.written) (hc : c ∈ channels) (hq : q.hasCell) :
    Satisfies (fun s' => s'.Ok channels wide s'.written ∧
      s'.written = (recordWritten s c q).written)
      (· ≠ ChannelAbort.counterConsistency) (channelWrite (recordWritten s c q) c q) := by
  unfold channelWrite recordWritten
  by_cases hclosing : (s.chan c).state = .closing
  · rw [if_pos hclosing, if_pos hclosing]
    exact ⟨h, rfl⟩
  · have hrecord := h.setWritten (update s.written c (s.written c ++ [q]))
    rw [if_neg hclosing]
    dsimp only
    rw [if_neg hclosing]
    refine (hrecord.writeCellQueueEntry hc hq).bind fun s' hs' => ?_
    have hview := view_channelUpdateXmitQueueSize s' c
    have hwritten := (Channels.written_eq_of_view hview).trans hs'.2
    refine ⟨?_, hwritten⟩
    rw [hwritten]
    exact hs'.1.congr hview

/-- **One call** keeps the channels right. -/
lemma Channels.Ok.call (h : s.Ok channels wide s.written) {call : ChannelCall ι α}
    (hc : call.chan ∈ channels) :
    Satisfies (fun s' => s'.Ok channels wide s'.written) (· ≠ ChannelAbort.counterConsistency)
      (channelCall s call) := by
  cases call with
  | writeCell c cell => exact (h.write hc rfl).mono fun _ hs' => hs'.1
  | writePackedCell c packedCell => exact (h.write hc rfl).mono fun _ hs' => hs'.1
  | writeVarCell c varCell payloadLen => exact (h.write hc rfl).mono fun _ hs' => hs'.1
  | flushSome c numCells =>
    refine (h.flushSome hc numCells).bind fun r hr => ?_
    show r.1.Ok channels wide r.1.written
    rw [hr.2]
    exact hr.1

end Calls

/-! ### Runs -/

section Runs

variable {s : Channels ι α} {channels : Finset ι} {wide : ι → Bool}

lemma Channels.Ok.calls (h : s.Ok channels wide s.written) {calls : List (ChannelCall ι α)}
    (hcalls : ∀ call ∈ calls, call.chan ∈ channels) :
    Satisfies (fun s' => s'.Ok channels wide s'.written) (· ≠ ChannelAbort.counterConsistency)
      (calls.foldlM channelCall s) :=
  Satisfies.foldlM h fun call hcall _ hs => hs.call (hcalls call hcall)

/-- **One event** keeps the channels right. -/
lemma Channels.Ok.step (h : s.Ok channels wide s.written) {ev : ChannelEvent ι α}
    (hchans : ∀ c ∈ ev.chans, c ∈ channels) :
    Satisfies (fun s' => s'.Ok channels wide s'.written) (· ≠ ChannelAbort.counterConsistency)
      (channelStep s ev) := by
  cases ev with
  | call call => exact h.call (hchans call.chan mem_cons_self)
  | lowerLayer answers estimates =>
    exact Channels.Ok.congr (s := s) h rfl
  | changeState c toState openActions =>
    have hc : c ∈ channels := hchans c mem_cons_self
    have hactions : ∀ call ∈ openActions, call.chan ∈ channels := fun call hcall =>
      hchans call.chan (mem_cons_of_mem c (List.mem_map_of_mem hcall))
    have hview := view_setChannelState s c toState
    have hset : (setChannelState s c toState).Ok channels wide
        (setChannelState s c toState).written := by
      rw [Channels.written_eq_of_view hview]
      exact h.congr hview
    unfold channelStep channelChangeState
    dsimp only
    split_ifs with htransition hopen hfinished hempty
    · refine (hset.calls hactions).bind fun s₁ h₁ => ?_
      show Satisfies _ _ (if (s₁.chan c).outgoingQueue ≠ [] then channelFlushCells s₁ c else .ok s₁)
      split_ifs
      · refine (h₁.flushCells hc).mono fun s' hs' => ?_
        rw [hs'.2]
        exact hs'.1
      · exact h₁
    · exact hset
    · exact nofun
    · exact hset
    · exact nofun

omit [DecidableEq ι] in
/-- At the beginning the channels are right. -/
lemma ok_init (channels : Finset ι) (wide : ι → Bool) :
    (Channels.init wide : Channels ι α).Ok channels wide (Channels.init wide).written where
  wideCircIds _ := rfl
  order _ := rfl
  outside _ _ := rfl
  hasCell _ := nofun
  bytesInQueue _ := rfl
  counted := by
    have hzero : ∑ _c ∈ channels, 0 = 0 := Finset.sum_const_zero
    exact ⟨congrArg UInt64.ofNat hzero.symm, congrArg UInt64.ofNat hzero.symm,
      congrArg UInt64.ofNat hzero.symm, congrArg UInt64.ofNat hzero.symm, rfl, rfl⟩

/-- **A run** keeps the channels right. -/
lemma ok_channelSteps (wide : ι → Bool) {events : List (ChannelEvent ι α)}
    (hchannels : (events.flatMap (·.chans)).toFinset ⊆ channels) :
    Satisfies (fun s => s.Ok channels wide s.written) (· ≠ ChannelAbort.counterConsistency)
      (channelSteps (Channels.init wide) events) := by
  refine Satisfies.foldlM (ok_init _ wide) fun ev hev s hs => hs.step fun c hc => hchannels ?_
  rw [List.mem_toFinset, mem_flatMap]
  exact ⟨ev, hev, hc⟩

/-- **Cells reach the lower layer in order.**  Whatever is written, whatever states the channels go
through and whatever the lower layers answer, the assertion about the counters holds.  What has been
written to a channel is what its lower layer has taken followed by what is in its queue, the size of
the queue is the total size of its cells, and the global counters are the totals over all
channels. -/
theorem channel_cells_in_order (wide : ι → Bool) (events : List (ChannelEvent ι α)) :
    channelSteps (Channels.init wide) events ≠ .error .counterConsistency ∧
    ∀ s, channelSteps (Channels.init wide) events = .ok s →
      (∀ c, s.written c = s.lowerLayer c ++ (s.chan c).outgoingQueue ∧
        (s.chan c).bytesInQueue = UInt64.ofNat (entriesSize (wide c) (s.chan c).outgoingQueue)) ∧
      s.nChannelCellsQueued = s.nChannelCellsInQueues + s.nChannelCellsPassedToLowerLayer ∧
      s.nChannelBytesQueued = s.nChannelBytesInQueues + s.nChannelBytesPassedToLowerLayer ∧
      ∃ channels : Finset ι, (∀ c, c ∉ channels → s.written c = []) ∧
        s.nChannelCellsInQueues =
          UInt64.ofNat (∑ c ∈ channels, (s.chan c).outgoingQueue.length) ∧
        s.nChannelBytesInQueues =
          UInt64.ofNat (∑ c ∈ channels, entriesSize (wide c) (s.chan c).outgoingQueue) := by
  have hrun := ok_channelSteps wide (Finset.Subset.refl (events.flatMap (·.chans)).toFinset)
  constructor
  · intro herror
    rw [herror] at hrun
    exact hrun rfl
  · intro s hs
    rw [hs] at hrun
    have hcounted := hrun.counted
    refine ⟨fun c => ⟨hrun.order c, hrun.bytesInQueue c⟩, hcounted.cellsQueued,
      hcounted.bytesQueued, _,
      hrun.outside, hcounted.cellsInQueues, ?_⟩
    rw [hcounted.bytesInQueues]
    exact congrArg UInt64.ofNat (Finset.sum_congr rfl fun c _ => by rw [hrun.wideCircIds])

end Runs

end Astoria
