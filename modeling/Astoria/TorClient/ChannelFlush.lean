import Astoria.TorClient.ChannelQueueRuns

/-!
# Flushing some cells of a channel

The scheduler asks a channel to flush some cells and to say how many it has flushed, and then
whether it has more.  The cells come from the outgoing queue of the channel first and from its
circuits after that. Those from the circuits go to the lower layer directly or through the queue, so
that the channel compares the lengths of the queue to count them.
-/

namespace Astoria

open List
open Outcomes
open Function

namespace Channels

section Operations

variable {ι α : Type*} [DecidableEq ι]

/-- Write cells of the circuits, in the order in which the multiplexer picks them, but not more than
so many.  The cells that are left and the number of those that were written are returned. -/
def flushFromFirstActiveCircuit (s : Channels ι α) (c : ι) (circCells : List α) (max : ℕ) :
    Except ChannelAbort (Channels ι α × List α × ℕ) := do
  let s ← (circCells.take max).foldlM (fun s cell => channelCall s (.writePackedCell c cell)) s
  .ok (s, circCells.drop max, (circCells.take max).length)

/-- What is left of a number of cells, or no limit. -/
def limitLeft (numCells flushed : ℤ) : ℤ := if numCells < 0 then -1 else numCells - flushed

/-- The largest number of cells to get from the circuits, if there is no limit. -/
def maxCellsToGetFromCircuitsForUnlimited : ℕ := 256

/-- How many cells to get from the circuits. -/
def clampedNumCells (numCells flushed : ℤ) : ℕ :=
  if numCells < 0 ∨ (maxCellsToGetFromCircuitsForUnlimited : ℤ) < numCells - flushed then
    maxCellsToGetFromCircuitsForUnlimited
  else (numCells - flushed).toNat

/-- Get cells from the circuits, count those that did not go to the queue, and flush the queue again
if it has become longer. -/
def flushCircuits (s : Channels ι α) (c : ι) (circCells : List α) (numCells flushed : ℤ) :
    Except ChannelAbort (Channels ι α × List α × ℤ) := do
  let qLenBefore := (s.chan c).outgoingQueue.length
  let (s, circCells, fromCircs) ←
    s.flushFromFirstActiveCircuit c circCells (clampedNumCells numCells flushed)
  let qLenAfter := (s.chan c).outgoingQueue.length
  if 0 < fromCircs then
    let direct : ℤ :=
      if qLenBefore < qLenAfter then max 0 (fromCircs - (qLenAfter - qLenBefore : ℤ))
      else fromCircs
    if qLenBefore < qLenAfter ∧ (numCells < 0 ∨ flushed + direct < numCells) then do
      let (s, more) ← channelFlushSomeCellsFromOutgoingQueue s c
        (limitLeft numCells (flushed + direct))
      .ok (s, circCells, flushed + direct + more)
    else .ok (s, circCells, flushed + direct)
  else .ok (s, circCells, flushed)

/-- Flush some cells (`channel_flush_some_cells`), with their number and with the cells that are
left on the circuits.  A negative number means no limit. -/
def flushSomeCells (s : Channels ι α) (c : ι) (circCells : List α) (numCells : ℤ) :
    Except ChannelAbort (Channels ι α × List α × ℤ) :=
  if numCells = 0 then .ok (s, circCells, 0)
  else if (s.chan c).state = .open then do
    let (s, flushed) ← channelFlushSomeCellsFromOutgoingQueue s c (limitLeft numCells 0)
    if 0 ≤ numCells ∧ numCells ≤ flushed then .ok (s, circCells, flushed)
    else if 0 < circCells.length then s.flushCircuits c circCells numCells flushed
    else .ok (s, circCells, flushed)
  else .ok (s, circCells, 0)

/-- There is more to flush (`channel_more_to_flush`), by the incoming queue and the cells on the
circuits. -/
def moreToFlush (incomingQueue : List (CellQueueEntry α)) (circCells : List α) : Bool :=
  if ¬ incomingQueue.isEmpty then true
  -- the outgoing queue is not looked at
  else if 0 < circCells.length then true else false

end Operations

/-! ### What the operations count -/

section Counting

variable {ι α : Type*} [DecidableEq ι] {s : Channels ι α} {c : ι} {numCells : ℤ}

/-- What is known after a queue has been flushed: how many cells the lower layer has taken, and that
the queue is empty if there was no limit and the lower layer is willing. -/
structure Flushed (c : ι) (numCells flushed : ℤ) (s : Channels ι α) (r : Channels ι α × ℤ) :
    Prop where
  state : (r.1.chan c).state = (s.chan c).state
  taken : ((r.1.lowerLayer c).length : ℤ) + flushed = (s.lowerLayer c).length + r.2
  le_result : flushed ≤ r.2
  result_le : 0 ≤ numCells → flushed ≤ numCells → r.2 ≤ numCells
  willing : numCells < 0 → (s.chan c).state = .open → (∀ q ∈ (s.chan c).outgoingQueue, q.hasCell) →
    ∀ k, s.answers = replicate ((s.chan c).outgoingQueue.length + k) true →
      (r.1.chan c).outgoingQueue = [] ∧ r.1.answers = replicate k true

/-- The first entry is removed, or the counters are not consistent. -/
lemma removeHead_frame (s : Channels ι α) (c : ι) (size : ℕ) :
    Satisfies (fun s' => (s'.chan c).state = (s.chan c).state ∧
        (s'.chan c).outgoingQueue = (s.chan c).outgoingQueue.tail ∧ s'.lowerLayer = s.lowerLayer ∧
        s'.answers = s.answers) (· = ChannelAbort.counterConsistency) (removeHead s c size) := by
  unfold removeHead channelAssertCounterConsistency
  dsimp only
  split_ifs
  · refine ⟨?_, ?_, rfl, rfl⟩
    · rw [set_chan_self, set_chan_self]
    · rw [set_chan_self, set_chan_self]
  · rfl

omit [DecidableEq ι] in
lemma Flushed.refl {flushed : ℤ} (h : (s.chan c).outgoingQueue = [] ∨ 0 ≤ numCells) :
    Flushed c numCells flushed s (s, flushed) where
  state := rfl
  taken := rfl
  le_result := le_rfl
  result_le _ hle := hle
  willing hneg _ _ k hk := by
    have hqueue := h.resolve_right (not_le.mpr hneg)
    rw [hqueue, length_nil, zero_add] at hk
    exact ⟨hqueue, hk⟩

/-- **Flushing a queue** counts the cells that the lower layer takes. -/
lemma flushQueue_flushed {fuel : ℕ} (flushed : ℤ) (s : Channels ι α)
    (hfuel : (s.chan c).outgoingQueue.length ≤ fuel) :
    Satisfies (Flushed c numCells flushed s) (· = ChannelAbort.counterConsistency)
      (flushQueue c numCells fuel flushed s) := by
  induction fuel generalizing s flushed with
  | zero => exact .refl (.inl (length_eq_zero_iff.mp (Nat.le_zero.mp hfuel)))
  | succ fuel ih =>
    unfold flushQueue
    split_ifs with hmore
    · cases hqueue : (s.chan c).outgoingQueue with
      | nil => exact .refl (.inl hqueue)
      | cons q rest =>
        rw [hqueue, length_cons] at hfuel
        dsimp only
        split_ifs with hcell hwrite
        · -- the lower layer takes the cell
          have haccept : s.answers.headD false = true := by
            by_contra hrefuse
            unfold lowerLayerWrite at hwrite
            rw [if_neg hrefuse] at hwrite
            exact hwrite rfl
          have hlower : lowerLayerWrite s c q = ({ s with
              lowerLayer := update s.lowerLayer c (s.lowerLayer c ++ [q])
              answers := s.answers.tail }, 1) := if_pos haccept
          rw [hlower]
          refine (removeHead_frame _ c _).bind fun s' hframe => ?_
          obtain ⟨hstate, hqueue', hlower', hanswers⟩ := hframe
          have hnote : ∀ (s : Channels ι α) size, ((noteXmitted s c size).chan c).state =
              (s.chan c).state ∧ ((noteXmitted s c size).chan c).outgoingQueue =
                (s.chan c).outgoingQueue := fun s size =>
            ⟨by rw [noteXmitted, set_chan_self], by rw [noteXmitted, set_chan_self]⟩
          rw [(hnote _ _).1] at hstate
          rw [(hnote _ _).2, show (s.chan c).outgoingQueue = q :: rest from hqueue,
            tail_cons] at hqueue'
          have htaken : (s'.lowerLayer c).length = (s.lowerLayer c).length + 1 := by
            rw [hlower']
            show ((update s.lowerLayer c _ : ι → _) c).length = _
            rw [update_self, length_append, length_singleton]
          refine (ih (flushed + 1) s' (by rw [hqueue']; omega)).mono fun r hr => ?_
          refine ⟨hr.state.trans hstate, ?_, ?_, fun h hle => hr.result_le h ?_,
            fun hneg hopen hcells k hk => ?_⟩
          · have := hr.taken
            omega
          · have := hr.le_result
            omega
          · rcases hmore with hmore | hmore <;> omega
          · refine hr.willing hneg (hstate.trans hopen) (fun q' hq' => hcells q' ?_) k ?_
            · rw [hqueue]
              exact mem_cons_of_mem q (hqueue' ▸ hq')
            · rw [hanswers, hqueue']
              show s.answers.tail = _
              rw [hk, hqueue, length_cons, add_right_comm, replicate_succ, tail_cons]
        · -- the lower layer refuses the cell
          have hrefuse : ¬ s.answers.headD false = true := by
            intro haccept
            unfold lowerLayerWrite at hwrite
            rw [if_pos haccept] at hwrite
            exact hwrite one_ne_zero
          have hlower : lowerLayerWrite s c q = ({ s with answers := s.answers.tail }, 0) :=
            if_neg hrefuse
          rw [hlower]
          refine ⟨rfl, rfl, le_rfl, fun _ hle => hle, fun _ _ _ k hk => absurd ?_ hrefuse⟩
          rw [hk, hqueue, length_cons, add_right_comm, replicate_succ]
          rfl
        · refine (removeHead_frame s c _).bind fun s' hframe => ?_
          obtain ⟨hstate, hqueue', hlower', -⟩ := hframe
          rw [hqueue, tail_cons] at hqueue'
          refine (ih flushed s' (by rw [hqueue']; omega)).mono fun r hr => ?_
          refine ⟨hr.state.trans hstate, ?_, hr.le_result, hr.result_le, fun _ _ hcells => ?_⟩
          · rw [← hlower']
            exact hr.taken
          · exact absurd (hcells q (hqueue ▸ mem_cons_self)) hcell
    · exact .refl (.inr (not_lt.mp fun hneg => hmore (.inl hneg)))

lemma channelUpdateXmitQueueSize_frame (s : Channels ι α) (c : ι) :
    ((channelUpdateXmitQueueSize s c).chan c).state = (s.chan c).state ∧
      ((channelUpdateXmitQueueSize s c).chan c).outgoingQueue = (s.chan c).outgoingQueue ∧
      (channelUpdateXmitQueueSize s c).lowerLayer = s.lowerLayer ∧
      (channelUpdateXmitQueueSize s c).answers = s.answers := by
  have hset : ∀ (s : Channels ι α) (queued : UInt64),
      ((s.set c { s.chan c with bytesQueuedForXmit := queued }).chan c).state = (s.chan c).state ∧
        ((s.set c { s.chan c with bytesQueuedForXmit := queued }).chan c).outgoingQueue =
          (s.chan c).outgoingQueue :=
    fun s queued => by rw [set_chan_self]; exact ⟨rfl, rfl⟩
  unfold channelUpdateXmitQueueSize
  dsimp only
  cases (s.estimates.headD (0, none)).2
  all_goals
    dsimp only
    split_ifs
    all_goals
      first
      | exact ⟨rfl, rfl, rfl, rfl⟩
      | exact ⟨(hset _ _).1, (hset _ _).2, rfl, rfl⟩

/-- **Flushing some cells of the queue** counts the cells that the lower layer takes. -/
lemma flushSomeCellsFromOutgoingQueue_flushed (s : Channels ι α) (c : ι) (numCells : ℤ) :
    Satisfies (Flushed c numCells 0 s) (· = ChannelAbort.counterConsistency)
      (channelFlushSomeCellsFromOutgoingQueue s c numCells) := by
  have hupdate : ∀ r : Channels ι α × ℤ, Flushed c numCells 0 s r →
      Flushed c numCells 0 s (channelUpdateXmitQueueSize r.1 c, r.2) := by
    intro r hr
    obtain ⟨hstate, hqueue, hlower, hanswers⟩ := channelUpdateXmitQueueSize_frame r.1 c
    refine ⟨hstate.trans hr.state, ?_, hr.le_result, hr.result_le, fun hneg hopen hcells k hk => ?_⟩
    · dsimp only
      rw [hlower]
      exact hr.taken
    · dsimp only
      rw [hqueue, hanswers]
      exact hr.willing hneg hopen hcells k hk
  unfold channelFlushSomeCellsFromOutgoingQueue
  split_ifs with hzero hopen
  · exact .refl (.inr hzero.ge)
  · exact (flushQueue_flushed 0 s le_rfl).bind fun r hr => hupdate r hr
  · exact hupdate (s, 0) ⟨rfl, rfl, le_rfl, fun _ hle => hle, fun _ h => absurd h hopen⟩

/-- What is known after a cell has been written to an open channel. -/
structure Sent (c : ι) (s s' : Channels ι α) : Prop where
  state : (s'.chan c).state = .open
  lower : (s.lowerLayer c).length ≤ (s'.lowerLayer c).length
  willing : (∀ q ∈ (s.chan c).outgoingQueue, q.hasCell) →
    ∀ k, s.answers = replicate ((s.chan c).outgoingQueue.length + 1 + k) true →
      (s'.chan c).outgoingQueue = [] ∧ s'.answers = replicate k true

variable {q : CellQueueEntry α}

/-- A cell is queued, and the queue is flushed. -/
lemma queueEntry_sent (hq : q.hasCell) (hopen : (s.chan c).state = .open)
    (size : ℕ) : Satisfies (Sent c s) (· = ChannelAbort.counterConsistency)
      (queueEntry s c q size) := by
  have hinsert : Satisfies (fun s' => (s'.chan c).state = .open ∧
      (s'.chan c).outgoingQueue = (s.chan c).outgoingQueue ++ [q] ∧ s'.lowerLayer = s.lowerLayer ∧
      s'.answers = s.answers)
      (· = ChannelAbort.counterConsistency) (insertTail s c q size) := by
    unfold insertTail channelAssertCounterConsistency
    dsimp only
    split_ifs
    · refine ⟨?_, ?_, rfl, rfl⟩
      · rw [set_chan_self, set_chan_self]
        exact hopen
      · rw [set_chan_self, set_chan_self]
    · rfl
  refine hinsert.bind fun s₁ ⟨hopen₁, hqueue₁, hlower₁, hanswers₁⟩ => ?_
  rw [if_pos hopen₁]
  refine (flushSomeCellsFromOutgoingQueue_flushed s₁ c (-1)).bind fun r hr => ?_
  have hlower : (s₁.lowerLayer c).length ≤ (r.1.lowerLayer c).length := by
    have := hr.taken
    have := hr.le_result
    omega
  refine ⟨hr.state.trans hopen₁, hlower₁ ▸ hlower, fun hcells k hk =>
    hr.willing (by decide) hopen₁ ?_ k ?_⟩
  · intro q' hq'
    rcases mem_append.mp (hqueue₁ ▸ hq') with hq' | hq'
    · exact hcells q' hq'
    · exact mem_singleton.mp hq' ▸ hq
  · rw [hanswers₁, hk, hqueue₁, length_append, length_singleton]

/-- **A cell is written to an open channel.** -/
lemma write_sent (hq : q.hasCell) (hopen : (s.chan c).state = .open) :
    Satisfies (Sent c s) (· = ChannelAbort.counterConsistency) (channelWrite s c q) := by
  have hclosing : (s.chan c).state ≠ .closing := by
    rw [hopen]
    decide
  unfold channelWrite
  rw [if_neg hclosing]
  refine Satisfies.bind (P := Sent c s) ?_ fun s₁ h₁ => ?_
  · unfold channelWriteCellQueueEntry
    dsimp only
    rw [if_pos (.inr (.inl hopen))]
    split_ifs with hdirect hsent
    · rcases lowerLayerWrite_cases s c q with hwrite | hwrite
      · rw [hwrite]
        unfold noteSent channelAssertCounterConsistency
        dsimp only
        split_ifs
        · refine ⟨?_, ?_, fun _ k hk => ⟨?_, ?_⟩⟩
          · rw [noteXmitted, set_chan_self]
            exact hopen
          · show _ ≤ (update s.lowerLayer c (s.lowerLayer c ++ [q]) c).length
            rw [update_self, length_append]
            exact Nat.le_add_right _ _
          · rw [noteXmitted, set_chan_self]
            exact hdirect.1
          · show s.answers.tail = _
            rw [hk, hdirect.1, length_nil, zero_add, add_comm, replicate_succ, tail_cons]
        · rfl
      · rw [hwrite] at hsent
        exact absurd hsent (lt_irrefl 0)
    · rcases lowerLayerWrite_cases s c q with hwrite | hwrite
      · rw [hwrite] at hsent
        exact absurd one_pos hsent
      · -- the lower layer has refused, so that it is not willing
        have hrefuse : ¬ s.answers.headD false = true := by
          intro haccept
          unfold lowerLayerWrite at hsent
          rw [if_pos haccept] at hsent
          exact hsent one_pos
        rw [hwrite]
        refine (queueEntry_sent (s := { s with answers := s.answers.tail }) hq hopen _).mono
            fun s' hs' =>
          ⟨hs'.state, hs'.lower, fun _ k hk => absurd ?_ hrefuse⟩
        rw [hk, add_right_comm, replicate_succ]
        rfl
    · exact queueEntry_sent hq hopen _
  · obtain ⟨hstate, hqueue, hlower, hanswers⟩ := channelUpdateXmitQueueSize_frame s₁ c
    refine ⟨hstate.trans h₁.state, ?_, ?_⟩
    · rw [hlower]
      exact h₁.lower
    · rw [hqueue, hanswers]
      exact h₁.willing

variable {channels : Finset ι} {wide : ι → Bool}

/-- **Cells of the circuits are written to an open channel.** -/
lemma Ok.exists_writeAll (h : s.Ok channels wide s.written) (hc : c ∈ channels)
    (hopen : (s.chan c).state = .open) (cells : List α) :
    ∃ s', cells.foldlM (fun s cell => channelCall s (.writePackedCell c cell)) s = .ok s' ∧
      s'.Ok channels wide s'.written ∧ (s'.chan c).state = .open ∧
      (s'.written c).length = (s.written c).length + cells.length ∧
      (s.lowerLayer c).length ≤ (s'.lowerLayer c).length ∧
      (cells ≠ [] ∨ (s.chan c).outgoingQueue = [] →
        s.answers = replicate ((s.chan c).outgoingQueue.length + cells.length) true →
          (s'.chan c).outgoingQueue = []) := by
  induction cells generalizing s with
  | nil =>
    exact ⟨s, rfl, h, hopen, rfl, le_rfl, fun hempty _ => hempty.resolve_left (not_not.mpr rfl)⟩
  | cons cell cells ih =>
    have hrecord : recordWritten s c (.packed (some cell)) = { s with
        written := update s.written c (s.written c ++ [.packed (some cell)]) } := by
      refine if_neg ?_
      rw [hopen]
      decide
    obtain ⟨s₁, hs₁, ⟨hok₁, hwritten₁⟩, hsent⟩ :=
      (h.write (q := .packed (some cell)) hc rfl).exists_ok
        (write_sent (s := recordWritten s c (.packed (some cell))) rfl
          (by rw [hrecord]; exact hopen))
      fun _ hne heq => hne heq
    have hlower := hsent.lower
    rw [hrecord] at hlower
    obtain ⟨s', hs', hok', hopen', hwritten', hlower', hempty⟩ := ih hok₁ hsent.state
    refine ⟨s', ?_, hok', hopen', ?_, hlower.trans hlower', fun _ hanswers => ?_⟩
    · rw [foldlM_cons]
      show (channelWrite _ c _ >>= _) = _
      rw [hs₁]
      exact hs'
    · rw [hwritten', hwritten₁, hrecord]
      dsimp only
      rw [update_self, length_append, length_singleton, length_cons]
      omega
    · have hwilling := hsent.willing
      rw [hrecord] at hwilling
      obtain ⟨hempty₁, hanswers₁⟩ := hwilling (h.hasCell c) cells.length (by
        rw [add_right_comm, add_assoc]
        exact hanswers)
      refine hempty (.inr hempty₁) ?_
      rw [hempty₁, hanswers₁, length_nil, zero_add]

/-! ### What is right -/

/-- A channel flushes and reports exactly, for a number of cells: whatever the lower layer will
answer, the result is the number of cells that it has taken, which is not more than that number; and
it says that there is more to flush if and only if there is. -/
structure FlushesExactly (s : Channels ι α) (c : ι) (incomingQueue : List (CellQueueEntry α))
    (circCells : List α) (numCells : ℤ) : Prop where
  flushed : ∀ answers : List Bool, ∃ s' rest, ∃ flushed : ℤ,
    flushSomeCells { s with answers := answers } c circCells numCells = .ok (s', rest, flushed) ∧
      flushed = (s'.lowerLayer c).length - (s.lowerLayer c).length ∧
      (0 ≤ numCells → flushed ≤ numCells)
  more : moreToFlush incomingQueue circCells = true ↔ (s.chan c).outgoingQueue ≠ [] ∨ circCells ≠ []

lemma moreToFlush_iff (incomingQueue : List (CellQueueEntry α)) (circCells : List α) :
    moreToFlush incomingQueue circCells = true ↔ incomingQueue ≠ [] ∨ circCells ≠ [] := by
  unfold moreToFlush
  cases incomingQueue <;> cases circCells <;> simp

/-- Cells of the queue are flushed, in a channel that is right. -/
lemma Ok.exists_flushSome (h : s.Ok channels wide s.written) (hc : c ∈ channels) (numCells : ℤ) :
    ∃ r, channelFlushSomeCellsFromOutgoingQueue s c numCells = .ok r ∧
      r.1.Ok channels wide r.1.written ∧ r.1.written = s.written ∧ Flushed c numCells 0 s r := by
  obtain ⟨r, hr, ⟨hok, hwritten⟩, hflushed⟩ := (h.flushSome hc numCells).exists_ok
    (flushSomeCellsFromOutgoingQueue_flushed s c numCells) fun _ hne heq => hne heq
  exact ⟨r, hr, hwritten ▸ hok, hwritten, hflushed⟩

omit [DecidableEq ι] in
/-- The cells that were written to a channel have been taken or are in its queue. -/
lemma Ok.length_eq (h : s.Ok channels wide s.written) (c : ι) :
    (s.written c).length = (s.lowerLayer c).length + (s.chan c).outgoingQueue.length := by
  rw [h.order c, length_append]

/-- **Flushing the circuits.**  The lower layer takes more cells than the result says, by as many as
the queue has become shorter. -/
lemma Ok.exists_flushCircuits (h : s.Ok channels wide s.written) (hc : c ∈ channels)
    (hopen : (s.chan c).state = .open) {circCells : List α} (hcirc : circCells ≠ [])
    (numCells flushed : ℤ) (hleft : numCells < 0 ∨ flushed < numCells) :
    ∃ (s₁ s' : Channels ι α) (rest : List α) (result : ℤ),
      s.flushCircuits c circCells numCells flushed = .ok (s', rest, result) ∧
      flushed + ((s'.lowerLayer c).length - (s.lowerLayer c).length : ℤ) =
        result + max 0 ((s.chan c).outgoingQueue.length - (s₁.chan c).outgoingQueue.length : ℤ) ∧
      (0 ≤ numCells → result ≤ numCells) ∧
      (s.answers = replicate ((s.chan c).outgoingQueue.length +
        (circCells.take (clampedNumCells numCells flushed)).length) true →
          (s₁.chan c).outgoingQueue = []) := by
  have hclamp : 0 < clampedNumCells numCells flushed ∧
      (0 ≤ numCells → (clampedNumCells numCells flushed : ℤ) ≤ numCells - flushed) := by
    unfold clampedNumCells maxCellsToGetFromCircuitsForUnlimited
    split_ifs <;> omega
  unfold flushCircuits flushFromFirstActiveCircuit
  generalize hcells : circCells.take (clampedNumCells numCells flushed) = cells
  have hpos : 0 < cells.length ∧ cells.length ≤ clampedNumCells numCells flushed := by
    have := length_pos_iff.mpr hcirc
    rw [← hcells, length_take]
    omega
  obtain ⟨s₁, hs₁, hok₁, hopen₁, hwritten₁, hlower₁, hempty⟩ := h.exists_writeAll hc hopen cells
  have hempty := hempty (.inl (ne_nil_of_length_pos hpos.1))
  have hlen := h.length_eq c
  have hlen₁ := hok₁.length_eq c
  rw [hs₁]
  dsimp only [bind, Except.bind]
  rw [if_pos hpos.1]
  refine ⟨s₁, ?_⟩
  by_cases hlonger : (s.chan c).outgoingQueue.length < (s₁.chan c).outgoingQueue.length
  · rw [if_pos hlonger]
    generalize hdirect : max 0 ((cells.length : ℤ) -
      ((s₁.chan c).outgoingQueue.length - (s.chan c).outgoingQueue.length)) = direct
    by_cases hmore : numCells < 0 ∨ flushed + direct < numCells
    · obtain ⟨⟨s', more⟩, hs', -, -, hflushed⟩ :=
        hok₁.exists_flushSome hc (limitLeft numCells (flushed + direct))
      rw [if_pos ⟨hlonger, hmore⟩, hs']
      have htaken := hflushed.taken
      have hle := hflushed.result_le
      dsimp only at htaken hle
      unfold limitLeft at hle
      refine ⟨s', _, _, rfl, by omega, fun hnonneg => ?_, hempty⟩
      rw [if_neg (by omega)] at hle
      omega
    · rw [if_neg fun h => hmore h.2]
      exact ⟨s₁, _, _, rfl, by omega, fun _ => by omega, hempty⟩
  · rw [if_neg hlonger, if_neg fun h => hlonger h.1]
    exact ⟨s₁, _, _, rfl, by omega, fun _ => by omega, hempty⟩

/-- The lower layer refuses the first cell of a queue. -/
lemma flushSome_refused (hopen : (s.chan c).state = .open) (hn : numCells ≠ 0)
    {rest : List (CellQueueEntry α)} (hqueue : (s.chan c).outgoingQueue = q :: rest)
    (hq : q.hasCell) {answers : List Bool} (hanswers : s.answers = false :: answers) :
    channelFlushSomeCellsFromOutgoingQueue s c (limitLeft numCells 0) =
      .ok (channelUpdateXmitQueueSize { s with answers := answers } c, 0) := by
  have hlimit : limitLeft numCells 0 < 0 ∨ 0 < limitLeft numCells 0 := by
    unfold limitLeft
    split_ifs <;> omega
  have hrefuse : lowerLayerWrite s c q = ({ s with answers := answers }, 0) := by
    unfold lowerLayerWrite
    rw [hanswers]
    rfl
  unfold channelFlushSomeCellsFromOutgoingQueue
  rw [if_neg (by omega), if_pos hopen, hqueue, length_cons, flushQueue, if_pos hlimit, hqueue]
  dsimp only
  rw [if_pos hq, hrefuse, if_neg (not_not.mpr rfl)]
  rfl

/-- **When a channel flushes and reports exactly.**  In every state that is reached, a channel does
so for a number of cells if and only if it is not open, the number is zero, nothing is queued or the
circuits have no cells, and the circuits have cells or the incoming queue is empty just when the
outgoing one is. -/
theorem flushesExactly_iff (wide : ι → Bool) (events : List (ChannelEvent ι α)) (s : Channels ι α)
    (hrun : channelSteps (Channels.init wide) events = .ok s) (c : ι)
    (incomingQueue : List (CellQueueEntry α)) (circCells : List α) (numCells : ℤ) :
    FlushesExactly s c incomingQueue circCells numCells ↔
      ((s.chan c).state ≠ .open ∨ numCells = 0 ∨ (s.chan c).outgoingQueue = [] ∨ circCells = []) ∧
        (circCells ≠ [] ∨ (incomingQueue = [] ↔ (s.chan c).outgoingQueue = [])) := by
  have hok := ok_channelSteps wide (Finset.subset_insert c (events.flatMap (·.chans)).toFinset)
  rw [hrun] at hok
  have hc : c ∈ insert c (events.flatMap (·.chans)).toFinset := Finset.mem_insert_self _ _
  have hanswer : ∀ answers, Channels.Ok (insert c (events.flatMap (·.chans)).toFinset) wide
      s.written { s with answers := answers } := fun answers => Ok.congr hok rfl
  constructor
  · intro h
    refine ⟨?_, by have := h.more; rw [moreToFlush_iff] at this; tauto⟩
    by_contra hnot
    simp only [not_or, not_not] at hnot
    obtain ⟨hopen, hn, hqueue, hcirc⟩ := hnot
    obtain ⟨q, rest, hcons⟩ := exists_cons_of_ne_nil hqueue
    -- the lower layer refuses the first cell and accepts all that come after
    generalize hk : (s.chan c).outgoingQueue.length +
      (circCells.take (clampedNumCells numCells 0)).length = k
    obtain ⟨s', rest', result, hs', hexact, -⟩ := h.flushed (false :: replicate k true)
    have hrefused :=
      flushSome_refused (s := { s with answers := false :: replicate k true }) hopen hn hcons
        (hok.hasCell c q (hcons ▸ mem_cons_self)) rfl
    generalize hs₁ : channelUpdateXmitQueueSize { s with answers := replicate k true } c =
      s₁ at hrefused
    have hview : s₁.view = s.view := hs₁ ▸ view_channelUpdateXmitQueueSize _ c
    obtain ⟨hstate₁, hqueue₁, hlower₁, hanswers₁⟩ :=
      channelUpdateXmitQueueSize_frame { s with answers := replicate k true } c
    rw [hs₁] at hstate₁ hqueue₁ hlower₁ hanswers₁
    have hok₁ : s₁.Ok _ wide s₁.written := written_eq_of_view hview ▸ hok.congr hview
    obtain ⟨s₂, s'', rest'', result', hs'', hcount, -, hempty⟩ := hok₁.exists_flushCircuits hc
      (hstate₁.trans hopen) hcirc numCells 0 (by omega)
    unfold flushSomeCells at hs'
    rw [if_neg hn, if_pos hopen, hrefused] at hs'
    dsimp only [bind, Except.bind] at hs'
    rw [if_neg (by omega), if_pos (length_pos_iff.mpr hcirc), hs''] at hs'
    obtain ⟨rfl, -, rfl⟩ : s'' = s' ∧ rest'' = rest' ∧ result' = result := by simpa using hs'
    rw [hempty (by rw [hanswers₁, hqueue₁, hk]), hqueue₁, hlower₁, length_nil] at hcount
    dsimp only at hcount
    have := length_pos_iff.mpr hqueue
    omega
  · intro ⟨hcond, hmore⟩
    refine ⟨fun answers => ?_, by rw [moreToFlush_iff]; tauto⟩
    unfold flushSomeCells
    by_cases hn : numCells = 0
    · rw [if_pos hn]
      exact ⟨_, _, _, rfl, (sub_self _).symm, fun h => h⟩
    rw [if_neg hn]
    by_cases hopen : (s.chan c).state = .open
    · obtain ⟨r, hr, hok₁, hwritten₁, hflushed⟩ :=
        Ok.exists_flushSome (s := { s with answers := answers }) (hanswer answers) hc
          (limitLeft numCells 0)
      have htaken := hflushed.taken
      have hle := hflushed.result_le
      have hlen := hok.length_eq c
      have hlen₁ := hok₁.length_eq c
      rw [show r.1.written = s.written from hwritten₁] at hlen₁
      have hnonneg := hflushed.le_result
      dsimp only at htaken
      unfold limitLeft at hle
      rw [if_pos hopen, hr]
      dsimp only [bind, Except.bind]
      have hbound : 0 ≤ numCells → r.2 ≤ numCells := fun h => by
        rw [if_neg (by omega)] at hle
        omega
      by_cases hdone : 0 ≤ numCells ∧ numCells ≤ r.2
      · rw [if_pos hdone]
        exact ⟨_, _, _, rfl, by omega, hbound⟩
      rw [if_neg hdone]
      by_cases hcirc : circCells = []
      · rw [if_neg (by simp [hcirc])]
        exact ⟨_, _, _, rfl, by omega, hbound⟩
      · have hqueue :=
          ((hcond.resolve_left (not_not.mpr hopen)).resolve_left hn).resolve_right hcirc
        rw [hqueue, length_nil] at hlen
        obtain ⟨s₁, s', rest, result, hs', hcount, hresult, -⟩ := hok₁.exists_flushCircuits hc
          (hflushed.state.trans hopen) hcirc numCells r.2 (by omega)
        rw [if_pos (length_pos_iff.mpr hcirc), hs']
        exact ⟨_, _, _, rfl, by omega, hresult⟩
    · rw [if_neg hopen]
      exact ⟨_, _, _, rfl, (sub_self _).symm, fun h => h⟩

end Counting

/-- A channel is opened, and one cell is written that the lower layer refuses. -/
def queuedOnce : List (ChannelEvent Unit Unit) :=
  [.changeState () .opening [], .changeState () .open [], .call (.writeCell () ())]

/-- A channel with one cell in its queue flushes exactly if its circuits have no cells. -/
theorem flushesExactly_queuedOnce :
    ∃ s, channelSteps (Channels.init fun _ => true) queuedOnce = .ok s ∧
    FlushesExactly s () [.fixed none] [] 5 :=
  ⟨_, rfl, (flushesExactly_iff (fun _ => true) queuedOnce _ rfl () [.fixed none] [] 5).mpr
    ⟨Or.inr (Or.inr (Or.inr rfl)), Or.inr (by decide)⟩⟩

/-- A channel has one cell in its queue and two on its circuits, and the lower layer refuses a cell
and takes three.  Two are counted.  Without cells on the circuits, no cell is reported. -/
theorem not_flushesExactly : ∃ s, channelSteps (Channels.init fun _ => true) queuedOnce = .ok s ∧
    (flushSomeCells { s with answers := [false, true, true, true] } () [(), ()] 5).map
      (fun r => (r.2.2, (r.1.lowerLayer ()).length)) = .ok (2, 3) ∧
    (s.chan ()).outgoingQueue ≠ [] ∧ moreToFlush ([] : List (CellQueueEntry Unit))
      ([] : List Unit) = false :=
  ⟨_, rfl, rfl, nofun, rfl⟩

end Channels

end Astoria
