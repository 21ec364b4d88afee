import Astoria.TorClient.Circuitmux
import Astoria.TorClient.Pqueue

/-!
# The scheduler of the channels

The scheduler keeps the channels that have cells to write and can accept them in a priority queue.
A channel is in one of four states, after whether it can accept cells and whether it has any.  Calls
from the circuits and from the connections move the channels between the states, and so does
`scheduler_run`, which takes the channels from the queue and flushes cells from them, until it has
put too much into the output buffers.

How much there is in the output buffers is a heuristic, which ages with the time.  What the world
outside does is part of the state: how many cells a channel has to flush, how many it can accept,
how the multiplexers compare, the time, and what the next flushes will lead to.
-/

namespace Astoria

open Function

/-! ### The state -/

/-- The states of a channel (`scheduler_state`). -/
inductive SchedulerState
  /-- Not open for writes, no cells to send. -/
  | idle
  /-- Open for writes, no cells to send. -/
  | waitingForCells
  /-- Not open for writes, cells to send. -/
  | waitingToWrite
  /-- Open for writes, cells to send. -/
  | pending
  deriving DecidableEq

/-- What a flush leads to: how many cells it takes at most after the first, how many the channel can
accept afterwards, the adjustments of the queue size, each with its direction, and how the
multiplexers compare afterwards. -/
structure FlushAnswer where
  more : ℕ
  writeable : ℕ
  adjustments : List (ℤ × UInt64)
  compareMuxes : ChanId → ChanId → ℤ

/-- The scheduler and the world around it. -/
structure Sched where
  /-- The channels that can write and have cells. -/
  channelsPending : Pqueue ChanId
  schedulerState : ChanId → SchedulerState
  queueHeuristic : UInt64
  queueHeuristicTimestamp : ℤ
  schedQLowWater : UInt32
  schedQHighWater : UInt32
  schedMaxFlushCells : UInt32
  /-- The event that runs the scheduler is active. -/
  runSchedEv : Bool
  /-- The number of cells that a channel has to flush. -/
  cells : ChanId → ℕ
  /-- The number of cells that a channel can accept. -/
  numCellsWriteable : ChanId → ℕ
  /-- The policies of the multiplexers, by their addresses. -/
  circuitmuxPolicy : ChanId → ℕ
  /-- How the multiplexers of two channels compare (`circuitmux_compare_muxes`). -/
  compareMuxes : ChanId → ChanId → ℤ
  approxTime : ℤ
  /-- What the next flushes lead to. -/
  answers : List FlushAnswer

namespace Sched

/-- A channel goes to a state. -/
def setState (s : Sched) (chan : ChanId) (state : SchedulerState) : Sched :=
  { s with schedulerState := update s.schedulerState chan state }

/-- The number of cells that a channel has to flush becomes another one. -/
def setCells (s : Sched) (chan : ChanId) (cells : ℕ) : Sched :=
  { s with cells := update s.cells chan cells }

/-- The number of cells that a channel can accept becomes another one. -/
def setWriteable (s : Sched) (chan : ChanId) (writeable : ℕ) : Sched :=
  { s with numCellsWriteable := update s.numCellsWriteable chan writeable }

end Sched

/-- The state after `scheduler_init`, with the watermarks as they are set in the source: no channel
has cells or can accept any. -/
def schedulerInit (now : ℤ) : Sched where
  channelsPending := ⟨fun _ => 0, 0, fun _ => -1⟩
  schedulerState _ := .idle
  queueHeuristic := 0
  queueHeuristicTimestamp := now
  schedQLowWater := 16384
  schedQHighWater := 32768
  schedMaxFlushCells := 16
  runSchedEv := false
  cells _ := 0
  numCellsWriteable _ := 0
  circuitmuxPolicy _ := 0
  compareMuxes _ _ := 0
  approxTime := now
  answers := []

/-- Set the watermarks and the number of cells to flush at a time. -/
def schedulerSetWatermarks (s : Sched) (lo hi maxFlush : UInt32) : Option Sched :=
  if 0 < lo ∧ lo < hi ∧ 0 < maxFlush then
    some { s with schedQLowWater := lo, schedQHighWater := hi, schedMaxFlushCells := maxFlush }
  else none

/-! ### The queue heuristic -/

/-- Adjust the queue heuristic to the present time. -/
def schedulerUpdateQueueHeuristic (s : Sched) (now : ℤ) : Sched :=
  if s.queueHeuristicTimestamp = 0 then { s with queueHeuristicTimestamp := now }
  else if s.queueHeuristicTimestamp < now then
    let diff := now - s.queueHeuristicTimestamp
    { s with
      queueHeuristic := if 0 ≤ diff ∧ diff < 64 then s.queueHeuristic >>> UInt64.ofNat diff.toNat
        else 0
      queueHeuristicTimestamp := now }
  else s

/-- Bring the queue heuristic up to date, to query it. -/
def schedulerGetQueueHeuristic (s : Sched) : Sched := schedulerUpdateQueueHeuristic s s.approxTime

def schedulerAdjustQueueSize (s : Sched) (dir : ℤ) (adj : UInt64) : Sched :=
  let s := schedulerUpdateQueueHeuristic s s.approxTime
  if 0 ≤ dir then { s with queueHeuristic := s.queueHeuristic + adj }
  else { s with queueHeuristic := if adj < s.queueHeuristic then s.queueHeuristic - adj else 0 }

/-- The heuristic, brought up to date, is not over the high-water mark. -/
def belowHighWater (s : Sched) : Bool :=
  (schedulerGetQueueHeuristic s).queueHeuristic ≤ s.schedQHighWater.toUInt64

/-! ### The queue of channels -/

/-- Compare two channels that are pending. -/
def schedulerCompareChannels (s : Sched) (c1 c2 : ChanId) : ℤ :=
  if c1 ≠ c2 then
    if s.circuitmuxPolicy c1 = s.circuitmuxPolicy c2 then s.compareMuxes c1 c2
    else if s.circuitmuxPolicy c1 < s.circuitmuxPolicy c2 then -1 else 1
  else 0

/-- A channel is added to the queue. -/
def addPending (s : Sched) (chan : ChanId) : Sched :=
  { s with
    channelsPending := smartlistPqueueAdd (schedulerCompareChannels s) s.channelsPending chan }

/-- A channel is removed from the queue. -/
def removePending (s : Sched) (chan : ChanId) : Option Sched := do
  let q ← smartlistPqueueRemove (schedulerCompareChannels s) s.channelsPending chan
  some { s with channelsPending := q }

/-- Let the scheduler run later. -/
def schedulerRetrigger (s : Sched) : Sched := { s with runSchedEv := true }

/-! ### Reports about channels -/

/-- A channel is no longer ready to accept writes. -/
def schedulerChannelDoesntWantWrites (s : Sched) (chan : ChanId) : Option Sched :=
  if s.schedulerState chan = .pending then do
    let s ← removePending s chan
    some (s.setState chan .waitingToWrite)
  else if s.schedulerState chan = .waitingForCells then some (s.setState chan .idle)
  else some s

def schedulerChannelHasWaitingCells (s : Sched) (chan : ChanId) : Sched :=
  if s.schedulerState chan = .waitingForCells then
    schedulerRetrigger (addPending (s.setState chan .pending) chan)
  else if ¬ (s.schedulerState chan = .waitingToWrite ∨ s.schedulerState chan = .pending) then
    s.setState chan .waitingToWrite
  else s

/-- A channel is ready to accept writes. -/
def schedulerChannelWantsWrites (s : Sched) (chan : ChanId) : Sched :=
  if s.schedulerState chan = .waitingToWrite then
    schedulerRetrigger ((addPending s chan).setState chan .pending)
  else if ¬ (s.schedulerState chan = .waitingForCells ∨ s.schedulerState chan = .pending) then
    s.setState chan .waitingForCells
  else s

/-- A channel is being closed. -/
def schedulerReleaseChannel (s : Sched) (chan : ChanId) : Option Sched := do
  let s ← if s.schedulerState chan = .pending then removePending s chan else some s
  some (s.setState chan .idle)

/-- The position of a channel in the queue may have changed. -/
def schedulerTouchChannel (s : Sched) (chan : ChanId) : Option Sched :=
  if s.schedulerState chan = .pending then do
    let s ← removePending s chan
    some (addPending s chan)
  else some s

/-! ### Running the scheduler -/

/-- Flush at most so many cells of a channel (`channel_flush_some_cells`), with their number.  If
there are any, at least one is flushed. -/
def channelFlushSomeCells (s : Sched) (chan : ChanId) (numCells : ℕ) : Sched × ℕ :=
  let all := min numCells (s.cells chan)
  let answer := s.answers.headD ⟨all, s.numCellsWriteable chan - all, [], s.compareMuxes⟩
  let flushed := min all (answer.more + 1)
  let s := (s.setCells chan (s.cells chan - flushed)).setWriteable chan answer.writeable
  let s := { s with compareMuxes := answer.compareMuxes, answers := s.answers.tail }
  (answer.adjustments.foldl (fun s adj => schedulerAdjustQueueSize s adj.1 adj.2) s, flushed)

/-- Flush a channel until its allowance is used, the heuristic is over the high-water mark, or
nothing is flushed.  There are at most as many rounds as there are cells in the allowance. -/
def flushAllowance (chan : ChanId) (nCells : ℕ) : ℕ → ℕ → Sched → Sched × ℕ
  | 0, flushed, s => (s, flushed)
  | fuel + 1, flushed, s =>
    if flushed < nCells then
      if belowHighWater s then
        let r := channelFlushSomeCells (schedulerGetQueueHeuristic s) chan
          (min s.schedMaxFlushCells.toNat (nCells - flushed))
        if r.2 = 0 then (r.1, flushed) else flushAllowance chan nCells fuel (flushed + r.2) r.1
      else (schedulerGetQueueHeuristic s, flushed)
    else (s, flushed)

/-- The state for a channel of whose allowance so much has been used, or nothing if the channel is
to be added to the queue again. -/
def stateAfterFlush (s : Sched) (chan : ChanId) (nCells flushed : ℕ) : Option SchedulerState :=
  if flushed < nCells then some .waitingForCells
  else if 0 < s.cells chan then
    if 0 < s.numCellsWriteable chan then none else some .waitingToWrite
  else if 0 < s.numCellsWriteable chan then some .waitingForCells
  else some .idle

/-- A channel that was popped is flushed and goes to a state, or to the channels that are added to
the queue again. -/
def handlePopped (s : Sched) (chan : ChanId) (toReadd : List ChanId) : Sched × List ChanId :=
  let nCells := s.numCellsWriteable chan
  if 0 < nCells then
    let r := flushAllowance chan nCells nCells 0 s
    match stateAfterFlush r.1 chan nCells r.2 with
    | some state => (r.1.setState chan state, toReadd)
    | none => (r.1, toReadd ++ [chan])
  else (s.setState chan .waitingToWrite, toReadd)

/-- Pop channels and handle them, until the heuristic is over the high-water mark or there are none.
There are at most as many rounds as there are channels in the queue. -/
def runPending : ℕ → Sched → List ChanId → Option (Sched × List ChanId)
  | 0, s, toReadd => some (schedulerGetQueueHeuristic s, toReadd)
  | fuel + 1, s, toReadd =>
    let below := belowHighWater s
    let s := schedulerGetQueueHeuristic s
    if below ∧ 0 < s.channelsPending.numUsed then do
      let (q, chan) ← smartlistPqueuePop (schedulerCompareChannels s) s.channelsPending
      let r := handlePopped { s with channelsPending := q } chan toReadd
      runPending fuel r.1 r.2
    else some (s, toReadd)

/-- A channel is pending and is added to the queue again. -/
def readdPending (s : Sched) (chan : ChanId) : Sched := addPending (s.setState chan .pending) chan

/-- Run the scheduler if necessary. -/
def schedulerRun (s : Sched) : Option Sched :=
  let s := schedulerGetQueueHeuristic s
  if s.queueHeuristic < s.schedQLowWater.toUInt64 then do
    let (s, toReadd) ← runPending s.channelsPending.numUsed s []
    some (toReadd.foldl readdPending s)
  else some s

def schedulerMoreWork (s : Sched) : Bool :=
  (schedulerGetQueueHeuristic s).queueHeuristic < s.schedQLowWater.toUInt64 ∧
    0 < s.channelsPending.numUsed

def schedulerEvtCallback (s : Sched) : Option Sched := do
  let s ← schedulerRun { s with runSchedEv := false }
  let more := schedulerMoreWork s
  let s := schedulerGetQueueHeuristic s
  some (if more then schedulerRetrigger s else s)

/-! ### Runs -/

/-- The calls, and what happens outside. -/
inductive SchedEvent
  /-- A channel has cells after it may have had none, and reports it. -/
  | hasWaitingCells (chan : ChanId) (cells : ℕ)
  /-- A channel accepts cells after it may have accepted none, and reports it. -/
  | wantsWrites (chan : ChanId) (writeable : ℕ)
  /-- A channel accepts no cells any longer and reports it. -/
  | doesntWantWrites (chan : ChanId)
  /-- A channel is closed. -/
  | release (chan : ChanId)
  /-- The scheduler runs, and the flushes lead to the answers. -/
  | run (answers : List FlushAnswer)
  /-- The event for the scheduler happens. -/
  | callback (answers : List FlushAnswer)
  /-- The multiplexer of a channel has changed and the position of the channel is reported. -/
  | touch (chan : ChanId) (compareMuxes : ChanId → ChanId → ℤ)
  /-- The size of a queue is adjusted. -/
  | adjust (dir : ℤ) (adj : UInt64)
  /-- A channel changes in a way that is not reported. -/
  | change (chan : ChanId) (cells writeable : ℕ) (compareMuxes : ChanId → ChanId → ℤ)
  /-- A channel gets a multiplexer with a policy. -/
  | setPolicy (chan : ChanId) (policy : ℕ)
  | setWatermarks (lo hi maxFlush : UInt32)
  /-- The time goes on, or back. -/
  | tick (now : ℤ)

def schedStep (s : Sched) : SchedEvent → Option Sched
  | .hasWaitingCells chan cells =>
    some (schedulerChannelHasWaitingCells (s.setCells chan cells) chan)
  | .wantsWrites chan writeable =>
    some (schedulerChannelWantsWrites (s.setWriteable chan writeable) chan)
  | .doesntWantWrites chan => schedulerChannelDoesntWantWrites (s.setWriteable chan 0) chan
  | .release chan => schedulerReleaseChannel ((s.setCells chan 0).setWriteable chan 0) chan
  | .run answers => schedulerRun { s with answers := answers }
  | .callback answers => schedulerEvtCallback { s with answers := answers }
  | .touch chan compareMuxes => schedulerTouchChannel { s with compareMuxes := compareMuxes } chan
  | .adjust dir adj => some (schedulerAdjustQueueSize s dir adj)
  | .change chan cells writeable compareMuxes =>
    some { (s.setCells chan cells).setWriteable chan writeable with compareMuxes := compareMuxes }
  | .setPolicy chan policy =>
    some { s with circuitmuxPolicy := update s.circuitmuxPolicy chan policy }
  | .setWatermarks lo hi maxFlush => schedulerSetWatermarks s lo hi maxFlush
  | .tick now => some { s with approxTime := now }

/-- The events from a state, one after another. -/
def schedSteps (s : Sched) (events : List SchedEvent) : Option Sched := events.foldlM schedStep s

/-- The conditions of the channels are reported truthfully: the reports are true, and a channel that
gets its first cells, or its first room for cells, reports it.  The watermarks are sane. -/
def SchedEvent.Truthful (s : Sched) : SchedEvent → Prop
  | .hasWaitingCells _ cells => 0 < cells
  | .wantsWrites _ writeable => 0 < writeable
  | .change chan cells writeable _ =>
    (s.cells chan = 0 → cells = 0) ∧ (s.numCellsWriteable chan = 0 → writeable = 0)
  | .setWatermarks lo hi maxFlush => 0 < lo ∧ lo < hi ∧ 0 < maxFlush
  | _ => True

/-! ### Channels that are cut short -/

/-- The flushes of a channel are cut short: the heuristic is over the high-water mark while some of
the allowance is left and the channel has cells. -/
def allowanceCut (chan : ChanId) (nCells : ℕ) : ℕ → ℕ → Sched → Bool
  | 0, _, _ => false
  | fuel + 1, flushed, s =>
    if flushed < nCells then
      if belowHighWater s then
        let r := channelFlushSomeCells (schedulerGetQueueHeuristic s) chan
          (min s.schedMaxFlushCells.toNat (nCells - flushed))
        if r.2 = 0 then false else allowanceCut chan nCells fuel (flushed + r.2) r.1
      else 0 < s.cells chan
    else false

/-- The flushes of a channel that is popped are cut short. -/
def pendingCut : ℕ → Sched → List ChanId → Bool
  | 0, _, _ => false
  | fuel + 1, s, toReadd =>
    let below := belowHighWater s
    let s := schedulerGetQueueHeuristic s
    if below ∧ 0 < s.channelsPending.numUsed then
      match smartlistPqueuePop (schedulerCompareChannels s) s.channelsPending with
      | none => false
      | some (q, chan) =>
        let s := { s with channelsPending := q }
        let nCells := s.numCellsWriteable chan
        let r := handlePopped s chan toReadd
        allowanceCut chan nCells nCells 0 s || pendingCut fuel r.1 r.2
    else false

/-- The scheduler would cut the flushes of a channel short if it ran. -/
def Sched.cutShort (s : Sched) : Bool :=
  let s := schedulerGetQueueHeuristic s
  s.queueHeuristic < s.schedQLowWater.toUInt64 && pendingCut s.channelsPending.numUsed s []

/-- The scheduler runs and cuts the flushes of a channel short. -/
def SchedEvent.CutShort (s : Sched) : SchedEvent → Prop
  | .run answers => Sched.cutShort { s with answers := answers } = true
  | .callback answers => Sched.cutShort { s with answers := answers, runSchedEv := false } = true
  | _ => False

end Astoria
