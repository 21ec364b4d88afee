import Mathlib.Data.Rat.Floor

/-!
# The outgoing queues of the channels

A cell that is written to a channel goes to the lower layer at once if the channel is open and its
outgoing queue is empty, and if the lower layer takes it.  Otherwise it is queued, and the queue is
flushed as far as the lower layer takes its cells.  A channel that is opened flushes its queue, and
so does the scheduler.

The channel counts the bytes in its queue.  Global counters count the cells and the bytes that were
queued, that were passed to a lower layer and that are in queues, and an assertion relates them.

What the lower layer answers is part of the state, and so is the history: the cells that were
written to a channel, and the cells that its lower layer has taken.  An assertion that fails ends
the program.
-/

namespace Astoria

open Function

/-! ### The state -/

inductive ChannelState
  | closed
  | opening
  | open
  | maint
  | closing
  | error
  deriving DecidableEq

/-- A channel in a state is finished (`CHANNEL_FINISHED`). -/
def ChannelState.isFinished (state : ChannelState) : Bool := state = .closed ∨ state = .error

/-- An entry of a cell queue: a cell of fixed size, a packed cell, or a cell of variable size with
the length of its payload.  The cell can be missing. -/
inductive CellQueueEntry (α : Type*)
  | fixed (cell : Option α)
  | packed (cell : Option α)
  | var (cell : Option (α × UInt16))
  deriving DecidableEq

def CellQueueEntry.hasCell {α : Type*} : CellQueueEntry α → Bool
  | .fixed cell => cell.isSome
  | .packed cell => cell.isSome
  | .var cell => cell.isSome

/-- A channel, as far as its outgoing queue is concerned. -/
structure Channel (α : Type*) where
  state : ChannelState
  wideCircIds : Bool
  outgoingQueue : List (CellQueueEntry α)
  bytesInQueue : UInt64
  nCellsXmitted : UInt64
  nBytesXmitted : UInt64
  /-- The contribution to the estimate of all queues. -/
  bytesQueuedForXmit : UInt64

/-- The channels, the global counters and the lower layers. -/
structure Channels (ι α : Type*) where
  chan : ι → Channel α
  nChannelCellsQueued : UInt64
  nChannelCellsPassedToLowerLayer : UInt64
  nChannelCellsInQueues : UInt64
  nChannelBytesQueued : UInt64
  nChannelBytesPassedToLowerLayer : UInt64
  nChannelBytesInQueues : UInt64
  estimatedTotalQueueSize : UInt64
  /-- The cells that were written to a channel while it was not closing. -/
  written : ι → List (CellQueueEntry α)
  /-- The cells that the lower layer of a channel has taken. -/
  lowerLayer : ι → List (CellQueueEntry α)
  /-- Whether the lower layer accepts the cells that come next.  After that, it refuses. -/
  answers : List Bool
  /-- For the channels whose estimates are updated next, the bytes that the lower layer has queued,
  and its factor for the overhead. -/
  estimates : List (UInt64 × Option ℚ)

/-- The assertions that can fail. -/
inductive ChannelAbort
  /-- The global counters are not consistent. -/
  | counterConsistency
  /-- A cell is written to a channel in a state that cannot handle cells. -/
  | canHandleCells
  /-- A channel cannot go from one state to another. -/
  | canTransition
  /-- A channel is closed that has cells in its queue. -/
  | queueEmpty
  deriving DecidableEq

def Channels.init {ι α : Type*} (wideCircIds : ι → Bool) : Channels ι α :=
  ⟨fun c => ⟨.closed, wideCircIds c, [], 0, 0, 0, 0⟩, 0, 0, 0, 0, 0, 0, 0, fun _ => [],
    fun _ => [], [], []⟩

section Operations

variable {ι α : Type*} [DecidableEq ι]

/-- A channel becomes another one. -/
def Channels.set (s : Channels ι α) (c : ι) (chan : Channel α) : Channels ι α :=
  { s with chan := update s.chan c chan }

/-! ### Cells and the lower layer -/

def getCellNetworkSize (wideCircIds : Bool) : ℕ := if wideCircIds then 514 else 514 - 2

def getVarCellHeaderSize (wideCircIds : Bool) : ℕ := if wideCircIds then 7 else 7 - 2

/-- How big the cell in an entry is. -/
def channelGetCellQueueEntrySize (wideCircIds : Bool) : CellQueueEntry α → ℕ
  | .fixed _ => getCellNetworkSize wideCircIds
  | .var cell => getVarCellHeaderSize wideCircIds + (cell.elim 0 fun cell => cell.2.toNat)
  | .packed _ => getCellNetworkSize wideCircIds

/-- Give a cell to the lower layer (`write_cell`, `write_packed_cell` or `write_var_cell`), which
returns whether it has accepted it. -/
def lowerLayerWrite (s : Channels ι α) (c : ι) (q : CellQueueEntry α) : Channels ι α × ℤ :=
  let s' := { s with answers := s.answers.tail }
  if s.answers.headD false then
    ({ s' with lowerLayer := update s.lowerLayer c (s.lowerLayer c ++ [q]) }, 1)
  else (s', 0)

/-- The assertion about the global counters. -/
def channelAssertCounterConsistency (s : Channels ι α) : Except ChannelAbort (Channels ι α) :=
  if s.nChannelCellsQueued = s.nChannelCellsInQueues + s.nChannelCellsPassedToLowerLayer ∧
      s.nChannelBytesQueued = s.nChannelBytesInQueues + s.nChannelBytesPassedToLowerLayer then .ok s
  else .error .counterConsistency

/-- Update the estimate of the bytes to transmit. -/
def channelUpdateXmitQueueSize (s : Channels ι α) (c : ι) : Channels ι α :=
  let chan := s.chan c
  let (numBytesQueued, overhead) := s.estimates.headD (0, none)
  let s := { s with estimates := s.estimates.tail }
  let queued := numBytesQueued + chan.bytesInQueue
  let queued := match overhead with
    | some overhead =>
      if 1 ≤ overhead then UInt64.ofNat (⌊(queued.toNat : ℚ) * overhead⌋.toNat) else queued
    | none => queued
  let counted := chan.state = .open ∨ chan.state = .maint
  if chan.bytesQueuedForXmit < queued then
    let adj := queued - chan.bytesQueuedForXmit
    let s := s.set c { chan with bytesQueuedForXmit := queued }
    if counted then { s with estimatedTotalQueueSize := s.estimatedTotalQueueSize + adj } else s
  else if queued < chan.bytesQueuedForXmit then
    let adj := chan.bytesQueuedForXmit - queued
    let s := s.set c { chan with bytesQueuedForXmit := queued }
    if counted then { s with estimatedTotalQueueSize := s.estimatedTotalQueueSize - adj } else s
  else s

/-! ### Flushing the queue -/

/-- A cell has been transmitted. -/
def noteXmitted (s : Channels ι α) (c : ι) (size : ℕ) : Channels ι α :=
  let chan := s.chan c
  s.set c { chan with
    nCellsXmitted := chan.nCellsXmitted + 1
    nBytesXmitted := chan.nBytesXmitted + UInt64.ofNat size }

/-- The first entry is removed from the queue, with its cell.  The global counters and the size of
the queue follow. -/
def removeHead (s : Channels ι α) (c : ι) (size : ℕ) : Except ChannelAbort (Channels ι α) := do
  let chan := s.chan c
  let s := s.set c { chan with outgoingQueue := chan.outgoingQueue.tail }
  let s ← channelAssertCounterConsistency { s with
    nChannelCellsPassedToLowerLayer := s.nChannelCellsPassedToLowerLayer + 1
    nChannelCellsInQueues := s.nChannelCellsInQueues - 1
    nChannelBytesPassedToLowerLayer := s.nChannelBytesPassedToLowerLayer + UInt64.ofNat size
    nChannelBytesInQueues := s.nChannelBytesInQueues - UInt64.ofNat size }
  let chan := s.chan c
  .ok (s.set c { chan with bytesInQueue := chan.bytesInQueue - UInt64.ofNat size })

/-- Give the entries of the queue to the lower layer, until so many are flushed, the lower layer
refuses one, or there are none.  A negative number means no limit, and there are at most as many
rounds as there are entries. -/
def flushQueue (c : ι) (numCells : ℤ) : ℕ → ℤ → Channels ι α → Except ChannelAbort
    (Channels ι α × ℤ)
  | 0, flushed, s => .ok (s, flushed)
  | fuel + 1, flushed, s =>
    if numCells < 0 ∨ flushed < numCells then
      match (s.chan c).outgoingQueue with
      | [] => .ok (s, flushed)
      | q :: _ =>
        let size := channelGetCellQueueEntrySize (s.chan c).wideCircIds q
        if q.hasCell then
          let r := lowerLayerWrite s c q
          if r.2 ≠ 0 then do
            let s ← removeHead (noteXmitted r.1 c size) c size
            flushQueue c numCells fuel (flushed + 1) s
          else .ok (r.1, flushed)
        else do
          -- this should not happen; the entry is thrown away
          let s ← removeHead s c size
          flushQueue c numCells fuel flushed s
    else .ok (s, flushed)

/-- Flush some cells from the outgoing queue, with their number. -/
def channelFlushSomeCellsFromOutgoingQueue (s : Channels ι α) (c : ι) (numCells : ℤ) :
    Except ChannelAbort (Channels ι α × ℤ) :=
  if numCells = 0 then .ok (s, 0)
  else do
    let (s, flushed) ←
      if (s.chan c).state = .open then flushQueue c numCells (s.chan c).outgoingQueue.length 0 s
      else .ok (s, 0)
    .ok (channelUpdateXmitQueueSize s c, flushed)

/-- Flush as many cells from the queue as the lower layer takes. -/
def channelFlushCells (s : Channels ι α) (c : ι) : Except ChannelAbort (Channels ι α) := do
  let (s, _) ← channelFlushSomeCellsFromOutgoingQueue s c (-1)
  .ok s

/-! ### Writing cells -/

/-- A cell went to the lower layer at once: it counts as queued and as passed. -/
def noteSent (s : Channels ι α) (c : ι) (size : ℕ) : Except ChannelAbort (Channels ι α) :=
  let s := noteXmitted s c size
  channelAssertCounterConsistency { s with
    nChannelCellsQueued := s.nChannelCellsQueued + 1
    nChannelCellsPassedToLowerLayer := s.nChannelCellsPassedToLowerLayer + 1
    nChannelBytesQueued := s.nChannelBytesQueued + UInt64.ofNat size
    nChannelBytesPassedToLowerLayer := s.nChannelBytesPassedToLowerLayer + UInt64.ofNat size }

/-- An entry is put at the end of the queue. -/
def insertTail (s : Channels ι α) (c : ι) (q : CellQueueEntry α) (size : ℕ) :
    Except ChannelAbort (Channels ι α) := do
  let chan := s.chan c
  let s := s.set c { chan with outgoingQueue := chan.outgoingQueue ++ [q] }
  let s ← channelAssertCounterConsistency { s with
    nChannelCellsQueued := s.nChannelCellsQueued + 1
    nChannelCellsInQueues := s.nChannelCellsInQueues + 1
    nChannelBytesQueued := s.nChannelBytesQueued + UInt64.ofNat size
    nChannelBytesInQueues := s.nChannelBytesInQueues + UInt64.ofNat size }
  let chan := s.chan c
  .ok (s.set c { chan with bytesInQueue := chan.bytesInQueue + UInt64.ofNat size })

/-- Put an entry into the queue, and flush the queue if the channel is open. -/
def queueEntry (s : Channels ι α) (c : ι) (q : CellQueueEntry α) (size : ℕ) :
    Except ChannelAbort (Channels ι α) := do
  let s ← insertTail s c q size
  if (s.chan c).state = .open then channelFlushCells s c else .ok s

/-- Write the cell of an entry: try to send it right out, and queue it otherwise. -/
def channelWriteCellQueueEntry (s : Channels ι α) (c : ι) (q : CellQueueEntry α) :
    Except ChannelAbort (Channels ι α) :=
  let chan := s.chan c
  if chan.state = .opening ∨ chan.state = .open ∨ chan.state = .maint then
    let size := channelGetCellQueueEntrySize chan.wideCircIds q
    if chan.outgoingQueue = [] ∧ chan.state = .open then
      let r := lowerLayerWrite s c q
      if 0 < r.2 then noteSent r.1 c size else queueEntry r.1 c q size
    else queueEntry s c q size
  else .error .canHandleCells

/-- Write a cell to a channel, unless the channel is closing.  The functions for the three kinds of
cells differ in the entry that they make. -/
def channelWrite (s : Channels ι α) (c : ι) (q : CellQueueEntry α) :
    Except ChannelAbort (Channels ι α) :=
  if (s.chan c).state = .closing then .ok s
  else do
    let s ← channelWriteCellQueueEntry s c q
    .ok (channelUpdateXmitQueueSize s c)

/-- Write a cell of fixed size. -/
def channelWriteCell (s : Channels ι α) (c : ι) (cell : α) : Except ChannelAbort (Channels ι α) :=
  channelWrite s c (.fixed (some cell))

def channelWritePackedCell (s : Channels ι α) (c : ι) (packedCell : α) :
    Except ChannelAbort (Channels ι α) :=
  channelWrite s c (.packed (some packedCell))

/-- Write a cell of variable size. -/
def channelWriteVarCell (s : Channels ι α) (c : ι) (varCell : α) (payloadLen : UInt16) :
    Except ChannelAbort (Channels ι α) :=
  channelWrite s c (.var (some (varCell, payloadLen)))

/-! ### Changing the state -/

/-- A channel can go from one state to another. -/
def channelStateCanTransition (fromState toState : ChannelState) : Bool :=
  match fromState with
  | .closed => toState = .opening
  | .closing => toState = .closed ∨ toState = .error
  | .error => false
  | .maint => toState = .closing ∨ toState = .error ∨ toState = .open
  | .opening => toState = .closing ∨ toState = .error ∨ toState = .open
  | .open => toState = .closing ∨ toState = .error ∨ toState = .maint

/-- A channel in a state counts for the estimate of all queues. -/
def ChannelState.isCounted (state : ChannelState) : Bool := state = .open ∨ state = .maint

/-- A channel in a state is closing or finished. -/
def ChannelState.isCondemned (state : ChannelState) : Bool :=
  state = .closing ∨ state = .closed ∨ state = .error

/-- A channel is in another state, and the estimate of all queues follows. -/
def setChannelState (s : Channels ι α) (c : ι) (toState : ChannelState) : Channels ι α :=
  let chan := s.chan c
  let s := s.set c { chan with state := toState }
  let s := if toState.isCondemned ∧ chan.state.isCounted then
    { s with estimatedTotalQueueSize := s.estimatedTotalQueueSize - chan.bytesInQueue } else s
  if toState.isCounted ∧ ¬ chan.state.isCounted then
    { s with estimatedTotalQueueSize := s.estimatedTotalQueueSize + chan.bytesInQueue } else s

/-- Change the state of a channel.  What is done when a channel is opened, and with its incoming
cells, is a parameter. -/
def channelChangeState (openActions : Channels ι α → Except ChannelAbort (Channels ι α))
    (s : Channels ι α) (c : ι) (toState : ChannelState) : Except ChannelAbort (Channels ι α) :=
  if channelStateCanTransition (s.chan c).state toState then
    let s := setChannelState s c toState
    if toState = .open then do
      let s ← openActions s
      if (s.chan c).outgoingQueue ≠ [] then channelFlushCells s c else .ok s
    else if toState = .closed ∨ toState = .error then
      if (s.chan c).outgoingQueue = [] then .ok s else .error .queueEmpty
    else .ok s
  else .error .canTransition

/-! ### Runs -/

/-- The calls that write cells or flush a queue. -/
inductive ChannelCall (ι α : Type*)
  /-- A cell of fixed size is written. -/
  | writeCell (c : ι) (cell : α)
  | writePackedCell (c : ι) (packedCell : α)
  /-- A cell of variable size is written. -/
  | writeVarCell (c : ι) (varCell : α) (payloadLen : UInt16)
  /-- Some cells are flushed from the outgoing queue. -/
  | flushSome (c : ι) (numCells : ℤ)

def ChannelCall.chan : ChannelCall ι α → ι
  | .writeCell c _ => c
  | .writePackedCell c _ => c
  | .writeVarCell c _ _ => c
  | .flushSome c _ => c

/-- A cell that is written to a channel that is not closing is recorded. -/
def recordWritten (s : Channels ι α) (c : ι) (q : CellQueueEntry α) : Channels ι α :=
  if (s.chan c).state = .closing then s
  else { s with written := update s.written c (s.written c ++ [q]) }

/-- One call.  The cell that is written is recorded. -/
def channelCall (s : Channels ι α) : ChannelCall ι α → Except ChannelAbort (Channels ι α)
  | .writeCell c cell => channelWriteCell (recordWritten s c (.fixed (some cell))) c cell
  | .writePackedCell c packedCell =>
    channelWritePackedCell (recordWritten s c (.packed (some packedCell))) c packedCell
  | .writeVarCell c varCell payloadLen =>
    channelWriteVarCell (recordWritten s c (.var (some (varCell, payloadLen)))) c varCell payloadLen
  | .flushSome c numCells => do
    let (s, _) ← channelFlushSomeCellsFromOutgoingQueue s c numCells
    .ok s

/-- What happens: calls, changes of the state, in which calls are made when a channel is opened, and
what the lower layers will answer. -/
inductive ChannelEvent (ι α : Type*)
  | call (call : ChannelCall ι α)
  | changeState (c : ι) (toState : ChannelState) (openActions : List (ChannelCall ι α))
  /-- What the lower layers will answer. -/
  | lowerLayer (answers : List Bool) (estimates : List (UInt64 × Option ℚ))

def ChannelEvent.chans : ChannelEvent ι α → List ι
  | .call c => [c.chan]
  | .changeState c _ openActions => c :: openActions.map (·.chan)
  | .lowerLayer _ _ => []

def channelStep (s : Channels ι α) : ChannelEvent ι α → Except ChannelAbort (Channels ι α)
  | .call call => channelCall s call
  | .changeState c toState openActions =>
    channelChangeState (fun s => openActions.foldlM channelCall s) s c toState
  | .lowerLayer answers estimates => .ok { s with answers := answers, estimates := estimates }

/-- The events, one after another. -/
def channelSteps (s : Channels ι α) (events : List (ChannelEvent ι α)) :
    Except ChannelAbort (Channels ι α) :=
  events.foldlM channelStep s

end Operations

end Astoria
