import Mathlib
import Astoria.TorClient.ChannelQueue
import Astoria.TorClient.CircidMap

/-!
# The choice of circuit identifiers

A new circuit gets an identifier that is drawn at random until one is found that is not in use on
the channel.  An identifier is in use as long as a circuit has it, or a destroy cell for it is
pending.

When a side of a circuit is closed, a destroy cell for it is put into a queue of the multiplexer of
the channel. Later it is written to the channel, which sends it at once or puts it into its outgoing
queue.  What the lower layers answer, which circuits have cells to send, and what is drawn are given
with the events.
-/

namespace Astoria.CircIds

open Function

/-! ### Channels -/

/-- Which identifiers are chosen on a channel (`circ_id_type_t`). -/
inductive CircIdType
  | lower | higher | neither
  deriving DecidableEq

structure ChanConfig where
  wideCircIds : Bool
  circIdType : CircIdType

structure WireCell where
  circId : CircId
  isDestroy : Bool
  deriving DecidableEq

/-- An identifier in a cell on the wire. -/
def wireCircId (wide : Bool) (id : CircId) : CircId := if wide then id else id.toUInt16.toUInt32

/-- The identifier in an entry with a destroy cell (`is_destroy_cell`). -/
def isDestroyCell : CellQueueEntry WireCell → Option CircId
  | .fixed cell => (cell.filter WireCell.isDestroy).map WireCell.circId
  | .packed cell => (cell.filter WireCell.isDestroy).map WireCell.circId
  | .var cell => ((cell.map Prod.fst).filter WireCell.isDestroy).map WireCell.circId

/-- The circuits, the channels and the multiplexers. -/
structure IdSystem where
  circids : CircidState
  channels : Channels ChanId WireCell
  /-- The identifiers in the destroy cells that wait in the multiplexers. -/
  destroyCellQueue : ChanId → List CircId
  lastCellWasDestroy : ChanId → Bool

section Model

variable (cfg : ChanId → ChanConfig)

/-- Channels that are open, without circuits. -/
def IdSystem.start : IdSystem where
  circids := CircidState.init
  channels :=
    { Channels.init fun ch => (cfg ch).wideCircIds with
      chan := fun ch => ⟨.open, (cfg ch).wideCircIds, [], 0, 0, 0, 0⟩ }
  destroyCellQueue _ := []
  lastCellWasDestroy _ := false

/-! ### Drawing identifiers -/

/-- How often an identifier is drawn. -/
def maxCircidAttempts : ℕ := 64

/-- The number of identifiers to choose from. -/
def maxRange (ch : ChanId) : CircId := if (cfg ch).wideCircIds then 2 ^ 31 else 2 ^ 15

/-- The bit that all chosen identifiers have. -/
def highBit (ch : ChanId) : CircId := if (cfg ch).circIdType = .higher then maxRange cfg ch else 0

/-- Draw identifiers until one is not in use.  The result is 0 after too many attempts.  The numbers
that are drawn may not suffice. -/
def drawCircId (ch : ChanId) : List CircId → ℕ → CircidState → Option (CircidState × CircId)
  | _, 0, s => some (s, 0)
  | [], _ + 1, _ => none
  | r :: rand, attempts + 1, s =>
    if r &&& (maxRange cfg ch - 1) = 0 then drawCircId ch rand (attempts + 1) s
    else do
      let testCircId := (r &&& (maxRange cfg ch - 1)) ||| highBit cfg ch
      let (s, inUse) ← circuitIdInUseOnChannel s testCircId ch
      if inUse ≠ 0 then drawCircId ch rand attempts s else some (s, testCircId)

/-- An identifier that is not in use on a channel, or 0 (`get_unique_circ_id_by_chan`). -/
def getUniqueCircIdByChan (s : CircidState) (ch : ChanId) (rand : List CircId) :
    Option (CircidState × CircId) :=
  if (cfg ch).circIdType = .neither then some (s, 0) else drawCircId cfg ch rand maxCircidAttempts s

/-! ### Writing cells -/

/-- A destroy cell that is written is no longer pending. -/
def noteWritten (s : IdSystem) (ch : ChanId) (q : CellQueueEntry WireCell) : Option IdSystem :=
  match isDestroyCell q with
  | none => some s
  | some id => (channelNoteDestroyNotPending s.circids ch id).map fun circids =>
    { s with circids := circids }

/-- Write a cell to a channel, unless the channel is closing. -/
def channelWriteEntry (s : IdSystem) (ch : ChanId) (q : CellQueueEntry WireCell) :
    Option IdSystem :=
  (if (s.channels.chan ch).state = .closing then some s else noteWritten s ch q).bind fun s =>
    (channelWrite (recordWritten s.channels ch q) ch q).toOption.map fun channels =>
      { s with channels := channels }

/-- Write one cell of a multiplexer: a destroy cell, or else a cell of the first active circuit with
this identifier. They take turns. -/
def flushOne (s : IdSystem) (ch : ChanId) (active : Option CircId) : Option IdSystem :=
  match s.destroyCellQueue ch, active with
  | id :: queue, none =>
    channelWriteEntry
      { s with
        destroyCellQueue := update s.destroyCellQueue ch queue
        lastCellWasDestroy := update s.lastCellWasDestroy ch true } ch (.packed (some ⟨id, true⟩))
  | id :: queue, some circId =>
    if s.lastCellWasDestroy ch then
      channelWriteEntry { s with lastCellWasDestroy := update s.lastCellWasDestroy ch false } ch
        (.packed (some ⟨circId, false⟩))
    else
      channelWriteEntry
        { s with
          destroyCellQueue := update s.destroyCellQueue ch queue
          lastCellWasDestroy := update s.lastCellWasDestroy ch true } ch (.packed (some ⟨id, true⟩))
  | [], some circId =>
    channelWriteEntry { s with lastCellWasDestroy := update s.lastCellWasDestroy ch false } ch
      (.packed (some ⟨circId, false⟩))
  | [], none => some s

/-- Write cells of a multiplexer.  The first active circuits are given, as long as there are any. -/
def channelFlushFromFirstActiveCircuit (s : IdSystem) (ch : ChanId)
    (actives : List (Option CircId)) :
    Option IdSystem :=
  actives.foldlM (fun s active => flushOne s ch active) s

/-! ### Destroy cells -/

/-- Send a destroy cell.  If the channel has nothing to write, one cell is written at once. -/
def channelSendDestroy (s : IdSystem) (now : ℕ) (ch : ChanId) (id : CircId)
    (primed : Option (Option CircId)) :
    Option IdSystem :=
  if id = 0 then some s
  else if (s.channels.chan ch).state.isCondemned then some s
  else do
    let circids ← channelNoteDestroyPending s.circids now ch id
    let s : IdSystem :=
      { s with
        circids := circids
        destroyCellQueue := update s.destroyCellQueue ch
          (s.destroyCellQueue ch ++ [wireCircId (cfg ch).wideCircIds id]) }
    match primed with
    | none => some s
    | some active => flushOne s ch active

/-- A circuit leaves the channel of one of its sides. -/
def unlinkSide (s : IdSystem) (now c : ℕ) (d : CellDirection) : Option IdSystem :=
  (circuitSetSide s.circids now c d 0 none).map fun circids => { s with circids := circids }

/-- A destroy cell is sent for a side of a circuit that has a channel, and the circuit leaves it. -/
def closeSide (s : IdSystem) (now c : ℕ) (d : CellDirection) (primed : Option (Option CircId)) :
    Option IdSystem :=
  match s.circids.side c d with
  | none => some s
  | some e =>
    match e.chan with
    | none => some s
    | some ch => do
      let s ← channelSendDestroy cfg s now ch e.circId primed
      unlinkSide s now c d

/-! ### Circuits -/

def circuitMarkForClose (s : IdSystem) (now c : ℕ) (primedN primedP : Option (Option CircId)) :
    Option IdSystem := do
  let circ ← s.circids.circ c
  if circ.markedForClose then some s
  else do
    let s ← closeSide cfg s now c .dirOut primedN
    let s ← closeSide cfg s now c .dirIn primedP
    let marked := (s.circids.circ c).map fun circ => { circ with markedForClose := true }
    some { s with circids := { s.circids with circs := s.circids.circs.set c marked } }

/-- A circuit that is open and has no channel away from its origin gets an identifier on one. -/
def circuitDeliverCreateCell (s : IdSystem) (now c : ℕ) (ch : ChanId) (rand : List CircId) :
    Option IdSystem := do
  let circ ← s.circids.circ c
  if circ.markedForClose ∨ circ.n.chan ≠ none then none
  else do
    let (circids, id) ← getUniqueCircIdByChan cfg s.circids ch rand
    if id = 0 then some { s with circids := circids }
    else do
      let circids ← circuitSetNCircidChan circids now c id (some ch)
      some { s with circids := circids }

/-- The identifier is not one that the other side of the channel should choose. -/
def isUnexpectedCircId (ch : ChanId) (id : CircId) : Bool :=
  let idIsHigh := id &&& maxRange cfg ch ≠ 0
  idIsHigh && (cfg ch).circIdType = .higher || !idIsHigh && (cfg ch).circIdType = .lower

/-- A create cell arrives.  It may be refused, because no circuits are taken. -/
def commandProcessCreateCell (s : IdSystem) (now : ℕ) (ch : ChanId) (circId : CircId)
    (refused : Bool) (primed : Option (Option CircId)) : Option IdSystem :=
  let id := wireCircId (cfg ch).wideCircIds circId
  if id = 0 then some s
  else do
    let (circids, inUse) ← circuitIdInUseOnChannel s.circids id ch
    let s : IdSystem := { s with circids := circids }
    if inUse ≠ 0 then some s
    else if refused || isUnexpectedCircId cfg ch id then channelSendDestroy cfg s now ch id primed
    else do
      let c := s.circids.circs.length
      let circids ← circuitSetPCircidChan (circidCircuitNew s.circids false) now c id (some ch)
      some { s with circids := circids }

/-- A destroy cell arrives: from the origin of the circuit, or from its other side. -/
def commandProcessDestroyCell (s : IdSystem) (now : ℕ) (ch : ChanId) (circId : CircId)
    (primed : Option (Option CircId)) : Option IdSystem := do
  let id := wireCircId (cfg ch).wideCircIds circId
  let (circids, found) ← circuitGetByCircidChannel s.circids id ch
  let s : IdSystem := { s with circids := circids }
  match found with
  | none => some s
  | some c => do
    let circ ← s.circids.circ c
    if (circ.p.any fun e => e.chan = some ch && e.circId = id) then do
      let s ← unlinkSide s now c .dirIn
      circuitMarkForClose cfg s now c primed none
    else do
      let s ← unlinkSide s now c .dirOut
      if circ.p.isNone then circuitMarkForClose cfg s now c none none else some s

/-! ### Runs -/

inductive IdEvent
  /-- A circuit is created, which begins here or not. -/
  | newCircuit (isOrigin : Bool)
  /-- A circuit gets an identifier on a channel away from its origin. -/
  | deliverCreateCell (now c : ℕ) (ch : ChanId) (rand : List CircId)
  /-- A create cell arrives. -/
  | processCreateCell (now : ℕ) (ch : ChanId) (circId : CircId) (refused : Bool)
    (primed : Option (Option CircId))
  | markForClose (now c : ℕ) (primedN primedP : Option (Option CircId))
  | truncate (now c : ℕ) (primed : Option (Option CircId))
  /-- A destroy cell arrives. -/
  | processDestroyCell (now : ℕ) (ch : ChanId) (circId : CircId) (primed : Option (Option CircId))
  /-- A circuit is freed. -/
  | free (now c : ℕ)
  /-- Cells of a multiplexer are written. -/
  | flush (ch : ChanId) (actives : List (Option CircId))
  /-- A cell is written that is no destroy cell and belongs to no circuit. -/
  | write (ch : ChanId) (circId : CircId)
  /-- Some cells of an outgoing queue are sent. -/
  | flushSome (ch : ChanId) (numCells : ℤ)
  /-- What the lower layers will answer. -/
  | lowerLayer (answers : List Bool) (estimates : List (UInt64 × Option ℚ))

def IdSystem.step (s : IdSystem) : IdEvent → Option IdSystem
  | .newCircuit isOrigin => some { s with circids := circidCircuitNew s.circids isOrigin }
  | .deliverCreateCell now c ch rand => circuitDeliverCreateCell cfg s now c ch rand
  | .processCreateCell now ch circId refused primed =>
    commandProcessCreateCell cfg s now ch circId refused primed
  | .markForClose now c primedN primedP => circuitMarkForClose cfg s now c primedN primedP
  | .truncate now c primed => closeSide cfg s now c .dirOut primed
  | .processDestroyCell now ch circId primed => commandProcessDestroyCell cfg s now ch circId primed
  | .free now c => (circidCircuitFree s.circids now c).map fun circids =>
    { s with circids := circids }
  | .flush ch actives => channelFlushFromFirstActiveCircuit s ch actives
  | .write ch circId => channelWriteEntry s ch (.fixed (some ⟨circId, false⟩))
  | .flushSome ch numCells =>
    (channelFlushSomeCellsFromOutgoingQueue s.channels ch numCells).toOption.map fun r =>
      { s with channels := r.1 }
  | .lowerLayer answers estimates =>
    some { s with channels := { s.channels with answers := answers, estimates := estimates } }

end Model

end Astoria.CircIds
