import Astoria.Library.DoublyLinked
import Astoria.Library.Runs
import Mathlib

/-!
# Circuit multiplexers

The multiplexer of a channel keeps a table of the circuits that are attached to it, with the number
of queued cells of each, and a doubly linked list of those that have cells.  A circuit can be
attached to the multiplexers of two channels, one for each direction; the pointers of the lists are
fields of the circuit, with one set for each direction.

A multiplexer is named by its channel.  Functions yield `none` where an assertion fails.  The
callbacks of a policy only see data of their own; of these the model keeps whether there are any.
-/

namespace Astoria

open Function
open DoublyLinked

/-! ### Circuits and multiplexers -/

inductive CellDirection
  /-- Towards the origin. -/
  | dirIn
  /-- Away from the origin. -/
  | dirOut
  deriving DecidableEq

/-- The identifier of a channel. -/
abbrev ChanId := UInt64

/-- The identifier of a circuit on a channel. -/
abbrev CircId := UInt32

structure CircuitmuxPolicy (C : Type) where
  /-- Whether there is `alloc_cmux_data`, and whether it returns data. -/
  allocCmuxData : Option Bool
  /-- Whether there is `free_cmux_data`. -/
  freeCmuxData : Bool
  /-- Whether there is `alloc_circ_data`, and whether it returns data. -/
  allocCircData : Option (C → CellDirection → UInt32 → Bool)
  /-- Whether there is `free_circ_data`. -/
  freeCircData : Bool
  /-- Whether there is `notify_circ_active`. -/
  notifyCircActive : Bool
  /-- Whether there is `notify_circ_inactive`. -/
  notifyCircInactive : Bool
  /-- Whether there is `pick_active_circuit`. -/
  pickActiveCircuit : Bool

/-- The circuits, with their channels and identifiers in both directions. -/
structure CircuitWorld (C P : Type) where
  /-- Whether a circuit is an `or_circuit_t`. -/
  isOrCircuit : C → Bool
  /-- The channels of a circuit: `n_chan` away from the origin, `p_chan` towards it. -/
  chan : C → CellDirection → Option ChanId
  /-- The identifiers of a circuit on these channels. -/
  circId : C → CellDirection → CircId
  circuitGetByCircidChannel : CircId → ChanId → Option C
  policy : P → CircuitmuxPolicy C
  chan_ne : ∀ c chan', chan c .dirOut = some chan' → isOrCircuit c → chan c .dirIn ≠ some chan'
  get_circId : ∀ c d chan', chan c d = some chan' → circId c d ≠ 0 → (d = .dirIn → isOrCircuit c) →
    circuitGetByCircidChannel (circId c d) chan' = some c

/-- An entry in the table of a multiplexer. -/
structure MuxEntry where
  chanId : ChanId
  /-- The identifier of the circuit on the channel. -/
  circId : CircId
  /-- The number of queued cells. -/
  cellCount : UInt32
  direction : CellDirection
  policyData : Bool
  /-- The mark for the consistency check. -/
  mark : Bool

structure Circuitmux (C P : Type) where
  nCircuits : UInt32
  /-- The number of circuits with cells. -/
  nActiveCircuits : UInt32
  nCells : UInt32
  chanidCircidMap : List MuxEntry
  /-- The first circuit with cells. -/
  activeCircuitsHead : Option C
  /-- The last circuit with cells. -/
  activeCircuitsTail : Option C
  destroyCellQueue : ℕ
  lastCellWasDestroy : Bool
  /-- The balance of destroy cells. -/
  destroyCtr : ℤ
  policy : Option P
  policyData : Bool

/-- The fields of a circuit for one direction. -/
structure CircuitEnd (C : Type) where
  /-- The multiplexer that the circuit is attached to. -/
  mux : Option ChanId
  /-- The next circuit in its list. -/
  nextActive : Option C
  /-- The previous circuit in its list. -/
  prevActive : Option C

/-- The multiplexers of all channels and the circuits. -/
structure CmuxState (C P : Type) where
  mux : ChanId → Circuitmux C P
  ends : C → CellDirection → CircuitEnd C
  /-- The balance of destroy cells of all multiplexers. -/
  globalDestroyCtr : ℤ

/-- A new multiplexer. -/
def circuitmuxAlloc (C P : Type) : Circuitmux C P :=
  ⟨0, 0, 0, [], none, none, 0, false, 0, none, false⟩

/-- New multiplexers, to which no circuit is attached. -/
def CmuxState.init (C P : Type) : CmuxState C P :=
  ⟨fun _ => circuitmuxAlloc C P, fun _ _ => ⟨none, none, none⟩, 0⟩

def torAssert (p : Prop) [Decidable p] : Option Unit := if p then some () else none

/-! ### The table -/

def htFind (map : List MuxEntry) (chanId : ChanId) (circId : CircId) : Option MuxEntry :=
  map.find? fun e => e.chanId = chanId ∧ e.circId = circId

/-- Change an entry. -/
def htUpdate (map : List MuxEntry) (e : MuxEntry) (f : MuxEntry → MuxEntry) : List MuxEntry :=
  map.map fun e' => if e'.chanId = e.chanId ∧ e'.circId = e.circId then f e' else e'

def htRemove (map : List MuxEntry) (e : MuxEntry) : List MuxEntry :=
  map.filter fun e' => !(e'.chanId = e.chanId ∧ e'.circId = e.circId : Bool)

namespace CmuxState

variable {C P : Type}

/-- Change a multiplexer. -/
def setMux (s : CmuxState C P) (m : ChanId) (f : Circuitmux C P → Circuitmux C P) : CmuxState C P :=
  { s with mux := update s.mux m (f (s.mux m)) }

/-- Change the head of a list. -/
def setHead (s : CmuxState C P) (m : ChanId) (v : Option C) : CmuxState C P :=
  s.setMux m fun x => { x with activeCircuitsHead := v }

/-- Change the tail of a list. -/
def setTail (s : CmuxState C P) (m : ChanId) (v : Option C) : CmuxState C P :=
  s.setMux m fun x => { x with activeCircuitsTail := v }

variable [DecidableEq C]

/-- Change the fields of a circuit. -/
def setEnd (s : CmuxState C P) (c : C) (d : CellDirection) (x : CircuitEnd C) : CmuxState C P :=
  { s with ends := update s.ends c (update (s.ends c) d x) }

/-- Change the multiplexer that a circuit is attached to. -/
def setCircMux (s : CmuxState C P) (c : C) (d : CellDirection) (v : Option ChanId) :
    CmuxState C P :=
  s.setEnd c d { s.ends c d with mux := v }

/-- Change a pointer to the next circuit. -/
def setNext (s : CmuxState C P) (c : C) (d : CellDirection) (v : Option C) : CmuxState C P :=
  s.setEnd c d { s.ends c d with nextActive := v }

/-- Change a pointer to the previous circuit. -/
def setPrev (s : CmuxState C P) (c : C) (d : CellDirection) (v : Option C) : CmuxState C P :=
  s.setEnd c d { s.ends c d with prevActive := v }

end CmuxState

section Model

variable {C P : Type} [DecidableEq C] [DecidableEq P] (w : CircuitWorld C P)

def policyOf (s : CmuxState C P) (m : ChanId) : Option (CircuitmuxPolicy C) :=
  (s.mux m).policy.map w.policy

def circuitmuxFindMapEntry (s : CmuxState C P) (m : ChanId) (c : C) : Option (Option MuxEntry) :=
  match (w.chan c .dirOut).bind fun chan =>
      htFind (s.mux m).chanidCircidMap chan (w.circId c .dirOut) with
  | some e => do
    torAssert (e.direction = .dirOut)
    return some e
  | none =>
    if w.isOrCircuit c then
      match (w.chan c .dirIn).bind fun chan =>
          htFind (s.mux m).chanidCircidMap chan (w.circId c .dirIn) with
      | some e => do
        torAssert (e.direction = .dirIn)
        return some e
      | none => return none
    else return none

/-! ### The list of circuits with cells -/

/-- The direction whose pointers are those of the list of a multiplexer
(`circuitmux_next_active_circ_p` and `circuitmux_prev_active_circ_p`). -/
def circuitmuxActiveCircP (s : CmuxState C P) (m : ChanId) (c : C) : Option CellDirection :=
  if (s.ends c .dirOut).mux = some m then some .dirOut
  else do
    torAssert (w.isOrCircuit c = true)
    torAssert ((s.ends c .dirIn).mux = some m)
    return .dirIn

/-- A neighbour in the list, with the direction of its pointers. -/
def circP (s : CmuxState C P) (m : ChanId) (neighbour : Option C) :
    Option (Option (C × CellDirection)) :=
  match neighbour with
  | some c => (circuitmuxActiveCircP w s m c).map fun d => some (c, d)
  | none => some none

/-- Write the pointer of the next circuit to the previous one, or the tail if there is no next
circuit (`*next_prev`). -/
def writeNextPrev (s : CmuxState C P) (m : ChanId) (nextPrev : Option (C × CellDirection))
    (v : Option C) : CmuxState C P :=
  match nextPrev with
  | some (c, d) => s.setPrev c d v
  | none => s.setTail m v

/-- Write the pointer of the previous circuit to the next one, or the head if there is no previous
circuit (`*prev_next`). -/
def writePrevNext (s : CmuxState C P) (m : ChanId) (prevNext : Option (C × CellDirection))
    (v : Option C) : CmuxState C P :=
  match prevNext with
  | some (c, d) => s.setNext c d v
  | none => s.setHead m v

/-- Move a circuit with cells to the tail of the list. -/
def circuitmuxMoveActiveCircToTail (s : CmuxState C P) (m : ChanId) (c : C) (d : CellDirection) :
    Option (CmuxState C P) := do
  torAssert (d = .dirIn → w.isOrCircuit c = true)
  torAssert ((s.ends c d).mux = some m)
  if (s.ends c d).nextActive = none ∧ (s.ends c d).prevActive = none ∧
      ¬ ((s.mux m).activeCircuitsHead = some c ∨ (s.mux m).activeCircuitsTail = some c) then
    return s
  else if (s.mux m).activeCircuitsTail = some c then return s
  else
    let nextPrev ← circP w s m (s.ends c d).nextActive
    let prevNext ← circP w s m (s.ends c d).prevActive
    let s := writePrevNext s m prevNext (s.ends c d).nextActive
    -- a circuit without a next one would be the tail
    let s := if nextPrev.isSome then writeNextPrev s m nextPrev (s.ends c d).prevActive else s
    let s := s.setNext c d none
    let s := s.setPrev c d (s.mux m).activeCircuitsTail
    match (s.mux m).activeCircuitsTail with
    | some t => do
      let d' ← circuitmuxActiveCircP w s m t
      return (s.setNext t d' (some c)).setTail m (some c)
    | none => return (s.setHead m (some c)).setTail m (some c)

/-- Notify the policy about a circuit, if it has the callback: the data of the circuit is needed. -/
def notifyCirc (s : CmuxState C P) (m : ChanId) (c : C) (callback : CircuitmuxPolicy C → Bool) :
    Option Unit :=
  if (policyOf w s m).any callback then do
    let hashent ← circuitmuxFindMapEntry w s m c
    torAssert (hashent.isSome = true)
  else some ()

/-- Put a circuit in front of the list. -/
def circuitmuxMakeCircuitActive (s : CmuxState C P) (m : ChanId) (c : C) (d : CellDirection) :
    Option (CmuxState C P) := do
  torAssert (d = .dirIn → w.isOrCircuit c = true)
  torAssert ((s.ends c d).mux = some m)
  torAssert (w.chan c d ≠ none)
  if (s.ends c d).prevActive ≠ none ∨ (s.ends c d).nextActive ≠ none ∨
      (s.mux m).activeCircuitsHead = some c ∨ (s.mux m).activeCircuitsTail = some c then
    -- only a warning: it is in the list already
    return s
  else
    let s := s.setNext c d (s.mux m).activeCircuitsHead
    let s := s.setPrev c d none
    match (s.mux m).activeCircuitsHead with
    | some h => do
      let d' ← circuitmuxActiveCircP w s m h
      let s := (s.setPrev h d' (some c)).setHead m (some c)
      notifyCirc w s m c CircuitmuxPolicy.notifyCircActive
      return s
    | none => do
      let s := (s.setTail m (some c)).setHead m (some c)
      notifyCirc w s m c CircuitmuxPolicy.notifyCircActive
      return s

/-- Take a circuit out of the list. -/
def circuitmuxMakeCircuitInactive (s : CmuxState C P) (m : ChanId) (c : C) (d : CellDirection) :
    Option (CmuxState C P) := do
  torAssert (d = .dirIn → w.isOrCircuit c = true)
  torAssert ((s.ends c d).mux = some m)
  torAssert (w.chan c d ≠ none)
  if (s.ends c d).prevActive = none ∧ (s.ends c d).nextActive = none ∧
      (s.mux m).activeCircuitsHead ≠ some c ∧ (s.mux m).activeCircuitsTail ≠ some c then
    -- only a warning: it is not in the list
    return s
  else
    let nextPrev ← circP w s m (s.ends c d).nextActive
    let prevNext ← circP w s m (s.ends c d).prevActive
    let s := writeNextPrev s m nextPrev (s.ends c d).prevActive
    let s := writePrevNext s m prevNext (s.ends c d).nextActive
    let s := s.setPrev c d none
    let s := s.setNext c d none
    notifyCirc w s m c CircuitmuxPolicy.notifyCircInactive
    return s

/-- The active circuit counter and the list after the number of cells of a circuit has changed. -/
def circuitmuxUpdateActive (s : CmuxState C P) (m : ChanId) (c : C) (d : CellDirection)
    (oldCells newCells : UInt32) : Option (CmuxState C P) :=
  if 0 < oldCells ∧ newCells = 0 then
    circuitmuxMakeCircuitInactive w
      (s.setMux m fun x => { x with nActiveCircuits := x.nActiveCircuits - 1 }) m c d
  else if oldCells = 0 ∧ 0 < newCells then
    circuitmuxMakeCircuitActive w
      (s.setMux m fun x => { x with nActiveCircuits := x.nActiveCircuits + 1 }) m c d
  else some s

/-! ### Attaching and detaching -/

/-- A policy that has given data for a circuit frees it. -/
def freeCircData (pol : Option (CircuitmuxPolicy C)) (e : MuxEntry) : Option Unit :=
  torAssert (e.policyData = true → pol.any CircuitmuxPolicy.freeCircData = true)

/-- The data of a new circuit for the policy, where it keeps any. -/
def allocCircData (pol : Option (CircuitmuxPolicy C)) (c : C) (d : CellDirection) (cells : UInt32) :
    Option Bool :=
  match pol.bind CircuitmuxPolicy.allocCircData with
  | some alloc => do
    torAssert (pol.any CircuitmuxPolicy.freeCircData = true)
    torAssert (alloc c d cells = true)
    return true
  | none => some false

/-- Attach a circuit with its queued cells. -/
def circuitmuxAttachCircuit (s : CmuxState C P) (m : ChanId) (c : C) (d : CellDirection)
    (cellCount : UInt32) : Option (CmuxState C P) := do
  torAssert (d = .dirIn → w.isOrCircuit c = true)
  let chanId ← w.chan c d
  torAssert (w.circId c d ≠ 0)
  match htFind (s.mux m).chanidCircidMap chanId (w.circId c d) with
  | some hashent => do
    -- it was attached already
    torAssert ((s.ends c d).mux = some m)
    torAssert (hashent.direction = d)
    let s ← circuitmuxUpdateActive w s m c d hashent.cellCount cellCount
    return s.setMux m fun x =>
      { x with
        nCells := x.nCells - hashent.cellCount + cellCount
        chanidCircidMap := htUpdate x.chanidCircidMap hashent fun e =>
          { e with cellCount := cellCount } }
  | none => do
    torAssert ((s.ends c d).mux = none)
    let data ← allocCircData (policyOf w s m) c d cellCount
    let s := s.setMux m fun x =>
      { x with
        nCircuits := x.nCircuits + 1
        chanidCircidMap := ⟨chanId, w.circId c d, cellCount, d, data, false⟩ :: x.chanidCircidMap }
    let s := ((s.setCircMux c d (some m)).setNext c d none).setPrev c d none
    let s ← circuitmuxUpdateActive w s m c d 0 cellCount
    return s.setMux m fun x => { x with nCells := x.nCells + cellCount }

/-- Search for the entry of a circuit: the result, and the direction that was searched last. -/
def searchBothDirections (s : CmuxState C P) (m : ChanId) (c : C) :
    Option MuxEntry × Option CellDirection :=
  match (w.chan c .dirOut).bind fun chan =>
      htFind (s.mux m).chanidCircidMap chan (w.circId c .dirOut) with
  | some e => (some e, some .dirOut)
  | none =>
    match w.chan c .dirIn with
    | some chan =>
      if w.isOrCircuit c then
        (htFind (s.mux m).chanidCircidMap chan (w.circId c .dirIn), some .dirIn)
      else (none, (w.chan c .dirOut).map fun _ => .dirOut)
    | none => (none, (w.chan c .dirOut).map fun _ => .dirOut)

def circuitmuxDetachCircuit (s : CmuxState C P) (m : ChanId) (c : C) : Option (CmuxState C P) := do
  let (found, searched) := searchBothDirections w s m c
  let lastSearchedDirection ← searched
  match found with
  | none => return s
  | some hashent => do
    let s := s.setMux m fun x => { x with nCircuits := x.nCircuits - 1 }
    let s ← circuitmuxUpdateActive w s m c lastSearchedDirection hashent.cellCount 0
    freeCircData (policyOf w s m) hashent
    torAssert (lastSearchedDirection = hashent.direction)
    let s := s.setCircMux c lastSearchedDirection none
    return s.setMux m fun x =>
      { x with
        nCells := x.nCells - hashent.cellCount
        chanidCircidMap := htRemove x.chanidCircidMap hashent }

/-- Detach the circuit of an entry, where it is found, and remove the entry. -/
def detachEntry (m : ChanId) (s : CmuxState C P) (toRemove : MuxEntry) : Option (CmuxState C P) :=
  match w.circuitGetByCircidChannel toRemove.circId toRemove.chanId with
  | some c =>
    if toRemove.direction = .dirOut ∨ w.isOrCircuit c then do
      let s ← (if 0 < toRemove.cellCount then
        circuitmuxMakeCircuitInactive w s m c toRemove.direction
        else some s)
      let s := s.setCircMux c toRemove.direction none
      freeCircData (policyOf w s m) toRemove
      return s.setMux m fun x => { x with chanidCircidMap := htRemove x.chanidCircidMap toRemove }
    else do
      freeCircData (policyOf w s m) toRemove
      return s.setMux m fun x => { x with chanidCircidMap := htRemove x.chanidCircidMap toRemove }
  | none => do
    torAssert (toRemove.policyData = false)
    return s.setMux m fun x => { x with chanidCircidMap := htRemove x.chanidCircidMap toRemove }

def circuitmuxDetachAllCircuits (s : CmuxState C P) (m : ChanId) : Option (CmuxState C P) := do
  let s ← (s.mux m).chanidCircidMap.foldlM (detachEntry w m) s
  return s.setMux m fun x => { x with nCircuits := 0, nActiveCircuits := 0, nCells := 0 }

/-! ### Cells -/

def circuitmuxSetNumCells (s : CmuxState C P) (m : ChanId) (c : C) (nCells : UInt32) :
    Option (CmuxState C P) := do
  let hashent ← (← circuitmuxFindMapEntry w s m c)
  let s := s.setMux m fun x =>
    { x with
      nCells := x.nCells - hashent.cellCount + nCells
      chanidCircidMap := htUpdate x.chanidCircidMap hashent fun e =>
        { e with cellCount := nCells } }
  circuitmuxUpdateActive w s m c hashent.direction hashent.cellCount nCells

/-- Pick a circuit to send from: the state, whether to send a destroy cell, and the circuit.  What
the policy picks is `pick`. -/
def circuitmuxGetFirstActiveCircuit (s : CmuxState C P) (m : ChanId) (pick : Option C) :
    Option (CmuxState C P × Bool × Option C) :=
  if (s.mux m).destroyCellQueue ≠ 0 ∧
      (¬ (s.mux m).lastCellWasDestroy ∨ (s.mux m).nActiveCircuits = 0) then
    some (s.setMux m fun x => { x with lastCellWasDestroy := true }, true, none)
  else if 0 < (s.mux m).nActiveCircuits then do
    torAssert (0 < (s.mux m).nCells)
    let s' := s.setMux m fun x => { x with lastCellWasDestroy := false }
    match if (policyOf w s m).any CircuitmuxPolicy.pickActiveCircuit then pick else none with
    | some c => return (s', false, some c)
    | none => do
      let head ← (s.mux m).activeCircuitsHead
      return (s', false, some head)
  else do
    torAssert ((s.mux m).nCells = 0)
    torAssert ((s.mux m).destroyCellQueue = 0)
    return (s, false, none)

def circuitmuxNotifyXmitCells (s : CmuxState C P) (m : ChanId) (c : C) (nCells : UInt32) :
    Option (CmuxState C P) :=
  if nCells = 0 then some s
  else do
    let hashent ← (← circuitmuxFindMapEntry w s m c)
    torAssert (nCells ≤ hashent.cellCount)
    let s := s.setMux m fun x =>
      { x with
        nCells := x.nCells - nCells
        chanidCircidMap :=
          htUpdate x.chanidCircidMap hashent fun e => { e with cellCount := e.cellCount - nCells } }
    if hashent.cellCount - nCells ≠ 0 then circuitmuxMoveActiveCircToTail w s m c hashent.direction
    else circuitmuxUpdateActive w s m c hashent.direction hashent.cellCount 0

def circuitmuxAppendDestroyCell (s : CmuxState C P) (m : ChanId) : CmuxState C P :=
  let s := s.setMux m fun x =>
    { x with destroyCellQueue := x.destroyCellQueue + 1, destroyCtr := x.destroyCtr + 1 }
  { s with globalDestroyCtr := s.globalDestroyCtr + 1 }

/-- A destroy cell has been sent. -/
def circuitmuxNotifyXmitDestroy (s : CmuxState C P) (m : ChanId) : CmuxState C P :=
  let s := s.setMux m fun x => { x with destroyCtr := x.destroyCtr - 1 }
  { s with globalDestroyCtr := s.globalDestroyCtr - 1 }

/-- A cell is taken from the queue of destroy cells, to be sent (`cell_queue_pop`). -/
def cellQueuePop (s : CmuxState C P) (m : ChanId) : CmuxState C P :=
  s.setMux m fun x => { x with destroyCellQueue := x.destroyCellQueue - 1 }

/-! ### Policies -/

/-- An entry when the policy changes: the data of the old one is freed, that of the new one
allocated. -/
def setPolicyEntry (oldPol newPol : Option (CircuitmuxPolicy C)) (e : MuxEntry) : Option MuxEntry :=
  do
  let c ← w.circuitGetByCircidChannel e.circId e.chanId
  freeCircData oldPol e
  match newPol.bind CircuitmuxPolicy.allocCircData with
  | some alloc => do
    torAssert (newPol.any CircuitmuxPolicy.freeCircData = true)
    return { e with policyData := alloc c e.direction e.cellCount }
  | none => return { e with policyData := false }

/-- The data of a new policy for the multiplexer, where it keeps any. -/
def allocCmuxData (pol : Option (CircuitmuxPolicy C)) : Option Bool :=
  match pol.bind CircuitmuxPolicy.allocCmuxData with
  | some data => do
    torAssert (pol.any CircuitmuxPolicy.freeCmuxData = true)
    torAssert (data = true)
    return true
  | none => some false

def circuitmuxSetPolicy (s : CmuxState C P) (m : ChanId) (pol : Option P) :
    Option (CmuxState C P) :=
  if (s.mux m).policy = pol then some s
  else do
    let oldPol := policyOf w s m
    let newPolData ← allocCmuxData (pol.map w.policy)
    let map ← (s.mux m).chanidCircidMap.mapM (setPolicyEntry w oldPol (pol.map w.policy))
    torAssert ((s.mux m).policyData = true → oldPol.any CircuitmuxPolicy.freeCmuxData = true)
    return s.setMux m fun x =>
      { x with policy := pol, policyData := newPolData, chanidCircidMap := map }

def circuitmuxClearPolicy (s : CmuxState C P) (m : ChanId) : Option (CmuxState C P) :=
  if (s.mux m).policy ≠ none then circuitmuxSetPolicy w s m none else some s

/-! ### The consistency check -/

/-- Check an entry, and mark it if its circuit is active. -/
def assertOkayEntry (s : CmuxState C P) (m : ChanId) (e : MuxEntry) : Option MuxEntry := do
  let c ← w.circuitGetByCircidChannel e.circId e.chanId
  torAssert (e.direction = .dirIn → w.isOrCircuit c = true)
  torAssert ((s.ends c e.direction).mux = some m)
  torAssert (w.chan c e.direction = some e.chanId)
  let next := (s.ends c e.direction).nextActive
  let prev := (s.ends c e.direction).prevActive
  if 0 < e.cellCount then do
    torAssert (next ≠ none ∨ (s.mux m).activeCircuitsTail = some c)
    torAssert (prev ≠ none ∨ (s.mux m).activeCircuitsHead = some c)
    return { e with mark := true }
  else do
    torAssert (next = none)
    torAssert (prev = none)
    torAssert ((s.mux m).activeCircuitsHead ≠ some c)
    torAssert ((s.mux m).activeCircuitsTail ≠ some c)
    return { e with mark := false }

/-- The number of active circuits. -/
def countActive (map : List MuxEntry) : ℕ := map.countP fun e => decide (0 < e.cellCount)

/-- The number of cells of all circuits. -/
def countCells (map : List MuxEntry) : UInt32 := (map.map MuxEntry.cellCount).sum

/-- The first pass checks and marks every entry and compares the counters. -/
def circuitmuxAssertOkayPassOne (s : CmuxState C P) (m : ChanId) : Option (List MuxEntry) := do
  let map ← (s.mux m).chanidCircidMap.mapM (assertOkayEntry w s m)
  torAssert (countCells map = (s.mux m).nCells)
  torAssert (UInt32.ofNat map.length = (s.mux m).nCircuits)
  torAssert (UInt32.ofNat (countActive map) = (s.mux m).nActiveCircuits)
  return map

/-- The second pass walks the list from a circuit on and clears the marks; each circuit needs a
mark, so there is an end to it. -/
def circuitmuxAssertOkayPassTwo (s : CmuxState C P) (m : ChanId) :
    ℕ → List MuxEntry → Option C → Option C → UInt32 → Option (List MuxEntry)
  | _, map, _, none, nActiveCircuits => do
    torAssert (nActiveCircuits = (s.mux m).nActiveCircuits)
    return map
  | 0, _, _, some _, _ => none
  | fuel + 1, map, prevCirc, some c, nActiveCircuits => do
    let d ← circuitmuxActiveCircP w s m c
    let chanId ← w.chan c d
    torAssert ((s.ends c d).prevActive = prevCirc)
    torAssert ((s.ends c d).prevActive = none → (s.mux m).activeCircuitsHead = some c)
    torAssert ((s.ends c d).nextActive = none → (s.mux m).activeCircuitsTail = some c)
    let hashent ← htFind map chanId (w.circId c d)
    torAssert (d = hashent.direction)
    torAssert (hashent.mark = true)
    circuitmuxAssertOkayPassTwo s m fuel (htUpdate map hashent fun e => { e with mark := false })
      (some c) (s.ends c d).nextActive (nActiveCircuits + 1)

/-- Check the consistency of a multiplexer.  The third pass finds no marks. -/
def circuitmuxAssertOkay (s : CmuxState C P) (m : ChanId) : Option Unit := do
  let map ← circuitmuxAssertOkayPassOne w s m
  let map ← circuitmuxAssertOkayPassTwo w s m (map.length + 1) map none
    (s.mux m).activeCircuitsHead 0
  torAssert (∀ e ∈ map, e.mark = false)

/-! ### Runs -/

/-- An operation on a multiplexer. -/
inductive CmuxEvent (C P : Type)
  /-- Attach a circuit that has cells queued. -/
  | attachCircuit (m : ChanId) (c : C) (d : CellDirection) (cellCount : UInt32)
  | detachCircuit (m : ChanId) (c : C)
  | detachAllCircuits (m : ChanId)
  /-- Set the number of cells of a circuit. -/
  | setNumCells (m : ChanId) (c : C) (nCells : UInt32)
  /-- Pick a circuit to send from. -/
  | getFirstActiveCircuit (m : ChanId) (pick : Option C)
  /-- Cells of a circuit have been sent. -/
  | notifyXmitCells (m : ChanId) (c : C) (nCells : UInt32)
  /-- Queue a destroy cell. -/
  | appendDestroyCell (m : ChanId)
  /-- Take a destroy cell from the queue. -/
  | popDestroyCell (m : ChanId)
  /-- A destroy cell has been sent. -/
  | notifyXmitDestroy (m : ChanId)
  | setPolicy (m : ChanId) (pol : Option P)
  /-- Remove the policy. -/
  | clearPolicy (m : ChanId)

def CmuxState.step (s : CmuxState C P) : CmuxEvent C P → Option (CmuxState C P)
  | .attachCircuit m c d cellCount => circuitmuxAttachCircuit w s m c d cellCount
  | .detachCircuit m c => circuitmuxDetachCircuit w s m c
  | .detachAllCircuits m => circuitmuxDetachAllCircuits w s m
  | .setNumCells m c nCells => circuitmuxSetNumCells w s m c nCells
  | .getFirstActiveCircuit m pick => (circuitmuxGetFirstActiveCircuit w s m pick).map Prod.fst
  | .notifyXmitCells m c nCells => circuitmuxNotifyXmitCells w s m c nCells
  | .appendDestroyCell m => some (circuitmuxAppendDestroyCell s m)
  | .popDestroyCell m => some (cellQueuePop s m)
  | .notifyXmitDestroy m => some (circuitmuxNotifyXmitDestroy s m)
  | .setPolicy m pol => circuitmuxSetPolicy w s m pol
  | .clearPolicy m => circuitmuxClearPolicy w s m

end Model

end Astoria
