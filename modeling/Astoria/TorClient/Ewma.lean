import Mathlib.Analysis.SpecialFunctions.Pow.Real
import Astoria.TorClient.Pqueue

/-!
# Picking the circuit that has sent least

The policy of a multiplexer that prefers the circuits which have been quiet recently.  It keeps for
each circuit an exponentially weighted moving average of the number of cells sent.  The circuits
with cells to send are in a priority queue, and their averages are rescaled when a new tick has
begun and a cell is sent; that of another circuit is rescaled when the circuit is added to the
queue.

The averages are exact numbers here, of any ordered field with a power function: in the source they
are floating-point numbers.  An assertion that fails yields `none`.
-/

namespace Astoria

open Function

/-- The powers of the scale factor (`ewma_scale_factor`). -/
structure EwmaScale (K : Type*) [Zero K] [LT K] where
  /-- The scale factor to the power of a number. -/
  pow : K → K
  pow_pos : ∀ x, 0 < pow x

/-- The powers of a real scale factor. -/
noncomputable def EwmaScale.ofReal (ewmaScaleFactor : ℝ) (h : 0 < ewmaScaleFactor) : EwmaScale ℝ :=
  ⟨fun x => ewmaScaleFactor ^ x, Real.rpow_pos_of_pos h⟩

/-- The average of a circuit (`cell_ewma_t`).  Its index in the queue is stored with the queue. -/
structure CellEwma (K : Type*) where
  lastAdjustedTick : UInt32
  cellCount : K

/-- The data of the policy: the queue of active circuits, the tick of its last recalibration and the
averages of the circuits. -/
structure EwmaPolicyData (C K : Type*) where
  activeCircuitPqueue : Pqueue C
  activeCircuitPqueueLastRecalibrated : UInt32
  cellEwma : C → CellEwma K
  /-- The circuits that the multiplexer has made active. -/
  active : Finset C

section Policy

variable {C K : Type} [DecidableEq C] [Field K] [LinearOrder K] (scale : EwmaScale K)

/-- Compare two averages. -/
def compareCellEwmaCounts (cellEwma : C → CellEwma K) (e1 e2 : C) : ℤ :=
  if (cellEwma e1).cellCount < (cellEwma e2).cellCount then -1
  else if (cellEwma e1).cellCount > (cellEwma e2).cellCount then 1
  else 0

/-- The multiplier from one tick to another.  The difference can wrap around. -/
def getScaleFactor (fromTick toTick : UInt32) : K :=
  scale.pow ((toTick - fromTick).toInt32.toInt : K)

/-- The average is scaled to a tick. -/
def scaleSingleCellEwma (s : EwmaPolicyData C K) (ewma : C) (curTick : UInt32) :
    EwmaPolicyData C K :=
  let e := s.cellEwma ewma
  { s with
    cellEwma := update s.cellEwma ewma
      ⟨curTick, e.cellCount * getScaleFactor scale e.lastAdjustedTick curTick⟩ }

/-- The average of one active circuit is multiplied by a factor.  It must be at the old tick. -/
def scaleActiveCircuit (oldTick curTick : UInt32) (factor : K) (s : EwmaPolicyData C K) (e : C) :
    Option (EwmaPolicyData C K) :=
  if (s.cellEwma e).lastAdjustedTick = oldTick then
    some { s with
      cellEwma := update s.cellEwma e ⟨curTick, (s.cellEwma e).cellCount * factor⟩ }
  else none

/-- The entries of a queue, from the first one on. -/
def Pqueue.entries (q : Pqueue C) : List C := (List.range q.numUsed).map q.list

/-- The averages of all active circuits are scaled to a tick. -/
def scaleActiveCircuits (s : EwmaPolicyData C K) (curTick : UInt32) : Option (EwmaPolicyData C K) :=
  do
  let oldTick := s.activeCircuitPqueueLastRecalibrated
  let factor := getScaleFactor scale oldTick curTick
  let s ← s.activeCircuitPqueue.entries.foldlM (scaleActiveCircuit oldTick curTick factor) s
  some { s with activeCircuitPqueueLastRecalibrated := curTick }

/-- A circuit is rescaled and added to the queue. -/
def addCellEwma (s : EwmaPolicyData C K) (ewma : C) : Option (EwmaPolicyData C K) :=
  if s.activeCircuitPqueue.index ewma = -1 then
    let s := scaleSingleCellEwma scale s ewma s.activeCircuitPqueueLastRecalibrated
    some { s with
      activeCircuitPqueue :=
        smartlistPqueueAdd (compareCellEwmaCounts s.cellEwma) s.activeCircuitPqueue ewma }
  else none

/-- A circuit is removed from the queue. -/
def removeCellEwma (s : EwmaPolicyData C K) (ewma : C) : Option (EwmaPolicyData C K) :=
  if s.activeCircuitPqueue.index ewma ≠ -1 then do
    let q ← smartlistPqueueRemove (compareCellEwmaCounts s.cellEwma) s.activeCircuitPqueue ewma
    some { s with activeCircuitPqueue := q }
  else none

/-- The first circuit is removed from the queue and returned. -/
def popFirstCellEwma (s : EwmaPolicyData C K) : Option (EwmaPolicyData C K × C) := do
  let (q, top) ← smartlistPqueuePop (compareCellEwmaCounts s.cellEwma) s.activeCircuitPqueue
  some ({ s with activeCircuitPqueue := q }, top)

/-! ### The methods of the policy -/

def ewmaAllocCircData (s : EwmaPolicyData C K) (circ : C) (tick : UInt32) : EwmaPolicyData C K :=
  { s with
    cellEwma := update s.cellEwma circ ⟨tick, 0⟩
    activeCircuitPqueue :=
      { s.activeCircuitPqueue with
        index := update s.activeCircuitPqueue.index circ (-1) } }

def ewmaNotifyCircActive (s : EwmaPolicyData C K) (circ : C) : Option (EwmaPolicyData C K) :=
  addCellEwma scale s circ

def ewmaNotifyCircInactive (s : EwmaPolicyData C K) (circ : C) : Option (EwmaPolicyData C K) :=
  removeCellEwma s circ

/-- The averages are rescaled if a new tick has begun. -/
def rescaleIfNeeded (s : EwmaPolicyData C K) (tick : UInt32) : Option (EwmaPolicyData C K) :=
  if tick ≠ s.activeCircuitPqueueLastRecalibrated then scaleActiveCircuits scale s tick else some s

/-- Some cells were sent on a circuit, at a tick and a fraction of one.  The circuit should be at
the head of the queue. -/
def ewmaNotifyXmitCells (s : EwmaPolicyData C K) (circ : C) (nCells : ℕ) (tick : UInt32)
    (fractionalTick : K) : Option (EwmaPolicyData C K) :=
  if 0 < nCells then do
    let s ← rescaleIfNeeded scale s tick
    let e := s.cellEwma circ
    let ewmaIncrement := (nCells : K) * scale.pow (-fractionalTick)
    let s := { s with
      cellEwma := update s.cellEwma circ ⟨e.lastAdjustedTick, e.cellCount + ewmaIncrement⟩ }
    let (s, tmp) ← popFirstCellEwma s
    if tmp = circ then addCellEwma scale s circ else none
  else none

/-- The preferred circuit to send from. -/
def ewmaPickActiveCircuit (s : EwmaPolicyData C K) : Option C :=
  if 0 < s.activeCircuitPqueue.numUsed then some (s.activeCircuitPqueue.list 0) else none

/-! ### Runs -/

/-- A new policy (`ewma_alloc_cmux_data`): no circuit is active, and none has sent a cell. -/
def EwmaPolicyData.init (list : ℕ → C) (tick : UInt32) : EwmaPolicyData C K :=
  ⟨⟨list, 0, fun _ => -1⟩, tick, fun _ => ⟨tick, 0⟩, ∅⟩

/-- What happens to the circuits of a multiplexer. -/
inductive EwmaEvent (C K : Type*)
  | attach (circ : C) (tick : UInt32)
  /-- A circuit becomes active. -/
  | activate (circ : C)
  /-- A circuit becomes inactive. -/
  | deactivate (circ : C)
  /-- Cells are sent on a circuit, at a tick and a fraction of one. -/
  | transmit (circ : C) (nCells : ℕ) (tick : UInt32) (fractionalTick : K)

/-- One event.  The multiplexer keeps which circuits are active. -/
def ewmaStep (s : EwmaPolicyData C K) : EwmaEvent C K → Option (EwmaPolicyData C K)
  | .attach circ tick => some (ewmaAllocCircData s circ tick)
  | .activate circ => do
    let s ← ewmaNotifyCircActive scale s circ
    some { s with active := insert circ s.active }
  | .deactivate circ => do
    let s ← ewmaNotifyCircInactive s circ
    some { s with active := s.active.erase circ }
  | .transmit circ nCells tick fractionalTick =>
    ewmaNotifyXmitCells scale s circ nCells tick fractionalTick

/-- The events, one after another. -/
def ewmaSteps (s : EwmaPolicyData C K) (events : List (EwmaEvent C K)) :
    Option (EwmaPolicyData C K) :=
  events.foldlM (ewmaStep scale) s

/-- The events that the multiplexer brings about: an inactive circuit is attached or becomes active,
an active one becomes inactive, and cells are sent on the circuit that is picked. -/
def EwmaEvent.Called (s : EwmaPolicyData C K) : EwmaEvent C K → Prop
  | .attach circ _ => circ ∉ s.active
  | .activate circ => circ ∉ s.active
  | .deactivate circ => circ ∈ s.active
  | .transmit circ nCells _ _ => 0 < nCells ∧ ewmaPickActiveCircuit s = some circ

/-- A circuit that becomes inactive is not replaced in the queue by one that comes before its
parent. -/
def EwmaEvent.Safe (s : EwmaPolicyData C K) : EwmaEvent C K → Prop
  | .deactivate circ =>
    PqueueCall.Safe (compareCellEwmaCounts s.cellEwma) s.activeCircuitPqueue (.remove circ)
  | _ => True

/-- The cell count of a circuit, decayed to a tick. -/
def EwmaPolicyData.decayed (s : EwmaPolicyData C K) (circ : C) (curTick : UInt32) : K :=
  (s.cellEwma circ).cellCount * getScaleFactor scale (s.cellEwma circ).lastAdjustedTick curTick

end Policy

end Astoria
