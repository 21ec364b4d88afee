import Astoria.Library.Runs
import Astoria.TorClient.Nodelist
import Astoria.TorClient.OnionCells
import Mathlib.Tactic.Ring

/-!
# Flow control

Each end of a circuit counts the DATA cells that it may still package, and those that the other end
may still deliver: once for the circuit and once for each stream.  The receiver returns credit with
SENDME cells, for the circuit as soon as cells arrive, and for a stream when its output buffer is
not too full.

An edge is one end of a circuit: the circuit itself at an exit, or one hop of a circuit at its
origin (`layer_hint` in the source), with the streams that are attached to it.  Connections are
found by their stream identifiers.  The packaging that follows a SENDME cell is a step of its own.
-/

namespace Astoria

open List Option
open Function

/-! ### The state -/

/-- The window of a circuit at the start. -/
def circwindowStart : ℤ := 1000

/-- The least window of a circuit at the start. -/
def circwindowStartMin : ℤ := 100

/-- The largest window of a circuit. -/
def circwindowStartMax : ℤ := 1000

/-- The credit in a SENDME cell for a circuit. -/
def circwindowIncrement : ℤ := 100

def streamwindowStart : ℤ := 500

/-- The credit in a SENDME cell for a stream. -/
def streamwindowIncrement : ℤ := 50

/-- The relay commands for flow control. -/
inductive FlowCommand
  /-- A cell with data. -/
  | data
  /-- A cell with credit. -/
  | sendme
  deriving DecidableEq

structure FlowCell where
  command : FlowCommand
  /-- The stream, or zero for the circuit. -/
  streamId : UInt16
  length : ℕ
  deriving DecidableEq

inductive EdgeConnState
  /-- The stream is open. -/
  | isOpen
  /-- The exit is connecting or resolving. -/
  | connecting
  /-- The stream is not open yet at the client. -/
  | notOpen
  deriving DecidableEq

structure EdgeConn where
  state : EdgeConnState
  /-- How many cells may be packaged. -/
  packageWindow : ℤ
  /-- How many cells may be delivered. -/
  deliverWindow : ℤ
  /-- The number of bytes to be packaged. -/
  inbufLen : ℕ
  /-- The number of bytes that have been delivered and not been flushed. -/
  outbufFlushlen : ℕ
  deriving DecidableEq

structure CircuitEdge where
  /-- How many cells may be packaged. -/
  packageWindow : ℤ
  /-- How many cells may be delivered. -/
  deliverWindow : ℤ
  /-- The connections, by their stream identifiers. -/
  conns : UInt16 → Option EdgeConn

/-- What processing a cell yields. -/
structure EdgeResult where
  /-- The state afterwards. -/
  edge : CircuitEdge
  sent : List FlowCell
  /-- Whether the circuit is closed. -/
  killed : Bool

/-- The window of a circuit at its start, according to the consensus. -/
def circuitInitialPackageWindow (circwindow : Option ℤ) : ℤ :=
  let num := networkstatusGetParam circwindow circwindowStart circwindowStartMin circwindowStartMax
  if num < 0 then circwindowStart else num

/-- A new circuit or hop. -/
def CircuitEdge.init (circwindow : Option ℤ) : CircuitEdge :=
  ⟨circuitInitialPackageWindow circwindow, circwindowStart, fun _ => none⟩

def EdgeConn.init (state : EdgeConnState) : EdgeConn :=
  ⟨state, streamwindowStart, streamwindowStart, 0, 0⟩

def CircuitEdge.setConn (e : CircuitEdge) (streamId : UInt16) (conn : EdgeConn) : CircuitEdge :=
  { e with conns := update e.conns streamId (some conn) }

/-! ### Credit is returned -/

/-- Raise a window as long as it is low.  The window and the number of SENDME cells are returned;
every cell raises the window by one at least. -/
def considerSendingSendme (start increment : ℤ) : ℕ → ℤ → ℤ × ℕ
  | 0, window => (window, 0)
  | n + 1, window =>
    if window ≤ start - increment then
      let r := considerSendingSendme start increment n (window + increment)
      (r.1, r.2 + 1)
    else (window, 0)

/-- Return credit for the circuit. -/
def circuitConsiderSendingSendme (e : CircuitEdge) : CircuitEdge × ℕ :=
  let r := considerSendingSendme circwindowStart circwindowIncrement
    (circwindowStart - e.deliverWindow).toNat e.deliverWindow
  ({ e with deliverWindow := r.1 }, r.2)

/-- Whether the output buffer of a connection is too full. -/
def connectionOutbufTooFull (conn : EdgeConn) : Bool := 10 * cellPayloadSize < conn.outbufFlushlen

/-- Return credit for a stream. -/
def connectionEdgeConsiderSendingSendme (conn : EdgeConn) : EdgeConn × ℕ :=
  if connectionOutbufTooFull conn then (conn, 0)
  else
    let r := considerSendingSendme streamwindowStart streamwindowIncrement
      (streamwindowStart - conn.deliverWindow).toNat conn.deliverWindow
    ({ conn with deliverWindow := r.1 }, r.2)

def sendmes (streamId : UInt16) (n : ℕ) : List FlowCell := replicate n ⟨.sendme, streamId, 0⟩

/-! ### Cells arrive -/

def relayLookupConn (e : CircuitEdge) (streamId : UInt16) : Option EdgeConn :=
  if streamId = 0 then none else e.conns streamId

/-- A DATA cell arrives. -/
def processData (e : CircuitEdge) (streamId : UInt16) (length : ℕ) : EdgeResult :=
  let conn := relayLookupConn e streamId
  let e := { e with deliverWindow := e.deliverWindow - 1 }
  if e.deliverWindow < 0 then
    -- the connection is marked for close as well
    ⟨if conn.isSome then { e with conns := update e.conns streamId none } else e, [], true⟩
  else
    let r := circuitConsiderSendingSendme e
    let e := r.1
    let sent := sendmes 0 r.2
    match conn with
    | none => ⟨e, sent, false⟩
    | some conn =>
      let conn := { conn with deliverWindow := conn.deliverWindow - 1 }
      if conn.deliverWindow < 0 then ⟨e.setConn streamId conn, sent, true⟩
      else
        let conn := { conn with outbufFlushlen := conn.outbufFlushlen + length }
        if conn.state = .connecting then ⟨e.setConn streamId conn, sent, false⟩
        else
          let r := connectionEdgeConsiderSendingSendme conn
          ⟨e.setConn streamId r.1, sent ++ sendmes streamId r.2, false⟩

/-- A SENDME cell arrives. -/
def processSendme (e : CircuitEdge) (streamId : UInt16) : EdgeResult :=
  if streamId = 0 then
    if circwindowStartMax < e.packageWindow + circwindowIncrement then ⟨e, [], true⟩
    else ⟨{ e with packageWindow := e.packageWindow + circwindowIncrement }, [], false⟩
  else
    match relayLookupConn e streamId with
    | none => ⟨e, [], false⟩
    | some conn =>
      ⟨e.setConn streamId { conn with packageWindow := conn.packageWindow + streamwindowIncrement },
        [], false⟩

/-- Whether a connection takes a cell: it is open, or data arrives while the exit is connecting. -/
def acceptsCell (conn : EdgeConn) (command : FlowCommand) : Bool :=
  conn.state = .isOpen || (conn.state = .connecting && command = .data)

def connectionEdgeProcessRelayCell (e : CircuitEdge) (cell : FlowCell) : EdgeResult :=
  if relayPayloadSize < cell.length then ⟨e, [], true⟩
  else if (relayLookupConn e cell.streamId).any fun conn => !acceptsCell conn cell.command then
    ⟨e, [], false⟩
  else
    match cell.command with
    | .data => processData e cell.streamId cell.length
    | .sendme => processSendme e cell.streamId

/-! ### Cells are packaged -/

/-- Package what a connection has to send, `n` cells at most. -/
def packageRawInbuf (streamId : UInt16) (packagePartial : Bool) :
    ℕ → Option ℕ → CircuitEdge → CircuitEdge × List FlowCell
  | 0, _, e => (e, [])
  | n + 1, maxCells, e =>
    if maxCells = some 0 then (e, [])
    else if e.packageWindow ≤ 0 then (e, [])
    else
      match e.conns streamId with
      | none => (e, [])
      | some conn =>
        if conn.packageWindow ≤ 0 then (e, [])
        else if conn.inbufLen = 0 then (e, [])
        else if !packagePartial && conn.inbufLen < relayPayloadSize then (e, [])
        else
          let length := min conn.inbufLen relayPayloadSize
          let conn := { conn with
            inbufLen := conn.inbufLen - length, packageWindow := conn.packageWindow - 1 }
          let e := { e.setConn streamId conn with packageWindow := e.packageWindow - 1 }
          let cell : FlowCell := ⟨.data, streamId, length⟩
          if conn.packageWindow ≤ 0 then (e, [cell])
          else
            let r := packageRawInbuf streamId packagePartial n (maxCells.map (· - 1)) e
            (r.1, cell :: r.2)

/-- Package what a connection has to send.  Every cell takes a byte at least. -/
def connectionEdgePackageRawInbuf (e : CircuitEdge) (streamId : UInt16) (packagePartial : Bool)
    (maxCells : Option ℕ) : CircuitEdge × List FlowCell :=
  packageRawInbuf streamId packagePartial (((e.conns streamId).map EdgeConn.inbufLen).getD 0)
    maxCells e

/-! ### The steps of an edge -/

inductive EdgeEvent
  /-- A cell arrives. -/
  | receive (cell : FlowCell)
  /-- Bytes to be packaged arrive at a connection. -/
  | read (streamId : UInt16) (n : ℕ)
  /-- What a connection has to send is packaged. -/
  | package (streamId : UInt16) (packagePartial : Bool) (maxCells : Option ℕ)
  /-- Bytes of a connection are flushed. -/
  | flush (streamId : UInt16) (n : ℕ)
  | attach (streamId : UInt16) (state : EdgeConnState)
  /-- A connection is open. -/
  | connected (streamId : UInt16)
  /-- A connection is closed. -/
  | close (streamId : UInt16)

def edgeStep (e : CircuitEdge) : EdgeEvent → EdgeResult
  | .receive cell => connectionEdgeProcessRelayCell e cell
  | .read streamId n =>
    match e.conns streamId with
    | none => ⟨e, [], false⟩
    | some conn => ⟨e.setConn streamId { conn with inbufLen := conn.inbufLen + n }, [], false⟩
  | .package streamId packagePartial maxCells =>
    let r := connectionEdgePackageRawInbuf e streamId packagePartial maxCells
    ⟨r.1, r.2, false⟩
  | .flush streamId n =>
    match e.conns streamId with
    | none => ⟨e, [], false⟩
    | some conn =>
      let conn := { conn with outbufFlushlen := conn.outbufFlushlen - n }
      if conn.state = .isOpen then
        let r := connectionEdgeConsiderSendingSendme conn
        ⟨e.setConn streamId r.1, sendmes streamId r.2, false⟩
      else ⟨e.setConn streamId conn, [], false⟩
  | .attach streamId state => ⟨e.setConn streamId (EdgeConn.init state), [], false⟩
  | .connected streamId =>
    match e.conns streamId with
    | none => ⟨e, [], false⟩
    | some conn => ⟨e.setConn streamId { conn with state := .isOpen }, [], false⟩
  | .close streamId =>
    ⟨{ e with conns := update e.conns streamId none }, [], false⟩

/-! ### What the steps do -/

section Steps

variable {e : CircuitEdge} {conn : EdgeConn} {streamId : UInt16}

/-- **Raising a window** ends above the limit, and not above the start. -/
lemma considerSendingSendme_spec (start : ℤ) {increment : ℤ} (hinc : 0 < increment) {n : ℕ}
    {window : ℤ} (hn : start - window ≤ n) :
    (considerSendingSendme start increment n window).1 =
        window + increment * (considerSendingSendme start increment n window).2 ∧
      start - increment < (considerSendingSendme start increment n window).1 ∧
      (window ≤ start → (considerSendingSendme start increment n window).1 ≤ start) := by
  induction n generalizing window with
  | zero =>
    rw [considerSendingSendme]
    refine ⟨by simp, ?_, id⟩
    dsimp only
    omega
  | succ n ih =>
    rw [considerSendingSendme]
    split_ifs with hlow
    · have hn' : start - (window + increment) ≤ n := by omega
      obtain ⟨heq, hlt, hle⟩ := ih hn'
      refine ⟨?_, hlt, fun _ => hle (by omega)⟩
      dsimp only
      rw [heq]
      push_cast
      ring
    · refine ⟨by simp, ?_, id⟩
      dsimp only
      omega

lemma circuitConsiderSendingSendme_spec (e : CircuitEdge) :
    (circuitConsiderSendingSendme e).1 = { e with deliverWindow := e.deliverWindow +
        circwindowIncrement * (circuitConsiderSendingSendme e).2 } ∧
      circwindowStart - circwindowIncrement < (circuitConsiderSendingSendme e).1.deliverWindow ∧
      (e.deliverWindow ≤ circwindowStart →
        (circuitConsiderSendingSendme e).1.deliverWindow ≤ circwindowStart) := by
  have hinc : 0 < circwindowIncrement := by decide
  obtain ⟨heq, hlt, hle⟩ := considerSendingSendme_spec circwindowStart hinc
    (Int.self_le_toNat (circwindowStart - e.deliverWindow))
  refine ⟨?_, hlt, hle⟩
  unfold circuitConsiderSendingSendme
  dsimp only
  rw [← heq]

/-- The credit that is returned for a stream. -/
lemma connectionEdgeConsiderSendingSendme_spec (conn : EdgeConn) :
    (connectionEdgeConsiderSendingSendme conn).1 = { conn with deliverWindow := conn.deliverWindow +
        streamwindowIncrement * (connectionEdgeConsiderSendingSendme conn).2 } ∧
      (conn.deliverWindow ≤ streamwindowStart →
        (connectionEdgeConsiderSendingSendme conn).1.deliverWindow ≤ streamwindowStart) := by
  unfold connectionEdgeConsiderSendingSendme
  split_ifs with hfull
  · exact ⟨by simp, id⟩
  · have hinc : 0 < streamwindowIncrement := by decide
    obtain ⟨heq, hlt, hle⟩ := considerSendingSendme_spec streamwindowStart hinc
      (Int.self_le_toNat (streamwindowStart - conn.deliverWindow))
    refine ⟨?_, hle⟩
    dsimp only
    rw [← heq]

/-- What packaging `k` cells of a connection does. -/
structure Packaged (e : CircuitEdge) (streamId : UInt16) (conn : EdgeConn)
    (r : CircuitEdge × List FlowCell) (k : ℕ) (conn' : EdgeConn) : Prop where
  edge : r.1 = { e.setConn streamId conn' with packageWindow := e.packageWindow - k }
  packageWindow : conn'.packageWindow = conn.packageWindow - k
  deliverWindow : conn'.deliverWindow = conn.deliverWindow
  state : conn'.state = conn.state
  le_circuit : 0 ≤ e.packageWindow → k ≤ e.packageWindow
  le_stream : 0 ≤ conn.packageWindow → k ≤ conn.packageWindow
  length : r.2.length = k
  cells : ∀ cell ∈ r.2, cell.command = .data ∧ cell.streamId = streamId ∧
    cell.length ≤ relayPayloadSize

lemma packaged_nil (hconn : e.conns streamId = some conn) :
    Packaged e streamId conn (e, []) 0 conn := by
  refine ⟨?_, by simp, rfl, rfl, fun h => by simpa using h, fun h => by simpa using h, rfl,
    fun cell hcell => absurd hcell not_mem_nil⟩
  unfold CircuitEdge.setConn
  rw [← hconn, update_eq_self]
  simp

/-- **What is packaged**: DATA cells of the stream, for which there is credit. -/
lemma packageRawInbuf_spec (packagePartial : Bool) (n : ℕ) (maxCells : Option ℕ)
    (hconn : e.conns streamId = some conn) :
    ∃ k conn', Packaged e streamId conn (packageRawInbuf streamId packagePartial n maxCells e) k
      conn' := by
  induction n generalizing e conn maxCells with
  | zero => exact ⟨0, conn, packaged_nil hconn⟩
  | succ n ih =>
    rw [packageRawInbuf, hconn]
    dsimp only
    split_ifs with hmax hcirc hstream hempty hpart hlast
    · exact ⟨0, conn, packaged_nil hconn⟩
    · exact ⟨0, conn, packaged_nil hconn⟩
    · exact ⟨0, conn, packaged_nil hconn⟩
    · exact ⟨0, conn, packaged_nil hconn⟩
    · exact ⟨0, conn, packaged_nil hconn⟩
    · refine ⟨1, _, rfl, rfl, rfl, rfl, ?_, ?_, rfl, fun cell hcell => ?_⟩
      · rw [Nat.cast_one]
        omega
      · rw [Nat.cast_one]
        omega
      · rw [mem_singleton.mp hcell]
        exact ⟨rfl, rfl, Nat.min_le_right _ _⟩
    · -- the window of the stream is still positive after this cell
      have hupdate := update_self (β := fun _ => Option EdgeConn) streamId
        (some { conn with
          inbufLen := conn.inbufLen - min conn.inbufLen relayPayloadSize
          packageWindow := conn.packageWindow - 1 }) e.conns
      obtain ⟨k, conn', hrun⟩ := @ih { e.setConn streamId { conn with
          inbufLen := conn.inbufLen - min conn.inbufLen relayPayloadSize
          packageWindow := conn.packageWindow - 1 } with
        packageWindow := e.packageWindow - 1 } _ (maxCells.map (· - 1)) hupdate
      have hle := hrun.le_circuit
      have hle' := hrun.le_stream
      dsimp only at hle hle'
      refine ⟨k + 1, conn', ?_, ?_, hrun.deliverWindow, hrun.state, ?_, ?_, ?_,
        fun cell hcell => ?_⟩
      · rw [hrun.edge]
        unfold CircuitEdge.setConn
        dsimp only
        rw [update_idem, Nat.cast_add, Nat.cast_one]
        congr 1
        ring
      · rw [hrun.packageWindow, Nat.cast_add, Nat.cast_one]
        dsimp only
        ring
      · rw [Nat.cast_add, Nat.cast_one]
        omega
      · rw [Nat.cast_add, Nat.cast_one]
        omega
      · rw [length_cons, hrun.length]
      · rcases mem_cons.mp hcell with rfl | hcell
        · exact ⟨rfl, rfl, Nat.min_le_right _ _⟩
        · exact hrun.cells cell hcell

end Steps

/-! ### Windows stay within bounds -/

/-- A circuit with its edges: the circuit itself at an exit, or the hops at its origin. -/
structure WindowCircuit (H : Type*) where
  edges : H → CircuitEdge
  closed : Bool

def WindowCircuit.init {H : Type*} (circwindow : H → Option ℤ) : WindowCircuit H :=
  ⟨fun h => CircuitEdge.init (circwindow h), false⟩

/-- The windows of the circuit are within their bounds. -/
structure CircuitEdge.InRange (e : CircuitEdge) : Prop where
  package_nonneg : 0 ≤ e.packageWindow
  package_le : e.packageWindow ≤ circwindowStartMax
  /-- Credit has been returned for the cells that were delivered. -/
  lt_deliver : circwindowStart - circwindowIncrement < e.deliverWindow
  deliver_le : e.deliverWindow ≤ circwindowStartMax

/-- The package windows of the streams are not too large. -/
def CircuitEdge.StreamsInRange (e : CircuitEdge) : Prop :=
  ∀ streamId conn, e.conns streamId = some conn → conn.packageWindow ≤ streamwindowStart

/-- The steps that keep the windows of streams within their bounds: credit for a stream is accepted
only up to its bound. -/
def EdgeEvent.Safe (e : CircuitEdge) (event : EdgeEvent) : Prop :=
  ∀ cell conn, event = .receive cell → cell.command = .sendme → cell.length ≤ relayPayloadSize →
    relayLookupConn e cell.streamId = some conn → conn.state = .isOpen →
    conn.packageWindow + streamwindowIncrement ≤ streamwindowStart

section Bounds

variable {e : CircuitEdge}

/-- The windows of a new circuit. -/
lemma inRange_init (circwindow : Option ℤ) : (CircuitEdge.init circwindow).InRange := by
  have hbounds : circwindowStartMin ≤ circwindowStartMax := by decide
  have hmem : circwindowStartMin ≤ (CircuitEdge.init circwindow).packageWindow ∧
      (CircuitEdge.init circwindow).packageWindow ≤ circwindowStartMax := by
    have hparam := networkstatusGetParam_mem circwindow circwindowStart hbounds
    unfold CircuitEdge.init circuitInitialPackageWindow
    dsimp only
    split_ifs with hneg
    · decide
    · exact hparam
  have hmin : 0 ≤ circwindowStartMin := by decide
  have hlt : circwindowStart - circwindowIncrement < circwindowStart := by decide
  have hle : circwindowStart ≤ circwindowStartMax := by decide
  exact ⟨le_trans hmin hmem.1, hmem.2, hlt, hle⟩

lemma processData_windows (h : 0 < e.deliverWindow) (streamId : UInt16) (length : ℕ) :
    (processData e streamId length).edge.packageWindow = e.packageWindow ∧
      (processData e streamId length).edge.deliverWindow =
        (circuitConsiderSendingSendme
          { e with deliverWindow := e.deliverWindow - 1 }).1.deliverWindow := by
  have hpkg : (circuitConsiderSendingSendme
      { e with deliverWindow := e.deliverWindow - 1 }).1.packageWindow = e.packageWindow := rfl
  have hneg : ¬ e.deliverWindow - 1 < 0 := by omega
  unfold processData
  dsimp only
  rw [if_neg hneg]
  cases relayLookupConn e streamId with
  | none => exact ⟨hpkg, rfl⟩
  | some conn =>
    dsimp only
    split_ifs
    · exact ⟨hpkg, rfl⟩
    · exact ⟨hpkg, rfl⟩
    · exact ⟨hpkg, rfl⟩

/-- DATA cells keep the windows of the circuit within their bounds. -/
lemma CircuitEdge.InRange.processData (h : e.InRange) (streamId : UInt16) (length : ℕ) :
    (processData e streamId length).edge.InRange := by
  have hpos : 0 ≤ circwindowStart - circwindowIncrement := by decide
  have hmax : circwindowStart = circwindowStartMax := rfl
  have hlt := h.lt_deliver
  have hle := h.deliver_le
  obtain ⟨-, hlow, hhigh⟩ :=
    circuitConsiderSendingSendme_spec { e with deliverWindow := e.deliverWindow - 1 }
  obtain ⟨hpkg, hdel⟩ := processData_windows (e := e) (by omega) streamId length
  rw [← hdel] at hlow hhigh
  dsimp only at hhigh
  refine ⟨by rw [hpkg]; exact h.package_nonneg, by rw [hpkg]; exact h.package_le, hlow, ?_⟩
  rw [← hmax]
  exact hhigh (by omega)

/-- SENDME cells keep the windows of the circuit within their bounds. -/
lemma CircuitEdge.InRange.processSendme (h : e.InRange) (streamId : UInt16) :
    (processSendme e streamId).edge.InRange := by
  have hinc : 0 ≤ circwindowIncrement := by decide
  have hpkg := h.package_nonneg
  unfold Astoria.processSendme
  split_ifs with hzero hover
  · exact h
  · refine ⟨?_, ?_, h.lt_deliver, h.deliver_le⟩
    · dsimp only
      omega
    · dsimp only
      omega
  · cases relayLookupConn e streamId with
    | none => exact h
    | some conn => exact ⟨h.package_nonneg, h.package_le, h.lt_deliver, h.deliver_le⟩

/-- **One step** keeps the windows of the circuit within their bounds. -/
lemma CircuitEdge.InRange.edgeStep (h : e.InRange) (event : EdgeEvent) :
    (edgeStep e event).edge.InRange := by
  have hconns : ∀ conns, CircuitEdge.InRange { e with conns := conns } :=
    fun _ => ⟨h.package_nonneg, h.package_le, h.lt_deliver, h.deliver_le⟩
  cases event with
  | receive cell =>
    dsimp only [Astoria.edgeStep, connectionEdgeProcessRelayCell]
    split_ifs
    · exact h
    · exact h
    · cases cell.command with
      | data => exact h.processData _ _
      | sendme => exact h.processSendme _
  | read streamId n =>
    dsimp only [Astoria.edgeStep]
    cases e.conns streamId with
    | none => exact h
    | some conn => exact hconns _
  | package streamId packagePartial maxCells =>
    dsimp only [Astoria.edgeStep, connectionEdgePackageRawInbuf]
    cases hconn : e.conns streamId with
    | none =>
      -- a connection that is not there packages nothing
      exact h
    | some conn =>
      obtain ⟨k, conn', hrun⟩ := packageRawInbuf_spec packagePartial conn.inbufLen maxCells hconn
      have hle := hrun.le_circuit h.package_nonneg
      have hmax := h.package_le
      rw [map_some, getD_some, hrun.edge]
      refine ⟨?_, ?_, h.lt_deliver, h.deliver_le⟩
      · dsimp only
        omega
      · dsimp only
        omega
  | flush streamId n =>
    dsimp only [Astoria.edgeStep]
    cases e.conns streamId with
    | none => exact h
    | some conn =>
      dsimp only
      split_ifs
      · exact hconns _
      · exact hconns _
  | attach streamId state => exact hconns _
  | connected streamId =>
    dsimp only [Astoria.edgeStep]
    cases e.conns streamId with
    | none => exact h
    | some conn => exact hconns _
  | close streamId => exact hconns _

/-- Changing a connection within its bound. -/
lemma CircuitEdge.StreamsInRange.setConn (h : e.StreamsInRange) {streamId : UInt16}
    {conn : EdgeConn} (hle : conn.packageWindow ≤ streamwindowStart) :
    (e.setConn streamId conn).StreamsInRange := by
  intro streamId' conn' hconn'
  unfold CircuitEdge.setConn at hconn'
  dsimp only at hconn'
  by_cases heq : streamId' = streamId
  · rw [heq, update_self] at hconn'
    rw [← Option.some.inj hconn']
    exact hle
  · rw [update_of_ne heq] at hconn'
    exact h streamId' conn' hconn'

lemma CircuitEdge.StreamsInRange.close (h : e.StreamsInRange) (streamId : UInt16) :
    CircuitEdge.StreamsInRange { e with conns := update e.conns streamId none } := by
  intro streamId' conn' hconn'
  dsimp only at hconn'
  by_cases heq : streamId' = streamId
  · rw [heq, update_self] at hconn'
    exact absurd hconn' (by simp)
  · rw [update_of_ne heq] at hconn'
    exact h streamId' conn' hconn'

lemma conns_of_relayLookupConn {streamId : UInt16} {conn : EdgeConn}
    (h : relayLookupConn e streamId = some conn) : e.conns streamId = some conn := by
  unfold relayLookupConn at h
  split_ifs at h
  exact h

/-- DATA cells keep the package windows of the streams. -/
lemma CircuitEdge.StreamsInRange.processData (h : e.StreamsInRange) (streamId : UInt16)
    (length : ℕ) : (processData e streamId length).edge.StreamsInRange := by
  have hcredit : (circuitConsiderSendingSendme
      { e with deliverWindow := e.deliverWindow - 1 }).1.StreamsInRange := h
  unfold Astoria.processData
  dsimp only
  split_ifs with hneg hsome
  · exact CircuitEdge.StreamsInRange.close (e := { e with deliverWindow := e.deliverWindow - 1 }) h
      streamId
  · exact h
  · cases hconn : relayLookupConn e streamId with
    | none => exact hcredit
    | some conn =>
      have hle := h streamId conn (conns_of_relayLookupConn hconn)
      dsimp only
      split_ifs
      · exact hcredit.setConn hle
      · exact hcredit.setConn hle
      · refine hcredit.setConn ?_
        rw [(connectionEdgeConsiderSendingSendme_spec _).1]
        exact hle

/-- **One safe step** keeps the windows of the streams within their bounds. -/
lemma CircuitEdge.StreamsInRange.edgeStep (h : e.StreamsInRange) {event : EdgeEvent}
    (hsafe : event.Safe e) : (edgeStep e event).edge.StreamsInRange := by
  cases event with
  | receive cell =>
    dsimp only [Astoria.edgeStep, connectionEdgeProcessRelayCell]
    split_ifs with hlong haccept
    · exact h
    · exact h
    · cases hcommand : cell.command with
      | data => exact h.processData _ _
      | sendme =>
        dsimp only [processSendme]
        split_ifs
        · exact h
        · exact h
        · cases hconn : relayLookupConn e cell.streamId with
          | none => exact h
          | some conn =>
            rw [hconn, any_some, hcommand] at haccept
            refine h.setConn (hsafe cell conn rfl hcommand (not_lt.mp hlong) hconn ?_)
            simpa [acceptsCell] using haccept
  | read streamId n =>
    dsimp only [Astoria.edgeStep]
    cases hconn : e.conns streamId with
    | none => exact h
    | some conn => exact h.setConn (h streamId conn hconn)
  | package streamId packagePartial maxCells =>
    dsimp only [Astoria.edgeStep, connectionEdgePackageRawInbuf]
    cases hconn : e.conns streamId with
    | none => exact h
    | some conn =>
      obtain ⟨k, conn', hrun⟩ := packageRawInbuf_spec packagePartial conn.inbufLen maxCells hconn
      have hle := h streamId conn hconn
      have hle' : conn'.packageWindow ≤ streamwindowStart := by
        rw [hrun.packageWindow]
        omega
      have hset : (e.setConn streamId conn').StreamsInRange := h.setConn hle'
      rw [map_some, getD_some, hrun.edge]
      exact hset
  | flush streamId n =>
    dsimp only [Astoria.edgeStep]
    cases hconn : e.conns streamId with
    | none => exact h
    | some conn =>
      have hle := h streamId conn hconn
      dsimp only
      split_ifs
      · refine h.setConn ?_
        rw [(connectionEdgeConsiderSendingSendme_spec _).1]
        exact hle
      · exact h.setConn hle
  | attach streamId state => exact h.setConn (le_refl streamwindowStart)
  | connected streamId =>
    dsimp only [Astoria.edgeStep]
    cases hconn : e.conns streamId with
    | none => exact h
    | some conn => exact h.setConn (h streamId conn hconn)
  | close streamId => exact h.close streamId

end Bounds

/-! ### Runs of a circuit -/

section Runs

variable {H : Type*} [DecidableEq H] {c : WindowCircuit H}

/-- One step of a circuit, at one of its edges.  Nothing happens at a closed circuit. -/
def WindowCircuit.step (c : WindowCircuit H) (event : H × EdgeEvent) : WindowCircuit H :=
  if c.closed then c
  else
    let r := edgeStep (c.edges event.1) event.2
    ⟨update c.edges event.1 r.edge, r.killed⟩

/-- The condition on a step of a circuit that is not closed. -/
def WindowCircuit.Safe (c : WindowCircuit H) (event : H × EdgeEvent) : Prop :=
  c.closed = false → event.2.Safe (c.edges event.1)

/-- What a step of an edge keeps, a step of a circuit keeps at all of its edges. -/
lemma WindowCircuit.step_edges {P : CircuitEdge → Prop} {event : H × EdgeEvent}
    (hstep : c.closed = false → P (edgeStep (c.edges event.1) event.2).edge)
    (hc : ∀ h, P (c.edges h)) (h : H) : P ((c.step event).edges h) := by
  unfold WindowCircuit.step
  split_ifs with hclosed
  · exact hc h
  · dsimp only
    by_cases heq : h = event.1
    · rw [heq, update_self]
      exact hstep (Bool.not_eq_true _ ▸ hclosed)
    · rw [update_of_ne heq]
      exact hc h

lemma inRange_foldl (hc : ∀ h, (c.edges h).InRange)
    (events : List (H × EdgeEvent)) (h : H) :
    ((events.foldl WindowCircuit.step c).edges h).InRange := by
  induction events generalizing c with
  | nil => exact hc h
  | cons event events ih =>
    exact ih (WindowCircuit.step_edges (fun _ => (hc event.1).edgeStep event.2) hc)

/-- The package windows of the streams stay within their bounds in safe steps. -/
lemma streamsInRange_foldl (hc : ∀ h, (c.edges h).StreamsInRange) {events : List (H × EdgeEvent)}
    (hsafe : Runs.MeetsAlong (fun c event => some (WindowCircuit.step c event)) WindowCircuit.Safe
      events c) (h : H) : ((events.foldl WindowCircuit.step c).edges h).StreamsInRange := by
  induction events generalizing c with
  | nil => exact hc h
  | cons event events ih =>
    obtain ⟨hevent, hrest⟩ := Runs.meetsAlong_some_cons.mp hsafe
    have hstep := WindowCircuit.step_edges
      (fun hopen => (hc event.1).edgeStep (hevent hopen)) hc
    exact ih hstep hrest

/-- **The windows of a circuit stay within their bounds.**  In every run of a new circuit, whatever
cells arrive, the windows of the circuit and of its hops stay within their bounds.  If credit for
streams is accepted up to its bound only, the package windows of the streams do so too. -/
theorem windows_inRange (circwindow : H → Option ℤ) (events : List (H × EdgeEvent)) :
    (∀ h, ((events.foldl WindowCircuit.step (.init circwindow)).edges h).InRange) ∧
    (Runs.MeetsAlong (fun c event => some (WindowCircuit.step c event)) WindowCircuit.Safe events
        (.init circwindow) →
      ∀ h, ((events.foldl WindowCircuit.step (.init circwindow)).edges h).StreamsInRange) := by
  have hstreams : ∀ h, ((WindowCircuit.init circwindow).edges h).StreamsInRange :=
    fun h streamId conn hconn => absurd hconn (by simp [WindowCircuit.init, CircuitEdge.init])
  exact ⟨inRange_foldl (fun h => inRange_init (circwindow h)) events,
    fun hsafe => streamsInRange_foldl hstreams hsafe⟩

/-- A stream with data for fifty cells sends them, and gets its credit back. -/
def fiftyCells : List (Unit × EdgeEvent) :=
  [((), .attach 1 .isOpen), ((), .read 1 (50 * relayPayloadSize)), ((), .package 1 false none),
    ((), .receive ⟨.sendme, 1, 0⟩)]

/-- All windows stay within their bounds when a stream gets back the credit for fifty cells. -/
theorem windows_inRange_fifty_cells :
    ((fiftyCells.foldl WindowCircuit.step (.init fun _ => none)).edges ()).InRange ∧
    ((fiftyCells.foldl WindowCircuit.step (.init fun _ => none)).edges ()).StreamsInRange := by
  obtain ⟨hrange, hstreams⟩ := windows_inRange (fun _ => none) fiftyCells
  have hother : ∀ (e : CircuitEdge) (event : EdgeEvent), (∀ cell, event ≠ .receive cell) →
      event.Safe e := fun e event hne cell conn heq => absurd heq (hne cell)
  have hwindow : (relayLookupConn (((fiftyCells.take 3).foldl WindowCircuit.step
      (.init fun _ => none)).edges ()) 1).all (fun conn => conn.packageWindow = 450) = true := by
    decide +kernel
  refine ⟨hrange (), hstreams ?_ ()⟩
  refine Runs.meetsAlong_some_cons.mpr ⟨fun _ => hother _ _ (by simp), ?_⟩
  refine Runs.meetsAlong_some_cons.mpr ⟨fun _ => hother _ _ (by simp), ?_⟩
  refine Runs.meetsAlong_some_cons.mpr ⟨fun _ => hother _ _ (by simp), ?_⟩
  refine Runs.meetsAlong_some_cons.mpr ⟨fun _ cell conn heq _ _ hconn _ => ?_, trivial⟩
  cases heq
  rw [show relayLookupConn (((fiftyCells.take 3).foldl WindowCircuit.step
      (.init fun _ => none)).edges ()) 1 = some conn from hconn, all_some,
    decide_eq_true_iff] at hwindow
  rw [hwindow]
  decide

/-- Credit for a stream that has not sent anything is accepted. -/
theorem not_streamsInRange_unexpected_sendme :
    ¬ ∀ events : List (Unit × EdgeEvent), ∀ h,
      ((events.foldl WindowCircuit.step (.init fun _ => none)).edges h).StreamsInRange := by
  intro hall
  have hwindow := hall [((), .attach 1 .isOpen), ((), .receive ⟨.sendme, 1, 0⟩)] () 1
    ⟨.isOpen, 550, 500, 0, 0⟩ (by decide +kernel)
  revert hwindow
  decide

end Runs

end Astoria
