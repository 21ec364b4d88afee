import Astoria.TorClient.FlowControl
import Mathlib.Tactic.Linarith

/-!
# Flow control between honest endpoints

Two edges are connected by a link that keeps the order of the cells in each direction.  For an edge,
the package window, the DATA cells in flight, the cells that the other edge has delivered without
returning credit, and the credit in flight add up to the window at the start, for the circuit and
for each stream. Each step changes these numbers by the cells that it takes and sends (`Accounts`),
whatever it does in between.
-/

namespace Astoria

open List Option
open Function

/-! ### Counting cells -/

def dataCells (cells : List FlowCell) : ℤ := cells.countP fun cell => cell.command = .data

def streamDataCells (streamId : UInt16) (cells : List FlowCell) : ℤ :=
  cells.countP fun cell => cell.command = .data ∧ cell.streamId = streamId

/-- The number of SENDME cells of a stream, or of the circuit. -/
def sendmeCells (streamId : UInt16) (cells : List FlowCell) : ℤ :=
  cells.countP fun cell => cell.command = .sendme ∧ cell.streamId = streamId

section Counting

variable {streamId streamId' : UInt16} {cells cells' : List FlowCell}

@[simp] lemma dataCells_nil : dataCells [] = 0 := rfl

@[simp] lemma streamDataCells_nil : streamDataCells streamId [] = 0 := rfl

@[simp] lemma sendmeCells_nil : sendmeCells streamId [] = 0 := rfl

@[simp] lemma dataCells_append :
    dataCells (cells ++ cells') = dataCells cells + dataCells cells' := by
  simp [dataCells]

@[simp] lemma streamDataCells_append : streamDataCells streamId (cells ++ cells') =
    streamDataCells streamId cells + streamDataCells streamId cells' := by
  simp [streamDataCells]

@[simp] lemma sendmeCells_append : sendmeCells streamId (cells ++ cells') =
    sendmeCells streamId cells + sendmeCells streamId cells' := by
  simp [sendmeCells]

lemma dataCells_nonneg : 0 ≤ dataCells cells := Int.natCast_nonneg _

lemma streamDataCells_nonneg : 0 ≤ streamDataCells streamId cells := Int.natCast_nonneg _

lemma sendmeCells_nonneg : 0 ≤ sendmeCells streamId cells := Int.natCast_nonneg _

@[simp] lemma dataCells_sendmes (n : ℕ) : dataCells (sendmes streamId n) = 0 := by
  simp [dataCells, sendmes, countP_replicate]

@[simp] lemma streamDataCells_sendmes (n : ℕ) :
    streamDataCells streamId (sendmes streamId' n) = 0 := by
  simp [streamDataCells, sendmes, countP_replicate]

@[simp] lemma sendmeCells_sendmes (n : ℕ) :
    sendmeCells streamId (sendmes streamId n) = n := by
  simp [sendmeCells, sendmes, countP_replicate]

lemma dataCells_sendme (length : ℕ) : dataCells [⟨.sendme, streamId, length⟩] = 0 := by
  simp [dataCells]

lemma streamDataCells_sendme (length : ℕ) :
    streamDataCells streamId' [⟨.sendme, streamId, length⟩] = 0 := by
  simp [streamDataCells]

lemma sendmeCells_sendme (length : ℕ) : sendmeCells streamId [⟨.sendme, streamId, length⟩] = 1 := by
  simp [sendmeCells]

lemma counts_data (streamId : UInt16) (length : ℕ) : dataCells [⟨.data, streamId, length⟩] = 1 ∧
    streamDataCells streamId [⟨.data, streamId, length⟩] = 1 ∧
    ∀ streamId', sendmeCells streamId' [⟨.data, streamId, length⟩] = 0 := by
  simp [dataCells, streamDataCells, sendmeCells]

lemma sendmeCells_sendme_of_ne (hne : streamId' ≠ streamId) (length : ℕ) :
    sendmeCells streamId [⟨.sendme, streamId', length⟩] = 0 := by
  simp [sendmeCells, hne]

lemma sendmeCells_sendmes_of_ne (hne : streamId' ≠ streamId) (n : ℕ) :
    sendmeCells streamId (sendmes streamId' n) = 0 := by
  simp [sendmeCells, sendmes, countP_replicate, hne]

lemma counts_of_data (h : ∀ cell ∈ cells, cell.command = .data ∧ cell.streamId = streamId) :
    dataCells cells = cells.length ∧ streamDataCells streamId cells = cells.length ∧
      ∀ streamId', sendmeCells streamId' cells = 0 := by
  refine ⟨?_, ?_, fun streamId' => ?_⟩
  · rw [dataCells, countP_eq_length.mpr fun cell hcell => decide_eq_true (h cell hcell).1]
  · rw [streamDataCells, countP_eq_length.mpr fun cell hcell => decide_eq_true (h cell hcell)]
  · rw [sendmeCells, countP_eq_zero.mpr fun cell hcell => ?_]
    · rfl
    · simp [(h cell hcell).1]

/-- Cells of one stream and of the circuit do not count for another stream. -/
lemma counts_of_other (h : ∀ cell ∈ cells, cell.streamId = streamId ∨ cell.streamId = 0)
    (hne : streamId' ≠ streamId) (hzero : streamId' ≠ 0) :
    streamDataCells streamId' cells = 0 ∧ sendmeCells streamId' cells = 0 := by
  have hstream : ∀ cell ∈ cells, cell.streamId ≠ streamId' := by
    intro cell hcell heq
    rcases h cell hcell with h | h
    · exact hne (heq.symm.trans h)
    · exact hzero (heq.symm.trans h)
  constructor
  · rw [streamDataCells, countP_eq_zero.mpr fun cell hcell => ?_]
    · rfl
    · simp [hstream cell hcell]
  · rw [sendmeCells, countP_eq_zero.mpr fun cell hcell => ?_]
    · rfl
    · simp [hstream cell hcell]

end Counting

/-! ### The accounts of a step -/

structure CircuitEdge.Open (e : CircuitEdge) : Prop where
  /-- The windows of the circuit are within their bounds. -/
  inRange : e.InRange
  /-- No stream has the identifier of the circuit. -/
  zero : e.conns 0 = none
  isOpen : ∀ streamId conn, e.conns streamId = some conn → conn.state = .isOpen
  package_nonneg : ∀ streamId conn, e.conns streamId = some conn → 0 ≤ conn.packageWindow
  /-- Their deliver windows are not too large. -/
  deliver_le : ∀ streamId conn, e.conns streamId = some conn →
    conn.deliverWindow ≤ streamwindowStart

/-- The windows of a stream change by the cells that are taken and sent. -/
structure StreamAccount (streamId : UInt16) (conn : EdgeConn) (taken sent : List FlowCell)
    (conn' : EdgeConn) : Prop where
  /-- The stream stays open. -/
  state : conn'.state = conn.state
  /-- DATA cells that are sent lower the package window, and credit raises it. -/
  package : conn'.packageWindow + streamDataCells streamId sent =
    conn.packageWindow + streamwindowIncrement * sendmeCells streamId taken
  /-- DATA cells that arrive lower the deliver window, and returning credit raises it. -/
  deliver : conn'.deliverWindow + streamDataCells streamId taken =
    conn.deliverWindow + streamwindowIncrement * sendmeCells streamId sent
  package_nonneg : 0 ≤ conn.packageWindow → 0 ≤ conn'.packageWindow
  /-- The deliver window does not become too large. -/
  deliver_le : conn.deliverWindow ≤ streamwindowStart → conn'.deliverWindow ≤ streamwindowStart

/-- The windows of an edge change by the cells that are taken and sent. -/
structure Accounts (e : CircuitEdge) (taken : List FlowCell) (r : EdgeResult) : Prop where
  /-- The circuit stays open. -/
  killed : r.killed = false
  /-- DATA cells that are sent lower the package window, and credit raises it. -/
  package : r.edge.packageWindow + dataCells r.sent =
    e.packageWindow + circwindowIncrement * sendmeCells 0 taken
  /-- DATA cells that arrive lower the deliver window, and returning credit raises it. -/
  deliver : r.edge.deliverWindow + dataCells taken =
    e.deliverWindow + circwindowIncrement * sendmeCells 0 r.sent
  absent : ∀ streamId, e.conns streamId = none → r.edge.conns streamId = none
  /-- The streams stay, with their accounts. -/
  streams : ∀ streamId conn, e.conns streamId = some conn →
    ∃ conn', r.edge.conns streamId = some conn' ∧ StreamAccount streamId conn taken r.sent conn'
  /-- The cells that are sent are not too long, and are for streams or return credit for the
  circuit. -/
  sent : ∀ cell ∈ r.sent, cell.length ≤ relayPayloadSize ∧
    (cell.command = .sendme ∧ cell.streamId = 0 ∨ ∃ conn, e.conns cell.streamId = some conn)

section Accounts

variable {e : CircuitEdge} {taken : List FlowCell} {r : EdgeResult} {streamId : UInt16}
  {conn conn' : EdgeConn}

lemma streamAccount_refl (hdata : streamDataCells streamId taken = 0)
    (hsendme : sendmeCells streamId taken = 0) (hdata' : streamDataCells streamId r.sent = 0)
    (hsendme' : sendmeCells streamId r.sent = 0) :
    StreamAccount streamId conn taken r.sent conn := by
  refine ⟨rfl, ?_, ?_, id, id⟩
  · rw [hdata', hsendme]
    simp
  · rw [hdata, hsendme']
    simp

/-- A step that only changes one stream keeps the accounts, if those of the circuit are right. -/
lemma accounts_of_setConn (h : e.Open) (hconn : e.conns streamId = some conn)
    (haccount : StreamAccount streamId conn taken r.sent conn') (hkilled : r.killed = false)
    (hedge : r.edge.conns = update e.conns streamId (some conn'))
    (htaken : ∀ cell ∈ taken, cell.streamId = streamId ∨ cell.streamId = 0)
    (hsent : ∀ cell ∈ r.sent, cell.length ≤ relayPayloadSize ∧
      (cell.command = .sendme ∧ cell.streamId = 0 ∨ cell.streamId = streamId))
    (hpackage : r.edge.packageWindow + dataCells r.sent =
      e.packageWindow + circwindowIncrement * sendmeCells 0 taken)
    (hdeliver : r.edge.deliverWindow + dataCells taken =
      e.deliverWindow + circwindowIncrement * sendmeCells 0 r.sent) : Accounts e taken r := by
  refine ⟨hkilled, hpackage, hdeliver, ?_, ?_, fun cell hcell => ?_⟩
  · intro streamId' hnone
    have hne : streamId' ≠ streamId := by
      rintro rfl
      rw [hconn] at hnone
      exact absurd hnone (by simp)
    rw [hedge, update_of_ne hne]
    exact hnone
  · intro streamId' conn₁ hconn₁
    rw [hedge]
    by_cases heq : streamId' = streamId
    · subst heq
      rw [hconn] at hconn₁
      rw [← Option.some.inj hconn₁]
      exact ⟨conn', update_self _ _ _, haccount⟩
    · have hzero : streamId' ≠ 0 := by
        rintro rfl
        rw [h.zero] at hconn₁
        exact absurd hconn₁ (by simp)
      obtain ⟨hdata, hsendme⟩ := counts_of_other htaken heq hzero
      obtain ⟨hdata', hsendme'⟩ := counts_of_other
        (fun cell hcell => (hsent cell hcell).2.symm.imp_right And.right) heq hzero
      rw [update_of_ne heq]
      exact ⟨conn₁, hconn₁, streamAccount_refl hdata hsendme hdata' hsendme'⟩
  · obtain ⟨hlength, hor⟩ := hsent cell hcell
    exact ⟨hlength, hor.imp_right fun heq => ⟨conn, by rw [heq, hconn]⟩⟩

lemma accounts_refl : Accounts e [] ⟨e, [], false⟩ :=
  ⟨rfl, by simp, by simp, fun _ => id,
    fun _ conn hconn => ⟨conn, hconn, streamAccount_refl rfl rfl rfl rfl⟩,
    fun cell hcell => absurd hcell not_mem_nil⟩

section

variable (h : e.Open)

include h

lemma CircuitEdge.Open.ne_zero (hconn : e.conns streamId = some conn) : streamId ≠ 0 := by
  rintro rfl
  rw [h.zero] at hconn
  exact absurd hconn (by simp)

lemma CircuitEdge.Open.relayLookupConn (hconn : e.conns streamId = some conn) :
    relayLookupConn e streamId = some conn := by
  unfold Astoria.relayLookupConn
  rw [if_neg (h.ne_zero hconn)]
  exact hconn

/-- What processing a DATA cell does that is within the windows. -/
lemma processData_open (hconn : e.conns streamId = some conn)
    (hpos : 0 < conn.deliverWindow) (length : ℕ) :
    ∃ n n' : ℕ, ∃ conn', processData e streamId length =
        ⟨{ e.setConn streamId conn' with
            deliverWindow := e.deliverWindow - 1 + circwindowIncrement * n },
          sendmes 0 n ++ sendmes streamId n', false⟩ ∧
      conn'.state = conn.state ∧ conn'.packageWindow = conn.packageWindow ∧
      conn'.deliverWindow = conn.deliverWindow - 1 + streamwindowIncrement * n' ∧
      (conn.deliverWindow ≤ streamwindowStart → conn'.deliverWindow ≤ streamwindowStart) := by
  have hlow : 0 ≤ circwindowStart - circwindowIncrement := by decide
  have hlt := h.inRange.lt_deliver
  have hcirc : ¬ e.deliverWindow - 1 < 0 := by omega
  have hstream : ¬ conn.deliverWindow - 1 < 0 := by omega
  have hstate : ¬ conn.state = .connecting := by
    rw [h.isOpen streamId conn hconn]
    decide
  obtain ⟨hcredit, -, -⟩ :=
    circuitConsiderSendingSendme_spec { e with deliverWindow := e.deliverWindow - 1 }
  obtain ⟨hcredit', hle⟩ := connectionEdgeConsiderSendingSendme_spec
    { conn with deliverWindow := conn.deliverWindow - 1,
                outbufFlushlen := conn.outbufFlushlen + length }
  unfold processData
  rw [h.relayLookupConn hconn]
  dsimp only
  rw [if_neg hcirc, if_neg hstream, if_neg hstate, hcredit, hcredit']
  dsimp only at hcredit' hle
  rw [hcredit'] at hle
  refine ⟨_, _, _, rfl, rfl, rfl, rfl, fun hconn => hle ?_⟩
  omega

/-- **A DATA cell** that is within the windows. -/
lemma processData_accounts (hconn : e.conns streamId = some conn)
    (hpos : 0 < conn.deliverWindow) (length : ℕ) :
    Accounts e [⟨.data, streamId, length⟩] (processData e streamId length) := by
  have hzero := h.ne_zero hconn
  obtain ⟨n, n', conn', hdata, hstate, hpackage, hdeliver, hle⟩ :=
    processData_open h hconn hpos length
  obtain ⟨hone, hone', hnone⟩ := counts_data streamId length
  rw [hdata]
  have haccount : StreamAccount streamId conn [⟨.data, streamId, length⟩]
      (sendmes 0 n ++ sendmes streamId n') conn' := by
    refine ⟨hstate, ?_, ?_, fun hnonneg => hpackage ▸ hnonneg, hle⟩
    · rw [hnone, streamDataCells_append, streamDataCells_sendmes, streamDataCells_sendmes, hpackage]
      ring
    · rw [hone', hdeliver, sendmeCells_append, sendmeCells_sendmes,
        sendmeCells_sendmes_of_ne hzero.symm]
      ring
  refine accounts_of_setConn h hconn haccount rfl rfl (by simp) (fun cell hcell => ?_) ?_ ?_
  · rcases mem_append.mp hcell with hcell | hcell
    · rw [(mem_replicate.mp hcell).2]
      exact ⟨Nat.zero_le _, .inl ⟨rfl, rfl⟩⟩
    · rw [(mem_replicate.mp hcell).2]
      exact ⟨Nat.zero_le _, .inr rfl⟩
  · rw [hnone, dataCells_append, dataCells_sendmes, dataCells_sendmes]
    simp [CircuitEdge.setConn]
  · rw [hone, sendmeCells_append, sendmeCells_sendmes, sendmeCells_sendmes_of_ne hzero]
    ring

/-- **A SENDME cell** that is expected. -/
lemma processSendme_accounts
    (hcirc : streamId = 0 → e.packageWindow + circwindowIncrement ≤ circwindowStartMax)
    (hconn : streamId ≠ 0 → ∃ conn, e.conns streamId = some conn) (length : ℕ) :
    Accounts e [⟨.sendme, streamId, length⟩] (processSendme e streamId) := by
  have hinc : 0 ≤ streamwindowIncrement := by decide
  unfold processSendme
  split_ifs with hzero hover
  · exact absurd (hcirc hzero) (not_le.mpr hover)
  · subst hzero
    refine ⟨rfl, ?_, ?_, fun _ => id, fun streamId conn hconn => ?_, by simp⟩
    · rw [sendmeCells_sendme, dataCells_nil]
      ring
    · rw [dataCells_sendme, sendmeCells_nil]
      ring
    · refine ⟨conn, hconn, streamAccount_refl (streamDataCells_sendme length) ?_ rfl rfl⟩
      exact sendmeCells_sendme_of_ne (h.ne_zero hconn).symm length
  · obtain ⟨conn, hconn⟩ := hconn hzero
    rw [h.relayLookupConn hconn]
    dsimp only
    have haccount : StreamAccount streamId conn [⟨.sendme, streamId, length⟩] []
        { conn with packageWindow := conn.packageWindow + streamwindowIncrement } := by
      refine ⟨rfl, ?_, ?_, fun hnonneg => ?_, id⟩
      · rw [sendmeCells_sendme, streamDataCells_nil]
        ring
      · rw [streamDataCells_sendme, sendmeCells_nil]
        ring
      · dsimp only
        omega
    refine accounts_of_setConn h hconn haccount rfl rfl (by simp) nofun ?_ ?_
    · rw [sendmeCells_sendme_of_ne hzero, dataCells_nil]
      simp [CircuitEdge.setConn]
    · rw [dataCells_sendme, sendmeCells_nil]
      simp [CircuitEdge.setConn]

/-- **A cell arrives** that is within the windows. -/
lemma receive_accounts {cell : FlowCell} (hlength : cell.length ≤ relayPayloadSize)
    (hknown : cell.command = .sendme ∧ cell.streamId = 0 ∨
      ∃ conn, e.conns cell.streamId = some conn)
    (hcirc : cell.command = .sendme → cell.streamId = 0 →
      e.packageWindow + circwindowIncrement ≤ circwindowStartMax)
    (hstream : ∀ conn, cell.command = .data → e.conns cell.streamId = some conn →
      0 < conn.deliverWindow) :
    Accounts e [cell] (edgeStep e (.receive cell)) := by
  have haccept : ¬ (relayLookupConn e cell.streamId).any
      (fun conn => !acceptsCell conn cell.command) = true := by
    cases hconn : Astoria.relayLookupConn e cell.streamId with
    | none => simp
    | some conn => simp [acceptsCell, h.isOpen _ conn (conns_of_relayLookupConn hconn)]
  dsimp only [edgeStep, connectionEdgeProcessRelayCell]
  rw [if_neg (not_lt.mpr hlength), if_neg haccept]
  obtain ⟨command, streamId, length⟩ := cell
  cases command with
  | data =>
    obtain ⟨hcommand, -⟩ | ⟨conn, hconn⟩ := hknown
    · exact absurd hcommand (by simp)
    · exact processData_accounts h hconn (hstream conn rfl hconn) length
  | sendme =>
    refine processSendme_accounts h (hcirc rfl) (fun hzero => ?_) length
    rcases hknown with ⟨-, hstream⟩ | hconn
    · exact absurd hstream hzero
    · exact hconn

/-- Bytes arrive at a connection. -/
lemma read_accounts (streamId : UInt16) (n : ℕ) :
    Accounts e [] (edgeStep e (.read streamId n)) := by
  dsimp only [edgeStep]
  cases hconn : e.conns streamId with
  | none => exact accounts_refl
  | some conn =>
    have haccount : StreamAccount streamId conn [] [] { conn with inbufLen := conn.inbufLen + n } :=
      ⟨rfl, by simp, by simp, id, id⟩
    exact accounts_of_setConn h hconn haccount rfl rfl nofun nofun (by simp [CircuitEdge.setConn])
      (by simp [CircuitEdge.setConn])

/-- **Cells are packaged.** -/
lemma package_accounts (streamId : UInt16) (packagePartial : Bool)
    (maxCells : Option ℕ) :
    Accounts e [] (edgeStep e (.package streamId packagePartial maxCells)) := by
  dsimp only [edgeStep, connectionEdgePackageRawInbuf]
  cases hconn : e.conns streamId with
  | none => exact accounts_refl
  | some conn =>
    obtain ⟨k, conn', hrun⟩ := packageRawInbuf_spec packagePartial conn.inbufLen maxCells hconn
    rw [map_some, getD_some]
    generalize packageRawInbuf streamId packagePartial conn.inbufLen maxCells e = run at hrun
    obtain ⟨hdata, hdata', hsendme⟩ := counts_of_data fun cell hcell =>
      ⟨(hrun.cells cell hcell).1, (hrun.cells cell hcell).2.1⟩
    rw [hrun.length] at hdata hdata'
    have haccount : StreamAccount streamId conn [] run.2 conn' := by
      refine ⟨hrun.state, ?_, ?_, fun hnonneg => ?_, fun hle => ?_⟩
      · rw [hdata', hrun.packageWindow, sendmeCells_nil]
        ring
      · rw [hsendme, hrun.deliverWindow]
        simp
      · have hle := hrun.le_stream hnonneg
        rw [hrun.packageWindow]
        omega
      · rw [hrun.deliverWindow]
        exact hle
    refine accounts_of_setConn h hconn haccount rfl (by rw [hrun.edge]; rfl) nofun
      (fun cell hcell => ?_) ?_ ?_
    · obtain ⟨-, hstream, hlength⟩ := hrun.cells cell hcell
      exact ⟨hlength, .inr hstream⟩
    · rw [hrun.edge, hdata, sendmeCells_nil]
      ring
    · rw [hrun.edge, hsendme]
      simp [CircuitEdge.setConn]

/-- **Bytes are flushed.** -/
lemma flush_accounts (streamId : UInt16) (n : ℕ) :
    Accounts e [] (edgeStep e (.flush streamId n)) := by
  dsimp only [edgeStep]
  cases hconn : e.conns streamId with
  | none => exact accounts_refl
  | some conn =>
    dsimp only
    rw [if_pos (h.isOpen streamId conn hconn)]
    obtain ⟨hcredit, hle⟩ := connectionEdgeConsiderSendingSendme_spec
      { conn with outbufFlushlen := conn.outbufFlushlen - n }
    generalize connectionEdgeConsiderSendingSendme
      { conn with outbufFlushlen := conn.outbufFlushlen - n } = credit at hcredit hle
    obtain ⟨conn', k⟩ := credit
    dsimp only at hcredit hle
    have haccount : StreamAccount streamId conn [] (sendmes streamId k) conn' := by
      refine ⟨by rw [hcredit], ?_, ?_, fun hnonneg => ?_, hle⟩
      · rw [hcredit]
        simp
      · rw [hcredit]
        simp
      · rw [hcredit]
        exact hnonneg
    refine accounts_of_setConn h hconn haccount rfl rfl nofun (fun cell hcell => ?_) ?_ ?_
    · rw [(mem_replicate.mp hcell).2]
      exact ⟨Nat.zero_le _, .inr rfl⟩
    · simp [CircuitEdge.setConn]
    · rw [sendmeCells_sendmes_of_ne (h.ne_zero hconn)]
      simp [CircuitEdge.setConn]

end

/-- The account of a stream, from its end. -/
lemma Accounts.exists_before (ha : Accounts e taken r)
    (hconn' : r.edge.conns streamId = some conn') :
    ∃ conn, e.conns streamId = some conn ∧ StreamAccount streamId conn taken r.sent conn' := by
  cases hconn : e.conns streamId with
  | none =>
    rw [ha.absent streamId hconn] at hconn'
    exact absurd hconn' (by simp)
  | some conn =>
    obtain ⟨conn'', hconn'', haccount⟩ := ha.streams streamId conn hconn
    rw [hconn'] at hconn''
    rw [Option.some.inj hconn'']
    exact ⟨conn, rfl, haccount⟩

lemma Accounts.isOpen (h : e.Open) (ha : Accounts e taken r) (hrange : r.edge.InRange) :
    r.edge.Open := by
  refine ⟨hrange, ha.absent 0 h.zero, fun streamId conn' hconn' => ?_,
    fun streamId conn' hconn' => ?_, fun streamId conn' hconn' => ?_⟩
  · obtain ⟨conn, hconn, haccount⟩ := ha.exists_before hconn'
    rw [haccount.state]
    exact h.isOpen streamId conn hconn
  · obtain ⟨conn, hconn, haccount⟩ := ha.exists_before hconn'
    exact haccount.package_nonneg (h.package_nonneg streamId conn hconn)
  · obtain ⟨conn, hconn, haccount⟩ := ha.exists_before hconn'
    exact haccount.deliver_le (h.deliver_le streamId conn hconn)

end Accounts

/-! ### Two edges and the link between them -/

/-- Two edges, with the cells in flight. -/
structure FlowLink where
  edge : Bool → CircuitEdge
  /-- The cells that an edge has sent and the other one has not got yet. -/
  inFlight : Bool → List FlowCell
  /-- Whether an edge has closed the circuit. -/
  closed : Bool

/-- A new circuit with open streams. -/
def FlowLink.init (circwindow : Bool → Option ℤ) (streams : UInt16 → Bool) : FlowLink where
  edge side := { CircuitEdge.init (circwindow side) with
    conns := fun streamId =>
      if streamId ≠ 0 ∧ streams streamId then some (EdgeConn.init .isOpen) else none }
  inFlight _ := []
  closed := false

/-- What happens at one of the edges. -/
inductive FlowEvent
  /-- The first cell in flight arrives. -/
  | deliver
  /-- Bytes to be packaged arrive at a connection. -/
  | read (streamId : UInt16) (n : ℕ)
  /-- What a connection has to send is packaged. -/
  | package (streamId : UInt16) (packagePartial : Bool) (maxCells : Option ℕ)
  /-- Bytes of a connection are flushed. -/
  | flush (streamId : UInt16) (n : ℕ)

/-- What an edge does, with the cells for it that are in flight afterwards. -/
def FlowLink.record (l : FlowLink) (side : Bool) (rest : List FlowCell) (r : EdgeResult) :
    FlowLink where
  edge := update l.edge side r.edge
  inFlight := update (update l.inFlight (!side) rest) side
    (l.inFlight side ++ r.sent)
  closed := l.closed || r.killed

def FlowLink.step (l : FlowLink) : Bool × FlowEvent → FlowLink
  | (side, .deliver) =>
    match l.inFlight (!side) with
    | [] => l
    | cell :: rest => l.record side rest (edgeStep (l.edge side) (.receive cell))
  | (side, .read streamId n) =>
    l.record side (l.inFlight (!side)) (edgeStep (l.edge side) (.read streamId n))
  | (side, .package streamId packagePartial maxCells) =>
    l.record side (l.inFlight (!side))
      (edgeStep (l.edge side) (.package streamId packagePartial maxCells))
  | (side, .flush streamId n) =>
    l.record side (l.inFlight (!side)) (edgeStep (l.edge side) (.flush streamId n))

/-- The credit of an edge for the circuit, wherever it is. -/
def FlowLink.circuitSum (l : FlowLink) (side : Bool) : ℤ :=
  (l.edge side).packageWindow + dataCells (l.inFlight side) +
    (circwindowStart - (l.edge (!side)).deliverWindow) +
    circwindowIncrement * sendmeCells 0 (l.inFlight (!side))

/-- The credit of a connection for its stream, wherever it is. -/
def FlowLink.streamSum (l : FlowLink) (side : Bool) (streamId : UInt16) (conn conn' : EdgeConn) :
    ℤ :=
  conn.packageWindow + streamDataCells streamId (l.inFlight side) +
    (streamwindowStart - conn'.deliverWindow) +
    streamwindowIncrement * sendmeCells streamId (l.inFlight (!side))

structure FlowLink.Balanced (circwindow : Bool → Option ℤ) (streams : UInt16 → Bool)
    (l : FlowLink) : Prop where
  closed : l.closed = false
  isOpen : ∀ side, (l.edge side).Open
  streams : ∀ side streamId, ((l.edge side).conns streamId).isSome ↔
    streamId ≠ 0 ∧ streams streamId
  /-- The cells in flight are not too long, and are for streams or return credit for the circuit. -/
  cells : ∀ side, ∀ cell ∈ l.inFlight side, cell.length ≤ relayPayloadSize ∧
    (cell.command = .sendme ∧ cell.streamId = 0 ∨
      ((l.edge side).conns cell.streamId).isSome)
  circuit : ∀ side, l.circuitSum side = circuitInitialPackageWindow (circwindow side)
  stream : ∀ side streamId conn conn', (l.edge side).conns streamId = some conn →
    (l.edge (!side)).conns streamId = some conn' →
    l.streamSum side streamId conn conn' = streamwindowStart

section Balanced

variable {l : FlowLink} {side : Bool} {taken rest : List FlowCell} {r : EdgeResult}
  {circwindow : Bool → Option ℤ} {streams : UInt16 → Bool}

@[simp] lemma FlowLink.record_edge : (l.record side rest r).edge side = r.edge :=
  update_self _ _ _

@[simp] lemma FlowLink.record_edge_not : (l.record side rest r).edge (!side) = l.edge (!side) :=
  update_of_ne (Bool.not_ne_self side) _ _

@[simp] lemma FlowLink.record_inFlight : (l.record side rest r).inFlight side =
    l.inFlight side ++ r.sent :=
  update_self _ _ _

@[simp] lemma FlowLink.record_inFlight_not : (l.record side rest r).inFlight (!side) = rest := by
  unfold FlowLink.record
  dsimp only
  rw [update_of_ne (Bool.not_ne_self side), update_self]

lemma FlowLink.circuitSum_record (ha : Accounts (l.edge side) taken r)
    (hcells : l.inFlight (!side) = taken ++ rest) (side' : Bool) :
    (l.record side rest r).circuitSum side' = l.circuitSum side' := by
  have hpackage := ha.package
  have hdeliver := ha.deliver
  unfold FlowLink.circuitSum
  rcases Bool.eq_or_eq_not side' side with rfl | rfl
  · rw [record_edge, record_edge_not, record_inFlight, record_inFlight_not, hcells,
      dataCells_append,
      sendmeCells_append]
    linarith
  · rw [Bool.not_not, record_edge, record_edge_not, record_inFlight, record_inFlight_not, hcells,
      dataCells_append, sendmeCells_append]
    linarith

lemma FlowLink.streamSum_record {streamId : UInt16} {conn conn' conn₁ : EdgeConn}
    (ha : StreamAccount streamId conn taken r.sent conn')
    (hcells : l.inFlight (!side) = taken ++ rest) :
    (l.record side rest r).streamSum side streamId conn' conn₁ =
        l.streamSum side streamId conn conn₁ ∧
      (l.record side rest r).streamSum (!side) streamId conn₁ conn' =
        l.streamSum (!side) streamId conn₁ conn := by
  have hpackage := ha.package
  have hdeliver := ha.deliver
  unfold FlowLink.streamSum
  rw [Bool.not_not, record_inFlight, record_inFlight_not, hcells, streamDataCells_append,
    streamDataCells_append, sendmeCells_append, sendmeCells_append]
  constructor
  · linarith
  · linarith

lemma Accounts.isSome_iff {e : CircuitEdge} (ha : Accounts e taken r) (streamId : UInt16) :
    (r.edge.conns streamId).isSome ↔ (e.conns streamId).isSome := by
  cases hconn : e.conns streamId with
  | none => rw [ha.absent streamId hconn]
  | some conn =>
    obtain ⟨conn', hconn', -⟩ := ha.streams streamId conn hconn
    rw [hconn']
    simp

/-- **The accounts of a link stay balanced** when an edge does something. -/
lemma FlowLink.Balanced.record (h : l.Balanced circwindow streams)
    (ha : Accounts (l.edge side) taken r) (hrange : r.edge.InRange)
    (hcells : l.inFlight (!side) = taken ++ rest) :
    (l.record side rest r).Balanced circwindow streams := by
  refine ⟨?_, fun side' => ?_, fun side' streamId => ?_, fun side' cell hcell => ?_,
    fun side' => ?_, fun side' streamId conn₁ conn₂ hconn₁ hconn₂ => ?_⟩
  · unfold FlowLink.record
    dsimp only
    rw [h.closed, ha.killed]
    rfl
  · rcases Bool.eq_or_eq_not side' side with rfl | rfl
    · rw [record_edge]
      exact ha.isOpen (h.isOpen side') hrange
    · rw [record_edge_not]
      exact h.isOpen (!side)
  · rcases Bool.eq_or_eq_not side' side with rfl | rfl
    · rw [record_edge, ha.isSome_iff]
      exact h.streams side' streamId
    · rw [record_edge_not]
      exact h.streams (!side) streamId
  · rcases Bool.eq_or_eq_not side' side with rfl | rfl
    · rw [record_inFlight] at hcell
      rw [record_edge, ha.isSome_iff]
      rcases mem_append.mp hcell with hcell | hcell
      · exact h.cells side' cell hcell
      · rw [isSome_iff_exists]
        exact ha.sent cell hcell
    · rw [record_inFlight_not] at hcell
      rw [record_edge_not]
      refine h.cells (!side) cell ?_
      rw [hcells]
      exact mem_append_right taken hcell
  · rw [circuitSum_record ha hcells]
    exact h.circuit side'
  · rcases Bool.eq_or_eq_not side' side with rfl | rfl
    · rw [record_edge] at hconn₁
      rw [record_edge_not] at hconn₂
      obtain ⟨conn, hconn, haccount⟩ := ha.exists_before hconn₁
      rw [(streamSum_record haccount hcells).1]
      exact h.stream side' streamId conn conn₂ hconn hconn₂
    · rw [record_edge_not] at hconn₁
      rw [Bool.not_not, record_edge] at hconn₂
      obtain ⟨conn, hconn, haccount⟩ := ha.exists_before hconn₂
      rw [(streamSum_record haccount hcells).2]
      refine h.stream (!side) streamId conn₁ conn hconn₁ ?_
      rw [Bool.not_not]
      exact hconn

/-- **The windows are within their bounds** when no credit is lost. -/
lemma FlowLink.Balanced.circuit_le (h : l.Balanced circwindow streams) (side : Bool) :
    (l.edge side).packageWindow +
        circwindowIncrement * sendmeCells 0 (l.inFlight (!side)) ≤
      circuitInitialPackageWindow (circwindow side) := by
  have hsum := h.circuit side
  have hdata : 0 ≤ dataCells (l.inFlight side) := dataCells_nonneg
  have hdeliver := (h.isOpen (!side)).inRange.deliver_le
  have hmax : circwindowStart = circwindowStartMax := rfl
  unfold FlowLink.circuitSum at hsum
  omega

/-- The windows of a stream are within their bounds when no credit is lost. -/
lemma FlowLink.Balanced.stream_le (h : l.Balanced circwindow streams) {streamId : UInt16}
    {conn conn' : EdgeConn} (hconn : (l.edge side).conns streamId = some conn)
    (hconn' : (l.edge (!side)).conns streamId = some conn') :
    conn.packageWindow ≤ streamwindowStart ∧
      streamDataCells streamId (l.inFlight side) ≤ conn'.deliverWindow := by
  have hinc : 0 ≤ streamwindowIncrement := by decide
  have hsum := h.stream side streamId conn conn' hconn hconn'
  have hdata : 0 ≤ streamDataCells streamId (l.inFlight side) := streamDataCells_nonneg
  have hsendme : 0 ≤ sendmeCells streamId (l.inFlight (!side)) := sendmeCells_nonneg
  have hcredit := mul_nonneg hinc hsendme
  have hpackage := (h.isOpen side).package_nonneg streamId conn hconn
  have hdeliver := (h.isOpen (!side)).deliver_le streamId conn' hconn'
  unfold FlowLink.streamSum at hsum
  constructor
  · omega
  · omega

lemma circuitInitialPackageWindow_le (circwindow : Option ℤ) :
    circuitInitialPackageWindow circwindow ≤ circwindowStartMax :=
  (inRange_init circwindow).package_le

/-- **One step** keeps the accounts balanced. -/
lemma FlowLink.Balanced.step (h : l.Balanced circwindow streams) (event : Bool × FlowEvent) :
    (l.step event).Balanced circwindow streams := by
  obtain ⟨side, event⟩ := event
  have hopen := h.isOpen side
  cases event with
  | deliver =>
    dsimp only [FlowLink.step]
    cases hcells : l.inFlight (!side) with
    | nil => exact h
    | cons cell rest =>
      obtain ⟨hlength, hknown⟩ := h.cells (!side) cell (by rw [hcells]; exact mem_cons_self)
      rw [h.streams, ← h.streams side, isSome_iff_exists] at hknown
      refine h.record (receive_accounts hopen hlength hknown (fun hcommand hzero => ?_)
        fun conn hcommand hconn => ?_) (hopen.inRange.edgeStep _) hcells
      · have hle := h.circuit_le side
        have hmax := circuitInitialPackageWindow_le (circwindow side)
        have hinc : 0 ≤ circwindowIncrement := by decide
        have hone : 1 ≤ sendmeCells 0 (l.inFlight (!side)) := by
          have hrest : 0 ≤ sendmeCells 0 rest := sendmeCells_nonneg
          rw [hcells, ← singleton_append, sendmeCells_append]
          obtain ⟨command, streamId, length⟩ := cell
          dsimp only at hcommand hzero
          rw [hcommand, hzero, sendmeCells_sendme]
          omega
        have hmul := mul_le_mul_of_nonneg_left hone hinc
        omega
      · have hsome : ((l.edge (!side)).conns cell.streamId).isSome := by
          rw [h.streams, ← h.streams side, hconn]
          rfl
        obtain ⟨conn', hconn'⟩ := isSome_iff_exists.mp hsome
        have hback : (l.edge (!!side)).conns cell.streamId = some conn := by
          rw [Bool.not_not]
          exact hconn
        obtain ⟨-, hle⟩ := h.stream_le hconn' hback
        have hrest : 0 ≤ streamDataCells cell.streamId rest := streamDataCells_nonneg
        have hone : streamDataCells cell.streamId [cell] = 1 := by
          obtain ⟨command, streamId, length⟩ := cell
          dsimp only at hcommand
          rw [hcommand]
          exact (counts_data streamId length).2.1
        rw [hcells, ← singleton_append, streamDataCells_append, hone] at hle
        omega
  | read streamId n =>
    exact h.record (read_accounts hopen streamId n) (hopen.inRange.edgeStep _) rfl
  | package streamId packagePartial maxCells =>
    exact h.record (package_accounts hopen streamId packagePartial maxCells)
      (hopen.inRange.edgeStep _) rfl
  | flush streamId n =>
    exact h.record (flush_accounts hopen streamId n) (hopen.inRange.edgeStep _) rfl

lemma FlowLink.balanced_init (circwindow : Bool → Option ℤ) (streams : UInt16 → Bool) :
    (FlowLink.init circwindow streams).Balanced circwindow streams := by
  have hconns : ∀ side streamId conn,
      ((FlowLink.init circwindow streams).edge side).conns streamId = some conn →
      conn = EdgeConn.init .isOpen := by
    intro side streamId conn hconn
    unfold FlowLink.init at hconn
    dsimp only at hconn
    split_ifs at hconn
    exact (Option.some.inj hconn).symm
  refine ⟨rfl, fun side => ?_, fun side streamId => ?_, fun side cell hcell => ?_, fun side => ?_,
    fun side streamId conn conn' hconn hconn' => ?_⟩
  · have hrange := inRange_init (circwindow side)
    refine ⟨⟨hrange.package_nonneg, hrange.package_le, hrange.lt_deliver, hrange.deliver_le⟩, ?_,
      fun streamId conn hconn => ?_, fun streamId conn hconn => ?_, fun streamId conn hconn => ?_⟩
    · simp [FlowLink.init]
    · rw [hconns side streamId conn hconn]
      rfl
    · rw [hconns side streamId conn hconn]
      decide
    · rw [hconns side streamId conn hconn]
      decide
  · simp [FlowLink.init, isSome_ite]
  · exact absurd hcell not_mem_nil
  · simp [FlowLink.circuitSum, FlowLink.init, CircuitEdge.init]
  · rw [hconns side streamId conn hconn, hconns (!side) streamId conn' hconn']
    simp [FlowLink.streamSum, FlowLink.init, EdgeConn.init]

lemma FlowLink.Balanced.foldl (h : l.Balanced circwindow streams)
    (events : List (Bool × FlowEvent)) :
    (events.foldl FlowLink.step l).Balanced circwindow streams := by
  induction events generalizing l with
  | nil => exact h
  | cons event events ih => exact ih (h.step event)

end Balanced

/-- **Flow control between honest endpoints.**  In every run of a new circuit with open streams, no
credit is lost, for the circuit and for every stream; so no deliver window becomes negative, no
package window exceeds its start, and neither edge closes the circuit. -/
theorem flowLink_balanced (circwindow : Bool → Option ℤ) (streams : UInt16 → Bool)
    (events : List (Bool × FlowEvent)) :
    (events.foldl FlowLink.step (.init circwindow streams)).closed = false ∧
    ∀ side,
      (events.foldl FlowLink.step (.init circwindow streams)).circuitSum side =
        circuitInitialPackageWindow (circwindow side) ∧
      ((events.foldl FlowLink.step (.init circwindow streams)).edge side).packageWindow ≤
        circuitInitialPackageWindow (circwindow side) ∧
      0 ≤ ((events.foldl FlowLink.step (.init circwindow streams)).edge side).deliverWindow ∧
      ∀ streamId, streamId ≠ 0 → streams streamId → ∃ conn conn',
        ((events.foldl FlowLink.step (.init circwindow streams)).edge side).conns streamId =
          some conn ∧
        ((events.foldl FlowLink.step (.init circwindow streams)).edge (!side)).conns streamId =
          some conn' ∧
        (events.foldl FlowLink.step (.init circwindow streams)).streamSum side streamId conn conn' =
          streamwindowStart ∧
        conn.packageWindow ≤ streamwindowStart ∧ 0 ≤ conn.deliverWindow := by
  have h := (FlowLink.balanced_init circwindow streams).foldl events
  generalize events.foldl FlowLink.step (.init circwindow streams) = l at h
  refine ⟨h.closed, fun side => ⟨h.circuit side, ?_, ?_, fun streamId hzero hstream => ?_⟩⟩
  · have hle := h.circuit_le side
    have hinc : 0 ≤ circwindowIncrement := by decide
    have hsendme : 0 ≤ sendmeCells 0 (l.inFlight (!side)) := sendmeCells_nonneg
    have hcredit := mul_nonneg hinc hsendme
    omega
  · have hlt := (h.isOpen side).inRange.lt_deliver
    have hlow : 0 ≤ circwindowStart - circwindowIncrement := by decide
    omega
  · obtain ⟨conn, hconn⟩ := isSome_iff_exists.mp ((h.streams side streamId).mpr
      ⟨hzero, hstream⟩)
    obtain ⟨conn', hconn'⟩ := isSome_iff_exists.mp ((h.streams (!side) streamId).mpr
      ⟨hzero, hstream⟩)
    have hback : (l.edge (!!side)).conns streamId = some conn := by
      rw [Bool.not_not]
      exact hconn
    have hdata : 0 ≤ streamDataCells streamId (l.inFlight (!side)) := streamDataCells_nonneg
    have hle := (h.stream_le hconn' hback).2
    exact ⟨conn, conn', hconn, hconn', h.stream side streamId conn conn' hconn hconn',
      (h.stream_le hconn hconn').1, by omega⟩

end Astoria
