import Astoria.Library.ResendQueue
import Astoria.TorClient.FlowControl

/-!
# Optimistic data

A client may send data on a stream before the exit has said that it is connected.  What it has sent
so is kept, because the stream can be detached from its circuit and attached to another one, where
the data is sent again before anything new.

The data of a stream is in the inbuf, in what is kept and in what has still to be sent again.  On
the circuit on which the stream is opened it arrives as the application has sent it
(`optimisticData_inOrder`).
-/

namespace Astoria

open List Option

/-- The states of a stream (`AP_CONN_STATE_*`). -/
inductive ApConnState
  | circuitWait
  /-- It waits for the controller to attach it. -/
  | controllerWait
  /-- It has sent its BEGIN cell. -/
  | connectWait
  | isOpen
  deriving DecidableEq

structure StreamCircuit where
  /-- How many cells may be packaged for the hop. -/
  layerWindow : ℤ
  /-- The payloads of the DATA cells that were sent for the stream. -/
  sent : List (List UInt8)
  deriving DecidableEq

/-- A stream of an application (`entry_connection_t`). -/
structure EntryConn where
  state : ApConnState
  inbuf : List UInt8
  /-- What was sent before the stream was open. -/
  pendingOptimisticData : Option (List UInt8)
  /-- What of it has still to be sent on the present circuit. -/
  sendingOptimisticData : Option (List UInt8)
  /-- How many cells may be packaged for the stream. -/
  packageWindow : ℤ
  onCircuit : Option StreamCircuit
  markedForClose : Bool
  deriving DecidableEq

/-- A new stream. -/
def EntryConn.init : EntryConn := ⟨.circuitWait, [], none, none, 0, none, false⟩

/-- The bytes to be packaged next, and whether they are sent again. -/
def EntryConn.bytesToProcess (conn : EntryConn) : Bool × List UInt8 :=
  match conn.sendingOptimisticData with
  | none | some [] => (false, conn.inbuf)
  | some bytes => (true, bytes)

/-- Take the payload of a cell from the bytes to be packaged. -/
def EntryConn.takePayload (conn : EntryConn) (sendingOptimistically : Bool) (length : ℕ) :
    EntryConn :=
  let (sendingFromOptimistic, bytes) := conn.bytesToProcess
  if sendingFromOptimistic then
    { conn with
      sendingOptimisticData := if bytes.drop length = [] then none else some (bytes.drop length) }
  else
    { conn with
      inbuf := bytes.drop length
      pendingOptimisticData :=
        if sendingOptimistically then some (conn.pendingOptimisticData.getD [] ++ bytes.take length)
        else conn.pendingOptimisticData }

/-- The circuit of a stream is marked for close, and the stream with it
(`connection_edge_destroy`). -/
def connectionEdgeDestroy (conn : EntryConn) : EntryConn :=
  { conn with onCircuit := none, markedForClose := true }

/-- Package what a stream has to send on its circuit, `n` cells at most.  It is given in which cell
sending fails, if in any; then the circuit is marked for close. -/
def packageCells (packagePartial sendingOptimistically : Bool) :
    ℕ → Option ℤ → Option ℕ → StreamCircuit → EntryConn → EntryConn
  | 0, _, _, circ, conn => { conn with onCircuit := some circ }
  | n + 1, maxCells, failing, circ, conn =>
    let bytes := conn.bytesToProcess.2
    if circ.layerWindow ≤ 0 ∨ conn.packageWindow ≤ 0 ∨ bytes.length = 0 ∨
        (packagePartial = false ∧ bytes.length < relayPayloadSize) then
      { conn with onCircuit := some circ }
    else
      let length := if relayPayloadSize < bytes.length then relayPayloadSize else bytes.length
      let conn := conn.takePayload sendingOptimistically length
      if failing = some 0 then connectionEdgeDestroy conn
      else
        let circ := ⟨circ.layerWindow - 1, circ.sent ++ [bytes.take length]⟩
        let conn := { conn with packageWindow := conn.packageWindow - 1 }
        let maxCells := maxCells.map (· - 1)
        if conn.packageWindow ≤ 0 ∨ maxCells.any (· ≤ 0) then { conn with onCircuit := some circ }
        else packageCells packagePartial sendingOptimistically n maxCells
          (failing.map (· - 1)) circ conn

/-- How many bytes a stream has to send. -/
def EntryConn.waiting (conn : EntryConn) : ℕ :=
  (conn.sendingOptimisticData.getD []).length + conn.inbuf.length

/-- Package what a stream has to send (`connection_edge_package_raw_inbuf`).  A stream without a
circuit is closed.  Every cell takes a byte at least, see `packageCells_of_waiting_le`. -/
def entryPackageRawInbuf (conn : EntryConn) (packagePartial : Bool) (maxCells : Option ℤ)
    (failing : Option ℕ) :
    Option EntryConn :=
  if conn.markedForClose then some conn
  else if maxCells.any (· ≤ 0) then some conn
  else
    conn.onCircuit.map fun circ =>
      packageCells packagePartial (decide (conn.state ≠ .isOpen)) conn.waiting maxCells failing
        circ conn

/-- Detach a stream that is not open from its circuit, so that it can be attached to another one
(`connection_ap_detach_retriable`). -/
def connectionApDetachRetriable (conn : EntryConn) (leaveUnattached : Bool) : EntryConn :=
  { conn with
    sendingOptimisticData :=
      match conn.pendingOptimisticData with
      | none => conn.sendingOptimisticData
      | some pending => some pending
    state := if leaveUnattached then .controllerWait else .circuitWait
    onCircuit := none }

/-- What happens to a stream. -/
inductive EntryEvent
  /-- Bytes of the application arrive. -/
  | read (bytes : List UInt8)
  /-- It is attached to a circuit, and its BEGIN cell is sent
  (`connection_ap_handshake_send_begin`). -/
  | sendBegin (layerWindow : ℤ)
  | packageRawInbuf (packagePartial : Bool) (maxCells : Option ℤ) (failing : Option ℕ)
  /-- SENDME cells arrive. -/
  | sendme (layer stream : ℕ)
  | detachRetriable (leaveUnattached : Bool)
  /-- The CONNECTED cell arrives. -/
  | connected
  /-- Its circuit is marked for close. -/
  | circuitMarked

/-- What an event does, in a state in which it can happen. -/
def entryStep (conn : EntryConn) : EntryEvent → Option EntryConn
  | .read bytes =>
    if conn.markedForClose then none else some { conn with inbuf := conn.inbuf ++ bytes }
  | .sendBegin layerWindow =>
    if conn.state = .isOpen ∨ conn.onCircuit.isSome ∨ conn.markedForClose then none
    else
      some { conn with
        state := .connectWait, packageWindow := streamwindowStart,
          onCircuit := some ⟨layerWindow, []⟩ }
  | .packageRawInbuf packagePartial maxCells failing =>
    entryPackageRawInbuf conn packagePartial maxCells failing
  | .sendme layer stream =>
    conn.onCircuit.map fun circ =>
      { conn with
        packageWindow := conn.packageWindow + stream
        onCircuit := some { circ with layerWindow := circ.layerWindow + layer } }
  | .detachRetriable leaveUnattached =>
    if conn.state = .isOpen ∨ conn.onCircuit.isNone then none
    else some (connectionApDetachRetriable conn leaveUnattached)
  | .connected =>
    if conn.state = .connectWait ∧ conn.onCircuit.isSome then
      some { conn with state := .isOpen, pendingOptimisticData := none }
    else none
  | .circuitMarked => if conn.onCircuit.isSome then some (connectionEdgeDestroy conn) else none

/-- The bytes of the application in some events. -/
def applicationBytes (events : List EntryEvent) : List UInt8 :=
  events.flatMap fun
    | .read bytes => bytes
    | _ => []

/-! ### The queue of a stream -/

/-- The payloads that were sent on the present circuit. -/
def EntryConn.sent (conn : EntryConn) : List UInt8 :=
  (conn.onCircuit.map fun circ => circ.sent.flatten).getD []

/-- A stream as a queue that can send again. -/
def EntryConn.queue (conn : EntryConn) (retained : List UInt8) : Resend.Queue UInt8 :=
  ⟨conn.inbuf, retained, conn.sendingOptimisticData.getD [], conn.sent⟩

open EntryConn (bytesToProcess init queue sent)

/-- The bytes of the application are all there, and those that were sent are kept as long as the
stream may be detached. -/
def EntryConn.Keeps (conn : EntryConn) (input : List UInt8) : Prop :=
  ∃ retained, Resend.Consistent input (conn.queue retained) ∧
    (conn.state ≠ .isOpen → conn.pendingOptimisticData.getD [] = retained)

/-- A stream that is not closed keeps the bytes of the application, one that is closed has no
circuit. -/
def EntryConn.Inv (conn : EntryConn) (input : List UInt8) : Prop :=
  if conn.markedForClose then conn.onCircuit = none else conn.Keeps input

variable {conn : EntryConn} {input : List UInt8}

lemma EntryConn.Keeps.inv (h : conn.Keeps input)
    (hopen : conn.markedForClose = false) : conn.Inv input := by
  rw [EntryConn.Inv, if_neg (by rw [hopen]; exact Bool.false_ne_true)]
  exact h

lemma EntryConn.Inv.keeps (h : conn.Inv input)
    (hopen : conn.markedForClose = false) : conn.Keeps input := by
  rw [EntryConn.Inv, if_neg (by rw [hopen]; exact Bool.false_ne_true)] at h
  exact h

lemma EntryConn.inv_init : init.Inv [] := ⟨[], .empty, fun _ => rfl⟩

/-- **Taking a payload** moves it to what was sent. -/
lemma EntryConn.Keeps.takePayload {circ : StreamCircuit}
    (h : { conn with onCircuit := some circ : EntryConn }.Keeps input) (window : ℤ) (length : ℕ) :
    { conn.takePayload (decide (conn.state ≠ .isOpen)) length with
      onCircuit := some ⟨window, circ.sent ++ [conn.bytesToProcess.2.take length]⟩ :
          EntryConn }.Keeps input := by
  obtain ⟨state, inbuf, pending, sending, packageWindow, onCircuit, marked⟩ := conn
  obtain ⟨retained, hqueue, hpending⟩ := h
  have hsent (payload : List UInt8) :
      (circ.sent ++ [payload]).flatten = circ.sent.flatten ++ payload := by
    rw [flatten_append, flatten_singleton]
  by_cases hsending : sending.getD [] = []
  · have hbytes :
        bytesToProcess ⟨state, inbuf, pending, sending, packageWindow, onCircuit, marked⟩ =
          (false, inbuf) := by
      cases sending with
      | none => rfl
      | some bytes =>
        obtain rfl : bytes = [] := hsending
        rfl
    have hnew := hqueue.sendFresh hsending length
    refine ⟨retained ++ inbuf.take length, ?_, fun hstate => ?_⟩
    · rw [EntryConn.takePayload, hbytes]
      convert hnew using 1
      simp only [queue, sent, map_some, getD_some, hsent, hsending,
        Bool.false_eq_true, if_false]
    · rw [EntryConn.takePayload, hbytes] at hstate ⊢
      have hold : pending.getD [] = retained := hpending hstate
      simp only [Bool.false_eq_true, if_false] at hstate ⊢
      rw [decide_eq_true hstate, if_pos rfl, getD_some, hold]
  · obtain ⟨bytes, rfl, hne⟩ : ∃ bytes, sending = some bytes ∧ bytes ≠ [] := by
      cases sending with
      | none => exact absurd rfl hsending
      | some bytes => exact ⟨bytes, rfl, hsending⟩
    have hbytes :
        bytesToProcess ⟨state, inbuf, pending, some bytes, packageWindow, onCircuit, marked⟩ =
          (true, bytes) := by
      cases bytes with
      | nil => exact absurd rfl hne
      | cons b bytes => rfl
    have hrest : (if bytes.drop length = [] then none else some (bytes.drop length)).getD [] =
        bytes.drop length := by
      split
      · next hnil => exact hnil.symm
      · rfl
    have hnew := hqueue.sendAgain length
    refine ⟨retained, ?_, fun hstate => ?_⟩
    · rw [EntryConn.takePayload, hbytes]
      convert hnew using 1
      simp only [queue, sent, map_some, getD_some, hsent, if_true, hrest]
    · rw [EntryConn.takePayload, hbytes] at hstate ⊢
      exact hpending hstate

/-! ### Packaging -/

lemma EntryConn.takePayload_frame (conn : EntryConn) (optimistic : Bool) (length : ℕ) :
    (conn.takePayload optimistic length).state = conn.state ∧
      (conn.takePayload optimistic length).markedForClose = conn.markedForClose := by
  rw [EntryConn.takePayload]
  dsimp only
  split <;> exact ⟨rfl, rfl⟩

/-- **Packaging keeps the bytes of the application**, for every number of cells and every
failure. -/
lemma packageCells_inv (packagePartial : Bool) (n : ℕ) (maxCells : Option ℤ)
    (failing : Option ℕ) (circ : StreamCircuit) (conn : EntryConn)
    (hopen : conn.markedForClose = false)
    (h : { conn with onCircuit := some circ : EntryConn }.Keeps input) :
    (packageCells packagePartial (decide (conn.state ≠ .isOpen)) n maxCells failing circ conn).Inv
      input := by
  induction n generalizing maxCells failing circ conn with
  | zero => exact h.inv hopen
  | succ n ih =>
    rw [packageCells]
    dsimp only
    generalize (if relayPayloadSize < conn.bytesToProcess.2.length then relayPayloadSize
      else conn.bytesToProcess.2.length) = length
    have htake := h.takePayload (circ.layerWindow - 1) length
    obtain ⟨hstate, hmarked⟩ := conn.takePayload_frame (decide (conn.state ≠ .isOpen)) length
    generalize hnew : conn.takePayload (decide (conn.state ≠ .isOpen)) length =
      new at htake hstate hmarked ⊢
    rw [hopen] at hmarked
    split
    · exact h.inv hopen
    · split
      · rfl
      · -- the cell was sent
        split
        · exact EntryConn.Keeps.inv htake hmarked
        · rw [← hstate]
          exact ih _ _ _ { new with packageWindow := new.packageWindow - 1 } hmarked htake

/-! ### Runs -/

lemma EntryConn.Inv.open_of_circuit (h : conn.Inv input)
    (hcirc : conn.onCircuit ≠ none) : conn.markedForClose = false := by
  by_contra hmarked
  rw [EntryConn.Inv, if_pos (by simpa using hmarked)] at h
  exact hcirc h

/-- **Detaching** makes the stream send again all that it has sent. -/
lemma EntryConn.Keeps.detach (h : conn.Keeps input)
    (hstate : conn.state ≠ .isOpen) (leaveUnattached : Bool) :
    (connectionApDetachRetriable conn leaveUnattached).Keeps input := by
  obtain ⟨retained, hqueue, hpending⟩ := h
  have hretained := hpending hstate
  refine ⟨retained, ?_, fun _ => hretained⟩
  have hsending : (match conn.pendingOptimisticData with
      | none => conn.sendingOptimisticData
      | some pending => some pending).getD [] = retained := by
    cases hdata : conn.pendingOptimisticData with
    | none =>
      rw [hdata] at hretained
      obtain rfl : [] = retained := hretained
      exact (append_eq_nil_iff.mp hqueue.again).2
    | some pending =>
      rw [hdata] at hretained
      exact hretained
  convert hqueue.restart using 1
  rw [queue, queue]
  exact congrArg (fun resend => Resend.Queue.mk conn.inbuf retained resend []) hsending

/-- **Every event keeps the bytes of the application.** -/
lemma entryStep_inv {conn' : EntryConn} {event : EntryEvent} (h : conn.Inv input)
    (hstep : entryStep conn event = some conn') :
    conn'.Inv (input ++ applicationBytes [event]) := by
  have hnone : input ++ [] = input := append_nil input
  cases event with
  | read bytes =>
    have happ : applicationBytes [.read bytes] = bytes := append_nil bytes
    rw [happ]
    rw [entryStep] at hstep
    split at hstep
    · cases hstep
    · next hopen =>
      obtain rfl := Option.some.inj hstep
      rw [Bool.not_eq_true] at hopen
      obtain ⟨retained, hqueue, hpending⟩ := h.keeps hopen
      exact EntryConn.Keeps.inv ⟨retained, hqueue.arrive bytes, hpending⟩ hopen
  | sendBegin layerWindow =>
    refine hnone.symm ▸ ?_
    rw [entryStep] at hstep
    split at hstep
    · cases hstep
    · next hcan =>
      obtain rfl := Option.some.inj hstep
      rw [not_or, not_or, not_isSome_iff_eq_none, Bool.not_eq_true] at hcan
      obtain ⟨hstate, hcirc, hopen⟩ := hcan
      obtain ⟨retained, hqueue, hpending⟩ := h.keeps hopen
      refine EntryConn.Keeps.inv ⟨retained, ?_, fun _ => hpending hstate⟩ hopen
      rw [queue, sent, hcirc] at hqueue
      exact hqueue
  | packageRawInbuf packagePartial maxCells failing =>
    refine hnone.symm ▸ ?_
    rw [entryStep, entryPackageRawInbuf] at hstep
    split at hstep
    · obtain rfl := Option.some.inj hstep
      exact h
    · next hopen =>
      rw [Bool.not_eq_true] at hopen
      split at hstep
      · obtain rfl := Option.some.inj hstep
        exact h
      · obtain ⟨circ, hcirc, rfl⟩ := map_eq_some_iff.mp hstep
        refine packageCells_inv packagePartial _ _ _ _ _ hopen ?_
        rw [← hcirc]
        exact h.keeps hopen
  | sendme layer stream =>
    refine hnone.symm ▸ ?_
    rw [entryStep] at hstep
    obtain ⟨circ, hcirc, rfl⟩ := map_eq_some_iff.mp hstep
    have hopen := h.open_of_circuit (by rw [hcirc]; exact some_ne_none circ)
    obtain ⟨retained, hqueue, hpending⟩ := h.keeps hopen
    refine EntryConn.Keeps.inv ⟨retained, ?_, hpending⟩ hopen
    rw [queue, sent, hcirc] at hqueue
    exact hqueue
  | detachRetriable leaveUnattached =>
    refine hnone.symm ▸ ?_
    rw [entryStep] at hstep
    split at hstep
    · cases hstep
    · next hcan =>
      obtain rfl := Option.some.inj hstep
      rw [not_or, isNone_iff_eq_none] at hcan
      have hopen := h.open_of_circuit hcan.2
      exact ((h.keeps hopen).detach hcan.1 leaveUnattached).inv hopen
  | connected =>
    refine hnone.symm ▸ ?_
    rw [entryStep] at hstep
    split at hstep
    · next hcan =>
      obtain rfl := Option.some.inj hstep
      have hopen := h.open_of_circuit (isSome_iff_ne_none.mp hcan.2)
      obtain ⟨retained, hqueue, -⟩ := h.keeps hopen
      exact EntryConn.Keeps.inv ⟨retained, hqueue, fun hstate => absurd rfl hstate⟩ hopen
    · cases hstep
  | circuitMarked =>
    rw [entryStep] at hstep
    split at hstep
    · obtain rfl := Option.some.inj hstep
      rfl
    · cases hstep

/-- Every run keeps the bytes of the application. -/
lemma entryRun_inv {conn' : EntryConn} {events : List EntryEvent} (h : conn.Inv input)
    (hrun : events.foldlM entryStep conn = some conn') :
    conn'.Inv (input ++ applicationBytes events) := by
  induction events generalizing conn input with
  | nil =>
    obtain rfl := Option.some.inj hrun
    rw [applicationBytes, flatMap_nil, append_nil]
    exact h
  | cons event events ih =>
    obtain ⟨conn₁, hstep, hrun⟩ := bind_eq_some_iff.mp hrun
    have hinv := ih (entryStep_inv h hstep) hrun
    rw [append_assoc, applicationBytes, applicationBytes, ← flatMap_append] at hinv
    exact hinv

/-- **Optimistic data survives retries.**  In every run, the payloads of the cells that were sent on
the circuit to which a stream is attached, what is still to be sent again and the inbuf are together
what the application has sent.  So it is on the circuit on which the stream is opened. -/
theorem optimisticData_inOrder {events : List EntryEvent} {conn : EntryConn} {circ : StreamCircuit}
    (hrun : events.foldlM entryStep EntryConn.init = some conn)
    (hcirc : conn.onCircuit = some circ) : circ.sent.flatten ++ conn.sendingOptimisticData.getD
      [] ++ conn.inbuf = applicationBytes events := by
  have hinv := entryRun_inv EntryConn.inv_init hrun
  have hopen := hinv.open_of_circuit (by rw [hcirc]; exact some_ne_none circ)
  obtain ⟨retained, hqueue, -⟩ := hinv.keeps hopen
  have hreceived := hqueue.received
  rw [EntryConn.queue, EntryConn.sent, hcirc] at hreceived
  exact hreceived

/-- A stream that is detached when it has sent a part of its bytes again. -/
def retriedEvents : List EntryEvent :=
  [.read (replicate 600 1), .sendBegin 1000, .packageRawInbuf true none none,
    .detachRetriable false,
    .sendBegin 1000, .packageRawInbuf true (some 1) none, .read [2], .detachRetriable false,
    .sendBegin 1000, .packageRawInbuf true (some 1) none, .connected,
    .packageRawInbuf true none none]

/-- On its third circuit, the stream has sent all of its bytes. -/
theorem optimisticData_inOrder_retried :
    ∃ conn circ, retriedEvents.foldlM entryStep EntryConn.init = some conn ∧
    conn.onCircuit = some circ ∧
      circ.sent.flatten ++ conn.sendingOptimisticData.getD [] ++ conn.inbuf =
        replicate 600 1 ++ [2] := by
  have hrun : retriedEvents.foldlM entryStep EntryConn.init =
      some ⟨.isOpen, [], none, none, 497,
        some ⟨997, [replicate 498 1, replicate 102 1, [2]]⟩, false⟩ := by decide +kernel
  exact ⟨_, _, hrun, rfl, optimisticData_inOrder hrun rfl⟩

end Astoria
