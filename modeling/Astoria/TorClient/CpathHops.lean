import Mathlib.Algebra.Order.Group.Int
import Astoria.Library.Frontier
import Astoria.Library.Runs
import Astoria.TorClient.RelayCrypto

/-!
# The hops of an origin circuit

A client builds its circuits one hop at a time.  A hop is closed until its onion skin is sent, then
it waits for the keys, and with them it is open.  The replies come from relays that may send them
unasked or twice.

The circular list of the hops is a list here, with the first hop at its head.  What cryptography
yields and which cells can be sent is given with the events.  A failed assertion is `none`.
-/

namespace Astoria

open List Option

variable {η : Type}

/-! ### The state -/

/-- A hop of a circuit (`crypt_path_t`). -/
structure CryptPath (η : Type) where
  state : CpathState
  /-- The address of the relay is an IPv4 address. -/
  isIpv4 : Bool
  handshakeState : Option η
  /-- A Diffie-Hellman handshake with a hidden service is under way. -/
  rendDhHandshakeState : Bool
  fDigest : Option (List UInt8)
  bDigest : Option (List UInt8)
  fCrypto : Option (List UInt8)
  bCrypto : Option (List UInt8)

/-- A new hop to a relay. -/
def CryptPath.new (isIpv4 : Bool) : CryptPath η :=
  ⟨.closed, isIpv4, none, false, none, none, none, none⟩

/-- A hop has no ciphers and no digests. -/
def CryptPath.Bare (hop : CryptPath η) : Prop :=
  hop.fCrypto = none ∧ hop.bCrypto = none ∧ hop.fDigest = none ∧ hop.bDigest = none

/-- The purposes of a circuit (`CIRCUIT_PURPOSE_*`) that matter for its hops. -/
inductive OriginPurpose
  | general
  | establishRend
  | rendReady
  | rendReadyIntroAcked
  | rendJoined
  | serviceConnectRend
  | serviceRendJoined
  | measureTimeout
  | pathBiasTesting
  | other
  deriving DecidableEq

/-- The states of a circuit (`CIRCUIT_STATE_*`). -/
inductive OriginState
  | building
  | chanWait
  | isOpen
  deriving DecidableEq

/-- A circuit of a client (`origin_circuit_t`). -/
structure OriginCircuit (η : Type) where
  cpath : List (CryptPath η)
  state : OriginState
  purpose : OriginPurpose
  /-- It has an identifier on its channel, so that cells find it. -/
  hasCircId : Bool
  /-- The hop to a hidden service that answers at the rendezvous point. -/
  pendingFinalCpath : Option (CryptPath η)
  markedForClose : Bool

/-- A new circuit (`origin_circuit_new`). -/
def OriginCircuit.new (purpose : OriginPurpose) : OriginCircuit η :=
  ⟨[], .chanWait, purpose, false, none, false⟩

/-! ### The assertions -/

/-- Whether a hop is well formed (`assert_cpath_layer_ok`). -/
def assertCpathLayerOk (cp : CryptPath η) : Bool :=
  match cp.state with
  | .isOpen => cp.fCrypto.isSome && cp.bCrypto.isSome && !cp.rendDhHandshakeState
  | .closed => !cp.rendDhHandshakeState
  | .awaitingKeys => true

/-- Whether the hops behind `prev` are well formed and in sequence. -/
def assertCpathRest (prev : CryptPath η) : List (CryptPath η) → Bool
  | [] => true
  | cp :: rest =>
    assertCpathLayerOk cp &&
      (match cp.state with
        | .awaitingKeys => decide (prev.state = .isOpen)
        | .isOpen => decide (prev.state = .isOpen)
        | .closed => true) &&
      assertCpathRest cp rest

/-- Whether the hops are well formed and in the sequence "open* awaiting? closed*"
(`assert_cpath_ok`). -/
def assertCpathOk : List (CryptPath η) → Bool
  | [] => true
  | start :: rest => assertCpathLayerOk start && assertCpathRest start rest

/-! ### The steps -/

/-- The reasons to close a circuit (`END_CIRC_REASON_*`). -/
def endCircReasonTorprotocol : ℤ := 1

@[inherit_doc endCircReasonTorprotocol]
def endCircReasonInternal : ℤ := 2

@[inherit_doc endCircReasonTorprotocol]
def endCircReasonResourcelimit : ℤ := 5

/-- Add a hop at the end (`onion_append_to_cpath`). -/
def onionAppendToCpath (cpath : List (CryptPath η)) (newHop : CryptPath η) : List (CryptPath η) :=
  cpath ++ [newHop]

/-- The first hop that is not open, with the hops before and behind it
(`onion_next_hop_in_cpath`). -/
def onionNextHopInCpath :
    List (CryptPath η) → Option (List (CryptPath η) × CryptPath η × List (CryptPath η))
  | [] => none
  | hop :: rest =>
    if hop.state ≠ .isOpen then some ([], hop, rest)
    else (onionNextHopInCpath rest).map fun (before, next, after) => (hop :: before, next, after)

def lastHopOpen (cpath : List (CryptPath η)) : Bool :=
  cpath.getLast?.any (fun hop => hop.state = .isOpen)

/-- Mark a circuit for close (`circuit_mark_for_close`).  A circuit that was used in vain is first
tested with a probe over its last hop, if that is open; whether the probe is sent for the rest is
given. -/
def originMarkForClose (probing : Bool) (circ : OriginCircuit η) : OriginCircuit η :=
  if circ.markedForClose then circ
  else if probing && lastHopOpen circ.cpath && decide (circ.purpose ≠ .pathBiasTesting) then
    { circ with purpose := .pathBiasTesting }
  else { circ with hasCircId := false, markedForClose := true }

/-- What happens while an onion skin is made and sent. -/
structure SkinOutcome (η : Type) where
  /-- What `onion_skin_create` yields. -/
  skin : Option η
  /-- The CREATE cell is delivered. -/
  delivered : Bool
  /-- The EXTEND cell can be formatted. -/
  formatted : Bool
  /-- The EXTEND cell is sent. -/
  sent : Bool
  /-- A circuit that is closed is tested first. -/
  probing : Bool

/-- Send the next onion skin, or find that the circuit is built (`circuit_send_next_onion_skin`). -/
def circuitSendNextOnionSkin (o : SkinOutcome η) (circ : OriginCircuit η) :
    Option (ℤ × OriginCircuit η) :=
  match circ.cpath with
  | [] => none
  | first :: rest =>
    if first.state = .closed then
      match o.skin with
      | none => some (-endCircReasonInternal, circ)
      | some skin =>
        let first := { first with handshakeState := some skin }
        if o.delivered then
          some (0, { circ with
            cpath := { first with state := .awaitingKeys } :: rest, state := .building,
              hasCircId := true })
        else some (-endCircReasonResourcelimit, { circ with cpath := first :: rest })
    else if first.state ≠ .isOpen then none
    else if circ.state ≠ .building then none
    else
      match onionNextHopInCpath circ.cpath with
      | none =>
        let circ := { circ with state := .isOpen }
        some (0, if circ.purpose = .measureTimeout then originMarkForClose o.probing circ else circ)
      | some (before, hop, after) =>
        if hop.isIpv4 = false then some (-endCircReasonInternal, circ)
        else
          match o.skin with
          | none => some (-endCircReasonInternal, circ)
          | some skin =>
            let hop := { hop with handshakeState := some skin }
            let circ := { circ with cpath := before ++ hop :: after }
            if o.formatted = false then some (-endCircReasonInternal, circ)
            else if o.sent = false then some (0, originMarkForClose o.probing circ)
            else some
              (0, { circ with cpath := before ++ { hop with state := .awaitingKeys } :: after })

/-- Set up the ciphers and digests of a hop (`circuit_init_cpath_crypto`).  Whether each cipher can
be made is given. -/
def circuitInitCpathCrypto (forwardMade backwardMade reverse : Bool) (keyData : List UInt8)
    (cpath : CryptPath η) : Option (ℤ × CryptPath η) :=
  if cpath.fCrypto.isSome || cpath.bCrypto.isSome || cpath.fDigest.isSome ||
    cpath.bDigest.isSome then none
  else
    let cpath :=
      { cpath with fDigest := some (keyData.take 20), bDigest := some ((keyData.drop 20).take 20) }
    if forwardMade = false then some (-1, cpath)
    else
      let cpath := { cpath with fCrypto := some ((keyData.drop 40).take 16) }
      if backwardMade = false then some (-1, cpath)
      else
        let cpath := { cpath with bCrypto := some ((keyData.drop 56).take 16) }
        if reverse then
          some (0, { cpath with
            fDigest := cpath.bDigest, bDigest := cpath.fDigest, fCrypto := cpath.bCrypto,
              bCrypto := cpath.fCrypto })
        else some (0, cpath)

/-- What happens when a reply is processed. -/
structure ReplyOutcome (η : Type) where
  /-- What `pathbias_count_build_attempt` yields. -/
  buildAttempt : ℤ
  /-- The keys that the handshake yields, if it succeeds. -/
  clientHandshake : Option η → Option (List UInt8)
  forwardMade : Bool
  backwardMade : Bool

/-- Process a reply (`circuit_finish_handshake`). -/
def circuitFinishHandshake (o : ReplyOutcome η) (circ : OriginCircuit η) :
    Option (ℤ × OriginCircuit η) :=
  if o.buildAttempt < 0 then some (o.buildAttempt, circ)
  else
    match circ.cpath with
    | [] => none
    | first :: rest =>
      match if first.state = .awaitingKeys then some ([], first, rest)
          else onionNextHopInCpath circ.cpath with
      | none => some (-endCircReasonTorprotocol, circ)
      | some (before, hop, after) =>
        if hop.state ≠ .awaitingKeys then none
        else
          match o.clientHandshake hop.handshakeState with
          | none => some (-endCircReasonTorprotocol, circ)
          | some keys =>
            (circuitInitCpathCrypto o.forwardMade o.backwardMade false keys
                { hop with handshakeState := none }).map fun (r, hop) =>
              if r < 0 then
                (-endCircReasonTorprotocol, { circ with cpath := before ++ hop :: after })
              else (0, { circ with cpath := before ++ { hop with state := .isOpen } :: after })

/-! ### What happens to a circuit -/

/-- Close a circuit if a step has failed. -/
def closeOnError (probing : Bool) (r : ℤ × OriginCircuit η) : OriginCircuit η :=
  if r.1 < 0 then originMarkForClose probing r.2 else r.2

/-- Process a reply and go on with the next hop, as for a CREATED cell
(`command_process_created_cell`) and for an EXTENDED one (`connection_edge_process_relay_cell`). -/
def processReply (parsed probing : Bool) (reply : ReplyOutcome η) (skin : SkinOutcome η)
    (circ : OriginCircuit η) : Option (OriginCircuit η) :=
  if parsed = false then some (originMarkForClose probing circ)
  else
    (circuitFinishHandshake reply circ).bind fun (r, circ) =>
      if r < 0 then some (originMarkForClose probing circ)
      else (circuitSendNextOnionSkin skin circ).map (closeOnError probing)

def appendNewExits (nodes : List Bool) (cpath : List (CryptPath η)) : List (CryptPath η) :=
  nodes.foldl (fun cpath isIpv4 => onionAppendToCpath cpath (.new isIpv4)) cpath

/-- A relay cell is recognized at a hop only if it and all hops before it are open
(`relay_crypt`). -/
def recognizedAt (layer : ℕ) (cpath : List (CryptPath η)) : Bool :=
  decide (layer < cpath.length) && (cpath.take (layer + 1)).all (fun hop => hop.state = .isOpen)

/-- What happens to a circuit.  Relay cells are given with the hop at which they are recognized. -/
inductive OriginEvent (η : Type)
  /-- It gets its channel and sends its first onion skin (`circuit_n_chan_done`,
  `circuit_handle_first_hop`). -/
  | channelDone (connected probing : Bool) (skin : SkinOutcome η)
  /-- CREATED, CREATED2 and CREATED_FAST cells. -/
  | created (parsed probing : Bool) (reply : ReplyOutcome η) (skin : SkinOutcome η)
  /-- EXTENDED and EXTENDED2 cells. -/
  | extended (layer : ℕ) (parsed probing : Bool) (reply : ReplyOutcome η) (skin : SkinOutcome η)
  /-- The path is chosen, or the controller adds to it (`handle_control_extendcircuit`). -/
  | extendCircuit (nodes : List Bool) (probing : Bool) (skin : SkinOutcome η)
  /-- An open circuit is used for another exit or introduction point
  (`circuit_extend_to_new_exit`). -/
  | extendToNewExit (isIpv4 probing : Bool) (skin : SkinOutcome η)
  /-- It gets another purpose. -/
  | changePurpose (purpose : OriginPurpose)
  /-- The rendezvous point has answered (`rend_client_rendezvous_acked`). -/
  | rendezvousAcked
  /-- An introduction is sent, which begins the handshake with the hidden service. -/
  | sendIntroduction
  /-- It is acknowledged. -/
  | introductionAcked
  /-- The RENDEZVOUS2 cell of a hidden service (`rend_client_receive_rendezvous`). -/
  | rendezvous2 (layer : ℕ) (secret : Option (List UInt8))
    (digestOk forwardMade backwardMade probing : Bool)
  /-- A hidden service has built its circuit to the rendezvous point
  (`rend_service_rendezvous_has_opened`). -/
  | serviceRendezvous (keys : Option (List UInt8)) (sent probing : Bool)
  /-- It is marked for close for any other reason. -/
  | mark (probing : Bool)

/-- The purposes that a circuit is given from outside. -/
def OriginPurpose.isPlain : OriginPurpose → Bool
  | .general | .establishRend | .serviceConnectRend | .measureTimeout | .other => true
  | _ => false

/-- Join the circuit of a client with that of a hidden service. -/
def rendClientReceiveRendezvous (secret : Option (List UInt8))
    (digestOk forwardMade backwardMade probing : Bool) (circ : OriginCircuit η) :
    Option (OriginCircuit η) :=
  match circ.pendingFinalCpath with
  | none => some (originMarkForClose probing circ)
  | some hop =>
    if circ.purpose ≠ .rendReady ∧ circ.purpose ≠ .rendReadyIntroAcked then
      some (originMarkForClose probing circ)
    else
      match secret with
      | none => some (originMarkForClose probing circ)
      | some keys =>
        (circuitInitCpathCrypto forwardMade backwardMade false (keys.drop 20) hop).map
            fun (r, hop) =>
          if r < 0 ∨ digestOk = false then
            originMarkForClose probing { circ with pendingFinalCpath := some hop }
          else
            { circ with
              purpose := .rendJoined
              cpath := onionAppendToCpath circ.cpath
                { hop with rendDhHandshakeState := false, state := .isOpen }
              pendingFinalCpath := none }

/-- Join the circuit of a hidden service with that of a client.  The keys are those with which the
hop was made when the introduction came. -/
def rendServiceRendezvousHasOpened (keys : Option (List UInt8)) (sent probing : Bool)
    (circ : OriginCircuit η) : Option (OriginCircuit η) :=
  match keys with
  | none => some (originMarkForClose probing circ)
  | some keys =>
    (circuitInitCpathCrypto true true true keys
      { CryptPath.new true with rendDhHandshakeState := true }).map
      fun (_, hop) =>
        if sent = false then originMarkForClose probing circ
        else
          { circ with
            purpose := .serviceRendJoined
            cpath := onionAppendToCpath circ.cpath
              { hop with rendDhHandshakeState := false, state := .isOpen } }

/-- What an event does to a circuit that is not marked for close.  Cells that do not find it are
dropped, and so are those recognized while it is tested. -/
def originStepUnmarked (circ : OriginCircuit η) : OriginEvent η → Option (OriginCircuit η)
  | .channelDone connected probing skin =>
    if circ.state = .chanWait ∧ circ.cpath ≠ [] then
      if connected then (circuitSendNextOnionSkin skin circ).map (closeOnError probing)
      else some (originMarkForClose probing circ)
    else some circ
  | .created parsed probing reply skin =>
    if circ.hasCircId then processReply parsed probing reply skin circ else some circ
  | .extended layer parsed probing reply skin =>
    if circ.hasCircId ∧ recognizedAt layer circ.cpath ∧ circ.purpose ≠ .pathBiasTesting then
      processReply parsed probing reply skin circ
    else some circ
  | .extendCircuit nodes probing skin =>
    if nodes = [] then some circ
    else
      let opened := circ.state = .isOpen
      let circ := { circ with cpath := appendNewExits nodes circ.cpath }
      if opened then
        (circuitSendNextOnionSkin skin { circ with state := .building }).map (closeOnError probing)
      else some circ
  | .extendToNewExit isIpv4 probing skin =>
    if circ.state = .isOpen ∨
      (circ.hasCircId ∧ recognizedAt (circ.cpath.length - 1) circ.cpath) then
      (circuitSendNextOnionSkin skin
        { circ with
          cpath := onionAppendToCpath circ.cpath (.new isIpv4), state := .building }).map
            (closeOnError probing)
    else some circ
  | .changePurpose purpose =>
    if circ.purpose ≠ .pathBiasTesting ∧ purpose.isPlain then some { circ with purpose := purpose }
      else some circ
  | .rendezvousAcked =>
    if circ.purpose = .establishRend then some { circ with purpose := .rendReady } else some circ
  | .sendIntroduction =>
    if circ.purpose = .rendReady ∧ circ.pendingFinalCpath = none then
      some { circ with
        pendingFinalCpath := some { CryptPath.new true with rendDhHandshakeState := true } }
    else some circ
  | .introductionAcked =>
    if circ.purpose = .rendReady then some { circ with purpose := .rendReadyIntroAcked }
      else some circ
  | .rendezvous2 layer secret digestOk forwardMade backwardMade probing =>
    if circ.hasCircId ∧ recognizedAt layer circ.cpath ∧ circ.purpose ≠ .pathBiasTesting ∧
        layer + 1 = circ.cpath.length then
      rendClientReceiveRendezvous secret digestOk forwardMade backwardMade probing circ
    else some circ
  | .serviceRendezvous keys sent probing =>
    if circ.state = .isOpen ∧ circ.purpose = .serviceConnectRend then
      rendServiceRendezvousHasOpened keys sent probing circ
    else some circ
  | .mark probing => some (originMarkForClose probing circ)

/-- What an event does.  Nothing happens any more to a circuit that is marked for close. -/
def originStep (circ : OriginCircuit η) (event : OriginEvent η) : Option (OriginCircuit η) :=
  if circ.markedForClose then some circ else originStepUnmarked circ event

/-! ### Hops -/

/-- A hop that is open. -/
def CryptPath.Ready (hop : CryptPath η) : Prop :=
  hop.state = .isOpen ∧ hop.fCrypto.isSome ∧ hop.bCrypto.isSome ∧ hop.rendDhHandshakeState = false

/-- A hop that waits for the keys. -/
def CryptPath.Waiting (hop : CryptPath η) : Prop :=
  hop.state = .awaitingKeys ∧ hop.Bare ∧ hop.rendDhHandshakeState = false

/-- A hop to which no onion skin was sent. -/
def CryptPath.Untouched (hop : CryptPath η) : Prop :=
  hop.state = .closed ∧ hop.Bare ∧ hop.rendDhHandshakeState = false

lemma CryptPath.untouched_new (isIpv4 : Bool) : (CryptPath.new isIpv4 : CryptPath η).Untouched :=
  ⟨rfl, ⟨rfl, rfl, rfl, rfl⟩, rfl⟩

variable {hop : CryptPath η} {cpath : List (CryptPath η)} {circ : OriginCircuit η}
  {hasCircId : Bool}

lemma lastHopOpen_append {before after : List (CryptPath η)} (hhop : hop.state ≠ .isOpen)
    (hafter : ∀ a ∈ after, a.Untouched) : lastHopOpen (before ++ hop :: after) = false := by
  have hlast : (before ++ hop :: after).getLast? =
      some ((hop :: after).getLast (cons_ne_nil hop after)) := by
    rw [getLast?_append, getLast?_eq_some_getLast (cons_ne_nil hop after), some_or]
  have hmem := getLast_mem (cons_ne_nil hop after)
  rw [lastHopOpen, hlast, any_some, decide_eq_false_iff_not]
  rcases mem_cons.mp hmem with heq | hmem
  · rw [heq]
    exact hhop
  · rw [(hafter _ hmem).1]
    exact nofun

lemma onionNextHopInCpath_append {before after : List (CryptPath η)}
    (hbefore : ∀ b ∈ before, b.Ready) (hhop : hop.state ≠ .isOpen) :
    onionNextHopInCpath (before ++ hop :: after) = some (before, hop, after) := by
  induction before with
  | nil => exact if_pos hhop
  | cons b before ih =>
    obtain ⟨hb, hbefore⟩ := forall_mem_cons.mp hbefore
    rw [cons_append, onionNextHopInCpath, if_neg (not_not_intro hb.1), ih hbefore]
    rfl

lemma onionNextHopInCpath_eq_none (h : ∀ hop ∈ cpath, hop.Ready) :
    onionNextHopInCpath cpath = none := by
  induction cpath with
  | nil => rfl
  | cons hop cpath ih =>
    obtain ⟨hhop, hcpath⟩ := forall_mem_cons.mp h
    rw [onionNextHopInCpath, if_neg (not_not_intro hhop.1), ih hcpath]
    rfl

/-- **Setting up the ciphers of a hop that has none.**  The assertion holds, and if all succeeds,
the hop has both ciphers. -/
lemma exists_circuitInitCpathCrypto (hbare : hop.Bare) (forwardMade backwardMade reverse : Bool)
    (keys : List UInt8) :
    ∃ r hop', circuitInitCpathCrypto forwardMade backwardMade reverse keys hop = some (r, hop') ∧
      hop'.state = hop.state ∧ hop'.rendDhHandshakeState = hop.rendDhHandshakeState ∧
      (¬r < 0 → hop'.fCrypto.isSome ∧ hop'.bCrypto.isSome) ∧
      (forwardMade = true → backwardMade = true → r = 0) := by
  obtain ⟨hf, hb, hfd, hbd⟩ := hbare
  rw [circuitInitCpathCrypto, hf, hb, hfd, hbd]
  simp only [isSome_none, Bool.or_self, Bool.false_eq_true, if_false]
  by_cases hforward : forwardMade = false
  · rw [if_pos hforward]
    refine ⟨_, _, rfl, rfl, rfl, fun hr => absurd (by decide) hr, fun htrue => ?_⟩
    rw [hforward] at htrue
    cases htrue
  · rw [if_neg hforward]
    by_cases hbackward : backwardMade = false
    · rw [if_pos hbackward]
      refine ⟨_, _, rfl, rfl, rfl, fun hr => absurd (by decide) hr, fun _ htrue => ?_⟩
      rw [hbackward] at htrue
      cases htrue
    · rw [if_neg hbackward]
      cases reverse
      · exact ⟨_, _, rfl, rfl, rfl, fun _ => ⟨rfl, rfl⟩, fun _ _ => rfl⟩
      · exact ⟨_, _, rfl, rfl, rfl, fun _ => ⟨rfl, rfl⟩, fun _ _ => rfl⟩

/-! ### The invariant -/

/-- The hops of a circuit in a state: before its first onion skin all are closed, while it is built
one waits for its keys, and then all are open. -/
def HopsOk (cpath : List (CryptPath η)) (hasCircId : Bool) : OriginState → Prop
  | .chanWait => hasCircId = false ∧ ∀ hop ∈ cpath, hop.Untouched
  | .building =>
    ∃ before hop after, cpath = before ++ hop :: after ∧ (∀ b ∈ before, b.Ready) ∧ hop.Waiting ∧
      ∀ a ∈ after, a.Untouched
  | .isOpen => cpath ≠ [] ∧ ∀ hop ∈ cpath, hop.Ready

/-- A circuit that is not marked for close, between two events. -/
structure OriginCircuit.Ok (circ : OriginCircuit η) : Prop where
  hops : HopsOk circ.cpath circ.hasCircId circ.state
  pending : circ.purpose ≠ .pathBiasTesting → ∀ hop ∈ circ.pendingFinalCpath, hop.Bare

/-- A circuit between two events. -/
def OriginCircuit.Inv (circ : OriginCircuit η) : Prop := circ.markedForClose = false → circ.Ok

/-- A circuit that is about to send an onion skin, or to find that it is built. -/
structure OriginCircuit.SendReady (circ : OriginCircuit η) : Prop where
  hops :
    (circ.state = .chanWait ∧ circ.cpath ≠ [] ∧ ∀ hop ∈ circ.cpath, hop.Untouched) ∨
      (circ.state = .building ∧ ∃ before after, circ.cpath = before ++ after ∧ before ≠ [] ∧
        (∀ b ∈ before, b.Ready) ∧ ∀ a ∈ after, a.Untouched)
  pending : circ.purpose ≠ .pathBiasTesting → ∀ hop ∈ circ.pendingFinalCpath, hop.Bare

/-- Marking a circuit, if its hops are as they should be or its last hop is not open. -/
lemma originMarkForClose_inv (probing : Bool)
    (h : lastHopOpen circ.cpath = true → HopsOk circ.cpath circ.hasCircId circ.state) :
    (originMarkForClose probing circ).Inv := by
  rw [originMarkForClose]
  split
  · next hmarked =>
    intro hunmarked
    rw [hmarked] at hunmarked
    cases hunmarked
  · split
    · next hprobe =>
      rw [Bool.and_eq_true, Bool.and_eq_true] at hprobe
      exact fun _ => ⟨h hprobe.1.2, fun hne => absurd rfl hne⟩
    · exact nofun

lemma OriginCircuit.Ok.mark (h : circ.Ok) (probing : Bool) :
    (originMarkForClose probing circ).Inv :=
  originMarkForClose_inv probing fun _ => h.hops

lemma originMarkForClose_of_unopened (probing : Bool) (h : lastHopOpen circ.cpath = false) :
    (originMarkForClose probing circ).Inv := by
  refine originMarkForClose_inv probing fun hopen => ?_
  rw [h] at hopen
  cases hopen

/-! ### What the functions keep -/

lemma closeOnError_inv {r : ℤ} (probing : Bool)
    (herror : r < 0 → lastHopOpen circ.cpath = false) (hok : ¬r < 0 → circ.Inv) :
    (closeOnError probing (r, circ)).Inv := by
  rw [closeOnError]
  split
  · next hr => exact originMarkForClose_of_unopened probing (herror hr)
  · next hr => exact hok hr

/-- **Sending the next onion skin**, whatever fails.  No assertion fails, and a circuit that is not
closed is as it should be. -/
lemma exists_circuitSendNextOnionSkin (h : circ.SendReady) (o : SkinOutcome η) (probing : Bool) :
    ∃ circ', (circuitSendNextOnionSkin o circ).map (closeOnError probing) = some circ' ∧
    circ'.Inv := by
  obtain ⟨cpath, state, purpose, hasCircId, pending, marked⟩ := circ
  obtain ⟨⟨rfl, hne, hclosed⟩ | ⟨rfl, before, after, rfl, hne, hbefore, hafter⟩, hpending⟩ := h
  · -- the first onion skin
    obtain ⟨first, rest, rfl⟩ : ∃ first rest, cpath = first :: rest := exists_cons_of_ne_nil hne
    obtain ⟨hfirst, hrest⟩ := forall_mem_cons.mp hclosed
    have hunopened (first' : CryptPath η) (hstate : first'.state = .closed) :
        lastHopOpen (first' :: rest) = false := by
      have hne : first'.state ≠ .isOpen := by
        rw [hstate]
        exact nofun
      exact @lastHopOpen_append _ first' [] rest hne hrest
    rw [circuitSendNextOnionSkin]
    dsimp only
    rw [if_pos hfirst.1]
    cases o.skin with
    | none =>
      exact ⟨_, rfl,
        closeOnError_inv probing (fun _ => hunopened first hfirst.1) (absurd (by decide))⟩
    | some skin =>
      dsimp only
      split
      · refine ⟨_, rfl, closeOnError_inv probing (absurd · (by decide)) fun _ _ => ⟨?_, hpending⟩⟩
        exact ⟨[], _, rest, rfl, forall_mem_nil _, ⟨rfl, hfirst.2⟩, hrest⟩
      · exact ⟨_, rfl,
          closeOnError_inv probing (fun _ => hunopened _ hfirst.1) (absurd (by decide))⟩
  · obtain ⟨first, before', hcons⟩ : ∃ first before', before = first :: before' :=
      exists_cons_of_ne_nil hne
    have hfirst : first.state = .isOpen := (hbefore first (hcons ▸ mem_cons_self)).1
    have hcpath : before ++ after = first :: (before' ++ after) := by rw [hcons, cons_append]
    rw [circuitSendNextOnionSkin]
    simp only [hcpath, hfirst, reduceCtorEq, if_false, ne_eq, not_true_eq_false]
    rw [← hcpath]
    match after, hafter with
    | [], _ =>
      -- the circuit is built
      rw [append_nil, onionNextHopInCpath_eq_none hbefore]
      refine ⟨_, rfl, closeOnError_inv probing (absurd · (by decide)) fun _ => ?_⟩
      have hhops : HopsOk before hasCircId .isOpen := ⟨hne, hbefore⟩
      split
      · exact originMarkForClose_inv o.probing fun _ => hhops
      · exact fun _ => ⟨hhops, hpending⟩
    | hop :: after, hafter =>
      obtain ⟨hhop, hafter⟩ := forall_mem_cons.mp hafter
      have hunopened (hop' : CryptPath η) (hstate : hop'.state = .closed) :
          lastHopOpen (before ++ hop' :: after) = false := by
        refine lastHopOpen_append ?_ hafter
        rw [hstate]
        exact nofun
      rw [onionNextHopInCpath_append hbefore (by rw [hhop.1]; exact nofun)]
      dsimp only
      split
      · exact ⟨_, rfl,
          closeOnError_inv probing (fun _ => hunopened hop hhop.1) (absurd (by decide))⟩
      · cases o.skin with
        | none =>
          exact ⟨_, rfl,
            closeOnError_inv probing (fun _ => hunopened hop hhop.1) (absurd (by decide))⟩
        | some skin =>
          dsimp only
          split
          · exact ⟨_, rfl,
              closeOnError_inv probing (fun _ => hunopened _ hhop.1) (absurd (by decide))⟩
          · split
            · exact ⟨_, rfl, closeOnError_inv probing (absurd · (by decide)) fun _ =>
                originMarkForClose_of_unopened o.probing (hunopened _ hhop.1)⟩
            · refine ⟨_, rfl, closeOnError_inv probing (absurd · (by decide)) fun _ _ =>
                ⟨?_, hpending⟩⟩
              exact ⟨before, _, after, rfl, hbefore, ⟨rfl, hhop.2⟩, hafter⟩

/-- **Processing a reply**, whatever the relays send.  No assertion fails; if the reply is wrong,
the circuit can be closed, and otherwise the next onion skin can be sent. -/
lemma exists_circuitFinishHandshake (h : circ.Ok) (hid : circ.hasCircId = true)
    (o : ReplyOutcome η) :
    ∃ r circ', circuitFinishHandshake o circ = some (r, circ') ∧
      (r < 0 → ∀ probing, (originMarkForClose probing circ').Inv) ∧ (¬r < 0 → circ'.SendReady) := by
  obtain ⟨cpath, state, purpose, hasCircId, pending, marked⟩ := circ
  rw [circuitFinishHandshake]
  by_cases hattempt : o.buildAttempt < 0
  · rw [if_pos hattempt]
    exact ⟨_, _, rfl, fun _ probing => h.mark probing, absurd hattempt⟩
  · rw [if_neg hattempt]
    have hhops := h.hops
    match state with
    | .chanWait =>
      obtain rfl : hasCircId = true := hid
      cases hhops.1
    | .isOpen =>
      -- a reply when the circuit is already built
      obtain ⟨hne, hready⟩ := hhops
      obtain ⟨first, rest, rfl⟩ : ∃ first rest, cpath = first :: rest := exists_cons_of_ne_nil hne
      have hfirst := (hready first mem_cons_self).1
      simp only [hfirst, reduceCtorEq, if_false, onionNextHopInCpath_eq_none hready]
      exact ⟨_, _, rfl, fun _ probing => h.mark probing, absurd (by decide)⟩
    | .building =>
      obtain ⟨before, hop, after, hcpath, hbefore, hhop, hafter⟩ := hhops
      obtain rfl : cpath = before ++ hop :: after := hcpath
      have hnext : ∃ first rest, before ++ hop :: after = first :: rest ∧
          (if first.state = .awaitingKeys then some ([], first, rest)
            else onionNextHopInCpath (before ++ hop :: after)) = some (before, hop, after) := by
        cases before with
        | nil => exact ⟨hop, after, rfl, if_pos hhop.1⟩
        | cons b before =>
          refine ⟨b, before ++ hop :: after, rfl, ?_⟩
          rw [if_neg (by rw [(hbefore b mem_cons_self).1]; exact nofun)]
          exact onionNextHopInCpath_append hbefore (by rw [hhop.1]; exact nofun)
      obtain ⟨first, rest, hcons, hnext⟩ := hnext
      rw [hcons] at hnext
      simp only [hcons, hnext]
      rw [if_neg (not_not_intro hhop.1)]
      have hunopened (hop' : CryptPath η) (hstate : hop'.state = .awaitingKeys) :
          lastHopOpen (before ++ hop' :: after) = false := by
        refine lastHopOpen_append ?_ hafter
        rw [hstate]
        exact nofun
      cases o.clientHandshake hop.handshakeState with
      | none =>
        refine ⟨_, _, rfl, fun _ probing => originMarkForClose_of_unopened probing ?_,
          absurd (by decide)⟩
        exact hcons ▸ hunopened hop hhop.1
      | some keys =>
        obtain ⟨r, hop', hinit, hstate, hrend, hcrypto, -⟩ :=
          exists_circuitInitCpathCrypto
            (show CryptPath.Bare { hop with handshakeState := none } from hhop.2.1) o.forwardMade
              o.backwardMade false keys
        dsimp only
        rw [hinit, map_some]
        dsimp only
        split
        · exact ⟨_, _, rfl, fun _ probing => originMarkForClose_of_unopened probing
            (hunopened hop' (hstate.trans hhop.1)), absurd (by decide)⟩
        · next hr =>
          refine ⟨_, _, rfl, fun hneg => absurd hneg (by decide), fun _ =>
            ⟨.inr ⟨rfl, ?_⟩, h.pending⟩⟩
          obtain ⟨hf, hb⟩ := hcrypto hr
          refine ⟨before ++ [{ hop' with state := .isOpen }], after, ?_, by simp, ?_, hafter⟩
          · rw [append_assoc]
            rfl
          · refine forall_mem_append.mpr ⟨hbefore, forall_mem_singleton.mpr ?_⟩
            exact ⟨rfl, hf, hb, hrend.trans hhop.2.2⟩

/-! ### What the events keep -/

/-- A reply keeps the hops as they should be. -/
lemma exists_processReply (h : circ.Ok) (hid : circ.hasCircId = true)
    (parsed probing : Bool) (reply : ReplyOutcome η) (skin : SkinOutcome η) :
    ∃ circ', processReply parsed probing reply skin circ = some circ' ∧ circ'.Inv := by
  rw [processReply]
  split
  · exact ⟨_, rfl, h.mark probing⟩
  · obtain ⟨r, circ', hfinish, herror, hready⟩ := exists_circuitFinishHandshake h hid reply
    rw [hfinish, bind_some]
    dsimp only
    split
    · next hr => exact ⟨_, rfl, herror hr probing⟩
    · next hr => exact exists_circuitSendNextOnionSkin (hready hr) skin probing

/-- New hops behind hops that are as they should be. -/
lemma appendNewExits_eq (nodes : List Bool) (cpath : List (CryptPath η)) :
    ∃ added, appendNewExits nodes cpath = cpath ++ added ∧ (∀ a ∈ added, a.Untouched) := by
  induction nodes generalizing cpath with
  | nil => exact ⟨[], (append_nil cpath).symm, forall_mem_nil _⟩
  | cons isIpv4 nodes ih =>
    obtain ⟨added, hadded, huntouched⟩ := ih (onionAppendToCpath cpath (.new isIpv4))
    refine ⟨.new isIpv4 :: added, ?_,
      forall_mem_cons.mpr ⟨CryptPath.untouched_new isIpv4, huntouched⟩⟩
    rw [appendNewExits, foldl_cons]
    exact hadded.trans (append_assoc cpath [.new isIpv4] added)

/-- Hops that are closed can be added to a circuit that is not open. -/
lemma HopsOk.append {added : List (CryptPath η)} {state : OriginState}
    (h : HopsOk cpath hasCircId state) (hstate : state ≠ .isOpen)
    (hadded : ∀ a ∈ added, a.Untouched) : HopsOk (cpath ++ added) hasCircId state := by
  match state with
  | .chanWait => exact ⟨h.1, forall_mem_append.mpr ⟨h.2, hadded⟩⟩
  | .building =>
    obtain ⟨before, hop, after, rfl, hbefore, hhop, hafter⟩ := h
    refine ⟨before, hop, after ++ added, ?_, hbefore, hhop, forall_mem_append.mpr ⟨hafter, hadded⟩⟩
    rw [append_assoc, cons_append]
  | .isOpen => exact absurd rfl hstate

/-- **An open circuit can be extended.** -/
lemma OriginCircuit.Ok.extend (h : circ.Ok) (hopen : circ.state = .isOpen)
    {added : List (CryptPath η)} (hadded : ∀ a ∈ added, a.Untouched) :
    { circ with cpath := circ.cpath ++ added, state := .building : OriginCircuit η }.SendReady := by
  have hhops := h.hops
  rw [hopen] at hhops
  exact ⟨.inr ⟨rfl, circ.cpath, added, rfl, hhops.1, hhops.2, hadded⟩, h.pending⟩

/-- A circuit on whose last hop cells are recognized is open. -/
lemma OriginCircuit.Ok.open_of_recognizedAt (h : circ.Ok)
    (hid : circ.hasCircId = true) {layer : ℕ} (hlast : circ.cpath.length ≤ layer + 1)
    (hrecognized : recognizedAt layer circ.cpath = true) : circ.state = .isOpen := by
  obtain ⟨cpath, state, purpose, hasCircId, pending, marked⟩ := circ
  rw [recognizedAt, Bool.and_eq_true, take_of_length_le hlast, List.all_eq_true] at hrecognized
  obtain ⟨-, hall⟩ := hrecognized
  match state, h.hops with
  | .isOpen, _ => rfl
  | .chanWait, hhops =>
    obtain rfl : hasCircId = true := hid
    cases hhops.1
  | .building, ⟨before, hop, after, hcpath, hbefore, hhop, hafter⟩ =>
    have hopen := hall hop (by
      rw [show cpath = before ++ hop :: after from hcpath]
      exact mem_append_right before mem_cons_self)
    rw [decide_eq_true_iff, hhop.1] at hopen
    cases hopen

lemma HopsOk.append_ready (h : HopsOk cpath hasCircId .isOpen) (hhop : hop.Ready) :
    HopsOk (onionAppendToCpath cpath hop) hasCircId .isOpen :=
  ⟨append_ne_nil_of_left_ne_nil h.1 [hop],
    forall_mem_append.mpr ⟨h.2, forall_mem_singleton.mpr hhop⟩⟩

/-- **Joining the circuit with that of a hidden service** keeps the hops as they should be. -/
lemma exists_rendClientReceiveRendezvous (h : circ.Ok) (hopen : circ.state = .isOpen)
    (secret : Option (List UInt8)) (digestOk forwardMade backwardMade probing : Bool) :
    ∃ circ', rendClientReceiveRendezvous secret digestOk forwardMade backwardMade probing circ =
      some circ' ∧
      circ'.Inv := by
  have hhops := h.hops
  rw [hopen] at hhops
  rw [rendClientReceiveRendezvous]
  cases hpending : circ.pendingFinalCpath with
  | none => exact ⟨_, rfl, h.mark probing⟩
  | some hop =>
    dsimp only
    split
    · exact ⟨_, rfl, h.mark probing⟩
    · next hpurpose =>
      have hbare : hop.Bare := by
        refine h.pending (fun htesting => hpurpose ?_) hop hpending
        rw [htesting]
        exact ⟨nofun, nofun⟩
      cases secret with
      | none => exact ⟨_, rfl, h.mark probing⟩
      | some keys =>
        obtain ⟨r, hop', hinit, -, -, hcrypto, -⟩ :=
          exists_circuitInitCpathCrypto hbare forwardMade backwardMade false (keys.drop 20)
        dsimp only
        rw [hinit, map_some]
        dsimp only
        split
        · exact ⟨_, rfl, originMarkForClose_inv probing fun _ => h.hops⟩
        · next hgood =>
          obtain ⟨hf, hb⟩ := hcrypto fun hr => hgood (.inl hr)
          refine ⟨_, rfl, fun _ => ⟨?_, fun _ hop hmem => by cases hmem⟩⟩
          dsimp only
          rw [hopen]
          exact hhops.append_ready ⟨rfl, hf, hb, rfl⟩

/-- **Joining the circuit of a hidden service** keeps the hops as they should be. -/
lemma exists_rendServiceRendezvousHasOpened (h : circ.Ok) (hopen : circ.state = .isOpen)
    (hpurpose : circ.purpose = .serviceConnectRend) (keys : Option (List UInt8))
    (sent probing : Bool) : ∃ circ', rendServiceRendezvousHasOpened keys sent probing circ =
      some circ' ∧ circ'.Inv := by
  have hhops := h.hops
  rw [hopen] at hhops
  cases keys with
  | none => exact ⟨_, rfl, h.mark probing⟩
  | some keys =>
    rw [rendServiceRendezvousHasOpened]
    have hbare :
        CryptPath.Bare { (CryptPath.new true : CryptPath η) with rendDhHandshakeState := true } :=
      ⟨rfl, rfl, rfl, rfl⟩
    obtain ⟨r, hop', hinit, -, -, hcrypto, hr⟩ :=
      exists_circuitInitCpathCrypto hbare true true true keys
    obtain rfl := hr rfl rfl
    obtain ⟨hf, hb⟩ := hcrypto (by decide)
    dsimp only
    rw [hinit, map_some]
    dsimp only
    split
    · exact ⟨_, rfl, h.mark probing⟩
    · refine ⟨_, rfl, fun _ => ⟨?_, fun _ => h.pending (by rw [hpurpose]; exact nofun)⟩⟩
      dsimp only
      rw [hopen]
      exact hhops.append_ready ⟨rfl, hf, hb, rfl⟩

/-- **Every event keeps the hops as they should be**, and no assertion fails. -/
lemma exists_originStepUnmarked (h : circ.Ok) (event : OriginEvent η) :
    ∃ circ', originStepUnmarked circ event = some circ' ∧ circ'.Inv := by
  have hsame : ∃ circ', some circ = some circ' ∧ circ'.Inv := ⟨circ, rfl, fun _ => h⟩
  cases event with
  | channelDone connected probing skin =>
    rw [originStepUnmarked]
    split
    · next hwait =>
      split
      · have hhops := h.hops
        rw [hwait.1] at hhops
        exact exists_circuitSendNextOnionSkin ⟨.inl ⟨hwait.1, hwait.2, hhops.2⟩, h.pending⟩ skin
          probing
      · exact ⟨_, rfl, h.mark probing⟩
    · exact hsame
  | created parsed probing reply skin =>
    rw [originStepUnmarked]
    split
    · next hid => exact exists_processReply h hid parsed probing reply skin
    · exact hsame
  | extended layer parsed probing reply skin =>
    rw [originStepUnmarked]
    split
    · next hfound => exact exists_processReply h hfound.1 parsed probing reply skin
    · exact hsame
  | extendCircuit nodes probing skin =>
    obtain ⟨added, hadded, huntouched⟩ := appendNewExits_eq nodes circ.cpath
    rw [originStepUnmarked]
    split
    · exact hsame
    · dsimp only
      rw [hadded]
      split
      · next hopen => exact exists_circuitSendNextOnionSkin (h.extend hopen huntouched) skin probing
      · next hopen => exact ⟨_, rfl, fun _ => ⟨h.hops.append hopen huntouched, h.pending⟩⟩
  | extendToNewExit isIpv4 probing skin =>
    rw [originStepUnmarked]
    split
    · next hcan =>
      have hopen : circ.state = .isOpen := by
        rcases hcan with hopen | ⟨hid, hrecognized⟩
        · exact hopen
        · exact h.open_of_recognizedAt hid (by omega) hrecognized
      exact exists_circuitSendNextOnionSkin
        (h.extend hopen (forall_mem_singleton.mpr (CryptPath.untouched_new isIpv4))) skin probing
    · exact hsame
  | changePurpose purpose =>
    rw [originStepUnmarked]
    split
    · next hcan => exact ⟨_, rfl, fun _ => ⟨h.hops, fun _ => h.pending hcan.1⟩⟩
    · exact hsame
  | rendezvousAcked =>
    rw [originStepUnmarked]
    split
    · next hpurpose =>
        exact ⟨_, rfl, fun _ => ⟨h.hops, fun _ => h.pending (by rw [hpurpose]; exact nofun)⟩⟩
    · exact hsame
  | sendIntroduction =>
    rw [originStepUnmarked]
    split
    · refine ⟨_, rfl, fun _ => ⟨h.hops, fun _ hop hmem => ?_⟩⟩
      obtain rfl := Option.some.inj hmem
      exact ⟨rfl, rfl, rfl, rfl⟩
    · exact hsame
  | introductionAcked =>
    rw [originStepUnmarked]
    split
    · next hpurpose =>
        exact ⟨_, rfl, fun _ => ⟨h.hops, fun _ => h.pending (by rw [hpurpose]; exact nofun)⟩⟩
    · exact hsame
  | rendezvous2 layer secret digestOk forwardMade backwardMade probing =>
    rw [originStepUnmarked]
    split
    · next hfound =>
      obtain ⟨hid, hrecognized, -, hlast⟩ := hfound
      exact exists_rendClientReceiveRendezvous h (h.open_of_recognizedAt hid hlast.ge hrecognized)
        secret digestOk forwardMade backwardMade probing
    · exact hsame
  | serviceRendezvous keys sent probing =>
    rw [originStepUnmarked]
    split
    · next hcan => exact exists_rendServiceRendezvousHasOpened h hcan.1 hcan.2 keys sent probing
    · exact hsame
  | mark probing => exact ⟨_, rfl, h.mark probing⟩

lemma exists_originRun (h : circ.Inv) (events : List (OriginEvent η)) :
    ∃ circ', events.foldlM originStep circ = some circ' ∧ circ'.Inv := by
  refine Runs.exists_foldlM (P := fun _ (circ : OriginCircuit η) => circ.Inv)
    (fun event _ circ hinv => ?_) h
  rw [originStep]
  split
  · exact ⟨circ, rfl, hinv⟩
  · next hunmarked =>
      exact exists_originStepUnmarked (hinv (Bool.eq_false_of_not_eq_true hunmarked)) event

/-! ### The assertions hold -/

/-- **The assertion is what it is meant to be**: the hops are well formed and in the sequence
"open* awaiting? closed*". -/
theorem assertCpathOk_iff (cpath : List (CryptPath η)) :
    assertCpathOk cpath = true ↔
      (∀ hop ∈ cpath, assertCpathLayerOk hop = true) ∧
        Frontier (fun hop => hop.state = .isOpen) (fun hop => hop.state = .closed) cpath := by
  rw [frontier_iff_isChain fun hop hclosed => by rw [hclosed]; exact nofun]
  have hrest (prev : CryptPath η) (cpath : List (CryptPath η)) : assertCpathRest prev cpath = true ↔
      (∀ hop ∈ cpath, assertCpathLayerOk hop = true) ∧
        List.IsChain (fun a b => a.state = .isOpen ∨ b.state = .closed) (prev :: cpath) := by
    induction cpath generalizing prev with
    | nil => exact iff_of_true rfl ⟨forall_mem_nil _, isChain_singleton prev⟩
    | cons hop cpath ih =>
      rw [assertCpathRest, Bool.and_eq_true, Bool.and_eq_true, ih, forall_mem_cons,
        isChain_cons_cons]
      have hsequence : (match hop.state with
          | .awaitingKeys => decide (prev.state = .isOpen)
          | .isOpen => decide (prev.state = .isOpen)
          | .closed => true) = true ↔ prev.state = .isOpen ∨ hop.state = .closed := by
        cases hop.state <;> simp
      rw [hsequence]
      tauto
  cases cpath with
  | nil => exact iff_of_true rfl ⟨forall_mem_nil _, .nil⟩
  | cons start rest =>
    rw [assertCpathOk, Bool.and_eq_true, hrest, forall_mem_cons, and_assoc]

/-- The hops of a circuit between two events. -/
lemma HopsOk.assertions {state : OriginState} (h : HopsOk cpath hasCircId state) :
    ((∀ hop ∈ cpath, assertCpathLayerOk hop = true) ∧
      Frontier (fun hop => hop.state = .isOpen) (fun hop => hop.state = .closed) cpath) ∧
        ∀ hop ∈ cpath, hop.state ≠ .isOpen → hop.Bare := by
  have hready (hop : CryptPath η) (hop_ready : hop.Ready) : assertCpathLayerOk hop = true := by
    obtain ⟨hstate, hf, hb, hrend⟩ := hop_ready
    rw [assertCpathLayerOk, hstate]
    dsimp only
    rw [hf, hb, hrend]
    rfl
  have huntouched (hop : CryptPath η) (hop_untouched : hop.Untouched) :
      assertCpathLayerOk hop = true := by
    rw [assertCpathLayerOk, hop_untouched.1]
    dsimp only
    rw [hop_untouched.2.2]
    rfl
  match state with
  | .chanWait =>
    exact ⟨⟨fun hop hmem => huntouched hop (h.2 hop hmem), .of_idle fun hop hmem =>
      (h.2 hop hmem).1⟩,
      fun hop hmem _ => (h.2 hop hmem).2.1⟩
  | .isOpen =>
    exact ⟨⟨fun hop hmem => hready hop (h.2 hop hmem), .of_done fun hop hmem => (h.2 hop hmem).1⟩,
      fun hop hmem hne => absurd (h.2 hop hmem).1 hne⟩
  | .building =>
    obtain ⟨before, hop, after, rfl, hbefore, hhop, hafter⟩ := h
    have hwaiting : assertCpathLayerOk hop = true := by rw [assertCpathLayerOk, hhop.1]
    refine ⟨⟨?_, before, [hop], after, ?_, fun b hb => (hbefore b hb).1, le_refl 1,
      fun a ha => (hafter a ha).1⟩, ?_⟩
    · exact forall_mem_append.mpr ⟨fun b hb => hready b (hbefore b hb),
        forall_mem_cons.mpr ⟨hwaiting, fun a ha => huntouched a (hafter a ha)⟩⟩
    · rw [append_assoc, singleton_append]
    · exact forall_mem_append.mpr ⟨fun b hb hne => absurd (hbefore b hb).1 hne,
        forall_mem_cons.mpr ⟨fun _ => hhop.2.1, fun a ha _ => (hafter a ha).2.1⟩⟩

/-- **The hops of a circuit are opened one after the other**, whatever replies come and whatever
fails.  No assertion fails; as long as the circuit is not marked for close, its hops are in the
sequence "open* awaiting? closed*", and only those that are open have ciphers. -/
theorem originCircuit_hopsInOrder (purpose : OriginPurpose) (events : List (OriginEvent η)) :
    ∃ circ, events.foldlM originStep (OriginCircuit.new purpose) = some circ ∧
      (circ.markedForClose = false →
        assertCpathOk circ.cpath = true ∧
          Frontier (fun hop => hop.state = .isOpen) (fun hop => hop.state = .closed) circ.cpath ∧
            ∀ hop ∈ circ.cpath, hop.state ≠ .isOpen → hop.Bare) := by
  have hnew : (OriginCircuit.new purpose : OriginCircuit η).Inv := by
    refine fun _ => ⟨⟨rfl, forall_mem_nil _⟩, fun _ hop hmem => ?_⟩
    cases hmem
  obtain ⟨circ, hrun, hinv⟩ := exists_originRun hnew events
  refine ⟨circ, hrun, fun hunmarked => ?_⟩
  obtain ⟨hok, hbare⟩ := (hinv hunmarked).hops.assertions
  exact ⟨(assertCpathOk_iff circ.cpath).mpr hok, hok.2, hbare⟩

end Astoria
