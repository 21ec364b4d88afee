import Mathlib
import Astoria.Library.Runs
import Astoria.Library.Transit
import Astoria.TorClient.RelayCrypto

/-!
# Onion circuits

The client sends relay cells to any open hop of its circuit and every hop sends cells to the client,
over links that keep the order of the cells.  The two ends of a layer are the states of the client
and of a hop for one direction.  They are in step: the cells on the links between them lead from the
state of the receiver to the state of the sender.

Hops are counted from zero.  The link `i` is the one before the hop `i`.  A cell in transit carries,
beside its payload, where it comes from; the program only reads the payload.
-/

namespace Astoria

open List
open ByteBuffer Transit
open Function

/-! ### The network of a circuit -/

/-- The client or a hop, as an end of a layer in one direction. -/
structure LayerEnd where
  crypto : CryptoCipher
  digest : CryptoDigest
  /-- The payloads that have been packaged for the other end, or recognized. -/
  log : List Buffer

structure TransitCell where
  payload : Buffer
  /-- The hop that the cell is for, or from. -/
  hop : ℕ
  packaged : Buffer
  /-- The states in which the layers were added. -/
  layer : ℕ → LayerEnd

/-- The client and the hops of a circuit, with the links between them. -/
structure OnionNetwork where
  /-- The hops, as the client knows them. -/
  cpath : ℕ → CryptPathHop
  hops : ℕ → OrCircuit
  /-- The cells from the client on the link before a hop. -/
  outLink : ℕ → List TransitCell
  /-- The cells to the client on the link before a hop. -/
  inLink : ℕ → List TransitCell
  /-- The payloads that the client has packaged for a hop. -/
  sentOut : ℕ → List Buffer
  /-- The payloads that a hop has recognized. -/
  receivedOut : ℕ → List Buffer
  /-- The payloads that a hop has packaged. -/
  sentIn : ℕ → List Buffer
  /-- The payloads that the client has attributed to a hop. -/
  receivedIn : ℕ → List Buffer
  /-- Whether the circuit is closed because a cell was not recognized. -/
  closed : Bool

structure HopKeys where
  /-- The key stream for cells from the client. -/
  fKeystream : ℕ → UInt8
  /-- The key stream for cells to the client. -/
  bKeystream : ℕ → UInt8
  /-- The beginning of the digest of cells from the client. -/
  fSeed : List UInt8
  /-- The beginning of the digest of cells to the client. -/
  bSeed : List UInt8

/-- A circuit whose first `n` hops have just been opened. -/
def OnionNetwork.init (n : ℕ) (keys : ℕ → HopKeys) : OnionNetwork where
  cpath i := ⟨⟨(keys i).fKeystream, 0⟩, ⟨(keys i).bKeystream, 0⟩, (keys i).fSeed, (keys i).bSeed,
    if i < n then .isOpen else .closed⟩
  hops i := ⟨⟨(keys i).fKeystream, 0⟩, ⟨(keys i).bKeystream, 0⟩, (keys i).fSeed, (keys i).bSeed⟩
  outLink _ := []
  inLink _ := []
  sentOut _ := []
  receivedOut _ := []
  sentIn _ := []
  receivedIn _ := []
  closed := false

namespace OnionNetwork

/-- The client, for cells to a hop. -/
def clientOut (s : OnionNetwork) (i : ℕ) : LayerEnd :=
  ⟨(s.cpath i).fCrypto, (s.cpath i).fDigest, s.sentOut i⟩

/-- A hop, for cells from the client. -/
def hopOut (s : OnionNetwork) (i : ℕ) : LayerEnd :=
  ⟨(s.hops i).nCrypto, (s.hops i).nDigest, s.receivedOut i⟩

/-- A hop, for cells to the client. -/
def hopIn (s : OnionNetwork) (i : ℕ) : LayerEnd :=
  ⟨(s.hops i).pCrypto, (s.hops i).pDigest, s.sentIn i⟩

/-- The client, for cells from a hop. -/
def clientIn (s : OnionNetwork) (i : ℕ) : LayerEnd :=
  ⟨(s.cpath i).bCrypto, (s.cpath i).bDigest, s.receivedIn i⟩

end OnionNetwork

/-- What happens in the network. -/
inductive OnionEvent
  /-- The client sends a cell to a hop. -/
  | sendOut (hop : ℕ) (relayCommand : UInt8) (streamId : UInt16)
    (data : { l : List UInt8 // l.length ≤ relayPayloadSize })
  /-- The first cell on the link before a hop arrives at the hop. -/
  | receiveOut (hop : ℕ)
  /-- A hop sends a cell to the client. -/
  | sendIn (hop : ℕ) (relayCommand : UInt8) (streamId : UInt16)
    (data : { l : List UInt8 // l.length ≤ relayPayloadSize })
  /-- The first cell on the link before a hop arrives at the hop before, or at the client. -/
  | receiveIn (hop : ℕ)

section Steps

variable (getDigest : CryptoDigest → Buffer)

/-- The client sends a cell to a hop. -/
def OnionNetwork.clientSends (s : OnionNetwork) (hop : ℕ) (packaged : Buffer) : OnionNetwork :=
  let r := circuitPackageOut getDigest hop s.cpath packaged
  { s with
    cpath := r.1
    outLink := push s.outLink 0 ⟨r.2, hop, packaged, s.clientOut⟩
    sentOut := push s.sentOut hop packaged }

/-- A cell arrives at a hop from the client.  The circuit has `n` open hops. -/
def OnionNetwork.hopReceives (n : ℕ) (s : OnionNetwork) (hop : ℕ) (cell : TransitCell) :
    OnionNetwork :=
  let r := relayCryptOut getDigest (s.hops hop) cell.payload
  let s := { s with hops := update s.hops hop r.circ, outLink := pop s.outLink hop }
  if r.recognized then { s with receivedOut := push s.receivedOut hop r.payload }
  else if hop + 1 < n then
    { s with outLink := push s.outLink (hop + 1) { cell with payload := r.payload } }
  else { s with closed := true }

/-- A hop sends a cell to the client. -/
def OnionNetwork.hopSends (s : OnionNetwork) (hop : ℕ) (packaged : Buffer) : OnionNetwork :=
  let r := circuitPackageIn getDigest (s.hops hop) packaged
  { s with
    hops := update s.hops hop r.1
    inLink := push s.inLink hop ⟨r.2, hop, packaged, s.hopIn⟩
    sentIn := push s.sentIn hop packaged }

/-- A cell to the client arrives at a hop. -/
def OnionNetwork.hopPasses (s : OnionNetwork) (hop : ℕ) (cell : TransitCell) : OnionNetwork :=
  let r := relayCryptIn (s.hops hop) cell.payload
  { s with
    hops := update s.hops hop r.circ
    inLink := push (pop s.inLink (hop + 1)) hop
      { cell with payload := r.payload, layer := update cell.layer hop (s.hopIn hop) } }

/-- A cell arrives at the client, whose circuit has `len` hops. -/
def OnionNetwork.clientReceives (len : ℕ) (s : OnionNetwork) (cell : TransitCell) : OnionNetwork :=
  let r := relayCryptOrigin getDigest len s.cpath cell.payload
  let s := { s with cpath := r.cpath, inLink := pop s.inLink 0 }
  match r.layerHint with
  | some hop => { s with receivedIn := push s.receivedIn hop r.payload }
  | none => { s with closed := true }

/-- One step.  Nothing happens when the circuit is closed. -/
def OnionNetwork.step (n len : ℕ) (s : OnionNetwork) (event : OnionEvent) : OnionNetwork :=
  if s.closed then s
  else
    match event with
    | .sendOut hop relayCommand streamId data =>
      if hop < n then s.clientSends getDigest hop (relayCellPayload relayCommand streamId data)
        else s
    | .receiveOut hop =>
      match s.outLink hop with
      | [] => s
      | cell :: _ => s.hopReceives getDigest n hop cell
    | .sendIn hop relayCommand streamId data =>
      if hop < n then s.hopSends getDigest hop (relayCellPayload relayCommand streamId data) else s
    | .receiveIn 0 =>
      match s.inLink 0 with
      | [] => s
      | cell :: _ => s.clientReceives getDigest len cell
    | .receiveIn (hop + 1) =>
      match s.inLink (hop + 1) with
      | [] => s
      | cell :: _ => s.hopPasses hop cell

/-- Take off the first layers. -/
def peelLayers (crypto : ℕ → CryptoCipher) (n : ℕ) (payload : Buffer) : Buffer :=
  (range n).foldl (fun payload i => (relayCryptOnePayload (crypto i) payload).2) payload

/-- No cell is recognized by accident before its target. -/
def OnionNetwork.NoAccident (s : OnionNetwork) : OnionEvent → Prop
  | .receiveOut hop => ∀ cell ∈ (s.outLink hop).head?, cell.hop ≠ hop →
      (relayRecognize getDigest (s.hops hop).nDigest
        (relayCryptOnePayload (s.hops hop).nCrypto cell.payload).2).recognized = false
  | .receiveIn 0 => ∀ cell ∈ (s.inLink 0).head?, ∀ hop < cell.hop,
      (relayRecognize getDigest (s.cpath hop).bDigest
        (peelLayers (fun i => (s.cpath i).bCrypto) (hop + 1) cell.payload)).recognized = false
  | _ => True

instance (s : OnionNetwork) (event : OnionEvent) : Decidable (s.NoAccident getDigest event) :=
  match event with
  | .receiveOut hop => inferInstanceAs (Decidable (∀ cell ∈ (s.outLink hop).head?, cell.hop ≠ hop →
      (relayRecognize getDigest (s.hops hop).nDigest
        (relayCryptOnePayload (s.hops hop).nCrypto cell.payload).2).recognized = false))
  | .receiveIn 0 => inferInstanceAs (Decidable (∀ cell ∈ (s.inLink 0).head?, ∀ hop < cell.hop,
      (relayRecognize getDigest (s.cpath hop).bDigest
        (peelLayers (fun i => (s.cpath i).bCrypto) (hop + 1) cell.payload)).recognized = false))
  | .receiveIn (_ + 1) => isTrue trivial
  | .sendOut _ _ _ _ => isTrue trivial
  | .sendIn _ _ _ _ => isTrue trivial

end Steps

open OnionNetwork (clientIn clientOut hopIn hopOut init step)

/-! ### Layers -/

def CryptoCipher.advance (cipher : CryptoCipher) : CryptoCipher :=
  { cipher with position := cipher.position + cellPayloadSize }

/-- The layers from `i` on, `k` of them. -/
def wrapLayers (crypto : ℕ → CryptoCipher) (i k : ℕ) (payload : Buffer) : Buffer :=
  (range' i k).foldr (fun i payload => (relayCryptOnePayload (crypto i) payload).2) payload

/-- How the cells change the ends of a layer: the layer is on the cells for its hop and for the hops
behind it, and the cells for its hop are in the digest. -/
def layerProtocol (i : ℕ) : Protocol LayerEnd TransitCell where
  touches cell := i ≤ cell.hop
  seen cell := cell.layer i
  after e cell := ⟨e.crypto.advance,
    if cell.hop = i then e.digest ++ payloadBytes cell.packaged else e.digest,
    if cell.hop = i then e.log ++ [cell.packaged] else e.log⟩

section Layers

variable {getDigest : CryptoDigest → Buffer} {cell : TransitCell} {crypto : ℕ → CryptoCipher}
  {i k n : ℕ} {payload : Buffer}

/-- The layers of a cell from the hop `i` on. -/
def TransitCell.onion (getDigest : CryptoDigest → Buffer) (cell : TransitCell) (i : ℕ) : Buffer :=
  wrapLayers (fun i => (cell.layer i).crypto) i (cell.hop + 1 - i)
    (sealPayload getDigest (cell.layer cell.hop).digest cell.packaged)

/-- A cell on the link before the hop `i`. -/
structure TransitCell.Wrapped (getDigest : CryptoDigest → Buffer) (n : ℕ) (cell : TransitCell)
    (i : ℕ) : Prop where
  /-- It is for this hop or a hop behind it, or from there. -/
  le : i ≤ cell.hop
  lt : cell.hop < n
  /-- The layers of the hops before have been taken off, or not been added. -/
  payload : cell.payload = cell.onion getDigest i
  blank : IsBlank cell.packaged

lemma wrapLayers_succ : wrapLayers crypto i (k + 1) payload =
    (relayCryptOnePayload (crypto i) (wrapLayers crypto (i + 1) k payload)).2 := rfl

lemma wrapLayers_congr (crypto' : ℕ → CryptoCipher)
    (h : ∀ j, i ≤ j → j < i + k → crypto j = crypto' j) :
    wrapLayers crypto i k payload = wrapLayers crypto' i k payload := by
  induction k generalizing i with
  | zero => rfl
  | succ k ih =>
    rw [wrapLayers_succ, wrapLayers_succ, h i (Nat.le_refl i) (by omega),
      ih fun j hle hlt => h j (by omega) (by omega)]

lemma TransitCell.peel_onion (h : i ≤ cell.hop) :
    (relayCryptOnePayload (cell.layer i).crypto (cell.onion getDigest i)).2 =
      cell.onion getDigest (i + 1) := by
  have hcount : cell.hop + 1 - i = cell.hop + 1 - (i + 1) + 1 := by omega
  unfold TransitCell.onion
  rw [hcount, wrapLayers_succ, relayCryptOnePayload_twice]

lemma TransitCell.onion_end : cell.onion getDigest (cell.hop + 1) =
    sealPayload getDigest (cell.layer cell.hop).digest cell.packaged := by
  unfold TransitCell.onion
  rw [Nat.sub_self]
  rfl

/-- The first layers are taken off. -/
lemma TransitCell.peelLayers_onion (hk : k ≤ cell.hop + 1)
    (hcrypto : ∀ i < k, crypto i = (cell.layer i).crypto) :
    peelLayers crypto k (cell.onion getDigest 0) = cell.onion getDigest k := by
  induction k with
  | zero => rfl
  | succ k ih =>
    have hprev := ih (by omega) fun i hi => hcrypto i (by omega)
    unfold peelLayers at hprev ⊢
    rw [range_succ, foldl_append, hprev, foldl_cons, foldl_nil,
      hcrypto k (by omega), TransitCell.peel_onion (by omega)]

/-- Packaging at the client adds the layers of the hops up to the target. -/
lemma packageLoop_eq (cpath : ℕ → CryptPathHop) (hop : ℕ) (payload : Buffer) :
    packageLoop hop cpath payload =
      (fun i => if i ≤ hop then { cpath i with fCrypto := (cpath i).fCrypto.advance } else cpath i,
        wrapLayers (fun i => (cpath i).fCrypto) 0 (hop + 1) payload) := by
  induction hop generalizing cpath payload with
  | zero =>
    unfold packageLoop
    dsimp only
    refine Prod.ext ?_ rfl
    funext i
    dsimp only
    by_cases hi : i = 0
    · subst hi
      rw [update_self, if_pos (Nat.le_refl 0)]
      rfl
    · rw [update_of_ne hi, if_neg (by omega)]
  | succ hop ih =>
    unfold packageLoop
    dsimp only
    rw [ih]
    refine Prod.ext ?_ ?_
    · funext i
      dsimp only
      by_cases hi : i = hop + 1
      · subst hi
        rw [update_self, if_neg (by omega), if_pos (Nat.le_refl _)]
        rfl
      · rw [update_of_ne hi]
        by_cases hle : i ≤ hop
        · rw [if_pos hle, if_pos (by omega)]
        · rw [if_neg hle, if_neg (by omega)]
    · have hrange : range' 0 (hop + 1 + 1) = range' 0 (hop + 1) ++ [hop + 1] := by
        rw [range'_concat, Nat.one_mul, Nat.zero_add]
      dsimp only
      rw [wrapLayers_congr (fun i => (cpath i).fCrypto) fun j _ hj => by
        rw [update_of_ne (by omega)]]
      unfold wrapLayers
      rw [hrange, foldr_append]
      rfl

/-- **The client recognizes a cell** at the layer that it is from. -/
lemma relayCryptLoop_onion {len fuel thishop : ℕ} {cpath : ℕ → CryptPathHop}
    (hblank : IsBlank cell.packaged) (hle : thishop ≤ cell.hop) (hfuel : cell.hop < thishop + fuel)
    (hlen : cell.hop < len) (hopen : ∀ i ≤ cell.hop, (cpath i).state = .isOpen)
    (hcrypto : ∀ i, thishop ≤ i → i ≤ cell.hop → (cell.layer i).crypto = (cpath i).bCrypto)
    (hdigest : (cell.layer cell.hop).digest = (cpath cell.hop).bDigest)
    (hno : ∀ i, thishop ≤ i → i < cell.hop → (relayRecognize getDigest (cpath i).bDigest
      (cell.onion getDigest (i + 1))).recognized = false) :
    relayCryptLoop getDigest len fuel thishop cpath (cell.onion getDigest thishop) =
      ⟨fun i => if thishop ≤ i ∧ i ≤ cell.hop then
          { cpath i with
            bCrypto := (cpath i).bCrypto.advance
            bDigest := if cell.hop = i then (cpath i).bDigest ++ payloadBytes cell.packaged
              else (cpath i).bDigest }
        else cpath i, cell.packaged, some cell.hop⟩ := by
  induction fuel generalizing thishop cpath with
  | zero => omega
  | succ fuel ih =>
    have hpeel : (relayCryptOnePayload (cpath thishop).bCrypto (cell.onion getDigest thishop)).2 =
        cell.onion getDigest (thishop + 1) := by
      rw [← hcrypto thishop (Nat.le_refl _) hle]
      exact TransitCell.peel_onion hle
    unfold relayCryptLoop
    dsimp only
    rw [hpeel]
    by_cases heq : thishop = cell.hop
    · subst heq
      rw [TransitCell.onion_end, hdigest, relayRecognize_sealPayload hblank]
      dsimp only
      rw [if_pos rfl]
      congr 1
      funext i
      by_cases hi : i = cell.hop
      · subst hi
        rw [update_self, if_pos ⟨Nat.le_refl _, Nat.le_refl _⟩, if_pos rfl]
        rfl
      · rw [update_of_ne hi, if_neg (by omega)]
    · rw [relayRecognize_of_not (hno thishop (Nat.le_refl _) (by omega))]
      dsimp only
      have hne : ∀ i, i ≠ thishop → update cpath thishop
          { cpath thishop with
            bCrypto := (relayCryptOnePayload (cpath thishop).bCrypto
              (cell.onion getDigest thishop)).1 } i = cpath i :=
        fun i hi => update_of_ne hi _ _
      rw [if_neg (by simp), if_pos ⟨by omega, by rw [hne _ (by omega)]; exact hopen _ (by omega)⟩]
      rw [ih (by omega) (by omega) ?_ ?_ ?_ ?_]
      · congr 1
        funext i
        by_cases hi : i = thishop
        · subst hi
          rw [if_neg (by omega), if_pos ⟨Nat.le_refl _, hle⟩, update_self, if_neg (by omega)]
          rfl
        · rw [hne i hi]
          by_cases hmem : thishop ≤ i ∧ i ≤ cell.hop
          · rw [if_pos hmem, if_pos (by omega)]
          · rw [if_neg hmem, if_neg (by omega)]
      · intro i hi
        by_cases hthis : i = thishop
        · subst hthis
          rw [update_self]
          exact hopen i hi
        · rw [hne i hthis]
          exact hopen i hi
      · intro i hi hi'
        rw [hne i (by omega)]
        exact hcrypto i (by omega) hi'
      · rw [hne _ (by omega)]
        exact hdigest
      · intro i hi hi'
        rw [hne i (by omega)]
        exact hno i (by omega) hi'

end Layers

/-! ### The ends of all layers are in step -/

/-- The ends of all layers are in step. -/
structure OnionNetwork.Inv (getDigest : CryptoDigest → Buffer) (n : ℕ) (s : OnionNetwork) :
    Prop where
  /-- No cell went unrecognized. -/
  closed : s.closed = false
  isOpen : ∀ i < n, (s.cpath i).state = .isOpen
  out : ∀ i, ∀ cell ∈ s.outLink i, cell.Wrapped getDigest n i
  inn : ∀ i, ∀ cell ∈ s.inLink i, cell.Wrapped getDigest n i
  outStep : ∀ i, InStep (layerProtocol i) (s.hopOut i) (upstream s.outLink (i + 1)) (s.clientOut i)
  inStep : ∀ i, InStep (layerProtocol i) (s.clientIn i) (downstream s.inLink (i + 1)) (s.hopIn i)

section Inv

variable {getDigest : CryptoDigest → Buffer} {n len : ℕ} {s : OnionNetwork} {cell : TransitCell}
  {rest : List TransitCell} {hop : ℕ}

/-- A cell in a queue to which a cell has been added. -/
lemma mem_push {q : ℕ → List TransitCell} {i j : ℕ} {cell' : TransitCell}
    (h : cell' ∈ push q j cell i) : cell' ∈ q i ∨ i = j ∧ cell' = cell := by
  unfold push at h
  by_cases hi : i = j
  · subst hi
    rw [update_self, mem_append, mem_singleton] at h
    exact h.imp_right fun h => ⟨rfl, h⟩
  · rw [update_of_ne hi] at h
    exact .inl h

/-- A cell in a queue from which a cell has been taken away. -/
lemma mem_of_mem_pop {q : ℕ → List TransitCell} {i j : ℕ} {cell' : TransitCell}
    (h : cell' ∈ pop q j i) : cell' ∈ q i := by
  unfold pop at h
  by_cases hi : i = j
  · subst hi
    rw [update_self] at h
    exact mem_of_mem_tail h
  · rw [update_of_ne hi] at h
    exact h

lemma OnionNetwork.inv_init (n : ℕ) (keys : ℕ → HopKeys) : (init n keys).Inv getDigest n := by
  have hup : ∀ m, upstream (init n keys).outLink m = [] := by
    intro m
    induction m with
    | zero => rfl
    | succ m ih =>
      rw [upstream, ih]
      rfl
  have hdown : ∀ m, downstream (init n keys).inLink m = [] := by
    intro m
    induction m with
    | zero => rfl
    | succ m ih =>
      rw [downstream, ih]
      rfl
  refine ⟨rfl, fun i hi => if_pos hi, fun i cell hcell => absurd hcell not_mem_nil,
    fun i cell hcell => absurd hcell not_mem_nil, fun i => ?_, fun i => ?_⟩
  · rw [hup]
    exact InStep.nil _
  · rw [hdown]
    exact InStep.nil _

variable (h : s.Inv getDigest n)

include h

/-- **The client sends a cell.** -/
lemma OnionNetwork.Inv.clientSends (hhop : hop < n) {packaged : Buffer}
    (hblank : IsBlank packaged) : (s.clientSends getDigest hop packaged).Inv getDigest n := by
  have hcpath : ∀ i, (s.clientSends getDigest hop packaged).cpath i =
      { s.cpath i with
        fCrypto := if i ≤ hop then (s.cpath i).fCrypto.advance else (s.cpath i).fCrypto
        fDigest := if hop = i then (s.cpath i).fDigest ++ payloadBytes packaged
          else (s.cpath i).fDigest } := by
    intro i
    unfold OnionNetwork.clientSends circuitPackageOut
    rw [relaySetDigest_eq]
    dsimp only
    rw [packageLoop_eq]
    dsimp only
    by_cases hi : i = hop
    · subst hi
      rw [update_self, if_pos (Nat.le_refl i), if_pos (Nat.le_refl i), if_pos rfl]
    · rw [update_of_ne hi, if_neg (Ne.symm hi)]
      split_ifs
      · rfl
      · rfl
  have hpayload : (circuitPackageOut getDigest hop s.cpath packaged).2 =
      wrapLayers (fun i => (s.cpath i).fCrypto) 0 (hop + 1)
        (sealPayload getDigest (s.cpath hop).fDigest packaged) := by
    unfold circuitPackageOut
    rw [relaySetDigest_eq]
    dsimp only
    rw [packageLoop_eq]
    apply wrapLayers_congr
    intro i _ _
    by_cases hi : i = hop
    · subst hi
      rw [update_self]
    · rw [update_of_ne hi]
  obtain ⟨cell, hcell⟩ : ∃ cell : TransitCell,
      cell = ⟨(circuitPackageOut getDigest hop s.cpath packaged).2, hop, packaged, s.clientOut⟩ :=
    ⟨_, rfl⟩
  have hlink : (s.clientSends getDigest hop packaged).outLink = push s.outLink 0 cell := by
    rw [hcell]
    rfl
  have hlog : (s.clientSends getDigest hop packaged).sentOut = push s.sentOut hop packaged := rfl
  have hcellHop : cell.hop = hop := by rw [hcell]
  refine ⟨h.closed, fun i hi => ?_, fun i cell' hmem => ?_, h.inn, fun i => ?_, fun i => ?_⟩
  · rw [hcpath]
    exact h.isOpen i hi
  · rw [hlink] at hmem
    rcases mem_push hmem with hmem | ⟨hi, hmem⟩
    · exact h.out i cell' hmem
    · rw [hi, hmem, hcell]
      exact ⟨Nat.zero_le hop, hhop, hpayload, hblank⟩
  · rw [hlink, upstream_push (Nat.succ_pos i)]
    by_cases hi : i ≤ hop
    · have htouch : (layerProtocol i).touches cell := by
        rw [← hcellHop] at hi
        exact hi
      have hend : (s.clientSends getDigest hop packaged).clientOut i =
          (layerProtocol i).after (s.clientOut i) cell := by
        unfold clientOut layerProtocol
        dsimp only
        rw [hcpath, hlog, hcell]
        dsimp only
        rw [if_pos hi]
        congr 1
        by_cases heq : hop = i
        · subst heq
          rw [push_self, if_pos rfl]
        · rw [push_of_ne _ (Ne.symm heq), if_neg heq]
      rw [hend]
      exact (h.outStep i).send htouch (by rw [hcell]; rfl)
    · have hend : (s.clientSends getDigest hop packaged).clientOut i = s.clientOut i := by
        unfold clientOut
        rw [hcpath, hlog, push_of_ne _ (by omega), if_neg hi, if_neg (by omega)]
      have htouch : ¬ (layerProtocol i).touches cell := by
        rw [← hcellHop] at hi
        exact hi
      rw [hend]
      exact (h.outStep i).append (InStep.skip htouch (InStep.nil _))
  · have hend : (s.clientSends getDigest hop packaged).clientIn i = s.clientIn i := by
      unfold clientIn
      rw [hcpath]
      rfl
    rw [hend]
    exact h.inStep i

/-- **A cell from the client arrives at a hop.**  It is recognized if it is for the hop, and passed
on if not. -/
lemma OnionNetwork.Inv.hopReceives (hlink : s.outLink hop = cell :: rest)
    (hno : s.NoAccident getDigest (.receiveOut hop)) :
    (s.hopReceives getDigest n hop cell).Inv getDigest n := by
  have hwrapped := h.out hop cell (by rw [hlink]; exact mem_cons_self)
  have htouch : (layerProtocol hop).touches cell := hwrapped.le
  obtain ⟨hseen, hstep⟩ := (h.outStep hop).upstream_receive hlink htouch
  have hcrypto : (s.hops hop).nCrypto = (cell.layer hop).crypto :=
    congrArg LayerEnd.crypto hseen.symm
  have hdigest : (s.hops hop).nDigest = (cell.layer hop).digest :=
    congrArg LayerEnd.digest hseen.symm
  have hpeel : (relayCryptOnePayload (s.hops hop).nCrypto cell.payload).2 =
      cell.onion getDigest (hop + 1) := by
    rw [hcrypto, hwrapped.payload]
    exact TransitCell.peel_onion hwrapped.le
  have hother : ∀ circ i, i ≠ hop → update s.hops hop circ i = s.hops i :=
    fun circ i hi => update_of_ne hi _ _
  by_cases heq : cell.hop = hop
  · have hrecognize : relayRecognize getDigest (s.hops hop).nDigest
        (relayCryptOnePayload (s.hops hop).nCrypto cell.payload).2 =
        ⟨(s.hops hop).nDigest ++ payloadBytes cell.packaged, cell.packaged, true⟩ := by
      have hend : cell.onion getDigest (hop + 1) =
          sealPayload getDigest (s.hops hop).nDigest cell.packaged := by
        rw [hdigest, ← heq]
        exact TransitCell.onion_end
      rw [hpeel, hend, relayRecognize_sealPayload hwrapped.blank]
    have hstate : s.hopReceives getDigest n hop cell = { s with
        hops := update s.hops hop { s.hops hop with
          nCrypto := (s.hops hop).nCrypto.advance
          nDigest := (s.hops hop).nDigest ++ payloadBytes cell.packaged }
        outLink := pop s.outLink hop
        receivedOut := push s.receivedOut hop cell.packaged } := by
      unfold OnionNetwork.hopReceives relayCryptOut
      dsimp only
      rw [hrecognize]
      rfl
    rw [hstate]
    refine ⟨h.closed, h.isOpen, fun i cell' hmem => h.out i cell' (mem_of_mem_pop hmem), h.inn,
      fun i => ?_, fun i => ?_⟩
    · by_cases hi : i = hop
      · subst hi
        unfold hopOut
        dsimp only
        rw [push_self, update_self]
        unfold layerProtocol hopOut at hstep
        dsimp only at hstep
        rw [if_pos heq, if_pos heq] at hstep
        exact hstep
      · unfold hopOut
        dsimp only
        rw [push_of_ne _ hi, hother _ i hi]
        have hold := h.outStep i
        by_cases hlt : i < hop
        · rw [pop_eq hlink, upstream_update (by omega)]
          exact hold
        · have hskip : ¬ (layerProtocol i).touches cell := by
            unfold layerProtocol
            dsimp only
            omega
          exact hold.upstream_drop hlink (by omega) hskip
    · unfold hopIn
      dsimp only
      by_cases hi : i = hop
      · subst hi
        rw [update_self]
        exact h.inStep i
      · rw [hother _ i hi]
        exact h.inStep i
  · have hle := hwrapped.le
    have hlt := hwrapped.lt
    have hrecognize := relayRecognize_of_not (hno cell (by rw [hlink]; rfl) heq)
    obtain ⟨cell', hcell'⟩ : ∃ cell' : TransitCell,
        cell' = { cell with payload := cell.onion getDigest (hop + 1) } := ⟨_, rfl⟩
    have hstate : s.hopReceives getDigest n hop cell = { s with
        hops := update s.hops hop { s.hops hop with
          nCrypto := (s.hops hop).nCrypto.advance }
        outLink := push (pop s.outLink hop) (hop + 1) cell' } := by
      unfold OnionNetwork.hopReceives relayCryptOut
      dsimp only
      rw [hrecognize]
      dsimp only
      rw [if_neg (by simp), if_pos (by omega), hpeel, hcell']
      rfl
    have halike : ∀ i, (layerProtocol i).Alike cell cell' := by
      intro i
      rw [hcell']
      exact ⟨Iff.rfl, rfl, fun _ => rfl⟩
    rw [hstate]
    refine ⟨h.closed, h.isOpen, fun i cell'' hmem => ?_, h.inn, fun i => ?_, fun i => ?_⟩
    · rcases mem_push hmem with hmem | ⟨hi, hmem⟩
      · exact h.out i cell'' (mem_of_mem_pop hmem)
      · rw [hi, hmem, hcell']
        exact ⟨by dsimp only; omega, hlt, rfl, hwrapped.blank⟩
    · by_cases hi : i = hop
      · subst hi
        unfold hopOut
        dsimp only
        rw [update_self, push, upstream_update (Nat.le_refl _)]
        unfold layerProtocol hopOut at hstep
        dsimp only at hstep
        rw [if_neg heq, if_neg heq] at hstep
        exact hstep
      · unfold hopOut
        dsimp only
        rw [hother _ i hi]
        have hold := h.outStep i
        by_cases hlt' : i < hop
        · rw [push, upstream_update (by omega), pop_eq hlink, upstream_update (by omega)]
          exact hold
        · exact hold.upstream_pass hlink (by omega) (halike i)
    · unfold hopIn
      dsimp only
      by_cases hi : i = hop
      · subst hi
        rw [update_self]
        exact h.inStep i
      · rw [hother _ i hi]
        exact h.inStep i

/-- **A hop sends a cell.** -/
lemma OnionNetwork.Inv.hopSends (hhop : hop < n) {packaged : Buffer}
    (hblank : IsBlank packaged) : (s.hopSends getDigest hop packaged).Inv getDigest n := by
  obtain ⟨cell, hcell⟩ : ∃ cell : TransitCell,
      cell = ⟨(circuitPackageIn getDigest (s.hops hop) packaged).2, hop, packaged, s.hopIn⟩ :=
    ⟨_, rfl⟩
  have hcellHop : cell.hop = hop := by rw [hcell]
  have hstate : s.hopSends getDigest hop packaged = { s with
      hops := update s.hops hop { s.hops hop with
        pCrypto := (s.hops hop).pCrypto.advance
        pDigest := (s.hops hop).pDigest ++ payloadBytes packaged }
      inLink := push s.inLink hop cell
      sentIn := push s.sentIn hop packaged } := by
    rw [hcell]
    unfold OnionNetwork.hopSends circuitPackageIn
    dsimp only
    rw [relaySetDigest_eq]
    rfl
  have hpayload : cell.payload = cell.onion getDigest hop := by
    have hone : hop + 1 - hop = 1 := by omega
    rw [hcell]
    unfold TransitCell.onion circuitPackageIn
    dsimp only
    rw [relaySetDigest_eq, hone]
    rfl
  rw [hstate]
  refine ⟨h.closed, h.isOpen, h.out, fun i cell' hmem => ?_, fun i => ?_, fun i => ?_⟩
  · rcases mem_push hmem with hmem | ⟨hi, hmem⟩
    · exact h.inn i cell' hmem
    · rw [hi, hmem]
      refine ⟨Nat.le_of_eq hcellHop.symm, by omega, hpayload, ?_⟩
      rw [hcell]
      exact hblank
  · unfold hopOut
    dsimp only
    by_cases hi : i = hop
    · subst hi
      rw [update_self]
      exact h.outStep i
    · rw [update_of_ne hi]
      exact h.outStep i
  · unfold hopIn
    dsimp only
    by_cases hi : i = hop
    · subst hi
      have htouch : (layerProtocol i).touches cell := by
        unfold layerProtocol
        dsimp only
        omega
      have hsend := (h.inStep i).send htouch (by rw [hcell]; rfl)
      rw [update_self, push_self, downstream_push]
      unfold layerProtocol hopIn at hsend
      dsimp only at hsend
      rw [if_pos hcellHop, if_pos hcellHop] at hsend
      rw [hcell] at hsend ⊢
      exact hsend
    · rw [update_of_ne hi, push_of_ne _ hi]
      have hold := h.inStep i
      by_cases hlt : i < hop
      · rw [push, downstream_update (by omega)]
        exact hold
      · have hskip : ¬ (layerProtocol i).touches cell := by
          unfold layerProtocol
          dsimp only
          omega
        exact hold.downstream_insert (by omega) hskip

/-- **A cell to the client arrives at a hop.** -/
lemma OnionNetwork.Inv.hopPasses (hlink : s.inLink (hop + 1) = cell :: rest) :
    (s.hopPasses hop cell).Inv getDigest n := by
  have hwrapped := h.inn (hop + 1) cell (by rw [hlink]; exact mem_cons_self)
  have hle := hwrapped.le
  obtain ⟨cell', hcell'⟩ : ∃ cell' : TransitCell, cell' = { cell with
      payload := (relayCryptOnePayload (s.hops hop).pCrypto cell.payload).2
      layer := update cell.layer hop (s.hopIn hop) } := ⟨_, rfl⟩
  have hstate : s.hopPasses hop cell = { s with
      hops := update s.hops hop { s.hops hop with
        pCrypto := (s.hops hop).pCrypto.advance }
      inLink := push (pop s.inLink (hop + 1)) hop cell' } := by
    rw [hcell']
    rfl
  have hcellHop : cell'.hop = cell.hop := by rw [hcell']
  have hlayer : ∀ i, i ≠ hop → cell'.layer i = cell.layer i := by
    intro i hi
    rw [hcell']
    exact update_of_ne hi _ _
  have hlayerHop : cell'.layer hop = s.hopIn hop := by
    rw [hcell']
    exact update_self _ _ _
  have hpayload : cell'.payload = cell'.onion getDigest hop := by
    have hcount : cell'.hop + 1 - hop = cell.hop + 1 - (hop + 1) + 1 := by omega
    have hpackaged : cell'.packaged = cell.packaged := by rw [hcell']
    unfold TransitCell.onion
    rw [hcount, wrapLayers_succ, wrapLayers_congr (fun i => (cell.layer i).crypto) fun i hi _ => by
      rw [hlayer i (by omega)], hlayerHop, hcellHop, hlayer _ (by omega), hpackaged]
    rw [hcell']
    dsimp only
    rw [hwrapped.payload]
    rfl
  rw [hstate]
  refine ⟨h.closed, h.isOpen, h.out, fun i cell'' hmem => ?_, fun i => ?_, fun i => ?_⟩
  · rcases mem_push hmem with hmem | ⟨hi, hmem⟩
    · exact h.inn i cell'' (mem_of_mem_pop hmem)
    · rw [hi, hmem]
      refine ⟨by omega, by rw [hcellHop]; exact hwrapped.lt, hpayload, ?_⟩
      rw [hcell']
      exact hwrapped.blank
  · unfold hopOut
    dsimp only
    by_cases hi : i = hop
    · subst hi
      rw [update_self]
      exact h.outStep i
    · rw [update_of_ne hi]
      exact h.outStep i
  · unfold hopIn
    dsimp only
    have hold := h.inStep i
    by_cases hi : i = hop
    · subst hi
      have htouch : (layerProtocol i).touches cell' := by
        unfold layerProtocol
        dsimp only
        omega
      have hsend := hold.send htouch hlayerHop
      rw [update_self, downstream_push, pop_eq hlink, downstream_update (Nat.le_refl _)]
      unfold layerProtocol hopIn at hsend
      dsimp only at hsend
      rw [if_neg (by omega), if_neg (by omega)] at hsend
      exact hsend
    · rw [update_of_ne hi]
      by_cases hlt : i < hop
      · rw [push, downstream_update (by omega), pop_eq hlink, downstream_update (by omega)]
        exact hold
      · have halike : (layerProtocol i).Alike cell cell' := by
          refine ⟨?_, hlayer i hi, fun e => ?_⟩
          · unfold layerProtocol
            dsimp only
            rw [hcellHop]
          · rw [hcell']
            rfl
        exact hold.downstream_pass hlink (by omega) halike

/-- **A cell arrives at the client**, which attributes it to the hop that it is from. -/
lemma OnionNetwork.Inv.clientReceives (hlen : n ≤ len)
    (hlink : s.inLink 0 = cell :: rest) (hno : s.NoAccident getDigest (.receiveIn 0)) :
    (s.clientReceives getDigest len cell).Inv getDigest n := by
  have hwrapped := h.inn 0 cell (by rw [hlink]; exact mem_cons_self)
  have hlt := hwrapped.lt
  have hlayer : ∀ i ≤ cell.hop, cell.layer i = s.clientIn i ∧
      InStep (layerProtocol i) ((layerProtocol i).after (s.clientIn i) cell)
        (downstream (pop s.inLink 0) (i + 1)) (s.hopIn i) := by
    intro i hi
    have hold := h.inStep i
    rw [downstream_pop hlink (Nat.succ_pos i)] at hold
    exact hold.receive hi
  have hcrypto : ∀ i ≤ cell.hop, (cell.layer i).crypto = (s.cpath i).bCrypto :=
    fun i hi => congrArg LayerEnd.crypto (hlayer i hi).1
  have hdigest : (cell.layer cell.hop).digest = (s.cpath cell.hop).bDigest :=
    congrArg LayerEnd.digest (hlayer cell.hop (Nat.le_refl _)).1
  have hno' : ∀ i, 0 ≤ i → i < cell.hop → (relayRecognize getDigest (s.cpath i).bDigest
      (cell.onion getDigest (i + 1))).recognized = false := by
    intro i _ hi
    have hhead := hno cell (by rw [hlink]; rfl) i hi
    rw [hwrapped.payload, TransitCell.peelLayers_onion (by omega) fun j hj =>
      (hcrypto j (by omega)).symm] at hhead
    exact hhead
  have hend : cell.hop < len := Nat.lt_of_lt_of_le hlt hlen
  have hfuel : cell.hop < 0 + len := by rw [Nat.zero_add]; exact hend
  have hloop := relayCryptLoop_onion hwrapped.blank (Nat.zero_le _) hfuel hend
    (fun i hi => h.isOpen i (by omega)) (fun i _ hi => hcrypto i hi) hdigest hno'
  obtain ⟨cpath, hcpath⟩ : ∃ cpath : ℕ → CryptPathHop, cpath = fun i =>
      if 0 ≤ i ∧ i ≤ cell.hop then
        { s.cpath i with
          bCrypto := (s.cpath i).bCrypto.advance
          bDigest := if cell.hop = i then (s.cpath i).bDigest ++ payloadBytes cell.packaged
            else (s.cpath i).bDigest }
      else s.cpath i := ⟨_, rfl⟩
  rw [← hcpath] at hloop
  have hstate : s.clientReceives getDigest len cell = { s with
      cpath := cpath
      inLink := pop s.inLink 0
      receivedIn := push s.receivedIn cell.hop cell.packaged } := by
    have hfirst : ¬ (s.cpath 0).state ≠ .isOpen := not_not_intro (h.isOpen 0 (by omega))
    unfold OnionNetwork.clientReceives relayCryptOrigin
    rw [if_neg hfirst, hwrapped.payload, hloop]
  have hforward : ∀ i, (cpath i).state = (s.cpath i).state ∧
      (cpath i).fCrypto = (s.cpath i).fCrypto ∧ (cpath i).fDigest = (s.cpath i).fDigest := by
    intro i
    rw [hcpath]
    dsimp only
    by_cases hi : 0 ≤ i ∧ i ≤ cell.hop
    · rw [if_pos hi]
      exact ⟨rfl, rfl, rfl⟩
    · rw [if_neg hi]
      exact ⟨rfl, rfl, rfl⟩
  rw [hstate]
  refine ⟨h.closed, fun i hi => (hforward i).1.trans (h.isOpen i hi), h.out,
    fun i cell' hmem => h.inn i cell' (mem_of_mem_pop hmem), fun i => ?_, fun i => ?_⟩
  · unfold clientOut
    dsimp only
    rw [(hforward i).2.1, (hforward i).2.2]
    exact h.outStep i
  · unfold clientIn
    dsimp only
    rw [hcpath]
    dsimp only
    by_cases hi : i ≤ cell.hop
    · have hstep := (hlayer i hi).2
      rw [if_pos ⟨Nat.zero_le i, hi⟩]
      unfold layerProtocol clientIn at hstep
      dsimp only at hstep ⊢
      by_cases heq : cell.hop = i
      · rw [if_pos heq, if_pos heq] at hstep
        rw [if_pos heq, ← heq, push_self, heq]
        exact hstep
      · rw [if_neg heq, if_neg heq] at hstep
        rw [if_neg heq, push_of_ne _ (Ne.symm heq)]
        exact hstep
    · have hold := h.inStep i
      rw [downstream_pop hlink (Nat.succ_pos i), ← nil_append (cell :: _)] at hold
      rw [if_neg (by omega), push_of_ne _ (by omega)]
      exact hold.remove hi

/-- **One step** keeps the ends of all layers in step. -/
lemma OnionNetwork.Inv.step (hlen : n ≤ len) {event : OnionEvent}
    (hno : s.NoAccident getDigest event) : (s.step getDigest n len event).Inv getDigest n := by
  unfold OnionNetwork.step
  rw [if_neg (by rw [h.closed]; simp)]
  cases event with
  | sendOut hop relayCommand streamId data =>
    dsimp only
    split_ifs with hhop
    · exact h.clientSends hhop (isBlank_relayCellPayload relayCommand streamId data)
    · exact h
  | receiveOut hop =>
    dsimp only
    cases hlink : s.outLink hop with
    | nil => exact h
    | cons cell rest => exact h.hopReceives hlink hno
  | sendIn hop relayCommand streamId data =>
    dsimp only
    split_ifs with hhop
    · exact h.hopSends hhop (isBlank_relayCellPayload relayCommand streamId data)
    · exact h
  | receiveIn hop =>
    cases hop with
    | zero =>
      dsimp only
      cases hlink : s.inLink 0 with
      | nil => exact h
      | cons cell rest => exact h.clientReceives hlen hlink hno
    | succ hop =>
      dsimp only
      cases hlink : s.inLink (hop + 1) with
      | nil => exact h
      | cons cell rest => exact h.hopPasses hlink

/-- The ends of all layers stay in step. -/
lemma OnionNetwork.Inv.foldl (hlen : n ≤ len) {events : List OnionEvent}
    (hno : Runs.MeetsAlong (fun s event => some (OnionNetwork.step getDigest n len s event))
      (OnionNetwork.NoAccident getDigest) events s) :
    (events.foldl (OnionNetwork.step getDigest n len) s).Inv getDigest n := by
  induction events generalizing s with
  | nil => exact h
  | cons event events ih =>
    obtain ⟨hevent, hrest⟩ := Runs.meetsAlong_some_cons.mp hno
    exact ih (h.step hlen hevent) hrest

end Inv

/-- The payloads for or from a hop that are in transit, the oldest one first. -/
def payloadsFor (hop : ℕ) (cells : List TransitCell) : List Buffer :=
  cells.flatMap fun cell => if cell.hop = hop then [cell.packaged] else []

/-- What the ends of a layer have logged. -/
lemma log_eq {hop : ℕ} {e e' : LayerEnd} {cells : List TransitCell}
    (h : InStep (layerProtocol hop) e cells e') : e'.log = e.log ++ payloadsFor hop cells := by
  apply h.flatMap_eq
  · intro e cell _
    unfold layerProtocol
    dsimp only
    split_ifs
    · rfl
    · rw [append_nil]
  · intro cell hcell
    exact if_neg fun heq => hcell (Nat.le_of_eq heq.symm)

/-- **Onion layers stay in step.**  In every run in which no cell is recognized by accident before
its target, every hop recognizes exactly the payloads that the client has packaged for it, and the
client attributes to every hop exactly the payloads that this hop has packaged: what has been
recognized, followed by what is still in transit, is what has been packaged, in this order.  No cell
goes unrecognized. -/
theorem onionLayers_inStep (getDigest : CryptoDigest → Buffer) {n len : ℕ} (hlen : n ≤ len)
    (keys : ℕ → HopKeys) (events : List OnionEvent)
    (hno : Runs.MeetsAlong (fun s event => some (OnionNetwork.step getDigest n len s event))
      (OnionNetwork.NoAccident getDigest) events (OnionNetwork.init n keys)) :
    (events.foldl (OnionNetwork.step getDigest n len) (OnionNetwork.init n keys)).closed = false ∧
    ∀ hop,
      (events.foldl (OnionNetwork.step getDigest n len) (OnionNetwork.init n keys)).sentOut hop =
        (events.foldl (OnionNetwork.step getDigest n len) (OnionNetwork.init n keys)).receivedOut
          hop ++ payloadsFor hop (upstream
            (events.foldl (OnionNetwork.step getDigest n len) (OnionNetwork.init n keys)).outLink
            (hop + 1)) ∧
      (events.foldl (OnionNetwork.step getDigest n len) (OnionNetwork.init n keys)).sentIn hop =
        (events.foldl (OnionNetwork.step getDigest n len) (OnionNetwork.init n keys)).receivedIn
          hop ++ payloadsFor hop (downstream
            (events.foldl (OnionNetwork.step getDigest n len) (OnionNetwork.init n keys)).inLink
            (hop + 1)) := by
  have h := (OnionNetwork.inv_init n keys).foldl hlen hno
  exact ⟨h.closed, fun hop => ⟨log_eq (h.outStep hop), log_eq (h.inStep hop)⟩⟩

/-- A digest for tests: the sum of all bytes. -/
def sumDigest (digest : CryptoDigest) : Buffer := fun _ => digest.sum

def testKeys (i : ℕ) : HopKeys where
  fKeystream k := UInt8.ofNat (i + k + 1)
  bKeystream k := UInt8.ofNat (i + 2 * k + 1)
  fSeed := [UInt8.ofNat i]
  bSeed := [UInt8.ofNat (i + 1)]

/-- The client sends a cell to the second one of two hops, which answers. -/
def questionAndAnswer : List OnionEvent :=
  [.sendOut 1 2 1 ⟨[104, 105], by decide⟩, .receiveOut 0, .receiveOut 1,
    .sendIn 1 2 1 ⟨[106], by decide⟩, .receiveIn 1, .receiveIn 0]

/-- A cell to the second one of two hops and the answer arrive. -/
theorem onionLayers_inStep_two_hops :
    (questionAndAnswer.foldl (OnionNetwork.step sumDigest 2 3)
      (OnionNetwork.init 2 testKeys)).closed = false ∧
    (questionAndAnswer.foldl (OnionNetwork.step sumDigest 2 3)
      (OnionNetwork.init 2 testKeys)).sentOut 1 =
        (questionAndAnswer.foldl (OnionNetwork.step sumDigest 2 3)
          (OnionNetwork.init 2 testKeys)).receivedOut 1 ∧
    (questionAndAnswer.foldl (OnionNetwork.step sumDigest 2 3)
      (OnionNetwork.init 2 testKeys)).sentIn 1 =
        (questionAndAnswer.foldl (OnionNetwork.step sumDigest 2 3)
          (OnionNetwork.init 2 testKeys)).receivedIn 1 := by
  obtain ⟨hclosed, hlogs⟩ := onionLayers_inStep sumDigest (by decide : 2 ≤ 3) testKeys
    questionAndAnswer (by decide +kernel)
  obtain ⟨hout, hin⟩ := hlogs 1
  have hempty : (upstream (questionAndAnswer.foldl (OnionNetwork.step sumDigest 2 3)
      (OnionNetwork.init 2 testKeys)).outLink 2).isEmpty = true ∧
      (downstream (questionAndAnswer.foldl (OnionNetwork.step sumDigest 2 3)
        (OnionNetwork.init 2 testKeys)).inLink 2).isEmpty = true := by
    decide +kernel
  rw [List.isEmpty_iff.mp hempty.1] at hout
  rw [List.isEmpty_iff.mp hempty.2] at hin
  exact ⟨hclosed, hout.trans (append_nil _), hin.trans (append_nil _)⟩

end Astoria
