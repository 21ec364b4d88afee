import Astoria.TorClient.OnionCells

/-!
# The layers of relay cells

A relay cell is encrypted once for every hop between its two ends, and carries a digest of all cells
between them.  A cell whose field `recognized` is zero and whose digest is right is for the hop that
looks at it.

The stream ciphers work in counter mode: a cipher is a key stream with the number of bytes that have
been processed.  A digest is the list of all bytes that have been added; how the digest of a list of
bytes is computed is a parameter.  Cells are given by their payloads.
-/

namespace Astoria

open List Function
open ByteBuffer

/-! ### Ciphers and digests -/

structure CryptoCipher where
  /-- The key stream. -/
  keystream : ℕ → UInt8
  /-- The number of bytes that have been processed. -/
  position : ℕ

/-- Encrypt or decrypt bytes. -/
def cryptoCipherCryptInplace (cipher : CryptoCipher) (buf : Buffer) (len : ℕ) :
    CryptoCipher × Buffer :=
  ({ cipher with position := cipher.position + len },
    fun k => if k < len then buf k ^^^ cipher.keystream (cipher.position + k) else buf k)

/-- A running digest: all bytes that have been added. -/
abbrev CryptoDigest := List UInt8

def cryptoDigestAddBytes (digest : CryptoDigest) (buf : Buffer) (len : ℕ) : CryptoDigest :=
  digest ++ (range len).map buf

/-! ### The header of a relay cell -/

def relayHeaderSize : ℕ := 11

structure RelayHeader where
  command : UInt8
  /-- Zero for the hop that the cell is for. -/
  recognized : UInt16
  streamId : UInt16
  /-- The beginning of the digest. -/
  integrity : Buffer
  length : UInt16

def relayHeaderPack (dest : Buffer) (src : RelayHeader) : Buffer :=
  let dest := update dest 0 src.command
  let dest := setUInt16 dest 1 src.recognized
  let dest := setUInt16 dest 3 src.streamId
  let dest := copy dest 5 src.integrity 0 4
  setUInt16 dest 9 src.length

def relayHeaderUnpack (src : Buffer) : RelayHeader where
  command := src 0
  recognized := getUInt16 src 1
  streamId := getUInt16 src 3
  integrity := copy zero 0 src 5 4
  length := getUInt16 src 9

/-- The payload of a relay cell, before digest and encryption. -/
def relayCellPayload (relayCommand : UInt8) (streamId : UInt16) (data : List UInt8) : Buffer :=
  let rh : RelayHeader := ⟨relayCommand, 0, streamId, zero, UInt16.ofNat data.length⟩
  copy (relayHeaderPack zero rh) relayHeaderSize (fun k => data.getD k 0) 0 data.length

section Digests

/-! ### Digests of cells -/

variable (getDigest : CryptoDigest → Buffer)

/-- Add a cell to a digest, and put the digest into the cell. -/
def relaySetDigest (digest : CryptoDigest) (payload : Buffer) : CryptoDigest × Buffer :=
  let digest := cryptoDigestAddBytes digest payload cellPayloadSize
  let integrity := copy zero 0 (getDigest digest) 0 4
  (digest, relayHeaderPack payload { relayHeaderUnpack payload with integrity := integrity })

/-- What looking at a cell yields. -/
structure DigestResult where
  digest : CryptoDigest
  payload : Buffer
  recognized : Bool

/-- Whether the digest of a cell is right.  If not, the digest and the cell are restored. -/
def relayDigestMatches (digest : CryptoDigest) (payload : Buffer) : DigestResult :=
  let backupDigest := digest
  let rh := relayHeaderUnpack payload
  let receivedIntegrity := rh.integrity
  let rh := { rh with integrity := zero }
  let payload := relayHeaderPack payload rh
  let digest := cryptoDigestAddBytes digest payload cellPayloadSize
  let calculatedIntegrity := copy zero 0 (getDigest digest) 0 4
  if !(range 4).all fun k => calculatedIntegrity k = receivedIntegrity k then
    ⟨backupDigest, relayHeaderPack payload { rh with integrity := receivedIntegrity }, false⟩
  else ⟨digest, payload, true⟩

/-- Whether a cell is for the hop that looks at it. -/
def relayRecognize (digest : CryptoDigest) (payload : Buffer) : DigestResult :=
  let rh := relayHeaderUnpack payload
  if rh.recognized = 0 then relayDigestMatches getDigest digest payload
  else ⟨digest, payload, false⟩

end Digests

/-- Encrypt or decrypt a cell. -/
def relayCryptOnePayload (cipher : CryptoCipher) (payload : Buffer) : CryptoCipher × Buffer :=
  cryptoCipherCryptInplace cipher payload cellPayloadSize

/-! ### The two ends of a circuit -/

inductive CpathState
  /-- Not yet extended to. -/
  | closed
  /-- The handshake is under way. -/
  | awaitingKeys
  | isOpen
  deriving DecidableEq

/-- What the client knows about a hop. -/
structure CryptPathHop where
  /-- The cipher for cells to the hop. -/
  fCrypto : CryptoCipher
  /-- The cipher for cells from the hop. -/
  bCrypto : CryptoCipher
  /-- The digest of cells to the hop. -/
  fDigest : CryptoDigest
  /-- The digest of cells from the hop. -/
  bDigest : CryptoDigest
  state : CpathState

/-- What a hop knows. -/
structure OrCircuit where
  /-- The cipher for cells from the client. -/
  nCrypto : CryptoCipher
  /-- The cipher for cells to the client. -/
  pCrypto : CryptoCipher
  /-- The digest of cells from the client. -/
  nDigest : CryptoDigest
  /-- The digest of cells to the client. -/
  pDigest : CryptoDigest

section Crypt

variable (getDigest : CryptoDigest → Buffer)

/-- What crypting a cell at a hop yields. -/
structure OrCryptResult where
  /-- The hop afterwards. -/
  circ : OrCircuit
  payload : Buffer
  recognized : Bool

/-- `relay_crypt` at a hop, for a cell from the client. -/
def relayCryptOut (circ : OrCircuit) (payload : Buffer) : OrCryptResult :=
  let r := relayCryptOnePayload circ.nCrypto payload
  let m := relayRecognize getDigest circ.nDigest r.2
  ⟨{ circ with nCrypto := r.1, nDigest := m.digest }, m.payload, m.recognized⟩

/-- `relay_crypt` at a hop, for a cell to the client. -/
def relayCryptIn (circ : OrCircuit) (payload : Buffer) : OrCryptResult :=
  let r := relayCryptOnePayload circ.pCrypto payload
  ⟨{ circ with pCrypto := r.1 }, r.2, false⟩

/-- What crypting a cell at the client yields. -/
structure OriginCryptResult where
  cpath : ℕ → CryptPathHop
  payload : Buffer
  /-- The hop that the cell is from, if it is recognized. -/
  layerHint : Option ℕ

/-- The loop of `relay_crypt` over the hops of the client, from `thishop` on. -/
def relayCryptLoop (len : ℕ) : ℕ → ℕ → (ℕ → CryptPathHop) → Buffer → OriginCryptResult
  | 0, _, cpath, payload => ⟨cpath, payload, none⟩
  | n + 1, thishop, cpath, payload =>
    let r := relayCryptOnePayload (cpath thishop).bCrypto payload
    let m := relayRecognize getDigest (cpath thishop).bDigest r.2
    let cpath := update cpath thishop
      { cpath thishop with bCrypto := r.1, bDigest := m.digest }
    if m.recognized then ⟨cpath, m.payload, some thishop⟩
    else if thishop + 1 ≠ len ∧ (cpath (thishop + 1)).state = .isOpen then
      relayCryptLoop len n (thishop + 1) cpath m.payload
    else ⟨cpath, m.payload, none⟩

/-- `relay_crypt` at the client, whose circuit has `len` hops. -/
def relayCryptOrigin (len : ℕ) (cpath : ℕ → CryptPathHop) (payload : Buffer) : OriginCryptResult :=
  if (cpath 0).state ≠ .isOpen then ⟨cpath, payload, none⟩
  else relayCryptLoop getDigest len len 0 cpath payload

/-- The loop of `circuit_package_relay_cell` over the hops of the client, from `thishop` to the
first one. -/
def packageLoop : ℕ → (ℕ → CryptPathHop) → Buffer → (ℕ → CryptPathHop) × Buffer
  | thishop, cpath, payload =>
    let r := relayCryptOnePayload (cpath thishop).fCrypto payload
    let cpath := update cpath thishop { cpath thishop with fCrypto := r.1 }
    match thishop with
    | 0 => (cpath, r.2)
    | prev + 1 => packageLoop prev cpath r.2

/-- `circuit_package_relay_cell` at the client, for a cell to the hop `layerHint`. -/
def circuitPackageOut (layerHint : ℕ) (cpath : ℕ → CryptPathHop) (payload : Buffer) :
    (ℕ → CryptPathHop) × Buffer :=
  let r := relaySetDigest getDigest (cpath layerHint).fDigest payload
  let cpath := update cpath layerHint { cpath layerHint with fDigest := r.1 }
  packageLoop layerHint cpath r.2

/-- `circuit_package_relay_cell` at a hop, for a cell to the client. -/
def circuitPackageIn (circ : OrCircuit) (payload : Buffer) : OrCircuit × Buffer :=
  let r := relaySetDigest getDigest circ.pDigest payload
  let c := relayCryptOnePayload circ.pCrypto r.2
  ({ circ with pDigest := r.1, pCrypto := c.1 }, c.2)

end Crypt

/-! ### What the operations do -/

/-- The bytes that are added to a digest for a cell. -/
def payloadBytes (payload : Buffer) : List UInt8 := (range cellPayloadSize).map payload

def sealPayload (getDigest : CryptoDigest → Buffer) (digest : CryptoDigest) (payload : Buffer) :
    Buffer :=
  copy payload 5 (getDigest (digest ++ payloadBytes payload)) 0 4

/-- A payload as it is packaged: `recognized` and the place for the digest are zero. -/
structure IsBlank (payload : Buffer) : Prop where
  /-- The field `recognized`. -/
  recognized : getUInt16 payload 1 = 0
  integrity : ∀ k < 4, payload (5 + k) = 0

section Specs

variable {getDigest : CryptoDigest → Buffer} {digest : CryptoDigest} {payload : Buffer}

/-- Writing a header back, with other integrity bytes. -/
lemma relayHeaderPack_unpack (payload integrity : Buffer) :
    relayHeaderPack payload { relayHeaderUnpack payload with integrity := integrity } =
      copy payload 5 integrity 0 4 := by
  have hlength : getUInt16 payload 9 = getUInt16 (copy payload 5 integrity 0 4) 9 :=
    (getUInt16_copy (by omega)).symm
  unfold relayHeaderPack relayHeaderUnpack
  dsimp only
  rw [update_eq_self, setUInt16_getUInt16, setUInt16_getUInt16, hlength,
    setUInt16_getUInt16]

lemma relayCryptOnePayload_twice (cipher : CryptoCipher) (payload : Buffer) :
    (relayCryptOnePayload cipher (relayCryptOnePayload cipher payload).2).2 = payload := by
  funext k
  unfold relayCryptOnePayload cryptoCipherCryptInplace
  dsimp only
  split_ifs with hk
  · rw [UInt8.xor_assoc, UInt8.xor_self, UInt8.xor_zero]
  · rfl

lemma relaySetDigest_eq : relaySetDigest getDigest digest payload =
    (digest ++ payloadBytes payload, sealPayload getDigest digest payload) := by
  unfold relaySetDigest
  dsimp only
  rw [relayHeaderPack_unpack, copy_copy]
  rfl

lemma relayHeaderPack_restore (payload : Buffer) :
    relayHeaderPack (copy payload 5 zero 0 4)
        { relayHeaderUnpack payload with integrity := (relayHeaderUnpack payload).integrity } =
      payload := by
  have hheader : { relayHeaderUnpack payload with
      integrity := (relayHeaderUnpack payload).integrity } =
      { relayHeaderUnpack (copy payload 5 zero 0 4) with
        integrity := (relayHeaderUnpack payload).integrity } := by
    unfold relayHeaderUnpack
    dsimp only
    rw [getUInt16_copy (by omega), getUInt16_copy (by omega), getUInt16_copy (by omega),
      copy_of_notMem (by omega)]
  rw [hheader, relayHeaderPack_unpack, copy_overwrite]
  apply copy_eq_self
  intro k hk
  unfold relayHeaderUnpack
  dsimp only
  rw [copy_of_mem (by omega) (by omega)]
  congr 1
  omega

/-- **A cell that is not recognized is restored**, and so is the digest. -/
lemma relayRecognize_of_not (h : (relayRecognize getDigest digest payload).recognized = false) :
    relayRecognize getDigest digest payload = ⟨digest, payload, false⟩ := by
  unfold relayRecognize at h ⊢
  dsimp only at h ⊢
  split_ifs at h ⊢ with hzero
  · unfold relayDigestMatches at h ⊢
    dsimp only at h ⊢
    split_ifs at h ⊢ with hmatch
    rw [relayHeaderPack_unpack]
    exact congrArg (DigestResult.mk digest · false) (relayHeaderPack_restore payload)
  · rfl

/-- **A cell is recognized by the hop that it is for.** -/
lemma relayRecognize_sealPayload (h : IsBlank payload) :
    relayRecognize getDigest digest (sealPayload getDigest digest payload) =
      ⟨digest ++ payloadBytes payload, payload, true⟩ := by
  have hrecognized : getUInt16 (sealPayload getDigest digest payload) 1 = 0 := by
    rw [sealPayload, getUInt16_copy (by omega)]
    exact h.recognized
  have hclear : relayHeaderPack (sealPayload getDigest digest payload)
      { relayHeaderUnpack (sealPayload getDigest digest payload) with integrity := zero } =
      payload := by
    rw [relayHeaderPack_unpack, sealPayload, copy_overwrite]
    apply copy_eq_self
    intro k hk
    rw [h.integrity k hk]
    rfl
  have hmatch : ((range 4).all fun k =>
      copy zero 0 (getDigest (cryptoDigestAddBytes digest payload cellPayloadSize)) 0 4 k =
        (relayHeaderUnpack (sealPayload getDigest digest payload)).integrity k) = true := by
    rw [List.all_eq_true]
    intro k hk
    rw [decide_eq_true_iff]
    unfold relayHeaderUnpack sealPayload
    dsimp only
    rw [copy_copy]
    rfl
  unfold relayRecognize
  dsimp only
  rw [if_pos (show (relayHeaderUnpack _).recognized = 0 from hrecognized)]
  unfold relayDigestMatches
  dsimp only
  rw [hclear, hmatch]
  rfl

lemma isBlank_relayCellPayload (relayCommand : UInt8) (streamId : UInt16) (data : List UInt8) :
    IsBlank (relayCellPayload relayCommand streamId data) := by
  have hsize : relayHeaderSize = 11 := rfl
  unfold relayCellPayload relayHeaderPack
  dsimp only
  constructor
  · rw [getUInt16_copy (by omega), getUInt16_setUInt16_of_disjoint (by omega),
      getUInt16_copy (by omega), getUInt16_setUInt16_of_disjoint (by omega), getUInt16_setUInt16]
  · intro k hk
    rw [copy_of_notMem (by omega), setUInt16_of_ne (by omega) (by omega),
      copy_of_mem (by omega) (by omega)]
    rfl

end Specs

end Astoria
