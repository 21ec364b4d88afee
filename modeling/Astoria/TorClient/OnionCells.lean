import Mathlib
import Astoria.Library.ByteBuffer

/-!
# Cells that build circuits

A client asks the last relay of a circuit to extend it by an EXTEND or EXTEND2 cell.  The relay
sends the handshake in it to the next relay in a CREATE or CREATE2 cell, and the reply, a CREATED or
CREATED2 cell, back to the client in an EXTENDED or EXTENDED2 cell.  Every kind of cell has a parser
and a formatter.

The parsers read memory from an address on, of which a declared number of bytes is the cell.  Arrays
in parsed cells are buffers that are cleared behind the bytes that are used, and addresses are kept
in network order.  A parser or formatter yields `none` where it returns an error; the assertions of
the formatters are kept apart.
-/

namespace Astoria

open List Option
open ByteBuffer
open Function

/-! ### Constants -/

def cellPayloadSize : ℕ := 509

/-- The bytes in a relay cell behind its header. -/
def relayPayloadSize : ℕ := 498

def digestLen : ℕ := 20

/-- The length of the onionskin of the original handshake. -/
def tapOnionskinChallengeLen : ℕ := 186

/-- The length of the reply of the original handshake. -/
def tapOnionskinReplyLen : ℕ := 148

/-- The length of the onionskin of the handshake with elliptic curves. -/
def ntorOnionskinLen : ℕ := 84

def ntorReplyLen : ℕ := 64

/-- The length of the onionskin of the handshake without public keys. -/
def createFastLen : ℕ := 20

/-- The length of its reply. -/
def createdFastLen : ℕ := 40

def cellCreate : UInt8 := 1

def cellCreated : UInt8 := 2

def cellCreateFast : UInt8 := 5

def cellCreatedFast : UInt8 := 6

def cellCreate2 : UInt8 := 10

def cellCreated2 : UInt8 := 11

def relayCommandExtend : UInt8 := 6

def relayCommandExtended : UInt8 := 7

def relayCommandExtend2 : UInt8 := 14

def relayCommandExtended2 : UInt8 := 15

def handshakeTypeTap : UInt16 := 0

/-- The handshake without public keys. -/
def handshakeTypeFast : UInt16 := 1

/-- The handshake with elliptic curves. -/
def handshakeTypeNtor : UInt16 := 2

/-- The text that marks a handshake with elliptic curves in the place of the original one. -/
def ntorCreateMagic : Buffer := fun k =>
  (['n', 't', 'o', 'r', 'N', 'T', 'O', 'R', 'n', 't', 'o', 'r', 'N', 'T', 'O', 'R'].map
    fun c => UInt8.ofNat c.toNat).getD k 0

/-- Whether the mark is at a place. -/
def isNtorCreateMagic (p : Buffer) (i : ℕ) : Bool :=
  (range 16).all fun k => p (i + k) = ntorCreateMagic k

/-! ### The cells -/

/-- A cell, as it is sent from relay to relay. -/
structure Cell where
  command : UInt8
  payload : Buffer

/-- A parsed CREATE, CREATE_FAST or CREATE2 cell. -/
structure CreateCell where
  cellType : UInt8
  handshakeType : UInt16
  /-- The number of bytes in the onionskin. -/
  handshakeLen : UInt16
  /-- The message of the client. -/
  onionskin : Buffer

/-- A parsed CREATED, CREATED_FAST or CREATED2 cell. -/
structure CreatedCell where
  cellType : UInt8
  /-- The number of bytes in the reply. -/
  handshakeLen : UInt16
  /-- The message of the server. -/
  reply : Buffer

inductive AddrFamily
  /-- No address. -/
  | unspec
  /-- An IPv4 address. -/
  | inet
  /-- An IPv6 address. -/
  | inet6
  deriving DecidableEq

structure AddrPort where
  family : AddrFamily
  addr : Buffer
  port : UInt16

def AddrPort.unspec : AddrPort := ⟨.unspec, zero, 0⟩

structure ExtendCell where
  /-- The relay command. -/
  cellType : UInt8
  /-- The IPv4 address of the next relay. -/
  orportIpv4 : AddrPort
  /-- The IPv6 address of the next relay. -/
  orportIpv6 : AddrPort
  /-- The identity of the next relay. -/
  nodeId : Buffer
  /-- The cell for the next relay. -/
  createCell : CreateCell

structure ExtendedCell where
  /-- The relay command. -/
  cellType : UInt8
  /-- The cell of the next relay. -/
  createdCell : CreatedCell

/-! ### CREATE cells -/

/-- Whether a CREATE cell is valid.  Other kinds of handshakes are allowed if `unknownOk`. -/
def checkCreateCell (cell : CreateCell) (unknownOk : Bool) : Bool :=
  (if cell.cellType = cellCreate then
      cell.handshakeType = handshakeTypeTap || cell.handshakeType = handshakeTypeNtor
    else if cell.cellType = cellCreateFast then cell.handshakeType = handshakeTypeFast
    else cell.cellType = cellCreate2) &&
  (if cell.handshakeType = handshakeTypeTap then
      cell.handshakeLen.toNat = tapOnionskinChallengeLen
    else if cell.handshakeType = handshakeTypeFast then cell.handshakeLen.toNat = createFastLen
    else if cell.handshakeType = handshakeTypeNtor then cell.handshakeLen.toNat = ntorOnionskinLen
    else unknownOk)

/-- Fill in a CREATE cell, with the onionskin at a place. -/
def createCellInit (cellType : UInt8) (handshakeType handshakeLen : UInt16) (p : Buffer) (i : ℕ) :
    CreateCell :=
  ⟨cellType, handshakeType, handshakeLen, copy zero 0 p i handshakeLen.toNat⟩

/-- Parse the payload of a CREATE2 cell at a place, of the given length at most. -/
def parseCreate2Payload (p : Buffer) (i pLen : ℕ) : Option CreateCell :=
  if pLen < 4 then none
  else
    let handshakeType := getUInt16 p i
    let handshakeLen := getUInt16 p (i + 2)
    if cellPayloadSize - 4 < handshakeLen.toNat ∨ pLen - 4 < handshakeLen.toNat then none
    else if handshakeType = handshakeTypeFast then none
    else some (createCellInit cellCreate2 handshakeType handshakeLen p (i + 4))

/-- Parse a CREATE, CREATE_FAST or CREATE2 cell. -/
def createCellParse (cellIn : Cell) : Option CreateCell :=
  let parsed :=
    if cellIn.command = cellCreate then
      if isNtorCreateMagic cellIn.payload 0 then
        some (createCellInit cellCreate handshakeTypeNtor (UInt16.ofNat ntorOnionskinLen)
          cellIn.payload 16)
      else
        some (createCellInit cellCreate handshakeTypeTap (UInt16.ofNat tapOnionskinChallengeLen)
          cellIn.payload 0)
    else if cellIn.command = cellCreateFast then
      some (createCellInit cellCreateFast handshakeTypeFast (UInt16.ofNat createFastLen)
        cellIn.payload 0)
    else if cellIn.command = cellCreate2 then parseCreate2Payload cellIn.payload 0 cellPayloadSize
    else none
  parsed.filter fun cell => checkCreateCell cell false

/-- Format a CREATE, CREATE_FAST or CREATE2 cell, which may be relayed.  The outer `none` is a
failed assertion. -/
def createCellFormatImpl (cellIn : CreateCell) (relayed : Bool) : Option (Option Cell) :=
  if ¬ checkCreateCell cellIn relayed then some none
  else if cellIn.cellType = cellCreate2 then
    if cellPayloadSize - 4 < cellIn.handshakeLen.toNat then none
    else
      some (some ⟨cellIn.cellType,
        copy (setUInt16 (setUInt16 zero 0 cellIn.handshakeType) 2 cellIn.handshakeLen) 4
          cellIn.onionskin 0 cellIn.handshakeLen.toNat⟩)
  else
    let magic := cellIn.cellType = cellCreate ∧ cellIn.handshakeType = handshakeTypeNtor
    let p := if magic then copy zero 0 ntorCreateMagic 0 16 else zero
    let i := if magic then 16 else 0
    if cellPayloadSize - i < cellIn.handshakeLen.toNat then none
    else some (some ⟨cellIn.cellType, copy p i cellIn.onionskin 0 cellIn.handshakeLen.toNat⟩)

def createCellFormatRelayed (cellIn : CreateCell) : Option (Option Cell) :=
  createCellFormatImpl cellIn true

/-! ### CREATED cells -/

def checkCreatedCell (cell : CreatedCell) : Bool :=
  if cell.cellType = cellCreated then
    cell.handshakeLen.toNat = tapOnionskinReplyLen || cell.handshakeLen.toNat = ntorReplyLen
  else if cell.cellType = cellCreatedFast then cell.handshakeLen.toNat = createdFastLen
  else if cell.cellType = cellCreated2 then cell.handshakeLen.toNat ≤ relayPayloadSize - 2
  else true

/-- Fill in a CREATED cell, with the reply at a place. -/
def createdCellInit (cellType : UInt8) (handshakeLen : UInt16) (p : Buffer) (i : ℕ) : CreatedCell :=
  ⟨cellType, handshakeLen, copy zero 0 p i handshakeLen.toNat⟩

/-- Parse a CREATED, CREATED_FAST or CREATED2 cell.  For other commands the cell stays cleared. -/
def createdCellParse (cellIn : Cell) : Option CreatedCell :=
  let parsed :=
    if cellIn.command = cellCreated then
      some (createdCellInit cellCreated (UInt16.ofNat tapOnionskinReplyLen) cellIn.payload 0)
    else if cellIn.command = cellCreatedFast then
      some (createdCellInit cellCreatedFast (UInt16.ofNat createdFastLen) cellIn.payload 0)
    else if cellIn.command = cellCreated2 then
      if cellPayloadSize - 2 < (getUInt16 cellIn.payload 0).toNat then none
      else some (createdCellInit cellCreated2 (getUInt16 cellIn.payload 0) cellIn.payload 2)
    else some ⟨0, 0, zero⟩
  parsed.filter checkCreatedCell

/-- Format a CREATED, CREATED_FAST or CREATED2 cell.  The outer `none` is a failed assertion. -/
def createdCellFormat (cellIn : CreatedCell) : Option (Option Cell) :=
  if ¬ checkCreatedCell cellIn then some none
  else if cellIn.cellType = cellCreated ∨ cellIn.cellType = cellCreatedFast then
    if cellPayloadSize < cellIn.handshakeLen.toNat then none
    else some (some ⟨cellIn.cellType, copy zero 0 cellIn.reply 0 cellIn.handshakeLen.toNat⟩)
  else if cellIn.cellType = cellCreated2 then
    if cellPayloadSize - 2 < cellIn.handshakeLen.toNat then none
    else
      some (some ⟨cellIn.cellType,
        copy (setUInt16 zero 0 cellIn.handshakeLen) 2 cellIn.reply 0 cellIn.handshakeLen.toNat⟩)
  else some none

/-! ### EXTEND cells -/

/-- Whether the identity is cleared. -/
def digestIsZero (digest : Buffer) : Bool := (range digestLen).all fun k => digest k = 0

def checkExtendCell (cell : ExtendCell) : Bool :=
  !digestIsZero cell.nodeId && cell.orportIpv4.family ≠ .unspec &&
  (if cell.createCell.cellType = cellCreate then cell.cellType = relayCommandExtend
    else if cell.createCell.cellType = cellCreate2 then
      cell.cellType = relayCommandExtend2 || cell.cellType = relayCommandExtend
    else false) &&
  cell.createCell.handshakeType ≠ handshakeTypeFast && checkCreateCell cell.createCell true

/-- The state of the parser of link specifiers. -/
structure SpecParser where
  /-- The place of the next specifier. -/
  payload : ℕ
  /-- Whether there was an IPv4 address. -/
  foundIpv4 : Bool
  /-- Whether there was an IPv6 address. -/
  foundIpv6 : Bool
  foundId : Bool
  /-- The first IPv4 address. -/
  orportIpv4 : AddrPort
  /-- The first IPv6 address. -/
  orportIpv6 : AddrPort
  nodeId : Buffer

/-- Parse a link specifier in a cell of the given length. -/
def parseSpec (p : Buffer) (payloadLength : ℕ) (s : SpecParser) : Option SpecParser :=
  if payloadLength < s.payload + 2 then none
  else
    let spectype := p s.payload
    let speclen := (p (s.payload + 1)).toNat
    let start := s.payload + 2
    let s := { s with payload := start + speclen }
    if payloadLength < start + speclen then none
    else if spectype = 0 then
      if speclen ≠ 6 then none
      else if s.foundIpv4 then some s
      else some { s with
        foundIpv4 := true, orportIpv4 := ⟨.inet, copy zero 0 p start 4, getUInt16 p (start + 4)⟩ }
    else if spectype = 1 then
      if speclen ≠ 18 then none
      else if s.foundIpv6 then some s
      else some { s with
        foundIpv6 := true
        orportIpv6 := ⟨.inet6, copy zero 0 p start 16, getUInt16 p (start + 16)⟩ }
    else if spectype = 2 then
      if speclen ≠ 20 ∨ s.foundId then none
      else some { s with foundId := true, nodeId := copy zero 0 p start 20 }
    else some s

def parseSpecs (p : Buffer) (payloadLength : ℕ) : ℕ → SpecParser → Option SpecParser
  | 0, s => some s
  | n + 1, s => (parseSpec p payloadLength s).bind (parseSpecs p payloadLength n)

/-- Parse the payload of an EXTEND or EXTEND2 cell, according to its relay command. -/
def extendCellParse (command : UInt8) (p : Buffer) (payloadLength : ℕ) : Option ExtendCell :=
  let parsed :=
    if relayPayloadSize < payloadLength then none
    else if command = relayCommandExtend then
      if payloadLength ≠ 6 + tapOnionskinChallengeLen + digestLen then none
      else
        some {
          cellType := relayCommandExtend
          orportIpv4 := ⟨.inet, copy zero 0 p 0 4, getUInt16 p 4⟩
          orportIpv6 := .unspec
          nodeId := copy zero 0 p (6 + tapOnionskinChallengeLen) digestLen
          createCell :=
            if isNtorCreateMagic p 6 then
              createCellInit cellCreate2 handshakeTypeNtor (UInt16.ofNat ntorOnionskinLen) p 22
            else
              createCellInit cellCreate handshakeTypeTap (UInt16.ofNat tapOnionskinChallengeLen) p
                6 }
    else if command = relayCommandExtend2 then
      if payloadLength = 0 then none
      else do
        let s ← parseSpecs p payloadLength (p 0).toNat
          ⟨1, false, false, false, .unspec, .unspec, zero⟩
        if ¬ s.foundId ∨ ¬ s.foundIpv4 then none
        else
          let createCell ← parseCreate2Payload p s.payload (payloadLength - s.payload)
          return ⟨relayCommandExtend2, s.orportIpv4, s.orportIpv6, s.nodeId, createCell⟩
    else none
  parsed.filter checkExtendCell

def addrToIpv4n (a : AddrPort) : Buffer := if a.family = .inet then a.addr else zero

/-- Format an EXTEND or EXTEND2 cell: its relay command, its length and its payload. -/
def extendCellFormat (cellIn : ExtendCell) : Option (UInt8 × ℕ × Buffer) :=
  if ¬ checkExtendCell cellIn then none
  else if cellIn.cellType = relayCommandExtend then
    let p := copy zero 0 (addrToIpv4n cellIn.orportIpv4) 0 4
    let p := setUInt16 p 4 cellIn.orportIpv4.port
    let p :=
      if cellIn.createCell.handshakeType = handshakeTypeNtor then
        copy (copy p 6 ntorCreateMagic 0 16) 22 cellIn.createCell.onionskin 0 ntorOnionskinLen
      else copy p 6 cellIn.createCell.onionskin 0 tapOnionskinChallengeLen
    let p := copy p (6 + tapOnionskinChallengeLen) cellIn.nodeId 0 digestLen
    some (relayCommandExtend, 6 + tapOnionskinChallengeLen + digestLen, p)
  else if cellIn.cellType = relayCommandExtend2 then
    let p := update (update (update zero 0 2) 1 0) 2 6
    let p := copy p 3 (addrToIpv4n cellIn.orportIpv4) 0 4
    let p := setUInt16 p 7 cellIn.orportIpv4.port
    let p := update (update p 9 2) 10 20
    let p := copy p 11 cellIn.nodeId 0 digestLen
    let p := setUInt16 p 31 cellIn.createCell.handshakeType
    let p := setUInt16 p 33 cellIn.createCell.handshakeLen
    if relayPayloadSize - 35 < cellIn.createCell.handshakeLen.toNat then none
    else
      let p := copy p 35 cellIn.createCell.onionskin 0 cellIn.createCell.handshakeLen.toNat
      some (relayCommandExtend2, 35 + cellIn.createCell.handshakeLen.toNat, p)
  else none

/-! ### EXTENDED cells -/

def checkExtendedCell (cell : ExtendedCell) : Bool :=
  (if cell.createdCell.cellType = cellCreated then cell.cellType = relayCommandExtended
    else if cell.createdCell.cellType = cellCreated2 then cell.cellType = relayCommandExtended2
    else false) && checkCreatedCell cell.createdCell

/-- Parse the payload of an EXTENDED or EXTENDED2 cell, according to its relay command.  The
difference of the lengths is computed in 64 bits without a sign. -/
def extendedCellParse (command : UInt8) (p : Buffer) (payloadLen : ℕ) : Option ExtendedCell :=
  let parsed :=
    if relayPayloadSize < payloadLen then none
    else if command = relayCommandExtended then
      if payloadLen ≠ tapOnionskinReplyLen then none
      else
        some ⟨relayCommandExtended,
          createdCellInit cellCreated (UInt16.ofNat tapOnionskinReplyLen) p 0⟩
    else if command = relayCommandExtended2 then
      if relayPayloadSize - 2 < (getUInt16 p 0).toNat ∨
          (payloadLen + 2 ^ 64 - 2) % 2 ^ 64 < (getUInt16 p 0).toNat then none
      else some ⟨relayCommandExtended2, createdCellInit cellCreated2 (getUInt16 p 0) p 2⟩
    else none
  parsed.filter checkExtendedCell

/-- Format an EXTENDED or EXTENDED2 cell: its relay command, its length and its payload. -/
def extendedCellFormat (cellIn : ExtendedCell) : Option (UInt8 × ℕ × Buffer) :=
  if ¬ checkExtendedCell cellIn then none
  else if cellIn.cellType = relayCommandExtended then
    some (relayCommandExtended, tapOnionskinReplyLen,
      copy zero 0 cellIn.createdCell.reply 0 tapOnionskinReplyLen)
  else if cellIn.cellType = relayCommandExtended2 then
    if relayPayloadSize < 2 + cellIn.createdCell.handshakeLen.toNat then none
    else
      some (relayCommandExtended2, 2 + cellIn.createdCell.handshakeLen.toNat,
        copy (setUInt16 zero 0 cellIn.createdCell.handshakeLen) 2 cellIn.createdCell.reply 0
          cellIn.createdCell.handshakeLen.toNat)
  else none

/-- The EXTENDED or EXTENDED2 cell for the client, made of a CREATED or CREATED2 cell. -/
def commandProcessCreatedCell (createdCell : CreatedCell) : ExtendedCell :=
  ⟨if createdCell.cellType = cellCreated2 then relayCommandExtended2 else relayCommandExtended,
    createdCell⟩

/-! ### What the parsers read -/

section Congruence

variable {p q : Buffer} {len : ℕ}

/-- A link specifier depends on the bytes of the cell. -/
lemma parseSpec_congr (h : ∀ k < len, p k = q k) (s : SpecParser) :
    parseSpec p len s = parseSpec q len s := by
  unfold parseSpec
  by_cases hhead : len < s.payload + 2
  · rw [if_pos hhead, if_pos hhead]
  rw [if_neg hhead, if_neg hhead, h s.payload (by omega), h (s.payload + 1) (by omega)]
  dsimp only
  by_cases hbody : len < s.payload + 2 + (q (s.payload + 1)).toNat
  · rw [if_pos hbody, if_pos hbody]
  rw [if_neg hbody, if_neg hbody]
  have hcopy : ∀ n ≤ (q (s.payload + 1)).toNat,
      copy zero 0 p (s.payload + 2) n = copy zero 0 q (s.payload + 2) n :=
    fun n hn => copy_congr fun k hk => h _ (by omega)
  have hnumber : ∀ i, i + 2 ≤ (q (s.payload + 1)).toNat →
      getUInt16 p (s.payload + 2 + i) = getUInt16 q (s.payload + 2 + i) :=
    fun i hi => getUInt16_congr (h _ (by omega)) (h _ (by omega))
  split_ifs with h₁ h₂ h₃ h₄ h₅ h₆ h₇ h₈
  · rfl
  · rfl
  · rw [hcopy 4 (by omega), hnumber 4 (by omega)]
  · rfl
  · rfl
  · rw [hcopy 16 (by omega), hnumber 16 (by omega)]
  · rfl
  · rw [hcopy 20 (by omega)]
  · rfl

/-- Link specifiers depend on the bytes of the cell. -/
lemma parseSpecs_congr (h : ∀ k < len, p k = q k) (n : ℕ) (s : SpecParser) :
    parseSpecs p len n s = parseSpecs q len n s := by
  induction n generalizing s with
  | zero => rfl
  | succ n ih =>
    rw [parseSpecs, parseSpecs, parseSpec_congr h]
    congr 1
    funext s'
    exact ih s'

/-- The payload of a CREATE2 cell depends on its bytes. -/
lemma parseCreate2Payload_congr (h : ∀ k < len, p k = q k) (i : ℕ) :
    parseCreate2Payload p i (len - i) = parseCreate2Payload q i (len - i) := by
  unfold parseCreate2Payload
  by_cases hlen : len - i < 4
  · rw [if_pos hlen, if_pos hlen]
  rw [if_neg hlen, if_neg hlen, getUInt16_congr (h i (by omega)) (h (i + 1) (by omega)),
    getUInt16_congr (h (i + 2) (by omega)) (h (i + 2 + 1) (by omega))]
  dsimp only
  split_ifs with hbound
  · rfl
  · rfl
  · rw [createCellInit, createCellInit, copy_congr fun k hk => h (i + 4 + k) (by omega)]

lemma isNtorCreateMagic_congr {i : ℕ} (h : ∀ k < len, p k = q k) (hi : i + 16 ≤ len) :
    isNtorCreateMagic p i = isNtorCreateMagic q i := by
  unfold isNtorCreateMagic
  rw [Bool.eq_iff_iff, List.all_eq_true, List.all_eq_true]
  refine forall₂_congr fun k hk => ?_
  rw [h (i + k) (by have := mem_range.mp hk; omega)]

/-- **EXTEND cells depend on their bytes only.** -/
lemma extendCellParse_congr (command : UInt8) (h : ∀ k < len, p k = q k) :
    extendCellParse command p len = extendCellParse command q len := by
  unfold extendCellParse
  dsimp only
  congr 1
  by_cases hextend : command = relayCommandExtend
  · rw [if_pos hextend, if_pos hextend]
    by_cases hlen : len = 6 + tapOnionskinChallengeLen + digestLen
    · have h212 : len = 212 := hlen
      have hcopy : ∀ i n, i + n ≤ 212 → copy zero 0 p i n = copy zero 0 q i n :=
        fun i n hn => copy_congr fun k hk => h _ (by omega)
      have hinit : ∀ t x (y : UInt16) i, i + y.toNat ≤ 212 →
          createCellInit t x y p i = createCellInit t x y q i := by
        intro t x y i hi
        rw [createCellInit, createCellInit, hcopy i y.toNat hi]
      rw [hcopy 0 4 (by decide), getUInt16_congr (h 4 (by omega)) (h 5 (by omega)),
        hcopy (6 + tapOnionskinChallengeLen) digestLen (by decide),
        isNtorCreateMagic_congr h (by omega), hinit _ _ _ 22 (by decide), hinit _ _ _ 6 (by decide)]
    · rw [if_pos (show len ≠ _ from hlen), if_pos (show len ≠ _ from hlen)]
  · rw [if_neg hextend, if_neg hextend]
    split_ifs with hlong hextend2 hzero
    · rfl
    · rfl
    · rw [h 0 (by omega), parseSpecs_congr h]
      congr 1
      funext s
      rw [parseCreate2Payload_congr h]
    · rfl

/-- EXTENDED cells depend on their bytes, if they are not too short. -/
lemma extendedCellParse_congr {command : UInt8} (h : ∀ k < len, p k = q k)
    (hshort : ¬ (command = relayCommandExtended2 ∧ len < 2)) :
    extendedCellParse command p len = extendedCellParse command q len := by
  unfold extendedCellParse
  dsimp only
  congr 1
  have hinit : ∀ t (y : UInt16) i, i + y.toNat ≤ len →
      createdCellInit t y p i = createdCellInit t y q i := by
    intro t y i hi
    rw [createdCellInit, createdCellInit, copy_congr fun k hk => h (i + k) (by omega)]
  by_cases hextended2 : command = relayCommandExtended2
  · have htwo : 2 ≤ len := by
      by_contra hlt
      exact hshort ⟨hextended2, by omega⟩
    rw [getUInt16_congr (h 0 (by omega)) (h 1 (by omega)), if_pos hextended2, if_pos hextended2]
    have hne : command ≠ relayCommandExtended := by
      rw [hextended2]
      decide
    rw [if_neg hne, if_neg hne]
    split_ifs with hlong hbound
    · rfl
    · rfl
    · unfold relayPayloadSize at hlong
      rw [hinit _ _ 2 (by omega)]
  · rw [if_neg hextended2, if_neg hextended2]
    split_ifs with hlong hextended hlen
    · rfl
    · rfl
    · have h148 : len = 148 := not_not.mp hlen
      have htap : (UInt16.ofNat tapOnionskinReplyLen).toNat = 148 := by decide
      rw [hinit _ _ 0 (by omega)]
    · rfl

/-- A short EXTENDED2 cell of zeros is accepted, with a reply of the length behind its bytes. -/
lemma extendedCellParse_short (hlen : len < 2) : extendedCellParse relayCommandExtended2 zero len ≠
      extendedCellParse relayCommandExtended2 (update zero 1 1) len := by
  intro heq
  have hlen' : len = 0 ∨ len = 1 := by omega
  have hlens := congrArg (Option.map fun cell => cell.createdCell.handshakeLen) heq
  rcases hlen' with rfl | rfl
  · exact absurd hlens (by decide)
  · exact absurd hlens (by decide)

/-- **The parsers depend on the bytes of the cell**, for all commands and lengths but those of short
EXTENDED2 cells. -/
theorem extendParsers_congr_iff (command : UInt8) (len : ℕ) :
    (∀ p q : Buffer, (∀ k < len, p k = q k) →
      extendCellParse command p len = extendCellParse command q len ∧
        extendedCellParse command p len = extendedCellParse command q len) ↔
      ¬ (command = relayCommandExtended2 ∧ len < 2) := by
  constructor
  · rintro h ⟨rfl, hshort⟩
    refine extendedCellParse_short hshort (h _ _ fun k hk => ?_).2
    rw [update_of_ne (by omega)]
  · intro hshort p q h
    exact ⟨extendCellParse_congr command h, extendedCellParse_congr h hshort⟩

/-- The reply in an empty EXTENDED2 cell has the length behind its end. -/
theorem extendedCellParse_empty_payload :
    extendedCellParse relayCommandExtended2 zero 0 ≠
      extendedCellParse relayCommandExtended2 (update zero 1 1) 0 :=
  extendedCellParse_short (by decide)

end Congruence

/-! ### EXTEND cells are read back -/

/-- The bytes behind the first `n` are cleared. -/
def Cleared (b : Buffer) (n : ℕ) : Prop := copy zero 0 b 0 n = b

lemma cleared_copy (p : Buffer) (i n : ℕ) : Cleared (copy zero 0 p i n) n := copy_copy zero 0

lemma cleared_zero (n : ℕ) : Cleared zero n := by
  funext k
  by_cases hk : k < n
  · rw [copy_of_mem (by omega) (by omega)]
    rfl
  · rw [copy_of_notMem (by omega)]

structure ExtendCell.Parsed (cell : ExtendCell) : Prop where
  check : checkExtendCell cell = true
  family : cell.orportIpv4.family = .inet
  /-- The address has four bytes. -/
  addr : Cleared cell.orportIpv4.addr 4
  /-- The identity has twenty bytes. -/
  nodeId : Cleared cell.nodeId digestLen
  /-- The onionskin has as many bytes as it should. -/
  onionskin : Cleared cell.createCell.onionskin cell.createCell.handshakeLen.toNat
  /-- An EXTEND cell has one of two handshakes, and an EXTEND2 cell is not too long. -/
  kind :
    (cell.cellType = relayCommandExtend ∧ cell.createCell.cellType = cellCreate2 ∧
      cell.createCell.handshakeType = handshakeTypeNtor ∧
      cell.createCell.handshakeLen.toNat = ntorOnionskinLen) ∨
    (cell.cellType = relayCommandExtend ∧ cell.createCell.cellType = cellCreate ∧
      cell.createCell.handshakeType = handshakeTypeTap ∧
      cell.createCell.handshakeLen.toNat = tapOnionskinChallengeLen ∧
      isNtorCreateMagic cell.createCell.onionskin 0 = false) ∨
    (cell.cellType = relayCommandExtend2 ∧ cell.createCell.cellType = cellCreate2 ∧
      cell.createCell.handshakeType ≠ handshakeTypeFast ∧
      cell.createCell.handshakeLen.toNat ≤ relayPayloadSize - 35)

section ExtendCells

variable {cell : ExtendCell} {command : UInt8} {p : Buffer} {len : ℕ}

/-- The parser of link specifiers, with the bytes that it has read at least. -/
structure SpecParser.Inv (len : ℕ) (s : SpecParser) : Prop where
  /-- The next specifier is in the cell, behind those that have been found. -/
  payload_le : s.payload ≤ len
  le_payload : 1 + (if s.foundIpv4 then 8 else 0) + (if s.foundId then 22 else 0) ≤ s.payload
  /-- The IPv4 address. -/
  ipv4 : s.foundIpv4 = true → s.orportIpv4.family = .inet ∧ Cleared s.orportIpv4.addr 4
  nodeId : Cleared s.nodeId digestLen

lemma SpecParser.Inv.parseSpec {s s' : SpecParser} (h : s.Inv len)
    (hs : parseSpec p len s = some s') : s'.Inv len := by
  obtain ⟨hle, hfound, hipv4, hid⟩ := h
  unfold Astoria.parseSpec at hs
  dsimp only at hs
  split_ifs at hs with hhead hbody htype4 hlen4 hfound4 htype6 hlen6 hfound6 htypeId hlenId
  · obtain rfl := some.inj hs
    exact ⟨by dsimp only; omega, by dsimp only; omega, hipv4, hid⟩
  · obtain rfl := some.inj hs
    simp only [hfound4, Bool.false_eq_true, if_false] at hfound
    refine ⟨by dsimp only; omega, ?_, fun _ => ⟨rfl, cleared_copy p _ 4⟩, hid⟩
    dsimp only
    rw [if_pos rfl]
    omega
  · obtain rfl := some.inj hs
    exact ⟨by dsimp only; omega, by dsimp only; omega, hipv4, hid⟩
  · obtain rfl := some.inj hs
    exact ⟨by dsimp only; omega, by dsimp only; omega, hipv4, hid⟩
  · obtain rfl := some.inj hs
    have hnew : s.foundId = false := by
      by_contra hold
      exact hlenId (.inr (by simpa using hold))
    have hlen : (p (s.payload + 1)).toNat = 20 := by
      by_contra hne
      exact hlenId (.inl hne)
    simp only [hnew, Bool.false_eq_true, if_false] at hfound
    refine ⟨by dsimp only; omega, ?_, hipv4, cleared_copy p _ 20⟩
    dsimp only
    rw [if_pos rfl]
    omega
  · obtain rfl := some.inj hs
    exact ⟨by dsimp only; omega, by dsimp only; omega, hipv4, hid⟩

lemma SpecParser.Inv.parseSpecs {n : ℕ} {s s' : SpecParser} (h : s.Inv len)
    (hs : parseSpecs p len n s = some s') : s'.Inv len := by
  induction n generalizing s with
  | zero =>
    obtain rfl := some.inj hs
    exact h
  | succ n ih =>
    obtain ⟨s₁, hspec, hspecs⟩ := bind_eq_some_iff.mp hs
    exact ih (h.parseSpec hspec) hspecs

lemma parseCreate2Payload_eq_some {i n : ℕ} {created : CreateCell}
    (h : parseCreate2Payload p i n = some created) :
    created.cellType = cellCreate2 ∧ created.handshakeType ≠ handshakeTypeFast ∧
      created.handshakeLen.toNat + 4 ≤ n ∧
      Cleared created.onionskin created.handshakeLen.toNat := by
  unfold parseCreate2Payload at h
  dsimp only at h
  split_ifs at h with hshort hbound hfast
  obtain rfl := some.inj h
  refine ⟨rfl, hfast, ?_, cleared_copy p _ _⟩
  dsimp only [createCellInit]
  omega

lemma isNtorCreateMagic_copy (p : Buffer) (i : ℕ) :
    isNtorCreateMagic (copy zero 0 p i 16) 0 = isNtorCreateMagic p i := by
  unfold isNtorCreateMagic
  rw [Bool.eq_iff_iff, List.all_eq_true, List.all_eq_true]
  refine forall₂_congr fun k hk => ?_
  have hk16 := mem_range.mp hk
  rw [copy_of_mem (by omega) (by omega), Nat.zero_add, Nat.sub_zero]

lemma ExtendCell.Parsed.of_parse (h : extendCellParse command p len = some cell) :
    cell.Parsed := by
  unfold extendCellParse at h
  dsimp only at h
  obtain ⟨hsome, hcheck⟩ := filter_eq_some_iff.mp h
  by_cases hlong : relayPayloadSize < len
  · rw [if_pos hlong] at hsome
    exact absurd hsome (by simp)
  rw [if_neg hlong] at hsome
  by_cases hextend : command = relayCommandExtend
  · rw [if_pos hextend] at hsome
    split_ifs at hsome with hlen hmagic
    · obtain rfl := some.inj hsome
      exact ⟨hcheck, rfl, cleared_copy p _ _, cleared_copy p _ _, cleared_copy p _ _,
        .inl ⟨rfl, rfl, rfl, rfl⟩⟩
    · obtain rfl := some.inj hsome
      refine ⟨hcheck, rfl, cleared_copy p _ _, cleared_copy p _ _, cleared_copy p _ _,
        .inr (.inl ⟨rfl, rfl, rfl, rfl, ?_⟩)⟩
      have hcopy : copy zero 0 (copy zero 0 p 6 tapOnionskinChallengeLen) 0 16 =
          copy zero 0 p 6 16 :=
        copy_copy_of_le zero 0 (by decide)
      have hskin := isNtorCreateMagic_copy (copy zero 0 p 6 tapOnionskinChallengeLen) 0
      rw [hcopy, isNtorCreateMagic_copy] at hskin
      exact hskin.symm.trans (by simpa using hmagic)
  · rw [if_neg hextend] at hsome
    by_cases hextend2 : command = relayCommandExtend2 ∧ len ≠ 0
    · rw [if_pos hextend2.1, if_neg hextend2.2] at hsome
      obtain ⟨s, hspecs, hsome⟩ := bind_eq_some_iff.mp hsome
      have hinv : s.Inv len := by
        refine SpecParser.Inv.parseSpecs ⟨?_, ?_, ?_, ?_⟩ hspecs
        · dsimp only
          omega
        · exact Nat.le_refl 1
        · exact fun hfound => absurd hfound (by decide)
        · exact cleared_zero digestLen
      by_cases hmissing : ¬ s.foundId ∨ ¬ s.foundIpv4
      · rw [if_pos hmissing] at hsome
        exact absurd hsome (by simp)
      rw [if_neg hmissing] at hsome
      push Not at hmissing
      obtain ⟨created, hcreated, hsome⟩ := bind_eq_some_iff.mp hsome
      obtain rfl := some.inj hsome
      obtain ⟨hkind, hfast, hle, hcleared⟩ := parseCreate2Payload_eq_some hcreated
      obtain ⟨hfamily, haddr⟩ := hinv.ipv4 hmissing.2
      refine ⟨hcheck, hfamily, haddr, hinv.nodeId, hcleared,
        .inr (.inr ⟨rfl, hkind, hfast, ?_⟩)⟩
      have hread := hinv.le_payload
      rw [if_pos hmissing.1, if_pos hmissing.2] at hread
      unfold relayPayloadSize at hlong ⊢
      dsimp only
      omega
    · split_ifs at hsome with h₁ h₂
      exact absurd ⟨h₁, h₂⟩ hextend2

/-- The EXTEND cell that is parsed, by the fields that are read. -/
lemma ExtendCell.Parsed.parse_extend (h : cell.Parsed) (htype : cell.cellType = relayCommandExtend)
    (haddr : copy zero 0 p 0 4 = cell.orportIpv4.addr)
    (hport : getUInt16 p 4 = cell.orportIpv4.port)
    (hid : copy zero 0 p (6 + tapOnionskinChallengeLen) digestLen = cell.nodeId)
    (hcreate : (if isNtorCreateMagic p 6 then
        createCellInit cellCreate2 handshakeTypeNtor (UInt16.ofNat ntorOnionskinLen) p 22
      else
        createCellInit cellCreate handshakeTypeTap (UInt16.ofNat tapOnionskinChallengeLen) p 6) =
          cell.createCell) :
    extendCellParse relayCommandExtend p (6 + tapOnionskinChallengeLen + digestLen) =
      some { cell with orportIpv6 := .unspec } := by
  have hlong : ¬ relayPayloadSize < 6 + tapOnionskinChallengeLen + digestLen := by decide
  unfold extendCellParse
  dsimp only
  rw [if_neg hlong, if_pos rfl, if_neg (not_not.mpr rfl), haddr, hport, hid, hcreate, ← htype,
    ← h.family]
  exact filter_eq_some_iff.mpr ⟨rfl, h.check⟩

lemma createCellInit_eq {create : CreateCell} {t : UInt8} {x y : UInt16} {i : ℕ}
    (htype : create.cellType = t) (hhandshake : create.handshakeType = x)
    (hlen : create.handshakeLen = y)
    (hskin : copy zero 0 p i create.handshakeLen.toNat = create.onionskin) :
    createCellInit t x y p i = create := by
  rw [createCellInit, ← htype, ← hhandshake, ← hlen, hskin]

lemma uint16_eq_ofNat {x : UInt16} {n : ℕ} (h : x.toNat = n) : x = UInt16.ofNat n := by
  rw [← h, UInt16.ofNat_toNat]

/-- **An EXTEND cell that is formatted is parsed again.** -/
lemma ExtendCell.Parsed.extend (h : cell.Parsed) (htype : cell.cellType = relayCommandExtend) :
    ∃ out, extendCellFormat cell =
        some (relayCommandExtend, 6 + tapOnionskinChallengeLen + digestLen, out) ∧
      extendCellParse relayCommandExtend out (6 + tapOnionskinChallengeLen + digestLen) =
        some { cell with orportIpv6 := .unspec } := by
  unfold extendCellFormat
  rw [if_neg (not_not.mpr h.check), if_pos htype]
  refine ⟨_, rfl, ?_⟩
  have h192 : 6 + tapOnionskinChallengeLen = 192 := rfl
  have haddr : copy zero 0 (addrToIpv4n cell.orportIpv4) 0 4 = cell.orportIpv4.addr := by
    rw [addrToIpv4n, if_pos h.family, h.addr]
  have hskin := h.onionskin
  rcases h.kind with ⟨-, hcreate, hntor, hlen⟩ | ⟨-, hcreate, htap, hlen, hmark⟩ | ⟨htype2, -⟩
  · rw [if_pos hntor, h192]
    have h84 : ntorOnionskinLen = 84 := rfl
    rw [Cleared, hlen] at hskin
    refine h.parse_extend htype ?_ ?_ ?_ ?_
    · simp (disch := omega) only [copy_copy_of_disjoint, copy_setUInt16, copy_copy]
      exact haddr
    · simp (disch := omega) only [getUInt16_copy, getUInt16_setUInt16]
    · rw [h192, copy_copy]
      exact h.nodeId
    · rw [if_pos]
      · refine createCellInit_eq hcreate hntor (uint16_eq_ofNat hlen) ?_
        rw [hlen]
        simp (disch := omega) only [copy_copy_of_disjoint, copy_copy]
        exact hskin
      · rw [← isNtorCreateMagic_copy]
        simp (disch := omega) only [copy_copy_of_disjoint, copy_copy]
        decide
  · have h186 : tapOnionskinChallengeLen = 186 := rfl
    have hntor : cell.createCell.handshakeType ≠ handshakeTypeNtor := by
      rw [htap]
      decide
    rw [if_neg hntor, h192]
    rw [Cleared, hlen] at hskin
    refine h.parse_extend htype ?_ ?_ ?_ ?_
    · simp (disch := omega) only [copy_copy_of_disjoint, copy_setUInt16, copy_copy]
      exact haddr
    · simp (disch := omega) only [getUInt16_copy, getUInt16_setUInt16]
    · rw [h192, copy_copy]
      exact h.nodeId
    · rw [if_neg]
      · refine createCellInit_eq hcreate htap (uint16_eq_ofNat hlen) ?_
        rw [hlen]
        simp (disch := omega) only [copy_copy_of_disjoint, copy_copy]
        exact hskin
      · rw [← isNtorCreateMagic_copy]
        simp (disch := omega) only [copy_copy_of_disjoint, copy_copy_of_le]
        rw [isNtorCreateMagic_copy, hmark]
        exact Bool.false_ne_true
  · rw [htype] at htype2
    exact absurd htype2 (by decide)

/-- The EXTEND2 cell that is formatted, by the fields that are read. -/
lemma parseSpecs_formatted {b : AddrPort} {id : Buffer} {n : ℕ} (hlen : 31 ≤ n)
    (h1 : p 1 = 0) (h2 : p 2 = 6) (h9 : p 9 = 2) (h10 : p 10 = 20)
    (hfamily : b.family = .inet) (haddr : copy zero 0 p 3 4 = b.addr)
    (hport : getUInt16 p 7 = b.port) (hid : copy zero 0 p 11 20 = id) :
    parseSpecs p n 2 ⟨1, false, false, false, .unspec, .unspec, zero⟩ =
      some ⟨31, true, false, true, b, .unspec, id⟩ := by
  have hfirst : parseSpec p n ⟨1, false, false, false, .unspec, .unspec, zero⟩ =
      some ⟨9, true, false, false, b, .unspec, zero⟩ := by
    unfold parseSpec
    dsimp only
    rw [if_neg (by omega), h1, h2, if_neg (by show ¬ n < 9; omega), if_pos rfl, if_neg (by decide),
      if_neg (by decide), haddr, hport, ← hfamily]
    rfl
  have hsecond : parseSpec p n ⟨9, true, false, false, b, .unspec, zero⟩ =
      some ⟨31, true, false, true, b, .unspec, id⟩ := by
    unfold parseSpec
    dsimp only
    rw [if_neg (by omega), h9, h10, if_neg (by show ¬ n < 31; omega), if_neg (by decide),
      if_neg (by decide), if_pos rfl, if_neg (by decide), hid]
    rfl
  rw [parseSpecs, hfirst, bind_some, parseSpecs, hsecond, bind_some, parseSpecs]

/-- The CREATE2 payload that is formatted, by the fields that are read. -/
lemma parseCreate2Payload_formatted {create : CreateCell} {i n : ℕ}
    (htype : create.cellType = cellCreate2) (hfast : create.handshakeType ≠ handshakeTypeFast)
    (hcap : create.handshakeLen.toNat ≤ cellPayloadSize - 4)
    (hn : 4 + create.handshakeLen.toNat ≤ n) (hhandshake : getUInt16 p i = create.handshakeType)
    (hlen : getUInt16 p (i + 2) = create.handshakeLen)
    (hskin : copy zero 0 p (i + 4) create.handshakeLen.toNat = create.onionskin) :
    parseCreate2Payload p i n = some create := by
  unfold parseCreate2Payload
  dsimp only
  rw [if_neg (by omega), hhandshake, hlen, if_neg (by omega), if_neg hfast,
    createCellInit_eq htype rfl rfl hskin]

section

variable (h : cell.Parsed) (htype : cell.cellType = relayCommandExtend2)

include h htype

lemma ExtendCell.Parsed.kind_extend2 :
    cell.createCell.cellType = cellCreate2 ∧ cell.createCell.handshakeType ≠ handshakeTypeFast ∧
      cell.createCell.handshakeLen.toNat ≤ 463 := by
  have hne : ¬ cell.cellType = relayCommandExtend := by
    rw [htype]
    decide
  rcases h.kind with ⟨hextend, -⟩ | ⟨hextend, -⟩ | ⟨-, hkind⟩
  · exact absurd hextend hne
  · exact absurd hextend hne
  · exact hkind

/-- The EXTEND2 cell that is parsed, by the fields that are read. -/
lemma ExtendCell.Parsed.parse_extend2 (h0 : p 0 = 2) (h1 : p 1 = 0) (h2 : p 2 = 6)
    (haddr : copy zero 0 p 3 4 = cell.orportIpv4.addr)
    (hport : getUInt16 p 7 = cell.orportIpv4.port) (h9 : p 9 = 2) (h10 : p 10 = 20)
    (hid : copy zero 0 p 11 20 = cell.nodeId)
    (hhandshake : getUInt16 p 31 = cell.createCell.handshakeType)
    (hlen : getUInt16 p 33 = cell.createCell.handshakeLen)
    (hskin : copy zero 0 p 35 cell.createCell.handshakeLen.toNat = cell.createCell.onionskin) :
    extendCellParse relayCommandExtend2 p (35 + cell.createCell.handshakeLen.toNat) =
      some { cell with orportIpv6 := .unspec } := by
  obtain ⟨hcreate, hfast, hcap⟩ := h.kind_extend2 htype
  have hlong : ¬ relayPayloadSize < 35 + cell.createCell.handshakeLen.toNat := by
    unfold relayPayloadSize
    omega
  have hspecs :=
    parseSpecs_formatted (n := 35 + cell.createCell.handshakeLen.toNat)
      (by omega) h1 h2 h9 h10 h.family haddr hport hid
  have hcreated := parseCreate2Payload_formatted (i := 31)
    (n := 35 + cell.createCell.handshakeLen.toNat - 31) hcreate hfast
    (by unfold cellPayloadSize; omega) (by omega) hhandshake hlen hskin
  unfold extendCellParse
  dsimp only
  rw [if_neg hlong, if_neg (by decide), if_pos rfl, if_neg (by omega), h0,
    show (2 : UInt8).toNat = 2 from rfl, hspecs, bind_eq_bind, bind_some,
    if_neg (by simp), hcreated, bind_eq_bind, bind_some, ← htype]
  exact filter_eq_some_iff.mpr ⟨rfl, h.check⟩

/-- **An EXTEND2 cell that is formatted is parsed again.** -/
lemma ExtendCell.Parsed.extend2 : ∃ out, extendCellFormat cell =
        some (relayCommandExtend2, 35 + cell.createCell.handshakeLen.toNat, out) ∧
      extendCellParse relayCommandExtend2 out (35 + cell.createCell.handshakeLen.toNat) =
        some { cell with orportIpv6 := .unspec } := by
  have hne : ¬ cell.cellType = relayCommandExtend := by
    rw [htype]
    decide
  obtain ⟨-, -, hcap⟩ := h.kind_extend2 htype
  have hfits : ¬ relayPayloadSize - 35 < cell.createCell.handshakeLen.toNat := by
    unfold relayPayloadSize
    omega
  unfold extendCellFormat
  rw [if_neg (not_not.mpr h.check), if_neg hne, if_pos htype]
  dsimp only
  rw [if_neg hfits]
  have h20 : digestLen = 20 := rfl
  refine ⟨_, rfl, h.parse_extend2 htype ?_ ?_ ?_ ?_ ?_ ?_ ?_ ?_ ?_ ?_ ?_⟩
  · simp (disch := omega) only [copy_of_notMem, setUInt16_of_ne, update_of_ne,
      update_self]
  · simp (disch := omega) only [copy_of_notMem, setUInt16_of_ne, update_of_ne,
      update_self]
  · simp (disch := omega) only [copy_of_notMem, setUInt16_of_ne, update_of_ne,
      update_self]
  · simp (disch := omega) only [copy_copy_of_disjoint, copy_setUInt16, copy_update, copy_copy]
    rw [addrToIpv4n, if_pos h.family, h.addr]
  · simp (disch := omega) only [getUInt16_copy, getUInt16_setUInt16_of_disjoint, getUInt16_update,
      getUInt16_setUInt16]
  · simp (disch := omega) only [copy_of_notMem, setUInt16_of_ne, update_of_ne,
      update_self]
  · simp (disch := omega) only [copy_of_notMem, setUInt16_of_ne, update_self]
  · simp (disch := omega) only [h20, copy_copy_of_disjoint, copy_setUInt16, copy_copy]
    exact h.nodeId
  · simp (disch := omega) only [getUInt16_copy, getUInt16_setUInt16_of_disjoint,
      getUInt16_setUInt16]
  · simp (disch := omega) only [getUInt16_copy, getUInt16_setUInt16]
  · rw [copy_copy]
    exact h.onionskin

end

/-- **EXTEND cells are read back.** -/
theorem extendCellParse_format (h : extendCellParse command p len = some cell) :
    ∃ command' len' out, extendCellFormat cell = some (command', len', out) ∧
      command' = cell.cellType ∧
      extendCellParse command' out len' = some { cell with orportIpv6 := .unspec } := by
  have hparsed := ExtendCell.Parsed.of_parse h
  by_cases hextend : cell.cellType = relayCommandExtend
  · obtain ⟨out, hformat, hparse⟩ := hparsed.extend hextend
    exact ⟨_, _, out, hformat, hextend.symm, hparse⟩
  · have hextend2 : cell.cellType = relayCommandExtend2 := by
      rcases hparsed.kind with ⟨htype, -⟩ | ⟨htype, -⟩ | ⟨htype, -⟩
      · exact absurd htype hextend
      · exact absurd htype hextend
      · exact htype
    obtain ⟨out, hformat, hparse⟩ := hparsed.extend2 hextend2
    exact ⟨_, _, out, hformat, hextend2.symm, hparse⟩

/-- An EXTEND2 cell with an unknown link specifier, both kinds of addresses and the identity. -/
def extend2Payload : Buffer := fun k =>
  ([4, 99, 1, 5, 0, 6, 127, 0, 0, 1, 35, 40, 1, 18] ++ replicate 18 9 ++ [2, 20] ++
    replicate 20 7 ++ [0, 2, 0, 84] ++ replicate 84 1 : List UInt8).getD k 0

def extend2Cell : ExtendCell :=
  (extendCellParse relayCommandExtend2 extend2Payload 142).get (by decide +kernel)

/-- The cell of all kinds of link specifiers is read back. -/
theorem extendCellParse_format_specs :
    ∃ command' len' out, extendCellFormat extend2Cell = some (command', len', out) ∧
      command' = extend2Cell.cellType ∧
      extendCellParse command' out len' = some { extend2Cell with orportIpv6 := .unspec } :=
  extendCellParse_format (some_get _).symm

end ExtendCells

/-! ### Handshakes are relayed -/

section Relaying

variable {cell : CreateCell} {created : CreatedCell}

/-- A valid cell with a known handshake is valid where other handshakes are not allowed. -/
lemma checkCreateCell_of_known (h : checkCreateCell cell true = true)
    (hknown : cell.handshakeType = handshakeTypeTap ∨ cell.handshakeType = handshakeTypeFast ∨
      cell.handshakeType = handshakeTypeNtor) : checkCreateCell cell false = true := by
  unfold checkCreateCell at h ⊢
  rcases hknown with hknown | hknown | hknown
  · rw [if_pos hknown] at h ⊢
    exact h
  · have htap : ¬ cell.handshakeType = handshakeTypeTap := by
      rw [hknown]
      decide
    rw [if_neg htap, if_pos hknown] at h ⊢
    exact h
  · have htap : ¬ cell.handshakeType = handshakeTypeTap := by
      rw [hknown]
      decide
    have hfast : ¬ cell.handshakeType = handshakeTypeFast := by
      rw [hknown]
      decide
    rw [if_neg htap, if_neg hfast, if_pos hknown] at h ⊢
    exact h

lemma ExtendCell.Parsed.checkCreateCell {cell : ExtendCell} (h : cell.Parsed) :
    Astoria.checkCreateCell cell.createCell true = true := by
  have hcheck := h.check
  unfold checkExtendCell at hcheck
  exact (Bool.and_eq_true_iff.mp hcheck).2

/-- **A CREATE2 cell is parsed at the next relay.** -/
lemma createCellParse_format_create2 (htype : cell.cellType = cellCreate2)
    (hcheck : checkCreateCell cell true = true)
    (hknown : cell.handshakeType = handshakeTypeTap ∨ cell.handshakeType = handshakeTypeFast ∨
      cell.handshakeType = handshakeTypeNtor)
    (hfast : cell.handshakeType ≠ handshakeTypeFast)
    (hcap : cell.handshakeLen.toNat ≤ cellPayloadSize - 4)
    (hskin : Cleared cell.onionskin cell.handshakeLen.toNat) :
    ∃ out, createCellFormatRelayed cell = some (some out) ∧ createCellParse out = some cell := by
  unfold createCellFormatRelayed createCellFormatImpl
  rw [if_neg (not_not.mpr hcheck), if_pos htype, if_neg (by omega)]
  refine ⟨_, rfl, ?_⟩
  unfold createCellParse
  dsimp only
  rw [htype, if_neg (by decide), if_neg (by decide), if_pos rfl,
    parseCreate2Payload_formatted htype hfast hcap]
  · exact filter_eq_some_iff.mpr ⟨rfl, checkCreateCell_of_known hcheck hknown⟩
  · unfold cellPayloadSize at hcap ⊢
    omega
  · simp (disch := omega) only [getUInt16_copy, getUInt16_setUInt16_of_disjoint,
      getUInt16_setUInt16]
  · simp (disch := omega) only [getUInt16_copy, getUInt16_setUInt16]
  · rw [copy_copy]
    exact hskin

/-- **A CREATE cell is parsed at the next relay.** -/
lemma createCellParse_format_create (htype : cell.cellType = cellCreate)
    (htap : cell.handshakeType = handshakeTypeTap)
    (hlen : cell.handshakeLen.toNat = tapOnionskinChallengeLen)
    (hmark : isNtorCreateMagic cell.onionskin 0 = false)
    (hcheck : checkCreateCell cell true = true)
    (hskin : Cleared cell.onionskin cell.handshakeLen.toNat) :
    ∃ out, createCellFormatRelayed cell = some (some out) ∧ createCellParse out = some cell := by
  have hntor : ¬ (cell.cellType = cellCreate ∧ cell.handshakeType = handshakeTypeNtor) := by
    rw [htap]
    exact fun h => absurd h.2 (by decide)
  have hne : ¬ cell.cellType = cellCreate2 := by
    rw [htype]
    decide
  have hfits : ¬ cellPayloadSize - 0 < cell.handshakeLen.toNat := by
    rw [hlen]
    decide
  unfold createCellFormatRelayed createCellFormatImpl
  rw [if_neg (not_not.mpr hcheck), if_neg hne]
  dsimp only
  rw [if_neg hntor, if_neg hntor, if_neg hfits]
  refine ⟨_, rfl, ?_⟩
  have hmark' : isNtorCreateMagic (copy zero 0 cell.onionskin 0 cell.handshakeLen.toNat) 0 =
      false := by
    rw [hskin]
    exact hmark
  unfold createCellParse
  dsimp only
  rw [if_pos htype, if_neg (by rw [hmark']; exact Bool.false_ne_true),
    createCellInit_eq htype htap (uint16_eq_ofNat hlen)]
  · exact filter_eq_some_iff.mpr ⟨rfl, checkCreateCell_of_known hcheck (.inl htap)⟩
  · rw [copy_copy]
    exact hskin

/-- **The next relay parses the cell that a relay sends for an EXTEND cell.** -/
lemma ExtendCell.Parsed.createCellParse {cell : ExtendCell} (h : cell.Parsed)
    (hknown : cell.createCell.handshakeType = handshakeTypeTap ∨
      cell.createCell.handshakeType = handshakeTypeFast ∨
      cell.createCell.handshakeType = handshakeTypeNtor) :
    ∃ out, createCellFormatRelayed cell.createCell = some (some out) ∧
      Astoria.createCellParse out = some cell.createCell := by
  have hcheck := h.checkCreateCell
  rcases h.kind with ⟨-, htype, hntor, hlen⟩ | ⟨-, htype, htap, hlen, hmark⟩ |
      ⟨-, htype, hfast, hcap⟩
  · refine createCellParse_format_create2 htype hcheck hknown ?_ ?_ h.onionskin
    · rw [hntor]
      decide
    · rw [hlen]
      decide
  · exact createCellParse_format_create htype htap hlen hmark hcheck h.onionskin
  · exact createCellParse_format_create2 htype hcheck hknown hfast (Nat.le_trans hcap (by decide))
      h.onionskin

lemma createdCellParse_eq_some {cellIn : Cell}
    (hcommand : cellIn.command = cellCreated ∨ cellIn.command = cellCreated2)
    (h : createdCellParse cellIn = some created) :
    checkCreatedCell created = true ∧ Cleared created.reply created.handshakeLen.toNat ∧
      ((created.cellType = cellCreated ∧ created.handshakeLen.toNat = tapOnionskinReplyLen) ∨
        (created.cellType = cellCreated2 ∧
          created.handshakeLen.toNat ≤ relayPayloadSize - 2)) := by
  unfold createdCellParse at h
  dsimp only at h
  obtain ⟨hsome, hcheck⟩ := filter_eq_some_iff.mp h
  rcases hcommand with hcommand | hcommand
  · rw [if_pos hcommand] at hsome
    obtain rfl := some.inj hsome
    exact ⟨hcheck, cleared_copy _ _ _, .inl ⟨rfl, rfl⟩⟩
  · have hcreated : ¬ cellIn.command = cellCreated := by
      rw [hcommand]
      decide
    have hfast : ¬ cellIn.command = cellCreatedFast := by
      rw [hcommand]
      decide
    rw [if_neg hcreated, if_neg hfast, if_pos hcommand] at hsome
    split_ifs at hsome with hlong
    obtain rfl := some.inj hsome
    refine ⟨hcheck, cleared_copy _ _ _, .inr ⟨rfl, ?_⟩⟩
    exact of_decide_eq_true hcheck

lemma createdCellInit_eq {t : UInt8} {y : UInt16} {p : Buffer} {i : ℕ}
    (htype : created.cellType = t) (hlen : created.handshakeLen = y)
    (hreply : copy zero 0 p i created.handshakeLen.toNat = created.reply) :
    createdCellInit t y p i = created := by
  rw [createdCellInit, ← htype, ← hlen, hreply]

section

variable (hcheck : checkCreatedCell created = true)
  (hreply : Cleared created.reply created.handshakeLen.toNat)

include hcheck hreply

/-- **The client parses the EXTENDED cell of a CREATED cell.** -/
lemma extendedCellParse_format_created (htype : created.cellType = cellCreated)
    (hlen : created.handshakeLen.toNat = tapOnionskinReplyLen) :
    ∃ command len out, extendedCellFormat (commandProcessCreatedCell created) =
        some (command, len, out) ∧
      extendedCellParse command out len = some (commandProcessCreatedCell created) := by
  have hext : commandProcessCreatedCell created = ⟨relayCommandExtended, created⟩ := by
    rw [commandProcessCreatedCell, htype, if_neg (by decide)]
  have hvalid : checkExtendedCell ⟨relayCommandExtended, created⟩ = true := by
    unfold checkExtendedCell
    rw [if_pos htype, hcheck]
    rfl
  rw [hext]
  unfold extendedCellFormat
  rw [if_neg (not_not.mpr hvalid), if_pos rfl]
  refine ⟨_, _, _, rfl, ?_⟩
  rw [Cleared, hlen] at hreply
  unfold extendedCellParse
  dsimp only
  rw [if_neg (by decide), if_pos rfl, if_neg (not_not.mpr rfl),
    createdCellInit_eq htype (uint16_eq_ofNat hlen)]
  · exact filter_eq_some_iff.mpr ⟨rfl, hvalid⟩
  · rw [hlen, copy_copy]
    exact hreply

/-- **The client parses the EXTENDED2 cell of a CREATED2 cell.** -/
lemma extendedCellParse_format_created2 (htype : created.cellType = cellCreated2)
    (hlen : created.handshakeLen.toNat ≤ relayPayloadSize - 2) :
    ∃ command len out, extendedCellFormat (commandProcessCreatedCell created) =
        some (command, len, out) ∧
      extendedCellParse command out len = some (commandProcessCreatedCell created) := by
  have hext : commandProcessCreatedCell created = ⟨relayCommandExtended2, created⟩ := by
    rw [commandProcessCreatedCell, if_pos htype]
  have hvalid : checkExtendedCell ⟨relayCommandExtended2, created⟩ = true := by
    unfold checkExtendedCell
    rw [if_neg (by rw [htype]; decide), if_pos htype, hcheck]
    rfl
  have hsize : relayPayloadSize = 498 := rfl
  rw [hext]
  unfold extendedCellFormat
  rw [if_neg (not_not.mpr hvalid), if_neg (show ¬ relayCommandExtended2 = _ by decide), if_pos rfl,
    if_neg (by dsimp only; omega)]
  refine ⟨_, _, _, rfl, ?_⟩
  have hread : getUInt16 (copy (setUInt16 zero 0 created.handshakeLen) 2 created.reply 0
      created.handshakeLen.toNat) 0 = created.handshakeLen := by
    simp (disch := omega) only [getUInt16_copy, getUInt16_setUInt16]
  unfold extendedCellParse
  dsimp only
  rw [hread, if_neg (by omega), if_neg (by decide), if_pos rfl, if_neg (by omega),
    createdCellInit_eq htype rfl]
  · exact filter_eq_some_iff.mpr ⟨rfl, hvalid⟩
  · rw [copy_copy]
    exact hreply

/-- **A CREATED cell that is formatted is parsed again.** -/
lemma createdCellParse_format (hkind : (created.cellType = cellCreated ∧
        created.handshakeLen.toNat = tapOnionskinReplyLen) ∨
      (created.cellType = cellCreated2 ∧
        created.handshakeLen.toNat ≤ relayPayloadSize - 2)) :
    ∃ out, createdCellFormat created = some (some out) ∧
      createdCellParse out = some created := by
  have hsize : relayPayloadSize = 498 := rfl
  have hcell : cellPayloadSize = 509 := rfl
  have h148 : tapOnionskinReplyLen = 148 := rfl
  unfold createdCellFormat
  rw [if_neg (not_not.mpr hcheck)]
  rcases hkind with ⟨htype, hlen⟩ | ⟨htype, hlen⟩
  · rw [if_pos (.inl htype), if_neg (by omega)]
    refine ⟨_, rfl, ?_⟩
    unfold createdCellParse
    dsimp only
    rw [if_pos htype, createdCellInit_eq htype (uint16_eq_ofNat hlen)]
    · exact filter_eq_some_iff.mpr ⟨rfl, hcheck⟩
    · rw [copy_copy]
      exact hreply
  · have hold : ¬ (created.cellType = cellCreated ∨ created.cellType = cellCreatedFast) := by
      rw [htype]
      decide
    rw [if_neg hold, if_pos htype, if_neg (by omega)]
    refine ⟨_, rfl, ?_⟩
    have hread : getUInt16 (copy (setUInt16 zero 0 created.handshakeLen) 2 created.reply 0
        created.handshakeLen.toNat) 0 = created.handshakeLen := by
      simp (disch := omega) only [getUInt16_copy, getUInt16_setUInt16]
    unfold createdCellParse
    dsimp only
    rw [if_neg (fun h => hold (.inl h)), if_neg (fun h => hold (.inr h)), if_pos htype, hread,
      if_neg (by omega), createdCellInit_eq htype rfl]
    · exact filter_eq_some_iff.mpr ⟨rfl, hcheck⟩
    · rw [copy_copy]
      exact hreply

end

/-- **Handshakes are relayed unchanged**: the next relay parses the cell in an EXTEND cell, if it
knows the handshake, and the client parses the cell that the next relay has replied. -/
theorem handshakes_relayed :
    (∀ command p len cell, extendCellParse command p len = some cell →
      (cell.createCell.handshakeType = handshakeTypeTap ∨
        cell.createCell.handshakeType = handshakeTypeFast ∨
        cell.createCell.handshakeType = handshakeTypeNtor) →
      ∃ out, createCellFormatRelayed cell.createCell = some (some out) ∧
        createCellParse out = some cell.createCell) ∧
    (∀ cellIn created, createdCellParse cellIn = some created →
      (cellIn.command = cellCreated ∨ cellIn.command = cellCreated2) →
      (∃ command len out, extendedCellFormat (commandProcessCreatedCell created) =
          some (command, len, out) ∧
        extendedCellParse command out len = some (commandProcessCreatedCell created)) ∧
      ∃ out, createdCellFormat created = some (some out) ∧
        createdCellParse out = some created) := by
  constructor
  · intro command p len cell hparse hknown
    exact (ExtendCell.Parsed.of_parse hparse).createCellParse hknown
  · intro cellIn created hparse hcommand
    obtain ⟨hcheck, hreply, hkind⟩ := createdCellParse_eq_some hcommand hparse
    refine ⟨?_, createdCellParse_format hcheck hreply hkind⟩
    rcases hkind with ⟨htype, hlen⟩ | ⟨htype, hlen⟩
    · exact extendedCellParse_format_created hcheck hreply htype hlen
    · exact extendedCellParse_format_created2 hcheck hreply htype hlen

/-- A CREATED2 cell with a reply of three bytes. -/
def created2Cell : Cell :=
  ⟨cellCreated2, fun k => ([0, 3, 7, 8, 9] : List UInt8).getD k 0⟩

def created2Reply : CreatedCell := (createdCellParse created2Cell).get (by decide +kernel)

/-- The handshake of the two cells is relayed unchanged. -/
theorem handshakes_relayed_specs :
    (∃ out, createCellFormatRelayed extend2Cell.createCell = some (some out) ∧
      createCellParse out = some extend2Cell.createCell) ∧
    (∃ command len out, extendedCellFormat (commandProcessCreatedCell created2Reply) =
        some (command, len, out) ∧
      extendedCellParse command out len = some (commandProcessCreatedCell created2Reply)) :=
  ⟨handshakes_relayed.1 _ _ _ _ (some_get _).symm (by decide +kernel),
    (handshakes_relayed.2 created2Cell _ (some_get _).symm (by decide +kernel)).1⟩

end Relaying

end Astoria
