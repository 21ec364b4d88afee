import Mathlib.Data.List.GetD
import Astoria.Library.BigEndian
import Astoria.Library.Framing
import Astoria.TorClient.BufferChunks
import Astoria.TorClient.ChannelQueue

/-!
# Cells on a link

Cells of a fixed size and cells of variable length are written one after another to a connection.
The reader tells them apart by the command, which stands behind the circuit id, whose width depends
on the version of the link protocol.  Cells are read from a buffer of chunks each time some bytes
have arrived.

However the bytes arrive, each cell is delivered when its last byte is there (`linkCells_exact`).
-/

namespace Astoria

open List Option
open BigEndian

/-! ### Cells -/

/-- The size of the payload of a cell of fixed size (`CELL_PAYLOAD_SIZE`). -/
def fixedPayloadSize : ℕ := 509

/-- The size of a circuit id (`get_circ_id_size`). -/
def getCircIdSize (wideCircIds : Bool) : ℕ := if wideCircIds then 4 else 2

/-- A cell of fixed size (`cell_t`). -/
structure FixedCell where
  circId : ℕ
  command : UInt8
  payload : List UInt8
  deriving DecidableEq

/-- A cell of variable length (`var_cell_t`). -/
structure VarCell where
  circId : ℕ
  command : UInt8
  payload : List UInt8
  deriving DecidableEq

/-- A connection: the version of its link protocol, and the width of its circuit ids
(`or_connection_t`). -/
structure OrConnection where
  linkProto : ℕ
  wideCircIds : Bool

/-- The bytes of a cell of fixed size (`cell_pack`). -/
def cellPack (src : FixedCell) (wideCircIds : Bool) : List UInt8 :=
  toBytes (getCircIdSize wideCircIds) src.circId ++ src.command :: src.payload

/-- The cell of fixed size in some bytes (`cell_unpack`). -/
def cellUnpack (src : List UInt8) (wideCircIds : Bool) : FixedCell :=
  let circIdLen := getCircIdSize wideCircIds
  ⟨ofBytes (src.take circIdLen), src.getD circIdLen 0,
    (src.drop (circIdLen + 1)).take fixedPayloadSize⟩

/-- The header of a cell of variable length (`var_cell_pack_header`). -/
def varCellPackHeader (cell : VarCell) (wideCircIds : Bool) : List UInt8 :=
  toBytes (getCircIdSize wideCircIds) cell.circId ++ cell.command :: toBytes 2 cell.payload.length

/-- The command of the first cells of a link (`CELL_VERSIONS`). -/
def cellVersions : UInt8 := 7

/-- Whether cells with a command have variable length (`cell_command_is_var_length`). -/
def cellCommandIsVarLength (command : UInt8) (linkproto : ℕ) : Bool :=
  match linkproto with
  | 1 => false
  | 2 => command = cellVersions
  | _ => command = cellVersions || 128 ≤ command

variable (L : ChunkLayout)

/-! ### Writing -/

/-- Write a cell of fixed size to the outbuf (`connection_or_write_cell_to_buf`). -/
def connectionOrWriteCellToBuf (conn : OrConnection) (outbuf : BufAt) (cell : FixedCell) :
    Option BufAt :=
  writeToBuf L outbuf ((cellPack cell conn.wideCircIds).take (getCellNetworkSize conn.wideCircIds))

/-- Write a cell of variable length to the outbuf (`connection_or_write_var_cell_to_buf`). -/
def connectionOrWriteVarCellToBuf (conn : OrConnection) (outbuf : BufAt) (cell : VarCell) :
    Option BufAt := do
  let outbuf ← writeToBuf L outbuf (varCellPackHeader cell conn.wideCircIds)
  writeToBuf L outbuf cell.payload

/-! ### Reading -/

/-- What is at the start of a buffer (`fetch_var_cell_from_buf`). -/
inductive VarCellFetch
  /-- No cell of variable length, or too little to tell. -/
  | notVar
  /-- The start of one. -/
  | notYet
  /-- One, which is removed. -/
  | fetched (buf : BufAt) (cell : VarCell)

/-- Fetch a cell of variable length (`fetch_var_cell_from_buf`). -/
def fetchVarCellFromBuf (buf : BufAt) (linkproto : ℕ) : Option VarCellFetch :=
  let wideCircIds := decide (4 ≤ linkproto)
  let circIdLen := getCircIdSize wideCircIds
  let headerLen := getVarCellHeaderSize wideCircIds
  if buf.buf.datalen < headerLen then some .notVar
  else do
    let hdr ← peekFromBuf buf.buf headerLen
    let command := hdr.getD circIdLen 0
    if cellCommandIsVarLength command linkproto = false then some .notVar
    else do
      let length := ofBytes ((hdr.drop (circIdLen + 1)).take 2)
      if buf.buf.datalen < headerLen + length then some .notYet
      else do
        let circId := ofBytes (hdr.take circIdLen)
        let buf ← bufRemoveFromFront L buf headerLen
        let payload ← peekFromBuf buf.buf length
        let buf ← bufRemoveFromFront L buf length
        some (.fetched buf ⟨circId, command, payload⟩)

/-- A cell that is delivered (`channel_tls_handle_cell`, `channel_tls_handle_var_cell`). -/
inductive LinkCell
  | fixed (cell : FixedCell)
  | var (cell : VarCell)
  deriving DecidableEq

/-- Take cells from the inbuf until there is no whole one
(`connection_or_process_cells_from_inbuf`).  There is no result if the passes do not suffice. -/
def connectionOrProcessCellsFromInbuf (conn : OrConnection) :
    ℕ → BufAt → Option (BufAt × List LinkCell)
  | 0, _ => none
  | passes + 1, inbuf => do
    match ← fetchVarCellFromBuf L inbuf conn.linkProto with
    | .notYet => some (inbuf, [])
    | .fetched inbuf cell =>
      let (inbuf, cells) ← connectionOrProcessCellsFromInbuf conn passes inbuf
      some (inbuf, .var cell :: cells)
    | .notVar =>
      let cellNetworkSize := getCellNetworkSize conn.wideCircIds
      if inbuf.buf.datalen < cellNetworkSize then some (inbuf, [])
      else do
        let (inbuf, bytes) ← fetchFromBuf L inbuf cellNetworkSize
        let (inbuf, cells) ← connectionOrProcessCellsFromInbuf conn passes inbuf
        some (inbuf, .fixed (cellUnpack bytes conn.wideCircIds) :: cells)

/-! ### The code of cells -/

def LinkCell.bytes (conn : OrConnection) : LinkCell → List UInt8
  | fixed cell => cellPack cell conn.wideCircIds
  | var cell => varCellPackHeader cell conn.wideCircIds ++ cell.payload

open LinkCell (bytes fixed)

/-- A cell fits a connection: its circuit id has the width of the connection, its payload has the
size of its kind, and its command is one of its kind. -/
def LinkCell.Fits (conn : OrConnection) : LinkCell → Prop
  | fixed cell => cell.circId < 256 ^ getCircIdSize conn.wideCircIds ∧
      cell.payload.length = fixedPayloadSize ∧
      cellCommandIsVarLength cell.command conn.linkProto = false
  | var cell => cell.circId < 256 ^ getCircIdSize conn.wideCircIds ∧ cell.payload.length < 256 ^ 2 ∧
      cellCommandIsVarLength cell.command conn.linkProto = true

/-- The size of the cell of variable length that starts with some bytes, if there is one. -/
def varCellSize (conn : OrConnection) (s : List UInt8) : Option ℕ :=
  let circIdLen := getCircIdSize conn.wideCircIds
  let headerLen := getVarCellHeaderSize conn.wideCircIds
  if s.length < headerLen then none
  else if cellCommandIsVarLength (s.getD circIdLen 0) conn.linkProto = false then none
  else some (headerLen + ofBytes ((s.drop (circIdLen + 1)).take 2))

/-- The cell at the start of some bytes, if it is there, and what follows it. -/
def parseLinkCell (conn : OrConnection) (s : List UInt8) : Option (LinkCell × List UInt8) :=
  let circIdLen := getCircIdSize conn.wideCircIds
  let headerLen := getVarCellHeaderSize conn.wideCircIds
  match varCellSize conn s with
  | some size =>
    if s.length < size then none
    else some (.var ⟨ofBytes (s.take circIdLen), s.getD circIdLen 0, (s.take size).drop headerLen⟩,
      s.drop size)
  | none =>
    let cellNetworkSize := getCellNetworkSize conn.wideCircIds
    if s.length < cellNetworkSize then none
    else some (.fixed (cellUnpack (s.take cellNetworkSize) conn.wideCircIds),
      s.drop cellNetworkSize)

section Code

variable {conn : OrConnection} {s : List UInt8}

lemma getSizes (wideCircIds : Bool) :
    getVarCellHeaderSize wideCircIds = getCircIdSize wideCircIds + 3 ∧
      getCellNetworkSize wideCircIds = getCircIdSize wideCircIds + 510 := by
  cases wideCircIds <;> exact ⟨rfl, rfl⟩

lemma take_circId (w n : ℕ) (c : UInt8) (rest : List UInt8) :
    (toBytes w n ++ c :: rest).take w = toBytes w n := by
  rw [take_left' (length_toBytes w n)]

lemma getD_circId (w n : ℕ) (c : UInt8) (rest : List UInt8) :
    (toBytes w n ++ c :: rest).getD w 0 = c := by
  rw [getD_append_right _ _ _ _ (length_toBytes w n).le, length_toBytes, Nat.sub_self,
    getD_cons_zero]

lemma drop_circId (w n : ℕ) (c : UInt8) (rest : List UInt8) :
    (toBytes w n ++ c :: rest).drop (w + 1) = rest := by
  rw [drop_append, length_toBytes, drop_of_length_le (by rw [length_toBytes]; omega),
    Nat.add_sub_cancel_left]
  rfl

lemma varCellSize_fixed {cell : FixedCell} (h : (fixed cell).Fits conn) (rest : List UInt8) :
    varCellSize conn (cellPack cell conn.wideCircIds ++ rest) = none := by
  have hcommand : (cellPack cell conn.wideCircIds ++ rest).getD (getCircIdSize conn.wideCircIds) 0 =
      cell.command := by
    unfold cellPack
    rw [append_assoc, cons_append, getD_circId]
  unfold varCellSize
  dsimp only
  rw [hcommand, if_pos h.2.2]
  split_ifs <;> rfl

/-- Cells of variable length have the size in their header. -/
lemma varCellSize_var {cell : VarCell} (h : (LinkCell.var cell).Fits conn) (rest : List UInt8) :
    varCellSize conn ((LinkCell.var cell).bytes conn ++ rest) =
      some ((LinkCell.var cell).bytes conn).length := by
  obtain ⟨hheader, -⟩ := getSizes conn.wideCircIds
  have hbytes : (LinkCell.var cell).bytes conn ++ rest =
      toBytes (getCircIdSize conn.wideCircIds) cell.circId ++ cell.command ::
        (toBytes 2 cell.payload.length ++ (cell.payload ++ rest)) := by
    unfold bytes varCellPackHeader
    simp only [append_assoc, cons_append]
  have hlen : ((LinkCell.var cell).bytes conn).length =
      getVarCellHeaderSize conn.wideCircIds + cell.payload.length := by
    unfold bytes varCellPackHeader
    simp only [length_append, length_toBytes, length_cons]
    omega
  unfold varCellSize
  dsimp only
  rw [if_neg (by rw [length_append, hlen]; omega), hbytes, getD_circId, drop_circId,
    take_left' (length_toBytes 2 _), ofBytes_toBytes h.2.1, if_neg (by rw [h.2.2]; decide), hlen]

/-- The start of some bytes shows the same size, if there is a header in it, and none otherwise. -/
lemma varCellSize_take {n : ℕ} (hn : n ≤ s.length) : varCellSize conn (s.take n) =
    if n < getVarCellHeaderSize conn.wideCircIds then none else varCellSize conn s := by
  obtain ⟨hheader, -⟩ := getSizes conn.wideCircIds
  have hlen : (s.take n).length = n := length_take_of_le hn
  unfold varCellSize
  dsimp only
  rw [hlen]
  by_cases hshort : n < getVarCellHeaderSize conn.wideCircIds
  · rw [if_pos hshort, if_pos hshort]
  · rw [if_neg hshort, if_neg hshort]
    have hcommand : (s.take n).getD (getCircIdSize conn.wideCircIds) 0 =
        s.getD (getCircIdSize conn.wideCircIds) 0 := by
      rw [getD_eq_getElem?_getD, getD_eq_getElem?_getD, getElem?_take_of_lt (by omega)]
    have hsize : ((s.take n).drop (getCircIdSize conn.wideCircIds + 1)).take 2 =
        (s.drop (getCircIdSize conn.wideCircIds + 1)).take 2 := by
      rw [drop_take, take_take, Nat.min_eq_left (by omega)]
    have hlong : ¬ s.length < getVarCellHeaderSize conn.wideCircIds := by omega
    rw [hcommand, hsize, if_neg hlong]

lemma length_cellPack {cell : FixedCell} (h : (fixed cell).Fits conn) :
    (cellPack cell conn.wideCircIds).length = getCellNetworkSize conn.wideCircIds := by
  obtain ⟨-, hnetwork⟩ := getSizes conn.wideCircIds
  have hpayload : cell.payload.length = 509 := h.2.1
  unfold cellPack
  rw [length_append, length_toBytes, length_cons]
  omega

/-- **A cell of fixed size is unpacked** from its bytes. -/
lemma cellUnpack_cellPack {cell : FixedCell} (h : (fixed cell).Fits conn) :
    cellUnpack (cellPack cell conn.wideCircIds) conn.wideCircIds = cell := by
  unfold cellUnpack cellPack
  dsimp only
  rw [take_circId, getD_circId, drop_circId, ofBytes_toBytes h.1, take_of_length_le h.2.1.le]

lemma var_bytes_drop (conn : OrConnection) (cell : VarCell) :
    ((LinkCell.var cell).bytes conn).drop (getVarCellHeaderSize conn.wideCircIds) =
      cell.payload := by
  obtain ⟨hheader, -⟩ := getSizes conn.wideCircIds
  refine drop_left' ?_
  unfold varCellPackHeader
  rw [length_append, length_cons, length_toBytes, length_toBytes, hheader]

/-- A cell has more bytes than its circuit id. -/
lemma lt_length_bytes (conn : OrConnection) (cell : LinkCell) :
    getCircIdSize conn.wideCircIds < (cell.bytes conn).length := by
  cases cell with
  | fixed cell =>
    unfold bytes cellPack
    rw [length_append, length_cons, length_toBytes]
    omega
  | var cell =>
    unfold bytes varCellPackHeader
    rw [length_append, length_append, length_cons, length_toBytes]
    omega

/-- **A cell is taken off** its bytes. -/
lemma parseLinkCell_bytes {cell : LinkCell} (h : cell.Fits conn) (rest : List UInt8) :
    parseLinkCell conn (cell.bytes conn ++ rest) = some (cell, rest) := by
  cases cell with
  | fixed cell =>
    have hlen := length_cellPack h
    unfold parseLinkCell bytes
    dsimp only
    rw [varCellSize_fixed h]
    dsimp only
    rw [if_neg (by rw [length_append]; omega), take_left' hlen, drop_left' hlen,
      cellUnpack_cellPack h]
  | var cell =>
    have hbytes : (LinkCell.var cell).bytes conn ++ rest =
        toBytes (getCircIdSize conn.wideCircIds) cell.circId ++ cell.command ::
          (toBytes 2 cell.payload.length ++ (cell.payload ++ rest)) := by
      unfold bytes varCellPackHeader
      simp only [append_assoc, cons_append]
    have hcircId := take_circId (getCircIdSize conn.wideCircIds) cell.circId cell.command
      (toBytes 2 cell.payload.length ++ (cell.payload ++ rest))
    have hcommand := getD_circId (getCircIdSize conn.wideCircIds) cell.circId cell.command
      (toBytes 2 cell.payload.length ++ (cell.payload ++ rest))
    rw [← hbytes] at hcircId hcommand
    unfold parseLinkCell
    dsimp only
    rw [varCellSize_var h]
    dsimp only
    rw [if_neg (by rw [length_append]; omega), hcircId, hcommand, take_left, drop_left,
      var_bytes_drop, ofBytes_toBytes h.1]

/-- **The start of a cell is no cell.** -/
lemma parseLinkCell_short {cell : LinkCell} {n : ℕ} (h : cell.Fits conn)
    (hn : n < (cell.bytes conn).length) : parseLinkCell conn ((cell.bytes conn).take n) = none := by
  obtain ⟨hheader, hnetwork⟩ := getSizes conn.wideCircIds
  have hlen : ((cell.bytes conn).take n).length = n := length_take_of_le hn.le
  unfold parseLinkCell
  dsimp only
  rw [varCellSize_take hn.le, hlen]
  by_cases hshort : n < getVarCellHeaderSize conn.wideCircIds
  · rw [if_pos hshort]
    dsimp only
    rw [if_pos (by omega)]
  · rw [if_neg hshort]
    cases cell with
    | fixed cell =>
      have hsize := varCellSize_fixed h []
      rw [append_nil] at hsize
      unfold bytes at hn ⊢
      dsimp only at hn ⊢
      rw [hsize]
      dsimp only
      rw [if_pos (by rw [← length_cellPack h]; exact hn)]
    | var cell =>
      have hsize := varCellSize_var h []
      rw [append_nil] at hsize
      rw [hsize]
      dsimp only
      rw [if_pos hn]

/-- **Cells on a link** are a self-delimiting code. -/
theorem linkCells_isCode (conn : OrConnection) :
    Framing.IsCode (bytes conn) (parseLinkCell conn) (LinkCell.Fits conn) where
  ne_nil cell _ := ne_nil_of_length_pos (Nat.zero_lt_of_lt (lt_length_bytes conn cell))
  parse_nil := by
    obtain ⟨hheader, hnetwork⟩ := getSizes conn.wideCircIds
    unfold parseLinkCell varCellSize
    dsimp only
    rw [length_nil, if_pos (by omega)]
    dsimp only
    rw [if_pos (by omega)]
  parse_append _ rest h := parseLinkCell_bytes h rest
  parse_short _ _ h hn := parseLinkCell_short h hn

end Code

/-! ### Buffers -/

section Buffers

variable {L : ChunkLayout} {conn : OrConnection} {st : BufAt}

/-- **Fetching a cell of variable length** depends on the bytes of the buffer only. -/
lemma fetchVarCellFromBuf_eq (h : BufOk L st)
    (hwide : conn.wideCircIds = decide (4 ≤ conn.linkProto)) :
    match varCellSize conn st.buf.content with
    | none => fetchVarCellFromBuf L st conn.linkProto = some .notVar
    | some size =>
      if st.buf.content.length < size then fetchVarCellFromBuf L st conn.linkProto = some .notYet
      else ∃ st', fetchVarCellFromBuf L st conn.linkProto = some (.fetched st'
          ⟨ofBytes (st.buf.content.take (getCircIdSize conn.wideCircIds)),
            st.buf.content.getD (getCircIdSize conn.wideCircIds) 0,
            (st.buf.content.take size).drop (getVarCellHeaderSize conn.wideCircIds)⟩) ∧
        BufOk L st' ∧ st'.buf.content = st.buf.content.drop size := by
  obtain ⟨hheader, -⟩ := getSizes conn.wideCircIds
  unfold varCellSize fetchVarCellFromBuf
  rw [← hwide, h.datalen]
  dsimp only
  by_cases hshort : st.buf.content.length < getVarCellHeaderSize conn.wideCircIds
  · rw [if_pos hshort, if_pos hshort]
  · rw [if_neg hshort, if_neg hshort, peekFromBuf_eq h (not_lt.mp hshort)]
    have hcommand : (st.buf.content.take (getVarCellHeaderSize conn.wideCircIds)).getD
        (getCircIdSize conn.wideCircIds) 0 =
          st.buf.content.getD (getCircIdSize conn.wideCircIds) 0 := by
      rw [getD_eq_getElem?_getD, getD_eq_getElem?_getD, getElem?_take_of_lt (by omega)]
    have hsize : ((st.buf.content.take (getVarCellHeaderSize conn.wideCircIds)).drop
        (getCircIdSize conn.wideCircIds + 1)).take 2 =
          (st.buf.content.drop (getCircIdSize conn.wideCircIds + 1)).take 2 := by
      rw [drop_take, take_take, Nat.min_eq_left (by omega)]
    have hcircId : (st.buf.content.take (getVarCellHeaderSize conn.wideCircIds)).take
        (getCircIdSize conn.wideCircIds) =
          st.buf.content.take (getCircIdSize conn.wideCircIds) := by
      rw [take_take, Nat.min_eq_left (by omega)]
    simp only [bind_eq_bind, bind_some, hcommand, hsize, hcircId]
    by_cases hvar : cellCommandIsVarLength (st.buf.content.getD (getCircIdSize conn.wideCircIds) 0)
        conn.linkProto = false
    · rw [if_pos hvar, if_pos hvar]
    · rw [if_neg hvar, if_neg hvar]
      dsimp only
      generalize ofBytes ((st.buf.content.drop (getCircIdSize conn.wideCircIds + 1)).take 2) =
        length
      by_cases hmissing : st.buf.content.length < getVarCellHeaderSize conn.wideCircIds + length
      · rw [if_pos hmissing, if_pos hmissing]
      · rw [if_neg hmissing, if_neg hmissing]
        obtain ⟨st₁, hst₁, hkept₁, hcontent₁, -⟩ :=
          exists_bufRemoveFromFront h (.inl (not_lt.mp hshort))
        have hpayload : length ≤ st₁.buf.content.length := by
          rw [hcontent₁, length_drop]
          omega
        obtain ⟨st₂, hst₂, hkept₂, hcontent₂, -⟩ :=
          exists_bufRemoveFromFront hkept₁.ok (.inl hpayload)
        refine ⟨st₂, ?_, hkept₂.ok, by rw [hcontent₂, hcontent₁, drop_drop]⟩
        rw [hst₁, bind_some, peekFromBuf_eq hkept₁.ok hpayload, bind_some, hst₂, bind_some,
          hcontent₁, drop_take, Nat.add_sub_cancel_left]

lemma parseLinkCell_of_none {s : List UInt8} (h : varCellSize conn s = none) :
    parseLinkCell conn s =
    if s.length < getCellNetworkSize conn.wideCircIds then none
    else some (.fixed (cellUnpack (s.take (getCellNetworkSize conn.wideCircIds)) conn.wideCircIds),
      s.drop (getCellNetworkSize conn.wideCircIds)) := by
  unfold parseLinkCell
  rw [h]

lemma parseLinkCell_of_some {s : List UInt8} {size : ℕ} (h : varCellSize conn s = some size) :
    parseLinkCell conn s = if s.length < size then none
    else some
      (.var ⟨ofBytes (s.take (getCircIdSize conn.wideCircIds)),
        s.getD (getCircIdSize conn.wideCircIds) 0,
        (s.take size).drop (getVarCellHeaderSize conn.wideCircIds)⟩, s.drop size) := by
  unfold parseLinkCell
  rw [h]

/-- **The cells that are taken from the inbuf** are those at the start of its bytes. -/
lemma exists_processCells (hwide : conn.wideCircIds = decide (4 ≤ conn.linkProto)) {passes : ℕ}
    (h : BufOk L st) (hpasses : st.buf.content.length < passes)
    (hmax : st.buf.content.length < intMax) :
    ∃ st', connectionOrProcessCellsFromInbuf L conn passes st =
        some (st', (Framing.drain (parseLinkCell conn) passes st.buf.content).1) ∧ BufOk L st' ∧
      st'.buf.content = (Framing.drain (parseLinkCell conn) passes st.buf.content).2 := by
  induction passes generalizing st with
  | zero => exact absurd hpasses (Nat.not_lt_zero _)
  | succ passes ih =>
    obtain ⟨hheader, hnetwork⟩ := getSizes conn.wideCircIds
    have hfetch := fetchVarCellFromBuf_eq h hwide
    rw [connectionOrProcessCellsFromInbuf, Framing.drain]
    cases hsize : varCellSize conn st.buf.content with
    | none =>
      rw [hsize] at hfetch
      dsimp only at hfetch
      rw [hfetch, bind_eq_bind, bind_some, parseLinkCell_of_none hsize]
      dsimp only
      rw [h.datalen]
      by_cases hmissing : st.buf.content.length < getCellNetworkSize conn.wideCircIds
      · rw [if_pos hmissing, if_pos hmissing]
        exact ⟨st, rfl, h, rfl⟩
      · rw [if_neg hmissing, if_neg hmissing]
        obtain ⟨st₁, hst₁, hkept₁, hcontent₁, -⟩ :=
          exists_fetchFromBuf h (.inl ⟨not_lt.mp hmissing, hmax⟩)
        have hlen : st₁.buf.content.length =
            st.buf.content.length - getCellNetworkSize conn.wideCircIds := by
          rw [hcontent₁, length_drop]
        obtain ⟨st₂, hst₂, hok₂, hcontent₂⟩ := ih hkept₁.ok (by omega) (by omega)
        refine ⟨st₂, ?_, hok₂, by rw [hcontent₂, hcontent₁]⟩
        rw [hst₁, bind_eq_bind, bind_some, hst₂, hcontent₁]
        rfl
    | some size =>
      rw [hsize] at hfetch
      dsimp only at hfetch
      rw [parseLinkCell_of_some hsize]
      by_cases hmissing : st.buf.content.length < size
      · rw [if_pos hmissing] at hfetch ⊢
        rw [hfetch]
        exact ⟨st, rfl, h, rfl⟩
      · rw [if_neg hmissing] at hfetch ⊢
        obtain ⟨st₁, hst₁, hok₁, hcontent₁⟩ := hfetch
        have hpos : 0 < size := by
          unfold varCellSize at hsize
          dsimp only at hsize
          split_ifs at hsize
          have hsize := Option.some.inj hsize
          omega
        have hlen : st₁.buf.content.length = st.buf.content.length - size := by
          rw [hcontent₁, length_drop]
        obtain ⟨st₂, hst₂, hok₂, hcontent₂⟩ := ih hok₁ (by omega) (by omega)
        refine ⟨st₂, ?_, hok₂, by rw [hcontent₂, hcontent₁]⟩
        rw [hst₁, bind_eq_bind, bind_some]
        dsimp only
        rw [hst₂, hcontent₁]
        rfl

end Buffers

/-! ### Arrivals -/

/-- Some bytes arrive: they are behind those of the inbuf then, in whatever chunks. -/
structure LinkArrival (L : ChunkLayout) where
  bytes : List UInt8
  receive : BufAt → BufAt
  ok : ∀ inbuf, BufOk L inbuf → inbuf.buf.content.length + bytes.length < intMax →
    BufOk L (receive inbuf) ∧ (receive inbuf).buf.content = inbuf.buf.content ++ bytes

/-- After each arrival, the cells that are there are delivered. -/
def linkRun (L : ChunkLayout) (conn : OrConnection) :
    BufAt → List (LinkArrival L) → Option (BufAt × List (List LinkCell))
  | inbuf, [] => some (inbuf, [])
  | inbuf, arrival :: arrivals => do
    let inbuf := arrival.receive inbuf
    let (inbuf, cells) ← connectionOrProcessCellsFromInbuf L conn (inbuf.buf.datalen + 1) inbuf
    let (inbuf, deliveries) ← linkRun L conn inbuf arrivals
    some (inbuf, cells :: deliveries)

def LinkCell.write (L : ChunkLayout) (conn : OrConnection) (outbuf : BufAt) :
    LinkCell → Option BufAt
  | fixed cell => connectionOrWriteCellToBuf L conn outbuf cell
  | var cell => connectionOrWriteVarCellToBuf L conn outbuf cell

def maxLinkCellSize : ℕ := getVarCellHeaderSize true + 65535

section Runs

variable {L : ChunkLayout} {conn : OrConnection} {cells : List LinkCell}

lemma length_bytes_le {cell : LinkCell} (h : cell.Fits conn) :
    (cell.bytes conn).length ≤ maxLinkCellSize := by
  have hid : getCircIdSize conn.wideCircIds ≤ 4 := by
    unfold getCircIdSize
    split_ifs <;> decide
  cases cell with
  | fixed cell =>
    have hlen := length_cellPack h
    obtain ⟨-, hnetwork⟩ := getSizes conn.wideCircIds
    have hheader : getVarCellHeaderSize true = 7 := rfl
    unfold bytes maxLinkCellSize
    dsimp only
    omega
  | var cell =>
    have hpayload : cell.payload.length < 256 ^ 2 := h.2.1
    have hheader : getVarCellHeaderSize true = 7 := rfl
    unfold bytes varCellPackHeader maxLinkCellSize
    simp only [length_append, length_cons, length_toBytes]
    omega

/-- **A cell is written** behind the bytes of the outbuf. -/
lemma exists_write {outbuf : BufAt} {cell : LinkCell} (h : BufOk L outbuf) (hfits : cell.Fits conn)
    (hmax : outbuf.buf.content.length + (cell.bytes conn).length < intMax) :
    ∃ outbuf', cell.write L conn outbuf = some outbuf' ∧ BufOk L outbuf' ∧
      outbuf'.buf.content = outbuf.buf.content ++ cell.bytes conn := by
  cases cell with
  | fixed cell =>
    obtain ⟨outbuf', hwrite, hkept, hcontent, -⟩ := exists_writeToBuf h (.inl hmax)
    refine ⟨outbuf', ?_, hkept.ok, hcontent⟩
    unfold LinkCell.write connectionOrWriteCellToBuf
    dsimp only
    rw [take_of_length_le (length_cellPack hfits).le]
    exact hwrite
  | var cell =>
    unfold bytes at hmax ⊢
    dsimp only at hmax ⊢
    rw [length_append] at hmax
    have hroom₁ : outbuf.buf.content.length + (varCellPackHeader cell conn.wideCircIds).length <
      intMax := by omega
    obtain ⟨outbuf₁, hwrite₁, hkept₁, hcontent₁, -⟩ := exists_writeToBuf h (.inl hroom₁)
    have hroom₂ : outbuf₁.buf.content.length + cell.payload.length < intMax := by
      rw [hcontent₁, length_append]
      omega
    obtain ⟨outbuf₂, hwrite₂, hkept₂, hcontent₂, -⟩ := exists_writeToBuf hkept₁.ok (.inl hroom₂)
    refine ⟨outbuf₂, ?_, hkept₂.ok, by rw [hcontent₂, hcontent₁, append_assoc]⟩
    unfold LinkCell.write connectionOrWriteVarCellToBuf
    dsimp only
    rw [hwrite₁]
    exact hwrite₂

/-- **A run delivers** what is fed to the parser. -/
lemma exists_linkRun (hwide : conn.wideCircIds = decide (4 ≤ conn.linkProto))
    (hfits : ∀ cell ∈ cells, cell.Fits conn) {inbuf : BufAt} {arrivals : List (LinkArrival L)}
    (h : BufOk L inbuf) (hshort : ∀ a ∈ arrivals, maxLinkCellSize + a.bytes.length < intMax)
    (hstart : inbuf.buf.content ++ (arrivals.map LinkArrival.bytes).flatten <+: cells.flatMap
      (bytes conn))
    (hleft : Framing.complete (bytes conn) cells inbuf.buf.content.length = 0) :
    ∃ inbuf', linkRun L conn inbuf arrivals = some (inbuf',
      Framing.feed (parseLinkCell conn) inbuf.buf.content (arrivals.map LinkArrival.bytes)) := by
  induction arrivals generalizing inbuf cells with
  | nil => exact ⟨inbuf, rfl⟩
  | cons arrival arrivals ih =>
    have hlength := Framing.length_left_le (fun cell hcell => length_bytes_le (hfits cell hcell))
      ((prefix_append _ _).trans hstart) hleft
    have hroom := hshort arrival mem_cons_self
    obtain ⟨hok, hcontent⟩ := arrival.ok inbuf h (by omega)
    have hmax : (arrival.receive inbuf).buf.content.length < intMax := by
      rw [hcontent, length_append]
      omega
    rw [map_cons, flatten_cons, ← append_assoc, ← hcontent] at hstart
    obtain ⟨st, hprocess, hok', hcontent'⟩ :=
      exists_processCells hwide hok (Nat.lt_succ_self _) hmax
    obtain ⟨left, hdrain, hstart', hleft', -⟩ :=
      Framing.drain_of_prefix (linkCells_isCode conn) hfits hstart (Nat.lt_succ_self _)
    rw [hdrain] at hprocess hcontent'
    obtain ⟨inbuf', hrun⟩ := ih (fun cell hcell => hfits cell (mem_of_mem_drop hcell)) hok'
      (fun a ha => hshort a (mem_cons_of_mem _ ha)) (by rw [hcontent']; exact hstart')
      (by rw [hcontent']; exact hleft')
    refine ⟨inbuf', ?_⟩
    rw [linkRun, hok.datalen, hprocess, bind_eq_bind, bind_some]
    dsimp only
    rw [hrun, map_cons, Framing.feed, ← hcontent, hdrain, hcontent']
    rfl

end Runs

/-- **Link framing.**  Cells are written behind one another, and however the bytes that are written
arrive, each cell is delivered when its last byte has arrived: what has been delivered is what has
arrived of the cells, in their order.  When all bytes have arrived, all cells have been
delivered. -/
structure LinkCellsExact (L : ChunkLayout) (conn : OrConnection) (cells : List LinkCell) :
    Prop where
  written : ∀ outbuf, ∀ cell ∈ cells, BufOk L outbuf →
    outbuf.buf.content.length + (cell.bytes conn).length < intMax →
      ∃ outbuf', cell.write L conn outbuf = some outbuf' ∧ BufOk L outbuf' ∧
        outbuf'.buf.content = outbuf.buf.content ++ cell.bytes conn
  delivered : ∀ inbuf (arrivals : List (LinkArrival L)), BufOk L inbuf → inbuf.buf.content = [] →
    (∀ a ∈ arrivals, maxLinkCellSize + a.bytes.length < intMax) →
    (arrivals.map LinkArrival.bytes).flatten <+: cells.flatMap (LinkCell.bytes conn) →
      ∃ inbuf' deliveries, linkRun L conn inbuf arrivals = some (inbuf', deliveries) ∧
        (∀ j, (deliveries.take j).flatten = cells.take (Framing.complete (LinkCell.bytes conn) cells
          ((arrivals.map LinkArrival.bytes).take j).flatten.length)) ∧
        ((arrivals.map LinkArrival.bytes).flatten = cells.flatMap (LinkCell.bytes conn) →
          deliveries.flatten = cells)

/-- **Cells are framed exactly** on a link with a fixed version of its protocol, if they fit it. -/
theorem linkCells_exact {L : ChunkLayout} {conn : OrConnection} {cells : List LinkCell}
    (hwide : conn.wideCircIds = decide (4 ≤ conn.linkProto))
    (hfits : ∀ cell ∈ cells, cell.Fits conn) :
    LinkCellsExact L conn cells := by
  refine ⟨fun outbuf cell hcell h hmax => exists_write h (hfits cell hcell) hmax, ?_⟩
  intro inbuf arrivals h hempty hshort hstart
  have hleft : Framing.complete (LinkCell.bytes conn) cells inbuf.buf.content.length = 0 := by
    rw [hempty]
    cases cells with
    | nil => rfl
    | cons cell cells =>
      have hpos := lt_length_bytes conn cell
      rw [Framing.complete, length_nil, if_neg (by omega)]
  have hstart' : inbuf.buf.content ++ (arrivals.map LinkArrival.bytes).flatten <+:
      cells.flatMap (LinkCell.bytes conn) := by
    rw [hempty]
    exact hstart
  obtain ⟨inbuf', hrun⟩ := exists_linkRun hwide hfits h hshort hstart' hleft
  have hexact := Framing.feed_exact (linkCells_isCode conn) hfits hstart' hleft
  rw [hempty] at hrun hexact
  simp only [length_nil, Nat.zero_add] at hexact
  refine ⟨inbuf', _, hrun, hexact, fun hall => ?_⟩
  have hlast := hexact (arrivals.map LinkArrival.bytes).length
  rw [take_of_length_le (Framing.length_feed _ _).le, take_length, hall, Framing.complete_length,
    take_length] at hlast
  exact hlast

/-- A cell of variable length and one of fixed size, on a link with wide circuit ids. -/
def versionsAndPadding : List LinkCell :=
  [.var ⟨0, 7, [0, 3, 0, 4]⟩, .fixed ⟨2 ^ 31, 0, replicate fixedPayloadSize 0⟩]

theorem linkCells_exact_versions : LinkCellsExact ⟨24, by decide⟩ ⟨4, true⟩ versionsAndPadding := by
  refine linkCells_exact rfl fun cell hcell => ?_
  rcases mem_cons.mp hcell with rfl | hcell
  · exact ⟨by decide, by decide, rfl⟩
  · rw [mem_singleton.mp hcell]
    exact ⟨by decide, length_replicate, rfl⟩

end Astoria
