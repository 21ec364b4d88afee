import Mathlib
import Astoria.TorClient.Circuitmux

/-!
# Buffers

A buffer is a linked list of chunks.  Bytes are added to the tail and removed from the head; in each
chunk they are contiguous.  `bufPullup` makes the first bytes of a buffer contiguous by moving them
into the first chunk.  A counter keeps the total size of all chunks of all buffers.

A chunk is known by its address, so that the pointer to the tail is a value of its own; a chunk that
is reallocated gets a new address.  Lengths are natural numbers.  Functions yield `none` where an
assertion fails, a pointer has no chunk, or bytes are written behind the memory of a chunk.  What
sockets and the compression yield is a parameter.
-/

namespace Astoria

/-! ### Chunks -/

/-- Where the memory of a chunk starts (`CHUNK_HEADER_LEN`).  The smallest chunk has room for a
read. -/
structure ChunkLayout where
  headerLen : ℕ
  room : headerLen + 8 ≤ 256

structure Chunk where
  addr : ℕ
  /-- The number of bytes of its memory. -/
  memlen : ℕ
  /-- How far behind the start of its memory its data starts. -/
  offset : ℕ
  data : List UInt8
  deriving DecidableEq

namespace Chunk

/-- The number of bytes of data. -/
def datalen (c : Chunk) : ℕ := c.data.length

/-- The number of bytes that can be written (`CHUNK_REMAINING_CAPACITY`). -/
def remainingCapacity (c : Chunk) : ℕ := c.memlen - (c.offset + c.datalen)

/-- The data is moved to the start of the memory. -/
def repack (c : Chunk) : Chunk := { c with offset := 0 }

/-- Bytes are written behind the data. -/
def write (c : Chunk) (bytes : List UInt8) : Option Chunk :=
  if bytes.length ≤ c.remainingCapacity then some { c with data := c.data ++ bytes } else none

/-- The first bytes of the data are left behind. -/
def drop (c : Chunk) (n : ℕ) : Chunk := { c with offset := c.offset + n, data := c.data.drop n }

end Chunk

/-- The size of all chunks (`total_bytes_allocated_in_chunks`), and the next address. -/
structure ChunkHeap where
  totalBytes : ℕ
  nextAddr : ℕ
  deriving DecidableEq

/-- If a read onto the end of a chunk would be smaller than this, a new chunk is started. -/
def minReadLen : ℕ := 8

/-- Every chunk takes up at least this many bytes. -/
def minChunkAlloc : ℕ := 256

/-- No chunk that is capped takes up more than this many bytes. -/
def maxChunkAlloc : ℕ := 65536

/-- The largest `int`. -/
def intMax : ℕ := 2147483647

/-- The number of bytes of a chunk with memory of a length. -/
def ChunkLayout.allocSize (L : ChunkLayout) (memlen : ℕ) : ℕ := L.headerLen + memlen

/-- The length of the memory of a chunk with a number of bytes. -/
def ChunkLayout.sizeWithAlloc (L : ChunkLayout) (alloc : ℕ) : ℕ := alloc - L.headerLen

def chunkFree (L : ChunkLayout) (heap : ChunkHeap) (c : Chunk) : Option ChunkHeap := do
  torAssert (heap.totalBytes ≥ L.allocSize c.memlen)
  some { heap with totalBytes := heap.totalBytes - L.allocSize c.memlen }

/-- The heap after a chunk with a number of bytes has been allocated. -/
def ChunkHeap.alloc (heap : ChunkHeap) (alloc : ℕ) : ChunkHeap :=
  ⟨heap.totalBytes + alloc, heap.nextAddr + 1⟩

def chunkNewWithAllocSize (L : ChunkLayout) (heap : ChunkHeap) (alloc : ℕ) : Chunk :=
  ⟨heap.nextAddr, L.sizeWithAlloc alloc, 0, []⟩

/-- A chunk is reallocated, so that its memory has a length. -/
def chunkGrow (L : ChunkLayout) (heap : ChunkHeap) (c : Chunk) (sz : ℕ) :
    Option (ChunkHeap × Chunk) := do
  torAssert (sz > c.memlen)
  some (heap.alloc (L.allocSize sz - L.allocSize c.memlen),
    { c with addr := heap.nextAddr, memlen := sz })

/-- The size is doubled until its memory suffices; every round adds at least one byte. -/
def doubleSize (L : ChunkLayout) (target : ℕ) : ℕ → ℕ → ℕ
  | 0, sz => sz
  | fuel + 1, sz =>
    if L.sizeWithAlloc sz < target then doubleSize L target fuel (2 * sz) else sz

/-- The allocation size for a number of bytes. -/
def preferredChunkSize (L : ChunkLayout) (target : ℕ) : ℕ :=
  doubleSize L target target minChunkAlloc

/-! ### Buffers -/

structure Buf where
  /-- The chunks, from the head. -/
  chunks : List Chunk
  tail : Option ℕ
  datalen : ℕ
  defaultChunkSize : ℕ
  deriving DecidableEq

/-- A buffer, with the heap of its chunks. -/
structure BufAt where
  heap : ChunkHeap
  buf : Buf
  deriving DecidableEq

def bufNew : Buf := ⟨[], none, 0, 4096⟩

/-- A new buffer with a default chunk capacity. -/
def bufNewWithCapacity (L : ChunkLayout) (size : ℕ) : Buf :=
  { bufNew with defaultChunkSize := preferredChunkSize L size }

/-- The size of all chunks of a buffer. -/
def bufAllocation (L : ChunkLayout) (buf : Buf) : ℕ :=
  (buf.chunks.map fun c => L.allocSize c.memlen).sum

def Buf.tailChunk (buf : Buf) : Option Chunk :=
  buf.tail.bind fun t => buf.chunks.find? (·.addr = t)

def Buf.setChunk (buf : Buf) (c : Chunk) : Buf :=
  { buf with chunks := buf.chunks.map fun c' => if c'.addr = c.addr then c else c' }

/-- The chunk becomes the next one of the chunk at an address. -/
def linkAfter (t : ℕ) (c : Chunk) : List Chunk → List Chunk
  | [] => []
  | c' :: rest => if c'.addr = t then [c', c] else c' :: linkAfter t c rest

/-- A chunk becomes the tail. -/
def Buf.link (buf : Buf) (c : Chunk) : Buf :=
  match buf.tail with
  | some t => { buf with chunks := linkAfter t c buf.chunks, tail := some c.addr }
  | none => { buf with chunks := [c], tail := some c.addr }

def chunkSizeFor (L : ChunkLayout) (buf : Buf) (capacity : ℕ) (capped : Bool) : ℕ :=
  if L.allocSize capacity < buf.defaultChunkSize then buf.defaultChunkSize
  else if capped ∧ L.allocSize capacity > maxChunkAlloc then maxChunkAlloc
  else preferredChunkSize L capacity

/-- A new chunk, with enough room for a number of bytes unless its size is capped, becomes the
tail. -/
def bufAddChunkWithCapacity (L : ChunkLayout) (st : BufAt) (capacity : ℕ) (capped : Bool) :
    Option BufAt := do
  let alloc := chunkSizeFor L st.buf capacity capped
  torAssert (if st.buf.tail = none then st.buf.chunks = [] else st.buf.chunks ≠ [])
  some ⟨st.heap.alloc alloc, st.buf.link (chunkNewWithAllocSize L st.heap alloc)⟩

/-- Whether there is no tail, or less room in it than some number of bytes. -/
def Buf.needsChunk (buf : Buf) (room : ℕ) : Option Bool :=
  if buf.tail = none then some true
  else do
    let c ← buf.tailChunk
    some (c.remainingCapacity < room)

/-- A chunk is added if there is not enough room in the tail. -/
def bufEnsureTail (L : ChunkLayout) (st : BufAt) (room capacity : ℕ) : Option BufAt := do
  let need ← st.buf.needsChunk room
  if need then bufAddChunkWithCapacity L st capacity true else some st

/-- Bytes are written behind the data of the tail. -/
def Buf.writeTail (buf : Buf) (bytes : List UInt8) : Option Buf := do
  let c ← buf.tailChunk
  let c ← c.write bytes
  some { buf.setChunk c with datalen := buf.datalen + bytes.length }

/-- As many bytes as the tail has room for are written until none are left.  Every round writes at
least one byte. -/
def writeLoop (L : ChunkLayout) : ℕ → BufAt → List UInt8 → Option BufAt
  | _, st, [] => some st
  | 0, _, _ :: _ => none
  | fuel + 1, st, b :: string => do
    let st ← bufEnsureTail L st 1 (b :: string).length
    let c ← st.buf.tailChunk
    let copy := min c.remainingCapacity (b :: string).length
    let buf ← st.buf.writeTail ((b :: string).take copy)
    writeLoop L fuel { st with buf := buf } ((b :: string).drop copy)

/-- A string is appended to a buffer. -/
def writeToBuf (L : ChunkLayout) (st : BufAt) (string : List UInt8) : Option BufAt :=
  if string = [] then some st
  else do
    let st ← writeLoop L string.length st string
    torAssert (st.buf.datalen < intMax)
    some st

/-- The first bytes of some chunks. -/
def peekChunks : List Chunk → ℕ → Option (List UInt8)
  | _, 0 => some []
  | [], _ + 1 => none
  | c :: rest, n + 1 => do
    let bytes ← peekChunks rest (n + 1 - min c.datalen (n + 1))
    some (c.data.take (min c.datalen (n + 1)) ++ bytes)

/-- The first bytes of a buffer. -/
def peekFromBuf (buf : Buf) (n : ℕ) : Option (List UInt8) := do
  torAssert (n ≤ buf.datalen)
  peekChunks buf.chunks n

/-- The first bytes are removed, with the chunks that become empty. -/
def removeChunks (L : ChunkLayout) : List Chunk → ℕ → BufAt → Option BufAt
  | chunks, 0, st => some { st with buf := { st.buf with chunks := chunks } }
  | [], _ + 1, _ => none
  | c :: rest, n + 1, st =>
    if c.datalen > n + 1 then
      some { st with buf := { st.buf with
        chunks := c.drop (n + 1) :: rest, datalen := st.buf.datalen - (n + 1) } }
    else do
      let heap ← chunkFree L st.heap c
      removeChunks L rest (n + 1 - c.datalen) ⟨heap, { st.buf with
        tail := if st.buf.tail = some c.addr then none else st.buf.tail
        datalen := st.buf.datalen - c.datalen }⟩

/-- The first bytes of a buffer are removed. -/
def bufRemoveFromFront (L : ChunkLayout) (st : BufAt) (n : ℕ) : Option BufAt := do
  torAssert (st.buf.datalen ≥ n)
  removeChunks L st.buf.chunks n st

/-- The first bytes of a buffer are removed and returned. -/
def fetchFromBuf (L : ChunkLayout) (st : BufAt) (n : ℕ) : Option (BufAt × List UInt8) := do
  let string ← peekFromBuf st.buf n
  let st ← bufRemoveFromFront L st n
  torAssert (st.buf.datalen < intMax)
  some (st, string)

def freeChunks (L : ChunkLayout) : List Chunk → ChunkHeap → Option ChunkHeap
  | [], heap => some heap
  | c :: rest, heap => do
    let heap ← chunkFree L heap c
    freeChunks L rest heap

/-- Everything is removed from a buffer. -/
def bufClear (L : ChunkLayout) (st : BufAt) : Option BufAt := do
  let heap ← freeChunks L st.buf.chunks st.heap
  some ⟨heap, { st.buf with chunks := [], tail := none, datalen := 0 }⟩

/-- Copies of some chunks are linked behind those of a buffer. -/
def copyChunks (L : ChunkLayout) : List Chunk → BufAt → BufAt
  | [], out => out
  | c :: rest, out =>
    copyChunks L rest
      ⟨out.heap.alloc (L.allocSize c.memlen), out.buf.link { c with addr := out.heap.nextAddr }⟩

def bufCopy (L : ChunkLayout) (heap : ChunkHeap) (buf : Buf) : BufAt :=
  let out := copyChunks L buf.chunks
    ⟨heap, { bufNew with defaultChunkSize := buf.defaultChunkSize }⟩
  { out with buf := { out.buf with datalen := buf.datalen } }

/-! ### Contiguous bytes -/

/-- The data of the next chunks is moved into the first one until it has `bytes` bytes.  A chunk
from which more is needed than it has is freed; of the last one the bytes that are needed are taken,
even if these are all it has. -/
def pullupLoop (L : ChunkLayout) (bytes : ℕ) : Chunk → List Chunk → BufAt → Option BufAt
  | dest, [], st => do
    torAssert (¬dest.datalen < bytes)
    some { st with buf := { st.buf with chunks := [dest] } }
  | dest, src :: rest, st =>
    if dest.datalen < bytes then
      let n := bytes - dest.datalen
      if n > src.datalen then do
        let dest ← dest.write src.data
        let heap ← chunkFree L st.heap src
        let tail := if st.buf.tail = some src.addr then some dest.addr else st.buf.tail
        pullupLoop L bytes dest rest ⟨heap, { st.buf with tail := tail }⟩
      else do
        let dest ← dest.write (src.data.take n)
        torAssert (dest.datalen = bytes)
        some { st with buf := { st.buf with chunks := dest :: src.drop n :: rest } }
    else some { st with buf := { st.buf with chunks := dest :: src :: rest } }

/-- The first chunk is repacked if it has to be, or reallocated. -/
def pullupHead (L : ChunkLayout) (st : BufAt) (head : Chunk) (capacity : ℕ) :
    Option (BufAt × Chunk) :=
  if head.memlen ≥ capacity then do
    let needed := capacity - head.datalen
    let head := if head.remainingCapacity < needed then head.repack else head
    torAssert (head.remainingCapacity ≥ needed)
    some (st, head)
  else do
    let newsize := L.sizeWithAlloc (preferredChunkSize L capacity)
    let (heap, newhead) ← chunkGrow L st.heap head.repack newsize
    torAssert (newhead.memlen ≥ capacity)
    let tail := if st.buf.tail = some head.addr then some newhead.addr else st.buf.tail
    some (⟨heap, { st.buf with tail := tail }⟩, newhead)

/-- The first bytes of a buffer are made contiguous.  No caller asks for a terminating zero. -/
def bufPullup (L : ChunkLayout) (st : BufAt) (bytes : ℕ) : Option BufAt :=
  match st.buf.chunks with
  | [] => some st
  | head :: rest =>
    let bytes := if st.buf.datalen < bytes then st.buf.datalen else bytes
    if head.datalen ≥ bytes then some st
    else do
      let (st, dest) ← pullupHead L st head bytes
      pullupLoop L bytes dest rest st

/-! ### Sockets and compression -/

/-- What a socket yields when it is read. -/
inductive RecvResult
  | error
  | wouldBlock
  /-- Bytes, of which no more than asked for are received; none at the end of the file. -/
  | got (bytes : List UInt8)
  deriving DecidableEq

/-- What a round of reading leaves. -/
inductive ReadRound
  | failed
  /-- Nothing more can be read. -/
  | last (bytes : List UInt8) (reachedEof : Bool)
  | more (bytes : List UInt8)
  deriving DecidableEq

/-- One round of reading onto the end of a buffer, from which `total` bytes have been read. -/
def readRound (L : ChunkLayout) (st : BufAt) (atMost total : ℕ) (result : RecvResult) :
    Option (BufAt × ReadRound) := do
  let st ← bufEnsureTail L st minReadLen atMost
  let c ← st.buf.tailChunk
  -- a new chunk has room for as many bytes as its memory
  let readlen := min (atMost - total) c.remainingCapacity
  match result with
  | .error => some (st, .failed)
  | .wouldBlock => some (st, .last [] false)
  | .got bytes =>
    let bytes := bytes.take readlen
    if bytes = [] then some (st, .last [] true)
    else do
      let buf ← st.buf.writeTail bytes
      torAssert (bytes.length < intMax)
      torAssert (total + bytes.length < intMax)
      if bytes.length < readlen then some (⟨st.heap, buf⟩, .last bytes false)
      else some (⟨st.heap, buf⟩, .more bytes)

/-- What a read leaves: whether it failed, whether the end of the file was reached, and the bytes
that were received. -/
structure ReadResult where
  failed : Bool
  reachedEof : Bool
  received : List UInt8
  deriving DecidableEq

/-- What a read leaves after its last round. -/
def ReadRound.result (received : List UInt8) : ReadRound → ReadResult
  | .failed => ⟨true, false, received⟩
  | .last bytes reachedEof => ⟨false, reachedEof, received ++ bytes⟩
  | .more bytes => ⟨false, false, received ++ bytes⟩

/-- Reading goes on as long as everything that was asked for is received.  Behind the last result
the socket would block. -/
def readLoop (L : ChunkLayout) (atMost : ℕ) :
    List RecvResult → BufAt → List UInt8 → Option (BufAt × ReadResult)
  | [], st, received =>
    if atMost ≤ received.length then some (st, ⟨false, false, received⟩)
    else do
      let (st, round) ← readRound L st atMost received.length .wouldBlock
      some (st, round.result received)
  | result :: results, st, received =>
    if atMost ≤ received.length then some (st, ⟨false, false, received⟩)
    else do
      let (st, round) ← readRound L st atMost received.length result
      match round with
      | .more bytes => readLoop L atMost results st (received ++ bytes)
      | round => some (st, round.result received)

/-- At most `atMost` bytes are read from a socket onto the end of a buffer. -/
def readToBuf (L : ChunkLayout) (st : BufAt) (atMost : ℕ) (results : List RecvResult) :
    Option (BufAt × ReadResult) :=
  readLoop L atMost results st []

/-- What a socket yields when it is written to. -/
inductive SendResult
  | error
  | wouldBlock
  /-- A number of bytes, of which no more than there are have been sent. -/
  | sent (n : ℕ)
  deriving DecidableEq

/-- What a flush leaves: whether it failed, the bytes that were sent, and how many are left to be
flushed. -/
structure FlushResult where
  failed : Bool
  sent : List UInt8
  bufFlushlen : ℕ
  deriving DecidableEq

/-- Data is sent from the first chunk as long as all that is asked for is sent. -/
def flushLoop (L : ChunkLayout) :
    List SendResult → BufAt → ℕ → ℕ → List UInt8 → Option (BufAt × FlushResult)
  | _, st, 0, bufFlushlen, flushed => do
    torAssert (flushed.length < intMax)
    some (st, ⟨false, flushed, bufFlushlen⟩)
  | results, st, sz + 1, bufFlushlen, flushed => do
    let head ← st.buf.chunks.head?
    let flushlen0 := if head.datalen ≥ sz + 1 then sz + 1 else head.datalen
    match results with
    | .error :: _ => some (st, ⟨true, flushed, bufFlushlen⟩)
    | .sent n :: results =>
      let r := min n flushlen0
      let st ← bufRemoveFromFront L st r
      torAssert (r < intMax)
      let flushed := flushed ++ head.data.take r
      if r = 0 ∨ r < flushlen0 then do
        torAssert (flushed.length < intMax)
        some (st, ⟨false, flushed, bufFlushlen - r⟩)
      else flushLoop L results st (sz + 1 - r) (bufFlushlen - r) flushed
    | _ => do
      torAssert (flushed.length < intMax)
      some (st, ⟨false, flushed, bufFlushlen⟩)

/-- At most `sz` bytes are written from a buffer to a socket. -/
def flushBuf (L : ChunkLayout) (st : BufAt) (sz bufFlushlen : ℕ) (results : List SendResult) :
    Option (BufAt × FlushResult) := do
  torAssert (bufFlushlen ≤ st.buf.datalen)
  torAssert (sz ≤ bufFlushlen)
  flushLoop L results st sz bufFlushlen []

/-- What the compression says. -/
inductive ZlibResult
  | ok
  | done
  | bufFull
  | err
  deriving DecidableEq

/-- A round of compression, which yields some bytes, with `dataLen` bytes left to be compressed.  If
it asks for more room although there is some, a chunk is added. -/
def writeZlibRound (L : ChunkLayout) (st : BufAt) (dataLen : ℕ) (yield : List UInt8)
    (result : ZlibResult) : Option BufAt := do
  let st ← bufEnsureTail L st 1 (dataLen / 4)
  let c ← st.buf.tailChunk
  let yield := yield.take c.remainingCapacity
  if result = .err then some st
  else do
    let buf ← st.buf.writeTail yield
    if result = .bufFull ∧ c.remainingCapacity - yield.length ≠ 0 then
      bufAddChunkWithCapacity L ⟨st.heap, buf⟩ (dataLen / 4) true
    else some ⟨st.heap, buf⟩

/-! ### What is asserted -/

/-- The chunks of a buffer are all right, and the last one is the tail; the length of their data. -/
def assertChunksOk (tail : Option ℕ) : List Chunk → Option ℕ
  | [] => some 0
  | c :: rest => do
    torAssert (c.datalen ≤ c.memlen)
    torAssert (c.offset < c.memlen)
    torAssert (c.offset + c.datalen ≤ c.memlen)
    torAssert (rest ≠ [] ∨ some c.addr = tail)
    let total ← assertChunksOk tail rest
    some (c.datalen + total)

/-- The buffer is not corrupted. -/
def assertBufOk (buf : Buf) : Option Unit :=
  if buf.chunks = [] then do
    torAssert (buf.tail = none)
    torAssert (buf.datalen = 0)
  else do
    torAssert (buf.tail ≠ none)
    let total ← assertChunksOk buf.tail buf.chunks
    torAssert (buf.datalen = total)

end Astoria
