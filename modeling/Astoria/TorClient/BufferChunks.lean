import Astoria.TorClient.ActiveCircuits
import Astoria.TorClient.Buffers
import Mathlib.Tactic.Ring

/-!
# What the buffer operations do to the chunks

`BufOk` says that the chunks of a buffer fit their memory, that the pointer to the tail is the
address of the last one, that the addresses are different, and that the length and the counter of
the heap are right. Every operation succeeds and keeps it (`Kept`); what an operation does to the
content is stated with it.

`Strict` is the documented invariant: every chunk but the last has data, and the data of every chunk
starts inside of its memory.  All operations but two keep it.  A chunk that is added behind an empty
one breaks it, and so does `bufPullup` where the bytes end with a chunk (`PullupOk`).
-/

namespace Astoria

open Option
open List hiding drop
open Chunk (addr datalen drop remainingCapacity repack)

/-- The bytes of a buffer. -/
def Buf.content (buf : Buf) : List UInt8 := buf.chunks.flatMap Chunk.data

/-- The chunks of a buffer, its pointers and lengths are all right. -/
structure BufOk (L : ChunkLayout) (st : BufAt) : Prop where
  fits : ∀ c ∈ st.buf.chunks, c.offset + c.datalen ≤ c.memlen
  tail : st.buf.tail = st.buf.chunks.getLast?.map Chunk.addr
  nodup : (st.buf.chunks.map Chunk.addr).Nodup
  fresh : ∀ c ∈ st.buf.chunks, c.addr < st.heap.nextAddr
  datalen : st.buf.datalen = st.buf.content.length
  default : minChunkAlloc ≤ st.buf.defaultChunkSize
  counted : bufAllocation L st.buf ≤ st.heap.totalBytes

/-- Every chunk but the last has data, and the data of every chunk starts inside of its memory. -/
structure Strict (buf : Buf) : Prop where
  nonempty : ∀ c ∈ buf.chunks.dropLast, c.data ≠ []
  inside : ∀ c ∈ buf.chunks, c.offset < c.memlen

def StrictChunks (l : List Chunk) : Prop :=
  (∀ c ∈ l.dropLast, c.data ≠ []) ∧ ∀ c ∈ l, c.offset < c.memlen

lemma strict_iff {buf : Buf} : Strict buf ↔ StrictChunks buf.chunks :=
  ⟨fun h => ⟨h.nonempty, h.inside⟩, fun h => ⟨h.1, h.2⟩⟩

lemma strictChunks_cons {c : Chunk} {rest : List Chunk} : StrictChunks (c :: rest) ↔
    (rest ≠ [] → c.data ≠ []) ∧ c.offset < c.memlen ∧ StrictChunks rest := by
  unfold StrictChunks
  cases rest with
  | nil => simp
  | cons d rest =>
    rw [dropLast_cons_cons, forall_mem_cons, forall_mem_cons]
    simp [and_left_comm, and_assoc]

/-- The chunks are all right after an operation, and the counter follows their sizes. -/
structure Kept (L : ChunkLayout) (st st' : BufAt) : Prop where
  ok : BufOk L st'
  accounted : st'.heap.totalBytes + bufAllocation L st.buf =
    st.heap.totalBytes + bufAllocation L st'.buf
  nextAddr : st.heap.nextAddr ≤ st'.heap.nextAddr
  default : st'.buf.defaultChunkSize = st.buf.defaultChunkSize

lemma torAssert_of_isSome {α : Type} {p : Prop} [Decidable p] {f : Unit → Option α}
    (h : (torAssert p >>= f).isSome) : p ∧ (f ()).isSome := by
  by_cases hp : p
  · rw [torAssert_bind hp] at h
    exact ⟨hp, h⟩
  · unfold torAssert at h
    rw [if_neg hp] at h
    cases h

namespace Kept

variable {L : ChunkLayout} {st st' st'' : BufAt}

lemma refl (h : BufOk L st) : Kept L st st := ⟨h, rfl, le_refl _, rfl⟩

lemma trans (h : Kept L st st') (h' : Kept L st' st'') : Kept L st st'' := by
  refine ⟨h'.ok, ?_, h.nextAddr.trans h'.nextAddr, h'.default.trans h.default⟩
  have h₁ := h.accounted
  have h₂ := h'.accounted
  omega

end Kept

section Sizes

variable (L : ChunkLayout)

lemma ChunkLayout.headerLen_lt : L.headerLen + minReadLen ≤ minChunkAlloc := L.room

lemma doubleSize_spec {target fuel sz : ℕ} (hsz : minChunkAlloc ≤ sz)
    (hfuel : target ≤ L.sizeWithAlloc sz + fuel) :
    minChunkAlloc ≤ doubleSize L target fuel sz ∧
      target ≤ L.sizeWithAlloc (doubleSize L target fuel sz) := by
  induction fuel generalizing sz with
  | zero => exact ⟨hsz, hfuel⟩
  | succ fuel ih =>
    have hroom := L.headerLen_lt
    unfold minReadLen minChunkAlloc at hroom
    rw [doubleSize]
    split
    · unfold ChunkLayout.sizeWithAlloc minChunkAlloc at *
      apply ih
      · omega
      · omega
    · exact ⟨hsz, by omega⟩

lemma preferredChunkSize_spec (target : ℕ) :
    minChunkAlloc ≤ preferredChunkSize L target ∧
      target ≤ L.sizeWithAlloc (preferredChunkSize L target) :=
  doubleSize_spec L (le_refl _) (Nat.le_add_left _ _)

lemma minChunkAlloc_le_chunkSizeFor {buf : Buf} (h : minChunkAlloc ≤ buf.defaultChunkSize)
    (capacity : ℕ) (capped : Bool) : minChunkAlloc ≤ chunkSizeFor L buf capacity capped := by
  unfold chunkSizeFor
  split
  · exact h
  · split
    · decide
    · exact (preferredChunkSize_spec L capacity).1

end Sizes

/-! ### The tail -/

section Tail

variable {L : ChunkLayout} {st st' : BufAt} {init : List Chunk} {c c' : Chunk}

lemma BufOk.tail_eq (h : BufOk L st) (hchunks : st.buf.chunks = init ++ [c]) :
    st.buf.tail = some c.addr := by
  rw [h.tail, hchunks, getLast?_concat, map_some]

lemma BufOk.addr_ne (h : BufOk L st) (hchunks : st.buf.chunks = init ++ [c]) :
    ∀ b ∈ init, b.addr ≠ c.addr := by
  have hnodup := h.nodup
  rw [hchunks, map_append, nodup_append] at hnodup
  intro b hb heq
  exact hnodup.2.2 b.addr (mem_map_of_mem hb) c.addr (by simp) heq

lemma BufOk.tailChunk_eq (h : BufOk L st) (hchunks : st.buf.chunks = init ++ [c]) :
    st.buf.tailChunk = some c := by
  have hinit : init.find? (fun b => b.addr = c.addr) = none := by
    apply find?_eq_none.mpr
    intro b hb
    simpa using h.addr_ne hchunks b hb
  rw [Buf.tailChunk, h.tail_eq hchunks, bind_some, hchunks, find?_append, hinit]
  simp

lemma BufOk.setChunk_eq (h : BufOk L st) (c' : Chunk) (hchunks : st.buf.chunks = init ++ [c])
    (haddr : c'.addr = c.addr) : (st.buf.setChunk c').chunks = init ++ [c'] := by
  have hinit : init.map (fun b => if b.addr = c.addr then c' else b) = init := by
    rw [map_congr_left (g := id), List.map_id]
    intro b hb
    rw [if_neg (h.addr_ne hchunks b hb), id]
  unfold Buf.setChunk
  simp only [hchunks, map_append, haddr, hinit, map_cons, map_nil, if_true]

lemma linkAfter_concat (hne : ∀ b ∈ init, b.addr ≠ c.addr) (new : Chunk) :
    linkAfter c.addr new (init ++ [c]) = init ++ [c, new] := by
  induction init with
  | nil => simp [linkAfter]
  | cons b init ih =>
    rw [cons_append, linkAfter, if_neg (hne b mem_cons_self),
      ih fun b' hb' => hne b' (mem_cons_of_mem b hb')]
    rfl

/-- A chunk becomes the last one. -/
lemma BufOk.link_eq (h : BufOk L st) (new : Chunk) :
    st.buf.link new = { st.buf with chunks := st.buf.chunks ++ [new], tail := some new.addr } := by
  rcases eq_nil_or_concat' st.buf.chunks with hnil | ⟨init, c, hchunks⟩
  · have htail : st.buf.tail = none := by
      rw [h.tail, hnil]
      rfl
    rw [Buf.link, htail, hnil]
    rfl
  · rw [Buf.link, h.tail_eq hchunks]
    simp only [hchunks, linkAfter_concat (h.addr_ne hchunks), append_assoc, cons_append,
      nil_append]

lemma BufOk.tail_eq_none_iff (h : BufOk L st) : st.buf.tail = none ↔ st.buf.chunks = [] := by
  rw [h.tail, map_eq_none_iff, getLast?_eq_none_iff]

lemma Buf.content_append {buf : Buf} {l l' : List Chunk} (h : buf.chunks = l ++ l') :
    buf.content = l.flatMap Chunk.data ++ l'.flatMap Chunk.data := by
  rw [Buf.content, h, flatMap_append]

/-- The size of some chunks. -/
def chunksAllocation (L : ChunkLayout) (l : List Chunk) : ℕ :=
  (l.map fun c => L.allocSize c.memlen).sum

@[simp]
lemma chunksAllocation_nil : chunksAllocation L [] = 0 := rfl

@[simp]
lemma chunksAllocation_cons (c : Chunk) (l : List Chunk) :
    chunksAllocation L (c :: l) = L.allocSize c.memlen + chunksAllocation L l := by
  rw [chunksAllocation, map_cons, sum_cons, chunksAllocation]

@[simp]
lemma chunksAllocation_append (l l' : List Chunk) :
    chunksAllocation L (l ++ l') = chunksAllocation L l + chunksAllocation L l' := by
  rw [chunksAllocation, map_append, sum_append, chunksAllocation, chunksAllocation]

lemma bufAllocation_eq (buf : Buf) : bufAllocation L buf = chunksAllocation L buf.chunks := rfl

/-- The pointer to the tail when the chunks up to one of them are replaced. -/
lemma BufOk.redirected_tail {front rest : List Chunk} (h : BufOk L st)
    (hchunks : st.buf.chunks = front ++ c :: rest) (front' : List Chunk) :
    (if st.buf.tail = some c.addr then front'.getLast?.map addr else st.buf.tail) =
      (front' ++ rest).getLast?.map addr := by
  have htail := h.tail
  rw [hchunks, getLast?_append_of_ne_nil _ (cons_ne_nil c rest)] at htail
  cases rest with
  | nil => rw [htail, getLast?_singleton, map_some, if_pos rfl, append_nil]
  | cons d rest =>
    rw [getLast?_cons_cons] at htail
    have hnodup := h.nodup
    rw [hchunks, map_append, map_cons] at hnodup
    have hc := (nodup_cons.mp (nodup_append.mp hnodup).2.1).1
    have hne : st.buf.tail ≠ some c.addr := by
      rw [htail]
      intro heq
      obtain ⟨b, hb, haddr⟩ := map_eq_some_iff.mp heq
      apply hc
      rw [← haddr]
      exact mem_map_of_mem (mem_of_getLast? hb)
    rw [if_neg hne, htail, getLast?_append_of_ne_nil _ (cons_ne_nil d rest)]

/-- **The first chunks are replaced** by others at the same addresses, or at the one that is
allocated. -/
lemma kept_replace {front front' rest : List Chunk} (h : BufOk L st)
    (hchunks : st.buf.chunks = front ++ rest) (hchunks' : st'.buf.chunks = front' ++ rest)
    (hfits : ∀ c ∈ front', c.offset + c.datalen ≤ c.memlen) (hnodup : (front'.map addr).Nodup)
    (haddr : ∀ c ∈ front', c.addr < st'.heap.nextAddr ∧
      (c.addr ∈ front.map addr ∨ c.addr = st.heap.nextAddr))
    (htail : st'.buf.tail = (front' ++ rest).getLast?.map addr)
    (hlen : st'.buf.datalen + (front.flatMap Chunk.data).length =
      st.buf.datalen + (front'.flatMap Chunk.data).length)
    (htotal : st'.heap.totalBytes + chunksAllocation L front =
      st.heap.totalBytes + chunksAllocation L front')
    (hnext : st.heap.nextAddr ≤ st'.heap.nextAddr)
    (hdefault : st'.buf.defaultChunkSize = st.buf.defaultChunkSize) : Kept L st st' := by
  have hfitsOld := h.fits
  have hfreshOld := h.fresh
  have hnodupOld := h.nodup
  have hdatalen := h.datalen
  have hcounted := h.counted
  rw [Buf.content_append hchunks, length_append] at hdatalen
  rw [bufAllocation_eq, hchunks, chunksAllocation_append] at hcounted
  rw [hchunks] at hfitsOld hfreshOld hnodupOld
  rw [map_append, nodup_append] at hnodupOld
  refine ⟨⟨?_, ?_, ?_, ?_, ?_, ?_, ?_⟩, ?_, hnext, hdefault⟩
  · rw [hchunks']
    intro b hb
    rcases mem_append.mp hb with hb | hb
    · exact hfits b hb
    · exact hfitsOld b (mem_append_right _ hb)
  · rw [hchunks', htail]
  · rw [hchunks', map_append, nodup_append]
    refine ⟨hnodup, hnodupOld.2.1, fun a ha b hb => ?_⟩
    obtain ⟨c, hc, rfl⟩ := mem_map.mp ha
    rcases (haddr c hc).2 with hold | hnew
    · exact hnodupOld.2.2 c.addr hold b hb
    · obtain ⟨d, hd, rfl⟩ := mem_map.mp hb
      rw [hnew]
      exact (hfreshOld d (mem_append_right _ hd)).ne'
  · rw [hchunks']
    intro b hb
    rcases mem_append.mp hb with hb | hb
    · exact (haddr b hb).1
    · exact (hfreshOld b (mem_append_right _ hb)).trans_le hnext
  · rw [Buf.content_append hchunks', length_append]
    omega
  · rw [hdefault]
    exact h.default
  · rw [bufAllocation_eq, hchunks', chunksAllocation_append]
    omega
  · rw [bufAllocation_eq, bufAllocation_eq, hchunks, hchunks', chunksAllocation_append,
      chunksAllocation_append]
    omega

/-- **The tail is written to**, within its memory. -/
lemma exists_writeTail (h : BufOk L st) (hchunks : st.buf.chunks = init ++ [c]) {bytes : List UInt8}
    (hroom : bytes.length ≤ c.remainingCapacity) :
    ∃ buf, st.buf.writeTail bytes = some buf ∧ Kept L st ⟨st.heap, buf⟩ ∧
      buf.content = st.buf.content ++ bytes ∧
      buf.chunks = init ++ [{ c with data := c.data ++ bytes }] := by
  have hwrite : c.write bytes = some { c with data := c.data ++ bytes } := if_pos hroom
  have hset := h.setChunk_eq { c with data := c.data ++ bytes } hchunks rfl
  have hc : c ∈ st.buf.chunks := by rw [hchunks]; exact mem_concat_self
  have hfits := h.fits
  rw [hchunks] at hfits
  have hcontent : (st.buf.setChunk { c with data := c.data ++ bytes }).content =
      st.buf.content ++ bytes := by
    rw [Buf.content_append hset, Buf.content_append hchunks]
    simp
  have hnodup := h.nodup
  rw [hchunks, map_append] at hnodup
  refine ⟨{ st.buf.setChunk { c with data := c.data ++ bytes } with
      datalen := st.buf.datalen + bytes.length }, ?_, ?_, hcontent, hset⟩
  · rw [Buf.writeTail, some_bind (h.tailChunk_eq hchunks), hwrite]
    rfl
  · apply kept_replace h (hchunks.trans (append_nil _).symm) (hset.trans (append_nil _).symm)
    · intro b hb
      rcases mem_append.mp hb with hb | hb
      · exact hfits b (mem_append_left _ hb)
      · have hmem := h.fits c hc
        rw [mem_singleton.mp hb]
        unfold remainingCapacity at hroom
        unfold datalen at *
        simp only [length_append]
        omega
    · rw [map_append]
      exact hnodup
    · intro b hb
      rcases mem_append.mp hb with hb | hb
      · exact ⟨h.fresh b (by rw [hchunks]; exact mem_append_left _ hb),
          .inl (mem_map_of_mem (mem_append_left _ hb))⟩
      · rw [mem_singleton.mp hb]
        exact ⟨h.fresh c hc, .inl (mem_map.mpr ⟨c, mem_concat_self, rfl⟩)⟩
    · rw [append_nil, getLast?_concat]
      exact (h.tail_eq hchunks :)
    · simp only [flatMap_append, flatMap_singleton, length_append]
      omega
    · simp
    · exact le_refl _
    · rfl

/-- **A chunk is linked** behind the others.  It is the one that has been allocated last. -/
lemma kept_link (h : BufOk L st) (hfits : c.offset + c.datalen ≤ c.memlen)
    (haddr : c.addr = st.heap.nextAddr) :
    Kept L st ⟨st.heap.alloc (L.allocSize c.memlen),
        { st.buf.link c with datalen := st.buf.datalen + c.datalen }⟩ ∧
      (st.buf.link c).content = st.buf.content ++ c.data := by
  have hcontent : (st.buf.link c).content = st.buf.content ++ c.data := by
    rw [h.link_eq, Buf.content]
    simp only [flatMap_append, flatMap_singleton, Buf.content]
  refine ⟨?_, hcontent⟩
  rw [h.link_eq]
  apply kept_replace h (append_nil _).symm (append_nil _).symm
  · intro b hb
    rcases mem_append.mp hb with hb | hb
    · exact h.fits b hb
    · rw [mem_singleton.mp hb]
      exact hfits
  · rw [map_append, nodup_append]
    refine ⟨h.nodup, nodup_singleton _, ?_⟩
    intro a ha b hb
    obtain ⟨d, hd, rfl⟩ := mem_map.mp ha
    rw [mem_singleton.mp hb, haddr]
    exact (h.fresh d hd).ne
  · intro b hb
    rcases mem_append.mp hb with hb | hb
    · exact ⟨Nat.lt_succ_of_lt (h.fresh b hb), .inl (mem_map_of_mem hb)⟩
    · rw [mem_singleton.mp hb]
      exact ⟨haddr ▸ Nat.lt_succ_self _, .inr haddr⟩
  · rw [append_nil, getLast?_concat, map_some]
  · simp only [flatMap_append, flatMap_singleton, length_append, datalen]
    omega
  · simp only [chunksAllocation_append, chunksAllocation_cons, chunksAllocation_nil,
      ChunkHeap.alloc]
    omega
  · exact Nat.le_succ _
  · rfl

/-- **A chunk is added.** -/
lemma exists_bufAddChunk (h : BufOk L st) (capacity : ℕ) (capped : Bool) :
    ∃ st' c, bufAddChunkWithCapacity L st capacity capped = some st' ∧ Kept L st st' ∧
      st'.buf.content = st.buf.content ∧ st'.buf.chunks = st.buf.chunks ++ [c] ∧
      c.data = [] ∧ c.offset = 0 ∧ minReadLen ≤ c.memlen := by
  have hsize := minChunkAlloc_le_chunkSizeFor L h.default capacity capped
  have hroom := L.headerLen_lt
  set alloc := chunkSizeFor L st.buf capacity capped with halloc
  set c := chunkNewWithAllocSize L st.heap alloc with hc
  have hsizeOf : c.memlen = alloc - L.headerLen := rfl
  have hmemlen : L.allocSize c.memlen = alloc := by
    rw [hsizeOf, ChunkLayout.allocSize]
    omega
  have hassert : if st.buf.tail = none then st.buf.chunks = [] else st.buf.chunks ≠ [] := by
    split
    · next hnone => exact h.tail_eq_none_iff.mp hnone
    · next hsome => exact fun hnil => hsome (h.tail_eq_none_iff.mpr hnil)
  obtain ⟨hkept, hcontent⟩ := kept_link (c := c) h (Nat.zero_le _) rfl
  have hsame : (⟨st.heap.alloc (L.allocSize c.memlen),
      { st.buf.link c with datalen := st.buf.datalen + c.datalen }⟩ : BufAt) =
      ⟨st.heap.alloc alloc, st.buf.link c⟩ := by
    rw [hmemlen, h.link_eq]
    rfl
  rw [hsame] at hkept
  refine ⟨_, c, ?_, hkept, ?_, ?_, rfl, rfl, ?_⟩
  · rw [bufAddChunkWithCapacity, torAssert_bind hassert]
  · rw [hcontent]
    exact append_nil _
  · rw [h.link_eq]
  · rw [hsizeOf]
    omega

end Tail

/-! ### Writing and reading -/

section Adding

variable {L : ChunkLayout} {st : BufAt} {init : List Chunk} {c : Chunk} {buf : Buf}

/-- The invariant, with the last chunk apart. -/
lemma strict_concat_iff (hchunks : buf.chunks = init ++ [c]) :
    Strict buf ↔ (∀ b ∈ init, b.data ≠ [] ∧ b.offset < b.memlen) ∧ c.offset < c.memlen := by
  constructor
  · intro h
    have hnonempty := h.nonempty
    have hinside := h.inside
    rw [hchunks, dropLast_concat] at hnonempty
    rw [hchunks] at hinside
    exact ⟨fun b hb => ⟨hnonempty b hb, hinside b (mem_append_left _ hb)⟩,
      hinside c mem_concat_self⟩
  · rintro ⟨hinit, hc⟩
    constructor
    · rw [hchunks, dropLast_concat]
      exact fun b hb => (hinit b hb).1
    · rw [hchunks]
      intro b hb
      rcases mem_append.mp hb with hb | hb
      · exact (hinit b hb).2
      · rw [mem_singleton.mp hb]
        exact hc

lemma strict_of_nil (hchunks : buf.chunks = []) : Strict buf := by
  constructor
  · rw [hchunks]
    exact nofun
  · rw [hchunks]
    exact nofun

/-- The tail is empty and yet does not have enough room: a chunk would be added behind an empty
one. -/
def Buf.TailBlocked (buf : Buf) (room : ℕ) : Prop :=
  ∃ c ∈ buf.chunks.getLast?, c.data = [] ∧ c.remainingCapacity < room

instance (buf : Buf) (room : ℕ) : Decidable (buf.TailBlocked room) := by
  unfold Buf.TailBlocked
  infer_instance

lemma Strict.not_tailBlocked (h : Strict buf) : ¬buf.TailBlocked 1 := by
  rintro ⟨c, hc, hdata, hroom⟩
  have hinside := h.inside c (mem_of_getLast? hc)
  unfold remainingCapacity datalen at hroom
  rw [hdata, length_nil] at hroom
  omega

/-- A chunk added behind one that is not empty. -/
lemma Strict.append {buf' : Buf} (h : Strict buf) (hchunks : buf'.chunks = buf.chunks ++ [c])
    (hinside : c.offset < c.memlen) (hlast : ∀ b ∈ buf.chunks.getLast?, b.data ≠ []) :
    Strict buf' := by
  apply (strict_concat_iff hchunks).mpr
  refine ⟨fun b hb => ⟨?_, h.inside b hb⟩, hinside⟩
  rcases eq_nil_or_concat' buf.chunks with hnil | ⟨init, last, hconcat⟩
  · rw [hnil] at hb
    cases hb
  · rw [hconcat] at hb
    rcases mem_append.mp hb with hb | hb
    · exact (((strict_concat_iff hconcat).mp h).1 b hb).1
    · rw [mem_singleton.mp hb]
      apply hlast
      rw [hconcat, getLast?_concat, mem_some_iff]

/-- **There is room in the tail**, if necessary of a new chunk. -/
lemma exists_bufEnsureTail (h : BufOk L st) {room : ℕ} (hroom : room ≤ minReadLen) (capacity : ℕ) :
    ∃ st' init c, bufEnsureTail L st room capacity = some st' ∧ Kept L st st' ∧
      st'.buf.content = st.buf.content ∧ st'.buf.chunks = init ++ [c] ∧ room ≤ c.remainingCapacity ∧
      (¬st.buf.TailBlocked room → Strict st.buf → Strict st'.buf) ∧
      ∀ b ∈ st.buf.chunks.getLast?, room ≤ b.remainingCapacity → c = b := by
  obtain ⟨st', c, hadd, hkept, hcontent, hchunks, hdata, hoffset, hmemlen⟩ :=
    exists_bufAddChunk h capacity true
  have hnew : room ≤ c.remainingCapacity := by
    unfold remainingCapacity datalen
    rw [hdata, hoffset, length_nil]
    omega
  have hinside : c.offset < c.memlen := by
    unfold minReadLen at hmemlen
    omega
  rw [bufEnsureTail, Buf.needsChunk]
  rcases eq_nil_or_concat' st.buf.chunks with hnil | ⟨init, last, hconcat⟩
  · rw [if_pos (h.tail_eq_none_iff.mpr hnil)]
    refine ⟨st', _, c, hadd, hkept, hcontent, hchunks, hnew, fun _ hstrict => ?_, fun b hb => ?_⟩
    · refine hstrict.append hchunks hinside fun b hb => ?_
      rw [hnil] at hb
      cases hb
    · rw [hnil] at hb
      cases hb
  · have htail : st.buf.tail ≠ none := by
      rw [h.tail_eq hconcat]
      exact nofun
    rw [if_neg htail, h.tailChunk_eq hconcat]
    simp only [bind_eq_bind, bind_some]
    by_cases hfull : last.remainingCapacity < room
    · refine ⟨st', _, c, ?_, hkept, hcontent, hchunks, hnew, fun hblocked hstrict => ?_,
        fun b hb hle => ?_⟩
      · rw [decide_eq_true hfull]
        exact hadd
      · refine hstrict.append hchunks hinside fun b hb hempty => hblocked ⟨b, hb, hempty, ?_⟩
        rw [hconcat, getLast?_concat, mem_some_iff] at hb
        rw [← hb]
        exact hfull
      · rw [hconcat, getLast?_concat, mem_some_iff] at hb
        rw [← hb] at hle
        exact absurd hfull (not_lt.mpr hle)
    · refine ⟨st, init, last, ?_, Kept.refl h, rfl, hconcat, not_lt.mp hfull,
        fun _ hstrict => hstrict,
        fun b hb _ => ?_⟩
      · rw [decide_eq_false hfull]
        rfl
      · rw [hconcat, getLast?_concat, mem_some_iff] at hb
        exact hb

lemma Strict.writeTail {buf' : Buf} (h : Strict buf) (hchunks : buf.chunks = init ++ [c])
    {bytes : List UInt8} (hchunks' : buf'.chunks = init ++ [{ c with data := c.data ++ bytes }]) :
    Strict buf' :=
  (strict_concat_iff hchunks').mpr ((strict_concat_iff hchunks).mp h)

lemma exists_writeLoop {fuel : ℕ} (h : BufOk L st) {string : List UInt8}
    (hfuel : string.length ≤ fuel) :
    ∃ st', writeLoop L fuel st string = some st' ∧ Kept L st st' ∧
      st'.buf.content = st.buf.content ++ string ∧ (Strict st.buf → Strict st'.buf) := by
  induction fuel generalizing st string with
  | zero =>
    obtain rfl := eq_nil_of_length_eq_zero (Nat.le_zero.mp hfuel)
    exact ⟨st, by rw [writeLoop], Kept.refl h, (append_nil _).symm, id⟩
  | succ fuel ih =>
    cases string with
    | nil => exact ⟨st, by rw [writeLoop], Kept.refl h, (append_nil _).symm, id⟩
    | cons b string =>
      obtain ⟨st₁, init, c, hst₁, hkept₁, hcontent₁, hchunks₁, hroom, hstrict₁, -⟩ :=
        exists_bufEnsureTail h (by decide : 1 ≤ minReadLen) (b :: string).length
      set copy := min c.remainingCapacity (b :: string).length with hcopy
      have htake : ((b :: string).take copy).length ≤ c.remainingCapacity := by
        rw [length_take]
        omega
      obtain ⟨buf, hbuf, hkept₂, hcontent₂, hchunks₂⟩ := exists_writeTail hkept₁.ok hchunks₁ htake
      have hdrop : ((b :: string).drop copy).length ≤ fuel := by
        rw [length_drop]
        have hpos : 1 ≤ copy := by
          rw [hcopy, length_cons]
          omega
        omega
      obtain ⟨st', hst', hkept₃, hcontent₃, hstrict₃⟩ := ih hkept₂.ok hdrop
      refine ⟨st', ?_, (hkept₁.trans hkept₂).trans hkept₃, ?_, fun hstrict => ?_⟩
      · rw [writeLoop, some_bind hst₁, some_bind (hkept₁.ok.tailChunk_eq hchunks₁)]
        simp only [← hcopy, hbuf]
        exact hst'
      · rw [hcontent₃, hcontent₂, hcontent₁, append_assoc, take_append_drop]
      · have hstrict' := hstrict₁ hstrict.not_tailBlocked hstrict
        exact hstrict₃ (hstrict'.writeTail hchunks₁ hchunks₂)

/-- **A string is written** behind the bytes of a buffer.  There have to be fewer than `INT_MAX`
then. -/
lemma exists_writeToBuf (h : BufOk L st) {string : List UInt8}
    (hmax : st.buf.content.length + string.length < intMax ∨ (writeToBuf L st string).isSome) :
    ∃ st', writeToBuf L st string = some st' ∧ Kept L st st' ∧
      st'.buf.content = st.buf.content ++ string ∧ (Strict st.buf → Strict st'.buf) := by
  rw [writeToBuf] at hmax ⊢
  split_ifs at hmax ⊢ with hnil
  · exact ⟨st, rfl, Kept.refl h, by rw [hnil, append_nil], id⟩
  · obtain ⟨st', hst', hkept, hcontent, hstrict⟩ := exists_writeLoop h (le_refl string.length)
    refine ⟨st', ?_, hkept, hcontent, hstrict⟩
    have hlen : st'.buf.datalen < intMax := by
      rcases hmax with hmax | hsome
      · rw [hkept.ok.datalen, hcontent, length_append]
        exact hmax
      · rw [some_bind hst'] at hsome
        exact (torAssert_of_isSome hsome).1
    rw [some_bind hst', torAssert_bind hlen]

/-- The number of bytes that a socket has. -/
def RecvResult.length : RecvResult → ℕ
  | .got bytes => bytes.length
  | _ => 0

def ReadRound.bytes : ReadRound → List UInt8
  | .failed => []
  | .last bytes _ => bytes
  | .more bytes => bytes

/-- What one call of `recv` for a number of bytes yields. -/
def RecvResult.round (ask : ℕ) : RecvResult → ReadRound
  | .error => .failed
  | .wouldBlock => .last [] false
  | .got bytes =>
    if bytes.take ask = [] then .last [] true
    else if (bytes.take ask).length < ask then .last (bytes.take ask) false
    else .more (bytes.take ask)

/-- At most `n` bytes are received with the results of `recv`, which is called for any numbers of
bytes until it gives less than that. -/
inductive Received : ℕ → List RecvResult → List UInt8 → Prop
  | done {results} : Received 0 results []
  | none {n} : Received n [] []
  | last {n ask result results} (hpos : 0 < ask) (hask : ask ≤ n)
      (hlast : ∀ bytes, result.round ask ≠ .more bytes) :
      Received n (result :: results) (result.round ask).bytes
  | more {n ask result results bytes rest} (hpos : 0 < ask) (hask : ask ≤ n)
      (hmore : result.round ask = .more bytes) (h : Received (n - bytes.length) results rest) :
      Received n (result :: results) (bytes ++ rest)

lemma Received.of_le {n m : ℕ} (h : n ≤ m) {results : List RecvResult} :
    Received (n - m) results [] := by
  rw [Nat.sub_eq_zero_of_le h]
  exact .done

/-- **A round of reading.** -/
lemma exists_readRound (h : BufOk L st) {atMost total : ℕ} {result : RecvResult}
    (hmax : total + min (atMost - total) result.length < intMax ∨
      (readRound L st atMost total result).isSome) :
    ∃ st' round, readRound L st atMost total result = some (st', round) ∧ Kept L st st' ∧
      st'.buf.content = st.buf.content ++ round.bytes ∧
      round.bytes.length ≤ min (atMost - total) result.length ∧
      (total < atMost → ∃ ask, 0 < ask ∧ ask ≤ atMost - total ∧ round = result.round ask) ∧
      (¬st.buf.TailBlocked minReadLen → Strict st.buf → Strict st'.buf) ∧
      ∀ bytes, round = .more bytes → ¬st'.buf.TailBlocked minReadLen := by
  obtain ⟨st₁, init, c, hst₁, hkept₁, hcontent₁, hchunks₁, hroom₁, hstrict₁, -⟩ :=
    exists_bufEnsureTail h (le_refl minReadLen) atMost
  have hread : ∀ r, readRound L st atMost total r = _ := fun r => by
    rw [readRound, some_bind hst₁, some_bind (hkept₁.ok.tailChunk_eq hchunks₁)]
  rw [hread] at hmax ⊢
  cases result with
  | error =>
    refine ⟨st₁, .failed, rfl, hkept₁, ?_, Nat.zero_le _,
      fun hlt => ⟨1, Nat.one_pos, Nat.sub_pos_of_lt hlt, rfl⟩, hstrict₁, nofun⟩
    rw [hcontent₁]
    exact (append_nil _).symm
  | wouldBlock =>
    refine ⟨st₁, .last [] false, rfl, hkept₁, ?_, Nat.zero_le _,
      fun hlt => ⟨1, Nat.one_pos, Nat.sub_pos_of_lt hlt, rfl⟩, hstrict₁, nofun⟩
    rw [hcontent₁]
    exact (append_nil _).symm
  | got given =>
    set readlen := min (atMost - total) c.remainingCapacity with hreadlen
    set bytes := given.take readlen with hbytes
    have hlen : bytes.length ≤ min (atMost - total) given.length := by
      rw [hbytes, length_take]
      omega
    have hask : ∀ round, round = (RecvResult.got given).round readlen → total < atMost →
        ∃ ask, 0 < ask ∧ ask ≤ atMost - total ∧ round = (RecvResult.got given).round ask := by
      intro round hround hlt
      refine ⟨readlen, ?_, Nat.min_le_left _ _, hround⟩
      unfold minReadLen at hroom₁
      omega
    by_cases hnil : bytes = []
    · refine ⟨st₁, .last [] true, ?_, hkept₁, ?_, Nat.zero_le _,
        hask _ (by simp only [RecvResult.round, ← hbytes, if_pos hnil]), hstrict₁, nofun⟩
      · simp only [← hbytes, if_pos hnil]
      · rw [hcontent₁]
        exact (append_nil _).symm
    · have hroom : bytes.length ≤ c.remainingCapacity := by
        rw [hbytes, length_take]
        omega
      obtain ⟨buf, hbuf, hkept₂, hcontent₂, hchunks₂⟩ := exists_writeTail hkept₁.ok hchunks₁ hroom
      have htotal : total + bytes.length < intMax := by
        rcases hmax with hmax | hsome
        · have hle : total + bytes.length ≤ total + min (atMost - total) given.length := by omega
          exact lt_of_le_of_lt hle hmax
        · simp only [← hbytes, if_neg hnil, hbuf, bind_eq_bind, bind_some] at hsome
          exact (torAssert_of_isSome (torAssert_of_isSome hsome).2).1
      have hshort : bytes.length < intMax := lt_of_le_of_lt (Nat.le_add_left _ _) htotal
      have hstrict₂ : ¬st.buf.TailBlocked minReadLen → Strict st.buf → Strict buf :=
        fun hblocked hstrict => (hstrict₁ hblocked hstrict).writeTail hchunks₁ hchunks₂
      have hcontent : buf.content = st.buf.content ++ bytes := by rw [hcontent₂, hcontent₁]
      simp only [← hbytes, if_neg hnil, hbuf, bind_eq_bind, bind_some]
      rw [← bind_eq_bind, torAssert_bind hshort, torAssert_bind htotal]
      by_cases hless : bytes.length < readlen
      · rw [if_pos hless]
        refine ⟨_, .last bytes false, rfl, hkept₁.trans hkept₂, hcontent, hlen, hask _ ?_, hstrict₂,
          fun _ h => ?_⟩
        · simp only [RecvResult.round, ← hbytes, if_neg hnil, if_pos hless]
        · cases h
      · rw [if_neg hless]
        refine ⟨_, .more bytes, rfl, hkept₁.trans hkept₂, hcontent, hlen, hask _ ?_, hstrict₂, ?_⟩
        · simp only [RecvResult.round, ← hbytes, if_neg hnil, if_neg hless]
        · rintro _ - ⟨b, hb, hdata, -⟩
          simp only [hchunks₂, getLast?_concat, mem_some_iff] at hb
          rw [← hb] at hdata
          exact hnil (append_eq_nil_iff.mp hdata).2

lemma exists_readLoop {atMost : ℕ} {results : List RecvResult} (h : BufOk L st)
    {received : List UInt8}
    (hmax : received.length + min (atMost - received.length) (results.map RecvResult.length).sum <
      intMax ∨ (readLoop L atMost results st received).isSome) :
    ∃ st' r new, readLoop L atMost results st received = some (st', r) ∧ Kept L st st' ∧
      r.received = received ++ new ∧ st'.buf.content = st.buf.content ++ new ∧
      new.length ≤ min (atMost - received.length) (results.map RecvResult.length).sum ∧
      Received (atMost - received.length) results new ∧
      (¬st.buf.TailBlocked minReadLen ∨ atMost ≤ received.length → Strict st.buf →
        Strict st'.buf) := by
  induction results generalizing st received with
  | nil =>
    rw [readLoop]
    by_cases hdone : atMost ≤ received.length
    · exact ⟨st, _, [], if_pos hdone, Kept.refl h, (append_nil _).symm, (append_nil _).symm,
        Nat.zero_le _, .of_le hdone, fun _ hstrict => hstrict⟩
    · have hmax' : received.length + min (atMost - received.length) RecvResult.wouldBlock.length <
          intMax ∨ (readRound L st atMost received.length .wouldBlock).isSome := by
        refine hmax.imp_right fun hsome => ?_
        rw [readLoop, if_neg hdone] at hsome
        exact isSome_of_isSome_bind hsome
      obtain ⟨st₁, round, hround, hkept, hcontent, hlen, hask, hstrict, -⟩ :=
        exists_readRound h hmax'
      obtain ⟨ask, -, -, rfl⟩ := hask (not_le.mp hdone)
      have hstrict' : ¬st.buf.TailBlocked minReadLen ∨ atMost ≤ received.length → Strict st.buf →
          Strict st₁.buf := fun hor => hstrict (hor.resolve_right hdone)
      rw [if_neg hdone, some_bind hround]
      exact ⟨st₁, _, [], rfl, hkept, rfl, hcontent, hlen, .none, hstrict'⟩
  | cons result results ih =>
    rw [map_cons, sum_cons] at hmax ⊢
    rw [readLoop]
    by_cases hdone : atMost ≤ received.length
    · exact ⟨st, _, [], if_pos hdone, Kept.refl h, (append_nil _).symm, (append_nil _).symm,
        Nat.zero_le _, .of_le hdone, fun _ hstrict => hstrict⟩
    · have hmax' : received.length + min (atMost - received.length) result.length < intMax ∨
          (readRound L st atMost received.length result).isSome := by
        refine hmax.imp (fun hmax => lt_of_le_of_lt ?_ hmax) fun hsome => ?_
        · omega
        · rw [readLoop, if_neg hdone] at hsome
          exact isSome_of_isSome_bind hsome
      obtain ⟨st₁, round, hround, hkept, hcontent, hlen, hask, hstrict, hmore⟩ :=
        exists_readRound h hmax'
      obtain ⟨ask, hpos, hle, hresult⟩ := hask (not_le.mp hdone)
      clear hask
      have hstrict' : ¬st.buf.TailBlocked minReadLen ∨ atMost ≤ received.length → Strict st.buf →
          Strict st₁.buf := fun hor => hstrict (hor.resolve_right hdone)
      rw [if_neg hdone, some_bind hround]
      cases round with
      | failed =>
        refine ⟨st₁, _, [], rfl, hkept, (append_nil _).symm, hcontent, Nat.zero_le _, ?_, hstrict'⟩
        have hlast := @Received.last _ _ result results hpos hle (by rw [← hresult]; exact nofun)
        rwa [← hresult] at hlast
      | last bytes eof =>
        have hbytes : bytes.length ≤ min (atMost - received.length) result.length := hlen
        refine ⟨st₁, _, bytes, rfl, hkept, rfl, hcontent, by omega, ?_, hstrict'⟩
        have hlast := @Received.last _ _ result results hpos hle (by rw [← hresult]; exact nofun)
        rwa [← hresult] at hlast
      | more bytes =>
        have hbytes : bytes.length ≤ min (atMost - received.length) result.length := hlen
        have hmax₁ : (received ++ bytes).length + min (atMost - (received ++ bytes).length)
            (results.map RecvResult.length).sum < intMax ∨
            (readLoop L atMost results st₁ (received ++ bytes)).isSome := by
          refine hmax.imp (fun hmax => lt_of_le_of_lt ?_ hmax) fun hsome => ?_
          · rw [length_append]
            omega
          · rw [readLoop, if_neg hdone, some_bind hround] at hsome
            exact hsome
        obtain ⟨st', r, new, hst', hkept', hreceived, hcontent', hnew, hrest, hstrict₁⟩ :=
          ih hkept.ok hmax₁
        rw [length_append, ← Nat.sub_sub] at hrest
        refine ⟨st', r, bytes ++ new, hst', hkept.trans hkept', ?_, ?_, ?_,
          .more hpos hle hresult.symm hrest, fun hor hst =>
          hstrict₁ (.inl (hmore bytes rfl)) (hstrict' hor hst)⟩
        · rw [hreceived, append_assoc]
        · rw [hcontent', hcontent]
          exact append_assoc _ _ _
        · rw [length_append] at hnew ⊢
          omega

/-- **A read** puts what the socket gives behind the bytes of a buffer. -/
lemma exists_readToBuf (h : BufOk L st) {atMost : ℕ} {results : List RecvResult}
    (hmax : min atMost (results.map RecvResult.length).sum < intMax ∨
      (readToBuf L st atMost results).isSome) :
    ∃ st' r, readToBuf L st atMost results = some (st', r) ∧ Kept L st st' ∧
      st'.buf.content = st.buf.content ++ r.received ∧
      r.received.length ≤ min atMost (results.map RecvResult.length).sum ∧
      Received atMost results r.received ∧
      (¬st.buf.TailBlocked minReadLen ∨ atMost = 0 → Strict st.buf → Strict st'.buf) := by
  have hmax' : ([] : List UInt8).length + min (atMost - ([] : List UInt8).length)
      (results.map RecvResult.length).sum < intMax ∨ (readLoop L atMost results st []).isSome := by
    rw [length_nil, zero_add, Nat.sub_zero]
    exact hmax
  obtain ⟨st', r, new, hst', hkept, hreceived, hcontent, hlen, hnew, hstrict⟩ :=
    exists_readLoop h hmax'
  rw [nil_append] at hreceived
  refine ⟨st', r, hst', hkept, hreceived ▸ hcontent, hreceived ▸ hlen, hreceived ▸ hnew,
    fun hor => ?_⟩
  exact hstrict (hor.imp_right fun hzero => le_of_eq hzero)

/-- The compression would begin a chunk behind one that it has left empty. -/
def Buf.ZlibBlocked (buf : Buf) (yield : List UInt8) (result : ZlibResult) : Prop :=
  result = .bufFull ∧ yield = [] ∧ ∀ c ∈ buf.chunks.getLast?, c.data = [] ∨ c.remainingCapacity < 1

instance (buf : Buf) (yield : List UInt8) (result : ZlibResult) :
    Decidable (buf.ZlibBlocked yield result) := by
  unfold Buf.ZlibBlocked
  infer_instance

/-- **A round of compression** puts what it yields behind the bytes of a buffer. -/
lemma exists_writeZlibRound (h : BufOk L st) (dataLen : ℕ) (yield : List UInt8)
    (result : ZlibResult) : ∃ st' new, writeZlibRound L st dataLen yield result = some st' ∧
    Kept L st st' ∧
      st'.buf.content = st.buf.content ++ new ∧ new.IsPrefix yield ∧
      (¬st.buf.ZlibBlocked yield result → Strict st.buf → Strict st'.buf) := by
  obtain ⟨st₁, init, c, hst₁, hkept₁, hcontent₁, hchunks₁, hroom, hstrict₁, hsame⟩ :=
    exists_bufEnsureTail h (by decide : 1 ≤ minReadLen) (dataLen / 4)
  have hstrict₁' : Strict st.buf → Strict st₁.buf := fun hst => hstrict₁ hst.not_tailBlocked hst
  rw [writeZlibRound, some_bind hst₁, some_bind (hkept₁.ok.tailChunk_eq hchunks₁)]
  by_cases herr : result = .err
  · refine ⟨st₁, [], if_pos herr, hkept₁, ?_, nil_prefix, fun _ => hstrict₁'⟩
    rw [hcontent₁, append_nil]
  · have htake : (yield.take c.remainingCapacity).length ≤ c.remainingCapacity :=
      length_take_le _ _
    obtain ⟨buf, hbuf, hkept₂, hcontent₂, hchunks₂⟩ := exists_writeTail hkept₁.ok hchunks₁ htake
    have hcontent : buf.content = st.buf.content ++ yield.take c.remainingCapacity := by
      rw [hcontent₂, hcontent₁]
    have hstrict₂ : Strict st.buf → Strict buf :=
      fun hst => (hstrict₁' hst).writeTail hchunks₁ hchunks₂
    simp only [if_neg herr, hbuf, bind_eq_bind, bind_some]
    by_cases hfull : result = .bufFull ∧
        c.remainingCapacity - (yield.take c.remainingCapacity).length ≠ 0
    · obtain ⟨st', new, hadd, hkept₃, hcontent₃, hchunks₃, hdata, hoffset, hmemlen⟩ :=
        exists_bufAddChunk hkept₂.ok (dataLen / 4) true
      have hinside : new.offset < new.memlen := by
        unfold minReadLen at hmemlen
        omega
      rw [if_pos hfull]
      refine ⟨st', _, hadd, (hkept₁.trans hkept₂).trans hkept₃, hcontent₃.trans hcontent,
        List.take_prefix _ _, fun hblocked hst => ?_⟩
      refine (hstrict₂ hst).append hchunks₃ hinside fun b hb hempty => hblocked ⟨hfull.1, ?_, ?_⟩
      · simp only [hchunks₂, getLast?_concat, mem_some_iff] at hb
        rw [← hb] at hempty
        rcases take_eq_nil_iff.mp (append_eq_nil_iff.mp hempty).2 with hzero | hyield
        · omega
        · exact hyield
      · intro last hlast
        by_cases hless : last.remainingCapacity < 1
        · exact .inr hless
        · left
          obtain rfl := hsame last hlast (not_lt.mp hless)
          simp only [hchunks₂, getLast?_concat, mem_some_iff] at hb
          rw [← hb] at hempty
          exact (append_eq_nil_iff.mp hempty).1
    · rw [if_neg hfull]
      exact ⟨_, _, rfl, hkept₁.trans hkept₂, hcontent, List.take_prefix _ _, fun _ => hstrict₂⟩

end Adding

/-! ### Removing bytes -/

section Removing

variable {L : ChunkLayout} {st : BufAt} {c : Chunk} {rest : List Chunk} {n : ℕ}

def BufAt.withChunks (st : BufAt) (chunks : List Chunk) : BufAt :=
  { st with buf := { st.buf with chunks := chunks } }

/-- The first bytes of some chunks are those of their data. -/
lemma peekChunks_eq {l : List Chunk} (hn : n ≤ (l.flatMap Chunk.data).length) :
    peekChunks l n = some ((l.flatMap Chunk.data).take n) := by
  induction l generalizing n with
  | nil =>
    obtain rfl := Nat.le_zero.mp hn
    rfl
  | cons c rest ih =>
    cases n with
    | zero => rfl
    | succ n =>
      rw [flatMap_cons, length_append] at hn
      have hrest : n + 1 - min c.datalen (n + 1) ≤ (rest.flatMap Chunk.data).length := by
        unfold datalen
        omega
      rw [peekChunks, some_bind (ih hrest), flatMap_cons, take_append]
      congr 2
      · unfold datalen
        rcases le_total c.data.length (n + 1) with hle | hle
        · rw [Nat.min_eq_left hle, take_length, take_of_length_le hle]
        · rw [Nat.min_eq_right hle]
      · unfold datalen
        congr 1
        omega

/-- **The first bytes of a buffer are read.** -/
lemma peekFromBuf_eq (h : BufOk L st) (hn : n ≤ st.buf.content.length) :
    peekFromBuf st.buf n = some (st.buf.content.take n) := by
  rw [peekFromBuf, torAssert_bind (by rw [h.datalen]; exact hn)]
  exact peekChunks_eq hn

lemma chunkFree_eq {heap : ChunkHeap} (h : L.allocSize c.memlen ≤ heap.totalBytes) :
    chunkFree L heap c =
      some { heap with totalBytes := heap.totalBytes - L.allocSize c.memlen } := by
  rw [chunkFree, torAssert_bind h]

lemma exists_freeHead (h : BufOk L st) (hchunks : st.buf.chunks = c :: rest) :
    ∃ heap, chunkFree L st.heap c = some heap ∧
      Kept L st ⟨heap, { st.buf with
        chunks := rest
        tail := if st.buf.tail = some c.addr then none else st.buf.tail
        datalen := st.buf.datalen - c.datalen }⟩ ∧
      (Strict st.buf → Strict { st.buf with
        chunks := rest
        tail := if st.buf.tail = some c.addr then none else st.buf.tail
        datalen := st.buf.datalen - c.datalen }) := by
  have hcounted := h.counted
  rw [bufAllocation_eq, hchunks, chunksAllocation_cons] at hcounted
  have hdatalen := h.datalen
  rw [Buf.content, hchunks, flatMap_cons, length_append] at hdatalen
  refine ⟨_, chunkFree_eq (by omega), ?_, fun hstrict => ?_⟩
  · refine @kept_replace _ _ _ [c] [] rest h hchunks rfl nofun nodup_nil nofun
      (@BufOk.redirected_tail _ _ _ [] rest h hchunks []) ?_ ?_ (le_refl _) rfl
    · simp only [flatMap_singleton, flatMap_nil, length_nil, datalen]
      omega
    · simp only [chunksAllocation_cons, chunksAllocation_nil]
      omega
  · rw [strict_iff, hchunks, strictChunks_cons] at hstrict
    exact strict_iff.mpr hstrict.2.2

/-- Some bytes, but not all, are removed from the first chunk. -/
lemma kept_dropHead (h : BufOk L st) (hchunks : st.buf.chunks = c :: rest) (hn : n < c.datalen) :
    Kept L st ⟨st.heap, { st.buf with chunks := c.drop n :: rest, datalen := st.buf.datalen - n }⟩ ∧
      (Strict st.buf →
        Strict { st.buf with chunks := c.drop n :: rest, datalen := st.buf.datalen - n }) := by
  have hhead : c ∈ st.buf.chunks := hchunks ▸ mem_cons_self
  have hc := h.fits c hhead
  have hdatalen := h.datalen
  rw [Buf.content, hchunks, flatMap_cons, length_append] at hdatalen
  unfold datalen at hn hc
  have hlen : (c.drop n).data.length = c.data.length - n := length_drop
  constructor
  · refine @kept_replace _ _ _ [c] [c.drop n] rest h hchunks rfl ?_ (nodup_singleton _) ?_ ?_ ?_ rfl
      (le_refl _) rfl
    · intro b hb
      rw [mem_singleton.mp hb]
      unfold datalen
      rw [hlen]
      simp only [drop]
      omega
    · intro b hb
      rw [mem_singleton.mp hb]
      exact ⟨h.fresh c hhead, .inl mem_cons_self⟩
    · exact (ite_eq_right_iff.mpr Eq.symm).symm.trans
        (@BufOk.redirected_tail _ _ _ [] rest h hchunks [c.drop n])
    · simp only [flatMap_singleton, hlen]
      omega
  · intro hstrict
    rw [strict_iff, hchunks, strictChunks_cons] at hstrict
    refine strict_iff.mpr (strictChunks_cons.mpr ⟨fun _ hnil => ?_, ?_, hstrict.2.2⟩)
    · rw [hnil, length_nil] at hlen
      omega
    · simp only [drop]
      omega

lemma exists_removeChunks {chunks : List Chunk} (h : BufOk L (st.withChunks chunks))
    (hn : n ≤ (chunks.flatMap Chunk.data).length) :
    ∃ st', removeChunks L chunks n st = some st' ∧ Kept L (st.withChunks chunks) st' ∧
      st'.buf.content = (chunks.flatMap Chunk.data).drop n ∧
      (Strict (st.withChunks chunks).buf → Strict st'.buf) := by
  induction chunks generalizing n st with
  | nil =>
    obtain rfl := Nat.le_zero.mp hn
    exact ⟨_, rfl, Kept.refl h, rfl, id⟩
  | cons c rest ih =>
    cases n with
    | zero => exact ⟨_, by rw [removeChunks]; rfl, Kept.refl h, rfl, id⟩
    | succ n =>
      rw [flatMap_cons, length_append] at hn
      rw [removeChunks]
      by_cases hless : c.datalen > n + 1
      · obtain ⟨hkept, hstrict⟩ := kept_dropHead h rfl hless
        refine ⟨_, if_pos hless, hkept, ?_, hstrict⟩
        rw [flatMap_cons, drop_append_of_le_length (le_of_lt hless)]
        rfl
      · obtain ⟨heap, hfree, hkept, hstrict⟩ := exists_freeHead h rfl
        have hrest : n + 1 - c.datalen ≤ (rest.flatMap Chunk.data).length := by
          unfold datalen
          omega
        have hok : BufOk L (BufAt.withChunks ⟨heap, { st.buf with
            tail := if st.buf.tail = some c.addr then none else st.buf.tail
            datalen := st.buf.datalen - c.datalen }⟩ rest) := hkept.ok
        obtain ⟨st', hst', hkept', hcontent', hstrict'⟩ := ih hok hrest
        refine ⟨st', ?_, hkept.trans hkept', ?_, fun hst => hstrict' (hstrict hst)⟩
        · have hfree' : chunkFree L st.heap c = some heap := hfree
          rw [if_neg hless, some_bind hfree']
          exact hst'
        · rw [hcontent', flatMap_cons, drop_append]
          unfold datalen at hless ⊢
          rw [drop_of_length_le (not_lt.mp hless), nil_append]

/-- **The first bytes of a buffer are removed.** -/
lemma exists_bufRemoveFromFront (h : BufOk L st)
    (hor : n ≤ st.buf.content.length ∨ (bufRemoveFromFront L st n).isSome) :
    ∃ st', bufRemoveFromFront L st n = some st' ∧ Kept L st st' ∧
      st'.buf.content = st.buf.content.drop n ∧ n ≤ st.buf.content.length ∧
      (Strict st.buf → Strict st'.buf) := by
  have hn : n ≤ st.buf.content.length := by
    rcases hor with hn | hsome
    · exact hn
    · rw [← h.datalen]
      exact (torAssert_of_isSome hsome).1
  have hok : BufOk L (st.withChunks st.buf.chunks) := h
  obtain ⟨st', hst', hkept, hcontent, hstrict⟩ := exists_removeChunks hok hn
  refine ⟨st', ?_, hkept, hcontent, hn, hstrict⟩
  rw [bufRemoveFromFront, torAssert_bind (by rw [h.datalen]; exact hn)]
  exact hst'

/-- **The first bytes of a buffer are fetched.** -/
lemma exists_fetchFromBuf (h : BufOk L st)
    (hor : n ≤ st.buf.content.length ∧ st.buf.content.length < intMax ∨
      (fetchFromBuf L st n).isSome) :
    ∃ st', fetchFromBuf L st n = some (st', st.buf.content.take n) ∧ Kept L st st' ∧
      st'.buf.content = st.buf.content.drop n ∧ n ≤ st.buf.content.length ∧
      (Strict st.buf → Strict st'.buf) := by
  have hn : n ≤ st.buf.content.length := by
    rcases hor with hok | hsome
    · exact hok.1
    · rw [← h.datalen]
      exact (torAssert_of_isSome (isSome_of_isSome_bind hsome)).1
  obtain ⟨st', hst', hkept, hcontent, -, hstrict⟩ := exists_bufRemoveFromFront h (.inl hn)
  have hlen : st'.buf.datalen < intMax := by
    rcases hor with hok | hsome
    · rw [hkept.ok.datalen, hcontent, length_drop]
      omega
    · rw [fetchFromBuf, peekFromBuf_eq h hn, bind_eq_bind, bind_some, some_bind hst'] at hsome
      exact (torAssert_of_isSome hsome).1
  refine ⟨st', ?_, hkept, hcontent, hn, hstrict⟩
  rw [fetchFromBuf, peekFromBuf_eq h hn, bind_eq_bind, bind_some, some_bind hst',
    torAssert_bind hlen]

lemma freeChunks_eq {l : List Chunk} {heap : ChunkHeap}
    (h : chunksAllocation L l ≤ heap.totalBytes) : freeChunks L l heap =
      some { heap with totalBytes := heap.totalBytes - chunksAllocation L l } := by
  induction l generalizing heap with
  | nil => rfl
  | cons c rest ih =>
    rw [chunksAllocation_cons] at h
    rw [freeChunks, chunkFree_eq (by omega), bind_eq_bind, bind_some,
      ih (by simp only; omega), chunksAllocation_cons, Nat.sub_sub]

/-- **Everything is removed from a buffer.** -/
lemma exists_bufClear (h : BufOk L st) :
    ∃ st', bufClear L st = some st' ∧ Kept L st st' ∧ st'.buf.chunks = [] := by
  refine ⟨⟨{ st.heap with totalBytes := st.heap.totalBytes - bufAllocation L st.buf },
      { st.buf with chunks := [], tail := none, datalen := 0 }⟩,
    by rw [bufClear, freeChunks_eq h.counted, bind_eq_bind, bind_some]; rfl,
    ⟨⟨nofun, rfl, nodup_nil, nofun, rfl, h.default, Nat.zero_le _⟩, ?_, Nat.le_refl _, rfl⟩, rfl⟩
  have hcounted := h.counted
  simp only [bufAllocation_eq, chunksAllocation_nil] at hcounted ⊢
  omega

lemma exists_head_of_lt_content (h : n < st.buf.content.length) :
    ∃ head rest, st.buf.chunks = head :: rest ∧
      st.buf.content = head.data ++ rest.flatMap Chunk.data := by
  cases hchunks : st.buf.chunks with
  | nil => simp [Buf.content, hchunks] at h
  | cons head rest => exact ⟨head, rest, rfl, by rw [Buf.content, hchunks, flatMap_cons]⟩

/-- At most `n` bytes are sent with the results of `send`, which is called with any numbers of bytes
until it takes less than that; how many it takes. -/
inductive Sent : ℕ → List SendResult → ℕ → Prop
  | done {results : List SendResult} : Sent 0 results 0
  | none {n : ℕ} : Sent n [] 0
  | error {n : ℕ} {results : List SendResult} : Sent n (.error :: results) 0
  | wouldBlock {n : ℕ} {results : List SendResult} : Sent n (.wouldBlock :: results) 0
  | last {n k ask : ℕ} {results : List SendResult} (hask : ask ≤ n)
      (hlast : min k ask = 0 ∨ min k ask < ask) : Sent n (.sent k :: results) (min k ask)
  | more {n k ask left : ℕ} {results : List SendResult} (hask : ask ≤ n) (hmore : ask ≤ k)
      (h : Sent (n - ask) results left) : Sent n (.sent k :: results) (ask + left)

lemma exists_flushLoop (h : BufOk L st) (results : List SendResult) {sz : ℕ} (bufFlushlen : ℕ)
    (flushed : List UInt8) (hsz : sz ≤ st.buf.content.length)
    (hor : flushed.length + st.buf.content.length < intMax ∨
      (flushLoop L results st sz bufFlushlen flushed).isSome) :
    ∃ st' r out, flushLoop L results st sz bufFlushlen flushed = some (st', r) ∧ Kept L st st' ∧
      r.sent = flushed ++ out ∧ st.buf.content = out ++ st'.buf.content ∧ out.length ≤ sz ∧
      Sent sz results out.length ∧ r.bufFlushlen = bufFlushlen - out.length ∧
      (Strict st.buf → Strict st'.buf) := by
  induction results generalizing st sz bufFlushlen flushed with
  | nil =>
    cases sz with
    | zero =>
      rw [flushLoop] at hor ⊢
      have hflushed : flushed.length < intMax :=
        hor.elim (lt_of_le_of_lt (Nat.le_add_right _ _)) fun hsome => (torAssert_of_isSome hsome).1
      exact ⟨st, _, [], torAssert_bind hflushed _, Kept.refl h, (append_nil _).symm, rfl,
        Nat.zero_le _, .done, rfl, id⟩
    | succ sz =>
      obtain ⟨head, rest, hchunks, -⟩ := exists_head_of_lt_content hsz
      rw [flushLoop, hchunks, head?_cons, bind_eq_bind, bind_some] at hor ⊢
      have hflushed : flushed.length < intMax :=
        hor.elim (lt_of_le_of_lt (Nat.le_add_right _ _)) fun hsome => (torAssert_of_isSome hsome).1
      exact ⟨st, ⟨false, flushed, bufFlushlen⟩, [], torAssert_bind hflushed _, Kept.refl h,
        (append_nil _).symm, rfl, Nat.zero_le _, .none, rfl, id⟩
  | cons result results ih =>
    cases sz with
    | zero =>
      rw [flushLoop] at hor ⊢
      have hflushed : flushed.length < intMax :=
        hor.elim (lt_of_le_of_lt (Nat.le_add_right _ _)) fun hsome => (torAssert_of_isSome hsome).1
      exact ⟨st, _, [], torAssert_bind hflushed _, Kept.refl h, (append_nil _).symm, rfl,
        Nat.zero_le _, .done, rfl, id⟩
    | succ sz =>
      obtain ⟨head, rest, hchunks, hcontent⟩ := exists_head_of_lt_content hsz
      rw [flushLoop, hchunks, head?_cons, bind_eq_bind, bind_some] at hor ⊢
      cases result with
      | error =>
        exact ⟨st, ⟨true, flushed, bufFlushlen⟩, [], rfl, Kept.refl h, (append_nil _).symm, rfl,
          Nat.zero_le _, .error, rfl, id⟩
      | wouldBlock =>
        have hflushed : flushed.length < intMax :=
          hor.elim (lt_of_le_of_lt (Nat.le_add_right _ _)) fun hsome =>
            (torAssert_of_isSome hsome).1
        exact ⟨st, ⟨false, flushed, bufFlushlen⟩, [], torAssert_bind hflushed _, Kept.refl h,
          (append_nil _).symm, rfl, Nat.zero_le _, .wouldBlock, rfl, id⟩
      | sent n =>
        set flushlen0 := if head.datalen ≥ sz + 1 then sz + 1 else head.datalen with hflushlen0
        set r := min n flushlen0 with hr
        have hrhead : r ≤ head.data.length := by
          unfold datalen at hflushlen0
          split_ifs at hflushlen0 <;> omega
        have hask : flushlen0 ≤ sz + 1 := by
          unfold datalen at hflushlen0
          split_ifs at hflushlen0 <;> omega
        have hrsz : r ≤ sz + 1 := by
          unfold datalen at hflushlen0
          split_ifs at hflushlen0 <;> omega
        have hrlen : r ≤ st.buf.content.length := by
          rw [hcontent, length_append]
          omega
        have htake : head.data.take r = st.buf.content.take r := by
          rw [hcontent, take_append_of_le_length hrhead]
        obtain ⟨st₁, hst₁, hkept₁, hcontent₁, -, hstrict₁⟩ :=
          exists_bufRemoveFromFront h (.inl hrlen)
        have hsplit : st.buf.content = head.data.take r ++ st₁.buf.content := by
          rw [htake, hcontent₁, take_append_drop]
        have htakeLen : (head.data.take r).length = r := length_take_of_le hrhead
        simp only [← hr, hst₁, bind_eq_bind, bind_some] at hor ⊢
        rw [← bind_eq_bind] at hor ⊢
        have hrmax : r < intMax := by
          rcases hor with hmax | hsome
          · omega
          · exact (torAssert_of_isSome hsome).1
        rw [torAssert_bind hrmax] at hor ⊢
        by_cases hstop : r = 0 ∨ r < flushlen0
        · rw [if_pos hstop] at hor ⊢
          have hflushed₁ : (flushed ++ head.data.take r).length < intMax := by
            rcases hor with hmax | hsome
            · rw [length_append, htakeLen]
              omega
            · exact (torAssert_of_isSome hsome).1
          refine ⟨st₁, ⟨false, flushed ++ head.data.take r, bufFlushlen - r⟩, head.data.take r,
            ?_, hkept₁,
            rfl, hsplit, ?_, ?_, ?_, hstrict₁⟩
          · rw [torAssert_bind hflushed₁]
          · rw [htakeLen]
            exact hrsz
          · rw [htakeLen]
            exact .last hask hstop
          · rw [htakeLen]
        · rw [if_neg hstop] at hor ⊢
          have hsz₁ : sz + 1 - r ≤ st₁.buf.content.length := by
            rw [hcontent₁, length_drop]
            omega
          have hor₁ : (flushed ++ head.data.take r).length + st₁.buf.content.length < intMax ∨
              (flushLoop L results st₁ (sz + 1 - r) (bufFlushlen - r)
                (flushed ++ head.data.take r)).isSome := by
            refine hor.imp_left fun hmax => ?_
            rw [hcontent₁, length_append, htakeLen, length_drop]
            omega
          obtain ⟨st', res, out, hst', hkept', hsent, hsplit', hout, htaken, hleft, hstrict'⟩ :=
            ih hkept₁.ok (bufFlushlen - r) _ hsz₁ hor₁
          have hfull : r = flushlen0 := by omega
          refine ⟨st', res, head.data.take r ++ out, hst', hkept₁.trans hkept', ?_, ?_, ?_, ?_, ?_,
            fun hst => hstrict' (hstrict₁ hst)⟩
          · rw [hsent, append_assoc]
          · rw [append_assoc, ← hsplit', ← hsplit]
          · rw [length_append, htakeLen]
            omega
          · rw [length_append, htakeLen, hfull]
            exact .more hask (by omega) (hfull ▸ htaken)
          · rw [hleft, length_append, htakeLen, Nat.sub_sub]

/-- **A flush** hands the first bytes of a buffer to the socket. -/
lemma exists_flushBuf (h : BufOk L st) {sz bufFlushlen : ℕ} {results : List SendResult}
    (hor : (bufFlushlen ≤ st.buf.content.length ∧ sz ≤ bufFlushlen) ∧
      st.buf.content.length < intMax ∨
      (flushBuf L st sz bufFlushlen results).isSome) :
    ∃ st' r, flushBuf L st sz bufFlushlen results = some (st', r) ∧ Kept L st st' ∧
      st.buf.content = r.sent ++ st'.buf.content ∧ r.sent.length ≤ sz ∧
      Sent sz results r.sent.length ∧ r.bufFlushlen = bufFlushlen - r.sent.length ∧
      (Strict st.buf → Strict st'.buf) := by
  have hflushlen : bufFlushlen ≤ st.buf.datalen := by
    rcases hor with hok | hsome
    · rw [h.datalen]
      exact hok.1.1
    · exact (torAssert_of_isSome hsome).1
  rw [flushBuf, torAssert_bind hflushlen] at hor ⊢
  have hsz : sz ≤ bufFlushlen := by
    rcases hor with hok | hsome
    · exact hok.1.2
    · exact (torAssert_of_isSome hsome).1
  rw [torAssert_bind hsz] at hor ⊢
  have hor' : ([] : List UInt8).length + st.buf.content.length < intMax ∨
      (flushLoop L results st sz bufFlushlen []).isSome := by
    rw [length_nil, zero_add]
    exact hor.imp_left And.right
  rw [h.datalen] at hflushlen
  obtain ⟨st', r, out, hst', hkept, hsent, hsplit, hout, htaken, hleft, hstrict⟩ :=
    exists_flushLoop h results bufFlushlen [] (hsz.trans hflushlen) hor'
  rw [nil_append] at hsent
  subst hsent
  exact ⟨st', r, hst', hkept, hsplit, hout, htaken, hleft, hstrict⟩

end Removing

/-! ### Contiguous bytes -/

section Pullup

variable {L : ChunkLayout} {st : BufAt} {dest src : Chunk} {rest : List Chunk} {bytes : ℕ}

/-- Where bytes that are moved to the first chunk end: with the last byte of a chunk, which is the
last chunk or not, or within a chunk. -/
def endsWith (n : ℕ) : List Chunk → Option (Chunk × Bool)
  | [] => none
  | src :: rest =>
    if n > src.datalen then endsWith (n - src.datalen) rest
    else if n = src.datalen then some (src, rest.isEmpty) else none

/-- The bytes that are moved do not end with a chunk, unless this is the tail and there is room in
it. -/
def MoveOk (n : ℕ) (rest : List Chunk) : Prop :=
  ∀ c last, endsWith n rest = some (c, last) → last ∧ 0 < c.remainingCapacity

instance (n : ℕ) (rest : List Chunk) : Decidable (MoveOk n rest) :=
  match hends : endsWith n rest with
  | none => isTrue fun c last h => by
      rw [hends] at h
      cases h
  | some (c, last) => decidable_of_iff (last ∧ 0 < c.remainingCapacity)
      ⟨fun h c' last' h' => by
        rw [hends] at h'
        obtain ⟨rfl, rfl⟩ := Prod.mk.inj (Option.some.inj h')
        exact h, fun h => h c last hends⟩

/-- The first bytes are contiguous already, or those that are moved do not end with a chunk, unless
this is the tail and there is room in it. -/
def Buf.PullupOk (buf : Buf) (bytes : ℕ) : Prop :=
  ∀ head rest, buf.chunks = head :: rest → head.datalen < min bytes buf.datalen →
    MoveOk (min bytes buf.datalen - head.datalen) rest

instance (buf : Buf) (bytes : ℕ) : Decidable (buf.PullupOk bytes) :=
  match hchunks : buf.chunks with
  | [] => isTrue fun head rest h => by
      rw [hchunks] at h
      cases h
  | head :: rest => decidable_of_iff (head.datalen < min bytes buf.datalen →
        MoveOk (min bytes buf.datalen - head.datalen) rest)
      ⟨fun h head' rest' h' => by
        rw [hchunks] at h'
        obtain ⟨rfl, rfl⟩ := List.cons.inj h'
        exact h, fun h => h head rest hchunks⟩

/-- All data of the second chunk is moved to the first one, and the second one is freed. -/
lemma exists_moveAll (h : BufOk L (st.withChunks (dest :: src :: rest)))
    (hroom : src.datalen ≤ dest.remainingCapacity) :
    ∃ heap, chunkFree L st.heap src = some heap ∧
      Kept L (st.withChunks (dest :: src :: rest)) (BufAt.withChunks ⟨heap, { st.buf with
        tail := if st.buf.tail = some src.addr then some dest.addr else st.buf.tail }⟩
          ({ dest with data := dest.data ++ src.data } :: rest)) := by
  have hcounted := h.counted
  simp only [BufAt.withChunks, bufAllocation_eq, chunksAllocation_cons] at hcounted
  have hdest := h.fits dest mem_cons_self
  refine ⟨_, chunkFree_eq (by omega),
    @kept_replace _ _ _ [dest, src] [{ dest with data := dest.data ++ src.data }] rest h rfl rfl
    ?_ (nodup_singleton _) ?_
    (@BufOk.redirected_tail _ _ _ [dest] rest h rfl [{ dest with data := dest.data ++ src.data }])
    ?_ ?_ (le_refl _) rfl⟩
  · intro b hb
    rw [mem_singleton.mp hb]
    unfold remainingCapacity at hroom
    unfold datalen at *
    simp only [length_append]
    omega
  · intro b hb
    rw [mem_singleton.mp hb]
    exact ⟨h.fresh dest mem_cons_self, .inl mem_cons_self⟩
  · simp [BufAt.withChunks]
  · simp only [BufAt.withChunks, chunksAllocation_cons, chunksAllocation_nil]
    omega

/-- Some data of the second chunk is moved to the first one. -/
lemma kept_moveSome (h : BufOk L (st.withChunks (dest :: src :: rest))) {n : ℕ}
    (hn : n ≤ src.datalen) (hroom : n ≤ dest.remainingCapacity) :
    Kept L (st.withChunks (dest :: src :: rest)) (st.withChunks
      ({ dest with data := dest.data ++ src.data.take n } :: src.drop n :: rest)) := by
  have hlen : (src.data.take n).length = n := length_take_of_le hn
  have hdest := h.fits dest mem_cons_self
  have hsrc := h.fits src (mem_cons_of_mem dest mem_cons_self)
  have hnodup : ([dest, src].map addr ++ rest.map addr).Nodup := h.nodup
  unfold remainingCapacity at hroom
  unfold datalen at *
  refine @kept_replace _ _ _ [dest, src] [{ dest with data := dest.data ++ src.data.take n },
    src.drop n] rest h rfl
    rfl ?_ (nodup_append.mp hnodup).1 ?_ ?_ ?_ ?_ (le_refl _) rfl
  · intro b hb
    rcases mem_cons.mp hb with rfl | hb
    · simp only [datalen, length_append]
      omega
    · rw [mem_singleton.mp hb]
      simp only [drop, datalen, length_drop]
      omega
  · intro b hb
    rcases mem_cons.mp hb with rfl | hb
    · exact ⟨h.fresh dest mem_cons_self, .inl mem_cons_self⟩
    · rw [mem_singleton.mp hb]
      exact ⟨h.fresh src (mem_cons_of_mem dest mem_cons_self),
        .inl (mem_cons_of_mem _ mem_cons_self)⟩
  · exact (ite_eq_right_iff.mpr Eq.symm).symm.trans
      (@BufOk.redirected_tail _ _ _ [dest] rest h rfl [_, src.drop n])
  · simp only [BufAt.withChunks, flatMap_cons, flatMap_nil, length_append, length_nil, drop,
      length_drop]
    omega
  · rfl

/-- The invariant when all data of the second chunk is moved. -/
lemma Strict.moveAll {buf buf' : Buf} (h : Strict buf) (hchunks : buf.chunks = dest :: src :: rest)
    (hchunks' : buf'.chunks = { dest with data := dest.data ++ src.data } :: rest) :
    Strict buf' := by
  rw [strict_iff, hchunks, strictChunks_cons, strictChunks_cons] at h
  rw [strict_iff, hchunks', strictChunks_cons]
  exact ⟨fun _ hnil => h.1 (cons_ne_nil src rest) (append_eq_nil_iff.mp hnil).1, h.2.1, h.2.2.2.2⟩

/-- The invariant when some data of the second chunk is moved. -/
lemma Strict.moveSome {buf buf' : Buf} (h : Strict buf) (hchunks : buf.chunks = dest :: src :: rest)
    {n : ℕ} (hinsideSrc : src.offset + n < src.memlen) (hleft : rest ≠ [] → n < src.datalen)
    (hchunks' : buf'.chunks = { dest with data := dest.data ++ src.data.take n } :: src.drop
      n :: rest) :
    Strict buf' := by
  rw [strict_iff, hchunks, strictChunks_cons, strictChunks_cons] at h
  rw [strict_iff, hchunks', strictChunks_cons, strictChunks_cons]
  refine ⟨fun _ hnil => h.1 (cons_ne_nil src rest) (append_eq_nil_iff.mp hnil).1, h.2.1,
    fun hne hnil => ?_,
    hinsideSrc, h.2.2.2.2⟩
  have hlt := hleft hne
  have hlen : (src.drop n).data.length = src.data.length - n := length_drop
  rw [hnil, length_nil] at hlen
  unfold datalen at hlt
  omega

/-- The first chunk gets the bytes that it lacks. -/
lemma exists_pullupLoop (h : BufOk L (st.withChunks (dest :: rest)))
    (hbytes : bytes ≤ dest.datalen + (rest.flatMap Chunk.data).length)
    (hroom : bytes ≤ dest.datalen + dest.remainingCapacity) :
    ∃ st', pullupLoop L bytes dest rest st = some st' ∧ Kept L (st.withChunks (dest :: rest)) st' ∧
      st'.buf.content = dest.data ++ rest.flatMap Chunk.data ∧
      ((dest.datalen < bytes → MoveOk (bytes - dest.datalen) rest) →
        Strict (st.withChunks (dest :: rest)).buf → Strict st'.buf) := by
  induction rest generalizing dest st with
  | nil =>
    have hdone : ¬dest.datalen < bytes := by
      rw [flatMap_nil, length_nil] at hbytes
      omega
    refine ⟨st.withChunks [dest], ?_, Kept.refl h, rfl, fun _ hst => hst⟩
    rw [pullupLoop, torAssert_bind hdone]
    rfl
  | cons src rest ih =>
    rw [flatMap_cons, length_append] at hbytes
    rw [pullupLoop]
    by_cases hless : dest.datalen < bytes
    · rw [if_pos hless]
      by_cases hall : bytes - dest.datalen > src.datalen
      · have hmem : src.datalen ≤ dest.remainingCapacity := by omega
        obtain ⟨heap, hfree, hkept⟩ := exists_moveAll h hmem
        have hwrite : dest.write src.data = some { dest with data := dest.data ++ src.data } :=
          if_pos hmem
        have hlen : ({ dest with data := dest.data ++ src.data } : Chunk).datalen =
            dest.datalen + src.datalen := length_append
        have hcapacity : ({ dest with data := dest.data ++ src.data } : Chunk).remainingCapacity =
            dest.remainingCapacity - src.datalen := by
          unfold remainingCapacity
          rw [hlen]
          simp only
          omega
        obtain ⟨st', hst', hkept', hcontent', hstrict'⟩ := ih hkept.ok
          (by rw [hlen]; unfold datalen at *; omega) (by rw [hlen, hcapacity]; omega)
        refine ⟨st', ?_, hkept.trans hkept', ?_, fun hmove hst => hstrict' (fun _ => ?_) ?_⟩
        · simp only [if_pos hall, hwrite, hfree, bind_eq_bind, bind_some]
          exact hst'
        · rw [hcontent', flatMap_cons, append_assoc]
        · have hmove' := hmove hless
          unfold MoveOk at hmove' ⊢
          rw [endsWith, if_pos hall] at hmove'
          rw [hlen, ← Nat.sub_sub]
          exact hmove'
        · exact hst.moveAll rfl rfl
      · have hn : bytes - dest.datalen ≤ src.datalen := not_lt.mp hall
        have hmem : bytes - dest.datalen ≤ dest.remainingCapacity := by omega
        have htake : (src.data.take (bytes - dest.datalen)).length = bytes - dest.datalen :=
          length_take_of_le hn
        have hwrite : dest.write (src.data.take (bytes - dest.datalen)) =
            some { dest with data := dest.data ++ src.data.take (bytes - dest.datalen) } :=
          if_pos (by rw [htake]; exact hmem)
        have hkept := kept_moveSome h hn hmem
        have hassert : ({ dest with
            data := dest.data ++ src.data.take (bytes - dest.datalen) } : Chunk).datalen =
                bytes := by
          unfold datalen at *
          rw [length_append, htake]
          omega
        refine ⟨_, ?_, hkept, ?_, fun hmove hst => ?_⟩
        · simp only [if_neg hall, hwrite, bind_eq_bind, bind_some]
          rw [← bind_eq_bind, torAssert_bind hassert]
          rfl
        · simp only [BufAt.withChunks, Buf.content, flatMap_cons, drop]
          rw [append_assoc, ← append_assoc (List.take _ _), take_append_drop]
        · have hmove' := hmove hless
          unfold MoveOk at hmove'
          rw [endsWith, if_neg hall] at hmove'
          have hfits := h.fits src (mem_cons_of_mem dest mem_cons_self)
          by_cases hexact : bytes - dest.datalen = src.datalen
          · rw [if_pos hexact] at hmove'
            obtain ⟨hlast, hcapacity⟩ := hmove' src rest.isEmpty rfl
            unfold remainingCapacity at hcapacity
            refine hst.moveSome rfl ?_ (fun hne => absurd (List.isEmpty_iff.mp hlast) hne) rfl
            omega
          · refine hst.moveSome rfl ?_ (fun _ => by omega) rfl
            omega
    · rw [if_neg hless]
      exact ⟨_, rfl, Kept.refl h, rfl, fun _ hst => hst⟩

/-- The first chunk is replaced by one with the same data, which the heap and the pointer to the
tail follow. -/
lemma kept_setHead {head : Chunk} (h : BufOk L st) (heap : ChunkHeap) (head' : Chunk)
    (hchunks : st.buf.chunks = head :: rest) (hdata : head'.data = head.data)
    (hfits : head'.offset + head'.datalen ≤ head'.memlen)
    (haddr : head'.addr = head.addr ∨ head'.addr = st.heap.nextAddr)
    (hlt : head'.addr < heap.nextAddr)
    (htotal : heap.totalBytes + L.allocSize head.memlen =
      st.heap.totalBytes + L.allocSize head'.memlen) (hnext : st.heap.nextAddr ≤ heap.nextAddr) :
    Kept L st (BufAt.withChunks ⟨heap, { st.buf with
      tail := if st.buf.tail = some head.addr then some head'.addr else st.buf.tail }⟩
          (head' :: rest)) := by
  refine @kept_replace _ _ _ [head] [head'] rest h hchunks rfl ?_ (nodup_singleton _) ?_
    (@BufOk.redirected_tail _ _ _ [] rest h hchunks [head']) ?_ ?_ hnext rfl
  · intro b hb
    rw [mem_singleton.mp hb]
    exact hfits
  · intro b hb
    rw [mem_singleton.mp hb]
    exact ⟨hlt, haddr.imp_left fun heq => mem_singleton.mpr heq⟩
  · simp only [BufAt.withChunks, flatMap_singleton, hdata]
  · simpa only [BufAt.withChunks, chunksAllocation_cons, chunksAllocation_nil, add_zero]
      using htotal

/-- The invariant when the first chunk is replaced. -/
lemma Strict.setHead {buf buf' : Buf} {head head' : Chunk} (h : Strict buf)
    (hchunks : buf.chunks = head :: rest) (hdata : head'.data = head.data)
    (hinside' : head'.offset < head'.memlen) (hchunks' : buf'.chunks = head' :: rest) :
    Strict buf' := by
  rw [strict_iff, hchunks, strictChunks_cons] at h
  rw [strict_iff, hchunks', strictChunks_cons, hdata]
  exact ⟨h.1, hinside', h.2.2⟩

/-- There is room in the first chunk, which may have moved. -/
lemma exists_pullupHead {head : Chunk} (h : BufOk L st) (hchunks : st.buf.chunks = head :: rest)
    (hless : head.datalen < bytes) :
    ∃ st' dest, pullupHead L st head bytes = some (st', dest) ∧
      Kept L st (st'.withChunks (dest :: rest)) ∧ dest.data = head.data ∧
      bytes ≤ dest.datalen + dest.remainingCapacity ∧
      (Strict st.buf → Strict (st'.withChunks (dest :: rest)).buf) := by
  have hhead : head ∈ st.buf.chunks := by
    rw [hchunks]
    exact mem_cons_self
  have hfits := h.fits head hhead
  have hlt := h.fresh head hhead
  rw [pullupHead]
  by_cases hmem : head.memlen ≥ bytes
  · rw [if_pos hmem]
    set dest := if head.remainingCapacity < bytes - head.datalen then head.repack
      else head with hdest
    have hroom : dest.remainingCapacity ≥ bytes - head.datalen := by
      rw [hdest]
      split
      · unfold remainingCapacity repack datalen at *
        simp only
        omega
      · next hge => exact not_lt.mp hge
    have hsame : dest.data = head.data ∧ dest.memlen = head.memlen ∧ dest.addr = head.addr ∧
        dest.offset ≤ head.offset := by
      rw [hdest]
      split
      · exact ⟨rfl, rfl, rfl, Nat.zero_le _⟩
      · exact ⟨rfl, rfl, rfl, le_refl _⟩
    obtain ⟨hdata, hmemlen, haddr, hoffset⟩ := hsame
    have hdatalen : dest.datalen = head.datalen := by
      unfold datalen
      rw [hdata]
    have hkept := kept_setHead h st.heap dest hchunks hdata (by omega) (.inl haddr) (by omega)
      (by rw [hmemlen]) (le_refl _)
    have htail : (if st.buf.tail = some head.addr then some dest.addr else st.buf.tail) =
        st.buf.tail := by
      split
      · next heq => rw [heq, haddr]
      · rfl
    rw [htail] at hkept
    refine ⟨st, dest, ?_, hkept, hdata, by omega, fun hst => ?_⟩
    · simp only [← hdest]
      rw [torAssert_bind hroom]
    · refine hst.setHead hchunks hdata ?_ rfl
      have hinside := hst.inside head hhead
      omega
  · rw [if_neg hmem]
    have hsize := (preferredChunkSize_spec L bytes).2
    set newsize := L.sizeWithAlloc (preferredChunkSize L bytes) with hnewsize
    have hgrow : chunkGrow L st.heap head.repack newsize = some (st.heap.alloc
        (L.allocSize newsize - L.allocSize head.repack.memlen),
        { head.repack with addr := st.heap.nextAddr, memlen := newsize }) := by
      have hgt : newsize > head.repack.memlen := by
        unfold repack
        simp only
        omega
      rw [chunkGrow, torAssert_bind hgt]
    set dest : Chunk := { head.repack with addr := st.heap.nextAddr, memlen := newsize } with hdest
    have hdata : dest.data = head.data := rfl
    have hdatalen : dest.datalen = head.datalen := rfl
    have hoffset : dest.offset = 0 := rfl
    have hmemlen : dest.memlen = newsize := rfl
    have hkept := kept_setHead h
      (st.heap.alloc (L.allocSize newsize - L.allocSize head.repack.memlen)) dest hchunks hdata
        (by omega) (.inr rfl) (Nat.lt_succ_self _)
      (by
        unfold ChunkHeap.alloc ChunkLayout.allocSize repack
        simp only [hmemlen]
        omega) (Nat.le_succ _)
    refine ⟨_, dest, ?_, hkept, hdata, ?_, fun hst => hst.setHead hchunks hdata (by omega) rfl⟩
    · have hassert : dest.memlen ≥ bytes := hsize
      simp only [hgrow, bind_eq_bind, bind_some]
      rw [← bind_eq_bind, torAssert_bind hassert]
    · unfold remainingCapacity
      omega

/-- **The first bytes of a buffer are made contiguous.**  The bytes are the same. -/
lemma exists_bufPullup (h : BufOk L st) (bytes : ℕ) :
    ∃ st', bufPullup L st bytes = some st' ∧ Kept L st st' ∧ st'.buf.content = st.buf.content ∧
      (st.buf.PullupOk bytes → Strict st.buf → Strict st'.buf) := by
  rw [bufPullup]
  cases hchunks : st.buf.chunks with
  | nil => exact ⟨st, rfl, Kept.refl h, rfl, fun _ hst => hst⟩
  | cons head rest =>
    have hmin : (if st.buf.datalen < bytes then st.buf.datalen else bytes) =
        min bytes st.buf.datalen := by
      split_ifs <;> omega
    simp only [hmin]
    by_cases hdone : head.datalen ≥ min bytes st.buf.datalen
    · exact ⟨st, if_pos hdone, Kept.refl h, rfl, fun _ hst => hst⟩
    · have hless := not_le.mp hdone
      obtain ⟨st₁, dest, hst₁, hkept₁, hdata, hroom, hstrict₁⟩ := exists_pullupHead h hchunks hless
      have hdatalen : dest.datalen = head.datalen := by
        unfold datalen
        rw [hdata]
      have hcontent : st.buf.content = head.data ++ rest.flatMap Chunk.data := by
        rw [Buf.content, hchunks, flatMap_cons]
      have hbytes : min bytes st.buf.datalen ≤ dest.datalen + (rest.flatMap Chunk.data).length := by
        rw [h.datalen, hcontent, length_append, hdatalen]
        unfold datalen
        omega
      obtain ⟨st', hst', hkept', hcontent', hstrict'⟩ := exists_pullupLoop hkept₁.ok hbytes hroom
      refine ⟨st', ?_, hkept₁.trans hkept', ?_, fun hok hst =>
        hstrict' (fun hlt => ?_) (hstrict₁ hst)⟩
      · rw [if_neg hdone, some_bind hst₁]
        exact hst'
      · rw [hcontent', hdata, hcontent]
      · rw [hdatalen]
        exact hok head rest hchunks hless

end Pullup

/-! ### Copies -/

section Copies

variable {L : ChunkLayout} {out : BufAt} {buf buf' : Buf}

/-- A chunk without its address. -/
def Chunk.shape (c : Chunk) : ℕ × ℕ × List UInt8 := (c.memlen, c.offset, c.data)

/-- The invariant is not about addresses. -/
lemma Strict.of_shape (h : Strict buf)
    (hshape : buf'.chunks.map Chunk.shape = buf.chunks.map Chunk.shape) : Strict buf' := by
  constructor
  · intro b hb
    have hmem : b.shape ∈ (buf.chunks.dropLast).map Chunk.shape := by
      rw [map_dropLast, ← hshape, ← map_dropLast]
      exact mem_map_of_mem hb
    obtain ⟨a, ha, heq⟩ := mem_map.mp hmem
    have hdata : a.data = b.data := congrArg (fun x => x.2.2) heq
    rw [← hdata]
    exact h.nonempty a ha
  · intro b hb
    have hmem : b.shape ∈ buf.chunks.map Chunk.shape := by
      rw [← hshape]
      exact mem_map_of_mem hb
    obtain ⟨a, ha, heq⟩ := mem_map.mp hmem
    have hmemlen : a.memlen = b.memlen := congrArg Prod.fst heq
    have hoffset : a.offset = b.offset := congrArg (fun x => x.2.1) heq
    have hinside := h.inside a ha
    omega

lemma Buf.link_withDatalen (buf : Buf) (n : ℕ) (c : Chunk) :
    ({ buf with datalen := n } : Buf).link c = { buf.link c with datalen := n } := by
  unfold Buf.link
  cases buf.tail <;> rfl

lemma kept_copyChunks {l : List Chunk} {n : ℕ} (hfits : ∀ c ∈ l, c.offset + c.datalen ≤ c.memlen)
    (h : BufOk L { out with buf := { out.buf with datalen := n } }) :
    BufOk L { copyChunks L l out with buf := { (copyChunks L l out).buf with
        datalen := n + (l.flatMap Chunk.data).length } } ∧
      (copyChunks L l out).buf.chunks.map Chunk.shape =
        out.buf.chunks.map Chunk.shape ++ l.map Chunk.shape ∧
      (copyChunks L l out).heap.totalBytes = out.heap.totalBytes + chunksAllocation L l ∧
      out.heap.nextAddr ≤ (copyChunks L l out).heap.nextAddr ∧
      (copyChunks L l out).buf.defaultChunkSize = out.buf.defaultChunkSize := by
  induction l generalizing out n with
  | nil => exact ⟨h, (append_nil _).symm, rfl, le_refl _, rfl⟩
  | cons c rest ih =>
    set c' : Chunk := { c with addr := out.heap.nextAddr } with hc'
    have hlink : ({ out.buf.link c' with datalen := n } : Buf) =
        { out.buf with
          chunks := out.buf.chunks ++ [c'], tail := some out.heap.nextAddr, datalen := n } := by
      rw [← Buf.link_withDatalen]
      exact h.link_eq c'
    have hchunks : (out.buf.link c').chunks = out.buf.chunks ++ [c'] :=
      (congrArg Buf.chunks hlink :)
    have hdefault : (out.buf.link c').defaultChunkSize = out.buf.defaultChunkSize :=
      (congrArg Buf.defaultChunkSize hlink :)
    obtain ⟨hkept, -⟩ := kept_link (c := c') h (hfits c mem_cons_self) rfl
    have hok := hkept.ok
    rw [Buf.link_withDatalen] at hok
    obtain ⟨hok', hshape', htotal', hnext', hdefault'⟩ :=
      @ih ⟨out.heap.alloc (L.allocSize c.memlen), out.buf.link c'⟩ (n + c.datalen)
        (fun b hb => hfits b (mem_cons_of_mem c hb)) hok
    rw [copyChunks]
    refine ⟨?_, ?_, ?_, (Nat.le_succ _).trans hnext', hdefault'.trans hdefault⟩
    · rw [flatMap_cons, length_append, ← add_assoc]
      exact hok'
    · rw [hshape', hchunks, map_append, append_assoc]
      rfl
    · rw [htotal', chunksAllocation_cons, ← add_assoc]
      rfl

/-- **A copy** has the same bytes, in chunks of the same sizes. -/
lemma bufCopy_ok {heap : ChunkHeap} (h : BufOk L ⟨heap, buf⟩) :
    BufOk L (bufCopy L heap buf) ∧ (bufCopy L heap buf).buf.content = buf.content ∧
      (bufCopy L heap buf).heap.totalBytes = heap.totalBytes + bufAllocation L buf ∧
      bufAllocation L (bufCopy L heap buf).buf = bufAllocation L buf ∧
      heap.nextAddr ≤ (bufCopy L heap buf).heap.nextAddr ∧
      (Strict buf → Strict (bufCopy L heap buf).buf) := by
  have hempty :
      BufOk L { (⟨heap, { bufNew with defaultChunkSize := buf.defaultChunkSize }⟩ : BufAt) with
      buf := { bufNew with defaultChunkSize := buf.defaultChunkSize, datalen := 0 } } :=
    ⟨nofun, rfl, nodup_nil, nofun, rfl, h.default, Nat.zero_le _⟩
  obtain ⟨hok, hshape, htotal, hnext, hdefault⟩ := kept_copyChunks h.fits hempty
  have hshape' : (bufCopy L heap buf).buf.chunks.map Chunk.shape = buf.chunks.map Chunk.shape :=
    hshape
  have hcontent : (bufCopy L heap buf).buf.content = buf.content := by
    have hdata := congrArg (flatMap fun x => x.2.2) hshape'
    rw [flatMap_map, flatMap_map] at hdata
    exact hdata
  have hlen : 0 + (buf.chunks.flatMap Chunk.data).length = buf.datalen := by
    rw [zero_add, h.datalen, Buf.content]
  simp only [hlen] at hok
  refine ⟨hok, hcontent, htotal, ?_, hnext, fun hst => hst.of_shape hshape'⟩
  have hsizes := congrArg (List.map fun x => L.allocSize x.1) hshape'
  rw [List.map_map, List.map_map] at hsizes
  exact congrArg List.sum hsizes

end Copies

end Astoria
