import Astoria.TorClient.BufferChunks

/-!
# Buffers as queues of bytes

Any number of buffers share the heap of the chunks.  An event is a call of a function of a buffer.
`buffers_refine_queues` says that the buffers are queues of bytes: every run of calls does to their
contents what `QueueStep` says, the lengths are right, no assertion fails, and the counter of the
heap is the size of all chunks.  This takes that no buffer gets `INT_MAX` bytes:
`not_buffers_refine_queues_intMax` is about a string that is too long.

`buffers_strict` is about the invariant that the source documents, with the assertions on a buffer.
It is kept by every run of calls that neither pull up bytes that end with a chunk nor add a chunk
behind an empty one; `not_buffers_strict_pullup` is a run that breaks it.
-/

namespace Astoria

open Option
open List hiding next

/-- The buffers.  One that has been freed leaves a gap. -/
structure BufState where
  heap : ChunkHeap
  bufs : List (Option Buf)
  deriving DecidableEq

namespace BufState

def init : BufState := ⟨⟨0, 0⟩, []⟩

def buf (s : BufState) (i : ℕ) : Option Buf := s.bufs[i]?.join

def setBuf (s : BufState) (i : ℕ) (st : BufAt) : BufState := ⟨st.heap, s.bufs.set i (some st.buf)⟩

def contents (s : BufState) : List (Option (List UInt8)) := s.bufs.map (Option.map Buf.content)

end BufState

/-- Up to 4096 bytes at a time are fetched from one buffer and written to another one. -/
def moveLoop (L : ChunkLayout) (s : BufState) (bufOut bufIn : ℕ) (len : ℕ) : Option BufState :=
  if _h : len = 0 then some s
  else do
    let n := if len > 4096 then 4096 else len
    let b ← s.buf bufIn
    let (st, bytes) ← fetchFromBuf L ⟨s.heap, b⟩ n
    let s := s.setBuf bufIn st
    let b ← s.buf bufOut
    let st ← writeToBuf L ⟨s.heap, b⟩ bytes
    moveLoop L (s.setBuf bufOut st) bufOut bufIn (len - n)
termination_by len
decreasing_by
  split <;> omega

/-- Up to `bufFlushlen` bytes are moved from one buffer to another one; how many are left to be
moved. -/
def moveBufToBuf (L : ChunkLayout) (s : BufState) (bufOut bufIn : ℕ) (bufFlushlen : ℕ) :
    Option (BufState × ℕ) := do
  let b ← s.buf bufIn
  let len := if bufFlushlen > b.datalen then b.datalen else bufFlushlen
  torAssert (len < intMax)
  let s ← moveLoop L s bufOut bufIn len
  some (s, bufFlushlen - len)

/-- A call of a function of a buffer. -/
inductive BufEvent
  /-- `buf_new`, or `buf_new_with_capacity`. -/
  | new (capacity : Option ℕ)
  | write (i : ℕ) (string : List UInt8)
  | fetch (i n : ℕ)
  /-- `buf_remove_from_front`, by one of the functions that take something from a buffer. -/
  | remove (i n : ℕ)
  | pullup (i bytes : ℕ)
  | move (bufOut bufIn bufFlushlen : ℕ)
  | copy (i : ℕ)
  | clear (i : ℕ)
  | free (i : ℕ)
  | read (i atMost : ℕ) (results : List RecvResult)
  | flush (i sz bufFlushlen : ℕ) (results : List SendResult)
  /-- A round of `write_to_buf_zlib`. -/
  | zlib (i dataLen : ℕ) (yield : List UInt8) (result : ZlibResult)

/-- What a function does to one of the buffers. -/
def BufState.on (s : BufState) (i : ℕ) (f : BufAt → Option (BufAt × List UInt8)) :
    Option (BufState × List UInt8) := do
  let b ← s.buf i
  let (st, bytes) ← f ⟨s.heap, b⟩
  some (s.setBuf i st, bytes)

/-- What a call does, with the bytes that are fetched, received or sent. -/
def BufState.step (L : ChunkLayout) (s : BufState) : BufEvent → Option (BufState × List UInt8)
  | .new none => some (⟨s.heap, s.bufs ++ [some bufNew]⟩, [])
  | .new (some capacity) => some (⟨s.heap, s.bufs ++ [some (bufNewWithCapacity L capacity)]⟩, [])
  | .write i string => s.on i fun st => (writeToBuf L st string).map (·, [])
  | .fetch i n => s.on i fun st => fetchFromBuf L st n
  | .remove i n => s.on i fun st => (bufRemoveFromFront L st n).map (·, [])
  | .pullup i bytes => s.on i fun st => (bufPullup L st bytes).map (·, [])
  | .move bufOut bufIn bufFlushlen => do
    let _ ← s.buf bufOut
    let (s, _) ← moveBufToBuf L s bufOut bufIn bufFlushlen
    some (s, [])
  | .copy i => do
    let b ← s.buf i
    let st := bufCopy L s.heap b
    some (⟨st.heap, s.bufs ++ [some st.buf]⟩, [])
  | .clear i => s.on i fun st => (bufClear L st).map (·, [])
  | .free i => do
    let b ← s.buf i
    let st ← bufClear L ⟨s.heap, b⟩
    some (⟨st.heap, s.bufs.set i none⟩, [])
  | .read i atMost results =>
    s.on i fun st => (readToBuf L st atMost results).map fun r => (r.1, r.2.received)
  | .flush i sz bufFlushlen results =>
    s.on i fun st => (flushBuf L st sz bufFlushlen results).map fun r => (r.1, r.2.sent)
  | .zlib i dataLen yield result => s.on i fun st =>
    (writeZlibRound L st dataLen yield result).map (·, [])

/-- The length of a buffer, or 0. -/
def BufState.len (s : BufState) (i : ℕ) : ℕ := ((s.buf i).map fun b => b.content.length).getD 0

/-- The functions are called for buffers that have not been freed.  No more is fetched or flushed
than there is, and no buffer gets `INT_MAX` bytes. -/
def BufEvent.Ok (s : BufState) : BufEvent → Prop
  | .new _ => True
  | .write i string => (s.buf i).isSome ∧ s.len i + string.length < intMax
  | .fetch i n => (s.buf i).isSome ∧ n ≤ s.len i
  | .remove i n => (s.buf i).isSome ∧ n ≤ s.len i
  | .pullup i _ => (s.buf i).isSome
  | .move bufOut bufIn bufFlushlen => (s.buf bufOut).isSome ∧ (s.buf bufIn).isSome ∧
      (bufOut ≠ bufIn → s.len bufOut + min bufFlushlen (s.len bufIn) < intMax)
  | .copy i => (s.buf i).isSome
  | .clear i => (s.buf i).isSome
  | .free i => (s.buf i).isSome
  | .read i atMost results =>
      (s.buf i).isSome ∧ s.len i + min atMost (results.map RecvResult.length).sum < intMax
  | .flush i sz bufFlushlen _ => (s.buf i).isSome ∧ bufFlushlen ≤ s.len i ∧ sz ≤ bufFlushlen
  | .zlib i _ yield _ => (s.buf i).isSome ∧ s.len i + yield.length < intMax

/-- The first `n` bytes of a queue are put behind those of another one, or behind the rest of its
own. -/
def QueueMove (q : List (Option (List UInt8))) (queueOut queueIn n : ℕ)
    (q' : List (Option (List UInt8))) : Prop :=
  ∃ x y, q[queueIn]?.join = some x ∧ (q.set queueIn (some (x.drop n)))[queueOut]?.join = some y ∧
    q' = (q.set queueIn (some (x.drop n))).set queueOut (some (y ++ x.take n))

/-- What a call does to queues of bytes, with the bytes that are fetched, received or sent.  A
socket gives the bytes that are received, and says how many of those that are sent it takes. -/
def QueueStep (q : List (Option (List UInt8))) (e : BufEvent) (bytes : List UInt8)
    (q' : List (Option (List UInt8))) : Prop :=
  match e with
  | .new _ => bytes = [] ∧ q' = q ++ [some []]
  | .write i string => ∃ x, q[i]?.join = some x ∧ bytes = [] ∧ q' = q.set i (some (x ++ string))
  | .fetch i n => ∃ x, q[i]?.join = some x ∧ bytes = x.take n ∧ q' = q.set i (some (x.drop n))
  | .remove i n => ∃ x, q[i]?.join = some x ∧ bytes = [] ∧ q' = q.set i (some (x.drop n))
  | .pullup _ _ => bytes = [] ∧ q' = q
  | .move bufOut bufIn bufFlushlen => bytes = [] ∧ QueueMove q bufOut bufIn bufFlushlen q'
  | .copy i => ∃ x, q[i]?.join = some x ∧ bytes = [] ∧ q' = q ++ [some x]
  | .clear i => bytes = [] ∧ q' = q.set i (some [])
  | .free i => bytes = [] ∧ q' = q.set i none
  | .read i atMost results => ∃ x, q[i]?.join = some x ∧ Received atMost results bytes ∧
      q' = q.set i (some (x ++ bytes))
  | .flush i sz _ results => ∃ x taken, q[i]?.join = some x ∧ Sent sz results taken ∧
      taken ≤ x.length ∧ bytes = x.take taken ∧ q' = q.set i (some (x.drop taken))
  | .zlib i _ yield _ => ∃ x new, q[i]?.join = some x ∧ bytes = [] ∧ new.IsPrefix yield ∧
      q' = q.set i (some (x ++ new))

/-- Calls one after another, with what they yield. -/
def BufState.run (L : ChunkLayout) :
    BufState → List BufEvent → Option (BufState × List (List UInt8))
  | s, [] => some (s, [])
  | s, e :: events => do
    let (s, bytes) ← s.step L e
    let (s, out) ← s.run L events
    some (s, bytes :: out)

/-- What calls one after another do to queues of bytes. -/
inductive QueueRun : List (Option (List UInt8)) → List BufEvent → List (List UInt8) →
    List (Option (List UInt8)) → Prop
  | nil (q : List (Option (List UInt8))) : QueueRun q [] [] q
  | cons {q q₁ q' : List (Option (List UInt8))} {e : BufEvent} {events : List BufEvent}
      {bytes : List UInt8} {out : List (List UInt8)} (hstep : QueueStep q e bytes q₁)
      (hrun : QueueRun q₁ events out q') : QueueRun q (e :: events) (bytes :: out) q'

def BufState.next (L : ChunkLayout) (s : BufState) (e : BufEvent) : Option BufState :=
  (s.step L e).map Prod.fst

/-- The size of all chunks of all buffers. -/
def BufState.allocation (L : ChunkLayout) (s : BufState) : ℕ :=
  (s.bufs.map fun b => (b.map (bufAllocation L)).getD 0).sum

/-- All buffers are all right, and the counter of the heap is the size of all their chunks. -/
structure BufsOk (L : ChunkLayout) (s : BufState) : Prop where
  ok : ∀ i b, s.buf i = some b → BufOk L ⟨s.heap, b⟩
  total : s.heap.totalBytes = s.allocation L

/-- No buffer has `INT_MAX` bytes. -/
def BufState.Short (s : BufState) : Prop := ∀ i b, s.buf i = some b → b.content.length < intMax

/-- The documented invariant of all buffers. -/
def BufState.AllStrict (s : BufState) : Prop := ∀ i b, s.buf i = some b → Strict b

/-- A call that keeps the documented invariant: no bytes are pulled up that end with a chunk, and no
chunk is added behind an empty one. -/
def BufEvent.StrictOk (s : BufState) : BufEvent → Prop
  | .pullup i bytes => ∀ b, s.buf i = some b → b.PullupOk bytes
  | .read i atMost _ => ∀ b, s.buf i = some b → ¬b.TailBlocked minReadLen ∨ atMost = 0
  | .zlib i _ yield result => ∀ b, s.buf i = some b → ¬b.ZlibBlocked yield result
  | _ => True

section State

variable {L : ChunkLayout} {s : BufState} {i : ℕ} {b : Buf} {st : BufAt}

lemma BufState.setBuf_buf (hi : s.buf i = some b) (st : BufAt) (j : ℕ) :
    (s.setBuf i st).buf j = if j = i then some st.buf else s.buf j := by
  have hlt : i < s.bufs.length := by
    by_contra hge
    unfold BufState.buf at hi
    rw [getElem?_eq_none (not_lt.mp hge)] at hi
    cases hi
  unfold BufState.setBuf BufState.buf
  split_ifs with hij
  · subst hij
    rw [getElem?_set_self hlt]
    rfl
  · rw [getElem?_set_ne (Ne.symm hij)]

lemma BufState.contents_setBuf (s : BufState) (i : ℕ) (st : BufAt) :
    (s.setBuf i st).contents = s.contents.set i (some st.buf.content) := by
  unfold BufState.setBuf BufState.contents
  exact map_set

lemma BufState.contents_join (s : BufState) (i : ℕ) :
    s.contents[i]?.join = (s.buf i).map Buf.content := by
  unfold BufState.contents BufState.buf
  rw [getElem?_map]
  rcases s.bufs[i]? with _ | b
  · rfl
  · rfl

lemma BufState.len_eq (hi : s.buf i = some b) : s.len i = b.content.length := by
  unfold BufState.len
  rw [hi]
  rfl

/-- A sum when an element of a list is replaced. -/
lemma sum_map_set {α : Type} {l : List α} {old : α} (f : α → ℕ) (new : α)
    (hi : l[i]? = some old) : ((l.set i new).map f).sum + f old = (l.map f).sum + f new := by
  induction l generalizing i with
  | nil => cases hi
  | cons a l ih =>
    cases i with
    | zero =>
      obtain rfl := some.inj hi
      rw [set_cons_zero, map_cons, map_cons, sum_cons, sum_cons]
      omega
    | succ i =>
      have htail := ih hi
      rw [set_cons_succ, map_cons, map_cons, sum_cons, sum_cons]
      omega

lemma BufState.allocation_set (hi : s.buf i = some b) (heap : ChunkHeap) (new : Option Buf) :
    BufState.allocation L ⟨heap, s.bufs.set i new⟩ + bufAllocation L b =
      s.allocation L + (new.map (bufAllocation L)).getD 0 := by
  have hcell : s.bufs[i]? = some (some b) := join_eq_some_iff.mp hi
  exact sum_map_set (fun b : Option Buf => (b.map (bufAllocation L)).getD 0) new hcell

lemma BufState.bufAllocation_le (hi : s.buf i = some b) : bufAllocation L b ≤ s.allocation L := by
  have hset := BufState.allocation_set (L := L) hi s.heap none
  have hzero : ((none : Option Buf).map (bufAllocation L)).getD 0 = 0 := rfl
  omega

lemma BufOk.of_heap {heap heap' : ChunkHeap} (h : BufOk L ⟨heap, b⟩)
    (hnext : heap.nextAddr ≤ heap'.nextAddr) (hcounted : bufAllocation L b ≤ heap'.totalBytes) :
    BufOk L ⟨heap', b⟩ :=
  ⟨h.fits, h.tail, h.nodup, fun c hc => lt_of_lt_of_le (h.fresh c hc) hnext, h.datalen, h.default,
    hcounted⟩

/-- **A buffer is set after an operation on it**, and all buffers are all right. -/
lemma BufsOk.setBuf (h : BufsOk L s) (hi : s.buf i = some b) (hkept : Kept L ⟨s.heap, b⟩ st) :
    BufsOk L (s.setBuf i st) := by
  have htotal : (s.setBuf i st).heap.totalBytes = (s.setBuf i st).allocation L := by
    have hset := BufState.allocation_set (L := L) hi st.heap (some st.buf)
    have hacc := hkept.accounted
    have hold := h.total
    simp only [map_some, getD_some] at hset hacc
    unfold BufState.setBuf
    simp only
    omega
  refine ⟨fun j b' hj => ?_, htotal⟩
  have hle := BufState.bufAllocation_le (L := L) hj
  rw [← htotal] at hle
  rw [BufState.setBuf_buf hi] at hj
  split_ifs at hj
  · obtain rfl := some.inj hj
    exact hkept.ok
  · exact (h.ok j b' hj).of_heap hkept.nextAddr hle

lemma BufState.AllStrict.setBuf (h : s.AllStrict) (hi : s.buf i = some b)
    (hst : Strict b → Strict st.buf) : (s.setBuf i st).AllStrict := by
  intro j b' hj
  rw [BufState.setBuf_buf hi] at hj
  split_ifs at hj
  · obtain rfl := some.inj hj
    exact hst (h i b hi)
  · exact h j b' hj

lemma BufState.Short.setBuf (h : s.Short) (hi : s.buf i = some b)
    (hst : st.buf.content.length < intMax) : (s.setBuf i st).Short := by
  intro j b' hj
  rw [BufState.setBuf_buf hi] at hj
  split_ifs at hj
  · obtain rfl := some.inj hj
    exact hst
  · exact h j b' hj

lemma BufState.on_eq (hi : s.buf i = some b) {f : BufAt → Option (BufAt × List UInt8)}
    {bytes : List UInt8} (hf : f ⟨s.heap, b⟩ = some (st, bytes)) :
    s.on i f = some (s.setBuf i st, bytes) := by
  rw [BufState.on, some_bind hi, hf]
  rfl

/-- The buffer is there, and its function is called properly, or succeeds anyway. -/
lemma exists_live {f : BufAt → Option (BufAt × List UInt8)} {p : Prop}
    (hor : s.Short ∧ (s.buf i).isSome ∧ p ∨ (s.on i f).isSome) :
    ∃ b, s.buf i = some b ∧ (b.content.length < intMax ∧ p ∨ (f ⟨s.heap, b⟩).isSome) := by
  rcases hor with ⟨hshort, hlive, hp⟩ | hsome
  · obtain ⟨b, hb⟩ := isSome_iff_exists.mp hlive
    exact ⟨b, hb, .inl ⟨hshort i b hb, hp⟩⟩
  · unfold BufState.on at hsome
    obtain ⟨b, hb⟩ := isSome_iff_exists.mp (isSome_of_isSome_bind hsome)
    refine ⟨b, hb, .inr ?_⟩
    rw [some_bind hb] at hsome
    exact isSome_of_isSome_bind hsome

end State

open BufState (allocation buf contents contents_join contents_setBuf init len_eq next on_eq
  setBuf_buf step)

/-! ### Moving bytes between buffers -/

section Moving

variable {L : ChunkLayout} {s : BufState} {bufOut bufIn : ℕ}

/-- The first bytes are moved in two parts. -/
lemma QueueMove.trans {q q₁ q₂ : List (Option (List UInt8))} {n m : ℕ}
    (h : QueueMove q bufOut bufIn n q₁) (h' : QueueMove q₁ bufOut bufIn m q₂)
    (hlen : ∀ x, q[bufIn]?.join = some x → n + m ≤ x.length) :
    QueueMove q bufOut bufIn (n + m) q₂ := by
  obtain ⟨x, y, hx, hy, rfl⟩ := h
  obtain ⟨x₁, y₁, hx₁, hy₁, rfl⟩ := h'
  have hle := hlen x hx
  have hin : bufIn < q.length := by
    by_contra hge
    rw [getElem?_eq_none (not_lt.mp hge)] at hx
    cases hx
  by_cases hsame : bufOut = bufIn
  · subst hsame
    rw [getElem?_set_self hin] at hy
    obtain rfl := some.inj hy
    rw [set_set, getElem?_set_self hin] at hx₁
    obtain rfl := some.inj hx₁
    rw [set_set, set_set, getElem?_set_self hin] at hy₁
    obtain rfl := some.inj hy₁
    refine ⟨x, x.drop (n + m), hx, by rw [getElem?_set_self hin]; rfl, ?_⟩
    have hm : m ≤ (x.drop n).length := by
      rw [length_drop]
      omega
    rw [set_set, set_set, set_set, set_set, drop_append_of_le_length hm,
      take_append_of_le_length hm, drop_drop, append_assoc, ← take_add]
  · have hne : bufIn ≠ bufOut := Ne.symm hsame
    rw [getElem?_set_ne hne] at hy
    rw [getElem?_set_ne hsame, getElem?_set_self hin] at hx₁
    obtain rfl := some.inj hx₁
    have hout : bufOut < q.length := by
      by_contra hge
      rw [getElem?_eq_none (not_lt.mp hge)] at hy
      cases hy
    rw [getElem?_set_ne hne, getElem?_set_self (by rw [length_set]; exact hout)] at hy₁
    obtain rfl := some.inj hy₁
    refine ⟨x, y, hx, by rw [getElem?_set_ne hne]; exact hy, ?_⟩
    rw [set_comm _ _ hsame, set_set, set_set, drop_drop, append_assoc,
      ← take_add]

lemma QueueMove.zero {q : List (Option (List UInt8))} {x y : List UInt8}
    (hx : q[bufIn]?.join = some x) (hy : q[bufOut]?.join = some y) :
    QueueMove q bufOut bufIn 0 q := by
  have hself : ∀ {j : ℕ} {z : List UInt8}, q[j]?.join = some z → q.set j (some z) = q := by
    intro j z hz
    have hcell : q[j]? = some (some z) := join_eq_some_iff.mp hz
    obtain ⟨hlt, heq⟩ := List.getElem?_eq_some_iff.mp hcell
    rw [← heq]
    exact set_getElem_self hlt
  refine ⟨x, y, hx, ?_, ?_⟩
  · rw [drop_zero, hself hx]
    exact hy
  · rw [drop_zero, hself hx, take_zero, append_nil, hself hy]

/-- What is known after bytes have been moved. -/
structure Moved (L : ChunkLayout) (s s' : BufState) (bufOut bufIn n : ℕ) : Prop where
  ok : BufsOk L s'
  queues : QueueMove s.contents bufOut bufIn n s'.contents
  short : s.Short → (bufOut ≠ bufIn → s.len bufOut + n < intMax) → s'.Short
  strict : s.AllStrict → s'.AllStrict

/-- **Bytes are fetched from a buffer and written to another one.** -/
lemma exists_moveRound (h : BufsOk L s) {x y : Buf} (hx : s.buf bufIn = some x)
    (hy : s.buf bufOut = some y) {n : ℕ} (hn : n ≤ x.content.length)
    (hor : s.Short ∧ (bufOut ≠ bufIn → s.len bufOut + n < intMax) ∨
      (fetchFromBuf L ⟨s.heap, x⟩ n).isSome ∧ ∀ st bytes y', fetchFromBuf L ⟨s.heap, x⟩ n = some
        (st, bytes) → (s.setBuf bufIn st).buf bufOut = some y' →
        (writeToBuf L ⟨st.heap, y'⟩ bytes).isSome) :
    ∃ st st' y', fetchFromBuf L ⟨s.heap, x⟩ n = some (st, x.content.take n) ∧
      (s.setBuf bufIn st).buf bufOut = some y' ∧
      writeToBuf L ⟨st.heap, y'⟩ (x.content.take n) = some st' ∧
      Moved L s ((s.setBuf bufIn st).setBuf bufOut st') bufOut bufIn n ∧
      (bufOut ≠ bufIn → ((s.setBuf bufIn st).setBuf bufOut st').len bufOut = s.len bufOut + n) ∧
      ∃ x', ((s.setBuf bufIn st).setBuf bufOut st').buf bufIn = some x' ∧
        x.content.length ≤ x'.content.length + n := by
  have hfetch : n ≤ x.content.length ∧ x.content.length < intMax ∨
      (fetchFromBuf L ⟨s.heap, x⟩ n).isSome :=
    hor.imp (fun hok => ⟨hn, hok.1 _ _ hx⟩) And.left
  obtain ⟨st, hst, hkept, hcontent, -, hstrict⟩ := exists_fetchFromBuf (h.ok _ _ hx) hfetch
  simp only at hst hcontent hstrict
  have hok₁ := h.setBuf hx hkept
  obtain ⟨y', hy', hlen⟩ : ∃ y', (s.setBuf bufIn st).buf bufOut = some y' ∧
      y'.content.length + n = if bufOut = bufIn then x.content.length
        else y.content.length + n := by
    rw [setBuf_buf hx]
    split_ifs with hsame
    · refine ⟨_, rfl, ?_⟩
      rw [hcontent, length_drop]
      omega
    · exact ⟨y, hy, rfl⟩
  have htake : (x.content.take n).length = n := length_take_of_le hn
  have hmax : s.Short → (bufOut ≠ bufIn → s.len bufOut + n < intMax) →
      y'.content.length + n < intMax := by
    intro hshort hbound
    rw [hlen]
    split_ifs with hsame
    · exact hshort _ _ hx
    · rw [← len_eq hy]
      exact hbound hsame
  have hwrite : y'.content.length + (x.content.take n).length < intMax ∨
      (writeToBuf L ⟨st.heap, y'⟩ (x.content.take n)).isSome := by
    rcases hor with hok | hsome
    · rw [htake]
      exact .inl (hmax hok.1 hok.2)
    · exact .inr (hsome.2 _ _ _ hst hy')
  obtain ⟨st', hst', hkept', hcontent', hstrict'⟩ := exists_writeToBuf (hok₁.ok _ _ hy') hwrite
  simp only at hcontent' hstrict'
  have hout : ((s.setBuf bufIn st).setBuf bufOut st').buf bufOut = some st'.buf := by
    rw [setBuf_buf hy', if_pos rfl]
  refine ⟨st, st', y', hst, hy', hst',
    ⟨hok₁.setBuf hy' hkept', ?_, fun hshort hbound => ?_, fun hall => ?_⟩,
    fun hne => ?_, ?_⟩
  · refine ⟨x.content, y'.content, ?_, ?_, ?_⟩
    · rw [contents_join, hx]
      rfl
    · rw [← hcontent, ← contents_setBuf, contents_join, hy']
      rfl
    · rw [contents_setBuf, contents_setBuf, hcontent, hcontent']
  · refine (hshort.setBuf hx ?_).setBuf hy' ?_
    · have hxmax := hshort _ _ hx
      rw [hcontent, length_drop]
      omega
    · rw [hcontent', length_append, htake]
      exact hmax hshort hbound
  · exact (hall.setBuf hx hstrict).setBuf hy' hstrict'
  · rw [len_eq hout, len_eq hy, hcontent', length_append, htake, hlen, if_neg hne]
  · rw [setBuf_buf hy', setBuf_buf hx]
    split_ifs with hsame hself
    · refine ⟨_, rfl, ?_⟩
      rw [hcontent', length_append, htake, hlen, if_pos hsame.symm]
      omega
    · refine ⟨_, rfl, ?_⟩
      rw [hcontent, length_drop]
      omega
    · exact absurd rfl hself

lemma exists_moveLoop {len : ℕ} (h : BufsOk L s) {x y : Buf} (hx : s.buf bufIn = some x)
    (hy : s.buf bufOut = some y) (hlen : len ≤ x.content.length)
    (hor : s.Short ∧ (bufOut ≠ bufIn → s.len bufOut + len < intMax) ∨
      (moveLoop L s bufOut bufIn len).isSome) :
    ∃ s', moveLoop L s bufOut bufIn len = some s' ∧ Moved L s s' bufOut bufIn len := by
  induction len using Nat.strong_induction_on generalizing s x y with
  | _ len ih =>
    by_cases hzero : len = 0
    · subst hzero
      refine ⟨s, by rw [moveLoop, dif_pos rfl], h, ?_, fun hshort _ => hshort, id⟩
      refine QueueMove.zero (x := x.content) (y := y.content) ?_ ?_
      · rw [contents_join, hx]
        rfl
      · rw [contents_join, hy]
        rfl
    · rw [moveLoop, dif_neg hzero] at hor ⊢
      set n := if len > 4096 then 4096 else len with hn
      have hle : n ≤ len := by
        split_ifs at hn <;> omega
      have hpos : 0 < n := by
        split_ifs at hn <;> omega
      simp only [hx, bind_eq_bind, bind_some] at hor ⊢
      have hround : s.Short ∧ (bufOut ≠ bufIn → s.len bufOut + n < intMax) ∨
          (fetchFromBuf L ⟨s.heap, x⟩ n).isSome ∧ ∀ st bytes y',
            fetchFromBuf L ⟨s.heap, x⟩ n = some (st, bytes) →
            (s.setBuf bufIn st).buf bufOut = some y' →
              (writeToBuf L ⟨st.heap, y'⟩ bytes).isSome := by
        refine hor.imp (fun hok => ⟨hok.1, fun hne => ?_⟩) fun hsome =>
          ⟨isSome_of_isSome_bind hsome, fun st bytes y' hst hy' => ?_⟩
        · have hbound := hok.2 hne
          omega
        · rw [hst, bind_some] at hsome
          simp only [hy', bind_some] at hsome
          exact isSome_of_isSome_bind hsome
      obtain ⟨st, st', y', hst, hy', hst', hmoved, hout, x', hx', hlen'⟩ :=
        exists_moveRound h hx hy (hle.trans hlen) hround
      have hbound : (bufOut ≠ bufIn → s.len bufOut + len < intMax) → bufOut ≠ bufIn →
          ((s.setBuf bufIn st).setBuf bufOut st').len bufOut + (len - n) < intMax := by
        intro hbound hne
        have hmax := hbound hne
        rw [hout hne]
        omega
      simp only [hst, bind_some, hy'] at hor ⊢
      have hor' : ((s.setBuf bufIn st).setBuf bufOut st').Short ∧ (bufOut ≠ bufIn →
          ((s.setBuf bufIn st).setBuf bufOut st').len bufOut + (len - n) < intMax) ∨
          (moveLoop L ((s.setBuf bufIn st).setBuf bufOut st') bufOut bufIn (len - n)).isSome := by
        refine hor.imp (fun hok => ⟨hmoved.short hok.1 fun hne => ?_, hbound hok.2⟩) fun hsome => ?_
        · have hmax := hok.2 hne
          omega
        · rw [show (s.setBuf bufIn st).heap = st.heap from rfl, hst', bind_some] at hsome
          exact hsome
      have hnext : ((s.setBuf bufIn st).setBuf bufOut st').buf bufOut = some st'.buf := by
        rw [setBuf_buf hy', if_pos rfl]
      obtain ⟨s', hs', hmoved'⟩ := ih (len - n) (by omega) hmoved.ok hx' hnext (by omega) hor'
      refine ⟨s', ?_, hmoved'.ok, ?_, fun hshort hmax => ?_, fun hall =>
        hmoved'.strict (hmoved.strict hall)⟩
      · rw [show (s.setBuf bufIn st).heap = st.heap from rfl, hst', bind_some]
        exact hs'
      · have htrans := hmoved.queues.trans hmoved'.queues fun z hz => by
          rw [contents_join, hx] at hz
          obtain rfl := some.inj hz
          omega
        rw [show n + (len - n) = len by omega] at htrans
        exact htrans
      · refine hmoved'.short (hmoved.short hshort fun hne => ?_) (hbound hmax)
        have hlt := hmax hne
        omega

/-- **Bytes are moved from a buffer to another one**, or behind the others of the same. -/
lemma exists_moveBufToBuf (h : BufsOk L s) {y : Buf} (hy : s.buf bufOut = some y) {bufFlushlen : ℕ}
    (hor : s.Short ∧ (s.buf bufIn).isSome ∧
        (bufOut ≠ bufIn → s.len bufOut + min bufFlushlen (s.len bufIn) < intMax) ∨
      (moveBufToBuf L s bufOut bufIn bufFlushlen).isSome) :
    ∃ s' left, moveBufToBuf L s bufOut bufIn bufFlushlen = some (s', left) ∧ BufsOk L s' ∧
      QueueMove s.contents bufOut bufIn bufFlushlen s'.contents ∧
      (s.Short → (bufOut ≠ bufIn → s.len bufOut + min bufFlushlen (s.len bufIn) < intMax) →
        s'.Short) ∧
      (s.AllStrict → s'.AllStrict) := by
  obtain ⟨x, hx⟩ : ∃ x, s.buf bufIn = some x := by
    rcases hor with hok | hsome
    · exact isSome_iff_exists.mp hok.2.1
    · exact isSome_iff_exists.mp (isSome_of_isSome_bind hsome)
  have hxlen : x.datalen = x.content.length := (h.ok _ _ hx).datalen
  have hmin : (if bufFlushlen > x.datalen then x.datalen else bufFlushlen) =
      min bufFlushlen x.content.length := by
    rw [hxlen]
    split_ifs <;> omega
  rw [moveBufToBuf, some_bind hx] at hor ⊢
  simp only [hmin] at hor ⊢
  rw [len_eq hx] at hor ⊢
  have hmax : min bufFlushlen x.content.length < intMax := by
    rcases hor with hok | hsome
    · have hshort := hok.1 _ _ hx
      omega
    · exact (torAssert_of_isSome hsome).1
  rw [torAssert_bind hmax] at hor ⊢
  obtain ⟨s', hs', hmoved⟩ := exists_moveLoop h hx hy (Nat.min_le_right _ _)
    (hor.imp (fun hok => ⟨hok.1, hok.2.2⟩) isSome_of_isSome_bind)
  refine ⟨s', _, by rw [some_bind hs'], hmoved.ok, ?_, hmoved.short,
    hmoved.strict⟩
  obtain ⟨x', y', hx', hy', hq⟩ := hmoved.queues
  rw [contents_join, hx] at hx'
  obtain rfl := some.inj hx'
  have hdrop : x.content.drop (min bufFlushlen x.content.length) = x.content.drop bufFlushlen := by
    rcases le_total bufFlushlen x.content.length with hle | hle
    · rw [Nat.min_eq_left hle]
    · rw [Nat.min_eq_right hle, drop_length, drop_of_length_le hle]
  rw [hdrop] at hy' hq
  rw [← take_eq_take_min] at hq
  refine ⟨x.content, y', ?_, hy', hq⟩
  rw [contents_join, hx]
  rfl

end Moving

/-! ### Calls one by one -/

section Calls

variable {L : ChunkLayout} {s : BufState} {i : ℕ} {st : BufAt}

structure Called (L : ChunkLayout) (s : BufState) (e : BufEvent) (s' : BufState)
    (bytes : List UInt8) : Prop where
  ok : BufsOk L s'
  queues : QueueStep s.contents e bytes s'.contents
  short : s.Short → e.Ok s → s'.Short
  strict : e.StrictOk s → s.AllStrict → s'.AllStrict

lemma Called.of_kept {b : Buf} {e : BufEvent} {bytes : List UInt8} (h : BufsOk L s)
    (hi : s.buf i = some b) (hkept : Kept L ⟨s.heap, b⟩ st)
    (hqueue : s.contents[i]?.join = some b.content →
      QueueStep s.contents e bytes (s.contents.set i (some st.buf.content)))
    (hshort : b.content.length < intMax → e.Ok s → st.buf.content.length < intMax)
    (hstrict : e.StrictOk s → Strict b → Strict st.buf) : Called L s e (s.setBuf i st) bytes := by
  refine ⟨h.setBuf hi hkept, ?_, fun hs hok => hs.setBuf hi (hshort (hs i b hi) hok),
    fun hok hall => hall.setBuf hi (hstrict hok)⟩
  rw [contents_setBuf]
  apply hqueue
  rw [contents_join, hi]
  rfl

lemma set_join_self {α : Type} {q : List (Option α)} {x : α} (hx : q[i]?.join = some x) :
    q.set i (some x) = q := by
  have hcell : q[i]? = some (some x) := join_eq_some_iff.mp hx
  obtain ⟨hlt, heq⟩ := List.getElem?_eq_some_iff.mp hcell
  rw [← heq]
  exact set_getElem_self hlt

lemma BufState.buf_append {heap : ChunkHeap} {b b' : Buf}
    (hi : buf ⟨heap, s.bufs ++ [some b]⟩ i = some b') : s.buf i = some b' ∨ b' = b := by
  have hcell : (s.bufs ++ [some b])[i]? = some (some b') := join_eq_some_iff.mp hi
  rcases lt_or_ge i s.bufs.length with hlt | hge
  · rw [getElem?_append_left hlt] at hcell
    left
    exact join_eq_some_iff.mpr hcell
  · rw [getElem?_append_right hge] at hcell
    right
    have hmem := mem_of_getElem? hcell
    exact some.inj (mem_singleton.mp hmem)

/-- **A buffer is made**, with chunks of its own. -/
lemma Called.of_append {e : BufEvent} (h : BufsOk L s) (hok : BufOk L st)
    (htotal : st.heap.totalBytes = s.heap.totalBytes + bufAllocation L st.buf)
    (hnext : s.heap.nextAddr ≤ st.heap.nextAddr)
    (hqueue : QueueStep s.contents e [] (s.contents ++ [some st.buf.content]))
    (hshort : s.Short → st.buf.content.length < intMax)
    (hstrict : s.AllStrict → Strict st.buf) :
    Called L s e ⟨st.heap, s.bufs ++ [some st.buf]⟩ [] := by
  have hsum : st.heap.totalBytes = allocation L ⟨st.heap, s.bufs ++ [some st.buf]⟩ := by
    have hold := h.total
    unfold allocation at hold ⊢
    rw [map_append, sum_append, map_singleton, sum_singleton, map_some,
      getD_some, htotal, hold]
  refine ⟨⟨fun i b hi => ?_, hsum⟩, ?_, fun hs _ i b hi => ?_, fun _ hall i b hi => ?_⟩
  · rcases BufState.buf_append hi with hold | rfl
    · apply (h.ok i b hold).of_heap hnext
      have hle := BufState.bufAllocation_le (L := L) hold
      have hold' := h.total
      omega
    · exact hok
  · unfold contents
    rw [map_append]
    exact hqueue
  · rcases BufState.buf_append hi with hold | rfl
    · exact hs i b hold
    · exact hshort hs
  · rcases BufState.buf_append hi with hold | rfl
    · exact hall i b hold
    · exact hstrict hall

/-- **A new buffer.** -/
lemma called_new (h : BufsOk L s) (capacity : Option ℕ) {size : ℕ} (hsize : minChunkAlloc ≤ size) :
    Called L s (.new capacity)
      ⟨s.heap, s.bufs ++ [some { bufNew with defaultChunkSize := size }]⟩ [] := by
  have hok : BufOk L ⟨s.heap, { bufNew with defaultChunkSize := size }⟩ :=
    ⟨nofun, rfl, nodup_nil, nofun, rfl, hsize, Nat.zero_le _⟩
  exact Called.of_append h hok rfl (le_refl _) ⟨rfl, rfl⟩ (fun _ => Nat.zero_lt_succ _)
    fun _ => strict_of_nil rfl

/-- **A buffer is freed.** -/
lemma called_free (h : BufsOk L s) {b : Buf} (hi : s.buf i = some b)
    (hkept : Kept L ⟨s.heap, b⟩ st) (hchunks : st.buf.chunks = []) :
    Called L s (.free i) ⟨st.heap, s.bufs.set i none⟩ [] := by
  have hzero : bufAllocation L st.buf = 0 := by
    rw [bufAllocation_eq, hchunks, chunksAllocation_nil]
  have htotal : st.heap.totalBytes = allocation L ⟨st.heap, s.bufs.set i none⟩ := by
    have hset := BufState.allocation_set (L := L) hi st.heap none
    have hacc := hkept.accounted
    have hold := h.total
    simp only [map_none, getD_none, hzero] at hset hacc
    omega
  have hbuf : ∀ {j b'}, buf ⟨st.heap, s.bufs.set i none⟩ j = some b' → s.buf j = some b' := by
    intro j b' hj
    have hcell : (s.bufs.set i none)[j]? = some (some b') := join_eq_some_iff.mp hj
    by_cases hij : i = j
    · subst hij
      rw [getElem?_set_self'] at hcell
      rcases hold : s.bufs[i]? with _ | old
      · rw [hold] at hcell
        cases hcell
      · rw [hold] at hcell
        cases hcell
    · rw [getElem?_set_ne hij] at hcell
      exact join_eq_some_iff.mpr hcell
  refine ⟨⟨fun j b' hj => ?_, htotal⟩, ⟨rfl, ?_⟩, fun hs _ j b' hj => hs j b' (hbuf hj),
    fun _ hall j b' hj => hall j b' (hbuf hj)⟩
  · apply (h.ok j b' (hbuf hj)).of_heap hkept.nextAddr
    have hle := BufState.bufAllocation_le (L := L) hj
    rw [← htotal] at hle
    exact hle
  · unfold contents
    exact map_set

/-- **A call succeeds**, if it is a proper one, and does to the queues what it should. -/
lemma exists_step (h : BufsOk L s) (e : BufEvent) (hor : s.Short ∧ e.Ok s ∨ (s.step L e).isSome) :
    ∃ s' bytes, s.step L e = some (s', bytes) ∧ Called L s e s' bytes := by
  cases e with
  | new capacity =>
    cases capacity with
    | none => exact ⟨_, _, rfl, called_new h none (by decide)⟩
    | some capacity =>
      exact ⟨_, _, rfl, called_new h (some capacity) (preferredChunkSize_spec L capacity).1⟩
  | write i string =>
    rw [BufEvent.Ok] at hor
    rw [step] at hor ⊢
    obtain ⟨b, hb, hor⟩ := exists_live hor
    rw [isSome_map] at hor
    have hlen := len_eq hb
    obtain ⟨st, hst, hkept, hcontent, hstrict⟩ :=
      exists_writeToBuf (h.ok i b hb) (hor.imp_left fun hok => hlen ▸ hok.2)
    refine ⟨s.setBuf i st, [], on_eq hb (by rw [hst]; rfl), Called.of_kept h hb hkept
      (fun hq => ⟨b.content, hq, rfl, by rw [hcontent]⟩) (fun _ hok => ?_) fun _ => hstrict⟩
    rw [hcontent, length_append, ← hlen]
    exact hok.2
  | fetch i n =>
    rw [BufEvent.Ok] at hor
    rw [step] at hor ⊢
    obtain ⟨b, hb, hor⟩ := exists_live hor
    have hlen := len_eq hb
    obtain ⟨st, hst, hkept, hcontent, -, hstrict⟩ :=
      exists_fetchFromBuf (h.ok i b hb) (hor.imp_left fun hok => ⟨hlen ▸ hok.2, hok.1⟩)
    refine ⟨_, _, on_eq hb hst, Called.of_kept h hb hkept
      (fun hq => ⟨b.content, hq, rfl, by rw [hcontent]⟩) (fun hlt _ => ?_) fun _ => hstrict⟩
    rw [hcontent, length_drop]
    exact lt_of_le_of_lt (Nat.sub_le _ _) hlt
  | remove i n =>
    rw [BufEvent.Ok] at hor
    rw [step] at hor ⊢
    obtain ⟨b, hb, hor⟩ := exists_live hor
    rw [isSome_map] at hor
    have hlen := len_eq hb
    obtain ⟨st, hst, hkept, hcontent, -, hstrict⟩ :=
      exists_bufRemoveFromFront (h.ok i b hb) (hor.imp_left fun hok => hlen ▸ hok.2)
    refine ⟨s.setBuf i st, [], on_eq hb (by rw [hst]; rfl), Called.of_kept h hb hkept
      (fun hq => ⟨b.content, hq, rfl, by rw [hcontent]⟩) (fun hlt _ => ?_) fun _ => hstrict⟩
    rw [hcontent, length_drop]
    exact lt_of_le_of_lt (Nat.sub_le _ _) hlt
  | pullup i bytes =>
    rw [BufEvent.Ok] at hor
    rw [step] at hor ⊢
    obtain ⟨b, hb, -⟩ := exists_live (p := True) (hor.imp_left fun hok => ⟨hok.1, hok.2, trivial⟩)
    obtain ⟨st, hst, hkept, hcontent, hstrict⟩ := exists_bufPullup (h.ok i b hb) bytes
    refine ⟨s.setBuf i st, [], on_eq hb (by rw [hst]; rfl), Called.of_kept h hb hkept
      (fun hq => ⟨rfl, ?_⟩) (fun hlt _ => by rw [hcontent]; exact hlt) fun hok =>
        hstrict (hok b hb)⟩
    rw [hcontent]
    exact set_join_self hq
  | move bufOut bufIn bufFlushlen =>
    rw [BufEvent.Ok] at hor
    rw [step] at hor ⊢
    obtain ⟨y, hy⟩ : ∃ y, s.buf bufOut = some y := by
      rcases hor with hok | hsome
      · exact isSome_iff_exists.mp hok.2.1
      · exact isSome_iff_exists.mp (isSome_of_isSome_bind hsome)
    rw [some_bind hy] at hor ⊢
    have hor' : s.Short ∧ (s.buf bufIn).isSome ∧
        (bufOut ≠ bufIn → s.len bufOut + min bufFlushlen (s.len bufIn) < intMax) ∨
        (moveBufToBuf L s bufOut bufIn bufFlushlen).isSome :=
      hor.imp (fun hok => ⟨hok.1, hok.2.2⟩) isSome_of_isSome_bind
    obtain ⟨s', left, hs', hok', hqueues, hshort', hstrict⟩ := exists_moveBufToBuf h hy hor'
    refine ⟨s', [], by rw [hs']; rfl, hok', ⟨rfl, hqueues⟩, fun hshort hok => ?_, fun _ => hstrict⟩
    exact hshort' hshort hok.2.2
  | copy i =>
    obtain ⟨b, hb⟩ : ∃ b, s.buf i = some b := by
      rcases hor with hok | hsome
      · exact isSome_iff_exists.mp hok.2
      · exact isSome_iff_exists.mp (isSome_of_isSome_bind hsome)
    obtain ⟨hok, hcontent, htotal, halloc, hnext, hstrict⟩ := bufCopy_ok (h.ok i b hb)
    refine ⟨_, _, by rw [step, some_bind hb], ?_⟩
    refine Called.of_append h hok (by rw [halloc]; exact htotal) hnext
      ⟨b.content, ?_, rfl, by rw [hcontent]⟩ (fun hs => hcontent ▸ hs i b hb) fun hall =>
        hstrict (hall i b hb)
    rw [contents_join, hb]
    rfl
  | clear i =>
    rw [BufEvent.Ok] at hor
    rw [step] at hor ⊢
    obtain ⟨b, hb, -⟩ := exists_live (p := True) (hor.imp_left fun hok => ⟨hok.1, hok.2, trivial⟩)
    obtain ⟨st, hst, hkept, hchunks⟩ := exists_bufClear (h.ok i b hb)
    have hcontent : st.buf.content = [] := by rw [Buf.content, hchunks, flatMap_nil]
    exact ⟨s.setBuf i st, [], on_eq hb (by rw [hst]; rfl), Called.of_kept h hb hkept
      (fun _ => ⟨rfl, by rw [hcontent]⟩) (fun _ _ => by rw [hcontent]; decide) fun _ _ =>
        strict_of_nil hchunks⟩
  | free i =>
    obtain ⟨b, hb⟩ : ∃ b, s.buf i = some b := by
      rcases hor with hok | hsome
      · exact isSome_iff_exists.mp hok.2
      · exact isSome_iff_exists.mp (isSome_of_isSome_bind hsome)
    obtain ⟨st, hst, hkept, hchunks⟩ := exists_bufClear (h.ok i b hb)
    refine ⟨_, _, ?_, called_free h hb hkept hchunks⟩
    rw [step, some_bind hb, some_bind hst]
  | read i atMost results =>
    rw [BufEvent.Ok] at hor
    rw [step] at hor ⊢
    obtain ⟨b, hb, hor⟩ := exists_live hor
    rw [isSome_map] at hor
    have hlen := len_eq hb
    obtain ⟨st, r, hst, hkept, hcontent, hlen', hreceived, hstrict⟩ :=
      exists_readToBuf (h.ok i b hb)
        (hor.imp_left fun hok => lt_of_le_of_lt (Nat.le_add_left _ _) hok.2)
    refine ⟨s.setBuf i st, r.received, on_eq hb (by rw [hst]; rfl), Called.of_kept h hb hkept
      (fun hq => ⟨b.content, hq, hreceived, by rw [hcontent]⟩) (fun _ hok => ?_)
      fun hok => hstrict (hok b hb)⟩
    have hmax := hok.2
    rw [hcontent, length_append, ← hlen]
    omega
  | flush i sz bufFlushlen results =>
    rw [BufEvent.Ok] at hor
    rw [step] at hor ⊢
    obtain ⟨b, hb, hor⟩ := exists_live hor
    rw [isSome_map] at hor
    have hlen := len_eq hb
    obtain ⟨st, r, hst, hkept, hcontent, -, hsent, -, hstrict⟩ :=
      exists_flushBuf (h.ok i b hb) (hor.imp_left fun hok => ⟨hlen ▸ hok.2, hok.1⟩)
    simp only at hcontent
    have hlen' : b.content.length = r.sent.length + st.buf.content.length := by
      rw [hcontent, length_append]
    refine ⟨s.setBuf i st, r.sent, on_eq hb (by rw [hst]; rfl), Called.of_kept h hb hkept
      (fun hq => ⟨b.content, r.sent.length, hq, hsent, by omega, ?_, ?_⟩) (fun hlt _ => by omega)
      fun _ => hstrict⟩
    · rw [hcontent, take_left]
    · rw [hcontent, drop_left]
  | zlib i dataLen yield result =>
    rw [BufEvent.Ok] at hor
    rw [step] at hor ⊢
    obtain ⟨b, hb, -⟩ := exists_live hor
    have hlen := len_eq hb
    obtain ⟨st, new, hst, hkept, hcontent, hnew, hstrict⟩ :=
      exists_writeZlibRound (h.ok i b hb) dataLen yield result
    refine ⟨s.setBuf i st, [], on_eq hb (by rw [hst]; rfl), Called.of_kept h hb hkept
      (fun hq => ⟨b.content, new, hq, rfl, hnew, by rw [hcontent]⟩) (fun _ hok => ?_)
      fun hok => hstrict (hok b hb)⟩
    have hmax := hok.2
    have hle := hnew.length_le
    rw [hcontent, length_append, ← hlen]
    omega

/-- **Calls one after another succeed**, if they are proper ones, and do to the queues what they
should. -/
lemma exists_run {events : List BufEvent} (h : BufsOk L s)
    (hor : s.Short ∧ Runs.MeetsAlong (next L) BufEvent.Ok events s ∨ (s.run L events).isSome) :
    ∃ s' out, s.run L events = some (s', out) ∧ BufsOk L s' ∧
      QueueRun s.contents events out s'.contents ∧
      (Runs.MeetsAlong (next L) BufEvent.StrictOk events s → s.AllStrict → s'.AllStrict) := by
  induction events generalizing s with
  | nil => exact ⟨s, [], rfl, h, QueueRun.nil _, fun _ => id⟩
  | cons e events ih =>
    obtain ⟨s₁, bytes, hs₁, hcalled⟩ :=
      exists_step h e (hor.imp (fun hok => ⟨hok.1, hok.2.1⟩) isSome_of_isSome_bind)
    have hnext : s.next L e = some s₁ := by
      rw [next, hs₁]
      rfl
    have hor₁ : s₁.Short ∧ Runs.MeetsAlong (next L) BufEvent.Ok events s₁ ∨
        (s₁.run L events).isSome := by
      refine hor.imp (fun hok => ⟨hcalled.short hok.1 hok.2.1, hok.2.2 s₁ hnext⟩) fun hsome => ?_
      rw [BufState.run, hs₁] at hsome
      exact isSome_of_isSome_bind hsome
    obtain ⟨s', out, hs', hok', hqueues, hstrict⟩ := ih hcalled.ok hor₁
    refine ⟨s', bytes :: out, ?_, hok', QueueRun.cons hcalled.queues hqueues, fun hmeets hall => ?_⟩
    · rw [BufState.run, some_bind hs₁]
      simp only [hs']
      rfl
    · exact hstrict (hmeets.2 s₁ hnext) (hcalled.strict hmeets.1 hall)

lemma bufsOk_init : BufsOk L init := ⟨nofun, rfl⟩

/-- A string with too many bytes. -/
lemma writeToBuf_eq_none (h : BufOk L st) {string : List UInt8}
    (hmax : intMax ≤ string.length) : writeToBuf L st string = none := by
  have hne : string ≠ [] := by
    rintro rfl
    exact absurd hmax (by decide)
  obtain ⟨st', hst', hkept, hcontent, -⟩ := exists_writeLoop h (le_refl string.length)
  have hlen : ¬st'.buf.datalen < intMax := by
    rw [hkept.ok.datalen, hcontent, length_append]
    omega
  rw [writeToBuf, if_neg hne, some_bind hst', torAssert, if_neg hlen]
  rfl

/-- **The buffers are queues of bytes.**  In a run of proper calls, in which no buffer gets
`INT_MAX` bytes, no assertion fails, the contents of the buffers and what is fetched, received and
sent are as for queues, the lengths are right, and so is the counter of the heap. -/
theorem buffers_refine_queues (L : ChunkLayout) (events : List BufEvent)
    (hok : Runs.MeetsAlong (BufState.next L) BufEvent.Ok events BufState.init) :
    ∃ s out, BufState.init.run L events = some (s, out) ∧ QueueRun [] events out s.contents ∧
      (∀ i b, s.buf i = some b → b.datalen = b.content.length) ∧
      s.heap.totalBytes = s.allocation L := by
  obtain ⟨s, out, hs, h, hqueues, -⟩ := exists_run (L := L) bufsOk_init (Or.inl ⟨nofun, hok⟩)
  exact ⟨s, out, hs, hqueues, fun i b hb => (h.ok i b hb).datalen, h.total⟩

/-- Two buffers: bytes are written to one and pulled up there, and are read from a socket to the
other one; then a socket takes one byte of the first, and two are fetched. -/
theorem buffers_refine_queues_two :
    ∃ s out, BufState.init.run ⟨44, by decide⟩ [.new none, .write 0 [1, 2, 3], .new none,
        .read 1 2 [.got [4, 5, 6]], .pullup 0 2, .flush 0 2 3 [.sent 1], .fetch 0 2] =
          some (s, out) ∧
      QueueRun [] [.new none, .write 0 [1, 2, 3], .new none, .read 1 2 [.got [4, 5, 6]],
        .pullup 0 2,
        .flush 0 2 3 [.sent 1], .fetch 0 2] out s.contents ∧
      (∀ i b, s.buf i = some b → b.datalen = b.content.length) ∧
      s.heap.totalBytes = s.allocation ⟨44, by decide⟩ := by
  refine buffers_refine_queues ⟨44, by decide⟩ _ ⟨trivial, fun s₁ hs₁ => ?_⟩
  obtain rfl := Option.some.inj hs₁
  refine ⟨⟨rfl, by decide⟩, fun s₂ hs₂ => ?_⟩
  obtain rfl := Option.some.inj hs₂
  refine ⟨trivial, fun s₃ hs₃ => ?_⟩
  obtain rfl := Option.some.inj hs₃
  refine ⟨⟨rfl, by decide⟩, fun s₄ hs₄ => ?_⟩
  obtain rfl := Option.some.inj hs₄
  refine ⟨rfl, fun s₅ hs₅ => ?_⟩
  obtain rfl := Option.some.inj hs₅
  refine ⟨⟨rfl, by decide⟩, fun s₆ hs₆ => ?_⟩
  obtain rfl := Option.some.inj hs₆
  exact ⟨⟨rfl, by decide⟩, fun _ _ => trivial⟩

/-- A string of `INT_MAX` bytes is written: an assertion fails. -/
theorem not_buffers_refine_queues_intMax :
    BufState.init.run ⟨44, by decide⟩ [.new none, .write 0 (replicate intMax 0)] = none := by
  have hmax : intMax ≤ (replicate intMax (0 : UInt8)).length :=
    Nat.le_of_eq length_replicate.symm
  generalize replicate intMax (0 : UInt8) = string at hmax ⊢
  have hnew : BufOk ⟨44, by decide⟩ ⟨⟨0, 0⟩, bufNew⟩ :=
    ⟨nofun, rfl, nodup_nil, nofun, rfl, by decide, Nat.zero_le _⟩
  have hwrite : BufState.step ⟨44, by decide⟩ ⟨⟨0, 0⟩, [some bufNew]⟩ (.write 0 string) = none := by
    have hbuf : BufState.buf ⟨⟨0, 0⟩, [some bufNew]⟩ 0 = some bufNew := rfl
    rw [BufState.step, BufState.on, some_bind hbuf, writeToBuf_eq_none hnew hmax]
    rfl
  rw [BufState.run, BufState.step, bind_eq_bind, bind_some]
  simp only [BufState.run, BufState.init, nil_append, hwrite, bind_eq_bind, bind_none]

lemma assertChunksOk_eq {tail : Option ℕ} {l : List Chunk} (hne : l ≠ [])
    (hfits : ∀ c ∈ l, c.offset + c.datalen ≤ c.memlen) (hinside : ∀ c ∈ l, c.offset < c.memlen)
    (htail : tail = l.getLast?.map Chunk.addr) :
    assertChunksOk tail l = some (l.flatMap Chunk.data).length := by
  induction l with
  | nil => exact absurd rfl hne
  | cons c rest ih =>
    have hc := hfits c mem_cons_self
    have hlast : rest ≠ [] ∨ some c.addr = tail := by
      cases rest with
      | nil => exact .inr htail.symm
      | cons c' rest => exact .inl (cons_ne_nil _ _)
    rw [assertChunksOk, torAssert_bind (by omega), torAssert_bind (hinside c mem_cons_self),
      torAssert_bind hc, torAssert_bind hlast]
    cases rest with
    | nil =>
      rw [assertChunksOk, flatMap_singleton]
      rfl
    | cons c' rest =>
      rw [getLast?_cons_cons] at htail
      have hsum : ((c :: c' :: rest).flatMap Chunk.data).length =
          c.datalen + ((c' :: rest).flatMap Chunk.data).length := by
        rw [flatMap_cons, length_append, Chunk.datalen]
      rw [hsum, ih (cons_ne_nil _ _) (fun b hb => hfits b (mem_cons_of_mem c hb))
        (fun b hb => hinside b (mem_cons_of_mem c hb)) htail]
      rfl

/-- **The assertions on a buffer hold** where the documented invariant does. -/
lemma assertBufOk_eq (h : BufOk L st) (hstrict : Strict st.buf) : assertBufOk st.buf = some () := by
  rw [assertBufOk]
  by_cases hnil : st.buf.chunks = []
  · have hlen : st.buf.datalen = 0 := by rw [h.datalen, Buf.content, hnil, flatMap_nil, length_nil]
    rw [if_pos hnil, torAssert_bind (h.tail_eq_none_iff.mpr hnil)]
    exact if_pos hlen
  · have htail : st.buf.tail ≠ none := fun htail => hnil (h.tail_eq_none_iff.mp htail)
    rw [if_neg hnil, torAssert_bind htail, assertChunksOk_eq hnil h.fits hstrict.inside h.tail]
    exact if_pos h.datalen

/-- **The documented invariant.**  In a run in which no bytes are pulled up that end with a chunk,
and no chunk is added behind an empty one, every chunk but the tail has data, and the assertions on
every buffer hold. -/
theorem buffers_strict (L : ChunkLayout) (events : List BufEvent)
    (hok : Runs.MeetsAlong (BufState.next L) BufEvent.StrictOk events BufState.init) {s : BufState}
    {out : List (List UInt8)} (hrun : BufState.init.run L events = some (s, out)) (i : ℕ) (b : Buf)
    (hi : s.buf i = some b) :
    (∀ c ∈ b.chunks.dropLast, c.data ≠ []) ∧ assertBufOk b = some () := by
  obtain ⟨s', out', hs', h, -, hstrict⟩ :=
    exists_run (L := L) bufsOk_init
      (Or.inr (by rw [hrun]; rfl) : _ ∨ (BufState.init.run L events).isSome)
  rw [hrun] at hs'
  obtain ⟨rfl, rfl⟩ := Prod.mk.inj (Option.some.inj hs')
  have hb := hstrict hok nofun i b hi
  exact ⟨hb.nonempty, assertBufOk_eq (h.ok i b hi) hb⟩

/-- Two chunks are full, and some of the bytes of the second one are pulled up. -/
theorem buffers_strict_pullup :
    ∃ s out b, BufState.init.run ⟨44, by decide⟩ [.new (some 212), .write 0 (replicate 212 0),
        .write 0 (replicate 212 0), .pullup 0 230] = some (s, out) ∧
      s.buf 0 = some b ∧ (∀ c ∈ b.chunks.dropLast, c.data ≠ []) ∧ assertBufOk b = some () := by
  have hrun : ((BufState.init.run ⟨44, by decide⟩ [.new (some 212), .write 0 (replicate 212 0),
      .write 0 (replicate 212 0), .pullup 0 230]).bind fun r => r.1.buf 0).isSome := by
    decide +kernel
  obtain ⟨b, hrun⟩ := isSome_iff_exists.mp hrun
  obtain ⟨⟨s, out⟩, hs, hb⟩ := bind_eq_some_iff.mp hrun
  refine ⟨s, out, b, hs, hb, buffers_strict _ _ ?_ hs 0 b hb⟩
  refine ⟨trivial, fun s₁ hs₁ => ⟨trivial, fun s₂ hs₂ => ⟨trivial, fun s₃ hs₃ =>
    ⟨fun b hb => ?_, fun _ _ => trivial⟩⟩⟩⟩
  have hpull : (((BufState.init.next ⟨44, by decide⟩ (.new (some 212))).bind
      (·.next ⟨44, by decide⟩ (.write 0 (replicate 212 0)))).bind
      (·.next ⟨44, by decide⟩ (.write 0 (replicate 212 0)))).all
        (fun s => (s.buf 0).all fun b => decide (b.PullupOk 230)) = true := by
    decide +kernel
  rw [hs₁, bind_some, hs₂, bind_some, hs₃, all_some, hb, all_some] at hpull
  exact of_decide_eq_true hpull

/-- Three chunks are full, and the bytes of two are pulled up: the second one stays, without data,
which starts behind its memory. -/
theorem not_buffers_strict_pullup :
    ∃ s out b, BufState.init.run ⟨44, by decide⟩ [.new (some 212), .write 0 (replicate 212 0),
        .write 0 (replicate 212 0), .write 0 (replicate 212 0), .pullup 0 424] = some (s, out) ∧
      s.buf 0 = some b ∧ (¬∀ c ∈ b.chunks.dropLast, c.data ≠ []) ∧ assertBufOk b = none := by
  have hrun : ((BufState.init.run ⟨44, by decide⟩ [.new (some 212), .write 0 (replicate 212 0),
      .write 0 (replicate 212 0), .write 0 (replicate 212 0), .pullup 0 424]).bind fun r =>
      (r.1.buf 0).map fun b => (decide (∀ c ∈ b.chunks.dropLast, c.data ≠ []), assertBufOk b)) =
        some (false, none) := by
    decide +kernel
  obtain ⟨⟨s, out⟩, hs, hbuf⟩ := bind_eq_some_iff.mp hrun
  obtain ⟨b, hb, hfails⟩ := map_eq_some_iff.mp hbuf
  obtain ⟨hdata, hassert⟩ := Prod.mk.inj hfails
  exact ⟨s, out, b, hs, hb, of_decide_eq_false hdata, hassert⟩

end Calls

end Astoria
