import Mathlib.Data.List.Basic

/-!
# Streams of lines

A stream arrives in chunks.  `readUntil` collects the chunks in a buffer of fixed size, until a test
on what has been collected says that the stream is complete.  If the test holds of no proper
beginning of the stream, the chunks do not matter (`readUntil_eq_some`).

`feed` takes a stream apart into lines.  The elements of a line are collected in a buffer of fixed
size and handled at the end of the line.  `foldlM_feed_lines` says that this is a fold over the
lines, as long as they fit the buffer.
-/

namespace LineStream

open List Option

/-! ### Reading chunks -/

section Read

variable {α : Type*} {cap : ℕ} {stop : List α → Bool} {text buf : List α}

/-- Read chunks into a buffer for `cap` elements.  The end of the stream is an empty chunk.  A chunk
for which there is no room is written over other memory. -/
def readUntil (cap : ℕ) (stop : List α → Bool) : List α → List (List α) → Option (List α)
  | buf, [] => some buf
  | buf, chunk :: chunks =>
    if cap ≤ buf.length then some buf
    else if chunk.isEmpty then some buf
    else if cap < (buf ++ chunk).length then none
    else if stop (buf ++ chunk) then some (buf ++ chunk)
    else readUntil cap stop (buf ++ chunk) chunks

/-- **Chunks do not matter.**  If the test holds of no proper beginning of a text for which there is
room, the text is read, whatever its chunks are. -/
lemma readUntil_eq_some (hcap : text.length ≤ cap)
    (hstop : ∀ start, start ≠ [] → start <+: text → start ≠ text → stop start = false)
    {chunks : List (List α)} (hne : ∀ chunk ∈ chunks, chunk ≠ [])
    (htext : buf ++ chunks.flatten = text) : readUntil cap stop buf chunks = some text := by
  induction chunks generalizing buf with
  | nil => rw [readUntil, ← htext, flatten_nil, append_nil]
  | cons chunk chunks ih =>
    have hchunk : chunk ≠ [] := hne chunk mem_cons_self
    have hpos : 0 < chunk.length := length_pos_iff.mpr hchunk
    rw [flatten_cons, ← append_assoc] at htext
    have hlen : (buf ++ chunk).length ≤ text.length := by
      rw [← htext]
      exact (prefix_append _ _).length_le
    have hbuf : ¬ cap ≤ buf.length := by
      rw [length_append] at hlen
      omega
    have hroom : ¬ cap < (buf ++ chunk).length := by omega
    rw [readUntil, if_neg hbuf, if_neg (by simpa using hchunk), if_neg hroom]
    split_ifs with hs
    · -- the test holds, so this is the whole text
      by_contra hc
      have := hstop (buf ++ chunk) (by simp [hchunk]) ⟨_, htext⟩ fun he => hc (by rw [he])
      rw [this] at hs
      cases hs
    · exact ih (fun c hc => hne c (mem_cons_of_mem _ hc)) htext

/-- A text for which there is no room can arrive in chunks that are not larger than the buffer, but
overrun it. -/
lemma exists_readUntil_eq_none (hcap : 1 < cap) (htext : cap < text.length)
    (hstop : ∀ start, start ≠ [] → start <+: text → start ≠ text → stop start = false) :
    ∃ chunks : List (List α), (∀ chunk ∈ chunks, chunk ≠ [] ∧ chunk.length ≤ cap) ∧
      chunks.flatten = text ∧ readUntil cap stop [] chunks = none := by
  obtain ⟨c, rest, rfl⟩ := exists_cons_of_ne_nil
    (ne_nil_of_length_pos (Nat.lt_of_le_of_lt (Nat.zero_le cap) htext))
  rw [length_cons] at htext
  have hsecond : (rest.take cap).length = cap := by
    rw [length_take]
    omega
  have hne : rest.take cap ≠ [] := by
    rw [← length_pos_iff, hsecond]
    omega
  -- one element, then a full chunk, and then the rest
  refine ⟨[c] :: rest.take cap :: (rest.drop cap).map fun a => [a], ?_, ?_, ?_⟩
  · intro chunk hchunk
    simp only [mem_cons, List.mem_map] at hchunk
    rcases hchunk with rfl | rfl | ⟨a, -, rfl⟩
    · exact ⟨by simp, by simp; omega⟩
    · exact ⟨hne, by omega⟩
    · exact ⟨by simp, by simp; omega⟩
  · rw [flatten_cons, flatten_cons, ← flatMap_def, flatMap_singleton',
      take_append_drop, singleton_append]
  · have hfirst : stop [c] = false := by
      refine hstop [c] (by simp) ⟨rest, rfl⟩ fun he => ?_
      rw [List.cons.injEq] at he
      rw [← he.2] at htext
      simp at htext
      omega
    have hlen : ([] ++ [c] ++ rest.take cap).length = cap + 1 := by
      rw [length_append, hsecond]
      simp [Nat.add_comm]
    have h₁ : ¬ cap ≤ ([] : List α).length := by
      simp
      omega
    have h₂ : ¬ cap < ([] ++ [c]).length := by
      simp
      omega
    have h₃ : ¬ cap ≤ ([] ++ [c]).length := by
      simp
      omega
    rw [readUntil, if_neg h₁, if_neg (by simp), if_neg h₂, if_neg (by simp [hfirst]), readUntil,
      if_neg h₃, if_neg (by simpa using hne), if_pos (by rw [hlen]; omega)]

end Read

/-! ### Lines -/

section Lines

variable {α σ : Type*} [DecidableEq α]

/-- Feed an element of a stream.  The buffer has room for `cap` elements, including the one that
ends a line. -/
def feed (cap : ℕ) (nl : α) (handle : σ → List α → Option σ) (st : σ × List α) (c : α) :
    Option (σ × List α) :=
  if cap ≤ st.2.length then none
  else if c = nl then (handle st.1 st.2).map fun s => (s, [])
  else some (st.1, st.2 ++ [c])

variable {cap : ℕ} {nl : α} {handle : σ → List α → Option σ}

/-- Feeding elements that do not end the line. -/
lemma foldlM_feed_of_notMem {line tmp : List α} (hline : nl ∉ line) (htmp : tmp.length ≤ cap)
    (s : σ) : line.foldlM (feed cap nl handle) (s, tmp) =
      if (tmp ++ line).length ≤ cap then some (s, tmp ++ line) else none := by
  induction line generalizing tmp with
  | nil => simp [htmp]
  | cons c line ih =>
    rw [mem_cons, not_or] at hline
    rw [foldlM_cons, feed]
    by_cases hfull : cap ≤ tmp.length
    · rw [if_pos hfull, if_neg]
      · rfl
      · rw [length_append, length_cons]
        omega
    · have hroom : (tmp ++ [c]).length ≤ cap := by
        rw [length_append, length_singleton]
        omega
      rw [if_neg hfull, if_neg (Ne.symm hline.1), bind_eq_bind, bind_some,
        ih hline.2 hroom, append_assoc, singleton_append]

/-- What happens to a line: it is handled if it fits the buffer. -/
def handleLine (cap : ℕ) (handle : σ → List α → Option σ) (s : σ) (line : List α) : Option σ :=
  if line.length < cap then handle s line else none

lemma foldlM_feed_line {line : List α} (hline : nl ∉ line) (s : σ) :
    (line ++ [nl]).foldlM (feed cap nl handle) (s, []) =
      (handleLine cap handle s line).map fun s => (s, []) := by
  rw [foldlM_append, foldlM_feed_of_notMem hline (Nat.zero_le cap) s, nil_append, handleLine]
  by_cases hlen : line.length < cap
  · rw [if_pos (Nat.le_of_lt hlen), if_pos hlen, bind_eq_bind, bind_some,
      foldlM_cons, feed, if_neg (Nat.not_le.mpr hlen), if_pos rfl]
    cases handle s line <;> rfl
  · rw [if_neg hlen]
    split_ifs with hle
    · rw [bind_eq_bind, bind_some, foldlM_cons, feed,
        if_pos (Nat.not_lt.mp hlen)]
      rfl
    · rfl

/-- **Feeding lines.**  A stream of lines is handled line by line. -/
lemma foldlM_feed_lines {lines : List (List α)} (hlines : ∀ line ∈ lines, nl ∉ line) (s : σ) :
    (lines.flatMap fun line => line ++ [nl]).foldlM (feed cap nl handle) (s, []) =
      (lines.foldlM (handleLine cap handle) s).map fun s => (s, []) := by
  induction lines generalizing s with
  | nil => rfl
  | cons line lines ih =>
    rw [flatMap_cons, foldlM_append, foldlM_feed_line (hlines line mem_cons_self),
      foldlM_cons]
    cases handleLine cap handle s line with
    | none => rfl
    | some s' =>
      exact ih (fun l hl => hlines l (mem_cons_of_mem _ hl)) s'

end Lines

end LineStream
