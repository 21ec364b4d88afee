import Mathlib.Order.Nat

/-!
# Text in memory

Text is read from memory through pointers.  A function that reads no further than the end of its
text gives the same result in all memories that agree up to there (`AgreeOn`).
-/

namespace Astoria.Memory

open List

variable {α : Type*} {mem mem' : ℕ → α} {s e n : ℕ}

/-- Two memories agree between two pointers. -/
def AgreeOn (mem mem' : ℕ → α) (s e : ℕ) : Prop := ∀ p, s ≤ p → p < e → mem p = mem' p

lemma AgreeOn.mono {s' e' : ℕ} (h : AgreeOn mem mem' s e) (hs : s ≤ s') (he : e' ≤ e) :
    AgreeOn mem mem' s' e' :=
  fun p hp hp' => h p (hs.trans hp) (hp'.trans_le he)

/-! ### Texts -/

/-- The text between two pointers. -/
def text (mem : ℕ → α) (s e : ℕ) : List α := (range' s (e - s)).map mem

lemma AgreeOn.text (h : AgreeOn mem mem' s e) : text mem s e = text mem' s e := by
  refine map_congr_left fun p hp => ?_
  obtain ⟨hs, he⟩ := mem_range'_1.mp hp
  exact h p hs (by omega)

@[simp] lemma length_text (mem : ℕ → α) (s e : ℕ) : (Memory.text mem s e).length = e - s := by
  rw [Memory.text, length_map, length_range']

/-! ### Scanning -/

/-- Go on over at most `n` characters as long as they have a property. -/
def scanWhile (p : α → Bool) (mem : ℕ → α) : ℕ → ℕ → ℕ
  | 0, s => s
  | n + 1, s => if p (mem s) then scanWhile p mem n (s + 1) else s

lemma AgreeOn.scanWhile {p : α → Bool} (h : AgreeOn mem mem' s (s + n)) :
    scanWhile p mem n s = scanWhile p mem' n s := by
  induction n generalizing s with
  | zero => rfl
  | succ n ih =>
    rw [Memory.scanWhile, Memory.scanWhile, h s (le_refl s) (by omega),
      ih (h.mono (by omega) (by omega))]

lemma scanWhile_spec (p : α → Bool) (mem : ℕ → α) (n s : ℕ) :
    s ≤ scanWhile p mem n s ∧ scanWhile p mem n s ≤ s + n ∧
      (∀ i, s ≤ i → i < scanWhile p mem n s → p (mem i) = true) ∧
      (scanWhile p mem n s < s + n → p (mem (scanWhile p mem n s)) = false) := by
  induction n generalizing s with
  | zero => exact ⟨le_refl s, le_refl s, fun i hi hi' => absurd (hi.trans_lt hi') (lt_irrefl s),
      fun h => absurd h (lt_irrefl s)⟩
  | succ n ih =>
    rw [scanWhile]
    obtain ⟨hle, hle', hall, hstop⟩ := ih (s + 1)
    split
    · next hp =>
      refine ⟨by omega, by omega, fun i hi hi' => ?_, fun h => hstop (by omega)⟩
      rcases Nat.eq_or_lt_of_le hi with rfl | hi
      · exact hp
      · exact hall i hi hi'
    · next hp =>
      refine ⟨le_refl s, by omega, fun i hi hi' => ?_, fun _ => by simpa using hp⟩
      exact absurd (hi.trans_lt hi') (lt_irrefl s)

/-! ### Searching -/

section Search

variable [DecidableEq α]

/-- The first place of a character among the next `n` (`memchr`). -/
def memchr (mem : ℕ → α) (s n : ℕ) (c : α) : Option ℕ :=
  let p := scanWhile (fun a => decide (a ≠ c)) mem n s
  if p < s + n then some p else none

/-- The same place of a character. -/
lemma AgreeOn.memchr (h : AgreeOn mem mem' s (s + n)) (c : α) :
    memchr mem s n c = memchr mem' s n c := by
  rw [Memory.memchr, Memory.memchr, h.scanWhile]

/-- The first place of a character. -/
lemma memchr_eq_some {c : α} {p : ℕ} (h : memchr mem s n c = some p) :
    s ≤ p ∧ p < s + n ∧ mem p = c := by
  obtain ⟨hle, -, -, hstop⟩ := scanWhile_spec (fun a => decide (a ≠ c)) mem n s
  rw [memchr] at h
  split at h
  · next hlt =>
    obtain rfl := Option.some.inj h
    exact ⟨hle, hlt, by simpa using hstop hlt⟩
  · cases h

/-- There is no place of a character. -/
lemma memchr_eq_none {c : α} (h : memchr mem s n c = none) (p : ℕ) (hs : s ≤ p) (hn : p < s + n) :
    mem p ≠ c := by
  obtain ⟨-, -, hall, -⟩ := scanWhile_spec (fun a => decide (a ≠ c)) mem n s
  rw [memchr] at h
  split at h
  · cases h
  · next hge => exact of_decide_eq_true (hall p hs (by omega))

/-- The first place of a text among the next `n` characters (`memmem`). -/
def memmem (mem : ℕ → α) (s n : ℕ) (needle : List α) : Option ℕ :=
  (range' s (n + 1 - needle.length)).find? fun p => decide (text mem p (p + needle.length) = needle)

/-- The same place of a text. -/
lemma AgreeOn.memmem (h : AgreeOn mem mem' s (s + n)) (needle : List α) :
    memmem mem s n needle = memmem mem' s n needle := by
  have hfind (l : List ℕ) (hl : ∀ p ∈ l, s ≤ p ∧ p + needle.length ≤ s + n) :
      l.find? (fun p => decide (Memory.text mem p (p + needle.length) = needle)) =
        l.find? fun p => decide (Memory.text mem' p (p + needle.length) = needle) := by
    induction l with
    | nil => rfl
    | cons p l ih =>
      obtain ⟨⟨hs, he⟩, hl⟩ := forall_mem_cons.mp hl
      rw [find?_cons, find?_cons, (h.mono hs he).text, ih hl]
  refine hfind _ fun p hp => ?_
  obtain ⟨hs, he⟩ := mem_range'_1.mp hp
  exact ⟨hs, by omega⟩

/-- The first place of a text. -/
lemma memmem_eq_some {needle : List α} {p : ℕ} (h : memmem mem s n needle = some p) :
    s ≤ p ∧ p + needle.length ≤ s + n ∧ text mem p (p + needle.length) = needle := by
  rw [memmem] at h
  have hfound := find?_some h
  obtain ⟨hs, he⟩ := mem_range'_1.mp (mem_of_find?_eq_some h)
  exact ⟨hs, by omega, of_decide_eq_true hfound⟩

end Search

end Astoria.Memory
