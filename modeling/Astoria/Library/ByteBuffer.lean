import Mathlib.Tactic.Common

/-!
# Byte buffers

A buffer is the memory from some address on, as a function of the offset.  Bytes are copied from one
buffer to another (`copy`), and numbers of 16 bits are stored with the high byte first.  Each
operation has a rule for the bytes that it writes and one for those that it leaves alone, and the
values that are read depend on the bytes that are read only.
-/

namespace ByteBuffer

open Function

/-- The memory from some address on. -/
abbrev Buffer := ℕ → UInt8

/-- Memory that has been cleared. -/
def zero : Buffer := fun _ => 0

/-- Copy `n` bytes at `j` of one buffer to the place `i` of another one. -/
def copy (dst : Buffer) (i : ℕ) (src : Buffer) (j n : ℕ) : Buffer :=
  fun k => if i ≤ k ∧ k < i + n then src (j + (k - i)) else dst k

/-- Read a number of 16 bits, high byte first. -/
def getUInt16 (p : Buffer) (i : ℕ) : UInt16 :=
  UInt16.ofNat (256 * (p i).toNat + (p (i + 1)).toNat)

/-- Write a number of 16 bits, high byte first. -/
def setUInt16 (p : Buffer) (i : ℕ) (x : UInt16) : Buffer :=
  update (update p i (UInt8.ofNat (x.toNat / 256))) (i + 1)
    (UInt8.ofNat (x.toNat % 256))

section Copy

variable {dst src : Buffer} {i j n k : ℕ}

/-- A byte that is copied. -/
lemma copy_of_mem (h₁ : i ≤ k) (h₂ : k < i + n) : copy dst i src j n k = src (j + (k - i)) :=
  if_pos ⟨h₁, h₂⟩

/-- A byte that is not copied. -/
lemma copy_of_notMem (h : k < i ∨ i + n ≤ k) : copy dst i src j n k = dst k :=
  if_neg (by omega)

/-- The copy depends on the bytes that are copied. -/
lemma copy_congr {src' : Buffer} (h : ∀ k < n, src (j + k) = src' (j + k)) :
    copy dst i src j n = copy dst i src' j n := by
  funext k
  by_cases hk : i ≤ k ∧ k < i + n
  · rw [copy_of_mem hk.1 hk.2, copy_of_mem hk.1 hk.2]
    exact h (k - i) (by omega)
  · rw [copy_of_notMem (by omega), copy_of_notMem (by omega)]

/-- What is copied out of a place is what was copied into it. -/
lemma copy_copy_of_le (dst' : Buffer) (l : ℕ) {m : ℕ} (h : m ≤ n) :
    copy dst' l (copy dst i src j n) i m = copy dst' l src j m := by
  funext k
  by_cases hk : l ≤ k ∧ k < l + m
  · rw [copy_of_mem hk.1 hk.2, copy_of_mem hk.1 hk.2, copy_of_mem (by omega) (by omega)]
    congr 1
    omega
  · rw [copy_of_notMem (by omega), copy_of_notMem (by omega)]

/-- All that has been copied is copied out again. -/
lemma copy_copy (dst' : Buffer) (l : ℕ) :
    copy dst' l (copy dst i src j n) i n = copy dst' l src j n :=
  copy_copy_of_le dst' l (Nat.le_refl n)

/-- What is copied from another place is not affected. -/
lemma copy_copy_of_disjoint (dst' : Buffer) (l : ℕ) {p m : ℕ} (h : p + m ≤ i ∨ i + n ≤ p) :
    copy dst' l (copy dst i src j n) p m = copy dst' l dst p m :=
  copy_congr fun k hk => copy_of_notMem (by omega)

/-- Copying to the same place again. -/
lemma copy_overwrite (src' : Buffer) (j' : ℕ) :
    copy (copy dst i src j n) i src' j' n = copy dst i src' j' n := by
  funext k
  by_cases hk : i ≤ k ∧ k < i + n
  · rw [copy_of_mem hk.1 hk.2, copy_of_mem hk.1 hk.2]
  · rw [copy_of_notMem (by omega), copy_of_notMem (by omega), copy_of_notMem (by omega)]

/-- Bytes that are there already. -/
lemma copy_eq_self (h : ∀ k < n, src (j + k) = dst (i + k)) : copy dst i src j n = dst := by
  funext k
  by_cases hk : i ≤ k ∧ k < i + n
  · rw [copy_of_mem hk.1 hk.2, h (k - i) (by omega)]
    congr 1
    omega
  · rw [copy_of_notMem (by omega)]

end Copy

section Numbers

variable {p : Buffer} {i k : ℕ}

/-- A number depends on its two bytes. -/
lemma getUInt16_congr {q : Buffer} (h₀ : p i = q i) (h₁ : p (i + 1) = q (i + 1)) :
    getUInt16 p i = getUInt16 q i := by
  rw [getUInt16, getUInt16, h₀, h₁]

/-- A number that has been written is read back. -/
lemma getUInt16_setUInt16 (p : Buffer) (i : ℕ) (x : UInt16) :
    getUInt16 (setUInt16 p i x) i = x := by
  have hx := x.toNat_lt
  rw [getUInt16, setUInt16, update_self, update_of_ne (by omega),
    update_self, UInt8.toNat_ofNat', UInt8.toNat_ofNat']
  have hsum : 256 * (x.toNat / 256 % 2 ^ 8) + x.toNat % 256 % 2 ^ 8 = x.toNat := by omega
  rw [hsum, UInt16.ofNat_toNat]

/-- A number that is written back where it was read. -/
lemma setUInt16_getUInt16 (p : Buffer) (i : ℕ) : setUInt16 p i (getUInt16 p i) = p := by
  have h₀ := (p i).toNat_lt
  have h₁ := (p (i + 1)).toNat_lt
  have hsum : (256 * (p i).toNat + (p (i + 1)).toNat) % 2 ^ 16 =
      256 * (p i).toNat + (p (i + 1)).toNat := Nat.mod_eq_of_lt (by omega)
  have hhigh : (256 * (p i).toNat + (p (i + 1)).toNat) / 256 = (p i).toNat := by omega
  have hlow : (256 * (p i).toNat + (p (i + 1)).toNat) % 256 = (p (i + 1)).toNat := by omega
  rw [setUInt16, getUInt16, UInt16.toNat_ofNat', hsum, hhigh, hlow, UInt8.ofNat_toNat,
    UInt8.ofNat_toNat, update_eq_self, update_eq_self]

/-- A byte that is not written. -/
lemma setUInt16_of_ne {x : UInt16} (h₀ : k ≠ i) (h₁ : k ≠ i + 1) : setUInt16 p i x k = p k := by
  rw [setUInt16, update_of_ne h₁, update_of_ne h₀]

end Numbers

/-! ### What is read from other places -/

section Frame

variable {p dst src : Buffer} {i j k l m n : ℕ} {x : UInt16} {b : UInt8}

/-- A number that is not copied over. -/
lemma getUInt16_copy (h : k + 2 ≤ i ∨ i + n ≤ k) :
    getUInt16 (copy dst i src j n) k = getUInt16 dst k :=
  getUInt16_congr (copy_of_notMem (by omega)) (copy_of_notMem (by omega))

/-- A number beside the one that is written. -/
lemma getUInt16_setUInt16_of_disjoint (h : k + 2 ≤ i ∨ i + 2 ≤ k) :
    getUInt16 (setUInt16 p i x) k = getUInt16 p k :=
  getUInt16_congr (setUInt16_of_ne (by omega) (by omega)) (setUInt16_of_ne (by omega) (by omega))

/-- A number beside a byte that is written. -/
lemma getUInt16_update (h : k ≠ i ∧ k + 1 ≠ i) :
    getUInt16 (update p i b) k = getUInt16 p k :=
  getUInt16_congr (update_of_ne h.1 _ _) (update_of_ne h.2 _ _)

/-- What is copied from beside a number that is written. -/
lemma copy_setUInt16 (h : k + m ≤ i ∨ i + 2 ≤ k) :
    copy dst l (setUInt16 p i x) k m = copy dst l p k m :=
  copy_congr fun _ _ => setUInt16_of_ne (by omega) (by omega)

/-- What is copied from beside a byte that is written. -/
lemma copy_update (h : k + m ≤ i ∨ i < k) :
    copy dst l (update p i b) k m = copy dst l p k m :=
  copy_congr fun _ _ => update_of_ne (by omega) _ _

end Frame

end ByteBuffer
