import Mathlib.Data.List.Induction
import Mathlib.Tactic.Ring

/-!
# Numbers in big-endian order

A number is written as a fixed number of bytes, the most significant one first.  What does not fit
is left out.  A number that fits is read back (`ofBytes_toBytes`), and so are the bytes of a number
(`toBytes_ofBytes`).
-/

namespace Astoria.BigEndian

open List

/-- The last `k` bytes of a number. -/
def toBytes : ℕ → ℕ → List UInt8
  | 0, _ => []
  | k + 1, n => UInt8.ofNat (n / 256 ^ k) :: toBytes k n

/-- The number of some bytes. -/
def ofBytes (bytes : List UInt8) : ℕ := bytes.foldl (fun n b => n * 256 + b.toNat) 0

@[simp] lemma length_toBytes (k n : ℕ) : (toBytes k n).length = k := by
  induction k with
  | zero => rfl
  | succ k ih => rw [toBytes, length_cons, ih]

/-- The bytes are added to a number that was read before. -/
lemma foldl_toBytes (k n m : ℕ) :
    (toBytes k n).foldl (fun n b => n * 256 + b.toNat) m = m * 256 ^ k + n % 256 ^ k := by
  induction k generalizing m with
  | zero => rw [toBytes, foldl_nil, pow_zero, Nat.mod_one, mul_one, add_zero]
  | succ k ih =>
    have hbyte : (UInt8.ofNat (n / 256 ^ k)).toNat = n / 256 ^ k % 256 := UInt8.toNat_ofNat'
    have hmod : n % 256 ^ (k + 1) = 256 ^ k * (n / 256 ^ k % 256) + n % 256 ^ k := by
      rw [pow_succ, Nat.mod_mul]
      ring
    rw [toBytes, foldl_cons, ih, hbyte, hmod]
    ring

/-- **A number that fits is read back.** -/
theorem ofBytes_toBytes {k n : ℕ} (h : n < 256 ^ k) : ofBytes (toBytes k n) = n := by
  unfold ofBytes
  rw [foldl_toBytes, zero_mul, zero_add, Nat.mod_eq_of_lt h]

lemma ofBytes_append_singleton (bytes : List UInt8) (b : UInt8) :
    ofBytes (bytes ++ [b]) = ofBytes bytes * 256 + b.toNat := by
  unfold ofBytes
  rw [foldl_append, foldl_cons, foldl_nil]

/-- The number of some bytes fits as many bytes. -/
lemma ofBytes_lt (bytes : List UInt8) : ofBytes bytes < 256 ^ bytes.length := by
  induction bytes using reverseRecOn with
  | nil => exact Nat.one_pos
  | append_singleton bytes b ih =>
    have hb := b.toNat_lt
    rw [ofBytes_append_singleton, length_append, length_singleton, pow_succ]
    omega

lemma toBytes_append_singleton (k n : ℕ) :
    toBytes (k + 1) n = toBytes k (n / 256) ++ [UInt8.ofNat n] := by
  induction k generalizing n with
  | zero => exact congrArg (fun m => [UInt8.ofNat m]) (Nat.div_one n)
  | succ k ih =>
    rw [toBytes, ih, toBytes, cons_append, Nat.div_div_eq_div_mul, ← pow_succ']

/-- **The bytes of their number are the bytes.** -/
theorem toBytes_ofBytes (bytes : List UInt8) : toBytes bytes.length (ofBytes bytes) = bytes := by
  induction bytes using reverseRecOn with
  | nil => rfl
  | append_singleton bytes b ih =>
    have hb := b.toNat_lt
    have hdiv : (ofBytes bytes * 256 + b.toNat) / 256 = ofBytes bytes := by omega
    have hlast : UInt8.ofNat (ofBytes bytes * 256 + b.toNat) = b := by
      rw [← UInt8.toNat_inj, UInt8.toNat_ofNat', Nat.mul_add_mod_of_lt hb]
    rw [length_append, length_singleton, ofBytes_append_singleton, toBytes_append_singleton,
      hdiv, ih,
      hlast]

end Astoria.BigEndian
