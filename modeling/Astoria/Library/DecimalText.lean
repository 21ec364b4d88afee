import Mathlib.Data.Nat.Digits.Defs

/-!
# Numbers in text

Decimal digits, the sign before them and the white space around them, and what reading the digits of
a number gives.
-/

namespace Astoria

open List

/-- The characters that number parsing skips around a number. -/
def isWhite (c : Char) : Bool := c = ' ' || (9 ≤ c.toNat && c.toNat ≤ 13)

/-- The value of a sequence of decimal digits, most significant first. -/
def digitsValue (ds : List Char) : ℕ := ds.foldl (fun v c => v * 10 + (c.toNat - '0'.toNat)) 0

/-- The sign of a number and the text after it. -/
def splitSign : List Char → Bool × List Char
  | '-' :: cs => (true, cs)
  | '+' :: cs => (false, cs)
  | cs => (false, cs)

def intText (x : ℤ) : List Char :=
  if x < 0 then '-' :: Nat.toDigits 10 x.natAbs else Nat.toDigits 10 x.natAbs

/-- Numbers that are not negative have no sign. -/
lemma intText_natCast (n : ℕ) : intText n = Nat.toDigits 10 n := by
  rw [intText, if_neg (by omega), Int.natAbs_natCast]

/-- The characters of a number are digits. -/
lemma isDigit_of_mem_toDigits {n : ℕ} {c : Char} (h : c ∈ Nat.toDigits 10 n) : c.isDigit = true :=
  Nat.isDigit_of_mem_toDigits (by decide) (by decide) h

lemma dropWhile_isWhite_of_isDigit {ds : List Char} (h : ∀ c ∈ ds, c.isDigit = true) :
    ds.dropWhile isWhite = ds := by
  cases ds with
  | nil => rfl
  | cons c ds =>
    have hc : (48 ≤ c.toNat) ∧ c.toNat ≤ 57 := by
      have := h c mem_cons_self
      simpa [Char.isDigit, UInt32.le_iff_toNat_le] using this
    have hne : c ≠ ' ' := by
      rintro rfl
      exact absurd hc.1 (by decide)
    have hwhite : isWhite c = false := by
      simp only [isWhite, hne, decide_false, Bool.false_or, Bool.and_eq_false_iff,
        decide_eq_false_iff_not]
      omega
    rw [dropWhile_cons_of_neg (by simp [hwhite])]

lemma splitSign_of_isDigit {ds : List Char} (h : ∀ c ∈ ds, c.isDigit = true) :
    splitSign ds = (false, ds) := by
  unfold splitSign
  split
  · exact absurd (h '-' mem_cons_self) (by decide)
  · exact absurd (h '+' mem_cons_self) (by decide)
  · rfl

lemma digitsValue_toDigits (n : ℕ) : digitsValue (Nat.toDigits 10 n) = n := by
  have hfold : ∀ (ds : List Char) (v : ℕ),
      ds.foldl (fun v c => v * 10 + (c.toNat - '0'.toNat)) v = Nat.ofDigitChars 10 ds v := by
    intro ds v
    rw [Nat.ofDigitChars]
    congr 1
    funext v c
    rw [mul_comm]
  rw [digitsValue, hfold, Nat.ofDigitChars_ten_toDigits]

end Astoria
