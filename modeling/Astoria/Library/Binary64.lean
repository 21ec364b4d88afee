import Mathlib.Data.Int.Log
import Mathlib.Data.Rat.Floor
import Mathlib.Tactic.FieldSimp
import Mathlib.Tactic.Linarith
import Mathlib.Tactic.NormNum
import Mathlib.Tactic.Positivity
import Mathlib.Tactic.Ring

/-!
# Binary floating-point numbers

The numbers of 64 bits and their arithmetic.  A finite number is an integer of at most 53 bits times
a power of two, and the result of an operation is the closest number, or the even one of two.  A
result that is too large is infinite, and one that has no value is not a number.  There is one zero
here, not one of each sign.
-/

namespace Binary64

/-! ### Rounding -/

/-- The closest integer, or the even one of two. -/
def roundEven (x : ℚ) : ℤ :=
  if Int.fract x < 1 / 2 then ⌊x⌋
  else if 1 / 2 < Int.fract x then ⌊x⌋ + 1
  else if Even ⌊x⌋ then ⌊x⌋ else ⌊x⌋ + 1

/-- The exponent of the distance between the numbers at `x`. -/
def ulpExponent (x : ℚ) : ℤ := max (Int.log 2 |x| - 52) (-1074)

/-- The closest number, without regard to size. -/
def nearest (x : ℚ) : ℚ := roundEven (x / 2 ^ ulpExponent x) * 2 ^ ulpExponent x

/-- An integer of at most 53 bits times a power of two. -/
def Representable (x : ℚ) : Prop := ∃ m e : ℤ, |m| ≤ 2 ^ 53 ∧ -1074 ≤ e ∧ x = m * 2 ^ e

section Rounding

variable {x y z : ℚ}

lemma abs_roundEven_sub_le (x : ℚ) : |(roundEven x : ℚ) - x| ≤ 1 / 2 := by
  have hfloor := Int.floor_add_fract x
  have hnonneg := Int.fract_nonneg x
  have hlt := Int.fract_lt_one x
  rw [roundEven, abs_le]
  split_ifs <;> push_cast <;> constructor <;> linarith

lemma roundEven_intCast (n : ℤ) : roundEven n = n := by simp [roundEven]

/-- Rounding is monotone, because it moves a number by one half at most. -/
lemma roundEven_mono (h : x ≤ y) : roundEven x ≤ roundEven y := by
  by_contra hlt
  have hstep : (roundEven y : ℚ) + 1 ≤ roundEven x := by exact_mod_cast not_le.mp hlt
  have hx := (abs_le.mp (abs_roundEven_sub_le x)).2
  have hy := (abs_le.mp (abs_roundEven_sub_le y)).1
  have heq : x = y := by linarith
  exact hlt (heq ▸ le_refl _)

lemma two_zpow_pos (e : ℤ) : (0 : ℚ) < 2 ^ e := zpow_pos two_pos e

lemma ulpExponent_ge (x : ℚ) : -1074 ≤ ulpExponent x := le_max_right _ _

/-- Either the numbers at `x` have the smallest distance, or `x` has 53 bits. -/
lemma ulpExponent_cases (hx : x ≠ 0) :
    ulpExponent x = -1074 ∨ (2 : ℚ) ^ (ulpExponent x + 52) ≤ |x| := by
  rcases max_choice (Int.log 2 |x| - 52) (-1074) with h | h
  · right
    rw [ulpExponent, h, sub_add_cancel]
    exact_mod_cast Int.zpow_log_le_self one_lt_two (abs_pos.mpr hx)
  · exact .inl h

lemma abs_lt_zpow_ulpExponent (x : ℚ) : |x| < 2 ^ 53 * (2 : ℚ) ^ ulpExponent x := by
  calc |x| < 2 ^ (Int.log 2 |x| + 1) := by exact_mod_cast Int.lt_zpow_succ_log_self one_lt_two |x|
    _ ≤ 2 ^ (53 + ulpExponent x) := by
        refine zpow_le_zpow_right₀ one_le_two ?_
        have := le_max_left (Int.log 2 |x| - 52) (-1074)
        rw [ulpExponent]
        omega
    _ = 2 ^ 53 * 2 ^ ulpExponent x := by rw [zpow_add₀ two_ne_zero]; norm_num

/-- A number with 53 bits at a distance is a multiple of it. -/
lemma Representable.exists_int (hz : Representable z) {e : ℤ}
    (he : e = -1074 ∨ (2 : ℚ) ^ (e + 52) ≤ |z|) : ∃ n : ℤ, z = n * 2 ^ e := by
  obtain ⟨m, k, hm, hk, rfl⟩ := hz
  rcases le_or_gt e k with hek | hke
  · refine ⟨m * 2 ^ (k - e).toNat, ?_⟩
    have hpow : (2 : ℚ) ^ k = 2 ^ (k - e).toNat * 2 ^ e := by
      rw [← zpow_natCast, ← zpow_add₀ two_ne_zero, Int.toNat_of_nonneg (by omega), sub_add_cancel]
    rw [hpow]
    push_cast
    ring
  · -- it has one bit only, and is as large as it can be
    have hle := he.resolve_left (by omega)
    have hpos := two_zpow_pos k
    have hm' : |(m : ℚ)| ≤ 2 ^ 53 := by exact_mod_cast hm
    have hexp : (2 : ℚ) ^ (e + 52) = 2 ^ 52 * 2 ^ e := by
      rw [zpow_add₀ two_ne_zero, mul_comm]
      norm_num
    have hstep : 2 * (2 : ℚ) ^ k ≤ 2 ^ e := by
      calc 2 * (2 : ℚ) ^ k = 2 ^ (k + 1) := by rw [zpow_add_one₀ two_ne_zero, mul_comm]
        _ ≤ 2 ^ e := zpow_le_zpow_right₀ one_le_two (by omega)
    rw [abs_mul, abs_of_pos hpos, hexp] at hle
    have hge : |(m : ℚ)| * 2 ^ k ≤ 2 ^ 52 * 2 ^ e := by
      calc |(m : ℚ)| * 2 ^ k ≤ 2 ^ 53 * 2 ^ k := mul_le_mul_of_nonneg_right hm' hpos.le
        _ = 2 ^ 52 * (2 * 2 ^ k) := by ring
        _ ≤ 2 ^ 52 * 2 ^ e := mul_le_mul_of_nonneg_left hstep (by positivity)
    have habs : |(m : ℚ) * 2 ^ k| = 2 ^ 52 * 2 ^ e := by
      rw [abs_mul, abs_of_pos hpos]
      exact le_antisymm hge hle
    rcases abs_choice ((m : ℚ) * 2 ^ k) with h | h
    · exact ⟨2 ^ 52, by rw [← h, habs]; norm_num⟩
    · exact ⟨-2 ^ 52, by rw [← neg_eq_iff_eq_neg.mpr h, habs]; norm_num⟩

lemma nearest_mul (n : ℤ) (h : x = n * 2 ^ ulpExponent x) : nearest x = x := by
  have hdiv : x / 2 ^ ulpExponent x = n := (div_eq_iff (two_zpow_pos _).ne').mpr h
  rw [nearest, hdiv, roundEven_intCast, ← h]

/-- A number is rounded to itself. -/
lemma Representable.nearest_eq (hx : Representable x) : nearest x = x := by
  by_cases h0 : x = 0
  · exact nearest_mul 0 (by rw [h0]; simp)
  · obtain ⟨n, hn⟩ := hx.exists_int (ulpExponent_cases h0)
    exact nearest_mul n hn

lemma le_nearest_of_int {n : ℤ} (h : n * 2 ^ ulpExponent x ≤ x) :
    n * 2 ^ ulpExponent x ≤ nearest x := by
  refine mul_le_mul_of_nonneg_right ?_ (two_zpow_pos _).le
  have hmono := roundEven_mono ((le_div_iff₀ (two_zpow_pos _)).mpr h)
  rw [roundEven_intCast] at hmono
  exact_mod_cast hmono

lemma nearest_le_of_int {n : ℤ} (h : x ≤ n * 2 ^ ulpExponent x) :
    nearest x ≤ n * 2 ^ ulpExponent x := by
  refine mul_le_mul_of_nonneg_right ?_ (two_zpow_pos _).le
  have hmono := roundEven_mono ((div_le_iff₀ (two_zpow_pos _)).mpr h)
  rw [roundEven_intCast] at hmono
  exact_mod_cast hmono

/-- Rounding does not pass a number on its way down. -/
lemma Representable.le_nearest (hz : Representable z) (h0 : 0 ≤ z) (h : z ≤ x) : z ≤ nearest x := by
  rcases h0.eq_or_lt with rfl | hpos
  · have := @le_nearest_of_int x 0 (by simpa using h)
    simpa using this
  · have hx : 0 < x := hpos.trans_le h
    rcases ulpExponent_cases hx.ne' with he | he
    · obtain ⟨n, hn⟩ := hz.exists_int (.inl he)
      rw [hn]
      exact le_nearest_of_int (hn ▸ h)
    · rw [abs_of_pos hx] at he
      rcases le_or_gt (2 ^ (ulpExponent x + 52)) z with hge | hlt
      · obtain ⟨n, hn⟩ := hz.exists_int (e := ulpExponent x) (.inr (by rwa [abs_of_pos hpos]))
        rw [hn]
        exact le_nearest_of_int (hn ▸ h)
      · have hpow : (2 : ℚ) ^ (ulpExponent x + 52) = ((2 ^ 52 : ℤ) : ℚ) * 2 ^ ulpExponent x := by
          rw [zpow_add₀ two_ne_zero, mul_comm]
          norm_num
        rw [hpow] at he hlt
        exact hlt.le.trans (le_nearest_of_int he)

/-- Rounding does not pass a number on its way up. -/
lemma Representable.nearest_le (hz : Representable z) (h0 : 0 ≤ x) (h : x ≤ z) : nearest x ≤ z := by
  rcases h0.eq_or_lt with rfl | hpos
  · rwa [nearest_mul 0 (by simp)]
  · obtain ⟨n, hn⟩ := hz.exists_int ((ulpExponent_cases hpos.ne').imp_right fun he => he.trans
      (by rw [abs_of_pos hpos]; exact h.trans (le_abs_self z)))
    rw [hn]
    exact nearest_le_of_int (hn ▸ h)

lemma representable_natCast {n : ℕ} (hn : n ≤ 2 ^ 53) : Representable n :=
  ⟨n, 0, by rw [Nat.abs_cast]; exact_mod_cast hn, by norm_num, by simp⟩

lemma representable_zero : Representable 0 := by simpa using representable_natCast (Nat.zero_le _)

lemma representable_one : Representable 1 := by simpa using @representable_natCast 1 (by norm_num)

lemma representable_zpow (k : ℤ) (hk : -1074 ≤ k) (hx : x = 2 ^ k) : Representable x :=
  ⟨1, k, by norm_num, hk, by rw [hx, Int.cast_one, one_mul]⟩

lemma nearest_nonneg (h : 0 ≤ x) : 0 ≤ nearest x := representable_zero.le_nearest le_rfl h

lemma representable_nearest (x : ℚ) : Representable (nearest x) := by
  refine ⟨_, _, abs_le.mpr ?_, ulpExponent_ge x, rfl⟩
  have h := abs_lt.mp (abs_lt_zpow_ulpExponent x)
  have hpos := two_zpow_pos (ulpExponent x)
  have hlow := roundEven_mono (x := ((-2 ^ 53 : ℤ) : ℚ)) (y := x / 2 ^ ulpExponent x) (by
    rw [le_div_iff₀ hpos]
    push_cast
    linarith)
  have hhigh := roundEven_mono (x := x / 2 ^ ulpExponent x) (y := ((2 ^ 53 : ℤ) : ℚ)) (by
    rw [div_le_iff₀ hpos]
    push_cast
    linarith)
  rw [roundEven_intCast] at hlow hhigh
  exact ⟨hlow, hhigh⟩

/-- **The error of rounding**: half of the last of 53 bits, or half of the smallest number. -/
lemma abs_nearest_sub_le (x : ℚ) : |nearest x - x| ≤ |x| / 2 ^ 53 + 1 / 2 ^ 1075 := by
  by_cases h0 : x = 0
  · rw [h0, nearest_mul 0 (by simp)]
    norm_num
  have hpos := two_zpow_pos (ulpExponent x)
  have herr : |nearest x - x| ≤ 1 / 2 * 2 ^ ulpExponent x := by
    have hsub : nearest x - x =
        (roundEven (x / 2 ^ ulpExponent x) - x / 2 ^ ulpExponent x) * 2 ^ ulpExponent x := by
      rw [sub_mul, div_mul_cancel₀ _ hpos.ne', nearest]
    rw [hsub, abs_mul, abs_of_pos hpos]
    exact mul_le_mul_of_nonneg_right (abs_roundEven_sub_le _) hpos.le
  refine herr.trans ?_
  have hnonneg := abs_nonneg x
  rcases ulpExponent_cases h0 with he | he
  · have hmin : 1 / 2 * (2 : ℚ) ^ (-1074 : ℤ) = 1 / 2 ^ 1075 := by
      rw [zpow_neg, zpow_ofNat, pow_succ' 2 1074, one_div, one_div, mul_inv]
    rw [he, hmin]
    exact le_add_of_nonneg_left (by positivity)
  · have hpow : (2 : ℚ) ^ (ulpExponent x + 52) = 2 ^ 52 * 2 ^ ulpExponent x := by
      rw [zpow_add₀ two_ne_zero, mul_comm]
      norm_num
    rw [hpow] at he
    have hle : 1 / 2 * (2 : ℚ) ^ ulpExponent x ≤ |x| / 2 ^ 53 := by
      rw [le_div_iff₀ (by positivity)]
      linarith
    exact hle.trans (le_add_of_nonneg_right (by positivity))

end Rounding

end Binary64

/-! ### Numbers -/

/-- A number of 64 bits: a finite one, an infinite one or none at all. -/
inductive Binary64 where
  | finite (x : ℚ) (representable : Binary64.Representable x) (lt : |x| < 2 ^ 1024)
  | infinite (negative : Bool)
  | nan
  deriving DecidableEq

namespace Binary64

open List

/-- The number that stands for `x`: the closest one, or an infinite one. -/
def ofRat (x : ℚ) : Binary64 :=
  if h : |nearest x| < 2 ^ 1024 then .finite (nearest x) (representable_nearest x) h
  else .infinite (nearest x < 0)

instance : Zero Binary64 := ⟨.finite 0 representable_zero (by norm_num)⟩

instance : One Binary64 :=
  ⟨.finite 1 representable_one (by rw [abs_one]; exact one_lt_pow₀ one_lt_two (by norm_num))⟩

def neg : Binary64 → Binary64
  | .finite x _ _ => ofRat (-x)
  | .infinite negative => .infinite !negative
  | .nan => .nan

def add : Binary64 → Binary64 → Binary64
  | .finite x _ _, .finite y _ _ => ofRat (x + y)
  | .finite _ _ _, .infinite negative => .infinite negative
  | .infinite negative, .finite _ _ _ => .infinite negative
  | .infinite negative, .infinite negative' => if negative = negative' then .infinite negative
    else .nan
  | .nan, _ => .nan
  | _, .nan => .nan

def mul : Binary64 → Binary64 → Binary64
  | .finite x _ _, .finite y _ _ => ofRat (x * y)
  | .finite x _ _, .infinite negative => if x = 0 then .nan else .infinite (xor negative (x < 0))
  | .infinite negative, .finite y _ _ => if y = 0 then .nan else .infinite (xor negative (y < 0))
  | .infinite negative, .infinite negative' => .infinite (xor negative negative')
  | .nan, _ => .nan
  | _, .nan => .nan

def div : Binary64 → Binary64 → Binary64
  | .finite x _ _, .finite y _ _ =>
    if y ≠ 0 then ofRat (x / y) else if x = 0 then .nan else .infinite (x < 0)
  | .finite _ _ _, .infinite _ => 0
  | .infinite negative, .finite y _ _ => .infinite (xor negative (y < 0))
  | .infinite _, .infinite _ => .nan
  | .nan, _ => .nan
  | _, .nan => .nan

def lt : Binary64 → Binary64 → Bool
  | .finite x _ _, .finite y _ _ => x < y
  | .finite _ _ _, .infinite negative => !negative
  | .infinite negative, .finite _ _ _ => negative
  | .infinite negative, .infinite negative' => negative && !negative'
  | .nan, _ => false
  | _, .nan => false

def le : Binary64 → Binary64 → Bool
  | .finite x _ _, .finite y _ _ => x ≤ y
  | .finite _ _ _, .infinite negative => !negative
  | .infinite negative, .finite _ _ _ => negative
  | .infinite negative, .infinite negative' => negative || !negative'
  | .nan, _ => false
  | _, .nan => false

instance : Neg Binary64 := ⟨neg⟩

instance : Add Binary64 := ⟨add⟩

instance : Sub Binary64 := ⟨fun a b => a + -b⟩

instance : Mul Binary64 := ⟨mul⟩

instance : Div Binary64 := ⟨div⟩

instance : LT Binary64 := ⟨fun a b => lt a b = true⟩

instance : LE Binary64 := ⟨fun a b => le a b = true⟩

instance (a b : Binary64) : Decidable (a < b) := inferInstanceAs (Decidable (_ = true))

instance (a b : Binary64) : Decidable (a ≤ b) := inferInstanceAs (Decidable (_ = true))

example : ofRat (1 / 10) + ofRat (2 / 10) ≠ ofRat (3 / 10) := by decide +kernel

section Arithmetic

variable {x y : ℚ} {a b : Binary64}

lemma ofRat_of_representable (hx : Representable x) (h : |x| < 2 ^ 1024) :
    ofRat x = .finite x hx h := by
  have heq := hx.nearest_eq
  simp only [ofRat, heq, h, dif_pos]

lemma ofRat_of_lt (h : |nearest x| < 2 ^ 1024) :
    ofRat x = .finite (nearest x) (representable_nearest x) h := dif_pos h

@[simp] lemma add_zero (a : Binary64) : a + 0 = a := by
  cases a with
  | finite x hx h =>
    change ofRat (x + 0) = _
    rw [Rat.add_zero, ofRat_of_representable hx h]
  | infinite negative => rfl
  | nan => rfl

@[simp] lemma mul_one (a : Binary64) : a * 1 = a := by
  cases a with
  | finite x hx h =>
    change ofRat (x * 1) = _
    rw [Rat.mul_one, ofRat_of_representable hx h]
  | infinite negative => cases negative <;> rfl
  | nan => rfl

lemma add_comm (a b : Binary64) : a + b = b + a := by
  cases a with
  | finite x hx h =>
    cases b with
    | finite y hy h' => exact congrArg ofRat (Rat.add_comm x y)
    | infinite negative => rfl
    | nan => rfl
  | infinite negative =>
    cases b with
    | finite y hy h' => rfl
    | infinite negative' => cases negative <;> cases negative' <;> rfl
    | nan => rfl
  | nan => cases b <;> rfl

lemma one_mul (a : Binary64) : 1 * a = a := by
  cases a with
  | finite x hx h =>
    change ofRat (1 * x) = _
    rw [Rat.one_mul, ofRat_of_representable hx h]
  | infinite negative => cases negative <;> rfl
  | nan => rfl

lemma finite_div_finite (hx : Representable x) (hx' : |x| < 2 ^ 1024) (hy : Representable y)
    (hy' : |y| < 2 ^ 1024) (h0 : y ≠ 0) : finite x hx hx' / finite y hy hy' = ofRat (x / y) :=
  if_pos h0

/-- A number divided by itself is one, or has no value. -/
lemma div_self_cases (a : Binary64) : a / a = 1 ∨ a / a = nan := by
  cases a with
  | finite x hx h =>
    by_cases h0 : x = 0
    · right
      change (if x ≠ 0 then ofRat (x / x) else if x = 0 then nan else infinite (x < 0)) = nan
      rw [if_neg (not_not.mpr h0), if_pos h0]
    · left
      rw [finite_div_finite _ _ _ _ h0, div_self h0]
      exact ofRat_of_representable representable_one _
  | infinite negative => exact .inr rfl
  | nan => exact .inr rfl

lemma sub_self_one : (1 : Binary64) - 1 = 0 := by decide +kernel

@[simp] lemma nan_add (a : Binary64) : nan + a = nan := rfl

@[simp] lemma nan_div (a : Binary64) : nan / a = nan := rfl

@[simp] lemma add_nan (a : Binary64) : a + nan = nan := by cases a <;> rfl

@[simp] lemma div_nan (a : Binary64) : a / nan = nan := by cases a <;> rfl

/-- A number that is not negative: none at all, the infinite one or a finite one. -/
lemma not_neg_cases (ha : ¬ a < 0) :
    a = nan ∨ a = infinite false ∨ ∃ x hx h, a = finite x hx h ∧ 0 ≤ x := by
  cases a with
  | finite x hx h => exact .inr (.inr ⟨x, hx, h, rfl, not_lt.mp fun hlt => ha (decide_eq_true hlt)⟩)
  | infinite negative =>
    cases negative with
    | false => exact .inr (.inl rfl)
    | true => exact absurd rfl ha
  | nan => exact .inl rfl

lemma ofRat_not_neg (hx : 0 ≤ x) : ¬ ofRat x < 0 := by
  have hnonneg := not_lt.mpr (nearest_nonneg hx)
  unfold ofRat
  split_ifs with h
  · exact fun hlt => hnonneg (of_decide_eq_true hlt)
  · exact fun hlt => hnonneg (of_decide_eq_true hlt)

lemma add_not_neg (ha : ¬ a < 0) (hb : ¬ b < 0) : ¬ a + b < 0 := by
  rcases not_neg_cases ha with rfl | rfl | ⟨x, hx, h, rfl, h0⟩
  · exact Bool.false_ne_true
  · rcases not_neg_cases hb with rfl | rfl | ⟨y, hy, h', rfl, h0'⟩ <;> exact Bool.false_ne_true
  · rcases not_neg_cases hb with rfl | rfl | ⟨y, hy, h', rfl, h0'⟩
    · exact Bool.false_ne_true
    · exact Bool.false_ne_true
    · exact ofRat_not_neg (add_nonneg h0 h0')

lemma mul_not_neg (ha : ¬ a < 0) (hb : ¬ b < 0) : ¬ a * b < 0 := by
  have hinf {x : ℚ} (h0 : 0 ≤ x) : ¬ (if x = 0 then nan else infinite (xor false (x < 0))) < 0 := by
    rw [decide_eq_false (not_lt.mpr h0)]
    split_ifs <;> exact Bool.false_ne_true
  rcases not_neg_cases ha with rfl | rfl | ⟨x, hx, h, rfl, h0⟩
  · exact Bool.false_ne_true
  · rcases not_neg_cases hb with rfl | rfl | ⟨y, hy, h', rfl, h0'⟩
    · exact Bool.false_ne_true
    · exact Bool.false_ne_true
    · exact hinf h0'
  · rcases not_neg_cases hb with rfl | rfl | ⟨y, hy, h', rfl, h0'⟩
    · exact Bool.false_ne_true
    · exact hinf h0
    · exact ofRat_not_neg (mul_nonneg h0 h0')

lemma div_not_neg (ha : ¬ a < 0) (hb : ¬ b < 0) : ¬ a / b < 0 := by
  rcases not_neg_cases ha with rfl | rfl | ⟨x, hx, h, rfl, h0⟩
  · exact Bool.false_ne_true
  · rcases not_neg_cases hb with rfl | rfl | ⟨y, hy, h', rfl, h0'⟩
    · exact Bool.false_ne_true
    · exact Bool.false_ne_true
    · change ¬ infinite (xor false (decide (y < 0))) < 0
      rw [decide_eq_false (not_lt.mpr h0')]
      exact Bool.false_ne_true
  · rcases not_neg_cases hb with rfl | rfl | ⟨y, hy, h', rfl, h0'⟩
    · exact Bool.false_ne_true
    · exact Bool.false_ne_true
    · change ¬ (if y ≠ 0 then ofRat (x / y) else if x = 0 then nan else infinite (x < 0)) < 0
      split_ifs
      · exact ofRat_not_neg (div_nonneg h0 h0')
      · exact Bool.false_ne_true
      · rw [decide_eq_false (not_lt.mpr h0)]
        exact Bool.false_ne_true

/-- Whether a number is finite. -/
def isFinite : Binary64 → Bool
  | .finite _ _ _ => true
  | _ => false

/-- The value of a finite number. -/
def toRat : Binary64 → ℚ
  | .finite x _ _ => x
  | _ => 0

lemma finite_cases (ha : ¬ a < 0) (hf : a.isFinite = true) :
    ∃ x hx h, a = finite x hx h ∧ 0 ≤ x := by
  rcases not_neg_cases ha with rfl | rfl | h
  · cases hf
  · cases hf
  · exact h

lemma le_trans {c : Binary64} (hab : a ≤ b) (hbc : b ≤ c) : a ≤ c := by
  change le a b = true at hab
  change le b c = true at hbc
  change le a c = true
  cases a <;> cases b <;> cases c <;> simp_all [le]
  · exact hab.trans hbc
  · rcases hab with h | h
    · exact .inl h
    · exact hbc.imp_left fun h' => absurd (h.symm.trans h') Bool.false_ne_true

lemma not_lt_of_le (h : a ≤ b) : ¬ b < a := by
  change le a b = true at h
  change ¬ lt b a = true
  cases a <;> cases b <;> simp_all [le, lt]
  · exact fun hb => h.resolve_right fun hb' => absurd (hb'.symm.trans hb) Bool.false_ne_true

lemma lt_of_lt_of_le {c : Binary64} (hab : a < b) (hbc : b ≤ c) : a < c := by
  change lt a b = true at hab
  change le b c = true at hbc
  change lt a c = true
  cases a <;> cases b <;> cases c <;> simp_all [lt, le]
  · exact hab.trans_le hbc

lemma le_add (ha : ¬ a < 0) (hb : ¬ b < 0) (h : a + b ≠ nan) : a ≤ a + b := by
  rcases not_neg_cases ha with rfl | rfl | ⟨x, hx, hx', rfl, h0⟩
  · exact absurd rfl h
  · rcases not_neg_cases hb with rfl | rfl | ⟨y, hy, hy', rfl, -⟩
    · exact absurd rfl h
    · rfl
    · rfl
  · rcases not_neg_cases hb with rfl | rfl | ⟨y, hy, hy', rfl, h0'⟩
    · exact absurd rfl h
    · rfl
    · have hle := hx.le_nearest h0 (le_add_of_nonneg_right h0')
      change finite x hx hx' ≤ ofRat (x + y)
      unfold ofRat
      split_ifs with hlt
      · exact decide_eq_true hle
      · rw [decide_eq_false (not_lt.mpr (h0.trans hle))]
        rfl

/-- The quotient of a finite number by a greater one is finite. -/
lemma isFinite_div (ha : ¬ a < 0) (hf : a.isFinite = true) (hpos : 0 < b) (hle : a ≤ b) :
    (a / b).isFinite = true := by
  obtain ⟨x, hx, hx', rfl, h0⟩ := finite_cases ha hf
  cases b with
  | finite y hy hy' =>
    have hy0 : 0 < y := of_decide_eq_true hpos
    have hxy : x ≤ y := of_decide_eq_true hle
    have hq : 0 ≤ x / y := div_nonneg h0 hy0.le
    have hone := representable_one.nearest_le hq ((div_le_one hy0).mpr hxy)
    rw [finite_div_finite _ _ _ _ hy0.ne', ofRat_of_lt]
    · rfl
    · rw [abs_of_nonneg (nearest_nonneg hq)]
      exact hone.trans_lt (one_lt_pow₀ one_lt_two (by norm_num))
  | infinite negative => rfl
  | nan => cases hle

end Arithmetic

/-! ### Sums -/

/-- The sum of some numbers, added from the first to the last. -/
def sum (l : List Binary64) : Binary64 := l.foldl (· + ·) 0

section Sum

variable {a : Binary64} {l : List Binary64} {i j : ℕ}

lemma sum_append_singleton (l : List Binary64) (a : Binary64) : sum (l ++ [a]) = sum l + a := by
  rw [sum, foldl_append]
  rfl

lemma sum_take_succ (hi : i < l.length) : sum (l.take (i + 1)) = sum (l.take i) + l[i] := by
  rw [take_add_one, getElem?_eq_getElem hi, Option.toList_some, sum_append_singleton]

lemma sum_not_neg (hl : ∀ a ∈ l, ¬ a < 0) : ¬ sum l < 0 := by
  induction l using reverseRecOn with
  | nil => decide +kernel
  | append_singleton l a ih =>
    rw [sum_append_singleton]
    exact add_not_neg (ih fun b hb => hl b (mem_append_left _ hb)) (hl a (by simp))

lemma sum_eq_nan (h : nan ∈ l) : sum l = nan := by
  induction l using reverseRecOn with
  | nil => cases h
  | append_singleton l a ih =>
    rw [sum_append_singleton]
    rcases mem_append.mp h with h | h
    · rw [ih h, nan_add]
    · rw [← mem_singleton.mp h, add_nan]

lemma le_refl_of_ne_nan (h : a ≠ nan) : a ≤ a := by
  cases a with
  | finite x hx h => exact decide_eq_true le_rfl
  | infinite negative => cases negative <;> rfl
  | nan => exact absurd rfl h

/-- The sums of the beginnings do not decrease, as long as they are numbers. -/
lemma sum_take_le (hl : ∀ a ∈ l, ¬ a < 0) (hij : i ≤ j) :
    sum (l.take j) = nan ∨ sum (l.take i) ≤ sum (l.take j) := by
  induction j with
  | zero =>
    rw [Nat.le_zero.mp hij]
    exact .inr rfl
  | succ j ih =>
    rcases hij.lt_or_eq with hlt | rfl
    · rcases Nat.lt_or_ge j l.length with hj | hj
      · rw [sum_take_succ hj]
        rcases ih (Nat.le_of_lt_succ hlt) with hnan | hle
        · rw [hnan]
          exact .inl rfl
        · refine or_iff_not_imp_left.mpr fun hne => le_trans hle ?_
          exact le_add (sum_not_neg fun a ha => hl a (mem_of_mem_take ha))
            (hl _ (getElem_mem hj)) hne
      · have heq : l.take (j + 1) = l.take j := by
          rw [take_of_length_le (by omega), take_of_length_le hj]
        rw [heq]
        exact ih (Nat.le_of_lt_succ hlt)
    · exact or_iff_not_imp_left.mpr le_refl_of_ne_nan

/-- A member of a list is at most its sum, if that is a number. -/
lemma le_sum (hl : ∀ a ∈ l, ¬ a < 0) (ha : a ∈ l) (h : sum l ≠ nan) : a ≤ sum l := by
  obtain ⟨i, hi, rfl⟩ := mem_iff_getElem.mp ha
  have hle := (sum_take_le hl (Nat.succ_le_of_lt hi)).resolve_left (by rwa [take_length])
  rw [take_length] at hle
  rw [Nat.succ_eq_add_one, sum_take_succ hi, add_comm] at hle
  refine le_trans (le_add (hl _ ha) (sum_not_neg fun a ha => hl a (mem_of_mem_take ha)) ?_) hle
  intro hnan
  rw [hnan] at hle
  cases hle

lemma isFinite_of_add {b : Binary64} (h : (a + b).isFinite = true) :
    a.isFinite = true ∧ b.isFinite = true := by
  cases a with
  | finite x hx hx' =>
    cases b with
    | finite y hy hy' => exact ⟨rfl, rfl⟩
    | infinite negative => cases h
    | nan => cases h
  | infinite negative =>
    cases b with
    | finite y hy hy' => cases h
    | infinite negative' => cases negative <;> cases negative' <;> cases h
    | nan => cases h
  | nan => cases h

lemma isFinite_of_sum (h : (sum l).isFinite = true) (ha : a ∈ l) : a.isFinite = true := by
  induction l using reverseRecOn with
  | nil => cases ha
  | append_singleton l b ih =>
    rw [sum_append_singleton] at h
    rcases mem_append.mp ha with ha | ha
    · exact ih (isFinite_of_add h).1 ha
    · rw [mem_singleton.mp ha]
      exact (isFinite_of_add h).2

/-- **The error of a sum**: one rounding for every number. -/
lemma sum_spec (hl : ∀ a ∈ l, ¬ a < 0) (hf : ∀ a ∈ l, a.isFinite = true) :
    sum l = infinite false ∨ ∃ t ht h, sum l = finite t ht h ∧ 0 ≤ t ∧
      (l.map toRat).sum * (1 - 1 / 2 ^ 53) ^ l.length ≤ t + l.length / 2 ^ 1075 := by
  induction l using reverseRecOn with
  | nil => exact .inr ⟨0, _, _, rfl, le_rfl, by simp⟩
  | append_singleton l a ih =>
    obtain ⟨x, hx, hx', rfl, h0⟩ := finite_cases (hl a (by simp)) (hf a (by simp))
    rw [sum_append_singleton]
    rcases ih (fun b hb => hl b (mem_append_left _ hb)) (fun b hb => hf b (mem_append_left _ hb))
      with hinf | ⟨t, ht, ht', heq, ht0, hle⟩
    · rw [hinf]
      exact .inl rfl
    · have hsum : sum l + finite x hx hx' = ofRat (t + x) := by
        rw [heq]
        rfl
      have htx : 0 ≤ t + x := Rat.add_nonneg ht0 h0
      rw [hsum, ofRat]
      split_ifs with hlt
      · refine .inr ⟨nearest (t + x), representable_nearest _, hlt, rfl, nearest_nonneg htx, ?_⟩
        have herr := (abs_le.mp (abs_nearest_sub_le (t + x))).1
        rw [abs_of_nonneg htx] at herr
        have hxu : x * (1 - 1 / 2 ^ 53) ^ l.length ≤ x :=
          mul_le_of_le_one_right h0 (pow_le_one₀ (by norm_num) (by norm_num))
        have hn : (0 : ℚ) ≤ l.length / 2 ^ 1075 :=
          div_nonneg (Nat.cast_nonneg _) (pow_nonneg zero_le_two _)
        rw [map_append, sum_append, length_append, length_singleton, Nat.cast_succ,
          add_div, pow_succ, ← mul_assoc, map_singleton, sum_singleton]
        change ((l.map toRat).sum + x) * (1 - 1 / 2 ^ 53) ^ l.length * (1 - 1 / 2 ^ 53) ≤ _
        generalize (1 - 1 / 2 ^ 53 : ℚ) ^ l.length = u at hle hxu ⊢
        generalize (1 / 2 ^ 1075 : ℚ) = δ at herr ⊢
        generalize (l.length : ℚ) / 2 ^ 1075 = d at hle hn ⊢
        calc ((l.map toRat).sum + x) * u * (1 - 1 / 2 ^ 53)
            ≤ (t + d + x) * (1 - 1 / 2 ^ 53) := by
              refine mul_le_mul_of_nonneg_right ?_ (by norm_num)
              linarith
          _ ≤ nearest (t + x) + (d + δ) := by linarith
      · rw [decide_eq_false (not_lt.mpr (nearest_nonneg htx))]
        exact .inl rfl

lemma sum_ne_nan (hl : ∀ a ∈ l, ¬ a < 0) (hf : ∀ a ∈ l, a.isFinite = true) : sum l ≠ nan := by
  rcases sum_spec hl hf with h | ⟨t, ht, h', h, -⟩
  · rw [h]
    exact Binary64.noConfusion
  · rw [h]
    exact Binary64.noConfusion

end Sum

/-! ### Bounds -/

/-- A finite number between two bounds. -/
def Within (lo hi : ℚ) (a : Binary64) : Prop := ∃ x hx h, a = finite x hx h ∧ lo ≤ x ∧ x ≤ hi

section Bounds

variable {lo hi lo' hi' x : ℚ} {a b : Binary64} {l : List Binary64}

lemma Within.not_neg (h : Within lo hi a) (h0 : 0 ≤ lo) : ¬ a < 0 := by
  obtain ⟨x, hx, hx', rfl, hlo, -⟩ := h
  exact fun hlt => not_lt.mpr (h0.trans hlo) (of_decide_eq_true hlt)

lemma Within.pos (h : Within lo hi a) (h0 : 0 < lo) : 0 < a := by
  obtain ⟨x, hx, hx', rfl, hlo, -⟩ := h
  exact decide_eq_true (h0.trans_le hlo)

lemma Within.mono (h : Within lo hi a) (hlo : lo' ≤ lo) (hhi : hi ≤ hi') : Within lo' hi' a := by
  obtain ⟨x, hx, hx', rfl, hlow, hhigh⟩ := h
  exact ⟨x, hx, hx', rfl, hlo.trans hlow, hhigh.trans hhi⟩

lemma within_ofRat (hlo : Representable lo) (h0 : 0 ≤ lo) (hhi : Representable hi)
    (hmax : hi < 2 ^ 1024) (hx : lo ≤ x) (hx' : x ≤ hi) : Within lo hi (ofRat x) := by
  have hle := hhi.nearest_le (h0.trans hx) hx'
  have hlt : |nearest x| < 2 ^ 1024 := by
    rw [abs_of_nonneg (nearest_nonneg (h0.trans hx))]
    exact hle.trans_lt hmax
  exact ⟨_, _, hlt, ofRat_of_lt hlt, hlo.le_nearest h0 hx, hle⟩

lemma Within.mul (ha : Within lo hi a) (hb : Within lo' hi' b) (h0 : 0 ≤ lo) (h0' : 0 ≤ lo')
    (hlo : Representable (lo * lo')) (hhi : Representable (hi * hi')) (hmax : hi * hi' < 2 ^ 1024) :
    Within (lo * lo') (hi * hi') (a * b) := by
  obtain ⟨x, hx, h, rfl, hlox, hxhi⟩ := ha
  obtain ⟨y, hy, h', rfl, hloy, hyhi⟩ := hb
  exact within_ofRat hlo (mul_nonneg h0 h0') hhi hmax (mul_le_mul hlox hloy h0' (h0.trans hlox))
    (mul_le_mul hxhi hyhi (h0'.trans hloy) ((h0.trans hlox).trans hxhi))

lemma Within.div (ha : Within lo hi a) (hb : Within lo' hi' b) (h0 : 0 ≤ lo) (h0' : 0 < lo')
    (hlo : Representable (lo / hi')) (hhi : Representable (hi / lo')) (hmax : hi / lo' < 2 ^ 1024) :
    Within (lo / hi') (hi / lo') (a / b) := by
  obtain ⟨x, hx, h, rfl, hlox, hxhi⟩ := ha
  obtain ⟨y, hy, h', rfl, hloy, hyhi⟩ := hb
  have hy0 : 0 < y := h0'.trans_le hloy
  rw [finite_div_finite _ _ _ _ hy0.ne']
  exact within_ofRat hlo (div_nonneg h0 (hy0.le.trans hyhi)) hhi hmax
    (div_le_div₀ (h0.trans hlox) hlox hy0 hyhi)
    (div_le_div₀ ((h0.trans hlox).trans hxhi) hxhi h0' hloy)

/-- The sum of numbers up to a power of two. -/
lemma within_sum {k : ℕ} (hk : k ≤ 900) (hlo : Representable lo) (h0 : 0 ≤ lo)
    (hl : ∀ a ∈ l, Within lo (2 ^ k) a) (hlen : l.length ≤ 2 ^ 53) (hne : l ≠ []) :
    Within lo (l.length * 2 ^ k) (sum l) := by
  induction l using reverseRecOn with
  | nil => exact absurd rfl hne
  | append_singleton l a ih =>
    obtain ⟨hinit, hlast⟩ := forall_mem_append.mp hl
    obtain ⟨x, hx, h, rfl, hlox, hxhi⟩ := hlast a (by simp)
    rw [length_append, length_singleton] at hlen ⊢
    have hhi : Representable (((l.length + 1 : ℕ) : ℚ) * 2 ^ k) :=
      ⟨(l.length + 1 : ℕ), k, by rw [Nat.abs_cast]; exact_mod_cast hlen, by omega, by simp⟩
    have hmax : ((l.length + 1 : ℕ) : ℚ) * 2 ^ k < 2 ^ 1024 := by
      calc ((l.length + 1 : ℕ) : ℚ) * 2 ^ k ≤ 2 ^ 53 * 2 ^ 900 := by
            refine mul_le_mul (by exact_mod_cast hlen) (pow_le_pow_right₀ one_le_two hk) ?_ ?_
            · exact pow_nonneg zero_le_two _
            · exact pow_nonneg zero_le_two _
        _ = 2 ^ 953 := (pow_add 2 53 900).symm
        _ < 2 ^ 1024 := pow_lt_pow_right₀ one_lt_two (by norm_num)
    have hsum : ∃ t ht h', sum l = finite t ht h' ∧ 0 ≤ t ∧ t ≤ l.length * 2 ^ k := by
      by_cases hnil : l = []
      · rw [hnil]
        exact ⟨0, _, _, rfl, le_rfl, by simp⟩
      · obtain ⟨t, ht, h', heq, hlot, hthi⟩ := ih hinit (by omega) hnil
        exact ⟨t, ht, h', heq, h0.trans hlot, hthi⟩
    obtain ⟨t, ht, h', heq, ht0, hthi⟩ := hsum
    rw [sum_append_singleton, heq]
    refine within_ofRat hlo h0 hhi hmax (hlox.trans (le_add_of_nonneg_left ht0)) ?_
    rw [Nat.cast_succ, add_mul, Rat.one_mul]
    exact add_le_add hthi hxhi

end Bounds

end Binary64
