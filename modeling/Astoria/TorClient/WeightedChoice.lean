import Mathlib.Algebra.BigOperators.Ring.Finset
import Mathlib.Algebra.Order.Ring.Pow
import Mathlib.Data.Nat.Count
import Mathlib.Data.Rat.Floor
import Mathlib.Order.Interval.Finset.Nat
import Astoria.Library.Binary64
import Astoria.TorClient.Nodelist

/-!
# The choice of an index by weight

The loop over the weights does not stop at the index that a random number selects, so that its time
does not tell which one that is.  `pick_right` is the invariant of the loop, and `chosenByWeight`
says that each index is chosen by as many random numbers as its weight.
-/

namespace Astoria.WeightedChoice

open List
open Directory

/-! ### The functions -/

/-- Whether `a` is more than `b`, in the same time for all values (`gt_i64_timei`).  Where pointers
do not have 64 bits this is the sign of a difference. -/
def gtI64Timei (wide : Bool) (a b : UInt64) : Bool := if wide then b < a else (b - a) >>> 63 == 1

/-- `INT64_MAX`. -/
def int64Max : UInt64 := 9223372036854775807

/-- The variables of the loop of `choose_array_element_by_weight`. -/
structure Pick where
  totalSoFar : UInt64 := 0
  randVal : UInt64
  iChosen : ℤ := -1
  nChosen : ℕ := 0

/-- One turn of the loop. -/
def Pick.step (wide : Bool) (p : Pick) (entry : UInt64 × ℕ) : Pick :=
  let totalSoFar := p.totalSoFar + entry.1
  if gtI64Timei wide totalSoFar p.randVal then
    { totalSoFar, randVal := int64Max, iChosen := entry.2, nChosen := p.nChosen + 1 }
  else { p with totalSoFar }

/-- The loop. -/
def pick (wide : Bool) (entries : List UInt64) (rand : ℕ) : Pick :=
  entries.zipIdx.foldl (Pick.step wide) { randVal := .ofNat rand }

/-- An index that is chosen by the weights of the entries (`choose_array_element_by_weight`), or
nothing if an assertion fails.  `rand` is a random number below the total, or below the number of
entries if the total is zero. -/
def chooseArrayElementByWeight (wide : Bool) (entries : List UInt64) (rand : ℕ) : Option ℤ :=
  let total := entries.foldl (· + ·) 0
  if entries.length < 1 then some (-1)
  else if total = 0 then some rand
  else do
    guard (total < int64Max)
    let p := pick wide entries rand
    guard (p.totalSoFar = total)
    guard (p.nChosen = 1)
    guard (0 ≤ p.iChosen)
    guard (p.iChosen < entries.length)
    pure p.iChosen

/-- The closest integer, away from zero if there are two (`tor_llround`).  A value that is no
integer of 64 bits gives `INT64_MIN`. -/
def torLlround : Binary64 → ℤ
  | .finite x _ _ =>
    let n := if 0 ≤ x then ⌊x + 1 / 2⌋ else ⌈x - 1 / 2⌉
    if -2 ^ 63 ≤ n ∧ n < 2 ^ 63 then n else -2 ^ 63
  | _ => -2 ^ 63

/-- A number as an integer, if it is one of 64 bits up to its fraction. -/
def toU64 : Binary64 → Option UInt64
  | .finite x _ _ => if -1 < x ∧ x < 2 ^ 64 then some (.ofNat ⌊x⌋₊) else none
  | _ => none

/-- `SCALE_TO_U64_MAX`. -/
def scaleToU64Max : ℤ := (2 ^ 63 - 1) / 4

/-- The weights as integers, scaled to a sum near `INT64_MAX / 4`, and the sum that they had
(`scale_array_elements_to_u64`). -/
def scaleArrayElementsToU64 (entries : List Binary64) : List UInt64 × Option UInt64 :=
  let total := Binary64.sum entries
  let scaleFactor := if 0 < total then Binary64.ofRat scaleToU64Max / total else 0
  (entries.map fun entry => .ofInt (torLlround (entry * scaleFactor)), toU64 total)

/-! ### The loop -/

/-- The sum of the weights. -/
def sumOf (entries : List UInt64) : ℕ := (entries.map UInt64.toNat).sum

/-- The index `i` is the one for the number `rand`. -/
def Selects (entries : List UInt64) (rand i : ℕ) : Prop :=
  i < entries.length ∧ sumOf (entries.take i) ≤ rand ∧ rand < sumOf (entries.take (i + 1))

section Loop

variable (wide : Bool) {entries : List UInt64} {rand i j : ℕ}

lemma toNat_int64Max : int64Max.toNat = 2 ^ 63 - 1 := rfl

lemma gtI64Timei_iff {a b : UInt64} (ha : a.toNat < 2 ^ 63) (hb : b.toNat < 2 ^ 63) :
    gtI64Timei wide a b = true ↔ b.toNat < a.toNat := by
  cases wide with
  | true => simp [gtI64Timei, UInt64.lt_iff_toNat_lt]
  | false =>
    simp only [gtI64Timei, Bool.false_eq_true, if_false, beq_iff_eq, ← UInt64.toNat_inj,
      UInt64.toNat_shiftRight, UInt64.toNat_sub, Nat.shiftRight_eq_div_pow]
    change (2 ^ 64 - a.toNat + b.toNat) % 2 ^ 64 / 2 ^ 63 = 1 ↔ _
    omega

lemma sumOf_take_mono (entries : List UInt64) (hij : i ≤ j) :
    sumOf (entries.take i) ≤ sumOf (entries.take j) := by
  simpa only [sumOf, map_take] using sum_take_mono (entries.map UInt64.toNat) hij

lemma toNat_total (h : sumOf entries < 2 ^ 63) :
    (entries.foldl (· + ·) 0).toNat = sumOf entries := by
  induction entries using reverseRecOn with
  | nil => rfl
  | append_singleton entries entry ih =>
    simp only [sumOf, map_append, sum_append, map_cons, map_nil,
      sum_singleton] at h ih ⊢
    rw [foldl_append, foldl_cons, foldl_nil, UInt64.toNat_add, ih (by omega)]
    omega

/-- The invariant of the loop: nothing is chosen until the total exceeds the random number. -/
structure Pick.Right (entries : List UInt64) (rand : ℕ) (p : Pick) : Prop where
  total : p.totalSoFar.toNat = sumOf entries
  before : sumOf entries ≤ rand → p.randVal = .ofNat rand ∧ p.nChosen = 0
  after : rand < sumOf entries →
    p.randVal = int64Max ∧ p.nChosen = 1 ∧ ∃ i, Selects entries rand i ∧ p.iChosen = i

lemma Pick.Right.step {p : Pick} (hp : p.Right entries rand) {entry : UInt64}
    (hr : rand < 2 ^ 63 - 1) (h : sumOf (entries ++ [entry]) < 2 ^ 63 - 1) :
    (p.step wide (entry, entries.length)).Right (entries ++ [entry]) rand := by
  have htotal : sumOf (entries ++ [entry]) = sumOf entries + entry.toNat := by
    simp [sumOf]
  have hp' := hp.total
  have hadd : (p.totalSoFar + entry).toNat = sumOf (entries ++ [entry]) := by
    rw [UInt64.toNat_add]
    omega
  rw [Pick.step]
  rcases le_or_gt (sumOf entries) rand with hle | hlt
  · obtain ⟨hrand, hn⟩ := hp.before hle
    have hgt := gtI64Timei_iff wide (a := p.totalSoFar + entry) (b := .ofNat rand) (by omega)
      (by rw [UInt64.toNat_ofNat']; omega)
    rw [hadd, UInt64.toNat_ofNat', Nat.mod_eq_of_lt (by omega)] at hgt
    simp only [hrand]
    split_ifs with hc
    · refine ⟨hadd, fun hle' => absurd (hgt.mp hc) (not_lt.mpr hle'), fun hlt' =>
        ⟨rfl, by simp [hn], entries.length, ⟨by simp, by simpa using hle, ?_⟩, rfl⟩⟩
      rwa [take_of_length_le (by simp)]
    · exact ⟨hadd, fun _ => ⟨rfl, hn⟩, fun hlt' => absurd (hgt.mpr hlt') hc⟩
  · -- the total never exceeds what the random number has become
    obtain ⟨hrand, hn, i, ⟨hi, htake, hsucc⟩, hchosen⟩ := hp.after hlt
    have hmax : ¬ gtI64Timei wide (p.totalSoFar + entry) int64Max = true := by
      rw [gtI64Timei_iff wide (by omega) (by decide), hadd, toNat_int64Max]
      exact not_lt.mpr h.le
    rw [hrand, if_neg hmax]
    refine ⟨hadd, fun hle => by omega, fun _ => ⟨rfl, hn, i, ⟨?_, ?_, ?_⟩, hchosen⟩⟩
    · rw [length_append]
      omega
    · rwa [take_append_of_le_length hi.le]
    · rwa [take_append_of_le_length hi]

lemma pick_right (hr : rand < 2 ^ 63 - 1) (h : sumOf entries < 2 ^ 63 - 1) :
    (pick wide entries rand).Right entries rand := by
  induction entries using reverseRecOn with
  | nil => exact ⟨rfl, fun _ => ⟨rfl, rfl⟩, fun hlt => absurd hlt (Nat.not_lt_zero _)⟩
  | append_singleton entries entry ih =>
    have htotal : sumOf entries ≤ sumOf (entries ++ [entry]) := by simp [sumOf]
    simpa [pick, zipIdx_append] using (ih (htotal.trans_lt h)).step wide hr h

lemma Selects.eq (hi : Selects entries rand i) (hj : Selects entries rand j) : i = j := by
  by_contra hne
  rcases lt_or_gt_of_ne hne with hlt | hlt
  · have := sumOf_take_mono entries (show i + 1 ≤ j from hlt)
    exact absurd (hi.2.2.trans_le this) (not_lt.mpr hj.2.1)
  · have := sumOf_take_mono entries (show j + 1 ≤ i from hlt)
    exact absurd (hj.2.2.trans_le this) (not_lt.mpr hi.2.1)

lemma choose_eq (h : sumOf entries < 2 ^ 63 - 1) (hr : rand < sumOf entries) :
    ∃ i, Selects entries rand i ∧ chooseArrayElementByWeight wide entries rand = some (i : ℤ) := by
  obtain ⟨hsofar, -, hafter⟩ := pick_right wide (hr.trans h) h
  obtain ⟨-, hn, i, hi, hchosen⟩ := hafter hr
  have htotal := toNat_total (by omega : sumOf entries < 2 ^ 63)
  refine ⟨i, hi, ?_⟩
  have hlen := hi.1
  rw [chooseArrayElementByWeight, if_neg (by omega), if_neg fun h0 => by simp [h0] at htotal; omega]
  have hlt : entries.foldl (· + ·) 0 < int64Max := by
    rwa [UInt64.lt_iff_toNat_lt, htotal]
  simp [guard, hlt, hn, hchosen, hlen, ← UInt64.toNat_inj, hsofar, htotal]

lemma choose_of_zero (h0 : sumOf entries = 0) (hne : entries ≠ []) (rand : ℕ) :
    chooseArrayElementByWeight wide entries rand = some (rand : ℤ) := by
  have hlen := length_pos_of_ne_nil hne
  rw [chooseArrayElementByWeight, if_neg (by omega), if_pos]
  rw [← UInt64.toNat_inj, toNat_total (by omega), h0]
  rfl

/-- The numbers that choose an index are as many as its weight. -/
lemma card_chosen (h : sumOf entries < 2 ^ 63 - 1) {entry : UInt64}
    (hentry : entries[i]? = some entry) : ((Finset.range (sumOf entries)).filter fun rand =>
      chooseArrayElementByWeight wide entries rand = some (i : ℤ)).card = entry.toNat := by
  have hsucc : sumOf (entries.take (i + 1)) = sumOf (entries.take i) + entry.toNat := by
    simpa only [sumOf, map_take] using sum_take_succ_of_getElem?
      (show (entries.map UInt64.toNat)[i]? = some entry.toNat by simp [hentry])
  have hle := sumOf_take_mono entries (List.getElem?_eq_some_iff.mp hentry).1
  rw [take_length] at hle
  rw [show Finset.filter _ _ = Finset.Ico (sumOf (entries.take i))
    (sumOf (entries.take (i + 1))) from ?_, Nat.card_Ico]
  · omega
  · ext rand
    simp only [Finset.mem_filter, Finset.mem_range, Finset.mem_Ico]
    constructor
    · rintro ⟨hr, hchosen⟩
      obtain ⟨j, hj, hchoose⟩ := choose_eq wide h hr
      rw [hchoose, Option.some.injEq, Nat.cast_inj] at hchosen
      exact hchosen ▸ hj.2
    · intro hi
      have hr := hi.2.trans_le hle
      obtain ⟨j, hj, hchoose⟩ := choose_eq wide h hr
      rw [hj.eq ⟨(List.getElem?_eq_some_iff.mp hentry).1, hi⟩] at hchoose
      exact ⟨hr, hchoose⟩

end Loop

/-! ### Scaling -/

section Scaling

open Binary64

variable {entries : List Binary64} {x t : ℚ}

/-- Weights that are not too small are finite, and have no sum or one above `2 ^ -963`. -/
def Scalable (entries : List Binary64) : Prop :=
  (∀ entry ∈ entries, entry.isFinite = true) ∧
    (0 < Binary64.sum entries → ofRat (1 / 2 ^ 963) < Binary64.sum entries)

lemma ofRat_scaleToU64Max : ∃ hx h, ofRat scaleToU64Max = finite (2 ^ 61) hx h := by
  have h : ofRat scaleToU64Max = ofRat (2 ^ 61) := by decide +kernel
  have hrep : Representable (2 ^ 61) := ⟨1, 61, by norm_num, by norm_num, by norm_num⟩
  have hlt : |(2 ^ 61 : ℚ)| < 2 ^ 1024 := by
    rw [abs_of_pos (by positivity)]
    exact pow_lt_pow_right₀ one_lt_two (by norm_num)
  exact ⟨hrep, hlt, h.trans (ofRat_of_representable hrep hlt)⟩

lemma toNat_le_sumOf {l : List UInt64} {v : UInt64} (h : v ∈ l) : v.toNat ≤ sumOf l :=
  single_le_sum (fun _ _ => Nat.zero_le _) _ (List.mem_map_of_mem h)

/-- A weight that is scaled to no integer of 64 bits. -/
lemma not_sumOf_lt {f : Binary64 → ℤ} {entry : Binary64} (hmem : entry ∈ entries)
    (hf : f entry = -2 ^ 63) :
    ¬ sumOf (entries.map fun entry => .ofInt (f entry)) < 2 ^ 63 - 1 := by
  have hle := toNat_le_sumOf (List.mem_map_of_mem (f := fun entry => UInt64.ofInt (f entry)) hmem)
  have hval : (UInt64.ofInt (f entry)).toNat = 2 ^ 63 := by
    rw [hf]
    rfl
  omega

/-- Weights that are scaled by zero. -/
lemma sumOf_zeros (hf : ∀ entry ∈ entries, entry.isFinite = true) :
    sumOf (entries.map fun entry => .ofInt (torLlround (entry * 0))) = 0 := by
  have hround : torLlround 0 = 0 := by decide +kernel
  rw [sumOf, sum_eq_zero]
  simp only [List.mem_map]
  rintro _ ⟨_, ⟨entry, hmem, rfl⟩, rfl⟩
  have hfin := hf entry hmem
  cases entry with
  | finite x hx h =>
    have hzero : finite x hx h * 0 = 0 := by
      change ofRat (x * 0) = 0
      rw [mul_zero]
      exact ofRat_of_representable representable_zero _
    rw [hzero, hround]
    rfl
  | infinite negative => cases hfin
  | nan => cases hfin

/-- A number of 53 bits above `2 ^ -963` is not next to it. -/
lemma next_le_of_lt (ht : Representable t) (hlt : 1 / 2 ^ 963 < t) :
    (2 ^ 52 + 1) / 2 ^ 1015 ≤ t := by
  have hsplit : (1 : ℚ) / 2 ^ 963 = 2 ^ 52 / 2 ^ 1015 := by
    rw [pow_add 2 52 963, ← div_div, div_self (by positivity)]
  have hzpow : (2 : ℚ) ^ (-1015 : ℤ) = 1 / 2 ^ 1015 := by rw [zpow_neg, zpow_ofNat, one_div]
  have hpos : (0 : ℚ) < 1 / 2 ^ 1015 := one_div_pos.mpr (pow_pos two_pos _)
  have h963 : (2 : ℚ) ^ (-1015 + 52 : ℤ) = 1 / 2 ^ 963 := by
    rw [show (-1015 + 52 : ℤ) = -963 by norm_num, zpow_neg, zpow_ofNat, one_div]
  obtain ⟨n, hn⟩ := ht.exists_int (e := -1015) (.inr (by
    rw [h963]
    exact hlt.le.trans (le_abs_self t)))
  rw [hzpow] at hn
  rw [hsplit, hn, div_eq_mul_one_div, mul_lt_mul_iff_left₀ hpos] at hlt
  have hnext : (2 ^ 52 + 1 : ℚ) ≤ n := by exact_mod_cast hlt
  rw [hn, div_eq_mul_one_div]
  exact mul_le_mul_of_nonneg_right hnext hpos.le

/-- The scale for a sum that is not too small. -/
lemma exists_scaleFactor (ht : Representable t) (h : |t| < 2 ^ 1024) (hlt : 1 / 2 ^ 963 < t) :
    ∃ s hs h', ofRat scaleToU64Max / finite t ht h = finite s hs h' ∧ 0 ≤ s ∧
      s * t ≤ 2 ^ 61 * (101 / 100) := by
  have hpos : 0 < t := (one_div_pos.mpr (pow_pos two_pos _)).trans hlt
  have hrep : Representable ((2 ^ 53 - 1) * 2 ^ 971) :=
      ⟨2 ^ 53 - 1, 971, by norm_num, by norm_num, by
    rw [zpow_ofNat]
    norm_num⟩
  have hq : 2 ^ 61 / t ≤ (2 ^ 53 - 1) * 2 ^ 971 := by
    have hpow : (2 : ℚ) ^ 1015 = 2 ^ 44 * 2 ^ 971 := by rw [← pow_add]
    have hnext := next_le_of_lt ht hlt
    have hp : (0 : ℚ) < 2 ^ 971 := pow_pos two_pos _
    rw [hpow, div_le_iff₀ (mul_pos (by positivity) hp)] at hnext
    rw [div_le_iff₀ hpos]
    generalize (2 ^ 971 : ℚ) = p at hnext ⊢
    linarith
  have hq0 : 0 ≤ 2 ^ 61 / t := by positivity
  have hle := hrep.nearest_le hq0 hq
  have hnonneg := nearest_nonneg hq0
  have hs : |nearest (2 ^ 61 / t)| < 2 ^ 1024 := by
    rw [abs_of_nonneg hnonneg, pow_add 2 53 971]
    exact hle.trans_lt (mul_lt_mul_of_pos_right (by norm_num) (pow_pos two_pos _))
  refine ⟨nearest (2 ^ 61 / t), representable_nearest _, hs, ?_, hnonneg, ?_⟩
  · obtain ⟨hx, hx', heq⟩ := ofRat_scaleToU64Max
    rw [heq, finite_div_finite _ _ _ _ hpos.ne', ofRat_of_lt hs]
  · have herr := (abs_le.mp (abs_nearest_sub_le (2 ^ 61 / t))).2
    have hsmall : t * (1 / 2 ^ 1075) ≤ 1 := by
      rw [mul_one_div, div_le_one (pow_pos two_pos _)]
      exact ((le_abs_self t).trans_lt h).le.trans (pow_le_pow_right₀ one_le_two (by norm_num))
    rw [abs_of_nonneg hq0] at herr
    have hqt : 2 ^ 61 / t * t = 2 ^ 61 := div_mul_cancel₀ _ hpos.ne'
    generalize (1 / 2 ^ 1075 : ℚ) = δ at herr hsmall
    have hmul := mul_le_mul_of_nonneg_right (sub_le_iff_le_add.mp herr) hpos.le
    rw [add_mul, add_mul, div_mul_eq_mul_div, hqt] at hmul
    linarith

/-- A weight that is scaled to a number of at most 63 bits. -/
lemma toNat_scaled_le {s : ℚ} (hx : Representable x) (hx' : |x| < 2 ^ 1024) (hs : Representable s)
    (hs' : |s| < 2 ^ 1024) (h0 : 0 ≤ x * s) (hle : x * s ≤ 2 ^ 62 * (103 / 100)) :
    ((UInt64.ofInt (torLlround (finite x hx hx' * finite s hs hs'))).toNat : ℚ) ≤
      x * s * (101 / 100) + 1 := by
  have hnonneg := nearest_nonneg h0
  have herr := (abs_le.mp (abs_nearest_sub_le (x * s))).2
  have hδ : (1 / 2 ^ 1075 : ℚ) ≤ 1 / 2 ^ 2 := one_div_le_one_div_of_le (pow_pos two_pos 2)
    (pow_le_pow_right₀ one_le_two (show 2 ≤ 1075 by norm_num))
  rw [abs_of_nonneg h0] at herr
  generalize (1 / 2 ^ 1075 : ℚ) = δ at herr hδ
  have hv : nearest (x * s) ≤ x * s * (101 / 100) + 1 / 4 := by linarith
  have hlt : |nearest (x * s)| < 2 ^ 1024 := by
    rw [abs_of_nonneg hnonneg]
    have hle64 : nearest (x * s) ≤ 2 ^ 64 := by linarith
    exact hle64.trans_lt (pow_lt_pow_right₀ one_lt_two (by norm_num))
  have hprod : finite x hx hx' * finite s hs hs' =
      finite (nearest (x * s)) (representable_nearest _) hlt :=
    ofRat_of_lt hlt
  have hfloor : (0 : ℤ) ≤ ⌊nearest (x * s) + 1 / 2⌋ := Int.floor_nonneg.mpr (by linarith)
  have hround : torLlround (finite x hx hx' * finite s hs hs') = ⌊nearest (x * s) + 1 / 2⌋ := by
    have hlt63 : ⌊nearest (x * s) + 1 / 2⌋ < 2 ^ 63 := by
      rw [Int.floor_lt]
      push_cast
      linarith
    simp only [hprod, torLlround]
    rw [if_pos hnonneg, if_pos ⟨by omega, hlt63⟩]
  have hmod : ((UInt64.ofInt ⌊nearest (x * s) + 1 / 2⌋).toNat : ℤ) ≤ ⌊nearest (x * s) + 1 / 2⌋ := by
    simp only [UInt64.ofInt, UInt64.toNat_ofNat']
    omega
  rw [hround]
  calc ((UInt64.ofInt ⌊nearest (x * s) + 1 / 2⌋).toNat : ℚ) ≤ ⌊nearest (x * s) + 1 / 2⌋ := by
        exact_mod_cast hmod
    _ ≤ nearest (x * s) + 1 / 2 := Int.floor_le _
    _ ≤ x * s * (101 / 100) + 1 := by linarith

lemma sumOf_scaled_lt (hneg : ∀ entry ∈ entries, ¬ entry < 0)
    (hf : ∀ entry ∈ entries, entry.isFinite = true) (hlen : entries.length < 2 ^ 31)
    (ht : Representable t) (h : |t| < 2 ^ 1024) (hlt : 1 / 2 ^ 963 < t)
    (hsum : (entries.map toRat).sum * (1 - 1 / 2 ^ 53) ^ entries.length ≤
      t + entries.length / 2 ^ 1075) :
    sumOf (entries.map fun entry =>
      .ofInt (torLlround (entry * (ofRat scaleToU64Max / finite t ht h)))) <
      2 ^ 63 - 1 := by
  obtain ⟨s, hs, hs', hscale, hs0, hst⟩ := exists_scaleFactor ht h hlt
  have hlen' : (entries.length : ℚ) ≤ 2 ^ 31 := by exact_mod_cast hlen.le
  have hvalue {entry : Binary64} (hmem : entry ∈ entries) :
      ∃ hx hx', entry = finite entry.toRat hx hx' ∧ 0 ≤ entry.toRat := by
    obtain ⟨x, hx, hx', rfl, h0⟩ := finite_cases (hneg entry hmem) (hf entry hmem)
    exact ⟨hx, hx', rfl, h0⟩
  have hnonneg : ∀ x ∈ entries.map toRat, 0 ≤ x := by
    rw [List.forall_mem_map]
    intro entry hmem
    obtain ⟨-, -, -, h0⟩ := hvalue hmem
    exact h0
  have hsum0 : 0 ≤ (entries.map toRat).sum := sum_nonneg hnonneg
  -- the rounded sum is at least half of the sum
  have hbound : (entries.map toRat).sum * s ≤ 2 ^ 62 * (103 / 100) := by
    have hbern := one_add_mul_le_pow (show (-2 : ℚ) ≤ -(1 / 2 ^ 53) by norm_num) entries.length
    rw [← sub_eq_add_neg] at hbern
    have hhalf : (entries.map toRat).sum * (1 / 2) ≤ t + 2 ^ 31 * (1 / 2 ^ 1075) := by
      refine le_trans (mul_le_mul_of_nonneg_left ?_ hsum0) (hsum.trans ?_)
      · linarith
      · rw [div_eq_mul_one_div]
        exact add_le_add_right
          (mul_le_mul_of_nonneg_right hlen' (one_div_nonneg.mpr (pow_nonneg zero_le_two _))) t
    have hsmall : s * (1 / 2 ^ 1075) ≤ 1 / 2 ^ 51 := by
      have hpow : (2 : ℚ) ^ 1075 = 2 ^ 1024 * 2 ^ 51 := by rw [← pow_add]
      rw [hpow, mul_one_div, ← div_div, div_le_div_iff_of_pos_right (by norm_num),
        div_le_one (pow_pos two_pos _)]
      exact ((le_abs_self s).trans_lt hs').le
    generalize (1 / 2 ^ 1075 : ℚ) = δ at hhalf hsmall
    have hmul := mul_le_mul_of_nonneg_right hhalf hs0
    linarith
  have hentry : ∀ entry ∈ entries, ((UInt64.ofInt (torLlround (entry *
      (ofRat scaleToU64Max / finite t ht h)))).toNat : ℚ) ≤ entry.toRat * s * (101 / 100) + 1 := by
    intro entry hmem
    obtain ⟨hx, hx', heq, h0⟩ := hvalue hmem
    have hle := mul_le_mul_of_nonneg_right (single_le_sum hnonneg _ (List.mem_map_of_mem hmem)) hs0
    rw [hscale, heq]
    exact toNat_scaled_le hx hx' hs hs' (mul_nonneg h0 hs0) (hle.trans hbound)
  have hle := sum_le_sum hentry
  rw [sum_map_add, sum_map_mul_right, sum_map_mul_right, map_const', sum_replicate,
    nsmul_eq_mul] at hle
  rw [← Nat.cast_lt (α := ℚ), sumOf, Nat.cast_list_sum, List.map_map, List.map_map]
  refine lt_of_le_of_lt hle ?_
  norm_num at hbound ⊢
  linarith

lemma ofRat_limit : ∃ hx h, ofRat (1 / 2 ^ 963) = finite (1 / 2 ^ 963) hx h := by
  have hrep : Representable (1 / 2 ^ 963) := ⟨1, -963, by norm_num, by norm_num, by
    rw [zpow_neg, zpow_ofNat, Int.cast_one, Rat.one_mul, one_div]⟩
  have hlt : |(1 / 2 ^ 963 : ℚ)| < 2 ^ 1024 := by
    rw [abs_of_pos (one_div_pos.mpr (pow_pos two_pos _))]
    exact (div_le_one_of_le₀ (one_le_pow₀ one_le_two) (pow_nonneg zero_le_two _)).trans_lt
      (one_lt_pow₀ one_lt_two (by norm_num))
  exact ⟨hrep, hlt, ofRat_of_representable hrep hlt⟩

/-- If the sum is too small, the scale is infinite. -/
lemma scaleFactor_of_le (ht : Representable t) (h : |t| < 2 ^ 1024) (hpos : 0 < t)
    (hle : t ≤ 1 / 2 ^ 963) : ofRat scaleToU64Max / finite t ht h = infinite false := by
  obtain ⟨hx, hx', heq⟩ := ofRat_scaleToU64Max
  have hq : 2 ^ 1024 ≤ 2 ^ 61 / t := by
    rw [le_div_iff₀ hpos, pow_add 2 61 963, mul_assoc]
    refine mul_le_of_le_one_right (by positivity) ?_
    rw [mul_comm]
    exact (le_div_iff₀ (pow_pos two_pos _)).mp hle
  have hrep : Representable (2 ^ 1024) := ⟨1, 1024, by norm_num, by norm_num, by
    rw [zpow_ofNat, Int.cast_one, Rat.one_mul]⟩
  have hround := hrep.le_nearest (pow_nonneg zero_le_two _) hq
  have hnonneg : 0 ≤ nearest (2 ^ 61 / t) := nearest_nonneg (by positivity)
  rw [heq, finite_div_finite _ _ _ _ hpos.ne', ofRat, dif_neg, decide_eq_false (not_lt.mpr hnonneg)]
  rw [abs_of_nonneg hnonneg]
  exact not_lt.mpr hround

lemma scaled_of_not_finite {entry : Binary64} (h : ¬ entry.isFinite = true) :
    torLlround (entry * 0) = -2 ^ 63 := by
  cases entry with
  | finite x hx hx' => exact absurd rfl h
  | infinite negative => rfl
  | nan => rfl

lemma scaled_of_infinite {entry : Binary64} (hneg : ¬ entry < 0) :
    torLlround (entry * infinite false) = -2 ^ 63 := by
  rcases not_neg_cases hneg with rfl | rfl | ⟨x, hx, hx', rfl, -⟩
  · rfl
  · rfl
  · change torLlround (if x = 0 then nan else infinite _) = _
    split_ifs <;> rfl

/-- **The scaled weights are small enough** exactly when the weights are not too small and
finite. -/
lemma sumOf_scale_lt_iff (hneg : ∀ entry ∈ entries, ¬ entry < 0) (hlen : entries.length < 2 ^ 31) :
    sumOf (scaleArrayElementsToU64 entries).1 < 2 ^ 63 - 1 ↔ Scalable entries := by
  unfold scaleArrayElementsToU64
  dsimp only
  by_cases hf : ∀ entry ∈ entries, entry.isFinite = true
  · rcases sum_spec hneg hf with hinf | ⟨t, ht, h, heq, ht0, hle⟩
    · rw [hinf, if_pos (show (0 : Binary64) < infinite false from rfl)]
      obtain ⟨hx, hx', hmax⟩ := ofRat_scaleToU64Max
      have hzero : ofRat scaleToU64Max / infinite false = 0 := by
        rw [hmax]
        rfl
      rw [hzero, sumOf_zeros hf]
      refine iff_of_true (by norm_num) ⟨hf, fun _ => ?_⟩
      obtain ⟨hx, hx', hlimit⟩ := ofRat_limit
      rw [hinf, hlimit]
      rfl
    · obtain ⟨hx, hx', hlimit⟩ := ofRat_limit
      have hscalable : Scalable entries ↔ (0 < t → 1 / 2 ^ 963 < t) := by
        rw [Scalable, heq, hlimit]
        refine (and_iff_right hf).trans (imp_congr ?_ ?_) <;> exact decide_eq_true_iff
      rw [hscalable, heq]
      rcases ht0.eq_or_lt with rfl | hpos
      · have hnot : ¬ (0 : Binary64) < finite 0 ht h := fun hlt =>
          lt_irrefl (0 : ℚ) (of_decide_eq_true hlt)
        rw [if_neg hnot, sumOf_zeros hf]
        exact iff_of_true (by norm_num) fun hlt => absurd hlt (lt_irrefl _)
      · rw [if_pos (show (0 : Binary64) < finite t ht h from decide_eq_true hpos)]
        rcases lt_or_ge (1 / 2 ^ 963) t with hlt | hge
        · exact iff_of_true (sumOf_scaled_lt hneg hf hlen ht h hlt hle) fun _ => hlt
        · refine iff_of_false ?_ fun himp => absurd (himp hpos) (not_lt.mpr hge)
          rw [scaleFactor_of_le ht h hpos hge]
          cases entries with
          | nil =>
            injection heq with heq
            exact absurd heq hpos.ne
          | cons entry entries =>
            exact not_sumOf_lt mem_cons_self (scaled_of_infinite (hneg entry mem_cons_self))
  · refine iff_of_false ?_ fun h => hf h.1
    push Not at hf
    obtain ⟨entry, hmem, hentry⟩ := hf
    have hzero :
        (if 0 < Binary64.sum entries then ofRat scaleToU64Max / Binary64.sum entries else 0) =
          0 := by
      rcases not_neg_cases (sum_not_neg hneg) with hsum | hsum | ⟨x, hx, hx', hsum, -⟩
      · rw [hsum]
        rfl
      · obtain ⟨hx, hx', hmax⟩ := ofRat_scaleToU64Max
        rw [hsum, hmax]
        rfl
      · exact absurd (isFinite_of_sum (by rw [hsum]; rfl) hmem) hentry
    rw [hzero]
    exact not_sumOf_lt hmem (scaled_of_not_finite hentry)

end Scaling

/-! ### The choice -/

/-- What is expected of the choice. -/
structure ChosenByWeight (wide : Bool) (entries : List UInt64) : Prop where
  /-- Each random number below the total chooses an index. -/
  answers : ∀ rand < sumOf entries,
    ∃ i < entries.length, chooseArrayElementByWeight wide entries rand = some (i : ℤ)
  /-- An index is chosen by as many of these numbers as its weight. -/
  weighted : 0 < sumOf entries → ∀ (i : ℕ) (entry : UInt64), entries[i]? = some entry →
    ((Finset.range (sumOf entries)).filter fun rand =>
      chooseArrayElementByWeight wide entries rand = some (i : ℤ)).card = entry.toNat
  /-- If all weights are zero, each index is chosen by one number. -/
  uniform : sumOf entries = 0 →
    ∀ rand < entries.length, chooseArrayElementByWeight wide entries rand = some (rand : ℤ)

/-- **An index is chosen by its weight**, and the scaled weights are small enough for that exactly
when the weights are finite and their sum is not too small. -/
theorem chosenByWeight (wide : Bool) (weights : List UInt64) (entries : List Binary64)
    (hentries : ∀ entry ∈ entries, ¬ entry < 0) (hlen : entries.length < 2 ^ 31) :
    (weights ≠ [] → sumOf weights < 2 ^ 63 - 1 → ChosenByWeight wide weights) ∧
      (sumOf (scaleArrayElementsToU64 entries).1 < 2 ^ 63 - 1 ↔ Scalable entries) := by
  refine ⟨fun hne h => ⟨fun rand hr => ?_, fun _ i entry hentry => ?_, fun h0 rand _ => ?_⟩,
    sumOf_scale_lt_iff hentries hlen⟩
  · obtain ⟨i, hi, hchoose⟩ := choose_eq wide h hr
    exact ⟨i, hi.1, hchoose⟩
  · exact card_chosen wide h hentry
  · exact choose_of_zero wide h0 hne rand

/-- Three weights, and three numbers that are scaled. -/
theorem chosenByWeight_three : ChosenByWeight true [1, 0, 2] ∧
    sumOf (scaleArrayElementsToU64 [1, .ofRat (1 / 10), .ofRat (5 / 2)]).1 < 2 ^ 63 - 1 := by
  obtain ⟨hchosen, hscaled⟩ := chosenByWeight true [1, 0, 2] [1, .ofRat (1 / 10), .ofRat (5 / 2)]
    (by decide +kernel) (by decide)
  exact ⟨hchosen (by decide) (by decide), hscaled.mpr ⟨by decide +kernel, by decide +kernel⟩⟩

/-- The scale for a weight of `1e-300` is infinite, and the choice fails. -/
theorem not_chosenByWeight_small :
    ¬ (sumOf (scaleArrayElementsToU64 [.ofRat (1 / 10 ^ 300)]).1 < 2 ^ 63 - 1) ∧
    ∀ wide rand, chooseArrayElementByWeight wide
      (scaleArrayElementsToU64 [.ofRat (1 / 10 ^ 300)]).1 rand = none := by
  have hscaled : (scaleArrayElementsToU64 [.ofRat (1 / 10 ^ 300)]).1 = [9223372036854775808] := by
    decide +kernel
  rw [hscaled]
  exact ⟨by decide, fun wide rand => rfl⟩

/-- The choice is that of the first index with a partial sum above the random number, if there are
no assertions. -/
theorem choose_eq_find (wide : Bool) {entries : List UInt64} (hne : entries ≠ [])
    (h : sumOf entries < 2 ^ 63 - 1) (rand : ℕ) :
    chooseArrayElementByWeight wide entries
        (rand % if sumOf entries = 0 then entries.length else sumOf entries) =
      (Directory.chooseArrayElementByWeight (entries.map UInt64.toNat) rand).map
        (Nat.cast : ℕ → ℤ) := by
  have hlen : 0 < entries.length := length_pos_of_ne_nil hne
  have hsum : (entries.map UInt64.toNat).sum = sumOf entries := rfl
  rw [Directory.chooseArrayElementByWeight, length_map, if_neg (show ¬entries.length < 1 by omega),
    hsum]
  split_ifs with h0
  · rw [choose_of_zero wide h0 hne]
    rfl
  · obtain ⟨i, ⟨hi, hlow, hhigh⟩, hchoose⟩ :=
      choose_eq wide h (Nat.mod_lt rand (Nat.pos_of_ne_zero h0))
    have htake (j : ℕ) : ((entries.map UInt64.toNat).take j).sum = sumOf (entries.take j) := by
      rw [sumOf, map_take]
    rw [hchoose, Eq.comm, Option.map_eq_some_iff]
    refine ⟨i, ?_, rfl⟩
    simp only [htake]
    rw [find?_range_eq_some]
    refine ⟨decide_eq_true hhigh, mem_range.mpr hi, fun j hj => ?_⟩
    have hle := (sumOf_take_mono entries (show j + 1 ≤ i from hj)).trans hlow
    simpa using hle

theorem choose_eq_find_three : chooseArrayElementByWeight true [1, 0, 2] (7 % 3) =
    (Directory.chooseArrayElementByWeight [1, 0, 2] 7).map (Nat.cast : ℕ → ℤ) :=
  choose_eq_find true (by decide) (by decide) 7

/-! ### Random numbers -/

/-- A random number below `max` (`crypto_rand_uint64`): the first of the 64-bit draws that is below
a multiple of `max`, or nothing if an assertion fails. -/
def cryptoRandUint64 (max : ℕ) (draws : List ℕ) : Option ℕ := do
  guard (max < 2 ^ 64 - 1)
  guard (0 < max)
  let val ← draws.find? (· < 2 ^ 64 - 1 - (2 ^ 64 - 1) % max)
  pure (val % max)

lemma count_mod (P : ℕ → Prop) [DecidablePred P] (max k : ℕ) :
    Nat.count (fun val => P (val % max)) (max * k) = k * Nat.count P max := by
  induction k with
  | zero => simp
  | succ k ih =>
    rw [Nat.mul_succ, Nat.count_add, ih, Nat.succ_mul]
    congr 1
    rw [Nat.count_eq_card_filter_range, Nat.count_eq_card_filter_range]
    refine congrArg Finset.card (Finset.filter_congr fun val hval => ?_)
    rw [Nat.mul_add_mod, Nat.mod_eq_of_lt (Finset.mem_range.mp hval)]

/-- **The draws are fair**: the draws that choose an index are its weight times the same number,
whatever its weight. -/
theorem card_draws (wide : Bool) {entries : List UInt64} (hpos : 0 < sumOf entries)
    (h : sumOf entries < 2 ^ 63 - 1) {i : ℕ} {entry : UInt64} (hentry : entries[i]? = some entry) :
    ((Finset.range (2 ^ 64)).filter fun val => (cryptoRandUint64 (sumOf entries) [val]).bind
      (chooseArrayElementByWeight wide entries) = some (i : ℤ)).card =
        (2 ^ 64 - 1) / sumOf entries * entry.toNat := by
  have hdiv := Nat.div_add_mod (2 ^ 64 - 1) (sumOf entries)
  have hcount := count_mod (fun rand => chooseArrayElementByWeight wide entries rand = some (i : ℤ))
    (sumOf entries) ((2 ^ 64 - 1) / sumOf entries)
  rw [Nat.count_eq_card_filter_range, Nat.count_eq_card_filter_range,
    card_chosen wide h hentry] at hcount
  rw [← hcount]
  refine congrArg Finset.card (Finset.ext fun val => ?_)
  have hcut : 2 ^ 64 - 1 - (2 ^ 64 - 1) % sumOf entries =
    sumOf entries * ((2 ^ 64 - 1) / sumOf entries) := by omega
  rw [Finset.mem_filter, Finset.mem_filter, Finset.mem_range, Finset.mem_range,
    cryptoRandUint64, hcut,
    guard, if_pos (by omega), guard, if_pos hpos]
  generalize (2 ^ 64 - 1) / sumOf entries = k at hdiv ⊢
  by_cases hlt : val < sumOf entries * k
  · have hval : val < 2 ^ 64 := by omega
    simpa [hlt] using fun _ => hval
  · simp [hlt]

theorem card_draws_three :
    ((Finset.range (2 ^ 64)).filter fun val =>
      (cryptoRandUint64 (sumOf [1, 0, 2]) [val]).bind (chooseArrayElementByWeight true [1, 0, 2]) =
        some ((2 : ℕ) : ℤ)).card =
      (2 ^ 64 - 1) / sumOf [1, 0, 2] * (2 : UInt64).toNat :=
  card_draws true (by decide) (by decide) rfl

end Astoria.WeightedChoice
