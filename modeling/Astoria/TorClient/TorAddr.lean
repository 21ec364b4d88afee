import Mathlib.Data.List.GetD
import Mathlib.Data.Nat.Basic

/-!
# Addresses and their prefixes

The client's addresses of the two families and the comparison of the first bits of two of them,
`tor_addr_compare_masked`.  An IPv4 address is compared as a number, after a shift, and an IPv6
address byte by byte, the last one after a shift.

`torAddrCompareMasked_eq_zero_iff` says what an exact comparison is about: the two addresses are of
one family and their first bits are the same.
-/

namespace Astoria

inductive SaFamily
  | inet
  | inet6
  deriving DecidableEq

def SaFamily.number : SaFamily → ℕ
  | .inet => 2
  | .inet6 => 10

/-- An address.  An IPv4 address is in host order. -/
inductive TorAddr
  | ipv4 (addr : BitVec 32)
  | ipv6 (bytes : Vector (BitVec 8) 16)
  deriving DecidableEq

def TorAddr.family : TorAddr → SaFamily
  | .ipv4 _ => .inet
  | .ipv6 _ => .inet6

def TorAddr.bits : TorAddr → ℕ
  | .ipv4 _ => 32
  | .ipv6 _ => 128

/-- How two addresses of different families are compared. -/
inductive TorAddrComparison
  | exact
  | semantic
  deriving DecidableEq

def torAddrIsNull : TorAddr → Bool
  | .ipv4 a => a == 0
  | .ipv6 b => b.toList.all (· == 0)

/-- The address is an IPv4 address, or one that is mapped into IPv6. -/
def torAddrIsV4 : TorAddr → Bool
  | .ipv4 _ => true
  | .ipv6 b => (b.toList.take 10).all (· == 0) && b[10] == 0xff && b[11] == 0xff

/-- The last four bytes of an IPv6 address. -/
def torAddrToMappedIpv4h (b : Vector (BitVec 8) 16) : BitVec 32 :=
  b[12] ++ b[13] ++ b[14] ++ b[15]

/-- `-1`, `0` or `1`, as the first number is smaller, equal or greater. -/
def triState (a b : ℕ) : ℤ :=
  if a < b then -1 else if a = b then 0 else 1

/-- The bytes are compared from the last one to the first; a difference replaces what came
before. -/
def torMemcmp : List (BitVec 8) → List (BitVec 8) → ℤ
  | x :: a, y :: b => (if x = y then torMemcmp a b else 0) + (x.toNat - y.toNat)
  | _, _ => 0

/-- The first bits of two IPv4 addresses; more than 32 bits are 32. -/
def compareShifted (a₁ a₂ : BitVec 32) (mbits : ℕ) : ℤ :=
  triState (a₁ >>> (32 - min mbits 32)).toNat (a₂ >>> (32 - min mbits 32)).toNat

/-- The first bits of two IPv6 addresses: the whole bytes and then the bits of the next one. -/
def compareBytes (a₁ a₂ : List (BitVec 8)) (mbits : ℕ) : ℤ :=
  let bytes := mbits / 8
  let leftoverBits := mbits % 8
  let r := torMemcmp (a₁.take bytes) (a₂.take bytes)
  if bytes ≠ 0 ∧ r ≠ 0 then r
  else if leftoverBits ≠ 0 then
    triState (a₁.getD bytes 0 >>> (8 - leftoverBits)).toNat
      (a₂.getD bytes 0 >>> (8 - leftoverBits)).toNat
  else 0

/-- The first `mbits` bits of two addresses are compared.  Unless the comparison is exact, an IPv4
address is the same as its mapping into IPv6; the number of bits is that of the first address. -/
def torAddrCompareMasked (addr1 addr2 : TorAddr) (mbits : ℕ) (how : TorAddrComparison) : ℤ :=
  match addr1, addr2 with
  | .ipv4 a₁, .ipv4 a₂ => if mbits = 0 then 0 else compareShifted a₁ a₂ mbits
  | .ipv6 a₁, .ipv6 a₂ => compareBytes a₁.toList a₂.toList mbits
  | .ipv4 a₁, .ipv6 a₂ =>
    if how = .exact then triState SaFamily.inet.number SaFamily.inet6.number
    else if mbits = 0 then 0
    else if torAddrIsV4 (.ipv6 a₂) then compareShifted a₁ (torAddrToMappedIpv4h a₂) mbits
    else triState SaFamily.inet.number SaFamily.inet6.number
  | .ipv6 a₁, .ipv4 a₂ =>
    if how = .exact then triState SaFamily.inet6.number SaFamily.inet.number
    else if mbits = 0 then 0
    else if torAddrIsV4 (.ipv6 a₁) then
      -- the first 96 bits of a mapped address match
      if mbits ≤ 96 then 0 else compareShifted (torAddrToMappedIpv4h a₁) a₂ (mbits - 96)
    else triState SaFamily.inet6.number SaFamily.inet.number

/-- A bit of an address, from the front. -/
def TorAddr.bit : TorAddr → ℕ → Bool
  | .ipv4 a, i => a.getMsbD i
  | .ipv6 b, i => (b.toList.getD (i / 8) 0).getMsbD (i % 8)

/-- The addresses are of one family and have the same first bits. -/
def TorAddr.AgreeOn (a b : TorAddr) (m : ℕ) : Prop :=
  a.family = b.family ∧ ∀ i < m, a.bit i = b.bit i

namespace TorAddr.AgreeOn

variable {a b c : TorAddr} {m n : ℕ}

lemma symm (h : a.AgreeOn b m) : b.AgreeOn a m :=
  ⟨h.1.symm, fun i hi => (h.2 i hi).symm⟩

lemma trans (h : a.AgreeOn b m) (h' : b.AgreeOn c m) : a.AgreeOn c m :=
  ⟨h.1.trans h'.1, fun i hi => (h.2 i hi).trans (h'.2 i hi)⟩

lemma mono (h : a.AgreeOn b m) (hn : n ≤ m) : a.AgreeOn b n :=
  ⟨h.1, fun i hi => h.2 i (lt_of_lt_of_le hi hn)⟩

lemma zero (h : a.family = b.family) : a.AgreeOn b 0 :=
  ⟨h, fun i hi => absurd hi (Nat.not_lt_zero i)⟩

end TorAddr.AgreeOn

section Comparison

lemma triState_eq_zero_iff {a b : ℕ} : triState a b = 0 ↔ a = b := by
  unfold triState
  split_ifs with hlt heq
  · simpa using ne_of_lt hlt
  · simp [heq]
  · simp [heq]

/-- Two words whose last bits are shifted out are the same if their first bits are. -/
lemma ushiftRight_eq_iff {w : ℕ} (x y : BitVec w) (r : ℕ) :
    x >>> (w - r) = y >>> (w - r) ↔ ∀ i < r, x.getMsbD i = y.getMsbD i := by
  constructor
  · intro h i hi
    by_cases hw : i < w
    · have hbit := congrArg (fun z : BitVec w => z.getMsbD (i + (w - r))) h
      have hlt : i + (w - r) < w := by omega
      have hge : ¬i + (w - r) < w - r := by omega
      simpa [BitVec.getMsbD_ushiftRight, hlt, hge] using hbit
    · rw [BitVec.getMsbD_of_ge _ _ (not_lt.mp hw), BitVec.getMsbD_of_ge _ _ (not_lt.mp hw)]
  · intro h
    apply BitVec.eq_of_getMsbD_eq
    intro i hi
    rw [BitVec.getMsbD_ushiftRight, BitVec.getMsbD_ushiftRight]
    by_cases hshift : i < w - r
    · simp [hshift]
    · rw [h (i - (w - r)) (by omega)]

lemma bitVec_eq_iff {w : ℕ} (x y : BitVec w) : x = y ↔ ∀ i < w, x.getMsbD i = y.getMsbD i :=
  ⟨fun h _ _ => by rw [h], BitVec.eq_of_getMsbD_eq⟩

lemma compareShifted_eq_zero_iff (a₁ a₂ : BitVec 32) (m : ℕ) :
    compareShifted a₁ a₂ m = 0 ↔ ∀ i < m, a₁.getMsbD i = a₂.getMsbD i := by
  have hclamp : 32 - min m 32 = 32 - m := by omega
  rw [compareShifted, triState_eq_zero_iff, BitVec.toNat_inj, hclamp]
  exact ushiftRight_eq_iff a₁ a₂ m

lemma torMemcmp_eq_zero_iff {a b : List (BitVec 8)} (h : a.length = b.length) :
    torMemcmp a b = 0 ↔ a = b := by
  induction a generalizing b with
  | nil =>
    cases List.eq_nil_of_length_eq_zero h.symm
    exact iff_of_true rfl rfl
  | cons x a ih =>
    cases b with
    | nil => cases h
    | cons y b =>
      have hlen : a.length = b.length := Nat.succ.inj h
      rw [torMemcmp, List.cons.injEq]
      by_cases hxy : x = y
      · simp [hxy, ih hlen]
      · have hne : x.toNat ≠ y.toNat := fun heq => hxy (BitVec.eq_of_toNat_eq heq)
        simp only [hxy, if_false, false_and, iff_false]
        omega

/-- The first bytes are the same if each of them is. -/
lemma take_eq_iff_getD {a b : List (BitVec 8)} (h : a.length = b.length) (n : ℕ) :
    a.take n = b.take n ↔ ∀ k < n, a.getD k 0 = b.getD k 0 := by
  constructor
  · intro htake k hk
    have hget := congrArg (fun l => l.getD k 0) htake
    simpa [List.getD_eq_getElem?_getD, List.getElem?_take, hk] using hget
  · intro hget
    apply List.ext_getElem
    · rw [List.length_take, List.length_take, h]
    · intro k hka hkb
      rw [List.length_take] at hka hkb
      have hk := hget k (by omega)
      rw [List.getD_eq_getElem a 0 (by omega), List.getD_eq_getElem b 0 (by omega)] at hk
      simpa using hk

/-- The whole bytes and the bits of the next one are the first bits. -/
lemma compareBytes_eq_zero_iff {a₁ a₂ : List (BitVec 8)} (h : a₁.length = a₂.length) (m : ℕ) :
    compareBytes a₁ a₂ m = 0 ↔
      ∀ i < m, (a₁.getD (i / 8) 0).getMsbD (i % 8) = (a₂.getD (i / 8) 0).getMsbD (i % 8) := by
  have hwhole : (∀ k < m / 8, a₁.getD k 0 = a₂.getD k 0) ↔
      torMemcmp (a₁.take (m / 8)) (a₂.take (m / 8)) = 0 := by
    rw [torMemcmp_eq_zero_iff (by simp [h]), take_eq_iff_getD h]
  have hrest : (m % 8 = 0 ∨ a₁.getD (m / 8) 0 >>> (8 - m % 8) = a₂.getD (m / 8) 0 >>> (8 - m % 8)) ↔
      ∀ i < m % 8, (a₁.getD (m / 8) 0).getMsbD i = (a₂.getD (m / 8) 0).getMsbD i := by
    rw [ushiftRight_eq_iff]
    refine ⟨fun hor i hi => ?_, .inr⟩
    exact hor.elim (fun hzero => absurd hi (by omega)) fun hbits => hbits i hi
  have hsplit : compareBytes a₁ a₂ m = 0 ↔
      torMemcmp (a₁.take (m / 8)) (a₂.take (m / 8)) = 0 ∧ (m % 8 = 0 ∨
        a₁.getD (m / 8) 0 >>> (8 - m % 8) = a₂.getD (m / 8) 0 >>> (8 - m % 8)) := by
    unfold compareBytes
    by_cases hzero : m / 8 = 0
    · by_cases hleft : m % 8 = 0 <;>
        simp [-BitVec.toNat_ushiftRight, hzero, hleft, torMemcmp, triState_eq_zero_iff,
          BitVec.toNat_inj]
    · by_cases hcmp : torMemcmp (a₁.take (m / 8)) (a₂.take (m / 8)) = 0
      · by_cases hleft : m % 8 = 0 <;>
          simp [-BitVec.toNat_ushiftRight, hzero, hcmp, hleft, triState_eq_zero_iff,
            BitVec.toNat_inj]
      · simp [hzero, hcmp]
  rw [hsplit, ← hwhole, hrest]
  constructor
  · rintro ⟨hbytes, hbits⟩ i hi
    rcases lt_or_eq_of_le (Nat.div_le_div_right (le_of_lt hi) : i / 8 ≤ m / 8) with hlt | heq
    · rw [hbytes _ hlt]
    · rw [heq]
      exact hbits _ (by omega)
  · intro hall
    refine ⟨fun k hk => (bitVec_eq_iff _ _).mpr fun i hi => ?_, fun i hi => ?_⟩
    · have hbit := hall (8 * k + i) (by omega)
      rwa [show (8 * k + i) / 8 = k by omega, show (8 * k + i) % 8 = i by omega] at hbit
    · have hbit := hall (8 * (m / 8) + i) (by omega)
      rwa [show (8 * (m / 8) + i) / 8 = m / 8 by omega,
        show (8 * (m / 8) + i) % 8 = i by omega] at hbit

/-- **What an exact comparison is about.**  Two addresses compare equal in their first bits exactly
when they are of one family and have the same first bits. -/
theorem torAddrCompareMasked_eq_zero_iff (a b : TorAddr) (m : ℕ) :
    torAddrCompareMasked a b m .exact = 0 ↔ a.AgreeOn b m := by
  cases a with
  | ipv4 a₁ =>
    cases b with
    | ipv4 a₂ =>
      rw [torAddrCompareMasked]
      by_cases hm : m = 0
      · rw [if_pos hm, hm]
        exact iff_of_true rfl (TorAddr.AgreeOn.zero rfl)
      · rw [if_neg hm, compareShifted_eq_zero_iff]
        exact (and_iff_right rfl).symm
    | ipv6 a₂ =>
      refine iff_of_false (by decide : (-1 : ℤ) ≠ 0) fun h => ?_
      cases h.1
  | ipv6 a₁ =>
    cases b with
    | ipv4 a₂ =>
      refine iff_of_false (by decide : (1 : ℤ) ≠ 0) fun h => ?_
      cases h.1
    | ipv6 a₂ =>
      rw [torAddrCompareMasked, compareBytes_eq_zero_iff (by simp)]
      exact (and_iff_right rfl).symm

end Comparison

end Astoria
