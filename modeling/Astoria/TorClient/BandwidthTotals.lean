import Astoria.TorClient.ConsensusEntries

/-!
# The total bandwidths of a consensus

The bandwidth of each router is added to the total, and to the totals of one or two classes.  The
bandwidth is taken as a signed integer first.  Of a guard with a guardfraction, the part that counts
as a guard is added to the total, and the other part is added to its class only.

The totals add up to the bandwidths of the routers exactly if no bandwidth needs the sign bit and no
guard has a part that does not count as a guard (`update_total_bandwidth_weights_iff`).
-/

namespace Astoria

open List
open Option hiding guard
open Binary64 (nearest representable_one representable_natCast abs_nearest_sub_le)

/-- Add the bandwidths of routers, one after another, to totals of zero. -/
def totalBandwidthWeights (routers : List RsOut) : Option BwTotals :=
  routers.foldlM (fun b rs => updateTotalBandwidthWeights rs b) ⟨0, 0, 0, 0, 0⟩

namespace RsOut

/-- Only guards have guardfractions, and these are percentages. -/
structure Percentage (rs : RsOut) : Prop where
  le : ∀ p ∈ rs.guardfractionPercentage, p ≤ 100
  guard : rs.guardfractionPercentage.isSome → "Guard" ∈ rs.chosenFlags

/-- The bandwidth of a router, which is zero if it has none. -/
def bandwidth (rs : RsOut) : ℤ := (rs.bandwidthKb.map fun kb => (kb.toNat : ℤ)).getD 0

/-- The two parts of the bandwidth of a router, as they are counted. -/
def parts (rs : RsOut) : ℤ × ℤ := (rs.bandwidthKb.bind fun kb => classBandwidths rs kb).getD (0, 0)

/-- The bandwidth of a router fits a signed integer, and all of it counts as that of a guard if
there is a guardfraction: what does not is half a kilobyte at most. -/
def Whole (rs : RsOut) : Prop :=
  ∀ kb ∈ rs.bandwidthKb, kb.toNat < 2 ^ 31 ∧
    ∀ p ∈ rs.guardfractionPercentage, kb.toNat * (100 - p.toNat) ≤ 50

end RsOut

/-- The totals add up: none is negative, and the total of all is that of the classes and of the
routers that have a bandwidth. -/
structure BwTotals.AddUp (b : BwTotals) (routers : List RsOut) : Prop where
  nonneg : 0 ≤ b.g ∧ 0 ≤ b.m ∧ 0 ≤ b.e ∧ 0 ≤ b.d ∧ 0 ≤ b.t
  classes : b.t = b.g + b.m + b.e + b.d
  routers : b.t = (routers.map RsOut.bandwidth).sum

/-! ### The parts of a bandwidth -/

section Parts

lemma castInt32_of_lt {n : ℕ} (h : n < 2 ^ 31) : castInt32 n = n :=
  Int.bmod_eq_of_le (by omega) (by omega)

lemma castInt32_neg_of_le {n : ℕ} (hle : 2 ^ 31 ≤ n) (hlt : n < 2 ^ 32) : castInt32 n < 0 := by
  unfold castInt32
  rw [Int.bmod_def]
  omega

/-- The part is all of the number if the rest is half of one at most.  Where it is close to that,
the numbers are small and have been computed. -/
lemma percentOf_eq_iff {p n : ℕ} (hp : p ≤ 100) (hn : n < 2 ^ 31) :
    percentOf p n = n ↔ n * (100 - p) ≤ 50 := by
  constructor
  · intro heq
    by_contra hlt
    rw [percentOf_eq hp (by omega)] at heq
    have hfloor := Int.floor_le (nearest (nearest ((p : ℚ) / 100) * n) + 1 / 2)
    rw [heq] at hfloor
    have hrest : (51 : ℚ) ≤ n * (100 - p) := by
      have hle : 51 ≤ n * (100 - p) := by omega
      have hcast : ((100 - p : ℕ) : ℚ) = 100 - p := by rw [Nat.cast_sub hp, Nat.cast_ofNat]
      rw [← hcast]
      exact_mod_cast hle
    have hbound : (n : ℚ) ≤ 2 ^ 31 := by exact_mod_cast hn.le
    have hp' : (p : ℚ) ≤ 100 := by exact_mod_cast hp
    have hround {x : ℚ} (hx : 0 ≤ x) : nearest x ≤ x + x / 2 ^ 53 + 1 / 2 ^ 53 := by
      have htiny : (1 : ℚ) / 2 ^ 1075 ≤ 1 / 2 ^ 53 := by gcongr <;> norm_num
      have herr := (abs_le.mp ((abs_nearest_sub_le x).trans (add_le_add_right htiny _))).2
      rw [abs_of_nonneg hx] at herr
      linarith
    obtain ⟨hpos, hone⟩ := nearest_percent hp
    have hmul := mul_le_of_le_one_left (Nat.cast_nonneg (α := ℚ) n) hone
    have herr := hround (show (0 : ℚ) ≤ p / 100 by positivity)
    have herr' := hround (mul_nonneg hpos (Nat.cast_nonneg (α := ℚ) n))
    have hqn :=
      mul_le_mul_of_nonneg_right (show nearest ((p : ℚ) / 100) ≤ p / 100 + 1 / 2 ^ 52 by linarith)
        (Nat.cast_nonneg (α := ℚ) n)
    push_cast at hfloor
    linarith
  · intro hle
    rcases hp.eq_or_lt with rfl | hp
    · rw [percentOf_eq le_rfl (by omega), Nat.cast_ofNat, div_self (by norm_num),
        representable_one.nearest_eq,
        one_mul, (representable_natCast (by omega)).nearest_eq]
      exact Int.floor_eq_iff.mpr ⟨by simp, by push_cast; linarith⟩
    · have hsmall : ∀ n < 51, ∀ p < 100, n * (100 - p) ≤ 50 → percentOf p (n : ℕ) = n := by
        decide +kernel
      refine hsmall n ?_ p hp hle
      have := Nat.le_mul_of_pos_right n (Nat.sub_pos_of_lt hp)
      omega

section Counted

variable {rs : RsOut} {b : BwTotals}

lemma parts_of_none (h : rs.bandwidthKb = none) : rs.parts = (0, 0) := by
  rw [RsOut.parts, h]
  rfl

lemma parts_of_some {kb : UInt32} (h : rs.bandwidthKb = some kb)
    (hnone : rs.guardfractionPercentage = none) : rs.parts = (castInt32 kb.toNat, 0) := by
  rw [RsOut.parts, h, bind_some, classBandwidths, hnone]
  rfl

lemma parts_of_guardfraction {kb p : UInt32} (hrs : rs.Percentage) (h : rs.bandwidthKb = some kb)
    (hp : rs.guardfractionPercentage = some p) :
    rs.parts = (percentOf p.toNat (castInt32 kb.toNat),
      castInt32 kb.toNat - percentOf p.toNat (castInt32 kb.toNat)) := by
  have hguard : "Guard" ∈ rs.chosenFlags := hrs.guard (by rw [hp]; rfl)
  have hle : p ≤ 100 := hrs.le p hp
  obtain ⟨parts, hparts⟩ := exists_classBandwidths hrs.le hrs.guard kb
  rw [RsOut.parts, h, bind_some, hparts, getD_some]
  rw [classBandwidths, hp] at hparts
  dsimp only at hparts
  rw [if_pos hguard, guardGetGuardfractionBandwidth, if_pos hle] at hparts
  dsimp only at hparts
  split_ifs at hparts
  exact (Option.some.inj hparts).symm

/-- **The part that is added to the total** is the bandwidth at most, and all of it for a router
that is counted as a whole. -/
lemma parts_fst (hrs : rs.Percentage) :
    rs.parts.1 ≤ rs.bandwidth ∧ (rs.parts.1 = rs.bandwidth ↔ rs.Whole) := by
  unfold RsOut.bandwidth RsOut.Whole
  cases hkb : rs.bandwidthKb with
  | none =>
    rw [parts_of_none hkb]
    exact ⟨le_rfl, iff_of_true rfl nofun⟩
  | some kb =>
    have hlt : kb.toNat < 2 ^ 32 := kb.toNat_lt
    simp only [mem_some_iff, forall_eq', map_some, getD_some]
    by_cases hsign : kb.toNat < 2 ^ 31
    · rw [and_iff_right hsign]
      cases hp : rs.guardfractionPercentage with
      | none =>
        rw [parts_of_some hkb hp, castInt32_of_lt hsign]
        exact ⟨le_rfl, iff_of_true rfl nofun⟩
      | some p =>
        have hle : p.toNat ≤ 100 := UInt32.le_iff_toNat_le.mp (hrs.le p hp)
        rw [parts_of_guardfraction hrs hkb hp, castInt32_of_lt hsign]
        simp only [mem_some_iff, forall_eq']
        exact ⟨(percentOf_le hle (by omega)).2, percentOf_eq_iff hle hsign⟩
    · have hneg := castInt32_neg_of_le (not_lt.mp hsign) hlt
      have hpart : rs.parts.1 ≤ 0 := by
        cases hp : rs.guardfractionPercentage with
        | none =>
          rw [parts_of_some hkb hp]
          dsimp only
          omega
        | some p =>
          rw [parts_of_guardfraction hrs hkb hp]
          dsimp only
          exact percentOf_nonpos (UInt32.le_iff_toNat_le.mp (hrs.le p hp)) hneg.le
      exact ⟨by omega, iff_of_false (by omega) fun h => hsign h.1⟩

lemma parts_of_whole (hrs : rs.Percentage) (h : rs.Whole) : 0 ≤ rs.parts.1 ∧ rs.parts.2 = 0 := by
  have hfst := (parts_fst hrs).2.mpr h
  have hnonneg : 0 ≤ rs.bandwidth := by
    unfold RsOut.bandwidth
    cases rs.bandwidthKb <;> simp
  refine ⟨hfst ▸ hnonneg, ?_⟩
  unfold RsOut.bandwidth at hfst
  cases hkb : rs.bandwidthKb with
  | none => exact congrArg Prod.snd (parts_of_none hkb)
  | some kb =>
    cases hp : rs.guardfractionPercentage with
    | none => exact congrArg Prod.snd (parts_of_some hkb hp)
    | some p =>
      rw [parts_of_guardfraction hrs hkb hp, hkb] at hfst
      rw [parts_of_guardfraction hrs hkb hp, castInt32_of_lt (h kb hkb).1]
      rw [castInt32_of_lt (h kb hkb).1] at hfst
      simp only [map_some, getD_some] at hfst
      exact sub_eq_zero.mpr hfst.symm

def BwTotals.classTotal (b : BwTotals) : ℤ := b.g + b.m + b.e + b.d

def BwTotals.Nonneg (b : BwTotals) : Prop := 0 ≤ b.g ∧ 0 ≤ b.m ∧ 0 ≤ b.e ∧ 0 ≤ b.d

/-- **One router**: the first part is added to the total, and both are added to the classes. -/
lemma updateTotalBandwidthWeights_spec (hrs : rs.Percentage) (b : BwTotals) :
    ∃ b', updateTotalBandwidthWeights rs b = some b' ∧ b'.t = b.t + rs.parts.1 ∧
      b'.classTotal = b.classTotal + (rs.parts.1 + rs.parts.2) ∧
      (b.Nonneg → 0 ≤ rs.parts.1 → 0 ≤ rs.parts.2 → b'.Nonneg) := by
  unfold updateTotalBandwidthWeights
  cases hkb : rs.bandwidthKb with
  | none =>
    rw [parts_of_none hkb]
    exact ⟨b, rfl, (Int.add_zero _).symm, (Int.add_zero _).symm, fun h _ _ => h⟩
  | some kb =>
    obtain ⟨p, hp⟩ := exists_classBandwidths hrs.le hrs.guard kb
    have hparts : rs.parts = p := by rw [RsOut.parts, hkb, bind_some, hp, getD_some]
    -- other routers have no second part
    have hother : "Guard" ∉ rs.chosenFlags → p.2 = 0 := by
      intro hguard
      cases hg : rs.guardfractionPercentage with
      | none => exact hparts ▸ congrArg Prod.snd (parts_of_some hkb hg)
      | some g => exact absurd (hrs.guard (by rw [hg]; rfl)) hguard
    rw [hparts]
    simp only [hp, bind_eq_bind, bind_some, decide_eq_true_eq]
    unfold BwTotals.classTotal BwTotals.Nonneg
    split_ifs with h1 h2 h3
    · refine ⟨_, rfl, rfl, ?_, ?_⟩ <;> dsimp only <;> omega
    · have hsnd := hother fun hguard => h1 ⟨h2, hguard⟩
      refine ⟨_, rfl, rfl, ?_, ?_⟩ <;> dsimp only <;> omega
    · refine ⟨_, rfl, rfl, ?_, ?_⟩ <;> dsimp only <;> omega
    · have hsnd := hother h3
      refine ⟨_, rfl, rfl, ?_, ?_⟩ <;> dsimp only <;> omega

/-- **All routers**: the parts of their bandwidths are added up. -/
lemma foldlM_updateTotalBandwidthWeights {routers : List RsOut}
    (hrs : ∀ rs ∈ routers, rs.Percentage) (b : BwTotals) :
    ∃ b', routers.foldlM (fun b rs => updateTotalBandwidthWeights rs b) b = some b' ∧
      b'.t = b.t + (routers.map fun rs => rs.parts.1).sum ∧
      b'.classTotal = b.classTotal + (routers.map fun rs => rs.parts.1 + rs.parts.2).sum ∧
      (b.Nonneg → (∀ rs ∈ routers, 0 ≤ rs.parts.1 ∧ 0 ≤ rs.parts.2) → b'.Nonneg) := by
  induction routers generalizing b with
  | nil => exact ⟨b, rfl, (Int.add_zero _).symm, (Int.add_zero _).symm, fun h _ => h⟩
  | cons rs routers ih =>
    obtain ⟨hfirst, hrest⟩ := forall_mem_cons.mp hrs
    obtain ⟨b₁, hb₁, ht₁, hclass₁, hnonneg₁⟩ := updateTotalBandwidthWeights_spec hfirst b
    obtain ⟨b', hb', ht, hclass, hnonneg⟩ := ih hrest b₁
    refine ⟨b', ?_, ?_, ?_, fun hb hparts => ?_⟩
    · rw [foldlM_cons, hb₁]
      exact hb'
    · rw [ht, ht₁, map_cons, sum_cons, add_assoc]
    · rw [hclass, hclass₁, map_cons, sum_cons, add_assoc]
    · obtain ⟨hparts₁, hparts⟩ := forall_mem_cons.mp hparts
      exact hnonneg (hnonneg₁ hb hparts₁.1 hparts₁.2) hparts

end Counted

end Parts

/-! ### The totals -/

/-- Sums of numbers that are below others are equal only if the numbers are. -/
lemma sum_map_eq_iff {α : Type*} {l : List α} {f g : α → ℤ} (h : ∀ a ∈ l, f a ≤ g a) :
    (l.map f).sum = (l.map g).sum ↔ ∀ a ∈ l, f a = g a := by
  induction l with
  | nil => exact iff_of_true rfl nofun
  | cons a l ih =>
    obtain ⟨hfirst, hrest⟩ := forall_mem_cons.mp h
    have hsum : (l.map f).sum ≤ (l.map g).sum := sum_le_sum hrest
    rw [map_cons, sum_cons, map_cons, sum_cons, forall_mem_cons, ← ih hrest]
    omega

/-- **The totals add up** exactly if every router is counted as a whole: its bandwidth fits a signed
integer, and if it has a guardfraction, all of its bandwidth counts as that of a guard. -/
theorem update_total_bandwidth_weights_iff {routers : List RsOut}
    (hrs : ∀ rs ∈ routers, rs.Percentage) : ∃ b, totalBandwidthWeights routers = some b ∧
    (b.AddUp routers ↔ ∀ rs ∈ routers, rs.Whole) := by
  obtain ⟨b, hb, ht, hclass, hnonneg⟩ := foldlM_updateTotalBandwidthWeights hrs ⟨0, 0, 0, 0, 0⟩
  refine ⟨b, hb, ?_⟩
  have hparts : ∀ rs ∈ routers, rs.parts.1 ≤ rs.bandwidth := fun rs hmem =>
    (parts_fst (hrs rs hmem)).1
  have hwhole : b.t = (routers.map RsOut.bandwidth).sum ↔ ∀ rs ∈ routers, rs.Whole := by
    rw [ht, zero_add, sum_map_eq_iff hparts]
    exact forall₂_congr fun rs hmem => (parts_fst (hrs rs hmem)).2
  constructor
  · exact fun h => hwhole.mp h.routers
  · intro h
    have hall : ∀ rs ∈ routers, 0 ≤ rs.parts.1 ∧ rs.parts.2 = 0 :=
      fun rs hmem => parts_of_whole (hrs rs hmem) (h rs hmem)
    have hclasses : b.t = b.classTotal := by
      have hsame : routers.map (fun rs => rs.parts.1 + rs.parts.2) = routers.map fun rs =>
          rs.parts.1 :=
        map_congr_left fun rs hmem => by rw [(hall rs hmem).2, add_zero]
      rw [ht, hclass, hsame]
      rfl
    obtain ⟨hg, hm, he, hd⟩ := hnonneg ⟨le_rfl, le_rfl, le_rfl, le_rfl⟩ fun rs hmem =>
      ⟨(hall rs hmem).1, (hall rs hmem).2.ge⟩
    unfold BwTotals.classTotal at hclasses
    exact ⟨⟨hg, hm, he, hd, by omega⟩, hclasses, hwhole.mpr h⟩

def guardVote : VoteRouterstatus where
  identityDigest := 1
  descriptorDigest := 1
  nickname := "guard"
  publishedOn := 0
  addr := 1
  orPort := 9001
  dirPort := 0
  flags := 0
  version := none
  measuredBwKb := none
  bandwidthKb := some 1000
  guardfractionPercentage := none
  exitsummary := none
  ipv6Addr := 0
  ipv6Orport := 0
  microdesc := []

def guardRouter (bandwidthKb percentage : UInt32) : RsOut where
  identityDigest := 1
  nickname := "guard"
  chosenFlags := ["Guard"]
  rs := guardVote
  listed := [guardVote]
  matchingDescs := [guardVote]
  version := none
  guardfractionPercentage := some percentage
  bandwidthKb := some bandwidthKb
  bwIsUnmeasured := true
  exitsummary := none
  altOrport := none
  microdescDigest := 0

lemma percentage_guardRouter {bandwidthKb percentage : UInt32} (h : percentage ≤ 100) :
    (guardRouter bandwidthKb percentage).Percentage := by
  refine ⟨fun p hp => ?_, fun _ => mem_singleton_self _⟩
  obtain rfl := Option.some.inj hp
  exact h

lemma whole_guardRouter {bandwidthKb percentage : UInt32} :
    (guardRouter bandwidthKb percentage).Whole ↔
    bandwidthKb.toNat < 2 ^ 31 ∧ bandwidthKb.toNat * (100 - percentage.toNat) ≤ 50 := by
  simp [RsOut.Whole, guardRouter]

/-- Two guards of which everything counts as a guard, up to half a kilobyte, and then a third
one. -/
theorem update_total_bandwidth_weights_guards :
    (∃ b, totalBandwidthWeights [guardRouter 1000 100, guardRouter 50 99] = some b ∧
      b.AddUp [guardRouter 1000 100, guardRouter 50 99]) ∧
    ∃ b, totalBandwidthWeights [guardRouter 1000 100, guardRouter 50 99, guardRouter 50 29] =
      some b ∧ ¬ b.AddUp [guardRouter 1000 100, guardRouter 50 99, guardRouter 50 29] := by
  obtain ⟨b, hb, hiff⟩ := @update_total_bandwidth_weights_iff
    [guardRouter 1000 100, guardRouter 50 99] (by simp [percentage_guardRouter])
  obtain ⟨b', hb', hiff'⟩ := @update_total_bandwidth_weights_iff
    [guardRouter 1000 100, guardRouter 50 99, guardRouter 50 29] (by simp [percentage_guardRouter])
  simp only [forall_mem_cons, whole_guardRouter] at hiff hiff'
  exact ⟨⟨b, hb, hiff.mpr (by simp)⟩, b', hb',
    fun h => absurd (hiff'.mp h).2.2.1.2 (by decide)⟩

/-- **The totals do not add up** for a guard of which one half counts as a guard. -/
theorem not_update_total_bandwidth_weights :
    ¬ ∀ routers : List RsOut, (∀ rs ∈ routers, rs.Percentage) →
      ∃ b, totalBandwidthWeights routers = some b ∧ b.AddUp routers := by
  intro h
  obtain ⟨b, hb, haddUp⟩ := h [guardRouter 1000 50]
    (forall_mem_singleton.mpr (percentage_guardRouter (by decide)))
  have hcomputed : (totalBandwidthWeights [guardRouter 1000 50]).map
      (fun b => (b.t, b.g + b.m + b.e + b.d)) = some (500, 1000) := by decide +kernel
  rw [hb, map_some, Option.some.injEq, Prod.mk.injEq] at hcomputed
  have hclasses := haddUp.classes
  omega

end Astoria
