import Astoria.Library.Binary64
import Astoria.TorClient.Base64
import Astoria.TorClient.BwWeights
import Astoria.TorClient.ConsensusParams
import Astoria.TorClient.TorVersion

/-!
# The entries of a consensus

Once a router is in the consensus, its version, bandwidth, exit policy summary and the rest of its
entry are computed from what the votes say about it: each is a median or the most frequent value.
The total bandwidths of the classes of routers are counted on the way.

A failed assertion is `none`.  None fails for routers of votes that the parser accepted
(`exists_addEntry`).
-/

namespace Astoria

open List Option
open Binary64 (nearest nearest_nonneg representable_one representable_natCast)

/-- The flavors of a consensus (`consensus_flavor_t`). -/
inductive ConsensusFlavor
  | ns | microdesc
  deriving DecidableEq

/-- The text from the first occurrence of a pattern on (`strstr`). -/
def strstr (s pattern : DocText) : Option DocText := s.tails.find? (pattern.isPrefixOf ·)

/-! ### Microdescriptors -/

/-- The rest of a line from a method on, if it is one of the methods at the start of the line.  Each
pass skips at least one character. -/
def methodListed (mstr : DocText) : ℕ → DocText → Option DocText
  | 0, _ => none
  | n + 1, cp =>
    let num := cp.takeWhile Char.isDigit
    if num = mstr then some cp
    else if num = [] ∨ (cp.drop num.length).head? ≠ some ',' then none
    else methodListed mstr n (cp.drop (num.length + 1))

/-- The digest of the microdescriptor in the first line that lists a method
(`vote_routerstatus_find_microdesc_hash`). -/
def findMicrodescHash (method : ℕ) : List DocText → Option Digest
  | [] => none
  | line :: rest =>
    match methodListed (Nat.toDigits 10 method) (line.length + 1) line with
    | none => findMicrodescHash method rest
    | some cp => do
      let cp ← strstr cp " sha256=".toList
      digestFromBase64 32 ((cp.drop 8).take (base64DigestLen 32))

/-! ### The values of an entry -/

/-- What the consensus says about a router (`rs_out`). -/
structure RsOut extends ConsensusRouter where
  version : Option String
  guardfractionPercentage : Option UInt32
  bandwidthKb : Option UInt32
  bwIsUnmeasured : Bool
  exitsummary : Option String
  altOrport : Option (BitVec 128 × UInt16)
  /-- The digest of the microdescriptor, which is zero if there is none. -/
  microdescDigest : Digest

/-- The median of 32-bit numbers. -/
def medianUInt32 (l : List UInt32) : Option UInt32 :=
  (median (l.map UInt32.toNat)).map UInt32.ofNat

/-- The first consensus method with IPv6 addresses (`MIN_METHOD_FOR_A_LINES`). -/
def minMethodForALines : ℕ := 14

/-- The first consensus method with clipped bandwidths (`MIN_METHOD_TO_CLIP_UNMEASURED_BW`). -/
def minMethodToClipUnmeasuredBw : ℕ := 17

/-- The first consensus method with guardfractions (`MIN_METHOD_FOR_GUARDFRACTION`). -/
def minMethodForGuardfraction : ℕ := 20

/-- The order of IPv6 addresses with ports. -/
def compareOrports (a b : BitVec 128 × UInt16) : ℤ :=
  if memcmp a.1.toNat b.1.toNat ≠ 0 then memcmp a.1.toNat b.1.toNat
  else b.2.toNat - a.2.toNat

section Entry

variable (smartlistSort : ∀ α : Type, SmartlistSort α) (consensusMethod : ℕ)

/-- The entries that agree with the most popular one. -/
def ConsensusRouter.agreeing (r : ConsensusRouter) : List VoteRouterstatus :=
  r.matchingDescs.filter fun rs => compareVoteRs r.rs rs = 0

/-- The IPv6 address of a router, from the entries that agree with the most popular one. -/
def chosenAltOrport (r : ConsensusRouter) : Option (BitVec 128 × UInt16) :=
  if consensusMethod < minMethodForALines then none
  else
    let altOrports := (r.agreeing.filter fun rs => rs.ipv6Addr ≠ 0 ∧ rs.ipv6Orport ≠ 0).map
      fun rs => (rs.ipv6Addr, rs.ipv6Orport)
    smartlistGetMostFrequent compareOrports ((smartlistSort _).sort compareOrports altOrports)

/-- The digest of the microdescriptor of a router, from the same entries. -/
def chosenMicrodescDigest (r : ConsensusRouter) : Digest :=
  let digests := r.agreeing.filterMap fun rs => findMicrodescHash consensusMethod rs.microdesc
  (smartlistGetMostFrequent digestcmp ((smartlistSort _).sort digestcmp digests)).getD 0

def chosenVersion (r : ConsensusRouter) : Option String :=
  let versions := r.listed.filterMap fun rs => rs.version.filter (· ≠ "")
  smartlistGetMostFrequent strcmp ((smartlistSort _).sort compareTorVersionStr versions)

/-- The guardfraction of a router, if it is a guard and there are enough votes.  It must be a
percentage. -/
def chosenGuardfraction (r : ConsensusRouter) : Option (Option UInt32) :=
  let inputs := r.listed.filterMap (·.guardfractionPercentage)
  if "Guard" ∈ r.chosenFlags ∧ 2 < inputs.length ∧ minMethodForGuardfraction ≤ consensusMethod then
    match medianUInt32 inputs with
    | none => none
    | some g => if g ≤ 100 then some (some g) else none
  else some none

/-- The bandwidth of a router and whether it is unmeasured. -/
def chosenBandwidth (maxUnmeasuredBwKb : UInt32) (nAuthoritiesMeasuringBandwidth : ℕ)
    (r : ConsensusRouter) : Option UInt32 × Bool :=
  let measuredBwsKb := r.listed.filterMap (·.measuredBwKb)
  let bandwidthsKb := r.listed.filterMap (·.bandwidthKb)
  if 2 < measuredBwsKb.length then (medianUInt32 measuredBwsKb, false)
  else if 0 < bandwidthsKb.length then
    ((medianUInt32 bandwidthsKb).map fun bandwidthKb =>
      if minMethodToClipUnmeasuredBw ≤ consensusMethod ∧ 2 < nAuthoritiesMeasuringBandwidth ∧
          maxUnmeasuredBwKb < bandwidthKb then maxUnmeasuredBwKb
      else bandwidthKb, true)
  else (none, false)

/-- The exit policy summary of a router: the one with its descriptor, or the most frequent one if
there is disagreement or none. -/
def chosenExitsummary (r : ConsensusRouter) : Option String :=
  let exitsummaries := (r.matchingDescs.filter fun rs =>
    rs.descriptorDigest = r.rs.descriptorDigest).filterMap (·.exitsummary)
  match exitsummaries with
  | [] => smartlistGetMostFrequent strcmp
      ((r.matchingDescs.filterMap (·.exitsummary)).insertionSort (· ≤ ·))
  | first :: rest =>
    if rest.any (· ≠ first) then
      smartlistGetMostFrequent strcmp (exitsummaries.insertionSort (· ≤ ·))
    else some first

/-- The entry of a router.  All votes from which it is computed must be about the router. -/
def consensusEntry (maxUnmeasuredBwKb : UInt32) (nAuthoritiesMeasuringBandwidth : ℕ)
    (r : ConsensusRouter) : Option RsOut := do
  let guardfractionPercentage ← chosenGuardfraction consensusMethod r
  if r.matchingDescs.all fun rs => decide (rs.identityDigest = r.identityDigest) then
    some { r with
      version := chosenVersion smartlistSort r
      guardfractionPercentage := guardfractionPercentage
      bandwidthKb :=
        (chosenBandwidth consensusMethod maxUnmeasuredBwKb nAuthoritiesMeasuringBandwidth r).1
      bwIsUnmeasured := (chosenBandwidth consensusMethod maxUnmeasuredBwKb
        nAuthoritiesMeasuringBandwidth r).2
      exitsummary := chosenExitsummary r
      altOrport := chosenAltOrport smartlistSort consensusMethod r
      microdescDigest := chosenMicrodescDigest smartlistSort consensusMethod r }
  else none

/-! ### The totals -/

/-- The closest integer, away from zero if there are two (`tor_lround`). -/
def lround (x : ℚ) : ℤ := if 0 ≤ x then ⌊x + 1 / 2⌋ else -⌊1 / 2 - x⌋

/-- A percentage of a bandwidth; the fraction and the product are rounded. -/
def percentOf (p : ℕ) (bandwidth : ℤ) : ℤ :=
  lround (Binary64.nearest (Binary64.nearest (p / 100) * bandwidth))

/-- The parts of a bandwidth that count as the bandwidth of a guard and of another router
(`guard_get_guardfraction_bandwidth`). -/
def guardGetGuardfractionBandwidth (origBandwidth : ℤ) (guardfractionPercentage : UInt32) :
    Option (ℤ × ℤ) :=
  if guardfractionPercentage ≤ 100 then
    let guardBw := percentOf guardfractionPercentage.toNat origBandwidth
    if guardBw ≤ 2 ^ 31 - 1 then some (guardBw, origBandwidth - guardBw) else none
  else none

/-- The bandwidth of a router that counts for its class, and the rest of it.  Only guards have
guardfractions. -/
def classBandwidths (rs : RsOut) (bandwidthKb : UInt32) : Option (ℤ × ℤ) :=
  match rs.guardfractionPercentage with
  | none => some (castInt32 bandwidthKb.toNat, 0)
  | some g =>
    if "Guard" ∈ rs.chosenFlags then guardGetGuardfractionBandwidth (castInt32 bandwidthKb.toNat) g
    else none

/-- Add the bandwidth of a router to the totals of its class. -/
def updateTotalBandwidthWeights (rs : RsOut) (b : BwTotals) : Option BwTotals :=
  let isExit := decide ("Exit" ∈ rs.chosenFlags ∧ "BadExit" ∉ rs.chosenFlags)
  let isGuard := decide ("Guard" ∈ rs.chosenFlags)
  match rs.bandwidthKb with
  | none => some b
  | some bandwidthKb => do
    let (defaultBandwidth, guardfractionBandwidth) ← classBandwidths rs bandwidthKb
    let b := { b with t := b.t + defaultBandwidth }
    if isExit ∧ isGuard then
      some { b with d := b.d + defaultBandwidth, e := b.e + guardfractionBandwidth }
    else if isExit then some { b with e := b.e + defaultBandwidth }
    else if isGuard then
      some { b with g := b.g + defaultBandwidth, m := b.m + guardfractionBandwidth }
    else some { b with m := b.m + defaultBandwidth }

/-- Add the entry of one router.  A consensus of microdescriptors leaves it out if there is no
digest. -/
def addEntry (flavor : ConsensusFlavor) (maxUnmeasuredBwKb : UInt32)
    (nAuthoritiesMeasuringBandwidth : ℕ) (acc : List RsOut × BwTotals) (r : ConsensusRouter) :
    Option (List RsOut × BwTotals) := do
  let rsOut ← consensusEntry smartlistSort consensusMethod maxUnmeasuredBwKb
    nAuthoritiesMeasuringBandwidth r
  let totals ← updateTotalBandwidthWeights rsOut acc.2
  if flavor = .microdesc ∧ rsOut.microdescDigest = 0 then some (acc.1, totals)
  else some (acc.1 ++ [rsOut], totals)

end Entry

/-! ### The assertions -/

/-- The votes about a router are as the parser and the merging of the votes leave them. -/
structure ConsensusRouter.Ok (r : ConsensusRouter) : Prop where
  guardfraction_le : ∀ rs ∈ r.listed, ∀ g ∈ rs.guardfractionPercentage, g ≤ 100
  perm : r.matchingDescs.Perm r.listed
  identity : ∀ rs ∈ r.listed, rs.identityDigest = r.identityDigest

section Assertions

variable {r : ConsensusRouter}

lemma exists_medianUInt32 {l : List UInt32} (h : l ≠ []) : ∃ x ∈ l, medianUInt32 l = some x := by
  have hmap : l.map UInt32.toNat ≠ [] := fun hnil => h (map_eq_nil_iff.mp hnil)
  obtain ⟨n, hn, hmedian⟩ := exists_median hmap
  obtain ⟨x, hx, rfl⟩ := List.mem_map.mp hn
  exact ⟨x, hx, by rw [medianUInt32, hmedian, map_some, UInt32.ofNat_toNat]⟩

/-- **The guardfraction is a percentage**, and only guards have one. -/
lemma exists_chosenGuardfraction (h : r.Ok) (consensusMethod : ℕ) :
    ∃ g, chosenGuardfraction consensusMethod r = some g ∧ (∀ x ∈ g, x ≤ 100) ∧
      (g.isSome → "Guard" ∈ r.chosenFlags) := by
  unfold chosenGuardfraction
  by_cases hc : "Guard" ∈ r.chosenFlags ∧
      2 < (r.listed.filterMap (·.guardfractionPercentage)).length ∧
      minMethodForGuardfraction ≤ consensusMethod
  · obtain ⟨x, hx, hmedian⟩ := exists_medianUInt32 (length_pos_iff.mp (Nat.zero_lt_of_lt hc.2.1))
    obtain ⟨rs, hrs, hg⟩ := mem_filterMap.mp hx
    have hle : x ≤ 100 := h.guardfraction_le rs hrs x hg
    refine ⟨some x, ?_, ?_, fun _ => hc.1⟩
    · simp only [if_pos hc, hmedian, if_pos hle]
    · rintro y hy
      obtain rfl := Option.some.inj hy
      exact hle
  · refine ⟨none, ?_, by simp, by simp⟩
    simp only [if_neg hc]

section Percent

variable {p n : ℕ} (hp : p ≤ 100)

lemma lround_of_nonneg {x : ℚ} (h : 0 ≤ x) : lround x = ⌊x + 1 / 2⌋ := if_pos h

include hp

/-- The fraction is between zero and one. -/
lemma nearest_percent : 0 ≤ nearest ((p : ℚ) / 100) ∧ nearest ((p : ℚ) / 100) ≤ 1 := by
  have hnonneg : (0 : ℚ) ≤ p / 100 := by positivity
  have hle : (p : ℚ) ≤ 100 := by exact_mod_cast hp
  exact ⟨nearest_nonneg hnonneg, representable_one.nearest_le hnonneg (by linarith)⟩

lemma nearest_percent_mul (hn : n ≤ 2 ^ 53) :
    0 ≤ nearest (nearest ((p : ℚ) / 100) * n) ∧ nearest (nearest ((p : ℚ) / 100) * n) ≤ n := by
  obtain ⟨hpos, hone⟩ := nearest_percent hp
  have hnonneg : 0 ≤ nearest ((p : ℚ) / 100) * n := mul_nonneg hpos (Nat.cast_nonneg n)
  exact ⟨nearest_nonneg hnonneg, (representable_natCast hn).nearest_le hnonneg
    (mul_le_of_le_one_left (Nat.cast_nonneg n) hone)⟩

lemma percentOf_eq (hn : n ≤ 2 ^ 53) :
    percentOf p n = ⌊nearest (nearest ((p : ℚ) / 100) * n) + 1 / 2⌋ := by
  rw [percentOf, Int.cast_natCast]
  exact lround_of_nonneg (nearest_percent_mul hp hn).1

lemma percentOf_le (hn : n ≤ 2 ^ 53) : 0 ≤ percentOf p n ∧ percentOf p n ≤ n := by
  obtain ⟨hpos, hle⟩ := nearest_percent_mul hp hn
  rw [percentOf_eq hp hn]
  refine ⟨Int.floor_nonneg.mpr (by linarith), Int.lt_add_one_iff.mp (Int.floor_lt.mpr ?_)⟩
  push_cast
  linarith

lemma percentOf_nonpos {n : ℤ} (hn : n ≤ 0) : percentOf p n ≤ 0 := by
  have hle : nearest (nearest ((p : ℚ) / 100) * n) ≤ 0 := by
    have hmul : nearest ((p : ℚ) / 100) * n ≤ 0 :=
      mul_nonpos_of_nonneg_of_nonpos (nearest_percent hp).1 (Int.cast_nonpos.mpr hn)
    simpa using @Binary64.nearest_le_of_int _ 0 (by simpa using hmul)
  unfold percentOf lround
  split_ifs with h
  · rw [le_antisymm hle h]
    norm_num
  · exact neg_nonpos.mpr (Int.floor_nonneg.mpr (by linarith))

end Percent

/-- A percentage of a number that fits 32 bits fits 32 bits. -/
lemma exists_guardGetGuardfractionBandwidth {origBandwidth : ℤ} (horig : origBandwidth ≤ 2 ^ 31 - 1)
    {g : UInt32} (hg : g ≤ 100) : ∃ p, guardGetGuardfractionBandwidth origBandwidth g = some p := by
  have hnat : g.toNat ≤ 100 := UInt32.le_iff_toNat_le.mp hg
  have hle : percentOf g.toNat origBandwidth ≤ 2 ^ 31 - 1 := by
    rcases le_total origBandwidth 0 with hneg | hpos
    · exact (percentOf_nonpos hnat hneg).trans (by decide)
    · lift origBandwidth to ℕ using hpos
      exact (percentOf_le hnat (by omega)).2.trans horig
  exact ⟨_, by rw [guardGetGuardfractionBandwidth, if_pos hg]; exact if_pos hle⟩

/-- **The entry of a router** can be computed. -/
lemma exists_consensusEntry (h : r.Ok) (smartlistSort : ∀ α : Type, SmartlistSort α)
    (consensusMethod : ℕ) (maxUnmeasuredBwKb : UInt32) (nAuthoritiesMeasuringBandwidth : ℕ) :
    ∃ rsOut, consensusEntry smartlistSort consensusMethod maxUnmeasuredBwKb
        nAuthoritiesMeasuringBandwidth r = some rsOut ∧ rsOut.toConsensusRouter = r ∧
      (∀ x ∈ rsOut.guardfractionPercentage, x ≤ 100) ∧
      (rsOut.guardfractionPercentage.isSome → "Guard" ∈ rsOut.chosenFlags) := by
  obtain ⟨g, hg, hle, hguard⟩ := exists_chosenGuardfraction h consensusMethod
  have hall : r.matchingDescs.all (fun rs => decide (rs.identityDigest = r.identityDigest)) =
      true :=
    List.all_eq_true.mpr fun rs hrs => decide_eq_true (h.identity rs (h.perm.mem_iff.mp hrs))
  unfold consensusEntry
  simp only [hg, bind_eq_bind, bind_some, if_pos hall]
  exact ⟨_, rfl, rfl, hle, hguard⟩

lemma exists_classBandwidths {rsOut : RsOut} (hle : ∀ x ∈ rsOut.guardfractionPercentage, x ≤ 100)
    (hguard : rsOut.guardfractionPercentage.isSome → "Guard" ∈ rsOut.chosenFlags)
    (bandwidthKb : UInt32) : ∃ p, classBandwidths rsOut bandwidthKb = some p := by
  unfold classBandwidths
  cases hg : rsOut.guardfractionPercentage with
  | none => exact ⟨_, rfl⟩
  | some g =>
    rw [hg] at hle hguard
    have hbound : castInt32 bandwidthKb.toNat ≤ 2 ^ 31 - 1 := by
      have hlt := Int.bmod_lt (x := bandwidthKb.toNat) (m := 2 ^ 32) (by decide)
      unfold castInt32
      omega
    dsimp only
    rw [if_pos (hguard rfl)]
    exact exists_guardGetGuardfractionBandwidth hbound (hle g rfl)

/-- **The totals** can be updated. -/
lemma exists_updateTotalBandwidthWeights {rsOut : RsOut}
    (hle : ∀ x ∈ rsOut.guardfractionPercentage, x ≤ 100)
    (hguard : rsOut.guardfractionPercentage.isSome → "Guard" ∈ rsOut.chosenFlags) (b : BwTotals) :
    ∃ b', updateTotalBandwidthWeights rsOut b = some b' := by
  unfold updateTotalBandwidthWeights
  cases rsOut.bandwidthKb with
  | none => exact ⟨b, rfl⟩
  | some bandwidthKb =>
    obtain ⟨p, hp⟩ := exists_classBandwidths hle hguard bandwidthKb
    simp only [hp, bind_eq_bind, bind_some]
    split_ifs
    all_goals exact ⟨_, rfl⟩

/-- **Adding an entry** does not fail. -/
lemma exists_addEntry (h : r.Ok) (smartlistSort : ∀ α : Type, SmartlistSort α) (consensusMethod : ℕ)
    (flavor : ConsensusFlavor) (maxUnmeasuredBwKb : UInt32) (nAuthoritiesMeasuringBandwidth : ℕ)
    (acc : List RsOut × BwTotals) :
    ∃ acc', addEntry smartlistSort consensusMethod flavor maxUnmeasuredBwKb
      nAuthoritiesMeasuringBandwidth acc r = some acc' := by
  obtain ⟨rsOut, hentry, -, hle, hguard⟩ := exists_consensusEntry h smartlistSort consensusMethod
    maxUnmeasuredBwKb nAuthoritiesMeasuringBandwidth
  obtain ⟨totals, htotals⟩ := exists_updateTotalBandwidthWeights hle hguard acc.2
  unfold addEntry
  simp only [hentry, htotals, bind_eq_bind, bind_some]
  split_ifs
  all_goals exact ⟨_, rfl⟩

end Assertions

end Astoria
