import Astoria.TorClient.ConsensusEntries
import Astoria.TorClient.ConsensusMajority

/-!
# Computing a consensus

The consensus is computed from the votes in sections: the times, the parameters, the routers and the
bandwidth weights.  A failed assertion of any of these computations is `none`.

The parser has checked for each vote what the assertions need, with one exception: nothing makes a
vote valid for longer than it is fresh.  So an assertion fails for some votes, and exactly for those
whose median times are too close (`networkstatus_compute_consensus_asserts`).
-/

namespace Astoria

open List Option

/-! ### The consensus method -/

/-- The order of strings as positive numbers.  What is no number comes first
(`cmp_int_strings_`). -/
def cmpIntStrings (a b : String) : ℤ :=
  let ai := (torParseLong a.toList 1 (2 ^ 31 - 1)).getD 0
  let bi := (torParseLong b.toList 1 (2 ^ 31 - 1)).getD 0
  if ai < bi then -1 else if ai = bi then if ai = 0 then strcmp a b else 0 else 1

/-- The highest consensus method that two thirds of the votes support
(`compute_consensus_method`). -/
def computeConsensusMethod (sort : SmartlistSort String) (supportedMethods : List (List String)) :
    ℕ :=
  let allMethods := supportedMethods.flatMap fun l =>
    smartlistUniq cmpIntStrings (sort.sort cmpIntStrings l)
  let acceptableMethods := getFrequentMembers (sort.sort cmpIntStrings allMethods)
    (supportedMethods.length * 2 / 3)
  match acceptableMethods.getLast? with
  | some best => ((torParseLong best.toList 1 (2 ^ 31 - 1)).getD 0).toNat
  | none => 1

/-- The oldest supported consensus method (`MIN_SUPPORTED_CONSENSUS_METHOD`). -/
def minSupportedConsensusMethod : ℕ := 13

/-- The newest supported consensus method (`MAX_SUPPORTED_CONSENSUS_METHOD`). -/
def maxSupportedConsensusMethod : ℕ := 20

/-- The consensus method that is used: the newest one if the method of the votes is not
supported. -/
def consensusMethodUsed (sort : SmartlistSort String) (supportedMethods : List (List String)) : ℕ :=
  let consensusMethod := computeConsensusMethod sort supportedMethods
  if minSupportedConsensusMethod ≤ consensusMethod ∧
    consensusMethod ≤ maxSupportedConsensusMethod then
    consensusMethod
  else maxSupportedConsensusMethod

/-! ### The parameters of the computation -/

/-- The value of a parameter in the text of all parameters, with all that follows it.  The keyword
ends with the equals sign. -/
def paramText (params keyword : DocText) : Option DocText :=
  if keyword.isPrefixOf params then some (params.drop keyword.length)
  else (strstr params (' ' :: keyword)).map fun s => s.drop (keyword.length + 1)

/-- The largest bandwidth of a router that is not measured. -/
def maxUnmeasuredBwKb (consensusMethod : ℕ) (params : Option DocText) : UInt32 :=
  if consensusMethod < minMethodToClipUnmeasuredBw then 20
  else
    match params.bind fun params => paramText params "maxunmeasuredbw=".toList with
    | none => 20
    | some value =>
      match torParseUlong value 1 (2 ^ 32 - 1) with
      | some n => UInt32.ofNat n
      | none => 20

def weightScale (params : Option DocText) : ℤ :=
  match params.bind fun params => paramText params "bwweightscale=".toList with
  | none => 10000
  | some value => (torParseLong value 1 (2 ^ 31 - 1)).getD 10000

/-! ### The consensus -/

structure Consensus where
  consensusMethod : ℕ
  times : ConsensusTimes
  params : Option DocText
  entries : List RsOut
  bandwidthWeights : Option (List (String × ℤ))

section Compute

variable {testingTorNetwork : Bool} (smartlistSort : ∀ α : Type, SmartlistSort α)
  (flavor : ConsensusFlavor)

def compareVotesByAuthorityId (a b : Networkstatus testingTorNetwork) : ℤ :=
  digestcmp a.voterIdentity b.voterIdentity

/-- The routers of the consensus and their total bandwidths. -/
def consensusEntries (consensusMethod : ℕ) (params : Option DocText)
    (votes : List (Networkstatus testingTorNetwork)) (totalAuthorities : ℕ) :
    Option (List RsOut × BwTotals) := do
  let nAuthoritiesMeasuringBandwidth := votes.countP (·.hasMeasuredBws)
  let routers ← consensusRouters (smartlistSort _) (votes.map (·.toRouterVote)) totalAuthorities
  routers.foldlM (addEntry smartlistSort consensusMethod flavor
    (maxUnmeasuredBwKb consensusMethod params) nAuthoritiesMeasuringBandwidth) ([], ⟨0, 0, 0, 0, 0⟩)

/-- Compute a consensus (`networkstatus_compute_consensus`).  A failed assertion is `none`, and
there is no consensus of no votes. -/
def networkstatusComputeConsensus (votes : List (Networkstatus testingTorNetwork))
    (totalAuthorities : ℕ) : Option (Option Consensus) :=
  if totalAuthorities < votes.length then none
  else if votes = [] then some none
  else do
    let consensusMethod := consensusMethodUsed (smartlistSort _) (votes.map (·.supportedMethods))
    let times ← consensusTimes votes
    let params ← dirvoteComputeParams (votes.map (·.netParams)) totalAuthorities
    let votes := (smartlistSort _).sort compareVotesByAuthorityId votes
    -- every flag of a vote must be among all flags
    if votes.all fun v => v.knownFlags.all (· ∈ consensusFlags (votes.map (·.toRouterVote))) then do
      let (entries, totals) ← consensusEntries smartlistSort flavor consensusMethod params votes
        totalAuthorities
      let bandwidthWeights ← networkstatusComputeBwWeightsV10 totals (weightScale params)
      some (some ⟨consensusMethod, times, params, entries, bandwidthWeights⟩)
    else none

end Compute

/-! ### The assertions -/

lemma exists_foldlM {α β : Type} {f : β → α → Option β} {l : List α}
    (h : ∀ a ∈ l, ∀ b, ∃ b', f b a = some b') (b : β) : ∃ b', l.foldlM f b = some b' := by
  induction l generalizing b with
  | nil => exact ⟨b, rfl⟩
  | cons a l ih =>
    obtain ⟨b', hb'⟩ := h a mem_cons_self b
    rw [foldlM_cons, hb']
    exact ih (fun c hc => h c (mem_cons_of_mem a hc)) b'

lemma torParseLong_mem {s : DocText} {min max r : ℤ} (h : torParseLong s min max = some r) :
    min ≤ r ∧ r ≤ max := by
  unfold torParseLong at h
  dsimp only at h
  split_ifs at h with hdigits hneg hrange hrange
  all_goals
    obtain rfl := Option.some.inj h
    omega

/-- The scale of the weights is positive and fits 32 bits. -/
lemma weightScale_mem (params : Option DocText) :
    0 < weightScale params ∧ weightScale params ≤ 2 ^ 31 - 1 := by
  unfold weightScale
  cases params.bind fun params => paramText params "bwweightscale=".toList with
  | none => decide
  | some value =>
    cases hvalue : torParseLong value 1 (2 ^ 31 - 1) with
    | none => simp only [hvalue, getD_none]; decide
    | some n =>
      obtain ⟨hmin, hmax⟩ := torParseLong_mem hvalue
      simp only [hvalue, getD_some]
      omega

/-- **The bandwidth weights** can be computed for any totals. -/
lemma exists_computeBwWeightsV10 (totals : BwTotals) (params : Option DocText) :
    ∃ line, networkstatusComputeBwWeightsV10 totals (weightScale params) = some line := by
  unfold networkstatusComputeBwWeightsV10
  cases bwWeightsV10 totals (weightScale params) with
  | none => exact ⟨none, rfl⟩
  | some w => exact ⟨_, if_pos (weightScale_mem params)⟩

section Votes

variable {testingTorNetwork : Bool} {smartlistSort : ∀ α : Type, SmartlistSort α}
  {votes : List (Networkstatus testingTorNetwork)}

/-- **The routers of a consensus** are as its assertions demand. -/
lemma ConsensusRouter.ok_of_eq {totalAuthorities : ℕ} {r : ConsensusRouter}
    (h : consensusRouter (smartlistSort _) (votes.map (·.toRouterVote)) totalAuthorities
      r.identityDigest
      (routerEntries (votes.map (·.toRouterVote)) r.identityDigest) = some (some r)) : r.Ok := by
  obtain ⟨-, hlisted, hmatching, -, -⟩ := consensusRouter_eq h
  have hentry : ∀ rs ∈ r.listed, ∃ v ∈ votes, rs ∈ v.routerstatusList ∧
      rs.identityDigest = r.identityDigest := by
    intro rs hrs
    rw [hlisted] at hrs
    obtain ⟨e, he, rfl⟩ := List.mem_map.mp hrs
    obtain ⟨hvote, hmem, hid⟩ := mem_routerEntries he
    obtain ⟨v, hv, hve⟩ := List.mem_map.mp hvote
    exact ⟨v, hv, hve ▸ hmem, hid⟩
  refine ⟨fun rs hrs => ?_, ?_, fun rs hrs => ?_⟩
  · obtain ⟨v, -, hmem, -⟩ := hentry rs hrs
    exact (v.routers_parsed rs hmem).guardfraction_le
  · rw [hmatching]
    exact (smartlistSort _).perm _ _
  · obtain ⟨v, -, -, hid⟩ := hentry rs hrs
    exact hid

/-- **The entries of a consensus** can be computed. -/
lemma exists_consensusEntries (smartlistSort : ∀ α : Type, SmartlistSort α)
    (flavor : ConsensusFlavor) (consensusMethod : ℕ) (params : Option DocText)
    (votes : List (Networkstatus testingTorNetwork)) (totalAuthorities : ℕ) :
    ∃ entries, consensusEntries smartlistSort flavor consensusMethod params votes
      totalAuthorities = some entries := by
  obtain ⟨routers, hrun, -, -, hrouters⟩ :=
    exists_consensusRouters (smartlistSort _) (votes.map (·.toRouterVote)) totalAuthorities
  unfold consensusEntries
  rw [hrun]
  exact exists_foldlM
    (fun r hr acc => exists_addEntry (ConsensusRouter.ok_of_eq (hrouters r hr)) _ _ _ _ _ acc) _

/-- **The parameters of a consensus** can be computed. -/
lemma exists_params (votes : List (Networkstatus testingTorNetwork)) (totalAuthorities : ℕ) :
    ∃ params, dirvoteComputeParams (votes.map (·.netParams)) totalAuthorities = some params := by
  refine exists_dirvoteComputeParams totalAuthorities (fun l hl => ?_) fun l hl => ?_
  · obtain ⟨v, -, rfl⟩ := List.mem_map.mp hl
    exact v.params_value
  · obtain ⟨v, -, rfl⟩ := List.mem_map.mp hl
    exact nodup_paramKey (fun p hp => mem_of_paramValue (v.params_value p hp)) v.params_sorted
      v.params_keys

lemma all_mem_consensusFlags (votes : List (Networkstatus testingTorNetwork)) :
    (votes.all fun v => v.knownFlags.all (· ∈ consensusFlags (votes.map (·.toRouterVote)))) =
      true := by
  rw [List.all_eq_true]
  intro v hv
  rw [List.all_eq_true]
  intro flag hflag
  exact decide_eq_true (mem_consensusFlags.mpr ⟨v.toRouterVote, List.mem_map_of_mem hv, hflag⟩)

/-- Only the assertions about the times can fail. -/
lemma isSome_networkstatusComputeConsensus (flavor : ConsensusFlavor) (hne : votes ≠ [])
    {totalAuthorities : ℕ} (htotal : votes.length ≤ totalAuthorities) :
    (networkstatusComputeConsensus smartlistSort flavor votes totalAuthorities).isSome ↔
      (consensusTimes votes).isSome := by
  unfold networkstatusComputeConsensus
  rw [if_neg (by omega), if_neg hne]
  cases consensusTimes votes with
  | none => exact iff_of_false Bool.false_ne_true Bool.false_ne_true
  | some times =>
    refine iff_of_true ?_ rfl
    obtain ⟨params, hparams⟩ := exists_params votes totalAuthorities
    dsimp only
    rw [hparams]
    simp only [bind_eq_bind, bind_some, all_mem_consensusFlags, if_true]
    obtain ⟨entries, hentries⟩ := exists_consensusEntries smartlistSort flavor
      (consensusMethodUsed (smartlistSort _) (votes.map (·.supportedMethods))) params
      ((smartlistSort _).sort compareVotesByAuthorityId votes) totalAuthorities
    obtain ⟨line, hline⟩ := exists_computeBwWeightsV10 entries.2 params
    rw [hentries, bind_some, hline, bind_some]
    rfl

end Votes

/-- **The assertions of a consensus.**  For votes that the parser accepted, not more than there are
authorities, no assertion fails if and only if the votes are fresh and valid long enough apart: at
some time, more than the lower half of the votes are not fresh any more, and an interval later not
more than the lower half of them are invalid. -/
theorem networkstatus_compute_consensus_asserts {testingTorNetwork : Bool}
    (smartlistSort : ∀ α : Type, SmartlistSort α) (flavor : ConsensusFlavor)
    {votes : List (Networkstatus testingTorNetwork)} (hne : votes ≠ []) {totalAuthorities : ℕ}
    (htotal : votes.length ≤ totalAuthorities) :
    (networkstatusComputeConsensus smartlistSort flavor votes totalAuthorities).isSome ↔
      FreshBeforeValid testingTorNetwork votes := by
  rw [isSome_networkstatusComputeConsensus flavor hne htotal, isSome_consensusTimes_iff hne]

def timesVote (validAfter freshUntil validUntil : ℤ) (hfresh : validAfter + 300 ≤ freshUntil)
    (hvalid : validAfter + 300 * 2 ≤ validUntil) : Networkstatus false where
  knownFlags := []
  routerstatusList := []
  knownFlags_sorted := List.Pairwise.nil
  knownFlags_length := Nat.zero_le _
  routers_sorted := List.Pairwise.nil
  voterIdentity := 1
  supportedMethods := []
  validAfter := validAfter
  freshUntil := freshUntil
  validUntil := validUntil
  voteSeconds := 2
  distSeconds := 2
  netParams := []
  hasMeasuredBws := false
  fresh_le := hfresh
  valid_le := hvalid
  voteSeconds_le := le_rfl
  distSeconds_le := le_rfl
  params_value := nofun
  params_sorted := List.Pairwise.nil
  params_keys := List.IsChain.nil
  flags_words := nofun
  routers_parsed := nofun

/-- A router with some bandwidth. -/
def entryRouter (bandwidthKb : UInt32) : VoteRouterstatus where
  identityDigest := 7
  descriptorDigest := 8
  nickname := "relay"
  publishedOn := 1435708800
  addr := 0x7f000001
  orPort := 9001
  dirPort := 9030
  flags := 1
  version := none
  measuredBwKb := none
  bandwidthKb := some bandwidthKb
  guardfractionPercentage := none
  exitsummary := none
  ipv6Addr := 0
  ipv6Orport := 0
  microdesc := []

/-- A vote that lists this router and calls it running. -/
def entryVote (bandwidthKb : UInt32) : Networkstatus false where
  knownFlags := ["Running"]
  routerstatusList := [entryRouter bandwidthKb]
  knownFlags_sorted := pairwise_singleton _ _
  knownFlags_length := Nat.le_add_left 1 _
  routers_sorted := pairwise_singleton _ _
  voterIdentity := 1
  supportedMethods := []
  validAfter := 0
  freshUntil := 3600
  validUntil := 10800
  voteSeconds := 2
  distSeconds := 2
  netParams := []
  hasMeasuredBws := false
  fresh_le := by decide
  valid_le := by decide
  voteSeconds_le := le_rfl
  distSeconds_le := le_rfl
  params_value := nofun
  params_sorted := List.Pairwise.nil
  params_keys := List.IsChain.nil
  flags_words := by
    intro f hf
    obtain rfl := mem_singleton.mp hf
    exact isWord_of_all rfl
  routers_parsed := by
    intro rs hrs
    obtain rfl := mem_singleton.mp hrs
    have hname : isLegalNickname "relay".toList = true := by decide
    have hdigests : 7 < 256 ^ 20 ∧ 8 < 256 ^ 20 := by decide
    have htime : (0 : ℤ) ≤ 1435708800 := by decide
    exact ⟨hname, hdigests.1, hdigests.2, htime, nofun, nofun, nofun⟩

/-- A consensus of three votes, one of which lists a router and another one is fresh and valid for
longer. -/
theorem networkstatus_compute_consensus_asserts_three :
    (networkstatusComputeConsensus SmartlistSort.insertion .ns
      [entryVote 20, timesVote 0 3600 10800 (by decide) (by decide),
        timesVote 0 7200 14400 (by decide) (by decide)] 4).isSome :=
  (networkstatus_compute_consensus_asserts SmartlistSort.insertion .ns (by simp) (by decide)).mpr
    ⟨3600, by decide, by decide⟩

/-- **An assertion fails** for a vote that the parser accepts: it is fresh for 50 minutes and valid
for ten. -/
theorem not_networkstatus_compute_consensus_asserts :
    ¬ ∀ (smartlistSort : ∀ α : Type, SmartlistSort α) (flavor : ConsensusFlavor)
      (votes : List (Networkstatus false)) (totalAuthorities : ℕ), votes ≠ [] →
      votes.length ≤ totalAuthorities →
      (networkstatusComputeConsensus smartlistSort flavor votes totalAuthorities).isSome := by
  intro h
  have hrun :=
    h SmartlistSort.insertion .ns [timesVote 0 3000 600 (by decide) (by decide)] 1 (by simp)
      (by decide)
  rw [isSome_networkstatusComputeConsensus .ns (by simp) (by decide)] at hrun
  exact absurd hrun (by decide)

end Astoria
