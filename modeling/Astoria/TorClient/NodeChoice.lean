import Astoria.TorClient.NodeWeights

/-!
# The choice of a relay, and the list of all that could be chosen

One function chooses a relay at random, and a copy of it returns the list of all candidates.  Both
look for running relays with the wanted flags that are not excluded, and drop the flags if there is
none.

The list is the one from which the relay is drawn, so that no candidate is lost as long as there are
at most `2 ^ 30` of them (`return_all_but_excluded_exact`).  But the choice cannot be made both for
an exit and for a guard.
-/

namespace Astoria.NodeChoice

open Option
open List hiding set
open NodeWeights (Network RelayBandwidth StatusBandwidth)
open Directory (CrnFlags)

/-! ### The two functions -/

/-- What is wanted of a relay, and whether it is weighted as an exit (`router_crn_flags_t`). -/
structure RouterCrnFlags extends CrnFlags where
  weightAsExit : Bool

/-- The flags with fewer restrictions. -/
def RouterCrnFlags.relaxed (flags : RouterCrnFlags) : RouterCrnFlags :=
  { flags with needUptime := false, needCapacity := false, needGuard := false }

def RouterCrnFlags.weightRule (flags : RouterCrnFlags) : WeightRule :=
  if flags.weightAsExit then .exit else if flags.needGuard then .guard else .mid

/-- How often the flags can be relaxed. -/
def RouterCrnFlags.rank (flags : RouterCrnFlags) : ℕ := if flags.restricts then 1 else 0

lemma RouterCrnFlags.rank_relaxed (flags : RouterCrnFlags) : flags.relaxed.rank = 0 := rfl

lemma RouterCrnFlags.rank_relaxed_lt {flags : RouterCrnFlags} (h : flags.restricts = true) :
    flags.relaxed.rank < flags.rank := by
  rw [flags.rank_relaxed, rank, if_pos h]
  exact Nat.one_pos

variable (net : Network)

/-- A random relay that is not excluded (`router_choose_random_node`).  The outer option is for the
assertion. -/
def routerChooseRandomNode (excludedsmartlist : Option (List Node)) (excludedset : Option RouterSet)
    (flags : RouterCrnFlags) (rand : ℕ) : Option (Option Node) :=
  if flags.weightAsExit && flags.needGuard then none
  else
    let sl := net.routerAddRunningNodes flags.toCrnFlags
    let sl := sl.filter fun node => node ∉ net.excludedNodes
    let sl := match excludedsmartlist with
      | none => sl
      | some excluded => sl.filter fun node => node ∉ excluded
    let sl := match excludedset with
      | none => sl
      | some set => sl.filter fun node => !set.containsNode node
    match net.nodeSlChooseByBandwidth flags.weightRule sl rand with
    | some choice => some (some choice)
    | none =>
      if flags.restricts then routerChooseRandomNode excludedsmartlist excludedset flags.relaxed
        rand else some none
termination_by flags.rank
decreasing_by exact RouterCrnFlags.rank_relaxed_lt ‹_›

/-- All relays that are not excluded (`return_all_but_excluded`). -/
def returnAllButExcluded (excludedsmartlist : Option (List Node)) (excludedset : Option RouterSet)
    (flags : RouterCrnFlags) : List Node :=
  let sl := net.routerAddRunningNodes flags.toCrnFlags
  let sl := sl.filter fun node => node ∉ net.excludedNodes
  let sl := match excludedsmartlist with
    | none => sl
    | some excluded => sl.filter fun node => node ∉ excluded
  let sl := match excludedset with
    | none => sl
    | some set => sl.filter fun node => !set.containsNode node
  if sl.length = 0 ∧ flags.restricts then returnAllButExcluded excludedsmartlist excludedset
    flags.relaxed else sl
termination_by flags.rank
decreasing_by exact RouterCrnFlags.rank_relaxed_lt (And.right ‹_›)

/-! ### Candidates -/

section Candidates

variable (sl : Option (List Node)) (rs : Option RouterSet) (flags : RouterCrnFlags)

/-- A relay is excluded by an argument. -/
def IsExcluded (node : Node) : Bool :=
  sl.any (node ∈ ·) || rs.any (·.containsNode node)

/-- The running relays with the wanted flags that are not excluded. -/
def candidates : List Node :=
  (net.routerAddRunningNodes flags.toCrnFlags).filter fun node =>
    node ∉ net.excludedNodes && !IsExcluded sl rs node

/-- The candidates are what remains if the excluded relays are taken away one after the other. -/
lemma candidates_eq :
    (match rs with
      | none =>
        match sl with
        | none => (net.routerAddRunningNodes flags.toCrnFlags).filter fun node =>
          node ∉ net.excludedNodes
        | some excluded => ((net.routerAddRunningNodes flags.toCrnFlags).filter fun node =>
            node ∉ net.excludedNodes).filter fun node => node ∉ excluded
      | some set =>
        (match sl with
        | none => (net.routerAddRunningNodes flags.toCrnFlags).filter fun node =>
          node ∉ net.excludedNodes
        | some excluded => ((net.routerAddRunningNodes flags.toCrnFlags).filter fun node =>
            node ∉ net.excludedNodes).filter fun node => node ∉ excluded).filter fun node =>
              !set.containsNode node) =
      candidates net sl rs flags := by
  unfold candidates IsExcluded
  cases sl <;> cases rs <;> simp only [List.filter_filter] <;> congr 1 <;> funext node <;>
    simp [Bool.and_assoc, Bool.and_comm, Bool.and_left_comm]

/-- The list is that of the candidates, with relaxed flags if there are none. -/
lemma returnAllButExcluded_eq : returnAllButExcluded net sl rs flags =
    if candidates net sl rs flags = [] ∧ flags.restricts then
      candidates net sl rs flags.relaxed
    else candidates net sl rs flags := by
  have hrelaxed : returnAllButExcluded net sl rs flags.relaxed =
      candidates net sl rs flags.relaxed := by
    rw [returnAllButExcluded.eq_def]
    dsimp only
    rw [candidates_eq]
    exact if_neg fun h => absurd h.2 nofun
  rw [returnAllButExcluded.eq_def]
  dsimp only
  rw [candidates_eq, hrelaxed]
  simp only [length_eq_zero_iff]

def drawRule : WeightRule :=
  if candidates net sl rs flags = [] ∧ flags.restricts then flags.relaxed.weightRule
  else flags.weightRule

/-- The relay is drawn from the list. -/
lemma routerChooseRandomNode_eq (hflags : (flags.weightAsExit && flags.needGuard) = false)
    (rand : ℕ) : routerChooseRandomNode net sl rs flags rand =
      some (net.nodeSlChooseByBandwidth (drawRule net sl rs flags)
        (returnAllButExcluded net sl rs flags) rand) := by
  have hstep (flags : RouterCrnFlags) (h : (flags.weightAsExit && flags.needGuard) = false) :
      routerChooseRandomNode net sl rs flags rand =
        match net.nodeSlChooseByBandwidth flags.weightRule (candidates net sl rs flags) rand with
        | some choice => some (some choice)
        | none =>
          if flags.restricts then routerChooseRandomNode net sl rs flags.relaxed rand
          else some none := by
    rw [routerChooseRandomNode, h]
    dsimp only
    rw [candidates_eq]
    rfl
  have hrelaxed : routerChooseRandomNode net sl rs flags.relaxed rand =
      some (net.nodeSlChooseByBandwidth flags.relaxed.weightRule
        (candidates net sl rs flags.relaxed) rand) := by
    rw [hstep flags.relaxed (Bool.and_false _)]
    cases net.nodeSlChooseByBandwidth flags.relaxed.weightRule
      (candidates net sl rs flags.relaxed) rand <;> rfl
  rw [hstep flags hflags, returnAllButExcluded_eq, drawRule]
  cases hchoice : net.nodeSlChooseByBandwidth flags.weightRule
      (candidates net sl rs flags) rand with
  | some choice =>
    have hsome : ¬ (candidates net sl rs flags = [] ∧ flags.restricts = true) := by
      rintro ⟨hnil, -⟩
      rw [Directory.nodeSlChooseByBandwidth_eq_none_iff.mpr hnil] at hchoice
      exact absurd hchoice nofun
    rw [if_neg hsome, if_neg hsome, hchoice]
  | none =>
    have hnil := Directory.nodeSlChooseByBandwidth_eq_none_iff.mp hchoice
    dsimp only
    by_cases hres : flags.restricts = true
    · rw [if_pos hres, hrelaxed, if_pos ⟨hnil, hres⟩, if_pos ⟨hnil, hres⟩]
    · have hnot : ¬ (candidates net sl rs flags = [] ∧ flags.restricts = true) :=
        fun h => hres h.2
      rw [if_neg hres, if_neg hnot, if_neg hnot, hchoice]

/-- A relay of the list is one of the network and is not excluded. -/
lemma mem_returnAllButExcluded {node : Node}
    (h : node ∈ returnAllButExcluded net sl rs flags) :
    node ∈ net.nodes ∧ IsExcluded sl rs node = false := by
  have hmem {flags : RouterCrnFlags} (h : node ∈ candidates net sl rs flags) :
      node ∈ net.nodes ∧ IsExcluded sl rs node = false := by
    rw [candidates, mem_filter, Directory.routerAddRunningNodes, mem_filter] at h
    obtain ⟨⟨hmem, -⟩, hexcluded⟩ := h
    rw [Bool.and_eq_true, Bool.not_eq_true'] at hexcluded
    exact ⟨hmem, hexcluded.2⟩
  rw [returnAllButExcluded_eq] at h
  split_ifs at h
  · exact hmem h
  · exact hmem h

lemma candidates_excludeNodes (excluded : List Node) (flags : CrnFlags) :
    candidates net (some excluded) (some net.options.excludeNodes) ⟨flags, false⟩ =
      net.availableNodes excluded flags := by
  unfold candidates Directory.availableNodes
  apply filter_congr
  intro node _
  simp [IsExcluded, Bool.and_assoc]

/-- **The choice for a path** is the one among all relays that the user has not excluded. -/
theorem routerChooseRandomNode_excludeNodes (excluded : List Node) (flags : CrnFlags) (rand : ℕ) :
    routerChooseRandomNode net (some excluded) (some net.options.excludeNodes) ⟨flags, false⟩ rand =
      some (net.toDirectory.routerChooseRandomNode excluded flags rand) := by
  have hrelaxed : (RouterCrnFlags.mk flags false).relaxed = ⟨flags.relaxed, false⟩ := rfl
  rw [routerChooseRandomNode_eq _ _ _ _ (Bool.false_and _), returnAllButExcluded_eq, drawRule,
    hrelaxed,
    candidates_excludeNodes, candidates_excludeNodes, Directory.routerChooseRandomNode]
  cases hchoice : net.nodeSlChooseByBandwidth flags.rule (net.availableNodes excluded flags)
      rand with
  | some choice =>
    have hsome : ¬ (net.availableNodes excluded flags = [] ∧ flags.restricts = true) := by
      rintro ⟨hnil, -⟩
      rw [Directory.nodeSlChooseByBandwidth_eq_none_iff.mpr hnil] at hchoice
      cases hchoice
    rw [if_neg hsome, if_neg hsome]
    exact congrArg some hchoice
  | none =>
    have hnil := Directory.nodeSlChooseByBandwidth_eq_none_iff.mp hchoice
    dsimp only
    by_cases hres : flags.restricts = true
    · rw [if_pos ⟨hnil, hres⟩, if_pos ⟨hnil, hres⟩, if_pos hres]
      rfl
    · have hnot : ¬ (net.availableNodes excluded flags = [] ∧ flags.restricts = true) := fun h =>
        hres h.2
      rw [if_neg hnot, if_neg hnot, if_neg hres]
      exact congrArg some hchoice

end Candidates

/-! ### The result -/

section Result

variable (sl : Option (List Node)) (rs : Option RouterSet) (flags : RouterCrnFlags)

/-- **The list and the choice agree.**  No relay of the list is excluded.  Unless a relay is wanted
both as an exit and as a guard, it is drawn from the list, so that only relays of the list are, and
all of them can be drawn if there are at most `2 ^ 30`. -/
theorem return_all_but_excluded_exact :
    (∀ node ∈ returnAllButExcluded net sl rs flags,
      (∀ excluded ∈ sl, node ∉ excluded) ∧ ∀ set ∈ rs, set.containsNode node = false) ∧
    ((flags.weightAsExit && flags.needGuard) = false →
      (∃ rule, ∀ rand, routerChooseRandomNode net sl rs flags rand =
        some (net.nodeSlChooseByBandwidth rule
          (returnAllButExcluded net sl rs flags) rand)) ∧
      (∀ node, (∃ rand, routerChooseRandomNode net sl rs flags rand = some (some node)) →
        node ∈ returnAllButExcluded net sl rs flags) ∧
      ((returnAllButExcluded net sl rs flags).length ≤ 2 ^ 30 →
        ∀ node ∈ returnAllButExcluded net sl rs flags,
          ∃ rand, routerChooseRandomNode net sl rs flags rand = some (some node))) := by
  constructor
  · intro node hnode
    have h := (mem_returnAllButExcluded net sl rs flags hnode).2
    rw [IsExcluded, Bool.or_eq_false_iff] at h
    constructor
    · rintro excluded hexcluded hmem
      rw [mem_def.mp hexcluded, any_some, decide_eq_false_iff_not] at h
      exact h.1 hmem
    · rintro set hset
      rw [mem_def.mp hset, any_some] at h
      exact h.2
  · intro hflags
    have hchoose := routerChooseRandomNode_eq net sl rs flags hflags
    refine ⟨⟨_, hchoose⟩, ?_, ?_⟩
    · rintro node ⟨rand, hrand⟩
      rw [hchoose] at hrand
      exact NodeWeights.mem_of_nodeSlChooseByBandwidth net (Option.some.inj hrand)
    · intro hlen node hnode
      have hsub : ∀ node ∈ returnAllButExcluded net sl rs flags, node ∈ net.nodes :=
        fun node hmem => (mem_returnAllButExcluded net sl rs flags hmem).1
      obtain ⟨rand, hrand⟩ := (NodeWeights.canChoose_iff net
        (drawRule net sl rs flags) hsub hlen).mpr hnode
      exact ⟨rand, by rw [hchoose, hrand]⟩

def noRelays : RouterSet := ⟨fun _ => false, []⟩

/-- Options that exclude nothing. -/
def plainOptions : Options where
  enforceDistinctSubnets := true
  nodeFamilySets := []
  excludeNodes := noRelays
  excludeExitNodesUnion := noRelays
  exitNodes := none
  excludeSingleHopRelays := true
  allowInvalidExit := false

/-- A relay with all flags. -/
def plainNode (i : ℕ) : Node where
  identity := i
  addr := 0
  declaredFamily := []
  purpose := .general
  hasDescriptor := true
  isRunning := true
  isValid := true
  isStable := true
  isFast := true
  isPossibleGuard := true
  isBadExit := false
  allowsSingleHopExits := false
  rejectsAll := false

/-- What is said of a relay of which a bandwidth is known. -/
def plainRelay (bandwidthKb : UInt32) : RelayBandwidth where
  rs := some ⟨some bandwidthKb, none, true, 0, nofun, nofun⟩
  ri := none
  isExit := true

/-- The bandwidth of a relay that a network of `n + 1` relays has: no one for the first one, and the
greatest one for the others. -/
def unevenBandwidth (node : Node) : UInt32 := if node.identity = 0 then 0 else 4294967295

/-- A network without weights, with one relay of no bandwidth and `n` others. -/
def unevenNetwork (n : ℕ) : Network where
  nodes := (range (n + 1)).map plainNode
  nodup := by
    have heq : (Node.identity ∘ plainNode) = id := rfl
    rw [List.map_map, heq, List.map_id]
    exact nodup_range
  nodeGetByNickname _ := none
  nodeNicknameMatches _ _ := false
  options := plainOptions
  me := none
  digestIsMe := fun _ => false
  scaledBandwidth rule sl node :=
    NodeWeights.scaleToU64 (sl.map fun node =>
      NodeWeights.weightedBandwidth ⟨none, none⟩ rule node (plainRelay (unevenBandwidth node))).sum
      (NodeWeights.weightedBandwidth ⟨none, none⟩ rule node (plainRelay (unevenBandwidth node)))
  consensus := ⟨none, none⟩
  relay node := plainRelay (unevenBandwidth node)
  usable _ _ := .inl rfl
  scaled := rfl

lemma candidates_unevenNetwork (n : ℕ) (flags : RouterCrnFlags) :
    candidates (unevenNetwork n) none none flags = (unevenNetwork n).nodes := by
  have hexcluded : (unevenNetwork n).excludedNodes = [] := by
    have hsingle : (unevenNetwork n).nodes.filter (fun node => node.allowsSingleHopExits) = [] := by
      rw [filter_eq_nil_iff]
      intro node hnode
      obtain ⟨i, -, rfl⟩ := List.mem_map.mp hnode
      exact nofun
    rw [Directory.excludedNodes, hsingle]
    rfl
  rw [candidates, Directory.routerAddRunningNodes, hexcluded, List.filter_filter, filter_eq_self]
  intro node hnode
  obtain ⟨i, -, rfl⟩ := List.mem_map.mp hnode
  simp [IsExcluded, plainNode, nodeIsUnreliable]

lemma weightedBandwidth_unevenNetwork (rule : WeightRule) (i : ℕ) :
    NodeWeights.weightedBandwidth ⟨none, none⟩ rule (plainNode i)
      (plainRelay (unevenBandwidth (plainNode i))) =
      if i = 0 then 1 / 2 else 2 ^ 31 - 1 / 2 := by
  have hweights : (⟨none, none⟩ : NodeWeights.ConsensusWeights).ruleWeights rule =
      ⟨1, 1, 1, 1, 1, 1, 1, 1⟩ := by
    cases rule <;>
      norm_num [NodeWeights.ConsensusWeights.ruleWeights, NodeWeights.ConsensusWeights.rawWeights,
        NodeWeights.ConsensusWeights.getBwWeight, NodeWeights.ConsensusWeights.weightScale,
        networkstatusGetParam]
  unfold NodeWeights.weightedBandwidth
  rw [hweights]
  have hlow : NodeWeights.kbToBytes 0 = 0 := by decide
  have hhigh : NodeWeights.kbToBytes 4294967295 = 2147483647 := by decide
  by_cases hi : i = 0
  · subst hi
    norm_num [plainRelay, NodeWeights.RelayBandwidth.thisBw, unevenBandwidth, plainNode, hlow,
      NodeWeights.RuleWeights.ofFlags, NodeWeights.RelayBandwidth.isDir]
  · norm_num [plainRelay, NodeWeights.RelayBandwidth.thisBw, unevenBandwidth, plainNode, hhigh,
      NodeWeights.RuleWeights.ofFlags, NodeWeights.RelayBandwidth.isDir, hi]

lemma totalWeight_unevenNetwork (n : ℕ) (rule : WeightRule) :
    (unevenNetwork n).totalWeight rule (unevenNetwork n).nodes = 1 / 2 + n * (2 ^ 31 - 1 / 2) := by
  have hterm : (unevenNetwork n).nodes.map
      (fun node =>
        NodeWeights.weightedBandwidth (unevenNetwork n).consensus rule node
            ((unevenNetwork n).relay node)) = (range (n + 1)).map fun i => if i = 0 then 1 / 2
              else 2 ^ 31 - 1 / 2 := by
    show ((range (n + 1)).map plainNode).map _ = _
    rw [List.map_map]
    exact map_congr_left fun i _ => weightedBandwidth_unevenNetwork rule i
  rw [NodeWeights.Network.totalWeight, hterm, range_succ_eq_map, map_cons, sum_cons, List.map_map]
  have hrest : (range n).map ((fun i => if i = 0 then (1 / 2 : ℚ) else 2 ^ 31 - 1 / 2) ∘ Nat.succ) =
      (range n).map fun _ => (2 ^ 31 - 1 / 2 : ℚ) := by
    apply map_congr_left
    intro i _
    rw [Function.comp_apply, if_neg (Nat.succ_ne_zero i)]
  rw [hrest, map_const', sum_replicate, length_range, nsmul_eq_mul, if_pos rfl]

lemma scaledBandwidth_unevenNetwork (n : ℕ) (rule : WeightRule) (i : ℕ) :
    (unevenNetwork n).scaledBandwidth rule (unevenNetwork n).nodes (plainNode i) =
      NodeWeights.scaleToU64 (1 / 2 + n * (2 ^ 31 - 1 / 2))
        (if i = 0 then 1 / 2 else 2 ^ 31 - 1 / 2) := by
  rw [← weightedBandwidth_unevenNetwork rule i, ← totalWeight_unevenNetwork n rule]
  rfl

/-- In a network of more than `2 ^ 30` relays, the one without a bandwidth is never drawn. -/
lemma not_drawn_unevenNetwork {n : ℕ} (hn : n = 2 ^ 30 + 1) (rule : WeightRule) (rand : ℕ) :
    (unevenNetwork n).nodeSlChooseByBandwidth rule (unevenNetwork n).nodes rand ≠
      some (plainNode 0) := by
  have hcast : (n : ℚ) = 2 ^ 30 + 1 := by exact_mod_cast hn
  have hmem : plainNode 1 ∈ (unevenNetwork n).nodes :=
    List.mem_map.mpr ⟨1, mem_range.mpr (by omega), rfl⟩
  intro h
  obtain ⟨-, hpos | hzero⟩ := Directory.exists_nodeSlChooseByBandwidth_iff.mp ⟨rand, h⟩
  · rw [scaledBandwidth_unevenNetwork, hcast] at hpos
    norm_num [NodeWeights.scaleToU64, Nat.floor_pos] at hpos
  · have hone := hzero _ hmem
    rw [scaledBandwidth_unevenNetwork, hcast] at hone
    norm_num [NodeWeights.scaleToU64] at hone

/-- A relay that is wanted as an exit and as a guard is not chosen at all, but the list of such
relays is not empty.  And in a network of more than `2 ^ 30` relays, one of the list is not
chosen. -/
theorem not_return_all_but_excluded :
    (¬ ∀ node, node ∈
      returnAllButExcluded (unevenNetwork 0) none none ⟨⟨false, false, true, false, true⟩, true⟩ ↔
      ∃ rand, routerChooseRandomNode (unevenNetwork 0) none none
        ⟨⟨false, false, true, false, true⟩, true⟩ rand = some (some node)) ∧
    (¬ ∀ node, node ∈ returnAllButExcluded (unevenNetwork (2 ^ 30 + 1)) none none
        ⟨⟨false, false, false, false, true⟩, false⟩ ↔
      ∃ rand, routerChooseRandomNode (unevenNetwork (2 ^ 30 + 1)) none none
        ⟨⟨false, false, false, false, true⟩, false⟩ rand = some (some node)) := by
  have hlist (n : ℕ) (flags : RouterCrnFlags) :
      returnAllButExcluded (unevenNetwork n) none none flags = (unevenNetwork n).nodes := by
    rw [returnAllButExcluded_eq, candidates_unevenNetwork, candidates_unevenNetwork, ite_self]
  have hmem (n : ℕ) : plainNode 0 ∈ (unevenNetwork n).nodes :=
    List.mem_map.mpr ⟨0, mem_range.mpr (Nat.succ_pos n), rfl⟩
  constructor
  · intro h
    obtain ⟨rand, hrand⟩ := (h (plainNode 0)).mp (by rw [hlist]; exact hmem 0)
    rw [routerChooseRandomNode] at hrand
    exact absurd hrand nofun
  · intro h
    obtain ⟨rand, hrand⟩ := (h (plainNode 0)).mp (by rw [hlist]; exact hmem (2 ^ 30 + 1))
    rw [routerChooseRandomNode_eq _ _ _ _ rfl, hlist] at hrand
    exact not_drawn_unevenNetwork rfl _ rand (Option.some.inj hrand)

end Result

end Astoria.NodeChoice
