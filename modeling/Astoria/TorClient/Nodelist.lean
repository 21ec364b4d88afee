import Mathlib

/-!
# The list of the relays

What the client knows about the relays, the family of a relay, and the random choice of a relay by
its bandwidth.

The family of a relay consists of the relay itself, of the relays in the same /16 network, of the
relays with which it has declared its family in both directions, and of the relays that the user has
put into one set with it.  A relay is chosen among the running nodes that have the wanted flags and
are in none of the excluded families; if there are none, the flags are dropped.

How a name is looked up and how it is matched depends on the directory, so these are parameters; the
same holds of the bandwidths.  The random numbers are arguments of the functions that draw them.
-/

namespace Astoria

open List
open Option hiding guard

/-! ### Parameters of the consensus -/

/-- A parameter of the consensus, within bounds. -/
def networkstatusGetParam (param : Option ℤ) (defaultVal minVal maxVal : ℤ) : ℤ :=
  let res := param.getD defaultVal
  if res < minVal then minVal else if maxVal < res then maxVal else res

lemma networkstatusGetParam_mem (param : Option ℤ) (defaultVal : ℤ) {minVal maxVal : ℤ}
    (h : minVal ≤ maxVal) :
    minVal ≤ networkstatusGetParam param defaultVal minVal maxVal ∧
      networkstatusGetParam param defaultVal minVal maxVal ≤ maxVal := by
  unfold networkstatusGetParam
  dsimp only
  split_ifs with hlow hhigh
  · exact ⟨le_refl _, h⟩
  · exact ⟨h, le_refl _⟩
  · omega

/-! ### Relays -/

/-- What a descriptor is for (`ROUTER_PURPOSE_*`). -/
inductive RouterPurpose where
  | general
  | controller
  | bridge
  | unknown
  deriving DecidableEq

/-- A relay (`node_t`). -/
structure Node where
  /-- The digest of its key. -/
  identity : ℕ
  addr : BitVec 32
  declaredFamily : List String
  /-- The purpose of its descriptor; it is `general` if there is none. -/
  purpose : RouterPurpose
  hasDescriptor : Bool
  isRunning : Bool
  isValid : Bool
  isStable : Bool
  isFast : Bool
  isPossibleGuard : Bool
  isBadExit : Bool
  allowsSingleHopExits : Bool
  /-- Its exit policy rejects everything. -/
  rejectsAll : Bool
  deriving DecidableEq

/-- A relay is not as reliable as it is needed. -/
def nodeIsUnreliable (node : Node) (needUptime needCapacity needGuard : Bool) : Bool :=
  (needUptime && !node.isStable) || (needCapacity && !node.isFast) ||
    (needGuard && !node.isPossibleGuard)

def addrsInSameNetworkFamily (a1 a2 : BitVec 32) : Bool := a1 >>> 16 == a2 >>> 16

/-- A set of relays that the user has configured. -/
structure RouterSet where
  containsNode : Node → Bool
  /-- Its relays (`routerset_get_all_nodes`). -/
  allNodes : List Node

/-- The options that the selection reads. -/
structure Options where
  enforceDistinctSubnets : Bool
  nodeFamilySets : List RouterSet
  excludeNodes : RouterSet
  excludeExitNodesUnion : RouterSet
  exitNodes : Option RouterSet
  excludeSingleHopRelays : Bool
  allowInvalidExit : Bool

inductive WeightRule where
  | exit
  | mid
  | guard
  deriving DecidableEq

/-- What the client knows about the network. -/
structure Directory where
  nodes : List Node
  nodup : (nodes.map Node.identity).Nodup
  /-- Look up a name. -/
  nodeGetByNickname : String → Option Node
  /-- A name is a name of a relay. -/
  nodeNicknameMatches : Node → String → Bool
  options : Options
  /-- The client's own entry in the list of the descriptors (`routerlist_find_my_routerinfo`). -/
  me : Option Node
  /-- A key is that of the client itself (`router_digest_is_me`). -/
  digestIsMe : ℕ → Bool
  /-- The weighted bandwidth of a relay among those of a list, scaled to an integer. -/
  scaledBandwidth : WeightRule → List Node → Node → ℕ

namespace Directory

variable (dir : Directory)

/-- Look up a key. -/
def nodeGetById (identity : ℕ) : Option Node :=
  dir.nodes.find? fun node => node.identity = identity

/-- The relays with which a relay has declared its family, and which have done so too. -/
def declaredFamilyNodes (node : Node) : List Node :=
  node.declaredFamily.filterMap fun name => (dir.nodeGetByNickname name).filter fun node2 =>
    node2.declaredFamily.any fun name2 => dir.nodeNicknameMatches node name2

/-- A relay and its family (`nodelist_add_node_and_family`). -/
def nodeAndFamily (node : Node) : List Node :=
  (dir.nodeGetById node.identity).toList ++
    (if dir.options.enforceDistinctSubnets then
      dir.nodes.filter fun node2 => addrsInSameNetworkFamily node2.addr node.addr else []) ++
    dir.declaredFamilyNodes node ++
    dir.options.nodeFamilySets.flatMap fun rs => if rs.containsNode node then rs.allNodes else []

/-! ### The choice of a relay -/

/-- What is wanted of a relay (`CRN_*`). -/
structure CrnFlags where
  needUptime : Bool
  needCapacity : Bool
  needGuard : Bool
  allowInvalid : Bool
  needDesc : Bool
  deriving DecidableEq

/-- Something is wanted that may be dropped. -/
def CrnFlags.restricts (flags : CrnFlags) : Bool :=
  flags.needUptime || flags.needCapacity || flags.needGuard

/-- The flags with fewer restrictions. -/
def CrnFlags.relaxed (flags : CrnFlags) : CrnFlags :=
  { flags with needUptime := false, needCapacity := false, needGuard := false }

def CrnFlags.rule (flags : CrnFlags) : WeightRule := if flags.needGuard then .guard else .mid

/-- The running relays with the wanted flags. -/
def routerAddRunningNodes (flags : CrnFlags) : List Node :=
  dir.nodes.filter fun node => node.isRunning && (node.isValid || flags.allowInvalid) &&
    (!flags.needDesc || node.hasDescriptor) && node.purpose == .general &&
    !nodeIsUnreliable node flags.needUptime flags.needCapacity flags.needGuard

/-- The relays that are never chosen: those for single hops, and the client itself and its
family. -/
def excludedNodes : List Node :=
  (if dir.options.excludeSingleHopRelays then
    dir.nodes.filter fun node => node.allowsSingleHopExits else []) ++
    match dir.me with
    | none => []
    | some r => dir.nodeAndFamily ((dir.nodeGetById r.identity).getD r)

/-- The relays with the wanted flags that are not excluded. -/
def availableNodes (excluded : List Node) (flags : CrnFlags) : List Node :=
  (dir.routerAddRunningNodes flags).filter fun node => node ∉ dir.excludedNodes &&
    node ∉ excluded && !dir.options.excludeNodes.containsNode node

/-- The index of an entry that a random number selects, with a probability proportional to the
entries. -/
def chooseArrayElementByWeight (entries : List ℕ) (rand : ℕ) : Option ℕ :=
  if entries.length < 1 then none
  else if entries.sum = 0 then some (rand % entries.length)
  else (range entries.length).find? fun i => rand % entries.sum < (entries.take (i + 1)).sum

/-- The relay that a random number selects by the bandwidths. -/
def nodeSlChooseByBandwidth (rule : WeightRule) (sl : List Node) (rand : ℕ) : Option Node :=
  (chooseArrayElementByWeight (sl.map (dir.scaledBandwidth rule sl)) rand).bind (sl[·]?)

/-- A random relay with the wanted flags that is not excluded; the flags are dropped if there is
none. -/
def routerChooseRandomNode (excluded : List Node) (flags : CrnFlags) (rand : ℕ) : Option Node :=
  match dir.nodeSlChooseByBandwidth flags.rule (dir.availableNodes excluded flags) rand with
  | some choice => some choice
  | none =>
    if flags.restricts then
      dir.nodeSlChooseByBandwidth flags.relaxed.rule
        (dir.availableNodes excluded flags.relaxed) rand
    else none

/-! ### Which relays can be chosen -/

section Choice

variable {dir} {entries : List ℕ} {i rand : ℕ} {sl : List Node} {a : Node} {rule : WeightRule}

/-- An entry of a list can be selected: it is positive, or all entries are zero. -/
def Selectable (entries : List ℕ) (i : ℕ) : Prop :=
  ∃ w, entries[i]? = some w ∧ (0 < w ∨ entries.sum = 0)

lemma sum_take_mono (entries : List ℕ) {i j : ℕ} (hij : i ≤ j) :
    (entries.take i).sum ≤ (entries.take j).sum := by
  rw [show j = i + (j - i) from by omega, take_add, sum_append]
  exact Nat.le_add_right _ _

lemma sum_take_succ_of_getElem? {w : ℕ} (h : entries[i]? = some w) :
    (entries.take (i + 1)).sum = (entries.take i).sum + w := by
  rw [take_add_one, h, toList_some, sum_append, sum_singleton]

/-- The indices that a random number can select are those of the positive entries, or all if there
is no positive one. -/
lemma exists_chooseArrayElementByWeight_iff :
    (∃ rand, chooseArrayElementByWeight entries rand = some i) ↔ Selectable entries i := by
  constructor
  · rintro ⟨rand, h⟩
    unfold chooseArrayElementByWeight at h
    split_ifs at h with hlen hsum
    · rw [Option.some.injEq] at h
      have hi : i < entries.length := by
        rw [← h]
        exact Nat.mod_lt _ (by omega)
      exact ⟨entries[i], getElem?_eq_getElem hi, .inr hsum⟩
    · have hi : i < entries.length := mem_range.mp (mem_of_find?_eq_some h)
      have hlt := find?_some h
      rw [decide_eq_true_eq] at hlt
      refine ⟨entries[i], getElem?_eq_getElem hi, .inl ?_⟩
      -- an entry that is zero adds nothing, so an earlier index would have been found
      by_contra hzero
      have hsucc := sum_take_succ_of_getElem? (getElem?_eq_getElem hi)
      cases i with
      | zero =>
        rw [take_zero, sum_nil] at hsucc
        omega
      | succ j =>
        have hbefore := (find?_range_eq_some.mp h).2.2 j (Nat.lt_succ_self j)
        simp only [Bool.not_eq_true', decide_eq_false_iff_not, not_lt] at hbefore
        omega
  · rintro ⟨w, hw, hcase⟩
    obtain ⟨hi, -⟩ := List.getElem?_eq_some_iff.mp hw
    by_cases hsum : entries.sum = 0
    · refine ⟨i, ?_⟩
      rw [chooseArrayElementByWeight, if_neg (by omega), if_pos hsum, Nat.mod_eq_of_lt hi]
    · have hpos : 0 < w := hcase.resolve_right hsum
      have hsucc := sum_take_succ_of_getElem? hw
      have hle := sum_take_mono entries (show i + 1 ≤ entries.length from hi)
      rw [take_length] at hle
      refine ⟨(entries.take i).sum, ?_⟩
      rw [chooseArrayElementByWeight, if_neg (by omega), if_neg hsum, Nat.mod_eq_of_lt (by omega),
        find?_range_eq_some]
      refine ⟨decide_eq_true (by omega), mem_range.mpr hi, fun j hj => ?_⟩
      have := sum_take_mono entries (show j + 1 ≤ i from hj)
      simp only [Bool.not_eq_true', decide_eq_false_iff_not, not_lt]
      exact this

/-- A relay can be chosen from a list: its bandwidth is positive, or no bandwidth is. -/
def CanChoose (dir : Directory) (rule : WeightRule) (sl : List Node) (a : Node) : Prop :=
  a ∈ sl ∧ (0 < dir.scaledBandwidth rule sl a ∨ ∀ b ∈ sl, dir.scaledBandwidth rule sl b = 0)

lemma exists_nodeSlChooseByBandwidth_iff :
    (∃ rand, dir.nodeSlChooseByBandwidth rule sl rand = some a) ↔ CanChoose dir rule sl a := by
  have hzero : (sl.map (dir.scaledBandwidth rule sl)).sum = 0 ↔
      ∀ b ∈ sl, dir.scaledBandwidth rule sl b = 0 := by
    rw [sum_eq_zero_iff, List.forall_mem_map]
  constructor
  · rintro ⟨rand, h⟩
    obtain ⟨i, hi, ha⟩ := bind_eq_some_iff.mp h
    obtain ⟨w, hw, hcase⟩ := exists_chooseArrayElementByWeight_iff.mp ⟨rand, hi⟩
    rw [getElem?_map, ha, map_some, Option.some.injEq] at hw
    rw [← hw, hzero] at hcase
    exact ⟨mem_of_getElem? ha, hcase⟩
  · rintro ⟨hmem, hcase⟩
    obtain ⟨i, hi⟩ := mem_iff_getElem?.mp hmem
    rw [← hzero] at hcase
    have hsel : Selectable (sl.map (dir.scaledBandwidth rule sl)) i :=
      ⟨_, by rw [getElem?_map, hi, map_some], hcase⟩
    obtain ⟨rand, hrand⟩ := exists_chooseArrayElementByWeight_iff.mpr hsel
    exact ⟨rand, by rw [nodeSlChooseByBandwidth, hrand, bind_some, hi]⟩

/-- Nothing is chosen only from the empty list. -/
lemma nodeSlChooseByBandwidth_eq_none_iff :
    dir.nodeSlChooseByBandwidth rule sl rand = none ↔ sl = [] := by
  constructor
  · intro h
    by_contra hsl
    have hlen : 0 < sl.length := length_pos_iff.mpr hsl
    rw [nodeSlChooseByBandwidth, chooseArrayElementByWeight, length_map,
      if_neg (by omega)] at h
    split_ifs at h with hsum
    · rw [bind_some, List.getElem?_eq_none_iff] at h
      exact absurd (Nat.mod_lt rand hlen) (by omega)
    · rw [bind_eq_none_iff] at h
      cases hfind : (range sl.length).find? fun i =>
          rand % (sl.map (dir.scaledBandwidth rule sl)).sum <
            ((sl.map (dir.scaledBandwidth rule sl)).take (i + 1)).sum with
      | none =>
        have hlast := find?_eq_none.mp hfind (sl.length - 1)
          (mem_range.mpr (by omega))
        rw [decide_eq_true_eq, show sl.length - 1 + 1 = sl.length from by omega,
          take_of_length_le (by rw [length_map])] at hlast
        exact hlast (Nat.mod_lt _ (Nat.pos_of_ne_zero hsum))
      | some i =>
        have hi := mem_range.mp (mem_of_find?_eq_some hfind)
        have hno := h i hfind
        rw [List.getElem?_eq_none_iff] at hno
        omega
  · rintro rfl
    rfl

end Choice

end Directory

end Astoria
