import Astoria.BgpSim.GraphCopy

/-!
# Reusing a graph

The search state is kept in the nodes of the graph.  A destination can be computed on a graph whose
nodes hold what earlier computations have left there, finished or not, or on a copy of the graph.

What is left in the nodes does not matter, since all of it is reset.  A copy lists its nodes in
another order, but the neighbours in the same one, so that the searches are the same on it.  Only
the nodes without edges are missing from a copy: the tables of such a node can be computed on the
graph and not on its copy.
-/

namespace Astoria

open List Option
open LevelSearch (State Status Forest)

/-! ### Graphs with the same edges -/

section SameEdges

variable {P : Params} {b : BfsArgs} {g g' : NetworkGraph} {d : Asn}

lemma examine_congr (hn : g'.neighbors = b.graph.neighbors) :
    examine P { b with graph := g' } = examine P b := by
  obtain ⟨⟨nodes, neighbors, count, hnd, hcl⟩, src, limited, sibling, flags⟩ := b
  obtain ⟨nodes', neighbors', count', hnd', hcl'⟩ := g'
  subst hn
  rfl

/-- More fuel does not change the result of a loop. -/
lemma loop_add_of_eq_some {s s' : BfsState} {fuel : ℕ} (h : loop P b fuel s = some s') (k : ℕ) :
    loop P b (fuel + k) s = some s' := by
  induction fuel generalizing s with
  | zero =>
    unfold loop at h ⊢
    cases hq : s.nodeQueue with
    | nil =>
      rw [hq] at h
      exact h
    | cons cur queue =>
      rw [hq] at h
      cases h
  | succ fuel ih =>
    rw [Nat.succ_add]
    unfold loop at h ⊢
    cases hq : s.nodeQueue with
    | nil =>
      rw [hq] at h
      exact h
    | cons cur queue =>
      rw [hq] at h
      obtain ⟨s₁, hs₁, h⟩ := bind_eq_some_iff.mp h
      exact bind_eq_some_iff.mpr ⟨s₁, hs₁, ih h⟩

section

variable (hn : g'.neighbors = b.graph.neighbors)

include hn

/-- The loop runs in the same way in graphs with the same edges. -/
lemma loop_congr (fuel : ℕ) (s : BfsState) :
    loop P { b with graph := g' } fuel s = loop P b fuel s := by
  induction fuel generalizing s with
  | zero =>
    unfold loop
    rfl
  | succ fuel ih =>
    unfold loop
    rw [examine_congr hn]
    cases s.nodeQueue with
    | nil => rfl
    | cons cur queue => exact congrArg (Option.bind _) (funext ih)

/-- The loop of the library runs in the same way, whatever the list of the nodes is. -/
lemma levelSearch_loop_congr (old : Asn → Bool) (fuel : ℕ) (a : State Asn) :
    LevelSearch.loop (({ b with graph := g' } : BfsArgs).toRun P old) fuel a =
      LevelSearch.loop (b.toRun P old) fuel a := by
  induction fuel generalizing a with
  | zero => rfl
  | succ fuel ih =>
    have hexamine : LevelSearch.examine (({ b with graph := g' } : BfsArgs).toRun P old) =
        LevelSearch.examine (b.toRun P old) := by
      obtain ⟨⟨nodes, neighbors, count, hnd, hcl⟩, src, limited, sibling, flags⟩ := b
      obtain ⟨nodes', neighbors', count', hnd', hcl'⟩ := g'
      subst hn
      rfl
    rw [LevelSearch.loop, LevelSearch.loop, hexamine]
    cases a.queue with
    | nil => rfl
    | cons cur queue => exact ih _

/-- The searches of a pass are the same in graphs with the same edges. -/
lemma searchFrom_congr {old : Asn → Bool} {a : State Asn}
    (h : Forest b.srcNodeNum b.graph.asNodes old a) (hd : b.srcNodeNum ∈ b.graph.asNodes)
    (h' : Forest b.srcNodeNum g'.asNodes old a) (hd' : b.srcNodeNum ∈ g'.asNodes) :
    ({ b with graph := g' } : BfsArgs).searchFrom P old a = b.searchFrom P old a := by
  have hmax := LevelSearch.loop_of_length_le (r := b.toRun P old) h hd
    (fun _ _ hn => NetworkGraph.mem_asNodes_of_mem_getNeighborsByType hn)
    (le_max_left b.graph.asNodes.length g'.asNodes.length)
  have hmax' := LevelSearch.loop_of_length_le (r := ({ b with graph := g' } : BfsArgs).toRun P old)
    h' hd' (fun _ _ hn => NetworkGraph.mem_asNodes_of_mem_getNeighborsByType hn)
    (le_max_right b.graph.asNodes.length g'.asNodes.length)
  rw [levelSearch_loop_congr hn] at hmax'
  exact hmax'.symm.trans hmax

/-- **A pass in graphs with the same edges.**  It has the same result. -/
lemma executeBfs_congr {col : ℕ} {s : BfsState}
    (h : PassReady b col s) (h' : PassReady { b with graph := g' } col s) :
    executeBfs P { b with graph := g' } s = executeBfs P b s := by
  have hsearch : ({ b with graph := g' } : BfsArgs).search P s = b.search P s :=
    searchFrom_congr hn h.forest h.mem_nodes h'.forest h'.mem_nodes
  obtain ⟨hsome, hnone⟩ := executeBfs_spec (P := P) h
  obtain ⟨hsome', hnone'⟩ := executeBfs_spec (P := P) h'
  rw [hsearch] at hnone'
  cases hrun : executeBfs P b s with
  | none =>
    cases hrun' : executeBfs P { b with graph := g' } s with
    | none => rfl
    | some t' =>
      have hfits := (hsome' t' hrun').fits
      rw [hsearch] at hfits
      exact absurd hfits (hnone hrun)
  | some t =>
    cases hrun' : executeBfs P { b with graph := g' } s with
    | none => exact absurd (hsome t hrun).fits (hnone' hrun')
    | some t' =>
      have r := hsome t hrun
      have r' := hsome' t' hrun'
      -- both results come from the same end of the loop, which they lock in the same way
      unfold executeBfs at hrun hrun'
      split_ifs at hrun hrun' with hguard hguard'
      obtain ⟨u, hu, rfl⟩ := map_eq_some_iff.mp hrun
      obtain ⟨u', hu', rfl⟩ := map_eq_some_iff.mp hrun'
      rw [loop_congr hn] at hu'
      have hlong := loop_add_of_eq_some hu g'.asNodes.length
      have hlong' := loop_add_of_eq_some hu' b.graph.asNodes.length
      rw [add_comm] at hlong'
      obtain rfl : u' = u := Option.some.inj (hlong'.symm.trans hlong)
      have hprior : (lockDiscovered { b with graph := g' } u').discoveredInPriorBfs =
          (lockDiscovered b u').discoveredInPriorBfs := by
        funext n
        rw [Bool.eq_iff_iff, r.prior_iff, r'.prior_iff, hsearch]
      have hstatus : (lockDiscovered { b with graph := g' } u').inProcessBfsStatus =
          (lockDiscovered b u').inProcessBfsStatus := by
        have hto := r.toSearch_eq
        rw [← hsearch, ← r'.toSearch_eq] at hto
        exact (congrArg State.status hto).symm
      unfold lockDiscovered at hprior hstatus ⊢
      simp only [BfsState.mk.injEq, Option.some.injEq, and_true] at hprior hstatus ⊢
      exact ⟨hstatus, hprior⟩

end

/-- **Graphs with the same edges.**  The routing algorithm returns the same for a destination that
is a node of both. -/
theorem routingTreeAlg_congr (hn : g'.neighbors = g.neighbors) (hd : d ∈ g.asNodes)
    (hd' : d ∈ g'.asNodes) : routingTreeAlg P g' d = routingTreeAlg P g d := by
  have h₁ := executeBfs_congr (P := P) (b := customerPass g d) hn (passReady_initial hd)
    (passReady_initial hd')
  have hpass₁ : executeBfs P (customerPass g' d) BfsState.initial =
      executeBfs P (customerPass g d) BfsState.initial := h₁
  unfold routingTreeAlg
  rw [hpass₁]
  cases hs₁ : executeBfs P (customerPass g d) BfsState.initial with
  | none => rfl
  | some s₁ =>
    have b₁ : BetweenPasses g d (customerSearch P g d) s₁ :=
      ((executeBfs_spec (passReady_initial hd)).1 s₁ hs₁).between
    have b₁' : BetweenPasses g' d (customerSearch P g' d) s₁ :=
      ((executeBfs_spec (passReady_initial hd')).1 s₁ (hpass₁.trans hs₁)).between
    have hpass₂ : executeBfs P (peerPass g' d) s₁ = executeBfs P (peerPass g d) s₁ :=
      executeBfs_congr (b := peerPass g d) hn (b₁.peerPass_ready hd) (b₁'.peerPass_ready hd')
    simp only [bind_eq_bind, bind_some]
    rw [hpass₂]
    cases hs₂ : executeBfs P (peerPass g d) s₁ with
    | none => rfl
    | some s₂ =>
      have b₂ : BetweenPasses g d (peerSearch P g d) s₂ := by
        rw [peerSearch, ← BetweenPasses.search_eq (b := peerPass g d) b₁]
        exact ((executeBfs_spec (b₁.peerPass_ready hd)).1 s₂ hs₂).between
      have b₂' : BetweenPasses g' d (peerSearch P g' d) s₂ := by
        rw [peerSearch, ← BetweenPasses.search_eq (b := peerPass g' d) b₁']
        exact ((executeBfs_spec (b₁'.peerPass_ready hd')).1 s₂ (hpass₂.trans hs₂)).between
      exact executeBfs_congr (b := providerPass g d) hn (b₂.providerPass_ready hd)
        (b₂'.providerPass_ready hd')

end SameEdges

/-! ### What is left in the nodes -/

/-- The search state in the nodes of a graph. -/
structure NodeStates (g : NetworkGraph) where
  inProcessBfsStatus : {n // n ∈ g.asNodes} → Status
  discoveredInPriorBfs : {n // n ∈ g.asNodes} → Bool
  bfsParentNode : {n // n ∈ g.asNodes} → Option Asn
  bfsDepth : {n // n ∈ g.asNodes} → ℕ
  bfsChildren : {n // n ∈ g.asNodes} → List Asn

namespace NodeStates

variable {g : NetworkGraph}

/-- New nodes. -/
def fresh : NodeStates g where
  inProcessBfsStatus _ := .unseen
  discoveredInPriorBfs _ := false
  bfsParentNode _ := none
  bfsDepth _ := 2 ^ 31 - 1
  bfsChildren _ := []

/-- Reset the search state of all nodes. -/
def reinitializeBfsState (_left : NodeStates g) : NodeStates g where
  inProcessBfsStatus _ := .unseen
  discoveredInPriorBfs _ := false
  bfsParentNode _ := none
  bfsDepth _ := 2 ^ 31 - 1
  bfsChildren _ := []

/-- The state in which the routing algorithm starts: what is in the nodes, and new tables. -/
def toBfsState (left : NodeStates g) : BfsState :=
  { BfsState.initial with
    inProcessBfsStatus := fun n =>
      if h : n ∈ g.asNodes then left.inProcessBfsStatus ⟨n, h⟩
      else BfsState.initial.inProcessBfsStatus n
    discoveredInPriorBfs := fun n =>
      if h : n ∈ g.asNodes then left.discoveredInPriorBfs ⟨n, h⟩
      else BfsState.initial.discoveredInPriorBfs n
    bfsParentNode := fun n =>
      if h : n ∈ g.asNodes then left.bfsParentNode ⟨n, h⟩ else BfsState.initial.bfsParentNode n
    bfsDepth := fun n =>
      if h : n ∈ g.asNodes then left.bfsDepth ⟨n, h⟩ else BfsState.initial.bfsDepth n
    bfsChildren := fun n =>
      if h : n ∈ g.asNodes then left.bfsChildren ⟨n, h⟩ else BfsState.initial.bfsChildren n }

/-- What a search leaves in the nodes. -/
def ofBfsState (g : NetworkGraph) (s : BfsState) : NodeStates g where
  inProcessBfsStatus n := s.inProcessBfsStatus n
  discoveredInPriorBfs n := s.discoveredInPriorBfs n
  bfsParentNode n := s.bfsParentNode n
  bfsDepth n := s.bfsDepth n
  bfsChildren n := s.bfsChildren n

end NodeStates

/-- The three passes, started in any state. -/
def routingTreeFrom (P : Params) (g : NetworkGraph) (d : Asn) (s : BfsState) : Option BfsState := do
  let s ← executeBfs P (customerPass g d) s
  let s ← executeBfs P (peerPass g d) s
  executeBfs P (providerPass g d) s

/-- The search for a destination on a graph whose nodes hold `left`: they are reset, and the passes
run on the graph itself or on a copy. -/
def searchOn (P : Params) (g : NetworkGraph) (left : NodeStates g) (d : Asn) (readOnly : Bool) :
    Option BfsState :=
  if readOnly then
    routingTreeFrom P g.copy d (NodeStates.fresh (g := g.copy)).toBfsState
  else routingTreeFrom P g d left.reinitializeBfsState.toBfsState

/-- Compute the tables of a destination on a graph whose nodes hold `left`. -/
def initMiniDestinationOn (P : Params) (g : NetworkGraph) (left : NodeStates g) (destination : Asn)
    (readOnly : Bool) : Option MiniDestination := do
  let s ← searchOn P g left destination readOnly
  let best ← sortBest P (searchedGraph g readOnly).asNodes s.best
  return {
    destination := destination
    bucketTable := s.bucketTable
    best := cutStubs P g best
    bestNew := s.bestNew
    L := s.L
    bestRelation := s.bestRelation
    W := rowWeights P s.bucketTable }

/-- What a computation leaves in the nodes: nothing if it has run on a copy, the end of its search
if it has come to an end, and anything if it has raised an exception. -/
def Leaves (P : Params) (g : NetworkGraph) (left : NodeStates g) (d : Asn) (readOnly : Bool)
    (left' : NodeStates g) : Prop :=
  if readOnly then left' = left.reinitializeBfsState
  else ∀ s, searchOn P g left d false = some s → left' = NodeStates.ofBfsState g s

/-- What a sequence of computations on a graph can have left in its nodes. -/
inductive LeftBy (P : Params) (g : NetworkGraph) : List (Asn × Bool) → NodeStates g → Prop
  | load : LeftBy P g [] NodeStates.fresh
  | run {runs left d readOnly left'} : LeftBy P g runs left → Leaves P g left d readOnly left' →
      LeftBy P g (runs ++ [(d, readOnly)]) left'

/-- After any computations on a graph, the tables of the destination `d` are the same as on a graph
that has just been loaded, and as on a copy. -/
def Reusable (P : Params) (g : NetworkGraph) (d : Asn) : Prop :=
  ∀ runs left, LeftBy P g runs left →
    initMiniDestinationOn P g left d false = initMiniDestinationOn P g NodeStates.fresh d false ∧
      initMiniDestinationOn P g left d false = initMiniDestinationOn P g left d true

section Reuse

variable {P : Params} {g : NetworkGraph} {d : Asn}

lemma NodeStates.toBfsState_fresh : (fresh (g := g)).toBfsState = BfsState.initial := by
  simp [toBfsState, fresh, BfsState.initial]

lemma NodeStates.toBfsState_reinitializeBfsState (left : NodeStates g) :
    left.reinitializeBfsState.toBfsState = BfsState.initial :=
  toBfsState_fresh

/-- What is left in the nodes does not matter. -/
lemma initMiniDestinationOn_eq (left : NodeStates g) (readOnly : Bool) :
    initMiniDestinationOn P g left d readOnly = initMiniDestination P g d readOnly := by
  have hsearch : searchOn P g left d readOnly = routingTreeAlg P (searchedGraph g readOnly) d := by
    cases readOnly with
    | true =>
      show routingTreeFrom P g.copy d _ = _
      rw [NodeStates.toBfsState_fresh]
      rfl
    | false =>
      show routingTreeFrom P g d _ = _
      rw [NodeStates.toBfsState_reinitializeBfsState]
      rfl
  rw [initMiniDestinationOn, initMiniDestination, hsearch]

/-- Best sets are sorted in the same way, whatever the list of the nodes is, as long as it has all
nodes with a best set. -/
lemma sortBest_congr {nodes nodes' : List Asn} {best : Asn → Option (List Asn)}
    (h : ∀ n, best n ≠ none → n ∈ nodes) (h' : ∀ n, best n ≠ none → n ∈ nodes') :
    sortBest P nodes' best = sortBest P nodes best := by
  have hall {l : List Asn} (hl : ∀ n, best n ≠ none → n ∈ l) :
      ((l.all fun i => (best i).all fun ps => (sortByHashValue P ps i).isSome) = true) ↔
        ∀ i ps, best i = some ps → (sortByHashValue P ps i).isSome = true := by
    rw [List.all_eq_true]
    constructor
    · intro hsorted i ps hi
      have := hsorted i (hl i (by simp [hi]))
      rwa [hi, all_some] at this
    · intro hsorted i _
      cases hi : best i with
      | none => rfl
      | some ps => exact hsorted i ps hi
  by_cases hsorted : ∀ i ps, best i = some ps → (sortByHashValue P ps i).isSome = true
  · rw [sortBest, sortBest, if_pos ((hall h').2 hsorted), if_pos ((hall h).2 hsorted)]
  · rw [sortBest, sortBest, if_neg (mt (hall h').1 hsorted), if_neg (mt (hall h).1 hsorted)]

/-- On a graph with the same edges, the tables are the same. -/
lemma initMiniDestination_copy (hdup : g.DuplicateFree) (hd : d ∈ g.asNodes)
    (hd' : d ∈ g.copy.asNodes) :
    initMiniDestination P g d true = initMiniDestination P g d false := by
  have hrun : routingTreeAlg P g.copy d = routingTreeAlg P g d :=
    routingTreeAlg_congr hdup.neighbors_copy hd hd'
  unfold initMiniDestination
  simp only [searchedGraph, if_true, Bool.false_eq_true, if_false, hrun]
  cases hs : routingTreeAlg P g d with
  | none => rfl
  | some s =>
    have hmem {h : NetworkGraph} (ht : RoutingTree h d s) : ∀ n, s.best n ≠ none → n ∈ h.asNodes :=
      fun n hn => ht.forest.mem_nodes n (BfsState.rank_ne_none.2 hn)
    simp only [bind_eq_bind, bind_some]
    rw [sortBest_congr (hmem (routingTreeAlg_spec hs).2.1)
      (hmem (routingTreeAlg_spec (hrun.trans hs)).2.1)]

/-- A node without edges: it lists nobody, and nobody lists it. -/
def Isolated (g : NetworkGraph) (d : Asn) : Prop :=
  ∀ t m, m ∉ g.neighbors d t ∧ d ∉ g.neighbors m t

lemma notMem_asNodes_copy_iff : d ∉ g.copy.asNodes ↔ Isolated g d := by
  rw [NetworkGraph.mem_asNodes_copy]
  simp [Isolated, not_or]

/-- The tree of a node that lists nobody consists of the node alone. -/
lemma eq_of_rank_ne_none (hd : d ∈ g.asNodes) (hiso : Isolated g d) {n : Asn}
    (hn : rank P g d n ≠ none) : n = d := by
  have hforest := routingForest (P := P) hd
  -- a node at the least depth would have the destination as a predecessor
  suffices h : ∀ k n, (providerSearch P g d).depth n = k → rank P g d n ≠ none → n = d from
    h _ n rfl hn
  intro k
  induction k using Nat.strong_induction_on with
  | _ k ih =>
    intro n hk hn
    by_contra hne
    obtain ⟨c, hc⟩ := ne_none_iff_exists'.mp hn
    obtain ⟨m, hm⟩ := exists_mem_of_ne_nil _ (hforest.preds_ne_nil n hn)
    obtain ⟨husable, hadj, hdepth⟩ := (hforest.mem_preds n c hne hc m).1 hm
    have hrank : rank P g d m ≠ none := by
      rcases husable with h | h
      · simp [h]
      · exact h.2
    obtain rfl := ih _ (by omega) m rfl hrank
    rw [NetworkGraph.mem_getNeighborsByType (by unfold passFlags; split <;> simp)] at hadj
    obtain ⟨t, -, hadj⟩ := hadj
    exact (hiso t n).1 hadj

/-- The tables of a node without edges can be computed on the graph. -/
lemma initMiniDestination_of_isolated (hd : d ∈ g.asNodes) (hlt : d < numASNs)
    (hiso : Isolated g d) : ∃ m, initMiniDestination P g d false = some m := by
  have hfits : Fits (providerSearch P g d) := by
    intro n hn
    obtain rfl := eq_of_rank_ne_none hd hiso ((rank_ne_none (P := P) hd).2 (seen_iff.mpr hn))
    rw [(routingForest hd).depth_root]
    exact ⟨hlt, by decide⟩
  obtain ⟨s, hs⟩ := ne_none_iff_exists'.mp
    fun hnone => not_fits_of_routingTreeAlg (P := P) hd hnone hfits
  refine initMiniDestination_isSome_iff.mpr ⟨s, hs, fun _ n => ?_⟩
  obtain ⟨-, ht, hrank, -⟩ := routingTreeAlg_spec hs
  cases hb : s.best n with
  | none => simp [BfsState.bestSet, hb]
  | some ps =>
    have hn : rank P g d n ≠ none := by
      rw [← hrank]
      exact BfsState.rank_ne_none.2 (by simp [hb])
    obtain rfl := eq_of_rank_ne_none hd hiso hn
    rw [BfsState.bestSet, ht.tables.best_root]
    simp

lemma initMiniDestination_eq_none (readOnly : Bool)
    (h : d ∉ (searchedGraph g readOnly).asNodes ∨ numASNs ≤ d) :
    initMiniDestination P g d readOnly = none := by
  have hpass : executeBfs P (customerPass (searchedGraph g readOnly) d) BfsState.initial = none :=
    if_pos h
  rw [initMiniDestination, routingTreeAlg, hpass]
  rfl

/-- **Reusing a graph.**  In a graph without duplicate edges, the tables of a destination do not
depend on earlier computations, and they are the same on a copy, exactly if the destination is not a
node without edges that has an entry in the tables. -/
theorem reusable_iff (P : Params) (g : NetworkGraph) (d : Asn) (hdup : g.DuplicateFree) :
    Reusable P g d ↔ ¬ (d ∈ g.asNodes ∧ d < numASNs ∧ Isolated g d) := by
  constructor
  · rintro h ⟨hd, hlt, hiso⟩
    obtain ⟨-, heq⟩ := h [] _ LeftBy.load
    obtain ⟨m, hm⟩ := initMiniDestination_of_isolated (P := P) hd hlt hiso
    have hcopy : initMiniDestination P g d true = none :=
      initMiniDestination_eq_none true (Or.inl (notMem_asNodes_copy_iff.mpr hiso))
    rw [initMiniDestinationOn_eq, initMiniDestinationOn_eq, hm, hcopy] at heq
    cases heq
  · intro h runs left _
    rw [initMiniDestinationOn_eq, initMiniDestinationOn_eq, initMiniDestinationOn_eq]
    refine ⟨rfl, ?_⟩
    by_cases hd : d ∈ g.asNodes
    · by_cases hd' : d ∈ g.copy.asNodes
      · exact (initMiniDestination_copy hdup hd hd').symm
      · have hge : numASNs ≤ d := by
          by_contra hlt
          exact h ⟨hd, Nat.not_le.mp hlt, notMem_asNodes_copy_iff.mp hd'⟩
        rw [initMiniDestination_eq_none _ (Or.inr hge), initMiniDestination_eq_none _ (Or.inr hge)]
    · have hd' : d ∉ g.copy.asNodes := by
        intro hmem
        obtain ⟨t, m, hm | hm⟩ := NetworkGraph.mem_asNodes_copy.mp hmem
        · exact hd (g.closed _ _ _ hm).1
        · exact hd (g.closed _ _ _ hm).2
      rw [initMiniDestination_eq_none false (Or.inl hd),
        initMiniDestination_eq_none true (Or.inl hd')]

/-- The theorem at a graph of a customer and its provider. -/
theorem reusable_iff_two_nodes :
    (processCyclopsFile ["1\t2\tc2p".toList]).DuplicateFree ∧
      Reusable {} (processCyclopsFile ["1\t2\tc2p".toList]) 1 := by
  have hdup : (processCyclopsFile ["1\t2\tc2p".toList]).DuplicateFree := by
    intro n
    by_cases hn : n ∈ (processCyclopsFile ["1\t2\tc2p".toList]).asNodes
    · have hnodes : (processCyclopsFile ["1\t2\tc2p".toList]).asNodes = [1, 2] := by decide +kernel
      rw [hnodes] at hn
      simp only [mem_cons, not_mem_nil, or_false] at hn
      rcases hn with rfl | rfl
      · decide +kernel
      · decide +kernel
    · have hnil : (processCyclopsFile ["1\t2\tc2p".toList]).getAllNeighbors n = [] := by
        refine eq_nil_iff_forall_not_mem.mpr fun m hm => hn ?_
        obtain ⟨t, ht⟩ := NetworkGraph.mem_getAllNeighbors.mp hm
        exact (NetworkGraph.closed _ n t m ht).1
      rw [hnil]
      exact nodup_nil
  refine ⟨hdup, (reusable_iff {} _ 1 hdup).mpr ?_⟩
  rintro ⟨-, -, hiso⟩
  exact (hiso .customerOf 2).1 (by decide +kernel)

/-- What is left of two nodes whose only edge has been removed again, in both directions. -/
def twoIsolatedNodes : NetworkGraph where
  asNodes := [1, 2]
  neighbors _ _ := []
  edgeCount := 0
  nodup := by decide
  closed _ _ _ h := absurd h not_mem_nil

/-- The tables of a node without edges are computed on the graph, but not on its copy. -/
theorem not_reusable_twoIsolatedNodes :
    twoIsolatedNodes.DuplicateFree ∧ ¬ Reusable {} twoIsolatedNodes 1 := by
  refine ⟨fun n => nodup_nil, fun h => ?_⟩
  obtain ⟨-, heq⟩ := h [] _ LeftBy.load
  have hgraph : (initMiniDestinationOn {} twoIsolatedNodes NodeStates.fresh 1 false).isSome =
      true := by
    decide +kernel
  have hcopy : (initMiniDestinationOn {} twoIsolatedNodes NodeStates.fresh 1 true).isSome =
      false := by
    decide +kernel
  rw [heq, hcopy] at hgraph
  cases hgraph

end Reuse

end Astoria
