import Astoria.BgpSim.GraphCopy
import Astoria.Library.Runs
import Mathlib.Algebra.BigOperators.Group.Finset.Piecewise
import Mathlib.Data.Rat.Floor

/-!
# Building an AS graph

Besides the Cyclops reader, a graph is built by the reader of IXP files and by the functions that
give an AS more peers: at random, among the members of IXPs, or among the ASes of largest degree.
All of them add edges in both directions (`NetworkGraph.addBoth`), without a check for edges from an
AS to itself.

`GraphData` is the content of a graph object without any assumption on it, and
`GraphData.Consistent` what a graph should satisfy: the nodes are the ASes with an edge, every edge
is listed at its two ends equally often and under opposite relationships, and the edge counter
counts the entries of all neighbour lists.  Every operation of this module keeps a graph consistent
(`Construction.consistent_apply`); the only one that can throw is `addEdgesToTopN`, when it is asked
for more ASes than there are.

Fractions are rational numbers here, and the values of the random number generator are arguments.  A
loop that tries random ASes gets the list of its draws, one a turn; what it leaves behind after any
list of draws is a state of the loop.
-/

namespace Astoria

open List Option
open RelationshipType

/-! ### Graph objects -/

/-- The content of a graph object. -/
structure GraphData where
  asNodes : List Asn
  /-- The neighbours of a node, by the relationship that the node has to them. -/
  neighbors : Asn → RelationshipType → List Asn
  /-- The number of directed edges. -/
  edgeCount : ℤ

def NetworkGraph.data (g : NetworkGraph) : GraphData := ⟨g.asNodes, g.neighbors, g.edgeCount⟩

namespace GraphData

/-- All neighbours of a node, without the BFS children. -/
def getAllNeighbors (g : GraphData) (n : Asn) : List Asn :=
  relationshipTypes.flatMap (g.neighbors n)

/-- The number of entries in the neighbour lists of the nodes. -/
def entries (g : GraphData) : ℕ := (g.asNodes.map fun n => (g.getAllNeighbors n).length).sum

/-- What a graph object should satisfy. -/
structure Consistent (g : GraphData) : Prop where
  nodup : g.asNodes.Nodup
  mem_asNodes : ∀ n, n ∈ g.asNodes ↔ g.getAllNeighbors n ≠ []
  /-- Edges are listed at both ends, equally often and under opposite relationships. -/
  balanced : ∀ n t m, (g.neighbors n t).count m =
    (g.neighbors m (getOppositeRelationshipType t)).count n
  edgeCount_eq : g.edgeCount = g.entries

variable {g : GraphData} {n m : Asn} {t : RelationshipType}

lemma mem_getAllNeighbors : m ∈ g.getAllNeighbors n ↔ ∃ t, m ∈ g.neighbors n t := by
  rw [getAllNeighbors, mem_flatMap]
  constructor
  · rintro ⟨t, -, h⟩
    exact ⟨t, h⟩
  · rintro ⟨t, h⟩
    exact ⟨t, by cases t <;> simp [relationshipTypes], h⟩

/-- The entries can be counted over any set of ASes that holds the nodes and beside them only ASes
without neighbours. -/
lemma entries_eq_sum (hnodup : g.asNodes.Nodup) {s : Finset Asn} (hs : ∀ n ∈ g.asNodes, n ∈ s)
    (hrest : ∀ n ∈ s, n ∉ g.asNodes → g.getAllNeighbors n = []) :
    g.entries = ∑ n ∈ s, (g.getAllNeighbors n).length := by
  rw [entries, ← sum_toFinset _ hnodup]
  refine Finset.sum_subset (fun n hn => hs n (List.mem_toFinset.mp hn)) fun n hn hnot => ?_
  rw [List.mem_toFinset] at hnot
  rw [hrest n hn hnot, length_nil]

lemma Consistent.mem_of_neighbors (h : g.Consistent) (hm : m ∈ g.neighbors n t) :
    n ∈ g.asNodes ∧ m ∈ g.asNodes := by
  have hn : n ∈ g.neighbors m (getOppositeRelationshipType t) := by
    rw [← count_pos_iff, ← h.balanced]
    exact count_pos_iff.mpr hm
  rw [h.mem_asNodes, h.mem_asNodes]
  exact ⟨ne_nil_of_mem (mem_getAllNeighbors.mpr ⟨t, hm⟩),
    ne_nil_of_mem (mem_getAllNeighbors.mpr ⟨_, hn⟩)⟩

lemma Consistent.not_mem_neighbors (h : g.Consistent) (hm : m ∉ g.asNodes) (n : Asn)
    (t : RelationshipType) : m ∉ g.neighbors n t :=
  fun hmem => hm (h.mem_of_neighbors hmem).2

end GraphData

namespace NetworkGraph

variable {g : NetworkGraph} {asn : Asn}

/-! ### Adding edges -/

/-- Add an edge in both directions, under opposite relationships. -/
def addBoth (g : NetworkGraph) (v₁ v₂ : Asn) (t : RelationshipType) : NetworkGraph :=
  (g.addEdge v₁ v₂ t).addEdge v₂ v₁ (getOppositeRelationshipType t)

/-- How often an AS is listed after an edge has been added. -/
lemma count_neighbors_addEdge (g : NetworkGraph) (src dest n m : Asn) (t u : RelationshipType) :
    ((g.addEdge src dest t).neighbors n u).count m =
      (g.neighbors n u).count m + if n = src ∧ u = t ∧ m = dest then 1 else 0 := by
  unfold addEdge
  by_cases hn : n = src
  · subst hn
    by_cases hu : u = t
    · subst hu
      by_cases hm : m = dest
      · simp [hm]
      · simp [hm, Ne.symm hm]
    · simp [hu]
  · simp [hn]

lemma length_getAllNeighbors_addEdge (g : NetworkGraph) (src dest n : Asn) (t : RelationshipType) :
    ((g.addEdge src dest t).data.getAllNeighbors n).length =
      (g.data.getAllNeighbors n).length + if n = src then 1 else 0 := by
  unfold addEdge data GraphData.getAllNeighbors
  by_cases hn : n = src
  · subst hn
    cases t <;> simp [relationshipTypes] <;> omega
  · simp [hn]

lemma getAllNeighbors_data_eq_nil {n : Asn} (hn : n ∉ g.asNodes) :
    g.data.getAllNeighbors n = [] := by
  refine eq_nil_iff_forall_not_mem.mpr fun m hm => ?_
  obtain ⟨t, ht⟩ := GraphData.mem_getAllNeighbors.mp hm
  exact hn (g.closed n t m ht).1

lemma edgeCount_addEdge (h : g.edgeCount = g.data.entries) (src dest : Asn) (t : RelationshipType) :
    (g.addEdge src dest t).edgeCount = (g.addEdge src dest t).data.entries := by
  have hnodes : ∀ n ∈ g.asNodes, n ∈ (g.addEdge src dest t).asNodes.toFinset := by
    intro n hn
    rw [List.mem_toFinset]
    simp only [addEdge, mem_getOrCreateNode]
    exact .inl (.inl hn)
  have hsrc : src ∈ (g.addEdge src dest t).asNodes.toFinset := by
    rw [List.mem_toFinset]
    simp [addEdge, mem_getOrCreateNode]
  have hold := GraphData.entries_eq_sum (g := g.data) g.nodup hnodes
    fun n _ hn => getAllNeighbors_data_eq_nil hn
  have hnew := GraphData.entries_eq_sum (g := (g.addEdge src dest t).data)
    (s := (g.addEdge src dest t).asNodes.toFinset) (g.addEdge src dest t).nodup
    (fun n hn => List.mem_toFinset.mpr hn)
    fun n hn hnot => absurd (List.mem_toFinset.mp hn) hnot
  simp only [length_getAllNeighbors_addEdge, Finset.sum_add_distrib, Finset.sum_ite_eq',
    if_pos hsrc, ← hold] at hnew
  rw [hnew, Nat.cast_add, ← h]
  rfl

/-- **Adding an edge in both directions keeps a graph consistent.** -/
theorem consistent_addBoth (h : g.data.Consistent) (v₁ v₂ : Asn) (t : RelationshipType) :
    (g.addBoth v₁ v₂ t).data.Consistent := by
  refine ⟨(g.addBoth v₁ v₂ t).nodup, fun n => ?_, fun n u m => ?_, ?_⟩
  · -- new nodes are the two ends, and each of them has the other as a neighbour
    have hlen : ((g.addBoth v₁ v₂ t).data.getAllNeighbors n).length =
        (g.data.getAllNeighbors n).length + (if n = v₁ then 1 else 0) +
          if n = v₂ then 1 else 0 := by
      rw [addBoth, length_getAllNeighbors_addEdge, length_getAllNeighbors_addEdge]
    have hmem : n ∈ (g.addBoth v₁ v₂ t).data.asNodes ↔ n ∈ g.data.asNodes ∨ n = v₁ ∨ n = v₂ := by
      simp only [data, addBoth, addEdge, mem_getOrCreateNode]
      tauto
    have hold := h.mem_asNodes n
    rw [← length_pos_iff_ne_nil] at hold ⊢
    rw [hmem, hold, hlen]
    split_ifs <;> simp_all
  · have hinv : u = getOppositeRelationshipType t ↔ getOppositeRelationshipType u = t := by
      constructor
      · rintro rfl
        exact getOppositeRelationshipType_involutive t
      · rintro rfl
        exact (getOppositeRelationshipType_involutive u).symm
    have hinj : getOppositeRelationshipType u = getOppositeRelationshipType t ↔ u = t := by
      cases u <;> cases t <;> simp [getOppositeRelationshipType]
    simp only [data, addBoth, count_neighbors_addEdge, hinv, hinj]
    have hleft : (n = v₁ ∧ u = t ∧ m = v₂) ↔ (m = v₂ ∧ u = t ∧ n = v₁) := by tauto
    have hright : (n = v₂ ∧ getOppositeRelationshipType u = t ∧ m = v₁) ↔
        (m = v₁ ∧ getOppositeRelationshipType u = t ∧ n = v₂) := by tauto
    have hbal : (g.neighbors n u).count m =
        (g.neighbors m (getOppositeRelationshipType u)).count n := h.balanced n u m
    rw [hbal, if_congr hleft rfl rfl, if_congr hright rfl rfl]
    omega
  · exact edgeCount_addEdge (edgeCount_addEdge h.edgeCount_eq v₁ v₂ t) v₂ v₁ _

/-! ### IXP files -/

/-- The edge that a line of an IXP file describes: five fields separated by blanks, of which the
second and the third are AS numbers and the fourth is the confidence in the edge. -/
def ixpEdge (line : List Char) : Option (Asn × Asn) :=
  match line.splitOn ' ' with
  | [field₀, field₁, field₂, confidence, _] =>
    if field₀.head? = some '#' ∨ confidence ≠ "good".toList then none
    else
      match tryParseUInt32 field₁, tryParseUInt32 field₂ with
      | some vertex₁, some vertex₂ => some (vertex₁, vertex₂)
      | _, _ => none
  | _ => none

/-- Make the ASes of a line peers, if they are nodes and have no relationship yet. -/
def processIXPline (g : NetworkGraph) (line : List Char) : NetworkGraph :=
  match ixpEdge line with
  | some (vertex₁, vertex₂) =>
    if vertex₁ ∈ g.asNodes ∧ vertex₂ ∈ g.asNodes ∧
        g.getRelationshipTypeOfNeighbor vertex₁ vertex₂ = none then
      g.addBoth vertex₁ vertex₂ peerOf
    else g
  | none => g

/-- Add the edges of an IXP file to a graph. -/
def processIXPfile (g : NetworkGraph) (lines : List (List Char)) : NetworkGraph :=
  lines.foldl processIXPline g

/-- Both file readers add edges in both directions. -/
lemma consistent_foldl {step : NetworkGraph → List Char → NetworkGraph}
    (hstep : ∀ g line, step g line = g ∨ ∃ v₁ v₂ t, step g line = g.addBoth v₁ v₂ t)
    (h : g.data.Consistent) (lines : List (List Char)) : (lines.foldl step g).data.Consistent := by
  induction lines generalizing g with
  | nil => exact h
  | cons line lines ih =>
    apply ih
    rcases hstep g line with he | ⟨v₁, v₂, t, he⟩
    · rw [he]
      exact h
    · rw [he]
      exact consistent_addBoth h v₁ v₂ t

lemma processCyclopsLine_cases (g : NetworkGraph) (line : List Char) :
    processCyclopsLine g line = g ∨ ∃ v₁ v₂ t, processCyclopsLine g line = g.addBoth v₁ v₂ t := by
  unfold processCyclopsLine
  split
  · exact .inr ⟨_, _, _, rfl⟩
  · exact .inl rfl

lemma processIXPline_cases (g : NetworkGraph) (line : List Char) :
    processIXPline g line = g ∨ ∃ v₁ v₂ t, processIXPline g line = g.addBoth v₁ v₂ t := by
  unfold processIXPline
  split
  · split_ifs
    · exact .inr ⟨_, _, _, rfl⟩
    · exact .inl rfl
  · exact .inl rfl

/-! ### More peers for an AS -/

/-- `Math.Round`: the nearest integer, and between two of them the even one. -/
def mathRound (x : ℚ) : ℤ :=
  if x - ⌊x⌋ < 1 / 2 then ⌊x⌋
  else if 1 / 2 < x - ⌊x⌋ then ⌊x⌋ + 1
  else if ⌊x⌋ % 2 = 0 then ⌊x⌋
  else ⌊x⌋ + 1

/-- The nodes that have customers. -/
def getNonStubs (g : NetworkGraph) : List Asn :=
  g.asNodes.filter fun n => !(g.neighbors n providerTo).isEmpty

/-- A turn of the loop that gives an AS random peers until it has `numEdges` neighbours.  The state
is the graph and the non-stubs that have not been taken; `Random.Next` yields the remainder of the
draw.  `none` is an exception. -/
def addEdgesTurn (asn : Asn) (numEdges : ℤ) (onlyNonStubs : Bool)
    (s : NetworkGraph × List Asn) (draw : ℕ) : Option (NetworkGraph × List Asn) :=
  if (s.1.getAllNeighbors asn).length < numEdges ∧ s.2 ≠ [] then do
    let potentialNeighbor ←
      if onlyNonStubs then s.2[draw % s.2.length]? else s.1.asNodes[draw % s.1.asNodes.length]?
    if potentialNeighbor ∈ s.1.asNodes ∧ potentialNeighbor ∉ s.1.getAllNeighbors asn then
      some (s.1.addBoth asn potentialNeighbor peerOf,
        if onlyNonStubs then s.2.erase potentialNeighbor else s.2)
    else some s
  else some s

/-- `addEdges` with a number of edges. -/
def addEdges (g : NetworkGraph) (asn : Asn) (numEdges : ℤ) (onlyNonStubs : Bool)
    (draws : List ℕ) : Option NetworkGraph :=
  if asn ∈ g.asNodes ∧ (g.getAllNeighbors asn).length < numEdges then
    (draws.foldlM (addEdgesTurn asn numEdges onlyNonStubs) (g, g.getNonStubs)).map Prod.fst
  else some g

/-- `addEdges` with a fraction of all nodes or of the non-stubs. -/
def addEdgesFraction (g : NetworkGraph) (asn : Asn) (fractionOfNodes : ℚ)
    (fractionOfAll onlyNonStubs : Bool) (draws : List ℕ) : Option NetworkGraph :=
  let nodes := if fractionOfAll then g.asNodes.length else g.getNonStubs.length
  g.addEdges asn (mathRound (nodes * fractionOfNodes)) onlyNonStubs draws

/-- A turn of the loop that gives an AS random peers among the members of IXPs.  The state is the
graph and the number of members that the AS is connected to. -/
def addEdgesIXPturn (asn : Asn) (idealConnectivity : ℤ) (ixpASes : List Asn)
    (s : NetworkGraph × ℤ) (draw : ℕ) : Option (NetworkGraph × ℤ) :=
  if s.2 < idealConnectivity then do
    let potentialNeighbor ← ixpASes[draw % ixpASes.length]?
    if potentialNeighbor ∈ s.1.asNodes ∧ potentialNeighbor ∉ s.1.getAllNeighbors asn then
      some (s.1.addBoth asn potentialNeighbor peerOf, s.2 + 1)
    else some s
  else some s

/-- `addEdges` with a fraction of the members of IXPs. -/
def addEdgesIXP (g : NetworkGraph) (asn : Asn) (fraction : ℚ) (ixpASes : List Asn)
    (draws : List ℕ) : Option NetworkGraph :=
  let currentConnectivity := (g.getAllNeighbors asn).countP (· ∈ ixpASes)
  let idealConnectivity := mathRound (fraction * ixpASes.length)
  if asn ∈ g.asNodes ∧ (currentConnectivity : ℤ) < idealConnectivity then
    (draws.foldlM (addEdgesIXPturn asn idealConnectivity ixpASes)
      (g, (currentConnectivity : ℤ))).map Prod.fst
  else some g

/-- Make two nodes peers unless they are neighbours. -/
def addPeer (asn : Asn) (g : NetworkGraph) (m : Asn) : NetworkGraph :=
  if m ∈ g.getAllNeighbors asn then g else g.addBoth asn m peerOf

/-- The nodes by the number of their neighbours, the largest first. -/
def topAsNodes (g : NetworkGraph) : List Asn :=
  (g.asNodes.insertionSort fun a b =>
    (g.getAllNeighbors a).length ≤ (g.getAllNeighbors b).length).reverse

/-- Make an AS a peer of the `topN` nodes with most neighbours.  Reading beyond the last of the
nodes throws. -/
def addEdgesToTopN (g : NetworkGraph) (asn : Asn) (topN : ℤ) : Option NetworkGraph :=
  if asn ∈ g.asNodes then
    (range topN.toNat).foldlM
      (fun g' i => (g.topAsNodes[i]?).map (addPeer asn g')) g
  else some g

lemma mem_asNodes_addBoth {n : Asn} (hn : n ∈ g.asNodes) (v₁ v₂ : Asn) (t : RelationshipType) :
    n ∈ (g.addBoth v₁ v₂ t).asNodes := by
  simp only [addBoth, addEdge, mem_getOrCreateNode]
  tauto

lemma exists_getElem?_mod {l : List Asn} (hl : l ≠ []) (draw : ℕ) :
    ∃ m, l[draw % l.length]? = some m :=
  ⟨_, getElem?_eq_getElem (Nat.mod_lt draw (length_pos_iff_ne_nil.mpr hl))⟩

/-- A turn of the loop of `addEdges` does not throw and keeps the graph consistent. -/
lemma addEdgesTurn_spec {numEdges : ℤ} {onlyNonStubs : Bool} {s : NetworkGraph × List Asn}
    (h : s.1.data.Consistent) (hasn : asn ∈ s.1.asNodes) (draw : ℕ) :
    ∃ s', addEdgesTurn asn numEdges onlyNonStubs s draw = some s' ∧ s'.1.data.Consistent ∧
      asn ∈ s'.1.asNodes := by
  unfold addEdgesTurn
  split_ifs with hturn honly
  · obtain ⟨m, hm⟩ := exists_getElem?_mod hturn.2 draw
    rw [hm]
    simp only [bind_eq_bind, bind_some]
    split_ifs
    · exact ⟨_, rfl, consistent_addBoth h _ _ _, mem_asNodes_addBoth hasn _ _ _⟩
    · exact ⟨s, rfl, h, hasn⟩
  · obtain ⟨m, hm⟩ := exists_getElem?_mod (ne_nil_of_mem hasn) draw
    rw [hm]
    simp only [bind_eq_bind, bind_some]
    split_ifs
    · exact ⟨_, rfl, consistent_addBoth h _ _ _, mem_asNodes_addBoth hasn _ _ _⟩
    · exact ⟨s, rfl, h, hasn⟩
  · exact ⟨s, rfl, h, hasn⟩

/-- `addEdges` does not throw and keeps the graph consistent. -/
lemma consistent_addEdges (h : g.data.Consistent) (asn : Asn) (numEdges : ℤ) (onlyNonStubs : Bool)
    (draws : List ℕ) :
    ∃ g', g.addEdges asn numEdges onlyNonStubs draws = some g' ∧ g'.data.Consistent := by
  unfold addEdges
  split_ifs with hasn
  · obtain ⟨s', hs', hinv, -⟩ := Runs.exists_foldlM
      (f := addEdgesTurn asn numEdges onlyNonStubs)
      (P := fun _ s => s.1.data.Consistent ∧ asn ∈ s.1.asNodes) (l := draws)
      (s := (g, g.getNonStubs))
      (fun draw _ s hs => addEdgesTurn_spec hs.1 hs.2 draw) ⟨h, hasn.1⟩
    rw [hs']
    exact ⟨s'.1, rfl, hinv⟩
  · exact ⟨g, rfl, h⟩

/-- A turn of the loop over the members of IXPs does not throw, if there are members, and keeps the
graph consistent. -/
lemma addEdgesIXPturn_spec {idealConnectivity : ℤ} {ixpASes : List Asn} {s : NetworkGraph × ℤ}
    (h : s.1.data.Consistent) (hixp : ixpASes ≠ []) (draw : ℕ) :
    ∃ s', addEdgesIXPturn asn idealConnectivity ixpASes s draw = some s' ∧
      s'.1.data.Consistent := by
  unfold addEdgesIXPturn
  split_ifs
  · obtain ⟨m, hm⟩ := exists_getElem?_mod hixp draw
    rw [hm]
    simp only [bind_eq_bind, bind_some]
    split_ifs
    · exact ⟨_, rfl, consistent_addBoth h _ _ _⟩
    · exact ⟨s, rfl, h⟩
  · exact ⟨s, rfl, h⟩

/-- `addEdges` over the members of IXPs does not throw and keeps the graph consistent. -/
lemma consistent_addEdgesIXP (h : g.data.Consistent) (asn : Asn) (fraction : ℚ) (ixpASes : List Asn)
    (draws : List ℕ) :
    ∃ g', g.addEdgesIXP asn fraction ixpASes draws = some g' ∧ g'.data.Consistent := by
  unfold addEdgesIXP
  dsimp only
  split_ifs with hasn
  · -- without members there is nothing to connect to, and the loop is not entered
    have hixp : ixpASes ≠ [] := by
      rintro rfl
      have hzero : mathRound 0 = 0 := by simp [mathRound]
      simp [hzero] at hasn
    obtain ⟨s', hs', hinv⟩ := Runs.exists_foldlM
      (f := addEdgesIXPturn asn (mathRound (fraction * ixpASes.length)) ixpASes)
      (P := fun _ s => s.1.data.Consistent) (l := draws)
      (s := (g, ((g.getAllNeighbors asn).countP (· ∈ ixpASes) : ℤ)))
      (fun draw _ s hs => addEdgesIXPturn_spec hs hixp draw) h
    rw [hs']
    exact ⟨s'.1, rfl, hinv⟩
  · exact ⟨g, rfl, h⟩

/-- `addEdgesToTopN` does not throw if there are enough nodes, and keeps the graph consistent. -/
lemma consistent_addEdgesToTopN (h : g.data.Consistent) {topN : ℤ}
    (htop : asn ∈ g.asNodes → topN ≤ g.asNodes.length) :
    ∃ g', g.addEdgesToTopN asn topN = some g' ∧ g'.data.Consistent := by
  unfold addEdgesToTopN
  split_ifs with hasn
  · have hlen : g.topAsNodes.length = g.asNodes.length := by
      rw [topAsNodes, length_reverse, length_insertionSort]
    have htop' := htop hasn
    have hstep : ∀ (i : ℕ) (rest : List ℕ) (g' : NetworkGraph),
        (g'.data.Consistent ∧ ∀ j ∈ i :: rest, j < topN.toNat) →
        ∃ g'', (g.topAsNodes[i]?).map (addPeer asn g') = some g'' ∧ g''.data.Consistent ∧
          ∀ j ∈ rest, j < topN.toNat := by
      rintro i rest g' ⟨hg', hrest⟩
      have hi : i < g.topAsNodes.length := by
        have := hrest i mem_cons_self
        omega
      refine ⟨addPeer asn g' g.topAsNodes[i], ?_, ?_, fun j hj =>
        hrest j (mem_cons_of_mem i hj)⟩
      · rw [getElem?_eq_getElem hi]
        rfl
      · unfold addPeer
        split_ifs
        · exact hg'
        · exact consistent_addBoth hg' _ _ _
    obtain ⟨g', hg', hinv, -⟩ := Runs.exists_foldlM
      (P := fun rest g' => g'.data.Consistent ∧ ∀ i ∈ rest, i < topN.toNat) hstep
      (l := range topN.toNat) (s := g) ⟨h, fun i hi => mem_range.mp hi⟩
    exact ⟨g', hg', hinv⟩
  · exact ⟨g, rfl, h⟩

end NetworkGraph

/-! ### Sequences of operations -/

/-- The operations that build a graph. -/
inductive Construction
  /-- Read a Cyclops file. -/
  | processCyclopsFile (lines : List (List Char))
  /-- Read an IXP file. -/
  | processIXPfile (lines : List (List Char))
  /-- Give an AS random peers, up to a number of neighbours. -/
  | addEdges (asn : Asn) (numEdges : ℤ) (onlyNonStubs : Bool) (draws : List ℕ)
  /-- Give an AS random peers, up to a fraction of the nodes. -/
  | addEdgesFraction (asn : Asn) (fractionOfNodes : ℚ) (fractionOfAll onlyNonStubs : Bool)
      (draws : List ℕ)
  /-- Give an AS random peers among the members of IXPs. -/
  | addEdgesIXP (asn : Asn) (fraction : ℚ) (ixpASes : List Asn) (draws : List ℕ)
  /-- Give an AS the peers of largest degree. -/
  | addEdgesToTopN (asn : Asn) (topN : ℤ)

namespace Construction

/-- What an operation makes of a graph; `none` is an exception. -/
def apply (g : NetworkGraph) : Construction → Option NetworkGraph
  | processCyclopsFile lines => some (lines.foldl processCyclopsLine g)
  | processIXPfile lines => some (g.processIXPfile lines)
  | addEdges asn numEdges onlyNonStubs draws => g.addEdges asn numEdges onlyNonStubs draws
  | addEdgesFraction asn fractionOfNodes fractionOfAll onlyNonStubs draws =>
    g.addEdgesFraction asn fractionOfNodes fractionOfAll onlyNonStubs draws
  | addEdgesIXP asn fraction ixpASes draws => g.addEdgesIXP asn fraction ixpASes draws
  | addEdgesToTopN asn topN => g.addEdgesToTopN asn topN

/-- The operation does not ask for more ASes than the graph has. -/
def InRange (g : NetworkGraph) : Construction → Prop
  | addEdgesToTopN asn topN => asn ∈ g.asNodes → topN ≤ g.asNodes.length
  | _ => True

/-- **One operation.**  It does not throw and keeps the graph consistent, if it does not ask for
more ASes than there are. -/
theorem consistent_apply {g : NetworkGraph} (h : g.data.Consistent) {op : Construction}
    (hop : op.InRange g) : ∃ g', op.apply g = some g' ∧ g'.data.Consistent := by
  cases op with
  | processCyclopsFile lines =>
    exact ⟨_, rfl, NetworkGraph.consistent_foldl NetworkGraph.processCyclopsLine_cases h lines⟩
  | processIXPfile lines =>
    exact ⟨_, rfl, NetworkGraph.consistent_foldl NetworkGraph.processIXPline_cases h lines⟩
  | addEdges asn numEdges onlyNonStubs draws =>
    exact NetworkGraph.consistent_addEdges h asn numEdges onlyNonStubs draws
  | addEdgesFraction asn fractionOfNodes fractionOfAll onlyNonStubs draws =>
    exact NetworkGraph.consistent_addEdges h asn _ onlyNonStubs draws
  | addEdgesIXP asn fraction ixpASes draws =>
    exact NetworkGraph.consistent_addEdgesIXP h asn fraction ixpASes draws
  | addEdgesToTopN asn topN => exact NetworkGraph.consistent_addEdgesToTopN h hop

/-- The graph that a sequence of operations builds from the empty graph. -/
def build (ops : List Construction) : Option NetworkGraph := ops.foldlM apply NetworkGraph.empty

lemma consistent_empty : NetworkGraph.empty.data.Consistent where
  nodup := nodup_nil
  mem_asNodes n := by simp [NetworkGraph.data, NetworkGraph.empty, GraphData.getAllNeighbors]
  balanced _ _ _ := rfl
  edgeCount_eq := rfl

/-- **Building a graph.**  If no operation asks for more ASes than there are, none throws, and the
graph is consistent in the end. -/
theorem consistent_build {ops : List Construction}
    (h : Runs.MeetsAlong apply InRange ops NetworkGraph.empty) :
    ∃ g, build ops = some g ∧ g.data.Consistent :=
  h.exists_foldlM (P := fun g : NetworkGraph => g.data.Consistent)
    (fun _ _ hg hop => consistent_apply hg hop) consistent_empty

end Construction

end Astoria
