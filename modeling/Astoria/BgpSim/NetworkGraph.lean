import Mathlib.Data.Int.Notation
import Mathlib.Data.List.Nodup

/-!
# The AS graph

`NetworkGraph` holds the ASes in the order in which they were first mentioned and, for every AS, one
list of neighbours per relationship type.  The lists of BFS children that the simulator keeps beside
them belong to the search state (`BfsState`), not to the graph.

An edge is directed: `m ∈ g.neighbors n .customerOf` says that `n` is a customer of `m`.  A graph is
symmetric when every edge has its opposite; `addEdge` alone does not make it so, the file readers
add both directions.
-/

namespace Astoria

open List Function

/-- AS numbers. -/
abbrev Asn := ℕ

/-- The size of the arrays that are indexed by AS numbers (`Constants._numASNs`). -/
def numASNs : ℕ := 400000

/-- The number of rows of a bucket table (`Constants._maxPathLen`). -/
def maxPathLen : ℕ := 30

/-- The number of columns of a bucket table (`Constants._numRelationshipTypes`). -/
def numRelationshipTypes : ℕ := 3

/-- The relationships between ASes.  A value of the source's flag type is modelled by the list of
the flags that are set; its null value is the empty list. -/
inductive RelationshipType
  /-- The AS is a customer of the neighbour. -/
  | customerOf
  /-- The AS is a peer of the neighbour. -/
  | peerOf
  /-- The AS is a provider to the neighbour. -/
  | providerTo
  /-- The AS is a sibling of the neighbour. -/
  | siblingOf
  deriving DecidableEq

open RelationshipType

def getOppositeRelationshipType : RelationshipType → RelationshipType
  | customerOf => providerTo
  | peerOf => peerOf
  | providerTo => customerOf
  | siblingOf => siblingOf

/-- Taking the opposite twice gives the relationship back. -/
@[simp] lemma getOppositeRelationshipType_involutive (t : RelationshipType) :
    getOppositeRelationshipType (getOppositeRelationshipType t) = t := by
  cases t <;> rfl

/-- The relationship types in the order of the indices of the neighbour lists. -/
def relationshipTypes : List RelationshipType := [customerOf, peerOf, providerTo, siblingOf]

/-- A network graph: its nodes in insertion order and the neighbour lists of every node. -/
structure NetworkGraph where
  asNodes : List Asn
  /-- The neighbours of a node, by the relationship that the node has to them. -/
  neighbors : Asn → RelationshipType → List Asn
  /-- The number of directed edges. -/
  edgeCount : ℤ
  nodup : asNodes.Nodup
  closed : ∀ n t m, m ∈ neighbors n t → n ∈ asNodes ∧ m ∈ asNodes

namespace NetworkGraph

/-- The graph without nodes. -/
def empty : NetworkGraph where
  asNodes := []
  neighbors _ _ := []
  edgeCount := 0
  nodup := nodup_nil
  closed _ _ _ h := absurd h not_mem_nil

/-- The node list after `GetOrCreateNode`. -/
def getOrCreateNode (nodes : List Asn) (n : Asn) : List Asn :=
  if n ∈ nodes then nodes else nodes ++ [n]

lemma mem_getOrCreateNode {nodes : List Asn} {n m : Asn} :
    m ∈ getOrCreateNode nodes n ↔ m ∈ nodes ∨ m = n := by
  unfold getOrCreateNode
  split
  · next h => exact ⟨.inl, fun hm => hm.elim id fun hm => hm ▸ h⟩
  · simp

/-- Creating a node keeps the node list free of repetitions. -/
lemma nodup_getOrCreateNode {nodes : List Asn} (h : nodes.Nodup) (n : Asn) :
    (getOrCreateNode nodes n).Nodup := by
  unfold getOrCreateNode
  split
  · exact h
  · next hn =>
    refine nodup_append.mpr ⟨h, nodup_singleton n, ?_⟩
    intro a ha b hb
    rw [mem_singleton] at hb
    exact fun hab => hn (hb ▸ hab ▸ ha)

/-- Add the directed edge from `src` to `dest`, creating the nodes where needed. -/
def addEdge (g : NetworkGraph) (src dest : Asn) (t : RelationshipType) : NetworkGraph where
  asNodes := getOrCreateNode (getOrCreateNode g.asNodes src) dest
  neighbors := update g.neighbors src
    (update (g.neighbors src) t (g.neighbors src t ++ [dest]))
  edgeCount := g.edgeCount + 1
  nodup := nodup_getOrCreateNode (nodup_getOrCreateNode g.nodup src) dest
  closed n u m h := by
    simp only [mem_getOrCreateNode]
    by_cases hn : n = src
    · subst hn
      rw [update_self] at h
      by_cases hu : u = t
      · subst hu
        rw [update_self, mem_append, mem_singleton] at h
        rcases h with h | h
        · exact ⟨Or.inl (Or.inr rfl), Or.inl (Or.inl (g.closed n u m h).2)⟩
        · exact ⟨Or.inl (Or.inr rfl), Or.inr h⟩
      · rw [update_of_ne hu] at h
        exact ⟨Or.inl (Or.inr rfl), Or.inl (Or.inl (g.closed n u m h).2)⟩
    · rw [update_of_ne hn] at h
      obtain ⟨h₁, h₂⟩ := g.closed n u m h
      exact ⟨Or.inl (Or.inl h₁), Or.inl (Or.inl h₂)⟩

variable {g : NetworkGraph}

lemma mem_neighbors_addEdge {src dest n m : Asn} {t u : RelationshipType} :
    m ∈ (g.addEdge src dest t).neighbors n u ↔
      m ∈ g.neighbors n u ∨ (n = src ∧ u = t ∧ m = dest) := by
  unfold addEdge
  by_cases hn : n = src
  · subst hn
    by_cases hu : u = t
    · subst hu
      simp
    · simp [hu]
  · simp [hn]

/-- Add directed edges one after another. -/
def addAll (g : NetworkGraph) (edges : List (Asn × Asn × RelationshipType)) : NetworkGraph :=
  edges.foldl (fun g e => g.addEdge e.1 e.2.1 e.2.2) g

/-- New edges are appended to the neighbour lists of their sources, in their order. -/
lemma neighbors_addAll (g : NetworkGraph) (edges : List (Asn × Asn × RelationshipType)) (n : Asn)
    (t : RelationshipType) : (g.addAll edges).neighbors n t = g.neighbors n t ++
      (edges.filter fun e => e.1 = n ∧ e.2.2 = t).map fun e => e.2.1 := by
  induction edges generalizing g with
  | nil => simp [addAll]
  | cons e edges ih =>
    obtain ⟨src, dest, u⟩ := e
    rw [addAll, foldl_cons]
    refine (ih (g.addEdge src dest u)).trans ?_
    simp only [addEdge]
    by_cases hn : n = src
    · subst hn
      by_cases ht : t = u
      · subst ht
        simp
      · simp [ht, Ne.symm ht]
    · simp [hn, Ne.symm hn]

lemma mem_asNodes_addAll {edges : List (Asn × Asn × RelationshipType)} {n : Asn} :
    n ∈ (g.addAll edges).asNodes ↔ n ∈ g.asNodes ∨ ∃ e ∈ edges, n = e.1 ∨ n = e.2.1 := by
  induction edges generalizing g with
  | nil => simp [addAll]
  | cons e edges ih =>
    rw [addAll, foldl_cons]
    refine (ih (g := g.addEdge e.1 e.2.1 e.2.2)).trans ?_
    simp only [addEdge, mem_getOrCreateNode, exists_mem_cons_iff, or_assoc]

/-- Whether a node is a stub: it is a provider to nobody. -/
def isStub (g : NetworkGraph) (n : Asn) : Bool := (g.neighbors n providerTo).isEmpty

/-- All neighbours of a node, without the BFS children. -/
def getAllNeighbors (g : NetworkGraph) (n : Asn) : List Asn :=
  relationshipTypes.flatMap (g.neighbors n)

/-- The neighbours of a node with one of the given relationships, without the BFS children.  Without
any flag, all neighbours are returned. -/
def getNeighborsByType (g : NetworkGraph) (n : Asn) (flags : List RelationshipType) : List Asn :=
  if flags = [] then g.getAllNeighbors n
  else (relationshipTypes.filter (· ∈ flags)).flatMap (g.neighbors n)

/-- The first relationship under which `m` is listed at `n`, if any.  The source also looks at the
BFS children, after all others; being listed only there has no effect in what is modelled. -/
def getRelationshipTypeOfNeighbor (g : NetworkGraph) (n m : Asn) : Option RelationshipType :=
  relationshipTypes.find? (fun t => decide (m ∈ g.neighbors n t))

/-- Membership in the neighbours of given types. -/
lemma mem_getNeighborsByType {n m : Asn} {flags : List RelationshipType} (hf : flags ≠ []) :
    m ∈ g.getNeighborsByType n flags ↔ ∃ t ∈ flags, m ∈ g.neighbors n t := by
  rw [getNeighborsByType, if_neg hf]
  simp only [mem_flatMap, mem_filter, decide_eq_true_eq]
  constructor
  · rintro ⟨t, ⟨-, ht⟩, hm⟩
    exact ⟨t, ht, hm⟩
  · rintro ⟨t, ht, hm⟩
    exact ⟨t, ⟨by cases t <;> simp [relationshipTypes], ht⟩, hm⟩

lemma mem_asNodes_of_mem_getNeighborsByType {n m : Asn}
    {flags : List RelationshipType} (h : m ∈ g.getNeighborsByType n flags) : m ∈ g.asNodes := by
  unfold getNeighborsByType getAllNeighbors at h
  split at h <;>
  · obtain ⟨t, -, hm⟩ := mem_flatMap.mp h
    exact (g.closed n t m hm).2

/-- Every edge has its opposite. -/
def Symmetric (g : NetworkGraph) : Prop :=
  ∀ n t m, m ∈ g.neighbors n t → n ∈ g.neighbors m (getOppositeRelationshipType t)

/-- The edges of `g'` are those of `g`, seen from their other ends. -/
def Mirrors (g' g : NetworkGraph) : Prop :=
  ∀ n t m, m ∈ g'.neighbors n t ↔ n ∈ g.neighbors m (getOppositeRelationshipType t)

lemma Symmetric.mirrors (h : g.Symmetric) : g.Mirrors g := by
  refine fun n t m => ⟨h n t m, fun hm => ?_⟩
  simpa using h m _ n hm

/-- The graph whose edges are listed at their other ends: `n` has to `m` the opposite of the
relationship under which `m` lists `n`. -/
def reverse (g : NetworkGraph) : NetworkGraph where
  asNodes := g.asNodes
  neighbors n t := g.asNodes.filter fun m => n ∈ g.neighbors m (getOppositeRelationshipType t)
  edgeCount := g.edgeCount
  nodup := g.nodup
  closed n t m h := by
    obtain ⟨hm, hn⟩ := mem_filter.mp h
    exact ⟨(g.closed m _ n (of_decide_eq_true hn)).2, hm⟩

lemma reverse_mirrors (g : NetworkGraph) : g.reverse.Mirrors g := by
  intro n t m
  simp only [reverse, mem_filter, decide_eq_true_eq]
  exact ⟨fun h => h.2, fun h => ⟨(g.closed m _ n h).1, h⟩⟩

def SiblingFree (g : NetworkGraph) : Prop := ∀ n, g.neighbors n siblingOf = []

end NetworkGraph

end Astoria
