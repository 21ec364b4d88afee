import Astoria.BgpSim.MiniDestination

/-!
# The copy constructor of the graph

The copy is built edge by edge, in the order of the nodes and of their neighbours, and every edge
enters under the first relationship that its ends are listed with.  So the copy of a graph without
duplicate edges has the same neighbour lists in the same order (`neighbors_copy`), but its nodes are
in another order, and nodes without edges are missing (`mem_asNodes_copy`).
-/

namespace Astoria

open List Option

namespace NetworkGraph

open RelationshipType

variable {g : NetworkGraph} {n m : Asn} {t : RelationshipType}

/-- No node is listed twice at a node (`HasDuplicateEdges` returns false). -/
def DuplicateFree (g : NetworkGraph) : Prop := ∀ n, (g.getAllNeighbors n).Nodup

lemma mem_getAllNeighbors : m ∈ g.getAllNeighbors n ↔ ∃ t, m ∈ g.neighbors n t := by
  rw [getAllNeighbors, mem_flatMap]
  constructor
  · rintro ⟨t, -, h⟩
    exact ⟨t, h⟩
  · rintro ⟨t, h⟩
    exact ⟨t, by cases t <;> simp [relationshipTypes], h⟩

lemma mem_of_getRelationshipTypeOfNeighbor (h : g.getRelationshipTypeOfNeighbor n m = some t) :
    m ∈ g.neighbors n t :=
  of_decide_eq_true (find?_some (p := fun t => decide (m ∈ g.neighbors n t)) h)

lemma exists_getRelationshipTypeOfNeighbor (h : m ∈ g.getAllNeighbors n) :
    ∃ t, g.getRelationshipTypeOfNeighbor n m = some t := by
  refine ne_none_iff_exists'.mp fun hnone => ?_
  obtain ⟨t, ht⟩ := mem_getAllNeighbors.mp h
  rw [getRelationshipTypeOfNeighbor, find?_eq_none] at hnone
  exact hnone t (by cases t <;> simp [relationshipTypes]) (by simpa using ht)

/-- Without duplicate edges, a neighbour is listed under one relationship only. -/
lemma DuplicateFree.relationship_unique (h : g.DuplicateFree) {u : RelationshipType}
    (ht : m ∈ g.neighbors n t) (hu : m ∈ g.neighbors n u) : t = u := by
  have hnd := (nodup_flatMap.mp (h n)).2
  by_contra hne
  have hdisj : (relationshipTypes).Pairwise fun a b => ∀ x ∈ g.neighbors n a, x ∉ g.neighbors n b :=
    hnd.imp fun hab x hx hx' => hab hx hx'
  simp only [relationshipTypes, pairwise_cons, mem_cons, not_mem_nil, or_false,
    forall_eq_or_imp, forall_eq, List.Pairwise.nil, and_true, IsEmpty.forall_iff, implies_true]
    at hdisj
  obtain ⟨⟨h₁, h₂, h₃⟩, ⟨h₄, h₅⟩, h₆⟩ := hdisj
  cases t <;> cases u <;> simp_all

lemma DuplicateFree.getRelationshipTypeOfNeighbor_eq (h : g.DuplicateFree) :
    g.getRelationshipTypeOfNeighbor n m = some t ↔ m ∈ g.neighbors n t := by
  refine ⟨mem_of_getRelationshipTypeOfNeighbor, fun hm => ?_⟩
  obtain ⟨u, hu⟩ := exists_getRelationshipTypeOfNeighbor (mem_getAllNeighbors.mpr ⟨t, hm⟩)
  rw [hu, h.relationship_unique (mem_of_getRelationshipTypeOfNeighbor hu) hm]

/-! ### The copied edges -/

/-- The edges that enter the copy for one node. -/
def nodeEdges (g : NetworkGraph) (node : Asn) : List (Asn × Asn × RelationshipType) :=
  (g.getAllNeighbors node).filterMap fun neighbor =>
    (g.getRelationshipTypeOfNeighbor node neighbor).map fun t => (node, neighbor, t)

/-- The copy is built from the edges of all nodes. -/
lemma copy_eq_addAll (g : NetworkGraph) :
    g.copy = NetworkGraph.empty.addAll (g.asNodes.flatMap g.nodeEdges) := by
  have houter : ∀ (l : List Asn) (copy : NetworkGraph),
      l.foldl (fun copy node => copy.addAll (g.nodeEdges node)) copy =
        copy.addAll (l.flatMap g.nodeEdges) := by
    intro l
    induction l with
    | nil => exact fun _ => rfl
    | cons x l ih =>
      intro copy
      rw [foldl_cons, ih]
      simp [addAll, flatMap_cons, foldl_append]
  rw [← houter, copy]
  congr 1
  funext copy node
  unfold nodeEdges
  induction g.getAllNeighbors node generalizing copy with
  | nil => rfl
  | cons x l ih =>
    rw [foldl_cons, ih]
    cases hrel : g.getRelationshipTypeOfNeighbor node x with
    | none => simp [hrel]
    | some t => simp [hrel, addAll]

lemma mem_copiedEdges {e : Asn × Asn × RelationshipType} :
    e ∈ g.asNodes.flatMap g.nodeEdges ↔
      g.getRelationshipTypeOfNeighbor e.1 e.2.1 = some e.2.2 := by
  obtain ⟨src, dest, t⟩ := e
  simp only [nodeEdges, mem_flatMap, mem_filterMap, map_eq_some_iff,
    Prod.mk.injEq]
  constructor
  · rintro ⟨node, -, neighbor, -, u, hu, rfl, rfl, rfl⟩
    exact hu
  · intro h
    have hm := mem_of_getRelationshipTypeOfNeighbor h
    exact ⟨src, (g.closed src t dest hm).1, dest, mem_getAllNeighbors.mpr ⟨t, hm⟩, t, h, rfl,
      rfl, rfl⟩

lemma mem_asNodes_copy : n ∈ g.copy.asNodes ↔
    ∃ t m, m ∈ g.neighbors n t ∨ n ∈ g.neighbors m t := by
  rw [copy_eq_addAll, mem_asNodes_addAll]
  simp only [mem_copiedEdges, empty, not_mem_nil, false_or]
  constructor
  · rintro ⟨⟨src, dest, t⟩, he, rfl | rfl⟩
    · exact ⟨t, dest, .inl (mem_of_getRelationshipTypeOfNeighbor he)⟩
    · exact ⟨t, src, .inr (mem_of_getRelationshipTypeOfNeighbor he)⟩
  · rintro ⟨t, m, h | h⟩
    · obtain ⟨u, hu⟩ := exists_getRelationshipTypeOfNeighbor (mem_getAllNeighbors.mpr ⟨t, h⟩)
      exact ⟨(n, m, u), hu, .inl rfl⟩
    · obtain ⟨u, hu⟩ := exists_getRelationshipTypeOfNeighbor (mem_getAllNeighbors.mpr ⟨t, h⟩)
      exact ⟨(m, n, u), hu, .inr rfl⟩

/-- The edges of the copy are those of the graph, each under the relationship that is found. -/
lemma mem_neighbors_copy :
    m ∈ g.copy.neighbors n t ↔ g.getRelationshipTypeOfNeighbor n m = some t := by
  rw [copy_eq_addAll, neighbors_addAll]
  simp only [empty, nil_append, List.mem_map, mem_filter, mem_copiedEdges,
    decide_eq_true_eq]
  constructor
  · rintro ⟨⟨src, dest, u⟩, ⟨he, rfl, rfl⟩, rfl⟩
    exact he
  · intro h
    exact ⟨(n, m, t), ⟨h, rfl, rfl⟩, rfl⟩

/-- Only one member of a list without repetitions contributes. -/
lemma flatMap_ite_eq {α β : Type} [DecidableEq α] {l : List α} (hnd : l.Nodup) (a : α)
    (x : List β) : (l.flatMap fun b => if b = a then x else []) = if a ∈ l then x else [] := by
  induction l with
  | nil => rfl
  | cons b l ih =>
    rw [nodup_cons] at hnd
    rw [flatMap_cons, ih hnd.2]
    by_cases hb : b = a
    · subst hb
      simp [hnd.1]
    · simp [hb, Ne.symm hb]

lemma DuplicateFree.nodeEdges_filter (h : g.DuplicateFree) (node n : Asn) (t : RelationshipType) :
    (((g.nodeEdges node).filter fun e => e.1 = n ∧ e.2.2 = t).map fun e => e.2.1) =
      if node = n then g.neighbors n t else [] := by
  have hlist : ∀ l : List Asn, (((l.filterMap fun neighbor =>
      (g.getRelationshipTypeOfNeighbor node neighbor).map fun t => (node, neighbor, t)).filter
        fun e => e.1 = n ∧ e.2.2 = t).map fun e => e.2.1) =
      if node = n then l.filter fun m => m ∈ g.neighbors n t else [] := by
    intro l
    induction l with
    | nil => simp
    | cons x l ih =>
      by_cases hn : node = n
      · subst hn
        rw [if_pos rfl] at ih ⊢
        cases hrel : g.getRelationshipTypeOfNeighbor node x with
        | none =>
          have hx : x ∉ g.neighbors node t := fun hx => by
            simp [h.getRelationshipTypeOfNeighbor_eq.mpr hx] at hrel
          rw [filterMap_cons_none (by simp [hrel]), ih, filter_cons_of_neg (by simpa using hx)]
        | some u =>
          rw [filterMap_cons_some (b := (node, x, u)) (by simp [hrel])]
          have hu := h.getRelationshipTypeOfNeighbor_eq.mp hrel
          by_cases hut : u = t
          · subst hut
            rw [filter_cons_of_pos (by simp), map_cons, ih,
              filter_cons_of_pos (by simpa using hu)]
          · have hx : x ∉ g.neighbors node t := fun hx => hut (h.relationship_unique hu hx)
            rw [filter_cons_of_neg (by simp [hut]), ih,
              filter_cons_of_neg (by simpa using hx)]
      · rw [if_neg hn, map_eq_nil_iff, filter_eq_nil_iff]
        rintro e he hc
        obtain ⟨y, -, hy⟩ := mem_filterMap.mp he
        obtain ⟨u, -, rfl⟩ := map_eq_some_iff.mp hy
        exact hn (of_decide_eq_true hc).1
  rw [nodeEdges, hlist]
  split_ifs with hn
  · subst hn
    -- the neighbours of one relationship make up one part of all neighbours
    rw [getAllNeighbors, filter_flatMap]
    have hpart : ∀ u, (g.neighbors node u).filter (fun m => m ∈ g.neighbors node t) =
        if u = t then g.neighbors node t else [] := by
      intro u
      split_ifs with hu
      · subst hu
        simp
      · rw [filter_eq_nil_iff]
        intro m hm hm'
        exact hu (h.relationship_unique hm (by simpa using hm'))
    simp only [hpart]
    rw [flatMap_ite_eq (by decide)]
    exact if_pos (by cases t <;> simp [relationshipTypes])
  · rfl

/-- **Copies without duplicate edges.**  The neighbour lists of the copy are those of the graph, in
the same order. -/
theorem DuplicateFree.neighbors_copy (h : g.DuplicateFree) : g.copy.neighbors = g.neighbors := by
  funext n t
  rw [copy_eq_addAll, neighbors_addAll, filter_flatMap, map_flatMap]
  simp only [h.nodeEdges_filter]
  rw [flatMap_ite_eq g.nodup]
  split_ifs with hn
  · rfl
  · symm
    refine eq_nil_iff_forall_not_mem.mpr fun m hm => hn (g.closed n t m hm).1

end NetworkGraph

lemma mem_searchedGraph_processCyclopsFile {lines : List (List Char)} {n : Asn}
    (h : n ∈ (processCyclopsFile lines).asNodes) (readOnly : Bool) :
    n ∈ (searchedGraph (processCyclopsFile lines) readOnly).asNodes := by
  unfold searchedGraph
  split_ifs
  · obtain ⟨t, m, hm⟩ := exists_neighbor_of_mem_processCyclopsFile h
    exact NetworkGraph.mem_asNodes_copy.mpr ⟨t, m, .inl hm⟩
  · exact h

end Astoria
