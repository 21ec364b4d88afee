import Astoria.BgpSim.GraphCopy

/-!
# Writing an AS graph to a file

`writeGraph` writes a graph in the Cyclops format.  An edge that is listed at both of its ends is
written once, from the end that comes first among the nodes; a set of texts of the form `a-b` with
`a ≤ b` holds the edges that have been written.

A relationship of two ASes is seen from either end (`NetworkGraph.Related`).  If every two ASes have
at most one relationship, the reader recovers from the file all relationships and with them the ASes
that have an edge.
-/

namespace Astoria

open List
open RelationshipType

/-! ### The writer -/

/-- The text that stands for an edge in the set of the edges written. -/
def makeEdge (as₁ as₂ : Asn) : List Char :=
  if as₁ < as₂ then Nat.toDigits 10 as₁ ++ '-' :: Nat.toDigits 10 as₂
  else Nat.toDigits 10 as₂ ++ '-' :: Nat.toDigits 10 as₁

def edgeLine (node neighbor : Asn) (relation : List Char) : List Char :=
  Nat.toDigits 10 node ++ '\t' :: (Nat.toDigits 10 neighbor ++ '\t' :: relation)

structure GraphWriter where
  outputtedEdges : List (List Char)
  lines : List (List Char)

/-- Write the line of an edge unless it has been written. -/
def writeEdge (node : Asn) (relation : List Char) (w : GraphWriter) (neighbor : Asn) :
    GraphWriter :=
  if makeEdge node neighbor ∈ w.outputtedEdges then w
  else ⟨makeEdge node neighbor :: w.outputtedEdges, w.lines ++ [edgeLine node neighbor relation]⟩

/-- Write the edges of a node: to its customers, to its peers and to its providers. -/
def writeNode (g : NetworkGraph) (w : GraphWriter) (node : Asn) : GraphWriter :=
  let w₁ := (g.getNeighborsByType node [providerTo]).foldl (writeEdge node "p2c".toList) w
  let w₂ := (g.getNeighborsByType node [peerOf]).foldl (writeEdge node "p2p".toList) w₁
  (g.getNeighborsByType node [customerOf]).foldl (writeEdge node "c2p".toList) w₂

/-- The lines of the file for a graph. -/
def writeGraph (g : NetworkGraph) : List (List Char) :=
  (g.asNodes.foldl (writeNode g) ⟨[], []⟩).lines

/-! ### The edges that are written -/

def relationText : RelationshipType → List Char
  | customerOf => "c2p".toList
  | peerOf => "p2p".toList
  | providerTo => "p2c".toList
  | siblingOf => []

/-- The edges of a node in the order in which the writer looks at them. -/
def offeredEdges (g : NetworkGraph) (node : Asn) : List (Asn × Asn × RelationshipType) :=
  [providerTo, peerOf, customerOf].flatMap fun t => (g.neighbors node t).map fun m => (node, m, t)

/-- Write the line of an edge unless it has been written. -/
def GraphWriter.offer (w : GraphWriter) (e : Asn × Asn × RelationshipType) : GraphWriter :=
  writeEdge e.1 (relationText e.2.2) w e.2.1

lemma getNeighborsByType_singleton (g : NetworkGraph) (n : Asn) (t : RelationshipType) :
    g.getNeighborsByType n [t] = g.neighbors n t := by
  rw [NetworkGraph.getNeighborsByType, if_neg (cons_ne_nil t [])]
  cases t <;> simp [relationshipTypes]

lemma writeNode_eq (g : NetworkGraph) (w : GraphWriter) (node : Asn) :
    writeNode g w node = (offeredEdges g node).foldl GraphWriter.offer w := by
  simp only [writeNode, offeredEdges, getNeighborsByType_singleton, flatMap_cons,
    flatMap_nil, append_nil, foldl_append, foldl_map]
  rfl

/-- What the writer leaves after the given edges: the lines of some of them, among which there is
one for the ends of every edge. -/
lemma exists_written (edges : List (Asn × Asn × RelationshipType)) (w : GraphWriter) :
    ∃ written : List (Asn × Asn × RelationshipType),
      (edges.foldl GraphWriter.offer w).lines =
        w.lines ++ written.map (fun e => edgeLine e.1 e.2.1 (relationText e.2.2)) ∧
      (∀ e ∈ written, e ∈ edges) ∧
      ∀ e ∈ edges, makeEdge e.1 e.2.1 ∈ w.outputtedEdges ∨
        ∃ e' ∈ written, makeEdge e'.1 e'.2.1 = makeEdge e.1 e.2.1 := by
  induction edges generalizing w with
  | nil => exact ⟨[], by simp, fun e he => he, fun e he => absurd he not_mem_nil⟩
  | cons e edges ih =>
    obtain ⟨written, hlines, hsub, hall⟩ := ih (w.offer e)
    rw [foldl_cons]
    by_cases hold : makeEdge e.1 e.2.1 ∈ w.outputtedEdges
    · have hw : w.offer e = w := by rw [GraphWriter.offer, writeEdge, if_pos hold]
      rw [hw] at hlines hall ⊢
      refine ⟨written, hlines, fun e' he' => mem_cons_of_mem e (hsub e' he'), fun e' he' => ?_⟩
      rcases mem_cons.mp he' with rfl | he'
      · exact .inl hold
      · exact hall e' he'
    · have hw : w.offer e = ⟨makeEdge e.1 e.2.1 :: w.outputtedEdges,
          w.lines ++ [edgeLine e.1 e.2.1 (relationText e.2.2)]⟩ := by
        rw [GraphWriter.offer, writeEdge, if_neg hold]
      rw [hw] at hlines hall ⊢
      refine ⟨e :: written, ?_, ?_, fun e' he' => ?_⟩
      · rw [hlines, map_cons, append_assoc, singleton_append]
      · intro e' he'
        rcases mem_cons.mp he' with rfl | he'
        · exact mem_cons_self
        · exact mem_cons_of_mem e (hsub e' he')
      · rcases mem_cons.mp he' with rfl | he'
        · exact .inr ⟨e', mem_cons_self, rfl⟩
        · rcases hall e' he' with hmem | ⟨e'', he'', hkey⟩
          · rcases mem_cons.mp hmem with hkey | hmem
            · exact .inr ⟨e, mem_cons_self, hkey.symm⟩
            · exact .inl hmem
          · exact .inr ⟨e'', mem_cons_of_mem e he'', hkey⟩

lemma toDigits_injective {n m : ℕ} (h : Nat.toDigits 10 n = Nat.toDigits 10 m) : n = m := by
  rw [← digitsValue_toDigits n, h, digitsValue_toDigits]

/-- Two numbers joined by a dash are recovered from the text. -/
lemma dashed_injective {a b c d : ℕ}
    (h : Nat.toDigits 10 a ++ '-' :: Nat.toDigits 10 b =
      Nat.toDigits 10 c ++ '-' :: Nat.toDigits 10 d) :
    a = c ∧ b = d := by
  have htake : ∀ (n : ℕ) (rest : List Char),
      (Nat.toDigits 10 n ++ '-' :: rest).takeWhile Char.isDigit = Nat.toDigits 10 n := by
    intro n rest
    rw [takeWhile_append_of_pos fun c hc => isDigit_of_mem_toDigits hc]
    simp
  have hfirst : a = c := by
    apply toDigits_injective
    rw [← htake a, h, htake]
  subst hfirst
  refine ⟨rfl, ?_⟩
  apply toDigits_injective
  simpa using append_cancel_left h

/-- An edge is known by its text up to its direction. -/
lemma makeEdge_eq {a b c d : Asn} (h : makeEdge a b = makeEdge c d) :
    (a = c ∧ b = d) ∨ (a = d ∧ b = c) := by
  unfold makeEdge at h
  split_ifs at h
  · exact .inl (dashed_injective h)
  · exact .inr (dashed_injective h)
  · obtain ⟨hb, ha⟩ := dashed_injective h
    exact .inr ⟨ha, hb⟩
  · obtain ⟨hb, ha⟩ := dashed_injective h
    exact .inl ⟨ha, hb⟩

/-! ### Reading the file -/

lemma cyclopsEdge_edgeLine {v₁ v₂ : Asn} {t : RelationshipType} (h₁ : v₁ ≤ numASNs)
    (h₂ : v₂ ≤ numASNs) (ht : t ≠ siblingOf) :
    cyclopsEdge (edgeLine v₁ v₂ (relationText t)) = some (v₁, v₂, t) := by
  have hrange : ∀ v ≤ numASNs, tryParseUInt32 (Nat.toDigits 10 v) = some v := by
    intro v hv
    apply tryParseUInt32_toDigits
    unfold numASNs at hv
    omega
  have htab : ∀ v : ℕ, '\t' ∉ Nat.toDigits 10 v := fun v hmem =>
    absurd (isDigit_of_mem_toDigits hmem) (by decide)
  have hsplit : (edgeLine v₁ v₂ (relationText t)).splitOn '\t' =
      [Nat.toDigits 10 v₁, Nat.toDigits 10 v₂, relationText t] := by
    rw [edgeLine, splitOn_append_cons_self_of_not_mem (htab v₁),
      splitOn_append_cons_self_of_not_mem (htab v₂), splitOn_eq_singleton]
    cases t <;> decide
  have hcomment : (Nat.toDigits 10 v₁).head? ≠ some '#' := fun hhead =>
    absurd (isDigit_of_mem_toDigits (mem_of_head? hhead)) (by decide)
  have hrel : cyclopsRelationship (relationText t) = some t := by
    cases t
    · decide
    · decide
    · decide
    · exact absurd rfl ht
  unfold cyclopsEdge
  rw [hsplit]
  dsimp only
  rw [if_neg hcomment, hrange v₁ h₁, hrange v₂ h₂, hrel]
  dsimp only
  rw [if_neg (not_or.mpr ⟨not_lt.mpr h₁, not_lt.mpr h₂⟩)]

/-- The reader adds every edge in both directions. -/
lemma foldl_processCyclopsLine_edgeLine {edges : List (Asn × Asn × RelationshipType)}
    (h : ∀ e ∈ edges, e.1 ≤ numASNs ∧ e.2.1 ≤ numASNs ∧ e.2.2 ≠ siblingOf) (g : NetworkGraph) :
    (edges.map fun e => edgeLine e.1 e.2.1 (relationText e.2.2)).foldl processCyclopsLine g =
      g.addAll (edges.flatMap fun e => [e, (e.2.1, e.1, getOppositeRelationshipType e.2.2)]) := by
  induction edges generalizing g with
  | nil => rfl
  | cons e edges ih =>
    obtain ⟨h₁, h₂, ht⟩ := h e mem_cons_self
    rw [map_cons, foldl_cons, processCyclopsLine, cyclopsEdge_edgeLine h₁ h₂ ht]
    exact ih (fun e' he' => h e' (mem_cons_of_mem e he')) _

namespace NetworkGraph

variable {g : NetworkGraph} {n m : Asn} {t u : RelationshipType}

/-- The relationship that `n` has to `m`, listed at one of the two ends. -/
def Related (g : NetworkGraph) (n : Asn) (t : RelationshipType) (m : Asn) : Prop :=
  m ∈ g.neighbors n t ∨ n ∈ g.neighbors m (getOppositeRelationshipType t)

lemma Related.symm (h : g.Related n t m) : g.Related m (getOppositeRelationshipType t) n := by
  rcases h with h | h
  · exact .inr (by rwa [getOppositeRelationshipType_involutive])
  · exact .inl h

/-- Every two ASes have at most one relationship. -/
def OneRelationship (g : NetworkGraph) : Prop :=
  ∀ n m t u, g.Related n t m → g.Related n u m → t = u

lemma mem_offeredEdges (hsib : g.SiblingFree) :
    (n, m, t) ∈ g.asNodes.flatMap (offeredEdges g) ↔ m ∈ g.neighbors n t := by
  simp only [mem_flatMap, offeredEdges, List.mem_map]
  constructor
  · rintro ⟨node, -, u, -, k, hk, he⟩
    simp only [Prod.mk.injEq] at he
    obtain ⟨rfl, rfl, rfl⟩ := he
    exact hk
  · intro hm
    refine ⟨n, (g.closed n t m hm).1, t, ?_, m, hm, rfl⟩
    cases t
    · simp
    · simp
    · simp
    · rw [hsib n] at hm
      cases hm

/-- The edges that are written: all are edges of the graph, and every relationship is written from
one of its ends. -/
lemma exists_writeGraph_eq (hsib : g.SiblingFree) (hone : g.OneRelationship) :
    ∃ written : List (Asn × Asn × RelationshipType),
      writeGraph g = written.map (fun e => edgeLine e.1 e.2.1 (relationText e.2.2)) ∧
      (∀ e ∈ written, e.2.1 ∈ g.neighbors e.1 e.2.2) ∧
      ∀ n t m, g.Related n t m →
        (n, m, t) ∈ written ∨ (m, n, getOppositeRelationshipType t) ∈ written := by
  obtain ⟨written, hlines, hsub, hall⟩ :=
    exists_written (g.asNodes.flatMap (offeredEdges g)) ⟨[], []⟩
  have hedge : ∀ e ∈ written, e.2.1 ∈ g.neighbors e.1 e.2.2 := fun e he =>
    (mem_offeredEdges hsib).mp (hsub e he)
  have hlisted : ∀ n t m, m ∈ g.neighbors n t →
      (n, m, t) ∈ written ∨ (m, n, getOppositeRelationshipType t) ∈ written := by
    intro n t m hm
    rcases hall (n, m, t) ((mem_offeredEdges hsib).mpr hm) with h | ⟨⟨a, b, u⟩, he, hkey⟩
    · cases h
    · have hab := hedge _ he
      rcases makeEdge_eq hkey with ⟨rfl, rfl⟩ | ⟨rfl, rfl⟩
      · have htu := hone _ _ _ _ (.inl hm) (.inl hab)
        exact .inl (htu ▸ he)
      · have htu : t = getOppositeRelationshipType u :=
          hone _ _ _ _ (.inl hm) (Related.symm (.inl hab))
        rw [htu, getOppositeRelationshipType_involutive]
        exact .inr he
  refine ⟨written, ?_, hedge, fun n t m hrel => ?_⟩
  · have hfold : g.asNodes.foldl (writeNode g) ⟨[], []⟩ =
        (g.asNodes.flatMap (offeredEdges g)).foldl GraphWriter.offer ⟨[], []⟩ := by
      rw [foldl_flatMap]
      congr 1
      funext w node
      exact writeNode_eq g w node
    rw [writeGraph, hfold, hlines, nil_append]
  · rcases hrel with hm | hn
    · exact hlisted n t m hm
    · have hboth := hlisted m _ n hn
      rw [getOppositeRelationshipType_involutive] at hboth
      exact hboth.symm

/-- **The file of a graph.**  For a graph of customer, provider and peer edges, with at most one
relationship for every two ASes and no too high AS numbers, the graph that is read back has as nodes
the ASes with an edge and as edges all relationships, each at both ends.  In a symmetric graph these
are the edges themselves. -/
theorem processCyclopsFile_writeGraph (hsib : g.SiblingFree) (hone : g.OneRelationship)
    (hnum : ∀ n ∈ g.asNodes, n ≤ numASNs) :
    (∀ n, n ∈ (processCyclopsFile (writeGraph g)).asNodes ↔ ∃ t m, g.Related n t m) ∧
    (∀ n t m, m ∈ (processCyclopsFile (writeGraph g)).neighbors n t ↔ g.Related n t m) ∧
    (g.Symmetric → ∀ n m, (processCyclopsFile (writeGraph g)).getRelationshipTypeOfNeighbor n m =
      g.getRelationshipTypeOfNeighbor n m) := by
  obtain ⟨written, hwrite, hedge, hall⟩ := exists_writeGraph_eq hsib hone
  have hfields : ∀ e ∈ written, e.1 ≤ numASNs ∧ e.2.1 ≤ numASNs ∧ e.2.2 ≠ siblingOf := by
    intro e he
    have hmem := hedge e he
    obtain ⟨h₁, h₂⟩ := g.closed _ _ _ hmem
    refine ⟨hnum _ h₁, hnum _ h₂, fun hsibling => ?_⟩
    rw [hsibling, hsib e.1] at hmem
    cases hmem
  have hread : processCyclopsFile (writeGraph g) = empty.addAll
      (written.flatMap fun e => [e, (e.2.1, e.1, getOppositeRelationshipType e.2.2)]) := by
    rw [processCyclopsFile, hwrite, foldl_processCyclopsLine_edgeLine hfields]
  have hadded : ∀ n m t,
      (n, m, t) ∈ written.flatMap (fun e => [e, (e.2.1, e.1, getOppositeRelationshipType e.2.2)]) ↔
        g.Related n t m := by
    intro n m t
    simp only [mem_flatMap, mem_cons, not_mem_nil, or_false]
    constructor
    · rintro ⟨⟨a, b, u⟩, he, hnm | hnm⟩
      · simp only [Prod.mk.injEq] at hnm
        obtain ⟨rfl, rfl, rfl⟩ := hnm
        exact Or.inl (hedge _ he)
      · simp only [Prod.mk.injEq] at hnm
        obtain ⟨rfl, rfl, rfl⟩ := hnm
        exact Related.symm (Or.inl (hedge _ he))
    · intro hrel
      rcases hall n t m hrel with he | he
      · exact ⟨_, he, Or.inl rfl⟩
      · exact ⟨_, he, Or.inr (by simp)⟩
  have hneighbors : ∀ n t m, m ∈ (processCyclopsFile (writeGraph g)).neighbors n t ↔
      g.Related n t m := by
    intro n t m
    rw [hread, neighbors_addAll, ← hadded]
    simp [empty]
  refine ⟨fun n => ?_, hneighbors, fun hsym n m => ?_⟩
  · rw [hread, mem_asNodes_addAll]
    constructor
    · rintro (hn | ⟨⟨a, b, u⟩, he, rfl | rfl⟩)
      · cases hn
      · exact ⟨u, b, (hadded _ _ _).mp he⟩
      · exact ⟨_, a, ((hadded _ _ _).mp he).symm⟩
    · rintro ⟨t, m, hrel⟩
      exact Or.inr ⟨(n, m, t), (hadded n m t).mpr hrel, Or.inl rfl⟩
  · have hsame : ∀ t, m ∈ (processCyclopsFile (writeGraph g)).neighbors n t ↔
        m ∈ g.neighbors n t := by
      intro t
      rw [hneighbors]
      refine ⟨fun hrel => hrel.elim id fun hn => ?_, Or.inl⟩
      have hm := hsym _ _ _ hn
      rwa [getOppositeRelationshipType_involutive] at hm
    simp only [getRelationshipTypeOfNeighbor, hsame]

/-- Only the edges that are offered need to be compared. -/
lemma oneRelationship_of_offered (h : g.Cyclops)
    (hall : ∀ e ∈ g.asNodes.flatMap (offeredEdges g), ∀ e' ∈ g.asNodes.flatMap (offeredEdges g),
      e.1 = e'.1 → e.2.1 = e'.2.1 → e.2.2 = e'.2.2) : g.OneRelationship := by
  have hmem : ∀ n t m, g.Related n t m → (n, m, t) ∈ g.asNodes.flatMap (offeredEdges g) := by
    intro n t m hrel
    rw [mem_offeredEdges h.siblingFree]
    refine hrel.elim id fun hn => ?_
    rw [← getOppositeRelationshipType_involutive t]
    exact h.symmetric _ _ _ hn
  exact fun n m t u ht hu => hall _ (hmem n t m ht) _ (hmem n u m hu) rfl rfl

/-- A customer and its provider, written and read back. -/
theorem processCyclopsFile_writeGraph_two_nodes :
    (processCyclopsFile ["1\t2\tc2p".toList]).OneRelationship ∧
    (processCyclopsFile (writeGraph
      (processCyclopsFile ["1\t2\tc2p".toList]))).getRelationshipTypeOfNeighbor 1 2 =
        some customerOf := by
  have hcyclops := cyclops_processCyclopsFile ["1\t2\tc2p".toList]
  have hone := oneRelationship_of_offered hcyclops (by decide +kernel)
  refine ⟨hone, ?_⟩
  rw [(processCyclopsFile_writeGraph hcyclops.siblingFree hone hcyclops.le_numASNs).2.2
    hcyclops.symmetric 1 2]
  decide +kernel

end NetworkGraph

end Astoria
