import Astoria.BgpSim.SecurePaths

/-!
# Recomputation without security

The routing algorithm breaks ties while it searches: a node that has been found may be moved to a
better parent later, and its path is rewritten.  `updatePaths` breaks the ties afterwards, row by
row and on the sorted best sets.  Without siblings and as long as nobody takes part in security,
both choose the same parents and the same paths (`sameRoutes_iff`), unless the tie-break of the
recomputation finds nobody.

The conditions are stated on the graph.  A node learns a route from the neighbour that announces it,
so that the routes are those of the reversed graph; for a symmetric graph this makes no difference.
-/

namespace Astoria

open List Option

/-- With hashing, no two next hops of shortest routes of one node have the same hash. -/
def HashesDiffer (P : Params) (g : NetworkGraph) (d : Asn) : Prop :=
  P.hash = true → ∀ n, n ≠ d → Routed g d n → ∀ p q, BestHop g d n p → BestHop g d n q →
    hash6432shift n p = hash6432shift n q → p = q

section SameChoice

variable {P : Params} {g : NetworkGraph} {d : Asn} {readOnly : Bool} {m : MiniDestination}
  {s : BfsState} {D : Destination}

/-- The choices without security are those of the routing algorithm. -/
lemma Chosen.eq_routingTree (hc : Chosen P (fun _ => false) D)
    (hframe : SameFrame (Destination.ofMiniDestination m) D)
    (hm : initMiniDestination P g d readOnly = some m)
    (hs : routingTreeAlg P (searchedGraph g readOnly) d = some s)
    (hsib : (searchedGraph g readOnly).SiblingFree) {n : Asn} (hn : s.best n ≠ none) (hne : n ≠ d) :
    D.chosenParent n = s.chosenParent n ∧ D.chosenPath n = s.chosenPath n := by
  have hv := validTables_initMiniDestination hm
  obtain ⟨s', hs', rfl, -, -, hrel, hbest⟩ := exists_routingTree hm
  obtain rfl : s' = s := Option.some.inj (hs'.symm.trans hs)
  obtain ⟨-, ht, -⟩ := routingTreeAlg_spec hs
  have htab : D.toRouteTables = m.toRouteTables := hframe.tables
  have hroot : D.chosenPath m.destination = some [m.destination] := by
    refine hframe.root.2.trans ?_
    simp [Destination.ofMiniDestination]
  -- by induction on the length: a parent has the same path in both
  induction hk : m.L n using Nat.strongRecOn generalizing n with
  | ind k ih =>
    have hmn : m.best n ≠ none := mt (hbest.none_iff n).1 hn
    have hstep := hc.step n (by rw [htab]; exact hmn) (by rw [htab]; exact hne)
    rw [htab, hv.updateRoute_eq_some hmn] at hstep
    obtain ⟨p, rest, hset, hp, -, -, hroute⟩ := hstep
    simp only [tieBreakSet, Bool.false_eq_true, if_false] at hset
    have hparent : D.chosenParent n = p := congrArg NodeRoute.parent hroute
    have hpath : D.chosenPath n = some (updatePath n (D.chosenPath p) (m.bestRelation n)) :=
      congrArg NodeRoute.path hroute
    obtain ⟨hinj, hhead⟩ := bestSet_head_le hm hs n
    obtain ⟨hps, hle⟩ := hhead p rest hset
    obtain ⟨p', hp'⟩ := ne_none_iff_exists'.mp ((ht.tables.best_iff n hne).1 hn)
    obtain rfl : p' = p := by
      have hmem := ht.parent_mem n p' hp'
      refine hinj p' hmem p hps (le_antisymm ?_ (hle p' hmem))
      exact tieBreakKey_parent_le hs hsib hp' hps
    obtain ⟨hpn, rest', hrest, hspath⟩ := ht.tables.path n p' hp'
    refine ⟨hparent.trans (ht.tables.chosenParent n p' hp').symm, ?_⟩
    have hsame : D.chosenPath p' = s'.chosenPath p' := by
      by_cases hr : p' = m.destination
      · rw [hr, hroot, ht.tables.path_root]
      · obtain ⟨hpb, hlen⟩ := hv.parent n hne p' hp
        exact (ih (m.L p') (by omega) hr (mt (hbest.none_iff p').2 hpb) rfl).2
    rw [hpath, hspath, hsame, hrest, hrel, updatePath, if_pos hpn]

/-- Without security, a node can choose exactly when the routing algorithm has found a parent for it
whose key is not the largest number. -/
lemma canChoose_insecure_iff (hm : initMiniDestination P g d readOnly = some m)
    (hs : routingTreeAlg P (searchedGraph g readOnly) d = some s) {n : Asn} (hn : s.best n ≠ none)
    (hne : n ≠ d) : CanChoose P m.toRouteTables (fun _ => false) n ↔
      ∃ p ∈ s.bestSet n, tieBreakKey P n p ≠ uint32Max := by
  have hv := validTables_initMiniDestination hm
  obtain ⟨s', hs', rfl, -, -, -, hbest⟩ := exists_routingTree hm
  obtain rfl : s' = s := Option.some.inj (hs'.symm.trans hs)
  obtain ⟨-, ht, -⟩ := routingTreeAlg_spec hs
  have hmn : m.best n ≠ none := mt (hbest.none_iff n).1 hn
  obtain ⟨-, hhead⟩ := bestSet_head_le hm hs n
  constructor
  · rintro ⟨p, hp, hkey, -⟩
    obtain ⟨qs, hqs⟩ := ne_none_iff_exists'.mp hmn
    obtain ⟨ps, hps, hsub, -⟩ := hbest.of_some n qs hqs
    rw [RouteTables.bestSet, hqs, getD_some] at hp
    refine ⟨p, ?_, hkey⟩
    rw [BfsState.bestSet, hps]
    exact hsub hp
  · rintro ⟨p, hp, hkey⟩
    obtain ⟨q, rest, hq⟩ := exists_cons_of_ne_nil (hv.graded.parents_ne_nil n hmn hne)
    have hle := (hhead q rest hq).2 p hp
    have hmax : tieBreakKey P n p ≤ uint32Max := by
      apply tieBreakKey_le_of_lt
      exact (ht.fits p (ht.graded.parent n hn hne p hp).1).1
    exact ⟨q, by simp [hq], by omega, by simp⟩

/-- The hashes differ exactly when the best sets can be sorted. -/
lemma hashesDiffer_iff (hs : routingTreeAlg P (searchedGraph g readOnly) d = some s)
    (hsib : (searchedGraph g readOnly).SiblingFree) :
    HashesDiffer P (searchedGraph g readOnly).reverse d ↔
      ∃ m, initMiniDestination P g d readOnly = some m := by
  have hopp := (searchedGraph g readOnly).reverse_mirrors
  obtain ⟨-, ht, -⟩ := routingTreeAlg_spec hs
  rw [initMiniDestination_isSome_iff]
  constructor
  · intro h
    refine ⟨s, hs, fun hP n => ?_⟩
    by_cases hn : s.best n = none
    · simp [BfsState.bestSet, hn]
    · by_cases hne : n = d
      · rw [hne, BfsState.bestSet, ht.tables.best_root]
        simp
      · have hr := (ht.forest.routed_iff hopp hsib).1 (BfsState.rank_ne_none.2 hn)
        refine Nodup.map_on (fun p hp q hq hpq => ?_)
          (ht.forest.preds_nodup n (BfsState.rank_ne_none.2 hn))
        rw [ht.mem_bestSet_iff_bestHop hopp hsib hne hr] at hp hq
        exact h hP n hne hr p q hp hq hpq
  · rintro ⟨s', hs', h⟩ hP n hne hr p q hp hq hpq
    obtain rfl : s' = s := Option.some.inj (hs'.symm.trans hs)
    rw [← ht.mem_bestSet_iff_bestHop hopp hsib hne hr] at hp hq
    exact inj_on_of_nodup_map (h hP n) hp hq hpq

end SameChoice

/-- The destination `d` is initialised, and the recomputation without security returns and leaves,
for every node with a route except for `d`, the parent and the path that the routing algorithm had
chosen. -/
def SameRoutes (P : Params) (g : NetworkGraph) (d : Asn) (readOnly : Bool) : Prop :=
  ∃ m s D, initMiniDestination P g d readOnly = some m ∧
    routingTreeAlg P (searchedGraph g readOnly) d = some s ∧
    updatePaths P (fun _ => false) (Destination.ofMiniDestination m) = some D ∧
    ∀ n, s.best n ≠ none → n ≠ d →
      D.chosenParent n = s.chosenParent n ∧ D.chosenPath n = s.chosenPath n

/-- **Recomputation without security.**  Let the graph have no siblings, let all routes to `d` be
shorter than the bucket table is high, and let no hashes collide.  Then the recomputation without
security restores the parents and the paths of the routing algorithm exactly when every node with a
route has an entry in the tables and, unless it is `d`, a next hop of a shortest route whose key is
not the largest number. -/
theorem sameRoutes_iff (P : Params) (g : NetworkGraph) (d : Asn) (readOnly : Bool)
    (hsib : g.SiblingFree) (hd : d ∈ (searchedGraph g readOnly).asNodes)
    (hdepth : ∀ n, Routed (searchedGraph g readOnly).reverse d n →
      ∃ k < maxPathLen, Route (searchedGraph g readOnly).reverse d n k)
    (hhash : HashesDiffer P (searchedGraph g readOnly).reverse d) :
    SameRoutes P g d readOnly ↔ ∀ n, Routed (searchedGraph g readOnly).reverse d n → n < numASNs ∧
      (n ≠ d → ∃ p, BestHop (searchedGraph g readOnly).reverse d n p ∧
        tieBreakKey P n p ≠ uint32Max) := by
  have hopp := (searchedGraph g readOnly).reverse_mirrors
  have hsib' := siblingFree_searchedGraph hsib readOnly
  have hreturns := routingTreeAlg_isSome_iff (P := P) hopp hsib' hd
  -- the best sets in terms of the graph
  have htree : ∀ s, routingTreeAlg P (searchedGraph g readOnly) d = some s →
      (∀ n, s.best n ≠ none ↔ Routed (searchedGraph g readOnly).reverse d n) ∧
      ∀ n, n ≠ d → Routed (searchedGraph g readOnly).reverse d n → ∀ p, p ∈ s.bestSet n ↔
        BestHop (searchedGraph g readOnly).reverse d n p := by
    intro s hs
    obtain ⟨-, ht, -⟩ := routingTreeAlg_spec hs
    refine ⟨fun n => ?_, fun n hne hn p => ht.mem_bestSet_iff_bestHop hopp hsib' hne hn⟩
    rw [← BfsState.rank_ne_none]
    exact ht.forest.routed_iff hopp hsib'
  constructor
  · rintro ⟨m, s, D, hm, hs, hD, -⟩ n hn
    obtain ⟨hrouted, hhop⟩ := htree s hs
    refine ⟨(hreturns.1 ⟨s, hs⟩ n hn).1, fun hne => ?_⟩
    have hv := validTables_initMiniDestination hm
    obtain ⟨s', hs', hdest, -, -, -, hbest⟩ := exists_routingTree hm
    obtain rfl : s' = s := Option.some.inj (hs'.symm.trans hs)
    have hsn := (hrouted n).2 hn
    have hchoose := (hv.updatePaths_isSome_iff (D := Destination.ofMiniDestination m)).1 ⟨D, hD⟩ n
      (mt (hbest.none_iff n).1 hsn) (by rw [← hdest] at hne; exact hne)
    obtain ⟨p, hp, hkey⟩ := (canChoose_insecure_iff hm hs hsn hne).1 hchoose
    exact ⟨p, (hhop n hne hn p).1 hp, hkey⟩
  · intro h
    obtain ⟨s, hs⟩ := hreturns.2 fun n hn => ⟨(h n hn).1, hdepth n hn⟩
    obtain ⟨hrouted, hhop⟩ := htree s hs
    obtain ⟨m, hm⟩ := (hashesDiffer_iff hs hsib').1 hhash
    have hv := validTables_initMiniDestination hm
    obtain ⟨s', hs', hdest, -, -, -, hbest⟩ := exists_routingTree hm
    obtain rfl : s' = s := Option.some.inj (hs'.symm.trans hs)
    obtain ⟨D, hD⟩ := (hv.updatePaths_isSome_iff (S := fun _ => false)
      (D := Destination.ofMiniDestination m)).2 fun n hmn hne => by
        have hsn := mt (hbest.none_iff n).2 hmn
        have hne' : n ≠ d := by
          rw [← hdest]
          exact hne
        obtain ⟨p, hp, hkey⟩ := (h n ((hrouted n).1 hsn)).2 hne'
        exact (canChoose_insecure_iff hm hs hsn hne').2
          ⟨p, (hhop n hne' ((hrouted n).1 hsn) p).2 hp, hkey⟩
    obtain ⟨hc, hframe⟩ := (ValidTables.updatePaths_eq_some_iff
      (D := Destination.ofMiniDestination m) hv).1 hD
    exact ⟨m, s', D, hm, hs, hD, fun n hn hne => hc.eq_routingTree hframe hm hs hsib' hn hne⟩

/-- In a graph of two nodes without edges from a node to itself, hashes do not collide. -/
lemma hashesDiffer_of_provider {P : Params} {g : NetworkGraph} {d p : Asn}
    (hnodes : g.asNodes = [d, p]) (hall : g.getAllNeighbors p = [d]) : HashesDiffer P g d := by
  intro _ n hne hn
  have hmem := hn.mem_asNodes (by simp [hnodes])
  obtain rfl : n = p := by
    rw [hnodes, mem_cons, mem_singleton] at hmem
    exact hmem.resolve_left hne
  have hhop : ∀ m, BestHop g d n m → m = d := by
    rintro m ⟨hm, -⟩
    have hmem : ∃ t, m ∈ g.neighbors n t := by
      rcases hm with ⟨-, hm, -⟩ | ⟨-, -, hm, -⟩ | ⟨-, -, hm, -⟩
      · exact ⟨_, hm⟩
      · exact ⟨_, hm⟩
      · exact ⟨_, hm⟩
    obtain ⟨t, ht⟩ := hmem
    have : m ∈ g.getAllNeighbors n := by
      refine mem_flatMap.mpr ⟨t, ?_, ht⟩
      cases t <;> simp [relationshipTypes]
    simpa [hall] using this
  intro p q hp hq _
  rw [hhop p hp, hhop q hq]

/-- The theorem at a graph of a customer and its provider. -/
theorem sameRoutes_iff_two_nodes :
    (processCyclopsFile ["1\t2\tc2p".toList]).SiblingFree ∧
      (SameRoutes {} (processCyclopsFile ["1\t2\tc2p".toList]) 1 false ↔
        ∀ n, Routed (processCyclopsFile ["1\t2\tc2p".toList]).reverse 1 n → n < numASNs ∧
          (n ≠ 1 → ∃ p, BestHop (processCyclopsFile ["1\t2\tc2p".toList]).reverse 1 n p ∧
            tieBreakKey {} n p ≠ uint32Max)) :=
  ⟨(cyclops_processCyclopsFile _).siblingFree,
    sameRoutes_iff {} _ 1 false (cyclops_processCyclopsFile _).siblingFree (by decide +kernel)
      (fun _ => route_of_provider (p := 2) (by decide +kernel) (by decide +kernel))
      (hashesDiffer_of_provider (p := 2) (by decide +kernel) (by decide +kernel))⟩

/-- AS 4647 has the next hop AS 172245 only, and its key is the largest number: the recomputation
does not return, although there are no siblings, all routes are short and no hashes collide. -/
theorem not_sameRoutes_largest_key :
    (processCyclopsFile ["172245\t4647\tc2p".toList]).SiblingFree ∧
      172245 ∈ (processCyclopsFile ["172245\t4647\tc2p".toList]).asNodes ∧
      (∀ n, Routed (processCyclopsFile ["172245\t4647\tc2p".toList]).reverse 172245 n →
        ∃ k < maxPathLen, Route (processCyclopsFile ["172245\t4647\tc2p".toList]).reverse
          172245 n k) ∧
      HashesDiffer {} (processCyclopsFile ["172245\t4647\tc2p".toList]).reverse 172245 ∧
      ¬ SameRoutes {} (processCyclopsFile ["172245\t4647\tc2p".toList]) 172245 false := by
  refine ⟨(cyclops_processCyclopsFile _).siblingFree, by decide +kernel,
    fun _ => route_of_provider (p := 4647) (by decide +kernel) (by decide +kernel),
    hashesDiffer_of_provider (p := 4647) (by decide +kernel) (by decide +kernel), ?_⟩
  rintro ⟨m, s, D, hm, -, hD, -⟩
  have hnone : ((initMiniDestination {} (processCyclopsFile ["172245\t4647\tc2p".toList]) 172245
      false).bind fun m => updatePaths {} (fun _ => false)
        (Destination.ofMiniDestination m)).isNone = true := by
    decide +kernel
  rw [hm, bind_some, hD] at hnone
  cases hnone

end Astoria
