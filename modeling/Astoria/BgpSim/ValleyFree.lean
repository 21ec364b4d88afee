import Astoria.BgpSim.Destination
import Astoria.BgpSim.GraphCopy

/-!
# Valley-free paths

A path goes up over providers, at most once across to a peer and then down over customers.  The best
sets of the routing algorithm admit no other paths, because a customer or peer route leads to a node
that itself has a customer route.

`ChosenPaths` says how an array of chosen paths is built from the best sets; it holds after the
routing algorithm and after every recomputation, so that both leave valley-free paths.
-/

namespace Astoria

open List Option
open RelationshipType

/-! ### Reading annotated paths -/

/-- The AS numbers of an annotated path. -/
def pathAses : List ℕ → List Asn
  | [] => []
  | a :: marks => a :: marks.map fun j => (unjoin j).1

/-- The columns of an annotated path, hop by hop. -/
def pathColumns (path : List ℕ) : List ℕ := path.tail.map fun j => (unjoin j).2

/-- A marked AS number can be read back: the mark has three bits. -/
lemma unjoin_join_of_lt {asn col : ℕ} (ha : asn < numASNs) (hc : col < 8) :
    unjoin (join asn col) = (asn, col) := by
  unfold numASNs at ha
  have h₁ : asn * 8 % 2 ^ 32 = asn * 8 := Nat.mod_eq_of_lt (by omega)
  have h₂ : join asn col = asn * 8 + col := by
    rw [join, h₁]
    exact Nat.mod_eq_of_lt (by omega)
  have h₃ : (asn * 8 + col) / 8 = asn := by omega
  have h₄ : (asn * 8 + col) % 8 = col := by omega
  rw [h₂]
  exact Prod.ext h₃ h₄

lemma unjoin_join {asn col : ℕ} (ha : asn < numASNs) (hc : col ≤ providerColumn) :
    unjoin (join asn col) = (asn, col) :=
  unjoin_join_of_lt ha (lt_of_le_of_lt hc (by decide))

/-- Chosen paths follow best sets: the path of a node leads to a member of its best set and goes on
as the path of that member does. -/
structure ChosenPaths (bestSet : Asn → List Asn) (rel : Asn → ℕ) (d : Asn) (on : Asn → Prop)
    (path : Asn → Option (List ℕ)) : Prop where
  root : path d = some [d]
  /-- The path of another node with a route. -/
  step : ∀ n, on n → n ≠ d → ∃ p rest, p ∈ bestSet n ∧ path p = some (p :: rest) ∧
    path n = some (n :: join p (rel n) :: rest)

section ChosenPaths

variable {bestSet : Asn → List Asn} {rel : Asn → ℕ} {d : Asn} {on : Asn → Prop} {L : Asn → ℕ}
  {path : Asn → Option (List ℕ)}

/-- A chosen path is a path of the best sets, annotated with the columns of its nodes. -/
lemma ChosenPaths.exists_path (h : ChosenPaths bestSet rel d on path)
    (hg : Layered.Graded bestSet d on L) (hlt : ∀ n, on n → n < numASNs ∧ rel n ≤ providerColumn)
    {n : Asn} (hn : on n) : ∃ as, path n = some as ∧ Layered.Path bestSet d n (pathAses as) ∧
      pathColumns as = (pathAses as).dropLast.map rel := by
  induction hk : L n using Nat.strongRecOn generalizing n with
  | ind k ih =>
    by_cases hr : n = d
    · subst hr
      exact ⟨[n], h.root, .root, rfl⟩
    · obtain ⟨p, rest, hp, hpath, hpathn⟩ := h.step n hn hr
      obtain ⟨hon, hd⟩ := hg.parent n hn hr p hp
      obtain ⟨as, has, hpas, hcol⟩ := ih (L p) (by omega) hon rfl
      obtain rfl := Option.some.inj (hpath.symm.trans has)
      have hjoin := unjoin_join (hlt p hon).1 (hlt n hn).2
      refine ⟨_, hpathn, ?_, ?_⟩
      · have hases : pathAses (n :: join p (rel n) :: rest) = n :: pathAses (p :: rest) := by
          simp [pathAses, hjoin]
        rw [hases]
        exact .step hr hp hpas
      · simp only [pathColumns, tail_cons, pathAses, map_cons, hjoin] at hcol ⊢
        rw [dropLast_cons_of_ne_nil (by simp), map_cons, hcol]

end ChosenPaths

/-! ### Valleys -/

/-- Zero or more provider hops, then at most one peer hop, then zero or more customer hops. -/
def ValleyFree (columns : List ℕ) : Prop :=
  ∃ up across down, across ≤ 1 ∧ columns = replicate up providerColumn ++
    replicate across peerColumn ++ replicate down customerColumn

/-- The relationship that the next hop has to a node with a route in the given column. -/
def hopType (col : ℕ) : RelationshipType :=
  if col = customerColumn then customerOf else if col = peerColumn then peerOf else providerTo

/-- Best sets whose members may be used: what lies below a customer or peer hop has a customer
route. -/
def UsableHops (g : NetworkGraph) (bestSet : Asn → List Asn) (rel : Asn → ℕ) (d : Asn) : Prop :=
  rel d = customerColumn ∧ ∀ n, n ≠ d → ∀ p ∈ bestSet n, rel n ≤ providerColumn ∧
    n ∈ g.neighbors p (hopType (rel n)) ∧ (rel n = providerColumn ∨ rel p = customerColumn)

section Valleys

variable {g : NetworkGraph} {bestSet : Asn → List Asn} {rel : Asn → ℕ} {d : Asn} {l : List Asn}
  {n : Asn}

section

variable (h : UsableHops g bestSet rel d) (hl : Layered.Path bestSet d n l)

include h hl

/-- From a node with a customer route, all hops are customer hops. -/
lemma UsableHops.eq_replicate (hn : rel n = customerColumn) :
    ∃ k, l.dropLast.map rel = replicate k customerColumn := by
  induction hl with
  | root => exact ⟨0, rfl⟩
  | @step n p l hne hp hl ih =>
    obtain ⟨-, -, hrel⟩ := h.2 n hne p hp
    obtain ⟨k, hk⟩ := ih (hrel.resolve_left (by simp [hn, customerColumn, providerColumn]))
    obtain ⟨l', rfl⟩ := hl.exists_cons
    refine ⟨k + 1, ?_⟩
    rw [dropLast_cons_of_ne_nil (by simp), map_cons, hk, hn, replicate_succ]

/-- All paths of the best sets are valley-free. -/
lemma UsableHops.valleyFree : ValleyFree (l.dropLast.map rel) := by
  induction hl with
  | root => exact ⟨0, 0, 0, by decide, rfl⟩
  | @step n p l hne hp hl ih =>
    obtain ⟨hle, -, hrel⟩ := h.2 n hne p hp
    obtain ⟨l', rfl⟩ := hl.exists_cons
    rw [dropLast_cons_of_ne_nil (by simp), map_cons]
    by_cases hprov : rel n = providerColumn
    · -- one more provider hop
      obtain ⟨up, across, down, ha, heq⟩ := ih
      exact ⟨up + 1, across, down, ha, by rw [heq, hprov, replicate_succ]; rfl⟩
    · -- after any other hop, the route is a customer route
      obtain ⟨k, hk⟩ := h.eq_replicate hl (hrel.resolve_left hprov)
      rw [hk]
      by_cases hpeer : rel n = peerColumn
      · exact ⟨0, 1, k, by decide, by simp [hpeer]⟩
      · have hcust : rel n = customerColumn := by
          unfold customerColumn peerColumn providerColumn at *
          omega
        exact ⟨0, 0, k + 1, by decide, by simp [hcust, replicate_succ]⟩

lemma UsableHops.isChain : l.IsChain fun a b => a ∈ g.neighbors b (hopType (rel a)) := by
  induction hl with
  | root => exact .singleton _
  | @step n p l hne hp hl ih =>
    obtain ⟨l', rfl⟩ := hl.exists_cons
    exact isChain_cons_cons.mpr ⟨(h.2 n hne p hp).2.1, ih⟩

end

/-- The edges of the passes, without siblings. -/
lemma mem_passFlags (hsib : g.SiblingFree) {p : Asn} {c : ℕ} (hc : c ≤ providerColumn)
    (h : n ∈ g.getNeighborsByType p (passFlags c)) : n ∈ g.neighbors p (hopType c) := by
  obtain rfl | rfl | rfl : c = 0 ∨ c = 1 ∨ c = 2 := by
    unfold providerColumn at hc
    omega
  all_goals
    simp only [passFlags] at h
    rw [NetworkGraph.mem_getNeighborsByType (by simp)] at h
    obtain ⟨t, ht, hn⟩ := h
    simp only [mem_cons, not_mem_nil, or_false] at ht
  · rcases ht with rfl | rfl
    · exact hn
    · simp [hsib p] at hn
  · rw [ht] at hn
    exact hn
  · rcases ht with rfl | rfl
    · exact hn
    · simp [hsib p] at hn

lemma mem_neighbors_of_mem_searchedGraph {readOnly : Bool} {m : Asn} {t : RelationshipType}
    (h : m ∈ (searchedGraph g readOnly).neighbors n t) : m ∈ g.neighbors n t := by
  unfold searchedGraph at h
  split_ifs at h
  · exact NetworkGraph.mem_of_getRelationshipTypeOfNeighbor (NetworkGraph.mem_neighbors_copy.mp h)
  · exact h

lemma siblingFree_searchedGraph (hsib : g.SiblingFree) (readOnly : Bool) :
    (searchedGraph g readOnly).SiblingFree := by
  intro n
  refine eq_nil_iff_forall_not_mem.mpr fun m hm => ?_
  have := mem_neighbors_of_mem_searchedGraph hm
  rw [hsib n] at this
  exact not_mem_nil this

end Valleys

/-! ### Valley-free routes -/

/-- A valley-free route from `n` to `d`: it repeats no AS, every hop is an edge of the graph of the
relationship that the column of the hop says, and the columns have no valley. -/
structure ValleyFreeRoute (g : NetworkGraph) (d n : Asn) (ases : List Asn) (columns : List ℕ) :
    Prop where
  /-- The route begins at `n`. -/
  head : ases.head? = some n
  /-- The route reaches `d`. -/
  last : ases.getLast? = some d
  /-- The route repeats no AS. -/
  nodup : ases.Nodup
  length : ases.length = columns.length + 1
  hops : ∀ (k : ℕ) (a b c : ℕ), ases[k]? = some a → ases[k + 1]? = some b → columns[k]? = some c →
    a ∈ g.neighbors b (hopType c)
  valleyFree : ValleyFree columns

/-- Whoever keeps stepping to a member of its best set takes a valley-free route, and does not get
stuck. -/
def WalksValleyFree (g : NetworkGraph) (d : Asn) (best : Asn → Option (List Asn)) (rel : Asn → ℕ) :
    Prop :=
  ∀ n, best n ≠ none →
    (∃ p ∈ (best n).getD [], best p ≠ none) ∧ (∀ p ∈ (best n).getD [], best p ≠ none) ∧
    ∀ w : ℕ → Asn, w 0 = n → (∀ k, w (k + 1) ∈ (best (w k)).getD []) →
      ∃ k, w k = d ∧
        ValleyFreeRoute g d n ((range (k + 1)).map w) ((range k).map fun i => rel (w i))

/-- Chosen paths are valley-free routes, and the nodes with a best set have one. -/
def ChosenValleyFree (g : NetworkGraph) (d : Asn) (best : Asn → Option (List Asn))
    (chosenPath : Asn → Option (List ℕ)) : Prop :=
  ∀ n, (best n ≠ none → chosenPath n ≠ none) ∧
    ∀ path, chosenPath n = some path → ValleyFreeRoute g d n (pathAses path) (pathColumns path)

section Routes

variable {g : NetworkGraph} {best : Asn → Option (List Asn)} {rel L : Asn → ℕ} {d : Asn}

variable {n : Asn} (h : UsableHops g (fun n => (best n).getD []) rel d)
  (hg : Layered.Graded (fun n => (best n).getD []) d (fun n => best n ≠ none) L)

include h hg

/-- Paths of usable hops are valley-free routes. -/
lemma UsableHops.route (hn : best n ≠ none) {l : List Asn}
    (hl : Layered.Path (fun n => (best n).getD []) d n l) :
    ValleyFreeRoute g d n l (l.dropLast.map rel) where
  head := by
    obtain ⟨l', rfl⟩ := hl.exists_cons
    rfl
  last := hl.getLast?
  nodup := hg.nodup hn hl
  length := by
    rw [length_map, length_dropLast, hg.length_eq hn hl]
    omega
  hops k a b c ha hb hc := by
    have hchain := isChain_iff_getElem.mp (h.isChain hl)
    obtain ⟨hk, rfl⟩ := List.getElem?_eq_some_iff.mp ha
    obtain ⟨hk', rfl⟩ := List.getElem?_eq_some_iff.mp hb
    rw [getElem?_map, getElem?_dropLast, if_pos (by omega), ha] at hc
    obtain rfl := Option.some.inj hc
    exact hchain k (by omega)
  valleyFree := h.valleyFree hl

/-- Walks along best sets of usable hops. -/
lemma UsableHops.walksValleyFree (hroot : best d = some [d]) : WalksValleyFree g d best rel := by
  intro n hn
  have hparent : ∀ p ∈ (best n).getD [], best p ≠ none := by
    intro p hp
    by_cases hr : n = d
    · subst hr
      rw [hroot, getD_some, mem_singleton] at hp
      rw [hp]
      exact hn
    · exact (hg.parent n hn hr p hp).1
  have hne : (best n).getD [] ≠ [] := by
    by_cases hr : n = d
    · simp [hr, hroot]
    · exact hg.parents_ne_nil n hn hr
  obtain ⟨p, hp⟩ := exists_mem_of_ne_nil _ hne
  refine ⟨⟨p, hp, hparent p hp⟩, hparent, fun w hw0 hw => ⟨L n, ?_, ?_⟩⟩
  all_goals
    subst hw0
    have hpath := hg.walk_path hn hw
  · have hlast := hpath.getLast?
    rw [range_succ, map_append, map_singleton, getLast?_concat] at hlast
    exact Option.some.inj hlast
  · have hroute := h.route hg hn hpath
    have hcols : ((range (L (w 0) + 1)).map w).dropLast.map rel =
        (range (L (w 0))).map fun i => rel (w i) := by
      rw [range_succ, map_append, map_singleton, dropLast_concat, List.map_map]
      rfl
    rwa [hcols] at hroute

/-- Chosen paths along best sets of usable hops. -/
lemma UsableHops.chosenValleyFree (hlt : ∀ n, best n ≠ none → n < numASNs ∧ rel n ≤ providerColumn)
    {path : Asn → Option (List ℕ)}
    (hp : ChosenPaths (fun n => (best n).getD []) rel d (fun n => best n ≠ none) path)
    (hnone : ∀ n, best n = none → path n = none) : ChosenValleyFree g d best path := by
  intro n
  by_cases hn : best n = none
  · refine ⟨fun hc => absurd hn hc, fun as has => ?_⟩
    rw [hnone n hn] at has
    cases has
  · obtain ⟨as, has, hpath, hcols⟩ := hp.exists_path hg hlt hn
    refine ⟨fun _ => by simp [has], fun as' has' => ?_⟩
    obtain rfl := Option.some.inj (has.symm.trans has')
    rw [hcols]
    exact h.route hg hn hpath

end Routes

/-! ### The routing algorithm and the recomputations -/

section Results

variable {P : Params} {g g' : NetworkGraph} {d : Asn} {s : BfsState} {T : RouteTables}

/-- The best sets of the routing algorithm, as a layered graph. -/
lemma RoutingTree.graded (ht : RoutingTree g d s) :
    Layered.Graded (fun n => (s.best n).getD []) d (fun n => s.best n ≠ none) s.L where
  on_root := by simp [ht.tables.best_root]
  depth_root := ht.tables.L_zero d ht.tables.parent_root
  parents_ne_nil n hn _ := ht.forest.preds_ne_nil n (BfsState.rank_ne_none.2 hn)
  parent n hn hne p hp := by
    obtain ⟨-, hu, hL⟩ := (ht.mem_bestSet hne (BfsState.rank_eq_some.2 ⟨hn, rfl⟩)).1 hp
    refine ⟨BfsState.rank_ne_none.1 ?_, by omega⟩
    rcases hu with hu | hu
    · simp [hu]
    · exact hu.2

lemma usable_relation {best : Asn → Option (List Asn)} {rel : Asn → ℕ} {p : Asn} {c : ℕ}
    (h : Usable c ((best p).map fun _ => rel p)) :
    c = providerColumn ∨ rel p = customerColumn := by
  rcases h with h | h
  · rw [map_eq_some_iff] at h
    obtain ⟨-, -, h⟩ := h
    exact .inr h
  · exact .inl h.1

/-- The best sets of the routing algorithm lead over usable hops. -/
lemma RoutingTree.usableHops (ht : RoutingTree g d s) (hsib : g.SiblingFree) :
    UsableHops g (fun n => (s.best n).getD []) s.bestRelation d := by
  refine ⟨(BfsState.rank_eq_some.1 ht.forest.rank_root).2, fun n hne p hp => ?_⟩
  have hn : s.best n ≠ none := by
    intro hc
    simp [hc] at hp
  have hrank : s.rank n = some (s.bestRelation n) := BfsState.rank_eq_some.2 ⟨hn, rfl⟩
  obtain ⟨hadj, hu, -⟩ := (ht.mem_bestSet hne hrank).1 hp
  have hle := ht.forest.rank_le n _ hrank
  exact ⟨hle, mem_passFlags hsib hle hadj, usable_relation hu⟩

lemma RoutingTree.chosenPaths (ht : RoutingTree g d s) :
    ChosenPaths (fun n => (s.best n).getD []) s.bestRelation d (fun n => s.best n ≠ none)
      s.chosenPath where
  root := ht.tables.path_root
  step n hn hne := by
    obtain ⟨p, hp⟩ := ne_none_iff_exists'.mp ((ht.tables.best_iff n hne).1 hn)
    obtain ⟨-, rest, hrest, hpath⟩ := ht.tables.path n p hp
    exact ⟨p, rest, ht.parent_mem n p hp, hrest, hpath⟩

/-- The best sets of a destination lead over usable hops. -/
lemma ValidTables.usableHops (hv : ValidTables P g T) (hsib : g.SiblingFree)
    (hsub : ∀ n t m, m ∈ g.neighbors n t → m ∈ g'.neighbors n t) :
    UsableHops g' (fun n => (T.best n).getD []) T.bestRelation T.destination := by
  refine ⟨hv.relation_root, fun n hne p hp => ?_⟩
  have hn : T.best n ≠ none := by
    intro hc
    simp [hc] at hp
  obtain ⟨hadj, hu⟩ := hv.hop n hne p hp
  have hle := (hv.lt n hn).2.2
  exact ⟨hle, hsub _ _ _ (mem_passFlags hsib hle hadj), usable_relation hu⟩

/-- Where the equations of a part of the nodes hold, which contains the parents of its nodes, the
chosen paths follow the best sets. -/
lemma ValidTables.chosenPaths (hv : ValidTables P g T) {S : Asn → Bool} {t : Asn → NodeRoute}
    {on : Asn → Prop} (hg : Layered.Graded T.bestSet T.destination on T.L)
    (hon : ∀ n, on n → T.best n ≠ none)
    (hroot : (t T.destination).path = some [T.destination])
    (hstep : ∀ i, on i → i ≠ T.destination → updateRoute T P S t i = some (t i)) :
    ChosenPaths T.bestSet T.bestRelation T.destination on fun n => (t n).path := by
  have hpath : ∀ n, on n → n ≠ T.destination → ∃ p ∈ T.bestSet n,
      (t n).path = some (updatePath n (t p).path (T.bestRelation n)) := by
    intro n hn hne
    obtain ⟨p, -, -, hp, -, -, heq⟩ := (hv.updateRoute_eq_some (hon n hn)).1 (hstep n hn hne)
    exact ⟨p, hp, congrArg NodeRoute.path heq⟩
  have hhead : ∀ n, on n → ∃ rest, (t n).path = some (n :: rest) := by
    intro n hn
    by_cases hne : n = T.destination
    · exact ⟨[], hne ▸ hroot⟩
    · obtain ⟨p, -, hp⟩ := hpath n hn hne
      rw [hp]
      unfold updatePath
      split
      · split_ifs
        · exact ⟨_, rfl⟩
        · exact ⟨_, rfl⟩
      · exact ⟨_, rfl⟩
  refine ⟨hroot, fun n hn hne => ?_⟩
  obtain ⟨p, hp, heq⟩ := hpath n hn hne
  obtain ⟨honp, hL⟩ := hg.parent n hn hne p hp
  obtain ⟨rest, hrest⟩ := hhead p honp
  have hpn : p ≠ n := by
    rintro rfl
    omega
  exact ⟨p, rest, hp, hrest, by rw [heq, hrest, updatePath, if_pos hpn]⟩

lemma Chosen.chosenPaths {S : Asn → Bool} {D : Destination} (hc : Chosen P S D)
    (hv : ValidTables P g D.toRouteTables)
    (hroot : D.chosenPath D.destination = some [D.destination]) :
    ChosenPaths (fun n => (D.best n).getD []) D.bestRelation D.destination
      (fun n => D.best n ≠ none) D.chosenPath :=
  hv.chosenPaths (t := D.route) hv.graded (fun _ hn => hn) hroot hc.step

/-- **No valleys.**  On a graph without siblings, all walks along best sets and all chosen paths are
valley-free routes to the destination, after the routing algorithm and after every recomputation. -/
theorem valleyFree_routes (P : Params) (g : NetworkGraph) (hsib : g.SiblingFree) (d : Asn) :
    (∀ s, routingTreeAlg P g d = some s →
      WalksValleyFree g d s.best s.bestRelation ∧ ChosenValleyFree g d s.best s.chosenPath) ∧
    ∀ readOnly m, initMiniDestination P g d readOnly = some m →
      WalksValleyFree g d m.best m.bestRelation ∧
      ∀ D, Derived P m D → ∀ S D', updatePaths P S D = some D' →
        D'.toRouteTables = m.toRouteTables ∧ ChosenValleyFree g d m.best D'.chosenPath := by
  constructor
  · intro s hs
    obtain ⟨-, ht, -⟩ := routingTreeAlg_spec hs
    have husable := ht.usableHops hsib
    refine ⟨husable.walksValleyFree ht.graded ht.tables.best_root,
      husable.chosenValleyFree ht.graded (fun n hn => ⟨(ht.fits n hn).1, ?_⟩) ht.chosenPaths
        ht.tables.path_none⟩
    exact ht.forest.rank_le n _ (BfsState.rank_eq_some.2 ⟨hn, rfl⟩)
  · intro readOnly m hm
    have hv := validTables_initMiniDestination hm
    obtain ⟨-, -, rfl, -⟩ := exists_routingTree hm
    have husable := hv.usableHops (siblingFree_searchedGraph hsib readOnly)
      fun _ _ _ => mem_neighbors_of_mem_searchedGraph
    refine ⟨husable.walksValleyFree hv.graded hv.best_root, fun D hD S D' hD' => ?_⟩
    obtain ⟨hchosen, -⟩ := (hD.valid hv).updatePaths_eq_some_iff.1 hD'
    have hframe := (hD.updated hD').sameFrame hv
    obtain ⟨T, secP, parent, path, U⟩ := D'
    obtain rfl : T = m.toRouteTables := hframe.tables
    refine ⟨rfl, husable.chosenValleyFree hv.graded (fun n hn => ⟨(hv.lt n hn).1, (hv.lt n hn).2.2⟩)
      (hchosen.chosenPaths hv ((hD.updated hD').path_root hv)) fun n hn => ?_⟩
    have hne : n ≠ m.destination := by
      rintro rfl
      simp [hv.best_root] at hn
    have hnone := congrArg NodeRoute.path (hframe.none n hn)
    refine hnone.trans ?_
    simp [Destination.route, Destination.ofMiniDestination, hne]

/-- The theorem at a graph of a customer and its provider. -/
theorem valleyFree_routes_two_nodes :
    (processCyclopsFile ["1\t2\tc2p".toList]).SiblingFree ∧
      (routingTreeAlg {} (processCyclopsFile ["1\t2\tc2p".toList]) 1).isSome = true ∧
      ∀ s, routingTreeAlg {} (processCyclopsFile ["1\t2\tc2p".toList]) 1 = some s →
        WalksValleyFree (processCyclopsFile ["1\t2\tc2p".toList]) 1 s.best s.bestRelation ∧
          ChosenValleyFree (processCyclopsFile ["1\t2\tc2p".toList]) 1 s.best s.chosenPath :=
  ⟨(cyclops_processCyclopsFile _).siblingFree, by decide +kernel,
    (valleyFree_routes {} _ (cyclops_processCyclopsFile _).siblingFree 1).1⟩

end Results

end Astoria
