import Astoria.BgpSim.GaoRexford
import Mathlib.Data.List.Sort

/-!
# Destinations

`initMiniDestination` runs the routing algorithm for a destination and keeps its tables, with the
best sets sorted by the keys of the tie-break.  It fails when the algorithm does and when two
members of one best set have the same hash.

`ValidTables` says what every user of the tables relies on: they describe a layered graph whose
levels are the route lengths, listed level by level in the bucket table.
-/

namespace Astoria

open List Option
open RelationshipType

/-- The copy constructor of the graph: every edge enters under the first relationship that its ends
are listed with. -/
def NetworkGraph.copy (g : NetworkGraph) : NetworkGraph :=
  g.asNodes.foldl (fun copy node =>
    (g.getAllNeighbors node).foldl (fun copy neighbor =>
      match g.getRelationshipTypeOfNeighbor node neighbor with
      | some t => copy.addEdge node neighbor t
      | none => copy) copy) NetworkGraph.empty

/-! ### The tables of a destination -/

/-- The routing tables that are kept for a destination. -/
structure RouteTables where
  destination : Asn
  /-- The nodes by row (route length) and column. -/
  bucketTable : ℕ → ℕ → Option (List Asn)
  /-- The next hops of equally good routes. -/
  best : Asn → Option (List Asn)
  /-- The neighbours over which a route was seen, marked with columns. -/
  bestNew : Asn → Option (List ℕ)
  /-- The length of the route. -/
  L : Asn → ℕ
  /-- The column of the route. -/
  bestRelation : Asn → ℕ

/-- The tables of a destination with the weights of the other nodes. -/
structure MiniDestination extends RouteTables where
  /-- The weight of a node with respect to the destination. -/
  W : Asn → ℕ

/-- The ASes whose routes are not cut down with those of the stubs. -/
def big5List : List Asn := [15169, 8075, 32934, 22822, 20940]

/-- Sort the members of a best set by the keys of the tie-break.  With hashing, the members go
through a table from hash values to members, which does not take a value twice. -/
def sortByHashValue (P : Params) (best : List Asn) (i : Asn) : Option (List Asn) :=
  if P.hash ∧ ¬ (best.map (hash6432shift i)).Nodup then none
  else some (best.insertionSort fun a b => tieBreakKey P i a ≤ tieBreakKey P i b)

/-- Sort all best sets.  Only nodes of the graph have a best set. -/
def sortBest (P : Params) (nodes : List Asn) (best : Asn → Option (List Asn)) :
    Option (Asn → Option (List Asn)) :=
  if nodes.all fun i => (best i).all fun ps => (sortByHashValue P ps i).isSome then
    some fun i => (best i).bind fun ps => sortByHashValue P ps i
  else none

/-- With `stubsDontCare`, a stub keeps only the next hop that wins the tie-break without
security. -/
def cutStubs (P : Params) (g : NetworkGraph) (best : Asn → Option (List Asn)) (i : Asn) :
    Option (List Asn) :=
  if P.stubsDontCare ∧ i ∈ g.asNodes ∧ g.isStub i ∧ i ∉ big5List then (best i).map (·.take 1)
  else best i

/-- The weight of the nodes in a row. -/
def computeWeight (P : Params) (row : ℕ) : ℕ :=
  if !P.useLessHarshWeight then 10 / row
  else if row ≤ 2 then 10
  else 10 / (row - 2)

/-- The weights of the nodes, by the rows of the bucket table. -/
def rowWeights (P : Params) (bucketTable : ℕ → ℕ → Option (List Asn)) (i : Asn) : ℕ :=
  (range' 1 (maxPathLen - 1)).foldl (fun w row =>
    if (range numRelationshipTypes).any fun col => i ∈ (bucketTable row col).getD [] then
      computeWeight P row
    else w) 0

/-- The graph on which the routing algorithm runs. -/
def searchedGraph (g : NetworkGraph) (readOnly : Bool) : NetworkGraph :=
  if readOnly then g.copy else g

/-- Compute the tables of a destination. -/
def initMiniDestination (P : Params) (g : NetworkGraph) (destination : Asn) (readOnly : Bool) :
    Option MiniDestination := do
  let s ← routingTreeAlg P (searchedGraph g readOnly) destination
  let best ← sortBest P (searchedGraph g readOnly).asNodes s.best
  return {
    destination := destination
    bucketTable := s.bucketTable
    best := cutStubs P g best
    bestNew := s.bestNew
    L := s.L
    bestRelation := s.bestRelation
    W := rowWeights P s.bucketTable }

/-! ### What the tables guarantee -/

def RouteTables.bestSet (T : RouteTables) (n : Asn) : List Asn := (T.best n).getD []

/-- The column of a node that has a best set. -/
def RouteTables.rank (T : RouteTables) (n : Asn) : Option ℕ := (T.best n).map fun _ =>
  T.bestRelation n

/-- The tables of a destination, as the other parts of the simulator rely on them. -/
structure ValidTables (P : Params) (g : NetworkGraph) (T : RouteTables) : Prop where
  mem_nodes : T.destination ∈ g.asNodes
  /-- The destination is its own next hop. -/
  best_root : T.best T.destination = some [T.destination]
  relation_root : T.bestRelation T.destination = customerColumn
  L_root : T.L T.destination = 0
  /-- What has a route fits the tables. -/
  lt : ∀ n, T.best n ≠ none → n < numASNs ∧ T.L n < maxPathLen ∧ T.bestRelation n ≤ providerColumn
  /-- What has no route has length zero. -/
  L_none : ∀ n, T.best n = none → T.L n = 0
  best_ne_nil : ∀ n, T.best n ≠ some []
  /-- Best sets are sorted by the keys of the tie-break, which are different. -/
  sorted : ∀ n, (T.bestSet n).Pairwise fun a b => tieBreakKey P n a < tieBreakKey P n b
  /-- The members of a best set have routes that are shorter by one. -/
  parent : ∀ n, n ≠ T.destination → ∀ p ∈ T.bestSet n, T.best p ≠ none ∧ T.L p + 1 = T.L n
  /-- The members of a best set are neighbours whose routes may be used. -/
  hop : ∀ n, n ≠ T.destination → ∀ p ∈ T.bestSet n,
    n ∈ g.getNeighborsByType p (passFlags (T.bestRelation n)) ∧
      Usable (T.bestRelation n) (T.rank p)
  /-- The bucket table lists the nodes with a route by length and column. -/
  mem_bucket : ∀ row col n, n ∈ (T.bucketTable row col).getD [] ↔
    (n = T.destination ∧ row = 0 ∧ col = customerColumn) ∨
      (n ≠ T.destination ∧ T.best n ≠ none ∧ T.L n = row ∧ T.bestRelation n = col)
  bucket_nodup : ∀ row col, ((T.bucketTable row col).getD []).Nodup

section Sorting

variable {P : Params}

/-- Sorting a best set permutes it and leaves its keys in increasing order. -/
lemma sortByHashValue_spec {best sorted : List Asn} {i : Asn} (hnd : best.Nodup)
    (h : sortByHashValue P best i = some sorted) :
    sorted.Perm best ∧ sorted.Pairwise fun a b => tieBreakKey P i a < tieBreakKey P i b := by
  unfold sortByHashValue at h
  split_ifs at h with hdup
  obtain rfl := Option.some.inj h
  have hperm := perm_insertionSort (fun a b => tieBreakKey P i a ≤ tieBreakKey P i b) best
  refine ⟨hperm, ?_⟩
  have hkeys : (best.map (tieBreakKey P i)).Nodup := by
    by_cases hhash : P.hash = true
    · have hkey : tieBreakKey P i = hash6432shift i := by
        funext v
        simp [tieBreakKey, hhash]
      rw [hkey]
      exact not_not.mp fun hc => hdup ⟨hhash, hc⟩
    · have hkey : tieBreakKey P i = id := by
        funext v
        simp [tieBreakKey, hhash]
      rwa [hkey, List.map_id]
  have hnd' := (hperm.map (tieBreakKey P i)).nodup_iff.mpr hkeys
  have : Std.Total (fun a b => tieBreakKey P i a ≤ tieBreakKey P i b) :=
    ⟨fun a b => le_total _ _⟩
  have : IsTrans Asn (fun a b => tieBreakKey P i a ≤ tieBreakKey P i b) :=
    ⟨fun a b c => le_trans⟩
  have hsort := pairwise_insertionSort
    (fun a b => tieBreakKey P i a ≤ tieBreakKey P i b) best
  rw [Nodup, pairwise_map] at hnd'
  exact hsort.imp₂ (fun a b hle hne => lt_of_le_of_ne hle hne) hnd'

/-- Which best sets come out of the sorting. -/
lemma sortBest_apply {nodes : List Asn} {best best' : Asn → Option (List Asn)}
    (hnodes : ∀ n, best n ≠ none → n ∈ nodes) (h : sortBest P nodes best = some best') (n : Asn) :
    (best n = none ∧ best' n = none) ∨
      ∃ ps sorted, best n = some ps ∧ best' n = some sorted ∧
        sortByHashValue P ps n = some sorted := by
  unfold sortBest at h
  split_ifs at h with hall
  obtain rfl := Option.some.inj h
  cases hb : best n with
  | none => exact .inl ⟨rfl, by simp [hb]⟩
  | some ps =>
    rw [List.all_eq_true] at hall
    have hsome := hall n (hnodes n (by simp [hb]))
    rw [hb, all_some] at hsome
    obtain ⟨sorted, hs⟩ := isSome_iff_exists.mp hsome
    exact .inr ⟨ps, sorted, rfl, by simp [hb, hs], hs⟩

/-- Cutting down the routes of stubs keeps a beginning of every best set, and not less than one
member. -/
lemma cutStubs_apply {g : NetworkGraph} {best : Asn → Option (List Asn)} {n : Asn} {ps : List Asn}
    (h : best n = some ps) : ∃ k, 1 ≤ k ∧ cutStubs P g best n = some (ps.take k) := by
  unfold cutStubs
  split_ifs
  · exact ⟨1, le_refl 1, by simp [h]⟩
  · exact ⟨ps.length + 1, by omega, by simp [h, take_of_length_le (Nat.le_succ ps.length)]⟩

end Sorting

/-! ### Initialised destinations are valid -/

section Init

variable {P : Params} {g : NetworkGraph} {d : Asn} {readOnly : Bool} {m : MiniDestination}

/-- The best sets of an initialised destination are sorted beginnings of the ones that the routing
algorithm has found. -/
structure BestFrom (P : Params) (best best' : Asn → Option (List Asn)) : Prop where
  /-- No best set is lost or added. -/
  none_iff : ∀ n, best' n = none ↔ best n = none
  /-- The members come from the old best set, sorted, and at least one is left. -/
  of_some : ∀ n qs, best' n = some qs → ∃ ps, best n = some ps ∧ qs ⊆ ps ∧ (ps ≠ [] → qs ≠ []) ∧
    qs.Pairwise fun a b => tieBreakKey P n a < tieBreakKey P n b

/-- Sorting and cutting down the best sets. -/
lemma bestFrom_cutStubs {nodes : List Asn} {best best' : Asn → Option (List Asn)}
    (hnodes : ∀ n, best n ≠ none → n ∈ nodes) (hnd : ∀ n ps, best n = some ps → ps.Nodup)
    (h : sortBest P nodes best = some best') : BestFrom P best (cutStubs P g best') := by
  constructor
  · intro n
    rcases sortBest_apply hnodes h n with ⟨h₁, h₂⟩ | ⟨ps, sorted, h₁, h₂, -⟩
    · simp [cutStubs, h₁, h₂]
    · obtain ⟨k, -, hk⟩ := cutStubs_apply (P := P) (g := g) h₂
      simp [hk, h₁]
  · intro n qs hqs
    rcases sortBest_apply hnodes h n with ⟨-, h₂⟩ | ⟨ps, sorted, h₁, h₂, h₃⟩
    · simp [cutStubs, h₂] at hqs
    · obtain ⟨k, hk1, hk⟩ := cutStubs_apply (P := P) (g := g) h₂
      obtain ⟨hperm, hsorted⟩ := sortByHashValue_spec (hnd n ps h₁) h₃
      obtain rfl := Option.some.inj (hk.symm.trans hqs)
      refine ⟨ps, h₁, fun x hx => hperm.subset (mem_of_mem_take hx), fun hne hc => ?_,
        hsorted.sublist (take_sublist _ _)⟩
      rcases take_eq_nil_iff.mp hc with hk0 | hnil
      · omega
      · exact hne (Perm.nil_eq (hnil ▸ hperm)).symm

/-- The routing tree behind an initialised destination. -/
lemma exists_routingTree (h : initMiniDestination P g d readOnly = some m) :
    ∃ s, routingTreeAlg P (searchedGraph g readOnly) d = some s ∧ m.destination = d ∧
      m.bucketTable = s.bucketTable ∧ m.L = s.L ∧ m.bestRelation = s.bestRelation ∧
      BestFrom P s.best m.best := by
  simp only [initMiniDestination, bind_eq_bind, bind_eq_some_iff, Option.pure_def,
    Option.some.injEq] at h
  obtain ⟨s, hs, best, hbest, rfl⟩ := h
  refine ⟨s, hs, rfl, rfl, rfl, rfl, ?_⟩
  obtain ⟨-, ht, -⟩ := routingTreeAlg_spec hs
  refine bestFrom_cutStubs (fun n hn => ht.forest.mem_nodes n (BfsState.rank_ne_none.2 hn))
    (fun n ps hps => ?_) hbest
  have hnd := ht.forest.preds_nodup n (BfsState.rank_ne_none.2 (by simp [hps]))
  simpa [BfsState.bestSet, hps] using hnd

/-- A best set can be sorted exactly when, with hashing, its members have different hashes. -/
lemma sortByHashValue_isSome_iff {best : List Asn} {i : Asn} :
    (sortByHashValue P best i).isSome = true ↔
      (P.hash = true → (best.map (hash6432shift i)).Nodup) := by
  unfold sortByHashValue
  split_ifs with hdup
  · simp only [isSome_none, Bool.false_eq_true, false_iff]
    exact fun h => hdup.2 (h hdup.1)
  · simp only [isSome_some, true_iff]
    exact fun hhash => not_not.mp fun hc => hdup ⟨hhash, hc⟩

/-- A destination is initialised exactly when the routing algorithm returns and, with hashing, no
two members of a best set have the same hash. -/
lemma initMiniDestination_isSome_iff : (∃ m, initMiniDestination P g d readOnly = some m) ↔
    ∃ s, routingTreeAlg P (searchedGraph g readOnly) d = some s ∧
      (P.hash = true → ∀ n, ((s.bestSet n).map (hash6432shift n)).Nodup) := by
  simp only [initMiniDestination, bind_eq_bind, bind_eq_some_iff, Option.pure_def,
    Option.some.injEq]
  have hsort : ∀ s, routingTreeAlg P (searchedGraph g readOnly) d = some s →
      ((∃ best, sortBest P (searchedGraph g readOnly).asNodes s.best = some best) ↔
        (P.hash = true → ∀ n, ((s.bestSet n).map (hash6432shift n)).Nodup)) := by
    intro s hs
    obtain ⟨-, ht, -⟩ := routingTreeAlg_spec hs
    have hall : ((searchedGraph g readOnly).asNodes.all fun i =>
        (s.best i).all fun ps => (sortByHashValue P ps i).isSome) = true ↔
        (P.hash = true → ∀ n, ((s.bestSet n).map (hash6432shift n)).Nodup) := by
      rw [List.all_eq_true]
      constructor
      · intro h hhash n
        cases hb : s.best n with
        | none => simp [BfsState.bestSet, hb]
        | some ps =>
          have hn := h n (ht.forest.mem_nodes n (BfsState.rank_ne_none.2 (by simp [hb])))
          rw [hb, all_some, sortByHashValue_isSome_iff] at hn
          simpa [BfsState.bestSet, hb] using hn hhash
      · intro h n _
        cases hb : s.best n with
        | none => rfl
        | some ps =>
          rw [all_some, sortByHashValue_isSome_iff]
          intro hhash
          simpa [BfsState.bestSet, hb] using h hhash n
    rw [← hall, sortBest]
    split_ifs with hc
    · simp [hc]
    · simp [hc]
  constructor
  · rintro ⟨m, s, hs, best, hbest, -⟩
    exact ⟨s, hs, (hsort s hs).1 ⟨best, hbest⟩⟩
  · rintro ⟨s, hs, h⟩
    obtain ⟨best, hbest⟩ := (hsort s hs).2 h
    exact ⟨_, s, hs, best, hbest, rfl⟩

/-- The keys of the members of a best set are different, and the first member of the sorted set has
the smallest one. -/
lemma bestSet_head_le {s : BfsState} (h : initMiniDestination P g d readOnly = some m)
    (hs : routingTreeAlg P (searchedGraph g readOnly) d = some s) (n : Asn) :
    (∀ p ∈ s.bestSet n, ∀ q ∈ s.bestSet n, tieBreakKey P n p = tieBreakKey P n q → p = q) ∧
      ∀ q rest, m.toRouteTables.bestSet n = q :: rest →
        q ∈ s.bestSet n ∧ ∀ p ∈ s.bestSet n, tieBreakKey P n q ≤ tieBreakKey P n p := by
  simp only [initMiniDestination, hs, bind_eq_bind, bind_some,
    bind_eq_some_iff, Option.pure_def, Option.some.injEq] at h
  obtain ⟨best, hbest, rfl⟩ := h
  obtain ⟨-, ht, -⟩ := routingTreeAlg_spec hs
  rcases sortBest_apply (fun n hn => ht.forest.mem_nodes n (BfsState.rank_ne_none.2 hn)) hbest n
    with ⟨h₁, h₂⟩ | ⟨ps, sorted, h₁, h₂, h₃⟩
  · simp [BfsState.bestSet, RouteTables.bestSet, cutStubs, h₁, h₂]
  · have hset : s.bestSet n = ps := by simp [BfsState.bestSet, h₁]
    have hnd := ht.forest.preds_nodup n (BfsState.rank_ne_none.2 (by simp [h₁]))
    rw [hset] at hnd ⊢
    obtain ⟨hperm, hsorted⟩ := sortByHashValue_spec hnd h₃
    have hkeys : (sorted.map (tieBreakKey P n)).Nodup := by
      rw [Nodup, pairwise_map]
      exact hsorted.imp fun {a b} hab => ne_of_lt hab
    refine ⟨fun p hp q hq hkey => ?_, fun q rest hq => ?_⟩
    · exact inj_on_of_nodup_map hkeys (hperm.mem_iff.2 hp) (hperm.mem_iff.2 hq) hkey
    · obtain ⟨k, hk1, hk⟩ := cutStubs_apply (P := P) (g := g) h₂
      simp only [RouteTables.bestSet, hk, getD_some] at hq
      obtain ⟨l, rfl⟩ : ∃ l, sorted = q :: l := by
        cases sorted with
        | nil => simp at hq
        | cons a l =>
          obtain ⟨j, rfl⟩ := Nat.exists_eq_add_of_le' hk1
          rw [take_succ_cons, List.cons.injEq] at hq
          exact ⟨l, by rw [hq.1]⟩
      refine ⟨hperm.mem_iff.1 (by simp), fun p hp => ?_⟩
      rcases mem_cons.mp (hperm.mem_iff.2 hp) with rfl | hp
      · exact le_refl _
      · exact le_of_lt ((pairwise_cons.mp hsorted).1 p hp)

/-- **Initialised destinations are valid.** -/
theorem validTables_initMiniDestination (h : initMiniDestination P g d readOnly = some m) :
    ValidTables P (searchedGraph g readOnly) m.toRouteTables := by
  obtain ⟨s, hs, hd, hbucket, hL, hrel, hbest⟩ := exists_routingTree h
  obtain ⟨hmem, ht, -⟩ := routingTreeAlg_spec hs
  have hne : ∀ n, m.best n ≠ none ↔ s.best n ≠ none := fun n => not_congr (hbest.none_iff n)
  have hset : ∀ n p, p ∈ m.toRouteTables.bestSet n → p ∈ s.bestSet n ∧ s.best n ≠ none := by
    intro n p hp
    cases hb : m.best n with
    | none => simp [RouteTables.bestSet, hb] at hp
    | some qs =>
      obtain ⟨ps, hps, hsub, -⟩ := hbest.of_some n qs hb
      rw [RouteTables.bestSet, hb, getD_some] at hp
      exact ⟨by simpa [BfsState.bestSet, hps] using hsub hp, by simp [hps]⟩
  have hrank : ∀ n, m.toRouteTables.rank n = s.rank n := by
    intro n
    have := hbest.none_iff n
    cases hb : m.best n <;> cases hb' : s.best n <;>
      simp_all [RouteTables.rank, BfsState.rank]
  -- the best sets of the routing tree, one level above
  have hparent : ∀ n, n ≠ d → ∀ p ∈ m.toRouteTables.bestSet n,
      s.best n ≠ none ∧ s.best p ≠ none ∧ s.L n = 1 + s.L p ∧
      n ∈ (searchedGraph g readOnly).getNeighborsByType p (passFlags (s.bestRelation n)) ∧
      Usable (s.bestRelation n) (s.rank p) := by
    intro n hn p hp
    obtain ⟨hps, hb⟩ := hset n p hp
    have hrk : s.rank n = some (s.bestRelation n) := BfsState.rank_eq_some.2 ⟨hb, rfl⟩
    obtain ⟨hadj, hu, hlen⟩ := (ht.mem_bestSet hn hrk).1 hps
    refine ⟨hb, BfsState.rank_ne_none.1 ?_, hlen, hadj, hu⟩
    rcases hu with hu | hu
    · simp [hu]
    · exact hu.2
  subst hd
  constructor
  case mem_nodes => exact hmem
  case best_root =>
    cases hb : m.best m.destination with
    | none =>
      rw [hbest.none_iff, ht.tables.best_root] at hb
      cases hb
    | some qs =>
      obtain ⟨ps, hps, hsub, hnil, hsorted⟩ := hbest.of_some _ qs hb
      rw [ht.tables.best_root, Option.some.injEq] at hps
      subst hps
      have hnd : qs.Nodup := hsorted.imp fun {a b} hab he => by
        rw [he] at hab
        exact lt_irrefl _ hab
      have hlen := (subperm_of_subset hnd hsub).length_le
      obtain ⟨x, rfl⟩ := length_eq_one_iff.mp
        (le_antisymm hlen (length_pos_iff.mpr (hnil (by simp))))
      rw [mem_singleton.mp (hsub (mem_singleton_self x))]
  case relation_root =>
    rw [hrel]
    exact (BfsState.rank_eq_some.1 ht.forest.rank_root).2
  case L_root =>
    rw [hL]
    exact ht.tables.L_zero _ ht.tables.parent_root
  case lt =>
    intro n hn
    have hb := (hne n).1 hn
    rw [hL, hrel, ht.L_eq hb]
    refine ⟨(ht.fits n hb).1, (ht.fits n hb).2, ?_⟩
    exact ht.forest.rank_le n _ (BfsState.rank_eq_some.2 ⟨hb, rfl⟩)
  case L_none =>
    intro n hn
    rw [hL]
    have hb := (hbest.none_iff n).1 hn
    refine ht.tables.L_zero n ?_
    by_contra hp
    have hr : n ≠ m.destination := fun hc => hp (hc ▸ ht.tables.parent_root)
    exact (ht.tables.best_iff n hr).2 hp hb
  case best_ne_nil =>
    intro n hn
    obtain ⟨ps, hps, -, hnil, -⟩ := hbest.of_some n [] hn
    refine hnil ?_ rfl
    rintro rfl
    exact ht.tables.best_ne_nil n hps
  case sorted =>
    intro n
    cases hb : m.best n with
    | none => simp [RouteTables.bestSet, hb]
    | some qs =>
      obtain ⟨-, -, -, -, hsorted⟩ := hbest.of_some n qs hb
      simpa [RouteTables.bestSet, hb] using hsorted
  case parent =>
    intro n hn p hp
    obtain ⟨-, hbp, hlen, -, -⟩ := hparent n hn p hp
    refine ⟨(hne p).2 hbp, ?_⟩
    rw [hL, hlen, add_comm]
  case hop =>
    intro n hn p hp
    obtain ⟨-, -, -, hadj, hu⟩ := hparent n hn p hp
    rw [hrank, hrel]
    exact ⟨hadj, hu⟩
  case mem_bucket =>
    intro row col n
    rw [hbucket, hL, hrel, ht.tables.mem_bucket]
    refine or_congr_right ?_
    constructor
    · rintro ⟨hp, hrow, hcol⟩
      have hr : n ≠ m.destination := fun hc => hp (hc ▸ ht.tables.parent_root)
      have hb := (ht.tables.best_iff n hr).2 hp
      exact ⟨hr, (hne n).2 hb, (ht.L_eq hb).trans hrow, hcol⟩
    · rintro ⟨hr, hb, hrow, hcol⟩
      have hb' := (hne n).1 hb
      exact ⟨(ht.tables.best_iff n hr).1 hb', (ht.L_eq hb').symm.trans hrow, hcol⟩
  case bucket_nodup =>
    rw [hbucket]
    exact ht.tables.bucket_nodup

end Init

end Astoria
