import Astoria.BgpSim.InputFileReader
import Astoria.BgpSim.RoutingTree

/-!
# The Gao–Rexford routing outcome

What the routing algorithm is for, stated on the graph alone.  Everybody prefers customer routes to
peer routes and peer routes to provider routes, and shorter routes within a class.  Customer routes
are announced to everybody, the others to customers only: so a customer route consists of customer
hops, a peer route is one peer hop before a customer route, and a provider route begins at a
provider that has any route.

`GaoRexford` compares the tables of the simulator with these notions, and
`routingTreeAlg_gaoRexford_iff` says for which graphs of the file reader they agree.
-/

namespace Astoria

open List Option
open RelationshipType

/-! ### Routes of a graph -/

section Routes

variable (g : NetworkGraph) (d : Asn)

/-- A path to `d` made only of customer hops, with its length. -/
inductive CustomerPath : Asn → ℕ → Prop
  /-- The destination reaches itself. -/
  | nil : CustomerPath d 0
  | hop {n m : Asn} {k : ℕ} (hm : m ∈ g.neighbors n providerTo) (h : CustomerPath m k) :
      CustomerPath n (k + 1)

/-- The node has a customer route, or is the destination. -/
def CustomerRoute (n : Asn) : Prop := ∃ k, CustomerPath g d n k

/-- Some peer of the node is the destination or has a customer route. -/
def PeerRoute (n : Asn) : Prop := ∃ m ∈ g.neighbors n peerOf, CustomerRoute g d m

/-- The node has any route. -/
inductive Routed : Asn → Prop
  | customer {n : Asn} (h : CustomerRoute g d n) : Routed n
  | peer {n : Asn} (h : PeerRoute g d n) : Routed n
  /-- A route over a provider that has any route. -/
  | provider {n m : Asn} (hm : m ∈ g.neighbors n customerOf) (h : Routed m) : Routed n

/-- The routes of a node that are of the best class it has, over neighbours that do the same, with
their lengths. -/
inductive Route : Asn → ℕ → Prop
  | customer {n : Asn} {k : ℕ} (h : CustomerPath g d n k) : Route n k
  /-- A peer route, for want of a customer route. -/
  | peer {n m : Asn} {k : ℕ} (hc : ¬ CustomerRoute g d n) (hm : m ∈ g.neighbors n peerOf)
      (h : CustomerPath g d m k) : Route n (k + 1)
  /-- A provider route, for want of any other. -/
  | provider {n m : Asn} {k : ℕ} (hc : ¬ CustomerRoute g d n) (hp : ¬ PeerRoute g d n)
      (hm : m ∈ g.neighbors n customerOf) (h : Route m k) : Route n (k + 1)

/-- The neighbours of the best class of `n` over which `n` has a route. -/
def NextHop (n m : Asn) : Prop :=
  (CustomerRoute g d n ∧ m ∈ g.neighbors n providerTo ∧ CustomerRoute g d m) ∨
  (¬ CustomerRoute g d n ∧ PeerRoute g d n ∧ m ∈ g.neighbors n peerOf ∧ CustomerRoute g d m) ∨
  (¬ CustomerRoute g d n ∧ ¬ PeerRoute g d n ∧ m ∈ g.neighbors n customerOf ∧ Routed g d m)

/-- The next hops of the shortest routes of `n`. -/
def BestHop (n m : Asn) : Prop :=
  NextHop g d n m ∧ ∃ k, IsLeast {l | Route g d m l} k ∧ IsLeast {l | Route g d n l} (k + 1)

/-- The tables of the simulator describe the Gao–Rexford outcome. -/
structure GaoRexford (s : BfsState) : Prop where
  customer : ∀ n, CustomerRoute g d n → s.bestRelation n = customerColumn ∧
    IsLeast {k | CustomerPath g d n k} (s.L n)
  /-- Otherwise, who has a peer route uses a shortest one. -/
  peer : ∀ n, ¬ CustomerRoute g d n → PeerRoute g d n → s.bestRelation n = peerColumn ∧
    IsLeast {k | ∃ m ∈ g.neighbors n peerOf, CustomerRoute g d m ∧ k = 1 + s.L m} (s.L n)
  /-- Otherwise, who has a provider route uses a shortest one. -/
  provider : ∀ n, ¬ CustomerRoute g d n → ¬ PeerRoute g d n →
    (∃ m ∈ g.neighbors n customerOf, Routed g d m) → s.bestRelation n = providerColumn ∧
    IsLeast {k | ∃ m ∈ g.neighbors n customerOf, Routed g d m ∧ k = 1 + s.L m} (s.L n)
  /-- The best set holds, without repetition, the neighbours of that class that attain the
  minimum. -/
  best : ∀ n, n ≠ d → Routed g d n → ∃ ps, s.best n = some ps ∧ ps.Nodup ∧
    ∀ m, m ∈ ps ↔ NextHop g d n m ∧ s.L n = 1 + s.L m
  best_none : ∀ n, s.best n = none ↔ ¬ Routed g d n
  /-- The destination is its own next hop. -/
  destination : s.best d = some [d] ∧ s.L d = 0

end Routes

/-! ### The edges of the passes -/

section Edges

variable {g g' : NetworkGraph}

lemma mem_customerFlags (hopp : g'.Mirrors g) (hsib : g.SiblingFree) {n m : Asn} :
    n ∈ g.getNeighborsByType m (passFlags customerColumn) ↔ m ∈ g'.neighbors n providerTo := by
  simp only [passFlags, customerColumn]
  rw [NetworkGraph.mem_getNeighborsByType (by simp)]
  simp only [mem_cons, not_mem_nil, or_false, exists_eq_or_imp, exists_eq_left,
    hsib m, or_false]
  exact (hopp n providerTo m).symm

lemma mem_peerFlags (hopp : g'.Mirrors g) {n m : Asn} :
    n ∈ g.getNeighborsByType m (passFlags peerColumn) ↔ m ∈ g'.neighbors n peerOf := by
  simp only [passFlags, peerColumn]
  rw [NetworkGraph.mem_getNeighborsByType (by simp)]
  simp only [mem_cons, not_mem_nil, or_false, exists_eq_left]
  exact (hopp n peerOf m).symm

lemma mem_providerFlags (hopp : g'.Mirrors g) (hsib : g.SiblingFree) {n m : Asn} :
    n ∈ g.getNeighborsByType m (passFlags providerColumn) ↔ m ∈ g'.neighbors n customerOf := by
  simp only [passFlags, providerColumn]
  rw [NetworkGraph.mem_getNeighborsByType (by simp)]
  simp only [mem_cons, not_mem_nil, or_false, exists_eq_or_imp, exists_eq_left,
    hsib m, or_false]
  exact (hopp n customerOf m).symm

end Edges

/-! ### Ranks are classes of routes -/

section Classes

variable {g g' : NetworkGraph} {d : Asn} {rank : Asn → Option ℕ} {depth : Asn → ℕ}
  {preds : Asn → List Asn} {n : Asn}

variable (h : RoutingForest g d rank depth preds) (hopp : g'.Mirrors g) (hsib : g.SiblingFree)

include h hopp hsib

/-- A node of rank zero has a customer path as long as it is deep. -/
lemma RoutingForest.customerPath (hn : rank n = some customerColumn) :
    CustomerPath g' d n (depth n) := by
  -- by induction on the depth, over a predecessor
  induction hk : depth n using Nat.strongRecOn generalizing n with
  | ind k ih =>
    by_cases hr : n = d
    · rw [← hk, hr, h.depth_root]
      exact .nil
    · obtain ⟨m, hm⟩ := exists_mem_of_ne_nil _ (h.preds_ne_nil n (by simp [hn]))
      obtain ⟨hu, hadj, hd⟩ := (h.mem_preds n _ hr hn m).1 hm
      have hmr : rank m = some customerColumn :=
        hu.resolve_right (by simp [customerColumn, providerColumn])
      rw [← hk, ← hd]
      exact .hop ((mem_customerFlags hopp hsib).1 hadj) (ih (depth m) (by omega) hmr rfl)

/-- A customer path leads to a node of rank zero that is at most as deep as the path is long. -/
lemma RoutingForest.of_customerPath {k : ℕ} (hp : CustomerPath g' d n k) :
    rank n = some customerColumn ∧ depth n ≤ k := by
  induction hp with
  | nil => exact ⟨h.rank_root, le_of_eq h.depth_root⟩
  | hop hm _ ih =>
    obtain ⟨c', hc', hr, hle⟩ := h.closed _ _ customerColumn (by decide) (.inl ih.1)
      ((mem_customerFlags hopp hsib).2 hm)
    obtain rfl : c' = customerColumn := Nat.le_zero.mp hc'
    exact ⟨hr, le_trans (hle rfl) (Nat.add_le_add_right ih.2 1)⟩

lemma RoutingForest.rank_customer_iff : rank n = some customerColumn ↔ CustomerRoute g' d n :=
  ⟨fun hn => ⟨_, h.customerPath hopp hsib hn⟩,
    fun ⟨_, hp⟩ => (h.of_customerPath hopp hsib hp).1⟩

/-- The nodes of rank one are those with a peer route but no customer route. -/
lemma RoutingForest.rank_peer_iff :
    rank n = some peerColumn ↔ ¬ CustomerRoute g' d n ∧ PeerRoute g' d n := by
  constructor
  · intro hn
    have hr : n ≠ d := fun hc => by simp [hc, h.rank_root, customerColumn, peerColumn] at hn
    refine ⟨fun hc => ?_, ?_⟩
    · simp [(h.rank_customer_iff hopp hsib).2 hc, customerColumn, peerColumn] at hn
    · obtain ⟨m, hm⟩ := exists_mem_of_ne_nil _ (h.preds_ne_nil n (by simp [hn]))
      obtain ⟨hu, hadj, -⟩ := (h.mem_preds n _ hr hn m).1 hm
      have hmr : rank m = some customerColumn :=
        hu.resolve_right (by simp [peerColumn, providerColumn])
      exact ⟨m, (mem_peerFlags hopp).1 hadj, (h.rank_customer_iff hopp hsib).1 hmr⟩
  · rintro ⟨hc, m, hm, hmr⟩
    obtain ⟨c', hc', hr, -⟩ := h.closed m n peerColumn (by decide)
      (.inl ((h.rank_customer_iff hopp hsib).2 hmr)) ((mem_peerFlags hopp).2 hm)
    have hne : c' ≠ customerColumn := fun h0 =>
      hc ((h.rank_customer_iff hopp hsib).1 (h0 ▸ hr))
    obtain rfl : c' = peerColumn := by
      unfold customerColumn peerColumn at *
      omega
    exact hr

/-- The nodes on the tree are those with a route. -/
lemma RoutingForest.routed_iff : rank n ≠ none ↔ Routed g' d n := by
  constructor
  · induction hk : depth n using Nat.strongRecOn generalizing n with
    | ind k ih =>
      intro hn
      obtain ⟨c, hc⟩ := ne_none_iff_exists'.mp hn
      have hle := h.rank_le n c hc
      obtain rfl | rfl | rfl : c = customerColumn ∨ c = peerColumn ∨ c = providerColumn := by
        unfold customerColumn peerColumn providerColumn at *
        omega
      · exact .customer ((h.rank_customer_iff hopp hsib).1 hc)
      · exact .peer ((h.rank_peer_iff hopp hsib).1 hc).2
      · have hr : n ≠ d := fun he => by simp [he, h.rank_root, customerColumn, providerColumn] at hc
        obtain ⟨m, hm⟩ := exists_mem_of_ne_nil _ (h.preds_ne_nil n hn)
        obtain ⟨hu, hadj, hd⟩ := (h.mem_preds n _ hr hc m).1 hm
        have hmr : rank m ≠ none := hu.elim (fun h => by simp [h]) (fun h => h.2)
        exact .provider ((mem_providerFlags hopp hsib).1 hadj) (ih (depth m) (by omega) rfl hmr)
  · intro hn
    induction hn with
    | customer hc =>
      rw [(h.rank_customer_iff hopp hsib).2 hc]
      simp
    | @peer n hp =>
      by_cases hc : CustomerRoute g' d n
      · rw [(h.rank_customer_iff hopp hsib).2 hc]
        simp
      · rw [(h.rank_peer_iff hopp hsib).2 ⟨hc, hp⟩]
        simp
    | provider hm _ ih =>
      obtain ⟨c', -, hr, -⟩ := h.closed _ _ providerColumn (by decide) (.inr ⟨rfl, ih⟩)
        ((mem_providerFlags hopp hsib).2 hm)
      rw [hr]
      simp

/-- The nodes of rank two are those with neither a customer nor a peer route. -/
lemma RoutingForest.rank_provider_iff : rank n = some providerColumn ↔
      ¬ CustomerRoute g' d n ∧ ¬ PeerRoute g' d n ∧ Routed g' d n := by
  rw [← h.routed_iff hopp hsib, ← h.rank_customer_iff hopp hsib]
  constructor
  · intro hn
    have hc : ¬ rank n = some customerColumn := by simp [hn, customerColumn, providerColumn]
    refine ⟨hc, fun hp => ?_, by simp [hn]⟩
    rw [h.rank_customer_iff hopp hsib] at hc
    simp [(h.rank_peer_iff hopp hsib).2 ⟨hc, hp⟩, peerColumn, providerColumn] at hn
  · rintro ⟨hc, hp, hn⟩
    obtain ⟨c, hrank⟩ := ne_none_iff_exists'.mp hn
    have hle := h.rank_le n c hrank
    obtain rfl | rfl | rfl : c = customerColumn ∨ c = peerColumn ∨ c = providerColumn := by
      unfold customerColumn peerColumn providerColumn at *
      omega
    · exact absurd hrank hc
    · exact absurd ((h.rank_peer_iff hopp hsib).1 hrank).2 hp
    · exact hrank

/-- A node on the tree has a route as long as it is deep. -/
lemma RoutingForest.route (hn : rank n ≠ none) : Route g' d n (depth n) := by
  induction hk : depth n using Nat.strongRecOn generalizing n with
  | ind k ih =>
    by_cases hc : CustomerRoute g' d n
    · exact hk ▸ .customer (h.customerPath hopp hsib ((h.rank_customer_iff hopp hsib).2 hc))
    · have hr : n ≠ d := fun he => hc (he ▸ ⟨0, .nil⟩)
      obtain ⟨m, hm⟩ := exists_mem_of_ne_nil _ (h.preds_ne_nil n hn)
      by_cases hp : PeerRoute g' d n
      · obtain ⟨hu, hadj, hd⟩ :=
          (h.mem_preds n _ hr ((h.rank_peer_iff hopp hsib).2 ⟨hc, hp⟩) m).1 hm
        have hmr : rank m = some customerColumn :=
          hu.resolve_right (by simp [peerColumn, providerColumn])
        rw [← hk, ← hd]
        exact .peer hc ((mem_peerFlags hopp).1 hadj) (h.customerPath hopp hsib hmr)
      · have hrank := (h.rank_provider_iff hopp hsib).2 ⟨hc, hp, (h.routed_iff hopp hsib).1 hn⟩
        obtain ⟨hu, hadj, hd⟩ := (h.mem_preds n _ hr hrank m).1 hm
        have hmr : rank m ≠ none := hu.elim (fun h => by simp [h]) (fun h => h.2)
        rw [← hk, ← hd]
        exact .provider hc hp ((mem_providerFlags hopp hsib).1 hadj)
          (ih (depth m) (by omega) hmr rfl)

/-- A node with a route is on the tree, at most as deep as the route is long. -/
lemma RoutingForest.of_route {k : ℕ} (hn : Route g' d n k) : rank n ≠ none ∧ depth n ≤ k := by
  induction hn with
  | customer hp =>
    obtain ⟨hr, hle⟩ := h.of_customerPath hopp hsib hp
    exact ⟨by simp [hr], hle⟩
  | @peer n m k hc hm hp =>
    obtain ⟨hr, hle⟩ := h.of_customerPath hopp hsib hp
    obtain ⟨c', -, hrank, hdepth⟩ := h.closed m n peerColumn (by decide) (.inl hr)
      ((mem_peerFlags hopp).2 hm)
    have hpeer := (h.rank_peer_iff hopp hsib).2 ⟨hc, m, hm, ⟨k, hp⟩⟩
    rw [hrank, Option.some.injEq] at hpeer
    exact ⟨by simp [hrank], le_trans (hdepth hpeer) (Nat.add_le_add_right hle 1)⟩
  | @provider n m k hc hnp hm _ ih =>
    obtain ⟨c', -, hrank, hdepth⟩ := h.closed m n providerColumn (by decide) (.inr ⟨rfl, ih.1⟩)
      ((mem_providerFlags hopp hsib).2 hm)
    have hprov := (h.rank_provider_iff hopp hsib).2
      ⟨hc, hnp, .provider hm ((h.routed_iff hopp hsib).1 ih.1)⟩
    rw [hrank, Option.some.injEq] at hprov
    exact ⟨by simp [hrank], le_trans (hdepth hprov) (Nat.add_le_add_right ih.2 1)⟩

/-- **Shortest routes.**  The depth of a node on the tree is the length of its shortest route. -/
theorem RoutingForest.isLeast_route (hn : rank n ≠ none) : IsLeast {k | Route g' d n k} (depth n) :=
  ⟨h.route hopp hsib hn, fun _ hk => (h.of_route hopp hsib hk).2⟩

end Classes

/-! ### The tables -/

section Tables

variable {g g' : NetworkGraph} {d : Asn} {s : BfsState} {n : Asn}

lemma BfsState.rank_eq_some {c : ℕ} :
    s.rank n = some c ↔ s.best n ≠ none ∧ s.bestRelation n = c := by
  unfold BfsState.rank
  cases hb : s.best n <;> simp

lemma BfsState.rank_ne_none : s.rank n ≠ none ↔ s.best n ≠ none := by
  unfold BfsState.rank
  cases hb : s.best n <;> simp

lemma RoutingTree.L_eq (ht : RoutingTree g d s) (hn : s.best n ≠ none) : s.L n = s.bfsDepth n := by
  by_cases hr : n = d
  · rw [hr, ht.tables.L_zero d ht.tables.parent_root, ht.forest.depth_root]
  · rw [ht.tables.L_eq n ((ht.tables.best_iff n hr).1 hn)]
    have := (ht.fits n hn).2
    unfold maxPathLen at this
    omega

lemma RoutingTree.best_eq (hn : s.best n ≠ none) : s.best n = some (s.bestSet n) := by
  obtain ⟨ps, hps⟩ := ne_none_iff_exists'.mp hn
  rw [BfsState.bestSet, hps, getD_some]

/-- A node of rank `c` lies one level below a usable neighbour and at most one level below all of
them. -/
lemma RoutingTree.isLeast_L (ht : RoutingTree g d s) {c : ℕ} (hr : n ≠ d) (hn : s.rank n = some c) :
    IsLeast {k | ∃ m, n ∈ g.getNeighborsByType m (passFlags c) ∧ Usable c (s.rank m) ∧
      k = 1 + s.L m} (s.L n) := by
  have hbest : s.best n ≠ none := (BfsState.rank_eq_some.1 hn).1
  have husable : ∀ m, Usable c (s.rank m) → s.L m = s.bfsDepth m := by
    intro m hm
    refine ht.L_eq (BfsState.rank_ne_none.1 ?_)
    rcases hm with hm | hm
    · simp [hm]
    · exact hm.2
  rw [ht.L_eq hbest]
  constructor
  · obtain ⟨m, hm⟩ := exists_mem_of_ne_nil _ (ht.forest.preds_ne_nil n (by simp [hn]))
    obtain ⟨hu, hadj, hd⟩ := (ht.forest.mem_preds n c hr hn m).1 hm
    exact ⟨m, hadj, hu, by rw [husable m hu, ← hd, add_comm]⟩
  · rintro k ⟨m, hadj, hu, rfl⟩
    obtain ⟨c', -, hrank, hle⟩ :=
      ht.forest.closed m n c (ht.forest.rank_le n c hn) hu hadj
    rw [hn, Option.some.injEq] at hrank
    rw [husable m hu, add_comm]
    exact hle hrank.symm

/-- The members of a best set are the usable neighbours of the previous level. -/
lemma RoutingTree.mem_bestSet (ht : RoutingTree g d s) {m : Asn} {c : ℕ} (hr : n ≠ d)
    (hn : s.rank n = some c) : m ∈ s.bestSet n ↔
      n ∈ g.getNeighborsByType m (passFlags c) ∧ Usable c (s.rank m) ∧ s.L n = 1 + s.L m := by
  have hbest : s.best n ≠ none := (BfsState.rank_eq_some.1 hn).1
  rw [ht.forest.mem_preds n c hr hn m]
  have hL : Usable c (s.rank m) → (s.bfsDepth m + 1 = s.bfsDepth n ↔ s.L n = 1 + s.L m) := by
    intro hu
    have hm : s.best m ≠ none := by
      refine BfsState.rank_ne_none.1 ?_
      rcases hu with hu | hu
      · simp [hu]
      · exact hu.2
    rw [ht.L_eq hbest, ht.L_eq hm]
    omega
  constructor
  · rintro ⟨hu, hadj, hd⟩
    exact ⟨hadj, hu, (hL hu).1 hd⟩
  · rintro ⟨hadj, hu, hd⟩
    exact ⟨hu, hadj, (hL hu).2 hd⟩

/-- **The outcome.**  On a symmetric graph without siblings, the tables of the algorithm describe
the Gao–Rexford outcome. -/
theorem RoutingTree.gaoRexford (ht : RoutingTree g d s) (hopp : g'.Mirrors g)
    (hsib : g.SiblingFree) : GaoRexford g' d s := by
  have hcust := fun n => ht.forest.rank_customer_iff hopp hsib (n := n)
  have hpeer := fun n => ht.forest.rank_peer_iff hopp hsib (n := n)
  have hprov := fun n => ht.forest.rank_provider_iff hopp hsib (n := n)
  have hrouted := fun n => ht.forest.routed_iff hopp hsib (n := n)
  have husable : ∀ m, Usable customerColumn (s.rank m) ↔ CustomerRoute g' d m := by
    intro m
    rw [Usable, hcust]
    simp [customerColumn, providerColumn]
  have husable' : ∀ m, Usable peerColumn (s.rank m) ↔ CustomerRoute g' d m := by
    intro m
    simp [Usable, hcust, peerColumn, providerColumn]
  have husable'' : ∀ m, Usable providerColumn (s.rank m) ↔ Routed g' d m := by
    intro m
    simp only [Usable, hcust, hrouted, true_and]
    exact ⟨fun h => h.elim .customer id, .inr⟩
  constructor
  case customer =>
    intro n hn
    have hrank := (hcust n).2 hn
    obtain ⟨hbest, hrel⟩ := BfsState.rank_eq_some.1 hrank
    refine ⟨hrel, ?_⟩
    rw [ht.L_eq hbest]
    exact ⟨ht.forest.customerPath hopp hsib hrank,
      fun k hk => (ht.forest.of_customerPath hopp hsib hk).2⟩
  case peer =>
    intro n hc hp
    have hrank := (hpeer n).2 ⟨hc, hp⟩
    have hr : n ≠ d := fun he => hc (he ▸ ⟨0, .nil⟩)
    refine ⟨(BfsState.rank_eq_some.1 hrank).2, ?_⟩
    have hleast := ht.isLeast_L hr hrank
    simpa only [mem_peerFlags hopp, husable'] using hleast
  case provider =>
    rintro n hc hp ⟨m, hm, hmr⟩
    have hrank := (hprov n).2 ⟨hc, hp, .provider hm hmr⟩
    have hr : n ≠ d := fun he => hc (he ▸ ⟨0, .nil⟩)
    refine ⟨(BfsState.rank_eq_some.1 hrank).2, ?_⟩
    have hleast := ht.isLeast_L hr hrank
    simpa only [mem_providerFlags hopp hsib, husable''] using hleast
  case best =>
    intro n hr hn
    have hbest := BfsState.rank_ne_none.1 ((hrouted n).2 hn)
    refine ⟨s.bestSet n, RoutingTree.best_eq hbest, ht.forest.preds_nodup n ((hrouted n).2 hn), ?_⟩
    intro m
    -- the class of `n` decides which of the three kinds of next hops apply
    by_cases hc : CustomerRoute g' d n
    · rw [ht.mem_bestSet hr ((hcust n).2 hc), mem_customerFlags hopp hsib, husable m]
      simp [NextHop, hc, and_assoc]
    · by_cases hp : PeerRoute g' d n
      · rw [ht.mem_bestSet hr ((hpeer n).2 ⟨hc, hp⟩), mem_peerFlags hopp, husable' m]
        simp [NextHop, hc, hp, and_assoc]
      · rw [ht.mem_bestSet hr ((hprov n).2 ⟨hc, hp, hn⟩), mem_providerFlags hopp hsib,
          husable'' m]
        simp [NextHop, hc, hp, and_assoc]
  case best_none =>
    intro n
    rw [← hrouted n, BfsState.rank_ne_none, not_not]
  case destination =>
    exact ⟨ht.tables.best_root, ht.tables.L_zero d ht.tables.parent_root⟩

lemma NextHop.routed {m : Asn} (h : NextHop g d n m) : Routed g d m := by
  rcases h with ⟨-, -, hm⟩ | ⟨-, -, -, hm⟩ | ⟨-, -, -, hm⟩
  · exact .customer hm
  · exact .customer hm
  · exact hm

/-- The best set holds the next hops of the shortest routes. -/
lemma RoutingTree.mem_bestSet_iff_bestHop (ht : RoutingTree g d s) (hopp : g'.Mirrors g)
    (hsib : g.SiblingFree) {m : Asn} (hr : n ≠ d) (hn : Routed g' d n) :
    m ∈ s.bestSet n ↔ BestHop g' d n m := by
  have hleast : ∀ n, Routed g' d n → IsLeast {l | Route g' d n l} (s.L n) := by
    intro n hn
    have hrank := (ht.forest.routed_iff hopp hsib).2 hn
    rw [ht.L_eq (BfsState.rank_ne_none.1 hrank)]
    exact ht.forest.isLeast_route hopp hsib hrank
  obtain ⟨ps, hps, -, hmem⟩ := (ht.gaoRexford hopp hsib).best n hr hn
  rw [BfsState.bestSet, hps, getD_some, hmem m, BestHop]
  refine and_congr_right fun hm => ?_
  have hm' := hleast m hm.routed
  constructor
  · intro hL
    refine ⟨s.L m, hm', ?_⟩
    rw [add_comm, ← hL]
    exact hleast n hn
  · rintro ⟨k, hk, hk'⟩
    rw [(hleast n hn).unique hk', hm'.unique hk, add_comm]

/-- The routes stay within the graph. -/
lemma Routed.mem_asNodes (hd : d ∈ g.asNodes) (h : Routed g d n) : n ∈ g.asNodes := by
  have hcust : ∀ n, CustomerRoute g d n → n ∈ g.asNodes := by
    rintro n ⟨k, hk⟩
    cases hk with
    | nil => exact hd
    | hop hm _ => exact (g.closed _ _ _ hm).1
  induction h with
  | customer h => exact hcust _ h
  | peer h => exact (g.closed _ _ _ h.choose_spec.1).1
  | provider hm _ _ => exact (g.closed _ _ _ hm).1

/-- The algorithm returns exactly when the nodes with a route fit the tables. -/
theorem routingTreeAlg_isSome_iff {P : Params} (hopp : g'.Mirrors g) (hsib : g.SiblingFree)
    (hd : d ∈ g.asNodes) : (∃ s, routingTreeAlg P g d = some s) ↔
      ∀ n, Routed g' d n → n < numASNs ∧ ∃ k < maxPathLen, Route g' d n k := by
  have hforest := routingForest (P := P) hd
  constructor
  · rintro ⟨s, hs⟩ n hn
    obtain ⟨-, ht, -⟩ := routingTreeAlg_spec hs
    have hrank := (ht.forest.routed_iff hopp hsib).2 hn
    obtain ⟨hlt, hdepth⟩ := ht.fits n (BfsState.rank_ne_none.1 hrank)
    exact ⟨hlt, s.bfsDepth n, hdepth, ht.forest.route hopp hsib hrank⟩
  · intro h
    have hfits : Fits (providerSearch P g d) := by
      intro n hn
      have hrank : rank P g d n ≠ none := (rank_ne_none hd).2 (seen_iff.mpr hn)
      obtain ⟨hlt, k, hk, hroute⟩ := h n ((hforest.routed_iff hopp hsib).1 hrank)
      exact ⟨hlt, lt_of_le_of_lt (hforest.of_route hopp hsib hroute).2 hk⟩
    refine ne_none_iff_exists'.mp fun hnone => ?_
    exact not_fits_of_routingTreeAlg hd hnone hfits

end Tables

/-! ### The graphs of the file reader -/

/-- **The routing algorithm on the graphs of the file reader.**  Let all routes to `d` be shorter
than the bucket table is high.  Then the algorithm returns the Gao–Rexford outcome exactly when the
AS number `numASNs`, which the reader admits but for which the tables have no entry, has no route to
`d`. -/
theorem routingTreeAlg_gaoRexford_iff (P : Params) (lines : List (List Char)) (d : Asn)
    (hd : d ∈ (processCyclopsFile lines).asNodes)
    (hdepth : ∀ n, Routed (processCyclopsFile lines) d n →
      ∃ k < maxPathLen, Route (processCyclopsFile lines) d n k) :
    (∃ s, routingTreeAlg P (processCyclopsFile lines) d = some s ∧
      GaoRexford (processCyclopsFile lines) d s) ↔
        ¬ Routed (processCyclopsFile lines) d numASNs := by
  obtain ⟨hsym, hsib, hle⟩ := cyclops_processCyclopsFile lines
  generalize processCyclopsFile lines = g at *
  constructor
  · rintro ⟨s, hs, -⟩ hroute
    exact absurd ((routingTreeAlg_isSome_iff hsym.mirrors hsib hd).1 ⟨s, hs⟩ numASNs hroute).1
      (Nat.lt_irrefl numASNs)
  · intro hnot
    obtain ⟨s, hs⟩ := (routingTreeAlg_isSome_iff (P := P) hsym.mirrors hsib hd).2 fun n hn => by
      have hne : n ≠ numASNs := fun he => hnot (he ▸ hn)
      exact ⟨Nat.lt_of_le_of_ne (hle n (hn.mem_asNodes hd)) hne, hdepth n hn⟩
    exact ⟨s, hs, (routingTreeAlg_spec hs).2.1.gaoRexford hsym.mirrors hsib⟩

lemma route_of_provider {g : NetworkGraph} {d p : Asn} (hnodes : g.asNodes = [d, p])
    (hp : d ∈ g.neighbors p providerTo) {n : Asn} (hn : Routed g d n) :
    ∃ k < maxPathLen, Route g d n k := by
  have hmem := hn.mem_asNodes (by simp [hnodes])
  rw [hnodes, mem_cons, mem_singleton] at hmem
  rcases hmem with rfl | rfl
  · exact ⟨0, by decide, .customer .nil⟩
  · exact ⟨1, by decide, .customer (.hop hp .nil)⟩

/-- The theorem at a graph of a customer and its provider. -/
theorem routingTreeAlg_gaoRexford_two_nodes :
    1 ∈ (processCyclopsFile ["1\t2\tc2p".toList]).asNodes ∧
      ((∃ s, routingTreeAlg {} (processCyclopsFile ["1\t2\tc2p".toList]) 1 = some s ∧
        GaoRexford (processCyclopsFile ["1\t2\tc2p".toList]) 1 s) ↔
      ¬ Routed (processCyclopsFile ["1\t2\tc2p".toList]) 1 numASNs) :=
  ⟨by decide +kernel, routingTreeAlg_gaoRexford_iff {} _ 1 (by decide +kernel) fun _ =>
    route_of_provider (p := 2) (by decide +kernel) (by decide +kernel)⟩

/-- The reader admits AS 400000.  If it is a provider of AS 1, the algorithm does not return for the
destination AS 1, although all routes are short. -/
theorem routingTreeAlg_too_high :
    1 ∈ (processCyclopsFile ["1\t400000\tc2p".toList]).asNodes ∧
      (∀ n, Routed (processCyclopsFile ["1\t400000\tc2p".toList]) 1 n →
        ∃ k < maxPathLen, Route (processCyclopsFile ["1\t400000\tc2p".toList]) 1 n k) ∧
      ¬ ∃ s, routingTreeAlg {} (processCyclopsFile ["1\t400000\tc2p".toList]) 1 = some s ∧
        GaoRexford (processCyclopsFile ["1\t400000\tc2p".toList]) 1 s := by
  refine ⟨by decide +kernel, fun _ => route_of_provider (p := 400000) (by decide +kernel)
    (by decide +kernel), ?_⟩
  rintro ⟨s, hs, -⟩
  have hnone : (routingTreeAlg {} (processCyclopsFile ["1\t400000\tc2p".toList]) 1).isNone =
      true := by
    decide +kernel
  rw [hs] at hnone
  cases hnone

end Astoria
