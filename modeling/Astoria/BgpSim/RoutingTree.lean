import Astoria.BgpSim.BfsPass

/-!
# The routing tree

The three searches of the routing algorithm, one after another, and the tree that they leave.
`RoutingForest` describes the tree for any graph, with or without sibling edges: the rank of a node
tells which pass has found it, and the predecessors of a node are all usable neighbours one level
above it.  `routingTreeAlg_spec` says that the simulator computes this tree whenever it fits the
tables, and raises an exception otherwise.
-/

namespace Astoria

open Option Function
open BfsState (initial)
open RelationshipType
open LevelSearch (State Status Inv Started Forest Outcome)

/-- The relationships that the pass for a column follows. -/
def passFlags : ℕ → List RelationshipType
  | 0 => [customerOf, siblingOf]
  | 1 => [peerOf]
  | _ => [providerTo, siblingOf]

/-! ### The three searches -/

section Searches

variable (P : Params) (g : NetworkGraph) (d : Asn)

/-- The nodes that a search has met. -/
def seen (a : State Asn) (n : Asn) : Bool := a.status n ≠ .unseen

/-- The search of the first pass. -/
def customerSearch : State Asn :=
  (customerPass g d).searchFrom P (fun _ => false) BfsState.initial.toSearch

/-- The search of the second pass. -/
def peerSearch : State Asn :=
  (peerPass g d).searchFrom P (seen (customerSearch P g d))
    (LevelSearch.reset (customerSearch P g d))

/-- The search of the third pass. -/
def providerSearch : State Asn :=
  (providerPass g d).searchFrom P (seen (peerSearch P g d)) (LevelSearch.reset (peerSearch P g d))

/-- The pass that has found a node. -/
def rank (n : Asn) : Option ℕ :=
  if seen (customerSearch P g d) n then some customerColumn
  else if seen (peerSearch P g d) n then some peerColumn
  else if seen (providerSearch P g d) n then some providerColumn
  else none

end Searches

section Forests

variable {P : Params} {g : NetworkGraph} {d : Asn} {a : State Asn} {n : Asn}

lemma seen_iff : seen a n = true ↔ a.status n ≠ .unseen := by
  simp [seen]

lemma forest_initial : Forest d g.asNodes (fun _ => false) initial.toSearch := by
  constructor <;> simp [initial]

lemma forest_searchFrom {b : BfsArgs} {old : Asn → Bool}
    (hforest : Forest b.srcNodeNum b.graph.asNodes old a) (hd : b.srcNodeNum ∈ b.graph.asNodes) :
    Forest b.srcNodeNum b.graph.asNodes (seen (b.searchFrom P old a))
      (LevelSearch.reset (b.searchFrom P old a)) :=
  Outcome.forest (r := b.toRun P old)
    (LevelSearch.Forest.started (r := b.toRun P old) hforest hd
      (fun _ _ hn => NetworkGraph.mem_asNodes_of_mem_getNeighborsByType hn))
    (searchFrom_outcome hforest hd) (fun _ => seen_iff)

lemma forest_customerSearch (hd : d ∈ g.asNodes) : Forest d g.asNodes
    (seen (customerSearch P g d)) (LevelSearch.reset (customerSearch P g d)) :=
  forest_searchFrom (b := customerPass g d) forest_initial hd

lemma forest_peerSearch (hd : d ∈ g.asNodes) : Forest d g.asNodes
    (seen (peerSearch P g d)) (LevelSearch.reset (peerSearch P g d)) :=
  forest_searchFrom (b := peerPass g d) (forest_customerSearch hd) hd

lemma forest_providerSearch (hd : d ∈ g.asNodes) : Forest d g.asNodes
    (seen (providerSearch P g d)) (LevelSearch.reset (providerSearch P g d)) :=
  forest_searchFrom (b := providerPass g d) (forest_peerSearch hd) hd

/-! ### What a search keeps -/

/-- A search keeps the records of the nodes that an earlier one has met. -/
structure KeepsTree (a a' : State Asn) (n : Asn) : Prop where
  seen : seen a' n = true
  depth : a'.depth n = a.depth n
  parent : a'.parent n = a.parent n
  preds : a'.preds n = a.preds n

lemma KeepsTree.trans {a' a'' : State Asn} (h : KeepsTree a a' n) (h' : KeepsTree a' a'' n) :
    KeepsTree a a'' n :=
  ⟨h'.seen, h'.depth.trans h.depth, h'.parent.trans h.parent, h'.preds.trans h.preds⟩

lemma keeps_searchFrom {b : BfsArgs} {old : Asn → Bool}
    (hforest : Forest b.srcNodeNum b.graph.asNodes old a)
    (hd : b.srcNodeNum ∈ b.graph.asNodes) (hroot : old b.srcNodeNum = true)
    (hpreds : a.preds b.srcNodeNum = [b.srcNodeNum]) (hn : old n = true) :
    KeepsTree a (b.searchFrom P old a) n := by
  have hout := searchFrom_outcome (P := P) hforest hd
  obtain ⟨hdepth, hparent, hpred⟩ := hout.frame n (.inl hn)
  refine ⟨?_, hdepth.trans ?_, hparent, hpred.trans ?_⟩
  · rw [seen_iff, hout.fixed_processed n (.inl hn)]
    simp
  · simp only [LevelSearch.start]
    rw [← hforest.root_depth hroot, update_eq_self]
  · simp only [LevelSearch.start]
    rw [← hpreds, update_eq_self]

/-- The destination after the first pass. -/
lemma customerSearch_root (hd : d ∈ g.asNodes) : seen (customerSearch P g d) d = true ∧
    (customerSearch P g d).depth d = 0 ∧ (customerSearch P g d).preds d = [d] := by
  have hout : Outcome ((customerPass g d).toRun P fun _ => false)
      (LevelSearch.start d initial.toSearch) (customerSearch P g d) :=
        searchFrom_outcome (P := P) (b := customerPass g d) forest_initial hd
  obtain ⟨hdepth, -, hpreds⟩ := hout.frame d (.inr rfl)
  refine ⟨?_, ?_, ?_⟩
  · rw [seen_iff, hout.fixed_processed d (.inr rfl)]
    simp
  · rw [hdepth]
    simp [LevelSearch.start]
  · rw [hpreds]
    simp [LevelSearch.start]

lemma peerSearch_keeps (hd : d ∈ g.asNodes) (hn : seen (customerSearch P g d) n = true) :
    KeepsTree (customerSearch P g d) (peerSearch P g d) n := by
  have h := keeps_searchFrom (P := P) (b := peerPass g d) (forest_customerSearch hd) hd
    (customerSearch_root hd).1 (customerSearch_root hd).2.2 hn
  exact ⟨h.seen, h.depth, h.parent, h.preds⟩

lemma providerSearch_keeps (hd : d ∈ g.asNodes) (hn : seen (peerSearch P g d) n = true) :
    KeepsTree (peerSearch P g d) (providerSearch P g d) n := by
  have hroot := peerSearch_keeps (P := P) hd (customerSearch_root hd).1
  have h := keeps_searchFrom (P := P) (b := providerPass g d) (forest_peerSearch hd) hd hroot.seen
    (hroot.preds.trans (customerSearch_root hd).2.2) hn
  exact ⟨h.seen, h.depth, h.parent, h.preds⟩

end Forests

/-! ### The tree of the three searches -/

/-- Whether a neighbour of the given rank offers a route to the pass for the column `c`: customer
and peer routes lead over nodes with customer routes, provider routes over any node with a route. -/
def Usable (c : ℕ) (r : Option ℕ) : Prop :=
  r = some customerColumn ∨ (c = providerColumn ∧ r ≠ none)

/-- The tree of the three passes: every node of rank `c` hangs below all usable neighbours of the
previous level, and nobody who has a usable neighbour is left out. -/
structure RoutingForest (g : NetworkGraph) (d : Asn) (rank : Asn → Option ℕ) (depth : Asn → ℕ)
    (preds : Asn → List Asn) : Prop where
  rank_root : rank d = some customerColumn
  depth_root : depth d = 0
  rank_le : ∀ n c, rank n = some c → c ≤ providerColumn
  mem_nodes : ∀ n, rank n ≠ none → n ∈ g.asNodes
  preds_ne_nil : ∀ n, rank n ≠ none → preds n ≠ []
  preds_nodup : ∀ n, rank n ≠ none → (preds n).Nodup
  /-- The predecessors are the usable neighbours of the previous level. -/
  mem_preds : ∀ n c, n ≠ d → rank n = some c → ∀ m, m ∈ preds n ↔
    Usable c (rank m) ∧ n ∈ g.getNeighborsByType m (passFlags c) ∧ depth m + 1 = depth n
  /-- Whoever has a usable neighbour is on the tree, in this pass or an earlier one, and in this
  pass at most one level below the neighbour. -/
  closed : ∀ m n c, c ≤ providerColumn → Usable c (rank m) →
    n ∈ g.getNeighborsByType m (passFlags c) →
    ∃ c', c' ≤ c ∧ rank n = some c' ∧ (c' = c → depth n ≤ depth m + 1)

section Ranks

variable {P : Params} {g : NetworkGraph} {d : Asn} {n : Asn}

lemma rank_eq_customer :
    rank P g d n = some customerColumn ↔ seen (customerSearch P g d) n = true := by
  unfold rank
  split_ifs <;> simp_all [customerColumn, peerColumn, providerColumn]

lemma rank_eq_peer : rank P g d n = some peerColumn ↔
    seen (customerSearch P g d) n = false ∧ seen (peerSearch P g d) n = true := by
  unfold rank
  split_ifs <;> simp_all [customerColumn, peerColumn, providerColumn]

lemma rank_eq_provider (hd : d ∈ g.asNodes) : rank P g d n = some providerColumn ↔
    seen (peerSearch P g d) n = false ∧ seen (providerSearch P g d) n = true := by
  have h := fun hn => (peerSearch_keeps (P := P) hd (n := n) hn).seen
  unfold rank
  split_ifs <;> simp_all [customerColumn, peerColumn, providerColumn]

lemma rank_ne_none (hd : d ∈ g.asNodes) :
    rank P g d n ≠ none ↔ seen (providerSearch P g d) n = true := by
  have h₁ := fun hn => (peerSearch_keeps (P := P) hd (n := n) hn).seen
  have h₂ := fun hn => (providerSearch_keeps (P := P) hd (n := n) hn).seen
  unfold rank
  split_ifs <;> simp_all

lemma rank_cases {c : ℕ} (h : rank P g d n = some c) :
    c = customerColumn ∨ c = peerColumn ∨ c = providerColumn := by
  unfold rank at h
  split_ifs at h <;> simp_all

/-- The search of the pass for a column, in terms of the ranks. -/
structure Stage (P : Params) (g : NetworkGraph) (d : Asn) (c : ℕ) (r : LevelSearch.Run Asn)
    (s₀ s : State Asn) : Prop where
  outcome : Outcome r s₀ s
  adj : ∀ m, r.adj m = g.getNeighborsByType m (passFlags c)
  wins : ∃ includeSibling, r.wins = newRouteWinsTieBreak P g includeSibling
  /-- The nodes that the search expands are those that offer routes to the pass. -/
  processed : ∀ m, s.status m ≠ .unseen ∧ (r.limited = false ∨ r.Fixed m) ↔ Usable c (rank P g d m)
  /-- The nodes of the pass are new to its search. -/
  new : ∀ n, n ≠ d → rank P g d n = some c → ¬ r.Fixed n ∧ s.status n ≠ .unseen
  found : ∀ n, ¬ r.Fixed n → s.status n ≠ .unseen → rank P g d n = some c
  fixed : ∀ n, r.Fixed n → ∃ c', c' ≤ c ∧ rank P g d n = some c' ∧ (c' = c → n = d)
  /-- The later searches keep what it has found. -/
  keeps : ∀ n, s.status n ≠ .unseen → KeepsTree s (providerSearch P g d) n

/-- **Each pass is a stage.** -/
lemma exists_stage (hd : d ∈ g.asNodes) {c : ℕ} (hc : c ≤ providerColumn) :
    ∃ r s₀ s, Stage P g d c r s₀ s := by
  have hroot := customerSearch_root (P := P) hd
  obtain rfl | rfl | rfl : c = customerColumn ∨ c = peerColumn ∨ c = providerColumn := by
    unfold customerColumn peerColumn providerColumn at *
    omega
  · refine ⟨(customerPass g d).toRun P fun _ => false, LevelSearch.start d initial.toSearch,
      customerSearch P g d, searchFrom_outcome (b := customerPass g d) forest_initial hd,
      fun _ => rfl, ⟨(customerPass g d).includeSibling, rfl⟩,
      fun m => ?_, fun n hn hrank => ?_, fun n _ hs => ?_, fun n hfixed => ?_, fun n hs => ?_⟩
    · rw [← seen_iff, Usable, rank_eq_customer]
      exact ⟨fun h => .inl h.1, fun h =>
        ⟨h.resolve_right fun h => absurd h.1 (by decide), .inl rfl⟩⟩
    · exact ⟨fun hfixed => hn (hfixed.resolve_left nofun), seen_iff.mp (rank_eq_customer.1 hrank)⟩
    · exact rank_eq_customer.2 (seen_iff.mpr hs)
    · obtain rfl : n = d := hfixed.resolve_left nofun
      exact ⟨customerColumn, Nat.le_refl _, rank_eq_customer.2 hroot.1, fun _ => rfl⟩
    · have hkeeps := peerSearch_keeps (P := P) hd (seen_iff.mpr hs)
      exact hkeeps.trans (providerSearch_keeps hd hkeeps.seen)
  · have hfixed : ∀ n, ((peerPass g d).toRun P (seen (customerSearch P g d))).Fixed n ↔
        rank P g d n = some customerColumn := fun n => by
      rw [rank_eq_customer]
      exact ⟨fun h => h.elim id fun h => h ▸ hroot.1, .inl⟩
    refine ⟨(peerPass g d).toRun P (seen (customerSearch P g d)),
      LevelSearch.start d (LevelSearch.reset (customerSearch P g d)), peerSearch P g d,
      searchFrom_outcome (b := peerPass g d) (forest_customerSearch hd) hd,
      fun _ => rfl, ⟨(peerPass g d).includeSibling, rfl⟩,
      fun m => ?_, fun n _ hrank => ?_, fun n hn hs => ?_, fun n hn => ?_, fun n hs => ?_⟩
    · rw [hfixed]
      refine ⟨fun h => .inl (h.2.resolve_left nofun), fun h => ?_⟩
      have hrank := h.resolve_right fun h => absurd h.1 (by decide)
      exact ⟨seen_iff.mp (peerSearch_keeps hd (rank_eq_customer.1 hrank)).seen, .inr hrank⟩
    · rw [hfixed, hrank]
      exact ⟨by decide, seen_iff.mp (rank_eq_peer.1 hrank).2⟩
    · rw [hfixed, rank_eq_customer, Bool.not_eq_true] at hn
      exact rank_eq_peer.2 ⟨hn, seen_iff.mpr hs⟩
    · exact ⟨customerColumn, by decide, (hfixed n).1 hn, fun h => absurd h (by decide)⟩
    · exact providerSearch_keeps hd (seen_iff.mpr hs)
  · have hfixed : ∀ n, ((providerPass g d).toRun P (seen (peerSearch P g d))).Fixed n ↔
        seen (peerSearch P g d) n = true := fun n =>
      ⟨fun h => h.elim id fun h => h ▸ (peerSearch_keeps hd hroot.1).seen, .inl⟩
    refine ⟨(providerPass g d).toRun P (seen (peerSearch P g d)),
      LevelSearch.start d (LevelSearch.reset (peerSearch P g d)), providerSearch P g d,
      searchFrom_outcome (b := providerPass g d) (forest_peerSearch hd) hd,
      fun _ => rfl, ⟨(providerPass g d).includeSibling, rfl⟩,
      fun m => ?_, fun n _ hrank => ?_, fun n hn hs => ?_, fun n hn => ?_, fun n hs => ?_⟩
    · have hseen := rank_ne_none (P := P) hd (n := m)
      rw [← seen_iff]
      refine ⟨fun h => .inr ⟨rfl, hseen.2 h.1⟩, fun h => ⟨hseen.1 ?_, .inl rfl⟩⟩
      exact h.elim (fun h => by simp [h]) And.right
    · rw [hfixed, (rank_eq_provider hd).1 hrank |>.1]
      exact ⟨Bool.false_ne_true, seen_iff.mp ((rank_eq_provider hd).1 hrank).2⟩
    · rw [hfixed, Bool.not_eq_true] at hn
      exact (rank_eq_provider hd).2 ⟨hn, seen_iff.mpr hs⟩
    · by_cases hcustomer : seen (customerSearch P g d) n = true
      · exact ⟨customerColumn, by decide, rank_eq_customer.2 hcustomer,
          fun h => absurd h (by decide)⟩
      · exact ⟨peerColumn, by decide, rank_eq_peer.2 ⟨by simpa using hcustomer, (hfixed n).1 hn⟩,
          fun h => absurd h (by decide)⟩
    · exact ⟨seen_iff.mpr hs, rfl, rfl, rfl⟩

lemma rank_le {c : ℕ} (h : rank P g d n = some c) : c ≤ providerColumn := by
  rcases rank_cases h with rfl | rfl | rfl <;> decide

/-- The destination on the tree. -/
lemma providerSearch_root (hd : d ∈ g.asNodes) :
    (providerSearch P g d).depth d = 0 ∧ (providerSearch P g d).preds d = [d] := by
  obtain ⟨hseen, hdepth, hpreds⟩ := customerSearch_root (P := P) hd
  have hkeeps := peerSearch_keeps hd hseen
  have hkeeps' := hkeeps.trans (providerSearch_keeps hd hkeeps.seen)
  exact ⟨hkeeps'.depth.trans hdepth, hkeeps'.preds.trans hpreds⟩

/-- The predecessors that the three passes have recorded for a node. -/
lemma preds_of_rank (hd : d ∈ g.asNodes) (hn : rank P g d n ≠ none) :
    (providerSearch P g d).preds n ≠ [] ∧ ((providerSearch P g d).preds n).Nodup := by
  obtain ⟨c, hc⟩ := ne_none_iff_exists'.mp hn
  obtain ⟨r, s₀, s, h⟩ := exists_stage (P := P) hd (rank_le hc)
  by_cases hr : n = d
  · rw [hr, (providerSearch_root hd).2]
    simp
  · obtain ⟨hfixed, hs⟩ := h.new n hr hc
    rw [(h.keeps n hs).preds]
    exact ⟨h.outcome.preds_ne_nil n hfixed hs, h.outcome.preds_nodup n hfixed⟩

/-- The parent of a node has been selected among its predecessors, by the tie-break of the pass that
has found the node. -/
lemma exists_providerSearch_parent_eq (hd : d ∈ g.asNodes) {p : Asn}
    (hp : (providerSearch P g d).parent n = some p) :
    ∃ (r : LevelSearch.Run Asn) (includeSibling : Bool),
      r.wins = newRouteWinsTieBreak P g includeSibling ∧
        LevelSearch.chosenParent r n ((providerSearch P g d).preds n) = some p := by
  have hold : ¬ (seen (providerSearch P g d) n = false ∨ n = d) := fun hold => by
    cases ((forest_providerSearch hd).parent_none n hold).symm.trans hp
  rw [not_or, Bool.not_eq_false, ← rank_ne_none hd] at hold
  obtain ⟨c, hc⟩ := ne_none_iff_exists'.mp hold.1
  obtain ⟨r, s₀, s, h⟩ := exists_stage (P := P) hd (rank_le hc)
  obtain ⟨hfixed, hs⟩ := h.new n hold.2 hc
  obtain ⟨includeSibling, hwins⟩ := h.wins
  rw [(h.keeps n hs).parent, h.outcome.parent_eq n hfixed] at hp
  exact ⟨r, includeSibling, hwins, by rw [(h.keeps n hs).preds, hp]⟩

/-- **The tree of the three searches.** -/
theorem routingForest (hd : d ∈ g.asNodes) : RoutingForest g d (rank P g d)
    (providerSearch P g d).depth (providerSearch P g d).preds where
  rank_root := rank_eq_customer.2 (customerSearch_root hd).1
  depth_root := (providerSearch_root hd).1
  rank_le _ _ := rank_le
  mem_nodes n hn := (forest_providerSearch hd).old_mem n ((rank_ne_none hd).1 hn)
  preds_ne_nil n hn := (preds_of_rank hd hn).1
  preds_nodup n hn := (preds_of_rank hd hn).2
  mem_preds n c hn hc m := by
    obtain ⟨r, s₀, s, h⟩ := exists_stage (P := P) hd (rank_le hc)
    obtain ⟨hfixed, hs⟩ := h.new n hn hc
    rw [(h.keeps n hs).preds, (h.keeps n hs).depth, h.outcome.mem_preds n hfixed m,
      h.outcome.processed_iff_seen,
      ← h.adj, ← h.processed]
    refine and_congr_right fun hm => ?_
    rw [(h.keeps m hm.1).depth]
  closed m n c hc husable hadj := by
    obtain ⟨r, s₀, s, h⟩ := exists_stage (P := P) hd hc
    have hm := (h.processed m).2 husable
    have hproc := (h.outcome.processed_iff_seen m).2 hm
    rw [← h.adj] at hadj
    by_cases hfixed : r.Fixed n
    · obtain ⟨c', hle, hrank, hroot⟩ := h.fixed n hfixed
      refine ⟨c', hle, hrank, fun heq => ?_⟩
      rw [hroot heq, (providerSearch_root hd).1]
      exact Nat.zero_le _
    · have hs := (h.outcome.found_iff n hfixed).2 ⟨m, hproc, hadj⟩
      refine ⟨c, Nat.le_refl _, h.found n hfixed hs, fun _ => ?_⟩
      rw [(h.keeps n hs).depth, (h.keeps m hm.1).depth]
      exact h.outcome.depth_le m n hproc hadj hfixed

end Ranks

/-! ### The algorithm computes the tree -/

/-- The column of a node that has a best set. -/
def BfsState.rank (s : BfsState) (n : Asn) : Option ℕ := (s.best n).map fun _ => s.bestRelation n

/-- The members of the best set of a node. -/
def BfsState.bestSet (s : BfsState) (n : Asn) : List Asn := (s.best n).getD []

/-- The result of the routing algorithm: the tables mirror a search tree, the best sets and columns
form the tree of the three passes, and everything fits the tables. -/
structure RoutingTree (g : NetworkGraph) (d : Asn) (s : BfsState) : Prop where
  /-- The tables mirror the search tree. -/
  tables : Tables d s
  /-- The search tree is the one of the three passes. -/
  forest : RoutingForest g d s.rank s.bfsDepth s.bestSet
  parent_mem : ∀ n p, s.bfsParentNode n = some p → p ∈ s.bestSet n
  /-- The nodes with a route have entries and rows in the tables. -/
  fits : ∀ n, s.best n ≠ none → n < numASNs ∧ s.bfsDepth n < maxPathLen

section Algorithm

variable {P : Params} {g : NetworkGraph} {d : Asn} {b : BfsArgs} {s : BfsState}

/-- Visiting the destination for the first time starts the tables. -/
lemma tables_initial : Tables d (visitSource (customerPass g d) initial) := by
  constructor
  case mem_bucket =>
    intro row col n
    by_cases hr : row = 0
    · subst hr
      by_cases hc : col = customerColumn <;>
        simp [visitSource, customerPass, initial, hc]
    · simp [visitSource, customerPass, initial, hr]
  case bucket_nodup =>
    intro row col
    by_cases hr : row = 0
    · subst hr
      by_cases hc : col = customerColumn <;>
        simp [visitSource, customerPass, initial, hc]
    · simp [visitSource, customerPass, initial, hr]
  case best_ne_nil =>
    intro n
    by_cases hn : n = d <;> simp [visitSource, customerPass, initial, hn]
  case best_iff =>
    intro n hn
    simp [visitSource, customerPass, initial, hn]
  case path_none =>
    intro n hn
    by_cases hd : n = d
    · simp [visitSource, customerPass, hd] at hn
    · simp [visitSource, customerPass, initial, hd]
  all_goals simp [visitSource, customerPass, initial]

/-- Visiting the destination again does not change the tables. -/
lemma Tables.visitSource (h : Tables b.srcNodeNum s) (hdepth : s.bfsDepth b.srcNodeNum = 0)
    (hflags : ¬ (customerOf ∈ b.allowedRelationships ∨ b.allowedRelationships = [])) :
    Tables b.srcNodeNum (visitSource b s) := by
  refine h.congr rfl ?_ ?_ ?_ ?_ rfl rfl rfl
  · simp only [Astoria.visitSource]
    rw [← hdepth, update_eq_self]
  · simp only [Astoria.visitSource]
    rw [← h.best_root, update_eq_self]
  · simp only [Astoria.visitSource]
    rw [if_neg hflags]
  · simp only [Astoria.visitSource]
    rw [← h.path_root, update_eq_self]

/-- The state between two passes. -/
structure BetweenPasses (g : NetworkGraph) (d : Asn) (a : State Asn) (s : BfsState) : Prop where
  /-- The tree is the one that the last search has left. -/
  toSearch_eq : s.toSearch = LevelSearch.reset a
  /-- The nodes that the last search has met are marked. -/
  prior_eq : s.discoveredInPriorBfs = seen a
  /-- The tables mirror the tree. -/
  tables : Tables d s
  /-- The tree fits the tables. -/
  fits : Fits a

lemma PassResult.between {col : ℕ} {s' : BfsState} (h : PassResult P b col s s') :
    BetweenPasses b.graph b.srcNodeNum (b.search P s) s' where
  toSearch_eq := h.toSearch_eq
  prior_eq := by
    funext n
    rw [Bool.eq_iff_iff, h.prior_iff, seen_iff]
  tables := h.tables
  fits := h.fits

/-- The first pass may start from the initial state. -/
lemma passReady_initial (hd : d ∈ g.asNodes) :
    PassReady (customerPass g d) customerColumn initial where
  column_eq := rfl
  flags_ne_nil := by simp [customerPass]
  mem_nodes := hd
  forest := forest_initial
  tables := tables_initial
  prior_fits n hn := by simp [initial] at hn
  parent_none _ _ := rfl

variable {a : State Asn}

lemma BetweenPasses.passReady {c : ℕ}
    (hb : BetweenPasses b.graph b.srcNodeNum a s) (hcol : column b.allowedRelationships = some c)
    (hflags : ¬ (customerOf ∈ b.allowedRelationships ∨ b.allowedRelationships = []))
    (hd : b.srcNodeNum ∈ b.graph.asNodes)
    (hforest : Forest b.srcNodeNum b.graph.asNodes (seen a) (LevelSearch.reset a))
    (hroot : seen a b.srcNodeNum = true) : PassReady b c s := by
  rw [← hb.toSearch_eq, ← hb.prior_eq] at hforest
  have hdepth : ∀ n, s.bfsDepth n = a.depth n := fun n => by
    rw [← toSearch_depth, hb.toSearch_eq]
    rfl
  rw [← hb.prior_eq] at hroot
  refine ⟨hcol, fun h => hflags (.inr h), hd, hforest,
    hb.tables.visitSource (hforest.root_depth hroot) hflags, ?_,
    fun n hn => hforest.parent_none n (.inl hn)⟩
  intro n hn
  rw [hdepth n]
  exact hb.fits n (seen_iff.mp (hb.prior_eq ▸ hn))

lemma BetweenPasses.peerPass_ready (hd : d ∈ g.asNodes)
    (hb : BetweenPasses g d (customerSearch P g d) s) : PassReady (peerPass g d) peerColumn s :=
  BetweenPasses.passReady (b := peerPass g d) hb rfl (by simp [peerPass]) hd
    (forest_customerSearch hd) (customerSearch_root hd).1

lemma BetweenPasses.providerPass_ready (hd : d ∈ g.asNodes)
    (hb : BetweenPasses g d (peerSearch P g d) s) :
    PassReady (providerPass g d) providerColumn s :=
  BetweenPasses.passReady (b := providerPass g d) hb rfl (by simp [providerPass]) hd
    (forest_peerSearch hd) (peerSearch_keeps hd (customerSearch_root hd).1).seen

lemma fits_customerSearch (hd : d ∈ g.asNodes) (h : Fits (peerSearch P g d)) :
    Fits (customerSearch P g d) := by
  intro n hn
  have hkeeps := peerSearch_keeps hd (seen_iff.mpr hn)
  exact hkeeps.depth ▸ h n (seen_iff.mp hkeeps.seen)

lemma fits_peerSearch (hd : d ∈ g.asNodes) (h : Fits (providerSearch P g d)) :
    Fits (peerSearch P g d) := by
  intro n hn
  have hkeeps := providerSearch_keeps hd (seen_iff.mpr hn)
  exact hkeeps.depth ▸ h n (seen_iff.mp hkeeps.seen)

lemma BetweenPasses.search_eq (h : BetweenPasses b.graph b.srcNodeNum a s) :
    b.search P s = b.searchFrom P (seen a) (LevelSearch.reset a) := by
  rw [BfsArgs.search, h.toSearch_eq, h.prior_eq]

/-- The three passes, when none of them raises an exception. -/
lemma exists_passes (h : routingTreeAlg P g d = some s) : d ∈ g.asNodes ∧ ∃ s₁ s₂,
    PassResult P (customerPass g d) customerColumn initial s₁ ∧
    BetweenPasses g d (customerSearch P g d) s₁ ∧
    PassResult P (peerPass g d) peerColumn s₁ s₂ ∧
    BetweenPasses g d (peerSearch P g d) s₂ ∧
    PassResult P (providerPass g d) providerColumn s₂ s ∧
    BetweenPasses g d (providerSearch P g d) s := by
  simp only [routingTreeAlg, bind_eq_bind, bind_eq_some_iff] at h
  obtain ⟨s₁, h₁, s₂, h₂, h₃⟩ := h
  have hd : d ∈ g.asNodes := by
    unfold executeBfs at h₁
    split_ifs at h₁ with hguard
    exact not_not.mp fun hc => hguard (.inl hc)
  refine ⟨hd, s₁, s₂, ?_⟩
  have r₁ := (executeBfs_spec (passReady_initial hd)).1 s₁ h₁
  have b₁ : BetweenPasses g d (customerSearch P g d) s₁ := r₁.between
  have r₂ := (executeBfs_spec (b₁.peerPass_ready hd)).1 s₂ h₂
  have b₂ : BetweenPasses g d (peerSearch P g d) s₂ := by
    rw [peerSearch, ← BetweenPasses.search_eq (b := peerPass g d) b₁]
    exact r₂.between
  have r₃ := (executeBfs_spec (b₂.providerPass_ready hd)).1 s h₃
  have b₃ : BetweenPasses g d (providerSearch P g d) s := by
    rw [providerSearch, ← BetweenPasses.search_eq (b := providerPass g d) b₂]
    exact r₃.between
  exact ⟨r₁, b₁, r₂, b₂, r₃, b₃⟩

/-- An exception shows that the tree does not fit the tables. -/
lemma not_fits_of_routingTreeAlg (hd : d ∈ g.asNodes) (h : routingTreeAlg P g d = none) :
    ¬ Fits (providerSearch P g d) := by
  intro hfits
  have hfits₂ := fits_peerSearch hd hfits
  have hfits₁ := fits_customerSearch hd hfits₂
  cases h₁ : executeBfs P (customerPass g d) initial with
  | none => exact (executeBfs_spec (passReady_initial hd)).2 h₁ hfits₁
  | some s₁ =>
    have b₁ : BetweenPasses g d (customerSearch P g d) s₁ :=
      ((executeBfs_spec (passReady_initial hd)).1 s₁ h₁).between
    have later₂ := executeBfs_spec (P := P) (b₁.peerPass_ready hd)
    rw [BetweenPasses.search_eq (b := peerPass g d) b₁] at later₂
    cases h₂ : executeBfs P (peerPass g d) s₁ with
    | none => exact later₂.2 h₂ hfits₂
    | some s₂ =>
      have b₂ : BetweenPasses g d (peerSearch P g d) s₂ := by
        rw [peerSearch, ← BetweenPasses.search_eq (b := peerPass g d) b₁]
        exact (later₂.1 s₂ h₂).between
      have later₃ := executeBfs_spec (P := P) (b₂.providerPass_ready hd)
      rw [BetweenPasses.search_eq (b := providerPass g d) b₂] at later₃
      refine later₃.2 ?_ hfits
      simpa [routingTreeAlg, h₁, h₂] using h

/-- Between two passes, the nodes on the tree other than the destination have a parent. -/
lemma BetweenPasses.parent_ne_none (h : BetweenPasses g d a s)
    (hforest : Forest d g.asNodes (seen a) (LevelSearch.reset a)) {n : Asn} (hn : n ≠ d) :
    s.bfsParentNode n ≠ none ↔ seen a n = true := by
  have hparent : s.bfsParentNode n = (LevelSearch.reset a).parent n := by
    rw [← h.toSearch_eq]
    rfl
  rw [hparent]
  constructor
  · intro hp
    by_contra hs
    exact hp (hforest.parent_none n (.inl (by simpa using hs)))
  · intro hs
    obtain ⟨p, hp, -⟩ := hforest.parent_old n hs hn
    rw [hp]
    simp

lemma bestRelation_eq_rank {s₁ s₂ : BfsState} (hd : d ∈ g.asNodes)
    (r₁ : PassResult P (customerPass g d) customerColumn initial s₁)
    (b₁ : BetweenPasses g d (customerSearch P g d) s₁)
    (r₂ : PassResult P (peerPass g d) peerColumn s₁ s₂)
    (b₂ : BetweenPasses g d (peerSearch P g d) s₂)
    (r₃ : PassResult P (providerPass g d) providerColumn s₂ s)
    (b₃ : BetweenPasses g d (providerSearch P g d) s) {n : Asn} {c : ℕ}
    (hc : rank P g d n = some c) : s.bestRelation n = c := by
  have hroot : n = d → seen (customerSearch P g d) n = true := by
    rintro rfl
    exact (customerSearch_root hd).1
  rcases rank_cases hc with rfl | rfl | rfl
  · have h₁ := rank_eq_customer.1 hc
    have h₂ := (peerSearch_keeps hd h₁).seen
    rw [r₃.relation_old n (.inl (by rw [b₂.prior_eq]; exact h₂)),
      r₂.relation_old n (.inl (by rw [b₁.prior_eq]; exact h₁))]
    by_cases hr : n = d
    · subst hr
      exact r₁.relation_old n (.inr r₁.tables.parent_root)
    · exact r₁.relation_new n rfl ((b₁.parent_ne_none (forest_customerSearch hd) hr).2 h₁)
  · obtain ⟨h₁, h₂⟩ := rank_eq_peer.1 hc
    have hr : n ≠ d := fun h => by simp [hroot h] at h₁
    rw [r₃.relation_old n (.inl (by rw [b₂.prior_eq]; exact h₂))]
    exact r₂.relation_new n (by rw [b₁.prior_eq]; exact h₁)
      ((b₂.parent_ne_none (forest_peerSearch hd) hr).2 h₂)
  · obtain ⟨h₂, h₃⟩ := (rank_eq_provider hd).1 hc
    have hr : n ≠ d := fun h => by simp [(peerSearch_keeps hd (hroot h)).seen] at h₂
    exact r₃.relation_new n (by rw [b₂.prior_eq]; exact h₂)
      ((b₃.parent_ne_none (forest_providerSearch hd) hr).2 h₃)

/-- **The routing algorithm.**  When the algorithm returns, its tables describe the tree of the
three searches. -/
theorem routingTreeAlg_spec (h : routingTreeAlg P g d = some s) :
    d ∈ g.asNodes ∧ RoutingTree g d s ∧ s.rank = rank P g d ∧
      s.bfsDepth = (providerSearch P g d).depth := by
  obtain ⟨hd, s₁, s₂, r₁, b₁, r₂, b₂, r₃, b₃⟩ := exists_passes h
  have hdepth : s.bfsDepth = (providerSearch P g d).depth :=
    congrArg State.depth b₃.toSearch_eq
  have hbest : s.bestSet = (providerSearch P g d).preds := congrArg State.preds b₃.toSearch_eq
  have hparent : s.bfsParentNode = (providerSearch P g d).parent :=
    congrArg State.parent b₃.toSearch_eq
  have hrouted : ∀ n, s.best n ≠ none ↔ rank P g d n ≠ none := by
    intro n
    rw [rank_ne_none hd]
    by_cases hr : n = d
    · subst hr
      have hs := (peerSearch_keeps hd (customerSearch_root (P := P) hd).1).seen
      simp [b₃.tables.best_root, (providerSearch_keeps hd hs).seen]
    · exact (b₃.tables.best_iff n hr).trans (b₃.parent_ne_none (forest_providerSearch hd) hr)
  have hrank : s.rank = rank P g d := by
    funext n
    cases hc : rank P g d n with
    | none =>
      have hn : s.best n = none := by
        by_contra hne
        exact (hrouted n).1 hne hc
      simp [BfsState.rank, hn]
    | some c =>
      obtain ⟨ps, hps⟩ := ne_none_iff_exists'.mp ((hrouted n).2 (by simp [hc]))
      simp [BfsState.rank, hps, bestRelation_eq_rank hd r₁ b₁ r₂ b₂ r₃ b₃ hc]
  refine ⟨hd, ⟨b₃.tables, ?_, ?_, ?_⟩, hrank, hdepth⟩
  · rw [hrank, hdepth, hbest]
    exact routingForest hd
  · intro n p hp
    rw [hbest]
    obtain ⟨r, -, -, hr⟩ := exists_providerSearch_parent_eq hd (hparent ▸ hp)
    exact LevelSearch.chosenParent_mem hr
  · intro n hn
    rw [hdepth]
    exact b₃.fits n (seen_iff.mp ((rank_ne_none hd).1 ((hrouted n).1 hn)))

lemma newRouteWinsTieBreak_iff (hsib : g.SiblingFree) {includeSibling : Bool} {n p q : Asn} :
    newRouteWinsTieBreak P g includeSibling p n q = true ↔
    tieBreakKey P n p < tieBreakKey P n q := by
  simp [newRouteWinsTieBreak, hsib n, hsib p]

/-- Without siblings, the parent is the member of the best set with the smallest key. -/
lemma tieBreakKey_parent_le (h : routingTreeAlg P g d = some s)
    (hsib : g.SiblingFree) {n p q : Asn} (hp : s.bfsParentNode n = some p) (hq : q ∈ s.bestSet n) :
    tieBreakKey P n p ≤ tieBreakKey P n q := by
  obtain ⟨hd, -, -, -, -, -, -, -, b₃⟩ := exists_passes h
  have hbest : s.bestSet = (providerSearch P g d).preds := congrArg State.preds b₃.toSearch_eq
  have hparent : s.bfsParentNode = (providerSearch P g d).parent :=
    congrArg State.parent b₃.toSearch_eq
  rw [hparent] at hp
  rw [hbest] at hq
  obtain ⟨r, includeSibling, hwins, hr⟩ := exists_providerSearch_parent_eq hd hp
  refine LevelSearch.chosenParent_le (fun c q => ?_) hr hq
  rw [hwins, newRouteWinsTieBreak_iff hsib]

end Algorithm

end Astoria
