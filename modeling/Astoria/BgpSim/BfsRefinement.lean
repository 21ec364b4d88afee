import Astoria.BgpSim.Bfs
import Astoria.Library.LevelSearch.Outcome

/-!
# The search of the simulator refines the library's search

`BfsState.toSearch` forgets the routing tables of a search state.  A visit of the simulator that
raises no exception is a visit of `LevelSearch` (`toSearch_visit`), and it keeps the tables in step
with the search tree (`Tables`).  A pass raises an exception exactly when it meets a node for which
the tables have no entry or no row (`executeBfs_spec`).
-/

namespace Astoria

open List Option
open RelationshipType
open LevelSearch (Run State Status Inv Started Forest)
open Function

/-- With the default switches, the routes of all nodes are recorded. -/
@[simp] lemma isRecorded_eq_true (g : NetworkGraph) (n : Asn) : isRecorded g n = true := by
  simp [isRecorded, onlyNonStubs]

/-! ### The projection -/

/-- The search state without the routing tables. -/
def BfsState.toSearch (s : BfsState) : State Asn where
  status := s.inProcessBfsStatus
  depth := s.bfsDepth
  parent := s.bfsParentNode
  children := s.bfsChildren
  preds n := (s.best n).getD []
  queue := s.nodeQueue

/-- The run that a pass performs, when earlier passes have discovered the nodes in `old`. -/
def BfsArgs.toRun (P : Params) (b : BfsArgs) (old : Asn → Bool) : Run Asn where
  root := b.srcNodeNum
  nodes := b.graph.asNodes
  old := old
  adj n := b.graph.getNeighborsByType n b.allowedRelationships
  limited := b.limitedDiscovery
  wins := newRouteWinsTieBreak P b.graph b.includeSibling

section Fields

variable (s : BfsState) (P : Params) (b : BfsArgs) (old : Asn → Bool)

@[simp] lemma toSearch_status : s.toSearch.status = s.inProcessBfsStatus := rfl

@[simp] lemma toSearch_depth : s.toSearch.depth = s.bfsDepth := rfl

@[simp] lemma toSearch_parent : s.toSearch.parent = s.bfsParentNode := rfl

@[simp] lemma toSearch_children : s.toSearch.children = s.bfsChildren := rfl

@[simp] lemma toSearch_preds (n : Asn) : s.toSearch.preds n = (s.best n).getD [] := rfl

@[simp] lemma toSearch_queue : s.toSearch.queue = s.nodeQueue := rfl

@[simp] lemma toRun_root : (b.toRun P old).root = b.srcNodeNum := rfl

@[simp] lemma toRun_nodes : (b.toRun P old).nodes = b.graph.asNodes := rfl

@[simp] lemma toRun_old : (b.toRun P old).old = old := rfl

@[simp] lemma toRun_wins :
    (b.toRun P old).wins = newRouteWinsTieBreak P b.graph b.includeSibling := rfl

end Fields

/-! ### The cases of a visit -/

section Visit

variable {P : Params} {b : BfsArgs} {cur opp : Asn} {s s' : BfsState}

/-- The ways in which meeting `opp` from `cur` can change the routes. -/
inductive VisitStep (P : Params) (b : BfsArgs) (cur : Asn) (s : BfsState) (opp : Asn) :
    BfsState → Prop
  /-- The node is new. -/
  | discovered (hs : s.inProcessBfsStatus opp = .unseen)
      (ho : s.discoveredInPriorBfs opp = false)
      (hd : (column b.allowedRelationships).isSome → s.bfsDepth cur + 1 < maxPathLen) :
      VisitStep P b cur s opp (visitDiscovered b cur s opp)
  /-- The node is an old child. -/
  | rejoined (hs : s.inProcessBfsStatus opp = .unseen)
      (ho : s.discoveredInPriorBfs opp = true) (hp : s.bfsParentNode opp = some cur) :
      VisitStep P b cur s opp (visitRejoined s opp)
  /-- The node changes its parent. -/
  | switched (parent : Asn) (ht : isTie cur s opp = true)
      (hp : s.bfsParentNode opp = some parent)
      (hw : newRouteWinsTieBreak P b.graph b.includeSibling cur opp parent = true) :
      VisitStep P b cur s opp (addToBest b cur (switchParent b cur s opp parent) opp)
  /-- The node keeps its parent and gets another next hop. -/
  | added (parent : Asn) (ht : isTie cur s opp = true)
      (hp : s.bfsParentNode opp = some parent)
      (hw : newRouteWinsTieBreak P b.graph b.includeSibling cur opp parent = false) :
      VisitStep P b cur s opp (addToBest b cur s opp)
  /-- Nothing happens at an old node that hangs elsewhere. -/
  | passed (hs : s.inProcessBfsStatus opp = .unseen)
      (ho : s.discoveredInPriorBfs opp = true) (hp : s.bfsParentNode opp ≠ some cur) :
      VisitStep P b cur s opp s
  /-- Nothing happens at a node that has a shorter route. -/
  | settled (hs : s.inProcessBfsStatus opp ≠ .unseen) (ht : isTie cur s opp = false) :
      VisitStep P b cur s opp s

/-- A visit without an exception takes one of these ways. -/
lemma visitStep_of_visitRoute (h : visitRoute P b cur s opp = some s') :
    VisitStep P b cur s opp s' := by
  unfold visitRoute at h
  split_ifs at h with h₁ h₂ h₃ h₄ h₅ h₆
  · obtain rfl := Option.some.inj h
    exact .discovered h₁ h₂ (by simpa using h₃)
  · obtain rfl := Option.some.inj h
    exact .rejoined h₁ (by simpa using h₂) h₄
  · obtain rfl := Option.some.inj h
    exact .passed h₁ (by simpa using h₂) h₄
  · split at h
    · cases h
    · next parent hp =>
      split_ifs at h with h₇ h₈
      · obtain rfl := Option.some.inj h
        exact .switched parent h₆ hp h₇
      · obtain rfl := Option.some.inj h
        exact .added parent h₆ hp (by simpa using h₇)
  · obtain rfl := Option.some.inj h
    exact .settled h₁ (by simpa using h₆)

/-- The visited node is within the tables, and the visit is a step followed by the update of
`bestNew`. -/
lemma visit_eq_some (h : visit P b cur s opp = some s') :
    opp < numASNs ∧ ∃ s₁, VisitStep P b cur s opp s₁ ∧ s' = addToBestNew b cur s₁ opp := by
  unfold visit at h
  split_ifs at h with hn
  obtain ⟨s₁, h₁, rfl⟩ := map_eq_some_iff.mp h
  exact ⟨Nat.lt_of_not_le hn, s₁, visitStep_of_visitRoute h₁, rfl⟩

lemma isTie_iff : isTie cur s opp = true ↔ s.inProcessBfsStatus opp = .seen ∧
    s.bfsDepth opp = s.bfsDepth cur + 1 ∧ s.discoveredInPriorBfs opp = false := by
  simp [isTie]

/-! ### A visit is a visit of the library -/

lemma getD_update_best (best : Asn → Option (List Asn)) (opp : Asn) (l : List Asn) :
    (fun n => (update best opp (some l) n).getD []) =
      update (fun n => (best n).getD []) opp l := by
  funext n
  by_cases h : n = opp <;> simp [h]

variable {col : ℕ}

/-- The record of a discovery, when the pass fills the column `col`. -/
lemma visitDiscovered_eq (hcol : column b.allowedRelationships = some col) :
    visitDiscovered b cur s opp =
      { inProcessBfsStatus := update s.inProcessBfsStatus opp .seen
        discoveredInPriorBfs := s.discoveredInPriorBfs
        bfsParentNode := update s.bfsParentNode opp (some cur)
        bfsDepth := update s.bfsDepth opp (s.bfsDepth cur + 1)
        bfsChildren := update s.bfsChildren cur (s.bfsChildren cur ++ [opp])
        nodeQueue := if b.limitedDiscovery then s.nodeQueue else s.nodeQueue ++ [opp]
        best := update s.best opp (some ((s.best opp).getD [] ++ [cur]))
        bestNew := update s.bestNew opp
          (some ((s.bestNew opp).getD [] ++ [encodedNeighbor b cur opp]))
        bucketTable := addToBucket s.bucketTable (s.bfsDepth cur + 1) col opp
        chosenPath :=
          update s.chosenPath opp (some (updatePath opp (s.chosenPath cur) col))
        chosenParent := update s.chosenParent opp cur
        L := update s.L opp ((s.bfsDepth cur + 1) % 256)
        bestRelation := update s.bestRelation opp col } := by
  simp [visitDiscovered, recordDiscovered, hcol]

/-- The record of a won tie-break, when the pass fills the column `col`. -/
lemma addToBest_switchParent_eq {parent : Asn} (hcol : column b.allowedRelationships = some col) :
    addToBest b cur (switchParent b cur s opp parent) opp =
      { s with
        bfsParentNode := update s.bfsParentNode opp (some cur)
        bfsChildren :=
          let children := update s.bfsChildren parent ((s.bfsChildren parent).erase opp)
          update children cur (children cur ++ [opp])
        best := update s.best opp (some ((s.best opp).getD [] ++ [cur]))
        chosenPath :=
          update s.chosenPath opp (some (updatePath opp (s.chosenPath cur) col))
        chosenParent := update s.chosenParent opp cur } := by
  simp [addToBest, switchParent, hcol]

lemma addToBest_eq : addToBest b cur s opp =
    { s with best := update s.best opp (some ((s.best opp).getD [] ++ [cur])) } := by
  simp [addToBest]

lemma toSearch_addToBestNew : (addToBestNew b cur s opp).toSearch = s.toSearch := by
  unfold addToBestNew
  split <;> rfl

/-- The steps of a visit are those of the library's visit. -/
lemma VisitStep.toSearch_eq (hcol : column b.allowedRelationships = some col)
    (h : VisitStep P b cur s opp s') :
    s'.toSearch = LevelSearch.visit (b.toRun P s.discoveredInPriorBfs) cur s.toSearch opp := by
  cases h with
  | discovered hs ho hd =>
    rw [LevelSearch.visit_discover hs ho, visitDiscovered_eq hcol]
    simp only [BfsState.toSearch, LevelSearch.discover, getD_update_best]
    rfl
  | rejoined hs ho hp =>
    rw [LevelSearch.visit_rejoin hs ho hp]
    rfl
  | switched parent ht hp hw =>
    have hwon : LevelSearch.tieWon (b.toRun P s.discoveredInPriorBfs) cur s.toSearch opp =
        true := by
      simp [LevelSearch.tieWon, hp, hw]
    rw [LevelSearch.visit_tie (isTie_iff.mp ht), addToBest_switchParent_eq hcol]
    simp only [LevelSearch.tie, hwon, if_true, LevelSearch.moveChild, toSearch_parent, hp]
    simp only [BfsState.toSearch, getD_update_best]
  | added parent ht hp hw =>
    have hlost : LevelSearch.tieWon (b.toRun P s.discoveredInPriorBfs) cur s.toSearch opp =
        false := by
      simp [LevelSearch.tieWon, hp, hw]
    rw [LevelSearch.visit_tie (isTie_iff.mp ht), addToBest_eq]
    simp only [LevelSearch.tie, hlost, Bool.false_eq_true, if_false]
    simp only [BfsState.toSearch, getD_update_best]
  | passed hs ho hp => rw [LevelSearch.visit_pass hs ho hp]
  | settled hs ht =>
    rw [LevelSearch.visit_settled hs (fun hc => by simp [isTie_iff.mpr hc] at ht)]

/-- **A visit refines the library's visit.** -/
lemma toSearch_visit (hcol : column b.allowedRelationships = some col)
    (h : visit P b cur s opp = some s') :
    s'.toSearch = LevelSearch.visit (b.toRun P s.discoveredInPriorBfs) cur s.toSearch opp := by
  obtain ⟨-, s₁, hstep, rfl⟩ := visit_eq_some h
  rw [toSearch_addToBestNew, hstep.toSearch_eq hcol]

end Visit

/-! ### The routing tables -/

/-- The routing tables mirror the search tree rooted at `d`. -/
structure Tables (d : Asn) (s : BfsState) : Prop where
  parent_root : s.bfsParentNode d = none
  best_ne_nil : ∀ n, s.best n ≠ some []
  /-- The destination is its own next hop. -/
  best_root : s.best d = some [d]
  best_iff : ∀ n, n ≠ d → (s.best n ≠ none ↔ s.bfsParentNode n ≠ none)
  chosenParent : ∀ n p, s.bfsParentNode n = some p → s.chosenParent n = p
  path_root : s.chosenPath d = some [d]
  path : ∀ n p, s.bfsParentNode n = some p → p ≠ n ∧ ∃ rest, s.chosenPath p = some (p :: rest) ∧
    s.chosenPath n = some (n :: join p (s.bestRelation n) :: rest)
  /-- Nodes without a best set have no path. -/
  path_none : ∀ n, s.best n = none → s.chosenPath n = none
  L_eq : ∀ n, s.bfsParentNode n ≠ none → s.L n = s.bfsDepth n % 256
  /-- The destination and the nodes without a route have length zero. -/
  L_zero : ∀ n, s.bfsParentNode n = none → s.L n = 0
  /-- The bucket table holds the nodes with a route by depth and column. -/
  mem_bucket : ∀ row col n, n ∈ (s.bucketTable row col).getD [] ↔
    (n = d ∧ row = 0 ∧ col = customerColumn) ∨
      (s.bfsParentNode n ≠ none ∧ s.bfsDepth n = row ∧ s.bestRelation n = col)
  bucket_nodup : ∀ row col, ((s.bucketTable row col).getD []).Nodup

/-- The state within a pass that began in the state `s₀` and fills the column `col`. -/
structure PassTables (b : BfsArgs) (col : ℕ) (s₀ s : BfsState) : Prop
    extends Tables b.srcNodeNum s where
  /-- What earlier passes have found does not change within a pass. -/
  prior_eq : s.discoveredInPriorBfs = s₀.discoveredInPriorBfs
  /-- The routes that the pass has found are in its column. -/
  relation_new : ∀ n, s₀.discoveredInPriorBfs n = false → s.bfsParentNode n ≠ none →
    s.bestRelation n = col
  relation_old : ∀ n, s₀.discoveredInPriorBfs n = true ∨ s.bfsParentNode n = none →
    s.bestRelation n = s₀.bestRelation n

/-- The cells of the bucket table after a node has been added. -/
lemma mem_addToBucket {bt : ℕ → ℕ → Option (List Asn)} {row col row' col' : ℕ} {n m : Asn} :
    m ∈ (addToBucket bt row col n row' col').getD [] ↔
      m ∈ (bt row' col').getD [] ∨ (m = n ∧ row' = row ∧ col' = col) := by
  unfold addToBucket
  by_cases hr : row' = row
  · subst hr
    by_cases hc : col' = col
    · subst hc
      simp
    · simp [hc]
  · simp [hr]

/-- Adding a node that is in no bucket does not make a cell repeat a node. -/
lemma addToBucket_nodup {bt : ℕ → ℕ → Option (List Asn)} {row col row' col' : ℕ} {n : Asn}
    (h : ∀ row col, ((bt row col).getD []).Nodup) (hn : n ∉ (bt row col).getD []) :
    ((addToBucket bt row col n row' col').getD []).Nodup := by
  unfold addToBucket
  by_cases hr : row' = row
  · subst hr
    by_cases hc : col' = col
    · subst hc
      simp only [update_self, getD_some]
      refine nodup_append.mpr ⟨h row' col', nodup_singleton n, ?_⟩
      intro a ha c hc hac
      rw [mem_singleton] at hc
      exact hn (hc ▸ hac ▸ ha)
    · simpa [hc] using h row' col'
  · simpa [hr] using h row' col'

section Preserve

variable {P : Params} {b : BfsArgs} {col : ℕ} {cur opp : Asn} {s₀ s : BfsState}

lemma Tables.exists_path {d : Asn} (h : Tables d s) {n : Asn}
    (hn : n = d ∨ s.bfsParentNode n ≠ none) : ∃ rest, s.chosenPath n = some (n :: rest) := by
  rcases hn with rfl | hn
  · exact ⟨[], h.path_root⟩
  · obtain ⟨p, hp⟩ := ne_none_iff_exists'.mp hn
    obtain ⟨-, rest, -, hpath⟩ := h.path n p hp
    exact ⟨_, hpath⟩

lemma updatePath_eq {rest : List ℕ} (hp : s.chosenPath cur = some (cur :: rest)) (hne : cur ≠ opp) :
    updatePath opp (s.chosenPath cur) col = opp :: join cur col :: rest := by
  simp [updatePath, hp, hne]

/-- Discovering a node keeps the tables in step. -/
lemma PassTables.discovered (h : PassTables b col s₀ s)
    (hcol : column b.allowedRelationships = some col)
    (hcur : cur = b.srcNodeNum ∨ s.bfsParentNode cur ≠ none) (hne : cur ≠ opp)
    (hroot : opp ≠ b.srcNodeNum) (hprior : s.discoveredInPriorBfs opp = false)
    (hopp : s.bfsParentNode opp = none) (hleaf : ∀ n, s.bfsParentNode n ≠ some opp) :
    PassTables b col s₀ (visitDiscovered b cur s opp) := by
  obtain ⟨rest, hrest⟩ := h.exists_path hcur
  have hnone : s.best opp = none := by
    by_contra hc
    exact (h.best_iff opp hroot).1 hc hopp
  rw [visitDiscovered_eq hcol, updatePath_eq hrest hne]
  refine ⟨?tables, h.prior_eq, ?relation_new, ?relation_old⟩
  case tables =>
    constructor
    case parent_root => simpa [hroot.symm] using h.parent_root
    case best_ne_nil =>
      intro n
      by_cases hn : n = opp
      · simp [hn]
      · simpa [hn] using h.best_ne_nil n
    case best_root => simpa [hroot.symm] using h.best_root
    case best_iff =>
      intro n hr
      by_cases hn : n = opp
      · simp [hn]
      · simpa [hn] using h.best_iff n hr
    case chosenParent =>
      intro n p hp
      by_cases hn : n = opp
      · simpa [hn] using hp
      · simp only [hn, ne_eq, not_false_eq_true, update_of_ne] at hp ⊢
        exact h.chosenParent n p hp
    case path_root => simpa [hroot.symm] using h.path_root
    case path =>
      intro n p hp
      by_cases hn : n = opp
      · subst hn
        simp only [update_self, Option.some.injEq] at hp
        subst hp
        exact ⟨hne, rest, by simpa [hne] using hrest, by simp⟩
      · simp only [hn, ne_eq, not_false_eq_true, update_of_ne] at hp ⊢
        have hpo : p ≠ opp := fun hc => hleaf n (hc ▸ hp)
        simpa [hpo] using h.path n p hp
    case path_none =>
      intro n hn
      by_cases ho : n = opp
      · simp [ho] at hn
      · simp only [ho, ne_eq, not_false_eq_true, update_of_ne] at hn ⊢
        exact h.path_none n hn
    case L_eq =>
      intro n hn
      by_cases ho : n = opp
      · simp [ho]
      · simp only [ho, ne_eq, not_false_eq_true, update_of_ne] at hn ⊢
        exact h.L_eq n hn
    case L_zero =>
      intro n hn
      by_cases ho : n = opp
      · simp [ho] at hn
      · simp only [ho, ne_eq, not_false_eq_true, update_of_ne] at hn ⊢
        exact h.L_zero n hn
    case mem_bucket =>
      intro row c n
      rw [mem_addToBucket, h.mem_bucket]
      by_cases ho : n = opp
      · subst ho
        simp [hopp, hroot, eq_comm]
      · simp [ho]
    case bucket_nodup =>
      intro row c
      refine addToBucket_nodup h.bucket_nodup ?_
      rw [h.mem_bucket]
      simp [hopp, hroot]
  case relation_new =>
    intro n hn hp
    by_cases ho : n = opp
    · simp [ho]
    · simp only [ho, ne_eq, not_false_eq_true, update_of_ne] at hp ⊢
      exact h.relation_new n hn hp
  case relation_old =>
    intro n hn
    by_cases ho : n = opp
    · subst ho
      rw [h.prior_eq] at hprior
      simp [hprior] at hn
    · simp only [ho, ne_eq, not_false_eq_true, update_of_ne] at hn ⊢
      exact h.relation_old n hn

/-- A new route that does not win the tie-break keeps the tables in step. -/
lemma PassTables.added (h : PassTables b col s₀ s) (hopp : s.bfsParentNode opp ≠ none)
    (hroot : opp ≠ b.srcNodeNum) : PassTables b col s₀ (addToBest b cur s opp) := by
  rw [addToBest_eq]
  refine ⟨?tables, h.prior_eq, h.relation_new, h.relation_old⟩
  case tables =>
    constructor
    case best_ne_nil =>
      intro n
      by_cases hn : n = opp
      · simp [hn]
      · simpa [hn] using h.best_ne_nil n
    case best_root => simpa [hroot.symm] using h.best_root
    case best_iff =>
      intro n hr
      by_cases hn : n = opp
      · simp [hn, hopp]
      · simpa [hn] using h.best_iff n hr
    case path_none =>
      intro n hn
      by_cases ho : n = opp
      · simp [ho] at hn
      · simp only [ho, ne_eq, not_false_eq_true, update_of_ne] at hn
        exact h.path_none n hn
    case parent_root => exact h.parent_root
    case chosenParent => exact h.chosenParent
    case path_root => exact h.path_root
    case path => exact h.path
    case L_eq => exact h.L_eq
    case L_zero => exact h.L_zero
    case mem_bucket => exact h.mem_bucket
    case bucket_nodup => exact h.bucket_nodup

/-- A new route that wins the tie-break keeps the tables in step. -/
lemma PassTables.switched {parent : Asn} (h : PassTables b col s₀ s)
    (hcol : column b.allowedRelationships = some col)
    (hcur : cur = b.srcNodeNum ∨ s.bfsParentNode cur ≠ none) (hne : cur ≠ opp)
    (hroot : opp ≠ b.srcNodeNum) (hprior : s.discoveredInPriorBfs opp = false)
    (hopp : s.bfsParentNode opp ≠ none) (hleaf : ∀ n, s.bfsParentNode n ≠ some opp) :
    PassTables b col s₀ (addToBest b cur (switchParent b cur s opp parent) opp) := by
  obtain ⟨rest, hrest⟩ := h.exists_path hcur
  have hrel : s.bestRelation opp = col := h.relation_new opp (h.prior_eq ▸ hprior) hopp
  have hparent : ∀ n, update s.bfsParentNode opp (some cur) n ≠ none ↔
      s.bfsParentNode n ≠ none := by
    intro n
    by_cases hn : n = opp
    · simp [hn, hopp]
    · simp [hn]
  have hparent' : ∀ n, update s.bfsParentNode opp (some cur) n = none ↔
      s.bfsParentNode n = none := fun n => not_iff_not.mp (hparent n)
  -- the lost tie-break changes the best set in the same way
  have hadd : PassTables b col s₀ (addToBest b cur s opp) := h.added hopp hroot
  rw [addToBest_eq] at hadd
  rw [addToBest_switchParent_eq hcol, updatePath_eq hrest hne]
  refine ⟨?tables, h.prior_eq, ?relation_new, ?relation_old⟩
  case tables =>
    constructor
    case parent_root => simpa [hroot.symm] using h.parent_root
    case best_ne_nil => exact hadd.best_ne_nil
    case best_root => exact hadd.best_root
    case best_iff => exact fun n hr => (hadd.best_iff n hr).trans (hparent n).symm
    case chosenParent =>
      intro n p hp
      by_cases hn : n = opp
      · simpa [hn] using hp
      · simp only [hn, ne_eq, not_false_eq_true, update_of_ne] at hp ⊢
        exact h.chosenParent n p hp
    case path_root => simpa [hroot.symm] using h.path_root
    case path =>
      intro n p hp
      by_cases hn : n = opp
      · subst hn
        simp only [update_self, Option.some.injEq] at hp
        subst hp
        exact ⟨hne, rest, by simpa [hne] using hrest, by simp [hrel]⟩
      · simp only [hn, ne_eq, not_false_eq_true, update_of_ne] at hp ⊢
        have hpo : p ≠ opp := fun hc => hleaf n (hc ▸ hp)
        simpa [hpo] using h.path n p hp
    case path_none =>
      intro n hn
      by_cases ho : n = opp
      · simp [ho] at hn
      · simp only [ho, ne_eq, not_false_eq_true, update_of_ne] at hn ⊢
        exact h.path_none n hn
    case L_eq => exact fun n hn => h.L_eq n ((hparent n).1 hn)
    case L_zero => exact fun n hn => h.L_zero n ((hparent' n).1 hn)
    case mem_bucket =>
      intro row c n
      rw [h.mem_bucket]
      simp only [hparent]
    case bucket_nodup => exact h.bucket_nodup
  case relation_new => exact fun n hn hp => h.relation_new n hn ((hparent n).1 hp)
  case relation_old => exact fun n hn => h.relation_old n (hn.imp_right (hparent' n).1)

variable {s' : BfsState}

/-- The tables do not depend on the fields that belong to the search alone. -/
lemma Tables.congr {d : Asn} (h : Tables d s)
    (hparent : s'.bfsParentNode = s.bfsParentNode) (hdepth : s'.bfsDepth = s.bfsDepth)
    (hbest : s'.best = s.best) (hbucket : s'.bucketTable = s.bucketTable)
    (hpath : s'.chosenPath = s.chosenPath) (hchosen : s'.chosenParent = s.chosenParent)
    (hL : s'.L = s.L) (hrel : s'.bestRelation = s.bestRelation) : Tables d s' := by
  obtain ⟨h₁, h₂, h₃, h₄, h₅, h₆, h₇, h₈, h₉, h₁₀, h₁₁, h₁₂⟩ := h
  rw [← hparent] at h₁ h₄ h₅ h₇ h₉ h₁₀ h₁₁
  rw [← hbest] at h₂ h₃ h₄ h₈
  rw [← hpath] at h₆ h₇ h₈
  rw [← hdepth] at h₉ h₁₁
  rw [← hrel] at h₇ h₁₁
  rw [← hbucket] at h₁₁ h₁₂
  rw [← hL] at h₉ h₁₀
  rw [← hchosen] at h₅
  exact ⟨h₁, h₂, h₃, h₄, h₅, h₆, h₇, h₈, h₉, h₁₀, h₁₁, h₁₂⟩

/-- Within a pass, too, the tables do not depend on the fields that belong to the search alone. -/
lemma PassTables.congr (h : PassTables b col s₀ s)
    (hprior : s'.discoveredInPriorBfs = s.discoveredInPriorBfs)
    (hparent : s'.bfsParentNode = s.bfsParentNode) (hdepth : s'.bfsDepth = s.bfsDepth)
    (hbest : s'.best = s.best) (hbucket : s'.bucketTable = s.bucketTable)
    (hpath : s'.chosenPath = s.chosenPath) (hchosen : s'.chosenParent = s.chosenParent)
    (hL : s'.L = s.L) (hrel : s'.bestRelation = s.bestRelation) : PassTables b col s₀ s' := by
  refine ⟨h.toTables.congr hparent hdepth hbest hbucket hpath hchosen hL hrel,
    hprior.trans h.prior_eq, ?_, ?_⟩
  · rw [hparent, hrel]
    exact h.relation_new
  · rw [hparent, hrel]
    exact h.relation_old

lemma PassTables.addToBestNew (h : PassTables b col s₀ s) :
    PassTables b col s₀ (addToBestNew b cur s opp) := by
  unfold Astoria.addToBestNew
  split
  · exact h
  · exact h.congr rfl rfl rfl rfl rfl rfl rfl rfl rfl

/-- **Step lemma.**  When the search invariant holds, a visit keeps the tables in step. -/
lemma PassTables.visit {a₀ : State Asn} {done : List Asn} {ed td : Asn → Asn → Prop}
    (h : PassTables b col s₀ s) (hcol : column b.allowedRelationships = some col)
    (hst : Started (b.toRun P s.discoveredInPriorBfs) a₀)
    (hinv : Inv (b.toRun P s.discoveredInPriorBfs) a₀ done [cur] ed td s.toSearch)
    (hv : Astoria.visit P b cur s opp = some s') : PassTables b col s₀ s' := by
  obtain ⟨-, s₁, hstep, rfl⟩ := visit_eq_some hv
  refine PassTables.addToBestNew ?_
  have hseen : s.inProcessBfsStatus cur = .seen := hinv.cur_seen
  have hcur : cur = b.srcNodeNum ∨ s.bfsParentNode cur ≠ none := by
    by_cases hr : cur = b.srcNodeNum
    · exact .inl hr
    · exact .inr (hinv.parent_ne_none hst (by simp [hseen]) hr)
  cases hstep with
  | discovered hs ho hd =>
    have hroot : opp ≠ b.srcNodeNum := fun hc => hinv.root_seen (by rw [← hs, hc]; rfl)
    have hfix : ¬ (b.toRun P s.discoveredInPriorBfs).Fixed opp := by
      simp [LevelSearch.Run.Fixed, ho, hroot]
    have hne : cur ≠ opp := fun hc => by simp [← hc, hseen] at hs
    exact h.discovered hcol hcur hne hroot ho (hinv.unseen_records hs hfix).2
      (hinv.parent_ne_some hst hfix (by simp [hs]) hne.symm)
  | rejoined hs ho hp => exact h.congr rfl rfl rfl rfl rfl rfl rfl rfl rfl
  | switched parent ht hp hw =>
    obtain ⟨hs, hd, ho⟩ := isTie_iff.mp ht
    have hroot : opp ≠ b.srcNodeNum := by
      rintro rfl
      have := (hinv.root hst).2
      simp only [toRun_root, toSearch_depth] at this
      omega
    have hfix : ¬ (b.toRun P s.discoveredInPriorBfs).Fixed opp := by
      simp [LevelSearch.Run.Fixed, ho, hroot]
    have hne : cur ≠ opp := fun hc => by simp [← hc] at hd
    exact h.switched hcol hcur hne hroot ho (by simp [hp])
      (hinv.parent_ne_some hst hfix (by simp [hs]) hne.symm)
  | added parent ht hp hw =>
    have hroot : opp ≠ b.srcNodeNum := by
      rintro rfl
      rw [h.parent_root] at hp
      cases hp
    exact h.added (by simp [hp]) hroot
  | passed hs ho hp => exact h
  | settled hs ht => exact h

end Preserve

end Astoria
