import Astoria.BgpSim.InsecurePaths

/-!
# Array bounds

Which indices the simulator uses.  The visits of a pass (`LoopVisits`) index the tables with the AS
numbers of the two nodes and, when a node is new, the bucket table with its depth; a recomputation
indexes them with the nodes of the bucket table, with the members of their best sets and with the
chosen parents (`UpdateInRange`).  In the model every such index outside its array is an exception;
here we show that, conversely, the search has no other exceptions, and say on the graph when all
indices are in range (`initAndUpdateInRange_iff`).
-/

namespace Astoria

open List Option
open LevelSearch (Inv Started)

/-- A monadic fold returns exactly when every step that is reached returns. -/
lemma foldlM_isSome_iff {σ α : Type} {f : σ → α → Option σ} {l : List α} {s : σ} :
    (∃ s', l.foldlM f s = some s') ↔ ∀ l₁ a l₂ s', l = l₁ ++ a :: l₂ → l₁.foldlM f s = some s' →
      ∃ s'', f s' a = some s'' := by
  induction l generalizing s with
  | nil => simp
  | cons b l ih =>
    simp only [foldlM_cons, bind_eq_bind, bind_eq_some_iff]
    constructor
    · rintro ⟨s', s₁, hs₁, hs'⟩ l₁ a l₂ t hl ht
      cases l₁ with
      | nil =>
        obtain ⟨rfl, rfl⟩ := List.cons.inj hl
        obtain rfl := some.inj ht
        exact ⟨s₁, hs₁⟩
      | cons c l₁ =>
        obtain ⟨rfl, rfl⟩ := List.cons.inj hl
        simp only [foldlM_cons, hs₁, bind_eq_bind, bind_some] at ht
        exact ih.1 ⟨s', hs'⟩ l₁ a l₂ t rfl ht
    · intro h
      obtain ⟨s₁, hs₁⟩ := h [] b l s rfl rfl
      obtain ⟨s', hs'⟩ := (ih (s := s₁)).2 fun l₁ a l₂ t hl ht =>
        h (b :: l₁) a l₂ t (by rw [hl]; rfl) (by simp [hs₁, ht])
      exact ⟨s', s₁, hs₁, hs'⟩

/-! ### The visits of a pass -/

/-- When `cur` is examined in the state `s`, the node `opp` is met in the state `s'`. -/
inductive ExamineVisits (P : Params) (b : BfsArgs) (s : BfsState) (cur : Asn) :
    BfsState → Asn → Prop
  /-- A neighbour. -/
  | neighbor {l r : List Asn} {opp : Asn} {s' : BfsState}
      (hl : visitedNeighbors b cur = l ++ opp :: r) (h : l.foldlM (visit P b cur) s = some s') :
      ExamineVisits P b s cur s' opp
  | child {l r : List Asn} {opp : Asn} {s₁ s' : BfsState}
      (h₁ : (visitedNeighbors b cur).foldlM (visit P b cur) s = some s₁)
      (hl : visitedChildren b cur s₁ = l ++ opp :: r)
      (h : l.foldlM (visitChild P b cur) s₁ = some s') : ExamineVisits P b s cur s' opp

/-- When the queue of `s` is worked off, the node `opp` is met from `cur` in the state `s'`. -/
inductive LoopVisits (P : Params) (b : BfsArgs) : BfsState → Asn → BfsState → Asn → Prop
  /-- From the first node of the queue. -/
  | here {s s' : BfsState} {cur opp : Asn} {queue : List Asn} (hq : s.nodeQueue = cur :: queue)
      (h : ExamineVisits P b { s with nodeQueue := queue } cur s' opp) : LoopVisits P b s cur s' opp
  /-- From a later node. -/
  | later {s s₁ s' : BfsState} {first cur opp : Asn} {queue : List Asn}
      (hq : s.nodeQueue = first :: queue)
      (h₁ : examine P b { s with nodeQueue := queue } first = some s₁)
      (h : LoopVisits P b s₁ cur s' opp) : LoopVisits P b s cur s' opp

/-- The indices of a visit: the two nodes, and the depth of a new node. -/
def VisitInRange (s : BfsState) (cur opp : Asn) : Prop :=
  cur < numASNs ∧ opp < numASNs ∧ (s.inProcessBfsStatus opp = .unseen →
    s.discoveredInPriorBfs opp = false → s.bfsDepth cur + 1 < maxPathLen)

/-- A pass from the state `s` uses no index outside the tables. -/
def PassInRange (P : Params) (b : BfsArgs) (s : BfsState) : Prop :=
  b.srcNodeNum < numASNs ∧ ∀ cur s' opp, LoopVisits P b (visitSource b s) cur s' opp →
    VisitInRange s' cur opp

/-- The routing algorithm uses no index outside the tables. -/
def RoutingInRange (P : Params) (g : NetworkGraph) (d : Asn) : Prop :=
  PassInRange P (customerPass g d) BfsState.initial ∧
    ∀ s₁, executeBfs P (customerPass g d) BfsState.initial = some s₁ →
      PassInRange P (peerPass g d) s₁ ∧
        ∀ s₂, executeBfs P (peerPass g d) s₁ = some s₂ → PassInRange P (providerPass g d) s₂

section Visits

variable {P : Params} {b : BfsArgs} {col : ℕ} {s₀ : BfsState} {a₀ : LevelSearch.State Asn}
  {done : List Asn} {cur : Asn} {s : BfsState}

/-- A state in which a neighbour or a child of `cur` is met. -/
structure Midway (P : Params) (b : BfsArgs) (col : ℕ) (s₀ : BfsState) (a₀ : LevelSearch.State Asn)
    (done : List Asn) (cur : Asn) (s : BfsState) : Prop where
  /-- The tables are in step with the tree. -/
  tables : PassTables b col s₀ s
  /-- What has been met fits the tables. -/
  fits : Fits s.toSearch
  /-- The invariant of the search holds, whatever has been visited. -/
  inv : ∃ ed td, Inv (b.toRun P s₀.discoveredInPriorBfs) a₀ done [cur] ed td s.toSearch

/-- A visit returns exactly when its indices are in range. -/
lemma Midway.visit_isSome_iff (h : Midway P b col s₀ a₀ done cur s)
    (hcol : column b.allowedRelationships = some col)
    (hst : Started (b.toRun P s₀.discoveredInPriorBfs) a₀) (opp : Asn) :
    (∃ s', visit P b cur s opp = some s') ↔ VisitInRange s cur opp := by
  obtain ⟨htab, hfits, ed, td, hinv⟩ := h
  have hcur : cur < numASNs := (hfits cur (by simp [hinv.cur_seen])).1
  rw [← htab.prior_eq] at hst hinv
  constructor
  · rintro ⟨s', hs'⟩
    obtain ⟨hlt, s₁, hstep, -⟩ := visit_eq_some hs'
    refine ⟨hcur, hlt, fun hs ho => ?_⟩
    cases hstep with
    | discovered _ _ hd => exact hd (by simp [hcol])
    | rejoined _ ho' _ => simp [ho] at ho'
    | switched _ ht _ _ => simp [isTie_iff.mp ht] at hs
    | added _ ht _ _ => simp [isTie_iff.mp ht] at hs
    | passed _ ho' _ => simp [ho] at ho'
    | settled hs' _ => exact absurd hs hs'
  · rintro ⟨-, hlt, hdepth⟩
    refine ne_none_iff_exists'.mp fun hnone => ?_
    rcases outOfRange_of_visit hst hinv hnone with hle | ⟨hs, ho, hle⟩
    · exact absurd hlt (not_lt.mpr hle)
    · exact absurd (hdepth hs ho) (not_lt.mpr hle)

variable (hcol : column b.allowedRelationships = some col)
  (hold : ∀ n, (b.toRun P s₀.discoveredInPriorBfs).Fixed n → n < numASNs ∧ a₀.depth n < maxPathLen)
  (hst : Started (b.toRun P s₀.discoveredInPriorBfs) a₀)

include hcol hold hst in
/-- Visiting the beginning of a list leads to a state midway. -/
lemma midway_foldlM {f : BfsState → Asn → Option BfsState} {l : List Asn} {s' : BfsState}
    {ed td : Asn → Asn → Prop} (htab : PassTables b col s₀ s) (hfits : Fits s.toSearch)
    (hinv : Inv (b.toRun P s₀.discoveredInPriorBfs) a₀ done [cur] ed td s.toSearch)
    (hf : ∀ opp ∈ l, ∀ s, Midway P b col s₀ a₀ done cur s → f s opp = visit P b cur s opp)
    (hl : ∀ n ∈ l, n ∈ b.graph.asNodes) (hnd : l.Nodup)
    (hed : ∀ n ∈ l, (b.toRun P s₀.discoveredInPriorBfs).Fixed n ∨ ¬ ed cur n)
    (h : l.foldlM f s = some s') : Midway P b col s₀ a₀ done cur s' := by
  induction l generalizing s ed td with
  | nil =>
    obtain rfl := some.inj h
    exact ⟨htab, hfits, ed, td, hinv⟩
  | cons opp l ih =>
    rw [nodup_cons] at hnd
    simp only [foldlM_cons, hf opp (by simp) s ⟨htab, hfits, ed, td, hinv⟩, bind_eq_bind,
      bind_eq_some_iff] at h
    obtain ⟨s₁, hs₁, h⟩ := h
    have hsim : Simulates (PassTables b col s₀) (visit P b cur s opp)
        (LevelSearch.visit (b.toRun P s₀.discoveredInPriorBfs) cur s.toSearch opp) :=
      simulates_visit htab hcol hold hst hinv hfits
    rw [hs₁] at hsim
    obtain ⟨hto, htab₁, hfits₁⟩ := hsim
    have hinv₁ := hinv.visit (hl opp (by simp)) hst (hed opp (by simp))
    rw [← hto] at hinv₁ hfits₁
    refine ih htab₁ hfits₁ hinv₁ (fun o ho => hf o (mem_cons_of_mem _ ho))
      (fun n hn => hl n (mem_cons_of_mem _ hn)) hnd.2 (fun n hn => ?_) h
    have hne : n ≠ opp := fun hc => hnd.1 (hc ▸ hn)
    simpa [LevelSearch.addPair, hne] using hed n (mem_cons_of_mem _ hn)

/-- The neighbours of `cur` can be visited from `s`. -/
structure ExamineReady (P : Params) (b : BfsArgs) (col : ℕ) (s₀ : BfsState)
    (a₀ : LevelSearch.State Asn) (done : List Asn) (cur : Asn) (s : BfsState) : Prop where
  /-- The tables are in step with the tree. -/
  tables : PassTables b col s₀ s
  /-- What has been met fits the tables. -/
  fits : Fits s.toSearch
  /-- `cur` has not been examined before. -/
  not_done : cur ∉ done
  /-- The invariant of the search holds. -/
  inv : Inv (b.toRun P s₀.discoveredInPriorBfs) a₀ done [cur]
    (LevelSearch.doneEdges (b.toRun P s₀.discoveredInPriorBfs) done)
    (fun p _ => p ∈ done) s.toSearch

include hcol hold hst in
/-- The states in which the neighbours of `cur` are met. -/
lemma ExamineReady.midway_neighbor (h : ExamineReady P b col s₀ a₀ done cur s) {l r : List Asn}
    {s' : BfsState} (hl : visitedNeighbors b cur = l ++ r)
    (hs' : l.foldlM (visit P b cur) s = some s') : Midway P b col s₀ a₀ done cur s' := by
  have hnd : (l ++ r).Nodup := hl ▸ LevelSearch.nodup_eraseDups _
  refine midway_foldlM hcol hold hst h.tables h.fits h.inv (fun _ _ _ _ => rfl) (fun n hn => ?_)
    (nodup_append.mp hnd).1 (fun n _ => .inr fun hc => h.not_done hc.1) hs'
  have hmem : n ∈ visitedNeighbors b cur := by
    rw [hl]
    exact mem_append_left r hn
  exact NetworkGraph.mem_asNodes_of_mem_getNeighborsByType (mem_eraseDups.mp hmem)

include hcol hold hst in
/-- The states in which the children of `cur` are met, and that they are met as neighbours are. -/
lemma ExamineReady.midway_child (h : ExamineReady P b col s₀ a₀ done cur s)
    (hflags : b.allowedRelationships ≠ []) {s₁ : BfsState}
    (hs₁ : (visitedNeighbors b cur).foldlM (visit P b cur) s = some s₁) :
    (∀ opp ∈ visitedChildren b cur s₁, ∀ s', Midway P b col s₀ a₀ done cur s' →
      visitChild P b cur s' opp = visit P b cur s' opp) ∧
    ∀ l r s', visitedChildren b cur s₁ = l ++ r → l.foldlM (visitChild P b cur) s₁ = some s' →
      Midway P b col s₀ a₀ done cur s' := by
  have hmem : ∀ n ∈ visitedNeighbors b cur, n ∈ b.graph.asNodes := fun n hn =>
    NetworkGraph.mem_asNodes_of_mem_getNeighborsByType (mem_eraseDups.mp hn)
  have hed : ∀ n ∈ visitedNeighbors b cur, (b.toRun P s₀.discoveredInPriorBfs).Fixed n ∨
      ¬ LevelSearch.doneEdges (b.toRun P s₀.discoveredInPriorBfs) done cur n :=
    fun n _ => .inr fun hc => h.not_done hc.1
  have hsim := simulates_foldlM hcol hold hst (visit P b cur) (visitedNeighbors b cur)
    (fun _ _ _ _ _ _ _ => rfl) hmem (LevelSearch.nodup_eraseDups _) _ _ h.tables h.inv hed h.fits
  rw [hs₁] at hsim
  obtain ⟨hto, htab, hfits⟩ := hsim
  have hinv := Inv.foldl_visit hst (visitedNeighbors b cur) _ _ h.inv hmem
    (LevelSearch.nodup_eraseDups _) hed
  rw [← hto] at hinv hfits
  -- the children that remain are old ones
  have hfix : ∀ n ∈ visitedChildren b cur s₁, (b.toRun P s₀.discoveredInPriorBfs).Fixed n := by
    intro n hn
    rw [visitedChildren_eq (P := P) hflags s₀.discoveredInPriorBfs] at hn
    refine hinv.remainingChildren_fixed ?_ hn
    rintro n (hc | hc)
    · exact absurd hc.1 h.not_done
    · exact hc.2
  have hchild : ∀ opp ∈ visitedChildren b cur s₁, ∀ s', Midway P b col s₀ a₀ done cur s' →
      visitChild P b cur s' opp = visit P b cur s' opp := by
    rintro opp hopp s' ⟨htab', -, ed, td, hinv'⟩
    exact visitChild_eq_visit htab'.prior_eq hst hinv' (hfix opp hopp)
  refine ⟨hchild, fun l r s' hl hs' => ?_⟩
  have hsub : ∀ n ∈ l, n ∈ visitedChildren b cur s₁ := by
    intro n hn
    rw [hl]
    exact mem_append_left r hn
  have hnd : (l ++ r).Nodup := by
    rw [← hl, visitedChildren, if_neg hflags]
    exact LevelSearch.nodup_eraseDups _
  exact midway_foldlM hcol hold hst htab hfits hinv (fun o ho => hchild o (hsub o ho))
    (fun n hn => hst.fixed_mem n (hfix n (hsub n hn))) (nodup_append.mp hnd).1
    (fun n hn => .inl (hfix n (hsub n hn))) hs'

include hcol hold hst in
/-- A node is examined without an exception exactly when all indices are in range. -/
lemma ExamineReady.examine_isSome_iff (h : ExamineReady P b col s₀ a₀ done cur s)
    (hflags : b.allowedRelationships ≠ []) : (∃ s', examine P b s cur = some s') ↔
      ∀ s' opp, ExamineVisits P b s cur s' opp → VisitInRange s' cur opp := by
  have hexamine : (∃ s', examine P b s cur = some s') ↔
      ∃ s₁, (visitedNeighbors b cur).foldlM (visit P b cur) s = some s₁ ∧
        ∃ s₂, (visitedChildren b cur s₁).foldlM (visitChild P b cur) s₁ = some s₂ := by
    simp only [examine, bind_eq_bind, bind_eq_some_iff, Option.pure_def,
      Option.some.injEq]
    constructor
    · rintro ⟨-, s₁, h₁, s₂, h₂, -⟩
      exact ⟨s₁, h₁, s₂, h₂⟩
    · rintro ⟨s₁, h₁, s₂, h₂⟩
      exact ⟨_, s₁, h₁, s₂, h₂, rfl⟩
  rw [hexamine]
  constructor
  · rintro ⟨s₁, h₁, s₂, h₂⟩ s' opp hv
    cases hv with
    | @neighbor l r _ _ hl hs' =>
      rw [← (h.midway_neighbor hcol hold hst hl hs').visit_isSome_iff hcol hst opp]
      exact foldlM_isSome_iff.1 ⟨s₁, h₁⟩ l opp r s' hl hs'
    | @child l r _ s₁' _ h₁' hl hs' =>
      obtain rfl : s₁' = s₁ := some.inj (h₁'.symm.trans h₁)
      obtain ⟨hchild, hmid⟩ := h.midway_child hcol hold hst hflags h₁
      have hm := hmid l _ s' hl hs'
      rw [← hm.visit_isSome_iff hcol hst opp, ← hchild opp (by simp [hl]) s' hm]
      exact foldlM_isSome_iff.1 ⟨s₂, h₂⟩ l opp r s' hl hs'
  · intro hall
    obtain ⟨s₁, h₁⟩ := foldlM_isSome_iff.2 fun l opp r s' hl hs' =>
      ((h.midway_neighbor hcol hold hst hl hs').visit_isSome_iff hcol hst opp).2
        (hall s' opp (.neighbor hl hs'))
    obtain ⟨hchild, hmid⟩ := h.midway_child hcol hold hst hflags h₁
    refine ⟨s₁, h₁, foldlM_isSome_iff.2 fun l opp r s' hl hs' => ?_⟩
    have hm := hmid l _ s' hl hs'
    rw [hchild opp (by simp [hl]) s' hm, hm.visit_isSome_iff hcol hst opp]
    exact hall s' opp (.child h₁ hl hs')

include hcol hold hst in
/-- The queue is worked off without an exception exactly when all indices are in range. -/
lemma loop_isSome_iff (hflags : b.allowedRelationships ≠ []) (fuel : ℕ) {s : BfsState}
    {done : List Asn} (htab : PassTables b col s₀ s)
    (hinv : Inv (b.toRun P s₀.discoveredInPriorBfs) a₀ done []
      (LevelSearch.doneEdges (b.toRun P s₀.discoveredInPriorBfs) done) (fun p _ => p ∈ done)
      s.toSearch)
    (hfits : Fits s.toSearch) (hfuel : b.graph.asNodes.length ≤ done.length + fuel) :
    (∃ s', loop P b fuel s = some s') ↔
      ∀ cur s' opp, LoopVisits P b s cur s' opp → VisitInRange s' cur opp := by
  induction fuel generalizing s done with
  | zero =>
    have hlen := hinv.length_le
    have hq : s.nodeQueue = [] := by
      refine eq_nil_of_length_eq_zero ?_
      simp only [toSearch_queue, toRun_nodes] at hlen
      omega
    refine ⟨fun _ cur s' opp hv => ?_, fun _ => ⟨s, by unfold loop; rw [hq]⟩⟩
    cases hv with
    | here hq' _ => simp [hq] at hq'
    | later hq' _ _ => simp [hq] at hq'
  | succ fuel ih =>
    unfold loop
    cases hq : s.nodeQueue with
    | nil =>
      refine ⟨fun _ cur s' opp hv => ?_, fun _ => ⟨s, rfl⟩⟩
      cases hv with
      | here hq' _ => simp [hq] at hq'
      | later hq' _ _ => simp [hq] at hq'
    | cons first queue =>
      have hnot : first ∉ done := by
        have hnd := hinv.nodup
        rw [toSearch_queue, hq, append_nil, nodup_append] at hnd
        exact fun hc => hnd.2.2 first hc first (by simp) rfl
      have hready : ExamineReady P b col s₀ a₀ done first { s with nodeQueue := queue } :=
        ⟨htab.congr rfl rfl rfl rfl rfl rfl rfl rfl rfl, hfits, hnot, hinv.dequeue hq⟩
      -- the rest of the queue is worked off from a state in which the invariants hold again
      have hrest : ∀ s₁, examine P b { s with nodeQueue := queue } first = some s₁ →
          ((∃ s', loop P b fuel s₁ = some s') ↔
            ∀ cur s' opp, LoopVisits P b s₁ cur s' opp → VisitInRange s' cur opp) := by
        intro s₁ hs₁
        have hsim := simulates_examine hcol hflags hold hst hready.tables hnot hready.inv hfits
        rw [hs₁] at hsim
        obtain ⟨hto, htab₁, hfits₁⟩ := hsim
        have hinv₁ := hinv.examine hst hq
        have hto' : LevelSearch.examine (b.toRun P s₀.discoveredInPriorBfs)
            { s.toSearch with queue := queue } first = s₁.toSearch := hto.symm
        rw [hto'] at hinv₁
        rw [← hto] at hfits₁
        exact ih htab₁ hinv₁ hfits₁ (by rw [length_append, length_singleton]; omega)
      have hexamine := hready.examine_isSome_iff hcol hold hst hflags
      constructor
      · rintro ⟨s', hs'⟩ cur t opp hv
        obtain ⟨s₁, hs₁, hs'⟩ := bind_eq_some_iff.mp hs'
        cases hv with
        | here hq' h =>
          obtain ⟨rfl, rfl⟩ := List.cons.inj (hq.symm.trans hq')
          exact hexamine.1 ⟨s₁, hs₁⟩ t opp h
        | later hq' h₁ h =>
          obtain ⟨rfl, rfl⟩ := List.cons.inj (hq.symm.trans hq')
          obtain rfl := some.inj (hs₁.symm.trans h₁)
          exact (hrest _ hs₁).1 ⟨s', hs'⟩ cur t opp h
      · intro hall
        obtain ⟨s₁, hs₁⟩ := hexamine.2 fun t opp h => hall first t opp (.here hq h)
        obtain ⟨s', hs'⟩ := (hrest s₁ hs₁).2 fun cur t opp h => hall cur t opp (.later hq hs₁ h)
        exact ⟨s', by simp [hs₁, hs']⟩

end Visits

/-! ### The passes of the routing algorithm -/

section Routing

variable {P : Params} {g : NetworkGraph} {d : Asn}

/-- A pass returns exactly when all indices are in range. -/
lemma PassReady.inRange_iff {b : BfsArgs} {col : ℕ} {s : BfsState} (h : PassReady b col s) :
    PassInRange P b s ↔ ∃ s', executeBfs P b s = some s' := by
  unfold PassInRange executeBfs
  by_cases hlt : b.srcNodeNum < numASNs
  · rw [if_neg (not_or.mpr ⟨not_not.mpr h.mem_nodes, not_le.mpr hlt⟩)]
    obtain ⟨hst, hinv, hfixed, hpass, hfits⟩ := h.start (P := P) hlt
    have hloop : (∃ s', loop P b b.graph.asNodes.length (visitSource b s) = some s') ↔
        ∀ cur s' opp, LoopVisits P b (visitSource b s) cur s' opp → VisitInRange s' cur opp := by
      refine loop_isSome_iff h.column_eq ?_ ?_ h.flags_ne_nil _ hpass hinv hfits (by simp)
      · exact hfixed
      · exact hst
    simp only [hlt, true_and, ← hloop, map_eq_some_iff]
    exact ⟨fun ⟨s', hs'⟩ => ⟨_, s', hs', rfl⟩, fun ⟨_, s', hs', _⟩ => ⟨s', hs'⟩⟩
  · rw [if_pos (.inr (not_lt.mp hlt))]
    simp [hlt]

/-- The routing algorithm returns exactly when all indices are in range. -/
lemma routingInRange_iff (hd : d ∈ g.asNodes) :
    RoutingInRange P g d ↔ ∃ s, routingTreeAlg P g d = some s := by
  have hfirst := (passReady_initial hd).inRange_iff (P := P)
  have hsecond : ∀ s₁, executeBfs P (customerPass g d) BfsState.initial = some s₁ →
      BetweenPasses g d (customerSearch P g d) s₁ := fun s₁ h₁ =>
    ((executeBfs_spec (passReady_initial hd)).1 s₁ h₁).between
  have hthird : ∀ s₁ s₂, executeBfs P (customerPass g d) BfsState.initial = some s₁ →
      executeBfs P (peerPass g d) s₁ = some s₂ → BetweenPasses g d (peerSearch P g d) s₂ := by
    intro s₁ s₂ h₁ h₂
    rw [peerSearch, ← BetweenPasses.search_eq (b := peerPass g d) (hsecond s₁ h₁)]
    exact ((executeBfs_spec ((hsecond s₁ h₁).peerPass_ready hd)).1 s₂ h₂).between
  simp only [RoutingInRange, routingTreeAlg, bind_eq_bind, bind_eq_some_iff]
  constructor
  · rintro ⟨r₁, hrest⟩
    obtain ⟨s₁, h₁⟩ := hfirst.1 r₁
    obtain ⟨r₂, hrest⟩ := hrest s₁ h₁
    obtain ⟨s₂, h₂⟩ := ((hsecond s₁ h₁).peerPass_ready hd).inRange_iff.1 r₂
    obtain ⟨s, h₃⟩ := ((hthird s₁ s₂ h₁ h₂).providerPass_ready hd).inRange_iff.1 (hrest s₂ h₂)
    exact ⟨s, s₁, h₁, s₂, h₂, h₃⟩
  · rintro ⟨s, s₁, h₁, s₂, h₂, h₃⟩
    refine ⟨hfirst.2 ⟨s₁, h₁⟩, fun s₁' h₁' => ?_⟩
    obtain rfl := some.inj (h₁.symm.trans h₁')
    refine ⟨((hsecond s₁ h₁).peerPass_ready hd).inRange_iff.2 ⟨s₂, h₂⟩, fun s₂' h₂' => ?_⟩
    obtain rfl := some.inj (h₂.symm.trans h₂')
    exact ((hthird s₁ s₂ h₁ h₂).providerPass_ready hd).inRange_iff.2 ⟨s, h₃⟩

end Routing

/-! ### Recomputations -/

/-- A recomputation for `S` uses no index outside the arrays: neither for the destinations, nor for
the node of an entry of the bucket table that is reached, the members of its best set and the parent
that is chosen for it. -/
def UpdateInRange (P : Params) (S : Asn → Bool) (D : Destination) : Prop :=
  (∀ n ∈ (D.bucketTable 0 customerColumn).getD [], n < numASNs) ∧
    ∀ D₁ l e r D', updateDestinations S D = some D₁ → D₁.bucketNodes 1 = l ++ e :: r →
      l.foldlM (fun D e => updateNode P S D e.2.1 e.2.2) D₁ = some D' →
      e.1 < maxPathLen ∧ e.2.2 < numASNs ∧ (∀ p ∈ D'.bestSet e.2.2, p < numASNs) ∧
        tieBreak P (tieBreakSet (S e.2.2) D'.secP (D'.bestSet e.2.2)) e.2.2 < numASNs

section Update

variable {P : Params} {g : NetworkGraph} {S : Asn → Bool} {T : RouteTables}

/-- Choosing anew changes no tables. -/
lemma toRouteTables_foldlM_updateNode {l : List (ℕ × ℕ × Asn)} {D D' : Destination}
    (h : l.foldlM (fun D e => updateNode P S D e.2.1 e.2.2) D = some D') :
    D'.toRouteTables = D.toRouteTables := by
  induction l generalizing D with
  | nil => rw [some.inj h]
  | cons e l ih =>
    simp only [foldlM_cons, bind_eq_bind, bind_eq_some_iff] at h
    obtain ⟨D₁, h₁, h⟩ := h
    rw [ih h]
    unfold updateNode at h₁
    split at h₁
    · cases h₁
    · dsimp only at h₁
      split_ifs at h₁
      rw [← some.inj h₁]

/-- A recomputation returns exactly when all indices are in range. -/
lemma ValidTables.updateInRange_iff {D : Destination} (hv : ValidTables P g D.toRouteTables) :
    UpdateInRange P S D ↔ ∃ D', updatePaths P S D = some D' := by
  have hroot : ∀ n ∈ (D.bucketTable 0 customerColumn).getD [], n < numASNs := by
    intro n hn
    rw [hv.bucket_root, getD_some, mem_singleton] at hn
    exact hn ▸ (hv.lt D.destination (by simp [hv.best_root])).1
  have hstep : ∀ l e r D', D.bucketNodes 1 = l ++ e :: r →
      l.foldlM (fun D e => updateNode P S D e.2.1 e.2.2)
        (D.withRoutes (startRoutes D.toRouteTables S D.route)) = some D' →
      ((e.1 < maxPathLen ∧ e.2.2 < numASNs ∧ (∀ p ∈ D'.bestSet e.2.2, p < numASNs) ∧
        tieBreak P (tieBreakSet (S e.2.2) D'.secP (D'.bestSet e.2.2)) e.2.2 < numASNs) ↔
      ∃ D'', updateNode P S D' e.2.1 e.2.2 = some D'') := by
    intro l e r D' hl hD'
    have htab : D'.toRouteTables = D.toRouteTables :=
      (toRouteTables_foldlM_updateNode hD').trans rfl
    -- the entry is a node with a route
    obtain ⟨hne, hb, -, hrow, -⟩ :=
      (hv.mem_bucketNodes (le_refl 1) (e := e)).1 (by rw [hl]; simp)
    obtain ⟨hlt, hL, -⟩ := hv.lt e.2.2 hb
    have hparents : ∀ p ∈ D'.bestSet e.2.2, p < numASNs := by
      intro p hp
      rw [htab] at hp
      exact (hv.lt p (hv.parent e.2.2 hne p hp).1).1
    obtain ⟨ps, hps⟩ := ne_none_iff_exists'.mp hb
    have hps' : D'.best e.2.2 = some ps := by
      rw [htab]
      exact hps
    simp only [updateNode, hps', RouteTables.bestSet, getD_some] at hparents ⊢
    simp only [hrow, hL, hlt, true_and]
    constructor
    · rintro ⟨-, hpar⟩
      rw [if_neg (not_le.mpr hpar)]
      exact ⟨_, rfl⟩
    · rintro ⟨D'', h⟩
      refine ⟨hparents, ?_⟩
      split_ifs at h with hc
      exact not_le.mp hc
  rw [UpdateInRange, and_iff_right hroot, updatePaths, hv.updateDestinations_eq, bind_some,
    foldlM_isSome_iff]
  constructor
  · intro h l e r D' hl hD'
    exact (hstep l e r D' hl hD').1 (h _ l e r D' rfl hl hD')
  · intro h D₁ l e r D' hD₁ hl hD'
    obtain rfl := some.inj hD₁
    exact (hstep l e r D' hl hD').2 (h l e r D' hl hD')

/-- Whoever has to choose among parents can choose for all deployment vectors only if no parent has
the largest key: the vector can be such that this parent alone has a secure path. -/
lemma ValidTables.forall_canChoose_iff (hv : ValidTables P g T) {i : Asn} (hi : T.best i ≠ none)
    (hne : i ≠ T.destination) : (∀ S, CanChoose P T S i) ↔
      ∀ p ∈ T.bestSet i, tieBreakKey P i p ≠ uint32Max := by
  refine ⟨fun h p hp hkey => ?_, fun h S => hv.canChoose hi hne h⟩
  obtain ⟨hpon, hpL⟩ := hv.parent i hne p hp
  obtain ⟨path, hpath⟩ := hv.graded.exists_path hpon
  have hsec : HasSecurePath T (fun a => decide (a ∈ i :: path)) p :=
    ⟨path, hpath, fun a ha => by simp [ha]⟩
  obtain ⟨q, hq, hqkey, hqsec⟩ := h fun a => decide (a ∈ i :: path)
  obtain ⟨l, hl, hS⟩ := hqsec (by simp) ⟨p, hp, hsec⟩
  obtain ⟨-, hqL⟩ := hv.parent i hne q hq
  obtain ⟨l', rfl⟩ := hl.exists_cons
  have hmem : q ∈ i :: path := by simpa using hS q (by simp)
  -- on the path, only `p` is as long as `q`
  refine hqkey ?_
  have hqp : q = p := by
    rcases mem_cons.mp hmem with rfl | hmem
    · omega
    · cases hpath with
      | root => exact mem_singleton.mp hmem
      | @step _ p' l₁ hp' hpar hl₁ =>
        rcases mem_cons.mp hmem with rfl | hmem
        · rfl
        · obtain ⟨hon', hL'⟩ := hv.parent p hp' p' hpar
          have := (hv.graded.mem_path hon' hl₁ hmem).2
          omega
  rw [hqp, hkey]

end Update

/-! ### The reader, the routing algorithm and the recomputations -/

/-- The node chooses among fewer parents than the routing algorithm has found: it is a stub, and
stubs ignore security. -/
def IsCutStub (P : Params) (g : NetworkGraph) (n : Asn) : Prop :=
  P.stubsDontCare = true ∧ n ∈ g.asNodes ∧ g.isStub n = true ∧ n ∉ big5List

/-- The initialisation of the destination `d` and all recomputations that follow it use no index
outside the arrays. -/
def InitAndUpdateInRange (P : Params) (g : NetworkGraph) (d : Asn) (readOnly : Bool) : Prop :=
  RoutingInRange P (searchedGraph g readOnly) d ∧
    ∀ m, initMiniDestination P g d readOnly = some m →
      (∀ row col n, n ∈ (m.bucketTable row col).getD [] → row < maxPathLen ∧ n < numASNs) ∧
      ∀ S, UpdateInRange P S (Destination.ofMiniDestination m)

/-- The tie-breaks of the recomputations find a parent, whatever the deployment vector: a node has
no next hop of a shortest route with the largest key or, if it chooses among fewer parents, at least
one with a smaller key. -/
def KeysAllow (P : Params) (g : NetworkGraph) (cut : Asn → Prop) (d : Asn) : Prop :=
  ∀ n, n ≠ d → Routed g d n → (∃ p, BestHop g d n p ∧ tieBreakKey P n p ≠ uint32Max) ∧
    (¬ cut n → ∀ p, BestHop g d n p → tieBreakKey P n p ≠ uint32Max)

section InRange

variable {P : Params} {g : NetworkGraph} {d : Asn} {readOnly : Bool} {m : MiniDestination}
  {s : BfsState}

/-- The best sets of the nodes that choose among all parents are those of the routing algorithm, and
the others have one member. -/
lemma mem_bestSet_init (hm : initMiniDestination P g d readOnly = some m)
    (hs : routingTreeAlg P (searchedGraph g readOnly) d = some s) (n : Asn) :
    (¬ IsCutStub P g n → ∀ p, p ∈ m.toRouteTables.bestSet n ↔ p ∈ s.bestSet n) ∧
      (IsCutStub P g n → (m.toRouteTables.bestSet n).length ≤ 1) := by
  simp only [initMiniDestination, hs, bind_eq_bind, bind_some,
    bind_eq_some_iff, Option.pure_def, Option.some.injEq] at hm
  obtain ⟨best, hbest, rfl⟩ := hm
  obtain ⟨-, ht, -⟩ := routingTreeAlg_spec hs
  constructor
  · intro hcut p
    have hsame : cutStubs P g best n = best n := if_neg hcut
    rcases sortBest_apply (fun n hn => ht.forest.mem_nodes n (BfsState.rank_ne_none.2 hn)) hbest n
      with ⟨h₁, h₂⟩ | ⟨ps, sorted, h₁, h₂, h₃⟩
    · simp [RouteTables.bestSet, BfsState.bestSet, hsame, h₁, h₂]
    · have hnd := ht.forest.preds_nodup n (BfsState.rank_ne_none.2 (by simp [h₁]))
      simp only [RouteTables.bestSet, BfsState.bestSet, hsame, h₁, h₂, getD_some] at hnd ⊢
      exact (sortByHashValue_spec hnd h₃).1.mem_iff
  · intro hcut
    have htake : cutStubs P g best n = (best n).map (·.take 1) := if_pos hcut
    simp only [RouteTables.bestSet, htake]
    cases best n with
    | none => simp
    | some ps => simp

/-- The condition on the keys, in terms of the tables. -/
lemma keysAllow_iff (hm : initMiniDestination P g d readOnly = some m)
    (hs : routingTreeAlg P (searchedGraph g readOnly) d = some s)
    (hsib : (searchedGraph g readOnly).SiblingFree) :
    KeysAllow P (searchedGraph g readOnly).reverse (IsCutStub P g) d ↔
      ∀ n, m.best n ≠ none → n ≠ d → ∀ p ∈ m.toRouteTables.bestSet n,
        tieBreakKey P n p ≠ uint32Max := by
  have hopp := (searchedGraph g readOnly).reverse_mirrors
  have hv := validTables_initMiniDestination hm
  obtain ⟨s', hs', rfl, -, -, -, hbest⟩ := exists_routingTree hm
  obtain rfl : s' = s := some.inj (hs'.symm.trans hs)
  obtain ⟨-, ht, -⟩ := routingTreeAlg_spec hs
  have hrouted : ∀ n, Routed (searchedGraph g readOnly).reverse m.destination n ↔
      m.best n ≠ none := by
    intro n
    rw [← ht.forest.routed_iff hopp hsib, BfsState.rank_ne_none]
    exact not_congr (hbest.none_iff n).symm
  have hnode : ∀ n, m.best n ≠ none → n ≠ m.destination →
      (((∃ p ∈ s'.bestSet n, tieBreakKey P n p ≠ uint32Max) ∧
        (¬ IsCutStub P g n → ∀ p ∈ s'.bestSet n, tieBreakKey P n p ≠ uint32Max)) ↔
      ∀ p ∈ m.toRouteTables.bestSet n, tieBreakKey P n p ≠ uint32Max) := by
    intro n hmn hne
    have hn : s'.best n ≠ none := mt (hbest.none_iff n).2 hmn
    obtain ⟨huncut, hcut⟩ := mem_bestSet_init hm hs n
    obtain ⟨q, rest, hq⟩ := exists_cons_of_ne_nil (hv.graded.parents_ne_nil n hmn hne)
    rw [← canChoose_insecure_iff hm hs hn hne]
    constructor
    · rintro ⟨⟨p, hp, hkey, -⟩, hall⟩ p' hp'
      by_cases hc : IsCutStub P g n
      · have hlen := hcut hc
        rw [hq, length_cons] at hlen
        obtain rfl : rest = [] := eq_nil_of_length_eq_zero (by omega)
        rw [hq, mem_singleton] at hp hp'
        rw [hp', ← hp]
        exact hkey
      · exact hall hc p' ((huncut hc p').1 hp')
    · intro hall
      refine ⟨⟨q, by simp [hq], hall q (by simp [hq]), by simp⟩, fun hc p hp => ?_⟩
      exact hall p ((huncut hc p).2 hp)
  constructor
  · intro h n hmn hne
    obtain ⟨hex, hall⟩ := h n hne ((hrouted n).2 hmn)
    simp only [← ht.mem_bestSet_iff_bestHop hopp hsib hne ((hrouted n).2 hmn)] at hex hall
    exact (hnode n hmn hne).1 ⟨hex, hall⟩
  · intro h n hne hn
    simp only [← ht.mem_bestSet_iff_bestHop hopp hsib hne hn]
    exact (hnode n ((hrouted n).1 hn) hne).2 (h n ((hrouted n).1 hn) hne)

end InRange

/-- **Array bounds.**  For every graph of the file reader and every destination in it, the
initialisation and all recomputations keep to the arrays exactly when the AS number `numASNs`, which
the reader admits, has no route, every node with a route has one that is shorter than the bucket
table is high, and, unless hashes collide and there are no recomputations, the tie-breaks find a
parent. -/
theorem initAndUpdateInRange_iff (P : Params) (lines : List (List Char)) (d : Asn) (readOnly : Bool)
    (hd : d ∈ (processCyclopsFile lines).asNodes) :
    InitAndUpdateInRange P (processCyclopsFile lines) d readOnly ↔
      (∀ n, Routed (searchedGraph (processCyclopsFile lines) readOnly).reverse d n → n ≠ numASNs ∧
        ∃ k < maxPathLen, Route (searchedGraph (processCyclopsFile lines) readOnly).reverse d n k) ∧
      (HashesDiffer P (searchedGraph (processCyclopsFile lines) readOnly).reverse d →
        KeysAllow P (searchedGraph (processCyclopsFile lines) readOnly).reverse
          (IsCutStub P (processCyclopsFile lines)) d) := by
  have hd' := mem_searchedGraph_processCyclopsFile hd readOnly
  have hle : ∀ n ∈ (searchedGraph (processCyclopsFile lines) readOnly).asNodes, n ≤ numASNs := by
    intro n hn
    refine (cyclops_processCyclopsFile lines).le_numASNs n ?_
    unfold searchedGraph at hn
    split_ifs at hn
    · obtain ⟨t, m, hm | hm⟩ := NetworkGraph.mem_asNodes_copy.mp hn
      · exact ((processCyclopsFile lines).closed n t m hm).1
      · exact ((processCyclopsFile lines).closed m t n hm).2
    · exact hn
  have hsib := siblingFree_searchedGraph (cyclops_processCyclopsFile lines).siblingFree readOnly
  generalize processCyclopsFile lines = g at *
  have hopp := (searchedGraph g readOnly).reverse_mirrors
  have hroutes : RoutingInRange P (searchedGraph g readOnly) d ↔
      ∀ n, Routed (searchedGraph g readOnly).reverse d n → n ≠ numASNs ∧
        ∃ k < maxPathLen, Route (searchedGraph g readOnly).reverse d n k := by
    rw [routingInRange_iff hd', routingTreeAlg_isSome_iff hopp hsib hd']
    refine forall_congr' fun n => imp_congr_right fun hn => and_congr_left' ?_
    have hmem := hle n (Routed.mem_asNodes (g := (searchedGraph g readOnly).reverse) hd' hn)
    exact ⟨Nat.ne_of_lt, Nat.lt_of_le_of_ne hmem⟩
  rw [InitAndUpdateInRange, hroutes]
  refine and_congr_right fun hfit => ?_
  obtain ⟨s, hs⟩ := (routingInRange_iff hd').1 (hroutes.2 hfit)
  -- the keys matter only for a destination that has been initialised
  rw [hashesDiffer_iff hs hsib, forall_exists_index]
  refine forall_congr' fun m => imp_congr_right fun hm => ?_
  have hv := validTables_initMiniDestination hm
  rw [keysAllow_iff hm hs hsib]
  obtain ⟨-, -, rfl, -⟩ := exists_routingTree hm
  have hbucket : ∀ row col n, n ∈ (m.bucketTable row col).getD [] →
      row < maxPathLen ∧ n < numASNs := by
    intro row col n hn
    rcases (hv.mem_bucket row col n).1 hn with ⟨rfl, rfl, -⟩ | ⟨-, hb, hL, -⟩
    · exact ⟨by decide, (hv.lt _ (by simp [hv.best_root])).1⟩
    · obtain ⟨hlt, hrow, -⟩ := hv.lt n hb
      exact ⟨hL ▸ hrow, hlt⟩
  rw [and_iff_right hbucket]
  have hupdate := fun S => hv.updateInRange_iff (S := S) (D := Destination.ofMiniDestination m)
  simp only [hupdate, fun S => hv.updatePaths_isSome_iff (S := S)
    (D := Destination.ofMiniDestination m)]
  constructor
  · intro h n hn hne
    exact (hv.forall_canChoose_iff hn hne).1 fun S => h S n hn hne
  · intro h S n hn hne
    exact (hv.forall_canChoose_iff hn hne).2 (h n hn hne) S

/-- The theorem at a graph of a customer and its provider. -/
theorem initAndUpdateInRange_two_nodes :
    1 ∈ (processCyclopsFile ["1\t2\tc2p".toList]).asNodes ∧
      (InitAndUpdateInRange {} (processCyclopsFile ["1\t2\tc2p".toList]) 1 false ↔
        (∀ n, Routed (processCyclopsFile ["1\t2\tc2p".toList]).reverse 1 n → n ≠ numASNs ∧
          ∃ k < maxPathLen, Route (processCyclopsFile ["1\t2\tc2p".toList]).reverse 1 n k) ∧
        (HashesDiffer {} (processCyclopsFile ["1\t2\tc2p".toList]).reverse 1 →
          KeysAllow {} (processCyclopsFile ["1\t2\tc2p".toList]).reverse
            (IsCutStub {} (processCyclopsFile ["1\t2\tc2p".toList])) 1)) :=
  ⟨by decide +kernel, initAndUpdateInRange_iff {} _ 1 false (by decide +kernel)⟩

/-- The reader admits AS 400000, for which the arrays have no entry. -/
theorem not_initAndUpdateInRange_too_high :
    1 ∈ (processCyclopsFile ["1\t400000\tc2p".toList]).asNodes ∧
      ¬ InitAndUpdateInRange {} (processCyclopsFile ["1\t400000\tc2p".toList]) 1 false := by
  refine ⟨by decide +kernel, fun h => ?_⟩
  obtain ⟨s, hs⟩ := (routingInRange_iff (by decide +kernel)).1 h.1
  have hnone : (routingTreeAlg {} (searchedGraph (processCyclopsFile ["1\t400000\tc2p".toList])
      false) 1).isNone = true := by
    decide +kernel
  rw [hs] at hnone
  cases hnone

end Astoria
