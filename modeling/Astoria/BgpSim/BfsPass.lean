import Astoria.BgpSim.BfsRefinement

/-!
# A whole pass

`BfsArgs.search` is the search that the library's machine performs for a pass.  The pass of the
simulator either follows it to its end, with the tables in step, or raises an exception; the latter
happens exactly when the search meets a node that does not fit the tables (`executeBfs_spec`).
-/

namespace Astoria

open List Function
open RelationshipType
open LevelSearch (Run State Status Inv Started Forest Extends Outcome)

/-- All nodes met so far have an entry in the tables, and a row. -/
def Fits (a : State Asn) : Prop :=
  ∀ n, a.status n ≠ .unseen → n < numASNs ∧ a.depth n < maxPathLen

lemma Fits.of_extends {a a' : State Asn} (h : Fits a') (he : Extends a a') : Fits a := by
  intro n hn
  obtain ⟨hs, hd⟩ := he n hn
  exact hd ▸ h n hs

/-- Either the simulator has followed the library's search to the state `a`, or it has raised an
exception and `a` does not fit the tables. -/
def Simulates (Q : BfsState → Prop) (o : Option BfsState) (a : State Asn) : Prop :=
  match o with
  | some s => s.toSearch = a ∧ Q s ∧ Fits a
  | none => ¬ Fits a

lemma Simulates.bind {Q : BfsState → Prop} {o : Option BfsState} {a a' : State Asn}
    {f : BfsState → Option BfsState} (h : Simulates Q o a) (he : Extends a a')
    (hf : ∀ s, s.toSearch = a → Q s → Fits a → Simulates Q (f s) a') :
    Simulates Q (o.bind f) a' := by
  cases o with
  | none => exact fun hc => h (hc.of_extends he)
  | some s => exact hf s h.1 h.2.1 h.2.2

/-- The search that a pass performs, when earlier passes have discovered the nodes in `old`. -/
def BfsArgs.searchFrom (P : Params) (b : BfsArgs) (old : Asn → Bool) (a : State Asn) : State Asn :=
  LevelSearch.loop (b.toRun P old) b.graph.asNodes.length (LevelSearch.start b.srcNodeNum a)

/-- The search that a pass performs from the state `s`. -/
def BfsArgs.search (P : Params) (b : BfsArgs) (s : BfsState) : State Asn :=
  b.searchFrom P s.discoveredInPriorBfs s.toSearch

section Visit

variable {P : Params} {b : BfsArgs} {col : ℕ} {s₀ s : BfsState} {a₀ : State Asn}
  {done : List Asn} {cur opp : Asn} {ed td : Asn → Asn → Prop}

/-- A visit without an exception keeps to the tables. -/
lemma fits_of_visit {s' : BfsState} (hcol : column b.allowedRelationships = some col)
    (hold : ∀ n, s.discoveredInPriorBfs n = true → n < numASNs ∧ s.bfsDepth n < maxPathLen)
    (hfits : Fits s.toSearch) (h : visit P b cur s opp = some s') : Fits s'.toSearch := by
  obtain ⟨hlt, s₁, hstep, rfl⟩ := visit_eq_some h
  rw [toSearch_addToBestNew]
  cases hstep with
  | discovered hs ho hd =>
    rw [visitDiscovered_eq hcol]
    intro n hn
    by_cases ho : n = opp
    · subst ho
      exact ⟨hlt, by simpa using hd (by simp [hcol])⟩
    · simp only [toSearch_status, toSearch_depth, ho, ne_eq, not_false_eq_true,
        update_of_ne] at hn ⊢
      exact hfits n hn
  | rejoined hs ho hp =>
    intro n hn
    by_cases hno : n = opp
    · exact hno ▸ hold opp ho
    · simp only [visitRejoined, toSearch_status, hno, ne_eq, not_false_eq_true,
        update_of_ne] at hn
      exact hfits n hn
  | switched parent ht hp hw =>
    rw [addToBest_switchParent_eq hcol]
    exact hfits
  | added parent ht hp hw =>
    rw [addToBest_eq]
    exact hfits
  | passed hs ho hp => exact hfits
  | settled hs ht => exact hfits

/-- A visit raises an exception only if there is no entry for the node or no row for its depth. -/
lemma outOfRange_of_visit (hst : Started (b.toRun P s.discoveredInPriorBfs) a₀)
    (hinv : Inv (b.toRun P s.discoveredInPriorBfs) a₀ done [cur] ed td s.toSearch)
    (h : visit P b cur s opp = none) :
    numASNs ≤ opp ∨ (s.inProcessBfsStatus opp = .unseen ∧ s.discoveredInPriorBfs opp = false ∧
      maxPathLen ≤ s.bfsDepth cur + 1) := by
  unfold visit at h
  split_ifs at h with hn
  · exact .inl hn
  · rw [Option.map_eq_none_iff] at h
    unfold visitRoute at h
    split_ifs at h with h₁ h₂ h₃ h₄ h₅ h₆
    · exact .inr ⟨h₁, h₂, h₃.2.2⟩
    · -- old nodes lie one level below their parents
      exact absurd (hinv.old_depth hst (by simpa using h₂) h₄) h₅
    · obtain ⟨hs, hd, ho⟩ := isTie_iff.mp h₆
      have hroot : opp ≠ b.srcNodeNum := by
        rintro rfl
        have := (hinv.root hst).2
        simp only [toRun_root, toSearch_depth] at this
        omega
      split at h
      · -- seen nodes have parents
        next hp => exact absurd hp (hinv.parent_ne_none hst (by simp [hs]) hroot)
      · next parent hp =>
        split_ifs at h with h₇ h₈
        -- and are among the children of their parents
        exact absurd ((hinv.mem_children parent opp).2 hp) h₈

/-- A visit that raises an exception has met a node that does not fit. -/
lemma not_fits_of_visit (hold : ∀ n, s.discoveredInPriorBfs n = true → n < numASNs)
    (hst : Started (b.toRun P s.discoveredInPriorBfs) a₀)
    (hinv : Inv (b.toRun P s.discoveredInPriorBfs) a₀ done [cur] ed td s.toSearch)
    (h : visit P b cur s opp = none) :
    ¬ Fits (LevelSearch.visit (b.toRun P s.discoveredInPriorBfs) cur s.toSearch opp) := by
  intro hfits
  rcases outOfRange_of_visit hst hinv h with hn | ⟨h₁, h₂, h₃⟩
  · rcases LevelSearch.visit_status (b.toRun P s.discoveredInPriorBfs) cur s.toSearch
      opp with hs | ho
    · exact absurd (hfits opp hs).1 (Nat.not_lt.mpr hn)
    · exact absurd (hold opp ho) (Nat.not_lt.mpr hn)
  · rw [LevelSearch.visit_discover h₁ h₂] at hfits
    have hd := (hfits opp (by simp [LevelSearch.discover])).2
    simp only [LevelSearch.discover, update_self, toSearch_depth] at hd
    omega

/-- A visit follows the library's visit. -/
lemma simulates_visit (h : PassTables b col s₀ s) (hcol : column b.allowedRelationships = some col)
    (hold : ∀ n, (b.toRun P s₀.discoveredInPriorBfs).Fixed n →
      n < numASNs ∧ a₀.depth n < maxPathLen)
    (hst : Started (b.toRun P s₀.discoveredInPriorBfs) a₀)
    (hinv : Inv (b.toRun P s₀.discoveredInPriorBfs) a₀ done [cur] ed td s.toSearch)
    (hfits : Fits s.toSearch) :
    Simulates (PassTables b col s₀) (visit P b cur s opp)
      (LevelSearch.visit (b.toRun P s₀.discoveredInPriorBfs) cur s.toSearch opp) := by
  have hfixed : ∀ n, s.discoveredInPriorBfs n = true → n < numASNs ∧ s.bfsDepth n < maxPathLen := by
    intro n hn
    rw [h.prior_eq] at hn
    have hframe : s.bfsDepth n = a₀.depth n := (hinv.frame n (.inl hn)).1
    rw [hframe]
    exact hold n (.inl hn)
  rw [← h.prior_eq] at hst hinv ⊢
  cases hv : visit P b cur s opp with
  | none => exact not_fits_of_visit (fun n hn => (hfixed n hn).1) hst hinv hv
  | some s' =>
    have hto := toSearch_visit hcol hv
    exact ⟨hto, h.visit hcol hst hinv hv, hto ▸ fits_of_visit hcol hfixed hfits hv⟩

/-- Enumerating an old child adds no child. -/
lemma visitChild_eq_visit (hprior : s.discoveredInPriorBfs = s₀.discoveredInPriorBfs)
    (hst : Started (b.toRun P s₀.discoveredInPriorBfs) a₀)
    (hinv : Inv (b.toRun P s₀.discoveredInPriorBfs) a₀ done [cur] ed td s.toSearch)
    (hf : (b.toRun P s₀.discoveredInPriorBfs).Fixed opp) :
    visitChild P b cur s opp = visit P b cur s opp := by
  have hadd : addsChild P b cur s opp = false := by
    rcases hf with ho | hr
    · have ho' : s.discoveredInPriorBfs opp = true := hprior ▸ ho
      simp [addsChild, isTie, ho']
    · have hs : s.inProcessBfsStatus opp ≠ .unseen := by
        rw [hr]
        exact hinv.root_seen
      have hd : s.bfsDepth opp = 0 := by
        rw [hr]
        exact (hinv.root hst).2
      simp [addsChild, isTie, hs, hd]
  rw [visitChild, hadd]
  simp

end Visit

/-! ### One examined node -/

section Examine

variable {P : Params} {b : BfsArgs} {col : ℕ} {s₀ s : BfsState} {a₀ : State Asn}
  {done : List Asn} {cur : Asn}

/-- Visiting a list of nodes follows the library. -/
lemma simulates_foldlM (hcol : column b.allowedRelationships = some col)
    (hold : ∀ n, (b.toRun P s₀.discoveredInPriorBfs).Fixed n →
      n < numASNs ∧ a₀.depth n < maxPathLen)
    (hst : Started (b.toRun P s₀.discoveredInPriorBfs) a₀)
    (f : BfsState → Asn → Option BfsState) (l : List Asn)
    (hf : ∀ opp ∈ l, ∀ s ed td, s.discoveredInPriorBfs = s₀.discoveredInPriorBfs →
      Inv (b.toRun P s₀.discoveredInPriorBfs) a₀ done [cur] ed td s.toSearch →
      f s opp = visit P b cur s opp)
    (hl : ∀ n ∈ l, n ∈ b.graph.asNodes) (hnd : l.Nodup) (ed td : Asn → Asn → Prop)
    (h : PassTables b col s₀ s)
    (hinv : Inv (b.toRun P s₀.discoveredInPriorBfs) a₀ done [cur] ed td s.toSearch)
    (hed : ∀ n ∈ l, (b.toRun P s₀.discoveredInPriorBfs).Fixed n ∨ ¬ ed cur n)
    (hfits : Fits s.toSearch) :
    Simulates (PassTables b col s₀) (l.foldlM f s)
      (l.foldl (LevelSearch.visit (b.toRun P s₀.discoveredInPriorBfs) cur) s.toSearch) := by
  induction l generalizing s ed td with
  | nil => exact ⟨rfl, h, hfits⟩
  | cons opp l ih =>
    rw [nodup_cons] at hnd
    have hsim : Simulates (PassTables b col s₀) (visit P b cur s opp)
        (LevelSearch.visit (b.toRun P s₀.discoveredInPriorBfs) cur s.toSearch opp) :=
      simulates_visit h hcol hold hst hinv hfits
    rw [foldlM_cons, foldl_cons, hf opp (by simp) s ed td h.prior_eq hinv]
    refine hsim.bind (LevelSearch.extends_foldl_visit _ cur l _) fun s' hto htab hfit => ?_
    have hinv' := hinv.visit (hl opp (by simp)) hst (hed opp (by simp))
    rw [← hto] at hinv' hfit ⊢
    refine ih (fun o ho => hf o (mem_cons_of_mem _ ho))
      (fun n hn => hl n (mem_cons_of_mem _ hn)) hnd.2 _ _ htab hinv' ?_ hfit
    intro n hn
    have hne : n ≠ opp := fun hc => hnd.1 (hc ▸ hn)
    simpa [LevelSearch.addPair, hne] using hed n (mem_cons_of_mem _ hn)

lemma visitedChildren_eq (hflags : b.allowedRelationships ≠ []) (old : Asn → Bool) :
    visitedChildren b cur s = LevelSearch.remainingChildren (b.toRun P old) cur s.toSearch := by
  rw [visitedChildren, if_neg hflags]
  rfl

lemma Fits.processed {a : State Asn} (h : Fits a) (hcur : a.status cur ≠ .unseen) :
    Fits { a with status := update a.status cur .processed } := by
  intro n hn
  by_cases hc : n = cur
  · exact h n (hc ▸ hcur)
  · exact h n (by simpa [hc] using hn)

/-- Examining a dequeued node follows the library. -/
lemma simulates_examine (hcol : column b.allowedRelationships = some col)
    (hflags : b.allowedRelationships ≠ [])
    (hold : ∀ n, (b.toRun P s₀.discoveredInPriorBfs).Fixed n →
      n < numASNs ∧ a₀.depth n < maxPathLen)
    (hst : Started (b.toRun P s₀.discoveredInPriorBfs) a₀) (h : PassTables b col s₀ s)
    (hcur : cur ∉ done)
    (hinv : Inv (b.toRun P s₀.discoveredInPriorBfs) a₀ done [cur]
      (LevelSearch.doneEdges (b.toRun P s₀.discoveredInPriorBfs) done) (fun p _ => p ∈ done)
      s.toSearch)
    (hfits : Fits s.toSearch) :
    Simulates (PassTables b col s₀) (examine P b s cur)
      (LevelSearch.examine (b.toRun P s₀.discoveredInPriorBfs) s.toSearch cur) := by
  have hmem : ∀ n ∈ visitedNeighbors b cur, n ∈ b.graph.asNodes := fun n hn =>
    NetworkGraph.mem_asNodes_of_mem_getNeighborsByType (mem_eraseDups.mp hn)
  have hsim := simulates_foldlM hcol hold hst (visit P b cur) (visitedNeighbors b cur)
    (fun _ _ _ _ _ _ _ => rfl) hmem (LevelSearch.nodup_eraseDups _) _ _ h hinv
    (fun n _ => .inr fun hc => hcur hc.1) hfits
  refine hsim.bind ((LevelSearch.extends_foldl_visit _ cur _ _).trans
    (LevelSearch.extends_processed _ cur)) fun s₁ hto₁ htab₁ hfits₁ => ?_
  have hinv₁ := Inv.foldl_visit hst (visitedNeighbors b cur) _ _ hinv hmem
    (LevelSearch.nodup_eraseDups _) (fun n _ => .inr fun hc => hcur hc.1)
  rw [← hto₁] at hinv₁ hfits₁
  -- the children that remain are old ones
  have hfix : ∀ n ∈ visitedChildren b cur s₁, (b.toRun P s₀.discoveredInPriorBfs).Fixed n := by
    intro n hn
    rw [visitedChildren_eq (P := P) hflags s₀.discoveredInPriorBfs] at hn
    refine hinv₁.remainingChildren_fixed ?_ hn
    rintro n (hc | hc)
    · exact absurd hc.1 hcur
    · exact hc.2
  have hsim₂ := simulates_foldlM hcol hold hst (visitChild P b cur) (visitedChildren b cur s₁)
    (fun opp hopp s ed td hp hi => visitChild_eq_visit hp hst hi (hfix opp hopp))
    (fun n hn => hst.fixed_mem n (hfix n hn))
    (by rw [visitedChildren, if_neg hflags]; exact LevelSearch.nodup_eraseDups _) _ _ htab₁ hinv₁
    (fun n hn => .inl (hfix n hn)) hfits₁
  rw [hto₁] at hsim₂
  have hrem : visitedChildren b cur s₁ = LevelSearch.remainingChildren
      (b.toRun P s₀.discoveredInPriorBfs) cur ((visitedNeighbors b cur).foldl
        (LevelSearch.visit (b.toRun P s₀.discoveredInPriorBfs) cur) s.toSearch) := by
    rw [visitedChildren_eq (P := P) hflags s₀.discoveredInPriorBfs, hto₁]
  refine Simulates.bind (a := (LevelSearch.remainingChildren (b.toRun P s₀.discoveredInPriorBfs) cur
    ((visitedNeighbors b cur).foldl (LevelSearch.visit (b.toRun P s₀.discoveredInPriorBfs) cur)
      s.toSearch)).foldl (LevelSearch.visit (b.toRun P s₀.discoveredInPriorBfs) cur)
    ((visitedNeighbors b cur).foldl (LevelSearch.visit (b.toRun P s₀.discoveredInPriorBfs) cur)
      s.toSearch)) (hrem ▸ hsim₂) (LevelSearch.extends_processed _ cur)
    fun s₂ hto₂ htab₂ hfits₂ => ⟨?_, htab₂.congr rfl rfl rfl rfl rfl rfl rfl rfl rfl, ?_⟩
  · show { s₂.toSearch with status := update s₂.toSearch.status cur .processed } = _
    rw [hto₂]
    rfl
  · refine hfits₂.processed ?_
    have hseen : s.toSearch.status cur ≠ .unseen := by simp [hinv.cur_seen]
    exact (((LevelSearch.extends_foldl_visit _ cur _ _).trans
      (LevelSearch.extends_foldl_visit _ cur _ _)) cur hseen).1

end Examine

/-! ### The main loop -/

section Loop

variable {P : Params} {b : BfsArgs} {col : ℕ} {s₀ : BfsState} {a₀ : State Asn}

/-- **Run lemma.**  The main loop follows the library's loop; a unit of fuel for every node that has
not been processed suffices. -/
lemma simulates_loop (hcol : column b.allowedRelationships = some col)
    (hflags : b.allowedRelationships ≠ [])
    (hold : ∀ n, (b.toRun P s₀.discoveredInPriorBfs).Fixed n →
      n < numASNs ∧ a₀.depth n < maxPathLen)
    (hst : Started (b.toRun P s₀.discoveredInPriorBfs) a₀) (fuel : ℕ) {s : BfsState}
    {done : List Asn} (h : PassTables b col s₀ s)
    (hinv : Inv (b.toRun P s₀.discoveredInPriorBfs) a₀ done []
      (LevelSearch.doneEdges (b.toRun P s₀.discoveredInPriorBfs) done) (fun p _ => p ∈ done)
      s.toSearch)
    (hfits : Fits s.toSearch) (hfuel : b.graph.asNodes.length ≤ done.length + fuel) :
    Simulates (PassTables b col s₀) (loop P b fuel s)
      (LevelSearch.loop (b.toRun P s₀.discoveredInPriorBfs) fuel s.toSearch) := by
  induction fuel generalizing s done with
  | zero =>
    have hlen := hinv.length_le
    have hq : s.nodeQueue = [] := by
      refine eq_nil_of_length_eq_zero ?_
      simp only [toSearch_queue, toRun_nodes] at hlen
      omega
    unfold loop
    rw [hq]
    exact ⟨rfl, h, hfits⟩
  | succ fuel ih =>
    unfold loop LevelSearch.loop
    rw [toSearch_queue]
    cases hq : s.nodeQueue with
    | nil => exact ⟨rfl, h, hfits⟩
    | cons cur queue =>
      have hcur : cur ∉ done := by
        have hnd := hinv.nodup
        rw [toSearch_queue, hq, append_nil, nodup_append] at hnd
        exact fun hc => hnd.2.2 cur hc cur (by simp) rfl
      have htab : PassTables b col s₀ { s with nodeQueue := queue } :=
        h.congr rfl rfl rfl rfl rfl rfl rfl rfl rfl
      have hsim := simulates_examine hcol hflags hold hst htab hcur (hinv.dequeue hq) hfits
      refine hsim.bind (LevelSearch.extends_loop _ fuel _) fun s' hto htab' hfits' => ?_
      have hinv' := hinv.examine hst hq
      have hto' : LevelSearch.examine (b.toRun P s₀.discoveredInPriorBfs)
          { s.toSearch with queue := queue } cur = s'.toSearch := hto.symm
      rw [hto'] at hinv'
      rw [← hto] at hfits'
      show Simulates _ _ (LevelSearch.loop _ fuel
        (LevelSearch.examine _ { s.toSearch with queue := queue } cur))
      rw [hto']
      exact ih htab' hinv' hfits' (by rw [length_append, length_singleton]; omega)

end Loop

/-! ### Starting and finishing a pass -/

section Pass

variable {P : Params} {b : BfsArgs} {col : ℕ} {s s' : BfsState}

lemma toSearch_visitSource :
    (visitSource b s).toSearch = LevelSearch.start b.srcNodeNum s.toSearch := by
  simp only [visitSource, BfsState.toSearch, LevelSearch.start, getD_update_best]

/-- What a pass that began in the state `s` and fills the column `col` leaves in the state `s'`. -/
structure PassResult (P : Params) (b : BfsArgs) (col : ℕ) (s s' : BfsState) : Prop where
  /-- All nodes on the tree fit the tables. -/
  fits : Fits (b.search P s)
  toSearch_eq : s'.toSearch = LevelSearch.reset (b.search P s)
  /-- The nodes on the tree are marked as discovered. -/
  prior_iff : ∀ n, s'.discoveredInPriorBfs n = true ↔ (b.search P s).status n ≠ .unseen
  /-- The tables mirror the tree. -/
  tables : Tables b.srcNodeNum s'
  /-- The new routes are in the column of the pass. -/
  relation_new : ∀ n, s.discoveredInPriorBfs n = false → s'.bfsParentNode n ≠ none →
    s'.bestRelation n = col
  /-- The other routes keep their columns. -/
  relation_old : ∀ n, s.discoveredInPriorBfs n = true ∨ s'.bfsParentNode n = none →
    s'.bestRelation n = s.bestRelation n

lemma searchFrom_outcome {old : Asn → Bool} {a : State Asn}
    (hforest : Forest b.srcNodeNum b.graph.asNodes old a) (hd : b.srcNodeNum ∈ b.graph.asNodes) :
    Outcome (b.toRun P old) (LevelSearch.start b.srcNodeNum a) (b.searchFrom P old a) :=
  LevelSearch.loop_outcome (r := b.toRun P old) hforest hd
    (fun _ _ hn => NetworkGraph.mem_asNodes_of_mem_getNeighborsByType hn)

lemma passResult_lockDiscovered {s₁ : BfsState}
    (hforest : Forest b.srcNodeNum b.graph.asNodes s.discoveredInPriorBfs s.toSearch)
    (hd : b.srcNodeNum ∈ b.graph.asNodes) (hto : s₁.toSearch = b.search P s)
    (htab : PassTables b col (visitSource b s) s₁) (hfits : Fits (b.search P s)) :
    PassResult P b col s (lockDiscovered b s₁) := by
  have hout : Outcome (b.toRun P s.discoveredInPriorBfs)
      (LevelSearch.start b.srcNodeNum s.toSearch) (b.search P s) := searchFrom_outcome hforest hd
  have hstat : ∀ n, s₁.inProcessBfsStatus n = (b.search P s).status n := by
    intro n
    rw [← hto]
    rfl
  have hmem : ∀ n, s₁.inProcessBfsStatus n ≠ .unseen → n ∈ b.graph.asNodes := by
    intro n hn
    exact hout.mem_nodes n (by rwa [← hstat n])
  refine ⟨hfits, ?_, ?_, ?_, htab.relation_new, htab.relation_old⟩
  · rw [← hto]
    simp only [lockDiscovered, BfsState.toSearch, LevelSearch.reset, LevelSearch.State.mk.injEq,
      and_true]
    funext n
    split_ifs with hn
    · rfl
    · by_contra hc
      exact hn (hmem n hc)
  · intro n
    have hold : s₁.discoveredInPriorBfs n = s.discoveredInPriorBfs n := congrFun htab.prior_eq n
    rw [← hstat n]
    simp only [lockDiscovered, hold, Bool.or_eq_true, Bool.and_eq_true, decide_eq_true_eq]
    constructor
    · rintro (h | ⟨-, h⟩)
      · rw [hstat n, hout.fixed_processed n (.inl h)]
        simp
      · exact h
    · exact fun h => .inr ⟨hmem n h, h⟩
  · exact htab.toTables.congr rfl rfl rfl rfl rfl rfl rfl rfl

/-- A state from which a pass that fills the column `col` may start: the tree is a forest, and the
tables are in step with it. -/
structure PassReady (b : BfsArgs) (col : ℕ) (s : BfsState) : Prop where
  column_eq : column b.allowedRelationships = some col
  /-- The pass follows edges of some type. -/
  flags_ne_nil : b.allowedRelationships ≠ []
  mem_nodes : b.srcNodeNum ∈ b.graph.asNodes
  forest : Forest b.srcNodeNum b.graph.asNodes s.discoveredInPriorBfs s.toSearch
  /-- The tables mirror the tree. -/
  tables : Tables b.srcNodeNum (visitSource b s)
  /-- What earlier passes have found fits the tables. -/
  prior_fits : ∀ n, s.discoveredInPriorBfs n = true → n < numASNs ∧ s.bfsDepth n < maxPathLen
  /-- Only what earlier passes have found has a parent. -/
  parent_none : ∀ n, s.discoveredInPriorBfs n = false → s.bfsParentNode n = none

/-- Visiting the source establishes the invariants of the main loop. -/
lemma PassReady.start (h : PassReady b col s) (hlt : b.srcNodeNum < numASNs) :
    Started (b.toRun P s.discoveredInPriorBfs) (visitSource b s).toSearch ∧
    Inv (b.toRun P s.discoveredInPriorBfs) (visitSource b s).toSearch [] []
      (LevelSearch.doneEdges (b.toRun P s.discoveredInPriorBfs) [])
      (fun p _ => p ∈ ([] : List Asn)) (visitSource b s).toSearch ∧
    (∀ n, (b.toRun P s.discoveredInPriorBfs).Fixed n →
      n < numASNs ∧ (visitSource b s).toSearch.depth n < maxPathLen) ∧
    PassTables b col (visitSource b s) (visitSource b s) ∧ Fits (visitSource b s).toSearch := by
  have hfixed : ∀ n, (b.toRun P s.discoveredInPriorBfs).Fixed n →
      n < numASNs ∧ (LevelSearch.start b.srcNodeNum s.toSearch).depth n < maxPathLen := by
    intro n hn
    by_cases hr : n = b.srcNodeNum
    · subst hr
      exact ⟨hlt, by simp [LevelSearch.start, maxPathLen]⟩
    · have := h.prior_fits n (hn.resolve_right hr)
      simpa [LevelSearch.start, hr] using this
  refine ⟨?_, ?_, ?_, ⟨h.tables, rfl, fun n hn hp => absurd (h.parent_none n hn) hp,
    fun _ _ => rfl⟩, ?_⟩
  · rw [toSearch_visitSource]
    exact LevelSearch.Forest.started (r := b.toRun P s.discoveredInPriorBfs) h.forest h.mem_nodes
      (fun _ _ hn => NetworkGraph.mem_asNodes_of_mem_getNeighborsByType hn)
  · rw [toSearch_visitSource]
    exact LevelSearch.Forest.inv (r := b.toRun P s.discoveredInPriorBfs) h.forest h.mem_nodes
  · rw [toSearch_visitSource]
    exact hfixed
  · rw [toSearch_visitSource]
    intro n hn
    refine hfixed n (.inr ?_)
    by_contra hr
    exact hn (by simpa [LevelSearch.start, show n ≠ b.srcNodeNum from hr] using h.forest.unseen n)

/-- **A pass.**  Started from a forest, with the tables in step, a pass either performs its whole
search or meets a node that does not fit the tables and raises an exception. -/
theorem executeBfs_spec (h : PassReady b col s) :
    (∀ s', executeBfs P b s = some s' → PassResult P b col s s') ∧
      (executeBfs P b s = none → ¬ Fits (b.search P s)) := by
  have hroot_status : (b.search P s).status b.srcNodeNum ≠ .unseen := by
    rw [BfsArgs.search,
      (searchFrom_outcome h.forest h.mem_nodes).fixed_processed b.srcNodeNum (.inr rfl)]
    simp
  unfold executeBfs
  split_ifs with hguard
  · refine ⟨fun _ h => by simp at h, fun _ hfits => ?_⟩
    have := (hfits b.srcNodeNum hroot_status).1
    rcases hguard with hc | hc
    · exact hc h.mem_nodes
    · exact absurd this (Nat.not_lt.mpr hc)
  · rw [not_or, Nat.not_le] at hguard
    obtain ⟨hst, hinv, hfixed, hpass, hfits⟩ := h.start (P := P) hguard.2
    have hsim : Simulates (PassTables b col (visitSource b s))
        (loop P b b.graph.asNodes.length (visitSource b s))
        (LevelSearch.loop (b.toRun P (visitSource b s).discoveredInPriorBfs) b.graph.asNodes.length
          (visitSource b s).toSearch) := by
      refine simulates_loop h.column_eq h.flags_ne_nil ?_ ?_ b.graph.asNodes.length hpass hinv hfits
        (by simp)
      · exact hfixed
      · exact hst
    rw [toSearch_visitSource] at hsim
    cases hloop : loop P b b.graph.asNodes.length (visitSource b s) with
    | none =>
      rw [hloop] at hsim
      exact ⟨fun _ h => by simp at h, fun _ => hsim⟩
    | some s₁ =>
      rw [hloop] at hsim
      obtain ⟨hto, htab₁, hfits₁⟩ := hsim
      refine ⟨fun s' hs' => ?_, fun h => by simp at h⟩
      obtain rfl := Option.some.inj hs'
      exact passResult_lockDiscovered h.forest h.mem_nodes hto htab₁ hfits₁

end Pass

end Astoria
