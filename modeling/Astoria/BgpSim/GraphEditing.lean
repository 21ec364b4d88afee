import Astoria.BgpSim.GraphConstruction

/-!
# Removing ASes from a graph

`RemoveNode` walks over a copy of the neighbours of an AS.  For every entry it removes one edge at
the neighbour and one at the AS, each from the first list where the other end is found, and drops
the neighbour when nothing is left in its lists.  Between two turns the lists of the AS and of its
neighbours do not match by relationship, only by number; `Turn` says what holds there.  In the end,
the AS is gone from all lists and the other entries are as before (`consistent_removeNode`).

An AS with an edge to itself is the exception: a turn for such an entry removes two entries at once,
and a later turn does not find its own.  `killChildren` removes the customers of given ASes, of
which each must still be a node when its turn comes (`Modification.Safe`).

`Edits` is the state of a sequence of modifications: the graph and, as a ghost variable, the ASes
for which `RemoveNode` has been called.
-/

namespace Astoria

open List Option
open RelationshipType
open Function

namespace GraphData

/-! ### Removing edges -/

/-- Remove the directed edge from `src` to `dest`, from the first list that has it.  `none` is the
exception for a neighbour that is not found. -/
def removeEdge (g : GraphData) (src dest : Asn) : Option GraphData :=
  match relationshipTypes.find? fun t => decide (dest ∈ g.neighbors src t) with
  | some t => some {
      asNodes := NetworkGraph.getOrCreateNode (NetworkGraph.getOrCreateNode g.asNodes src) dest
      neighbors := update g.neighbors src
        (update (g.neighbors src) t ((g.neighbors src t).erase dest))
      edgeCount := g.edgeCount - 1 }
  | none => none

/-- Remove a node from the dictionary of the nodes. -/
def dropNode (g : GraphData) (n : Asn) : GraphData := { g with asNodes := g.asNodes.erase n }

/-- The turn of `RemoveNode` for one entry of the array of neighbours. -/
def removeNodeTurn (asn : Asn) (g : GraphData) (n : Asn) : Option GraphData := do
  let g₁ ← g.removeEdge n asn
  let g₂ ← g₁.removeEdge asn n
  if g₂.getAllNeighbors n = [] then some (g₂.dropNode n) else some g₂

/-- Remove an AS with all its edges, and the neighbours that are left without edges. -/
def removeNode (g : GraphData) (asn : Asn) : Option GraphData :=
  if asn ∈ g.asNodes then
    ((g.getAllNeighbors asn).foldlM (removeNodeTurn asn) g).map fun g => g.dropNode asn
  else some g

variable {g g' : GraphData} {asn n m src dest : Asn} {t : RelationshipType}

/-- Erasing an element from the first of several lists that has it erases it from their
concatenation. -/
lemma flatMap_update_erase {types : List RelationshipType} (hnd : types.Nodup)
    (f : RelationshipType → List Asn) (h : types.find? (fun u => decide (dest ∈ f u)) = some t) :
    types.flatMap (update f t ((f t).erase dest)) = (types.flatMap f).erase dest := by
  induction types with
  | nil => cases h
  | cons u types ih =>
    obtain ⟨hu, hnd⟩ := nodup_cons.mp hnd
    rw [flatMap_cons, flatMap_cons]
    by_cases hmem : dest ∈ f u
    · have htu : u = t := by
        rw [find?_cons_of_pos (by simpa using hmem)] at h
        exact Option.some.inj h
      subst htu
      have hrest : types.flatMap (update f u ((f u).erase dest)) = types.flatMap f := by
        refine flatMap_congr fun v hv => update_of_ne ?_ _ _
        rintro rfl
        exact hu hv
      rw [update_self, hrest, erase_append_left _ hmem]
    · rw [find?_cons_of_neg (by simpa using hmem)] at h
      have hut : u ≠ t := by
        rintro rfl
        exact hmem (of_decide_eq_true (find?_some (p := fun u => decide (dest ∈ f u)) h))
      rw [update_of_ne hut, ih hnd h, erase_append_right _ hmem]

/-- What removing an edge does.  The nodes stay as they are if the ends are nodes. -/
structure EdgeRemoved (g : GraphData) (src dest : Asn) (g' : GraphData) : Prop where
  asNodes : g'.asNodes = g.asNodes
  /-- One entry of the source is gone. -/
  getAllNeighbors_src : g'.getAllNeighbors src = (g.getAllNeighbors src).erase dest
  /-- The other entries of the source stay in their lists. -/
  filter_src : ∀ t, (g'.neighbors src t).filter (· ≠ dest) = (g.neighbors src t).filter (· ≠ dest)
  /-- The other nodes keep their lists. -/
  neighbors_of_ne : ∀ n ≠ src, g'.neighbors n = g.neighbors n
  edgeCount : g'.edgeCount = g.edgeCount - 1

lemma exists_removeEdge (hsrc : src ∈ g.asNodes) (hdest : dest ∈ g.asNodes)
    (h : dest ∈ g.getAllNeighbors src) :
    ∃ g', g.removeEdge src dest = some g' ∧ g.EdgeRemoved src dest g' := by
  obtain ⟨t, ht⟩ : ∃ t, relationshipTypes.find? (fun t => decide (dest ∈ g.neighbors src t)) =
      some t := by
    refine ne_none_iff_exists'.mp fun hnone => ?_
    rw [find?_eq_none] at hnone
    obtain ⟨t, ht⟩ := mem_getAllNeighbors.mp h
    exact hnone t (by cases t <;> simp [relationshipTypes]) (by simpa using ht)
  refine ⟨_, by rw [removeEdge, ht], ?_, ?_, fun u => ?_, fun n hn => ?_, rfl⟩
  · simp [NetworkGraph.getOrCreateNode, hsrc, hdest]
  · have hflat := flatMap_update_erase (by decide) (g.neighbors src) ht
    simpa [getAllNeighbors] using hflat
  · by_cases hu : u = t
    · subst hu
      simp only [update_self]
      rw [← erase_filter]
      apply erase_of_not_mem
      simp
    · simp only [update_self, update_of_ne hu]
  · exact update_of_ne hn _ _

lemma EdgeRemoved.getAllNeighbors_of_ne (h : g.EdgeRemoved src dest g') (hn : n ≠ src) :
    g'.getAllNeighbors n = g.getAllNeighbors n := by
  rw [getAllNeighbors, h.neighbors_of_ne n hn, getAllNeighbors]

lemma EdgeRemoved.sum_length (h : g.EdgeRemoved src dest g') (hdest : dest ∈ g.getAllNeighbors src)
    {s : Finset Asn} (hsrc : src ∈ s) :
    (∑ n ∈ s, (g'.getAllNeighbors n).length) + 1 = ∑ n ∈ s, (g.getAllNeighbors n).length := by
  have hrest : ∑ n ∈ s.erase src, (g'.getAllNeighbors n).length =
      ∑ n ∈ s.erase src, (g.getAllNeighbors n).length :=
    Finset.sum_congr rfl fun n hn => by rw [h.getAllNeighbors_of_ne (Finset.ne_of_mem_erase hn)]
  have hpos := length_pos_of_mem hdest
  rw [← Finset.add_sum_erase s _ hsrc, ← Finset.add_sum_erase s _ hsrc, hrest,
    h.getAllNeighbors_src, length_erase_of_mem hdest]
  omega

/-! ### Removing a node -/

/-- What holds between two turns of `RemoveNode`: `g₀` is the graph before the first turn and `rest`
the part of the array of neighbours that is still to come. -/
structure Turn (g₀ : GraphData) (asn : Asn) (rest : List Asn) (g : GraphData) : Prop where
  nodup : g.asNodes.Nodup
  /-- The nodes are the AS itself and those with an edge. -/
  mem_asNodes : ∀ n, n ∈ g.asNodes ↔ n = asn ∨ g.getAllNeighbors n ≠ []
  subset : ∀ n ∈ g.asNodes, n ∈ g₀.asNodes
  /-- The AS has the neighbours that are still to come. -/
  perm : (g.getAllNeighbors asn).Perm rest
  /-- Each of them lists the AS as often as its turn is still to come. -/
  count_eq : ∀ n ≠ asn, (g.getAllNeighbors n).count asn = rest.count n
  filter_eq : ∀ n ≠ asn, ∀ t,
    (g.neighbors n t).filter (· ≠ asn) = (g₀.neighbors n t).filter (· ≠ asn)
  edgeCount_eq : g.edgeCount = (∑ n ∈ g₀.asNodes.toFinset, (g.getAllNeighbors n).length : ℕ)

variable {g₀ : GraphData}

/-- Removing an edge in both directions, without a look at the nodes that are left without edges. -/
lemma Turn.exists_removeEdge_both {rest : List Asn} (h : Turn g₀ asn (n :: rest) g) (hn : n ≠ asn) :
    ∃ g₁ g₂, g.removeEdge n asn = some g₁ ∧ g₁.removeEdge asn n = some g₂ ∧
      g.EdgeRemoved n asn g₁ ∧ g₁.EdgeRemoved asn n g₂ ∧ asn ∈ g.getAllNeighbors n ∧
      n ∈ g₁.getAllNeighbors asn ∧ n ∈ g.asNodes ∧ asn ∈ g.asNodes := by
  have hasn : asn ∈ g.asNodes := (h.mem_asNodes asn).mpr (.inl rfl)
  have hmem : asn ∈ g.getAllNeighbors n := by
    rw [← count_pos_iff, h.count_eq n hn, count_pos_iff]
    exact mem_cons_self
  have hnode : n ∈ g.asNodes := (h.mem_asNodes n).mpr (.inr (ne_nil_of_mem hmem))
  obtain ⟨g₁, hg₁, hr₁⟩ := exists_removeEdge hnode hasn hmem
  have hmem₁ : n ∈ g₁.getAllNeighbors asn := by
    rw [hr₁.getAllNeighbors_of_ne hn.symm, h.perm.mem_iff]
    exact mem_cons_self
  obtain ⟨g₂, hg₂, hr₂⟩ := exists_removeEdge (g := g₁) (hr₁.asNodes ▸ hasn) (hr₁.asNodes ▸ hnode)
    hmem₁
  exact ⟨g₁, g₂, hg₁, hg₂, hr₁, hr₂, hmem, hmem₁, hnode, hasn⟩

/-- **One turn of `RemoveNode`** succeeds for a neighbour other than the AS itself. -/
lemma Turn.removeNodeTurn {rest : List Asn} (h : Turn g₀ asn (n :: rest) g) (hn : n ≠ asn) :
    ∃ g', GraphData.removeNodeTurn asn g n = some g' ∧ Turn g₀ asn rest g' := by
  obtain ⟨g₁, g₂, hg₁, hg₂, hr₁, hr₂, hmem, hmem₁, hnode, hasn⟩ := h.exists_removeEdge_both hn
  have hnodes : g₂.asNodes = g.asNodes := hr₂.asNodes.trans hr₁.asNodes
  have hother : ∀ k, k ≠ n → k ≠ asn → g₂.getAllNeighbors k = g.getAllNeighbors k := by
    intro k hkn hka
    rw [hr₂.getAllNeighbors_of_ne hka, hr₁.getAllNeighbors_of_ne hkn]
  have hatn : g₂.getAllNeighbors n = (g.getAllNeighbors n).erase asn := by
    rw [hr₂.getAllNeighbors_of_ne hn, hr₁.getAllNeighbors_src]
  have hperm : (g₂.getAllNeighbors asn).Perm rest := by
    rw [hr₂.getAllNeighbors_src, hr₁.getAllNeighbors_of_ne hn.symm]
    have herase := h.perm.erase n
    rwa [erase_cons_head] at herase
  have hcount : ∀ k ≠ asn, (g₂.getAllNeighbors k).count asn = rest.count k := by
    intro k hk
    have hold := h.count_eq k hk
    by_cases hkn : k = n
    · subst hkn
      rw [count_cons_self] at hold
      rw [hatn, count_erase_self]
      omega
    · rw [count_cons_of_ne (Ne.symm hkn)] at hold
      rw [hother k hkn hk, hold]
  have hfilter : ∀ k ≠ asn, ∀ t,
      (g₂.neighbors k t).filter (· ≠ asn) = (g₀.neighbors k t).filter (· ≠ asn) := by
    intro k hk t
    rw [hr₂.neighbors_of_ne k hk, ← h.filter_eq k hk t]
    by_cases hkn : k = n
    · subst hkn
      exact hr₁.filter_src t
    · rw [hr₁.neighbors_of_ne k hkn]
  have hedge : g₂.edgeCount = (∑ k ∈ g₀.asNodes.toFinset, (g₂.getAllNeighbors k).length : ℕ) := by
    have hs₁ := hr₁.sum_length hmem (List.mem_toFinset.mpr (h.subset n hnode))
    have hs₂ := hr₂.sum_length hmem₁ (List.mem_toFinset.mpr (h.subset asn hasn))
    have hold := h.edgeCount_eq
    rw [hr₂.edgeCount, hr₁.edgeCount, hold]
    omega
  unfold GraphData.removeNodeTurn
  rw [hg₁, bind_eq_bind, bind_some, hg₂, bind_some]
  split_ifs with hnil
  · -- the neighbour has lost its last edge and is dropped
    refine ⟨_, rfl, ?_, fun k => ?_, fun k hk => ?_, hperm, hcount, hfilter, hedge⟩
    · exact (hnodes ▸ h.nodup).erase n
    · rw [dropNode, (hnodes ▸ h.nodup : g₂.asNodes.Nodup).mem_erase_iff, hnodes, h.mem_asNodes]
      change k ≠ n ∧ _ ↔ k = asn ∨ g₂.getAllNeighbors k ≠ []
      by_cases hkn : k = n
      · simp [hkn, hnil, hn]
      · by_cases hka : k = asn
        · simp [hka, hn.symm]
        · simp [hkn, hka, hother k hkn hka]
    · exact h.subset k (hnodes ▸ mem_of_mem_erase hk)
  · refine ⟨_, rfl, hnodes ▸ h.nodup, fun k => ?_, fun k hk => h.subset k (hnodes ▸ hk), hperm,
      hcount, hfilter, hedge⟩
    rw [hnodes]
    by_cases hkn : k = n
    · subst hkn
      exact ⟨fun _ => .inr hnil, fun _ => hnode⟩
    · rw [h.mem_asNodes]
      by_cases hka : k = asn
      · simp [hka]
      · simp [hka, hother k hkn hka]

/-- In a consistent graph, two ASes list each other equally often. -/
lemma Consistent.count_getAllNeighbors (h : g.Consistent) (n m : Asn) :
    (g.getAllNeighbors n).count m = (g.getAllNeighbors m).count n := by
  have hc := h.balanced n customerOf m
  have hp := h.balanced n peerOf m
  have hr := h.balanced n providerTo m
  have hs := h.balanced n siblingOf m
  simp only [getOppositeRelationshipType] at hc hp hr hs
  simp only [getAllNeighbors, relationshipTypes, flatMap_cons, flatMap_nil,
    count_append, append_nil]
  omega

lemma Consistent.turn (h : g.Consistent) (hasn : asn ∈ g.asNodes) :
    Turn g asn (g.getAllNeighbors asn) g where
  nodup := h.nodup
  mem_asNodes n := by
    rw [h.mem_asNodes]
    constructor
    · exact .inr
    · rintro (rfl | hn)
      · exact (h.mem_asNodes n).mp hasn
      · exact hn
  subset _ hn := hn
  perm := Perm.refl _
  count_eq n _ := h.count_getAllNeighbors n asn
  filter_eq _ _ _ := rfl
  edgeCount_eq := by
    rw [h.edgeCount_eq, entries_eq_sum h.nodup (fun n hn => List.mem_toFinset.mpr hn)
      fun n hn hnot => absurd (List.mem_toFinset.mp hn) hnot]

/-- `g'` has the edges of `g` between ASes that are not in the list. -/
def Without (g : GraphData) (removed : List Asn) (g' : GraphData) : Prop :=
  ∀ n t, g'.neighbors n t = if n ∈ removed then [] else (g.neighbors n t).filter (· ∉ removed)

/-- The situation after the last turn: the AS is listed nowhere, and the rest is as it was. -/
lemma Turn.without (h : Turn g₀ asn [] g) : g₀.Without [asn] g := by
  intro n t
  simp only [mem_singleton]
  split_ifs with hn
  · subst hn
    refine eq_nil_iff_forall_not_mem.mpr fun m hm => ?_
    have hnil := h.perm.eq_nil
    exact not_mem_nil (hnil ▸ mem_getAllNeighbors.mpr ⟨t, hm⟩)
  · rw [← h.filter_eq n hn t, eq_comm, filter_eq_self]
    intro m hm
    have hcount := h.count_eq n hn
    rw [count_nil, count_eq_zero] at hcount
    have hne : m ≠ asn := fun he => hcount (he ▸ mem_getAllNeighbors.mpr ⟨t, hm⟩)
    simpa using hne

/-- Consistency of edges is inherited by the remaining ASes. -/
lemma Without.balanced {removed : List Asn} (hw : g.Without removed g') (h : g.Consistent) (n : Asn)
    (t : RelationshipType) (m : Asn) : (g'.neighbors n t).count m =
      (g'.neighbors m (getOppositeRelationshipType t)).count n := by
  rw [hw n t, hw m]
  by_cases hn : n ∈ removed
  · rw [if_pos hn, count_nil, eq_comm]
    split_ifs with hm
    · rfl
    · exact count_eq_zero_of_not_mem fun hmem => by simp [hn] at hmem
  · rw [if_neg hn]
    split_ifs with hm
    · exact count_eq_zero_of_not_mem fun hmem => by simp [hm] at hmem
    · rw [count_filter (by simpa using hm), count_filter (by simpa using hn),
        h.balanced n t m]

/-- **Removing a node.**  In a consistent graph, an AS without an edge to itself is removed without
an exception.  The graph stays consistent, and the edges between other ASes stay as they are. -/
theorem consistent_removeNode (h : g.Consistent) (hself : asn ∉ g.getAllNeighbors asn) :
    ∃ g', g.removeNode asn = some g' ∧ g'.Consistent ∧ g.Without [asn] g' := by
  unfold removeNode
  split_ifs with hasn
  · have hstep : ∀ (n : Asn) (rest : List Asn) (g' : GraphData),
        (Turn g asn (n :: rest) g' ∧ asn ∉ n :: rest) →
        ∃ g'', removeNodeTurn asn g' n = some g'' ∧ Turn g asn rest g'' ∧ asn ∉ rest := by
      rintro n rest g' ⟨hturn, hrest⟩
      rw [mem_cons, not_or] at hrest
      obtain ⟨g'', hg'', hturn'⟩ := hturn.removeNodeTurn (Ne.symm hrest.1)
      exact ⟨g'', hg'', hturn', hrest.2⟩
    obtain ⟨g', hg', hturn, -⟩ := Runs.exists_foldlM
      (P := fun rest g' => Turn g asn rest g' ∧ asn ∉ rest) hstep ⟨h.turn hasn, hself⟩
    have hnil : g'.getAllNeighbors asn = [] := hturn.perm.eq_nil
    have hw : g.Without [asn] (g'.dropNode asn) := hturn.without
    rw [hg']
    refine ⟨_, rfl, ⟨hturn.nodup.erase asn, fun n => ?_, hw.balanced h, ?_⟩, hw⟩
    · change n ∈ g'.asNodes.erase asn ↔ g'.getAllNeighbors n ≠ []
      rw [hturn.nodup.mem_erase_iff, hturn.mem_asNodes]
      by_cases hn : n = asn
      · simp [hn, hnil]
      · simp [hn]
    · rw [entries_eq_sum (g := g'.dropNode asn) (s := g.asNodes.toFinset)]
      · exact hturn.edgeCount_eq
      · exact hturn.nodup.erase asn
      · intro n hn
        exact List.mem_toFinset.mpr (hturn.subset n (mem_of_mem_erase hn))
      · intro n _ hnot
        change n ∉ g'.asNodes.erase asn at hnot
        rw [hturn.nodup.mem_erase_iff, hturn.mem_asNodes] at hnot
        change g'.getAllNeighbors n = []
        by_cases hn : n = asn
        · rw [hn, hnil]
        · by_contra hne
          exact hnot ⟨hn, .inr hne⟩
  · refine ⟨g, rfl, h, fun n t => ?_⟩
    simp only [mem_singleton]
    split_ifs with hn
    · subst hn
      refine eq_nil_iff_forall_not_mem.mpr fun m hm => hasn (h.mem_of_neighbors hm).1
    · rw [eq_comm, filter_eq_self]
      intro m hm
      have hne : m ≠ asn := fun he => hasn (he ▸ (h.mem_of_neighbors hm).2)
      simpa using hne

lemma Without.congr {l l' : List Asn} (hw : g.Without l g') (h : ∀ k, k ∈ l ↔ k ∈ l') :
    g.Without l' g' := by
  intro n t
  rw [hw n t]
  simp only [h]

lemma Without.trans {g'' : GraphData} {l l' : List Asn} (hw : g.Without l g')
    (hw' : g'.Without l' g'') : g.Without (l ++ l') g'' := by
  intro n t
  rw [hw' n t, hw n t]
  simp only [mem_append]
  by_cases hn : n ∈ l
  · simp [hn]
  · simp [hn, List.filter_filter, Bool.and_comm]

lemma Without.mem_getAllNeighbors {l : List Asn} (hw : g.Without l g')
    (hm : m ∈ g'.getAllNeighbors n) : m ∈ g.getAllNeighbors n := by
  obtain ⟨t, ht⟩ := GraphData.mem_getAllNeighbors.mp hm
  rw [hw n t] at ht
  split_ifs at ht
  · cases ht
  · exact GraphData.mem_getAllNeighbors.mpr ⟨t, mem_of_mem_filter ht⟩

lemma Without.mem_getAllNeighbors_iff {l : List Asn} (hw : g.Without l g') (hn : n ∉ l) :
    m ∈ g'.getAllNeighbors n ↔ m ∈ g.getAllNeighbors n ∧ m ∉ l := by
  simp only [GraphData.mem_getAllNeighbors, hw n, if_neg hn, mem_filter, decide_eq_true_eq]
  exact ⟨fun ⟨t, ht, hm⟩ => ⟨⟨t, ht⟩, hm⟩, fun ⟨⟨t, ht⟩, hm⟩ => ⟨t, ht, hm⟩⟩

end GraphData

/-! ### Sequences of modifications -/

/-- The state of a sequence of modifications. -/
structure Edits where
  graph : GraphData
  /-- The ASes for which `RemoveNode` has been called. -/
  removed : List Asn

namespace Edits

/-- A call of `RemoveNode`. -/
def removeNode (s : Edits) (asn : Asn) : Option Edits :=
  (s.graph.removeNode asn).map fun g => ⟨g, s.removed ++ [asn]⟩

/-- Remove the customers of an AS.  An AS that is not a node is a null reference. -/
def killChildrenTurn (s : Edits) (asn : Asn) : Option Edits :=
  if asn ∈ s.graph.asNodes then (s.graph.neighbors asn providerTo).foldlM removeNode s else none

/-- Remove the customers of the given ASes. -/
def killChildren (s : Edits) (bigAS : List Asn) : Option Edits := bigAS.foldlM killChildrenTurn s

/-- The graph is consistent, and the removed ASes have no edges. -/
structure Sound (s : Edits) : Prop where
  consistent : s.graph.Consistent
  isolated : ∀ n ∈ s.removed, ∀ t, s.graph.neighbors n t = []

variable {s : Edits} {asn : Asn}

lemma Sound.not_mem_asNodes (h : s.Sound) {n : Asn} (hn : n ∈ s.removed) : n ∉ s.graph.asNodes := by
  rw [h.consistent.mem_asNodes, not_not, eq_nil_iff_forall_not_mem]
  intro m hm
  obtain ⟨t, ht⟩ := GraphData.mem_getAllNeighbors.mp hm
  rw [h.isolated n hn t] at ht
  cases ht

/-- A call of `RemoveNode` for an AS without an edge to itself. -/
lemma Sound.removeNode (h : s.Sound) (hself : asn ∉ s.graph.getAllNeighbors asn) :
    ∃ s', s.removeNode asn = some s' ∧ s'.Sound ∧ s.graph.Without [asn] s'.graph := by
  obtain ⟨g', hg', hcons, hw⟩ := GraphData.consistent_removeNode h.consistent hself
  refine ⟨⟨g', s.removed ++ [asn]⟩, by rw [Edits.removeNode, hg']; rfl, ⟨hcons, ?_⟩, hw⟩
  intro n hn t
  rw [mem_append, mem_singleton] at hn
  rcases hn with hn | rfl
  · change g'.neighbors n t = []
    rw [hw n t, h.isolated n hn t]
    simp
  · change g'.neighbors n t = []
    rw [hw n t, if_pos (mem_singleton_self n)]

/-- Calls of `RemoveNode` for ASes without edges to themselves. -/
lemma Sound.removeNodes (h : s.Sound) {children : List Asn}
    (hself : ∀ c ∈ children, c ∉ s.graph.getAllNeighbors c) :
    ∃ s', children.foldlM Edits.removeNode s = some s' ∧ s'.Sound ∧
      s.graph.Without children s'.graph := by
  induction children generalizing s with
  | nil => exact ⟨s, rfl, h, fun n t => by simp⟩
  | cons c children ih =>
    obtain ⟨s₁, hs₁, hsound, hw⟩ := h.removeNode (hself c mem_cons_self)
    obtain ⟨s', hs', hsound', hw'⟩ := ih hsound fun c' hc' hmem =>
      hself c' (mem_cons_of_mem c hc') (hw.mem_getAllNeighbors hmem)
    refine ⟨s', ?_, hsound', hw.trans hw'⟩
    rw [foldlM_cons, hs₁]
    exact hs'

end Edits

/-- The operations that modify a graph. -/
inductive Modification
  | removeNode (asn : Asn)
  /-- Remove the customers of the given ASes. -/
  | killChildren (bigAS : List Asn)

/-- The customers of the given ASes. -/
def GraphData.customers (g : GraphData) (ases : List Asn) : List Asn :=
  ases.flatMap fun asn => g.neighbors asn providerTo

namespace Modification

/-- What an operation makes of a graph; `none` is an exception. -/
def apply (s : Edits) : Modification → Option Edits
  | removeNode asn => s.removeNode asn
  | killChildren bigAS => s.killChildren bigAS

/-- The AS to be removed has no edge to itself; the ASes whose customers are to be removed are no
customers of each other's predecessors, keep a neighbour that is not, and have no customers with
edges to themselves. -/
def Safe (s : Edits) : Modification → Prop
  | removeNode asn => asn ∉ s.graph.getAllNeighbors asn
  | killChildren bigAS => ∀ earlier asn later, bigAS = earlier ++ asn :: later →
      asn ∉ s.graph.customers earlier ∧
      (∃ m ∈ s.graph.getAllNeighbors asn, m ∉ s.graph.customers earlier) ∧
      ∀ c ∈ s.graph.neighbors asn providerTo, c ∉ s.graph.getAllNeighbors c

/-- The turn of `killChildren` for one AS, when the customers of the ASes before it are gone. -/
lemma killChildrenTurn_spec {g : GraphData} {s : Edits} {earlier : List Asn} {asn : Asn}
    (hs : s.Sound) (hw : g.Without (g.customers earlier) s.graph)
    (hasn : asn ∉ g.customers earlier)
    (hkeep : ∃ m ∈ g.getAllNeighbors asn, m ∉ g.customers earlier)
    (hself : ∀ c ∈ g.neighbors asn providerTo, c ∉ g.getAllNeighbors c) :
    ∃ s', s.killChildrenTurn asn = some s' ∧ s'.Sound ∧
      g.Without (g.customers (earlier ++ [asn])) s'.graph := by
  obtain ⟨m, hm, hmk⟩ := hkeep
  have hnode : asn ∈ s.graph.asNodes := by
    rw [hs.consistent.mem_asNodes]
    exact ne_nil_of_mem ((hw.mem_getAllNeighbors_iff hasn).mpr ⟨hm, hmk⟩)
  have hchildren : s.graph.neighbors asn providerTo =
      (g.neighbors asn providerTo).filter (· ∉ g.customers earlier) := by
    rw [hw asn providerTo, if_neg hasn]
  have hself' : ∀ c ∈ s.graph.neighbors asn providerTo, c ∉ s.graph.getAllNeighbors c := by
    intro c hc hmem
    rw [hchildren] at hc
    exact hself c (mem_of_mem_filter hc) (hw.mem_getAllNeighbors hmem)
  obtain ⟨s', hs', hsound, hw'⟩ := hs.removeNodes hself'
  refine ⟨s', by rw [Edits.killChildrenTurn, if_pos hnode, hs'], hsound, ?_⟩
  refine (hw.trans hw').congr fun k => ?_
  rw [hchildren, mem_append, mem_filter, GraphData.customers, GraphData.customers,
    flatMap_append, mem_append, flatMap_singleton, decide_eq_true_eq]
  tauto

/-- **One modification.**  It does not throw and keeps the state sound, if it is safe. -/
theorem sound_apply {s : Edits} (hs : s.Sound) {op : Modification} (hop : op.Safe s) :
    ∃ s', op.apply s = some s' ∧ s'.Sound := by
  cases op with
  | removeNode asn =>
    obtain ⟨s', hs', hsound, -⟩ := hs.removeNode hop
    exact ⟨s', hs', hsound⟩
  | killChildren bigAS =>
    have hstep : ∀ (asn : Asn) (later : List Asn) (s₁ : Edits),
        (∃ earlier, bigAS = earlier ++ asn :: later ∧ s₁.Sound ∧
          s.graph.Without (s.graph.customers earlier) s₁.graph) →
        ∃ s₂, s₁.killChildrenTurn asn = some s₂ ∧ ∃ earlier, bigAS = earlier ++ later ∧ s₂.Sound ∧
          s.graph.Without (s.graph.customers earlier) s₂.graph := by
      rintro asn later s₁ ⟨earlier, hbig, hsound, hw⟩
      obtain ⟨hasn, hkeep, hself⟩ := hop earlier asn later hbig
      obtain ⟨s₂, hs₂, hsound₂, hw₂⟩ := killChildrenTurn_spec hsound hw hasn hkeep hself
      exact ⟨s₂, hs₂, earlier ++ [asn], by rw [hbig, append_assoc]; rfl, hsound₂, hw₂⟩
    obtain ⟨s', hs', -, -, hsound, -⟩ := Runs.exists_foldlM
      (P := fun later s₁ => ∃ earlier, bigAS = earlier ++ later ∧ s₁.Sound ∧
        s.graph.Without (s.graph.customers earlier) s₁.graph) hstep (l := bigAS) (s := s)
      ⟨[], rfl, hs, fun n t => by simp [GraphData.customers]⟩
    exact ⟨s', hs', hsound⟩

/-- Building a graph and modifying it throws nowhere and leaves a consistent graph, in which no
removed AS is a node and no AS that is not a node is anybody's neighbour. -/
def KeepsGraph (ops : List Construction) (mods : List Modification) : Prop :=
  ∃ g s, Construction.build ops = some g ∧ mods.foldlM apply ⟨g.data, []⟩ = some s ∧
    s.graph.Consistent ∧ (∀ n ∈ s.removed, n ∉ s.graph.asNodes) ∧
    ∀ n ∉ s.graph.asNodes, ∀ k t, n ∉ s.graph.neighbors k t

/-- **Building and modifying a graph.**  If every construction is in range and every modification is
safe where it is applied, nothing throws, and the graph is consistent in every state. -/
theorem keepsGraph_of_safe (ops : List Construction) (mods : List Modification)
    (hops : Runs.MeetsAlong Construction.apply (fun g op => op.InRange g) ops NetworkGraph.empty)
    (hmods : ∀ g, Construction.build ops = some g →
      Runs.MeetsAlong apply (fun s op => op.Safe s) mods ⟨g.data, []⟩)
    (mods₁ mods₂ : List Modification) (hsplit : mods = mods₁ ++ mods₂) : KeepsGraph ops mods₁ := by
  obtain ⟨g, hg, hcons⟩ := Construction.consistent_build hops
  have hmeets := hmods g hg
  rw [hsplit] at hmeets
  obtain ⟨s, hs, hsound⟩ := hmeets.of_append.exists_foldlM (P := Edits.Sound)
    (fun s op hs hop => sound_apply hs hop) ⟨hcons, fun n hn => absurd hn not_mem_nil⟩
  exact ⟨g, s, hg, hs, hsound.consistent, fun n hn => hsound.not_mem_asNodes hn,
    fun n hn k t => hsound.consistent.not_mem_neighbors hn k t⟩

/-- A provider with two customers, of which the second is also a peer of the first. -/
def smallFile : List (List Char) := ["1\t2\tp2c".toList, "1\t3\tp2c".toList, "2\t3\tp2p".toList]

/-- Removing one customer, and then the customers that are left. -/
theorem keepsGraph_smallFile :
    KeepsGraph [.processCyclopsFile smallFile] [.removeNode 2, .killChildren [1]] := by
  refine keepsGraph_of_safe [.processCyclopsFile smallFile] [.removeNode 2, .killChildren [1]]
    ⟨trivial, fun _ _ => trivial⟩ (fun g hg => ?_) _ [] (append_nil _).symm
  obtain rfl := Option.some.inj hg
  have hself :
      2 ∉ (smallFile.foldl processCyclopsLine NetworkGraph.empty).data.getAllNeighbors 2 := by
    decide +kernel
  refine ⟨hself, fun s hs => ⟨?_, fun _ _ => trivial⟩⟩
  have hstate : (Edits.removeNode ⟨(smallFile.foldl processCyclopsLine NetworkGraph.empty).data, []⟩
      2).map (fun s => (s.graph.getAllNeighbors 1, s.graph.neighbors 1 providerTo,
        s.graph.getAllNeighbors 3)) = some ([3], [3], [1]) := by
    decide +kernel
  change Edits.removeNode _ 2 = some s at hs
  rw [show Edits.removeNode _ 2 = some s from hs, map_some, Option.some.injEq,
    Prod.mk.injEq, Prod.mk.injEq] at hstate
  obtain ⟨h₁, h₂, h₃⟩ := hstate
  intro earlier asn later hsplit
  obtain ⟨rfl, rfl, rfl⟩ : earlier = [] ∧ asn = 1 ∧ later = [] := by
    cases earlier with
    | nil => simpa [eq_comm] using hsplit
    | cons a earlier => simp at hsplit
  refine ⟨by simp [GraphData.customers], ⟨3, by simp [h₁], by simp [GraphData.customers]⟩, ?_⟩
  intro c hc
  rw [h₂, mem_singleton] at hc
  rw [hc, h₃]
  decide

/-- A file with one edge, from an AS to itself. -/
def selfEdgeFile : List (List Char) := ["5\t5\tp2p".toList]

/-- Removing an AS with an edge to itself throws: the first of two turns removes both entries. -/
theorem not_keepsGraph_selfEdgeFile :
    ¬ KeepsGraph [.processCyclopsFile selfEdgeFile] [.removeNode 5] := by
  rintro ⟨g, s, hg, hs, -⟩
  obtain rfl := Option.some.inj hg
  have hnone :
      Edits.removeNode ⟨(selfEdgeFile.foldl processCyclopsLine NetworkGraph.empty).data, []⟩ 5 =
        none := by
    have hmap : (Edits.removeNode
        ⟨(selfEdgeFile.foldl processCyclopsLine NetworkGraph.empty).data, []⟩ 5).isNone = true := by
      decide +kernel
    exact isNone_iff_eq_none.mp hmap
  rw [foldlM_cons, apply, hnone] at hs
  cases hs

end Modification

end Astoria
