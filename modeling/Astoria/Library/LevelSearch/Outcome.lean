import Astoria.Library.LevelSearch.Invariant

/-!
# The outcome of the resumable breadth-first search

`Forest` is the shape in which a run finds the search data, `Outcome` what a finished run leaves.
`loop_outcome` leads from the first to the second and `Outcome.forest` back, so that runs along
different edges can be put one after another.
-/

namespace LevelSearch

open Function

variable {V : Type*} {r : Run V}

/-- The shape of the data in which a run finds the search tree and leaves it: every old vertex
other than the root hangs one level below its parent, the child lists mirror the parent pointers,
and vertices that have not been found have no records. -/
structure Forest (root : V) (nodes : List V) (old : V → Bool) (s : State V) : Prop where
  /-- No vertex has been met in the coming run. -/
  unseen : ∀ n, s.status n = .unseen
  old_mem : ∀ n, old n = true → n ∈ nodes
  /-- If anything is old, the root is. -/
  root_old : ∀ n, old n = true → old root = true
  /-- An old vertex other than the root hangs one level below its parent. -/
  parent_old : ∀ n, old n = true → n ≠ root → ∃ p, s.parent n = some p ∧
    (old p = true ∨ p = root) ∧ s.depth n = s.depth p + 1
  parent_none : ∀ n, old n = false ∨ n = root → s.parent n = none
  preds_nil : ∀ n, old n = false → n ≠ root → s.preds n = []
  /-- The child lists mirror the parent pointers. -/
  mem_children : ∀ q n, n ∈ s.children q ↔ s.parent n = some q
  children_nodup : ∀ q, (s.children q).Nodup
  /-- The root has depth zero once a run has started from it. -/
  root_depth : old root = true → s.depth root = 0

/-! ### The outcome of a run -/

/-- What a finished run leaves behind, for a run that began in the state `s₀`. -/
structure Outcome (r : Run V) (s₀ s : State V) : Prop where
  /-- Seen vertices are vertices. -/
  mem_nodes : ∀ n, s.status n ≠ .unseen → n ∈ r.nodes
  /-- The whole earlier tree has been walked again. -/
  fixed_processed : ∀ n, r.Fixed n → s.status n = .processed
  /-- A new vertex is found exactly when a processed vertex has an edge to it. -/
  found_iff : ∀ n, ¬ r.Fixed n →
    (s.status n ≠ .unseen ↔ ∃ m, s.status m = .processed ∧ n ∈ r.adj m)
  /-- The new vertices are processed, unless the run is limited. -/
  processed_iff : ∀ n, ¬ r.Fixed n →
    (s.status n = .processed ↔ s.status n ≠ .unseen ∧ r.limited = false)
  /-- A new vertex lies at most one level below every processed vertex with an edge to it. -/
  depth_le : ∀ m n, s.status m = .processed → n ∈ r.adj m → ¬ r.Fixed n →
    s.depth n ≤ s.depth m + 1
  preds_nodup : ∀ n, ¬ r.Fixed n → (s.preds n).Nodup
  /-- The predecessors of a new vertex are the processed vertices of the previous level with an
  edge to it. -/
  mem_preds : ∀ n, ¬ r.Fixed n → ∀ m, m ∈ s.preds n ↔
    s.status m = .processed ∧ n ∈ r.adj m ∧ s.depth m + 1 = s.depth n
  /-- A new vertex that has been found has a predecessor. -/
  preds_ne_nil : ∀ n, ¬ r.Fixed n → s.status n ≠ .unseen → s.preds n ≠ []
  parent_eq : ∀ n, ¬ r.Fixed n → s.parent n = chosenParent r n (s.preds n)
  /-- The records of fixed vertices have not changed. -/
  frame : ∀ n, r.Fixed n →
    s.depth n = s₀.depth n ∧ s.parent n = s₀.parent n ∧ s.preds n = s₀.preds n
  /-- The child lists mirror the parent pointers. -/
  mem_children : ∀ q n, n ∈ s.children q ↔ s.parent n = some q
  children_nodup : ∀ q, (s.children q).Nodup

/-- When the queue is empty, all fixed vertices have been processed. -/
lemma Inv.fixed_processed {s₀ s : State V} {done : List V} (hst : Started r s₀)
    (h : Inv r s₀ done [] (doneEdges r done) (fun p _ => p ∈ done) s) (hq : s.queue = [])
    {n : V} (hf : r.Fixed n) : s.status n = .processed := by
  have hseen : ∀ m, r.Fixed m → s.status m ≠ .unseen → s.status m = .processed := by
    intro m hm hu
    cases hs : s.status m with
    | unseen => exact absurd hs hu
    | processed => rfl
    | seen =>
      rcases h.seen_waiting m hs with hw | hw
      · simp [hq] at hw
      · exact absurd hm hw.2
  -- by induction on the depth: the parent has been processed, so its child has been visited
  induction hk : s₀.depth n using Nat.strongRecOn generalizing n with
  | ind k ih =>
    by_cases hr : n = r.root
    · exact hseen n hf (hr ▸ h.root_seen)
    · obtain ⟨p, hp, hpf, hd⟩ := hst.tree n hf hr
      have hproc := ih (s₀.depth p) (by omega) hpf rfl
      have hpar : s.parent n = some p := (h.frame n hf).2.1.trans hp
      exact hseen n hf ((h.old_seen_iff n p hf hr hpar).2 ((h.processed_iff p).1 hproc))

/-- The invariant with an empty queue is the outcome. -/
lemma Inv.outcome {s₀ s : State V} {done : List V} (hst : Started r s₀)
    (h : Inv r s₀ done [] (doneEdges r done) (fun p _ => p ∈ done) s) (hq : s.queue = []) :
    Outcome r s₀ s where
  mem_nodes := h.mem_nodes
  fixed_processed _ hf := h.fixed_processed hst hq hf
  found_iff n hn := by
    rw [h.fresh_seen_iff n hn]
    simp only [doneEdges, h.processed_iff]
  processed_iff n hn := by
    constructor
    · intro hs
      refine ⟨by simp [hs], ?_⟩
      by_contra hl
      have hmem : n ∈ done ++ [] ++ s.queue := by simpa [hq] using (h.processed_iff n).1 hs
      exact hn (h.limited_fixed (by simpa using hl) n hmem)
    · rintro ⟨hu, hl⟩
      cases hs : s.status n with
      | unseen => exact absurd hs hu
      | processed => rfl
      | seen =>
        rcases h.seen_waiting n hs with hw | hw
        · simp [hq] at hw
        · rw [hl] at hw
          exact absurd hw.1 (by simp)
  depth_le m n hm ha hn := h.depth_le m n ⟨(h.processed_iff m).1 hm, ha⟩ hn
  preds_nodup := h.preds_nodup
  mem_preds n hn m := by
    rw [h.mem_preds n hn m, h.processed_iff]
    simp only [doneEdges, and_assoc]
  preds_ne_nil := h.preds_ne_nil
  parent_eq := h.parent_eq
  frame := h.frame
  mem_children := h.mem_children
  children_nodup := h.children_nodup

/-- The processed vertices are the seen ones that may be expanded. -/
lemma Outcome.processed_iff_seen {s₀ s : State V} (h : Outcome r s₀ s) (m : V) :
    s.status m = .processed ↔ s.status m ≠ .unseen ∧ (r.limited = false ∨ r.Fixed m) := by
  by_cases hf : r.Fixed m
  · simp [h.fixed_processed m hf, hf]
  · simp [h.processed_iff m hf, hf]

section Start

variable [DecidableEq V] {r : Run V} {s : State V}

variable (h : Forest r.root r.nodes r.old s) (hroot : r.root ∈ r.nodes)

include h hroot

/-- A run that starts from a forest starts in a tree. -/
lemma Forest.started (hadj : ∀ m n, n ∈ r.adj m → n ∈ r.nodes) : Started r (start r.root s) where
  tree n hf hr := by
    have hold : r.old n = true := hf.resolve_right hr
    obtain ⟨p, hp, hpf, hd⟩ := h.parent_old n hold hr
    refine ⟨p, hp, hpf, ?_⟩
    simp only [start, update_of_ne hr]
    by_cases hpr : p = r.root
    · rw [hpr, update_self, hd, hpr, h.root_depth (h.root_old n hold)]
    · rw [update_of_ne hpr, hd]
  root_depth := by simp [start]
  root_parent := h.parent_none r.root (.inr rfl)
  adj_mem := hadj
  fixed_mem n hf := by
    rcases hf with hf | rfl
    · exact h.old_mem n hf
    · exact hroot

/-- The invariant holds when the root has been enqueued. -/
lemma Forest.inv : Inv r (start r.root s) [] [] (doneEdges r []) (fun p _ => p ∈ ([] : List V))
      (start r.root s) := by
  have hstat : ∀ n, (start r.root s).status n ≠ .unseen ↔ n = r.root := by
    intro n
    by_cases hn : n = r.root
    · simp [start, hn]
    · simp [start, hn, h.unseen n]
  have hfresh : ∀ n, ¬ r.Fixed n → r.old n = false ∧ n ≠ r.root := by
    intro n hn
    simp only [Run.Fixed, not_or] at hn
    exact ⟨by simpa using hn.1, hn.2⟩
  have hpreds : ∀ n, ¬ r.Fixed n → (start r.root s).preds n = [] := by
    intro n hn
    obtain ⟨ho, hr⟩ := hfresh n hn
    simp only [start, update_of_ne hr]
    exact h.preds_nil n ho hr
  constructor
  case nodup => simp [start]
  case mem_nodes => exact fun n hn => (hstat n).1 hn ▸ hroot
  case processed_iff =>
    intro n
    by_cases hn : n = r.root
    · simp [start, hn]
    · simp [start, hn, h.unseen n]
  case waiting_seen => simp [start]
  case seen_waiting =>
    intro n hn
    have : n = r.root := (hstat n).1 (by simp [hn])
    exact .inl (by simp [start, this])
  case limited_fixed =>
    intro _ n hn
    exact .inr (by simpa [start] using hn)
  case sorted => simp [start]
  case spread =>
    intro n hn x hx
    rw [(hstat n).1 hn]
    simp [start]
  case root_seen => exact (hstat _).2 rfl
  case ed_mem => exact fun m n he _ => absurd he.1 (by simp)
  case fresh_seen_iff =>
    intro n hn
    rw [hstat]
    simp [doneEdges, (hfresh n hn).2]
  case old_seen_iff =>
    intro n p _ hr _
    rw [hstat]
    simp [hr]
  case depth_le => exact fun m n he _ => absurd he.1 (by simp)
  case preds_nodup => exact fun n hn => by rw [hpreds n hn]; exact List.nodup_nil
  case mem_preds =>
    intro n hn m
    rw [hpreds n hn]
    simp [doneEdges]
  case preds_ne_nil => exact fun n hn hs => absurd ((hstat n).1 hs) (hfresh n hn).2
  case parent_eq =>
    intro n hn
    rw [hpreds n hn]
    exact h.parent_none n (.inl (hfresh n hn).1)
  case frame => exact fun _ _ => ⟨rfl, rfl, rfl⟩
  case mem_children => exact h.mem_children
  case children_nodup => exact h.children_nodup

/-- **A finished run.**  Started from a forest and given one unit of fuel for every vertex, the
main loop empties its queue and reaches the outcome. -/
theorem loop_outcome (hadj : ∀ m n, n ∈ r.adj m → n ∈ r.nodes) :
    Outcome r (start r.root s) (loop r r.nodes.length (start r.root s)) := by
  have hst := h.started hroot hadj
  obtain ⟨done, hinv, hq⟩ := (h.inv hroot).loop hst r.nodes.length (by simp)
  exact hinv.outcome hst hq

/-- More fuel than one unit for every vertex does not change the result. -/
lemma loop_of_length_le
    (hadj : ∀ m n, n ∈ r.adj m → n ∈ r.nodes) {fuel : ℕ} (hfuel : r.nodes.length ≤ fuel) :
    loop r fuel (start r.root s) = loop r r.nodes.length (start r.root s) := by
  obtain ⟨done, -, hq⟩ := (h.inv hroot).loop (h.started hroot hadj) r.nodes.length (by simp)
  obtain ⟨k, rfl⟩ := Nat.exists_eq_add_of_le hfuel
  rw [loop_add]
  cases k with
  | zero => rfl
  | succ k => rw [loop, hq]

end Start

/-- Forget which vertices the finished run has met. -/
def reset (s : State V) : State V := { s with status := fun _ => .unseen }

/-- A vertex that the run has not met is new and has no predecessors. -/
lemma Outcome.preds_nil {s₀ s : State V} (h : Outcome r s₀ s) {n : V}
    (hn : s.status n = .unseen) : ¬ r.Fixed n ∧ s.preds n = [] := by
  have hf : ¬ r.Fixed n := fun hf => by simp [h.fixed_processed n hf] at hn
  refine ⟨hf, List.eq_nil_iff_forall_not_mem.mpr fun m hm => ?_⟩
  obtain ⟨hproc, hadj, -⟩ := (h.mem_preds n hf m).1 hm
  exact (h.found_iff n hf).2 ⟨m, hproc, hadj⟩ hn

/-- A finished run leaves a forest whose old vertices are the ones that it has met. -/
theorem Outcome.forest {s₀ s : State V} (hst : Started r s₀) (h : Outcome r s₀ s)
    {old : V → Bool} (hold : ∀ n, old n = true ↔ s.status n ≠ .unseen) :
    Forest r.root r.nodes old (reset s) where
  unseen _ := rfl
  old_mem n hn := h.mem_nodes n ((hold n).1 hn)
  root_old n _ := by simp [hold, h.fixed_processed r.root (.inr rfl)]
  parent_old n hn hr := by
    by_cases hf : r.Fixed n
    · obtain ⟨p, hp, hpf, hd⟩ := hst.tree n hf hr
      refine ⟨p, (h.frame n hf).2.1.trans hp, .inl ?_, ?_⟩
      · simp [hold, h.fixed_processed p hpf]
      · exact (h.frame n hf).1.trans (hd.trans (by rw [← (h.frame p hpf).1]; rfl))
    · have hne := h.preds_ne_nil n hf ((hold n).1 hn)
      obtain ⟨p, hp⟩ : ∃ p, chosenParent r n (s.preds n) = some p := by
        rw [← Option.ne_none_iff_exists', ne_eq, chosenParent_eq_none]
        exact hne
      have hmem := (h.mem_preds n hf p).1 (chosenParent_mem hp)
      exact ⟨p, (h.parent_eq n hf).trans hp, .inl (by simp [hold, hmem.1]), hmem.2.2.symm⟩
  parent_none n hn := by
    rcases hn with hn | hn
    · obtain ⟨hf, hpreds⟩ := h.preds_nil (by simpa [hn] using hold n)
      show s.parent n = none
      rw [h.parent_eq n hf, hpreds]
      rfl
    · rw [hn]
      exact (h.frame r.root (.inr rfl)).2.1.trans hst.root_parent
  preds_nil n hn _ := (h.preds_nil (by simpa [hn] using hold n)).2
  mem_children := h.mem_children
  children_nodup := h.children_nodup
  root_depth _ := (h.frame r.root (.inr rfl)).1.trans hst.root_depth

end LevelSearch
