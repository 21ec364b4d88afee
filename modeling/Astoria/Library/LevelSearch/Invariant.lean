import Mathlib.Data.List.Nodup
import Astoria.Library.LevelSearch.Machine
import Mathlib.Order.Basic

/-!
# The invariant of the resumable breadth-first search

`Started` is the tree in which a run begins and `Inv` the invariant of its main loop.  A visit has
four effects, and each keeps the invariant on its own (`Inv.discover`, `Inv.rejoin`, `Inv.tie`,
`Inv.skip`); `Inv.visit` puts them together, `Inv.examine` processes a whole vertex and `Inv.loop`
is the induction over the run.  The invariant speaks of the edges followed so far through the
relation `ed`, so that the same statement serves between two visits and between two vertices.
-/

namespace LevelSearch

open List
open Function

variable {V : Type*}

/-- The tree in which a run starts: the fixed vertices hang one level below their parents. -/
structure Started (r : Run V) (s₀ : State V) : Prop where
  /-- A fixed vertex other than the root hangs one level below its parent. -/
  tree : ∀ n, r.Fixed n → n ≠ r.root → ∃ p, s₀.parent n = some p ∧ r.Fixed p ∧
    s₀.depth n = s₀.depth p + 1
  root_depth : s₀.depth r.root = 0
  root_parent : s₀.parent r.root = none
  /-- Edges and child lists stay within the vertices. -/
  adj_mem : ∀ m n, n ∈ r.adj m → n ∈ r.nodes
  fixed_mem : ∀ n, r.Fixed n → n ∈ r.nodes

/-- The invariant of a run that began in the state `s₀`.  `done` lists the processed vertices in
order, `busy` the vertex being processed (if any); `ed m n` holds when `n` has been visited from
`m` along an edge of the run, `td p n` when the child `n` of `p` has been visited from `p`. -/
structure Inv (r : Run V) (s₀ : State V) (done busy : List V) (ed td : V → V → Prop)
    (s : State V) : Prop where
  /-- No vertex is enqueued twice. -/
  nodup : (done ++ busy ++ s.queue).Nodup
  /-- Seen vertices are vertices. -/
  mem_nodes : ∀ n, s.status n ≠ .unseen → n ∈ r.nodes
  /-- The processed vertices are the ones in `done`. -/
  processed_iff : ∀ n, s.status n = .processed ↔ n ∈ done
  waiting_seen : ∀ n ∈ busy ++ s.queue, s.status n = .seen
  /-- Seen vertices wait, except for the discoveries of a limited run. -/
  seen_waiting : ∀ n, s.status n = .seen →
    n ∈ busy ++ s.queue ∨ (r.limited = true ∧ ¬ r.Fixed n)
  /-- A limited run processes no vertex that it has discovered itself. -/
  limited_fixed : r.limited = true → ∀ n ∈ done ++ busy ++ s.queue, r.Fixed n
  /-- Vertices are processed by increasing depth. -/
  sorted : (done ++ busy ++ s.queue).Pairwise fun a b => s.depth a ≤ s.depth b
  /-- No seen vertex lies more than one level below a waiting one. -/
  spread : ∀ n, s.status n ≠ .unseen → ∀ x ∈ busy ++ s.queue, s.depth n ≤ s.depth x + 1
  root_seen : s.status r.root ≠ .unseen
  /-- Edges are followed from processed vertices or from the one being processed. -/
  ed_mem : ∀ m n, ed m n → ¬ r.Fixed n → m ∈ done ++ busy
  /-- A new vertex has been seen once it has been visited. -/
  fresh_seen_iff : ∀ n, ¬ r.Fixed n → (s.status n ≠ .unseen ↔ ∃ m, ed m n)
  /-- An old vertex has been seen once it has been visited from its parent. -/
  old_seen_iff : ∀ n p, r.Fixed n → n ≠ r.root → s.parent n = some p →
    (s.status n ≠ .unseen ↔ td p n)
  /-- A new vertex lies at most one level below every vertex it was visited from. -/
  depth_le : ∀ m n, ed m n → ¬ r.Fixed n → s.depth n ≤ s.depth m + 1
  preds_nodup : ∀ n, ¬ r.Fixed n → (s.preds n).Nodup
  /-- The predecessors are the visiting vertices of the previous level. -/
  mem_preds : ∀ n, ¬ r.Fixed n → ∀ m, m ∈ s.preds n ↔ ed m n ∧ s.depth m + 1 = s.depth n
  /-- A new vertex that has been seen has a predecessor. -/
  preds_ne_nil : ∀ n, ¬ r.Fixed n → s.status n ≠ .unseen → s.preds n ≠ []
  parent_eq : ∀ n, ¬ r.Fixed n → s.parent n = chosenParent r n (s.preds n)
  /-- The records of fixed vertices do not change. -/
  frame : ∀ n, r.Fixed n →
    s.depth n = s₀.depth n ∧ s.parent n = s₀.parent n ∧ s.preds n = s₀.preds n
  /-- The child lists mirror the parent pointers. -/
  mem_children : ∀ q n, n ∈ s.children q ↔ s.parent n = some q
  children_nodup : ∀ q, (s.children q).Nodup

namespace Inv

variable {r : Run V} {s₀ s : State V} {done busy : List V} {ed td ed' td' : V → V → Prop}

/-- The invariant looks at `ed` only for new vertices and at `td` only for parents. -/
lemma congr (h : Inv r s₀ done busy ed td s)
    (hed : ∀ m n, ¬ r.Fixed n → (ed m n ↔ ed' m n))
    (htd : ∀ n p, r.Fixed n → n ≠ r.root → s.parent n = some p → (td p n ↔ td' p n)) :
    Inv r s₀ done busy ed' td' s where
  nodup := h.nodup
  mem_nodes := h.mem_nodes
  processed_iff := h.processed_iff
  waiting_seen := h.waiting_seen
  seen_waiting := h.seen_waiting
  limited_fixed := h.limited_fixed
  sorted := h.sorted
  spread := h.spread
  root_seen := h.root_seen
  ed_mem m n he hn := h.ed_mem m n ((hed m n hn).2 he) hn
  fresh_seen_iff n hn := by
    rw [h.fresh_seen_iff n hn]
    exact exists_congr fun m => hed m n hn
  old_seen_iff n p hf hr hp := (h.old_seen_iff n p hf hr hp).trans (htd n p hf hr hp)
  depth_le m n he hn := h.depth_le m n ((hed m n hn).2 he) hn
  preds_nodup := h.preds_nodup
  mem_preds n hn m := by rw [h.mem_preds n hn m, hed m n hn]
  preds_ne_nil := h.preds_ne_nil
  parent_eq := h.parent_eq
  frame := h.frame
  mem_children := h.mem_children
  children_nodup := h.children_nodup

/-- A vertex of the history has been seen. -/
lemma status_of_mem (h : Inv r s₀ done busy ed td s) {n : V} (hn : n ∈ done ++ busy ++ s.queue) :
    s.status n ≠ .unseen := by
  rw [append_assoc, mem_append] at hn
  rcases hn with hn | hn
  · simp [(h.processed_iff n).2 hn]
  · simp [h.waiting_seen n hn]

end Inv

/-! ### One visit -/

section Visit

variable {r : Run V} {s₀ s : State V} {done : List V} {cur opp : V} {ed td : V → V → Prop}

/-- The relation `ed` extended by one pair. -/
def addPair (ed : V → V → Prop) (cur opp : V) : V → V → Prop :=
  fun m n => ed m n ∨ (m = cur ∧ n = opp)

section

variable (h : Inv r s₀ done [cur] ed td s)

include h

/-- The vertex being processed has been seen. -/
lemma Inv.cur_seen : s.status cur = .seen :=
  h.waiting_seen cur (by simp)

/-- Seen vertices lie at most one level below the vertex being processed. -/
lemma Inv.depth_le_cur {n : V} (hn : s.status n ≠ .unseen) : s.depth n ≤ s.depth cur + 1 :=
  h.spread n hn cur (by simp)

/-- Waiting vertices lie at or below the level of the vertex being processed. -/
lemma Inv.cur_depth_le {x : V} (hx : x ∈ [cur] ++ s.queue) : s.depth cur ≤ s.depth x := by
  have hs := h.sorted
  rw [append_assoc, pairwise_append] at hs
  rcases mem_cons.mp hx with rfl | hx
  · exact Nat.le_refl _
  · exact (pairwise_cons.mp hs.2.1).1 x hx

/-- Processed vertices lie at or above the level of the vertex being processed. -/
lemma Inv.done_depth_le {x : V} (hx : x ∈ done) : s.depth x ≤ s.depth cur := by
  have hs := h.sorted
  rw [append_assoc, pairwise_append] at hs
  exact hs.2.2 x hx cur (by simp)

end

section Updates

variable [DecidableEq V]

/-- Discovering a new vertex keeps the invariant. -/
lemma Inv.discover (h : Inv r s₀ done [cur] ed td s) (hopp : opp ∈ r.nodes)
    (hu : s.status opp = .unseen) (hold : r.old opp = false) :
    Inv r s₀ done [cur] (addPair ed cur opp) (addPair td cur opp) (discover r cur s opp) := by
  have hroot : opp ≠ r.root := fun hc => h.root_seen (hc ▸ hu)
  have hfix : ¬ r.Fixed opp := by simp [Run.Fixed, hold, hroot]
  have hcur : cur ≠ opp := fun hc => by
    have := h.cur_seen
    rw [hc, hu] at this
    cases this
  have hmem : ∀ n ∈ done ++ [cur] ++ s.queue, n ≠ opp :=
    fun n hn hc => h.status_of_mem hn (hc ▸ hu)
  have hnone : ∀ m, ¬ ed m opp := fun m hm => (h.fresh_seen_iff opp hfix).2 ⟨m, hm⟩ hu
  have hpreds : s.preds opp = [] := by
    refine eq_nil_iff_forall_not_mem.mpr fun m hm => ?_
    exact hnone m ((h.mem_preds opp hfix m).1 hm).1
  have hparent : s.parent opp = none := by
    rw [h.parent_eq opp hfix, hpreds]
    rfl
  have hchild : ∀ q, opp ∉ s.children q := by
    intro q hq
    rw [h.mem_children, hparent] at hq
    cases hq
  have hsrc : ∀ m n, ed m n → ¬ r.Fixed n → m ≠ opp := by
    intro m n he hn
    exact hmem m (mem_append_left _ (h.ed_mem m n he hn))
  have hcs : ∀ n, (n ∈ if r.limited then s.queue else s.queue ++ [opp]) →
      n ∈ s.queue ∨ (n = opp ∧ r.limited = false) := by
    intro n hn
    split at hn
    · exact .inl hn
    · next hl =>
      rcases mem_append.mp hn with hn | hn
      · exact .inl hn
      · exact .inr ⟨by simpa using hn, by simpa using hl⟩
  constructor
  case nodup =>
    simp only [LevelSearch.discover]
    split
    · exact h.nodup
    · rw [← append_assoc]
      refine nodup_append.mpr ⟨h.nodup, nodup_singleton opp, ?_⟩
      intro a ha b hb
      rw [mem_singleton] at hb
      exact hb ▸ hmem a ha
  case mem_nodes =>
    intro n hn
    by_cases hno : n = opp
    · exact hno ▸ hopp
    · simp only [LevelSearch.discover, update_of_ne hno] at hn
      exact h.mem_nodes n hn
  case processed_iff =>
    intro n
    by_cases hno : n = opp
    · subst hno
      simp only [LevelSearch.discover, update_self]
      constructor
      · intro hc
        cases hc
      · intro hd
        exact absurd rfl (hmem n (by simp [hd]))
    · simp only [LevelSearch.discover, update_of_ne hno]
      exact h.processed_iff n
  case waiting_seen =>
    intro n hn
    simp only [LevelSearch.discover, update_apply]
    have := h.waiting_seen n
    have := hcs n
    grind [LevelSearch.discover]
  case seen_waiting =>
    intro n
    simp only [LevelSearch.discover, update_apply]
    have := h.seen_waiting n
    grind
  case limited_fixed =>
    intro hl n
    have := h.limited_fixed hl n
    simp only [LevelSearch.discover, hl, if_true]
    exact this
  case sorted =>
    -- the depths of the history are unchanged, and `opp` enters at its end
    have hkeep : (done ++ [cur] ++ s.queue).Pairwise fun a b =>
        (LevelSearch.discover r cur s opp).depth a ≤
            (LevelSearch.discover r cur s opp).depth b := by
      refine h.sorted.imp_of_mem fun {a b} ha hb hab => ?_
      simpa [LevelSearch.discover, hmem a ha, hmem b hb] using hab
    by_cases hl : r.limited = true
    · simpa [LevelSearch.discover, hl] using hkeep
    · have hq : (LevelSearch.discover r cur s opp).queue = s.queue ++ [opp] := by
        simp [LevelSearch.discover, hl]
      rw [hq, ← append_assoc, pairwise_append]
      refine ⟨hkeep, pairwise_singleton _ _, ?_⟩
      intro a ha b hb
      rw [mem_singleton] at hb
      subst hb
      simpa [LevelSearch.discover, hmem a ha] using h.depth_le_cur (h.status_of_mem ha)
  case spread =>
    intro n hn x hx
    have := h.spread n
    have := hcs x
    have := @Inv.cur_depth_le _ _ _ _ _ _ _ _ h x
    have := @Inv.depth_le_cur _ _ _ _ _ _ _ _ h n
    simp only [LevelSearch.discover, update_apply] at hn hx ⊢
    grind
  case root_seen =>
    simpa [LevelSearch.discover, update_of_ne hroot.symm] using h.root_seen
  case ed_mem =>
    intro m n he hn
    rcases he with he | ⟨rfl, -⟩
    · exact h.ed_mem m n he hn
    · simp
  case fresh_seen_iff =>
    intro n hn
    have := h.fresh_seen_iff n hn
    simp only [LevelSearch.discover, update_apply, addPair]
    grind
  case old_seen_iff =>
    intro n p hf hr hp
    have hno : n ≠ opp := fun hc => hfix (hc ▸ hf)
    simp only [LevelSearch.discover, update_of_ne hno] at hp ⊢
    have := h.old_seen_iff n p hf hr hp
    simp only [addPair]
    grind
  case depth_le =>
    intro m n he hn
    have := h.depth_le m n
    have := hsrc m n
    simp only [LevelSearch.discover, update_apply, addPair] at he ⊢
    grind
  case preds_nodup =>
    intro n hn
    have := h.preds_nodup n hn
    simp only [LevelSearch.discover, update_apply]
    grind
  case mem_preds =>
    intro n hn m
    have := h.mem_preds n hn m
    have := hsrc m n
    simp only [LevelSearch.discover, update_apply, addPair]
    grind
  case preds_ne_nil =>
    intro n hn
    have := h.preds_ne_nil n hn
    simp only [LevelSearch.discover, update_apply]
    grind
  case parent_eq =>
    intro n hn
    have := h.parent_eq n hn
    simp only [LevelSearch.discover, update_apply]
    split
    · next hno =>
      rw [hno, hpreds]
      rfl
    · exact this
  case frame =>
    intro n hn
    have hno : n ≠ opp := fun hc => hfix (hc ▸ hn)
    simp only [LevelSearch.discover, update_of_ne hno]
    exact h.frame n hn
  case mem_children =>
    intro q n
    have := h.mem_children q n
    have := hchild q
    simp only [LevelSearch.discover, update_apply]
    grind
  case children_nodup =>
    intro q
    have := h.children_nodup q
    have := hchild q
    simp only [LevelSearch.discover, update_apply]
    grind

/-- Meeting an old vertex again from its parent keeps the invariant. -/
lemma Inv.rejoin (h : Inv r s₀ done [cur] ed td s) (hopp : opp ∈ r.nodes)
    (hst : Started r s₀)
    (hu : s.status opp = .unseen) (hold : r.old opp = true) (hp : s.parent opp = some cur) :
    Inv r s₀ done [cur] (addPair ed cur opp) (addPair td cur opp) (rejoin s opp) := by
  have hroot : opp ≠ r.root := fun hc => h.root_seen (hc ▸ hu)
  have hfix : r.Fixed opp := .inl hold
  have hmem : ∀ n ∈ done ++ [cur] ++ s.queue, n ≠ opp :=
    fun n hn hc => h.status_of_mem hn (hc ▸ hu)
  obtain ⟨hdep, hfc⟩ : s.depth opp = s.depth cur + 1 ∧ r.Fixed cur := by
    obtain ⟨p, hpar, hpf, hpd⟩ := hst.tree opp hfix hroot
    obtain ⟨hd₁, hp₁, -⟩ := h.frame opp hfix
    rw [hp, hpar, Option.some.injEq] at hp₁
    subst hp₁
    rw [hd₁, hpd, (h.frame cur hpf).1]
    exact ⟨rfl, hpf⟩
  constructor
  case nodup =>
    simp only [LevelSearch.rejoin]
    rw [← append_assoc]
    refine nodup_append.mpr ⟨h.nodup, nodup_singleton opp, ?_⟩
    intro a ha b hb
    rw [mem_singleton] at hb
    exact hb ▸ hmem a ha
  case mem_nodes =>
    intro n hn
    by_cases hno : n = opp
    · exact hno ▸ hopp
    · simp only [LevelSearch.rejoin, update_of_ne hno] at hn
      exact h.mem_nodes n hn
  case processed_iff =>
    intro n
    have := h.processed_iff n
    simp only [LevelSearch.rejoin, update_apply]
    grind
  case waiting_seen =>
    intro n hn
    have := h.waiting_seen n
    simp only [LevelSearch.rejoin, update_apply] at hn ⊢
    grind
  case seen_waiting =>
    intro n hn
    have := h.seen_waiting n
    simp only [LevelSearch.rejoin, update_apply] at hn ⊢
    grind
  case limited_fixed =>
    intro hl n hn
    have := h.limited_fixed hl n
    simp only [LevelSearch.rejoin] at hn
    grind
  case sorted =>
    simp only [LevelSearch.rejoin]
    rw [← append_assoc, pairwise_append]
    refine ⟨h.sorted, pairwise_singleton _ _, ?_⟩
    intro a ha b hb
    rw [mem_singleton] at hb
    rw [hb, hdep]
    exact h.depth_le_cur (h.status_of_mem ha)
  case spread =>
    intro n hn x hx
    have := h.spread n
    have hle := @Inv.cur_depth_le _ _ _ _ _ _ _ _ h x
    have := @Inv.depth_le_cur _ _ _ _ _ _ _ _ h n
    simp only [LevelSearch.rejoin, update_apply] at hn hx ⊢
    grind
  case root_seen =>
    simpa [LevelSearch.rejoin, update_of_ne hroot.symm] using h.root_seen
  case ed_mem =>
    intro m n he hn
    rcases he with he | ⟨rfl, -⟩
    · exact h.ed_mem m n he hn
    · simp
  case fresh_seen_iff =>
    intro n hn
    have hno : n ≠ opp := fun hc => hn (hc ▸ hfix)
    simpa [LevelSearch.rejoin, addPair, hno] using h.fresh_seen_iff n hn
  case old_seen_iff =>
    intro n p hf hr hpn
    have := h.old_seen_iff n p hf hr hpn
    simp only [LevelSearch.rejoin, update_apply, addPair] at hpn ⊢
    grind
  case depth_le =>
    intro m n he hn
    have hno : n ≠ opp := fun hc => hn (hc ▸ hfix)
    exact h.depth_le m n (by simpa [addPair, hno] using he) hn
  case mem_preds =>
    intro n hn m
    have hno : n ≠ opp := fun hc => hn (hc ▸ hfix)
    simpa [LevelSearch.rejoin, addPair, hno] using h.mem_preds n hn m
  case preds_nodup => exact h.preds_nodup
  case preds_ne_nil =>
    intro n hn hs
    have hno : n ≠ opp := fun hc => hn (hc ▸ hfix)
    exact h.preds_ne_nil n hn (by simpa [LevelSearch.rejoin, hno] using hs)
  case parent_eq => exact h.parent_eq
  case frame => exact h.frame
  case mem_children => exact h.mem_children
  case children_nodup => exact h.children_nodup

/-- The child lists after `opp` has been moved to `cur`. -/
lemma mem_moveChild {q n : V} (hm : ∀ q n, n ∈ s.children q ↔ s.parent n = some q)
    (hnd : ∀ q, (s.children q).Nodup) :
    n ∈ moveChild cur s opp q ↔ update s.parent opp (some cur) n = some q := by
  have hq := hm q n
  have hq' := hm cur n
  have hd := hnd q
  have hd' := hnd cur
  unfold moveChild
  split
  · next p hp =>
    have := hm p opp
    simp only [update_apply]
    grind [Nodup.mem_erase_iff]
  · next hp =>
    simp only [update_apply]
    grind

/-- Moving a child keeps the child lists free of repetitions. -/
lemma moveChild_nodup {q : V} (hm : ∀ q n, n ∈ s.children q ↔ s.parent n = some q)
    (hnd : ∀ q, (s.children q).Nodup) : (moveChild cur s opp q).Nodup := by
  have hd := hnd q
  have hd' := hnd cur
  have hq' := hm cur opp
  unfold moveChild
  split
  · next p hp =>
    have := hm p opp
    have := hnd p
    simp only [update_apply]
    grind [Nodup.mem_erase_iff, Nodup.erase]
  · next hp =>
    simp only [update_apply]
    grind

/-- Recording a second route of the same length keeps the invariant. -/
lemma Inv.tie (h : Inv r s₀ done [cur] ed td s) (hs : s.status opp = .seen)
    (hdep : s.depth opp = s.depth cur + 1) (hfix : ¬ r.Fixed opp) (hed : ¬ ed cur opp) :
    Inv r s₀ done [cur] (addPair ed cur opp) (addPair td cur opp) (tie r cur s opp) := by
  obtain ⟨p, hp⟩ : ∃ p, s.parent opp = some p := by
    rw [h.parent_eq opp hfix, ← Option.ne_none_iff_exists', ne_eq, chosenParent_eq_none]
    exact h.preds_ne_nil opp hfix (by simp [hs])
  have hpc : chosenParent r opp (s.preds opp) = some p := by rw [← h.parent_eq opp hfix, hp]
  constructor
  case nodup => exact h.nodup
  case mem_nodes => exact h.mem_nodes
  case processed_iff => exact h.processed_iff
  case waiting_seen => exact h.waiting_seen
  case seen_waiting => exact h.seen_waiting
  case limited_fixed => exact h.limited_fixed
  case sorted => exact h.sorted
  case spread => exact h.spread
  case root_seen => exact h.root_seen
  case ed_mem =>
    intro m n he hn
    rcases he with he | ⟨rfl, -⟩
    · exact h.ed_mem m n he hn
    · simp
  case fresh_seen_iff =>
    intro n hn
    have := h.fresh_seen_iff n hn
    simp only [LevelSearch.tie, addPair]
    grind
  case old_seen_iff =>
    intro n q hf hr hpn
    have hno : n ≠ opp := fun hc => hfix (hc ▸ hf)
    have hpn' : s.parent n = some q := by
      simp only [LevelSearch.tie] at hpn
      split at hpn
      · simpa [hno] using hpn
      · exact hpn
    simpa [LevelSearch.tie, addPair, hno] using h.old_seen_iff n q hf hr hpn'
  case depth_le =>
    intro m n he hn
    rcases he with he | ⟨rfl, rfl⟩
    · exact h.depth_le m n he hn
    · exact Nat.le_of_eq hdep
  case preds_nodup =>
    intro n hn
    have := h.preds_nodup n hn
    have := h.mem_preds n hn cur
    simp only [LevelSearch.tie, update_apply]
    grind
  case mem_preds =>
    intro n hn m
    have := h.mem_preds n hn m
    simp only [LevelSearch.tie, update_apply, addPair]
    grind
  case preds_ne_nil =>
    intro n hn hs'
    have := h.preds_ne_nil n hn hs'
    simp only [LevelSearch.tie, update_apply]
    split
    · simp
    · exact this
  case parent_eq =>
    intro n hn
    by_cases hno : n = opp
    · subst hno
      rw [LevelSearch.tie]
      simp only [update_self, chosenParent_append hpc, tieWon, hp]
      split <;> simp_all
    · simp only [LevelSearch.tie, update_of_ne hno, ← h.parent_eq n hn]
      split <;> simp [hno]
  case frame =>
    intro n hn
    have hno : n ≠ opp := fun hc => hfix (hc ▸ hn)
    have := h.frame n hn
    simp only [LevelSearch.tie, update_of_ne hno]
    split <;> simpa [hno] using this
  case mem_children =>
    intro q n
    simp only [LevelSearch.tie]
    split
    · exact mem_moveChild h.mem_children h.children_nodup
    · exact h.mem_children q n
  case children_nodup =>
    intro q
    simp only [LevelSearch.tie]
    split
    · exact moveChild_nodup h.mem_children h.children_nodup
    · exact h.children_nodup q

end Updates

/-- Meeting a vertex to which nothing happens keeps the invariant. -/
lemma Inv.skip (h : Inv r s₀ done [cur] ed td s)
    (hfresh : ¬ r.Fixed opp → s.status opp ≠ .unseen ∧ s.depth opp ≠ s.depth cur + 1)
    (hold : r.Fixed opp → opp ≠ r.root → s.parent opp = some cur → s.status opp ≠ .unseen) :
    Inv r s₀ done [cur] (addPair ed cur opp) (addPair td cur opp) s := by
  constructor
  case nodup => exact h.nodup
  case mem_nodes => exact h.mem_nodes
  case processed_iff => exact h.processed_iff
  case waiting_seen => exact h.waiting_seen
  case seen_waiting => exact h.seen_waiting
  case limited_fixed => exact h.limited_fixed
  case sorted => exact h.sorted
  case spread => exact h.spread
  case root_seen => exact h.root_seen
  case ed_mem =>
    intro m n he hn
    rcases he with he | ⟨rfl, -⟩
    · exact h.ed_mem m n he hn
    · simp
  case fresh_seen_iff =>
    intro n hn
    have := h.fresh_seen_iff n hn
    simp only [addPair]
    grind
  case old_seen_iff =>
    intro n p hf hr hp
    have := h.old_seen_iff n p hf hr hp
    simp only [addPair]
    grind
  case depth_le =>
    intro m n he hn
    rcases he with he | ⟨rfl, rfl⟩
    · exact h.depth_le m n he hn
    · exact h.depth_le_cur (hfresh hn).1
  case mem_preds =>
    intro n hn m
    have := h.mem_preds n hn m
    simp only [addPair]
    grind
  case preds_nodup => exact h.preds_nodup
  case preds_ne_nil => exact h.preds_ne_nil
  case parent_eq => exact h.parent_eq
  case frame => exact h.frame
  case mem_children => exact h.mem_children
  case children_nodup => exact h.children_nodup

/-- **Step lemma.**  Visiting a vertex that has not been visited from `cur` before keeps the
invariant. -/
lemma Inv.visit [DecidableEq V] (h : Inv r s₀ done [cur] ed td s) (hopp : opp ∈ r.nodes)
    (hst : Started r s₀)
    (hed : r.Fixed opp ∨ ¬ ed cur opp) :
    Inv r s₀ done [cur] (addPair ed cur opp) (addPair td cur opp) (visit r cur s opp) := by
  unfold LevelSearch.visit
  split_ifs with h₁ h₂ h₃ h₄
  · exact h.discover hopp h₁ h₂
  · exact h.rejoin hopp hst h₁ (by simpa using h₂) h₃
  · -- an old vertex met from elsewhere: it waits for its parent
    exact h.skip (fun hf => absurd (.inl (by simpa using h₂)) hf) (fun _ _ hp => absurd hp h₃)
  · obtain ⟨hs, hdep, hold⟩ := h₄
    have hfix : ¬ r.Fixed opp := by
      rintro (hc | hc)
      · rw [hold] at hc
        cases hc
      · -- the root has depth zero
        rw [hc, (h.frame r.root (.inr rfl)).1, hst.root_depth] at hdep
        omega
    exact h.tie hs hdep hfix (hed.resolve_left hfix)
  · refine h.skip (fun hf => ⟨h₁, fun hdep => h₄ ⟨?_, hdep, ?_⟩⟩) (fun _ _ _ => h₁)
    · -- a processed vertex does not lie below the one being processed
      cases hs : s.status opp with
      | unseen => exact absurd hs h₁
      | seen => rfl
      | processed =>
        have := h.done_depth_le ((h.processed_iff opp).1 hs)
        omega
    · simp only [Run.Fixed, not_or] at hf
      simpa using hf.1

/-! ### What a visit can rely on -/

variable {busy : List V}

/-- A seen vertex other than the root has a parent. -/
lemma Inv.parent_ne_none (hst : Started r s₀) (h : Inv r s₀ done busy ed td s)
    {n : V} (hn : s.status n ≠ .unseen) (hr : n ≠ r.root) : s.parent n ≠ none := by
  by_cases hf : r.Fixed n
  · obtain ⟨p, hp, -, -⟩ := hst.tree n hf hr
    rw [(h.frame n hf).2.1, hp]
    simp
  · rw [h.parent_eq n hf, ne_eq, chosenParent_eq_none]
    exact h.preds_ne_nil n hf hn

/-- A new vertex that has not been seen has no records. -/
lemma Inv.unseen_records (h : Inv r s₀ done busy ed td s) {n : V}
    (hn : s.status n = .unseen) (hf : ¬ r.Fixed n) : s.preds n = [] ∧ s.parent n = none := by
  have hpreds : s.preds n = [] := by
    refine eq_nil_iff_forall_not_mem.mpr fun m hm => ?_
    exact (h.fresh_seen_iff n hf).2 ⟨m, ((h.mem_preds n hf m).1 hm).1⟩ hn
  refine ⟨hpreds, ?_⟩
  rw [h.parent_eq n hf, hpreds]
  rfl

/-- The root has no parent and depth zero. -/
lemma Inv.root (hst : Started r s₀) (h : Inv r s₀ done busy ed td s) :
    s.parent r.root = none ∧ s.depth r.root = 0 := by
  obtain ⟨hd, hp, -⟩ := h.frame r.root (.inr rfl)
  exact ⟨hp.trans hst.root_parent, hd.trans hst.root_depth⟩

/-- A new vertex that is neither processed nor being processed has no children. -/
lemma Inv.parent_ne_some (hst : Started r s₀) (h : Inv r s₀ done [cur] ed td s)
    (hopp : ¬ r.Fixed opp) (hproc : s.status opp ≠ .processed) (hcur : opp ≠ cur) (n : V) :
    s.parent n ≠ some opp := by
  intro hp
  by_cases hf : r.Fixed n
  · by_cases hr : n = r.root
    · rw [hr, (h.root hst).1] at hp
      cases hp
    · obtain ⟨p, hp', hpf, -⟩ := hst.tree n hf hr
      rw [(h.frame n hf).2.1, hp', Option.some.injEq] at hp
      exact hopp (hp ▸ hpf)
  · rw [h.parent_eq n hf] at hp
    have hed := ((h.mem_preds n hf opp).1 (chosenParent_mem hp)).1
    have hmem := h.ed_mem opp n hed hf
    rw [mem_append, mem_singleton] at hmem
    rcases hmem with hmem | hmem
    · exact hproc ((h.processed_iff opp).2 hmem)
    · exact hcur hmem

/-- An old vertex lies one level below its parent. -/
lemma Inv.old_depth (hst : Started r s₀) (h : Inv r s₀ done busy ed td s)
    {n p : V} (hn : r.old n = true) (hp : s.parent n = some p) :
    s.depth n = s.depth p + 1 := by
  have hf : r.Fixed n := .inl hn
  by_cases hr : n = r.root
  · rw [hr, (h.root hst).1] at hp
    cases hp
  · obtain ⟨p', hp', hpf, hd⟩ := hst.tree n hf hr
    rw [(h.frame n hf).2.1, hp', Option.some.injEq] at hp
    rw [(h.frame n hf).1, ← hp, (h.frame p' hpf).1, hd]

/-- Dequeuing a vertex makes it the one being processed. -/
lemma Inv.dequeue {queue : List V} (hq : s.queue = cur :: queue)
    (h : Inv r s₀ done [] ed td s) : Inv r s₀ done [cur] ed td { s with queue := queue } := by
  have e : done ++ [] ++ s.queue = done ++ [cur] ++ queue := by simp [hq]
  have e' : [] ++ s.queue = [cur] ++ queue := by simp [hq]
  constructor
  case nodup => exact e ▸ h.nodup
  case waiting_seen => exact e' ▸ h.waiting_seen
  case seen_waiting => exact e' ▸ h.seen_waiting
  case limited_fixed => exact e ▸ h.limited_fixed
  case sorted => exact e ▸ h.sorted
  case spread => exact e' ▸ h.spread
  case ed_mem =>
    intro m n he hn
    have := h.ed_mem m n he hn
    simp at this
    simp [this]
  case mem_nodes => exact h.mem_nodes
  case processed_iff => exact h.processed_iff
  case root_seen => exact h.root_seen
  case fresh_seen_iff => exact h.fresh_seen_iff
  case old_seen_iff => exact h.old_seen_iff
  case depth_le => exact h.depth_le
  case preds_nodup => exact h.preds_nodup
  case mem_preds => exact h.mem_preds
  case preds_ne_nil => exact h.preds_ne_nil
  case parent_eq => exact h.parent_eq
  case frame => exact h.frame
  case mem_children => exact h.mem_children
  case children_nodup => exact h.children_nodup

end Visit

/-! ### One processed vertex -/

section Examine

variable [DecidableEq V] {r : Run V} {s₀ s : State V} {done : List V} {cur : V}

/-- Keeping the first occurrence of every element leaves no repetitions. -/
lemma nodup_eraseDups (l : List V) : l.eraseDups.Nodup := by
  induction h : l.length using Nat.strongRecOn generalizing l with
  | ind k ih =>
    cases l with
    | nil => simp
    | cons a l =>
      rw [eraseDups_cons, nodup_cons]
      refine ⟨?_, ?_⟩
      · simp [mem_eraseDups]
      · refine ih _ ?_ _ rfl
        have := length_filter_le (fun b => !b == a) l
        rw [length_cons] at h
        omega

lemma mem_neighbours {n : V} : n ∈ neighbours r cur ↔ n ∈ r.adj cur := mem_eraseDups

/-- Visiting a list of vertices without repetitions keeps the invariant. -/
lemma Inv.foldl_visit (hst : Started r s₀) (l : List V) (ed td : V → V → Prop)
    (h : Inv r s₀ done [cur] ed td s) (hl : ∀ n ∈ l, n ∈ r.nodes) (hnd : l.Nodup)
    (hed : ∀ n ∈ l, r.Fixed n ∨ ¬ ed cur n) :
    Inv r s₀ done [cur] (fun m n => ed m n ∨ (m = cur ∧ n ∈ l))
      (fun m n => td m n ∨ (m = cur ∧ n ∈ l)) (l.foldl (LevelSearch.visit r cur) s) := by
  induction l generalizing s ed td with
  | nil => simpa using h
  | cons opp l ih =>
    rw [nodup_cons] at hnd
    have hv := h.visit (hl opp (by simp)) hst (hed opp (by simp))
    have := ih (addPair ed cur opp) (addPair td cur opp) hv
      (fun n hn => hl n (mem_cons_of_mem _ hn)) hnd.2 (by
        intro n hn
        have := hed n (mem_cons_of_mem _ hn)
        have hne : n ≠ opp := fun hc => hnd.1 (hc ▸ hn)
        simpa [addPair, hne] using this)
    refine this.congr ?_ ?_
    · intro m n _
      simp only [addPair, mem_cons]
      tauto
    · intro n p _ _ _
      simp only [addPair, mem_cons]
      tauto

/-- Before a vertex is processed. -/
def doneEdges (r : Run V) (done : List V) : V → V → Prop := fun m n => m ∈ done ∧ n ∈ r.adj m

/-- Marking the vertex being processed as processed keeps the invariant. -/
lemma Inv.finish {ed td : V → V → Prop} (h : Inv r s₀ done [cur] ed td s) :
    Inv r s₀ (done ++ [cur]) [] ed td
      { s with status := update s.status cur .processed } := by
  have hnd := h.nodup
  have hcur : cur ∉ s.queue := by
    rw [append_assoc, nodup_append] at hnd
    exact (nodup_cons.mp hnd.2.1).1
  have hun : ∀ n, update s.status cur .processed n ≠ .unseen ↔ s.status n ≠ .unseen := by
    intro n
    have := h.cur_seen
    simp only [update_apply]
    grind
  have e : done ++ [cur] ++ [] ++ s.queue = done ++ [cur] ++ s.queue := by simp
  constructor
  case nodup => exact e ▸ hnd
  case limited_fixed => exact e ▸ h.limited_fixed
  case sorted => exact e ▸ h.sorted
  case mem_nodes => exact fun n hn => h.mem_nodes n ((hun n).1 hn)
  case processed_iff =>
    intro n
    have := h.processed_iff n
    simp only [update_apply, mem_append, mem_singleton]
    grind
  case waiting_seen =>
    intro n hn
    have hne : n ≠ cur := fun hc => hcur (by simpa [hc] using hn)
    simpa [hne] using h.waiting_seen n (mem_append_right _ (by simpa using hn))
  case seen_waiting =>
    intro n hn
    have := h.seen_waiting n
    simp only [update_apply] at hn
    grind
  case spread =>
    intro n hn x hx
    exact h.spread n ((hun n).1 hn) x (mem_append_right _ (by simpa using hx))
  case root_seen => exact (hun _).2 h.root_seen
  case ed_mem =>
    intro m n he hn
    simpa using h.ed_mem m n he hn
  case fresh_seen_iff => exact fun n hn => (hun n).trans (h.fresh_seen_iff n hn)
  case old_seen_iff => exact fun n p hf hr hp => (hun n).trans (h.old_seen_iff n p hf hr hp)
  case preds_ne_nil => exact fun n hn hs => h.preds_ne_nil n hn ((hun n).1 hs)
  case depth_le => exact h.depth_le
  case preds_nodup => exact h.preds_nodup
  case mem_preds => exact h.mem_preds
  case parent_eq => exact h.parent_eq
  case frame => exact h.frame
  case mem_children => exact h.mem_children
  case children_nodup => exact h.children_nodup

/-- The children that remain to be visited after the neighbours are old ones. -/
lemma Inv.remainingChildren_fixed {ed td : V → V → Prop} (h : Inv r s₀ done [cur] ed td s)
    (hed : ∀ n, ed cur n → n ∈ neighbours r cur) {n : V} (hn : n ∈ remainingChildren r cur s) :
    r.Fixed n := by
  simp only [remainingChildren, mem_eraseDups, mem_filter, decide_eq_true_eq] at hn
  by_contra hf
  have hp := (h.mem_children cur n).1 hn.1
  rw [h.parent_eq n hf] at hp
  exact hn.2 (hed n ((h.mem_preds n hf cur).1 (chosenParent_mem hp)).1)

/-- **Step lemma.**  Processing the next vertex of the queue keeps the invariant. -/
lemma Inv.examine (hst : Started r s₀) {queue : List V} (hq : s.queue = cur :: queue)
    (h : Inv r s₀ done [] (doneEdges r done) (fun p _ => p ∈ done) s) :
    Inv r s₀ (done ++ [cur]) [] (doneEdges r (done ++ [cur])) (fun p _ => p ∈ done ++ [cur])
      (LevelSearch.examine r { s with queue := queue } cur) := by
  have hcur : cur ∉ done := by
    have hnd := h.nodup
    rw [hq, append_nil, nodup_append] at hnd
    exact fun hc => hnd.2.2 cur hc cur (by simp) rfl
  have h₀ := h.dequeue hq
  have h₁ := Inv.foldl_visit hst (neighbours r cur) _ _ h₀
    (fun n hn => hst.adj_mem cur n (mem_neighbours.1 hn)) (nodup_eraseDups _)
    (fun n _ => .inr fun hc => hcur hc.1)
  have hfix := fun n => h₁.remainingChildren_fixed (n := n) (by
    rintro n (hc | hc)
    · exact absurd hc.1 hcur
    · exact hc.2)
  have h₂ := Inv.foldl_visit hst _ _ _ h₁ (fun n hn => hst.fixed_mem n (hfix n hn))
    (nodup_eraseDups _) (fun n hn => .inl (hfix n hn))
  refine (h₂.finish).congr ?_ ?_
  · intro m n hn
    have hrem := not_imp_not.mpr (hfix n) hn
    simp only [doneEdges, hrem, and_false, or_false, mem_neighbours, mem_append,
      mem_singleton]
    constructor
    · rintro (⟨hm, ha⟩ | ⟨rfl, ha⟩)
      · exact ⟨.inl hm, ha⟩
      · exact ⟨.inr rfl, ha⟩
    · rintro ⟨hm | rfl, ha⟩
      · exact .inl ⟨hm, ha⟩
      · exact .inr ⟨rfl, ha⟩
  · intro n p hf hr hp
    rw [mem_append, mem_singleton]
    constructor
    · rintro ((hd | ⟨rfl, -⟩) | ⟨rfl, -⟩)
      · exact .inl hd
      · exact .inr rfl
      · exact .inr rfl
    · rintro (hd | rfl)
      · exact .inl (.inl hd)
      · -- a child of `cur` is visited with its neighbours or with its remaining children
        by_cases hnb : n ∈ neighbours r p
        · exact .inl (.inr ⟨rfl, hnb⟩)
        · refine .inr ⟨rfl, ?_⟩
          have hp' : s₀.parent n = some p := ((h₂.finish).frame n hf).2.1 ▸ hp
          rw [← (h₁.frame n hf).2.1] at hp'
          simp only [remainingChildren, mem_eraseDups, mem_filter, decide_eq_true_eq]
          exact ⟨(h₁.mem_children p n).2 hp', hnb⟩

end Examine

/-! ### Whole runs -/

section Loop

variable {r : Run V} {s₀ : State V}

/-- The processed and the waiting vertices are not more than there are vertices. -/
lemma Inv.length_le {s : State V} {done : List V} {ed td : V → V → Prop}
    (h : Inv r s₀ done [] ed td s) : done.length + s.queue.length ≤ r.nodes.length := by
  have hsub : (done ++ [] ++ s.queue) ⊆ r.nodes :=
    fun n hn => h.mem_nodes n (h.status_of_mem hn)
  have := (subperm_of_subset h.nodup hsub).length_le
  simpa using this

/-- **Run lemma.**  The main loop keeps the invariant and, given enough fuel, empties the queue. -/
lemma Inv.loop [DecidableEq V] (hst : Started r s₀) (fuel : ℕ) {s : State V} {done : List V}
    (h : Inv r s₀ done [] (doneEdges r done) (fun p _ => p ∈ done) s)
    (hfuel : r.nodes.length ≤ done.length + fuel) :
    ∃ done', Inv r s₀ done' [] (doneEdges r done') (fun p _ => p ∈ done')
      (LevelSearch.loop r fuel s) ∧ (LevelSearch.loop r fuel s).queue = [] := by
  induction fuel generalizing s done with
  | zero =>
    have hlen := h.length_le
    refine ⟨done, h, eq_nil_of_length_eq_zero ?_⟩
    show s.queue.length = 0
    omega
  | succ fuel ih =>
    cases hq : s.queue with
    | nil =>
      refine ⟨done, ?_, ?_⟩
      · simpa [LevelSearch.loop, hq] using h
      · simp [LevelSearch.loop, hq]
    | cons cur queue =>
      have hstep := h.examine hst hq
      have := ih hstep (by rw [length_append, length_singleton]; omega)
      simpa [LevelSearch.loop, hq] using this

end Loop

end LevelSearch
