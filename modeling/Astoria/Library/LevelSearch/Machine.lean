import Mathlib.Data.List.Perm.Basic

/-!
# Resumable breadth-first search with predecessor sets

A first-in first-out search over an arbitrary vertex type that can be run several times on the same
state, each time along other edges.  A run never changes what an earlier run has settled: it walks
the earlier tree again through the child lists and adds the vertices it meets for the first time.
For every such vertex it records the depth, the *set* of all predecessors at the previous depth and
one parent among them, chosen by a tie-break.  In a limited run the new vertices are recorded but
not expanded.

`State` is the search state, `Run` the parameters of one run, `visit` what happens when the vertex
`opp` is met from the vertex `cur`, `examine` the processing of one dequeued vertex and `loop` the
main loop.  Whatever the machine does, a vertex that has been seen stays seen at the same depth
(`Extends`).
-/

namespace LevelSearch

open List Function

/-- The state of a vertex within one run. -/
inductive Status
  /-- The vertex has not been met in this run. -/
  | unseen
  /-- The vertex has been met but not yet processed. -/
  | seen
  /-- The vertex has been dequeued and its neighbours have been visited. -/
  | processed
  deriving DecidableEq

/-- The mutable data of a search. -/
structure State (V : Type*) where
  /-- The state of a vertex within the current run. -/
  status : V → Status
  /-- The distance from the root, meaningful for discovered vertices. -/
  depth : V → ℕ
  /-- The parent in the search tree. -/
  parent : V → Option V
  /-- The children in the search tree. -/
  children : V → List V
  /-- All predecessors at the previous depth, in the order in which they were met. -/
  preds : V → List V
  /-- The vertices waiting to be processed. -/
  queue : List V

structure Run (V : Type*) where
  /-- The vertex at which the search starts. -/
  root : V
  /-- A list that holds every vertex the search can meet. -/
  nodes : List V
  /-- The vertices that an earlier run has discovered. -/
  old : V → Bool
  /-- The neighbours that this run visits from a vertex. -/
  adj : V → List V
  /-- Whether newly discovered vertices are left unexpanded. -/
  limited : Bool
  /-- `wins cur opp p` tells whether `cur` replaces the parent `p` of `opp`. -/
  wins : V → V → V → Bool

/-! ### The tie-break and the extension order -/

section Order

variable {V : Type*} {ms : List V} {r : Run V}

/-- The parent that the tie-break selects among the predecessors of `n`, met in this order. -/
def chosenParent (r : Run V) (n : V) : List V → Option V
  | [] => none
  | m :: ms => some (ms.foldl (fun p c => if r.wins c n p then c else p) m)

/-- The selected parent is one of the predecessors. -/
lemma chosenParent_mem {n p : V} (h : chosenParent r n ms = some p) : p ∈ ms := by
  cases ms with
  | nil => simp [chosenParent] at h
  | cons m ms =>
    rw [chosenParent, Option.some.injEq] at h
    have key : ∀ (l : List V) (a : V),
        l.foldl (fun p c => if r.wins c n p then c else p) a ∈ a :: l := by
      intro l
      induction l with
      | nil => simp
      | cons c l ih =>
        intro a
        rw [foldl_cons]
        rcases mem_cons.mp (ih (if r.wins c n a then c else a)) with hc | hc
        · rw [hc]
          split <;> simp
        · exact mem_cons_of_mem _ (mem_cons_of_mem _ hc)
    exact h ▸ key ms m

/-- If the tie-break compares the values of a function, the selected parent has the smallest one. -/
lemma chosenParent_le {n p : V} {f : V → ℕ}
    (hwins : ∀ c q, r.wins c n q = true ↔ f c < f q) (h : chosenParent r n ms = some p) {q : V}
    (hq : q ∈ ms) : f p ≤ f q := by
  cases ms with
  | nil => simp at hq
  | cons m ms =>
    rw [chosenParent, Option.some.injEq] at h
    have key : ∀ (l : List V) (a : V), ∀ q ∈ a :: l,
        f (l.foldl (fun p c => if r.wins c n p then c else p) a) ≤ f q := by
      intro l
      induction l with
      | nil => simp
      | cons c l ih =>
        intro a q hq
        rw [foldl_cons]
        have hstep : f (if r.wins c n a then c else a) ≤ f a ∧
            f (if r.wins c n a then c else a) ≤ f c := by
          have hc := hwins c a
          split
          · next hw => exact ⟨Nat.le_of_lt (hc.1 hw), Nat.le_refl _⟩
          · next hw => exact ⟨Nat.le_refl _, Nat.not_lt.mp fun hlt => hw (hc.2 hlt)⟩
        have hrest := ih (if r.wins c n a then c else a)
        rcases mem_cons.mp hq with rfl | hq
        · exact Nat.le_trans (hrest _ (by simp)) hstep.1
        · rcases mem_cons.mp hq with rfl | hq
          · exact Nat.le_trans (hrest _ (by simp)) hstep.2
          · exact hrest q (mem_cons_of_mem _ hq)
    exact h ▸ key ms m q hq

/-- A vertex has a selected parent exactly when it has a predecessor. -/
lemma chosenParent_eq_none {n : V} : chosenParent r n ms = none ↔ ms = [] := by
  cases ms <;> simp [chosenParent]

/-- Appending a predecessor keeps the parent unless the new one wins. -/
lemma chosenParent_append {n p c : V} (h : chosenParent r n ms = some p) :
    chosenParent r n (ms ++ [c]) = some (if r.wins c n p then c else p) := by
  cases ms with
  | nil => simp [chosenParent] at h
  | cons m ms =>
    rw [chosenParent, Option.some.injEq] at h
    simp [chosenParent, foldl_append, h]

/-- `s'` extends `s`: what has been seen stays seen, at the same depth. -/
def Extends (s s' : State V) : Prop :=
  ∀ n, s.status n ≠ .unseen → s'.status n ≠ .unseen ∧ s'.depth n = s.depth n

/-- Every state extends itself. -/
lemma Extends.refl (s : State V) : Extends s s := fun _ h => ⟨h, rfl⟩

lemma Extends.trans {s₁ s₂ s₃ : State V} (h₁ : Extends s₁ s₂) (h₂ : Extends s₂ s₃) :
    Extends s₁ s₃ := by
  intro n hn
  obtain ⟨hs, hd⟩ := h₁ n hn
  obtain ⟨hs', hd'⟩ := h₂ n hs
  exact ⟨hs', hd'.trans hd⟩

end Order

/-! ### The machine -/

section Machine

variable {V : Type*} [DecidableEq V]

/-- The vertices whose records a run does not change: the root and what earlier runs found. -/
def Run.Fixed (r : Run V) (n : V) : Prop := r.old n = true ∨ n = r.root

/-- The vertex `opp` is met for the first time, from `cur`. -/
def discover (r : Run V) (cur : V) (s : State V) (opp : V) : State V where
  status := update s.status opp .seen
  depth := update s.depth opp (s.depth cur + 1)
  parent := update s.parent opp (some cur)
  children := update s.children cur (s.children cur ++ [opp])
  preds := update s.preds opp (s.preds opp ++ [cur])
  queue := if r.limited then s.queue else s.queue ++ [opp]

/-- The vertex `opp` of an earlier tree is met again from its parent. -/
def rejoin (s : State V) (opp : V) : State V :=
  { s with
    status := update s.status opp .seen
    queue := s.queue ++ [opp] }

/-- Move `opp` from the child list of its parent to that of `cur`. -/
def moveChild (cur : V) (s : State V) (opp : V) : V → List V :=
  let c := match s.parent opp with
    | some p => update s.children p ((s.children p).erase opp)
    | none => s.children
  update c cur (c cur ++ [opp])

/-- Whether `cur` wins the tie-break against the present parent of `opp`. -/
def tieWon (r : Run V) (cur : V) (s : State V) (opp : V) : Bool :=
  match s.parent opp with
  | some p => r.wins cur opp p
  | none => false

/-- A second route of the same length to `opp` is met, from `cur`. -/
def tie (r : Run V) (cur : V) (s : State V) (opp : V) : State V :=
  { s with
    parent := if tieWon r cur s opp then update s.parent opp (some cur) else s.parent
    children := if tieWon r cur s opp then moveChild cur s opp else s.children
    preds := update s.preds opp (s.preds opp ++ [cur]) }

/-- The vertex `opp` is met from `cur`. -/
def visit (r : Run V) (cur : V) (s : State V) (opp : V) : State V :=
  if s.status opp = .unseen then
    if r.old opp = false then discover r cur s opp
    else if s.parent opp = some cur then rejoin s opp
    else s
  else if s.status opp = .seen ∧ s.depth opp = s.depth cur + 1 ∧ r.old opp = false then
    tie r cur s opp
  else s

section VisitEquations

variable {r : Run V} {cur opp : V} {s : State V}

/-- Meeting a new vertex. -/
lemma visit_discover (hs : s.status opp = .unseen) (ho : r.old opp = false) :
    visit r cur s opp = discover r cur s opp := by
  rw [visit, if_pos hs, if_pos ho]

/-- Meeting an old child. -/
lemma visit_rejoin (hs : s.status opp = .unseen) (ho : r.old opp = true)
    (hp : s.parent opp = some cur) : visit r cur s opp = rejoin s opp := by
  rw [visit, if_pos hs, if_neg (by simp [ho]), if_pos hp]

/-- Meeting an old vertex that hangs elsewhere. -/
lemma visit_pass (hs : s.status opp = .unseen) (ho : r.old opp = true)
    (hp : s.parent opp ≠ some cur) : visit r cur s opp = s := by
  rw [visit, if_pos hs, if_neg (by simp [ho]), if_neg hp]

/-- Meeting a vertex on a second route of the same length. -/
lemma visit_tie (h : s.status opp = .seen ∧ s.depth opp = s.depth cur + 1 ∧ r.old opp = false) :
    visit r cur s opp = tie r cur s opp := by
  rw [visit, if_neg (by simp [h.1]), if_pos h]

/-- Meeting a vertex that has a shorter route. -/
lemma visit_settled (hs : s.status opp ≠ .unseen)
    (h : ¬ (s.status opp = .seen ∧ s.depth opp = s.depth cur + 1 ∧ r.old opp = false)) :
    visit r cur s opp = s := by
  rw [visit, if_neg hs, if_neg h]

end VisitEquations

/-- The distinct neighbours visited from `cur`. -/
def neighbours (r : Run V) (cur : V) : List V := (r.adj cur).eraseDups

/-- The children of `cur` that were not visited as neighbours. -/
def remainingChildren (r : Run V) (cur : V) (s : State V) : List V :=
  ((s.children cur).filter (· ∉ neighbours r cur)).eraseDups

/-- Process the dequeued vertex `cur`: visit its neighbours, then its remaining children. -/
def examine (r : Run V) (s : State V) (cur : V) : State V :=
  let s := (neighbours r cur).foldl (visit r cur) s
  let s := (remainingChildren r cur s).foldl (visit r cur) s
  { s with status := update s.status cur .processed }

/-- Process queued vertices until the queue is empty, at most `fuel` of them. -/
def loop (r : Run V) : ℕ → State V → State V
  | 0, s => s
  | fuel + 1, s =>
    match s.queue with
    | [] => s
    | cur :: queue => loop r fuel (examine r { s with queue := queue } cur)

/-- Fuel can be spent in two portions. -/
lemma loop_add (r : Run V) (m n : ℕ) (s : State V) : loop r (m + n) s = loop r n (loop r m s) := by
  induction m generalizing s with
  | zero => rw [Nat.zero_add, loop]
  | succ m ih =>
    rw [Nat.succ_add, loop, loop]
    cases hq : s.queue with
    | nil =>
      cases n with
      | zero => rfl
      | succ n => rw [loop, hq]
    | cons cur queue => exact ih _

/-- Enter the root into an empty queue. -/
def start (root : V) (s : State V) : State V :=
  { s with
    status := update s.status root .seen
    depth := update s.depth root 0
    preds := update s.preds root [root]
    queue := [root] }

/-! ### Vertices never become undiscovered -/

lemma extends_visit (r : Run V) (cur : V) (s : State V) (opp : V) :
    Extends s (visit r cur s opp) := by
  intro n hn
  unfold visit
  split_ifs with h₁ h₂ h₃ h₄
  · have hne : n ≠ opp := fun h => hn (h ▸ h₁)
    simp [discover, hne, hn]
  · have hne : n ≠ opp := fun h => hn (h ▸ h₁)
    simp [rejoin, hne, hn]
  · exact ⟨hn, rfl⟩
  · exact ⟨hn, rfl⟩
  · exact ⟨hn, rfl⟩

/-- Visiting a list of vertices extends the state. -/
lemma extends_foldl_visit (r : Run V) (cur : V) (l : List V) (s : State V) :
    Extends s (l.foldl (visit r cur) s) := by
  induction l generalizing s with
  | nil => exact Extends.refl s
  | cons opp l ih => exact (extends_visit r cur s opp).trans (ih _)

/-- Marking a vertex as processed extends the state. -/
lemma extends_processed (s : State V) (cur : V) :
    Extends s { s with status := update s.status cur .processed } := by
  intro n hn
  refine ⟨?_, rfl⟩
  by_cases h : n = cur
  · simp [h]
  · simpa [h] using hn

/-- Processing a vertex extends the state. -/
lemma extends_examine (r : Run V) (s : State V) (cur : V) : Extends s (examine r s cur) :=
  ((extends_foldl_visit r cur _ s).trans (extends_foldl_visit r cur _ _)).trans
    (extends_processed _ cur)

/-- The main loop extends the state. -/
lemma extends_loop (r : Run V) (fuel : ℕ) (s : State V) : Extends s (loop r fuel s) := by
  induction fuel generalizing s with
  | zero => exact Extends.refl s
  | succ fuel ih =>
    unfold loop
    split
    · exact Extends.refl s
    · next cur queue _ =>
      have h : Extends s { s with queue := queue } := fun _ hn => ⟨hn, rfl⟩
      exact (h.trans (extends_examine r _ cur)).trans (ih _)

/-- A visited vertex is seen afterwards, unless an earlier run had found it already. -/
lemma visit_status (r : Run V) (cur : V) (s : State V) (opp : V) :
    (visit r cur s opp).status opp ≠ .unseen ∨ r.old opp = true := by
  by_cases h₁ : s.status opp = .unseen
  · by_cases h₂ : r.old opp = true
    · exact .inr h₂
    · refine .inl ?_
      simp [visit, h₁, Bool.eq_false_iff.mpr h₂, discover]
  · exact .inl (extends_visit r cur s opp opp h₁).1

end Machine

end LevelSearch
