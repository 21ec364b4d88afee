import Mathlib.Data.List.Nodup

/-!
# Layered graphs

A layered graph has a root, and every other vertex on it lies one level below each of its parents.
The paths to the root are therefore as long as their first vertex is deep and repeat no vertex
(`Graded`, `Path`), and all of them can be listed (`enumerate`).

`sweep` computes a value for every vertex of a list, in place and in an order in which no vertex
comes before one of its dependencies.  Such a sweep solves the local equations of the vertices
(`sweep_eq_some_iff`).
-/

namespace Layered

open List Option

/-! ### Paths to the root -/

section Paths

variable {V : Type*}

/-- A path to the root `d` that steps from a vertex to one of its parents. -/
inductive Path (parents : V → List V) (d : V) : V → List V → Prop
  /-- The root has arrived. -/
  | root : Path parents d d [d]
  | step {n p : V} {l : List V} (hn : n ≠ d) (hp : p ∈ parents n) (h : Path parents d p l) :
      Path parents d n (n :: l)

/-- The vertices in `on` form a layered graph with root `d`. -/
structure Graded (parents : V → List V) (d : V) (on : V → Prop) (depth : V → ℕ) : Prop where
  on_root : on d
  depth_root : depth d = 0
  parents_ne_nil : ∀ n, on n → n ≠ d → parents n ≠ []
  /-- Parents are on the graph, one level above. -/
  parent : ∀ n, on n → n ≠ d → ∀ p ∈ parents n, on p ∧ depth p + 1 = depth n

variable {parents : V → List V} {d : V} {on : V → Prop} {depth : V → ℕ}

/-- A path begins with its vertex. -/
lemma Path.exists_cons {n : V} {l : List V} (h : Path parents d n l) : ∃ l', l = n :: l' := by
  cases h with
  | root => exact ⟨[], rfl⟩
  | step _ _ _ => exact ⟨_, rfl⟩

/-- A path ends in the root. -/
lemma Path.getLast? {n : V} {l : List V} (h : Path parents d n l) : l.getLast? = some d := by
  induction h with
  | root => rfl
  | step _ _ hl ih =>
    obtain ⟨l', rfl⟩ := hl.exists_cons
    rw [getLast?_cons_cons]
    exact ih

namespace Graded

variable {n : V} {l : List V}

variable (hg : Graded parents d on depth)

include hg

/-- Only the root has depth zero. -/
lemma eq_root (hn : on n) (h0 : depth n = 0) : n = d := by
  by_contra hne
  obtain ⟨p, hp⟩ := exists_mem_of_ne_nil _ (hg.parents_ne_nil n hn hne)
  have := (hg.parent n hn hne p hp).2
  omega

/-- A path has one vertex more than its first vertex is deep. -/
lemma length_eq (hn : on n) (h : Path parents d n l) : l.length = depth n + 1 := by
  induction h with
  | root => rw [hg.depth_root, length_singleton]
  | step hne hp _ ih =>
    obtain ⟨hon, hd⟩ := hg.parent _ hn hne _ hp
    rw [length_cons, ih hon, ← hd]

/-- The vertices of a path are on the graph, no deeper than its first vertex. -/
lemma mem_path {m : V} (hn : on n)
    (h : Path parents d n l) (hm : m ∈ l) : on m ∧ depth m ≤ depth n := by
  induction h with
  | root =>
    rw [mem_singleton] at hm
    subst hm
    exact ⟨hn, Nat.le_refl _⟩
  | step hne hp _ ih =>
    obtain ⟨hon, hd⟩ := hg.parent _ hn hne _ hp
    rcases mem_cons.mp hm with rfl | hm
    · exact ⟨hn, Nat.le_refl _⟩
    · obtain ⟨hom, hle⟩ := ih hon hm
      exact ⟨hom, by omega⟩

/-- A path repeats no vertex. -/
lemma nodup (hn : on n) (h : Path parents d n l) : l.Nodup := by
  induction h with
  | root => simp
  | step hne hp hl ih =>
    obtain ⟨hon, hd⟩ := hg.parent _ hn hne _ hp
    refine nodup_cons.mpr ⟨fun hc => ?_, ih hon⟩
    have := (hg.mem_path hon hl hc).2
    omega

/-- Every vertex has a path. -/
lemma exists_path (hn : on n) : ∃ l, Path parents d n l := by
  induction hk : depth n using Nat.strongRecOn generalizing n with
  | ind k ih =>
    by_cases hr : n = d
    · exact ⟨[d], hr ▸ .root⟩
    · obtain ⟨p, hp⟩ := exists_mem_of_ne_nil _ (hg.parents_ne_nil n hn hr)
      obtain ⟨hon, hd⟩ := hg.parent n hn hr p hp
      obtain ⟨l, hl⟩ := ih (depth p) (by omega) hon rfl
      exact ⟨n :: l, .step hr hp hl⟩

/-- Whoever keeps stepping to a parent has followed a path after as many steps as it was deep. -/
lemma walk_path {w : ℕ → V} (h0 : on (w 0)) (hw : ∀ k, w (k + 1) ∈ parents (w k)) :
    Path parents d (w 0) ((range (depth (w 0) + 1)).map w) := by
  induction hk : depth (w 0) generalizing w with
  | zero =>
    have hr := hg.eq_root h0 hk
    simp only [Nat.zero_add, range_one, map_cons, map_nil, hr]
    exact .root
  | succ k ih =>
    have hne : w 0 ≠ d := by
      intro hc
      rw [hc, hg.depth_root] at hk
      omega
    obtain ⟨hon, hd⟩ := hg.parent _ h0 hne _ (hw 0)
    have hrest := ih (w := fun i => w (i + 1)) hon (fun i => hw (i + 1)) (by omega)
    rw [range_succ_eq_map, map_cons, List.map_map]
    exact .step hne (hw 0) hrest

end Graded

end Paths

/-! ### Listing the paths -/

section Enumerate

variable {V : Type*} [DecidableEq V]

/-- The paths from a vertex with at most the given number of vertices. -/
def enumerate (parents : V → List V) (d : V) : ℕ → V → List (List V)
  | 0, _ => []
  | k + 1, n =>
    if n = d then [[d]]
    else (parents n).flatMap fun p => (enumerate parents d k p).map (n :: ·)

variable {parents : V → List V} {d : V}

/-- The list holds the paths that are not too long. -/
lemma mem_enumerate {k : ℕ} {n : V} {l : List V} :
    l ∈ enumerate parents d k n ↔ Path parents d n l ∧ l.length ≤ k := by
  induction k generalizing n l with
  | zero =>
    simp only [enumerate, not_mem_nil, false_iff, not_and]
    intro hl
    obtain ⟨l', rfl⟩ := hl.exists_cons
    simp
  | succ k ih =>
    unfold enumerate
    split_ifs with hn
    · rw [mem_singleton]
      constructor
      · rintro rfl
        exact ⟨hn ▸ .root, by simp⟩
      · rintro ⟨hl, -⟩
        cases hl with
        | root => rfl
        | step hne _ _ => exact absurd hn hne
    · simp only [mem_flatMap, List.mem_map, ih]
      constructor
      · rintro ⟨p, hp, l', ⟨hl', hlen⟩, rfl⟩
        exact ⟨.step hn hp hl', by simpa using hlen⟩
      · rintro ⟨hl, hlen⟩
        cases hl with
        | root => exact absurd rfl hn
        | step _ hp hl' => exact ⟨_, hp, _, ⟨hl', by simpa using hlen⟩, rfl⟩

/-- No path is listed twice. -/
lemma nodup_enumerate (hnd : ∀ n, (parents n).Nodup) (k : ℕ) (n : V) :
    (enumerate parents d k n).Nodup := by
  induction k generalizing n with
  | zero => exact nodup_nil
  | succ k ih =>
    unfold enumerate
    split_ifs with hn
    · exact nodup_singleton _
    · rw [nodup_flatMap]
      refine ⟨fun p _ => (ih p).map fun _ _ h => (List.cons.inj h).2, ?_⟩
      refine (hnd n).imp fun {p q} hpq => ?_
      -- the second vertex of a path tells over which parent it goes
      intro l hl hl'
      obtain ⟨l₁, h₁, rfl⟩ := List.mem_map.mp hl
      obtain ⟨l₂, h₂, he⟩ := List.mem_map.mp hl'
      obtain rfl := (List.cons.inj he).2
      obtain ⟨_, rfl⟩ := (mem_enumerate.mp h₁).1.exists_cons
      obtain ⟨_, he'⟩ := (mem_enumerate.mp h₂).1.exists_cons
      exact hpq (List.cons.inj he').1

end Enumerate

/-! ### Sweeping a list in dependency order -/

section Sweep

variable {V α : Type*} [DecidableEq V]

/-- Compute the values of the vertices in the list one after another, each from the current table;
the sweep fails when one of the values does not exist. -/
def sweep (update : (V → α) → V → Option α) (order : List V) (t : V → α) : Option (V → α) :=
  order.foldlM (fun t n => (update t n).map (Function.update t n)) t

/-- The value of a vertex depends only on the values of its dependencies. -/
def Local (deps : V → List V) (update : (V → α) → V → Option α) : Prop :=
  ∀ t t' n, (∀ p ∈ deps n, t p = t' p) → update t n = update t' n

/-- No vertex of the list depends on itself or on a later one. -/
def Ordered (deps : V → List V) (order : List V) : Prop :=
  order.Nodup ∧ (∀ n ∈ order, n ∉ deps n) ∧ order.Pairwise fun a b => b ∉ deps a

variable {deps : V → List V} {update : (V → α) → V → Option α} {order : List V}

/-- A sweep changes the values of the vertices in the list only. -/
lemma sweep_frame {t t' : V → α} (h : sweep update order t = some t') {n : V}
    (hn : n ∉ order) : t' n = t n := by
  induction order generalizing t with
  | nil => exact (congrFun (Option.some.inj h) n).symm
  | cons m l ih =>
    simp only [sweep, foldlM_cons, bind_eq_bind, bind_eq_some_iff,
      map_eq_some_iff] at h
    obtain ⟨t₁, ⟨a, -, rfl⟩, h⟩ := h
    rw [mem_cons, not_or] at hn
    rw [ih h hn.2, Function.update_of_ne hn.1]

/-- **Sweeps solve the local equations.**  A sweep leaves the table `t'` exactly when `t'` agrees
with the initial table outside the list and satisfies the equations of all vertices of the list. -/
theorem sweep_eq_some_iff (hloc : Local deps update) (hord : Ordered deps order)
    {t t' : V → α} : sweep update order t = some t' ↔
      (∀ n ∈ order, update t' n = some (t' n)) ∧ ∀ n, n ∉ order → t' n = t n := by
  induction order generalizing t with
  | nil =>
    simp only [sweep, foldlM_nil, Option.pure_def, Option.some.injEq, not_mem_nil,
      false_implies, implies_true, true_and, not_false_eq_true, forall_const]
    exact ⟨fun h n => congrFun h.symm n, fun h => (funext h).symm⟩
  | cons n l ih =>
    obtain ⟨hnd, hself, hpair⟩ := hord
    rw [nodup_cons] at hnd
    rw [pairwise_cons] at hpair
    have hord' : Ordered deps l := ⟨hnd.2, fun m hm => hself m (mem_cons_of_mem _ hm), hpair.2⟩
    -- the dependencies of the first vertex are not touched by the sweep
    have hdeps : ∀ p ∈ deps n, p ∉ n :: l := by
      intro p hp hc
      rcases mem_cons.mp hc with rfl | hc
      · exact hself p (by simp) hp
      · exact hpair.1 p hc hp
    have hstep : sweep update (n :: l) t = some t' ↔
        ∃ a, update t n = some a ∧ sweep update l (Function.update t n a) = some t' := by
      simp only [sweep, foldlM_cons, bind_eq_bind, bind_eq_some_iff,
        map_eq_some_iff]
      constructor
      · rintro ⟨t₁, ⟨a, ha, rfl⟩, h⟩
        exact ⟨a, ha, h⟩
      · rintro ⟨a, ha, h⟩
        exact ⟨_, ⟨a, ha, rfl⟩, h⟩
    rw [hstep]
    simp only [ih hord']
    constructor
    · rintro ⟨a, ha, heq, hout⟩
      have hn : t' n = a := by simpa using hout n hnd.1
      have hsame : update t' n = update t n := by
        refine hloc t' t n fun p hp => ?_
        have hp' := hdeps p hp
        rw [mem_cons, not_or] at hp'
        simpa [hp'.1] using hout p hp'.2
      refine ⟨fun m hm => ?_, fun m hm => ?_⟩
      · rcases mem_cons.mp hm with rfl | hm
        · rw [hsame, ha, hn]
        · exact heq m hm
      · rw [mem_cons, not_or] at hm
        simpa [hm.1] using hout m hm.2
    · rintro ⟨heq, hout⟩
      have hsame : update t n = update t' n :=
        hloc t t' n fun p hp => (hout p (hdeps p hp)).symm
      refine ⟨t' n, hsame.trans (heq n (by simp)),
        fun m hm => heq m (mem_cons_of_mem _ hm), fun m hm => ?_⟩
      by_cases hmn : m = n
      · simp [hmn]
      · simpa [hmn] using hout m (by simp [hmn, hm])

/-- When a sweep fails, it has come to a vertex whose value does not exist. -/
lemma exists_of_sweep_eq_none {t : V → α} (h : sweep update order t = none) :
    ∃ l n r t₁, order = l ++ n :: r ∧ sweep update l t = some t₁ ∧ update t₁ n = none := by
  induction order generalizing t with
  | nil => cases h
  | cons m l ih =>
    cases hm : update t m with
    | none => exact ⟨[], m, l, t, rfl, rfl, hm⟩
    | some a =>
      have hrest : sweep update l (Function.update t m a) = none := by
        simpa [sweep, hm] using h
      obtain ⟨l', n, r, t₁, rfl, hl, hn⟩ := ih hrest
      refine ⟨m :: l', n, r, t₁, rfl, ?_, hn⟩
      simpa [sweep, hm] using hl

end Sweep

end Layered
