import Mathlib.Algebra.BigOperators.Fin
import Astoria.Library.LinearPrograms

/-!
# The linear program of the client

If every pair of an entry and an exit has an attacker, the client looks for probabilities of the
pairs for which the attacker that sees most sees as little as possible.  `solveLp` writes this as a
linear program with one more variable, which is above what each attacker sees.

The solver is a library.  It is a parameter, with what its documentation promises
(`LpSolve.Correct`): a program that has a solution is solved.
-/

namespace Astoria.Lp

open List Option
open LinearPrograms (Program)

/-! ### The library -/

section Library

variable (K : Type*)

/-- A program that is being built (`lprec`).  Arrays of coefficients start at 1. -/
structure Lprec where
  columns : ℕ
  objFn : ℕ → K
  rows : List ((ℕ → K) × K)

/-- The functions of the library that are used.  `none` stands for their failure.  The array of the
variables starts at 0. -/
structure LpSolve where
  makeLp : ℕ → ℕ → Option (Lprec K)
  addConstraintLE : Lprec K → (ℕ → K) → K → Option (Lprec K)
  setObjFn : Lprec K → (ℕ → K) → Option (Lprec K)
  solve : Lprec K → ℤ
  getVariables : Lprec K → ℕ → K

variable {K}

def Lprec.program (lp : Lprec K) : Program K (Fin lp.columns) where
  objective i := lp.objFn (i + 1)
  bounds := lp.rows.map fun row => (fun i => row.1 (i + 1), row.2)

/-- What the library promises: programs are built as they are given, and one that has a solution is
solved. -/
structure LpSolve.Correct [Semiring K] [LE K] (lib : LpSolve K) : Prop where
  makeLp_eq : ∀ columns, lib.makeLp 0 columns = some ⟨columns, fun _ => 0, []⟩
  addConstraintLE_eq : ∀ lp row rh, lib.addConstraintLE lp row rh =
    some { lp with rows := lp.rows ++ [(row, rh)] }
  setObjFn_eq : ∀ lp row, lib.setObjFn lp row = some { lp with objFn := row }
  solve_eq : ∀ lp : Lprec K, (∃ x, lp.program.IsOptimal x) →
    lib.solve lp = 0 ∧ lp.program.IsOptimal fun i => lib.getVariables lp i

end Library

/-! ### The program -/

section Program

variable {K : Type*} [Ring K] (lib : LpSolve K)

/-- The array of coefficients: one for the additional variable, and those of the pairs. -/
def lpRow (n : ℕ) (first : K) (pairs : ℕ → K) (k : ℕ) : K :=
  if k = 0 then 0
  else if k = 1 then first
  else if k < n + 2 then pairs (k - 2)
  else 0

/-- Add the rows of the attackers: what an attacker sees is not above the additional variable. -/
def addAttackers (S : ℕ → ℕ → K) (n m : ℕ) (lp : Lprec K) : Option (Lprec K) :=
  (range m).foldlM (fun lp i => lib.addConstraintLE lp (lpRow n (-1) (S i)) 0) lp

/-- Find the probabilities of `n` pairs for the matrix of `m` attackers.  The result is an error
code and, if it is 0, the array that is filled. -/
def solveLp (S : ℕ → ℕ → K) (n m : ℕ) : ℤ × Option (ℕ → K) :=
  match lib.makeLp 0 (n + 1) with
  | none => (1, none)
  | some lp =>
    let built : Option (Lprec K) := do
      let lp ← addAttackers lib S n m lp
      let lp ← lib.addConstraintLE lp (lpRow n 0 fun _ => -1) (-1)
      lib.addConstraintLE lp (lpRow n 0 fun _ => 1) 1
    match built with
    | none => (2, none)
    | some lp =>
      match lib.setObjFn lp (lpRow n 1 fun _ => 0) with
      | none => (3, none)
      | some lp =>
        if lib.solve lp ≠ 0 then (lib.solve lp, none)
        else (0, some fun i => lib.getVariables lp (i + 1))

end Program

/-! ### What the program says -/

section Meaning

variable {n m : ℕ} {S : ℕ → ℕ → ℝ} {x : ℕ → ℝ}

/-- The probabilities of `n` pairs. -/
def IsProbability (n : ℕ) (x : ℕ → ℝ) : Prop := (∀ p < n, 0 ≤ x p) ∧ ∑ p ∈ Finset.range n, x p = 1

/-- The probability of the pairs that an attacker sees. -/
noncomputable def seen (S : ℕ → ℕ → ℝ) (n : ℕ) (x : ℕ → ℝ) (a : ℕ) : ℝ :=
  ∑ p ∈ (Finset.range n).filter fun p => S a p = 1, x p

/-- What the attacker sees that sees most. -/
noncomputable def worstSeen (S : ℕ → ℕ → ℝ) (n m : ℕ) (x : ℕ → ℝ) : ℝ := ⨆ a : Fin m, seen S n x a

/-- The numbers of a matrix are zeroes and ones. -/
def IsBinary (S : ℕ → ℕ → ℝ) (n m : ℕ) : Prop := ∀ a < m, ∀ p < n, S a p = 0 ∨ S a p = 1

lemma seen_eq (hS : IsBinary S n m) {a : ℕ} (ha : a < m) (x : ℕ → ℝ) : seen S n x a = ∑ p : Fin n,
    S a p * x p := by
  rw [seen, Finset.sum_filter, Finset.sum_range]
  refine Finset.sum_congr rfl fun p _ => ?_
  rcases hS a ha p p.isLt with h | h
  · rw [h, if_neg zero_ne_one, zero_mul]
  · rw [h, if_pos rfl, one_mul]

lemma seen_le_worstSeen (x : ℕ → ℝ) {a : ℕ} (ha : a < m) : seen S n x a ≤ worstSeen S n m x :=
  le_ciSup (f := fun a : Fin m => seen S n x a) (Set.finite_range _).bddAbove ⟨a, ha⟩

lemma worstSeen_nonneg (hx : IsProbability n x) : 0 ≤ worstSeen S n m x :=
  Real.iSup_nonneg fun _ => Finset.sum_nonneg fun p hp =>
    hx.1 p (Finset.mem_range.mp (Finset.mem_filter.mp hp).1)

/-- The program that is solved. -/
def lpOf (S : ℕ → ℕ → ℝ) (n m : ℕ) : Lprec ℝ where
  columns := n + 1
  objFn := lpRow n 1 fun _ => 0
  rows := (range m).map (fun a => (lpRow n (-1) (S a), 0)) ++
    [((lpRow n 0 fun _ => -1), -1), ((lpRow n 0 fun _ => 1), 1)]

lemma addAttackers_eq {lib : LpSolve ℝ} (hlib : lib.Correct) (lp : Lprec ℝ) :
    addAttackers lib S n m lp =
      some { lp with rows := lp.rows ++ (range m).map fun a => (lpRow n (-1) (S a), 0) } := by
  rw [addAttackers]
  generalize range m = attackers
  induction attackers generalizing lp with
  | nil => rw [map_nil, append_nil]; rfl
  | cons a attackers ih =>
    rw [foldlM_cons, hlib.addConstraintLE_eq, bind_eq_bind, bind_some, ih, map_cons,
      append_assoc, singleton_append]

lemma solveLp_eq {lib : LpSolve ℝ} (hlib : lib.Correct) (h : lib.solve (lpOf S n m) = 0) :
    solveLp lib S n m = (0, some fun i => lib.getVariables (lpOf S n m) (i + 1)) := by
  have hbuilt :
      (⟨n + 1, (lpRow n 1 fun _ => 0), [] ++ (range m).map (fun a => (lpRow n (-1) (S a), 0)) ++
        [((lpRow n 0 fun _ => -1), -1)] ++ [((lpRow n 0 fun _ => 1), 1)]⟩ : Lprec ℝ) =
          lpOf S n m := by
    rw [lpOf, nil_append, append_assoc, singleton_append]
  rw [solveLp, hlib.makeLp_eq]
  simp only [addAttackers_eq hlib, hlib.addConstraintLE_eq, hlib.setObjFn_eq, bind_eq_bind,
    bind_some,
    hbuilt, h, ne_eq, not_true_eq_false, if_false]

lemma sum_lpRow (first : ℝ) (pairs : ℕ → ℝ) (v : Fin (n + 1) → ℝ) :
    ∑ i : Fin (n + 1), lpRow n first pairs (i + 1) * v i = first * v 0 + ∑ p : Fin n,
    pairs p * v p.succ := by
  rw [Fin.sum_univ_succ]
  congr 1
  refine Finset.sum_congr rfl fun p _ => ?_
  have hp : (p.succ : ℕ) + 1 = p + 2 := by rw [Fin.val_succ]
  rw [hp, lpRow, if_neg (by omega), if_neg (by omega), if_pos (by have := p.isLt; omega),
    Nat.add_sub_cancel]

/-- **What the bounds say**: the pairs have probabilities, and no attacker sees more than the
additional variable. -/
lemma mem_feasible_lpOf (hS : IsBinary S n m) {v : Fin (n + 1) → ℝ}
    (hv : ∀ p : Fin n, v p.succ = x p) : v ∈ (lpOf S n m).program.feasible ↔
    0 ≤ v 0 ∧ IsProbability n x ∧ ∀ a < m, seen S n x a ≤ v 0 := by
  have hseen (a : ℕ) (ha : a < m) : ∑ i : Fin (n + 1),
      lpRow n (-1) (S a) (i + 1) * v i = -v 0 + seen S n x a := by
    rw [sum_lpRow, seen_eq hS ha, neg_one_mul]
    simp only [hv]
  have hsum (c : ℝ) : ∑ i : Fin (n + 1),
      lpRow n 0 (fun _ => c) (i + 1) * v i = c * ∑ p ∈ Finset.range n, x p := by
    rw [sum_lpRow, zero_mul, zero_add, Finset.sum_range, Finset.mul_sum]
    simp only [hv]
  constructor
  · rintro ⟨hnonneg, hbounds⟩
    have hle := hbounds (fun i => lpRow n 0 (fun _ => -1) (i + 1), -1)
      (List.mem_map.mpr ⟨(_, _), mem_append_right _ mem_cons_self, rfl⟩)
    have hge := hbounds (fun i => lpRow n 0 (fun _ => 1) (i + 1), 1)
      (List.mem_map.mpr ⟨(_, _), mem_append_right _ (mem_cons_of_mem _ mem_cons_self), rfl⟩)
    have hle := (hsum (-1)).ge.trans hle
    have hge := (hsum 1).ge.trans hge
    dsimp only at hle hge
    refine ⟨hnonneg (0 : Fin (n + 1)), ⟨fun p hp => ?_, by linarith⟩, fun a ha => ?_⟩
    · rw [← hv ⟨p, hp⟩]
      exact hnonneg _
    · have hrow := hbounds (fun i => lpRow n (-1) (S a) (i + 1), 0) (List.mem_map.mpr
        ⟨(_, _), mem_append_left _ (List.mem_map.mpr ⟨a, mem_range.mpr ha, rfl⟩), rfl⟩)
      have hrow := (hseen a ha).ge.trans hrow
      dsimp only at hrow
      linarith
  · rintro ⟨hfirst, ⟨hnonneg, hone⟩, hall⟩
    refine ⟨fun i => ?_, fun c hc => ?_⟩
    · refine Fin.cases hfirst (fun p => ?_) i
      rw [hv p]
      exact hnonneg p p.isLt
    · obtain ⟨row, hrow, rfl⟩ := List.mem_map.mp hc
      rcases mem_append.mp hrow with hrow | hrow
      · obtain ⟨a, ha, rfl⟩ := List.mem_map.mp hrow
        have ha := mem_range.mp ha
        have := hall a ha
        exact (hseen a ha).le.trans (by dsimp only; linarith)
      · rcases mem_pair.mp hrow with rfl | rfl
        · exact (hsum (-1)).le.trans (by rw [hone, mul_one])
        · exact (hsum 1).le.trans (by rw [hone, mul_one])

lemma value_lpOf (v : Fin (n + 1) → ℝ) : (lpOf S n m).program.value v = v 0 := by
  refine (sum_lpRow 1 (fun _ => 0) v).trans ?_
  simp only [zero_mul, Finset.sum_const_zero, one_mul, add_zero]

/-- Probabilities with the largest number of what an attacker sees. -/
noncomputable def withWorst (S : ℕ → ℕ → ℝ) (n m : ℕ) (x : ℕ → ℝ) : Fin (n + 1) → ℝ :=
  Fin.cons (worstSeen S n m x) fun p => x p

lemma withWorst_mem_feasible (hS : IsBinary S n m) (hx : IsProbability n x) :
    withWorst S n m x ∈ (lpOf S n m).program.feasible :=
  (mem_feasible_lpOf hS fun _ => rfl).mpr
    ⟨worstSeen_nonneg hx, hx, fun _ ha => seen_le_worstSeen x ha⟩

lemma exists_isOptimal_lpOf (hS : IsBinary S n m) (hn : 1 ≤ n) :
    ∃ v, (lpOf S n m).program.IsOptimal v := by
  have hfirst : IsProbability n fun p => if p = 0 then 1 else 0 := by
    refine ⟨fun p _ => ?_, ?_⟩
    · dsimp only
      split
      · exact zero_le_one
      · exact le_rfl
    · rw [Finset.sum_ite_eq' (Finset.range n) 0 fun _ => 1, if_pos (Finset.mem_range.mpr hn)]
  refine Program.exists_isOptimal (withWorst_mem_feasible hS hfirst)
    (B := max 1 ((lpOf S n m).program.value (withWorst S n m fun p => if p = 0 then 1 else 0)))
    fun v hv hle i => ?_
  have hmem :=
      (mem_feasible_lpOf (x := fun p => if hp : p < n then v (Fin.succ ⟨p, hp⟩) else 0) hS
          fun p => by
    rw [dif_pos p.isLt]).mp hv
  obtain ⟨-, ⟨hnonneg, hone⟩, -⟩ := hmem
  refine Fin.cases ?_ (fun p => ?_) i
  · rw [value_lpOf v] at hle
    exact hle.trans (le_max_right _ _)
  · refine le_trans ?_ (le_max_left _ _)
    have hsingle := Finset.single_le_sum (fun q hq => hnonneg q (Finset.mem_range.mp hq))
      (Finset.mem_range.mpr p.isLt)
    rw [hone, dif_pos p.isLt] at hsingle
    exact hsingle

/-- **The probabilities of the client**: the solver gives probabilities of the pairs, and for no
other ones the attacker that sees most sees less. -/
theorem solveLp_minimax {lib : LpSolve ℝ} (hlib : lib.Correct) (hn : 1 ≤ n) (hS : IsBinary S n m) :
    ∃ res, solveLp lib S n m = (0, some res) ∧ IsProbability n res ∧
      ∀ y, IsProbability n y → worstSeen S n m res ≤ worstSeen S n m y := by
  obtain ⟨hsolved, hoptimal⟩ := hlib.solve_eq (lpOf S n m) (exists_isOptimal_lpOf hS hn)
  refine ⟨_, solveLp_eq hlib hsolved, ?_⟩
  obtain ⟨hfirst, hprob, hall⟩ :=
    (mem_feasible_lpOf (x := fun p => lib.getVariables (lpOf S n m) (p + 1)) hS
    fun p => rfl).mp hoptimal.1
  refine ⟨hprob, fun y hy => ?_⟩
  have hmin := hoptimal.2 _ (withWorst_mem_feasible hS hy)
  rw [value_lpOf (withWorst S n m y)] at hmin
  have hvalue := value_lpOf (S := S) (m := m) fun i : Fin (n + 1) => lib.getVariables (lpOf S n m) i
  calc worstSeen S n m _ ≤ lib.getVariables (lpOf S n m) 0 :=
    Real.iSup_le (fun a => hall a a.isLt) hfirst
    _ ≤ worstSeen S n m y := hvalue.ge.trans hmin

open Classical in
/-- A solver that is correct: it chooses a solution. -/
noncomputable def LpSolve.choosing : LpSolve ℝ where
  makeLp _ columns := some ⟨columns, fun _ => 0, []⟩
  addConstraintLE lp row rh := some { lp with rows := lp.rows ++ [(row, rh)] }
  setObjFn lp row := some { lp with objFn := row }
  solve lp := if ∃ x, lp.program.IsOptimal x then 0 else 2
  getVariables lp k :=
    if h : (∃ x, lp.program.IsOptimal x) ∧ k < lp.columns then h.1.choose ⟨k, h.2⟩ else 0

lemma LpSolve.choosing_correct : LpSolve.choosing.Correct where
  makeLp_eq _ := rfl
  addConstraintLE_eq _ _ _ := rfl
  setObjFn_eq _ _ := rfl
  solve_eq lp h := by
    refine ⟨if_pos h, ?_⟩
    have heq : (fun i : Fin lp.columns => LpSolve.choosing.getVariables lp i) = h.choose := by
      funext i
      exact dif_pos ⟨h, i.isLt⟩
    rw [heq]
    exact h.choose_spec

/-- Two attackers, each of which sees one of two pairs. -/
theorem solveLp_minimax_two : ∃ res, solveLp LpSolve.choosing (fun a p => if a = p then 1 else 0) 2
    2 = (0, some res) ∧ IsProbability 2 res ∧ ∀ y, IsProbability 2 y →
      worstSeen (fun a p => if a = p then 1 else 0) 2 2 res ≤
        worstSeen (fun a p => if a = p then 1 else 0) 2 2 y := by
  refine solveLp_minimax LpSolve.choosing_correct (by decide) fun a _ p _ => ?_
  split
  · exact Or.inr rfl
  · exact Or.inl rfl

end Meaning

end Astoria.Lp
