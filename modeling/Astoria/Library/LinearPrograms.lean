import Mathlib.Topology.Instances.Real.Lemmas

/-!
# Linear programs

A linear program asks for numbers that are not negative, that keep some linear bounds, and for which
a linear function is as small as possible.  It has a solution if some numbers keep the bounds and
those that are not worse are bounded (`Program.exists_isOptimal`).
-/

namespace LinearPrograms

/-- A linear program: the function and, for each bound, its coefficients and its value. -/
structure Program (K ι : Type*) where
  objective : ι → K
  bounds : List ((ι → K) × K)

namespace Program

variable {K ι : Type*} [Fintype ι]

section Feasible

variable [Semiring K] [LE K] (p : Program K ι)

def value (x : ι → K) : K := ∑ i, p.objective i * x i

/-- The numbers that keep the bounds. -/
def feasible : Set (ι → K) := {x | (∀ i, 0 ≤ x i) ∧ ∀ c ∈ p.bounds, ∑ i, c.1 i * x i ≤ c.2}

/-- Numbers that keep the bounds and have the smallest value. -/
def IsOptimal (x : ι → K) : Prop := x ∈ p.feasible ∧ ∀ y ∈ p.feasible, p.value x ≤ p.value y

end Feasible

variable {p : Program ℝ ι}

lemma continuous_linear (c : ι → ℝ) : Continuous fun x : ι → ℝ => ∑ i, c i * x i :=
  continuous_finsetSum _ fun i _ => continuous_const.mul (continuous_apply i)

/-- The numbers that keep the bounds are closed. -/
lemma isClosed_feasible (p : Program ℝ ι) : IsClosed p.feasible := by
  have hnonneg : IsClosed {x : ι → ℝ | ∀ i, 0 ≤ x i} := by
    rw [Set.ofPred_forall]
    exact isClosed_iInter fun i => isClosed_le continuous_const (continuous_apply i)
  have hbounds : IsClosed {x : ι → ℝ | ∀ c ∈ p.bounds, ∑ i, c.1 i * x i ≤ c.2} := by
    have heq : {x : ι → ℝ | ∀ c ∈ p.bounds, ∑ i, c.1 i * x i ≤ c.2} =
        ⋂ c ∈ p.bounds, {x : ι → ℝ | ∑ i, c.1 i * x i ≤ c.2} := by
      ext x
      simp only [Set.mem_ofPred_eq, Set.mem_iInter]
    rw [heq]
    exact isClosed_biInter fun c _ => isClosed_le (continuous_linear c.1) continuous_const
  exact hnonneg.inter hbounds

/-- **A linear program has a solution** if some numbers keep the bounds and those that are not worse
are bounded. -/
theorem exists_isOptimal {x₀ : ι → ℝ} (h₀ : x₀ ∈ p.feasible) {B : ℝ}
    (hB : ∀ x ∈ p.feasible, p.value x ≤ p.value x₀ → ∀ i, x i ≤ B) : ∃ x, p.IsOptimal x := by
  have hclosed : IsClosed (p.feasible ∩ {x | p.value x ≤ p.value x₀}) :=
    (isClosed_feasible p).inter (isClosed_le (continuous_linear p.objective) continuous_const)
  have hbox : p.feasible ∩ {x | p.value x ≤ p.value x₀} ⊆ Set.Icc (fun _ => 0) fun _ => B :=
    fun x hx => ⟨fun i => hx.1.1 i, fun i => hB x hx.1 hx.2 i⟩
  have hcompact := isCompact_Icc.of_isClosed_subset hclosed hbox
  obtain ⟨x, hx, hmin⟩ := hcompact.exists_isMinOn ⟨x₀, h₀, le_refl (p.value x₀)⟩
    (continuous_linear p.objective).continuousOn
  refine ⟨x, hx.1, fun y hy => ?_⟩
  rcases le_total (p.value y) (p.value x₀) with hle | hle
  · exact hmin ⟨hy, hle⟩
  · exact le_trans hx.2 hle

end Program

end LinearPrograms
