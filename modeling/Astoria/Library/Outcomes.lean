import Mathlib.Data.List.Basic

/-!
# Outcomes of programs that can abort

A program that can abort yields a result or the reason why it has aborted.  `Satisfies` says what is
known of either: a postcondition for the results and one for the reasons.  There is one rule for a
sequence of two programs, and one for a program that is run for every element of a list.
-/

namespace Astoria.Outcomes

open List

universe u

variable {ε β : Type*} {σ τ : Type u} {P : σ → Prop} {Q : τ → Prop} {E : ε → Prop}

/-- A result has a property, and a reason to abort has another one. -/
def Satisfies (P : σ → Prop) (E : ε → Prop) : Except ε σ → Prop
  | .ok s => P s
  | .error e => E e

/-- Weaker properties. -/
lemma Satisfies.mono {P' : σ → Prop} {x : Except ε σ} (h : Satisfies P E x) (hP : ∀ s, P s → P' s) :
    Satisfies P' E x := by
  cases x with
  | ok s => exact hP s h
  | error e => exact h

/-- Two properties of the reasons exclude each other, so that there is a result. -/
lemma Satisfies.exists_ok {P' : σ → Prop} {E' : ε → Prop} {x : Except ε σ} (h : Satisfies P E x)
    (h' : Satisfies P' E' x) (hE : ∀ e, E e → ¬ E' e) : ∃ s, x = .ok s ∧ P s ∧ P' s := by
  cases x with
  | ok s => exact ⟨s, rfl, h, h'⟩
  | error e => exact absurd h' (hE e h)

/-- **The rule for sequences.** -/
lemma Satisfies.bind {x : Except ε σ} {f : σ → Except ε τ} (h : Satisfies P E x)
    (hf : ∀ s, P s → Satisfies Q E (f s)) : Satisfies Q E (x >>= f) := by
  cases x with
  | ok s => exact hf s h
  | error e => exact h

/-- **The rule for iterations.** -/
lemma Satisfies.foldlM {f : σ → β → Except ε σ} {l : List β} {s : σ} (h : P s)
    (hstep : ∀ b ∈ l, ∀ s, P s → Satisfies P E (f s b)) : Satisfies P E (l.foldlM f s) := by
  induction l generalizing s with
  | nil => exact h
  | cons b rest ih =>
    rw [foldlM_cons]
    exact (hstep b mem_cons_self s h).bind fun s' hs' =>
      ih hs' fun b' hb' => hstep b' (mem_cons_of_mem b hb')

end Astoria.Outcomes
