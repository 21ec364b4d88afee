import Mathlib.Data.List.Chain

/-!
# Work done in order

The elements of a list are worked on one after the other: those before some point are done, one may
be under way, and nothing was begun of those behind it.  It is enough to look at neighbours
(`frontier_iff_isChain`).
-/

namespace Astoria

open List

variable {α : Type*} {done idle : α → Prop} {l : List α}

/-- The elements are worked on in order. -/
def Frontier (done idle : α → Prop) (l : List α) : Prop :=
  ∃ before current after, l = before ++ current ++ after ∧ (∀ a ∈ before, done a) ∧
    current.length ≤ 1 ∧ ∀ a ∈ after, idle a

lemma Frontier.of_done (h : ∀ a ∈ l, done a) : Frontier done idle l := by
  refine ⟨l, [], [], ?_, h, Nat.zero_le 1, fun a ha => by cases ha⟩
  rw [append_nil, append_nil]

/-- Nothing was begun. -/
lemma Frontier.of_idle (h : ∀ a ∈ l, idle a) : Frontier done idle l :=
  ⟨[], [], l, rfl, forall_mem_nil done, Nat.zero_le 1, h⟩

/-- Something is added before that is done. -/
lemma Frontier.cons {a : α} (ha : done a) (h : Frontier done idle l) :
    Frontier done idle (a :: l) := by
  obtain ⟨before, current, after, rfl, hbefore, hcurrent, hafter⟩ := h
  exact ⟨a :: before, current, after, rfl, forall_mem_cons.mpr ⟨ha, hbefore⟩, hcurrent, hafter⟩

/-- Behind an element that is not done, nothing was begun. -/
lemma idle_of_isChain {a : α} (hdisjoint : ∀ a, idle a → ¬done a) (ha : ¬done a)
    (h : List.IsChain (fun a b => done a ∨ idle b) (a :: l)) : ∀ b ∈ l, idle b := by
  induction l generalizing a with
  | nil => exact forall_mem_nil idle
  | cons b l ih =>
    obtain ⟨hab, hrest⟩ := isChain_cons_cons.mp h
    have hb := hab.resolve_left ha
    exact forall_mem_cons.mpr ⟨hb, ih (hdisjoint b hb) hrest⟩

/-- **It is enough to look at neighbours**: every element either comes after one that is done, or it
was not begun. -/
theorem frontier_iff_isChain (hdisjoint : ∀ a, idle a → ¬done a) :
    Frontier done idle l ↔ List.IsChain (fun a b => done a ∨ idle b) l := by
  constructor
  · rintro ⟨before, current, after, rfl, hbefore, hcurrent, hafter⟩
    have hidle : List.IsChain (fun a b => done a ∨ idle b) (current ++ after) := by
      match current, hcurrent with
      | [], _ =>
        induction after with
        | nil => exact .nil
        | cons a after ih =>
          refine isChain_cons.mpr ⟨fun b hb => .inr ?_, ih (forall_mem_cons.mp hafter).2⟩
          exact hafter b (mem_cons_of_mem a (mem_of_mem_head? hb))
      | [c], _ =>
        induction after generalizing c with
        | nil => exact isChain_singleton c
        | cons a after ih =>
          obtain ⟨ha, hafter⟩ := forall_mem_cons.mp hafter
          exact isChain_cons_cons.mpr ⟨.inr ha, ih hafter a (le_refl 1)⟩
    rw [append_assoc]
    induction before with
    | nil => exact hidle
    | cons a before ih =>
      obtain ⟨ha, hbefore⟩ := forall_mem_cons.mp hbefore
      exact isChain_cons.mpr ⟨fun b _ => .inl ha, ih hbefore⟩
  · intro h
    induction l with
    | nil => exact .of_done (forall_mem_nil done)
    | cons a l ih =>
      by_cases ha : done a
      · exact (ih (isChain_cons.mp h).2).cons ha
      · exact ⟨[], [a], l, rfl, forall_mem_nil done, le_refl 1, idle_of_isChain hdisjoint ha h⟩

end Astoria
