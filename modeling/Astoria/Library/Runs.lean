import Mathlib.Data.List.Basic

/-!
# Runs of partial steps

A step that can fail, taken once for every element of a list, is a fold in the `Option` monad.  The
rules here conclude that such a fold succeeds, and what holds of its result, from what one step
does: `exists_foldlM` with an invariant that may speak of the elements still to come, and
`MeetsAlong.exists_foldlM` for steps that succeed under a condition on the state before them.  A map
by a partial function is another such run (`exists_of_mem_mapM`).  The entries of a sparse array,
put one by one into an empty one, give it back (`foldlM_sparseEntries`).
-/

namespace Astoria.Runs

open List Option

variable {σ β : Type*} {f : σ → β → Option σ} {l : List β} {s : σ} {P : σ → Prop}
  {ok : σ → β → Prop}

/-- **The invariant rule for partial folds.**  The invariant may mention the remaining elements. -/
theorem exists_foldlM {P : List β → σ → Prop}
    (hstep : ∀ b rest s, P (b :: rest) s → ∃ s', f s b = some s' ∧ P rest s') (h : P l s) :
    ∃ s', l.foldlM f s = some s' ∧ P [] s' := by
  induction l generalizing s with
  | nil => exact ⟨s, rfl, h⟩
  | cons b rest ih =>
    obtain ⟨s₁, hs₁, hinv⟩ := hstep b rest s h
    obtain ⟨s', hs', hnil⟩ := ih hinv
    refine ⟨s', ?_, hnil⟩
    rw [foldlM_cons, hs₁]
    exact hs'

/-- What every step keeps is kept by a fold that succeeds. -/
theorem foldlM_preserves {s' : σ}
    (hstep : ∀ b ∈ l, ∀ s s', P s → f s b = some s' → P s') (h : P s)
    (hrun : l.foldlM f s = some s') : P s' := by
  induction l generalizing s with
  | nil =>
    obtain rfl := some.inj hrun
    exact h
  | cons b rest ih =>
    rw [foldlM_cons] at hrun
    obtain ⟨s₁, hs₁, hrun⟩ := bind_eq_some_iff.mp hrun
    exact ih (fun b hb => hstep b (mem_cons_of_mem _ hb)) (hstep b mem_cons_self s s₁ h hs₁) hrun

/-- Every step of the run meets its condition in the state before it. -/
def MeetsAlong (f : σ → β → Option σ) (ok : σ → β → Prop) : List β → σ → Prop
  | [], _ => True
  | b :: rest, s => ok s b ∧ ∀ s', f s b = some s' → MeetsAlong f ok rest s'

/-- A property holds in every state of the run. -/
def HoldsAlong (f : σ → β → Option σ) (P : σ → Prop) : List β → σ → Prop
  | [], s => P s
  | b :: rest, s => P s ∧ ∀ s', f s b = some s' → HoldsAlong f P rest s'

/-- What every step keeps holds all along a run. -/
theorem holdsAlong_of_step (hstep : ∀ b ∈ l, ∀ s s', P s → f s b = some s' → P s') (h : P s) :
    HoldsAlong f P l s := by
  induction l generalizing s with
  | nil => exact h
  | cons b rest ih =>
    refine ⟨h, fun s' hs' => ?_⟩
    exact ih (fun b hb => hstep b (mem_cons_of_mem _ hb)) (hstep b mem_cons_self s s' h hs')

/-- Properties that are the same where an invariant holds, hold along the same runs. -/
theorem holdsAlong_congr {Q Inv : σ → Prop} (hinv : HoldsAlong f Inv l s)
    (hiff : ∀ s, Inv s → (P s ↔ Q s)) : HoldsAlong f P l s ↔ HoldsAlong f Q l s := by
  induction l generalizing s with
  | nil => exact hiff s hinv
  | cons b rest ih =>
    refine and_congr (hiff s hinv.1) (forall_congr' fun s' => forall_congr' fun hs' => ?_)
    exact ih (hinv.2 s' hs')

/-- Steps that always succeed. -/
lemma meetsAlong_some_cons {step : σ → β → σ} {b : β} {rest : List β} :
    MeetsAlong (fun s b => some (step s b)) ok (b :: rest) s ↔
      ok s b ∧ MeetsAlong (fun s b => some (step s b)) ok rest (step s b) := by
  refine and_congr_right fun _ => ⟨fun h => h _ rfl, fun h s' hs' => ?_⟩
  rw [← some.inj hs']
  exact h

/-- **The exactness rule.**  If a step from a state with a property keeps it exactly when its
condition is met, the property holds all along a run exactly if every step meets its condition. -/
theorem holdsAlong_iff_meetsAlong {step : σ → β → σ} {Inv : σ → Prop}
    (hinv : ∀ b ∈ l, ∀ s, Inv s → Inv (step s b))
    (hstep : ∀ b ∈ l, ∀ s, Inv s → P s → (P (step s b) ↔ ok s b)) (hs : Inv s) (h : P s) :
    HoldsAlong (fun s b => some (step s b)) P l s ↔
    MeetsAlong (fun s b => some (step s b)) ok l s := by
  induction l generalizing s with
  | nil => exact iff_of_true h trivial
  | cons b rest ih =>
    have hrest := fun h' => ih (fun b hb => hinv b (mem_cons_of_mem _ hb))
      (fun b hb => hstep b (mem_cons_of_mem _ hb)) (hinv b mem_cons_self s hs) h'
    have hb := hstep b mem_cons_self s hs h
    rw [meetsAlong_some_cons, ← hb]
    constructor
    · intro hholds
      have hafter := hholds.2 _ rfl
      have hnext : P (step s b) := by
        cases rest with
        | nil => exact hafter
        | cons b' rest => exact hafter.1
      exact ⟨hnext, (hrest hnext).mp hafter⟩
    · rintro ⟨hnext, hmeets⟩
      refine ⟨h, fun s' hs' => ?_⟩
      rw [← some.inj hs']
      exact (hrest hnext).mpr hmeets

/-- Whether the steps of a run meet their conditions can be computed. -/
instance decidableMeetsAlong (step : σ → β → σ) (ok : σ → β → Prop) [∀ s b, Decidable (ok s b)] :
    ∀ l s, Decidable (MeetsAlong (fun s b => some (step s b)) ok l s)
  | [], _ => isTrue trivial
  | b :: rest, s =>
    have := decidableMeetsAlong step ok rest (step s b)
    decidable_of_iff _ meetsAlong_some_cons.symm

/-- Whether the steps of a run that can fail meet their conditions can be computed. -/
instance decidableMeetsAlongPartial (f : σ → β → Option σ) (ok : σ → β → Prop)
    [∀ s b, Decidable (ok s b)] : ∀ l s, Decidable (MeetsAlong f ok l s)
  | [], _ => isTrue trivial
  | b :: rest, s =>
    match hstep : f s b with
    | none =>
      decidable_of_iff (ok s b) ⟨fun h => ⟨h, fun s' hs' => by rw [hstep] at hs'; cases hs'⟩,
        fun h => h.1⟩
    | some s' =>
      have := decidableMeetsAlongPartial f ok rest s'
      decidable_of_iff (ok s b ∧ MeetsAlong f ok rest s')
        ⟨fun h => ⟨h.1, fun s₁ hs₁ => Option.some.inj (hstep.symm.trans hs₁) ▸ h.2⟩, fun h =>
          ⟨h.1, h.2 s' hstep⟩⟩

/-- **The invariant rule for conditional steps.**  If a step whose condition is met succeeds and
keeps the invariant, so does a run all of whose steps meet their conditions. -/
theorem MeetsAlong.exists_foldlM (hstep : ∀ s b, P s → ok s b → ∃ s', f s b = some s' ∧ P s')
    (h : P s) (hok : MeetsAlong f ok l s) : ∃ s', l.foldlM f s = some s' ∧ P s' := by
  have hrun := Runs.exists_foldlM (f := f) (P := fun rest s => P s ∧ MeetsAlong f ok rest s)
    (l := l) (s := s) (fun b rest s hs => ?_) ⟨h, hok⟩
  · obtain ⟨s', hs', hinv, -⟩ := hrun
    exact ⟨s', hs', hinv⟩
  · obtain ⟨hinv, hb, hrest⟩ := hs
    obtain ⟨s', hs', hinv'⟩ := hstep s b hinv hb
    exact ⟨s', hs', hinv', hrest s' hs'⟩

/-- A run whose steps meet their conditions does so up to any point. -/
lemma MeetsAlong.of_append {l₁ l₂ : List β}
    (h : MeetsAlong f ok (l₁ ++ l₂) s) : MeetsAlong f ok l₁ s := by
  induction l₁ generalizing s with
  | nil => trivial
  | cons b l₁ ih => exact ⟨h.1, fun s' hs' => ih (h.2 s' hs')⟩

/-- A run whose steps meet their conditions does so from any point on. -/
lemma MeetsAlong.after {l₁ l₂ : List β} {s' : σ} (h : MeetsAlong f ok (l₁ ++ l₂) s)
    (hrun : l₁.foldlM f s = some s') : MeetsAlong f ok l₂ s' := by
  induction l₁ generalizing s with
  | nil =>
    obtain rfl := some.inj hrun
    exact h
  | cons b l₁ ih =>
    rw [foldlM_cons] at hrun
    obtain ⟨s₁, hs₁, hrun⟩ := bind_eq_some_iff.mp hrun
    exact ih (h.2 s₁ hs₁) hrun

/-- In a run whose steps meet their conditions, every step is taken in a state with the
invariant. -/
lemma MeetsAlong.exists_before (hstep : ∀ s b, P s → ok s b → ∃ s', f s b = some s' ∧ P s')
    {l₁ l₂ : List β} {b : β}
    (h : P s) (hok : MeetsAlong f ok (l₁ ++ b :: l₂) s) :
    ∃ s', l₁.foldlM f s = some s' ∧ P s' ∧ ok s' b := by
  induction l₁ generalizing s with
  | nil => exact ⟨s, rfl, h, hok.1⟩
  | cons b₁ l₁ ih =>
    obtain ⟨s₁, hs₁, hinv⟩ := hstep s b₁ h hok.1
    obtain ⟨s', hs', hinv', hb⟩ := ih hinv (hok.2 s₁ hs₁)
    refine ⟨s', ?_, hinv', hb⟩
    rw [foldlM_cons, hs₁]
    exact hs'

/-- What a partial map yields comes from a member of the list. -/
lemma exists_of_mem_mapM {α : Type*} {h : β → Option α} {l' : List α}
    (hl : l.mapM h = some l') {a : α} (ha : a ∈ l') : ∃ b ∈ l, h b = some a := by
  induction l generalizing l' with
  | nil =>
    obtain rfl := some.inj hl
    cases ha
  | cons b l ih =>
    rw [mapM_cons] at hl
    obtain ⟨a₁, ha₁, hl⟩ := bind_eq_some_iff.mp hl
    obtain ⟨l₁, hl₁, hl⟩ := bind_eq_some_iff.mp hl
    obtain rfl := some.inj hl
    rcases mem_cons.mp ha with rfl | ha
    · exact ⟨b, mem_cons_self, ha₁⟩
    · obtain ⟨b', hb', hba⟩ := ih hl₁ ha
      exact ⟨b', mem_cons_of_mem b hb', hba⟩

/-- A partial map succeeds if the function does so on all members. -/
lemma mapM_eq_some_map {α : Type*} {h : β → Option α} {k : β → α}
    (hl : ∀ b ∈ l, h b = some (k b)) : l.mapM h = some (l.map k) := by
  induction l with
  | nil => rfl
  | cons b l ih =>
    rw [mapM_cons, hl b mem_cons_self, ih fun b' hb' => hl b' (mem_cons_of_mem b hb')]
    rfl

/-- A partial map undoes a map whose values it takes back. -/
lemma mapM_map_eq_some {α : Type*} {g : α → β} {h : β → Option α} (hg : ∀ a, h (g a) = some a)
    (l : List α) : (l.map g).mapM h = some l := by
  rw [mapM_map]
  exact (mapM_eq_some_map (k := id) fun a _ => hg a).trans (congrArg some (List.map_id l))

/-- A partial map succeeds only if the function does so on all members. -/
lemma exists_of_mapM_eq_some {α : Type*} {h : β → Option α} {l' : List α}
    (hl : l.mapM h = some l') {b : β} (hb : b ∈ l) : ∃ a, h b = some a := by
  induction l generalizing l' with
  | nil => cases hb
  | cons b' l ih =>
    rw [mapM_cons] at hl
    obtain ⟨a₁, ha₁, hl⟩ := bind_eq_some_iff.mp hl
    obtain ⟨l₁, hl₁, -⟩ := bind_eq_some_iff.mp hl
    rcases mem_cons.mp hb with rfl | hb
    · exact ⟨a₁, ha₁⟩
    · exact ih hl₁ hb

/-! ### Sparse arrays -/

section Sparse

variable {α : Type*}

/-- The entries of an array that are there, with their indices from `k` on. -/
def sparseEntries (entry : ℕ → α → β) (cells : List (Option α)) (k : ℕ) : List β :=
  (cells.zipIdx k).flatMap fun cell => (cell.1.map (entry cell.2)).toList

/-- **Reading the entries of a sparse array.**  Into an array that has the first cells already and
is empty from there on, the entries of the other cells are put one by one. -/
theorem foldlM_sparseEntries (state : List (Option α) → σ) {entry : ℕ → α → β} {n : ℕ}
    (hstep : ∀ array i a, array.length = n → i < n →
      f (state array) (entry i a) = some (state (array.set i (some a))))
    (cells done : List (Option α)) (hn : done.length + cells.length = n) :
    (sparseEntries entry cells done.length).foldlM f
        (state (done ++ replicate cells.length none)) = some (state (done ++ cells)) := by
  induction cells generalizing done with
  | nil => rfl
  | cons cell cells ih =>
    rw [length_cons] at hn
    have hrest := ih (done ++ [cell]) (by rw [length_append, length_singleton]; omega)
    rw [length_append, length_singleton, append_assoc, append_assoc] at hrest
    rw [sparseEntries, zipIdx_cons, flatMap_cons, foldlM_append, length_cons,
      replicate_succ]
    cases cell with
    | none => exact hrest
    | some a =>
      have hlen : (done ++ none :: replicate cells.length (none : Option α)).length = n := by
        simpa using hn
      have hput := hstep _ done.length a hlen (by omega)
      rw [set_append_right _ _ (Nat.le_refl _), Nat.sub_self, set_cons_zero] at hput
      rw [map_some, toList_some, foldlM_cons, hput]
      exact hrest

end Sparse

end Astoria.Runs
