import Mathlib.Order.Nat

/-!
# Tilings of an interval of numbers

A list of intervals tiles an interval if each of them starts where the one before it ends.  A
function that is constant on each tile is known from the values of the tiles, and one that is true
or false splits the interval into its longest runs.
-/

namespace Tiling

open List

/-! ### Tiles -/

section Tiles

variable {ι α : Type*} {lo hi : ι → ℕ} {start mid stop p : ℕ} {l l₁ l₂ : List ι} {x : ι}

/-- The members of a list tile the numbers from the start to the stop, which is not among them. -/
def Tiles (lo hi : ι → ℕ) : ℕ → List ι → ℕ → Prop
  | start, [], stop => start = stop
  | start, x :: l, stop => lo x = start ∧ lo x ≤ hi x ∧ Tiles lo hi (hi x + 1) l stop

/-- A function has the value of a member on all of its tile. -/
def Shows (lo hi : ι → ℕ) (value : ι → α) (f : ℕ → α) (l : List ι) : Prop :=
  ∀ x ∈ l, ∀ p, lo x ≤ p → p ≤ hi x → f p = value x

lemma Tiles.start_le (h : Tiles lo hi start l stop) : start ≤ stop := by
  induction l generalizing start with
  | nil => exact h.le
  | cons x l ih =>
    obtain ⟨hlo, hle, hrest⟩ := h
    have hstop := ih hrest
    omega

/-- Tiles are within the interval. -/
lemma Tiles.mem (h : Tiles lo hi start l stop) (hx : x ∈ l) :
    start ≤ lo x ∧ lo x ≤ hi x ∧ hi x < stop := by
  induction l generalizing start with
  | nil => cases hx
  | cons y l ih =>
    obtain ⟨hlo, hle, hrest⟩ := h
    rcases mem_cons.mp hx with rfl | hx
    · have hstop := hrest.start_le
      omega
    · obtain ⟨hstart, hle', hlt⟩ := ih hrest hx
      omega

/-- Two tilings are one if the second starts where the first one stops. -/
lemma tiles_append : Tiles lo hi start (l₁ ++ l₂) stop ↔
    ∃ mid, Tiles lo hi start l₁ mid ∧ Tiles lo hi mid l₂ stop := by
  induction l₁ generalizing start with
  | nil => exact ⟨fun h => ⟨start, rfl, h⟩, fun ⟨_, heq, h⟩ => heq ▸ h⟩
  | cons x l₁ ih =>
    constructor
    · rintro ⟨hlo, hle, hrest⟩
      obtain ⟨mid, h₁, h₂⟩ := ih.mp hrest
      exact ⟨mid, ⟨hlo, hle, h₁⟩, h₂⟩
    · rintro ⟨mid, ⟨hlo, hle, h₁⟩, h₂⟩
      exact ⟨hlo, hle, ih.mpr ⟨mid, h₁, h₂⟩⟩

/-- Changing the members without changing their tiles. -/
lemma Tiles.map (h : Tiles lo hi start l stop) {g : ι → ι} (hlo : ∀ x, lo (g x) = lo x)
    (hhi : ∀ x, hi (g x) = hi x) : Tiles lo hi start (l.map g) stop := by
  induction l generalizing start with
  | nil => exact h
  | cons x l ih =>
    obtain ⟨hstart, hle, hrest⟩ := h
    refine ⟨by rw [hlo]; exact hstart, by rw [hlo, hhi]; exact hle, ?_⟩
    rw [hhi]
    exact ih hrest

/-- The values of two lists. -/
lemma shows_append {value : ι → α} {f : ℕ → α} :
    Shows lo hi value f (l₁ ++ l₂) ↔ Shows lo hi value f l₁ ∧ Shows lo hi value f l₂ :=
  forall_mem_append

/-- The values of a list with a first member. -/
lemma shows_cons {value : ι → α} {f : ℕ → α} : Shows lo hi value f (x :: l) ↔
    (∀ p, lo x ≤ p → p ≤ hi x → f p = value x) ∧ Shows lo hi value f l :=
  forall_mem_cons

end Tiles

/-! ### Runs -/

section Runs

variable {P : ℕ → Bool} {start p n : ℕ}

/-- The longest runs of equal values from `start` on: `p` is where the current one has come to, and
there are `n` numbers after it. -/
def runsFrom (P : ℕ → Bool) (start : ℕ) : ℕ → ℕ → List (Bool × ℕ × ℕ)
  | 0, p => [(P p, start, p)]
  | n + 1, p =>
    if P p ≠ P (p + 1) then (P p, start, p) :: runsFrom P (p + 1) n (p + 1)
    else runsFrom P start n (p + 1)

/-- A run goes on as long as the value stays. -/
lemma runsFrom_add {k : ℕ} (h : ∀ q, p ≤ q → q ≤ p + k → P q = P p) :
    runsFrom P start (n + k) p = runsFrom P start n (p + k) := by
  induction k generalizing p with
  | zero => rfl
  | succ k ih =>
    have hnext : P (p + 1) = P p := h (p + 1) (by omega) (by omega)
    rw [← Nat.add_assoc, runsFrom, if_neg (not_not.mpr hnext.symm), ih fun q hq hk => by
      rw [h q (by omega) (by omega), hnext]]
    congr 1
    omega

/-- Runs are intervals between the start and the end. -/
lemma le_of_mem_runsFrom {r : Bool × ℕ × ℕ} (hstart : start ≤ p) (hr : r ∈ runsFrom P start n p) :
    start ≤ r.2.1 ∧ r.2.1 ≤ r.2.2 ∧ r.2.2 ≤ p + n := by
  induction n generalizing start p with
  | zero =>
    obtain rfl := mem_singleton.mp hr
    exact ⟨le_rfl, hstart, le_rfl⟩
  | succ n ih =>
    rw [runsFrom] at hr
    split_ifs at hr
    · rcases mem_cons.mp hr with rfl | hr
      · exact ⟨le_rfl, hstart, Nat.le_add_right _ _⟩
      · obtain ⟨hlo, hle, hhi⟩ := ih le_rfl hr
        omega
    · obtain ⟨hlo, hle, hhi⟩ := ih (hstart.trans (Nat.le_succ p)) hr
      omega

/-- **The runs with a value** are where the function has it. -/
lemma exists_mem_runsFrom {q : ℕ} {b : Bool} (hstart : start ≤ p)
    (hsame : ∀ q, start ≤ q → q ≤ p → P q = P p) (hq : start ≤ q) (hqn : q ≤ p + n) :
    (∃ r ∈ runsFrom P start n p, r.1 = b ∧ r.2.1 ≤ q ∧ q ≤ r.2.2) ↔ P q = b := by
  induction n generalizing start p with
  | zero =>
    rw [runsFrom, hsame q hq hqn]
    constructor
    · rintro ⟨r, hr, rfl, -⟩
      rw [mem_singleton.mp hr]
    · rintro rfl
      exact ⟨_, mem_singleton_self _, rfl, hq, hqn⟩
  | succ n ih =>
    rw [runsFrom]
    split_ifs with hnext
    · -- the run ends at `p`, and what is after it is in the other runs
      by_cases hle : q ≤ p
      · rw [hsame q hq hle]
        constructor
        · rintro ⟨r, hr, rfl, hlo, -⟩
          rcases mem_cons.mp hr with rfl | hr
          · rfl
          · have hge := (le_of_mem_runsFrom le_rfl hr).1
            omega
        · rintro rfl
          exact ⟨_, mem_cons_self, rfl, hq, hle⟩
      · have hself : ∀ q, p + 1 ≤ q → q ≤ p + 1 → P q = P (p + 1) := fun q hq hq' => by
          rw [le_antisymm hq' hq]
        rw [← ih le_rfl hself (by omega) (by omega)]
        constructor
        · rintro ⟨r, hr, hb, hlo, hhi⟩
          rcases mem_cons.mp hr with rfl | hr
          · exact absurd hhi hle
          · exact ⟨r, hr, hb, hlo, hhi⟩
        · rintro ⟨r, hr, h⟩
          exact ⟨r, mem_cons_of_mem _ hr, h⟩
    · rw [not_not] at hnext
      refine ih (hstart.trans (Nat.le_succ p)) (fun q' hq' hle => ?_) hq (by omega)
      rcases Nat.le_succ_iff.mp hle with hle | rfl
      · rw [hsame q' hq' hle, hnext]
      · rfl

end Runs

end Tiling
