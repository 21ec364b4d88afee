import Mathlib.Data.List.Nodup

/-!
# Round robin

Clients wait in a line.  The first one is chosen and then served; it goes to the end of the line, or
leaves it if nothing is left to do for it.  At any time others may join in front, and some may leave
(`Joins`); those that stay keep their order.  Between two services of one client, any other one is
served exactly once if both stay in the line (`Run.count_eq_one`): it is before the first client
until it is served, and behind it from then on (`Turn`).
-/

namespace RoundRobin

open List Option

variable {N : Type*} {l l' kept : List N} {a b c x y : N}

/-! ### The order in a line -/

/-- One client is somewhere before another one. -/
def Before (l : List N) (a b : N) : Prop := [a, b].Sublist l

/-- A line is split between the two. -/
lemma before_iff : Before l a b ↔ ∃ r₁ r₂, l = r₁ ++ r₂ ∧ a ∈ r₁ ∧ b ∈ r₂ := by
  unfold Before
  rw [cons_sublist_iff]
  simp only [singleton_sublist]

/-- In a longer line. -/
lemma Before.mono (h : Before l a b) (hl : l.Sublist l') : Before l' a b := Sublist.trans h hl

lemma Before.asymm (h : Before l a b) (hl : l.Nodup) : ¬Before l b a := by
  intro hba
  obtain ⟨r₁, r₂, rfl, ha, hb⟩ := before_iff.mp h
  obtain ⟨k₁, k₂, hk, h₁, h₂⟩ := sublist_append_iff.mp hba
  have hdisj := (nodup_append.mp hl).2.2
  cases k₁ with
  | nil =>
    rw [nil_append] at hk
    rw [← hk] at h₂
    exact hdisj a ha a (h₂.subset (mem_cons_of_mem b mem_cons_self)) rfl
  | cons d k₁ =>
    obtain ⟨rfl, -⟩ := cons_eq_cons.mp hk
    exact hdisj b (h₁.subset mem_cons_self) b hb rfl

lemma before_or_before (ha : a ∈ l) (hb : b ∈ l) (hne : a ≠ b) : Before l a b ∨ Before l b a := by
  obtain ⟨r₁, r₂, rfl⟩ := append_of_mem ha
  rcases mem_append.mp hb with hb | hb
  · exact .inr (before_iff.mpr ⟨r₁, a :: r₂, rfl, hb, mem_cons_self⟩)
  · rcases mem_cons.mp hb with heq | hb
    · exact absurd heq.symm hne
    · refine .inl (before_iff.mpr ⟨r₁ ++ [a], r₂, ?_, ?_, hb⟩)
      · rw [append_assoc, singleton_append]
      · exact mem_append_right r₁ mem_cons_self

/-- Those that stay keep their order. -/
lemma Before.of_sublist (h : Before l a b) (hl : l.Nodup) (hkept : kept.Sublist l) (ha : a ∈ kept)
    (hb : b ∈ kept) : Before kept a b := by
  have hne : a ≠ b := by
    rintro rfl
    exact h.asymm hl h
  rcases before_or_before ha hb hne with hab | hba
  · exact hab
  · exact absurd (hba.mono hkept) (h.asymm hl)

lemma Before.head_ne (h : Before l a b) (hl : l.Nodup) : l.head? ≠ some b := by
  intro hhead
  obtain ⟨r₁, r₂, rfl, ha, hb⟩ := before_iff.mp h
  cases r₁ with
  | nil => cases ha
  | cons d r₁ =>
    obtain rfl := Option.some.inj hhead
    exact (nodup_append.mp hl).2.2 d mem_cons_self d hb rfl

/-! ### What happens to a line -/

/-- Some join in front, and some leave. -/
def Joins (l l' : List N) : Prop :=
  ∃ fresh kept, l' = fresh ++ kept ∧ kept.Sublist l ∧ ∀ a ∈ fresh, a ∉ l

/-- A client is served: it leaves, or goes to the end. -/
def Serves (a : N) (l l' : List N) : Prop :=
  ∃ l₁ l₂, l = l₁ ++ a :: l₂ ∧ (l' = l₁ ++ l₂ ∨ l' = l₁ ++ l₂ ++ [a])

lemma Joins.refl (l : List N) : Joins l l :=
  ⟨[], l, rfl, Sublist.refl l, fun _ ha => absurd ha not_mem_nil⟩

lemma Joins.leave (l₁ l₂ : List N) (a : N) : Joins (l₁ ++ a :: l₂) (l₁ ++ l₂) :=
  ⟨[], l₁ ++ l₂, rfl, (sublist_cons_self a l₂).append_left l₁, fun _ hb => absurd hb not_mem_nil⟩

lemma Joins.join (ha : a ∉ l) : Joins l (a :: l) := by
  refine ⟨[a], l, rfl, Sublist.refl l, fun b hb => ?_⟩
  rw [mem_singleton.mp hb]
  exact ha

lemma Joins.clear (l : List N) : Joins l [] :=
  ⟨[], [], rfl, nil_sublist l, fun _ ha => absurd ha not_mem_nil⟩

/-- Joining and leaving do not change the order of those that stay. -/
lemma Joins.before (h : Joins l l') (hl : l.Nodup) (hab : Before l a b) (ha : a ∈ l')
    (hb : b ∈ l') :
    Before l' a b := by
  obtain ⟨fresh, kept, rfl, hkept, hfresh⟩ := h
  have hin : ∀ d, d ∈ l → d ∈ fresh ++ kept → d ∈ kept := fun d hd hd' =>
    (mem_append.mp hd').resolve_left fun hf => hfresh d hf hd
  have ha' := hin a (hab.subset mem_cons_self) ha
  have hb' := hin b (hab.subset (mem_cons_of_mem a mem_cons_self)) hb
  exact (hab.of_sublist hl hkept ha' hb').mono (sublist_append_right fresh kept)

/-- A service does not change the order of the others. -/
lemma Serves.before (h : Serves c l l') (hl : l.Nodup) (hab : Before l a b) (ha : a ≠ c)
    (hb : b ≠ c) :
    Before l' a b := by
  obtain ⟨l₁, l₂, rfl, hl'⟩ := h
  have hin : ∀ d, d ≠ c → d ∈ l₁ ++ c :: l₂ → d ∈ l₁ ++ l₂ := fun d hd hmem =>
    (mem_cons.mp (perm_middle.mem_iff.mp hmem)).resolve_left hd
  have hkept := hab.of_sublist hl ((sublist_cons_self c l₂).append_left l₁)
    (hin a ha (hab.subset mem_cons_self))
    (hin b hb (hab.subset (mem_cons_of_mem a mem_cons_self)))
  rcases hl' with rfl | rfl
  · exact hkept
  · exact hkept.mono (sublist_append_left _ _)

/-- A client that has been served is behind the others, if it does not leave. -/
lemma Serves.behind (h : Serves c l l') (hl : l.Nodup) (hc : c ∈ l') (ha : a ∈ l') (hne : a ≠ c) :
    Before l' a c := by
  obtain ⟨l₁, l₂, rfl, rfl | rfl⟩ := h
  · exact absurd hc (nodup_cons.mp (nodup_middle.mp hl)).1
  · refine before_iff.mpr ⟨l₁ ++ l₂, [c], rfl, ?_, mem_cons_self⟩
    exact (mem_append.mp ha).resolve_right fun h => hne (mem_singleton.mp h)

section SetWaiting

variable [DecidableEq N] {p : Prop} [Decidable p]

/-- A client joins in front if it is to wait and does not, and leaves if it is not to wait. -/
def setWaiting (l : List N) (c : N) (p : Prop) [Decidable p] : List N :=
  if p then if c ∈ l then l else c :: l else l.erase c

/-- The line without a client. -/
lemma erase_middle {l₁ l₂ : List N} (hl : (l₁ ++ c :: l₂).Nodup) :
    (l₁ ++ c :: l₂).erase c = l₁ ++ l₂ := by
  have hc : c ∉ l₁ := fun hc => (nodup_append.mp hl).2.2 c hc c mem_cons_self rfl
  rw [erase_append_right _ hc, erase_cons_head]

lemma mem_setWaiting (hl : l.Nodup) : a ∈ setWaiting l c p ↔ if a = c then p else a ∈ l := by
  unfold setWaiting
  by_cases hp : p
  · rw [if_pos hp]
    by_cases hc : c ∈ l
    · rw [if_pos hc]
      split
      · next heq => exact iff_of_true (heq ▸ hc) hp
      · rfl
    · rw [if_neg hc, mem_cons]
      split
      · next heq => exact iff_of_true (.inl heq) hp
      · next hne => rw [or_iff_right hne]
  · rw [if_neg hp, hl.mem_erase_iff]
    split
    · next heq => exact iff_of_false (fun h => h.1 heq) hp
    · next hne => rw [and_iff_right hne]

lemma joins_setWaiting (hl : l.Nodup) (c : N) : Joins l (setWaiting l c p) := by
  unfold setWaiting
  by_cases hp : p
  · rw [if_pos hp]
    by_cases hc : c ∈ l
    · rw [if_pos hc]
      exact .refl l
    · rw [if_neg hc]
      exact .join hc
  · rw [if_neg hp]
    by_cases hc : c ∈ l
    · obtain ⟨l₁, l₂, rfl⟩ := append_of_mem hc
      rw [erase_middle hl]
      exact .leave l₁ l₂ c
    · rw [erase_of_not_mem hc]
      exact .refl l

/-- A client that waits and is not to wait any more has been served. -/
lemma serves_setWaiting (hl : l.Nodup) (hc : c ∈ l) (hp : ¬p) : Serves c l (setWaiting l c p) := by
  obtain ⟨l₁, l₂, rfl⟩ := append_of_mem hc
  refine ⟨l₁, l₂, rfl, .inl ?_⟩
  rw [setWaiting, if_neg hp, erase_middle hl]

end SetWaiting

/-! ### Runs -/

/-- A line, and the client that has been chosen and is yet to be served. -/
structure Counter (N : Type*) where
  line : List N
  nodup : line.Nodup
  chosen : Option N

/-- A step, and who is served in it. -/
inductive Step (q q' : Counter N) : Option N → Prop
  /-- Some join, and some leave. -/
  | change (line : Joins q.line q'.line) (chosen : q'.chosen = q.chosen) : Step q q' none
  /-- The first one is chosen. -/
  | choose (line : q'.line = q.line) (free : q.chosen = none)
      (chosen : ∀ a, q'.chosen = some a → q.line.head? = some a) : Step q q' none
  | serve (a : N) (line : Serves a q.line q'.line) (chosen : q.chosen = some a)
      (free : q'.chosen = none) : Step q q' (some a)

/-- A run in which both clients are in the line all the time, with the services. -/
inductive Run (x y : N) : Counter N → List (Option N) → Counter N → Prop
  /-- The end. -/
  | nil {q : Counter N} (hx : x ∈ q.line) (hy : y ∈ q.line) : Run x y q [] q
  /-- A step. -/
  | cons {q q₁ q' : Counter N} {served : Option N} {rest : List (Option N)} (hx : x ∈ q.line)
      (hy : y ∈ q.line) (step : Step q q₁ served) (run : Run x y q₁ rest q') :
      Run x y q (served :: rest) q'

variable {served : List (Option N)}

/-- Both clients are in the line at the start of a run. -/
lemma Run.mem (h : Run x y q served q') : x ∈ q.line ∧ y ∈ q.line := by
  cases h with
  | nil hx hy => exact ⟨hx, hy⟩
  | cons hx hy => exact ⟨hx, hy⟩

/-- How often a client has been served since a service of the first one: not at all while it is
before the first one, and once while it is behind. -/
inductive Turn (x y : N) (q : Counter N) : ℕ → Prop
  | waits (before : Before q.line y x) (chosen : q.chosen ≠ some x) : Turn x y q 0
  | served (before : Before q.line x y) (chosen : q.chosen ≠ some y) : Turn x y q 1

variable [DecidableEq N] {q q' : Counter N} {n : ℕ}

/-- **One step.** -/
lemma Turn.step {served : Option N} (h : Turn x y q n) (hstep : Step q q' served)
    (hserved : served ≠ some x) (hx : x ∈ q'.line) (hy : y ∈ q'.line) :
    Turn x y q' (n + if served = some y then 1 else 0) := by
  cases hstep with
  | change hline hchosen =>
    rw [if_neg (some_ne_none y).symm, Nat.add_zero]
    cases h with
    | waits hbefore hc => exact .waits (hline.before q.nodup hbefore hy hx) (hchosen ▸ hc)
    | served hbefore hc => exact .served (hline.before q.nodup hbefore hx hy) (hchosen ▸ hc)
  | choose hline hfree hchosen =>
    rw [if_neg (some_ne_none y).symm, Nat.add_zero]
    cases h with
    | waits hbefore hc =>
      exact .waits (hline ▸ hbefore) fun h => hbefore.head_ne q.nodup (hchosen x h)
    | served hbefore hc =>
      exact .served (hline ▸ hbefore) fun h => hbefore.head_ne q.nodup (hchosen y h)
  | serve a hline hchosen hfree =>
    have hax : a ≠ x := fun heq => hserved (congrArg some heq)
    have hnone : ∀ d, q'.chosen ≠ some d := fun d => hfree ▸ (some_ne_none d).symm
    by_cases hay : a = y
    · -- its turn has come
      rw [if_pos (congrArg some hay)]
      cases h with
      | waits hbefore hc =>
        exact .served (hay ▸ hline.behind q.nodup (hay ▸ hy) hx hax.symm) (hnone y)
      | served hbefore hc => exact absurd (hay ▸ hchosen) hc
    · rw [if_neg fun heq => hay (Option.some.inj heq), Nat.add_zero]
      cases h with
      | waits hbefore hc =>
        exact .waits (hline.before q.nodup hbefore (Ne.symm hay) hax.symm) (hnone x)
      | served hbefore hc =>
        exact .served (hline.before q.nodup hbefore hax.symm (Ne.symm hay)) (hnone y)

/-- **A run** without a service of the first client. -/
lemma Turn.run (h : Turn x y q n) (hrun : Run x y q served q')
    (hserved : some x ∉ served) : Turn x y q' (n + served.count (some y)) := by
  induction hrun generalizing n with
  | nil hx hy => exact h
  | @cons q q₁ q' served rest hx hy hstep hrest ih =>
    rw [mem_cons, not_or] at hserved
    obtain ⟨hx₁, hy₁⟩ := hrest.mem
    have hnext := ih (h.step hstep (Ne.symm hserved.1) hx₁ hy₁) hserved.2
    rw [count_cons, Nat.add_comm (rest.count _), ← Nat.add_assoc]
    simpa only [beq_iff_eq] using hnext

/-- **Fairness.**  After a service of a client, any other one is served exactly once until the
client is chosen again, if both stay in the line. -/
theorem Run.count_eq_one (hrun : Run x y q served q') (hne : x ≠ y)
    (hserved : some x ∉ served) (hl : l.Nodup) (hfirst : Serves x l q.line)
    (hfree : q.chosen = none) (hagain : q'.chosen = some x) : served.count (some y) = 1 := by
  obtain ⟨hx, hy⟩ := hrun.mem
  have hturn : Turn x y q 0 :=
    .waits (hfirst.behind hl hx hy hne.symm) (hfree ▸ (some_ne_none x).symm)
  have hend := hturn.run hrun hserved
  rw [Nat.zero_add] at hend
  generalize served.count (some y) = k at hend ⊢
  cases hend with
  | waits hbefore hc => exact absurd hagain hc
  | served hbefore hc => rfl

end RoundRobin
