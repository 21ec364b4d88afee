import Mathlib.Tactic.Common

/-!
# Lists of rules that are read from the front

The verdict of a list of rules on an input is that of its first rule that applies (`firstVerdict`).
Two ways to shorten such a list without a change of its verdicts are `dropCovered`, which drops the
rules that an earlier one covers, and `dropShadowed`, which drops a rule if a later one covers it
and says the same, and no rule between the two meets it and says something else.

What the rules cover and what they meet is given by two relations; `Covering` says what is asked of
them.  Both ways are idempotent.  For `dropShadowed` this is not obvious, since a rule that keeps
another one from being shadowed may be dropped itself: `not_shadowed_of_meets` says that two rules
that meet and disagree are not both shadowed.
-/

namespace Astoria.RuleList

open List

variable {ρ χ δ : Type*}

/-- The verdict of the first rule that applies. -/
def firstVerdict (applies : ρ → χ → Bool) (verdict : ρ → δ) (default : δ) : List ρ → χ → δ
  | [], _ => default
  | a :: t, x => if applies a x then verdict a else firstVerdict applies verdict default t x

/-- The rules that a rule does not cover. -/
def uncovered (covers : ρ → ρ → Bool) (a : ρ) (t : List ρ) : List ρ :=
  t.filter fun b => !covers a b

/-- Every rule drops the later ones that it covers. -/
def dropCovered (covers : ρ → ρ → Bool) : List ρ → List ρ
  | [] => []
  | a :: t => a :: dropCovered covers (uncovered covers a t)
termination_by l => l.length
decreasing_by exact Nat.lt_succ_of_le (length_filter_le _ t)

/-- Whether a rule is covered by a later one with its verdict, before any rule with another verdict
that meets it. -/
def shadowed [DecidableEq δ] (verdict : ρ → δ) (covers meets : ρ → ρ → Bool) (a : ρ) : List ρ → Bool
  | [] => false
  | b :: t =>
    if verdict a ≠ verdict b then
      if meets a b then false else shadowed verdict covers meets a t
    else if covers b a then true else shadowed verdict covers meets a t

/-- Every shadowed rule is dropped. -/
def dropShadowed [DecidableEq δ] (verdict : ρ → δ) (covers meets : ρ → ρ → Bool) : List ρ → List ρ
  | [] => []
  | a :: t =>
    if shadowed verdict covers meets a t then dropShadowed verdict covers meets t
    else a :: dropShadowed verdict covers meets t

/-- What is asked of the relations: a rule that covers another one applies wherever that one does
and meets whatever that one meets, and rules that apply to one input meet. -/
structure Covering (applies : ρ → χ → Bool) (covers meets : ρ → ρ → Bool) : Prop where
  /-- A rule that covers another one applies wherever that one does. -/
  applies_of_covers : ∀ {a b x}, covers a b → applies b x → applies a x
  /-- Two rules that apply to one input meet. -/
  meets_of_applies : ∀ {a b x}, applies a x → applies b x → meets a b
  meets_symm : ∀ {a b}, meets a b → meets b a
  /-- A rule that covers another one meets whatever that one meets. -/
  meets_of_covers : ∀ {a b c}, covers c b → meets a b → meets a c

section FirstVerdict

variable {applies : ρ → χ → Bool} {verdict : ρ → δ} {default : δ} {x : χ}

/-- A rule that applies decides. -/
lemma firstVerdict_cons_pos {a : ρ} (h : applies a x) (t : List ρ) :
    firstVerdict applies verdict default (a :: t) x = verdict a := by
  rw [firstVerdict, if_pos h]

/-- A rule that does not apply is passed over. -/
lemma firstVerdict_cons_neg {a : ρ} (h : ¬applies a x) (t : List ρ) :
    firstVerdict applies verdict default (a :: t) x = firstVerdict applies verdict default t x := by
  rw [firstVerdict, if_neg h]

/-- Rules that agree on an input after a first rule agree on it with that rule in front. -/
lemma firstVerdict_cons_congr {a : ρ} {t t' : List ρ} (h : ¬applies a x →
      firstVerdict applies verdict default t x = firstVerdict applies verdict default t' x) :
    firstVerdict applies verdict default (a :: t) x =
      firstVerdict applies verdict default (a :: t') x := by
  by_cases ha : applies a x
  · rw [firstVerdict_cons_pos ha, firstVerdict_cons_pos ha]
  · rw [firstVerdict_cons_neg ha, firstVerdict_cons_neg ha]
    exact h ha

/-- Rules that do not apply may be left out. -/
lemma firstVerdict_filter {keep : ρ → Bool} {l : List ρ} (h : ∀ b ∈ l, ¬keep b → ¬applies b x) :
    firstVerdict applies verdict default (l.filter keep) x =
      firstVerdict applies verdict default l x := by
  induction l with
  | nil => rfl
  | cons b t ih =>
    have ht := ih fun c hc => h c (mem_cons_of_mem b hc)
    by_cases hb : keep b
    · rw [filter_cons_of_pos hb]
      exact firstVerdict_cons_congr fun _ => ht
    · rw [filter_cons_of_neg hb, ht]
      exact (firstVerdict_cons_neg (h b mem_cons_self hb) t).symm

/-- The rules after some others decide what those leave open. -/
lemma firstVerdict_append (l l' : List ρ) :
    firstVerdict applies verdict default (l ++ l') x =
      firstVerdict applies verdict (firstVerdict applies verdict default l' x) l x := by
  induction l with
  | nil => rfl
  | cons a t ih => rw [cons_append, firstVerdict, firstVerdict, ih]

/-- Rules that agree where they apply say what they agree on if one of them applies. -/
lemma firstVerdict_eq_iff {d : δ} {l : List ρ} (h : ∀ a ∈ l, applies a x → verdict a = d) :
    firstVerdict applies verdict default l x = d ↔ default = d ∨ ∃ a ∈ l, applies a x := by
  induction l with
  | nil => simp [firstVerdict]
  | cons a t ih =>
    have ht := ih fun b hb => h b (mem_cons_of_mem a hb)
    by_cases ha : applies a x
    · rw [firstVerdict_cons_pos ha]
      exact iff_of_true (h a mem_cons_self ha) (.inr ⟨a, mem_cons_self, ha⟩)
    · rw [firstVerdict_cons_neg ha, ht]
      simp [ha]

end FirstVerdict

section DropCovered

variable {covers : ρ → ρ → Bool}

@[simp]
lemma dropCovered_nil : dropCovered covers [] = [] := by
  rw [dropCovered]

@[simp]
lemma dropCovered_cons (a : ρ) (t : List ρ) :
    dropCovered covers (a :: t) = a :: dropCovered covers (uncovered covers a t) := by
  rw [dropCovered]

/-- The rules that a rule does not cover are some of the rules. -/
lemma mem_uncovered {a b : ρ} {t : List ρ} : b ∈ uncovered covers a t ↔ b ∈ t ∧ ¬covers a b := by
  rw [uncovered, mem_filter, Bool.not_eq_true', Bool.not_eq_true]

/-- Covered rules are dropped and the others keep their order. -/
lemma dropCovered_sublist (l : List ρ) : (dropCovered covers l).Sublist l := by
  induction l using dropCovered.induct covers with
  | case1 =>
    rw [dropCovered_nil, sublist_nil]
  | case2 a t ih =>
    rw [dropCovered_cons]
    exact (ih.trans filter_sublist).cons_cons a

/-- No rule that is left covers a later one. -/
lemma pairwise_dropCovered (l : List ρ) :
    (dropCovered covers l).Pairwise fun a b => ¬covers a b := by
  induction l using dropCovered.induct covers with
  | case1 => simp
  | case2 a t ih =>
    rw [dropCovered_cons]
    refine pairwise_cons.mpr ⟨fun b hb => ?_, ih⟩
    exact (mem_uncovered.mp ((dropCovered_sublist _).subset hb)).2

/-- Where no rule covers a later one, nothing is dropped. -/
lemma dropCovered_eq_self {l : List ρ} (h : l.Pairwise fun a b => ¬covers a b) :
    dropCovered covers l = l := by
  induction l with
  | nil => exact dropCovered_nil
  | cons a t ih =>
    obtain ⟨ha, ht⟩ := pairwise_cons.mp h
    have huncovered : uncovered covers a t = t := by
      refine filter_eq_self.mpr fun b hb => ?_
      simpa using ha b hb
    rw [dropCovered_cons, huncovered, ih ht]

/-- **Rules that an earlier one covers are idle.** -/
theorem firstVerdict_dropCovered {applies : ρ → χ → Bool} {verdict : ρ → δ} {default : δ} {x : χ}
    (h : ∀ {a b}, covers a b → applies b x → applies a x) (l : List ρ) :
    firstVerdict applies verdict default (dropCovered covers l) x =
      firstVerdict applies verdict default l x := by
  induction l using dropCovered.induct covers with
  | case1 => rw [dropCovered_nil]
  | case2 a t ih =>
    rw [dropCovered_cons]
    refine firstVerdict_cons_congr fun ha => ?_
    rw [ih, uncovered]
    refine firstVerdict_filter fun b _ hb happlies => ha ?_
    apply h _ happlies
    simpa using hb

end DropCovered

section DropShadowed

variable [DecidableEq δ] {verdict : ρ → δ} {covers meets : ρ → ρ → Bool} {applies : ρ → χ → Bool}
  {t : List ρ}

/-- A rule with another verdict ends the scan if it meets the rule. -/
lemma shadowed_cons_of_ne {a b : ρ} (h : verdict a ≠ verdict b) (t : List ρ) :
    shadowed verdict covers meets a (b :: t) ↔
      ¬meets a b ∧ shadowed verdict covers meets a t := by
  rw [shadowed, if_pos h]
  cases meets a b <;> simp

/-- A rule with the same verdict ends the scan if it covers the rule. -/
lemma shadowed_cons_of_eq {a b : ρ} (h : verdict a = verdict b) (t : List ρ) :
    shadowed verdict covers meets a (b :: t) ↔
      covers b a ∨ shadowed verdict covers meets a t := by
  rw [shadowed, if_neg (not_not.mpr h)]
  cases covers b a <;> simp

/-- Shadowed rules are dropped and the others keep their order. -/
lemma dropShadowed_sublist (l : List ρ) : (dropShadowed verdict covers meets l).Sublist l := by
  induction l with
  | nil => exact Sublist.slnil
  | cons a t ih =>
    rw [dropShadowed]
    split
    · exact ih.cons a
    · exact ih.cons_cons a

variable (h : Covering applies covers meets)

include h

/-- Where a shadowed rule applies, the rules after it say what it says. -/
lemma firstVerdict_of_shadowed {default : δ} {a : ρ} {x : χ} (ha : applies a x)
    (hshadowed : shadowed verdict covers meets a t) :
    firstVerdict applies verdict default t x = verdict a := by
  induction t with
  | nil => cases hshadowed
  | cons b t ih =>
    by_cases hverdict : verdict a = verdict b
    · by_cases hb : applies b x
      · rw [firstVerdict_cons_pos hb, hverdict]
      · rw [firstVerdict_cons_neg hb]
        apply ih
        apply ((shadowed_cons_of_eq hverdict t).mp hshadowed).resolve_left
        exact fun hcovers => hb (h.applies_of_covers hcovers ha)
    · obtain ⟨hmeets, ht⟩ := (shadowed_cons_of_ne hverdict t).mp hshadowed
      have hb : ¬applies b x := fun hb => hmeets (h.meets_of_applies ha hb)
      rw [firstVerdict_cons_neg hb]
      exact ih ht

/-- **Shadowed rules are idle.** -/
theorem firstVerdict_dropShadowed {default : δ} (l : List ρ) (x : χ) :
    firstVerdict applies verdict default (dropShadowed verdict covers meets l) x =
      firstVerdict applies verdict default l x := by
  induction l with
  | nil => rfl
  | cons a t ih =>
    by_cases hshadowed : shadowed verdict covers meets a t
    · rw [dropShadowed, if_pos hshadowed, ih]
      by_cases ha : applies a x
      · rw [firstVerdict_cons_pos ha]
        exact firstVerdict_of_shadowed h ha hshadowed
      · rw [firstVerdict_cons_neg ha]
    · rw [dropShadowed, if_neg hshadowed]
      exact firstVerdict_cons_congr fun _ => ih

/-- Of two rules that meet and disagree, not both are shadowed by the same rules: the first of the
two rules that cover them would meet the other one. -/
lemma not_shadowed_of_meets {a b : ρ} (hverdict : verdict a ≠ verdict b) (hmeets : meets a b)
    (ha : shadowed verdict covers meets a t) : ¬shadowed verdict covers meets b t := by
  induction t with
  | nil => cases ha
  | cons c t ih =>
    intro hb
    by_cases hca : verdict a = verdict c
    · have hcb : verdict b ≠ verdict c := fun hcb => hverdict (hca.trans hcb.symm)
      obtain ⟨hbc, hbt⟩ := (shadowed_cons_of_ne hcb t).mp hb
      rcases (shadowed_cons_of_eq hca t).mp ha with hcovers | hat
      · exact hbc (h.meets_of_covers hcovers (h.meets_symm hmeets))
      · exact ih hat hbt
    · obtain ⟨hac, hat⟩ := (shadowed_cons_of_ne hca t).mp ha
      by_cases hcb : verdict b = verdict c
      · rcases (shadowed_cons_of_eq hcb t).mp hb with hcovers | hbt
        · exact hac (h.meets_of_covers hcovers hmeets)
        · exact ih hat hbt
      · exact ih hat ((shadowed_cons_of_ne hcb t).mp hb).2

/-- A rule that is shadowed by what is left of some rules is shadowed by the rules. -/
lemma shadowed_of_dropShadowed {a : ρ}
    (ha : shadowed verdict covers meets a (dropShadowed verdict covers meets t)) :
    shadowed verdict covers meets a t := by
  induction t with
  | nil => exact ha
  | cons b t ih =>
    by_cases hb : shadowed verdict covers meets b t
    · rw [dropShadowed, if_pos hb] at ha
      by_cases hverdict : verdict a = verdict b
      · exact (shadowed_cons_of_eq hverdict t).mpr (.inr (ih ha))
      · refine (shadowed_cons_of_ne hverdict t).mpr ⟨fun hmeets => ?_, ih ha⟩
        exact not_shadowed_of_meets h hverdict hmeets (ih ha) hb
    · rw [dropShadowed, if_neg hb] at ha
      by_cases hverdict : verdict a = verdict b
      · apply (shadowed_cons_of_eq hverdict t).mpr
        exact ((shadowed_cons_of_eq hverdict _).mp ha).imp_right ih
      · apply (shadowed_cons_of_ne hverdict t).mpr
        exact ((shadowed_cons_of_ne hverdict _).mp ha).imp_right ih

/-- **Once the shadowed rules are dropped, no rule is shadowed.** -/
theorem dropShadowed_idem (l : List ρ) :
    dropShadowed verdict covers meets (dropShadowed verdict covers meets l) =
      dropShadowed verdict covers meets l := by
  induction l with
  | nil => rfl
  | cons a t ih =>
    by_cases ha : shadowed verdict covers meets a t
    · rw [dropShadowed, if_pos ha]
      exact ih
    · have ha' : ¬shadowed verdict covers meets a (dropShadowed verdict covers meets t) :=
        fun hshadowed => ha (shadowed_of_dropShadowed h hshadowed)
      rw [dropShadowed, if_neg ha, dropShadowed, if_neg ha', ih]

end DropShadowed

end Astoria.RuleList
