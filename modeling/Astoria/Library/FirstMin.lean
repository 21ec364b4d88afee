import Mathlib

/-!
# The first smallest element

`scan` goes through a list and keeps the first element whose key is smaller than all keys before it,
starting from an element that may stand for nothing.  It finds the first smallest element
(`IsFirstMin`) if there is a key below that of the element it starts from (`scan_spec`).
-/

namespace FirstMin

open List

variable {α κ : Type*} [LinearOrder κ] {key : α → κ} {l : List α} {a b : α}

/-- Keep the first element with the smallest key, starting from a key and an element. -/
def scan (key : α → κ) (acc : κ × α) (l : List α) : κ × α :=
  l.foldl (fun acc a => if key a < acc.1 then (key a, a) else acc) acc

/-- The first one of the elements with the smallest key. -/
def IsFirstMin (key : α → κ) (l : List α) (a : α) : Prop :=
  ∃ before after, l = before ++ a :: after ∧ (∀ b ∈ before, key a < key b) ∧
    ∀ b ∈ after, key a ≤ key b

/-- It is an element of the list. -/
lemma IsFirstMin.mem (h : IsFirstMin key l a) : a ∈ l := by
  obtain ⟨before, after, rfl, -, -⟩ := h
  exact mem_append_right _ mem_cons_self

lemma IsFirstMin.key_le (h : IsFirstMin key l a) (hb : b ∈ l) : key a ≤ key b := by
  obtain ⟨before, after, rfl, hbefore, hafter⟩ := h
  rcases mem_append.mp hb with hb | hb
  · exact (hbefore b hb).le
  · rcases mem_cons.mp hb with rfl | hb
    · exact le_rfl
    · exact hafter b hb

/-- There is only one first smallest element. -/
lemma IsFirstMin.unique (ha : IsFirstMin key l a) (hb : IsFirstMin key l b) : a = b := by
  obtain ⟨before, after, hl, hbefore, -⟩ := id ha
  obtain ⟨before', after', hl', hbefore', -⟩ := id hb
  have hkey : key a = key b := le_antisymm (ha.key_le hb.mem) (hb.key_le ha.mem)
  rcases append_eq_append_iff.mp (hl.symm.trans hl') with ⟨mid, rfl, hmid⟩ | ⟨mid, rfl, hmid⟩
  · cases mid with
    | nil => exact (List.cons.inj hmid).1
    | cons c mid =>
      obtain ⟨rfl, -⟩ := List.cons.inj hmid
      exact absurd hkey (hbefore' a (mem_append_right _ mem_cons_self)).ne'
  · cases mid with
    | nil => exact (List.cons.inj hmid).1.symm
    | cons c mid =>
      obtain ⟨rfl, -⟩ := List.cons.inj hmid
      exact absurd hkey (hbefore b (mem_append_right _ mem_cons_self)).ne

/-- The first element is the first smallest one if all keys are the same. -/
lemma IsFirstMin.head?_eq (h : IsFirstMin key l a) (hall : ∀ b ∈ l, key b = key a) :
    l.head? = some a := by
  obtain ⟨before, after, rfl, hbefore, -⟩ := h
  cases before with
  | nil => rfl
  | cons b before =>
    have hlt := hbefore b mem_cons_self
    rw [hall b (mem_append_left _ mem_cons_self)] at hlt
    exact absurd hlt (lt_irrefl _)

/-- The first element is the first smallest one if no key is smaller than its own. -/
lemma isFirstMin_cons (h : ∀ b ∈ l, key a ≤ key b) : IsFirstMin key (a :: l) a :=
  ⟨[], l, rfl, nofun, h⟩

/-- An element more in front, with a larger key. -/
lemma IsFirstMin.cons (h : IsFirstMin key l a) (hb : key a < key b) :
    IsFirstMin key (b :: l) a := by
  obtain ⟨before, after, rfl, hbefore, hafter⟩ := h
  exact ⟨b :: before, after, rfl, forall_mem_cons.mpr ⟨hb, hbefore⟩, hafter⟩

/-- **What a scan finds**: nothing if no key is below the one it starts from, and otherwise the
first smallest element. -/
theorem scan_spec (key : α → κ) (acc : κ × α) (l : List α) :
    (scan key acc l = acc ∧ ∀ a ∈ l, acc.1 ≤ key a) ∨
      ∃ a, scan key acc l = (key a, a) ∧ key a < acc.1 ∧ IsFirstMin key l a := by
  induction l generalizing acc with
  | nil => exact .inl ⟨rfl, nofun⟩
  | cons b l ih =>
    rw [scan, foldl_cons, ← scan]
    split
    · next hb =>
      rcases ih (key b, b) with ⟨heq, hall⟩ | ⟨a, heq, ha, hmin⟩
      · exact .inr ⟨b, heq, hb, isFirstMin_cons hall⟩
      · exact .inr ⟨a, heq, ha.trans hb, hmin.cons ha⟩
    · next hb =>
      rcases ih acc with ⟨heq, hall⟩ | ⟨a, heq, ha, hmin⟩
      · exact .inl ⟨heq, forall_mem_cons.mpr ⟨le_of_not_gt hb, hall⟩⟩
      · exact .inr ⟨a, heq, ha, hmin.cons (lt_of_lt_of_le ha (le_of_not_gt hb))⟩

end FirstMin
