import Mathlib.Data.List.Nodup

/-!
# Doubly linked lists

A doubly linked list is given by the pointers of its nodes to the next and to the previous node, and
by pointers to its head and its tail.  Following the pointers from the head must yield the list, and
following those to the previous node from the tail must yield the list in reverse (`Links.IsList`);
other nodes do not point at anything.  Each operation changes a few pointers and has a rule for the
list that is represented afterwards; each rule rests on one about a single direction (`Seg`).
-/

namespace DoublyLinked

open List Option
open Function

variable {N : Type*}

/-- Following the pointers from `p` on yields a list, and ends at `q`. -/
def Seg (next : N → Option N) : Option N → List N → Option N → Prop
  | p, [], q => p = q
  | p, a :: l, q => p = some a ∧ Seg next (next a) l q

section Seg

variable {next : N → Option N} {p q r : Option N} {l l' l₁ l₂ : List N} {a b : N}

/-- Two parts of a list. -/
lemma seg_append : Seg next p (l₁ ++ l₂) q ↔ ∃ r, Seg next p l₁ r ∧ Seg next r l₂ q := by
  induction l₁ generalizing p with
  | nil => exact ⟨fun h => ⟨p, rfl, h⟩, fun ⟨r, hr, h⟩ => by rw [show p = r from hr]; exact h⟩
  | cons a l₁ ih =>
    constructor
    · rintro ⟨hp, h⟩
      obtain ⟨r, h₁, h₂⟩ := ih.mp h
      exact ⟨r, ⟨hp, h₁⟩, h₂⟩
    · rintro ⟨r, ⟨hp, h₁⟩, h₂⟩
      exact ⟨hp, ih.mpr ⟨r, h₁, h₂⟩⟩

/-- Where a list starts. -/
lemma Seg.eq_head (h : Seg next p l none) : p = l.head? := by
  cases l with
  | nil => exact h
  | cons a l => exact h.1

/-- The pointers determine the list. -/
lemma Seg.unique (h : Seg next p l none) (h' : Seg next p l' none) : l = l' := by
  induction l generalizing p l' with
  | nil =>
    rw [show p = none from h] at h'
    cases l' with
    | nil => rfl
    | cons b l' => exact absurd h'.1.symm (some_ne_none b)
  | cons a l ih =>
    cases l' with
    | nil => exact absurd (h.1.symm.trans h') (some_ne_none a)
    | cons b l' =>
      obtain rfl := Option.some.inj (h.1.symm.trans h'.1)
      rw [ih h.2 h'.2]

/-- What a node in the list points at. -/
lemma Seg.next_eq (h : Seg next p (l₁ ++ a :: l₂) none) : next a = l₂.head? := by
  obtain ⟨r, -, -, h₂⟩ := seg_append.mp h
  exact h₂.eq_head

variable [DecidableEq N]

/-- The pointers of other nodes do not matter. -/
lemma Seg.update (h : Seg next p l q) (ha : a ∉ l) (v : Option N) :
    Seg (Function.update next a v) p l q := by
  induction l generalizing p with
  | nil => exact h
  | cons b l ih =>
    rw [mem_cons, not_or] at ha
    refine ⟨h.1, ?_⟩
    rw [update_of_ne (Ne.symm ha.1)]
    exact ih h.2 ha.2

/-- A node in front. -/
lemma Seg.cons (h : Seg next p l none) (ha : a ∉ l) : Seg (Function.update next a p) (some a)
    (a :: l) none := by
  refine ⟨rfl, ?_⟩
  rw [update_self]
  exact h.update ha p

/-- The pointer of the last node is changed. -/
lemma Seg.redirect (h : Seg next p (l ++ [b]) q) (hb : b ∉ l) (r : Option N) :
    Seg (Function.update next b r) p (l ++ [b]) r := by
  obtain ⟨r', h₁, hr', -⟩ := seg_append.mp h
  refine seg_append.mpr ⟨r', h₁.update hb r, hr', ?_⟩
  exact update_self _ _ _

/-- A node at the end. -/
lemma Seg.snoc (h : Seg next p (l ++ [b]) none) (hl : (l ++ [b]).Nodup) (ha : a ∉ l ++ [b]) :
    Seg (Function.update (Function.update next a none) b (some a)) p ((l ++ [b]) ++ [a]) none := by
  have hb : b ∉ l := fun hb => (nodup_append.mp hl).2.2 b hb b mem_cons_self rfl
  have hne : a ≠ b := by
    rintro rfl
    exact ha (mem_append_right l mem_cons_self)
  refine seg_append.mpr ⟨some a, (h.update ha none).redirect hb (some a), rfl, ?_⟩
  rw [update_of_ne hne, update_self]
  rfl

/-- The first node is taken out. -/
lemma Seg.tail (h : Seg next p (a :: l) none) (hl : (a :: l).Nodup) :
    Seg (Function.update next a none) (next a) l none :=
  h.2.update (nodup_cons.mp hl).1 none

/-- A node behind another one is taken out. -/
lemma Seg.unlink (h : Seg next p ((l₁ ++ [b]) ++ a :: l₂) none)
    (hl : ((l₁ ++ [b]) ++ a :: l₂).Nodup) :
    Seg (Function.update (Function.update next b (next a)) a none) p ((l₁ ++ [b]) ++ l₂) none := by
  obtain ⟨hl₁, hl₂, hdisj⟩ := nodup_append.mp hl
  have hb : b ∉ l₁ := fun hb => (nodup_append.mp hl₁).2.2 b hb b mem_cons_self rfl
  have hbl : b ∉ l₂ := fun hb' => hdisj b (mem_append_right l₁ mem_cons_self) b
    (mem_cons_of_mem a hb') rfl
  have ha : a ∉ l₁ ++ [b] := fun ha => hdisj a ha a mem_cons_self rfl
  obtain ⟨r, h₁, -, h₂⟩ := seg_append.mp h
  refine seg_append.mpr ⟨next a, ?_, ?_⟩
  · exact (h₁.redirect hb (next a)).update ha none
  · exact (h₂.update hbl (next a)).update (nodup_cons.mp hl₂).1 none

end Seg

/-! ### The pointers of a list -/

/-- The pointers of a list. -/
@[ext] structure Links (N : Type*) where
  next : N → Option N
  prev : N → Option N
  /-- The first node. -/
  head : Option N
  /-- The last node. -/
  tail : Option N

/-- The pointers represent a list. -/
structure Links.IsList (L : Links N) (l : List N) : Prop where
  /-- No node is in it twice. -/
  nodup : l.Nodup
  forward : Seg L.next L.head l none
  backward : Seg L.prev L.tail l.reverse none
  /-- Other nodes do not point at anything. -/
  outside : ∀ a, a ∉ l → L.next a = none ∧ L.prev a = none

section IsList

variable {L : Links N} {l l₁ l₂ : List N} {a : N}

lemma Links.IsList.neighbours (h : L.IsList (l₁ ++ a :: l₂)) :
    L.next a = l₂.head? ∧ L.prev a = l₁.getLast? := by
  refine ⟨h.forward.next_eq, ?_⟩
  have hback := h.backward
  rw [reverse_append, reverse_cons, append_assoc, singleton_append] at hback
  rw [hback.next_eq, head?_reverse]

/-- There is one list that the pointers represent. -/
lemma Links.IsList.unique {l' : List N} (h : L.IsList l) (h' : L.IsList l') : l = l' :=
  h.forward.unique h'.forward

lemma Links.IsList.ends (h : L.IsList l) : L.head = l.head? ∧ L.tail = l.getLast? := by
  refine ⟨h.forward.eq_head, ?_⟩
  rw [h.backward.eq_head, head?_reverse]

/-- A node points at the next one, or is the last one. -/
lemma Links.IsList.next_or_tail (h : L.IsList l) (ha : a ∈ l) :
    L.next a ≠ none ∨ L.tail = some a := by
  obtain ⟨l₁, l₂, rfl⟩ := append_of_mem ha
  rw [h.neighbours.1, h.ends.2]
  cases l₂ with
  | nil => exact .inr getLast?_concat
  | cons b l₂ => exact .inl (some_ne_none b)

/-- A node points at the previous one, or is the first one. -/
lemma Links.IsList.prev_or_head (h : L.IsList l) (ha : a ∈ l) :
    L.prev a ≠ none ∨ L.head = some a := by
  obtain ⟨l₁, l₂, rfl⟩ := append_of_mem ha
  rw [h.neighbours.2, h.ends.1]
  cases l₁ with
  | nil => exact .inr rfl
  | cons b l₁ => exact .inl (by simp)

/-- The pointers tell which nodes are in the list. -/
lemma Links.IsList.mem_iff (h : L.IsList l) :
    a ∈ l ↔ L.prev a ≠ none ∨ L.next a ≠ none ∨ L.head = some a ∨ L.tail = some a := by
  constructor
  · intro ha
    rcases h.prev_or_head ha with hprev | hhead
    · exact .inl hprev
    · exact .inr (.inr (.inl hhead))
  · intro hpointer
    by_contra ha
    obtain ⟨hnext, hprev⟩ := h.outside a ha
    rcases hpointer with hne | hne | hhead | htail
    · exact hne hprev
    · exact hne hnext
    · rw [h.ends.1] at hhead
      exact ha (mem_of_head? hhead)
    · rw [h.ends.2] at htail
      exact ha (mem_of_getLast? htail)

/-- A node that is not in the list is neither its head nor its tail. -/
lemma Links.IsList.ne_ends (h : L.IsList l) (ha : a ∉ l) : L.head ≠ some a ∧ L.tail ≠ some a := by
  constructor
  · intro hhead
    exact ha (h.mem_iff.mpr (.inr (.inr (.inl hhead))))
  · intro htail
    exact ha (h.mem_iff.mpr (.inr (.inr (.inr htail))))

/-- A node does not point at itself. -/
lemma Links.IsList.ne_self (h : L.IsList (l₁ ++ a :: l₂)) :
    L.next a ≠ some a ∧ L.prev a ≠ some a := by
  obtain ⟨hnext, hprev⟩ := h.neighbours
  obtain ⟨-, hnodup, hdisj⟩ := nodup_append.mp h.nodup
  rw [hnext, hprev]
  constructor
  · intro hhead
    exact (nodup_cons.mp hnodup).1 (mem_of_head? hhead)
  · intro hlast
    exact hdisj a (mem_of_getLast? hlast) a mem_cons_self rfl

/-- The last node is the tail. -/
lemma Links.IsList.eq_nil_of_tail (h : L.IsList (l₁ ++ a :: l₂)) (htail : L.tail = some a) :
    l₂ = [] := by
  rw [h.ends.2] at htail
  rcases eq_nil_or_concat l₂ with hnil | ⟨k, b, rfl⟩
  · exact hnil
  · rw [concat_eq_append, ← cons_append, ← append_assoc, getLast?_concat] at htail
    have hmem : a ∈ k.concat b := by
      rw [concat_eq_append, ← Option.some.inj htail]
      exact mem_append_right k mem_cons_self
    exact absurd hmem (nodup_cons.mp (nodup_append.mp h.nodup).2.1).1

/-- The mirror image of a list. -/
def Links.mirror (L : Links N) : Links N := ⟨L.prev, L.next, L.tail, L.head⟩

/-- The mirror image represents the reverse. -/
lemma Links.IsList.mirror (h : L.IsList l) : L.mirror.IsList l.reverse := by
  refine ⟨nodup_reverse.mpr h.nodup, h.backward, ?_, fun c hc => ?_⟩
  · rw [reverse_reverse]
    exact h.forward
  · exact (h.outside c fun hmem => hc (mem_reverse.mpr hmem)).symm

end IsList

/-! ### Operations -/

section Operations

variable [DecidableEq N]

/-- Put a node in front. -/
def Links.pushFront (L : Links N) (a : N) : Links N :=
  match L.head with
  | some h =>
    { L with
      next := Function.update L.next a (some h)
      prev := Function.update (Function.update L.prev a none) h (some a)
      head := some a }
  | none => ⟨Function.update L.next a none, Function.update L.prev a none, some a, some a⟩

/-- Put a node at the end. -/
def Links.pushBack (L : Links N) (a : N) : Links N :=
  match L.tail with
  | some t =>
    { L with
      next := Function.update (Function.update L.next a none) t (some a)
      prev := Function.update L.prev a (some t)
      tail := some a }
  | none => ⟨Function.update L.next a none, Function.update L.prev a none, some a, some a⟩

/-- The next node, or the tail, points at the previous node instead. -/
def Links.unlinkNext (L : Links N) (a : N) : Links N :=
  match L.next a with
  | some b => { L with prev := Function.update L.prev b (L.prev a) }
  | none => { L with tail := L.prev a }

/-- The previous node, or the head, points at the next node instead. -/
def Links.unlinkPrev (L : Links N) (a : N) : Links N :=
  match L.prev a with
  | some b => { L with next := Function.update L.next b (L.next a) }
  | none => { L with head := L.next a }

/-- A node does not point at anything. -/
def Links.clear (L : Links N) (a : N) : Links N :=
  { L with next := Function.update L.next a none, prev := Function.update L.prev a none }

/-- Take a node out. -/
def Links.remove (L : Links N) (a : N) : Links N := ((L.unlinkNext a).unlinkPrev a).clear a

variable {L : Links N} {l l₁ l₂ : List N} {a : N}

/-- **A node is put in front.** -/
theorem Links.IsList.pushFront (h : L.IsList l) (ha : a ∉ l) : (L.pushFront a).IsList (a :: l) := by
  have hnodup : (a :: l).Nodup := nodup_cons.mpr ⟨ha, h.nodup⟩
  have hforward := h.forward.cons ha
  obtain ⟨hhead, htail⟩ := h.ends
  unfold Links.pushFront
  cases l with
  | nil =>
    rw [show L.head = none from hhead] at hforward ⊢
    refine ⟨hnodup, hforward, ⟨rfl, update_self _ _ _⟩, fun c hc => ?_⟩
    have hne : c ≠ a := fun heq => hc (heq ▸ mem_cons_self)
    dsimp only
    rw [update_of_ne hne, update_of_ne hne]
    exact h.outside c not_mem_nil
  | cons b l =>
    have hback := h.backward
    have hrev := nodup_reverse.mpr h.nodup
    have ha' : a ∉ (b :: l).reverse := fun ha' => ha (mem_reverse.mp ha')
    rw [reverse_cons] at hback hrev ha'
    rw [show L.head = some b from hhead] at hforward ⊢
    refine ⟨hnodup, hforward, ?_, fun c hc => ?_⟩
    · rw [reverse_cons, reverse_cons]
      exact hback.snoc hrev ha'
    · rw [mem_cons, not_or] at hc
      have hne : c ≠ b := fun heq => hc.2 (heq ▸ mem_cons_self)
      dsimp only
      rw [update_of_ne hc.1, update_of_ne hne, update_of_ne hc.1]
      exact h.outside c hc.2

/-- Putting a node at the end is putting it in front of the mirror image. -/
lemma Links.mirror_pushBack (L : Links N) (a : N) :
    L.pushBack a = (L.mirror.pushFront a).mirror := by
  unfold Links.pushBack Links.pushFront Links.mirror
  dsimp only
  cases L.tail with
  | none => rfl
  | some t => rfl

/-- **A node is put at the end.** -/
theorem Links.IsList.pushBack (h : L.IsList l) (ha : a ∉ l) : (L.pushBack a).IsList (l ++ [a]) := by
  have hmirror := (h.mirror.pushFront fun ha' => ha (mem_reverse.mp ha')).mirror
  rw [reverse_cons, reverse_reverse, ← Links.mirror_pushBack] at hmirror
  exact hmirror

/-- The pointers to the next nodes after a node has been taken out. -/
lemma Links.IsList.remove_forward (h : L.IsList (l₁ ++ a :: l₂)) :
    Seg (L.remove a).next (L.remove a).head (l₁ ++ l₂) none := by
  obtain ⟨hnext, hprev⟩ := h.neighbours
  have hprev' : (L.unlinkNext a).prev a = l₁.getLast? := by
    unfold Links.unlinkNext
    rw [hnext]
    cases l₂ with
    | nil => exact hprev
    | cons b l₂ =>
      have hne : a ≠ b := by
        rintro rfl
        have hnodup := (nodup_append.mp h.nodup).2.1
        exact (nodup_cons.mp hnodup).1 mem_cons_self
      dsimp only [head?_cons]
      rw [update_of_ne hne]
      exact hprev
  have hsame : (L.unlinkNext a).next = L.next ∧ (L.unlinkNext a).head = L.head := by
    unfold Links.unlinkNext
    cases L.next a with
    | none => exact ⟨rfl, rfl⟩
    | some b => exact ⟨rfl, rfl⟩
  have hforward := h.forward
  unfold Links.remove Links.clear Links.unlinkPrev
  rcases eq_nil_or_concat l₁ with rfl | ⟨k, b, rfl⟩
  · rw [show (L.unlinkNext a).prev a = none from hprev']
    dsimp only
    rw [hsame.1]
    exact hforward.tail h.nodup
  · rw [concat_eq_append, getLast?_concat] at hprev'
    rw [hprev']
    dsimp only
    rw [hsame.1, hsame.2, concat_eq_append]
    rw [concat_eq_append] at hforward
    have hnodup := h.nodup
    rw [concat_eq_append] at hnodup
    exact hforward.unlink hnodup

/-- Taking a node out of the mirror image. -/
lemma Links.mirror_remove (hnext : L.next a ≠ some a) (hprev : L.prev a ≠ some a) :
    L.mirror.remove a = (L.remove a).mirror := by
  unfold Links.remove Links.clear Links.unlinkPrev Links.unlinkNext Links.mirror
  dsimp only
  cases hx : L.next a with
  | none =>
    cases hy : L.prev a with
    | none => simp [hx, hy]
    | some c =>
      have hc : a ≠ c := fun heq => hprev (heq ▸ hy)
      simp [hx, hy, update_of_ne hc]
  | some b =>
    have hb : a ≠ b := fun heq => hnext (heq ▸ hx)
    cases hy : L.prev a with
    | none => simp [hx, hy, update_of_ne hb]
    | some c =>
      have hc : a ≠ c := fun heq => hprev (heq ▸ hy)
      simp [hx, hy, update_of_ne hb, update_of_ne hc]

/-- Unlinking a node on one side leaves its own pointer to the other side. -/
lemma Links.unlinkNext_prev (hself : L.next a ≠ some a) :
    (L.unlinkNext a).next = L.next ∧ (L.unlinkNext a).prev a = L.prev a := by
  unfold Links.unlinkNext
  cases hx : L.next a with
  | none => exact ⟨rfl, rfl⟩
  | some b =>
    have hb : a ≠ b := fun heq => hself (heq ▸ hx)
    exact ⟨rfl, update_of_ne hb _ _⟩

lemma Links.unlinkPrev_next (hself : L.prev a ≠ some a) :
    (L.unlinkPrev a).prev = L.prev ∧ (L.unlinkPrev a).next a = L.next a := by
  unfold Links.unlinkPrev
  cases hx : L.prev a with
  | none => exact ⟨rfl, rfl⟩
  | some b =>
    have hb : a ≠ b := fun heq => hself (heq ▸ hx)
    exact ⟨rfl, update_of_ne hb _ _⟩

/-- Unlinking a node that is not the last one leaves the tail. -/
lemma Links.unlink_tail (hself : L.prev a ≠ some a) (hnext : L.next a ≠ none) :
    ((L.unlinkPrev a).unlinkNext a).tail = L.tail := by
  obtain ⟨b, hb⟩ := ne_none_iff_exists'.mp hnext
  have hnext' := (Links.unlinkPrev_next hself).2.trans hb
  have htail : (L.unlinkPrev a).tail = L.tail := by
    unfold Links.unlinkPrev
    cases L.prev a with
    | none => rfl
    | some c => rfl
  unfold Links.unlinkNext
  rw [hnext']
  exact htail

/-- The pointer of another node than the previous one. -/
lemma Links.remove_next_of_ne {c : N} (hself : L.next a ≠ some a) (hc : c ≠ a)
    (hprev : L.prev a ≠ some c) : (L.remove a).next c = L.next c := by
  have hsame := Links.unlinkNext_prev hself
  unfold Links.remove Links.clear Links.unlinkPrev
  dsimp only
  rw [update_of_ne hc, hsame.2]
  cases hy : L.prev a with
  | none =>
    dsimp only
    rw [hsame.1]
  | some b =>
    have hb : c ≠ b := fun heq => hprev (heq ▸ hy)
    dsimp only
    rw [update_of_ne hb, hsame.1]

/-- **A node is taken out.** -/
theorem Links.IsList.remove (h : L.IsList (l₁ ++ a :: l₂)) : (L.remove a).IsList (l₁ ++ l₂) := by
  obtain ⟨hnext, hprev⟩ := h.neighbours
  obtain ⟨hself, hself'⟩ := h.ne_self
  have hmirror := h.mirror
  rw [reverse_append, reverse_cons, append_assoc, singleton_append] at hmirror
  have hback := hmirror.remove_forward
  rw [Links.mirror_remove hself hself', ← reverse_append] at hback
  have hnodup : (l₁ ++ l₂).Nodup := h.nodup.sublist
    ((sublist_cons_self a l₂).append_left l₁)
  refine ⟨hnodup, h.remove_forward, hback, fun c hc => ?_⟩
  rw [mem_append, not_or] at hc
  by_cases heq : c = a
  · subst heq
    exact ⟨update_self _ _ _, update_self _ _ _⟩
  · have hout : c ∉ l₁ ++ a :: l₂ := by
      intro hmem
      rcases mem_append.mp hmem with hmem | hmem
      · exact hc.1 hmem
      · rcases mem_cons.mp hmem with hmem | hmem
        · exact heq hmem
        · exact hc.2 hmem
    have hpc : L.prev a ≠ some c := by
      rw [hprev]
      exact fun hlast => hc.1 (mem_of_getLast? hlast)
    have hnc : L.next a ≠ some c := by
      rw [hnext]
      exact fun hhead => hc.2 (mem_of_head? hhead)
    obtain ⟨hold, hold'⟩ := h.outside c hout
    have hback' := Links.remove_next_of_ne (L := L.mirror) hself' heq hnc
    rw [Links.mirror_remove hself hself'] at hback'
    exact ⟨(Links.remove_next_of_ne hself heq hpc).trans hold, hback'.trans hold'⟩

/-- Unlinking a node on both sides and putting it at the end. -/
lemma Links.pushBack_unlink (hself : L.next a ≠ some a) (hself' : L.prev a ≠ some a) :
    ((L.unlinkPrev a).unlinkNext a).pushBack a = (L.remove a).pushBack a := by
  unfold Links.remove Links.clear Links.unlinkPrev Links.unlinkNext Links.pushBack
  cases hx : L.next a with
  | none =>
    cases hy : L.prev a with
    | none => simp [hx, hy]
    | some c =>
      have hc : a ≠ c := fun heq => hself' (heq ▸ hy)
      simp [hx, hy, update_of_ne hc]
  | some b =>
    have hb : a ≠ b := fun heq => hself (heq ▸ hx)
    cases hy : L.prev a with
    | none =>
      cases L.tail with
      | none => simp [hx, hy, update_of_ne hb]
      | some t => simp [hx, hy, update_of_ne hb]
    | some c =>
      have hc : a ≠ c := fun heq => hself' (heq ▸ hy)
      cases L.tail with
      | none => simp [hx, hy, update_of_ne hb, update_of_ne hc]
      | some t => simp [hx, hy, update_of_ne hb, update_of_ne hc]

end Operations

end DoublyLinked
