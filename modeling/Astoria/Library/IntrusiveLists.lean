import Mathlib.Data.List.Nodup

/-!
# Intrusive lists

Many lists share their nodes' fields.  Each list has a head, and each node points at the next one
and back at the pointer that points at it.  So a node is taken out without knowing in which list it
is; but if it is in none, the pointers of other lists are destroyed.

`Heap.Represents` says which lists the pointers represent, and each operation has a rule for it.
-/

namespace Astoria.Intrusive

open List
open Function

variable {K N : Type*}

/-- A pointer that can point at a node: the head of a list, or the field of a node. -/
inductive Ref (K N : Type*)
  | head (k : K)
  | field (a : N)
  deriving DecidableEq

structure Heap (K N : Type*) where
  /-- What the pointers point at. -/
  target : Ref K N → Option N
  /-- The pointer that points at a node, if it was ever in a list. -/
  back : N → Option (Ref K N)

section Operations

variable [DecidableEq K] [DecidableEq N]

/-- A list is made empty. -/
def Heap.clear (h : Heap K N) (k : K) : Heap K N :=
  { h with target := update h.target (.head k) none }

/-- The next node, if there is one, points back at a pointer. -/
def Heap.redirect (h : Heap K N) (next : Option N) (r : Ref K N) : Heap K N :=
  match next with
  | none => h
  | some b => { h with back := update h.back b (some r) }

/-- A node is put in front of a list. -/
def Heap.insertHead (h : Heap K N) (k : K) (a : N) : Heap K N :=
  let next := h.target (.head k)
  let h := { h with target := update h.target (.field a) next }
  let h := h.redirect next (.field a)
  { target := update h.target (.head k) (some a), back := update h.back a (some (.head k)) }

/-- A node is taken out of its list.  It must have been in one. -/
def Heap.remove (h : Heap K N) (a : N) : Option (Heap K N) :=
  (h.back a).map fun r =>
    let next := h.target (.field a)
    let h := h.redirect next r
    { h with target := update h.target r next }

end Operations

/-- Following the pointers from `r` on yields a list, and the nodes point back. -/
def Linked (h : Heap K N) : Ref K N → List N → Prop
  | r, [] => h.target r = none
  | r, a :: l => h.target r = some a ∧ h.back a = some r ∧ Linked h (.field a) l

/-- The pointers represent lists. -/
structure Heap.Represents (h : Heap K N) (lists : K → List N) : Prop where
  linked : ∀ k, Linked h (.head k) (lists k)
  nodup : ∀ k, (lists k).Nodup
  disjoint : ∀ {k k' a}, a ∈ lists k → a ∈ lists k' → k = k'

variable {h h' : Heap K N} {r : Ref K N} {l l₁ l₂ : List N} {a : N} {k : K} {lists : K → List N}

/-- Only some of the pointers matter. -/
lemma Linked.congr (hl : Linked h r l) (hr : h'.target r = h.target r)
    (hfield : ∀ b ∈ l, h'.target (.field b) = h.target (.field b))
    (hback : ∀ b ∈ l, h'.back b = h.back b) :
    Linked h' r l := by
  induction l generalizing r with
  | nil => exact hr.trans hl
  | cons b l ih =>
    obtain ⟨htarget, hb, hrest⟩ := hl
    obtain ⟨hfb, hfield⟩ := forall_mem_cons.mp hfield
    obtain ⟨hbb, hback⟩ := forall_mem_cons.mp hback
    exact ⟨hr.trans htarget, hbb.trans hb, ih hrest hfb hfield hback⟩

/-- What the first pointer points at. -/
lemma Linked.target_eq (hl : Linked h r l) : h.target r = l.head? := by
  cases l with
  | nil => exact hl
  | cons a l => exact hl.1

/-- A node in the list points back at the field of a node in the list, or at the first pointer. -/
lemma Linked.back_mem (hl : Linked h r l) (ha : a ∈ l) :
    h.back a = some r ∨ ∃ b ∈ l, h.back a = some (.field b) := by
  induction l generalizing r with
  | nil => cases ha
  | cons b l ih =>
    obtain ⟨-, hb, hrest⟩ := hl
    rcases mem_cons.mp ha with rfl | ha
    · exact .inl hb
    · rcases ih hrest ha with hback | ⟨c, hc, hback⟩
      · exact .inr ⟨b, mem_cons_self, hback⟩
      · exact .inr ⟨c, mem_cons_of_mem b hc, hback⟩

/-- What a node in the list points at, and that the next one points back at it. -/
lemma Linked.field_eq (hl : Linked h r (l₁ ++ a :: l₂)) : Linked h (.field a) l₂ := by
  induction l₁ generalizing r with
  | nil => exact hl.2.2
  | cons b l₁ ih => exact ih hl.2.2

variable [DecidableEq N]

/-- Redirecting changes what one node points back at. -/
lemma Heap.redirect_back (h : Heap K N) (next : Option N) (r : Ref K N) (b : N) :
    (h.redirect next r).back b = if next = some b then some r else h.back b := by
  cases next with
  | none => rfl
  | some c =>
    rw [Heap.redirect]
    dsimp only
    by_cases hc : c = b
    · rw [hc, update_self, if_pos rfl]
    · rw [update_of_ne (Ne.symm hc), if_neg fun heq => hc (Option.some.inj heq)]

@[simp] lemma Heap.redirect_target (h : Heap K N) (next : Option N) (r : Ref K N) :
    (h.redirect next r).target = h.target := by
  cases next <;> rfl

variable [DecidableEq K]

/-- **What taking out a node changes**: the pointer at the node points at the next one, and the next
one points back at it. -/
lemma Heap.exists_remove (hback : h.back a = some r) :
    ∃ h', h.remove a = some h' ∧
      (∀ p, h'.target p = if p = r then h.target (.field a) else h.target p) ∧
      ∀ b, h'.back b = if h.target (.field a) = some b then some r else h.back b := by
  rw [Heap.remove, hback]
  refine ⟨_, rfl, fun p => ?_, fun b => h.redirect_back _ r b⟩
  dsimp only
  rw [h.redirect_target]
  by_cases hp : p = r
  · rw [if_pos hp, hp, update_self]
  · rw [if_neg hp, update_of_ne hp]

/-- **Taking a node out of a list.** -/
lemma Linked.remove (hl : Linked h r (l₁ ++ a :: l₂)) (hnodup : (l₁ ++ a :: l₂).Nodup)
    (hr : ∀ b ∈ l₁ ++ a :: l₂, r ≠ .field b) (hrem : h.remove a = some h') :
    Linked h' r (l₁ ++ l₂) := by
  induction l₁ generalizing r with
  | nil =>
    obtain ⟨htarget, hback, hrest⟩ := hl
    obtain ⟨h'', hrem', htargets, hbacks⟩ := Heap.exists_remove hback
    obtain rfl := Option.some.inj (hrem.symm.trans hrem')
    obtain ⟨ha, hnodup⟩ := nodup_cons.mp hnodup
    obtain ⟨hra, hr⟩ := forall_mem_cons.mp hr
    have hnext := hrest.target_eq
    match l₂, hrest, hnodup, hr, hnext with
    | [], hrest, _, _, hnext => exact (htargets r).trans ((if_pos rfl).trans hnext)
    | b :: l₂, hrest, hnodup, hr, hnext =>
      obtain ⟨-, -, hrest⟩ := hrest
      refine ⟨(htargets r).trans ((if_pos rfl).trans hnext), (hbacks b).trans (if_pos hnext), ?_⟩
      obtain ⟨hb, -⟩ := nodup_cons.mp hnodup
      obtain ⟨hrb, hr⟩ := forall_mem_cons.mp hr
      refine hrest.congr ((htargets _).trans (if_neg (Ne.symm hrb))) (fun c hc => ?_) fun c hc => ?_
      · exact (htargets _).trans (if_neg (Ne.symm (hr c hc)))
      · refine (hbacks c).trans (if_neg fun heq => hb ?_)
        rw [hnext] at heq
        exact (Option.some.inj heq : b = c) ▸ hc
  | cons c l₁ ih =>
    obtain ⟨htarget, hback, hrest⟩ := hl
    obtain ⟨hc, hnodup⟩ := nodup_cons.mp hnodup
    have hmem : a ∈ l₁ ++ a :: l₂ := mem_append_right l₁ mem_cons_self
    have hrest' := ih hrest hnodup (fun b hb heq => hc (Ref.field.inj heq ▸ hb)) 
    obtain ⟨p, hback_a, hp⟩ : ∃ p, h.back a = some p ∧ r ≠ p := by
      rcases hrest.back_mem hmem with hback | ⟨b, hb, hback⟩
      · exact ⟨_, hback, hr c mem_cons_self⟩
      · exact ⟨_, hback, hr b (mem_cons_of_mem c hb)⟩
    obtain ⟨h'', hrem', htargets, hbacks⟩ := Heap.exists_remove hback_a
    obtain rfl := Option.some.inj (hrem.symm.trans hrem')
    refine ⟨(htargets r).trans ((if_neg hp).trans htarget),
      (hbacks c).trans ((if_neg fun heq => ?_).trans hback),
      hrest'⟩
    -- the next node is behind `a`, so it is not `c`
    rw [hrest.field_eq.target_eq] at heq
    exact hc (mem_append_right l₁ (mem_cons_of_mem a (mem_of_mem_head? heq)))

/-- **The rule for taking out a node.** -/
theorem Heap.Represents.remove (hh : h.Represents lists) (ha : a ∈ lists k) :
    ∃ h', h.remove a = some h' ∧ h'.Represents (update lists k ((lists k).erase a)) := by
  obtain ⟨l₁, l₂, hsplit⟩ := append_of_mem ha
  have hlinked := hh.linked k
  have hnodup := hh.nodup k
  rw [hsplit] at hlinked hnodup
  have hmem : a ∈ l₁ ++ a :: l₂ := mem_append_right l₁ mem_cons_self
  have herase : (lists k).erase a = l₁ ++ l₂ := by
    have ha₁ : a ∉ l₁ := fun ha₁ => (nodup_append.mp hnodup).2.2 a ha₁ a mem_cons_self rfl
    rw [hsplit, erase_append_right _ ha₁, erase_cons_head]
  obtain ⟨p, hback, hp⟩ : ∃ p, h.back a = some p ∧ (p = .head k ∨ ∃ b ∈ lists k, p = .field b) := by
    rcases hlinked.back_mem hmem with hback | ⟨b, hb, hback⟩
    · exact ⟨_, hback, .inl rfl⟩
    · exact ⟨_, hback, .inr ⟨b, hsplit ▸ hb, rfl⟩⟩
  obtain ⟨h', hrem, htargets, hbacks⟩ := Heap.exists_remove hback
  have hnext := hlinked.field_eq.target_eq
  refine ⟨h', hrem, fun k' => ?_, fun k' => ?_, fun {k₁ k₂ b} h₁ h₂ => ?_⟩
  · by_cases hk : k' = k
    · rw [hk, update_self, herase]
      exact hlinked.remove hnodup (fun b _ => nofun) hrem
    · rw [update_of_ne hk]
      have hother {b : N} (hb : b ∈ lists k') : b ∉ lists k := fun hb' => hk (hh.disjoint hb hb')
      refine (hh.linked k').congr ((htargets _).trans (if_neg ?_))
        (fun b hb => (htargets _).trans (if_neg ?_))
        fun b hb => (hbacks b).trans (if_neg fun heq => ?_)
      · rcases hp with rfl | ⟨c, -, rfl⟩
        · exact fun heq => hk (Ref.head.inj heq)
        · exact nofun
      · rcases hp with rfl | ⟨c, hc, rfl⟩
        · exact nofun
        · exact fun heq => hother hb (Ref.field.inj heq ▸ hc)
      · rw [hnext] at heq
        refine hother hb ?_
        rw [hsplit]
        exact mem_append_right l₁ (mem_cons_of_mem a (mem_of_mem_head? heq))
  · by_cases hk : k' = k
    · rw [hk, update_self]
      exact (hh.nodup k).erase a
    · rw [update_of_ne hk]
      exact hh.nodup k'
  · have hsub {k' : K} (hb : b ∈ update lists k ((lists k).erase a) k') : b ∈ lists k' := by
      by_cases hk : k' = k
      · rw [hk, update_self] at hb
        exact hk ▸ mem_of_mem_erase hb
      · rwa [update_of_ne hk] at hb
    exact hh.disjoint (hsub h₁) (hsub h₂)

/-- **The rule for putting a node in front of a list.** -/
theorem Heap.Represents.insertHead (hh : h.Represents lists) (ha : ∀ k', a ∉ lists k') :
    (h.insertHead k a).Represents (update lists k (a :: lists k)) := by
  have htarget_head : (h.insertHead k a).target (.head k) = some a := update_self _ _ _
  have htarget_field : (h.insertHead k a).target (.field a) = h.target (.head k) := by
    have hne : (Ref.field a : Ref K N) ≠ .head k := nofun
    rw [Heap.insertHead]
    dsimp only
    rw [update_of_ne hne, Heap.redirect_target]
    exact update_self _ _ _
  have htarget {p : Ref K N} (hhead : p ≠ .head k) (hfield : p ≠ .field a) :
      (h.insertHead k a).target p = h.target p := by
    rw [Heap.insertHead]
    dsimp only
    rw [update_of_ne hhead, Heap.redirect_target]
    exact update_of_ne hfield _ _
  have hback_self : (h.insertHead k a).back a = some (.head k) := update_self _ _ _
  have hback {b : N} (hb : b ≠ a) :
      (h.insertHead k a).back b = if h.target (.head k) = some b then some (.field a)
        else h.back b := by
    rw [Heap.insertHead]
    dsimp only
    rw [update_of_ne hb, Heap.redirect_back]
  have hfirst := (hh.linked k).target_eq
  have hne {k' : K} {b : N} (hb : b ∈ lists k') : b ≠ a := fun heq => ha k' (heq ▸ hb)
  have hfield_ne {k' : K} {b : N} (hb : b ∈ lists k') : (Ref.field b : Ref K N) ≠ .field a :=
    fun heq => hne hb (Ref.field.inj heq)
  refine ⟨fun k' => ?_, fun k' => ?_, fun {k₁ k₂ b} h₁ h₂ => ?_⟩
  · by_cases hk : k' = k
    · rw [hk, update_self]
      refine ⟨htarget_head, hback_self, ?_⟩
      have hlinked := hh.linked k
      have hnodup := hh.nodup k
      match hl : lists k with
      | [] =>
        rw [hl] at hfirst
        exact htarget_field.trans hfirst
      | b :: l =>
        rw [hl] at hfirst hlinked hnodup
        obtain ⟨hb, -⟩ := nodup_cons.mp hnodup
        have hmem {c : N} (hc : c ∈ l) : c ∈ lists k := by
          rw [hl]
          exact mem_cons_of_mem b hc
        have hbmem : b ∈ lists k := by
          rw [hl]
          exact mem_cons_self
        refine ⟨htarget_field.trans hfirst, (hback (hne hbmem)).trans (if_pos hfirst), ?_⟩
        refine hlinked.2.2.congr (htarget nofun (hfield_ne hbmem))
          (fun c hc => htarget nofun (hfield_ne (hmem hc)))
          fun c hc => (hback (hne (hmem hc))).trans (if_neg fun heq => hb ?_)
        rw [hfirst] at heq
        exact (Option.some.inj heq : b = c) ▸ hc
    · rw [update_of_ne hk]
      refine (hh.linked k').congr (htarget (fun heq => hk (Ref.head.inj heq)) nofun)
        (fun b hb => htarget nofun (hfield_ne hb)) fun b hb =>
          (hback (hne hb)).trans (if_neg fun heq => hk ?_)
      rw [hfirst] at heq
      exact hh.disjoint hb (mem_of_mem_head? heq)
  · by_cases hk : k' = k
    · rw [hk, update_self]
      exact nodup_cons.mpr ⟨ha k, hh.nodup k⟩
    · rw [update_of_ne hk]
      exact hh.nodup k'
  · have hsub {k' : K} (hb : b ∈ update lists k (a :: lists k) k') :
        b ∈ lists k' ∨ b = a ∧ k' = k := by
      by_cases hk : k' = k
      · rw [hk, update_self] at hb
        rcases mem_cons.mp hb with rfl | hb
        · exact .inr ⟨rfl, hk⟩
        · exact .inl (hk ▸ hb)
      · rw [update_of_ne hk] at hb
        exact .inl hb
    rcases hsub h₁ with hb₁ | ⟨hb₁, hk₁⟩
    · rcases hsub h₂ with hb₂ | ⟨hb₂, -⟩
      · exact hh.disjoint hb₁ hb₂
      · exact absurd (hb₂ ▸ hb₁) (ha k₁)
    · rcases hsub h₂ with hb₂ | ⟨-, hk₂⟩
      · exact absurd (hb₁ ▸ hb₂) (ha k₂)
      · exact hk₁.trans hk₂.symm

/-- **The rule for making an empty list.** -/
lemma Heap.Represents.clear (hh : h.Represents lists) (hk : lists k = []) :
    (h.clear k).Represents lists := by
  refine ⟨fun k' => ?_, hh.nodup, hh.disjoint⟩
  by_cases hk' : k' = k
  · rw [hk', hk]
    exact update_self _ _ _
  · exact (hh.linked k').congr (update_of_ne (fun heq => hk' (Ref.head.inj heq)) _ _)
      (fun _ _ => rfl)
      fun _ _ => rfl

end Astoria.Intrusive
