import Mathlib.Tactic.Common

/-!
# Messages in transit

The sender and the receiver of messages both change their states with every message that concerns
them, the sender when it sends the message and the receiver when it gets it.  They are in step
(`InStep`) if the messages in transit lead from the state of the receiver to the state of the
sender, each of them having been sent in the state that the receiver will have when it gets it.
Other messages may be among them.

Messages travel along a line of queues.  The messages in transit between the source of the line and
one of its stations are those in the queues up to the station: for messages away from the source,
the oldest ones are far from it (`upstream`), and for messages to the source they are near it
(`downstream`).  A message that is passed on from a queue to the next one keeps its place.
-/

namespace Transit

open List
open Function

variable {S C : Type*}

/-- How messages change the states of the sender and of the receiver. -/
structure Protocol (S C : Type*) where
  /-- The messages that concern the two ends. -/
  touches : C → Prop
  /-- The state in which a message was sent. -/
  seen : C → S
  /-- The state after a message. -/
  after : S → C → S

/-- The messages in transit, the oldest one first, lead the receiver to the state of the sender. -/
inductive InStep (P : Protocol S C) : S → List C → S → Prop
  /-- Nothing is in transit. -/
  | nil (s : S) : InStep P s [] s
  /-- The oldest message concerns others. -/
  | skip {s s' : S} {c : C} {cs : List C} (hc : ¬ P.touches c) (h : InStep P s cs s') :
      InStep P s (c :: cs) s'
  /-- The oldest message was sent in the state of the receiver. -/
  | take {s s' : S} {c : C} {cs : List C} (hc : P.touches c) (hseen : P.seen c = s)
      (h : InStep P (P.after s c) cs s') : InStep P s (c :: cs) s'

/-- Messages that the two ends cannot tell apart. -/
structure Protocol.Alike (P : Protocol S C) (c c' : C) : Prop where
  /-- Both concern the two ends, or none does. -/
  touches : P.touches c' ↔ P.touches c
  seen : P.seen c' = P.seen c
  /-- They change the states in the same way. -/
  after : ∀ s, P.after s c' = P.after s c

section InStep

variable {P : Protocol S C} {s s' s'' : S} {c c' : C} {cs cs' : List C}

/-- Messages that were sent one after another. -/
lemma InStep.append (h : InStep P s cs s') (h' : InStep P s' cs' s'') :
    InStep P s (cs ++ cs') s'' := by
  induction h with
  | nil => exact h'
  | skip hc _ ih => exact InStep.skip hc (ih h')
  | take hc hseen _ ih => exact InStep.take hc hseen (ih h')

/-- The state between two groups of messages. -/
lemma InStep.exists_of_append (h : InStep P s (cs ++ cs') s'') :
    ∃ s', InStep P s cs s' ∧ InStep P s' cs' s'' := by
  induction cs generalizing s with
  | nil => exact ⟨s, InStep.nil s, h⟩
  | cons c cs ih =>
    cases h with
    | skip hc h =>
      obtain ⟨s', hcs, hcs'⟩ := ih h
      exact ⟨s', InStep.skip hc hcs, hcs'⟩
    | take hc hseen h =>
      obtain ⟨s', hcs, hcs'⟩ := ih h
      exact ⟨s', InStep.take hc hseen hcs, hcs'⟩

/-- **A message is sent.** -/
lemma InStep.send (h : InStep P s cs s') (hc : P.touches c) (hseen : P.seen c = s') :
    InStep P s (cs ++ [c]) (P.after s' c) :=
  h.append (InStep.take hc hseen (InStep.nil _))

/-- **The oldest message arrives.** -/
lemma InStep.receive (h : InStep P s (c :: cs) s') (hc : P.touches c) :
    P.seen c = s ∧ InStep P (P.after s c) cs s' := by
  cases h with
  | skip hc' _ => exact absurd hc hc'
  | take _ hseen h => exact ⟨hseen, h⟩

/-- A message for others comes in between. -/
lemma InStep.insert (h : InStep P s (cs ++ cs') s') (hc : ¬ P.touches c) :
    InStep P s (cs ++ c :: cs') s' := by
  obtain ⟨s₁, hcs, hcs'⟩ := h.exists_of_append
  exact hcs.append (InStep.skip hc hcs')

/-- A message for others is taken away. -/
lemma InStep.remove (h : InStep P s (cs ++ c :: cs') s') (hc : ¬ P.touches c) :
    InStep P s (cs ++ cs') s' := by
  obtain ⟨s₁, hcs, hrest⟩ := h.exists_of_append
  cases hrest with
  | skip _ hcs' => exact hcs.append hcs'
  | take hc' _ _ => exact absurd hc' hc

lemma InStep.replace (h : InStep P s (cs ++ c :: cs') s') (halike : P.Alike c c') :
    InStep P s (cs ++ c' :: cs') s' := by
  obtain ⟨s₁, hcs, hrest⟩ := h.exists_of_append
  apply hcs.append
  cases hrest with
  | skip hc hcs' => exact InStep.skip (fun hc' => hc (halike.touches.mp hc')) hcs'
  | take hc hseen hcs' =>
    apply InStep.take (halike.touches.mpr hc) (halike.seen.trans hseen)
    rw [halike.after]
    exact hcs'

/-- What the states collect from the messages. -/
lemma InStep.flatMap_eq {β : Type*} (h : InStep P s cs s') {f : S → List β} {g : C → List β}
    (htake : ∀ s c, P.touches c → f (P.after s c) = f s ++ g c)
    (hskip : ∀ c, ¬ P.touches c → g c = []) : f s' = f s ++ cs.flatMap g := by
  induction h with
  | nil s => simp
  | skip hc _ ih => rw [ih, flatMap_cons, hskip _ hc, nil_append]
  | take hc _ _ ih => rw [ih, htake _ _ hc, flatMap_cons, append_assoc]

end InStep

/-! ### Lines of queues -/

/-- The messages between the source and a station, for messages away from the source. -/
def upstream (q : ℕ → List C) : ℕ → List C
  | 0 => []
  | m + 1 => q m ++ upstream q m

/-- The messages between the source and a station, for messages to the source. -/
def downstream (q : ℕ → List C) : ℕ → List C
  | 0 => []
  | m + 1 => downstream q m ++ q m

/-- The message at the head of a queue is taken away. -/
def pop (q : ℕ → List C) (j : ℕ) : ℕ → List C := update q j (q j).tail

/-- A message is put at the end of a queue. -/
def push (q : ℕ → List C) (j : ℕ) (c : C) : ℕ → List C := update q j (q j ++ [c])

section Queues

variable {P : Protocol S C} {s s' : S} {q : ℕ → List C} {c c' : C} {rest l l' : List C} {j k m : ℕ}

/-- Queues beyond the station. -/
lemma upstream_update (h : m ≤ j) : upstream (update q j l) m = upstream q m := by
  induction m with
  | zero => rfl
  | succ m ih => rw [upstream, upstream, ih (by omega), update_of_ne (by omega)]

/-- Queues beyond the station. -/
lemma downstream_update (h : m ≤ j) : downstream (update q j l) m = downstream q m := by
  induction m with
  | zero => rfl
  | succ m ih => rw [downstream, downstream, ih (by omega), update_of_ne (by omega)]

/-- Two queues in a row among the messages away from the source. -/
lemma exists_upstream_eq (q : ℕ → List C) (h : j + 1 < m) :
    ∃ before after, ∀ l l', upstream (update (update q j l) (j + 1) l') m =
      before ++ (l' ++ (l ++ after)) := by
  induction m with
  | zero => omega
  | succ m ih =>
    by_cases hj : j + 1 = m
    · subst hj
      refine ⟨[], upstream q j, fun l l' => ?_⟩
      rw [upstream, upstream, update_self, update_of_ne (by omega),
        update_self, upstream_update (by omega), upstream_update (Nat.le_refl j),
        nil_append]
    · obtain ⟨before, after, heq⟩ := ih (by omega)
      refine ⟨q m ++ before, after, fun l l' => ?_⟩
      rw [upstream, heq, update_of_ne (by omega), update_of_ne (by omega),
        append_assoc]

/-- Two queues in a row among the messages to the source. -/
lemma exists_downstream_eq (q : ℕ → List C) (h : j + 1 < m) :
    ∃ before after, ∀ l l', downstream (update (update q j l) (j + 1) l') m =
      before ++ (l ++ (l' ++ after)) := by
  induction m with
  | zero => omega
  | succ m ih =>
    by_cases hj : j + 1 = m
    · subst hj
      refine ⟨downstream q j, [], fun l l' => ?_⟩
      rw [downstream, downstream, update_self, update_of_ne (by omega),
        update_self, downstream_update (by omega), downstream_update (Nat.le_refl j),
        append_nil, append_assoc]
    · obtain ⟨before, after, heq⟩ := ih (by omega)
      refine ⟨before, after ++ q m, fun l l' => ?_⟩
      rw [downstream, heq, update_of_ne (by omega), update_of_ne (by omega)]
      simp only [append_assoc]

/-- Queues that are written as they are. -/
lemma update_update_self (q : ℕ → List C) (l : List C) (j : ℕ) :
    update (update q j l) (j + 1) (q (j + 1)) = update q j l := by
  rw [update_eq_self_iff, update_of_ne (by omega)]

/-- The message at the head of a queue. -/
lemma pop_eq (hq : q j = c :: rest) : pop q j = update q j rest := by
  rw [pop, hq, tail_cons]

/-- The queue that a message is put in. -/
@[simp] lemma push_self (q : ℕ → List C) (j : ℕ) (c : C) : push q j c j = q j ++ [c] :=
  update_self _ _ _

lemma push_of_ne (c : C) (h : k ≠ j) : push q j c k = q k := update_of_ne h _ _

/-! ### Messages away from the source -/

/-- The source sends a message. -/
lemma upstream_push (h : 0 < m) : upstream (push q 0 c) m = upstream q m ++ [c] := by
  induction m with
  | zero => omega
  | succ m ih =>
    rw [upstream, upstream]
    cases m with
    | zero =>
      rw [push_self]
      simp [upstream]
    | succ m =>
      rw [ih (by omega), push_of_ne c (by omega), append_assoc]

/-- **A message away from the source is passed on.** -/
lemma InStep.upstream_pass (h : InStep P s (upstream q m) s') (hq : q j = c :: rest)
    (hm : j + 1 < m) (halike : P.Alike c c') :
    InStep P s (upstream (push (pop q j) (j + 1) c') m) s' := by
  obtain ⟨before, after, heq⟩ := exists_upstream_eq q hm
  have hbefore := heq (c :: rest) (q (j + 1))
  rw [update_update_self, ← hq, update_eq_self, hq, cons_append,
    ← append_assoc] at hbefore
  rw [hbefore] at h
  rw [push, pop_eq hq, update_of_ne (by omega), heq, append_assoc, singleton_append,
    ← append_assoc]
  exact h.replace halike

/-- A message away from the source is taken away, which does not concern the station. -/
lemma InStep.upstream_drop (h : InStep P s (upstream q m) s') (hq : q j = c :: rest)
    (hm : j + 1 < m) (hc : ¬ P.touches c) : InStep P s (upstream (pop q j) m) s' := by
  obtain ⟨before, after, heq⟩ := exists_upstream_eq q hm
  have hbefore := heq (c :: rest) (q (j + 1))
  rw [update_update_self, ← hq, update_eq_self, hq, cons_append,
    ← append_assoc] at hbefore
  rw [hbefore] at h
  rw [pop_eq hq, ← update_update_self, heq, ← append_assoc]
  exact h.remove hc

/-- **A station gets a message from the source.** -/
lemma InStep.upstream_receive (h : InStep P s (upstream q (j + 1)) s') (hq : q j = c :: rest)
    (hc : P.touches c) :
    P.seen c = s ∧ InStep P (P.after s c) (upstream (pop q j) (j + 1)) s' := by
  rw [upstream, hq, cons_append] at h
  rw [upstream, pop_eq hq, update_self, upstream_update (Nat.le_refl j)]
  exact h.receive hc

/-! ### Messages to the source -/

/-- A station sends a message. -/
lemma downstream_push : downstream (push q j c) (j + 1) = downstream q (j + 1) ++ [c] := by
  rw [downstream, downstream, push_self, push, downstream_update (Nat.le_refl j), append_assoc]

/-- **A message to the source is passed on.** -/
lemma InStep.downstream_pass (h : InStep P s (downstream q m) s') (hq : q (j + 1) = c :: rest)
    (hm : j + 1 < m) (halike : P.Alike c c') :
    InStep P s (downstream (push (pop q (j + 1)) j c') m) s' := by
  obtain ⟨before, after, heq⟩ := exists_downstream_eq q hm
  have hbefore := heq (q j) (c :: rest)
  rw [update_eq_self, ← hq, update_eq_self, hq, cons_append,
    ← append_assoc] at hbefore
  rw [hbefore] at h
  rw [push, pop_eq hq, update_of_ne (by omega), update_comm (by omega), heq,
    append_assoc, singleton_append, ← append_assoc]
  exact h.replace halike

/-- A message comes in between, which does not concern the station. -/
lemma InStep.downstream_insert (h : InStep P s (downstream q m) s') (hm : j + 1 < m)
    (hc : ¬ P.touches c) : InStep P s (downstream (push q j c) m) s' := by
  obtain ⟨before, after, heq⟩ := exists_downstream_eq q hm
  have hbefore := heq (q j) (q (j + 1))
  rw [update_eq_self, update_eq_self, ← append_assoc] at hbefore
  rw [hbefore] at h
  rw [push, ← update_update_self, heq, append_assoc, singleton_append, ← append_assoc]
  exact h.insert hc

/-- The source gets a message. -/
lemma downstream_pop (hq : q 0 = c :: rest) (hm : 0 < m) :
    downstream q m = c :: downstream (pop q 0) m := by
  induction m with
  | zero => omega
  | succ m ih =>
    rw [downstream, downstream]
    cases m with
    | zero =>
      rw [pop_eq hq, update_self, hq]
      rfl
    | succ m =>
      rw [ih (by omega), cons_append, pop_eq hq, update_of_ne (by omega)]

end Queues

end Transit
