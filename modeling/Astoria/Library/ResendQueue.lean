import Mathlib.Data.List.Basic

/-!
# Queues that can send again

What a sender has sent before it knows that the receiver is there is retained, so that it can be
sent again to another receiver.  There is what has arrived and not been sent at all, what is
retained, and the part of it that has still to be sent to the present receiver.  In every run the
receiver has got the start of the input, and the other parts are the rest of it
(`Consistent.received`).
-/

namespace Astoria.Resend

open List

variable {α : Type*}

/-- A queue that can send again. -/
structure Queue (α : Type*) where
  /-- What has arrived and was not sent to anyone. -/
  fresh : List α
  /-- What was sent to anyone. -/
  retained : List α
  /-- What has still to be sent again to the present receiver. -/
  resend : List α
  /-- What was sent to the present receiver. -/
  sent : List α

/-- **Nothing is lost.** -/
structure Consistent (input : List α) (q : Queue α) : Prop where
  all : q.retained ++ q.fresh = input
  again : q.sent ++ q.resend = q.retained

variable {input : List α} {q : Queue α}

lemma Consistent.empty : Consistent ([] : List α) ⟨[], [], [], []⟩ := ⟨rfl, rfl⟩

variable (h : Consistent input q)

include h

/-- More input arrives. -/
lemma Consistent.arrive (new : List α) :
    Consistent (input ++ new) { q with fresh := q.fresh ++ new } := by
  refine ⟨?_, h.again⟩
  rw [← h.all, append_assoc]

/-- Something new is sent, when nothing has to be sent again. -/
lemma Consistent.sendFresh (hnone : q.resend = []) (n : ℕ) : Consistent input
      ⟨q.fresh.drop n, q.retained ++ q.fresh.take n, [], q.sent ++ q.fresh.take n⟩ := by
  constructor
  · rw [append_assoc, take_append_drop]
    exact h.all
  · have hsent := h.again
    rw [hnone, append_nil] at hsent
    rw [append_nil, hsent]

/-- Something is sent again. -/
lemma Consistent.sendAgain (n : ℕ) :
    Consistent input { q with resend := q.resend.drop n, sent := q.sent ++ q.resend.take n } := by
  refine ⟨h.all, ?_⟩
  rw [append_assoc, take_append_drop]
  exact h.again

/-- There is another receiver. -/
lemma Consistent.restart : Consistent input { q with resend := q.retained, sent := [] } :=
  ⟨h.all, rfl⟩

/-- **The receiver has got the start of the input**, and the rest is still there. -/
lemma Consistent.received : q.sent ++ q.resend ++ q.fresh = input := by
  rw [h.again, h.all]

end Astoria.Resend
