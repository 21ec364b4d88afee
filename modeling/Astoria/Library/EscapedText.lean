import Mathlib.Data.List.Basic

/-!
# Escaped symbols in text

The symbols of a text can be escaped.  They are decoded one by one until a closing symbol
(`decodeUntil_flatMap`).
-/

namespace EscapedText

open List

variable {α β : Type*}

/-- Decode symbols until a closing one.  The number of symbols is given. -/
def decodeUntil [DecidableEq α] (close : α) (decode : List α → Option (β × List α)) :
    ℕ → List α → Option (List β × List α)
  | 0, _ => none
  | _ + 1, [] => none
  | n + 1, a :: s =>
    if a = close then some ([], s)
    else
      match decode (a :: s) with
      | none => none
      | some (b, rest) => (decodeUntil close decode n rest).map fun (bs, rest) => (b :: bs, rest)

variable {close : α} {encode : β → List α}

/-- There is at least one symbol in each code. -/
lemma length_le_length_flatMap {bs : List β}
    (hopen : ∀ b ∈ bs, ∃ a s, encode b = a :: s ∧ a ≠ close) :
    bs.length ≤ (bs.flatMap encode).length := by
  induction bs with
  | nil => exact Nat.zero_le _
  | cons b bs ih =>
    obtain ⟨⟨a, s, hencode, -⟩, hopen⟩ := forall_mem_cons.mp hopen
    have hle := ih hopen
    rw [flatMap_cons, hencode, length_append, length_cons, length_cons]
    omega

/-- **Symbols that are encoded one by one are decoded.** -/
theorem decodeUntil_flatMap [DecidableEq α] {decode : List α → Option (β × List α)} {bs : List β}
    (hdecode : ∀ b ∈ bs, ∀ s, decode (encode b ++ s) = some (b, s))
    (hopen : ∀ b ∈ bs, ∃ a s, encode b = a :: s ∧ a ≠ close) (rest : List α) {n : ℕ}
    (hn : bs.length < n) : decodeUntil close decode n (bs.flatMap encode ++ close :: rest) =
      some (bs, rest) := by
  induction bs generalizing n with
  | nil =>
    obtain ⟨n, rfl⟩ := Nat.exists_eq_succ_of_ne_zero (Nat.ne_of_gt hn)
    rw [flatMap_nil, nil_append, decodeUntil, if_pos rfl]
  | cons b bs ih =>
    obtain ⟨n, rfl⟩ := Nat.exists_eq_succ_of_ne_zero (Nat.ne_of_gt (Nat.zero_lt_of_lt hn))
    obtain ⟨hb, hbs⟩ := forall_mem_cons.mp hdecode
    obtain ⟨⟨a, s, hencode, ha⟩, hopen⟩ := forall_mem_cons.mp hopen
    have hfirst := hb (bs.flatMap encode ++ close :: rest)
    rw [hencode, cons_append] at hfirst
    rw [flatMap_cons, append_assoc, hencode, cons_append, decodeUntil, if_neg ha, hfirst]
    dsimp only
    rw [ih hbs hopen (Nat.lt_of_succ_lt_succ hn), Option.map_some]

end EscapedText
