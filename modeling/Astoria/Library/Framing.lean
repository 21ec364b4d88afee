import Mathlib.Data.List.Infix

/-!
# Self-delimiting codes

Items are written one after another, and a parser tells from the start of a stream whether a whole
item is there.  `drain` takes as many items as there are, and `feed` does so each time another piece
of the stream arrives.  However the stream is cut, after each piece exactly the items have been
delivered that have arrived completely (`feed_exact`).
-/

namespace Astoria.Framing

open List

variable {α β : Type*} {encode : α → List β} {parse : List β → Option (α × List β)} {ok : α → Prop}
  {items : List α}

/-- **A self-delimiting code.**  The parser takes an item off the start of a stream, and it waits as
long as not all of the item is there. -/
structure IsCode (encode : α → List β) (parse : List β → Option (α × List β)) (ok : α → Prop) :
    Prop where
  ne_nil : ∀ a, ok a → encode a ≠ []
  parse_nil : parse [] = none
  parse_append : ∀ a rest, ok a → parse (encode a ++ rest) = some (a, rest)
  parse_short : ∀ a n, ok a → n < (encode a).length → parse ((encode a).take n) = none

/-- The items at the start of a stream, and what is left.  The number of items is bounded. -/
def drain (parse : List β → Option (α × List β)) : ℕ → List β → List α × List β
  | 0, s => ([], s)
  | fuel + 1, s =>
    match parse s with
    | none => ([], s)
    | some (a, rest) => (a :: (drain parse fuel rest).1, (drain parse fuel rest).2)

/-- The items that are delivered after each piece, if something is left from before. -/
def feed (parse : List β → Option (α × List β)) : List β → List (List β) → List (List α)
  | _, [] => []
  | left, piece :: pieces =>
    let r := drain parse ((left ++ piece).length + 1) (left ++ piece)
    r.1 :: feed parse r.2 pieces

/-- There is a delivery for each piece. -/
lemma length_feed (left : List β) (pieces : List (List β)) :
    (feed parse left pieces).length = pieces.length := by
  induction pieces generalizing left with
  | nil => rfl
  | cons piece pieces ih => rw [feed, length_cons, length_cons, ih]

/-- How many items are complete when some part of the stream has arrived. -/
def complete (encode : α → List β) : List α → ℕ → ℕ
  | [], _ => 0
  | a :: items, n => if (encode a).length ≤ n then complete encode items (n - (encode a).length) + 1
    else 0

/-- **The part of a stream that has arrived is drained**: the complete items are delivered, and the
start of the next one is left. -/
lemma drain_take (h : IsCode encode parse ok) (hok : ∀ a ∈ items, ok a) {n fuel : ℕ}
    (hn : n ≤ (items.flatMap encode).length) (hfuel : n < fuel) :
    ∃ m, drain parse fuel ((items.flatMap encode).take n) =
        (items.take (complete encode items n),
          ((items.drop (complete encode items n)).flatMap encode).take m) ∧
      ((items.take (complete encode items n)).flatMap encode).length + m = n ∧
        complete encode (items.drop (complete encode items n)) m = 0 := by
  induction items generalizing n fuel with
  | nil =>
    obtain ⟨fuel, rfl⟩ := Nat.exists_eq_succ_of_ne_zero (ne_of_gt (Nat.zero_lt_of_lt hfuel))
    obtain rfl := Nat.le_zero.mp hn
    refine ⟨0, ?_, rfl, rfl⟩
    rw [flatMap_nil, take_nil, drain, h.parse_nil]
    rfl
  | cons a items ih =>
    obtain ⟨fuel, rfl⟩ := Nat.exists_eq_succ_of_ne_zero (ne_of_gt (Nat.zero_lt_of_lt hfuel))
    have ha := hok a mem_cons_self
    rw [flatMap_cons, length_append] at hn
    rw [flatMap_cons, complete]
    split_ifs with hle
    · -- the first item is complete
      have hpos := length_pos_iff.mpr (h.ne_nil a ha)
      obtain ⟨m, hdrain, hlen, hnone⟩ := @ih (fun a ha => hok a (mem_cons_of_mem _ ha))
        (n - (encode a).length) fuel (by omega) (by omega)
      refine ⟨m, ?_, ?_, hnone⟩
      · rw [take_append, take_of_length_le hle, drain, h.parse_append a _ ha]
        dsimp only
        rw [hdrain, take_succ_cons, drop_succ_cons]
      · rw [take_succ_cons, flatMap_cons, length_append]
        omega
    · refine ⟨n, ?_, by simp, ?_⟩
      · rw [take_append_of_le_length (by omega), drain, h.parse_short a n ha (by omega), take_zero,
          drop_zero, flatMap_cons, take_append_of_le_length (by omega)]
      · rw [drop_zero, complete, if_neg hle]

/-- Complete items stay complete, and the later ones are counted from there. -/
lemma complete_add (encode : α → List β) (items : List α) {n m : ℕ} (l : ℕ)
    (h : ((items.take (complete encode items n)).flatMap encode).length + m = n) :
    complete encode items (n + l) =
      complete encode items n + complete encode (items.drop (complete encode items n)) (m + l) := by
  induction items generalizing n with
  | nil => rfl
  | cons a items ih =>
    rw [complete] at h
    rw [complete, complete]
    by_cases hle : (encode a).length ≤ n
    · rw [if_pos hle] at h
      rw [take_succ_cons, flatMap_cons, length_append] at h
      rw [if_pos hle, if_pos (by omega), drop_succ_cons]
      have hrest := @ih (n - (encode a).length) (by omega)
      have hsub : n + l - (encode a).length = n - (encode a).length + l := by omega
      rw [hsub, hrest]
      omega
    · rw [if_neg hle, take_zero, flatMap_nil, length_nil, Nat.zero_add] at h
      rw [if_neg hle, drop_zero, h, Nat.zero_add, complete]

/-- **The start of a stream is drained**, with some more of the stream to come. -/
lemma drain_of_prefix (h : IsCode encode parse ok) (hok : ∀ a ∈ items, ok a) {s t : List β}
    (hstart : s ++ t <+: items.flatMap encode) {fuel : ℕ} (hfuel : s.length < fuel) :
    ∃ left, drain parse fuel s = (items.take (complete encode items s.length), left) ∧
      left ++ t <+: (items.drop (complete encode items s.length)).flatMap encode ∧
        complete encode (items.drop (complete encode items s.length)) left.length = 0 ∧
          ((items.take (complete encode items s.length)).flatMap encode).length + left.length =
            s.length := by
  have hs : s <+: items.flatMap encode := (prefix_append _ _).trans hstart
  have htake := prefix_iff_eq_take.mp hs
  obtain ⟨m, hdrain, hlen, hnone⟩ := drain_take h hok hs.length_le hfuel
  rw [← htake] at hdrain
  generalize complete encode items s.length = k at *
  have hsplit : items.flatMap encode = (items.take k).flatMap encode ++ (items.drop k).flatMap
      encode := by
    rw [← flatMap_append, take_append_drop]
  -- what has arrived is the complete items and what is left
  have harrived : s = (items.take k).flatMap encode ++ ((items.drop k).flatMap encode).take m := by
    rw [htake, hsplit, ← hlen, take_length_add_append]
  have hm : (((items.drop k).flatMap encode).take m).length = m := by
    have hlen' := congrArg List.length harrived
    rw [length_append] at hlen'
    omega
  refine ⟨_, hdrain, ?_, by rw [hm]; exact hnone, by rw [hm]; exact hlen⟩
  rw [harrived, hsplit, append_assoc] at hstart
  exact (prefix_append_right_inj _).mp hstart

/-- What is left is shorter than an item. -/
lemma length_left_le {left : List β} {n : ℕ} (hn : ∀ a ∈ items, (encode a).length ≤ n)
    (hstart : left <+: items.flatMap encode) (hleft : complete encode items left.length = 0) :
    left.length ≤ n := by
  cases items with
  | nil =>
    rw [prefix_nil.mp hstart]
    exact Nat.zero_le _
  | cons a items =>
    rw [complete] at hleft
    split_ifs at hleft with hle
    exact (Nat.le_of_not_le hle).trans (hn a mem_cons_self)

/-- When the whole stream has arrived, all items are complete. -/
lemma complete_length (encode : α → List β) (items : List α) :
    complete encode items (items.flatMap encode).length = items.length := by
  induction items with
  | nil => rfl
  | cons a items ih =>
    rw [complete, flatMap_cons, length_append, if_pos (Nat.le_add_right _ _),
      Nat.add_sub_cancel_left, ih,
      length_cons]

/-- **Every item is delivered once it has arrived**, and none is delivered before, twice or in
another order, however the stream is cut. -/
theorem feed_exact (h : IsCode encode parse ok) (hok : ∀ a ∈ items, ok a) {left : List β}
    {pieces : List (List β)} (hpieces : left ++ pieces.flatten <+: items.flatMap encode)
    (hleft : complete encode items left.length = 0) (j : ℕ) :
    ((feed parse left pieces).take j).flatten =
      items.take (complete encode items (left.length + (pieces.take j).flatten.length)) := by
  induction pieces generalizing items left j with
  | nil =>
    rw [take_nil, flatten_nil, length_nil, Nat.add_zero, hleft, feed, take_nil]
    rfl
  | cons piece pieces ih =>
    cases j with
    | zero =>
      have hzero : ((piece :: pieces).take 0).flatten.length = 0 := rfl
      rw [hzero, Nat.add_zero, hleft, take_zero, take_zero]
      rfl
    | succ j =>
      rw [flatten_cons, ← append_assoc] at hpieces
      obtain ⟨left', hdrain, hstart, hnone, hlen⟩ :=
        drain_of_prefix h hok hpieces (Nat.lt_succ_self _)
      have hrest := ih (fun a ha => hok a (mem_of_mem_drop ha)) hstart hnone j
      have htotal : left.length + (piece ++ (pieces.take j).flatten).length =
          (left ++ piece).length + (pieces.take j).flatten.length := by
        rw [length_append, length_append, Nat.add_assoc]
      rw [feed, hdrain]
      dsimp only
      rw [take_succ_cons, flatten_cons, hrest, take_succ_cons, flatten_cons, htotal,
        complete_add encode items _ hlen, take_add]

end Astoria.Framing
