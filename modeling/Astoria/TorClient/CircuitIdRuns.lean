import Astoria.TorClient.CircidRuns
import Astoria.TorClient.CircuitIds

/-!
# When circuit identifiers are chosen well

An identifier for which a destroy cell waits in the multiplexer of a channel is marked, or the
circuit that still has it knows of the cell (`Marked`), so that it is in use (`IdsOk`).  Hence what
is drawn is never an identifier of a circuit or one whose destroy cell waits in the multiplexer, and
it is one that this side of the channel chooses.

A destroy cell is noted as written before it is known whether the channel has sent it.  If it stays
in the outgoing queue, its identifier is free as soon as no circuit has it.  So the choice is right
in a state exactly if no destroy cell waits in the outgoing queue of a channel for an identifier
that can be drawn there and that is not in use (`isSafe_iff_settled`).
-/

namespace Astoria.CircIds

open List Option
open Function

/-! ### Pending destroy cells -/

section Marks

variable {s s' : CircidState} {a a' : Pairs} {c : ℕ} {d : CellDirection} {k k' : ChanCirc}

/-- A destroy cell for an identifier is pending: it is marked, or this is noted for the circuit that
has it. -/
def Marked (a : Pairs) (k : ChanCirc) : Prop :=
  a.unusable k = true ∨ ∃ c d, a.pair c d = some k ∧ a.pending c d = true

/-- No identifier is on two sides of circuits. -/
def Single (a : Pairs) : Prop :=
  ∀ c d c' d' k, a.pair c d = some k → a.pair c' d' = some k → c' = c ∧ d' = d

lemma Single.congr (h : Single a) (hpair : a'.pair = a.pair) : Single a' := by
  intro c d c' d' k hk hk'
  rw [hpair] at hk hk'
  exact h c d c' d' k hk hk'

/-- An identifier that no side has is given to a side. -/
lemma Single.give (h : Single a) {new : Option ChanCirc} (hnew : ∀ k ∈ new, ∀ c, ¬ a.Has c k) :
    Single (a.give c d new) := by
  intro c₁ d₁ c₂ d₂ k h₁ h₂
  rw [Pairs.give_pair] at h₁ h₂
  split_ifs at h₁ h₂ with hc₁ hc₂ hc₂
  · exact ⟨hc₂.1.trans hc₁.1.symm, hc₂.2.trans hc₁.2.symm⟩
  · exact absurd ⟨d₂, h₂⟩ (hnew k h₁ c₂)
  · exact absurd ⟨d₁, h₁⟩ (hnew k h₂ c₁)
  · exact h c₁ d₁ c₂ d₂ k h₁ h₂

lemma Single.give_none (h : Single a) (c : ℕ) (d : CellDirection) : Single (a.give c d none) :=
  h.give nofun

lemma Single.parts (h : Single a) (hok : CircidOk s a) (new : Option ChanCirc) :
    s.Parts c d new := by
  intro k hk _ d' hd'
  rw [hok.pair] at hk hd'
  exact (h c d c d' k hk hd').2

/-- What is marked when a side gives up what it has. -/
lemma give_none_unusable (a : Pairs) (c : ℕ) (d : CellDirection) (k : ChanCirc) :
    (a.give c d none).unusable k = if a.pending c d = true ∧ a.pair c d = some k then true
      else a.unusable k := by
  have hchange : (a.change c d none).unusable = a.unusable := by
    unfold Pairs.change
    split_ifs
    · rfl
    · rfl
  unfold Pairs.give
  by_cases hp : a.pending c d = true ∧ a.pair c d ≠ none
  · rw [if_pos hp]
    obtain ⟨k₀, hk₀⟩ := ne_none_iff_exists'.mp hp.2
    have hmark : ((a.change c d none).release (a.pair c d) none).unusable =
        update (a.change c d none).unusable k₀ true := by
      rw [hk₀]
      rfl
    change ((a.change c d none).release (a.pair c d) none).unusable k = _
    rw [hmark, hchange, update_apply]
    by_cases heq : k = k₀
    · rw [if_pos heq, if_pos ⟨hp.1, by rw [hk₀, heq]⟩]
    · rw [if_neg heq, if_neg fun hand => heq (some.inj (hk₀.symm.trans hand.2)).symm]
  · rw [if_neg hp, hchange, if_neg fun hand => hp ⟨hand.1, by rw [hand.2]; exact nofun⟩]

/-- **A side that gives up what it has** keeps the destroy cells that are pending. -/
lemma marked_give_none : Marked (a.give c d none) k ↔ Marked a k := by
  unfold Marked
  rw [give_none_unusable]
  constructor
  · rintro (hmark | ⟨c', d', hpair, hpending⟩)
    · split_ifs at hmark with hand
      · exact .inr ⟨c, d, hand.2, hand.1⟩
      · exact .inl hmark
    · rw [Pairs.give_pair] at hpair
      rw [Pairs.give_pending] at hpending
      split_ifs at hpair hpending
      exact .inr ⟨c', d', hpair, hpending⟩
  · rintro (hmark | ⟨c', d', hpair, hpending⟩)
    · exact .inl (by rw [hmark, ite_self])
    · by_cases hcd : c' = c ∧ d' = d
      · obtain ⟨rfl, rfl⟩ := hcd
        exact .inl (if_pos ⟨hpending, hpair⟩)
      · refine .inr ⟨c', d', ?_, ?_⟩
        · rw [Pairs.give_pair, if_neg hcd, hpair]
        · rw [Pairs.give_pending, if_neg fun hand => hcd hand.1, hpending]

lemma give_some_eq (hnone : a.pair c d = none) (k : ChanCirc) :
    a.give c d (some k) = (a.setPair c d (some k)).mark k false := by
  unfold Pairs.give Pairs.change
  rw [if_neg fun hand => hand.2 hnone, hnone, if_neg nofun]
  rfl

/-- **An identifier for which nothing is pending** is given to a side that has none. -/
lemma marked_give_some (howed : a.Owed) (hnone : a.pair c d = none) (hmark : ¬ Marked a k₀) :
    Marked (a.give c d (some k₀)) k ↔ Marked a k := by
  have hpending : a.pending c d ≠ true := fun hp => howed c d hp hnone
  have hunusable : (a.give c d (some k₀)).unusable k = a.unusable k := by
    rw [give_some_eq hnone]
    change update a.unusable k₀ false k = _
    rw [update_apply]
    split_ifs with heq
    · rw [heq]
      exact (Bool.eq_false_iff.mpr fun hu => hmark (.inl hu)).symm
    · rfl
  unfold Marked
  rw [hunusable]
  refine or_congr_right (exists_congr fun c' => exists_congr fun d' => ?_)
  rw [Pairs.give_pending, if_neg fun hand => hand.2 hnone, Pairs.give_pair]
  split_ifs with hcd
  · rw [hcd.1, hcd.2, hnone]
    exact iff_of_false (fun hand => hpending hand.2) nofun
  · rfl

variable {pending : Bool}

lemma noted_pair (h : a.Noted k pending a') : a'.pair = a.pair := by
  rcases h with ⟨c, d, -, -, rfl⟩ | ⟨-, rfl⟩
  · rfl
  · rfl

/-- What is noted is noted for the circuits that have the identifier. -/
lemma noted_pending (h : a.Noted k pending a') (c : ℕ) (d : CellDirection) :
    a'.pending c d = a.pending c d ∨ a.pair c d = some k ∧ a'.pending c d = pending := by
  rcases h with ⟨c', d', hpair, -, rfl⟩ | ⟨-, rfl⟩
  · rw [show (a.setPending c' d' pending).pending c d =
      _ from update_update_apply a.pending c' c d' d pending]
    split_ifs with hcd
    · exact .inr ⟨by rw [hcd.1, hcd.2, hpair], rfl⟩
    · exact .inl rfl
  · exact .inl rfl

/-- **A destroy cell is noted** as pending, or as written for another identifier. -/
lemma marked_noted (h : a.Noted k pending a') (hk : pending = true ∨ k' ≠ k) (hmark : Marked a k') :
    Marked a' k' := by
  rcases hmark with hmark | ⟨c, d, hpair, hpending⟩
  · refine .inl ?_
    rcases h with ⟨-, -, -, -, rfl⟩ | ⟨-, rfl⟩
    · exact hmark
    · change update a.unusable k pending k' = true
      rw [update_apply]
      split_ifs with heq
      · exact hk.resolve_right (not_not.mpr heq)
      · exact hmark
  · refine .inr ⟨c, d, by rw [noted_pair h, hpair], ?_⟩
    rcases noted_pending h c d with heq | ⟨hpair', heq⟩
    · exact heq.trans hpending
    · exact heq.trans (hk.resolve_right fun hne => hne (some.inj (hpair.symm.trans hpair')))

lemma marked_of_noted_true (h : a.Noted k true a') : Marked a' k := by
  rcases h with ⟨c, d, hpair, -, rfl⟩ | ⟨-, rfl⟩
  · refine .inr ⟨c, d, hpair, ?_⟩
    rw [show (a.setPending c d true).pending c d =
      _ from update_update_apply a.pending c c d d true]
    exact if_pos ⟨rfl, rfl⟩
  · exact .inl (update_self _ _ _)

lemma pending_of_noted_false (h : a.Noted k false a') (hp : a'.pending c d = true) :
    a.pending c d = true := by
  rcases noted_pending h c d with heq | ⟨-, heq⟩
  · exact heq.symm.trans hp
  · exact absurd (heq.symm.trans hp) Bool.false_ne_true

/-- **An identifier is in use** if a circuit has it or it is marked. -/
lemma look_ne_none_iff (h : CircidOk s a) :
    s.look k ≠ none ↔ (∃ c, a.Has c k) ∨ a.unusable k = true := by
  have hfits := h.fits k
  rcases hlook : s.look k with _ | _ | c
  · rw [hlook] at hfits
    refine iff_of_false (fun hne => hne rfl) ?_
    rintro (⟨c, hc⟩ | hmark)
    · exact hfits.1 c hc
    · exact absurd (hfits.2.symm.trans hmark) nofun
  · rw [hlook] at hfits
    exact iff_of_true nofun (.inr hfits.2)
  · rw [hlook] at hfits
    exact iff_of_true nofun (.inl ⟨c, (hfits.1 c).mpr rfl⟩)

lemma look_ne_none_of_marked (h : CircidOk s a) (hmark : Marked a k) : s.look k ≠ none := by
  rw [look_ne_none_iff h]
  rcases hmark with hmark | ⟨c, d, hpair, -⟩
  · exact .inr hmark
  · exact .inl ⟨c, d, hpair⟩

/-- What the code says about the use of an identifier. -/
lemma exists_circuitIdInUseOnChannel (h : CircidOk s a) (id : CircId) (ch : ChanId) :
    ∃ s' n, circuitIdInUseOnChannel s id ch = some (s', n) ∧ s'.circs = s.circs ∧ CircidOk s' a ∧
      (n ≠ 0 ↔ s.look (ch, id) ≠ none) := by
  obtain ⟨s', r, hs', hcircs, hok, -, rfl⟩ := exists_circuitGetByCircidChannelImpl h id ch
  refine ⟨s', if (s.look (ch, id)).join.isSome then 1 else if (s.look (ch, id)).isSome then 2
    else 0, ?_, hcircs, hok,
    ?_⟩
  · rw [circuitIdInUseOnChannel, hs']
    rfl
  · rcases s.look (ch, id) with _ | _ | c
    · exact iff_of_false (fun hne => hne rfl) fun hne => hne rfl
    · exact iff_of_true nofun nofun
    · exact iff_of_true nofun nofun

end Marks

/-! ### What is drawn -/

section Draws

variable (cfg : ChanId → ChanConfig) (ch : ChanId)

/-- The size of the half of the identifiers of a channel. -/
def rangeSize : ℕ := if (cfg ch).wideCircIds then 2 ^ 31 else 2 ^ 15

/-- The identifiers that this side of a channel chooses: they are not 0, fit the channel and have
its high bit. -/
def IsChosen (id : CircId) : Prop :=
  match (cfg ch).circIdType with
  | .lower => 0 < id.toNat ∧ id.toNat < rangeSize cfg ch
  | .higher => rangeSize cfg ch < id.toNat ∧ id.toNat < 2 * rangeSize cfg ch
  | .neither => False

lemma exists_rangeSize_eq : ∃ k, rangeSize cfg ch = 2 ^ k ∧ (maxRange cfg ch).toNat = 2 ^ k ∧
    (maxRange cfg ch - 1).toNat = 2 ^ k - 1 := by
  unfold rangeSize maxRange
  cases (cfg ch).wideCircIds with
  | false => exact ⟨15, rfl, rfl, rfl⟩
  | true => exact ⟨31, rfl, rfl, rfl⟩

lemma toNat_low (r : CircId) :
    (r &&& (maxRange cfg ch - 1)).toNat = r.toNat % rangeSize cfg ch := by
  obtain ⟨k, hsize, -, hmask⟩ := exists_rangeSize_eq cfg ch
  rw [UInt32.toNat_and, hmask, hsize, Nat.and_two_pow_sub_one_eq_mod]

lemma toNat_or_highBit {x : CircId} (hx : x.toNat < rangeSize cfg ch) :
    (x ||| highBit cfg ch).toNat = x.toNat + if (cfg ch).circIdType = .higher then rangeSize cfg ch
      else 0 := by
  obtain ⟨k, hsize, hrange, -⟩ := exists_rangeSize_eq cfg ch
  rw [UInt32.toNat_or, highBit]
  split_ifs
  · have hadd := Nat.two_pow_add_eq_or_of_lt (hsize ▸ hx) 1
    rw [mul_one] at hadd
    rw [hrange, hsize, Nat.or_comm, ← hadd, add_comm]
  · exact Nat.or_zero _

/-- **What is drawn is one of the identifiers to choose from.** -/
lemma isChosen_draw {r : CircId} (htype : (cfg ch).circIdType ≠ .neither)
    (hr : r &&& (maxRange cfg ch - 1) ≠ 0) :
    IsChosen cfg ch ((r &&& (maxRange cfg ch - 1)) ||| highBit cfg ch) := by
  obtain ⟨k, hsize, -, -⟩ := exists_rangeSize_eq cfg ch
  have hpos : 0 < rangeSize cfg ch := hsize ▸ Nat.two_pow_pos k
  have hlow := toNat_low cfg ch r
  have hlt : (r &&& (maxRange cfg ch - 1)).toNat < rangeSize cfg ch := by
    rw [hlow]
    exact Nat.mod_lt _ hpos
  have hne : (r &&& (maxRange cfg ch - 1)).toNat ≠ 0 := fun hzero => hr (UInt32.toNat_inj.mp hzero)
  have hor := toNat_or_highBit cfg ch hlt
  unfold IsChosen
  cases htypeEq : (cfg ch).circIdType with
  | lower =>
    rw [htypeEq, if_neg nofun] at hor
    dsimp only
    omega
  | higher =>
    rw [htypeEq, if_pos rfl] at hor
    dsimp only
    omega
  | neither => exact absurd htypeEq htype

/-- **Each identifier to choose from can be drawn.** -/
lemma draw_of_isChosen {id : CircId} (hid : IsChosen cfg ch id) :
    (cfg ch).circIdType ≠ .neither ∧ id &&& (maxRange cfg ch - 1) ≠ 0 ∧
      (id &&& (maxRange cfg ch - 1)) ||| highBit cfg ch = id := by
  obtain ⟨k, hsize, -, -⟩ := exists_rangeSize_eq cfg ch
  have hpos : 0 < rangeSize cfg ch := hsize ▸ Nat.two_pow_pos k
  have hlow := toNat_low cfg ch id
  have hlt : (id &&& (maxRange cfg ch - 1)).toNat < rangeSize cfg ch := by
    rw [hlow]
    exact Nat.mod_lt _ hpos
  have hor := toNat_or_highBit cfg ch hlt
  unfold IsChosen at hid
  cases htypeEq : (cfg ch).circIdType with
  | lower =>
    rw [htypeEq] at hid
    rw [htypeEq, if_neg nofun, add_zero] at hor
    have hmod := Nat.mod_eq_of_lt hid.2
    refine ⟨nofun, fun hzero => ?_, UInt32.toNat_inj.mp ?_⟩
    · rw [hzero] at hlow
      have hcontra : (0 : CircId).toNat = 0 := rfl
      omega
    · omega
  | higher =>
    rw [htypeEq] at hid
    rw [htypeEq, if_pos rfl] at hor
    have hmod : id.toNat % rangeSize cfg ch = id.toNat - rangeSize cfg ch := by
      rw [Nat.mod_eq_sub_mod (le_of_lt hid.1), Nat.mod_eq_of_lt (by omega)]
    refine ⟨nofun, fun hzero => ?_, UInt32.toNat_inj.mp ?_⟩
    · rw [hzero] at hlow
      have hcontra : (0 : CircId).toNat = 0 := rfl
      omega
    · omega
  | neither =>
    rw [htypeEq] at hid
    exact hid.elim

variable {cfg ch} {s s' : CircidState} {a : Pairs} {id : CircId}

lemma IsChosen.ne_zero (hid : IsChosen cfg ch id) : id ≠ 0 := by
  rintro rfl
  refine (draw_of_isChosen cfg ch hid).2.1 (UInt32.toNat_inj.mp ?_)
  rw [toNat_low]
  exact Nat.zero_mod _

lemma IsChosen.wireCircId_eq (hid : IsChosen cfg ch id) :
    wireCircId (cfg ch).wideCircIds id = id := by
  unfold wireCircId
  split_ifs with hwide
  · rfl
  · have hlt : id.toNat < 2 ^ 16 := by
      unfold IsChosen rangeSize at hid
      rw [if_neg hwide] at hid
      cases htype : (cfg ch).circIdType with
      | lower =>
        rw [htype] at hid
        dsimp only at hid
        omega
      | higher =>
        rw [htype] at hid
        dsimp only at hid
        omega
      | neither =>
        rw [htype] at hid
        exact hid.elim
    refine UInt32.toNat_inj.mp ?_
    rw [UInt16.toNat_toUInt32, UInt32.toNat_toUInt16]
    exact Nat.mod_eq_of_lt hlt

lemma wireCircId_wireCircId (wide : Bool) (id : CircId) :
    wireCircId wide (wireCircId wide id) = wireCircId wide id := by
  unfold wireCircId
  split_ifs
  · rfl
  · refine UInt32.toNat_inj.mp ?_
    rw [UInt16.toNat_toUInt32, UInt32.toNat_toUInt16, UInt16.toNat_toUInt32]
    exact Nat.mod_eq_of_lt (UInt16.toNat_lt _)

/-- **The draws** end with an identifier that is not in use, or with none. -/
lemma drawCircId_spec (htype : (cfg ch).circIdType ≠ .neither) {rand : List CircId} {attempts : ℕ}
    (h : CircidOk s a) (hdraw : drawCircId cfg ch rand attempts s = some (s', id)) :
    s'.circs = s.circs ∧ CircidOk s' a ∧
    (id = 0 ∨ IsChosen cfg ch id ∧ s'.look (ch, id) = none) := by
  induction rand generalizing attempts s with
  | nil =>
    cases attempts with
    | zero =>
      obtain ⟨rfl, rfl⟩ := Prod.mk.inj (some.inj hdraw)
      exact ⟨rfl, h, .inl rfl⟩
    | succ attempts => cases hdraw
  | cons r rand ih =>
    cases attempts with
    | zero =>
      obtain ⟨rfl, rfl⟩ := Prod.mk.inj (some.inj hdraw)
      exact ⟨rfl, h, .inl rfl⟩
    | succ attempts =>
      rw [drawCircId] at hdraw
      split_ifs at hdraw with hzero
      · exact ih h hdraw
      · obtain ⟨s₁, n, hs₁, hcircs, hok, hn⟩ := exists_circuitIdInUseOnChannel h
          ((r &&& (maxRange cfg ch - 1)) ||| highBit cfg ch) ch
        dsimp only at hdraw
        rw [hs₁] at hdraw
        change (if n ≠ 0 then drawCircId cfg ch rand attempts s₁ else some (s₁, _)) = _ at hdraw
        split_ifs at hdraw with huse
        · obtain ⟨hcircs', hok', hid⟩ := ih hok hdraw
          exact ⟨hcircs'.trans hcircs, hok', hid⟩
        · obtain ⟨rfl, rfl⟩ := Prod.mk.inj (some.inj hdraw)
          refine ⟨hcircs, hok, .inr ⟨isChosen_draw cfg ch htype hzero, ?_⟩⟩
          by_contra hne
          have huse' : s.look _ ≠ none := (look_ne_none_iff h).mpr ((look_ne_none_iff hok).mp hne)
          exact huse (hn.mpr huse')

/-- **The identifier that is chosen** is not in use, or there is none. -/
lemma getUniqueCircIdByChan_spec {rand : List CircId} (h : CircidOk s a)
    (hget : getUniqueCircIdByChan cfg s ch rand = some (s', id)) :
    s'.circs = s.circs ∧ CircidOk s' a ∧
    (id = 0 ∨ IsChosen cfg ch id ∧ s'.look (ch, id) = none) := by
  unfold getUniqueCircIdByChan at hget
  split_ifs at hget with htype
  · obtain ⟨rfl, rfl⟩ := Prod.mk.inj (some.inj hget)
    exact ⟨rfl, h, .inl rfl⟩
  · exact drawCircId_spec htype h hget

/-- An identifier to choose from that is not in use is chosen when it is drawn. -/
lemma exists_getUniqueCircIdByChan (h : CircidOk s a) (hid : IsChosen cfg ch id)
    (hfree : s.look (ch, id) = none) : ∃ s', getUniqueCircIdByChan cfg s ch [id] = some
      (s', id) := by
  obtain ⟨htype, hlow, heq⟩ := draw_of_isChosen cfg ch hid
  obtain ⟨s', n, hs', -, -, hn⟩ := exists_circuitIdInUseOnChannel h id ch
  have hzero : n = 0 := by
    by_contra hne
    exact hn.mp hne hfree
  refine ⟨s', ?_⟩
  rw [getUniqueCircIdByChan, if_neg htype, maxCircidAttempts, drawCircId, if_neg hlow]
  dsimp only
  rw [heq, hs', hzero]
  rfl

end Draws

/-! ### The system -/

section System

variable {cfg : ChanId → ChanConfig} {s s' : IdSystem} {a : Pairs} {ch : ChanId} {c : ℕ}
  {d : CellDirection} {circids : CircidState} {id : CircId}

/-- The identifiers whose destroy cells wait in multiplexers are in use, each cell waits once, and
the circuits have identifiers as they are on the wire, no two sides the same. -/
structure IdsOk (cfg : ChanId → ChanConfig) (s : IdSystem) (a : Pairs) : Prop where
  ok : CircidOk s.circids a
  owed : a.Owed
  single : Single a
  wire : ∀ c d ch id, a.pair c d = some (ch, id) → wireCircId (cfg ch).wideCircIds id = id
  queued : ∀ ch, ∀ id ∈ s.destroyCellQueue ch, Marked a (ch, id)
  nodup : ∀ ch, (s.destroyCellQueue ch).Nodup

/-- Nothing is pending for a circuit: it leaves the channel as soon as a destroy cell is sent. -/
def Calm (a : Pairs) : Prop := ∀ c d, a.pending c d = false

/-- The state between events. -/
def SystemOk (cfg : ChanId → ChanConfig) (s : IdSystem) : Prop := ∃ a, IdsOk cfg s a ∧ Calm a

lemma IdsOk.congr (h : IdsOk cfg s a) (hcircids : s'.circids = s.circids)
    (hqueue : s'.destroyCellQueue = s.destroyCellQueue) : IdsOk cfg s' a where
  ok := hcircids ▸ h.ok
  owed := h.owed
  single := h.single
  wire := h.wire
  queued := hqueue ▸ h.queued
  nodup := hqueue ▸ h.nodup

lemma IdsOk.of_circids (h : IdsOk cfg s a) (hok : CircidOk circids a) :
    IdsOk cfg { s with circids := circids } a :=
  ⟨hok, h.owed, h.single, h.wire, h.queued, h.nodup⟩

/-- What a destroy cell that is written, or another cell, leaves. -/
structure Written (cfg : ChanId → ChanConfig) (s' : IdSystem) (a a' : Pairs) : Prop where
  ok : IdsOk cfg s' a'
  pair : a'.pair = a.pair
  pending : ∀ c d, a'.pending c d = true → a.pending c d = true

lemma channelWriteEntry_other {q : CellQueueEntry WireCell} (hq : isDestroyCell q = none)
    (hwrite : channelWriteEntry s ch q = some s') :
    s'.circids = s.circids ∧ s'.destroyCellQueue = s.destroyCellQueue := by
  have hnote : noteWritten s ch q = some s := by rw [noteWritten, hq]
  unfold channelWriteEntry at hwrite
  rw [hnote, ite_self, bind_some] at hwrite
  obtain ⟨channels, -, rfl⟩ := map_eq_some_iff.mp hwrite
  exact ⟨rfl, rfl⟩

/-- **A destroy cell is written**, which has just left the multiplexer. -/
lemma IdsOk.writeDestroy (h : IdsOk cfg s a) {queue : List CircId}
    (hqueue : s.destroyCellQueue ch = id :: queue) {last : ChanId → Bool}
    (hwrite : channelWriteEntry
      { s with destroyCellQueue := update s.destroyCellQueue ch queue, lastCellWasDestroy := last }
      ch (.packed (some ⟨id, true⟩)) = some s') : ∃ a', Written cfg s' a a' := by
  have hnodup := h.nodup ch
  rw [hqueue, nodup_cons] at hnodup
  have hmem : ∀ ch', ∀ id' ∈ update s.destroyCellQueue ch queue ch',
      id' ∈ s.destroyCellQueue ch' ∧ (ch', id') ≠ (ch, id) := by
    intro ch' id' hid'
    rw [update_apply] at hid'
    split_ifs at hid' with heq
    · rw [heq, hqueue]
      refine ⟨mem_cons_of_mem id hid', fun hpair => hnodup.1 ?_⟩
      rw [← (Prod.mk.inj hpair).2]
      exact hid'
    · exact ⟨hid', fun hpair => heq (Prod.mk.inj hpair).1⟩
  have hnodup' : ∀ ch', (update s.destroyCellQueue ch queue ch').Nodup := by
    intro ch'
    rw [update_apply]
    split_ifs
    · exact hnodup.2
    · exact h.nodup ch'
  obtain ⟨circids, a', hnote, hnoted, hok'⟩ := exists_channelNoteDestroyNotPending h.ok ch id
  unfold channelWriteEntry at hwrite
  obtain ⟨s₁, hs₁, hwrite⟩ := bind_eq_some_iff.mp hwrite
  obtain ⟨channels, -, rfl⟩ := map_eq_some_iff.mp hwrite
  split_ifs at hs₁
  · obtain rfl := some.inj hs₁
    exact ⟨a,
      ⟨h.ok, h.owed, h.single, h.wire,
        fun ch' id' hid' => h.queued ch' id' (hmem ch' id' hid').1, hnodup'⟩,
      rfl, fun _ _ hp => hp⟩
  · have hcircids : s₁ = { s with
        circids := circids
        destroyCellQueue := update s.destroyCellQueue ch queue
        lastCellWasDestroy := last } := by
      have hnoteEq : noteWritten
          { s with destroyCellQueue := update s.destroyCellQueue ch queue, lastCellWasDestroy :=
            last } ch
          (.packed (some ⟨id, true⟩)) =
            (channelNoteDestroyNotPending s.circids ch id).map fun circids =>
            { s with
              circids := circids
              destroyCellQueue := update s.destroyCellQueue ch queue
              lastCellWasDestroy := last } := rfl
      rw [hnoteEq, hnote] at hs₁
      exact (some.inj hs₁).symm
    rw [hcircids]
    refine ⟨a', ⟨hok', h.owed.noted hnoted, h.single.congr (noted_pair hnoted), ?_, ?_, hnodup'⟩,
      noted_pair hnoted, fun _ _ hp => pending_of_noted_false hnoted hp⟩
    · intro c d ch' id' hpair
      rw [noted_pair hnoted] at hpair
      exact h.wire c d ch' id' hpair
    · intro ch' id' hid'
      obtain ⟨hold, hne⟩ := hmem ch' id' hid'
      exact marked_noted hnoted (.inr hne) (h.queued ch' id' hold)

/-- **One cell of a multiplexer is written.** -/
lemma IdsOk.flushOne (h : IdsOk cfg s a) {active : Option CircId}
    (hflush : flushOne s ch active = some s') : ∃ a', Written cfg s' a a' := by
  have hother : ∀ (last : ChanId → Bool) (circId : CircId),
      channelWriteEntry { s with lastCellWasDestroy := last } ch (.packed (some ⟨circId, false⟩)) =
        some s' → ∃ a', Written cfg s' a a' := by
    intro last circId hwrite
    obtain ⟨hcircids, hqueue⟩ := channelWriteEntry_other rfl hwrite
    exact ⟨a, h.congr hcircids hqueue, rfl, fun _ _ hp => hp⟩
  unfold CircIds.flushOne at hflush
  split at hflush
  · rename_i id queue hqueue
    exact h.writeDestroy hqueue hflush
  · rename_i id queue circId hqueue
    split_ifs at hflush
    · exact hother _ circId hflush
    · exact h.writeDestroy hqueue hflush
  · rename_i circId hqueue
    exact hother _ circId hflush
  · obtain rfl := some.inj hflush
    exact ⟨a, h, rfl, fun _ _ hp => hp⟩

variable {now : ℕ} {primed : Option (Option CircId)}

/-- **A destroy cell is sent** for an identifier for which none is pending. -/
lemma IdsOk.sendDestroy (h : IdsOk cfg s a)
    (hwire : wireCircId (cfg ch).wideCircIds id = id) (hmark : ¬ Marked a (ch, id))
    (hsend : channelSendDestroy cfg s now ch id primed = some s') :
    ∃ a', IdsOk cfg s' a' ∧ a'.pair = a.pair ∧
      ∀ c d, a'.pending c d = true → a.pending c d = true ∨ a.pair c d = some (ch, id) := by
  unfold channelSendDestroy at hsend
  split_ifs at hsend
  · obtain rfl := some.inj hsend
    exact ⟨a, h, rfl, fun _ _ hp => .inl hp⟩
  · obtain rfl := some.inj hsend
    exact ⟨a, h, rfl, fun _ _ hp => .inl hp⟩
  · obtain ⟨circids, a₁, hnote, hnoted, hok₁⟩ := exists_channelNoteDestroyPending h.ok now ch id
    rw [hnote, bind_eq_bind, bind_some, hwire] at hsend
    have hnotMem : id ∉ s.destroyCellQueue ch := fun hmem => hmark (h.queued ch id hmem)
    have hok : IdsOk cfg { s with
        circids := circids
        destroyCellQueue := update s.destroyCellQueue ch (s.destroyCellQueue ch ++ [id]) } a₁ := by
      refine ⟨hok₁, h.owed.noted hnoted, h.single.congr (noted_pair hnoted), ?_, ?_, ?_⟩
      · intro c d ch' id' hpair
        rw [noted_pair hnoted] at hpair
        exact h.wire c d ch' id' hpair
      · intro ch' id' hid'
        change id' ∈ update s.destroyCellQueue ch _ ch' at hid'
        rw [update_apply] at hid'
        split_ifs at hid' with heq
        · rcases mem_append.mp hid' with hid' | hid'
          · exact marked_noted hnoted (.inl rfl) (h.queued ch' id' (heq ▸ hid'))
          · rw [heq, mem_singleton.mp hid']
            exact marked_of_noted_true hnoted
        · exact marked_noted hnoted (.inl rfl) (h.queued ch' id' hid')
      · intro ch'
        change (update s.destroyCellQueue ch _ ch').Nodup
        rw [update_apply]
        split_ifs
        · exact nodup_append.mpr ⟨h.nodup ch, nodup_singleton id, fun x hx y hy => by
            rintro rfl
            exact hnotMem (mem_singleton.mp hy ▸ hx)⟩
        · exact h.nodup ch'
    have hpending : ∀ c d, a₁.pending c d = true →
        a.pending c d = true ∨ a.pair c d = some (ch, id) :=
      fun c d hp => (noted_pending hnoted c d).imp (fun heq => heq.symm.trans hp) And.left
    cases primed with
    | none =>
      obtain rfl := some.inj hsend
      exact ⟨a₁, hok, noted_pair hnoted, hpending⟩
    | some active =>
      obtain ⟨a₂, hwritten⟩ := hok.flushOne hsend
      exact ⟨a₂, hwritten.ok, hwritten.pair.trans (noted_pair hnoted),
        fun c d hp => hpending c d (hwritten.pending c d hp)⟩

/-- **A circuit leaves the channel of one of its sides.**  Nothing is pending for this side then. -/
lemma IdsOk.unlinkSide (h : IdsOk cfg s a) (hunlink : unlinkSide s now c d = some s') :
    IdsOk cfg s' (a.give c d none) ∧
    ∀ c' d', (s'.circids.side c' d').isSome = (s.circids.side c' d').isSome := by
  obtain ⟨circids, hset, rfl⟩ := map_eq_some_iff.mp hunlink
  obtain ⟨e, he⟩ : ∃ e, s.circids.side c d = some e := by
    unfold circuitSetSide at hset
    obtain ⟨e, he, -⟩ := bind_eq_some_iff.mp hset
    exact ⟨e, he⟩
  obtain ⟨circids', hset', hok, hsome⟩ :=
    exists_circuitSetSide h.ok he now 0 none nofun (h.single.parts h.ok _)
  obtain rfl := some.inj (hset'.symm.trans hset)
  refine ⟨⟨hok, h.owed.give c d none, h.single.give_none c d, fun c' d' ch id hpair => ?_,
    fun ch id hid => ?_, h.nodup⟩,
    hsome⟩
  · rw [Pairs.give_pair] at hpair
    split_ifs at hpair
    exact h.wire c' d' ch id hpair
  · exact marked_give_none.mpr (h.queued ch id hid)

/-- What is pending when a circuit leaves a channel. -/
lemma calm_give_none (howed : a.Owed) (h : ∀ c' d', a.pending c' d' = true → c' = c ∧ d' = d) :
    Calm (a.give c d none) := by
  intro c' d'
  rw [Pairs.give_pending]
  split_ifs with hcd
  · rfl
  · rw [Bool.eq_false_iff]
    intro hp
    obtain ⟨rfl, rfl⟩ := h c' d' hp
    exact hcd ⟨⟨rfl, rfl⟩, howed _ _ hp⟩

lemma not_marked_of_pair (h : IdsOk cfg s a) (hcalm : Calm a) {k : ChanCirc}
    (hpair : a.pair c d = some k) : ¬ Marked a k := by
  rintro (hmark | ⟨c', d', -, hp⟩)
  · have hfits := h.ok.fits k
    rw [h.ok.look_of_has ⟨d, hpair⟩] at hfits
    exact absurd (hfits.2.symm.trans hmark) nofun
  · exact absurd ((hcalm c' d').symm.trans hp) nofun

section

variable (h : SystemOk cfg s)

include h

/-- **A side of a circuit is closed.** -/
lemma SystemOk.closeSide (hclose : closeSide cfg s now c d primed = some s') : SystemOk cfg s' := by
  obtain ⟨a, hids, hcalm⟩ := h
  unfold CircIds.closeSide at hclose
  split at hclose
  · obtain rfl := some.inj hclose
    exact ⟨a, hids, hcalm⟩
  · rename_i e he
    split at hclose
    · obtain rfl := some.inj hclose
      exact ⟨a, hids, hcalm⟩
    · rename_i ch hch
      obtain ⟨s₁, hsend, hunlink⟩ := bind_eq_some_iff.mp hclose
      have hpair : a.pair c d = some (ch, e.circId) := by
        rw [← hids.ok.pair, held_eq he, hch]
        rfl
      obtain ⟨a₁, hids₁, hpair₁, hpending⟩ := hids.sendDestroy (hids.wire c d ch e.circId hpair)
        (not_marked_of_pair hids hcalm hpair) hsend
      refine ⟨_, (hids₁.unlinkSide hunlink).1, calm_give_none hids₁.owed fun c' d' hp => ?_⟩
      rcases hpending c' d' hp with hp | hpair'
      · exact absurd ((hcalm c' d').symm.trans hp) nofun
      · exact hids.single c d c' d' _ hpair hpair'

lemma SystemOk.unlinkSide (hunlink : unlinkSide s now c d = some s') : SystemOk cfg s' := by
  obtain ⟨a, hids, hcalm⟩ := h
  refine ⟨_, (hids.unlinkSide hunlink).1, calm_give_none hids.owed fun c' d' hp => ?_⟩
  exact absurd ((hcalm c' d').symm.trans hp) nofun

/-- A circuit is marked in the list of circuits. -/
lemma SystemOk.setMarked (c : ℕ) :
    SystemOk cfg { s with circids := { s.circids with
      circs := s.circids.circs.set c
        ((s.circids.circ c).map fun circ => { circ with markedForClose := true }) } } := by
  obtain ⟨a, hids, hcalm⟩ := h
  refine ⟨a, hids.of_circids ?_, hcalm⟩
  cases hcirc : s.circids.circ c with
  | none =>
    have hsame : s.circids.circs.set c none = s.circids.circs := by
      rcases hget : s.circids.circs[c]? with _ | o
      · exact set_eq_of_length_le (List.getElem?_eq_none_iff.mp hget)
      · have hnone : o = none := by
          unfold CircidState.circ at hcirc
          rw [hget] at hcirc
          exact hcirc
        obtain ⟨hlt, heq⟩ := List.getElem?_eq_some_iff.mp hget
        rw [← hnone, ← heq, set_getElem_self]
    rw [map_none, hsame]
    exact hids.ok
  | some circ => exact hids.ok.markForClose hcirc

/-- **A circuit is marked for close.** -/
lemma SystemOk.circuitMarkForClose {primedN primedP : Option (Option CircId)}
    (hmark : circuitMarkForClose cfg s now c primedN primedP = some s') : SystemOk cfg s' := by
  unfold CircIds.circuitMarkForClose at hmark
  obtain ⟨circ, -, hmark⟩ := bind_eq_some_iff.mp hmark
  split_ifs at hmark
  · obtain rfl := some.inj hmark
    exact h
  · obtain ⟨s₁, hs₁, hmark⟩ := bind_eq_some_iff.mp hmark
    obtain ⟨s₂, hs₂, hmark⟩ := bind_eq_some_iff.mp hmark
    obtain rfl := some.inj hmark
    exact ((h.closeSide hs₁).closeSide hs₂).setMarked c

/-- **A side that has no channel gets an identifier** that is not in use. -/
lemma SystemOk.setSide (hnone : s.circids.held c d = none) (hfree : s.circids.look (ch, id) = none)
    (hwire : wireCircId (cfg ch).wideCircIds id = id)
    (hset : circuitSetSide s.circids now c d id (some ch) = some circids) :
    SystemOk cfg { s with circids := circids } := by
  obtain ⟨a, hids, hcalm⟩ := h
  obtain ⟨e, he⟩ : ∃ e, s.circids.side c d = some e := by
    unfold circuitSetSide at hset
    obtain ⟨e, he, -⟩ := bind_eq_some_iff.mp hset
    exact ⟨e, he⟩
  have hunused : ¬ ((∃ c, a.Has c (ch, id)) ∨ a.unusable (ch, id) = true) := fun hor =>
    (look_ne_none_iff hids.ok).mpr hor hfree
  have hhas : ∀ c, ¬ a.Has c (ch, id) := fun c hc => hunused (.inl ⟨c, hc⟩)
  have hmark : ¬ Marked a (ch, id) := fun hmark => look_ne_none_of_marked hids.ok hmark hfree
  have hpairNone : a.pair c d = none := by rw [← hids.ok.pair, hnone]
  have hfreeFor : ∀ ch' ∈ some ch, s.circids.FreeFor c (ch', id) := by
    intro ch' hch' c' d' hheld
    obtain rfl := some.inj hch'
    rw [hids.ok.pair] at hheld
    exact absurd ⟨d', hheld⟩ (hhas c')
  obtain ⟨circids', hset', hok, -⟩ := exists_circuitSetSide hids.ok he now id (some ch) hfreeFor
    (hids.single.parts hids.ok _)
  obtain rfl := some.inj (hset'.symm.trans hset)
  rw [map_some] at hok
  refine ⟨a.give c d (some (ch, id)),
    ⟨hok, hids.owed.give _ _ _, hids.single.give ?_, fun c' d' ch' id' hpair => ?_,
    fun ch' id' hid' => ?_, hids.nodup⟩, fun c' d' => ?_⟩
  · intro k hk
    obtain rfl := some.inj hk
    exact hhas
  · rw [Pairs.give_pair] at hpair
    split_ifs at hpair
    · obtain ⟨rfl, rfl⟩ := Prod.mk.inj (some.inj hpair)
      exact hwire
    · exact hids.wire c' d' ch' id' hpair
  · exact (marked_give_some hids.owed hpairNone hmark).mpr (hids.queued ch' id' hid')
  · rw [Pairs.give_pending]
    split_ifs
    · rfl
    · exact hcalm c' d'

lemma SystemOk.of_circids
    (hok : ∀ a, CircidOk s.circids a → CircidOk circids a) :
    SystemOk cfg { s with circids := circids } := by
  obtain ⟨a, hids, hcalm⟩ := h
  exact ⟨a, hids.of_circids (hok a hids.ok), hcalm⟩

end

lemma held_of_circ {circ : CircidCircuit} (hcirc : circids.circ c = some circ) :
    circids.held c .dirOut = circ.n.chan.map (·, circ.n.circId) := by
  have hside : circids.side c .dirOut = some circ.n := by
    unfold CircidState.side
    rw [hcirc]
    rfl
  exact held_eq hside

section

variable (h : SystemOk cfg s)

include h

/-- **A circuit gets an identifier that was drawn.** -/
lemma SystemOk.deliverCreateCell {rand : List CircId}
    (hdeliver : circuitDeliverCreateCell cfg s now c ch rand = some s') : SystemOk cfg s' := by
  unfold circuitDeliverCreateCell at hdeliver
  obtain ⟨circ, hcirc, hdeliver⟩ := bind_eq_some_iff.mp hdeliver
  split_ifs at hdeliver with hguard
  rw [not_or, not_not] at hguard
  obtain ⟨⟨circids, id⟩, hget, hdeliver⟩ := bind_eq_some_iff.mp hdeliver
  have hcircs : circids.circs = s.circids.circs := by
    obtain ⟨a, hids, -⟩ := h
    exact (getUniqueCircIdByChan_spec hids.ok hget).1
  have hlookup : SystemOk cfg { s with circids := circids } :=
    h.of_circids fun a hok => (getUniqueCircIdByChan_spec hok hget).2.1
  dsimp only at hdeliver
  split_ifs at hdeliver with hzero
  · obtain rfl := some.inj hdeliver
    exact hlookup
  · obtain ⟨circids', hset, hdeliver⟩ := bind_eq_some_iff.mp hdeliver
    obtain rfl := some.inj hdeliver
    obtain ⟨hchosen, hfree⟩ : IsChosen cfg ch id ∧ circids.look (ch, id) = none := by
      obtain ⟨a, hids, -⟩ := h
      exact (getUniqueCircIdByChan_spec hids.ok hget).2.2.resolve_left hzero
    refine hlookup.setSide (d := .dirOut) ?_ hfree hchosen.wireCircId_eq hset
    change circids.held c .dirOut = none
    rw [held_eq_of_circs hcircs, held_of_circ hcirc, hguard.2]
    rfl

lemma SystemOk.newCircuit (isOrigin : Bool) :
    SystemOk cfg { s with circids := circidCircuitNew s.circids isOrigin } :=
  h.of_circids fun _ hok => hok.newCircuit isOrigin

/-- **A create cell arrives.** -/
lemma SystemOk.processCreateCell {circId : CircId} {refused : Bool}
    (hprocess : commandProcessCreateCell cfg s now ch circId refused primed = some s') :
    SystemOk cfg s' := by
  have hwire : wireCircId (cfg ch).wideCircIds (wireCircId (cfg ch).wideCircIds circId) =
      wireCircId (cfg ch).wideCircIds circId := wireCircId_wireCircId _ _
  unfold commandProcessCreateCell at hprocess
  generalize wireCircId (cfg ch).wideCircIds circId = id at hprocess hwire
  dsimp only at hprocess
  split at hprocess
  · obtain rfl := some.inj hprocess
    exact h
  · obtain ⟨⟨circids, n⟩, huse, hprocess⟩ := bind_eq_some_iff.mp hprocess
    have hlookup : SystemOk cfg { s with circids := circids } := by
      refine h.of_circids fun a hok => ?_
      obtain ⟨circids', n', huse', -, hok', -⟩ := exists_circuitIdInUseOnChannel hok id ch
      obtain ⟨rfl, -⟩ := Prod.mk.inj (some.inj (huse'.symm.trans huse))
      exact hok'
    have hfree : n = 0 → circids.look (ch, id) = none := by
      intro hn
      obtain ⟨a, hids, -⟩ := h
      obtain ⟨circids', n', huse', -, hok', hiff⟩ := exists_circuitIdInUseOnChannel hids.ok id ch
      obtain ⟨rfl, rfl⟩ := Prod.mk.inj (some.inj (huse'.symm.trans huse))
      by_contra hne
      exact hiff.mpr ((look_ne_none_iff hids.ok).mpr ((look_ne_none_iff hok').mp hne)) hn
    dsimp only at hprocess
    by_cases hzero : n ≠ 0
    · rw [if_pos hzero] at hprocess
      obtain rfl := some.inj hprocess
      exact hlookup
    rw [if_neg hzero] at hprocess
    by_cases hrefused : (refused || isUnexpectedCircId cfg ch id) = true
    · rw [if_pos hrefused] at hprocess
      obtain ⟨a, hids, hcalm⟩ := hlookup
      have hnone := hfree (not_not.mp hzero)
      have hmark : ¬ Marked a (ch, id) := fun hmark => look_ne_none_of_marked hids.ok hmark hnone
      obtain ⟨a', hids', hpair, hpending⟩ := hids.sendDestroy hwire hmark hprocess
      refine ⟨a', hids', fun c d => Bool.eq_false_iff.mpr fun hp => ?_⟩
      rcases hpending c d hp with hp | hhas
      · exact absurd ((hcalm c d).symm.trans hp) nofun
      · exact (look_ne_none_iff hids.ok).mpr (.inl ⟨c, d, hhas⟩) hnone
    · rw [if_neg hrefused] at hprocess
      obtain ⟨circids', hset, hprocess⟩ := bind_eq_some_iff.mp hprocess
      obtain rfl := some.inj hprocess
      have hnew := hlookup.newCircuit false
      refine hnew.setSide (d := .dirIn) ?_ (hfree (not_not.mp hzero)) hwire hset
      have hside : (circidCircuitNew circids false).side circids.circs.length .dirIn =
          some ⟨none, 0, false⟩ := by
        unfold CircidState.side CircidState.circ circidCircuitNew
        rw [getElem?_concat_length]
        rfl
      exact held_eq hside

/-- **A destroy cell arrives.** -/
lemma SystemOk.processDestroyCell {circId : CircId}
    (hprocess : commandProcessDestroyCell cfg s now ch circId primed = some s') :
    SystemOk cfg s' := by
  unfold commandProcessDestroyCell at hprocess
  dsimp only at hprocess
  obtain ⟨⟨circids, found⟩, hget, hprocess⟩ := bind_eq_some_iff.mp hprocess
  have hlookup : SystemOk cfg { s with circids := circids } := by
    refine h.of_circids fun a hok => ?_
    obtain ⟨circids', r, hs', -, hok', -⟩ := exists_circuitGetByCircidChannelImpl hok
      (wireCircId (cfg ch).wideCircIds circId) ch
    unfold circuitGetByCircidChannel at hget
    rw [hs', bind_eq_bind, bind_some] at hget
    dsimp only at hget
    split at hget
    · obtain ⟨rfl, -⟩ := Prod.mk.inj (some.inj hget)
      exact hok'
    · obtain ⟨circ, -, hget⟩ := bind_eq_some_iff.mp hget
      obtain ⟨rfl, -⟩ := Prod.mk.inj (some.inj hget)
      exact hok'
  dsimp only at hprocess
  split at hprocess
  · obtain rfl := some.inj hprocess
    exact hlookup
  · obtain ⟨circ, -, hprocess⟩ := bind_eq_some_iff.mp hprocess
    split at hprocess
    · obtain ⟨s₁, hs₁, hprocess⟩ := bind_eq_some_iff.mp hprocess
      exact (hlookup.unlinkSide hs₁).circuitMarkForClose hprocess
    · obtain ⟨s₁, hs₁, hprocess⟩ := bind_eq_some_iff.mp hprocess
      split at hprocess
      · exact (hlookup.unlinkSide hs₁).circuitMarkForClose hprocess
      · obtain rfl := some.inj hprocess
        exact hlookup.unlinkSide hs₁

/-- **A circuit is freed.** -/
lemma SystemOk.free
    (hfree : circidCircuitFree s.circids now c = some circids) :
    SystemOk cfg { s with circids := circids } := by
  obtain ⟨a, hids, hcalm⟩ := h
  obtain ⟨circ, hcirc⟩ : ∃ circ, s.circids.circ c = some circ := by
    unfold circidCircuitFree at hfree
    obtain ⟨circ, hcirc, -⟩ := bind_eq_some_iff.mp hfree
    exact ⟨circ, hcirc⟩
  obtain ⟨circids', hfree', hok⟩ := exists_circidCircuitFree hids.ok hids.owed hcirc now
    (hids.single.parts hids.ok none)
  obtain rfl := some.inj (hfree'.symm.trans hfree)
  have hcalm₁ : Calm (a.give c .dirIn none) := calm_give_none hids.owed fun c' d' hp =>
    absurd ((hcalm c' d').symm.trans hp) nofun
  refine ⟨_,
    ⟨hok, (hids.owed.give c _ none).give c _ none, (hids.single.give_none c _).give_none c _,
    fun c' d' ch id hpair => ?_, fun ch id hid => ?_, hids.nodup⟩, ?_⟩
  · rw [Pairs.give_pair, Pairs.give_pair] at hpair
    split_ifs at hpair
    exact hids.wire c' d' ch id hpair
  · exact marked_give_none.mpr (marked_give_none.mpr (hids.queued ch id hid))
  · exact calm_give_none (hids.owed.give c _ none) fun c' d' hp =>
      absurd ((hcalm₁ c' d').symm.trans hp) nofun

lemma SystemOk.flush {actives : List (Option CircId)}
    (hflush : channelFlushFromFirstActiveCircuit s ch actives = some s') : SystemOk cfg s' := by
  refine Runs.foldlM_preserves (P := SystemOk cfg) (fun active _ s s' hs hstep => ?_) h hflush
  obtain ⟨a, hids, hcalm⟩ := hs
  obtain ⟨a', hwritten⟩ := hids.flushOne hstep
  refine ⟨a', hwritten.ok, fun c d => Bool.eq_false_iff.mpr fun hp => ?_⟩
  exact absurd ((hcalm c d).symm.trans (hwritten.pending c d hp)) nofun

lemma SystemOk.congr (hcircids : s'.circids = s.circids)
    (hqueue : s'.destroyCellQueue = s.destroyCellQueue) : SystemOk cfg s' := by
  obtain ⟨a, hids, hcalm⟩ := h
  exact ⟨a, hids.congr hcircids hqueue, hcalm⟩

/-- **One event.** -/
theorem SystemOk.step {event : IdEvent} (hstep : s.step cfg event = some s') : SystemOk cfg s' := by
  cases event with
  | newCircuit isOrigin =>
    obtain rfl := some.inj hstep
    exact h.newCircuit isOrigin
  | deliverCreateCell now c ch rand => exact h.deliverCreateCell hstep
  | processCreateCell now ch circId refused primed => exact h.processCreateCell hstep
  | markForClose now c primedN primedP => exact h.circuitMarkForClose hstep
  | truncate now c primed => exact h.closeSide hstep
  | processDestroyCell now ch circId primed => exact h.processDestroyCell hstep
  | free now c =>
    obtain ⟨circids, hfree, rfl⟩ := map_eq_some_iff.mp hstep
    exact h.free hfree
  | flush ch actives => exact h.flush hstep
  | write ch circId =>
    obtain ⟨hcircids, hqueue⟩ := channelWriteEntry_other rfl hstep
    exact h.congr hcircids hqueue
  | flushSome ch numCells =>
    obtain ⟨r, -, rfl⟩ := map_eq_some_iff.mp hstep
    exact h.congr rfl rfl
  | lowerLayer answers estimates =>
    obtain rfl := some.inj hstep
    exact h.congr rfl rfl

end

lemma systemOk_start (cfg : ChanId → ChanConfig) : SystemOk cfg (IdSystem.start cfg) :=
  ⟨Pairs.init, ⟨circidOk_init, fun _ _ => nofun, fun _ _ _ _ _ => nofun, fun _ _ _ _ => nofun,
    fun _ _ => nofun,
    fun _ => nodup_nil⟩, fun _ _ => rfl⟩

/-! ### The choice -/

/-- The identifiers in the destroy cells in the outgoing queue of a channel. -/
def waiting (s : IdSystem) (ch : ChanId) : List CircId :=
  (s.channels.chan ch).outgoingQueue.filterMap isDestroyCell

/-- **The choice is right**: what is chosen is 0, or one of the identifiers to choose from that no
circuit has and for which no destroy cell waits, neither in the multiplexer nor in the outgoing
queue of the channel. -/
def IsSafe (cfg : ChanId → ChanConfig) (s : IdSystem) : Prop :=
  ∀ ch rand circids id, getUniqueCircIdByChan cfg s.circids ch rand = some (circids, id) →
    id = 0 ∨ IsChosen cfg ch id ∧ (∀ c d, s.circids.held c d ≠ some (ch, id)) ∧
    id ∉ s.destroyCellQueue ch ∧
      id ∉ waiting s ch

/-- A destroy cell waits in an outgoing queue only for an identifier that is not chosen on the
channel or that is in use there. -/
def Settled (cfg : ChanId → ChanConfig) (s : IdSystem) : Prop :=
  ∀ ch, ∀ id ∈ waiting s ch, IsChosen cfg ch id → s.circids.look (ch, id) ≠ none

/-- **When the choice is right.** -/
theorem isSafe_iff_settled (h : SystemOk cfg s) : IsSafe cfg s ↔ Settled cfg s := by
  obtain ⟨a, hids, -⟩ := h
  constructor
  · intro hsafe ch id hid hchosen hfree
    obtain ⟨circids, hget⟩ := exists_getUniqueCircIdByChan hids.ok hchosen hfree
    rcases hsafe ch [id] circids id hget with hzero | ⟨-, -, -, hwaiting⟩
    · exact hchosen.ne_zero hzero
    · exact hwaiting hid
  · intro hsettled ch rand circids id hget
    obtain ⟨-, hok, hid⟩ := getUniqueCircIdByChan_spec hids.ok hget
    refine hid.imp_right fun ⟨hchosen, hnone⟩ => ?_
    have hfree : s.circids.look (ch, id) = none := by
      by_contra hne
      exact (look_ne_none_iff hok).mpr ((look_ne_none_iff hids.ok).mp hne) hnone
    refine ⟨hchosen, fun c d hheld => ?_, fun hqueue => ?_, fun hwaiting => ?_⟩
    · rw [hids.ok.pair] at hheld
      exact (look_ne_none_iff hids.ok).mpr (.inl ⟨c, d, hheld⟩) hfree
    · exact look_ne_none_of_marked hids.ok (hids.queued ch id hqueue) hfree
    · exact hsettled ch id hwaiting hchosen hfree

end System

/-- **When identifiers are chosen well.**  In every run, what is chosen in any state is 0 or one of
the identifiers to choose from that is neither that of a circuit nor one for which a destroy cell
has not been sent, exactly if in no state a destroy cell waits in an outgoing queue for an
identifier that can be chosen there and that is not in use. -/
theorem holdsAlong_isSafe_iff (cfg : ChanId → ChanConfig) (events : List IdEvent) :
    Runs.HoldsAlong (fun s event => s.step cfg event) (fun s => IsSafe cfg s) events
      (IdSystem.start cfg) ↔ Runs.HoldsAlong (fun s event => s.step cfg event)
        (fun s => Settled cfg s) events (IdSystem.start cfg) := by
  have hinv : Runs.HoldsAlong (fun s event => IdSystem.step cfg s event)
      (fun s => SystemOk cfg s) events (IdSystem.start cfg) :=
    Runs.holdsAlong_of_step (fun event _ s s' hs hstep => hs.step hstep) (systemOk_start cfg)
  exact Runs.holdsAlong_congr hinv fun s hs => isSafe_iff_settled hs

/-- A circuit gets the identifier 5 and is closed.  Its destroy cell is written, but the lower layer
refuses it. -/
def refusedDestroy : List IdEvent :=
  [.newCircuit true, .deliverCreateCell 0 0 1 [5], .markForClose 0 0 none none, .flush 1 [none]]

/-- The destroy cell still waits in the outgoing queue when its identifier can be chosen again. -/
theorem not_holdsAlong_isSafe :
    ¬ ∀ (cfg : ChanId → ChanConfig) (events : List IdEvent),
      Runs.HoldsAlong (fun s event => s.step cfg event) (fun s => IsSafe cfg s) events
        (IdSystem.start cfg) := by
  intro hall
  have hholds := hall (fun _ => ⟨false, .lower⟩) refusedDestroy
  have hlast := (((hholds.2 _ rfl).2 _ rfl).2 _ rfl).2 _ rfl
  rcases hlast 1 [5] _ 5 rfl with hzero | ⟨-, -, -, hwaiting⟩
  · exact absurd hzero (by decide)
  · exact hwaiting (by decide)

end Astoria.CircIds
