import Astoria.TorClient.CircidMap
import Mathlib.Algebra.Order.BigOperators.Group.Finset

/-!
# Lookups of circuit identifiers

What a lookup should find is said by the circuits themselves: the circuit that has the channel and
the identifier on one of its sides, or else a placeholder if the identifier is marked
(`Pairs.Finds`).  `Pairs` keeps these for all circuits, and `PairStep` says what the functions do to
them.

`circidMap_refines` says that the table, with the entry that is remembered or without it, finds this
after every run of calls, and that the channels count their circuits.  No identifier is given to a
second circuit in such a run, none is marked as usable that a circuit has, and no circuit gives up
what it has on its other side, too.  `not_circidMap_refines_usable` is a run in which an identifier
of a circuit is marked as usable.
-/

namespace Astoria

open Option
open List hiding next
open Function

/-! ### What lookups should find -/

/-- The channels and identifiers of all circuits, and the identifiers that are marked. -/
structure Pairs where
  pair : ℕ → CellDirection → Option ChanCirc
  /-- The sides for which destroy cells are pending. -/
  pending : ℕ → CellDirection → Bool
  unusable : ChanCirc → Bool

namespace Pairs

/-- No circuit has anything, and nothing is marked. -/
def init : Pairs := ⟨fun _ _ => none, fun _ _ => false, fun _ => false⟩

/-- A circuit has a channel and an identifier on one of its sides. -/
def Has (a : Pairs) (c : ℕ) (k : ChanCirc) : Prop := ∃ d, a.pair c d = some k

def setPair (a : Pairs) (c : ℕ) (d : CellDirection) (new : Option ChanCirc) : Pairs :=
  { a with pair := update a.pair c (update (a.pair c) d new) }

/-- Whether a destroy cell is pending for a side is set. -/
def setPending (a : Pairs) (c : ℕ) (d : CellDirection) (pending : Bool) : Pairs :=
  { a with pending := update a.pending c (update (a.pending c) d pending) }

def mark (a : Pairs) (k : ChanCirc) (unusable : Bool) : Pairs :=
  { a with unusable := update a.unusable k unusable }

/-- A side takes something, which is not marked any more. -/
def take (a : Pairs) (c : ℕ) (d : CellDirection) (new : Option ChanCirc) : Pairs :=
  match new with
  | none => a.setPair c d none
  | some k => (a.setPair c d (some k)).mark k false

/-- A side takes something that it does not have already. -/
def change (a : Pairs) (c : ℕ) (d : CellDirection) (new : Option ChanCirc) : Pairs :=
  if new = a.pair c d then a else a.take c d new

/-- Something that is given up for something else is marked. -/
def release (a : Pairs) (old new : Option ChanCirc) : Pairs :=
  match old with
  | none => a
  | some k => if new = some k then a else a.mark k true

/-- A side gives up what it has for something else.  What it gives up is marked if a destroy cell is
pending for it. -/
def give (a : Pairs) (c : ℕ) (d : CellDirection) (new : Option ChanCirc) : Pairs :=
  if a.pending c d ∧ a.pair c d ≠ none then
    ((a.change c d new).release (a.pair c d) new).setPending c d false
  else a.change c d new

/-- What a lookup should find: the circuit that has a channel and an identifier, and whether there
is one or they are marked. -/
def Finds (a : Pairs) (k : ChanCirc) (r : Option ℕ × Bool) : Prop :=
  (∀ c, r.1 = some c ↔ a.Has c k) ∧ (r.2 = true ↔ (∃ c, a.Has c k) ∨ a.unusable k = true)

/-- Whether a destroy cell is pending is noted for the side that has a channel and an identifier, or
with the mark if there is none.  Of two sides of a circuit, it is the one away from the origin. -/
def Noted (a : Pairs) (k : ChanCirc) (pending : Bool) (a' : Pairs) : Prop :=
  (∃ c d, a.pair c d = some k ∧ (d = .dirIn → a.pair c .dirOut ≠ some k) ∧
    a' = a.setPending c d pending) ∨ (∀ c, ¬a.Has c k) ∧ a' = a.mark k pending

end Pairs

/-- What an event does to the channels and identifiers of the circuits, and what a lookup finds. -/
def PairStep (a : Pairs) (e : CircidEvent) (found : Option (Option ℕ × Bool)) (a' : Pairs) : Prop :=
  match e with
  | .newCircuit _ => found = none ∧ a' = a
  | .setN _ c id chan => found = none ∧ a' = a.give c .dirOut (chan.map (·, id))
  | .setP _ c id chan => found = none ∧ a' = a.give c .dirIn (chan.map (·, id))
  | .markUnusable _ chan id => found = none ∧
      ((∃ c, a.Has c (chan, id)) ∧ a' = a ∨ (∀ c, ¬a.Has c (chan, id)) ∧
        a' = a.mark (chan, id) true)
  | .markUsable chan id => found = none ∧ a' = a.mark (chan, id) false
  | .notePending _ chan id => found = none ∧ a.Noted (chan, id) true a'
  | .noteNotPending chan id => found = none ∧ a.Noted (chan, id) false a'
  | .get chan id => a' = a ∧ ∃ r, found = some r ∧ a.Finds (chan, id) r
  | .markForClose _ => found = none ∧ a' = a
  | .free _ c => found = none ∧ a' = (a.give c .dirIn none).give c .dirOut none

/-- What events one after another do to the channels and identifiers of the circuits. -/
inductive PairRun : Pairs → List CircidEvent → List (Option (Option ℕ × Bool)) → Pairs → Prop
  | nil (a : Pairs) : PairRun a [] [] a
  | cons {a a₁ a' : Pairs} {e : CircidEvent} {events : List CircidEvent}
      {found : Option (Option ℕ × Bool)} {out : List (Option (Option ℕ × Bool))}
      (hstep : PairStep a e found a₁) (hrun : PairRun a₁ events out a') :
      PairRun a (e :: events) (found :: out) a'

namespace CircidState

/-- What a side of a circuit has. -/
def held (s : CircidState) (c : ℕ) (d : CellDirection) : Option ChanCirc :=
  (s.side c d).bind fun e => e.chan.map (·, e.circId)

/-- What the table has, without the entry that is remembered. -/
def look (s : CircidState) (k : ChanCirc) : Option (Option ℕ) :=
  ((s.table k).bind s.entry).map ChanCircidEntry.circuit

/-- The number of circuits of a channel. -/
def attached (s : CircidState) (d : CellDirection) (chan : ChanId) : ℕ :=
  s.circs.countP fun circ => circ.any fun circ => (circ.side d).any fun e => e.chan = some chan

/-- No other circuit has a channel and an identifier. -/
def FreeFor (s : CircidState) (c : ℕ) (k : ChanCirc) : Prop := ∀ c' d, s.held c' d = some k → c' = c

/-- A side does not give up what the other one has, too. -/
def Parts (s : CircidState) (c : ℕ) (d : CellDirection) (new : Option ChanCirc) : Prop :=
  ∀ k, s.held c d = some k → new ≠ some k → ∀ d', s.held c d' = some k → d' = d

end CircidState

/-- The functions are called for circuits that have not been freed, and no channel and identifier
are given to a second circuit. -/
def CircidEvent.Ok (s : CircidState) : CircidEvent → Prop
  | .setN _ c id chan => (s.side c .dirOut).isSome ∧ ∀ ch ∈ chan, s.FreeFor c (ch, id)
  | .setP _ c id chan => (s.side c .dirIn).isSome ∧ ∀ ch ∈ chan, s.FreeFor c (ch, id)
  | .markForClose c => (s.circ c).isSome
  | .free _ c => (s.circ c).isSome
  | _ => True

/-- No identifier is marked as usable that a circuit has, and no circuit gives up what it has on its
other side, too. -/
def CircidEvent.Spared (s : CircidState) : CircidEvent → Prop
  | .setN _ c id chan => s.Parts c .dirOut (chan.map (·, id))
  | .setP _ c id chan => s.Parts c .dirIn (chan.map (·, id))
  | .markUsable chan id => ∀ c d, s.held c d ≠ some (chan, id)
  | .free _ c => s.Parts c .dirIn none
  | _ => True

/-! ### The table -/

/-- The entries of the table are there and for what they are found with, and the entry that is
remembered is in the table. -/
structure TableOk (s : CircidState) : Prop where
  entry : ∀ k a, s.table k = some a → ∃ ent, s.entry a = some ent ∧ (ent.chan, ent.circId) = k
  last : ∀ a, s.lastEnt = some a → ∃ k, s.table k = some a

namespace TableOk

variable {s : CircidState} {k k' : ChanCirc} {a : ℕ} {ent : ChanCircidEntry}

lemma table_inj (h : TableOk s) (hk : s.table k = some a) (hk' : s.table k' = some a) : k = k' := by
  obtain ⟨ent, hent, hkey⟩ := h.entry k a hk
  obtain ⟨ent', hent', hkey'⟩ := h.entry k' a hk'
  obtain rfl := some.inj (hent.symm.trans hent')
  exact hkey.symm.trans hkey'

lemma look_eq (hk : s.table k = some a) (hent : s.entry a = some ent) :
    s.look k = some ent.circuit := by
  unfold CircidState.look
  rw [hk, bind_some, hent, map_some]

lemma look_eq_none (hk : s.table k = none) : s.look k = none := by
  unfold CircidState.look
  rw [hk, bind_none, map_none]

lemma look_congr {s' : CircidState} (htable : s'.table k = s.table k)
    (hentry : ∀ a, s.table k = some a → s'.entry a = s.entry a) : s'.look k = s.look k := by
  unfold CircidState.look
  rw [htable]
  cases hk : s.table k with
  | none => rfl
  | some a => rw [bind_some, bind_some, hentry a hk]

lemma lt_length (hent : s.entry a = some ent) : a < s.entries.length := by
  have hcell : s.entries[a]? = some (some ent) := join_eq_some_iff.mp hent
  exact (List.getElem?_eq_some_iff.mp hcell).1

/-- A new entry is put into the table. -/
lemma insertEntry (h : TableOk s) (ent : ChanCircidEntry)
    (hnone : s.table (ent.chan, ent.circId) = none) :
    TableOk (s.insertEntry ent) ∧ ∀ k, (s.insertEntry ent).look k =
      if k = (ent.chan, ent.circId) then some ent.circuit else s.look k := by
  have hnew : (s.insertEntry ent).entry s.entries.length = some ent := by
    unfold CircidState.entry CircidState.insertEntry
    rw [getElem?_concat_length]
    rfl
  have hold : ∀ a ent', s.entry a = some ent' → (s.insertEntry ent).entry a = some ent' := by
    intro a ent' hent'
    unfold CircidState.entry CircidState.insertEntry
    rw [getElem?_append_left (lt_length hent')]
    exact hent'
  have htable : ∀ k, (s.insertEntry ent).table k =
      if k = (ent.chan, ent.circId) then some s.entries.length else s.table k := by
    intro k
    unfold CircidState.insertEntry
    exact update_apply _ _ _ _
  refine ⟨⟨fun k a hk => ?_, fun a ha => ?_⟩, fun k => ?_⟩
  · rw [htable] at hk
    split_ifs at hk with heq
    · obtain rfl := some.inj hk
      exact ⟨ent, hnew, heq.symm⟩
    · obtain ⟨ent', hent', hkey⟩ := h.entry k a hk
      exact ⟨ent', hold a ent' hent', hkey⟩
  · obtain ⟨k, hk⟩ := h.last a ha
    refine ⟨k, ?_⟩
    rw [htable, if_neg fun heq => ?_]
    · exact hk
    · rw [heq, hnone] at hk
      cases hk
  · split_ifs with heq
    · exact look_eq (by rw [htable, if_pos heq]) hnew
    · refine look_congr (by rw [htable, if_neg heq]) fun a hk => ?_
      obtain ⟨ent', hent', -⟩ := h.entry k a hk
      rw [hent', hold a ent' hent']

/-- The fields of an entry of the table are set, but not those it is found with. -/
lemma setEntry (h : TableOk s) (hk : s.table k = some a) (ent : ChanCircidEntry)
    (hkey : (ent.chan, ent.circId) = k) : TableOk (s.setEntry a ent) ∧
      ∀ k', (s.setEntry a ent).look k' = if k' = k then some ent.circuit else s.look k' := by
  obtain ⟨old, hold, -⟩ := h.entry k a hk
  have hself : (s.setEntry a ent).entry a = some ent := by
    unfold CircidState.entry CircidState.setEntry
    rw [getElem?_set_self (lt_length hold)]
    rfl
  have hother : ∀ a', a' ≠ a → (s.setEntry a ent).entry a' = s.entry a' := by
    intro a' hne
    unfold CircidState.entry CircidState.setEntry
    rw [getElem?_set_ne (Ne.symm hne)]
  refine ⟨⟨fun k' a' hk' => ?_, h.last⟩, fun k' => ?_⟩
  · by_cases heq : a' = a
    · subst heq
      exact ⟨ent, hself, hkey.trans (h.table_inj hk hk')⟩
    · rw [hother a' heq]
      exact h.entry k' a' hk'
  · split_ifs with heq
    · subst heq
      exact look_eq hk hself
    · exact look_congr rfl fun a' hk' => hother a' fun hsame => heq (h.table_inj hk' (hsame ▸ hk))

/-- An entry that is not remembered leaves the table and is freed. -/
lemma freeEntry (h : TableOk s) (hk : s.table k = some a) (hlast : s.lastEnt ≠ some a) :
    TableOk ((s.removeEntry k).freeEntry a) ∧
      ∀ k', ((s.removeEntry k).freeEntry a).look k' = if k' = k then none else s.look k' := by
  have hother : ∀ a', a' ≠ a → ((s.removeEntry k).freeEntry a).entry a' = s.entry a' := by
    intro a' hne
    unfold CircidState.entry CircidState.freeEntry
    rw [getElem?_set_ne (Ne.symm hne)]
    rfl
  have htable : ∀ k', ((s.removeEntry k).freeEntry a).table k' = if k' = k then none
      else s.table k' :=
    fun k' => update_apply _ _ _ _
  refine ⟨⟨fun k' a' hk' => ?_, fun a' ha' => ?_⟩, fun k' => ?_⟩
  · rw [htable] at hk'
    split_ifs at hk' with heq
    have hne : a' ≠ a := fun hsame => heq (h.table_inj hk' (hsame ▸ hk))
    rw [hother a' hne]
    exact h.entry k' a' hk'
  · obtain ⟨k', hk'⟩ := h.last a' ha'
    refine ⟨k', ?_⟩
    rw [htable, if_neg fun heq => ?_]
    · exact hk'
    · rw [heq, hk] at hk'
      rw [← hk'] at ha'
      exact hlast ha'
  · split_ifs with heq
    · exact look_eq_none (by rw [htable, if_pos heq])
    · exact look_congr (by rw [htable, if_neg heq]) fun a' hk' =>
        hother a' fun hsame => heq (h.table_inj hk' (hsame ▸ hk))

lemma forget (h : TableOk s) : TableOk { s with lastEnt := none } := ⟨h.entry, nofun⟩

lemma remember (h : TableOk s) (k : ChanCirc) : TableOk { s with lastEnt := s.table k } :=
  ⟨h.entry, fun _ ha => ⟨k, ha⟩⟩

end TableOk

/-! ### The table and the circuits -/

/-- The table has what a lookup should find. -/
def Pairs.Fits (a : Pairs) (k : ChanCirc) : Option (Option ℕ) → Prop
  | none => (∀ c, ¬a.Has c k) ∧ a.unusable k = false
  | some none => (∀ c, ¬a.Has c k) ∧ a.unusable k = true
  | some (some c) => (∀ c', a.Has c' k ↔ c' = c) ∧ a.unusable k = false

/-- Whether a destroy cell is pending for a side of a circuit. -/
def CircidState.pendingOn (s : CircidState) (c : ℕ) (d : CellDirection) : Bool :=
  ((s.side c d).map CircidEnd.deletePending).getD false

open CircidState (attached circ held next pendingOn setSide side step)

/-- The table fits the circuits, and the channels count them. -/
structure CircidOk (s : CircidState) (a : Pairs) : Prop where
  table : TableOk s
  fits : ∀ k, a.Fits k (s.look k)
  pair : ∀ c d, s.held c d = a.pair c d
  pending : ∀ c d, s.pendingOn c d = a.pending c d
  counted : ∀ d chan, s.numCircuits d chan = s.attached d chan

section Sides

variable {s : CircidState} {a : Pairs} {c : ℕ} {d : CellDirection} {e e' : CircidEnd}
  {k : ChanCirc} {new : Option ChanCirc}

lemma exists_circ_of_side (he : s.side c d = some e) :
    ∃ circ, s.circ c = some circ ∧ circ.side d = some e := bind_eq_some_iff.mp he

lemma sides_of_circ {circ : CircidCircuit} (hcirc : s.circ c = some circ) :
    s.side c .dirOut = some circ.n ∧ s.side c .dirIn = circ.p := by
  unfold side
  rw [hcirc]
  exact ⟨rfl, rfl⟩

lemma CircidCircuit.side_setSide (circ : CircidCircuit) (d d' : CellDirection) (e : CircidEnd) :
    (circ.setSide d e).side d' = if d' = d then some e else circ.side d' := by
  split_ifs with h
  · subst h
    cases d'
    · rfl
    · rfl
  · cases d <;> cases d' <;> first | rfl | exact absurd rfl h

section

variable (he : s.side c d = some e)

include he

/-- A side that has been set, and the others. -/
lemma side_setSide (e' : CircidEnd) (c' : ℕ) (d' : CellDirection) :
    (s.setSide c d e').side c' d' = if c' = c ∧ d' = d then some e' else s.side c' d' := by
  obtain ⟨circ, hcirc, -⟩ := exists_circ_of_side he
  have hcell : s.circs[c]? = some (some circ) := join_eq_some_iff.mp hcirc
  have hlt := (List.getElem?_eq_some_iff.mp hcell).1
  unfold side
  by_cases hc : c' = c
  · subst hc
    have hself : (s.setSide c' d e').circ c' = some (circ.setSide d e') := by
      unfold CircidState.circ CircidState.setSide
      rw [getElem?_set_self hlt, hcirc]
      rfl
    rw [hself, hcirc, bind_some, bind_some, CircidCircuit.side_setSide]
    simp only [true_and]
  · have hother : (s.setSide c d e').circ c' = s.circ c' := by
      unfold CircidState.circ CircidState.setSide
      rw [getElem?_set_ne (Ne.symm hc)]
    rw [hother, if_neg fun h => hc h.1]

lemma held_eq : s.held c d = e.chan.map (·, e.circId) := by
  unfold held
  rw [he, bind_some]

lemma pendingOn_eq : s.pendingOn c d = e.deletePending := by
  unfold pendingOn
  rw [he]
  rfl

lemma held_setSide (e' : CircidEnd) (c' : ℕ) (d' : CellDirection) : (s.setSide c d e').held c' d' =
      if c' = c ∧ d' = d then e'.chan.map (·, e'.circId) else s.held c' d' := by
  unfold held
  rw [side_setSide he]
  split_ifs
  · rfl
  · rfl

lemma pendingOn_setSide (e' : CircidEnd) (c' : ℕ) (d' : CellDirection) :
    (s.setSide c d e').pendingOn c' d' =
      if c' = c ∧ d' = d then e'.deletePending else s.pendingOn c' d' := by
  unfold pendingOn
  rw [side_setSide he]
  split_ifs
  · rfl
  · rfl

end

/-- The circuits of a channel are counted by what their sides have. -/
lemma attached_eq_sum (s : CircidState) (d : CellDirection) (chan : ChanId) {n : ℕ}
    (hn : s.circs.length ≤ n) : s.attached d chan = ∑ c ∈ Finset.range n,
    if (s.held c d).any fun k => k.1 = chan then 1 else 0 := by
  have hcount : ∀ (p : Option CircidCircuit → Bool) (l : List (Option CircidCircuit)) (n : ℕ),
      l.length ≤ n → l.countP p = ∑ i ∈ Finset.range n, if l[i]?.any p then 1 else 0 := by
    intro p l
    induction l with
    | nil => simp
    | cons x l ih =>
      intro n hn
      obtain ⟨n, rfl⟩ := Nat.exists_eq_add_one.mpr (lt_of_lt_of_le (Nat.succ_pos _) hn)
      rw [Finset.sum_range_succ', countP_cons, ih n (Nat.le_of_succ_le_succ hn)]
      rfl
  rw [attached, hcount _ _ n hn]
  refine Finset.sum_congr rfl fun c _ => congrArg (fun any : Bool => if any then 1 else 0) ?_
  unfold held side circ
  rcases s.circs[c]? with _ | _ | circ
  · rfl
  · rfl
  · simp only [any_some, join_some, bind_some]
    cases circ.side d with
    | none => rfl
    | some e => cases hchan : e.chan <;> simp [hchan]

lemma attached_of_held {s' : CircidState} (h : ∀ c, s'.held c d = s.held c d) (chan : ChanId) :
    s'.attached d chan = s.attached d chan := by
  rw [attached_eq_sum s' d chan (le_max_left _ s.circs.length),
    attached_eq_sum s d chan (le_max_right s'.circs.length _)]
  exact Finset.sum_congr rfl fun c _ => by rw [h]

/-- The number of circuits of a channel when a side of one is set. -/
lemma attached_setSide (he : s.side c d = some e) (e' : CircidEnd) (d' : CellDirection)
    (chan : ChanId) : (s.setSide c d e').attached d' chan +
      (if d' = d ∧ e.chan = some chan then 1 else 0) =
        s.attached d' chan + (if d' = d ∧ e'.chan = some chan then 1 else 0) := by
  have hany : ∀ (chan' : Option ChanId) (id : CircId),
      (chan'.map fun ch => (ch, id)).any (fun k => decide (k.1 = chan)) =
        decide (chan' = some chan) :=
    fun chan' id => by cases chan' <;> simp
  by_cases hd : d' = d
  · subst hd
    have hlt : c < max s.circs.length (c + 1) := lt_max_of_lt_right (Nat.lt_succ_self c)
    have hlen : (s.setSide c d' e').circs.length ≤ max s.circs.length (c + 1) :=
      length_set.le.trans (le_max_left _ _)
    rw [attached_eq_sum _ d' chan hlen, attached_eq_sum s d' chan (le_max_left _ (c + 1)),
      ← Finset.add_sum_erase _ _ (Finset.mem_range.mpr hlt),
      ← Finset.add_sum_erase _ _ (Finset.mem_range.mpr hlt)]
    have hself : (s.setSide c d' e').held c d' = e'.chan.map (·, e'.circId) := by
      rw [held_setSide he, if_pos ⟨rfl, rfl⟩]
    have hrest : ∀ c' ∈ (Finset.range (max s.circs.length (c + 1))).erase c,
        (s.setSide c d' e').held c' d' = s.held c' d' := fun c' hc' => by
      rw [held_setSide he, if_neg fun h => Finset.ne_of_mem_erase hc' h.1]
    rw [Finset.sum_congr rfl fun c' hc' => by rw [hrest c' hc'], hself, held_eq he]
    simp only [hany, decide_eq_true_eq, true_and]
    omega
  · have hheld : ∀ c', (s.setSide c d e').held c' d' = s.held c' d' := fun c' => by
      rw [held_setSide he, if_neg fun h => hd h.2]
    rw [attached_of_held hheld, if_neg fun h => hd h.1, if_neg fun h => hd h.1]

/-- A function of two arguments that is updated. -/
lemma update_update_apply {α β γ : Type} [DecidableEq α] [DecidableEq β] (f : α → β → γ) (x x' : α)
    (y y' : β) (v : γ) :
    update f x (update (f x) y v) x' y' = if x' = x ∧ y' = y then v else f x' y' := by
  by_cases hx : x' = x
  · subst hx
    by_cases hy : y' = y
    · rw [hy, update_self, update_self, if_pos ⟨rfl, rfl⟩]
    · rw [update_self, update_of_ne hy, if_neg fun h => hy h.2]
  · rw [update_of_ne hx, if_neg fun h => hx h.1]

/-- The number of circuits of a channel is changed. -/
lemma numCircuits_addCount (s : CircidState) (d d' : CellDirection) (chan chan' : ChanId) (n : ℤ) :
    (s.addCount d chan n).numCircuits d' chan' =
      s.numCircuits d' chan' + if d' = d ∧ chan' = chan then n else 0 := by
  have happly := update_update_apply s.numCircuits d d' chan chan' (s.numCircuits d chan + n)
  unfold CircidState.addCount
  simp only
  rw [happly]
  split_ifs with h
  · rw [h.1, h.2]
  · rw [Int.add_zero]

lemma Pairs.take_pair (a : Pairs) (c c' : ℕ) (d d' : CellDirection) (new : Option ChanCirc) :
    (a.take c d new).pair c' d' = if c' = c ∧ d' = d then new else a.pair c' d' := by
  have hset : (a.setPair c d new).pair c' d' = if c' = c ∧ d' = d then new else a.pair c' d' :=
    update_update_apply a.pair c c' d d' new
  cases new with
  | none => exact hset
  | some k => exact hset

lemma Pairs.take_pending (a : Pairs) (c : ℕ) (d : CellDirection) (new : Option ChanCirc) :
    (a.take c d new).pending = a.pending := by
  cases new with
  | none => rfl
  | some k => rfl

lemma Pairs.take_unusable (a : Pairs) (c : ℕ) (d : CellDirection) (new : Option ChanCirc)
    (k : ChanCirc) : (a.take c d new).unusable k = if new = some k then false
      else a.unusable k := by
  cases new with
  | none => rfl
  | some k' =>
    unfold Pairs.take Pairs.mark Pairs.setPair
    simp only [update_apply, some.injEq, eq_comm]

lemma Pairs.take_self (h : a.pair c d = none) : a.take c d none = a := by
  unfold Pairs.take Pairs.setPair
  simp only
  rw [← h, update_eq_self, update_eq_self]

lemma Pairs.fits_iff {o : Option (Option ℕ)} : a.Fits k o ↔
    (∀ c, a.Has c k ↔ o = some (some c)) ∧ (a.unusable k = true ↔ o = some none) := by
  rcases o with _ | _ | c₀
  · simp [Pairs.Fits]
  · simp [Pairs.Fits]
  · simp [Pairs.Fits, eq_comm (a := c₀)]

lemma CircidOk.look_of_has (h : CircidOk s a) (hc : a.Has c k) : s.look k = some (some c) :=
  ((Pairs.fits_iff.mp (h.fits k)).1 c).mp hc

/-- Only one circuit has a channel and an identifier. -/
lemma CircidOk.unique (h : CircidOk s a) {c' : ℕ} (hc : a.Has c k) (hc' : a.Has c' k) : c' = c :=
  some.inj (some.inj ((h.look_of_has hc').symm.trans (h.look_of_has hc)))

/-- **A side takes something** that no other circuit has, and gives up what the circuit does not
have on its other side. -/
lemma Pairs.Fits.take (hfits : ∀ k, a.Fits k (s.look k))
    (hunique : ∀ k c c', a.Has c k → a.Has c' k → c' = c)
    (hfree : ∀ k, new = some k → ∀ c', a.Has c' k → c' = c)
    (hparts : ∀ k, a.pair c d = some k → new ≠ some k → ∀ d', a.pair c d' = some k → d' = d)
    (k : ChanCirc) : (a.take c d new).Fits k (if new = some k then some (some c)
      else if a.pair c d = some k then none else s.look k) := by
  have hhas : ∀ c', (a.take c d new).Has c' k ↔
      c' = c ∧ new = some k ∨ ∃ d', ¬(c' = c ∧ d' = d) ∧ a.pair c' d' = some k := by
    intro c'
    constructor
    · rintro ⟨d', hd'⟩
      rw [Pairs.take_pair] at hd'
      split_ifs at hd' with hcd
      · exact .inl ⟨hcd.1, hd'⟩
      · exact .inr ⟨d', hcd, hd'⟩
    · rintro (⟨rfl, hnew⟩ | ⟨d', hcd, hd'⟩)
      · exact ⟨d, by rw [Pairs.take_pair, if_pos ⟨rfl, rfl⟩, hnew]⟩
      · exact ⟨d', by rw [Pairs.take_pair, if_neg hcd, hd']⟩
  obtain ⟨hbefore, hmarked⟩ := Pairs.fits_iff.mp (hfits k)
  rw [Pairs.fits_iff, Pairs.take_unusable]
  split_ifs with hnew hold
  · refine ⟨fun c' => ?_, iff_of_false nofun nofun⟩
    rw [hhas, some.injEq, some.injEq]
    constructor
    · rintro (⟨rfl, -⟩ | ⟨d', -, hd'⟩)
      · rfl
      · exact (hfree k hnew c' ⟨d', hd'⟩).symm
    · rintro rfl
      exact .inl ⟨rfl, hnew⟩
  · refine ⟨fun c' => iff_of_false (fun hc' => ?_) nofun, ?_⟩
    · rcases (hhas c').mp hc' with ⟨-, h⟩ | ⟨d', hcd, hd'⟩
      · exact hnew h
      · obtain rfl := hunique k c c' ⟨d, hold⟩ ⟨d', hd'⟩
        exact hcd ⟨rfl, hparts k hold hnew d' hd'⟩
    · rw [hmarked, (hbefore c).mp ⟨d, hold⟩]
      exact iff_of_false nofun nofun
  · refine ⟨fun c' => Iff.trans ?_ (hbefore c'), hmarked⟩
    rw [hhas]
    constructor
    · rintro (⟨-, h⟩ | ⟨d', -, hd'⟩)
      · exact absurd h hnew
      · exact ⟨d', hd'⟩
    · rintro ⟨d', hd'⟩
      refine .inr ⟨d', ?_, hd'⟩
      rintro ⟨rfl, rfl⟩
      exact hold hd'

end Sides

/-! ### What the functions do -/

section Functions

variable {s s' : CircidState} {a : Pairs} {c : ℕ} {d : CellDirection} {e : CircidEnd} {k : ChanCirc}

lemma side_congr (h : s'.circs = s.circs) (c : ℕ) (d : CellDirection) :
    s'.side c d = s.side c d := by
  unfold side circ
  rw [h]

lemma held_eq_of_circs (h : s'.circs = s.circs) (c : ℕ) (d : CellDirection) :
    s'.held c d = s.held c d := by
  unfold held
  rw [side_congr h]

lemma pendingOn_congr (h : s'.circs = s.circs) (c : ℕ) (d : CellDirection) :
    s'.pendingOn c d = s.pendingOn c d := by
  unfold pendingOn
  rw [side_congr h]

lemma attached_congr (h : s'.circs = s.circs) (d : CellDirection) (chan : ChanId) :
    s'.attached d chan = s.attached d chan := by
  unfold attached
  rw [h]

/-- **Only the table changes**, and what is marked. -/
lemma CircidOk.of_table (h : CircidOk s a) (htable : TableOk s') (hcircs : s'.circs = s.circs)
    (hnum : s'.numCircuits = s.numCircuits) {a' : Pairs} (hpair : a'.pair = a.pair)
    (hpending : a'.pending = a.pending) (hfits : ∀ k, a'.Fits k (s'.look k)) : CircidOk s' a' := by
  refine ⟨htable, hfits, fun c d => ?_, fun c d => ?_, fun d chan => ?_⟩
  · rw [held_eq_of_circs hcircs, hpair, h.pair]
  · rw [pendingOn_congr hcircs, hpending, h.pending]
  · rw [hnum, attached_congr hcircs, h.counted]

/-- The entry that was found last is not the one that will be removed. -/
lemma exists_forgetLastEnt (h : TableOk s) (old new : Option ChanId × CircId) :
    ∃ last, forgetLastEnt s old new = some { s with lastEnt := last } ∧
      TableOk { s with lastEnt := last } ∧
      ∀ k x, old = (some k.1, k.2) → s.table k = some x → last ≠ some x := by
  unfold forgetLastEnt
  rcases hlast : s.lastEnt with _ | y
  · have hself : { s with lastEnt := none } = s := by rw [← hlast]
    exact ⟨none, congrArg some hself.symm, h.forget, fun _ _ _ _ => nofun⟩
  · obtain ⟨k, hk⟩ := h.last y hlast
    obtain ⟨ent, hent, hkey⟩ := h.entry k y hk
    simp only [hent, bind_eq_bind, bind_some]
    by_cases hfor : old = (some ent.chan, ent.circId) ∨ new = (some ent.chan, ent.circId)
    · exact ⟨none, if_pos hfor, h.forget, fun _ _ _ _ => nofun⟩
    · refine ⟨some y, ?_, ?_, fun k' x hold hx hxy => hfor (.inl ?_)⟩
      · rw [if_neg hfor, ← hlast]
      · rw [← hlast]
        exact h
      · obtain rfl := some.inj hxy
        obtain rfl := h.table_inj hk hx
        rw [hold, ← hkey]

/-- **The old entry is removed**, and its channel has one circuit less. -/
lemma removeOldEntry_spec (h : CircidOk s a) (he : s.side c d = some e) {last : Option ℕ}
    (htable : TableOk { s with lastEnt := last })
    (hlast : ∀ k x, (e.chan, e.circId) = (some k.1, k.2) → s.table k = some x → last ≠ some x) :
    TableOk (removeOldEntry { s with lastEnt := last } d e) ∧
      (∀ k, (removeOldEntry { s with lastEnt := last } d e).look k =
        if a.pair c d = some k then none else s.look k) ∧
      (removeOldEntry { s with lastEnt := last } d e).circs = s.circs ∧
      ∀ d' chan, (removeOldEntry { s with lastEnt := last } d e).numCircuits d' chan =
        s.numCircuits d' chan - if d' = d ∧ e.chan = some chan then 1 else 0 := by
  have hpair : a.pair c d = e.chan.map (·, e.circId) := by rw [← h.pair, held_eq he]
  unfold removeOldEntry
  rcases hchan : e.chan with _ | oldChan
  · rw [hchan, map_none] at hpair
    refine ⟨htable, fun k => ?_, rfl, fun d' chan => ?_⟩
    · rw [hpair]
      exact (if_neg nofun).symm
    · rw [if_neg (fun h => nomatch h.2), Int.sub_zero]
  · rw [hchan, map_some] at hpair
    have hlook := h.look_of_has ⟨d, hpair⟩
    obtain ⟨x, hx⟩ : ∃ x, s.table (oldChan, e.circId) = some x := by
      rcases hx : s.table (oldChan, e.circId) with _ | x
      · rw [TableOk.look_eq_none hx] at hlook
        cases hlook
      · exact ⟨x, rfl⟩
    obtain ⟨htable', hlook'⟩ := htable.freeEntry hx (hlast (oldChan, e.circId) x (by rw [hchan]) hx)
    simp only [hx]
    refine ⟨⟨htable'.entry, htable'.last⟩, fun k => ?_, rfl, fun d' chan => ?_⟩
    · rw [hpair]
      simp only [some.injEq, eq_comm (b := k)]
      exact hlook' k
    · rw [numCircuits_addCount]
      simp only [some.injEq, eq_comm (b := chan)]
      split_ifs
      · rfl
      · rw [Int.add_zero, Int.sub_zero]
        rfl

lemma exists_setEntryCircuit (h : TableOk s) (c : ℕ) (k : ChanCirc) :
    ∃ s', setEntryCircuit s c k = some s' ∧ TableOk s' ∧
      (∀ k', s'.look k' = if k' = k then some (some c) else s.look k') ∧
      s'.circs = s.circs ∧ s'.numCircuits = s.numCircuits := by
  unfold setEntryCircuit
  rcases hk : s.table k with _ | x
  · have hinsert := h.insertEntry ⟨k.1, k.2, some c, 0⟩ hk
    exact ⟨_, rfl, hinsert.1, hinsert.2, rfl, rfl⟩
  · obtain ⟨ent, hent, hkey⟩ := h.entry k x hk
    have hset := h.setEntry hk { ent with circuit := some c, madePlaceholderAt := 0 } hkey
    refine ⟨s.setEntry x { ent with circuit := some c, madePlaceholderAt := 0 }, ?_, hset.1, hset.2,
      rfl, rfl⟩
    simp only [hent, bind_eq_bind, bind_some]

/-- **A circuit is entered**, and its channel has one circuit more. -/
lemma exists_enterCircuit (h : TableOk s) (c : ℕ) (d : CellDirection) (chan : Option ChanId)
    (id : CircId) : ∃ s', enterCircuit s c d chan id = some s' ∧ TableOk s' ∧
      (∀ k, s'.look k = if chan.map (·, id) = some k then some (some c) else s.look k) ∧
      s'.circs = s.circs ∧ ∀ d' ch, s'.numCircuits d' ch =
        s.numCircuits d' ch + if d' = d ∧ chan = some ch then 1 else 0 := by
  unfold enterCircuit
  cases chan with
  | none =>
    refine ⟨s, rfl, h, fun k => (if_neg nofun).symm, rfl, fun d' ch => ?_⟩
    rw [if_neg (fun h => nomatch h.2), Int.add_zero]
  | some chan =>
    obtain ⟨s₁, hs₁, htable, hlook, hcircs, hnum⟩ := exists_setEntryCircuit h c (chan, id)
    refine ⟨s₁.addCount d chan 1, ?_, ⟨htable.entry, htable.last⟩, fun k => ?_, hcircs,
      fun d' ch => ?_⟩
    · simp only [hs₁, bind_eq_bind, bind_some]
    · rw [map_some]
      simp only [some.injEq, eq_comm (b := k)]
      exact hlook k
    · rw [numCircuits_addCount, hnum]
      simp only [some.injEq, eq_comm (b := ch)]

lemma CircidState.FreeFor.eq_of_has (h : CircidOk s a) (hfree : s.FreeFor c k) {c' : ℕ}
    (hc' : a.Has c' k) : c' = c := by
  obtain ⟨d', hd'⟩ := hc'
  apply hfree c' d'
  rw [h.pair]
  exact hd'

/-- **A side of a circuit gets a channel and an identifier.** -/
lemma exists_circuitSetCircidChanHelper (h : CircidOk s a) (he : s.side c d = some e) {id : CircId}
    {chan : Option ChanId} (hfree : ∀ ch ∈ chan, s.FreeFor c (ch, id))
    (hparts : s.Parts c d (chan.map (·, id))) :
    ∃ s', circuitSetCircidChanHelper s c d id chan = some s' ∧
      CircidOk s' (a.change c d (chan.map (·, id))) ∧
      s'.side c d = some { e with chan := chan, circId := id } ∧
      ∀ c' d', (s'.side c' d').isSome = (s.side c' d').isSome := by
  have hpair : a.pair c d = e.chan.map (·, e.circId) := by rw [← h.pair, held_eq he]
  rw [circuitSetCircidChanHelper, he, bind_eq_bind, bind_some]
  by_cases hsame : id = e.circId ∧ chan = e.chan
  · obtain ⟨rfl, rfl⟩ := hsame
    refine ⟨s, if_pos ⟨rfl, rfl⟩, ?_, he, fun _ _ => rfl⟩
    rw [Pairs.change, if_pos hpair.symm]
    exact h
  · have htake : a.change c d (chan.map (·, id)) = a.take c d (chan.map (·, id)) := by
      unfold Pairs.change
      split_ifs with heq
      · cases chan with
        | none => exact (Pairs.take_self heq.symm).symm
        | some ch =>
          rw [hpair] at heq
          rcases hchan : e.chan with _ | ch'
          · rw [hchan] at heq
            cases heq
          · rw [hchan] at heq
            obtain ⟨rfl, rfl⟩ := Prod.mk.inj (some.inj heq)
            exact absurd ⟨rfl, hchan.symm⟩ hsame
      · rfl
    rw [htake, if_neg hsame]
    obtain ⟨last, hlast, htable, hforgotten⟩ :=
      exists_forgetLastEnt h.table (e.chan, e.circId) (chan, id)
    simp only [hlast, bind_eq_bind, bind_some]
    obtain ⟨htable₁, hlook₁, hcircs₁, hnum₁⟩ := removeOldEntry_spec h he htable hforgotten
    generalize removeOldEntry { s with lastEnt := last } d e = s₁ at htable₁ hlook₁ hcircs₁ hnum₁ ⊢
    -- the side is set before the new entry is made
    set s₂ := s₁.setSide c d { e with chan := chan, circId := id } with hs₂
    have he₁ : s₁.side c d = some e := (side_congr hcircs₁ c d).trans he
    have hside₂ : s₂.side c d = some { e with chan := chan, circId := id } := by
      rw [hs₂, side_setSide he₁, if_pos ⟨rfl, rfl⟩]
    have htable₂ : TableOk s₂ := ⟨htable₁.entry, htable₁.last⟩
    obtain ⟨s', hs', htable', hlook', hcircs', hnum'⟩ := exists_enterCircuit htable₂ c d chan id
    have hlook₂ : ∀ k, s₂.look k = s₁.look k := fun k => rfl
    have hnum₂ : ∀ d' ch, s₂.numCircuits d' ch = s₁.numCircuits d' ch := fun d' ch => rfl
    refine ⟨s', hs', ⟨htable', fun k => ?_, fun c' d' => ?_, fun c' d' => ?_,
      fun d' ch => ?_⟩, (side_congr hcircs' c d).trans hside₂, fun c' d' => ?_⟩
    · rw [hlook', hlook₂, hlook₁]
      apply Pairs.Fits.take h.fits fun k c c' => h.unique
      · intro k hk c' hc'
        rcases map_eq_some_iff.mp hk with ⟨ch, hch, rfl⟩
        exact (hfree ch hch).eq_of_has h hc'
      · intro k hk hne d' hd'
        apply hparts k (by rw [h.pair, hk]) hne
        rw [h.pair, hd']
    · rw [held_eq_of_circs hcircs', hs₂, held_setSide he₁, Pairs.take_pair,
        held_eq_of_circs hcircs₁, h.pair]
    · rw [pendingOn_congr hcircs', hs₂, pendingOn_setSide he₁, Pairs.take_pending,
        pendingOn_congr hcircs₁,
        ← h.pending]
      split_ifs with hcd
      · rw [hcd.1, hcd.2, pendingOn_eq he]
      · rfl
    · have hattached := attached_setSide he₁ { e with chan := chan, circId := id } d' ch
      rw [attached_congr hcircs₁] at hattached
      rw [hnum', hnum₂, hnum₁, attached_congr hcircs', h.counted]
      simp only [← hs₂] at hattached
      split_ifs at hattached ⊢ <;> omega
    · rw [side_congr hcircs', hs₂, side_setSide he₁]
      split_ifs with hcd
      · rw [hcd.1, hcd.2, he]
        rfl
      · rw [side_congr hcircs₁]

lemma Pairs.Fits.mark {unusable : Bool} {o : Option (Option ℕ)} (hfits : ∀ k, a.Fits k (s.look k))
    (hk : (a.mark k unusable).Fits k o) (k' : ChanCirc) :
    (a.mark k unusable).Fits k' (if k' = k then o else s.look k') := by
  split_ifs with heq
  · rw [heq]
    exact hk
  · have hsame : (a.mark k unusable).unusable k' = a.unusable k' := update_of_ne heq _ _
    rw [Pairs.fits_iff, hsame]
    exact Pairs.fits_iff.mp (hfits k')

lemma Pairs.mark_self {unusable : Bool} (h : a.unusable k = unusable) : a.mark k unusable = a := by
  unfold Pairs.mark
  rw [← h, update_eq_self]

lemma Pairs.mark_unusable (a : Pairs) (k : ChanCirc) (unusable : Bool) :
    (a.mark k unusable).unusable k = unusable := by
  unfold Pairs.mark
  exact update_self _ _ _

/-- **An identifier is marked**, unless a circuit has it. -/
lemma exists_channelMarkCircidUnusable (h : CircidOk s a) (now : ℕ) (chan : ChanId) (id : CircId) :
    ∃ s', channelMarkCircidUnusable s now chan id = some s' ∧ s'.circs = s.circs ∧
      ((∃ c, a.Has c (chan, id)) ∧ CircidOk s' a ∨
        (∀ c, ¬a.Has c (chan, id)) ∧ CircidOk s' (a.mark (chan, id) true)) := by
  have hfits := h.fits (chan, id)
  unfold channelMarkCircidUnusable
  rcases hk : s.table (chan, id) with _ | x
  · rw [TableOk.look_eq_none hk] at hfits
    obtain ⟨htable, hlook⟩ := h.table.insertEntry ⟨chan, id, none, now⟩ hk
    refine ⟨_, rfl, rfl, .inr ⟨hfits.1, h.of_table htable rfl rfl rfl rfl fun k => ?_⟩⟩
    have hmarked : (a.mark (chan, id) true).Fits (chan, id) (some none) :=
      ⟨hfits.1, Pairs.mark_unusable _ _ _⟩
    rw [hlook]
    exact Pairs.Fits.mark h.fits hmarked k
  · obtain ⟨ent, hent, hkey⟩ := h.table.entry _ x hk
    simp only [hent, bind_eq_bind, bind_some]
    rw [TableOk.look_eq hk hent] at hfits
    rcases eq_none_or_eq_some ent.circuit with hcirc | ⟨c, hcirc⟩
    · rw [hcirc] at hfits
      have hmark : a.mark (chan, id) true = a := Pairs.mark_self hfits.2
      rw [if_neg (by rw [hcirc]; exact nofun), hmark]
      split_ifs
      · obtain ⟨htable, hlook⟩ := h.table.setEntry hk { ent with madePlaceholderAt := now } hkey
        refine ⟨_, rfl, rfl, .inr ⟨hfits.1, h.of_table htable rfl rfl rfl rfl fun k => ?_⟩⟩
        have hsame : (if k = (chan, id) then some ent.circuit else s.look k) = s.look k := by
          split_ifs with heq
          · rw [heq, TableOk.look_eq hk hent]
          · rfl
        rw [hlook, hsame]
        exact h.fits k
      · exact ⟨s, rfl, rfl, .inr ⟨hfits.1, h⟩⟩
    · rw [hcirc] at hfits
      exact ⟨s, if_pos (by rw [hcirc]; rfl), rfl, .inl ⟨⟨c, (hfits.1 c).mpr rfl⟩, h⟩⟩

/-- **The mark of an identifier is removed**, if no circuit has it. -/
lemma exists_channelMarkCircidUsable (h : CircidOk s a) {chan : ChanId} {id : CircId}
    (hfree : ∀ c, ¬a.Has c (chan, id)) :
    ∃ s', channelMarkCircidUsable s chan id = some s' ∧ s'.circs = s.circs ∧
      CircidOk s' (a.mark (chan, id) false) := by
  have hfits := h.fits (chan, id)
  unfold channelMarkCircidUsable
  rcases hk : s.table (chan, id) with _ | x
  · rw [TableOk.look_eq_none hk] at hfits
    refine ⟨s, rfl, rfl, ?_⟩
    rw [Pairs.mark_self hfits.2]
    exact h
  · obtain ⟨ent, hent, hkey⟩ := h.table.entry _ x hk
    rw [TableOk.look_eq hk hent] at hfits
    rcases hcirc : ent.circuit with _ | c
    · -- the entry is forgotten if it was found last
      set last := if s.lastEnt = some x then none else s.lastEnt with hlast
      have htable : TableOk { s with lastEnt := last } := by
        rw [hlast]
        split_ifs
        · exact h.table.forget
        · exact h.table
      have hne : last ≠ some x := by
        rw [hlast]
        split_ifs with heq
        · exact nofun
        · exact heq
      obtain ⟨htable', hlook⟩ := htable.freeEntry hk hne
      refine ⟨(CircidState.removeEntry { s with lastEnt := last } (chan, id)).freeEntry x, ?_, rfl,
        h.of_table htable' rfl rfl rfl rfl fun k => ?_⟩
      · simp only [hent, hcirc, bind_eq_bind, bind_some, isSome_none,
          Bool.false_eq_true, if_false]
        rw [hlast]
        by_cases heq : s.lastEnt = some x
        · rw [if_pos heq, if_pos (show (s.removeEntry (chan, id)).lastEnt = some x from heq)]
          rfl
        · rw [if_neg heq, if_neg (show ¬(s.removeEntry (chan, id)).lastEnt = some x from heq)]
      · have hmarked : (a.mark (chan, id) false).Fits (chan, id) none :=
          ⟨hfree, Pairs.mark_unusable _ _ _⟩
        rw [hlook]
        exact Pairs.Fits.mark h.fits hmarked k
    · rw [hcirc] at hfits
      exact absurd ((hfits.1 c).mpr rfl) (hfree c)

/-- **A lookup finds what it should**, through the entry that is remembered or without it. -/
lemma exists_circuitGetByCircidChannelImpl (h : CircidOk s a) (id : CircId) (chan : ChanId) :
    ∃ s' r, circuitGetByCircidChannelImpl s id chan = some (s', r) ∧ s'.circs = s.circs ∧
      CircidOk s' a ∧ a.Finds (chan, id) r ∧
      r = ((s.look (chan, id)).join, (s.look (chan, id)).isSome) := by
  have hfinds : a.Finds (chan, id) ((s.look (chan, id)).join, (s.look (chan, id)).isSome) := by
    obtain ⟨hhas, hmarked⟩ := Pairs.fits_iff.mp (h.fits (chan, id))
    refine ⟨fun c => join_eq_some_iff.trans (hhas c).symm, ?_⟩
    simp only [hhas, hmarked]
    rcases s.look (chan, id) with _ | _ | c <;> simp
  have hentry : ∀ o, o = s.table (chan, id) → entryFound s o =
      some ((s.look (chan, id)).join, (s.look (chan, id)).isSome) := by
    rintro o rfl
    unfold entryFound
    rcases hk : s.table (chan, id) with _ | x
    · rw [TableOk.look_eq_none hk]
      rfl
    · obtain ⟨ent, hent, -⟩ := h.table.entry _ x hk
      simp only [hent, bind_eq_bind, bind_some]
      rw [TableOk.look_eq hk hent]
      rfl
  obtain ⟨last, hlast, hor⟩ : ∃ last, lastEntFor s (chan, id) = some last ∧
      (last = none ∨ last.isSome ∧ last = s.table (chan, id)) := by
    unfold lastEntFor
    rcases hlast : s.lastEnt with _ | x
    · exact ⟨none, rfl, .inl rfl⟩
    · obtain ⟨k, hk⟩ := h.table.last x hlast
      obtain ⟨ent, hent, hkey⟩ := h.table.entry k x hk
      simp only [hent, bind_eq_bind, bind_some]
      split_ifs with hfor
      · refine ⟨some x, rfl, .inr ⟨rfl, ?_⟩⟩
        rw [← hk, ← hkey, hfor.1, hfor.2]
      · exact ⟨none, rfl, .inl rfl⟩
  unfold circuitGetByCircidChannelImpl
  rw [hlast, bind_eq_bind, bind_some]
  rcases hor with rfl | ⟨hsome, htable⟩
  · refine ⟨{ s with lastEnt := s.table (chan, id) }, _, ?_, rfl,
      h.of_table (h.table.remember (chan, id)) rfl rfl rfl rfl h.fits, hfinds, rfl⟩
    have hfound : entryFound { s with lastEnt := s.table (chan, id) } (s.table (chan, id)) =
        some ((s.look (chan, id)).join, (s.look (chan, id)).isSome) := hentry _ rfl
    simp only [isSome_none, Bool.false_eq_true, if_false, hfound, bind_eq_bind,
      bind_some]
  · refine ⟨s, _, ?_, rfl, h, hfinds, rfl⟩
    simp only [hsome, if_true, hentry last htable, bind_eq_bind, bind_some]

/-- Whether a destroy cell is pending is set for a side. -/
lemma CircidOk.setPending (h : CircidOk s a) (he : s.side c d = some e) (pending : Bool) :
    CircidOk (s.setSide c d { e with deletePending := pending }) (a.setPending c d pending) := by
  refine ⟨⟨h.table.entry, h.table.last⟩, h.fits, fun c' d' => ?_, fun c' d' => ?_,
    fun d' chan => ?_⟩
  · rw [held_setSide he]
    split_ifs with hcd
    · rw [hcd.1, hcd.2, ← held_eq he]
      exact h.pair c d
    · exact h.pair c' d'
  · have hset := update_update_apply a.pending c c' d d' pending
    rw [pendingOn_setSide he]
    refine Eq.trans ?_ hset.symm
    split_ifs
    · rfl
    · exact h.pending c' d'
  · have hattached := attached_setSide he { e with deletePending := pending } d' chan
    have hcounted := h.counted d' chan
    have hnum : (s.setSide c d { e with deletePending := pending }).numCircuits d' chan =
      s.numCircuits d' chan := rfl
    rw [hnum, hcounted]
    simp only at hattached
    omega

/-- **A pending destroy cell is noted for the circuit.** -/
lemma exists_noteOnCircuit (h : CircidOk s a) (hhas : a.Has c k) (pending : Bool) :
    ∃ s' d, noteOnCircuit s c k pending = some s' ∧ a.pair c d = some k ∧
      (d = .dirIn → a.pair c .dirOut ≠ some k) ∧ CircidOk s' (a.setPending c d pending) := by
  obtain ⟨d₀, hd₀⟩ := hhas
  have hcirc : ∃ circ, s.circ c = some circ := by
    rw [← h.pair] at hd₀
    obtain ⟨e, he, -⟩ := bind_eq_some_iff.mp hd₀
    obtain ⟨circ, hcirc, -⟩ := exists_circ_of_side he
    exact ⟨circ, hcirc⟩
  obtain ⟨circ, hcirc⟩ := hcirc
  obtain ⟨hout, hin⟩ := sides_of_circ hcirc
  have hiff : ∀ d e, s.side c d = some e →
      (a.pair c d = some k ↔ e.chan = some k.1 ∧ e.circId = k.2) := by
    intro d e he
    rw [← h.pair, held_eq he, map_eq_some_iff]
    constructor
    · rintro ⟨chan, hchan, rfl⟩
      exact ⟨hchan, rfl⟩
    · rintro ⟨hchan, hid⟩
      exact ⟨k.1, hchan, by rw [hid]⟩
  rw [noteOnCircuit, hcirc, bind_eq_bind, bind_some]
  by_cases hn : circ.n.chan = some k.1 ∧ circ.n.circId = k.2
  · rw [if_pos hn]
    exact ⟨_, .dirOut, rfl, (hiff _ _ hout).mpr hn, nofun, h.setPending hout pending⟩
  · rw [if_neg hn]
    have hnot : a.pair c .dirOut ≠ some k := fun heq => hn ((hiff _ _ hout).mp heq)
    cases d₀ with
    | dirOut => exact absurd hd₀ hnot
    | dirIn =>
      obtain ⟨p, hp⟩ : ∃ p, circ.p = some p := by
        rw [← h.pair] at hd₀
        obtain ⟨p, hp, -⟩ := bind_eq_some_iff.mp hd₀
        exact ⟨p, hin ▸ hp⟩
      rw [hp] at hin
      simp only [hp, bind_eq_bind, bind_some, if_pos ((hiff _ _ hin).mp hd₀)]
      exact ⟨_, .dirIn, rfl, hd₀, fun _ => hnot, h.setPending hin pending⟩

lemma Pairs.give_pair (a : Pairs) (c c' : ℕ) (d d' : CellDirection) (new : Option ChanCirc) :
    (a.give c d new).pair c' d' = if c' = c ∧ d' = d then new else a.pair c' d' := by
  have hchange : (a.change c d new).pair c' d' = if c' = c ∧ d' = d then new else a.pair c' d' := by
    unfold Pairs.change
    split_ifs with hnew hcd hcd
    · rw [hcd.1, hcd.2, hnew]
    · rfl
    · rw [Pairs.take_pair, if_pos hcd]
    · rw [Pairs.take_pair, if_neg hcd]
  have hrelease : ∀ old, ((a.change c d new).release old new).pair = (a.change c d new).pair := by
    intro old
    unfold Pairs.release
    cases old with
    | none => rfl
    | some k =>
      simp only
      split_ifs
      · rfl
      · rfl
  rw [← hchange]
  unfold Pairs.give
  split_ifs
  · exact congrFun (congrFun (hrelease _) c') d'
  · rfl

lemma Pairs.give_pending (a : Pairs) (c c' : ℕ) (d d' : CellDirection) (new : Option ChanCirc) :
    (a.give c d new).pending c' d' =
      if (c' = c ∧ d' = d) ∧ a.pair c d ≠ none then false else a.pending c' d' := by
  have hchange : (a.change c d new).pending = a.pending := by
    unfold Pairs.change
    split_ifs
    · rfl
    · exact Pairs.take_pending a c d new
  have hrelease : ∀ old, ((a.change c d new).release old new).pending = a.pending := by
    intro old
    unfold Pairs.release
    cases old with
    | none => exact hchange
    | some k =>
      simp only
      split_ifs
      · exact hchange
      · exact hchange
  have hset := update_update_apply a.pending c c' d d' false
  unfold Pairs.give
  split_ifs with hp hcd hcd
  · refine Eq.trans ?_ (hset.trans (if_pos hcd.1))
    rw [← hrelease (a.pair c d)]
    rfl
  · refine Eq.trans ?_ (hset.trans (if_neg fun h => hcd ⟨h, hp.2⟩))
    rw [← hrelease (a.pair c d)]
    rfl
  · rw [hchange, hcd.1.1, hcd.1.2]
    exact Bool.eq_false_iff.mpr fun hpend => hp ⟨hpend, hcd.2⟩
  · rw [hchange]

/-- **A side of a circuit gets a channel and an identifier**, and what it gives up is marked if a
destroy cell is pending for it. -/
lemma exists_circuitSetSide (h : CircidOk s a) (he : s.side c d = some e) (now : ℕ) (id : CircId)
    (chan : Option ChanId) (hfree : ∀ ch ∈ chan, s.FreeFor c (ch, id))
    (hparts : s.Parts c d (chan.map (·, id))) :
    ∃ s', circuitSetSide s now c d id chan = some s' ∧ CircidOk s' (a.give c d (chan.map (·, id))) ∧
      ∀ c' d', (s'.side c' d').isSome = (s.side c' d').isSome := by
  obtain ⟨s₁, hs₁, hok₁, hside₁, hsome₁⟩ := exists_circuitSetCircidChanHelper h he hfree hparts
  have hpair : a.pair c d = e.chan.map (·, e.circId) := by rw [← h.pair, held_eq he]
  have hpending : a.pending c d = e.deletePending := by rw [← h.pending, pendingOn_eq he]
  rw [circuitSetSide, he, bind_eq_bind, bind_some, hs₁, bind_eq_bind, bind_some,
    hside₁, bind_some]
  rw [Pairs.give, hpending]
  rcases hchan : e.chan with _ | oldChan
  · rw [hchan, map_none] at hpair
    refine ⟨s₁, rfl, ?_, hsome₁⟩
    rw [if_neg fun h => h.2 hpair]
    exact hok₁
  · rw [hchan, map_some] at hpair
    by_cases hp : e.deletePending = true
    · obtain ⟨s₂, hs₂, hcircs₂, hmark⟩ := exists_channelMarkCircidUnusable hok₁ now oldChan e.circId
      have hside₂ : s₂.side c d = some { e with chan := chan, circId := id } :=
        (side_congr hcircs₂ c d).trans hside₁
      have hok₂ : CircidOk s₂
          ((a.change c d (chan.map (·, id))).release (a.pair c d) (chan.map (·, id))) := by
        rw [hpair, Pairs.release]
        unfold Pairs.change at hmark ⊢
        rw [hpair] at hmark ⊢
        split_ifs at hmark ⊢ with hnew
        · rcases hmark with ⟨-, hok₂⟩ | ⟨hnone, -⟩
          · exact hok₂
          · exact absurd ⟨d, hpair⟩ (hnone c)
        · rcases hmark with ⟨⟨c', d', hd'⟩, -⟩ | ⟨-, hok₂⟩
          · rw [Pairs.take_pair] at hd'
            split_ifs at hd' with hcd
            · exact absurd hd' hnew
            · obtain rfl := h.unique ⟨d, hpair⟩ ⟨d', hd'⟩
              refine absurd ⟨rfl, ?_⟩ hcd
              exact hparts _ (by rw [h.pair, hpair]) hnew d' (by rw [h.pair, hd'])
          · exact hok₂
      refine ⟨s₂.setSide c d { e with chan := chan, circId := id, deletePending := false }, ?_, ?_,
        fun c' d' => ?_⟩
      · simp only [hp, if_true, hs₂, bind_some]
      · rw [if_pos ⟨hp, by rw [hpair]; exact nofun⟩]
        exact hok₂.setPending hside₂ false
      · rw [side_setSide hside₂]
        split_ifs with hcd
        · rw [hcd.1, hcd.2, he]
          rfl
        · rw [side_congr hcircs₂, hsome₁]
    · refine ⟨s₁, if_neg hp, ?_, hsome₁⟩
      rw [if_neg fun h => hp h.1]
      exact hok₁

/-- The circuits change, but not what their sides have. -/
lemma CircidOk.of_held (h : CircidOk s a) {circs : List (Option CircidCircuit)}
    (hheld : ∀ c d, held { s with circs := circs } c d = s.held c d)
    (hpending : ∀ c d, pendingOn { s with circs := circs } c d = s.pendingOn c d) :
    CircidOk { s with circs := circs } a where
  table := ⟨h.table.entry, h.table.last⟩
  fits := h.fits
  pair c d := (hheld c d).trans (h.pair c d)
  pending c d := (hpending c d).trans (h.pending c d)
  counted d chan :=
    (h.counted d chan).trans (congrArg Nat.cast (attached_of_held (hheld · d) chan).symm)

/-- **A circuit that has nothing leaves a gap.** -/
lemma CircidOk.freed (h : CircidOk s a) (hpair : ∀ d, a.pair c d = none)
    (hpending : ∀ d, a.pending c d = false) :
    CircidOk { s with circs := s.circs.set c none } a := by
  have hside : ∀ c' d, side { s with circs := s.circs.set c none } c' d =
      if c' = c then none else s.side c' d := by
    intro c' d
    unfold side circ
    split_ifs with hc
    · subst hc
      rw [getElem?_set_self']
      rcases s.circs[c']? with _ | circ
      · rfl
      · rfl
    · rw [getElem?_set_ne (Ne.symm hc)]
  refine h.of_held (fun c' d => ?_) fun c' d => ?_
  · rw [held, hside]
    split_ifs with hc
    · rw [hc, h.pair, hpair]
      rfl
    · rfl
  · rw [pendingOn, hside]
    split_ifs with hc
    · rw [hc, h.pending, hpending]
      rfl
    · rfl

/-- A pending destroy cell is one for something that the side has. -/
def Pairs.Owed (a : Pairs) : Prop := ∀ c d, a.pending c d = true → a.pair c d ≠ none

/-- What is pending stays for something. -/
lemma Pairs.Owed.give (h : a.Owed) (c : ℕ) (d : CellDirection) (new : Option ChanCirc) :
    (a.give c d new).Owed := by
  intro c' d' hpending
  rw [Pairs.give_pending] at hpending
  rw [Pairs.give_pair]
  split_ifs at hpending ⊢ with hcd hp
  · rw [hcd.1, hcd.2] at hpending
    exact absurd ⟨hcd, h c d hpending⟩ hp
  · exact h c' d' hpending

lemma Pairs.Owed.noted (h : a.Owed) {pending : Bool} {a' : Pairs} (hnoted : a.Noted k pending a') :
    a'.Owed := by
  rcases hnoted with ⟨c, d, hk, -, rfl⟩ | ⟨-, rfl⟩
  · intro c' d' hpending
    have hset := update_update_apply a.pending c c' d d' pending
    rw [show (a.setPending c d pending).pending c' d' = _ from hset] at hpending
    split_ifs at hpending with hcd
    · rw [hcd.1, hcd.2]
      exact fun hnone => nomatch hk.symm.trans hnone
    · exact h c' d' hpending
  · exact h

/-- **What is pending stays for something.** -/
lemma PairStep.owed {ev : CircidEvent} {found : Option (Option ℕ × Bool)} {a' : Pairs}
    (hstep : PairStep a ev found a') (h : a.Owed) : a'.Owed := by
  cases ev with
  | newCircuit isOrigin => exact hstep.2 ▸ h
  | setN now c id chan => exact hstep.2 ▸ h.give c _ _
  | setP now c id chan => exact hstep.2 ▸ h.give c _ _
  | markUnusable now chan id =>
    rcases hstep.2 with ⟨-, rfl⟩ | ⟨-, rfl⟩
    · exact h
    · exact h
  | markUsable chan id => exact hstep.2 ▸ h
  | notePending now chan id => exact h.noted hstep.2
  | noteNotPending chan id => exact h.noted hstep.2
  | get chan id => exact hstep.1 ▸ h
  | markForClose c => exact hstep.2 ▸ h
  | free now c => exact hstep.2 ▸ (h.give c _ _).give c _ _

section

variable (h : CircidOk s a)

include h

/-- **A circuit is freed.** -/
lemma exists_circidCircuitFree (howed : a.Owed) {circ : CircidCircuit}
    (hcirc : s.circ c = some circ) (now : ℕ) (hparts : s.Parts c .dirIn none) :
    ∃ s', circidCircuitFree s now c = some s' ∧
      CircidOk s' ((a.give c .dirIn none).give c .dirOut none) := by
  obtain ⟨hout, hin⟩ := sides_of_circ hcirc
  rw [circidCircuitFree, hcirc, bind_eq_bind, bind_some]
  -- the side towards the origin
  obtain ⟨s₁, hs₁, hok₁, e₁, he₁⟩ :
    ∃ s₁, (if circ.p.isSome then circuitSetPCircidChan s now c 0 none
      else some s) = some s₁ ∧ CircidOk s₁ (a.give c .dirIn none) ∧
        ∃ e₁, s₁.side c .dirOut = some e₁ := by
    rcases hp : circ.p with _ | p
    · refine ⟨s, rfl, ?_, circ.n, hout⟩
      have hpair : a.pair c .dirIn = none := by
        rw [← h.pair, held, hin, hp]
        rfl
      rw [Pairs.give, if_neg fun h => h.2 hpair, Pairs.change, if_pos hpair.symm]
      exact h
    · rw [hp] at hin
      obtain ⟨s₁, hs₁, hok₁, hsome₁⟩ := exists_circuitSetSide h hin now 0 none nofun hparts
      refine ⟨s₁, hs₁, hok₁, isSome_iff_exists.mp ?_⟩
      rw [hsome₁, hout]
      rfl
  simp only [hs₁, bind_eq_bind, bind_some]
  -- the side away from the origin, after the other one has given up what it has had
  have hparts₁ : s₁.Parts c .dirOut none := by
    intro k hk hne d' hd'
    rw [hok₁.pair, Pairs.give_pair] at hd'
    split_ifs at hd' with hcd
    · cases d' with
      | dirIn => exact absurd ⟨rfl, rfl⟩ hcd
      | dirOut => rfl
  obtain ⟨s₂, hs₂, hok₂, -⟩ := exists_circuitSetSide hok₁ he₁ now 0 none nofun hparts₁
  refine ⟨{ s₂ with circs := s₂.circs.set c none }, ?_, hok₂.freed (fun d => ?_) fun d => ?_⟩
  · rw [circuitSetNCircidChan, hs₂, bind_some]
  · rw [Pairs.give_pair, Pairs.give_pair]
    cases d with
    | dirIn => rw [if_neg (fun h => nomatch h.2), if_pos ⟨rfl, rfl⟩]
    | dirOut => exact if_pos ⟨rfl, rfl⟩
  · have hnone : ((a.give c .dirIn none).give c .dirOut none).pair c d = none := by
      rw [Pairs.give_pair, Pairs.give_pair]
      cases d with
      | dirIn => rw [if_neg (fun h => nomatch h.2), if_pos ⟨rfl, rfl⟩]
      | dirOut => exact if_pos ⟨rfl, rfl⟩
    exact Bool.eq_false_iff.mpr fun hpending => ((howed.give c _ _).give c _ _) c d hpending hnone

/-- **A new circuit has nothing.** -/
lemma CircidOk.newCircuit (isOrigin : Bool) : CircidOk (circidCircuitNew s isOrigin) a := by
  set circ : CircidCircuit :=
    ⟨⟨none, 0, false⟩, if isOrigin then none else some ⟨none, 0, false⟩, false⟩ with hcirc
  have hempty : ∀ d e, circ.side d = some e → e = ⟨none, 0, false⟩ := by
    intro d e he
    cases d with
    | dirOut => exact (some.inj he).symm
    | dirIn =>
      cases isOrigin with
      | false => exact (some.inj he).symm
      | true => cases he
  have hside : ∀ c d, (circidCircuitNew s isOrigin).side c d =
      if c = s.circs.length then circ.side d else s.side c d := by
    intro c d
    have hcircs : (circidCircuitNew s isOrigin).circs = s.circs ++ [some circ] := rfl
    unfold CircidState.side CircidState.circ
    rw [hcircs]
    split_ifs with hc
    · rw [hc, getElem?_concat_length]
      rfl
    · rcases lt_or_ge c s.circs.length with hlt | hge
      · rw [getElem?_append_left hlt]
      · rw [getElem?_eq_none (by rw [length_append, length_singleton]; omega),
          getElem?_eq_none hge]
  have hold : ∀ d, s.side s.circs.length d = none := by
    intro d
    unfold CircidState.side CircidState.circ
    rw [getElem?_eq_none (le_refl _)]
    rfl
  refine h.of_held (fun c d => ?_) fun c d => ?_
  · show (circidCircuitNew s isOrigin).held c d = _
    rw [CircidState.held, hside]
    split_ifs with hc
    · rw [CircidState.held, hc, hold]
      rcases he : circ.side d with _ | e
      · rfl
      · rw [hempty d e he]
        rfl
    · rfl
  · show (circidCircuitNew s isOrigin).pendingOn c d = _
    rw [CircidState.pendingOn, hside]
    split_ifs with hc
    · rw [CircidState.pendingOn, hc, hold]
      rcases he : circ.side d with _ | e
      · rfl
      · rw [hempty d e he]
        rfl
    · rfl

/-- **A circuit that is marked for close has what it has had.** -/
lemma CircidOk.markForClose {circ : CircidCircuit} (hcirc : s.circ c = some circ) :
    CircidOk { s with circs := s.circs.set c (some { circ with markedForClose := true }) } a := by
  have hcell : s.circs[c]? = some (some circ) := join_eq_some_iff.mp hcirc
  obtain ⟨hlt, heq⟩ := List.getElem?_eq_some_iff.mp hcell
  have hmarked : ∀ d, ({ circ with markedForClose := true } : CircidCircuit).side d =
      circ.side d := by
    intro d
    cases d with
    | dirIn => rfl
    | dirOut => rfl
  have hside : ∀ c' d, side
      { s with circs := s.circs.set c (some { circ with markedForClose := true }) } c' d =
        s.side c' d := by
    intro c' d
    unfold side
    by_cases hc : c' = c
    · subst hc
      rw [hcirc, bind_some, ← hmarked]
      unfold CircidState.circ
      rw [getElem?_set_self hlt]
      rfl
    · unfold CircidState.circ
      rw [getElem?_set_ne (Ne.symm hc)]
  refine h.of_held (fun c' d => ?_) fun c' d => ?_
  · rw [held, hside]
    rfl
  · rw [pendingOn, hside]
    rfl

/-- A circuit is looked up even if it is marked for close. -/
lemma exists_circuitGetByCircidChannelEvenIfMarked (id : CircId) (chan : ChanId) :
    ∃ s' o, circuitGetByCircidChannelEvenIfMarked s id chan = some (s', o) ∧ CircidOk s' a ∧
      ∀ c, o = some c ↔ a.Has c (chan, id) := by
  obtain ⟨s', r, hs', -, hok', hfinds, -⟩ := exists_circuitGetByCircidChannelImpl h id chan
  refine ⟨s', r.1, ?_, hok', hfinds.1⟩
  rw [circuitGetByCircidChannelEvenIfMarked, hs']
  rfl

/-- **A destroy cell is pending or not**, for a circuit or for an identifier without one. -/
lemma exists_channelNoteDestroyPending (now : ℕ) (chan : ChanId) (id : CircId) :
    ∃ s' a', channelNoteDestroyPending s now chan id = some s' ∧ a.Noted (chan, id) true a' ∧
      CircidOk s' a' := by
  obtain ⟨s₁, o, hs₁, hok₁, hfinds⟩ := exists_circuitGetByCircidChannelEvenIfMarked h id chan
  rw [channelNoteDestroyPending, hs₁, bind_eq_bind, bind_some]
  rcases o with _ | c
  · have hnone : ∀ c, ¬a.Has c (chan, id) := fun c hc => nomatch (hfinds c).mpr hc
    obtain ⟨s₂, hs₂, -, hmark⟩ := exists_channelMarkCircidUnusable hok₁ now chan id
    rcases hmark with ⟨⟨c, hc⟩, -⟩ | ⟨-, hok₂⟩
    · exact absurd hc (hnone c)
    · exact ⟨s₂, _, hs₂, .inr ⟨hnone, rfl⟩, hok₂⟩
  · obtain ⟨s₂, d, hs₂, hd, hout, hok₂⟩ := exists_noteOnCircuit hok₁ ((hfinds c).mp rfl) true
    exact ⟨s₂, _, hs₂, .inl ⟨c, d, hd, hout, rfl⟩, hok₂⟩

/-- **A destroy cell is no longer pending**, for a circuit or for an identifier without one. -/
lemma exists_channelNoteDestroyNotPending (chan : ChanId) (id : CircId) :
    ∃ s' a', channelNoteDestroyNotPending s chan id = some s' ∧ a.Noted (chan, id) false a' ∧
      CircidOk s' a' := by
  obtain ⟨s₁, o, hs₁, hok₁, hfinds⟩ := exists_circuitGetByCircidChannelEvenIfMarked h id chan
  rw [channelNoteDestroyNotPending, hs₁, bind_eq_bind, bind_some]
  rcases o with _ | c
  · have hnone : ∀ c, ¬a.Has c (chan, id) := fun c hc => nomatch (hfinds c).mpr hc
    obtain ⟨s₂, hs₂, -, hok₂⟩ := exists_channelMarkCircidUsable hok₁ hnone
    exact ⟨s₂, _, hs₂, .inr ⟨hnone, rfl⟩, hok₂⟩
  · obtain ⟨s₂, d, hs₂, hd, hout, hok₂⟩ := exists_noteOnCircuit hok₁ ((hfinds c).mp rfl) false
    exact ⟨s₂, _, hs₂, .inl ⟨c, d, hd, hout, rfl⟩, hok₂⟩

/-- **An event does what it should.** -/
lemma exists_circidStep (howed : a.Owed) (ev : CircidEvent) (hok : ev.Ok s)
    (hspared : ev.Spared s) :
    ∃ s' found a', s.step ev = some (s', found) ∧ PairStep a ev found a' ∧ CircidOk s' a' := by
  cases ev with
  | newCircuit isOrigin => exact ⟨_, none, a, rfl, ⟨rfl, rfl⟩, h.newCircuit isOrigin⟩
  | setN now c id chan =>
    obtain ⟨e, he⟩ := isSome_iff_exists.mp hok.1
    obtain ⟨s', hs', hok', -⟩ := exists_circuitSetSide h he now id chan hok.2 hspared
    refine ⟨s', none, _, ?_, ⟨rfl, rfl⟩, hok'⟩
    rw [step, circuitSetNCircidChan, hs']
    rfl
  | setP now c id chan =>
    obtain ⟨e, he⟩ := isSome_iff_exists.mp hok.1
    obtain ⟨s', hs', hok', -⟩ := exists_circuitSetSide h he now id chan hok.2 hspared
    refine ⟨s', none, _, ?_, ⟨rfl, rfl⟩, hok'⟩
    rw [step, circuitSetPCircidChan, hs']
    rfl
  | markUnusable now chan id =>
    obtain ⟨s', hs', -, hmark⟩ := exists_channelMarkCircidUnusable h now chan id
    have hstep : s.step (.markUnusable now chan id) = some (s', none) := by
      rw [step, hs']
      rfl
    rcases hmark with ⟨hhas, hok'⟩ | ⟨hnone, hok'⟩
    · exact ⟨s', none, a, hstep, ⟨rfl, .inl ⟨hhas, rfl⟩⟩, hok'⟩
    · exact ⟨s', none, _, hstep, ⟨rfl, .inr ⟨hnone, rfl⟩⟩, hok'⟩
  | markUsable chan id =>
    have hnone : ∀ c, ¬a.Has c (chan, id) := by
      rintro c ⟨d, hd⟩
      apply hspared c d
      rw [h.pair, hd]
    obtain ⟨s', hs', -, hok'⟩ := exists_channelMarkCircidUsable h hnone
    refine ⟨s', none, _, ?_, ⟨rfl, rfl⟩, hok'⟩
    rw [step, hs']
    rfl
  | notePending now chan id =>
    obtain ⟨s', a', hs', hnoted, hok'⟩ := exists_channelNoteDestroyPending h now chan id
    refine ⟨s', none, a', ?_, ⟨rfl, hnoted⟩, hok'⟩
    rw [step, hs']
    rfl
  | noteNotPending chan id =>
    obtain ⟨s', a', hs', hnoted, hok'⟩ := exists_channelNoteDestroyNotPending h chan id
    refine ⟨s', none, a', ?_, ⟨rfl, hnoted⟩, hok'⟩
    rw [step, hs']
    rfl
  | get chan id =>
    obtain ⟨s', r, hs', -, hok', hfinds, -⟩ := exists_circuitGetByCircidChannelImpl h id chan
    refine ⟨s', some r, a, ?_, ⟨rfl, r, rfl, hfinds⟩, hok'⟩
    rw [step, hs']
    rfl
  | markForClose c =>
    obtain ⟨circ, hcirc⟩ := isSome_iff_exists.mp hok
    refine ⟨_, none, a, ?_, ⟨rfl, rfl⟩, h.markForClose hcirc⟩
    rw [step, hcirc]
    rfl
  | free now c =>
    obtain ⟨circ, hcirc⟩ := isSome_iff_exists.mp hok
    obtain ⟨s', hs', hok'⟩ := exists_circidCircuitFree h howed hcirc now hspared
    refine ⟨s', none, _, ?_, ⟨rfl, rfl⟩, hok'⟩
    rw [step, hs']
    rfl

end

lemma circidOk_init : CircidOk CircidState.init Pairs.init := by
  refine ⟨⟨nofun, nofun⟩, fun k => ?_, fun _ _ => rfl, fun _ _ => rfl,
    fun _ _ => rfl⟩
  refine ⟨fun c hc => ?_, rfl⟩
  obtain ⟨d, hd⟩ := hc
  cases hd

/-- **Events one after another do what they should.** -/
lemma exists_circidRun {events : List CircidEvent} (h : CircidOk s a) (howed : a.Owed)
    (hok : Runs.MeetsAlong next (fun s ev => ev.Ok s ∧ ev.Spared s) events s) :
    ∃ s' out a', s.run events = some (s', out) ∧ PairRun a events out a' ∧ CircidOk s' a' := by
  induction events generalizing s a with
  | nil => exact ⟨s, [], a, rfl, PairRun.nil a, h⟩
  | cons ev events ih =>
    obtain ⟨s₁, found, a₁, hs₁, hstep, hok₁⟩ := exists_circidStep h howed ev hok.1.1 hok.1.2
    have hnext : s.next ev = some s₁ := by
      rw [next, hs₁]
      rfl
    obtain ⟨s', out, a', hs', hrun, hok'⟩ := ih hok₁ (hstep.owed howed) (hok.2 s₁ hnext)
    refine ⟨s', found :: out, a', ?_, PairRun.cons hstep hrun, hok'⟩
    rw [CircidState.run, hs₁, bind_eq_bind, bind_some]
    simp only [hs']
    rfl

/-- **Lookups find what they should.**  In a run in which no identifier is given to a second
circuit, none is marked as usable that a circuit has, and no circuit gives up what it has on its
other side, the lookups find the circuits that have the channels and identifiers, or what is marked,
and so does every lookup afterwards, through the entry that is remembered or without it.  The
channels count their circuits. -/
theorem circidMap_refines (events : List CircidEvent)
    (hok : Runs.MeetsAlong CircidState.next (fun s ev => ev.Ok s ∧ ev.Spared s) events
      CircidState.init) :
    ∃ s out a, CircidState.init.run events = some (s, out) ∧ PairRun Pairs.init events out a ∧
      (∀ c d, s.held c d = a.pair c d) ∧
      (∀ chan id, ∃ s₁ s₂ r, circuitGetByCircidChannelImpl s id chan = some (s₁, r) ∧
        circuitGetByCircidChannelImpl { s with lastEnt := none } id chan = some (s₂, r) ∧
        a.Finds (chan, id) r) ∧
      ∀ d chan, s.numCircuits d chan = s.attached d chan := by
  obtain ⟨s, out, a, hs, hrun, h⟩ := exists_circidRun circidOk_init (fun _ _ hp => nomatch hp) hok
  refine ⟨s, out, a, hs, hrun, h.pair, fun chan id => ?_, h.counted⟩
  have hforgotten : CircidOk { s with lastEnt := none } a :=
    h.of_table h.table.forget rfl rfl rfl rfl h.fits
  obtain ⟨s₁, r, hs₁, -, -, hfinds, hr⟩ := exists_circuitGetByCircidChannelImpl h id chan
  obtain ⟨s₂, r₂, hs₂, -, -, -, hr₂⟩ := exists_circuitGetByCircidChannelImpl hforgotten id chan
  obtain rfl : r = r₂ := hr.trans hr₂.symm
  exact ⟨s₁, s₂, r, hs₁, hs₂, hfinds⟩

/-- A circuit leaves its channel while a destroy cell is pending, and its identifier stays
marked. -/
theorem circidMap_refines_pending :
    ∃ s out a, CircidState.init.run [.newCircuit false, .setN 0 0 100 (some 1),
      .notePending 0 1 100,
        .setN 0 0 0 none, .get 1 100] = some (s, out) ∧
      PairRun Pairs.init [.newCircuit false, .setN 0 0 100 (some 1), .notePending 0 1 100,
        .setN 0 0 0 none, .get 1 100] out a ∧
      (∀ c d, s.held c d = a.pair c d) ∧
      (∀ chan id, ∃ s₁ s₂ r, circuitGetByCircidChannelImpl s id chan = some (s₁, r) ∧
        circuitGetByCircidChannelImpl { s with lastEnt := none } id chan = some (s₂, r) ∧
        a.Finds (chan, id) r) ∧
      ∀ d chan, s.numCircuits d chan = s.attached d chan := by
  refine circidMap_refines _ ⟨⟨trivial, trivial⟩, fun s₁ hs₁ => ?_⟩
  obtain rfl := Option.some.inj hs₁
  refine ⟨⟨⟨rfl, fun ch hch c d hd => ?_⟩, fun k hk => ?_⟩, fun s₂ hs₂ => ?_⟩
  · cases c with
    | zero => rfl
    | succ c => cases hd
  · cases hk
  obtain rfl := Option.some.inj hs₂
  refine ⟨⟨trivial, trivial⟩, fun s₃ hs₃ => ?_⟩
  obtain rfl := Option.some.inj hs₃
  refine ⟨⟨⟨rfl, nofun⟩, fun k _ _ d hd => ?_⟩, fun s₄ hs₄ =>
    ⟨⟨trivial, trivial⟩, fun _ _ => trivial⟩⟩
  cases d with
  | dirOut => rfl
  | dirIn => cases hd

/-- An identifier of a circuit is marked as usable: a lookup does not find the circuit any more, and
the channel still counts it when it has left. -/
theorem not_circidMap_refines_usable :
    ∃ s s', CircidState.init.run [.newCircuit false, .setN 0 0 5 (some 1), .markUsable 1 5,
      .get 1 5] =
        some (s, [none, none, none, some (none, false)]) ∧
      s.held 0 .dirOut = some (1, 5) ∧ s.next (.setN 0 0 0 none) = some s' ∧
      s'.numCircuits .dirOut 1 = 1 ∧ s'.attached .dirOut 1 = 0 :=
  ⟨_, _, rfl, rfl, rfl, rfl, rfl⟩

end Functions

end Astoria
