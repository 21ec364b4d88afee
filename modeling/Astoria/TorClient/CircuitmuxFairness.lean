import Astoria.TorClient.CircuitmuxRuns

/-!
# Fairness of circuit multiplexers

Without a policy, a multiplexer picks the first circuit of its list, and a circuit of which cells
have been sent goes to the end.  The pick and the report that follows are a service
(`Watched.step`), and the list is a line at a counter (`ShowsLine`).  Between two services of a
circuit every other one that has cells all the time is served exactly once, if the first circuit has
cells all the time as well; one that ran out of cells and gets new ones is put in front.  While
there are destroy cells and other ones, the two kinds take turns.
-/

namespace Astoria

open List Option
open DoublyLinked

variable {C P : Type}

/-! ### Services -/

section Model

variable [DecidableEq C] [DecidableEq P] (w : CircuitWorld C P)

def circuitmuxIsCircuitActive (s : CmuxState C P) (m : ChanId) (c : C) : Option Bool := do
  let hashent ← circuitmuxFindMapEntry w s m c
  return hashent.any fun e => decide (0 < e.cellCount)

/-- The multiplexers, with the circuit that has been picked on one of them and whose cells are yet
to be reported. -/
structure Watched (C P : Type) where
  state : CmuxState C P
  chosen : Option C

/-- The circuit that is picked by an operation, or whose cells are yet to be reported after it. -/
def Watched.chosenAfter (m : ChanId) (q : Watched C P) : CmuxEvent C P → Option C
  | .getFirstActiveCircuit m' pick =>
    if m' = m then (circuitmuxGetFirstActiveCircuit w q.state m pick).bind fun r =>
      r.2.2 else q.chosen
  | .notifyXmitCells m' _ nCells => if m' = m ∧ nCells ≠ 0 then none else q.chosen
  | _ => q.chosen

/-- An operation, with an eye on one multiplexer. -/
def Watched.step (m : ChanId) (q : Watched C P) (event : CmuxEvent C P) : Option (Watched C P) :=
  (q.state.step w event).map fun s' => ⟨s', q.chosenAfter w m event⟩

/-- New multiplexers. -/
def Watched.init (C P : Type) : Watched C P := ⟨CmuxState.init C P, none⟩

/-- The circuit that is served by an operation. -/
def CmuxEvent.serves (m : ChanId) : CmuxEvent C P → Option C
  | .notifyXmitCells m' c nCells => if m' = m ∧ nCells ≠ 0 then some c else none
  | _ => none

/-- Whether an operation picks a circuit. -/
def CmuxEvent.picks (m : ChanId) : CmuxEvent C P → Bool
  | .getFirstActiveCircuit m' _ => m' = m
  | _ => false

/-- An operation that meets what its assertions demand, on multiplexers of which the watched one
gets no policy: cells are reported of the circuit that has been picked, and before the next one
is. -/
def CmuxEvent.Fair (m : ChanId) (q : Watched C P) : CmuxEvent C P → Prop
  | .getFirstActiveCircuit m' pick =>
    (m' = m → q.chosen = none) ∧ circuitmuxGetFirstActiveCircuit w q.state m' pick ≠ none
  | .notifyXmitCells m' c nCells =>
    (m' = m → nCells ≠ 0 → q.chosen = some c) ∧
      (CmuxEvent.notifyXmitCells m' c nCells).Safe w q.state
  | .setPolicy m' pol => (m' = m → pol = none) ∧ (CmuxEvent.setPolicy m' pol).Safe w q.state
  | event => event.Safe w q.state

instance [∀ p, Decidable (w.policy p).Ok] (m : ChanId) (q : Watched C P) :
    DecidablePred (CmuxEvent.Fair w m q)
  | .getFirstActiveCircuit m' pick =>
    inferInstanceAs (Decidable ((m' = m → q.chosen = none) ∧
      ¬ circuitmuxGetFirstActiveCircuit w q.state m' pick = none))
  | .notifyXmitCells m' c nCells =>
    inferInstanceAs (Decidable ((m' = m → nCells ≠ 0 → q.chosen = some c) ∧
      CmuxEvent.Safe w q.state (.notifyXmitCells m' c nCells)))
  | .setPolicy m' pol =>
    inferInstanceAs
      (Decidable ((m' = m → pol = none) ∧ CmuxEvent.Safe w q.state (.setPolicy m' pol)))
  | .attachCircuit m c d n =>
    inferInstanceAs (Decidable (CmuxEvent.Safe w q.state (.attachCircuit m c d n)))
  | .detachCircuit m c =>
    inferInstanceAs (Decidable (CmuxEvent.Safe w q.state (.detachCircuit m c)))
  | .setNumCells m c n =>
    inferInstanceAs (Decidable (CmuxEvent.Safe w q.state (.setNumCells m c n)))
  | .detachAllCircuits _ | .appendDestroyCell _ | .popDestroyCell _ | .notifyXmitDestroy _
  | .clearPolicy _ => isTrue trivial

end Model

variable {w : CircuitWorld C P} {s s' : CmuxState C P} {m m' : ChanId} {c : C} {e : MuxEntry}
  {l : List C}

/-! ### Active circuits -/

lemma MuxTable.of_circuitmuxFindMapEntry (h : MuxTable w m (s.mux m).chanidCircidMap)
    (hfind : circuitmuxFindMapEntry w s m c = some (some e)) :
    e ∈ (s.mux m).chanidCircidMap ∧ IsEntry w m e c := by
  unfold circuitmuxFindMapEntry at hfind
  split at hfind
  · next e' hsearch =>
    obtain ⟨-, -, hfind⟩ := bind_eq_some_iff.mp hfind
    obtain rfl := some.inj (some.inj hfind)
    obtain ⟨hchan, hfound⟩ := h.of_search hsearch
    obtain ⟨he, hc, -⟩ :=
      h.isEntry_of_htFind (dirOn_eq_some.mpr ⟨hchan, fun hdir => by cases hdir⟩) hfound
    exact ⟨he, hc⟩
  · split at hfind
    · next hor =>
      split at hfind
      · next e' hsearch =>
        obtain ⟨-, -, hfind⟩ := bind_eq_some_iff.mp hfind
        obtain rfl := some.inj (some.inj hfind)
        obtain ⟨hchan, hfound⟩ := h.of_search hsearch
        obtain ⟨he, hc, -⟩ := h.isEntry_of_htFind (dirOn_eq_some.mpr ⟨hchan, fun _ => hor⟩) hfound
        exact ⟨he, hc⟩
      · cases hfind
    · cases hfind

/-- **The active circuits are those in the list.** -/
lemma MuxLinked.isCircuitActive_iff (h : MuxLinked w s m l) :
    circuitmuxIsCircuitActive w s m c = some true ↔ c ∈ l := by
  unfold circuitmuxIsCircuitActive
  constructor
  · intro hactive
    obtain ⟨r, hr, hactive⟩ := bind_eq_some_iff.mp hactive
    cases r with
    | none => cases hactive
    | some e =>
      obtain ⟨he, hc⟩ := h.table.of_circuitmuxFindMapEntry hr
      exact (h.mem_iff he hc).mpr (of_decide_eq_true (some.inj hactive))
  · intro hc
    obtain ⟨e, he, hc, hpos⟩ := (h.active c).mp hc
    rw [circuitmuxFindMapEntry_eq h.table he hc]
    exact congrArg some (decide_eq_true hpos)

lemma MuxOk.nActiveCircuits_eq_zero_iff (h : MuxOk w s m) (hl : MuxLinked w s m l) :
    (s.mux m).nActiveCircuits = 0 ↔ l = [] := by
  have hlt : countActive (s.mux m).chanidCircidMap < 2 ^ 32 :=
    Nat.lt_of_le_of_lt countP_le_length hl.table.length_lt
  rw [h.2.1.active, ← UInt32.toNat_inj, UInt32.toNat_ofNat', Nat.mod_eq_of_lt hlt, ← hl.length_eq]
  exact length_eq_zero_iff

/-! ### The line of circuits -/

/-- The invariant: the multiplexers are consistent, and the watched one has no policy. -/
structure WatchedOk (w : CircuitWorld C P) (m : ChanId) (q : Watched C P) : Prop where
  /-- The multiplexers are consistent. -/
  ok : CmuxOk w q.state
  policy_eq : (q.state.mux m).policy = none

/-- The list of the watched multiplexer is the line at a counter. -/
structure ShowsLine (w : CircuitWorld C P) (m : ChanId) (q : Watched C P)
    (r : RoundRobin.Counter C) : Prop where
  list : (links w q.state m).IsList r.line
  chosen_eq : r.chosen = q.chosen

lemma WatchedOk.exists_shows {q : Watched C P} (h : WatchedOk w m q) : ∃ r, ShowsLine w m q r := by
  obtain ⟨⟨l, hl⟩, -, -⟩ := h.ok.2 m
  exact ⟨⟨l, hl.list.nodup, q.chosen⟩, hl.list, rfl⟩

lemma ShowsLine.mem_line_iff {q : Watched C P} {r : RoundRobin.Counter C} (h : ShowsLine w m q r)
    (hok : WatchedOk w m q) : c ∈ r.line ↔ circuitmuxIsCircuitActive w q.state m c = some true := by
  obtain ⟨⟨l, hl⟩, -, -⟩ := hok.ok.2 m
  rw [hl.isCircuitActive_iff, h.list.unique hl.list]

lemma Elsewhere.move (h : Elsewhere w m' s s') (hok : CmuxOk w s) (hne : m ≠ m') :
    MuxMove w m RoundRobin.Joins s s' := by
  obtain ⟨⟨l, hl⟩, -, -⟩ := hok.2 m
  have hmux := h.others m hne
  refine ⟨by rw [hmux], by rw [hmux], l, l, hl.list, ?_, .refl l⟩
  rw [h.links_eq hne]
  exact hl.list

lemma MuxMove.watch (h : MuxMove w m' RoundRobin.Joins s s') (helse : Elsewhere w m' s s')
    (hok : CmuxOk w s) (m : ChanId) : MuxMove w m RoundRobin.Joins s s' := by
  by_cases hm : m = m'
  · rw [hm]
    exact h
  · exact helse.move hok hm

lemma MuxMove.of_links (hok : CmuxOk w s) (hlinks : links w s' m = links w s m)
    (hlast : (s'.mux m).lastCellWasDestroy = (s.mux m).lastCellWasDestroy)
    (hpolicy : (s'.mux m).policy = (s.mux m).policy) : MuxMove w m RoundRobin.Joins s s' := by
  obtain ⟨⟨l, hl⟩, -, -⟩ := hok.2 m
  refine ⟨hlast, hpolicy, l, l, hl.list, ?_, .refl l⟩
  rw [hlinks]
  exact hl.list

/-- Picking changes nothing but the kind of the last cell. -/
lemma circuitmuxGetFirstActiveCircuit_state [DecidableEq C] {pick : Option C}
    {r : CmuxState C P × Bool × Option C}
    (hr : circuitmuxGetFirstActiveCircuit w s m pick = some r) :
    r.1 = s ∨ ∃ b, r.1 = s.setMux m fun x => { x with lastCellWasDestroy := b } := by
  unfold circuitmuxGetFirstActiveCircuit at hr
  split at hr
  · obtain rfl := some.inj hr
    exact .inr ⟨true, rfl⟩
  · split at hr
    · obtain ⟨-, -, hr⟩ := bind_eq_some_iff.mp hr
      dsimp only at hr
      split at hr
      · obtain rfl := some.inj hr
        exact .inr ⟨false, rfl⟩
      · obtain ⟨head, -, hr⟩ := bind_eq_some_iff.mp hr
        obtain rfl := some.inj hr
        exact .inr ⟨false, rfl⟩
    · obtain ⟨-, -, hr⟩ := bind_eq_some_iff.mp hr
      obtain ⟨-, -, hr⟩ := bind_eq_some_iff.mp hr
      obtain rfl := some.inj hr
      exact .inl rfl

/-- **What is picked without a policy:** a destroy cell, the first circuit, or nothing. -/
lemma circuitmuxGetFirstActiveCircuit_cases [DecidableEq C] {pick : Option C}
    {r : CmuxState C P × Bool × Option C} (hpolicy : (s.mux m).policy = none)
    (hr : circuitmuxGetFirstActiveCircuit w s m pick = some r) :
    (((s.mux m).destroyCellQueue ≠ 0 ∧
      (¬ (s.mux m).lastCellWasDestroy ∨ (s.mux m).nActiveCircuits = 0)) ∧
      r = (s.setMux m fun x => { x with lastCellWasDestroy := true }, true, none)) ∨
    (¬((s.mux m).destroyCellQueue ≠ 0 ∧
      (¬ (s.mux m).lastCellWasDestroy ∨ (s.mux m).nActiveCircuits = 0)) ∧
      (s.mux m).nActiveCircuits ≠ 0 ∧ ∃ head, (s.mux m).activeCircuitsHead = some head ∧
        r = (s.setMux m fun x => { x with lastCellWasDestroy := false }, false, some head)) ∨
    ((s.mux m).nActiveCircuits = 0 ∧ r = (s, false, none)) := by
  unfold circuitmuxGetFirstActiveCircuit at hr
  split at hr
  · next hdestroy => exact .inl ⟨hdestroy, (some.inj hr).symm⟩
  · next hdestroy =>
    split at hr
    · next hpos =>
      obtain ⟨-, -, hr⟩ := bind_eq_some_iff.mp hr
      have hnone : (if (policyOf w s m).any CircuitmuxPolicy.pickActiveCircuit = true then pick
          else none) = none := by
        unfold policyOf
        rw [hpolicy]
        rfl
      rw [hnone] at hr
      obtain ⟨head, hhead, hr⟩ := bind_eq_some_iff.mp hr
      exact .inr (.inl ⟨hdestroy, UInt32.pos_iff_ne_zero.mp hpos, head, hhead, (some.inj hr).symm⟩)
    · next hpos =>
      obtain ⟨-, -, hr⟩ := bind_eq_some_iff.mp hr
      obtain ⟨-, -, hr⟩ := bind_eq_some_iff.mp hr
      refine .inr (.inr ⟨?_, (some.inj hr).symm⟩)
      by_contra hne
      exact hpos (UInt32.pos_iff_ne_zero.mpr hne)

/-! ### Runs -/

section Runs

variable [DecidableEq C] [DecidableEq P] {q q' : Watched C P} {event : CmuxEvent C P}
  {r : RoundRobin.Counter C}

/-- What an operation does: it is a step at the counter, and unless it picks a circuit, it does not
concern the kind of the last cell. -/
structure Watched.Advances (w : CircuitWorld C P) (m : ChanId) (event : CmuxEvent C P)
    (q q' : Watched C P) : Prop where
  step_eq : q.step w m event = some q'
  /-- It keeps the invariant. -/
  ok : WatchedOk w m q'
  last_eq : event.picks m = false →
    (q'.state.mux m).lastCellWasDestroy = (q.state.mux m).lastCellWasDestroy
  line : ∀ r, ShowsLine w m q r → ∃ r', ShowsLine w m q' r' ∧ RoundRobin.Step r r' (event.serves m)

/-- An operation that does not serve a circuit of the watched multiplexer. -/
lemma WatchedOk.advances_of_move (h : WatchedOk w m q) (hs : q.state.step w event = some s')
    (hok : CmuxOk w s') (hmove : MuxMove w m RoundRobin.Joins q.state s')
    (hchosen : q.chosenAfter w m event = q.chosen) (hserves : event.serves m = none) :
    ∃ q', Watched.Advances w m event q q' := by
  obtain ⟨hlast, hpolicy, l, l', hl, hl', hjoins⟩ := hmove
  refine ⟨⟨s', q.chosen⟩, ?_, ⟨hok, hpolicy.trans h.policy_eq⟩, fun _ => hlast, fun r hr => ?_⟩
  · rw [Watched.step, hs, map_some, hchosen]
  · refine ⟨⟨l', hl'.nodup, q.chosen⟩, ⟨hl', rfl⟩, ?_⟩
    rw [hserves]
    exact .change ((hr.list.unique hl).symm ▸ hjoins) hr.chosen_eq.symm

lemma WatchedOk.advances_of_pick (h : WatchedOk w m q) (m' : ChanId) (pick : Option C)
    (hfair : (CmuxEvent.getFirstActiveCircuit m' pick : CmuxEvent C P).Fair w m q) :
    ∃ q', Watched.Advances w m (.getFirstActiveCircuit m' pick) q q' := by
  obtain ⟨hfree, hne⟩ := hfair
  obtain ⟨r, hr⟩ := ne_none_iff_exists'.mp hne
  have hstep : q.state.step w (.getFirstActiveCircuit m' pick) = some r.1 :=
    congrArg (Option.map Prod.fst) hr
  have hstate := circuitmuxGetFirstActiveCircuit_state hr
  have hok : CmuxOk w r.1 := by
    rcases hstate with heq | ⟨b, heq⟩
    · rw [heq]
      exact h.ok
    · rw [heq]
      exact h.ok.of_destroy (m := m') (fun x => { x with lastCellWasDestroy := b }) fun _ => rfl
  by_cases hm : m' = m
  · subst hm
    have hlinks : links w r.1 m' = links w q.state m' := by
      rcases hstate with heq | ⟨b, heq⟩
      · rw [heq]
      · rw [heq]
        exact links_setMux w rfl rfl
    have hpolicy : (r.1.mux m').policy = none := by
      rcases hstate with heq | ⟨b, heq⟩
      · rw [heq]
        exact h.policy_eq
      · rw [heq, mux_setMux]
        exact h.policy_eq
    refine ⟨⟨r.1, r.2.2⟩, ?_, ⟨hok, hpolicy⟩, fun hpicks => ?_, fun r' hr' => ?_⟩
    · rw [Watched.step, hstep, map_some, Watched.chosenAfter, if_pos rfl, hr, bind_some]
    · exact absurd hpicks (by simp [CmuxEvent.picks])
    · refine ⟨⟨r'.line, r'.nodup, r.2.2⟩, ⟨hlinks.symm ▸ hr'.list, rfl⟩, ?_⟩
      refine .choose rfl (hr'.chosen_eq.trans (hfree rfl)) fun c hc => ?_
      rcases circuitmuxGetFirstActiveCircuit_cases h.policy_eq hr with
        ⟨-, rfl⟩ | ⟨-, -, head, hhead, rfl⟩ | ⟨-, rfl⟩
      · cases hc
      · rw [← hr'.list.ends.1, ← some.inj hc]
        exact hhead
      · cases hc
  · have helse : Elsewhere w m' q.state r.1 := by
      rcases hstate with heq | ⟨b, heq⟩
      · rw [heq]
        exact ⟨fun _ _ => rfl, fun _ _ _ => rfl⟩
      · rw [heq]
        exact elsewhere_setMux w _
    refine h.advances_of_move hstep hok (helse.move h.ok (Ne.symm hm)) ?_ rfl
    rw [Watched.chosenAfter, if_neg hm]

lemma WatchedOk.advances_of_notify (h : WatchedOk w m q) (m' : ChanId) (c : C) (n : UInt32)
    (hfair : (CmuxEvent.notifyXmitCells m' c n : CmuxEvent C P).Fair w m q) :
    ∃ q', Watched.Advances w m (.notifyXmitCells m' c n) q q' := by
  obtain ⟨hchosen, hsafe⟩ := hfair
  obtain ⟨s', hs', hok, helse, hzero, hmove⟩ :=
      circuitmuxNotifyXmitCells_ok (m := m') (c := c) h.ok n fun hn => by
    obtain ⟨d, hmux, e, hfind, hle⟩ := hsafe hn
    obtain ⟨⟨l, hlinked⟩, -, -⟩ := h.ok.2 m'
    obtain ⟨he, hc, -⟩ := hlinked.table.isEntry_of_htFind (h.ok.1.endOn_mux hmux).1 hfind
    exact ⟨e, he, hc, hle⟩
  by_cases hserves : m' = m ∧ n ≠ 0
  · obtain ⟨rfl, hn⟩ := hserves
    obtain ⟨hlast, hpolicy, l, l', hl, hl', hserves⟩ := hmove hn
    refine ⟨⟨s', none⟩, ?_, ⟨hok, hpolicy.trans h.policy_eq⟩, fun _ => hlast, fun r hr => ?_⟩
    · rw [Watched.step, show q.state.step w (.notifyXmitCells m' c n) = some s' from hs', map_some,
        Watched.chosenAfter, if_pos ⟨rfl, hn⟩]
    · refine ⟨⟨l', hl'.nodup, none⟩, ⟨hl', rfl⟩, ?_⟩
      rw [CmuxEvent.serves, if_pos ⟨rfl, hn⟩]
      exact .serve c ((hr.list.unique hl).symm ▸ hserves) (hr.chosen_eq.trans (hchosen rfl hn)) rfl
  · refine h.advances_of_move hs' hok ?_ ?_ ?_
    · by_cases hn : n = 0
      · rw [hzero hn]
        exact .of_links h.ok rfl rfl rfl
      · exact helse.move h.ok fun heq => hserves ⟨heq.symm, hn⟩
    · rw [Watched.chosenAfter, if_neg hserves]
    · rw [CmuxEvent.serves, if_neg hserves]

lemma WatchedOk.advances_of_destroy (h : WatchedOk w m q) (m' : ChanId)
    (f : Circuitmux C P → Circuitmux C P) (n : ℤ)
    (hs : q.state.step w event = some { q.state.setMux m' f with globalDestroyCtr := n })
    (hok : CmuxOk w { q.state.setMux m' f with globalDestroyCtr := n })
    (hf : ∀ x, (f x).activeCircuitsHead = x.activeCircuitsHead ∧
      (f x).activeCircuitsTail = x.activeCircuitsTail ∧
      (f x).lastCellWasDestroy = x.lastCellWasDestroy ∧ (f x).policy = x.policy)
    (hchosen : q.chosenAfter w m event = q.chosen) (hserves : event.serves m = none) :
    ∃ q', Watched.Advances w m event q q' := by
  refine h.advances_of_move hs hok ?_ hchosen hserves
  by_cases hm : m = m'
  · subst hm
    obtain ⟨hhead, htail, hlast, hpolicy⟩ := hf (q.state.mux m)
    refine .of_links h.ok (links_setMux w hhead htail) ?_ ?_
    · exact (congrArg Circuitmux.lastCellWasDestroy (mux_setMux f)).trans hlast
    · exact (congrArg Circuitmux.policy (mux_setMux f)).trans hpolicy
  · have helse := elsewhere_setMux (s := q.state) (m := m') w f
    exact Elsewhere.move ⟨helse.others, helse.ends⟩ h.ok hm

/-- **One operation.** -/
lemma WatchedOk.advances (h : WatchedOk w m q) (event : CmuxEvent C P) (hfair : event.Fair w m q) :
    ∃ q', Watched.Advances w m event q q' := by
  cases event with
  | attachCircuit m' c d n =>
    obtain ⟨hchan, hid, hor⟩ := hfair
    obtain ⟨s', hs', hok, helse, hmove⟩ :=
      circuitmuxAttachCircuit_ok h.ok (dirOn_eq_some.mpr ⟨hchan, hor⟩) hid n
    exact h.advances_of_move hs' hok (hmove.watch helse h.ok m) rfl rfl
  | detachCircuit m' c =>
    obtain ⟨s', hs', hok, helse, hmove⟩ := circuitmuxDetachCircuit_ok (m := m') h.ok hfair
    exact h.advances_of_move hs' hok (hmove.watch helse h.ok m) rfl rfl
  | detachAllCircuits m' =>
    obtain ⟨s', hs', hok, helse, hmove⟩ := circuitmuxDetachAllCircuits_ok h.ok m'
    exact h.advances_of_move hs' hok (hmove.watch helse h.ok m) rfl rfl
  | setNumCells m' c n =>
    obtain ⟨d, hmux⟩ := hfair
    obtain ⟨s', hs', hok, helse, hmove⟩ := circuitmuxSetNumCells_ok h.ok (h.ok.1.endOn_mux hmux).2 n
    exact h.advances_of_move hs' hok (hmove.watch helse h.ok m) rfl rfl
  | getFirstActiveCircuit m' pick => exact h.advances_of_pick m' pick hfair
  | notifyXmitCells m' c n => exact h.advances_of_notify m' c n hfair
  | appendDestroyCell m' =>
    obtain ⟨s', hs', hok⟩ := step_ok h.ok (.appendDestroyCell m') trivial
    obtain rfl := some.inj hs'
    exact h.advances_of_destroy m' _ _ hs' hok (fun x => ⟨rfl, rfl, rfl, rfl⟩) rfl rfl
  | popDestroyCell m' =>
    obtain ⟨s', hs', hok⟩ := step_ok h.ok (.popDestroyCell m') trivial
    obtain rfl := some.inj hs'
    exact h.advances_of_destroy m' (fun x => { x with destroyCellQueue := x.destroyCellQueue - 1 })
      q.state.globalDestroyCtr hs' hok (fun x => ⟨rfl, rfl, rfl, rfl⟩) rfl rfl
  | notifyXmitDestroy m' =>
    obtain ⟨s', hs', hok⟩ := step_ok h.ok (.notifyXmitDestroy m') trivial
    obtain rfl := some.inj hs'
    exact h.advances_of_destroy m' _ _ hs' hok (fun x => ⟨rfl, rfl, rfl, rfl⟩) rfl rfl
  | setPolicy m' pol =>
    obtain ⟨hnone, hsafe⟩ := hfair
    obtain ⟨s', hs', hok, helse, hsame⟩ := circuitmuxSetPolicy_ok h.ok m' hsafe
    refine h.advances_of_move hs' hok ?_ rfl rfl
    by_cases hm : m' = m
    · rw [hsame (hm ▸ h.policy_eq.trans (hnone hm).symm)]
      exact .of_links h.ok rfl rfl rfl
    · exact helse.move h.ok (Ne.symm hm)
  | clearPolicy m' =>
    have hsafe : ∀ p, (none : Option P) = some p → (w.policy p).Ok := nofun
    obtain ⟨s', hs', hok, helse, hsame⟩ := circuitmuxSetPolicy_ok h.ok m' hsafe
    by_cases hnone : (q.state.mux m').policy = none
    · have hstep : q.state.step w (.clearPolicy m') = some q.state := by
        rw [CmuxState.step, circuitmuxClearPolicy, if_neg fun hne => hne hnone]
      exact h.advances_of_move hstep h.ok (.of_links h.ok rfl rfl rfl) rfl rfl
    · have hstep : q.state.step w (.clearPolicy m') = some s' := by
        rw [CmuxState.step, circuitmuxClearPolicy, if_pos hnone, hs']
      refine h.advances_of_move hstep hok (helse.move h.ok fun hm => hnone ?_) rfl rfl
      rw [← hm]
      exact h.policy_eq

omit [DecidableEq C] [DecidableEq P] in
lemma watchedOk_init (w : CircuitWorld C P) (m : ChanId) : WatchedOk w m (Watched.init C P) :=
  ⟨cmuxOk_init w, rfl⟩

lemma WatchedOk.exists_step (h : WatchedOk w m q) (hfair : event.Fair w m q) :
    ∃ q', q.step w m event = some q' ∧ WatchedOk w m q' := by
  obtain ⟨q', hq'⟩ := h.advances event hfair
  exact ⟨q', hq'.step_eq, hq'.ok⟩

variable {mid : List (CmuxEvent C P)}

/-- **A run is one at the counter.** -/
lemma WatchedOk.exists_run {x y : C} (h : WatchedOk w m q)
    (hfair : Runs.MeetsAlong (Watched.step w m) (fun q event => event.Fair w m q)
      (mid ++ [event]) q)
    (hactive :
      Runs.HoldsAlong (Watched.step w m)
        (fun q => circuitmuxIsCircuitActive w q.state m x = some true ∧
      circuitmuxIsCircuitActive w q.state m y = some true) mid q) (hr : ShowsLine w m q r) :
    ∃ q' r', event.Fair w m q' ∧ ShowsLine w m q' r' ∧
      RoundRobin.Run x y r (mid.map (CmuxEvent.serves m)) r' := by
  induction mid generalizing q r with
  | nil =>
    obtain ⟨hx, hy⟩ := hactive
    exact ⟨q, r, hfair.1, hr, .nil ((hr.mem_line_iff h).mpr hx) ((hr.mem_line_iff h).mpr hy)⟩
  | cons first mid ih =>
    obtain ⟨⟨hx, hy⟩, hrest⟩ := hactive
    obtain ⟨q₁, hq₁⟩ := h.advances first hfair.1
    obtain ⟨r₁, hr₁, hstep⟩ := hq₁.line r hr
    obtain ⟨q', r', hlast, hr', hrun⟩ :=
      ih hq₁.ok (hfair.2 q₁ hq₁.step_eq) (hrest q₁ hq₁.step_eq) hr₁
    refine ⟨q', r', hlast, hr', ?_⟩
    rw [map_cons]
    exact .cons ((hr.mem_line_iff h).mpr hx) ((hr.mem_line_iff h).mpr hy) hstep hrun

/-- Without picks, the kind of the last cell does not change. -/
lemma WatchedOk.last_eq (h : WatchedOk w m q)
    (hfair : Runs.MeetsAlong (Watched.step w m) (fun q event => event.Fair w m q) mid q)
    (hpicks : ∀ event ∈ mid, event.picks m = false)
    (hrun : mid.foldlM (Watched.step w m) q = some q') : WatchedOk w m q' ∧
    (q'.state.mux m).lastCellWasDestroy = (q.state.mux m).lastCellWasDestroy := by
  induction mid generalizing q with
  | nil =>
    obtain rfl := some.inj hrun
    exact ⟨h, rfl⟩
  | cons first mid ih =>
    rw [foldlM_cons] at hrun
    obtain ⟨q₁, hq₁, hrun⟩ := bind_eq_some_iff.mp hrun
    obtain ⟨q₂, hq₂⟩ := h.advances first hfair.1
    obtain rfl := some.inj (hq₁.symm.trans hq₂.step_eq)
    obtain ⟨hok, hlast⟩ :=
      ih hq₂.ok (hfair.2 q₁ hq₁) (fun e he => hpicks e (mem_cons_of_mem first he)) hrun
    exact ⟨hok, hlast.trans (hq₂.last_eq (hpicks first mem_cons_self))⟩

/-! ### Fairness -/

/-- A run goes on between two services of a circuit. -/
structure ConsecutiveServices (w : CircuitWorld C P) (m : ChanId) (x : C)
    (mid : List (CmuxEvent C P)) (q : Watched C P) : Prop where
  /-- After the first service it is there, and the second one follows. -/
  reached : ∃ (before : List (CmuxEvent C P)) (n n' : UInt32), n ≠ 0 ∧ n' ≠ 0 ∧
    Runs.MeetsAlong (Watched.step w m) (fun q event => event.Fair w m q)
      (before ++ .notifyXmitCells m x n :: (mid ++ [.notifyXmitCells m x n'])) (Watched.init C P) ∧
    (before ++ [CmuxEvent.notifyXmitCells m x n]).foldlM
      (Watched.step w m) (Watched.init C P) = some q
  between : ∀ event ∈ mid, event.serves m ≠ some x

/-- A run goes on between two picks. -/
structure ConsecutivePicks (w : CircuitWorld C P) (m : ChanId) (pick pick' : Option C)
    (mid : List (CmuxEvent C P)) (q q' : Watched C P) : Prop where
  /-- The first pick is in a run, and the second one follows. -/
  reached : ∃ before : List (CmuxEvent C P),
    Runs.MeetsAlong (Watched.step w m) (fun q event => event.Fair w m q)
      (before ++ .getFirstActiveCircuit m pick :: (mid ++ [.getFirstActiveCircuit m pick']))
      (Watched.init C P) ∧
    before.foldlM (Watched.step w m) (Watched.init C P) = some q
  ended : (CmuxEvent.getFirstActiveCircuit m pick :: mid).foldlM (Watched.step w m) q = some q'
  between : ∀ event ∈ mid, event.picks m = false

/-- How often a circuit is served in a run. -/
def servicesOf (m : ChanId) (y : C) (mid : List (CmuxEvent C P)) : ℕ :=
  mid.countP fun event => decide (event.serves m = some y)

/-- Both destroy cells and cells of circuits wait. -/
def BothWait (w : CircuitWorld C P) (m : ChanId) (q : Watched C P) : Prop :=
  (q.state.mux m).destroyCellQueue ≠ 0 ∧ ∃ c, circuitmuxIsCircuitActive w q.state m c = some true

def picksDestroy (w : CircuitWorld C P) (m : ChanId) (q : Watched C P) (pick : Option C) :
    Option Bool :=
  (circuitmuxGetFirstActiveCircuit w q.state m pick).map fun r => r.2.1

omit [DecidableEq P] in
lemma BothWait.pick_eq {pick : Option C} {res : CmuxState C P × Bool × Option C}
    (h : BothWait w m q) (hok : WatchedOk w m q)
    (hr : circuitmuxGetFirstActiveCircuit w q.state m pick = some res) : res.2.1 =
      !(q.state.mux m).lastCellWasDestroy ∧ (res.1.mux m).lastCellWasDestroy = res.2.1 := by
  obtain ⟨hqueue, c, hc⟩ := h
  have hmux := hok.ok.2 m
  obtain ⟨⟨l, hl⟩, -, -⟩ := hmux
  have hin := hl.isCircuitActive_iff.mp hc
  have hne : (q.state.mux m).nActiveCircuits ≠ 0 := fun hzero =>
    ne_nil_of_mem hin (((hok.ok.2 m).nActiveCircuits_eq_zero_iff hl).mp hzero)
  rcases circuitmuxGetFirstActiveCircuit_cases hok.policy_eq hr with
    ⟨hdestroy, rfl⟩ | ⟨hrelay, -, head, -, rfl⟩ | ⟨hzero, -⟩
  · have hlast := hdestroy.2.resolve_right hne
    rw [mux_setMux, Bool.not_eq_true] at *
    exact ⟨by rw [hlast]; rfl, rfl⟩
  · have hlast : (q.state.mux m).lastCellWasDestroy = true := by
      by_contra hnot
      exact hrelay ⟨hqueue, .inl hnot⟩
    rw [mux_setMux]
    exact ⟨by rw [hlast]; rfl, rfl⟩
  · exact absurd hzero hne

/-- **Fairness between circuits:** between two services of a circuit that is active all the time,
every other such circuit is served exactly once. -/
theorem ConsecutiveServices.servicesOf_eq_one {x y : C}
    (h : ConsecutiveServices w m x mid q) (hne : y ≠ x)
    (hactive :
      Runs.HoldsAlong (Watched.step w m)
        (fun q => circuitmuxIsCircuitActive w q.state m x = some true ∧
      circuitmuxIsCircuitActive w q.state m y = some true) mid q) : servicesOf m y mid = 1 := by
  obtain ⟨⟨before, n, n', hn, hn', hfair, hrun⟩, hbetween⟩ := h
  obtain ⟨q₀, hq₀, hok₀, hfirst⟩ := hfair.exists_before (P := WatchedOk w m)
    (fun q event hok hfair => hok.exists_step hfair) (watchedOk_init w m)
  obtain ⟨q₁, hq₁⟩ := hok₀.advances _ hfirst
  have hrun₁ : (before ++ [CmuxEvent.notifyXmitCells m x n]).foldlM (Watched.step w m)
      (Watched.init C P) = some q₁ := by
    rw [foldlM_append, hq₀, bind_eq_bind, bind_some, foldlM_cons, hq₁.step_eq]
    rfl
  obtain rfl := some.inj (hrun₁.symm.trans hrun)
  -- the circuit is at the end of the line after the first service
  obtain ⟨r₀, hr₀⟩ := hok₀.exists_shows
  obtain ⟨r₁, hr₁, hstep⟩ := hq₁.line r₀ hr₀
  rw [CmuxEvent.serves, if_pos ⟨rfl, hn⟩] at hstep
  obtain ⟨q', r', hlast, hr', hmid⟩ :=
    hq₁.ok.exists_run ((hfair.after hq₀).2 q₁ hq₁.step_eq) hactive hr₁
  have hagain : r'.chosen = some x := hr'.chosen_eq.trans (hlast.1 rfl hn')
  have hserved : some x ∉ mid.map (CmuxEvent.serves m) := by
    intro hmem
    obtain ⟨event, hevent, heq⟩ := List.mem_map.mp hmem
    exact hbetween event hevent heq
  cases hstep with
  | serve _ hserves hchosen hfree =>
    have hcount := hmid.count_eq_one hne.symm hserved r₀.nodup hserves hfree hagain
    rw [servicesOf, ← hcount, count_eq_countP, countP_map]
    exact countP_congr fun event _ => by rw [decide_eq_true_iff, Function.comp_apply, beq_iff_eq]

/-- **Fairness between kinds:** while both wait, they take turns. -/
theorem ConsecutivePicks.take_turns {pick pick' : Option C}
    (h : ConsecutivePicks w m pick pick' mid q q') (hq : BothWait w m q) (hq' : BothWait w m q') :
    ∃ b, picksDestroy w m q pick = some b ∧ picksDestroy w m q' pick' = some (!b) := by
  obtain ⟨⟨before, hfair, hbefore⟩, hrun, hbetween⟩ := h
  obtain ⟨q₀, hq₀, hok, hpick⟩ := hfair.exists_before (P := WatchedOk w m)
    (fun q event hok hfair => hok.exists_step hfair) (watchedOk_init w m)
  obtain rfl := some.inj (hq₀.symm.trans hbefore)
  obtain ⟨res, hres⟩ := ne_none_iff_exists'.mp hpick.2
  obtain ⟨hdestroy, hflag⟩ := hq.pick_eq hok hres
  -- the flag says what has been picked, until the next pick
  obtain ⟨q₁, hq₁⟩ := hok.advances _ hpick
  rw [foldlM_cons, hq₁.step_eq, bind_eq_bind, bind_some] at hrun
  have hrest := (hfair.after hbefore).2 q₁ hq₁.step_eq
  obtain ⟨hok', hlast⟩ := hq₁.ok.last_eq hrest.of_append hbetween hrun
  have hflag₁ : (q₁.state.mux m).lastCellWasDestroy = res.2.1 := by
    have hstep := hq₁.step_eq
    rw [Watched.step, show q₀.state.step w (.getFirstActiveCircuit m pick) = some res.1 from
      congrArg (Option.map Prod.fst) hres] at hstep
    rw [← some.inj hstep]
    exact hflag
  obtain ⟨res', hres'⟩ := ne_none_iff_exists'.mp (hrest.after hrun).1.2
  obtain ⟨hdestroy', -⟩ := hq'.pick_eq hok' hres'
  refine ⟨res.2.1, ?_, ?_⟩
  · rw [picksDestroy, hres, map_some]
  · rw [picksDestroy, hres', map_some, hdestroy', hlast, hflag₁]

/-- **Fairness.**  In every run of operations on multiplexers in which a circuit that is picked is
reported before the next pick, between two services of a circuit that has cells all the time every
other such circuit is served exactly once, whatever happens to further circuits; and while both
destroy cells and cells of circuits wait, the two kinds take turns. -/
theorem circuitmux_fair (w : CircuitWorld C P) (m : ChanId) :
    (∀ (x y : C) (mid : List (CmuxEvent C P)) (q : Watched C P),
      ConsecutiveServices w m x mid q → y ≠ x →
      Runs.HoldsAlong (Watched.step w m)
        (fun q => circuitmuxIsCircuitActive w q.state m x = some true ∧
          circuitmuxIsCircuitActive w q.state m y = some true) mid q → servicesOf m y mid = 1) ∧
    ∀ (pick pick' : Option C) (mid : List (CmuxEvent C P)) (q q' : Watched C P),
      ConsecutivePicks w m pick pick' mid q q' → BothWait w m q → BothWait w m q' →
        ∃ b, picksDestroy w m q pick = some b ∧ picksDestroy w m q' pick' = some (!b) :=
  ⟨fun _ _ _ _ h hne hactive => h.servicesOf_eq_one hne hactive, fun _ _ _ _ _ h hq hq' =>
    h.take_turns hq hq'⟩

end Runs

/-- Two circuits with five cells each are picked and reported in turn. -/
theorem circuitmux_fair_twoCircuits :
    servicesOf 7 false [CmuxEvent.getFirstActiveCircuit (P := Unit) 7 none,
      .notifyXmitCells 7 false 1, .getFirstActiveCircuit 7 none] = 1 := by
  refine (circuitmux_fair twoCircuits 7).1 true false _ _ ⟨⟨[.attachCircuit 7 false .dirOut 5,
    .attachCircuit 7 true .dirOut 5, .getFirstActiveCircuit 7 none], 1, 1, by decide, by decide,
    by decide +kernel, rfl⟩, by decide⟩ (by decide) ⟨by decide, fun q₁ hq₁ => ?_⟩
  obtain rfl := Option.some.inj hq₁
  refine ⟨by decide, fun q₂ hq₂ => ?_⟩
  obtain rfl := Option.some.inj hq₂
  refine ⟨by decide, fun q₃ hq₃ => ?_⟩
  obtain rfl := Option.some.inj hq₃
  show circuitmuxIsCircuitActive _ _ _ _ = some true ∧ circuitmuxIsCircuitActive _ _ _ _ = some true
  decide

/-- A circuit that runs out of cells and gets a new one is served twice in a row, while the other
one waits. -/
theorem not_circuitmux_fair :
    ¬ ∀ (w : CircuitWorld Bool Unit) (m : ChanId) (x y : Bool) (mid : List (CmuxEvent Bool Unit))
      (q : Watched Bool Unit), ConsecutiveServices w m x mid q → y ≠ x →
        Runs.HoldsAlong (Watched.step w m)
          (fun q => circuitmuxIsCircuitActive w q.state m y = some true) mid q →
          servicesOf m y mid = 1 := by
  intro hall
  have hcount :=
    hall twoCircuits 7 false true [.setNumCells 7 false 1, .getFirstActiveCircuit 7 none]
    _ ⟨⟨[.attachCircuit 7 false .dirOut 1, .attachCircuit 7 true .dirOut 5,
      .getFirstActiveCircuit 7 none,
      .notifyXmitCells 7 true 1, .getFirstActiveCircuit 7 none], 1,
        1, by decide, by decide, by decide +kernel, rfl⟩,
      by decide⟩ (by decide) ?_
  · exact absurd hcount (by decide)
  · refine ⟨by decide, fun q₁ hq₁ => ?_⟩
    obtain rfl := Option.some.inj hq₁
    refine ⟨by decide, fun q₂ hq₂ => ?_⟩
    obtain rfl := Option.some.inj hq₂
    show circuitmuxIsCircuitActive _ _ _ _ = some true
    decide

end Astoria
