import Mathlib
import Astoria.TorClient.CircuitmuxInvariant

/-!
# Runs of circuit multiplexers

Each operation keeps the invariant of the multiplexers and fails no assertion, as long as its caller
keeps to what the assertions demand of the arguments (`CmuxEvent.Safe`): circuits are attached to
the multiplexers of their channels, and cells are counted for attached circuits only.  So any
sequence of such operations leaves multiplexers that pass the consistency check
(`circuitmuxAssertOkay_run`).
-/

namespace Astoria

open List Option Function
open Circuitmux (chanidCircidMap lastCellWasDestroy nCells nCircuits policy policyData
  withoutList)
open DoublyLinked

variable {C P : Type} {w : CircuitWorld C P} {s s' s₁ : CmuxState C P} {x x' : Circuitmux C P}
  {m m' : ChanId} {c c' : C} {d : CellDirection} {e : MuxEntry} {A B map : List MuxEntry}
  {l : List C}

/-! ### Counters and policies -/

lemma MuxCounts.congr (h : MuxCounts x) (hx : x'.withoutList = x.withoutList) : MuxCounts x' := by
  have hcircuits := congrArg nCircuits hx
  have hactive := congrArg Circuitmux.nActiveCircuits hx
  have hcells := congrArg nCells hx
  have hmap := congrArg chanidCircidMap hx
  dsimp only [withoutList] at hcircuits hactive hcells hmap
  constructor
  · rw [hcircuits, hmap, h.circuits]
  · rw [hactive, hmap, h.active]
  · rw [hcells, hmap, h.cells]

lemma MuxPolicy.congr (h : MuxPolicy w x) (hx : x'.withoutList = x.withoutList) :
    MuxPolicy w x' := by
  have hpolicy := congrArg policy hx
  have hdata := congrArg policyData hx
  have hmap := congrArg chanidCircidMap hx
  dsimp only [withoutList] at hpolicy hdata hmap
  constructor
  · rw [hpolicy]
    exact h.policyOk
  · rw [hpolicy, hmap]
    exact h.circData
  · rw [hpolicy, hdata]
    exact h.cmuxData

/-- The counters after the number of cells of a circuit has changed. -/
lemma MuxCounts.update (h : MuxCounts x) (hmap : x.chanidCircidMap = A ++ e :: B) (n : UInt32) :
    MuxCounts { x with
      nActiveCircuits := activeAfter x.nActiveCircuits e.cellCount n
      nCells := x.nCells - e.cellCount + n
      chanidCircidMap := A ++ { e with cellCount := n } :: B } := by
  constructor
  · dsimp only
    rw [h.circuits, hmap, length_split, length_split]
  · dsimp only
    rw [h.active, hmap, activeAfter, countActive_split, countActive_split, UInt32.add_sub_cancel]
  · dsimp only
    rw [h.cells, hmap, countCells_split, countCells_split, UInt32.add_sub_cancel]

lemma MuxCounts.insert (h : MuxCounts x) (e : MuxEntry) :
    MuxCounts { x with
      nCircuits := x.nCircuits + 1
      nActiveCircuits := activeAfter x.nActiveCircuits 0 e.cellCount
      nCells := x.nCells + e.cellCount
      chanidCircidMap := e :: x.chanidCircidMap } := by
  constructor
  · dsimp only
    rw [h.circuits]
    exact (length_split (A := [])).symm
  · dsimp only
    rw [h.active, activeAfter, if_neg (by decide), UInt32.sub_zero]
    exact (countActive_split (A := [])).symm
  · dsimp only
    rw [h.cells]
    exact (countCells_split (A := [])).symm

lemma MuxCounts.erase (h : MuxCounts x) (hmap : x.chanidCircidMap = A ++ e :: B) :
    MuxCounts { x with
      nCircuits := x.nCircuits - 1
      nActiveCircuits := activeAfter x.nActiveCircuits e.cellCount 0
      nCells := x.nCells - e.cellCount
      chanidCircidMap := A ++ B } := by
  constructor
  · dsimp only
    rw [h.circuits, hmap, length_split, UInt32.add_sub_cancel]
  · dsimp only
    rw [h.active, hmap, activeAfter, countActive_split, UInt32.add_sub_cancel, if_neg (by decide),
      UInt32.add_zero]
  · dsimp only
    rw [h.cells, hmap, countCells_split, UInt32.add_sub_cancel]

/-- A policy after entries have changed of which it has allocated no more data. -/
lemma MuxPolicy.of_entries (h : MuxPolicy w x) (x' : Circuitmux C P)
    (hpolicy : x'.policy = x.policy) (hdata : x'.policyData = x.policyData)
    (hentries : ∀ e ∈ x'.chanidCircidMap, e.policyData = true →
      (x.policy.map w.policy).any CircuitmuxPolicy.freeCircData = true) : MuxPolicy w x' := by
  constructor
  · rw [hpolicy]
    exact h.policyOk
  · rw [hpolicy]
    exact hentries
  · rw [hpolicy, hdata]
    exact h.cmuxData

/-! ### The number of cells of a circuit -/

lemma endOn_mux_congr (hattached : ∀ c d, (s'.ends c d).mux = (s.ends c d).mux) (c : C) :
    (endOn w s' m c).mux = (endOn w s m c).mux := by
  unfold endOn
  cases dirOn w m c with
  | none => rfl
  | some d => exact hattached c d

lemma AttachedToOwn.congr (hown : AttachedToOwn w s)
    (hattached : ∀ c d, (s'.ends c d).mux = (s.ends c d).mux) : AttachedToOwn w s' := by
  intro c d m hmux
  rw [hattached] at hmux
  exact hown c d m hmux

lemma CmuxOk.of_parts (h : CmuxOk w s) (helse : Elsewhere w m s s') (hown : AttachedToOwn w s')
    (hx : (s'.mux m).withoutList = x.withoutList) (hlinked : MuxLinked w s' m l)
    (hcounts : MuxCounts x) (hpolicy : MuxPolicy w x) : CmuxOk w s' :=
  h.of_elsewhere helse hown ⟨⟨l, hlinked⟩, hcounts.congr hx, hpolicy.congr hx⟩

lemma MuxLinked.activeList (h : MuxLinked w s m l) (hown : AttachedToOwn w s)
    (he : e ∈ (s.mux m).chanidCircidMap) (hc : IsEntry w m e c) :
    ActiveList w s m l c e.direction :=
  ⟨hown, h.listAttached, h.list, hc.dirOn_eq, h.mux_eq he hc⟩

lemma MuxLinked.mux_eq_none (h : MuxLinked w s m l) (hown : AttachedToOwn w s)
    (hd : dirOn w m c = some d) (hnone : ∀ e ∈ (s.mux m).chanidCircidMap, ¬IsEntry w m e c) :
    (s.ends c d).mux = none := by
  rw [eq_none_iff_forall_ne_some]
  intro m' hmux
  obtain rfl := dirOn_unique hd (hown c d m' hmux)
  rw [← endOn_eq hd] at hmux
  obtain ⟨e, he, hc⟩ := (h.attached c).mp hmux
  exact hnone e he hc

/-- A sound policy gives data for a circuit that it can free. -/
lemma exists_allocCircData (pol : Option (CircuitmuxPolicy C)) (hok : ∀ p, pol = some p → p.Ok)
    (c : C) (d : CellDirection) (n : UInt32) :
    ∃ data, allocCircData pol c d n = some data ∧
      (data = true → pol.any CircuitmuxPolicy.freeCircData = true) := by
  unfold allocCircData
  cases hpol : pol with
  | none => exact ⟨false, rfl, fun h => h⟩
  | some p =>
    rw [bind_some]
    cases halloc : p.allocCircData with
    | none => exact ⟨false, rfl, fun h => absurd h Bool.false_ne_true⟩
    | some alloc =>
      obtain ⟨hfree, hdata⟩ := (hok p hpol).circData alloc halloc
      refine ⟨true, ?_, fun _ => hfree⟩
      dsimp only
      rw [any_some, torAssert_bind hfree, torAssert_bind (hdata c d n)]
      rfl

/-- What an operation does to the list of a multiplexer; it concerns neither destroy cells nor the
policy. -/
structure MuxMove (w : CircuitWorld C P) (m : ChanId) (R : List C → List C → Prop)
    (s s' : CmuxState C P) : Prop where
  lastCellWasDestroy_eq : (s'.mux m).lastCellWasDestroy = (s.mux m).lastCellWasDestroy
  policy_eq : (s'.mux m).policy = (s.mux m).policy
  list : ∃ l l', (links w s m).IsList l ∧ (links w s' m).IsList l' ∧ R l l'

lemma MuxMove.of_withoutList {R : List C → List C → Prop} {l' : List C}
    (hx : (s'.mux m).withoutList = x)  (hlast : x.lastCellWasDestroy = (s.mux m).lastCellWasDestroy)
    (hpolicy : x.policy = (s.mux m).policy) (hl : (links w s m).IsList l)
    (hl' : (links w s' m).IsList l') (hR : R l l') : MuxMove w m R s s' where
  lastCellWasDestroy_eq := (congrArg lastCellWasDestroy hx).trans hlast
  policy_eq := (congrArg policy hx).trans hpolicy
  list := ⟨l, l', hl, hl', hR⟩

/-- Counters and the table can change besides. -/
lemma MuxMove.setMux {R : List C → List C → Prop} (h : MuxMove w m R s s')
    {f : Circuitmux C P → Circuitmux C P}
    (hlast : (f (s'.mux m)).lastCellWasDestroy = (s'.mux m).lastCellWasDestroy)
    (hpolicy : (f (s'.mux m)).policy = (s'.mux m).policy)
    (hlinks : links w (s'.setMux m f) m = links w s' m) : MuxMove w m R s (s'.setMux m f) where
  lastCellWasDestroy_eq := by rw [mux_setMux, hlast, h.lastCellWasDestroy_eq]
  policy_eq := by rw [mux_setMux, hpolicy, h.policy_eq]
  list := by rw [hlinks]; exact h.list

section Steps

variable [DecidableEq C] {l' : List C}

/-- **The invariant after the number of cells of a circuit has changed.** -/
lemma CmuxOk.of_update (h : CmuxOk w s) (hlinked : MuxLinked w s m l)
    (hmap : (s.mux m).chanidCircidMap = A ++ e :: B) (hc : IsEntry w m e c) (n : UInt32)
    (helse : Elsewhere w m s s') (hattached : ∀ c d, (s'.ends c d).mux = (s.ends c d).mux)
    (hx : (s'.mux m).withoutList = { (s.mux m).withoutList with
      nActiveCircuits := activeAfter (s.mux m).nActiveCircuits e.cellCount n
      nCells := (s.mux m).nCells - e.cellCount + n
      chanidCircidMap := A ++ { e with cellCount := n } :: B })
    (hlist : (links w s' m).IsList l') (hmem : ∀ c', c' ∈ l' ↔ if c' = c then 0 < n else c' ∈ l) :
    CmuxOk w s' := by
  obtain ⟨hown, hok⟩ := h
  obtain ⟨-, hcounts, hpolicy⟩ := hok m
  have hmap' := congrArg chanidCircidMap hx
  dsimp only [withoutList] at hmap'
  refine CmuxOk.of_elsewhere ⟨hown, hok⟩ helse (hown.congr hattached) ⟨⟨l', ?_⟩, ?_, ?_⟩
  · exact hlinked.update hmap hc n hmap' (endOn_mux_congr hattached) hlist hmem
  · exact (hcounts.update hmap n).congr hx
  · refine (hpolicy.of_entries ({ s.mux m with
      nActiveCircuits := activeAfter (s.mux m).nActiveCircuits e.cellCount n
      nCells := (s.mux m).nCells - e.cellCount + n
      chanidCircidMap := A ++ { e with cellCount := n } :: B }) rfl rfl ?_).congr hx
    intro e' he' hdata
    rcases mem_append.mp he' with hA | hB
    · exact hpolicy.circData e' (by rw [hmap]; exact mem_append_left _ hA) hdata
    · rcases mem_cons.mp hB with rfl | hB
      · exact hpolicy.circData e (by rw [hmap]; exact mem_append_right A mem_cons_self) hdata
      · exact hpolicy.circData e'
          (by rw [hmap]; exact mem_append_right A (mem_cons_of_mem e hB)) hdata

/-- The circuit of an entry becomes active or inactive, after the counters and the table may have
changed. -/
lemma MuxLinked.exists_updateActive (h : MuxLinked w s m l) (hown : AttachedToOwn w s)
    (he : e ∈ (s.mux m).chanidCircidMap) (hc : IsEntry w m e c) (helse : Elsewhere w m s s₁)
    (hends : s₁.ends = s.ends) (hlinks : links w s₁ m = links w s m)
    (htable : MuxTable w m (s₁.mux m).chanidCircidMap) (e' : MuxEntry)
    (he' : e' ∈ (s₁.mux m).chanidCircidMap) (hc' : IsEntry w m e' c) (n : UInt32) :
    ∃ s', circuitmuxUpdateActive w s₁ m c e.direction e.cellCount n = some s' ∧
      Elsewhere w m s s' ∧ (∀ c d, (s'.ends c d).mux = (s.ends c d).mux) ∧
      (s'.mux m).withoutList = { (s₁.mux m).withoutList with
        nActiveCircuits := activeAfter (s₁.mux m).nActiveCircuits e.cellCount n } ∧
      (links w s' m).IsList (RoundRobin.setWaiting l c (0 < n)) := by
  obtain ⟨s', hs', hre, hlist'⟩ :=
    circuitmuxUpdateActive_eq ((h.activeList hown he hc).congr hends hlinks)
      (circuitmuxFindMapEntry_eq htable he' hc') (h.mem_iff he hc) n
  refine ⟨s', hs', helse.trans ((elsewhere_setMux w _).trans hre.toElsewhere), fun c' d' => ?_,
    ?_, hlist'⟩
  · rw [hre.attached, ← hends]
    rfl
  · rw [hre.rest, mux_setMux]
    rfl

/-- **Setting the number of cells of an attached circuit.** -/
theorem circuitmuxSetNumCells_ok (h : CmuxOk w s) (hatt : (endOn w s m c).mux = some m)
    (n : UInt32) : ∃ s', circuitmuxSetNumCells w s m c n = some s' ∧ CmuxOk w s' ∧
    Elsewhere w m s s' ∧
      MuxMove w m RoundRobin.Joins s s' := by
  obtain ⟨⟨l, hlinked⟩, -, -⟩ := h.2 m
  obtain ⟨e, he, hc⟩ := (hlinked.attached c).mp hatt
  obtain ⟨A, B, hmap, hother⟩ := hlinked.table.split he
  unfold circuitmuxSetNumCells
  rw [circuitmuxFindMapEntry_eq hlinked.table he hc, bind_eq_bind, bind_some,
    bind_eq_bind, bind_some]
  dsimp only
  generalize hs₁ : (s.setMux m fun x => { x with
    nCells := x.nCells - e.cellCount + n
    chanidCircidMap := htUpdate x.chanidCircidMap e fun e => { e with cellCount := n } }) = s₁
  have hmux₁ : s₁.mux m = { s.mux m with
      nCells := (s.mux m).nCells - e.cellCount + n
      chanidCircidMap := A ++ { e with cellCount := n } :: B } := by
    rw [← hs₁, mux_setMux, hmap, htUpdate_split _ hother]
  have hc' : IsEntry w m { e with cellCount := n } c := hc.congr rfl rfl rfl
  have htable := hlinked.table
  rw [hmap] at htable
  obtain ⟨s', hs', helse, hattached, hx, hlist⟩ := hlinked.exists_updateActive h.1 he hc
    (by rw [← hs₁]; exact elsewhere_setMux w _)
    (show s₁.ends = s.ends by rw [← hs₁]; rfl) (by rw [← hs₁]; exact links_setMux w rfl rfl)
    (by rw [hmux₁]; exact htable.update rfl hc') { e with cellCount := n }
    (by rw [hmux₁]; exact mem_append_right A mem_cons_self) hc' n
  rw [hmux₁] at hx
  refine ⟨s', hs', ?_, helse, .of_withoutList hx rfl rfl hlinked.list hlist
    (RoundRobin.joins_setWaiting hlinked.list.nodup c)⟩
  exact h.of_update hlinked hmap hc n helse hattached hx hlist fun c' =>
    RoundRobin.mem_setWaiting hlinked.list.nodup

/-- **Sending cells of an attached circuit**, not more than it has. -/
theorem circuitmuxNotifyXmitCells_ok (h : CmuxOk w s) (n : UInt32)
    (hatt : n ≠ 0 → ∃ e ∈ (s.mux m).chanidCircidMap, IsEntry w m e c ∧ n ≤ e.cellCount) :
    ∃ s', circuitmuxNotifyXmitCells w s m c n = some s' ∧ CmuxOk w s' ∧ Elsewhere w m s s' ∧
      (n = 0 → s' = s) ∧ (n ≠ 0 → MuxMove w m (RoundRobin.Serves c) s s') := by
  unfold circuitmuxNotifyXmitCells
  by_cases hn : n = 0
  · rw [if_pos hn]
    exact ⟨s, rfl, h, ⟨fun _ _ => rfl, fun _ _ _ => rfl⟩, fun _ => rfl, fun hne => absurd hn hne⟩
  · rw [if_neg hn]
    obtain ⟨⟨l, hlinked⟩, -, -⟩ := h.2 m
    obtain ⟨e, he, hc, hle⟩ := hatt hn
    obtain ⟨A, B, hmap, hother⟩ := hlinked.table.split he
    have hpos : 0 < e.cellCount := UInt32.lt_of_lt_of_le (UInt32.pos_iff_ne_zero.mpr hn) hle
    rw [circuitmuxFindMapEntry_eq hlinked.table he hc, bind_eq_bind, bind_some,
      bind_eq_bind, bind_some, torAssert_bind hle]
    dsimp only
    generalize hs₁ : (s.setMux m fun x => { x with
      nCells := x.nCells - n
      chanidCircidMap := htUpdate x.chanidCircidMap e fun e =>
        { e with cellCount := e.cellCount - n } }) = s₁
    have hcells : ∀ k : UInt32, k - n = k - e.cellCount + (e.cellCount - n) := fun k => by grind
    have hmux₁ : s₁.mux m = { s.mux m with
        nCells := (s.mux m).nCells - e.cellCount + (e.cellCount - n)
        chanidCircidMap := A ++ { e with cellCount := e.cellCount - n } :: B } := by
      rw [← hs₁, mux_setMux, hmap, htUpdate_split _ hother, hcells]
    have hlinks₁ : links w s₁ m = links w s m := by
      rw [← hs₁]
      exact links_setMux w rfl rfl
    have helse₁ : Elsewhere w m s s₁ := by
      rw [← hs₁]
      exact elsewhere_setMux w _
    have hends₁ : s₁.ends = s.ends := by
      rw [← hs₁]
      rfl
    by_cases hrest : e.cellCount - n = 0
    · -- there are no more cells
      rw [if_neg fun hne => hne hrest]
      rw [hrest] at hmux₁
      have hc' : IsEntry w m { e with cellCount := 0 } c := hc.congr rfl rfl rfl
      have htable := hlinked.table
      rw [hmap] at htable
      obtain ⟨s', hs', helse, hattached, hx, hlist⟩ := hlinked.exists_updateActive h.1 he hc
        helse₁ hends₁ hlinks₁ (by rw [hmux₁]; exact htable.update rfl hc') { e with cellCount := 0 }
        (by rw [hmux₁]; exact mem_append_right A mem_cons_self) hc' 0
      rw [hmux₁] at hx
      refine ⟨s', hs', ?_, helse, fun hzero => absurd hzero hn, fun _ =>
        .of_withoutList hx rfl rfl hlinked.list hlist
          (RoundRobin.serves_setWaiting hlinked.list.nodup ((hlinked.mem_iff he hc).mpr hpos)
            (by decide))⟩
      exact h.of_update hlinked hmap hc 0 helse hattached hx hlist fun c' =>
        RoundRobin.mem_setWaiting hlinked.list.nodup
    · -- the circuit goes to the end of the list
      rw [if_pos hrest]
      have hrest' : 0 < e.cellCount - n := UInt32.pos_iff_ne_zero.mpr hrest
      obtain ⟨l₁, l₂, rfl⟩ := append_of_mem ((hlinked.mem_iff he hc).mpr hpos)
      obtain ⟨s', hs', hre, hlist⟩ :=
        circuitmuxMoveActiveCircToTail_eq ((hlinked.activeList h.1 he hc).congr hends₁ hlinks₁)
      have hx := hre.rest
      rw [hmux₁] at hx
      refine ⟨s', hs', h.of_update hlinked hmap hc (e.cellCount - n) (helse₁.trans hre.toElsewhere)
        (fun c d => ?_) ?_ hlist fun c' => ?_, helse₁.trans hre.toElsewhere, fun hzero =>
          absurd hzero hn, fun _ =>
          .of_withoutList hx rfl rfl hlinked.list hlist ⟨l₁, l₂, rfl, .inr rfl⟩⟩
      · rw [hre.attached, hends₁]
      · rw [hx, activeAfter, if_pos hpos, if_pos hrest', UInt32.sub_add_cancel]
        rfl
      · have hnodup := nodup_cons.mp (nodup_middle.mp hlinked.list.nodup)
        rw [mem_append, mem_singleton]
        split
        · next heq => exact ⟨fun _ => hrest', fun _ => .inr heq⟩
        · next hne =>
          rw [or_iff_left hne, mem_append, mem_append, mem_cons, or_iff_right hne]

/-! ### Attaching and detaching -/

lemma setPrev_setNext_setCircMux (v : Option ChanId) :
    ((s.setCircMux c d v).setNext c d none).setPrev c d none = s.setEnd c d ⟨v, none, none⟩ := by
  unfold CmuxState.setPrev CmuxState.setNext CmuxState.setCircMux CmuxState.setEnd
  simp only [update_self, update_idem]

/-- **Attaching a circuit to the multiplexer of its channel.** -/
theorem circuitmuxAttachCircuit_ok (h : CmuxOk w s) (hd : dirOn w m c = some d)
    (hid : w.circId c d ≠ 0) (n : UInt32) :
    ∃ s', circuitmuxAttachCircuit w s m c d n = some s' ∧ CmuxOk w s' ∧
      Elsewhere w m s s' ∧ MuxMove w m RoundRobin.Joins s s' := by
  obtain ⟨hchan, hor⟩ := dirOn_eq_some.mp hd
  obtain ⟨⟨l, hlinked⟩, hcounts, hpolicy⟩ := h.2 m
  unfold circuitmuxAttachCircuit
  rw [torAssert_bind hor, some_bind hchan, torAssert_bind hid]
  cases hfind : htFind (s.mux m).chanidCircidMap m (w.circId c d) with
  | some e =>
    obtain ⟨he, hc, rfl⟩ := hlinked.table.isEntry_of_htFind hd hfind
    obtain ⟨A, B, hmap, hother⟩ := hlinked.table.split he
    dsimp only
    rw [torAssert_bind (hlinked.mux_eq he hc), torAssert_bind rfl]
    obtain ⟨s₁, hs₁, helse, hattached, hx, hlist⟩ := hlinked.exists_updateActive h.1 he hc
      ⟨fun _ _ => rfl, fun _ _ _ => rfl⟩ (Eq.refl s.ends) rfl hlinked.table e he hc n
    rw [some_bind hs₁]
    have hmove : MuxMove w m RoundRobin.Joins s s₁ :=
      .of_withoutList hx rfl rfl hlinked.list hlist
        (RoundRobin.joins_setWaiting hlinked.list.nodup c)
    refine ⟨_, rfl, h.of_update hlinked hmap hc n (helse.trans (elsewhere_setMux w _)) hattached ?_
      (by rw [links_setMux w rfl rfl]; exact hlist) fun c' =>
        RoundRobin.mem_setWaiting hlinked.list.nodup,
      helse.trans (elsewhere_setMux w _), hmove.setMux rfl rfl (links_setMux w rfl rfl)⟩
    rw [mux_setMux]
    refine (congrArg (fun x => { x with
      nCells := x.nCells - e.cellCount + n
      chanidCircidMap := htUpdate x.chanidCircidMap e fun e => { e with cellCount := n } })
        hx).trans ?_
    dsimp only [withoutList]
    rw [hmap, htUpdate_split _ hother]
  | none =>
    have hnone : ∀ e ∈ (s.mux m).chanidCircidMap, ¬IsEntry w m e c := by
      intro e he hc
      have hfound := hlinked.table.htFind_eq he
      have hdir := some.inj (hc.dirOn_eq.symm.trans hd)
      rw [hc.chanId_eq, hc.circId_eq, hdir, hfind] at hfound
      cases hfound
    have hmux := hlinked.mux_eq_none h.1 hd hnone
    have hout : c ∉ l := fun hin => by
      obtain ⟨e, he, hc, -⟩ := (hlinked.active c).mp hin
      exact hnone e he hc
    obtain ⟨data, hdata, hfree⟩ := exists_allocCircData (policyOf w s m) (fun p hp => by
      obtain ⟨p', hp', rfl⟩ := map_eq_some_iff.mp hp
      exact hpolicy.policyOk p' hp') c d n
    have hc : IsEntry w m ⟨m, w.circId c d, n, d, data, false⟩ c := ⟨rfl, hd, rfl, hid⟩
    dsimp only
    rw [torAssert_bind hmux, some_bind hdata, setPrev_setNext_setCircMux]
    generalize hs₁ : (s.setMux m fun x => { x with
      nCircuits := x.nCircuits + 1
      chanidCircidMap := ⟨m, w.circId c d, n, d, data, false⟩ :: x.chanidCircidMap }) = s₁
    have hmux₁ : s₁.mux m = { s.mux m with
        nCircuits := (s.mux m).nCircuits + 1
        chanidCircidMap := ⟨m, w.circId c d, n, d, data, false⟩ :: (s.mux m).chanidCircidMap } := by
      rw [← hs₁, mux_setMux]
    have hmux₂ : (s₁.setEnd c d ⟨some m, none, none⟩).mux m = { s.mux m with
        nCircuits := (s.mux m).nCircuits + 1
        chanidCircidMap := ⟨m, w.circId c d, n, d, data, false⟩ :: (s.mux m).chanidCircidMap } :=
      hmux₁
    have helse₁ : Elsewhere w m s (s₁.setEnd c d ⟨some m, none, none⟩) := by
      rw [← hs₁]
      exact (elsewhere_setMux w _).trans (elsewhere_setEnd hd _)
    have hends₁ : ∀ c', endOn w (s₁.setEnd c d ⟨some m, none, none⟩) m c' =
        if c' = c then ⟨some m, none, none⟩ else endOn w s m c' := by
      intro c'
      rw [endOn_setEnd hd, ← hs₁]
      rfl
    have hown₁ : AttachedToOwn w (s₁.setEnd c d ⟨some m, none, none⟩) := by
      intro c' d' m' hmux'
      rw [ends_setEnd] at hmux'
      split at hmux'
      · next heq =>
        obtain rfl := some.inj hmux'
        rw [heq.1, heq.2, hd]
      · rw [← hs₁] at hmux'
        exact h.1 c' d' m' hmux'
    have hl₁ : ListAttached w (s₁.setEnd c d ⟨some m, none, none⟩) m l := by
      intro c' hc'
      have hne : c' ≠ c := by
        rintro rfl
        exact hout hc'
      rw [hends₁, if_neg hne]
      exact hlinked.listAttached c' hc'
    have hlinks₁ : links w (s₁.setEnd c d ⟨some m, none, none⟩) m = links w s m := by
      obtain ⟨hnext, hprev⟩ := hlinked.list.outside c hout
      refine Links.ext (funext fun c' => ?_) (funext fun c' => ?_) ?_ ?_
      · dsimp only [links]
        rw [hends₁]
        split
        · next heq => rw [heq]; exact hnext.symm
        · rfl
      · dsimp only [links]
        rw [hends₁]
        split
        · next heq => rw [heq]; exact hprev.symm
        · rfl
      · dsimp only [links]
        rw [hmux₂]
      · dsimp only [links]
        rw [hmux₂]
    generalize s₁.setEnd c d ⟨some m, none, none⟩ = s₂ at helse₁ hends₁ hmux₂ hown₁ hl₁ hlinks₁ ⊢
    have htable := hlinked.table.insert hc hnone
    have hmem₂ : (⟨m, w.circId c d, n, d, data, false⟩ : MuxEntry) ∈
        (s₂.mux m).chanidCircidMap := by
      rw [hmux₂]
      exact mem_cons_self
    have hatt₂ : (s₂.ends c d).mux = some m := by
      rw [← endOn_eq hd, hends₁, if_pos rfl]
    obtain ⟨s₃, hs₃, hre, hlist⟩ := circuitmuxUpdateActive_eq
      ⟨hown₁, hl₁, by rw [hlinks₁]; exact hlinked.list, hd, hatt₂⟩
      (circuitmuxFindMapEntry_eq (by rw [hmux₂]; exact htable) hmem₂ hc)
      (iff_of_false hout (show ¬(0 : UInt32) < 0 by decide)) n
    rw [some_bind hs₃]
    have helse := helse₁.trans ((elsewhere_setMux w _).trans hre.toElsewhere)
    have hown₃ : AttachedToOwn w s₃ := hre.attachedToOwn hown₁
    have hx := congrArg (fun x => { x with nCells := x.nCells + n }) hre.rest
    rw [mux_setMux, hmux₂] at hx
    have hmove : MuxMove w m RoundRobin.Joins s s₃ := by
      refine .of_withoutList hre.rest ?_ ?_ hlinked.list hlist
        (RoundRobin.joins_setWaiting hlinked.list.nodup c)
      · rw [mux_setMux, hmux₂]
        rfl
      · rw [mux_setMux, hmux₂]
        rfl
    refine ⟨_, rfl, h.of_parts (helse.trans (elsewhere_setMux w _)) hown₃ (m := m)
      (l := RoundRobin.setWaiting l c (0 < n)) ?_ ?_
        (hcounts.insert ⟨m, w.circId c d, n, d, data, false⟩) ?_,
      helse.trans (elsewhere_setMux w _), hmove.setMux rfl rfl (links_setMux w rfl rfl)⟩
    · rw [mux_setMux]
      exact hx
    · refine hlinked.insert hc hnone ?_ (fun c' => ?_)
        (by rw [links_setMux w rfl rfl]; exact hlist)
        fun c' => RoundRobin.mem_setWaiting hlinked.list.nodup
      · rw [mux_setMux]
        exact congrArg chanidCircidMap hx
      · refine (hre.endOn_mux m c').trans ?_
        refine (congrArg CircuitEnd.mux (hends₁ c')).trans ?_
        split
        · rfl
        · rfl
    · refine hpolicy.of_entries _ rfl rfl fun e he hdata' => ?_
      rcases mem_cons.mp he with rfl | he
      · exact hfree hdata'
      · exact hpolicy.circData e he hdata'

/-- Where a circuit is attached does not change the list. -/
lemma links_setCircMux (hd : dirOn w m c = some d) (v : Option ChanId) :
    links w (s.setCircMux c d v) m = links w s m := by
  refine Links.ext (funext fun c' => ?_) (funext fun c' => ?_) rfl rfl
  · dsimp only [links, CmuxState.setCircMux]
    rw [endOn_setEnd hd]
    split
    · next heq => rw [heq, endOn_eq hd]
    · rfl
  · dsimp only [links, CmuxState.setCircMux]
    rw [endOn_setEnd hd]
    split
    · next heq => rw [heq, endOn_eq hd]
    · rfl

lemma endOn_mux_setCircMux (hd : dirOn w m c = some d) (v : Option ChanId) (c' : C) :
    (endOn w (s.setCircMux c d v) m c').mux = if c' = c then v else (endOn w s m c').mux := by
  unfold CmuxState.setCircMux
  rw [endOn_setEnd hd]
  split
  · rfl
  · rfl

lemma AttachedToOwn.setCircMux_none (hown : AttachedToOwn w s) (c : C) (d : CellDirection) :
    AttachedToOwn w (s.setCircMux c d none) := by
  intro c' d' m' hmux
  unfold CmuxState.setCircMux at hmux
  rw [ends_setEnd] at hmux
  split at hmux
  · cases hmux
  · exact hown c' d' m' hmux

omit [DecidableEq C] in
lemma freeCircData_bind (s₁ : CmuxState C P) (hpolicy : MuxPolicy w (s.mux m))
    (he : e ∈ (s.mux m).chanidCircidMap) (hpol : (s₁.mux m).policy = (s.mux m).policy) {α : Type}
    (f : Unit → Option α) : (freeCircData (policyOf w s₁ m) e >>= f) = f () := by
  unfold freeCircData policyOf
  rw [hpol]
  exact torAssert_bind (hpolicy.circData e he) f

/-- **Detaching a circuit that has a channel.** -/
theorem circuitmuxDetachCircuit_ok (h : CmuxOk w s)
    (hchan : ∃ d, w.chan c d ≠ none ∧ (d = .dirIn → w.isOrCircuit c = true)) :
    ∃ s', circuitmuxDetachCircuit w s m c = some s' ∧ CmuxOk w s' ∧ Elsewhere w m s s' ∧
      MuxMove w m RoundRobin.Joins s s' := by
  obtain ⟨⟨l, hlinked⟩, hcounts, hpolicy⟩ := h.2 m
  have hne := searchBothDirections_ne_none (s := s) (m := m) hchan
  unfold circuitmuxDetachCircuit
  cases hsearch : searchBothDirections w s m c with
  | mk found r =>
    rw [hsearch] at hne
    obtain ⟨last, rfl⟩ := ne_none_iff_exists'.mp hne
    dsimp only
    rw [bind_eq_bind, bind_some]
    cases found with
    | none =>
      exact ⟨s, rfl, h, ⟨fun _ _ => rfl, fun _ _ _ => rfl⟩, rfl, rfl, l, l, hlinked.list,
        hlinked.list, .refl l⟩
    | some e =>
      obtain ⟨he, hc, hlast⟩ := searchBothDirections_spec hlinked.table hsearch
      obtain rfl := some.inj hlast
      obtain ⟨A, B, hmap, hother⟩ := hlinked.table.split he
      dsimp only
      generalize hs₁ : (s.setMux m fun x => { x with nCircuits := x.nCircuits - 1 }) = s₁
      have hmux₁ : s₁.mux m = { s.mux m with nCircuits := (s.mux m).nCircuits - 1 } := by
        rw [← hs₁, mux_setMux]
      obtain ⟨s₂, hs₂, helse, hattached, hx, hlist⟩ := hlinked.exists_updateActive h.1 he hc
        (by rw [← hs₁]; exact elsewhere_setMux w _) (show s₁.ends = s.ends by rw [← hs₁]; rfl)
        (by rw [← hs₁]; exact links_setMux w rfl rfl) (by rw [hmux₁]; exact hlinked.table) e
        (by rw [hmux₁]; exact he) hc 0
      have hlast := congrArg lastCellWasDestroy hx
      have hpol := congrArg policy hx
      have hx' := congrArg (fun x => { x with
        nCells := x.nCells - e.cellCount
        chanidCircidMap := htRemove x.chanidCircidMap e }) hx
      rw [hmux₁] at hlast hpol hx'
      rw [some_bind hs₂, freeCircData_bind s₂ hpolicy he hpol, torAssert_bind rfl]
      have hown₂ : AttachedToOwn w s₂ := h.1.congr hattached
      have hmap' := congrArg chanidCircidMap hx'
      dsimp only [withoutList] at hmap' hx'
      rw [hmap, htRemove_split hother] at hmap' hx'
      have helse' := (helse.trans (elsewhere_setEnd hc.dirOn_eq
        { s₂.ends c e.direction with mux := none })).trans (elsewhere_setMux w fun x => { x with
          nCells := x.nCells - e.cellCount
          chanidCircidMap := htRemove x.chanidCircidMap e })
      have hlist' := hlist
      rw [← links_setCircMux hc.dirOn_eq none, ← links_setMux w (f := fun x => { x with
        nCells := x.nCells - e.cellCount
        chanidCircidMap := htRemove x.chanidCircidMap e }) rfl rfl] at hlist'
      refine ⟨_, rfl, h.of_parts helse' (hown₂.setCircMux_none c e.direction) (m := m)
        (l := RoundRobin.setWaiting l c ((0 : UInt32) < 0)) ?_ ?_ (hcounts.erase hmap) ?_,
        helse', ?_, ?_, l, _, hlinked.list, hlist',
        RoundRobin.joins_setWaiting hlinked.list.nodup c⟩
      · rw [mux_setMux]
        exact hx'
      · refine hlinked.erase hmap hc ?_ (fun c' => ?_) hlist' fun c' => ?_
        · rw [mux_setMux]
          exact hmap'
        · refine (endOn_mux_setCircMux hc.dirOn_eq none c').trans ?_
          rw [endOn_mux_congr hattached]
        · rw [RoundRobin.mem_setWaiting hlinked.list.nodup,
            iff_false_intro (show ¬(0 : UInt32) < 0 by decide)]
      · refine hpolicy.of_entries _ rfl rfl fun e' he' hdata => ?_
        refine hpolicy.circData e' ?_ hdata
        rw [hmap]
        rcases mem_append.mp he' with hA | hB
        · exact mem_append_left _ hA
        · exact mem_append_right A (mem_cons_of_mem e hB)
      · rw [mux_setMux]
        exact hlast
      · rw [mux_setMux]
        exact hpol

/-- The circuit of an entry with cells is taken out of the list. -/
lemma MuxLinked.exists_inactive (h : MuxLinked w s m l) (hown : AttachedToOwn w s)
    (he : e ∈ (s.mux m).chanidCircidMap) (hc : IsEntry w m e c) :
    ∃ s' l', (if 0 < e.cellCount then circuitmuxMakeCircuitInactive w s m c e.direction
      else some s) =
        some s' ∧ Relinked w m s s' ∧ (links w s' m).IsList l' ∧
      ∀ c', c' ∈ l' ↔ if c' = c then False else c' ∈ l := by
  have hmem := h.mem_iff he hc
  by_cases hpos : 0 < e.cellCount
  · obtain ⟨l₁, l₂, rfl⟩ := append_of_mem (hmem.mpr hpos)
    obtain ⟨s', hs', hre, hlist⟩ := circuitmuxMakeCircuitInactive_eq (h.activeList hown he hc)
      (circuitmuxFindMapEntry_eq h.table he hc)
    rw [if_pos hpos]
    refine ⟨s', l₁ ++ l₂, hs', hre, hlist, fun c' => ?_⟩
    have hnodup := nodup_cons.mp (nodup_middle.mp h.list.nodup)
    split
    · next heq => exact iff_false_intro (heq ▸ hnodup.1)
    · next hne => rw [mem_append, mem_append, mem_cons, or_iff_right hne]
  · rw [if_neg hpos]
    refine ⟨s, l, rfl, Relinked.refl w m s, h.list, fun c' => ?_⟩
    split
    · next heq => exact iff_false_intro fun hin => hpos (hmem.mp (heq ▸ hin))
    · rfl

lemma detachEntry_eq {rest : List MuxEntry} (hown : AttachedToOwn w s) (h : MuxLinked w s m l)
    (hpolicy : MuxPolicy w (s.mux m)) (hmap : (s.mux m).chanidCircidMap = e :: rest) :
    ∃ s' l', detachEntry w m s e = some s' ∧ Elsewhere w m s s' ∧ AttachedToOwn w s' ∧
      MuxLinked w s' m l' ∧ MuxPolicy w (s'.mux m) ∧ (s'.mux m).chanidCircidMap = rest ∧
      (s'.mux m).lastCellWasDestroy = (s.mux m).lastCellWasDestroy ∧
      (s'.mux m).policy = (s.mux m).policy := by
  have he : e ∈ (s.mux m).chanidCircidMap := by
    rw [hmap]
    exact mem_cons_self
  obtain ⟨c, hc⟩ := h.table.entries e he
  obtain ⟨s₁, l', hs₁, hre, hlist, hmem⟩ := h.exists_inactive hown he hc
  have hdir : e.direction = .dirOut ∨ w.isOrCircuit c = true := by
    cases hd : e.direction with
    | dirOut => exact .inl rfl
    | dirIn => exact .inr ((dirOn_eq_some.mp hc.dirOn_eq).2 hd)
  have hother : ∀ e' ∈ [] ++ rest, e'.circId ≠ e.circId := by
    have hkeys := h.table.keys
    rw [hmap, map_cons, nodup_cons] at hkeys
    intro e' he' heq
    exact hkeys.1 (mem_map.mpr ⟨e', he', heq⟩)
  have hx := congrArg (fun x => { x with chanidCircidMap := htRemove x.chanidCircidMap e }) hre.rest
  dsimp only [withoutList] at hx
  rw [hmap, show htRemove (e :: rest) e = rest from htRemove_split (A := []) hother] at hx
  have hmap' := congrArg chanidCircidMap hx
  have hlast := congrArg lastCellWasDestroy hx
  have hpol := congrArg policy hx
  dsimp only at hmap' hlast hpol
  unfold detachEntry
  rw [hc.found]
  dsimp only
  rw [if_pos hdir, some_bind hs₁,
    freeCircData_bind (s₁.setCircMux c e.direction none) hpolicy he hre.policy_eq]
  refine ⟨_, l', rfl,
    hre.toElsewhere.trans ((elsewhere_setEnd hc.dirOn_eq _).trans (elsewhere_setMux w _)),
    (hre.attachedToOwn hown).setCircMux_none c e.direction, ?_, ?_, ?_, ?_, ?_⟩
  · refine h.erase (A := []) hmap hc ?_ (fun c' => ?_) ?_ hmem
    · rw [mux_setMux]
      exact hmap'
    · refine (endOn_mux_setCircMux hc.dirOn_eq none c').trans ?_
      rw [hre.endOn_mux]
    · rw [links_setMux w rfl rfl, links_setCircMux hc.dirOn_eq]
      exact hlist
  · rw [mux_setMux]
    refine (hpolicy.of_entries ({ s.mux m with chanidCircidMap := rest }) rfl rfl
      fun e' he' hdata => ?_).congr hx
    refine hpolicy.circData e' ?_ hdata
    rw [hmap]
    exact mem_cons_of_mem e he'
  · rw [mux_setMux]
    exact hmap'
  · rw [mux_setMux]
    exact hlast
  · rw [mux_setMux]
    exact hpol

/-- **Detaching all circuits.** -/
theorem circuitmuxDetachAllCircuits_ok (h : CmuxOk w s) (m : ChanId) :
    ∃ s', circuitmuxDetachAllCircuits w s m = some s' ∧ CmuxOk w s' ∧ Elsewhere w m s s' ∧
      MuxMove w m RoundRobin.Joins s s' := by
  obtain ⟨⟨l, hlinked⟩, hcounts, hpolicy⟩ := h.2 m
  -- the counters are only right at the end
  obtain ⟨s₁, hs₁, helse, hown, ⟨l', hlinked'⟩, hpolicy', hmap, hlast, hpol⟩ :=
    Runs.exists_foldlM (f := detachEntry w m) (l := (s.mux m).chanidCircidMap) (s := s)
      (P := fun rest s₁ => Elsewhere w m s s₁ ∧ AttachedToOwn w s₁ ∧ (∃ l, MuxLinked w s₁ m l) ∧
        MuxPolicy w (s₁.mux m) ∧ (s₁.mux m).chanidCircidMap = rest ∧
        (s₁.mux m).lastCellWasDestroy = (s.mux m).lastCellWasDestroy ∧
        (s₁.mux m).policy = (s.mux m).policy)
      (fun e rest s₁ hP => by
        obtain ⟨helse, hown, ⟨l, hlinked⟩, hpolicy, hmap, hlast, hpol⟩ := hP
        obtain ⟨s₂, l', hs₂, helse₂, hown₂, hlinked₂, hpolicy₂, hmap₂, hlast₂, hpol₂⟩ :=
          detachEntry_eq hown hlinked hpolicy hmap
        exact ⟨s₂, hs₂, helse.trans helse₂, hown₂, ⟨l', hlinked₂⟩, hpolicy₂, hmap₂,
          hlast₂.trans hlast,
          hpol₂.trans hpol⟩)
      ⟨⟨fun _ _ => rfl, fun _ _ _ => rfl⟩, h.1, ⟨l, hlinked⟩, hpolicy, rfl, rfl, rfl⟩
  have hnil : l' = [] := by
    refine eq_nil_iff_forall_not_mem.mpr fun c hc => ?_
    obtain ⟨e, he, -⟩ := (hlinked'.active c).mp hc
    rw [hmap] at he
    cases he
  have hlist : (links w (s₁.setMux m fun x =>
      { x with nCircuits := 0, nActiveCircuits := 0, nCells := 0 }) m).IsList l' := by
    rw [links_setMux w rfl rfl]
    exact hlinked'.list
  unfold circuitmuxDetachAllCircuits
  rw [some_bind hs₁]
  refine ⟨_, rfl,
    h.of_elsewhere (helse.trans (elsewhere_setMux w _)) hown (m := m) ⟨⟨l', ?_⟩, ?_, ?_⟩,
    helse.trans (elsewhere_setMux w _), ?_, ?_, l, l', hlinked.list, hlist, hnil ▸ .clear l⟩
  · refine ⟨?_, fun c => ?_, hlist, fun c => ?_⟩
    · rw [mux_setMux]
      exact hlinked'.table
    · rw [mux_setMux]
      exact hlinked'.attached c
    · rw [mux_setMux]
      exact hlinked'.active c
  · rw [mux_setMux]
    constructor
    · dsimp only
      rw [hmap]
      rfl
    · dsimp only
      rw [hmap]
      rfl
    · dsimp only
      rw [hmap]
      rfl
  · rw [mux_setMux]
    exact ⟨hpolicy'.policyOk, hpolicy'.circData, hpolicy'.cmuxData⟩
  · rw [mux_setMux]
    exact hlast
  · rw [mux_setMux]
    exact hpol

end Steps

/-! ### Policies -/

/-- The table after the data of all entries has changed. -/
lemma MuxLinked.setData (h : MuxLinked w s m l) {b : Bool}
    (hmap : (s'.mux m).chanidCircidMap =
      (s.mux m).chanidCircidMap.map fun e => { e with policyData := b })
    (hends : ∀ c, endOn w s' m c = endOn w s m c) (hlinks : links w s' m = links w s m) :
    MuxLinked w s' m l := by
  have hiff : ∀ c (p : MuxEntry → Prop), (∀ e, p { e with policyData := b } ↔ p e) →
      ((∃ e ∈ (s'.mux m).chanidCircidMap, IsEntry w m e c ∧ p e) ↔
        ∃ e ∈ (s.mux m).chanidCircidMap, IsEntry w m e c ∧ p e) := by
    intro c p hp
    rw [hmap]
    constructor
    · rintro ⟨e', he', hc', hpe⟩
      obtain ⟨e, he, rfl⟩ := mem_map.mp he'
      exact ⟨e, he, hc'.congr rfl rfl rfl, (hp e).mp hpe⟩
    · rintro ⟨e, he, hc, hpe⟩
      exact ⟨_, mem_map.mpr ⟨e, he, rfl⟩, hc.congr rfl rfl rfl, (hp e).mpr hpe⟩
  refine ⟨⟨?_, fun e' he' => ?_⟩, fun c => ?_, ?_, fun c => ?_⟩
  · rw [hmap, List.map_map]
    exact h.table.keys
  · rw [hmap] at he'
    obtain ⟨e, he, rfl⟩ := mem_map.mp he'
    obtain ⟨c, hc⟩ := h.table.entries e he
    exact ⟨c, hc.congr rfl rfl rfl⟩
  · have htrue := hiff c (fun _ => True) fun _ => Iff.rfl
    simp only [and_true] at htrue
    rw [hends, h.attached, htrue]
  · rw [hlinks]
    exact h.list
  · rw [hiff c (fun e => 0 < e.cellCount) fun _ => Iff.rfl]
    exact h.active c

lemma setPolicyEntry_eq {oldPol newPol : Option (CircuitmuxPolicy C)} (hc : IsEntry w m e c)
    (hfree : e.policyData = true → oldPol.any CircuitmuxPolicy.freeCircData = true)
    (hok : ∀ p, newPol = some p → p.Ok) :
    setPolicyEntry w oldPol newPol e =
      some { e with policyData := (newPol.bind CircuitmuxPolicy.allocCircData).isSome } := by
  unfold setPolicyEntry freeCircData
  rw [some_bind hc.found, torAssert_bind hfree]
  cases hpol : newPol with
  | none => rfl
  | some p =>
    rw [bind_some]
    cases halloc : p.allocCircData with
    | none => rfl
    | some alloc =>
      obtain ⟨hfree, hdata⟩ := (hok p hpol).circData alloc halloc
      dsimp only
      rw [any_some, torAssert_bind hfree, hdata]
      rfl

/-- A sound policy gives data for a multiplexer that it can free. -/
lemma exists_allocCmuxData {pol : Option (CircuitmuxPolicy C)} (hok : ∀ p, pol = some p → p.Ok) :
    ∃ data, allocCmuxData pol = some data ∧
      (data = true → pol.any CircuitmuxPolicy.freeCmuxData = true) := by
  unfold allocCmuxData
  cases hpol : pol with
  | none => exact ⟨false, rfl, fun h => h⟩
  | some p =>
    rw [bind_some]
    cases halloc : p.allocCmuxData with
    | none => exact ⟨false, rfl, fun h => absurd h Bool.false_ne_true⟩
    | some data =>
      obtain ⟨hdata, hfree⟩ := (hok p hpol).cmuxData data halloc
      refine ⟨true, ?_, fun _ => hfree⟩
      dsimp only
      rw [any_some, torAssert_bind hfree, torAssert_bind hdata]
      rfl

/-- **Changing the policy** to a sound one. -/
theorem circuitmuxSetPolicy_ok [DecidableEq P] (h : CmuxOk w s) (m : ChanId) {pol : Option P}
    (hpol : ∀ p, pol = some p → (w.policy p).Ok) :
    ∃ s', circuitmuxSetPolicy w s m pol = some s' ∧ CmuxOk w s' ∧ Elsewhere w m s s' ∧
      ((s.mux m).policy = pol → s' = s) := by
  obtain ⟨⟨l, hlinked⟩, hcounts, hpolicy⟩ := h.2 m
  unfold circuitmuxSetPolicy
  by_cases heq : (s.mux m).policy = pol
  · rw [if_pos heq]
    exact ⟨s, rfl, h, ⟨fun _ _ => rfl, fun _ _ _ => rfl⟩, fun _ => rfl⟩
  · have hok : ∀ p, pol.map w.policy = some p → p.Ok := by
      intro p hp
      obtain ⟨p', hp', rfl⟩ := map_eq_some_iff.mp hp
      exact hpol p' hp'
    obtain ⟨data, hdata, hfree⟩ := exists_allocCmuxData hok
    generalize hb : ((pol.map w.policy).bind CircuitmuxPolicy.allocCircData).isSome = b
    have hmap :
        (s.mux m).chanidCircidMap.mapM (setPolicyEntry w (policyOf w s m) (pol.map w.policy)) =
          some ((s.mux m).chanidCircidMap.map fun e => { e with policyData := b }) := by
      refine Runs.mapM_eq_some_map fun e he => ?_
      obtain ⟨c, hc⟩ := hlinked.table.entries e he
      rw [← hb]
      exact setPolicyEntry_eq hc (hpolicy.circData e he) hok
    have hold : (s.mux m).policyData = true →
        (policyOf w s m).any CircuitmuxPolicy.freeCmuxData = true := hpolicy.cmuxData
    rw [if_neg heq, some_bind hdata, some_bind hmap, torAssert_bind hold]
    refine ⟨_, rfl, h.of_elsewhere (elsewhere_setMux w _) h.1 (m := m) ⟨⟨l, ?_⟩, ?_, ?_⟩,
      elsewhere_setMux w _, fun h => absurd h heq⟩
    · refine hlinked.setData (b := b) ?_ (fun _ => rfl) (links_setMux w rfl rfl)
      rw [mux_setMux]
    · rw [mux_setMux]
      refine ⟨?_, ?_, ?_⟩
      · dsimp only
        rw [length_map, hcounts.circuits]
      · dsimp only
        rw [hcounts.active, countActive, countActive, countP_map]
        rfl
      · dsimp only
        rw [hcounts.cells, countCells, countCells, List.map_map]
        rfl
    · rw [mux_setMux]
      refine ⟨hpol, fun e he hdata => ?_, hfree⟩
      obtain ⟨e', -, rfl⟩ := mem_map.mp he
      dsimp only at hdata
      rw [← hb] at hdata
      obtain ⟨alloc, halloc⟩ := isSome_iff_exists.mp hdata
      obtain ⟨p, hp, halloc⟩ := bind_eq_some_iff.mp halloc
      dsimp only
      rw [hp, any_some]
      exact ((hok p hp).circData alloc halloc).1

/-! ### Picking a circuit -/

/-- A change that concerns only destroy cells. -/
lemma CmuxOk.of_destroy (h : CmuxOk w s) (f : Circuitmux C P → Circuitmux C P)
    (hf : ∀ x, { f x with
      destroyCellQueue := x.destroyCellQueue
      lastCellWasDestroy := x.lastCellWasDestroy
      destroyCtr := x.destroyCtr } = x) : CmuxOk w (s.setMux m f) := by
  obtain ⟨⟨l, hlinked⟩, hcounts, hpolicy⟩ := h.2 m
  have hx := hf (s.mux m)
  have hmap := congrArg chanidCircidMap hx
  have hhead := congrArg Circuitmux.activeCircuitsHead hx
  have htail := congrArg Circuitmux.activeCircuitsTail hx
  have hcircuits := congrArg nCircuits hx
  have hactive := congrArg Circuitmux.nActiveCircuits hx
  have hcells := congrArg nCells hx
  have hpol := congrArg policy hx
  have hdata := congrArg policyData hx
  dsimp only at hmap hhead htail hcircuits hactive hcells hpol hdata
  refine h.of_elsewhere (elsewhere_setMux w _) h.1 (m := m) ⟨⟨l, ?_⟩, ?_, ?_⟩
  · refine ⟨?_, fun c => ?_, ?_, fun c => ?_⟩
    · rw [mux_setMux, hmap]
      exact hlinked.table
    · rw [mux_setMux, hmap]
      exact hlinked.attached c
    · rw [links_setMux w hhead htail]
      exact hlinked.list
    · rw [mux_setMux, hmap]
      exact hlinked.active c
  · rw [mux_setMux]
    refine ⟨?_, ?_, ?_⟩
    · rw [hcircuits, hmap, hcounts.circuits]
    · rw [hactive, hmap, hcounts.active]
    · rw [hcells, hmap, hcounts.cells]
  · rw [mux_setMux]
    refine ⟨?_, ?_, ?_⟩
    · rw [hpol]
      exact hpolicy.policyOk
    · rw [hpol, hmap]
      exact hpolicy.circData
    · rw [hpol, hdata]
      exact hpolicy.cmuxData

lemma CmuxOk.setGlobalDestroyCtr (h : CmuxOk w s) (n : ℤ) :
    CmuxOk w { s with globalDestroyCtr := n } := by
  refine ⟨h.1, fun m => ?_⟩
  obtain ⟨⟨l, hlinked⟩, hcounts, hpolicy⟩ := h.2 m
  exact ⟨⟨l, hlinked.table, hlinked.attached, hlinked.list, hlinked.active⟩, hcounts, hpolicy⟩

/-- The number of cells of all circuits, without overflow. -/
def totalCells (map : List MuxEntry) : ℕ := (map.map fun e => e.cellCount.toNat).sum

lemma countCells_toNat (map : List MuxEntry) :
    (countCells map).toNat = totalCells map % 2 ^ 32 := by
  unfold countCells totalCells
  induction map with
  | nil => rfl
  | cons e map ih =>
    rw [map_cons, map_cons, sum_cons, sum_cons, UInt32.toNat_add, ih]
    omega

/-- There are cells if a circuit is active. -/
lemma countActive_pos_iff (map : List MuxEntry) : 0 < countActive map ↔ 0 < totalCells map := by
  unfold countActive totalCells
  induction map with
  | nil => exact Iff.rfl
  | cons e map ih =>
    rw [countP_cons, map_cons, sum_cons]
    by_cases hpos : 0 < e.cellCount
    · have hpos' : 0 < e.cellCount.toNat := hpos
      rw [if_pos (decide_eq_true hpos)]
      omega
    · have hzero : e.cellCount.toNat = 0 := Nat.eq_zero_of_not_pos hpos
      rw [if_neg (by rw [decide_eq_false hpos]; exact Bool.false_ne_true), hzero]
      omega

/-- **Picking a circuit to send from**, while the counter of cells does not overflow. -/
theorem circuitmuxGetFirstActiveCircuit_ok (h : CmuxOk w s) (m : ChanId) (pick : Option C)
    (htotal : totalCells (s.mux m).chanidCircidMap < 2 ^ 32) :
    ∃ r, circuitmuxGetFirstActiveCircuit w s m pick = some r ∧ CmuxOk w r.1 := by
  obtain ⟨⟨l, hlinked⟩, hcounts, -⟩ := h.2 m
  have hcells := countCells_toNat (s.mux m).chanidCircidMap
  rw [← hcounts.cells, Nat.mod_eq_of_lt htotal] at hcells
  have hactive : (s.mux m).nActiveCircuits.toNat = countActive (s.mux m).chanidCircidMap := by
    rw [hcounts.active, UInt32.toNat_ofNat']
    exact Nat.mod_eq_of_lt (Nat.lt_of_le_of_lt countP_le_length hlinked.table.length_lt)
  have hiff := countActive_pos_iff (s.mux m).chanidCircidMap
  unfold circuitmuxGetFirstActiveCircuit
  split
  · refine ⟨_, rfl, ?_⟩
    exact h.of_destroy (fun x => { x with lastCellWasDestroy := true }) fun _ => rfl
  · next hdestroy =>
    split
    · next hpos =>
      have hpos' : 0 < countActive (s.mux m).chanidCircidMap := by
        rw [← hactive]
        exact hpos
      have hcells' : 0 < (s.mux m).nCells := by
        rw [UInt32.lt_iff_toNat_lt, hcells]
        exact hiff.mp hpos'
      rw [torAssert_bind hcells']
      dsimp only
      have hok : CmuxOk w (s.setMux m fun x => { x with lastCellWasDestroy := false }) :=
        h.of_destroy _ fun _ => rfl
      split
      · exact ⟨_, rfl, hok⟩
      · obtain ⟨c, hc⟩ : ∃ c, (s.mux m).activeCircuitsHead = some c := by
          have hlen := hlinked.length_eq
          cases l with
          | nil =>
            rw [length_nil] at hlen
            omega
          | cons c l => exact ⟨c, hlinked.list.ends.1⟩
        rw [hc]
        exact ⟨_, rfl, hok⟩
    · next hpos =>
      have hzero : (s.mux m).nActiveCircuits = 0 := by
        rw [← UInt32.toNat_inj]
        exact Nat.eq_zero_of_not_pos hpos
      have hnone : (s.mux m).nCells = 0 := by
        rw [← UInt32.toNat_inj, hcells]
        rw [hzero] at hactive
        have hnot : ¬0 < countActive (s.mux m).chanidCircidMap := by
          rw [← hactive]
          exact Nat.lt_irrefl 0
        exact Nat.eq_zero_of_not_pos fun hpos => hnot (hiff.mpr hpos)
      have hqueue : (s.mux m).destroyCellQueue = 0 := by
        by_contra hne
        exact hdestroy ⟨hne, .inr hzero⟩
      rw [torAssert_bind hnone, torAssert_bind hqueue]
      exact ⟨_, rfl, h⟩

/-! ### Runs -/

/-- What the assertions demand of the caller of an operation. -/
def CmuxEvent.Safe (w : CircuitWorld C P) (s : CmuxState C P) : CmuxEvent C P → Prop
  -- the multiplexer is that of the channel
  | .attachCircuit m c d _ =>
    w.chan c d = some m ∧ w.circId c d ≠ 0 ∧ (d = .dirIn → w.isOrCircuit c = true)
  | .detachCircuit _ c => ∃ d, w.chan c d ≠ none ∧ (d = .dirIn → w.isOrCircuit c = true)
  | .setNumCells m c _ => ∃ d, (s.ends c d).mux = some m
  | .getFirstActiveCircuit m _ => totalCells (s.mux m).chanidCircidMap < 2 ^ 32
  | .notifyXmitCells m c nCells =>
    nCells ≠ 0 → ∃ d, (s.ends c d).mux = some m ∧
      ∃ e, htFind (s.mux m).chanidCircidMap m (w.circId c d) = some e ∧ nCells ≤ e.cellCount
  | .setPolicy _ pol => ∀ p, pol = some p → (w.policy p).Ok
  | _ => True

instance : Fintype CellDirection := ⟨{.dirIn, .dirOut}, fun d => by cases d <;> decide⟩

instance [DecidableEq C] (w : CircuitWorld C P) [∀ p, Decidable (w.policy p).Ok]
    (s : CmuxState C P) : DecidablePred (CmuxEvent.Safe w s)
  | .attachCircuit m c d _ =>
    inferInstanceAs (Decidable (w.chan c d = some m ∧ w.circId c d ≠ 0 ∧ (d = .dirIn → _)))
  | .detachCircuit _ c => inferInstanceAs (Decidable (∃ d, w.chan c d ≠ none ∧ (d = .dirIn → _)))
  | .setNumCells m c _ => inferInstanceAs (Decidable (∃ d, (s.ends c d).mux = some m))
  | .getFirstActiveCircuit _ _ => inferInstanceAs (Decidable (_ < _))
  | .notifyXmitCells m c nCells =>
    inferInstanceAs (Decidable (nCells ≠ 0 → ∃ d, (s.ends c d).mux = some m ∧
      ∃ e ∈ htFind (s.mux m).chanidCircidMap m (w.circId c d), nCells ≤ e.cellCount))
  | .setPolicy _ pol => inferInstanceAs (Decidable (∀ p ∈ pol, (w.policy p).Ok))
  | .detachAllCircuits _ | .appendDestroyCell _ | .popDestroyCell _ | .notifyXmitDestroy _
  | .clearPolicy _ => isTrue trivial

lemma AttachedToOwn.endOn_mux (hown : AttachedToOwn w s) (hmux : (s.ends c d).mux = some m) :
    dirOn w m c = some d ∧ (endOn w s m c).mux = some m := by
  have hd := hown c d m hmux
  refine ⟨hd, ?_⟩
  rw [endOn_eq hd]
  exact hmux

/-- **One operation.** -/
theorem step_ok [DecidableEq C] [DecidableEq P] (h : CmuxOk w s) (event : CmuxEvent C P)
    (hsafe : event.Safe w s) : ∃ s', s.step w event = some s' ∧ CmuxOk w s' := by
  cases event with
  | attachCircuit m c d n =>
    obtain ⟨hchan, hid, hor⟩ := hsafe
    obtain ⟨s', hs', hok, -⟩ := circuitmuxAttachCircuit_ok h (dirOn_eq_some.mpr ⟨hchan, hor⟩) hid n
    exact ⟨s', hs', hok⟩
  | detachCircuit m c =>
    obtain ⟨s', hs', hok, -⟩ := circuitmuxDetachCircuit_ok (m := m) h hsafe
    exact ⟨s', hs', hok⟩
  | detachAllCircuits m =>
    obtain ⟨s', hs', hok, -⟩ := circuitmuxDetachAllCircuits_ok h m
    exact ⟨s', hs', hok⟩
  | setNumCells m c n =>
    obtain ⟨d, hmux⟩ := hsafe
    obtain ⟨s', hs', hok, -⟩ := circuitmuxSetNumCells_ok h (h.1.endOn_mux hmux).2 n
    exact ⟨s', hs', hok⟩
  | getFirstActiveCircuit m pick =>
    obtain ⟨r, hr, hok⟩ := circuitmuxGetFirstActiveCircuit_ok h m pick hsafe
    exact ⟨r.1, congrArg (Option.map Prod.fst) hr, hok⟩
  | notifyXmitCells m c n =>
    obtain ⟨s', hs', hok, -⟩ := circuitmuxNotifyXmitCells_ok (m := m) (c := c) h n fun hn => by
      obtain ⟨d, hmux, e, hfind, hle⟩ := hsafe hn
      obtain ⟨⟨l, hlinked⟩, -, -⟩ := h.2 m
      obtain ⟨he, hc, -⟩ := hlinked.table.isEntry_of_htFind (h.1.endOn_mux hmux).1 hfind
      exact ⟨e, he, hc, hle⟩
    exact ⟨s', hs', hok⟩
  | appendDestroyCell m =>
    refine ⟨_, rfl, CmuxOk.setGlobalDestroyCtr ?_ _⟩
    exact h.of_destroy (m := m) (fun x =>
      { x with destroyCellQueue := x.destroyCellQueue + 1, destroyCtr := x.destroyCtr + 1 })
        fun _ => rfl
  | popDestroyCell m =>
    exact ⟨_, rfl, h.of_destroy (m := m) (fun x =>
      { x with destroyCellQueue := x.destroyCellQueue - 1 }) fun _ => rfl⟩
  | notifyXmitDestroy m =>
    refine ⟨_, rfl, CmuxOk.setGlobalDestroyCtr ?_ _⟩
    exact h.of_destroy (m := m) (fun x => { x with destroyCtr := x.destroyCtr - 1 }) fun _ => rfl
  | setPolicy m pol =>
    obtain ⟨s', hs', hok, -⟩ := circuitmuxSetPolicy_ok h m hsafe
    exact ⟨s', hs', hok⟩
  | clearPolicy m =>
    unfold CmuxState.step circuitmuxClearPolicy
    dsimp only
    split
    · have hnone : ∀ p, (none : Option P) = some p → (w.policy p).Ok := nofun
      obtain ⟨s', hs', hok, -⟩ := circuitmuxSetPolicy_ok h m hnone
      exact ⟨s', hs', hok⟩
    · exact ⟨s, rfl, h⟩

lemma cmuxOk_init (w : CircuitWorld C P) : CmuxOk w (CmuxState.init C P) := by
  have hnone : ∀ m c, endOn w (CmuxState.init C P) m c = ⟨none, none, none⟩ := by
    intro m c
    unfold endOn
    cases dirOn w m c with
    | none => rfl
    | some d => rfl
  refine ⟨fun c d m hmux => ?_, fun m => ⟨⟨[], ?_⟩, ⟨rfl, rfl, rfl⟩, ⟨?_, ?_, ?_⟩⟩⟩
  · cases hmux
  · refine ⟨⟨nodup_nil, fun e he => ?_⟩, fun c => ?_, ⟨nodup_nil, rfl, rfl, fun c _ => ?_⟩,
      fun c => ?_⟩
    · cases he
    · rw [hnone]
      exact ⟨fun h => absurd h.symm (some_ne_none m), fun ⟨e, he, _⟩ => by cases he⟩
    · dsimp only [links]
      rw [hnone]
      exact ⟨rfl, rfl⟩
    · exact ⟨fun h => absurd h not_mem_nil, fun ⟨e, he, _⟩ => by cases he⟩
  · intro p hp
    cases hp
  · intro e he
    cases he
  · intro hdata
    cases hdata

/-- **Circuit multiplexers stay consistent.**  In every run of operations that do what the
assertions demand of their callers no assertion fails, and afterwards every multiplexer passes the
consistency check: its counters are those of its table, which has the attached circuits, and
following its pointers from the head yields a list without repetition of exactly those that have
cells, from the tail the same list in reverse. -/
theorem circuitmuxAssertOkay_run [DecidableEq C] [DecidableEq P] (w : CircuitWorld C P)
    (events : List (CmuxEvent C P))
    (hsafe : Runs.MeetsAlong (CmuxState.step w) (fun s event => event.Safe w s) events
      (CmuxState.init C P)) :
    ∃ s, events.foldlM (CmuxState.step w) (CmuxState.init C P) = some s ∧
      ∀ m, circuitmuxAssertOkay w s m = some () ∧ MuxCounts (s.mux m) ∧ ∃ l, MuxLinked w s m l := by
  obtain ⟨s, hs, hok⟩ := hsafe.exists_foldlM (P := CmuxOk w)
    (fun s event h hsafe => step_ok h event hsafe) (cmuxOk_init w)
  refine ⟨s, hs, fun m => ?_⟩
  obtain ⟨hlinked, hcounts, -⟩ := hok.2 m
  exact ⟨circuitmuxAssertOkay_eq hok.1 (hok.2 m), hcounts, hlinked⟩

/-- Two circuits, on one channel. -/
def twoCircuits : CircuitWorld Bool Unit where
  isOrCircuit _ := false
  chan _ d := if d = .dirOut then some 7 else none
  circId c _ := if c then 2 else 1
  circuitGetByCircidChannel i chan :=
    if chan = 7 then if i = 1 then some false else if i = 2 then some true else none else none
  policy _ := ⟨none, false, none, false, false, false, false⟩
  chan_ne _ _ _ hor := absurd hor Bool.false_ne_true
  get_circId c d chan' hchan _ _ := by
    cases d with
    | dirOut =>
      obtain rfl := Option.some.inj hchan
      cases c
      · rfl
      · rfl
    | dirIn => cases hchan

instance (p : Unit) : Decidable (twoCircuits.policy p).Ok := isTrue ⟨nofun, nofun⟩

/-- The rule for runs at a run: both circuits are served in turn, and one of them is detached. -/
theorem circuitmuxAssertOkay_run_twoCircuits :
    ∃ s, [CmuxEvent.attachCircuit 7 false .dirOut 3, .attachCircuit 7 true .dirOut 0,
      .setNumCells 7 true 2,
        .getFirstActiveCircuit 7 none, .notifyXmitCells 7 false 1, .getFirstActiveCircuit 7 none,
        .notifyXmitCells 7 true 2, .detachCircuit 7 false].foldlM (CmuxState.step twoCircuits)
          (CmuxState.init Bool Unit) = some s ∧
      ∀ m, circuitmuxAssertOkay twoCircuits s m = some () ∧ MuxCounts (s.mux m) ∧
        ∃ l, MuxLinked twoCircuits s m l :=
  circuitmuxAssertOkay_run twoCircuits _ (by decide +kernel)

/-- The number of cells of a circuit that is not attached cannot be set: an assertion fails. -/
theorem not_circuitmuxSetNumCells_unattached :
    ¬ ∀ events : List (CmuxEvent Bool Unit), ∃ s,
      events.foldlM (CmuxState.step twoCircuits) (CmuxState.init Bool Unit) = some s ∧
        ∀ m, circuitmuxAssertOkay twoCircuits s m = some () := by
  intro hall
  obtain ⟨s, hs, -⟩ := hall [.setNumCells 7 false 5]
  cases hs

end Astoria
