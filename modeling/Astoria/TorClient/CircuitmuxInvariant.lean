import Astoria.TorClient.ActiveCircuits
import Mathlib

/-!
# The invariant of circuit multiplexers

The table of a multiplexer has one entry for each circuit attached to it, the list of active
circuits those whose entries count cells (`MuxLinked`), the counters agree with the table
(`MuxCounts`), and there is a policy to free the data that policies have allocated (`MuxPolicy`).
Such a multiplexer passes the consistency check (`circuitmuxAssertOkay_eq`).
-/

namespace Astoria

open List Option
open DoublyLinked

variable {C P : Type} {w : CircuitWorld C P} {s s' : CmuxState C P} {m m' : ChanId} {c c' : C}
  {d d' : CellDirection} {e e' : MuxEntry} {map A B : List MuxEntry}

/-! ### Entries -/

/-- An entry belongs to a circuit. -/
structure IsEntry (w : CircuitWorld C P) (m : ChanId) (e : MuxEntry) (c : C) : Prop where
  chanId_eq : e.chanId = m
  /-- The circuit uses the channel in the direction of the entry. -/
  dirOn_eq : dirOn w m c = some e.direction
  circId_eq : e.circId = w.circId c e.direction
  circId_ne : e.circId ≠ 0

lemma IsEntry.found (h : IsEntry w m e c) :
    w.circuitGetByCircidChannel e.circId e.chanId = some c := by
  obtain ⟨hchan, hor⟩ := dirOn_eq_some.mp h.dirOn_eq
  have hne := h.circId_ne
  rw [h.circId_eq] at hne
  rw [h.circId_eq, h.chanId_eq]
  exact w.get_circId c e.direction m hchan hne hor

lemma IsEntry.circ_unique (h : IsEntry w m e c) (h' : IsEntry w m e' c')
    (heq : e.circId = e'.circId) : c = c' := by
  have hfound := h.found
  rw [heq, h.chanId_eq, ← h'.chanId_eq, h'.found] at hfound
  exact (some.inj hfound).symm

lemma IsEntry.circId_unique (h : IsEntry w m e c) (h' : IsEntry w m e' c) :
    e.circId = e'.circId := by
  have hdir := h.dirOn_eq.symm.trans h'.dirOn_eq
  rw [h.circId_eq, h'.circId_eq, some.inj hdir]

lemma IsEntry.congr (h : IsEntry w m e c) (hchan : e'.chanId = e.chanId)
    (hcirc : e'.circId = e.circId) (hdir : e'.direction = e.direction) : IsEntry w m e' c where
  chanId_eq := hchan.trans h.chanId_eq
  dirOn_eq := by rw [hdir, h.dirOn_eq]
  circId_eq := by rw [hcirc, hdir, h.circId_eq]
  circId_ne := by rw [hcirc]; exact h.circId_ne

/-- A table of entries for circuits, no two of the same name. -/
structure MuxTable (w : CircuitWorld C P) (m : ChanId) (map : List MuxEntry) : Prop where
  /-- The names differ. -/
  keys : (map.map MuxEntry.circId).Nodup
  entries : ∀ e ∈ map, ∃ c, IsEntry w m e c

lemma htFind_eq_some {chanId : ChanId} {circId : CircId} (h : htFind map chanId circId = some e) :
    e ∈ map ∧ e.chanId = chanId ∧ e.circId = circId := by
  have hkey := find?_some h
  exact ⟨mem_of_find?_eq_some h, of_decide_eq_true hkey⟩

lemma MuxTable.split (h : MuxTable w m map) (he : e ∈ map) :
    ∃ A B, map = A ++ e :: B ∧ (∀ e' ∈ A ++ B, e'.circId ≠ e.circId) := by
  obtain ⟨A, B, rfl⟩ := append_of_mem he
  refine ⟨A, B, rfl, fun e' he' heq => ?_⟩
  have hkeys := h.keys
  rw [map_append, map_cons, nodup_middle, ← map_append, nodup_cons] at hkeys
  exact hkeys.1 (List.mem_map.mpr ⟨e', he', heq⟩)

lemma htUpdate_eq_self (f : MuxEntry → MuxEntry) (h : ∀ e' ∈ A, e'.circId ≠ e.circId) :
    htUpdate A e f = A := by
  unfold htUpdate
  refine (map_congr_left fun e' he' => ?_).trans (List.map_id A)
  rw [if_neg fun hkey => h e' he' hkey.2]
  rfl

lemma htRemove_eq_self (h : ∀ e' ∈ A, e'.circId ≠ e.circId) : htRemove A e = A := by
  unfold htRemove
  refine filter_eq_self.mpr fun e' he' => ?_
  have hne : ¬(e'.chanId = e.chanId ∧ e'.circId = e.circId) := fun hkey => h e' he' hkey.2
  rw [decide_eq_false hne]
  rfl

lemma htUpdate_split (f : MuxEntry → MuxEntry) (h : ∀ e' ∈ A ++ B, e'.circId ≠ e.circId) :
    htUpdate (A ++ e :: B) e f = A ++ f e :: B := by
  have hA := htUpdate_eq_self f fun e' he' => h e' (mem_append_left B he')
  have hB := htUpdate_eq_self f fun e' he' => h e' (mem_append_right A he')
  unfold htUpdate at hA hB ⊢
  rw [map_append, map_cons, hA, hB, if_pos ⟨rfl, rfl⟩]

lemma htRemove_split (h : ∀ e' ∈ A ++ B, e'.circId ≠ e.circId) :
    htRemove (A ++ e :: B) e = A ++ B := by
  have hA := htRemove_eq_self fun e' he' => h e' (mem_append_left B he')
  have hB := htRemove_eq_self fun e' he' => h e' (mem_append_right A he')
  unfold htRemove at hA hB ⊢
  rw [filter_append, filter_cons_of_neg, hA, hB]
  simp

section

variable (h : MuxTable w m map)

include h

lemma MuxTable.htFind_eq (he : e ∈ map) : htFind map e.chanId e.circId = some e := by
  obtain ⟨A, B, rfl, hother⟩ := h.split he
  unfold htFind
  rw [find?_append, find?_cons_of_pos (by simp), find?_eq_none.mpr]
  · rfl
  · intro e' he' hkey
    exact hother e' (mem_append_left B he') (of_decide_eq_true hkey).2

/-- The entry that is found for a circuit is its own. -/
lemma MuxTable.isEntry_of_htFind (hd : dirOn w m c = some d)
    (hfind : htFind map m (w.circId c d) = some e) :
    e ∈ map ∧ IsEntry w m e c ∧ e.direction = d := by
  obtain ⟨hmem, -, hid⟩ := htFind_eq_some hfind
  obtain ⟨c', hc'⟩ := h.entries e hmem
  obtain ⟨hchan, hor⟩ := dirOn_eq_some.mp hd
  have hne := hc'.circId_ne
  rw [hid] at hne
  have hget := w.get_circId c d m hchan hne hor
  rw [← hid] at hget
  have hfound := hc'.found
  rw [hc'.chanId_eq, hget] at hfound
  obtain rfl := some.inj hfound
  refine ⟨hmem, hc', ?_⟩
  exact some.inj (hc'.dirOn_eq.symm.trans hd)

lemma MuxTable.entry_unique (he : e ∈ map) (he' : e' ∈ map) (hc : IsEntry w m e c)
    (hc' : IsEntry w m e' c) : e = e' := by
  exact inj_on_of_nodup_map h.keys he he' (hc.circId_unique hc')

/-- There are fewer entries than names. -/
lemma MuxTable.length_lt : map.length < 2 ^ 32 := by
  have hnodup : ((map.map MuxEntry.circId).map UInt32.toNat).Nodup :=
    h.keys.map fun a b hab => UInt32.toNat_inj.mp hab
  have hsub : (map.map MuxEntry.circId).map UInt32.toNat ⊆ range' 1 (2 ^ 32 - 1) := by
    intro n hn
    rw [List.map_map] at hn
    obtain ⟨e, he, rfl⟩ := List.mem_map.mp hn
    obtain ⟨c, hc⟩ := h.entries e he
    have hne : e.circId.toNat ≠ 0 := fun hzero => hc.circId_ne (UInt32.toNat_inj.mp hzero)
    have hlt := e.circId.toNat_lt
    rw [mem_range'_1, Function.comp_apply]
    omega
  have hlen := (subperm_of_subset hnodup hsub).length_le
  rw [length_range', length_map, length_map] at hlen
  omega

/-! ### Searching for a circuit -/

lemma MuxTable.of_search
    (hsearch : ((w.chan c d).bind fun chan => htFind map chan (w.circId c d)) = some e) :
    w.chan c d = some m ∧ htFind map m (w.circId c d) = some e := by
  obtain ⟨chan, hchan, hfind⟩ := bind_eq_some_iff.mp hsearch
  obtain ⟨hmem, hid, -⟩ := htFind_eq_some hfind
  obtain ⟨c', hc'⟩ := h.entries e hmem
  obtain rfl : chan = m := hid.symm.trans hc'.chanId_eq
  exact ⟨hchan, hfind⟩

lemma MuxTable.search_eq (he : e ∈ map) (hc : IsEntry w m e c) :
    ((w.chan c e.direction).bind fun chan => htFind map chan (w.circId c e.direction)) =
      some e := by
  have hfind := h.htFind_eq he
  rw [(dirOn_eq_some.mp hc.dirOn_eq).1, bind_some, ← hc.circId_eq, ← hc.chanId_eq]
  exact hfind

lemma MuxTable.searchOut_eq_none (hd : dirOn w m c ≠ some .dirOut) :
    ((w.chan c .dirOut).bind fun chan => htFind map chan (w.circId c .dirOut)) = none := by
  rw [eq_none_iff_forall_ne_some]
  intro e hsearch
  refine hd (dirOn_eq_some.mpr ⟨(h.of_search hsearch).1, fun hdir => ?_⟩)
  cases hdir

end

lemma circuitmuxFindMapEntry_eq (h : MuxTable w m (s.mux m).chanidCircidMap)
    (he : e ∈ (s.mux m).chanidCircidMap) (hc : IsEntry w m e c) :
    circuitmuxFindMapEntry w s m c = some (some e) := by
  have hsearch := h.search_eq he hc
  unfold circuitmuxFindMapEntry
  cases hdir : e.direction with
  | dirOut =>
    rw [hdir] at hsearch
    rw [hsearch]
    dsimp only
    rw [torAssert_bind hdir]
    rfl
  | dirIn =>
    rw [hdir] at hsearch
    have hor := (dirOn_eq_some.mp hc.dirOn_eq).2 hdir
    have hout : dirOn w m c ≠ some .dirOut := by
      rw [hc.dirOn_eq, hdir]
      intro h
      cases h
    rw [h.searchOut_eq_none hout, hsearch, if_pos hor]
    dsimp only
    rw [torAssert_bind hdir]
    rfl

/-- A search in both directions finds the entry of the circuit, and ends with its direction. -/
lemma searchBothDirections_spec (h : MuxTable w m (s.mux m).chanidCircidMap)
    {r : Option CellDirection} (hsearch : searchBothDirections w s m c = (some e, r)) :
    e ∈ (s.mux m).chanidCircidMap ∧ IsEntry w m e c ∧ r = some e.direction := by
  unfold searchBothDirections at hsearch
  split at hsearch
  · next e' hout =>
    rw [Prod.mk.injEq] at hsearch
    obtain ⟨heq, rfl⟩ := hsearch
    obtain rfl := some.inj heq
    obtain ⟨hchan, hfind⟩ := h.of_search hout
    have hd : dirOn w m c = some .dirOut := dirOn_eq_some.mpr ⟨hchan, fun hdir => by cases hdir⟩
    obtain ⟨hmem, hentry, hdir⟩ := h.isEntry_of_htFind hd hfind
    exact ⟨hmem, hentry, congrArg some hdir.symm⟩
  · next hout =>
    cases hin : w.chan c .dirIn with
    | none =>
      rw [hin] at hsearch
      cases hsearch
    | some chan =>
      rw [hin] at hsearch
      dsimp only at hsearch
      by_cases hor : w.isOrCircuit c = true
      · rw [if_pos hor, Prod.mk.injEq] at hsearch
        obtain ⟨hfind, rfl⟩ := hsearch
        have hbind : ((w.chan c .dirIn).bind fun chan =>
            htFind (s.mux m).chanidCircidMap chan (w.circId c .dirIn)) = some e := by
          rw [hin]
          exact hfind
        obtain ⟨hchan, hfind'⟩ := h.of_search hbind
        obtain ⟨hmem, hentry, hdir⟩ :=
          h.isEntry_of_htFind (dirOn_eq_some.mpr ⟨hchan, fun _ => hor⟩) hfind'
        exact ⟨hmem, hentry, congrArg some hdir.symm⟩
      · rw [if_neg hor] at hsearch
        cases hsearch

/-- A search for a circuit that has a channel ends with a direction. -/
lemma searchBothDirections_ne_none
    (hchan : ∃ d, w.chan c d ≠ none ∧ (d = .dirIn → w.isOrCircuit c = true)) :
    (searchBothDirections w s m c).2 ≠ none := by
  obtain ⟨d, hd, hor⟩ := hchan
  unfold searchBothDirections
  split
  · exact some_ne_none _
  · cases d with
    | dirIn =>
      obtain ⟨chan, hin⟩ := ne_none_iff_exists'.mp hd
      rw [hin]
      dsimp only
      rw [if_pos (hor rfl)]
      exact some_ne_none _
    | dirOut =>
      have hmap : (w.chan c .dirOut).map (fun _ => CellDirection.dirOut) ≠ none := by
        rw [Ne, map_eq_none_iff]
        exact hd
      split
      · split
        · exact some_ne_none _
        · exact hmap
      · exact hmap

/-! ### The invariant -/

/-- The table has the attached circuits, and the list those with cells. -/
structure MuxLinked (w : CircuitWorld C P) (s : CmuxState C P) (m : ChanId) (l : List C) :
    Prop where
  table : MuxTable w m (s.mux m).chanidCircidMap
  /-- The circuits of the entries are attached, and no others. -/
  attached : ∀ c, (endOn w s m c).mux = some m ↔ ∃ e ∈ (s.mux m).chanidCircidMap, IsEntry w m e c
  /-- The pointers are those of the list. -/
  list : (links w s m).IsList l
  /-- The circuits in the list have cells, and no others. -/
  active : ∀ c, c ∈ l ↔ ∃ e ∈ (s.mux m).chanidCircidMap, IsEntry w m e c ∧ 0 < e.cellCount

/-- The counters agree with the table. -/
structure MuxCounts (x : Circuitmux C P) : Prop where
  circuits : x.nCircuits = UInt32.ofNat x.chanidCircidMap.length
  active : x.nActiveCircuits = UInt32.ofNat (countActive x.chanidCircidMap)
  cells : x.nCells = countCells x.chanidCircidMap

/-- A policy that allocates data also frees it, and does return data. -/
structure CircuitmuxPolicy.Ok (pol : CircuitmuxPolicy C) : Prop where
  cmuxData : ∀ b, pol.allocCmuxData = some b → b = true ∧ pol.freeCmuxData = true
  circData : ∀ alloc, pol.allocCircData = some alloc →
    pol.freeCircData = true ∧ ∀ c d n, alloc c d n = true

/-- The policy frees the data that there is. -/
structure MuxPolicy (w : CircuitWorld C P) (x : Circuitmux C P) : Prop where
  policyOk : ∀ p, x.policy = some p → (w.policy p).Ok
  circData : ∀ e ∈ x.chanidCircidMap, e.policyData = true →
    (x.policy.map w.policy).any CircuitmuxPolicy.freeCircData = true
  cmuxData : x.policyData = true → (x.policy.map w.policy).any CircuitmuxPolicy.freeCmuxData = true

/-- The invariant of a multiplexer. -/
def MuxOk (w : CircuitWorld C P) (s : CmuxState C P) (m : ChanId) : Prop :=
  (∃ l, MuxLinked w s m l) ∧ MuxCounts (s.mux m) ∧ MuxPolicy w (s.mux m)

/-- The invariant of all multiplexers. -/
def CmuxOk (w : CircuitWorld C P) (s : CmuxState C P) : Prop :=
  AttachedToOwn w s ∧ ∀ m, MuxOk w s m

/-- Changing one multiplexer keeps the invariant of the others. -/
lemma Elsewhere.muxOk (h : Elsewhere w m s s') (hm : m' ≠ m) (hok : MuxOk w s m') :
    MuxOk w s' m' := by
  obtain ⟨⟨l, hlinked⟩, hcounts, hpolicy⟩ := hok
  have hmux := h.others m' hm
  refine ⟨⟨l, ?_⟩, ?_, ?_⟩
  · constructor
    · rw [hmux]
      exact hlinked.table
    · intro c
      rw [h.endOn_eq hm, hmux]
      exact hlinked.attached c
    · rw [h.links_eq hm]
      exact hlinked.list
    · intro c
      rw [hmux]
      exact hlinked.active c
  · rw [hmux]
    exact hcounts
  · rw [hmux]
    exact hpolicy

lemma CmuxOk.of_elsewhere (h : CmuxOk w s) (helse : Elsewhere w m s s') (hown : AttachedToOwn w s')
    (hok : MuxOk w s' m) : CmuxOk w s' := by
  refine ⟨hown, fun m' => ?_⟩
  by_cases hm : m' = m
  · rw [hm]
    exact hok
  · exact helse.muxOk hm (h.2 m')

lemma MuxLinked.listAttached (h : MuxLinked w s m l) : ListAttached w s m l := by
  intro c hc
  obtain ⟨e, he, hentry, -⟩ := (h.active c).mp hc
  exact (h.attached c).mpr ⟨e, he, hentry⟩

lemma MuxLinked.mux_eq (h : MuxLinked w s m l) (he : e ∈ (s.mux m).chanidCircidMap)
    (hc : IsEntry w m e c) : (s.ends c e.direction).mux = some m := by
  rw [← endOn_eq hc.dirOn_eq]
  exact (h.attached c).mpr ⟨e, he, hc⟩

lemma MuxLinked.mem_iff (h : MuxLinked w s m l) (he : e ∈ (s.mux m).chanidCircidMap)
    (hc : IsEntry w m e c) : c ∈ l ↔ 0 < e.cellCount := by
  rw [h.active]
  constructor
  · rintro ⟨e', he', hc', hpos⟩
    rw [h.table.entry_unique he he' hc hc']
    exact hpos
  · exact fun hpos => ⟨e, he, hc, hpos⟩

/-- There are as many circuits in the list as entries with cells. -/
lemma MuxLinked.length_eq (h : MuxLinked w s m l) :
    l.length = countActive (s.mux m).chanidCircidMap := by
  have htable := h.table
  generalize hmap : (s.mux m).chanidCircidMap = map at htable
  have hentry : ∀ e ∈ map.filter (fun e => decide (0 < e.cellCount)),
      e ∈ map ∧ 0 < e.cellCount ∧ ∃ c, IsEntry w m e c := by
    intro e he
    rw [mem_filter, decide_eq_true_eq] at he
    exact ⟨he.1, he.2, htable.entries e he.1⟩
  have hnodup : ((map.filter fun e => decide (0 < e.cellCount)).map fun e =>
      w.circuitGetByCircidChannel e.circId e.chanId).Nodup := by
    refine Nodup.map_on ?_ (htable.keys.of_map.filter _)
    intro e he e' he' heq
    obtain ⟨hmem, -, c, hc⟩ := hentry e he
    obtain ⟨hmem', -, c', hc'⟩ := hentry e' he'
    rw [hc.found, hc'.found] at heq
    rw [some.inj heq] at hc
    exact htable.entry_unique hmem hmem' hc hc'
  have hperm : (l.map some).Perm ((map.filter fun e => decide (0 < e.cellCount)).map fun e =>
      w.circuitGetByCircidChannel e.circId e.chanId) := by
    refine (perm_ext_iff_of_nodup (h.list.nodup.map fun _ _ hsome => some.inj hsome) hnodup).mpr
      fun r => ?_
    rw [List.mem_map, List.mem_map]
    constructor
    · rintro ⟨c, hc, rfl⟩
      obtain ⟨e, he, hentry, hpos⟩ := (h.active c).mp hc
      rw [hmap] at he
      exact ⟨e, mem_filter.mpr ⟨he, decide_eq_true hpos⟩, hentry.found⟩
    · rintro ⟨e, he, rfl⟩
      obtain ⟨hmem, hpos, c, hc⟩ := hentry e he
      rw [← hmap] at hmem
      exact ⟨c, (h.active c).mpr ⟨e, hmem, hc, hpos⟩, hc.found.symm⟩
  have hlen := hperm.length_eq
  rw [length_map, length_map, ← countP_eq_length_filter] at hlen
  exact hlen

/-! ### Changing an entry -/

lemma MuxTable.exists_entry_iff [DecidableEq C] (h : MuxTable w m (A ++ e :: B))
    (hc : IsEntry w m e c) (p : MuxEntry → Prop) (c' : C) :
    (∃ e' ∈ A ++ e :: B, IsEntry w m e' c' ∧ p e') ↔
      if c' = c then p e else ∃ e' ∈ A ++ B, IsEntry w m e' c' ∧ p e' := by
  have he : e ∈ A ++ e :: B := mem_append_right A mem_cons_self
  by_cases heq : c' = c
  · subst heq
    rw [if_pos rfl]
    constructor
    · rintro ⟨e', he', hc', hp⟩
      rw [h.entry_unique he he' hc hc']
      exact hp
    · exact fun hp => ⟨e, he, hc, hp⟩
  · rw [if_neg heq]
    constructor
    · rintro ⟨e', he', hc', hp⟩
      rcases mem_append.mp he' with hA | hB
      · exact ⟨e', mem_append_left B hA, hc', hp⟩
      · rcases mem_cons.mp hB with rfl | hB
        · exact absurd (hc'.circ_unique hc rfl) heq
        · exact ⟨e', mem_append_right A hB, hc', hp⟩
    · rintro ⟨e', he', hc', hp⟩
      refine ⟨e', ?_, hc', hp⟩
      rcases mem_append.mp he' with hA | hB
      · exact mem_append_left _ hA
      · exact mem_append_right A (mem_cons_of_mem e hB)

lemma MuxTable.not_entry (h : MuxTable w m (A ++ e :: B)) (hc : IsEntry w m e c)
    (he' : e' ∈ A ++ B) : ¬IsEntry w m e' c := by
  intro hc'
  have hkeys := h.keys
  rw [map_append, map_cons, nodup_middle, ← map_append, nodup_cons] at hkeys
  exact hkeys.1 (List.mem_map.mpr ⟨e', he', hc'.circId_unique hc⟩)

lemma MuxTable.remove (h : MuxTable w m (A ++ e :: B)) : MuxTable w m (A ++ B) := by
  have hsub : (A ++ B).Sublist (A ++ e :: B) := (sublist_cons_self e B).append_left A
  exact ⟨h.keys.sublist (hsub.map MuxEntry.circId), fun e' he' => h.entries e' (hsub.subset he')⟩

lemma MuxTable.insert (h : MuxTable w m map) (hc : IsEntry w m e c)
    (hnew : ∀ e' ∈ map, ¬IsEntry w m e' c) : MuxTable w m (e :: map) := by
  constructor
  · rw [map_cons, nodup_cons]
    refine ⟨fun hmem => ?_, h.keys⟩
    obtain ⟨e', he', heq⟩ := List.mem_map.mp hmem
    obtain ⟨c', hc'⟩ := h.entries e' he'
    rw [hc'.circ_unique hc heq] at hc'
    exact hnew e' he' hc'
  · intro e' he'
    rcases mem_cons.mp he' with rfl | he'
    · exact ⟨c, hc⟩
    · exact h.entries e' he'

/-- A table with another entry for a circuit. -/
lemma MuxTable.update (h : MuxTable w m (A ++ e :: B)) (hcirc : e'.circId = e.circId)
    (hc' : IsEntry w m e' c) : MuxTable w m (A ++ e' :: B) := by
  constructor
  · have hkeys := h.keys
    rw [map_append, map_cons] at hkeys ⊢
    rw [hcirc]
    exact hkeys
  · intro e'' he''
    rcases mem_append.mp he'' with hA | hB
    · exact h.entries e'' (mem_append_left _ hA)
    · rcases mem_cons.mp hB with rfl | hB
      · exact ⟨c, hc'⟩
      · exact h.entries e'' (mem_append_right A (mem_cons_of_mem e hB))

variable [DecidableEq C] {l l' : List C}

/-- **The number of cells of a circuit changes.** -/
lemma MuxLinked.update (h : MuxLinked w s m l) (hmap : (s.mux m).chanidCircidMap = A ++ e :: B)
    (hc : IsEntry w m e c) (n : UInt32)
    (hmap' : (s'.mux m).chanidCircidMap = A ++ { e with cellCount := n } :: B)
    (hmux : ∀ c, (endOn w s' m c).mux = (endOn w s m c).mux) (hlist : (links w s' m).IsList l')
    (hmem : ∀ c', c' ∈ l' ↔ if c' = c then 0 < n else c' ∈ l) : MuxLinked w s' m l' := by
  have htable := h.table
  rw [hmap] at htable
  have hc' : IsEntry w m { e with cellCount := n } c := hc.congr rfl rfl rfl
  have htable' : MuxTable w m (A ++ { e with cellCount := n } :: B) := htable.update rfl hc'
  refine ⟨?_, fun c' => ?_, hlist, fun c' => ?_⟩
  · rw [hmap']
    exact htable'
  · have hold := htable.exists_entry_iff hc (fun _ => True) c'
    have hnew := htable'.exists_entry_iff hc' (fun _ => True) c'
    simp only [and_true] at hold hnew
    rw [hmux, h.attached, hmap, hmap', hold, hnew]
  · rw [hmem, hmap', htable'.exists_entry_iff hc' (fun e => 0 < e.cellCount), h.active, hmap]
    have hold := htable.exists_entry_iff hc (fun e => 0 < e.cellCount) c'
    by_cases heq : c' = c
    · rw [if_pos heq, if_pos heq]
    · rw [if_neg heq] at hold ⊢
      rw [if_neg heq, hold]

/-- **A circuit is attached.** -/
lemma MuxLinked.insert (h : MuxLinked w s m l) (hc : IsEntry w m e c)
    (hnew : ∀ e' ∈ (s.mux m).chanidCircidMap, ¬IsEntry w m e' c)
    (hmap' : (s'.mux m).chanidCircidMap = e :: (s.mux m).chanidCircidMap)
    (hmux : ∀ c', (endOn w s' m c').mux = if c' = c then some m else (endOn w s m c').mux)
    (hlist : (links w s' m).IsList l')
    (hmem : ∀ c', c' ∈ l' ↔ if c' = c then 0 < e.cellCount else c' ∈ l) : MuxLinked w s' m l' := by
  have htable := h.table.insert hc hnew
  refine ⟨?_, fun c' => ?_, hlist, fun c' => ?_⟩
  · rw [hmap']
    exact htable
  · have hiff := MuxTable.exists_entry_iff (A := []) htable hc (fun _ => True) c'
    simp only [and_true, nil_append] at hiff
    rw [hmux, hmap', hiff]
    by_cases heq : c' = c
    · rw [if_pos heq, if_pos heq, iff_true_intro rfl]
    · rw [if_neg heq, if_neg heq, h.attached]
  · have hiff := MuxTable.exists_entry_iff (A := []) htable hc (fun e => 0 < e.cellCount) c'
    rw [nil_append, nil_append] at hiff
    rw [hmem, hmap', hiff]
    by_cases heq : c' = c
    · rw [if_pos heq, if_pos heq]
    · rw [if_neg heq, if_neg heq, h.active]

/-- **A circuit is detached.** -/
lemma MuxLinked.erase (h : MuxLinked w s m l) (hmap : (s.mux m).chanidCircidMap = A ++ e :: B)
    (hc : IsEntry w m e c) (hmap' : (s'.mux m).chanidCircidMap = A ++ B)
    (hmux : ∀ c', (endOn w s' m c').mux = if c' = c then none else (endOn w s m c').mux)
    (hlist : (links w s' m).IsList l')
    (hmem : ∀ c', c' ∈ l' ↔ if c' = c then False else c' ∈ l) : MuxLinked w s' m l' := by
  have htable := h.table
  rw [hmap] at htable
  refine ⟨?_, fun c' => ?_, hlist, fun c' => ?_⟩
  · rw [hmap']
    exact htable.remove
  · have hiff := htable.exists_entry_iff hc (fun _ => True) c'
    simp only [and_true] at hiff
    rw [hmux, hmap']
    by_cases heq : c' = c
    · rw [if_pos heq]
      subst heq
      refine ⟨fun hnone => absurd hnone.symm (some_ne_none m), fun ⟨e', he', hc'⟩ => ?_⟩
      exact absurd hc' (htable.not_entry hc he')
    · rw [if_neg heq] at hiff ⊢
      rw [h.attached, hmap, hiff]
  · have hiff := htable.exists_entry_iff hc (fun e => 0 < e.cellCount) c'
    rw [hmem, hmap']
    by_cases heq : c' = c
    · rw [if_pos heq]
      subst heq
      refine ⟨fun hfalse => hfalse.elim, fun ⟨e', he', hc', _⟩ => ?_⟩
      exact absurd hc' (htable.not_entry hc he')
    · rw [if_neg heq] at hiff ⊢
      rw [h.active, hmap, hiff]

/-! ### Counting -/

lemma countCells_split : countCells (A ++ e :: B) = countCells (A ++ B) + e.cellCount := by
  unfold countCells
  induction A with
  | nil => rw [nil_append, nil_append, map_cons, sum_cons, UInt32.add_comm]
  | cons a A ih =>
    rw [cons_append, cons_append, map_cons, map_cons, sum_cons, sum_cons,
      ih, UInt32.add_assoc]

/-- The active circuits of a table around one entry. -/
lemma countActive_split : UInt32.ofNat (countActive (A ++ e :: B)) =
    UInt32.ofNat (countActive (A ++ B)) + if 0 < e.cellCount then 1 else 0 := by
  unfold countActive
  rw [countP_append, countP_cons, ← Nat.add_assoc, ← countP_append, UInt32.ofNat_add]
  by_cases h : 0 < e.cellCount
  · rw [if_pos (decide_eq_true h), if_pos h]
    rfl
  · rw [if_neg (by rw [decide_eq_false h]; exact Bool.false_ne_true), if_neg h]
    rfl

lemma length_split : UInt32.ofNat (A ++ e :: B).length = UInt32.ofNat (A ++ B).length + 1 := by
  rw [length_append, length_cons, ← Nat.add_assoc, ← length_append, UInt32.ofNat_add]
  rfl

/-! ### The consistency check -/

lemma assertOkayEntry_eq (h : MuxLinked w s m l) (he : e ∈ (s.mux m).chanidCircidMap) :
    assertOkayEntry w s m e = some { e with mark := decide (0 < e.cellCount) } := by
  obtain ⟨c, hc⟩ := h.table.entries e he
  obtain ⟨hchan, hor⟩ := dirOn_eq_some.mp hc.dirOn_eq
  have hmem := h.mem_iff he hc
  unfold assertOkayEntry
  rw [some_bind hc.found, torAssert_bind hor, torAssert_bind (h.mux_eq he hc),
    torAssert_bind (by rw [hc.chanId_eq, hchan]), nextActive_eq hc.dirOn_eq,
    prevActive_eq hc.dirOn_eq]
  by_cases hpos : 0 < e.cellCount
  · have hin := hmem.mpr hpos
    have hnext : (links w s m).next c ≠ none ∨ (s.mux m).activeCircuitsTail = some c :=
      h.list.next_or_tail hin
    have hprev : (links w s m).prev c ≠ none ∨ (s.mux m).activeCircuitsHead = some c :=
      h.list.prev_or_head hin
    rw [if_pos hpos, torAssert_bind hnext, torAssert_bind hprev, decide_eq_true hpos]
    rfl
  · have hout : c ∉ l := fun hin => hpos (hmem.mp hin)
    obtain ⟨hnext, hprev⟩ := h.list.outside c hout
    have hends := h.list.ne_ends hout
    have hhead : (s.mux m).activeCircuitsHead ≠ some c := hends.1
    have htail : (s.mux m).activeCircuitsTail ≠ some c := hends.2
    rw [if_neg hpos, torAssert_bind hnext, torAssert_bind hprev, torAssert_bind hhead,
      torAssert_bind htail,
      decide_eq_false hpos]
    rfl

/-- An entry that is marked if its circuit is one of a list. -/
def markedBy (w : CircuitWorld C P) (l : List C) (e : MuxEntry) : MuxEntry :=
  { e with mark := (w.circuitGetByCircidChannel e.circId e.chanId).any fun c => decide (c ∈ l) }

/-- The first pass marks the circuits in the list. -/
lemma circuitmuxAssertOkayPassOne_eq (h : MuxLinked w s m l) (hcounts : MuxCounts (s.mux m)) :
    circuitmuxAssertOkayPassOne w s m = some ((s.mux m).chanidCircidMap.map (markedBy w l)) := by
  have hmark : (s.mux m).chanidCircidMap.mapM (assertOkayEntry w s m) =
      some ((s.mux m).chanidCircidMap.map (markedBy w l)) := by
    refine Runs.mapM_eq_some_map fun e he => ?_
    obtain ⟨c, hc⟩ := h.table.entries e he
    unfold markedBy
    rw [assertOkayEntry_eq h he, hc.found, any_some, decide_eq_decide.mpr (h.mem_iff he hc)]
  have hcells : countCells ((s.mux m).chanidCircidMap.map (markedBy w l)) = (s.mux m).nCells := by
    rw [hcounts.cells, countCells, List.map_map]
    rfl
  have hactive : countActive ((s.mux m).chanidCircidMap.map (markedBy w l)) =
      countActive (s.mux m).chanidCircidMap := by
    rw [countActive, countP_map]
    rfl
  unfold circuitmuxAssertOkayPassOne
  rw [some_bind hmark, torAssert_bind hcells, torAssert_bind (by rw [length_map, hcounts.circuits]),
    torAssert_bind (by rw [hactive, hcounts.active])]
  rfl

/-- The mark of a circuit that comes first is cleared. -/
lemma htUpdate_markedBy (h : MuxTable w m map) (he : e ∈ map) (hc : IsEntry w m e c)
    (hout : c ∉ l) : htUpdate (map.map (markedBy w (c :: l))) (markedBy w (c :: l) e)
      (fun e => { e with mark := false }) = map.map (markedBy w l) := by
  unfold htUpdate
  rw [List.map_map]
  refine map_congr_left fun e' he' => ?_
  obtain ⟨c', hc'⟩ := h.entries e' he'
  rw [Function.comp_apply]
  unfold markedBy
  rw [hc'.found]
  dsimp only [any_some]
  by_cases heq : c' = c
  · subst heq
    rw [h.entry_unique he' he hc' hc, if_pos ⟨rfl, rfl⟩, decide_eq_false hout]
  · have hkey : ¬(e'.chanId = e.chanId ∧ e'.circId = e.circId) :=
      fun hkey => heq (hc'.circ_unique hc hkey.2)
    have hmem : c' ∈ c :: l ↔ c' ∈ l := by rw [mem_cons, or_iff_right heq]
    rw [if_neg hkey, decide_eq_decide.mpr hmem]

/-- The second pass walks the list and clears all marks. -/
lemma circuitmuxAssertOkayPassTwo_eq (hown : AttachedToOwn w s) (h : MuxLinked w s m l)
    (l₁ l₂ : List C) (hl : l = l₁ ++ l₂) (fuel : ℕ) (hfuel : l₂.length < fuel) (n : UInt32)
    (hn : n + UInt32.ofNat l₂.length = (s.mux m).nActiveCircuits) :
    circuitmuxAssertOkayPassTwo w s m fuel ((s.mux m).chanidCircidMap.map (markedBy w l₂))
      l₁.getLast? l₂.head? n = some ((s.mux m).chanidCircidMap.map (markedBy w [])) := by
  induction l₂ generalizing l₁ fuel n with
  | nil =>
    have hn' : n = (s.mux m).nActiveCircuits := by
      rw [← hn]
      exact (UInt32.add_zero n).symm
    obtain ⟨k, rfl⟩ := Nat.exists_eq_add_of_lt hfuel
    unfold circuitmuxAssertOkayPassTwo
    rw [head?_nil]
    dsimp only
    rw [torAssert_bind hn']
    rfl
  | cons c l₂ ih =>
    obtain ⟨k, rfl⟩ : ∃ k, fuel = k + 1 := ⟨fuel - 1, by omega⟩
    have hin : c ∈ l := hl ▸ mem_append_right l₁ mem_cons_self
    obtain ⟨e, he, hc, hpos⟩ := (h.active c).mp hin
    have hlist := h.list
    rw [hl] at hlist
    obtain ⟨hnext, hprev⟩ := hlist.neighbours
    have hout : c ∉ l₂ := (nodup_cons.mp (nodup_append.mp hlist.nodup).2.1).1
    have hd := hc.dirOn_eq
    have hprev' : (s.ends c e.direction).prevActive = l₁.getLast? := by
      rw [prevActive_eq hd, hprev]
    have hnext' : (s.ends c e.direction).nextActive = l₂.head? := by
      rw [nextActive_eq hd, hnext]
    have hhead : (s.ends c e.direction).prevActive = none →
        (s.mux m).activeCircuitsHead = some c := by
      rw [prevActive_eq hd]
      intro hnone
      exact (h.list.prev_or_head hin).resolve_left fun hne => hne hnone
    have htail : (s.ends c e.direction).nextActive = none →
        (s.mux m).activeCircuitsTail = some c := by
      rw [nextActive_eq hd]
      intro hnone
      exact (h.list.next_or_tail hin).resolve_left fun hne => hne hnone
    have hfind : htFind ((s.mux m).chanidCircidMap.map (markedBy w (c :: l₂))) m
        (w.circId c e.direction) = some (markedBy w (c :: l₂) e) := by
      have hold := h.table.htFind_eq he
      rw [hc.chanId_eq, hc.circId_eq] at hold
      unfold htFind at hold ⊢
      rw [find?_map]
      exact congrArg (Option.map (markedBy w (c :: l₂))) hold
    have hdir : e.direction = (markedBy w (c :: l₂) e).direction := rfl
    have hmark : (markedBy w (c :: l₂) e).mark = true := by
      unfold markedBy
      dsimp only
      rw [hc.found, any_some]
      exact decide_eq_true mem_cons_self
    have hrest := ih (l₁ ++ [c]) (by rw [hl, append_assoc]; rfl) k
      (by rw [length_cons] at hfuel; omega) (n + 1) (by
        rw [← hn, length_cons, UInt32.ofNat_add, UInt32.add_assoc, UInt32.add_comm 1]
        rfl)
    rw [getLast?_concat] at hrest
    unfold circuitmuxAssertOkayPassTwo
    rw [head?_cons]
    dsimp only
    rw [circuitmuxActiveCircP_eq hown hd (h.mux_eq he hc), bind_eq_bind, bind_some,
      (dirOn_eq_some.mp hd).1, bind_eq_bind, bind_some, torAssert_bind hprev',
      torAssert_bind hhead, torAssert_bind htail, some_bind hfind, torAssert_bind hdir,
      torAssert_bind hmark, htUpdate_markedBy h.table he hc hout, hnext']
    exact hrest

/-- **A multiplexer with the invariant passes the consistency check.** -/
theorem circuitmuxAssertOkay_eq (hown : AttachedToOwn w s) (h : MuxOk w s m) :
    circuitmuxAssertOkay w s m = some () := by
  obtain ⟨⟨l, hlinked⟩, hcounts, -⟩ := h
  have hlen := hlinked.length_eq
  have htwo := circuitmuxAssertOkayPassTwo_eq hown hlinked [] l rfl
    ((s.mux m).chanidCircidMap.length + 1) ?_ 0 ?_
  · unfold circuitmuxAssertOkay
    rw [circuitmuxAssertOkayPassOne_eq hlinked hcounts, bind_eq_bind, bind_some,
      length_map, show (s.mux m).activeCircuitsHead = l.head? from hlinked.list.ends.1]
    rw [getLast?_nil] at htwo
    rw [htwo, bind_some]
    unfold torAssert
    rw [if_pos]
    intro e he
    obtain ⟨e', he', rfl⟩ := List.mem_map.mp he
    obtain ⟨c, hc⟩ := hlinked.table.entries e' he'
    unfold markedBy
    dsimp only
    rw [hc.found, any_some]
    exact decide_eq_false not_mem_nil
  · rw [hlen]
    exact Nat.lt_succ_of_le countP_le_length
  · rw [UInt32.zero_add, hlen, hcounts.active]

end Astoria
