import Astoria.Library.RoundRobin
import Astoria.TorClient.Circuitmux

/-!
# The list of active circuits

The circuits that use the channel of a multiplexer, with their pointers for that direction, are the
links of one doubly linked list (`links`).  Making a circuit active puts it in front
(`circuitmuxMakeCircuitActive_eq`), making it inactive takes it out
(`circuitmuxMakeCircuitInactive_eq`), and moving it to the tail takes it out and puts it at the end
(`circuitmuxMoveActiveCircToTail_eq`).  None of these changes anything of another multiplexer, or
anything but the list (`Relinked`).
-/

namespace Astoria

open List Option
open DoublyLinked
open Function

variable {C P : Type} {w : CircuitWorld C P} {s s' s₁ s₂ : CmuxState C P} {m m' : ChanId}
  {c c' : C} {d d' : CellDirection} {v : Option C}

/-! ### The circuits of a channel -/

/-- The direction in which a circuit uses a channel. -/
def dirOn (w : CircuitWorld C P) (m : ChanId) (c : C) : Option CellDirection :=
  if w.chan c .dirOut = some m then some .dirOut
  else if w.isOrCircuit c = true ∧ w.chan c .dirIn = some m then some .dirIn
  else none

/-- A circuit uses a channel in one direction only. -/
lemma dirOn_eq_some :
    dirOn w m c = some d ↔ w.chan c d = some m ∧ (d = .dirIn → w.isOrCircuit c = true) := by
  unfold dirOn
  by_cases hout : w.chan c .dirOut = some m
  · rw [if_pos hout]
    cases d with
    | dirOut => exact ⟨fun _ => ⟨hout, fun h => by cases h⟩, fun _ => rfl⟩
    | dirIn =>
      refine ⟨fun h => ?_, fun ⟨hin, hor⟩ => ?_⟩
      · cases h
      · exact absurd hin (w.chan_ne c m hout (hor rfl))
  · rw [if_neg hout]
    cases d with
    | dirOut =>
      refine ⟨fun h => ?_, fun h => absurd h.1 hout⟩
      split at h
      · cases h
      · cases h
    | dirIn =>
      constructor
      · intro h
        split at h
        · next hin => exact ⟨hin.2, fun _ => hin.1⟩
        · cases h
      · rintro ⟨hin, hor⟩
        rw [if_pos ⟨hor rfl, hin⟩]

lemma dirOn_unique (h : dirOn w m c = some d) (h' : dirOn w m' c = some d) : m' = m := by
  have heq := (dirOn_eq_some.mp h').1.symm.trans (dirOn_eq_some.mp h).1
  exact Option.some.inj heq

/-- Circuits are attached to the multiplexers of channels that they use. -/
def AttachedToOwn (w : CircuitWorld C P) (s : CmuxState C P) : Prop :=
  ∀ c d m, (s.ends c d).mux = some m → dirOn w m c = some d

/-- The fields of a circuit for a channel. -/
def endOn (w : CircuitWorld C P) (s : CmuxState C P) (m : ChanId) (c : C) : CircuitEnd C :=
  match dirOn w m c with
  | some d => s.ends c d
  | none => ⟨none, none, none⟩

lemma endOn_eq (h : dirOn w m c = some d) : endOn w s m c = s.ends c d := by
  unfold endOn
  rw [h]

/-- The list of active circuits of a multiplexer. -/
def links (w : CircuitWorld C P) (s : CmuxState C P) (m : ChanId) : Links C where
  next c := (endOn w s m c).nextActive
  prev c := (endOn w s m c).prevActive
  head := (s.mux m).activeCircuitsHead
  tail := (s.mux m).activeCircuitsTail

lemma nextActive_eq (h : dirOn w m c = some d) :
    (s.ends c d).nextActive = (links w s m).next c := by
  rw [← endOn_eq h]
  rfl

lemma prevActive_eq (h : dirOn w m c = some d) :
    (s.ends c d).prevActive = (links w s m).prev c := by
  rw [← endOn_eq h]
  rfl

/-! ### Changing the list only -/

def Circuitmux.withoutList (x : Circuitmux C P) : Circuitmux C P :=
  { x with activeCircuitsHead := none, activeCircuitsTail := none }

/-- Nothing changes that belongs to other multiplexers. -/
structure Elsewhere (w : CircuitWorld C P) (m : ChanId) (s s' : CmuxState C P) : Prop where
  others : ∀ m', m' ≠ m → s'.mux m' = s.mux m'
  /-- The fields of circuits for them do not change. -/
  ends : ∀ c d, dirOn w m c ≠ some d → s'.ends c d = s.ends c d

/-- Only the list of a multiplexer changes. -/
structure Relinked (w : CircuitWorld C P) (m : ChanId) (s s' : CmuxState C P) : Prop
    extends Elsewhere w m s s' where
  /-- Of this multiplexer, only the list changes. -/
  rest : (s'.mux m).withoutList = (s.mux m).withoutList
  attached : ∀ c d, (s'.ends c d).mux = (s.ends c d).mux

lemma Elsewhere.trans (h : Elsewhere w m s s₁) (h' : Elsewhere w m s₁ s₂) : Elsewhere w m s s₂ where
  others m' hm := (h'.others m' hm).trans (h.others m' hm)
  ends c d hd := (h'.ends c d hd).trans (h.ends c d hd)

lemma Elsewhere.endOn_eq (h : Elsewhere w m s s') (hm : m' ≠ m) (c : C) :
    endOn w s' m' c = endOn w s m' c := by
  unfold endOn
  cases hd : dirOn w m' c with
  | none => rfl
  | some d => exact h.ends c d fun hd' => hm (dirOn_unique hd' hd)

lemma Elsewhere.links_eq (h : Elsewhere w m s s') (hm : m' ≠ m) : links w s' m' = links w s m' := by
  refine Links.ext (funext fun c => ?_) (funext fun c => ?_) ?_ ?_
  · exact congrArg CircuitEnd.nextActive (h.endOn_eq hm c)
  · exact congrArg CircuitEnd.prevActive (h.endOn_eq hm c)
  · exact congrArg Circuitmux.activeCircuitsHead (h.others m' hm)
  · exact congrArg Circuitmux.activeCircuitsTail (h.others m' hm)

lemma Relinked.refl (w : CircuitWorld C P) (m : ChanId) (s : CmuxState C P) : Relinked w m s s where
  others _ _ := rfl
  ends _ _ _ := rfl
  rest := rfl
  attached _ _ := rfl

lemma Relinked.trans (h : Relinked w m s s₁) (h' : Relinked w m s₁ s₂) : Relinked w m s s₂ where
  toElsewhere := h.toElsewhere.trans h'.toElsewhere
  rest := h'.rest.trans h.rest
  attached c d := (h'.attached c d).trans (h.attached c d)

lemma Relinked.map_eq (h : Relinked w m s s') :
    (s'.mux m).chanidCircidMap = (s.mux m).chanidCircidMap := by
  have hrest := congrArg Circuitmux.chanidCircidMap h.rest
  exact hrest

lemma Relinked.policy_eq (h : Relinked w m s s') : (s'.mux m).policy = (s.mux m).policy := by
  have hrest := congrArg Circuitmux.policy h.rest
  exact hrest

lemma Relinked.attachedToOwn (h : Relinked w m s s') (hown : AttachedToOwn w s) :
    AttachedToOwn w s' := by
  intro c d m' hmux
  rw [h.attached] at hmux
  exact hown c d m' hmux

lemma Relinked.endOn_mux (h : Relinked w m s s') (m' : ChanId) (c : C) :
    (endOn w s' m' c).mux = (endOn w s m' c).mux := by
  unfold endOn
  cases dirOn w m' c with
  | none => rfl
  | some d => exact h.attached c d

@[simp] lemma mux_setMux (f : Circuitmux C P → Circuitmux C P) :
    (s.setMux m f).mux m = f (s.mux m) :=
  update_self m _ s.mux

lemma mux_setMux_of_ne (f : Circuitmux C P → Circuitmux C P) (h : m' ≠ m) :
    (s.setMux m f).mux m' = s.mux m' :=
  update_of_ne h _ s.mux

lemma elsewhere_setMux (w : CircuitWorld C P) (f : Circuitmux C P → Circuitmux C P) :
    Elsewhere w m s (s.setMux m f) where
  others _ hm := mux_setMux_of_ne f hm
  ends _ _ _ := rfl

variable {f : Circuitmux C P → Circuitmux C P}

lemma relinked_setMux (w : CircuitWorld C P)
    (hf : (f (s.mux m)).withoutList = (s.mux m).withoutList) : Relinked w m s (s.setMux m f) where
  toElsewhere := elsewhere_setMux w f
  rest := by rw [mux_setMux, hf]
  attached _ _ := rfl

/-- A change that keeps the list. -/
lemma links_setMux (w : CircuitWorld C P)
    (hhead : (f (s.mux m)).activeCircuitsHead = (s.mux m).activeCircuitsHead)
    (htail : (f (s.mux m)).activeCircuitsTail = (s.mux m).activeCircuitsTail) :
    links w (s.setMux m f) m = links w s m := by
  refine Links.ext rfl rfl ?_ ?_
  · dsimp only [links]
    rw [mux_setMux, hhead]
  · dsimp only [links]
    rw [mux_setMux, htail]

lemma setMux_eq_self (hf : f (s.mux m) = s.mux m) : s.setMux m f = s := by
  unfold CmuxState.setMux
  rw [hf, update_eq_self]

lemma links_setHead (w : CircuitWorld C P) :
    links w (s.setHead m v) m = { links w s m with head := v } := by
  refine Links.ext rfl rfl ?_ ?_
  · dsimp only [links, CmuxState.setHead]
    rw [mux_setMux]
  · dsimp only [links, CmuxState.setHead]
    rw [mux_setMux]

lemma links_setTail (w : CircuitWorld C P) :
    links w (s.setTail m v) m = { links w s m with tail := v } := by
  refine Links.ext rfl rfl ?_ ?_
  · dsimp only [links, CmuxState.setTail]
    rw [mux_setMux]
  · dsimp only [links, CmuxState.setTail]
    rw [mux_setMux]

/-! ### Walking to the neighbours -/

/-- The pointers of an attached circuit are those for the channel. -/
lemma circuitmuxActiveCircP_eq (hown : AttachedToOwn w s) (hd : dirOn w m c = some d)
    (hmux : (s.ends c d).mux = some m) : circuitmuxActiveCircP w s m c = some d := by
  unfold circuitmuxActiveCircP
  cases d with
  | dirOut => rw [if_pos hmux]
  | dirIn =>
    have hout : (s.ends c .dirOut).mux ≠ some m := by
      intro hout
      have hd' := hown c .dirOut m hout
      rw [hd] at hd'
      cases hd'
    rw [if_neg hout]
    simp [torAssert, (dirOn_eq_some.mp hd).2 rfl, hmux]

def ListAttached (w : CircuitWorld C P) (s : CmuxState C P) (m : ChanId) (l : List C) : Prop :=
  ∀ c ∈ l, (endOn w s m c).mux = some m

/-- An attached circuit uses the channel. -/
lemma exists_dirOn (h : (endOn w s m c).mux = some m) :
    ∃ d, dirOn w m c = some d ∧ (s.ends c d).mux = some m := by
  unfold endOn at h
  cases hd : dirOn w m c with
  | none =>
    rw [hd] at h
    cases h
  | some d =>
    rw [hd] at h
    exact ⟨d, rfl, h⟩

lemma Relinked.listAttached (h : Relinked w m s s') (hl : ListAttached w s m l) :
    ListAttached w s' m l := by
  intro c hc
  rw [h.endOn_mux]
  exact hl c hc

/-- A list is that of a multiplexer, whose circuits are attached to it, and so is a circuit. -/
structure ActiveList (w : CircuitWorld C P) (s : CmuxState C P) (m : ChanId) (l : List C) (c : C)
    (d : CellDirection) : Prop where
  own : AttachedToOwn w s
  listed : ListAttached w s m l
  list : (links w s m).IsList l
  dir : dirOn w m c = some d
  mux : (s.ends c d).mux = some m

lemma ActiveList.congr (h : ActiveList w s m l c d) (hends : s'.ends = s.ends)
    (hlinks : links w s' m = links w s m) : ActiveList w s' m l c d := by
  refine ⟨fun c d m' hmux => ?_, fun c hc => ?_, hlinks ▸ h.list, h.dir, hends ▸ h.mux⟩
  · rw [hends] at hmux
    exact h.own c d m' hmux
  · unfold endOn
    rw [hends]
    exact h.listed c hc

lemma circuitmuxFindMapEntry_congr (hmap : (s'.mux m).chanidCircidMap = (s.mux m).chanidCircidMap) :
    circuitmuxFindMapEntry w s' m c = circuitmuxFindMapEntry w s m c := by
  unfold circuitmuxFindMapEntry
  rw [hmap]

lemma circuitmuxFindMapEntry_setMux
    (hf : (f (s.mux m)).chanidCircidMap = (s.mux m).chanidCircidMap) :
    circuitmuxFindMapEntry w (s.setMux m f) m c = circuitmuxFindMapEntry w s m c := by
  apply circuitmuxFindMapEntry_congr
  rw [mux_setMux, hf]

lemma notifyCirc_eq (hfind : circuitmuxFindMapEntry w s m c = some (some e))
    (h : Relinked w m s s') (callback : CircuitmuxPolicy C → Bool) :
    notifyCirc w s' m c callback = some () := by
  unfold notifyCirc
  rw [circuitmuxFindMapEntry_congr h.map_eq, hfind]
  split
  · rfl
  · rfl

/-- A neighbour that is attached is found. -/
lemma exists_circP (hown : AttachedToOwn w s) {n : Option C}
    (hn : ∀ c', n = some c' → (endOn w s m c').mux = some m) :
    ∃ r, circP w s m n = some r ∧ r.map Prod.fst = n ∧
      ∀ c' d', r = some (c', d') → dirOn w m c' = some d' := by
  unfold circP
  cases n with
  | none => exact ⟨none, rfl, rfl, fun c' d' h => by cases h⟩
  | some c' =>
    obtain ⟨d', hd', hmux⟩ := exists_dirOn (hn c' rfl)
    dsimp only
    rw [circuitmuxActiveCircP_eq hown hd' hmux]
    refine ⟨some (c', d'), rfl, rfl, fun c'' d'' h => ?_⟩
    cases h
    exact hd'

lemma neighbours_attached (hlist : (links w s m).IsList (l₁ ++ c :: l₂))
    (hl : ListAttached w s m (l₁ ++ c :: l₂)) (hd : dirOn w m c = some d) :
    (∀ c', (s.ends c d).nextActive = some c' → (endOn w s m c').mux = some m) ∧
      ∀ c', (s.ends c d).prevActive = some c' → (endOn w s m c').mux = some m := by
  obtain ⟨hnext, hprev⟩ := hlist.neighbours
  rw [nextActive_eq hd, prevActive_eq hd, hnext, hprev]
  constructor
  · intro c' hc'
    exact hl c' (mem_append_right l₁ (mem_cons_of_mem c (mem_of_head? hc')))
  · intro c' hc'
    exact hl c' (mem_append_left _ (mem_of_getLast? hc'))

lemma not_inactive (hlist : (links w s m).IsList l) (hd : dirOn w m c = some d) (hc : c ∈ l) :
    ¬((s.ends c d).prevActive = none ∧ (s.ends c d).nextActive = none ∧
      (s.mux m).activeCircuitsHead ≠ some c ∧ (s.mux m).activeCircuitsTail ≠ some c) := by
  rw [prevActive_eq hd, nextActive_eq hd]
  rintro ⟨hprev, hnext, hhead, htail⟩
  rcases hlist.mem_iff.mp hc with h | h | h | h
  · exact h hprev
  · exact h hnext
  · exact hhead h
  · exact htail h

variable [DecidableEq C]

/-- The fields of circuits after those of one have changed. -/
lemma ends_setEnd (x : CircuitEnd C) (c' : C) (d' : CellDirection) :
    (s.setEnd c d x).ends c' d' = if c' = c ∧ d' = d then x else s.ends c' d' := by
  unfold CmuxState.setEnd
  dsimp only
  by_cases hc : c' = c
  · subst hc
    rw [update_self]
    by_cases hd : d' = d
    · rw [if_pos ⟨rfl, hd⟩, hd, update_self]
    · rw [if_neg fun h => hd h.2, update_of_ne hd]
  · rw [if_neg fun h => hc h.1, update_of_ne hc]

section

variable (h : dirOn w m c = some d)

include h

/-- The fields of circuits on a channel after those of one have changed. -/
lemma endOn_setEnd (x : CircuitEnd C) (c' : C) :
    endOn w (s.setEnd c d x) m c' = if c' = c then x else endOn w s m c' := by
  unfold endOn
  by_cases hc : c' = c
  · subst hc
    rw [if_pos rfl, h]
    dsimp only
    rw [ends_setEnd, if_pos ⟨rfl, rfl⟩]
  · rw [if_neg hc]
    cases dirOn w m c' with
    | none => rfl
    | some d' =>
      dsimp only
      rw [ends_setEnd, if_neg fun h => hc h.1]

lemma elsewhere_setEnd (x : CircuitEnd C) : Elsewhere w m s (s.setEnd c d x) where
  others _ _ := rfl
  ends c' d' hd' := by
    rw [ends_setEnd, if_neg]
    rintro ⟨rfl, rfl⟩
    exact hd' h

/-- Changing the pointers of a circuit. -/
lemma relinked_setEnd {x : CircuitEnd C} (hx : x.mux = (s.ends c d).mux) :
    Relinked w m s (s.setEnd c d x) where
  toElsewhere := elsewhere_setEnd h x
  rest := rfl
  attached c' d' := by
    rw [ends_setEnd]
    split
    · next heq => rw [heq.1, heq.2, hx]
    · rfl

/-- The list after the pointer to the next circuit has changed. -/
lemma links_setNext : links w (s.setNext c d v) m =
      { links w s m with next := update (links w s m).next c v } := by
  refine Links.ext (funext fun c' => ?_) (funext fun c' => ?_) rfl rfl
  · dsimp only [links, CmuxState.setNext]
    rw [endOn_setEnd h, update_apply]
    split
    · rfl
    · rfl
  · dsimp only [links, CmuxState.setNext]
    rw [endOn_setEnd h]
    split
    · next heq => rw [heq, endOn_eq h]
    · rfl

/-- The list after the pointer to the previous circuit has changed. -/
lemma links_setPrev : links w (s.setPrev c d v) m =
      { links w s m with prev := update (links w s m).prev c v } := by
  refine Links.ext (funext fun c' => ?_) (funext fun c' => ?_) rfl rfl
  · dsimp only [links, CmuxState.setPrev]
    rw [endOn_setEnd h]
    split
    · next heq => rw [heq, endOn_eq h]
    · rfl
  · dsimp only [links, CmuxState.setPrev]
    rw [endOn_setEnd h, update_apply]
    split
    · rfl
    · rfl

lemma relinked_setNext : Relinked w m s (s.setNext c d v) :=
  relinked_setEnd h rfl

lemma relinked_setPrev : Relinked w m s (s.setPrev c d v) :=
  relinked_setEnd h rfl

end

/-! ### The operations on the list -/

/-- Unlinking a circuit from the next one, or from the tail. -/
lemma writeNextPrev_eq {r : Option (C × CellDirection)} (hd : dirOn w m c = some d)
    (hr : r.map Prod.fst = (s.ends c d).nextActive)
    (hdir : ∀ c' d', r = some (c', d') → dirOn w m c' = some d') :
    Relinked w m s (writeNextPrev s m r (s.ends c d).prevActive) ∧
      links w (writeNextPrev s m r (s.ends c d).prevActive) m = (links w s m).unlinkNext c := by
  rw [nextActive_eq hd] at hr
  rw [prevActive_eq hd]
  unfold writeNextPrev Links.unlinkNext
  rw [← hr]
  cases r with
  | none => exact ⟨relinked_setMux w rfl, links_setTail w⟩
  | some p => exact ⟨relinked_setPrev (hdir p.1 p.2 rfl), links_setPrev (hdir p.1 p.2 rfl)⟩

/-- Unlinking a circuit from the previous one, or from the head. -/
lemma writePrevNext_eq {r : Option (C × CellDirection)} (hd : dirOn w m c = some d)
    (hr : r.map Prod.fst = (s.ends c d).prevActive)
    (hdir : ∀ c' d', r = some (c', d') → dirOn w m c' = some d') :
    Relinked w m s (writePrevNext s m r (s.ends c d).nextActive) ∧
      links w (writePrevNext s m r (s.ends c d).nextActive) m = (links w s m).unlinkPrev c := by
  rw [prevActive_eq hd] at hr
  rw [nextActive_eq hd]
  unfold writePrevNext Links.unlinkPrev
  rw [← hr]
  cases r with
  | none => exact ⟨relinked_setMux w rfl, links_setHead w⟩
  | some p => exact ⟨relinked_setNext (hdir p.1 p.2 rfl), links_setNext (hdir p.1 p.2 rfl)⟩

variable {e : MuxEntry} {l l₁ l₂ : List C}

lemma some_bind {α β : Type} {x : Option α} {a : α} (h : x = some a) (f : α → Option β) :
    (x >>= f) = f a := by
  rw [h]
  rfl

lemma torAssert_bind {α : Type} {p : Prop} [Decidable p] (h : p) (f : Unit → Option α) :
    (torAssert p >>= f) = f () := by
  unfold torAssert
  rw [if_pos h]
  rfl

/-- **A circuit becomes active: it is put in front of the list.** -/
theorem circuitmuxMakeCircuitActive_eq (h : ActiveList w s m l c d) (hc : c ∉ l)
    (hfind : circuitmuxFindMapEntry w s m c = some (some e)) :
    ∃ s', circuitmuxMakeCircuitActive w s m c d = some s' ∧ Relinked w m s s' ∧
      (links w s' m).IsList (c :: l) := by
  obtain ⟨hown, hl, hlist, hd, hmux⟩ := h
  suffices hpush : ∃ s', circuitmuxMakeCircuitActive w s m c d = some s' ∧ Relinked w m s s' ∧
      links w s' m = (links w s m).pushFront c by
    obtain ⟨s', hs', hre, hlinks⟩ := hpush
    exact ⟨s', hs', hre, hlinks ▸ hlist.pushFront hc⟩
  obtain ⟨hchan, hor⟩ := dirOn_eq_some.mp hd
  obtain ⟨hnext, hprev⟩ := hlist.outside c hc
  obtain ⟨hhead, htail⟩ := hlist.ne_ends hc
  have hinactive : ¬((s.ends c d).prevActive ≠ none ∨ (s.ends c d).nextActive ≠ none ∨
      (s.mux m).activeCircuitsHead = some c ∨ (s.mux m).activeCircuitsTail = some c) := by
    rw [prevActive_eq hd, nextActive_eq hd]
    rintro (h | h | h | h)
    · exact h hprev
    · exact h hnext
    · exact hhead h
    · exact htail h
  unfold circuitmuxMakeCircuitActive
  rw [torAssert_bind hor, torAssert_bind hmux, torAssert_bind (by rw [hchan]; exact some_ne_none m),
    if_neg hinactive]
  dsimp only
  -- the pointers of the circuit itself
  have hs₁ : Relinked w m s ((s.setNext c d (s.mux m).activeCircuitsHead).setPrev c d none) :=
    (relinked_setNext hd).trans (relinked_setPrev hd)
  have hlinks₁ : links w ((s.setNext c d (s.mux m).activeCircuitsHead).setPrev c d none) m =
      { links w s m with
        next := update (links w s m).next c (links w s m).head
        prev := update (links w s m).prev c none } := by
    rw [links_setPrev hd, links_setNext hd]
    rfl
  rw [show (((s.setNext c d (s.mux m).activeCircuitsHead).setPrev c d none).mux
    m).activeCircuitsHead =
    (links w s m).head from rfl]
  generalize (s.setNext c d (s.mux m).activeCircuitsHead).setPrev c d none = s₁ at hs₁ hlinks₁ ⊢
  unfold Links.pushFront
  cases hh : (links w s m).head with
  | none =>
    have hs₂ : Relinked w m s ((s₁.setTail m (some c)).setHead m (some c)) :=
      hs₁.trans ((relinked_setMux w rfl).trans (relinked_setMux w rfl))
    refine ⟨_, ?_, hs₂, ?_⟩
    · dsimp only
      rw [notifyCirc_eq hfind hs₂]
      rfl
    · rw [links_setHead, links_setTail, hlinks₁, hh]
  | some h =>
    have hmem : h ∈ l := hlist.mem_iff.mpr (.inr (.inr (.inl hh)))
    obtain ⟨d', hd', hmux'⟩ := exists_dirOn (hs₁.listAttached hl h hmem)
    have hs₂ : Relinked w m s ((s₁.setPrev h d' (some c)).setHead m (some c)) :=
      hs₁.trans ((relinked_setPrev hd').trans (relinked_setMux w rfl))
    refine ⟨_, ?_, hs₂, ?_⟩
    · dsimp only
      rw [circuitmuxActiveCircP_eq (hs₁.attachedToOwn hown) hd' hmux', bind_eq_bind,
        bind_some]
      rw [notifyCirc_eq hfind hs₂]
      rfl
    · rw [links_setHead, links_setPrev hd', hlinks₁, hh]

/-- **A circuit becomes inactive: it is taken out of the list.** -/
theorem circuitmuxMakeCircuitInactive_eq (h : ActiveList w s m (l₁ ++ c :: l₂) c d)
    (hfind : circuitmuxFindMapEntry w s m c = some (some e)) :
    ∃ s', circuitmuxMakeCircuitInactive w s m c d = some s' ∧ Relinked w m s s' ∧
      (links w s' m).IsList (l₁ ++ l₂) := by
  obtain ⟨hown, hl, hlist, hd, hmux⟩ := h
  obtain ⟨hchan, hor⟩ := dirOn_eq_some.mp hd
  have hc : c ∈ l₁ ++ c :: l₂ := mem_append_right l₁ mem_cons_self
  obtain ⟨hnext, hprev⟩ := neighbours_attached hlist hl hd
  obtain ⟨nextPrev, hnp, hnp₁, hnp₂⟩ := exists_circP hown hnext
  obtain ⟨prevNext, hpn, hpn₁, hpn₂⟩ := exists_circP hown hprev
  obtain ⟨hs₁, hlinks₁⟩ := writeNextPrev_eq hd hnp₁ hnp₂
  have hself : (links w (writeNextPrev s m nextPrev (s.ends c d).prevActive) m).prev c =
      (links w s m).prev c := by
    rw [hlinks₁]
    exact (Links.unlinkNext_prev hlist.ne_self.1).2
  unfold circuitmuxMakeCircuitInactive
  rw [torAssert_bind hor, torAssert_bind hmux, torAssert_bind (by rw [hchan]; exact some_ne_none m),
    if_neg (not_inactive hlist hd hc), hnp, hpn]
  rw [bind_eq_bind, bind_some, bind_some]
  dsimp only
  generalize writeNextPrev s m nextPrev (s.ends c d).prevActive = s₁ at hs₁ hlinks₁ hself ⊢
  rw [← prevActive_eq hd, ← prevActive_eq hd] at hself
  rw [← hself] at hpn₁
  obtain ⟨hs₂, hlinks₂⟩ := writePrevNext_eq hd hpn₁ hpn₂
  generalize writePrevNext s₁ m prevNext (s₁.ends c d).nextActive = s₂ at hs₂ hlinks₂ ⊢
  have hs₃ : Relinked w m s ((s₂.setPrev c d none).setNext c d none) :=
    hs₁.trans (hs₂.trans ((relinked_setPrev hd).trans (relinked_setNext hd)))
  refine ⟨_, ?_, hs₃, ?_⟩
  · rw [notifyCirc_eq hfind hs₃]
    rfl
  · rw [links_setNext hd, links_setPrev hd, hlinks₂, hlinks₁]
    exact hlist.remove

/-- **A circuit in the list is moved to the tail.** -/
theorem circuitmuxMoveActiveCircToTail_eq (h : ActiveList w s m (l₁ ++ c :: l₂) c d) :
    ∃ s', circuitmuxMoveActiveCircToTail w s m c d = some s' ∧ Relinked w m s s' ∧
      (links w s' m).IsList (l₁ ++ l₂ ++ [c]) := by
  obtain ⟨hown, hl, hlist, hd, hmux⟩ := h
  obtain ⟨hchan, hor⟩ := dirOn_eq_some.mp hd
  have hc : c ∈ l₁ ++ c :: l₂ := mem_append_right l₁ mem_cons_self
  have hnot : c ∉ l₁ ++ l₂ := (nodup_middle.mp hlist.nodup |> nodup_cons.mp).1
  have hactive : ¬((s.ends c d).nextActive = none ∧ (s.ends c d).prevActive = none ∧
      ¬((s.mux m).activeCircuitsHead = some c ∨ (s.mux m).activeCircuitsTail = some c)) := by
    rintro ⟨hnext, hprev, hends⟩
    rw [not_or] at hends
    exact not_inactive hlist hd hc ⟨hprev, hnext, hends⟩
  unfold circuitmuxMoveActiveCircToTail
  rw [torAssert_bind hor, torAssert_bind hmux, if_neg hactive]
  by_cases htail : (s.mux m).activeCircuitsTail = some c
  · -- it is the tail already
    rw [if_pos htail]
    refine ⟨s, rfl, Relinked.refl w m s, ?_⟩
    have hnil := hlist.eq_nil_of_tail htail
    rw [hnil] at hlist ⊢
    rw [append_nil]
    exact hlist
  · rw [if_neg htail]
    obtain ⟨hnext, hprev⟩ := neighbours_attached hlist hl hd
    obtain ⟨nextPrev, hnp, hnp₁, hnp₂⟩ := exists_circP hown hnext
    obtain ⟨prevNext, hpn, hpn₁, hpn₂⟩ := exists_circP hown hprev
    obtain ⟨hs₁, hlinks₁⟩ := writePrevNext_eq hd hpn₁ hpn₂
    have hself : (links w (writePrevNext s m prevNext (s.ends c d).nextActive) m).next c =
        (links w s m).next c := by
      rw [hlinks₁]
      exact (Links.unlinkPrev_next hlist.ne_self.2).2
    have hsome : nextPrev.isSome = true := by
      rw [← isSome_map (f := Prod.fst), hnp₁, nextActive_eq hd, isSome_iff_ne_none]
      exact (hlist.next_or_tail hc).resolve_right htail
    rw [hnp, hpn]
    rw [bind_eq_bind, bind_some, bind_some]
    dsimp only
    rw [if_pos hsome]
    generalize writePrevNext s m prevNext (s.ends c d).nextActive = s₁ at hs₁ hlinks₁ hself ⊢
    rw [← nextActive_eq hd, ← nextActive_eq hd] at hself
    rw [← hself] at hnp₁
    obtain ⟨hs₂, hlinks₂⟩ := writeNextPrev_eq hd hnp₁ hnp₂
    generalize writeNextPrev s₁ m nextPrev (s₁.ends c d).prevActive = s₂ at hs₂ hlinks₂ ⊢
    rw [hlinks₁] at hlinks₂
    have hlist' := hlist.remove.pushBack hnot
    rw [← Links.pushBack_unlink hlist.ne_self.1 hlist.ne_self.2, ← hlinks₂] at hlist'
    -- the tail is another circuit
    have hs₃ : Relinked w m s ((s₂.setNext c d none).setPrev c d (s₂.mux m).activeCircuitsTail) :=
      hs₁.trans (hs₂.trans ((relinked_setNext hd).trans (relinked_setPrev hd)))
    have hlinks₃ : links w ((s₂.setNext c d none).setPrev c d (s₂.mux m).activeCircuitsTail) m =
        { links w s₂ m with
          next := update (links w s₂ m).next c none
          prev := update (links w s₂ m).prev c (links w s₂ m).tail } := by
      rw [links_setPrev hd, links_setNext hd]
      rfl
    have htail₂ : (links w s₂ m).tail = (links w s m).tail := by
      rw [hlinks₂]
      refine Links.unlink_tail hlist.ne_self.2 ?_
      exact (hlist.next_or_tail hc).resolve_right htail
    have hsome' : (links w s m).tail ≠ none := by
      intro hnone
      rw [hlist.ends.2, getLast?_eq_none_iff] at hnone
      exact append_ne_nil_of_right_ne_nil l₁ (cons_ne_nil c l₂) hnone
    obtain ⟨t, ht⟩ := ne_none_iff_exists'.mp hsome'
    have hmem : t ∈ l₁ ++ c :: l₂ := hlist.mem_iff.mpr (.inr (.inr (.inr ht)))
    obtain ⟨d', hd', hmux'⟩ := exists_dirOn (hs₃.listAttached hl t hmem)
    have hown' := circuitmuxActiveCircP_eq (hs₃.attachedToOwn hown) hd' hmux'
    unfold Links.pushBack at hlist'
    rw [htail₂, ht] at hlist'
    rw [htail₂, ht] at hlinks₃
    have htail₃ : (s₂.mux m).activeCircuitsTail = some t := htail₂.trans ht
    rw [htail₃] at hs₃ hlinks₃ hown'
    generalize hs : (s₂.setNext c d none).setPrev c d (some t) = s₃ at hs₃ hlinks₃ hown'
    have hs₄ : Relinked w m s ((s₃.setNext t d' (some c)).setTail m (some c)) :=
      hs₃.trans ((relinked_setNext hd').trans (relinked_setMux w rfl))
    refine ⟨_, ?_, hs₄, ?_⟩
    · rw [show ((s₂.setNext c d none).mux m).activeCircuitsTail = some t from htail₃, hs,
        show (s₃.mux m).activeCircuitsTail = some t from (congrArg Links.tail hlinks₃).trans htail₃]
      dsimp only
      rw [hown']
      rfl
    · rw [links_setTail, links_setNext hd', hlinks₃]
      exact hlist'

/-- The active circuit counter after the number of cells of a circuit has changed. -/
def activeAfter (nActiveCircuits oldCells newCells : UInt32) : UInt32 :=
  nActiveCircuits - (if 0 < oldCells then 1 else 0) + if 0 < newCells then 1 else 0

/-- **The number of cells of a circuit changes:** the list has it if there are cells. -/
theorem circuitmuxUpdateActive_eq (h : ActiveList w s m l c d)
    (hfind : circuitmuxFindMapEntry w s m c = some (some e)) {oldCells : UInt32}
    (hold : c ∈ l ↔ 0 < oldCells) (newCells : UInt32) :
    ∃ s', circuitmuxUpdateActive w s m c d oldCells newCells = some s' ∧
      Relinked w m (s.setMux m fun x =>
        { x with nActiveCircuits := activeAfter x.nActiveCircuits oldCells newCells }) s' ∧
      (links w s' m).IsList (RoundRobin.setWaiting l c (0 < newCells)) := by
  have hpos : ∀ n : UInt32, n = 0 ↔ ¬0 < n := fun n => by
    rw [UInt32.pos_iff_ne_zero, not_not]
  -- the counter does not matter for the list
  have hactive (f : UInt32 → UInt32) : ActiveList w
      (s.setMux m fun x => { x with nActiveCircuits := f x.nActiveCircuits }) m l c d :=
    h.congr rfl (links_setMux w rfl rfl)
  have hfound (f : UInt32 → UInt32) : circuitmuxFindMapEntry w
      (s.setMux m fun x => { x with nActiveCircuits := f x.nActiveCircuits }) m c = some (some e) :=
    (circuitmuxFindMapEntry_setMux rfl).trans hfind
  unfold circuitmuxUpdateActive
  by_cases ho : 0 < oldCells
  · by_cases hn : 0 < newCells
    · -- it had cells and has cells
      rw [if_neg fun hand => (hpos _).mp hand.2 hn, if_neg fun hand => (hpos _).mp hand.1 ho]
      refine ⟨s, rfl, ?_, ?_⟩
      · rw [setMux_eq_self]
        · exact Relinked.refl w m s
        · unfold activeAfter
          rw [if_pos ho, if_pos hn, UInt32.sub_add_cancel]
      · rw [RoundRobin.setWaiting, if_pos hn, if_pos (hold.mpr ho)]
        exact h.list
    · -- it has no more cells
      obtain ⟨l₁, l₂, rfl⟩ := append_of_mem (hold.mpr ho)
      rw [if_pos ⟨ho, (hpos _).mpr hn⟩]
      have hf : (fun x : Circuitmux C P =>
          { x with nActiveCircuits := activeAfter x.nActiveCircuits oldCells newCells }) =
          fun x => { x with nActiveCircuits := x.nActiveCircuits - 1 } := by
        funext x
        unfold activeAfter
        rw [if_pos ho, if_neg hn, UInt32.add_zero]
      obtain ⟨s', hs', hre, hlist'⟩ :=
        circuitmuxMakeCircuitInactive_eq (hactive (· - 1)) (hfound (· - 1))
      refine ⟨s', hs', hf ▸ hre, ?_⟩
      rw [RoundRobin.setWaiting, if_neg hn, RoundRobin.erase_middle h.list.nodup]
      exact hlist'
  · by_cases hn : 0 < newCells
    · -- it has cells now
      have hc : c ∉ l := fun hc => ho (hold.mp hc)
      rw [if_neg fun hand => ho hand.1, if_pos ⟨(hpos _).mpr ho, hn⟩]
      have hf : (fun x : Circuitmux C P =>
          { x with nActiveCircuits := activeAfter x.nActiveCircuits oldCells newCells }) =
          fun x => { x with nActiveCircuits := x.nActiveCircuits + 1 } := by
        funext x
        unfold activeAfter
        rw [if_neg ho, if_pos hn, UInt32.sub_zero]
      obtain ⟨s', hs', hre, hlist'⟩ :=
        circuitmuxMakeCircuitActive_eq (hactive (· + 1)) hc (hfound (· + 1))
      refine ⟨s', hs', hf ▸ hre, ?_⟩
      rw [RoundRobin.setWaiting, if_pos hn, if_neg hc]
      exact hlist'
    · -- it has no cells and had none
      rw [if_neg fun hand => ho hand.1, if_neg fun hand => hn hand.2]
      refine ⟨s, rfl, ?_, ?_⟩
      · rw [setMux_eq_self]
        · exact Relinked.refl w m s
        · unfold activeAfter
          rw [if_neg ho, if_neg hn, UInt32.sub_zero, UInt32.add_zero]
      · rw [RoundRobin.setWaiting, if_neg hn, erase_of_not_mem fun hc => ho (hold.mp hc)]
        exact h.list

end Astoria
