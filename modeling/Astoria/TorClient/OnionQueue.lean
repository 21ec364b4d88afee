import Astoria.Library.Runs
import Astoria.TorClient.Nodelist
import Astoria.TorClient.OnionCells

/-!
# The queues of onionskins

A relay puts the circuits that wait for a reply to their onionskin into queues, one for every kind
of handshake.  An entry is in a list (`olList`), it is counted (`olEntries`), and its circuit points
to it (`onionqueueEntry`).  Entries leave a queue when they are handed out (`onionNextTask`), when
they are removed (`onionPendingRemove`), when they are too old at the time another one is added, and
when all queues are cleared.  A counter that is kept from call to call balances the two kinds of
handshakes.

Entries are allocated one after another; the number of an allocation stands for its address.  A call
that dereferences a null pointer or fails an assertion yields `none`.
-/

namespace Astoria

open List Option
open Function

/-! ### The state -/

/-- The last kind of handshake. -/
def maxOnionHandshakeType : UInt16 := 2

/-- The time after which an entry is too old. -/
def onionqueueWaitCutoff : ℤ := 5

structure OnionQueueEntry (C : Type*) where
  address : ℕ
  circ : C
  handshakeType : UInt16
  /-- The onionskin, until it is handed out. -/
  onionskin : Option CreateCell
  /-- The time at which the entry was added. -/
  whenAdded : ℤ

/-- The queues, and what is kept for them. -/
structure OnionQueues (C : Type*) where
  /-- The queue of every kind of handshake. -/
  olList : UInt16 → List (OnionQueueEntry C)
  /-- The number of entries in every queue. -/
  olEntries : UInt16 → ℤ
  /-- The entry of every circuit. -/
  onionqueueEntry : C → Option (OnionQueueEntry C)
  /-- How often one kind of handshake was preferred. -/
  recentlyChosenNtors : ℤ
  /-- The number of entries allocated so far. -/
  allocated : ℕ

def OnionQueues.empty (C : Type*) : OnionQueues C := ⟨fun _ => [], fun _ => 0, fun _ => none, 0, 0⟩

/-- What a call reads from the options, the consensus and the statistics of the workers. -/
structure OnionLoad where
  /-- The number of processors. -/
  numCpus : UInt64
  /-- The longest delay, in milliseconds. -/
  maxOnionQueueDelay : UInt64
  /-- The number of handshakes of every kind that were measured. -/
  onionskinsNProcessed : UInt16 → UInt64
  /-- The time they took, in microseconds. -/
  onionskinsUsecInternal : UInt16 → UInt64
  /-- The parameter in the consensus for the balance between the kinds. -/
  numNTorsPerTAP : Option ℤ

/-! ### Room in the queues -/

/-- How many handshakes of one kind there are for one of the other. -/
def numNtorsPerTap (load : OnionLoad) : ℤ := networkstatusGetParam load.numNTorsPerTAP 10 1 100000

/-- The time that a number of handshakes takes. -/
def estimatedUsecForOnionskins (load : OnionLoad) (nRequests : UInt32) (onionskinType : UInt16) :
    UInt64 :=
  if maxOnionHandshakeType < onionskinType then 1000 * nRequests.toUInt64
  else if load.onionskinsNProcessed onionskinType < 100 then 1000 * nRequests.toUInt64
  else
    load.onionskinsUsecInternal onionskinType * nRequests.toUInt64 /
      load.onionskinsNProcessed onionskinType

section Queues

variable {C : Type*}

/-- Whether there is room for another entry. -/
def haveRoomForOnionskin (load : OnionLoad) (s : OnionQueues C) (type : UInt16) : Bool :=
  if s.olEntries type < 50 then true
  else
    let taps := s.olEntries handshakeTypeTap
    let ntors := s.olEntries handshakeTypeNtor
    let usec := fun (n : ℤ) t =>
      estimatedUsecForOnionskins load (UInt32.ofInt n) t / load.numCpus
    let tapUsec := usec taps handshakeTypeTap
    let ntorUsec := usec ntors handshakeTypeNtor
    let tapDuringNtorUsec := usec (min taps (ntors.tdiv (numNtorsPerTap load))) handshakeTypeTap
    let ntorDuringTapUsec := usec (min ntors (taps * numNtorsPerTap load)) handshakeTypeNtor
    if type = handshakeTypeNtor ∧
      load.maxOnionQueueDelay < (ntorUsec + tapDuringNtorUsec) / 1000 then
      false
    else if type = handshakeTypeTap ∧
        load.maxOnionQueueDelay < (tapUsec + ntorDuringTapUsec) / 1000 then
      false
    else if type = handshakeTypeTap ∧ load.maxOnionQueueDelay * 2 / 3 < tapUsec / 1000 then false
    else true

/-! ### The calls -/

variable [DecidableEq C]

def onionQueueEntryRemove (victim : OnionQueueEntry C) (s : OnionQueues C) : OnionQueues C :=
  if maxOnionHandshakeType < victim.handshakeType then s
  else
    { s with
      olList := update s.olList victim.handshakeType
        ((s.olList victim.handshakeType).filter fun e => e.address ≠ victim.address)
      onionqueueEntry := update s.onionqueueEntry victim.circ none
      olEntries :=
        if victim.onionskin.isSome then
          update s.olEntries victim.handshakeType (s.olEntries victim.handshakeType - 1)
        else s.olEntries }

/-- Remove entries from the head of a queue that are too old; their circuits are closed. -/
def cullElderly (now : ℤ) (type : UInt16) : ℕ → OnionQueues C → Option (OnionQueues C × List C)
  | 0, _ => none
  | n + 1, s =>
    match s.olList type with
    | [] => none
    | head :: _ =>
      if now - head.whenAdded < onionqueueWaitCutoff then some (s, [])
      else
        (cullElderly now type n (onionQueueEntryRemove head
          { s with onionqueueEntry := update s.onionqueueEntry head.circ none })).map
            fun r => (r.1, head.circ :: r.2)

/-- Add a circuit to the queue for its onionskin.  The value and the circuits that are closed are
returned. -/
def onionPendingAdd (load : OnionLoad) (now : ℤ) (circ : C) (onionskin : CreateCell)
    (s : OnionQueues C) : Option (OnionQueues C × ℤ × List C) :=
  let type := onionskin.handshakeType
  if maxOnionHandshakeType < type then some (s, -1, [])
  else
    let tmp : OnionQueueEntry C := ⟨s.allocated, circ, type, some onionskin, now⟩
    let s := { s with allocated := s.allocated + 1 }
    if ¬ haveRoomForOnionskin load s type then some (s, -1, [])
    else
      let s := { s with
        olEntries := update s.olEntries type (s.olEntries type + 1)
        onionqueueEntry := update s.onionqueueEntry circ (some tmp)
        olList := update s.olList type (s.olList type ++ [tmp]) }
      (cullElderly now type (s.olList type).length s).map fun r => (r.1, 0, r.2)

/-- Choose the queue for the next task: the kind of handshake, and the counter. -/
def decideNextHandshakeType (load : OnionLoad) (s : OnionQueues C) : UInt16 × ℤ :=
  let recent := s.recentlyChosenNtors
  if s.olEntries handshakeTypeNtor = 0 then (handshakeTypeTap, recent)
  else if s.olEntries handshakeTypeTap = 0 then
    (handshakeTypeNtor, if recent ≤ numNtorsPerTap load then recent + 1 else recent)
  else if recent + 1 ≤ numNtorsPerTap load then (handshakeTypeNtor, recent + 1)
  else (handshakeTypeTap, 0)

/-- Take the next task: the circuit and its onionskin. -/
def onionNextTask (load : OnionLoad) (s : OnionQueues C) :
    Option (OnionQueues C × Option (C × Option CreateCell)) :=
  let choice := decideNextHandshakeType load s
  let s := { s with recentlyChosenNtors := choice.2 }
  match s.olList choice.1 with
  | [] => some (s, none)
  | head :: _ =>
    if maxOnionHandshakeType < head.handshakeType then none
    else
      let s := { s with
        olEntries :=
          if head.onionskin.isSome then
            update s.olEntries head.handshakeType (s.olEntries head.handshakeType - 1)
          else s.olEntries
        onionqueueEntry := update s.onionqueueEntry head.circ none }
      some (onionQueueEntryRemove { head with onionskin := none } s,
        some (head.circ, head.onionskin))

/-- Remove a circuit from its queue. -/
def onionPendingRemove (circ : Option C) (s : OnionQueues C) : OnionQueues C :=
  match circ with
  | none => s
  | some circ =>
    match s.onionqueueEntry circ with
    | none => s
    | some victim => onionQueueEntryRemove victim s

/-- Remove all entries of a queue. -/
def clearOnions (s : OnionQueues C) (type : UInt16) : Option (OnionQueues C) :=
  let s := (s.olList type).foldl (fun s victim => onionQueueEntryRemove victim s) s
  if (s.olList type).isEmpty then some s else none

/-- Remove all entries. -/
def clearPendingOnions (s : OnionQueues C) : Option (OnionQueues C) :=
  ([0, 1, 2].foldlM clearOnions s).map fun s => { s with olEntries := fun _ => 0 }

inductive OnionCall (C : Type*)
  | pendingAdd (load : OnionLoad) (now : ℤ) (circ : C) (onionskin : CreateCell)
  /-- Take the next task. -/
  | nextTask (load : OnionLoad)
  | pendingRemove (circ : Option C)
  /-- Remove all circuits. -/
  | clearPending

/-- One call, with the task that it hands out. -/
def onionCall (s : OnionQueues C) :
    OnionCall C → Option (OnionQueues C × Option (C × Option CreateCell))
  | .pendingAdd load now circ onionskin =>
    (onionPendingAdd load now circ onionskin s).map fun r => (r.1, none)
  | .nextTask load => onionNextTask load s
  | .pendingRemove circ => some (onionPendingRemove circ s, none)
  | .clearPending => (clearPendingOnions s).map fun s => (s, none)

/-- Calls, one after another, with the tasks that they hand out. -/
def onionCalls : OnionQueues C → List (OnionCall C) →
    Option (OnionQueues C × List (C × Option CreateCell))
  | s, [] => some (s, [])
  | s, call :: calls =>
    (onionCall s call).bind fun r =>
      (onionCalls r.1 calls).map fun r' => (r'.1, r.2.toList ++ r'.2)

end Queues

/-! ### What holds between calls -/

section Order

variable {C : Type*} {s : OnionQueues C} {e : OnionQueueEntry C} {t : UInt16}

/-- The queues, their counters and the pointers of the circuits agree. -/
structure OnionQueues.Ok (s : OnionQueues C) : Prop where
  olEntries_eq : ∀ t ≤ maxOnionHandshakeType, s.olEntries t = (s.olList t).length
  kind : ∀ t, ∀ e ∈ s.olList t, t ≤ maxOnionHandshakeType ∧ e.handshakeType = t ∧
    ∃ onionskin, e.onionskin = some onionskin ∧ onionskin.handshakeType = t
  /-- Every queue is in the order of arrival. -/
  sorted : ∀ t, (s.olList t).Pairwise fun e e' => e.address < e'.address
  /-- New entries come later. -/
  fresh : ∀ t, ∀ e ∈ s.olList t, e.address < s.allocated
  pointer : ∀ t, ∀ e ∈ s.olList t, s.onionqueueEntry e.circ = some e
  target : ∀ c e, s.onionqueueEntry c = some e → e ∈ s.olList e.handshakeType ∧ e.circ = c
  /-- The counter counts upwards. -/
  recent_nonneg : 0 ≤ s.recentlyChosenNtors

lemma OnionQueues.ok_empty : (OnionQueues.empty C).Ok where
  olEntries_eq _ _ := rfl
  kind _ _ he := absurd he not_mem_nil
  sorted _ := List.Pairwise.nil
  fresh _ _ he := absurd he not_mem_nil
  pointer _ _ he := absurd he not_mem_nil
  target _ _ he := absurd he (by simp [OnionQueues.empty])
  recent_nonneg := Int.le_refl 0

lemma OnionQueues.Ok.address_ne (h : s.Ok) {l l' : List (OnionQueueEntry C)}
    (hlist : s.olList t = l ++ e :: l') :
    ∀ e' ∈ l ++ l', e'.address ≠ e.address := by
  have hsorted := h.sorted t
  rw [hlist] at hsorted
  obtain ⟨-, htail, hhead⟩ := pairwise_append.mp hsorted
  intro e' he'
  rcases mem_append.mp he' with he' | he'
  · have := hhead e' he' e mem_cons_self
    omega
  · have := rel_of_pairwise_cons htail he'
    omega

lemma OnionQueues.Ok.circ_ne (h : s.Ok) {l l' : List (OnionQueueEntry C)}
    (hlist : s.olList t = l ++ e :: l') :
    ∀ e' ∈ l ++ l', e'.circ ≠ e.circ := by
  intro e' he' heq
  have hmem' : e' ∈ s.olList t := by
    rw [hlist]
    rcases mem_append.mp he' with he' | he'
    · exact mem_append_left _ he'
    · exact mem_append_right _ (mem_cons_of_mem e he')
  have hmem : e ∈ s.olList t := by
    rw [hlist]
    exact mem_append_right _ mem_cons_self
  have hpointer := h.pointer t e' hmem'
  rw [heq, h.pointer t e hmem] at hpointer
  exact h.address_ne hlist e' he' (by rw [some.inj hpointer])

lemma OnionQueues.Ok.filter_address (h : s.Ok) {l l' : List (OnionQueueEntry C)}
    (hlist : s.olList t = l ++ e :: l') :
    (s.olList t).filter (fun e' => e'.address ≠ e.address) = l ++ l' := by
  have hother := h.address_ne hlist
  rw [hlist, filter_append, filter_cons_of_neg (by simp), ← filter_append]
  exact filter_eq_self.mpr fun e' he' => decide_eq_true (hother e' he')

lemma OnionQueues.Ok.withRecent (h : s.Ok) {recent : ℤ} (hrecent : 0 ≤ recent) :
    OnionQueues.Ok { s with recentlyChosenNtors := recent } :=
  ⟨h.olEntries_eq, h.kind, h.sorted, h.fresh, h.pointer, h.target, hrecent⟩

/-- The counter does not become negative. -/
lemma decideNextHandshakeType_nonneg (h : s.Ok) (load : OnionLoad) :
    0 ≤ (decideNextHandshakeType load s).2 := by
  have hrecent := h.recent_nonneg
  unfold decideNextHandshakeType
  dsimp only
  split_ifs
  · exact hrecent
  · dsimp only
    omega
  · exact hrecent
  · dsimp only
    omega
  · exact Int.le_refl 0

variable [DecidableEq C]

def OnionQueues.without (s : OnionQueues C) (e : OnionQueueEntry C) (t : UInt16)
    (l : List (OnionQueueEntry C)) : OnionQueues C :=
  { s with
    olList := update s.olList t l
    onionqueueEntry := update s.onionqueueEntry e.circ none
    olEntries := update s.olEntries t (s.olEntries t - 1) }

lemma OnionQueues.Ok.remove_eq (h : s.Ok) {l l' : List (OnionQueueEntry C)}
    (hlist : s.olList t = l ++ e :: l') :
    onionQueueEntryRemove e s = s.without e t (l ++ l') := by
  have hmem : e ∈ s.olList t := by
    rw [hlist]
    exact mem_append_right _ mem_cons_self
  obtain ⟨htype, hkind, onionskin, hskin, -⟩ := h.kind t e hmem
  unfold onionQueueEntryRemove OnionQueues.without
  rw [if_neg (by rw [hkind]; exact UInt16.not_lt.mpr htype), hkind, h.filter_address hlist, hskin,
    isSome_some, if_pos rfl]

/-- **Removing an entry** keeps the queues in order. -/
lemma OnionQueues.Ok.without (h : s.Ok) {l l' : List (OnionQueueEntry C)}
    (hlist : s.olList t = l ++ e :: l') :
    (s.without e t (l ++ l')).Ok := by
  have hmem : e ∈ s.olList t := by
    rw [hlist]
    exact mem_append_right _ mem_cons_self
  -- the entries that are left have been there before, and other circuits
  have hsub : (l ++ l').Sublist (s.olList t) := by
    rw [hlist]
    exact Sublist.append_left (sublist_cons_self e l') l
  have hold : ∀ t' e', e' ∈ update s.olList t (l ++ l') t' →
      e' ∈ s.olList t' ∧ e'.circ ≠ e.circ := by
    intro t' e' he'
    by_cases ht : t' = t
    · rw [ht, update_self] at he'
      rw [ht]
      exact ⟨hsub.subset he', h.circ_ne hlist e' he'⟩
    · rw [update_of_ne ht] at he'
      refine ⟨he', fun heq => ht ?_⟩
      have hpointer := h.pointer t' e' he'
      rw [heq, h.pointer t e hmem] at hpointer
      rw [← (h.kind t' e' he').2.1, ← some.inj hpointer, (h.kind t e hmem).2.1]
  refine ⟨fun t' ht' => ?_, fun t' e' he' => h.kind t' e' (hold t' e' he').1, fun t' => ?_,
    fun t' e' he' => h.fresh t' e' (hold t' e' he').1, fun t' e' he' => ?_, fun c e' he' => ?_,
    h.recent_nonneg⟩
  · have hlen := h.olEntries_eq t' ht'
    dsimp only [OnionQueues.without]
    by_cases ht : t' = t
    · rw [ht, update_self, update_self]
      rw [ht, hlist, length_append, length_cons] at hlen
      rw [length_append]
      omega
    · rw [update_of_ne ht, update_of_ne ht, hlen]
  · dsimp only [OnionQueues.without]
    by_cases ht : t' = t
    · rw [ht, update_self]
      exact (h.sorted t).sublist hsub
    · rw [update_of_ne ht]
      exact h.sorted t'
  · obtain ⟨hmem', hne⟩ := hold t' e' he'
    dsimp only [OnionQueues.without]
    rw [update_of_ne hne]
    exact h.pointer t' e' hmem'
  · dsimp only [OnionQueues.without] at he' ⊢
    have hne : c ≠ e.circ := by
      rintro rfl
      rw [update_self] at he'
      exact absurd he' (by simp)
    rw [update_of_ne hne] at he'
    obtain ⟨hmem', hcirc⟩ := h.target c e' he'
    refine ⟨?_, hcirc⟩
    by_cases ht : e'.handshakeType = t
    · rw [ht, update_self]
      rw [ht, hlist] at hmem'
      rcases mem_append.mp hmem' with hmem' | hmem'
      · exact mem_append_left _ hmem'
      · rcases mem_cons.mp hmem' with rfl | hmem'
        · exact absurd hcirc.symm hne
        · exact mem_append_right _ hmem'
    · rw [update_of_ne ht]
      exact hmem'

/-- Removing an entry to which its circuit no longer points. -/
lemma onionQueueEntryRemove_cleared (htype : ¬ maxOnionHandshakeType < e.handshakeType) :
    onionQueueEntryRemove e
        { s with onionqueueEntry := update s.onionqueueEntry e.circ none } =
      onionQueueEntryRemove e s := by
  unfold onionQueueEntryRemove
  rw [if_neg htype, if_neg htype]
  dsimp only
  rw [update_idem]

lemma onionQueueEntryRemove_taken (htype : ¬ maxOnionHandshakeType < e.handshakeType)
    (hskin : e.onionskin.isSome = true) :
    onionQueueEntryRemove { e with onionskin := none }
        { s with
          olEntries := update s.olEntries e.handshakeType (s.olEntries e.handshakeType - 1)
          onionqueueEntry := update s.onionqueueEntry e.circ none } =
      onionQueueEntryRemove e s := by
  unfold onionQueueEntryRemove
  rw [if_neg htype, if_neg htype, if_pos hskin]
  dsimp only
  rw [isSome_none, if_neg Bool.false_ne_true, update_idem]

/-- **Removing old entries** from the head of a queue keeps the queues in order. -/
lemma OnionQueues.Ok.cullElderly (h : s.Ok) (now : ℤ) {n : ℕ} (hn : (s.olList t).length ≤ n)
    (hyoung : ∃ e ∈ s.olList t, now - e.whenAdded < onionqueueWaitCutoff) :
    ∃ s' closed, Astoria.cullElderly now t n s = some (s', closed) ∧ s'.Ok ∧
      s'.olList = update s.olList t
        ((s.olList t).dropWhile fun e => onionqueueWaitCutoff ≤ now - e.whenAdded) ∧
      s'.recentlyChosenNtors = s.recentlyChosenNtors := by
  induction n generalizing s with
  | zero =>
    obtain ⟨e, he, -⟩ := hyoung
    have := length_pos_of_mem he
    omega
  | succ n ih =>
    obtain ⟨e, he, hage⟩ := hyoung
    rw [Astoria.cullElderly]
    cases hlist : s.olList t with
    | nil =>
      rw [hlist] at he
      exact absurd he not_mem_nil
    | cons head rest =>
      dsimp only
      by_cases hhead : now - head.whenAdded < onionqueueWaitCutoff
      · rw [if_pos hhead]
        refine ⟨s, [], rfl, h, ?_, rfl⟩
        rw [dropWhile_cons_of_neg (by simpa using hhead), ← hlist, update_eq_self]
      · rw [if_neg hhead]
        have hcleared : onionQueueEntryRemove head
            { s with onionqueueEntry := update s.onionqueueEntry head.circ none } =
            onionQueueEntryRemove head s := by
          refine onionQueueEntryRemove_cleared ?_
          obtain ⟨htype, hkind, -⟩ := h.kind t head (by rw [hlist]; exact mem_cons_self)
          rw [hkind]
          exact UInt16.not_lt.mpr htype
        rw [hcleared, h.remove_eq (l := []) hlist]
        rw [hlist, length_cons] at hn
        have hrest : (s.without head t ([] ++ rest)).olList t = rest := update_self _ _ _
        obtain ⟨s', closed, hcull, hok, hlists, hrecent⟩ := ih (s := s.without head t ([] ++ rest))
          (h.without hlist) (by rw [hrest]; omega) (by
            rw [hrest]
            rw [hlist] at he
            rcases mem_cons.mp he with rfl | he
            · exact absurd hage hhead
            · exact ⟨e, he, hage⟩)
        refine ⟨s', head.circ :: closed, by rw [hcull, map_some], hok, ?_, hrecent⟩
        rw [hlists, hrest, dropWhile_cons_of_pos (by simpa using hhead)]
        exact update_idem _ _ _

/-- **Adding an entry** at the end of its queue keeps the queues in order, if its circuit is not in
a queue. -/
lemma OnionQueues.Ok.insert (h : s.Ok) (now : ℤ) {circ : C} {onionskin : CreateCell}
    (htype : onionskin.handshakeType ≤ maxOnionHandshakeType)
    (hfree : ∀ t, ∀ e ∈ s.olList t, e.circ ≠ circ)
    (he : e = ⟨s.allocated, circ, onionskin.handshakeType, some onionskin, now⟩) :
    OnionQueues.Ok
      { s with
        allocated := s.allocated + 1
        olEntries := update s.olEntries onionskin.handshakeType
          (s.olEntries onionskin.handshakeType + 1)
        onionqueueEntry := update s.onionqueueEntry circ (some e)
        olList := update s.olList onionskin.handshakeType
          (s.olList onionskin.handshakeType ++ [e]) } := by
  have hold : ∀ t e', e' ∈ update s.olList onionskin.handshakeType
      (s.olList onionskin.handshakeType ++ [e]) t →
      e' ∈ s.olList t ∨ t = onionskin.handshakeType ∧ e' = e := by
    intro t e' he'
    by_cases ht : t = onionskin.handshakeType
    · rw [ht, update_self] at he'
      rcases mem_append.mp he' with he' | he'
      · exact .inl (by rwa [ht])
      · exact .inr ⟨ht, mem_singleton.mp he'⟩
    · rw [update_of_ne ht] at he'
      exact .inl he'
  refine ⟨fun t ht => ?_, fun t e' he' => ?_, fun t => ?_, fun t e' he' => ?_, fun t e' he' => ?_,
    fun c e' he' => ?_, h.recent_nonneg⟩
  · have hlen := h.olEntries_eq t ht
    dsimp only
    by_cases ht : t = onionskin.handshakeType
    · subst ht
      rw [update_self, update_self, length_append, hlen]
      rfl
    · rw [update_of_ne ht, update_of_ne ht, hlen]
  · rcases hold t e' he' with he' | ⟨rfl, rfl⟩
    · exact h.kind t e' he'
    · rw [he]
      exact ⟨htype, rfl, onionskin, rfl, rfl⟩
  · dsimp only
    by_cases ht : t = onionskin.handshakeType
    · rw [ht, update_self]
      refine pairwise_append.mpr ⟨h.sorted _, pairwise_singleton _ _, fun e' he' e'' he'' => ?_⟩
      rw [mem_singleton.mp he'', he]
      exact h.fresh _ e' he'
    · rw [update_of_ne ht]
      exact h.sorted t
  · rcases hold t e' he' with he' | ⟨rfl, rfl⟩
    · exact Nat.lt_succ_of_lt (h.fresh t e' he')
    · rw [he]
      exact Nat.lt_succ_self _
  · dsimp only
    rcases hold t e' he' with he' | ⟨rfl, rfl⟩
    · rw [update_of_ne (hfree t e' he')]
      exact h.pointer t e' he'
    · rw [show e'.circ = circ by rw [he], update_self]
  · dsimp only at he' ⊢
    by_cases hc : c = circ
    · rw [hc, update_self] at he'
      obtain rfl := some.inj he'
      rw [show e.handshakeType = onionskin.handshakeType by rw [he], update_self]
      exact ⟨mem_append_right _ (mem_singleton.mpr rfl), by rw [he, hc]⟩
    · rw [update_of_ne hc] at he'
      obtain ⟨hmem, hcirc⟩ := h.target c e' he'
      refine ⟨?_, hcirc⟩
      by_cases ht : e'.handshakeType = onionskin.handshakeType
      · rw [ht, update_self, ← ht]
        exact mem_append_left _ hmem
      · rw [update_of_ne ht]
        exact hmem

/-! ### The calls keep the queues in order -/

/-- What a call does to the queues and which task it hands out. -/
def OnionCall.Done (s s' : OnionQueues C) (task : Option (C × Option CreateCell)) :
    OnionCall C → Prop
  | .pendingAdd _ now circ onionskin =>
    task = none ∧ (s'.olList = s.olList ∨ onionskin.handshakeType ≤ maxOnionHandshakeType ∧
      ∃ e : OnionQueueEntry C, e.circ = circ ∧ e.onionskin = some onionskin ∧ e.whenAdded = now ∧
        s'.olList = update s.olList onionskin.handshakeType
          ((s.olList onionskin.handshakeType ++ [e]).dropWhile
            fun e => onionqueueWaitCutoff ≤ now - e.whenAdded))
  | .nextTask load =>
    let t := (decideNextHandshakeType load s).1
    (s.olList t = [] ∧ task = none ∧ s'.olList = s.olList) ∨
      ∃ e rest, s.olList t = e :: rest ∧ (∀ e' ∈ rest, e.address < e'.address) ∧
        task = some (e.circ, e.onionskin) ∧ s'.olList = update s.olList t rest
  | .pendingRemove circ =>
    task = none ∧ ∀ t, s'.olList t = (s.olList t).filter fun e => some e.circ ≠ circ
  | .clearPending => task = none ∧ ∀ t, s'.olList t = []

/-- The calls that keep the queues in order: a circuit is added only while it is in no queue. -/
def OnionCall.Free (s : OnionQueues C) : OnionCall C → Prop
  | .pendingAdd _ _ circ _ => ∀ t, ∀ e ∈ s.olList t, e.circ ≠ circ
  | _ => True

/-- **The next task** is the first of its queue. -/
lemma OnionQueues.Ok.nextTask (h : s.Ok) (load : OnionLoad) :
    ∃ s' task, onionNextTask load s = some (s', task) ∧ s'.Ok ∧
      OnionCall.Done s s' task (.nextTask load) ∧
      s'.recentlyChosenNtors = (decideNextHandshakeType load s).2 := by
  unfold onionNextTask
  dsimp only [OnionCall.Done]
  have hnonneg := decideNextHandshakeType_nonneg h load
  generalize decideNextHandshakeType load s = choice at hnonneg
  have h' := h.withRecent hnonneg
  cases hlist : s.olList choice.1 with
  | nil => exact ⟨_, _, rfl, h', .inl ⟨rfl, rfl, rfl⟩, rfl⟩
  | cons head rest =>
    obtain ⟨htype, hkind, onionskin, hskin, -⟩ :=
      h.kind choice.1 head (by rw [hlist]; exact mem_cons_self)
    have hle : ¬ maxOnionHandshakeType < head.handshakeType := by
      rw [hkind]
      exact UInt16.not_lt.mpr htype
    have hsome : head.onionskin.isSome = true := by
      rw [hskin]
      rfl
    have hsorted := h.sorted choice.1
    rw [hlist] at hsorted
    dsimp only
    rw [if_neg hle, if_pos hsome]
    have htaken := (onionQueueEntryRemove_taken hle hsome).trans (h'.remove_eq (l := []) hlist)
    rw [htaken]
    exact ⟨_, _, rfl, h'.without hlist,
      .inr ⟨head, rest, rfl, fun e' he' => rel_of_pairwise_cons hsorted he', rfl, rfl⟩, rfl⟩

/-- **Removing a circuit** removes its entry. -/
lemma OnionQueues.Ok.pendingRemove (h : s.Ok) (circ : Option C) :
    (onionPendingRemove circ s).Ok ∧
      (∀ t, (onionPendingRemove circ s).olList t =
        (s.olList t).filter fun e => some e.circ ≠ circ) ∧
      (onionPendingRemove circ s).recentlyChosenNtors = s.recentlyChosenNtors := by
  have hkeep : ∀ l : List (OnionQueueEntry C), (∀ e ∈ l, some e.circ ≠ circ) →
      l = l.filter fun e => some e.circ ≠ circ :=
    fun l hl => (filter_eq_self.mpr fun e he => decide_eq_true (hl e he)).symm
  cases circ with
  | none => exact ⟨h, fun t => hkeep _ fun e _ => some_ne_none e.circ, rfl⟩
  | some circ =>
    unfold onionPendingRemove
    dsimp only
    cases hentry : s.onionqueueEntry circ with
    | none =>
      refine ⟨h, fun t => hkeep _ fun e he heq => ?_, rfl⟩
      have hpointer := h.pointer t e he
      rw [some.inj heq, hentry] at hpointer
      exact absurd hpointer (by simp)
    | some e =>
      obtain ⟨hmem, rfl⟩ := h.target circ e hentry
      obtain ⟨l, l', hlist⟩ := append_of_mem hmem
      dsimp only
      rw [h.remove_eq hlist]
      refine ⟨h.without hlist, fun t => ?_, rfl⟩
      dsimp only [OnionQueues.without]
      by_cases ht : t = e.handshakeType
      · rw [ht, update_self, hlist, filter_append, filter_cons_of_neg (by simp),
          ← filter_append]
        exact hkeep _ fun e' he' heq => h.circ_ne hlist e' he' (some.inj heq)
      · rw [update_of_ne ht]
        refine hkeep _ fun e' he' heq => ht ?_
        have hpointer := h.pointer t e' he'
        rw [some.inj heq, hentry] at hpointer
        rw [some.inj hpointer]
        exact (h.kind t e' he').2.1.symm

/-- **Clearing one queue** empties it. -/
lemma OnionQueues.Ok.clearOnions (h : s.Ok) (t : UInt16) :
    ∃ s', Astoria.clearOnions s t = some s' ∧ s'.Ok ∧ s'.olList = update s.olList t [] ∧
      s'.recentlyChosenNtors = s.recentlyChosenNtors := by
  have hfold : ∀ (l : List (OnionQueueEntry C)) (s : OnionQueues C), s.Ok → s.olList t = l →
      (l.foldl (fun s victim => onionQueueEntryRemove victim s) s).Ok ∧
      (l.foldl (fun s victim => onionQueueEntryRemove victim s) s).olList =
        update s.olList t [] ∧
      (l.foldl (fun s victim => onionQueueEntryRemove victim s) s).recentlyChosenNtors =
        s.recentlyChosenNtors := by
    intro l
    induction l with
    | nil =>
      intro s h hlist
      refine ⟨h, ?_, rfl⟩
      rw [foldl_nil, ← hlist, update_eq_self]
    | cons e l ih =>
      intro s h hlist
      rw [foldl_cons, h.remove_eq (l := []) hlist]
      obtain ⟨hok, hlists, hrecent⟩ := ih _ (h.without (l := []) hlist) (update_self _ _ _)
      exact ⟨hok, hlists.trans (update_idem _ _ _), hrecent⟩
  obtain ⟨hok, hlists, hrecent⟩ := hfold _ s h rfl
  refine ⟨_, ?_, hok, hlists, hrecent⟩
  unfold Astoria.clearOnions
  dsimp only
  rw [if_pos]
  rw [hlists, update_self]
  rfl

lemma eq_of_le_maxOnionHandshakeType (h : t ≤ maxOnionHandshakeType) : t = 0 ∨ t = 1 ∨ t = 2 := by
  have hle : t.toNat ≤ 2 := h
  have ht : t.toNat = 0 ∨ t.toNat = 1 ∨ t.toNat = 2 := by omega
  rcases ht with ht | ht | ht
  · exact .inl (UInt16.toNat_inj.mp ht)
  · exact .inr (.inl (UInt16.toNat_inj.mp ht))
  · exact .inr (.inr (UInt16.toNat_inj.mp ht))

/-- **Clearing** empties all queues. -/
lemma OnionQueues.Ok.clearPending (h : s.Ok) :
    ∃ s', clearPendingOnions s = some s' ∧ s'.Ok ∧ (∀ t, s'.olList t = []) ∧
      s'.recentlyChosenNtors = s.recentlyChosenNtors := by
  obtain ⟨s₀, hs₀, h₀, hlists₀, hrecent₀⟩ := h.clearOnions 0
  obtain ⟨s₁, hs₁, h₁, hlists₁, hrecent₁⟩ := h₀.clearOnions 1
  obtain ⟨s₂, hs₂, h₂, hlists₂, hrecent₂⟩ := h₁.clearOnions 2
  have hempty : ∀ t, s₂.olList t = [] := by
    intro t
    by_contra hne
    obtain ⟨e, he⟩ := exists_mem_of_ne_nil _ hne
    refine hne ?_
    rw [hlists₂, hlists₁, hlists₀]
    rcases eq_of_le_maxOnionHandshakeType (h₂.kind t e he).1 with rfl | rfl | rfl
    · rfl
    · rfl
    · rfl
  unfold clearPendingOnions
  rw [foldlM_cons, hs₀, bind_eq_bind, bind_some, foldlM_cons, hs₁,
    bind_eq_bind, bind_some, foldlM_cons, hs₂, bind_eq_bind,
    bind_some]
  refine ⟨_, rfl, ⟨fun t _ => ?_, h₂.kind, h₂.sorted, h₂.fresh, h₂.pointer, h₂.target,
    h₂.recent_nonneg⟩, hempty,
    hrecent₂.trans (hrecent₁.trans hrecent₀)⟩
  dsimp only
  rw [hempty t]
  rfl

/-- **Adding a circuit** puts it at the end of its queue and removes old entries from the head. -/
lemma OnionQueues.Ok.pendingAdd (h : s.Ok) (load : OnionLoad) (now : ℤ) {circ : C}
    (onionskin : CreateCell) (hfree : ∀ t, ∀ e ∈ s.olList t, e.circ ≠ circ) :
    ∃ s' r, onionPendingAdd load now circ onionskin s = some (s', r) ∧ s'.Ok ∧
      OnionCall.Done s s' none (.pendingAdd load now circ onionskin) ∧
      s'.recentlyChosenNtors = s.recentlyChosenNtors := by
  unfold onionPendingAdd
  dsimp only [OnionCall.Done]
  by_cases htype : maxOnionHandshakeType < onionskin.handshakeType
  · rw [if_pos htype]
    exact ⟨_, _, rfl, h, ⟨rfl, .inl rfl⟩, rfl⟩
  rw [if_neg htype]
  by_cases hroom : haveRoomForOnionskin load { s with allocated := s.allocated + 1 }
    onionskin.handshakeType = true
  swap
  · rw [if_pos hroom]
    exact ⟨_, _, rfl, ⟨h.olEntries_eq, h.kind, h.sorted,
      fun t e he => Nat.lt_succ_of_lt (h.fresh t e he), h.pointer, h.target, h.recent_nonneg⟩,
      ⟨rfl, .inl rfl⟩, rfl⟩
  · rw [if_neg (not_not.mpr hroom)]
    have hle := UInt16.not_lt.mp htype
    have hinsert := h.insert now hle hfree rfl
    have hlist := update_self onionskin.handshakeType
      (s.olList onionskin.handshakeType ++
        [⟨s.allocated, circ, onionskin.handshakeType, some onionskin, now⟩]) s.olList
    obtain ⟨s', closed, hcull, hok, hlists, hrecent⟩ := hinsert.cullElderly now
      (t := onionskin.handshakeType) le_rfl
      ⟨⟨s.allocated, circ, onionskin.handshakeType, some onionskin, now⟩, by
        dsimp only
        rw [hlist]
        exact mem_append_right _ (mem_singleton.mpr rfl), by
        dsimp only
        rw [Int.sub_self]
        decide⟩
    rw [hcull, map_some]
    refine ⟨s', _, rfl, hok, ⟨rfl, .inr ⟨hle,
        ⟨s.allocated, circ, onionskin.handshakeType, some onionskin, now⟩, rfl, rfl, rfl, ?_⟩⟩,
      hrecent⟩
    rw [hlists]
    dsimp only
    rw [hlist, update_idem]

/-- **One call** succeeds, keeps the queues in order, and does what it should. -/
lemma OnionCall.Free.spec (h : s.Ok) {call : OnionCall C} (hfree : call.Free s) :
    ∃ s' task, onionCall s call = some (s', task) ∧ s'.Ok ∧ call.Done s s' task := by
  cases call with
  | pendingAdd load now circ onionskin =>
    obtain ⟨s', r, hadd, hok, hdone, -⟩ := h.pendingAdd load now onionskin hfree
    exact ⟨s', none, by rw [onionCall, hadd, map_some], hok, hdone⟩
  | nextTask load =>
    obtain ⟨s', task, hnext, hok, hdone, -⟩ := h.nextTask load
    exact ⟨s', task, hnext, hok, hdone⟩
  | pendingRemove circ =>
    obtain ⟨hok, hlists, -⟩ := h.pendingRemove circ
    exact ⟨_, none, rfl, hok, rfl, hlists⟩
  | clearPending =>
    obtain ⟨s', hclear, hok, hlists, -⟩ := h.clearPending
    exact ⟨s', none, by rw [onionCall, hclear, map_some], hok, rfl, hlists⟩

/-! ### The balance between the kinds of handshakes -/

/-- A task with the handshake with elliptic curves. -/
def IsNtor (task : C × Option CreateCell) : Prop :=
  ∃ onionskin, task.2 = some onionskin ∧ onionskin.handshakeType = handshakeTypeNtor

/-- The queue of original handshakes is not empty, at any time during the calls. -/
def TapWaits (s : OnionQueues C) : List (OnionCall C) → Prop
  | [] => s.olList handshakeTypeTap ≠ []
  | call :: calls =>
    s.olList handshakeTypeTap ≠ [] ∧
      ∀ s' task, onionCall s call = some (s', task) → TapWaits s' calls

variable {s' : OnionQueues C} {calls : List (OnionCall C)}

/-- The task that is handed out if original handshakes are waiting. -/
lemma OnionQueues.Ok.nextTask_ntor (h : s.Ok) (htap : s.olList handshakeTypeTap ≠ [])
    {load : OnionLoad} {task : Option (C × Option CreateCell)}
    (hnext : onionNextTask load s = some (s', task)) (hntor : ∀ t ∈ task, IsNtor t) :
    s'.recentlyChosenNtors = s.recentlyChosenNtors + 1 ∧
      s.recentlyChosenNtors + 1 ≤ numNtorsPerTap load ∧ task ≠ none := by
  obtain ⟨s'', task', hnext', hok, hdone, hrecent⟩ := h.nextTask load
  rw [hnext] at hnext'
  obtain ⟨rfl, rfl⟩ := Prod.mk.inj (some.inj hnext')
  have htaps := h.olEntries_eq handshakeTypeTap (by decide)
  have hntors := h.olEntries_eq handshakeTypeNtor (by decide)
  have hpos := length_pos_of_ne_nil htap
  -- an original handshake is not handed out
  have htype : (decideNextHandshakeType load s).1 ≠ handshakeTypeTap := by
    intro heq
    rcases hdone with ⟨hempty, -⟩ | ⟨e, rest, hlist, -, rfl, -⟩
    · rw [heq] at hempty
      exact htap hempty
    · rw [heq] at hlist
      obtain ⟨-, -, onionskin, hskin, hkind⟩ :=
        h.kind handshakeTypeTap e (by rw [hlist]; exact mem_cons_self)
      obtain ⟨onionskin', hskin', hkind'⟩ := hntor _ rfl
      dsimp only at hskin'
      rw [hskin] at hskin'
      rw [← some.inj hskin', hkind] at hkind'
      exact absurd hkind' (by decide)
  have hchoice : decideNextHandshakeType load s = (handshakeTypeNtor, s.recentlyChosenNtors + 1) ∧
      s.recentlyChosenNtors + 1 ≤ numNtorsPerTap load ∧ s.olEntries handshakeTypeNtor ≠ 0 := by
    unfold decideNextHandshakeType at htype ⊢
    dsimp only at htype ⊢
    have ht : s.olEntries handshakeTypeTap ≠ 0 := by omega
    by_cases hn : s.olEntries handshakeTypeNtor = 0
    · rw [if_pos hn] at htype
      exact absurd rfl htype
    rw [if_neg hn, if_neg ht] at htype ⊢
    by_cases hle : s.recentlyChosenNtors + 1 ≤ numNtorsPerTap load
    · rw [if_pos hle]
      exact ⟨rfl, hle, hn⟩
    · rw [if_neg hle] at htype
      exact absurd rfl htype
  obtain ⟨hdecide, hle, hne⟩ := hchoice
  refine ⟨by rw [hrecent, hdecide], hle, ?_⟩
  rcases hdone with ⟨hempty, -⟩ | ⟨e, rest, -, -, rfl, -⟩
  · rw [hdecide] at hempty
    rw [hempty] at hntors
    exact absurd hntors hne
  · exact some_ne_none _

/-- **One call, if original handshakes are waiting** and none is handed out. -/
lemma OnionCall.Free.recent (h : s.Ok) (htap : s.olList handshakeTypeTap ≠ []) {call : OnionCall C}
    (hfree : call.Free s) {task : Option (C × Option CreateCell)}
    (hcall : onionCall s call = some (s', task)) (hntor : ∀ t ∈ task, IsNtor t) :
    s'.recentlyChosenNtors = s.recentlyChosenNtors + task.toList.length := by
  cases call with
  | pendingAdd load now circ onionskin =>
    obtain ⟨s'', r, hadd, -, -, hrecent⟩ := h.pendingAdd load now onionskin hfree
    rw [onionCall, hadd, map_some] at hcall
    obtain ⟨rfl, rfl⟩ := Prod.mk.inj (some.inj hcall)
    rw [hrecent]
    exact (Int.add_zero _).symm
  | nextTask load =>
    obtain ⟨hrecent, -, hsome⟩ := h.nextTask_ntor htap hcall hntor
    obtain ⟨t, rfl⟩ := ne_none_iff_exists'.mp hsome
    exact hrecent
  | pendingRemove circ =>
    obtain ⟨-, -, hrecent⟩ := h.pendingRemove circ
    obtain ⟨rfl, rfl⟩ := Prod.mk.inj (some.inj hcall)
    rw [hrecent]
    exact (Int.add_zero _).symm
  | clearPending =>
    obtain ⟨s'', hclear, -, -, hrecent⟩ := h.clearPending
    rw [onionCall, hclear, map_some] at hcall
    obtain ⟨rfl, rfl⟩ := Prod.mk.inj (some.inj hcall)
    rw [hrecent]
    exact (Int.add_zero _).symm

/-- Free calls, one after another. -/
def FreeCalls (s : OnionQueues C) (calls : List (OnionCall C)) : Prop :=
  Runs.MeetsAlong (fun s call => (onionCall s call).map Prod.fst)
    (fun s call => call.Free s) calls s

/-- **Free calls** succeed and keep the queues in order. -/
lemma FreeCalls.exists_onionCalls (h : s.Ok) (hfree : FreeCalls s calls) :
    ∃ s' tasks, onionCalls s calls = some (s', tasks) ∧ s'.Ok := by
  induction calls generalizing s with
  | nil => exact ⟨s, [], rfl, h⟩
  | cons call calls ih =>
    obtain ⟨s₁, task, hcall, h₁, -⟩ := OnionCall.Free.spec h hfree.1
    obtain ⟨s', tasks, hcalls, hok⟩ := ih h₁ (hfree.2 s₁ (congrArg (Option.map Prod.fst) hcall))
    refine ⟨s', task.toList ++ tasks, ?_, hok⟩
    rw [onionCalls, hcall, bind_some, hcalls, map_some]

lemma FreeCalls.of_append {calls' : List (OnionCall C)} (hfree : FreeCalls s (calls ++ calls'))
    {tasks : List (C × Option CreateCell)}
    (hrun : onionCalls s calls = some (s', tasks)) : FreeCalls s calls ∧ FreeCalls s' calls' := by
  refine ⟨Runs.MeetsAlong.of_append hfree, ?_⟩
  induction calls generalizing s tasks with
  | nil =>
    obtain ⟨rfl, -⟩ := Prod.mk.inj (some.inj hrun)
    exact hfree
  | cons call calls ih =>
    rw [onionCalls] at hrun
    obtain ⟨r, hcall, hrun⟩ := bind_eq_some_iff.mp hrun
    obtain ⟨r', hcalls, hrun⟩ := map_eq_some_iff.mp hrun
    obtain ⟨rfl, -⟩ := Prod.mk.inj hrun
    exact ih (hfree.2 r.1 (congrArg (Option.map Prod.fst) hcall)) hcalls

/-- A circuit that is added has no entry. -/
def OnionCall.addsNew (s : OnionQueues C) : OnionCall C → Bool
  | .pendingAdd _ _ circ _ => (s.onionqueueEntry circ).isNone
  | _ => true

/-- The entries tell which calls are free. -/
lemma freeCalls_of_addsNew (h : s.Ok)
    (hnew : Runs.MeetsAlong (fun s call => (onionCall s call).map Prod.fst)
      (fun s call => call.addsNew s = true) calls s) : FreeCalls s calls := by
  induction calls generalizing s with
  | nil => trivial
  | cons call calls ih =>
    have hfree : call.Free s := by
      cases call with
      | pendingAdd load now circ onionskin =>
        intro t e he hcirc
        have hentry := h.pointer t e he
        rw [hcirc] at hentry
        exact absurd hnew.1 (by simp [OnionCall.addsNew, hentry])
      | nextTask | pendingRemove | clearPending => trivial
    refine ⟨hfree, fun s' hs' => ih ?_ (hnew.2 s' hs')⟩
    obtain ⟨s₁, task, hcall, h₁, -⟩ := OnionCall.Free.spec h hfree
    have hnext : s₁ = s' := some.inj ((congrArg (Option.map Prod.fst) hcall).symm.trans hs')
    exact hnext ▸ h₁

/-- **A run while original handshakes are waiting** and none is handed out. -/
lemma FreeCalls.recent (h : s.Ok) (hfree : FreeCalls s calls)
    (htap : TapWaits s calls) {tasks : List (C × Option CreateCell)}
    (hrun : onionCalls s calls = some (s', tasks)) (hntor : ∀ t ∈ tasks, IsNtor t) :
    s'.recentlyChosenNtors = s.recentlyChosenNtors + tasks.length ∧
      s'.olList handshakeTypeTap ≠ [] := by
  induction calls generalizing s tasks with
  | nil =>
    obtain ⟨rfl, rfl⟩ := Prod.mk.inj (some.inj hrun)
    exact ⟨(Int.add_zero _).symm, htap⟩
  | cons call calls ih =>
    rw [onionCalls] at hrun
    obtain ⟨⟨s₁, task⟩, hcall, hrun⟩ := bind_eq_some_iff.mp hrun
    obtain ⟨⟨s₂, tasks'⟩, hcalls, hrun⟩ := map_eq_some_iff.mp hrun
    obtain ⟨rfl, rfl⟩ := Prod.mk.inj hrun
    obtain ⟨s₁', task', hcall', h₁, -⟩ := OnionCall.Free.spec h hfree.1
    rw [hcall] at hcall'
    obtain ⟨rfl, rfl⟩ := Prod.mk.inj (some.inj hcall')
    have hstep := OnionCall.Free.recent h htap.1 hfree.1 hcall fun t ht =>
      hntor t (mem_append_left _ (by simpa using ht))
    obtain ⟨hrest, htap'⟩ := ih h₁ (hfree.2 s₁ (congrArg (Option.map Prod.fst) hcall))
      (htap.2 s₁ task hcall) hcalls fun t ht => hntor t (mem_append_right _ ht)
    refine ⟨?_, htap'⟩
    rw [hrest, hstep, length_append]
    dsimp only
    omega

/-- **The queues stay in order.**  In every run of calls from the start that add circuits only while
they are in no queue, the queues, counters and pointers agree before and after every call, and every
call does what it should: tasks are handed out in the order of arrival.  While original handshakes
are waiting, the tasks with the other handshake that are handed out one after another do not exceed
the bound that the last of these calls reads. -/
theorem onionQueues_ok (start calls : List (OnionCall C)) (call : OnionCall C)
    (hfree : FreeCalls (OnionQueues.empty C) (start ++ (calls ++ [call]))) :
    ∃ s₀ tasks₀ s tasks s' task, onionCalls (OnionQueues.empty C) start = some (s₀, tasks₀) ∧
      onionCalls s₀ calls = some (s, tasks) ∧ onionCall s call = some (s', task) ∧
      s₀.Ok ∧ s.Ok ∧ s'.Ok ∧ call.Done s s' task ∧
      (TapWaits s₀ calls → ∀ load, call = .nextTask load → (∀ t ∈ tasks ++ task.toList, IsNtor t) →
        ((tasks ++ task.toList).length : ℤ) ≤ numNtorsPerTap load) := by
  obtain ⟨s₀, tasks₀, hstart, h₀⟩ := FreeCalls.exists_onionCalls OnionQueues.ok_empty
    (Runs.MeetsAlong.of_append hfree)
  have hfree₀ := (hfree.of_append hstart).2
  obtain ⟨s, tasks, hcalls, h⟩ := FreeCalls.exists_onionCalls h₀ (Runs.MeetsAlong.of_append hfree₀)
  obtain ⟨hfreeCalls, hlast⟩ := hfree₀.of_append hcalls
  obtain ⟨s', task, hcall, h', hdone⟩ := OnionCall.Free.spec h hlast.1
  refine ⟨s₀, tasks₀, s, tasks, s', task, hstart, hcalls, hcall, h₀, h, h', hdone, ?_⟩
  rintro htap load rfl hntor
  obtain ⟨hrecent, htap'⟩ := hfreeCalls.recent h₀ htap hcalls fun t ht =>
    hntor t (mem_append_left _ ht)
  obtain ⟨-, hle, hsome⟩ := h.nextTask_ntor htap' hcall fun t ht =>
    hntor t (mem_append_right _ (by simpa using ht))
  obtain ⟨t, rfl⟩ := ne_none_iff_exists'.mp hsome
  have hnonneg := h₀.recent_nonneg
  rw [length_append]
  dsimp only [toList_some, length_singleton]
  omega

end Order

/-- A relay that has not measured anything. -/
def idleLoad : OnionLoad := ⟨1, 1750, fun _ => 0, fun _ => 0, none⟩

def tapSkin : CreateCell := ⟨cellCreate, handshakeTypeTap, 186, ByteBuffer.zero⟩

def ntorSkin : CreateCell := ⟨cellCreate2, handshakeTypeNtor, 84, ByteBuffer.zero⟩

/-- A circuit with the original handshake is added and four with the other one, one of which is
removed again. -/
def fiveArrivals : List (OnionCall ℕ) :=
  [.pendingAdd idleLoad 0 7 tapSkin, .pendingAdd idleLoad 0 1 ntorSkin,
    .pendingAdd idleLoad 0 2 ntorSkin,
    .pendingAdd idleLoad 0 3 ntorSkin, .pendingAdd idleLoad 0 4 ntorSkin, .pendingRemove (some 2)]

/-- Tasks are handed out while the circuit with the original handshake is waiting. -/
theorem onionQueues_ok_five_arrivals :
    ∃ s₀ tasks₀ s tasks s' task, onionCalls (OnionQueues.empty ℕ) fiveArrivals = some (s₀, tasks₀) ∧
      onionCalls s₀ [.nextTask idleLoad, .nextTask idleLoad] = some (s, tasks) ∧
      onionCall s (.nextTask idleLoad) = some (s', task) ∧ s₀.Ok ∧ s.Ok ∧ s'.Ok ∧
      OnionCall.Done s s' task (.nextTask idleLoad) ∧
      (tasks ++ task.toList).map Prod.fst = [1, 3, 4] ∧
      (TapWaits s₀ [.nextTask idleLoad, .nextTask idleLoad] →
        (∀ t ∈ tasks ++ task.toList, IsNtor t) →
          ((tasks ++ task.toList).length : ℤ) ≤ numNtorsPerTap idleLoad) := by
  obtain ⟨s₀, tasks₀, s, tasks, s', task, h₀, h, h', hok₀, hok, hok', hdone, hbound⟩ :=
    onionQueues_ok fiveArrivals [.nextTask idleLoad, .nextTask idleLoad] (.nextTask idleLoad)
      (freeCalls_of_addsNew OnionQueues.ok_empty (by decide +kernel))
  refine ⟨s₀, tasks₀, s, tasks, s', task, h₀, h, h', hok₀, hok, hok', hdone, ?_,
    fun htap => hbound htap _ rfl⟩
  have hrun : ((onionCalls (OnionQueues.empty ℕ) fiveArrivals).bind fun r =>
      (onionCalls r.1 [.nextTask idleLoad, .nextTask idleLoad]).bind fun r₁ =>
        (onionCall r₁.1 (.nextTask idleLoad)).map fun r₂ => (r₁.2 ++ r₂.2.toList).map Prod.fst) =
      some [1, 3, 4] := by
    decide +kernel
  rw [h₀, bind_some, h, bind_some, h', map_some] at hrun
  exact some.inj hrun

/-- A circuit that is added twice points to its second entry only. -/
theorem not_pointer_added_twice :
    ¬ ∀ (calls : List (OnionCall ℕ)) s tasks,
      onionCalls (OnionQueues.empty ℕ) calls = some (s, tasks) →
        ∀ t, ∀ e ∈ s.olList t, s.onionqueueEntry e.circ = some e := by
  intro h
  have hpointer := h
    [.pendingAdd idleLoad 0 7 tapSkin, .pendingAdd idleLoad 0 7 tapSkin] _ _ rfl handshakeTypeTap
    ⟨0, 7, handshakeTypeTap, some tapSkin, 0⟩ mem_cons_self
  exact absurd (congrArg (Option.map OnionQueueEntry.address) hpointer) (by decide)

end Astoria
