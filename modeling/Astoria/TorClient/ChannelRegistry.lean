import Astoria.Library.IntrusiveLists
import Astoria.Library.Runs
import Astoria.TorClient.ChannelQueue
import Astoria.TorClient.Smartlist

/-!
# The lists of the channels

A registered channel is in the list of all channels, in that of the active or in that of the
finished ones, and with the identity of its relay in the identity map, as long as it has one and is
not closing.  The map has an intrusive list for each identity.  Each function works out from the
state before and after a change whether the channel has to be put into the map or taken out of it.

The digests are numbers of 160 bits, and the digest that is not set is zero.
-/

namespace Astoria

open List Option
open Intrusive
open Function

abbrev IdentityDigest := BitVec 160

/-- A channel, as far as the lists are concerned (`channel_t`). -/
structure RegChannel where
  state : ChannelState
  registered : Bool
  identityDigest : IdentityDigest
  nickname : Option String
  deriving DecidableEq

structure ChannelLists (ι : Type*) where
  chan : ι → RegChannel
  allChannels : List ι
  activeChannels : List ι
  finishedChannels : List ι
  hasEntry : IdentityDigest → Bool
  idLists : Heap IdentityDigest ι

variable {ι : Type*} [DecidableEq ι]

omit [DecidableEq ι] in
def ChannelLists.init (state : ι → ChannelState) (digest : ι → IdentityDigest) : ChannelLists ι :=
  ⟨fun c => ⟨state c, false, digest c, none⟩, [], [], [], fun _ => false,
    ⟨fun _ => none, fun _ => none⟩⟩

/-- A channel becomes another one. -/
def ChannelLists.set (s : ChannelLists ι) (c : ι) (chan : RegChannel) : ChannelLists ι :=
  { s with chan := update s.chan c chan }

lemma ChannelLists.set_chan_self (s : ChannelLists ι) (c : ι) (chan : RegChannel) :
    (s.set c chan).chan c = chan := by
  rw [ChannelLists.set]
  exact update_self _ _ _

/-! ### The identity map -/

/-- Put a channel into the identity map (`channel_add_to_digest_map`).  A failed assertion is
`none`. -/
def channelAddToDigestMap (s : ChannelLists ι) (c : ι) : Option (ChannelLists ι) :=
  let digest := (s.chan c).identityDigest
  if (s.chan c).state.isCondemned then none
  else if digest = 0 then none
  else
    let s :=
      if s.hasEntry digest then s
      else { s with hasEntry := update s.hasEntry digest true, idLists := s.idLists.clear digest }
    some { s with idLists := s.idLists.insertHead digest c }

/-- Take a channel out of the identity map (`channel_remove_from_digest_map`).  A failed assertion
is `none`, and so is a channel that is in no list. -/
def channelRemoveFromDigestMap (s : ChannelLists ι) (c : ι) : Option (ChannelLists ι) :=
  let digest := (s.chan c).identityDigest
  if digest = 0 then none
  else
    (s.idLists.remove c).map fun idLists =>
      let s := { s with idLists := idLists }
      if s.hasEntry digest ∧ idLists.target (.head digest) = none then
        { s with hasEntry := update s.hasEntry digest false }
      else s

/-! ### The calls -/

/-- Register a channel (`channel_register`). -/
def channelRegister (s : ChannelLists ι) (c : ι) : Option (ChannelLists ι) :=
  let chan := s.chan c
  if chan.registered then some s
  else
    let s := { s with allChannels := s.allChannels ++ [c] }
    let listed :=
      if chan.state.isFinished then some { s with finishedChannels := s.finishedChannels ++ [c] }
      else
        let s := { s with activeChannels := s.activeChannels ++ [c] }
        if chan.state ≠ .closing ∧ chan.identityDigest ≠ 0 then channelAddToDigestMap s c
          else some s
    listed.map fun s => s.set c { s.chan c with registered := true }

/-- Unregister a channel (`channel_unregister`). -/
def channelUnregister (s : ChannelLists ι) (c : ι) : Option (ChannelLists ι) :=
  let chan := s.chan c
  if chan.registered = false then some s
  else
    let s :=
      if chan.state.isFinished then
        { s with finishedChannels := smartlistRemove s.finishedChannels c }
      else { s with activeChannels := smartlistRemove s.activeChannels c }
    let s := { s with allChannels := smartlistRemove s.allChannels c }
    let s := s.set c { chan with registered := false }
    if chan.identityDigest ≠ 0 ∧ chan.state.isCondemned = false then channelRemoveFromDigestMap s c
      else some s

/-- Change the state of a channel (`channel_change_state`), as far as the lists are concerned. -/
def channelListsChangeState (s : ChannelLists ι) (c : ι) (toState : ChannelState) :
    Option (ChannelLists ι) :=
  let chan := s.chan c
  let fromState := chan.state
  if channelStateCanTransition fromState toState = false then none
  else if fromState = toState then some s
  else
    let s := s.set c { chan with state := toState }
    if chan.registered = false then some s
    else
      let wasActive := !fromState.isFinished
      let isActive := !toState.isFinished
      let s :=
        if wasActive && !isActive then
          { s with
            activeChannels := smartlistRemove s.activeChannels c
            finishedChannels := s.finishedChannels ++ [c] }
        else if !wasActive && isActive then
          { s with
            finishedChannels := smartlistRemove s.finishedChannels c
            activeChannels := s.activeChannels ++ [c] }
        else s
      if chan.identityDigest = 0 then some s
      else
        let wasInIdMap := !fromState.isCondemned
        let isInIdMap := !toState.isCondemned
        if !wasInIdMap && isInIdMap then channelAddToDigestMap s c
        else if wasInIdMap && !isInIdMap then channelRemoveFromDigestMap s c
        else some s

/-- Whether a channel should be in the identity map. -/
def RegChannel.inDigestMap (chan : RegChannel) : Bool :=
  !chan.state.isCondemned && chan.registered && decide (chan.identityDigest ≠ 0)

/-- Take a channel out of the identity map if it is there, and clear its digest
(`channel_clear_identity_digest`). -/
def channelClearIdentityDigest (s : ChannelLists ι) (c : ι) : Option (ChannelLists ι) :=
  (if (s.chan c).inDigestMap then channelRemoveFromDigestMap s c else some s).map fun s =>
    s.set c { s.chan c with identityDigest := 0 }

/-- Clear the digest and the nickname of a channel (`channel_clear_remote_end`). -/
def channelClearRemoteEnd (s : ChannelLists ι) (c : ι) : Option (ChannelLists ι) :=
  (if (s.chan c).inDigestMap then channelRemoveFromDigestMap s c else some s).map fun s =>
    s.set c { s.chan c with identityDigest := 0, nickname := none }

/-- Set the digest of a channel, with `rename` for its nickname. -/
def setRemote (s : ChannelLists ι) (c : ι) (identityDigest : Option IdentityDigest)
    (rename : Option String → Option String) : Option (ChannelLists ι) :=
  let chan := s.chan c
  let stateNotInMap := chan.state.isCondemned
  let shouldBeInDigestMap :=
    !stateNotInMap && chan.registered && identityDigest.any (fun digest => decide (digest ≠ 0))
  (if chan.inDigestMap then channelRemoveFromDigestMap s c else some s).bind fun s =>
    let s := s.set c
      { s.chan c with
        identityDigest := identityDigest.getD 0, nickname := rename (s.chan c).nickname }
    if shouldBeInDigestMap then channelAddToDigestMap s c else some s

/-- Set the digest of a channel (`channel_set_identity_digest`). -/
def channelSetIdentityDigest (s : ChannelLists ι) (c : ι) (identityDigest : Option IdentityDigest) :
    Option (ChannelLists ι) :=
  setRemote s c identityDigest id

/-- Set the digest and the nickname of a channel (`channel_set_remote_end`). -/
def channelSetRemoteEnd (s : ChannelLists ι) (c : ι) (identityDigest : Option IdentityDigest)
    (nickname : Option String) : Option (ChannelLists ι) :=
  setRemote s c identityDigest fun _ => nickname

inductive RegistryCall (ι : Type*)
  | register (c : ι)
  | unregister (c : ι)
  | changeState (c : ι) (toState : ChannelState)
  | clearIdentityDigest (c : ι)
  | setIdentityDigest (c : ι) (digest : Option IdentityDigest)
  | clearRemoteEnd (c : ι)
  | setRemoteEnd (c : ι) (digest : Option IdentityDigest) (nickname : Option String)

def registryStep (s : ChannelLists ι) : RegistryCall ι → Option (ChannelLists ι)
  | .register c => channelRegister s c
  | .unregister c => channelUnregister s c
  | .changeState c toState => channelListsChangeState s c toState
  | .clearIdentityDigest c => channelClearIdentityDigest s c
  | .setIdentityDigest c digest => channelSetIdentityDigest s c digest
  | .clearRemoteEnd c => channelClearRemoteEnd s c
  | .setRemoteEnd c digest nickname => channelSetRemoteEnd s c digest nickname

omit [DecidableEq ι] in
/-- A change of state is one that the channel can make. -/
def ChannelLists.Permits (s : ChannelLists ι) : RegistryCall ι → Prop
  | .changeState c toState => channelStateCanTransition (s.chan c).state toState = true
  | _ => True

omit [DecidableEq ι] in
/-- Whether a call is permitted can be computed. -/
instance decidablePermits (s : ChannelLists ι) : ∀ call, Decidable (s.Permits call)
  | .changeState c toState =>
    inferInstanceAs (Decidable (channelStateCanTransition (s.chan c).state toState = true))
  | .register _ | .unregister _ | .clearIdentityDigest _ | .setIdentityDigest _
    _ | .clearRemoteEnd _
  | .setRemoteEnd _ _ _ => isTrue trivial

/-! ### The invariant of the map -/

/-- The digest under which a channel is in the identity map. -/
def RegChannel.key (chan : RegChannel) : Option IdentityDigest :=
  if chan.inDigestMap then some chan.identityDigest else none

/-- The identity map has the channels under their keys. -/
def MapOk (hasEntry : IdentityDigest → Bool) (idLists : Heap IdentityDigest ι)
    (key : ι → Option IdentityDigest) :
    Prop :=
  ∃ lists, idLists.Represents lists ∧ (∀ digest, hasEntry digest = true ↔ lists digest ≠ []) ∧
    ∀ c digest, c ∈ lists digest ↔ key c = some digest

variable {key : ι → Option IdentityDigest}

/-- **Putting a channel into the map**, when it is not there. -/
lemma exists_channelAddToDigestMap {c : ι}
    (h : MapOk s.hasEntry s.idLists key) (hkey : key c = none)
    (hstate : (s.chan c).state.isCondemned = false) (hdigest : (s.chan c).identityDigest ≠ 0) :
    ∃ hasEntry idLists, channelAddToDigestMap s c =
      some { s with hasEntry := hasEntry, idLists := idLists } ∧
      MapOk hasEntry idLists (update key c (some (s.chan c).identityDigest)) := by
  obtain ⟨lists, hlists, hentry, hmem⟩ := h
  have hout (digest : IdentityDigest) : c ∉ lists digest := by
    rw [hmem, hkey]
    exact nofun
  generalize hd : (s.chan c).identityDigest = digest at hdigest
  -- the entry is there, or a new one with an empty list
  have hready : ∃ idLists : Heap IdentityDigest ι, idLists.Represents lists ∧ channelAddToDigestMap
      s c = some { s with
        hasEntry := update s.hasEntry digest true, idLists := idLists.insertHead digest c } := by
    rw [channelAddToDigestMap]
    dsimp only
    rw [hd, hstate, if_neg Bool.false_ne_true, if_neg hdigest]
    by_cases hhas : s.hasEntry digest = true
    · refine ⟨s.idLists, hlists, ?_⟩
      rw [if_pos hhas]
      exact congrArg
        (fun hasEntry =>
          some (ChannelLists.mk s.chan s.allChannels s.activeChannels s.finishedChannels hasEntry
            (s.idLists.insertHead digest c))) (update_eq_self_iff.mpr hhas.symm).symm
    · refine ⟨s.idLists.clear digest, hlists.clear ?_, ?_⟩
      · by_contra hne
        exact hhas ((hentry digest).mpr hne)
      · rw [if_neg hhas]
  obtain ⟨idLists, hrep, hadd⟩ := hready
  refine ⟨_, _, hadd, _, hrep.insertHead hout, fun digest' => ?_, fun c' digest' => ?_⟩
  · by_cases heq : digest' = digest
    · rw [heq, update_self, update_self]
      exact iff_of_true rfl (cons_ne_nil c _)
    · rw [update_of_ne heq, update_of_ne heq]
      exact hentry digest'
  · by_cases heq : digest' = digest
    · rw [heq, update_self, mem_cons]
      by_cases hc : c' = c
      · rw [hc, update_self]
        exact iff_of_true (.inl rfl) rfl
      · rw [update_of_ne hc, or_iff_right hc]
        exact hmem c' digest
    · rw [update_of_ne heq]
      by_cases hc : c' = c
      · rw [hc, update_self]
        exact iff_of_false (hout digest') fun hsome => heq (Option.some.inj hsome).symm
      · rw [update_of_ne hc]
        exact hmem c' digest'

/-- **Taking a channel out of the map**, when it is there. -/
lemma exists_channelRemoveFromDigestMap {c : ι}
    (h : MapOk s.hasEntry s.idLists key) (hkey : key c = some (s.chan c).identityDigest)
    (hdigest : (s.chan c).identityDigest ≠ 0) :
    ∃ hasEntry idLists, channelRemoveFromDigestMap s c =
      some { s with hasEntry := hasEntry, idLists := idLists } ∧
      MapOk hasEntry idLists (update key c none) := by
  obtain ⟨lists, hlists, hentry, hmem⟩ := h
  generalize hd : (s.chan c).identityDigest = digest at hkey hdigest
  have hc := (hmem c digest).mpr hkey
  obtain ⟨idLists, hremove, hrep⟩ := hlists.remove hc
  have hhas : s.hasEntry digest = true := (hentry digest).mpr (ne_nil_of_mem hc)
  have hmem' (c' : ι) (digest' : IdentityDigest) :
      c' ∈ update lists digest ((lists digest).erase c) digest' ↔
        update key c none c' = some digest' := by
    by_cases heq : digest' = digest
    · rw [heq, update_self, (hlists.nodup digest).mem_erase_iff, hmem]
      by_cases hcc : c' = c
      · rw [hcc, update_self]
        exact iff_of_false (fun hand => hand.1 rfl) nofun
      · rw [update_of_ne hcc, and_iff_right hcc]
    · rw [update_of_ne heq, hmem]
      by_cases hcc : c' = c
      · rw [hcc, update_self, hkey]
        exact iff_of_false (fun hsome => heq (Option.some.inj hsome).symm) nofun
      · rw [update_of_ne hcc]
  have hhead : idLists.target (.head digest) = ((lists digest).erase c).head? := by
    have hlinked := (hrep.linked digest).target_eq
    rwa [update_self] at hlinked
  rw [channelRemoveFromDigestMap]
  dsimp only
  rw [hd, if_neg hdigest, hremove, map_some, hhead]
  by_cases hempty : (lists digest).erase c = []
  · rw [hempty, if_pos ⟨hhas, rfl⟩]
    refine ⟨_, _, rfl, _, hrep, fun digest' => ?_, hmem'⟩
    by_cases heq : digest' = digest
    · rw [heq, update_self, update_self]
      exact iff_of_false Bool.false_ne_true fun hne => hne hempty
    · rw [update_of_ne heq, update_of_ne heq]
      exact hentry digest'
  · rw [if_neg fun hand => hempty (head?_eq_none_iff.mp hand.2)]
    refine ⟨_, _, rfl, _, hrep, fun digest' => ?_, hmem'⟩
    by_cases heq : digest' = digest
    · rw [heq, update_self]
      exact iff_of_true hhas hempty
    · rw [update_of_ne heq]
      exact hentry digest'

/-! ### The invariant of the lists -/

/-- A channel should be in the list of the active channels. -/
def RegChannel.isActive (chan : RegChannel) : Bool := chan.registered && !chan.state.isFinished

/-- A channel should be in the list of the finished channels. -/
def RegChannel.isFinished (chan : RegChannel) : Bool := chan.registered && chan.state.isFinished

/-- A list has exactly the channels with a property, and each of them once. -/
def ListsExactly (l : List ι) (chan : ι → RegChannel) (p : RegChannel → Bool) : Prop :=
  ∀ c, l.count c = if p (chan c) then 1 else 0

/-- Every channel is where it should be. -/
structure ChannelLists.Ok (s : ChannelLists ι) : Prop where
  all : ListsExactly s.allChannels s.chan RegChannel.registered
  active : ListsExactly s.activeChannels s.chan RegChannel.isActive
  finished : ListsExactly s.finishedChannels s.chan RegChannel.isFinished
  map : MapOk s.hasEntry s.idLists fun c => (s.chan c).key

section Lists

variable {l : List ι} {chan : ι → RegChannel} {p : RegChannel → Bool} {c : ι} {new : RegChannel}

lemma ListsExactly.keep (h : ListsExactly l chan p) (heq : p new = p (chan c)) :
    ListsExactly l (update chan c new) p := by
  intro x
  rw [h x]
  by_cases hx : x = c
  · rw [hx, update_self, heq]
  · rw [update_of_ne hx]

lemma ListsExactly.add (h : ListsExactly l chan p) (hold : p (chan c) = false)
    (hnew : p new = true) : ListsExactly (l ++ [c]) (update chan c new) p := by
  intro x
  rw [count_append, h x, count_singleton]
  by_cases hx : x = c
  · rw [hx, update_self, hold, hnew, beq_self_eq_true]
    rfl
  · rw [update_of_ne hx, beq_false_of_ne (Ne.symm hx)]
    rfl

lemma ListsExactly.remove (h : ListsExactly l chan p) (hnew : p new = false) :
    ListsExactly (smartlistRemove l c) (update chan c new) p := by
  intro x
  rw [count_smartlistRemove, h x]
  by_cases hx : x = c
  · rw [hx, update_self, hnew, if_pos rfl]
    rfl
  · rw [if_neg hx, update_of_ne hx]

lemma MapOk.set {hasEntry : IdentityDigest → Bool} {idLists : Heap IdentityDigest ι}
    {key : ι → Option IdentityDigest} (h : MapOk hasEntry idLists key) (hkey : key c = new.key)
    (hother : ∀ x, x ≠ c → key x = (chan x).key) : MapOk hasEntry idLists fun x =>
      (update chan c new x).key := by
  convert h using 2 with x
  by_cases hx : x = c
  · rw [hx, update_self, hkey]
  · rw [update_of_ne hx, hother x hx]

end Lists

lemma RegChannel.key_eq (chan : RegChannel) :
    chan.key = if chan.state.isCondemned = false ∧ chan.registered = true ∧
    chan.identityDigest ≠ 0 then
      some chan.identityDigest else none := by
  rw [RegChannel.key, RegChannel.inDigestMap]
  simp only [Bool.and_eq_true, Bool.not_eq_true', decide_eq_true_eq, and_assoc]

open RegChannel (inDigestMap isActive isFinished key key_eq registered)

lemma RegChannel.inDigestMap_iff (chan : RegChannel) :
    chan.inDigestMap = true ↔
      chan.state.isCondemned = false ∧ chan.registered = true ∧ chan.identityDigest ≠ 0 := by
  rw [inDigestMap]
  simp only [Bool.and_eq_true, Bool.not_eq_true', decide_eq_true_eq, and_assoc]

lemma ChannelState.isCondemned_iff (state : ChannelState) :
    state.isCondemned = true ↔ state.isFinished = true ∨ state = .closing := by
  cases state <;> decide

/-- At the start, no channel is in any list. -/
lemma ChannelLists.ok_init (state : ι → ChannelState) (digest : ι → IdentityDigest) :
    (ChannelLists.init state digest).Ok := by
  refine ⟨fun c => rfl, fun c => rfl, fun c => rfl, fun _ => [], ⟨fun _ => rfl, fun _ => .nil, ?_⟩,
    ?_, fun c d => ?_⟩
  · exact fun h _ => absurd h not_mem_nil
  · exact fun d => iff_of_false Bool.false_ne_true fun h => h rfl
  · refine iff_of_false not_mem_nil ?_
    dsimp only
    rw [key_eq, if_neg fun hand => Bool.false_ne_true hand.2.1]
    exact nofun

/-! ### What the calls keep -/

variable {s : ChannelLists ι}

/-- **Registering a channel** keeps every channel where it should be. -/
lemma exists_channelRegister (h : s.Ok) (c : ι) : ∃ s', channelRegister s c = some s' ∧ s'.Ok := by
  rw [channelRegister]
  by_cases hreg : (s.chan c).registered = true
  · exact ⟨s, if_pos hreg, h⟩
  · rw [Bool.not_eq_true] at hreg
    dsimp only
    rw [hreg, if_neg Bool.false_ne_true]
    have hkey : (s.chan c).key = none := by
      rw [key_eq, hreg, if_neg fun hand => Bool.false_ne_true hand.2.1]
    by_cases hfinished : (s.chan c).state.isFinished = true
    · rw [if_pos hfinished]
      refine ⟨_, rfl, h.all.add hreg rfl, h.active.keep ?_,
        h.finished.add ?_ ?_, h.map.set ?_ fun _ _ => rfl⟩
      · rw [isActive, isActive, hreg, hfinished]
        rfl
      · rw [isFinished, hreg]
        rfl
      · exact hfinished
      · have hcondemned := (ChannelState.isCondemned_iff _).mpr (.inl hfinished)
        rw [hkey, key_eq, if_neg fun hand => Bool.false_ne_true (hand.1.symm.trans hcondemned)]
    · rw [if_neg hfinished]
      rw [Bool.not_eq_true] at hfinished
      have hactive : ListsExactly (s.activeChannels ++ [c])
          (update s.chan c { s.chan c with registered := true }) isActive := by
        refine h.active.add ?_ ?_
        · rw [isActive, hreg]
          rfl
        · rw [isActive, hfinished]
          rfl
      have hfin : ListsExactly s.finishedChannels
          (update s.chan c { s.chan c with registered := true }) isFinished := by
        refine h.finished.keep ?_
        rw [isFinished, isFinished, hreg, hfinished]
        rfl
      by_cases hmap : (s.chan c).state ≠ .closing ∧ (s.chan c).identityDigest ≠ 0
      · rw [if_pos hmap]
        have hstate : (s.chan c).state.isCondemned = false := by
          rw [← Bool.not_eq_true, ChannelState.isCondemned_iff, hfinished]
          exact fun hor => hmap.1 (hor.resolve_left Bool.false_ne_true)
        obtain ⟨hasEntry, idLists, hadd, hok⟩ := exists_channelAddToDigestMap
          (s := { s with
            allChannels := s.allChannels ++ [c], activeChannels := s.activeChannels ++ [c] })
          h.map hkey hstate hmap.2
        rw [hadd]
        refine ⟨_, rfl, h.all.add hreg rfl, hactive, hfin, hok.set ?_ fun x hx =>
          update_of_ne hx _ _⟩
        rw [update_self, key_eq, if_pos ⟨hstate, rfl, hmap.2⟩]
      · rw [if_neg hmap]
        refine ⟨_, rfl, h.all.add hreg rfl, hactive, hfin, h.map.set ?_ fun _ _ => rfl⟩
        rw [hkey, key_eq, if_neg]
        rintro ⟨hstate, -, hdigest⟩
        refine hmap ⟨fun hclosing => ?_, hdigest⟩
        exact Bool.false_ne_true
          (hstate.symm.trans ((ChannelState.isCondemned_iff _).mpr (.inr hclosing)))

/-- **Unregistering a channel** keeps every channel where it should be. -/
lemma exists_channelUnregister (h : s.Ok) (c : ι) :
    ∃ s', channelUnregister s c = some s' ∧ s'.Ok := by
  rw [channelUnregister]
  by_cases hreg : (s.chan c).registered = false
  · exact ⟨s, if_pos hreg, h⟩
  · dsimp only
    rw [if_neg hreg]
    rw [Bool.not_eq_false] at hreg
    have hall : ListsExactly (smartlistRemove s.allChannels c)
        (update s.chan c { s.chan c with registered := false }) registered := h.all.remove rfl
    -- the channel leaves the list in which it is
    obtain ⟨active, finished, hlists, hactive, hfinished⟩ : ∃ active finished,
        (if (s.chan c).state.isFinished then
          { s with finishedChannels := smartlistRemove s.finishedChannels c }
          else { s with activeChannels := smartlistRemove s.activeChannels c }) =
            { s with activeChannels := active, finishedChannels := finished } ∧
        ListsExactly active (update s.chan c { s.chan c with registered := false }) isActive ∧
        ListsExactly finished (update s.chan c { s.chan c with registered := false })
          isFinished := by
      by_cases hstate : (s.chan c).state.isFinished = true
      · refine ⟨_, _, if_pos hstate, h.active.keep ?_, h.finished.remove rfl⟩
        rw [isActive, isActive, hstate, Bool.not_true, Bool.and_false, Bool.and_false]
      · refine ⟨_, _, if_neg hstate, h.active.remove rfl, h.finished.keep ?_⟩
        rw [Bool.not_eq_true] at hstate
        rw [isFinished, isFinished, hstate, Bool.and_false, Bool.and_false]
    rw [hlists]
    have hnewkey : ({ s.chan c with registered := false } : RegChannel).key = none := by
      rw [key_eq, if_neg fun hand => Bool.false_ne_true hand.2.1]
    split
    · next hmap =>
      have hkey : (s.chan c).key = some (s.chan c).identityDigest := by
        rw [key_eq, if_pos ⟨hmap.2, hreg, hmap.1⟩]
      obtain ⟨hasEntry, idLists, hremove, hok⟩ := exists_channelRemoveFromDigestMap
        (s := (ChannelLists.mk s.chan (smartlistRemove s.allChannels c) active finished s.hasEntry
          s.idLists).set c
          { s.chan c with registered := false }) (c := c) h.map
        (by
          rw [ChannelLists.set, hkey]
          dsimp only
          rw [update_self])
        (by
          rw [ChannelLists.set]
          dsimp only
          rw [update_self]
          exact hmap.1)
      refine ⟨_, hremove, hall, hactive, hfinished, hok.set ?_ fun x hx => update_of_ne hx _ _⟩
      rw [update_self, hnewkey]
    · next hmap =>
      refine ⟨_, rfl, hall, hactive, hfinished, h.map.set ?_ fun _ _ => rfl⟩
      rw [hnewkey, key_eq, if_neg fun hand => hmap ⟨hand.2.2, hand.1⟩]

/-- **Changing the state of a channel** keeps every channel where it should be. -/
lemma exists_channelListsChangeState (h : s.Ok) (c : ι) {toState : ChannelState}
    (hpermitted : channelStateCanTransition (s.chan c).state toState = true) :
    ∃ s', channelListsChangeState s c toState = some s' ∧ s'.Ok := by
  rw [channelListsChangeState]
  dsimp only
  rw [hpermitted, if_neg (Ne.symm Bool.false_ne_true)]
  by_cases hsame : (s.chan c).state = toState
  · exact ⟨s, if_pos hsame, h⟩
  · rw [if_neg hsame]
    generalize hnew : { s.chan c with state := toState } = new
    have hnewreg : new.registered = (s.chan c).registered := hnew ▸ rfl
    have hnewstate : new.state = toState := hnew ▸ rfl
    have hnewdigest : new.identityDigest = (s.chan c).identityDigest := hnew ▸ rfl
    have hall : ListsExactly s.allChannels (update s.chan c new) registered := h.all.keep hnewreg
    by_cases hreg : (s.chan c).registered = false
    · rw [if_pos hreg]
      refine ⟨_, rfl, hall, h.active.keep ?_, h.finished.keep ?_, h.map.set ?_ fun _ _ => rfl⟩
      · rw [isActive, isActive, hnewreg, hreg, Bool.false_and, Bool.false_and]
      · rw [isFinished, isFinished, hnewreg, hreg, Bool.false_and, Bool.false_and]
      · rw [key_eq, key_eq, hnewreg, hreg, if_neg fun hand => Bool.false_ne_true hand.2.1,
          if_neg fun hand => Bool.false_ne_true hand.2.1]
    · rw [if_neg hreg]
      rw [Bool.not_eq_false] at hreg
      -- the channel moves from one list to the other if it has to
      obtain ⟨active, finished, hlists, hactive, hfinished⟩ : ∃ active finished,
          (if (!(s.chan c).state.isFinished && !!toState.isFinished) = true then
              { s.set c new with
                activeChannels := smartlistRemove (s.set c new).activeChannels c
                finishedChannels := (s.set c new).finishedChannels ++ [c] }
            else if (!!(s.chan c).state.isFinished && !toState.isFinished) = true then
              { s.set c new with
                finishedChannels := smartlistRemove (s.set c new).finishedChannels c
                activeChannels := (s.set c new).activeChannels ++ [c] }
            else s.set c new) = { s.set c new with activeChannels := active, finishedChannels :=
              finished } ∧
          ListsExactly active (update s.chan c new) isActive ∧
          ListsExactly finished (update s.chan c new) isFinished := by
        have hactive (state : ChannelState) (chan : RegChannel) (hreg : chan.registered = true)
            (hstate : chan.state = state) : chan.isActive = !state.isFinished := by
          rw [isActive, hreg, hstate, Bool.true_and]
        have hfinished (state : ChannelState) (chan : RegChannel) (hreg : chan.registered = true)
            (hstate : chan.state = state) : chan.isFinished = state.isFinished := by
          rw [isFinished, hreg, hstate, Bool.true_and]
        have hold := hactive _ _ hreg rfl
        have hold' := hfinished _ _ hreg rfl
        have hnow := hactive _ _ (hnewreg.trans hreg) hnewstate
        have hnow' := hfinished _ _ (hnewreg.trans hreg) hnewstate
        cases hfrom : (s.chan c).state.isFinished <;> cases hto : toState.isFinished <;>
          rw [hfrom] at hold hold' <;> rw [hto] at hnow hnow'
        · exact ⟨_, _, rfl, h.active.keep (hnow.trans hold.symm),
            h.finished.keep (hnow'.trans hold'.symm)⟩
        · exact ⟨_, _, rfl, h.active.remove hnow, h.finished.add hold' hnow'⟩
        · exact ⟨_, _, rfl, h.active.add hold hnow, h.finished.remove hnow'⟩
        · exact ⟨_, _, rfl, h.active.keep (hnow.trans hold.symm),
            h.finished.keep (hnow'.trans hold'.symm)⟩
      rw [hlists]
      have hkey_new : new.key = if toState.isCondemned = false ∧ (s.chan c).identityDigest ≠ 0 then
          some (s.chan c).identityDigest else none := by
        rw [key_eq, hnewstate, hnewreg, hnewdigest, hreg]
        simp only [true_and]
      have hkey_old : (s.chan c).key = if (s.chan c).state.isCondemned = false ∧
          (s.chan c).identityDigest ≠ 0 then
          some (s.chan c).identityDigest else none := by
        rw [key_eq, hreg]
        simp only [true_and]
      have hself := s.set_chan_self c new
      by_cases hdigest : (s.chan c).identityDigest = 0
      · rw [if_pos hdigest]
        refine ⟨_, rfl, hall, hactive, hfinished, h.map.set ?_ fun _ _ => rfl⟩
        rw [hkey_new, hkey_old, if_neg fun hand => hand.2 hdigest, if_neg fun hand =>
          hand.2 hdigest]
      · rw [if_neg hdigest]
        cases hfrom : (s.chan c).state.isCondemned <;> cases hto : toState.isCondemned
        · refine ⟨_, rfl, hall, hactive, hfinished, h.map.set ?_ fun _ _ => rfl⟩
          rw [hkey_new, hkey_old, hfrom, hto]
        · -- the channel leaves the map
          obtain ⟨hasEntry, idLists, hremove, hok⟩ := exists_channelRemoveFromDigestMap
            (s := { s.set c new with activeChannels := active, finishedChannels := finished })
            (c := c) h.map (by rw [hself, hnewdigest, hkey_old, if_pos ⟨hfrom, hdigest⟩])
            (by rw [hself, hnewdigest]; exact hdigest)
          refine ⟨_, hremove, hall, hactive, hfinished, hok.set ?_ fun x hx => update_of_ne hx _ _⟩
          rw [update_self, hkey_new, hto, if_neg fun hand => Bool.false_ne_true hand.1.symm]
        · -- the channel enters the map
          obtain ⟨hasEntry, idLists, hadd, hok⟩ := exists_channelAddToDigestMap
            (s := { s.set c new with activeChannels := active, finishedChannels := finished })
            (c := c) h.map
              (by rw [hkey_old, hfrom, if_neg fun hand => Bool.false_ne_true hand.1.symm])
            (by rw [hself, hnewstate]; exact hto)
            (by rw [hself, hnewdigest]; exact hdigest)
          refine ⟨_, hadd, hall, hactive, hfinished, hok.set ?_ fun x hx => update_of_ne hx _ _⟩
          rw [update_self, hself, hnewdigest, hkey_new, if_pos ⟨hto, hdigest⟩]
        · refine ⟨_, rfl, hall, hactive, hfinished, h.map.set ?_ fun _ _ => rfl⟩
          rw [hkey_new, hkey_old, hfrom, hto]

/-- Taking a channel out of the map if it is there. -/
lemma exists_leaveDigestMap (h : s.Ok) (c : ι) :
    ∃ hasEntry idLists,
      (if (s.chan c).inDigestMap = true then channelRemoveFromDigestMap s c else some s) =
        some { s with hasEntry := hasEntry, idLists := idLists } ∧
      MapOk hasEntry idLists (update (fun c => (s.chan c).key) c none) := by
  by_cases hin : (s.chan c).inDigestMap = true
  · rw [if_pos hin]
    have hin' := (RegChannel.inDigestMap_iff _).mp hin
    exact exists_channelRemoveFromDigestMap h.map (by rw [key, if_pos hin]) hin'.2.2
  · rw [if_neg hin]
    refine ⟨_, _, rfl, ?_⟩
    rw [update_eq_self_iff.mpr (by rw [key, if_neg hin])]
    exact h.map

lemma ChannelLists.Ok.relabel (h : s.Ok) (c : ι) {new : RegChannel}
    (hreg : new.registered = (s.chan c).registered) (hstate : new.state = (s.chan c).state)
    {hasEntry : IdentityDigest → Bool} {idLists : Heap IdentityDigest ι}
    (hmap : MapOk hasEntry idLists key) (hkey : key c = new.key)
    (hother : ∀ x, x ≠ c → key x = (s.chan x).key) :
    { s.set c new with hasEntry := hasEntry, idLists := idLists : ChannelLists ι }.Ok := by
  refine ⟨h.all.keep hreg, h.active.keep ?_, h.finished.keep ?_, hmap.set hkey hother⟩
  · rw [isActive, isActive, hreg, hstate]
  · rw [isFinished, isFinished, hreg, hstate]

/-- **Clearing the digest of a channel** keeps every channel where it should be. -/
lemma exists_clear (h : s.Ok) (c : ι) {f : RegChannel → RegChannel}
    (hreg : (f (s.chan c)).registered = (s.chan c).registered)
    (hstate : (f (s.chan c)).state = (s.chan c).state)
    (hdigest : (f (s.chan c)).identityDigest = 0) :
    ∃ s', ((if (s.chan c).inDigestMap then channelRemoveFromDigestMap s c else some s).map fun s =>
      s.set c (f (s.chan c))) = some s' ∧ s'.Ok := by
  obtain ⟨hasEntry, idLists, hleave, hok⟩ := exists_leaveDigestMap h c
  rw [hleave]
  refine ⟨_, rfl, h.relabel c hreg hstate hok ?_ fun x hx => update_of_ne hx _ _⟩
  rw [update_self, key_eq, if_neg fun hand => hand.2.2 hdigest]

/-- **Setting the digest of a channel** keeps every channel where it should be. -/
lemma exists_setRemote (h : s.Ok) (c : ι) (identityDigest : Option IdentityDigest)
    (rename : Option String → Option String) :
    ∃ s', setRemote s c identityDigest rename = some s' ∧ s'.Ok := by
  obtain ⟨hasEntry, idLists, hleave, hok⟩ := exists_leaveDigestMap h c
  rw [setRemote]
  dsimp only
  rw [hleave, bind_some]
  generalize hnew : ({ s.chan c with
    identityDigest := identityDigest.getD 0, nickname := rename (s.chan c).nickname } :
      RegChannel) = new
  have hnewreg : new.registered = (s.chan c).registered := hnew ▸ rfl
  have hnewstate : new.state = (s.chan c).state := hnew ▸ rfl
  have hnewdigest : new.identityDigest = identityDigest.getD 0 := hnew ▸ rfl
  have hshould : (!(s.chan c).state.isCondemned && (s.chan c).registered &&
      identityDigest.any fun digest => decide (digest ≠ 0)) = new.inDigestMap := by
    rw [inDigestMap, hnewreg, hnewstate, hnewdigest]
    cases identityDigest <;> rfl
  rw [hshould]
  have hself := s.set_chan_self c new
  by_cases hin : new.inDigestMap = true
  · have hin' := (RegChannel.inDigestMap_iff _).mp hin
    obtain ⟨hasEntry', idLists', hadd, hok'⟩ := exists_channelAddToDigestMap
      (s := { s.set c new with hasEntry := hasEntry, idLists := idLists }) (c := c) hok
        (update_self c _ _)
      (by rw [hself]; exact hin'.1) (by rw [hself]; exact hin'.2.2)
    refine ⟨_, (if_pos hin).trans hadd, h.relabel c hnewreg hnewstate hok' ?_ fun x hx => ?_⟩
    · rw [update_self, hself, key, if_pos hin]
    · rw [update_of_ne hx, update_of_ne hx]
  · refine ⟨_, if_neg hin, h.relabel c hnewreg hnewstate hok ?_ fun x hx => update_of_ne hx _ _⟩
    rw [update_self, key, if_neg hin]

/-! ### Runs -/

/-- Every call keeps every channel where it should be. -/
lemma exists_registryStep (h : s.Ok) {call : RegistryCall ι} (hpermits : s.Permits call) :
    ∃ s', registryStep s call = some s' ∧ s'.Ok := by
  cases call with
  | register c => exact exists_channelRegister h c
  | unregister c => exact exists_channelUnregister h c
  | changeState c toState => exact exists_channelListsChangeState h c hpermits
  | clearIdentityDigest c =>
    exact exists_clear h c (f := fun chan => { chan with identityDigest := 0 }) rfl rfl rfl
  | setIdentityDigest c digest => exact exists_setRemote h c digest id
  | clearRemoteEnd c =>
    exact exists_clear h c (f := fun chan => { chan with identityDigest := 0, nickname := none })
      rfl rfl rfl
  | setRemoteEnd c digest nickname => exact exists_setRemote h c digest fun _ => nickname

/-- **Every channel is where it should be.**  In every run of the calls, with changes of state that
the channels can make, no assertion fails and no list is destroyed.  A channel is in the list of all
channels if it is registered, and then in that of the active or of the finished ones.  It is in the
list of its digest in the identity map, and in no other, if besides it has a digest and is not
closing; the map has no empty lists. -/
theorem channelLists_ok (state : ι → ChannelState) (digest : ι → IdentityDigest)
    {calls : List (RegistryCall ι)}
    (hpermits :
      Runs.MeetsAlong registryStep ChannelLists.Permits calls (ChannelLists.init state digest)) :
        ∃ s lists, calls.foldlM registryStep (ChannelLists.init state digest) = some s ∧
      s.idLists.Represents lists ∧
      (∀ d, s.hasEntry d = true ↔ lists d ≠ []) ∧
      ∀ c,
        s.allChannels.count c = (if (s.chan c).registered then 1 else 0) ∧
        s.activeChannels.count c = (if (s.chan c).registered ∧
          (s.chan c).state ≠ .closed ∧ (s.chan c).state ≠ .error then 1 else 0) ∧
        s.finishedChannels.count c = (if (s.chan c).registered ∧
          ((s.chan c).state = .closed ∨ (s.chan c).state = .error) then 1 else 0) ∧
        ∀ d, (lists d).count c = if (s.chan c).registered ∧ (s.chan c).identityDigest = d ∧ d ≠ 0 ∧
          (s.chan c).state ≠ .closing ∧ (s.chan c).state ≠ .closed ∧
          (s.chan c).state ≠ .error then 1 else 0 := by
  obtain ⟨s, hrun, hok⟩ := hpermits.exists_foldlM (P := ChannelLists.Ok)
    (fun s call h hpermits => exists_registryStep h hpermits) (ChannelLists.ok_init state digest)
  obtain ⟨lists, hlists, hentry, hmem⟩ := hok.map
  refine ⟨s, lists, hrun, hlists, hentry, fun c => ⟨hok.all c, ?_, ?_, fun d => ?_⟩⟩
  · rw [hok.active c, RegChannel.isActive, ChannelState.isFinished]
    simp only [Bool.and_eq_true, Bool.not_eq_true', decide_eq_false_iff_not, not_or, ne_eq]
  · rw [hok.finished c, RegChannel.isFinished, ChannelState.isFinished]
    simp only [Bool.and_eq_true, decide_eq_true_eq]
  · have hiff : c ∈ lists d ↔ (s.chan c).registered ∧ (s.chan c).identityDigest = d ∧ d ≠ 0 ∧
        (s.chan c).state ≠ .closing ∧ (s.chan c).state ≠ .closed ∧ (s.chan c).state ≠ .error := by
      have hcondemned : (s.chan c).state.isCondemned = false ↔
          (s.chan c).state ≠ .closing ∧ (s.chan c).state ≠ .closed ∧ (s.chan c).state ≠ .error := by
        rw [ChannelState.isCondemned, decide_eq_false_iff_not, not_or, not_or]
      rw [hmem]
      dsimp only
      rw [RegChannel.key_eq]
      constructor
      · intro hsome
        split at hsome
        · next hand =>
          obtain rfl := Option.some.inj hsome
          exact ⟨hand.2.1, rfl, hand.2.2, hcondemned.mp hand.1⟩
        · cases hsome
      · rintro ⟨hreg, rfl, hne, hstate⟩
        exact if_pos ⟨hcondemned.mpr hstate, hreg, hne⟩
    split
    · next hand => exact count_eq_one_of_mem (hlists.nodup d) (hiff.mpr hand)
    · next hand => exact count_eq_zero_of_not_mem fun hin => hand (hiff.mp hin)

/-- Two channels to a relay: one of them closes, and the other gets another digest. -/
def twoChannelCalls : List (RegistryCall Bool) :=
  [.register false, .register true, .setIdentityDigest false (some 7),
    .setRemoteEnd true (some 7) (some "relay"),
    .changeState false .open, .changeState false .closing, .setIdentityDigest true (some 9),
    .changeState false .closed, .clearRemoteEnd false, .unregister false]

/-- What the calls leave: only the other channel, under its digest. -/
theorem channelLists_ok_twoChannels :
    ∃ s lists, twoChannelCalls.foldlM registryStep (ChannelLists.init (fun _ => .opening) fun _ =>
      0) = some s ∧
      s.idLists.Represents lists ∧ s.allChannels.count true = 1 ∧ s.allChannels.count false = 0 ∧
      (lists 9).count true = 1 ∧ (lists 7).count true = 0 := by
  have hpermits : Runs.MeetsAlong registryStep ChannelLists.Permits twoChannelCalls
      (ChannelLists.init (fun _ => .opening) fun _ => 0) := by decide +kernel
  obtain ⟨s, lists, hrun, hlists, -, hcounts⟩ := channelLists_ok _ _ hpermits
  have hchans :
      (twoChannelCalls.foldlM registryStep (ChannelLists.init (fun _ => .opening) fun _ => 0)).map
        (fun s => (s.chan true, s.chan false)) =
          some (⟨.opening, true, 9, some "relay"⟩, ⟨.closed, false, 0, none⟩) := by decide +kernel
  rw [hrun] at hchans
  obtain ⟨htrue, hfalse⟩ := Prod.mk.inj (Option.some.inj hchans)
  have hcount := hcounts true
  have hcount' := hcounts false
  rw [htrue] at hcount
  rw [hfalse] at hcount'
  exact ⟨s, lists, hrun, hlists, hcount.1, hcount'.1, hcount.2.2.2 9, hcount.2.2.2 7⟩

end Astoria
