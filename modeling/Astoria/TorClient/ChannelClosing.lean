import Astoria.TorClient.ChannelQueueRuns

/-!
# Closing a channel

The lower layer reports that it closes a channel, with or without an error, and later that it has
finished.  The channel is closed then, and assertions demand that nothing is left in its queues.  No
function empties the queues on the way: the assertions hold if and only if nothing was ever left
over.
-/

namespace Astoria

open Function
open Outcomes

inductive CloseReason
  | requested
  | fromBelow
  | forError
  deriving DecidableEq

/-- The channels, with the cells that have come in and are not handled yet, and with the reasons for
closing. -/
structure ClosingChannels (ι α : Type*) where
  channels : Channels ι α
  incomingQueue : ι → List (CellQueueEntry α)
  reasonForClosing : ι → Option CloseReason

/-- The assertions that can fail when a channel is closed. -/
inductive CloseAbort
  /-- One of those about the channels. -/
  | channel (abort : ChannelAbort)
  /-- A channel is closing or finished without a reason. -/
  | noReason
  /-- A channel is finished that has cells in its incoming queue. -/
  | incomingQueueEmpty
  /-- The lower layer has finished closing a channel that was not closing. -/
  | condemned

section Operations

variable {ι α : Type*} [DecidableEq ι]

/-- Change the state of a channel to one in which it is closing or finished. -/
def changeClosingState (s : ClosingChannels ι α) (c : ι) (toState : ChannelState) :
    Except CloseAbort (ClosingChannels ι α) :=
  if ¬ channelStateCanTransition (s.channels.chan c).state toState then
    .error (.channel .canTransition)
  else if toState.isCondemned ∧ s.reasonForClosing c = none then .error .noReason
  else if toState.isFinished ∧ s.incomingQueue c ≠ [] then .error .incomingQueueEmpty
  else match channelChangeState .ok s.channels c toState with
    | .error abort => .error (.channel abort)
    | .ok channels => .ok { s with channels := channels }

/-- The lower layer closes a channel for a reason, unless the channel is closing already. -/
def closeFromBelow (reason : CloseReason) (s : ClosingChannels ι α) (c : ι) :
    Except CloseAbort (ClosingChannels ι α) :=
  if (s.channels.chan c).state.isCondemned then .ok s
  else
    changeClosingState
      { s with reasonForClosing := update s.reasonForClosing c (some reason) } c .closing

def channelCloseFromLowerLayer (s : ClosingChannels ι α) (c : ι) :
    Except CloseAbort (ClosingChannels ι α) :=
  closeFromBelow .fromBelow s c

/-- The lower layer closes a channel because of an error. -/
def channelCloseForError (s : ClosingChannels ι α) (c : ι) :
    Except CloseAbort (ClosingChannels ι α) :=
  closeFromBelow .forError s c

/-- The lower layer has finished closing a channel. -/
def channelClosed (s : ClosingChannels ι α) (c : ι) : Except CloseAbort (ClosingChannels ι α) :=
  if ¬ (s.channels.chan c).state.isCondemned then .error .condemned
  else if (s.channels.chan c).state.isFinished then .ok s
  else
    changeClosingState s c (if s.reasonForClosing c ≠ some .forError then .closed else .error)

end Operations

/-- The assertions about the queues of a finished channel have not failed. -/
def QueuesWereEmpty {ι α : Type*} (x : Except CloseAbort (ClosingChannels ι α)) : Prop :=
  x ≠ .error .incomingQueueEmpty ∧ x ≠ .error (.channel .queueEmpty)

section Closing

variable {ι α : Type*} [DecidableEq ι] {s : ClosingChannels ι α} {c : ι}

lemma setChannelState_chan (s : Channels ι α) (c : ι) (toState : ChannelState) :
    (setChannelState s c toState).chan c = { s.chan c with state := toState } := by
  unfold setChannelState
  dsimp only
  split_ifs <;> exact s.set_chan_self c _

lemma queuesWereEmpty_changeClosingState (hstate : (s.channels.chan c).state = .closing)
    (hreason : s.reasonForClosing c ≠ none) {toState : ChannelState} (hto : toState.isFinished) :
    QueuesWereEmpty (changeClosingState s c toState) ↔
      s.incomingQueue c = [] ∧ (s.channels.chan c).outgoingQueue = [] := by
  have hcan : channelStateCanTransition (s.channels.chan c).state toState = true := by
    rw [hstate]
    exact hto
  have hopen : toState ≠ .open := by
    rintro rfl
    exact absurd hto (by decide)
  have hfinished : toState = .closed ∨ toState = .error := of_decide_eq_true hto
  have hchange : channelChangeState .ok s.channels c toState =
      if (s.channels.chan c).outgoingQueue = [] then .ok (setChannelState s.channels c toState)
      else .error .queueEmpty := by
    unfold channelChangeState
    dsimp only
    rw [if_pos hcan, if_neg hopen, if_pos hfinished, setChannelState_chan]
  unfold changeClosingState
  rw [if_neg (not_not.mpr hcan), if_neg fun h => hreason h.2, hchange]
  by_cases hincoming : s.incomingQueue c = []
  · rw [if_neg fun h => h.2 hincoming]
    by_cases hqueue : (s.channels.chan c).outgoingQueue = []
    · rw [if_pos hqueue]
      exact ⟨fun _ => ⟨hincoming, hqueue⟩, fun _ => ⟨nofun, nofun⟩⟩
    · rw [if_neg hqueue]
      exact ⟨fun h => absurd rfl h.2, fun h => absurd h.2 hqueue⟩
  · rw [if_pos ⟨hto, hincoming⟩]
    exact ⟨fun h => absurd rfl h.1, fun h => absurd h.1 hincoming⟩

lemma queuesWereEmpty_channelClosed (hstate : (s.channels.chan c).state = .closing)
    (hreason : s.reasonForClosing c ≠ none) :
    QueuesWereEmpty (channelClosed s c) ↔
      s.incomingQueue c = [] ∧ (s.channels.chan c).outgoingQueue = [] := by
  unfold channelClosed
  rw [hstate, if_neg (by decide), if_neg (by decide)]
  refine queuesWereEmpty_changeClosingState hstate hreason ?_
  split_ifs <;> rfl

/-- The lower layer closes a channel and has finished. -/
lemma queuesWereEmpty_close (reason : CloseReason)
    (hreason : (s.channels.chan c).state = .closing → s.reasonForClosing c ≠ none) :
    QueuesWereEmpty (closeFromBelow reason s c >>= fun s => channelClosed s c) ↔
      (s.channels.chan c).state.isFinished ∨
        s.incomingQueue c = [] ∧ (s.channels.chan c).outgoingQueue = [] := by
  by_cases hcondemned : (s.channels.chan c).state.isCondemned
  · have hclose : closeFromBelow reason s c = .ok s := if_pos hcondemned
    rw [hclose]
    show QueuesWereEmpty (channelClosed s c) ↔ _
    by_cases hfinished : (s.channels.chan c).state.isFinished
    · unfold channelClosed
      rw [if_neg (not_not.mpr hcondemned), if_pos hfinished]
      exact ⟨fun _ => .inl hfinished, fun _ => ⟨nofun, nofun⟩⟩
    · have hstate : (s.channels.chan c).state = .closing := by
        revert hcondemned hfinished
        cases (s.channels.chan c).state <;> decide
      rw [queuesWereEmpty_channelClosed hstate (hreason hstate), or_iff_right hfinished]
  · have hfinished : ¬ (s.channels.chan c).state.isFinished := by
      revert hcondemned
      cases (s.channels.chan c).state <;> decide
    have hcan : channelStateCanTransition (s.channels.chan c).state .closing = true := by
      revert hcondemned
      cases (s.channels.chan c).state <;> decide
    -- the channel is closing now, and its queues are as they were
    have hset : update s.reasonForClosing c (some reason) c ≠ none := by
      rw [update_self]
      exact Option.some_ne_none reason
    have hclose : closeFromBelow reason s c = .ok { s with
        channels := setChannelState s.channels c .closing
        reasonForClosing := update s.reasonForClosing c (some reason) } := by
      have hchange : channelChangeState .ok s.channels c .closing =
          .ok (setChannelState s.channels c .closing) := by
        unfold channelChangeState
        rw [if_pos hcan]
        rfl
      unfold closeFromBelow changeClosingState
      dsimp only
      rw [if_neg hcondemned, if_neg (not_not.mpr hcan),
        if_neg fun h => hset h.2,
        if_neg fun h => absurd h.1 (by decide), hchange]
    rw [hclose]
    show QueuesWereEmpty (channelClosed _ c) ↔ _
    rw [queuesWereEmpty_channelClosed, or_iff_right hfinished]
    · dsimp only
      rw [setChannelState_chan]
    · dsimp only
      rw [setChannelState_chan]
    · exact hset

/-- **Which channels can be closed.**  After every run of writes, answers of the lower layers and
changes of the states, the lower layer closes a channel, with or without an error, and has finished.
The assertions that the queues are empty hold if and only if the channel was finished before, or no
cell has come in that is not handled and the lower layer has taken all cells that were written. -/
theorem queuesWereEmpty_iff (wide : ι → Bool) (events : List (ChannelEvent ι α)) (s : Channels ι α)
    (hrun : channelSteps (Channels.init wide) events = .ok s)
    (incomingQueue : ι → List (CellQueueEntry α)) (reasonForClosing : ι → Option CloseReason)
    (c : ι) (hreason : (s.chan c).state = .closing → reasonForClosing c ≠ none) :
    (QueuesWereEmpty (channelCloseFromLowerLayer ⟨s, incomingQueue, reasonForClosing⟩ c >>=
        fun s => channelClosed s c) ↔
      (s.chan c).state.isFinished ∨ incomingQueue c = [] ∧ s.lowerLayer c = s.written c) ∧
    (QueuesWereEmpty (channelCloseForError ⟨s, incomingQueue, reasonForClosing⟩ c >>=
        fun s => channelClosed s c) ↔
      (s.chan c).state.isFinished ∨ incomingQueue c = [] ∧ s.lowerLayer c = s.written c) := by
  have hok := ok_channelSteps wide (Finset.Subset.refl (events.flatMap (·.chans)).toFinset)
  rw [hrun] at hok
  have hqueue : (s.chan c).outgoingQueue = [] ↔ s.lowerLayer c = s.written c := by
    rw [hok.order c]
    exact List.self_eq_append_right.symm
  rw [← hqueue]
  exact ⟨queuesWereEmpty_close .fromBelow hreason, queuesWereEmpty_close .forError hreason⟩

end Closing

/-- A channel is opened and a cell is written, which the lower layer takes or refuses. -/
def writtenOnce (answer : Bool) : List (ChannelEvent Unit Unit) :=
  [.changeState () .opening [], .changeState () .open [], .lowerLayer [answer] [],
    .call (.writeCell () ())]

/-- A channel whose lower layer has taken the cell is closed. -/
theorem queuesWereEmpty_writtenOnce : ∃ s,
    channelSteps (Channels.init fun _ => true) (writtenOnce true) = .ok s ∧
    QueuesWereEmpty (channelCloseFromLowerLayer ⟨s, fun _ => [], fun _ => none⟩ () >>=
      fun s => channelClosed s ()) :=
  ⟨_, rfl,
    (queuesWereEmpty_iff (fun _ => true) (writtenOnce true) _ rfl (fun _ => []) (fun _ => none) ()
    (fun h => absurd h (by decide))).1.mpr (Or.inr ⟨rfl, rfl⟩)⟩

/-- A channel whose lower layer has refused the cell is closed, and the program ends. -/
theorem not_queuesWereEmpty : ∃ s,
    channelSteps (Channels.init fun _ => true) (writtenOnce false) = .ok s ∧
    ¬ QueuesWereEmpty (channelCloseFromLowerLayer ⟨s, fun _ => [], fun _ => none⟩ () >>=
      fun s => channelClosed s ()) :=
  ⟨_, rfl, fun h => h.2 rfl⟩

end Astoria
