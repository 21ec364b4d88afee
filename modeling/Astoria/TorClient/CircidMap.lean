import Astoria.TorClient.Circuitmux

/-!
# The map from circuit identifiers to circuits

A circuit has a channel and an identifier on each of its two sides.  A table finds the circuit of a
channel and an identifier; a placeholder in it keeps an identifier from being used while a destroy
cell for it is pending.  The entry that was found last is remembered.

An entry is known by its address, so that the entry that is remembered may have left the table or
have been freed.  The circuits are numbered in the order in which they are created, and a freed one
leaves a gap. Functions yield `none` where an entry or a circuit is used that has been freed.  What
the functions do to the multiplexers of the channels is left out here.
-/

namespace Astoria

open Function

/-- A channel and an identifier of a circuit on it. -/
abbrev ChanCirc := ChanId × CircId

/-- An entry of the table (`chan_circid_circuit_map_t`). -/
structure ChanCircidEntry where
  chan : ChanId
  circId : CircId
  /-- The circuit, or nothing for a placeholder. -/
  circuit : Option ℕ
  madePlaceholderAt : ℕ
  deriving DecidableEq

/-- One side of a circuit: `n_chan`, `n_circ_id` and `n_delete_pending`, or those of `p_chan`. -/
structure CircidEnd where
  chan : Option ChanId
  circId : CircId
  deletePending : Bool
  deriving DecidableEq

/-- A circuit.  One that begins here has no side towards its origin. -/
structure CircidCircuit where
  n : CircidEnd
  p : Option CircidEnd
  markedForClose : Bool
  deriving DecidableEq

namespace CircidCircuit

/-- The side of a circuit in a direction. -/
def side (circ : CircidCircuit) : CellDirection → Option CircidEnd
  | .dirOut => some circ.n
  | .dirIn => circ.p

def setSide (circ : CircidCircuit) (d : CellDirection) (e : CircidEnd) : CircidCircuit :=
  match d with
  | .dirOut => { circ with n := e }
  | .dirIn => { circ with p := some e }

end CircidCircuit

/-- The table, the circuits and the channels. -/
structure CircidState where
  entries : List (Option ChanCircidEntry)
  /-- The addresses of the entries in the table (`chan_circid_map`). -/
  table : ChanCirc → Option ℕ
  /-- The entry that was found last (`_last_circid_chan_ent`). -/
  lastEnt : Option ℕ
  circs : List (Option CircidCircuit)
  /-- For each channel, `num_n_circuits` away from the origins and `num_p_circuits` towards them. -/
  numCircuits : CellDirection → ChanId → ℤ

namespace CircidState

def init : CircidState := ⟨[], fun _ => none, none, [], fun _ _ => 0⟩

def entry (s : CircidState) (a : ℕ) : Option ChanCircidEntry := s.entries[a]?.join

def circ (s : CircidState) (c : ℕ) : Option CircidCircuit := s.circs[c]?.join

/-- A new entry is put into the table. -/
def insertEntry (s : CircidState) (ent : ChanCircidEntry) : CircidState :=
  { s with
    entries := s.entries ++ [some ent]
    table := update s.table (ent.chan, ent.circId) (some s.entries.length) }

def setEntry (s : CircidState) (a : ℕ) (ent : ChanCircidEntry) : CircidState :=
  { s with entries := s.entries.set a (some ent) }

/-- What the table has for a channel and an identifier is removed from it. -/
def removeEntry (s : CircidState) (k : ChanCirc) : CircidState :=
  { s with table := update s.table k none }

def freeEntry (s : CircidState) (a : ℕ) : CircidState := { s with entries := s.entries.set a none }

def setSide (s : CircidState) (c : ℕ) (d : CellDirection) (e : CircidEnd) : CircidState :=
  { s with circs := s.circs.set c ((s.circ c).map (·.setSide d e)) }

/-- The number of circuits of a channel is changed. -/
def addCount (s : CircidState) (d : CellDirection) (chan : ChanId) (n : ℤ) : CircidState :=
  let num := update (s.numCircuits d) chan (s.numCircuits d chan + n)
  { s with numCircuits := update s.numCircuits d num }

/-- The side of a circuit that has not been freed. -/
def side (s : CircidState) (c : ℕ) (d : CellDirection) : Option CircidEnd :=
  (s.circ c).bind (·.side d)

end CircidState

/-! ### Setting the channels of circuits -/

/-- The entry that was found last is forgotten if it is for one of the two. -/
def forgetLastEnt (s : CircidState) (old new : Option ChanId × CircId) : Option CircidState :=
  match s.lastEnt with
  | none => some s
  | some a => do
    let ent ← s.entry a
    if old = (some ent.chan, ent.circId) ∨ new = (some ent.chan, ent.circId) then
      some { s with lastEnt := none }
    else some s

/-- The entry of a side is removed, if the side has a channel and there is an entry. -/
def removeOldEntry (s : CircidState) (d : CellDirection) (e : CircidEnd) : CircidState :=
  match e.chan with
  | none => s
  | some chan =>
    match s.table (chan, e.circId) with
    | none => s
    | some a => ((s.removeEntry (chan, e.circId)).freeEntry a).addCount d chan (-1)

/-- The entry for a channel and an identifier, or a new one, becomes that of a circuit. -/
def setEntryCircuit (s : CircidState) (c : ℕ) (k : ChanCirc) : Option CircidState :=
  match s.table k with
  | some a => do
    let ent ← s.entry a
    some (s.setEntry a { ent with circuit := some c, madePlaceholderAt := 0 })
  | none => some (s.insertEntry ⟨k.1, k.2, some c, 0⟩)

/-- A circuit is entered for a channel, if there is one, and an identifier. -/
def enterCircuit (s : CircidState) (c : ℕ) (d : CellDirection) (chan : Option ChanId)
    (id : CircId) :
    Option CircidState :=
  match chan with
  | none => some s
  | some chan => do
    let s ← setEntryCircuit s c (chan, id)
    some (s.addCount d chan 1)

/-- A side of a circuit gets a channel and an identifier, and the table is adjusted. -/
def circuitSetCircidChanHelper (s : CircidState) (c : ℕ) (d : CellDirection) (id : CircId)
    (chan : Option ChanId) : Option CircidState := do
  let e ← s.side c d
  if id = e.circId ∧ chan = e.chan then some s
  else do
    let s ← forgetLastEnt s (e.chan, e.circId) (chan, id)
    let s := (removeOldEntry s d e).setSide c d { e with chan := chan, circId := id }
    enterCircuit s c d chan id

/-- An identifier should not be used on a channel. -/
def channelMarkCircidUnusable (s : CircidState) (now : ℕ) (chan : ChanId) (id : CircId) :
    Option CircidState :=
  match s.table (chan, id) with
  | none => some (s.insertEntry ⟨chan, id, none, now⟩)
  | some a => do
    let ent ← s.entry a
    if ent.circuit.isSome then some s
    else if ent.madePlaceholderAt = 0 then some (s.setEntry a { ent with madePlaceholderAt := now })
    else some s

/-- An identifier can be used again on a channel.  An entry for a circuit leaves the table, too, and
it is not freed then. -/
def channelMarkCircidUsable (s : CircidState) (chan : ChanId) (id : CircId) : Option CircidState :=
  match s.table (chan, id) with
  | none => some s
  | some a => do
    let ent ← s.entry a
    let s := s.removeEntry (chan, id)
    if ent.circuit.isSome then some s
    else
      let s := if s.lastEnt = some a then { s with lastEnt := none } else s
      some (s.freeEntry a)

/-- A side of a circuit gets a channel and an identifier.  If a destroy cell is pending, the old
identifier is marked. -/
def circuitSetSide (s : CircidState) (now c : ℕ) (d : CellDirection) (id : CircId)
    (chan : Option ChanId) : Option CircidState := do
  let old ← s.side c d
  let s ← circuitSetCircidChanHelper s c d id chan
  let e ← s.side c d
  match old.chan with
  | none => some s
  | some oldChan =>
    if e.deletePending then do
      let s ← channelMarkCircidUnusable s now oldChan old.circId
      some (s.setSide c d { e with deletePending := false })
    else some s

/-- The channel of a circuit towards its origin is set. -/
def circuitSetPCircidChan (s : CircidState) (now c : ℕ) (id : CircId) (chan : Option ChanId) :
    Option CircidState :=
  circuitSetSide s now c .dirIn id chan

/-- The channel of a circuit away from its origin is set. -/
def circuitSetNCircidChan (s : CircidState) (now c : ℕ) (id : CircId) (chan : Option ChanId) :
    Option CircidState :=
  circuitSetSide s now c .dirOut id chan

/-! ### Looking circuits up -/

/-- The entry that was found last, if it is for a channel and an identifier. -/
def lastEntFor (s : CircidState) (k : ChanCirc) : Option (Option ℕ) :=
  match s.lastEnt with
  | none => some none
  | some a => do
    let ent ← s.entry a
    some (if k.2 = ent.circId ∧ k.1 = ent.chan then some a else none)

/-- What an entry says: the circuit, and whether there is an entry. -/
def entryFound (s : CircidState) : Option ℕ → Option (Option ℕ × Bool)
  | none => some (none, false)
  | some a => do
    let ent ← s.entry a
    some (ent.circuit, true)

/-- The circuit with a channel and an identifier, and whether there is an entry. -/
def circuitGetByCircidChannelImpl (s : CircidState) (id : CircId) (chan : ChanId) :
    Option (CircidState × Option ℕ × Bool) := do
  let last ← lastEntFor s (chan, id)
  let s := if last.isSome then s else { s with lastEnt := s.table (chan, id) }
  let found ← entryFound s (if last.isSome then last else s.table (chan, id))
  some (s, found)

/-- The circuit with a channel and an identifier, marked for close or not. -/
def circuitGetByCircidChannelEvenIfMarked (s : CircidState) (id : CircId) (chan : ChanId) :
    Option (CircidState × Option ℕ) := do
  let (s, circ, _) ← circuitGetByCircidChannelImpl s id chan
  some (s, circ)

/-- The circuit with a channel and an identifier, unless it is marked for close. -/
def circuitGetByCircidChannel (s : CircidState) (id : CircId) (chan : ChanId) :
    Option (CircidState × Option ℕ) := do
  let (s, circ, _) ← circuitGetByCircidChannelImpl s id chan
  match circ with
  | none => some (s, none)
  | some c => do
    let circ ← s.circ c
    some (s, if circ.markedForClose then none else some c)

/-- Whether an identifier is in use on a channel: 1 for a circuit, 2 for a pending destroy cell. -/
def circuitIdInUseOnChannel (s : CircidState) (id : CircId) (chan : ChanId) :
    Option (CircidState × ℕ) := do
  let (s, circ, found) ← circuitGetByCircidChannelImpl s id chan
  some (s, if circ.isSome then 1 else if found then 2 else 0)

/-! ### Pending destroy cells -/

/-- The side of a circuit with a channel and an identifier is set to have a pending destroy cell or
not; first the side away from the origin is looked at. -/
def noteOnCircuit (s : CircidState) (c : ℕ) (k : ChanCirc) (pending : Bool) : Option CircidState :=
  do
  let circ ← s.circ c
  if circ.n.chan = some k.1 ∧ circ.n.circId = k.2 then
    some (s.setSide c .dirOut { circ.n with deletePending := pending })
  else do
    let p ← circ.p
    if p.chan = some k.1 ∧ p.circId = k.2 then
      some (s.setSide c .dirIn { p with deletePending := pending })
    else some s

/-- A destroy cell for an identifier is pending on a channel. -/
def channelNoteDestroyPending (s : CircidState) (now : ℕ) (chan : ChanId) (id : CircId) :
    Option CircidState := do
  let (s, circ) ← circuitGetByCircidChannelEvenIfMarked s id chan
  match circ with
  | some c => noteOnCircuit s c (chan, id) true
  | none => channelMarkCircidUnusable s now chan id

/-- A destroy cell for an identifier is no longer pending on a channel. -/
def channelNoteDestroyNotPending (s : CircidState) (chan : ChanId) (id : CircId) :
    Option CircidState := do
  let (s, circ) ← circuitGetByCircidChannelEvenIfMarked s id chan
  match circ with
  | some c => noteOnCircuit s c (chan, id) false
  | none => channelMarkCircidUsable s chan id

/-! ### Runs -/

/-- A new circuit, which begins here or not. -/
def circidCircuitNew (s : CircidState) (isOrigin : Bool) : CircidState :=
  let side : CircidEnd := ⟨none, 0, false⟩
  { s with circs := s.circs ++ [some ⟨side, if isOrigin then none else some side, false⟩] }

/-- A circuit leaves its channels and is freed. -/
def circidCircuitFree (s : CircidState) (now c : ℕ) : Option CircidState := do
  let circ ← s.circ c
  let s ← (if circ.p.isSome then circuitSetPCircidChan s now c 0 none else some s)
  let s ← circuitSetNCircidChan s now c 0 none
  some { s with circs := s.circs.set c none }

/-- What happens to circuits and identifiers. -/
inductive CircidEvent
  | newCircuit (isOrigin : Bool)
  | setN (now c : ℕ) (id : CircId) (chan : Option ChanId)
  | setP (now c : ℕ) (id : CircId) (chan : Option ChanId)
  | markUnusable (now : ℕ) (chan : ChanId) (id : CircId)
  | markUsable (chan : ChanId) (id : CircId)
  | notePending (now : ℕ) (chan : ChanId) (id : CircId)
  | noteNotPending (chan : ChanId) (id : CircId)
  | get (chan : ChanId) (id : CircId)
  | markForClose (c : ℕ)
  | free (now c : ℕ)

/-- What an event does, and what a lookup finds: the circuit, and whether there is an entry. -/
def CircidState.step (s : CircidState) :
    CircidEvent → Option (CircidState × Option (Option ℕ × Bool))
  | .newCircuit isOrigin => some (circidCircuitNew s isOrigin, none)
  | .setN now c id chan => (circuitSetNCircidChan s now c id chan).map (·, none)
  | .setP now c id chan => (circuitSetPCircidChan s now c id chan).map (·, none)
  | .markUnusable now chan id => (channelMarkCircidUnusable s now chan id).map (·, none)
  | .markUsable chan id => (channelMarkCircidUsable s chan id).map (·, none)
  | .notePending now chan id => (channelNoteDestroyPending s now chan id).map (·, none)
  | .noteNotPending chan id => (channelNoteDestroyNotPending s chan id).map (·, none)
  | .get chan id => (circuitGetByCircidChannelImpl s id chan).map fun r => (r.1, some r.2)
  | .markForClose c =>
    let circ := (s.circ c).map fun circ => { circ with markedForClose := true }
    some ({ s with circs := s.circs.set c circ }, none)
  | .free now c => (circidCircuitFree s now c).map (·, none)

/-- Events one after another, with what the lookups find. -/
def CircidState.run : CircidState → List CircidEvent →
    Option (CircidState × List (Option (Option ℕ × Bool)))
  | s, [] => some (s, [])
  | s, e :: events => do
    let (s, found) ← s.step e
    let (s, out) ← s.run events
    some (s, found :: out)

def CircidState.next (s : CircidState) (e : CircidEvent) : Option CircidState :=
  (s.step e).map Prod.fst

end Astoria
