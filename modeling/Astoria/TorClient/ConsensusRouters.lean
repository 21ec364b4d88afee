import Mathlib
import Astoria.Library.KWayMerge
import Astoria.Library.Runs
import Astoria.TorClient.DirvoteAdd
import Astoria.TorClient.Smartlist

/-!
# The routers of a consensus

Each vote lists routers, sorted by identity, with flags.  The positions of the flags in a bit field
are those of the flag names that the vote itself declares.  The consensus goes through all votes
together, one identity after another, and lists a router if enough votes do and if it is said to be
running.
-/

namespace Astoria

open Function

def digestcmp (a b : Digest) : ℤ := memcmp a b

/-- What a vote says about a router. -/
structure VoteRouterstatus where
  identityDigest : Digest
  descriptorDigest : Digest
  nickname : String
  publishedOn : ℤ
  addr : UInt32
  orPort : UInt16
  dirPort : UInt16
  /-- The flags, at the positions of their names in the vote. -/
  flags : BitVec 64
  version : Option String
  measuredBwKb : Option UInt32
  bandwidthKb : Option UInt32
  guardfractionPercentage : Option UInt32
  exitsummary : Option String
  /-- The IPv6 address, which is zero if there is none. -/
  ipv6Addr : BitVec 128
  ipv6Orport : UInt16
  /-- The lines with digests of microdescriptors. -/
  microdesc : List DocText

/-- The routers and flags of a vote that the parser accepted. -/
structure RouterVote where
  knownFlags : List String
  routerstatusList : List VoteRouterstatus
  knownFlags_sorted : knownFlags.Pairwise (· < ·)
  knownFlags_length : knownFlags.length ≤ 64
  routers_sorted : routerstatusList.Pairwise fun a b => a.identityDigest < b.identityDigest

/-! ### The flags -/

/-- All flags that are known to a vote. -/
def consensusFlags (votes : List RouterVote) : List String :=
  smartlistUniqStrings ((votes.flatMap (·.knownFlags)).insertionSort (· ≤ ·))

/-- The positions of the flags of a vote among all flags (`flag_map`). -/
def flagMap (flags : List String) (v : RouterVote) : List ℕ := v.knownFlags.map (flags.idxOf ·)

/-- An array of counters, one of which is incremented. -/
def increment (counts : ℕ → ℕ) (i : ℕ) : ℕ → ℕ := update counts i (counts i + 1)

/-- The number of votes that know each flag (`n_flag_voters`). -/
def nFlagVoters (flags : List String) (votes : List RouterVote) : ℕ → ℕ :=
  votes.foldl (fun n v => (flagMap flags v).foldl increment n) fun _ => 0

/-- Tally up the flags of one router in one vote. -/
def tallyFlags (flags : List String) (flagCounts : ℕ → ℕ) (entry : RouterVote × VoteRouterstatus) :
    ℕ → ℕ :=
  (flagMap flags entry.1).zipIdx.foldl (fun counts p =>
    if entry.2.flags.getLsbD p.2 then increment counts p.1 else counts) flagCounts

/-- The number of votes that give each flag to a router (`flag_counts`). -/
def flagCounts (flags : List String) (entries : List (RouterVote × VoteRouterstatus)) : ℕ → ℕ :=
  entries.foldl (tallyFlags flags) fun _ => 0

/-- Whether a vote gives a flag to one of its routers. -/
def hasFlag (v : RouterVote) (rs : VoteRouterstatus) (flag : String) : Bool :=
  match v.knownFlags.idxOf? flag with
  | none => false
  | some i => rs.flags.getLsbD i

/-! ### Names -/

inductive NameOwner
  | router (identityDigest : Digest)
  | conflict
  | unknown

def NameOwner.digest : NameOwner → Digest
  | .router identityDigest => identityDigest
  | .conflict => 0
  | .unknown => 2 ^ 160 - 1

def flaggedRouters (flag : String) (v : RouterVote) : List VoteRouterstatus :=
  v.routerstatusList.filter fun rs => hasFlag v rs flag

/-- The name of a router in a vote that calls it named. -/
def recordNamed (owners : String → Option NameOwner) (rs : VoteRouterstatus) :
    String → Option NameOwner :=
  let name := rs.nickname.toLower
  match owners name with
  | none => update owners name (some (.router rs.identityDigest))
  | some .conflict => owners
  | some d =>
    if d.digest ≠ rs.identityDigest then update owners name (some .conflict) else owners

/-- The name of a router in a vote that calls it unnamed. -/
def recordUnnamed (owners : String → Option NameOwner) (rs : VoteRouterstatus) :
    String → Option NameOwner :=
  let name := rs.nickname.toLower
  match owners name with
  | none => update owners name (some .unknown)
  | some .conflict => owners
  | some .unknown => owners
  | some (.router d) =>
    if d = rs.identityDigest then update owners name (some .conflict) else owners

/-- The owners of all names (`name_to_id_map`). -/
def nameToIdMap (votes : List RouterVote) : String → Option NameOwner :=
  let owners := (votes.flatMap (flaggedRouters "Named")).foldl recordNamed fun _ => none
  (votes.flatMap (flaggedRouters "Unnamed")).foldl recordUnnamed owners

/-- The name under which a router is called named, if all such votes agree on it. -/
def chosenName (entries : List (RouterVote × VoteRouterstatus)) : Option String :=
  let (name, namingConflict) := entries.foldl (fun (r : Option String × Bool) entry =>
    if hasFlag entry.1 entry.2 "Named" then
      (some entry.2.nickname, r.2 || r.1.any fun name => decide (name ≠ entry.2.nickname))
    else r) (none, false)
  if namingConflict then none else name

/-! ### The most popular opinion -/

/-- The order of router entries: equal ones come from the same router descriptor. -/
def compareVoteRs (a b : VoteRouterstatus) : ℤ :=
  if digestcmp a.identityDigest b.identityDigest ≠ 0 then
    digestcmp a.identityDigest b.identityDigest
  else if digestcmp a.descriptorDigest b.descriptorDigest ≠ 0 then
    digestcmp a.descriptorDigest b.descriptorDigest
  else if Int.bmod (b.publishedOn - a.publishedOn) (2 ^ 32) ≠ 0 then
    Int.bmod (b.publishedOn - a.publishedOn) (2 ^ 32)
  else if strcmp b.nickname a.nickname ≠ 0 then strcmp b.nickname a.nickname
  else if Int.bmod (b.addr.toNat - a.addr.toNat) (2 ^ 32) ≠ 0 then
    Int.bmod (b.addr.toNat - a.addr.toNat) (2 ^ 32)
  else if (b.orPort.toNat - a.orPort.toNat : ℤ) ≠ 0 then b.orPort.toNat - a.orPort.toNat
  else b.dirPort.toNat - a.dirPort.toNat

/-- The runs of equal entries so far: the current one, and the best one of those before it. -/
structure MostPopular where
  cur : Option VoteRouterstatus
  curN : ℕ
  most : Option VoteRouterstatus
  mostN : ℕ
  mostPublished : ℤ

/-- The current run is compared with the best one. -/
def MostPopular.close (s : MostPopular) : MostPopular :=
  match s.cur with
  | none => s
  | some cur =>
    if s.mostN < s.curN ∨ s.curN = s.mostN ∧ s.mostPublished < cur.publishedOn then
      { s with most := some cur, mostN := s.curN, mostPublished := cur.publishedOn }
    else s

/-- One more entry: it belongs to the current run or starts a new one. -/
def MostPopular.next (s : MostPopular) (rs : VoteRouterstatus) : MostPopular :=
  match s.cur with
  | none => { s with cur := some rs, curN := 1 }
  | some cur =>
    if compareVoteRs cur rs = 0 then { s with curN := s.curN + 1 }
    else { s.close with cur := some rs, curN := 1 }

/-- The most frequent entry of a router.  There must be one. -/
def computeRouterstatusConsensus (votes : List VoteRouterstatus) : Option VoteRouterstatus :=
  (votes.foldl MostPopular.next ⟨none, 0, none, 0, 0⟩).close.most

/-! ### The routers -/

/-- A router of the consensus: its name and flags, and the entries from which the rest is
computed. -/
structure ConsensusRouter where
  identityDigest : Digest
  nickname : String
  chosenFlags : List String
  /-- The most popular entry. -/
  rs : VoteRouterstatus
  /-- All entries of the router, in the order of the votes. -/
  listed : List VoteRouterstatus
  /-- All entries of the router, sorted. -/
  matchingDescs : List VoteRouterstatus

section Routers

variable (smartlistSort : SmartlistSort VoteRouterstatus) (votes : List RouterVote)
  (totalAuthorities : ℕ)

/-- Whether a flag is chosen.  `Named` and `Unnamed` are decided by the owner of the name. -/
def flagIsChosen (counts nVoters : ℕ → ℕ) (isNamed isUnnamed : Bool)
    (fl : String × ℕ) : Bool :=
  if fl.1 = "Named" then isNamed
  else if fl.1 = "Unnamed" then isUnnamed
  else decide (nVoters fl.2 / 2 < counts fl.2)

/-- The entry of the consensus for one identity, if the router is listed.  The outer option is for
the assertions. -/
def consensusRouter (lowestId : Digest) (entries : List (RouterVote × VoteRouterstatus)) :
    Option (Option ConsensusRouter) :=
  if entries.length ≤ totalAuthorities / 2 then none
  else
    let matchingDescs := smartlistSort.sort compareVoteRs (entries.map (·.2))
    match computeRouterstatusConsensus matchingDescs with
    | none => some none
    | some rs =>
      if rs.identityDigest ≠ lowestId then some none
      else
        let nickname := (chosenName entries).getD rs.nickname
        let owner := nameToIdMap votes nickname.toLower
        let isNamed := owner.any fun d => decide (d.digest = lowestId)
        let isUnnamed := owner.any fun d => decide (d.digest ≠ lowestId)
        let flags := consensusFlags votes
        let chosenFlags := (flags.zipIdx.filter (flagIsChosen (flagCounts flags entries)
          (nFlagVoters flags votes) isNamed isUnnamed)).map (·.1)
        if "Running" ∈ chosenFlags then
          some (some ⟨lowestId, nickname, chosenFlags, rs, entries.map (·.2), matchingDescs⟩)
        else none

/-- The cursors at the start of the votes' lists. -/
def voteCursors : List (KWayMerge.Cursor RouterVote VoteRouterstatus) :=
  votes.map fun v => ⟨v, v.routerstatusList, 0⟩

/-- The number of passes that suffices. -/
def mergePasses : ℕ := (votes.map fun v => v.routerstatusList.length).sum + 1

/-- The routers of the consensus (the router section of `networkstatus_compute_consensus`). -/
def consensusRouters : Option (List ConsensusRouter) := do
  let routers ← KWayMerge.mergeLoop VoteRouterstatus.identityDigest
    (consensusRouter smartlistSort votes totalAuthorities) (mergePasses votes) (voteCursors votes)
  routers.mapM id

end Routers

end Astoria
