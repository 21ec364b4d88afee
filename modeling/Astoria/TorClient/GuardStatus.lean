import Astoria.TorClient.GuardRoundTrip

/-!
# The nodes that are used as guards

Every known node has a flag that says whether it is one of the entry guards.  Adding a guard sets
the flag of its node, and reading the guards or taking them from the configuration sets all flags
anew.  Whatever else removes a guard (a new directory, a connection that fails, the removal of all
guards) leaves the flag of its node set.
-/

namespace Astoria.EntryGuards

open Config (ConfigLine)

/-! ### Versions -/

/-- Whether a version is as new as another one.  Versions that are not understood are
(`tor_version_as_new_as`). -/
def torVersionAsNewAs (platform cutoff : DocText) : Bool :=
  match torVersionParse cutoff with
  | none => false
  | some cutoffVersion =>
    if !"Tor ".toList.isPrefixOf platform then true
    else
      let start := eatWhitespace (platform.drop 3)
      if start = [] then false
      else
        let s := start.dropWhile fun c => !endsWord c
        let s2 := eatWhitespace s
        let s := if "(r".toList.isPrefixOf s2 || "(git-".toList.isPrefixOf s2 then
            s2.dropWhile fun c => !endsWord c
          else s
        let tmp := start.take (start.length - s.length)
        if 128 ≤ tmp.length + 1 then false
        else match torVersionParse tmp with
          | none => true
          | some routerVersion => 0 ≤ torVersionCompare routerVersion cutoffVersion

/-! ### The surroundings -/

/-- What is known about a node. -/
structure NodeView where
  nickname : DocText
  isRunning : Bool
  isBridge : Bool
  isConfiguredBridge : Bool
  isPossibleGuard : Bool
  /-- It is one of the `EntryNodes`. -/
  inEntryNodes : Bool
  /-- It is one of the `ExcludeNodes`. -/
  inExcludeNodes : Bool
  isDir : Bool
  supportsMicrodescCache : Bool
  /-- The firewall allows it (`fascist_firewall_allows_node`). -/
  allowed : Bool

/-- What an operation depends on besides the guards. -/
structure Surroundings (B : Type) where
  node : Identity → NodeView
  /-- The option `UseBridges`. -/
  useBridges : Bool
  /-- Whether there are `EntryNodes`. -/
  hasEntryNodes : Bool
  /-- The option `GuardLifetime`. -/
  guardLifetime : ℕ
  guardLifetimeParam : ℕ
  /-- The number of guards to use (`decide_num_guards`). -/
  numGuards : ℕ
  /-- The date that is drawn for a new guard. -/
  drawnDate : Identity → ℕ
  version : DocText
  bias : PathBias B

/-- The guards and the flags of the nodes. -/
structure GuardState (B : Type) where
  entryGuards : List (EntryGuard B)
  usingAsGuard : Identity → Bool
  /-- Whether the guards are to be taken from the configuration. -/
  shouldAddEntryNodes : Bool
  /-- Whether the guards are to be written. -/
  dirty : Bool

section Model

variable {B : Type} (known : Identity → Bool) (env : Surroundings B)

/-- The guard with an identity (`entry_guard_get_by_id_digest`). -/
def entryGuardGetByIdDigest (guards : List (EntryGuard B)) (digest : Identity) :
    Option (EntryGuard B) :=
  guards.find? fun e => e.identity = digest

/-- Change the first guard with an identity. -/
def updateGuard (digest : Identity) (f : EntryGuard B → EntryGuard B) :
    List (EntryGuard B) → List (EntryGuard B)
  | [] => []
  | e :: guards => if e.identity = digest then f e :: guards else e :: updateGuard digest f guards

/-! ### Adding a guard -/

/-- Whether a node is a cache of descriptors as far as a guard needs it. -/
def cacheFlag (flag : Bool) (v : NodeView) : Bool :=
  flag || (env.useBridges && v.isConfiguredBridge)

def guardOfNode (node : Identity) (forDiscovery : Bool) : EntryGuard B :=
  { newGuard env.bias ((env.node node).nickname.take Routersets.maxNicknameLen) node
      (cacheFlag env ((env.node node).isDir && (env.node node).supportsMicrodescCache)
        (env.node node)) with
    chosenOnDate := env.drawnDate node
    chosenByVersion := some env.version
    madeContact := !forDiscovery }

/-- Add a guard for a node, if it is none yet. -/
def addNode (st : GuardState B) (node : Identity) (prepend forDiscovery : Bool) :
    GuardState B × Option Identity :=
  if st.usingAsGuard node then (st, none)
  else
    let st' := { st with usingAsGuard := Function.update st.usingAsGuard node true }
    match entryGuardGetByIdDigest st.entryGuards node with
    | some _ => (st', none)
    | none =>
      let entry := guardOfNode env node forDiscovery
      ({ st' with entryGuards := if prepend then entry :: st.entryGuards
        else st.entryGuards ++ [entry] }, some node)

/-- Add a guard: the node that is given, or one that is picked among the routers or the directory
servers. -/
def addAnEntryGuard (st : GuardState B) (chosen : Option Identity)
    (resetStatus prepend forDiscovery forDirectory : Bool)
    (goodEntryServer directoryServer : Option Identity) : GuardState B × Option Identity :=
  match chosen with
  | some node =>
    match entryGuardGetByIdDigest st.entryGuards node with
    | some _ =>
      ({ st with
        entryGuards := updateGuard node (fun entry =>
          { entry with
            badSince := if resetStatus then 0 else entry.badSince
            canRetry := resetStatus || entry.canRetry
            isDirCache := cacheFlag env (env.node node).supportsMicrodescCache (env.node node) })
              st.entryGuards }, none)
    | none => addNode env st node prepend forDiscovery
  | none =>
    match if forDirectory then directoryServer.filter known else goodEntryServer with
    | some node => addNode env st node prepend forDiscovery
    | none => (st, none)

/-! ### The status of the guards -/

/-- Why a guard is not usable. -/
def badReason (e : EntryGuard B) (node : Option NodeView) : Option String :=
  match node with
  | none => some "unlisted"
  | some v =>
    if !v.isRunning then some "down"
    else if env.useBridges && !v.isBridge then some "not a bridge"
    else if env.useBridges && !v.isConfiguredBridge then some "not a configured bridge"
    else if !env.useBridges && !v.isPossibleGuard && !v.inEntryNodes then
      some "not recommended as a guard"
    else if v.inExcludeNodes then some "excluded"
    else if e.pathBiasDisabled then some "path-biased"
    else none

/-- The guard with its status set, and whether it has changed. -/
def entryGuardSetStatus (now : ℕ) (e : EntryGuard B) (node : Option NodeView) :
    EntryGuard B × Bool :=
  let reason := badReason env e node
  let marked := reason.isSome && e.badSince = 0
  let unmarked := reason.isNone && e.badSince ≠ 0
  let badSince := if marked then now else if unmarked then 0 else e.badSince
  let isDir := match node with
    | some v => cacheFlag env (v.isDir && v.supportsMicrodescCache) v
    | none => e.isDirCache
  ({ e with badSince := badSince, isDirCache := isDir }, marked || unmarked || e.isDirCache ≠ isDir)

/-- How long a guard may be unusable before it is given up (`ENTRY_GUARD_REMOVE_AFTER`). -/
def entryGuardRemoveAfter : ℕ := 30 * 24 * 60 * 60

/-- Whether a guard has been unusable for too long. -/
def isDead (now : ℕ) (e : EntryGuard B) : Bool :=
  e.badSince ≠ 0 && !e.pathBiasDisabled && e.badSince + entryGuardRemoveAfter < now

/-- How far the date of a choice may be in the past from the start (`CHOSEN_ON_DATE_SLOP`). -/
def chosenOnDateSlop : ℕ := 30 * 86400

/-- How long guards are used. -/
def guardsGetLifetime : ℕ :=
  (if 1 ≤ env.guardLifetime then max (86400 * 30) (min env.guardLifetime (86400 * 1826))
    else env.guardLifetimeParam) +
    chosenOnDateSlop

/-- Whether a version is one between two others. -/
def isBetween (torVer : DocText) (first last : String) : Bool :=
  torVersionAsNewAs torVer first.toList && !torVersionAsNewAs torVer last.toList

/-- Whether the version that has chosen a guard is not known, or chose guards badly. -/
def versionIsBad (e : EntryGuard B) : Bool :=
  match e.chosenByVersion with
  | none => true
  | some ver =>
    if (torVersionParse ver).isNone then true
    else
      let torVer := "Tor ".toList ++ ver
      isBetween torVer "0.1.0.10-alpha" "0.1.2.16-dev" ||
      isBetween torVer "0.2.0.0-alpha" "0.2.0.6-alpha" ||
        isBetween torVer "0.2.1.3-alpha" "0.2.1.23" ||
        isBetween torVer "0.2.2.0-alpha" "0.2.2.7-alpha"

/-- Whether a guard is to be replaced. -/
def isObsolete (now : ℕ) (e : EntryGuard B) : Bool :=
  versionIsBad e || e.chosenOnDate + guardsGetLifetime env < now

/-- Remove the guards that have been unusable for too long. -/
def removeDeadEntryGuards (now : ℕ) (guards : List (EntryGuard B)) : List (EntryGuard B) :=
  guards.filter fun e => !isDead now e

def removeObsoleteEntryGuards (now : ℕ) (guards : List (EntryGuard B)) : List (EntryGuard B) :=
  guards.filter fun e => !isObsolete env now e

/-- A new directory has arrived. -/
def entryGuardsComputeStatus (st : GuardState B) (now : ℕ) : GuardState B :=
  let status := st.entryGuards.map fun e =>
    entryGuardSetStatus env now e (if known e.identity then some (env.node e.identity) else none)
  let alive := removeDeadEntryGuards now (status.map Prod.fst)
  let kept := removeObsoleteEntryGuards env now alive
  { st with
    shouldAddEntryNodes := env.hasEntryNodes || st.shouldAddEntryNodes
    entryGuards := kept
    dirty := st.dirty || status.any Prod.snd || kept.length ≠ st.entryGuards.length }

/-! ### Connections -/

/-- The first guard with an identity, after a connection to it was established. -/
def connected (now : ℕ) (e : EntryGuard B) : EntryGuard B :=
  let e := if e.unreachableSince ≠ 0 then
      { e with canRetry := false, unreachableSince := 0, lastAttempted := now }
    else e
  { e with madeContact := true }

/-- The same, after an attempt has failed. -/
def notConnected (now : ℕ) (e : EntryGuard B) : EntryGuard B :=
  { e with
    unreachableSince := if e.unreachableSince = 0 then now else e.unreachableSince
    lastAttempted := now
    canRetry := false }

/-- Earlier guards that seem to work get another chance: whether there are any, and the guards.
What `entry_is_live` says is `live`. -/
def retryEarlier (digest : Identity) (live : EntryGuard B → Bool) :
    List (EntryGuard B) → Bool × List (EntryGuard B)
  | [] => (false, [])
  | e :: guards =>
    if e.identity = digest then (false, e :: guards)
    else
      let (refuse, guards') := retryEarlier digest live guards
      if e.madeContact && live e && e.unreachableSince ≠ 0 then
        (true, { e with canRetry := true } :: guards')
      else (refuse, e :: guards')

/-- A connection to a guard has succeeded or failed: the guards, and whether the connection is to be
closed. -/
def entryGuardRegisterConnectStatus (st : GuardState B) (digest : Identity) (succeeded : Bool)
    (now : ℕ) (live : EntryGuard B → Bool) : GuardState B × Bool :=
  match entryGuardGetByIdDigest st.entryGuards digest with
  | none => (st, false)
  | some entry =>
    if succeeded then
      let guards := updateGuard digest (connected now) st.entryGuards
      let (refuse, guards) :=
        if entry.madeContact then (false, guards) else retryEarlier digest live guards
      ({ st with
        entryGuards := guards
        dirty := st.dirty || entry.unreachableSince ≠ 0 || !entry.madeContact }, refuse)
    else if !entry.madeContact then
      ({ st with entryGuards := st.entryGuards.eraseP fun e => e.identity = digest, dirty := true },
        false)
    else
      ({ st with
        entryGuards := updateGuard digest (notConnected now) st.entryGuards
        dirty := st.dirty || entry.unreachableSince = 0 }, false)

/-! ### Other sources of guards -/

/-- Set the flags of all nodes anew. -/
def updateNodeGuardStatus (st : GuardState B) : GuardState B :=
  { st with usingAsGuard := fun d => known d && (entryGuardGetByIdDigest st.entryGuards d).isSome }

/-- Add guards for nodes until there are many. -/
def addNodes : List Identity → GuardState B → GuardState B
  | [], st => st
  | node :: nodes, st =>
    let st := (addAnEntryGuard known env st (some node) false false true false none none).1
    if env.numGuards * 10 < st.entryGuards.length then st else addNodes nodes st

/-- Take the guards from the configuration: `entryNodes` are all nodes of `EntryNodes`, and they are
shuffled. -/
def entryGuardsSetFromConfig (st : GuardState B) (entryNodes : List Identity)
    (shuffle : List Identity → List Identity) :
    GuardState B :=
  let st := { st with shouldAddEntryNodes := false }
  if !env.hasEntryNodes then st
  else
    let onList := st.entryGuards.filter fun e => e.identity ∈ entryNodes
    let others := entryNodes.filter fun d => (entryGuardGetByIdDigest st.entryGuards d).isNone &&
      !(env.node d).inExcludeNodes && (env.node d).allowed
    let better := shuffle (others.filter fun d => (env.node d).isPossibleGuard)
    let worse := shuffle (others.filter fun d => !(env.node d).isPossibleGuard)
    let st := addNodes known env (better ++ worse) { st with entryGuards := onList }
    { updateNodeGuardStatus known st with dirty := true }

def removeAllEntryGuards (st : GuardState B) : GuardState B :=
  { st with entryGuards := [], dirty := true }

/-- Read the guards from the state file, and use them unless they are only checked.  The result says
whether this has succeeded. -/
def loadEntryGuards (st : GuardState B) (readEnv : ReadEnv B) (lines : List ConfigLine)
    (set : Bool) : GuardState B × Bool :=
  match entryGuardsParseState readEnv lines with
  | .error _ => (st, false)
  | .ok newEntryGuards =>
    if set then
      let kept := removeObsoleteEntryGuards env readEnv.now newEntryGuards
      (updateNodeGuardStatus known
        { st with entryGuards := kept, dirty := kept.length ≠ newEntryGuards.length }, true)
    else (st, true)

/-! ### Runs -/

inductive GuardEvent (B : Type)
  | addAnEntryGuard (env : Surroundings B) (chosen : Option Identity)
      (resetStatus prepend forDiscovery forDirectory : Bool)
      (goodEntryServer directoryServer : Option Identity)
  /-- A directory has arrived. -/
  | entryGuardsComputeStatus (env : Surroundings B) (now : ℕ)
  /-- A connection has succeeded or failed. -/
  | entryGuardRegisterConnectStatus (digest : Identity) (succeeded : Bool) (now : ℕ)
    (live : EntryGuard B → Bool)
  /-- Take the guards from the configuration. -/
  | entryGuardsSetFromConfig (env : Surroundings B) (entryNodes : List Identity)
      (shuffle : List Identity → List Identity)
  | removeAllEntryGuards
  /-- Read guards that were written. -/
  | entryGuardsParseState (env : Surroundings B) (readEnv : ReadEnv B) (saved : List (EntryGuard B))
    (set : Bool)

/-- An operation on guards, with the nodes that are known. -/
def GuardState.step (st : GuardState B) : GuardEvent B → GuardState B
  | .addAnEntryGuard env chosen resetStatus prepend forDiscovery forDirectory goodEntryServer
      directoryServer =>
    (EntryGuards.addAnEntryGuard known env st chosen resetStatus prepend forDiscovery forDirectory
      goodEntryServer
      directoryServer).1
  | .entryGuardsComputeStatus env now => EntryGuards.entryGuardsComputeStatus known env st now
  | .entryGuardRegisterConnectStatus digest succeeded now live =>
    (EntryGuards.entryGuardRegisterConnectStatus st digest succeeded now live).1
  | .entryGuardsSetFromConfig env entryNodes shuffle =>
    EntryGuards.entryGuardsSetFromConfig known env st entryNodes shuffle
  | .removeAllEntryGuards => EntryGuards.removeAllEntryGuards st
  | .entryGuardsParseState env readEnv saved set =>
    (loadEntryGuards known env st readEnv (entryGuardsUpdateState readEnv.bias saved) set).1

def GuardState.start (B : Type) : GuardState B := ⟨[], fun _ => false, false, false⟩

end Model

end Astoria.EntryGuards
