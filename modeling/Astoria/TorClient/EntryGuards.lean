import Astoria.TorClient.ConfigLines
import Astoria.TorClient.IsoTime
import Astoria.TorClient.TorVersion

/-!
# Entry guards

The entry guards are kept in the state file.  Of each guard that has been contacted there are up to
six lines there: one with its name and identity, lines for the times since which it has been
unreachable or unusable, one that says when and by which version it was chosen, and the counters of
path bias.  A line belongs to the guard before it, but the one about the choice of a guard names it.
-/

namespace Astoria.EntryGuards

open Config (ConfigLine)
open Routersets (stripSpace torStrlower)

/-! ### Identities -/

/-- The digest of the identity key of a router (`DIGEST_LEN` bytes). -/
abbrev Identity := Vector UInt8 20

def hexDigit (n : ℕ) : Char := "0123456789ABCDEF".toList.getD n '0'

/-- An identity in hexadecimal digits (`base16_encode`). -/
def base16Encode (d : Identity) : DocText :=
  d.toList.flatMap fun b => [hexDigit (b.toNat / 16), hexDigit (b.toNat % 16)]

/-- The identity in a text of hexadecimal digits; bytes that are missing are zero
(`base16_decode`). -/
def decodeIdentity (s : DocText) : Option Identity :=
  if s.length % 2 ≠ 0 ∨ 20 < s.length / 2 then none
  else (base16Decode s).map fun bytes => Vector.ofFn fun i => UInt8.ofNat (bytes.getD i 0)

/-! ### Times -/

/-- The length of the text of a time (`ISO_TIME_LEN`). -/
def isoTimeLen : ℕ := 19

/-- The length of an identity in hexadecimal digits (`HEX_DIGEST_LEN`). -/
def hexDigestLen : ℕ := 40

/-- The date at the start of a text. -/
def scanTmPrefix (s : DocText) : Option Tm := do
  let (year, s) ← scanUnsigned maxScanfWidth s
  let s ← scanChar '-' s
  let (month, s) ← scanUnsigned 2 s
  let s ← scanChar '-' s
  let (day, s) ← scanUnsigned 2 s
  let s ← scanChar ' ' s
  let (hour, s) ← scanUnsigned 2 s
  let s ← scanChar ':' s
  let (minute, s) ← scanUnsigned 2 s
  let s ← scanChar ':' s
  let (second, _) ← scanUnsigned 2 s
  if month < 1 then none else some ⟨year, month - 1, day, hour, minute, second⟩

/-- The time at the start of a text (`parse_iso_time_`, not strict). -/
def parseIsoTimePrefix (s : DocText) : Option ℕ :=
  match scanTmPrefix s with
  | none => none
  | some tm =>
    if tm.year < 1970 ∨ 11 < tm.mon ∨ tm.mday < 1 ∨ 31 < tm.mday ∨ 23 < tm.hour ∨ 59 < tm.min ∨
        60 < tm.sec ∨ 2 ^ 31 - 1 ≤ tm.year then none
    else torTimegm tm

/-! ### Guards -/

/-- The counters of path bias, with their text and the tests that disable a guard. -/
structure PathBias (B : Type) where
  /-- The counters of a guard that was not used. -/
  fresh : B
  /-- The text of the counters of circuits, if there are any. -/
  circLine : B → Option DocText
  /-- The text of the counters of uses, if there are any. -/
  useLine : B → Option DocText
  readCirc : DocText → B → Option B
  readUse : DocText → B → Option B
  /-- Whether too few circuits have succeeded. -/
  circDisables : B → Bool
  /-- Whether too few uses have succeeded. -/
  useDisables : B → Bool

/-- An entry guard (`entry_guard_t`). -/
structure EntryGuard (B : Type) where
  nickname : DocText
  identity : Identity
  /-- When it was chosen, or 0. -/
  chosenOnDate : ℕ
  chosenByVersion : Option DocText
  madeContact : Bool
  canRetry : Bool
  pathBiasDisabled : Bool
  isDirCache : Bool
  /-- Since when it has been unusable, or 0. -/
  badSince : ℕ
  /-- Since when it could not be connected to, or 0. -/
  unreachableSince : ℕ
  /-- When the last attempt failed, or 0. -/
  lastAttempted : ℕ
  pathBias : B
  deriving DecidableEq

section Model

variable {B : Type} (bias : PathBias B)

/-! ### Writing -/

def stateLine (key : String) (value : DocText) : ConfigLine := { key := key.toList, value := value }

/-- The line of a time since which something holds, if it holds. -/
def sinceLine (key : String) (since : ℕ) (value : DocText) : List ConfigLine :=
  if since ≠ 0 then [stateLine key value] else []

/-- The text of the time since which a guard has been unreachable, and of the last attempt. -/
def downSinceText (e : EntryGuard B) : DocText :=
  formatIsoTime e.unreachableSince ++
    if e.lastAttempted ≠ 0 then ' ' :: formatIsoTime e.lastAttempted else []

/-- The line that says when and by which version a guard was chosen. -/
def addedByLine (e : EntryGuard B) : List ConfigLine :=
  match e.chosenByVersion with
  | some version =>
    if e.chosenOnDate ≠ 0 ∧ ' ' ∉ version then
      [stateLine "EntryGuardAddedBy"
        (base16Encode e.identity ++ ' ' :: version ++ ' ' :: formatIsoTime e.chosenOnDate)]
    else []
  | none => []

def entryGuardText (e : EntryGuard B) : DocText :=
  e.nickname ++ ' ' :: base16Encode e.identity ++ ' ' ::
    (if e.isDirCache then "DirCache" else "NoDirCache").toList

def entryGuardLines (e : EntryGuard B) : List ConfigLine :=
  stateLine "EntryGuard" (entryGuardText e) ::
    (sinceLine "EntryGuardDownSince" e.unreachableSince (downSinceText e) ++
      sinceLine "EntryGuardUnlistedSince" e.badSince (formatIsoTime e.badSince) ++ addedByLine e ++
      ((bias.circLine e.pathBias).map (stateLine "EntryGuardPathBias")).toList ++
      ((bias.useLine e.pathBias).map (stateLine "EntryGuardPathUseBias")).toList)

/-- The lines of the state file (`entry_guards_update_state`). -/
def entryGuardsUpdateState (guards : List (EntryGuard B)) : List ConfigLine :=
  (guards.filter EntryGuard.madeContact).flatMap (entryGuardLines bias)

/-! ### Reading -/

/-- What reading depends on besides the lines. -/
structure ReadEnv (B : Type) where
  bias : PathBias B
  now : ℕ
  /-- The time at the end. -/
  later : ℕ
  /-- The version that has written the file. -/
  stateVersion : Option DocText
  /-- The date that is drawn for a guard of which it is not known when it was chosen. -/
  drawnDate : Identity → ℕ

/-- The guards that have been read, the last one apart, and what was said about their choice. -/
structure Reading (B : Type) where
  done : List (EntryGuard B)
  node : Option (EntryGuard B)
  /-- Versions and dates, the last one first. -/
  addedBy : List (Identity × DocText)

def hasKey (line : ConfigLine) (key : String) : Bool :=
  torStrlower line.key = torStrlower key.toList

/-- The words of a text (`smartlist_split_string`). -/
def splitWords (s : DocText) : List DocText := ((s.splitOn ' ').map stripSpace).filter (· ≠ [])

/-- The start of all messages. -/
def unableToParse (msg : String) : DocText := "Unable to parse entry nodes: ".toList ++ msg.toList

/-- A guard of which only the first line is known. -/
def newGuard (bias : PathBias B) (nickname : DocText) (identity : Identity) (isDirCache : Bool) :
    EntryGuard B :=
  ⟨nickname, identity, 0, none, true, false, false, isDirCache, 0, 0, 0, bias.fresh⟩

/-- The flag of a directory cache; other words are ignored. -/
def readDirCache (args : List DocText) : Bool :=
  (args[2]?).any fun word => torStrlower word = torStrlower "DirCache".toList

/-- Read the first line of a guard. -/
def parseEntryGuard (value : DocText) : Except DocText (EntryGuard B) :=
  match splitWords value with
  | nickname :: hex :: rest =>
    if Routersets.isLegalNickname nickname = false then
      .error (unableToParse "Bad nickname for EntryGuard")
    else match decodeIdentity hex with
      | none => .error (unableToParse "Bad hex digest for EntryGuard")
      | some identity =>
        .ok (newGuard bias nickname identity (readDirCache (nickname :: hex :: rest)))
  | _ => .error (unableToParse "Too few arguments to EntryGuard")

/-- The guard after a line about a time since which it has been unreachable, or else unusable. -/
def parseSince (now : ℕ) (isDown : Bool) (value : DocText) (node : EntryGuard B) :
    Except DocText (EntryGuard B) :=
  match parseIsoTimePrefix value with
  | none => .error (unableToParse "Bad time in EntryGuardDownSince/UnlistedSince")
  | some since =>
    -- times in the future are not believed
    if now < since then .ok node
    else if isDown then
      let lastTry :=
        if isoTimeLen + isoTimeLen + 1 ≤ value.length then
          (parseIsoTime (value.drop (isoTimeLen + 1))).getD 0
        else 0
      .ok { node with unreachableSince := since, lastAttempted := lastTry }
    else .ok { node with badSince := since }

/-- What a line says about the choice of a guard. -/
def parseAddedBy (value : DocText) : Option (Identity × DocText) :=
  if value.length < hexDigestLen + 1 + 1 + 1 + isoTimeLen then none
  else match decodeIdentity (value.take hexDigestLen) with
    | none => none
    | some d => if value[hexDigestLen]? = some ' ' then some (d, value.drop (hexDigestLen + 1))
      else none

/-- The guard after counters have been read. -/
def applyBias (node : EntryGuard B) (counters : Option B) (disables : B → Bool) : EntryGuard B :=
  match counters with
  | none => node
  | some b => { node with pathBias := b, pathBiasDisabled := node.pathBiasDisabled || disables b }

/-- Read a line about the last guard. -/
def withNode (st : Reading B) (key : String) (f : EntryGuard B → Except DocText (EntryGuard B)) :
    Except DocText (Reading B) :=
  match st.node with
  | none => .error (unableToParse (key ++ " without EntryGuard"))
  | some node => (f node).map fun node => { st with node := some node }

def parseLine (env : ReadEnv B) (st : Reading B) (line : ConfigLine) : Except DocText (Reading B) :=
  if hasKey line "EntryGuard" then
    (parseEntryGuard env.bias line.value).map fun node =>
      { st with done := st.done ++ st.node.toList, node := some node }
  else if hasKey line "EntryGuardDownSince" || hasKey line "EntryGuardUnlistedSince" then
    withNode st "EntryGuardDownSince/UnlistedSince"
      (parseSince env.now (hasKey line "EntryGuardDownSince") line.value)
  else if hasKey line "EntryGuardAddedBy" then
    .ok { st with addedBy := (parseAddedBy line.value).toList ++ st.addedBy }
  else if hasKey line "EntryGuardPathUseBias" then
    withNode st "EntryGuardPathUseBias" fun node =>
      .ok (applyBias node (env.bias.readUse line.value node.pathBias) env.bias.useDisables)
  else if hasKey line "EntryGuardPathBias" then
    withNode st "EntryGuardPathBias" fun node =>
      .ok (applyBias node (env.bias.readCirc line.value node.pathBias) env.bias.circDisables)
  else .ok st

/-- A guard with what is known about its choice. -/
def withChoice (env : ReadEnv B) (addedBy : List (Identity × DocText)) (e : EntryGuard B) :
    EntryGuard B :=
  match (addedBy.lookup e.identity).bind fun val =>
      if ' ' ∈ val then some (val.takeWhile (· ≠ ' '), (val.dropWhile (· ≠ ' ')).tail)
        else none with
  | some (version, date) =>
    match parseIsoTime date with
    | none => e
    | some since => { e with chosenByVersion := some version, chosenOnDate := since }
  | none =>
    match env.stateVersion with
    | some version =>
      { e with chosenByVersion := some version, chosenOnDate := env.drawnDate e.identity }
    | none => e

/-- A guard that the counters disable is unusable. -/
def markBiased (env : ReadEnv B) (e : EntryGuard B) : EntryGuard B :=
  if e.pathBiasDisabled = true ∧ e.badSince = 0 then { e with badSince := env.later } else e

/-- The guards in the lines of a state file (`entry_guards_parse_state`, up to the removal of
obsolete guards). -/
def entryGuardsParseState (env : ReadEnv B) (lines : List ConfigLine) :
    Except DocText (List (EntryGuard B)) :=
  (lines.foldlM (parseLine env) ⟨[], none, []⟩).map fun st =>
    (st.done ++ st.node.toList).map fun e => markBiased env (withChoice env st.addedBy e)

end Model

end Astoria.EntryGuards
