import Mathlib
import Astoria.TorClient.ConsensusEntries
import Astoria.TorClient.IsoTime

/-!
# The text of an entry

The authorities write the entry of a router as some lines, and clients read it from the document
that they download.  A client skips an entry that it cannot read.
-/

namespace Astoria

local instance : LawfulBEq DocText := inferInstance

/-! ### Addresses -/

/-- The text of the four bytes of an address (`tor_inet_ntoa`). -/
def torInetNtoa (addr : ℕ) : DocText :=
  Nat.toDigits 10 (addr / 2 ^ 24 % 256) ++ '.' :: Nat.toDigits 10 (addr / 2 ^ 16 % 256) ++
    '.' :: Nat.toDigits 10 (addr / 2 ^ 8 % 256) ++ '.' :: Nat.toDigits 10 (addr % 256)

/-- The address in a text, which must be all of it (`tor_inet_aton`). -/
def torInetAton (s : DocText) : Option UInt32 := do
  let (a, s) ← scanUnsigned 3 s
  let s ← scanChar '.' s
  let (b, s) ← scanUnsigned 3 s
  let s ← scanChar '.' s
  let (c, s) ← scanUnsigned 3 s
  let s ← scanChar '.' s
  let (d, s) ← scanUnsigned 3 s
  if s ≠ [] ∨ 255 < a ∨ 255 < b ∨ 255 < c ∨ 255 < d then none
  else some (UInt32.ofNat (a * 2 ^ 24 + b * 2 ^ 16 + c * 2 ^ 8 + d))

/-- The 16-bit words of an IPv6 address. -/
def ipv6Words (addr : ℕ) : List ℕ := (List.range 8).map fun i => addr / 2 ^ (16 * (7 - i)) % 2 ^ 16

/-- Where the longest series of at least two zero words starts. -/
def longestGapPos (words : List ℕ) : Option ℕ :=
  let gaps := (List.range 8).filterMap fun i =>
    if words.getD i 1 = 0 ∧ (i = 0 ∨ words.getD (i - 1) 1 ≠ 0) then
      some (i, ((words.drop i).takeWhile (· = 0)).length)
    else none
  let longest := gaps.foldl (fun best gap => if best.2 < gap.2 then gap else best) (0, 0)
  if longest.2 ≤ 1 then none else some longest.1

/-- The words of an IPv6 address, from word `i` on.  Within the longest gap, zeros are skipped. -/
def printWords (gapPos : Option ℕ) : Bool → ℕ → List ℕ → DocText
  | _, _, [] => []
  | skipping, i, w :: words =>
    if skipping ∧ w = 0 then printWords gapPos true (i + 1) words
    else if w = 0 ∧ gapPos = some i then
      (if i = 0 then [':', ':'] else [':']) ++ printWords gapPos true (i + 1) words
    else Nat.toDigits 16 w ++ (if i = 7 then [] else [':']) ++ printWords gapPos false (i + 1) words

/-- The text of an IPv6 address (`tor_inet_ntop`).  Some addresses end like IPv4 addresses. -/
def torInetNtop (addr : ℕ) : DocText :=
  let words := ipv6Words addr
  let word := fun i => words.getD i 0
  if (words.take 5).all (· = 0) ∧ (word 5 = 0 ∧ word 6 ≠ 0 ∧ word 7 ≠ 0 ∨ word 5 = 2 ^ 16 - 1) then
    if word 5 = 0 then ':' :: ':' :: torInetNtoa addr
    else ':' :: ':' :: Nat.toDigits 16 (word 5) ++ ':' :: torInetNtoa addr
  else printWords (longestGapPos words) false 0 words

/-- The text of an IPv6 address with a port (`fmt_addrport`). -/
def fmtAddrport (addr : BitVec 128) (port : UInt16) : DocText :=
  '[' :: torInetNtop addr.toNat ++ ']' :: ':' :: Nat.toDigits 10 port.toNat

example : String.ofList (fmtAddrport 0x20010db8000000000000ff0000428329 443) =
    "[2001:db8::ff00:42:8329]:443" := by decide

/-! ### Writing -/

/-- The first lines of an entry (`routerstatus_format_entry`). -/
def routerstatusFormatEntry (flavor : ConsensusFlavor) (rs : RsOut) : DocText :=
  'r' :: ' ' :: rs.nickname.toList ++ ' ' :: digestToBase64 20 rs.identityDigest ++
    (if flavor = .ns then ' ' :: digestToBase64 20 rs.rs.descriptorDigest else []) ++
    ' ' :: formatIsoTime rs.rs.publishedOn.toNat ++ ' ' :: torInetNtoa rs.rs.addr.toNat ++
    ' ' :: Nat.toDigits 10 rs.rs.orPort.toNat ++ ' ' :: Nat.toDigits 10 rs.rs.dirPort.toNat ++
    ['\n'] ++
    if flavor = .ns then
      match rs.altOrport with
      | some (addr, port) => 'a' :: ' ' :: fmtAddrport addr port ++ ['\n']
      | none => []
    else []

def weightsLine (consensusMethod : ℕ) (rs : RsOut) : DocText :=
  match rs.bandwidthKb with
  | none => []
  | some bandwidthKb =>
    "w Bandwidth=".toList ++ intText (castInt32 bandwidthKb.toNat) ++
      (if rs.bwIsUnmeasured ∧ minMethodToClipUnmeasuredBw ≤ consensusMethod then
        " Unmeasured=1".toList else []) ++
      (match rs.guardfractionPercentage with
        | some g => " GuardFraction=".toList ++ Nat.toDigits 10 g.toNat
        | none => []) ++ ['\n']

/-- The text of an entry, as the consensus contains it. -/
def entryText (flavor : ConsensusFlavor) (consensusMethod : ℕ) (rs : RsOut) : DocText :=
  routerstatusFormatEntry flavor rs ++
    (if flavor = .microdesc then 'm' :: ' ' :: digestToBase64 32 rs.microdescDigest ++ ['\n']
      else []) ++
    [' '].intercalate (['s'] :: rs.chosenFlags.map String.toList) ++
    (match rs.version with
      | some version => '\n' :: 'v' :: ' ' :: version.toList
      | none => []) ++ ['\n'] ++
    weightsLine consensusMethod rs ++
    match rs.exitsummary with
    | some exitsummary => if flavor = .ns then 'p' :: ' ' :: exitsummary.toList ++ ['\n'] else []
    | none => []

/-! ### Reading -/

/-- The status of a router that was read (`routerstatus_t`). -/
structure Routerstatus where
  nickname : DocText
  identityDigest : Digest
  descriptorDigest : Digest
  publishedOn : ℕ
  addr : UInt32
  orPort : UInt16
  dirPort : UInt16
  isExit : Bool
  isStable : Bool
  isFast : Bool
  isFlaggedRunning : Bool
  isNamed : Bool
  isValid : Bool
  isPossibleGuard : Bool
  isBadExit : Bool
  isAuthority : Bool
  isUnnamed : Bool
  isHsDir : Bool
  bandwidthKb : Option UInt32
  bwIsUnmeasured : Bool
  guardfractionPercentage : Option ℕ
  exitsummary : Option DocText

/-- The weights of an entry that are read so far. -/
structure EntryWeights where
  bandwidthKb : Option UInt32
  bwIsUnmeasured : Bool
  guardfractionPercentage : Option ℕ

/-- Whether a text starts with another (`strcmpstart`). -/
def startsWith (s pattern : DocText) : Bool := pattern.isPrefixOf s

/-- Read one argument of the line with the weights. -/
def parseWeight (shouldApplyGuardfraction isPossibleGuard : Bool) (w : EntryWeights)
    (arg : DocText) :
    Option EntryWeights :=
  if startsWith arg "Bandwidth=".toList then
    (torParseUlong (arg.drop 10) 0 (2 ^ 32 - 1)).map fun bw =>
      { w with bandwidthKb := some (UInt32.ofNat bw) }
  else if startsWith arg "Unmeasured=1".toList then some { w with bwIsUnmeasured := true }
  else if startsWith arg "GuardFraction=".toList then
    if shouldApplyGuardfraction then
      (torParseUlong (arg.drop 14) 0 100).map fun g =>
        if isPossibleGuard then { w with guardfractionPercentage := some g } else w
    else some w
  else some w

section Reader

variable (skipObject : DocText → Option DocText) (shouldApplyGuardfraction : Bool)

/-- The arguments of the first token with a keyword (`find_opt_by_keyword`). -/
def findOptByKeyword (toks : List DirectoryToken) (tp : Keyword) : Option (List DocText) :=
  (toks.find? fun tok => tok.tp = tp).map (·.args)

/-- Read the weights of an entry. -/
def parseWeights (isPossibleGuard : Bool) (toks : List DirectoryToken) : Option EntryWeights :=
  ((findOptByKeyword toks .w).getD []).foldlM (parseWeight shouldApplyGuardfraction isPossibleGuard)
    ⟨none, false, none⟩

/-- Read the exit policy summary of an entry. -/
def parseExitsummary (toks : List DirectoryToken) : Option (Option DocText) :=
  match findOptByKeyword toks .p with
  | none => some none
  | some args =>
    let arg := args.getD 0 []
    if startsWith arg "accept ".toList ∨ startsWith arg "reject ".toList then some (some arg)
      else none

/-- Read the digest of the microdescriptor of an entry, if there is one. -/
def parseMicrodescDigest (toks : List DirectoryToken) : Option Digest :=
  match findOptByKeyword toks .m with
  | none => some 0
  | some args => digestFromBase64 32 (args.getD 0 [])

/-- Read the entry of a router from its tokens. -/
def parseEntryTokens (consensusMethod : ℕ) (flav : ConsensusFlavor) (toks : List DirectoryToken) :
    Option Routerstatus := do
  let args ← findOptByKeyword toks .r
  let arg := fun i => args.getD i []
  -- entries of microdescriptor consensuses have no digest of the descriptor
  let offset := if flav = .ns then 0 else 1
  if flav = .ns ∧ args.length < 8 then none
  else if !isLegalNickname (arg 0) then none
  else do
    let identityDigest ← digestFromBase64 20 (arg 1)
    let descriptorDigest ← if flav = .ns then digestFromBase64 20 (arg 2)
      else parseMicrodescDigest toks
    let timebuf := arg (3 - offset) ++ ' ' :: arg (4 - offset)
    let publishedOn ← if timebuf.length ≤ 19 then parseIsoTime timebuf else none
    let addr ← torInetAton (arg (5 - offset))
    let flags := (findOptByKeyword toks .s).getD []
    let hasFlag := fun flag : String => decide (flag.toList ∈ flags)
    let weights ← parseWeights shouldApplyGuardfraction (hasFlag "Guard") toks
    let exitsummary ← parseExitsummary toks
    some
      { nickname := arg 0
        identityDigest := identityDigest
        descriptorDigest := descriptorDigest
        publishedOn := publishedOn
        addr := addr
        orPort := UInt16.ofNat ((torParseLong (arg (6 - offset)) 0 65535).getD 0).toNat
        dirPort := UInt16.ofNat ((torParseLong (arg (7 - offset)) 0 65535).getD 0).toNat
        isExit := hasFlag "Exit"
        isStable := hasFlag "Stable"
        isFast := hasFlag "Fast"
        isFlaggedRunning := hasFlag "Running"
        -- nobody is named "Unnamed"
        isNamed := hasFlag "Named" && decide ((arg 0).map Char.toLower ≠ "unnamed".toList)
        isValid := hasFlag "Valid"
        isPossibleGuard := hasFlag "Guard"
        isBadExit := hasFlag "BadExit"
        isAuthority := hasFlag "Authority"
        isUnnamed := hasFlag "Unnamed" && decide (2 ≤ consensusMethod)
        isHsDir := hasFlag "HSDir"
        bandwidthKb := weights.bandwidthKb
        bwIsUnmeasured := weights.bwIsUnmeasured
        guardfractionPercentage := weights.guardfractionPercentage
        exitsummary := exitsummary }

/-- Read the entry at the start of a text, and the text after it
(`routerstatus_parse_entry_from_string`). -/
def routerstatusParseEntryFromString (consensusMethod : ℕ) (flav : ConsensusFlavor) (s : DocText) :
    Option Routerstatus × DocText :=
  let flav := if consensusMethod = 0 then .ns else flav
  let eos := findStartOfNextRouterstatus s
  ((tokenizeString skipObject rtrstatusTokenTable (s.take eos)).bind
    (parseEntryTokens shouldApplyGuardfraction consensusMethod flav), s.drop eos)

/-- Read all entries of a document, and skip those that cannot be read (the entry loop of
`networkstatus_parse_vote_from_string`).  The number of passes is given. -/
def parseEntries (consensusMethod : ℕ) (flav : ConsensusFlavor) : ℕ → DocText → List Routerstatus
  | 0, _ => []
  | n + 1, s =>
    if startsWith s "r ".toList then
      let r :=
        routerstatusParseEntryFromString skipObject shouldApplyGuardfraction consensusMethod flav s
      r.1.toList ++ parseEntries consensusMethod flav n r.2
    else []

end Reader

end Astoria
