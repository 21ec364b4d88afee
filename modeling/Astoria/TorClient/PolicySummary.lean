import Astoria.Library.Tiling
import Astoria.TorClient.ExitPolicy
import Astoria.TorClient.IsoTime

/-!
# Summaries of exit policies

A router's exit policy is summarized as the ports at which it lets most addresses through.  The
summary is computed with a list of port ranges, each of which knows how many addresses are rejected
at its ports so far and whether they have been accepted.  It is written as the accepted ranges or
the rejected ones, whichever is shorter, and cut if both are too long.

The number of addresses with a prefix is computed for IPv4 only, but it is used for both families.
-/

namespace Astoria

/-! ### Port ranges -/

/-- A range of ports (`policy_summary_item_t`). -/
structure PolicySummaryItem where
  prtMin : ℕ
  prtMax : ℕ
  /-- The number of addresses that are rejected. -/
  rejectCount : ℕ
  accepted : Bool
  deriving DecidableEq

/-- One range with all ports (`policy_summary_create`). -/
def policySummaryCreate : List PolicySummaryItem := [⟨1, 65535, 0, false⟩]

/-- Split a range in front of a port.  Neither part may be empty. -/
def policySummaryItemSplit (old : PolicySummaryItem) (newStarts : ℕ) :
    Option (PolicySummaryItem × PolicySummaryItem) :=
  let new := { old with prtMin := newStarts }
  let old := { old with prtMax := (newStarts + 2 ^ 16 - 1) % 2 ^ 16 }
  if old.prtMin ≤ old.prtMax ∧ new.prtMin ≤ new.prtMax then some (old, new) else none

/-- The ranges before the first one that does not end before a port, and those from it on.  The
index must not leave the list. -/
def skipTo (port : ℕ) :
    List PolicySummaryItem → Option (List PolicySummaryItem × List PolicySummaryItem)
  | [] => none
  | item :: rest =>
    if item.prtMax < port then (skipTo port rest).map fun r => (item :: r.1, r.2)
    else some ([], item :: rest)

/-- The ranges before a port and those from it on, which a range is split for if need be. -/
def splitStart (summary : List PolicySummaryItem) (prtMin : ℕ) :
    Option (List PolicySummaryItem × List PolicySummaryItem) :=
  match skipTo prtMin summary with
  | some (before, item :: rest) =>
    if item.prtMin ≠ prtMin then
      (policySummaryItemSplit item prtMin).map fun r => (before ++ [r.1], r.2 :: rest)
    else some (before, item :: rest)
  | _ => none

/-- Split a summary so that a range of ports consists of whole ranges: those before it, and those
from its start on (`policy_summary_split`). -/
def policySummarySplit (summary : List PolicySummaryItem) (prtMin prtMax : ℕ) :
    Option (List PolicySummaryItem × List PolicySummaryItem) := do
  let (before, after) ← splitStart summary prtMin
  match skipTo prtMax after with
  | some (inside, item :: rest) =>
    if item.prtMax ≠ prtMax then
      (policySummaryItemSplit item ((prtMax + 1) % 2 ^ 16)).map fun r =>
        (before, inside ++ r.1 :: r.2 :: rest)
    else some (before, inside ++ item :: rest)
  | _ => none

/-- Change the ranges that do not end after a port.  There must be more of them, unless it is the
last port. -/
def updateRanges (change : PolicySummaryItem → PolicySummaryItem) (prtMax : ℕ)
    (after : List PolicySummaryItem) : Option (List PolicySummaryItem) :=
  let stay := after.dropWhile fun item => item.prtMax ≤ prtMax
  if stay ≠ [] ∨ prtMax = 65535 then
    some ((after.takeWhile fun item => item.prtMax ≤ prtMax).map change ++ stay)
  else none

/-- The largest number of rejected addresses at an accepted port (`REJECT_CUTOFF_COUNT`). -/
def rejectCutoffCount : ℕ := 2 ^ 25

/-- Accept a range of ports, but those at which too much is rejected. -/
def policySummaryAccept (summary : List PolicySummaryItem) (prtMin prtMax : ℕ) :
    Option (List PolicySummaryItem) := do
  let (before, after) ← policySummarySplit summary prtMin prtMax
  let after ← updateRanges (fun item =>
    if item.accepted = false ∧ item.rejectCount ≤ rejectCutoffCount then
      { item with accepted := true }
    else item)
    prtMax after
  some (before ++ after)

/-- Reject the addresses of a network at a range of ports.  The shift must not be by a negative
number. -/
def policySummaryReject (summary : List PolicySummaryItem) (maskbits prtMin prtMax : ℕ) :
    Option (List PolicySummaryItem) := do
  let (before, after) ← policySummarySplit summary prtMin prtMax
  let count ← if maskbits ≤ 32 then some (2 ^ (32 - maskbits)) else none
  let after ← updateRanges
    (fun item => { item with rejectCount := (item.rejectCount + count) % 2 ^ 64 }) prtMax after
  some (before ++ after)

/-- An IPv6 address that is zero apart from two bytes. -/
def ipv6Net (first second : BitVec 8) : TorAddr :=
  .ipv6 (Vector.ofFn fun i => if i = 0 then first else if i = 1 then second else 0)

/-- The private networks (`private_nets`). -/
def privateNets : List (TorAddr × ℕ) :=
  [(.ipv4 0x00000000, 8), (.ipv4 0xa9fe0000, 16), (.ipv4 0x7f000000, 8), (.ipv4 0xc0a80000, 16),
    (.ipv4 0x0a000000, 8), (.ipv4 0xac100000, 12), (ipv6Net 0 0, 8), (ipv6Net 0xfc 0, 7),
    (ipv6Net 0xfe 0x80, 10), (ipv6Net 0xfe 0xc0, 10), (ipv6Net 0xff 0, 8), (ipv6Net 0 0, 127)]

/-- An item is about one of the private networks. -/
def AddrPolicy.isPrivate (p : AddrPolicy) : Bool :=
  privateNets.any fun net => torAddrCompareMasked p.addr net.1 128 .exact = 0 && p.maskbits = net.2

/-- Add an item to a summary (`policy_summary_add_item`). -/
def policySummaryAddItem (summary : List PolicySummaryItem) (p : AddrPolicy) :
    Option (List PolicySummaryItem) :=
  match p.policyType with
  | .accept =>
    if p.maskbits = 0 then policySummaryAccept summary p.prtMin.toNat p.prtMax.toNat
      else some summary
  | .reject =>
    if p.isPrivate then some summary
    else policySummaryReject summary p.maskbits p.prtMin.toNat p.prtMax.toNat

/-! ### Writing -/

/-- The longest summary (`MAX_EXITPOLICY_SUMMARY_LEN`). -/
def maxExitpolicySummaryLen : ℕ := 1000

/-- The ranges with the same answer, joined.  The current one starts at a port that is given. -/
def summaryRanges : ℕ → List PolicySummaryItem → List (Bool × ℕ × ℕ)
  | _, [] => []
  | startPrt, [item] => [(item.accepted, startPrt, item.prtMax)]
  | startPrt, item :: next :: rest =>
    if item.accepted ≠ next.accepted then
      (item.accepted, startPrt, item.prtMax) :: summaryRanges next.prtMin (next :: rest)
    else summaryRanges startPrt (next :: rest)

def rangeText (range : ℕ × ℕ) : DocText :=
  if range.1 = range.2 then Nat.toDigits 10 range.1
  else Nat.toDigits 10 range.1 ++ '-' :: Nat.toDigits 10 range.2

def rangeTexts (answer : Bool) (ranges : List (Bool × ℕ × ℕ)) : List DocText :=
  (ranges.filter fun r => r.1 = answer).map fun r => rangeText r.2

/-- The longest list of ranges, with room for the word before it. -/
def maxRangesLen : ℕ := maxExitpolicySummaryLen - "accept".toList.length - 1

/-- Both lists of ranges are too long. -/
def summaryTooLong (accepts rejects : List DocText) : Bool :=
  maxRangesLen < ([','].intercalate rejects).length &&
    maxRangesLen < ([','].intercalate accepts).length

/-- The text before the last comma, if there is one. -/
def beforeLastComma (s : DocText) : Option DocText :=
  match s.reverse.dropWhile (· ≠ ',') with
  | [] => none
  | _ :: kept => some kept.reverse

/-- The text before the last comma that leaves it short enough.  There must be one. -/
def cutAtComma (s : DocText) : Option DocText := beforeLastComma (s.take (maxRangesLen + 1))

def summaryText (ranges : List (Bool × ℕ × ℕ)) : Option DocText :=
  let accepts := rangeTexts true ranges
  let rejects := rangeTexts false ranges
  if accepts = [] then some "reject 1-65535".toList
  else if rejects = [] then some "accept 1-65535".toList
  else if summaryTooLong accepts rejects then
    (cutAtComma ([','].intercalate accepts)).map ("accept ".toList ++ ·)
  else if ([','].intercalate rejects).length < ([','].intercalate accepts).length then
    some ("reject ".toList ++ [','].intercalate rejects)
  else some ("accept ".toList ++ [','].intercalate accepts)

/-- The items of a policy that are about a family. -/
def familyItems (policy : List AddrPolicy) (family : SaFamily) : List AddrPolicy :=
  policy.filter fun p => p.addr.family = family

/-- The port ranges of a policy, for one family. -/
def policySummary (policy : List AddrPolicy) (family : SaFamily) :
    Option (List PolicySummaryItem) :=
  (familyItems policy family).foldlM policySummaryAddItem policySummaryCreate

/-- The summary of a policy is cut. -/
def summaryTruncated (policy : List AddrPolicy) (family : SaFamily) : Bool :=
  (policySummary policy family).any fun summary =>
    summaryTooLong (rangeTexts true (summaryRanges 1 summary))
      (rangeTexts false (summaryRanges 1 summary))

/-- The summary of a policy (`policy_summarize`). -/
def policySummarize (policy : List AddrPolicy) (family : SaFamily) : Option DocText :=
  (policySummary policy family).bind fun summary => summaryText (summaryRanges 1 summary)

/-! ### Reading -/

/-- A summary that was read (`short_policy_t`). -/
structure ShortPolicy where
  isAccept : Bool
  entries : List (ℕ × ℕ)

/-- The range in a text. -/
def parseShortEntry (s : DocText) : Option (ℕ × ℕ) := do
  let (low, rest) ← scanUnsigned maxScanfWidth s
  let range ← match rest with
    | [] => some (low, low)
    | '-' :: rest =>
      match scanUnsigned maxScanfWidth rest with
      | some (high, []) => some (low, high)
      | _ => none
    | _ => none
  if 1 ≤ range.1 ∧ range.1 ≤ 65535 ∧ 1 ≤ range.2 ∧ range.2 ≤ 65535 ∧ range.1 ≤ range.2 then
    some range
  else none

/-- The ranges in a text.  Each pass reads one, and skips it if it does not start with a digit or is
too long.  The number of ranges so far is given. -/
def parseShortEntries : ℕ → ℕ → DocText → Option (List (ℕ × ℕ))
  | _, _, [] => some []
  | 0, _, _ => none
  | n + 1, nEntries, c :: s =>
    let entry := (c :: s).takeWhile (· ≠ ',')
    let next := ((c :: s).dropWhile (· ≠ ',')).drop 1
    if nEntries = maxExitpolicySummaryLen then none
    else if c.isDigit = false ∨ 31 < entry.length then parseShortEntries n nEntries next
    else
      match parseShortEntry entry with
      | none => none
      | some range => (parseShortEntries n (nEntries + 1) next).map (range :: ·)

/-- The policy in a summary, if there is one (`parse_short_policy`). -/
def parseShortPolicy (summary : DocText) : Option ShortPolicy :=
  let keyword := summary.take 7
  if keyword = "accept ".toList ∨ keyword = "reject ".toList then
    match parseShortEntries summary.length 0 (summary.drop 7) with
    | none | some [] => none
    | some entries => some ⟨decide (keyword = "accept ".toList), entries⟩
  else none

/-- Whether a summary accepts a port (`compare_tor_addr_to_short_policy` without an address). -/
def ShortPolicy.accepts (policy : ShortPolicy) (port : ℕ) : Bool :=
  if policy.entries.any fun e => e.1 ≤ port && port ≤ e.2 then policy.isAccept else !policy.isAccept

end Astoria
