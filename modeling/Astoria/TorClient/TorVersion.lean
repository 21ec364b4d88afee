import Astoria.Library.DecimalText
import Astoria.TorClient.ConsensusRouters
import Astoria.TorClient.DocTokens

/-!
# Versions

A version is text with some numbers, a status and a tag.  Versions are compared number by number, so
that two texts can be the same version without being equal.
-/

namespace Astoria

/-- A number as a 32-bit integer. -/
def castInt32 (n : ℤ) : ℤ := Int.bmod n (2 ^ 32)

/-- The decimal number at the start of a text and what follows it, if there is one (`strtol`). -/
def strtol (s : DocText) : Option (ℤ × DocText) :=
  let (negative, s) := splitSign (s.dropWhile isWhite)
  let digits := s.takeWhile Char.isDigit
  if digits = [] then none
  else
    let value : ℤ := if negative then -digitsValue digits else digitsValue digits
    some (max (-2 ^ 63) (min value (2 ^ 63 - 1)), s.dropWhile Char.isDigit)

inductive VersionStatus
  | pre | rc | release
  deriving DecidableEq

def VersionStatus.toInt : VersionStatus → ℤ
  | .pre => 0
  | .rc => 1
  | .release => 2

/-- A version that was parsed (`tor_version_t`). -/
structure TorVersion where
  major : ℤ
  minor : ℤ
  micro : ℤ
  status : VersionStatus
  patchlevel : ℤ
  statusTag : DocText
  svnRevision : ℤ
  gitTag : List ℕ

/-- The longest status tag (`MAX_STATUS_TAG_LEN`, with the terminator). -/
def maxStatusTagLen : ℕ := 32

/-- The value of a hexadecimal digit. -/
def hexDecodeDigit (c : Char) : Option ℕ :=
  if c.isDigit then some (c.toNat - '0'.toNat)
  else if 'A' ≤ c ∧ c ≤ 'F' then some (c.toNat - 'A'.toNat + 10)
  else if 'a' ≤ c ∧ c ≤ 'f' then some (c.toNat - 'a'.toNat + 10)
  else none

/-- The bytes of a text in base 16, two digits each. -/
def base16Decode : DocText → Option (List ℕ)
  | [] => some []
  | [_] => none
  | a :: b :: s => do
    let v₁ ← hexDecodeDigit a
    let v₂ ← hexDecodeDigit b
    let bytes ← base16Decode s
    some ((16 * v₁ + v₂) :: bytes)

/-- The tags at the end of a version (from `status_tag` on). -/
def parseStatusTag (v : TorVersion) (s : DocText) : Option TorVersion :=
  let s := if s.head? = some '-' ∨ s.head? = some '.' then s.tail else s
  let v := { v with statusTag := (s.takeWhile fun c => !endsWord c).take (maxStatusTagLen - 1) }
  let s := eatWhitespace (s.dropWhile fun c => !endsWord c)
  if "(r".toList.isPrefixOf s then
    some { v with svnRevision := ((strtol (s.drop 2)).map fun r => castInt32 r.1).getD 0 }
  else if "(git-".toList.isPrefixOf s then
    if ')' ∉ s then none
    else
      let hex := (s.takeWhile (· ≠ ')')).drop 5
      if 40 < hex.length ∨ hex = [] then none
      else (base16Decode hex).map fun bytes => { v with gitTag := bytes }
  else some v

def versionNumber (s : DocText) : Option (ℤ × DocText) := (strtol s).map fun r =>
  (castInt32 r.1, r.2)

/-- The version in a text (`tor_version_parse`). -/
def torVersionParse (s : DocText) : Option TorVersion := do
  let s := if (s.take 4).map Char.toLower = "tor ".toList then s.drop 4 else s
  let (major, s) ← versionNumber s
  let s ← if s.head? = some '.' then some s.tail else none
  let (minor, s) ← versionNumber s
  let v : TorVersion := ⟨major, minor, 0, .release, 0, [], 0, []⟩
  match s with
  | [] => some v
  | '-' :: _ => parseStatusTag v s
  | '.' :: s => do
    let (micro, s) ← versionNumber s
    let v := { v with micro := micro }
    match s with
    | [] => some v
    | '-' :: _ => parseStatusTag v s
    | '.' :: s => do
      let (patchlevel, s) ← versionNumber s
      parseStatusTag { v with patchlevel := patchlevel } s
    | 'p' :: 'r' :: 'e' :: s => do
      let (patchlevel, s) ← versionNumber s
      parseStatusTag { v with status := .pre, patchlevel := patchlevel } s
    | 'r' :: 'c' :: s => do
      let (patchlevel, s) ← versionNumber s
      parseStatusTag { v with status := .rc, patchlevel := patchlevel } s
    | _ => none
  | _ => none

def torVersionCompare (a b : TorVersion) : ℤ :=
  if castInt32 (a.major - b.major) ≠ 0 then castInt32 (a.major - b.major)
  else if castInt32 (a.minor - b.minor) ≠ 0 then castInt32 (a.minor - b.minor)
  else if castInt32 (a.micro - b.micro) ≠ 0 then castInt32 (a.micro - b.micro)
  else if a.status.toInt - b.status.toInt ≠ 0 then a.status.toInt - b.status.toInt
  else if castInt32 (a.patchlevel - b.patchlevel) ≠ 0 then castInt32 (a.patchlevel - b.patchlevel)
  else if memcmp a.statusTag b.statusTag ≠ 0 then memcmp a.statusTag b.statusTag
  else if castInt32 (a.svnRevision - b.svnRevision) ≠ 0 then
    castInt32 (a.svnRevision - b.svnRevision)
  else if (a.gitTag.length - b.gitTag.length : ℤ) ≠ 0 then a.gitTag.length - b.gitTag.length
  else memcmp a.gitTag b.gitTag

/-- The order of version texts: versions that cannot be parsed come last
(`compare_tor_version_str_ptr_`). -/
def compareTorVersionStr (a b : String) : ℤ :=
  match torVersionParse a.toList, torVersionParse b.toList with
  | some va, some vb => torVersionCompare va vb
  | some _, none => -1
  | none, some _ => 1
  | none, none => strcmp a b

example : compareTorVersionStr "Tor 0.2.4.8-alpha" "0.2.4.08-alpha (r12)" = -12 := by decide

end Astoria
