import Mathlib
import Astoria.TorClient.DirvoteAdd
import Astoria.TorClient.ExitPolicy

/-!
# Sets of routers

A set of routers is written as a list of entries with commas between them: fingerprints, nicknames,
countries and address patterns.  For each kind of entry the set has a map or a list of its own,
besides the texts of all entries. The nodes of a set are found in two ways: a set of fingerprints
and nicknames only is looked up entry by entry, and for every other set all nodes are asked whether
they belong to it.

A set that is built by parsing and by unions is determined by the texts of its entries
(`Built.exists_entries`).
-/

namespace Astoria.Routersets

open List hiding Vector Vector.replicate set

local instance : LawfulBEq DocText := inferInstance

/-! ### Texts -/

/-- The white space (`TOR_ISSPACE`). -/
def torIsSpace (c : Char) : Bool := c = ' ' || ('\t' ≤ c && c ≤ '\r')

/-- A text without the white space around it. -/
def stripSpace (s : DocText) : DocText := (s.dropWhile torIsSpace).rdropWhile torIsSpace

/-- The pieces of a text between commas, without white space around them and without blank ones
(`smartlist_split_string`). -/
def smartlistSplitString (s : DocText) : List DocText :=
  ((s.splitOn ',').map stripSpace).filter (· ≠ [])

/-- Some texts with commas between them (`smartlist_join_strings`). -/
def smartlistJoinStrings (l : List DocText) : DocText := [','].intercalate l

/-- The text in lower case (`tor_strlower`). -/
def torStrlower (s : DocText) : DocText := s.map Char.toLower

/-- The characters of hexadecimal numbers (`HEX_CHARACTERS`). -/
def isHexChar (c : Char) : Bool := c.isDigit || ('A' ≤ c && c ≤ 'F') || ('a' ≤ c && c ≤ 'f')

/-- The length of a fingerprint (`HEX_DIGEST_LEN`). -/
def hexDigestLen : ℕ := 40

/-- The length of the longest nickname (`MAX_NICKNAME_LEN`). -/
def maxNicknameLen : ℕ := 19

def isLegalNickname (s : DocText) : Bool :=
  0 < s.length && s.length ≤ maxNicknameLen && s.all Char.isAlphanum

/-- A fingerprint without the dollar sign before it. -/
def skipDollar (s : DocText) : DocText := if s.head? = some '$' then s.tail else s

/-- Whether a text can be a fingerprint.  A nickname may follow it. -/
def isLegalHexdigest (s : DocText) : Bool :=
  let s := skipDollar s
  (s.length ≤ hexDigestLen
      || (s[hexDigestLen]? = some '=' || s[hexDigestLen]? = some '~') &&
        isLegalNickname (s.drop (hexDigestLen + 1)))
    && hexDigestLen ≤ s.length && (s.takeWhile isHexChar).length = hexDigestLen

/-- The value of a hexadecimal digit. -/
def hexValue (c : Char) : ℕ :=
  if c.isDigit then c.toNat - '0'.toNat
  else if 'a' ≤ c then c.toNat - 'a'.toNat + 10
  else c.toNat - 'A'.toNat + 10

/-- The digest with a fingerprint (`base16_decode`). -/
def base16Decode (s : DocText) : Option Digest :=
  if s.all isHexChar then some (s.foldl (fun d c => 16 * d + hexValue c) 0) else none

/-- The digest of a fingerprint and the nickname after it, with the sign between them. -/
def hexDigestNicknameDecode (hexdigest : DocText) : Option (Digest × Option (Char × DocText)) :=
  let s := skipDollar hexdigest
  if s.length < hexDigestLen then none
  else if hexDigestLen < s.length ∧ (s[hexDigestLen]? = some '=' ∨ s[hexDigestLen]? = some '~') ∧
      s.length ≤ hexDigestLen + 1 + maxNicknameLen then
    (base16Decode (s.take hexDigestLen)).map fun d =>
      (d, s[hexDigestLen]?.map fun c => (c, s.drop (hexDigestLen + 1)))
  else if s.length = hexDigestLen then (base16Decode (s.take hexDigestLen)).map fun d => (d, none)
  else none

/-! ### Address patterns -/

/-- An item of an address policy (`addr_policy_t`).  Without an address it stands for all
families. -/
structure PolicyItem where
  policyType : AddrPolicyAction
  addr : Option TorAddr
  maskbits : ℕ
  prtMin : UInt16
  prtMax : UInt16
  isPrivate : Bool
  deriving DecidableEq

/-- An item for all families is one for each family, unless it stands for private networks. -/
def PolicyItem.expandUnspec (p : PolicyItem) : List PolicyItem :=
  if p.addr.isSome || p.isPrivate then [p]
  else [{ p with maskbits := 0, addr := some (.ipv4 0) },
    { p with maskbits := 0, addr := some (.ipv6 (Vector.replicate 16 0)) }]

/-- All items for all families are replaced. -/
def policyExpandUnspec (policy : List PolicyItem) : List PolicyItem :=
  policy.flatMap PolicyItem.expandUnspec

def PolicyItem.coversAddr (addr : TorAddr) (p : PolicyItem) : Bool :=
  p.addr.any fun a => torAddrCompareMasked addr a p.maskbits .exact = 0

def PolicyItem.coversPort (port : UInt16) (p : PolicyItem) : Bool :=
  p.prtMin ≤ port && port ≤ p.prtMax

/-- The first item that matches for sure decides, unless one that says something different may have
matched before. -/
def firstMatch (may definite : PolicyItem → Bool) (maybeAccept maybeReject : Bool) :
    List PolicyItem → AddrPolicyResult
  | [] => if maybeReject then .probablyAccepted else .accepted
  | p :: policy =>
    if may p then
      if definite p then
        if p.policyType = .accept then if maybeReject then .probablyAccepted else .accepted
        else if maybeAccept then .probablyRejected else .rejected
      else if p.policyType = .reject then firstMatch may definite maybeAccept true policy
      else firstMatch may definite true maybeReject policy
    else firstMatch may definite maybeAccept maybeReject policy

/-- Whether an item may match.  The address with only zeroes is unknown, and so is the port 0. -/
def PolicyItem.mayMatch (addr : TorAddr) (port : UInt16) (p : PolicyItem) : Bool :=
  if torAddrIsNull addr then p.coversPort port
  else if port = 0 then p.coversAddr addr
  else p.coversAddr addr && p.coversPort port

/-- Whether an item that may match does so for sure. -/
def PolicyItem.definite (addr : TorAddr) (port : UInt16) (p : PolicyItem) : Bool :=
  if torAddrIsNull addr then p.maskbits = 0
  else if port = 0 then p.prtMin ≤ 1 && p.prtMax ≥ 65535
  else true

/-- The answer of a policy for an address and a port, of which at least one should be known. -/
def compareTorAddrToPolicy (addr : TorAddr) (port : UInt16) (policy : List PolicyItem) :
    AddrPolicyResult :=
  if torAddrIsNull addr ∧ port = 0 then .rejected
  else firstMatch (PolicyItem.mayMatch addr port) (PolicyItem.definite addr port) false false policy

/-! ### Sets -/

/-- The database of countries.  Countries have numbers. -/
structure Geoip where
  isLoaded : Bool
  getCountry : DocText → Option ℕ
  countryByAddr : TorAddr → ℤ
  nCountries : ℕ

/-- A set of routers (`routerset_t`).  The maps are given by their keys and the bit array by its
bits that are set.  A router is in the set if the policy rejects it. -/
structure Routerset where
  list : List DocText
  names : List DocText
  digests : List Digest
  policies : List PolicyItem
  countryNames : List DocText
  countries : Option (List ℕ)
  nCountries : ℕ
  deriving DecidableEq

/-- The set without entries. -/
def routersetNew : Routerset := ⟨[], [], [], [], [], none, 0⟩

/-- The country in a text such as `\x7bcc\x7d`. -/
def routersetGetCountryname (s : DocText) : Option DocText :=
  if s.length < 4 ∨ s[0]? ≠ some '\x7b' ∨ s[3]? ≠ some '\x7d' then none
  else some (torStrlower ((s.drop 1).take 2))

inductive RoutersetEntry
  | digest (d : Digest)
  | nickname (name : DocText)
  | country (name : DocText)
  | address (p : PolicyItem)
  | malformed
  deriving DecidableEq

section Sets

variable (geoip : Geoip) (parseItem : DocText → Option PolicyItem)

/-- The bits of the countries are set again. -/
def routersetRefreshCountries (target : Routerset) : Routerset :=
  if geoip.isLoaded then
    { target with
      countries := some (target.countryNames.filterMap geoip.getCountry),
        nCountries := geoip.nCountries }
  else { target with countries := none, nCountries := 0 }

def routersetEntry (nick : DocText) : RoutersetEntry :=
  if isLegalHexdigest nick then
    .digest ((base16Decode ((skipDollar nick).take hexDigestLen)).getD 0)
  else if isLegalNickname nick then .nickname (torStrlower nick)
  else match routersetGetCountryname nick with
    | some countryname => .country countryname
    | none =>
      if '.' ∈ nick ∨ '*' ∈ nick then
        match parseItem nick with
        | some p => .address p
        | none => .malformed
      else .malformed

/-- The rest of a list after an element of it has been deleted: the last one takes its place
(`SMARTLIST_DEL_CURRENT`). -/
def replaceByLast (rest : List DocText) : List DocText :=
  match rest.getLast? with
  | none => []
  | some last => last :: rest.dropLast

/-- The set with an entry, before the lists are tidied up. -/
def addEntry (target : Routerset) : RoutersetEntry → Option Routerset
  | .digest d => some { target with digests := target.digests ++ [d] }
  | .nickname name => some { target with names := target.names ++ [name] }
  | .country name => some { target with countryNames := target.countryNames ++ [name] }
  | .address p => some { target with policies := target.policies ++ [p] }
  | .malformed => none

/-- Go through the entries.  Those that are malformed are deleted from the list; `r` is then `-1`.
The number of passes is given. -/
def parseEntries : ℕ → List DocText → List DocText → Routerset → ℤ → List DocText × Routerset × ℤ
  | 0, _, list, target, r => (list, target, r)
  | _ + 1, [], list, target, r => (list, target, r)
  | n + 1, nick :: rest, list, target, r =>
    match addEntry target (routersetEntry parseItem nick) with
    | some target => parseEntries n rest (list ++ [nick]) target r
    | none => parseEntries n (replaceByLast rest) list target (-1)

/-- Add the entries in a text to a set.  The result is `-1` if some are malformed. -/
def routersetParse (target : Routerset) (s : DocText) : Routerset × ℤ :=
  let entries := smartlistSplitString s
  let (list, target', r) := parseEntries parseItem entries.length entries [] target 0
  let added : Routerset :=
    { target' with policies := policyExpandUnspec target'.policies, list := target'.list ++ list }
  let addedCountries := target.countryNames.length < target'.countryNames.length
  (if addedCountries then routersetRefreshCountries geoip added else added, r)

/-- The text of a set. -/
def routersetToString : Option Routerset → DocText
  | none => []
  | some set => smartlistJoinStrings set.list

/-- Add all members of a set to another one. -/
def routersetUnion (target : Routerset) : Option Routerset → Routerset
  | none => target
  | some source => (routersetParse geoip parseItem target (routersetToString (some source))).1

/-- Whether a set has only nicknames and fingerprints. -/
def routersetIsList (set : Routerset) : Bool :=
  set.countryNames.length = 0 && set.policies.length = 0

/-- Whether a router is in a set, and by what kind of entry. -/
def routersetContains (set : Option Routerset) (addr : TorAddr) (orport : UInt16)
    (nickname : DocText) (idDigest : Digest) (country : ℤ) : ℕ :=
  match set with
  | none => 0
  | some set =>
    if torStrlower nickname ∈ set.names then 4
    else if idDigest ∈ set.digests then 4
    else if compareTorAddrToPolicy addr orport set.policies = .rejected then 3
    else match set.countries with
      | none => 0
      | some countries =>
        let country := if country < 0 then geoip.countryByAddr addr else country
        if 0 ≤ country ∧ country < set.nCountries ∧ country.toNat ∈ countries then 2 else 0

end Sets

/-! ### Nodes -/

/-- What the consensus says about a router (`routerstatus_t`). -/
structure RouterStatus where
  nickname : DocText
  identityDigest : Digest
  addr : BitVec 32
  orPort : UInt16
  isNamed : Bool
  isUnnamed : Bool
  deriving DecidableEq

/-- What a router says about itself (`routerinfo_t`). -/
structure RouterInfo where
  nickname : DocText
  identityDigest : Digest
  addr : BitVec 32
  orPort : UInt16
  deriving DecidableEq

/-- A router that is known (`node_t`). -/
structure Node where
  identity : Digest
  rs : Option RouterStatus
  ri : Option RouterInfo
  country : ℤ
  isRunning : Bool
  deriving DecidableEq

def nodeGetNickname (node : Node) : Option DocText :=
  match node.rs, node.ri with
  | some rs, _ => some rs.nickname
  | none, some ri => some ri.nickname
  | none, none => none

/-- The routers that are known, with the consensus.  What `nodelist_assert_ok` asserts and what the
parsers of the two kinds of descriptions check is promised. -/
structure Nodelist where
  nodes : List Node
  consensus : List RouterStatus
  identity_nodup : (nodes.map Node.identity).Nodup
  rs_identity : ∀ node ∈ nodes, ∀ rs ∈ node.rs, rs.identityDigest = node.identity
  ri_identity : ∀ node ∈ nodes, ∀ ri ∈ node.ri, ri.identityDigest = node.identity
  nickname_legal : ∀ node ∈ nodes, ∃ name, nodeGetNickname node = some name ∧
    isLegalNickname name = true
  consensus_nodes : ∀ rs ∈ consensus, ∃ node ∈ nodes, node.identity = rs.identityDigest ∧
    node.rs = some rs

section Lookups

variable (nl : Nodelist)

def nodeGetById (identityDigest : Digest) : Option Node := nl.nodes.find? fun node =>
  node.identity = identityDigest

/-- The digest that the consensus binds a nickname to.  The last entry with this nickname counts. -/
def networkstatusGetRouterDigestByNickname (nickname : DocText) : Option Digest :=
  (nl.consensus.reverse.find? fun rs => rs.isNamed &&
    torStrlower rs.nickname = torStrlower nickname).map
    RouterStatus.identityDigest

/-- Whether the consensus says that a nickname belongs to a router that is not in it. -/
def networkstatusNicknameIsUnnamed (nickname : DocText) : Bool :=
  nl.consensus.any fun rs => rs.isUnnamed && torStrlower rs.nickname = torStrlower nickname

/-- The node with a fingerprint, if the nickname after it is right. -/
def nodeGetByHexId (hexId : DocText) : Option Node := do
  let (digest, qualified) ← hexDigestNicknameDecode hexId
  let node ← nodeGetById nl digest
  match qualified with
  | none => some node
  | some (nnChar, name) =>
    if (nodeGetNickname node).map torStrlower ≠ some (torStrlower name) then none
    else if nnChar = '=' ∧ networkstatusGetRouterDigestByNickname nl name ≠ some digest then none
    else some node

/-- The nickname that says nothing (`UNNAMED_ROUTER_NICKNAME`). -/
def unnamedRouterNickname : DocText := "Unnamed".toList

/-- The node that a nickname or a fingerprint stands for. -/
def nodeGetByNickname (nickname : DocText) : Option Node :=
  match nodeGetByHexId nl nickname with
  | some node => some node
  | none =>
    if torStrlower nickname = torStrlower unnamedRouterNickname then none
    else match networkstatusGetRouterDigestByNickname nl nickname with
      | some namedId => nodeGetById nl namedId
      | none =>
        if networkstatusNicknameIsUnnamed nl nickname then none
        else nl.nodes.find? fun node =>
          (nodeGetNickname node).map torStrlower = some (torStrlower nickname)

variable (geoip : Geoip)

def routersetContainsNode (set : Option Routerset) (node : Node) : ℕ :=
  match node.rs, node.ri with
  | some rs, _ =>
    routersetContains geoip set (.ipv4 rs.addr) rs.orPort rs.nickname rs.identityDigest node.country
  | none, some ri =>
    routersetContains geoip set (.ipv4 ri.addr) ri.orPort ri.nickname ri.identityDigest node.country
  | none, none => 0

/-- Add the nodes that are in a set and not in another one. -/
def routersetGetAllNodes (out : List Node) (routerset excludeset : Option Routerset)
    (runningOnly : Bool) :
    List Node :=
  match routerset with
  | none => out
  | some set =>
    if routersetIsList set then
      out ++ ((set.list.filterMap (nodeGetByNickname nl)).filter fun node =>
        (!runningOnly || node.isRunning) && routersetContainsNode geoip excludeset node = 0)
    else
      out ++ nl.nodes.filter fun node =>
        (!runningOnly || node.isRunning) && routersetContainsNode geoip routerset node ≠ 0
          && routersetContainsNode geoip excludeset node = 0

end Lookups

/-! ### Split texts -/

section Split

variable {s : DocText}

lemma notMem_of_mem_splitOn {c : Char} {piece : DocText} (h : piece ∈ s.splitOn c) : c ∉ piece := by
  induction s generalizing piece with
  | nil =>
    rw [splitOn_nil, mem_singleton] at h
    rw [h]
    exact not_mem_nil
  | cons x s ih =>
    rw [splitOn_cons_eq_if_modifyHead] at h
    split at h
    · rcases mem_cons.mp h with rfl | h
      · exact not_mem_nil
      · exact ih h
    · next hx =>
      obtain ⟨first, rest, hs⟩ := exists_cons_of_ne_nil (splitOn_ne_nil c s)
      rw [hs, modifyHead_cons] at h
      rw [hs] at ih
      rcases mem_cons.mp h with rfl | h
      · rw [mem_cons, not_or]
        exact ⟨fun hc => hx (by rw [hc, beq_self_eq_true]), ih mem_cons_self⟩
      · exact ih (mem_cons_of_mem _ h)

/-- A piece of a text between separators: not blank, and without separators and white space around
it. -/
structure IsPiece (e : DocText) : Prop where
  ne_nil : e ≠ []
  noComma : ',' ∉ e
  stripped : stripSpace e = e

/-- To strip white space a second time changes nothing. -/
lemma stripSpace_stripSpace (s : DocText) : stripSpace (stripSpace s) = stripSpace s := by
  unfold stripSpace
  have hpre := List.rdropWhile_prefix torIsSpace (s.dropWhile torIsSpace)
  have hhead : ((s.dropWhile torIsSpace).rdropWhile torIsSpace).dropWhile torIsSpace =
      (s.dropWhile torIsSpace).rdropWhile torIsSpace := by
    cases hrest : (s.dropWhile torIsSpace).rdropWhile torIsSpace with
    | nil => rfl
    | cons c t =>
      rw [hrest] at hpre
      obtain ⟨u, hu⟩ := hpre
      have hc : torIsSpace c = false := by
        have hne : s.dropWhile torIsSpace ≠ [] := by rw [← hu]; exact cons_ne_nil _ _
        have hnot := head_dropWhile_not torIsSpace hne
        simpa only [← hu, cons_append, head_cons] using hnot
      rw [dropWhile_cons, hc]
      rfl
  rw [hhead, rdropWhile_idempotent]

lemma mem_stripSpace {c : Char} (h : c ∈ stripSpace s) : c ∈ s :=
  (dropWhile_suffix torIsSpace).subset ((List.rdropWhile_prefix torIsSpace _).subset h)

lemma isPiece_of_mem_split {e : DocText} (h : e ∈ smartlistSplitString s) : IsPiece e := by
  obtain ⟨hmem, hne⟩ := mem_filter.mp h
  obtain ⟨piece, hpiece, rfl⟩ := List.mem_map.mp hmem
  exact ⟨of_decide_eq_true hne, fun hc => notMem_of_mem_splitOn hpiece (mem_stripSpace hc),
    stripSpace_stripSpace piece⟩

/-- **Pieces that are joined are split again.** -/
theorem smartlistSplitString_join {pieces : List DocText} (h : ∀ e ∈ pieces, IsPiece e) :
    smartlistSplitString (smartlistJoinStrings pieces) = pieces := by
  rw [smartlistSplitString, smartlistJoinStrings]
  rcases eq_or_ne pieces [] with rfl | hne
  · rfl
  · rw [splitOn_intercalate ',' (fun e he => (h e he).noComma) hne]
    rw [map_congr_left fun e he => (h e he).stripped, List.map_id', filter_eq_self]
    exact fun e he => decide_eq_true (h e he).ne_nil

end Split

/-! ### Entries -/

section Entries

variable {geoip : Geoip} {parseItem : DocText → Option PolicyItem}

def RoutersetEntry.digestOf : RoutersetEntry → Option Digest
  | .digest d => some d
  | _ => none

def RoutersetEntry.nicknameOf : RoutersetEntry → Option DocText
  | .nickname name => some name
  | _ => none

def RoutersetEntry.countryOf : RoutersetEntry → Option DocText
  | .country name => some name
  | _ => none

def RoutersetEntry.addressOf : RoutersetEntry → Option PolicyItem
  | .address p => some p
  | _ => none

/-- An entry of a set: a piece of a text that is not malformed. -/
structure IsEntry (parseItem : DocText → Option PolicyItem) (e : DocText) : Prop where
  piece : IsPiece e
  wellFormed : routersetEntry parseItem e ≠ .malformed

/-- The set with some more entries, before address patterns for all families are replaced and before
the bits of the countries are set. -/
def addEntries (parseItem : DocText → Option PolicyItem) (target : Routerset)
    (entries : List DocText) :
    Routerset :=
  let es := entries.map (routersetEntry parseItem)
  { target with
    names := target.names ++ es.filterMap RoutersetEntry.nicknameOf
    digests := target.digests ++ es.filterMap RoutersetEntry.digestOf
    policies := target.policies ++ es.filterMap RoutersetEntry.addressOf
    countryNames := target.countryNames ++ es.filterMap RoutersetEntry.countryOf }

/-- The set with some entries. -/
def routersetOf (geoip : Geoip) (parseItem : DocText → Option PolicyItem) (entries : List DocText) :
    Routerset :=
  let es := entries.map (routersetEntry parseItem)
  let countryNames := es.filterMap RoutersetEntry.countryOf
  let known := geoip.isLoaded && countryNames ≠ []
  { list := entries
    names := es.filterMap RoutersetEntry.nicknameOf
    digests := es.filterMap RoutersetEntry.digestOf
    policies := policyExpandUnspec (es.filterMap RoutersetEntry.addressOf)
    countryNames
    countries := if known then some (countryNames.filterMap geoip.getCountry) else none
    nCountries := if known then geoip.nCountries else 0 }

lemma addEntries_nil (target : Routerset) : addEntries parseItem target [] = target := by
  simp only [addEntries, map_nil, filterMap_nil, append_nil]

lemma addEntries_cons {target target' : Routerset} {nick : DocText}
    (h : addEntry target (routersetEntry parseItem nick) = some target') (entries : List DocText) :
    addEntries parseItem target' entries = addEntries parseItem target (nick :: entries) := by
  unfold addEntries
  simp only [map_cons, filterMap_cons]
  cases hentry : routersetEntry parseItem nick <;> rw [hentry] at h <;> cases h <;>
    simp only [RoutersetEntry.digestOf, RoutersetEntry.nicknameOf, RoutersetEntry.countryOf,
      RoutersetEntry.addressOf,
      append_assoc, singleton_append]

lemma addEntry_eq_none {target : Routerset} {e : RoutersetEntry} :
    addEntry target e = none ↔ e = .malformed := by
  cases e <;> simp [addEntry]

/-- The last element moves to the front. -/
lemma mem_replaceByLast {rest : List DocText} {e : DocText} (h : e ∈ replaceByLast rest) :
    e ∈ rest := by
  unfold replaceByLast at h
  cases hlast : rest.getLast? with
  | none =>
    rw [hlast] at h
    cases h
  | some last =>
    rw [hlast] at h
    rcases mem_cons.mp h with rfl | h
    · exact mem_of_getLast? hlast
    · exact dropLast_subset rest h

/-- The loop adds those entries that are not malformed, in the order of the list that it leaves
behind. -/
lemma parseEntries_spec (n : ℕ) (entries list : List DocText) (target : Routerset) (r : ℤ) :
    ∃ kept r', parseEntries parseItem n entries list target r =
        (list ++ kept, addEntries parseItem target kept, r') ∧
      (∀ e ∈ kept, e ∈ entries ∧ routersetEntry parseItem e ≠ .malformed) ∧
      ((∀ e ∈ entries, routersetEntry parseItem e ≠ .malformed) → entries.length ≤ n →
        kept = entries ∧ r' = r) := by
  induction n generalizing entries list target r with
  | zero =>
    refine ⟨[], r, by rw [parseEntries, addEntries_nil, append_nil], nofun, fun _ hlen => ?_⟩
    exact ⟨(eq_nil_of_length_eq_zero (Nat.le_zero.mp hlen)).symm, rfl⟩
  | succ n ih =>
    cases entries with
    | nil =>
      exact ⟨[], r, by rw [parseEntries, addEntries_nil, append_nil], nofun, fun _ _ => ⟨rfl, rfl⟩⟩
    | cons nick rest =>
      rw [parseEntries]
      cases hadd : addEntry target (routersetEntry parseItem nick) with
      | none =>
        obtain ⟨kept, r', heq, hkept, -⟩ := ih (replaceByLast rest) list target (-1)
        refine ⟨kept, r', heq, fun e he => ⟨?_, (hkept e he).2⟩, fun hgood => ?_⟩
        · exact mem_cons_of_mem _ (mem_replaceByLast (hkept e he).1)
        · exact absurd (addEntry_eq_none.mp hadd) (hgood nick mem_cons_self)
      | some target' =>
        obtain ⟨kept, r', heq, hkept, hall⟩ := ih rest (list ++ [nick]) target' r
        have hgood : routersetEntry parseItem nick ≠ .malformed := fun hbad => by
          rw [addEntry_eq_none.mpr hbad] at hadd
          cases hadd
        refine ⟨nick :: kept, r', ?_, ?_, fun hgood' hlen => ?_⟩
        · dsimp only
          rw [heq, addEntries_cons hadd, append_assoc, singleton_append]
        · exact forall_mem_cons.mpr ⟨⟨mem_cons_self, hgood⟩,
            fun e he => ⟨mem_cons_of_mem _ (hkept e he).1, (hkept e he).2⟩⟩
        · obtain ⟨rfl, rfl⟩ := hall (forall_mem_cons.mp hgood').2 (Nat.le_of_succ_le_succ hlen)
          exact ⟨rfl, rfl⟩

/-- Items that have been replaced are not replaced again. -/
lemma policyExpandUnspec_expand (policy policy' : List PolicyItem) :
    policyExpandUnspec (policyExpandUnspec policy ++ policy') =
      policyExpandUnspec (policy ++ policy') := by
  have hitem (p : PolicyItem) : policyExpandUnspec p.expandUnspec = p.expandUnspec := by
    unfold PolicyItem.expandUnspec
    split
    · next h => simp [policyExpandUnspec, PolicyItem.expandUnspec, h]
    · simp [policyExpandUnspec, PolicyItem.expandUnspec]
  unfold policyExpandUnspec at hitem ⊢
  rw [flatMap_append, flatMap_append, flatMap_assoc]
  exact congrArg (· ++ _) (flatMap_congr fun p _ => hitem p)

/-- **Entries are added to a set** by parsing: those in the text that are not malformed. -/
theorem routersetParse_routersetOf (entries : List DocText) (s : DocText) :
    ∃ kept r, routersetParse geoip parseItem (routersetOf geoip parseItem entries) s =
        (routersetOf geoip parseItem (entries ++ kept), r) ∧
      (∀ e ∈ kept, IsEntry parseItem e) ∧
      ((∀ e ∈ smartlistSplitString s, routersetEntry parseItem e ≠ .malformed) →
        kept = smartlistSplitString s ∧ r = 0) := by
  obtain ⟨kept, r, heq, hkept, hall⟩ := @parseEntries_spec parseItem (smartlistSplitString s).length
    (smartlistSplitString s) [] (routersetOf geoip parseItem entries) 0
  refine ⟨kept, r, ?_, fun e he => ⟨isPiece_of_mem_split (hkept e he).1, (hkept e he).2⟩,
    fun hgood => hall hgood (le_refl _)⟩
  rw [routersetParse, heq]
  refine Prod.ext ?_ rfl
  dsimp only
  simp only [addEntries, routersetOf, nil_append, map_append, filterMap_append,
    policyExpandUnspec_expand, length_append, Nat.lt_add_right_iff_pos, length_pos_iff]
  generalize (kept.map (routersetEntry parseItem)).filterMap RoutersetEntry.countryOf = added
  generalize (entries.map (routersetEntry parseItem)).filterMap RoutersetEntry.countryOf =
    countryNames
  split
  · next hadded =>
    have hne : countryNames ++ added ≠ [] := append_ne_nil_of_right_ne_nil countryNames hadded
    cases hloaded : geoip.isLoaded <;> simp [routersetRefreshCountries, hloaded, hne]
  · next hnone =>
    rw [not_not] at hnone
    simp [hnone]

lemma routersetOf_nil : routersetOf geoip parseItem [] = routersetNew := by
  simp [routersetOf, routersetNew, policyExpandUnspec]

/-- **The text of a set is parsed as this set.** -/
theorem routersetParse_toString {entries : List DocText} (h : ∀ e ∈ entries, IsEntry parseItem e)
    (before : List DocText) :
    routersetParse geoip parseItem (routersetOf geoip parseItem before)
        (routersetToString (some (routersetOf geoip parseItem entries))) =
      (routersetOf geoip parseItem (before ++ entries), 0) := by
  have hsplit : smartlistSplitString
      (routersetToString (some (routersetOf geoip parseItem entries))) = entries :=
    smartlistSplitString_join fun e he => (h e he).piece
  obtain ⟨kept, r, heq, -, hall⟩ := routersetParse_routersetOf before
    (routersetToString (some (routersetOf geoip parseItem entries)))
  rw [hsplit] at hall
  obtain ⟨rfl, rfl⟩ := hall fun e he => (h e he).wellFormed
  exact heq

/-- The sets that are built by parsing and by unions. -/
inductive Built (geoip : Geoip) (parseItem : DocText → Option PolicyItem) : Routerset → Prop
  | new : Built geoip parseItem routersetNew
  | parse {set : Routerset} (h : Built geoip parseItem set) (s : DocText) :
      Built geoip parseItem (routersetParse geoip parseItem set s).1
  | union {target source : Routerset} (ht : Built geoip parseItem target)
      (hs : Built geoip parseItem source) :
      Built geoip parseItem (routersetUnion geoip parseItem target (some source))

/-- **A set that is built is determined by its entries.** -/
theorem Built.exists_entries {set : Routerset} (h : Built geoip parseItem set) :
    ∃ entries, set = routersetOf geoip parseItem entries ∧ ∀ e ∈ entries, IsEntry parseItem e := by
  induction h with
  | new => exact ⟨[], routersetOf_nil.symm, fun e he => absurd he not_mem_nil⟩
  | parse h s ih =>
    obtain ⟨entries, rfl, hentries⟩ := ih
    obtain ⟨kept, r, heq, hkept, -⟩ := @routersetParse_routersetOf geoip parseItem entries s
    refine ⟨entries ++ kept, by rw [heq], fun e he => ?_⟩
    rcases mem_append.mp he with he | he
    · exact hentries e he
    · exact hkept e he
  | union ht hs iht ihs =>
    obtain ⟨entries, rfl, hentries⟩ := iht
    obtain ⟨entries', rfl, hentries'⟩ := ihs
    refine ⟨entries ++
      entries', by rw [routersetUnion, routersetParse_toString hentries'], fun e he => ?_⟩
    rcases mem_append.mp he with he | he
    · exact hentries e he
    · exact hentries' e he

end Entries

end Astoria.Routersets
