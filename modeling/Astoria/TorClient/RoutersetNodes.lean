import Mathlib.Data.List.Nodup
import Astoria.TorClient.Routerset

/-!
# The nodes of a set of routers

The nodes of a set are looked up entry by entry if the set consists of fingerprints and nicknames,
and else all nodes are asked whether they belong to it.  The two ways agree if exactly one entry
stands for each node of the set. A union of two sets has the members of both unless an address
pattern of the first set accepts what one of the second rejects (`routersetsAgree_iff`).
-/

namespace Astoria.Routersets

open List Option

/-! ### Policies of two sets -/

section Policies

variable {may definite : PolicyItem → Bool} {policy : List PolicyItem}

/-- A policy accepts or may accept before it rejects. -/
def acceptsFirst (may definite : PolicyItem → Bool) : List PolicyItem → Bool
  | [] => false
  | p :: policy =>
    if may p then p.policyType = .accept || !definite p && acceptsFirst may definite policy
    else acceptsFirst may definite policy

/-- A policy that rejects in the end does not accept before. -/
lemma firstMatch_rejected {maybeAccept maybeReject : Bool}
    (h : firstMatch may definite maybeAccept maybeReject policy = .rejected) :
    maybeAccept = false ∧ acceptsFirst may definite policy = false := by
  induction policy generalizing maybeAccept maybeReject with
  | nil => cases maybeReject <;> cases h
  | cons p policy ih =>
    rw [firstMatch] at h
    rw [acceptsFirst]
    cases hmay : may p with
    | false =>
      rw [hmay] at h
      exact ih h
    | true =>
      rw [hmay] at h
      simp only [if_true] at h ⊢
      cases htype : p.policyType with
      | accept =>
        simp only [htype, reduceCtorEq, if_false, if_true] at h
        split at h
        · cases maybeReject <;> cases h
        · exact absurd (ih h).1 (by decide)
      | reject =>
        simp only [htype, reduceCtorEq, if_false, if_true] at h
        cases hdef : definite p with
        | true =>
          rw [hdef] at h
          cases maybeAccept with
          | false => simp
          | true => cases h
        | false =>
          rw [hdef] at h
          obtain ⟨haccept, hfirst⟩ := ih h
          simp [haccept, hfirst]

/-- Whether a policy rejects does not depend on a possible rejection before it. -/
lemma firstMatch_maybeReject {maybeAccept : Bool} (r r' : Bool) :
    firstMatch may definite maybeAccept r policy = .rejected ↔
      firstMatch may definite maybeAccept r' policy = .rejected := by
  induction policy generalizing maybeAccept r r' with
  | nil => cases r <;> cases r' <;> simp [firstMatch]
  | cons p policy ih =>
    rw [firstMatch, firstMatch]
    split
    · split
      · split
        · cases r <;> cases r' <;> simp
        · rfl
      · split
        · rfl
        · exact ih r r'
    · exact ih r r'

/-- **Two policies, one after the other.** They reject what the first one rejects, and what the
second one rejects unless the first one accepts it before. -/
theorem firstMatch_append {policy' : List PolicyItem} {maybeReject : Bool} :
    firstMatch may definite false maybeReject (policy ++ policy') = .rejected ↔
      firstMatch may definite false maybeReject policy = .rejected ∨
        acceptsFirst may definite policy = false ∧
        firstMatch may definite false maybeReject policy' = .rejected := by
  induction policy generalizing maybeReject with
  | nil => cases maybeReject <;> simp [firstMatch, acceptsFirst]
  | cons p policy ih =>
    rw [cons_append, firstMatch, firstMatch, acceptsFirst]
    cases hmay : may p with
    | false => exact ih
    | true =>
      simp only [if_true]
      cases htype : p.policyType with
      | accept =>
        have hno (rest : List PolicyItem) :
            firstMatch may definite true maybeReject rest ≠ .rejected := fun h =>
          absurd (firstMatch_rejected h).1 (by decide)
        simp only [reduceCtorEq, if_false, if_true, decide_true, Bool.true_or, Bool.true_eq_false,
          false_and,
          or_false]
        split
        · rfl
        · exact iff_of_false (hno _) (hno _)
      | reject =>
        simp only [reduceCtorEq, if_false, if_true, decide_false, Bool.false_or,
          Bool.and_eq_false_iff,
          Bool.not_eq_false']
        cases hdef : definite p with
        | true => simp
        | false =>
          simp only [Bool.false_eq_true, if_false, false_or]
          rw [ih, @firstMatch_maybeReject may definite policy' false true maybeReject]

variable {addr : TorAddr} {port : UInt16}

lemma compareTorAddrToPolicy_nil :
    compareTorAddrToPolicy addr port [] = .rejected ↔ torAddrIsNull addr = true ∧ port = 0 := by
  rw [compareTorAddrToPolicy]
  split
  · next h => exact iff_of_true rfl h
  · next h => exact iff_of_false nofun h

lemma compareTorAddrToPolicy_of_nil (h : compareTorAddrToPolicy addr port [] = .rejected)
    (policy : List PolicyItem) :
    compareTorAddrToPolicy addr port policy = .rejected := by
  rw [compareTorAddrToPolicy, if_pos (compareTorAddrToPolicy_nil.mp h)]

lemma acceptsFirst_of_rejected (h : compareTorAddrToPolicy addr port policy = .rejected)
    (hnull : compareTorAddrToPolicy addr port [] ≠ .rejected) :
    acceptsFirst (PolicyItem.mayMatch addr port) (PolicyItem.definite addr port) policy =
      false := by
  rw [compareTorAddrToPolicy, if_neg fun hn => hnull (compareTorAddrToPolicy_nil.mpr hn)] at h
  exact (firstMatch_rejected h).2

/-- What two policies reject, one after the other. -/
lemma compareTorAddrToPolicy_append {policy' : List PolicyItem} :
    compareTorAddrToPolicy addr port (policy ++ policy') = .rejected ↔
      compareTorAddrToPolicy addr port policy = .rejected ∨
        acceptsFirst (PolicyItem.mayMatch addr port) (PolicyItem.definite addr port) policy =
          false ∧ compareTorAddrToPolicy addr port policy' = .rejected := by
  by_cases hnull : torAddrIsNull addr = true ∧ port = 0
  · have hall := compareTorAddrToPolicy_of_nil (compareTorAddrToPolicy_nil.mpr hnull)
    exact iff_of_true (hall _) (.inl (hall _))
  · simp only [compareTorAddrToPolicy, if_neg hnull]
    exact firstMatch_append

end Policies

/-! ### Members -/

section Members

variable {geoip : Geoip} {parseItem : DocText → Option PolicyItem} {nl : Nodelist} {node : Node}
  {d : Digest}

def Routerset.hasCountry (geoip : Geoip) (set : Routerset) (addr : TorAddr) (country : ℤ) : Prop :=
  ∃ countries, set.countries = some countries ∧
    let country := if country < 0 then geoip.countryByAddr addr else country
    0 ≤ country ∧ country < set.nCountries ∧ country.toNat ∈ countries

lemma routersetContains_ne_zero {set : Routerset} {addr : TorAddr} {orport : UInt16}
    {nickname : DocText} {idDigest : Digest} {country : ℤ} :
    routersetContains geoip (some set) addr orport nickname idDigest country ≠ 0 ↔
      torStrlower nickname ∈ set.names ∨ idDigest ∈ set.digests ∨
        compareTorAddrToPolicy addr orport set.policies = .rejected ∨
        set.hasCountry geoip addr country := by
  rw [routersetContains, Routerset.hasCountry]
  dsimp only
  by_cases hname : torStrlower nickname ∈ set.names
  · simp [hname]
  by_cases hdigest : idDigest ∈ set.digests
  · simp [hname, hdigest]
  by_cases hpolicy : compareTorAddrToPolicy addr orport set.policies = .rejected
  · simp [hname, hdigest, hpolicy]
  cases hcountries : set.countries with
  | none => simp [hname, hdigest, hpolicy]
  | some countries => simp [hname, hdigest, hpolicy]

def nodeAddrPort (node : Node) : Option (TorAddr × UInt16) :=
  match node.rs, node.ri with
  | some rs, _ => some (.ipv4 rs.addr, rs.orPort)
  | none, some ri => some (.ipv4 ri.addr, ri.orPort)
  | none, none => none

/-- A node of the list is asked about with one nickname, one address and its identity. -/
lemma Nodelist.exists_view (geoip : Geoip) (h : node ∈ nl.nodes) :
    ∃ nickname addr port, nodeGetNickname node = some nickname ∧ isLegalNickname nickname = true ∧
      nodeAddrPort node = some (addr, port) ∧
      ∀ set, routersetContainsNode geoip set node =
        routersetContains geoip set addr port nickname node.identity node.country := by
  obtain ⟨name, hname, hlegal⟩ := nl.nickname_legal node h
  obtain ⟨identity, rs, ri, country, running⟩ := node
  cases rs with
  | some rs =>
    have hid := nl.rs_identity _ h rs rfl
    obtain rfl := Option.some.inj hname
    refine ⟨_, .ipv4 rs.addr, rs.orPort, rfl, hlegal, rfl, fun set => ?_⟩
    rw [routersetContainsNode]
    dsimp only at hid ⊢
    rw [hid]
  | none =>
    cases ri with
    | none => cases hname
    | some ri =>
      have hid := nl.ri_identity _ h ri rfl
      obtain rfl := Option.some.inj hname
      refine ⟨_, .ipv4 ri.addr, ri.orPort, rfl, hlegal, rfl, fun set => ?_⟩
      rw [routersetContainsNode]
      dsimp only at hid ⊢
      rw [hid]

lemma nodeGetById_eq_some (h : nodeGetById nl d = some node) :
    node ∈ nl.nodes ∧ node.identity = d := by
  rw [nodeGetById] at h
  have hid := find?_some h
  exact ⟨mem_of_find?_eq_some h, of_decide_eq_true hid⟩

variable {e name : DocText}

/-- Fingerprints are longer than nicknames. -/
lemma isLegalHexdigest_spec (h : isLegalHexdigest e = true) :
    hexDigestLen ≤ e.length ∧ (base16Decode ((skipDollar e).take hexDigestLen)).isSome := by
  rw [isLegalHexdigest] at h
  simp only [Bool.and_eq_true, decide_eq_true_eq] at h
  obtain ⟨⟨-, hlen⟩, hhex⟩ := h
  have hskip : (skipDollar e).length ≤ e.length := by
    unfold skipDollar
    split
    · rw [length_tail]
      exact Nat.sub_le _ _
    · exact le_refl _
  have htake : (skipDollar e).take hexDigestLen = (skipDollar e).takeWhile isHexChar := by
    rw [prefix_iff_eq_take.mp (List.takeWhile_prefix isHexChar), hhex]
  refine ⟨le_trans hlen hskip, ?_⟩
  rw [htake, base16Decode, if_pos (all_takeWhile)]
  rfl

lemma nodeGetByHexId_of_nickname (h : isLegalNickname name = true) :
    nodeGetByHexId nl name = none := by
  rw [isLegalNickname] at h
  simp only [Bool.and_eq_true, decide_eq_true_eq] at h
  obtain ⟨⟨-, hlen⟩, halnum⟩ := h
  have hskip : skipDollar name = name := by
    unfold skipDollar
    refine if_neg fun hdollar => ?_
    have hmem : '$' ∈ name := mem_of_head? hdollar
    exact absurd (List.all_eq_true.mp halnum '$' hmem) (by decide)
  have hshort : name.length < hexDigestLen := lt_of_le_of_lt hlen (by decide)
  have hdecode : hexDigestNicknameDecode name = none := by
    rw [hexDigestNicknameDecode, hskip]
    exact if_pos hshort
  rw [nodeGetByHexId, hdecode]
  rfl

/-- The node of a fingerprint has the digest of this fingerprint. -/
lemma nodeGetByHexId_eq_some (h : nodeGetByHexId nl e = some node) :
    node ∈ nl.nodes ∧ base16Decode ((skipDollar e).take hexDigestLen) = some node.identity := by
  unfold nodeGetByHexId at h
  cases hdecode : hexDigestNicknameDecode e with
  | none =>
    rw [hdecode] at h
    cases h
  | some decoded =>
    obtain ⟨d, qualified⟩ := decoded
    have hd : base16Decode ((skipDollar e).take hexDigestLen) = some d := by
      rw [hexDigestNicknameDecode] at hdecode
      split_ifs at hdecode
      · obtain ⟨d', hd', heq⟩ := map_eq_some_iff.mp hdecode
        rw [hd', (Prod.mk.inj heq).1]
      · obtain ⟨d', hd', heq⟩ := map_eq_some_iff.mp hdecode
        rw [hd', (Prod.mk.inj heq).1]
    cases hid : nodeGetById nl d with
    | none =>
      simp only [hdecode, hid, bind_eq_bind, bind_some, bind_none, reduceCtorEq] at h
    | some node' =>
      obtain ⟨hmem, rfl⟩ := nodeGetById_eq_some hid
      simp only [hdecode, hid, bind_eq_bind, bind_some] at h
      obtain rfl : node' = node := by
        cases qualified with
        | none => exact Option.some.inj h
        | some q =>
          obtain ⟨nnChar, name⟩ := q
          dsimp only at h
          split_ifs at h
          exact Option.some.inj h
      exact ⟨hmem, hd⟩

lemma nodeGetNickname_of_binding (h : networkstatusGetRouterDigestByNickname nl name = some d)
    (hnode : nodeGetById nl d = some node) :
    ∃ nickname, nodeGetNickname node = some nickname ∧ torStrlower nickname = torStrlower name := by
  obtain ⟨rs, hrs, rfl⟩ := map_eq_some_iff.mp h
  have hname := find?_some hrs
  obtain ⟨-, hname⟩ := Bool.and_eq_true_iff.mp hname
  obtain ⟨node', hmem', hid', hrs'⟩ :=
    nl.consensus_nodes rs (mem_reverse.mp (mem_of_find?_eq_some hrs))
  obtain ⟨hmem, hid⟩ := nodeGetById_eq_some hnode
  obtain rfl : node = node' :=
    inj_on_of_nodup_map nl.identity_nodup hmem hmem' (hid.trans hid'.symm)
  exact ⟨rs.nickname, by rw [nodeGetNickname, hrs'], of_decide_eq_true hname⟩

lemma nodeGetByNickname_eq_some (h : nodeGetByNickname nl name = some node)
    (hhex : nodeGetByHexId nl name = none) :
    node ∈ nl.nodes ∧
      ∃ nickname, nodeGetNickname node = some nickname ∧
      torStrlower nickname = torStrlower name := by
  rw [nodeGetByNickname, hhex] at h
  dsimp only at h
  split at h
  · cases h
  · split at h
    · next d hd => exact ⟨(nodeGetById_eq_some h).1, nodeGetNickname_of_binding hd h⟩
    · split at h
      · cases h
      · have hname := find?_some h
        exact ⟨mem_of_find?_eq_some h, map_eq_some_iff.mp (of_decide_eq_true hname)⟩

/-- An entry of a list of fingerprints and nicknames is one of these. -/
lemma entry_of_isList {entries : List DocText} (h : ∀ e ∈ entries, IsEntry parseItem e)
    (hlist : routersetIsList (routersetOf geoip parseItem entries) = true) (he : e ∈ entries) :
    (∃ d, routersetEntry parseItem e = .digest d) ∨
    ∃ name, routersetEntry parseItem e = .nickname name := by
  simp only [routersetIsList, routersetOf, Bool.and_eq_true, decide_eq_true_eq,
    length_eq_zero_iff] at hlist
  obtain ⟨hcountry, hpolicy⟩ := hlist
  have hmem : routersetEntry parseItem e ∈ entries.map (routersetEntry parseItem) :=
    List.mem_map_of_mem he
  cases hentry : routersetEntry parseItem e with
  | digest d => exact .inl ⟨d, rfl⟩
  | nickname name => exact .inr ⟨name, rfl⟩
  | malformed => exact absurd hentry (h e he).wellFormed
  | country name =>
    have hname :=
        mem_filterMap.mpr ⟨_, hmem, show (routersetEntry parseItem e).countryOf = some name by
      rw [hentry]; rfl⟩
    rw [hcountry] at hname
    cases hname
  | address p =>
    have hp := mem_filterMap.mpr ⟨_, hmem, show (routersetEntry parseItem e).addressOf = some p by
      rw [hentry]; rfl⟩
    obtain ⟨q, hq⟩ : ∃ q, q ∈ p.expandUnspec := by
      unfold PolicyItem.expandUnspec
      split
      · exact ⟨_, mem_cons_self⟩
      · exact ⟨_, mem_cons_self⟩
    have hexpand := mem_flatMap.mpr ⟨p, hp, hq⟩
    rw [policyExpandUnspec] at hpolicy
    rw [hpolicy] at hexpand
    cases hexpand

lemma isLegalHexdigest_of_entry (h : routersetEntry parseItem e = .digest d) :
    isLegalHexdigest e = true := by
  unfold routersetEntry at h
  split at h
  · assumption
  · split at h
    · cases h
    · split at h
      · cases h
      · split at h
        · split at h <;> cases h
        · cases h

lemma isLegalNickname_of_entry (h : routersetEntry parseItem e = .nickname name) :
    isLegalNickname e = true ∧ torStrlower e = name := by
  unfold routersetEntry at h
  split at h
  · cases h
  · split at h
    · next hlegal => exact ⟨hlegal, RoutersetEntry.nickname.inj h⟩
    · split at h
      · cases h
      · split at h
        · split at h <;> cases h
        · cases h

/-- **What an entry stands for is in the set**, if the entry is a fingerprint or a nickname. -/
theorem contains_of_nodeGetByNickname {entries : List DocText}
    (h : ∀ e ∈ entries, IsEntry parseItem e)
    (hlist : routersetIsList (routersetOf geoip parseItem entries) = true) (he : e ∈ entries)
    (hnode : nodeGetByNickname nl e = some node) : node ∈ nl.nodes ∧
    routersetContainsNode geoip (some (routersetOf geoip parseItem entries)) node ≠ 0 := by
  have hmem : routersetEntry parseItem e ∈ entries.map (routersetEntry parseItem) :=
    List.mem_map_of_mem he
  -- a node that is found by its nickname
  have hnick (hhex : nodeGetByHexId nl e = none) (hlong : hexDigestLen ≤ e.length) : False := by
    obtain ⟨hnl, nickname, hname, hlower⟩ := nodeGetByNickname_eq_some hnode hhex
    obtain ⟨name, hname', hlegal⟩ := nl.nickname_legal node hnl
    obtain rfl := Option.some.inj (hname.symm.trans hname')
    have hlen : nickname.length = e.length := by
      simpa only [torStrlower, length_map] using congrArg List.length hlower
    rw [isLegalNickname] at hlegal
    simp only [Bool.and_eq_true, decide_eq_true_eq] at hlegal
    exact absurd (le_trans hlong (hlen ▸ hlegal.1.2)) (by decide)
  rcases entry_of_isList h hlist he with ⟨d, hentry⟩ | ⟨name, hentry⟩
  · -- a fingerprint
    have hlegal := isLegalHexdigest_of_entry hentry
    obtain ⟨hlong, -⟩ := isLegalHexdigest_spec hlegal
    cases hhex : nodeGetByHexId nl e with
    | none => exact (hnick hhex hlong).elim
    | some node' =>
      obtain rfl : node' = node := by
        rw [nodeGetByNickname, hhex] at hnode
        exact Option.some.inj hnode
      obtain ⟨hnl, hd⟩ := nodeGetByHexId_eq_some hhex
      refine ⟨hnl, ?_⟩
      obtain ⟨nickname, addr, port, -, -, -, hview⟩ := Nodelist.exists_view geoip hnl
      rw [hview, routersetContains_ne_zero]
      refine .inr (.inl (mem_filterMap.mpr ⟨_, hmem, ?_⟩))
      rw [routersetEntry, if_pos hlegal, hd]
      rfl
  · -- a nickname
    obtain ⟨hlegal, rfl⟩ := isLegalNickname_of_entry hentry
    obtain ⟨hnl, nickname, hname, hlower⟩ :=
      nodeGetByNickname_eq_some hnode (nodeGetByHexId_of_nickname hlegal)
    refine ⟨hnl, ?_⟩
    obtain ⟨nickname', addr, port, hname', -, -, hview⟩ := Nodelist.exists_view geoip hnl
    obtain rfl := Option.some.inj (hname.symm.trans hname')
    rw [hview, routersetContains_ne_zero]
    refine .inl (mem_filterMap.mpr ⟨_, hmem, ?_⟩)
    rw [hentry, hlower]
    rfl

end Members

/-! ### Lookups entry by entry -/

section Lookup

variable {α β : Type*} [DecidableEq β] {f : α → Option β} {entries : List α} {usable : β → Bool}
  {P : β → Prop}

/-- **Lookups find a set.** If entries are looked up one after the other, and what is found is in a
set, then the usable members of the set are found without repetition if and only if one entry stands
for each of them. -/
theorem lookups_iff (hP : ∀ e ∈ entries, ∀ b, f e = some b → P b) :
    (((entries.filterMap f).filter usable).Nodup ∧
        ∀ b, b ∈ (entries.filterMap f).filter usable ↔ P b ∧ usable b = true) ↔
      ∀ b, P b → usable b = true → entries.countP (fun e => f e = some b) = 1 := by
  have hcount (b : β) (hb : usable b = true) :
      ((entries.filterMap f).filter usable).count b = entries.countP fun e => f e = some b := by
    rw [count_filter hb, count_filterMap]
    exact countP_congr fun e _ => by simp
  have hfound (b : β) (hb : b ∈ (entries.filterMap f).filter usable) : P b ∧ usable b = true := by
    obtain ⟨hmem, husable⟩ := mem_filter.mp hb
    obtain ⟨e, he, hfe⟩ := mem_filterMap.mp hmem
    exact ⟨hP e he b hfe, husable⟩
  constructor
  · rintro ⟨hnodup, hmem⟩ b hb husable
    rw [← hcount b husable]
    exact count_eq_one_of_mem hnodup ((hmem b).mpr ⟨hb, husable⟩)
  · refine fun hone => ⟨nodup_iff_count_eq_one.mpr fun b hb => ?_,
      fun b => ⟨hfound b, fun ⟨hb, husable⟩ => ?_⟩⟩
    · obtain ⟨hPb, husable⟩ := hfound b hb
      rw [hcount b husable, hone b hPb husable]
    · rw [← count_pos_iff, hcount b husable, hone b hb husable]
      exact Nat.one_pos

end Lookup

/-! ### What is promised of sets of routers -/

section Agreement

variable (geoip : Geoip) (parseItem : DocText → Option PolicyItem) (nl : Nodelist)

/-- Whether a node may be taken. -/
def usable (excludeset : Option Routerset) (runningOnly : Bool) (node : Node) : Bool :=
  (!runningOnly || node.isRunning) && routersetContainsNode geoip excludeset node = 0

/-- A node is in the second set of a union by an address pattern only, and the address patterns of
the first set accept it before. -/
def ShadowedInUnion (set other : Routerset) (node : Node) : Prop :=
  routersetContainsNode geoip (some { set with policies := [] }) node = 0 ∧
    routersetContainsNode geoip (some { other with policies := [] }) node = 0 ∧
    routersetContainsNode geoip (some other) node ≠ 0 ∧
    ∃ addr port, nodeAddrPort node = some (addr, port) ∧
      acceptsFirst
        (PolicyItem.mayMatch addr port) (PolicyItem.definite addr port) set.policies = true

/-- All nodes of a set are found and no others, each of them once.  The text of a set stands for the
same members, and a union has the members of both sets. -/
structure RoutersetsAgree (set other : Routerset) (excludeset : Option Routerset)
    (runningOnly : Bool) : Prop where
  nodup : (routersetGetAllNodes nl geoip [] (some set) excludeset runningOnly).Nodup
  members : ∀ node, node ∈ routersetGetAllNodes nl geoip [] (some set) excludeset runningOnly ↔
    (node ∈ nl.nodes ∧ routersetContainsNode geoip (some set) node ≠ 0) ∧
      usable geoip excludeset runningOnly node = true
  roundTrip : ∀ node,
    routersetContainsNode geoip
      (some (routersetParse geoip parseItem routersetNew
        (routersetToString (some set))).1) node ≠ 0 ↔
    routersetContainsNode geoip (some set) node ≠ 0
  union : ∀ node ∈ nl.nodes, routersetContainsNode geoip
      (some (routersetUnion geoip parseItem set (some other))) node ≠ 0 ↔
    routersetContainsNode geoip (some set) node ≠ 0 ∨
    routersetContainsNode geoip (some other) node ≠ 0

variable {geoip parseItem nl} {set other : Routerset}

/-- The countries of a set with some entries. -/
lemma hasCountry_routersetOf {entries : List DocText} {addr : TorAddr} {country : ℤ} :
    (routersetOf geoip parseItem entries).hasCountry geoip addr country ↔
      geoip.isLoaded = true ∧
      ∃ name ∈ (entries.map (routersetEntry parseItem)).filterMap RoutersetEntry.countryOf,
        let country := if country < 0 then geoip.countryByAddr addr else country
        0 ≤ country ∧ country < geoip.nCountries ∧ geoip.getCountry name = some country.toNat := by
  simp only [Routerset.hasCountry, routersetOf]
  generalize (entries.map (routersetEntry parseItem)).filterMap RoutersetEntry.countryOf = names
  generalize (if country < 0 then geoip.countryByAddr addr else country) = c
  cases hloaded : geoip.isLoaded with
  | false => simp
  | true =>
    rcases eq_or_ne names [] with rfl | hne
    · simp
    · simp only [hne, ne_eq, not_false_eq_true, decide_true, Bool.and_self, if_true,
        Option.some.injEq, exists_eq_left', mem_filterMap, true_and]
      constructor
      · rintro ⟨h0, hn, name, hname, hget⟩
        exact ⟨name, hname, h0, hn, hget⟩
      · rintro ⟨name, hname, h0, hn, hget⟩
        exact ⟨h0, hn, name, hname, hget⟩

/-- A union has the entries of both sets. -/
lemma contains_union {node : Node} (hnode : node ∈ nl.nodes) (entries entries' : List DocText) :
    (routersetContainsNode geoip
        (some (routersetOf geoip parseItem (entries ++ entries'))) node ≠ 0 ↔
      routersetContainsNode geoip (some (routersetOf geoip parseItem entries)) node ≠ 0 ∨
      routersetContainsNode geoip (some (routersetOf geoip parseItem entries')) node ≠ 0) ↔
    ¬ShadowedInUnion geoip (routersetOf geoip parseItem entries)
        (routersetOf geoip parseItem entries') node := by
  obtain ⟨nickname, addr, port, -, -, hplace, hview⟩ := Nodelist.exists_view geoip hnode
  have hnames : torStrlower nickname ∈ (routersetOf geoip parseItem (entries ++ entries')).names ↔
      torStrlower nickname ∈ (routersetOf geoip parseItem entries).names ∨
        torStrlower nickname ∈ (routersetOf geoip parseItem entries').names := by
    simp only [routersetOf, map_append, filterMap_append, mem_append]
  have hdigests : node.identity ∈ (routersetOf geoip parseItem (entries ++ entries')).digests ↔
      node.identity ∈ (routersetOf geoip parseItem entries).digests ∨
        node.identity ∈ (routersetOf geoip parseItem entries').digests := by
    simp only [routersetOf, map_append, filterMap_append, mem_append]
  have hpolicies : (routersetOf geoip parseItem (entries ++ entries')).policies =
      (routersetOf geoip parseItem entries).policies ++
      (routersetOf geoip parseItem entries').policies := by
    simp only [routersetOf, map_append, filterMap_append, policyExpandUnspec, flatMap_append]
  have hcountries : (routersetOf geoip parseItem (entries ++ entries')).hasCountry geoip addr
      node.country ↔ (routersetOf geoip parseItem entries).hasCountry geoip addr node.country ∨
        (routersetOf geoip parseItem entries').hasCountry geoip addr node.country := by
    rw [hasCountry_routersetOf, hasCountry_routersetOf, hasCountry_routersetOf, map_append,
      filterMap_append, ← and_or_left]
    simp only [mem_append, or_and_right, exists_or]
  have hunion :=
    @compareTorAddrToPolicy_append (routersetOf geoip parseItem entries).policies addr port
      (routersetOf geoip parseItem entries').policies
  rw [← hpolicies] at hunion
  have hfirst := @acceptsFirst_of_rejected (routersetOf geoip parseItem entries).policies addr port
  have hnull := @compareTorAddrToPolicy_of_nil addr port
  have hplaces : (∃ addr' port', nodeAddrPort node = some (addr', port') ∧
        acceptsFirst (PolicyItem.mayMatch addr' port') (PolicyItem.definite addr' port')
          (routersetOf geoip parseItem entries).policies = true) ↔
      acceptsFirst (PolicyItem.mayMatch addr port) (PolicyItem.definite addr port)
        (routersetOf geoip parseItem entries).policies = true := by
    simp [hplace]
  have hzero (set : Routerset) : routersetContainsNode geoip (some set) node = 0 ↔
      ¬(torStrlower nickname ∈ set.names ∨ node.identity ∈ set.digests ∨
        compareTorAddrToPolicy addr port set.policies = .rejected ∨
        set.hasCountry geoip addr node.country) := by
    rw [← not_ne_iff, hview, routersetContains_ne_zero]
  have hhas (set : Routerset) :
      Routerset.hasCountry geoip { set with policies := [] } addr node.country ↔
      set.hasCountry geoip addr node.country := Iff.rfl
  rw [ShadowedInUnion, hplaces, hzero, hzero, hview, hview, hview, routersetContains_ne_zero,
    routersetContains_ne_zero, routersetContains_ne_zero, hnames, hdigests, hunion, hcountries,
    hhas, hhas]
  dsimp only
  grind

/-- **When routersets do what is promised of them.** A set that is built by parsing and by unions
has the nodes that are promised, the text of a set stands for its members, and a union has the
members of both sets, if and only if two conditions hold.  If the set is a list of fingerprints and
nicknames, exactly one of its entries stands for each usable node of the set.  No node is in the
second set of the union by an address pattern only while the address patterns of the first one
accept it before. -/
theorem routersetsAgree_iff (hset : Built geoip parseItem set)
    (hother : Built geoip parseItem other) (nl : Nodelist) (excludeset : Option Routerset)
    (runningOnly : Bool) : RoutersetsAgree geoip parseItem nl set other excludeset runningOnly ↔
      (routersetIsList set = true →
        ∀ node ∈ nl.nodes, routersetContainsNode geoip (some set) node ≠ 0 →
        usable geoip excludeset runningOnly node = true →
          set.list.countP (fun name => nodeGetByNickname nl name = some node) = 1) ∧
        ∀ node ∈ nl.nodes, ¬ShadowedInUnion geoip set other node := by
  obtain ⟨entries, rfl, hentries⟩ := hset.exists_entries
  obtain ⟨entries', rfl, hentries'⟩ := hother.exists_entries
  have hround : (routersetParse geoip parseItem routersetNew
      (routersetToString (some (routersetOf geoip parseItem entries)))).1 =
        routersetOf geoip parseItem entries := by
    rw [← @routersetOf_nil geoip parseItem, routersetParse_toString hentries]
    rfl
  have hunion : routersetUnion geoip parseItem (routersetOf geoip parseItem entries)
      (some (routersetOf geoip parseItem entries')) = routersetOf geoip parseItem
        (entries ++ entries') := by
    rw [routersetUnion, routersetParse_toString hentries']
  -- what is found, for a list and for another set
  have hfound :
      ((routersetGetAllNodes nl geoip [] (some (routersetOf geoip parseItem entries)) excludeset
          runningOnly).Nodup ∧
        ∀ node, node ∈ routersetGetAllNodes nl geoip []
            (some (routersetOf geoip parseItem entries)) excludeset runningOnly ↔
          (node ∈ nl.nodes ∧
            routersetContainsNode geoip (some (routersetOf geoip parseItem entries)) node ≠ 0) ∧
          usable geoip excludeset runningOnly node = true) ↔
      (routersetIsList (routersetOf geoip parseItem entries) = true → ∀ node ∈ nl.nodes,
        routersetContainsNode geoip (some (routersetOf geoip parseItem entries)) node ≠ 0 →
        usable geoip excludeset runningOnly node = true →
          entries.countP (fun name => nodeGetByNickname nl name = some node) = 1) := by
    rw [routersetGetAllNodes]
    by_cases hlist : routersetIsList (routersetOf geoip parseItem entries) = true
    · rw [if_pos hlist, nil_append]
      refine (lookups_iff (P := fun node => node ∈ nl.nodes ∧
        routersetContainsNode geoip (some (routersetOf geoip parseItem entries)) node ≠ 0)
        fun e he node hnode => contains_of_nodeGetByNickname hentries hlist he hnode).trans ?_
      simp only [hlist, true_imp_iff, and_imp]
      exact Iff.rfl
    · rw [if_neg hlist, nil_append]
      refine iff_of_true ⟨(Nodup.of_map _ nl.identity_nodup).filter _, fun node => ?_⟩
        fun h => absurd h hlist
      simp only [mem_filter, usable, Bool.and_eq_true, decide_eq_true_eq]
      tauto
  constructor
  · intro h
    refine ⟨hfound.mp ⟨h.nodup, h.members⟩, fun node hnode => ?_⟩
    rw [← contains_union hnode, ← hunion]
    exact h.union node hnode
  · rintro ⟨hone, hshadow⟩
    obtain ⟨hnodup, hmembers⟩ := hfound.mpr hone
    refine ⟨hnodup, hmembers, fun node => by rw [hround], fun node hnode => ?_⟩
    rw [hunion, contains_union hnode]
    exact hshadow node hnode

/-- No countries are known. -/
def noGeoip : Geoip := ⟨false, fun _ => none, fun _ => -1, 0⟩

/-- No text is an address pattern. -/
def noItems (_ : DocText) : Option PolicyItem := none

/-- A router in the consensus whose nickname is bound to nobody. -/
def fooStatus : RouterStatus := ⟨"foo".toList, 5, 0x01020304, 9001, false, false⟩

/-- The router is known. -/
def fooNode : Node := ⟨5, some fooStatus, none, -1, true⟩

/-- Only this router is known. -/
def fooNodelist : Nodelist where
  nodes := [fooNode]
  consensus := [fooStatus]
  identity_nodup := nodup_singleton _
  rs_identity := by decide
  ri_identity := by decide
  nickname_legal := fun node hnode =>
    ⟨fooStatus.nickname, by rw [mem_singleton.mp hnode]; rfl, by decide⟩
  consensus_nodes := fun rs hrs =>
    ⟨fooNode, mem_singleton_self _, by rw [mem_singleton.mp hrs]; exact ⟨rfl, rfl⟩⟩

/-- A set with one nickname does what is promised. -/
theorem routersetsAgree_iff_foo :
    RoutersetsAgree noGeoip noItems fooNodelist
      (routersetParse noGeoip noItems routersetNew "foo".toList).1
        (routersetParse noGeoip noItems routersetNew "foo".toList).1 none true := by
  have hbuilt :
      Built noGeoip noItems (routersetParse noGeoip noItems routersetNew "foo".toList).1 :=
    .parse .new "foo".toList
  refine (routersetsAgree_iff hbuilt hbuilt fooNodelist none true).mpr
    ⟨fun _ node hnode _ _ => ?_, fun node hnode h => ?_⟩
  · rw [mem_singleton.mp hnode]
    decide +kernel
  · rw [mem_singleton.mp hnode] at h
    exact absurd h.1 (by decide +kernel)

/-- A nickname that is written twice gives a node twice. -/
theorem not_routersetsAgree :
    ¬∀ set, Built noGeoip noItems set →
      RoutersetsAgree noGeoip noItems fooNodelist set routersetNew none false := by
  intro h
  have hagree := h (routersetParse noGeoip noItems routersetNew "foo,foo".toList).1
    (.parse .new "foo,foo".toList)
  exact absurd hagree.nodup (by decide +kernel)

end Agreement

end Astoria.Routersets
