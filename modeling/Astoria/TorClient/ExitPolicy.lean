import Astoria.Library.RuleList
import Astoria.TorClient.TorAddr
import Mathlib.Order.MinMax

/-!
# Exit policies without redundancies

A policy is a list of items, each of which accepts or rejects a range of ports at the addresses with
a prefix.  The first item that matches an address and a port decides
(`compareKnownTorAddrToAddrPolicy`). `exitPolicyRemoveRedundancies` removes items in three passes:
those after one that matches everything of their family, those that an earlier one covers, and those
that are shadowed by a later one of their type.

`compareTorAddr_exitPolicyRemoveRedundancies` says that no answer changes for an address and a port
that are both known, and that a second run removes nothing.  The address with only zeroes stands for
an unknown one, which is asked about in another way: `not_compareTorAddr_unknown` has an answer that
the function makes more definite.
-/

namespace Astoria

open List

/-- What to do when an item matches. -/
inductive AddrPolicyAction
  | accept
  | reject
  deriving DecidableEq

inductive AddrPolicyResult
  | accepted
  | rejected
  | probablyAccepted
  | probablyRejected
  deriving DecidableEq

/-- The answer when an item matches for sure. -/
def AddrPolicyAction.answer (action : AddrPolicyAction) : AddrPolicyResult :=
  if action = .accept then .accepted else .rejected

/-- An item of a policy.  There are at most as many mask bits as bits of the address. -/
structure AddrPolicy where
  policyType : AddrPolicyAction
  addr : TorAddr
  maskbits : ℕ
  prtMin : UInt16
  prtMax : UInt16
  maskbits_le : maskbits ≤ addr.bits
  deriving DecidableEq

/-- The address and the port are known: the first match. -/
def compareKnownTorAddrToAddrPolicy (addr : TorAddr) (port : UInt16) :
    List AddrPolicy → AddrPolicyResult
  | [] => .accepted
  | tmpe :: rest =>
    if torAddrCompareMasked addr tmpe.addr tmpe.maskbits .exact = 0 then
      if port ≥ tmpe.prtMin ∧ port ≤ tmpe.prtMax then tmpe.policyType.answer
      else compareKnownTorAddrToAddrPolicy addr port rest
    else compareKnownTorAddrToAddrPolicy addr port rest

/-- The first definite match among the items that may match, unless one that says something
different may have matched before. -/
def firstDefinite (may definite : AddrPolicy → Bool) (maybeAccept maybeReject : Bool) :
    List AddrPolicy → AddrPolicyResult
  | [] => if maybeReject then .probablyAccepted else .accepted
  | tmpe :: rest =>
    if may tmpe then
      if definite tmpe then
        if tmpe.policyType = .accept then
          if maybeReject then .probablyAccepted else .accepted
        else if maybeAccept then .probablyRejected else .rejected
      else if tmpe.policyType = .reject then firstDefinite may definite maybeAccept true rest
      else firstDefinite may definite true maybeReject rest
    else firstDefinite may definite maybeAccept maybeReject rest

/-- The address is known and the port is not: an item with all ports matches for sure. -/
def compareKnownTorAddrToAddrPolicyNoport (addr : TorAddr) (policy : List AddrPolicy) :
    AddrPolicyResult :=
  firstDefinite (fun tmpe => torAddrCompareMasked addr tmpe.addr tmpe.maskbits .exact = 0)
    (fun tmpe => tmpe.prtMin ≤ 1 ∧ tmpe.prtMax ≥ 65535) false false policy

/-- The port is known and the address is not: an item with no mask bits matches for sure. -/
def compareUnknownTorAddrToAddrPolicy (port : UInt16) (policy : List AddrPolicy) :
    AddrPolicyResult :=
  firstDefinite (fun tmpe => tmpe.prtMin ≤ port ∧ port ≤ tmpe.prtMax)
    (fun tmpe => tmpe.maskbits = 0) false false policy

/-- Whether the policy accepts the address and the port.  No address, and the one with only zeroes,
is an unknown address, and 0 an unknown port; at least one of them is known. -/
def compareTorAddrToAddrPolicy (addr : Option TorAddr) (port : UInt16)
    (policy : Option (List AddrPolicy)) : AddrPolicyResult :=
  match policy with
  | none => .accepted
  | some items =>
    match addr.filter (!torAddrIsNull ·) with
    | none => if port = 0 then .rejected else compareUnknownTorAddrToAddrPolicy port items
    | some a =>
      if port = 0 then compareKnownTorAddrToAddrPolicyNoport a items
      else compareKnownTorAddrToAddrPolicy a port items

/-- Every case of `b` is one of `a`.  What the items do is ignored. -/
def addrPolicyCovers (a b : AddrPolicy) : Bool :=
  if a.addr.family ≠ b.addr.family then false
  else if a.maskbits > b.maskbits then false
  else if torAddrCompareMasked a.addr b.addr a.maskbits .exact ≠ 0 then false
  else a.prtMin ≤ b.prtMin ∧ a.prtMax ≥ b.prtMax

/-- Some address and port are a case of both. -/
def addrPolicyIntersects (a b : AddrPolicy) : Bool :=
  let minbits := if a.maskbits < b.maskbits then a.maskbits else b.maskbits
  if torAddrCompareMasked a.addr b.addr minbits .exact ≠ 0 then false
  else if a.prtMax < b.prtMin ∨ b.prtMax < a.prtMin then false
  else true

/-- The item is a catch-all: it matches every address of its family at every port. -/
def AddrPolicy.catchAll (ap : AddrPolicy) : Bool :=
  ap.maskbits = 0 ∧ ap.prtMin ≤ 1 ∧ ap.prtMax ≥ 65535

/-- Whether the items of a family are killed. -/
def killed (killV4 killV6 : Bool) : SaFamily → Bool
  | .inet => killV4
  | .inet6 => killV6

/-- Step one: everything of a family is killed after a catch-all of it. -/
def killAfterCatchAll (killV4 killV6 : Bool) : List AddrPolicy → List AddrPolicy
  | [] => []
  | ap :: rest =>
    if killed killV4 killV6 ap.addr.family then killAfterCatchAll killV4 killV6 rest
    else if ap.catchAll then
      match ap.addr.family with
      | .inet => ap :: killAfterCatchAll true killV6 rest
      | .inet6 => ap :: killAfterCatchAll killV4 true rest
    else ap :: killAfterCatchAll killV4 killV6 rest

/-- Step two: every entry removes the redundant ones after it. -/
def removeCoveredLater (dest : List AddrPolicy) : List AddrPolicy :=
  RuleList.dropCovered addrPolicyCovers dest

/-- Step three: every entry is removed if a later one of its type covers it, unless one of another
type that intersects it comes first. -/
def removeCoveredByLater (dest : List AddrPolicy) : List AddrPolicy :=
  RuleList.dropShadowed AddrPolicy.policyType addrPolicyCovers addrPolicyIntersects dest

/-- The dead code of a policy is excised. -/
def exitPolicyRemoveRedundancies (dest : List AddrPolicy) : List AddrPolicy :=
  removeCoveredByLater (removeCoveredLater (killAfterCatchAll false false dest))

/-- The item matches the address and the port. -/
def AddrPolicy.matchesAt (item : AddrPolicy) (x : TorAddr × UInt16) : Bool :=
  torAddrCompareMasked x.1 item.addr item.maskbits .exact = 0 ∧ x.2 ≥ item.prtMin ∧
    x.2 ≤ item.prtMax

section Matching

variable {a b : AddrPolicy} {x : TorAddr × UInt16}

lemma AddrPolicy.matchesAt_iff :
    a.matchesAt x ↔ x.1.AgreeOn a.addr a.maskbits ∧ a.prtMin ≤ x.2 ∧ x.2 ≤ a.prtMax := by
  rw [AddrPolicy.matchesAt, decide_eq_true_iff, torAddrCompareMasked_eq_zero_iff]

/-- An item covers those with a longer prefix and fewer ports. -/
lemma addrPolicyCovers_iff :
    addrPolicyCovers a b ↔
      a.maskbits ≤ b.maskbits ∧ a.addr.AgreeOn b.addr a.maskbits ∧
        a.prtMin ≤ b.prtMin ∧ b.prtMax ≤ a.prtMax := by
  unfold addrPolicyCovers
  by_cases hfamily : a.addr.family = b.addr.family
  · by_cases hbits : a.maskbits ≤ b.maskbits
    · rw [if_neg (not_not.mpr hfamily), if_neg (not_lt.mpr hbits),
        ← torAddrCompareMasked_eq_zero_iff]
      by_cases hcmp : torAddrCompareMasked a.addr b.addr a.maskbits .exact = 0
      · simp [hcmp, hbits]
      · simp [hcmp]
    · rw [if_neg (not_not.mpr hfamily), if_pos (Nat.lt_of_not_le hbits)]
      simp [hbits]
  · rw [if_pos hfamily]
    refine iff_of_false Bool.false_ne_true fun h => hfamily h.2.1.1

/-- Items intersect if their prefixes agree as far as both go and their ranges overlap. -/
lemma addrPolicyIntersects_iff :
    addrPolicyIntersects a b ↔
      a.addr.AgreeOn b.addr (min a.maskbits b.maskbits) ∧
        b.prtMin ≤ a.prtMax ∧ a.prtMin ≤ b.prtMax := by
  have hmin : (if a.maskbits < b.maskbits then a.maskbits else b.maskbits) =
      min a.maskbits b.maskbits := by
    split_ifs <;> omega
  unfold addrPolicyIntersects
  simp only [hmin]
  rw [← torAddrCompareMasked_eq_zero_iff]
  by_cases hcmp : torAddrCompareMasked a.addr b.addr (min a.maskbits b.maskbits) .exact = 0
  · simp [hcmp]
  · simp [hcmp]

/-- What the items cover and intersect, as the rules of a list. -/
lemma covering_addrPolicy :
    RuleList.Covering AddrPolicy.matchesAt addrPolicyCovers addrPolicyIntersects where
  applies_of_covers := by
    intro a b x hcovers hb
    obtain ⟨hbits, hagree, hmin, hmax⟩ := addrPolicyCovers_iff.mp hcovers
    obtain ⟨haddr, hlo, hhi⟩ := AddrPolicy.matchesAt_iff.mp hb
    apply AddrPolicy.matchesAt_iff.mpr
    exact ⟨(haddr.mono hbits).trans hagree.symm, UInt16.le_trans hmin hlo, UInt16.le_trans hhi hmax⟩
  meets_of_applies := by
    intro a b x ha hb
    obtain ⟨haddr, halo, hahi⟩ := AddrPolicy.matchesAt_iff.mp ha
    obtain ⟨hbddr, hblo, hbhi⟩ := AddrPolicy.matchesAt_iff.mp hb
    apply addrPolicyIntersects_iff.mpr
    refine ⟨?_, UInt16.le_trans hblo hahi, UInt16.le_trans halo hbhi⟩
    exact (haddr.mono (min_le_left _ _)).symm.trans (hbddr.mono (min_le_right _ _))
  meets_symm := by
    intro a b hmeets
    obtain ⟨hagree, hba, hab⟩ := addrPolicyIntersects_iff.mp hmeets
    apply addrPolicyIntersects_iff.mpr
    exact ⟨min_comm a.maskbits b.maskbits ▸ hagree.symm, hab, hba⟩
  meets_of_covers := by
    intro a b c hcovers hmeets
    obtain ⟨hbits, hagree, hmin, hmax⟩ := addrPolicyCovers_iff.mp hcovers
    obtain ⟨hab, hlo, hhi⟩ := addrPolicyIntersects_iff.mp hmeets
    apply addrPolicyIntersects_iff.mpr
    refine ⟨?_, UInt16.le_trans hmin hlo, UInt16.le_trans hhi hmax⟩
    have hshort : a.addr.AgreeOn b.addr (min a.maskbits c.maskbits) :=
      hab.mono (min_le_min_left a.maskbits hbits)
    exact hshort.trans (hagree.mono (min_le_right _ _)).symm

lemma AddrPolicy.matchesAt_of_catchAll (h : a.catchAll) (hfamily : x.1.family = a.addr.family)
    (hport : x.2 ≠ 0) : a.matchesAt x := by
  obtain ⟨hbits, hmin, hmax⟩ := of_decide_eq_true h
  have hpos : 1 ≤ x.2 := by
    rw [UInt16.le_iff_toNat_le]
    exact Nat.pos_of_ne_zero fun hzero => hport (UInt16.toNat_inj.mp hzero)
  have hlt : x.2 ≤ 65535 := UInt16.le_iff_toNat_le.mpr (Nat.le_of_lt_succ x.2.toNat_lt)
  apply AddrPolicy.matchesAt_iff.mpr
  exact ⟨hbits ▸ TorAddr.AgreeOn.zero hfamily, UInt16.le_trans hmin hpos, UInt16.le_trans hlt hmax⟩

/-- The answer of a policy for a known address and port is that of its first item that matches. -/
lemma compareKnown_eq_firstVerdict (addr : TorAddr) (port : UInt16) (policy : List AddrPolicy) :
    compareKnownTorAddrToAddrPolicy addr port policy =
      (RuleList.firstVerdict AddrPolicy.matchesAt AddrPolicy.policyType .accept policy
        (addr, port)).answer := by
  induction policy with
  | nil => rfl
  | cons item rest ih =>
    rw [compareKnownTorAddrToAddrPolicy, RuleList.firstVerdict, ih]
    by_cases hcmp : torAddrCompareMasked addr item.addr item.maskbits .exact = 0
    · by_cases hport : port ≥ item.prtMin ∧ port ≤ item.prtMax
      · have hmatch : item.matchesAt (addr, port) := decide_eq_true ⟨hcmp, hport⟩
        rw [if_pos hcmp, if_pos hport, if_pos hmatch]
      · have hmatch : ¬item.matchesAt (addr, port) := fun h => hport (of_decide_eq_true h).2
        rw [if_pos hcmp, if_neg hport, if_neg hmatch]
    · have hmatch : ¬item.matchesAt (addr, port) := fun h => hcmp (of_decide_eq_true h).1
      rw [if_neg hcmp, if_neg hmatch]

end Matching

section StepOne

variable {k4 k6 : Bool}

/-- After a catch-all its family is killed too. -/
def AddrPolicy.kills (ap : AddrPolicy) (family : SaFamily) : Bool :=
  ap.catchAll && family = ap.addr.family

lemma killAfterCatchAll_cons_killed {ap : AddrPolicy} (h : killed k4 k6 ap.addr.family)
    (rest : List AddrPolicy) :
    killAfterCatchAll k4 k6 (ap :: rest) = killAfterCatchAll k4 k6 rest := by
  rw [killAfterCatchAll, if_pos h]

lemma killAfterCatchAll_cons_kept {ap : AddrPolicy} (h : ¬killed k4 k6 ap.addr.family)
    (rest : List AddrPolicy) :
    killAfterCatchAll k4 k6 (ap :: rest) =
      ap :: killAfterCatchAll (k4 || ap.kills .inet) (k6 || ap.kills .inet6) rest := by
  rw [killAfterCatchAll, if_neg h]
  by_cases hcatch : ap.catchAll
  · cases hfamily : ap.addr.family <;> simp [hcatch, hfamily, AddrPolicy.kills]
  · simp [hcatch, AddrPolicy.kills]

lemma killed_or_kills (ap : AddrPolicy) (family : SaFamily) :
    killed (k4 || ap.kills .inet) (k6 || ap.kills .inet6) family =
      (killed k4 k6 family || ap.kills family) := by
  cases family <;> rfl

/-- Nothing that is left is of a family that was killed before. -/
lemma not_killed_of_mem {l : List AddrPolicy} {b : AddrPolicy}
    (hb : b ∈ killAfterCatchAll k4 k6 l) : ¬killed k4 k6 b.addr.family := by
  induction l generalizing k4 k6 with
  | nil => cases hb
  | cons ap rest ih =>
    by_cases h : killed k4 k6 ap.addr.family
    · rw [killAfterCatchAll_cons_killed h] at hb
      exact ih hb
    · rw [killAfterCatchAll_cons_kept h] at hb
      rcases mem_cons.mp hb with rfl | hrest
      · exact h
      · have hlater := ih hrest
        rw [killed_or_kills] at hlater
        exact fun hkilled => hlater (by rw [hkilled, Bool.true_or])

/-- Nothing that is left is killed by an item before it. -/
lemma pairwise_killAfterCatchAll (l : List AddrPolicy) :
    (killAfterCatchAll k4 k6 l).Pairwise fun a b => ¬a.kills b.addr.family := by
  induction l generalizing k4 k6 with
  | nil => exact List.Pairwise.nil
  | cons ap rest ih =>
    by_cases h : killed k4 k6 ap.addr.family
    · rw [killAfterCatchAll_cons_killed h]
      exact ih
    · rw [killAfterCatchAll_cons_kept h]
      refine pairwise_cons.mpr ⟨fun b hb hkills => ?_, ih⟩
      apply not_killed_of_mem hb
      rw [killed_or_kills, hkills, Bool.or_true]

/-- Where no item is killed, by the flags or by one before it, everything is left. -/
lemma killAfterCatchAll_eq_self {l : List AddrPolicy}
    (hflags : ∀ b ∈ l, ¬killed k4 k6 b.addr.family)
    (h : l.Pairwise fun a b => ¬a.kills b.addr.family) : killAfterCatchAll k4 k6 l = l := by
  induction l generalizing k4 k6 with
  | nil => rfl
  | cons ap rest ih =>
    obtain ⟨hap, hrest⟩ := pairwise_cons.mp h
    rw [killAfterCatchAll_cons_kept (hflags ap mem_cons_self), ih _ hrest]
    intro b hb
    rw [killed_or_kills, Bool.or_eq_true]
    exact not_or.mpr ⟨hflags b (mem_cons_of_mem ap hb), hap b hb⟩

/-- What is killed is never reached: before it, a catch-all matches. -/
lemma firstVerdict_killAfterCatchAll {x : TorAddr × UInt16} (hport : x.2 ≠ 0) (l : List AddrPolicy)
    (hflags : ¬killed k4 k6 x.1.family) :
    RuleList.firstVerdict AddrPolicy.matchesAt AddrPolicy.policyType .accept
        (killAfterCatchAll k4 k6 l) x =
      RuleList.firstVerdict AddrPolicy.matchesAt AddrPolicy.policyType .accept l x := by
  induction l generalizing k4 k6 with
  | nil => rfl
  | cons ap rest ih =>
    by_cases h : killed k4 k6 ap.addr.family
    · have hmatch : ¬ap.matchesAt x := by
        intro hmatch
        rw [(AddrPolicy.matchesAt_iff.mp hmatch).1.1] at hflags
        exact hflags h
      rw [killAfterCatchAll_cons_killed h, RuleList.firstVerdict_cons_neg hmatch]
      exact ih hflags
    · rw [killAfterCatchAll_cons_kept h]
      refine RuleList.firstVerdict_cons_congr fun hmatch => ?_
      apply ih
      rw [killed_or_kills, Bool.or_eq_true]
      refine not_or.mpr ⟨hflags, fun hkills => hmatch ?_⟩
      obtain ⟨hcatch, hfamily⟩ := Bool.and_eq_true_iff.mp hkills
      exact AddrPolicy.matchesAt_of_catchAll hcatch (of_decide_eq_true hfamily) hport

end StepOne

section RemoveRedundancies

lemma exitPolicyRemoveRedundancies_sublist (dest : List AddrPolicy) :
    (exitPolicyRemoveRedundancies dest).Sublist (killAfterCatchAll false false dest) :=
  (RuleList.dropShadowed_sublist _).trans (RuleList.dropCovered_sublist _)

/-- The first two steps find nothing to remove in what is left. -/
lemma removeCoveredLater_exitPolicyRemoveRedundancies (dest : List AddrPolicy) :
    removeCoveredLater (killAfterCatchAll false false (exitPolicyRemoveRedundancies dest)) =
      exitPolicyRemoveRedundancies dest := by
  have hkill : killAfterCatchAll false false (exitPolicyRemoveRedundancies dest) =
      exitPolicyRemoveRedundancies dest := by
    refine killAfterCatchAll_eq_self (fun b _ => ?_) ?_
    · cases b.addr.family <;> exact Bool.false_ne_true
    · exact (pairwise_killAfterCatchAll dest).sublist (exitPolicyRemoveRedundancies_sublist dest)
  rw [hkill]
  apply RuleList.dropCovered_eq_self
  exact (RuleList.pairwise_dropCovered _).sublist (RuleList.dropShadowed_sublist _)

/-- The first match is the same, for every address and every port but 0. -/
lemma firstVerdict_exitPolicyRemoveRedundancies (dest : List AddrPolicy) {x : TorAddr × UInt16}
    (hport : x.2 ≠ 0) :
    RuleList.firstVerdict AddrPolicy.matchesAt AddrPolicy.policyType .accept
        (exitPolicyRemoveRedundancies dest) x =
      RuleList.firstVerdict AddrPolicy.matchesAt AddrPolicy.policyType .accept dest x := by
  have hflags : ¬killed false false x.1.family := by
    cases x.1.family <;> exact Bool.false_ne_true
  rw [exitPolicyRemoveRedundancies, removeCoveredByLater, removeCoveredLater,
    RuleList.firstVerdict_dropShadowed covering_addrPolicy,
    RuleList.firstVerdict_dropCovered fun hcovers => covering_addrPolicy.applies_of_covers hcovers,
    firstVerdict_killAfterCatchAll hport dest hflags]

/-- **Redundant items are idle.**  For every address but the null one and every port but 0, the
answer of a policy is the same before and after its redundancies are removed, and a second run
removes nothing. -/
theorem compareTorAddr_exitPolicyRemoveRedundancies (dest : List AddrPolicy) (addr : TorAddr)
    (port : UInt16) (haddr : torAddrIsNull addr = false) (hport : port ≠ 0) :
    compareTorAddrToAddrPolicy (some addr) port (some (exitPolicyRemoveRedundancies dest)) =
        compareTorAddrToAddrPolicy (some addr) port (some dest) ∧
      exitPolicyRemoveRedundancies (exitPolicyRemoveRedundancies dest) =
        exitPolicyRemoveRedundancies dest := by
  constructor
  · have hknown : (some addr).filter (!torAddrIsNull ·) = some addr := by
      rw [Option.filter_some, haddr]
      rfl
    have hfirst := firstVerdict_exitPolicyRemoveRedundancies dest (x := (addr, port)) hport
    unfold compareTorAddrToAddrPolicy
    simp only [hknown, if_neg hport, compareKnown_eq_firstVerdict, hfirst]
  · have htwo := removeCoveredLater_exitPolicyRemoveRedundancies dest
    conv_lhs => rw [exitPolicyRemoveRedundancies, htwo]
    exact RuleList.dropShadowed_idem covering_addrPolicy _

end RemoveRedundancies

section Unknown

def httpAccept : AddrPolicy :=
  ⟨.accept, .ipv4 0x01000000, 8, 80, 80, by decide⟩

/-- Port 80 is rejected at 1.2.0.0/16, which is part of 1.0.0.0/8. -/
def httpReject : AddrPolicy :=
  ⟨.reject, .ipv4 0x01020000, 16, 80, 80, by decide⟩

/-- Port 80 is accepted at 1.2.3.4 before and after the second item is removed. -/
theorem compareTorAddr_exitPolicyRemoveRedundancies_http :
    compareTorAddrToAddrPolicy (some (.ipv4 0x01020304)) 80
          (some (exitPolicyRemoveRedundancies [httpAccept, httpReject])) =
        compareTorAddrToAddrPolicy (some (.ipv4 0x01020304)) 80 (some [httpAccept, httpReject]) ∧
      exitPolicyRemoveRedundancies (exitPolicyRemoveRedundancies [httpAccept, httpReject]) =
        exitPolicyRemoveRedundancies [httpAccept, httpReject] :=
  compareTorAddr_exitPolicyRemoveRedundancies _ (.ipv4 0x01020304) 80 (by decide) (by decide)

/-- The second item is covered by the first one. -/
lemma exitPolicyRemoveRedundancies_http :
    exitPolicyRemoveRedundancies [httpAccept, httpReject] = [httpAccept] := by
  have hkill : killAfterCatchAll false false [httpAccept, httpReject] =
      [httpAccept, httpReject] := by
    decide
  have hcovered : RuleList.uncovered addrPolicyCovers httpAccept [httpReject] = [] := by
    decide
  rw [exitPolicyRemoveRedundancies, hkill, removeCoveredLater, RuleList.dropCovered_cons, hcovered,
    RuleList.dropCovered_nil]
  decide

/-- Port 80 is probably accepted at an unknown address, until the second item is removed: then it is
accepted. -/
theorem not_compareTorAddr_unknown :
    ¬∀ (dest : List AddrPolicy) (addr : TorAddr) (port : UInt16), port ≠ 0 →
      compareTorAddrToAddrPolicy (some addr) port (some (exitPolicyRemoveRedundancies dest)) =
          compareTorAddrToAddrPolicy (some addr) port (some dest) ∧
        exitPolicyRemoveRedundancies (exitPolicyRemoveRedundancies dest) =
          exitPolicyRemoveRedundancies dest := by
  intro h
  have hnull := (h [httpAccept, httpReject] (.ipv4 0) 80 (by decide)).1
  rw [exitPolicyRemoveRedundancies_http] at hnull
  exact absurd hnull (by decide)

end Unknown

end Astoria
