import Astoria.TorClient.RoutersetNodes

/-!
# Policies that reject everything

`policyIsRejectStar` looks for an item that rejects everything of a family before it finds one that
accepts anything of it.  If it comes to the end of the policy, it says that everything is rejected.
But what no item matches is accepted by default, and an item for all families, which it counts as
well, matches no address.  A policy is a list here; without one the source answers that all is
rejected.

`rejectStarRight_iff` says when its answer is right, by the item that the scan stops at.
-/

namespace Astoria.RejectStar

open Option
open List hiding Vector Vector.replicate
open Routersets

/-- The item is for a family, or for all. -/
def isFor (family : SaFamily) (p : PolicyItem) : Bool := p.addr.all (·.family = family)

/-- The item accepts something of a family. -/
def acceptsSome (family : SaFamily) (p : PolicyItem) : Bool :=
  p.policyType = .accept && isFor family p

/-- The item rejects everything of a family. -/
def rejectsAll (family : SaFamily) (p : PolicyItem) : Bool :=
  p.policyType = .reject && p.prtMin ≤ 1 && p.prtMax = 65535 && p.maskbits = 0 && isFor family p

/-- Whether the policy is taken to reject everything of a family. -/
def policyIsRejectStar (family : SaFamily) : List PolicyItem → Bool
  | [] => true
  | p :: policy =>
    if acceptsSome family p then false
    else if rejectsAll family p then true
    else policyIsRejectStar family policy

/-- The answer is right: if it is yes, every address of the family is rejected at every port, and it
is no if the first item for the family accepts. -/
structure RejectStarRight (family : SaFamily) (policy : List PolicyItem) : Prop where
  rejected : policyIsRejectStar family policy = true →
    ∀ addr : TorAddr, addr.family = family → ∀ port, port ≠ 0 →
      compareTorAddrToPolicy addr port policy = .rejected
  accepting : ∀ p, policy.find? (isFor family) = some p → p.policyType = .accept →
    policyIsRejectStar family policy = false

/-! ### What the scan meets -/

/-- The scan stops at the item. -/
def stopsAt (family : SaFamily) (p : PolicyItem) : Bool :=
  acceptsSome family p || rejectsAll family p

/-- The items before the one that the scan stops at. -/
def passed (family : SaFamily) (policy : List PolicyItem) : List PolicyItem :=
  policy.takeWhile fun p => !stopsAt family p

/-- The item is for the address and the port. -/
def covers (p : PolicyItem) (x : TorAddr × UInt16) : Bool := p.coversAddr x.1 && p.coversPort x.2

/-- The item tells about a port at an unknown address: it rejects the port at every address, or it
accepts it at some. -/
def tells (p : PolicyItem) (port : UInt16) : Bool :=
  p.coversPort port && (p.policyType = .accept || p.maskbits = 0)

/-- What the items do with an address and a port. -/
def knownAction (policy : List PolicyItem) (x : TorAddr × UInt16) : AddrPolicyAction :=
  RuleList.firstVerdict covers PolicyItem.policyType .accept policy x

/-- What the items do with a port at an unknown address. -/
def unknownAction (default : AddrPolicyAction) (items : List PolicyItem) (port : UInt16) :
    AddrPolicyAction :=
  RuleList.firstVerdict tells PolicyItem.policyType default items port

/-- What the scan stops at fits its answer.  At an item that accepts it does, and at a catch-all of
the family itself it does for the known addresses.  A catch-all for all families matches none of
them, and at the end of the policy its items have to leave no address and no port out.  The unknown
address is of the family too, so that no item of the other family may accept a port that was not
rejected before. -/
def ScanFits (family : SaFamily) (policy : List PolicyItem) : Prop :=
  match policy.find? (stopsAt family) with
  | some p => p.policyType = .accept ∨
      (∀ port ≠ 0, unknownAction .reject (passed family policy) port = .reject) ∧
      (p.addr = none → ∀ addr : TorAddr, addr.family = family → torAddrIsNull addr = false →
        ∀ port ≠ 0, knownAction policy (addr, port) = .reject)
  | none =>
      (∀ port ≠ 0, unknownAction .accept policy port = .reject) ∧
      ∀ addr : TorAddr, addr.family = family → torAddrIsNull addr = false →
        ∀ port ≠ 0, ∃ p ∈ policy, covers p (addr, port)

section Scans

variable {family : SaFamily} {policy : List PolicyItem} {p : PolicyItem} {addr : TorAddr}
  {port : UInt16}

/-- **The answer is no** if the scan stops at an item that accepts. -/
lemma policyIsRejectStar_eq (family : SaFamily) (policy : List PolicyItem) :
    policyIsRejectStar family policy =
      (policy.find? (stopsAt family)).all (·.policyType = .reject) := by
  induction policy with
  | nil => rfl
  | cons p policy ih =>
    rw [policyIsRejectStar]
    split_ifs with haccept hreject
    · have hstop : stopsAt family p := by simp [stopsAt, haccept]
      rw [find?_cons_of_pos hstop]
      simp_all [acceptsSome]
    · have hstop : stopsAt family p := by simp [stopsAt, hreject]
      rw [find?_cons_of_pos hstop]
      simp_all [rejectsAll]
    · have hstop : ¬stopsAt family p := by simp [stopsAt, haccept, hreject]
      rw [find?_cons_of_neg hstop, ih]

lemma isFor_of_stopsAt (h : stopsAt family p) : isFor family p := by
  rcases Bool.or_eq_true_iff.mp h with h | h
  · exact (Bool.and_eq_true_iff.mp h).2
  · exact (Bool.and_eq_true_iff.mp h).2

/-- The first item for the family is one that the scan stops at if it accepts. -/
lemma policyIsRejectStar_of_accept (h : policy.find? (isFor family) = some p)
    (haccept : p.policyType = .accept) : policyIsRejectStar family policy = false := by
  obtain ⟨hfor, pre, post, rfl, hpre⟩ := find?_eq_some_iff_append.mp h
  have hfind : (pre ++ p :: post).find? (stopsAt family) = some p := by
    refine find?_eq_some_iff_append.mpr ⟨?_, pre, post, rfl, fun q hq => ?_⟩
    · simp [stopsAt, acceptsSome, haccept, hfor]
    · have hq := hpre q hq
      rw [Bool.not_eq_true'] at hq ⊢
      exact Bool.eq_false_iff.mpr fun hstop => Bool.eq_false_iff.mp hq (isFor_of_stopsAt hstop)
  rw [policyIsRejectStar_eq, hfind]
  simp [haccept]

/-- An item that covers an address is for its family. -/
lemma isFor_of_covers (h : covers p (addr, port)) : isFor addr.family p := by
  have haddr := (Bool.and_eq_true_iff.mp h).1
  rw [PolicyItem.coversAddr, Option.any_eq_true] at haddr
  obtain ⟨a, ha, hcmp⟩ := haddr
  have hagree := (torAddrCompareMasked_eq_zero_iff _ _ _).mp (of_decide_eq_true hcmp)
  rw [isFor, ha]
  simp [hagree.1]

/-- An item that covers an address and that the scan does not stop at rejects. -/
lemma reject_of_covers (h : covers p (addr, port)) (hstop : ¬stopsAt addr.family p) :
    p.policyType = .reject := by
  cases htype : p.policyType with
  | reject => rfl
  | accept => exact absurd (by simp [stopsAt, acceptsSome, htype, isFor_of_covers h]) hstop

lemma coversPort_of_rejectsAll (h : rejectsAll family p) (hport : port ≠ 0) :
    p.coversPort port := by
  simp only [rejectsAll, Bool.and_eq_true, decide_eq_true_iff] at h
  obtain ⟨⟨⟨⟨-, hmin⟩, hmax⟩, -⟩, -⟩ := h
  have hpos : 1 ≤ port := by
    rw [UInt16.le_iff_toNat_le]
    exact Nat.pos_of_ne_zero fun hzero => hport (UInt16.toNat_inj.mp hzero)
  have hlast : port ≤ 65535 := UInt16.le_iff_toNat_le.mpr (Nat.le_of_lt_succ port.toNat_lt)
  rw [PolicyItem.coversPort, Bool.and_eq_true, decide_eq_true_iff, decide_eq_true_iff, hmax]
  exact ⟨UInt16.le_trans hmin hpos, hlast⟩

/-- A catch-all of the family itself covers its addresses. -/
lemma covers_of_rejectsAll (h : rejectsAll addr.family p) (hsome : p.addr ≠ none)
    (hport : port ≠ 0) : covers p (addr, port) := by
  obtain ⟨a, ha⟩ := ne_none_iff_exists'.mp hsome
  have hports := coversPort_of_rejectsAll h hport
  simp only [rejectsAll, isFor, ha, Bool.and_eq_true, decide_eq_true_iff, all_some] at h
  have hcmp : torAddrCompareMasked addr a p.maskbits .exact = 0 := by
    rw [h.1.2]
    exact (torAddrCompareMasked_eq_zero_iff _ _ _).mpr (TorAddr.AgreeOn.zero h.2.symm)
  simp [covers, PolicyItem.coversAddr, ha, hcmp, hports]

/-- **A policy rejects** if the first item that tells something rejects. -/
lemma firstMatch_eq_rejected_iff {χ : Type} {may definite : PolicyItem → Bool}
    {applies : PolicyItem → χ → Bool} {x : χ}
    (happlies : ∀ p, applies p x = (may p && (p.policyType = .accept || definite p)))
    (maybeReject : Bool) :
    firstMatch may definite false maybeReject policy = .rejected ↔
      RuleList.firstVerdict applies PolicyItem.policyType .accept policy x = .reject := by
  induction policy generalizing maybeReject with
  | nil => exact iff_of_false (by cases maybeReject <;> nofun) nofun
  | cons p policy ih =>
    rw [firstMatch, RuleList.firstVerdict, happlies]
    cases hmay : may p with
    | false => simpa using ih maybeReject
    | true =>
      cases htype : p.policyType with
      | accept =>
        -- from here on the policy rejects at most probably
        have hno : firstMatch may definite true maybeReject policy ≠ .rejected := fun h =>
          Bool.noConfusion (firstMatch_rejected h).1
        cases definite p with
        | true => cases maybeReject <;> simp
        | false => simpa using hno
      | reject =>
        cases hdefinite : definite p with
        | true => simp
        | false => simpa using ih true

lemma rejected_known (hnull : torAddrIsNull addr = false) (hport : port ≠ 0) :
    compareTorAddrToPolicy addr port policy = .rejected ↔
      knownAction policy (addr, port) = .reject := by
  rw [compareTorAddrToPolicy, if_neg fun h => hport h.2]
  apply firstMatch_eq_rejected_iff
  simp [covers, PolicyItem.mayMatch, PolicyItem.definite, hnull, hport]

lemma rejected_unknown (hnull : torAddrIsNull addr = true) (hport : port ≠ 0) :
    compareTorAddrToPolicy addr port policy = .rejected ↔
      unknownAction .accept policy port = .reject := by
  rw [compareTorAddrToPolicy, if_neg fun h => hport h.2]
  apply firstMatch_eq_rejected_iff
  simp [tells, PolicyItem.mayMatch, PolicyItem.definite, hnull]

/-- At the end of the policy only what its items cover is rejected. -/
lemma knownAction_eq_reject_iff (hnone : ∀ p ∈ policy, ¬stopsAt addr.family p) :
    knownAction policy (addr, port) = .reject ↔ ∃ p ∈ policy, covers p (addr, port) := by
  have h : ∀ p ∈ policy, covers p (addr, port) → p.policyType = .reject := fun p hp hcovers =>
    reject_of_covers hcovers (hnone p hp)
  rw [knownAction, RuleList.firstVerdict_eq_iff h]
  simp

/-- Every port is rejected at a catch-all, unless one is accepted before. -/
lemma unknownAction_of_find (h : policy.find? (stopsAt family) = some p)
    (hreject : rejectsAll family p) (hport : port ≠ 0) :
    unknownAction .accept policy port = unknownAction .reject (passed family policy) port := by
  obtain ⟨hstop, pre, post, rfl, hpre⟩ := find?_eq_some_iff_append.mp h
  have hpassed : passed family (pre ++ p :: post) = pre := by
    rw [passed, takeWhile_append_of_pos hpre]
    simp [hstop]
  have htells : tells p port := by
    rw [tells, coversPort_of_rejectsAll hreject hport]
    simp_all [rejectsAll]
  rw [hpassed, unknownAction, RuleList.firstVerdict_append, RuleList.firstVerdict_cons_pos htells]
  simp_all [rejectsAll, unknownAction]

/-- A catch-all of the family itself rejects the known addresses. -/
lemma knownAction_of_find (h : policy.find? (stopsAt addr.family) = some p)
    (hreject : rejectsAll addr.family p) (hsome : p.addr ≠ none) (hport : port ≠ 0) :
    knownAction policy (addr, port) = .reject := by
  obtain ⟨-, pre, post, rfl, hpre⟩ := find?_eq_some_iff_append.mp h
  have htype : p.policyType = .reject := by simp_all [rejectsAll]
  rw [knownAction, RuleList.firstVerdict_append,
    RuleList.firstVerdict_cons_pos (covers_of_rejectsAll hreject hsome hport)]
  refine (RuleList.firstVerdict_eq_iff fun q hq hcovers => ?_).mpr (.inl htype)
  exact reject_of_covers hcovers (by simpa using hpre q hq)

end Scans

lemma exists_null (family : SaFamily) :
    ∃ addr : TorAddr, addr.family = family ∧ torAddrIsNull addr = true := by
  cases family with
  | inet => exact ⟨.ipv4 0, rfl, rfl⟩
  | inet6 => exact ⟨.ipv6 (Vector.replicate 16 0), rfl, by decide⟩

/-- The addresses of a family are rejected if the known ones and the unknown one are. -/
lemma forall_rejected_iff {family : SaFamily} {policy : List PolicyItem} :
    (∀ addr : TorAddr, addr.family = family → ∀ port, port ≠ 0 →
        compareTorAddrToPolicy addr port policy = .rejected) ↔
      (∀ port ≠ 0, unknownAction .accept policy port = .reject) ∧
        ∀ addr : TorAddr, addr.family = family → torAddrIsNull addr = false →
          ∀ port ≠ 0, knownAction policy (addr, port) = .reject := by
  constructor
  · intro h
    obtain ⟨null, hfamily, hnull⟩ := exists_null family
    refine ⟨fun port hport => (rejected_unknown hnull hport).mp (h null hfamily port hport), ?_⟩
    intro addr haddr hknown port hport
    exact (rejected_known hknown hport).mp (h addr haddr port hport)
  · rintro ⟨hunknown, hknown⟩ addr haddr port hport
    cases hnull : torAddrIsNull addr with
    | true => exact (rejected_unknown hnull hport).mpr (hunknown port hport)
    | false => exact (rejected_known hnull hport).mpr (hknown addr haddr hnull port hport)

/-- **When a policy that is taken to reject everything does so**: if the scan stops at a catch-all
of the family, or at one for all families or at the end of a policy whose items do without it. -/
theorem rejectStarRight_iff (family : SaFamily) (policy : List PolicyItem) :
    RejectStarRight family policy ↔ ScanFits family policy := by
  have hright : RejectStarRight family policy ↔ (policyIsRejectStar family policy = true →
      (∀ port ≠ 0, unknownAction .accept policy port = .reject) ∧
        ∀ addr : TorAddr, addr.family = family → torAddrIsNull addr = false →
          ∀ port ≠ 0, knownAction policy (addr, port) = .reject) := by
    rw [← forall_rejected_iff]
    exact ⟨fun h => h.rejected, fun h => ⟨h, fun _ => policyIsRejectStar_of_accept⟩⟩
  rw [hright, policyIsRejectStar_eq, ScanFits]
  cases hfind : policy.find? (stopsAt family) with
  | none =>
    have hnone : ∀ p ∈ policy, ¬stopsAt family p := find?_eq_none.mp hfind
    simp only [all_none, forall_const]
    refine and_congr_right fun _ => forall_congr' fun addr => forall_congr' fun haddr => ?_
    subst haddr
    simp only [knownAction_eq_reject_iff hnone]
  | some p =>
    cases htype : p.policyType with
    | accept => simp [htype]
    | reject =>
      have hreject : rejectsAll family p := by
        have hstop := find?_some hfind
        simpa [stopsAt, acceptsSome, htype] using hstop
      simp only [htype, all_some, decide_true, forall_const, reduceCtorEq, false_or]
      refine and_congr ?_ ?_
      · refine forall₂_congr fun port hport => ?_
        rw [unknownAction_of_find hfind hreject hport]
      · refine ⟨fun h _ => h, fun h addr haddr hknown port hport => ?_⟩
        by_cases hsome : p.addr = none
        · exact h hsome addr haddr hknown port hport
        · subst haddr
          exact knownAction_of_find hfind hreject hsome hport

/-- A policy without items is taken to reject everything, and accepts everything. -/
theorem not_rejectStarRight : ¬RejectStarRight .inet [] ∧ policyIsRejectStar .inet [] = true ∧
    compareTorAddrToPolicy (.ipv4 1) 80 [] = .accepted := by
  have hanswer : compareTorAddrToPolicy (.ipv4 1) 80 [] = .accepted := by decide
  refine ⟨fun h => ?_, rfl, hanswer⟩
  exact absurd (hanswer.symm.trans (h.rejected rfl (.ipv4 1) rfl 80 (by decide))) nofun

end Astoria.RejectStar
