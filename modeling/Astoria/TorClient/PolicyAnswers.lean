import Astoria.TorClient.ExitPolicy

/-!
# Definite answers of a policy

If the address or the port is not known, a policy answers after a scan that looks for an item which
matches for sure.  An answer that is not a probable one is definite.

For a known address a definite answer holds at every port.  For an unknown address an item without
mask bits counts as one for all addresses, although it is only one for all addresses of its family.
So a definite answer can be wrong for the other family, exactly if the items after that one treat an
address of the other family differently (`definiteAnswers_iff`).
-/

namespace Astoria

/-! ### Where the scan stops -/

/-- The scan stops at an item which matches for sure, and no item before it that may match says
anything different or matches for sure. -/
structure StopsAt (may definite : AddrPolicy → Bool) (policy before : List AddrPolicy)
    (item : AddrPolicy) (after : List AddrPolicy) : Prop where
  eq_append : policy = before ++ item :: after
  may_item : may item
  definite_item : definite item
  agree : ∀ b ∈ before, may b → ¬definite b ∧ b.policyType = item.policyType

/-- No item that may match is a rejection, and none matches for sure. -/
def PassesThrough (may definite : AddrPolicy → Bool) (policy : List AddrPolicy) : Prop :=
  ∀ b ∈ policy, may b → ¬definite b ∧ b.policyType = .accept

section Scan

variable {may definite : AddrPolicy → Bool} {policy : List AddrPolicy}
  {maybeAccept maybeReject : Bool}

lemma StopsAt.cons {before after : List AddrPolicy} {item b : AddrPolicy}
    (h : StopsAt may definite policy before item after)
    (hb : may b → ¬definite b ∧ b.policyType = item.policyType) :
    StopsAt may definite (b :: policy) (b :: before) item after where
  eq_append := by rw [h.eq_append, List.cons_append]
  may_item := h.may_item
  definite_item := h.definite_item
  agree := List.forall_mem_cons.mpr ⟨hb, h.agree⟩

/-- The answer is only `accepted` if no rejection was possible before, and then the scan stops at an
accepting item or passes through. -/
lemma firstDefinite_eq_accepted
    (h : firstDefinite may definite maybeAccept maybeReject policy = .accepted) :
    maybeReject = false ∧ ((∃ before item after, StopsAt may definite policy before item after ∧
      item.policyType = .accept) ∨ PassesThrough may definite policy) := by
  induction policy generalizing maybeAccept maybeReject with
  | nil =>
    unfold firstDefinite at h
    split_ifs at h with hreject
    exact ⟨Bool.eq_false_of_not_eq_true hreject, .inr nofun⟩
  | cons b rest ih =>
    unfold firstDefinite at h
    split_ifs at h with hmay hdefinite haccept hreject hmaybe htype
    · exact ⟨Bool.eq_false_of_not_eq_true hreject,
        .inl ⟨[], b, rest, ⟨rfl, hmay, hdefinite, nofun⟩, haccept⟩⟩
    · exact absurd (ih h).1 nofun
    · obtain ⟨hreject, hrest⟩ := ih h
      have hb : b.policyType = .accept := by
        cases hpolicy : b.policyType with
        | accept => rfl
        | reject => exact absurd hpolicy htype
      refine ⟨hreject, hrest.imp ?_ fun hpass => ?_⟩
      · rintro ⟨before, item, after, hstop, hitem⟩
        exact ⟨b :: before, item, after, hstop.cons fun _ => ⟨hdefinite, hb.trans hitem.symm⟩,
          hitem⟩
      · exact List.forall_mem_cons.mpr ⟨fun _ => ⟨hdefinite, hb⟩, hpass⟩
    · obtain ⟨hreject, hrest⟩ := ih h
      refine ⟨hreject, hrest.imp ?_ fun hpass => ?_⟩
      · rintro ⟨before, item, after, hstop, hitem⟩
        exact ⟨b :: before, item, after, hstop.cons fun hb => absurd hb hmay, hitem⟩
      · exact List.forall_mem_cons.mpr ⟨fun hb => absurd hb hmay, hpass⟩

/-- The answer is only `rejected` if no acceptance was possible before, and then the scan stops at a
rejecting item. -/
lemma firstDefinite_eq_rejected
    (h : firstDefinite may definite maybeAccept maybeReject policy = .rejected) :
    maybeAccept = false ∧ ∃ before item after, StopsAt may definite policy before item after ∧
      item.policyType = .reject := by
  induction policy generalizing maybeAccept maybeReject with
  | nil =>
    unfold firstDefinite at h
    split_ifs at h
  | cons b rest ih =>
    unfold firstDefinite at h
    split_ifs at h with hmay hdefinite haccept hreject hmaybe htype
    · have hb : b.policyType = .reject := by
        cases hpolicy : b.policyType with
        | accept => exact absurd hpolicy haccept
        | reject => rfl
      exact ⟨Bool.eq_false_of_not_eq_true hmaybe, [], b, rest, ⟨rfl, hmay, hdefinite, nofun⟩, hb⟩
    · obtain ⟨haccept, before, item, after, hstop, hitem⟩ := ih h
      exact ⟨haccept, b :: before, item, after,
        hstop.cons fun _ => ⟨hdefinite, htype.trans hitem.symm⟩, hitem⟩
    · exact absurd (ih h).1 nofun
    · obtain ⟨haccept, before, item, after, hstop, hitem⟩ := ih h
      exact ⟨haccept, b :: before, item, after, hstop.cons fun hb => absurd hb hmay, hitem⟩

/-- A scan that stops answers what the item says for sure, unless something different was possible
before. -/
lemma firstDefinite_of_stopsAt {before after : List AddrPolicy} {item : AddrPolicy}
    (h : StopsAt may definite policy before item after)
    (haccept : item.policyType = .accept → maybeReject = false)
    (hreject : item.policyType = .reject → maybeAccept = false) :
    firstDefinite may definite maybeAccept maybeReject policy = item.policyType.answer := by
  obtain ⟨rfl, hmay, hdefinite, hagree⟩ := h
  induction before generalizing maybeAccept maybeReject with
  | nil =>
    rw [List.nil_append, firstDefinite, if_pos hmay, if_pos hdefinite]
    cases htype : item.policyType with
    | accept =>
      rw [if_pos rfl, haccept htype]
      rfl
    | reject =>
      rw [if_neg nofun, hreject htype]
      rfl
  | cons b before ih =>
    obtain ⟨hb, hbefore⟩ := List.forall_mem_cons.mp hagree
    rw [List.cons_append, firstDefinite]
    by_cases hmayb : may b
    · obtain ⟨hnot, htype⟩ := hb hmayb
      rw [if_pos hmayb, if_neg hnot]
      cases hitem : item.policyType with
      | accept =>
        rw [if_neg (by rw [htype, hitem]; nofun), ← hitem]
        exact ih haccept (fun hr => absurd (hitem.symm.trans hr) nofun) hbefore
      | reject =>
        rw [if_pos (htype.trans hitem), ← hitem]
        exact ih (fun ha => absurd (hitem.symm.trans ha) nofun) hreject hbefore
    · rw [if_neg hmayb]
      exact ih haccept hreject hbefore

end Scan

/-! ### The exact rule -/

section Exact

variable {policy before after : List AddrPolicy} {item : AddrPolicy} {addr : TorAddr}
  {port : UInt16}

lemma compareKnown_cons_pos (h : item.matchesAt (addr, port)) (rest : List AddrPolicy) :
    compareKnownTorAddrToAddrPolicy addr port (item :: rest) = item.policyType.answer := by
  rw [compareKnown_eq_firstVerdict, RuleList.firstVerdict_cons_pos h]

lemma compareKnown_cons_neg (h : ¬item.matchesAt (addr, port)) (rest : List AddrPolicy) :
    compareKnownTorAddrToAddrPolicy addr port (item :: rest) =
      compareKnownTorAddrToAddrPolicy addr port rest := by
  rw [compareKnown_eq_firstVerdict, RuleList.firstVerdict_cons_neg h, compareKnown_eq_firstVerdict]

/-- Items that do not match are passed over. -/
lemma compareKnown_append_of_forall (h : ∀ b ∈ before, ¬b.matchesAt (addr, port))
    (rest : List AddrPolicy) :
    compareKnownTorAddrToAddrPolicy addr port (before ++ rest) =
      compareKnownTorAddrToAddrPolicy addr port rest := by
  induction before with
  | nil => rfl
  | cons b before ih =>
    obtain ⟨hb, hbefore⟩ := List.forall_mem_cons.mp h
    rw [List.cons_append, compareKnown_cons_neg hb, ih hbefore]

/-- If the items that match agree, and one matches, they decide. -/
lemma compareKnown_append_of_exists {action : AddrPolicyAction}
    (hagree : ∀ b ∈ before, b.matchesAt (addr, port) → b.policyType = action)
    (h : ∃ b ∈ before, b.matchesAt (addr, port)) (rest : List AddrPolicy) :
    compareKnownTorAddrToAddrPolicy addr port (before ++ rest) = action.answer := by
  induction before with
  | nil =>
    obtain ⟨b, hb, -⟩ := h
    exact absurd hb List.not_mem_nil
  | cons b before ih =>
    obtain ⟨hb, hbefore⟩ := List.forall_mem_cons.mp hagree
    by_cases hmatch : b.matchesAt (addr, port)
    · rw [List.cons_append, compareKnown_cons_pos hmatch, hb hmatch]
    · obtain ⟨b', hb', hmatch'⟩ := h
      have hmem : b' ∈ before :=
        (List.mem_cons.mp hb').resolve_left fun heq => hmatch (heq ▸ hmatch')
      rw [List.cons_append, compareKnown_cons_neg hmatch]
      exact ih hbefore ⟨b', hmem, hmatch'⟩

/-- If the items that match accept, the policy does. -/
lemma compareKnown_of_forall_accept
    (h : ∀ b ∈ policy, b.matchesAt (addr, port) → b.policyType = .accept) :
    compareKnownTorAddrToAddrPolicy addr port policy = .accepted := by
  induction policy with
  | nil => rfl
  | cons b rest ih =>
    obtain ⟨hb, hrest⟩ := List.forall_mem_cons.mp h
    by_cases hmatch : b.matchesAt (addr, port)
    · rw [compareKnown_cons_pos hmatch, hb hmatch]
      rfl
    · rw [compareKnown_cons_neg hmatch, ih hrest]

/-- Where the scan stops, the exact rule says the same if the item matches. -/
lemma StopsAt.compareKnown {may definite : AddrPolicy → Bool}
    (h : StopsAt may definite policy before item after)
    (hmay : ∀ b ∈ before, b.matchesAt (addr, port) → may b)
    (hitem : (∀ b ∈ before, ¬b.matchesAt (addr, port)) →
      compareKnownTorAddrToAddrPolicy addr port (item :: after) = item.policyType.answer) :
    compareKnownTorAddrToAddrPolicy addr port policy = item.policyType.answer := by
  rw [h.eq_append]
  by_cases hmatch : ∃ b ∈ before, b.matchesAt (addr, port)
  · exact compareKnown_append_of_exists (fun b hb hm => (h.agree b hb (hmay b hb hm)).2) hmatch _
  · have hnone : ∀ b ∈ before, ¬b.matchesAt (addr, port) :=
      fun b hb hm => hmatch ⟨b, hb, hm⟩
    rw [compareKnown_append_of_forall hnone]
    exact hitem hnone

end Exact

/-! ### Unknown ports and addresses -/

def AddrPolicy.coversPort (port : UInt16) (item : AddrPolicy) : Bool :=
  item.prtMin ≤ port ∧ port ≤ item.prtMax

/-- The scan for an unknown address stops at an item without mask bits, and the items after it treat
an address of the other family, which matches no item before it, in another way. -/
def SplitsFamilies (port : UInt16) (policy : List AddrPolicy) : Prop :=
  ∃ before item after addr,
    StopsAt (AddrPolicy.coversPort port) (fun b => b.maskbits = 0) policy before item after ∧
      addr.family ≠ item.addr.family ∧ (∀ b ∈ before, ¬b.matchesAt (addr, port)) ∧
      compareKnownTorAddrToAddrPolicy addr port after ≠ item.policyType.answer

def AddrPolicyResult.IsDefinite (answer : AddrPolicyResult) : Prop :=
  answer = .accepted ∨ answer = .rejected

def exactAnswer (addr : TorAddr) (port : UInt16) : Option (List AddrPolicy) → AddrPolicyResult
  | none => .accepted
  | some items => compareKnownTorAddrToAddrPolicy addr port items

/-- The definite answers of a policy hold: those for an unknown address at every address, and those
for an unknown port at every port. -/
structure DefiniteAnswers (policy : Option (List AddrPolicy)) : Prop where
  unknownAddr : ∀ (addr : Option TorAddr) (port : UInt16), addr.filter (!torAddrIsNull ·) = none →
    port ≠ 0 → (compareTorAddrToAddrPolicy addr port policy).IsDefinite →
    ∀ a, exactAnswer a port policy = compareTorAddrToAddrPolicy addr port policy
  unknownPort : ∀ (a : TorAddr), torAddrIsNull a = false →
    (compareTorAddrToAddrPolicy (some a) 0 policy).IsDefinite →
    ∀ port, port ≠ 0 → exactAnswer a port policy = compareTorAddrToAddrPolicy (some a) 0 policy

section Unknown

variable {policy : List AddrPolicy} {addr : TorAddr} {port : UInt16}

lemma AddrPolicy.coversPort_of_matchesAt {item : AddrPolicy} (h : item.matchesAt (addr, port)) :
    item.coversPort port :=
  decide_eq_true (AddrPolicy.matchesAt_iff.mp h).2

/-- A definite answer of a scan that may stop at every item that matches holds, if its stops do. -/
lemma compareKnown_eq_firstDefinite {may definite : AddrPolicy → Bool}
    (hmay : ∀ b : AddrPolicy, b.matchesAt (addr, port) → may b)
    (hstops : ∀ {before item after}, StopsAt may definite policy before item after →
      compareKnownTorAddrToAddrPolicy addr port policy = item.policyType.answer)
    (h : (firstDefinite may definite false false policy).IsDefinite) :
    compareKnownTorAddrToAddrPolicy addr port policy =
      firstDefinite may definite false false policy := by
  rcases h with h | h
  · rw [h]
    rcases (firstDefinite_eq_accepted h).2 with ⟨before, item, after, hstop, hitem⟩ | hpass
    · rw [hstops hstop, hitem]
      rfl
    · exact compareKnown_of_forall_accept fun b hb hm => (hpass b hb (hmay b hm)).2
  · rw [h]
    obtain ⟨-, before, item, after, hstop, hitem⟩ := firstDefinite_eq_rejected h
    rw [hstops hstop, hitem]
    rfl

/-- A definite answer for a known address holds at every port. -/
lemma compareKnown_of_noport (hport : port ≠ 0)
    (h : (compareKnownTorAddrToAddrPolicyNoport addr policy).IsDefinite) :
    compareKnownTorAddrToAddrPolicy addr port policy =
      compareKnownTorAddrToAddrPolicyNoport addr policy := by
  have hmay : ∀ b : AddrPolicy, b.matchesAt (addr, port) →
      decide (torAddrCompareMasked addr b.addr b.maskbits .exact = 0) = true :=
    fun b hb => decide_eq_true (of_decide_eq_true hb).1
  have hstops : ∀ {before item after}, StopsAt
      (fun tmpe => torAddrCompareMasked addr tmpe.addr tmpe.maskbits .exact = 0)
      (fun tmpe => tmpe.prtMin ≤ 1 ∧ tmpe.prtMax ≥ 65535) policy before item after →
      compareKnownTorAddrToAddrPolicy addr port policy = item.policyType.answer := by
    intro before item after hstop
    refine hstop.compareKnown (fun b _ hb => hmay b hb) fun _ => compareKnown_cons_pos ?_ _
    obtain ⟨hmin, hmax⟩ := of_decide_eq_true hstop.definite_item
    have hpos : 1 ≤ port := by
      rw [UInt16.le_iff_toNat_le]
      exact Nat.pos_of_ne_zero fun hzero => hport (UInt16.toNat_inj.mp hzero)
    have hlt : port ≤ 65535 := UInt16.le_iff_toNat_le.mpr (Nat.le_of_lt_succ port.toNat_lt)
    exact decide_eq_true ⟨of_decide_eq_true hstop.may_item, UInt16.le_trans hmin hpos,
      UInt16.le_trans hlt hmax⟩
  exact compareKnown_eq_firstDefinite hmay hstops h

/-- A definite answer for an unknown address holds at every address, if the items after the one at
which the scan stops do not treat the other family differently. -/
lemma compareKnown_of_unknown (hsplits : ¬SplitsFamilies port policy)
    (h : (compareUnknownTorAddrToAddrPolicy port policy).IsDefinite) (addr : TorAddr) :
    compareKnownTorAddrToAddrPolicy addr port policy =
      compareUnknownTorAddrToAddrPolicy port policy := by
  have hstops : ∀ {before item after}, StopsAt (AddrPolicy.coversPort port)
      (fun b => b.maskbits = 0) policy before item after →
      compareKnownTorAddrToAddrPolicy addr port policy = item.policyType.answer := by
    intro before item after hstop
    refine hstop.compareKnown (fun b _ hb => AddrPolicy.coversPort_of_matchesAt hb) fun hnone => ?_
    by_cases hfamily : addr.family = item.addr.family
    · apply compareKnown_cons_pos
      have hbits : item.maskbits = 0 := of_decide_eq_true hstop.definite_item
      obtain ⟨hmin, hmax⟩ := of_decide_eq_true hstop.may_item
      apply AddrPolicy.matchesAt_iff.mpr
      exact ⟨hbits ▸ TorAddr.AgreeOn.zero hfamily, hmin, hmax⟩
    · have hother : ¬item.matchesAt (addr, port) :=
        fun hm => hfamily (AddrPolicy.matchesAt_iff.mp hm).1.1
      rw [compareKnown_cons_neg hother]
      by_contra hne
      exact hsplits ⟨before, item, after, addr, hstop, hfamily, hnone, hne⟩
  exact compareKnown_eq_firstDefinite (fun b hb => AddrPolicy.coversPort_of_matchesAt hb) hstops h

/-- **When definite answers hold.**  The definite answers of a policy hold exactly if the scan for
an unknown address never stops at an item for one family while the items after it treat an address
of the other family differently.  Those for an unknown port always hold. -/
theorem definiteAnswers_iff (policy : Option (List AddrPolicy)) :
    DefiniteAnswers policy ↔ ∀ items ∈ policy, ∀ port, port ≠ 0 → ¬SplitsFamilies port items := by
  constructor
  · rintro ⟨hunknown, -⟩ items hitems port hport ⟨before, item, after, addr, hstop, hfamily,
      hnone, hne⟩
    obtain rfl := Option.mem_def.mp hitems
    have hanswer : compareTorAddrToAddrPolicy none port (some items) = item.policyType.answer := by
      have hscan : firstDefinite (AddrPolicy.coversPort port) (fun b => b.maskbits = 0) false false
          items = item.policyType.answer :=
        firstDefinite_of_stopsAt hstop (fun _ => rfl) fun _ => rfl
      show (if port = 0 then .rejected else compareUnknownTorAddrToAddrPolicy port items) = _
      rw [if_neg hport]
      exact hscan
    have hexact := hunknown none port rfl hport (by
      rw [hanswer]
      cases item.policyType with
      | accept => exact Or.inl rfl
      | reject => exact Or.inr rfl) addr
    rw [hanswer] at hexact
    apply hne
    have hother : ¬item.matchesAt (addr, port) :=
      fun hm => hfamily (AddrPolicy.matchesAt_iff.mp hm).1.1
    rw [← hexact, exactAnswer, hstop.eq_append, compareKnown_append_of_forall hnone,
      compareKnown_cons_neg hother]
  · intro hsplits
    cases policy with
    | none => exact ⟨fun _ _ _ _ _ _ => rfl, fun _ _ _ _ _ => rfl⟩
    | some items =>
      refine ⟨fun addr port haddr hport hdefinite a => ?_, fun a ha hdefinite port hport => ?_⟩
      · have hanswer : compareTorAddrToAddrPolicy addr port (some items) =
            compareUnknownTorAddrToAddrPolicy port items := by
          unfold compareTorAddrToAddrPolicy
          simp only [haddr, if_neg hport]
        rw [hanswer] at hdefinite ⊢
        exact compareKnown_of_unknown (hsplits items rfl port hport) hdefinite a
      · have hknown : (some a).filter (!torAddrIsNull ·) = some a := by
          rw [Option.filter_some, ha]
          rfl
        have hanswer : compareTorAddrToAddrPolicy (some a) 0 (some items) =
            compareKnownTorAddrToAddrPolicyNoport a items := by
          unfold compareTorAddrToAddrPolicy
          simp only [hknown, if_true]
        rw [hanswer] at hdefinite ⊢
        exact compareKnown_of_noport hport hdefinite

/-- IPv4 addresses are rejected and IPv6 addresses are accepted, but an unknown address is rejected
for sure. -/
theorem not_definiteAnswers :
    ¬DefiniteAnswers (some [⟨.reject, .ipv4 0, 0, 1, 65535, Nat.zero_le _⟩,
      ⟨.accept, .ipv6 (Vector.replicate 16 0), 0, 1, 65535, Nat.zero_le _⟩]) := by
  intro h
  have hexact := h.unknownAddr none 80 rfl (by decide) (Or.inr (by decide))
    (.ipv6 (Vector.replicate 16 1))
  exact absurd hexact (by decide)

end Unknown

end Astoria
