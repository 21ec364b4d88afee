import Astoria.TorClient.Addressmap

/-!
# Virtual addresses and their mappings

A virtual address that is recorded for an address should be mapped to it.  When the mapping of a
virtual address is removed or replaced, its record should be removed too, but the code tests the
wrong one of the two addresses for being virtual (`not_addressmap_consistent`).  As long as no step
runs into this, every record belongs to a mapping (`addressmap_consistent`).
-/

namespace Astoria

open List Option
open Function

/-- A virtual address is in an entry. -/
def VirtaddressEntry.Has (ve : VirtaddressEntry) (address : Address) : Prop :=
  ve.ipv4Address = some address ∨ ve.ipv6Address = some address ∨ ve.hostnameAddress = some address

def VirtaddressEntry.Full (ve : VirtaddressEntry) : Prop :=
  ve.ipv4Address.isSome ∧ ve.ipv6Address.isSome ∧ ve.hostnameAddress.isSome

/-- **The documented invariant.**  No entry was freed or is empty, and a recorded address is virtual
and is mapped to the address for which it is recorded. -/
structure Addressmaps.Consistent (conf : VirtualAddrConf) (s : Addressmaps) : Prop where
  live : ∀ a, s.virtaddressReversemap a ≠ some .freed
  nonempty : ∀ a ve, s.virtaddressReversemap a = some (.live ve) → ∃ b, ve.Has b
  mapped : ∀ a ve b, s.virtaddressReversemap a = some (.live ve) → ve.Has b →
    addressIsInVirtualRange conf b = true ∧
      ∃ ent, s.addressmap b = some ent ∧ ent.newAddress = some a

section Conditions

variable (conf : VirtualAddrConf)

/-- An address can be removed: if it is mapped to an address that has an entry, then either that one
is virtual, and the entry full, or the removed address is not in it. -/
def RemoveSafe (addressFreed : Bool) (s : Addressmaps) (address : Address) (ent : AddressmapEntry) :
    Prop :=
  ∀ a ve, ent.newAddress = some a → s.virtaddressReversemap a = some (.live ve) →
    if addressIsInVirtualRange conf a then addressFreed = false ∧ ve.Full else ¬ ve.Has address

/-- An address can be mapped anew: it can be removed, or it is mapped to the same address again. -/
def RegisterSafe (s : Addressmaps) (address : Address) (newAddress : Option Address) (expires : ℤ)
    (wildcardAddr wildcardNewAddr : Bool) : Prop :=
  (wildcardNewAddr = true → wildcardAddr = true) ∧
    ∀ ent, s.addressmap address = some ent →
      RemoveSafe conf false s address ent ∨
        ∃ a, newAddress = some a ∧
          ¬ (strcaseeq address a = true ∧ wildcardAddr = wildcardNewAddr) ∧
          (1 < expires ∨ ent.newAddress = some a ∧ addressIsInVirtualRange conf a = false)

/-- A virtual address can be chosen: there is one of the kind already, or one is found that is not
the address itself, or none is found and the address has no entry. -/
def RegisterVirtualSafe (s : Addressmaps) (type : ResolvedType) (newAddress : Address)
    (labels : List Address) (draws : List (VirtualDraw conf)) : Prop :=
  (∃ ve, s.virtaddressReversemap newAddress = some (.live ve) ∧ (ve.field type).isSome) ∨
    (∃ addr, addressmapGetVirtualAddress conf s.addressmap type labels draws = some (some addr) ∧
      strcaseeq addr newAddress = false) ∨
    (addressmapGetVirtualAddress conf s.addressmap type labels draws = some none ∧
      s.virtaddressReversemap newAddress = none)

/-- The addresses that should be removed can be, one after another. -/
def ClearSafe (addressFreed : Bool) (remove : Address → AddressmapEntry → Option Bool)
    (s : Addressmaps) (order : List Address) : Prop :=
  Runs.MeetsAlong (removeMatching conf addressFreed remove)
    (fun s address => ∀ ent, s.addressmap address = some ent → remove address ent = some true →
      RemoveSafe conf addressFreed s address ent) order s

/-- A call that keeps the invariant. -/
def AddressmapCall.Safe (s : Addressmaps) : AddressmapCall conf → Prop
  | .register address newAddress expires _ wildcardAddr wildcardNewAddr =>
    RegisterSafe conf s address newAddress expires wildcardAddr wildcardNewAddr
  | .registerVirtualAddress type newAddress labels draws =>
    RegisterVirtualSafe conf s type newAddress labels draws
  | .getMappings minExpires maxExpires order =>
    ClearSafe conf true (expiresBetween minExpires maxExpires) s order
  | .clearTrackexithostMappings exitname order =>
    ClearSafe conf false (clearTrackexithost exitname) s order
  | .clearExcludedTrackexithosts options order =>
    ClearSafe conf false (clearExcludedTrackexithost options) s order
  | .clearInvalidAutomaps options order =>
    ClearSafe conf false (clearInvalidAutomap conf options) s order

end Conditions

/-! ### Entries -/

section Entries

variable {ve ve' : VirtaddressEntry} {a b : Address}

/-- **A full entry loses an address.** -/
lemma VirtaddressEntry.Full.exists_without (h : ve.Full) (address : Address) :
    ∃ ve', ve.without address = some ve' ∧ ∀ b, ve'.Has b ↔ ve.Has b ∧ b ≠ address := by
  obtain ⟨f₁, f₂, f₃⟩ := ve
  obtain ⟨h₁, h₂, h₃⟩ := h
  obtain ⟨f₁, rfl⟩ := isSome_iff_exists.mp h₁
  obtain ⟨f₂, rfl⟩ := isSome_iff_exists.mp h₂
  obtain ⟨f₃, rfl⟩ := isSome_iff_exists.mp h₃
  have hfield : ∀ field b : Address, (if address = field then none else some field) = some b ↔
      field = b ∧ b ≠ address := by
    intro field b
    split_ifs with heq
    · exact iff_of_false nofun fun hb => hb.2 (hb.1.symm.trans heq.symm)
    · constructor
      · rintro hb
        obtain rfl := some.inj hb
        exact ⟨rfl, fun hne => heq hne.symm⟩
      · rintro ⟨rfl, -⟩
        rfl
  refine ⟨_, rfl, fun b => ?_⟩
  simp only [VirtaddressEntry.Has, hfield, Option.some.injEq]
  tauto

lemma VirtaddressEntry.isEmpty_eq_false_iff : ve.isEmpty = false ↔ ∃ b, ve.Has b := by
  obtain ⟨f₁, f₂, f₃⟩ := ve
  unfold VirtaddressEntry.isEmpty VirtaddressEntry.Has
  cases f₁ <;> cases f₂ <;> cases f₃ <;> simp

lemma VirtaddressEntry.has_of_field {type : ResolvedType} (h : ve.field type = some b) :
    ve.Has b := by
  cases type with
  | ipv4 => exact .inl h
  | ipv6 => exact .inr (.inl h)
  | hostname => exact .inr (.inr h)
  | other => exact .inr (.inr h)

lemma VirtaddressEntry.has_setField (ve : VirtaddressEntry) (type : ResolvedType)
    (address : Address) : (ve.setField type address).Has address := by
  cases type with
  | ipv4 => exact .inl rfl
  | ipv6 => exact .inr (.inl rfl)
  | hostname => exact .inr (.inr rfl)
  | other => exact .inr (.inr rfl)

lemma VirtaddressEntry.has_of_setField {type : ResolvedType} {address : Address}
    (h : (ve.setField type address).Has b) : b = address ∨ ve.Has b := by
  cases type with
  | ipv4 => exact h.elim (fun h => .inl (some.inj h).symm) fun h => .inr (.inr h)
  | ipv6 =>
    rcases h with h | h | h
    · exact .inr (.inl h)
    · exact .inl (some.inj h).symm
    · exact .inr (.inr (.inr h))
  | hostname =>
    rcases h with h | h | h
    · exact .inr (.inl h)
    · exact .inr (.inr (.inl h))
    · exact .inl (some.inj h).symm
  | other =>
    rcases h with h | h | h
    · exact .inr (.inl h)
    · exact .inr (.inr (.inl h))
    · exact .inl (some.inj h).symm

end Entries

/-! ### Removing and registering -/

section Steps

variable {conf : VirtualAddrConf} {s s' : Addressmaps} {address : Address} {addressFreed : Bool}
  {ent : AddressmapEntry}

/-- The documented invariant, and all addresses are resolved. -/
structure Addressmaps.Ok (conf : VirtualAddrConf) (s : Addressmaps) :
    Prop extends s.Consistent conf where
  resolved : ∀ b ent, s.addressmap b = some ent → ent.newAddress.isSome

/-- The records of one address were removed, and nothing else. -/
structure Addressmaps.Forgets (s s' : Addressmaps) (address : Address) : Prop where
  addressmap_eq : s'.addressmap = s.addressmap
  live : ∀ a, s'.virtaddressReversemap a ≠ some .freed
  nonempty : ∀ a ve, s'.virtaddressReversemap a = some (.live ve) → ∃ b, ve.Has b
  recorded : ∀ a ve b, s'.virtaddressReversemap a = some (.live ve) → ve.Has b →
    b ≠ address ∧ ∃ ve₀, s.virtaddressReversemap a = some (.live ve₀) ∧ ve₀.Has b

lemma Addressmaps.Ok.forgets_self (h : s.Ok conf)
    (hnot : ∀ a ve, s.virtaddressReversemap a = some (.live ve) → ¬ ve.Has address) :
    s.Forgets s address :=
  ⟨rfl, h.live, h.nonempty, fun a ve _ hve hb => ⟨fun heq => hnot a ve hve (heq ▸ hb), ve, hve, hb⟩⟩

lemma Addressmaps.Ok.forgets_of_none (h : s.Ok conf) (hnone : s.addressmap address = none) :
    s.Forgets s address := by
  refine h.forgets_self fun a ve hve hb => ?_
  obtain ⟨-, ent, hent, -⟩ := h.mapped a ve address hve hb
  rw [hnone] at hent
  cases hent

/-- Once the records of an address are removed, its mapping can be removed or set. -/
lemma Addressmaps.Forgets.ok (hforget : s.Forgets s' address) (h : s.Ok conf)
    {entry : Option AddressmapEntry} (hentry : ∀ ent, entry = some ent → ent.newAddress.isSome) :
    Addressmaps.Ok conf { s' with addressmap := update s'.addressmap address entry } := by
  refine ⟨⟨hforget.live, hforget.nonempty, fun a ve b hve hb => ?_⟩, fun b ent hent => ?_⟩
  · obtain ⟨hne, ve₀, hve₀, hb₀⟩ := hforget.recorded a ve b hve hb
    obtain ⟨hvirtual, ent, hent, hnew⟩ := h.mapped a ve₀ b hve₀ hb₀
    refine ⟨hvirtual, ent, ?_, hnew⟩
    dsimp only
    rw [update_of_ne hne, hforget.addressmap_eq]
    exact hent
  · dsimp only at hent
    by_cases heq : b = address
    · rw [heq, update_self] at hent
      exact hentry ent hent
    · rw [update_of_ne heq, hforget.addressmap_eq] at hent
      exact h.resolved b ent hent

/-- **The records of a mapped address are removed.** -/
lemma Addressmaps.Ok.exists_virtaddressRemove (h : s.Ok conf)
    (hent : s.addressmap address = some ent) (hsafe : RemoveSafe conf addressFreed s address ent) :
    ∃ s', addressmapVirtaddressRemove conf addressFreed s address ent = some s' ∧
      s.Forgets s' address := by
  obtain ⟨a, ha⟩ := isSome_iff_exists.mp (h.resolved address ent hent)
  -- only the entry of the address it is mapped to can record it
  have honly : ∀ a' ve, s.virtaddressReversemap a' = some (.live ve) → ve.Has address → a' = a := by
    intro a' ve hve hb
    obtain ⟨-, ent', hent', hnew⟩ := h.mapped a' ve address hve hb
    obtain rfl := some.inj (hent'.symm.trans hent)
    exact some.inj (hnew.symm.trans ha)
  unfold addressmapVirtaddressRemove
  rw [ha]
  dsimp only
  cases hvirtual : addressIsInVirtualRange conf a with
  | false =>
    refine ⟨s, rfl, h.forgets_self fun a' ve hve hb => ?_⟩
    have hnot := hsafe a ve ha (honly a' ve hve hb ▸ hve)
    rw [hvirtual] at hnot
    exact hnot hb
  | true =>
    rw [if_pos rfl]
    cases hrec : s.virtaddressReversemap a with
    | none =>
      refine ⟨s, rfl, h.forgets_self fun a' ve hve hb => ?_⟩
      rw [honly a' ve hve hb, hrec] at hve
      cases hve
    | some rec =>
      cases rec with
      | freed => exact absurd hrec (h.live a)
      | live ve =>
        have hfull := hsafe a ve ha hrec
        rw [hvirtual, if_pos rfl] at hfull
        obtain ⟨hfreed, hfull⟩ := hfull
        obtain ⟨ve', hwithout, hhas⟩ := hfull.exists_without address
        dsimp only
        rw [hfreed, hwithout]
        refine ⟨_, rfl, rfl, fun a' => ?_, fun a' ve₁ hve₁ => ?_, fun a' ve₁ b hve₁ hb => ?_⟩
        · dsimp only
          by_cases heq : a' = a
          · rw [heq, update_self]
            split_ifs <;> nofun
          · rw [update_of_ne heq]
            exact h.live a'
        · dsimp only at hve₁
          by_cases heq : a' = a
          · rw [heq, update_self] at hve₁
            split_ifs at hve₁ with hempty
            injection hve₁ with hve₁
            injection hve₁ with hve₁
            rw [← hve₁]
            exact VirtaddressEntry.isEmpty_eq_false_iff.mp (Bool.eq_false_iff.mpr hempty)
          · rw [update_of_ne heq] at hve₁
            exact h.nonempty a' ve₁ hve₁
        · dsimp only at hve₁
          by_cases heq : a' = a
          · rw [heq, update_self] at hve₁
            split_ifs at hve₁ with hempty
            injection hve₁ with hve₁
            injection hve₁ with hve₁
            rw [← hve₁] at hb
            obtain ⟨hb, hne⟩ := (hhas b).mp hb
            exact ⟨hne, ve, heq ▸ hrec, hb⟩
          · rw [update_of_ne heq] at hve₁
            exact ⟨fun hba => heq (honly a' ve₁ hve₁ (hba ▸ hb)), ve₁, hve₁, hb⟩

/-- **A mapping is removed.** -/
lemma Addressmaps.Ok.exists_entRemove (h : s.Ok conf)
    (hent : s.addressmap address = some ent) (hsafe : RemoveSafe conf addressFreed s address ent) :
    ∃ s', addressmapEntRemove conf addressFreed s address ent = some s' ∧ s'.Ok conf := by
  obtain ⟨s', hs', hforget⟩ := h.exists_virtaddressRemove hent hsafe
  unfold addressmapEntRemove
  rw [hs']
  exact ⟨_, rfl, hforget.ok h nofun⟩

/-- An address keeps its target, and only the other data of its mapping change. -/
lemma Addressmaps.Ok.setSame (h : s.Ok conf) {ent' : AddressmapEntry}
    (hent : s.addressmap address = some ent) (hnew : ent'.newAddress = ent.newAddress) :
    Addressmaps.Ok conf { s with addressmap := update s.addressmap address (some ent') } := by
  refine ⟨⟨h.live, h.nonempty, fun a ve b hve hb => ?_⟩, fun b ent₁ hent₁ => ?_⟩
  · obtain ⟨hvirtual, ent₀, hent₀, hnew₀⟩ := h.mapped a ve b hve hb
    refine ⟨hvirtual, ?_⟩
    dsimp only
    by_cases heq : b = address
    · rw [heq, update_self]
      rw [heq, hent] at hent₀
      obtain rfl := some.inj hent₀
      exact ⟨ent', rfl, hnew.trans hnew₀⟩
    · rw [update_of_ne heq]
      exact ⟨ent₀, hent₀, hnew₀⟩
  · dsimp only at hent₁
    by_cases heq : b = address
    · rw [heq, update_self] at hent₁
      obtain rfl := some.inj hent₁
      rw [hnew]
      exact h.resolved address ent hent
    · rw [update_of_ne heq] at hent₁
      exact h.resolved b ent₁ hent₁

/-- **A request to rewrite an address is registered.** -/
lemma Addressmaps.Ok.exists_register (h : s.Ok conf) {newAddress : Option Address} {expires : ℤ}
    (source : AddressmapEntrySource) {wildcardAddr wildcardNewAddr : Bool}
    (hsafe : RegisterSafe conf s address newAddress expires wildcardAddr wildcardNewAddr) :
    ∃ s', addressmapRegister conf s address newAddress expires source wildcardAddr wildcardNewAddr =
      some s' ∧ s'.Ok conf := by
  obtain ⟨hwild, hsafe⟩ := hsafe
  have hassert : (wildcardNewAddr && !wildcardAddr) = false := by
    cases wildcardNewAddr with
    | false => rfl
    | true => rw [hwild rfl]; rfl
  unfold addressmapRegister
  rw [hassert, if_neg Bool.false_ne_true]
  dsimp only
  cases newAddress with
  | none =>
    cases hent : s.addressmap address with
    | none => exact ⟨s, rfl, h⟩
    | some ent => exact h.exists_entRemove hent ((hsafe ent hent).resolve_right nofun)
  | some newAddress =>
    dsimp only
    by_cases hsame : strcaseeq address newAddress = true ∧ wildcardAddr = wildcardNewAddr
    · rw [if_pos (by rw [hsame.1, hsame.2]; simp)]
      -- the mapping is removed: it is not the new one
      cases hent : s.addressmap address with
      | none => exact ⟨s, rfl, h⟩
      | some ent =>
        refine h.exists_entRemove hent ((hsafe ent hent).resolve_right ?_)
        rintro ⟨a, ha, hne, -⟩
        obtain rfl := some.inj ha
        exact hne hsame
    · rw [if_neg (by rw [Bool.and_eq_true, beq_iff_eq]; exact hsame)]
      cases hent : s.addressmap address with
      | none =>
        refine ⟨_, rfl, (h.forgets_of_none hent).ok h fun ent hset => ?_⟩
        rw [← some.inj hset]
        rfl
      | some ent =>
        obtain ⟨old, hold⟩ := isSome_iff_exists.mp (h.resolved address ent hent)
        dsimp only
        rw [hold]
        dsimp only
        by_cases hexpires : 1 < expires
        · rw [if_pos hexpires]
          exact ⟨s, rfl, h⟩
        · have htwo : decide (expires ≠ 2) = true := decide_eq_true (by omega)
          rw [if_neg hexpires, htwo, Bool.and_true]
          rcases hsafe ent hent with hsafe | ⟨a, ha, -, hkeep⟩
          · obtain ⟨s', hs', hforget⟩ := h.exists_virtaddressRemove hent hsafe
            cases hvirtual : addressIsInVirtualRange conf old with
            | true =>
              rw [if_pos rfl, hs']
              refine ⟨_, rfl, hforget.ok h fun ent hset => ?_⟩
              rw [← some.inj hset]
              rfl
            | false =>
              unfold addressmapVirtaddressRemove at hs'
              rw [hold] at hs'
              dsimp only at hs'
              rw [hvirtual] at hs'
              obtain rfl := some.inj hs'
              refine ⟨_, rfl, hforget.ok h fun ent hset => ?_⟩
              rw [← some.inj hset]
              rfl
          · obtain rfl := some.inj ha
            obtain ⟨hnew, hnotvirtual⟩ := hkeep.resolve_left hexpires
            obtain rfl := some.inj (hold.symm.trans hnew)
            rw [hnotvirtual]
            exact ⟨_, rfl, h.setSame hent hold.symm⟩

lemma addressmapGetVirtualAddress_spec {addressmap : Address → Option AddressmapEntry}
    {type : ResolvedType} {labels : List Address} {draws : List (VirtualDraw conf)} {addr : Address}
    (hget : addressmapGetVirtualAddress conf addressmap type labels draws = some (some addr)) :
    addressmap addr = none ∧ addressIsInVirtualRange conf addr = true := by
  have hdraw : ∀ d : VirtualDraw conf, addressIsInVirtualRange conf d.text = true := by
    intro d
    unfold addressIsInVirtualRange
    rw [d.inNetwork, Bool.or_true]
  unfold addressmapGetVirtualAddress at hget
  cases type with
  | hostname =>
    obtain ⟨addr', hfind, heq⟩ := map_eq_some_iff.mp hget
    obtain rfl := some.inj heq
    have hnone := find?_some hfind
    obtain ⟨label, -, rfl⟩ := List.mem_map.mp (mem_of_find?_eq_some hfind)
    refine ⟨isNone_iff_eq_none.mp hnone, ?_⟩
    have hend : strcaseendeq (label ++ virtualSuffix) virtualSuffix = true := by
      unfold strcaseendeq strendeq
      rw [map_append, isSuffixOf_iff_suffix]
      exact suffix_append _ _
    unfold addressIsInVirtualRange
    rw [hend, Bool.true_or]
  | ipv4 =>
    obtain ⟨d, hfind, rfl⟩ := map_eq_some_iff.mp (some.inj hget)
    have hsome := find?_some hfind
    simp only [Bool.and_eq_true, isNone_iff_eq_none] at hsome
    exact ⟨hsome.1.2, hdraw d⟩
  | ipv6 =>
    obtain ⟨d, hfind, rfl⟩ := map_eq_some_iff.mp (some.inj hget)
    have hsome := find?_some hfind
    simp only [Bool.and_eq_true, isNone_iff_eq_none] at hsome
    exact ⟨hsome.1, hdraw d⟩
  | other => cases hget

/-- **A new virtual address is recorded and mapped.** -/
lemma Addressmaps.Ok.exists_record (h : s.Ok conf) {newAddress addr : Address}
    {ve : VirtaddressEntry} (hfresh : s.addressmap addr = none)
    (hvirtual : addressIsInVirtualRange conf addr = true) (hne : strcaseeq addr newAddress = false)
    (hhas : ve.Has addr) (hold : ∀ b, ve.Has b → b = addr ∨
      ∃ ve₀, s.virtaddressReversemap newAddress = some (.live ve₀) ∧ ve₀.Has b) :
    ∃ s', addressmapRegister conf { s with
        virtaddressReversemap := update s.virtaddressReversemap newAddress (some (.live ve)) }
      addr (some newAddress) 2 .automap false false = some s' ∧ s'.Ok conf := by
  have hset : ∀ e, update s.addressmap addr (some e) addr = some e := fun e =>
    update_self _ _ _
  unfold addressmapRegister
  rw [if_neg (by decide)]
  dsimp only
  rw [hne, if_neg (by decide), hfresh]
  refine ⟨_, rfl, ⟨fun a => ?_, fun a ve₁ hve₁ => ?_, fun a ve₁ b hve₁ hb => ?_⟩,
    fun b ent hent => ?_⟩
  · dsimp only
    by_cases heq : a = newAddress
    · rw [heq, update_self]
      nofun
    · rw [update_of_ne heq]
      exact h.live a
  · dsimp only at hve₁
    by_cases heq : a = newAddress
    · rw [heq, update_self] at hve₁
      injection hve₁ with hve₁
      injection hve₁ with hve₁
      exact ⟨addr, hve₁ ▸ hhas⟩
    · rw [update_of_ne heq] at hve₁
      exact h.nonempty a ve₁ hve₁
  · dsimp only at hve₁ ⊢
    -- a record that was there before
    have hbefore : ∀ ve₀, s.virtaddressReversemap a = some (.live ve₀) → ve₀.Has b →
        addressIsInVirtualRange conf b = true ∧ ∃ ent, update s.addressmap addr
          (some ⟨some newAddress, if (2 : ℤ) = 2 then 1 else 2, .automap, false, false, 0⟩) b =
            some ent ∧ ent.newAddress = some a := by
      intro ve₀ hve₀ hb₀
      obtain ⟨hv, ent, hent, hnew⟩ := h.mapped a ve₀ b hve₀ hb₀
      have hba : b ≠ addr := fun heq => by
        rw [heq, hfresh] at hent
        cases hent
      rw [update_of_ne hba]
      exact ⟨hv, ent, hent, hnew⟩
    by_cases heq : a = newAddress
    · rw [heq, update_self] at hve₁
      injection hve₁ with hve₁
      injection hve₁ with hve₁
      rcases hold b (hve₁ ▸ hb) with rfl | ⟨ve₀, hve₀, hb₀⟩
      · exact ⟨hvirtual, _, hset _, by rw [heq]⟩
      · exact hbefore ve₀ (heq ▸ hve₀) hb₀
    · rw [update_of_ne heq] at hve₁
      exact hbefore ve₁ hve₁ hb
  · dsimp only at hent
    by_cases heq : b = addr
    · rw [heq, update_self] at hent
      rw [← some.inj hent]
      rfl
    · rw [update_of_ne heq] at hent
      exact h.resolved b ent hent

/-- **A virtual address is chosen for an address.** -/
lemma Addressmaps.Ok.exists_registerVirtual (h : s.Ok conf) {type : ResolvedType}
    {newAddress : Address} {labels : List Address} {draws : List (VirtualDraw conf)}
    (hsafe : RegisterVirtualSafe conf s type newAddress labels draws) :
    ∃ s', (addressmapRegisterVirtualAddress conf s type newAddress labels draws).map (·.1) =
      some s' ∧
      s'.Ok conf := by
  unfold addressmapRegisterVirtualAddress
  cases hrec : s.virtaddressReversemap newAddress with
  | none =>
    rcases hsafe with ⟨ve, hve, -⟩ | ⟨addr, hget, hne⟩ | ⟨hget, -⟩
    · rw [hrec] at hve
      cases hve
    · obtain ⟨hfresh, hvirtual⟩ := addressmapGetVirtualAddress_spec hget
      obtain ⟨s', hs', hok⟩ := h.exists_record hfresh hvirtual hne
        (VirtaddressEntry.has_setField ⟨none, none, none⟩ type addr) fun b hb =>
          (VirtaddressEntry.has_of_setField hb).imp_right fun hb => by
            rcases hb with hb | hb | hb <;> cases hb
      refine ⟨s', ?_, hok⟩
      simp only [hget, hs', bind_eq_bind, bind_some, map_some]
    · refine ⟨s, ?_, h⟩
      simp only [hget, bind_eq_bind, bind_some, map_some]
  | some rec =>
    cases rec with
    | freed => exact absurd hrec (h.live newAddress)
    | live ve =>
      dsimp only
      cases hfield : ve.field type with
      | some b =>
        obtain ⟨-, ent, hent, hnew⟩ :=
          h.mapped newAddress ve b hrec (VirtaddressEntry.has_of_field hfield)
        have hmapped : fieldIsMapped s newAddress (some b) = true := by
          unfold fieldIsMapped
          dsimp only
          rw [hent]
          dsimp only
          rw [hnew, any_some]
          exact beq_self_eq_true _
        rw [hmapped, if_pos rfl]
        exact ⟨s, rfl, h⟩
      | none =>
        rw [show fieldIsMapped s newAddress none = false from rfl, if_neg Bool.false_ne_true]
        rcases hsafe with ⟨ve', hve', hsome⟩ | ⟨addr, hget, hne⟩ | ⟨-, hnone⟩
        · rw [hrec] at hve'
          injection hve' with hve'
          injection hve' with hve'
          rw [← hve', hfield] at hsome
          cases hsome
        · obtain ⟨hfresh, hvirtual⟩ := addressmapGetVirtualAddress_spec hget
          obtain ⟨s', hs', hok⟩ := h.exists_record hfresh hvirtual hne
            (ve.has_setField type addr) fun b hb =>
              (VirtaddressEntry.has_of_setField hb).imp_right fun hb => ⟨ve, hrec, hb⟩
          refine ⟨s', ?_, hok⟩
          simp only [hget, hs', bind_eq_bind, bind_some, map_some]
        · rw [hrec] at hnone
          cases hnone

/-- **The mappings that should be removed are.** -/
lemma Addressmaps.Ok.exists_clear (h : s.Ok conf) {remove : Address → AddressmapEntry → Option Bool}
    (hremove : ∀ address ent, ent.newAddress.isSome → (remove address ent).isSome)
    {order : List Address} (hsafe : ClearSafe conf addressFreed remove s order) :
    ∃ s', order.foldlM (removeMatching conf addressFreed remove) s = some s' ∧ s'.Ok conf := by
  refine Runs.MeetsAlong.exists_foldlM (P := Addressmaps.Ok conf)
    (fun s address h hsafe => ?_) h hsafe
  unfold removeMatching
  cases hent : s.addressmap address with
  | none => exact ⟨s, rfl, h⟩
  | some ent =>
    obtain ⟨b, hb⟩ := isSome_iff_exists.mp (hremove address ent (h.resolved address ent hent))
    dsimp only
    rw [hb]
    cases b with
    | false => exact ⟨s, rfl, h⟩
    | true => exact h.exists_entRemove hent (hsafe ent hent hb)

lemma isSome_clearTrackexithost (exitname address : Address)
    (h : ent.newAddress.isSome) : (clearTrackexithost exitname address ent).isSome := by
  obtain ⟨a, ha⟩ := isSome_iff_exists.mp h
  unfold clearTrackexithost
  rw [ha]
  split_ifs <;> rfl

lemma isSome_clearExcludedTrackexithost (options : TrackexitOptions) (address : Address)
    (ent : AddressmapEntry) : (clearExcludedTrackexithost options address ent).isSome := by
  unfold clearExcludedTrackexithost
  cases ent.newAddress with
  | none => rfl
  | some target =>
    dsimp only
    split_ifs <;> rfl

lemma isSome_clearInvalidAutomap (options : AutomapOptions) (address : Address)
    (h : ent.newAddress.isSome) : (clearInvalidAutomap conf options address ent).isSome := by
  obtain ⟨a, ha⟩ := isSome_iff_exists.mp h
  unfold clearInvalidAutomap
  rw [ha]
  split_ifs <;> rfl

/-- **One call** that is safe. -/
lemma Addressmaps.Ok.exists_call (h : s.Ok conf) {call : AddressmapCall conf}
    (hsafe : AddressmapCall.Safe conf s call) :
    ∃ s', addressmapCall conf s call = some s' ∧ s'.Ok conf := by
  cases call with
  | register address newAddress expires source wildcardAddr wildcardNewAddr =>
    exact h.exists_register source hsafe
  | registerVirtualAddress type newAddress labels draws => exact h.exists_registerVirtual hsafe
  | getMappings minExpires maxExpires order => exact h.exists_clear (fun _ _ _ => rfl) hsafe
  | clearTrackexithostMappings exitname order =>
    exact h.exists_clear (fun address _ hres => isSome_clearTrackexithost exitname address hres)
      hsafe
  | clearExcludedTrackexithosts options order =>
    exact h.exists_clear
      (fun address ent _ => isSome_clearExcludedTrackexithost options address ent) hsafe
  | clearInvalidAutomaps options order =>
    exact h.exists_clear (fun address _ hres => isSome_clearInvalidAutomap options address hres)
      hsafe

lemma ok_addressmapInit : addressmapInit.Ok conf := ⟨⟨nofun, nofun, nofun⟩, nofun⟩

end Steps

/-- **Every record belongs to a mapping.**  In a run whose calls are safe, nothing absent or freed
is read, and the documented invariant holds in the end. -/
theorem addressmap_consistent (conf : VirtualAddrConf) (calls : List (AddressmapCall conf))
    (hcalls : Runs.MeetsAlong (addressmapCall conf) (AddressmapCall.Safe conf) calls
      addressmapInit) :
    ∃ s, calls.foldlM (addressmapCall conf) addressmapInit = some s ∧ s.Consistent conf := by
  obtain ⟨s, hs, hok⟩ := hcalls.exists_foldlM (P := Addressmaps.Ok conf)
    (fun s call h hsafe => h.exists_call hsafe) ok_addressmapInit
  exact ⟨s, hs, hok.toConsistent⟩

def noVirtualNetworks : VirtualAddrConf := ⟨fun _ => false⟩

def exampleLabel : Address := "mfrggzdfmztwq2lk".toList

/-- A host name is mapped, a virtual one is chosen for an address, and the first mapping is
removed. -/
theorem addressmap_consistent_hostname :
    ∃ s, [AddressmapCall.register ['b'] (some ['c']) 1 .controller false false,
        .registerVirtualAddress .hostname ['a'] [exampleLabel] [],
        .register ['b'] (some ['b']) 1 .controller false false].foldlM
          (addressmapCall noVirtualNetworks) addressmapInit = some s ∧
      s.Consistent noVirtualNetworks := by
  refine addressmap_consistent noVirtualNetworks _ ⟨⟨nofun, nofun⟩, fun s₁ hs₁ => ?_⟩
  obtain rfl := Option.some.inj hs₁
  refine ⟨.inr (.inl ⟨exampleLabel ++ virtualSuffix, by decide, by decide⟩), fun s₂ hs₂ => ?_⟩
  obtain rfl := Option.some.inj hs₂
  refine ⟨⟨nofun, fun ent hent => .inl fun a ve ha hve => ?_⟩, fun _ _ => trivial⟩
  obtain rfl := Option.some.inj hent
  obtain rfl := Option.some.inj ha
  exact nomatch (show none = some (VirtaddressRecord.live ve) from hve)

/-- **A record can be left behind.**  A virtual host name is chosen for an address, and then its
mapping is removed: the record is still there. -/
theorem not_addressmap_consistent :
    ∃ s, [AddressmapCall.registerVirtualAddress .hostname ['a'] [exampleLabel] [],
        .register (exampleLabel ++ virtualSuffix) (some (exampleLabel ++ virtualSuffix)) 1
          .controller false false].foldlM
            (addressmapCall noVirtualNetworks) addressmapInit = some s ∧
      ¬ s.Consistent noVirtualNetworks := by
  refine ⟨_, rfl, fun h => ?_⟩
  obtain ⟨-, ent, hent, -⟩ := h.mapped ['a'] ⟨none, none, some (exampleLabel ++ virtualSuffix)⟩
    (exampleLabel ++ virtualSuffix) rfl (.inr (.inr rfl))
  exact nomatch hent.symm.trans rfl

end Astoria
