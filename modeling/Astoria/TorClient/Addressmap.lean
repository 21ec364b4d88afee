import Mathlib
import Astoria.Library.Runs

/-!
# Rewriting addresses

The table of address rewrites of a client, and the table of the virtual addresses that were handed
out for an address.  An entry of the second table holds up to three virtual addresses, one of each
kind, and is looked up by the address they stand for; it is maintained when the rewrite of a virtual
address is removed or replaced.

An address is a list of characters.  A step that reads an absent or a freed string, or whose
assertion fails, yields `none`.  Random addresses and the order of a hash table are given with a
call.
-/

namespace Astoria

open Function

/-- The text of an address. -/
abbrev Address := List Char

/-- Whether two addresses differ in letter case only (`strcasecmp`). -/
def strcaseeq (s1 s2 : Address) : Bool := s1.map Char.toLower == s2.map Char.toLower

/-- Whether an address ends with a suffix (`strcmpend`). -/
def strendeq (s suffix : Address) : Bool := suffix.isSuffixOf s

/-- Whether an address ends with a suffix, up to letter case (`strcasecmpend`). -/
def strcaseendeq (s suffix : Address) : Bool :=
  strendeq (s.map Char.toLower) (suffix.map Char.toLower)

/-- Where a rewrite comes from. -/
inductive AddressmapEntrySource
  | controller | automap | torrc | trackexit | dns | none
  deriving DecidableEq

/-- The rewrite of an address.  While the address is being resolved there is no new one. -/
structure AddressmapEntry where
  newAddress : Option Address
  expires : ℤ
  source : AddressmapEntrySource
  srcWildcard : Bool
  dstWildcard : Bool
  numResolveFailures : ℕ

/-- The virtual addresses that stand for an address. -/
structure VirtaddressEntry where
  ipv4Address : Option Address
  ipv6Address : Option Address
  hostnameAddress : Option Address

/-- What the table of virtual addresses points to. -/
inductive VirtaddressRecord
  /-- An entry in memory. -/
  | live (ve : VirtaddressEntry)
  /-- An entry that was freed. -/
  | freed

/-- The two tables. -/
structure Addressmaps where
  addressmap : Address → Option AddressmapEntry
  virtaddressReversemap : Address → Option VirtaddressRecord

/-- Two empty tables (`addressmap_init`). -/
def addressmapInit : Addressmaps := ⟨fun _ => none, fun _ => none⟩

/-- The configured virtual networks: which texts are addresses in them. -/
structure VirtualAddrConf where
  inNetwork : Address → Bool

/-- The ending of virtual host names. -/
def virtualSuffix : Address := ['.', 'v', 'i', 'r', 't', 'u', 'a', 'l']

section Conf

variable (conf : VirtualAddrConf)

def addressIsInVirtualRange (address : Address) : Bool :=
  strcaseendeq address virtualSuffix || conf.inNetwork address

/-! ### Removing a virtual address -/

/-- Free a field of an entry if it is the address.  It must not be absent. -/
def freeIfEqual (address : Address) : Option Address → Option (Option Address)
  | none => none
  | some field => some (if address = field then none else some field)

/-- The fields of an entry that are the address are freed. -/
def VirtaddressEntry.without (address : Address) (ve : VirtaddressEntry) :
    Option VirtaddressEntry := do
  let ipv4Address ← freeIfEqual address ve.ipv4Address
  let ipv6Address ← freeIfEqual address ve.ipv6Address
  let hostnameAddress ← freeIfEqual address ve.hostnameAddress
  some ⟨ipv4Address, ipv6Address, hostnameAddress⟩

/-- Whether all fields of an entry are absent. -/
def VirtaddressEntry.isEmpty (ve : VirtaddressEntry) : Bool :=
  ve.ipv4Address.isNone && ve.ipv6Address.isNone && ve.hostnameAddress.isNone

/-- Remove an address, which maps to an entry, from the table of virtual addresses.  The address may
have been freed. -/
def addressmapVirtaddressRemove (addressFreed : Bool) (s : Addressmaps) (address : Address)
    (ent : AddressmapEntry) : Option Addressmaps :=
  match ent.newAddress with
  | none => some s
  | some newAddress =>
    if addressIsInVirtualRange conf newAddress then
      match s.virtaddressReversemap newAddress with
      | none => some s
      | some .freed => none
      | some (.live ve) =>
        if addressFreed then none
        else (ve.without address).map fun ve =>
          { s with
            virtaddressReversemap := update s.virtaddressReversemap newAddress
              (if ve.isEmpty then none else some (.live ve)) }
    else some s

/-- The rewrite of an address is removed from the tables (`addressmap_ent_remove`, with the removal
from the table of rewrites that goes with it). -/
def addressmapEntRemove (addressFreed : Bool) (s : Addressmaps) (address : Address)
    (ent : AddressmapEntry) : Option Addressmaps :=
  (addressmapVirtaddressRemove conf addressFreed s address ent).map fun s =>
    { s with addressmap := update s.addressmap address none }

/-! ### Registering -/

/-- Register a request to rewrite an address. -/
def addressmapRegister (s : Addressmaps) (address : Address) (newAddress : Option Address)
    (expires : ℤ) (source : AddressmapEntrySource) (wildcardAddr wildcardNewAddr : Bool) :
    Option Addressmaps :=
  if wildcardNewAddr && !wildcardAddr then none
  else
    let set (s : Addressmaps) (newAddress : Address) : Addressmaps :=
      { s with
        addressmap := update s.addressmap address (some
          ⟨some newAddress, if expires = 2 then 1 else expires, source, wildcardAddr,
            wildcardNewAddr,
            0⟩) }
    let remove : Option Addressmaps :=
      match s.addressmap address with
      | none => some s
      | some ent => addressmapEntRemove conf false s address ent
    match newAddress with
    | none => remove
    | some newAddress =>
      if strcaseeq address newAddress && (wildcardAddr == wildcardNewAddr) then remove
      else
        match s.addressmap address with
        | none => some (set s newAddress)
        | some ent =>
          match ent.newAddress with
          | none => some (set s newAddress)
          | some old =>
            if 1 < expires then some s
            else if addressIsInVirtualRange conf old && decide (expires ≠ 2) then
              (addressmapVirtaddressRemove conf false s address ent).map fun s => set s newAddress
            else some (set s newAddress)

/-- A kind of virtual address. -/
inductive ResolvedType
  | ipv4 | ipv6 | hostname | other
  deriving DecidableEq

/-- A random address of a virtual network, written with brackets if it is an IPv6 one and without
them. That it is in the network is asserted where it is drawn. -/
structure VirtualDraw where
  text : Address
  plain : Address
  /-- The last byte is 0 or 255. -/
  edge : Bool
  inNetwork : conf.inNetwork text = true

/-- A virtual address that is not mapped yet.  There is none yet as long as only mapped host names
have been drawn, and it is absent if no address was found in a thousand attempts. -/
def addressmapGetVirtualAddress (addressmap : Address → Option AddressmapEntry)
    (type : ResolvedType) (labels : List Address) (draws : List (VirtualDraw conf)) :
    Option (Option Address) :=
  match type with
  | .hostname =>
    ((labels.map (· ++ virtualSuffix)).find? fun buf => (addressmap buf).isNone).map some
  | .ipv4 =>
    some (((draws.take 1000).find? fun addr =>
      !addr.edge && (addressmap addr.text).isNone && (addressmap addr.plain).isNone).map (·.text))
  | .ipv6 =>
    some (((draws.take 1000).find? fun addr =>
      (addressmap addr.text).isNone && (addressmap addr.plain).isNone).map (·.text))
  | .other => some none

/-- The field of an entry for a kind of virtual address. -/
def VirtaddressEntry.field (ve : VirtaddressEntry) : ResolvedType → Option Address
  | .ipv4 => ve.ipv4Address
  | .ipv6 => ve.ipv6Address
  | .hostname => ve.hostnameAddress
  | .other => ve.hostnameAddress

/-- Set the field for a kind of virtual address. -/
def VirtaddressEntry.setField (ve : VirtaddressEntry) (type : ResolvedType) (address : Address) :
    VirtaddressEntry :=
  match type with
  | .ipv4 => { ve with ipv4Address := some address }
  | .ipv6 => { ve with ipv6Address := some address }
  | .hostname => { ve with hostnameAddress := some address }
  | .other => { ve with hostnameAddress := some address }

/-- Whether a field is mapped to the address it stands for. -/
def fieldIsMapped (s : Addressmaps) (newAddress : Address) : Option Address → Bool
  | none => false
  | some addr =>
    match s.addressmap addr with
    | none => false
    | some ent => ent.newAddress.any (strcaseeq newAddress)

/-- Choose a virtual address and map it to an address.  If one of the same kind is mapped to it
already, that one is returned. -/
def addressmapRegisterVirtualAddress (s : Addressmaps) (type : ResolvedType) (newAddress : Address)
    (labels : List Address) (draws : List (VirtualDraw conf)) :
    Option (Addressmaps × Option Address) :=
  match s.virtaddressReversemap newAddress with
  | some .freed => none
  | some (.live vent) =>
    if fieldIsMapped s newAddress (vent.field type) then some (s, vent.field type)
    else do
      match ← addressmapGetVirtualAddress conf s.addressmap type labels draws with
      | none =>
        -- the entry is freed, but the table still points to it
        some ({ s with
          virtaddressReversemap := update s.virtaddressReversemap newAddress (some .freed) },
          none)
      | some addr =>
        let s := { s with
          virtaddressReversemap := update s.virtaddressReversemap newAddress
            (some (.live (vent.setField type addr))) }
        let s ← addressmapRegister conf s addr (some newAddress) 2 .automap false false
        some (s, some addr)
  | none => do
    match ← addressmapGetVirtualAddress conf s.addressmap type labels draws with
    | none => some (s, none)
    | some addr =>
      let s := { s with
        virtaddressReversemap := update s.virtaddressReversemap newAddress
          (some (.live ((⟨none, none, none⟩ : VirtaddressEntry).setField type addr))) }
      let s ← addressmapRegister conf s addr (some newAddress) 2 .automap false false
      some (s, some addr)

/-! ### Clearing -/

/-- The rewrite of one address is removed if it should be. -/
def removeMatching (addressFreed : Bool) (remove : Address → AddressmapEntry → Option Bool)
    (s : Addressmaps) (address : Address) : Option Addressmaps :=
  match s.addressmap address with
  | none => some s
  | some ent => do
    if ← remove address ent then addressmapEntRemove conf addressFreed s address ent else some s

/-- Which rewrites `clear_trackexithost_mappings` removes: the tracked ones to a given exit. -/
def clearTrackexithost (exitname : Address) (_ : Address) (ent : AddressmapEntry) : Option Bool :=
  if ent.source = .trackexit then
    ent.newAddress.map fun newAddress =>
      strendeq newAddress (('.' :: exitname ++ ['.', 'e', 'x', 'i', 't']).map Char.toLower)
  else some false

structure TrackexitOptions where
  /-- There is a set of allowed or of excluded exits. -/
  restricted : Bool
  /-- The node of a name is unknown or not allowed. -/
  unwanted : Address → Bool
  hostnameInTrackHostExits : Address → Bool

/-- Which rewrites `addressmap_clear_excluded_trackexithosts` removes: the tracked ones to an exit
that is unknown or not allowed any more, or from a host that is not tracked any more. -/
def clearExcludedTrackexithost (options : TrackexitOptions) (address : Address)
    (ent : AddressmapEntry) :
    Option Bool :=
  match ent.newAddress with
  | none => some false
  | some target =>
    if !options.restricted || !strendeq target ['.', 'e', 'x', 'i', 't'] ||
        ent.source ≠ .trackexit || target.length < 6 then
      some false
    else
      let nodename := ((target.take (target.length - 5)).reverse.takeWhile (· ≠ '.')).reverse
      some (options.unwanted nodename || !options.hostnameInTrackHostExits address)

/-- The options on automatic mappings. -/
structure AutomapOptions where
  automapHostsOnResolve : Bool
  automapHostsSuffixes : Option (List Address)

/-- Whether an address is one that should be mapped automatically. -/
def addressmapAddressShouldAutomap (address : Address) (options : AutomapOptions) : Bool :=
  match options.automapHostsSuffixes with
  | none => false
  | some suffixList => suffixList.any fun suffix => suffix == ['.'] || strcaseendeq address suffix

/-- Which rewrites `addressmap_clear_invalid_automaps` removes: the automatic ones that are not
allowed any more. -/
def clearInvalidAutomap (options : AutomapOptions) (srcAddress : Address) (ent : AddressmapEntry) :
    Option Bool :=
  if ent.source ≠ .automap then some false
  else if !options.automapHostsOnResolve || options.automapHostsSuffixes.isNone then some true
  else if !addressmapAddressShouldAutomap srcAddress options then some true
  else ent.newAddress.map fun newAddress => !addressIsInVirtualRange conf newAddress

/-- Which rewrites `addressmap_get_mappings` removes: those that expire in an interval. -/
def expiresBetween (minExpires maxExpires : ℤ) (_ : Address) (ent : AddressmapEntry) :
    Option Bool :=
  some (decide (minExpires ≤ ent.expires ∧ ent.expires ≤ maxExpires))

def timeMax : ℤ := 2 ^ 63 - 1

/-- A call that changes the tables.  A call that goes through the table of rewrites is given the
order in which it meets the addresses. -/
inductive AddressmapCall (conf : VirtualAddrConf)
  | register (address : Address) (newAddress : Option Address) (expires : ℤ)
      (source : AddressmapEntrySource) (wildcardAddr wildcardNewAddr : Bool)
  | registerVirtualAddress (type : ResolvedType) (newAddress : Address) (labels : List Address)
      (draws : List (VirtualDraw conf))
  | getMappings (minExpires maxExpires : ℤ) (order : List Address)
  | clearTrackexithostMappings (exitname : Address) (order : List Address)
  | clearExcludedTrackexithosts (options : TrackexitOptions) (order : List Address)
  | clearInvalidAutomaps (options : AutomapOptions) (order : List Address)

def addressmapCall (s : Addressmaps) : AddressmapCall conf → Option Addressmaps
  | .register address newAddress expires source wildcardAddr wildcardNewAddr =>
    addressmapRegister conf s address newAddress expires source wildcardAddr wildcardNewAddr
  | .registerVirtualAddress type newAddress labels draws =>
    (addressmapRegisterVirtualAddress conf s type newAddress labels draws).map (·.1)
  -- the key of an entry is freed before the entry is removed
  | .getMappings minExpires maxExpires order =>
    order.foldlM (removeMatching conf true (expiresBetween minExpires maxExpires)) s
  | .clearTrackexithostMappings exitname order =>
    order.foldlM (removeMatching conf false (clearTrackexithost exitname)) s
  | .clearExcludedTrackexithosts options order =>
    order.foldlM (removeMatching conf false (clearExcludedTrackexithost options)) s
  | .clearInvalidAutomaps options order =>
    order.foldlM (removeMatching conf false (clearInvalidAutomap conf options)) s

end Conf

end Astoria
