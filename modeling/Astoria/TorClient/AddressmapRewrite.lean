import Astoria.TorClient.Addressmap

/-!
# Following the rewrites of an address

`addressmapRewrite` rewrites an address up to sixteen times.  A round takes the rule for the address
itself or, if there is none, the first one for a domain above it.

A rule such as `*.c.d *.e.f` takes the domain off the address before the flags are asked.  So an
address is cut short where a round finds such a rule and does not use it (`CutShort`).
-/

namespace Astoria.AddressmapRewrite

open Option

inductive AddressFamily
  | inet | inet6

/-- Which rules a rewriting uses (`AMR_FLAG_USE_*`). -/
structure AmrFlags where
  useIpv4Dns : Bool
  useIpv6Dns : Bool
  useMapaddress : Bool
  useAutomap : Bool
  useTrackexit : Bool

/-- What a rewriting reads.  `torAddrParse` is the family of a text that is the address of a
host. -/
structure Rewriting where
  addressmap : Address → Option AddressmapEntry
  torAddrParse : Address → Option AddressFamily
  flags : AmrFlags
  maxlen : ℕ

def strlcpy (dst src : Address) (siz : ℕ) : Address := if siz = 0 then dst else src.take (siz - 1)

def strlcat (dst src : Address) (siz : ℕ) : Address := dst ++ src.take (siz - dst.length - 1)

/-- The rule for the first domain above an address that has one, and what it leaves of the address.
The first part of the address has been gone through. -/
def addressmapMatchSuperdomains (addressmap : Address → Option AddressmapEntry) (front : Address) :
    Address → Option (AddressmapEntry × Address)
  | [] => none
  | c :: cp =>
    match if c = '.' then (addressmap (cp.map Char.toLower)).filter (·.srcWildcard) else none with
    | some val => some (val, if val.dstWildcard then front else front ++ c :: cp)
    | none => addressmapMatchSuperdomains addressmap (front ++ [c]) cp

structure Rewritten where
  address : Address
  rewrites : ℕ
  expires : ℤ
  exitSource : AddressmapEntrySource

/-- What `addressmap_rewrite` returns. -/
def Rewritten.changed (r : Rewritten) : Bool := 0 < r.rewrites

def exitSuffix : Address := ['.', 'e', 'x', 'i', 't']

namespace Rewriting

variable (w : Rewriting)

/-- The rule of a round, what it leaves of the address, and whether it is for the address itself. -/
def findRule (address : Address) : Option (AddressmapEntry × Address × Bool) :=
  let superdomain := (addressmapMatchSuperdomains w.addressmap [] address).map fun m =>
    (m.1, m.2, false)
  match w.addressmap address with
  | none => superdomain
  | some ent =>
    match ent.newAddress with
    | none => superdomain
    | some newAddress =>
      -- This is a rule like `*.example.com example.com`, and the address is `example.com`.
      if ent.srcWildcard && !ent.dstWildcard && strcaseeq address newAddress then none
      else some (ent, address, true)

/-- Whether the flags permit a rule. -/
def permits (ent : AddressmapEntry) (newAddress : Address) : Bool :=
  match ent.source with
  | .dns =>
    match w.torAddrParse newAddress with
    | some .inet => w.flags.useIpv4Dns
    | some .inet6 => w.flags.useIpv6Dns
    | none => true
  | .controller | .torrc => w.flags.useMapaddress
  | .automap => w.flags.useAutomap
  | .trackexit => w.flags.useTrackexit
  | .none => false

/-- A round: the address after it, and the rule by which it was rewritten, if it was. -/
def round (address : Address) : Address × Option AddressmapEntry :=
  match w.findRule address with
  | none => (address, none)
  | some (ent, left, exactMatch) =>
    match ent.newAddress with
    | none => (left, none)
    | some newAddress =>
      if w.permits ent newAddress then
        (if ent.dstWildcard && !exactMatch then
            strlcat (strlcat left ['.'] w.maxlen) newAddress w.maxlen
          else strlcpy left newAddress w.maxlen, some ent)
      else (left, none)

def rewriteLoop (addrOrig : Address) : ℕ → Rewritten → Rewritten
  | 0, r => r
  | rounds + 1, r =>
    match w.round r.address with
    | (address, none) => { r with address := address }
    | (address, some ent) =>
      rewriteLoop addrOrig rounds
        { address := address
          rewrites := r.rewrites + 1
          expires := if 1 < ent.expires ∧ ent.expires < r.expires then ent.expires else r.expires
          exitSource :=
            if strendeq address exitSuffix && !strendeq addrOrig exitSuffix &&
              r.exitSource = .none then
              ent.source
            else r.exitSource }

end Rewriting

/-- Rewrite an address until no rule is left, but not forever. -/
def addressmapRewrite (w : Rewriting) (address : Address) : Rewritten :=
  w.rewriteLoop address 16 ⟨address, 0, timeMax, .none⟩

namespace Rewriting

variable (w : Rewriting)

/-- A whole rewrite step. -/
def step (address : Address) : Option Address := (w.round address).2.map fun _ =>
  (w.round address).1

/-- The address after some steps. -/
def after : ℕ → Address → Option Address
  | 0, address => some address
  | n + 1, address => (w.step address).bind (after n)

/-- An address is rewritten as a whole, by rules that the flags permit, until none is left. -/
structure Right (address : Address) : Prop where
  unchanged : (addressmapRewrite w address).changed = false →
    (addressmapRewrite w address).address = address
  finished : (addressmapRewrite w address).rewrites < 16 →
    (addressmapRewrite w (addressmapRewrite w address).address).changed = false
  permitted : ∀ k < (addressmapRewrite w address).rewrites, ∃ a ent newAddress,
    w.after k address = some a ∧ (w.round a).2 = some ent ∧ ent.newAddress = some newAddress ∧
      w.permits ent newAddress
  whole : ∃ k ≤ (addressmapRewrite w address).rewrites,
    w.after k address = some (addressmapRewrite w address).address

/-- The rule for an address takes a domain off, and it is not used. -/
def CutShort (address : Address) : Prop :=
  ∃ ent left, w.findRule address = some (ent, left, false) ∧ ent.dstWildcard ∧
    ∀ newAddress ∈ ent.newAddress, w.permits ent newAddress = false

end Rewriting

/-! ### One round -/

lemma addressmapMatchSuperdomains_eq_some {addressmap : Address → Option AddressmapEntry}
    {front address left : Address} {val : AddressmapEntry}
    (h : addressmapMatchSuperdomains addressmap front address = some (val, left)) :
    if val.dstWildcard then left.length < (front ++ address).length
      else left = front ++ address := by
  induction address generalizing front with
  | nil => cases h
  | cons c cp ih =>
    rw [addressmapMatchSuperdomains] at h
    split at h
    · cases h
      split
      · rw [List.length_append, List.length_cons]
        omega
      · rfl
    · simpa using ih h

namespace Rewriting

variable {w : Rewriting} {a b address : Address} {ent : AddressmapEntry}

lemma findRule_eq_some {left : Address} {exactMatch : Bool}
    (h : w.findRule a = some (ent, left, exactMatch)) :
    if ent.dstWildcard && !exactMatch then left.length < a.length else left = a := by
  have hsuper : (addressmapMatchSuperdomains w.addressmap [] a).map (fun m => (m.1, m.2, false)) =
      some (ent, left, exactMatch) → if ent.dstWildcard && !exactMatch then left.length < a.length
        else left = a := by
    intro h
    obtain ⟨m, hm, heq⟩ := map_eq_some_iff.mp h
    cases heq
    simpa using addressmapMatchSuperdomains_eq_some hm
  unfold findRule at h
  dsimp only at h
  split at h
  · exact hsuper h
  · split at h
    · exact hsuper h
    · split at h
      · cases h
      · cases h
        simp

/-- A round that does not use its rule. -/
lemma round_eq_of_findRule (h : w.step a = none) {left : Address} {exactMatch : Bool}
    (hfind : w.findRule a = some (ent, left, exactMatch)) :
    (w.round a).1 = left ∧ ∀ newAddress ∈ ent.newAddress, w.permits ent newAddress = false := by
  have hround := map_eq_none_iff.mp h
  unfold round at hround ⊢
  simp only [hfind] at hround ⊢
  split at hround
  · next hnew => exact ⟨rfl, fun newAddress hmem => by rw [hnew] at hmem; cases hmem⟩
  · next newAddress hnew =>
    split at hround
    · cases hround
    · next hpermits =>
      rw [if_neg hpermits]
      refine ⟨rfl, fun newAddress' hmem => ?_⟩
      obtain rfl := Option.some.inj (hnew.symm.trans hmem)
      exact Bool.eq_false_iff.mpr hpermits

lemma CutShort.step_eq_none (h : w.CutShort a) : w.step a = none := by
  obtain ⟨ent, left, hfind, -, hunused⟩ := h
  rw [step, round, hfind]
  dsimp only
  split
  · rfl
  · next newAddress hnew =>
    rw [if_neg (Bool.eq_false_iff.mp (hunused newAddress hnew))]
    rfl

/-- **A round that does not rewrite the address** leaves it as it is, unless it is cut short. -/
lemma round_fst_eq_iff (h : w.step a = none) : (w.round a).1 = a ↔ ¬w.CutShort a := by
  cases hfind : w.findRule a with
  | none =>
    have hround : (w.round a).1 = a := by rw [round, hfind]
    refine iff_of_true hround ?_
    rintro ⟨ent, left, hrule, -⟩
    rw [hfind] at hrule
    cases hrule
  | some m =>
    obtain ⟨ent, left, exactMatch⟩ := m
    have hleft := findRule_eq_some hfind
    obtain ⟨hround, hunused⟩ := round_eq_of_findRule h hfind
    rw [hround]
    split_ifs at hleft with hcut
    · obtain ⟨hdst, hexact⟩ := Bool.and_eq_true_iff.mp hcut
      obtain rfl : exactMatch = false := by simpa using hexact
      refine iff_of_false ?_ (not_not_intro ⟨ent, left, hfind, hdst, hunused⟩)
      rintro rfl
      exact hleft.false
    · refine iff_of_true hleft ?_
      rintro ⟨ent', left', hrule, hdst, -⟩
      cases hfind.symm.trans hrule
      exact hcut (by rw [hdst]; rfl)

/-- The flags permit a rule that is used. -/
lemma permits_of_round (h : (w.round a).2 = some ent) :
    ∃ newAddress, ent.newAddress = some newAddress ∧ w.permits ent newAddress := by
  unfold round at h
  split at h
  · cases h
  · split at h
    · cases h
    · next newAddress hnew =>
      split at h
      · next hpermits =>
        cases h
        exact ⟨newAddress, hnew, hpermits⟩
      · cases h

/-! ### All rounds -/

/-- There are no more steps after the last one. -/
lemma le_of_step_eq_none {k n : ℕ} {c : Address} (hk : w.after k address = some a)
    (hnone : w.step a = none) (hn : w.after n address = some c) : n ≤ k := by
  induction k generalizing n address with
  | zero =>
    cases n with
    | zero => exact le_refl 0
    | succ n =>
      cases hk
      rw [after, hnone] at hn
      cases hn
  | succ k ih =>
    cases n with
    | zero => exact Nat.zero_le _
    | succ n =>
      obtain ⟨b, hb, hk⟩ := bind_eq_some_iff.mp hk
      obtain ⟨b', hb', hn⟩ := bind_eq_some_iff.mp hn
      obtain rfl := Option.some.inj (hb.symm.trans hb')
      exact Nat.succ_le_succ (ih hk hn)

/-- There is a step from every address before the last one. -/
lemma exists_step_of_lt {k n : ℕ} (h : w.after n address = some a) (hlt : k < n) :
    ∃ b c, w.after k address = some b ∧ w.step b = some c := by
  induction k generalizing n address with
  | zero =>
    obtain ⟨n, rfl⟩ := Nat.exists_eq_succ_of_ne_zero hlt.ne'
    obtain ⟨c, hc, -⟩ := bind_eq_some_iff.mp h
    exact ⟨address, c, rfl, hc⟩
  | succ k ih =>
    obtain ⟨n, rfl⟩ := Nat.exists_eq_succ_of_ne_zero (Nat.zero_lt_of_lt hlt).ne'
    obtain ⟨b, hb, h⟩ := bind_eq_some_iff.mp h
    obtain ⟨c, d, hc, hd⟩ := ih h (Nat.lt_of_succ_lt_succ hlt)
    exact ⟨c, d, by rw [after, hb, bind_some, hc], hd⟩

/-- **The loop makes steps** until there is none, or until no rounds are left. -/
lemma rewriteLoop_spec (w : Rewriting) (addrOrig : Address) (rounds : ℕ) (r : Rewritten) :
    ∃ n a, n ≤ rounds ∧ w.after n r.address = some a ∧
      (w.rewriteLoop addrOrig rounds r).rewrites = r.rewrites + n ∧ (n < rounds → w.step a = none) ∧
      (w.rewriteLoop addrOrig rounds r).address = if n < rounds then (w.round a).1 else a := by
  induction rounds generalizing r with
  | zero => exact ⟨0, r.address, le_refl 0, rfl, rfl, nofun, rfl⟩
  | succ rounds ih =>
    rw [rewriteLoop]
    rcases hround : w.round r.address with ⟨address, _ | ent⟩
    · have hstep : w.step r.address = none := by rw [step, hround, map_none]
      exact ⟨0, r.address, Nat.zero_le _, rfl, rfl,
        fun _ => hstep, by rw [if_pos rounds.succ_pos, hround]⟩
    · have hstep : w.step r.address = some address := by rw [step, hround, map_some]
      obtain ⟨n, a, hn, hafter, hrewrites, hlast, haddress⟩ := ih
        { address := address
          rewrites := r.rewrites + 1
          expires := if 1 < ent.expires ∧ ent.expires < r.expires then ent.expires else r.expires
          exitSource :=
            if strendeq address exitSuffix && !strendeq addrOrig exitSuffix &&
              r.exitSource = .none then
              ent.source
            else r.exitSource }
      refine ⟨n + 1, a, Nat.succ_le_succ hn, ?_, ?_, fun hlt => hlast (Nat.lt_of_succ_lt_succ hlt),
        ?_⟩
      · rw [after, hstep, bind_some, hafter]
      · rw [hrewrites, Nat.add_assoc, Nat.add_comm 1]
      · rw [haddress]
        simp only [Nat.add_lt_add_iff_right]

/-- What a rewriting does: some steps, and a round without one unless there were sixteen. -/
lemma addressmapRewrite_spec (w : Rewriting) (address : Address) :
    ∃ n a, n ≤ 16 ∧ w.after n address = some a ∧ (addressmapRewrite w address).rewrites = n ∧
      (n < 16 → w.step a = none) ∧
      (addressmapRewrite w address).address = if n < 16 then (w.round a).1 else a := by
  obtain ⟨n, a, hn, hafter, hrewrites, h⟩ :=
    rewriteLoop_spec w address 16 ⟨address, 0, timeMax, .none⟩
  exact ⟨n, a, hn, hafter, hrewrites.trans (Nat.zero_add n), h⟩

/-- An address is not rewritten if there is no step from it. -/
lemma changed_eq_false_iff : (addressmapRewrite w a).changed = false ↔ w.step a = none := by
  obtain ⟨n, b, -, hafter, hrewrites, hlast, -⟩ := addressmapRewrite_spec w a
  rw [Rewritten.changed, hrewrites, decide_eq_false_iff_not, not_lt, Nat.le_zero]
  constructor
  · rintro rfl
    cases hafter
    exact hlast (by decide)
  · exact fun hstep => Nat.le_zero.mp (le_of_step_eq_none rfl hstep hafter)

end Rewriting

open Rewriting

/-- **An address is rewritten as a whole** if and only if no address on the way is cut short. -/
theorem addressmapRewrite_right_iff (w : Rewriting) (address : Address) :
    w.Right address ↔ ∀ k < 16, ∀ a, w.after k address = some a → ¬w.CutShort a := by
  obtain ⟨n, b, hn, hafter, hrewrites, hlast, haddress⟩ := addressmapRewrite_spec w address
  constructor
  · intro hright k hk a ha hcut
    have hstep := hcut.step_eq_none
    have hle : n ≤ k := le_of_step_eq_none ha hstep hafter
    have hlt : n < 16 := Nat.lt_of_le_of_lt hle hk
    obtain rfl : n = k := Nat.le_antisymm hle (le_of_step_eq_none hafter (hlast hlt) ha)
    obtain rfl := Option.some.inj (hafter.symm.trans ha)
    have hne : (addressmapRewrite w address).address ≠ b := by
      rw [haddress, if_pos hlt]
      exact fun heq => (round_fst_eq_iff hstep).mp heq hcut
    -- What is left is no address on the way: from there, the rewriting would come here again.
    obtain ⟨j, hj, hwhole⟩ := hright.whole
    have hfinished := changed_eq_false_iff.mp (hright.finished (hrewrites ▸ hlt))
    obtain rfl : j = n :=
      Nat.le_antisymm (hrewrites ▸ hj) (le_of_step_eq_none hwhole hfinished hafter)
    exact hne (Option.some.inj (hwhole.symm.trans hafter))
  · intro hwhole
    have hend : (addressmapRewrite w address).address = b := by
      rw [haddress]
      split
      · next hlt => exact (round_fst_eq_iff (hlast hlt)).mpr (hwhole n hlt b hafter)
      · rfl
    refine ⟨fun h => ?_, fun h => ?_, fun k hk => ?_, n, hrewrites.ge, hend ▸ hafter⟩
    · rw [Rewritten.changed, hrewrites, decide_eq_false_iff_not, Nat.not_lt, Nat.le_zero] at h
      subst h
      rw [hend]
      exact (Option.some.inj hafter).symm
    · rw [hend, changed_eq_false_iff]
      exact hlast (hrewrites ▸ h)
    · obtain ⟨a, c, ha, hc⟩ := exists_step_of_lt hafter (hrewrites ▸ hk)
      obtain ⟨ent, hround, -⟩ := map_eq_some_iff.mp hc
      obtain ⟨newAddress, hnew, hpermits⟩ := permits_of_round hround
      exact ⟨a, ent, newAddress, ha, hround, hnew, hpermits⟩

/-- The rule `*.c.d *.e.f` of the configuration, for a rewriting that does not use configured
rules. -/
def superdomainRule : Rewriting where
  addressmap address :=
    if address = "c.d".toList then some ⟨some "e.f".toList, 0, .torrc, true, true, 0⟩ else none
  torAddrParse _ := none
  flags := ⟨false, false, false, true, true⟩
  maxlen := 256

/-- **A host name is cut short** although no rewrite was made. -/
theorem not_addressmapRewrite_right : ¬superdomainRule.Right "a.c.d".toList ∧
    (addressmapRewrite superdomainRule "a.c.d".toList).changed = false ∧
    (addressmapRewrite superdomainRule "a.c.d".toList).address = "a".toList := by
  refine ⟨fun h => absurd (h.unchanged (by decide)) (by decide), by decide, by decide⟩

end Astoria.AddressmapRewrite
