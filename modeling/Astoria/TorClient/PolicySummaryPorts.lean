import Mathlib.Algebra.Order.BigOperators.Group.List
import Astoria.TorClient.PolicySummary

/-!
# What a summary says of one port

For one port, a summary only counts the rejected addresses until the port is accepted.  The list of
port ranges shows this count for all ports together: splitting a range changes nothing, and an item
changes exactly the ports that it covers (`exists_policySummaryAddItem`).
-/

namespace Astoria

open List Option
open Tiling

/-! ### One port -/

/-- An item is about a port. -/
def AddrPolicy.coversPrt (p : AddrPolicy) (port : ℕ) : Bool :=
  p.prtMin.toNat ≤ port && port ≤ p.prtMax.toNat

/-- The rejected addresses at a port and whether it is accepted, after one more item. -/
def portStep (count : AddrPolicy → ℕ) (port : ℕ) (s : ℕ × Bool) (p : AddrPolicy) : ℕ × Bool :=
  if p.coversPrt port then
    match p.policyType with
    | .accept => if p.maskbits = 0 ∧ s.2 = false ∧ s.1 ≤ rejectCutoffCount then (s.1, true) else s
    | .reject => if p.isPrivate then s else (s.1 + count p, s.2)
  else s

/-- The rejected addresses at a port and whether it is accepted, after a policy. -/
def portState (count : AddrPolicy → ℕ) (policy : List AddrPolicy) (port : ℕ) : ℕ × Bool :=
  policy.foldl (portStep count port) (0, false)

/-- The number of addresses of an item as the summary counts it: with a shift that is right for
IPv4. -/
def shiftedCount (p : AddrPolicy) : ℕ := 2 ^ (32 - p.maskbits)

/-- The items that reject addresses of networks which are not private. -/
def AddrPolicy.rejects (p : AddrPolicy) : Bool := p.policyType = .reject && !p.isPrivate

/-! ### The ranges show the ports -/

/-- The count and the answer of a range. -/
def PolicySummaryItem.value (item : PolicySummaryItem) : ℕ × Bool :=
  (item.rejectCount, item.accepted)

/-- The ranges from one port to another one, which is not among them, show the counts and the
answers of these ports. -/
def ShowsPorts (start : ℕ) (items : List PolicySummaryItem) (stop : ℕ) (f : ℕ → ℕ × Bool) : Prop :=
  Tiles PolicySummaryItem.prtMin PolicySummaryItem.prtMax start items stop ∧
    Shows PolicySummaryItem.prtMin PolicySummaryItem.prtMax PolicySummaryItem.value f items

section Ranges

variable {start mid stop port : ℕ} {items before after : List PolicySummaryItem} {f : ℕ → ℕ × Bool}

lemma showsPorts_append : ShowsPorts start (before ++ after) stop f ↔
    ∃ mid, ShowsPorts start before mid f ∧ ShowsPorts mid after stop f := by
  unfold ShowsPorts
  rw [tiles_append, shows_append]
  constructor
  · rintro ⟨⟨mid, hbefore, hafter⟩, hf, hf'⟩
    exact ⟨mid, ⟨hbefore, hf⟩, hafter, hf'⟩
  · rintro ⟨mid, ⟨hbefore, hf⟩, hafter, hf'⟩
    exact ⟨⟨mid, hbefore, hafter⟩, hf, hf'⟩

/-- A range and those that follow it. -/
lemma showsPorts_cons {item : PolicySummaryItem} : ShowsPorts start (item :: items) stop f ↔
    item.prtMin = start ∧ item.prtMin ≤ item.prtMax ∧
      (∀ p, item.prtMin ≤ p → p ≤ item.prtMax → f p = item.value) ∧
      ShowsPorts (item.prtMax + 1) items stop f := by
  unfold ShowsPorts
  rw [shows_cons]
  constructor
  · rintro ⟨⟨hmin, hle, htiles⟩, hitem, hf⟩
    exact ⟨hmin, hle, hitem, htiles, hf⟩
  · rintro ⟨hmin, hle, hitem, htiles, hf⟩
    exact ⟨⟨hmin, hle, htiles⟩, hitem, hf⟩

/-- The range of a port is found. -/
lemma exists_skipTo (h : ShowsPorts start items stop f) (hport : port < stop)
    (hstart : start ≤ port) : ∃ before item rest, skipTo port items = some (before, item :: rest) ∧
      ShowsPorts start before item.prtMin f ∧ ShowsPorts item.prtMin (item :: rest) stop f ∧
      item.prtMin ≤ port ∧ port ≤ item.prtMax := by
  induction items generalizing start with
  | nil =>
    have heq : start = stop := h.1
    omega
  | cons item rest ih =>
    obtain ⟨hmin, hle, hitem, hrest⟩ := showsPorts_cons.mp h
    rw [skipTo]
    split_ifs with hskip
    · obtain ⟨before, item', rest', hskipTo, hbefore, hafter, hin⟩ := ih hrest (by omega)
      exact ⟨item :: before, item', rest', by rw [hskipTo]; rfl,
        showsPorts_cons.mpr ⟨hmin, hle, hitem, hbefore⟩, hafter, hin⟩
    · refine ⟨[], item, rest, rfl, ⟨hmin.symm, nofun⟩, ?_, by omega, by omega⟩
      rw [hmin]
      exact h

lemma exists_itemSplit {item : PolicySummaryItem} (hstop : stop ≤ 2 ^ 16)
    (h : ShowsPorts item.prtMin (item :: items) stop f) (port : ℕ) (hlt : item.prtMin < port)
    (hle : port ≤ item.prtMax) : ∃ old new, policySummaryItemSplit item (port % 2 ^ 16) = some
      (old, new) ∧ ShowsPorts item.prtMin [old] port f ∧ ShowsPorts port (new :: items) stop f ∧
      old.prtMax + 1 = port ∧ new.prtMax = item.prtMax := by
  obtain ⟨-, hminmax, hitem, hrest⟩ := showsPorts_cons.mp h
  have hbound := hrest.1.start_le
  have hport : port % 2 ^ 16 = port := Nat.mod_eq_of_lt (by omega)
  have hend : (port + 2 ^ 16 - 1) % 2 ^ 16 = port - 1 := by omega
  unfold policySummaryItemSplit
  dsimp only
  rw [hport, hend, if_pos ⟨by omega, hle⟩]
  refine ⟨_, _, rfl, showsPorts_cons.mpr ⟨rfl, ?_, ?_, ?_, nofun⟩,
    showsPorts_cons.mpr ⟨rfl, hle, ?_, hrest⟩,
    ?_, rfl⟩
  · show item.prtMin ≤ port - 1
    omega
  · exact fun p hmin hmax => hitem p hmin (le_trans hmax (by show port - 1 ≤ item.prtMax; omega))
  · show port - 1 + 1 = port
    omega
  · exact fun p hmin hmax => hitem p (by have hp : port ≤ p := hmin; omega) hmax
  · show port - 1 + 1 = port
    omega

/-- A range starts at a port, after a split if need be. -/
lemma exists_splitStart (hstop : stop ≤ 2 ^ 16) (h : ShowsPorts start items stop f)
    (hstart : start ≤ port) (hport : port < stop) : ∃ before after, splitStart items port = some
      (before, after) ∧ ShowsPorts start before port f ∧ ShowsPorts port after stop f := by
  obtain ⟨before, item, rest, hskip, hbefore, hafter, hmin, hmax⟩ := exists_skipTo h hport hstart
  unfold splitStart
  rw [hskip]
  dsimp only
  split_ifs with hne
  · have hmod : port % 2 ^ 16 = port := Nat.mod_eq_of_lt (by omega)
    obtain ⟨old, new, hsplit, hold, hnew, -⟩ := exists_itemSplit hstop hafter port (by omega) hmax
    rw [hmod] at hsplit
    rw [hsplit]
    exact ⟨before ++ [old], new :: rest, rfl, showsPorts_append.mpr ⟨item.prtMin, hbefore, hold⟩,
      hnew⟩
  · rw [not_not] at hne
    rw [hne] at hbefore hafter
    exact ⟨before, item :: rest, rfl, hbefore, hafter⟩

/-- **A range of ports consists of whole ranges** after a split. -/
lemma exists_policySummarySplit {prtMin prtMax : ℕ} (hstop : stop ≤ 2 ^ 16)
    (h : ShowsPorts start items stop f) (hstart : start ≤ prtMin) (hle : prtMin ≤ prtMax)
    (hlt : prtMax < stop) : ∃ before inside after, policySummarySplit items prtMin prtMax =
      some (before, inside ++ after) ∧ ShowsPorts start before prtMin f ∧
      ShowsPorts prtMin inside (prtMax + 1) f ∧ ShowsPorts (prtMax + 1) after stop f := by
  obtain ⟨before, rest, hstart', hbefore, hrest⟩ :=
    exists_splitStart hstop h hstart (hle.trans_lt hlt)
  obtain ⟨inside, item, after, hskip, hinside, hafter, hmin, hmax⟩ := exists_skipTo hrest hlt hle
  unfold policySummarySplit
  rw [hstart']
  simp only [bind_eq_bind, bind_some]
  rw [hskip]
  dsimp only
  split_ifs with hne
  · obtain ⟨old, new, hsplit, hold, hnew, -⟩ :=
      exists_itemSplit hstop hafter (prtMax + 1) (by omega) (by omega)
    rw [hsplit]
    refine ⟨before, inside ++ [old], new :: after, ?_, hbefore,
      showsPorts_append.mpr ⟨item.prtMin, hinside, hold⟩, hnew⟩
    rw [append_assoc]
    rfl
  · rw [not_not] at hne
    obtain ⟨hitemMin, hminmax, hitem, hafter'⟩ := showsPorts_cons.mp hafter
    rw [hne] at hafter'
    refine ⟨before, inside ++ [item], after, ?_, hbefore,
      showsPorts_append.mpr ⟨item.prtMin, hinside, ?_⟩, hafter'⟩
    · rw [append_assoc]
      rfl
    · exact showsPorts_cons.mpr ⟨rfl, hminmax, hitem, congrArg (· + 1) hne, nofun⟩

/-- **The ranges of some ports are changed**, and with them what they show. -/
lemma exists_updateRanges {prtMin prtMax : ℕ} {inside : List PolicySummaryItem}
    (hinside : ShowsPorts prtMin inside (prtMax + 1) f)
    (hafter : ShowsPorts (prtMax + 1) after 65536 f)
    {change : PolicySummaryItem → PolicySummaryItem} {g : ℕ × Bool → ℕ × Bool}
    (hmin : ∀ item, (change item).prtMin = item.prtMin)
    (hmax : ∀ item, (change item).prtMax = item.prtMax)
    (hvalue : ∀ item ∈ inside, (change item).value = g item.value) :
    updateRanges change prtMax (inside ++ after) = some (inside.map change ++ after) ∧
      ShowsPorts prtMin (inside.map change) (prtMax + 1) (fun p => g (f p)) := by
  have htake : ∀ item ∈ inside, decide (item.prtMax ≤ prtMax) = true := fun item hitem =>
    decide_eq_true (by have hlt := (hinside.1.mem hitem).2.2; omega)
  have hdrop : (after.takeWhile fun item => decide (item.prtMax ≤ prtMax)) = [] ∧
      (after.dropWhile fun item => decide (item.prtMax ≤ prtMax)) = after := by
    cases after with
    | nil => exact ⟨rfl, rfl⟩
    | cons item rest =>
      obtain ⟨hstart, hle, -⟩ := showsPorts_cons.mp hafter
      have hnot : ¬ decide (item.prtMax ≤ prtMax) = true := by
        rw [decide_eq_true_eq]
        omega
      exact ⟨takeWhile_cons_of_neg hnot, dropWhile_cons_of_neg hnot⟩
  have hend : after ≠ [] ∨ prtMax = 65535 := by
    cases after with
    | nil =>
      have heq : prtMax + 1 = 65536 := hafter.1
      exact .inr (by omega)
    | cons item rest => exact .inl (cons_ne_nil _ _)
  refine ⟨?_, hinside.1.map hmin hmax, ?_⟩
  · unfold updateRanges
    rw [dropWhile_append_of_pos htake, takeWhile_append_of_pos htake, hdrop.1, hdrop.2]
    dsimp only
    rw [if_pos hend, append_nil]
  · intro item hitem p hp hp'
    obtain ⟨item, hitem', rfl⟩ := List.mem_map.mp hitem
    rw [hmin] at hp
    rw [hmax] at hp'
    show g (f p) = _
    rw [hvalue item hitem', hinside.2 item hitem' p hp hp']

/-- **A change of some ports** that is the same for each of them. -/
lemma exists_changePorts {prtMin prtMax : ℕ} (h : ShowsPorts 1 items 65536 f) (hmin : 1 ≤ prtMin)
    (hle : prtMin ≤ prtMax) (hlt : prtMax < 65536) (change : PolicySummaryItem → PolicySummaryItem)
    (g : ℕ × Bool → ℕ × Bool) (hminEq : ∀ item, (change item).prtMin = item.prtMin)
    (hmaxEq : ∀ item, (change item).prtMax = item.prtMax)
    (hvalue : ∀ item : PolicySummaryItem, (∃ p < 65536, item.value = f p) →
      (change item).value = g item.value) :
    ∃ before after after', policySummarySplit items prtMin prtMax = some (before, after) ∧
      updateRanges change prtMax after = some after' ∧
      ShowsPorts 1 (before ++ after') 65536 fun p =>
        if prtMin ≤ p ∧ p ≤ prtMax then g (f p) else f p := by
  obtain ⟨before, inside, after, hsplit, hbefore, hinside, hafter⟩ :=
    exists_policySummarySplit (le_refl _) h hmin hle hlt
  have hvalue' : ∀ item ∈ inside, (change item).value = g item.value := by
    intro item hitem
    obtain ⟨-, hle', hlt'⟩ := hinside.1.mem hitem
    exact hvalue item ⟨item.prtMin, by omega, (hinside.2 item hitem item.prtMin le_rfl hle').symm⟩
  obtain ⟨hupdate, hshows⟩ := exists_updateRanges hinside hafter hminEq hmaxEq hvalue'
  refine ⟨before, inside ++ after, inside.map change ++ after, hsplit, hupdate,
    showsPorts_append.mpr
      ⟨prtMin, ⟨hbefore.1, ?_⟩, showsPorts_append.mpr ⟨prtMax + 1, ⟨hshows.1, ?_⟩, hafter.1, ?_⟩⟩⟩
  · intro item hitem p hp hp'
    have hout := (hbefore.1.mem hitem).2.2
    dsimp only
    rw [if_neg (by omega)]
    exact hbefore.2 item hitem p hp hp'
  · intro item hitem p hp hp'
    obtain ⟨hin, -, hin'⟩ := hshows.1.mem hitem
    dsimp only
    rw [if_pos ⟨by omega, by omega⟩]
    exact hshows.2 item hitem p hp hp'
  · intro item hitem p hp hp'
    have hout := (hafter.1.mem hitem).1
    dsimp only
    rw [if_neg (by omega)]
    exact hafter.2 item hitem p hp hp'

end Ranges

/-! ### Items and policies -/

section Items

variable {items : List PolicySummaryItem} {f : ℕ → ℕ × Bool} {p : AddrPolicy}
  {policy : List AddrPolicy}

/-- The ports of an item are a range. -/
def AddrPolicy.PortsOk (p : AddrPolicy) : Prop :=
  1 ≤ p.prtMin.toNat ∧ p.prtMin.toNat ≤ p.prtMax.toNat

/-- The number of addresses can be computed, if it is needed. -/
def AddrPolicy.ShiftOk (p : AddrPolicy) : Prop := p.rejects = true → p.maskbits ≤ 32

/-- **An item changes the ports that it covers.** -/
lemma exists_policySummaryAddItem (h : ShowsPorts 1 items 65536 f) (hports : p.PortsOk)
    (hshift : p.ShiftOk) (hsmall : ∀ port < 65536, (f port).1 + 2 ^ 32 < 2 ^ 64) :
    ∃ items', policySummaryAddItem items p = some items' ∧
      ShowsPorts 1 items' 65536 fun port => portStep shiftedCount port (f port) p := by
  have hlt : p.prtMax.toNat < 65536 := p.prtMax.toNat_lt
  have hcovers : ∀ port, p.coversPrt port = true ↔
      p.prtMin.toNat ≤ port ∧ port ≤ p.prtMax.toNat := by
    intro port
    unfold AddrPolicy.coversPrt
    rw [Bool.and_eq_true, decide_eq_true_eq, decide_eq_true_eq]
  unfold policySummaryAddItem portStep
  cases htype : p.policyType with
  | accept =>
    dsimp only
    split_ifs with hmask
    · obtain ⟨before, after, after', hsplit, hupdate, hshows⟩ :=
        exists_changePorts h hports.1 hports.2 hlt
            (fun item => if item.accepted = false ∧ item.rejectCount ≤ rejectCutoffCount then
          { item with accepted := true } else item)
        (fun s => if s.2 = false ∧ s.1 ≤ rejectCutoffCount then (s.1, true) else s)
        (fun item => by split_ifs <;> rfl) (fun item => by split_ifs <;> rfl)
        (fun item _ => by unfold PolicySummaryItem.value; dsimp only; split_ifs <;> rfl)
      refine ⟨before ++ after', ?_, ?_⟩
      · unfold policySummaryAccept
        rw [hsplit]
        simp only [bind_eq_bind, bind_some]
        rw [hupdate]
        rfl
      · simp only [hcovers, hmask, true_and]
        exact hshows
    · refine ⟨items, rfl, ?_⟩
      simp only [hmask, false_and, if_false, ite_self]
      exact h
  | reject =>
    dsimp only
    split_ifs with hprivate
    · refine ⟨items, rfl, ?_⟩
      simp only [ite_self]
      exact h
    · have hmask : p.maskbits ≤ 32 := hshift (by
        unfold AddrPolicy.rejects
        rw [htype, Bool.eq_false_of_not_eq_true hprivate]
        rfl)
      have hcount : shiftedCount p ≤ 2 ^ 32 := Nat.pow_le_pow_right (by decide) (Nat.sub_le 32 _)
      obtain ⟨before, after, after', hsplit, hupdate, hshows⟩ :=
        exists_changePorts h hports.1 hports.2 hlt
          (fun item =>
            { item with rejectCount := (item.rejectCount + 2 ^ (32 - p.maskbits)) % 2 ^ 64 })
        (fun s => (s.1 + shiftedCount p, s.2)) (fun item => rfl) (fun item => rfl) (by
          rintro item ⟨port, hport, hvalue⟩
          have hbound := hsmall port hport
          rw [← hvalue] at hbound
          have hmod : (item.rejectCount + shiftedCount p) % 2 ^ 64 =
              item.rejectCount + shiftedCount p :=
            Nat.mod_eq_of_lt (by unfold PolicySummaryItem.value at hbound; omega)
          exact congrArg (·, item.accepted) hmod)
      refine ⟨before ++ after', ?_, ?_⟩
      · unfold policySummaryReject
        rw [hsplit]
        simp only [bind_eq_bind, bind_some, if_pos hmask]
        rw [hupdate]
        rfl
      · simp only [hcovers]
        exact hshows

/-- The number of addresses of a network that is too small cannot be computed. -/
lemma policySummaryAddItem_none (hshift : ¬ p.ShiftOk) (items : List PolicySummaryItem) :
    policySummaryAddItem items p = none := by
  unfold AddrPolicy.ShiftOk AddrPolicy.rejects at hshift
  rw [Classical.not_imp, Bool.and_eq_true, decide_eq_true_eq] at hshift
  obtain ⟨⟨htype, hprivate⟩, hmask⟩ := hshift
  unfold policySummaryAddItem policySummaryReject
  rw [htype]
  dsimp only
  rw [if_neg (by simpa using hprivate)]
  cases policySummarySplit items p.prtMin.toNat p.prtMax.toNat with
  | none => rfl
  | some r => simp only [bind_eq_bind, bind_some, if_neg hmask, bind_none]

/-- An item rejects at most as many addresses as 32 bits can count. -/
lemma portStep_le (port : ℕ) (s : ℕ × Bool) (p : AddrPolicy) :
    (portStep shiftedCount port s p).1 ≤ s.1 + 2 ^ 32 := by
  have hcount : shiftedCount p ≤ 2 ^ 32 := Nat.pow_le_pow_right (by decide) (Nat.sub_le 32 _)
  unfold portStep
  cases p.policyType with
  | accept =>
    dsimp only
    split_ifs
    all_goals exact Nat.le_add_right _ _
  | reject =>
    dsimp only
    split_ifs
    · exact Nat.le_add_right _ _
    · exact Nat.add_le_add_left hcount _
    · exact Nat.le_add_right _ _

/-- The rejected addresses at a port are limited by the length of the policy. -/
lemma portState_le (policy : List AddrPolicy) (port : ℕ) :
    (portState shiftedCount policy port).1 ≤ policy.length * 2 ^ 32 := by
  induction policy using reverseRecOn with
  | nil => exact Nat.zero_le _
  | append_singleton policy p ih =>
    have hstep := portStep_le port (portState shiftedCount policy port) p
    have happend : portState shiftedCount (policy ++ [p]) port =
        portStep shiftedCount port (portState shiftedCount policy port) p := by
      unfold portState
      rw [foldl_append]
      rfl
    rw [happend, length_append, length_singleton, Nat.add_mul, one_mul]
    omega

/-- **The summary of a policy** shows what the policy does at each port. -/
lemma exists_foldlM_addItem (hports : ∀ p ∈ policy, p.PortsOk) (hshift : ∀ p ∈ policy, p.ShiftOk)
    (hlen : policy.length < 2 ^ 31) :
    ∃ summary, policy.foldlM policySummaryAddItem policySummaryCreate =
      some summary ∧ ShowsPorts 1 summary 65536 (portState shiftedCount policy) := by
  induction policy using reverseRecOn with
  | nil =>
    refine ⟨policySummaryCreate, rfl,
      showsPorts_cons.mpr ⟨rfl, by decide, fun _ _ _ => rfl, rfl, nofun⟩⟩
  | append_singleton policy p ih =>
    rw [length_append, length_singleton] at hlen
    obtain ⟨summary, hsummary, hshows⟩ := ih (fun q hq => hports q (mem_append_left _ hq))
      (fun q hq => hshift q (mem_append_left _ hq)) (by omega)
    obtain ⟨summary', hadd, hshows'⟩ :=
      exists_policySummaryAddItem hshows (hports p (by simp)) (hshift p (by simp))
      fun port _ => by
        have hle := portState_le policy port
        omega
    refine ⟨summary', ?_, ?_⟩
    · rw [foldlM_append, hsummary]
      simp only [bind_eq_bind, bind_some, foldlM_cons, foldlM_nil, hadd]
      rfl
    · have hstate : ∀ port, portState shiftedCount (policy ++ [p]) port =
          portStep shiftedCount port (portState shiftedCount policy port) p := by
        intro port
        unfold portState
        rw [foldl_append]
        rfl
      rw [funext hstate]
      exact hshows'

/-- There is no summary of a policy with a network that is too small. -/
lemma foldlM_addItem_none (hp : p ∈ policy) (hshift : ¬ p.ShiftOk)
    (summary : List PolicySummaryItem) : policy.foldlM policySummaryAddItem summary = none := by
  induction policy generalizing summary with
  | nil => cases hp
  | cons q policy ih =>
    rw [foldlM_cons]
    rcases mem_cons.mp hp with rfl | hp
    · rw [policySummaryAddItem_none hshift]
      rfl
    · cases policySummaryAddItem summary q with
      | none => rfl
      | some summary' => exact ih hp summary'

end Items

/-! ### The answer at one port -/

/-- The number of addresses that some items reject at a port.  Each item counts on its own. -/
def rejectedAddresses (count : AddrPolicy → ℕ) (before : List AddrPolicy) (port : ℕ) : ℕ :=
  ((before.filter fun p => p.rejects && p.coversPrt port).map count).sum

/-- An item accepts a port for all addresses. -/
def AddrPolicy.AcceptsAll (p : AddrPolicy) (port : ℕ) : Prop :=
  p.policyType = .accept ∧ p.maskbits = 0 ∧ p.coversPrt port = true

/-- Some item accepts a port for all addresses, and the items before it do not reject too many. -/
def SummaryAccepts (count : AddrPolicy → ℕ) (policy : List AddrPolicy) (port : ℕ) : Prop :=
  ∃ before p after, policy = before ++ p :: after ∧ p.AcceptsAll port ∧
    rejectedAddresses count before port ≤ rejectCutoffCount

section Answers

variable {count count' : AddrPolicy → ℕ} {policy : List AddrPolicy} {p : AddrPolicy} {port : ℕ}

lemma rejectedAddresses_append (count : AddrPolicy → ℕ) (policy : List AddrPolicy) (p : AddrPolicy)
    (port : ℕ) : rejectedAddresses count (policy ++ [p]) port =
      rejectedAddresses count policy port +
      if p.rejects && p.coversPrt port then count p else 0 := by
  unfold rejectedAddresses
  rw [filter_append, map_append, sum_append]
  refine congrArg _ ?_
  rw [filter_cons, filter_nil]
  split_ifs <;> simp

/-- Whether a port is accepted with one more item. -/
lemma summaryAccepts_append : SummaryAccepts count (policy ++ [p]) port ↔ SummaryAccepts count
    policy port ∨
    (p.AcceptsAll port ∧ rejectedAddresses count policy port ≤ rejectCutoffCount) := by
  constructor
  · rintro ⟨before, q, after, heq, haccepts, hle⟩
    induction after using reverseRecOn with
    | nil =>
      obtain ⟨rfl, hpq⟩ := append_inj' heq rfl
      obtain rfl := singleton_inj.mp hpq
      exact .inr ⟨haccepts, hle⟩
    | append_singleton after x ih =>
      rw [← cons_append, ← append_assoc] at heq
      obtain ⟨rfl, -⟩ := append_inj' heq rfl
      exact .inl ⟨before, q, after, rfl, haccepts, hle⟩
  · rintro (⟨before, q, after, rfl, h⟩ | h)
    · exact ⟨before, q, after ++ [p], by simp, h⟩
    · exact ⟨policy, p, [], rfl, h⟩

/-- **What is counted at a port** is what the items reject. -/
lemma portState_eq (count : AddrPolicy → ℕ) (policy : List AddrPolicy) (port : ℕ) :
    (portState count policy port).1 = rejectedAddresses count policy port ∧
      ((portState count policy port).2 = true ↔ SummaryAccepts count policy port) := by
  induction policy using reverseRecOn with
  | nil =>
    exact ⟨rfl, iff_of_false Bool.false_ne_true fun ⟨before, p, after, heq, _⟩ => by simp at heq⟩
  | append_singleton policy p ih =>
    obtain ⟨hcount, haccepts⟩ := ih
    have hstate : portState count (policy ++ [p]) port =
        portStep count port (portState count policy port) p := by
      unfold portState
      rw [foldl_append]
      rfl
    rw [hstate, rejectedAddresses_append, summaryAccepts_append, ← hcount, ← haccepts]
    unfold portStep AddrPolicy.AcceptsAll AddrPolicy.rejects
    generalize portState count policy port = s
    obtain ⟨n, accepted⟩ := s
    cases hcovers : p.coversPrt port with
    | false => simp
    | true =>
      cases htype : p.policyType with
      | accept =>
        simp only [if_true, Bool.and_true, true_and, and_true]
        by_cases hmask : p.maskbits = 0 <;> by_cases hle : n ≤ rejectCutoffCount <;>
          cases accepted <;>
          simp [hmask, hle]
      | reject => cases hprivate : p.isPrivate <;> simp

lemma SummaryAccepts.mono (hle : ∀ p ∈ policy, count p ≤ count' p)
    (h : SummaryAccepts count' policy port) :
    SummaryAccepts count policy port := by
  obtain ⟨before, p, after, rfl, haccepts, hcount⟩ := h
  refine ⟨before, p, after, rfl, haccepts, le_trans (sum_le_sum fun q hq => ?_) hcount⟩
  exact hle q (mem_append_left _ (mem_of_mem_filter hq))

end Answers

end Astoria
