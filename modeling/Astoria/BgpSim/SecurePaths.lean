import Astoria.BgpSim.ValleyFree

/-!
# Secure paths

A node has a secure path for the deployment vector `S` if some path of the best sets from it to the
destination leads over members of `S` only.  The recomputation finds secure paths greedily: a node
in `S` follows a parent with a secure path whenever it has one.  This is enough, because security of
a path is security of its first hop and of the rest.

The recomputation returns exactly when every node finds somebody to choose (`CanChoose`): the
tie-break starts with the largest 32-bit number and never takes a parent whose key is that number.
-/

namespace Astoria

open List Option

/-- Some path of the best sets from `i` leads over members of `S` only. -/
def HasSecurePath (T : RouteTables) (S : Asn → Bool) (i : Asn) : Prop :=
  ∃ l, Layered.Path T.bestSet T.destination i l ∧ ∀ a ∈ l, S a = true

/-- Among the parents of `i` that the recomputation considers, one has a key below the largest
number.  If `i` is in `S` and some parents have secure paths, only these are considered. -/
def CanChoose (P : Params) (T : RouteTables) (S : Asn → Bool) (i : Asn) : Prop :=
  ∃ p ∈ T.bestSet i, tieBreakKey P i p ≠ uint32Max ∧
    (S i = true → (∃ q ∈ T.bestSet i, HasSecurePath T S q) → HasSecurePath T S p)

section SecurePaths

variable {P : Params} {g : NetworkGraph} {T : RouteTables} {S : Asn → Bool}

lemma hasSecurePath_root : HasSecurePath T S T.destination ↔ S T.destination = true := by
  constructor
  · rintro ⟨l, hl, hS⟩
    obtain ⟨l', rfl⟩ := hl.exists_cons
    exact hS _ (by simp)
  · exact fun h => ⟨[T.destination], .root, by simpa using h⟩

/-- Another node has a secure path if it is in `S` and some parent has a secure path. -/
lemma hasSecurePath_step {i : Asn} (hi : i ≠ T.destination) :
    HasSecurePath T S i ↔ S i = true ∧ ∃ p ∈ T.bestSet i, HasSecurePath T S p := by
  constructor
  · rintro ⟨l, hl, hS⟩
    cases hl with
    | root => exact absurd rfl hi
    | @step _ p l' _ hp hl' =>
      exact ⟨hS i (by simp), p, hp, l', hl', fun a ha => hS a (mem_cons_of_mem _ ha)⟩
  · rintro ⟨hSi, p, hp, l, hl, hS⟩
    refine ⟨i :: l, .step hi hp hl, fun a ha => ?_⟩
    rcases mem_cons.mp ha with rfl | ha
    · exact hSi
    · exact hS a ha

lemma HasSecurePath.mono {S' : Asn → Bool} (hSS' : ∀ a, S a = true → S' a = true) {i : Asn}
    (h : HasSecurePath T S i) : HasSecurePath T S' i := by
  obtain ⟨l, hl, hS⟩ := h
  exact ⟨l, hl, fun a ha => hSS' a (hS a ha)⟩

/-- Members of the tie-break set, when the flags of the parents say who has a secure path. -/
lemma mem_tieBreakSet {secP : Asn → Bool} {i p : Asn}
    (hflag : ∀ q ∈ T.bestSet i, secP q = true ↔ HasSecurePath T S q) :
    p ∈ tieBreakSet (S i) secP (T.bestSet i) ↔ p ∈ T.bestSet i ∧
      (S i = true → (∃ q ∈ T.bestSet i, HasSecurePath T S q) → HasSecurePath T S p) := by
  have hnil : (T.bestSet i).filter secP = [] ↔ ¬ ∃ q ∈ T.bestSet i, HasSecurePath T S q := by
    rw [filter_eq_nil_iff]
    constructor
    · rintro h ⟨q, hq, hs⟩
      exact h q hq ((hflag q hq).2 hs)
    · exact fun h q hq hs => h ⟨q, hq, (hflag q hq).1 hs⟩
  unfold tieBreakSet
  split_ifs with hSi hf
  · have hno := hnil.1 hf
    exact ⟨fun h => ⟨h, fun _ hq => absurd hq hno⟩, fun h => h.1⟩
  · have hex := not_not.mp (mt hnil.2 hf)
    rw [mem_filter]
    constructor
    · rintro ⟨hp, hs⟩
      exact ⟨hp, fun _ _ => (hflag p hp).1 hs⟩
    · rintro ⟨hp, hs⟩
      exact ⟨hp, (hflag p hp).2 (hs hSi hex)⟩
  · exact ⟨fun h => ⟨h, fun hc => absurd hc hSi⟩, fun h => h.1⟩

/-- Where the equations of all nodes above level `k` hold, the flags say who has a secure path. -/
lemma ValidTables.secP_iff (hv : ValidTables P g T) {t : Asn → NodeRoute} {k : ℕ}
    (hroot : (t T.destination).secP = S T.destination)
    (hstep : ∀ i, T.best i ≠ none → i ≠ T.destination → T.L i < k →
      updateRoute T P S t i = some (t i))
    {i : Asn} (hi : T.best i ≠ none) (hk : T.L i < k) :
    (t i).secP = true ↔ HasSecurePath T S i := by
  induction hl : T.L i using Nat.strongRecOn generalizing i with
  | ind l ih =>
    by_cases hne : i = T.destination
    · rw [hne, hroot, hasSecurePath_root]
    · obtain ⟨p, rest, hset, hp, -, -, heq⟩ :=
        (hv.updateRoute_eq_some hi).1 (hstep i hi hne hk)
      have hflag : ∀ q ∈ T.bestSet i, (t q).secP = true ↔ HasSecurePath T S q := by
        intro q hq
        obtain ⟨hbq, hL⟩ := hv.parent i hne q hq
        exact ih (T.L q) (by omega) hbq (by omega) rfl
      have hmem := (mem_tieBreakSet hflag (p := p)).1 (by rw [hset]; simp)
      rw [heq, Bool.and_eq_true, hflag p hp, hasSecurePath_step hne]
      constructor
      · rintro ⟨hs, hSi⟩
        exact ⟨hSi, p, hp, hs⟩
      · rintro ⟨hSi, hq⟩
        exact ⟨hmem.2 hSi hq, hSi⟩

lemma ValidTables.tieBreakKey_le (hv : ValidTables P g T) {i p : Asn} (hi : i ≠ T.destination)
    (hp : p ∈ T.bestSet i) : tieBreakKey P i p ≤ uint32Max :=
  tieBreakKey_le_of_lt (hv.lt p (hv.parent i hi p hp).1).1

/-- The recomputation returns exactly when everybody finds a parent. -/
lemma ValidTables.updatePaths_isSome_iff {D : Destination} (hv : ValidTables P g D.toRouteTables) :
    (∃ D', updatePaths P S D = some D') ↔
      ∀ i, D.best i ≠ none → i ≠ D.destination → CanChoose P D.toRouteTables S i := by
  constructor
  · rintro ⟨D', hD'⟩ i hi hne
    obtain ⟨⟨hroot, hstep⟩, hframe⟩ := hv.updatePaths_eq_some_iff.1 hD'
    rw [hframe.tables] at hroot hstep
    obtain ⟨p, rest, hset, hp, -, hkey, -⟩ := (hv.updateRoute_eq_some hi).1 (hstep i hi hne)
    have hflag : ∀ q ∈ D.bestSet i, (D'.route q).secP = true ↔
        HasSecurePath D.toRouteTables S q := by
      intro q hq
      have hbq := (hv.parent i hne q hq).1
      exact hv.secP_iff hroot (fun j hj hjne _ => hstep j hj hjne) hbq (hv.lt q hbq).2.1
    exact ⟨p, hp, ne_of_lt hkey, ((mem_tieBreakSet hflag).1 (by rw [hset]; simp)).2⟩
  · intro hcan
    rw [← isSome_iff_exists, isSome_iff_ne_none]
    intro hnone
    rw [hv.updatePaths_eq_sweep, map_eq_none_iff] at hnone
    obtain ⟨l, n, r, t, hl, ht, hn⟩ := Layered.exists_of_sweep_eq_none hnone
    have hone : 1 ≤ 1 := le_refl 1
    have hmem : n ∈ D.order 1 := by simp [hl]
    obtain ⟨hne, hbn, -⟩ := (hv.mem_order hone).1 hmem
    -- what comes before `n` satisfies its equations; this is everybody above the level of `n`
    have hsub : l.Sublist (D.order 1) := hl ▸ sublist_append_left l (n :: r)
    obtain ⟨hnd, hself, hpair⟩ := hv.ordered hone
    obtain ⟨hsol, hframe⟩ := (Layered.sweep_eq_some_iff hv.local_updateRoute
      ⟨hnd.sublist hsub, fun m hm => hself m (hsub.subset hm), hpair.sublist hsub⟩).1 ht
    have habove : ∀ i, D.best i ≠ none → i ≠ D.destination → D.L i < D.L n → i ∈ l := by
      intro i hi hine hlt
      have hmem : i ∈ D.order 1 := (hv.mem_order hone).2 ⟨hine, hi,
        Nat.one_le_iff_ne_zero.mpr fun h0 => hine (hv.graded.eq_root hi h0)⟩
      rw [hl, mem_append] at hmem
      rcases hmem with hmem | hmem
      · exact hmem
      · have hle := (hv.order_pairwise hone).2
        rw [hl, pairwise_append] at hle
        rcases mem_cons.mp hmem with rfl | hmem
        · omega
        · have := (pairwise_cons.mp hle.2.1).1 i hmem
          omega
    have hroot : (t D.destination).secP = S D.destination := by
      rw [hframe D.destination fun hc => ((hv.mem_order hone).1 (hsub.subset hc)).1 rfl,
        startRoutes, Function.update_self]
    have hflag : ∀ q ∈ D.bestSet n, (t q).secP = true ↔ HasSecurePath D.toRouteTables S q := by
      intro q hq
      obtain ⟨hbq, hL⟩ := hv.parent n hne q hq
      exact hv.secP_iff hroot (fun i hi hine hlt => hsol i (habove i hi hine hlt)) hbq
        (by omega : D.L q < D.L n)
    obtain ⟨q, hq, hkey, hsec⟩ := hcan n hbn hne
    obtain ⟨p, rest, hset, hp, ⟨hkeyp, hnew⟩ | ⟨hkeyp, -⟩⟩ := hv.newParent_eq (S := S) (t := t) hbn
    · refine absurd hn ?_
      have hlt := (hv.lt p (hv.parent n hne p hp).1).1
      simp [updateRoute, hbn, hnew, hlt]
    · -- the keys of the tie-break set increase, so that its first one is not the largest number
      have hmem := (mem_tieBreakSet hflag).2 ⟨hq, hsec⟩
      have hle := hv.tieBreakKey_le hne hq
      have hsorted := (hv.sorted n).sublist (tieBreakSet_sublist (S n) (fun p => (t p).secP) _)
      rw [hset] at hmem hsorted
      rcases mem_cons.mp hmem with rfl | hmem
      · omega
      · have := (pairwise_cons.mp hsorted).1 q hmem
        omega

lemma ValidTables.canChoose (hv : ValidTables P g T) {i : Asn} (hi : T.best i ≠ none)
    (hne : i ≠ T.destination) (hkeys : ∀ p ∈ T.bestSet i, tieBreakKey P i p ≠ uint32Max) :
    CanChoose P T S i := by
  by_cases hsec : ∃ q ∈ T.bestSet i, HasSecurePath T S q
  · obtain ⟨q, hq, hs⟩ := hsec
    exact ⟨q, hq, hkeys q hq, fun _ _ => hs⟩
  · obtain ⟨p, hp⟩ := exists_mem_of_ne_nil _ (hv.graded.parents_ne_nil i hi hne)
    exact ⟨p, hp, hkeys p hp, fun _ h => absurd h hsec⟩

end SecurePaths

/-- The security flags say whether the chosen path is secure, and whether any path is. -/
def SecureChoice (S : Asn → Bool) (D : Destination) : Prop :=
  ∀ i, D.best i ≠ none →
    (D.secP i = true ↔ ∃ path, D.chosenPath i = some path ∧ ∀ a ∈ pathAses path, S a = true) ∧
    (D.secP i = true ↔ HasSecurePath D.toRouteTables S i)

/-- All recomputations for `S`, whatever recomputations came before, return one and the same result,
in which the security flags, the security of the chosen paths and the existence of secure paths
agree, and which grows with `S`. -/
def RecomputesSecurely (P : Params) (m : MiniDestination) (S : Asn → Bool) : Prop :=
  ∃ D', (∀ D, Derived P m D → updatePaths P S D = some D') ∧ SecureChoice S D' ∧
    ∀ S' D D'', (∀ a, S a = true → S' a = true) → Derived P m D →
      updatePaths P S' D = some D'' → ∀ i, m.best i ≠ none → D'.secP i = true → D''.secP i = true

section Results

variable {P : Params} {g : NetworkGraph} {S : Asn → Bool} {D : Destination}

/-- A path that is chosen anew is secure if the node is in `S` and the rest is secure. -/
lemma Chosen.secureChoice (hc : Chosen P S D) (hv : ValidTables P g D.toRouteTables)
    (hroot : D.chosenPath D.destination = some [D.destination]) : SecureChoice S D := by
  have hpaths := hc.chosenPaths hv hroot
  have hlt := fun n (hn : D.best n ≠ none) => hv.lt n hn
  have hpath : ∀ i, D.best i ≠ none → ∃ path, D.chosenPath i = some path ∧
      (D.secP i = true ↔ ∀ a ∈ pathAses path, S a = true) := by
    intro i hi
    induction hl : D.L i using Nat.strongRecOn generalizing i with
    | ind l ih =>
      by_cases hne : i = D.destination
      · subst hne
        exact ⟨_, hroot, by simp [hc.secP_root, pathAses]⟩
      · obtain ⟨p, -, -, hp, -, -, heq⟩ := (hv.updateRoute_eq_some hi).1 (hc.step i hi hne)
        obtain ⟨hbp, hL⟩ := hv.parent i hne p hp
        obtain ⟨path, hpathp, hiff⟩ := ih (D.L p) (by omega) p hbp rfl
        obtain ⟨rest, rfl⟩ : ∃ rest, path = p :: rest := by
          obtain ⟨as, has, hpas, -⟩ := hpaths.exists_path hv.graded
            (fun n hn => ⟨(hlt n hn).1, (hlt n hn).2.2⟩) hbp
          obtain rfl := Option.some.inj (hpathp.symm.trans has)
          obtain ⟨l', hl'⟩ := hpas.exists_cons
          cases path with
          | nil => cases hl'
          | cons a rest => exact ⟨rest, by rw [(List.cons.inj hl').1]⟩
        have hpn : p ≠ i := by
          rintro rfl
          omega
        have hsec : D.secP i = (D.secP p && S i) := congrArg NodeRoute.secP heq
        have hpathi : D.chosenPath i = some (i :: join p (D.bestRelation i) :: rest) := by
          have := congrArg NodeRoute.path heq
          simpa [Destination.route, hpathp, updatePath, hpn] using this
        refine ⟨_, hpathi, ?_⟩
        have hases : pathAses (i :: join p (D.bestRelation i) :: rest) =
            i :: pathAses (p :: rest) := by
          simp [pathAses, unjoin_join (hlt p hbp).1 (hlt i hi).2.2]
        rw [hases, hsec, Bool.and_eq_true, hiff, forall_mem_cons, and_comm]
  intro i hi
  obtain ⟨path, hpi, hiff⟩ := hpath i hi
  refine ⟨?_, ?_⟩
  · rw [hiff, hpi]
    simp
  · exact hv.secP_iff (t := D.route) hc.secP_root (fun j hj hne _ => hc.step j hj hne) hi
      (hv.lt i hi).2.1

/-- **Secure paths are found.**  The recomputations for `S` find the secure paths of an initialised
destination exactly when every node can choose a parent. -/
theorem recomputesSecurely_iff (P : Params) (g : NetworkGraph) (d : Asn) (readOnly : Bool)
    (m : MiniDestination) (h : initMiniDestination P g d readOnly = some m) (S : Asn → Bool) :
    RecomputesSecurely P m S ↔
      ∀ i, m.best i ≠ none → i ≠ d → CanChoose P m.toRouteTables S i := by
  have hv := validTables_initMiniDestination h
  obtain ⟨-, -, rfl, -⟩ := exists_routingTree h
  have hreturns := hv.updatePaths_isSome_iff (S := S) (D := Destination.ofMiniDestination m)
  -- what any recomputation leaves
  have hsecure : ∀ S D D', Derived P m D → updatePaths P S D = some D' →
      SecureChoice S D' ∧ D'.toRouteTables = m.toRouteTables := by
    intro S D D' hD hD'
    have hderived := hD.updated hD'
    have htab := hderived.tables hv
    refine ⟨?_, htab⟩
    refine ((hD.valid hv).updatePaths_eq_some_iff.1 hD').1.secureChoice (hderived.valid hv) ?_
    rw [htab]
    exact hderived.path_root hv
  constructor
  · rintro ⟨D', hD', -⟩
    exact hreturns.1 ⟨D', hD' _ .init⟩
  · intro hcan
    obtain ⟨D', hD'⟩ := hreturns.2 hcan
    obtain ⟨hsec, htab⟩ := hsecure S _ D' .init hD'
    refine ⟨D', fun D hD => (hD.updatePaths_eq hv S).trans hD', hsec, ?_⟩
    intro S' D D'' hSS' hD hD'' i hi hflag
    obtain ⟨hsec', htab'⟩ := hsecure S' D D'' hD hD''
    have hpath := (hsec i (by rw [htab]; exact hi)).2.1 hflag
    rw [htab] at hpath
    refine (hsec' i (by rw [htab']; exact hi)).2.2 ?_
    rw [htab']
    exact hpath.mono hSS'

/-- The theorem at a graph of a customer and its provider, where the provider takes part. -/
theorem recomputesSecurely_iff_two_nodes :
    ∃ m, initMiniDestination {} (processCyclopsFile ["1\t2\tc2p".toList]) 1 false = some m ∧
      (RecomputesSecurely {} m (fun a => a = 2) ↔
        ∀ i, m.best i ≠ none → i ≠ 1 → CanChoose {} m.toRouteTables (fun a => a = 2) i) := by
  have hsome : (initMiniDestination {} (processCyclopsFile ["1\t2\tc2p".toList]) 1
      false).isSome = true := by
    decide +kernel
  obtain ⟨m, hm⟩ := isSome_iff_exists.mp hsome
  exact ⟨m, hm, recomputesSecurely_iff {} _ 1 false m hm _⟩

/-- The only parent of AS 4647 is AS 172245, and its key is the largest 32-bit number.  The
recomputation chooses nobody and stops with an index outside the arrays. -/
theorem not_recomputesSecurely_largest_key :
    ∃ m, initMiniDestination {} (processCyclopsFile ["4647\t172245\tc2p".toList]) 172245 false =
      some m ∧ ¬ RecomputesSecurely {} m (fun _ => false) := by
  have hsome : (initMiniDestination {} (processCyclopsFile ["4647\t172245\tc2p".toList]) 172245
      false).isSome = true := by
    decide +kernel
  obtain ⟨m, hm⟩ := isSome_iff_exists.mp hsome
  have hnone : ((initMiniDestination {} (processCyclopsFile ["4647\t172245\tc2p".toList]) 172245
      false).bind fun m =>
        updatePaths {} (fun _ => false) (Destination.ofMiniDestination m)).isNone =
        true := by
    decide +kernel
  refine ⟨m, hm, ?_⟩
  rintro ⟨D', hD', -⟩
  rw [hm, bind_some, hD' _ .init] at hnone
  cases hnone

end Results

end Astoria
