import Astoria.TorClient.ConsensusRouters

/-!
# The consensus lists what most votes say

The counters of the flags count votes, although each vote stores its flags at positions of its own.
With the passes over all votes (`KWayMerge.exists_mergeLoop`) this says which routers the consensus
lists and with which flags (`consensus_routers_majority`).
-/

namespace Astoria

open List Option Function

def RouterVote.lists (v : RouterVote) (id : Digest) : Bool :=
  v.routerstatusList.any fun rs => rs.identityDigest == id

/-- Whether a vote gives a flag to a router. -/
def RouterVote.assigns (v : RouterVote) (id : Digest) (flag : String) : Bool :=
  v.routerstatusList.any fun rs => rs.identityDigest == id && hasFlag v rs flag

def RouterVote.knows (v : RouterVote) (flag : String) : Bool := decide (flag ∈ v.knownFlags)

/-! ### The flags of all votes -/

section Flags

variable {votes : List RouterVote} {flag : String}

/-- Removing adjacent duplicates keeps the members. -/
lemma mem_smartlistUniqStrings {l : List String} {a : String} :
    a ∈ smartlistUniqStrings l ↔ a ∈ l := by
  induction l with
  | nil => exact Iff.rfl
  | cons b l ih =>
    rw [smartlistUniqStrings]
    split_ifs with hhead
    · rw [ih, mem_cons]
      refine ⟨.inr, fun h => h.elim (fun hab => ?_) id⟩
      rw [hab]
      exact mem_of_head? hhead
    · rw [mem_cons, mem_cons, ih]

/-- In a sorted list, no duplicates are left. -/
lemma nodup_smartlistUniqStrings {l : List String} (h : l.Pairwise (· ≤ ·)) :
    (smartlistUniqStrings l).Nodup := by
  induction l with
  | nil => exact nodup_nil
  | cons a l ih =>
    obtain ⟨ha, hl⟩ := pairwise_cons.mp h
    rw [smartlistUniqStrings]
    split_ifs with hhead
    · exact ih hl
    · refine nodup_cons.mpr ⟨fun hmem => ?_, ih hl⟩
      rw [mem_smartlistUniqStrings] at hmem
      cases l with
      | nil => cases hmem
      | cons b l =>
        have hne : b ≠ a := fun hba => hhead (by rw [hba]; rfl)
        rcases mem_cons.mp hmem with rfl | hmem
        · exact hne rfl
        · have hba : b ≤ a := (pairwise_cons.mp hl).1 a hmem
          exact hne (le_antisymm hba (ha b mem_cons_self))

lemma nodup_consensusFlags (votes : List RouterVote) : (consensusFlags votes).Nodup :=
  nodup_smartlistUniqStrings (pairwise_insertionSort (· ≤ ·) _)

lemma mem_consensusFlags : flag ∈ consensusFlags votes ↔ ∃ v ∈ votes, flag ∈ v.knownFlags := by
  unfold consensusFlags
  rw [mem_smartlistUniqStrings, mem_insertionSort, mem_flatMap]

end Flags

/-! ### Counting -/

section Counting

lemma foldl_increment (l : List ℕ) (counts : ℕ → ℕ) (p : ℕ) :
    l.foldl increment counts p = counts p + l.count p := by
  induction l generalizing counts with
  | nil => rfl
  | cons i l ih =>
    rw [foldl_cons, ih, count_cons, increment]
    by_cases hp : p = i
    · rw [hp, update_self, if_pos (beq_self_eq_true i)]
      omega
    · rw [update_of_ne hp, if_neg fun h => hp (beq_iff_eq.mp h).symm]
      omega

variable {flags : List String} {flag : String}

/-- The position of a flag among all flags occurs once for each vote that knows it. -/
lemma count_flagMap (v : RouterVote) (hv : ∀ f ∈ v.knownFlags, f ∈ flags) :
    (flagMap flags v).count (flags.idxOf flag) = if v.knows flag then 1 else 0 := by
  have hnodup : v.knownFlags.Nodup := v.knownFlags_sorted.imp fun h => ne_of_lt h
  have hcount : (flagMap flags v).count (flags.idxOf flag) = v.knownFlags.count flag := by
    unfold flagMap count
    rw [countP_map]
    refine countP_congr fun f hf => ?_
    rw [Function.comp_apply, beq_iff_eq, beq_iff_eq]
    exact idxOf_inj (hv f hf)
  rw [hcount, hnodup.count]
  unfold RouterVote.knows
  simp only [decide_eq_true_eq]

/-- **The number of votes that know a flag.** -/
lemma nFlagVoters_idxOf (flag : String) {votes : List RouterVote}
    (hvotes : ∀ v ∈ votes, ∀ f ∈ v.knownFlags, f ∈ flags) :
    nFlagVoters flags votes (flags.idxOf flag) = votes.countP (·.knows flag) := by
  unfold nFlagVoters
  induction votes using reverseRecOn with
  | nil => rfl
  | append_singleton votes v ih =>
    rw [foldl_append, foldl_cons, foldl_nil, foldl_increment,
      ih fun v' hv' => hvotes v' (mem_append_left _ hv'),
      count_flagMap v (hvotes v (mem_append_right _ mem_cons_self)),
      countP_append, countP_singleton]

/-- The flag at a position of its own, if the bit there is set. -/
lemma countP_zipIdx {known : List String} (hnodup : known.Nodup) (flag : String) (bit : ℕ → Bool)
    (k : ℕ) : (known.zipIdx k).countP (fun p => p.1 == flag && bit p.2) =
      if (known.idxOf? flag).any fun i => bit (k + i) then 1 else 0 := by
  induction known generalizing k with
  | nil => rfl
  | cons a known ih =>
    obtain ⟨ha, hnodup⟩ := nodup_cons.mp hnodup
    rw [zipIdx_cons, countP_cons, ih hnodup, idxOf?_cons]
    by_cases hflag : a = flag
    · have hnone : known.idxOf? flag = none := by
        rw [idxOf?_eq_none_iff]
        rwa [← hflag]
      rw [hnone, hflag]
      simp
    · have hne : (a == flag) = false := beq_eq_false_iff_ne.mpr hflag
      rw [hne]
      cases known.idxOf? flag with
      | none => simp
      | some i =>
        simp only [Bool.false_and, Bool.false_eq_true, if_false, any_some, map_some,
          add_zero]
        rw [show k + (i + 1) = k + 1 + i by omega]

/-- A conditional tally is a tally of those that meet the condition. -/
lemma foldl_increment_if (l : List (ℕ × ℕ)) (bit : ℕ → Bool) (counts : ℕ → ℕ) (p : ℕ) :
    l.foldl (fun counts q => if bit q.2 then increment counts q.1 else counts) counts p =
      counts p + l.countP fun q => q.1 == p && bit q.2 := by
  induction l generalizing counts with
  | nil => rfl
  | cons q l ih =>
    rw [foldl_cons, ih, countP_cons]
    cases hbit : bit q.2 with
    | false =>
      rw [if_neg Bool.false_ne_true, Bool.and_false, if_neg Bool.false_ne_true]
      rfl
    | true =>
      rw [if_pos rfl, Bool.and_true, increment]
      by_cases hp : p = q.1
      · rw [hp, update_self, if_pos (beq_self_eq_true _)]
        omega
      · rw [update_of_ne hp, if_neg fun h => hp (beq_iff_eq.mp h).symm]
        omega

/-- **One router in one vote** adds one to the counter of each flag that it has. -/
lemma tallyFlags_idxOf (counts : ℕ → ℕ) (v : RouterVote) (rs : VoteRouterstatus)
    (hv : ∀ f ∈ v.knownFlags, f ∈ flags) :
    tallyFlags flags counts (v, rs) (flags.idxOf flag) =
      counts (flags.idxOf flag) + if hasFlag v rs flag then 1 else 0 := by
  have hnodup : v.knownFlags.Nodup := v.knownFlags_sorted.imp fun h => ne_of_lt h
  have hcount : (flagMap flags v).zipIdx.countP
      (fun q => q.1 == flags.idxOf flag && rs.flags.getLsbD q.2) =
        v.knownFlags.zipIdx.countP fun q => q.1 == flag && rs.flags.getLsbD q.2 := by
    unfold flagMap
    rw [zipIdx_map, countP_map]
    refine countP_congr fun q hq => ?_
    have hmem : q.1 ∈ flags := hv q.1 (fst_mem_of_mem_zipIdx hq)
    have hiff : flags.idxOf q.1 = flags.idxOf flag ↔ q.1 = flag := idxOf_inj hmem
    simp only [Function.comp_apply, Prod.map_fst, Prod.map_snd, id_eq, Bool.and_eq_true,
      beq_iff_eq, hiff]
  unfold tallyFlags
  rw [foldl_increment_if _ rs.flags.getLsbD, hcount, countP_zipIdx hnodup]
  unfold hasFlag
  cases v.knownFlags.idxOf? flag with
  | none => rfl
  | some i => rw [any_some, zero_add]

/-- **The number of votes that give a flag to a router.** -/
lemma flagCounts_idxOf {entries : List (RouterVote × VoteRouterstatus)}
    (hentries : ∀ e ∈ entries, ∀ f ∈ e.1.knownFlags, f ∈ flags) :
    flagCounts flags entries (flags.idxOf flag) = entries.countP fun e => hasFlag e.1 e.2 flag := by
  unfold flagCounts
  induction entries using reverseRecOn with
  | nil => rfl
  | append_singleton entries e ih =>
    rw [foldl_append, foldl_cons, foldl_nil,
      tallyFlags_idxOf _ e.1 e.2 (hentries e (mem_append_right _ mem_cons_self)),
      ih fun e' he' => hentries e' (mem_append_left _ he'), countP_append,
      countP_singleton]

end Counting

/-! ### The most popular entry -/

section Popular

/-- Runs of entries that were taken from a list. -/
structure MostPopular.Within (l : List VoteRouterstatus) (s : MostPopular) : Prop where
  cur : ∀ rs, s.cur = some rs → rs ∈ l ∧ 0 < s.curN
  most : ∀ rs, s.most = some rs → rs ∈ l
  mostN : s.most = none → s.mostN = 0

variable {l : List VoteRouterstatus} {s : MostPopular}

/-- Closing a run keeps the entries in the list. -/
lemma MostPopular.Within.close (h : s.Within l) : s.close.Within l := by
  unfold MostPopular.close
  cases hcur : s.cur with
  | none => exact h
  | some cur =>
    dsimp only
    split_ifs
    · refine ⟨fun rs hrs => h.cur rs (hcur ▸ hrs), fun rs hrs => ?_, nofun⟩
      rw [← some.inj hrs]
      exact (h.cur cur hcur).1
    · exact h

/-- After a run there is a best entry. -/
lemma MostPopular.Within.isSome_close (h : s.Within l) {cur : VoteRouterstatus}
    (hcur : s.cur = some cur) :
    s.close.most.isSome := by
  unfold MostPopular.close
  rw [hcur]
  dsimp only
  split_ifs with hbetter
  · rfl
  · rw [isSome_iff_ne_none]
    intro hnone
    rw [h.mostN hnone] at hbetter
    exact hbetter (.inl (h.cur cur hcur).2)

lemma MostPopular.Within.next (h : s.Within l) (rs : VoteRouterstatus) :
    (s.next rs).Within (l ++ [rs]) ∧ (s.next rs).cur.isSome := by
  have hmost : ∀ rs', s.most = some rs' → rs' ∈ l ++ [rs] :=
    fun rs' hrs' => mem_append_left _ (h.most rs' hrs')
  have hclosed : ∀ rs', s.close.most = some rs' → rs' ∈ l ++ [rs] :=
    fun rs' hrs' => mem_append_left _ (h.close.most rs' hrs')
  have hlast : rs ∈ l ++ [rs] := mem_append_right _ mem_cons_self
  unfold MostPopular.next
  cases hcur : s.cur with
  | none =>
    refine ⟨⟨fun rs' hrs' => ?_, hmost, h.mostN⟩, rfl⟩
    rw [← some.inj hrs']
    exact ⟨hlast, Nat.one_pos⟩
  | some cur =>
    dsimp only
    split_ifs
    · refine ⟨⟨fun rs' hrs' => ?_, hmost, h.mostN⟩, rfl⟩
      rw [← some.inj hrs']
      exact ⟨mem_append_left _ (h.cur cur hcur).1, Nat.succ_pos _⟩
    · refine ⟨⟨fun rs' hrs' => ?_, hclosed, h.close.mostN⟩, rfl⟩
      rw [← some.inj hrs']
      exact ⟨hlast, Nat.one_pos⟩

/-- **There is a most popular entry** among some entries. -/
lemma exists_computeRouterstatusConsensus (hne : l ≠ []) :
    ∃ rs ∈ l, computeRouterstatusConsensus l = some rs := by
  have hrun :
      ∀ l : List VoteRouterstatus, (l.foldl MostPopular.next ⟨none, 0, none, 0, 0⟩).Within l ∧
      (l ≠ [] → (l.foldl MostPopular.next ⟨none, 0, none, 0, 0⟩).cur.isSome) := by
    intro l
    induction l using reverseRecOn with
    | nil => exact ⟨⟨nofun, nofun, fun _ => rfl⟩, fun h => absurd rfl h⟩
    | append_singleton l rs ih =>
      rw [foldl_append, foldl_cons, foldl_nil]
      obtain ⟨hwithin, hsome⟩ := ih.1.next rs
      exact ⟨hwithin, fun _ => hsome⟩
  obtain ⟨hwithin, hsome⟩ := hrun l
  obtain ⟨cur, hcur⟩ := isSome_iff_exists.mp (hsome hne)
  obtain ⟨rs, hrs⟩ := isSome_iff_exists.mp (hwithin.isSome_close hcur)
  exact ⟨rs, hwithin.close.most rs hrs, hrs⟩

end Popular

/-! ### One router -/

section Router

variable {votes : List RouterVote} {total : ℕ} {id : Digest} {flag : String}

def routerEntries (votes : List RouterVote) (id : Digest) : List (RouterVote × VoteRouterstatus) :=
  votes.filterMap fun v => (v.routerstatusList.find? fun rs => rs.identityDigest = id).map (v, ·)

lemma mem_routerEntries {e : RouterVote × VoteRouterstatus} (h : e ∈ routerEntries votes id) :
    e.1 ∈ votes ∧ e.2 ∈ e.1.routerstatusList ∧ e.2.identityDigest = id := by
  obtain ⟨v, hv, hfind⟩ := mem_filterMap.mp h
  obtain ⟨rs, hrs, rfl⟩ := map_eq_some_iff.mp hfind
  exact ⟨hv, mem_of_find?_eq_some hrs, by simpa using find?_some hrs⟩

/-- The number of entries of a router that have a property is the number of votes in which one
has. -/
lemma countP_routerEntries (votes : List RouterVote) (id : Digest)
    (p : RouterVote → VoteRouterstatus → Bool) :
    (routerEntries votes id).countP (fun e => p e.1 e.2) =
      votes.countP fun v => v.routerstatusList.any fun rs => rs.identityDigest == id && p v rs := by
  unfold routerEntries
  induction votes with
  | nil => rfl
  | cons v votes ih =>
    rw [filterMap_cons, countP_cons]
    -- the entry that is found is the only one of the router
    have hany : (v.routerstatusList.any fun rs => rs.identityDigest == id && p v rs) =
        ((v.routerstatusList.find? fun rs => rs.identityDigest = id).any fun rs => p v rs) := by
      cases hfind : v.routerstatusList.find? fun rs => rs.identityDigest = id with
      | none =>
        rw [find?_eq_none] at hfind
        rw [any_none, List.any_eq_false]
        intro rs hrs
        have hne : rs.identityDigest ≠ id := by simpa using hfind rs hrs
        rw [beq_eq_false_iff_ne.mpr hne, Bool.false_and]
        exact Bool.false_ne_true
      | some rs =>
        have hrs : rs ∈ v.routerstatusList := mem_of_find?_eq_some hfind
        have hid : rs.identityDigest = id := by simpa using find?_some hfind
        have hunique : ∀ rs' ∈ v.routerstatusList, rs'.identityDigest = id → rs' = rs :=
          fun rs' hrs' hid' => inj_on_of_nodup_map
            (pairwise_map.mpr (v.routers_sorted.imp fun h => ne_of_lt h)) hrs' hrs
              (hid'.trans hid.symm)
        rw [any_some, Bool.eq_iff_iff, List.any_eq_true]
        constructor
        · rintro ⟨rs', hrs', hp⟩
          rw [Bool.and_eq_true, beq_iff_eq] at hp
          rw [← hunique rs' hrs' hp.1]
          exact hp.2
        · intro hp
          exact ⟨rs, hrs, by rw [hid, beq_self_eq_true, Bool.true_and]; exact hp⟩
    rw [hany]
    cases v.routerstatusList.find? fun rs => rs.identityDigest = id with
    | none =>
      rw [map_none, any_none, if_neg Bool.false_ne_true, add_zero]
      exact ih
    | some rs =>
      rw [map_some, any_some]
      dsimp only
      rw [countP_cons, ih]

lemma length_routerEntries : (routerEntries votes id).length = votes.countP (·.lists id) := by
  have hcount := countP_routerEntries votes id fun _ _ => true
  rw [countP_true] at hcount
  rw [hcount]
  refine countP_congr fun v _ => ?_
  unfold RouterVote.lists
  simp only [Bool.and_true]

/-- A router is listed by more than half of the authorities, and is running according to more than
half of the votes that know about it. -/
def InConsensus (votes : List RouterVote) (totalAuthorities : ℕ) (id : Digest) : Prop :=
  totalAuthorities < 2 * votes.countP (·.lists id) ∧
    votes.countP (·.knows "Running") < 2 * votes.countP (·.assigns id "Running")

/-- **A flag is chosen** if more than half of the votes that know it give it to the router. -/
lemma flagIsChosen_iff {isNamed isUnnamed : Bool} (hnamed : flag ≠ "Named")
    (hunnamed : flag ≠ "Unnamed") : flag ∈ (((consensusFlags votes).zipIdx.filter (flagIsChosen
        (flagCounts (consensusFlags votes) (routerEntries votes id))
        (nFlagVoters (consensusFlags votes) votes) isNamed isUnnamed)).map (·.1)) ↔
      votes.countP (·.knows flag) < 2 * votes.countP (·.assigns id flag) := by
  have hknown : ∀ v ∈ votes, ∀ f ∈ v.knownFlags, f ∈ consensusFlags votes :=
    fun v hv f hf => mem_consensusFlags.mpr ⟨v, hv, hf⟩
  have hcounts : flagCounts (consensusFlags votes) (routerEntries votes id)
      ((consensusFlags votes).idxOf flag) = votes.countP (·.assigns id flag) := by
    rw [flagCounts_idxOf fun e he => hknown e.1 (mem_routerEntries he).1]
    exact countP_routerEntries votes id fun v rs => hasFlag v rs flag
  have hvoters := nFlagVoters_idxOf flag hknown
  have hhalf : ∀ m n : ℕ, n / 2 < m ↔ n < 2 * m := fun m n => by omega
  rw [List.mem_map]
  constructor
  · rintro ⟨⟨f, i⟩, hmem, rfl⟩
    obtain ⟨hmem, hchosen⟩ := mem_filter.mp hmem
    have hi : i = (consensusFlags votes).idxOf f := by
      obtain ⟨hlt, hget⟩ := mk_mem_zipIdx_iff_getElem?.mp hmem |> List.getElem?_eq_some_iff.mp
      rw [← hget, (nodup_consensusFlags votes).idxOf_getElem]
    unfold flagIsChosen at hchosen
    rw [if_neg hnamed, if_neg hunnamed, decide_eq_true_eq, hi, hcounts, hvoters, hhalf] at hchosen
    exact hchosen
  · intro hmajority
    have hmem : flag ∈ consensusFlags votes := by
      by_contra hnot
      have hzero : votes.countP (·.assigns id flag) = 0 := by
        rw [countP_eq_zero]
        intro v hv hassigns
        obtain ⟨rs, -, hrs⟩ := List.any_eq_true.mp hassigns
        rw [Bool.and_eq_true] at hrs
        have hflag : flag ∉ v.knownFlags := fun hf => hnot (hknown v hv flag hf)
        unfold hasFlag at hrs
        rw [idxOf?_eq_none_iff.mpr hflag] at hrs
        exact absurd hrs.2 Bool.false_ne_true
      omega
    have hlt : (consensusFlags votes).idxOf flag < (consensusFlags votes).length :=
      idxOf_lt_length_iff.mpr hmem
    refine ⟨(flag, (consensusFlags votes).idxOf flag), mem_filter.mpr ⟨?_, ?_⟩, rfl⟩
    · rw [mk_mem_zipIdx_iff_getElem?, getElem?_eq_getElem hlt, getElem_idxOf]
    · unfold flagIsChosen
      rw [if_neg hnamed, if_neg hunnamed, decide_eq_true_eq, hcounts, hvoters, hhalf]
      exact hmajority

/-- **One router**: its entry is written if it is in the consensus, with its flags, and no assertion
fails. -/
lemma consensusRouter_spec (sort : SmartlistSort VoteRouterstatus) (votes : List RouterVote)
    (total : ℕ) (id : Digest) :
    (¬ InConsensus votes total id ∧ consensusRouter sort votes total id
        (routerEntries votes id) = none) ∨
      (InConsensus votes total id ∧ ∃ r, consensusRouter sort votes total
          id (routerEntries votes id) = some (some r) ∧ r.identityDigest = id ∧
        ∀ flag, flag ≠ "Named" → flag ≠ "Unnamed" → (flag ∈ r.chosenFlags ↔
          votes.countP (·.knows flag) < 2 * votes.countP (·.assigns id flag))) := by
  unfold consensusRouter InConsensus
  rw [length_routerEntries]
  by_cases hlisted : votes.countP (·.lists id) ≤ total / 2
  · rw [if_pos hlisted]
    exact .inl ⟨fun h => absurd h.1 (by omega), rfl⟩
  · rw [if_neg hlisted]
    have hperm := sort.perm compareVoteRs ((routerEntries votes id).map (·.2))
    have hne : sort.sort compareVoteRs ((routerEntries votes id).map (·.2)) ≠ [] := by
      intro hnil
      rw [hnil, nil_perm, map_eq_nil_iff, ← length_eq_zero_iff, length_routerEntries] at hperm
      omega
    obtain ⟨rs, hrs, hpopular⟩ := exists_computeRouterstatusConsensus hne
    obtain ⟨e, he, rfl⟩ := List.mem_map.mp (hperm.mem_iff.mp hrs)
    have hid := (mem_routerEntries he).2.2
    dsimp only
    rw [hpopular]
    dsimp only
    rw [if_neg (not_not.mpr hid)]
    by_cases hrunning : votes.countP (·.knows "Running") < 2 * votes.countP (·.assigns id "Running")
    · rw [if_pos ((flagIsChosen_iff (by decide) (by decide)).mpr hrunning)]
      exact .inr ⟨⟨by omega, hrunning⟩, _, rfl, rfl,
        fun flag hnamed hunnamed => flagIsChosen_iff hnamed hunnamed⟩
    · rw [if_neg fun h => hrunning ((flagIsChosen_iff (by decide) (by decide)).mp h)]
      exact .inl ⟨fun h => hrunning h.2, rfl⟩

lemma filterMap_lookup_voteCursors (votes : List RouterVote) (id : Digest) :
    (voteCursors votes).filterMap (KWayMerge.Cursor.lookup VoteRouterstatus.identityDigest id) =
      routerEntries votes id := by
  unfold voteCursors routerEntries
  rw [filterMap_map]
  rfl

/-- What an entry that is written says about the votes. -/
lemma consensusRouter_eq {sort : SmartlistSort VoteRouterstatus} {entries} {r : ConsensusRouter}
    (h : consensusRouter sort votes total id entries = some (some r)) :
    r.identityDigest = id ∧ r.listed = entries.map (·.2) ∧
      r.matchingDescs = sort.sort compareVoteRs r.listed ∧
      computeRouterstatusConsensus r.matchingDescs = some r.rs ∧ r.rs.identityDigest = id := by
  unfold consensusRouter at h
  dsimp only at h
  split_ifs at h
  cases hrs : computeRouterstatusConsensus
      (sort.sort compareVoteRs (entries.map (·.2))) with
  | none =>
    rw [hrs] at h
    cases h
  | some rs =>
    rw [hrs] at h
    dsimp only at h
    split_ifs at h with hid
    · cases h
    · obtain rfl := some.inj (some.inj h)
      exact ⟨rfl, rfl, rfl, hrs, not_not.mp hid⟩

/-- The routers that are emitted for some identities, without failed assertions. -/
lemma exists_mapM_filterMap (sort : SmartlistSort VoteRouterstatus) (votes : List RouterVote)
    (total : ℕ) {ids : List Digest} (hids : ids.Pairwise (· < ·)) :
    ∃ routers, (ids.filterMap fun id => consensusRouter sort votes total id
        (routerEntries votes id)).mapM (fun r => r) = some routers ∧
      (routers.map (·.identityDigest)).Sublist ids ∧
      (∀ id, id ∈ routers.map (·.identityDigest) ↔ id ∈ ids ∧ InConsensus votes total id) ∧
      ∀ r ∈ routers, consensusRouter sort votes total r.identityDigest
        (routerEntries votes r.identityDigest) = some (some r) := by
  induction ids with
  | nil => exact ⟨[], rfl, Sublist.refl _, fun id => by simp, nofun⟩
  | cons i ids ih =>
    obtain ⟨routers, hmap, hsub, hmem, hrouters⟩ := ih (pairwise_cons.mp hids).2
    rcases consensusRouter_spec sort votes total i with
      ⟨hnot, hnone⟩ | ⟨hin, r, hr, hid, -⟩
    · refine ⟨routers, ?_, hsub.cons i, fun id => ?_, hrouters⟩
      · rw [filterMap_cons, hnone]
        exact hmap
      · rw [hmem, mem_cons]
        refine ⟨fun h => ⟨.inr h.1, h.2⟩, fun h => ⟨h.1.resolve_left fun heq => ?_, h.2⟩⟩
        exact hnot (heq ▸ h.2)
    · refine ⟨r :: routers, ?_, ?_, fun id => ?_, fun r' hr' => ?_⟩
      · rw [filterMap_cons, hr]
        dsimp only
        rw [mapM_cons, hmap]
        rfl
      · rw [map_cons, hid]
        exact hsub.cons_cons i
      · rw [map_cons, mem_cons, hmem, hid, mem_cons]
        constructor
        · rintro (rfl | h)
          · exact ⟨.inl rfl, hin⟩
          · exact ⟨.inr h.1, h.2⟩
        · rintro ⟨rfl | h, hin'⟩
          · exact .inl rfl
          · exact .inr ⟨h, hin'⟩
      · rcases mem_cons.mp hr' with rfl | hr'
        · rw [hid]
          exact hr
        · exact hrouters r' hr'

/-- **The routers of a consensus**: no assertion fails, and they are the ones that enough votes list
and call running, in ascending order. -/
lemma exists_consensusRouters (sort : SmartlistSort VoteRouterstatus)
    (votes : List RouterVote) (total : ℕ) :
    ∃ routers, consensusRouters sort votes total = some routers ∧
      (routers.map (·.identityDigest)).Pairwise (· < ·) ∧
      (∀ id, id ∈ routers.map (·.identityDigest) ↔ InConsensus votes total id) ∧
      ∀ r ∈ routers, consensusRouter sort votes total r.identityDigest
        (routerEntries votes r.identityDigest) = some (some r) := by
  have hsorted : ∀ c ∈ voteCursors votes, c.Sorted VoteRouterstatus.identityDigest := by
    intro c hc
    obtain ⟨v, -, rfl⟩ := List.mem_map.mp hc
    exact v.routers_sorted
  have hpasses : KWayMerge.remaining (voteCursors votes) < mergePasses votes := by
    unfold KWayMerge.remaining voteCursors mergePasses
    rw [List.map_map]
    exact Nat.lt_succ_self _
  obtain ⟨ids, hids, hmemids, hloop⟩ := KWayMerge.exists_mergeLoop
    (consensusRouter sort votes total) hsorted hpasses
  simp only [filterMap_lookup_voteCursors] at hloop
  obtain ⟨routers, hmap, hsub, hmem, hrouters⟩ :=
    exists_mapM_filterMap sort votes total hids
  refine ⟨routers, ?_, hids.sublist hsub, fun id => ?_, hrouters⟩
  · unfold consensusRouters
    rw [hloop]
    exact hmap
  · rw [hmem]
    refine ⟨And.right, fun h => ⟨?_, h⟩⟩
    -- a router of the consensus is in some vote
    have hpos : 0 < votes.countP (·.lists id) := by
      have hlisted := h.1
      omega
    obtain ⟨v, hv, hlists⟩ := countP_pos_iff.mp hpos
    obtain ⟨rs, hrs, hid⟩ := List.any_eq_true.mp hlists
    exact (hmemids id).mpr ⟨⟨v, v.routerstatusList, 0⟩, List.mem_map_of_mem hv, rs, hrs,
      beq_iff_eq.mp hid⟩

end Router

/-- **The consensus lists what most votes say.**  A router is listed, once, if and only if more than
half of the authorities list it and more than half of the votes that know the flag call it running.
The routers are in ascending order of their identities.  Apart from the two flags about names, a
router has a flag if and only if more than half of the votes that know the flag give it to the
router. -/
theorem consensus_routers_majority (smartlistSort : SmartlistSort VoteRouterstatus)
    (votes : List RouterVote) (totalAuthorities : ℕ) :
    ∃ routers, consensusRouters smartlistSort votes totalAuthorities = some routers ∧
      (routers.map (·.identityDigest)).Pairwise (· < ·) ∧
      (∀ id, (routers.map (·.identityDigest)).count id = 1 ↔
        InConsensus votes totalAuthorities id) ∧
      ∀ r ∈ routers, ∀ flag, flag ≠ "Named" → flag ≠ "Unnamed" → (flag ∈ r.chosenFlags ↔
        votes.countP (·.knows flag) < 2 * votes.countP (·.assigns r.identityDigest flag)) := by
  obtain ⟨routers, hrun, hpairwise, hmem, hrouters⟩ :=
    exists_consensusRouters smartlistSort votes totalAuthorities
  refine ⟨routers, hrun, hpairwise, fun id => ?_, fun r hr => ?_⟩
  · have hnodup : (routers.map (·.identityDigest)).Nodup := hpairwise.imp fun h => ne_of_lt h
    rw [hnodup.count, ← hmem]
    simp only [ite_eq_left_iff, zero_ne_one, imp_false, not_not]
  · rcases consensusRouter_spec smartlistSort votes totalAuthorities r.identityDigest with
      ⟨-, hnone⟩ | ⟨-, r', hr', -, hflag⟩
    · rw [hrouters r hr] at hnone
      cases hnone
    · rw [hrouters r hr] at hr'
      obtain rfl := Option.some.inj (Option.some.inj hr')
      exact hflag

end Astoria
