import Mathlib
import Astoria.TorClient.EntryReading

/-!
# What clients read of a consensus

The entries of a consensus are written one after another, with the footer behind them, and clients
read them from this text.  What they read of a router is what the consensus says about it, but not
always: the bandwidth is written with a sign, so that a router with a bandwidth of at least `2 ^ 31`
is not read at all, and the reader and the writer disagree about some times.

The result is an equivalence (`networkstatus_entries_read`): the entry of a router is read as it was
written exactly if it can be read.
-/

namespace Astoria

open List Option

/-! ### Entries and votes -/

section Votes

variable {testingTorNetwork : Bool} {sort : ∀ α : Type, SmartlistSort α}
  {votes : List (Networkstatus testingTorNetwork)} {total : ℕ} {r : ConsensusRouter} {rs : RsOut}

lemma findMicrodescHash_lt {method : ℕ} {lines : List DocText} {d : Digest}
    (h : findMicrodescHash method lines = some d) : d < 256 ^ 32 := by
  induction lines with
  | nil => cases h
  | cons line rest ih =>
    rw [findMicrodescHash] at h
    cases hline : methodListed (Nat.toDigits 10 method) (line.length + 1) line with
    | none =>
      rw [hline] at h
      exact ih h
    | some cp =>
      rw [hline] at h
      obtain ⟨cp', -, hd⟩ := bind_eq_some_iff.mp h
      exact digestFromBase64_lt hd

/-- The name under which a router is called named is its name in a vote. -/
lemma mem_chosenName {entries : List (RouterVote × VoteRouterstatus)} {name : String}
    (h : chosenName entries = some name) : ∃ e ∈ entries, e.2.nickname = name := by
  have hfold : ∀ (l : List (RouterVote × VoteRouterstatus)) (s : Option String × Bool),
      (∀ e ∈ l, e ∈ entries) → (∀ n ∈ s.1, ∃ e ∈ entries, e.2.nickname = n) →
      ∀ n ∈ (l.foldl (fun (r : Option String × Bool) entry =>
        if hasFlag entry.1 entry.2 "Named" then
          (some entry.2.nickname, r.2 || r.1.any fun name => decide (name ≠ entry.2.nickname))
        else r) s).1, ∃ e ∈ entries, e.2.nickname = n := by
    intro l
    induction l with
    | nil => exact fun s _ hs => hs
    | cons e l ih =>
      intro s hl hs
      rw [foldl_cons]
      refine ih _ (fun e' he' => hl e' (mem_cons_of_mem e he')) ?_
      split_ifs
      · rintro n hn
        obtain rfl := some.inj hn
        exact ⟨e, hl e mem_cons_self, rfl⟩
      · exact hs
  unfold chosenName at h
  dsimp only at h
  split_ifs at h
  exact hfold entries (none, false) (fun e he => he) nofun name h

lemma consensusRouter_names {sort : SmartlistSort VoteRouterstatus} {votes : List RouterVote}
    {id : Digest} {entries : List (RouterVote × VoteRouterstatus)}
    (h : consensusRouter sort votes total id entries = some (some r)) :
    r.nickname = (chosenName entries).getD r.rs.nickname ∧
    ∀ f ∈ r.chosenFlags, f ∈ consensusFlags votes := by
  unfold consensusRouter at h
  dsimp only at h
  split_ifs at h
  cases hrs : computeRouterstatusConsensus (sort.sort compareVoteRs (entries.map (·.2))) with
  | none =>
    rw [hrs] at h
    cases h
  | some rs =>
    rw [hrs] at h
    dsimp only at h
    split_ifs at h with hid
    · cases h
    · obtain rfl := some.inj (some.inj h)
      refine ⟨rfl, fun f hf => ?_⟩
      obtain ⟨fl, hfl, rfl⟩ := List.mem_map.mp hf
      exact fst_mem_of_mem_zipIdx (mem_filter.mp hfl).1

/-- What the parser has checked of the entries of a router. -/
lemma parsed_of_listed (h : consensusRouter (sort _) (votes.map (·.toRouterVote)) total
    r.identityDigest (routerEntries (votes.map (·.toRouterVote)) r.identityDigest) =
      some (some r)) :
    (∀ vrs ∈ r.listed, vrs.Parsed) ∧ r.rs ∈ r.listed := by
  obtain ⟨-, hlisted, hmatching, hrs, -⟩ := consensusRouter_eq h
  refine ⟨fun vrs hvrs => ?_, ?_⟩
  · rw [hlisted] at hvrs
    obtain ⟨e, he, rfl⟩ := List.mem_map.mp hvrs
    obtain ⟨hvote, hmem, -⟩ := mem_routerEntries he
    obtain ⟨v, -, hve⟩ := List.mem_map.mp hvote
    rw [← hve] at hmem
    exact v.routers_parsed e.2 hmem
  · have hne : r.matchingDescs ≠ [] := by
      intro hnil
      rw [hnil] at hrs
      cases hrs
    obtain ⟨vrs, hvrs, hpopular⟩ := exists_computeRouterstatusConsensus hne
    obtain rfl := some.inj (hrs.symm.trans hpopular)
    rw [hmatching] at hvrs
    exact ((sort _).perm _ _).mem_iff.mp hvrs

/-- The name of a router is its name in a vote. -/
lemma nickname_of_listed (h : consensusRouter (sort _) (votes.map (·.toRouterVote)) total
    r.identityDigest (routerEntries (votes.map (·.toRouterVote)) r.identityDigest) =
      some (some r)) :
    ∃ vrs ∈ r.listed, vrs.nickname = r.nickname := by
  have hlisted := (consensusRouter_eq h).2.1
  rw [(consensusRouter_names h).1]
  cases hname : chosenName (routerEntries (votes.map (·.toRouterVote)) r.identityDigest) with
  | none => exact ⟨r.rs, (parsed_of_listed h).2, rfl⟩
  | some name =>
    obtain ⟨e, he, hnick⟩ := mem_chosenName hname
    exact ⟨e.2, hlisted ▸ List.mem_map_of_mem he, hnick⟩

lemma mem_of_getMostFrequent_sort {α : Type} {compare compare' : α → α → ℤ} {sort : SmartlistSort α}
    {l : List α} {x : α} (h : smartlistGetMostFrequent compare (sort.sort compare' l) = some x) :
    x ∈ l :=
  (sort.perm _ _).mem_iff.mp (mem_of_getMostFrequent h)

/-- The exit policy summary of a router is that of a vote. -/
lemma mem_chosenExitsummary {p : String} (h : chosenExitsummary r = some p) :
    ∃ vrs ∈ r.matchingDescs, vrs.exitsummary = some p := by
  have hmem : ∀ {l : List VoteRouterstatus}, p ∈ l.filterMap (·.exitsummary) →
      (∀ vrs ∈ l, vrs ∈ r.matchingDescs) → ∃ vrs ∈ r.matchingDescs, vrs.exitsummary = some p := by
    intro l hp hl
    obtain ⟨vrs, hvrs, hsummary⟩ := mem_filterMap.mp hp
    exact ⟨vrs, hl vrs hvrs, hsummary⟩
  have hfilter : ∀ vrs ∈ r.matchingDescs.filter fun rs =>
      rs.descriptorDigest = r.rs.descriptorDigest, vrs ∈ r.matchingDescs := fun vrs hvrs =>
        mem_of_mem_filter hvrs
  unfold chosenExitsummary at h
  dsimp only at h
  split at h
  · exact hmem ((mem_insertionSort _).mp (mem_of_getMostFrequent h)) fun vrs hvrs => hvrs
  · rename_i first rest hsummaries
    split_ifs at h
    · exact hmem ((mem_insertionSort _).mp (mem_of_getMostFrequent h)) hfilter
    · obtain rfl := some.inj h
      exact hmem (hsummaries ▸ mem_cons_self) hfilter

/-- **What is written comes from the votes.** -/
lemma written_of_consensusEntry (h : consensusRouter (sort _) (votes.map (·.toRouterVote))
    total r.identityDigest (routerEntries (votes.map (·.toRouterVote)) r.identityDigest) =
      some (some r)) {method : ℕ} {maxUnmeasuredBwKb : UInt32} {measuring : ℕ}
    (hentry : consensusEntry sort method maxUnmeasuredBwKb measuring r =
      some rs) : rs.Written ∧ rs.toConsensusRouter = r := by
  obtain ⟨hparsed, hmem⟩ := parsed_of_listed h
  obtain ⟨vrs, hvrs, hnick⟩ := nickname_of_listed h
  obtain ⟨-, -, hmatching, -, hid⟩ := consensusRouter_eq h
  have hsorted : ∀ vrs ∈ r.matchingDescs, vrs ∈ r.listed := by
    rw [hmatching]
    exact fun vrs hvrs => ((sort _).perm _ _).mem_iff.mp hvrs
  obtain ⟨g, hg, hle, -⟩ := exists_chosenGuardfraction (ConsensusRouter.ok_of_eq h) method
  unfold consensusEntry at hentry
  rw [hg] at hentry
  simp only [bind_eq_bind, bind_some] at hentry
  split_ifs at hentry
  obtain rfl := some.inj hentry
  refine ⟨⟨?_, ?_, (hparsed _ hmem).descriptor_lt, ?_, (hparsed _ hmem).publishedOn_nonneg, ?_, hle,
    ?_, ?_⟩, rfl⟩
  · rw [← hnick]
    exact (hparsed vrs hvrs).nickname
  · rw [← hid]
    exact (hparsed _ hmem).identity_lt
  · show chosenMicrodescDigest sort method r < 256 ^ 32
    unfold chosenMicrodescDigest
    dsimp only
    cases hdigest : smartlistGetMostFrequent digestcmp ((sort _).sort digestcmp
        (r.agreeing.filterMap fun rs => findMicrodescHash method rs.microdesc)) with
    | none => exact Nat.pow_pos (by decide)
    | some d =>
      obtain ⟨vrs, -, hd⟩ := mem_filterMap.mp (mem_of_getMostFrequent_sort hdigest)
      exact findMicrodescHash_lt hd
  · intro f hf
    obtain ⟨v, hv, hknown⟩ := mem_consensusFlags.mp ((consensusRouter_names h).2 f hf)
    obtain ⟨v', -, rfl⟩ := List.mem_map.mp hv
    exact v'.flags_words f hknown
  · intro v hv
    obtain ⟨vrs, hvrs, hversion⟩ := mem_filterMap.mp (mem_of_getMostFrequent_sort hv)
    exact (hparsed vrs hvrs).version v (filter_eq_some_iff.mp hversion).1
  · intro p hp
    obtain ⟨vrs, hvrs, hsummary⟩ := mem_chosenExitsummary hp
    exact (hparsed vrs (hsorted vrs hvrs)).exitsummary p hsummary

/-- Adding entries one after another: each is the entry of a router, in the same order. -/
lemma foldlM_addEntry {method : ℕ} {flavor : ConsensusFlavor} {maxUnmeasuredBwKb : UInt32}
    {measuring : ℕ} {routers : List ConsensusRouter} {acc acc' : List RsOut × BwTotals}
    (hid : ∀ r ∈ routers, ∀ rs, consensusEntry sort method maxUnmeasuredBwKb
      measuring r = some rs → rs.Written ∧ rs.toConsensusRouter = r)
    (h : routers.foldlM (addEntry sort method flavor maxUnmeasuredBwKb
      measuring) acc = some acc') :
    ∃ entries, acc'.1 = acc.1 ++ entries ∧ (∀ rs ∈ entries, rs.Written) ∧
      (entries.map (·.identityDigest)).Sublist (routers.map (·.identityDigest)) := by
  induction routers generalizing acc with
  | nil =>
    obtain rfl := some.inj h
    exact ⟨[], (append_nil _).symm, fun rs hrs => absurd hrs not_mem_nil, Sublist.refl _⟩
  | cons r routers ih =>
    rw [foldlM_cons] at h
    obtain ⟨mid, hmid, hrest⟩ := bind_eq_some_iff.mp h
    obtain ⟨entries, hentries, hwritten, hsub⟩ :=
      ih (fun r' hr' => hid r' (mem_cons_of_mem r hr')) hrest
    unfold addEntry at hmid
    obtain ⟨rs, hrs, hmid⟩ := bind_eq_some_iff.mp hmid
    obtain ⟨totals, -, hmid⟩ := bind_eq_some_iff.mp hmid
    obtain ⟨hw, hr⟩ := hid r mem_cons_self rs hrs
    rw [map_cons]
    split_ifs at hmid
    · obtain rfl := some.inj hmid
      exact ⟨entries, hentries, hwritten, hsub.cons _⟩
    · obtain rfl := some.inj hmid
      refine ⟨rs :: entries, ?_, ?_, ?_⟩
      · rw [hentries, append_assoc]
        rfl
      · exact forall_mem_cons.mpr ⟨hw, hwritten⟩
      · have hsame : rs.identityDigest = r.identityDigest :=
          congrArg ConsensusRouter.identityDigest hr
        rw [map_cons, hsame]
        exact hsub.cons_cons _

/-- **The entries of a consensus** come from the votes, and no identity is listed twice. -/
lemma entries_written {flavor : ConsensusFlavor} {c : Consensus}
    (h : networkstatusComputeConsensus sort flavor votes total = some (some c)) :
    (∀ rs ∈ c.entries, rs.Written) ∧ (c.entries.map (·.identityDigest)).Nodup ∧
      c.consensusMethod = consensusMethodUsed (sort _) (votes.map (·.supportedMethods)) := by
  unfold networkstatusComputeConsensus at h
  split_ifs at h
  · cases h
  · obtain ⟨times, -, h⟩ := bind_eq_some_iff.mp h
    obtain ⟨params, -, h⟩ := bind_eq_some_iff.mp h
    dsimp only at h
    split_ifs at h
    obtain ⟨⟨entries, totals⟩, hentries, h⟩ := bind_eq_some_iff.mp h
    obtain ⟨bandwidthWeights, -, h⟩ := bind_eq_some_iff.mp h
    obtain rfl := some.inj (some.inj h)
    obtain ⟨routers, hrun, hsorted, -, hrouters⟩ := exists_consensusRouters (sort _)
      (((sort _).sort compareVotesByAuthorityId votes).map (·.toRouterVote)) total
    unfold consensusEntries at hentries
    rw [hrun] at hentries
    obtain ⟨out, hout, hwritten, hsub⟩ := foldlM_addEntry
      (fun r hr rs hrs => written_of_consensusEntry (hrouters r hr) hrs) hentries
    rw [nil_append] at hout
    obtain rfl := hout
    exact ⟨hwritten, (hsorted.imp fun h => ne_of_lt h).sublist hsub, rfl⟩

end Votes

/-! ### The document -/

def entriesText (flavor : ConsensusFlavor) (c : Consensus) : DocText :=
  c.entries.flatMap (entryText flavor c.consensusMethod)

/-- What a client reads of the entries of a document. -/
def clientEntries (skipObject : DocText → Option DocText) (shouldApplyGuardfraction : Bool)
    (flavor : ConsensusFlavor) (consensusMethod : ℕ) (document : DocText) : List Routerstatus :=
  parseEntries skipObject shouldApplyGuardfraction consensusMethod flavor document.length document

section Document

variable {flavor : ConsensusFlavor} {method : ℕ} {entries : List RsOut}

lemma exists_entryText (flavor : ConsensusFlavor) (method : ℕ) (rs : RsOut) :
    ∃ more, entryText flavor method rs = "r ".toList ++ more := by
  have hkeyword : "r ".toList = ['r', ' '] := by decide
  unfold entryText routerstatusFormatEntry
  simp only [cons_append, hkeyword, nil_append, List.cons.injEq, true_and, exists_eq']

/-- The entries, or the footer if there are no more, can follow an entry. -/
lemma followsEntry_entries (flavor : ConsensusFlavor) (method : ℕ) (entries : List RsOut)
    (more : DocText) :
    FollowsEntry
      (entries.flatMap (entryText flavor method) ++ ("directory-footer".toList ++ more)) := by
  cases entries with
  | nil => exact .inr ⟨more, rfl⟩
  | cons rs entries =>
    obtain ⟨tail, htail⟩ := exists_entryText flavor method rs
    rw [flatMap_cons, htail, append_assoc, append_assoc]
    exact .inl ⟨_, rfl⟩

/-- **The entries are read one after another.** -/
lemma parseEntries_entries (hwritten : ∀ rs ∈ entries, rs.Written) (hmethod : 2 ≤ method)
    (skipObject : DocText → Option DocText) (fractions : Bool) (more : DocText) {n : ℕ}
    (hn : entries.length ≤ n) :
    parseEntries skipObject fractions method flavor n
        (entries.flatMap (entryText flavor method) ++ ("directory-footer".toList ++ more)) =
      entries.filterMap (readEntry fractions flavor method) := by
  induction entries generalizing n with
  | nil =>
    cases n with
    | zero => rfl
    | succ n =>
      have hfooter : startsWith ("directory-footer".toList ++ more) "r ".toList = false := rfl
      rw [flatMap_nil, nil_append, parseEntries, if_neg (by rw [hfooter]; exact Bool.false_ne_true)]
      rfl
  | cons rs entries ih =>
    cases n with
    | zero => exact absurd hn (Nat.not_succ_le_zero _)
    | succ n =>
      have hentry :=
        routerstatusParseEntry_entryText (hwritten rs mem_cons_self) hmethod flavor skipObject
          fractions (followsEntry_entries flavor method entries more)
      have hrest :=
        ih (fun rs' hrs' => hwritten rs' (mem_cons_of_mem rs hrs')) (Nat.le_of_succ_le_succ hn)
      have hstart : startsWith (entryText flavor method rs ++
          (entries.flatMap (entryText flavor method) ++ ("directory-footer".toList ++ more)))
          "r ".toList = true := by
        obtain ⟨tail, htail⟩ := exists_entryText flavor method rs
        rw [htail, append_assoc]
        exact List.isPrefixOf_iff_prefix.mpr (prefix_append _ _)
      rw [flatMap_cons, append_assoc, parseEntries, if_pos hstart]
      dsimp only
      rw [hentry, hrest, filterMap_cons]
      cases readEntry fractions flavor method rs with
      | none => rfl
      | some e => rfl

/-- The text of the entries is at least as long as there are entries. -/
lemma length_le_entries (entries : List RsOut) :
    entries.length ≤ (entries.flatMap (entryText flavor method)).length := by
  induction entries with
  | nil => exact le_rfl
  | cons rs entries ih =>
    have hpos : 0 < (entryText flavor method rs).length := by
      obtain ⟨tail, htail⟩ := exists_entryText flavor method rs
      rw [htail, length_append]
      exact Nat.add_pos_left (by decide) _
    rw [flatMap_cons, length_append, length_cons]
    omega

end Document

lemma minSupported_le_consensusMethodUsed (sort : SmartlistSort String)
    (supportedMethods : List (List String)) :
    minSupportedConsensusMethod ≤ consensusMethodUsed sort supportedMethods := by
  unfold consensusMethodUsed
  dsimp only
  split_ifs with hmethod
  · exact hmethod.1
  · decide

/-- **What the consensus says is what clients read**, of a router whose entry can be read: it has a
time that the reader and the writer agree about, a bandwidth below `2 ^ 31`, at most 512 flags,
lines that are not too long, and it is not called unnamed while its name is its own.  The text that
clients read is that of the entries, with the footer behind them. -/
theorem networkstatus_entries_read {testingTorNetwork : Bool}
    (smartlistSort : ∀ α : Type, SmartlistSort α) (flavor : ConsensusFlavor)
    {votes : List (Networkstatus testingTorNetwork)} {totalAuthorities : ℕ} {c : Consensus}
    (h : networkstatusComputeConsensus smartlistSort flavor votes totalAuthorities = some (some c))
    (skipObject : DocText → Option DocText) (shouldApplyGuardfraction : Bool) (more : DocText)
    {rs : RsOut} (hrs : rs ∈ c.entries) :
    (∃ e ∈ clientEntries skipObject shouldApplyGuardfraction flavor c.consensusMethod
      (entriesText flavor c ++ ("directory-footer".toList ++ more)), e.Agrees flavor rs) ↔
        rs.Readable := by
  obtain ⟨hwritten, hnodup, hmethodUsed⟩ := entries_written h
  have hmethod : 2 ≤ c.consensusMethod := by
    rw [hmethodUsed]
    exact le_trans (by decide) (minSupported_le_consensusMethodUsed _ _)
  have hlen : c.entries.length ≤
      (entriesText flavor c ++ ("directory-footer".toList ++ more)).length := by
    rw [length_append]
    exact (length_le_entries c.entries).trans (Nat.le_add_right _ _)
  have hread : clientEntries skipObject shouldApplyGuardfraction flavor c.consensusMethod
      (entriesText flavor c ++ ("directory-footer".toList ++ more)) =
        c.entries.filterMap (readEntry shouldApplyGuardfraction flavor c.consensusMethod) :=
    parseEntries_entries hwritten hmethod skipObject shouldApplyGuardfraction more hlen
  rw [hread, ← readEntry_iff (hwritten rs hrs) hmethod flavor shouldApplyGuardfraction]
  constructor
  · rintro ⟨e, he, hagrees⟩
    obtain ⟨rs', hrs', he'⟩ := mem_filterMap.mp he
    -- what is read has the identity of the router, and this is the only one with it
    have hid : rs'.identityDigest = rs.identityDigest :=
      (identityDigest_of_readEntry (hwritten rs' hrs') hmethod he').symm.trans
        hagrees.identityDigest
    obtain rfl := inj_on_of_nodup_map hnodup hrs' hrs hid
    exact ⟨e, he', hagrees⟩
  · rintro ⟨e, he, hagrees⟩
    exact ⟨e, mem_filterMap.mpr ⟨rs, hrs, he⟩, hagrees⟩

/-- The entry of a router with a small bandwidth, and what is read of it. -/
theorem networkstatus_entries_read_relay : ∃ c rs,
    networkstatusComputeConsensus SmartlistSort.insertion .ns [entryVote 100] 1 = some (some c) ∧
      rs ∈ c.entries ∧ ((∃ e ∈ clientEntries some false .ns c.consensusMethod
        (entriesText .ns c ++ ("directory-footer".toList ++ ['\n'])), e.Agrees .ns rs) ↔
          rs.Readable) := by
  have hrun : (networkstatusComputeConsensus SmartlistSort.insertion .ns [entryVote 100] 1).any
      (fun c => c.any fun c => !c.entries.isEmpty) = true := by decide +kernel
  obtain ⟨c?, hc, hsome⟩ := (Option.any_eq_true _ _).mp hrun
  obtain ⟨c, rfl, hentries⟩ := (Option.any_eq_true _ _).mp hsome
  obtain ⟨rs, hrs⟩ := exists_mem_of_ne_nil c.entries (by simpa using hentries)
  exact ⟨c, rs, hc, hrs,
    networkstatus_entries_read SmartlistSort.insertion .ns hc some false ['\n'] hrs⟩

/-- **An entry is not read** although it is written: the bandwidth `2 ^ 31` is written with a minus
sign. -/
theorem not_networkstatus_entries_read :
    ¬ ∀ (smartlistSort : ∀ α : Type, SmartlistSort α) (flavor : ConsensusFlavor)
      (votes : List (Networkstatus false)) (totalAuthorities : ℕ) (c : Consensus),
      networkstatusComputeConsensus smartlistSort flavor votes totalAuthorities = some (some c) →
      ∀ (skipObject : DocText → Option DocText) (shouldApplyGuardfraction : Bool) (more : DocText),
      ∀ rs ∈ c.entries,
      ∃ e ∈ clientEntries skipObject shouldApplyGuardfraction flavor c.consensusMethod
        (entriesText flavor c ++ ("directory-footer".toList ++ more)), e.Agrees flavor rs := by
  intro h
  have hrun : (networkstatusComputeConsensus SmartlistSort.insertion .ns [entryVote (2 ^ 31)] 1).any
      (fun c => c.any fun c => !c.entries.isEmpty && (clientEntries some false .ns c.consensusMethod
        (entriesText .ns c ++ ("directory-footer".toList ++ ['\n']))).isEmpty) =
          true := by decide +kernel
  obtain ⟨c?, hc, hsome⟩ := (Option.any_eq_true _ _).mp hrun
  obtain ⟨c, rfl, hentries⟩ := (Option.any_eq_true _ _).mp hsome
  rw [Bool.and_eq_true, List.isEmpty_iff] at hentries
  obtain ⟨rs, hrs⟩ := exists_mem_of_ne_nil c.entries (by simpa using hentries.1)
  obtain ⟨e, he, -⟩ := h SmartlistSort.insertion .ns _ 1 c hc some false ['\n'] rs hrs
  rw [hentries.2] at he
  cases he

end Astoria
