import Mathlib.Data.List.GetD
import Astoria.TorClient.AttackerMatrix
import Astoria.TorClient.GetAspath

/-!
# Pairs that are recorded as free

The client puts the segments of its entries and exits together from the results of its request and
tests all pairs for attackers.  The results are neither initialised nor checked: a failed request
leaves whatever was in memory, and a pair whose AS is not known or that has no route has an empty
list. The test looks for common ASes only, so that segments without ASes are free.

`recordedFree_safe_iff` says when every pair that is recorded as free has been answered with routes.
-/

namespace Astoria

open List Option
open CircuitQuery (maxQuery qlen query)

/-! ### The segments -/

/-- The results after the request, where `uninit` is what was in memory before.  There are no
`chunks` if the request has failed. -/
def aspathResults (q : CircuitQuery) (uninit : List AsnSet) (before : List Char)
    (chunks : Option (List (List Char))) : Option (List AsnSet) :=
  match chunks with
  | none => q.query.map fun _ => uninit
  | some chunks => (askAspath q before chunks).map fun result => result ++ uninit.drop result.length

/-- A segment: the ASes of two results, one for each direction. -/
def segmentAt (lists : List (List ℤ)) (k : ℕ) : Segment := lists.getD k [] ++ lists.getD (k + 1) []

/-- The segments of the exits (`exit_parts`). -/
def exitParts (q : CircuitQuery) (lists : List (List ℤ)) : List Segment :=
  (range q.asExit.length).map fun y => segmentAt lists (2 * y)

/-- The segments of the entries (`entry_parts`), whose results come after those of the exits. -/
def entryParts (q : CircuitQuery) (lists : List (List ℤ)) : List Segment :=
  (range q.asEntry.length).map fun x => segmentAt lists (2 * q.asExit.length + 2 * x)

/-- For every pair, whether it is recorded as free. -/
def recordedFree (q : CircuitQuery) (uninit : List AsnSet) (before : List Char)
    (chunks : Option (List (List Char))) : Option (List Bool) :=
  (aspathResults q uninit before chunks).bind fun result =>
    let lists := result.map AsnSet.ases
    (attackerMatrix (entryParts q lists) (exitParts q lists)).map AttackerMatrix.attackerFree

/-! ### What is recorded -/

/-- The positions of the four queries for the pair of the entry `x` and the exit `y`. -/
def pairQueries (q : CircuitQuery) (x y : ℕ) : List ℕ :=
  [2 * y, 2 * y + 1, 2 * q.asExit.length + 2 * x, 2 * q.asExit.length + 2 * x + 1]

/-- The two segments of a pair share an AS. -/
def ShareAs (q : CircuitQuery) (answers : List (List Asn)) (x y : ℕ) : Prop :=
  ∃ c ∈ segmentAt (answers.map longs) (2 * q.asExit.length + 2 * x),
    c ∈ segmentAt (answers.map longs) (2 * y)

/-- Whatever was in memory and however the reply arrives, every pair that is recorded as free has
been answered with four lists of ASes that are not empty, and its segments share no AS.  Without an
arrived reply, nothing has been answered. -/
def SafelyRecorded (q : CircuitQuery) (answers : List (List Asn)) (reply : List Char)
    (arrived : Bool) : Prop :=
  ∀ uninit before chunks, uninit.length = q.qlen → ChunksOf reply chunks →
    ∃ flags, recordedFree q uninit before (if arrived then some chunks else none) = some flags ∧
      ∀ x y, x < q.asEntry.length → y < q.asExit.length →
        flags[x * q.asExit.length + y]? = some true →
          arrived = true ∧ (∀ k ∈ pairQueries q x y, answers.getD k [] ≠ []) ∧
            ¬ ShareAs q answers x y

section Flags

variable {q : CircuitQuery}

/-- The pairs are listed entry by entry. -/
lemma getElem?_segmentPairs {entries exits : List Segment} {x y : ℕ} (hx : x < entries.length)
    (hy : y < exits.length) : (segmentPairs entries exits)[x * exits.length + y]? =
      some (entries.getD x [], exits.getD y []) := by
  induction entries generalizing x with
  | nil => simp at hx
  | cons entry entries ih =>
    have hcons : segmentPairs (entry :: entries) exits =
        (exits.map fun exit => (entry, exit)) ++ segmentPairs entries exits := by
      rw [segmentPairs, flatMap_cons]
      rfl
    rw [hcons]
    cases x with
    | zero =>
      rw [zero_mul, zero_add, getElem?_append_left (by simpa using hy),
        getElem?_map, getElem?_eq_getElem hy, getD_eq_getElem _ _ hy]
      rfl
    | succ x =>
      have hpos : (x + 1) * exits.length + y = (x * exits.length + y) + exits.length := by
        rw [Nat.succ_mul]
        omega
      rw [getElem?_append_right (by rw [length_map, hpos]; omega), length_map, hpos,
        Nat.add_sub_cancel, ih (by simpa using hx), getD_cons_succ]

/-- A pair is recorded as free exactly when its segments share no AS. -/
lemma getElem?_attackerFree {lists : List (List ℤ)} {m : AttackerMatrix}
    (hm : attackerMatrix (entryParts q lists) (exitParts q lists) = some m) {x y : ℕ}
    (hx : x < q.asEntry.length) (hy : y < q.asExit.length) :
    m.attackerFree[x * q.asExit.length + y]? = some true ↔
      ¬ ∃ c ∈ segmentAt lists (2 * q.asExit.length + 2 * x), c ∈ segmentAt lists (2 * y) := by
  have hentries : (entryParts q lists).length = q.asEntry.length := by simp [entryParts]
  have hexits : (exitParts q lists).length = q.asExit.length := by simp [exitParts]
  have hx' : x < (entryParts q lists).length := by omega
  have hy' : y < (exitParts q lists).length := by omega
  have hentry : (entryParts q lists).getD x [] = segmentAt lists (2 * q.asExit.length + 2 * x) := by
    rw [getD_eq_getElem _ _ hx']
    simp [entryParts]
  have hexit : (exitParts q lists).getD y [] = segmentAt lists (2 * y) := by
    rw [getD_eq_getElem _ _ hy']
    simp [exitParts]
  have hpair := getElem?_segmentPairs hx' hy'
  rw [hexits, hentry, hexit] at hpair
  rw [attackerFree_eq hm, getElem?_map, hpair, map_some, Option.some.injEq]
  simp [isFree]

end Flags

/-! ### A failed request -/

section Failed

variable {q : CircuitQuery} {answers : List (List Asn)} {reply : List Char}

lemma chunksOf_singletons (reply : List Char) : ChunksOf reply (reply.map fun c => [c]) := by
  refine ⟨fun chunk hchunk => ?_, ?_⟩
  · obtain ⟨c, -, rfl⟩ := List.mem_map.mp hchunk
    exact ⟨by simp, by simp [maxReply]⟩
  · rw [← flatMap_def, flatMap_singleton']

/-- Without entries and exits, nothing is tested. -/
lemma attackerMatrix_of_qlen_eq_zero (hq : q.qlen = 0) (lists : List (List ℤ)) :
    attackerMatrix (entryParts q lists) (exitParts q lists) = some ⟨⟨[], []⟩, []⟩ := by
  have hentry : q.asEntry.length = 0 := by
    unfold qlen at hq
    omega
  have hexit : q.asExit.length = 0 := by
    unfold qlen at hq
    omega
  rw [entryParts, exitParts, hentry, hexit]
  rfl

/-- A failed request is recorded safely only if it asks for nothing: the memory may hold
anything. -/
lemma safelyRecorded_failed_iff : SafelyRecorded q answers reply false ↔
    (q.dests.length < maxQuery ∧ q.pairs.length < maxQuery) ∧
      q.qlen = 0 := by
  constructor
  · intro hsafe
    -- more ASes than a segment has room for
    obtain ⟨flags, hflags, -⟩ := hsafe
      (replicate q.qlen ⟨[], [], replicate (maxPartAses + 1) 0⟩) [] _ (by simp)
      (chunksOf_singletons reply)
    obtain ⟨result, hresult, hflags⟩ := bind_eq_some_iff.mp hflags
    obtain ⟨text, hquery, rfl⟩ := map_eq_some_iff.mp hresult
    rw [query] at hquery
    split_ifs at hquery with hfits
    refine ⟨hfits, ?_⟩
    by_contra hq
    obtain ⟨m, hm, -⟩ := map_eq_some_iff.mp hflags
    obtain ⟨hparts, -⟩ := (attackerMatrix_eq_some_iff _ _).1 ⟨m, hm⟩
    have hsegment : ∀ k, k + 1 < q.qlen → maxPartAses < (segmentAt ((replicate q.qlen
        (⟨[], [], replicate (maxPartAses + 1) 0⟩ : AsnSet)).map AsnSet.ases) k).length := by
      intro k hk
      have hk' : k < q.qlen := by omega
      rw [segmentAt, map_replicate, getD_replicate _ hk', length_append,
        length_replicate]
      omega
    have hmem : ∃ k, k + 1 < q.qlen ∧ ∀ lists, segmentAt lists k ∈
        entryParts q lists ++ exitParts q lists := by
      unfold qlen at hq ⊢
      by_cases hexit : q.asExit.length = 0
      · refine ⟨2 * q.asExit.length, by omega, fun lists => mem_append_left _ ?_⟩
        exact List.mem_map.mpr ⟨0, mem_range.mpr (by omega), by rw [mul_zero, add_zero]⟩
      · refine ⟨0, by omega, fun lists => mem_append_right _ ?_⟩
        exact List.mem_map.mpr ⟨0, mem_range.mpr (by omega), rfl⟩
    obtain ⟨k, hk, hmem⟩ := hmem
    have hle := hparts _ (hmem _)
    have hlt := hsegment k hk
    omega
  · rintro ⟨hfits, hq⟩ uninit before chunks - -
    refine ⟨[], ?_, fun x y hx => ?_⟩
    · simp only [recordedFree, aspathResults, Bool.false_eq_true, if_false, query,
        if_pos hfits, map_some, bind_some, attackerMatrix_of_qlen_eq_zero hq]
    · unfold qlen at hq
      omega

end Failed

/-! ### An arrived reply -/

section Arrived

variable {P : Params} {g : NetworkGraph} {q : CircuitQuery} {answers : List (List Asn)}

/-- Records that fit their arrays make segments that fit theirs. -/
lemma ProtocolFits.length_segmentAt_le {reply : List Char} (hfit : ProtocolFits q answers reply)
    (hlen : q.pairTexts.length = answers.length) (k : ℕ) :
    (segmentAt (answers.map longs) k).length ≤ maxPartAses := by
  have hlist : ∀ k, ((answers.map longs).getD k []).length ≤ maxAses := by
    intro k
    by_cases hk : k < answers.length
    · have hzip : (q.pairTexts[k], answers[k]) ∈ q.pairTexts.zip answers := by
        rw [mem_iff_getElem]
        exact ⟨k, by rw [length_zip]; omega, getElem_zip⟩
      rw [getD_eq_getElem _ _ (by simpa using hk), getElem_map, longs, length_map]
      exact (hfit.records _ hzip).ases
    · rw [getD_eq_default _ _ (by simpa using hk)]
      exact Nat.zero_le _
  have h₁ := hlist k
  have h₂ := hlist (k + 1)
  rw [segmentAt, length_append]
  unfold maxAses at h₁ h₂
  unfold maxPartAses
  omega

section

variable (h : Forall₂ (AnswerOf P g) q.pairTexts answers)

include h

/-- The results once the answers have been recovered. -/
lemma aspathResults_arrived
    (hfit : ProtocolFits q answers (replyOf q answers)) {uninit : List AsnSet} (before : List Char)
    {chunks : List (List Char)} (huninit : uninit.length = q.qlen)
    (hchunks : ChunksOf (replyOf q answers) chunks) :
    ∃ result, aspathResults q uninit before (some chunks) = some result ∧
      result.map AsnSet.ases = answers.map longs := by
  obtain ⟨result, hresult, hases⟩ :=
    @ProtocolFits.askAspath P g q answers h hfit before chunks hchunks
  have hlen : result.length = q.qlen := by
    have := congrArg List.length hases
    rw [length_map, length_map, ← h.length_eq, q.length_pairTexts] at this
    exact this
  have hdrop : uninit.drop result.length = [] := by
    rw [drop_eq_nil_iff]
    omega
  refine ⟨result, ?_, hases⟩
  rw [aspathResults, hresult, map_some, hdrop, append_nil]

/-- What is recorded once the answers have been recovered. -/
lemma recordedFree_arrived
    (hfit : ProtocolFits q answers (replyOf q answers)) {uninit : List AsnSet} {before : List Char}
    {chunks : List (List Char)} (huninit : uninit.length = q.qlen)
    (hchunks : ChunksOf (replyOf q answers) chunks) :
    recordedFree q uninit before (some chunks) =
      (attackerMatrix (entryParts q (answers.map longs))
        (exitParts q (answers.map longs))).map AttackerMatrix.attackerFree := by
  obtain ⟨result, hresult, hases⟩ := aspathResults_arrived h hfit before huninit hchunks
  rw [recordedFree, hresult, bind_some]
  simp only [hases]

lemma protocolFits_of_aspathResults (hsome : ∀ chunks, ChunksOf (replyOf q answers) chunks →
      aspathResults q (replicate q.qlen AsnSet.empty) [] (some chunks) ≠ none) :
    ProtocolFits q answers (replyOf q answers) := by
  refine protocolFits_of_ne_none h fun chunks hchunks hnone => hsome chunks hchunks ?_
  rw [aspathResults, hnone, map_none]

end

lemma ProtocolFits.parts_le (hfit : ProtocolFits q answers (replyOf q answers))
    (hlen : q.pairTexts.length = answers.length) :
    ∀ part ∈ entryParts q (answers.map longs) ++ exitParts q (answers.map longs),
      part.length ≤ maxPartAses := by
  intro part hpart
  rcases mem_append.mp hpart with hpart | hpart
  · obtain ⟨x, -, rfl⟩ := List.mem_map.mp hpart
    exact hfit.length_segmentAt_le hlen _
  · obtain ⟨y, -, rfl⟩ := List.mem_map.mp hpart
    exact hfit.length_segmentAt_le hlen _

/-- The segments of every pair share an AS, or none of its four lists is empty. -/
def NoneEmpty (q : CircuitQuery) (answers : List (List Asn)) : Prop :=
  ∀ x y, x < q.asEntry.length → y < q.asExit.length →
    ShareAs q answers x y ∨ ∀ k ∈ pairQueries q x y, answers.getD k [] ≠ []

/-- What an arrived reply needs to be recorded safely. -/
lemma SafelyRecorded.needed (h : Forall₂ (AnswerOf P g) q.pairTexts answers)
    (hsafe : SafelyRecorded q answers (replyOf q answers) true) :
    ProtocolFits q answers (replyOf q answers) ∧
      RowsNeeded (entryParts q (answers.map longs)) (exitParts q (answers.map longs)) ∧
      NoneEmpty q answers := by
  have hfit : ProtocolFits q answers (replyOf q answers) := by
    refine protocolFits_of_aspathResults h fun chunks hchunks hnone => ?_
    obtain ⟨flags, hflags, -⟩ := hsafe (replicate q.qlen AsnSet.empty) [] chunks (by simp) hchunks
    rw [if_pos rfl, recordedFree, hnone] at hflags
    cases hflags
  obtain ⟨flags, hflags, hfree⟩ := hsafe (replicate q.qlen AsnSet.empty) [] _ (by simp)
    (chunksOf_singletons (replyOf q answers))
  rw [if_pos rfl, recordedFree_arrived h hfit (by simp) (chunksOf_singletons _)] at hflags
  obtain ⟨m, hm, rfl⟩ := map_eq_some_iff.mp hflags
  refine ⟨hfit, (attackerMatrix_rows (hfit.parts_le h.length_eq)).2 ⟨m, hm⟩, fun x y hx hy => ?_⟩
  by_cases hshare : ShareAs q answers x y
  · exact .inl hshare
  · exact .inr (hfree x y hx hy ((getElem?_attackerFree hm hx hy).2 hshare)).2.1

/-- What suffices for an arrived reply to be recorded safely. -/
lemma safelyRecorded_of_rows (h : Forall₂ (AnswerOf P g) q.pairTexts answers)
    (hfit : ProtocolFits q answers (replyOf q answers))
    (hrows : RowsSuffice (entryParts q (answers.map longs)) (exitParts q (answers.map longs)))
    (hpairs : NoneEmpty q answers) : SafelyRecorded q answers (replyOf q answers) true := by
  intro uninit before chunks huninit hchunks
  obtain ⟨m, hm⟩ := (attackerMatrix_rows (hfit.parts_le h.length_eq)).1 hrows
  refine ⟨m.attackerFree, ?_, fun x y hx hy hflag => ?_⟩
  · rw [if_pos rfl, recordedFree_arrived h hfit huninit hchunks, hm, map_some]
  · have hshare := (getElem?_attackerFree hm hx hy).1 hflag
    exact ⟨rfl, (hpairs x y hx hy).resolve_left hshare, hshare⟩

end Arrived

/-! ### When pairs are recorded safely -/

/-- The server has answered the `k`-th pair of a request with the destinations `ds k`. -/
def AnsweredWith (P : Params) (g : NetworkGraph) (q : CircuitQuery)
    (ds : ℕ → List Char → Option Destination) (answers : List (List Asn)) : Prop :=
  answers.length = q.pairTexts.length ∧ ∀ (k : ℕ) pair, q.pairTexts[k]? = some pair →
    KnownDestinations P g (ds k) ∧ bestAses (ds k) pair.1 pair.2 = some (answers.getD k [])

/-- The server had a route for each of the four queries of the pair of the entry `x` and the exit
`y`. -/
def RoutesListed (q : CircuitQuery) (ds : ℕ → List Char → Option Destination) (x y : ℕ) : Prop :=
  ∀ k ∈ pairQueries q x y, ∀ pair, q.pairTexts[k]? = some pair → RouteListed (ds k) pair.1 pair.2

/-- The reply has arrived, everything fits its arrays, and for every pair the segments share an AS
or the server had a route for each of the four queries.  What is asked of the row pointers of the
matrix is `rows`. -/
structure PairsAnswered (rows : List Segment → List Segment → Prop) (q : CircuitQuery)
    (ds : ℕ → List Char → Option Destination) (answers : List (List Asn)) (reply : List Char)
    (arrived : Bool) : Prop where
  arrived : arrived = true
  /-- The request, the reply and its records. -/
  fits : ProtocolFits q answers reply
  attackers : rows (entryParts q (answers.map longs)) (exitParts q (answers.map longs))
  pairs : ∀ x y, x < q.asEntry.length → y < q.asExit.length →
    ShareAs q answers x y ∨ RoutesListed q ds x y

/-- The request fits its arrays, and it asks for nothing or its pairs are answered. -/
def RequestAnswered (rows : List Segment → List Segment → Prop) (q : CircuitQuery)
    (ds : ℕ → List Char → Option Destination) (answers : List (List Asn)) (reply : List Char)
    (arrived : Bool) : Prop :=
  (q.dests.length < maxQuery ∧ q.pairs.length < maxQuery) ∧
    (q.qlen = 0 ∨ PairsAnswered rows q ds answers reply arrived)

section Safe

variable {P : Params} {g : NetworkGraph} {q : CircuitQuery} {answers : List (List Asn)}
  {ds : ℕ → List Char → Option Destination}

lemma exists_answeredWith (h : Forall₂ (AnswerOf P g) q.pairTexts answers) :
    ∃ ds, AnsweredWith P g q ds answers := by
  have hk : ∀ k : ℕ, ∃ ds, ∀ pair, q.pairTexts[k]? = some pair →
      KnownDestinations P g ds ∧ bestAses ds pair.1 pair.2 = some (answers.getD k []) := by
    intro k
    by_cases hlt : k < q.pairTexts.length
    · have hlt' : k < answers.length := h.length_eq ▸ hlt
      obtain ⟨ds, hds, hases⟩ := h.get hlt hlt'
      refine ⟨ds, fun pair hpair => ⟨hds, ?_⟩⟩
      rw [getElem?_eq_getElem hlt, Option.some.injEq] at hpair
      rw [← hpair, getD_eq_getElem _ _ hlt']
      exact hases
    · refine ⟨fun _ => none, fun pair hpair => ?_⟩
      rw [getElem?_eq_none (not_lt.mp hlt)] at hpair
      cases hpair
  choose ds hds using hk
  exact ⟨ds, h.length_eq.symm, hds⟩

/-- The lists of a pair are not empty exactly when the server had its routes. -/
lemma AnsweredWith.ne_nil_iff (h : AnsweredWith P g q ds answers) {x y : ℕ}
    (hx : x < q.asEntry.length) (hy : y < q.asExit.length) :
    (∀ k ∈ pairQueries q x y, answers.getD k [] ≠ []) ↔ RoutesListed q ds x y := by
  refine forall₂_congr fun k hk => ?_
  have hlt : k < q.pairTexts.length := by
    rw [q.length_pairTexts, qlen]
    simp only [pairQueries, mem_cons, not_mem_nil, or_false] at hk
    omega
  have hget : q.pairTexts[k]? = some q.pairTexts[k] := getElem?_eq_getElem hlt
  obtain ⟨hds, hases⟩ := h.2 k _ hget
  rw [(bestAses_spec hds hases).2]
  constructor
  · intro hroute pair hpair
    obtain rfl := Option.some.inj (hget.symm.trans hpair)
    exact hroute
  · exact fun hroute => hroute _ hget

lemma AnsweredWith.noneEmpty_iff (h : AnsweredWith P g q ds answers) : NoneEmpty q answers ↔
    ∀ x y, x < q.asEntry.length → y < q.asExit.length →
    ShareAs q answers x y ∨ RoutesListed q ds x y :=
  forall₂_congr fun _ _ => forall₂_congr fun hx hy => or_congr_right (h.ne_nil_iff hx hy)

/-- **When pairs are recorded safely.**  Let a server that has been asked for pairs of ASes reply to
a request.  Every pair that is recorded as free has been answered with four lists of ASes that are
not empty and shares no AS, if the request fits its arrays and either asks for nothing, or the reply
has arrived and answers all pairs, with row pointers that suffice.  Conversely, this is needed, with
the row pointers that are needed. -/
theorem recordedFree_safe_of_answered (P : Params) (g : NetworkGraph) (history : List (List Char))
    (st st' : ServerState) (q : CircuitQuery) (reply : List Char) (arrived : Bool)
    (hhistory : ∀ data ∈ history, ∀ pair ∈ requestPairs data, AsText pair.1 ∧ AsText pair.2)
    (hrun : serveAll P g ServerState.fresh history = some st)
    (hserve : serve P g st q.text = some (st', reply)) :
    ∃ answers ds, AnsweredWith P g q ds answers ∧ reply = replyOf q answers ∧
      (RequestAnswered RowsSuffice q ds answers reply arrived →
        SafelyRecorded q answers reply arrived) ∧
      (SafelyRecorded q answers reply arrived →
        RequestAnswered RowsNeeded q ds answers reply arrived) := by
  obtain ⟨answers, hanswers, rfl⟩ := answers_of_serve hhistory hrun hserve
  obtain ⟨ds, hds⟩ := exists_answeredWith hanswers
  refine ⟨answers, ds, hds, rfl, ?_, fun hsafe => ?_⟩
  · rintro ⟨hquery, hq | h⟩
    · cases arrived with
      | false => exact safelyRecorded_failed_iff.mpr ⟨hquery, hq⟩
      | true =>
        -- nothing is asked, and the reply consists of the end mark
        have hnil : q.pairTexts = [] := by
          rw [← length_eq_zero_iff, q.length_pairTexts, hq]
        have hentry : q.asEntry.length = 0 := by
          unfold qlen at hq
          omega
        refine safelyRecorded_of_rows hanswers ⟨hquery.1, hquery.2, ?_, ?_⟩ ?_ fun x y hx => ?_
        · rw [replyOf, hnil, zip_nil_left]
          decide
        · rw [hnil]
          simp
        · rw [entryParts, hentry]
          exact .inl (Nat.zero_le _)
        · omega
    · rw [h.arrived]
      exact safelyRecorded_of_rows hanswers h.fits h.attackers (hds.noneEmpty_iff.mpr h.pairs)
  · cases arrived with
    | false =>
      obtain ⟨hquery, hq⟩ := safelyRecorded_failed_iff.mp hsafe
      exact ⟨hquery, .inl hq⟩
    | true =>
      obtain ⟨hfit, hrows, hpairs⟩ := hsafe.needed hanswers
      exact ⟨⟨hfit.dests, hfit.pairs⟩, .inr ⟨rfl, hfit, hrows, hds.noneEmpty_iff.mp hpairs⟩⟩

/-- Between the client and the entry, and between the exit and the destination, there is a link. -/
def twoLinks : NetworkGraph := processCyclopsFile ["1\t2\tc2p".toList, "3\t4\tc2p".toList]

/-- A request for one entry and one exit whose segments share no AS. -/
def freeQuery : CircuitQuery where
  asSrc := "1".toList
  asDest := "4".toList
  asEntry := ["2".toList]
  asExit := ["3".toList]
  asTexts := by decide

/-- What the client reads has been answered. -/
lemma answers_of_parseReply (h : Forall₂ (AnswerOf P g) q.pairTexts answers) {sets : List AsnSet}
    (hparse : parseReply q.qlen (replyOf q answers) = some sets) :
    (∀ r ∈ q.pairTexts.zip answers, RecordFits r.1 r.2) ∧
    answers.map longs = sets.map AsnSet.ases := by
  rw [parseReply_replyOf h] at hparse
  split_ifs at hparse with hfits
  refine ⟨hfits, ?_⟩
  rw [← Option.some.inj hparse, List.map_map]
  have hzip : (q.pairTexts.zip answers).map Prod.snd = answers := map_snd_zip h.length_eq.ge
  nth_rewrite 1 [← hzip]
  rw [List.map_map]
  rfl

lemma AnsweredWith.forall₂ (h : AnsweredWith P g q ds answers) :
    Forall₂ (AnswerOf P g) q.pairTexts answers := by
  refine forall₂_iff_get.mpr ⟨h.1.symm, fun k hk hk' => ⟨ds k, ?_⟩⟩
  have hget := h.2 k _ (getElem?_eq_getElem hk)
  rwa [getD_eq_getElem _ _ hk'] at hget

lemma serve_freeQuery : ∃ st', serve {} twoLinks ServerState.fresh freeQuery.text =
    some (st', replyOf freeQuery [[3, 4], [4, 3], [2, 1], [1, 2]]) := by
  have hreply : (serve {} twoLinks ServerState.fresh freeQuery.text).map Prod.snd =
      some (replyOf freeQuery [[3, 4], [4, 3], [2, 1], [1, 2]]) := by
    decide +kernel
  obtain ⟨⟨st', reply⟩, hserve, rfl⟩ := map_eq_some_iff.mp hreply
  exact ⟨st', hserve⟩

/-- The reply fits its arrays, and its lists are known. -/
lemma protocolFits_freeQuery (h : Forall₂ (AnswerOf {} twoLinks) freeQuery.pairTexts answers)
    (heq : replyOf freeQuery [[3, 4], [4, 3], [2, 1], [1, 2]] = replyOf freeQuery answers) :
    ProtocolFits freeQuery answers (replyOf freeQuery [[3, 4], [4, 3], [2, 1], [1, 2]]) ∧
      answers.map longs = [[3, 4], [4, 3], [2, 1], [1, 2]] := by
  have hparse : parseReply freeQuery.qlen (replyOf freeQuery [[3, 4], [4, 3], [2, 1], [1, 2]]) =
      some ((freeQuery.pairTexts.zip [[3, 4], [4, 3], [2, 1], [1, 2]]).map
        fun (r : (List Char × List Char) × List Asn) => asnSetOf r.1 r.2) := by
    decide +kernel
  rw [heq] at hparse
  obtain ⟨hrecords, hlongs⟩ := answers_of_parseReply h hparse
  exact ⟨⟨by decide, by decide, by decide, hrecords⟩, hlongs⟩

/-- The pair is recorded as free, and has been answered. -/
theorem recordedFree_safe_freeQuery :
    ∃ st' reply answers ds, serve {} twoLinks ServerState.fresh freeQuery.text = some (st', reply) ∧
      AnsweredWith {} twoLinks freeQuery ds answers ∧ SafelyRecorded freeQuery answers reply true ∧
      recordedFree freeQuery (replicate 4 AsnSet.empty) [] (some [reply]) = some [true] := by
  obtain ⟨st', hserve⟩ := serve_freeQuery
  obtain ⟨answers, ds, hds, heq, hsafe, -⟩ := recordedFree_safe_of_answered {} twoLinks []
    ServerState.fresh st' freeQuery _ true (by simp) rfl hserve
  obtain ⟨hfit, hlists⟩ := protocolFits_freeQuery hds.forall₂ heq
  refine ⟨st', _, answers, ds, hserve, hds,
    hsafe ⟨by decide, .inr ⟨rfl, hfit, ?_, hds.noneEmpty_iff.mp ?_⟩⟩, by decide +kernel⟩
  · rw [hlists]
    decide
  · intro x y hx hy
    refine .inr fun k hk hnil => ?_
    obtain rfl : x = 0 := Nat.lt_one_iff.mp hx
    obtain rfl : y = 0 := Nat.lt_one_iff.mp hy
    have hget : (answers.map longs).getD k (longs []) = longs (answers.getD k []) := by
      rw [List.getD_map]
    have hne : ∀ k ∈ pairQueries freeQuery 0 0,
        [[3, 4], [4, 3], [2, 1], [1, 2]].getD k (longs []) ≠ longs [] := by
      decide
    rw [hlists, hnil] at hget
    exact hne k hk hget

/-- A request for an exit whose AS is not known. -/
def unknownExitQuery : CircuitQuery where
  asSrc := "1".toList
  asDest := "2".toList
  asEntry := ["2".toList]
  asExit := ["-1".toList]
  asTexts := by decide

/-- The pair with the unknown exit is recorded as free, although the server has answered its queries
to and from the exit with empty lists. -/
theorem recordedFree_unknownExit :
    ((serve {} (processCyclopsFile ["1\t2\tc2p".toList]) ServerState.fresh
      unknownExitQuery.text).map Prod.snd =
        some (replyOf unknownExitQuery [[], [], [2, 1], [1, 2]])) ∧
    (∀ r ∈ unknownExitQuery.pairTexts.zip [[], [], [2, 1], [1, 2]],
      bestAses (allDestinations {} (processCyclopsFile ["1\t2\tc2p".toList])) r.1.1 r.1.2 =
        some r.2) ∧
    recordedFree unknownExitQuery (replicate 4 AsnSet.empty) []
      (some [replyOf unknownExitQuery [[], [], [2, 1], [1, 2]]]) = some [true] ∧
    ¬ SafelyRecorded unknownExitQuery [[], [], [2, 1], [1, 2]]
      (replyOf unknownExitQuery [[], [], [2, 1], [1, 2]]) true := by
  have hfree : recordedFree unknownExitQuery (replicate 4 AsnSet.empty) []
      (some [replyOf unknownExitQuery [[], [], [2, 1], [1, 2]]]) = some [true] := by
    decide +kernel
  refine ⟨by decide +kernel, by decide +kernel, hfree, fun hsafe => ?_⟩
  obtain ⟨flags, hflags, hpairs⟩ := hsafe (replicate 4 AsnSet.empty) []
    [replyOf unknownExitQuery [[], [], [2, 1], [1, 2]]] rfl ⟨by decide, by simp⟩
  rw [if_pos rfl, hfree, Option.some.injEq] at hflags
  obtain ⟨-, hlists, -⟩ := hpairs 0 0 (by decide) (by decide) (by rw [← hflags]; rfl)
  exact hlists 0 (by simp [pairQueries]) rfl

end Safe

end Astoria
