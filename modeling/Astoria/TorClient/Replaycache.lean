import Mathlib.Algebra.Order.Ring.Int
import Astoria.Library.RecentMap

/-!
# The replay cache

A hidden service remembers the digests of what it has received, each with the time at which it was
received last, and takes data for a replay if it was received at most a horizon ago.  Old digests
are removed from time to time only, but the answers are those of an exact window
(`replaycache_exact`).
-/

namespace Astoria

open List Function
open RecentMap

section Replaycache

variable {Data Digest : Type*} [DecidableEq Digest]

/-- A replay cache (`replaycache_t`). -/
structure Replaycache (Digest : Type*) where
  /-- The time between two removals of old digests. -/
  scrubInterval : ℤ
  /-- The time of the last removal, or zero. -/
  scrubbed : ℤ
  /-- The age from which on digests are old, or zero if they never are. -/
  horizon : ℤ
  digestsSeen : Digest → Option ℤ

/-- An empty cache (`replaycache_new`). -/
def replaycacheNew (horizon interval : ℤ) : Option (Replaycache Digest) :=
  if horizon < 0 then none
  else some ⟨if interval < 0 then 0 else interval, 0, horizon, fun _ => none⟩

/-- Remove the old digests if it is time to (`replaycache_scrub_if_needed_internal`). -/
def replaycacheScrubIfNeededInternal (present : ℤ) (r : Replaycache Digest) : Replaycache Digest :=
  if present - r.scrubbed < r.scrubInterval ∧ 0 < r.scrubbed then r
  else if r.horizon = 0 then r
  else
    { r with
      digestsSeen := fun digest => (r.digestsSeen digest).filter fun accessTime =>
        ¬ accessTime < present - r.horizon
      scrubbed := if r.scrubbed < present then present else r.scrubbed }

/-- The answer to a test: whether it is a hit, and the elapsed time if it is written. -/
structure ReplayAnswer where
  hit : Bool
  elapsed : Option ℤ
  deriving DecidableEq

/-- Whether data with an access time is a hit, and how old it is. -/
def replayAnswer (present horizon accessTime : ℤ) : ReplayAnswer :=
  if present - horizon ≤ accessTime ∨ horizon = 0 then
    ⟨true, some (if accessTime ≤ present then present - accessTime else 0)⟩
  else ⟨false, none⟩

variable (cryptoDigest : List Data → Digest)

/-- Test whether data was seen, and add it (`replaycache_add_and_test_internal`). -/
def replaycacheAddAndTestInternal (present : ℤ) (r : Replaycache Digest) (data : List Data) :
    ReplayAnswer × Replaycache Digest :=
  if present ≤ 0 ∨ data.length = 0 then (⟨false, none⟩, r)
  else
    let digest := cryptoDigest data
    match r.digestsSeen digest with
    | some accessTime =>
      let seen := if accessTime < present then update r.digestsSeen digest (some present)
        else r.digestsSeen
      (replayAnswer present r.horizon accessTime,
        replaycacheScrubIfNeededInternal present { r with digestsSeen := seen })
    | none =>
      (⟨false, none⟩, replaycacheScrubIfNeededInternal present
        { r with digestsSeen := update r.digestsSeen digest (some present) })

/-! ### Runs -/

inductive ReplaycacheCall (Data : Type*)
  | addAndTest (present : ℤ) (data : List Data)
  | scrubIfNeeded (present : ℤ)

def ReplaycacheCall.time : ReplaycacheCall Data → ℤ
  | addAndTest present _ => present
  | scrubIfNeeded present => present

/-- The cache after a call. -/
def replaycacheStep (r : Replaycache Digest) : ReplaycacheCall Data → Replaycache Digest
  | .addAndTest present data => (replaycacheAddAndTestInternal cryptoDigest present r data).2
  | .scrubIfNeeded present => replaycacheScrubIfNeededInternal present r

/-- The answers to the tests of a run. -/
def replaycacheAnswers (r : Replaycache Digest) : List (ReplaycacheCall Data) → List ReplayAnswer
  | [] => []
  | .addAndTest present data :: calls =>
    let result := replaycacheAddAndTestInternal cryptoDigest present r data
    result.1 :: replaycacheAnswers result.2 calls
  | .scrubIfNeeded present :: calls =>
    replaycacheAnswers (replaycacheScrubIfNeededInternal present r) calls

def ReplaycacheCall.isTest : ReplaycacheCall Data → Bool
  | addAndTest _ _ => true
  | scrubIfNeeded _ => false

/-- The tests of a run are for data, at positive times, and no call is before an earlier one. -/
structure ReplaycacheCallsOk (calls : List (ReplaycacheCall Data)) : Prop where
  tests : ∀ present data, .addAndTest present data ∈ calls → 0 < present ∧ data ≠ []
  times : calls.Pairwise fun a b => a.time ≤ b.time

/-- The data that is tested in a run. -/
def dataSeen (calls : List (ReplaycacheCall Data)) : Set (List Data) :=
  {data | ∃ present, .addAndTest present data ∈ calls}

def testTimes (calls : List (ReplaycacheCall Data)) (data : List Data) : Set ℤ :=
  {present | .addAndTest present data ∈ calls}

/-! ### Exactness -/

/-- **The answer of an exact window** to a test: a hit exactly if the latest of some times is not
older than the horizon, and then the time since it. -/
structure ReplayAnswer.Exact (answer : ReplayAnswer) (horizon present : ℤ) (times : Set ℤ) :
    Prop where
  hit_iff : answer.hit = true ↔
    ∃ earlier, IsGreatest times earlier ∧ (horizon = 0 ∨ present - earlier ≤ horizon)
  elapsed : answer.hit = true → ∀ earlier, IsGreatest times earlier →
    answer.elapsed = some (present - earlier)
  unwritten : answer.hit = false → answer.elapsed = none

lemma ReplayAnswer.Exact.unique {a b : ReplayAnswer} {horizon present : ℤ} {times : Set ℤ}
    (ha : a.Exact horizon present times) (hb : b.Exact horizon present times) : a = b := by
  have hhit : a.hit = b.hit := Bool.eq_iff_iff.mpr (ha.hit_iff.trans hb.hit_iff.symm)
  have helapsed : a.elapsed = b.elapsed := by
    cases hcase : a.hit with
    | true =>
      obtain ⟨earlier, hlatest, -⟩ := ha.hit_iff.mp hcase
      rw [ha.elapsed hcase earlier hlatest, hb.elapsed (hhit ▸ hcase) earlier hlatest]
    | false => rw [ha.unwritten hcase, hb.unwritten (hhit ▸ hcase)]
  cases a
  cases b
  exact congrArg₂ ReplayAnswer.mk hhit helapsed

/-- A time that is too old for a cache at some moment. -/
def IsOld (horizon now t : ℤ) : Prop := horizon ≠ 0 ∧ t < now - horizon

/-- A cache stands for what was received up to some moment. -/
structure Replaycache.Tracks (r : Replaycache Digest) (horizon : ℤ) (history : Set (Digest × ℤ))
    (now : ℤ) : Prop where
  horizon_eq : r.horizon = horizon
  remembers : Remembers r.digestsSeen history (IsOld horizon now)
  past : ∀ k, ∀ t ∈ times history k, t ≤ now

variable {horizon interval now present : ℤ} {r r' : Replaycache Digest} {history : Set (Digest × ℤ)}
  {cryptoDigest} {data : List Data}

omit [DecidableEq Digest] in
lemma Replaycache.Tracks.later (h : r.Tracks horizon history now) (hle : now ≤ present) :
    r.Tracks horizon history present := by
  refine ⟨h.horizon_eq, h.remembers.mono fun t ht => ⟨ht.1, ?_⟩, fun k t ht =>
    (h.past k t ht).trans hle⟩
  have hold := ht.2
  omega

omit [DecidableEq Digest] in
/-- **Removing old digests** leaves what a cache stands for. -/
lemma Replaycache.Tracks.scrub (h : r.Tracks horizon history present) :
    (replaycacheScrubIfNeededInternal present r).Tracks horizon history present := by
  unfold replaycacheScrubIfNeededInternal
  by_cases hrecent : present - r.scrubbed < r.scrubInterval ∧ 0 < r.scrubbed
  · rw [if_pos hrecent]
    exact h
  rw [if_neg hrecent]
  by_cases hforever : r.horizon = 0
  · rw [if_pos hforever]
    exact h
  rw [if_neg hforever]
  have hpos : horizon ≠ 0 := h.horizon_eq ▸ hforever
  refine ⟨h.horizon_eq, ?_, h.past⟩
  dsimp only
  rw [h.horizon_eq]
  refine h.remembers.evict (fun t => t < present - horizon) (fun t ht => ⟨hpos, ht⟩) ?_
  rintro t t' hle ⟨-, hlt⟩
  exact ⟨hpos, hle.trans_lt hlt⟩

/-- A time that is found gives the exact answer. -/
lemma replayAnswer_exact {accessTime : ℤ} {latest : Set ℤ} (ht : IsGreatest latest accessTime)
    (hpast : accessTime ≤ present) : (replayAnswer present horizon accessTime).Exact horizon present
      latest := by
  have hiff : (replayAnswer present horizon accessTime).hit = true ↔
      (horizon = 0 ∨ present - accessTime ≤ horizon) := by
    unfold replayAnswer
    split_ifs with hhit
    · exact iff_of_true rfl (by omega)
    · exact iff_of_false (by decide) (by omega)
  refine ⟨hiff.trans ⟨fun h => ⟨accessTime, ht, h⟩, ?_⟩, fun hhit earlier hearlier => ?_,
    fun hmiss => ?_⟩
  · rintro ⟨earlier, hearlier, h⟩
    rwa [ht.unique hearlier]
  · rw [hearlier.unique ht]
    unfold replayAnswer at hhit ⊢
    split_ifs at hhit ⊢
    rfl
  · unfold replayAnswer at hmiss ⊢
    split_ifs at hmiss ⊢
    rfl

lemma miss_exact {latest : Set ℤ} (hold : ∀ t ∈ latest, IsOld horizon present t) :
    (⟨false, none⟩ : ReplayAnswer).Exact horizon present latest := by
  refine ⟨iff_of_false (by decide) ?_, fun h => absurd h (by decide), fun _ => rfl⟩
  rintro ⟨earlier, hlatest, hrecent⟩
  obtain ⟨hpos, hlt⟩ := hold earlier hlatest.1
  omega

variable (cryptoDigest) in
/-- **A test** has the exact answer, and the cache stands for one more event. -/
lemma Replaycache.Tracks.addAndTest (h : r.Tracks horizon history present) (hpos : 0 < present)
    (hdata : data ≠ []) :
    let result := replaycacheAddAndTestInternal cryptoDigest present r data
    result.1.Exact horizon present (times history (cryptoDigest data)) ∧
      result.2.Tracks horizon (insert (cryptoDigest data, present) history) present := by
  have hrecord :
      ({ r with digestsSeen := update r.digestsSeen (cryptoDigest data) (some present) } :
        Replaycache Digest).Tracks horizon (insert (cryptoDigest data, present) history)
          present := by
    refine ⟨h.horizon_eq, h.remembers.record (h.past _), fun k t ht => ?_⟩
    rw [times_insert] at ht
    split_ifs at ht
    · exact ht.elim le_of_eq (h.past k t)
    · exact h.past k t ht
  dsimp only
  unfold replaycacheAddAndTestInternal
  rw [if_neg (by rw [length_eq_zero_iff]; exact fun hor => hor.elim (not_le_of_gt hpos) hdata)]
  dsimp only
  cases hseen : r.digestsSeen (cryptoDigest data) with
  | none => exact ⟨miss_exact (h.remembers.missed _ hseen), hrecord.scrub⟩
  | some accessTime =>
    have hlatest := h.remembers.found _ _ hseen
    have hle := h.past _ _ hlatest.1
    refine ⟨h.horizon_eq ▸ replayAnswer_exact hlatest hle, ?_⟩
    dsimp only
    split_ifs with hearlier
    · exact hrecord.scrub
    · -- the same moment: the entry is that of this test already
      obtain rfl := le_antisymm hle (not_lt.mp hearlier)
      have hsame : update r.digestsSeen (cryptoDigest data) (some accessTime) = r.digestsSeen := by
        rw [← hseen, update_eq_self]
      rw [hsame] at hrecord
      exact hrecord.scrub

/-- The events of some calls. -/
def received (cryptoDigest : List Data → Digest) (calls : List (ReplaycacheCall Data)) :
    Set (Digest × ℤ) :=
  {event | ∃ data, .addAndTest event.2 data ∈ calls ∧ cryptoDigest data = event.1}

omit [DecidableEq Digest] in
/-- One more test is one more event. -/
lemma received_addAndTest (calls : List (ReplaycacheCall Data)) :
    received cryptoDigest (.addAndTest present data :: calls) =
      insert (cryptoDigest data, present) (received cryptoDigest calls) := by
  ext ⟨digest, t⟩
  constructor
  · rintro ⟨data', hmem, hdigest⟩
    rcases mem_cons.mp hmem with heq | hmem
    · cases heq
      exact .inl (Prod.ext hdigest.symm rfl)
    · exact .inr ⟨data', hmem, hdigest⟩
  · rintro (heq | ⟨data', hmem, hdigest⟩)
    · cases heq
      exact ⟨data, mem_cons_self, rfl⟩
    · exact ⟨data', mem_cons_of_mem _ hmem, hdigest⟩

omit [DecidableEq Digest] in
/-- Removing old digests is no event. -/
lemma received_scrubIfNeeded (calls : List (ReplaycacheCall Data)) :
    received cryptoDigest (.scrubIfNeeded present :: calls) = received cryptoDigest calls := by
  ext ⟨digest, t⟩
  constructor
  · rintro ⟨data', hmem, hdigest⟩
    rcases mem_cons.mp hmem with heq | hmem
    · cases heq
    · exact ⟨data', hmem, hdigest⟩
  · rintro ⟨data', hmem, hdigest⟩
    exact ⟨data', mem_cons_of_mem _ hmem, hdigest⟩

variable {calls : List (ReplaycacheCall Data)} {c : ReplaycacheCall Data}

lemma ReplaycacheCallsOk.tail (h : ReplaycacheCallsOk (c :: calls)) : ReplaycacheCallsOk calls :=
  ⟨fun present data hmem => h.tests present data (mem_cons_of_mem _ hmem),
    (pairwise_cons.mp h.times).2⟩

/-- Some moment is not after any call. -/
lemma ReplaycacheCallsOk.exists_first (h : ReplaycacheCallsOk calls) (last : ℤ) :
    ∃ first, (∀ c ∈ calls, first ≤ c.time) ∧ first ≤ last := by
  cases calls with
  | nil => exact ⟨last, fun c hc => (not_mem_nil hc).elim, le_rfl⟩
  | cons c calls =>
    refine ⟨min c.time last, fun c' hc' => (min_le_left _ _).trans ?_, min_le_right _ _⟩
    rcases mem_cons.mp hc' with rfl | hc'
    · exact le_rfl
    · exact (pairwise_cons.mp h.times).1 c' hc'

variable (cryptoDigest) in
/-- **A run keeps track** of the events. -/
lemma Replaycache.Tracks.run (h : r.Tracks horizon history now) (hok : ReplaycacheCallsOk calls)
    (hnow : ∀ c ∈ calls, now ≤ c.time) {last : ℤ} (hlast : ∀ c ∈ calls, c.time ≤ last)
    (hle : now ≤ last) : (calls.foldl (replaycacheStep cryptoDigest) r).Tracks horizon
      (received cryptoDigest calls ∪ history) last := by
  induction calls generalizing r history now with
  | nil =>
    have hnone : received cryptoDigest ([] : List (ReplaycacheCall Data)) = ∅ :=
      Set.eq_empty_of_forall_notMem fun _ ⟨_, hmem, _⟩ => not_mem_nil hmem
    rw [hnone, Set.empty_union]
    exact h.later hle
  | cons c calls ih =>
    have hlater := h.later (hnow c mem_cons_self)
    have hrest : ∀ c' ∈ calls, c'.time ≤ last := fun c' hc' => hlast c' (mem_cons_of_mem _ hc')
    have hnext : ∀ c' ∈ calls, c.time ≤ c'.time := (pairwise_cons.mp hok.times).1
    rw [foldl_cons]
    cases c with
    | addAndTest present data =>
      obtain ⟨hpos, hdata⟩ := hok.tests present data mem_cons_self
      have hstep := (hlater.addAndTest cryptoDigest hpos hdata).2
      rw [received_addAndTest, Set.insert_union, ← Set.union_insert]
      exact ih hstep hok.tail hnext hrest (hlast _ mem_cons_self)
    | scrubIfNeeded present =>
      rw [received_scrubIfNeeded]
      exact ih hlater.scrub hok.tail hnext hrest (hlast _ mem_cons_self)

/-- **Two caches that stand for the same events** answer alike, also if one of them is left alone in
between. -/
lemma Replaycache.Tracks.answers_eq (h : r.Tracks horizon history now)
    (h' : r'.Tracks horizon history now) (hok : ReplaycacheCallsOk calls)
    (hnow : ∀ c ∈ calls, now ≤ c.time) : replaycacheAnswers cryptoDigest r calls =
      replaycacheAnswers cryptoDigest r' (calls.filter ReplaycacheCall.isTest) := by
  induction calls generalizing r r' history now with
  | nil => rfl
  | cons c calls ih =>
    have hlater := h.later (hnow c mem_cons_self)
    have hlater' := h'.later (hnow c mem_cons_self)
    have hnext : ∀ c' ∈ calls, c.time ≤ c'.time := (pairwise_cons.mp hok.times).1
    cases c with
    | addAndTest present data =>
      obtain ⟨hpos, hdata⟩ := hok.tests present data mem_cons_self
      obtain ⟨hexact, htracks⟩ := hlater.addAndTest cryptoDigest hpos hdata
      obtain ⟨hexact', htracks'⟩ := hlater'.addAndTest cryptoDigest hpos hdata
      rw [filter_cons_of_pos rfl, replaycacheAnswers, replaycacheAnswers]
      exact congrArg₂ List.cons (hexact.unique hexact') (ih htracks htracks' hok.tail hnext)
    | scrubIfNeeded present =>
      rw [filter_cons_of_neg Bool.false_ne_true, replaycacheAnswers]
      exact ih hlater.scrub hlater' hok.tail hnext

omit [DecidableEq Digest] in
lemma tracks_of_new (hr : replaycacheNew horizon interval = some r) (now : ℤ) :
    r.Tracks horizon ∅ now := by
  unfold replaycacheNew at hr
  split_ifs at hr <;> cases hr <;> exact ⟨rfl, Remembers.empty _, fun _ _ ht => ht.elim⟩

omit [DecidableEq Digest] in
/-- The events of data are its tests, if no other data has the digest. -/
lemma times_received {before : List (ReplaycacheCall Data)}
    (hinj : Set.InjOn cryptoDigest (dataSeen calls)) (hbefore : ∀ c ∈ before, c ∈ calls)
    (hdata : data ∈ dataSeen calls) : times (received cryptoDigest before)
      (cryptoDigest data) = testTimes before data := by
  ext t
  constructor
  · rintro ⟨data', hmem, hdigest⟩
    obtain rfl := hinj ⟨t, hbefore _ hmem⟩ hdata hdigest
    exact hmem
  · exact fun hmem => ⟨data, hmem, rfl⟩

/-- **The replay cache is exact.**  A test is a hit if and only if the same data was tested before
and its latest test is at most the horizon old, and then the elapsed time is the time since.
Removing old digests does not change the answers. -/
theorem replaycache_exact (hr : replaycacheNew horizon interval = some r)
    (hok : ReplaycacheCallsOk calls) (hinj : Set.InjOn cryptoDigest (dataSeen calls)) :
    (∀ before present data after, calls = before ++ .addAndTest present data :: after →
      (replaycacheAddAndTestInternal cryptoDigest present
        (before.foldl (replaycacheStep cryptoDigest) r) data).1.Exact horizon present
          (testTimes before data)) ∧
      replaycacheAnswers cryptoDigest r calls =
        replaycacheAnswers cryptoDigest r (calls.filter ReplaycacheCall.isTest) := by
  constructor
  · intro before present data after hcalls
    have hmem : .addAndTest present data ∈ calls := hcalls ▸ mem_append_right _ mem_cons_self
    have hbefore : ∀ c ∈ before, c ∈ calls := fun c hc => hcalls ▸ mem_append_left _ hc
    have hpairs := pairwise_append.mp (hcalls ▸ hok.times)
    have hlast : ∀ c ∈ before, c.time ≤ present := fun c hc => hpairs.2.2 c hc _ mem_cons_self
    have hokBefore : ReplaycacheCallsOk before :=
      ⟨fun present data hmem => hok.tests present data (hbefore _ hmem), hpairs.1⟩
    obtain ⟨first, hfirst, hle⟩ := hokBefore.exists_first present
    have htracks := (tracks_of_new hr first).run cryptoDigest hokBefore hfirst hlast hle
    obtain ⟨hpos, hdata⟩ := hok.tests present data hmem
    rw [Set.union_empty] at htracks
    rw [← times_received hinj hbefore ⟨present, hmem⟩]
    exact (htracks.addAndTest cryptoDigest hpos hdata).1
  · obtain ⟨first, hfirst, -⟩ := hok.exists_first 0
    exact (tracks_of_new hr first).answers_eq (tracks_of_new hr first) hok hfirst

/-- Three tests of the same data, the last of which is too late, with removals in between. -/
def lateReplay : List (ReplaycacheCall ℕ) :=
  [.addAndTest 100 [1], .scrubIfNeeded 105, .addAndTest 110 [1], .scrubIfNeeded 125,
    .addAndTest 130 [1]]

theorem replaycache_exact_lateReplay :
    (∀ before present data after, lateReplay = before ++ .addAndTest present data :: after →
      (replaycacheAddAndTestInternal id present
        (before.foldl (replaycacheStep id) ⟨5, 0, 10, fun _ => none⟩) data).1.Exact 10 present
          (testTimes before data)) ∧
      replaycacheAnswers id ⟨5, 0, 10, fun _ => none⟩ lateReplay =
        replaycacheAnswers id ⟨5, 0, 10, fun _ => none⟩
          (lateReplay.filter ReplaycacheCall.isTest) := by
  have hnew : replaycacheNew 10 5 = some (⟨5, 0, 10, fun _ => none⟩ : Replaycache (List ℕ)) := rfl
  refine replaycache_exact hnew ⟨fun present data hmem => ?_, by decide⟩ (Set.injOn_id _)
  have hall : ∀ c ∈ lateReplay, match c with
      | .addAndTest present data => 0 < present ∧ data ≠ []
      | .scrubIfNeeded _ => True := by
    simp [lateReplay]
  exact hall _ hmem

end Replaycache

end Astoria
