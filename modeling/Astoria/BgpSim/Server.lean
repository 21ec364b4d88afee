import Mathlib
import Astoria.BgpSim.BestPaths

/-!
# The server

The server reads requests of the form `dest₁ … destₙ -q src₁ dst₁ … srcₖ dstₖ <EOFc>`.  It
initialises the destinations that it has not met before and answers every pair with a record.  The
destinations and the records are kept over the requests: a destination by its text and a record by
the texts of its pair, joined by a hyphen.  An exception ends the server.

A record is kept even if it was written while its destination was not initialised, and two pairs may
be joined to the same key.  `serve_eq_fresh` says that the answers do not depend on the requests
before, as long as every request lists the destinations of its pairs and no two pairs have the same
key.
-/

namespace Astoria

open List Function
open Option hiding or_assoc

local instance instLawfulBEqText : LawfulBEq (List Char) := inferInstance

/-! ### Serving requests -/

/-- What the server keeps over its requests. -/
structure ServerState where
  /-- The texts that have been met as destinations. -/
  dests : List (List Char)
  d : List Char → Option Destination
  /-- The records that have been written. -/
  cache : List Char → Option (List Char)

/-- The state of a server that has just been started. -/
def ServerState.fresh : ServerState := ⟨[], fun _ => none, fun _ => none⟩

/-- Initialise a destination.  There is none if the text is not the number of a node. -/
def initDestination (P : Params) (g : NetworkGraph) (dest : List Char) :
    Option (Option Destination) :=
  match tryParseUInt32 dest with
  | none => some none
  | some destNum =>
    if destNum ∈ g.asNodes then
      (initMiniDestination P g destNum false).bind fun miniDest =>
        (updatePaths P (fun _ => false) (Destination.ofMiniDestination miniDest)).map some
    else some none

/-- The texts before the mark of the queries are destinations.  The last text is left out. -/
def destArgs (args : List (List Char)) : List (List Char) :=
  args.dropLast.takeWhile fun arg => arg ≠ "-q".toList

/-- The pairs of texts up to the end mark. -/
def queryPairs : List (List Char) → List (List Char × List Char)
  | src :: dst :: rest =>
    if src = "<EOFc>".toList then [] else (src, dst) :: queryPairs rest
  | _ => []

def requestDests (data : List Char) : List (List Char) := destArgs (data.splitOn ' ')

def requestPairs (data : List Char) : List (List Char × List Char) :=
  queryPairs ((data.splitOn ' ').drop ((requestDests data).length + 1))

/-- Initialise a destination that has not been met before. -/
def addDestination (P : Params) (g : NetworkGraph) (st : ServerState) (dest : List Char) :
    Option ServerState :=
  if dest ∈ st.dests then some st
  else
    (initDestination P g dest).map fun newD =>
      { st with
        dests := st.dests ++ [dest]
        d := if newD.isSome then update st.d dest newD else st.d }

def queryKey (pair : List Char × List Char) : List Char := pair.1 ++ "-".toList ++ pair.2

/-- Append the record of a pair to the reply. -/
def answerQuery (reply : ServerState × List Char) (pair : List Char × List Char) :
    Option (ServerState × List Char) :=
  match reply.1.cache (queryKey pair) with
  | some record => some (reply.1, reply.2 ++ record)
  | none =>
    (getBestPaths reply.1.d pair.1 pair.2).map fun record =>
      ({ reply.1 with cache := update reply.1.cache (queryKey pair) (some record) },
        reply.2 ++ record)

def serve (P : Params) (g : NetworkGraph) (st : ServerState) (data : List Char) :
    Option (ServerState × List Char) :=
  ((requestDests data).foldlM (addDestination P g) st).bind fun st =>
    ((requestPairs data).foldlM answerQuery (st, [])).map fun reply =>
      (reply.1, reply.2 ++ "<EOFs>".toList)

/-- Serve requests, one after another. -/
def serveAll (P : Params) (g : NetworkGraph) (st : ServerState) (history : List (List Char)) :
    Option ServerState :=
  history.foldlM (fun st data => (serve P g st data).map Prod.fst) st

/-! ### The destinations -/

/-- The destinations of a server that has met all texts. -/
def allDestinations (P : Params) (g : NetworkGraph) (dest : List Char) : Option Destination :=
  (initDestination P g dest).join

/-- The destinations of a server are those of the texts that it has met. -/
structure Initialised (P : Params) (g : NetworkGraph) (st : ServerState) : Prop where
  init : ∀ dest ∈ st.dests, initDestination P g dest ≠ none
  met : ∀ dest ∈ st.dests, st.d dest = allDestinations P g dest
  /-- There are no others. -/
  other : ∀ dest, dest ∉ st.dests → st.d dest = none

section Destinations

variable {P : Params} {g : NetworkGraph} {st st' : ServerState}

lemma initialised_fresh : Initialised P g ServerState.fresh where
  init _ h := absurd h not_mem_nil
  met _ h := absurd h not_mem_nil
  other _ _ := rfl

lemma Initialised.addDestination (h : Initialised P g st) (dest : List Char) :
    (∃ st', addDestination P g st dest = some st' ∧ Initialised P g st' ∧ st'.cache = st.cache ∧
      ∀ u, u ∈ st'.dests ↔ u ∈ st.dests ∨ u = dest) ∨
    (Astoria.addDestination P g st dest = none ∧ initDestination P g dest = none) := by
  unfold Astoria.addDestination
  by_cases hmem : dest ∈ st.dests
  · refine .inl ⟨st, if_pos hmem, h, rfl, fun u => ⟨.inl, ?_⟩⟩
    rintro (hu | rfl)
    · exact hu
    · exact hmem
  · rw [if_neg hmem]
    rcases hinit : initDestination P g dest with _ | newD
    · exact .inr ⟨rfl, rfl⟩
    · refine .inl ⟨_, rfl, ⟨?_, ?_, ?_⟩, rfl, fun u => by simp⟩
      · intro u hu
        rw [mem_append, mem_singleton] at hu
        rcases hu with hu | rfl
        · exact h.init u hu
        · simp [hinit]
      · intro u hu
        rw [mem_append, mem_singleton] at hu
        have hold : dest ∉ st.dests → st.d dest = none := h.other dest
        rcases hu with hu | rfl
        · have hne : u ≠ dest := fun hc => hmem (hc ▸ hu)
          cases newD <;> simp [hne, h.met u hu]
        · cases newD <;> simp [allDestinations, hinit, hold hmem]
      · intro u hu
        rw [mem_append, mem_singleton, not_or] at hu
        cases newD <;> simp [hu.2, h.other u hu.1]

/-- **The destinations of a request.**  Either an exception is thrown, because one of them cannot be
initialised, or all of them have been met afterwards. -/
lemma Initialised.foldlM_addDestination (h : Initialised P g st) (dests : List (List Char)) :
    (∃ st', dests.foldlM (Astoria.addDestination P g) st = some st' ∧ Initialised P g st' ∧
      st'.cache = st.cache ∧ ∀ u, u ∈ st'.dests ↔ u ∈ st.dests ∨ u ∈ dests) ∨
    (dests.foldlM (Astoria.addDestination P g) st = none ∧
      ∃ dest ∈ dests, initDestination P g dest = none) := by
  induction dests generalizing st with
  | nil => exact .inl ⟨st, rfl, h, rfl, by simp⟩
  | cons dest dests ih =>
    rw [foldlM_cons]
    rcases h.addDestination dest with ⟨st₁, hst₁, h₁, hcache₁, hdests₁⟩ | ⟨hnone, hinit⟩
    · rw [hst₁, bind_eq_bind, bind_some]
      rcases ih h₁ with ⟨st₂, hst₂, h₂, hcache₂, hdests₂⟩ | ⟨hnone, u, hu, hinit⟩
      · refine .inl ⟨st₂, hst₂, h₂, hcache₂.trans hcache₁, fun u => ?_⟩
        rw [hdests₂, hdests₁, mem_cons, or_assoc]
      · exact .inr ⟨hnone, u, mem_cons_of_mem _ hu, hinit⟩
    · exact .inr ⟨by rw [hnone]; rfl, dest, mem_cons_self, hinit⟩

lemma getBestPaths_congr {ds ds' : List Char → Option Destination} {src dst : List Char}
    (h : ds dst = ds' dst) : getBestPaths ds src dst = getBestPaths ds' src dst := by
  rw [getBestPaths, getBestPaths, bestAses, bestAses, h]

end Destinations

/-! ### The records -/

/-- The records in the cache are answers to pairs with their keys, in the sense of `ans`. -/
def CacheHolds (ans : List Char × List Char → List Char → Prop) (st : ServerState) : Prop :=
  ∀ key record, st.cache key = some record → ∃ pair, queryKey pair = key ∧ ans pair record

/-- The destinations of a server at some time. -/
def KnownDestinations (P : Params) (g : NetworkGraph) (ds : List Char → Option Destination) :
    Prop :=
  ∀ dest, ds dest ≠ none → ds dest = allDestinations P g dest

/-- The destinations that a server may have when it answers the pairs of a request: those of the
texts in the request, and possibly those of other texts. -/
structure MetBy (P : Params) (g : NetworkGraph) (data : List Char)
    (ds : List Char → Option Destination) : Prop where
  listed : ∀ dest ∈ requestDests data, ds dest = allDestinations P g dest
  known : KnownDestinations P g ds

section Records

variable {ans : List Char × List Char → List Char → Prop} {st : ServerState}

/-- What happens to one pair of a request.  The record that is appended is an answer to the pair, if
the records that are written for it and the records with its key are. -/
lemma CacheHolds.answerQuery (h : CacheHolds ans st) {pair : List Char × List Char}
    (hkey : ∀ pair' record, queryKey pair' = queryKey pair → ans pair' record → ans pair record)
    (hans : ∀ record, getBestPaths st.d pair.1 pair.2 = some record → ans pair record)
    (res : List Char) :
    (∃ st' record, answerQuery (st, res) pair = some (st', res ++ record) ∧ ans pair record ∧
      st'.d = st.d ∧ st'.dests = st.dests ∧ CacheHolds ans st') ∨
    (Astoria.answerQuery (st, res) pair = none ∧ getBestPaths st.d pair.1 pair.2 = none) := by
  unfold Astoria.answerQuery
  rcases hcache : st.cache (queryKey pair) with _ | record
  · dsimp only
    rcases hrecord : getBestPaths st.d pair.1 pair.2 with _ | record
    · exact .inr ⟨rfl, rfl⟩
    · refine .inl ⟨_, record, rfl, hans record hrecord, rfl, rfl, ?_⟩
      intro key r hr
      dsimp only at hr
      by_cases hk : key = queryKey pair
      · rw [hk, update_self, Option.some.injEq] at hr
        exact ⟨pair, hk.symm, hr ▸ hans record hrecord⟩
      · rw [update_of_ne hk] at hr
        exact h key r hr
  · obtain ⟨pair', hkey', hrecord⟩ := h _ record hcache
    exact .inl ⟨st, record, rfl, hkey pair' record hkey' hrecord, rfl, rfl, h⟩

/-- **The answers to a request.**  The reply consists of answers to its pairs, one after another. -/
lemma CacheHolds.foldlM_answerQuery (h : CacheHolds ans st) {pairs : List (List Char × List Char)}
    (hkey : ∀ pair ∈ pairs, ∀ pair' record, queryKey pair' = queryKey pair → ans pair' record →
      ans pair record)
    (hans : ∀ pair ∈ pairs, ∀ record, getBestPaths st.d pair.1 pair.2 = some record →
      ans pair record)
    (res : List Char) :
    (∃ st' records, pairs.foldlM Astoria.answerQuery (st, res) =
      some (st', res ++ records.flatten) ∧
      Forall₂ ans pairs records ∧ st'.d = st.d ∧ st'.dests = st.dests ∧ CacheHolds ans st') ∨
    (pairs.foldlM Astoria.answerQuery (st, res) = none ∧
      ∃ pair ∈ pairs, getBestPaths st.d pair.1 pair.2 = none) := by
  induction pairs generalizing st res with
  | nil => exact .inl ⟨st, [], by simp, Forall₂.nil, rfl, rfl, h⟩
  | cons pair pairs ih =>
    rw [foldlM_cons]
    rcases h.answerQuery (hkey pair mem_cons_self) (hans pair mem_cons_self) res with
      ⟨st₁, record, hst₁, hrecord, hd₁, hdests₁, h₁⟩ | ⟨hnone, hrecord⟩
    · rw [hst₁, bind_eq_bind, bind_some]
      have hrest : ∀ p ∈ pairs, ∀ record, getBestPaths st₁.d p.1 p.2 = some record →
          ans p record := by
        rw [hd₁]
        exact fun p hp => hans p (mem_cons_of_mem _ hp)
      rcases ih h₁ (fun p hp => hkey p (mem_cons_of_mem _ hp)) hrest (res ++ record) with
        ⟨st₂, records, hst₂, hrecords, hd₂, hdests₂, h₂⟩ | ⟨hnone, p, hp, hrecord⟩
      · refine .inl ⟨st₂, record :: records, ?_, Forall₂.cons hrecord hrecords,
          hd₂.trans hd₁, hdests₂.trans hdests₁, h₂⟩
        rw [hst₂, flatten_cons, append_assoc]
      · rw [hd₁] at hrecord
        exact .inr ⟨hnone, p, mem_cons_of_mem _ hp, hrecord⟩
    · exact .inr ⟨by rw [hnone]; rfl, pair, mem_cons_self, hrecord⟩

variable {P : Params} {g : NetworkGraph} {data : List Char}

/-- **One request.**  The reply consists of answers to the pairs of the request, provided that this
is true of what is written for them, with the destinations that have been met by then. -/
lemma serve_spec (hi : Initialised P g st) (hc : CacheHolds ans st)
    (hkey : ∀ pair ∈ requestPairs data, ∀ pair' record, queryKey pair' = queryKey pair →
      ans pair' record → ans pair record)
    (hans : ∀ ds, MetBy P g data ds → ∀ pair ∈ requestPairs data, ∀ record,
      getBestPaths ds pair.1 pair.2 = some record → ans pair record) :
    (∃ st' records, serve P g st data = some (st', records.flatten ++ "<EOFs>".toList) ∧
      Forall₂ ans (requestPairs data) records ∧
      (∀ dest ∈ requestDests data, initDestination P g dest ≠ none) ∧
      Initialised P g st' ∧ CacheHolds ans st') ∨
    (serve P g st data = none ∧
      ((∃ dest ∈ requestDests data, initDestination P g dest = none) ∨
        ∃ ds, MetBy P g data ds ∧
          ∃ pair ∈ requestPairs data, getBestPaths ds pair.1 pair.2 = none)) := by
  unfold serve
  rcases hi.foldlM_addDestination (requestDests data) with
    ⟨st₁, hst₁, hi₁, hcache₁, hdests₁⟩ | ⟨hnone, hinit⟩
  · rw [hst₁, bind_some]
    have hmet : ∀ dest ∈ requestDests data, dest ∈ st₁.dests :=
      fun dest hdest => (hdests₁ dest).2 (.inr hdest)
    have hd : MetBy P g data st₁.d := by
      refine ⟨fun dest hdest => hi₁.met dest (hmet dest hdest), fun dest hne => ?_⟩
      by_contra hc
      exact hne (hi₁.other dest fun hdest => hc (hi₁.met dest hdest))
    have hc₁ : CacheHolds ans st₁ := by
      intro key record hr
      rw [hcache₁] at hr
      exact hc key record hr
    rcases hc₁.foldlM_answerQuery hkey (hans st₁.d hd) [] with
      ⟨st₂, records, hst₂, hrecords, hd₂, hdests₂, hc₂⟩ | ⟨hnone, pair, hpair, hrecord⟩
    · refine .inl ⟨st₂, records, by rw [hst₂]; rfl, hrecords,
        fun dest hdest => hi₁.init dest (hmet dest hdest), ⟨?_, ?_, ?_⟩, hc₂⟩
      · rw [hdests₂]
        exact hi₁.init
      · rw [hdests₂, hd₂]
        exact hi₁.met
      · rw [hdests₂, hd₂]
        exact hi₁.other
    · exact .inr ⟨by rw [hnone]; rfl, .inr ⟨st₁.d, hd, pair, hpair, hrecord⟩⟩
  · exact .inr ⟨by rw [hnone]; rfl, .inl hinit⟩

/-- **All requests.**  What is true of the caches of a server stays true along a run of requests for
which `serve_spec` holds. -/
lemma serveAll_spec {history : List (List Char)} {st' : ServerState} (hi : Initialised P g st)
    (hc : CacheHolds ans st)
    (hkey : ∀ data ∈ history, ∀ pair ∈ requestPairs data, ∀ pair' record,
      queryKey pair' = queryKey pair → ans pair' record → ans pair record)
    (hans : ∀ data ∈ history, ∀ ds, MetBy P g data ds → ∀ pair ∈ requestPairs data, ∀ record,
      getBestPaths ds pair.1 pair.2 = some record → ans pair record)
    (hrun : serveAll P g st history = some st') : Initialised P g st' ∧ CacheHolds ans st' := by
  induction history generalizing st with
  | nil =>
    rw [serveAll, foldlM_nil, Option.pure_def, Option.some.injEq] at hrun
    rw [← hrun]
    exact ⟨hi, hc⟩
  | cons data history ih =>
    rw [serveAll, foldlM_cons, bind_eq_bind, bind_eq_some_iff] at hrun
    obtain ⟨st₁, hst₁, hrun⟩ := hrun
    rcases serve_spec hi hc (hkey data mem_cons_self) (hans data mem_cons_self) with
      ⟨st₂, records, hserve, -, -, hi₂, hc₂⟩ | ⟨hnone, -⟩
    · rw [hserve, map_some, Option.some.injEq] at hst₁
      rw [← hst₁] at hrun
      exact ih hi₂ hc₂ (fun data hd => hkey data (mem_cons_of_mem _ hd))
        (fun data hd => hans data (mem_cons_of_mem _ hd)) hrun
    · rw [hnone] at hst₁
      cases hst₁

end Records

/-! ### The ASes of the answers -/

/-- The second text is a destination, and the first one is a node that has a route to it of less
than twenty hops. -/
def RouteListed (ds : List Char → Option Destination) (src dst : List Char) : Prop :=
  ∃ D srcNum, ds dst = some D ∧ tryParseUInt32 src = some srcNum ∧ D.best srcNum ≠ none ∧
    D.L srcNum < maxPathAses

section Answers

variable {P : Params} {g : NetworkGraph} {ds : List Char → Option Destination}
  {src dst : List Char} {D : Destination} {ases : List Asn}

/-- The tables of a destination are valid and belong to the number in its text. -/
lemma validTables_allDestinations (h : allDestinations P g dst = some D) :
    tryParseUInt32 dst = some D.destination ∧ ValidTables P g D.toRouteTables := by
  unfold allDestinations initDestination at h
  cases hparse : tryParseUInt32 dst with
  | none => simp [hparse] at h
  | some destNum =>
    simp only [hparse] at h
    split_ifs at h with hnode
    · obtain ⟨m, hm, hD⟩ := bind_eq_some_iff.mp (join_eq_some_iff.mp h)
      obtain ⟨D', hD', he⟩ := map_eq_some_iff.mp hD
      obtain rfl := Option.some.inj he
      have hv := validTables_initMiniDestination hm
      have hder : Derived P m D' := Derived.init.updated hD'
      obtain ⟨-, -, hd, -⟩ := exists_routingTree hm
      refine ⟨?_, hder.valid hv⟩
      rw [hder.tables hv, hd]
    · cases h

/-- **The ASes of an answer.**  They fit the tables, and there are some exactly when a route is
listed. -/
lemma bestAses_spec (hd : KnownDestinations P g ds) (h : bestAses ds src dst = some ases) :
    (∀ a ∈ ases, a < numASNs) ∧ (ases ≠ [] ↔ RouteListed ds src dst) := by
  unfold bestAses at h
  cases hds : ds dst with
  | none =>
    rw [hds, Option.some.injEq] at h
    subst h
    simp [RouteListed, hds]
  | some D =>
    have hall : allDestinations P g dst = some D := by rw [← hd dst (by simp [hds]), hds]
    obtain ⟨hdst, hv⟩ := validTables_allDestinations hall
    cases hsrc : tryParseUInt32 src with
    | none =>
      rw [hds, hsrc, Option.some.injEq] at h
      subst h
      simp [RouteListed, hsrc]
    | some srcNum =>
      simp only [hds, hsrc, hdst] at h
      obtain ⟨⟨found, paths⟩, hpaths, rfl⟩ := map_eq_some_iff.mp h
      by_cases hbest : D.best srcNum = none
      · have hnil : paths = [] := by
          simp only [getAllBestPaths, ne_eq, not_true_eq_false, if_false, hbest] at hpaths
          split_ifs at hpaths
          exact (Prod.mk.inj (Option.some.inj hpaths)).2.symm
        subst hnil
        simp [asnSet, RouteListed, hds, hsrc, hbest]
      · obtain ⟨paths', hpaths', -, hmem⟩ := hv.getAllBestPaths_spec hbest
        obtain rfl : paths = paths' :=
          (Prod.mk.inj (Option.some.inj (hpaths.symm.trans hpaths'))).2
        have hset : ∀ a, a ∈ asnSet paths ↔ ∃ l ∈ paths, a ∈ l := by
          intro a
          rw [asnSet, mem_eraseDups, mem_flatten]
        refine ⟨fun a ha => ?_, ?_⟩
        · obtain ⟨l, hl, ha⟩ := (hset a).1 ha
          exact (hv.lt a (hv.graded.mem_path hbest ((hmem l).1 hl).1 ha).1).1
        · have hlisted : RouteListed ds src dst ↔ D.L srcNum < maxPathAses := by
            simp [RouteListed, hds, hsrc, hbest]
          rw [hlisted]
          constructor
          · intro hne
            obtain ⟨a, ha⟩ := exists_mem_of_ne_nil _ hne
            obtain ⟨l, hl, -⟩ := (hset a).1 ha
            obtain ⟨hpath, hlen⟩ := (hmem l).1 hl
            rw [hv.graded.length_eq hbest hpath] at hlen
            exact hlen
          · intro hL
            obtain ⟨l, hl⟩ := hv.graded.exists_path hbest
            obtain ⟨l', rfl⟩ := hl.exists_cons
            refine ne_nil_of_mem ((hset srcNum).2 ⟨_, (hmem _).2 ⟨hl, ?_⟩, mem_cons_self⟩)
            rw [hv.graded.length_eq hbest hl]
            exact hL

end Answers

/-! ### The answers do not depend on earlier requests -/

/-- No two different pairs have the same key. -/
def KeysDistinct (asked : List (List Char × List Char)) : Prop :=
  ∀ pair ∈ asked, ∀ pair' ∈ asked, queryKey pair = queryKey pair' → pair = pair'

/-- The request lists the destinations of its pairs that are nodes of the graph. -/
def ListsDestinations (g : NetworkGraph) (data : List Char) : Prop :=
  ∀ pair ∈ requestPairs data, ∀ destNum, tryParseUInt32 pair.2 = some destNum →
    destNum ∈ g.asNodes → pair.2 ∈ requestDests data

/-- The answer to a pair in `asked` by a server that has met all texts. -/
def FullAnswer (P : Params) (g : NetworkGraph) (asked : List (List Char × List Char))
    (pair : List Char × List Char) (record : List Char) : Prop :=
  pair ∈ asked ∧ getBestPaths (allDestinations P g) pair.1 pair.2 = some record

section Transparency

variable {P : Params} {g : NetworkGraph} {asked : List (List Char × List Char)} {st : ServerState}
  {data : List Char}

lemma allDestinations_eq_none {dest : List Char}
    (h : ∀ destNum, tryParseUInt32 dest = some destNum → destNum ∉ g.asNodes) :
    allDestinations P g dest = none := by
  unfold allDestinations initDestination
  cases hparse : tryParseUInt32 dest with
  | none => rfl
  | some destNum => simp [h destNum hparse]

/-- If a request lists the destinations of its pairs, they are answered as by a server that has met
all texts. -/
lemma ListsDestinations.getBestPaths_eq (h : ListsDestinations g data)
    {ds : List Char → Option Destination} (hd : MetBy P g data ds)
    {pair : List Char × List Char} (hpair : pair ∈ requestPairs data) :
    getBestPaths ds pair.1 pair.2 = getBestPaths (allDestinations P g) pair.1 pair.2 := by
  refine getBestPaths_congr ?_
  by_cases hlisted : pair.2 ∈ requestDests data
  · exact hd.listed _ hlisted
  · have hnone := @allDestinations_eq_none P g pair.2 fun destNum hparse hnode =>
      hlisted (h pair hpair destNum hparse hnode)
    by_contra hne
    exact hne (hd.known _ (hnone ▸ hne))

/-- Two lists of answers to the same pairs are the same. -/
lemma FullAnswer.forall₂_unique {pairs : List (List Char × List Char)} {rs rs' : List (List Char)}
    (h : Forall₂ (FullAnswer P g asked) pairs rs)
    (h' : Forall₂ (FullAnswer P g asked) pairs rs') : rs = rs' := by
  induction h generalizing rs' with
  | nil =>
    cases h'
    rfl
  | cons hr _ ih =>
    cases h' with
    | cons hr' hrs' => rw [ih hrs', Option.some.inj (hr.2.symm.trans hr'.2)]

/-- Every pair in a list of answers has an answer. -/
lemma FullAnswer.ne_none {pairs : List (List Char × List Char)} {rs : List (List Char)}
    (h : Forall₂ (FullAnswer P g asked) pairs rs) {pair : List Char × List Char}
    (hpair : pair ∈ pairs) : getBestPaths (allDestinations P g) pair.1 pair.2 ≠ none := by
  induction h with
  | nil => cases hpair
  | cons hr _ ih =>
    rcases mem_cons.mp hpair with rfl | hpair
    · rw [hr.2]
      exact some_ne_none _
    · exact ih hpair

/-- **One request, in two states.**  Two servers whose caches are in order give the same reply. -/
lemma serve_congr {st st' : ServerState} (hi : Initialised P g st) (hi' : Initialised P g st')
    (hc : CacheHolds (FullAnswer P g asked) st) (hc' : CacheHolds (FullAnswer P g asked) st')
    (hkeys : KeysDistinct asked) (hasked : ∀ pair ∈ requestPairs data, pair ∈ asked)
    (hlists : ListsDestinations g data) :
    (serve P g st data).map Prod.snd = (serve P g st' data).map Prod.snd := by
  have hkey : ∀ pair ∈ requestPairs data, ∀ pair' record, queryKey pair' = queryKey pair →
      FullAnswer P g asked pair' record → FullAnswer P g asked pair record :=
    fun pair hpair pair' record hk hr => hkeys pair' hr.1 pair (hasked pair hpair) hk ▸ hr
  have hans : ∀ ds, MetBy P g data ds → ∀ pair ∈ requestPairs data, ∀ record,
      getBestPaths ds pair.1 pair.2 = some record → FullAnswer P g asked pair record :=
    fun ds hd pair hpair record hr =>
      ⟨hasked pair hpair, (hlists.getBestPaths_eq hd hpair).symm.trans hr⟩
  -- a reply on one side excludes an exception on the other
  have hexcl : ∀ records, Forall₂ (FullAnswer P g asked) (requestPairs data) records →
      (∀ dest ∈ requestDests data, initDestination P g dest ≠ none) →
      ¬ ((∃ dest ∈ requestDests data, initDestination P g dest = none) ∨
        ∃ ds, MetBy P g data ds ∧
          ∃ pair ∈ requestPairs data, getBestPaths ds pair.1 pair.2 = none) := by
    rintro records hrecords hinit (⟨dest, hdest, h0⟩ | ⟨ds, hd, pair, hpair, h0⟩)
    · exact hinit dest hdest h0
    · rw [hlists.getBestPaths_eq hd hpair] at h0
      exact FullAnswer.ne_none hrecords hpair h0
  rcases serve_spec hi hc hkey hans with ⟨st₁, rs, hserve, hrs, hinit, -⟩ | ⟨hnone, hwhy⟩
  · rcases serve_spec hi' hc' hkey hans with ⟨st₁', rs', hserve', hrs', -⟩ | ⟨-, hwhy'⟩
    · rw [hserve, hserve', FullAnswer.forall₂_unique hrs hrs']
      rfl
    · exact absurd hwhy' (hexcl rs hrs hinit)
  · rcases serve_spec hi' hc' hkey hans with ⟨st₁', rs', -, hrs', hinit', -⟩ | ⟨hnone', -⟩
    · exact absurd hwhy (hexcl rs' hrs' hinit')
    · rw [hnone, hnone']

/-- **The caches are transparent.**  In a run whose requests list the destinations of their pairs
and whose pairs have different keys, every reply is that of a fresh server. -/
theorem serve_eq_fresh (P : Params) (g : NetworkGraph) (history : List (List Char))
    (next : List Char) (st : ServerState)
    (hlists : ∀ data ∈ history ++ [next], ListsDestinations g data)
    (hkeys : KeysDistinct ((history ++ [next]).flatMap requestPairs))
    (hrun : serveAll P g ServerState.fresh history = some st) :
    (serve P g st next).map Prod.snd = (serve P g ServerState.fresh next).map Prod.snd := by
  have hasked : ∀ data ∈ history ++ [next], ∀ pair ∈ requestPairs data,
      pair ∈ (history ++ [next]).flatMap requestPairs :=
    fun data hd pair hpair => mem_flatMap.mpr ⟨data, hd, hpair⟩
  have hnext : next ∈ history ++ [next] := by simp
  have hpast : ∀ data ∈ history, data ∈ history ++ [next] :=
    fun data hd => mem_append_left _ hd
  have hfresh : CacheHolds (FullAnswer P g ((history ++ [next]).flatMap requestPairs))
      ServerState.fresh := fun key record hr => by cases hr
  obtain ⟨hi, hc⟩ := serveAll_spec initialised_fresh hfresh
    (fun data hd pair hpair pair' record hk hr =>
      hkeys pair' hr.1 pair (hasked data (hpast data hd) pair hpair) hk ▸ hr)
    (fun data hd ds hds pair hpair record hr => ⟨hasked data (hpast data hd) pair hpair,
      ((hlists data (hpast data hd)).getBestPaths_eq hds hpair).symm.trans hr⟩) hrun
  exact serve_congr hi initialised_fresh hc hfresh hkeys (hasked next hnext) (hlists next hnext)

/-- After a request for one direction between two nodes, the other direction is answered as by a
fresh server. -/
theorem serve_eq_fresh_two_nodes :
    ∃ st, serveAll {} (processCyclopsFile ["1\t2\tc2p".toList]) ServerState.fresh
        ["1 -q 2 1 <EOFc>".toList] = some st ∧
      (serve {} (processCyclopsFile ["1\t2\tc2p".toList]) st "1 2 -q 1 2 2 1 <EOFc>".toList).map
          Prod.snd =
        (serve {} (processCyclopsFile ["1\t2\tc2p".toList]) ServerState.fresh
          "1 2 -q 1 2 2 1 <EOFc>".toList).map Prod.snd := by
  have hrun : (serveAll {} (processCyclopsFile ["1\t2\tc2p".toList]) ServerState.fresh
      ["1 -q 2 1 <EOFc>".toList]).isSome = true := by
    decide +kernel
  obtain ⟨st, hst⟩ := isSome_iff_exists.mp hrun
  refine ⟨st, hst, serve_eq_fresh {} _ ["1 -q 2 1 <EOFc>".toList] _ st ?_ ?_ hst⟩
  · intro data hdata pair hpair destNum _ _
    have hlisted : ∀ data ∈ ["1 -q 2 1 <EOFc>".toList] ++ ["1 2 -q 1 2 2 1 <EOFc>".toList],
        ∀ pair ∈ requestPairs data, pair.2 ∈ requestDests data := by decide +kernel
    exact hlisted data hdata pair hpair
  · unfold KeysDistinct
    decide +kernel

/-- A pair that is asked before its destination has been initialised is answered with an empty
record, and this record is also the answer after the initialisation. -/
theorem serve_ne_fresh_two_nodes :
    ∃ st, serveAll {} (processCyclopsFile ["1\t2\tc2p".toList]) ServerState.fresh
        ["-q 2 1 <EOFc>".toList] = some st ∧
      (serve {} (processCyclopsFile ["1\t2\tc2p".toList]) st "1 -q 2 1 <EOFc>".toList).map
          Prod.snd ≠
        (serve {} (processCyclopsFile ["1\t2\tc2p".toList]) ServerState.fresh
          "1 -q 2 1 <EOFc>".toList).map Prod.snd := by
  have hrun : ((serveAll {} (processCyclopsFile ["1\t2\tc2p".toList]) ServerState.fresh
      ["-q 2 1 <EOFc>".toList]).map fun st =>
        (serve {} (processCyclopsFile ["1\t2\tc2p".toList]) st "1 -q 2 1 <EOFc>".toList).map
          Prod.snd) = some (some "ASes from 2 to 1:\n-\n<EOFs>".toList) := by
    decide +kernel
  have hfresh : (serve {} (processCyclopsFile ["1\t2\tc2p".toList]) ServerState.fresh
      "1 -q 2 1 <EOFc>".toList).map Prod.snd =
        some "ASes from 2 to 1:\n2\n1\n-\n<EOFs>".toList := by
    decide +kernel
  obtain ⟨st, hst, hreply⟩ := map_eq_some_iff.mp hrun
  refine ⟨st, hst, ?_⟩
  rw [hreply, hfresh]
  decide

end Transparency

end Astoria
