import Astoria.BgpSim.SecurePaths

/-!
# All best paths

`getAllBestPaths` lists the paths of the best sets from a source to the destination, by a queue of
paths that are extended at their end.  Paths of twenty ASes are not extended any more, so that the
list has exactly the paths of up to twenty ASes.  All paths from a source have the same length: the
list is complete for the sources of length up to 19 and empty for the others.

`getBestPaths` writes the ASes of the listed paths, each once, in the order in which they are met.
-/

namespace Astoria

open List Option

/-! ### The paths -/

/-- The number of ASes from which on a path is not extended. -/
def maxPathAses : ℕ := 20

/-- Take paths from the queue until it is empty: a path that has arrived is saved, a shorter one is
extended in all possible ways.  The loop is given fuel, and it fails if the fuel does not
suffice. -/
def pathLoop (best : Asn → Option (List Asn)) (dst : Asn) :
    ℕ → List (List Asn) → List (List Asn) → Option (List (List Asn))
  | _, [], allPaths => some allPaths
  | 0, _ :: _, _ => none
  | fuel + 1, path :: queue, allPaths =>
    match path.getLast? with
    | none => none
    | some last =>
      if last = dst then pathLoop best dst fuel queue (allPaths ++ [path])
      else if path.length < maxPathAses then
        match best last with
        | none => none
        | some parents =>
          pathLoop best dst fuel (queue ++ parents.map fun p => path ++ [p]) allPaths
      else pathLoop best dst fuel queue allPaths

/-- How many paths the loop takes from the queue on behalf of a path that ends in `n` and may be
extended `k` times. -/
def dequeued (best : Asn → Option (List Asn)) (dst : Asn) : ℕ → Asn → ℕ
  | 0, _ => 1
  | k + 1, n => if n = dst then 1 else 1 + (((best n).getD []).map (dequeued best dst k)).sum

/-- List the paths from `src` to `dst`, after those that are listed already.  The result says
whether `dst` is the destination of the tables. -/
def getAllBestPaths (D : Destination) (src dst : Asn) (allPaths : List (List Asn)) :
    Option (Bool × List (List Asn)) :=
  if dst ≠ D.destination then some (false, allPaths)
  else if numASNs ≤ src then none
  else
    match D.best src with
    | none => some (true, allPaths)
    | some _ =>
      (pathLoop D.best dst (dequeued D.best dst (maxPathAses - 1) src) [[src]] allPaths).map
        fun paths => (true, paths)

/-! ### The ASes -/

/-- The ASes of the paths, each once. -/
def asnSet (allPaths : List (List Asn)) : List Asn := allPaths.flatten.eraseDups

/-- The ASes that are reported for a pair of texts.  There are none if the second text is not the
name of a destination or one of the texts is not a number. -/
def bestAses (ds : List Char → Option Destination) (src dst : List Char) : Option (List Asn) :=
  match ds dst with
  | none => some []
  | some D =>
    match tryParseUInt32 src, tryParseUInt32 dst with
    | some srcNum, some dstNum => (getAllBestPaths D srcNum dstNum []).map fun r => asnSet r.2
    | _, _ => some []

def asnLine (asn : Asn) : List Char := Nat.toDigits 10 asn ++ ['\n']

/-- The first line of a record. -/
def recordHeader (src dst : List Char) : List Char :=
  "ASes from ".toList ++ src ++ " to ".toList ++ dst ++ ":\n".toList

/-- The record of a pair: a header, the ASes and an end mark, a line each. -/
def getBestPaths (ds : List Char → Option Destination) (src dst : List Char) : Option (List Char) :=
  (bestAses ds src dst).map fun ases =>
    recordHeader src dst ++ ases.flatMap asnLine ++ "-\n".toList

/-! ### The loop -/

section Loop

variable {best : Asn → Option (List Asn)} {dst : Asn}

/-- The arrived paths that come from a path in the queue. -/
def completions (best : Asn → Option (List Asn)) (dst : Asn) (path : List Asn) : List (List Asn) :=
  match path.getLast? with
  | none => []
  | some last =>
    (Layered.enumerate (fun n => (best n).getD []) dst (maxPathAses + 1 - path.length) last).map
      fun l => path.dropLast ++ l

/-- How many paths are taken from the queue on behalf of a path in the queue. -/
def pathCost (best : Asn → Option (List Asn)) (dst : Asn) (path : List Asn) : ℕ :=
  match path.getLast? with
  | none => 0
  | some last => dequeued best dst (maxPathAses - path.length) last

/-- The paths in the queue: they are not longer than allowed and end in a node with a route. -/
def QueuedPath (best : Asn → Option (List Asn)) (path : List Asn) : Prop :=
  ∃ init last, path = init ++ [last] ∧ path.length ≤ maxPathAses ∧ best last ≠ none

lemma completions_arrived {init : List Asn} (hlen : (init ++ [dst]).length ≤ maxPathAses) :
    completions best dst (init ++ [dst]) = [init ++ [dst]] ∧
      pathCost best dst (init ++ [dst]) = 1 := by
  obtain ⟨k, hk⟩ : ∃ k, maxPathAses + 1 - (init ++ [dst]).length = k + 1 :=
    ⟨maxPathAses - (init ++ [dst]).length, by omega⟩
  constructor
  · simp only [completions, getLast?_concat, hk, Layered.enumerate, if_true, map_cons,
      map_nil, dropLast_concat]
  · simp only [pathCost, getLast?_concat]
    unfold dequeued
    split
    · rfl
    · rw [if_pos rfl]

/-- The completions of another path are those of its extensions. -/
lemma completions_extended {init : List Asn} {last : Asn} {parents : List Asn} (hne : last ≠ dst)
    (hbest : best last = some parents) (hlen : (init ++ [last]).length < maxPathAses) :
    completions best dst (init ++ [last]) =
        (parents.map fun p => init ++ [last] ++ [p]).flatMap (completions best dst) ∧
      pathCost best dst (init ++ [last]) =
        1 + ((parents.map fun p => init ++ [last] ++ [p]).map (pathCost best dst)).sum := by
  obtain ⟨k, hk⟩ : ∃ k, maxPathAses = (init ++ [last]).length + 1 + k :=
    ⟨maxPathAses - (init ++ [last]).length - 1, by omega⟩
  have hk₁ : maxPathAses + 1 - (init ++ [last]).length = k + 1 + 1 := by omega
  have hk₂ : ∀ p, maxPathAses + 1 - (init ++ [last] ++ [p]).length = k + 1 := by
    intro p
    rw [length_append, length_singleton]
    omega
  have hk₃ : maxPathAses - (init ++ [last]).length = k + 1 := by omega
  have hk₄ : ∀ p, maxPathAses - (init ++ [last] ++ [p]).length = k := by
    intro p
    rw [length_append, length_singleton]
    omega
  constructor
  · simp only [completions, getLast?_concat, hk₁, hk₂, dropLast_concat, flatMap_map]
    rw [Layered.enumerate, if_neg hne, hbest, getD_some, map_flatMap]
    simp only [List.map_map, Function.comp_def, append_assoc, singleton_append]
  · simp only [pathCost, getLast?_concat, hk₃, hk₄, List.map_map, Function.comp_def]
    rw [dequeued, if_neg hne, hbest, getD_some]

/-- A path of the largest length that has not arrived has no completions. -/
lemma completions_long {init : List Asn} {last : Asn} (hne : last ≠ dst)
    (hlen : (init ++ [last]).length = maxPathAses) :
    completions best dst (init ++ [last]) = [] ∧ pathCost best dst (init ++ [last]) = 1 := by
  have hk₁ : maxPathAses + 1 - (init ++ [last]).length = 1 := by omega
  have hk₂ : maxPathAses - (init ++ [last]).length = 0 := by omega
  constructor
  · simp only [completions, getLast?_concat, hk₁, Layered.enumerate, if_neg hne, map_nil]
    simp
  · simp only [pathCost, getLast?_concat, hk₂, dequeued]

/-- With enough fuel, the loop adds the completions of the queue, in some order. -/
lemma pathLoop_spec (hclosed : ∀ n, n ≠ dst → best n ≠ none → ∀ p ∈ (best n).getD [], best p ≠ none)
    {fuel : ℕ} {queue allPaths : List (List Asn)} (hqueue : ∀ path ∈ queue, QueuedPath best path)
    (hfuel : (queue.map (pathCost best dst)).sum ≤ fuel) :
    ∃ paths, pathLoop best dst fuel queue allPaths = some paths ∧
      paths.Perm (allPaths ++ queue.flatMap (completions best dst)) := by
  induction fuel generalizing queue allPaths with
  | zero =>
    cases queue with
    | nil => exact ⟨allPaths, by rw [pathLoop], by simp⟩
    | cons path queue =>
      -- a path in the queue has a cost
      obtain ⟨init, last, rfl, hlen, -⟩ := hqueue path (by simp)
      rw [map_cons, sum_cons] at hfuel
      have hpos : pathCost best dst (init ++ [last]) ≠ 0 := by
        simp only [pathCost, getLast?_concat]
        unfold dequeued
        split
        · omega
        · split_ifs <;> omega
      omega
  | succ fuel ih =>
    cases queue with
    | nil => exact ⟨allPaths, by rw [pathLoop], by simp⟩
    | cons path queue =>
      obtain ⟨init, last, rfl, hlen, hlast⟩ := hqueue path (by simp)
      have hrest : ∀ path ∈ queue, QueuedPath best path :=
        fun path hp => hqueue path (mem_cons_of_mem _ hp)
      rw [map_cons, sum_cons] at hfuel
      rw [flatMap_cons, pathLoop]
      simp only [getLast?_concat]
      by_cases hdst : last = dst
      · subst hdst
        obtain ⟨hcomp, hcost⟩ := @completions_arrived best _ _ hlen
        obtain ⟨paths, hpaths, hperm⟩ := @ih queue (allPaths ++ [init ++ [last]]) hrest (by omega)
        refine ⟨paths, by rw [if_pos rfl]; exact hpaths, hperm.trans ?_⟩
        rw [hcomp, append_assoc]
      · rw [if_neg hdst]
        by_cases hshort : (init ++ [last]).length < maxPathAses
        · obtain ⟨parents, hparents⟩ := ne_none_iff_exists'.mp hlast
          obtain ⟨hcomp, hcost⟩ := completions_extended hdst hparents hshort
          have hnew : ∀ path ∈ queue ++ parents.map fun p => init ++ [last] ++ [p],
              QueuedPath best path := by
            intro path hp
            rcases mem_append.mp hp with hp | hp
            · exact hrest path hp
            · obtain ⟨p, hp, rfl⟩ := List.mem_map.mp hp
              refine ⟨init ++ [last], p, rfl, ?_, hclosed last hdst hlast p (by simpa [hparents])⟩
              rw [length_append, length_singleton]
              omega
          obtain ⟨paths, hpaths, hperm⟩ := @ih _ allPaths hnew
            (by rw [map_append, sum_append]; omega)
          refine ⟨paths, by simp only [if_pos hshort, hparents]; exact hpaths, hperm.trans ?_⟩
          rw [hcomp, flatMap_append]
          exact Perm.append_left _ perm_append_comm
        · obtain ⟨hcomp, hcost⟩ := @completions_long best dst init last hdst (by omega)
          obtain ⟨paths, hpaths, hperm⟩ := @ih queue allPaths hrest (by omega)
          refine ⟨paths, by rw [if_neg hshort]; exact hpaths, ?_⟩
          rwa [hcomp, nil_append]

end Loop

/-! ### The listed paths -/

section Listed

variable {P : Params} {g : NetworkGraph} {m : MiniDestination} {D : Destination}

/-- The list holds the paths of up to twenty ASes, each once. -/
lemma ValidTables.getAllBestPaths_spec (hv : ValidTables P g D.toRouteTables) {src : Asn}
    (hsrc : D.best src ≠ none) :
    ∃ paths, getAllBestPaths D src D.destination [] = some (true, paths) ∧ paths.Nodup ∧
      ∀ l, l ∈ paths ↔ Layered.Path D.bestSet D.destination src l ∧ l.length ≤ maxPathAses := by
  have hclosed : ∀ n, n ≠ D.destination → D.best n ≠ none → ∀ p ∈ (D.best n).getD [],
      D.best p ≠ none := fun n hne _ p hp => (hv.parent n hne p hp).1
  have hqueue : ∀ path ∈ [[src]], QueuedPath D.best path := by
    intro path hp
    rw [mem_singleton] at hp
    exact ⟨[], src, hp, by simp [hp, maxPathAses], hsrc⟩
  obtain ⟨paths, hpaths, hperm⟩ :=
    @pathLoop_spec D.best D.destination hclosed _ _ [] hqueue (le_refl _)
  have hcomp : [[src]].flatMap (completions D.best D.destination) =
      Layered.enumerate D.bestSet D.destination maxPathAses src := by
    rw [flatMap_singleton]
    simp only [completions, getLast?_singleton, length_singleton, dropLast_singleton,
      nil_append, List.map_id', Nat.add_sub_cancel]
    rfl
  rw [hcomp, nil_append] at hperm
  refine ⟨paths, ?_, ?_, fun l => ?_⟩
  · obtain ⟨ps, hps⟩ := ne_none_iff_exists'.mp hsrc
    have hlt := (hv.lt src hsrc).1
    have hcost : ([[src]].map (pathCost D.best D.destination)).sum =
        dequeued D.best D.destination (maxPathAses - 1) src := by
      simp [pathCost]
    rw [hcost] at hpaths
    simp [getAllBestPaths, not_le.mpr hlt, hps, hpaths]
  · refine hperm.nodup_iff.mpr (Layered.nodup_enumerate (fun n => ?_) _ _)
    exact (hv.sorted n).imp fun {a b} hab he => by
      rw [he] at hab
      exact lt_irrefl _ hab
  · rw [hperm.mem_iff, Layered.mem_enumerate]

/-- Every chosen path is a path of the best sets, also between and after aborted recomputations. -/
lemma Derived.path_of_chosenPath (hv : ValidTables P g m.toRouteTables) (h : Derived P m D)
    {n : Asn} {path : List ℕ} (hpath : D.chosenPath n = some path) :
    Layered.Path m.bestSet m.destination n (pathAses path) := by
  have hlt : ∀ n, m.best n ≠ none → n < numASNs ∧ m.bestRelation n ≤ providerColumn :=
    fun n hn => ⟨(hv.lt n hn).1, (hv.lt n hn).2.2⟩
  induction h generalizing n path with
  | init =>
    simp only [Destination.ofMiniDestination, Function.update_apply] at hpath
    split_ifs at hpath with hn
    obtain rfl := Option.some.inj hpath
    rw [hn]
    exact .root
  | @updated D D' S hD h ih =>
    obtain ⟨hchosen, hframe⟩ := (hD.valid hv).updatePaths_eq_some_iff.1 h
    have hroot := (hD.updated h).path_root hv
    have htab := (hD.updated h).tables hv
    by_cases hn : m.best n = none
    · -- nodes without a route keep their paths
      refine ih ?_
      have hsame := congrArg NodeRoute.path (hframe.none n (by rw [hD.tables hv]; exact hn))
      rw [← hpath]
      exact hsame.symm
    · obtain ⟨T, secP, parent, path', U⟩ := D'
      obtain rfl : T = m.toRouteTables := htab
      obtain ⟨as, has, hpas, -⟩ := (hchosen.chosenPaths hv hroot).exists_path hv.graded hlt hn
      obtain rfl := Option.some.inj (has.symm.trans hpath)
      exact hpas
  | @aborted D D₁ D' S l r e hD h₁ hl h he ih =>
    have hv' := hD.valid hv
    have hroot := (hD.aborted h₁ hl h he).path_root hv
    rw [hv'.updateDestinations_eq, Option.some.injEq] at h₁
    subst h₁
    have hone : 1 ≤ 1 := le_refl 1
    have hrel : ∀ a ∈ l, a.2.1 = D.bestRelation a.2.2 := fun a ha =>
      ((hv'.mem_bucketNodes hone).1 (hl ▸ mem_append_left _ ha :
        a ∈ D.bucketNodes 1)).2.2.2.2
    rw [foldlM_updateNode_eq l (D.withRoutes (startRoutes D.toRouteTables S D.route)) hrel,
      map_eq_some_iff] at h
    obtain ⟨t, ht, rfl⟩ := h
    have horder : D.order 1 = l.map (fun a => a.2.2) ++ (e :: r).map fun a => a.2.2 := by
      rw [← map_append, ← hl]
      rfl
    obtain ⟨T, secP, parent, path', U⟩ := D
    obtain rfl : T = m.toRouteTables := hD.tables hv
    have hsub : (l.map fun a => a.2.2).Sublist (m.order 1) :=
      horder ▸ sublist_append_left _ _
    obtain ⟨hnd, hself, hpair⟩ := hv.ordered hone
    obtain ⟨hsol, hframe⟩ := (Layered.sweep_eq_some_iff hv.local_updateRoute
      ⟨hnd.sublist hsub, fun m hm => hself m (hsub.subset hm), hpair.sublist hsub⟩).1 ht
    by_cases hmem : n = m.destination ∨ n ∈ l.map fun a => a.2.2
    · -- the recomputation has come past the parents of the nodes it has come past
      have hgraded : Layered.Graded m.bestSet m.destination
          (fun n => n = m.destination ∨ n ∈ l.map fun a => a.2.2) m.L := by
        refine ⟨.inl rfl, hv.L_root, fun i hi hne => ?_, fun i hi hne p hp => ?_⟩
        · have hmem := (hv.mem_order hone).1 (hsub.subset (hi.resolve_left hne))
          exact hv.graded.parents_ne_nil i hmem.2.1 hne
        · obtain ⟨hbp, hL⟩ := hv.parent i hne p hp
          refine ⟨?_, hL⟩
          by_cases hpd : p = m.destination
          · exact .inl hpd
          · have hp1 : 1 ≤ m.L p :=
              Nat.one_le_iff_ne_zero.mpr fun h0 => hpd (hv.graded.eq_root hbp h0)
            have hpmem : p ∈ m.order 1 := (hv.mem_order hone).2 ⟨hpd, hbp, hp1⟩
            have hle := (hv.order_pairwise hone).2
            rw [show m.order 1 = _ from horder, mem_append] at hpmem
            rw [show m.order 1 = _ from horder, pairwise_append] at hle
            rcases hpmem with hpmem | hpmem
            · exact .inr hpmem
            · have := hle.2.2 i (hi.resolve_left hne) p hpmem
              omega
      have hpaths := hv.chosenPaths (t := t) hgraded
        (fun i hi => hi.elim (fun h => by simp [h, hv.best_root])
          fun h => ((hv.mem_order hone).1 (hsub.subset h)).2.1) hroot
        fun i hi hne => hsol i (hi.resolve_left hne)
      obtain ⟨as, has, hpas, -⟩ := hpaths.exists_path hgraded
        (fun i hi => hlt i (hi.elim (fun h => by simp [h, hv.best_root])
          fun h => ((hv.mem_order hone).1 (hsub.subset h)).2.1)) hmem
      obtain rfl := Option.some.inj (has.symm.trans hpath)
      exact hpas
    · rw [not_or] at hmem
      refine ih ?_
      have hsame := hframe n hmem.2
      have : (t n).path = path' n := by
        rw [hsame]
        simp [startRoutes, Destination.withRoutes, Destination.route, hmem.1]
      exact this.symm.trans hpath

end Listed

/-- **All best paths.**  Whatever recomputations came before, the list for a source with a best set
holds exactly the paths of the best sets with up to twenty ASes, each once: all paths if the route
is shorter than twenty hops, and none otherwise.  In the first case, the ASes that are sent contain
those of the chosen path. -/
theorem getAllBestPaths_of_derived (P : Params) (g : NetworkGraph) (d : Asn) (readOnly : Bool)
    (m : MiniDestination) (h : initMiniDestination P g d readOnly = some m) (D : Destination)
    (hD : Derived P m D) (src : Asn) (hsrc : m.best src ≠ none) :
    ∃ paths, getAllBestPaths D src d [] = some (true, paths) ∧ paths.Nodup ∧
      (∀ l, l ∈ paths ↔ Layered.Path m.bestSet d src l ∧ l.length ≤ maxPathAses) ∧
      (m.L src < maxPathAses → ∀ l, l ∈ paths ↔ Layered.Path m.bestSet d src l) ∧
      (maxPathAses ≤ m.L src → paths = []) ∧
      (∀ ds srcText dstText, ds dstText = some D → tryParseUInt32 srcText = some src →
        tryParseUInt32 dstText = some d → getBestPaths ds srcText dstText =
          some (recordHeader srcText dstText ++ (asnSet paths).flatMap asnLine ++ "-\n".toList)) ∧
      (m.L src < maxPathAses → ∀ path, D.chosenPath src = some path →
        ∀ a ∈ pathAses path, a ∈ asnSet paths) := by
  have hv := validTables_initMiniDestination h
  obtain ⟨-, -, rfl, -⟩ := exists_routingTree h
  have htab := hD.tables hv
  have hsrc' : D.best src ≠ none := by
    rw [htab]
    exact hsrc
  obtain ⟨paths, hpaths, hnd, hmem⟩ := (hD.valid hv).getAllBestPaths_spec hsrc'
  rw [htab] at hpaths
  simp only [htab] at hmem
  have hlen : ∀ l, Layered.Path m.bestSet m.destination src l → l.length = m.L src + 1 :=
    fun l hl => hv.graded.length_eq hsrc hl
  have hall : m.L src < maxPathAses → ∀ l, l ∈ paths ↔
      Layered.Path m.bestSet m.destination src l := by
    intro hL l
    rw [hmem]
    refine ⟨fun hl => hl.1, fun hl => ⟨hl, ?_⟩⟩
    rw [hlen l hl]
    exact hL
  refine ⟨paths, hpaths, hnd, hmem, hall, fun hL => ?_, fun ds srcText dstText hds hs hd => ?_,
    fun hL path hpath a ha => ?_⟩
  · refine eq_nil_iff_forall_not_mem.mpr fun l hl => ?_
    obtain ⟨hl, hle⟩ := (hmem l).1 hl
    rw [hlen l hl] at hle
    omega
  · simp [getBestPaths, bestAses, hds, hs, hd, hpaths]
  · have hin := (hall hL _).2 (hD.path_of_chosenPath hv hpath)
    rw [asnSet, mem_eraseDups]
    exact mem_flatten.mpr ⟨_, hin, ha⟩

/-- The theorem at a graph of a customer and its provider. -/
theorem getAllBestPaths_of_derived_two_nodes :
    ∃ m, initMiniDestination {} (processCyclopsFile ["1\t2\tc2p".toList]) 1 false = some m ∧
      m.best 2 ≠ none ∧
      ∃ paths, getAllBestPaths (Destination.ofMiniDestination m) 2 1 [] = some (true, paths) ∧
        paths.Nodup ∧ (m.L 2 < maxPathAses → ∀ l, l ∈ paths ↔ Layered.Path m.bestSet 1 2 l) := by
  have hbest : ((initMiniDestination {} (processCyclopsFile ["1\t2\tc2p".toList]) 1 false).map
      fun m => decide (m.best 2 ≠ none)) = some true := by
    decide +kernel
  obtain ⟨m, hm, h2⟩ := map_eq_some_iff.mp hbest
  have h2' := of_decide_eq_true h2
  obtain ⟨paths, hpaths, hnd, -, hall, -⟩ :=
    getAllBestPaths_of_derived {} _ 1 false m hm _ .init 2 h2'
  exact ⟨m, hm, h2', paths, hpaths, hnd, hall⟩

/-- The lines of a file in which every AS up to `n` is a customer of the next. -/
def chainLines (n : ℕ) : List (List Char) :=
  (range n).map fun i =>
    Nat.toDigits 10 (i + 1) ++ '\t' :: Nat.toDigits 10 (i + 2) ++ "\tc2p".toList

/-- AS 21 has a route of twenty hops to AS 1 over its chain of customers, which is a path of the
best sets; the list has no path. -/
theorem getAllBestPaths_chain :
    ∃ m, initMiniDestination {} (processCyclopsFile (chainLines 20)) 1 false = some m ∧
      m.best 21 ≠ none ∧
      getAllBestPaths (Destination.ofMiniDestination m) 21 1 [] = some (true, []) ∧
      ∃ l, Layered.Path m.bestSet 1 21 l := by
  have hrun : ((initMiniDestination {} (processCyclopsFile (chainLines 20)) 1 false).map fun m =>
      decide (m.best 21 ≠ none ∧ m.destination = 1 ∧
        getAllBestPaths (Destination.ofMiniDestination m) 21 1 [] = some (true, []))) =
      some true := by
    decide +kernel
  obtain ⟨m, hm, h21⟩ := map_eq_some_iff.mp hrun
  obtain ⟨hbest, hd, hnone⟩ := of_decide_eq_true h21
  obtain ⟨l, hl⟩ := (validTables_initMiniDestination hm).graded.exists_path hbest
  rw [hd] at hl
  exact ⟨m, hm, hbest, hnone, l, hl⟩

end Astoria
