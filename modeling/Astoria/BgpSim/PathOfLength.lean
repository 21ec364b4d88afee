import Astoria.BgpSim.AllPaths

/-!
# A path of a given length

`pathoflength` is asked whether a path leads from a source to the destination within a number of
hops, and `pathAnalysis` asks it for one number after the other, to find the length of the shortest
path.

The search goes through the entries of the list of an AS, but every branch of its loop returns.  So
it follows the first entry of each list and never tries another one.  Its answer is right exactly if
this one path is as good as any other (`pathOfLength_exact_iff`).
-/

namespace Astoria

open List Option
open RelationshipType

/-! ### The search -/

/-- Whether a path leads to the destination within a length, and the paths that were found.  Every
branch of the loop over the entries returns, so that only the first entry is looked at. -/
def pathOfLength (bestNew : Asn → Option (List ℕ)) (n dst : Asn) (allPaths : List (List ℕ))
    (path : List ℕ) (length : ℤ) : Bool × List (List ℕ) :=
  match (bestNew n).getD [] with
  | [] => (false, allPaths)
  | asnode :: _ =>
    let (destNum, rel) := unjoin asnode
    let (lastNum, prevRel) := unjoin (lastEntry path)
    if destNum = dst then
      if lastNum ≠ destNum then
        if breaksValley prevRel rel then (false, allPaths)
        else (true, allPaths ++ [path ++ [asnode]])
      else (true, allPaths ++ [path])
    else if onPath path destNum = false ∧ (path.length : ℤ) < length then
      if breaksValley prevRel rel then (false, allPaths)
      else pathOfLength bestNew destNum dst allPaths (path ++ [asnode]) length
    else (false, allPaths)
termination_by (length - path.length).toNat
decreasing_by
  rw [length_append, length_singleton]
  omega

/-- Whether a path leads from a source to the destination within a length. -/
def hasPathOfLength (bestNew : Asn → Option (List ℕ)) (src dst : Asn) (length : ℤ) : Bool :=
  (pathOfLength bestNew src dst [] [join src noRel] length).1

/-- The search of `pathAnalysis` for the length of a shortest path: the first length for which a
path is found, of those below the number of ASes of the path that is analysed. -/
def shortestLength (bestNew : Asn → Option (List ℕ)) (src dst : Asn) (asPathLength : ℕ) :
    Option ℕ :=
  (range' 1 (asPathLength - 1)).find? fun i => hasPathOfLength bestNew src dst i

/-! ### Marks -/

def IsMark (e : ℕ) : Prop := ∃ m col, m < numASNs ∧ col ≤ noRel ∧ e = join m col

/-- A table of lists of neighbours (`BestNew`): all entries are marks. -/
structure NeighborTable where
  bestNew : Asn → Option (List ℕ)
  marked : ∀ n, ∀ e ∈ (bestNew n).getD [], IsMark e

section Marks

variable {P : Params} {b : BfsArgs} {g : NetworkGraph} {d cur opp : Asn} {s : BfsState}
  {path : List ℕ} {m : Asn}

lemma isMark_encodedNeighbor (hcur : cur < numASNs) : IsMark (encodedNeighbor b cur opp) := by
  unfold encodedNeighbor
  dsimp only
  split_ifs
  · exact ⟨cur, providerColumn, hcur, by decide, rfl⟩
  · exact ⟨cur, customerColumn, hcur, by decide, rfl⟩
  · exact ⟨cur, peerColumn, hcur, by decide, rfl⟩
  · exact ⟨0, 0, by decide, by decide, rfl⟩

lemma admits_isMark (hflags : b.allowedRelationships ≠ []) : Admits b fun _ e => IsMark e :=
  ⟨hflags, fun _ _ hcur _ _ => isMark_encodedNeighbor hcur, fun _ _ hcur _ _ =>
    isMark_encodedNeighbor hcur⟩

/-- **The table of the routing algorithm.** -/
def neighborTable (hrun : routingTreeAlg P g d = some s) : NeighborTable where
  bestNew := s.bestNew
  marked := by
    have hentered : Entered (fun _ e => IsMark e) s := by
      apply entered_routingTreeAlg _ _ _ hrun
      · exact admits_isMark (cons_ne_nil _ _)
      · exact admits_isMark (cons_ne_nil _ _)
      · exact admits_isMark (cons_ne_nil _ _)
    exact hentered.entries

/-- An AS is found on a path of marks exactly if the path leads over it. -/
lemma onPath_iff (hmarks : ∀ e ∈ path, IsMark e) (hm : m < numASNs) :
    onPath path m = true ↔ m ∈ markedAses path := by
  constructor
  · intro hon
    obtain ⟨e, he, hmark⟩ := List.any_eq_true.mp hon
    have hjoin : ∃ col, col ≤ noRel ∧ e = join m col := by
      simp only [Bool.or_eq_true, decide_eq_true_eq] at hmark
      rcases hmark with ((hmark | hmark) | hmark) | hmark
      · exact ⟨providerColumn, by decide, hmark⟩
      · exact ⟨customerColumn, by decide, hmark⟩
      · exact ⟨peerColumn, by decide, hmark⟩
      · exact ⟨noRel, le_rfl, hmark⟩
    obtain ⟨col, hcol, rfl⟩ := hjoin
    exact List.mem_map.mpr ⟨_, he, by rw [unjoin_join_of_le hm hcol]⟩
  · intro hmem
    obtain ⟨e, he, rfl⟩ := List.mem_map.mp hmem
    obtain ⟨m', col, hm', hcol, rfl⟩ := hmarks e he
    rw [unjoin_join_of_le hm' hcol, onPath, List.any_eq_true]
    refine ⟨_, he, ?_⟩
    unfold noRel at hcol
    unfold providerColumn customerColumn peerColumn noRel
    interval_cases col <;> simp

end Marks

/-! ### Routes over a table -/

section Routes

variable {lists : Asn → List ℕ} {n m src dst : Asn} {e prev : ℕ} {hops visited : List ℕ}

def hopAses (hops : List ℕ) : List Asn := hops.map fun e => (unjoin e).1

def hopColumns (hops : List ℕ) : List ℕ := hops.map fun e => (unjoin e).2

/-- Each hop is in the list of the AS before it. -/
def Follows (lists : Asn → List ℕ) : Asn → List ℕ → Prop
  | _, [] => True
  | n, e :: hops => e ∈ lists n ∧ Follows lists (unjoin e).1 hops

/-- A simple valley-free path over the lists: its hops lead from the source to the destination over
ASes that differ, and no hop may not follow the one before it. -/
structure IsRoute (lists : Asn → List ℕ) (src dst : Asn) (hops : List ℕ) : Prop where
  follows : Follows lists src hops
  last : (src :: hopAses hops).getLast? = some dst
  nodup : (src :: hopAses hops).Nodup
  noValley : (noRel :: hopColumns hops).IsChain fun c c' => breaksValley c c' = false

/-- Hops that lead on to the destination from an AS, where a path has come over some ASes with a
last column: only the last hop leads to the destination, and before it no AS is met twice. -/
structure LeadsOn (lists : Asn → List ℕ) (visited : List Asn) (prev : ℕ) (n dst : Asn)
    (hops : List ℕ) : Prop where
  follows : Follows lists n hops
  last : (hopAses hops).getLast? = some dst
  dst_notMem : dst ∉ (hopAses hops).dropLast
  nodup : (visited ++ (hopAses hops).dropLast).Nodup
  noValley : (prev :: hopColumns hops).IsChain fun c c' => breaksValley c c' = false

lemma LeadsOn.ne_nil (h : LeadsOn lists visited prev n dst hops) : hops ≠ [] := by
  rintro rfl
  cases h.last

/-- The first hop of those that lead on. -/
lemma leadsOn_cons_iff :
    LeadsOn lists visited prev n dst (e :: hops) ↔
    e ∈ lists n ∧ breaksValley prev (unjoin e).2 = false ∧
      ((unjoin e).1 = dst ∧ hops = [] ∧ visited.Nodup ∨ (unjoin e).1 ≠ dst ∧
        (unjoin e).1 ∉ visited ∧
        LeadsOn lists (visited ++ [(unjoin e).1]) (unjoin e).2 (unjoin e).1 dst hops) := by
  cases hops with
  | nil =>
    constructor
    · intro h
      refine ⟨h.follows.1, (isChain_cons_cons.mp h.noValley).1,
        .inl ⟨Option.some.inj h.last, rfl, ?_⟩⟩
      have hnodup := h.nodup
      rwa [hopAses, map_singleton, dropLast_singleton, append_nil] at hnodup
    · rintro ⟨he, hbreaks, ⟨rfl, -, hnodup⟩ | ⟨-, -, h⟩⟩
      · refine ⟨⟨he, trivial⟩, rfl, not_mem_nil, ?_, ?_⟩
        · rwa [hopAses, map_singleton, dropLast_singleton, append_nil]
        · exact isChain_cons_cons.mpr ⟨hbreaks, isChain_singleton _⟩
      · exact absurd rfl h.ne_nil
  | cons e' hops =>
    have hdrop : (hopAses (e :: e' :: hops)).dropLast =
      (unjoin e).1 :: (hopAses (e' :: hops)).dropLast := rfl
    have hlast : (hopAses (e :: e' :: hops)).getLast? = (hopAses (e' :: hops)).getLast? :=
      getLast?_cons_cons
    constructor
    · intro h
      obtain ⟨hbreaks, hvalley⟩ := isChain_cons_cons.mp h.noValley
      have hnotMem := h.dst_notMem
      have hnodup := h.nodup
      rw [hdrop, mem_cons, not_or] at hnotMem
      rw [hdrop, append_cons] at hnodup
      refine ⟨h.follows.1, hbreaks,
        .inr ⟨Ne.symm hnotMem.1, fun hmem => ?_, h.follows.2, ?_, hnotMem.2, hnodup,
        hvalley⟩⟩
      · have hvisited := (nodup_append.mp hnodup).1
        exact (nodup_append.mp hvisited).2.2 _ hmem _ (mem_singleton_self _) rfl
      · rw [← hlast, h.last]
    · rintro ⟨he, hbreaks, ⟨-, hnil, -⟩ | ⟨hne, -, h⟩⟩
      · cases hnil
      · refine ⟨⟨he, h.follows⟩, ?_, ?_, ?_, isChain_cons_cons.mpr ⟨hbreaks, h.noValley⟩⟩
        · rw [hlast, h.last]
        · rw [hdrop, mem_cons, not_or]
          exact ⟨Ne.symm hne, h.dst_notMem⟩
        · rw [hdrop, append_cons]
          exact h.nodup

end Routes

/-! ### What the search answers -/

section Answer

variable (table : NeighborTable) {n src dst : Asn} {path : List ℕ} {allPaths : List (List ℕ)}
  {length : ℤ}

def NeighborTable.entries (n : Asn) : List ℕ := (table.bestNew n).getD []

def NeighborTable.firstEntries (n : Asn) : List ℕ := (table.entries n).take 1

/-- A path of the search: it consists of marks of different ASes, and the last AS may only be the
destination at the start, where it has no column. -/
structure IsSearchPath (dst : Asn) (path : List ℕ) : Prop where
  marks : ∀ e ∈ path, IsMark e
  nodup : (markedAses path).Nodup
  last : (unjoin (lastEntry path)).1 = dst → (unjoin (lastEntry path)).2 = noRel

/-- No first entries lead on from an AS with an empty list. -/
lemma not_leadsOn_of_entries_nil {visited : List Asn} {prev : ℕ} (hnil : table.entries n = [])
    (hops : List ℕ) : ¬ LeadsOn table.firstEntries visited prev n dst hops := by
  intro h
  cases hops with
  | nil => exact absurd h.last nofun
  | cons e hops =>
    have hmem := h.follows.1
    rw [NeighborTable.firstEntries, hnil] at hmem
    cases hmem

/-- First entries that lead on start with the first entry of the AS. -/
lemma exists_leadsOn_iff {visited : List Asn} {prev asnode : ℕ} {tail : List ℕ} {bound : ℕ → Prop}
    (hentries : table.entries n = asnode :: tail) :
    (∃ hops, LeadsOn table.firstEntries visited prev n dst hops ∧ bound hops.length) ↔
      breaksValley prev (unjoin asnode).2 = false ∧
        ((unjoin asnode).1 = dst ∧ visited.Nodup ∧ bound 1 ∨ (unjoin asnode).1 ≠ dst ∧
          (unjoin asnode).1 ∉ visited ∧
          ∃ hops, LeadsOn table.firstEntries (visited ++ [(unjoin asnode).1]) (unjoin asnode).2
            (unjoin asnode).1 dst hops ∧ bound (hops.length + 1)) := by
  have hfirst : table.firstEntries n = [asnode] := by rw [NeighborTable.firstEntries, hentries]; rfl
  constructor
  · rintro ⟨hops, hleads, hbound⟩
    cases hops with
    | nil => exact absurd hleads.last nofun
    | cons e hops =>
      obtain ⟨hmem, hbreaks, hrest⟩ := leadsOn_cons_iff.mp hleads
      rw [hfirst, mem_singleton] at hmem
      subst hmem
      refine ⟨hbreaks, hrest.imp ?_ ?_⟩
      · rintro ⟨hdst, rfl, hnodup⟩
        exact ⟨hdst, hnodup, hbound⟩
      · rintro ⟨hne, hnew, hleads⟩
        exact ⟨hne, hnew, hops, hleads, hbound⟩
  · have hmem : asnode ∈ table.firstEntries n := by rw [hfirst]; exact mem_singleton_self _
    rintro ⟨hbreaks, ⟨hdst, hnodup, hbound⟩ | ⟨hne, hnew, hops, hleads, hbound⟩⟩
    · exact ⟨[asnode], leadsOn_cons_iff.mpr ⟨hmem, hbreaks, .inl ⟨hdst, rfl, hnodup⟩⟩, hbound⟩
    · exact ⟨asnode :: hops, leadsOn_cons_iff.mpr ⟨hmem, hbreaks, .inr ⟨hne, hnew, hleads⟩⟩, hbound⟩

lemma IsSearchPath.append {e : ℕ} (h : IsSearchPath dst path) (he : IsMark e)
    (hne : (unjoin e).1 ≠ dst) (hnew : (unjoin e).1 ∉ markedAses path) :
    IsSearchPath dst (path ++ [e]) := by
  refine ⟨forall_mem_append.mpr ⟨h.marks, fun e' he' => mem_singleton.mp he' ▸ he⟩, ?_,
    fun hlast => ?_⟩
  · rw [markedAses, map_append, map_singleton]
    refine nodup_append.mpr ⟨h.nodup, nodup_singleton _, fun a ha b hb hab => hnew ?_⟩
    rw [hab, mem_singleton.mp hb] at ha
    exact ha
  · rw [lastEntry_eq getLast?_concat] at hlast
    exact absurd hlast hne

/-- The number of hops by which the search may extend a path: any path may be extended by the hop to
the destination. -/
def InReach (path : List ℕ) (length : ℤ) (hops : ℕ) : Prop :=
  hops = 1 ∨ (path.length + hops : ℤ) ≤ length + 1

/-- **The search** finds a path exactly if first entries lead on to the destination within the
length. -/
lemma pathOfLength_iff (hpath : IsSearchPath dst path) :
    (pathOfLength table.bestNew n dst allPaths path length).1 = true ↔
      ∃ hops, LeadsOn table.firstEntries (markedAses path) (unjoin (lastEntry path)).2 n dst hops ∧
        InReach path length hops.length := by
  induction n, path using pathOfLength.induct table.bestNew dst length with
  | case1 n path hnil =>
    rw [pathOfLength, hnil]
    refine iff_of_false Bool.false_ne_true ?_
    rintro ⟨hops, hleads, -⟩
    exact not_leadsOn_of_entries_nil table hnil hops hleads
  | case2 n path asnode tail hentries rel lastNum prevRel hlast hbreaks hasnode hne =>
    -- the hop to the destination is not allowed
    rw [exists_leadsOn_iff table hentries, pathOfLength, hentries, hasnode, hlast]
    dsimp only
    rw [hasnode, if_pos rfl, if_pos hne, if_pos hbreaks]
    refine iff_of_false Bool.false_ne_true ?_
    rintro ⟨hok, -⟩
    rw [hbreaks] at hok
    cases hok
  | case3 n path asnode tail hentries rel lastNum prevRel hlast hbreaks hasnode hne =>
    -- the path meets the destination
    rw [exists_leadsOn_iff table hentries, pathOfLength, hentries, hasnode, hlast]
    dsimp only
    rw [hasnode, if_pos rfl, if_pos hne, if_neg hbreaks]
    exact iff_of_true rfl ⟨Bool.not_eq_true _ ▸ hbreaks, .inl ⟨rfl, hpath.nodup, .inl rfl⟩⟩
  | case4 n path asnode tail hentries rel lastNum prevRel hlast hasnode heq =>
    -- the source is the destination, and its first entry too
    have hprev := hpath.last (by rw [hlast]; exact not_not.mp heq)
    rw [hlast] at hprev
    dsimp only at hprev
    subst hprev
    rw [exists_leadsOn_iff table hentries, pathOfLength, hentries, hasnode, hlast]
    dsimp only
    rw [hasnode, if_pos rfl, if_neg heq]
    refine iff_of_true rfl ⟨?_, .inl ⟨rfl, hpath.nodup, .inl rfl⟩⟩
    simp [breaksValley, noRel, customerColumn, peerColumn]
  | case5 n path asnode tail hentries destNum rel hasnode lastNum prevRel hlast hdst hroom
      hbreaks =>
    -- the hop is not allowed
    rw [exists_leadsOn_iff table hentries, pathOfLength, hentries, hasnode, hlast]
    dsimp only
    rw [hasnode, if_neg hdst, if_pos hroom, if_pos hbreaks]
    refine iff_of_false Bool.false_ne_true ?_
    rintro ⟨hok, -⟩
    rw [hbreaks] at hok
    cases hok
  | case6 n path asnode tail hentries destNum rel hasnode lastNum prevRel hlast hdst hroom
      hbreaks ih =>
    -- the search goes on from the first neighbour
    have hmark : IsMark asnode := table.marked n asnode (by rw [hentries]; exact mem_cons_self)
    have hnew : destNum ∉ markedAses path := by
      obtain ⟨m, col, hm, hcol, rfl⟩ := hmark
      rw [unjoin_join_of_le hm hcol] at hasnode
      obtain ⟨rfl, -⟩ := Prod.mk.inj hasnode
      rw [← onPath_iff hpath.marks hm, hroom.1]
      exact Bool.false_ne_true
    have hnext : IsSearchPath dst (path ++ [asnode]) := by
      apply hpath.append hmark
      · rw [hasnode]
        exact hdst
      · rw [hasnode]
        exact hnew
    have hmarked : markedAses (path ++ [asnode]) = markedAses path ++ [destNum] := by
      rw [markedAses, map_append, map_singleton, hasnode]
      rfl
    specialize ih hnext
    rw [lastEntry_eq getLast?_concat, hasnode, hmarked] at ih
    rw [exists_leadsOn_iff table hentries, pathOfLength, hentries, hasnode, hlast]
    dsimp only at ih ⊢
    rw [hasnode, if_neg hdst, if_pos hroom, if_neg hbreaks, ih]
    constructor
    · rintro ⟨hops, hleads, hbound⟩
      refine ⟨Bool.not_eq_true _ ▸ hbreaks, .inr ⟨hdst, hnew, hops, hleads, .inr ?_⟩⟩
      have hroom' := hroom.2
      rw [InReach, length_append, length_singleton] at hbound
      push_cast at hbound ⊢
      omega
    · rintro ⟨-, ⟨hbad, -⟩ | ⟨-, -, hops, hleads, hbound⟩⟩
      · exact absurd hbad hdst
      · refine ⟨hops, hleads, .inr ?_⟩
        unfold InReach at hbound
        have hlen := length_pos_iff.mpr hleads.ne_nil
        rw [length_append, length_singleton]
        push_cast at hbound ⊢
        omega
  | case7 n path asnode tail hentries destNum rel hasnode lastNum prevRel hlast hdst hroom =>
    -- the neighbour is on the path, or the path is too long
    rw [exists_leadsOn_iff table hentries, pathOfLength, hentries, hasnode, hlast]
    dsimp only
    rw [hasnode, if_neg hdst, if_neg hroom]
    refine iff_of_false Bool.false_ne_true ?_
    rintro ⟨-, ⟨hbad, -⟩ | ⟨-, hnew, hops, hleads, hbound⟩⟩
    · exact hdst hbad
    · have hmark : IsMark asnode := table.marked n asnode (by rw [hentries]; exact mem_cons_self)
      obtain ⟨m, col, hm, hcol, rfl⟩ := hmark
      rw [unjoin_join_of_le hm hcol] at hasnode
      obtain ⟨rfl, -⟩ := Prod.mk.inj hasnode
      have hlen := length_pos_iff.mpr hleads.ne_nil
      unfold InReach at hbound
      push_cast at hbound
      refine hroom ⟨?_, by omega⟩
      rw [← Bool.not_eq_true, onPath_iff hpath.marks hm]
      exact hnew

lemma hasPathOfLength_iff (hsrc : src < numASNs) :
    hasPathOfLength table.bestNew src dst length = true ↔
      ∃ hops, LeadsOn table.firstEntries [src] noRel src dst hops ∧
      (hops.length : ℤ) ≤ max 1 length := by
  have hunjoin : unjoin (join src noRel) = (src, noRel) := unjoin_join_of_le hsrc le_rfl
  have hlast : lastEntry [join src noRel] = join src noRel := rfl
  have hstart : IsSearchPath dst [join src noRel] := by
    refine ⟨fun e he => ?_, nodup_singleton _, fun _ => ?_⟩
    · exact ⟨src, noRel, hsrc, le_rfl, mem_singleton.mp he⟩
    · rw [hlast, hunjoin]
  have hmarked : markedAses [join src noRel] = [src] := by rw [markedAses, map_singleton, hunjoin]
  rw [hasPathOfLength, pathOfLength_iff table hstart, hmarked, hlast, hunjoin]
  refine exists_congr fun hops => and_congr_right fun hleads => ?_
  have hlen := length_pos_iff.mpr hleads.ne_nil
  rw [InReach, length_singleton]
  omega

end Answer

/-! ### When the answer is right -/

section Exact

variable (table : NeighborTable) {src dst : Asn} {length : ℤ}

/-- Some simple valley-free path leads from the source to the destination within a number of
hops. -/
def HasRoute (lists : Asn → List ℕ) (src dst : Asn) (length : ℤ) : Prop :=
  ∃ hops, IsRoute lists src dst hops ∧ (hops.length : ℤ) ≤ length

/-- The answer for a length is right. -/
def AnswersExactly (src dst : Asn) (length : ℤ) : Prop :=
  hasPathOfLength table.bestNew src dst length = true ↔ HasRoute table.entries src dst length

/-- The search of `pathAnalysis` finds the least length within which there is a path, if it is below
the number of ASes of the path that is analysed. -/
def FindsShortest (src dst : Asn) (asPathLength : ℕ) : Prop :=
  ∀ i, shortestLength table.bestNew src dst asPathLength = some i ↔
    i < asPathLength ∧ IsLeast {k : ℕ | 1 ≤ k ∧ HasRoute table.entries src dst k} i

/-- There is a path within a length exactly if the first entries of the lists lead to the
destination within it, where the hop to the destination itself counts for nothing. -/
def FirstEntriesSuffice (src dst : Asn) (length : ℤ) : Prop :=
  HasRoute table.entries src dst length ↔
    ∃ hops, LeadsOn table.firstEntries [src] noRel src dst hops ∧ (hops.length : ℤ) ≤ max 1 length

variable {table}

lemma shortestLength_eq_some_iff {asPathLength i : ℕ} :
    shortestLength table.bestNew src dst asPathLength = some i ↔
      (1 ≤ i ∧ i < asPathLength) ∧ hasPathOfLength table.bestNew src dst i = true ∧
        ∀ j : ℕ, 1 ≤ j → j < i → hasPathOfLength table.bestNew src dst j ≠ true := by
  rw [shortestLength, find?_range'_eq_some, mem_range'_1]
  constructor
  · rintro ⟨hi, ⟨hlow, hhigh⟩, hbefore⟩
    refine ⟨⟨hlow, by omega⟩, hi, fun j hj hlt htrue => ?_⟩
    have hfalse := hbefore j hj hlt
    rw [htrue] at hfalse
    cases hfalse
  · rintro ⟨⟨hlow, hhigh⟩, hi, hbefore⟩
    refine ⟨hi, ⟨hlow, by omega⟩, fun j hj hlt => ?_⟩
    rw [Bool.not_eq_true', ← Bool.not_eq_true]
    exact hbefore j hj hlt

/-- **When the search is exact.**  For every table, source and destination, the answer for a length
is right exactly if there is a path within it just when the first entries lead to the destination
within it; and the shortest length is found exactly if this holds for all lengths that are tried. -/
theorem pathOfLength_exact_iff (table : NeighborTable) (src dst : Asn) (hsrc : src < numASNs) :
    (∀ length : ℤ, AnswersExactly table src dst length ↔ FirstEntriesSuffice table src dst length) ∧
      ∀ asPathLength : ℕ, FindsShortest table src dst asPathLength ↔
        ∀ i : ℕ, 1 ≤ i → i < asPathLength → FirstEntriesSuffice table src dst i := by
  have hexact (length : ℤ) : AnswersExactly table src dst length ↔ FirstEntriesSuffice table src dst
      length := by
    rw [AnswersExactly, FirstEntriesSuffice, hasPathOfLength_iff table hsrc]
    exact Iff.comm
  -- both a longer path that is found and a longer path may be used within a greater length
  have hanswer_mono {i j : ℕ} (hij : i ≤ j) (h : hasPathOfLength table.bestNew src dst i = true) :
      hasPathOfLength table.bestNew src dst j = true := by
    rw [hasPathOfLength_iff table hsrc] at h ⊢
    obtain ⟨hops, hleads, hlen⟩ := h
    exact ⟨hops, hleads, by omega⟩
  have hroute_mono {i j : ℕ} (hij : i ≤ j) (h : HasRoute table.entries src dst i) :
      HasRoute table.entries src dst j := by
    obtain ⟨hops, hroute, hlen⟩ := h
    exact ⟨hops, hroute, by omega⟩
  refine ⟨hexact, fun asPathLength =>
    ⟨fun hfinds i hi hlt => (hexact i).mp ⟨fun htrue => ?_, fun hroute => ?_⟩, ?_⟩⟩
  · -- the first length for which a path is found is a shortest length
    obtain ⟨j, hj⟩ : ∃ j, shortestLength table.bestNew src dst asPathLength = some j := by
      rw [← isSome_iff_exists, shortestLength, find?_isSome]
      exact ⟨i, mem_range'_1.mpr ⟨hi, by omega⟩, htrue⟩
    obtain ⟨⟨hj₁, -⟩, -, hfirst⟩ := shortestLength_eq_some_iff.mp hj
    have hij : j ≤ i := by
      by_contra hij
      exact hfirst i hi (by omega) htrue
    exact hroute_mono hij ((hfinds j).mp hj).2.1.2
  · -- the least length within which there is a path is found
    obtain ⟨k, hk, hleast⟩ : ∃ k, IsLeast {k : ℕ | 1 ≤ k ∧ HasRoute table.entries src dst k} k := by
      classical
      have hne : ∃ k : ℕ, 1 ≤ k ∧ HasRoute table.entries src dst k := ⟨i, hi, hroute⟩
      exact ⟨Nat.find hne, Nat.find_spec hne, fun j hj => Nat.find_min' hne hj⟩
    have hki : k ≤ i := hleast ⟨hi, hroute⟩
    have hfound := (hfinds k).mpr ⟨by omega, hk, hleast⟩
    exact hanswer_mono hki (shortestLength_eq_some_iff.mp hfound).2.1
  · intro hsuffice i
    rw [shortestLength_eq_some_iff]
    constructor
    · rintro ⟨⟨hi, hlt⟩, htrue, hbefore⟩
      refine ⟨hlt, ⟨hi, ((hexact i).mpr (hsuffice i hi hlt)).mp htrue⟩, fun j ⟨hj, hroute⟩ => ?_⟩
      by_contra hji
      exact hbefore j hj (by omega) (((hexact j).mpr (hsuffice j hj (by omega))).mpr hroute)
    · rintro ⟨hlt, ⟨hi, hroute⟩, hleast⟩
      refine ⟨⟨hi, hlt⟩, ((hexact i).mpr (hsuffice i hi hlt)).mpr hroute, fun j hj hji htrue => ?_⟩
      have hle := hleast ⟨hj, ((hexact j).mpr (hsuffice j hj (by omega))).mp htrue⟩
      omega

/-- The network in which 1 is a customer of 2, which is a customer of 3, and 1 and 3 are peers. -/
def peerShortcut : NetworkGraph :=
  processCyclopsFile ["1\t2\tc2p".toList, "2\t3\tc2p".toList, "1\t3\tp2p".toList]

/-- The search from 2 over the table for the destination 1. -/
theorem pathOfLength_exact_iff_peerShortcut :
    ∃ (s : BfsState) (hrun : routingTreeAlg {} peerShortcut 1 = some s),
    (∀ length : ℤ, AnswersExactly (neighborTable hrun) 2 1 length ↔
        FirstEntriesSuffice (neighborTable hrun) 2 1 length) ∧
      ∀ asPathLength : ℕ, FindsShortest (neighborTable hrun) 2 1 asPathLength ↔
        ∀ i : ℕ, 1 ≤ i → i < asPathLength → FirstEntriesSuffice (neighborTable hrun) 2 1 i := by
  have hsome : (routingTreeAlg {} peerShortcut 1).isSome = true := by
    decide +kernel
  obtain ⟨s, hrun⟩ := isSome_iff_exists.mp hsome
  exact ⟨s, hrun, pathOfLength_exact_iff (neighborTable hrun) 2 1 (by decide)⟩

/-- In the table for the destination 1, the list of 3 starts with 2.  So the path of one hop from 3
to its peer is not found, and two hops are taken for the shortest length. -/
theorem not_pathOfLength_exact :
    ∃ (s : BfsState) (hrun : routingTreeAlg {} peerShortcut 1 = some s), ¬ AnswersExactly
      (neighborTable hrun) 3 1 1 ∧ ¬ FindsShortest (neighborTable hrun) 3 1 3 := by
  have hlists : (routingTreeAlg {} peerShortcut 1).map (fun s => s.bestNew 3) =
      some (some [16, 9]) := by
    decide +kernel
  obtain ⟨s, hrun, hlist⟩ := map_eq_some_iff.mp hlists
  have hentries : (neighborTable hrun).entries 3 = 16 :: [9] := by
    show (s.bestNew 3).getD [] = _
    rw [hlist]
    rfl
  have hroute : HasRoute (neighborTable hrun).entries 3 1 1 := by
    refine ⟨[9], ⟨⟨?_, trivial⟩, rfl, by decide, by decide⟩, le_rfl⟩
    rw [hentries]
    decide
  have hfalse : hasPathOfLength (neighborTable hrun).bestNew 3 1 1 ≠ true := by
    intro htrue
    obtain ⟨hops, hleads, hlen⟩ := (hasPathOfLength_iff _ (by decide)).mp htrue
    cases hops with
    | nil => exact absurd hleads.last nofun
    | cons e hops =>
      obtain ⟨hmem, -, hrest⟩ := leadsOn_cons_iff.mp hleads
      rw [NeighborTable.firstEntries, hentries] at hmem
      obtain rfl := mem_singleton.mp hmem
      rcases hrest with ⟨hbad, -⟩ | ⟨-, -, hrest⟩
      · exact absurd hbad (by decide)
      · cases hops with
        | nil => exact absurd hrest.last nofun
        | cons e hops =>
          rw [length_cons, length_cons] at hlen
          push_cast at hlen
          omega
  refine ⟨s, hrun, fun hanswer => hfalse (hanswer.mpr hroute), fun hfinds => hfalse ?_⟩
  have hfound := (hfinds 1).mpr ⟨by decide, ⟨le_rfl, hroute⟩, fun k hk => hk.1⟩
  exact (shortestLength_eq_some_iff.mp hfound).2.1

end Exact

end Astoria
