import Mathlib.Data.List.Chain
import Mathlib.Tactic.IntervalCases
import Astoria.BgpSim.GraphFile
import Astoria.BgpSim.ValleyFree
import Astoria.Library.Runs

/-!
# All paths to a destination

`GetAllPaths` extends a path from its last AS over the entries of `bestNew` until it meets the
destination.  The lists `bestNew` hold the neighbours over which a route was seen in any of the
three passes, more of them than the best sets.

What the passes enter there are edges of the graph with their columns (`hops_routingTreeAlg`).  All
paths that are found are therefore simple valley-free paths of the graph with at most eight ASes
(`getAllPaths_isPath`).
-/

namespace Astoria

open List Option
open RelationshipType
open Function

/-! ### The search for paths -/

/-- The mark of an AS to which no edge leads (`_NOREL`). -/
def noRel : ℕ := 3

/-- A hop that may not follow another one. -/
def breaksValley (prevRel rel : ℕ) : Bool :=
  (rel = peerColumn && prevRel = customerColumn) ||
    (prevRel = peerColumn && rel = providerColumn) || (prevRel = peerColumn && rel = peerColumn) ||
      (prevRel = customerColumn && (rel = peerColumn || rel = providerColumn))

/-- An AS is on a path, whatever its mark. -/
def onPath (path : List ℕ) (asn : Asn) : Bool :=
  path.any fun element => element = join asn providerColumn || element = join asn customerColumn ||
    element = join asn peerColumn || element = join asn noRel

def lastEntry (path : List ℕ) : ℕ := path.getLastD 0

/-- The loop of `GetAllPaths` over the entries that are left, with the path and the flag that the
destination was met. The path that is met by the destination is extended in place; from then on, it
is not changed any more, so that the list that holds it can hold its value. -/
def extendPaths (bestNew : Asn → Option (List ℕ)) (dst : Asn) (path : List ℕ) (showStopper : Bool)
    (entries : List ℕ) (allPaths : List (List ℕ)) : List (List ℕ) :=
  match entries with
  | [] => allPaths
  | asnode :: entries =>
    let (destNum, rel) := unjoin asnode
    let (lastNum, prevRel) := unjoin (lastEntry path)
    if destNum = dst then
      if lastNum ≠ destNum then
        if breaksValley prevRel rel then allPaths
        else extendPaths bestNew dst (path ++ [asnode]) true entries
          (allPaths ++ [path ++ [asnode]])
      else extendPaths bestNew dst path true entries (allPaths ++ [path])
    else if path.length < 7 ∧ onPath path destNum = false ∧ showStopper = false then
      if breaksValley prevRel rel then extendPaths bestNew dst path showStopper entries allPaths
      else extendPaths bestNew dst path showStopper entries
        (extendPaths bestNew dst (path ++ [asnode]) false ((bestNew destNum).getD []) allPaths)
    else extendPaths bestNew dst path showStopper entries allPaths
termination_by (7 - path.length, entries.length)
decreasing_by
  all_goals simp only [Prod.lex_def, length_append, length_cons, length_nil, true_and]
  all_goals omega

/-- All paths from a node to the destination, which are added to the paths that are given.  The path
that is received leads to the node. -/
def getAllPaths (bestNew : Asn → Option (List ℕ)) (destination n dst : Asn)
    (allPaths : List (List ℕ)) (recvpath : List ℕ) : Bool × List (List ℕ) :=
  if dst ≠ destination then (false, allPaths)
  else (true, extendPaths bestNew dst recvpath false ((bestNew n).getD []) allPaths)

/-! ### What the passes enter -/

section Hops

variable {P : Params} {b : BfsArgs} {g : NetworkGraph} {cur opp n : Asn} {s s' : BfsState} {e : ℕ}
  {Q : Asn → ℕ → Prop}

/-- An entry of the list of a node: a neighbour with the column of the relationship that it has to
the node. -/
def IsHopEntry (g : NetworkGraph) (n : Asn) (e : ℕ) : Prop :=
  ∃ m col, m < numASNs ∧ col ≤ providerColumn ∧ e = join m col ∧ n < numASNs ∧
    n ∈ g.neighbors m (hopType col)

/-- The lists of neighbours hold edges, and what is in the queue fits the tables. -/
structure Hops (g : NetworkGraph) (s : BfsState) : Prop where
  entries : ∀ n, ∀ e ∈ (s.bestNew n).getD [], IsHopEntry g n e
  queue : ∀ n ∈ s.nodeQueue, n < numASNs

/-- The lists of neighbours hold what is admitted, and what is in the queue fits the tables. -/
structure Entered (Q : Asn → ℕ → Prop) (s : BfsState) : Prop where
  entries : ∀ n, ∀ e ∈ (s.bestNew n).getD [], Q n e
  queue : ∀ n ∈ s.nodeQueue, n < numASNs

/-- The marks that a pass enters are admitted: those that are not zero, and those of the neighbours
over which it goes. -/
structure Admits (b : BfsArgs) (Q : Asn → ℕ → Prop) : Prop where
  flags : b.allowedRelationships ≠ []
  nonzero : ∀ cur opp, cur < numASNs → opp < numASNs → encodedNeighbor b cur opp ≠ 0 →
    Q opp (encodedNeighbor b cur opp)
  visited : ∀ cur opp, cur < numASNs → opp < numASNs → opp ∈ visitedNeighbors b cur →
    Q opp (encodedNeighbor b cur opp)

/-- A pass that follows one relationship, if there are no siblings. -/
structure IsPass (b : BfsArgs) (t : RelationshipType) : Prop where
  siblingFree : b.graph.SiblingFree
  one : b.graph.OneRelationship
  mem : t ∈ b.allowedRelationships
  allowed : ∀ u ∈ b.allowedRelationships, u = t ∨ u = siblingOf

lemma mem_of_getRelationshipTypeOfNeighbor {t : RelationshipType}
    (h : g.getRelationshipTypeOfNeighbor cur opp = some t) : opp ∈ g.neighbors cur t := by
  have hfound := find?_some h
  exact of_decide_eq_true hfound

/-- A mark is an edge, if it is not the zero for no relationship. -/
lemma isEntry_encodedNeighbor (hflags : b.allowedRelationships ≠ []) (hcur : cur < numASNs)
    (hopp : opp < numASNs) (h : encodedNeighbor b cur opp ≠ 0) :
    IsHopEntry b.graph opp (encodedNeighbor b cur opp) := by
  unfold encodedNeighbor at h ⊢
  dsimp only at h ⊢
  split at h
  · next hprov =>
    rw [if_pos hprov]
    exact ⟨cur, providerColumn, hcur, le_rfl, rfl, hopp,
      mem_of_getRelationshipTypeOfNeighbor hprov.1⟩
  · next hprov =>
    rw [if_neg hprov]
    split at h
    · next hcust =>
      rw [if_pos hcust]
      rcases hcust with hcust | hnil
      · exact ⟨cur, customerColumn,
          hcur, by decide, rfl, hopp, mem_of_getRelationshipTypeOfNeighbor hcust.1⟩
      · exact absurd hnil hflags
    · next hcust =>
      rw [if_neg hcust]
      split at h
      · next hpeer =>
        rw [if_pos hpeer]
        exact ⟨cur, peerColumn,
          hcur, by decide, rfl, hopp, mem_of_getRelationshipTypeOfNeighbor hpeer.1⟩
      · exact absurd rfl h

/-- The mark of a neighbour over which the pass goes is an edge. -/
lemma IsPass.isEntry {t : RelationshipType} (h : IsPass b t) (hcur : cur < numASNs)
    (hopp : opp < numASNs) (hmem : opp ∈ visitedNeighbors b cur) :
    IsHopEntry b.graph opp (encodedNeighbor b cur opp) := by
  have hflags : b.allowedRelationships ≠ [] := ne_nil_of_mem h.mem
  obtain ⟨u, hu, hedge⟩ := (NetworkGraph.mem_getNeighborsByType hflags).mp (mem_eraseDups.mp hmem)
  -- there are no siblings, so the edge is one of the relationship
  obtain rfl : u = t := by
    rcases h.allowed u hu with rfl | rfl
    · rfl
    · rw [h.siblingFree cur] at hedge
      cases hedge
  have hsib : u ≠ siblingOf := by
    rintro rfl
    rw [h.siblingFree cur] at hedge
    cases hedge
  have hrel : b.graph.getRelationshipTypeOfNeighbor cur opp = some u := by
    cases hfind : b.graph.getRelationshipTypeOfNeighbor cur opp with
    | none =>
      have := find?_eq_none.mp hfind u (by cases u <;> simp [relationshipTypes])
      exact absurd (decide_eq_true hedge) this
    | some v =>
      exact congrArg some
        (h.one cur opp v u (.inl (mem_of_getRelationshipTypeOfNeighbor hfind)) (.inl hedge))
  cases u with
  | siblingOf => exact absurd rfl hsib
  | providerTo =>
    refine ⟨cur, providerColumn, hcur, le_rfl, ?_, hopp, hedge⟩
    rw [encodedNeighbor, if_pos ⟨hrel, h.mem⟩]
  | customerOf =>
    refine ⟨cur, customerColumn, hcur, by decide, ?_, hopp, hedge⟩
    rw [encodedNeighbor, if_neg (by rw [hrel]; rintro ⟨hbad, -⟩; cases hbad),
      if_pos (.inl ⟨hrel, h.mem⟩)]
  | peerOf =>
    refine ⟨cur, peerColumn, hcur, by decide, ?_, hopp, hedge⟩
    rw [encodedNeighbor, if_neg (by rw [hrel]; rintro ⟨hbad, -⟩; cases hbad), if_neg,
      if_pos ⟨hrel, h.mem⟩]
    rintro (⟨hbad, -⟩ | hnil)
    · rw [hrel] at hbad
      cases hbad
    · exact hflags hnil

/-- What a visit does to the lists and the queue, before the neighbour is entered once more. -/
lemma VisitStep.bestNew_eq (h : VisitStep P b cur s opp s') :
    (s'.bestNew = s.bestNew ∨ s.inProcessBfsStatus opp = .unseen ∧
      s.discoveredInPriorBfs opp = false ∧
      s'.bestNew = update s.bestNew opp
        (some ((s.bestNew opp).getD [] ++ [encodedNeighbor b cur opp]))) ∧
      ∀ n ∈ s'.nodeQueue, n ∈ s.nodeQueue ∨ n = opp := by
  have hrec : isRecorded b.graph opp = true := by
    rw [isRecorded, onlyNonStubs, Bool.not_false, Bool.or_true]
  cases h with
  | discovered hs ho hrow =>
    unfold visitDiscovered
    rw [if_pos hrec]
    refine ⟨.inr ⟨hs, ho, ?_⟩, fun n hn => ?_⟩
    · unfold recordDiscovered
      cases column b.allowedRelationships <;> rfl
    · dsimp only at hn
      split at hn
      · exact .inl hn
      · rcases mem_append.mp hn with hn | hn
        · exact .inl hn
        · exact .inr (mem_singleton.mp hn)
  | rejoined hs ho hp =>
    refine ⟨.inl rfl, fun n hn => ?_⟩
    rcases mem_append.mp hn with hn | hn
    · exact .inl hn
    · exact .inr (mem_singleton.mp hn)
  | switched parent ht hp hw =>
    unfold addToBest switchParent
    rw [if_pos hrec, if_pos hrec]
    cases column b.allowedRelationships <;> exact ⟨.inl rfl, fun n hn => .inl hn⟩
  | added parent ht hp hw =>
    unfold addToBest
    rw [if_pos hrec]
    exact ⟨.inl rfl, fun n hn => .inl hn⟩
  | passed => exact ⟨.inl rfl, fun n hn => .inl hn⟩
  | settled => exact ⟨.inl rfl, fun n hn => .inl hn⟩

section

variable (h : Entered Q s) (hb : Admits b Q) (hcur : cur < numASNs)

include h hb hcur

/-- Entering the neighbour keeps the lists good. -/
lemma Entered.addToBestNew (hopp : opp < numASNs) : Entered Q (addToBestNew b cur s opp) := by
  unfold Astoria.addToBestNew
  split
  · exact h
  · refine ⟨fun n e he => ?_, h.queue⟩
    dsimp only at he
    by_cases hn : n = opp
    · subst hn
      rw [update_self, getD_some] at he
      split at he
      · exact h.entries n e he
      · split at he
        · next hne =>
          rcases mem_append.mp he with he | he
          · exact h.entries n e he
          · rw [mem_singleton.mp he]
            exact hb.nonzero cur n hcur hopp hne
        · exact h.entries n e he
    · rw [update_of_ne hn] at he
      exact h.entries n e he

/-- **One visit** keeps the lists good, if the node is only discovered over an edge of the pass. -/
lemma Entered.visit
    (hnew : s.inProcessBfsStatus opp = .unseen → s.discoveredInPriorBfs opp = false →
      opp ∈ visitedNeighbors b cur)
    (hvisit : visit P b cur s opp = some s') : Entered Q s' := by
  obtain ⟨hopp, s₁, hstep, rfl⟩ := visit_eq_some hvisit
  apply Entered.addToBestNew _ hb hcur hopp
  obtain ⟨hbest, hqueue⟩ := hstep.bestNew_eq
  refine ⟨fun n e he => ?_, fun n hn => ?_⟩
  · rcases hbest with hbest | ⟨hs, ho, hbest⟩
    · rw [hbest] at he
      exact h.entries n e he
    · rw [hbest] at he
      by_cases hn : n = opp
      · subst hn
        rw [update_self, getD_some] at he
        rcases mem_append.mp he with he | he
        · exact h.entries n e he
        · rw [mem_singleton.mp he]
          exact hb.visited cur n hcur hopp (hnew hs ho)
      · rw [update_of_ne hn] at he
        exact h.entries n e he
  · rcases hqueue n hn with hn | rfl
    · exact h.queue n hn
    · exact hopp

/-- Examining a node keeps the lists good. -/
lemma Entered.examine (hrun : examine P b s cur = some s') : Entered Q s' := by
  unfold Astoria.examine at hrun
  obtain ⟨s₁, hs₁, hrun⟩ := bind_eq_some_iff.mp hrun
  obtain ⟨s₂, hs₂, hrun⟩ := bind_eq_some_iff.mp hrun
  have h₁ : Entered Q s₁ :=
    Runs.foldlM_preserves (fun opp hopp s s' hs hv => hs.visit hb hcur (fun _ _ => hopp) hv) h hs₁
  have h₂ : Entered Q s₂ := by
    refine Runs.foldlM_preserves (fun opp _ s s' hs hv => ?_) h₁ hs₂
    unfold visitChild at hv
    split at hv
    · cases hv
    · next hadd =>
      refine hs.visit hb hcur (fun hunseen hold => absurd ?_ hadd) hv
      rw [addsChild, if_pos hunseen, hold]
      rfl
  obtain rfl := some.inj hrun
  exact ⟨h₂.entries, h₂.queue⟩

end

/-- The loop keeps the lists good. -/
lemma Entered.loop (hb : Admits b Q) {fuel : ℕ} (h : Entered Q s)
    (hrun : loop P b fuel s = some s') :
    Entered Q s' := by
  induction fuel generalizing s with
  | zero =>
    unfold Astoria.loop at hrun
    split at hrun
    · obtain rfl := some.inj hrun
      exact h
    · cases hrun
  | succ fuel ih =>
    unfold Astoria.loop at hrun
    split at hrun
    · obtain rfl := some.inj hrun
      exact h
    · next cur queue hqueue =>
      obtain ⟨s₁, hs₁, hrun⟩ := bind_eq_some_iff.mp hrun
      have hcur : cur < numASNs := h.queue cur (by rw [hqueue]; exact mem_cons_self)
      have hrest : Entered Q { s with nodeQueue := queue } :=
        ⟨h.entries, fun n hn => h.queue n (by rw [hqueue]; exact mem_cons_of_mem _ hn)⟩
      exact ih (hrest.examine hb hcur hs₁) hrun

/-- **A pass** keeps the lists good. -/
theorem Entered.executeBfs (h : Entered Q s) (hb : Admits b Q) (hrun : executeBfs P b s = some s') :
    Entered Q s' := by
  unfold Astoria.executeBfs at hrun
  split at hrun
  · cases hrun
  · next hsrc =>
    rw [not_or, not_le] at hsrc
    obtain ⟨s₁, hs₁, rfl⟩ := map_eq_some_iff.mp hrun
    have hstart : Entered Q (visitSource b s) := by
      refine ⟨h.entries, fun n hn => ?_⟩
      rw [mem_singleton.mp hn]
      exact hsrc.2
    have hloop := hstart.loop hb hs₁
    exact ⟨hloop.entries, hloop.queue⟩

/-- **The routing algorithm** enters what all of its passes admit. -/
lemma entered_routingTreeAlg {d : Asn} (hcust : Admits (customerPass g d) Q)
    (hpeer : Admits (peerPass g d) Q) (hprov : Admits (providerPass g d) Q)
    (hrun : routingTreeAlg P g d = some s) : Entered Q s := by
  obtain ⟨s₁, hs₁, hrun⟩ := bind_eq_some_iff.mp hrun
  obtain ⟨s₂, hs₂, hrun⟩ := bind_eq_some_iff.mp hrun
  have h₀ : Entered Q BfsState.initial := ⟨nofun, nofun⟩
  have h₁ : Entered Q s₁ := h₀.executeBfs hcust hs₁
  have h₂ : Entered Q s₂ := h₁.executeBfs hpeer hs₂
  exact h₂.executeBfs hprov hrun

/-- **The routing algorithm** enters edges of the graph with their columns. -/
theorem hops_routingTreeAlg {d : Asn} (hsib : g.SiblingFree) (hone : g.OneRelationship)
    (hrun : routingTreeAlg P g d = some s) : Hops g s := by
  have hadmits {b : BfsArgs} {t : RelationshipType} (hb : IsPass b t) :
      Admits b (IsHopEntry b.graph) :=
    ⟨ne_nil_of_mem hb.mem, fun _ _ => isEntry_encodedNeighbor (ne_nil_of_mem hb.mem),
      fun _ _ => hb.isEntry⟩
  have hcust : IsPass (customerPass g d) customerOf :=
    ⟨hsib, hone, by simp [customerPass], by simp [customerPass]⟩
  have hpeer : IsPass (peerPass g d) peerOf :=
    ⟨hsib, hone, by simp [peerPass], by simp [peerPass]⟩
  have hprov : IsPass (providerPass g d) providerTo :=
    ⟨hsib, hone, by simp [providerPass], by simp [providerPass]⟩
  have hentered : Entered (IsHopEntry g) s :=
    entered_routingTreeAlg (hadmits hcust) (hadmits hpeer) (hadmits hprov) hrun
  exact ⟨hentered.entries, hentered.queue⟩

end Hops

/-! ### The paths -/

section Paths

variable {g : NetworkGraph} {bestNew : Asn → Option (List ℕ)} {src dst n m : Asn} {col e : ℕ}
  {path : List ℕ} {allPaths : List (List ℕ)}

/-- The ASes of a path in which every entry is marked. -/
def markedAses (path : List ℕ) : List Asn := path.map fun e => (unjoin e).1

/-- The second entry is a neighbour of the first one, with the relationship that its mark says. -/
def IsHop (g : NetworkGraph) (e e' : ℕ) : Prop :=
  (unjoin e').2 ≤ providerColumn ∧ (unjoin e).1 ∈ g.neighbors (unjoin e').1 (hopType (unjoin e').2)

/-- A simple valley-free path of the graph from a source to a destination, with at most eight
ASes. -/
structure IsAnnotatedPath (g : NetworkGraph) (src dst : Asn) (path : List ℕ) : Prop where
  head : (markedAses path).head? = some src
  last : (markedAses path).getLast? = some dst
  nodup : (markedAses path).Nodup
  hops : path.IsChain (IsHop g)
  valleyFree : ValleyFree (pathColumns path)
  length_le : path.length ≤ 8

/-- A marked AS number can be read back, also without a relationship. -/
lemma unjoin_join_of_le {m : ℕ} (hm : m < numASNs) (hcol : col ≤ noRel) :
    unjoin (join m col) = (m, col) :=
  unjoin_join_of_lt hm (lt_of_le_of_lt hcol (by decide))

structure Extendable (g : NetworkGraph) (src dst n : Asn) (path : List ℕ) : Prop where
  head : path.head? = some (join src noRel)
  last : ∃ col, col ≤ noRel ∧ path.getLast? = some (join n col)
  nodup : (markedAses path).Nodup
  hops : path.IsChain (IsHop g)
  noValley : path.IsChain fun e e' => breaksValley (unjoin e).2 (unjoin e').2 = false
  marks : ∀ e ∈ path, ∃ m col, m < numASNs ∧ col ≤ noRel ∧ e = join m col
  dst_notMem : dst ∉ markedAses path

/-- Columns after a customer or a peer hop. -/
lemma eq_replicate_of_noValley {prev : ℕ} {cols : List ℕ}
    (hprev : prev = customerColumn ∨ prev = peerColumn) (hcols : ∀ c ∈ cols, c ≤ providerColumn)
    (h : (prev :: cols).IsChain fun c c' => breaksValley c c' = false) :
    cols = replicate cols.length customerColumn := by
  induction cols generalizing prev with
  | nil => rfl
  | cons c cols ih =>
    obtain ⟨hc, hrest⟩ := isChain_cons_cons.mp h
    have hle := hcols c mem_cons_self
    obtain rfl : c = customerColumn := by
      unfold customerColumn peerColumn providerColumn breaksValley at *
      rcases hprev with rfl | rfl <;> interval_cases c <;> first | rfl | exact absurd hc (by decide)
    rw [length_cons, replicate_succ,
      ← ih (.inl rfl) (fun c hc => hcols c (mem_cons_of_mem _ hc)) hrest]

/-- **Hops that may follow each other** are valley-free. -/
lemma valleyFree_of_noValley {prev : ℕ} {cols : List ℕ} (hcols : ∀ c ∈ cols, c ≤ providerColumn)
    (h : (prev :: cols).IsChain fun c c' => breaksValley c c' = false) : ValleyFree cols := by
  induction cols generalizing prev with
  | nil => exact ⟨0, 0, 0, by decide, rfl⟩
  | cons c cols ih =>
    obtain ⟨-, hrest⟩ := isChain_cons_cons.mp h
    have hcols' : ∀ c ∈ cols, c ≤ providerColumn := fun c hc => hcols c (mem_cons_of_mem _ hc)
    have hle := hcols c mem_cons_self
    rcases lt_or_ge c providerColumn with hlt | hge
    · have hc : c = customerColumn ∨ c = peerColumn := by
        unfold customerColumn peerColumn
        unfold providerColumn at hlt
        omega
      have hreplicate := eq_replicate_of_noValley hc hcols' hrest
      rcases hc with rfl | rfl
      · exact ⟨0, 0, cols.length + 1, by decide, by rw [replicate_succ, ← hreplicate]; rfl⟩
      · exact ⟨0, 1, cols.length, le_rfl, by rw [← hreplicate]; rfl⟩
    · obtain rfl : c = providerColumn := le_antisymm hle hge
      obtain ⟨up, across, down, hacross, rfl⟩ := ih hcols' hrest
      exact ⟨up + 1, across, down, hacross, by rw [replicate_succ]; rfl⟩

lemma le_of_mem_hops {first : ℕ} {rest : List ℕ} (h : (first :: rest).IsChain (IsHop g))
    (he : e ∈ rest) : (unjoin e).2 ≤ providerColumn := by
  induction rest generalizing first with
  | nil => cases he
  | cons e' rest ih =>
    obtain ⟨hhop, hrest⟩ := isChain_cons_cons.mp h
    rcases mem_cons.mp he with rfl | he
    · exact hhop.1
    · exact ih hrest he

lemma lastEntry_eq (h : path.getLast? = some e) : lastEntry path = e := by
  rw [lastEntry, getLastD_eq_getLast?, h, getD_some]

/-- An AS that is found on no mark is not on the path. -/
lemma Extendable.notMem (h : Extendable g src dst n path) (hm : onPath path m = false) :
    m ∉ markedAses path := by
  intro hmem
  obtain ⟨e, he, rfl⟩ := List.mem_map.mp hmem
  obtain ⟨m', col, hm', hcol, rfl⟩ := h.marks e he
  rw [unjoin_join_of_le hm' hcol] at hm
  have hfound : onPath path m' = true := by
    rw [onPath, List.any_eq_true]
    refine ⟨_, he, ?_⟩
    unfold noRel at hcol
    unfold providerColumn customerColumn peerColumn noRel
    interval_cases col <;> simp
  rw [hfound] at hm
  cases hm

lemma extendable_start (g : NetworkGraph) (hsrc : src < numASNs) (hne : src ≠ dst) :
    Extendable g src dst src [join src noRel] := by
  refine ⟨rfl, ⟨noRel, le_rfl, rfl⟩, nodup_singleton _, isChain_singleton _,
    isChain_singleton _, ?_, ?_⟩
  · intro e he
    exact ⟨src, noRel, hsrc, le_rfl, mem_singleton.mp he⟩
  · intro hmem
    rw [markedAses, map_singleton, mem_singleton, unjoin_join_of_le hsrc le_rfl] at hmem
    exact hne hmem.symm

/-- What holds of a path with one more entry. -/
lemma Extendable.append (h : Extendable g src dst n path) (hm : m < numASNs)
    (hcol : col ≤ providerColumn) (hn : n < numASNs) (hedge : n ∈ g.neighbors m (hopType col))
    (hnew : m ∉ markedAses path) (hvalley : breaksValley (unjoin (lastEntry path)).2 col = false) :
    (markedAses (path ++ [join m col])).Nodup ∧ (path ++ [join m col]).IsChain (IsHop g) ∧
      (path ++ [join m col]).IsChain (fun e e' => breaksValley (unjoin e).2 (unjoin e').2 = false) ∧
      ∀ e ∈ path ++ [join m col], ∃ m col, m < numASNs ∧ col ≤ noRel ∧ e = join m col := by
  obtain ⟨lastCol, hlastCol, hlast⟩ := h.last
  have hunjoin : unjoin (join m col) = (m, col) := unjoin_join hm hcol
  rw [lastEntry_eq hlast] at hvalley
  refine ⟨?_, ?_, ?_, ?_⟩
  · rw [markedAses, map_append, map_singleton, hunjoin]
    refine nodup_append.mpr ⟨h.nodup, nodup_singleton _, fun a ha b hb hab => hnew ?_⟩
    rw [hab, mem_singleton.mp hb] at ha
    exact ha
  · refine isChain_append.mpr ⟨h.hops, isChain_singleton _, fun e he e' he' => ?_⟩
    obtain rfl := some.inj (hlast.symm.trans he)
    obtain rfl := some.inj he'
    rw [IsHop, hunjoin, unjoin_join_of_le hn hlastCol]
    exact ⟨hcol, hedge⟩
  · refine isChain_append.mpr ⟨h.noValley, isChain_singleton _, fun e he e' he' => ?_⟩
    obtain rfl := some.inj (hlast.symm.trans he)
    obtain rfl := some.inj he'
    rw [hunjoin]
    exact hvalley
  · rw [forall_mem_append]
    refine ⟨h.marks, fun e he => ⟨m, col, hm, ?_, mem_singleton.mp he⟩⟩
    unfold providerColumn at hcol
    unfold noRel
    omega

/-- A path that goes on to another AS. -/
lemma Extendable.extend (h : Extendable g src dst n path) (hentry : IsHopEntry g n e)
    (hne : (unjoin e).1 ≠ dst) (hnew : onPath path (unjoin e).1 = false)
    (hvalley : breaksValley (unjoin (lastEntry path)).2 (unjoin e).2 = false) :
    Extendable g src dst (unjoin e).1 (path ++ [e]) := by
  obtain ⟨m, col, hm, hcol, rfl, hn, hedge⟩ := hentry
  rw [unjoin_join hm hcol] at hne hnew hvalley ⊢
  have hnotMem := h.notMem hnew
  obtain ⟨hnodup, hhops, hno, hmarks⟩ := h.append hm hcol hn hedge hnotMem hvalley
  refine ⟨?_, ⟨col, ?_, getLast?_concat⟩, hnodup, hhops, hno, hmarks, ?_⟩
  · rw [head?_append, h.head]
    rfl
  · unfold providerColumn at hcol
    unfold noRel
    omega
  · rw [markedAses, map_append, map_singleton, unjoin_join hm hcol, mem_append, not_or,
      mem_singleton]
    exact ⟨h.dst_notMem, Ne.symm hne⟩

/-- **A path that meets the destination** is complete. -/
lemma Extendable.complete (h : Extendable g src dst n path) (hsrc : src < numASNs)
    (hentry : IsHopEntry g n e) (hdst : (unjoin e).1 = dst) (hlen : path.length ≤ 7)
    (hvalley : breaksValley (unjoin (lastEntry path)).2 (unjoin e).2 = false) :
    IsAnnotatedPath g src dst (path ++ [e]) := by
  obtain ⟨m, col, hm, hcol, rfl, hn, hedge⟩ := hentry
  rw [unjoin_join hm hcol] at hdst hvalley
  dsimp only at hdst hvalley
  subst hdst
  obtain ⟨hnodup, hhops, hno, -⟩ := h.append hm hcol hn hedge h.dst_notMem hvalley
  obtain ⟨first, rest, rfl⟩ := exists_cons_of_ne_nil (l := path) (by
    rintro rfl
    cases h.head)
  obtain rfl := some.inj h.head
  refine ⟨?_, ?_, hnodup, hhops, ?_, ?_⟩
  · rw [markedAses, cons_append, map_cons, head?_cons, unjoin_join_of_le hsrc le_rfl]
  · rw [markedAses, map_append, map_singleton, getLast?_concat, unjoin_join hm hcol]
  · rw [pathColumns, cons_append, tail_cons]
    rw [cons_append] at hno hhops
    have hcols : ∀ c ∈ (rest ++ [join m col]).map (fun j => (unjoin j).2), c ≤ providerColumn := by
      rintro c hc
      obtain ⟨e, he, rfl⟩ := List.mem_map.mp hc
      exact le_of_mem_hops hhops he
    have hchain : ((join src noRel :: (rest ++ [join m col])).map fun j => (unjoin j).2).IsChain
        fun c c' =>
        breaksValley c c' = false :=
      isChain_map_of_isChain (fun j => (unjoin j).2) (fun _ _ h => h) hno
    rw [map_cons] at hchain
    exact valleyFree_of_noValley hcols hchain
  · rw [length_append, length_singleton]
    omega

/-- **The search** finds only complete paths: the path of the loop can be extended, or it is
complete. -/
theorem extendPaths_isPath (hsound : ∀ n, n ≠ dst → ∀ e ∈ (bestNew n).getD [], IsHopEntry g n e)
    (hsrc : src < numASNs) {showStopper : Bool} {entries : List ℕ}
    (hentries : ∀ e ∈ entries, IsHopEntry g n e) (hn : n ≠ dst)
    (hopen : showStopper = false → Extendable g src dst n path ∧ path.length ≤ 7)
    (hclosed : showStopper = true → IsAnnotatedPath g src dst path)
    (hall : ∀ p ∈ allPaths, IsAnnotatedPath g src dst p) :
    ∀ p ∈ extendPaths bestNew dst path showStopper entries allPaths,
    IsAnnotatedPath g src dst p := by
  have happend {p : List ℕ} {ps : List (List ℕ)} (hps : ∀ q ∈ ps, IsAnnotatedPath g src dst q)
      (hp : IsAnnotatedPath g src dst p) : ∀ q ∈ ps ++ [p], IsAnnotatedPath g src dst q :=
    forall_mem_append.mpr ⟨hps, fun q hq => mem_singleton.mp hq ▸ hp⟩
  induction path, showStopper, entries, allPaths using extendPaths.induct bestNew dst
      generalizing n with
  | case1 path showStopper allPaths =>
    rw [extendPaths]
    exact hall
  | case2 path showStopper allPaths asnode entries rel lastNum prevRel hlast hbreaks hasnode hne =>
    -- the hop to the destination is not allowed
    rw [extendPaths, hasnode, hlast]
    dsimp only
    rw [if_pos rfl, if_pos hne, if_pos hbreaks]
    exact hall
  | case3 path showStopper allPaths asnode entries rel lastNum prevRel hlast hbreaks hasnode
      hne ih =>
    -- the path meets the destination
    have hstop : showStopper = false := by
      cases showStopper with
      | false => rfl
      | true =>
        obtain ⟨e, he, hunjoin⟩ := map_eq_some_iff.mp (getLast?_map ▸ (hclosed rfl).last)
        rw [lastEntry_eq he] at hlast
        rw [hlast] at hunjoin
        exact absurd hunjoin hne
    obtain ⟨hext, hlen⟩ := hopen hstop
    have hpath : IsAnnotatedPath g src dst (path ++ [asnode]) := by
      apply hext.complete hsrc (hentries asnode mem_cons_self) (by rw [hasnode]) hlen
      rw [hasnode, hlast]
      exact Bool.not_eq_true _ ▸ hbreaks
    rw [extendPaths, hasnode, hlast]
    dsimp only
    rw [if_pos rfl, if_pos hne, if_neg hbreaks]
    exact ih (fun e he => hentries e (mem_cons_of_mem _ he)) hn nofun (fun _ => hpath)
      (happend hall hpath)
  | case4 path showStopper allPaths asnode entries rel lastNum prevRel hlast hasnode heq ih =>
    -- the path ends at the destination already
    have hstop : showStopper = true := by
      cases showStopper with
      | true => rfl
      | false =>
        obtain ⟨⟨-, ⟨col, -, hlast'⟩, -, -, -, -, hnot⟩, -⟩ := hopen rfl
        rw [lastEntry_eq hlast'] at hlast
        refine absurd (List.mem_map.mpr ⟨_, mem_of_getLast? hlast', ?_⟩) hnot
        rw [hlast]
        exact not_not.mp heq
    rw [extendPaths, hasnode, hlast]
    dsimp only
    rw [if_pos rfl, if_neg heq]
    exact ih (fun e he => hentries e (mem_cons_of_mem _ he)) hn nofun (fun _ => hclosed hstop)
      (happend hall (hclosed hstop))
  | case5 path showStopper allPaths asnode entries destNum rel hasnode lastNum prevRel hlast hdst
      hroom hbreaks ih =>
    rw [extendPaths, hasnode, hlast]
    dsimp only
    rw [if_neg hdst, if_pos hroom, if_pos hbreaks]
    exact ih (fun e he => hentries e (mem_cons_of_mem _ he)) hn hopen hclosed hall
  | case6 path showStopper allPaths asnode entries destNum rel hasnode lastNum prevRel hlast hdst
      hroom hbreaks ih₁ ih₂ =>
    -- the search goes on from the neighbour, and then with the other entries
    obtain ⟨hext, -⟩ := hopen hroom.2.2
    have hnext : Extendable g src dst destNum (path ++ [asnode]) := by
      have := hext.extend (hentries asnode mem_cons_self) (by rwa [hasnode])
        (by rw [hasnode]; exact hroom.2.1)
        (by rw [hasnode, hlast]; exact Bool.not_eq_true _ ▸ hbreaks)
      rwa [hasnode] at this
    rw [extendPaths, hasnode, hlast]
    dsimp only
    rw [if_neg hdst, if_pos hroom, if_neg hbreaks]
    refine ih₂ (fun e he => hentries e (mem_cons_of_mem _ he)) hn hopen hclosed ?_
    refine ih₁ (hsound destNum hdst) hdst (fun _ => ⟨hnext, ?_⟩) nofun hall
    rw [length_append, length_singleton]
    omega
  | case7 path showStopper allPaths asnode entries destNum rel hasnode lastNum prevRel hlast hdst
      hroom ih =>
    rw [extendPaths, hasnode, hlast]
    dsimp only
    rw [if_neg hdst, if_neg hroom]
    exact ih (fun e he => hentries e (mem_cons_of_mem _ he)) hn hopen hclosed hall

end Paths

/-- **All paths that are found** are simple valley-free paths of the graph from the source to the
destination, with at most eight ASes, whatever stands in the list of the destination. -/
theorem getAllPaths_isPath {P : Params} {g : NetworkGraph} {d src : Asn} {s : BfsState}
    (hsib : g.SiblingFree) (hone : g.OneRelationship) (hrun : routingTreeAlg P g d = some s)
    (hne : src ≠ d) (own : Option (List ℕ)) :
    ∀ path ∈ (getAllPaths (update s.bestNew d own) d src d [] [join src noRel]).2,
      IsAnnotatedPath g src d path := by
  have hhops := hops_routingTreeAlg hsib hone hrun
  have hsound : ∀ n, n ≠ d → ∀ e ∈ (update s.bestNew d own n).getD [], IsHopEntry g n e := by
    intro n hn e he
    rw [update_of_ne hn] at he
    exact hhops.entries n e he
  rw [getAllPaths, if_neg fun h => h rfl]
  dsimp only
  cases hentries : (update s.bestNew d own src).getD [] with
  | nil =>
    rw [extendPaths]
    exact nofun
  | cons e entries =>
    -- a node with an entry fits the tables
    obtain ⟨-, -, -, -, -, hsrc, -⟩ := hsound src hne e (by rw [hentries]; exact mem_cons_self)
    rw [← hentries]
    exact extendPaths_isPath hsound hsrc (hsound src hne) hne
      (fun _ => ⟨extendable_start g hsrc hne, by rw [length_singleton]; decide⟩) nofun nofun

/-- The paths over the two providers of a customer. -/
theorem getAllPaths_isPath_four : ∃ s, routingTreeAlg {} fourNodes 1 = some s ∧
    (s.bestNew 3).map length = some 2 ∧
    ∀ path ∈ (getAllPaths (update s.bestNew 1 (some [1])) 1 3 1 [] [join 3 noRel]).2,
      IsAnnotatedPath fourNodes 3 1 path := by
  have hrun : ((routingTreeAlg {} fourNodes 1).map fun s => (s.bestNew 3).map length) =
      some (some 2) := by
    decide +kernel
  obtain ⟨s, hs, hentries⟩ := map_eq_some_iff.mp hrun
  have hcyclops : fourNodes.Cyclops := cyclops_processCyclopsFile _
  exact ⟨s, hs, hentries, getAllPaths_isPath hcyclops.siblingFree
    (NetworkGraph.oneRelationship_of_offered hcyclops (by decide +kernel)) hs (by decide)
    (some [1])⟩

end Astoria
