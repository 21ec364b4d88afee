import Astoria.BgpSim.MiniDestination
import Astoria.Library.Layered

/-!
# Secure path selection

A `Destination` adds to the routing tables what depends on the deployment of security: the chosen
parents and paths, and whether a node has a secure path.  `updatePaths` recomputes them in place,
row by row, for a deployment vector `S`.  A node in `S` prefers parents with a secure path; among
equals the tie-break decides.

The recomputation is a sweep of a layered graph.  So it solves the local equations of all nodes
(`updatePaths_eq_some_iff`), and what it leaves does not depend on earlier recomputations
(`updatePaths_congr`).
-/

namespace Astoria

open List
open Option hiding or_self
open Function

/-- The routing tables of a destination with the chosen paths. -/
structure Destination extends RouteTables where
  /-- Whether a node has chosen a secure path. -/
  secP : Asn → Bool
  chosenParent : Asn → Asn
  chosenPath : Asn → Option (List ℕ)
  /-- The utility of a node. -/
  U : Asn → ℤ

/-- The destination rebuilt from its tables. -/
def Destination.ofMiniDestination (m : MiniDestination) : Destination where
  toRouteTables := m.toRouteTables
  secP _ := false
  chosenParent := update (fun _ => 0) m.destination m.destination
  chosenPath := update (fun _ => none) m.destination (some [m.destination])
  U _ := 0

/-- The nodes of the bucket table from a row on, row by row and column by column, with their rows
and columns. -/
def RouteTables.bucketNodes (T : RouteTables) (firstRow : ℕ) : List (ℕ × ℕ × Asn) :=
  (range' firstRow (maxPathLen - firstRow)).flatMap fun row =>
    (range numRelationshipTypes).flatMap fun col =>
      ((T.bucketTable row col).getD []).map fun i => (row, col, i)

/-- The parents among which a node chooses: if it is secure and some parents have secure paths, only
these, and otherwise all. -/
def tieBreakSet (secure : Bool) (secP : Asn → Bool) (parents : List Asn) : List Asn :=
  if secure then if parents.filter secP = [] then parents else parents.filter secP else parents

/-- Choose the parent and the path of a node anew.  Without a parent below the largest key, the
tie-break returns a number for which the arrays have no entry. -/
def updateNode (P : Params) (S : Asn → Bool) (D : Destination) (col : ℕ) (i : Asn) :
    Option Destination :=
  match D.best i with
  | none => none
  | some parents =>
    let newParent := tieBreak P (tieBreakSet (S i) D.secP parents) i
    if numASNs ≤ newParent then none
    else some { D with
      chosenPath :=
        update D.chosenPath i (some (updatePath i (D.chosenPath newParent) col))
      chosenParent := update D.chosenParent i newParent
      secP := update D.secP i (D.secP newParent && S i) }

/-- The secure paths of the destinations, which are in the first row. -/
def updateDestinations (S : Asn → Bool) (D : Destination) : Option Destination :=
  (D.bucketTable 0 customerColumn).map fun destinations =>
    { D with secP := destinations.foldl (fun secP n => update secP n (S n)) D.secP }

/-- Recompute the chosen paths for the deployment vector `S`. -/
def updatePaths (P : Params) (S : Asn → Bool) (D : Destination) : Option Destination :=
  (updateDestinations S D).bind fun D =>
    (D.bucketNodes 1).foldlM (fun D e => updateNode P S D e.2.1 e.2.2) D

/-! ### The tie-break -/

section TieBreak

variable {P : Params} {n p : Asn} {ps : List Asn}

lemma hash6432shift_le (u v : Asn) : hash6432shift u v ≤ uint32Max :=
  Nat.le_sub_one_of_lt (UInt32.toNat_lt _)

lemma tieBreakKey_le_of_lt (hp : p < numASNs) : tieBreakKey P n p ≤ uint32Max := by
  unfold tieBreakKey
  split_ifs
  · exact hash6432shift_le n p
  · have hmax : numASNs ≤ uint32Max := by decide
    exact le_of_lt (lt_of_lt_of_le hp hmax)

lemma foldl_tieBreak_of_le {acc : ℕ × Asn} (h : ∀ q ∈ ps, acc.1 ≤ tieBreakKey P n q) :
    ps.foldl (fun (acc : ℕ × Asn) i =>
      if tieBreakKey P n i < acc.1 then (tieBreakKey P n i, i) else acc) acc = acc := by
  induction ps generalizing acc with
  | nil => rfl
  | cons q ps ih =>
    rw [foldl_cons, if_neg (not_lt.mpr (h q (by simp)))]
    exact ih fun r hr => h r (mem_cons_of_mem _ hr)

lemma tieBreak_sorted
    (hsorted : (p :: ps).Pairwise fun a b => tieBreakKey P n a < tieBreakKey P n b)
    (hp : tieBreakKey P n p < uint32Max) : tieBreak P (p :: ps) n = p := by
  rw [pairwise_cons] at hsorted
  rw [tieBreak, foldl_cons, if_pos hp,
    foldl_tieBreak_of_le fun q hq => le_of_lt (hsorted.1 q hq)]

lemma tieBreak_eq_max (h : ∀ q ∈ ps, uint32Max ≤ tieBreakKey P n q) :
    tieBreak P ps n = uint32Max := by
  rw [tieBreak, foldl_tieBreak_of_le h]

end TieBreak

/-! ### The order of the recomputation -/

section Order

variable {P : Params} {g : NetworkGraph} {T : RouteTables} {firstRow : ℕ}

/-- The members of best sets, as a layered graph. -/
lemma ValidTables.graded (hv : ValidTables P g T) :
    Layered.Graded T.bestSet T.destination (fun n => T.best n ≠ none) T.L where
  on_root := by simp [hv.best_root]
  depth_root := hv.L_root
  parents_ne_nil n hn _ := by
    obtain ⟨ps, hps⟩ := ne_none_iff_exists'.mp hn
    intro hc
    rw [RouteTables.bestSet, hps, getD_some] at hc
    exact hv.best_ne_nil n (hc ▸ hps)
  parent n _ hne p hp := hv.parent n hne p hp

/-- A node of the bucket table is found in the row of its length and in its column. -/
lemma ValidTables.mem_bucketNodes (hv : ValidTables P g T) (hrow : 1 ≤ firstRow)
    {e : ℕ × ℕ × Asn} : e ∈ T.bucketNodes firstRow ↔
      e.2.2 ≠ T.destination ∧ T.best e.2.2 ≠ none ∧ firstRow ≤ T.L e.2.2 ∧
        e.1 = T.L e.2.2 ∧ e.2.1 = T.bestRelation e.2.2 := by
  obtain ⟨row, col, i⟩ := e
  simp only [RouteTables.bucketNodes, mem_flatMap, mem_range', mem_range,
    List.mem_map, Prod.mk.injEq, hv.mem_bucket]
  constructor
  · rintro ⟨row', ⟨k, hk, rfl⟩, col', hcol', i', hi', rfl, rfl, rfl⟩
    rcases hi' with ⟨-, h0, -⟩ | ⟨hne, hb, hL, hrel⟩
    · omega
    · exact ⟨hne, hb, by omega, hL.symm, hrel.symm⟩
  · rintro ⟨hne, hb, hle, rfl, rfl⟩
    obtain ⟨-, hlt, hcol⟩ := hv.lt i hb
    refine ⟨T.L i, ⟨T.L i - firstRow, by omega, by omega⟩, T.bestRelation i, ?_, i,
      .inr ⟨hne, hb, rfl, rfl⟩, rfl, rfl, rfl⟩
    unfold providerColumn at hcol
    unfold numRelationshipTypes
    omega

/-- The nodes of the bucket table in the order of the recomputation. -/
def RouteTables.order (T : RouteTables) (firstRow : ℕ) : List Asn :=
  (T.bucketNodes firstRow).map fun e => e.2.2

lemma ValidTables.mem_order (hv : ValidTables P g T) (hrow : 1 ≤ firstRow) {n : Asn} :
    n ∈ T.order firstRow ↔ n ≠ T.destination ∧ T.best n ≠ none ∧ firstRow ≤ T.L n := by
  simp only [RouteTables.order, List.mem_map, hv.mem_bucketNodes hrow]
  constructor
  · rintro ⟨e, ⟨h₁, h₂, h₃, -⟩, rfl⟩
    exact ⟨h₁, h₂, h₃⟩
  · rintro ⟨h₁, h₂, h₃⟩
    exact ⟨(T.L n, T.bestRelation n, n), ⟨h₁, h₂, h₃, rfl, rfl⟩, rfl⟩

/-- The recomputation meets every node once, by increasing length. -/
lemma ValidTables.order_pairwise (hv : ValidTables P g T) (hrow : 1 ≤ firstRow) :
    (T.order firstRow).Nodup ∧ (T.order firstRow).Pairwise fun a b => T.L a ≤ T.L b := by
  have hmem := fun e => (hv.mem_bucketNodes hrow (e := e)).1
  -- entries in different cells differ in their row or column
  have hnodes : (T.bucketNodes firstRow).Pairwise fun a b => a.2.2 ≠ b.2.2 ∧ a.1 ≤ b.1 := by
    unfold RouteTables.bucketNodes
    rw [pairwise_flatMap]
    refine ⟨fun row hr => pairwise_flatMap.mpr ⟨fun col hc => ?_, ?_⟩, ?_⟩
    · rw [pairwise_map]
      exact (hv.bucket_nodup row col).imp fun hab => ⟨hab, le_refl _⟩
    · refine (nodup_range (n := numRelationshipTypes)).imp_of_mem ?_
      rintro c c' - - hcc a ha b hb
      simp only [List.mem_map, hv.mem_bucket] at ha hb
      obtain ⟨i, hi, rfl⟩ := ha
      obtain ⟨j, hj, rfl⟩ := hb
      have hr1 : 1 ≤ row := by
        rw [mem_range'] at hr
        omega
      refine ⟨fun hij => hcc ?_, le_refl _⟩
      dsimp only at hij
      subst hij
      rcases hi with ⟨-, h0, -⟩ | ⟨-, -, -, hi⟩
      · omega
      · rcases hj with ⟨-, h0, -⟩ | ⟨-, -, -, hj⟩
        · omega
        · exact hi.symm.trans hj
    · refine (pairwise_lt_range' (s := firstRow) (n := maxPathLen - firstRow)).imp_of_mem ?_
      intro r r' hr hr' hlt a ha b hb
      rw [mem_range'] at hr hr'
      simp only [mem_flatMap, List.mem_map, hv.mem_bucket] at ha hb
      obtain ⟨c, -, i, hi, rfl⟩ := ha
      obtain ⟨c', -, j, hj, rfl⟩ := hb
      refine ⟨fun hij => ?_, le_of_lt hlt⟩
      dsimp only at hij
      subst hij
      rcases hi with ⟨-, h0, -⟩ | ⟨-, -, hi, -⟩
      · omega
      · rcases hj with ⟨-, h0, -⟩ | ⟨-, -, hj, -⟩
        · omega
        · omega
  have hall := hnodes.imp_of_mem (S := fun a b => a.2.2 ≠ b.2.2 ∧ T.L a.2.2 ≤ T.L b.2.2)
    fun ha hb hab => ⟨hab.1, by
      rw [← (hmem _ ha).2.2.2.1, ← (hmem _ hb).2.2.2.1]
      exact hab.2⟩
  constructor
  · rw [RouteTables.order, Nodup, pairwise_map]
    exact hall.imp fun h => h.1
  · rw [RouteTables.order, pairwise_map]
    exact hall.imp fun h => h.2

lemma ValidTables.ordered (hv : ValidTables P g T) (hrow : 1 ≤ firstRow) :
    Layered.Ordered T.bestSet (T.order firstRow) := by
  obtain ⟨hnd, hpair⟩ := hv.order_pairwise hrow
  refine ⟨hnd, fun n hn hc => ?_, hpair.imp_of_mem fun {a b} ha _ hab hc => ?_⟩
  · have := (hv.parent n ((hv.mem_order hrow).1 hn).1 n hc).2
    omega
  · have := (hv.parent a ((hv.mem_order hrow).1 ha).1 b hc).2
    omega

end Order

/-! ### The recomputation as a sweep -/

structure NodeRoute where
  /-- Whether the path is secure. -/
  secP : Bool
  parent : Asn
  path : Option (List ℕ)

/-- What a destination has chosen for a node. -/
def Destination.route (D : Destination) (n : Asn) : NodeRoute :=
  ⟨D.secP n, D.chosenParent n, D.chosenPath n⟩

def Destination.withRoutes (D : Destination) (t : Asn → NodeRoute) : Destination :=
  { D with
    secP := fun n => (t n).secP
    chosenParent := fun n => (t n).parent
    chosenPath := fun n => (t n).path }

/-- The parent that a node chooses, given what the others have chosen. -/
def newParent (T : RouteTables) (P : Params) (S : Asn → Bool) (t : Asn → NodeRoute) (i : Asn) :
    Asn :=
  tieBreak P (tieBreakSet (S i) (fun p => (t p).secP) (T.bestSet i)) i

/-- The choice of a node, given what the others have chosen. -/
def updateRoute (T : RouteTables) (P : Params) (S : Asn → Bool) (t : Asn → NodeRoute) (i : Asn) :
    Option NodeRoute :=
  if T.best i = none ∨ numASNs ≤ newParent T P S t i then none
  else some
    ⟨(t (newParent T P S t i)).secP && S i, newParent T P S t i,
      some (updatePath i (t (newParent T P S t i)).path (T.bestRelation i))⟩

section Sweep

variable {P : Params} {g : NetworkGraph} {T : RouteTables} {S : Asn → Bool}

lemma tieBreakSet_sublist (secure : Bool) (secP : Asn → Bool) (parents : List Asn) :
    (tieBreakSet secure secP parents).Sublist parents := by
  unfold tieBreakSet
  split_ifs
  · exact Sublist.refl _
  · exact filter_sublist
  · exact Sublist.refl _

lemma tieBreakSet_ne_nil {secure : Bool} {secP : Asn → Bool} {parents : List Asn}
    (h : parents ≠ []) : tieBreakSet secure secP parents ≠ [] := by
  unfold tieBreakSet
  split_ifs with h₁ h₂
  · exact h
  · exact h₂
  · exact h

lemma tieBreakSet_congr {secure : Bool} {secP secP' : Asn → Bool} {parents : List Asn}
    (h : ∀ p ∈ parents, secP p = secP' p) :
    tieBreakSet secure secP parents = tieBreakSet secure secP' parents := by
  have hf : parents.filter secP = parents.filter secP' := filter_congr h
  simp only [tieBreakSet, hf]

/-- In valid tables, the first member of the tie-break set is chosen, or nobody. -/
lemma ValidTables.newParent_eq (hv : ValidTables P g T) {t : Asn → NodeRoute} {i : Asn}
    (hi : T.best i ≠ none) :
    ∃ p rest, tieBreakSet (S i) (fun p => (t p).secP) (T.bestSet i) = p :: rest ∧ p ∈ T.bestSet i ∧
      ((tieBreakKey P i p < uint32Max ∧ newParent T P S t i = p) ∨
        (uint32Max ≤ tieBreakKey P i p ∧ newParent T P S t i = uint32Max)) := by
  have hne : T.bestSet i ≠ [] := by
    obtain ⟨ps, hps⟩ := ne_none_iff_exists'.mp hi
    intro hc
    rw [RouteTables.bestSet, hps, getD_some] at hc
    exact hv.best_ne_nil i (hc ▸ hps)
  have hsub := tieBreakSet_sublist (S i) (fun p => (t p).secP) (T.bestSet i)
  have hsorted := (hv.sorted i).sublist hsub
  unfold newParent
  cases hset : tieBreakSet (S i) (fun p => (t p).secP) (T.bestSet i) with
  | nil => exact absurd hset (tieBreakSet_ne_nil hne)
  | cons p rest =>
    rw [hset] at hsub hsorted
    refine ⟨p, rest, rfl, hsub.subset (by simp), ?_⟩
    by_cases hp : tieBreakKey P i p < uint32Max
    · exact .inl ⟨hp, tieBreak_sorted hsorted hp⟩
    · refine .inr ⟨not_lt.mp hp, tieBreak_eq_max fun q hq => ?_⟩
      rcases mem_cons.mp hq with rfl | hq
      · exact not_lt.mp hp
      · have := (pairwise_cons.mp hsorted).1 q hq
        omega

/-- The choice of a node depends on the choices of its parents only. -/
lemma ValidTables.local_updateRoute (hv : ValidTables P g T) :
    Layered.Local T.bestSet (updateRoute T P S) := by
  intro t t' i h
  by_cases hi : T.best i = none
  · simp [updateRoute, hi]
  · have hset : tieBreakSet (S i) (fun p => (t p).secP) (T.bestSet i) =
        tieBreakSet (S i) (fun p => (t' p).secP) (T.bestSet i) :=
      tieBreakSet_congr fun p hp => by rw [h p hp]
    have hparent : newParent T P S t i = newParent T P S t' i := by
      rw [newParent, newParent, hset]
    obtain ⟨p, rest, -, hp, ⟨-, hnew⟩ | ⟨-, hnew⟩⟩ := hv.newParent_eq (S := S) (t := t) hi
    · have hroute : t (newParent T P S t i) = t' (newParent T P S t i) := by
        rw [hnew]
        exact h p hp
      simp only [updateRoute, ← hparent, hroute]
    · have hmax : numASNs ≤ uint32Max := by decide
      simp [updateRoute, ← hparent, hnew, hmax]

/-- Choosing anew for one node changes its entry only. -/
lemma updateNode_eq (D : Destination) (i : Asn) :
    updateNode P S D (D.bestRelation i) i =
      (updateRoute D.toRouteTables P S D.route i).map fun a =>
        D.withRoutes (update D.route i a) := by
  have hfield : ∀ {β : Type} (f : NodeRoute → β) (a : NodeRoute),
      (fun n => f (update D.route i a n)) =
        update (fun n => f (D.route n)) i (f a) := by
    intro β f a
    funext n
    by_cases hn : n = i
    · simp [hn]
    · simp [hn]
  unfold updateNode updateRoute
  cases hb : D.best i with
  | none => simp
  | some parents =>
    have hset : newParent D.toRouteTables P S D.route i =
        tieBreak P (tieBreakSet (S i) D.secP parents) i := by
      simp [newParent, RouteTables.bestSet, hb, Destination.route]
    simp only [reduceCtorEq, false_or, hset]
    split_ifs
    · rfl
    · simp only [map_some, Destination.withRoutes, Option.some.injEq]
      rw [hfield NodeRoute.secP, hfield NodeRoute.parent, hfield NodeRoute.path]
      rfl

/-- Choosing anew for a list of nodes is a sweep. -/
lemma foldlM_updateNode_eq (l : List (ℕ × ℕ × Asn)) (D : Destination)
    (hl : ∀ e ∈ l, e.2.1 = D.bestRelation e.2.2) :
    l.foldlM (fun D e => updateNode P S D e.2.1 e.2.2) D =
      (Layered.sweep (updateRoute D.toRouteTables P S) (l.map fun e => e.2.2) D.route).map
        D.withRoutes := by
  induction l generalizing D with
  | nil => rfl
  | cons e l ih =>
    rw [foldlM_cons, hl e (by simp), updateNode_eq]
    simp only [Layered.sweep, map_cons, foldlM_cons]
    cases hu : updateRoute D.toRouteTables P S D.route e.2.2 with
    | none => rfl
    | some a =>
      exact ih (D.withRoutes (update D.route e.2.2 a))
        fun e' he' => hl e' (mem_cons_of_mem _ he')

/-- The choices after the destinations have been treated: only the destination itself changes. -/
def startRoutes (T : RouteTables) (S : Asn → Bool) (t : Asn → NodeRoute) : Asn → NodeRoute :=
  update t T.destination { t T.destination with secP := S T.destination }

/-- The first row holds the destination only. -/
lemma ValidTables.bucket_root (hv : ValidTables P g T) :
    T.bucketTable 0 customerColumn = some [T.destination] := by
  have hnd := hv.bucket_nodup 0 customerColumn
  have hiff : ∀ n, n ∈ (T.bucketTable 0 customerColumn).getD [] ↔ n = T.destination := by
    intro n
    rw [hv.mem_bucket 0 customerColumn]
    constructor
    · rintro (⟨h, -⟩ | ⟨hne, hb, h0, -⟩)
      · exact h
      · exact absurd (hv.graded.eq_root hb h0) hne
    · exact fun h => .inl ⟨h, rfl, rfl⟩
  cases hc : T.bucketTable 0 customerColumn with
  | none => simpa [hc] using hiff T.destination
  | some l =>
    simp only [hc, getD_some] at hiff hnd
    have hperm : l.Perm [T.destination] :=
      (perm_ext_iff_of_nodup hnd (nodup_singleton _)).mpr fun n => by simp [hiff]
    rw [perm_singleton.mp hperm]

lemma ValidTables.updateDestinations_eq {D : Destination} (hv : ValidTables P g D.toRouteTables) :
    updateDestinations S D = some (D.withRoutes (startRoutes D.toRouteTables S D.route)) := by
  rw [updateDestinations, hv.bucket_root]
  simp only [map_some, foldl_cons, foldl_nil, Option.some.injEq]
  have hfield : ∀ {β : Type} (f : NodeRoute → β),
      (fun n => f (startRoutes D.toRouteTables S D.route n)) =
        update (fun n => f (D.route n)) D.destination
          (f { D.route D.destination with secP := S D.destination }) := by
    intro β f
    funext n
    by_cases hn : n = D.destination
    · simp [startRoutes, hn]
    · simp [startRoutes, hn]
  unfold Destination.withRoutes
  rw [hfield NodeRoute.secP, hfield NodeRoute.parent, hfield NodeRoute.path]
  simp [Destination.route]

lemma ValidTables.updatePaths_eq_sweep {D : Destination} (hv : ValidTables P g D.toRouteTables) :
    updatePaths P S D =
      (Layered.sweep (updateRoute D.toRouteTables P S) (D.order 1)
        (startRoutes D.toRouteTables S D.route)).map D.withRoutes := by
  rw [updatePaths, hv.updateDestinations_eq, bind_some, foldlM_updateNode_eq]
  · rfl
  · intro e he
    exact ((hv.mem_bucketNodes (le_refl 1)).1 he).2.2.2.2

/-- The equation of a node: the first member of its tie-break set is the parent. -/
lemma ValidTables.updateRoute_eq_some (hv : ValidTables P g T) {t : Asn → NodeRoute} {i : Asn}
    {a : NodeRoute} (hi : T.best i ≠ none) : updateRoute T P S t i = some a ↔
      ∃ p rest, tieBreakSet (S i) (fun p => (t p).secP) (T.bestSet i) = p :: rest ∧
        p ∈ T.bestSet i ∧ p < numASNs ∧ tieBreakKey P i p < uint32Max ∧
        a = ⟨(t p).secP && S i, p, some (updatePath i (t p).path (T.bestRelation i))⟩ := by
  obtain ⟨p, rest, hset, hp, hcase⟩ := hv.newParent_eq (S := S) (t := t) hi
  have hlt : p < numASNs := by
    by_cases hr : i = T.destination
    · rw [hr, RouteTables.bestSet, hv.best_root, getD_some, mem_singleton] at hp
      exact hp ▸ (hv.lt T.destination (by simp [hv.best_root])).1
    · exact (hv.lt p (hv.parent i hr p hp).1).1
  have hmax : numASNs ≤ uint32Max := by decide
  rcases hcase with ⟨hkey, hnew⟩ | ⟨hkey, hnew⟩
  · simp only [updateRoute, hi, hnew, not_le.mpr hlt, or_self, if_false, Option.some.injEq]
    constructor
    · rintro rfl
      exact ⟨p, rest, hset, hp, hlt, hkey, rfl⟩
    · rintro ⟨q, rest', hset', -, -, -, rfl⟩
      obtain ⟨rfl, -⟩ := List.cons.inj (hset.symm.trans hset')
      rfl
  · simp only [updateRoute, hi, hnew, hmax, or_true, if_true, reduceCtorEq, false_iff]
    rintro ⟨q, rest', hset', -, -, hkey', -⟩
    obtain ⟨rfl, -⟩ := List.cons.inj (hset.symm.trans hset')
    omega

/-- The choices for the deployment vector `S`: the destination is secure if it takes part, and every
other node with a route satisfies its equation. -/
structure Chosen (P : Params) (S : Asn → Bool) (D : Destination) : Prop where
  secP_root : D.secP D.destination = S D.destination
  step : ∀ i, D.best i ≠ none → i ≠ D.destination →
    updateRoute D.toRouteTables P S D.route i = some (D.route i)

/-- Two destinations that agree but for what a recomputation overwrites. -/
structure SameFrame (D D' : Destination) : Prop where
  tables : D'.toRouteTables = D.toRouteTables
  utility : D'.U = D.U
  root : D'.chosenParent D.destination = D.chosenParent D.destination ∧
    D'.chosenPath D.destination = D.chosenPath D.destination
  none : ∀ n, D.best n = none → D'.route n = D.route n

/-- A destination is its tables, its choices and its utilities. -/
lemma Destination.ext_route {D D' : Destination} (ht : D.toRouteTables = D'.toRouteTables)
    (hr : D.route = D'.route) (hu : D.U = D'.U) : D = D' := by
  obtain ⟨T, secP, parent, path, U⟩ := D
  obtain ⟨T', secP', parent', path', U'⟩ := D'
  have h₁ : secP = secP' := funext fun n => congrArg NodeRoute.secP (congrFun hr n)
  have h₂ : parent = parent' := funext fun n => congrArg NodeRoute.parent (congrFun hr n)
  have h₃ : path = path' := funext fun n => congrArg NodeRoute.path (congrFun hr n)
  simp only at ht hu
  subst ht hu h₁ h₂ h₃
  rfl

/-- **Recomputation.**  A recomputation leaves the choices for the given deployment vector, and
nothing else is changed. -/
theorem ValidTables.updatePaths_eq_some_iff {D D' : Destination}
    (hv : ValidTables P g D.toRouteTables) :
    updatePaths P S D = some D' ↔ Chosen P S D' ∧ SameFrame D D' := by
  rw [hv.updatePaths_eq_sweep, map_eq_some_iff]
  simp only [Layered.sweep_eq_some_iff hv.local_updateRoute (hv.ordered (le_refl 1))]
  have hmem : ∀ n, n ∈ D.order 1 ↔ n ≠ D.destination ∧ D.best n ≠ none := by
    intro n
    rw [hv.mem_order (le_refl 1)]
    refine ⟨fun h => ⟨h.1, h.2.1⟩, fun h => ⟨h.1, h.2, ?_⟩⟩
    exact Nat.one_le_iff_ne_zero.mpr fun h0 => h.1 (hv.graded.eq_root h.2 h0)
  constructor
  · rintro ⟨t, ⟨hstep, hframe⟩, rfl⟩
    have hroot : t D.destination = { D.route D.destination with secP := S D.destination } := by
      rw [hframe _ fun h => ((hmem _).1 h).1 rfl, startRoutes, update_self]
    refine ⟨⟨congrArg NodeRoute.secP hroot, fun i hi hne => hstep i ((hmem i).2 ⟨hne, hi⟩)⟩,
      rfl, rfl, ⟨congrArg NodeRoute.parent hroot, congrArg NodeRoute.path hroot⟩, fun n hn => ?_⟩
    have hne : n ≠ D.destination := by
      rintro rfl
      simp [hv.best_root] at hn
    have h := hframe n fun h => ((hmem n).1 h).2 hn
    rwa [startRoutes, update_of_ne hne] at h
  · rintro ⟨⟨hroot, hstep⟩, htab, hU, ⟨hpar, hpath⟩, hnone⟩
    have hd : D'.destination = D.destination := congrArg RouteTables.destination htab
    refine ⟨D'.route, ⟨fun n hn => ?_, fun n hn => ?_⟩, ?_⟩
    · obtain ⟨hne, hb⟩ := (hmem n).1 hn
      rw [← htab] at hb ⊢
      exact hstep n hb (hd ▸ hne)
    · by_cases hne : n = D.destination
      · subst hne
        rw [startRoutes, update_self]
        rw [hd] at hroot
        simp only [Destination.route, hroot, hpar, hpath]
      · rw [startRoutes, update_of_ne hne]
        refine hnone n ?_
        by_contra hb
        exact hn ((hmem n).2 ⟨hne, hb⟩)
    · exact Destination.ext_route htab.symm rfl hU.symm

/-- **Recomputation forgets.**  What a recomputation leaves does not depend on the choices that it
overwrites. -/
theorem ValidTables.updatePaths_congr {D₁ D₂ : Destination}
    (hv : ValidTables P g D₁.toRouteTables) (h : SameFrame D₁ D₂) :
    updatePaths P S D₁ = updatePaths P S D₂ := by
  have hd : D₂.destination = D₁.destination := congrArg RouteTables.destination h.tables
  have hb : D₂.best = D₁.best := congrArg RouteTables.best h.tables
  refine ext fun D' => ?_
  rw [hv.updatePaths_eq_some_iff,
    ValidTables.updatePaths_eq_some_iff (g := g) (by rw [h.tables]; exact hv)]
  refine and_congr_right fun _ => ⟨fun h' => ?_, fun h' => ?_⟩
  · refine ⟨h'.tables.trans h.tables.symm, h'.utility.trans h.utility.symm, ?_, fun n hn => ?_⟩
    · rw [hd, h.root.1, h.root.2]
      exact h'.root
    · rw [hb] at hn
      exact (h'.none n hn).trans (h.none n hn).symm
  · refine ⟨h'.tables.trans h.tables, h'.utility.trans h.utility, ?_, fun n hn => ?_⟩
    · have hroot := h'.root
      rw [hd, h.root.1, h.root.2] at hroot
      exact hroot
    · exact (h'.none n (by rw [hb]; exact hn)).trans (h.none n hn)

end Sweep

/-! ### Histories of recomputations -/

/-- The destinations that come from the tables `m` by recomputations.  A recomputation that is
aborted by an exception leaves what it has done so far. -/
inductive Derived (P : Params) (m : MiniDestination) : Destination → Prop
  /-- The rebuilt destination. -/
  | init : Derived P m (Destination.ofMiniDestination m)
  /-- A recomputation. -/
  | updated {D D' : Destination} {S : Asn → Bool} (hD : Derived P m D)
      (h : updatePaths P S D = some D') : Derived P m D'
  /-- A recomputation that is aborted at the entry `e`. -/
  | aborted {D D₁ D' : Destination} {S : Asn → Bool} {l r : List (ℕ × ℕ × Asn)}
      {e : ℕ × ℕ × Asn} (hD : Derived P m D) (h₁ : updateDestinations S D = some D₁)
      (hl : D₁.bucketNodes 1 = l ++ e :: r)
      (h : l.foldlM (fun D e => updateNode P S D e.2.1 e.2.2) D₁ = some D')
      (he : updateNode P S D' e.2.1 e.2.2 = none) : Derived P m D'

section Derived

variable {P : Params} {g : NetworkGraph} {m : MiniDestination} {D D' : Destination}

lemma SameFrame.trans {D₁ D₂ : Destination} (h₁ : SameFrame D D₁) (h₂ : SameFrame D₁ D₂) :
    SameFrame D D₂ := by
  have hd : D₁.destination = D.destination := congrArg RouteTables.destination h₁.tables
  have hb : D₁.best = D.best := congrArg RouteTables.best h₁.tables
  refine ⟨h₂.tables.trans h₁.tables, h₂.utility.trans h₁.utility, ?_, fun n hn => ?_⟩
  · have hroot := h₂.root
    rw [hd] at hroot
    exact ⟨hroot.1.trans h₁.root.1, hroot.2.trans h₁.root.2⟩
  · exact (h₂.none n (by rw [hb]; exact hn)).trans (h₁.none n hn)

variable (hv : ValidTables P g m.toRouteTables) (h : Derived P m D)

include hv h

/-- Recomputations change nothing but the choices of nodes with a route. -/
lemma Derived.sameFrame : SameFrame (Destination.ofMiniDestination m) D := by
  induction h with
  | init => exact ⟨rfl, rfl, ⟨rfl, rfl⟩, fun _ _ => rfl⟩
  | @updated D D' S hD h ih =>
    have hv' : ValidTables P g D.toRouteTables := by
      rw [ih.tables]
      exact hv
    exact ih.trans (hv'.updatePaths_eq_some_iff.1 h).2
  | @aborted D D₁ D' S l r e hD h₁ hl h he ih =>
    have hv' : ValidTables P g D.toRouteTables := by
      rw [ih.tables]
      exact hv
    rw [hv'.updateDestinations_eq, Option.some.injEq] at h₁
    subst h₁
    have hnodes : ∀ a ∈ l, a.2.2 ≠ D.destination ∧ D.best a.2.2 ≠ none ∧
        a.2.1 = D.bestRelation a.2.2 := by
      intro a ha
      have hmem : a ∈ D.bucketNodes 1 := hl ▸ mem_append_left _ ha
      obtain ⟨h₁, h₂, -, -, h₃⟩ := (hv'.mem_bucketNodes (le_refl 1)).1 hmem
      exact ⟨h₁, h₂, h₃⟩
    rw [foldlM_updateNode_eq l (D.withRoutes (startRoutes D.toRouteTables S D.route))
      fun a ha => (hnodes a ha).2.2, map_eq_some_iff] at h
    obtain ⟨t, ht, rfl⟩ := h
    -- the entries before `e` are nodes with a route, other than the destination
    have hframe : ∀ n, n = D.destination ∨ D.best n = none →
        t n = startRoutes D.toRouteTables S D.route n := by
      intro n hn
      refine Layered.sweep_frame ht fun hc => ?_
      obtain ⟨a, ha, rfl⟩ := List.mem_map.mp hc
      exact hn.elim (hnodes a ha).1 (hnodes a ha).2.1
    refine ih.trans ⟨rfl, rfl, ?_, fun n hn => ?_⟩
    · have hroot := hframe D.destination (.inl rfl)
      rw [startRoutes, update_self] at hroot
      exact ⟨congrArg NodeRoute.parent hroot, congrArg NodeRoute.path hroot⟩
    · have hne : n ≠ D.destination := by
        rintro rfl
        simp [hv'.best_root] at hn
      have hn' := hframe n (.inr hn)
      rwa [startRoutes, update_of_ne hne] at hn'

lemma Derived.tables : D.toRouteTables = m.toRouteTables := (h.sameFrame hv).tables

lemma Derived.valid : ValidTables P g D.toRouteTables := by
  rw [h.tables hv]
  exact hv

lemma Derived.path_root : D.chosenPath m.destination = some [m.destination] := by
  refine (h.sameFrame hv).root.2.trans ?_
  simp [Destination.ofMiniDestination]

lemma Derived.updatePaths_eq
    (S : Asn → Bool) : updatePaths P S D = updatePaths P S (Destination.ofMiniDestination m) :=
  have hv₀ : ValidTables P g (Destination.ofMiniDestination m).toRouteTables := hv
  (hv₀.updatePaths_congr (h.sameFrame hv)).symm

end Derived

end Astoria
