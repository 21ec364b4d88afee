import Astoria.BgpSim.Utility
import Mathlib.Data.BitVec

/-!
# Incremental utilities

`Worker.computeUtility` answers what the utility of a node `n` would be if `n` alone changed its
mind about security.  It does not recompute all paths: it chooses a new parent for `n`, walks the
rows below `n`, where only secure nodes with several parents choose anew, and takes down for every
node whether and how its path leads through `n`.

The main result is that the answer agrees with a full recomputation for the changed deployment
vector followed by `computeU`, and that the arrays of the caller are left as they were.  It rests on
the best sets being sorted by the keys of the tie-break, so that the first member in question wins.
-/

namespace Astoria

open List Option
open Function

/-! ### The computation -/

/-- How the path of a node leads through `n`: not at all, or from a customer, a peer or a provider
of `n`. -/
inductive ThroughN
  /-- Not at all, or not yet known. -/
  | empty
  /-- From a customer of `n`. -/
  | customerOf
  /-- From a peer of `n`. -/
  | peerOf
  /-- From a provider of `n`. -/
  | providerTo
  deriving DecidableEq

/-- Count a node of weight `w` by the way its path leads through `n`. -/
def TreeSizes.addThrough (s : TreeSizes) (tag : ThroughN) (w : UInt16) : TreeSizes :=
  match tag with
  | .empty => s
  | .customerOf =>
    { s with
      customerTreeSize := s.customerTreeSize + 1
      customerWeightedTreeSize := s.customerWeightedTreeSize + BitVec.ofNat 32 w.toNat }
  | .peerOf => { s with peerWeightedTreeSize := s.peerWeightedTreeSize + BitVec.ofNat 32 w.toNat }
  | .providerTo =>
    { s with providerWeightedTreeSize := s.providerWeightedTreeSize + BitVec.ofNat 32 w.toNat }

/-- The arrays of the caller and those of the worker. -/
structure WorkerState where
  /-- The deployment vector of the caller, in which `n` is flipped during the computation. -/
  S : Asn → Bool
  paramChosenParent : Asn → Asn
  /-- The security flags of the destination. -/
  paramSecP : Asn → Bool
  /-- The worker's copy of the chosen parents. -/
  chosenParent : Asn → Asn
  /-- The worker's copy of the security flags. -/
  secP : Asn → Bool
  /-- How the paths lead through `n`. -/
  throughN : Asn → ThroughN
  /-- The sums for `n`. -/
  sizes : TreeSizes

/-- Choose the parent of a secure node anew: the first one with a secure path, or the first one.  An
insecure node keeps its parent. -/
def updateParentWorker (best : Asn → Option (List Asn)) (i : Asn) (s : WorkerState) :
    Option WorkerState :=
  if s.S i then
    (best i).bind fun parents =>
      ((parents.find? s.secP).or parents.head?).map fun parent =>
        { s with chosenParent := update s.chosenParent i parent }
  else some s

/-- The flipped node `n` chooses a parent among all it has, if it has become insecure, and takes the
first one. -/
def firstParentWorker (best : Asn → Option (List Asn)) (n : Asn) (s : WorkerState) :
    Option WorkerState :=
  (best n).bind fun parents => parents.head?.map fun newParent =>
    { s with chosenParent := update s.chosenParent n newParent }

/-- Update the parent of a node only if the node has options. -/
def ifOptions (best : Asn → Option (List Asn)) (i : Asn)
    (update : WorkerState → Option WorkerState) (s : WorkerState) : Option WorkerState :=
  (best i).bind fun parents => if 1 < parents.length then update s else some s

/-- Choose the parent of the flipped node `n` anew. -/
def updateN (best : Asn → Option (List Asn)) (n : Asn) (s : WorkerState) : Option WorkerState :=
  (ifOptions best n (fun s =>
    if s.S n then updateParentWorker best n s else firstParentWorker best n s) s).map fun s =>
      { s with secP := update s.secP n (s.S n && s.secP (s.chosenParent n)) }

/-- How the path of a node in the given row and column leads through `n`, which is in the row
`L`. -/
def throughTag (n : Asn) (L row col : ℕ) (parent : Asn) (throughN : Asn → ThroughN)
    (old : ThroughN) : ThroughN :=
  if row = L + 1 ∧ parent = n ∧ col = providerColumn then .customerOf
  else if row = L + 1 ∧ parent = n ∧ col = peerColumn then .peerOf
  else if row = L + 1 ∧ parent = n ∧ col = customerColumn then .providerTo
  else if L + 1 < row then throughN parent
  else old

/-- Take down what follows from the parent of a node in a row below `n`. -/
def recordNode (n : Asn) (L : ℕ) (W : Asn → UInt16) (e : ℕ × ℕ × Asn) (s : WorkerState) :
    WorkerState :=
  let i := e.2.2
  let tag := throughTag n L e.1 e.2.1 (s.chosenParent i) s.throughN (s.throughN i)
  { s with
    secP := if s.S i then update s.secP i (s.secP (s.chosenParent i)) else s.secP
    throughN := update s.throughN i tag
    sizes := s.sizes.addThrough tag (W i) }

/-- Treat a node in a row below `n`. -/
def workerStep (best : Asn → Option (List Asn)) (n : Asn) (L : ℕ) (W : Asn → UInt16)
    (s : WorkerState) (e : ℕ × ℕ × Asn) : Option WorkerState :=
  (ifOptions best e.2.2 (updateParentWorker best e.2.2) s).map (recordNode n L W e)

/-- What a computation leaves: the utility and the arrays of the caller. -/
structure WorkerResult where
  /-- The utility of `n` with its state flipped. -/
  utility : BitVec 32
  /-- The deployment vector of the caller. -/
  S : Asn → Bool
  chosenParent : Asn → Asn
  /-- The security flags of the destination. -/
  secP : Asn → Bool

/-- The utility of `n` if it flipped its state in `S`. -/
def computeUtility (f : UtilityComputationType) (T : RouteTables) (chosenParent : Asn → Asn)
    (secP S : Asn → Bool) (n : Asn) (L bestRelation : ℕ) (W : Asn → UInt16) :
    Option WorkerResult :=
  if L = 0 then some ⟨0, S, chosenParent, secP⟩
  else do
    let s ← updateN T.best n
      { S := update S n (!S n)
        paramChosenParent := chosenParent
        paramSecP := secP
        chosenParent := chosenParent
        secP := secP
        throughN := fun _ => .empty
        sizes := {} }
    let s ← (T.bucketNodes (L + 1)).foldlM (workerStep T.best n L W) s
    let destinations ← T.bucketTable 0 customerColumn
    let destination ← destinations.head?
    return {
      utility := utilityComputation s.sizes bestRelation (W destination) f
      S := update s.S n (!s.S n)
      chosenParent := s.paramChosenParent
      secP := s.paramSecP }

/-! ### Choosing the first parent -/

/-- The first parent with a secure path, or the first parent, is the first member of the tie-break
set of a secure node. -/
lemma find?_or_head? (secP : Asn → Bool) (parents : List Asn) :
    (parents.find? secP).or parents.head? = (tieBreakSet true secP parents).head? := by
  unfold tieBreakSet
  rw [if_pos rfl, ← head?_filter]
  split_ifs with h
  · rw [h]
    rfl
  · obtain ⟨p, hp⟩ := isSome_iff_exists.mp (isSome_head?.mpr h)
    rw [hp, some_or]

lemma eq_of_not_one_lt_length {parents : List Asn} {p q : Asn} (hlen : ¬ 1 < parents.length)
    (hp : p ∈ parents) (hq : q ∈ parents) : p = q := by
  cases parents with
  | nil => cases hp
  | cons a l =>
    have hl : l = [] := length_eq_zero_iff.mp (by rw [length_cons] at hlen; omega)
    rw [hl, mem_singleton] at hp hq
    rw [hp, hq]

/-- The choices for a deployment vector, as a table. -/
structure Solution (P : Params) (T : RouteTables) (S : Asn → Bool) (t : Asn → NodeRoute) :
    Prop where
  secP_root : (t T.destination).secP = S T.destination
  step : ∀ i, T.best i ≠ none → i ≠ T.destination → updateRoute T P S t i = some (t i)

section Solutions

variable {P : Params} {g : NetworkGraph} {T : RouteTables} {S : Asn → Bool}
  {t t' : Asn → NodeRoute} {n : Asn}

/-- The deployment vector with `n` flipped. -/
def flipState (S : Asn → Bool) (n : Asn) : Asn → Bool := update S n (!S n)

lemma Solution.choice (ht : Solution P T S t) (hv : ValidTables P g T) {i : Asn}
    (hi : T.best i ≠ none) (hne : i ≠ T.destination) :
    ∃ rest, tieBreakSet (S i) (fun p => (t p).secP) (T.bestSet i) = (t i).parent :: rest ∧
      (t i).parent ∈ T.bestSet i ∧ (t i).secP = ((t (t i).parent).secP && S i) := by
  obtain ⟨p, rest, hset, hp, -, -, heq⟩ := (hv.updateRoute_eq_some hi).1 (ht.step i hi hne)
  have hparent : (t i).parent = p := congrArg NodeRoute.parent heq
  rw [hparent]
  exact ⟨rest, hset, hp, congrArg NodeRoute.secP heq⟩

/-- Flipping `n` has no influence on the other nodes in its row and above. -/
lemma Solution.eq_above (ht : Solution P T S t) (ht' : Solution P T (flipState S n) t')
    (hv : ValidTables P g T) {i : Asn} (hi : T.best i ≠ none) (hin : i ≠ n)
    (hL : T.L i ≤ T.L n) : (t i).secP = (t' i).secP ∧
      (i ≠ T.destination → (t i).parent = (t' i).parent) := by
  have hflip : flipState S n i = S i := update_of_ne hin _ _
  induction hk : T.L i using Nat.strongRecOn generalizing i with
  | ind k ih =>
    by_cases hne : i = T.destination
    · subst hne
      exact ⟨by rw [ht.secP_root, ht'.secP_root, hflip], fun h => absurd rfl h⟩
    · obtain ⟨rest, hset, hp, hsec⟩ := ht.choice hv hi hne
      obtain ⟨rest', hset', -, hsec'⟩ := ht'.choice hv hi hne
      have hparents : ∀ p ∈ T.bestSet i, (t p).secP = (t' p).secP := by
        intro p hp
        obtain ⟨hbp, hLp⟩ := hv.parent i hne p hp
        have hpn : p ≠ n := by
          rintro rfl
          omega
        exact (ih (T.L p) (by omega) hbp hpn (by omega)
          (update_of_ne hpn _ _) rfl).1
      rw [hflip, ← tieBreakSet_congr hparents, hset] at hset'
      obtain ⟨hparent, -⟩ := List.cons.inj hset'
      refine ⟨?_, fun _ => hparent⟩
      rw [hsec, hsec', hflip, hparents _ hp, hparent]

end Solutions

/-! ### The run of the worker -/

/-- The way a path leads through a node that it enters over an edge of the given column. -/
def columnTag (col : ℕ) : ThroughN :=
  if col = providerColumn then .customerOf
  else if col = peerColumn then .peerOf
  else if col = customerColumn then .providerTo
  else .empty

/-- The worker has treated the nodes in `done`: for these, its arrays are those of the table `t'`,
and for the others still those of the table `t`. -/
structure WorkerInv (T : RouteTables) (S : Asn → Bool) (t t' : Asn → NodeRoute)
    (tag : Asn → ThroughN) (done : Asn → Prop) (s : WorkerState) : Prop where
  /-- The flipped deployment vector. -/
  S_eq : s.S = S
  params_parent : ∀ i, s.paramChosenParent i = (t i).parent
  /-- The security flags of the destination are as they were. -/
  params_secP : ∀ i, s.paramSecP i = (t i).secP
  of_done : ∀ i, done i → s.secP i = (t' i).secP ∧ s.throughN i = tag i ∧
    (i ≠ T.destination → s.chosenParent i = (t' i).parent)
  of_not_done : ∀ i, ¬ done i → s.secP i = (t i).secP ∧ s.throughN i = .empty ∧
    s.chosenParent i = (t i).parent

/-- The tags tell through which column a path enters `n`. -/
structure Tagging (T : RouteTables) (t' : Asn → NodeRoute) (n : Asn) (tag : Asn → ThroughN) :
    Prop where
  above : ∀ i, T.best i ≠ none → T.L i ≤ T.L n → tag i = .empty
  step : ∀ i, T.best i ≠ none → i ≠ T.destination → tag i =
    if (t' i).parent = n then columnTag (T.bestRelation i) else tag (t' i).parent

section Run

variable {P : Params} {g : NetworkGraph} {T : RouteTables} {S S' : Asn → Bool}
  {t t' : Asn → NodeRoute} {tag : Asn → ThroughN} {n : Asn} {W : Asn → UInt16} {s : WorkerState}

/-- A secure node with alternatives chooses as in a full recomputation. -/
lemma updateParentWorker_secure (hv : ValidTables P g T) (ht' : Solution P T S' t') {i : Asn}
    (hi : T.best i ≠ none) (hne : i ≠ T.destination) (hS : s.S = S')
    (hparents : ∀ p ∈ T.bestSet i, s.secP p = (t' p).secP) (hSi : S' i = true) :
    updateParentWorker T.best i s =
      some { s with chosenParent := update s.chosenParent i (t' i).parent } := by
  obtain ⟨ps, hps⟩ := ne_none_iff_exists'.mp hi
  have hset : T.bestSet i = ps := by
    rw [RouteTables.bestSet, hps, getD_some]
  obtain ⟨rest, hchoice, -⟩ := ht'.choice hv hi hne
  rw [hSi, hset,
    ← @tieBreakSet_congr true s.secP (fun p => (t' p).secP) ps
      (by rwa [hset] at hparents)] at hchoice
  unfold updateParentWorker
  rw [hS, hSi, if_pos rfl, hps, bind_some, find?_or_head?, hchoice]
  rfl

/-- In the rows below `n`, a node keeps its parent unless it is secure and has alternatives. -/
lemma parent_eq_of_kept (hv : ValidTables P g T) (ht : Solution P T S t)
    (ht' : Solution P T S' t') {i : Asn} (hi : T.best i ≠ none) (hne : i ≠ T.destination)
    (hSi : S' i = S i) (hkept : ¬ 1 < (T.bestSet i).length ∨ S' i = false) :
    (t i).parent = (t' i).parent := by
  obtain ⟨rest, hset, hp, -⟩ := ht.choice hv hi hne
  obtain ⟨rest', hset', hp', -⟩ := ht'.choice hv hi hne
  rcases hkept with hlen | hS
  · exact eq_of_not_one_lt_length hlen hp hp'
  · rw [hS] at hSi
    rw [← hSi] at hset
    rw [hS] at hset'
    exact (List.cons.inj (hset.symm.trans hset')).1

/-- The worker treats a node whose parents have been treated. -/
lemma workerStep_spec (hv : ValidTables P g T) (ht : Solution P T S t)
    (ht' : Solution P T (flipState S n) t') (htags : Tagging T t' n tag)
    {done : Asn → Prop} (hinv : WorkerInv T (flipState S n) t t' tag done s) {i : Asn}
    (hi : T.best i ≠ none) (hne : i ≠ T.destination) (hL : T.L n < T.L i) (hdone : ¬ done i)
    (hparents : ∀ p ∈ T.bestSet i, done p) :
    ∃ s', workerStep T.best n (T.L n) W s (T.L i, T.bestRelation i, i) = some s' ∧
      WorkerInv T (flipState S n) t t' tag (fun j => j = i ∨ done j) s' ∧
      s'.sizes = s.sizes.addThrough (tag i) (W i) := by
  have hin : i ≠ n := by
    rintro rfl
    omega
  have hSi : flipState S n i = S i := update_of_ne hin _ _
  obtain ⟨ps, hps⟩ := ne_none_iff_exists'.mp hi
  have hset : T.bestSet i = ps := by
    rw [RouteTables.bestSet, hps, getD_some]
  obtain ⟨-, -, hp, hsec⟩ := ht'.choice hv hi hne
  obtain ⟨hbp, hLp⟩ := hv.parent i hne _ hp
  -- the parent
  have hchoose : ifOptions T.best i (updateParentWorker T.best i) s =
      some { s with chosenParent := update s.chosenParent i (t' i).parent } := by
    have hkeep : (t i).parent = (t' i).parent →
        s = { s with chosenParent := update s.chosenParent i (t' i).parent } := by
      intro h
      rw [← h, ← (hinv.of_not_done i hdone).2.2, update_eq_self]
    rw [ifOptions, hps, bind_some]
    split_ifs with hlen
    · by_cases hSec : flipState S n i = true
      · exact updateParentWorker_secure hv ht' hi hne hinv.S_eq
          (fun p hp => (hinv.of_done p (hparents p hp)).1) hSec
      · rw [updateParentWorker, if_neg (by rwa [hinv.S_eq])]
        exact congrArg some (hkeep (parent_eq_of_kept hv ht ht' hi hne hSi
          (.inr (by simpa using hSec))))
    · exact congrArg some (hkeep (parent_eq_of_kept hv ht ht' hi hne hSi
        (.inl (by rwa [hset]))))
  -- the way through `n`
  have htag : throughTag n (T.L n) (T.L i) (T.bestRelation i) (t' i).parent s.throughN
      (s.throughN i) = tag i := by
    rw [htags.step i hi hne, (hinv.of_not_done i hdone).2.1]
    unfold throughTag columnTag
    by_cases hpn : (t' i).parent = n
    · have hrow : T.L i = T.L n + 1 := by
        rw [← hpn]
        exact hLp.symm
      simp [hpn, hrow]
    · simp only [hpn, false_and, and_false, if_false]
      split_ifs with hrow
      · exact (hinv.of_done _ (hparents _ hp)).2.1
      · exact (htags.above _ hbp (by omega)).symm
  -- the security flag
  have hflag : (if flipState S n i = true then update s.secP i (s.secP (t' i).parent)
      else s.secP) = update s.secP i (t' i).secP := by
    split_ifs with hSec
    · rw [hsec, hSec, Bool.and_true, (hinv.of_done _ (hparents _ hp)).1]
    · rw [Bool.not_eq_true] at hSec
      obtain ⟨-, -, -, hsecOld⟩ := ht.choice hv hi hne
      rw [hsec, hSec, Bool.and_false]
      have hold : s.secP i = false := by
        rw [(hinv.of_not_done i hdone).1, hsecOld, ← hSi, hSec, Bool.and_false]
      rw [← hold, update_eq_self]
  refine ⟨_, by rw [workerStep, hchoose, map_some], ?_, ?_⟩
  · simp only [recordNode, update_self, hinv.S_eq, htag, hflag]
    constructor
    case S_eq => rfl
    case params_parent => exact hinv.params_parent
    case params_secP => exact hinv.params_secP
    case of_done =>
      rintro j (rfl | hj)
      · exact ⟨by simp, by simp, fun _ => by simp⟩
      · have hji : j ≠ i := fun h => hdone (h ▸ hj)
        simpa [hji] using hinv.of_done j hj
    case of_not_done =>
      intro j hj
      rw [not_or] at hj
      simpa [hj.1] using hinv.of_not_done j hj.2
  · simp only [recordNode, update_self, htag]

/-- The worker treats a list of nodes in which no node comes before one of its parents. -/
lemma foldlM_workerStep (hv : ValidTables P g T) (ht : Solution P T S t)
    (ht' : Solution P T (flipState S n) t') (htags : Tagging T t' n tag)
    {done : Asn → Prop}
    (hinv : WorkerInv T (flipState S n) t t' tag done s) {l : List (ℕ × ℕ × Asn)}
    (hl : ∀ e ∈ l, T.best e.2.2 ≠ none ∧ e.2.2 ≠ T.destination ∧ T.L n < T.L e.2.2 ∧
      e = (T.L e.2.2, T.bestRelation e.2.2, e.2.2) ∧ ¬ done e.2.2 ∧
      ∀ p ∈ T.bestSet e.2.2, done p ∨ p ∈ l.map fun e => e.2.2)
    (hord : Layered.Ordered T.bestSet (l.map fun e => e.2.2)) :
    ∃ s', l.foldlM (workerStep T.best n (T.L n) W) s = some s' ∧
      WorkerInv T (flipState S n) t t' tag (fun j => done j ∨ j ∈ l.map fun e => e.2.2) s' ∧
      s'.sizes = (l.map fun e => e.2.2).foldl (fun z i => z.addThrough (tag i) (W i)) s.sizes := by
  induction l generalizing done s with
  | nil => exact ⟨s, rfl, by simpa using hinv, rfl⟩
  | cons e l ih =>
    obtain ⟨hi, hne, hL, he, hdone, hparents⟩ := hl e (by simp)
    obtain ⟨hnd, hself, hpair⟩ := hord
    rw [map_cons] at hnd hself hpair
    rw [nodup_cons] at hnd
    rw [pairwise_cons] at hpair
    -- the parents of the first node do not come after it
    have hfirst : ∀ p ∈ T.bestSet e.2.2, done p := by
      intro p hp
      refine (hparents p hp).resolve_right fun hc => ?_
      rw [map_cons] at hc
      rcases mem_cons.mp hc with rfl | hc
      · exact hself _ (by simp) hp
      · exact hpair.1 p hc hp
    obtain ⟨s₁, hs₁, hinv₁, hsizes₁⟩ :=
      workerStep_spec (W := W) hv ht ht' htags hinv hi hne hL hdone hfirst
    rw [← he] at hs₁
    obtain ⟨s', hs', hinv', hsizes'⟩ := ih hinv₁ (fun a ha => by
        obtain ⟨h₁, h₂, h₃, h₄, h₅, h₆⟩ := hl a (mem_cons_of_mem _ ha)
        refine ⟨h₁, h₂, h₃, h₄, ?_, fun p hp => ?_⟩
        · rintro (hc | hc)
          · exact hnd.1 (hc ▸ List.mem_map_of_mem ha)
          · exact h₅ hc
        · rcases h₆ p hp with h | h
          · exact .inl (.inr h)
          · rw [map_cons] at h
            rcases mem_cons.mp h with h | h
            · exact .inl (.inl h)
            · exact .inr h)
      ⟨hnd.2, fun m hm => hself m (mem_cons_of_mem _ hm), hpair.2⟩
    refine ⟨s', ?_, ?_, ?_⟩
    · rw [foldlM_cons, hs₁]
      exact hs'
    · have hsame : (fun j => (j = e.2.2 ∨ done j) ∨ j ∈ l.map fun e => e.2.2) =
          fun j => done j ∨ j ∈ (e :: l).map fun e => e.2.2 := by
        funext j
        rw [map_cons, mem_cons, eq_iff_iff]
        tauto
      rw [← hsame]
      exact hinv'
    · rw [hsizes', hsizes₁]
      rfl

/-- The worker begins with `n`. -/
lemma updateN_spec (hv : ValidTables P g T) (ht : Solution P T S t)
    (ht' : Solution P T (flipState S n) t') (hn : T.best n ≠ none) (hne : n ≠ T.destination)
    (htags : Tagging T t' n tag) :
    ∃ s, updateN T.best n
        { S := flipState S n
          paramChosenParent := fun i => (t i).parent
          paramSecP := fun i => (t i).secP
          chosenParent := fun i => (t i).parent
          secP := fun i => (t i).secP
          throughN := fun _ => .empty
          sizes := {} } = some s ∧
      WorkerInv T (flipState S n) t t' tag (fun i => T.best i ≠ none ∧ T.L i ≤ T.L n) s ∧
      s.sizes = {} := by
  obtain ⟨ps, hps⟩ := ne_none_iff_exists'.mp hn
  have hset : T.bestSet n = ps := by
    rw [RouteTables.bestSet, hps, getD_some]
  have habove : ∀ p ∈ T.bestSet n, (t p).secP = (t' p).secP := by
    intro p hp
    obtain ⟨hbp, hL⟩ := hv.parent n hne p hp
    have hpn : p ≠ n := by
      rintro rfl
      omega
    exact (ht.eq_above ht' hv hbp hpn (by omega)).1
  obtain ⟨rest, hchoice, hp, -⟩ := ht.choice hv hn hne
  obtain ⟨rest', hchoice', hp', hsec'⟩ := ht'.choice hv hn hne
  generalize hs₀ : ({
    S := flipState S n
    paramChosenParent := fun i => (t i).parent
    paramSecP := fun i => (t i).secP
    chosenParent := fun i => (t i).parent
    secP := fun i => (t i).secP
    throughN := fun _ => .empty
    sizes := {} } : WorkerState) = s₀
  have hS₀ : s₀.S = flipState S n := by rw [← hs₀]
  have hsecP₀ : s₀.secP = fun i => (t i).secP := by rw [← hs₀]
  have hparent₀ : s₀.chosenParent = fun i => (t i).parent := by rw [← hs₀]
  have hupdate : ifOptions T.best n (fun s =>
      if s.S n then updateParentWorker T.best n s else firstParentWorker T.best n s) s₀ =
        some { s₀ with chosenParent := update s₀.chosenParent n (t' n).parent } := by
    rw [ifOptions, hps, bind_some]
    split_ifs with hlen hSec
    · exact updateParentWorker_secure hv ht' hn hne hS₀
        (fun p hp => by rw [hsecP₀]; exact habove p hp) (by rwa [hS₀] at hSec)
    · rw [hS₀, Bool.not_eq_true] at hSec
      rw [hSec, tieBreakSet, if_neg (by simp), hset] at hchoice'
      rw [firstParentWorker, hps, bind_some, hchoice']
      rfl
    · have hsame : (t n).parent = (t' n).parent :=
        eq_of_not_one_lt_length (by rwa [hset]) hp hp'
      have hself : update s₀.chosenParent n (t' n).parent = s₀.chosenParent := by
        rw [← hsame, hparent₀]
        exact update_eq_self n fun i => (t i).parent
      rw [hself]
  rw [updateN, hupdate, map_some]
  refine ⟨_, rfl, ?_, by rw [← hs₀]⟩
  have hflag : (s₀.S n && s₀.secP (update s₀.chosenParent n (t' n).parent n)) =
      (t' n).secP := by
    rw [update_self, hS₀, hsecP₀, hsec', ← habove _ hp', Bool.and_comm]
  simp only [hflag]
  constructor
  case S_eq => exact hS₀
  case params_parent => exact fun i => by rw [← hs₀]
  case params_secP => exact fun i => by rw [← hs₀]
  case of_done =>
    rintro i ⟨hi, hL⟩
    have hthrough : s₀.throughN i = tag i := by
      rw [← hs₀]
      exact (htags.above i hi hL).symm
    by_cases hin : i = n
    · subst hin
      exact ⟨by simp, hthrough, fun _ => by simp⟩
    · obtain ⟨h₁, h₂⟩ := ht.eq_above ht' hv hi hin hL
      exact ⟨by simpa [hin, hsecP₀] using h₁, hthrough,
        fun h => by simpa [hin, hparent₀] using h₂ h⟩
  case of_not_done =>
    intro i hi
    have hin : i ≠ n := by
      rintro rfl
      exact hi ⟨hn, le_refl _⟩
    refine ⟨by simp [hin, hsecP₀], by rw [← hs₀], by simp [hin, hparent₀]⟩

end Run

/-! ### How paths lead through a node -/

/-- The way a path leads through a node, by the columns under which it enters. -/
def hitTag : List ℕ → ThroughN
  | [] => .empty
  | col :: _ => columnTag col

section Hits

variable {P : Params} {g : NetworkGraph} {S : Asn → Bool} {D : Destination} {n : Asn}

section

variable {i : Asn} (hc : Chosen P S D) (hv : ValidTables P g D.toRouteTables)
  (hroot : D.chosenPath D.destination = some [D.destination]) (hi : D.best i ≠ none)

include hc hv hroot hi

/-- The path of a node enters its parent and whatever the path of the parent enters. -/
lemma hits_step (hne : i ≠ D.destination) :
    hits D n i = if D.chosenParent i = n then D.bestRelation i :: hits D n (D.chosenParent i)
      else hits D n (D.chosenParent i) := by
  obtain ⟨p, -, -, hp, -, -, heq⟩ := (hv.updateRoute_eq_some hi).1 (hc.step i hi hne)
  have hparent : D.chosenParent i = p := congrArg NodeRoute.parent heq
  obtain ⟨hbp, hL⟩ := hv.parent i hne p hp
  have hlt : ∀ j, D.best j ≠ none → j < numASNs ∧ D.bestRelation j ≤ providerColumn :=
    fun j hj => ⟨(hv.lt j hj).1, (hv.lt j hj).2.2⟩
  obtain ⟨rest, hrest⟩ : ∃ rest, D.chosenPath p = some (p :: rest) := by
    by_cases hpd : p = D.destination
    · exact ⟨[], hpd ▸ hroot⟩
    · obtain ⟨q, rest, -, -, hq⟩ := (hc.chosenPaths hv hroot).step p hbp hpd
      exact ⟨_, hq⟩
  have hpi : p ≠ i := by
    rintro rfl
    omega
  have hpath : D.chosenPath i = some (i :: join p (D.bestRelation i) :: rest) := by
    have h := congrArg NodeRoute.path heq
    simpa [Destination.route, hrest, updatePath, hpi] using h
  have hjoin := unjoin_join (hlt p hbp).1 (hlt i hi).2
  rw [hparent]
  simp only [hits, hpath, hrest, getD_some, tail_cons, map_cons, hjoin,
    filter_cons, decide_eq_true_eq]
  split_ifs
  · rfl
  · rfl

/-- A path enters only nodes with a route, above its beginning. -/
lemma hits_eq_nil (hn : D.best n = none ∨ D.L i ≤ D.L n) : hits D n i = [] := by
  induction hk : D.L i using Nat.strongRecOn generalizing i with
  | ind k ih =>
    by_cases hne : i = D.destination
    · simp [hits, hne, hroot]
    · obtain ⟨p, -, -, hp, -, -, heq⟩ := (hv.updateRoute_eq_some hi).1 (hc.step i hi hne)
      have hparent : D.chosenParent i = p := congrArg NodeRoute.parent heq
      obtain ⟨hbp, hLp⟩ := hv.parent i hne p hp
      have hpn : p ≠ n := by
        rintro rfl
        rcases hn with hn | hn
        · exact hbp hn
        · omega
      rw [hits_step hc hv hroot hi hne, hparent, if_neg hpn]
      exact ih (D.L p) (by omega) hbp (hn.imp_right fun h => by omega) rfl

/-- A path enters a node at most once, over an edge of one of the three columns. -/
lemma hits_eq_nil_or_singleton : hits D n i = [] ∨ ∃ col, hits D n i = [col] := by
  induction hk : D.L i using Nat.strongRecOn generalizing i with
  | ind k ih =>
    by_cases hne : i = D.destination
    · exact .inl (by simp [hits, hne, hroot])
    · obtain ⟨p, -, -, hp, -, -, heq⟩ := (hv.updateRoute_eq_some hi).1 (hc.step i hi hne)
      have hparent : D.chosenParent i = p := congrArg NodeRoute.parent heq
      obtain ⟨hbp, hLp⟩ := hv.parent i hne p hp
      rw [hits_step hc hv hroot hi hne, hparent]
      split_ifs with hpn
      · rw [hits_eq_nil hc hv hroot hbp (.inr (by rw [hpn]))]
        exact .inr ⟨_, rfl⟩
      · exact ih (D.L p) (by omega) hbp rfl

end

lemma addColumn_eq (z : TreeSizes) (col : ℕ) (w : UInt16) :
    z.addColumn col w = z.addThrough (columnTag col) w := by
  unfold TreeSizes.addColumn columnTag
  split_ifs <;> rfl

lemma addThrough_right_comm (z : TreeSizes) (a b : ThroughN) (v w : UInt16) :
    (z.addThrough a v).addThrough b w = (z.addThrough b w).addThrough a v := by
  cases a <;> cases b <;> simp [TreeSizes.addThrough, add_right_comm]

/-- Two lists give the same sums if they agree on the nodes that count. -/
lemma foldl_addThrough_eq {tag : Asn → ThroughN} {W : Asn → UInt16} {l₁ l₂ : List Asn}
    (h₁ : l₁.Nodup) (h₂ : l₂.Nodup) (h : ∀ i, tag i ≠ .empty → (i ∈ l₁ ↔ i ∈ l₂)) (z : TreeSizes) :
    l₁.foldl (fun z i => z.addThrough (tag i) (W i)) z =
      l₂.foldl (fun z i => z.addThrough (tag i) (W i)) z := by
  have hfilter : ∀ (l : List Asn) (z : TreeSizes),
      l.foldl (fun z i => z.addThrough (tag i) (W i)) z =
        (l.filter fun i => tag i ≠ .empty).foldl (fun z i => z.addThrough (tag i) (W i)) z := by
    intro l
    induction l with
    | nil => exact fun _ => rfl
    | cons i l ih =>
      intro z
      rw [foldl_cons, filter_cons]
      by_cases hi : tag i = .empty
      · rw [if_neg (by simpa using hi), hi, TreeSizes.addThrough]
        exact ih z
      · rw [if_pos (by simpa using hi), foldl_cons]
        exact ih _
  rw [hfilter l₁, hfilter l₂]
  have hperm : (l₁.filter fun i => tag i ≠ .empty).Perm (l₂.filter fun i => tag i ≠ .empty) := by
    refine (perm_ext_iff_of_nodup (h₁.filter _) (h₂.filter _)).mpr fun i => ?_
    rw [mem_filter, mem_filter]
    refine and_congr_left fun hi => h i ?_
    simpa using hi
  exact hperm.foldl_eq' (fun i _ j _ z => addThrough_right_comm z _ _ _ _) z

/-- The sums of a node, by the ways in which paths lead through it. -/
lemma tempU_eq_foldl_addThrough {W : Asn → UInt16} (hc : Chosen P S D)
    (hv : ValidTables P g D.toRouteTables)
    (hroot : D.chosenPath D.destination = some [D.destination])
    (hnone : ∀ i, D.best i = none → D.chosenPath i = none) (hn : n ≠ D.destination) :
    tempU W D n = (range numASNs).foldl
      (fun z i => z.addThrough (hitTag (hits D n i)) (W i)) {} := by
  have hstep : (fun z i => (hits D n i).foldl (fun z col => z.addColumn col (W i)) z) =
      fun (z : TreeSizes) i => z.addThrough (hitTag (hits D n i)) (W i) := by
    funext z i
    have hcases : hits D n i = [] ∨ ∃ col, hits D n i = [col] := by
      by_cases hi : D.best i = none
      · exact .inl (by simp [hits, hnone i hi])
      · exact hits_eq_nil_or_singleton hc hv hroot hi
    rcases hcases with h | ⟨col, h⟩
    · rw [h]
      rfl
    · rw [h, foldl_cons, foldl_nil, addColumn_eq]
      rfl
  rw [tempU_apply hn, hstep]

end Hits

/-! ### The worker and the full recomputation -/

section Results

variable {P : Params} {g : NetworkGraph} {T : RouteTables} {S : Asn → Bool} {n : Asn}
  {W : Asn → UInt16}

/-- The run of the worker for a node below the destination. -/
lemma computeUtility_spec (hv : ValidTables P g T) {t t' : Asn → NodeRoute}
    {tag : Asn → ThroughN} (ht : Solution P T S t) (ht' : Solution P T (flipState S n) t')
    (hn : T.best n ≠ none) (hne : n ≠ T.destination) (htags : Tagging T t' n tag)
    (f : UtilityComputationType) (bestRelation : ℕ) :
    computeUtility f T (fun i => (t i).parent) (fun i => (t i).secP) S n (T.L n) bestRelation W =
      some ⟨utilityComputation ((T.order (T.L n + 1)).foldl
          (fun z i => z.addThrough (tag i) (W i)) {}) bestRelation (W T.destination) f, S,
        fun i => (t i).parent, fun i => (t i).secP⟩ := by
  have hL : T.L n ≠ 0 := fun h0 => hne (hv.graded.eq_root hn h0)
  have hone : 1 ≤ T.L n + 1 := by omega
  obtain ⟨s₁, hs₁, hinv₁, hsizes₁⟩ := updateN_spec hv ht ht' hn hne htags
  obtain ⟨s₂, hs₂, hinv₂, hsizes₂⟩ := foldlM_workerStep (W := W) hv ht ht' htags
    hinv₁ (l := T.bucketNodes (T.L n + 1)) (fun e he => by
      obtain ⟨h₁, h₂, h₃, h₄, h₅⟩ := (hv.mem_bucketNodes hone).1 he
      refine ⟨h₂, h₁, h₃, by rw [← h₄, ← h₅], fun hc => by omega, fun p hp => ?_⟩
      -- a parent is in the row of `n` or above, or it is among the nodes below `n` itself
      obtain ⟨hbp, hLp⟩ := hv.parent _ h₁ p hp
      by_cases hle : T.L p ≤ T.L n
      · exact .inl ⟨hbp, hle⟩
      · refine .inr ((hv.mem_order hone).2 ⟨?_, hbp, by omega⟩)
        rintro rfl
        rw [hv.L_root] at hle
        omega) (hv.ordered hone)
  have hflip : update s₂.S n (!s₂.S n) = S := by
    rw [hinv₂.S_eq, flipState, update_idem, update_self, Bool.not_not,
      update_eq_self]
  have hparent : s₂.paramChosenParent = fun i => (t i).parent := funext hinv₂.params_parent
  have hsecP : s₂.paramSecP = fun i => (t i).secP := funext hinv₂.params_secP
  rw [hsizes₁] at hsizes₂
  unfold computeUtility
  rw [if_neg hL]
  simp only [flipState] at hs₁
  simp only [bind_eq_bind, hs₁, bind_some, hs₂, hv.bucket_root, head?_cons,
    Option.pure_def, hflip, hparent, hsecP, hsizes₂]
  rfl

/-- **The worker agrees with the full recomputation.**  Let no member of a best set have the largest
number as its key.  Whatever recomputations came before, the utility that the worker computes after
a recomputation for `S` is the one that a recomputation for `S` with `n` flipped and `computeU`
give, and the arrays that it was given are unchanged. -/
theorem computeUtility_eq_computeU (P : Params) (g : NetworkGraph) (d : Asn) (readOnly : Bool)
    (m : MiniDestination) (h : initMiniDestination P g d readOnly = some m)
    (hkeys : ∀ i, i ≠ d → ∀ p ∈ m.bestSet i, tieBreakKey P i p ≠ uint32Max)
    (f : UtilityComputationType) (W : Asn → UInt16) (S : Asn → Bool) (n : Asn)
    (hn : m.best n ≠ none ∨ m.L n = 0) (D₀ D₁ : Destination) (hD₀ : Derived P m D₀)
    (hD₁ : Derived P m D₁) :
    ∃ D D' r, updatePaths P S D₀ = some D ∧ updatePaths P (flipState S n) D₁ = some D' ∧
      computeUtility f D.toRouteTables D.chosenParent D.secP S n (D.L n) (D.bestRelation n) W =
        some r ∧
      r.utility.toInt = (computeU f W D').U n ∧
      r.S = S ∧ r.chosenParent = D.chosenParent ∧ r.secP = D.secP := by
  have hv := validTables_initMiniDestination h
  obtain ⟨-, -, rfl, -⟩ := exists_routingTree h
  have hreturns : ∀ S D, Derived P m D → ∃ D', updatePaths P S D = some D' := by
    intro S D hD
    refine (hD.valid hv).updatePaths_isSome_iff.2 fun i hi hne => ?_
    refine (hD.valid hv).canChoose hi hne ?_
    rw [hD.tables hv] at hne ⊢
    exact hkeys i hne
  obtain ⟨D, hD⟩ := hreturns S D₀ hD₀
  obtain ⟨D', hD'⟩ := hreturns (flipState S n) D₁ hD₁
  have hchosen := ((hD₀.valid hv).updatePaths_eq_some_iff.1 hD).1
  have hchosen' := ((hD₁.valid hv).updatePaths_eq_some_iff.1 hD').1
  have hframe' := (hD₁.updated hD').sameFrame hv
  have hroot' := (hD₁.updated hD').path_root hv
  obtain ⟨T, secP, parent, path, U⟩ := D
  obtain rfl : T = m.toRouteTables := (hD₀.updated hD).tables hv
  obtain ⟨T', secP', parent', path', U'⟩ := D'
  obtain rfl : T' = m.toRouteTables := hframe'.tables
  have hnone : ∀ i, m.best i = none → path' i = none := by
    intro i hi
    have hne : i ≠ m.destination := by
      rintro rfl
      simp [hv.best_root] at hi
    refine (congrArg NodeRoute.path (hframe'.none i hi)).trans ?_
    simp [Destination.route, Destination.ofMiniDestination, hne]
  by_cases hL : m.L n = 0
  · -- nobody routes through a node without a route, and the destination counts nothing
    refine ⟨_, _, ⟨0, S, parent, secP⟩, hD, hD', by rw [computeUtility, if_pos hL], ?_, rfl, rfl,
      rfl⟩
    have hzero : tempU W ⟨m.toRouteTables, secP', parent', path', U'⟩ n = {} := by
      by_cases hb : m.best n = none
      · refine tempU_of_hits_eq_nil fun i => ?_
        by_cases hi : m.best i = none
        · simp [hits, hnone i hi]
        · exact hits_eq_nil hchosen' hv hroot' hi (Or.inl hb)
      · rw [hv.graded.eq_root hb hL]
        exact tempU_destination
    rw [computeU_U, hzero, utilityComputation_zero]
  · have hb : m.best n ≠ none := hn.resolve_right hL
    have hne : n ≠ m.destination := fun he => hL (he ▸ hv.L_root)
    have ht : Solution P m.toRouteTables S fun i => ⟨secP i, parent i, path i⟩ :=
      ⟨hchosen.secP_root, hchosen.step⟩
    have ht' : Solution P m.toRouteTables (flipState S n) fun i => ⟨secP' i, parent' i, path' i⟩ :=
      ⟨hchosen'.secP_root, hchosen'.step⟩
    generalize htag : (fun i => hitTag (hits ⟨m.toRouteTables, secP', parent', path', U'⟩ n i)) =
      tag
    have htag_nil : ∀ i, hits ⟨m.toRouteTables, secP', parent', path', U'⟩ n i = [] →
        tag i = .empty := by
      intro i hi
      rw [← htag]
      exact congrArg hitTag hi
    have htags : Tagging m.toRouteTables (fun i => ⟨secP' i, parent' i, path' i⟩) n tag := by
      refine ⟨fun i hi hle => htag_nil i (hits_eq_nil hchosen' hv hroot' hi (Or.inr hle)),
        fun i hi hne => ?_⟩
      rw [← htag]
      dsimp only
      rw [hits_step hchosen' hv hroot' hi hne]
      split_ifs <;> rfl
    have hspec := computeUtility_spec (W := W) hv ht ht' hb hne htags f (m.bestRelation n)
    refine ⟨_, _, _, hD, hD', hspec, ?_, rfl, rfl, rfl⟩
    rw [computeU_U, tempU_eq_foldl_addThrough hchosen' hv hroot' hnone hne]
    have hone : 1 ≤ m.L n + 1 := by omega
    -- who counts has a route and is below `n`
    have hcount : ∀ i, tag i ≠ .empty → (i ∈ m.order (m.L n + 1) ↔ i ∈ range numASNs) := by
      intro i hi
      have hbi : m.best i ≠ none := fun hc => hi (htag_nil i (by simp [hits, hnone i hc]))
      have hLi : m.L n < m.L i := by
        by_contra hc
        exact hi (htag_nil i (hits_eq_nil hchosen' hv hroot' hbi (Or.inr (Nat.not_lt.mp hc))))
      have hid : i ≠ m.destination := by
        rintro rfl
        rw [hv.L_root] at hLi
        omega
      rw [hv.mem_order hone, mem_range]
      exact ⟨fun _ => (hv.lt i hbi).1, fun _ => ⟨hid, hbi, hLi⟩⟩
    have hsums := foldl_addThrough_eq (W := W) (hv.order_pairwise hone).1 nodup_range hcount {}
    rw [← htag] at hsums ⊢
    rw [hsums]

/-- The theorem at this graph, where all nodes but one take part in the deployment of security and
the provider through which the customer has a secure route would leave it. -/
theorem computeUtility_eq_computeU_four_nodes :
    ∃ m, initMiniDestination {} fourNodes 1 false = some m ∧ m.bestSet 3 = [2, 4] ∧
      (∀ i, i ≠ 1 → ∀ p ∈ m.bestSet i, tieBreakKey {} i p ≠ uint32Max) ∧ m.best 2 ≠ none ∧
      ∃ D D' r, updatePaths {} (fun a => a ≠ 4) (Destination.ofMiniDestination m) = some D ∧
        updatePaths {} (flipState (fun a => a ≠ 4) 2) (Destination.ofMiniDestination m) = some D' ∧
        computeUtility .outgoing D.toRouteTables D.chosenParent D.secP (fun a => a ≠ 4) 2 (D.L 2)
          (D.bestRelation 2) (fun _ => 7) = some r ∧
        r.utility.toInt = (computeU .outgoing (fun _ => 7) D').U 2 := by
  have hrun : ((initMiniDestination {} fourNodes 1 false).map fun m =>
      decide (m.best 2 = some [1] ∧ m.bestSet 3 = [2, 4] ∧
        ∀ i ∈ (searchedGraph fourNodes false).asNodes,
        i ≠ 1 → ∀ p ∈ m.bestSet i, hash6432shift i p ≠ uint32Max)) = some true := by
    decide +kernel
  obtain ⟨m, hm, h2⟩ := map_eq_some_iff.mp hrun
  obtain ⟨hbest, hset, hnodes⟩ := of_decide_eq_true h2
  have hv := validTables_initMiniDestination hm
  obtain ⟨-, -, hd, -⟩ := exists_routingTree hm
  have hkeys : ∀ i, i ≠ 1 → ∀ p ∈ m.bestSet i, tieBreakKey {} i p ≠ uint32Max := by
    intro i hi p hp
    have hneighbor := (hv.hop i (by rw [hd]; exact hi) p hp).1
    exact hnodes i (NetworkGraph.mem_asNodes_of_mem_getNeighborsByType hneighbor) hi p hp
  have hb : m.best 2 ≠ none := by simp [hbest]
  obtain ⟨D, D', r, h₁, h₂, h₃, h₄, -⟩ :=
    computeUtility_eq_computeU {} _ 1 false m hm hkeys .outgoing (fun _ => 7) (fun a => a ≠ 4) 2
      (Or.inl hb) _ _ .init .init
  exact ⟨m, hm, hset, hkeys, hb, D, D', r, h₁, h₂, h₃, h₄⟩

end Results

end Astoria
