import Astoria.BgpSim.Worker

/-!
# Utilities in exact arithmetic

The sums behind a utility are 32-bit integers that wrap around.  Here are the same sums and
utilities as natural numbers.  Wrapping them (`ExactSizes.wrap`) commutes with every step that
counts a source, so the sums of the simulator are the wrapped exact sums, and a utility of the
simulator is the exact one whenever the exact one is below `2 ^ 31` (`computeU_eq_exactU`,
`computeUtility_eq_exact`).  Sums on the way may be larger.
-/

namespace Astoria

open List Option Function

/-- What is added up for a node, without wrapping around. -/
structure ExactSizes where
  /-- The number of nodes that route through the node as its customers. -/
  customerTreeSize : ℕ := 0
  customerWeightedTreeSize : ℕ := 0
  /-- The weights of the nodes that route through the node as its peers. -/
  peerWeightedTreeSize : ℕ := 0
  /-- The weights of the nodes that route through the node as its providers. -/
  providerWeightedTreeSize : ℕ := 0

namespace ExactSizes

/-- Count a source of weight `w` whose path enters over an edge of the given column. -/
def addColumn (s : ExactSizes) (col : ℕ) (w : UInt16) : ExactSizes :=
  if col = providerColumn then
    { s with
      customerTreeSize := s.customerTreeSize + 1
      customerWeightedTreeSize := s.customerWeightedTreeSize + w.toNat }
  else if col = peerColumn then
    { s with peerWeightedTreeSize := s.peerWeightedTreeSize + w.toNat }
  else if col = customerColumn then
    { s with providerWeightedTreeSize := s.providerWeightedTreeSize + w.toNat }
  else s

/-- Count a node of weight `w` by the way its path leads through the node. -/
def addThrough (s : ExactSizes) (tag : ThroughN) (w : UInt16) : ExactSizes :=
  match tag with
  | .empty => s
  | .customerOf =>
    { s with
      customerTreeSize := s.customerTreeSize + 1
      customerWeightedTreeSize := s.customerWeightedTreeSize + w.toNat }
  | .peerOf => { s with peerWeightedTreeSize := s.peerWeightedTreeSize + w.toNat }
  | .providerTo => { s with providerWeightedTreeSize := s.providerWeightedTreeSize + w.toNat }

/-- The sums as 32-bit integers. -/
def wrap (s : ExactSizes) : TreeSizes where
  customerTreeSize := BitVec.ofNat 32 s.customerTreeSize
  customerWeightedTreeSize := BitVec.ofNat 32 s.customerWeightedTreeSize
  peerWeightedTreeSize := BitVec.ofNat 32 s.peerWeightedTreeSize
  providerWeightedTreeSize := BitVec.ofNat 32 s.providerWeightedTreeSize

lemma wrap_addColumn (s : ExactSizes) (col : ℕ) (w : UInt16) :
    (s.addColumn col w).wrap = s.wrap.addColumn col w := by
  unfold addColumn TreeSizes.addColumn
  split_ifs <;> simp [wrap, BitVec.ofNat_add]

lemma wrap_addThrough (s : ExactSizes) (tag : ThroughN) (w : UInt16) :
    (s.addThrough tag w).wrap = s.wrap.addThrough tag w := by
  cases tag <;> simp [addThrough, TreeSizes.addThrough, wrap, BitVec.ofNat_add]

/-- The value of a utility function for exact sums. -/
def utility (s : ExactSizes) (bestRelation : ℕ) (dWeight : UInt16) : UtilityComputationType → ℕ
  | .basic => s.customerTreeSize
  | .incoming => s.customerTreeSize * dWeight.toNat
  | .outgoing =>
    if bestRelation ≠ customerColumn then 0
    else s.customerWeightedTreeSize + s.peerWeightedTreeSize + s.providerWeightedTreeSize
  | .source => s.customerWeightedTreeSize

/-- The utility functions compute the wrapped exact value. -/
lemma utilityComputation_wrap (s : ExactSizes) (bestRelation : ℕ) (dWeight : UInt16)
    (f : UtilityComputationType) : utilityComputation s.wrap bestRelation dWeight f =
      BitVec.ofNat 32 (s.utility bestRelation dWeight f) := by
  cases f with
  | basic => rfl
  | incoming => simp [utilityComputation, incomingUtility, utility, wrap, BitVec.ofNat_mul]
  | outgoing =>
    simp only [utilityComputation, outgoingUtility, utility, wrap]
    split_ifs
    · rfl
    · rw [BitVec.ofNat_add, BitVec.ofNat_add]
  | source => rfl

/-- **The utility functions** compute the exact value if it is below `2 ^ 31`. -/
theorem toInt_utilityComputation_wrap {s : ExactSizes} {bestRelation : ℕ} {dWeight : UInt16}
    {f : UtilityComputationType} (h : s.utility bestRelation dWeight f < 2 ^ 31) :
    (utilityComputation s.wrap bestRelation dWeight f).toInt =
      s.utility bestRelation dWeight f := by
  rw [utilityComputation_wrap, BitVec.toInt_eq_toNat_of_lt, BitVec.toNat_ofNat, Nat.mod_eq_of_lt]
  · omega
  · rw [BitVec.toNat_ofNat, Nat.mod_eq_of_lt (by omega)]
    omega

end ExactSizes

/-! ### Utilities from the chosen paths -/

/-- Count a source of weight `w` for one AS on its path, unless this is the destination. -/
def addMarkExact (destination : Asn) (w : UInt16) (tempU : Asn → ExactSizes) (joined : ℕ) :
    Asn → ExactSizes :=
  let asn := (unjoin joined).1
  if asn ≠ destination then
    update tempU asn ((tempU asn).addColumn (unjoin joined).2 w)
  else tempU

/-- The exact sums of all nodes. -/
def exactTempU (W : Asn → UInt16) (D : Destination) : Asn → ExactSizes :=
  (range numASNs).foldl (fun tempU i =>
    match D.chosenPath i with
    | none => tempU
    | some path => path.tail.foldl (addMarkExact D.destination (W i)) tempU) fun _ => {}

/-- The exact utility of a node. -/
def exactU (f : UtilityComputationType) (W : Asn → UInt16) (D : Destination) (n : Asn) : ℕ :=
  (exactTempU W D n).utility (D.bestRelation n) (W D.destination) f

section Paths

variable {f : UtilityComputationType} {W : Asn → UInt16} {D : Destination} {n : Asn}

/-- Wrapping the sums of all nodes commutes with counting a source. -/
lemma addMark_wrap (destination : Asn) (w : UInt16) (u : Asn → ExactSizes) (joined : ℕ) :
    addMark destination w (fun n => (u n).wrap) joined =
      fun n => (addMarkExact destination w u joined n).wrap := by
  funext n
  unfold addMark addMarkExact
  dsimp only
  split_ifs
  · by_cases hn : n = (unjoin joined).1
    · subst hn
      rw [update_self, update_self, ExactSizes.wrap_addColumn]
    · rw [update_of_ne hn, update_of_ne hn]
  · rfl

/-- The sums of the simulator are the wrapped exact sums. -/
lemma tempU_eq_wrap (W : Asn → UInt16) (D : Destination) :
    tempU W D = fun n => (exactTempU W D n).wrap := by
  unfold tempU exactTempU
  generalize range numASNs = sources
  have hfold : ∀ (u : Asn → ExactSizes) (i : Asn) (path : List ℕ),
      path.foldl (addMark D.destination (W i)) (fun n => (u n).wrap) =
        fun n => (path.foldl (addMarkExact D.destination (W i)) u n).wrap := by
    intro u i path
    exact foldl_hom (fun (u : Asn → ExactSizes) n => (u n).wrap) fun u joined =>
      addMark_wrap D.destination (W i) u joined
  have hzero : (fun _ => {} : Asn → TreeSizes) = (fun (u : Asn → ExactSizes) n => (u n).wrap)
    fun _ => {} := rfl
  rw [hzero]
  refine foldl_hom (fun (u : Asn → ExactSizes) n => (u n).wrap) fun u i => ?_
  cases D.chosenPath i with
  | none => rfl
  | some path => exact hfold u i path.tail

/-- If all paths lead to the destination directly, nobody transits anything. -/
lemma exactTempU_of_direct (h : ∀ i path, D.chosenPath i = some path →
    ∀ joined ∈ path.tail, (unjoin joined).1 = D.destination) : exactTempU W D = fun _ => {} := by
  have hpath : ∀ (w : UInt16) (marks : List ℕ) (u : Asn → ExactSizes),
      (∀ joined ∈ marks, (unjoin joined).1 = D.destination) →
      marks.foldl (addMarkExact D.destination w) u = u := by
    intro w marks u hmarks
    induction marks with
    | nil => rfl
    | cons mark marks ih =>
      have hmark : addMarkExact D.destination w u mark = u :=
        if_neg (not_not.mpr (hmarks mark mem_cons_self))
      rw [foldl_cons, hmark]
      exact ih fun joined hj => hmarks joined (mem_cons_of_mem mark hj)
  unfold exactTempU
  generalize range numASNs = sources
  induction sources with
  | nil => rfl
  | cons i sources ih =>
    rw [foldl_cons]
    cases hi : D.chosenPath i with
    | none => exact ih
    | some path =>
      dsimp only
      rw [hpath (W i) path.tail _ (h i path hi)]
      exact ih

/-- **The utility of a node** is exact if the exact value is below `2 ^ 31`. -/
theorem computeU_eq_exactU (h : exactU f W D n < 2 ^ 31) :
    (computeU f W D).U n = exactU f W D n := by
  rw [computeU_U, tempU_eq_wrap]
  exact ExactSizes.toInt_utilityComputation_wrap h

end Paths

/-! ### Incremental utilities -/

/-- A step of the worker, with the exact sums beside its state. -/
def workerStepExact (best : Asn → Option (List Asn)) (n : Asn) (L : ℕ) (W : Asn → UInt16)
    (s : WorkerState × ExactSizes) (e : ℕ × ℕ × Asn) : Option (WorkerState × ExactSizes) :=
  (workerStep best n L W s.1 e).map fun s' => (s', s.2.addThrough (s'.throughN e.2.2) (W e.2.2))

/-- The exact utility of `n` if it flipped its state in `S`. -/
def exactWorkerUtility (f : UtilityComputationType) (T : RouteTables) (chosenParent : Asn → Asn)
    (secP S : Asn → Bool) (n : Asn) (L bestRelation : ℕ) (W : Asn → UInt16) : Option ℕ :=
  if L = 0 then some 0
  else do
    let s ← updateN T.best n
      { S := update S n (!S n)
        paramChosenParent := chosenParent
        paramSecP := secP
        chosenParent := chosenParent
        secP := secP
        throughN := fun _ => .empty
        sizes := {} }
    let s ← (T.bucketNodes (L + 1)).foldlM (workerStepExact T.best n L W) (s, {})
    let destinations ← T.bucketTable 0 customerColumn
    let destination ← destinations.head?
    return s.2.utility bestRelation (W destination) f

section Worker

variable {best : Asn → Option (List Asn)} {n : Asn} {L : ℕ} {W : Asn → UInt16}

lemma sizes_of_updateParentWorker {i : Asn} {s s' : WorkerState}
    (h : updateParentWorker best i s = some s') : s'.sizes = s.sizes := by
  unfold updateParentWorker at h
  split_ifs at h
  · obtain ⟨parents, -, h⟩ := bind_eq_some_iff.mp h
    obtain ⟨parent, -, rfl⟩ := map_eq_some_iff.mp h
    rfl
  · rw [some.inj h]

lemma sizes_of_ifOptions {i : Asn} {s s' : WorkerState} {f : WorkerState → Option WorkerState}
    (hf : f s = some s' → s'.sizes = s.sizes) (h : ifOptions best i f s = some s') :
    s'.sizes = s.sizes := by
  obtain ⟨parents, -, h⟩ := bind_eq_some_iff.mp h
  split_ifs at h
  · exact hf h
  · rw [some.inj h]

/-- Flipping `n` counts nothing. -/
lemma sizes_of_updateN {s s' : WorkerState} (h : updateN best n s = some s') :
    s'.sizes = s.sizes := by
  obtain ⟨s₁, hs₁, rfl⟩ := map_eq_some_iff.mp h
  change s₁.sizes = s.sizes
  refine sizes_of_ifOptions (fun hf => ?_) hs₁
  split_ifs at hf
  · exact sizes_of_updateParentWorker hf
  · obtain ⟨parents, -, hf⟩ := bind_eq_some_iff.mp hf
    obtain ⟨parent, -, rfl⟩ := map_eq_some_iff.mp hf
    rfl

lemma sizes_of_workerStep {s s' : WorkerState} {e : ℕ × ℕ × Asn}
    (h : workerStep best n L W s e = some s') :
    s'.sizes = s.sizes.addThrough (s'.throughN e.2.2) (W e.2.2) := by
  obtain ⟨s₁, hs₁, rfl⟩ := map_eq_some_iff.mp h
  rw [recordNode, sizes_of_ifOptions sizes_of_updateParentWorker hs₁]
  simp only [update_self]

/-- Along a run of the worker, the sums are the wrapped exact sums. -/
lemma foldlM_workerStepExact {l : List (ℕ × ℕ × Asn)} {s s' : WorkerState} {z : ExactSizes}
    (hz : s.sizes = z.wrap) (h : l.foldlM (workerStep best n L W) s = some s') :
    ∃ z', l.foldlM (workerStepExact best n L W) (s, z) = some (s', z') ∧ s'.sizes = z'.wrap := by
  induction l generalizing s z with
  | nil =>
    obtain rfl := some.inj h
    exact ⟨z, rfl, hz⟩
  | cons e l ih =>
    rw [foldlM_cons] at h
    obtain ⟨s₁, hs₁, h⟩ := bind_eq_some_iff.mp h
    have hsizes : s₁.sizes = (z.addThrough (s₁.throughN e.2.2) (W e.2.2)).wrap := by
      rw [sizes_of_workerStep hs₁, hz, ExactSizes.wrap_addThrough]
    obtain ⟨z', hz', hwrap⟩ := ih hsizes h
    refine ⟨z', ?_, hwrap⟩
    rw [foldlM_cons, workerStepExact, hs₁]
    exact hz'

/-- **The utility of the worker** is exact if the exact value is below `2 ^ 31`. -/
theorem computeUtility_eq_exact {f : UtilityComputationType} {T : RouteTables}
    {chosenParent : Asn → Asn} {secP S : Asn → Bool} {bestRelation : ℕ} {r : WorkerResult}
    (h : computeUtility f T chosenParent secP S n L bestRelation W = some r) :
    ∃ u, exactWorkerUtility f T chosenParent secP S n L bestRelation W = some u ∧
      (u < 2 ^ 31 → r.utility.toInt = u) := by
  unfold computeUtility at h
  unfold exactWorkerUtility
  split_ifs at h ⊢ with hL
  · obtain rfl := some.inj h
    exact ⟨0, rfl, fun _ => rfl⟩
  · obtain ⟨s₁, hs₁, h⟩ := bind_eq_some_iff.mp h
    obtain ⟨s₂, hs₂, h⟩ := bind_eq_some_iff.mp h
    obtain ⟨destinations, hd, h⟩ := bind_eq_some_iff.mp h
    obtain ⟨destination, hhead, h⟩ := bind_eq_some_iff.mp h
    obtain rfl := some.inj h
    have hzero : s₁.sizes = ExactSizes.wrap {} := sizes_of_updateN hs₁
    obtain ⟨z, hz, hwrap⟩ := foldlM_workerStepExact hzero hs₂
    refine ⟨z.utility bestRelation (W destination) f, ?_, fun hlt => ?_⟩
    · simp only [hs₁, hz, hd, hhead, bind_eq_bind, bind_some, Option.pure_def]
    · dsimp only
      rw [hwrap]
      exact ExactSizes.toInt_utilityComputation_wrap hlt

end Worker

end Astoria
