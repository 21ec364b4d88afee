import Astoria.BgpSim.SecurePaths

/-!
# Utilities

The utility of a node measures the traffic that it transits.  `computeU` walks along all chosen
paths and adds the weight of the source of a path to the sums of every node on the way, by the
column of the edge over which the path enters the node.  The sums are 32-bit integers that wrap
around; which of them a utility is made of depends on the utility function.

For a single node, the walk amounts to a fold over all sources, each of which counts with the column
under which its path enters the node (`tempU_apply`).
-/

namespace Astoria

open List Function

/-- What is added up for a node. -/
structure TreeSizes where
  /-- The number of nodes that route through the node as its customers. -/
  customerTreeSize : BitVec 32 := 0
  customerWeightedTreeSize : BitVec 32 := 0
  /-- The weights of the nodes that route through the node as its peers. -/
  peerWeightedTreeSize : BitVec 32 := 0
  /-- The weights of the nodes that route through the node as its providers. -/
  providerWeightedTreeSize : BitVec 32 := 0

/-! ### Utility functions -/

/-- The utility functions that can be selected. -/
inductive UtilityComputationType
  /-- `basicUtility`. -/
  | basic
  /-- `incomingUtility`. -/
  | incoming
  /-- `outgoingUtility`. -/
  | outgoing
  /-- `sourceUtility`. -/
  | source

section Functions

variable (s : TreeSizes) (bestRelation : ℕ) (dWeight : UInt16)

/-- The size of the customer tree. -/
def basicUtility : BitVec 32 := s.customerTreeSize

/-- The size of the customer tree, weighted by the destination. -/
def incomingUtility : BitVec 32 := s.customerTreeSize * BitVec.ofNat 32 dWeight.toNat

/-- The weight of all traffic that leaves over a customer. -/
def outgoingUtility : BitVec 32 :=
  if bestRelation ≠ customerColumn then 0
  else s.customerWeightedTreeSize + s.peerWeightedTreeSize + s.providerWeightedTreeSize

/-- The weight of the customer tree. -/
def sourceUtility : BitVec 32 := s.customerWeightedTreeSize

/-- The selected utility function. -/
def utilityComputation : UtilityComputationType → BitVec 32
  | .basic => basicUtility s
  | .incoming => incomingUtility s dWeight
  | .outgoing => outgoingUtility s bestRelation
  | .source => sourceUtility s

end Functions

lemma utilityComputation_zero (bestRelation : ℕ) (dWeight : UInt16) (f : UtilityComputationType) :
    utilityComputation {} bestRelation dWeight f = 0 := by
  cases f
  · rfl
  · simp [utilityComputation, incomingUtility]
  · simp [utilityComputation, outgoingUtility]
  · rfl

/-! ### Utilities from the chosen paths -/

/-- Count a source of weight `w` whose path enters over an edge of the given column. -/
def TreeSizes.addColumn (s : TreeSizes) (col : ℕ) (w : UInt16) : TreeSizes :=
  if col = providerColumn then
    { s with
      customerTreeSize := s.customerTreeSize + 1
      customerWeightedTreeSize := s.customerWeightedTreeSize + BitVec.ofNat 32 w.toNat }
  else if col = peerColumn then
    { s with peerWeightedTreeSize := s.peerWeightedTreeSize + BitVec.ofNat 32 w.toNat }
  else if col = customerColumn then
    { s with providerWeightedTreeSize := s.providerWeightedTreeSize + BitVec.ofNat 32 w.toNat }
  else s

/-- Count a source of weight `w` for one AS on its path, unless this is the destination. -/
def addMark (destination : Asn) (w : UInt16) (tempU : Asn → TreeSizes) (joined : ℕ) :
    Asn → TreeSizes :=
  let asn := (unjoin joined).1
  if asn ≠ destination then
    update tempU asn ((tempU asn).addColumn (unjoin joined).2 w)
  else tempU

/-- The sums of all nodes. -/
def tempU (W : Asn → UInt16) (D : Destination) : Asn → TreeSizes :=
  (range numASNs).foldl (fun tempU i =>
    match D.chosenPath i with
    | none => tempU
    | some path => path.tail.foldl (addMark D.destination (W i)) tempU) fun _ => {}

/-- Compute the utilities of all nodes from the chosen paths. -/
def computeU (f : UtilityComputationType) (W : Asn → UInt16) (D : Destination) : Destination :=
  { D with U := fun i =>
      (utilityComputation (tempU W D i) (D.bestRelation i) (W D.destination) f).toInt }

lemma computeU_U (f : UtilityComputationType) (W : Asn → UInt16) (D : Destination) (n : Asn) :
    (computeU f W D).U n =
      (utilityComputation (tempU W D n) (D.bestRelation n) (W D.destination) f).toInt := rfl

/-! ### The sums of one node -/

/-- The columns of the edges over which the path of `i` enters `n`. -/
def hits (D : Destination) (n i : Asn) : List ℕ :=
  ((((D.chosenPath i).getD []).tail.map unjoin).filter fun mark => mark.1 = n).map Prod.snd

section Sums

variable {W : Asn → UInt16} {D : Destination} {n : Asn}

/-- A walk along a path counts for a node as often as the path enters it. -/
lemma foldl_addMark_apply {destination : Asn} (hn : n ≠ destination) (w : UInt16) (marks : List ℕ)
    (tempU : Asn → TreeSizes) :
    marks.foldl (addMark destination w) tempU n =
      (((marks.map unjoin).filter fun mark => mark.1 = n).map Prod.snd).foldl
        (fun s col => s.addColumn col w) (tempU n) := by
  induction marks generalizing tempU with
  | nil => rfl
  | cons mark marks ih =>
    rw [foldl_cons, ih, map_cons, filter_cons]
    by_cases hmark : (unjoin mark).1 = n
    · rw [if_pos (by simpa using hmark), map_cons, foldl_cons, addMark]
      simp only [hmark]
      rw [if_pos hn, update_self]
    · rw [if_neg (by simpa using hmark)]
      congr 1
      unfold addMark
      split_ifs
      · rw [update_of_ne (Ne.symm hmark)]
      · rfl

/-- Walks along paths count nothing for the destination. -/
lemma foldl_addMark_destination {destination : Asn} (w : UInt16) (marks : List ℕ)
    (tempU : Asn → TreeSizes) :
    marks.foldl (addMark destination w) tempU destination = tempU destination := by
  induction marks generalizing tempU with
  | nil => rfl
  | cons mark marks ih =>
    rw [foldl_cons, ih, addMark]
    split_ifs with hmark
    · rw [update_of_ne (Ne.symm hmark)]
    · rfl

/-- **The sums of a node** are a fold over all sources, by the columns under which their paths enter
the node. -/
theorem tempU_apply (hn : n ≠ D.destination) : tempU W D n =
    (range numASNs).foldl (fun s i =>
      (hits D n i).foldl (fun s col => s.addColumn col (W i)) s) {} := by
  unfold tempU
  generalize range numASNs = l
  have hfold : ∀ (l : List Asn) (u : Asn → TreeSizes),
      l.foldl (fun tempU i =>
        match D.chosenPath i with
        | none => tempU
        | some path => path.tail.foldl (addMark D.destination (W i)) tempU) u n =
      l.foldl (fun s i => (hits D n i).foldl (fun s col => s.addColumn col (W i)) s) (u n) := by
    intro l
    induction l with
    | nil => exact fun _ => rfl
    | cons i l ih =>
      intro u
      rw [foldl_cons, foldl_cons, ih]
      congr 1
      unfold hits
      cases D.chosenPath i with
      | none => rfl
      | some path => exact foldl_addMark_apply hn (W i) path.tail u
  exact hfold l _

lemma tempU_destination : tempU W D D.destination = {} := by
  unfold tempU
  have hfold : ∀ (l : List Asn) (u : Asn → TreeSizes),
      l.foldl (fun tempU i =>
        match D.chosenPath i with
        | none => tempU
        | some path => path.tail.foldl (addMark D.destination (W i)) tempU) u D.destination =
      u D.destination := by
    intro l
    induction l with
    | nil => exact fun _ => rfl
    | cons i l ih =>
      intro u
      rw [foldl_cons, ih]
      cases D.chosenPath i with
      | none => rfl
      | some path => exact foldl_addMark_destination (W i) path.tail u
  exact hfold _ _

/-- The sums of a node that no path enters are zero. -/
lemma tempU_of_hits_eq_nil (h : ∀ i, hits D n i = []) : tempU W D n = {} := by
  by_cases hn : n = D.destination
  · rw [hn]
    exact tempU_destination
  · rw [tempU_apply hn]
    simp only [h, foldl_nil]
    generalize range numASNs = l
    induction l with
    | nil => rfl
    | cons i l ih => exact ih

end Sums

end Astoria
