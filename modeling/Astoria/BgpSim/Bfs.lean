import Mathlib
import Astoria.BgpSim.NetworkGraph
import Astoria.Library.LevelSearch.Machine

/-!
# The modified breadth-first search

`executeBfs` is one pass of the routing algorithm.  It follows the edges of the given types from the
destination, keeps what earlier passes have found, and fills the routing tables on the way: `best`
(all next hops of equal quality), `bucketTable` (the nodes by depth and by column), `chosenPath` and
`chosenParent` (the tie-break winner), `L` (the depth) and `bestRelation` (the column).
`routingTreeAlg` runs three passes: customer routes, peer routes, provider routes.

The source keeps the search state in the nodes of the graph and passes the tables by reference; here
both form one `BfsState`.  An array is a function of its index, and `none` models an exception: an
index outside an array, a null reference, one of the sanity checks of the source, or a child list
that changes while it is enumerated.
-/

namespace Astoria

open Function
open RelationshipType

/-- The static switches of the simulator, with their defaults. -/
structure Params where
  /-- Whether ties are broken by hash values (`Hash`). -/
  hash : Bool := true
  /-- Whether stubs ignore security when they break ties (`stubsDontCare`). -/
  stubsDontCare : Bool := false
  /-- Whether short paths get equal weight (`useLessHarshWeight`). -/
  useLessHarshWeight : Bool := false

/-- The static switch `OnlyNonStubs`, at the value it has unless an experiment changes it. -/
def onlyNonStubs : Bool := false

/-- The column of customer routes (`_CUSTOMERCOLUMN`). -/
def customerColumn : ℕ := 0

/-- The column of peer routes (`_PEERCOLUMN`). -/
def peerColumn : ℕ := 1

/-- The column of provider routes (`_PROVIDERCOLUMN`). -/
def providerColumn : ℕ := 2

/-! ### Tie-breaking -/

/-- The hash by which the node `u` ranks its potential parent `v`. -/
def hash6432shift (u v : Asn) : ℕ :=
  let key : UInt64 := (UInt64.ofNat u <<< 32) ||| UInt64.ofNat v
  let key := (~~~key) + (key <<< 18)
  let key := key ^^^ (key >>> 31)
  let key := key * 21
  let key := key ^^^ (key >>> 11)
  let key := key + (key <<< 6)
  let key := key ^^^ (key >>> 22)
  key.toUInt32.toNat

/-- The largest value of an unsigned 32-bit integer (`UInt32.MaxValue`). -/
def uint32Max : ℕ := 2 ^ 32 - 1

/-- The number by which `tieBreak` compares potential parents. -/
def tieBreakKey (P : Params) (currNode i : Asn) : ℕ :=
  if P.hash then hash6432shift currNode i else i

/-- The first member of the tie-break set with the smallest key, as far as it is below the largest
32-bit number, where the minimum starts. -/
def tieBreak (P : Params) (tieBreakSet : List Asn) (currNode : Asn) : Asn :=
  (tieBreakSet.foldl (fun (acc : ℕ × Asn) i =>
    if tieBreakKey P currNode i < acc.1 then (tieBreakKey P currNode i, i) else acc)
    (uint32Max, uint32Max)).2

/-- Whether a new route through `newNode` replaces the route of `oppositeNode` through its present
parent.  With `includeSibling`, routes over siblings lose against others
(`NewRouteWinsTieBreak` and, without hashing, `NewRouteWinsTieBreakOriginal`). -/
def newRouteWinsTieBreak (P : Params) (g : NetworkGraph) (includeSibling : Bool)
    (newNode oppositeNode parent : Asn) : Bool :=
  let otherRouteIsViaSiblings := includeSibling && parent ∈ g.neighbors oppositeNode siblingOf
  let newRouteIsViaSiblings := includeSibling && oppositeNode ∈ g.neighbors newNode siblingOf
  if otherRouteIsViaSiblings && !newRouteIsViaSiblings then true
  else if !otherRouteIsViaSiblings && newRouteIsViaSiblings then false
  else tieBreakKey P oppositeNode newNode < tieBreakKey P oppositeNode parent

/-! ### Annotated paths -/

/-- Mark an AS number with the column of the edge that leads to it, in 32 bits. -/
def join (asn col : ℕ) : ℕ := (asn * 8 % 2 ^ 32 + col) % 2 ^ 32

/-- The AS number and the column of a marked AS number. -/
def unjoin (joined : ℕ) : Asn × ℕ := (joined / 8, joined % 8)

/-- The path of `currASN` over its parent, given the parent's path.  The first entry of a path is
the AS itself, the others are marked with columns. -/
def updatePath (currASN : Asn) (parentPath : Option (List ℕ)) (relationshipType : ℕ) : List ℕ :=
  match parentPath with
  | some (parent :: rest) =>
    if parent ≠ currASN then currASN :: join parent relationshipType :: rest else [currASN]
  | _ => [currASN]

/-! ### The search state -/

/-- The search state of the nodes and the routing tables. -/
structure BfsState where
  /-- The state of a node within the current pass. -/
  inProcessBfsStatus : Asn → LevelSearch.Status
  /-- Whether the node was discovered in an earlier pass (`PriorBfsStatus`). -/
  discoveredInPriorBfs : Asn → Bool
  /-- The parent in the search tree. -/
  bfsParentNode : Asn → Option Asn
  /-- The depth in the search tree. -/
  bfsDepth : Asn → ℕ
  /-- The children in the search tree (the neighbour list `BfsParentOf`). -/
  bfsChildren : Asn → List Asn
  /-- The nodes waiting to be examined. -/
  nodeQueue : List Asn
  /-- The next hops of equally good routes. -/
  best : Asn → Option (List Asn)
  /-- The neighbours over which a route was seen, marked with columns. -/
  bestNew : Asn → Option (List ℕ)
  /-- The nodes by row (depth) and column. -/
  bucketTable : ℕ → ℕ → Option (List Asn)
  /-- The path over the tie-break winners. -/
  chosenPath : Asn → Option (List ℕ)
  /-- The tie-break winner. -/
  chosenParent : Asn → Asn
  /-- The length of the route, in one byte. -/
  L : Asn → ℕ
  /-- The column of the route. -/
  bestRelation : Asn → ℕ

/-- The reinitialised search state with new tables. -/
def BfsState.initial : BfsState where
  inProcessBfsStatus _ := .unseen
  discoveredInPriorBfs _ := false
  bfsParentNode _ := none
  bfsDepth _ := 2 ^ 31 - 1
  bfsChildren _ := []
  nodeQueue := []
  best _ := none
  bestNew _ := none
  bucketTable _ _ := none
  chosenPath _ := none
  chosenParent _ := 0
  L _ := 0
  bestRelation _ := 0

/-- The arguments of a pass. -/
structure BfsArgs where
  graph : NetworkGraph
  /-- The node at which the search starts. -/
  srcNodeNum : Asn
  /-- Whether new nodes are not searched further. -/
  limitedDiscovery : Bool
  /-- Whether non-siblings are preferred. -/
  includeSibling : Bool
  allowedRelationships : List RelationshipType

/-- The column that a pass fills. -/
def column (allowedRelationships : List RelationshipType) : Option ℕ :=
  if customerOf ∈ allowedRelationships ∨ allowedRelationships = [] then some customerColumn
  else if providerTo ∈ allowedRelationships then some providerColumn
  else if peerOf ∈ allowedRelationships then some peerColumn
  else none

/-- Whether the routes of a node are recorded. -/
def isRecorded (g : NetworkGraph) (n : Asn) : Bool := !g.isStub n || !onlyNonStubs

/-- Append a node to a cell of the bucket table, creating the list if needed. -/
def addToBucket (bucketTable : ℕ → ℕ → Option (List Asn)) (row col : ℕ) (n : Asn) :
    ℕ → ℕ → Option (List Asn) :=
  update bucketTable row
    (update (bucketTable row) col (some ((bucketTable row col).getD [] ++ [n])))

/-- The mark under which `cur` enters the list `bestNew` of `opp`; zero if there is none. -/
def encodedNeighbor (b : BfsArgs) (cur opp : Asn) : ℕ :=
  let rel := b.graph.getRelationshipTypeOfNeighbor cur opp
  if rel = some providerTo ∧ providerTo ∈ b.allowedRelationships then join cur providerColumn
  else if (rel = some customerOf ∧ customerOf ∈ b.allowedRelationships) ∨
      b.allowedRelationships = [] then join cur customerColumn
  else if rel = some peerOf ∧ peerOf ∈ b.allowedRelationships then join cur peerColumn
  else 0

/-! ### One visit -/

section Visit

variable (P : Params) (b : BfsArgs) (cur : Asn) (s : BfsState) (opp : Asn)

/-- The routing tables after a node has been discovered. -/
def recordDiscovered : BfsState :=
  let depth := s.bfsDepth cur + 1
  let s := { s with L := update s.L opp (depth % 256) }
  let s := match column b.allowedRelationships with
    | some col =>
      { s with
        bestRelation := update s.bestRelation opp col
        bucketTable := addToBucket s.bucketTable depth col opp
        chosenPath :=
          update s.chosenPath opp (some (updatePath opp (s.chosenPath cur) col)) }
    | none => s
  { s with
    best := update s.best opp (some ((s.best opp).getD [] ++ [cur]))
    chosenParent := update s.chosenParent opp cur
    bestNew := update s.bestNew opp
      (some ((s.bestNew opp).getD [] ++ [encodedNeighbor b cur opp])) }

/-- Case 1: a newly discovered node, also unseen in earlier passes. -/
def visitDiscovered : BfsState :=
  let s' := if isRecorded b.graph opp then recordDiscovered b cur s opp else s
  { s' with
    inProcessBfsStatus := update s.inProcessBfsStatus opp .seen
    bfsDepth := update s.bfsDepth opp (s.bfsDepth cur + 1)
    bfsParentNode := update s.bfsParentNode opp (some cur)
    bfsChildren := update s.bfsChildren cur (s.bfsChildren cur ++ [opp])
    nodeQueue := if b.limitedDiscovery then s.nodeQueue else s.nodeQueue ++ [opp] }

/-- Case 2: a node of an earlier pass, met from its parent. -/
def visitRejoined : BfsState :=
  { s with
    inProcessBfsStatus := update s.inProcessBfsStatus opp .seen
    nodeQueue := s.nodeQueue ++ [opp] }

/-- The new route wins the tie-break: it becomes the chosen one. -/
def switchParent (parent : Asn) : BfsState :=
  let children := update s.bfsChildren parent ((s.bfsChildren parent).erase opp)
  let s := { s with
    bfsChildren := update children cur (children cur ++ [opp])
    bfsParentNode := update s.bfsParentNode opp (some cur) }
  if isRecorded b.graph opp then
    let s := { s with chosenParent := update s.chosenParent opp cur }
    match column b.allowedRelationships with
    | some col =>
      { s with
        chosenPath :=
          update s.chosenPath opp (some (updatePath opp (s.chosenPath cur) col)) }
    | none => s
  else s

/-- The best set grows whether or not the new route wins the tie-break. -/
def addToBest : BfsState :=
  if isRecorded b.graph opp then
    { s with best := update s.best opp (some ((s.best opp).getD [] ++ [cur])) }
  else s

/-- Whether `opp` is met again on a route of the same length that may be used. -/
def isTie : Bool :=
  s.inProcessBfsStatus opp = .seen ∧ s.bfsDepth opp = s.bfsDepth cur + 1 ∧
    s.discoveredInPriorBfs opp = false

/-- The routes of `opp` after it has been met from `cur`. -/
def visitRoute : Option BfsState :=
  if s.inProcessBfsStatus opp = .unseen then
    if s.discoveredInPriorBfs opp = false then
      -- the bucket table has a bounded number of rows
      if isRecorded b.graph opp ∧ (column b.allowedRelationships).isSome ∧
          maxPathLen ≤ s.bfsDepth cur + 1 then none
      else some (visitDiscovered b cur s opp)
    else if s.bfsParentNode opp = some cur then
      -- "Unexpected BFS depth during BFS re-run"
      if s.bfsDepth opp = s.bfsDepth cur + 1 then some (visitRejoined s opp) else none
    else some s
  else if isTie cur s opp then
    match s.bfsParentNode opp with
    | none => none
    | some parent =>
      if newRouteWinsTieBreak P b.graph b.includeSibling cur opp parent then
        -- "Child not found"
        if opp ∈ s.bfsChildren parent then
          some (addToBest b cur (switchParent b cur s opp parent) opp)
        else none
      else some (addToBest b cur s opp)
  else some s

/-- Enter `cur` into `bestNew` of a node that has a best set. -/
def addToBestNew : BfsState :=
  if s.best opp = none then s
  else
    let seen := (s.bestNew opp).getD []
    let encoded := encodedNeighbor b cur opp
    { s with
      bestNew := update s.bestNew opp (some
        (if join cur providerColumn ∈ seen ∨ join cur customerColumn ∈ seen ∨
            join cur peerColumn ∈ seen then seen
          else if encoded ≠ 0 then seen ++ [encoded]
          else seen)) }

/-- The node `opp` is met from `cur`.  The tables have no entry for AS numbers from `numASNs` on. -/
def visit : Option BfsState :=
  if numASNs ≤ opp then none
  else (visitRoute P b cur s opp).map fun s => addToBestNew b cur s opp

/-- Whether meeting `opp` gives `cur` a new child. -/
def addsChild : Bool :=
  if s.inProcessBfsStatus opp = .unseen then !s.discoveredInPriorBfs opp
  else isTie cur s opp && (s.bfsParentNode opp).any fun parent =>
    newRouteWinsTieBreak P b.graph b.includeSibling cur opp parent

/-- The node `opp` is met while the children of `cur` are enumerated; the enumeration does not
survive a change of the list. -/
def visitChild : Option BfsState :=
  if addsChild P b cur s opp then none else visit P b cur s opp

end Visit

/-! ### One pass -/

section Pass

variable (P : Params) (b : BfsArgs)

/-- The distinct neighbours that are visited from `cur`. -/
def visitedNeighbors (cur : Asn) : List Asn :=
  (b.graph.getNeighborsByType cur b.allowedRelationships).eraseDups

/-- The children of `cur` that are enumerated after the neighbours: without any relationship flag
the children are not enumerated, and what was enumerated before is not repeated. -/
def visitedChildren (cur : Asn) (s : BfsState) : List Asn :=
  if b.allowedRelationships = [] then []
  else ((s.bfsChildren cur).filter (· ∉ visitedNeighbors b cur)).eraseDups

/-- Examine the dequeued node `cur`. -/
def examine (s : BfsState) (cur : Asn) : Option BfsState := do
  let s ← (visitedNeighbors b cur).foldlM (visit P b cur) s
  let s ← (visitedChildren b cur s).foldlM (visitChild P b cur) s
  return { s with inProcessBfsStatus := update s.inProcessBfsStatus cur .processed }

/-- Examine the nodes of the queue until it is empty.  The loop is given fuel, and it fails if the
fuel does not suffice. -/
def loop : ℕ → BfsState → Option BfsState
  | fuel, s =>
    match s.nodeQueue with
    | [] => some s
    | cur :: queue =>
      match fuel with
      | 0 => none
      | fuel + 1 => (examine P b { s with nodeQueue := queue } cur).bind (loop fuel)

def visitSource (s : BfsState) : BfsState :=
  { s with
    inProcessBfsStatus := update s.inProcessBfsStatus b.srcNodeNum .seen
    bfsDepth := update s.bfsDepth b.srcNodeNum 0
    nodeQueue := [b.srcNodeNum]
    chosenPath := update s.chosenPath b.srcNodeNum (some [b.srcNodeNum])
    best := update s.best b.srcNodeNum (some [b.srcNodeNum])
    bucketTable :=
      if customerOf ∈ b.allowedRelationships ∨ b.allowedRelationships = [] then
        update s.bucketTable 0
          (update (s.bucketTable 0) customerColumn (some [b.srcNodeNum]))
      else s.bucketTable }

/-- Lock the discovered nodes into the search tree. -/
def lockDiscovered (s : BfsState) : BfsState :=
  { s with
    discoveredInPriorBfs := fun n =>
      s.discoveredInPriorBfs n || (n ∈ b.graph.asNodes && s.inProcessBfsStatus n ≠ .unseen)
    inProcessBfsStatus := fun n =>
      if n ∈ b.graph.asNodes then .unseen else s.inProcessBfsStatus n }

/-- One pass of the search.  The source must be a node, and the tables must have an entry for it.
No node is enqueued twice, so that the number of nodes is enough fuel. -/
def executeBfs (s : BfsState) : Option BfsState :=
  if b.srcNodeNum ∉ b.graph.asNodes ∨ numASNs ≤ b.srcNodeNum then none
  else (loop P b b.graph.asNodes.length (visitSource b s)).map (lockDiscovered b)

end Pass

/-! ### The routing algorithm -/

/-- The first pass: routes over customers. -/
def customerPass (g : NetworkGraph) (d : Asn) : BfsArgs where
  graph := g
  srcNodeNum := d
  limitedDiscovery := false
  includeSibling := true
  allowedRelationships := [customerOf, siblingOf]

/-- The second pass: routes over one peer. -/
def peerPass (g : NetworkGraph) (d : Asn) : BfsArgs where
  graph := g
  srcNodeNum := d
  limitedDiscovery := true
  includeSibling := false
  allowedRelationships := [peerOf]

/-- The third pass: routes over providers. -/
def providerPass (g : NetworkGraph) (d : Asn) : BfsArgs where
  graph := g
  srcNodeNum := d
  limitedDiscovery := false
  includeSibling := true
  allowedRelationships := [providerTo, siblingOf]

/-- The routing tree of the destination `d`. -/
def routingTreeAlg (P : Params) (g : NetworkGraph) (d : Asn) : Option BfsState := do
  let s ← executeBfs P (customerPass g d) BfsState.initial
  let s ← executeBfs P (peerPass g d) s
  executeBfs P (providerPass g d) s

end Astoria
