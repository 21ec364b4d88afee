import Astoria.TorClient.ExitPolicy
import Astoria.TorClient.NodeWeights

/-!
# The choice of an exit, and the list of all that could be chosen

An exit is chosen for the connections that wait for one: among the relays that can serve most of
them, or if there are none, among the relays for one of the ports that will be needed, or among all
exits.  A copy of the function returns the list from which the exit would be drawn, and not the
exit.

The two agree: the list is the one from which the exit is drawn, and there is a list if and only if
there is an exit (`return_all_good_exit_server_exact`).
-/

namespace Astoria.ExitChoice

open NodeWeights (Network)

/-! ### Connections -/

/-- What a client demands (`SOCKS_COMMAND_*`). -/
inductive SocksCommand
  | connect | resolve | resolvePtr | other
  deriving DecidableEq

/-- A connection, as far as exits are concerned (`connection_t` and `entry_connection_t`). -/
structure ApConnection where
  isAp : Bool
  inCircuitWait : Bool
  markedForClose : Bool
  wantOnehop : Bool
  useBegindir : Bool
  chosenExitName : Option String
  isRendezvousStream : Bool
  isBeingHandled : Bool
  command : SocksCommand
  /-- What the policy of a relay says of the address and the port
  (`compare_tor_addr_to_node_policy`). -/
  comparePolicy : Node → AddrPolicyResult

/-- What the client knows, with the connections that there are. -/
structure ExitView extends Network where
  connections : List ApConnection
  /-- Look up a name, and warn if there is none. -/
  nodeGetByNicknameWarn : String → Option Node
  /-- The ports that will be needed (`predicted_ports_list`). -/
  predictedPorts : List ℕ
  /-- Those for which there is no circuit (`circuit_get_unhandled_ports`). -/
  unhandledPorts : List ℕ
  /-- What the policy of a relay says of a port of an unknown address. -/
  comparePortPolicy : Node → ℕ → AddrPolicyResult

variable (view : ExitView)

/-- A connection waits for a circuit (`ap_stream_wants_exit_attention`). -/
def apStreamWantsExitAttention (conn : ApConnection) : Bool :=
  conn.isAp &&
    (conn.inCircuitWait && !conn.markedForClose && !conn.wantOnehop && !conn.useBegindir &&
      conn.chosenExitName.isNone && !conn.isRendezvousStream && !conn.isBeingHandled)

/-- A relay can be the exit of a connection (`connection_ap_can_use_exit`). -/
def connectionApCanUseExit (conn : ApConnection) (exit : Node) : Bool :=
  let isOther := conn.chosenExitName.any fun name =>
    (view.nodeGetByNicknameWarn name).all fun chosenExit => chosenExit.identity ≠ exit.identity
  if isOther then false
  else if conn.useBegindir then true
  else
    let refused :=
      match conn.command with
      | .connect =>
        conn.comparePolicy exit = .rejected ||
          (conn.comparePolicy exit = .probablyRejected && conn.chosenExitName.isNone)
      | .resolve | .resolvePtr => conn.chosenExitName.isNone && exit.rejectsAll
      | .other => false
    !refused && !view.options.excludeExitNodesUnion.containsNode exit

/-- A relay serves one of some ports (`node_handles_some_port`). -/
def nodeHandlesSomePort (node : Node) (neededPorts : List ℕ) : Bool :=
  neededPorts.any fun port =>
    view.comparePortPolicy node port ≠ .rejected &&
      view.comparePortPolicy node port ≠ .probablyRejected

/-- Take away some ports (`rep_hist_remove_predicted_ports`). -/
def repHistRemovePredictedPorts (predictedPorts rmvPorts : List ℕ) : List ℕ :=
  predictedPorts.filter fun port => port ∉ rmvPorts

/-! ### The relays that serve most connections -/

/-- A relay cannot be used as an exit. -/
def skipsNode (needUptime needCapacity : Bool) (node : Node) : Bool :=
  view.digestIsMe node.identity || !node.hasDescriptor || (!node.isRunning || node.isBadExit) ||
    node.purpose ≠ .general || view.options.excludeExitNodesUnion.containsNode node ||
    (view.options.exitNodes.any fun rs => !rs.containsNode node) ||
    nodeIsUnreliable node needUptime needCapacity false ||
    !(node.isValid || view.options.allowInvalidExit) ||
    (view.options.excludeSingleHopRelays && node.allowsSingleHopExits) || node.rejectsAll

/-- The number of connections that wait (`n_pending_connections`). -/
def nPendingConnections : ℕ := view.connections.countP apStreamWantsExitAttention

/-- The number of connections that a relay serves. -/
def supportOf (node : Node) : ℕ :=
  view.connections.countP fun conn =>
    apStreamWantsExitAttention conn && connectionApCanUseExit view conn node

/-- Some relays that have been looked at: the number of connections that each one serves, which is
negative if it cannot be used, the greatest number, and how often it occurred. -/
structure Support where
  nSupported : List ℤ
  bestSupport : ℤ
  nBestSupport : ℕ

/-- Look at a relay. -/
def scanNode (needUptime needCapacity : Bool) (acc : Support) (node : Node) : Support :=
  if skipsNode view needUptime needCapacity node then
    { acc with nSupported := acc.nSupported ++ [-1] }
  else
    let n : ℤ := supportOf view node
    let acc := { acc with nSupported := acc.nSupported ++ [n] }
    -- the best number remains negative if there are connections and no relay serves one
    if 0 < nPendingConnections view ∧ n = 0 then acc
    else if acc.bestSupport < n then { acc with bestSupport := n, nBestSupport := 1 }
    else if n = acc.bestSupport then { acc with nBestSupport := acc.nBestSupport + 1 }
    else acc

/-- Look at all relays. -/
def scanNodes (needUptime needCapacity : Bool) : Support :=
  view.nodes.foldl (scanNode view needUptime needCapacity) ⟨[], -1, 0⟩

/-- The relays that serve most connections. -/
def bestExits (support : Support) : List Node :=
  ((view.nodes.zip support.nSupported).filter fun (_, n) => n = support.bestSupport).map Prod.fst

/-- The relays that are possible in an attempt: in the first one, those for a port that is
needed. -/
def possibleExits (support : Support) (neededPorts : List ℕ) (attempt : ℕ) : List Node :=
  ((view.nodes.zip support.nSupported).filter fun (node, n) =>
    n ≠ -1 && (attempt ≠ 0 || nodeHandlesSomePort view node neededPorts)).map Prod.fst

/-! ### The two functions -/

/-- How often the needs can be dropped. -/
def rank (needUptime needCapacity : Bool) : ℕ := if needUptime || needCapacity then 1 else 0

/-- Choose an exit in one of several attempts, or in none.  Ports for which there is no exit are
taken away. -/
def chooseInAttempts (support : Support) (neededPorts : List ℕ) (rand : ℕ) :
    List ℕ → List ℕ → Option Node × List ℕ
  | [], predictedPorts => (none, predictedPorts)
  | attempt :: attempts, predictedPorts =>
    match view.nodeSlChooseByBandwidth .exit (possibleExits view support neededPorts attempt)
        rand with
    | some node => (some node, predictedPorts)
    | none =>
      chooseInAttempts support neededPorts rand attempts
        (if neededPorts.length ≠ 0 then repHistRemovePredictedPorts predictedPorts neededPorts
          else predictedPorts)

/-- A good exit, and the ports that will be needed after that
(`choose_good_exit_server_general`). -/
def chooseGoodExitServerGeneral (needUptime needCapacity : Bool) (rand : ℕ) :
    Option Node × List ℕ :=
  let support := scanNodes view needUptime needCapacity
  if 0 < support.bestSupport then
    (view.nodeSlChooseByBandwidth .exit (bestExits view support) rand, view.predictedPorts)
  else if support.bestSupport = -1 ∧ (needUptime || needCapacity) then
    chooseGoodExitServerGeneral false false rand
  else chooseInAttempts view support view.unhandledPorts rand [0, 1] view.predictedPorts
termination_by rank needUptime needCapacity
decreasing_by
  rename_i h
  rw [rank, rank, if_pos h.2]
  exact Nat.one_pos

/-- The list of exits in one of several attempts, or none.  An exit is drawn only to see whether
there is one. -/
def returnInAttempts (support : Support) (neededPorts : List ℕ) (rand : ℕ) :
    List ℕ → List ℕ → Option (List Node) × List ℕ
  | [], predictedPorts => (none, predictedPorts)
  | attempt :: attempts, predictedPorts =>
    let supporting := possibleExits view support neededPorts attempt
    match view.nodeSlChooseByBandwidth .exit supporting rand with
    | some _ => (some supporting, predictedPorts)
    | none =>
      returnInAttempts support neededPorts rand attempts
        (if neededPorts.length ≠ 0 then repHistRemovePredictedPorts predictedPorts neededPorts
          else predictedPorts)

/-- All good exits, and the ports that will be needed after that
(`return_all_good_exit_server_general`). -/
def returnAllGoodExitServerGeneral (needUptime needCapacity : Bool) (rand : ℕ) :
    Option (List Node) × List ℕ :=
  let support := scanNodes view needUptime needCapacity
  if 0 < support.bestSupport then
    let supporting := bestExits view support
    match view.nodeSlChooseByBandwidth .exit supporting rand with
    | some _ => (some supporting, view.predictedPorts)
    | none => (none, view.predictedPorts)
  else if support.bestSupport = -1 ∧ (needUptime || needCapacity) then
    returnAllGoodExitServerGeneral false false rand
  else returnInAttempts view support view.unhandledPorts rand [0, 1] view.predictedPorts
termination_by rank needUptime needCapacity
decreasing_by
  rename_i h
  rw [rank, rank, if_pos h.2]
  exact Nat.one_pos

/-! ### The list and the choice -/

section Agreement

variable {view} {uptime capacity : Bool} {rand rand' : ℕ}

/-- An exit is drawn from a list of relays that are known, which is not empty; or there is neither a
list nor an exit. -/
def DrawnFrom (view : ExitView) (rand : ℕ) (exits : Option (List Node)) (choice : Option Node) :
    Prop :=
  match exits with
  | none => choice = none
  | some exits => exits ≠ [] ∧ (∀ node ∈ exits, node ∈ view.nodes) ∧
      choice = view.nodeSlChooseByBandwidth .exit exits rand

lemma mem_of_mem_zip {support : Support} {p : Node × ℤ → Bool} {node : Node}
    (h : node ∈ ((view.nodes.zip support.nSupported).filter p).map Prod.fst) :
    node ∈ view.nodes := by
  obtain ⟨⟨node', n⟩, hmem, rfl⟩ := List.mem_map.mp h
  exact (List.of_mem_zip (List.mem_filter.mp hmem).1).1

lemma draw_eq_none_iff (sl : List Node) : view.nodeSlChooseByBandwidth .exit sl rand = none ↔
    view.nodeSlChooseByBandwidth .exit sl rand' = none := by
  rw [Directory.nodeSlChooseByBandwidth_eq_none_iff, Directory.nodeSlChooseByBandwidth_eq_none_iff]

lemma drawnFrom_of_some {sl : List Node} {choice : Node} (hmem : ∀ node ∈ sl, node ∈ view.nodes)
    (h : view.nodeSlChooseByBandwidth .exit sl rand = some choice) :
    DrawnFrom view rand (some sl) (some choice) := by
  refine ⟨?_, hmem, h.symm⟩
  rintro rfl
  rw [Directory.nodeSlChooseByBandwidth_eq_none_iff.mpr rfl] at h
  exact absurd h nofun

lemma inAttempts_agree (support : Support) (neededPorts : List ℕ)
    (attempts predictedPorts : List ℕ) :
    DrawnFrom view rand
      (returnInAttempts view support neededPorts rand' attempts predictedPorts).1
      (chooseInAttempts view support neededPorts rand attempts predictedPorts).1 ∧
    (returnInAttempts view support neededPorts rand' attempts predictedPorts).2 =
      (chooseInAttempts view support neededPorts rand attempts predictedPorts).2 := by
  induction attempts generalizing predictedPorts with
  | nil => exact ⟨rfl, rfl⟩
  | cons attempt attempts ih =>
    rw [returnInAttempts, chooseInAttempts]
    cases hchoice :
        view.nodeSlChooseByBandwidth .exit (possibleExits view support neededPorts attempt)
          rand with
    | none =>
      rw [(draw_eq_none_iff _).mp hchoice]
      exact ih _
    | some choice =>
      cases hchoice' : view.nodeSlChooseByBandwidth .exit
          (possibleExits view support neededPorts attempt) rand' with
      | none =>
        rw [(draw_eq_none_iff _).mp hchoice'] at hchoice
        exact absurd hchoice nofun
      | some choice' => exact ⟨drawnFrom_of_some (fun node => mem_of_mem_zip) hchoice, rfl⟩

/-- The functions are the same when nothing is needed that could be dropped. -/
lemma agree_of_final {uptime capacity : Bool}
    (h : ¬ ((scanNodes view uptime capacity).bestSupport = -1 ∧ (uptime || capacity) = true)) :
    DrawnFrom view rand (returnAllGoodExitServerGeneral view uptime capacity rand').1
      (chooseGoodExitServerGeneral view uptime capacity rand).1 ∧
    (returnAllGoodExitServerGeneral view uptime capacity rand').2 =
      (chooseGoodExitServerGeneral view uptime capacity rand).2 := by
  rw [returnAllGoodExitServerGeneral, chooseGoodExitServerGeneral]
  dsimp only
  by_cases hbest : 0 < (scanNodes view uptime capacity).bestSupport
  · rw [if_pos hbest, if_pos hbest]
    cases hchoice : view.nodeSlChooseByBandwidth .exit
        (bestExits view (scanNodes view uptime capacity)) rand with
    | none =>
      rw [(draw_eq_none_iff _).mp hchoice]
      exact ⟨rfl, rfl⟩
    | some choice =>
      cases hchoice' : view.nodeSlChooseByBandwidth .exit
          (bestExits view (scanNodes view uptime capacity)) rand' with
      | none =>
        rw [(draw_eq_none_iff _).mp hchoice'] at hchoice
        exact absurd hchoice nofun
      | some choice' => exact ⟨drawnFrom_of_some (fun node => mem_of_mem_zip) hchoice, rfl⟩
  · rw [if_neg hbest, if_neg hbest, if_neg h, if_neg h]
    exact inAttempts_agree _ _ _ _

/-- The exit is drawn from the list, and the same ports are taken away. -/
lemma returnAll_agree (uptime capacity : Bool) :
    DrawnFrom view rand (returnAllGoodExitServerGeneral view uptime capacity rand').1
      (chooseGoodExitServerGeneral view uptime capacity rand).1 ∧
    (returnAllGoodExitServerGeneral view uptime capacity rand').2 =
      (chooseGoodExitServerGeneral view uptime capacity rand).2 := by
  by_cases h : (scanNodes view uptime capacity).bestSupport = -1 ∧ (uptime || capacity) = true
  · have hbest : ¬ 0 < (scanNodes view uptime capacity).bestSupport := by omega
    rw [returnAllGoodExitServerGeneral, chooseGoodExitServerGeneral]
    dsimp only
    rw [if_neg hbest, if_neg hbest, if_pos h, if_pos h]
    exact agree_of_final fun hfinal => absurd hfinal.2 nofun
  · exact agree_of_final h

end Agreement

/-- **The list of good exits is the one from which an exit is drawn.**  There is a list, which is
not empty, if and only if there is an exit.  Then the exit is drawn from it, so that only relays of
the list are, and all of them can be drawn if there are at most `2 ^ 30`.  The same ports are needed
after that. -/
theorem return_all_good_exit_server_exact (needUptime needCapacity : Bool) (rand : ℕ) :
    ((returnAllGoodExitServerGeneral view needUptime needCapacity rand).1 = none ↔
      ∀ rand', (chooseGoodExitServerGeneral view needUptime needCapacity rand').1 = none) ∧
    (∀ exits, (returnAllGoodExitServerGeneral view needUptime needCapacity rand).1 = some exits →
      (∀ rand', (chooseGoodExitServerGeneral view needUptime needCapacity rand').1 =
        view.nodeSlChooseByBandwidth .exit exits rand') ∧
      (∀ rand', ∃ exit ∈ exits, (chooseGoodExitServerGeneral view needUptime needCapacity rand').1 =
        some exit) ∧
      (exits.length ≤ 2 ^ 30 → ∀ exit ∈ exits, ∃ rand',
        (chooseGoodExitServerGeneral view needUptime needCapacity rand').1 = some exit)) ∧
    ∀ rand', (returnAllGoodExitServerGeneral view needUptime needCapacity rand).2 =
      (chooseGoodExitServerGeneral view needUptime needCapacity rand').2 := by
  have hagree (rand' : ℕ) := @returnAll_agree view rand' rand needUptime needCapacity
  generalize returnAllGoodExitServerGeneral view needUptime needCapacity rand = result at hagree ⊢
  obtain ⟨exits, ports⟩ := result
  have hsome : ∀ list rand', exits = some list →
      ∃ exit ∈ list, (chooseGoodExitServerGeneral view needUptime needCapacity rand').1 =
        some exit := by
    rintro list rand' rfl
    obtain ⟨hne, -, hdraw⟩ := (hagree rand').1
    rw [hdraw]
    cases hchoice : view.nodeSlChooseByBandwidth .exit list rand' with
    | none => exact absurd (Directory.nodeSlChooseByBandwidth_eq_none_iff.mp hchoice) hne
    | some exit =>
      exact ⟨exit, NodeWeights.mem_of_nodeSlChooseByBandwidth view.toNetwork hchoice, rfl⟩
  refine ⟨⟨?_, ?_⟩, ?_, fun rand' => (hagree rand').2⟩
  · rintro rfl rand'
    exact (hagree rand').1
  · intro hnone
    cases exits with
    | none => rfl
    | some list =>
      obtain ⟨exit, -, hexit⟩ := hsome list 0 rfl
      rw [hnone 0] at hexit
      exact absurd hexit nofun
  · rintro list rfl
    refine ⟨fun rand' => (hagree rand').1.2.2, fun rand' => hsome list rand' rfl, ?_⟩
    intro hlen exit hexit
    obtain ⟨rand', hrand'⟩ :=
      (NodeWeights.canChoose_iff view.toNetwork .exit (hagree 0).1.2.1 hlen).mpr hexit
    exact ⟨rand', by rw [(hagree rand').1.2.2, hrand']⟩

end Astoria.ExitChoice
