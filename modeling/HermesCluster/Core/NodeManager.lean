import HermesCluster.Core.NodeHealth
/-!
# The node manager

Joins, heartbeats, capability updates and status changes, and the watchdog's
check, as programs over the node operations; then what each leaves of the
registry.
-/

namespace HermesCluster

open Program hiding pure bind

/-- Exceptions of the node manager and answers of its router. -/
inductive NodeError where
  | nodeIdRequired
  | duplicateInstanceJoin (nodeId holderToken challengerToken : String)
      (heartbeatAge offlineAfter : Rat)
  | nodeNotFound
  | naiveMinusAware
  deriving DecidableEq

namespace NodeError

def status : NodeError → Nat
  | nodeIdRequired => 500
  | duplicateInstanceJoin _ _ _ _ _ => 409
  | nodeNotFound => 404
  | naiveMinusAware => 500

def message : NodeError → String
  | nodeIdRequired => "node_id is required"
  | duplicateInstanceJoin nodeId _ _ heartbeatAge offlineAfter =>
      "node '" ++ nodeId ++ "' is already joined by a live instance " ++
        "(heartbeat " ++ Text.fixed 1 heartbeatAge ++ "s old < offline_after " ++
        Text.fixed 1 offlineAfter ++ "s): refusing a second executor for one " ++
        "node id (#899 — two executors spawn every lane twice). Stop " ++
        "the running instance and wait for its heartbeat to go stale, " ++
        "or restart via the documented path."
  | nodeNotFound => "node not found"
  | naiveMinusAware => "can't subtract offset-naive and offset-aware datetimes"

end NodeError

abbrev NodeApi := Program NodeOp NodeOp.Res NodeError

/-- The arguments of `join`. -/
structure JoinArgs where
  nodeId : String
  name : String := ""
  capabilities : List String := []
  load : Rat := 0
  maxConcurrent : Int := 0
  instanceToken : String := ""
  report : HealthReport := {}

namespace NodeManager

/-- Perform one operation. -/
def query (op : NodeOp) : NodeApi op.Res :=
  perform op

variable (cfg : NodeConfig)

/-! ## Joins and heartbeats -/

/-- `send_heartbeat`: the load is clamped; an unknown node is ignored. -/
def sendHeartbeat (nodeId : String) (load : Rat) (report : HealthReport) : NodeApi Unit := do
  match ← query (.getNode nodeId) with
  | none => pure ()
  | some node =>
      query (.updateHeartbeat nodeId (max 0 (min 1 load)) report
        (cfg.reportReason node.maxConcurrent report))

/-- The row that a first join registers. -/
def joinedRow (args : JoinArgs) (now : Nat) : NodeRow :=
  let maxConcurrent := max 0 args.maxConcurrent
  let reason := cfg.reportReason maxConcurrent args.report
  { id := args.nodeId
    name := if args.name ≠ "" then args.name else args.nodeId
    capabilities := args.capabilities
    status := if reason ≠ "" then .degraded else .online
    statusReason := reason
    lastHeartbeat := now
    load := args.load
    maxConcurrent := maxConcurrent
    diskFreeGb := args.report.diskFreeGb
    instanceToken := args.instanceToken
    cpuLoadPct := args.report.cpuLoadPct
    laneCount := args.report.laneCount
    duplicateExecutor := args.report.duplicateExecutor }

/-- Two processes under one node id. -/
def OtherInstance (args : JoinArgs) (holder : String) : Prop :=
  args.instanceToken ≠ "" ∧ holder ≠ "" ∧ args.instanceToken ≠ holder

instance (args : JoinArgs) (holder : String) : Decidable (OtherInstance args holder) :=
  inferInstanceAs (Decidable (_ ∧ _))

/-- An `if` without an `else`. -/
def onlyIf (c : Prop) [Decidable c] (p : NodeApi Unit) : NodeApi Unit :=
  if c then p else pure ()

/-- A join of a node that has a row. -/
def rejoin (args : JoinArgs) : NodeApi (Option NodeRow) := do
  sendHeartbeat cfg args.nodeId 0 args.report
  onlyIf (args.capabilities ≠ []) (query (.updateCapabilities args.nodeId args.capabilities))
  onlyIf (args.maxConcurrent ≠ 0) (query (.updateMaxConcurrent args.nodeId args.maxConcurrent))
  onlyIf (args.instanceToken ≠ "") (query (.updateInstanceToken args.nodeId args.instanceToken))
  query (.getNode args.nodeId)

/-- `join`. Another instance is refused while the heartbeat of the one that holds
the node id is younger than `offline_after`. -/
def join (args : JoinArgs) : NodeApi (Option NodeRow) := do
  if args.nodeId = "" then
    raise .nodeIdRequired
  else do
    let now ← query .utcnow
    match ← query (.getNode args.nodeId) with
    | some existing =>
        let age := NodeConfig.elapsed now existing.lastHeartbeat
        if OtherInstance args existing.instanceToken ∧ age < cfg.offlineAfter then
          raise (.duplicateInstanceJoin args.nodeId existing.instanceToken args.instanceToken age
            cfg.offlineAfter)
        else
          rejoin cfg args
    | none => do
        query (.registerNode (joinedRow cfg args now))
        query (.cacheCaps args.nodeId args.capabilities)
        pure (some (joinedRow cfg args now))

/-- `leave`. -/
def leave (nodeId : String) : NodeApi Bool := do
  match ← query (.getNode nodeId) with
  | none => pure false
  | some _ => do
      query (.setNodeStatus nodeId .offline "")
      query (.popCaps nodeId)
      pure true

/-! ## Capabilities and status -/

/-- `sorted(caps)`. -/
def sortedCaps (caps : List String) : List String :=
  caps.insertionSort (fun a b => a.toList ≤ b.toList)

/-- `update_capabilities`: the last known capabilities are those of the cache. -/
def updateCapabilities (nodeId : String) (capabilities : List String) : NodeApi Bool := do
  match ← query (.getNode nodeId) with
  | none => pure false
  | some _ => do
      let oldCaps ← query (.cachedCaps nodeId)
      if sortedCaps oldCaps = sortedCaps capabilities then
        pure true
      else do
        query (.updateCapabilities nodeId (sortedCaps capabilities))
        query (.cacheCaps nodeId (sortedCaps capabilities))
        pure true

/-- `set_status`. -/
def setStatus (nodeId : String) (status : NodeStatus) (reason : String) : NodeApi Bool := do
  match ← query (.getNode nodeId) with
  | none => pure false
  | some node =>
      if node.status = status ∧ (status = .online ∨ node.statusReason = reason) then
        pure true
      else do
        query (.setNodeStatus nodeId status reason)
        pure true

/-! ## The watchdog -/

/-- One node of a watchdog's check: `now - node.last_heartbeat`, where `now` is naive, and
then the verdict. -/
def checkNode (now : Nat) (aware : Bool) (events : List (String × NodeStatus))
    (node : NodeRow) : NodeApi (List (String × NodeStatus)) :=
  if aware = true then raise .naiveMinusAware
  else
    let judged := cfg.verdict now node
    if judged.1 ≠ node.status then do
      let _ ← setStatus node.id judged.1 judged.2
      pure (events ++ [(node.id, judged.1)])
    else pure events

/-- `_check` of the watchdog over the node manager's registry adapter. -/
def check : NodeApi (List (String × NodeStatus)) := do
  let now ← query .utcnow
  let nodes ← query .getAllNodes
  let aware ← query .heartbeatsAware
  nodes.foldlM (checkNode cfg now aware) []

/-! ## What the calls leave -/

section Effects

variable [Unicode] {k : Backend} {cfg : NodeConfig} (w : Timed (Cluster k))

theorem run_sendHeartbeat_none {nodeId : String} (h : w.state.nodes.get? nodeId = none)
    (load : Rat) (report : HealthReport) :
    (sendHeartbeat cfg nodeId load report).run Cluster.tick w =
      (.ok (), ⟨w.state, fun i => w.clock (i + 1)⟩) := by
  simp only [sendHeartbeat, query, perform_bind, run, timed, Cluster.step, h]
  rfl

theorem run_sendHeartbeat_some {nodeId : String} {n : NodeRow}
    (h : w.state.nodes.get? nodeId = some n) (load : Rat) (report : HealthReport) :
    (sendHeartbeat cfg nodeId load report).run Cluster.tick w =
      (.ok (), ⟨w.state.modifyNode nodeId (NodeRow.beat (w.clock 1) (max 0 (min 1 load)) report
        (cfg.reportReason n.maxConcurrent report)) (fun _ => rfl), fun i => w.clock (i + 2)⟩) := by
  simp only [sendHeartbeat, query, perform_bind, run, timed, Cluster.step, h]
  rfl

theorem run_onlyIf (c : Prop) [Decidable c] (op : NodeOp) {p : NodeApi Unit}
    (hp : p.run Cluster.tick w = (.ok (), (Cluster.tick op w).2)) :
    (onlyIf c p).run Cluster.tick w = (.ok (), if c then (Cluster.tick op w).2 else w) := by
  unfold onlyIf
  split
  · exact hp
  · rfl

/-- `set_status` on a row. -/
def settle (status : NodeStatus) (reason : String) (n : NodeRow) : NodeRow :=
  if n.status = status ∧ (status = .online ∨ n.statusReason = reason) then n
  else n.onNode (Node.withNodeStatus status reason)

omit [Unicode] in
theorem keepsKey_settle (status : NodeStatus) (reason : String) :
    Table.KeepsKey (settle status reason) := by
  intro n
  unfold settle
  split <;> rfl

theorem run_setStatus_some {nodeId : String} {n : NodeRow}
    (h : w.state.nodes.get? nodeId = some n) (status : NodeStatus) (reason : String) :
    ∃ clock, (setStatus nodeId status reason).run Cluster.tick w =
      (.ok true, ⟨w.state.modifyNode nodeId (settle status reason)
        (keepsKey_settle status reason), clock⟩) := by
  simp only [setStatus, query, perform_bind, run, timed, Cluster.step, Cluster.modifyNode, h]
  by_cases hsame : n.status = status ∧ (status = .online ∨ n.statusReason = reason)
  · refine ⟨fun i => w.clock (i + 1), ?_⟩
    have hfixed : settle status reason n = n := if_pos hsame
    rw [if_pos hsame, Table.modify_of_fixed h hfixed]
    rfl
  · refine ⟨fun i => w.clock (i + 1 + 1), ?_⟩
    have hmade : n.onNode (Node.withNodeStatus status reason) = settle status reason n :=
      (if_neg hsame).symm
    have hkey : Table.KeepsKey (NodeRow.onNode (Node.withNodeStatus status reason)) :=
      fun _ => rfl
    have hnodes : w.state.nodes.modify nodeId _ hkey =
        w.state.nodes.modify nodeId (settle status reason) (keepsKey_settle status reason) :=
      Table.modify_congr h hmade
    rw [if_neg hsame, ← hnodes]
    rfl

/-- The watchdog's check of a row. -/
def judge (cfg : NodeConfig) (now : Nat) (n : NodeRow) : NodeRow :=
  if (cfg.verdict now n).1 = n.status then n
  else n.onNode (Node.withNodeStatus (cfg.verdict now n).1 (cfg.verdict now n).2)

omit [Unicode] in
theorem keepsKey_judge (cfg : NodeConfig) (now : Nat) : Table.KeepsKey (judge cfg now) := by
  intro n
  unfold judge
  split <;> rfl

omit [Unicode] in
theorem judge_status (cfg : NodeConfig) (now : Nat) (n : NodeRow) :
    (judge cfg now n).status = (cfg.verdict now n).1 := by
  unfold judge
  split
  · rename_i hsame
    exact hsame.symm
  · rfl

theorem run_checkNode {n : NodeRow} (h : w.state.nodes.get? n.id = some n) (now : Nat)
    (events : List (String × NodeStatus)) :
    ∃ events' clock, (checkNode cfg now false events n).run Cluster.tick w =
      (.ok events', ⟨w.state.modifyNode n.id (judge cfg now) (keepsKey_judge cfg now), clock⟩) := by
  unfold checkNode Cluster.modifyNode
  rw [if_neg Bool.false_ne_true]
  by_cases hsame : (cfg.verdict now n).1 = n.status
  · have hfixed : judge cfg now n = n := if_pos hsame
    refine ⟨events, w.clock, ?_⟩
    rw [Table.modify_of_fixed h hfixed]
    simp only [hsame, ne_eq, not_true_eq_false, if_false]
    rfl
  · obtain ⟨clock, hrun⟩ := run_setStatus_some w h (cfg.verdict now n).1 (cfg.verdict now n).2
    have hsettle : settle (cfg.verdict now n).1 (cfg.verdict now n).2 n = judge cfg now n := by
      unfold settle judge
      rw [if_neg hsame, if_neg (fun hkept => hsame hkept.1.symm)]
    have hnodes : w.state.nodes.modify n.id _ (keepsKey_settle _ _) =
        w.state.nodes.modify n.id (judge cfg now) (keepsKey_judge cfg now) :=
      Table.modify_congr h hsettle
    refine ⟨events ++ [(n.id, (cfg.verdict now n).1)], clock, ?_⟩
    simp only [hsame, ne_eq, not_false_eq_true, if_true]
    rw [run_bind_of_ok (a := true) (congrArg Prod.fst hrun), hrun, ← hnodes]
    rfl

/-- The rows of the snapshot are checked one after the other. -/
theorem run_checkNodes (cfg : NodeConfig) (now : Nat) (ns : List NodeRow)
    (hids : (ns.map (fun n => n.id)).Nodup)
    (hrows : ∀ n ∈ ns, w.state.nodes.get? n.id = some n) (events : List (String × NodeStatus)) :
    ∃ events' nodes clock, (ns.foldlM (checkNode cfg now false) events).run Cluster.tick w =
      (.ok events', ⟨{ w.state with nodes := nodes }, clock⟩) ∧
      ∀ nodeId, nodes.get? nodeId =
        if nodeId ∈ ns.map (fun n => n.id) then (w.state.nodes.get? nodeId).map (judge cfg now)
        else w.state.nodes.get? nodeId := by
  induction ns generalizing w events with
  | nil => exact ⟨events, w.state.nodes, w.clock, rfl, fun _ => rfl⟩
  | cons n ns ih =>
      rw [List.map_cons, List.nodup_cons] at hids
      rw [List.forall_mem_cons] at hrows
      obtain ⟨events₁, clock₁, hfirst⟩ := run_checkNode w hrows.1 now events
      have hstep : ∀ nodeId, (w.state.modifyNode n.id (judge cfg now)
          (keepsKey_judge cfg now)).nodes.get? nodeId =
          if nodeId = n.id then (w.state.nodes.get? nodeId).map (judge cfg now)
          else w.state.nodes.get? nodeId :=
        w.state.nodes.get?_modify n.id _ (keepsKey_judge cfg now)
      have hothers : ∀ m ∈ ns, (w.state.modifyNode n.id (judge cfg now)
          (keepsKey_judge cfg now)).nodes.get? m.id = some m := by
        intro m hm
        have hne : m.id ≠ n.id := fun hid => hids.1 (hid ▸ List.mem_map_of_mem hm)
        rw [hstep, if_neg hne]
        exact hrows.2 m hm
      obtain ⟨events₂, nodes, clock₂, hrest, hget⟩ :=
        ih ⟨w.state.modifyNode n.id (judge cfg now) (keepsKey_judge cfg now), clock₁⟩
          hids.2 hothers events₁
      refine ⟨events₂, nodes, clock₂, ?_, fun nodeId => ?_⟩
      · rw [List.foldlM_cons, run_bind_of_ok (congrArg Prod.fst hfirst), hfirst]
        exact hrest
      · rw [hget nodeId]
        simp only [hstep, List.map_cons, List.mem_cons]
        by_cases hid : nodeId = n.id
        · rw [hid, if_neg hids.1, if_pos rfl, if_pos (.inl rfl)]
        · simp only [hid, if_false, false_or]

/-- A check gives every node the watchdog's verdict at the time it began. -/
theorem run_check (hnaive : Cluster.readsAware k = false) (cfg : NodeConfig)
    (w : Timed (Cluster k)) :
    ∃ events nodes clock, (check cfg).run Cluster.tick w =
      (.ok events, ⟨{ w.state with nodes := nodes }, clock⟩) ∧
      ∀ nodeId, nodes.get? nodeId =
        (w.state.nodes.get? nodeId).map (judge cfg (w.clock 0)) := by
  obtain ⟨events, nodes, clock, hrun, hget⟩ := run_checkNodes
    ⟨w.state, fun i => w.clock (i + 1 + 1 + 1)⟩ cfg (w.clock 0) w.state.nodes.rows
    w.state.nodes.nodup (fun n hn => Table.get?_of_mem hn) []
  refine ⟨events, nodes, clock, ?_, fun nodeId => ?_⟩
  · change (w.state.nodes.rows.foldlM (checkNode cfg (w.clock 0) (Cluster.readsAware k)) []).run
      Cluster.tick _ = _
    rw [hnaive]
    exact hrun
  rw [hget]
  split
  · rfl
  · rename_i habsent
    have hnone : w.state.nodes.get? nodeId = none :=
      Table.get?_eq_none_iff.mpr (fun n hn hid => habsent (List.mem_map.mpr ⟨n, hn, hid⟩))
    rw [hnone, Option.map_none]

/-- A check of aware heartbeats raises at its first node, and leaves every node as it is. -/
theorem run_check_aware (haware : Cluster.readsAware k = true) (cfg : NodeConfig)
    (w : Timed (Cluster k)) : ((check cfg).run Cluster.tick w).2.state = w.state := by
  change ((w.state.nodes.rows.foldlM (checkNode cfg (w.clock 0) (Cluster.readsAware k)) []).run
    Cluster.tick _).2.state = _
  rw [haware]
  cases w.state.nodes.rows <;> rfl

end Effects

end NodeManager

end HermesCluster
