import HermesCluster.State.ScheduleGuarantees
import Mathlib.Data.Rat.Defs
/-!
# The node registry

The node rows with all their columns, and the operations on them that the node
manager, the watchdog and the sync receiver ask of a store. The scheduler reads
some of the columns: the board holds a projection of these rows, and every
operation here does to the board what the store's operation of that name does.
-/

namespace HermesCluster

/-! ## Rows -/

/-- A row of the node table. A reading that was never reported is `none`; a float
is a rational. -/
structure NodeRow extends Node where
  name : String := ""
  lastHeartbeat : Nat := 0
  load : Rat := 0
  diskFreeGb : Option Rat := none
  instanceToken : String := ""
  cpuLoadPct : Option Rat := none
  laneCount : Option Int := none
  duplicateExecutor : Option Bool := none
  deriving DecidableEq

instance : HasKey NodeRow String := ⟨fun n => n.id⟩

/-- What a worker reports of itself with a join or a heartbeat; an older worker
leaves fields out. -/
structure HealthReport where
  diskFreeGb : Option Rat := none
  cpuLoadPct : Option Rat := none
  laneCount : Option Int := none
  duplicateExecutor : Option Bool := none
  deriving DecidableEq

namespace NodeRow

/-- `update_heartbeat`: a field left out keeps the stored reading. -/
def beat (now : Nat) (load : Rat) (report : HealthReport) (statusReason : String)
    (n : NodeRow) : NodeRow :=
  { n with
    toNode := n.toNode.heartbeat statusReason
    lastHeartbeat := now
    load := load
    diskFreeGb := report.diskFreeGb <|> n.diskFreeGb
    cpuLoadPct := report.cpuLoadPct <|> n.cpuLoadPct
    laneCount := report.laneCount <|> n.laneCount
    duplicateExecutor := report.duplicateExecutor <|> n.duplicateExecutor }

/-- A rewrite of the columns that the board holds. -/
def onNode (f : Node → Node) (n : NodeRow) : NodeRow :=
  { n with toNode := f n.toNode }

/-- `update_instance_token`. -/
def withToken (instanceToken : String) (n : NodeRow) : NodeRow :=
  { n with instanceToken := instanceToken }

end NodeRow

/-! ## Operations -/

/-- The operations of a store that leave its nodes alone. -/
def StoreOp.SparesNodes : StoreOp → Prop
  | .registerNode _ | .updateHeartbeat _ _ | .updateCapabilities _ _ | .setDrained _ _
  | .updateMaxConcurrent _ _ | .setNodeStatus _ _ _ => False
  | _ => True

/-- The operations on nodes, the node manager's cache of capabilities, the clock,
and any other operation of the store. -/
inductive NodeOp where
  | utcnow
  | getNode (nodeId : String)
  | getAllNodes
  | heartbeatsAware
  | registerNode (node : NodeRow)
  | updateHeartbeat (nodeId : String) (load : Rat) (report : HealthReport)
      (statusReason : String)
  | updateCapabilities (nodeId : String) (caps : List String)
  | setDrained (nodeId : String) (drained : Bool)
  | updateMaxConcurrent (nodeId : String) (maxConcurrent : Int)
  | updateInstanceToken (nodeId : String) (instanceToken : String)
  | setNodeStatus (nodeId : String) (status : NodeStatus) (reason : String)
  | cachedCaps (nodeId : String)
  | cacheCaps (nodeId : String) (caps : List String)
  | popCaps (nodeId : String)
  | store (op : StoreOp) (h : op.SparesNodes)

/-- What each operation returns. -/
abbrev NodeOp.Res : NodeOp → Type
  | utcnow => Nat
  | getNode _ => Option NodeRow
  | getAllNodes => List NodeRow
  | heartbeatsAware => Bool
  | registerNode _ => Unit
  | updateHeartbeat _ _ _ _ => Unit
  | updateCapabilities _ _ => Unit
  | setDrained _ _ => Unit
  | updateMaxConcurrent _ _ => Unit
  | updateInstanceToken _ _ => Unit
  | setNodeStatus _ _ _ => Unit
  | cachedCaps _ => List String
  | cacheCaps _ _ => Unit
  | popCaps _ => Unit
  | store op _ => op.Res

/-! ## A store with its registry -/

/-- An entry of `_cap_cache`. -/
structure CapEntry where
  nodeId : String
  caps : List String

instance : HasKey CapEntry String := ⟨CapEntry.nodeId⟩

/-- The store's nodes are replaced. -/
def Backend.withNodes : (k : Backend) → Table Node → k.Store → k.Store
  | .memory, nodes, s => { (s : ClusterState) with nodes := nodes }
  | .sql _, nodes, s => { (s : ClusterStore) with nodes := nodes }

/-- The registry beside the rest of a store, whose own node table is not looked
at. -/
structure Cluster (k : Backend) where
  nodes : Table NodeRow := Table.empty
  capCache : Table CapEntry := Table.empty
  rest : k.Store

namespace Cluster

variable {k : Backend}

/-- The nodes as the board holds them. -/
def boardNodes (c : Cluster k) : Table Node :=
  c.nodes.project NodeRow.toNode (fun _ => rfl)

/-- The store as the scheduler sees it. -/
def store (c : Cluster k) : k.Store :=
  k.withNodes c.boardNodes c.rest

/-- The drain flag that a registration leaves: on memory the row replaces the old
one, from which the flag is carried over; on SQL the flag is not among the
columns set. -/
def registeredDrained (k : Backend) (node : NodeRow) (stored : Option NodeRow) : Bool :=
  match k with
  | .memory => node.drained || stored.any (fun n => n.drained)
  | .sql _ => stored.any (fun n => n.drained)

/-- `register_node`. -/
def registerNode (node : NodeRow) (c : Cluster k) : Cluster k :=
  { c with
    nodes := c.nodes.upsert
      (node.onNode (Node.withDrained (registeredDrained k node (c.nodes.get? node.id)))) }

/-- A rewrite of one row. -/
def modifyNode (nodeId : String) (f : NodeRow → NodeRow) (hf : Table.KeepsKey f)
    (c : Cluster k) : Cluster k :=
  { c with nodes := c.nodes.modify nodeId f hf }

/-- Whether the stored heartbeats are returned with a time zone: only Postgres keeps a
`TIMESTAMPTZ`. -/
def readsAware (k : Backend) : Bool :=
  decide (k = .sql .postgres)

variable [Unicode]

/-- One operation at the time `now`. -/
def step (now : Nat) : (op : NodeOp) → Cluster k → op.Res × Cluster k
  | .utcnow, c => (now, c)
  | .getNode nodeId, c => (c.nodes.get? nodeId, c)
  | .getAllNodes, c => (c.nodes.rows, c)
  | .heartbeatsAware, c => (readsAware k, c)
  | .registerNode node, c => ((), c.registerNode node)
  | .updateHeartbeat nodeId load report statusReason, c =>
      ((), c.modifyNode nodeId (NodeRow.beat now load report statusReason) (fun _ => rfl))
  | .updateCapabilities nodeId caps, c =>
      ((), c.modifyNode nodeId (NodeRow.onNode (Node.withCapabilities caps)) (fun _ => rfl))
  | .setDrained nodeId drained, c =>
      ((), c.modifyNode nodeId (NodeRow.onNode (Node.withDrained drained)) (fun _ => rfl))
  | .updateMaxConcurrent nodeId maxConcurrent, c =>
      ((), c.modifyNode nodeId (NodeRow.onNode (Node.withMaxConcurrent maxConcurrent))
        (fun _ => rfl))
  | .updateInstanceToken nodeId instanceToken, c =>
      ((), c.modifyNode nodeId (NodeRow.withToken instanceToken) (fun _ => rfl))
  | .setNodeStatus nodeId status reason, c =>
      ((), c.modifyNode nodeId (NodeRow.onNode (Node.withNodeStatus status reason))
        (fun _ => rfl))
  | .cachedCaps nodeId, c => (((c.capCache.get? nodeId).map CapEntry.caps).getD [], c)
  | .cacheCaps nodeId caps, c => ((), { c with capCache := c.capCache.upsert ⟨nodeId, caps⟩ })
  | .popCaps nodeId, c => ((), { c with capCache := c.capCache.erase nodeId })
  | .store op _, c => ((k.step now op c.store).1, { c with rest := (k.step now op c.store).2 })

/-- One operation at the next reading of the clock. -/
abbrev tick : (op : NodeOp) → Program.Timed (Cluster k) → op.Res × Program.Timed (Cluster k) :=
  Program.timed step

end Cluster

/-! ## A row under an operation -/

/-- What an operation at the time `now` makes of the row of a node, which may be
missing before. -/
def NodeOp.onRow (k : Backend) (now : Nat) (nodeId : String) :
    NodeOp → Option NodeRow → Option NodeRow
  | .registerNode node, row =>
      if node.id = nodeId then
        some (node.onNode (Node.withDrained (Cluster.registeredDrained k node row)))
      else row
  | .updateHeartbeat id load report statusReason, row =>
      if id = nodeId then row.map (NodeRow.beat now load report statusReason) else row
  | .updateCapabilities id caps, row =>
      if id = nodeId then row.map (NodeRow.onNode (Node.withCapabilities caps)) else row
  | .setDrained id drained, row =>
      if id = nodeId then row.map (NodeRow.onNode (Node.withDrained drained)) else row
  | .updateMaxConcurrent id maxConcurrent, row =>
      if id = nodeId then row.map (NodeRow.onNode (Node.withMaxConcurrent maxConcurrent)) else row
  | .updateInstanceToken id instanceToken, row =>
      if id = nodeId then row.map (NodeRow.withToken instanceToken) else row
  | .setNodeStatus id status reason, row =>
      if id = nodeId then row.map (NodeRow.onNode (Node.withNodeStatus status reason)) else row
  | _, row => row

namespace Cluster

variable {k : Backend}

theorem get?_modifyNode (c : Cluster k) (id nodeId : String) {f : NodeRow → NodeRow}
    {hf : Table.KeepsKey f} :
    (c.modifyNode id f hf).nodes.get? nodeId =
      if id = nodeId then (c.nodes.get? nodeId).map f else c.nodes.get? nodeId := by
  have hget := c.nodes.get?_modify id f hf nodeId
  simp only [eq_comm (a := nodeId)] at hget
  exact hget

theorem get?_step [Unicode] (now : Nat) (op : NodeOp) (c : Cluster k) (nodeId : String) :
    (c.step now op).2.nodes.get? nodeId = op.onRow k now nodeId (c.nodes.get? nodeId) := by
  cases op with
  | registerNode node =>
      dsimp only [step, Cluster.registerNode, NodeOp.onRow]
      rw [Table.get?_upsert]
      change (if node.id = nodeId then _ else _) = _
      by_cases hid : node.id = nodeId
      · rw [if_pos hid, if_pos hid, hid]
      · rw [if_neg hid, if_neg hid]
  | updateHeartbeat | updateCapabilities | setDrained | updateMaxConcurrent
  | updateInstanceToken | setNodeStatus => exact c.get?_modifyNode _ _
  | _ => rfl

end Cluster

/-! ## The board under an operation -/

/-- The store's operation that a node operation is on the board; the other ones
are reads of the registry, or write columns that the board does not hold. -/
def NodeOp.onBoard : NodeOp → Option StoreOp
  | .registerNode node => some (.registerNode node.toNode)
  | .updateHeartbeat nodeId _ _ statusReason => some (.updateHeartbeat nodeId statusReason)
  | .updateCapabilities nodeId caps => some (.updateCapabilities nodeId caps)
  | .setDrained nodeId drained => some (.setDrained nodeId drained)
  | .updateMaxConcurrent nodeId maxConcurrent => some (.updateMaxConcurrent nodeId maxConcurrent)
  | .setNodeStatus nodeId status reason => some (.setNodeStatus nodeId status reason)
  | .store op _ => some op
  | _ => none

section Refinement

variable {k : Backend}

@[simp] theorem Backend.nodes_withNodes (nodes : Table Node) (s : k.Store) :
    (k.board (k.withNodes nodes s)).nodes = nodes := by
  cases k <;> rfl

theorem Cluster.nodes_store (c : Cluster k) : (k.board c.store).nodes = c.boardNodes :=
  k.nodes_withNodes _ _

section Steps

variable [Unicode] {now : Nat} {op : StoreOp}

theorem ClusterState.nodes_step (h : op.SparesNodes) (s : ClusterState) :
    (s.step now op).2.nodes = s.nodes := by
  cases op with
  | registerNode | updateHeartbeat | updateCapabilities | setDrained | updateMaxConcurrent
  | setNodeStatus => exact h.elim
  | schedulePendingDetailed => exact (passOf_schedulePendingDetailed now s).nodes_eq
  | setTaskResult | setTaskStatus | unassignTask | unblockTask | setTaskBallot
  | setTaskCancelRequeue | unblockToReady | setDependencies | writeTaskRow | revokeLease =>
      dsimp only [step, setTaskResult, setTaskStatus, unassignTask, unblockTask, unblockTo,
        setTaskBallot, setTaskCancelRequeue, writeTask, unblockToReady, setDependencies,
        writeTaskRow, revokeLease]
      repeat' split
      all_goals rfl
  | requeueTask =>
      dsimp only [step, requeueTask, revokeLease]
      repeat' split
      all_goals rfl
  | handleSyncMessage =>
      dsimp only [step, handleSyncMessage, setTaskStatus]
      repeat' split
      all_goals rfl
  | _ => rfl

theorem ClusterStore.nodes_step (d : SqlDialect) (h : op.SparesNodes) (s : ClusterStore) :
    (s.step d now op).2.nodes = s.nodes := by
  cases op with
  | registerNode | updateHeartbeat | updateCapabilities | setDrained | updateMaxConcurrent
  | setNodeStatus => exact h.elim
  | schedulePendingDetailed => exact (passOf_schedulePendingDetailed d now s).nodes_eq
  | createTask | setTaskResult | setDependencies | handleSyncMessage =>
      dsimp only [step, createTask, setTaskResult, setDependencies, handleSyncMessage]
      repeat' split
      all_goals rfl
  | _ => rfl

theorem Backend.nodes_step (k : Backend) (h : op.SparesNodes) (s : k.Store) :
    (k.board (k.step now op s).2).nodes = (k.board s).nodes := by
  cases k with
  | memory => exact ClusterState.nodes_step h s
  | sql d => exact ClusterStore.nodes_step d h s

omit [Unicode] in
theorem Backend.withNodes_self {nodes : Table Node} {s : k.Store} (h : (k.board s).nodes = nodes) :
    k.withNodes nodes s = s := by
  subst h
  cases k <;> rfl

namespace Cluster

omit [Unicode] in
theorem any_drained (c : Cluster k) (nodeId : String) :
    (c.boardNodes.get? nodeId).any Node.drained =
      (c.nodes.get? nodeId).any (fun n => n.drained) := by
  rw [boardNodes, Table.get?_project, Option.any_map]

omit [Unicode] in
theorem store_modifyNode (c : Cluster k) (nodeId : String) {f : NodeRow → NodeRow}
    {hf : Table.KeepsKey f} (g : Node → Node) (hg : Table.KeepsKey g)
    (hfg : ∀ n, (f n).toNode = g n.toNode) :
    (c.modifyNode nodeId f hf).store = k.withNodes (c.boardNodes.modify nodeId g hg) c.rest := by
  have hnodes : (c.modifyNode nodeId f hf).boardNodes = c.boardNodes.modify nodeId g hg :=
    c.nodes.project_modify nodeId f g hf hg hfg
  exact congrArg (k.withNodes · c.rest) hnodes

/-- Every node operation is the store's operation of that name on the board, or
leaves the board alone. -/
theorem store_step (now : Nat) (op : NodeOp) (c : Cluster k) :
    (c.step now op).2.store =
      match op.onBoard with
      | some boardOp => (k.step now boardOp c.store).2
      | none => c.store := by
  cases op with
  | registerNode node =>
      have hnodes : (c.registerNode node).boardNodes = c.boardNodes.upsert
          { node.toNode with drained := registeredDrained k node (c.nodes.get? node.id) } :=
        c.nodes.project_upsert _
      change k.withNodes (c.registerNode node).boardNodes c.rest = _
      rw [hnodes]
      cases k with
      | memory =>
          dsimp only [NodeOp.onBoard, Backend.step, ClusterState.step]
          rw [ClusterState.registerNode]
          dsimp only [store, Backend.withNodes, registeredDrained]
          rw [any_drained]
      | sql d =>
          dsimp only [NodeOp.onBoard, Backend.step, ClusterStore.step]
          rw [ClusterStore.registerNode]
          dsimp only [store, Backend.withNodes, registeredDrained]
          rw [any_drained]
  | updateHeartbeat nodeId load report statusReason =>
      refine (c.store_modifyNode nodeId (Node.heartbeat statusReason) (fun _ => rfl)
        (fun _ => rfl)).trans ?_
      cases k <;> rfl
  | updateCapabilities nodeId caps =>
      refine (c.store_modifyNode nodeId (Node.withCapabilities caps) (fun _ => rfl)
        (fun _ => rfl)).trans ?_
      cases k <;> rfl
  | setDrained nodeId drained =>
      refine (c.store_modifyNode nodeId (Node.withDrained drained) (fun _ => rfl)
        (fun _ => rfl)).trans ?_
      cases k <;> rfl
  | updateMaxConcurrent nodeId maxConcurrent =>
      refine (c.store_modifyNode nodeId (Node.withMaxConcurrent maxConcurrent) (fun _ => rfl)
        (fun _ => rfl)).trans ?_
      cases k <;> rfl
  | setNodeStatus nodeId status reason =>
      refine (c.store_modifyNode nodeId (Node.withNodeStatus status reason) (fun _ => rfl)
        (fun _ => rfl)).trans ?_
      cases k <;> rfl
  | updateInstanceToken nodeId instanceToken =>
      have hnodes : (c.modifyNode nodeId (NodeRow.withToken instanceToken)
          (fun _ => rfl)).boardNodes = c.boardNodes := by
        apply Table.ext
        simp only [boardNodes, modifyNode, Table.project, Table.modify, Table.updateWhere,
          Table.mapRows, List.map_map]
        refine List.map_congr_left (fun n _ => ?_)
        simp only [Function.comp_apply]
        split <;> rfl
      exact congrArg (k.withNodes · c.rest) hnodes
  | store op h =>
      have hkept : (k.board (k.step now op c.store).2).nodes = c.boardNodes := by
        rw [k.nodes_step h, c.nodes_store]
      exact k.withNodes_self hkept
  | utcnow | getNode | getAllNodes | cachedCaps | cacheCaps | popCaps | heartbeatsAware => rfl

end Cluster

end Steps

end Refinement

end HermesCluster
