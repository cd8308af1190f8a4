import HermesCluster.Core.NodeManager
/-!
# Full-state synchronisation

The payload that a coordinator builds from its store, and what the coordinator
that receives it does with it.
-/

namespace HermesCluster

open Program hiding pure bind

/-- A full state as it is received. An entry that is no valid node or task is
`none`; the other parts of the payload are not read. -/
structure FullState where
  nodes : List (Option NodeRow) := []
  tasks : List (Option Task) := []

/-- The counters that the receiver answers with. -/
structure FullReply where
  nodesApplied : Nat := 0
  nodesRejected : Nat := 0
  tasksApplied : Nat := 0
  tasksRejected : Nat := 0

/-- The load of the stored row of a node. -/
def Cluster.loadOf {k : Backend} (c : Cluster k) (nodeId : String) : Option Rat :=
  (c.nodes.get? nodeId).map (fun n => n.load)

namespace Sync

open NodeManager (query)

def store (op : StoreOp) (h : op.SparesNodes) : NodeApi op.Res :=
  query (.store op h)

/-! ## The sender -/

/-- What `Node(**data)` makes of the fields that are sent of a node. -/
def sentNode (n : NodeRow) : NodeRow where
  id := n.id
  name := n.name
  capabilities := n.capabilities
  status := n.status
  lastHeartbeat := n.lastHeartbeat
  load := n.load

/-- What `Task(**data)` makes of the fields that are sent of a task. -/
def sentTask (t : Task) : Task where
  id := t.id
  title := t.title
  requires := t.requires
  dependsOn := t.dependsOn
  priority := t.priority
  status := t.status
  assignedTo := t.assignedTo
  createdAt := t.createdAt
  updatedAt := t.updatedAt
  version := t.version
  failReason := t.failReason

def fullStateOf (nodes : List NodeRow) (tasks : List Task) : FullState where
  nodes := nodes.map (fun n => some (sentNode n))
  tasks := tasks.map (fun t => some (sentTask t))

/-- `_build_full_state`. -/
def buildFullState : NodeApi FullState := do
  let nodes ← query .getAllNodes
  let tasks ← store .getAllTasks trivial
  pure (fullStateOf nodes tasks)

/-! ## The receiver -/

/-- One node of `receive_full_state`: of two rows the one with the higher load
counts as the newer. -/
def receiveNode (reply : FullReply) : Option NodeRow → NodeApi FullReply
  | none => pure { reply with nodesRejected := reply.nodesRejected + 1 }
  | some node => do
      match ← query (.getNode node.id) with
      | none => do
          query (.registerNode node)
          pure { reply with nodesApplied := reply.nodesApplied + 1 }
      | some existing =>
          if existing.load ≤ node.load then do
            query (.registerNode node)
            pure { reply with nodesApplied := reply.nodesApplied + 1 }
          else
            pure { reply with nodesRejected := reply.nodesRejected + 1 }

/-- The arguments with which the receiver creates a task. -/
def createdPlan (task : Task) : TaskPlan where
  taskId := task.id
  title := task.title
  requires := task.requires
  priority := task.priority
  description := task.description

/-- One task of `receive_full_state`. -/
def receiveTask (reply : FullReply) : Option Task → NodeApi FullReply
  | none => pure { reply with tasksRejected := reply.tasksRejected + 1 }
  | some task => do
      match ← store (.getTask task.id) trivial with
      | none => do
          let _ ← store (.createTask (createdPlan task)) trivial
          if task.status ≠ .pending then do
            let _ ← store (.setTaskStatus task.id task.status "") trivial
            pure { reply with tasksApplied := reply.tasksApplied + 1 }
          else
            pure { reply with tasksApplied := reply.tasksApplied + 1 }
      | some existing =>
          if existing.version < task.version then do
            let _ ← store (.setTaskStatus task.id task.status (task.failReason.getD "")) trivial
            pure { reply with tasksApplied := reply.tasksApplied + 1 }
          else
            pure { reply with tasksRejected := reply.tasksRejected + 1 }

/-- `receive_full_state`. -/
def receiveFullState (payload : FullState) : NodeApi FullReply := do
  let reply ← payload.nodes.foldlM receiveNode {}
  payload.tasks.foldlM receiveTask reply

/-! ## What one entry leaves -/

section Entries

variable [Unicode] {k : Backend} (w : Timed (Cluster k))

/-- A received row replaces one whose load is not higher. -/
def Newer (load : Option Rat) (node : NodeRow) : Prop :=
  ∀ stored ∈ load, stored ≤ node.load

omit [Unicode] in
instance (load : Option Rat) (node : NodeRow) : Decidable (Newer load node) :=
  inferInstanceAs (Decidable (∀ stored ∈ load, stored ≤ node.load))

theorem run_receiveNode (reply : FullReply) (node : NodeRow) :
    ∃ reply' clock, (receiveNode reply (some node)).run Cluster.tick w =
      (.ok reply', ⟨if Newer (w.state.loadOf node.id) node then w.state.registerNode node
        else w.state, clock⟩) := by
  simp only [receiveNode, query, perform_bind, run, timed, Cluster.step]
  cases hget : w.state.nodes.get? node.id with
  | none =>
      have hnewer : Newer (w.state.loadOf node.id) node := by
        rw [Cluster.loadOf, hget]
        exact fun stored hstored => absurd hstored (Option.not_mem_none stored)
      rw [if_pos hnewer]
      exact ⟨_, _, rfl⟩
  | some existing =>
      have hnewer : Newer (w.state.loadOf node.id) node ↔ existing.load ≤ node.load := by
        rw [Cluster.loadOf, hget]
        exact ⟨fun h => h _ rfl, fun h stored hstored => Option.some.inj hstored ▸ h⟩
      by_cases hload : existing.load ≤ node.load
      · rw [if_pos (hnewer.mpr hload)]
        simp only [hload, if_true]
        exact ⟨_, _, rfl⟩
      · rw [if_neg (mt hnewer.mp hload)]
        simp only [hload, if_false]
        exact ⟨_, _, rfl⟩

end Entries

end Sync

end HermesCluster
