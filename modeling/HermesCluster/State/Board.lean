import HermesCluster.Core.LaneAffinity
import HermesCluster.Lib.Program
/-!
# The board and the store interface

What every store backend holds (nodes, tasks, leases, lane placements and the
scheduler's cursor), the operations the routers, the lease manager and the
recovery pipeline ask of a store, and the parts of those operations that the
backends share line by line: the schedule pass and the dependency traversals.
-/

namespace HermesCluster

/-- The state all backends have in common. -/
structure Board where
  nodes : Table Node := Table.empty
  tasks : Table Task := Table.empty
  leases : Table Lease := Table.empty
  lanes : Table Lane := Table.empty
  fair : FairScheduler := {}

/-- One entry of what a schedule pass returns. -/
structure Assignment where
  taskId : String
  taskTitle : String
  nodeId : String
  priority : Int
  deriving DecidableEq, Repr

/-! ## The store interface -/

/-- The operations of a store, with `utcnow` for a handler's own clock reading
and `writeTaskRow` for the handlers that reach into `_state._tasks`. -/
inductive StoreOp where
  | utcnow
  | getTask (taskId : String)
  | getAllTasks
  | getAllNodes
  | getDependents (taskId : String)
  | getTriggerChain (taskId : String)
  | getLeaseByTask (taskId : String)
  | getActiveLeases
  | getExpiredLeases
  | unleasedRunningTasks
  | createTask (plan : TaskPlan)
  | createTasksBatch (plans : List TaskPlan)
  | setTaskResult (taskId : String) (result : Option String)
  | setTaskStatus (taskId : String) (status : TaskStatus) (failReason : String)
  | unassignTask (taskId : String)
  | unblockTask (taskId : String)
  | setTaskBallot (taskId : String) (ballot : Option Ballot)
  | setTaskCancelRequeue (taskId : String) (requeue : Bool)
  | unblockToReady (taskId : String)
  | requeueTask (taskId : String) (reason : String)
  | setDependencies (taskId : String) (dependsOn : List String)
  | triggerPendingTasks
  | schedulePendingDetailed
  | handleSyncMessage (msg : SyncMessage)
  | writeTaskRow (taskId : String) (assignedTo : Option String) (failReason : Option String)
  | createLease (taskId nodeId : String) (ttl : Nat)
  | revokeLease (leaseId : Nat)
  | registerNode (node : Node)
  | updateHeartbeat (nodeId : String) (statusReason : String)
  | updateCapabilities (nodeId : String) (caps : List String)
  | setDrained (nodeId : String) (drained : Bool)
  | updateMaxConcurrent (nodeId : String) (maxConcurrent : Int)
  | setNodeStatus (nodeId : String) (status : NodeStatus) (reason : String)
  | recordLane (lane : Lane)
  | deleteLane (laneKey : String)

namespace StoreOp

/-- What each operation returns. `writeTaskRow` may raise. -/
abbrev Res : StoreOp → Type
  | utcnow => Nat
  | getTask _ => Option Task
  | getAllTasks => List Task
  | getAllNodes => List Node
  | getDependents _ => List String
  | getTriggerChain _ => List String
  | getLeaseByTask _ => Option Lease
  | getActiveLeases => List Lease
  | getExpiredLeases => List Lease
  | unleasedRunningTasks => List Task
  | createTask _ => Task
  | createTasksBatch _ => List Task
  | setTaskResult _ _ => Bool
  | setTaskStatus _ _ _ => Bool
  | unassignTask _ => Bool
  | unblockTask _ => Bool
  | setTaskBallot _ _ => Bool
  | setTaskCancelRequeue _ _ => Bool
  | unblockToReady _ => Bool
  | requeueTask _ _ => Bool
  | setDependencies _ _ => Bool
  | triggerPendingTasks => Nat
  | schedulePendingDetailed => List Assignment
  | handleSyncMessage _ => Bool
  | writeTaskRow _ _ _ => Except String Unit
  | createLease _ _ _ => Lease
  | revokeLease _ => Bool
  | registerNode _ => Unit
  | updateHeartbeat _ _ => Unit
  | updateCapabilities _ _ => Unit
  | setDrained _ _ => Unit
  | updateMaxConcurrent _ _ => Unit
  | setNodeStatus _ _ _ => Unit
  | recordLane _ => Unit
  | deleteLane _ => Bool

end StoreOp

/-! ## Shared reads -/

/-- Which rows the query of a store gives `get_dependents` for an id, by the ids that
the row depends on. -/
abbrev RowQuery :=
  String → List String → Bool

/-- The query without a condition. -/
def RowQuery.all : RowQuery :=
  fun _ _ => true

/-- `get_dependents`. -/
def dependentsOf (query : RowQuery) (tasks : Table Task) (taskId : String) : List String :=
  (tasks.rows.filter (fun t => query taskId t.dependsOn && decide (taskId ∈ t.dependsOn))).map
    Task.id

/-- `_traverse`: the visited ids and the chain, down to the remaining depth. -/
def traverseDependents (query : RowQuery) (tasks : Table Task) :
    Nat → List String × List String → String → List String × List String
  | 0, st, _ => st
  | depth + 1, (visited, chain), taskId =>
      if taskId ∈ visited then (visited, chain)
      else
        (dependentsOf query tasks taskId).foldl
          (fun st dep => traverseDependents query tasks depth (st.1, st.2 ++ [dep]) dep)
          (taskId :: visited, chain)

/-- `get_trigger_chain`, to its default depth. -/
def triggerChain (query : RowQuery) (tasks : Table Task) (taskId : String) : List String :=
  (traverseDependents query tasks 10 ([], []) taskId).2

/-- The tasks that hold a lease which is active and unexpired. -/
def leasedTaskIds (now : Nat) (leases : Table Lease) : List String :=
  (leases.rows.filter (fun l => decide (l.IsLive now))).map Lease.taskId

/-- No live lease on the task; the lookup by the empty id finds no lease. -/
def Unleased (now : Nat) (b : Board) (taskId : String) : Prop :=
  taskId ≠ "" → ∀ l ∈ b.leases.rows, l.taskId = taskId → ¬l.IsLive now

/-- `unleased_running_tasks`: running without a live lease. -/
def unleasedRunning (now : Nat) (b : Board) : List Task :=
  b.tasks.rows.filter (fun t =>
    decide (t.status = .running ∧ t.id ∉ leasedTaskIds now b.leases))

/-- All dependencies exist and are completed. -/
def DepsCompleted (tasks : Table Task) (task : Task) : Prop :=
  ∀ dep ∈ task.dependsOn, (tasks.get? dep).map Task.status = some .completed

instance (tasks : Table Task) (task : Task) : Decidable (DepsCompleted tasks task) :=
  inferInstanceAs (Decidable (∀ dep ∈ task.dependsOn,
    (tasks.get? dep).map Task.status = some .completed))

/-! ## Leases -/

/-- A lease id that no stored lease has. -/
def freshLeaseId (leases : Table Lease) : Nat :=
  (leases.rows.map (fun l => l.id + 1)).foldr max 0

theorem lt_freshLeaseId {leases : Table Lease} {l : Lease} (h : l ∈ leases.rows) :
    l.id < freshLeaseId leases := by
  unfold freshLeaseId
  generalize leases.rows = rows at h ⊢
  induction rows with
  | nil => cases h
  | cons m rows ih =>
      simp only [List.map_cons, List.foldr_cons]
      rcases List.mem_cons.mp h with rfl | hmem
      · omega
      · have := ih hmem
        omega

theorem get?_freshLeaseId (leases : Table Lease) :
    leases.get? (freshLeaseId leases) = none := by
  rw [Table.get?_eq_none_iff]
  intro l hl
  exact Nat.ne_of_lt (lt_freshLeaseId hl)

/-- The lease that `create_lease` adds at the time `now`. -/
def newLease (now : Nat) (leases : Table Lease) (taskId nodeId : String)
    (ttl : Nat) : Lease where
  id := freshLeaseId leases
  taskId := taskId
  nodeId := nodeId
  createdAt := now
  expiresAt := now + ttl
  status := .active

def addLease (now : Nat) (leases : Table Lease) (taskId nodeId : String)
    (ttl : Nat) : Table Lease :=
  leases.append (newLease now leases taskId nodeId ttl) (get?_freshLeaseId leases)

/-- The row a lease becomes when it is revoked. -/
def Lease.revoke (l : Lease) : Lease := { l with status := .revoked }

/-- The row a lease becomes when its expiry is noticed. -/
def Lease.expire (l : Lease) : Lease := { l with status := .expired }

theorem Lease.keepsKey_revoke : Table.KeepsKey Lease.revoke := fun _ => rfl

theorem Lease.keepsKey_expire : Table.KeepsKey Lease.expire := fun _ => rfl

/-! ## The schedule pass -/

/-- The order in which ready tasks are served: band first, newest first within
a band, as a clock shows the times. -/
def ServedFirst (shown : Nat → Int) (a b : Task) : Prop :=
  a.priority < b.priority ∨ (a.priority = b.priority ∧ shown b.createdAt ≤ shown a.createdAt)

instance (shown : Nat → Int) : DecidableRel (ServedFirst shown) := fun a b =>
  inferInstanceAs (Decidable
    (a.priority < b.priority ∨ (a.priority = b.priority ∧ shown b.createdAt ≤ shown a.createdAt)))

def onlineNodes (nodes : Table Node) : List Node :=
  nodes.rows.filter (fun n => decide (n.status = .online))

/-- The node named by the lane row of a task; empty = not pinned. -/
def lanePin (lanes : Table Lane) (task : Task) : String :=
  if task.laneKey = "" then "" else ((lanes.get? task.laneKey).map Lane.node).getD ""

/-- The bookkeeping of one pass. -/
structure Pass (σ : Type) where
  store : σ
  fair : FairScheduler
  activeCounts : String → Nat
  newAssignments : List Assignment := []

section SchedulePass

variable [Unicode] {σ : Type}

/-- One iteration of the loop over the ready tasks. `assign` writes the task
row and its lease; it may refuse (a status-guarded write that hits no row). -/
def Pass.serve (assign : Task → String → σ → Option σ) (online : List Node)
    (pin : Task → String) (p : Pass σ) (task : Task) : Pass σ :=
  match (p.fair.choosePinned task.requires online p.activeCounts (pin task)).1 with
  | none => p
  | some node =>
      match assign task node.id p.store with
      | none => p
      | some store =>
          { store := store
            fair := p.fair.markPicked node.id
            activeCounts := Chooser.bump p.activeCounts node.id
            newAssignments := p.newAssignments ++
              [⟨task.id, task.title, node.id, task.priority⟩] }

/-- The loop of `schedule_pending_detailed`. -/
def Pass.run (assign : Task → String → σ → Option σ) (online : List Node)
    (pin : Task → String) (p : Pass σ) (readyTasks : List Task) : Pass σ :=
  readyTasks.foldl (Pass.serve assign online pin) p

end SchedulePass

/-! ## What the operations write in a task row

The stores set the same columns; they differ in when they do it. -/

namespace Task

/-- The row of a task that a pass gives to a node. -/
def assignTo (now : Nat) (nodeId : String) (t : Task) : Task :=
  { t with
    status := .running
    assignedTo := some nodeId
    updatedAt := now
    version := t.version + 1 }

/-- `set_task_status`; an empty reason keeps the stored one. -/
def withStatus (now : Nat) (status : TaskStatus) (failReason : String) (t : Task) : Task :=
  { t with
    status := status
    updatedAt := now
    version := t.version + 1
    failReason := if failReason = "" then t.failReason else some failReason }

/-- `set_task_result`. -/
def withResult (now : Nat) (result : String) (t : Task) : Task :=
  { t with result := some result, updatedAt := now, version := t.version + 1 }

/-- `unassign_task`. -/
def unassign (now : Nat) (t : Task) : Task :=
  { t with assignedTo := none, status := .ready, updatedAt := now, version := t.version + 1 }

/-- `unblock_task` and `unblock_to_ready`. -/
def unblockTo (now : Nat) (status : TaskStatus) (t : Task) : Task :=
  { t with status := status, updatedAt := now, version := t.version + 1 }

/-- `set_task_ballot`. -/
def withBallot (now : Nat) (ballot : Option Ballot) (t : Task) : Task :=
  { t with ballot := ballot, updatedAt := now, version := t.version + 1 }

/-- `set_task_cancel_requeue`. -/
def withCancelRequeue (now : Nat) (requeue : Bool) (t : Task) : Task :=
  { t with cancelRequeue := some requeue, updatedAt := now, version := t.version + 1 }

/-- `requeue_task`. -/
def requeue (now : Nat) (reason : String) (t : Task) : Task :=
  { t with
    attempts := t.attempts + 1
    assignedTo := none
    status := .ready
    updatedAt := now
    version := t.version + 1
    failReason := if reason = "" then t.failReason else some reason }

/-- `set_dependencies`. -/
def withDependencies (now : Nat) (dependsOn : List String) (t : Task) : Task :=
  { t with dependsOn := dependsOn, updatedAt := now, version := t.version + 1 }

/-- Promotion by `trigger_pending_tasks`; the version is not bumped. -/
def promote (now : Nat) (t : Task) : Task :=
  { t with status := .ready, updatedAt := now }

/-- A landing held by `trigger_pending_tasks` records why. -/
def hold (now : Nat) (reason : String) (t : Task) : Task :=
  { t with failReason := some reason, updatedAt := now }

/-- The handlers' own write of `assigned_to` (and of the reason, if given). -/
def writeRow (now : Nat) (assignedTo failReason : Option String) (t : Task) : Task :=
  { t with
    assignedTo := assignedTo
    updatedAt := now
    version := t.version + 1
    failReason := if failReason.getD "" = "" then t.failReason else failReason }

/-- What `ClusterState.handle_sync_message` adds to an accepted status write. -/
def withSync (assignedTo : Option String) (version : Int) (t : Task) : Task :=
  { t with
    assignedTo := if assignedTo.getD "" = "" then t.assignedTo else assignedTo
    version := max t.version version }

/-- `ClusterStore.handle_sync_message` on an existing row. -/
def overwriteSync (now : Nat) (status : TaskStatus) (assignedTo : Option String)
    (version : Int) (t : Task) : Task :=
  { t with status := status, assignedTo := assignedTo, version := version, updatedAt := now }

/-! None of them changes the id of the task. -/

theorem keepsKey_assignTo {now : Nat} {nodeId : String} : Table.KeepsKey (assignTo now nodeId) :=
  fun _ => rfl

theorem keepsKey_withStatus {now : Nat} {status : TaskStatus} {failReason : String} :
    Table.KeepsKey (withStatus now status failReason) :=
  fun _ => rfl

theorem keepsKey_withResult {now : Nat} {result : String} :
    Table.KeepsKey (withResult now result) :=
  fun _ => rfl

theorem keepsKey_unassign {now : Nat} : Table.KeepsKey (unassign now) :=
  fun _ => rfl

theorem keepsKey_unblockTo {now : Nat} {status : TaskStatus} :
    Table.KeepsKey (unblockTo now status) :=
  fun _ => rfl

theorem keepsKey_withBallot {now : Nat} {ballot : Option Ballot} :
    Table.KeepsKey (withBallot now ballot) :=
  fun _ => rfl

theorem keepsKey_withCancelRequeue {now : Nat} {requeue : Bool} :
    Table.KeepsKey (withCancelRequeue now requeue) :=
  fun _ => rfl

theorem keepsKey_requeue {now : Nat} {reason : String} : Table.KeepsKey (requeue now reason) :=
  fun _ => rfl

theorem keepsKey_withDependencies {now : Nat} {dependsOn : List String} :
    Table.KeepsKey (withDependencies now dependsOn) :=
  fun _ => rfl

theorem keepsKey_promote {now : Nat} : Table.KeepsKey (promote now) :=
  fun _ => rfl

theorem keepsKey_hold {now : Nat} {reason : String} : Table.KeepsKey (hold now reason) :=
  fun _ => rfl

end Task

/-- The row that `create_task` and `create_tasks_batch` build from a plan. -/
def TaskPlan.toTask (plan : TaskPlan) (now : Nat) (status : TaskStatus) : Task where
  id := plan.taskId
  title := plan.title
  requires := plan.requires
  dependsOn := plan.dependsOn
  priority := plan.priority
  status := status
  createdAt := now
  updatedAt := now
  version := 1
  laneKey := plan.laneKey
  role := plan.role
  description := plan.description
  issues := plan.issues

/-- The task a sync message creates. -/
def TaskSync.toTask (ts : TaskSync) (now : Nat) (status : TaskStatus) : Task where
  id := ts.taskId
  title := ts.title
  status := status
  assignedTo := ts.assignedTo
  createdAt := now
  updatedAt := now
  version := ts.version

/-- `task_retry_limit`, which nothing overrides. -/
def taskRetryLimit : Nat := 3

/-! ## Nodes and lanes -/

namespace Node

/-- `update_heartbeat`: the reason decides the status. -/
def heartbeat (statusReason : String) (n : Node) : Node :=
  { n with
    status := if statusReason = "" then .online else .degraded
    statusReason := statusReason }

/-- `set_node_status`: an online node has no reason. -/
def withNodeStatus (status : NodeStatus) (reason : String) (n : Node) : Node :=
  { n with status := status, statusReason := if status = .online then "" else reason }

def withCapabilities (caps : List String) (n : Node) : Node :=
  { n with capabilities := caps }

def withDrained (drained : Bool) (n : Node) : Node :=
  { n with drained := drained }

def withMaxConcurrent (maxConcurrent : Int) (n : Node) : Node :=
  { n with maxConcurrent := max 0 maxConcurrent }

theorem keepsKey_heartbeat {statusReason : String} : Table.KeepsKey (heartbeat statusReason) :=
  fun _ => rfl

theorem keepsKey_withNodeStatus {status : NodeStatus} {reason : String} :
    Table.KeepsKey (withNodeStatus status reason) :=
  fun _ => rfl

theorem keepsKey_withCapabilities {caps : List String} : Table.KeepsKey (withCapabilities caps) :=
  fun _ => rfl

theorem keepsKey_withDrained {drained : Bool} : Table.KeepsKey (withDrained drained) :=
  fun _ => rfl

theorem keepsKey_withMaxConcurrent {maxConcurrent : Int} :
    Table.KeepsKey (withMaxConcurrent maxConcurrent) :=
  fun _ => rfl

end Node

end HermesCluster
