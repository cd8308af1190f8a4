import HermesCluster.State.Board
import HermesCluster.Core.LandingGate
import HermesCluster.Lib.Like
/-!
# The SQL stores

`state/cluster_store.py` (SQLite) and `state/postgres_store.py`, which runs the
same statements. Where the two differ, the dialect decides: PostgreSQL guards
the write of an assignment by the status, counts promotions by the rows hit,
reads a created batch back in table order, and looks for dependents with `LIKE`.
-/

namespace HermesCluster

inductive SqlDialect where
  | sqlite | postgres
  deriving DecidableEq, Repr

/-- The condition of `get_dependents` on `depends_on`, which holds the ids as JSON:
PostgreSQL asks for `LIKE '%"<id>"%'`. -/
def SqlDialect.dependentRows : SqlDialect → RowQuery
  | sqlite => .all
  | postgres => fun taskId dependsOn =>
      Like.accepts ('%' :: ('"' :: (taskId.toList ++ ['"']) ++ ['%'])) (JsonText.strings dependsOn)

structure ClusterStore extends Board where
  syncVersion : Int := 0

namespace ClusterStore

def empty : ClusterStore where
  toBoard := {}

/-- `UPDATE tasks SET … WHERE p`, with its row count. -/
def updateTasks (p : Task → Prop) [DecidablePred p] (f : Task → Task)
    (hf : Table.KeepsKey f) (s : ClusterStore) : Nat × ClusterStore :=
  (s.tasks.countWhere p, { s with tasks := s.tasks.updateWhere p f hf })

/-- An `UPDATE` whose caller asks whether `rowcount > 0`. -/
def updateHit (p : Task → Prop) [DecidablePred p] (f : Task → Task)
    (hf : Table.KeepsKey f) (s : ClusterStore) : Bool × ClusterStore :=
  (decide (0 < s.tasks.countWhere p), { s with tasks := s.tasks.updateWhere p f hf })

/-! ## Leases -/

/-- `create_lease`. -/
def createLease (now : Nat) (taskId nodeId : String) (ttl : Nat) (s : ClusterStore) :
    Lease × ClusterStore :=
  (newLease now s.leases taskId nodeId ttl,
    { s with leases := addLease now s.leases taskId nodeId ttl })

/-- `revoke_lease`. -/
def revokeLease (leaseId : Nat) (s : ClusterStore) : Bool × ClusterStore :=
  (decide (0 < s.leases.countWhere (fun l => l.id = leaseId)),
    { s with
      leases := s.leases.updateWhere (fun l => l.id = leaseId) Lease.revoke
        Lease.keepsKey_revoke })

/-- `get_active_leases`: the ids of the lapsed rows are collected first and
marked afterwards; PostgreSQL marks only rows still active. -/
def getActiveLeases (d : SqlDialect) (now : Nat) (s : ClusterStore) :
    List Lease × ClusterStore :=
  let rows := s.leases.rows.filter (fun l => decide (l.status = .active))
  let expiredIds := (rows.filter (fun l => decide (l.expiresAt ≤ now))).map Lease.id
  (rows.filter (fun l => decide (now < l.expiresAt)),
    { s with
      leases := s.leases.updateWhere
        (fun l => l.id ∈ expiredIds ∧ (d = .postgres → l.status = .active))
        Lease.expire Lease.keepsKey_expire })

/-- `get_lease_by_task`. -/
def getLeaseByTask (taskId : String) (s : ClusterStore) : Option Lease :=
  if taskId = "" then none
  else s.leases.rows.find? (fun l => decide (l.taskId = taskId ∧ l.status = .active))

/-- `get_expired_leases`. -/
def getExpiredLeases (s : ClusterStore) : List Lease :=
  s.leases.rows.filter (fun l => decide (l.status = .expired))

/-! ## Tasks -/

/-- `create_task`: `INSERT OR IGNORE`, then the dependency-free row is promoted
if it is pending. -/
def createTask (now : Nat) (plan : TaskPlan) (s : ClusterStore) : Task × ClusterStore :=
  let inserted : ClusterStore :=
    { s with tasks := s.tasks.insertOrIgnore (plan.toTask now .pending) }
  let s :=
    if plan.dependsOn = [] then
      (inserted.updateTasks (fun t => t.id = plan.taskId ∧ t.status = .pending)
        (Task.promote now) Task.keepsKey_promote).2
    else inserted
  ((s.tasks.get? plan.taskId).getD (plan.toTask now .pending), s)

/-- `create_tasks_batch`: all inserts, then one promotion of the batch's
dependency-free rows that are pending. -/
def createTasksBatch (d : SqlDialect) (now : Nat) (plans : List TaskPlan)
    (s : ClusterStore) : List Task × ClusterStore :=
  let inserted : ClusterStore := { s with
    tasks := plans.foldl (fun tasks plan => tasks.insertOrIgnore (plan.toTask now .pending))
      s.tasks }
  let ids := (plans.filter (fun plan => decide (plan.dependsOn = []))).map TaskPlan.taskId
  let s := (inserted.updateTasks (fun t => t.id ∈ ids ∧ t.status = .pending)
    (Task.promote now) Task.keepsKey_promote).2
  let out :=
    match d with
    | .sqlite => plans.filterMap (fun plan => s.tasks.get? plan.taskId)
    | .postgres =>
        s.tasks.rows.filter (fun t => decide (t.id ∈ plans.map TaskPlan.taskId))
  (out, s)

variable [Unicode]

/-- `set_task_result`. -/
def setTaskResult (now : Nat) (taskId : String) (result : Option String)
    (s : ClusterStore) : Bool × ClusterStore :=
  match result with
  | none => (false, s)
  | some body =>
      if Text.isBlank body then (false, s)
      else s.updateHit (fun t => t.id = taskId) (Task.withResult now body) Task.keepsKey_withResult

/-- `set_task_status`: the row is updated whatever its status. -/
def setTaskStatus (now : Nat) (taskId : String) (status : TaskStatus) (failReason : String)
    (s : ClusterStore) : Bool × ClusterStore :=
  s.updateHit (fun t => t.id = taskId) (Task.withStatus now status failReason)
    Task.keepsKey_withStatus

/-- `unassign_task`: neither a terminal task nor one under a live lease. -/
def unassignTask (now : Nat) (taskId : String) (s : ClusterStore) : Bool × ClusterStore :=
  s.updateHit
    (fun t => t.id = taskId ∧ ¬t.status.IsTerminal ∧
      ¬∃ l ∈ s.leases.rows, l.taskId = t.id ∧ l.IsLive now)
    (Task.unassign now) Task.keepsKey_unassign

/-- `unblock_task` (to pending) and `unblock_to_ready` (to ready). -/
def unblockTo (now : Nat) (status : TaskStatus) (taskId : String) (s : ClusterStore) :
    Bool × ClusterStore :=
  s.updateHit (fun t => t.id = taskId ∧ t.status = .blocked) (Task.unblockTo now status)
    Task.keepsKey_unblockTo

def unblockTask (now : Nat) (taskId : String) (s : ClusterStore) : Bool × ClusterStore :=
  s.unblockTo now .pending taskId

def unblockToReady (now : Nat) (taskId : String) (s : ClusterStore) : Bool × ClusterStore :=
  s.unblockTo now .ready taskId

def setTaskBallot (now : Nat) (taskId : String) (ballot : Option Ballot)
    (s : ClusterStore) : Bool × ClusterStore :=
  s.updateHit (fun t => t.id = taskId) (Task.withBallot now ballot) Task.keepsKey_withBallot

def setTaskCancelRequeue (now : Nat) (taskId : String) (requeue : Bool)
    (s : ClusterStore) : Bool × ClusterStore :=
  s.updateHit (fun t => t.id = taskId) (Task.withCancelRequeue now requeue)
    Task.keepsKey_withCancelRequeue

/-- `requeue_task`: the live leases are revoked first, then the guarded update. -/
def requeueTask (now : Nat) (taskId reason : String) (s : ClusterStore) :
    Bool × ClusterStore :=
  let revoked := { s with
    leases := s.leases.updateWhere (fun l => l.taskId = taskId ∧ l.IsLive now)
      Lease.revoke Lease.keepsKey_revoke }
  revoked.updateHit
    (fun t => t.id = taskId ∧ ¬t.status.IsTerminal ∧ t.attempts < taskRetryLimit)
    (Task.requeue now reason) Task.keepsKey_requeue

/-- `set_dependencies`: a ready task that gets dependencies is demoted. -/
def setDependencies (now : Nat) (taskId : String) (dependsOn : List String)
    (s : ClusterStore) : Bool × ClusterStore :=
  let written := s.updateHit (fun t => t.id = taskId) (Task.withDependencies now dependsOn)
    Task.keepsKey_withDependencies
  if dependsOn ≠ [] ∧ written.1 = true then
    (written.1, (written.2.updateTasks (fun t => t.id = taskId ∧ t.status = .ready)
      (fun t => { t with status := .pending }) (fun _ => rfl)).2)
  else written

/-- The store has neither `_tasks_lock` nor `_tasks`. -/
def writeTaskRow (s : ClusterStore) : Except String Unit × ClusterStore :=
  (.error "AttributeError", s)

/-! ## Promotion and scheduling -/

/-- The guarded `UPDATE` of one promotion. -/
def promoteRow (d : SqlDialect) (now : Nat) (st : Table Task × Nat) (taskId : String) :
    Table Task × Nat :=
  let hits := st.1.countWhere (fun t => t.id = taskId ∧ t.status = .pending)
  (st.1.updateWhere (fun t => t.id = taskId ∧ t.status = .pending) (Task.promote now)
      Task.keepsKey_promote,
    st.2 + (match d with | .sqlite => 1 | .postgres => hits))

/-- One iteration of `trigger_pending_tasks`, over a row read at its start. -/
def promoteStep (d : SqlDialect) (now : Nat) (st : Table Task × Nat)
    (row : String × List String) : Table Task × Nat :=
  if ¬∀ dep ∈ row.2, (st.1.get? dep).map Task.status = some .completed then st
  else
    match (st.1.get? row.1).filter (fun t => decide (LandingGate.IsLanding t)) with
    | none => promoteRow d now st row.1
    | some candidate =>
        match LandingGate.holdReason st.1.rows candidate with
        | none => promoteRow d now st row.1
        | some reason =>
            if candidate.failReason.getD "" = reason then st
            else
              (st.1.updateWhere (fun t => t.id = row.1 ∧ t.status = .pending)
                (Task.hold now reason) Task.keepsKey_hold, st.2)

/-- `trigger_pending_tasks`. -/
def triggerPendingTasks (d : SqlDialect) (now : Nat) (s : ClusterStore) :
    Nat × ClusterStore :=
  let rows := (s.tasks.rows.filter (fun t => decide (t.status = .pending))).map
    (fun t => (t.id, t.dependsOn))
  let result := rows.foldl (promoteStep d now) (s.tasks, 0)
  (result.2, { s with tasks := result.1 })

/-- `SELECT assigned_to, COUNT(*) … GROUP BY assigned_to`. -/
def activeCounts (tasks : List Task) (nodeId : String) : Nat :=
  if nodeId = "" then 0
  else tasks.countP (fun t => decide (t.status.IsActive ∧ t.assignedTo = some nodeId))

/-- `SELECT … ORDER BY priority, created_at DESC`, then the two exclusions. -/
def readyTasks (now : Nat) (s : ClusterStore) : List Task :=
  let leased := leasedTaskIds now s.leases
  let laneBlocked := laneBlockedReadyIds s.tasks.rows
  ((s.tasks.rows.filter (fun t => decide (t.status = .ready))).insertionSort
    (ServedFirst (fun time => time))).filter (fun t => decide (t.id ∉ leased ∧ t.id ∉ laneBlocked))

/-- The write of one assignment: the task row, then the inlined lease insert. -/
def assign (d : SqlDialect) (now : Nat) (task : Task) (nodeId : String)
    (s : ClusterStore) : Option ClusterStore :=
  let written := s.updateTasks
    (fun t => t.id = task.id ∧ (d = .postgres → t.status = .ready))
    (Task.assignTo now nodeId) Task.keepsKey_assignTo
  if d = .postgres ∧ written.1 = 0 then none
  else some (written.2.createLease now task.id nodeId schedulerAssignedTtl).2

/-- `schedule_pending_detailed`. -/
def schedulePendingDetailed (d : SqlDialect) (now : Nat) (s : ClusterStore) :
    List Assignment × ClusterStore :=
  let online := onlineNodes s.nodes
  if online = [] then ([], s)
  else
    let pass := Pass.run (assign d now) online (lanePin s.lanes)
      { store := s, fair := s.fair, activeCounts := activeCounts s.tasks.rows }
      (s.readyTasks now)
    (pass.newAssignments, { pass.store with fair := pass.fair })

/-! ## Sync messages and nodes -/

/-- `handle_sync_message`: the last message wins, whatever the row says. A
status outside the enum would leave a row that no read can decode; such a
message is outside the model. -/
def handleSyncMessage (now : Nat) (msg : SyncMessage) (s : ClusterStore) :
    Bool × ClusterStore :=
  if msg.version ≤ s.syncVersion then (false, s)
  else
    let s := { s with syncVersion := msg.version }
    match msg.taskState with
    | none => (true, s)
    | some ts =>
        match TaskStatus.ofValue ts.status with
        | none => (true, s)
        | some status =>
            match s.tasks.get? ts.taskId with
            | some _ =>
                (true, { s with
                  tasks := s.tasks.updateWhere (fun t => t.id = ts.taskId)
                    (Task.overwriteSync now status ts.assignedTo ts.version) (fun _ => rfl) })
            | none =>
                (true, { s with tasks := s.tasks.insertOrIgnore (ts.toTask now status) })

/-- `register_node`: on a conflict `drained` is not among the columns set, and
a new row starts with its default. -/
def registerNode (node : Node) (s : ClusterStore) : ClusterStore :=
  let drained := (s.nodes.get? node.id).any Node.drained
  { s with nodes := s.nodes.upsert { node with drained := drained } }

/-! ## The store interface -/

/-- One operation of a SQL store at the time `now`. -/
def step (d : SqlDialect) (now : Nat) : (op : StoreOp) → ClusterStore → op.Res × ClusterStore
  | .utcnow, s => (now, s)
  | .getTask taskId, s => (s.tasks.get? taskId, s)
  | .getAllTasks, s => (s.tasks.rows, s)
  | .getAllNodes, s => (s.nodes.rows, s)
  | .getDependents taskId, s => (dependentsOf d.dependentRows s.tasks taskId, s)
  | .getTriggerChain taskId, s => (triggerChain d.dependentRows s.tasks taskId, s)
  | .getLeaseByTask taskId, s => (s.getLeaseByTask taskId, s)
  | .getActiveLeases, s => s.getActiveLeases d now
  | .getExpiredLeases, s => (s.getExpiredLeases, s)
  | .unleasedRunningTasks, s => (unleasedRunning now s.toBoard, s)
  | .createTask plan, s => s.createTask now plan
  | .createTasksBatch plans, s => s.createTasksBatch d now plans
  | .setTaskResult taskId result, s => s.setTaskResult now taskId result
  | .setTaskStatus taskId status failReason, s => s.setTaskStatus now taskId status failReason
  | .unassignTask taskId, s => s.unassignTask now taskId
  | .unblockTask taskId, s => s.unblockTask now taskId
  | .setTaskBallot taskId ballot, s => s.setTaskBallot now taskId ballot
  | .setTaskCancelRequeue taskId requeue, s => s.setTaskCancelRequeue now taskId requeue
  | .unblockToReady taskId, s => s.unblockToReady now taskId
  | .requeueTask taskId reason, s => s.requeueTask now taskId reason
  | .setDependencies taskId dependsOn, s => s.setDependencies now taskId dependsOn
  | .triggerPendingTasks, s => s.triggerPendingTasks d now
  | .schedulePendingDetailed, s => s.schedulePendingDetailed d now
  | .handleSyncMessage msg, s => s.handleSyncMessage now msg
  | .writeTaskRow _ _ _, s => s.writeTaskRow
  | .createLease taskId nodeId ttl, s => s.createLease now taskId nodeId ttl
  | .revokeLease leaseId, s => s.revokeLease leaseId
  | .registerNode node, s => ((), s.registerNode node)
  | .updateHeartbeat nodeId statusReason, s =>
      ((), { s with
        nodes := s.nodes.modify nodeId (Node.heartbeat statusReason) Node.keepsKey_heartbeat })
  | .updateCapabilities nodeId caps, s =>
      ((), { s with
        nodes := s.nodes.modify nodeId (Node.withCapabilities caps)
          Node.keepsKey_withCapabilities })
  | .setDrained nodeId drained, s =>
      ((), { s with
        nodes := s.nodes.modify nodeId (Node.withDrained drained) Node.keepsKey_withDrained })
  | .updateMaxConcurrent nodeId maxConcurrent, s =>
      ((), { s with
        nodes := s.nodes.modify nodeId (Node.withMaxConcurrent maxConcurrent)
          Node.keepsKey_withMaxConcurrent })
  | .setNodeStatus nodeId status reason, s =>
      ((), { s with
        nodes := s.nodes.modify nodeId (Node.withNodeStatus status reason)
          Node.keepsKey_withNodeStatus })
  | .recordLane lane, s => ((), { s with lanes := s.lanes.upsert lane })
  | .deleteLane laneKey, s =>
      ((s.lanes.get? laneKey).isSome, { s with lanes := s.lanes.erase laneKey })

end ClusterStore

end HermesCluster
