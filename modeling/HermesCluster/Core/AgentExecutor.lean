import HermesCluster.Lib.Program
import HermesCluster.Lib.Text
import HermesCluster.Models
/-!
# Agent executor

`core/agent_executor.py`: the worker node's loop, which claims the tasks main
assigned to it, spawns a worker for each, renews their leases and reports their
outcomes. Everything outside the executor is asked for by an operation with any
reply: main's HTTP endpoints, the clock, the worker processes and what they left
behind, and the node's own store. Only the poll thread moves the executor, so
its methods are programs from one executor to the next.
-/

namespace HermesCluster

/-! ## The executor's records -/

/-- `ActiveSpawn`; no lease is `none`. -/
structure ActiveSpawn where
  taskId : String
  /-- The process handle is a `_ResumedProcess`, which only knows a pid. -/
  standIn : Bool := false
  leaseId : Option Nat := none
  startedAt : Nat := 0
  laneName : String := ""
  hermes : Bool := false
  laneKey : String := ""
  role : String := "author"
  taskPayload : Option Task := none
  busyAttempts : Nat := 0
  attempt : Nat := 0
  deriving DecidableEq, Repr

inductive ReportVerb where
  | complete | fail
  deriving DecidableEq, Repr

def ReportVerb.value : ReportVerb → String
  | complete => "complete"
  | fail => "fail"

/-- The body of a terminal report; an absent key is `none`. -/
structure ReportPayload where
  result : Option String := none
  reason : Option String := none
  deriving DecidableEq, Repr

/-- A value of `_pending_reports`, with its key. -/
structure PendingReport where
  verb : ReportVerb
  taskId : String
  path : String
  payload : ReportPayload
  attempts : Nat
  nextAt : Nat
  deriving DecidableEq, Repr

/-- An entry of `_lane_queue` or `_lane_released`: the tasks of one lane. -/
structure LaneFifo where
  laneKey : String
  tasks : List Task
  deriving DecidableEq, Repr

/-- An entry of `_lane_queue_meta`. -/
structure QueueMeta where
  taskId : String
  attempts : Nat
  notBefore : Nat
  deriving DecidableEq, Repr

/-- A row of the node's `task_spawns`. -/
structure SpawnRecord where
  taskId : String
  leaseId : Option Nat := none
  startedAt : Nat := 0
  laneName : String := ""
  hermes : Bool := false
  laneKey : String := ""
  role : String := "author"
  attempt : Nat := 0
  deriving DecidableEq, Repr

instance : HasKey ActiveSpawn String := ⟨ActiveSpawn.taskId⟩
instance : HasKey PendingReport (ReportVerb × String) := ⟨fun r => (r.verb, r.taskId)⟩
instance : HasKey LaneFifo String := ⟨LaneFifo.laneKey⟩
instance : HasKey QueueMeta String := ⟨QueueMeta.taskId⟩

@[simp] theorem ActiveSpawn.key_eq (s : ActiveSpawn) : HasKey.key s = s.taskId := rfl
@[simp] theorem PendingReport.key_eq (r : PendingReport) : HasKey.key r = (r.verb, r.taskId) := rfl
@[simp] theorem LaneFifo.key_eq (q : LaneFifo) : HasKey.key q = q.laneKey := rfl
@[simp] theorem QueueMeta.key_eq (m : QueueMeta) : HasKey.key m = m.taskId := rfl

/-- What a finished worker came to, as the reap classifies it; every other
outcome that is simply reported as a failure is `other`. -/
inductive Outcome where
  | done | transcriptPromoted | blocked | nonDeliverable | laneBusyRefused | timeout | other
  deriving DecidableEq, Repr

/-- What the lane status, the process and its files say of a finished worker. -/
structure Resolution where
  outcome : Outcome
  detail : String
  result : Option String := none
  ballot : Option BlockTaskRequest := none

/-- What `Popen` does. -/
inductive Popen where
  | started | notFound | raised (message : String)
  deriving DecidableEq, Repr

/-- `AgentExecutor`: the configuration it reads and the fields that change. -/
structure Executor where
  nodeId : String
  maxConcurrent : Nat := 1
  hermesWorker : Bool := false
  hasStore : Bool := true
  retryLimit : Nat := 3
  /-- `_persisted_refresh_s`; negative values, which switch it off, are `none`. -/
  persistedRefresh : Option Nat := some (15 * 1000000)
  activeSpawns : Table ActiveSpawn := .empty
  persistedIds : List String := []
  /-- `_foreign_spawn_ids`: records that turned up after the start. -/
  foreignSpawnIds : List String := []
  lastPersistedRefresh : Nat := 0
  pendingReports : Table PendingReport := .empty
  laneQueue : Table LaneFifo := .empty
  laneReleased : Table LaneFifo := .empty
  laneQueueMeta : Table QueueMeta := .empty

/-! ## What the executor asks for -/

/-- The executor that asks is part of the question where a run is to speak of
it; whoever answers does not see it. -/
inductive ExecOp where
  | time
  | monotonic
  | diskGateBlocks
  | getTasks (e : Executor)
  | getTask (taskId : String)
  | getLeases
  | extendLease (leaseId : Nat)
  | report (path : String) (payload : ReportPayload)
  | block (taskId : String) (ballot : BlockTaskRequest)
  | requeue (taskId reason : String) (requeue : Bool)
  | ackCancel (taskId : String)
  | release (taskId nodeId reason : String)
  | popen (e : Executor) (task : Task)
  | observe (spawn : ActiveSpawn)
  | kill (spawn : ActiveSpawn)
  | getLane (laneKey : String)
  | recordTaskSpawn (spawn : ActiveSpawn)
  | deleteTaskSpawn (taskId : String)
  | getAllTaskSpawns (e : Executor)

/-- The replies; a request that fails is `none` or `false`. -/
abbrev ExecOp.Res : ExecOp → Type
  | time | monotonic => Nat
  | diskGateBlocks => Bool
  | getTasks _ => Option (List Task)
  | getTask _ => Option Task
  | getLeases => Option (List Lease)
  | extendLease _ => Bool
  | report _ _ => Bool
  | block _ _ => Bool
  | requeue _ _ _ => Bool
  | ackCancel _ => Bool
  | release _ _ _ => Unit
  | popen _ _ => Popen
  | observe _ => Option Resolution
  | kill _ => Unit
  | getLane _ => Option Lane
  | recordTaskSpawn _ => Unit
  | deleteTaskSpawn _ => Unit
  | getAllTaskSpawns _ => Option (List SpawnRecord)

abbrev Exec (α : Type) : Type := Program ExecOp ExecOp.Res Empty α

def ask (op : ExecOp) : Exec op.Res := Program.perform op

namespace AgentExecutor

/-! ## Constants -/

def laneQueueLimit : Nat := 64
def laneBusyMaxRetries : Nat := 5
def laneBusyBackoffBase : Nat := 2 * 1000000
def reportBackoffBase : Nat := 500000
def reportBackoffCap : Nat := 60 * 1000000
def reportMaxAttempts : Nat := 100

/-! ## Node ids -/

/-- `_is_assigned_to_me`: `node_<id>` and `<id>` are both this node. -/
def isAssignedToMe (e : Executor) (assignedTo : Option String) : Bool :=
  match assignedTo with
  | none | some "" => false
  | some a => a = e.nodeId || a = "node_" ++ e.nodeId || Text.removePrefix "node_" a = e.nodeId

/-- The spellings `_find_lease_for_task` accepts. -/
def leaseNodeMatches (e : Executor) (nodeId : String) : Bool :=
  nodeId = e.nodeId || nodeId = "node_" ++ e.nodeId || Text.removePrefix "node_" nodeId = e.nodeId

/-- `_node_ids_match`. -/
def nodeIdsMatch (a b : String) : Bool :=
  a ≠ "" && b ≠ "" &&
    (a = b || Text.removePrefix "node_" a = b || Text.removePrefix "node_" b = a)

/-! ## Terminal reports -/

/-- `_queue_report`: report now, or keep the report for later. -/
def queueReport (verb : ReportVerb) (taskId : String) (payload : ReportPayload) (e : Executor) :
    Exec Executor := do
  let path := "/api/v1/tasks/" ++ taskId ++ "/" ++ verb.value
  let ok ← ask (.report path payload)
  if ok = true then pure e
  else
    let now ← ask .monotonic
    pure { e with
      pendingReports := e.pendingReports.upsert
        { verb := verb, taskId := taskId, path := path, payload := payload, attempts := 1,
          nextAt := now + reportBackoffBase } }

/-- `_report_completion`. -/
def reportCompletion (taskId : String) (result : Option String) (e : Executor) : Exec Executor :=
  queueReport .complete taskId { result := result.filter (fun r => decide (r ≠ "")) } e

section Blank

variable [Unicode]

/-- `_report_failure`: a failure without a reason is not reported. -/
def reportFailure (taskId reason : String) (e : Executor) : Exec Executor :=
  if Text.strip reason = "" then pure e
  else queueReport .fail taskId { reason := some (Text.strip reason) } e

end Blank

/-- `_report_blocked`: a lost ballot is reported as a completion. -/
def reportBlocked (taskId : String) (ballot : Option BlockTaskRequest) (result : Option String)
    (e : Executor) : Exec Executor :=
  match ballot with
  | none => reportCompletion taskId result e
  | some ballot => do
      let _ ← ask (.block taskId ballot)
      pure e

/-- The next attempt at a report that failed again, if there is one. -/
def retryReport (now : Nat) (r : PendingReport) : Option PendingReport :=
  let attempts := r.attempts + 1
  if reportMaxAttempts ≤ attempts then none
  else
    some { r with
      attempts := attempts
      nextAt := now + min (reportBackoffBase * 2 ^ (attempts - 1)) reportBackoffCap }

/-- One due report of `_drain_pending_reports`. -/
def drainReport (now : Nat) (e : Executor) (entry : PendingReport) : Exec Executor := do
  let ok ← ask (.report entry.path entry.payload)
  match e.pendingReports.get? (entry.verb, entry.taskId) with
  | none => pure e
  | some current =>
      let erased := e.pendingReports.erase (entry.verb, entry.taskId)
      if ok = true then pure { e with pendingReports := erased }
      else
        match retryReport now current with
        | none => pure { e with pendingReports := erased }
        | some next => pure { e with pendingReports := e.pendingReports.upsert next }

/-- `_drain_pending_reports`. -/
def drainPendingReports (e : Executor) : Exec Executor := do
  let now ← ask .monotonic
  let due := e.pendingReports.rows.filter (fun r => decide (r.nextAt ≤ now))
  due.foldlM (drainReport now) e

/-! ## Lane queues -/

/-- `_lane_has_active_delivery`. -/
def laneHasActiveDelivery (e : Executor) (laneKey : String) : Bool :=
  e.activeSpawns.rows.any (fun s => decide (s.laneKey = laneKey))

/-- `q.get(lane_key, [])`. -/
def fifoOf (q : Table LaneFifo) (laneKey : String) : List Task :=
  ((q.get? laneKey).map LaneFifo.tasks).getD []

/-- `_lane_busy_backoff`. -/
def laneBusyBackoff (attempts : Nat) : Nat :=
  if attempts = 0 then 0 else laneBusyBackoffBase * 2 ^ (attempts - 1)

/-- `_queue_for_lane`: whether the task is in the queue. -/
def queueForLane (laneKey : String) (task : Task) (attempts : Nat) (e : Executor) :
    Exec (Bool × Executor) := do
  let q := fifoOf e.laneQueue laneKey
  let e := { e with laneQueue := e.laneQueue.upsert ⟨laneKey, q⟩ }
  if laneQueueLimit ≤ q.length then pure (false, e)
  else if q.any (fun t => decide (t.id = task.id)) = true then pure (true, e)
  else
    let now ← ask .time
    pure (true, { e with
      laneQueue := e.laneQueue.upsert ⟨laneKey, q ++ [task]⟩
      laneQueueMeta := e.laneQueueMeta.upsert ⟨task.id, attempts, now + laneBusyBackoff attempts⟩ })

/-- One lane of `_sweep_lane_queues`: its head moves on if the lane is free and
the backoff of the head is over. -/
def releaseHead (now : Nat) (busyLaneKeys : List String) (e : Executor) (laneKey : String) :
    Executor :=
  if laneKey ∈ busyLaneKeys then e
  else
    match fifoOf e.laneQueue laneKey with
    | [] => { e with laneQueue := e.laneQueue.erase laneKey }
    | head :: rest =>
        if ∃ m ∈ e.laneQueueMeta.get? head.id, now < m.notBefore then e
        else
          { e with
            laneQueue := if rest = [] then e.laneQueue.erase laneKey
              else e.laneQueue.upsert ⟨laneKey, rest⟩
            laneReleased := e.laneReleased.upsert
              ⟨laneKey, fifoOf e.laneReleased laneKey ++ [head]⟩ }

/-- `_sweep_lane_queues`. -/
def sweepLaneQueues (e : Executor) : Exec Executor := do
  let now ← ask .time
  let busyLaneKeys := (e.activeSpawns.rows.map ActiveSpawn.laneKey).filter
    (fun laneKey => decide (laneKey ≠ ""))
  pure ((e.laneQueue.rows.map LaneFifo.laneKey).foldl (releaseHead now busyLaneKeys) e)

/-- `_drain_released_lanes`. -/
def drainReleasedLanes (e : Executor) : List Task × Executor :=
  (e.laneReleased.rows.flatMap LaneFifo.tasks, { e with laneReleased := .empty })

/-- The heads a cycle has no slot for go back to the front of their queues. -/
def putBack (leftover : List Task) (e : Executor) : Executor :=
  leftover.foldr (fun task e =>
    { e with
      laneQueue := e.laneQueue.upsert ⟨task.laneKey, task :: fifoOf e.laneQueue task.laneKey⟩ }) e

/-! ## The node's own spawn records -/

/-- `_persist_spawn`; the rows of the `lanes` table are left out. -/
def persistSpawn (spawn : ActiveSpawn) (e : Executor) : Exec Executor := do
  if e.hasStore = false then pure e
  else
    let _ ← ask (.recordTaskSpawn spawn)
    pure { e with
      persistedIds := if spawn.taskId ∈ e.persistedIds then e.persistedIds
        else e.persistedIds ++ [spawn.taskId] }

/-- `_drop_persisted_spawn`. -/
def dropPersistedSpawn (taskId : String) (e : Executor) : Exec Executor := do
  if e.hasStore = false then pure e
  else
    let _ ← ask (.deleteTaskSpawn taskId)
    pure { e with persistedIds := e.persistedIds.filter (fun id => decide (id ≠ taskId)) }

/-- The spawn a record stands for. -/
def SpawnRecord.toSpawn (r : SpawnRecord) : ActiveSpawn where
  taskId := r.taskId
  standIn := true
  leaseId := r.leaseId
  startedAt := r.startedAt
  laneName := if r.laneName = "" then "hermes-" ++ r.taskId else r.laneName
  hermes := r.hermes
  laneKey := r.laneKey
  role := r.role
  attempt := r.attempt

/-- `_reattach_record_locked`. -/
def reattachRecord (e : Executor) (record : SpawnRecord) : Executor :=
  if record.taskId = "" ∨ (e.activeSpawns.get? record.taskId).isSome then e
  else { e with activeSpawns := e.activeSpawns.upsert (SpawnRecord.toSpawn record) }

/-- The ids of some records, without the empty one. -/
def recordIds (records : List SpawnRecord) : List String :=
  (records.map SpawnRecord.taskId).filter (fun id => decide (id ≠ ""))

/-- `_reconcile_persisted_spawns`, at the start. -/
def reconcilePersistedSpawns (e : Executor) : Exec Executor := do
  if e.hasStore = false then pure e
  else
    match ← ask (.getAllTaskSpawns e) with
    | none => pure e
    | some records =>
        let now ← ask .time
        pure (records.foldl reattachRecord
          { e with persistedIds := recordIds records, lastPersistedRefresh := now })

/-- `_refresh_persisted_ids`: the records that appeared since the last reading
are attached as live spawns. -/
def refreshPersistedIds (e : Executor) : Exec Executor := do
  match e.hasStore, e.persistedRefresh with
  | false, _ | _, none => pure e
  | true, some interval =>
      let now ← ask .time
      if now < e.lastPersistedRefresh + interval then pure e
      else
        let e' := { e with lastPersistedRefresh := now }
        match ← ask (.getAllTaskSpawns e) with
        | none => pure e'
        | some records =>
            let fresh := recordIds records
            let added := records.filter (fun r => decide (r.taskId ∉ e.persistedIds))
            let foreign := (e.foreignSpawnIds ++ recordIds added).filter
              (fun id => decide (id ∈ fresh))
            pure (added.foldl reattachRecord
              { e' with persistedIds := fresh, foreignSpawnIds := foreign })

/-- `duplicate_executor_observed`. -/
def duplicateExecutorObserved (e : Executor) : Bool :=
  decide (e.foreignSpawnIds ≠ [])

/-! ## Leases -/

/-- `_find_lease_for_task`. -/
def findLeaseForTask (e : Executor) (taskId : String) : Exec (Option Nat) := do
  match ← ask .getLeases with
  | none => pure none
  | some leases =>
      pure ((leases.find? (fun l =>
        l.taskId = taskId && leaseNodeMatches e l.nodeId && l.status = .active)).map Lease.id)

/-- One spawn of `_renew_leases`. The reply, which carries the lease that
replaces the one extended, is only logged. -/
def renewLease (spawn : ActiveSpawn) : Exec PUnit := do
  match spawn.leaseId with
  | none => pure ⟨⟩
  | some leaseId =>
      let _ ← ask (.extendLease leaseId)
      pure ⟨⟩

/-- `_renew_leases`. -/
def renewLeases (e : Executor) : Exec PUnit :=
  e.activeSpawns.rows.forM renewLease

/-! ## Reaping -/

/-- `_kill_spawn_process`: a stand-in holds no handle that could be killed. -/
def killSpawnProcess (spawn : ActiveSpawn) : Exec PUnit := do
  if spawn.standIn = true then pure ⟨⟩
  else
    let _ ← ask (.kill spawn)
    pure ⟨⟩

/-- One spawn of `_sweep_cancelled_spawns`. -/
def sweepCancelled (e : Executor) (spawn : ActiveSpawn) : Exec Executor := do
  match ← ask (.getTask spawn.taskId) with
  | none => pure e
  | some row =>
      if row.status ≠ .cancelled ∧ row.status ≠ .cancelRequested then pure e
      else
        killSpawnProcess spawn
        let e ← dropPersistedSpawn spawn.taskId
          { e with activeSpawns := e.activeSpawns.erase spawn.taskId }
        let e := { e with laneQueueMeta := e.laneQueueMeta.erase spawn.taskId }
        if row.status = .cancelRequested then
          let _ ← ask (.ackCancel spawn.taskId)
          pure e
        else pure e

/-- Only a Hermes worker that exceeds its time is killed. -/
def killTimedOut (spawn : ActiveSpawn) (seen : Option Resolution) : Exec PUnit :=
  if spawn.hermes = true ∧ seen.map Resolution.outcome = some .timeout then killSpawnProcess spawn
  else pure ⟨⟩

/-- The spawns that have finished, and how. -/
def observeAll : List ActiveSpawn → Exec (List (ActiveSpawn × Resolution))
  | [] => pure []
  | spawn :: spawns => do
      let seen ← ask (.observe spawn)
      killTimedOut spawn seen
      let rest ← observeAll spawns
      match seen with
      | none => pure rest
      | some r => pure ((spawn, r) :: rest)

/-- `_requeue_busy_refusal`: a worker that the lane refused waits its turn again,
within bounds. -/
def requeueBusyRefusal (spawn : ActiveSpawn) (e : Executor) : Exec (Bool × Executor) := do
  let attempts := spawn.busyAttempts + 1
  if laneBusyMaxRetries < attempts then pure (false, e)
  else
    let payload := spawn.taskPayload.getD
      { id := spawn.taskId, title := "", createdAt := 0, updatedAt := 0 }
    let (ok, e) ← queueForLane spawn.laneKey payload attempts e
    if ok = true then
      let e ← dropPersistedSpawn spawn.taskId e
      pure (true, e)
    else pure (false, e)

section Reap

variable [Unicode]

/-- One resolved spawn of `_reap_finished_spawns`. -/
def reapOne (e : Executor) (resolved : ActiveSpawn × Resolution) : Exec Executor := do
  let (spawn, r) := resolved
  let taskId := spawn.taskId
  let e := { e with
    activeSpawns := e.activeSpawns.erase taskId
    laneQueueMeta := e.laneQueueMeta.erase taskId }
  if r.outcome = .laneBusyRefused then
    let (requeued, e) ← requeueBusyRefusal spawn e
    if requeued = true then pure e
    else
      let e ← dropPersistedSpawn taskId e
      reportFailure taskId ("lane " ++ spawn.laneKey ++ " busy after 5 retries — hermes said: " ++
        r.detail) { e with laneQueueMeta := e.laneQueueMeta.erase taskId }
  else
    let e ← dropPersistedSpawn taskId e
    match r.outcome with
    | .done | .transcriptPromoted => reportCompletion taskId r.result e
    | .blocked => reportBlocked taskId r.ballot r.result e
    | .nonDeliverable =>
        let reason := "non_deliverable: lane " ++ spawn.laneName ++ ": " ++ r.detail
        let _ ← ask (.requeue taskId (Text.take 2000 reason)
          (decide (spawn.attempt < e.retryLimit)))
        pure e
    | _ => reportFailure taskId ("lane " ++ spawn.laneName ++ ": " ++ r.detail) e

/-- `_reap_finished_spawns`. -/
def reapFinishedSpawns (e : Executor) : Exec Executor := do
  if e.activeSpawns.rows = [] then pure e
  else
    let e ← e.activeSpawns.rows.foldlM sweepCancelled e
    if e.activeSpawns.rows = [] then pure e
    else
      let resolved ← observeAll e.activeSpawns.rows
      resolved.foldlM reapOne e

/-! ## Spawning -/

/-- `_lane_placed_elsewhere`: the node that owns the lane, if it is another. -/
def lanePlacedElsewhere (e : Executor) (laneKey : String) : Exec (Option String) := do
  if laneKey = "" ∨ e.hasStore = false then pure none
  else
    let lane ← ask (.getLane laneKey)
    let placed := Text.strip ((lane.map Lane.node).getD "")
    pure (if placed = "" ∨ nodeIdsMatch placed e.nodeId = true then none else some placed)

omit [Unicode] in
/-- The end of a spawn: the worker runs, or the task is reported as failed. -/
def track (spawn : ActiveSpawn) (e : Executor) : Exec Executor := do
  let leaseId ← findLeaseForTask e spawn.taskId
  let now ← ask .time
  let spawn := { spawn with leaseId := leaseId, startedAt := now }
  persistSpawn spawn { e with activeSpawns := e.activeSpawns.upsert spawn }

/-- `_spawn_bdaya_worker`. -/
def spawnBdayaWorker (task : Task) (e : Executor) : Exec Executor := do
  match ← ask (.popen e task) with
  | .notFound => reportFailure task.id "executor_error: npx not found on PATH" e
  | .raised message => reportFailure task.id ("executor_error: " ++ message) e
  | .started =>
      track { taskId := task.id, laneName := "hermes-" ++ task.id, laneKey := task.laneKey,
              role := if task.role = "" then "author" else task.role } e

/-- `_spawn_hermes_worker`. -/
def spawnHermesWorker (task : Task) (e : Executor) : Exec Executor := do
  let attempts := ((e.laneQueueMeta.get? task.id).map QueueMeta.attempts).getD 0
  if task.laneKey ≠ "" ∧ laneHasActiveDelivery e task.laneKey = true then
    let (_, e) ← queueForLane task.laneKey task attempts e
    pure e
  else
    match ← ask (.popen e task) with
    | .notFound => reportFailure task.id "executor_error: hermes not found on PATH" e
    | .raised message => reportFailure task.id ("executor_error: " ++ message) e
    | .started =>
        track { taskId := task.id, laneName := "hermes-" ++ task.id, hermes := true,
                laneKey := task.laneKey, role := if task.role = "" then "author" else task.role,
                taskPayload := some task, busyAttempts := attempts, attempt := task.attempts } e

/-- `_spawn_worker`: a task of a lane that another node owns is given back. -/
def spawnWorker (task : Task) (e : Executor) : Exec Executor := do
  match ← lanePlacedElsewhere e task.laneKey with
  | some node =>
      let assignedTo := task.assignedTo.getD ""
      let _ ← ask (.release task.id (if assignedTo = "" then e.nodeId else assignedTo)
        ("lane " ++ task.laneKey ++ " is placed on node " ++ node ++ ", not " ++ e.nodeId ++
          " — released for affinity re-home (#858)"))
      pure e
  | none =>
      if e.hermesWorker = true then spawnHermesWorker task e else spawnBdayaWorker task e

/-- The tasks main shows as running here that no structure of the executor
knows of. -/
def candidates (e : Executor) (tasks : List Task) (activeTaskIds queuedTaskIds : List String) :
    List Task :=
  (tasks.filter (fun t => decide (t.status = .running) && isAssignedToMe e t.assignedTo &&
    decide (t.id ∉ activeTaskIds) && decide (t.id ∉ queuedTaskIds))).insertionSort
    (fun a b => a.priority ≤ b.priority)

/-- One candidate of `_claim_and_spawn`, with the budget left. -/
def claimCandidate (st : Nat × Executor) (task : Task) : Exec (Nat × Executor) := do
  let (budget, e) := st
  if task.laneKey ≠ "" ∧ laneHasActiveDelivery e task.laneKey = true then
    let (_, e) ← queueForLane task.laneKey task 0 e
    pure (budget, e)
  else if budget = 0 then pure (budget, e)
  else
    let e ← spawnWorker task e
    pure (budget - 1, e)

/-- `_claim_and_spawn`. -/
def claimAndSpawn (maxSpawns : Nat) (e : Executor) : Exec Executor := do
  if (← ask .diskGateBlocks) = true then pure e
  else
    let (ready, e) := drainReleasedLanes e
    let e ← (ready.take maxSpawns).foldlM (fun e task => spawnWorker task e) e
    let e := putBack (ready.drop maxSpawns) e
    let budget := maxSpawns - ready.length
    if budget = 0 then pure e
    else
      match ← ask (.getTasks e) with
      | none => pure e
      | some tasks =>
          let activeTaskIds := e.activeSpawns.rows.map ActiveSpawn.taskId
          let queuedTaskIds := (e.laneQueue.rows.flatMap LaneFifo.tasks ++
            e.laneReleased.rows.flatMap LaneFifo.tasks).map Task.id
          let e ← refreshPersistedIds e
          let (_, e) ← (candidates e tasks (activeTaskIds ++ e.persistedIds)
            queuedTaskIds).foldlM claimCandidate (budget, e)
          pure e

/-! ## The poll loop -/

/-- `_poll_once`; `_reap_idle_lanes` only deletes rows of the `lanes` table. -/
def pollOnce (e : Executor) : Exec Executor := do
  let e ← reapFinishedSpawns e
  let e ← drainPendingReports e
  let e ← sweepLaneQueues e
  renewLeases e
  let availableSlots := e.maxConcurrent - e.activeSpawns.rows.length
  if 0 < availableSlots then claimAndSpawn availableSlots e else pure e

/-- `_poll_loop`, for some cycles. -/
def pollLoop : Nat → Executor → Exec Executor
  | 0, e => pure e
  | n + 1, e => do
      let e ← pollOnce e
      pollLoop n e

/-- `start`: the loop of an executor that begins with the records of its store. -/
def start (cycles : Nat) (e : Executor) : Exec Executor := do
  let e ← reconcilePersistedSpawns e
  pollLoop cycles e

end Reap

end AgentExecutor

end HermesCluster
