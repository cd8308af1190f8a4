import HermesCluster.State.Board
import HermesCluster.Core.LandingGate
/-!
# The in-memory store

`state/__init__.py`: `ClusterState` keeps dictionaries and, beside the leases,
an index from tasks to the lease that was created last for them.
-/

namespace HermesCluster

/-- An entry of `_task_lease_index`. -/
structure IndexEntry where
  taskId : String
  leaseId : Nat
  deriving DecidableEq, Repr

instance : HasKey IndexEntry String := ⟨IndexEntry.taskId⟩

/-- Every entry of the index names a stored lease of its task. -/
def IndexOk (leases : Table Lease) (index : Table IndexEntry) : Prop :=
  ∀ e ∈ index.rows, ∃ l ∈ leases.rows, l.id = e.leaseId ∧ l.taskId = e.taskId

/-- `timestamp` is that of a stored time, which is naive: the instant at which the local
clock of the process shows it. -/
structure ClusterState extends Board where
  taskLeaseIndex : Table IndexEntry := Table.empty
  syncVersion : Int := 0
  timestamp : Nat → Int := fun time => time
  index_ok : IndexOk leases taskLeaseIndex

/-! ## The lease index -/

theorem indexOk_empty (leases : Table Lease) : IndexOk leases Table.empty := by
  intro e he
  cases he

theorem indexOk_initial : IndexOk Table.empty Table.empty :=
  indexOk_empty Table.empty

theorem IndexOk.mapRows {leases : Table Lease} {index : Table IndexEntry}
    (h : IndexOk leases index) {f : Lease → Lease} (hf : Table.KeepsKey f)
    (htask : ∀ l, (f l).taskId = l.taskId) : IndexOk (leases.mapRows f hf) index := by
  intro e he
  obtain ⟨l, hl, hid, htid⟩ := h e he
  refine ⟨f l, Table.mem_mapRows.mpr ⟨l, hl, rfl⟩, ?_, ?_⟩
  · exact (hf l).trans hid
  · exact (htask l).trans htid

theorem IndexOk.updateWhere {leases : Table Lease} {index : Table IndexEntry}
    (h : IndexOk leases index) (p : Lease → Prop) [DecidablePred p] {f : Lease → Lease}
    (hf : Table.KeepsKey f) (htask : ∀ l, (f l).taskId = l.taskId) :
    IndexOk (leases.updateWhere p f hf) index := by
  refine h.mapRows _ (fun l => ?_)
  by_cases hp : p l <;> simp [hp, htask]

theorem IndexOk.erase {leases : Table Lease} {index : Table IndexEntry}
    (h : IndexOk leases index) (taskId : String) : IndexOk leases (index.erase taskId) :=
  fun e he => h e (List.mem_filter.mp he).1

theorem IndexOk.append {leases : Table Lease} {index : Table IndexEntry}
    (h : IndexOk leases index) (l : Lease) (hl : leases.get? l.id = none) :
    IndexOk (leases.append l hl) (index.upsert ⟨l.taskId, l.id⟩) := by
  intro e he
  have hget := Table.get?_of_mem he
  rw [Table.get?_upsert] at hget
  split at hget
  · cases hget
    exact ⟨l, List.mem_append_right _ (List.mem_singleton_self _), rfl, rfl⟩
  · obtain ⟨m, hm, hlease⟩ := h e (Table.mem_of_get? hget)
    exact ⟨m, List.mem_append_left _ hm, hlease⟩

theorem IndexOk.addLease {leases : Table Lease} {index : Table IndexEntry}
    (h : IndexOk leases index) (now : Nat) (taskId nodeId : String) (ttl : Nat) :
    IndexOk (HermesCluster.addLease now leases taskId nodeId ttl)
      (index.upsert ⟨taskId, freshLeaseId leases⟩) :=
  h.append (newLease now leases taskId nodeId ttl) (get?_freshLeaseId leases)

namespace ClusterState

def empty : ClusterState where
  toBoard := {}
  index_ok := indexOk_initial

/-- Rewrite the task stored under an id. -/
def modifyTask (s : ClusterState) (taskId : String) (f : Task → Task)
    (hf : Table.KeepsKey f) : ClusterState :=
  { s with tasks := s.tasks.modify taskId f hf }

/-! ## Leases -/

/-- `create_lease`. -/
def createLease (now : Nat) (taskId nodeId : String) (ttl : Nat) (s : ClusterState) :
    Lease × ClusterState :=
  (newLease now s.leases taskId nodeId ttl,
    { s with
      leases := addLease now s.leases taskId nodeId ttl
      taskLeaseIndex := s.taskLeaseIndex.upsert ⟨taskId, freshLeaseId s.leases⟩
      index_ok := s.index_ok.addLease now taskId nodeId ttl })

/-- `revoke_lease`: the index forgets the task, whichever lease it points to. -/
def revokeLease (leaseId : Nat) (s : ClusterState) : Bool × ClusterState :=
  match s.leases.get? leaseId with
  | none => (false, s)
  | some lease =>
      (true,
        { s with
          leases := s.leases.modify leaseId Lease.revoke Lease.keepsKey_revoke
          taskLeaseIndex := s.taskLeaseIndex.erase lease.taskId
          index_ok :=
            (s.index_ok.updateWhere _ Lease.keepsKey_revoke (fun _ => rfl)).erase _ })

/-- `get_active_leases`: the unexpired ones; the lapsed ones are marked expired. -/
def getActiveLeases (now : Nat) (s : ClusterState) : List Lease × ClusterState :=
  (s.leases.rows.filter (fun l => decide (l.IsLive now)),
    { s with
      leases := s.leases.updateWhere (Lease.IsLapsed now) Lease.expire Lease.keepsKey_expire
      index_ok := s.index_ok.updateWhere _ Lease.keepsKey_expire (fun _ => rfl) })

/-- `get_lease_by_task`: by the index, else by a scan; whether the lease has
lapsed is not looked at. -/
def getLeaseByTask (taskId : String) (s : ClusterState) : Option Lease :=
  if taskId = "" then none
  else
    let indexed := (s.taskLeaseIndex.get? taskId).bind (fun e => s.leases.get? e.leaseId)
    match indexed.filter (fun l => decide (l.status = .active)) with
    | some lease => some lease
    | none => s.leases.rows.find? (fun l => decide (l.taskId = taskId ∧ l.status = .active))

/-- `get_expired_leases`. -/
def getExpiredLeases (s : ClusterState) : List Lease :=
  s.leases.rows.filter (fun l => decide (l.status = .expired))

/-! ## Tasks -/

/-- `create_task`: a row under the same id is replaced. -/
def createTask (now : Nat) (plan : TaskPlan) (s : ClusterState) : Task × ClusterState :=
  let task := plan.toTask now .pending
  (task, { s with tasks := s.tasks.upsert task })

/-- The row `create_tasks_batch` publishes for a plan. -/
def batchTask (now : Nat) (plan : TaskPlan) : Task :=
  plan.toTask now (if plan.dependsOn = [] then .ready else .pending)

/-- `create_tasks_batch`. -/
def createTasksBatch (now : Nat) (plans : List TaskPlan) (s : ClusterState) :
    List Task × ClusterState :=
  let tasks := plans.map (batchTask now)
  (tasks, { s with tasks := tasks.foldl Table.upsert s.tasks })

variable [Unicode]

/-- `set_task_result`: a blank result is no result. -/
def setTaskResult (now : Nat) (taskId : String) (result : Option String)
    (s : ClusterState) : Bool × ClusterState :=
  match result with
  | none => (false, s)
  | some body =>
      if Text.isBlank body then (false, s)
      else
        match s.tasks.get? taskId with
        | none => (false, s)
        | some _ => (true, s.modifyTask taskId (Task.withResult now body) Task.keepsKey_withResult)

omit [Unicode] in
/-- The transitions out of a terminal status that `set_task_status` refuses. -/
def Refuses (current requested : TaskStatus) : Prop :=
  current.IsTerminal ∧ ¬(current = .cancelRequested ∧ requested = .cancelled)

instance (current requested : TaskStatus) : Decidable (Refuses current requested) :=
  inferInstanceAs (Decidable
    (current.IsTerminal ∧ ¬(current = .cancelRequested ∧ requested = .cancelled)))

/-- `set_task_status`. -/
def setTaskStatus (now : Nat) (taskId : String) (status : TaskStatus) (failReason : String)
    (s : ClusterState) : Bool × ClusterState :=
  match s.tasks.get? taskId with
  | none => (false, s)
  | some task =>
      if Refuses task.status status then (false, s)
      else
        (true,
          s.modifyTask taskId (Task.withStatus now status failReason) Task.keepsKey_withStatus)

/-- `unassign_task`: neither a terminal task nor one under a lease. -/
def unassignTask (now : Nat) (taskId : String) (s : ClusterState) : Bool × ClusterState :=
  match s.tasks.get? taskId with
  | none => (false, s)
  | some task =>
      if task.status.IsTerminal then (false, s)
      else if (s.getLeaseByTask taskId).isSome then (false, s)
      else (true, s.modifyTask taskId (Task.unassign now) Task.keepsKey_unassign)

/-- `unblock_task` (to pending) and `unblock_to_ready` (to ready). -/
def unblockTo (now : Nat) (status : TaskStatus) (taskId : String) (s : ClusterState) :
    Bool × ClusterState :=
  match s.tasks.get? taskId with
  | none => (false, s)
  | some task =>
      if task.status = .blocked then
        (true, s.modifyTask taskId (Task.unblockTo now status) Task.keepsKey_unblockTo)
      else (false, s)

def unblockTask (now : Nat) (taskId : String) (s : ClusterState) : Bool × ClusterState :=
  s.unblockTo now .pending taskId

def unblockToReady (now : Nat) (taskId : String) (s : ClusterState) : Bool × ClusterState :=
  s.unblockTo now .ready taskId

/-- A write to a row that has no condition but that the row is there. -/
def writeTask (taskId : String) (f : Task → Task) (hf : Table.KeepsKey f)
    (s : ClusterState) : Bool × ClusterState :=
  match s.tasks.get? taskId with
  | none => (false, s)
  | some _ => (true, s.modifyTask taskId f hf)

def setTaskBallot (now : Nat) (taskId : String) (ballot : Option Ballot)
    (s : ClusterState) : Bool × ClusterState :=
  s.writeTask taskId (Task.withBallot now ballot) Task.keepsKey_withBallot

def setTaskCancelRequeue (now : Nat) (taskId : String) (requeue : Bool)
    (s : ClusterState) : Bool × ClusterState :=
  s.writeTask taskId (Task.withCancelRequeue now requeue) Task.keepsKey_withCancelRequeue

/-- `set_dependencies`: the status is not looked at. -/
def setDependencies (now : Nat) (taskId : String) (dependsOn : List String)
    (s : ClusterState) : Bool × ClusterState :=
  s.writeTask taskId (Task.withDependencies now dependsOn) Task.keepsKey_withDependencies

/-- `requeue_task`: under the retry cap; the lease the index finds is revoked
afterwards. -/
def requeueTask (now : Nat) (taskId reason : String) (s : ClusterState) :
    Bool × ClusterState :=
  match s.tasks.get? taskId with
  | none => (false, s)
  | some task =>
      if task.status.IsTerminal then (false, s)
      else if taskRetryLimit ≤ task.attempts then (false, s)
      else
        let s := s.modifyTask taskId (Task.requeue now reason) Task.keepsKey_requeue
        match s.getLeaseByTask taskId with
        | none => (true, s)
        | some lease => (true, (s.revokeLease lease.id).2)

/-- `with _state._tasks_lock: t = _state._tasks[task_id]; …`. -/
def writeTaskRow (now : Nat) (taskId : String) (assignedTo failReason : Option String)
    (s : ClusterState) : Except String Unit × ClusterState :=
  match s.tasks.get? taskId with
  | none => (.error "KeyError", s)
  | some _ =>
      (.ok (), s.modifyTask taskId (Task.writeRow now assignedTo failReason) (fun _ => rfl))

/-! ## Promotion and scheduling -/

/-- One iteration of `trigger_pending_tasks` over the live dictionary. -/
def promoteStep (now : Nat) (st : Table Task × Nat) (taskId : String) :
    Table Task × Nat :=
  match st.1.get? taskId with
  | none => st
  | some task =>
      if task.status ≠ .pending then st
      else if ¬DepsCompleted st.1 task then st
      else
        match LandingGate.holdReason st.1.rows task with
        | some reason =>
            if task.failReason = some reason then st
            else (st.1.modify taskId (Task.hold now reason) Task.keepsKey_hold, st.2)
        | none => (st.1.modify taskId (Task.promote now) Task.keepsKey_promote, st.2 + 1)

/-- `trigger_pending_tasks`. -/
def triggerPendingTasks (now : Nat) (s : ClusterState) : Nat × ClusterState :=
  let result := (s.tasks.rows.map Task.id).foldl (promoteStep now) (s.tasks, 0)
  (result.2, { s with tasks := result.1 })

/-- One iteration of the loop that counts active tasks per node. -/
def countTask (counts : String → Nat) (t : Task) : String → Nat :=
  match t.assignedTo with
  | some nodeId =>
      if t.status.IsActive ∧ nodeId ≠ "" then Chooser.bump counts nodeId else counts
  | none => counts

/-- The count of active tasks per node. -/
def activeCounts (tasks : List Task) : String → Nat :=
  tasks.foldl countTask (fun _ => 0)

/-- The ready tasks a pass serves: not leased, not held by the lane guard; the key is
`(t.priority, -t.created_at.timestamp())`. -/
def readyTasks (now : Nat) (s : ClusterState) : List Task :=
  let leased := leasedTaskIds now s.leases
  let laneBlocked := laneBlockedReadyIds s.tasks.rows
  (s.tasks.rows.filter (fun t =>
    decide (t.status = .ready ∧ t.id ∉ leased ∧ t.id ∉ laneBlocked))).insertionSort
      (ServedFirst s.timestamp)

/-- The write of one assignment: the live task object, then `create_lease`. -/
def assign (now : Nat) (task : Task) (nodeId : String) (s : ClusterState) :
    Option ClusterState :=
  let s := s.modifyTask task.id (Task.assignTo now nodeId) Task.keepsKey_assignTo
  some (s.createLease now task.id nodeId schedulerAssignedTtl).2

/-- `schedule_pending_detailed`. -/
def schedulePendingDetailed (now : Nat) (s : ClusterState) :
    List Assignment × ClusterState :=
  let online := onlineNodes s.nodes
  if online = [] then ([], s)
  else
    let pass := Pass.run (assign now) online (lanePin s.lanes)
      { store := s, fair := s.fair, activeCounts := activeCounts s.tasks.rows }
      (s.readyTasks now)
    (pass.newAssignments, { pass.store with fair := pass.fair })

/-! ## Sync messages -/

/-- `handle_sync_message`: gated on the global and on the task version; an
existing task is written through `set_task_status`. -/
def handleSyncMessage (now : Nat) (msg : SyncMessage) (s : ClusterState) :
    Bool × ClusterState :=
  if msg.version ≤ s.syncVersion then (false, s)
  else
    let s := { s with syncVersion := msg.version }
    match msg.taskState with
    | none => (true, s)
    | some ts =>
        match s.tasks.get? ts.taskId with
        | none =>
            let status := (TaskStatus.ofValue ts.status).getD .pending
            (true, { s with tasks := s.tasks.upsert (ts.toTask now status) })
        | some task =>
            if ts.version ≤ task.version then (true, s)
            else
              match TaskStatus.ofValue ts.status with
              | none => (true, s)
              | some status =>
                  let written := s.setTaskStatus now ts.taskId status ""
                  if written.1 then
                    (true, written.2.modifyTask ts.taskId
                      (Task.withSync ts.assignedTo ts.version) (fun _ => rfl))
                  else (true, written.2)

/-! ## Nodes and lanes -/

/-- `register_node`: a re-registration keeps the operator's drain. -/
def registerNode (node : Node) (s : ClusterState) : ClusterState :=
  let drained := (s.nodes.get? node.id).any Node.drained
  { s with nodes := s.nodes.upsert { node with drained := node.drained || drained } }

/-! ## The store interface -/

/-- One operation of the in-memory store at the time `now`. -/
def step (now : Nat) : (op : StoreOp) → ClusterState → op.Res × ClusterState
  | .utcnow, s => (now, s)
  | .getTask taskId, s => (s.tasks.get? taskId, s)
  | .getAllTasks, s => (s.tasks.rows, s)
  | .getAllNodes, s => (s.nodes.rows, s)
  | .getDependents taskId, s => (dependentsOf .all s.tasks taskId, s)
  | .getTriggerChain taskId, s => (triggerChain .all s.tasks taskId, s)
  | .getLeaseByTask taskId, s => (s.getLeaseByTask taskId, s)
  | .getActiveLeases, s => s.getActiveLeases now
  | .getExpiredLeases, s => (s.getExpiredLeases, s)
  | .unleasedRunningTasks, s => (unleasedRunning now s.toBoard, s)
  | .createTask plan, s => s.createTask now plan
  | .createTasksBatch plans, s => s.createTasksBatch now plans
  | .setTaskResult taskId result, s => s.setTaskResult now taskId result
  | .setTaskStatus taskId status failReason, s => s.setTaskStatus now taskId status failReason
  | .unassignTask taskId, s => s.unassignTask now taskId
  | .unblockTask taskId, s => s.unblockTask now taskId
  | .setTaskBallot taskId ballot, s => s.setTaskBallot now taskId ballot
  | .setTaskCancelRequeue taskId requeue, s => s.setTaskCancelRequeue now taskId requeue
  | .unblockToReady taskId, s => s.unblockToReady now taskId
  | .requeueTask taskId reason, s => s.requeueTask now taskId reason
  | .setDependencies taskId dependsOn, s => s.setDependencies now taskId dependsOn
  | .triggerPendingTasks, s => s.triggerPendingTasks now
  | .schedulePendingDetailed, s => s.schedulePendingDetailed now
  | .handleSyncMessage msg, s => s.handleSyncMessage now msg
  | .writeTaskRow taskId assignedTo failReason, s =>
      s.writeTaskRow now taskId assignedTo failReason
  | .createLease taskId nodeId ttl, s => s.createLease now taskId nodeId ttl
  | .revokeLease leaseId, s => s.revokeLease leaseId
  | .registerNode node, s => ((), s.registerNode node)
  | .updateHeartbeat nodeId statusReason, s =>
      ((), { s with
        nodes := s.nodes.modify nodeId (Node.heartbeat statusReason) Node.keepsKey_heartbeat })
  | .updateCapabilities nodeId caps, s =>
      ((), { s with
        nodes := s.nodes.modify nodeId (Node.withCapabilities caps)
          Node.keepsKey_withCapabilities })
  | .setDrained nodeId drained, s =>
      ((), { s with
        nodes := s.nodes.modify nodeId (Node.withDrained drained) Node.keepsKey_withDrained })
  | .updateMaxConcurrent nodeId maxConcurrent, s =>
      ((), { s with
        nodes := s.nodes.modify nodeId (Node.withMaxConcurrent maxConcurrent)
          Node.keepsKey_withMaxConcurrent })
  | .setNodeStatus nodeId status reason, s =>
      ((), { s with
        nodes := s.nodes.modify nodeId (Node.withNodeStatus status reason)
          Node.keepsKey_withNodeStatus })
  | .recordLane lane, s => ((), { s with lanes := s.lanes.upsert lane })
  | .deleteLane laneKey, s =>
      ((s.lanes.get? laneKey).isSome, { s with lanes := s.lanes.erase laneKey })

section Cases

variable {s : ClusterState}

/-! Guarded writes: refused without a trace, or made -/

omit [Unicode] in
theorem writeTask_cases (taskId : String) (f : Task → Task) (hf : Table.KeepsKey f)
    (s : ClusterState) :
    (s.writeTask taskId f hf = (false, s) ∧ s.tasks.get? taskId = none) ∨
      ∃ t, s.tasks.get? taskId = some t ∧
        s.writeTask taskId f hf = (true, s.modifyTask taskId f hf) := by
  unfold writeTask
  split
  · rename_i hget
    exact .inl ⟨rfl, hget⟩
  · rename_i t hget
    exact .inr ⟨t, hget, rfl⟩

theorem setTaskResult_cases (now : Nat) (taskId : String) (result : Option String)
    (s : ClusterState) :
    s.setTaskResult now taskId result = (false, s) ∨
      ∃ t body, s.tasks.get? taskId = some t ∧ result = some body ∧
        s.setTaskResult now taskId result =
          (true, s.modifyTask taskId (Task.withResult now body) Task.keepsKey_withResult) := by
  unfold setTaskResult
  split
  · exact .inl rfl
  · rename_i body
    split
    · exact .inl rfl
    · split
      · exact .inl rfl
      · rename_i t hget
        exact .inr ⟨t, body, hget, rfl, rfl⟩

omit [Unicode] in
theorem setTaskStatus_cases (now : Nat) (taskId : String) (status : TaskStatus)
    (failReason : String) (s : ClusterState) :
    (s.setTaskStatus now taskId status failReason = (false, s) ∧
        ∀ t, s.tasks.get? taskId = some t → Refuses t.status status) ∨
      ∃ t, s.tasks.get? taskId = some t ∧ ¬Refuses t.status status ∧
        s.setTaskStatus now taskId status failReason =
          (true, s.modifyTask taskId (Task.withStatus now status failReason)
            Task.keepsKey_withStatus) := by
  unfold setTaskStatus
  split
  · rename_i hget
    exact .inl ⟨rfl, fun t ht => by rw [hget] at ht; cases ht⟩
  · rename_i t hget
    split
    · rename_i href
      exact .inl ⟨rfl, fun u hu => by rw [hget] at hu; cases hu; exact href⟩
    · rename_i href
      exact .inr ⟨t, hget, href, rfl⟩

omit [Unicode] in
theorem getLeaseByTask_some {taskId : String} {l : Lease}
    (h : s.getLeaseByTask taskId = some l) :
    l ∈ s.leases.rows ∧ l.taskId = taskId ∧ l.status = .active := by
  unfold getLeaseByTask at h
  split at h
  · cases h
  · dsimp only at h
    split at h
    · rename_i lease hindexed
      cases h
      obtain ⟨hbind, hactive⟩ := Option.filter_eq_some_iff.mp hindexed
      obtain ⟨e, he, hlease⟩ := Option.bind_eq_some_iff.mp hbind
      obtain ⟨hmem, hid⟩ := Table.get?_eq_some_iff.mp hlease
      obtain ⟨hmem', hkey⟩ := Table.get?_eq_some_iff.mp he
      obtain ⟨m, hm, hmid, hmtask⟩ := s.index_ok e hmem'
      have hsame : m = l := Table.eq_of_mem_of_key_eq hm hmem (hmid.trans hid.symm)
      subst hsame
      exact ⟨hm, hmtask.trans hkey, of_decide_eq_true hactive⟩
    · have hfound := List.find?_some h
      obtain ⟨htask, hactive⟩ := of_decide_eq_true hfound
      exact ⟨List.mem_of_find?_eq_some h, htask, hactive⟩

omit [Unicode] in
theorem getLeaseByTask_none {taskId : String} (h : s.getLeaseByTask taskId = none) :
    taskId = "" ∨ ∀ l ∈ s.leases.rows, l.taskId = taskId → l.status ≠ .active := by
  unfold getLeaseByTask at h
  split at h
  · rename_i hempty
    exact .inl hempty
  · dsimp only at h
    split at h
    · cases h
    · refine .inr (fun l hl htask hactive => ?_)
      have hmiss := List.find?_eq_none.mp h l hl
      simp [htask, hactive] at hmiss

omit [Unicode] in
theorem isSome_getLeaseByTask {taskId : String} :
    (s.getLeaseByTask taskId).isSome ↔
      taskId ≠ "" ∧ ∃ l ∈ s.leases.rows, l.taskId = taskId ∧ l.status = .active := by
  constructor
  · intro h
    obtain ⟨l, hl⟩ := Option.isSome_iff_exists.mp h
    refine ⟨?_, l, getLeaseByTask_some hl⟩
    rintro rfl
    cases hl
  · rintro ⟨hne, l, hmem, htask, hactive⟩
    rw [Option.isSome_iff_ne_none]
    intro hnone
    rcases getLeaseByTask_none hnone with hempty | hall
    · exact hne hempty
    · exact hall l hmem htask hactive

omit [Unicode] in
theorem unleased_of_getLeaseByTask_none {taskId : String}
    (h : s.getLeaseByTask taskId = none) (now : Nat) : Unleased now s.toBoard taskId := by
  rintro hne l hl htask ⟨hactive, -⟩
  rcases getLeaseByTask_none h with hempty | hnone
  · exact hne hempty
  · exact hnone l hl htask hactive

omit [Unicode] in
theorem unassignTask_cases (now : Nat) (taskId : String) (s : ClusterState) :
    s.unassignTask now taskId = (false, s) ∨
      ∃ t, s.tasks.get? taskId = some t ∧ ¬t.status.IsTerminal ∧
        Unleased now s.toBoard taskId ∧
        s.unassignTask now taskId =
          (true, s.modifyTask taskId (Task.unassign now) Task.keepsKey_unassign) := by
  unfold unassignTask
  split
  · exact .inl rfl
  · rename_i t hget
    split
    · exact .inl rfl
    · rename_i hopen
      split
      · exact .inl rfl
      · rename_i hfree
        rw [Option.not_isSome_iff_eq_none] at hfree
        exact .inr ⟨t, hget, hopen, unleased_of_getLeaseByTask_none hfree now, rfl⟩

omit [Unicode] in
theorem unblockTo_cases (now : Nat) (status : TaskStatus) (taskId : String)
    (s : ClusterState) :
    s.unblockTo now status taskId = (false, s) ∨
      ∃ t, s.tasks.get? taskId = some t ∧ t.status = .blocked ∧
        s.unblockTo now status taskId =
          (true, s.modifyTask taskId (Task.unblockTo now status) Task.keepsKey_unblockTo) := by
  unfold unblockTo
  split
  · exact .inl rfl
  · rename_i t hget
    split
    · rename_i hblocked
      exact .inr ⟨t, hget, hblocked, rfl⟩
    · exact .inl rfl

omit [Unicode] in
theorem requeueTask_cases (now : Nat) (taskId reason : String) (s : ClusterState) :
    s.requeueTask now taskId reason = (false, s) ∨
      ∃ t, s.tasks.get? taskId = some t ∧ ¬t.status.IsTerminal ∧
        t.attempts < taskRetryLimit ∧ (s.requeueTask now taskId reason).1 = true ∧
        (s.requeueTask now taskId reason).2.tasks =
          s.tasks.modify taskId (Task.requeue now reason) Task.keepsKey_requeue := by
  unfold requeueTask
  split
  · exact .inl rfl
  · rename_i t hget
    split
    · exact .inl rfl
    · rename_i hopen
      split
      · exact .inl rfl
      · rename_i hcap
        refine .inr ⟨t, hget, hopen, Nat.lt_of_not_le hcap, ?_⟩
        dsimp only
        split
        · exact ⟨rfl, rfl⟩
        · rename_i lease _
          refine ⟨rfl, ?_⟩
          dsimp only [revokeLease]
          split <;> rfl

omit [Unicode] in
/-- An open task under the retry cap is put back. -/
theorem requeueTask_of_open {taskId : String} {t : Task} (now : Nat) (reason : String)
    (hget : s.tasks.get? taskId = some t) (hopen : ¬t.status.IsTerminal)
    (hcap : t.attempts < taskRetryLimit) : (s.requeueTask now taskId reason).1 = true := by
  rw [requeueTask, hget]
  dsimp only
  rw [if_neg hopen, if_neg (Nat.not_le.mpr hcap)]
  split <;> rfl

omit [Unicode] in
theorem writeTaskRow_cases (now : Nat) (taskId : String)
    (assignedTo failReason : Option String) (s : ClusterState) :
    s.writeTaskRow now taskId assignedTo failReason = (.error "KeyError", s) ∨
      ∃ t, s.tasks.get? taskId = some t ∧
        s.writeTaskRow now taskId assignedTo failReason =
          (.ok (), s.modifyTask taskId (Task.writeRow now assignedTo failReason)
            (fun _ => rfl)) := by
  unfold writeTaskRow
  split
  · exact .inl rfl
  · rename_i t hget
    exact .inr ⟨t, hget, rfl⟩

end Cases

end ClusterState

end HermesCluster
