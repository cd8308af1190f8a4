import HermesCluster.State.Refinement
import HermesCluster.Sync.FullState
/-!
# What a full state reproduces

A coordinator with an empty store receives the full state of another one. What
it then holds is computed entry by entry; the payload reproduces the sender
exactly if every task and every node carries nothing that the sender leaves out
or the receiver replaces by a default.
-/

namespace HermesCluster

open Program hiding pure bind
open NodeManager (query)

/-! ## The rows a receiver makes -/

/-- A coordinator that holds nothing yet. -/
def Cluster.fresh (k : Backend) : Cluster k where
  rest := k.empty

def Cluster.tasks {k : Backend} (c : Cluster k) : Table Task :=
  (k.board c.store).tasks

/-- Nothing a caller can see has changed. -/
structure Cluster.Unchanged {k : Backend} (c c' : Cluster k) : Prop where
  nodes : c'.nodes = c.nodes
  capCache : c'.capCache = c.capCache
  store : c'.store = c.store

/-- The cluster after a payload has been received. -/
def Sync.applied [Unicode] {k : Backend} (payload : FullState) (w : Timed (Cluster k)) :
    Cluster k :=
  ((Sync.receiveFullState payload).run Cluster.tick w).2.state

/-- The status in which `create_task` leaves a task that depends on nothing. -/
def Backend.createdStatus : Backend → TaskStatus
  | .memory => .pending
  | .sql _ => .ready

/-- The fields of a task that a full state is about. -/
structure SameTask (t u : Task) : Prop where
  status : u.status = t.status
  dependsOn : u.dependsOn = t.dependsOn
  requires : u.requires = t.requires
  assignedTo : u.assignedTo = t.assignedTo
  priority : u.priority = t.priority
  laneKey : u.laneKey = t.laneKey
  role : u.role = t.role
  result : u.result = t.result
  version : u.version = t.version

/-- The fields of a node that a full state is about. -/
structure SameNode (n m : NodeRow) : Prop where
  capabilities : m.capabilities = n.capabilities
  maxConcurrent : m.maxConcurrent = n.maxConcurrent
  drained : m.drained = n.drained
  instanceToken : m.instanceToken = n.instanceToken

/-- Every task and every node of the sender is there, with the same fields. -/
structure Cluster.ReproducedBy {k k' : Backend} (sender : Cluster k') (c : Cluster k) :
    Prop where
  tasks : ∀ t ∈ sender.tasks.rows, ∃ u, c.tasks.get? t.id = some u ∧ SameTask t u
  nodes : ∀ n ∈ sender.nodes.rows, ∃ m, c.nodes.get? n.id = some m ∧ SameNode n m

/-- The row that a receiver without the task makes of its entry: created from five
arguments, then set to the status of the sender, unless that is `pending`. -/
structure ReceivedTask (k : Backend) (t u : Task) : Prop where
  status : u.status = if t.status = .pending then k.createdStatus else t.status
  dependsOn : u.dependsOn = []
  requires : u.requires = t.requires
  assignedTo : u.assignedTo = none
  priority : u.priority = t.priority
  laneKey : u.laneKey = ""
  role : u.role = "author"
  result : u.result = none
  version : u.version = if t.status = .pending then 1 else 2

/-- A task that comes through a full state as it was. -/
structure Task.Survives (k : Backend) (t : Task) : Prop where
  dependsOn : t.dependsOn = []
  assignedTo : t.assignedTo = none
  laneKey : t.laneKey = ""
  role : t.role = "author"
  result : t.result = none
  status : t.status = .pending → k = .memory
  version : t.version = if t.status = .pending then 1 else 2

/-- A node that comes through a full state as it was. -/
structure NodeRow.Survives (n : NodeRow) : Prop where
  maxConcurrent : n.maxConcurrent = 0
  drained : n.drained = false
  instanceToken : n.instanceToken = ""

theorem ReceivedTask.sameTask_iff {k : Backend} {t u : Task} (h : ReceivedTask k t u) :
    SameTask t u ↔ t.Survives k := by
  have hstatus : u.status = t.status ↔ (t.status = .pending → k = .memory) := by
    rw [h.status]
    by_cases hpending : t.status = .pending
    · rw [if_pos hpending, hpending]
      cases k <;> simp [Backend.createdStatus]
    · rw [if_neg hpending]
      exact iff_of_true rfl (fun hp => absurd hp hpending)
  constructor
  · intro hsame
    exact
      { dependsOn := hsame.dependsOn.symm.trans h.dependsOn
        assignedTo := hsame.assignedTo.symm.trans h.assignedTo
        laneKey := hsame.laneKey.symm.trans h.laneKey
        role := hsame.role.symm.trans h.role
        result := hsame.result.symm.trans h.result
        status := hstatus.mp hsame.status
        version := hsame.version.symm.trans h.version }
  · intro hsurvives
    exact
      { status := hstatus.mpr hsurvives.status
        dependsOn := h.dependsOn.trans hsurvives.dependsOn.symm
        requires := h.requires
        assignedTo := h.assignedTo.trans hsurvives.assignedTo.symm
        priority := h.priority
        laneKey := h.laneKey.trans hsurvives.laneKey.symm
        role := h.role.trans hsurvives.role.symm
        result := h.result.trans hsurvives.result.symm
        version := h.version.trans hsurvives.version.symm }

theorem sameNode_sentNode_iff {n : NodeRow} : SameNode n (Sync.sentNode n) ↔ n.Survives := by
  constructor
  · intro hsame
    exact ⟨hsame.maxConcurrent.symm, hsame.drained.symm, hsame.instanceToken.symm⟩
  · intro hsurvives
    exact
      { capabilities := rfl
        maxConcurrent := hsurvives.maxConcurrent.symm
        drained := hsurvives.drained.symm
        instanceToken := hsurvives.instanceToken.symm }

/-! ## The nodes of a full state -/

section Merge

variable [Unicode] {k : Backend}

/-- Entries for nodes that the receiver does not have. -/
theorem run_receiveNodes_fresh (ns : List NodeRow) (hids : (ns.map (fun n => n.id)).Nodup)
    (w : Timed (Cluster k)) (hfresh : ∀ n ∈ ns, w.state.nodes.get? n.id = none)
    (reply : FullReply) :
    ∃ reply' nodes clock,
      ((ns.map (fun n => some (Sync.sentNode n))).foldlM Sync.receiveNode reply).run
          Cluster.tick w = (.ok reply', ⟨{ w.state with nodes := nodes }, clock⟩) ∧
        (∀ n ∈ ns, nodes.get? n.id = some (Sync.sentNode n)) ∧
        ∀ id ∉ ns.map (fun n => n.id), nodes.get? id = w.state.nodes.get? id := by
  induction ns generalizing w reply with
  | nil => exact ⟨reply, w.state.nodes, w.clock, rfl, List.forall_mem_nil _, fun _ _ => rfl⟩
  | cons n ns ih =>
      rw [List.map_cons, List.nodup_cons] at hids
      rw [List.forall_mem_cons] at hfresh
      obtain ⟨reply₁, clock₁, hfirst⟩ := Sync.run_receiveNode w reply (Sync.sentNode n)
      have hnewer : Sync.Newer (w.state.loadOf (Sync.sentNode n).id) (Sync.sentNode n) := by
        have hnone : w.state.loadOf (Sync.sentNode n).id = none :=
          congrArg (Option.map _) hfresh.1
        rw [hnone]
        exact fun stored hstored => absurd hstored (Option.not_mem_none stored)
      rw [if_pos hnewer] at hfirst
      have hrow : ∀ id, (w.state.registerNode (Sync.sentNode n)).nodes.get? id =
          if n.id = id then some (Sync.sentNode n) else w.state.nodes.get? id := by
        intro id
        refine (w.state.get?_step 0 (.registerNode (Sync.sentNode n)) id).trans ?_
        change (if n.id = id then _ else _) = _
        split
        · rename_i hid
          have hundrained : Cluster.registeredDrained k (Sync.sentNode n)
              (w.state.nodes.get? id) = false := by
            rw [← hid, hfresh.1]
            cases k <;> rfl
          rw [hundrained]
          rfl
        · rfl
      have hrest : ∀ m ∈ ns,
          (w.state.registerNode (Sync.sentNode n)).nodes.get? m.id = none := by
        intro m hm
        have hne : n.id ≠ m.id := fun hid => hids.1 (hid ▸ List.mem_map_of_mem hm)
        rw [hrow, if_neg hne]
        exact hfresh.2 m hm
      obtain ⟨reply₂, nodes, clock₂, hrun, hmade, hkept⟩ :=
        ih hids.2 ⟨w.state.registerNode (Sync.sentNode n), clock₁⟩ hrest reply₁
      refine ⟨reply₂, nodes, clock₂, ?_, ?_, fun id hid => ?_⟩
      · rw [List.map_cons, List.foldlM_cons, run_bind_of_ok (congrArg Prod.fst hfirst), hfirst]
        exact hrun
      · rw [List.forall_mem_cons]
        refine ⟨?_, hmade⟩
        rw [hkept n.id hids.1]
        exact (hrow n.id).trans (if_pos rfl)
      · rw [List.map_cons, List.mem_cons, not_or] at hid
        rw [hkept id hid.2]
        exact (hrow id).trans (if_neg (Ne.symm hid.1))

/-- Entries that the receiver has as they were sent. -/
theorem run_receiveNodes_again (ns : List NodeRow) (w : Timed (Cluster k))
    (hsame : ∀ n ∈ ns, w.state.nodes.get? n.id = some (Sync.sentNode n)) (reply : FullReply) :
    ∃ reply' clock,
      ((ns.map (fun n => some (Sync.sentNode n))).foldlM Sync.receiveNode reply).run
        Cluster.tick w = (.ok reply', ⟨w.state, clock⟩) := by
  induction ns generalizing w reply with
  | nil => exact ⟨reply, w.clock, rfl⟩
  | cons n ns ih =>
      rw [List.forall_mem_cons] at hsame
      obtain ⟨reply₁, clock₁, hfirst⟩ := Sync.run_receiveNode w reply (Sync.sentNode n)
      have hkept : w.state.registerNode (Sync.sentNode n) = w.state := by
        have hget : w.state.nodes.get? (Sync.sentNode n).id = some (Sync.sentNode n) := hsame.1
        have hundrained : Cluster.registeredDrained k (Sync.sentNode n)
            (some (Sync.sentNode n)) = false := by
          cases k <;> rfl
        unfold Cluster.registerNode
        rw [hget, hundrained]
        exact congrArg (fun nodes => { w.state with nodes := nodes })
          (Table.upsert_eq_self hget)
      rw [hkept, ite_self] at hfirst
      obtain ⟨reply₂, clock₂, hrun⟩ := ih ⟨w.state, clock₁⟩ hsame.2 reply₁
      refine ⟨reply₂, clock₂, ?_⟩
      rw [List.map_cons, List.foldlM_cons, run_bind_of_ok (congrArg Prod.fst hfirst), hfirst]
      exact hrun

/-! ## The tasks of a full state -/

omit [Unicode] in
@[simp] theorem Backend.tasks_withNodes (nodes : Table Node) (s : k.Store) :
    (k.board (k.withNodes nodes s)).tasks = (k.board s).tasks := by
  cases k <;> rfl

/-- A new task that depends on nothing. -/
theorem Backend.get?_createTask (plan : TaskPlan) {s : k.Store} (now : Nat)
    (hfresh : (k.board s).tasks.get? plan.taskId = none) (hdeps : plan.dependsOn = [])
    (taskId : String) :
    (k.board (k.step now (.createTask plan) s).2).tasks.get? taskId =
      if plan.taskId = taskId then some (plan.toTask now k.createdStatus)
      else (k.board s).tasks.get? taskId := by
  cases k with
  | memory => exact Table.get?_upsert _ _ _
  | sql d =>
      change (ClusterStore.toBoard s).tasks.get? plan.taskId = none at hfresh
      refine (HermesCluster.get?_createTask plan taskId).trans ?_
      split
      · rename_i hid
        rw [← hid, hfresh]
        exact congrArg some (if_pos ⟨hdeps, rfl⟩)
      · rfl

/-- A status write to a row that takes it. -/
theorem Backend.get?_setTaskStatus {t : Task} {s : k.Store} {status : TaskStatus}
    {failReason : String} (now : Nat) (hget : (k.board s).tasks.get? t.id = some t)
    (hopen : ¬ClusterState.Refuses t.status status) (taskId : String) :
    (k.board (k.step now (.setTaskStatus t.id status failReason) s).2).tasks.get? taskId =
      if t.id = taskId then some (t.withStatus now status failReason)
      else (k.board s).tasks.get? taskId := by
  have hkey : Table.KeepsKey (Task.withStatus now status failReason) := fun _ => rfl
  have hmodify : ∀ tasks : Table Task, tasks.get? t.id = some t →
      (tasks.modify t.id (Task.withStatus now status failReason) hkey).get? taskId =
        if t.id = taskId then some (t.withStatus now status failReason)
        else tasks.get? taskId := by
    intro tasks htask
    rw [Table.get?_modify]
    by_cases hid : t.id = taskId
    · rw [if_pos hid.symm, if_pos hid, ← hid, htask]
      rfl
    · rw [if_neg (Ne.symm hid), if_neg hid]
  cases k with
  | memory =>
      change (ClusterState.toBoard s).tasks.get? t.id = some t at hget
      change (ClusterState.setTaskStatus now t.id status failReason s).2.tasks.get? taskId = _
      unfold ClusterState.setTaskStatus
      rw [hget]
      simp only [if_neg hopen]
      exact hmodify _ hget
  | sql d =>
      change (ClusterStore.toBoard s).tasks.get? t.id = some t at hget
      have hhit : ClusterStore.setTaskStatus now t.id status failReason s = (true, { s with
          tasks := s.tasks.modify t.id (Task.withStatus now status failReason) hkey }) :=
        ClusterStore.updateHit_of_get? hget
      change (ClusterStore.setTaskStatus now t.id status failReason s).2.tasks.get? taskId = _
      rw [hhit]
      exact hmodify _ hget

theorem Cluster.step_getTask (now : Nat) (taskId : String) (c : Cluster k) :
    c.step now (.store (.getTask taskId) trivial) =
      (c.tasks.get? taskId, { c with rest := c.store }) := by
  cases k <;> rfl

omit [Unicode] in
theorem Cluster.store_withStore (c : Cluster k) :
    Cluster.store { c with rest := c.store } = c.store :=
  k.withNodes_self c.nodes_store

/-- The entry of a task that the receiver does not have. -/
theorem run_receiveTask_new {t : Task} (w : Timed (Cluster k))
    (hnew : w.state.tasks.get? t.id = none) (reply : FullReply) :
    ∃ reply' u c clock,
      (Sync.receiveTask reply (some (Sync.sentTask t))).run Cluster.tick w =
          (.ok reply', ⟨c, clock⟩) ∧
        c.nodes = w.state.nodes ∧ ReceivedTask k t u ∧
        ∀ taskId, c.tasks.get? taskId =
          if t.id = taskId then some u else w.state.tasks.get? taskId := by
  let plan := Sync.createdPlan (Sync.sentTask t)
  let c₁ : Cluster k := { w.state with rest := w.state.store }
  let c₂ := (c₁.step (w.clock 1) (.store (.createTask plan) trivial)).2
  let c₃ := (c₂.step (w.clock 2) (.store (.setTaskStatus t.id t.status "") trivial)).2
  let made := plan.toTask (w.clock 1) k.createdStatus
  have hmade : ∀ taskId, c₂.tasks.get? taskId =
      if t.id = taskId then some made else w.state.tasks.get? taskId := by
    intro taskId
    have hstore : c₂.store = (k.step (w.clock 1) (.createTask plan) w.state.store).2 := by
      rw [← w.state.store_withStore]
      exact c₁.store_step _ _
    rw [Cluster.tasks, hstore]
    exact Backend.get?_createTask plan _ hnew rfl taskId
  simp only [Sync.receiveTask, Sync.store, query, perform_bind, run, timed, Sync.sentTask,
    Cluster.step_getTask, hnew]
  by_cases hpending : t.status = .pending
  · simp only [ne_eq, hpending, not_true_eq_false, if_false]
    refine ⟨_, made, c₂, _, rfl, rfl, ?_, hmade⟩
    exact
      { status := (if_pos hpending).symm
        dependsOn := rfl
        requires := rfl
        assignedTo := rfl
        priority := rfl
        laneKey := rfl
        role := rfl
        result := rfl
        version := (if_pos hpending).symm }
  · simp only [ne_eq, hpending, not_false_eq_true, if_true]
    refine ⟨_, made.withStatus (w.clock 2) t.status "", c₃, _, rfl, rfl, ?_, fun taskId => ?_⟩
    · exact
        { status := (if_neg hpending).symm
          dependsOn := rfl
          requires := rfl
          assignedTo := rfl
          priority := rfl
          laneKey := rfl
          role := rfl
          result := rfl
          version := (if_neg hpending).symm }
    · have hstore : c₃.store = (k.step (w.clock 2) (.setTaskStatus t.id t.status "") c₂.store).2 :=
        c₂.store_step _ _
      have hopen : ¬ClusterState.Refuses made.status t.status := by
        intro hrefuses
        have hterminal : k.createdStatus.IsTerminal := hrefuses.1
        cases k with
        | memory => exact TaskStatus.not_isTerminal_of_pending rfl hterminal
        | sql d => exact TaskStatus.not_isTerminal_of_ready rfl hterminal
      rw [Cluster.tasks, hstore]
      refine (Backend.get?_setTaskStatus (t := made) _ ((hmade t.id).trans (if_pos rfl)) hopen
        taskId).trans ?_
      change (if t.id = taskId then _ else c₂.tasks.get? taskId) = _
      rw [hmade]
      split <;> rfl

theorem run_receiveTask_known {t u : Task} (w : Timed (Cluster k))
    (hknown : w.state.tasks.get? t.id = some u) (hversion : ¬u.version < t.version)
    (reply : FullReply) :
    ∃ reply' clock, (Sync.receiveTask reply (some (Sync.sentTask t))).run Cluster.tick w =
      (.ok reply', ⟨{ w.state with rest := w.state.store }, clock⟩) := by
  simp only [Sync.receiveTask, Sync.store, query, perform_bind, run, timed, Sync.sentTask,
    Cluster.step_getTask, hknown, hversion, if_false]
  exact ⟨_, _, rfl⟩

/-- Entries for tasks that the receiver does not have. -/
theorem run_receiveTasks_fresh (ts : List Task) (hids : (ts.map Task.id).Nodup)
    (w : Timed (Cluster k)) (hfresh : ∀ t ∈ ts, w.state.tasks.get? t.id = none)
    (reply : FullReply) :
    ∃ reply' c clock,
      ((ts.map (fun t => some (Sync.sentTask t))).foldlM Sync.receiveTask reply).run
          Cluster.tick w = (.ok reply', ⟨c, clock⟩) ∧
        c.nodes = w.state.nodes ∧
        (∀ t ∈ ts, ∃ u, c.tasks.get? t.id = some u ∧ ReceivedTask k t u) ∧
        ∀ id ∉ ts.map Task.id, c.tasks.get? id = w.state.tasks.get? id := by
  induction ts generalizing w reply with
  | nil =>
      exact ⟨reply, w.state, w.clock, rfl, rfl, List.forall_mem_nil _, fun _ _ => rfl⟩
  | cons t ts ih =>
      rw [List.map_cons, List.nodup_cons] at hids
      rw [List.forall_mem_cons] at hfresh
      obtain ⟨reply₁, u, c₁, clock₁, hfirst, hnodes₁, hu, hrow⟩ :=
        run_receiveTask_new w hfresh.1 reply
      have hrest : ∀ t' ∈ ts, c₁.tasks.get? t'.id = none := by
        intro t' ht'
        have hne : t.id ≠ t'.id := fun hid => hids.1 (hid ▸ List.mem_map_of_mem ht')
        rw [hrow, if_neg hne]
        exact hfresh.2 t' ht'
      obtain ⟨reply₂, c₂, clock₂, hrun, hnodes₂, hmade, hkept⟩ :=
        ih hids.2 ⟨c₁, clock₁⟩ hrest reply₁
      refine ⟨reply₂, c₂, clock₂, ?_, hnodes₂.trans hnodes₁, ?_, fun id hid => ?_⟩
      · rw [List.map_cons, List.foldlM_cons, run_bind_of_ok (congrArg Prod.fst hfirst), hfirst]
        exact hrun
      · rw [List.forall_mem_cons]
        refine ⟨⟨u, ?_, hu⟩, hmade⟩
        rw [hkept t.id hids.1]
        exact (hrow t.id).trans (if_pos rfl)
      · rw [List.map_cons, List.mem_cons, not_or] at hid
        rw [hkept id hid.2]
        exact (hrow id).trans (if_neg (Ne.symm hid.1))

/-- Entries for tasks that the receiver has in a version not older. -/
theorem run_receiveTasks_again (ts : List Task) (w : Timed (Cluster k))
    (hknown : ∀ t ∈ ts, ∃ u, w.state.tasks.get? t.id = some u ∧ ¬u.version < t.version)
    (reply : FullReply) :
    ∃ reply' c clock,
      ((ts.map (fun t => some (Sync.sentTask t))).foldlM Sync.receiveTask reply).run
          Cluster.tick w = (.ok reply', ⟨c, clock⟩) ∧ w.state.Unchanged c := by
  induction ts generalizing w reply with
  | nil => exact ⟨reply, w.state, w.clock, rfl, rfl, rfl, rfl⟩
  | cons t ts ih =>
      rw [List.forall_mem_cons] at hknown
      obtain ⟨⟨u, hu, hversion⟩, hknown⟩ := hknown
      obtain ⟨reply₁, clock₁, hfirst⟩ := run_receiveTask_known w hu hversion reply
      have hsame : ({ w.state with rest := w.state.store } : Cluster k).tasks = w.state.tasks :=
        congrArg (fun s => (k.board s).tasks) w.state.store_withStore
      obtain ⟨reply₂, c, clock₂, hrun, hkept⟩ :=
        ih ⟨{ w.state with rest := w.state.store }, clock₁⟩
          (fun t' ht' => hsame.symm ▸ hknown t' ht') reply₁
      refine ⟨reply₂, c, clock₂, ?_, hkept.nodes, hkept.capCache, ?_⟩
      · rw [List.map_cons, List.foldlM_cons, run_bind_of_ok (congrArg Prod.fst hfirst), hfirst]
        exact hrun
      · exact hkept.store.trans w.state.store_withStore

/-! ## The whole payload -/

theorem run_buildFullState (w : Timed (Cluster k)) :
    (Sync.buildFullState.run Cluster.tick w).1 =
      .ok (Sync.fullStateOf w.state.nodes.rows w.state.tasks.rows) := by
  cases k <;> rfl

/-- The first application to a coordinator that holds nothing. -/
theorem received_by_fresh (nodes : Table NodeRow) (tasks : Table Task) (clock : Nat → Nat) :
    let c := Sync.applied (k := k) (Sync.fullStateOf nodes.rows tasks.rows) ⟨Cluster.fresh k, clock⟩
    (∀ t ∈ tasks.rows, ∃ u, c.tasks.get? t.id = some u ∧ ReceivedTask k t u) ∧
      ∀ n ∈ nodes.rows, c.nodes.get? n.id = some (Sync.sentNode n) := by
  have hempty : (Cluster.fresh k).tasks = Table.empty := by
    cases k <;> rfl
  obtain ⟨reply, received, clock₁, hnodes, hmade, -⟩ :=
    run_receiveNodes_fresh nodes.rows nodes.nodup ⟨Cluster.fresh k, clock⟩ (fun _ _ => rfl) {}
  have hnone : ∀ t ∈ tasks.rows,
      ({ Cluster.fresh k with nodes := received } : Cluster k).tasks.get? t.id = none := by
    intro t _
    rw [Cluster.tasks, Cluster.store, Backend.tasks_withNodes]
    cases k <;> rfl
  obtain ⟨reply₂, c, clock₂, htasks, hkept, hrows, -⟩ :=
    run_receiveTasks_fresh tasks.rows tasks.nodup
      ⟨{ Cluster.fresh k with nodes := received }, clock₁⟩ hnone reply
  have hrun :
      Sync.applied (Sync.fullStateOf nodes.rows tasks.rows) ⟨Cluster.fresh k, clock⟩ = c := by
    unfold Sync.applied Sync.receiveFullState Sync.fullStateOf
    rw [run_bind_of_ok (congrArg Prod.fst hnodes), hnodes, htasks]
  dsimp only
  rw [hrun]
  refine ⟨hrows, fun n hn => ?_⟩
  rw [hkept]
  exact hmade n hn

/-- A second application to a coordinator that has every entry. -/
theorem received_again (nodes : Table NodeRow) (tasks : Table Task) (w : Timed (Cluster k))
    (hnodes : ∀ n ∈ nodes.rows, w.state.nodes.get? n.id = some (Sync.sentNode n))
    (htasks : ∀ t ∈ tasks.rows, ∃ u,
      w.state.tasks.get? t.id = some u ∧ ¬u.version < t.version) :
    w.state.Unchanged (Sync.applied (Sync.fullStateOf nodes.rows tasks.rows) w) := by
  obtain ⟨reply, clock, hfirst⟩ := run_receiveNodes_again nodes.rows w hnodes {}
  obtain ⟨reply₂, c, clock₂, hsecond, hkept⟩ :=
    run_receiveTasks_again tasks.rows ⟨w.state, clock⟩ htasks reply
  have hrun : Sync.applied (Sync.fullStateOf nodes.rows tasks.rows) w = c := by
    unfold Sync.applied Sync.receiveFullState Sync.fullStateOf
    rw [run_bind_of_ok (congrArg Prod.fst hfirst), hfirst, hsecond]
  exact hrun.symm ▸ hkept

/-- The payload of any coordinator, applied twice to one that holds nothing,
reproduces the sender and then changes nothing if and only if all that the sender
holds survives the payload. -/
theorem full_state_reproduced_iff (k k' : Backend) (sender : Timed (Cluster k'))
    (clock clock' : Nat → Nat) :
    ∃ payload, (Sync.buildFullState.run Cluster.tick sender).1 = .ok payload ∧
      let first := Sync.applied (k := k) payload ⟨Cluster.fresh k, clock⟩
      (sender.state.ReproducedBy first ∧
          first.Unchanged (Sync.applied payload ⟨first, clock'⟩)) ↔
        (∀ t ∈ sender.state.tasks.rows, t.Survives k) ∧
          ∀ n ∈ sender.state.nodes.rows, n.Survives := by
  refine ⟨_, run_buildFullState sender, ?_⟩
  obtain ⟨htasks, hnodes⟩ :=
    received_by_fresh (k := k) sender.state.nodes sender.state.tasks clock
  constructor
  · rintro ⟨hsame, -⟩
    constructor
    · intro t ht
      obtain ⟨u, hu, hreceived⟩ := htasks t ht
      obtain ⟨u', hu', hsent⟩ := hsame.tasks t ht
      obtain rfl := Option.some.inj (hu'.symm.trans hu)
      exact hreceived.sameTask_iff.mp hsent
    · intro n hn
      obtain ⟨m, hm, hsent⟩ := hsame.nodes n hn
      obtain rfl := Option.some.inj (hm.symm.trans (hnodes n hn))
      exact sameNode_sentNode_iff.mp hsent
  · rintro ⟨htask, hnode⟩
    refine ⟨⟨fun t ht => ?_, fun n hn => ?_⟩, ?_⟩
    · obtain ⟨u, hu, hreceived⟩ := htasks t ht
      exact ⟨u, hu, hreceived.sameTask_iff.mpr (htask t ht)⟩
    · exact ⟨_, hnodes n hn, sameNode_sentNode_iff.mpr (hnode n hn)⟩
    · refine received_again _ _ ⟨_, clock'⟩ hnodes (fun t ht => ?_)
      obtain ⟨u, hu, hreceived⟩ := htasks t ht
      have hversion : u.version = t.version :=
        (hreceived.sameTask_iff.mpr (htask t ht)).version
      exact ⟨u, hu, hversion.symm ▸ lt_irrefl _⟩

end Merge

section DependentTask

local instance asciiFullState : Unicode := Unicode.ascii

/-- A coordinator with a ready task and one that waits for it. -/
def dependentSender : Timed (Cluster .memory) where
  state :=
    { rest := { ClusterState.empty with
        tasks := (Table.empty.upsert
          { id := "task_1", title := "t", createdAt := 0, updatedAt := 0, version := 1 }).upsert
            { id := "task_2", title := "u", dependsOn := ["task_1"], createdAt := 0,
              updatedAt := 0, version := 1 } } }
  clock := fun _ => 0

/-- The receiver's second task depends on nothing. -/
theorem dependency_lost :
    ∃ payload, (Sync.buildFullState.run Cluster.tick dependentSender).1 = .ok payload ∧
      ¬dependentSender.state.ReproducedBy
        (Sync.applied (k := .memory) payload ⟨Cluster.fresh .memory, fun _ => 0⟩) := by
  let payload := Sync.fullStateOf dependentSender.state.nodes.rows
    dependentSender.state.tasks.rows
  have hreceived : ((Sync.applied (k := .memory) payload ⟨Cluster.fresh .memory,
      fun _ => 0⟩).tasks.get? "task_2").map Task.dependsOn = some [] := by
    decide
  refine ⟨payload, rfl, fun hsame => ?_⟩
  obtain ⟨u, hu, hsent⟩ := hsame.tasks
    { id := "task_2", title := "u", dependsOn := ["task_1"], createdAt := 0,
      updatedAt := 0, version := 1 } (by decide)
  have hlost : u.dependsOn = [] :=
    Option.some.inj ((congrArg (Option.map Task.dependsOn) hu).symm.trans hreceived)
  exact absurd (hsent.dependsOn.symm.trans hlost) (List.cons_ne_nil _ _)

end DependentTask

end HermesCluster
