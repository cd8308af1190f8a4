import HermesCluster.Lib.Interleave
import HermesCluster.Routers.Footprint
/-!
# One node per task

Claims, schedule passes and recoveries that run at the same time on the
in-memory store. A pass is one operation of the store, and what a recovery puts
back to ready is guarded by the store. A claim is a read of the task row, two
writes to it and a new lease, and it does not look at the row again.
-/

namespace HermesCluster

open Program hiding pure bind

/-- Active leases on one task are held by one node, and the task is assigned to
that node. -/
structure ExclusivePlacement (b : Board) : Prop where
  node_eq : ∀ l ∈ b.leases.rows, ∀ l' ∈ b.leases.rows, l.status = .active →
    l'.status = .active → l'.taskId = l.taskId → l'.nodeId = l.nodeId
  assigned : ∀ l ∈ b.leases.rows, l.status = .active → ∀ t, b.tasks.get? l.taskId = some t →
    t.assignedTo = some l.nodeId

/-- Moreover, no task under an active lease is ready. -/
structure Placed (b : Board) : Prop extends ExclusivePlacement b where
  not_ready : ∀ l ∈ b.leases.rows, l.status = .active → ∀ t, b.tasks.get? l.taskId = some t →
    t.status ≠ .ready

theorem placed_of_leases_eq_nil {b : Board} (h : b.leases.rows = []) : Placed b := by
  have hnone : ∀ l, l ∉ b.leases.rows := fun l hl => by
    rw [h] at hl
    cases hl
  exact ⟨⟨fun l hl => absurd hl (hnone l), fun l hl => absurd hl (hnone l)⟩,
    fun l hl => absurd hl (hnone l)⟩

/-! ## Writes to the board -/

section Board

variable {b : Board} {taskId : String}

theorem Placed.of_leases (h : Placed b) {leases : Table Lease}
    (hactive : ∀ l ∈ leases.rows, l.status = .active → l ∈ b.leases.rows) :
    Placed { b with leases := leases } := by
  refine ⟨⟨fun l hl l' hl' hl_active hl_active' => ?_, fun l hl hl_active => ?_⟩,
    fun l hl hl_active => ?_⟩
  · exact h.node_eq l (hactive l hl hl_active) l' (hactive l' hl' hl_active') hl_active hl_active'
  · exact h.assigned l (hactive l hl hl_active) hl_active
  · exact h.not_ready l (hactive l hl hl_active) hl_active

theorem Placed.modify (h : Placed b) {f : Task → Task} (hf : Table.KeepsKey f)
    (hrow : ∀ t, b.tasks.get? taskId = some t → ∀ l ∈ b.leases.rows, l.status = .active →
      l.taskId = taskId → (f t).assignedTo = some l.nodeId ∧ (f t).status ≠ .ready) :
    Placed { b with tasks := b.tasks.modify taskId f hf } := by
  have hsuits : ∀ l ∈ b.leases.rows, l.status = .active → ∀ t',
      (b.tasks.modify taskId f hf).get? l.taskId = some t' →
        t'.assignedTo = some l.nodeId ∧ t'.status ≠ .ready := by
    intro l hl hactive t' ht'
    by_cases htask : l.taskId = taskId
    · rw [htask, Table.get?_modify_self] at ht'
      obtain ⟨t, ht, rfl⟩ := Option.map_eq_some_iff.mp ht'
      exact hrow t ht l hl hactive htask
    · rw [b.tasks.get?_modify_ne taskId f hf htask] at ht'
      exact ⟨h.assigned l hl hactive t' ht', h.not_ready l hl hactive t' ht'⟩
  exact ⟨⟨h.node_eq, fun l hl hactive t' ht' => (hsuits l hl hactive t' ht').1⟩,
    fun l hl hactive t' ht' => (hsuits l hl hactive t' ht').2⟩

/-- A new lease for the node that the task is assigned to. -/
theorem Placed.addLease (h : Placed b) {now ttl : Nat} {nodeId : String} {t : Task}
    (ht : b.tasks.get? taskId = some t) (hassigned : t.assignedTo = some nodeId)
    (hready : t.status ≠ .ready) :
    Placed { b with leases := HermesCluster.addLease now b.leases taskId nodeId ttl } := by
  have hrow : ∀ l ∈ (HermesCluster.addLease now b.leases taskId nodeId ttl).rows,
      l ∈ b.leases.rows ∨ l.taskId = taskId ∧ l.nodeId = nodeId := by
    intro l hl
    rcases List.mem_append.mp hl with hold | hnew
    · exact .inl hold
    · rw [List.mem_singleton.mp hnew]
      exact .inr ⟨rfl, rfl⟩
  have hassignee : ∀ l ∈ (HermesCluster.addLease now b.leases taskId nodeId ttl).rows,
      l.status = .active → l.taskId = taskId → l.nodeId = nodeId := by
    intro l hl hactive htask
    rcases hrow l hl with hold | ⟨-, hnode⟩
    · have hnode := h.assigned l hold hactive t (htask ▸ ht)
      exact Option.some.inj (hnode.symm.trans hassigned)
    · exact hnode
  refine ⟨⟨fun l hl l' hl' hactive hactive' htask => ?_, fun l hl hactive u hu => ?_⟩,
    fun l hl hactive u hu => ?_⟩
  · by_cases hself : l.taskId = taskId
    · rw [hassignee l hl hactive hself, hassignee l' hl' hactive' (htask.trans hself)]
    · rcases hrow l hl with hold | ⟨hnew, -⟩
      · rcases hrow l' hl' with hold' | ⟨hnew, -⟩
        · exact h.node_eq l hold l' hold' hactive hactive' htask
        · exact absurd (htask.symm.trans hnew) hself
      · exact absurd hnew hself
  · rcases hrow l hl with hold | ⟨htask, hnode⟩
    · exact h.assigned l hold hactive u hu
    · obtain rfl : t = u := Option.some.inj (ht.symm.trans (htask ▸ hu))
      rw [hassigned, hnode]
  · rcases hrow l hl with hold | ⟨htask, -⟩
    · exact h.not_ready l hold hactive u hu
    · obtain rfl : t = u := Option.some.inj (ht.symm.trans (htask ▸ hu))
      exact hready

/-- No active lease is on a ready task, so a pass may give it to any node. -/
theorem Placed.place (h : Placed b) {now : Nat} {p : Task × String} (hready : RowReady b p.1) :
    Placed (b.place now p) := by
  obtain ⟨t, ht, hstatus⟩ := hready
  have hrow : Placed { b with
      tasks := b.tasks.modify p.1.id (Task.assignTo now p.2) (fun _ => rfl) } := by
    refine h.modify _ (fun u hu l hl hactive htask => ?_)
    obtain rfl : t = u := Option.some.inj (ht.symm.trans hu)
    exact absurd hstatus (h.not_ready l hl hactive t (htask ▸ ht))
  have hrunning : (t.assignTo now p.2).status ≠ .ready := fun h => by cases h
  refine hrow.addLease (get?_place_self now b p ▸ ?_) rfl hrunning
  rw [ht, Option.map_some]

theorem Placed.placeAll (h : Placed b) {now : Nat} {ps : List (Task × String)}
    (hnodup : (ps.map (fun p => p.1.id)).Nodup) (hready : ∀ p ∈ ps, RowReady b p.1) :
    Placed (b.placeAll now ps) := by
  induction ps generalizing b with
  | nil => exact h
  | cons p ps ih =>
      rw [List.map_cons, List.nodup_cons] at hnodup
      rw [placeAll_cons]
      refine ih (h.place (hready p List.mem_cons_self)) hnodup.2 (fun q hq => ?_)
      refine rowReady_place (hready q (List.mem_cons_of_mem _ hq)) (fun hid => hnodup.1 ?_)
      rw [← hid]
      exact List.mem_map_of_mem (f := fun p => p.1.id) hq

end Board

/-! ## Operations -/

/-- What the calls in question ask of the store. -/
def Placing : StoreOp → Prop
  | .setTaskStatus _ status _ => status ≠ .ready
  | .writeTaskRow _ _ _ | .createLease _ _ _ => True
  | op => Recovering op

/-- What an operation needs of the board it is performed on. The row that a claim
writes is under no active lease of another node, and at its lease the task is
still assigned to its node and not ready again. A task that is put back to ready
is under no active lease; the store sees to that itself, but for the empty id. -/
def Undisturbed (b : Board) : StoreOp → Prop
  | .writeTaskRow taskId assignedTo _ => ∀ l ∈ b.leases.rows, l.status = .active →
      l.taskId = taskId → assignedTo = some l.nodeId
  | .createLease taskId nodeId _ => ∃ t ∈ b.tasks.get? taskId,
      t.assignedTo = some nodeId ∧ t.status ≠ .ready
  | .unassignTask taskId => taskId = "" → ∀ l ∈ b.leases.rows, l.status = .active →
      l.taskId ≠ taskId
  | _ => True

instance (b : Board) (op : StoreOp) : Decidable (Undisturbed b op) := by
  induction op using StoreOp.casesOn with
  | writeTaskRow taskId assignedTo _ =>
      exact inferInstanceAs (Decidable (∀ l ∈ b.leases.rows, l.status = .active →
        l.taskId = taskId → assignedTo = some l.nodeId))
  | createLease taskId nodeId _ =>
      exact inferInstanceAs (Decidable (∃ t ∈ b.tasks.get? taskId,
        t.assignedTo = some nodeId ∧ t.status ≠ .ready))
  | unassignTask taskId =>
      exact inferInstanceAs (Decidable (taskId = "" → ∀ l ∈ b.leases.rows,
        l.status = .active → l.taskId ≠ taskId))
  | _ => exact isTrue trivial

section Step

variable [Unicode]

namespace ClusterState

variable {now : Nat} {s : ClusterState}

omit [Unicode] in
theorem placed_setTaskStatus (h : Placed s.toBoard) {taskId failReason : String}
    {status : TaskStatus} (hstatus : status ≠ .ready) :
    Placed (s.setTaskStatus now taskId status failReason).2.toBoard := by
  rcases setTaskStatus_cases now taskId status failReason s with ⟨heq, -⟩ | ⟨_, _, _, heq⟩
  · rw [heq]
    exact h
  · rw [heq]
    refine h.modify _ (fun t ht l hl hactive htask => ⟨?_, hstatus⟩)
    exact h.assigned l hl hactive t (htask ▸ ht)

omit [Unicode] in
theorem placed_unassignTask (h : Placed s.toBoard) {taskId : String}
    (hsafe : Undisturbed s.toBoard (.unassignTask taskId)) :
    Placed (s.unassignTask now taskId).2.toBoard := by
  unfold unassignTask
  split
  · exact h
  split
  · exact h
  split
  · exact h
  rename_i hlease
  have hnone : s.getLeaseByTask taskId = none := by simpa using hlease
  refine h.modify _ (fun t ht l hl hactive htask => ?_)
  rcases getLeaseByTask_none hnone with hempty | hfree
  · exact absurd htask (hsafe hempty l hl hactive)
  · exact absurd hactive (hfree l hl htask)

omit [Unicode] in
theorem placed_writeTaskRow (h : Placed s.toBoard) {taskId : String}
    {assignedTo failReason : Option String}
    (hsafe : Undisturbed s.toBoard (.writeTaskRow taskId assignedTo failReason)) :
    Placed (s.writeTaskRow now taskId assignedTo failReason).2.toBoard := by
  rcases writeTaskRow_cases now taskId assignedTo failReason s with heq | ⟨_, _, heq⟩
  · rw [heq]
    exact h
  · rw [heq]
    refine h.modify _ (fun t ht l hl hactive htask => ⟨hsafe l hl hactive htask, ?_⟩)
    exact h.not_ready l hl hactive t (htask ▸ ht)

omit [Unicode] in
theorem placed_getActiveLeases (h : Placed s.toBoard) :
    Placed (s.getActiveLeases now).2.toBoard := by
  refine h.of_leases (fun l' hl' hactive => ?_)
  obtain ⟨l, hl, rfl⟩ := List.mem_map.mp hl'
  by_cases hlapsed : l.IsLapsed now
  · rw [if_pos hlapsed] at hactive
    cases hactive
  · rw [if_neg hlapsed]
    exact hl

omit [Unicode] in
theorem placed_revokeLease (h : Placed s.toBoard) (leaseId : Nat) :
    Placed (s.revokeLease leaseId).2.toBoard := by
  unfold revokeLease
  split
  · exact h
  · refine h.of_leases (fun l' hl' hactive => ?_)
    obtain ⟨l, hl, rfl⟩ := List.mem_map.mp hl'
    split at hactive
    · cases hactive
    · rename_i hid
      rw [if_neg hid]
      exact hl

theorem placed_schedulePendingDetailed (h : Placed s.toBoard) :
    Placed (s.schedulePendingDetailed now).2.toBoard := by
  have hpass := passOf_schedulePendingDetailed now s
  have hplaced : Placed (s.toBoard.placeAll now (placements s.toBoard (s.readyTasks now))) := by
    refine h.placeAll hpass.nodup_placed (fun p hp => ?_)
    have hserved := hpass.served.rowReady p.1 (mem_of_mem_placements hp)
    exact ⟨p.1, hserved.1, hserved.2⟩
  refine ⟨⟨?_, ?_⟩, ?_⟩
  all_goals rw [hpass.leases_eq]
  · exact hplaced.node_eq
  · rw [hpass.tasks_eq]
    exact hplaced.assigned
  · rw [hpass.tasks_eq]
    exact hplaced.not_ready

theorem placed_step (h : Placed s.toBoard) {op : StoreOp} (hop : Placing op)
    (hsafe : Undisturbed s.toBoard op) : Placed (s.step now op).2.toBoard := by
  cases op with
  | getTask | getExpiredLeases | unleasedRunningTasks => exact h
  | getActiveLeases => exact placed_getActiveLeases h
  | revokeLease leaseId => exact placed_revokeLease h leaseId
  | setTaskStatus => exact placed_setTaskStatus h hop
  | unassignTask => exact placed_unassignTask h hsafe
  | writeTaskRow => exact placed_writeTaskRow h hsafe
  | createLease =>
      obtain ⟨t, ht, hassigned, hready⟩ := hsafe
      exact h.addLease ht hassigned hready
  | schedulePendingDetailed => exact placed_schedulePendingDetailed h
  | _ => exact hop.elim

end ClusterState

end Step

/-! ## Calls -/

section Calls

/-- The calls that run at the same time. -/
def Call.Places : Call → Prop
  | .claim _ _ | .schedulePass | .recover _ | .sweep _ => True
  | _ => False

theorem placing_of_recovering {op : StoreOp} (h : Recovering op) : Placing op := by
  cases op with
  | setTaskStatus taskId status reason =>
      obtain rfl : status = .failed := h
      exact fun hready => by cases hready
  | writeTaskRow | createLease => trivial
  | _ => exact h

theorem only_claimTask_placing (taskId : String) (req : ClaimTaskRequest) :
    (Tasks.claimTask taskId req).Only Placing := by
  unfold Tasks.claimTask Tasks.requireTask
  refine only_bind (only_store trivial (fun r => ?_)) (fun t => ?_)
  · cases r <;> trivial
  · split
    · trivial
    split
    · trivial
    refine only_store (fun h => by cases h) (fun _ => ?_)
    refine only_bind ?_ (fun _ => only_bind ?_ (fun _ => only_store trivial (fun _ => trivial)))
    · unfold Tasks.writeTaskRow
      refine only_store trivial (fun r => ?_)
      cases r <;> trivial
    · unfold LeaseManager.create
      split
      · trivial
      split
      · trivial
      exact ⟨trivial, fun _ => trivial⟩

variable [Unicode]

theorem Call.only_placing {c : Call} (h : c.Places) : c.prog.Only Placing := by
  cases c with
  | claim taskId req => exact only_bind (only_claimTask_placing taskId req) (fun _ => trivial)
  | schedulePass => exact only_store trivial (fun _ => trivial)
  | recover nodeId =>
      refine only_bind ?_ (fun _ => trivial)
      exact (only_triggerRecovery nodeId).mono (fun _ => placing_of_recovering)
  | sweep order =>
      refine only_bind ?_ (fun _ => trivial)
      exact (only_detectExpiredLeases order).mono (fun _ => placing_of_recovering)
  | _ => exact h.elim

/-- Any number of claims, schedule passes and recoveries on the in-memory store,
their operations interleaved in any way and at any times, from a store where the
leases and the tasks agree, such as one without leases: as long as no claim is
disturbed between its read and its lease, after each operation the active leases
on a task are held by the node that it is assigned to. -/
theorem exclusivePlacement_of_turns (calls : List Call) (turns : List (Turn Nat))
    (s : ClusterState) (hcalls : ∀ c ∈ calls, c.Places) (hstart : Placed s.toBoard)
    (hsafe : Pool.Along ClusterState.step (fun s op _ => Undisturbed s.toBoard op) turns
      (calls.map Call.prog) s) :
    Pool.Along ClusterState.step (fun _ _ s' => ExclusivePlacement s'.toBoard) turns
        (calls.map Call.prog) s ∧
      ExclusivePlacement (Pool.run ClusterState.step turns (calls.map Call.prog) s).2.toBoard := by
  have honly : ∀ p ∈ calls.map Call.prog, p.Only Placing := by
    intro p hp
    obtain ⟨c, hc, rfl⟩ := List.mem_map.mp hp
    exact Call.only_placing (hcalls c hc)
  obtain ⟨halong, hend⟩ := Pool.keeps_of_only (I := fun s : ClusterState => Placed s.toBoard)
    (P := fun _ _ s' => ExclusivePlacement s'.toBoard) honly hstart hsafe
    (fun now s op h hop hsafe => by
      have hnext : Placed (ClusterState.step now op s).2.toBoard :=
        ClusterState.placed_step h hop hsafe
      exact ⟨hnext.toExclusivePlacement, hnext⟩)
  exact ⟨halong, hend.toExclusivePlacement⟩

end Calls

section Example

local instance asciiPlacement : Unicode := Unicode.ascii

/-- Two nodes, and two ready tasks. -/
def twoReady : ClusterState where
  nodes := ⟨[{ id := "n" }, { id := "m" }], by decide⟩
  tasks := ⟨[{ id := "a", title := "a", status := .ready, createdAt := 0, updatedAt := 0 },
    { id := "b", title := "b", status := .ready, createdAt := 0, updatedAt := 0 }], by decide⟩
  index_ok := indexOk_initial

/-- Node `m` claims the first task while a pass and a sweep run. -/
def atTheSameTime : List Call :=
  [.claim "a" { nodeId := "m" }, .schedulePass, .sweep .insertion]

/-- The pass comes when the claim has written the status, and the sweep ends
before the lease. -/
theorem exclusivePlacement_of_turns_undisturbed :
    ExclusivePlacement (Pool.run ClusterState.step
      [⟨0, 1⟩, ⟨2, 2⟩, ⟨0, 3⟩, ⟨1, 4⟩, ⟨2, 5⟩, ⟨0, 6⟩, ⟨2, 7⟩, ⟨0, 8⟩, ⟨0, 9⟩]
      (atTheSameTime.map Call.prog) twoReady).2.toBoard := by
  refine (exclusivePlacement_of_turns atTheSameTime
    [⟨0, 1⟩, ⟨2, 2⟩, ⟨0, 3⟩, ⟨1, 4⟩, ⟨2, 5⟩, ⟨0, 6⟩, ⟨2, 7⟩, ⟨0, 8⟩, ⟨0, 9⟩] twoReady
    (fun c hc => ?_) (placed_of_leases_eq_nil rfl) (by decide)).2
  rcases List.mem_cons.mp hc with rfl | hc
  · trivial
  rcases List.mem_cons.mp hc with rfl | hc
  · trivial
  obtain rfl := List.mem_singleton.mp hc
  trivial

/-- The pass comes between the claim's read and its writes. -/
def disturbed : ClusterState :=
  (Pool.run ClusterState.step [⟨0, 1⟩, ⟨1, 2⟩, ⟨0, 3⟩, ⟨0, 4⟩, ⟨0, 5⟩]
    (atTheSameTime.map Call.prog) twoReady).2

/-- The task is then leased to the node of the pass and to that of the claim. -/
theorem two_nodes_disturbed : ¬ExclusivePlacement disturbed.toBoard := by
  intro h
  have hactive : ∀ l ∈ disturbed.leases.rows, l.status = .active := by decide
  have hone : ∀ l ∈ disturbed.leases.rows, ∀ l' ∈ disturbed.leases.rows,
      l'.taskId = l.taskId → l'.nodeId = l.nodeId :=
    fun l hl l' hl' => h.node_eq l hl l' hl' (hactive l hl) (hactive l' hl')
  revert hone
  decide

end Example

end HermesCluster
