import HermesCluster.Lease.LeaseRows
import HermesCluster.Routers.BallotProtocol
/-!
# Ready tasks can be claimed

A ready task is free if no node is named on its row and no lease is active on it.
Every operation that makes a task ready has to see to both, and each does so in
its own way: `release` and `requeue_task` revoke a lease and clear the row,
`unassign_task` asks for the lease, `answer`, `unblock` and `advance` leave the row
as it is.
-/

namespace HermesCluster

open Program hiding pure bind

/-! ## The invariant -/

/-- A lease in status `active` names the task; whether it has lapsed is not looked
at. -/
def Held (b : Board) (taskId : String) : Prop :=
  ∃ l ∈ b.leases.rows, l.taskId = taskId ∧ l.status = .active

instance (b : Board) (taskId : String) : Decidable (Held b taskId) :=
  inferInstanceAs (Decidable (∃ l ∈ b.leases.rows, l.taskId = taskId ∧ l.status = .active))

/-- Ready, or to be promoted. -/
def TaskStatus.IsQueued (status : TaskStatus) : Prop := status = .ready ∨ status = .pending

/-- One row. In the midst of a release the assignee of one row is still to be
cleared. -/
structure Fits (freed : Option String) (b : Board) (t : Task) : Prop where
  named : t.id ≠ ""
  unassigned : t.status.IsQueued → t.id ∉ freed → t.assignedTo = none
  unheld : t.status.IsQueued ∨ t.status = .blocked → ¬Held b t.id

/-- No two active leases name one task. -/
def OneLease (b : Board) : Prop :=
  ∀ l ∈ b.leases.rows, ∀ l' ∈ b.leases.rows, l.status = .active → l'.status = .active →
    l.taskId = l'.taskId → l = l'

/-- What holds of the board between two operations. -/
structure Claimability (freed : Option String) (b : Board) : Prop where
  rows : ∀ t ∈ b.tasks.rows, Fits freed b t
  leases : OneLease b

/-- No lease has become active. -/
def NoNewLease (b b' : Board) : Prop :=
  ∀ l ∈ b'.leases.rows, l.status = .active → l ∈ b.leases.rows

section Boards

variable {freed : Option String} {b b' : Board} {taskId : String} {t : Task}

theorem NoNewLease.of_eq (h : b'.leases = b.leases) : NoNewLease b b' := by
  intro l hl _
  rwa [h] at hl

theorem NoNewLease.of_update {p : Lease → Prop} [DecidablePred p] {f : Lease → Lease}
    (hf : Table.KeepsKey f) (hended : ∀ l, (f l).status ≠ .active)
    (h : b'.leases = b.leases.updateWhere p f hf) : NoNewLease b b' := by
  intro l hl hactive
  rw [h] at hl
  obtain ⟨m, hm, rfl⟩ := Table.mem_mapRows.mp hl
  split at hactive
  · exact absurd hactive (hended m)
  · rename_i hp
    rwa [if_neg hp]

theorem NoNewLease.held (h : NoNewLease b b') (hheld : Held b' taskId) : Held b taskId := by
  obtain ⟨l, hl, htask, hactive⟩ := hheld
  exact ⟨l, h l hl hactive, htask, hactive⟩

theorem NoNewLease.oneLease (h : NoNewLease b b') (hone : OneLease b) : OneLease b' :=
  fun l hl l' hl' hactive hactive' =>
    hone l (h l hl hactive) l' (h l' hl' hactive') hactive hactive'

theorem Fits.of_noNewLease (h : Fits freed b t) (hleases : NoNewLease b b') : Fits freed b' t :=
  ⟨h.named, h.unassigned, fun hstatus hheld => h.unheld hstatus (hleases.held hheld)⟩

theorem Claimability.get? (h : Claimability freed b) (hget : b.tasks.get? taskId = some t) :
    Fits freed b t :=
  h.rows t (Table.mem_of_get? hget)

theorem Claimability.mono {freed' : Option String} (h : Claimability freed b)
    (hfreed : ∀ taskId ∈ freed, taskId ∈ freed') : Claimability freed' b where
  rows t ht := by
    obtain ⟨hnamed, hunassigned, hunheld⟩ := h.rows t ht
    exact ⟨hnamed, fun hqueued hnot => hunassigned hqueued (fun hmem => hnot (hfreed _ hmem)),
      hunheld⟩
  leases := h.leases

theorem Claimability.of_tasks_eq (h : Claimability freed b) (htasks : b'.tasks = b.tasks)
    (hleases : NoNewLease b b') : Claimability freed b' where
  rows t ht := by
    rw [htasks] at ht
    exact (h.rows t ht).of_noNewLease hleases
  leases := hleases.oneLease h.leases

theorem not_held_of_revoke {l : Lease} (hone : OneLease b) (hl : l ∈ b.leases.rows)
    (htask : l.taskId = taskId) (hactive : l.status = .active)
    (h : b'.leases = b.leases.modify l.id Lease.revoke Lease.keepsKey_revoke) :
    ¬Held b' taskId := by
  rintro ⟨m, hm, hmtask, hmactive⟩
  rw [h] at hm
  obtain ⟨l', hl', rfl⟩ := List.mem_map.mp hm
  split at hmactive
  · cases hmactive
  · rename_i hid
    rw [if_neg hid] at hmtask
    have hsame := hone l' hl' l hl hmactive hactive (hmtask.trans htask.symm)
    exact hid (congrArg Lease.id hsame)

/-! ### A pass -/

theorem held_of_append {added : List Lease} (h : b'.leases.rows = b.leases.rows ++ added)
    (hother : ∀ l ∈ added, l.taskId ≠ taskId) (hheld : Held b' taskId) : Held b taskId := by
  obtain ⟨l, hl, htask, hactive⟩ := hheld
  rw [h] at hl
  rcases List.mem_append.mp hl with hold | hnew
  · exact ⟨l, hold, htask, hactive⟩
  · exact absurd htask (hother l hnew)

theorem oneLease_append {l : Lease} (hone : OneLease b) (hfree : ¬Held b l.taskId)
    (h : b'.leases.rows = b.leases.rows ++ [l]) : OneLease b' := by
  have hnone : ∀ m ∈ b.leases.rows, m.status = .active → m.taskId ≠ l.taskId :=
    fun m hm hactive htask => hfree ⟨m, hm, htask, hactive⟩
  intro m hm m' hm' hactive hactive' htask
  rw [h] at hm hm'
  rcases List.mem_append.mp hm with hold | hnew
  · rcases List.mem_append.mp hm' with hold' | hnew'
    · exact hone m hold m' hold' hactive hactive' htask
    · rw [List.mem_singleton.mp hnew'] at htask
      exact absurd htask (hnone m hold hactive)
  · rcases List.mem_append.mp hm' with hold' | hnew'
    · rw [List.mem_singleton.mp hnew] at htask
      exact absurd htask.symm (hnone m' hold' hactive')
    · exact (List.mem_singleton.mp hnew).trans (List.mem_singleton.mp hnew').symm

theorem Claimability.place {now : Nat} {p : Task × String} (h : Claimability freed b)
    (hrow : RowReady b p.1) : Claimability freed (b.place now p) := by
  obtain ⟨row, hget, hready⟩ := hrow
  have hid : row.id = p.1.id := Table.key_of_get? hget
  have hfits := h.get? hget
  have hfree : ¬Held b p.1.id := hid ▸ hfits.unheld (.inl (.inl hready))
  have hleases : (b.place now p).leases.rows =
      b.leases.rows ++ [newLease now b.leases p.1.id p.2 schedulerAssignedTtl] := rfl
  refine ⟨fun t ht => ?_, oneLease_append h.leases hfree hleases⟩
  obtain ⟨u, hu, rfl⟩ := List.mem_map.mp ht
  split
  · refine ⟨(h.rows u hu).named, fun hqueued => ?_, fun hstatus => ?_⟩
    · rcases hqueued with hstatus | hstatus <;> cases hstatus
    · rcases hstatus with (hstatus | hstatus) | hstatus <;> cases hstatus
  · rename_i hother
    obtain ⟨hnamed, hunassigned, hunheld⟩ := h.rows u hu
    refine ⟨hnamed, hunassigned, fun hstatus hheld => hunheld hstatus ?_⟩
    refine held_of_append hleases (fun l hl htask => hother ?_) hheld
    rw [List.mem_singleton.mp hl] at htask
    exact htask.symm

theorem Claimability.placeAll {now : Nat} {ps : List (Task × String)} (h : Claimability freed b)
    (hrows : ∀ p ∈ ps, RowReady b p.1) (hnodup : (ps.map (fun p => p.1.id)).Nodup) :
    Claimability freed (b.placeAll now ps) := by
  induction ps generalizing b with
  | nil => exact h
  | cons p ps ih =>
      rw [List.map_cons, List.nodup_cons] at hnodup
      obtain ⟨hp, hrest⟩ := hnodup
      refine ih (h.place (hrows p List.mem_cons_self)) (fun q hq => ?_) hrest
      refine rowReady_place (hrows q (List.mem_cons_of_mem _ hq)) (fun hid => hp ?_)
      rw [← hid]
      exact List.mem_map_of_mem (f := fun p : Task × String => p.1.id) hq

end Boards

/-! ## One operation -/

/-- What the in-memory store does to its leases, and what it finds of them. -/
def KeepsHolds : (op : StoreOp) → Board → op.Res → Board → Prop
  | .getLeaseByTask taskId, b, r, b' => b' = b ∧
      (∀ l, r = some l → l ∈ b.leases.rows ∧ l.taskId = taskId ∧ l.status = .active) ∧
        (r = none → taskId ≠ "" → ¬Held b taskId)
  | .createLease taskId _ _, b, r, b' =>
      b'.leases.rows = b.leases.rows ++ [r] ∧ r.taskId = taskId
  | .schedulePendingDetailed, _, _, _ => True
  | .unassignTask taskId, b, r, b' =>
      NoNewLease b b' ∧ (r = true → taskId ≠ "" → ¬Held b taskId)
  | .requeueTask taskId _, b, r, b' =>
      NoNewLease b b' ∧ (r = true → taskId ≠ "" → OneLease b → ¬Held b' taskId)
  | .writeTaskRow taskId assignedTo _, b, _, b' =>
      NoNewLease b b' ∧ ∀ t, b.tasks.get? taskId = some t →
        ∃ t', b'.tasks.get? taskId = some t' ∧ t'.status = t.status ∧ t'.assignedTo = assignedTo
  | _, b, _, b' => NoNewLease b b'

section Operations

variable [Unicode]

namespace ClusterState

omit [Unicode] in
/-- Nothing is found of a task without an active lease, and only of such a task. -/
theorem not_held_of_getLeaseByTask {s : ClusterState} {taskId : String} (hne : taskId ≠ "")
    (h : s.getLeaseByTask taskId = none) : ¬Held s.toBoard taskId := by
  rintro ⟨l, hl, htask, hactive⟩
  unfold getLeaseByTask at h
  rw [if_neg hne] at h
  dsimp only at h
  split at h
  · cases h
  · exact absurd (List.find?_eq_none.mp h l hl) (by simp [htask, hactive])

omit [Unicode] in
theorem leases_revokeLease {s : ClusterState} {l : Lease} (hl : l ∈ s.leases.rows) :
    (s.revokeLease l.id).2.leases =
      s.leases.modify l.id Lease.revoke Lease.keepsKey_revoke := by
  have hget : s.leases.get? l.id = some l := Table.get?_of_mem hl
  rw [revokeLease, hget]

omit [Unicode] in
theorem noNewLease_revokeLease (s : ClusterState) (leaseId : Nat) :
    NoNewLease s.toBoard (s.revokeLease leaseId).2.toBoard := by
  unfold revokeLease
  split
  · exact .of_eq rfl
  · exact .of_update Lease.keepsKey_revoke (fun _ => nofun) rfl

omit [Unicode] in
theorem keepsHolds_requeueTask (now : Nat) (s : ClusterState) (taskId reason : String) :
    KeepsHolds (.requeueTask taskId reason) s.toBoard (s.requeueTask now taskId reason).1
      (s.requeueTask now taskId reason).2.toBoard := by
  unfold requeueTask
  split
  · exact ⟨.of_eq rfl, Bool.noConfusion⟩
  split
  · exact ⟨.of_eq rfl, Bool.noConfusion⟩
  split
  · exact ⟨.of_eq rfl, Bool.noConfusion⟩
  dsimp only
  split
  · rename_i hlookup
    exact ⟨.of_eq rfl, fun _ hne _ => not_held_of_getLeaseByTask hne hlookup⟩
  · rename_i lease hlookup
    obtain ⟨hl, htask, hactive⟩ := getLeaseByTask_some hlookup
    refine ⟨noNewLease_revokeLease _ lease.id, fun _ _ hone => ?_⟩
    exact not_held_of_revoke hone hl htask hactive (leases_revokeLease hl)

theorem keepsHolds (now : Nat) (op : StoreOp) (s : ClusterState) :
    KeepsHolds op s.toBoard (s.step now op).1 (s.step now op).2.toBoard := by
  cases op with
  | getLeaseByTask taskId =>
      exact ⟨rfl, fun l hl => getLeaseByTask_some hl,
        fun hnone hne => not_held_of_getLeaseByTask hne hnone⟩
  | createLease => exact ⟨rfl, rfl⟩
  | schedulePendingDetailed => trivial
  | unassignTask taskId =>
      refine ⟨.of_eq (leases_unassignTask now taskId s), fun htrue hne => ?_⟩
      change (s.unassignTask now taskId).1 = true at htrue
      unfold unassignTask at htrue
      cases hlookup : s.getLeaseByTask taskId with
      | none => exact not_held_of_getLeaseByTask hne hlookup
      | some l =>
          rw [hlookup] at htrue
          split at htrue
          · cases htrue
          · split at htrue
            · cases htrue
            · cases htrue
  | requeueTask taskId reason => exact keepsHolds_requeueTask now s taskId reason
  | getActiveLeases =>
      exact NoNewLease.of_update Lease.keepsKey_expire (fun _ h => LeaseStatus.noConfusion h) rfl
  | revokeLease leaseId => exact noNewLease_revokeLease s leaseId
  | setTaskResult taskId result => exact NoNewLease.of_eq (leases_setTaskResult now taskId s result)
  | setTaskStatus taskId status failReason =>
      exact NoNewLease.of_eq (leases_setTaskStatus now taskId s status failReason)
  | unblockTask taskId | unblockToReady taskId =>
      exact NoNewLease.of_eq (leases_unblockTo now taskId s _)
  | setTaskBallot taskId | setTaskCancelRequeue taskId | setDependencies taskId =>
      exact NoNewLease.of_eq (leases_writeTask taskId s _ _)
  | writeTaskRow taskId assignedTo failReason =>
      refine ⟨.of_eq (leases_writeTaskRow now taskId s assignedTo failReason), fun t ht => ?_⟩
      have hget : s.tasks.get? taskId = some t := ht
      have hrow := s.tasks.get?_modify_self taskId (Task.writeRow now assignedTo failReason)
        (fun _ => rfl)
      rw [hget, Option.map_some] at hrow
      change ∃ t', (s.writeTaskRow now taskId assignedTo failReason).2.tasks.get? taskId = some t' ∧
        t'.status = t.status ∧ t'.assignedTo = assignedTo
      rw [ClusterState.writeTaskRow, hget]
      exact ⟨_, hrow, rfl, rfl⟩
  | handleSyncMessage msg => exact NoNewLease.of_eq (leases_handleSyncMessage now s msg)
  | _ => exact NoNewLease.of_eq rfl

end ClusterState

/-- The contract of the in-memory store, with its leases. -/
def HoldContract (op : StoreOp) (w : Timed Board) (r : op.Res) (w' : Timed Board) : Prop :=
  RowContract op w r w' ∧ KeepsHolds op w.state r w'.state

theorem implements_holds :
    Program.Implements Backend.memory.tick Backend.memory.view HoldContract :=
  fun op w => ⟨implements_rows op w, ClusterState.keepsHolds _ op w.state⟩

/-- The operation keeps the invariant on this board. -/
def Tidy (freed : Option String) (b : Board) : StoreOp → Prop
  | .createTask plan => plan.taskId ≠ "" ∧ ¬Held b plan.taskId
  | .createTasksBatch plans => ∀ plan ∈ plans, plan.taskId ≠ "" ∧ ¬Held b plan.taskId
  | .setTaskStatus taskId status _ => ∀ t, b.tasks.get? taskId = some t →
      (status.IsQueued → taskId ∉ freed → t.assignedTo = none) ∧
        (status.IsQueued ∨ status = .blocked → ¬Held b taskId)
  | .unblockTask taskId | .unblockToReady taskId => ∀ t, b.tasks.get? taskId = some t →
      t.status = .blocked → taskId ∉ freed → t.assignedTo = none
  | .writeTaskRow taskId assignedTo _ => assignedTo = none ∨
      ∀ t, b.tasks.get? taskId = some t → ¬t.status.IsQueued
  | .createLease taskId _ _ => ¬Held b taskId ∧
      ∀ t, b.tasks.get? taskId = some t → ¬(t.status.IsQueued ∨ t.status = .blocked)
  | .handleSyncMessage _ => False
  | _ => True

variable {freed : Option String} {w w' : Timed Board}

theorem Claimability.of_rewrites {op : StoreOp} {r : op.Res} (h : Claimability freed w.state)
    (hstep : Contract .memory op w r w') (hleases : NoNewLease w.state w'.state)
    (hchange : ∀ t ∈ w.state.tasks.rows, ∀ t', Fits freed w.state t →
      Change .memory (w.clock 0) w.state op t t' → Fits freed w'.state t')
    (hcreated : ∀ t, Created .memory (w.clock 0) op t → Fits freed w'.state t) :
    Claimability freed w'.state where
  rows t' ht' := by
    rcases hstep.tasks.exists_of_mem ht' with ⟨t, ht, hrow⟩ | hnew
    · rcases hrow with rfl | hchanged
      · exact (h.rows t' ht).of_noNewLease hleases
      · exact hchange t ht t' (h.rows t ht) hchanged
    · exact hcreated t' hnew
  leases := hleases.oneLease h.leases

omit [Unicode] in
theorem Fits.of_same {b b' : Board} {t t' : Task} (h : Fits freed b t)
    (hleases : NoNewLease b b') (hid : t'.id = t.id) (hstatus : t'.status = t.status)
    (hassigned : t'.assignedTo = t.assignedTo) : Fits freed b' t' where
  named := hid ▸ h.named
  unassigned := by
    rw [hstatus, hassigned, hid]
    exact h.unassigned
  unheld := by
    rw [hstatus, hid]
    exact fun hfree hheld => h.unheld hfree (hleases.held hheld)

theorem Claimability.step {op : StoreOp} {r : op.Res} (h : Claimability freed w.state)
    (hop : Tidy freed w.state op) (hstep : HoldContract op w r w') :
    Claimability freed w'.state := by
  obtain ⟨⟨hcontract, hwrites⟩, hholds⟩ := hstep
  have hget : ∀ t ∈ w.state.tasks.rows, ∀ taskId, t.id = taskId →
      w.state.tasks.get? taskId = some t := by
    rintro t ht taskId rfl
    exact Table.get?_of_mem ht
  have hplan : ∀ (plan : TaskPlan) (status : TaskStatus), NoNewLease w.state w'.state →
      plan.taskId ≠ "" ∧ ¬Held w.state plan.taskId →
      Fits freed w'.state (plan.toTask (w.clock 0) status) :=
    fun plan status hleases hfree =>
      ⟨hfree.1, fun _ _ => rfl, fun _ hheld => hfree.2 (hleases.held hheld)⟩
  have hbatch : ∀ plan : TaskPlan, ClusterState.batchTask (w.clock 0) plan =
      plan.toTask (w.clock 0) (if plan.dependsOn = [] then .ready else .pending) := fun _ => rfl
  have hreleased : ∀ (t t' : Task) (taskId : String), t ∈ w.state.tasks.rows →
      NoNewLease w.state w'.state →
      (∀ t, w.state.tasks.get? taskId = some t → t.status = .blocked → taskId ∉ freed →
        t.assignedTo = none) →
      Fits freed w.state t → t.id = taskId → t.status = .blocked → t'.id = t.id →
      t'.assignedTo = t.assignedTo → Fits freed w'.state t' := by
    intro t t' taskId ht hleases hfree hfits hid hblocked hid' hassigned
    refine ⟨hid' ▸ hfits.named, fun _ hnot => ?_, fun _ hheld => ?_⟩
    · rw [hassigned]
      exact hfree t (hget t ht taskId hid) hblocked (hid ▸ hid' ▸ hnot)
    · exact hfits.unheld (.inr hblocked) (hid' ▸ hleases.held hheld)
  cases op with
  | getLeaseByTask taskId =>
      rw [hholds.1]
      exact h
  | createTask plan =>
      refine h.of_rewrites hcontract hholds (fun t _ t' _ hchange => ?_) (fun t hnew => ?_)
      · cases hchange with
        | replace => exact hplan plan .pending hholds hop
        | promoteRow hsql => exact absurd rfl hsql
      · cases hnew with
        | pending => exact hplan plan .pending hholds hop
        | promoted hsql => exact absurd rfl hsql
  | createTasksBatch plans =>
      refine h.of_rewrites hcontract hholds (fun t _ t' _ hchange => ?_) (fun t hnew => ?_)
      · cases hchange with
        | replaceBatch _ hmem => exact hplan _ _ hholds (hop _ hmem)
        | promoteBatch hsql => exact absurd rfl hsql
      · cases hnew with
        | batch _ hmem => exact hplan _ _ hholds (hop _ hmem)
        | batchPending hsql | batchPromoted hsql => exact absurd rfl hsql
  | setTaskStatus taskId status reason =>
      refine h.of_rewrites hcontract hholds (fun t ht t' hfits hchange => ?_)
        (fun t hnew => by cases hnew)
      cases hchange with
      | status hid =>
          obtain ⟨hunassigned, hunheld⟩ := hop t (hget t ht taskId hid)
          refine ⟨hfits.named, fun hqueued hnot => hunassigned hqueued (hid ▸ hnot),
            fun hfree hheld => hunheld hfree ?_⟩
          exact hid ▸ hholds.held hheld
  | unassignTask taskId =>
      obtain ⟨hleases, hfound⟩ := hholds
      cases r with
      | false =>
          rw [hcontract.reply.2.1 rfl]
          exact h
      | true =>
          refine h.of_rewrites hcontract hleases (fun t ht t' hfits hchange => ?_)
            (fun t hnew => by cases hnew)
          cases hchange with
          | unassign hid =>
              refine ⟨hfits.named, fun _ _ => rfl, fun _ hheld => ?_⟩
              subst hid
              exact hfound rfl hfits.named (hleases.held hheld)
  | requeueTask taskId reason =>
      obtain ⟨hleases, hrevoked⟩ := hholds
      cases r with
      | false => exact h.of_tasks_eq (hcontract.reply rfl).1 hleases
      | true =>
          refine h.of_rewrites hcontract hleases (fun t ht t' hfits hchange => ?_)
            (fun t hnew => by cases hnew)
          cases hchange with
          | requeue hid =>
              refine ⟨hfits.named, fun _ _ => rfl, fun _ hheld => ?_⟩
              subst hid
              exact hrevoked rfl hfits.named h.leases hheld
  | unblockTask taskId =>
      refine h.of_rewrites hcontract hholds (fun t ht t' hfits hchange => ?_)
        (fun t hnew => by cases hnew)
      cases hchange with
      | unblock hid hblocked => exact hreleased t _ taskId ht hholds hop hfits hid hblocked rfl rfl
  | unblockToReady taskId =>
      refine h.of_rewrites hcontract hholds (fun t ht t' hfits hchange => ?_)
        (fun t hnew => by cases hnew)
      cases hchange with
      | resume hid hblocked => exact hreleased t _ taskId ht hholds hop hfits hid hblocked rfl rfl
  | writeTaskRow taskId assignedTo reason =>
      obtain ⟨hleases, -⟩ := hholds
      refine h.of_rewrites hcontract hleases (fun t ht t' hfits hchange => ?_)
        (fun t hnew => by cases hnew)
      cases hchange with
      | writeRow hid =>
          refine ⟨hfits.named, fun hqueued _ => ?_,
            fun hfree hheld => hfits.unheld hfree (hleases.held hheld)⟩
          rcases hop with hnone | hidle
          · exact hnone
          · exact absurd hqueued (hidle t (hget t ht taskId hid))
  | createLease taskId nodeId ttl =>
      obtain ⟨hrows, htask⟩ := hholds
      have hsame : w'.state.tasks = w.state.tasks := hcontract.reply
      refine ⟨fun t ht => ?_, oneLease_append h.leases (htask ▸ hop.1) hrows⟩
      rw [hsame] at ht
      obtain ⟨hnamed, hunassigned, hunheld⟩ := h.rows t ht
      refine ⟨hnamed, hunassigned, fun hfree hheld => ?_⟩
      refine hunheld hfree (held_of_append hrows (fun l hl hid => ?_) hheld)
      rw [List.mem_singleton.mp hl, htask] at hid
      exact hop.2 t (hget t ht taskId hid.symm) hfree
  | schedulePendingDetailed =>
      obtain ⟨cs, hpass⟩ := hcontract.reply
      have hplaced : Claimability freed (w.state.placeAll (w.clock 0) (placements w.state cs)) :=
        h.placeAll (fun p hp => ⟨p.1, hpass.rows_placed p hp⟩) hpass.nodup_placed
      refine hplaced.of_tasks_eq hpass.tasks_eq (.of_eq hpass.leases_eq)
  | triggerPendingTasks =>
      refine h.of_rewrites hcontract hholds (fun t _ t' hfits hchange => ?_)
        (fun t hnew => by cases hnew)
      cases hchange with
      | promote hpending =>
          exact ⟨hfits.named, fun _ hnot => hfits.unassigned (.inr hpending) hnot,
            fun _ hheld => hfits.unheld (.inl (.inr hpending)) (hholds.held hheld)⟩
      | hold => exact hfits.of_same hholds rfl rfl rfl
  | setDependencies taskId dependsOn =>
      refine h.of_rewrites hcontract hholds (fun t _ t' hfits hchange => ?_)
        (fun t hnew => by cases hnew)
      cases hchange with
      | dependencies => exact hfits.of_same hholds rfl rfl rfl
      | demote _ hsql => exact absurd rfl hsql
  | handleSyncMessage => exact hop.elim
  | _ =>
      refine h.of_rewrites hcontract hholds (fun t _ t' hfits hchange => ?_)
        (fun t hnew => by cases hnew)
      cases hchange <;> exact hfits.of_same hholds rfl rfl rfl

theorem Claimability.cleared {taskId : String} {reason : Option String} {t : Task}
    {r : Except String Unit} (h : Claimability (some taskId) w.state)
    (hstep : HoldContract (.writeTaskRow taskId none reason) w r w')
    (hget : w.state.tasks.get? taskId = some t) : Claimability none w'.state := by
  have htidy : Tidy (some taskId) w.state (.writeTaskRow taskId none reason) := .inl rfl
  have hstill := h.step htidy hstep
  obtain ⟨u, hrow, -, hclear⟩ := hstep.2.2 t hget
  refine ⟨fun t ht => ?_, hstill.leases⟩
  obtain ⟨hnamed, hunassigned, hunheld⟩ := hstill.rows t ht
  refine ⟨hnamed, fun hqueued _ => ?_, hunheld⟩
  by_cases hid : t.id = taskId
  · have hsame : w'.state.tasks.get? taskId = some t := hid ▸ Table.get?_of_mem ht
    rw [hrow, Option.some.injEq] at hsame
    rw [← hsame]
    exact hclear
  · exact hunassigned hqueued (fun hmem => hid (Option.mem_some_iff.mp hmem).symm)

end Operations

/-! ## Parts of handlers -/

section Parts

variable [Unicode] {freed : Option String} {w : Timed Board} {α : Type}

/-- What a program ends with on the in-memory store and its leases. -/
abbrev Winds (p : Api α) (w : Timed Board) (Q : Except ApiError α → Timed Board → Prop) : Prop :=
  p.Wp HoldContract (fun _ _ => True) w Q

/-- The program keeps the invariant, whether it fails or not. -/
abbrev KeepsClaimable (p : Api α) (w : Timed Board) : Prop :=
  Winds p w (fun _ w' => Claimability none w'.state)

/-- Tidy on any board. -/
def AlwaysTidy (op : StoreOp) : Prop := ∀ freed b, Tidy freed b op

omit [Unicode] in
theorem tends_alwaysTidy : Tends AlwaysTidy := by
  intro op hop hcreate freed b
  cases op with
  | createLease taskId nodeId ttl => exact absurd rfl (hcreate taskId nodeId ttl)
  | _ => first | exact hop.elim | trivial

omit [Unicode] in
theorem alwaysTidy_setTaskStatus {taskId reason : String} {status : TaskStatus}
    (hqueued : ¬status.IsQueued) (hblocked : status ≠ .blocked) :
    AlwaysTidy (.setTaskStatus taskId status reason) := fun _ _ _ _ =>
  ⟨fun h => absurd h hqueued, fun h => h.elim (fun h => absurd h hqueued)
    (fun h => absurd h hblocked)⟩

theorem winds_store {op : StoreOp} {f : op.Res → Api α}
    {Q : Except ApiError α → Timed Board → Prop} (hI : Claimability freed w.state)
    (hop : Tidy freed w.state op)
    (h : ∀ r w', HoldContract op w r w' → Claimability freed w'.state → Winds (f r) w' Q) :
    Winds (store op >>= f) w Q :=
  wp_perform.mpr ⟨trivial, fun r w' hstep => h r w' hstep (hI.step hop hstep)⟩

theorem winds_of_only {p : Api α} (h : p.Only AlwaysTidy) (hI : Claimability freed w.state) :
    Winds p w (fun _ w' => Claimability freed w'.state) := by
  refine (h.wp_of_step
    (R := fun (w w' : Timed Board) => Claimability freed w.state → Claimability freed w'.state)
    (fun _ _ _ => trivial) (fun _ => id) (fun h h' => h' ∘ h) ?_).mono (fun _ _ hkeeps => hkeeps hI)
  exact fun hop hstep hI => hI.step (hop _ _) hstep

theorem winds_requireTask {taskId : String} {f : Task → Api α} (hI : Claimability none w.state)
    (h : ∀ t w', w'.state = w.state → w.state.tasks.get? taskId = some t →
      KeepsClaimable (f t) w') : KeepsClaimable (Tasks.requireTask taskId >>= f) w :=
  wp_requireTask (fun hstep => hstep.1.1) (fun _ => trivial)
    (fun _ hsame _ => hsame ▸ hI) h

/-- After the lookup and the revocation no lease of the task is active. -/
theorem winds_revokeLeaseOf {taskId : String} {f : Unit → Api α}
    {Q : Except ApiError α → Timed Board → Prop} (hI : Claimability freed w.state)
    (h : ∀ w', Claimability freed w'.state → w'.state.tasks = w.state.tasks →
      (taskId ≠ "" → ¬Held w'.state taskId) → Winds (f ()) w' Q) :
    Winds (Tasks.revokeLeaseOf taskId >>= f) w Q := by
  rw [Tasks.revokeLeaseOf, bind_assoc]
  unfold LeaseManager.getByTask
  split
  · rename_i hempty
    exact h w hI rfl (fun hne => absurd hempty hne)
  refine winds_store hI trivial (fun lease w₁ hstep₁ hI₁ => ?_)
  obtain ⟨hsame, hfound, hnone⟩ := hstep₁.2
  have htasks := congrArg Board.tasks hsame
  cases lease with
  | none => exact h w₁ hI₁ htasks (fun hne => hsame ▸ hnone rfl hne)
  | some lease =>
      obtain ⟨hl, htask, hactive⟩ := hfound lease rfl
      refine winds_store hI₁ trivial (fun _ w₂ hstep₂ hI₂ => ?_)
      have hwritten := hstep₂.1.1.reply
      refine h w₂ hI₂ ((congrArg Board.tasks hwritten).trans htasks) (fun _ => ?_)
      have hrevoked := congrArg Board.leases hwritten
      exact not_held_of_revoke hI₁.leases (hsame ▸ hl) htask hactive hrevoked

end Parts

/-! ## Handlers -/

/-- The call puts no task to ready whose row names a node or that a lease holds, and
makes none under an id that one holds. -/
def Untroubled [Unicode] (c : Call) (w : Timed Board) : Prop :=
  match c with
  | .submit taskId _ => taskId ≠ "" ∧ ¬Held w.state taskId
  | .createBatch plans => ∀ plan ∈ plans, plan.taskId ≠ "" ∧ ¬Held w.state plan.taskId
  | .answer taskId req => ∀ t, w.state.tasks.get? taskId = some t → Answers req t →
      t.assignedTo = none
  | .unblock taskId => ∀ t, w.state.tasks.get? taskId = some t → t.status = .blocked →
      t.assignedTo = none
  | .advance taskId => ∀ t, w.state.tasks.get? taskId = some t → ¬t.status.IsTerminal →
      DepsCompleted w.state.tasks t → t.assignedTo = none ∧ ¬Held w.state taskId
  | _ => True

section Handlers

variable [Unicode] {w : Timed Board} {taskId : String}

omit [Unicode] in
theorem alwaysTidy_failed (taskId reason : String) :
    AlwaysTidy (.setTaskStatus taskId .failed reason) :=
  alwaysTidy_setTaskStatus (by rintro (h | h) <;> cases h) (by decide)

omit [Unicode] in
theorem alwaysTidy_cancelled (taskId reason : String) :
    AlwaysTidy (.setTaskStatus taskId .cancelled reason) ∧
      AlwaysTidy (.setTaskStatus taskId .cancelRequested reason) :=
  ⟨alwaysTidy_setTaskStatus (by rintro (h | h) <;> cases h) (by decide),
    alwaysTidy_setTaskStatus (by rintro (h | h) <;> cases h) (by decide)⟩

theorem keeps_submitTask (req : SubmitTaskRequest) (hI : Claimability none w.state)
    (hfree : taskId ≠ "" ∧ ¬Held w.state taskId) :
    KeepsClaimable (Tasks.submitTask taskId req) w := by
  have hstill : ∀ w' : Timed Board, w'.state = w.state → Claimability none w'.state :=
    fun w' hsame => hsame ▸ hI
  unfold Tasks.submitTask
  refine wp_bind_of_reads (fun hstep => hstep.1.1) (fun _ => trivial) (only_checkBrief req)
    (fun _ w₁ hsame₁ => hstill w₁ hsame₁) (fun _ w₁ hsame₁ => ?_)
  refine wp_bind_of_reads (fun hstep => hstep.1.1) (fun _ => trivial) (only_liveReviewer id req)
    (fun _ w₂ hsame₂ => hstill w₂ (hsame₂.trans hsame₁)) (fun reviewer w₂ hsame₂ => ?_)
  have hsame₂ := hsame₂.trans hsame₁
  cases reviewer with
  | some t => exact hstill w₂ hsame₂
  | none =>
      refine wp_bind_of_reads (fun hstep => hstep.1.1) (fun _ => trivial) (only_checkLanding id req)
        (fun _ w₃ hsame₃ => hstill w₃ (hsame₃.trans hsame₂)) (fun _ w₃ hsame₃ => ?_)
      have hsame₃ := hsame₃.trans hsame₂
      refine wp_bind_of_reads (fun hstep => hstep.1.1) (fun _ => trivial)
        (only_checkCapabilities id req)
        (fun _ w₄ hsame₄ => hstill w₄ (hsame₄.trans hsame₃)) (fun _ w₄ hsame₄ => ?_)
      have hsame₄ := hsame₄.trans hsame₃
      refine wp_bind_of_reads (fun hstep => hstep.1.1) (fun _ => trivial) (only_missingDeps id _)
        (fun _ w₅ hsame₅ => hstill w₅ (hsame₅.trans hsame₄)) (fun missing w₅ hsame₅ => ?_)
      have hsame₅ := hsame₅.trans hsame₄
      by_cases hmissing : missing = []
      swap
      · simp only [if_pos hmissing]
        exact hstill w₅ hsame₅
      simp only [if_neg (not_not.mpr hmissing)]
      have hplan : Tidy none w₅.state (.createTask (Tasks.submitPlan taskId req)) := hsame₅ ▸ hfree
      refine winds_store (hstill w₅ hsame₅) hplan (fun task w₆ _ hI₆ => ?_)
      refine winds_store hI₆ trivial (fun _ w₇ _ hI₇ => ?_)
      exact winds_store hI₇ trivial (fun stored w₈ _ hI₈ => hI₈)

/-- A task that is claimed has no lease, and is no longer ready when it gets one. -/
theorem keeps_claimTask (req : ClaimTaskRequest) (hI : Claimability none w.state) :
    KeepsClaimable (Tasks.claimTask taskId req) w := by
  unfold Tasks.claimTask
  refine winds_requireTask hI (fun t w₁ hsame₁ hget => ?_)
  have hI₁ : Claimability none w₁.state := hsame₁ ▸ hI
  by_cases hready : t.status = .ready
  swap
  · simp only [if_pos hready]
    exact hI₁
  simp only [if_neg (not_not.mpr hready)]
  by_cases hfree : t.assignedTo = none
  swap
  · simp only [if_pos hfree]
    exact hI₁
  simp only [if_neg (not_not.mpr hfree)]
  have hid : t.id = taskId := Table.key_of_get? hget
  have hunheld : ¬Held w₁.state taskId := by
    rw [hsame₁]
    exact hid ▸ (hI.get? hget).unheld (.inl (.inl hready))
  have hstart : AlwaysTidy (.setTaskStatus taskId .running "") :=
    alwaysTidy_setTaskStatus (by rintro (h | h) <;> cases h) (by decide)
  refine winds_store hI₁ (hstart _ _) (fun _ w₂ hstep₂ hI₂ => ?_)
  have hget₁ : w₁.state.tasks.get? taskId = some t := hsame₁ ▸ hget
  have hopen : ¬ClusterState.Refuses t.status .running := by
    rw [hready]
    exact fun hrefuses => absurd hrefuses.1 (by decide)
  have hrow₂ := hstep₂.1.1.reply.2 t hget₁ hopen
  have hrunning : ∀ u, w₂.state.tasks.get? taskId = some u → u.status = .running := by
    intro u hu
    rw [hrow₂, Option.some.injEq] at hu
    rw [← hu]
    rfl
  have hassign : Tidy none w₂.state (.writeTaskRow taskId (some req.nodeId) none) := by
    refine .inr (fun u hu hqueued => ?_)
    rw [hrunning u hu] at hqueued
    rcases hqueued with h | h <;> cases h
  unfold Tasks.writeTaskRow
  rw [Program.bind_assoc]
  refine winds_store hI₂ hassign (fun written w₃ hstep₃ hI₃ => ?_)
  obtain ⟨u, hrow₃, hstatus₃, -⟩ := hstep₃.2.2 _ hrow₂
  cases written with
  | error e => exact hI₃
  | ok =>
      unfold LeaseManager.create
      have hlease : Tidy none w₃.state (.createLease taskId req.nodeId leaseTtl) := by
        refine ⟨fun hheld => hunheld (hstep₂.2.held (hstep₃.2.1.held hheld)), fun v hv hfree => ?_⟩
        rw [hrow₃, Option.some.injEq] at hv
        rw [← hv, hstatus₃] at hfree
        rcases hfree with (h | h) | h <;> cases h
      by_cases hempty : taskId = ""
      · simp only [if_pos hempty]
        exact hI₃
      simp only [if_neg hempty]
      by_cases hnode : req.nodeId = ""
      · simp only [if_pos hnode]
        exact hI₃
      simp only [if_neg hnode]
      refine winds_store hI₃ hlease (fun _ w₄ _ hI₄ => ?_)
      exact winds_store hI₄ trivial (fun _ _ _ hI₅ => hI₅)

/-- The row is ready before its assignee is cleared. -/
theorem keeps_releaseTask (req : ReleaseTaskRequest) (hI : Claimability none w.state) :
    KeepsClaimable (Tasks.releaseTask taskId req) w := by
  unfold Tasks.releaseTask
  refine winds_requireTask hI (fun t w₁ hsame₁ hget => ?_)
  have hI₁ : Claimability none w₁.state := hsame₁ ▸ hI
  by_cases howner : t.assignedTo = some req.nodeId
  swap
  · simp only [if_pos howner]
    exact hI₁
  simp only [if_neg (not_not.mpr howner)]
  have hne : taskId ≠ "" := (Table.key_of_get? hget : t.id = taskId) ▸ (hI.get? hget).named
  refine winds_revokeLeaseOf hI₁ (fun w₂ hI₂ htasks₂ hunheld => ?_)
  have hget₂ : w₂.state.tasks.get? taskId = some t := by
    rw [htasks₂, hsame₁]
    exact hget
  have hready : Tidy (some taskId) w₂.state (.setTaskStatus taskId .ready "") :=
    fun _ _ => ⟨fun _ hnot => absurd (Option.mem_some_self taskId) hnot, fun _ => hunheld hne⟩
  refine winds_store (hI₂.mono (fun _ h => nomatch h)) hready (fun transitioned w₃ hstep₃ hI₃ => ?_)
  cases transitioned with
  | false =>
      -- a write that is refused moves no row
      refine hI₂.of_rewrites hstep₃.1.1 hstep₃.2 (fun u hu u' _ hchange => ?_)
        (fun u hnew => by cases hnew)
      cases hchange with
      | status hid hguard =>
          exact absurd (hstep₃.1.2 u (hid ▸ Table.get?_of_mem hu) (hguard rfl)) Bool.false_ne_true
  | true =>
      simp only [Bool.true_eq_false, if_false]
      unfold Tasks.writeTaskRow
      rw [Program.bind_assoc]
      obtain ⟨t', hget₃, -⟩ := hstep₃.1.1.tasks.get?_of_get? (fun _ _ hrow => hrow.id_eq) hget₂
      refine wp_perform.mpr ⟨trivial, fun written w₄ hstep₄ => ?_⟩
      have hI₄ : Claimability none w₄.state := hI₃.cleared hstep₄ hget₃
      cases written with
      | error e => exact hI₄
      | ok => exact winds_store hI₄ trivial (fun _ _ _ hI₅ => hI₅)

/-- A dependent that is promoted was pending. -/
theorem keeps_promoteDependent (hI : Claimability none w.state) (depId : String) :
    Winds (Tasks.promoteDependent depId) w
      (fun r w' => r = .ok ⟨⟩ ∧ Claimability none w'.state) := by
  have hstill : ∀ w' : Timed Board, w'.state = w.state → Claimability none w'.state :=
    fun w' hsame => hsame ▸ hI
  unfold Tasks.promoteDependent
  refine wp_perform.mpr ⟨trivial, fun r w₁ hstep₁ => ?_⟩
  obtain ⟨rfl, hsame₁⟩ := hstep₁.1.1.reply
  cases hget : w.state.tasks.get? depId with
  | none => exact ⟨rfl, hstill w₁ hsame₁⟩
  | some dep =>
      by_cases hpending : dep.status = .pending
      swap
      · simp only [if_pos hpending]
        exact ⟨rfl, hstill w₁ hsame₁⟩
      simp only [if_neg (not_not.mpr hpending)]
      have hid : dep.id = depId := Table.key_of_get? hget
      have hfits := hI.get? hget
      have htidy : ∀ (w' : Timed Board) (status : TaskStatus) (reason : String),
          w'.state = w.state → Tidy none w'.state (.setTaskStatus depId status reason) := by
        intro w' status reason hsame u hu
        rw [hsame, hget, Option.some.injEq] at hu
        rw [← hu, hsame]
        exact ⟨fun _ hnot => hfits.unassigned (.inr hpending) (hid ▸ hnot),
          fun _ => hid ▸ hfits.unheld (.inl (.inr hpending))⟩
      refine wp_allCompleted (fun hstep => hstep.1.1) (fun _ => trivial)
        (fun allDone w₂ hsame₂ _ => ?_)
      have hsame₂ := hsame₂.trans hsame₁
      cases allDone with
      | false => exact ⟨rfl, hstill w₂ hsame₂⟩
      | true =>
          refine wp_perform.mpr ⟨trivial, fun tasks w₃ hstep₃ => ?_⟩
          have hsame₃ : w₃.state = w.state := hstep₃.1.1.reply.2.trans hsame₂
          have hI₃ := hstill w₃ hsame₃
          cases LandingGate.holdReason tasks dep with
          | some reason =>
              by_cases hnew : dep.failReason.getD "" ≠ reason
              · simp only [if_pos hnew]
                exact winds_store hI₃ (htidy w₃ .pending reason hsame₃)
                  (fun _ _ _ hI₄ => ⟨rfl, hI₄⟩)
              · simp only [if_neg hnew]
                exact ⟨rfl, hI₃⟩
          | none => exact winds_store hI₃ (htidy w₃ .ready "" hsame₃) (fun _ _ _ hI₄ => ⟨rfl, hI₄⟩)

theorem keeps_triggerDownstream {α : Type} {f : Unit → Api α} (hI : Claimability none w.state)
    (h : ∀ w', Claimability none w'.state → KeepsClaimable (f ()) w') :
    KeepsClaimable (Tasks.triggerDownstream taskId >>= f) w := by
  rw [Tasks.triggerDownstream, bind_assoc]
  refine winds_store hI trivial (fun dependents w₁ _ hI₁ => ?_)
  rw [bind_assoc]
  refine Wp.seq (I := fun _ w' => Claimability none w'.state)
    ((wp_forM (I := fun w' : Timed Board => Claimability none w'.state) dependents
      Tasks.promoteDependent (fun depId _ w' hI' => keeps_promoteDependent hI' depId) hI₁).mono
        (fun r w' h => ⟨⟨⟩, h⟩)) (fun _ w₂ hI₂ => ?_)
  exact winds_store hI₂ trivial (fun _ w₃ _ hI₃ => h w₃ hI₃)

theorem keeps_completeTask (req : Option CompleteTaskRequest) (hI : Claimability none w.state) :
    KeepsClaimable (Tasks.completeTask taskId req) w := by
  rw [Tasks.completeTask_eq]
  refine winds_requireTask hI (fun t w₁ hsame₁ hget => ?_)
  have hI₁ : Claimability none w₁.state := hsame₁ ▸ hI
  by_cases hclosed : Tasks.IsClosed t.status
  · simp only [if_pos hclosed]
    exact hI₁
  simp only [if_neg hclosed]
  refine winds_revokeLeaseOf hI₁ (fun w₂ hI₂ _ _ => ?_)
  by_cases hrequested : t.status = .cancelRequested
  · simp only [if_pos hrequested]
    exact winds_store hI₂ ((alwaysTidy_cancelled _ _).1 _ _) (fun _ _ _ hI₃ => hI₃)
  simp only [if_neg hrequested]
  have hrest : ∀ (stored : Bool) (w₃ : Timed Board), Claimability none w₃.state →
      KeepsClaimable
        (Tasks.settleCompletion taskId t (req.bind CompleteTaskRequest.result) stored) w₃ := by
    intro stored w₃ hI₃
    unfold Tasks.settleCompletion
    split
    · exact winds_of_only (only_refuseCompletion tends_alwaysTidy taskId _
        (alwaysTidy_failed taskId) alwaysTidy_cancelled (fun _ _ => trivial)) hI₃
    · have hdone : AlwaysTidy (.setTaskStatus taskId .completed "") :=
        alwaysTidy_setTaskStatus (by rintro (h | h) <;> cases h) (by decide)
      refine winds_store hI₃ (hdone _ _) (fun _ w₄ _ hI₄ => ?_)
      exact keeps_triggerDownstream hI₄ (fun _ hI₅ => hI₅)
  cases hresult : req.bind CompleteTaskRequest.result with
  | none =>
      rw [hresult] at hrest
      exact hrest false w₂ hI₂
  | some result =>
      rw [hresult] at hrest
      exact winds_store hI₂ trivial (fun stored w₃ _ hI₃ => hrest stored w₃ hI₃)

theorem keeps_blockTask (req : BlockTaskRequest) (hI : Claimability none w.state) :
    KeepsClaimable (Tasks.blockTask taskId req) w := by
  unfold Tasks.blockTask
  refine winds_requireTask hI (fun t w₁ hsame₁ hget => ?_)
  have hI₁ : Claimability none w₁.state := hsame₁ ▸ hI
  have hne : taskId ≠ "" := (Table.key_of_get? hget : t.id = taskId) ▸ (hI.get? hget).named
  split
  · exact hI₁
  split
  · exact hI₁
  refine winds_store hI₁ trivial (fun now w₂ _ hI₂ => ?_)
  split
  · exact hI₂
  · rename_i ballot _
    refine winds_revokeLeaseOf hI₂ (fun w₃ hI₃ _ hunheld => ?_)
    refine winds_store hI₃ trivial (fun _ w₄ hstep₄ hI₄ => ?_)
    have hblock : Tidy none w₄.state
        (.setTaskStatus taskId .blocked "awaiting owner decision (ballot)") := by
      refine fun _ _ => ⟨fun hqueued => ?_, fun _ hheld => hunheld hne (hstep₄.2.held hheld)⟩
      rcases hqueued with h | h <;> cases h
    refine winds_store hI₄ hblock (fun ok w₅ _ hI₅ => ?_)
    split
    · exact winds_store hI₅ trivial (fun _ _ _ hI₆ => hI₆)
    · exact hI₅

theorem keeps_answerTask (req : AnswerTaskRequest) (hI : Claimability none w.state)
    (hfree : Untroubled (.answer taskId req) w) :
    KeepsClaimable (Tasks.answerTask taskId req) w := by
  unfold Tasks.answerTask
  refine winds_requireTask hI (fun t w₁ hsame₁ hget => ?_)
  have hI₁ : Claimability none w₁.state := hsame₁ ▸ hI
  split
  swap
  · exact hI₁
  rename_i outstanding hblocked hballot
  split
  · exact hI₁
  rename_i answer hanswer
  refine wp_perform.mpr ⟨trivial, fun now w₂ hstep₂ => ?_⟩
  have hsame₂ : w₂.state = w.state := hstep₂.1.1.reply.trans hsame₁
  have hI₂ : Claimability none w₂.state := hsame₂ ▸ hI
  cases hrecord : BallotRules.recordAnswer now outstanding answer req.answeredBy with
  | error e => exact hI₂
  | ok recorded =>
      dsimp only
      have hanswers : Answers req t := ⟨hblocked, by rw [hanswer]; exact nofun, outstanding,
        hballot, not_isAnswered_of_recordAnswer hrecord⟩
      have hget₂ : w₂.state.tasks.get? taskId = some t := hsame₂ ▸ hget
      refine winds_store hI₂ trivial (fun _ w₃ hstep₃ hI₃ => ?_)
      have hrow₃ := hstep₃.1.2 t hget₂
      have hresume : Tidy none w₃.state (.unblockToReady taskId) := by
        intro u hu _ _
        rw [hrow₃, Option.some.injEq] at hu
        rw [← hu]
        exact hfree t hget hanswers
      refine winds_store hI₃ hresume (fun resumed w₄ _ hI₄ => ?_)
      split <;> exact hI₄

theorem keeps_unblockTask (hI : Claimability none w.state)
    (hfree : Untroubled (.unblock taskId) w) : KeepsClaimable (Tasks.unblockTask taskId) w := by
  unfold Tasks.unblockTask
  refine winds_store hI (fun t ht hblocked _ => hfree t ht hblocked) (fun _ w₁ _ hI₁ => ?_)
  split <;> exact hI₁

theorem keeps_manualAdvance (hI : Claimability none w.state)
    (hfree : Untroubled (.advance taskId) w) : KeepsClaimable (Tasks.manualAdvance taskId) w := by
  unfold Tasks.manualAdvance
  refine winds_requireTask hI (fun t w₁ hsame₁ hget => ?_)
  have hI₁ : Claimability none w₁.state := hsame₁ ▸ hI
  by_cases hended : t.status.IsTerminal
  · simp only [if_pos hended]
    exact hI₁
  simp only [if_neg hended]
  refine wp_allCompleted (fun hstep => hstep.1.1) (fun _ => trivial)
    (fun allDone w₂ hsame₂ hall => ?_)
  rw [hsame₁] at hall
  have hsame₂ := hsame₂.trans hsame₁
  have hI₂ : Claimability none w₂.state := hsame₂ ▸ hI
  cases allDone with
  | false => exact hI₂
  | true =>
      obtain ⟨hunassigned, hunheld⟩ := hfree t hget hended (hall rfl)
      have hready : Tidy none w₂.state (.setTaskStatus taskId .ready "") := by
        intro u hu
        rw [hsame₂, hget, Option.some.injEq] at hu
        rw [← hu, hsame₂]
        exact ⟨fun _ _ => hunassigned, fun _ => hunheld⟩
      refine winds_store hI₂ hready (fun _ w₃ _ hI₃ => ?_)
      exact winds_store hI₃ trivial (fun _ _ _ hI₄ => hI₄)

omit [Unicode] in
theorem alwaysTidy_of_recovering {op : StoreOp} (h : Recovering op) : AlwaysTidy op := by
  cases op with
  | setTaskStatus taskId status reason =>
      obtain rfl : status = .failed := h
      exact alwaysTidy_failed taskId reason
  | _ => exact fun _ _ => by first | exact h.elim | trivial

theorem keeps_discard {α : Type} {p : Api α} (h : KeepsClaimable p w) :
    KeepsClaimable (p >>= fun _ => pure ()) w := by
  refine wp_bind.mpr (h.mono (fun r w' hI => ?_))
  cases r <;> exact hI

/-- A call keeps the invariant. -/
theorem Call.keepsClaimable {c : Call} (hI : Claimability none w.state)
    (hc : (∀ order, c ≠ .sweep order) → Untroubled c w) : KeepsClaimable c.prog w := by
  have hplain : ∀ {α : Type} {p : Api α}, p.Only AlwaysTidy → KeepsClaimable p w :=
    fun hp => winds_of_only hp hI
  have hfree : (∀ order, c ≠ .sweep order) → Untroubled c w := hc
  cases c with
  | submit _ req => exact keeps_discard (keeps_submitTask req hI (hfree nofun))
  | createBatch plans => exact winds_store hI (hfree nofun) (fun _ _ _ hI' => hI')
  | claim _ req => exact keeps_discard (keeps_claimTask req hI)
  | release _ req => exact keeps_discard (keeps_releaseTask req hI)
  | complete _ req => exact keeps_discard (keeps_completeTask req hI)
  | fail taskId req =>
      exact keeps_discard (hplain (only_failTask tends_alwaysTidy taskId req
        (alwaysTidy_failed taskId) alwaysTidy_cancelled (fun _ _ _ => trivial)))
  | cancel taskId req =>
      exact keeps_discard (hplain (only_cancelTask tends_alwaysTidy taskId req
        alwaysTidy_cancelled (fun _ _ _ => trivial)))
  | block _ req => exact keeps_discard (keeps_blockTask req hI)
  | answer _ req => exact keeps_discard (keeps_answerTask req hI (hfree nofun))
  | unblock => exact keeps_discard (keeps_unblockTask hI (hfree nofun))
  | advance => exact keeps_discard (keeps_manualAdvance hI (hfree nofun))
  | setDependencies taskId req =>
      exact keeps_discard (hplain (only_setDependencies tends_alwaysTidy taskId req
        (fun _ _ => trivial)))
  | triggerPending => exact winds_store hI trivial (fun _ _ _ hI' => hI')
  | schedulePass => exact winds_store hI trivial (fun _ _ _ hI' => hI')
  | recover nodeId =>
      exact keeps_discard (hplain ((only_triggerRecovery nodeId).mono
        (fun _ => alwaysTidy_of_recovering)))
  | sweep order =>
      exact keeps_discard (hplain ((only_detectExpiredLeases order).mono
        (fun _ => alwaysTidy_of_recovering)))

theorem claimability_of_calls {cs : List TimedCall} {w : Timed Backend.memory.Store}
    (hI : Claimability none (Backend.memory.board w.state))
    (hcond : Backend.memory.CallsMeet (Backend.memory.Meets Untroubled) cs w) :
    Claimability none (Backend.memory.board (Backend.memory.runCalls cs w).state) := by
  have henter : ∀ (c : TimedCall) (w : Timed Backend.memory.Store),
      Claimability none (Backend.memory.board w.state) →
      Claimability none (Backend.memory.board (c.enter w).state) := fun _ _ hI => hI
  have hcall : ∀ (c : TimedCall) (w : Timed Backend.memory.Store),
      Claimability none (Backend.memory.board w.state) →
      Backend.memory.Meets Untroubled c.call w →
      Claimability none (Backend.memory.board (c.call.prog.run Backend.memory.tick w).2.state) := by
    intro c w hI hc
    have hkeeps : KeepsClaimable c.call.prog (Backend.memory.view w) :=
      Call.keepsClaimable hI (fun hplain => (Backend.meets_iff hplain).mp hc)
    exact (along_of_wp implements_holds hkeeps).2
  exact runAll_of_calls
    (I := fun w : Timed Backend.memory.Store => Claimability none (Backend.memory.board w.state))
    henter hcall hI hcond

/-- A claim of a ready task that no node is named on is accepted. -/
theorem accepts_claimTask {t : Task} (req : ClaimTaskRequest)
    (hget : w.state.tasks.get? taskId = some t) (hready : t.status = .ready)
    (hfree : t.assignedTo = none) (hne : taskId ≠ "") (hnode : req.nodeId ≠ "") :
    Winds (Tasks.claimTask taskId req) w (fun r _ => r.isOk = true) := by
  unfold Tasks.claimTask Tasks.requireTask
  rw [Program.bind_assoc]
  refine wp_perform.mpr ⟨trivial, fun r w₁ hstep₁ => ?_⟩
  obtain ⟨rfl, hsame₁⟩ := hstep₁.1.1.reply
  rw [hget]
  have hget₁ : w₁.state.tasks.get? taskId = some t := hsame₁ ▸ hget
  change Winds (if t.status ≠ .ready then _ else if t.assignedTo ≠ none then _ else _) w₁ _
  rw [if_neg (not_not.mpr hready), if_neg (not_not.mpr hfree)]
  refine wp_perform.mpr ⟨trivial, fun _ w₂ hstep₂ => ?_⟩
  have hrow₂ : w₂.state.tasks.get? taskId ≠ none :=
    hstep₂.1.1.get?_ne_none (by rw [hget₁]; exact nofun)
  unfold Tasks.writeTaskRow
  rw [Program.bind_assoc]
  refine wp_perform.mpr ⟨trivial, fun written w₃ hstep₃ => ?_⟩
  obtain rfl : written = .ok () := hstep₃.1.2 hrow₂
  unfold LeaseManager.create
  change Winds ((if taskId = "" then _ else if req.nodeId = "" then _ else _) >>= _) w₃ _
  rw [if_neg hne, if_neg hnode]
  exact wp_perform.mpr ⟨trivial, fun _ w₄ _ => wp_perform.mpr ⟨trivial, fun _ _ _ => rfl⟩⟩

end Handlers

/-! ## Runs -/

section Runs

variable [Unicode]

/-- Through any run of calls on an in-memory store without tasks and leases, each of
which is untroubled on the board it begins on: a ready task names no node and no lease
of it is live, whatever the time; a claim of it by any node is accepted, and the
scheduler may take it unless the lane guard holds it. -/
theorem ready_of_calls (cs : List TimedCall) (w : Timed Backend.memory.Store)
    (htasks : (storedTasks w).rows = []) (hleases : (Backend.memory.board w.state).leases.rows = [])
    (hcond : Backend.memory.CallsMeet (Backend.memory.Meets Untroubled) cs w) (t : Task)
    (ht : t ∈ (storedTasks (Backend.memory.runCalls cs w)).rows) (hready : t.status = .ready) :
    t.assignedTo = none ∧
    (∀ now, ∀ l ∈ (Backend.memory.board (Backend.memory.runCalls cs w).state).leases.rows,
      l.taskId = t.id → ¬l.IsLive now) ∧
    (∀ req : ClaimTaskRequest, req.nodeId ≠ "" →
      ((Tasks.claimTask t.id req).run Backend.memory.tick
        (Backend.memory.runCalls cs w)).1.isOk = true) ∧
    (∀ now, t.id ∉ laneBlockedReadyIds (storedTasks (Backend.memory.runCalls cs w)).rows →
      IsCandidate now (Backend.memory.board (Backend.memory.runCalls cs w).state) t) := by
  have hstart : Claimability none (Backend.memory.board w.state) := by
    refine ⟨fun u hu => ?_, fun l hl => ?_⟩
    · rw [show (Backend.memory.board w.state).tasks.rows = [] from htasks] at hu
      cases hu
    · rw [hleases] at hl
      cases hl
  obtain ⟨hnamed, hunassigned, hunheld⟩ := (claimability_of_calls hstart hcond).rows t ht
  have hfree : t.assignedTo = none := hunassigned (.inl hready) nofun
  have hnone : ∀ now, ∀ l ∈ (Backend.memory.board (Backend.memory.runCalls cs w).state).leases.rows,
      l.taskId = t.id → ¬l.IsLive now :=
    fun now l hl htask hlive => hunheld (.inl (.inl hready)) ⟨l, hl, htask, hlive.1⟩
  refine ⟨hfree, hnone, fun req hnode => ?_, fun now hlane => ?_⟩
  · have hget : (storedTasks (Backend.memory.runCalls cs w)).get? t.id = some t :=
      Table.get?_of_mem ht
    exact (along_of_wp implements_holds (accepts_claimTask
      (w := Backend.memory.view (Backend.memory.runCalls cs w)) req hget hready hfree hnamed
        hnode)).2
  · exact ⟨ht, hready, not_mem_leasedTaskIds.mpr (fun l hl htask => hnone now l hl htask), hlane⟩

end Runs

section Example

local instance asciiClaims : Unicode := Unicode.ascii

/-- An in-memory store with no nodes, no tasks and no leases. -/
def emptyClaims : Timed Backend.memory.Store := ⟨ClusterState.empty, fun _ => 0⟩

/-- A task is submitted and claimed. -/
def claimedOnce : List TimedCall :=
  [⟨.submit "t" { title := "t" }, fun _ => 1⟩, ⟨.claim "t" { nodeId := "n" }, fun _ => 2⟩]

/-- Its worker releases it. -/
def released : TimedCall := ⟨.release "t" { nodeId := "n" }, fun _ => 3⟩

/-- Its worker files a ballot, and the owner answers. -/
def consulted : List TimedCall :=
  [⟨.block "t" { question := "which?", options := ["this", "that"] }, fun _ => 3⟩,
    ⟨.answer "t" { answer := "this", answeredBy := "owner" }, fun _ => 4⟩]

/-- The operator advances it. -/
def advanced : TimedCall := ⟨.advance "t", fun _ => 3⟩

/-- A released task is ready, and another node may claim it. -/
theorem ready_of_calls_released :
    ∃ t ∈ (storedTasks (Backend.memory.runCalls (claimedOnce ++ [released]) emptyClaims)).rows,
      t.status = .ready ∧
      ((Tasks.claimTask t.id { nodeId := "m" }).run Backend.memory.tick
        (Backend.memory.runCalls (claimedOnce ++ [released]) emptyClaims)).1.isOk = true := by
  have hcond : Backend.memory.CallsMeet (Backend.memory.Meets Untroubled)
      (claimedOnce ++ [released]) emptyClaims := by
    refine ⟨⟨by decide, ?_⟩, trivial, trivial, trivial⟩
    rintro ⟨l, hl, -⟩
    cases hl
  have hstored : ((storedTasks (Backend.memory.runCalls (claimedOnce ++ [released])
      emptyClaims)).rows.map Task.status) = [.ready] := by
    decide +kernel
  obtain ⟨t, ht, hready⟩ := List.mem_map.mp (hstored ▸ List.mem_singleton_self TaskStatus.ready)
  have hclaim := (ready_of_calls _ emptyClaims rfl rfl hcond t ht hready).2.2.1
  exact ⟨t, ht, hready, hclaim { nodeId := "m" } (by decide)⟩

/-- An answered task is ready while its row names the node, and a task that is
advanced while it runs is ready under a live lease. -/
theorem ready_but_taken :
    (∃ t ∈ (storedTasks (Backend.memory.runCalls (claimedOnce ++ consulted) emptyClaims)).rows,
      t.status = .ready ∧ t.assignedTo ≠ none) ∧
    (∃ t ∈ (storedTasks (Backend.memory.runCalls (claimedOnce ++ [advanced]) emptyClaims)).rows,
      t.status = .ready ∧ ∃ l ∈ (Backend.memory.board
        (Backend.memory.runCalls (claimedOnce ++ [advanced]) emptyClaims).state).leases.rows,
          l.taskId = t.id ∧ l.IsLive 4) := by
  constructor <;> decide +kernel

end Example

end HermesCluster
