import HermesCluster.Recovery.Pipeline
/-!
# Lease rows through the operations of a store

No operation drops a lease or moves it to another task or node, and only two of
them revoke one: by its id, and by its task when the task is put back.
-/

namespace HermesCluster

open Program hiding pure bind

/-- The operations that may revoke the lease. -/
def StoreOp.Revokes (op : StoreOp) (l : Lease) : Prop :=
  op = .revokeLease l.id ∨ ∃ reason, op = .requeueTask l.taskId reason

/-- Each lease is still stored, and as it was unless it had lapsed or the
operation revokes it. -/
def KeepsLeases (now : Nat) (op : StoreOp) (leases leases' : Table Lease) : Prop :=
  ∀ l ∈ leases.rows, ∃ l' ∈ leases'.rows, SameLease l l' ∧
    (¬l.IsLapsed now → ¬op.Revokes l → l' = l)

section Rows

variable {now : Nat} {op : StoreOp} {leases leases' : Table Lease}

theorem KeepsLeases.of_eq (h : leases' = leases) : KeepsLeases now op leases leases' := by
  intro l hl
  exact ⟨l, h ▸ hl, SameLease.refl l, fun _ _ => rfl⟩

theorem KeepsLeases.of_append {added : List Lease} (h : leases'.rows = leases.rows ++ added) :
    KeepsLeases now op leases leases' := by
  intro l hl
  refine ⟨l, ?_, SameLease.refl l, fun _ _ => rfl⟩
  rw [h]
  exact List.mem_append_left added hl

theorem keepsLeases_expire (now : Nat) (op : StoreOp) (leases : Table Lease) :
    KeepsLeases now op leases
      (leases.updateWhere (Lease.IsLapsed now) Lease.expire Lease.keepsKey_expire) := by
  intro l hl
  exact ⟨_, List.mem_map_of_mem hl, SameLease.expire_if now l, fun hlapsed _ => if_neg hlapsed⟩

theorem keepsLeases_revoke {p : Lease → Prop} [DecidablePred p]
    (h : ∀ l ∈ leases.rows, p l → op.Revokes l) :
    KeepsLeases now op leases (leases.updateWhere p Lease.revoke Lease.keepsKey_revoke) := by
  intro l hl
  refine ⟨_, List.mem_map_of_mem hl, SameLease.revoke_if (p l) l, fun _ hop => ?_⟩
  exact if_neg (fun hp => hop (h l hl hp))

end Rows

section Step

variable [Unicode]

namespace ClusterState

variable (now : Nat) (taskId : String) (s : ClusterState)

/-! Writes to a task row leave the leases alone -/

omit [Unicode] in
theorem leases_writeTask (f : Task → Task) (hf : Table.KeepsKey f) :
    (s.writeTask taskId f hf).2.leases = s.leases := by
  unfold writeTask
  split <;> rfl

theorem leases_setTaskResult (result : Option String) :
    (s.setTaskResult now taskId result).2.leases = s.leases := by
  rcases setTaskResult_cases now taskId result s with heq | ⟨_, _, _, _, heq⟩
  · rw [heq]
  · rw [heq]
    rfl

omit [Unicode] in
theorem leases_setTaskStatus (status : TaskStatus) (failReason : String) :
    (s.setTaskStatus now taskId status failReason).2.leases = s.leases := by
  rcases setTaskStatus_cases now taskId status failReason s with ⟨heq, -⟩ | ⟨_, _, _, heq⟩
  · rw [heq]
  · rw [heq]
    rfl

omit [Unicode] in
theorem leases_unassignTask : (s.unassignTask now taskId).2.leases = s.leases := by
  rcases unassignTask_cases now taskId s with heq | ⟨_, _, _, _, heq⟩
  · rw [heq]
  · rw [heq]
    rfl

omit [Unicode] in
theorem leases_unblockTo (status : TaskStatus) :
    (s.unblockTo now status taskId).2.leases = s.leases := by
  rcases unblockTo_cases now status taskId s with heq | ⟨_, _, _, heq⟩
  · rw [heq]
  · rw [heq]
    rfl

omit [Unicode] in
theorem leases_writeTaskRow (assignedTo failReason : Option String) :
    (s.writeTaskRow now taskId assignedTo failReason).2.leases = s.leases := by
  rcases writeTaskRow_cases now taskId assignedTo failReason s with heq | ⟨_, _, heq⟩
  · rw [heq]
  · rw [heq]
    rfl

omit [Unicode] in
theorem leases_handleSyncMessage (msg : SyncMessage) :
    (s.handleSyncMessage now msg).2.leases = s.leases := by
  unfold handleSyncMessage
  split
  · rfl
  dsimp only
  split
  · rfl
  rename_i ts _
  split
  · rfl
  split
  · rfl
  split
  · rfl
  rename_i status _
  have hwritten :=
    leases_setTaskStatus now ts.taskId { s with syncVersion := msg.version } status ""
  split
  · exact hwritten
  · exact hwritten

omit [Unicode] in
/-- The lease that goes with a task put back is one of the task's. -/
theorem keepsLeases_requeueTask (reason : String) :
    KeepsLeases now (.requeueTask taskId reason) s.leases
      (s.requeueTask now taskId reason).2.leases := by
  unfold requeueTask
  split
  · exact .of_eq rfl
  split
  · exact .of_eq rfl
  split
  · exact .of_eq rfl
  dsimp only
  split
  · exact .of_eq rfl
  rename_i lease hlease
  obtain ⟨hmem, htask, -⟩ := getLeaseByTask_some hlease
  unfold revokeLease
  split
  · exact .of_eq rfl
  · refine keepsLeases_revoke (fun l hl hid => .inr ⟨reason, ?_⟩)
    have hsame : l = lease := Table.eq_of_mem_of_key_eq hl hmem hid
    rw [hsame, htask]

theorem keepsLeases_step (op : StoreOp) : KeepsLeases now op s.leases (s.step now op).2.leases := by
  cases op with
  | requeueTask taskId reason => exact keepsLeases_requeueTask now taskId s reason
  | getActiveLeases => exact keepsLeases_expire now _ s.leases
  | revokeLease leaseId =>
      change KeepsLeases now _ s.leases (s.revokeLease leaseId).2.leases
      unfold revokeLease
      split
      · exact .of_eq rfl
      · exact keepsLeases_revoke (fun l _ hid => .inl (congrArg _ hid.symm))
  | createLease => exact .of_append rfl
  | schedulePendingDetailed =>
      have hpass := passOf_schedulePendingDetailed now s
      obtain ⟨added, hrows, -⟩ := leases_placeAll now s.toBoard (placements s.toBoard _)
      exact .of_append ((congrArg Table.rows hpass.leases_eq).trans hrows)
  | setTaskResult taskId result => exact .of_eq (leases_setTaskResult now taskId s result)
  | setTaskStatus taskId status failReason =>
      exact .of_eq (leases_setTaskStatus now taskId s status failReason)
  | unassignTask taskId => exact .of_eq (leases_unassignTask now taskId s)
  | unblockTask taskId | unblockToReady taskId => exact .of_eq (leases_unblockTo now taskId s _)
  | setTaskBallot taskId | setTaskCancelRequeue taskId | setDependencies taskId =>
      exact .of_eq (leases_writeTask taskId s _ _)
  | writeTaskRow taskId assignedTo failReason =>
      exact .of_eq (leases_writeTaskRow now taskId s assignedTo failReason)
  | handleSyncMessage msg => exact .of_eq (leases_handleSyncMessage now s msg)
  | _ => exact .of_eq rfl

end ClusterState

namespace ClusterStore

theorem keepsLeases_step (d : SqlDialect) (now : Nat) (op : StoreOp) (s : ClusterStore) :
    KeepsLeases now op s.leases (s.step d now op).2.leases := by
  cases op with
  | requeueTask taskId reason =>
      exact keepsLeases_revoke (fun l _ hrevoked => .inr ⟨reason, by rw [hrevoked.1]⟩)
  | getActiveLeases =>
      change KeepsLeases now _ s.leases (s.getActiveLeases d now).2.leases
      rw [getActiveLeases_eq]
      exact keepsLeases_expire now _ s.leases
  | revokeLease leaseId => exact keepsLeases_revoke (fun l _ hid => .inl (congrArg _ hid.symm))
  | createLease => exact .of_append rfl
  | schedulePendingDetailed =>
      have hpass := passOf_schedulePendingDetailed d now s
      obtain ⟨added, hrows, -⟩ := leases_placeAll now s.toBoard (placements s.toBoard _)
      exact .of_append ((congrArg Table.rows hpass.leases_eq).trans hrows)
  | createTask plan =>
      refine .of_eq ?_
      change (s.createTask now plan).2.leases = s.leases
      unfold createTask
      dsimp only
      split <;> rfl
  | setTaskResult taskId result =>
      refine .of_eq ?_
      change (s.setTaskResult now taskId result).2.leases = s.leases
      unfold setTaskResult
      split
      · rfl
      · split <;> rfl
  | setDependencies taskId dependsOn =>
      refine .of_eq ?_
      change (s.setDependencies now taskId dependsOn).2.leases = s.leases
      unfold setDependencies
      dsimp only
      split <;> rfl
  | handleSyncMessage msg =>
      refine .of_eq ?_
      change (s.handleSyncMessage now msg).2.leases = s.leases
      unfold handleSyncMessage
      split
      · rfl
      dsimp only
      split
      · rfl
      split
      · rfl
      split <;> rfl
  | _ => exact .of_eq rfl

end ClusterStore

/-- No store drops a lease, and an operation that does not revoke a lease leaves
it as it was until it lapses. -/
theorem Backend.keepsLeases_step (k : Backend) (now : Nat) (op : StoreOp) (s : k.Store) :
    KeepsLeases now op (k.board s).leases (k.board (k.step now op s).2).leases := by
  cases k with
  | memory => exact ClusterState.keepsLeases_step now s op
  | sql d => exact ClusterStore.keepsLeases_step d now op s

theorem Backend.exists_sameLease_run {α : Type} (k : Backend) (p : Api α) (w : Timed k.Store)
    {l : Lease} (hl : l ∈ (k.board w.state).leases.rows) :
    ∃ l' ∈ (k.board (p.run k.tick w).2.state).leases.rows, SameLease l l' := by
  refine run_of_step (I := fun w : Timed k.Store => ∃ l' ∈ (k.board w.state).leases.rows,
    SameLease l l') p ⟨l, hl, SameLease.refl l⟩ ?_
  rintro w op ⟨l', hl', hsame⟩
  obtain ⟨l'', hl'', hsame', -⟩ := k.keepsLeases_step (w.clock 0) op w.state l' hl'
  exact ⟨l'', hl'', hsame.trans hsame'⟩

/-- `create_lease` adds the lease it returns. -/
theorem Backend.createLease_step (k : Backend) (now : Nat) (taskId nodeId : String) (ttl : Nat)
    (s : k.Store) : (k.board (k.step now (.createLease taskId nodeId ttl) s).2).leases =
      addLease now (k.board s).leases taskId nodeId ttl := by
  cases k with
  | memory => rfl
  | sql d => rfl

theorem Backend.getActiveLeases_step (k : Backend) (now : Nat) (s : k.Store) :
    (k.step now .getActiveLeases s).1 =
        (k.board s).leases.rows.filter (fun l => decide (l.IsLive now)) ∧
      (k.board (k.step now .getActiveLeases s).2).leases =
        (k.board s).leases.updateWhere (Lease.IsLapsed now) Lease.expire Lease.keepsKey_expire := by
  have hreply := (k.implements .getActiveLeases ⟨s, fun _ => now⟩).reply
  exact ⟨hreply.1, congrArg Board.leases hreply.2⟩

theorem Backend.revokeLease_step (k : Backend) (now leaseId : Nat) (s : k.Store) :
    (k.board (k.step now (.revokeLease leaseId) s).2).leases =
      (k.board s).leases.modify leaseId Lease.revoke Lease.keepsKey_revoke :=
  congrArg Board.leases (k.implements (.revokeLease leaseId) ⟨s, fun _ => now⟩).reply

theorem Backend.mem_leases_getActiveLeases {k : Backend} {now : Nat} {s : k.Store} {l : Lease}
    (hl : l ∈ (k.board s).leases.rows)
    (hlapsed : ¬l.IsLapsed now) :
    l ∈ (k.board (k.step now .getActiveLeases s).2).leases.rows := by
  rw [(k.getActiveLeases_step now s).2]
  exact List.mem_map.mpr ⟨l, hl, if_neg hlapsed⟩

end Step

end HermesCluster
