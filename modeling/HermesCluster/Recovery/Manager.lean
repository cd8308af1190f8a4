import HermesCluster.Lease.LeaseManager
/-!
# Recovery pipeline

`recovery/revoker.py`, `recovery/rescheduler.py` and `recovery/manager.py`: a
node's leases are revoked, the tasks they name are put back to ready and
scheduled again, and a task that finds no place is failed. The recovery log is
written and never read here, so it is left out.
-/

namespace HermesCluster

namespace Recovery

/-- What the revoker has seen and revoked so far. -/
structure Revoked where
  seen : List Nat := []
  taskIds : List String := []

/-- One lease of the loop in `revoke_all_for_node`. -/
def revokeStep (nodeId : String) (st : Revoked) (lease : Lease) : Api Revoked :=
  if lease.nodeId ≠ nodeId ∨ lease.id ∈ st.seen then pure st
  else do
    let success ← store (.revokeLease lease.id)
    let seen := lease.id :: st.seen
    pure
      (if success = true then { seen := seen, taskIds := st.taskIds ++ [lease.taskId] }
      else { st with seen := seen })

/-- `Revoker.revoke_all_for_node`: the active leases of the node and the expired
ones. Reading the active ones first marks the lapsed ones expired. -/
def revokeAllForNode (nodeId : String) : Api (List String) := do
  let active ← store .getActiveLeases
  let expired ← store .getExpiredLeases
  let revoked ← (active ++ expired).foldlM (revokeStep nodeId) {}
  pure revoked.taskIds

/-- `set_task_status(task_id, failed, …)` when no node was found. -/
def markFailed (taskId : String) : Api Unit := do
  let _ ← store (.setTaskStatus taskId .failed "no available node for reschedule")
  pure ()

/-- One task of `reschedule_orphaned`. -/
def rescheduleStep (rescheduled : Nat) (taskId : String) : Api Nat := do
  match ← store (.getTask taskId) with
  | none => pure rescheduled
  | some _ =>
      let unassigned ← store (.unassignTask taskId)
      if unassigned = false then pure rescheduled
      else
        let scheduled ← store .schedulePendingDetailed
        if 0 < scheduled.length then
          let task ← store (.getTask taskId)
          if ((task.bind Task.assignedTo).getD "") ≠ "" then pure (rescheduled + 1)
          else
            markFailed taskId
            pure rescheduled
        else
          markFailed taskId
          pure rescheduled

/-- `Rescheduler.reschedule_orphaned`. -/
def rescheduleOrphaned (taskIds : List String) : Api Nat :=
  taskIds.foldlM rescheduleStep 0

/-- What `trigger_recovery` answers. -/
structure Summary where
  nodeId : String
  revoked : Nat
  rescheduled : Nat
  recoveryStatus : String
  deriving DecidableEq, Repr

/-- `RecoveryManager.trigger_recovery`. -/
def triggerRecovery (nodeId : String) : Api Summary := do
  let revokedTaskIds ← revokeAllForNode nodeId
  if revokedTaskIds = [] then
    pure { nodeId := nodeId, revoked := 0, rescheduled := 0, recoveryStatus := "completed" }
  else
    let rescheduled ← rescheduleOrphaned revokedTaskIds
    pure
      { nodeId := nodeId
        revoked := revokedTaskIds.length
        rescheduled := rescheduled
        recoveryStatus :=
          if rescheduled = revokedTaskIds.length then "completed" else "partial" }

/-- The order in which a `set` of strings is iterated: any order of its
elements. -/
structure SetOrder where
  iterate : List String → List String
  mem_iterate : ∀ xs x, x ∈ iterate xs ↔ x ∈ xs
  nodup_iterate : ∀ xs, (iterate xs).Nodup

/-- First occurrences, in order. -/
def SetOrder.insertion : SetOrder where
  iterate := List.dedup
  mem_iterate _ _ := List.mem_dedup
  nodup_iterate := List.nodup_dedup

/-- What `detect_expired_leases` answers. -/
structure Sweep where
  expiredNodes : List String
  activeLeases : Nat
  unleasedRunning : Nat
  deriving DecidableEq, Repr

/-- `RecoveryManager.detect_expired_leases`. -/
def detectExpiredLeases (order : SetOrder) : Api Sweep := do
  let activeLeases ← store .getActiveLeases
  let expiredLeases ← store .getExpiredLeases
  let expiredNodes := order.iterate (expiredLeases.map Lease.nodeId)
  expiredNodes.forM (fun nodeId => do
    let _ ← triggerRecovery nodeId
    pure ⟨⟩)
  let unleased ← store .unleasedRunningTasks
  pure
    { expiredNodes := expiredNodes
      activeLeases := activeLeases.length
      unleasedRunning := unleased.length }

end Recovery

end HermesCluster
