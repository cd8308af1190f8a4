import HermesCluster.State.Board
/-!
# Lease manager

`lease/lease_manager.py`: the lease operations the handlers call, as programs
over the store interface. The scanner thread is `listActive` on a timer; its
callbacks only queue events.
-/

namespace HermesCluster

/-- What ends a handler early: an `HTTPException`, or any other exception
(answered with status 500). -/
inductive ApiError where
  | http (statusCode : Nat) (detail : String)
  | exception (message : String)
  deriving DecidableEq, Repr

/-- A program of the server over the store interface. -/
abbrev Api (α : Type) : Type := Program StoreOp StoreOp.Res ApiError α

/-- Perform one store operation. -/
def store (op : StoreOp) : Api op.Res := Program.perform op

/-- `raise HTTPException(status_code=…, detail=…)`. -/
def httpError {α : Type} (statusCode : Nat) (detail : String) : Api α :=
  .raise (.http statusCode detail)

namespace LeaseManager

/-- `LeaseManager.create`, with the default ttl. -/
def create (taskId nodeId : String) : Api Lease :=
  if taskId = "" then .raise (.exception "task_id is required")
  else if nodeId = "" then .raise (.exception "node_id is required")
  else store (.createLease taskId nodeId leaseTtl)

/-- `LeaseManager.revoke`. -/
def revoke (leaseId : Nat) : Api Bool :=
  store (.revokeLease leaseId)

/-- `LeaseManager.list_active`. -/
def listActive : Api (List Lease) :=
  store .getActiveLeases

/-- `LeaseManager.get_by_task`. -/
def getByTask (taskId : String) : Api (Option Lease) :=
  if taskId = "" then pure none else store (.getLeaseByTask taskId)

/-- `LeaseManager.extend`: the new lease is created before the old one is
revoked. -/
def extend (leaseId : Nat) : Api (Option Lease) := do
  let activeLeases ← store .getActiveLeases
  match activeLeases.find? (fun l => decide (l.id = leaseId)) with
  | none => pure none
  | some lease =>
      let newLease ← store (.createLease lease.taskId lease.nodeId leaseTtl)
      let _ ← store (.revokeLease leaseId)
      pure (some newLease)

/-- The rest of `extend`, from what it found among the active leases. -/
def extendFrom (leaseId : Nat) : Option Lease → Api (Option Lease)
  | none => pure none
  | some lease => do
      let newLease ← store (.createLease lease.taskId lease.nodeId leaseTtl)
      let _ ← store (.revokeLease leaseId)
      pure (some newLease)

theorem extend_eq (leaseId : Nat) :
    extend leaseId = (do
      let activeLeases ← store .getActiveLeases
      extendFrom leaseId (activeLeases.find? (fun l => decide (l.id = leaseId)))) :=
  rfl

end LeaseManager

end HermesCluster
