import HermesCluster.Lib.Table
/-!
# Data model

The records of `models/__init__.py` that the task state machine, the scheduler
and the recovery pipeline read and write, with the defaults of the source.
A `datetime` is a number of microseconds, a `timedelta` likewise; the random
token of a lease id is a number that no other lease has.
-/

namespace HermesCluster

/-! ## Enums -/

inductive NodeStatus where
  | online | degraded | offline
  deriving DecidableEq, Repr

inductive TaskStatus where
  | pending | ready | assigned | running | completed | failed | blocked
  | cancelRequested | cancelled
  deriving DecidableEq, Repr

inductive LeaseStatus where
  | active | expired | revoked
  deriving DecidableEq, Repr

namespace TaskStatus

def value : TaskStatus → String
  | pending => "pending"
  | ready => "ready"
  | assigned => "assigned"
  | running => "running"
  | completed => "completed"
  | failed => "failed"
  | blocked => "blocked"
  | cancelRequested => "cancel_requested"
  | cancelled => "cancelled"

def all : List TaskStatus :=
  [pending, ready, assigned, running, completed, failed, blocked, cancelRequested,
    cancelled]

/-- `TaskStatus(s)` for a string that is one of the values. -/
def ofValue (s : String) : Option TaskStatus :=
  all.find? (fun status => status.value = s)

/-- `TERMINAL_TASK_STATUSES`: a task in one of these must never be revived. -/
def IsTerminal (s : TaskStatus) : Prop :=
  s = completed ∨ s = failed ∨ s = cancelled ∨ s = cancelRequested

instance : DecidablePred IsTerminal := fun s =>
  inferInstanceAs (Decidable (s = completed ∨ s = failed ∨ s = cancelled ∨ s = cancelRequested))

theorem not_isTerminal_of_pending {s : TaskStatus} (h : s = pending) : ¬s.IsTerminal := by
  simp [IsTerminal, h]

theorem not_isTerminal_of_ready {s : TaskStatus} (h : s = ready) : ¬s.IsTerminal := by
  simp [IsTerminal, h]

theorem not_isTerminal_of_blocked {s : TaskStatus} (h : s = blocked) : ¬s.IsTerminal := by
  simp [IsTerminal, h]

theorem ne_completed_of_open {s : TaskStatus} (h : ¬s.IsTerminal) : s ≠ completed :=
  fun heq => h (.inl heq)

/-- `ACTIVE_TASK_STATUSES`: the task occupies a slot of its node. -/
def IsActive (s : TaskStatus) : Prop :=
  s = running ∨ s = assigned

instance : DecidablePred IsActive := fun s =>
  inferInstanceAs (Decidable (s = running ∨ s = assigned))

end TaskStatus

/-! ## Ballots -/

/-- A parsed `decision_ref`: `"group[/sub]/project#<iid>"`. -/
structure DecisionRef where
  project : String
  issueIid : Nat
  raw : String
  deriving DecidableEq, Repr

/-- The directive `formal_actuation` computes when a ballot is answered. -/
structure FormalActuation where
  state : String
  formalRef : Option DecisionRef
  decisionId : Option String
  carrierTask : String
  answer : String
  answeredBy : String
  answeredAt : Option Nat
  question : String
  detail : Option String
  deriving DecidableEq, Repr

/-- The record kept on `tasks.ballot`. -/
structure Ballot where
  question : String
  options : List String
  cls : String
  laneKey : String
  askedAt : Nat
  decisionRef : String
  decisionId : String
  answer : Option String
  answeredAt : Option Nat
  answeredBy : String
  formal : Option FormalActuation := none
  deriving DecidableEq, Repr

/-! ## Nodes, tasks, leases, lanes -/

structure Node where
  id : String
  capabilities : List String := []
  status : NodeStatus := .online
  statusReason : String := ""
  maxConcurrent : Int := 0
  drained : Bool := false
  deriving DecidableEq, Repr

/-- `DEFAULT_PRIORITY`. -/
def defaultPriority : Int := 3

structure Task where
  id : String
  title : String
  requires : List String := []
  dependsOn : List String := []
  priority : Int := defaultPriority
  status : TaskStatus := .pending
  assignedTo : Option String := none
  createdAt : Nat
  updatedAt : Nat
  version : Int := 0
  failReason : Option String := none
  attempts : Nat := 0
  laneKey : String := ""
  role : String := "author"
  result : Option String := none
  description : String := ""
  issues : List String := []
  ballot : Option Ballot := none
  cancelRequeue : Option Bool := none
  deriving DecidableEq, Repr

structure Lease where
  id : Nat
  taskId : String
  nodeId : String
  createdAt : Nat
  expiresAt : Nat
  status : LeaseStatus := .active
  deriving DecidableEq, Repr

/-- A row of the `lanes` table: the node that owns the session of a lane. -/
structure Lane where
  laneKey : String
  sessionId : String := ""
  node : String := ""
  deriving DecidableEq, Repr

instance : HasKey Node String := ⟨Node.id⟩
instance : HasKey Task String := ⟨Task.id⟩
instance : HasKey Lease Nat := ⟨Lease.id⟩
instance : HasKey Lane String := ⟨Lane.laneKey⟩

@[simp] theorem Node.key_eq (n : Node) : HasKey.key n = n.id := rfl
@[simp] theorem Task.key_eq (t : Task) : HasKey.key t = t.id := rfl
@[simp] theorem Lease.key_eq (l : Lease) : HasKey.key l = l.id := rfl
@[simp] theorem Lane.key_eq (l : Lane) : HasKey.key l = l.laneKey := rfl

/-- Active and not past its `expires_at`. -/
def Lease.IsLive (now : Nat) (l : Lease) : Prop :=
  l.status = .active ∧ now < l.expiresAt

instance (now : Nat) : DecidablePred (Lease.IsLive now) := fun l =>
  inferInstanceAs (Decidable (l.status = .active ∧ now < l.expiresAt))

/-- Still marked active although `expires_at` has passed. -/
def Lease.IsLapsed (now : Nat) (l : Lease) : Prop :=
  l.status = .active ∧ l.expiresAt ≤ now

instance (now : Nat) : DecidablePred (Lease.IsLapsed now) := fun l =>
  inferInstanceAs (Decidable (l.status = .active ∧ l.expiresAt ≤ now))

/-- `LeaseConfig().ttl`. -/
def leaseTtl : Nat := 60 * 1000000

/-- `SCHEDULER_ASSIGNED_TTL`. -/
def schedulerAssignedTtl : Nat := leaseTtl

/-! ## Requests -/

structure SubmitTaskRequest where
  title : String
  description : String := ""
  requires : List String := []
  /-- `None` is "not supplied"; the schema admits the bands 0 to 5. -/
  priority : Option (Fin 6) := none
  laneKey : String := ""
  role : String := "author"
  dependsOn : List String := []

structure CompleteTaskRequest where
  result : Option String := none

structure FailTaskRequest where
  reason : String
  requeue : Bool := false

structure CancelTaskRequest where
  reason : String := "cancelled"
  requeue : Option Bool := none

structure BlockTaskRequest where
  question : String
  options : List String := []
  cls : Option String := none
  laneKey : String := ""
  decisionRef : Option String := none
  decisionId : Option String := none

structure AnswerTaskRequest where
  answer : String
  answeredBy : String := ""

structure SetDependenciesRequest where
  dependsOn : List String

structure ClaimTaskRequest where
  nodeId : String

structure ReleaseTaskRequest where
  nodeId : String
  reason : Option String := none

/-- One plan of `create_tasks_batch`: the keyword arguments of `create_task`. -/
structure TaskPlan where
  taskId : String
  title : String
  requires : List String := []
  dependsOn : List String := []
  priority : Int := defaultPriority
  laneKey : String := ""
  role : String := "author"
  description : String := ""
  issues : List String := []

/-- `TaskSync`: the status travels as a string. -/
structure TaskSync where
  taskId : String
  title : String
  status : String
  assignedTo : Option String := none
  version : Int := 0

structure SyncMessage where
  version : Int := 0
  taskState : Option TaskSync := none

end HermesCluster
