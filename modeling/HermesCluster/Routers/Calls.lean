import HermesCluster.Recovery.Manager
import HermesCluster.Routers.Tasks
import HermesCluster.State.Contract
/-!
# Calls

Everything that can happen to a cluster through its API, its scheduler and its
recovery pipeline, one call at a time, and what a call may ask of the store.
-/

namespace HermesCluster

/-- A call of the task API, a schedule pass or a recovery. `createBatch` is the
intake's. -/
inductive Call where
  | submit (taskId : String) (req : SubmitTaskRequest)
  | createBatch (plans : List TaskPlan)
  | claim (taskId : String) (req : ClaimTaskRequest)
  | release (taskId : String) (req : ReleaseTaskRequest)
  | complete (taskId : String) (req : Option CompleteTaskRequest)
  | fail (taskId : String) (req : Option FailTaskRequest)
  | cancel (taskId : String) (req : Option CancelTaskRequest)
  | block (taskId : String) (req : BlockTaskRequest)
  | answer (taskId : String) (req : AnswerTaskRequest)
  | unblock (taskId : String)
  | advance (taskId : String)
  | setDependencies (taskId : String) (req : SetDependenciesRequest)
  | triggerPending
  | schedulePass
  | recover (nodeId : String)
  | sweep (order : Recovery.SetOrder)

section Programs

variable [Unicode]

/-- The program a call runs; what it answers is left out. -/
def Call.prog : Call → Api Unit
  | submit taskId req => Tasks.submitTask taskId req >>= fun _ => pure ()
  | createBatch plans => store (.createTasksBatch plans) >>= fun _ => pure ()
  | claim taskId req => Tasks.claimTask taskId req >>= fun _ => pure ()
  | release taskId req => Tasks.releaseTask taskId req >>= fun _ => pure ()
  | complete taskId req => Tasks.completeTask taskId req >>= fun _ => pure ()
  | fail taskId req => Tasks.failTask taskId req >>= fun _ => pure ()
  | cancel taskId req => Tasks.cancelTask taskId req >>= fun _ => pure ()
  | block taskId req => Tasks.blockTask taskId req >>= fun _ => pure ()
  | answer taskId req => Tasks.answerTask taskId req >>= fun _ => pure ()
  | unblock taskId => Tasks.unblockTask taskId >>= fun _ => pure ()
  | advance taskId => Tasks.manualAdvance taskId >>= fun _ => pure ()
  | setDependencies taskId req => Tasks.setDependencies taskId req >>= fun _ => pure ()
  | triggerPending => store .triggerPendingTasks >>= fun _ => pure ()
  | schedulePass => store .schedulePendingDetailed >>= fun _ => pure ()
  | recover nodeId => Recovery.triggerRecovery nodeId >>= fun _ => pure ()
  | sweep order => Recovery.detectExpiredLeases order >>= fun _ => pure ()

/-- A call with the readings the clock gives to its operations. -/
structure TimedCall where
  call : Call
  clock : Nat → Nat

omit [Unicode] in
/-- A call begins: the clock runs through its readings. -/
def TimedCall.enter {σ : Type} (c : TimedCall) (w : Program.Timed σ) : Program.Timed σ :=
  { w with clock := c.clock }

/-- The store after some calls, each run to its end. -/
def Backend.runCalls (k : Backend) : List TimedCall → Program.Timed k.Store →
    Program.Timed k.Store :=
  Program.runAll k.tick TimedCall.enter (fun c => c.call.prog)

/-- `P` holds of every operation of some calls. -/
def Backend.AlongCalls (k : Backend)
    (P : Program.Timed k.Store → StoreOp → Program.Timed k.Store → Prop) :
    List TimedCall → Program.Timed k.Store → Prop :=
  Program.AlongAll k.tick TimedCall.enter P (fun c => c.call.prog)

/-- Every call meets a condition on the store it begins on. -/
def Backend.CallsMeet (k : Backend) (cond : Call → Program.Timed k.Store → Prop) :
    List TimedCall → Program.Timed k.Store → Prop :=
  Program.CallsMeet k.tick TimedCall.enter (fun c => c.call.prog) (fun c => cond c.call)

end Programs

/-! ## Rows between two operations of a call -/

/-- A row whose dependencies and gate columns stand still, as does its status
once it has ended. -/
structure QuietRow (t t' : Task) : Prop where
  gate : LandingGate.GateSame t t'
  dependsOn : t'.dependsOn = t.dependsOn
  ended : t.status.IsTerminal → t'.status = t.status

/-- A quiet row that keeps its status, its assignee and its attempts too. -/
structure CalmRow (t t' : Task) : Prop where
  quiet : QuietRow t t'
  status : t'.status = t.status
  assignedTo : t'.assignedTo = t.assignedTo
  attempts : t'.attempts = t.attempts

theorem QuietRow.refl (t : Task) : QuietRow t t :=
  ⟨LandingGate.GateSame.refl t, rfl, fun _ => rfl⟩

theorem QuietRow.trans {t t' t'' : Task} (h : QuietRow t t') (h' : QuietRow t' t'') :
    QuietRow t t'' := by
  refine ⟨h.gate.trans h'.gate, h'.dependsOn.trans h.dependsOn, fun hended => ?_⟩
  have hsame := h.ended hended
  rw [h'.ended (hsame ▸ hended), hsame]

theorem CalmRow.refl (t : Task) : CalmRow t t := ⟨QuietRow.refl t, rfl, rfl, rfl⟩

theorem CalmRow.trans {t t' t'' : Task} (h : CalmRow t t') (h' : CalmRow t' t'') :
    CalmRow t t'' :=
  ⟨h.quiet.trans h'.quiet, h'.status.trans h.status, h'.assignedTo.trans h.assignedTo,
    h'.attempts.trans h.attempts⟩

/-- No row is added and every row is quiet. -/
def Quiet (b b' : Board) : Prop :=
  List.Forall₂ QuietRow b.tasks.rows b'.tasks.rows

/-- No row is added and every row is calm. -/
def Calm (b b' : Board) : Prop :=
  List.Forall₂ CalmRow b.tasks.rows b'.tasks.rows

section Boards

variable {b b' b'' : Board}

theorem Calm.of_tasks_eq (h : b'.tasks = b.tasks) : Calm b b' := by
  unfold Calm
  rw [h, List.forall₂_same]
  exact fun t _ => CalmRow.refl t

theorem Calm.trans (h : Calm b b') (h' : Calm b' b'') : Calm b b'' :=
  (Table.forall₂_comp h h').imp (fun _ _ ⟨_, hR, hS⟩ => hR.trans hS)

theorem Calm.toQuiet (h : Calm b b') : Quiet b b' :=
  h.imp (fun _ _ hrow => hrow.quiet)

theorem Quiet.gateSame (h : Quiet b b') :
    List.Forall₂ LandingGate.GateSame b.tasks.rows b'.tasks.rows :=
  h.imp (fun _ _ hrow => hrow.gate)

theorem Calm.of_get? (h : Calm b b') {taskId : String} {t' : Task}
    (ht' : b'.tasks.get? taskId = some t') :
    ∃ t, b.tasks.get? taskId = some t ∧ CalmRow t t' := by
  have hevolves : b.tasks.Evolves CalmRow (fun _ => False) b'.tasks :=
    Table.evolves_of_forall₂ h
  rcases hevolves.of_get? (fun _ _ h => h.quiet.gate.id) ht' with hrow | ⟨-, hfalse⟩
  · exact hrow
  · exact hfalse.elim

theorem Calm.get?_of_get? (h : Calm b b') {taskId : String} {t : Task}
    (ht : b.tasks.get? taskId = some t) :
    ∃ t', b'.tasks.get? taskId = some t' ∧ CalmRow t t' := by
  have hevolves : b.tasks.Evolves CalmRow (fun _ => False) b'.tasks :=
    Table.evolves_of_forall₂ h
  exact hevolves.get?_of_get? (fun _ _ h => h.quiet.gate.id) ht

theorem Quiet.of_get? (h : Quiet b b') {taskId : String} {t' : Task}
    (ht' : b'.tasks.get? taskId = some t') :
    ∃ t, b.tasks.get? taskId = some t ∧ QuietRow t t' := by
  have hevolves : b.tasks.Evolves QuietRow (fun _ => False) b'.tasks :=
    Table.evolves_of_forall₂ h
  rcases hevolves.of_get? (fun _ _ h => h.gate.id) ht' with hrow | ⟨-, hfalse⟩
  · exact hrow
  · exact hfalse.elim

end Boards

/-! ## What a call asks of the store -/

/-- Operations that leave no task closer to running: reads, lease operations,
the columns beside the status, and the passes that gate by themselves. -/
def Idle : StoreOp → Prop
  | .utcnow | .getTask _ | .getAllTasks | .getAllNodes | .getDependents _
  | .getTriggerChain _ | .getLeaseByTask _ | .getActiveLeases | .getExpiredLeases
  | .unleasedRunningTasks | .setTaskResult _ _ | .unblockTask _ | .setTaskBallot _ _
  | .setTaskCancelRequeue _ _ | .triggerPendingTasks | .schedulePendingDetailed
  | .writeTaskRow _ _ _ | .createLease _ _ _ | .revokeLease _ => True
  | _ => False

/-- An active lease that outlives a call. -/
def Outlives (w : Program.Timed Board) (l : Lease) : Prop :=
  l.status = .active ∧ ∀ i, w.clock i < l.expiresAt

/-- A lease that does not lapse during a call. -/
def Unlapsing (w : Program.Timed Board) (l : Lease) : Prop :=
  ∀ i, ¬l.IsLapsed (w.clock i)

theorem Outlives.unlapsing {w : Program.Timed Board} {l : Lease} (h : Outlives w l) :
    Unlapsing w l :=
  fun i hlapsed => absurd (h.2 i) (Nat.not_lt.mpr hlapsed.2)

/-- The leases of other nodes that do not lapse are still stored as they were. -/
def OthersKept (nodeId : String) (w₀ : Program.Timed Board) (b : Board) : Prop :=
  ∀ l ∈ w₀.state.leases.rows, l.nodeId ≠ nodeId → Unlapsing w₀ l → l ∈ b.leases.rows

/-- No lease of another node that outlives the call names the task. -/
def Unheld (nodeId : String) (w₀ : Program.Timed Board) (taskId : String) : Prop :=
  ∀ l ∈ w₀.state.leases.rows, l.nodeId ≠ nodeId → l.taskId = taskId → ¬Outlives w₀ l

section Issued

variable [Unicode]

/-- The calls that put an open task back to ready after a failed attempt. -/
def Call.Retries (c : Call) (taskId : String) (t : Task) : Prop :=
  ¬t.status.IsTerminal ∧
    ((∃ req, c = .fail taskId (some req) ∧ req.requeue = true ∧
        Text.strip req.reason ≠ "") ∨
      ∃ req, c = .complete taskId req ∧
        ReviewerGate.reviewerCompletionVeto t (req.bind CompleteTaskRequest.result) ≠ none)

/-- The answer is recorded: the task is blocked on an unanswered ballot and the
text is not blank. -/
def Answers (req : AnswerTaskRequest) (t : Task) : Prop :=
  t.status = .blocked ∧ BallotRules.validateAnswer req.answer ≠ none ∧
    ∃ ballot, t.ballot = some ballot ∧ ¬BallotRules.IsAnswered ballot

/-- A task that a recovery of the node may put back to ready: it is open, a lease
of the node that is not revoked names it, and no lease of another node that
outlives the recovery does. -/
structure Orphaned (nodeId : String) (w₀ : Program.Timed Board) (t : Task) : Prop where
  unended : ¬t.status.IsTerminal
  named : ∃ l ∈ w₀.state.leases.rows,
    l.nodeId = nodeId ∧ l.taskId = t.id ∧ l.status ≠ .revoked
  unheld : t.id ≠ "" → Unheld nodeId w₀ t.id

/-- The calls that put a task of the board they begin on back to ready, looking
neither at its dependencies nor at the landing gate. -/
inductive Call.Resumes (c : Call) (w₀ : Program.Timed Board) (t : Task) : Prop
  | release {req} (hc : c = .release t.id req) (hown : t.assignedTo = some req.nodeId)
  | retry (hretries : c.Retries t.id t) (hcap : t.attempts < taskRetryLimit)
  | answer {req} (hc : c = .answer t.id req) (hanswers : Answers req t)
  | recover {nodeId} (hc : c = .recover nodeId) (horphaned : Orphaned nodeId w₀ t)

/-- The kinds of call that may resume a task. -/
def Call.MayResume : Call → Prop
  | .release _ _ | .complete _ _ | .fail _ _ | .answer _ _ | .recover _ => True
  | _ => False

theorem Call.Resumes.mayResume {c : Call} {w₀ : Program.Timed Board} {t : Task}
    (h : c.Resumes w₀ t) : c.MayResume := by
  cases h with
  | retry hretries _ =>
      rcases hretries.2 with ⟨_, rfl, -⟩ | ⟨_, rfl, -⟩
      · trivial
      · trivial
  | release hc | answer hc | recover hc =>
      rw [hc]
      trivial

/-- The operations a call `c` that began on `w₀` issues on the board `b`. -/
inductive Issued (c : Call) (w₀ : Program.Timed Board) (b : Board) : StoreOp → Prop
  | idle {op} (hidle : Idle op) : Issued c w₀ b op
  | submit {taskId req} (hc : c = .submit taskId req) (hb : b = w₀.state) :
      Issued c w₀ b (.createTask (Tasks.submitPlan taskId req))
  | batch {plans} (hc : c = .createBatch plans) (hb : b = w₀.state) :
      Issued c w₀ b (.createTasksBatch plans)
  | close {taskId status reason t} (hready : status ≠ .ready) (hrunning : status ≠ .running)
      (hget : b.tasks.get? taskId = some t) (hguard : ¬ClusterState.Refuses t.status status) :
      Issued c w₀ b (.setTaskStatus taskId status reason)
  | promote {taskId t} (hget : b.tasks.get? taskId = some t) (hpending : t.status = .pending)
      (hdeps : DepsCompleted b.tasks t)
      (hgate : LandingGate.holdReason b.tasks.rows t = none) :
      Issued c w₀ b (.setTaskStatus taskId .ready "")
  | claim {taskId t} (hget : b.tasks.get? taskId = some t) (hready : t.status = .ready) :
      Issued c w₀ b (.setTaskStatus taskId .running "")
  | advance {taskId t} (hc : c = .advance taskId) (hget : b.tasks.get? taskId = some t)
      (hopen : ¬t.status.IsTerminal) (hdeps : DepsCompleted b.tasks t) :
      Issued c w₀ b (.setTaskStatus taskId .ready "")
  | release {taskId req t} (hc : c = .release taskId req) (hcalm : Calm w₀.state b)
      (hget : w₀.state.tasks.get? taskId = some t) (hown : t.assignedTo = some req.nodeId) :
      Issued c w₀ b (.setTaskStatus taskId .ready "")
  | retry {taskId reason t} (hretries : c.Retries taskId t) (hcalm : Calm w₀.state b)
      (hget : w₀.state.tasks.get? taskId = some t) :
      Issued c w₀ b (.requeueTask taskId reason)
  | resume {taskId req t} (hc : c = .answer taskId req) (hcalm : Calm w₀.state b)
      (hget : w₀.state.tasks.get? taskId = some t) (hanswers : Answers req t) :
      Issued c w₀ b (.unblockToReady taskId)
  | dependencies {taskId} {req : SetDependenciesRequest}
      (hc : c = .setDependencies taskId req) (hb : b = w₀.state) :
      Issued c w₀ b (.setDependencies taskId req.dependsOn)
  | unassign {taskId nodeId l} (hc : c = .recover nodeId) (hquiet : Quiet w₀.state b)
      (hl : l ∈ w₀.state.leases.rows) (hnode : l.nodeId = nodeId)
      (htask : l.taskId = taskId) (hstatus : l.status ≠ .revoked)
      (hothers : OthersKept nodeId w₀ b) : Issued c w₀ b (.unassignTask taskId)

end Issued

end HermesCluster
