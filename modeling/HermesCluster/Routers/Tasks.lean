import HermesCluster.Core.Ballot
import HermesCluster.Core.ReviewerGate
import HermesCluster.Lease.LeaseManager
import HermesCluster.Routers.SubmitGuards
/-!
# Task endpoints

The handlers of `routers/tasks.py` as programs over the store interface. No
handler awaits anything, so each runs without interruption; `_lease_manager` is
the one the application installs.
-/

namespace HermesCluster

/-- The JSON object a handler answers with; an absent key is `none`. -/
structure Reply where
  status : Option String := none
  task : Option Task := none
  deduped : Option Bool := none
  resultStored : Option Bool := none
  requeued : Option Bool := none
  refused : Option String := none
  reason : Option String := none
  blocked : Option (List String) := none
  phase : Option String := none
  requeue : Option Bool := none
  ballot : Option Ballot := none
  taskStatus : Option String := none
  formalActuation : Option FormalActuation := none
  claimedAt : Option Nat := none
  deriving DecidableEq, Repr

namespace Tasks

/-- `completed`, `failed`, `cancelled`: closed, unlike `cancel_requested`, which
waits for the worker. -/
def IsClosed (s : TaskStatus) : Prop :=
  s = .completed ∨ s = .failed ∨ s = .cancelled

instance : DecidablePred IsClosed := fun s =>
  inferInstanceAs (Decidable (s = .completed ∨ s = .failed ∨ s = .cancelled))

/-- `_LIVE_REVIEWER`. -/
def isLiveReviewer (s : TaskStatus) : Bool :=
  s = .pending || s = .ready || s = .assigned || s = .running || s = .cancelRequested

/-- `task = _state.get_task(task_id)`, or 404. -/
def requireTask (taskId : String) : Api Task := do
  match ← store (.getTask taskId) with
  | some task => pure task
  | none => httpError 404 "task not found"

/-- `lease = _lease_manager.get_by_task(task_id); if lease: revoke`. -/
def revokeLeaseOf (taskId : String) : Api Unit := do
  match ← LeaseManager.getByTask taskId with
  | none => pure ()
  | some lease =>
      let _ ← LeaseManager.revoke lease.id
      pure ()

/-- `all(... for dep_id in depends_on)`: stops at the first dependency that is
missing or not completed. -/
def allCompleted : List String → Api Bool
  | [] => pure true
  | dep :: deps => do
      match ← store (.getTask dep) with
      | some task => if task.status = .completed then allCompleted deps else pure false
      | none => pure false

/-! ## Submit -/

section Submit

variable [Unicode]

/-- The #872 guards: the brief must be about the target its lane names. -/
def checkBrief (req : SubmitTaskRequest) : Api Unit := do
  let fromDescription := !Text.isBlank req.description
  let brief := if fromDescription then req.description else req.title
  if req.laneKey ≠ "" ∧ Text.contains (Text.strip req.title) "\n" = true then
    httpError 422 (SubmitGuards.wrongColumnDetail req.laneKey)
  else
    match SubmitGuards.laneTarget req.laneKey with
    | none => pure ()
    | some target =>
        if SubmitGuards.briefNamesTarget brief target = false then
          httpError 422 (SubmitGuards.targetDetail req.laneKey target fromDescription)
        else
          let mismatches := SubmitGuards.actionRefMismatches brief target ++
            (if fromDescription then SubmitGuards.actionRefMismatches req.title target
              else [])
          if mismatches ≠ [] then
            httpError 422 (SubmitGuards.actionDetail req.laneKey target mismatches)
          else pure ()

/-- #898: the live reviewer task of the lane, if this submit would fork it. -/
def liveReviewer (req : SubmitTaskRequest) : Api (Option Task) := do
  if Unicode.lower (Text.strip req.role) = "reviewer" ∧ req.laneKey ≠ "" then
    let tasks ← store .getAllTasks
    pure (tasks.find? (fun t =>
      t.role = "reviewer" && t.laneKey = req.laneKey && isLiveReviewer t.status))
  else pure none

/-- #914: a landing may not be submitted on the reviewer lane of its artifact,
nor on a lane that authored it. -/
def checkLanding (req : SubmitTaskRequest) : Api Unit := do
  let probe : Task :=
    { id := "_probe", title := req.title, requires := req.requires,
      laneKey := req.laneKey, role := if req.role = "" then "author" else req.role,
      createdAt := 0, updatedAt := 0 }
  match LandingGate.landingArtifact probe with
  | none => pure ()
  | some (repo, n) =>
      let target := repo ++ "!" ++ n
      let lane := Text.strip req.laneKey
      if lane ≠ "" ∧ lane = target then
        httpError 409 (SubmitGuards.reviewerLaneDetail lane target)
      else if lane ≠ "" then do
        let tasks ← store .getAllTasks
        if lane ∈ LandingGate.authoringLanes tasks repo n "" then
          httpError 409 (SubmitGuards.authoringLaneDetail lane target)
        else pure ()
      else pure ()

omit [Unicode] in
/-- #907: a capability no schedulable node advertises is refused. -/
def checkCapabilities (req : SubmitTaskRequest) : Api Unit := do
  if req.requires = [] then pure ()
  else
    let nodes ← store .getAllNodes
    let unknown := SubmitGuards.unsatisfiableCapabilities nodes req.requires
    if unknown ≠ [] then
      httpError 422 (SubmitGuards.capabilityDetail unknown
        (SubmitGuards.knownCapabilities nodes))
    else pure ()

omit [Unicode] in
/-- The dependencies that name no task. -/
def missingDeps : List String → Api (List String)
  | [] => pure []
  | dep :: deps => do
      let task ← store (.getTask dep)
      let missing ← missingDeps deps
      pure (if task = none then dep :: missing else missing)

omit [Unicode] in
/-- The plan a submit hands to `create_task`. -/
def submitPlan (taskId : String) (req : SubmitTaskRequest) : TaskPlan where
  taskId := taskId
  title := req.title
  requires := req.requires
  dependsOn := req.dependsOn.filter (fun d => decide (d ≠ ""))
  priority := (req.priority.map (fun p => (p.val : Int))).getD defaultPriority
  laneKey := req.laneKey
  role := req.role
  description := req.description

/-- `submit_task`; `taskId` is the id `_generate_task_id` returns. -/
def submitTask (taskId : String) (req : SubmitTaskRequest) : Api Reply := do
  checkBrief req
  match ← liveReviewer req with
  | some t => pure { task := some t, deduped := some true }
  | none =>
      checkLanding req
      checkCapabilities req
      let plan := submitPlan taskId req
      let missing ← missingDeps plan.dependsOn
      if missing ≠ [] then httpError 422 (SubmitGuards.missingDepsDetail missing)
      else
        let task ← store (.createTask plan)
        let _ ← store .triggerPendingTasks
        let stored ← store (.getTask taskId)
        pure { task := some (stored.getD task) }

end Submit

/-! ## Ending a task -/

/-- One dependent of `_cascade_cancel_dependents`. -/
def cancelDependent (reason depId : String) : Api PUnit := do
  match ← store (.getTask depId) with
  | none => pure ⟨⟩
  | some dep =>
      if dep.status.IsTerminal then pure ⟨⟩
      else
        match ← LeaseManager.getByTask depId with
        | some lease =>
            let _ ← LeaseManager.revoke lease.id
            let _ ← store (.setTaskStatus depId .cancelRequested reason)
            pure ⟨⟩
        | none =>
            let _ ← store (.setTaskStatus depId .cancelled reason)
            pure ⟨⟩

/-- `_cascade_cancel_dependents`. -/
def cascadeCancelDependents (taskId reason : String) : Api (List String) := do
  let allDependents ← store (.getTriggerChain taskId)
  allDependents.forM (cancelDependent reason)
  pure allDependents

section Promotion

variable [Unicode]

/-- One dependent of `_trigger_downstream`. -/
def promoteDependent (depId : String) : Api PUnit := do
  match ← store (.getTask depId) with
  | none => pure ⟨⟩
  | some dep =>
      if dep.status ≠ .pending then pure ⟨⟩
      else
        let allDone ← allCompleted dep.dependsOn
        if allDone = false then pure ⟨⟩
        else
          let tasks ← store .getAllTasks
          match LandingGate.holdReason tasks dep with
          | some reason =>
              if dep.failReason.getD "" ≠ reason then
                let _ ← store (.setTaskStatus depId .pending reason)
                pure ⟨⟩
              else pure ⟨⟩
          | none =>
              let _ ← store (.setTaskStatus depId .ready "")
              pure ⟨⟩

/-- `_trigger_downstream`. -/
def triggerDownstream (taskId : String) : Api Unit := do
  let dependents ← store (.getDependents taskId)
  dependents.forM promoteDependent
  let _ ← store .schedulePendingDetailed
  pure ()

/-- The #919 branch of `complete_task`: refuse the completion, re-queue the task
or consume it at the retry cap. (`requeue_task` and `schedule_pending` raise on
no store, so the branches of their `except` are not reached.) -/
def refuseCompletion (taskId veto : String) : Api Reply := do
  revokeLeaseOf taskId
  let requeued ← store (.requeueTask taskId veto)
  if requeued = true then
    let _ ← store .schedulePendingDetailed
    pure { status := some "requeued", requeued := some true,
           refused := some "reviewer_no_verdict", reason := some veto }
  else
    let _ ← store (.setTaskStatus taskId .failed veto)
    let blocked ← cascadeCancelDependents taskId ("parent " ++ taskId ++ " failed (#919)")
    pure { status := some "failed", refused := some "reviewer_no_verdict",
           reason := some veto, blocked := some blocked }

/-- `complete_task`. -/
def completeTask (taskId : String) (req : Option CompleteTaskRequest) : Api Reply := do
  let task ← requireTask taskId
  if IsClosed task.status then
    httpError 409 ("task is already terminal (status=" ++ task.status.value ++ ")")
  else
    revokeLeaseOf taskId
    if task.status = .cancelRequested then
      let _ ← store (.setTaskStatus taskId .cancelled "cancelled")
      pure { status := some "cancelled" }
    else
      let result := req.bind CompleteTaskRequest.result
      let stored ← match result with
        | none => pure false
        | some _ => store (.setTaskResult taskId result)
      match ReviewerGate.reviewerCompletionVeto task result with
      | some veto => refuseCompletion taskId veto
      | none =>
          let _ ← store (.setTaskStatus taskId .completed "")
          triggerDownstream taskId
          pure { status := some "completed", resultStored := some stored }

/-- The last part of `complete_task`, once the result is stored. -/
def settleCompletion (taskId : String) (task : Task) (result : Option String)
    (stored : Bool) : Api Reply :=
  match ReviewerGate.reviewerCompletionVeto task result with
  | some veto => refuseCompletion taskId veto
  | none => do
      let _ ← store (.setTaskStatus taskId .completed "")
      triggerDownstream taskId
      pure { status := some "completed", resultStored := some stored }

/-- With or without a result to store, the last part is the same. -/
theorem completeTask_eq (taskId : String) (req : Option CompleteTaskRequest) :
    completeTask taskId req = (do
      let task ← requireTask taskId
      if IsClosed task.status then
        httpError 409 ("task is already terminal (status=" ++ task.status.value ++ ")")
      else
        revokeLeaseOf taskId
        if task.status = .cancelRequested then
          let _ ← store (.setTaskStatus taskId .cancelled "cancelled")
          pure { status := some "cancelled" }
        else
          let result := req.bind CompleteTaskRequest.result
          let stored ← match result with
            | none => pure false
            | some _ => store (.setTaskResult taskId result)
          settleCompletion taskId task result stored) :=
  rfl

/-- The consuming end of `fail_task`. -/
def consumeFailure (taskId reason : String) : Api Reply := do
  revokeLeaseOf taskId
  let _ ← store (.setTaskStatus taskId .failed reason)
  let blocked ← cascadeCancelDependents taskId ("parent " ++ taskId ++ " failed")
  pure { status := some "failed", blocked := some blocked }

/-- `fail_task`. -/
def failTask (taskId : String) (req : Option FailTaskRequest) : Api Reply := do
  let task ← requireTask taskId
  let reason := Text.strip ((req.map FailTaskRequest.reason).getD "")
  if reason = "" then
    httpError 422 ("fail requires a non-empty reason: a failed task with " ++
      "no reason attached is un-investigable (#858)")
  else if IsClosed task.status then
    httpError 409 ("task is already terminal (status=" ++ task.status.value ++ ")")
  else if task.status = .cancelRequested then
    let _ ← store (.setTaskStatus taskId .cancelled reason)
    pure { status := some "cancelled", blocked := some [] }
  else if (req.map FailTaskRequest.requeue).getD false = true then
    let requeued ← store (.requeueTask taskId reason)
    if requeued = true then
      let _ ← store .schedulePendingDetailed
      pure { status := some "requeued", requeued := some true, reason := some reason }
    else consumeFailure taskId reason
  else consumeFailure taskId reason

end Promotion

/-- `cancel_task`: at once without a lease, else in two phases. -/
def cancelTask (taskId : String) (req : Option CancelTaskRequest) : Api Reply := do
  let task ← requireTask taskId
  let reason := (req.map CancelTaskRequest.reason).getD "cancelled"
  let requeue := (req.bind CancelTaskRequest.requeue).getD false
  if task.status.IsTerminal then
    httpError 409 ("task is not cancelable (status=" ++ task.status.value ++ ")")
  else
    match ← LeaseManager.getByTask taskId with
    | none =>
        let _ ← store (.setTaskCancelRequeue taskId requeue)
        let _ ← store (.setTaskStatus taskId .cancelled reason)
        let _ ← cascadeCancelDependents taskId ("parent " ++ taskId ++ " cancelled")
        pure { status := some "cancelled", phase := some "immediate",
               requeue := some requeue }
    | some lease =>
        let _ ← LeaseManager.revoke lease.id
        let _ ← store (.setTaskCancelRequeue taskId requeue)
        let _ ← store (.setTaskStatus taskId .cancelRequested reason)
        let _ ← cascadeCancelDependents taskId ("parent " ++ taskId ++ " cancelled")
        pure { status := some "cancel_requested", phase := some "pending_ack",
               requeue := some requeue }

/-! ## Blocking and answering -/

/-- `unblock_task`. -/
def unblockTask (taskId : String) : Api Reply := do
  let unblocked ← store (.unblockTask taskId)
  if unblocked = false then httpError 400 "task not in blocked state"
  else pure { status := some "unblocked" }

section Ballots

variable [Unicode]

/-- `block_task`: the ballot is recorded before the status flips. -/
def blockTask (taskId : String) (req : BlockTaskRequest) : Api Reply := do
  let task ← requireTask taskId
  if task.status.IsTerminal then
    httpError 409 ("task is terminal (status=" ++ task.status.value ++
      "); a ballot cannot be filed")
  else if task.status = .blocked then
    httpError 409 "task is already blocked — one outstanding ballot per task"
  else
    let now ← store .utcnow
    match BallotRules.buildBallot now req.question req.options req.cls
        (if req.laneKey = "" then task.laneKey else req.laneKey)
        req.decisionRef req.decisionId with
    | .error e => httpError 422 e
    | .ok ballot =>
        revokeLeaseOf taskId
        let _ ← store (.setTaskBallot taskId (some ballot))
        let ok ← store (.setTaskStatus taskId .blocked "awaiting owner decision (ballot)")
        if ok = false then
          let _ ← store (.setTaskBallot taskId none)
          httpError 409 "task transitioned concurrently; not blocked"
        else pure { status := some "blocked", ballot := some ballot }

/-- `answer_task`: the task returns to ready, not to pending. -/
def answerTask (taskId : String) (req : AnswerTaskRequest) : Api Reply := do
  let task ← requireTask taskId
  match task.status, task.ballot with
  | .blocked, some outstanding =>
      match BallotRules.validateAnswer req.answer with
      | none => httpError 422 "answer must be a non-empty string"
      | some answer =>
          let now ← store .utcnow
          match BallotRules.recordAnswer now outstanding answer req.answeredBy with
          | .error e => httpError 409 e
          | .ok answered =>
              let ballot := BallotRules.attachFormal answered taskId
              let _ ← store (.setTaskBallot taskId (some ballot))
              let resumed ← store (.unblockToReady taskId)
              if resumed = false then
                pure { status := some "answered_but_not_resumed",
                       reason := some ("task status is " ++ task.status.value ++
                         "; answer recorded"),
                       formalActuation := ballot.formal }
              else
                pure { status := some "answered", taskStatus := some "ready",
                       ballot := some ballot, formalActuation := ballot.formal }
  | status, ballot =>
      httpError 409 ("no outstanding ballot (status=" ++ status.value ++ ", ballot=" ++
        (if ballot.isSome then "True" else "False") ++ ")")

end Ballots

/-! ## Operator and worker endpoints -/

/-- `manual_advance`: the operator's override, ungated by the landing gate. -/
def manualAdvance (taskId : String) : Api Reply := do
  let task ← requireTask taskId
  if task.status.IsTerminal then
    httpError 409 ("task is terminal (status=" ++ task.status.value ++ "), cannot advance")
  else
    let allDone ← allCompleted task.dependsOn
    if allDone = false then httpError 400 "dependencies not met"
    else
      let _ ← store (.setTaskStatus taskId .ready "")
      let _ ← store .schedulePendingDetailed
      pure { status := some "advanced" }

/-- `set_dependencies`. -/
def setDependencies (taskId : String) (req : SetDependenciesRequest) : Api Reply := do
  let _ ← requireTask taskId
  let _ ← store (.setDependencies taskId req.dependsOn)
  let task ← store (.getTask taskId)
  pure { task := task }

/-- `with _state._tasks_lock: …`, raising what the store raises. -/
def writeTaskRow (taskId : String) (assignedTo failReason : Option String) : Api Unit := do
  match ← store (.writeTaskRow taskId assignedTo failReason) with
  | .ok () => pure ()
  | .error e => .raise (.exception e)

/-- `claim_task`. -/
def claimTask (taskId : String) (req : ClaimTaskRequest) : Api Reply := do
  let task ← requireTask taskId
  if task.status ≠ .ready then
    httpError 409 ("task is not claimable (status=" ++ task.status.value ++ ")")
  else if task.assignedTo ≠ none then
    httpError 409 "task is already claimed"
  else
    let _ ← store (.setTaskStatus taskId .running "")
    writeTaskRow taskId (some req.nodeId) none
    let _ ← LeaseManager.create taskId req.nodeId
    let claimed ← store (.getTask taskId)
    pure { task := claimed, claimedAt := claimed.map Task.updatedAt }

/-- `release_task`. -/
def releaseTask (taskId : String) (req : ReleaseTaskRequest) : Api Reply := do
  let task ← requireTask taskId
  if task.assignedTo ≠ some req.nodeId then
    httpError 403 "task is not assigned to this node"
  else
    revokeLeaseOf taskId
    let transitioned ← store (.setTaskStatus taskId .ready "")
    if transitioned = false then
      httpError 409 ("task is terminal (status=" ++ task.status.value ++
        "), cannot release to ready")
    else
      writeTaskRow taskId none req.reason
      let released ← store (.getTask taskId)
      pure { task := released }

end Tasks

end HermesCluster
