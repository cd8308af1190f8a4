import HermesCluster.Routers.Runs
/-!
# What a handler may write

The statuses that a handler may write, whatever the store replies: a bound on
the operations of its program, with no look at any board.
-/

namespace HermesCluster

open Program hiding pure bind

theorem only_store {S : StoreOp → Prop} {α : Type} {op : StoreOp} {f : op.Res → Api α}
    (hop : S op) (h : ∀ r, (f r).Only S) : (store op >>= f).Only S :=
  only_perform hop h

/-- The operation writes a status only if it is in `P`; the passes, and the
operations that put a task back to ready, have conditions of their own. -/
def Writes (P : TaskStatus → Prop) : StoreOp → Prop
  | .setTaskStatus _ status _ => P status
  | .unblockTask _ => P .pending
  | .handleSyncMessage _ => False
  | _ => True

/-- The operation only reads. -/
def Reads : StoreOp → Prop
  | .utcnow | .getTask _ | .getAllTasks | .getAllNodes | .getDependents _ | .getTriggerChain _
  | .getLeaseByTask _ | .unleasedRunningTasks => True
  | _ => False

/-- What handlers ask for besides writes to rows of their own choice: reads, leases
and passes. -/
def Background : StoreOp → Prop
  | .createLease _ _ _ | .revokeLease _ | .triggerPendingTasks | .schedulePendingDetailed => True
  | op => Reads op

/-- What handlers ask for besides creations, results, plain writes of a status
and another attempt at a task. -/
def Routine : StoreOp → Prop
  | .createLease _ _ _ | .revokeLease _ | .setTaskBallot _ _ | .setTaskCancelRequeue _ _
  | .unblockToReady _ | .setDependencies _ _ | .writeTaskRow _ _ _
  | .triggerPendingTasks | .schedulePendingDetailed => True
  | op => Reads op

/-- The plans an operation is to create rows from. -/
def StoreOp.plans : StoreOp → List TaskPlan
  | .createTask plan => [plan]
  | .createTasksBatch plans => plans
  | _ => []

/-- `S` permits routine operations, and the statuses in `P` to be written. -/
structure Permits (P : TaskStatus → Prop) (S : StoreOp → Prop) : Prop where
  routine : ∀ {op}, Routine op → S op
  status : ∀ {status}, P status → ∀ {taskId reason}, S (.setTaskStatus taskId status reason)
  unblock : P .pending → ∀ {taskId}, S (.unblockTask taskId)

theorem background_of_reads {op : StoreOp} (h : Reads op) : Background op := by
  cases op <;> first | exact h | trivial

theorem routine_of_background {op : StoreOp} (h : Background op) : Routine op := by
  cases op <;> first | exact h | trivial

theorem routine_of_reads {op : StoreOp} (h : Reads op) : Routine op := by
  cases op <;> first | exact h | trivial

/-- `S` permits what happens beside the rows. -/
def Allows (S : StoreOp → Prop) : Prop :=
  ∀ {op}, Background op → S op

theorem Allows.reads {S : StoreOp → Prop} (h : Allows S) {op : StoreOp} (hop : Reads op) : S op :=
  h (background_of_reads hop)

/-- `S` permits what happens beside the rows, except that leases are made. -/
def Tends (S : StoreOp → Prop) : Prop :=
  ∀ {op}, Background op → (∀ taskId nodeId ttl, op ≠ .createLease taskId nodeId ttl) → S op

theorem Allows.tends {S : StoreOp → Prop} (h : Allows S) : Tends S :=
  fun hop _ => h hop

theorem Tends.reads {S : StoreOp → Prop} (h : Tends S) {op : StoreOp} (hop : Reads op) : S op := by
  refine h (background_of_reads hop) (fun _ _ _ heq => ?_)
  rw [heq] at hop
  exact hop

theorem Tends.revokeLease {S : StoreOp → Prop} (h : Tends S) {leaseId : Nat} :
    S (.revokeLease leaseId) :=
  h trivial (fun _ _ _ => nofun)

theorem Tends.pass {S : StoreOp → Prop} (h : Tends S) : S .schedulePendingDetailed :=
  h trivial (fun _ _ _ => nofun)

theorem Permits.allows {P : TaskStatus → Prop} {S : StoreOp → Prop} (h : Permits P S) : Allows S :=
  fun hop => h.routine (routine_of_background hop)

theorem Permits.tends {P : TaskStatus → Prop} {S : StoreOp → Prop} (h : Permits P S) : Tends S :=
  Allows.tends h.allows

theorem permits_writes {P : TaskStatus → Prop} : Permits P (Writes P) where
  routine {op} hop := by
    cases op <;> first | exact hop.elim | trivial
  status hstatus := hstatus
  unblock hpending := hpending

section Handlers

variable {S : StoreOp → Prop}

theorem only_requireTask (h : ∀ {op}, Reads op → S op) (taskId : String) :
    (Tasks.requireTask taskId).Only S := by
  unfold Tasks.requireTask
  refine only_store (h trivial) (fun r => ?_)
  cases r <;> trivial

theorem only_revokeLeaseOf (h : Tends S) (taskId : String) :
    (Tasks.revokeLeaseOf taskId).Only S := by
  unfold Tasks.revokeLeaseOf LeaseManager.getByTask
  split
  · trivial
  · refine only_store (h.reads trivial) (fun r => ?_)
    cases r with
    | none => trivial
    | some lease => exact only_store h.revokeLease (fun _ => trivial)

theorem only_allCompleted (h : ∀ {op}, Reads op → S op) (deps : List String) :
    (Tasks.allCompleted deps).Only S := by
  induction deps with
  | nil => trivial
  | cons dep deps ih =>
      refine only_store (h trivial) (fun r => ?_)
      cases r with
      | none => trivial
      | some t =>
          by_cases hdone : t.status = .completed
          · simp only [if_pos hdone]
            exact ih
          · simp only [if_neg hdone]
            trivial

theorem only_writeTaskRow {taskId : String} {assignedTo failReason : Option String}
    (hwrite : S (.writeTaskRow taskId assignedTo failReason)) :
    (Tasks.writeTaskRow taskId assignedTo failReason).Only S := by
  unfold Tasks.writeTaskRow
  refine only_store hwrite (fun r => ?_)
  split <;> trivial

theorem only_create (h : Allows S) (taskId nodeId : String) :
    (LeaseManager.create taskId nodeId).Only S := by
  unfold LeaseManager.create
  split
  · trivial
  · split
    · trivial
    · exact ⟨h trivial, fun _ => trivial⟩

theorem only_missingDeps (h : ∀ {op}, Reads op → S op) (deps : List String) :
    (Tasks.missingDeps deps).Only S := by
  induction deps with
  | nil => trivial
  | cons dep deps ih =>
      exact only_store (h trivial) (fun _ => only_bind ih (fun _ => only_pure _))

section

variable [Unicode]

theorem only_checkBrief (req : SubmitTaskRequest) : (Tasks.checkBrief req).Only S := by
  unfold Tasks.checkBrief
  dsimp only
  repeat' split
  all_goals trivial

theorem only_liveReviewer (h : ∀ {op}, Reads op → S op) (req : SubmitTaskRequest) :
    (Tasks.liveReviewer req).Only S := by
  unfold Tasks.liveReviewer
  split
  · exact only_store (h trivial) (fun _ => trivial)
  · trivial

theorem only_checkLanding (h : ∀ {op}, Reads op → S op) (req : SubmitTaskRequest) :
    (Tasks.checkLanding req).Only S := by
  unfold Tasks.checkLanding
  dsimp only
  split
  · trivial
  · split
    · trivial
    · split
      · refine only_store (h trivial) (fun _ => ?_)
        split <;> trivial
      · trivial

omit [Unicode] in
theorem only_checkCapabilities (h : ∀ {op}, Reads op → S op) (req : SubmitTaskRequest) :
    (Tasks.checkCapabilities req).Only S := by
  unfold Tasks.checkCapabilities
  split
  · trivial
  · refine only_store (h trivial) (fun _ => ?_)
    dsimp only
    split <;> trivial

theorem only_submitTask (h : Allows S) (taskId : String) (req : SubmitTaskRequest)
    (hcreate : S (.createTask (Tasks.submitPlan taskId req))) :
    (Tasks.submitTask taskId req).Only S := by
  unfold Tasks.submitTask
  refine only_bind (only_checkBrief req) (fun _ => ?_)
  refine only_bind (only_liveReviewer h.reads req) (fun reviewer => ?_)
  split
  · trivial
  · refine only_bind (only_checkLanding h.reads req) (fun _ => ?_)
    refine only_bind (only_checkCapabilities h.reads req) (fun _ => ?_)
    refine only_bind (only_missingDeps h.reads _) (fun missing => ?_)
    split
    · trivial
    · refine only_store hcreate (fun _ => ?_)
      exact only_store (h trivial) (fun _ =>
        only_store (h trivial) (fun _ => trivial))

omit [Unicode] in
theorem only_claimTask (h : Allows S) (taskId : String) (req : ClaimTaskRequest)
    (hrunning : S (.setTaskStatus taskId .running ""))
    (hwrite : ∀ assignedTo reason, S (.writeTaskRow taskId assignedTo reason)) :
    (Tasks.claimTask taskId req).Only S := by
  unfold Tasks.claimTask
  refine only_bind (only_requireTask h.reads taskId) (fun t => ?_)
  split
  · trivial
  · split
    · trivial
    · refine only_store hrunning (fun _ => ?_)
      refine only_bind (only_writeTaskRow (hwrite _ _)) (fun _ => ?_)
      refine only_bind (only_create h _ _) (fun _ => ?_)
      exact only_store (h trivial) (fun _ => trivial)

omit [Unicode] in
theorem only_releaseTask (h : Allows S) (taskId : String) (req : ReleaseTaskRequest)
    (hready : S (.setTaskStatus taskId .ready ""))
    (hwrite : ∀ assignedTo reason, S (.writeTaskRow taskId assignedTo reason)) :
    (Tasks.releaseTask taskId req).Only S := by
  unfold Tasks.releaseTask
  refine only_bind (only_requireTask h.reads taskId) (fun t => ?_)
  split
  · trivial
  · refine only_bind (only_revokeLeaseOf h.tends taskId) (fun _ => ?_)
    refine only_store hready (fun transitioned => ?_)
    split
    · trivial
    · refine only_bind (only_writeTaskRow (hwrite _ _)) (fun _ => ?_)
      exact only_store (h trivial) (fun _ => trivial)

theorem only_blockTask (h : Allows S) (taskId : String) (req : BlockTaskRequest)
    (hballot : ∀ ballot, S (.setTaskBallot taskId ballot))
    (hblocked : ∀ reason, S (.setTaskStatus taskId .blocked reason)) :
    (Tasks.blockTask taskId req).Only S := by
  unfold Tasks.blockTask
  refine only_bind (only_requireTask h.reads taskId) (fun t => ?_)
  split
  · trivial
  · split
    · trivial
    · refine only_store (h trivial) (fun now => ?_)
      split
      · trivial
      · refine only_bind (only_revokeLeaseOf h.tends taskId) (fun _ => ?_)
        refine only_store (hballot _) (fun _ => ?_)
        refine only_store (hblocked _) (fun ok => ?_)
        split
        · exact only_store (hballot _) (fun _ => trivial)
        · trivial

theorem only_answerTask (h : Allows S) (taskId : String) (req : AnswerTaskRequest)
    (hballot : ∀ ballot, S (.setTaskBallot taskId ballot)) (hresume : S (.unblockToReady taskId)) :
    (Tasks.answerTask taskId req).Only S := by
  unfold Tasks.answerTask
  refine only_bind (only_requireTask h.reads taskId) (fun t => ?_)
  split
  · split
    · trivial
    · refine only_store (h trivial) (fun now => ?_)
      split
      · trivial
      · refine only_store (hballot _) (fun _ => only_store hresume (fun resumed => ?_))
        split <;> trivial
  · trivial

omit [Unicode] in
theorem only_manualAdvance (h : Allows S) (taskId : String)
    (hready : S (.setTaskStatus taskId .ready "")) :
    (Tasks.manualAdvance taskId).Only S := by
  unfold Tasks.manualAdvance
  refine only_bind (only_requireTask h.reads taskId) (fun t => ?_)
  split
  · trivial
  · refine only_bind (only_allCompleted h.reads _) (fun allDone => ?_)
    split
    · trivial
    · exact only_store hready (fun _ => only_store (h trivial) (fun _ => trivial))

omit [Unicode] in
theorem only_setDependencies (h : Tends S) (taskId : String) (req : SetDependenciesRequest)
    (hdeps : S (.setDependencies taskId req.dependsOn)) :
    (Tasks.setDependencies taskId req).Only S := by
  unfold Tasks.setDependencies
  refine only_bind (only_requireTask h.reads taskId) (fun _ => ?_)
  exact only_store hdeps (fun _ => only_store (h.reads trivial) (fun _ => trivial))

/-! ### Ending a task -/

omit [Unicode] in
theorem only_cancelDependent (h : Tends S) (reason depId : String)
    (hcancel : ∀ taskId reason, S (.setTaskStatus taskId .cancelled reason) ∧
      S (.setTaskStatus taskId .cancelRequested reason)) :
    (Tasks.cancelDependent reason depId).Only S := by
  unfold Tasks.cancelDependent LeaseManager.getByTask
  refine only_store (h.reads trivial) (fun dep => ?_)
  cases dep with
  | none => trivial
  | some dep =>
      dsimp only
      split
      · trivial
      · refine only_bind ?_ (fun lease => ?_)
        · split
          · trivial
          · exact ⟨h.reads trivial, fun _ => trivial⟩
        · cases lease with
          | some lease =>
              exact only_store h.revokeLease (fun _ =>
                only_store (hcancel _ _).2 (fun _ => trivial))
          | none => exact only_store (hcancel _ _).1 (fun _ => trivial)

omit [Unicode] in
theorem only_cascadeCancelDependents (h : Tends S) (taskId reason : String)
    (hcancel : ∀ taskId reason, S (.setTaskStatus taskId .cancelled reason) ∧
      S (.setTaskStatus taskId .cancelRequested reason)) :
    (Tasks.cascadeCancelDependents taskId reason).Only S := by
  unfold Tasks.cascadeCancelDependents
  refine only_store (h.reads trivial) (fun dependents =>
    only_bind (only_forM dependents ?_) (fun _ => trivial))
  exact fun depId => only_cancelDependent h reason depId hcancel

theorem only_promoteDependent (h : Allows S) (depId : String)
    (hopen : ∀ taskId reason, S (.setTaskStatus taskId .ready reason) ∧
      S (.setTaskStatus taskId .pending reason)) :
    (Tasks.promoteDependent depId).Only S := by
  unfold Tasks.promoteDependent
  refine only_store (h trivial) (fun dep => ?_)
  cases dep with
  | none => trivial
  | some dep =>
      dsimp only
      split
      · trivial
      · refine only_bind (only_allCompleted h.reads _) (fun allDone => ?_)
        split
        · trivial
        · refine only_store (h trivial) (fun tasks => ?_)
          split
          · split
            · exact only_store (hopen _ _).2 (fun _ => trivial)
            · trivial
          · exact only_store (hopen _ _).1 (fun _ => trivial)

theorem only_triggerDownstream (h : Allows S) (taskId : String)
    (hopen : ∀ taskId reason, S (.setTaskStatus taskId .ready reason) ∧
      S (.setTaskStatus taskId .pending reason)) :
    (Tasks.triggerDownstream taskId).Only S := by
  unfold Tasks.triggerDownstream
  refine only_store (h trivial) (fun dependents =>
    only_bind (only_forM dependents ?_) (fun _ => ?_))
  · exact fun depId => only_promoteDependent h depId hopen
  · exact only_store (h trivial) (fun _ => trivial)

omit [Unicode] in
theorem only_refuseCompletion (h : Tends S) (taskId veto : String)
    (hfailed : ∀ reason, S (.setTaskStatus taskId .failed reason))
    (hcancel : ∀ taskId reason, S (.setTaskStatus taskId .cancelled reason) ∧
      S (.setTaskStatus taskId .cancelRequested reason))
    (hrequeue : S (.requeueTask taskId veto)) : (Tasks.refuseCompletion taskId veto).Only S := by
  unfold Tasks.refuseCompletion
  refine only_bind (only_revokeLeaseOf h taskId) (fun _ => only_store hrequeue (fun requeued => ?_))
  split
  · exact only_store h.pass (fun _ => trivial)
  · refine only_store (hfailed _) (fun _ => only_bind ?_ (fun _ => trivial))
    exact only_cascadeCancelDependents h _ _ hcancel

theorem only_completeTask (h : Allows S) (taskId : String)
    (req : Option CompleteTaskRequest)
    (hopen : ∀ taskId reason, S (.setTaskStatus taskId .ready reason) ∧
      S (.setTaskStatus taskId .pending reason))
    (hcompleted : ∀ reason, S (.setTaskStatus taskId .completed reason))
    (hfailed : ∀ reason, S (.setTaskStatus taskId .failed reason))
    (hcancel : ∀ taskId reason, S (.setTaskStatus taskId .cancelled reason) ∧
      S (.setTaskStatus taskId .cancelRequested reason))
    (hresult : ∀ result, S (.setTaskResult taskId result))
    (hrequeue : ∀ reason, S (.requeueTask taskId reason)) :
    (Tasks.completeTask taskId req).Only S := by
  rw [Tasks.completeTask_eq]
  refine only_bind (only_requireTask h.reads taskId) (fun t => ?_)
  split
  · trivial
  · refine only_bind (only_revokeLeaseOf h.tends taskId) (fun _ => ?_)
    split
    · exact only_store (hcancel _ _).1 (fun _ => trivial)
    · have hrest : ∀ stored : Bool,
          (Tasks.settleCompletion taskId t (req.bind CompleteTaskRequest.result) stored).Only
            S := by
        intro stored
        unfold Tasks.settleCompletion
        split
        · exact only_refuseCompletion h.tends _ _ hfailed hcancel (hrequeue _)
        · refine only_store (hcompleted _) (fun _ => only_bind ?_ (fun _ => trivial))
          exact only_triggerDownstream h taskId hopen
      dsimp only
      split
      · exact hrest false
      · exact only_store (hresult _) hrest

omit [Unicode] in
theorem only_consumeFailure (h : Tends S) (taskId reason : String)
    (hfailed : ∀ reason, S (.setTaskStatus taskId .failed reason))
    (hcancel : ∀ taskId reason, S (.setTaskStatus taskId .cancelled reason) ∧
      S (.setTaskStatus taskId .cancelRequested reason)) :
    (Tasks.consumeFailure taskId reason).Only S := by
  unfold Tasks.consumeFailure
  refine only_bind (only_revokeLeaseOf h taskId) (fun _ =>
    only_store (hfailed _) (fun _ => ?_))
  refine only_bind ?_ (fun _ => trivial)
  exact only_cascadeCancelDependents h _ _ hcancel

theorem only_failTask (h : Tends S) (taskId : String) (req : Option FailTaskRequest)
    (hfailed : ∀ reason, S (.setTaskStatus taskId .failed reason))
    (hcancel : ∀ taskId reason, S (.setTaskStatus taskId .cancelled reason) ∧
      S (.setTaskStatus taskId .cancelRequested reason))
    (hrequeue : ∀ reason, S (.requeueTask taskId reason)) :
    (Tasks.failTask taskId req).Only S := by
  unfold Tasks.failTask
  refine only_bind (only_requireTask h.reads taskId) (fun t => ?_)
  dsimp only
  split
  · trivial
  split
  · trivial
  split
  · exact only_store (hcancel _ _).1 (fun _ => trivial)
  split
  · refine only_store (hrequeue _) (fun requeued => ?_)
    split
    · exact only_store h.pass (fun _ => trivial)
    · exact only_consumeFailure h _ _ hfailed hcancel
  · exact only_consumeFailure h _ _ hfailed hcancel

omit [Unicode] in
theorem only_cancelTask (h : Tends S) (taskId : String) (req : Option CancelTaskRequest)
    (hcancel : ∀ taskId reason, S (.setTaskStatus taskId .cancelled reason) ∧
      S (.setTaskStatus taskId .cancelRequested reason))
    (hrequeue : ∀ requeue, S (.setTaskCancelRequeue taskId requeue)) :
    (Tasks.cancelTask taskId req).Only S := by
  unfold Tasks.cancelTask LeaseManager.getByTask
  refine only_bind (only_requireTask h.reads taskId) (fun t => ?_)
  dsimp only
  split
  · trivial
  · refine only_bind ?_ (fun lease => ?_)
    · split
      · trivial
      · exact ⟨h.reads trivial, fun _ => trivial⟩
    · have hcascade := fun reason =>
        only_cascadeCancelDependents h taskId reason hcancel
      cases lease with
      | none =>
          refine only_store (hrequeue _) (fun _ => only_store (hcancel _ _).1 (fun _ => ?_))
          exact only_bind (hcascade _) (fun _ => trivial)
      | some lease =>
          refine only_store h.revokeLease (fun _ => only_store (hrequeue _) (fun _ => ?_))
          refine only_store (hcancel _ _).2 (fun _ => ?_)
          exact only_bind (hcascade _) (fun _ => trivial)

omit [Unicode] in
theorem only_unblockTask {taskId : String} (hunblock : S (.unblockTask taskId)) :
    (Tasks.unblockTask taskId).Only S := by
  unfold Tasks.unblockTask
  refine only_store hunblock (fun unblocked => ?_)
  split <;> trivial

end

end Handlers

/-! ## Parts of handlers that leave the tasks alone -/

section Parts

variable [Unicode] {k : Backend} {A : Timed Board → StoreOp → Prop} {α : Type} {w : Timed Board}
  {C : (op : StoreOp) → Timed Board → op.Res → Timed Board → Prop}
  {Q : Except ApiError α → Timed Board → Prop}

theorem wp_requireTask (hC : ∀ {op w r w'}, C op w r w' → Contract k op w r w')
    (hA : ∀ {w op}, Reads op → A w op) {taskId : String} {f : Task → Api α}
    (hnone : ∀ w', w'.state = w.state → w.state.tasks.get? taskId = none →
      Q (.error (.http 404 "task not found")) w')
    (h : ∀ t w', w'.state = w.state → w.state.tasks.get? taskId = some t →
      (f t).Wp C A w' Q) : (Tasks.requireTask taskId >>= f).Wp C A w Q := by
  rw [Tasks.requireTask, bind_assoc]
  refine wp_perform.mpr ⟨hA trivial, fun r w' hstep => ?_⟩
  obtain ⟨rfl, hsame⟩ := (hC hstep).reply
  cases hget : w.state.tasks.get? taskId with
  | none => exact hnone w' hsame hget
  | some t => exact h t w' hsame hget

theorem wp_getByTask (hC : ∀ {op w r w'}, C op w r w' → Contract k op w r w')
    (hA : ∀ {w op}, Reads op → A w op) {taskId : String} {f : Option Lease → Api α}
    (h : ∀ lease w', w'.state = w.state → (f lease).Wp C A w' Q) :
    (LeaseManager.getByTask taskId >>= f).Wp C A w Q := by
  unfold LeaseManager.getByTask
  split
  · exact h none w rfl
  · exact wp_perform.mpr ⟨hA trivial, fun r w' hstep => h r w' (hC hstep).reply⟩

theorem wp_revokeLeaseOf (hC : ∀ {op w r w'}, C op w r w' → Contract k op w r w')
    (hA : ∀ {w op}, Background op → A w op) {taskId : String} {f : Unit → Api α}
    (h : ∀ w', w'.state.tasks = w.state.tasks → (f ()).Wp C A w' Q) :
    (Tasks.revokeLeaseOf taskId >>= f).Wp C A w Q := by
  rw [Tasks.revokeLeaseOf, bind_assoc]
  refine wp_getByTask hC (fun hop => hA (background_of_reads hop)) (fun lease w₁ hsame => ?_)
  cases lease with
  | none => exact h w₁ (congrArg Board.tasks hsame)
  | some lease =>
      refine wp_perform.mpr ⟨hA trivial, fun _ w₂ hstep => h w₂ ?_⟩
      rw [(hC hstep).reply, hsame]

/-- Looking at dependencies leaves the board alone, and does not fail; it answers for
the board it reads. -/
theorem wp_allCompleted (hC : ∀ {op w r w'}, C op w r w' → Contract k op w r w')
    (hA : ∀ {w op}, Reads op → A w op) {deps : List String} {f : Bool → Api α}
    (h : ∀ allDone w', w'.state = w.state →
      (allDone = true → ∀ dep ∈ deps,
        (w.state.tasks.get? dep).map Task.status = some .completed) →
      (f allDone).Wp C A w' Q) :
    (Tasks.allCompleted deps >>= f).Wp C A w Q := by
  induction deps generalizing w with
  | nil => exact h true w rfl (fun _ dep hdep => by cases hdep)
  | cons dep deps ih =>
      rw [Tasks.allCompleted, bind_assoc]
      refine wp_perform.mpr ⟨hA trivial, fun r w' hstep => ?_⟩
      obtain ⟨rfl, hsame⟩ := (hC hstep).reply
      cases hget : w.state.tasks.get? dep with
      | none => exact h false w' hsame (fun hfalse => by cases hfalse)
      | some t =>
          by_cases hdone : t.status = .completed
          · simp only [if_pos hdone]
            refine ih (fun allDone w'' hsame' hall => h allDone w'' (hsame'.trans hsame) ?_)
            rw [hsame] at hall
            intro htrue dep' hdep'
            rcases List.mem_cons.mp hdep' with rfl | hmem
            · rw [hget, Option.map_some, hdone]
            · exact hall htrue dep' hmem
          · simp only [if_neg hdone]
            exact h false w' hsame (fun hfalse => by cases hfalse)

theorem reply_of_reads {op : StoreOp} {r : op.Res} {w' : Timed Board} (hop : Reads op)
    (hstep : Contract k op w r w') : w'.state = w.state := by
  have hreply := hstep.reply
  cases op <;> first | exact hop.elim | exact hreply.2 | exact hreply

theorem wp_bind_of_reads (hC : ∀ {op w r w'}, C op w r w' → Contract k op w r w')
    (hA : ∀ {w op}, Reads op → A w op) {α' : Type} {p : Api α'} (h : p.Only Reads)
    {f : α' → Api α} (hraise : ∀ e w', w'.state = w.state → Q (.error e) w')
    (hf : ∀ a w', w'.state = w.state → (f a).Wp C A w' Q) : (p >>= f).Wp C A w Q := by
  induction p generalizing w with
  | pure a => exact hf a w rfl
  | raise e => exact hraise e w rfl
  | call op next ih =>
      refine wp_perform.mpr ⟨hA h.1, fun r w' hstep => ?_⟩
      have hsame := reply_of_reads h.1 (hC hstep)
      refine ih r (h.2 r) (fun e w'' hsame' => hraise e w'' (hsame'.trans hsame))
        (fun a w'' hsame' => hf a w'' (hsame'.trans hsame))

end Parts

/-! ## Recoveries -/

/-- What a recovery may ask for: beside reads, leases are revoked, tasks put back
to ready, given to a node by a pass, or failed. -/
def Recovering : StoreOp → Prop
  | .setTaskStatus _ status _ => status = .failed
  | .getTask _ | .getActiveLeases | .getExpiredLeases | .unleasedRunningTasks
  | .unassignTask _ | .schedulePendingDetailed | .revokeLease _ => True
  | _ => False

theorem only_rescheduleStep (n : Nat) (taskId : String) :
    (Recovery.rescheduleStep n taskId).Only Recovering := by
  have hfail : (Recovery.markFailed taskId).Only Recovering :=
    only_store rfl (fun _ => trivial)
  unfold Recovery.rescheduleStep
  refine only_store trivial (fun task => ?_)
  cases task with
  | none => trivial
  | some _ =>
      refine only_store trivial (fun unassigned => ?_)
      split
      · trivial
      · refine only_store trivial (fun scheduled => ?_)
        split
        · refine only_store trivial (fun task => ?_)
          split
          · trivial
          · exact only_bind hfail (fun _ => trivial)
        · exact only_bind hfail (fun _ => trivial)

theorem only_triggerRecovery (nodeId : String) :
    (Recovery.triggerRecovery nodeId).Only Recovering := by
  unfold Recovery.triggerRecovery Recovery.revokeAllForNode
  refine only_bind (only_store trivial (fun active => only_store trivial (fun expired => ?_)))
    (fun taskIds => ?_)
  · refine only_bind (only_foldlM _ (fun st lease => ?_) _) (fun _ => trivial)
    unfold Recovery.revokeStep
    split
    · trivial
    · exact only_store trivial (fun _ => trivial)
  · split
    · trivial
    · exact only_bind (only_foldlM taskIds only_rescheduleStep 0) (fun _ => trivial)

theorem only_detectExpiredLeases (order : Recovery.SetOrder) :
    (Recovery.detectExpiredLeases order).Only Recovering := by
  unfold Recovery.detectExpiredLeases
  refine only_store trivial (fun active => only_store trivial (fun expired => ?_))
  refine only_bind (only_forM _ (fun nodeId => ?_)) (fun _ => ?_)
  · exact only_bind (only_triggerRecovery nodeId) (fun _ => trivial)
  · exact only_store trivial (fun _ => trivial)

/-! ## Calls -/

section Calls

variable [Unicode] {P : TaskStatus → Prop} {S : StoreOp → Prop}

/-- What a call may write: beside routine operations, creations and recoveries,
it starts a task only if it is a claim, and completes one only if it is a
completion. -/
theorem Call.only (c : Call) (h : Permits P S) (hrecover : ∀ {op}, Recovering op → S op)
    (hcreate : ∀ plan, S (.createTask plan)) (hbatch : ∀ plans, S (.createTasksBatch plans))
    (hrequeue : ∀ taskId reason, S (.requeueTask taskId reason))
    (hstatus : ∀ {status}, ¬status.IsActive → status ≠ .completed → P status)
    (hclaim : ∀ taskId req, c = .claim taskId req → P .running)
    (hcomplete : ∀ taskId req, c = .complete taskId req →
      P .completed ∧ ∀ result, S (.setTaskResult taskId result)) : c.prog.Only S := by
  have hdone : ∀ {α : Type} {p : Api α}, p.Only S → (p >>= fun _ => pure ()).Only S :=
    fun hp => only_bind hp (fun _ => only_pure ())
  have hfailed : ∀ taskId reason, S (.setTaskStatus taskId .failed reason) :=
    fun _ _ => h.status (hstatus (by decide) (by decide))
  have hcancel : ∀ taskId reason, S (.setTaskStatus taskId .cancelled reason) ∧
      S (.setTaskStatus taskId .cancelRequested reason) :=
    fun _ _ => ⟨h.status (hstatus (by decide) (by decide)),
      h.status (hstatus (by decide) (by decide))⟩
  have hopen : ∀ taskId reason, S (.setTaskStatus taskId .ready reason) ∧
      S (.setTaskStatus taskId .pending reason) :=
    fun _ _ => ⟨h.status (hstatus (by decide) (by decide)),
      h.status (hstatus (by decide) (by decide))⟩
  have hwrite : ∀ taskId assignedTo reason, S (.writeTaskRow taskId assignedTo reason) :=
    fun _ _ _ => h.routine trivial
  cases c with
  | submit taskId req => exact hdone (only_submitTask h.allows taskId req (hcreate _))
  | createBatch plans => exact only_store (hbatch plans) (fun _ => trivial)
  | claim taskId req => exact hdone (only_claimTask h.allows taskId req
      (h.status (hclaim taskId req rfl)) (hwrite taskId))
  | release taskId req => exact hdone (only_releaseTask h.allows taskId req
      (hopen taskId "").1 (hwrite taskId))
  | complete taskId req =>
      obtain ⟨hcompleted, hresult⟩ := hcomplete taskId req rfl
      exact hdone (only_completeTask h.allows taskId req hopen (fun _ => h.status hcompleted)
        (hfailed taskId) hcancel hresult (hrequeue taskId))
  | fail taskId req => exact hdone (only_failTask h.tends taskId req (hfailed taskId) hcancel
      (hrequeue taskId))
  | cancel taskId req => exact hdone (only_cancelTask h.tends taskId req hcancel
      (fun _ => h.routine trivial))
  | block taskId req =>
      exact hdone (only_blockTask h.allows taskId req (fun _ => h.routine trivial)
        (fun _ => h.status (hstatus (by decide) (by decide))))
  | answer taskId req => exact hdone (only_answerTask h.allows taskId req
      (fun _ => h.routine trivial) (h.routine trivial))
  | unblock taskId =>
      exact hdone (only_unblockTask (h.unblock (hstatus (by decide) (by decide))))
  | advance taskId => exact hdone (only_manualAdvance h.allows taskId (hopen taskId "").1)
  | setDependencies taskId req => exact hdone (only_setDependencies h.tends taskId req
      (h.routine trivial))
  | triggerPending => exact only_store (h.routine trivial) (fun _ => trivial)
  | schedulePass => exact only_store (h.routine trivial) (fun _ => trivial)
  | recover nodeId => exact hdone ((only_triggerRecovery nodeId).mono (fun _ => hrecover))
  | sweep order => exact hdone ((only_detectExpiredLeases order).mono (fun _ => hrecover))

omit [Unicode] in
/-- The operations beside reads, leases and passes that a call may ask for; most
name the call's own task. -/
def Footprint (c : Call) : StoreOp → Prop
  | .createTask plan => ∃ req, c = .submit plan.taskId req
  | .createTasksBatch plans => c = .createBatch plans
  | .setTaskStatus taskId status _ =>
      (status = .running → ∃ req, c = .claim taskId req) ∧
        (status = .completed → ∃ req, c = .complete taskId req) ∧
        (status = .blocked → ∃ req, c = .block taskId req) ∧ status ≠ .assigned
  | .setTaskResult taskId _ => ∃ req, c = .complete taskId req
  | .setTaskBallot taskId _ => (∃ req, c = .block taskId req) ∨ ∃ req, c = .answer taskId req
  | .setTaskCancelRequeue taskId _ => ∃ req, c = .cancel taskId req
  | .writeTaskRow taskId _ _ => (∃ req, c = .claim taskId req) ∨ ∃ req, c = .release taskId req
  | .setDependencies taskId _ => ∃ req, c = .setDependencies taskId req
  | .requeueTask taskId _ => (∃ req, c = .complete taskId req) ∨ ∃ req, c = .fail taskId req
  | .unblockTask taskId => c = .unblock taskId
  | .unblockToReady taskId => ∃ req, c = .answer taskId req
  | .unassignTask _ => (∃ nodeId, c = .recover nodeId) ∨ ∃ order, c = .sweep order
  | .handleSyncMessage _ => False
  | _ => True

theorem Call.footprint (c : Call) : c.prog.Only (Footprint c) := by
  have hdone : ∀ {α : Type} {p : Api α}, p.Only (Footprint c) →
      (p >>= fun _ => pure ()).Only (Footprint c) :=
    fun hp => only_bind hp (fun _ => only_pure ())
  have hallows : Allows (Footprint c) := by
    intro op hop
    cases op <;> first | exact hop.elim | trivial
  have hplain : ∀ {status}, status ∉ [TaskStatus.running, .completed, .blocked, .assigned] →
      ∀ taskId reason, Footprint c (.setTaskStatus taskId status reason) := by
    intro status hstatus taskId reason
    simp only [List.mem_cons, List.not_mem_nil, or_false, not_or] at hstatus
    obtain ⟨hrunning, hcompleted, hblocked, hassigned⟩ := hstatus
    exact ⟨fun h => absurd h hrunning, fun h => absurd h hcompleted,
      fun h => absurd h hblocked, hassigned⟩
  have hfailed : ∀ taskId reason, Footprint c (.setTaskStatus taskId .failed reason) :=
    hplain (by decide)
  have hcancel : ∀ taskId reason, Footprint c (.setTaskStatus taskId .cancelled reason) ∧
      Footprint c (.setTaskStatus taskId .cancelRequested reason) :=
    fun taskId reason => ⟨hplain (by decide) taskId reason, hplain (by decide) taskId reason⟩
  have hopen : ∀ taskId reason, Footprint c (.setTaskStatus taskId .ready reason) ∧
      Footprint c (.setTaskStatus taskId .pending reason) :=
    fun taskId reason => ⟨hplain (by decide) taskId reason, hplain (by decide) taskId reason⟩
  have hrecover : (∃ nodeId, c = .recover nodeId) ∨ (∃ order, c = .sweep order) →
      ∀ op, Recovering op → Footprint c op := by
    intro hc op hop
    cases op with
    | setTaskStatus taskId status reason =>
        obtain rfl : status = .failed := hop
        exact hfailed taskId reason
    | unassignTask => exact hc
    | _ => first | exact hop.elim | trivial
  cases c with
  | submit taskId req => exact hdone (only_submitTask hallows taskId req ⟨req, rfl⟩)
  | createBatch plans => exact only_store rfl (fun _ => trivial)
  | claim taskId req =>
      exact hdone (only_claimTask hallows taskId req
        ⟨fun _ => ⟨req, rfl⟩, nofun, nofun, nofun⟩ (fun _ _ => .inl ⟨req, rfl⟩))
  | release taskId req =>
      exact hdone (only_releaseTask hallows taskId req (hopen taskId "").1
        (fun _ _ => .inr ⟨req, rfl⟩))
  | complete taskId req =>
      exact hdone (only_completeTask hallows taskId req hopen
        (fun _ => ⟨nofun, fun _ => ⟨req, rfl⟩, nofun, nofun⟩) (hfailed taskId) hcancel
        (fun _ => ⟨req, rfl⟩) (fun _ => .inl ⟨req, rfl⟩))
  | fail taskId req =>
      exact hdone (only_failTask hallows.tends taskId req (hfailed taskId) hcancel
        (fun _ => .inr ⟨req, rfl⟩))
  | cancel taskId req =>
      exact hdone (only_cancelTask hallows.tends taskId req hcancel (fun _ => ⟨req, rfl⟩))
  | block taskId req =>
      exact hdone (only_blockTask hallows taskId req (fun _ => .inl ⟨req, rfl⟩)
        (fun _ => ⟨nofun, nofun, fun _ => ⟨req, rfl⟩, nofun⟩))
  | answer taskId req =>
      exact hdone (only_answerTask hallows taskId req (fun _ => .inr ⟨req, rfl⟩) ⟨req, rfl⟩)
  | unblock taskId => exact hdone (only_unblockTask rfl)
  | advance taskId => exact hdone (only_manualAdvance hallows taskId (hopen taskId "").1)
  | setDependencies taskId req =>
      exact hdone (only_setDependencies hallows.tends taskId req ⟨req, rfl⟩)
  | triggerPending => exact only_store trivial (fun _ => trivial)
  | schedulePass => exact only_store trivial (fun _ => trivial)
  | recover nodeId =>
      exact hdone ((only_triggerRecovery nodeId).mono (hrecover (.inl ⟨nodeId, rfl⟩)))
  | sweep order =>
      exact hdone ((only_detectExpiredLeases order).mono (hrecover (.inr ⟨order, rfl⟩)))

end Calls

end HermesCluster
