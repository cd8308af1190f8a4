import HermesCluster.Routers.IntakeRuns
import HermesCluster.Routers.Terminality
/-!
# What becomes of the issues of a bundle that ended

The view of the store holds the issues of a bundle that was cancelled without a
wish to requeue, and lets go of those of a bundle that failed or was cancelled
with one. The wish is a column of the ended row, which nothing writes again.
-/

namespace HermesCluster

open Program hiding pure bind

/-! ## Rows that have ended -/

/-- A row keeps how it ended, its issues and the recorded wish; a requested
cancellation may be acknowledged. -/
structure KeepsEnd (t t' : Task) : Prop where
  status : t'.status = t.status ∨ (t.status = .cancelRequested ∧ t'.status = .cancelled)
  issues : t'.issues = t.issues
  cancelRequeue : t'.cancelRequeue = t.cancelRequeue

theorem KeepsEnd.refl (t : Task) : KeepsEnd t t :=
  ⟨.inl rfl, rfl, rfl⟩

theorem KeepsEnd.staysEnded {t t' : Task} (h : KeepsEnd t t') : StaysEnded t t' :=
  fun _ => h.status

theorem isTerminal_of_cancelling {s : TaskStatus} (h : s = .cancelled ∨ s = .cancelRequested) :
    s.IsTerminal := by
  rcases h with rfl | rfl
  · exact .inr (.inr (.inl rfl))
  · exact .inr (.inr (.inr rfl))

theorem KeepsEnd.cancelling {t t' : Task} (h : KeepsEnd t t')
    (hcancelling : t.status = .cancelled ∨ t.status = .cancelRequested) :
    t'.status = .cancelled ∨ t'.status = .cancelRequested := by
  rcases h.status with heq | ⟨-, heq⟩
  · rw [heq]
    exact hcancelling
  · exact .inl heq

theorem KeepsEnd.trans {t t' t'' : Task} (h : KeepsEnd t t') (h' : KeepsEnd t' t'') :
    KeepsEnd t t'' where
  status := by
    rcases h.status with heq | ⟨hrequested, heq⟩
    · rw [← heq]
      exact h'.status
    · rcases h'.status with heq' | ⟨hrequested', -⟩
      · exact .inr ⟨hrequested, heq'.trans heq⟩
      · rw [heq] at hrequested'
        cases hrequested'
  issues := h'.issues.trans h.issues
  cancelRequeue := h'.cancelRequeue.trans h.cancelRequeue

/-- The row is stored, as it ended. -/
def EndStored (t : Task) (b : Board) : Prop :=
  ∃ t', b.tasks.get? t.id = some t' ∧ KeepsEnd t t'

theorem EndStored.of_tasks_eq {t : Task} {b b' : Board} (h : EndStored t b)
    (hsame : b'.tasks = b.tasks) : EndStored t b' := by
  unfold EndStored
  rwa [hsame]

/-- A cancelled bundle that is not to be taken up again. -/
def HeldBack (t : Task) : Prop :=
  (t.status = .cancelled ∨ t.status = .cancelRequested) ∧ t.cancelRequeue = some false

/-- A bundle that failed, or was cancelled without a word against taking it up
again. -/
def LetGo (t : Task) : Prop :=
  t.status = .failed ∨ (t.status = .cancelled ∧ t.cancelRequeue ≠ some false)

theorem HeldBack.isTerminal {t : Task} (h : HeldBack t) : t.status.IsTerminal :=
  isTerminal_of_cancelling h.1

theorem LetGo.isTerminal {t : Task} (h : LetGo t) : t.status.IsTerminal := by
  rcases h with heq | ⟨heq, -⟩
  · exact .inr (.inl heq)
  · exact .inr (.inr (.inl heq))

theorem HeldBack.holdsIssues {t t' : Task} (h : HeldBack t) (hkept : KeepsEnd t t') :
    Intake.HoldsIssues t' := by
  rcases hkept.cancelling h.1 with hcancelled | hrequested
  · exact .inr (.inl ⟨hcancelled, hkept.cancelRequeue.trans h.2⟩)
  · exact .inr (.inr (by simp [hrequested, Intake.issueHoldingStatuses]))

theorem LetGo.kept {t t' : Task} (h : LetGo t) (hkept : KeepsEnd t t') : LetGo t' := by
  unfold LetGo at h ⊢
  rw [hkept.cancelRequeue]
  rcases hkept.status with heq | ⟨hrequested, -⟩
  · rwa [heq]
  · rw [hrequested] at h
    simp at h

theorem LetGo.not_holdsIssues {t : Task} (h : LetGo t) : ¬Intake.HoldsIssues t := by
  unfold Intake.HoldsIssues Intake.issueHoldingStatuses
  rcases h with heq | ⟨heq, hwish⟩
  · rw [heq]
    simp
  · rw [heq]
    simp [hwish]

/-! ## One operation -/

section Steps

variable [Unicode] {k : Backend} {now : Nat} {b b' : Board} {op : StoreOp} {t t' : Task}

/-- The operation neither writes a status over the end of the row nor records
another wish. -/
def LeavesEnd (k : Backend) (t : Task) (b : Board) (op : StoreOp) : Prop :=
  (∀ t', b.tasks.get? t.id = some t' → ¬WritesOverEnded k op t') ∧
    ∀ requeue, op ≠ .setTaskCancelRequeue t.id requeue

theorem Change.keepsEnd (h : Change k now b op t t') (hended : t.status.IsTerminal)
    (hop : ¬WritesOverEnded k op t)
    (hwish : ∀ requeue, op ≠ .setTaskCancelRequeue t.id requeue) : KeepsEnd t t' := by
  have hstatus := h.staysEnded hop hended
  cases h with
  | cancelRequeue hid =>
      subst hid
      exact absurd rfl (hwish _)
  | replace hmemory hid => exact absurd ⟨hmemory, hid⟩ hop
  | replaceBatch hmemory hplan hid => exact absurd ⟨hmemory, _, hplan, hid⟩ hop
  | _ => exact ⟨hstatus, rfl, rfl⟩

theorem EndStored.step (h : EndStored t b) (hended : t.status.IsTerminal)
    (hop : LeavesEnd k t b op)
    (hevolves : b.tasks.Evolves (Rewrites k now b op) (Created k now op) b'.tasks) :
    EndStored t b' := by
  obtain ⟨t₁, hget, hkept⟩ := h
  obtain ⟨t₂, hget', hrow⟩ := hevolves.get?_of_get? (fun _ _ hrow => hrow.id_eq) hget
  refine ⟨t₂, hget', hkept.trans ?_⟩
  rcases hrow with rfl | hchange
  · exact KeepsEnd.refl t₂
  · refine hchange.keepsEnd (hkept.staysEnded.isTerminal hended) (hop.1 t₁ hget) ?_
    rw [show t₁.id = t.id from Table.key_of_get? hget]
    exact hop.2

end Steps

/-! ## What the view makes of it -/

section View

variable [Unicode] {b : Board} {t : Task}

theorem HeldBack.mem_blocked (h : HeldBack t) (hstored : EndStored t b) {id : String}
    (hid : id ∈ t.issues) : id ∈ (Intake.groupingView b.tasks.rows).blocked := by
  obtain ⟨t', hget, hkept⟩ := hstored
  refine List.mem_flatMap.mpr ⟨t', List.mem_filter.mpr ⟨Table.mem_of_get? hget, ?_⟩, ?_⟩
  · exact decide_eq_true (h.holdsIssues hkept)
  · rw [hkept.issues]
    exact hid

/-- Another task holds the issue. -/
def HeldElsewhere (taskId : String) (rows : List Task) (id : String) : Prop :=
  ∃ u ∈ rows, u.id ≠ taskId ∧ Intake.HoldsIssues u ∧ id ∈ u.issues

theorem LetGo.mem_blocked_iff (h : LetGo t) (hstored : EndStored t b) {id : String} :
    id ∈ (Intake.groupingView b.tasks.rows).blocked ↔ HeldElsewhere t.id b.tasks.rows id := by
  obtain ⟨t', hget, hkept⟩ := hstored
  have hfree := (h.kept hkept).not_holdsIssues
  unfold Intake.groupingView HeldElsewhere
  simp only [List.mem_flatMap, List.mem_filter, decide_eq_true_eq]
  constructor
  · rintro ⟨u, ⟨hu, hholds⟩, hid⟩
    refine ⟨u, hu, fun heq => ?_, hholds, hid⟩
    have hsame : u = t' := Table.eq_of_mem_of_key_eq hu (Table.mem_of_get? hget)
      (heq.trans (Table.key_of_get? hget).symm)
    exact hfree (hsame ▸ hholds)
  · rintro ⟨u, hu, -, hholds, hid⟩
    exact ⟨u, ⟨hu, hholds⟩, hid⟩

/-- In a cycle that begins on these rows, those of the issues that it lists wait to be
taken up, exactly unless a task other than `taskId` holds them, a per-issue task
with their number is in flight, or a label dooms them. -/
def Reoffered (taskId : String) (issues : List String) (rows : List Task) : Prop :=
  ∀ c : Intake.Cycle, ∀ repo ∈ Grouping.groups (Intake.candidates c), ∀ cand ∈ repo.2,
    cand.issueId ∈ issues →
      (cand ∈ Intake.waiting c (Intake.groupingView rows) repo.2 ↔
        ¬HeldElsewhere taskId rows cand.issueId ∧
          (∀ u ∈ rows, Intake.legacyOpenIid u ≠ some cand.issue.iid) ∧
          IntakeGrouping.issueIsDoomed cand.issue c.policy.grouping = false)

theorem LetGo.reoffered (h : LetGo t) (hstored : EndStored t b) :
    Reoffered t.id t.issues b.tasks.rows := by
  intro c repo _ cand hcand _
  have hlegacy : cand.issue.iid ∈ (Intake.groupingView b.tasks.rows).legacyOpenIids ↔
      ∃ u ∈ b.tasks.rows, Intake.legacyOpenIid u = some cand.issue.iid :=
    List.mem_filterMap
  unfold Intake.waiting IntakeGrouping.filterCandidates
  simp only [List.mem_filter, decide_eq_true_eq, h.mem_blocked_iff hstored, hlegacy]
  simp [hcand, and_assoc]

end View

/-! ## Calls -/

section Calls

variable [Unicode] {k : Backend} {t : Task} {taskId : String}

omit [Unicode] in
/-- The call neither takes the id of the task for a new row, which the in-memory store
would overwrite, nor is it a release of the task by its assignee, which a SQL store
would put back to ready. -/
def Call.SparesEnd (k : Backend) (taskId : String) (c : Call) (w : Timed Board) : Prop :=
  (k = .memory → ∀ req, c ≠ .submit taskId req) ∧
    (k ≠ .memory → ∀ req t, c = .release taskId req → w.state.tasks.get? taskId = some t →
      t.assignedTo ≠ some req.nodeId)

omit [Unicode] in
def IntakeCall.SparesEnd (k : Backend) (taskId : String) (call : IntakeCall)
    (w : Timed k.Store) : Prop :=
  match call with
  | .poll c _ _ => k = .memory → ∀ i, c.taskIds i ≠ taskId
  | .webhook _ _ _ _ drawn => k = .memory → drawn ≠ taskId
  | .task c _ => c.SparesEnd k taskId (k.view w)

omit [Unicode] in
theorem not_writesOverEnded_of_idle {op : StoreOp} (h : Idle op) : ¬WritesOverEnded k op t := by
  intro hover
  cases op <;> first | exact h.elim | exact hover.elim

omit [Unicode] in
theorem leavesEnd_of_reads {b : Board} {op : StoreOp} (h : Reads op) :
    LeavesEnd k t b op := by
  refine ⟨fun t' _ hover => ?_, fun requeue heq => ?_⟩
  · cases op <;> first | exact h.elim | exact hover.elim
  · rw [heq] at h
    exact h

theorem Issued.notOver {c : Call} {w₀ : Timed Board} {b : Board} {op : StoreOp}
    (h : Issued c w₀ b op) (hspares : c.SparesEnd k t.id w₀)
    (hbatch : ∀ plans, c ≠ .createBatch plans) (hget : b.tasks.get? t.id = some t) :
    ¬WritesOverEnded k op t := by
  cases k with
  | memory =>
      intro hover
      cases h with
      | idle hidle => exact not_writesOverEnded_of_idle hidle hover
      | submit hc =>
          have hsubmit := hspares.1 rfl
          rw [hover.2] at hsubmit
          exact hsubmit _ hc
      | batch hc => exact hbatch _ hc
      | close | promote | claim | advance | release => exact hover.1 rfl
      | retry | resume | dependencies | unassign => exact hover
  | sql d =>
      refine h.not_writesOverEnded (fun req t₀ hc hget₀ hown => ?_) hget
      exact absurd hown (hspares.2 (fun heq => by cases heq) req t₀ hc hget₀)

theorem Call.along_notOver {c : Call} (hc : ∀ plans, c ≠ .createBatch plans)
    {w : Timed k.Store} (h : c.SparesEnd k taskId (k.view w)) :
    c.prog.Along k.tick (fun w op _ => ∀ t, (k.board w.state).tasks.get? taskId = some t →
      ¬WritesOverEnded k op t) w := by
  have hmeets : k.Meets (fun c w => c.SparesEnd k taskId w ∧ NotBatch c w) c w := by
    cases c with
    | sweep order =>
        refine callsMeet_of_forall (fun _ _ => ⟨⟨fun _ _ heq => ?_, fun _ _ _ heq => ?_⟩,
          fun _ heq => ?_⟩) _ _ <;> cases heq
    | _ => exact ⟨h, hc⟩
  refine (Backend.keeps_call (I := fun _ => True) _
    (fun w op hidle _ => ⟨fun t _ => not_writesOverEnded_of_idle hidle, trivial⟩)
    (fun c w₀ w op hcond _ _ hissued => ⟨fun t ht => ?_, trivial⟩) c w trivial hmeets).1
  have hid : t.id = taskId := Table.key_of_get? ht
  subst hid
  exact hissued.notOver hcond.1 hcond.2 ht

theorem wp_cancelTask_of_ended {w : Timed Board} (hget : w.state.tasks.get? taskId = some t)
    (hended : t.status.IsTerminal) (req : Option CancelTaskRequest) :
    (Tasks.cancelTask taskId req).Wp (Contract k) (fun _ op => Reads op) w
      (fun _ _ => True) := by
  unfold Tasks.cancelTask
  refine wp_requireTask id id (fun _ _ _ => trivial) (fun u w' _ hu => ?_)
  obtain rfl := Option.some.inj (hget.symm.trans hu)
  dsimp only
  rw [if_pos hended]
  trivial

theorem Call.along_leavesEnd {c : Call} (hc : ∀ plans, c ≠ .createBatch plans)
    {w : Timed k.Store} (hended : t.status.IsTerminal) (hstored : EndStored t (k.board w.state))
    (h : c.SparesEnd k t.id (k.view w)) :
    c.prog.Along k.tick (fun w op _ => LeavesEnd k t (k.board w.state) op) w := by
  by_cases hcancel : ∃ req, c = .cancel t.id req
  · obtain ⟨req, rfl⟩ := hcancel
    obtain ⟨t', hget, hkept⟩ := hstored
    have hview : (k.view w).state.tasks.get? t.id = some t' := hget
    have hwp : (Call.cancel t.id req).prog.Wp (Contract k) (fun _ op => Reads op) (k.view w)
        (fun _ _ => True) :=
      (wp_cancelTask_of_ended hview (hkept.staysEnded.isTerminal hended) req).discard
    exact (along_of_wp k.implements hwp).1.mono (fun _ _ _ => leavesEnd_of_reads)
  · refine (along_and (c.along_notOver hc h) (along_of_only c.footprint)).mono ?_
    rintro w' op _ ⟨hover, hfoot⟩
    refine ⟨hover, ?_⟩
    rintro requeue rfl
    exact hcancel hfoot

/-! Intake draws ids, and nothing else names a task -/

/-- What intake asks for: it makes rows under ids in `S`. -/
def Draws (S : String → Prop) : StoreOp → Prop
  | .createTask plan => S plan.taskId
  | .createTasksBatch plans => ∀ plan ∈ plans, S plan.taskId
  | .getAllTasks | .getTask _ | .triggerPendingTasks | .schedulePendingDetailed => True
  | _ => False

omit [Unicode] in
theorem draws_of_asks {S : String → Prop} {op : StoreOp}
    (h : Asks (fun plan => S plan.taskId) op) : Draws S op := by
  cases op <;> first | exact h | exact h.elim

omit [Unicode] in
theorem draws_of_settling {S : String → Prop} {op : StoreOp} (h : Settling op) : Draws S op := by
  cases op <;> first | exact h | exact h.elim

omit [Unicode] in
theorem leavesEnd_of_draws {b : Board} {op : StoreOp}
    (h : Draws (fun id => k = .memory → id ≠ t.id) op) : LeavesEnd k t b op := by
  refine ⟨fun t' hget hover => ?_, fun requeue heq => ?_⟩
  · have hid : t'.id = t.id := Table.key_of_get? hget
    cases op with
    | createTask plan => exact h hover.1 (hover.2.symm.trans hid)
    | createTasksBatch plans =>
        obtain ⟨hmemory, plan, hplan, heq⟩ := hover
        exact h plan hplan hmemory (heq.symm.trans hid)
    | _ => first | exact h.elim | exact hover.elim
  · rw [heq] at h
    exact h

theorem only_pollOnce_draws (c : Intake.Cycle) (defaults : BootDefaults) (mem : IntakeMemory)
    {S : String → Prop} (h : ∀ i, S (c.taskIds i)) :
    (Intake.pollOnce c defaults mem).Only (Draws S) := by
  by_cases hgrouped : (IntakeCall.poll c defaults mem).Grouped
  · unfold Intake.pollOnce
    split
    · trivial
    rw [if_pos (show c.policy.grouping.enabled = true ∧ c.policy.configured = true from hgrouped)]
    refine only_groupedCycle c trivial (fun view row hrow => ?_) (fun _ => draws_of_settling)
    obtain ⟨i, hi, rfl⟩ := List.mem_mapIdx.mp hrow
    exact h i
  · refine (only_pollOnce c defaults mem hgrouped (fun plan i hid _ => ?_)).mono
      (fun _ => draws_of_asks)
    rw [hid]
    exact h i

theorem only_webhook_draws (ev : Intake.IssueEvent) (policy : GitLabIntakePolicy)
    (defaults : BootDefaults) (mem : IntakeMemory) (drawn : String) {S : String → Prop}
    (h : S drawn) : (Intake.webhook ev policy defaults mem drawn).Only (Draws S) := by
  refine (only_webhook ev policy defaults mem drawn (fun _ plan hid _ _ => ?_)
    (fun _ plan hid _ => ?_)).mono (fun _ => draws_of_asks)
  · rw [hid]
    exact h
  · rw [hid]
    exact h

theorem IntakeCall.along_leavesEnd {call : IntakeCall} {w : Timed k.Store}
    (hended : t.status.IsTerminal) (hstored : EndStored t (k.board w.state))
    (h : call.SparesEnd k t.id w) :
    call.prog.Along k.tick (fun w op _ => LeavesEnd k t (k.board w.state) op) w := by
  cases call with
  | task c hc => exact c.along_leavesEnd hc hended hstored h
  | poll c defaults mem =>
      have honly : (poll c defaults mem).prog.Only (Draws (fun id => k = .memory → id ≠ t.id)) :=
        only_bind (only_pollOnce_draws c defaults mem (fun i hk => h hk i)) (fun _ => only_pure _)
      exact (along_of_only honly).mono (fun _ _ _ => leavesEnd_of_draws)
  | webhook ev policy defaults mem drawn =>
      have honly : (webhook ev policy defaults mem drawn).prog.Only
          (Draws (fun id => k = .memory → id ≠ t.id)) :=
        only_bind (only_webhook_draws ev policy defaults mem drawn h) (fun _ => only_pure _)
      exact (along_of_only honly).mono (fun _ _ _ => leavesEnd_of_draws)

/-! No creation takes an issue that the view holds -/

omit [Unicode] in
/-- The issues of the rows that are made. -/
def StoreOp.takes (op : StoreOp) : List String :=
  op.plans.flatMap TaskPlan.issues

def TakesFree (tasks : Table Task) (op : StoreOp) : Prop :=
  ∀ id ∈ op.takes, id ∉ (Intake.groupingView tasks.rows).blocked

omit [Unicode] in
theorem takes_eq_nil {op : StoreOp} (h : ∀ plan ∈ op.plans, plan.issues = []) :
    op.takes = [] :=
  List.flatMap_eq_nil_iff.mpr h

theorem takesFree_of_issueless {tasks : Table Task} {op : StoreOp}
    (h : ∀ plan ∈ op.plans, plan.issues = []) : TakesFree tasks op := by
  unfold TakesFree
  rw [takes_eq_nil h]
  exact List.forall_mem_nil _

theorem takesFree_of_settling {tasks : Table Task} {op : StoreOp} (h : Settling op) :
    TakesFree tasks op := by
  refine takesFree_of_issueless (fun plan hplan => ?_)
  cases op <;> first | exact h.elim | cases hplan

theorem takesFree_of_asks {tasks : Table Task} {op : StoreOp}
    (h : Asks (fun plan => plan.issues = []) op) : TakesFree tasks op := by
  refine takesFree_of_issueless (fun plan hplan => ?_)
  cases op with
  | createTask =>
      obtain rfl := List.mem_singleton.mp hplan
      exact h
  | _ => first | exact h.elim | cases hplan

theorem IntakeCall.wp_takesFree {call : IntakeCall} (hcall : ∀ c hc, call ≠ .task c hc)
    (w : Timed Board) :
    call.prog.Wp (Contract k) (fun w op => TakesFree w.state.tasks op) w (fun _ _ => True) := by
  have hasks : ∀ {α : Type} {p : Api α}, p.Only (Asks (fun plan => plan.issues = [])) →
      p.Wp (Contract k) (fun (w : Timed Board) op => TakesFree w.state.tasks op) w
        (fun _ _ => True) :=
    fun h => h.wp (fun _ _ => takesFree_of_asks)
  cases call with
  | task c hc => exact absurd rfl (hcall c hc)
  | poll c defaults mem =>
      by_cases hgrouped : (poll c defaults mem).Grouped
      · refine Wp.discard (wp_pollOnce c defaults mem hgrouped ?_)
        refine wp_groupedCycle c (takesFree_of_issueless (List.forall_mem_nil _)) ?_
          (fun _ _ => takesFree_of_settling)
        intro w' hsame id hid
        rw [hsame]
        obtain ⟨row, hrow, hid⟩ := List.mem_flatMap.mp hid
        obtain ⟨plan, hplan, taskId, rfl⟩ := Intake.mem_payloads hrow
        exact (Intake.issue_of_mem_groupedPlans hplan hid).1
      · refine hasks (only_bind ?_ (fun _ => only_pure _))
        exact only_pollOnce c defaults mem hgrouped (fun _ _ _ => id)
  | webhook ev policy defaults mem drawn =>
      by_cases hgrouped : (webhook ev policy defaults mem drawn).Grouped
      · refine Wp.discard (wp_webhook ev policy defaults mem drawn hgrouped ?_)
        intro iid admission _
        refine wp_groupedWebhook ev iid admission policy.grouping drawn
          (takesFree_of_issueless (List.forall_mem_nil _)) (fun w' plan hsame hissues hfree => ?_)
          (fun _ _ => takesFree_of_settling)
        have htakes : (StoreOp.createTask plan).takes = plan.issues := List.flatMap_singleton ..
        intro id hid
        rw [htakes, hissues, List.mem_singleton] at hid
        rw [hsame, hid]
        exact hfree
      · refine hasks (only_bind ?_ (fun _ => only_pure _))
        exact only_webhook ev policy defaults mem drawn (fun hon => absurd hon hgrouped)
          (fun _ _ _ => id)

theorem IntakeCall.along_takesFree (call : IntakeCall) (w : Timed k.Store) :
    call.prog.Along k.tick (fun w op _ => TakesFree (k.board w.state).tasks op) w := by
  by_cases hcall : ∀ c hc, call ≠ .task c hc
  · exact (along_of_wp k.implements (call.wp_takesFree hcall (k.view w))).1
  · simp only [not_forall, not_not] at hcall
    obtain ⟨c, hc, rfl⟩ := hcall
    exact (c.along_issueless hc w).mono (fun _ _ _ => takesFree_of_issueless)

theorem IntakeCall.keeps_endStored (call : IntakeCall) {w : Timed k.Store}
    (hended : t.status.IsTerminal) (h : call.SparesEnd k t.id w)
    (hstored : EndStored t (k.board w.state)) :
    call.prog.Keeps k.tick
      (fun w op _ => EndStored t (k.board w.state) ∧ TakesFree (k.board w.state).tasks op)
      (fun w => EndStored t (k.board w.state)) w := by
  refine keeps_of_along (A := fun w op => LeavesEnd k t (k.board w.state) op ∧
    TakesFree (k.board w.state).tasks op) ?_ hstored ?_
  · exact along_and (IntakeCall.along_leavesEnd hended hstored h) (call.along_takesFree w)
  · rintro w' op hstored' ⟨hop, hfree⟩
    exact ⟨⟨hstored', hfree⟩, hstored'.step hended hop (k.implements op w').tasks⟩

theorem endStored_of_intake {cs : List TimedIntake} {w : Timed k.Store}
    (hended : t.status.IsTerminal) (hstored : EndStored t (k.board w.state))
    (hspares : k.IntakeMeets (fun c w => c.SparesEnd k t.id w) cs w) :
    k.AlongIntake
        (fun w op _ => EndStored t (k.board w.state) ∧ TakesFree (k.board w.state).tasks op) cs w ∧
      EndStored t (k.board (k.runIntake cs w).state) := by
  have henter : ∀ (c : TimedIntake) (w : Timed k.Store), EndStored t (k.board w.state) →
      EndStored t (k.board (c.enter w).state) := fun _ _ h => h
  exact alongAll_of_calls henter
    (fun c _ hstored hspares => c.call.keeps_endStored hended hspares hstored) hstored hspares

end Calls

/-! ## The operator's cancellation -/

/-- An absent wish is one against taking the issues up again. -/
def wantsRequeue (req : Option CancelTaskRequest) : Bool :=
  (req.bind CancelTaskRequest.requeue).getD false

/-- The task is cancelled, at once or once its worker agrees, with the wish
recorded. -/
def CancelRecorded (t : Task) (requeue : Bool) (b : Board) : Prop :=
  ∃ t', b.tasks.get? t.id = some t' ∧ t'.issues = t.issues ∧ t'.cancelRequeue = some requeue ∧
    (t'.status = .cancelled ∨ t'.status = .cancelRequested)

section Cancel

variable [Unicode] {k : Backend} {t u : Task} {w : Timed Board}

omit [Unicode] in
/-- What becomes of a wish that is recorded. -/
def Records (now : Nat) : StoreOp → Board → Board → Prop
  | .setTaskCancelRequeue taskId requeue, b, b' => ∀ t, b.tasks.get? taskId = some t →
      b'.tasks.get? taskId = some (t.withCancelRequeue now requeue)
  | _, _, _ => True

theorem Backend.records (k : Backend) (now : Nat) (op : StoreOp) (s : k.Store) :
    Records now op (k.board s) (k.board (k.step now op s).2) := by
  cases op with
  | setTaskCancelRequeue taskId requeue =>
      intro t hget
      cases k with
      | memory =>
          have hget : s.tasks.get? taskId = some t := hget
          have hrow := s.tasks.get?_modify_self taskId (Task.withCancelRequeue now requeue)
            Task.keepsKey_withCancelRequeue
          rw [hget] at hrow
          change (s.writeTask taskId (Task.withCancelRequeue now requeue)
            Task.keepsKey_withCancelRequeue).2.tasks.get? taskId = _
          rcases ClusterState.writeTask_cases taskId (Task.withCancelRequeue now requeue)
              Task.keepsKey_withCancelRequeue s with ⟨-, hnone⟩ | ⟨-, -, heq⟩
          · rw [hget] at hnone
            cases hnone
          · rw [heq]
            exact hrow
      | sql d =>
          have hget : s.tasks.get? taskId = some t := hget
          have hrow := s.tasks.get?_modify_self taskId (Task.withCancelRequeue now requeue)
            Task.keepsKey_withCancelRequeue
          rw [hget] at hrow
          change (s.updateHit (fun t => t.id = taskId) (Task.withCancelRequeue now requeue)
            Task.keepsKey_withCancelRequeue).2.tasks.get? taskId = _
          rw [ClusterStore.updateHit_of_get? hget]
          exact hrow
  | _ => trivial

/-- The contract, with what becomes of a wish. -/
def RecordingContract (k : Backend) (op : StoreOp) (w : Timed Board) (r : op.Res)
    (w' : Timed Board) : Prop :=
  Contract k op w r w' ∧ Records (w.clock 0) op w.state w'.state

theorem Backend.implements_recording (k : Backend) :
    Program.Implements k.tick k.view (RecordingContract k) :=
  fun op w => ⟨k.implements op w, k.records _ op w.state⟩

/-- What a handler ends with. -/
abbrev ClosesWith (k : Backend) {α : Type} (p : Api α) (w : Timed Board)
    (Q : Except ApiError α → Timed Board → Prop) : Prop :=
  p.Wp (RecordingContract k) (fun _ _ => True) w Q

omit [Unicode] in
theorem leavesEnd_of_other {b : Board} {other reason : String} {status : TaskStatus}
    (hother : other ≠ u.id) : LeavesEnd k u b (.setTaskStatus other status reason) := by
  refine ⟨fun u' hget hover => hother ?_, fun _ heq => by cases heq⟩
  exact hover.2.1.symm.trans (Table.key_of_get? hget)

/-- The cascade leaves a task that has ended as it is. -/
theorem closesWith_cancelDependent (hended : u.status.IsTerminal) (h : EndStored u w.state)
    (reason depId : String) :
    ClosesWith k (Tasks.cancelDependent reason depId) w
      (fun r w' => r = .ok ⟨⟩ ∧ EndStored u w'.state) := by
  unfold Tasks.cancelDependent
  refine wp_perform.mpr ⟨trivial, fun r w₁ hC => ?_⟩
  obtain ⟨hr, hsame⟩ := hC.1.reply
  rw [← hsame] at h
  cases r with
  | none => exact ⟨rfl, h⟩
  | some dep =>
      by_cases hdep : dep.status.IsTerminal
      · simp only [if_pos hdep]
        exact ⟨rfl, h⟩
      have hother : depId ≠ u.id := by
        rintro rfl
        obtain ⟨u', hget, hkept⟩ := h
        rw [hsame] at hget
        rw [Option.some.inj (hr.trans hget)] at hdep
        exact hdep (hkept.staysEnded.isTerminal hended)
      have hflip : ∀ w₂ status, EndStored u w₂.state → ClosesWith k (do
          let _ ← store (.setTaskStatus depId status reason)
          pure ⟨⟩ : Api PUnit) w₂ (fun r w' => r = .ok ⟨⟩ ∧ EndStored u w'.state) := by
        intro w₂ status h₂
        refine wp_perform.mpr ⟨trivial, fun _ w₃ hC => ⟨rfl, ?_⟩⟩
        exact h₂.step hended (leavesEnd_of_other hother) hC.1.tasks
      simp only [if_neg hdep]
      refine wp_getByTask (fun hC => hC.1) (fun _ => trivial) (fun lease w₂ hsame₂ => ?_)
      rw [← hsame₂] at h
      cases lease with
      | none => exact hflip w₂ .cancelled h
      | some lease =>
          refine wp_perform.mpr ⟨trivial, fun _ w₃ hC => hflip w₃ .cancelRequested ?_⟩
          exact h.of_tasks_eq (congrArg Board.tasks hC.1.reply :)

theorem closesWith_cascade (hended : u.status.IsTerminal) (h : EndStored u w.state)
    (id reason : String) {α : Type} {f : List String → Api α}
    {Q : Except ApiError α → Timed Board → Prop}
    (hf : ∀ dependents w', EndStored u w'.state → ClosesWith k (f dependents) w' Q) :
    ClosesWith k (Tasks.cascadeCancelDependents id reason >>= f) w Q := by
  unfold Tasks.cascadeCancelDependents
  rw [bind_assoc]
  refine wp_perform.mpr ⟨trivial, fun dependents w₁ hC => ?_⟩
  obtain ⟨-, hsame⟩ := hC.1.reply
  rw [← hsame] at h
  rw [bind_assoc]
  refine Wp.seq (I := fun _ w' => EndStored u w'.state) ?_ (fun _ w' h' => hf dependents w' h')
  refine (wp_forM dependents (Tasks.cancelDependent reason)
    (fun depId _ w' h' => closesWith_cancelDependent hended h' reason depId) h).mono ?_
  rintro r w' ⟨rfl, h'⟩
  exact ⟨⟨⟩, rfl, h'⟩

/-- The wish is recorded before the status is written. -/
theorem closesWith_recorded (hget : w.state.tasks.get? t.id = some t)
    (hopen : ¬t.status.IsTerminal) {status : TaskStatus} (requeue : Bool)
    (hstatus : status = .cancelled ∨ status = .cancelRequested) (reason why : String)
    (reply : Reply) :
    ClosesWith k (do
        let _ ← store (.setTaskCancelRequeue t.id requeue)
        let _ ← store (.setTaskStatus t.id status reason)
        let _ ← Tasks.cascadeCancelDependents t.id why
        pure reply) w (fun _ w' => CancelRecorded t requeue w'.state) := by
  refine wp_perform.mpr ⟨trivial, fun _ w₁ hC₁ => ?_⟩
  have hrecorded := hC₁.2 t hget
  refine wp_perform.mpr ⟨trivial, fun _ w₂ hC₂ => ?_⟩
  have hrow := hC₂.1.reply.2 _ hrecorded (not_refuses_of_open hopen)
  have hstored : EndStored ((t.withCancelRequeue (w.clock 0) requeue).withStatus (w₁.clock 0)
      status reason) w₂.state := ⟨_, hrow, KeepsEnd.refl _⟩
  refine closesWith_cascade (isTerminal_of_cancelling hstatus) hstored t.id why (fun _ w' h => ?_)
  obtain ⟨t', hget', hkept⟩ := h
  exact ⟨t', hget', hkept.issues, hkept.cancelRequeue, hkept.cancelling hstatus⟩

theorem closesWith_cancelTask (hget : w.state.tasks.get? t.id = some t)
    (hopen : ¬t.status.IsTerminal) (req : Option CancelTaskRequest) :
    ClosesWith k (Tasks.cancelTask t.id req) w
      (fun _ w' => CancelRecorded t (wantsRequeue req) w'.state) := by
  unfold Tasks.cancelTask
  refine wp_requireTask (fun hC => hC.1) (fun _ => trivial) (fun _ _ hnone => ?_)
    (fun t' w₁ hsame hget' => ?_)
  · rw [hget] at hnone
    cases hnone
  obtain rfl := Option.some.inj (hget.symm.trans hget')
  dsimp only
  rw [if_neg hopen]
  refine wp_getByTask (fun hC => hC.1) (fun _ => trivial) (fun lease w₂ hsame₂ => ?_)
  rw [← hsame, ← hsame₂] at hget
  cases lease with
  | none => exact closesWith_recorded hget hopen _ (.inl rfl) _ _ _
  | some lease =>
      refine wp_perform.mpr ⟨trivial, fun _ w₃ hC => ?_⟩
      have htasks : w₃.state.tasks = w₂.state.tasks := (congrArg Board.tasks hC.1.reply :)
      rw [← htasks] at hget
      exact closesWith_recorded hget hopen _ (.inr rfl) _ _ _

end Cancel

/-! ## Runs -/

section Runs

variable [Unicode] {k : Backend} {t : Task}

omit [Unicode] in
theorem cancel_ne_createBatch (taskId : String) (req : Option CancelTaskRequest)
    (plans : List TaskPlan) : Call.cancel taskId req ≠ .createBatch plans :=
  fun h => by cases h

/-- An operator cancels a task. -/
def cancels (taskId : String) (req : Option CancelTaskRequest) (clock : Nat → Nat) :
    TimedIntake where
  call := .task (.cancel taskId req) (cancel_ne_createBatch taskId req)
  clock := clock

theorem cancelRecorded_of_cancels {w : Timed k.Store}
    (hget : (k.board w.state).tasks.get? t.id = some t) (hopen : ¬t.status.IsTerminal)
    (req : Option CancelTaskRequest) (clock : Nat → Nat) :
    CancelRecorded t (wantsRequeue req)
      (k.board (k.runIntake [cancels t.id req clock] w).state) := by
  have hwp : ClosesWith k (Call.cancel t.id req).prog (k.view ((cancels t.id req clock).enter w))
      (fun _ w' => CancelRecorded t (wantsRequeue req) w'.state) := by
    refine wp_bind.mpr ((closesWith_cancelTask hget hopen req).mono (fun r w' h => ?_))
    cases r with
    | ok _ => exact h
    | error _ => exact h
  exact (along_of_wp k.implements_recording hwp).2

theorem takesNone_of_intake {cs : List TimedIntake} {w : Timed k.Store} (hheld : HeldBack t)
    (hstored : EndStored t (k.board w.state))
    (hspares : k.IntakeMeets (fun c w => c.SparesEnd k t.id w) cs w) :
    k.AlongIntake (fun _ op _ => ∀ id ∈ t.issues, id ∉ op.takes) cs w := by
  refine (endStored_of_intake hheld.isTerminal hstored hspares).1.mono ?_
  rintro w' op _ ⟨hstored', hfree⟩ id hid htaken
  exact hfree id htaken (hheld.mem_blocked hstored' hid)

theorem reoffered_of_intake {cs : List TimedIntake} {w : Timed k.Store}
    (hended : t.status.IsTerminal) (hstored : EndStored t (k.board w.state))
    (hspares : k.IntakeMeets (fun c w => c.SparesEnd k t.id w) cs w) {t' : Task}
    (hget : (k.board (k.runIntake cs w).state).tasks.get? t.id = some t') (hletGo : LetGo t') :
    Reoffered t.id t.issues (k.board (k.runIntake cs w).state).tasks.rows := by
  obtain ⟨u, hu, hkept⟩ := (endStored_of_intake hended hstored hspares).2
  obtain rfl := Option.some.inj (hget.symm.trans hu)
  have hid : t'.id = t.id := Table.key_of_get? hget
  rw [← hid] at hget ⊢
  rw [← hkept.issues]
  exact hletGo.reoffered ⟨t', hget, KeepsEnd.refl t'⟩

/-- Through any run of poll cycles and webhook deliveries, with any calls of the task
API, passes and recoveries in between, on any store, that leaves ends to the guards:
the issues of a bundle that an operator cancels without a wish to requeue are never
put in a later bundle. Those of a bundle that is cancelled with the wish, once it is
closed, or that failed, wait to be taken up in every later cycle that lists them,
exactly unless another task holds them, a per-issue task with their number is in
flight, or a label dooms them. -/
theorem cancelHold_of_intake (k : Backend) (cs : List TimedIntake) (w : Timed k.Store)
    (hget : (k.board w.state).tasks.get? t.id = some t) :
    (∀ req clock, ¬t.status.IsTerminal →
        k.IntakeMeets (fun c w => c.SparesEnd k t.id w) cs
          (k.runIntake [cancels t.id req clock] w) →
        CancelRecorded t (wantsRequeue req)
          (k.board (k.runIntake (cancels t.id req clock :: cs) w).state) ∧
        (wantsRequeue req = false →
          k.AlongIntake (fun _ op _ => ∀ id ∈ t.issues, id ∉ op.takes) cs
            (k.runIntake [cancels t.id req clock] w)) ∧
        (wantsRequeue req = true → ∀ t',
          (k.board (k.runIntake (cancels t.id req clock :: cs) w).state).tasks.get? t.id = some t' →
          t'.status = .cancelled →
          Reoffered t.id t.issues
            (k.board (k.runIntake (cancels t.id req clock :: cs) w).state).tasks.rows)) ∧
      (LetGo t → k.IntakeMeets (fun c w => c.SparesEnd k t.id w) cs w →
        Reoffered t.id t.issues (k.board (k.runIntake cs w).state).tasks.rows) := by
  constructor
  · intro req clock hopen hspares
    obtain ⟨u, hu, hissues, hwish, hstatus⟩ := cancelRecorded_of_cancels hget hopen req clock
    have hid : u.id = t.id := Table.key_of_get? hu
    have hended : u.status.IsTerminal := isTerminal_of_cancelling hstatus
    have hstored : EndStored u (k.board (k.runIntake [cancels t.id req clock] w).state) :=
      ⟨u, by rw [hid]; exact hu, KeepsEnd.refl u⟩
    have hspares' : k.IntakeMeets (fun c w => c.SparesEnd k u.id w) cs
        (k.runIntake [cancels t.id req clock] w) := by
      rw [hid]
      exact hspares
    obtain ⟨t', hget', hkept⟩ := (endStored_of_intake hended hstored hspares').2
    have hwish' : t'.cancelRequeue = some (wantsRequeue req) := hkept.cancelRequeue.trans hwish
    rw [hid] at hget'
    refine ⟨⟨t', hget', hkept.issues.trans hissues, hwish', hkept.cancelling hstatus⟩,
      fun hhold => ?_, fun hrequeue t'' hget'' hcancelled => ?_⟩
    · rw [← hissues]
      exact takesNone_of_intake ⟨hstatus, by rw [hwish, hhold]⟩ hstored hspares'
    · obtain rfl := Option.some.inj (hget'.symm.trans hget'')
      have hletGo : LetGo t' := .inr ⟨hcancelled, by rw [hwish', hrequeue]; decide⟩
      have hreoffered := reoffered_of_intake hended hstored hspares' (by rw [hid]; exact hget'')
        hletGo
      rw [hid, hissues] at hreoffered
      exact hreoffered
  · intro hletGo hspares
    obtain ⟨t', hget', hkept⟩ :=
      (endStored_of_intake hletGo.isTerminal ⟨t, hget, KeepsEnd.refl t⟩ hspares).2
    exact reoffered_of_intake hletGo.isTerminal ⟨t, hget, KeepsEnd.refl t⟩ hspares hget'
      (hletGo.kept hkept)

end Runs

section Example

local instance asciiHold : Unicode := Unicode.ascii

/-- The store once the first bundle runs. -/
def bundled : Timed ClusterState :=
  Backend.memory.runIntake [polled "first"] emptyIntake

def firstRunning : Task where
  id := "first"
  title := "[lane:app#env/dev][##7]"
  priority := 3
  status := .running
  assignedTo := some "n"
  createdAt := 1
  updatedAt := 1
  version := 2
  laneKey := "app#env/dev"
  role := "author"
  issues := ["team/app#7"]

/-- The running bundle is cancelled, and the next cycle leaves its issue alone. -/
theorem cancelHold_of_intake_bundled :
    Backend.memory.AlongIntake (fun _ op _ => ∀ id ∈ ["team/app#7"], id ∉ op.takes)
      [polled "second"]
      (Backend.memory.runIntake [cancels "first" none (fun _ => 2)] bundled) := by
  have hget : (Backend.memory.board bundled.state).tasks.get? firstRunning.id =
      some firstRunning := by decide
  refine ((cancelHold_of_intake .memory [polled "second"] bundled hget).1 none (fun _ => 2)
    (by decide) ⟨fun _ _ heq => ?_, trivial⟩).2.1 rfl
  have hnames : "second" = "first" := heq
  exact absurd hnames (by decide)

/-- The first bundle fails. -/
def failedFirst : TimedIntake where
  call := .task (.fail "first" (some { reason := "no build" })) (fun _ h => by cases h)
  clock := fun _ => 2

/-- A per-issue task with the number of the issue. -/
def hotfix : TimedIntake where
  call := .task (.submit "third" { title := "[#7] hotfix" }) (fun _ h => by cases h)
  clock := fun _ => 3

/-- A cycle in which GitLab lists the issue again. -/
def relisting : Intake.Cycle where
  policy := { requires := [], grouping := { enabled := true }, configured := true }
  fetched := [([{ iid := 7, fullRef := "team/app#7" }], none)]
  gitlab := ⟨fun _ => some [], fun _ => [], fun _ => true⟩
  now := 0
  taskIds := fun _ => "second"

/-- The issues wait to be taken up unless another outstanding bundle holds them. -/
def WaitUnlessBundled (t : Task) (rows : List Task) : Prop :=
  ∀ c : Intake.Cycle, ∀ repo ∈ Grouping.groups (Intake.candidates c), ∀ cand ∈ repo.2,
    cand.issueId ∈ t.issues →
      (∀ u ∈ rows, u.id ≠ t.id → u.issues ≠ [] → u.status ∈ Intake.issueHoldingStatuses →
        cand.issueId ∉ u.issues) →
      cand ∈ Intake.waiting c (Intake.groupingView rows) repo.2

/-- The bundle failed and no other bundle is stored, but its issue does not wait: the
task in flight has its number. -/
theorem failed_issue_not_waiting :
    ∃ t, (Backend.memory.board (Backend.memory.runIntake [failedFirst, hotfix]
        bundled).state).tasks.get? "first" = some t ∧ t.status = .failed ∧
      ¬WaitUnlessBundled t
        (Backend.memory.board (Backend.memory.runIntake [failedFirst, hotfix]
          bundled).state).tasks.rows := by
  have hget : (Backend.memory.board (Backend.memory.runIntake [failedFirst, hotfix]
      bundled).state).tasks.get? "first" = some { firstRunning with
        status := .failed, failReason := some "no build", updatedAt := 2, version := 3 } := by
    decide
  refine ⟨_, hget, rfl, fun hwait => ?_⟩
  let cand : Candidate :=
    { issueId := "team/app#7", issue := { iid := 7, fullRef := "team/app#7" }, band := 3 }
  have hlisted : ("team/app", [cand]) ∈ Grouping.groups (Intake.candidates relisting) := by decide
  have hwaits := hwait relisting _ hlisted cand List.mem_cons_self (by decide) (by decide)
  exact absurd hwaits (by decide)

end Example

end HermesCluster
