import HermesCluster.Routers.Intake
import HermesCluster.Routers.Footprint
/-!
# Runs with intake

Poll cycles and webhook deliveries among the calls of the task API, passes and
recoveries. An issue is taken into a new bundle only if the view of the store
does not hold it; the view leaves out bundles that are blocked.
-/

namespace HermesCluster

open Program hiding pure bind

/-! ## What a cycle plans -/

section Plans

variable [Unicode] {c : Intake.Cycle} {view : Intake.GroupingView} {plan : BundlePlan}
  {repo : String × List Candidate}

namespace Intake

omit [Unicode] in
theorem mem_waiting {pairs : List Candidate} {cand : Candidate}
    (h : cand ∈ waiting c view pairs) :
    cand ∈ pairs ∧ cand.issueId ∉ view.blocked ∧ cand.issue.iid ∉ view.legacyOpenIids := by
  unfold waiting IntakeGrouping.filterCandidates at h
  rw [List.mem_filter, List.mem_filter, decide_eq_true_iff] at h
  exact h.1

theorem mem_unreferenced {cand : Candidate} (h : cand ∈ unreferenced c view repo) :
    cand ∈ repo.2 ∧ cand.issueId ∉ view.blocked :=
  have hwaiting := mem_waiting (List.mem_of_mem_filter h)
  ⟨hwaiting.1, hwaiting.2.1⟩

/-- A plan for a repository is a plan for some of its candidates that wait. -/
theorem planRepo_some (h : planRepo c view repo = some plan) :
    ∃ cands, (∀ cand ∈ cands, cand ∈ unreferenced c view repo) ∧
      planFor c view repo.1 cands = some plan := by
  unfold planRepo at h
  split at h
  · cases h
  dsimp only at h
  split at h
  · cases h
  rename_i first hfirst
  split at h
  · cases h
    exact ⟨_, fun _ hcand => hcand, hfirst⟩
  · exact ⟨_, fun _ hcand => List.mem_of_mem_filter hcand, h⟩

omit [Unicode] in
/-- The issues of a plan are candidates, and one has the band of the plan. -/
theorem planFor_some {path : String} {cands : List Candidate}
    (h : planFor c view path cands = some plan) :
    (∀ id ∈ plan.issueIds, ∃ cand ∈ cands, cand.issueId = id) ∧
      ∃ cand ∈ cands, cand.band = plan.priority := by
  obtain ⟨-, htop, hids, -, -⟩ := IntakeGrouping.bundlePlanForRepo_some h
  refine ⟨fun id hid => ?_, ?_⟩
  · rw [hids] at hid
    obtain ⟨cand, hcand, rfl⟩ := List.mem_map.mp hid
    exact ⟨cand, (IntakeGrouping.mem_packRepoCandidates hcand).1, rfl⟩
  · obtain ⟨cand, hcand, hband⟩ := List.mem_map.mp (List.min?_mem htop)
    exact ⟨cand, hcand, hband⟩

omit [Unicode] in
theorem nodup_collectIssue {policy : GitLabIntakePolicy} {scope : Option IntakeScope}
    {seen : List (String × Candidate)} {issue : GitLabIssue}
    (h : (seen.map (fun p => p.2.issueId)).Nodup) :
    ((collectIssue policy scope seen issue).map (fun p => p.2.issueId)).Nodup := by
  unfold collectIssue
  dsimp only
  split
  · exact h
  split
  · exact h
  · rename_i hnew
    rw [List.map_append]
    exact List.Nodup.append h (List.nodup_singleton _) (by simpa using hnew)

omit [Unicode] in
/-- No issue counts twice in a cycle. -/
theorem nodup_candidates (c : Cycle) : ((candidates c).map (fun p => p.2.issueId)).Nodup := by
  have hfold : ∀ {ι : Type} (xs : List ι)
      (f : List (String × Candidate) → ι → List (String × Candidate)),
      (∀ seen x, (seen.map (fun p => p.2.issueId)).Nodup →
        ((f seen x).map (fun p => p.2.issueId)).Nodup) →
      ∀ seen, (seen.map (fun p => p.2.issueId)).Nodup →
        ((xs.foldl f seen).map (fun p => p.2.issueId)).Nodup := by
    intro ι xs f hf
    induction xs with
    | nil => exact fun _ h => h
    | cons x xs ih => exact fun seen h => ih _ (hf seen x h)
  refine hfold c.fetched _ (fun seen p h => ?_) [] List.nodup_nil
  exact hfold p.1 _ (fun _ _ h => nodup_collectIssue h) seen h

theorem mem_groupedPlans (h : plan ∈ groupedPlans c view) :
    ∃ repo ∈ Grouping.groups (candidates c), ∃ cands,
      (∀ cand ∈ cands, cand ∈ unreferenced c view repo) ∧
        planFor c view repo.1 cands = some plan := by
  obtain ⟨repo, hrepo, hplan⟩ := List.mem_filterMap.mp h
  obtain ⟨cands, hsub, hcands⟩ := planRepo_some hplan
  exact ⟨repo, hrepo, cands, hsub, hcands⟩

theorem issue_of_mem_groupedPlans (h : plan ∈ groupedPlans c view) {id : String}
    (hid : id ∈ plan.issueIds) :
    id ∉ view.blocked ∧ ∃ p ∈ candidates c, p.2.issueId = id := by
  obtain ⟨repo, hrepo, cands, hsub, hcands⟩ := mem_groupedPlans h
  obtain ⟨cand, hcand, rfl⟩ := (planFor_some hcands).1 id hid
  obtain ⟨hpairs, hfree⟩ := mem_unreferenced (hsub cand hcand)
  exact ⟨hfree, _, Grouping.mem_of_mem_groups hrepo hpairs, rfl⟩

theorem pairwise_groupedPlans (c : Cycle) (view : GroupingView) :
    (groupedPlans c view).Pairwise (fun p q => ∀ id ∈ p.issueIds, id ∉ q.issueIds) := by
  have hnodup : ((Grouping.pairs (Grouping.groups (candidates c))).map
      (fun p => p.2.issueId)).Nodup :=
    ((Grouping.pairs_groups (candidates c)).map _).nodup_iff.mpr (nodup_candidates c)
  unfold groupedPlans
  rw [List.pairwise_filterMap]
  have hdisjoint : (Grouping.groups (candidates c)).Pairwise
      (fun r s => ∀ a ∈ r.2, ∀ a' ∈ s.2, a.issueId ≠ a'.issueId) :=
    Grouping.pairwise_of_nodup hnodup
  refine hdisjoint.imp ?_
  intro r s hdisjoint p hp q hq id hidp hidq
  obtain ⟨cands, hsub, hcands⟩ := planRepo_some hp
  obtain ⟨cands', hsub', hcands'⟩ := planRepo_some hq
  obtain ⟨a, ha, rfl⟩ := (planFor_some hcands).1 id hidp
  obtain ⟨a', ha', heq⟩ := (planFor_some hcands').1 _ hidq
  exact hdisjoint a (mem_unreferenced (hsub a ha)).1 a' (mem_unreferenced (hsub' a' ha')).1 heq.symm

omit [Unicode] in
theorem mem_payloads {plans : List BundlePlan} {row : TaskPlan} (h : row ∈ payloads c plans) :
    ∃ plan ∈ plans, ∃ taskId, row = bundlePayload c.policy.requires plan taskId := by
  obtain ⟨i, hi, rfl⟩ := List.mem_mapIdx.mp h
  exact ⟨plans[i], List.getElem_mem hi, c.taskIds i, rfl⟩

omit [Unicode] in
theorem payload_of_mem {plans : List BundlePlan} (h : plan ∈ plans) :
    ∃ taskId, bundlePayload c.policy.requires plan taskId ∈ payloads c plans := by
  obtain ⟨i, hi, rfl⟩ := List.getElem_of_mem h
  exact ⟨c.taskIds i, List.mem_mapIdx.mpr ⟨i, hi, rfl⟩⟩

omit [Unicode] in
theorem pairwise_payloads {plans : List BundlePlan} {R : TaskPlan → TaskPlan → Prop}
    (h : plans.Pairwise (fun p q => ∀ id id', R (bundlePayload c.policy.requires p id)
      (bundlePayload c.policy.requires q id'))) :
    (payloads c plans).Pairwise R := by
  rw [List.pairwise_iff_getElem] at h ⊢
  intro i j hi hj hlt
  simp only [payloads, List.length_mapIdx, List.getElem_mapIdx] at hi hj ⊢
  exact h i j hi hj hlt _ _

end Intake

end Plans

/-! ## Runs -/

/-- A poll cycle, a webhook delivery, or another call. -/
inductive IntakeCall where
  | poll (c : Intake.Cycle) (defaults : BootDefaults) (mem : IntakeMemory)
  | webhook (ev : Intake.IssueEvent) (policy : GitLabIntakePolicy) (defaults : BootDefaults)
      (mem : IntakeMemory) (taskId : String)
  | task (c : Call) (notBatch : ∀ plans, c ≠ .createBatch plans)

section Runs

variable [Unicode]

def IntakeCall.prog : IntakeCall → Api Unit
  | poll c defaults mem => Intake.pollOnce c defaults mem >>= fun _ => pure ()
  | webhook ev policy defaults mem taskId =>
      Intake.webhook ev policy defaults mem taskId >>= fun _ => pure ()
  | task c _ => c.prog

/-- With the readings the clock gives to its operations. -/
structure TimedIntake where
  call : IntakeCall
  clock : Nat → Nat

omit [Unicode] in
def TimedIntake.enter {σ : Type} (c : TimedIntake) (w : Timed σ) : Timed σ :=
  { w with clock := c.clock }

/-- The store after some calls, each run to its end. -/
def Backend.runIntake (k : Backend) : List TimedIntake → Timed k.Store → Timed k.Store :=
  Program.runAll k.tick TimedIntake.enter (fun c => c.call.prog)

/-- `P` holds of every operation of some calls. -/
def Backend.AlongIntake (k : Backend) (P : Timed k.Store → StoreOp → Timed k.Store → Prop) :
    List TimedIntake → Timed k.Store → Prop :=
  Program.AlongAll k.tick TimedIntake.enter P (fun c => c.call.prog)

/-- Every call meets a condition on the store it begins on. -/
def Backend.IntakeMeets (k : Backend) (cond : IntakeCall → Timed k.Store → Prop) :
    List TimedIntake → Timed k.Store → Prop :=
  Program.CallsMeet k.tick TimedIntake.enter (fun c => c.call.prog) (fun c => cond c.call)

/-! ## No issue twice -/

omit [Unicode] in
/-- The task is not terminal, or it is completed. -/
def Holds (t : Task) : Prop :=
  t.status ≠ .failed ∧ t.status ≠ .cancelled

omit [Unicode] in
instance : DecidablePred Holds := fun t =>
  inferInstanceAs (Decidable (t.status ≠ .failed ∧ t.status ≠ .cancelled))

omit [Unicode] in
/-- A creation takes in no issue that a task holds, nor one issue twice. -/
def NoDuplicate (tasks : Table Task) : StoreOp → Prop
  | .createTask plan => ∀ t ∈ tasks.rows, Holds t → ∀ id ∈ plan.issues, id ∉ t.issues
  | .createTasksBatch plans =>
      (∀ plan ∈ plans, ∀ t ∈ tasks.rows, Holds t → ∀ id ∈ plan.issues, id ∉ t.issues) ∧
        plans.Pairwise (fun p q => ∀ id ∈ p.issues, id ∉ q.issues)
  | _ => True

omit [Unicode] in
instance decidableNoDuplicate (tasks : Table Task) (op : StoreOp) :
    Decidable (NoDuplicate tasks op) := by
  cases op with
  | createTask plan =>
      exact inferInstanceAs
        (Decidable (∀ t ∈ tasks.rows, Holds t → ∀ id ∈ plan.issues, id ∉ t.issues))
  | createTasksBatch plans =>
      exact inferInstanceAs (Decidable
        ((∀ plan ∈ plans, ∀ t ∈ tasks.rows, Holds t → ∀ id ∈ plan.issues, id ∉ t.issues) ∧
          plans.Pairwise (fun p q => ∀ id ∈ p.issues, id ∉ q.issues)))
  | _ => exact isTrue trivial

omit [Unicode] in
/-- A creation is of a bundle. -/
def Bundles : StoreOp → Prop
  | .createTask plan => plan.issues ≠ []
  | .createTasksBatch plans => ∀ plan ∈ plans, plan.issues ≠ []
  | _ => True

omit [Unicode] in
/-- Intake is grouped. -/
def IntakeCall.Grouped : IntakeCall → Prop
  | poll c _ _ => c.policy.grouping.enabled = true ∧ c.policy.configured = true
  | webhook _ policy _ _ _ =>
      policy.configured = true ∧ policy.scopes ≠ [] ∧ policy.grouping.enabled = true
  | task _ _ => True

omit [Unicode] in
/-- No issue that comes in is a member of a blocked bundle. -/
def IntakeCall.Spares (call : IntakeCall) (tasks : Table Task) : Prop :=
  match call with
  | poll c _ _ => ∀ t ∈ tasks.rows, t.status = .blocked →
      ∀ p ∈ Intake.candidates c, p.2.issueId ∉ t.issues
  | webhook ev _ _ _ _ => ∀ t ∈ tasks.rows, t.status = .blocked →
      ∀ iid, ev.iid = .ok iid → Intake.dedupKey .full ev.projectPath iid ∉ t.issues
  | task _ _ => True

/-- The view holds the issues of every task that does, unless it is blocked. -/
theorem not_mem_issues {rows : List Task} {t : Task} {id : String}
    (hview : id ∉ (Intake.groupingView rows).blocked) (ht : t ∈ rows) (hholds : Holds t)
    (hblocked : t.status = .blocked → id ∉ t.issues) : id ∉ t.issues := by
  intro hid
  have hunblocked : t.status ≠ .blocked := fun h => hblocked h hid
  refine hview (List.mem_flatMap.mpr ⟨t, List.mem_filter.mpr ⟨ht, decide_eq_true ?_⟩, hid⟩)
  obtain ⟨hfailed, hcancelled⟩ := hholds
  unfold Intake.HoldsIssues Intake.issueHoldingStatuses
  cases hstatus : t.status <;> simp_all

section Calls

variable {k : Backend} {w : Timed Board}

omit [Unicode] in
/-- After its creations, a call only promotes and schedules. -/
def Settling : StoreOp → Prop
  | .getTask _ | .triggerPendingTasks | .schedulePendingDetailed => True
  | _ => False

omit [Unicode] in
theorem only_recordCreated (made : List Task) (rows : List TaskPlan) :
    (rows.foldlM (Intake.recordCreated made) []).Only Settling := by
  refine only_foldlM rows (fun created row => ?_) []
  unfold Intake.recordCreated
  split
  · trivial
  · refine only_store trivial (fun r => ?_)
    cases r <;> trivial

omit [Unicode] in
theorem noDuplicate_of_settling {tasks : Table Task} {op : StoreOp} (h : Settling op) :
    NoDuplicate tasks op := by
  cases op with
  | createTask | createTasksBatch => exact h.elim
  | _ => trivial

omit [Unicode] in
theorem bundles_of_settling {op : StoreOp} (h : Settling op) : Bundles op := by
  cases op with
  | createTask | createTasksBatch => exact h.elim
  | _ => trivial

theorem wp_groupedCycle {P : Timed Board → StoreOp → Prop} (c : Intake.Cycle)
    (hread : P w .getAllTasks)
    (hbatch : ∀ w' : Timed Board, w'.state = w.state →
      P w' (.createTasksBatch
        (Intake.payloads c (Intake.groupedPlans c (Intake.groupingView w.state.tasks.rows)))))
    (hsettling : ∀ w op, Settling op → P w op) :
    (Intake.groupedCycle c).Wp (Contract k) P w (fun _ _ => True) := by
  unfold Intake.groupedCycle
  refine wp_perform.mpr ⟨hread, fun rows w₁ hC => ?_⟩
  obtain ⟨rfl, hsame⟩ := hC.reply
  dsimp only
  split
  · trivial
  · refine wp_perform.mpr ⟨hbatch w₁ hsame, fun made w₂ _ => ?_⟩
    refine Only.wp (S := Settling) ?_ hsettling
    refine only_bind (only_recordCreated made _) (fun _ => ?_)
    exact only_store trivial (fun _ => only_store trivial (fun _ => trivial))

theorem wp_pollOnce {P : Timed Board → StoreOp → Prop} (c : Intake.Cycle)
    (defaults : BootDefaults) (mem : IntakeMemory)
    (hgrouped : (IntakeCall.poll c defaults mem).Grouped)
    (hcycle : (Intake.groupedCycle c).Wp (Contract k) P w (fun _ _ => True)) :
    (Intake.pollOnce c defaults mem).Wp (Contract k) P w (fun _ _ => True) := by
  unfold Intake.pollOnce
  split
  · trivial
  split
  · exact hcycle
  · rename_i hoff
    exact absurd hgrouped hoff

/-- The batch is of issues that no task holds. -/
theorem noDuplicate_groupedCycle (c : Intake.Cycle)
    (hspares : ∀ t ∈ w.state.tasks.rows, t.status = .blocked →
      ∀ p ∈ Intake.candidates c, p.2.issueId ∉ t.issues) :
    (Intake.groupedCycle c).Wp (Contract k) (fun w op => NoDuplicate w.state.tasks op) w
      (fun _ _ => True) := by
  refine wp_groupedCycle c trivial (fun w₁ hsame => ⟨?_, ?_⟩)
    (fun _ _ => noDuplicate_of_settling)
  · intro row hrow t ht hholds id hid
    rw [hsame] at ht
    obtain ⟨plan, hplan, taskId, rfl⟩ := Intake.mem_payloads hrow
    obtain ⟨hview, p, hp, rfl⟩ := Intake.issue_of_mem_groupedPlans hplan hid
    exact not_mem_issues hview ht hholds (fun hblocked => hspares t ht hblocked p hp)
  · exact Intake.pairwise_payloads ((Intake.pairwise_groupedPlans c _).imp (fun h _ _ => h))

/-- A delivery under a grouping policy makes a bundle of its issue, if the view does
not hold it. -/
theorem wp_groupedWebhook {P : Timed Board → StoreOp → Prop} (ev : Intake.IssueEvent) (iid : Int)
    (admission : Intake.Admission) (cfg : GroupingConfig) (taskId : String)
    (hread : P w .getAllTasks)
    (hcreate : ∀ (w' : Timed Board) (plan : TaskPlan), w'.state = w.state →
      plan.issues = [Intake.dedupKey .full ev.projectPath iid] →
      Intake.dedupKey .full ev.projectPath iid ∉
        (Intake.groupingView w.state.tasks.rows).blocked → P w' (.createTask plan))
    (hsettling : ∀ w op, Settling op → P w op) :
    (Intake.groupedWebhook ev iid admission cfg taskId).Wp (Contract k) P w
      (fun _ _ => True) := by
  unfold Intake.groupedWebhook
  split
  · trivial
  refine wp_perform.mpr ⟨hread, fun rows w₁ hC => ?_⟩
  obtain ⟨rfl, hsame⟩ := hC.reply
  dsimp only
  split
  · trivial
  rename_i hfree
  split
  · trivial
  split
  · trivial
  unfold Intake.createBundleTask
  rw [bind_assoc]
  refine wp_perform.mpr ⟨hcreate w₁ _ hsame rfl (fun hview => hfree (.inl hview)), ?_⟩
  refine fun task w₂ _ => Only.wp (S := Settling) ?_ hsettling
  exact only_store trivial (fun _ => only_store trivial (fun _ => trivial))

theorem wp_webhook {P : Timed Board → StoreOp → Prop} (ev : Intake.IssueEvent)
    (policy : GitLabIntakePolicy) (defaults : BootDefaults) (mem : IntakeMemory) (taskId : String)
    (hgrouped : (IntakeCall.webhook ev policy defaults mem taskId).Grouped)
    (hdelivery : ∀ iid admission, ev.iid = .ok iid →
      (Intake.groupedWebhook ev iid admission policy.grouping taskId).Wp (Contract k) P w
        (fun _ _ => True)) :
    (Intake.webhook ev policy defaults mem taskId).Wp (Contract k) P w (fun _ _ => True) := by
  unfold Intake.webhook
  split
  · trivial
  split
  · trivial
  split
  · trivial
  split
  · trivial
  rename_i iid hiid
  split
  · trivial
  split
  · exact hdelivery iid _ hiid
  · rename_i hlegacy
    exact absurd hgrouped hlegacy

theorem noDuplicate_webhook (ev : Intake.IssueEvent) (policy : GitLabIntakePolicy)
    (defaults : BootDefaults)
    (mem : IntakeMemory) (taskId : String)
    (hgrouped : (IntakeCall.webhook ev policy defaults mem taskId).Grouped)
    (hspares : (IntakeCall.webhook ev policy defaults mem taskId).Spares w.state.tasks) :
    (Intake.webhook ev policy defaults mem taskId).Wp (Contract k)
      (fun w op => NoDuplicate w.state.tasks op) w (fun _ _ => True) := by
  refine wp_webhook ev policy defaults mem taskId hgrouped (fun iid admission hiid => ?_)
  refine wp_groupedWebhook ev iid admission policy.grouping taskId trivial
    (fun w' plan hsame hissues hview t ht hholds id hid => ?_)
    (fun _ _ => noDuplicate_of_settling)
  rw [hsame] at ht
  rw [hissues, List.mem_singleton] at hid
  rw [hid]
  exact not_mem_issues hview ht hholds (fun hblocked => hspares t ht hblocked iid hiid)

theorem noDuplicate_pollOnce (c : Intake.Cycle) (defaults : BootDefaults) (mem : IntakeMemory)
    (hgrouped : (IntakeCall.poll c defaults mem).Grouped)
    (hspares : (IntakeCall.poll c defaults mem).Spares w.state.tasks) :
    (Intake.pollOnce c defaults mem).Wp (Contract k)
      (fun w op => NoDuplicate w.state.tasks op) w (fun _ _ => True) :=
  wp_pollOnce c defaults mem hgrouped (noDuplicate_groupedCycle c hspares)

/-! The creations of grouped intake are bundles -/

theorem only_groupedCycle {S : StoreOp → Prop} (c : Intake.Cycle) (hread : S .getAllTasks)
    (hbatch : ∀ view, S (.createTasksBatch (Intake.payloads c (Intake.groupedPlans c view))))
    (hsettling : ∀ op, Settling op → S op) : (Intake.groupedCycle c).Only S := by
  unfold Intake.groupedCycle
  refine only_store hread (fun rows => ?_)
  dsimp only
  split
  · trivial
  · refine only_store (hbatch _) (fun made => ?_)
    refine Only.mono (S := Settling) ?_ hsettling
    refine only_bind (only_recordCreated made _) (fun _ => ?_)
    exact only_store trivial (fun _ => only_store trivial (fun _ => trivial))

theorem bundles_payloads (c : Intake.Cycle) (view : Intake.GroupingView) :
    Bundles (.createTasksBatch (Intake.payloads c (Intake.groupedPlans c view))) := by
  intro row hrow
  obtain ⟨plan, hplan, taskId, rfl⟩ := Intake.mem_payloads hrow
  obtain ⟨_, _, cands, _, hcands⟩ := Intake.mem_groupedPlans hplan
  exact (IntakeGrouping.bundlePlanForRepo_some hcands).2.2.2.1

/-- What intake asks for beside the batch of a cycle: it creates rows in `S`. -/
def Asks (S : TaskPlan → Prop) : StoreOp → Prop
  | .createTask plan => S plan
  | .getAllTasks | .getTask _ | .triggerPendingTasks | .schedulePendingDetailed => True
  | _ => False

section Asks

variable {S : TaskPlan → Prop}

omit [Unicode] in
theorem only_createTaskFromIssue (mem : IntakeMemory) (key : String) (displayIid : Int)
    (title : String) (priority : Int) (requires : List String) (description taskId : String)
    (hissue : ∀ plan : TaskPlan, plan.taskId = taskId → plan.issues = [] → S plan) :
    (Intake.createTaskFromIssue mem key displayIid title priority requires description
      taskId).Only (Asks S) := by
  have hmake : ∀ row : TaskPlan, row.taskId = taskId → row.issues = [] → (do
      let task ← store (.createTask row)
      let _ ← store .triggerPendingTasks
      let _ ← store .schedulePendingDetailed
      pure (task, true, { mem with taskOf := (key, taskId) :: mem.taskOf }) :
        Api (Task × Bool × IntakeMemory)).Only (Asks S) := by
    intro row hid hrow
    exact only_store (hissue row hid hrow) (fun _ =>
      only_store trivial (fun _ => only_store trivial (fun _ => trivial)))
  unfold Intake.createTaskFromIssue
  split
  · refine only_store trivial (fun r => ?_)
    cases r with
    | some task => trivial
    | none => exact hmake _ rfl rfl
  · exact hmake _ rfl rfl

omit [Unicode] in
theorem only_pollIssue (c : Intake.Cycle) (defaults : BootDefaults) (scope : Option IntakeScope)
    (st : IntakeMemory × List String) (issue : GitLabIssue)
    (hissue : ∀ (plan : TaskPlan) i, plan.taskId = c.taskIds i → plan.issues = [] → S plan) :
    (Intake.pollIssue c defaults scope st issue).Only (Asks S) := by
  unfold Intake.pollIssue
  cases scope with
  | none | some =>
      refine only_ite (only_pure _) (only_ite (only_pure _) ?_)
      exact only_bind (only_createTaskFromIssue _ _ _ _ _ _ _ _ (fun plan => hissue plan _))
        (fun _ => only_pure _)

/-- Without grouping, a cycle makes tasks of single issues. -/
theorem only_pollOnce (c : Intake.Cycle) (defaults : BootDefaults) (mem : IntakeMemory)
    (hgrouped : ¬(IntakeCall.poll c defaults mem).Grouped)
    (hissue : ∀ (plan : TaskPlan) i, plan.taskId = c.taskIds i → plan.issues = [] → S plan) :
    (Intake.pollOnce c defaults mem).Only (Asks S) := by
  unfold Intake.pollOnce
  split
  · trivial
  split
  · rename_i hon
    exact absurd hon hgrouped
  · refine only_bind (only_foldlM _ (fun st p => ?_) _) (fun _ => trivial)
    exact only_foldlM _ (fun st issue => only_pollIssue c defaults p.2 st issue hissue) st

/-- A delivery under a grouping policy makes bundles of band 0. -/
theorem only_groupedWebhook (ev : Intake.IssueEvent) (iid : Int) (admission : Intake.Admission)
    (cfg : GroupingConfig) (taskId : String)
    (hbundle : ∀ plan : TaskPlan, plan.taskId = taskId → plan.priority = 0 → plan.issues ≠ [] →
      S plan) :
    (Intake.groupedWebhook ev iid admission cfg taskId).Only (Asks S) := by
  unfold Intake.groupedWebhook
  split
  · trivial
  refine only_store trivial (fun rows => ?_)
  dsimp only
  split
  · trivial
  split
  · trivial
  split
  · trivial
  refine only_bind ?_ (fun _ => trivial)
  exact only_store (hbundle _ rfl rfl (List.cons_ne_nil _ _)) (fun _ =>
    only_store trivial (fun _ => only_store trivial (fun _ => trivial)))

theorem only_webhook (ev : Intake.IssueEvent) (policy : GitLabIntakePolicy)
    (defaults : BootDefaults) (mem : IntakeMemory) (taskId : String)
    (hbundle : (IntakeCall.webhook ev policy defaults mem taskId).Grouped →
      ∀ plan : TaskPlan, plan.taskId = taskId → plan.priority = 0 → plan.issues ≠ [] → S plan)
    (hissue : ¬(IntakeCall.webhook ev policy defaults mem taskId).Grouped →
      ∀ plan : TaskPlan, plan.taskId = taskId → plan.issues = [] → S plan) :
    (Intake.webhook ev policy defaults mem taskId).Only (Asks S) := by
  unfold Intake.webhook
  split
  · trivial
  split
  · trivial
  split
  · trivial
  split
  · trivial
  split
  · trivial
  split
  · rename_i hon
    exact only_groupedWebhook ev _ _ policy.grouping taskId (hbundle hon)
  · rename_i hoff
    exact only_bind (only_createTaskFromIssue _ _ _ _ _ _ _ _ (hissue hoff)) (fun _ => trivial)

end Asks

/-- Grouped intake makes no task of a single issue but as a bundle. -/
theorem IntakeCall.only_bundles {call : IntakeCall} (hgrouped : call.Grouped)
    (hintake : ∀ c hc, call ≠ .task c hc) : call.prog.Only Bundles := by
  cases call with
  | poll c defaults mem =>
      refine only_bind ?_ (fun _ => trivial)
      unfold Intake.pollOnce
      split
      · trivial
      split
      · exact only_groupedCycle c trivial (bundles_payloads c) (fun _ => bundles_of_settling)
      · rename_i hoff
        exact absurd hgrouped hoff
  | webhook ev policy defaults mem taskId =>
      refine only_bind ?_ (fun _ => trivial)
      refine Only.mono (only_webhook (S := fun plan => plan.issues ≠ []) ev policy defaults mem
        taskId (fun _ _ _ _ hissues => hissues) (fun hoff => absurd hgrouped hoff))
        (fun op hop => ?_)
      cases op with
      | createTask plan => exact hop
      | createTasksBatch => exact hop.elim
      | _ => trivial
  | task c hc => exact absurd rfl (hintake c hc)

end Calls

/-! Other calls make no bundles -/

omit [Unicode] in
def NotBatch (c : Call) (_ : Timed Board) : Prop :=
  ∀ plans, c ≠ .createBatch plans

theorem notBatch_meets {k : Backend} {c : Call} {w : Timed k.Store}
    (hc : ∀ plans, c ≠ .createBatch plans) : k.Meets NotBatch c w := by
  cases c with
  | sweep order => exact callsMeet_of_forall (fun _ _ _ h => by cases h) _ _
  | _ => exact hc

theorem Issued.issueless {c : Call} {w₀ : Timed Board} {b : Board} {op : StoreOp}
    (h : Issued c w₀ b op) (hc : NotBatch c w₀) : ∀ plan ∈ op.plans, plan.issues = [] := by
  cases h with
  | idle hidle =>
      intro plan hplan
      cases op <;> first | exact hidle.elim | cases hplan
  | submit =>
      intro plan hplan
      obtain rfl := List.mem_singleton.mp hplan
      rfl
  | batch hbatch => exact absurd hbatch (hc _)
  | _ => exact List.forall_mem_nil _

theorem Call.along_issueless {k : Backend} {c : Call} (hc : ∀ plans, c ≠ .createBatch plans)
    (w : Timed k.Store) :
    c.prog.Along k.tick (fun _ op _ => ∀ plan ∈ op.plans, plan.issues = []) w := by
  refine (Backend.keeps_call (I := fun _ => True) NotBatch (fun w op hidle _ => ⟨?_, trivial⟩)
    (fun c w₀ w op hnot _ _ hissued => ⟨hissued.issueless hnot, trivial⟩) c w trivial
    (notBatch_meets hc)).1
  intro plan hplan
  cases op <;> first | exact hidle.elim | cases hplan

omit [Unicode] in
theorem noDuplicate_of_issueless {tasks : Table Task} {op : StoreOp}
    (h : ∀ plan ∈ op.plans, plan.issues = []) : NoDuplicate tasks op := by
  cases op with
  | createTask plan =>
      intro t _ _ id hid
      rw [h plan List.mem_cons_self] at hid
      cases hid
  | createTasksBatch plans =>
      have hnone : ∀ plan ∈ plans, ∀ id, id ∉ plan.issues := by
        intro plan hplan id hid
        rw [h plan hplan] at hid
        cases hid
      refine ⟨fun plan hplan t _ _ id hid => absurd hid (hnone plan hplan id), ?_⟩
      exact List.pairwise_iff_forall_sublist.mpr (fun hpair id hid =>
        absurd hid (hnone _ (hpair.subset List.mem_cons_self) id))
  | _ => trivial

theorem Call.along_noDuplicate {k : Backend} {c : Call} (hc : ∀ plans, c ≠ .createBatch plans)
    (w : Timed k.Store) :
    c.prog.Along k.tick (fun w op _ => NoDuplicate (k.board w.state).tasks op) w :=
  (c.along_issueless hc w).mono (fun _ _ _ => noDuplicate_of_issueless)

theorem IntakeCall.along_noDuplicate {k : Backend} {call : IntakeCall} {w : Timed k.Store}
    (hgrouped : call.Grouped) (hspares : call.Spares (k.board w.state).tasks) :
    call.prog.Along k.tick (fun w op _ => NoDuplicate (k.board w.state).tasks op) w := by
  cases call with
  | task c hc => exact c.along_noDuplicate hc w
  | poll c defaults mem =>
      have hview : (poll c defaults mem).Spares (k.view w).state.tasks := hspares
      have hwp : (poll c defaults mem).prog.Wp (Contract k)
          (fun (w : Timed Board) op => NoDuplicate w.state.tasks op) (k.view w)
          (fun _ _ => True) :=
        (noDuplicate_pollOnce c defaults mem hgrouped hview).discard
      exact (along_of_wp k.implements hwp).1
  | webhook ev policy defaults mem taskId =>
      have hview : (webhook ev policy defaults mem taskId).Spares (k.view w).state.tasks := hspares
      have hwp : (webhook ev policy defaults mem taskId).prog.Wp (Contract k)
          (fun (w : Timed Board) op => NoDuplicate w.state.tasks op) (k.view w)
          (fun _ _ => True) :=
        (noDuplicate_webhook ev policy defaults mem taskId hgrouped hview).discard
      exact (along_of_wp k.implements hwp).1

/-- Through any run of grouped poll cycles and webhook deliveries, with any calls
of the task API, passes and recoveries in between, on any store: as long as no
issue that comes in is a member of a blocked bundle, no issue that a task holds
is put in a new bundle, nor in two; and intake makes nothing but bundles. -/
theorem noDuplicate_of_intake (k : Backend) (cs : List TimedIntake) (w : Timed k.Store)
    (hgrouped : ∀ c ∈ cs, c.call.Grouped)
    (hspares : k.IntakeMeets (fun c w => c.Spares (k.board w.state).tasks) cs w) :
    k.AlongIntake (fun w op _ => NoDuplicate (k.board w.state).tasks op) cs w ∧
      ∀ c ∈ cs, (∀ task hc, c.call ≠ .task task hc) → c.call.prog.Only Bundles := by
  refine ⟨?_, fun c hc hintake => c.call.only_bundles (hgrouped c hc) hintake⟩
  induction cs generalizing w with
  | nil => trivial
  | cons c cs ih =>
      obtain ⟨hfirst, hrest⟩ := hspares
      refine ⟨c.call.along_noDuplicate (hgrouped c List.mem_cons_self) hfirst, ?_⟩
      exact ih _ (fun c' hc' => hgrouped c' (List.mem_cons_of_mem _ hc')) hrest

/-- Of the operations of a cycle, the batch of its plans is what matters. -/
theorem along_groupedCycle_iff {P : StoreOp → Prop} (k : Backend) (c : Intake.Cycle)
    (w : Timed k.Store) (hrest : ∀ op, (∀ rows, op ≠ .createTasksBatch rows) → P op)
    (hnil : P (.createTasksBatch [])) :
    (Intake.groupedCycle c).Along k.tick (fun _ op _ => P op) w ↔
      P (.createTasksBatch (Intake.payloads c
        (Intake.groupedPlans c (Intake.groupingView (k.board w.state).tasks.rows)))) := by
  have hread : (k.tick .getAllTasks w).1 = (k.board w.state).tasks.rows :=
    (k.implements .getAllTasks w).reply.1
  have hsettle : ∀ (made : List Task) (rows : List TaskPlan) (w' : Timed k.Store), (do
      let created ← rows.foldlM (Intake.recordCreated made) []
      let _ ← store .triggerPendingTasks
      let _ ← store .schedulePendingDetailed
      pure created : Api (List String)).Along k.tick (fun _ op _ => P op) w' := by
    intro made rows w'
    refine along_of_only (Only.mono (S := Settling) ?_ (fun op hop => hrest op ?_))
    · refine only_bind (only_recordCreated made rows) (fun _ => ?_)
      exact only_store trivial (fun _ => only_store trivial (fun _ => trivial))
    · rintro rows rfl
      exact hop
  rw [← hread]
  unfold Intake.groupedCycle
  by_cases hnone : Intake.groupedPlans c (Intake.groupingView (k.tick .getAllTasks w).1) = []
  · rw [hnone]
    refine ⟨fun _ => hnil, fun _ => ⟨hrest _ nofun, ?_⟩⟩
    change Along k.tick _ (if Intake.groupedPlans c (Intake.groupingView _) = [] then _ else _) _
    rw [if_pos hnone]
    trivial
  · constructor
    · rintro ⟨-, h⟩
      change Along k.tick _ (if Intake.groupedPlans c (Intake.groupingView _) = [] then _ else _) _
        at h
      rw [if_neg hnone] at h
      exact h.1
    · intro h
      refine ⟨hrest _ nofun, ?_⟩
      change Along k.tick _ (if Intake.groupedPlans c (Intake.groupingView _) = [] then _ else _) _
      rw [if_neg hnone]
      exact ⟨h, hsettle _ _ _⟩

end Runs

section Example

local instance asciiIntake : Unicode := Unicode.ascii

/-- A store with one node and no tasks. -/
def emptyIntake : Timed ClusterState where
  state := { nodes := .single { id := "n" }, index_ok := indexOk_initial }
  clock := fun _ => 0

/-- A cycle in which GitLab lists one issue of a project. -/
def polled (taskId : String) : TimedIntake where
  call := .poll
    { policy := { requires := [], grouping := { enabled := true }, configured := true }
      fetched := [([{ iid := 7, fullRef := "team/app#7" }], none)]
      gitlab := ⟨fun _ => some [], fun _ => [], fun _ => true⟩
      now := 0
      taskIds := fun _ => taskId } {} {}
  clock := fun _ => 1

/-- The session of the first bundle asks its owner. -/
def asked : TimedIntake where
  call := .task (.block "first" { question := "which branch?", options := ["main"] })
    (fun _ h => by cases h)
  clock := fun _ => 2

/-- The bundle runs during the second cycle, which leaves its issue alone. -/
theorem noDuplicate_of_intake_running :
    Backend.memory.AlongIntake
      (fun w op _ => NoDuplicate (Backend.memory.board w.state).tasks op)
      [polled "first", polled "second", asked] emptyIntake := by
  refine (noDuplicate_of_intake .memory [polled "first", polled "second", asked] emptyIntake
    ?_ ⟨?_, ?_, trivial, trivial⟩).1
  · simp [polled, asked, IntakeCall.Grouped]
  · intro t ht
    cases ht
  · intro t ht hblocked
    have hrunning : ∀ t ∈ (Backend.memory.runIntake [polled "first"] emptyIntake).state.tasks.rows,
        t.status = .running := by
      decide
    exact absurd hblocked (by rw [hrunning t ht]; decide)

/-- The bundle is blocked during the second cycle, which takes its issue again. -/
theorem blocked_issue_taken :
    ¬Backend.memory.AlongIntake
      (fun w op _ => NoDuplicate (Backend.memory.board w.state).tasks op)
      [polled "first", asked, polled "second"] emptyIntake := by
  intro h
  have hsecond : (polled "second").call.prog.Along Backend.memory.tick
      (fun w op _ => NoDuplicate (Backend.memory.board w.state).tasks op)
      ((polled "second").enter (Backend.memory.runIntake [polled "first", asked] emptyIntake)) :=
    h.2.2.1
  revert hsecond
  decide

end Example

end HermesCluster
