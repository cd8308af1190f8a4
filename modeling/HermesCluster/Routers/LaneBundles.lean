import HermesCluster.Routers.IntakeRuns
import HermesCluster.Routers.LaneKinds
/-!
# One outstanding bundle per lane

A grouped cycle looks at the lanes once and plans each project on what it saw:
a lane with a queued or an active bundle gets no second one of a band above 0.
The view does not see blocked bundles, nor the plans made since it was taken.
-/

namespace HermesCluster

open Program hiding pure bind

/-- A bundle of a band above 0 that is not closed. -/
def Outstanding (t : Task) : Prop :=
  t.issues ≠ [] ∧ 0 < t.priority ∧ ¬Tasks.IsClosed t.status

instance : DecidablePred Outstanding := fun t =>
  inferInstanceAs (Decidable (t.issues ≠ [] ∧ 0 < t.priority ∧ ¬Tasks.IsClosed t.status))

/-- At most one bundle is outstanding on each lane. -/
def OneOutstanding (tasks : Table Task) : Prop :=
  ∀ t ∈ tasks.rows, ∀ u ∈ tasks.rows, Outstanding t → Outstanding u → u.laneKey = t.laneKey →
    u = t

instance : DecidablePred OneOutstanding := fun tasks =>
  inferInstanceAs (Decidable (∀ t ∈ tasks.rows, ∀ u ∈ tasks.rows, Outstanding t → Outstanding u →
    u.laneKey = t.laneKey → u = t))

/-- The row to create is of a bundle of a band above 0. -/
def TaskPlan.Ranks (plan : TaskPlan) : Prop :=
  plan.issues ≠ [] ∧ 0 < plan.priority

/-- No two bundles of a batch are for one lane. -/
def OwnLanes (plans : List TaskPlan) : Prop :=
  plans.Pairwise (fun p q => p.Ranks → q.Ranks → q.laneKey ≠ p.laneKey)

/-- What keeps bundles apart, of one operation: a bundle is created on a lane of
its own, and no closed task is written over. -/
def KeepsBundles (k : Backend) (tasks : Table Task) : StoreOp → Prop
  | .createTask plan => ¬plan.Ranks
  | .createTasksBatch plans =>
      OwnLanes plans ∧
        ∀ plan ∈ plans, plan.Ranks → ∀ t ∈ tasks.rows, Outstanding t → t.laneKey ≠ plan.laneKey
  | .setTaskStatus taskId _ _ =>
      k = .memory ∨ ∀ t, tasks.get? taskId = some t → ¬Tasks.IsClosed t.status
  | .handleSyncMessage _ => False
  | _ => True

theorem refuses_of_isClosed {status status' : TaskStatus} (h : Tasks.IsClosed status) :
    ClusterState.Refuses status status' := by
  refine ⟨isTerminal_of_isClosed h, ?_⟩
  rintro ⟨rfl, -⟩
  revert h
  decide

/-- The bundles of a band above 0, as a kind of task. -/
def bundleKind : LaneKind where
  Holds issues priority _ _ := issues ≠ [] ∧ 0 < priority
  Ended := Tasks.IsClosed
  isTerminal := isTerminal_of_isClosed
  stays hclosed hguard := absurd (refuses_of_isClosed hclosed) hguard

theorem open_bundleKind (t : Task) : bundleKind.Open t ↔ Outstanding t :=
  and_assoc

theorem alone_bundleKind (tasks : Table Task) : bundleKind.Alone tasks ↔ OneOutstanding tasks := by
  unfold LaneKind.Alone OneOutstanding
  simp only [open_bundleKind]

theorem spares_of_keepsBundles {k : Backend} {tasks : Table Task} {op : StoreOp}
    (h : KeepsBundles k tasks op) : bundleKind.Spares k tasks op := by
  cases op with
  | createTask plan => exact .of_creation (fun hplans => absurd hplans h)
  | createTasksBatch plans =>
      refine .of_batch h.1 (fun p hp hplans t ht hopen => ?_)
      exact h.2 p hp hplans t ht ((open_bundleKind t).mp hopen)
  | setTaskStatus taskId status reason =>
      refine .of_status (h.imp id (fun hopen => .inr (fun t ht hclosed => ?_)))
      exact absurd hclosed (hopen t ht)
  | handleSyncMessage msg => exact h.elim
  | _ => exact .of_plain rfl (fun _ _ _ heq => by cases heq) (fun _ heq => by cases heq)

theorem oneOutstanding_step [Unicode] {k : Backend} {now : Nat} {b b' : Board} {op : StoreOp}
    (h : OneOutstanding b.tasks) (hop : bundleKind.Spares k b.tasks op)
    (hevolves : b.tasks.Evolves (Rewrites k now b op) (Created k now op) b'.tasks) :
    OneOutstanding b'.tasks :=
  (alone_bundleKind _).mp (LaneKind.alone_step ((alone_bundleKind _).mpr h) hop hevolves)

/-! ## What a cycle plans -/

section Plans

variable [Unicode] {c : Intake.Cycle} {view : Intake.GroupingView} {plan : BundlePlan}
  {repo : String × List Candidate}

namespace Intake

omit [Unicode] in
/-- The lane of a project. -/
def laneOf (c : Cycle) (repo : String × List Candidate) : String :=
  IntakeGrouping.laneKeyFor repo.1 c.policy.grouping

/-- An issue of a band above 0 waits, and the view has no bundle on its lane. -/
def Wants (c : Cycle) (view : GroupingView) (repo : String × List Candidate) : Prop :=
  (∃ cand ∈ unreferenced c view repo, 0 < cand.band) ∧
    (∀ e ∈ view.lanes.queuedBundles, e.lane ≠ laneOf c repo) ∧
      ∀ e ∈ view.lanes.activeBundles, e.lane ≠ laneOf c repo

instance (c : Cycle) (view : GroupingView) : DecidablePred (Wants c view) := fun repo =>
  inferInstanceAs (Decidable ((∃ cand ∈ unreferenced c view repo, 0 < cand.band) ∧
    (∀ e ∈ view.lanes.queuedBundles, e.lane ≠ laneOf c repo) ∧
      ∀ e ∈ view.lanes.activeBundles, e.lane ≠ laneOf c repo))

/-- No two projects of a cycle want one lane, and none that of a blocked bundle. -/
def Apart (c : Cycle) (rows : List Task) : Prop :=
  (Grouping.groups (candidates c)).Pairwise (fun r s => Wants c (groupingView rows) r →
      Wants c (groupingView rows) s → laneOf c s ≠ laneOf c r) ∧
    ∀ repo ∈ Grouping.groups (candidates c), Wants c (groupingView rows) repo →
      ∀ t ∈ rows, t.status = .blocked → Outstanding t → t.laneKey ≠ laneOf c repo

instance (c : Cycle) : DecidablePred (Apart c) := fun rows =>
  inferInstanceAs (Decidable
    ((Grouping.groups (candidates c)).Pairwise (fun r s => Wants c (groupingView rows) r →
        Wants c (groupingView rows) s → laneOf c s ≠ laneOf c r) ∧
      ∀ repo ∈ Grouping.groups (candidates c), Wants c (groupingView rows) repo →
        ∀ t ∈ rows, t.status = .blocked → Outstanding t → t.laneKey ≠ laneOf c repo))

theorem wants_of_planRepo (h : planRepo c view repo = some plan) (hpos : 0 < plan.priority) :
    plan.laneKey = laneOf c repo ∧ Wants c view repo := by
  obtain ⟨cands, hsub, hplan⟩ := planRepo_some h
  obtain ⟨cand, hcand, hband⟩ := (planFor_some hplan).2
  obtain ⟨hlane, -, -, -, hguard⟩ := IntakeGrouping.bundlePlanForRepo_some hplan
  exact ⟨hlane, ⟨cand, hsub cand hcand, hband ▸ hpos⟩, hguard hpos⟩

omit [Unicode] in
theorem laneOf_ne_empty (c : Cycle) (repo : String × List Candidate) : laneOf c repo ≠ "" := by
  unfold laneOf IntakeGrouping.laneKeyFor
  intro hempty
  have hlength := congrArg String.length hempty
  simp at hlength

/-- The view of the lanes misses only blocked bundles. -/
theorem blocked_of_outstanding {rows : List Task} {t : Task} (ht : t ∈ rows)
    (hout : Outstanding t) (hlane : t.laneKey = laneOf c repo)
    (hwants : Wants c (groupingView rows) repo) : t.status = .blocked := by
  obtain ⟨-, hqueued, hactive⟩ := hwants
  by_contra hunblocked
  have hon : OnLane t := by
    refine ⟨hout.1, ?_, hlane ▸ laneOf_ne_empty c repo⟩
    have hopen := hout.2.2
    unfold Tasks.IsClosed at hopen
    unfold issueHoldingStatuses
    cases hstatus : t.status <;> simp_all
  by_cases htactive : t.status.IsActive
  · refine hactive (laneEntry t) (List.mem_map_of_mem (List.mem_filter.mpr ⟨ht, ?_⟩)) hlane
    exact decide_eq_true ⟨hon, htactive⟩
  · refine hqueued (laneEntry t) (List.mem_map_of_mem (List.mem_filter.mpr ⟨ht, ?_⟩)) hlane
    exact decide_eq_true ⟨hon, htactive⟩

end Intake

end Plans

/-! ## Calls -/

/-- No node releases a task of its own that is closed. -/
def Unrevived (c : Call) (w : Timed Board) : Prop :=
  match c with
  | .release taskId req => ∀ t, w.state.tasks.get? taskId = some t →
      t.assignedTo = some req.nodeId → ¬Tasks.IsClosed t.status
  | _ => True

section Calls

variable [Unicode] {k : Backend}

/-- What a cycle may not find, and what a release may not, on an SQL store. -/
def IntakeCall.Solitary (k : Backend) (call : IntakeCall) (w : Timed k.Store) : Prop :=
  match call with
  | poll c defaults mem =>
      (poll c defaults mem).Grouped → Intake.Apart c (k.board w.state).tasks.rows
  | webhook _ _ _ _ _ => True
  | task c _ => k = .memory ∨ Unrevived c (k.view w)

omit [Unicode] in
theorem unrevived_bundleKind {c : Call} {w : Timed Board} (h : Unrevived c w) :
    bundleKind.Unrevived c w := by
  rintro taskId req rfl
  exact h

omit [Unicode] in
theorem keepsBundles_of_settling {tasks : Table Task} {op : StoreOp} (h : Settling op) :
    KeepsBundles k tasks op := by
  cases op with
  | createTask | createTasksBatch | setTaskStatus | handleSyncMessage => exact h.elim
  | _ => trivial

omit [Unicode] in
theorem keepsBundles_of_asks {tasks : Table Task} {op : StoreOp}
    (h : Asks (fun plan => ¬plan.Ranks) op) : KeepsBundles k tasks op := by
  cases op with
  | createTask => exact h
  | createTasksBatch | setTaskStatus | handleSyncMessage => exact h.elim
  | _ => trivial

/-- The bundles of a cycle are on lanes of their own. -/
theorem keepsBundles_payloads {c : Intake.Cycle} {tasks : Table Task}
    (hapart : Intake.Apart c tasks.rows) :
    KeepsBundles k tasks (.createTasksBatch
      (Intake.payloads c (Intake.groupedPlans c (Intake.groupingView tasks.rows)))) := by
  constructor
  · refine Intake.pairwise_payloads ?_
    unfold Intake.groupedPlans
    rw [List.pairwise_filterMap]
    refine hapart.1.imp ?_
    intro r s hrs p hp q hq _ _ hranks hranks'
    obtain ⟨hlane, hwants⟩ := Intake.wants_of_planRepo hp hranks.2
    obtain ⟨hlane', hwants'⟩ := Intake.wants_of_planRepo hq hranks'.2
    intro heq
    exact hrs hwants hwants' (hlane'.symm.trans (heq.trans hlane))
  · intro row hrow hranks t ht hout hlane
    obtain ⟨plan, hplan, taskId, rfl⟩ := Intake.mem_payloads hrow
    obtain ⟨repo, hrepo, hplan⟩ := List.mem_filterMap.mp hplan
    obtain ⟨hown, hwants⟩ := Intake.wants_of_planRepo hplan hranks.2
    have hsame : t.laneKey = Intake.laneOf c repo := hlane.trans hown
    have hblocked := Intake.blocked_of_outstanding ht hout hsame hwants
    exact hapart.2 repo hrepo hwants t ht hblocked hout hsame

theorem IntakeCall.along_keepsBundles {call : IntakeCall} {w : Timed k.Store}
    (hcall : ∀ c hc, call ≠ .task c hc) (hsolitary : call.Solitary k w) :
    call.prog.Along k.tick (fun w op _ => KeepsBundles k (k.board w.state).tasks op) w := by
  have hbundle : ∀ plan : TaskPlan, plan.priority = 0 → plan.issues ≠ [] → ¬plan.Ranks :=
    fun plan hzero _ hranks => absurd hranks.2 (by omega)
  have hissue : ∀ plan : TaskPlan, plan.issues = [] → ¬plan.Ranks :=
    fun plan hissues hranks => hranks.1 hissues
  have hasks : ∀ {α : Type} {p : Api α}, p.Only (Asks (fun plan => ¬plan.Ranks)) →
      p.Wp (Contract k) (fun (w : Timed Board) op => KeepsBundles k w.state.tasks op) (k.view w)
        (fun _ _ => True) :=
    fun h => h.wp (fun _ _ => keepsBundles_of_asks)
  have hwp : call.prog.Wp (Contract k)
      (fun (w : Timed Board) op => KeepsBundles k w.state.tasks op) (k.view w)
      (fun _ _ => True) := by
    cases call with
    | task c hc => exact absurd rfl (hcall c hc)
    | webhook ev policy defaults mem taskId =>
        refine hasks (only_bind ?_ (fun _ => only_pure _))
        exact only_webhook ev policy defaults mem taskId (fun _ plan _ => hbundle plan)
          (fun _ plan _ => hissue plan)
    | poll c defaults mem =>
        by_cases hgrouped : (poll c defaults mem).Grouped
        · have hapart := hsolitary hgrouped
          refine Wp.discard (wp_pollOnce c defaults mem hgrouped ?_)
          refine wp_groupedCycle c trivial (fun w' hsame => ?_)
            (fun _ _ => keepsBundles_of_settling)
          rw [hsame]
          exact keepsBundles_payloads hapart
        · refine hasks (only_bind ?_ (fun _ => only_pure _))
          exact only_pollOnce c defaults mem hgrouped (fun plan _ _ => hissue plan)
  exact (along_of_wp k.implements hwp).1

/-- Every call, operation by operation. -/
theorem IntakeCall.keeps_oneOutstanding (call : IntakeCall) {w : Timed k.Store}
    (hsolitary : call.Solitary k w) (h : OneOutstanding (k.board w.state).tasks) :
    call.prog.Keeps k.tick (fun _ _ w' => OneOutstanding (k.board w'.state).tasks)
      (fun w => OneOutstanding (k.board w.state).tasks) w := by
  have hstep : ∀ (w : Timed k.Store) op, OneOutstanding (k.board w.state).tasks →
      bundleKind.Spares k (k.board w.state).tasks op →
      OneOutstanding (k.board (k.tick op w).2.state).tasks ∧
        OneOutstanding (k.board (k.tick op w).2.state).tasks := by
    intro w op h hop
    have hnext := oneOutstanding_step h hop (k.implements op w).tasks
    exact ⟨hnext, hnext⟩
  by_cases hcall : ∀ c hc, call ≠ .task c hc
  · exact keeps_of_along (A := fun w op => KeepsBundles k (k.board w.state).tasks op)
      (call.along_keepsBundles hcall hsolitary) h
      (fun w op h hop => hstep w op h (spares_of_keepsBundles hop))
  · simp only [not_forall, not_not] at hcall
    obtain ⟨c, hc, rfl⟩ := hcall
    have hcond : k.Meets (fun c w => NotBatch c w ∧ (k = .memory ∨ Unrevived c w)) c w := by
      cases c with
      | sweep order =>
          exact callsMeet_of_forall (fun _ _ => ⟨fun _ h => (by cases h), .inr trivial⟩) _ _
      | _ => exact ⟨hc, hsolitary⟩
    refine Backend.keeps_call _ (fun w op hidle h => hstep w op h (LaneKind.spares_of_idle hidle))
      (fun c w₀ w op hcond _ h hissued => hstep w op h ?_) c w h hcond
    refine LaneKind.spares_of_issued hissued (fun _ _ _ hplans => hplans.1 rfl)
      (fun plans hc => absurd hc (hcond.1 plans)) (hcond.2.imp id unrevived_bundleKind)

/-- Through any run of poll cycles and webhook deliveries, with any calls of the
task API, passes and recoveries in between, on any store: if no two projects of a
grouped cycle want one lane, and none the lane of a blocked bundle, at most one
bundle of a band above 0 is outstanding on each lane after each operation. -/
theorem oneOutstanding_of_intake (k : Backend) (cs : List TimedIntake) (w : Timed k.Store)
    (hstart : OneOutstanding (k.board w.state).tasks)
    (hsolitary : k.IntakeMeets (fun c w => c.Solitary k w) cs w) :
    k.AlongIntake (fun _ _ w' => OneOutstanding (k.board w'.state).tasks) cs w ∧
      OneOutstanding (k.board (k.runIntake cs w).state).tasks := by
  have henter : ∀ (c : TimedIntake) (w : Timed k.Store), OneOutstanding (k.board w.state).tasks →
      OneOutstanding (k.board (c.enter w).state).tasks := fun _ _ h => h
  exact alongAll_of_calls (I := fun w : Timed k.Store => OneOutstanding (k.board w.state).tasks)
    henter (fun c _ h hsolitary => c.call.keeps_oneOutstanding hsolitary h) hstart hsolitary

end Calls

section Example

local instance asciiBundles : Unicode := Unicode.ascii

/-- An in-memory store with no nodes and no tasks. -/
def emptyBundles : Timed ClusterState := ⟨ClusterState.empty, fun _ => 0⟩

/-- A cycle in which GitLab lists these issues. -/
def grouped (issues : List GitLabIssue) (taskIds : Nat → String) : TimedIntake where
  call := .poll
    { policy := { requires := [], grouping := { enabled := true }, configured := true }
      fetched := [(issues, none)]
      gitlab := ⟨fun _ => some [], fun _ => [], fun _ => true⟩
      now := 0
      taskIds := taskIds } {} {}
  clock := fun _ => 1

/-- Two projects whose last segment is the same. -/
def leftIssue : GitLabIssue := { iid := 1, fullRef := "left/app#1" }
def rightIssue : GitLabIssue := { iid := 2, fullRef := "right/app#2" }

/-- The tasks of the in-memory store after some cycles. -/
def ranBundles (cs : List TimedIntake) : Table Task :=
  (Backend.memory.board (Backend.memory.runIntake cs emptyBundles).state).tasks

/-- The second project waits for the bundle of the first. -/
theorem oneOutstanding_of_intake_inTurn :
    OneOutstanding (ranBundles [grouped [leftIssue] (fun _ => "first"),
      grouped [leftIssue, rightIssue] (fun _ => "second")]) := by
  have hempty : OneOutstanding (Backend.memory.board emptyBundles.state).tasks := by
    intro t ht
    cases ht
  have hsolitary : Backend.memory.IntakeMeets (fun c w => c.Solitary .memory w)
      [grouped [leftIssue] (fun _ => "first"), grouped [leftIssue, rightIssue] (fun _ => "second")]
      emptyBundles := by
    refine ⟨fun _ => ?_, fun _ => ?_, trivial⟩
    · decide +kernel
    · decide +kernel
  exact (oneOutstanding_of_intake .memory _ emptyBundles hempty hsolitary).2

/-- Both projects are planned in one cycle, on the lane as it was before. -/
theorem two_bundles_planned :
    ¬OneOutstanding (ranBundles
      [grouped [leftIssue, rightIssue] (fun i => if i = 0 then "first" else "second")]) := by
  decide +kernel

end Example

end HermesCluster
