import HermesCluster.State.Contract
/-!
# The SQLite store beside the in-memory store

The task operations of the two stores compared one by one, on stores that hold
the same tasks and leases. `AgreesWhen` is the exact condition, on the board and
the arguments, under which both answer alike and leave tasks alike; runs from
the empty stores follow.
-/

namespace HermesCluster

/-! ## What is compared -/

/-- What a caller sees of the state machine in a task row. -/
structure TaskView where
  status : TaskStatus
  assignedTo : Option String
  dependsOn : List String
  result : Option String
  deriving DecidableEq, Repr

def Task.view (t : Task) : TaskView :=
  ⟨t.status, t.assignedTo, t.dependsOn, t.result⟩

/-- The operations on tasks that both stores implement. -/
inductive TaskOp where
  | createTask (plan : TaskPlan)
  | createTasksBatch (plans : List TaskPlan)
  | setTaskStatus (taskId : String) (status : TaskStatus) (failReason : String)
  | unassignTask (taskId : String)
  | requeueTask (taskId reason : String)
  | unblockTask (taskId : String)
  | unblockToReady (taskId : String)
  | setDependencies (taskId : String) (dependsOn : List String)
  | triggerPendingTasks

/-- What an operation answers. -/
inductive Answer where
  | rows (views : List (String × TaskView))
  | flag (b : Bool)
  | count (n : Nat)
  deriving DecidableEq, Repr

namespace TaskOp

abbrev op : TaskOp → StoreOp
  | createTask plan => .createTask plan
  | createTasksBatch plans => .createTasksBatch plans
  | setTaskStatus taskId status failReason => .setTaskStatus taskId status failReason
  | unassignTask taskId => .unassignTask taskId
  | requeueTask taskId reason => .requeueTask taskId reason
  | unblockTask taskId => .unblockTask taskId
  | unblockToReady taskId => .unblockToReady taskId
  | setDependencies taskId dependsOn => .setDependencies taskId dependsOn
  | triggerPendingTasks => .triggerPendingTasks

def answer : (o : TaskOp) → o.op.Res → Answer
  | createTask _, (task : Task) => .rows [(task.id, task.view)]
  | createTasksBatch _, (tasks : List Task) => .rows (tasks.map (fun t => (t.id, t.view)))
  | setTaskStatus _ _ _, (b : Bool) => .flag b
  | unassignTask _, (b : Bool) => .flag b
  | requeueTask _ _, (b : Bool) => .flag b
  | unblockTask _, (b : Bool) => .flag b
  | unblockToReady _, (b : Bool) => .flag b
  | setDependencies _ _, (b : Bool) => .flag b
  | triggerPendingTasks, (n : Nat) => .count n

end TaskOp

/-- The view of the row stored under an id. -/
def viewOf (tasks : Table Task) (taskId : String) : Option TaskView :=
  (tasks.get? taskId).map Task.view

/-- The view a plan asks for: unassigned, without a result. -/
def TaskPlan.view (plan : TaskPlan) (status : TaskStatus) : TaskView :=
  ⟨status, none, plan.dependsOn, none⟩

/-- The status a plan of a batch is published with. -/
def TaskPlan.firstStatus (plan : TaskPlan) : TaskStatus :=
  if plan.dependsOn = [] then .ready else .pending

/-- Both stores answer alike and leave the same tasks. -/
def Agree [Unicode] (now : Nat) (o : TaskOp) (m : ClusterState) (s : ClusterStore) : Prop :=
  o.answer (m.step now o.op).1 = o.answer (s.step .sqlite now o.op).1 ∧
    ∀ taskId, viewOf (m.step now o.op).2.tasks taskId
      = viewOf (s.step .sqlite now o.op).2.tasks taskId

/-- The condition, on the board before the operation and its arguments. -/
def AgreesWhen (now : Nat) (b : Board) : TaskOp → Prop
  | .createTask plan =>
      plan.dependsOn ≠ [] ∧
        ∀ v, viewOf b.tasks plan.taskId = some v → v = plan.view .pending
  | .createTasksBatch plans =>
      ∀ plan ∈ plans,
        (∀ other ∈ plans, other.taskId = plan.taskId → other.dependsOn = plan.dependsOn) ∧
          ∀ v, viewOf b.tasks plan.taskId = some v →
            v = plan.view .pending ∨ v = plan.view plan.firstStatus
  | .setTaskStatus taskId status _ =>
      ∀ task, b.tasks.get? taskId = some task → ¬ClusterState.Refuses task.status status
  | .unassignTask taskId =>
      ∀ task, b.tasks.get? taskId = some task → ¬task.status.IsTerminal →
        ((taskId ≠ "" ∧ ∃ l ∈ b.leases.rows, l.taskId = taskId ∧ l.status = .active) ↔
          ∃ l ∈ b.leases.rows, l.taskId = taskId ∧ l.IsLive now)
  | .setDependencies taskId dependsOn =>
      ∀ task, b.tasks.get? taskId = some task → task.status = .ready → dependsOn = []
  | .requeueTask _ _ => True
  | .unblockTask _ => True
  | .unblockToReady _ => True
  | .triggerPendingTasks => True

/-- No creation writes over a row, nor twice under one id. -/
def CreatesFresh (b : Board) : TaskOp → Prop
  | .createTask plan => b.tasks.get? plan.taskId = none
  | .createTasksBatch plans =>
      (∀ plan ∈ plans, b.tasks.get? plan.taskId = none) ∧
        (plans.map TaskPlan.taskId).Nodup
  | _ => True

/-! ## One operation -/

section Operations

variable [Unicode] {now : Nat} {m : ClusterState} {s : ClusterStore}

/-- The strongest form of agreement: the very same rows. -/
def SameRows (now : Nat) (o : TaskOp) (m : ClusterState) (s : ClusterStore) : Prop :=
  o.answer (m.step now o.op).1 = o.answer (s.step .sqlite now o.op).1 ∧
    (m.step now o.op).2.tasks = (s.step .sqlite now o.op).2.tasks

theorem SameRows.agree {o : TaskOp} (h : SameRows now o m s) : Agree now o m s :=
  ⟨h.1, fun _ => by rw [h.2]⟩

variable {o : TaskOp} {r r' : o.op.Res} {m' : ClusterState} {s' : ClusterStore}

theorem SameRows.of_steps (hm : m.step now o.op = (r, m'))
    (hs : s.step .sqlite now o.op = (r', s')) (hanswer : o.answer r = o.answer r')
    (htasks : m'.tasks = s'.tasks) : SameRows now o m s := by
  rw [SameRows, hm, hs]
  exact ⟨hanswer, htasks⟩

theorem not_agree_of_answers (hm : m.step now o.op = (r, m'))
    (hs : s.step .sqlite now o.op = (r', s')) (hanswer : o.answer r ≠ o.answer r') :
    ¬Agree now o m s := by
  rw [Agree, hm, hs]
  exact fun h => hanswer h.1

/-- Either the condition holds and the rows are the same, or it fails and the
stores disagree. -/
def Settled (now : Nat) (o : TaskOp) (m : ClusterState) (s : ClusterStore) : Prop :=
  AgreesWhen now m.toBoard o ∧ SameRows now o m s ∨
    ¬AgreesWhen now m.toBoard o ∧ ¬Agree now o m s

theorem Settled.agree_iff (h : Settled now o m s) :
    Agree now o m s ↔ AgreesWhen now m.toBoard o := by
  rcases h with ⟨hwhen, hsame⟩ | ⟨hnot, hdiffer⟩
  · exact iff_of_true hsame.agree hwhen
  · exact iff_of_false hdiffer hnot

theorem Settled.sameRows (h : Settled now o m s) (hwhen : AgreesWhen now m.toBoard o) :
    SameRows now o m s := by
  rcases h with ⟨-, hsame⟩ | ⟨hnot, -⟩
  · exact hsame
  · exact absurd hwhen hnot

omit [Unicode] in
theorem tasks_modifyTask (htasks : m.tasks = s.tasks) (taskId : String) (f : Task → Task)
    (hf : Table.KeepsKey f) : (m.modifyTask taskId f hf).tasks = s.tasks.modify taskId f hf :=
  congrArg (fun tasks : Table Task => tasks.modify taskId f hf) htasks

/-- A terminal task refuses in memory what the table accepts. -/
theorem settled_setTaskStatus (htasks : m.tasks = s.tasks) (taskId : String)
    (status : TaskStatus) (failReason : String) :
    Settled now (.setTaskStatus taskId status failReason) m s := by
  cases hget : m.tasks.get? taskId with
  | none =>
      have hm : m.setTaskStatus now taskId status failReason = (false, m) := by
        rw [ClusterState.setTaskStatus, hget]
      have hs : s.setTaskStatus now taskId status failReason = (false, s) :=
        ClusterStore.updateHit_of_absent (htasks ▸ hget)
      refine .inl ⟨fun t ht => ?_, .of_steps hm hs rfl htasks⟩
      rw [hget] at ht
      cases ht
  | some t =>
      have hs : s.setTaskStatus now taskId status failReason = _ :=
        ClusterStore.updateHit_of_get? (htasks ▸ hget)
      by_cases href : ClusterState.Refuses t.status status
      · have hm : m.setTaskStatus now taskId status failReason = (false, m) := by
          rw [ClusterState.setTaskStatus, hget]
          exact if_pos href
        refine .inr ⟨fun h => h t hget href, not_agree_of_answers hm hs ?_⟩
        simp [TaskOp.answer]
      · have hm : m.setTaskStatus now taskId status failReason = (true,
            m.modifyTask taskId (Task.withStatus now status failReason) (fun _ => rfl)) := by
          rw [ClusterState.setTaskStatus, hget]
          exact if_neg href
        refine .inl ⟨fun u hu => ?_, .of_steps hm hs rfl (tasks_modifyTask htasks _ _ _)⟩
        rw [hget] at hu
        cases hu
        exact href

variable (now) in
omit [Unicode] in
theorem memory_unassignTask_of_open {taskId : String} {t : Task}
    (hget : m.tasks.get? taskId = some t) (hopen : ¬t.status.IsTerminal) :
    m.unassignTask now taskId =
      if (m.getLeaseByTask taskId).isSome then (false, m)
      else (true, m.modifyTask taskId (Task.unassign now) (fun _ => rfl)) := by
  rw [ClusterState.unassignTask, hget]
  exact if_neg hopen

variable (now) in
omit [Unicode] in
theorem sql_unassignTask_of_open {taskId : String} {t : Task}
    (hget : s.tasks.get? taskId = some t) (hopen : ¬t.status.IsTerminal) :
    s.unassignTask now taskId =
      if ∃ l ∈ s.leases.rows, l.taskId = taskId ∧ l.IsLive now then (false, s)
      else
        let tasks := s.tasks.modify taskId (Task.unassign now) (fun _ => rfl)
        (true, { s with tasks := tasks }) := by
  have hid : t.id = taskId := Table.key_of_get? hget
  split
  · rename_i hlive
    refine ClusterStore.updateHit_of_fails (fun u hu h => ?_)
    obtain rfl : u = t := Option.some.inj (hu.symm.trans hget)
    rw [hid] at h
    exact h.2 hlive
  · rename_i hfree
    refine ClusterStore.updateHit_of_meets (f := Task.unassign now) (fun _ => rfl)
      (p := fun t => ¬t.status.IsTerminal ∧
        ¬∃ l ∈ s.leases.rows, l.taskId = t.id ∧ l.IsLive now) hget ⟨hopen, ?_⟩
    rw [hid]
    exact hfree

/-- In memory any active lease guards the task, in the table a live one. -/
theorem settled_unassignTask (htasks : m.tasks = s.tasks) (hleases : m.leases = s.leases)
    (taskId : String) : Settled now (.unassignTask taskId) m s := by
  -- A task that is not there or has ended is refused on both sides.
  have hmiss : (∀ t, m.tasks.get? taskId = some t → t.status.IsTerminal) →
      Settled now (.unassignTask taskId) m s := by
    intro hended
    have hm : m.unassignTask now taskId = (false, m) := by
      rcases ClusterState.unassignTask_cases now taskId m with hm | ⟨t, hget, hopen, -⟩
      · exact hm
      · exact absurd (hended t hget) hopen
    have hs : s.unassignTask now taskId = (false, s) := by
      refine ClusterStore.updateHit_of_fails (fun t ht h => ?_)
      exact h.1 (hended t (htasks ▸ ht))
    exact .inl ⟨fun t hget hopen => absurd (hended t hget) hopen,
      .of_steps hm hs rfl htasks⟩
  cases hget : m.tasks.get? taskId with
  | none =>
      refine hmiss (fun t ht => ?_)
      rw [hget] at ht
      cases ht
  | some t =>
      by_cases hopen : t.status.IsTerminal
      · refine hmiss (fun u hu => ?_)
        obtain rfl : u = t := Option.some.inj (hu.symm.trans hget)
        exact hopen
      · have hwhen : AgreesWhen now m.toBoard (.unassignTask taskId) ↔
            ((m.getLeaseByTask taskId).isSome ↔
              ∃ l ∈ s.leases.rows, l.taskId = taskId ∧ l.IsLive now) := by
          rw [ClusterState.isSome_getLeaseByTask, ← hleases]
          exact ⟨fun h => h t hget hopen, fun h u hu _ => h⟩
        have hm := memory_unassignTask_of_open now hget hopen
        have hs := sql_unassignTask_of_open now (htasks ▸ hget) hopen
        by_cases hheld : (m.getLeaseByTask taskId).isSome <;>
          by_cases hlive : ∃ l ∈ s.leases.rows, l.taskId = taskId ∧ l.IsLive now
        · rw [if_pos hheld] at hm
          rw [if_pos hlive] at hs
          exact .inl ⟨hwhen.mpr (iff_of_true hheld hlive), .of_steps hm hs rfl htasks⟩
        · rw [if_pos hheld] at hm
          rw [if_neg hlive] at hs
          exact .inr ⟨fun h => hlive ((hwhen.mp h).mp hheld),
            not_agree_of_answers hm hs (by simp [TaskOp.answer])⟩
        · rw [if_neg hheld] at hm
          rw [if_pos hlive] at hs
          exact .inr ⟨fun h => hheld ((hwhen.mp h).mpr hlive),
            not_agree_of_answers hm hs (by simp [TaskOp.answer])⟩
        · rw [if_neg hheld] at hm
          rw [if_neg hlive] at hs
          exact .inl ⟨hwhen.mpr (iff_of_false hheld hlive),
            .of_steps hm hs rfl (tasks_modifyTask htasks _ _ _)⟩

variable (now) in
omit [Unicode] in
theorem unblockTo_same (htasks : m.tasks = s.tasks) (status : TaskStatus) (taskId : String) :
    (m.unblockTo now status taskId).1 = (s.unblockTo now status taskId).1 ∧
      (m.unblockTo now status taskId).2.tasks = (s.unblockTo now status taskId).2.tasks := by
  rcases ClusterState.unblockTo_cases now status taskId m with hm | ⟨t, hget, hblocked, hm⟩
  · have hs : s.unblockTo now status taskId = (false, s) := by
      refine ClusterStore.updateHit_of_fails (fun t ht hblocked => ?_)
      rw [← htasks] at ht
      rw [ClusterState.unblockTo, ht] at hm
      simp [hblocked] at hm
    rw [hm, hs]
    exact ⟨rfl, htasks⟩
  · have hs : s.unblockTo now status taskId = _ :=
      ClusterStore.updateHit_of_meets (f := Task.unblockTo now status) (fun _ => rfl)
        (p := fun t => t.status = .blocked) (htasks ▸ hget) hblocked
    rw [hm, hs]
    exact ⟨rfl, tasks_modifyTask htasks _ _ _⟩

theorem settled_unblockTask (htasks : m.tasks = s.tasks) (taskId : String) :
    Settled now (.unblockTask taskId) m s := by
  obtain ⟨hanswer, hrows⟩ := unblockTo_same now htasks .pending taskId
  exact .inl ⟨trivial, congrArg Answer.flag hanswer, hrows⟩

theorem settled_unblockToReady (htasks : m.tasks = s.tasks) (taskId : String) :
    Settled now (.unblockToReady taskId) m s := by
  obtain ⟨hanswer, hrows⟩ := unblockTo_same now htasks .ready taskId
  exact .inl ⟨trivial, congrArg Answer.flag hanswer, hrows⟩

/-- The two stores revoke different leases, but write the task under one guard. -/
theorem settled_requeueTask (htasks : m.tasks = s.tasks) (taskId reason : String) :
    Settled now (.requeueTask taskId reason) m s := by
  refine .inl ⟨trivial, ?_⟩
  rcases ClusterState.requeueTask_cases now taskId reason m with
    hm | ⟨t, hget, hopen, hcap, htrue, hrows⟩
  · have hs : s.requeueTask now taskId reason = (false, { s with
        leases := s.leases.updateWhere (fun l => l.taskId = taskId ∧ l.IsLive now)
          Lease.revoke Lease.keepsKey_revoke }) := by
      refine ClusterStore.updateHit_of_fails (fun t ht hguard => ?_)
      have hget : m.tasks.get? taskId = some t := htasks ▸ ht
      have htrue := ClusterState.requeueTask_of_open now reason hget hguard.1 hguard.2
      rw [hm] at htrue
      cases htrue
    exact .of_steps hm hs rfl htasks
  · have hs : s.requeueTask now taskId reason = (true, _) :=
      ClusterStore.updateHit_of_meets (f := Task.requeue now reason) (fun _ => rfl)
        (p := fun t => ¬t.status.IsTerminal ∧ t.attempts < taskRetryLimit) (htasks ▸ hget)
        ⟨hopen, hcap⟩
    have hm : m.requeueTask now taskId reason = (true, (m.requeueTask now taskId reason).2) :=
      Prod.ext htrue rfl
    refine .of_steps hm hs rfl ?_
    rw [hrows, htasks]

omit [Unicode] in
theorem setDependencies_of_written {taskId : String} {dependsOn : List String}
    {w : Bool × ClusterStore}
    (h : s.updateHit (fun t => t.id = taskId) (Task.withDependencies now dependsOn)
      (fun _ => rfl) = w) :
    s.setDependencies now taskId dependsOn =
      if dependsOn ≠ [] ∧ w.1 = true then
        (w.1, (w.2.updateTasks (fun t => t.id = taskId ∧ t.status = .ready)
          (fun t => { t with status := .pending }) (fun _ => rfl)).2)
      else w := by
  rw [← h]
  rfl

/-- `set_dependencies` demotes a ready task in the table only. -/
theorem settled_setDependencies (htasks : m.tasks = s.tasks) (taskId : String)
    (dependsOn : List String) : Settled now (.setDependencies taskId dependsOn) m s := by
  rcases ClusterState.writeTask_cases taskId (Task.withDependencies now dependsOn)
    (fun _ => rfl) m with ⟨hm, hget⟩ | ⟨t, hget, hm⟩
  · have hs := setDependencies_of_written
      (ClusterStore.updateHit_of_absent (f := Task.withDependencies now dependsOn)
        (htasks ▸ hget))
    rw [if_neg (fun h => by cases h.2)] at hs
    refine .inl ⟨fun u hu => ?_, .of_steps hm hs rfl htasks⟩
    rw [hget] at hu
    cases hu
  · have hget' : s.tasks.get? taskId = some t := htasks ▸ hget
    have hs := setDependencies_of_written
      (ClusterStore.updateHit_of_get? (f := Task.withDependencies now dependsOn) hget')
    have hmtasks := tasks_modifyTask htasks taskId (Task.withDependencies now dependsOn)
      (fun _ => rfl)
    by_cases hempty : dependsOn = []
    · rw [if_neg (fun h => h.1 hempty)] at hs
      exact .inl ⟨fun _ _ _ => hempty, .of_steps hm hs rfl hmtasks⟩
    · rw [if_pos ⟨hempty, rfl⟩] at hs
      have hwritten := s.tasks.get?_modify_self taskId (Task.withDependencies now dependsOn)
        (fun _ => rfl)
      rw [hget', Option.map_some] at hwritten
      by_cases hready : t.status = .ready
      · refine .inr ⟨fun h => hempty (h t hget hready), fun hagree => ?_⟩
        have hviews := hagree.2 taskId
        rw [show m.step now (.setDependencies taskId dependsOn) = _ from hm,
          show s.step .sqlite now (.setDependencies taskId dependsOn) = _ from hs] at hviews
        dsimp only [viewOf, ClusterStore.updateTasks] at hviews
        rw [hmtasks, Table.get?_updateWhere, hwritten, Option.map_some, Option.map_some,
          Option.map_some, if_pos ⟨Table.key_of_get? hget, hready⟩] at hviews
        have hstatus : t.status = .pending := congrArg TaskView.status (Option.some.inj hviews)
        exact absurd (hready.symm.trans hstatus) (by decide)
      · refine .inl ⟨fun u hu hu' => ?_, .of_steps hm hs rfl ?_⟩
        · obtain rfl : u = t := Option.some.inj (hu.symm.trans hget)
          exact absurd hu' hready
        · have hmiss : ∀ u ∈ (s.tasks.modify taskId (Task.withDependencies now dependsOn)
              (fun _ => rfl)).rows, ¬(u.id = taskId ∧ u.status = .ready) := by
            rintro u hu ⟨hid, hstatus⟩
            have hu' := Table.get?_of_mem hu
            rw [Task.key_eq, hid] at hu'
            have hrow := Option.some.inj (hu'.symm.trans hwritten)
            exact hready ((congrArg Task.status hrow).symm.trans hstatus)
          have hsame : (s.tasks.modify taskId (Task.withDependencies now dependsOn)
              (fun _ => rfl)).updateWhere (fun u => u.id = taskId ∧ u.status = .ready)
                (fun u => { u with status := .pending }) (fun _ => rfl) = _ :=
            Table.updateWhere_eq_self hmiss
          exact hmtasks.trans hsame.symm

/-- On a pending row the two iterations of `trigger_pending_tasks` do the same. -/
theorem promoteStep_eq (d : SqlDialect) {st : Table Task × Nat} {t : Task}
    (hget : st.1.get? t.id = some t)
    (hpending : t.status = .pending) :
    ClusterStore.promoteStep d now st (t.id, t.dependsOn) =
      ClusterState.promoteStep now st t.id := by
  have hrow : ∀ (f : Task → Task) (hf : Table.KeepsKey f),
      st.1.updateWhere (fun u => u.id = t.id ∧ u.status = .pending) f hf =
        st.1.modify t.id f hf :=
    fun f hf => Table.updateWhere_key_and hget hpending f hf
  have hhits : st.1.countWhere (fun u => u.id = t.id ∧ u.status = .pending) = 1 :=
    Table.countWhere_key_and hget hpending
  have hpromote : ClusterStore.promoteRow d now st t.id =
      (st.1.modify t.id (Task.promote now) (fun _ => rfl), st.2 + 1) := by
    refine Prod.ext (hrow (Task.promote now) (fun _ => rfl)) ?_
    cases d with
    | sqlite => rfl
    | postgres => exact congrArg (st.2 + ·) hhits
  rw [ClusterState.promoteStep, ClusterStore.promoteStep, hget]
  dsimp only
  rw [if_neg (not_not_intro hpending)]
  by_cases hdeps : DepsCompleted st.1 t
  · have hdeps' : ∀ dep ∈ t.dependsOn, (st.1.get? dep).map Task.status = some .completed := hdeps
    rw [if_neg (not_not_intro hdeps), if_neg (not_not_intro hdeps')]
    by_cases hlanding : LandingGate.IsLanding t
    · have hfilter : (some t).filter (fun t => decide (LandingGate.IsLanding t)) = some t := by
        simp [Option.filter, hlanding]
      rw [hfilter]
      dsimp only
      cases hhold : LandingGate.holdReason st.1.rows t with
      | none => exact hpromote
      | some reason =>
          have hreason := LandingGate.holdReason_ne_empty hhold
          have hsame : t.failReason.getD "" = reason ↔ t.failReason = some reason := by
            cases t.failReason with
            | none => simpa using hreason.symm
            | some r => simp
          dsimp only
          by_cases hrecorded : t.failReason = some reason
          · rw [if_pos (hsame.mpr hrecorded), if_pos hrecorded]
          · rw [if_neg (mt hsame.mp hrecorded), if_neg hrecorded]
            exact Prod.ext (hrow (Task.hold now reason) (fun _ => rfl)) rfl
    · have hfilter : (some t).filter (fun t => decide (LandingGate.IsLanding t)) = none := by
        simp [Option.filter, hlanding]
      rw [hfilter, LandingGate.holdReason_of_not_isLanding hlanding]
      exact hpromote
  · have hdeps' : ¬∀ dep ∈ t.dependsOn, (st.1.get? dep).map Task.status = some .completed :=
      hdeps
    rw [if_pos hdeps, if_pos hdeps']

/-- The loop over the pending rows and the loop over all of them. -/
theorem foldl_promoteStep_eq (d : SqlDialect) (now : Nat) (rows : List Task)
    (st : Table Task × Nat) (hnodup : (rows.map Task.id).Nodup)
    (hrows : ∀ t ∈ rows, st.1.get? t.id = some t) :
    ((rows.filter (fun t => decide (t.status = .pending))).map
      (fun t => (t.id, t.dependsOn))).foldl (ClusterStore.promoteStep d now) st =
    (rows.map Task.id).foldl (ClusterState.promoteStep now) st := by
  induction rows generalizing st with
  | nil => rfl
  | cons t rows ih =>
      rw [List.map_cons, List.nodup_cons] at hnodup
      have hget := hrows t List.mem_cons_self
      -- The other rows are as they were after the iteration of `t`.
      have hrest : ∀ u ∈ rows, (ClusterState.promoteStep now st t.id).1.get? u.id = some u := by
        intro u hu
        have hne : u.id ≠ t.id := fun hid => hnodup.1 (hid ▸ List.mem_map_of_mem hu)
        rw [← hrows u (List.mem_cons_of_mem t hu)]
        rcases ClusterState.promoteStep_spec now st t.id with
          heq | ⟨_, -, -, ⟨-, -, heq⟩ | ⟨reason, heq⟩⟩
        · rw [heq]
        · rw [heq]
          exact st.1.get?_modify_ne t.id (Task.promote now) (fun _ => rfl) hne
        · rw [heq]
          exact st.1.get?_modify_ne t.id (Task.hold now reason) (fun _ => rfl) hne
      rw [List.map_cons, List.foldl_cons, ← ih _ hnodup.2 hrest]
      by_cases hpending : t.status = .pending
      · have hfilter : (t :: rows).filter (fun t => decide (t.status = .pending)) =
            t :: rows.filter (fun t => decide (t.status = .pending)) := by
          simp [hpending]
        rw [hfilter, List.map_cons, List.foldl_cons, promoteStep_eq d hget hpending]
      · have hskip : ClusterState.promoteStep now st t.id = st := by
          rw [ClusterState.promoteStep, hget]
          exact if_pos hpending
        have hfilter : (t :: rows).filter (fun t => decide (t.status = .pending)) =
            rows.filter (fun t => decide (t.status = .pending)) := by
          simp [hpending]
        rw [hfilter, hskip]

/-- Every dialect promotes what the in-memory store promotes. -/
theorem triggerPendingTasks_eq (d : SqlDialect) (now : Nat) (htasks : m.tasks = s.tasks) :
    (s.triggerPendingTasks d now).1 = (m.triggerPendingTasks now).1 ∧
      (s.triggerPendingTasks d now).2.tasks = (m.triggerPendingTasks now).2.tasks := by
  have hsame := foldl_promoteStep_eq d now s.tasks.rows (s.tasks, 0) s.tasks.nodup
    (fun t ht => Table.get?_of_mem ht)
  rw [ClusterState.triggerPendingTasks, htasks, ← hsame]
  exact ⟨rfl, rfl⟩

theorem settled_triggerPendingTasks (htasks : m.tasks = s.tasks) :
    Settled now .triggerPendingTasks m s := by
  obtain ⟨hcount, hrows⟩ := triggerPendingTasks_eq .sqlite now htasks
  exact .inl ⟨trivial, congrArg Answer.count hcount.symm, hrows.symm⟩

/-! ## Creations -/

/-- Promotion at creation changes the status only. -/
def promoteAtOnce (now : Nat) (c : Prop) [Decidable c] (t : Task) : Task :=
  if c ∧ t.status = .pending then t.promote now else t

omit [Unicode] in
/-- What a row with the plan's view becomes, and what only such a row becomes. -/
theorem view_promoteAtOnce_iff {plan : TaskPlan} {c : Prop} [Decidable c] {t : Task}
    (hc : c ↔ plan.dependsOn = []) :
    (promoteAtOnce now c t).view = plan.view plan.firstStatus ↔
      t.view = plan.view .pending ∨ t.view = plan.view plan.firstStatus := by
  by_cases hdeps : plan.dependsOn = []
  · have hfirst : plan.firstStatus = .ready := if_pos hdeps
    by_cases hpending : t.status = .pending
    · rw [promoteAtOnce, if_pos ⟨hc.mpr hdeps, hpending⟩, hfirst]
      simp [Task.view, Task.promote, TaskPlan.view, hpending]
    · rw [promoteAtOnce, if_neg (fun h => hpending h.2)]
      refine ⟨.inr, fun h => h.resolve_left (fun hview => ?_)⟩
      exact hpending (congrArg TaskView.status hview)
  · have hfirst : plan.firstStatus = .pending := if_neg hdeps
    rw [promoteAtOnce, if_neg (fun h => hdeps (hc.mp h.1)), hfirst, or_self]

omit [Unicode] in
/-- The row a creation leaves under the plan's id, and the other rows. -/
theorem get?_createTask (plan : TaskPlan) (taskId : String) :
    (s.createTask now plan).2.tasks.get? taskId =
      if plan.taskId = taskId then
        some (promoteAtOnce now (plan.dependsOn = [])
          ((s.tasks.get? taskId).getD (plan.toTask now .pending)))
      else s.tasks.get? taskId := by
  have hinsert := s.tasks.get?_insertOrIgnore taskId (plan.toTask now .pending)
  have hrow : (s.createTask now plan).2.tasks.get? taskId =
      ((s.tasks.insertOrIgnore (plan.toTask now .pending)).get? taskId).map (fun t =>
        if t.id = plan.taskId then promoteAtOnce now (plan.dependsOn = []) t else t) := by
    unfold ClusterStore.createTask
    dsimp only
    split
    · rename_i hdeps
      refine ((s.tasks.insertOrIgnore (plan.toTask now .pending)).get?_updateWhere taskId
        (fun t => t.id = plan.taskId ∧ t.status = .pending) (Task.promote now)
        (fun _ => rfl)).trans (Option.map_congr (fun t _ => ?_))
      by_cases hid : t.id = plan.taskId <;> simp [promoteAtOnce, hid, hdeps]
    · rename_i hdeps
      cases (s.tasks.insertOrIgnore (plan.toTask now .pending)).get? taskId with
      | none => rfl
      | some t => simp [promoteAtOnce, hdeps]
  rw [hrow, hinsert]
  by_cases hid : plan.taskId = taskId
  · rw [if_pos hid]
    cases hget : s.tasks.get? taskId with
    | none =>
        rw [if_pos ⟨hid, rfl⟩]
        exact congrArg some (if_pos rfl)
    | some t =>
        rw [if_neg (fun h => by cases h.2)]
        exact congrArg some (if_pos ((Table.key_of_get? hget).trans hid.symm))
  · rw [if_neg hid, if_neg (fun h => hid h.1)]
    cases hget : s.tasks.get? taskId with
    | none => rfl
    | some t =>
        have hne : t.id ≠ plan.taskId := fun h => hid (h.symm.trans (Table.key_of_get? hget))
        exact congrArg some (if_neg hne)

/-- In memory the row is always new and pending; the table keeps an old row and
promotes at once what depends on nothing. -/
theorem createTask_agree_iff (htasks : m.tasks = s.tasks) (plan : TaskPlan) :
    Agree now (.createTask plan) m s ↔ AgreesWhen now m.toBoard (.createTask plan) := by
  let row := (s.tasks.get? plan.taskId).getD (plan.toTask now .pending)
  let out := promoteAtOnce now (plan.dependsOn = []) row
  have hout : (s.createTask now plan).2.tasks.get? plan.taskId = some out := by
    rw [get?_createTask, if_pos rfl]
  have hreply : (s.createTask now plan).1 = out := by
    have hget : ((s.createTask now plan).2.tasks.get? plan.taskId).getD
        (plan.toTask now .pending) = out := by
      rw [hout, Option.getD_some]
    exact hget
  have hid : out.id = plan.taskId := Table.key_of_get? hout
  have hagree : Agree now (.createTask plan) m s ↔ out.view = plan.view .pending := by
    constructor
    · intro h
      have hanswer : Answer.rows [(plan.taskId, plan.view .pending)] =
          Answer.rows [((s.createTask now plan).1.id, (s.createTask now plan).1.view)] := h.1
      rw [hreply, hid] at hanswer
      simpa using hanswer.symm
    · intro h
      refine ⟨?_, fun taskId => ?_⟩
      · change Answer.rows [(plan.taskId, plan.view .pending)] =
          Answer.rows [((s.createTask now plan).1.id, (s.createTask now plan).1.view)]
        rw [hreply, hid, h]
      · change ((m.tasks.upsert (plan.toTask now .pending)).get? taskId).map Task.view =
          ((s.createTask now plan).2.tasks.get? taskId).map Task.view
        have hkey : HasKey.key (plan.toTask now .pending) = plan.taskId := rfl
        rw [Table.get?_upsert, htasks, hkey]
        by_cases htask : plan.taskId = taskId
        · subst htask
          rw [hout, if_pos rfl]
          exact congrArg some h.symm
        · rw [if_neg htask, get?_createTask, if_neg htask]
  rw [hagree]
  change _ ↔ plan.dependsOn ≠ [] ∧
    ∀ v, viewOf m.tasks plan.taskId = some v → v = plan.view .pending
  by_cases hdeps : plan.dependsOn = []
  · refine iff_of_false (fun hview => ?_) (fun h => h.1 hdeps)
    have hstatus : out.status = .pending := congrArg TaskView.status hview
    by_cases hpending : row.status = .pending
    · have hpromoted : out = row.promote now := if_pos ⟨hdeps, hpending⟩
      rw [hpromoted] at hstatus
      cases hstatus
    · have hkept : out = row := if_neg (fun h => hpending h.2)
      exact hpending (hkept ▸ hstatus)
  · have hkept : out = row := if_neg (fun h => hdeps h.1)
    rw [hkept, viewOf, htasks]
    cases hget : s.tasks.get? plan.taskId with
    | none =>
        have hrow : row = plan.toTask now .pending := by
          simp only [row, hget, Option.getD_none]
        rw [hrow]
        exact iff_of_true rfl ⟨hdeps, fun v hv => by cases hv⟩
    | some t =>
        have hrow : row = t := by
          simp only [row, hget, Option.getD_some]
        rw [hrow]
        constructor
        · rintro hview
          refine ⟨hdeps, fun v hv => ?_⟩
          exact (Option.some.inj hv).symm.trans hview
        · exact fun h => h.2 t.view rfl

omit [Unicode] in
/-- The rows a batch leaves in the table. -/
theorem get?_createTasksBatch (plans : List TaskPlan) (taskId : String) :
    (s.createTasksBatch .sqlite now plans).2.tasks.get? taskId =
      ((s.tasks.get? taskId).or ((plans.find? (fun plan => decide (plan.taskId = taskId))).map
        (fun plan => plan.toTask now .pending))).map
          (promoteAtOnce now
            (taskId ∈ (plans.filter (fun plan => decide (plan.dependsOn = []))).map
              TaskPlan.taskId)) := by
  let ids := (plans.filter (fun plan => decide (plan.dependsOn = []))).map TaskPlan.taskId
  let inserted := plans.foldl
    (fun tasks plan => tasks.insertOrIgnore (plan.toTask now .pending)) s.tasks
  have hinserted : inserted.get? taskId = (s.tasks.get? taskId).or
      ((plans.find? (fun plan => decide (plan.taskId = taskId))).map
        (fun plan => plan.toTask now .pending)) := by
    have hfold := Table.get?_foldl_insertOrIgnore s.tasks
      (plans.map (fun plan => plan.toTask now .pending)) taskId
    rw [List.foldl_map, List.find?_map] at hfold
    exact hfold
  have hupdate := inserted.get?_updateWhere taskId
    (fun t => t.id ∈ ids ∧ t.status = .pending) (Task.promote now) (fun _ => rfl)
  refine hupdate.trans ?_
  rw [← hinserted]
  refine Option.map_congr (fun t ht => ?_)
  have hid : t.id = taskId := Table.key_of_get? (Option.mem_def.mp ht)
  rw [hid]
  rfl

omit [Unicode] in
/-- The rows a batch leaves in memory: the last plan of an id counts. -/
theorem viewOf_createTasksBatch (plans : List TaskPlan) (taskId : String) :
    viewOf (m.createTasksBatch now plans).2.tasks taskId =
      ((plans.reverse.find? (fun plan => decide (plan.taskId = taskId))).map
        (fun plan => plan.view plan.firstStatus)).or (viewOf m.tasks taskId) := by
  have hfold := Table.get?_foldl_upsert m.tasks (plans.map (ClusterState.batchTask now)) taskId
  rw [← List.map_reverse, List.find?_map] at hfold
  have hget : (m.createTasksBatch now plans).2.tasks.get? taskId = _ := hfold
  rw [viewOf, hget, Option.map_or, Option.map_map]
  rfl

variable (now s) in
omit [Unicode] in
theorem get?_createTasksBatch_of_mem {plans : List TaskPlan} {plan : TaskPlan}
    (hplan : plan ∈ plans) :
    ∃ t, (s.createTasksBatch .sqlite now plans).2.tasks.get? plan.taskId = some t := by
  have hfind : (plans.find? (fun p => decide (p.taskId = plan.taskId))).isSome :=
    List.find?_isSome.mpr ⟨plan, hplan, decide_eq_true rfl⟩
  obtain ⟨first, hfirst⟩ := Option.isSome_iff_exists.mp hfind
  rw [get?_createTasksBatch, hfirst]
  cases s.tasks.get? plan.taskId with
  | none => exact ⟨_, rfl⟩
  | some t => exact ⟨_, rfl⟩

omit [Unicode] in
theorem get?_createTasksBatch_of_not_mem {plans : List TaskPlan} {taskId : String}
    (h : ∀ plan ∈ plans, plan.taskId ≠ taskId) :
    (s.createTasksBatch .sqlite now plans).2.tasks.get? taskId = s.tasks.get? taskId := by
  have hfind : plans.find? (fun p => decide (p.taskId = taskId)) = none :=
    List.find?_eq_none.mpr (fun plan hplan => by simpa using h plan hplan)
  have hids : taskId ∉ (plans.filter (fun plan => decide (plan.dependsOn = []))).map
      TaskPlan.taskId := by
    intro hmem
    obtain ⟨plan, hplan, hid⟩ := List.mem_map.mp hmem
    exact h plan (List.mem_filter.mp hplan).1 hid
  rw [get?_createTasksBatch, hfind, Option.map_none, Option.or_none]
  refine (Option.map_congr (fun t _ => ?_)).trans (congrFun Option.map_id _)
  exact if_neg (fun h => hids h.1)

/-- A batch agrees when each plan finds in the table the row it asks for. -/
theorem createTasksBatch_agree_iff_views (htasks : m.tasks = s.tasks) (plans : List TaskPlan) :
    Agree now (.createTasksBatch plans) m s ↔
      ∀ plan ∈ plans, viewOf (s.createTasksBatch .sqlite now plans).2.tasks plan.taskId =
        some (plan.view plan.firstStatus) := by
  let after := (s.createTasksBatch .sqlite now plans).2.tasks
  let row := fun plan : TaskPlan => (after.get? plan.taskId).getD (plan.toTask now .pending)
  have hrow : ∀ plan ∈ plans, after.get? plan.taskId = some (row plan) := by
    intro plan hplan
    obtain ⟨t, ht⟩ := get?_createTasksBatch_of_mem now s hplan
    simp only [row, after, ht, Option.getD_some]
  have hout : plans.filterMap (fun plan => after.get? plan.taskId) = plans.map row := by
    rw [List.filterMap_congr hrow, List.filterMap_eq_map']
  have hanswer : TaskOp.answer (.createTasksBatch plans)
        (m.createTasksBatch now plans).1 =
      TaskOp.answer (.createTasksBatch plans) (s.createTasksBatch .sqlite now plans).1 ↔
      ∀ plan ∈ plans, viewOf after plan.taskId = some (plan.view plan.firstStatus) := by
    have hreply : (s.createTasksBatch .sqlite now plans).1 = plans.map row := hout
    change Answer.rows _ = Answer.rows _ ↔ _
    rw [hreply, Answer.rows.injEq, ClusterState.createTasksBatch, List.map_map, List.map_map,
      List.map_inj_left]
    refine forall₂_congr (fun plan hplan => ?_)
    have hid : (row plan).id = plan.taskId := Table.key_of_get? (hrow plan hplan)
    rw [viewOf, hrow plan hplan, Option.map_some, Option.some.injEq]
    change (plan.taskId, plan.view plan.firstStatus) = ((row plan).id, (row plan).view) ↔ _
    rw [hid, Prod.mk.injEq, eq_self, true_and]
    exact eq_comm
  refine ⟨fun h => hanswer.mp h.1, fun h => ⟨hanswer.mpr h, fun taskId => ?_⟩⟩
  change viewOf (m.createTasksBatch now plans).2.tasks taskId = viewOf after taskId
  rw [viewOf_createTasksBatch]
  cases hlast : plans.reverse.find? (fun plan => decide (plan.taskId = taskId)) with
  | none =>
      have habsent : ∀ plan ∈ plans, plan.taskId ≠ taskId := by
        intro plan hplan
        simpa using List.find?_eq_none.mp hlast plan (List.mem_reverse.mpr hplan)
      rw [viewOf, viewOf, get?_createTasksBatch_of_not_mem habsent, htasks]
      rfl
  | some last =>
      have hmem : last ∈ plans := List.mem_reverse.mp (List.mem_of_find?_eq_some hlast)
      have hid : last.taskId = taskId := by simpa using List.find?_some hlast
      rw [← hid, h last hmem]
      rfl

theorem createTasksBatch_agree_iff (htasks : m.tasks = s.tasks) (plans : List TaskPlan) :
    Agree now (.createTasksBatch plans) m s ↔
      AgreesWhen now m.toBoard (.createTasksBatch plans) := by
  rw [createTasksBatch_agree_iff_views htasks]
  let ids := (plans.filter (fun plan => decide (plan.dependsOn = []))).map TaskPlan.taskId
  let base := fun taskId : String => (s.tasks.get? taskId).or
    ((plans.find? (fun plan => decide (plan.taskId = taskId))).map
      (fun plan => plan.toTask now .pending))
  have hafter : ∀ taskId, viewOf (s.createTasksBatch .sqlite now plans).2.tasks taskId =
      ((base taskId).map (promoteAtOnce now (taskId ∈ ids))).map Task.view := by
    intro taskId
    rw [viewOf, get?_createTasksBatch]
  -- When the plans of one id agree, the batch promotes it exactly if they ask for nothing.
  have hids : ∀ plan ∈ plans, (∀ other ∈ plans, other.taskId = plan.taskId →
      other.dependsOn = plan.dependsOn) → (plan.taskId ∈ ids ↔ plan.dependsOn = []) := by
    intro plan hplan hsame
    constructor
    · intro hmem
      obtain ⟨other, hother, hid⟩ := List.mem_map.mp hmem
      obtain ⟨hother, hdeps⟩ := List.mem_filter.mp hother
      rw [← hsame other hother hid]
      exact of_decide_eq_true hdeps
    · exact fun hdeps => List.mem_map.mpr
        ⟨plan, List.mem_filter.mpr ⟨hplan, decide_eq_true hdeps⟩, rfl⟩
  have hviews : ∀ plan ∈ plans, (∀ other ∈ plans, other.taskId = plan.taskId →
      other.dependsOn = plan.dependsOn) →
      (viewOf (s.createTasksBatch .sqlite now plans).2.tasks plan.taskId =
        some (plan.view plan.firstStatus) ↔
      ∀ v, viewOf m.tasks plan.taskId = some v →
        v = plan.view .pending ∨ v = plan.view plan.firstStatus) := by
    intro plan hplan hsame
    have hpromote : ∀ t : Task, (promoteAtOnce now (plan.taskId ∈ ids) t).view =
        plan.view plan.firstStatus ↔
          t.view = plan.view .pending ∨ t.view = plan.view plan.firstStatus :=
      fun _ => view_promoteAtOnce_iff (hids plan hplan hsame)
    rw [hafter, viewOf, htasks]
    cases hget : s.tasks.get? plan.taskId with
    | some t =>
        have hbase : base plan.taskId = some t := by
          simp only [base, hget, Option.some_or]
        rw [hbase, Option.map_some, Option.map_some, Option.some.injEq, hpromote]
        simp
    | none =>
        have hfind : (plans.find? (fun p => decide (p.taskId = plan.taskId))).isSome :=
          List.find?_isSome.mpr ⟨plan, hplan, decide_eq_true rfl⟩
        obtain ⟨first, hfirst⟩ := Option.isSome_iff_exists.mp hfind
        have hdeps : first.dependsOn = plan.dependsOn :=
          hsame first (List.mem_of_find?_eq_some hfirst) (by simpa using List.find?_some hfirst)
        have hbase : base plan.taskId = some (first.toTask now .pending) := by
          simp only [base, hget, hfirst, Option.none_or, Option.map_some]
        have hview : (first.toTask now .pending).view = plan.view .pending := by
          rw [TaskPlan.view, ← hdeps]
          rfl
        rw [hbase, Option.map_some, Option.map_some, Option.some.injEq, hpromote]
        exact iff_of_true (.inl hview) (fun v hv => by cases hv)
  constructor
  · intro h plan hplan
    have hsame : ∀ other ∈ plans, other.taskId = plan.taskId →
        other.dependsOn = plan.dependsOn := by
      intro other hother hid
      have hviews := h other hother
      rw [hid, h plan hplan] at hviews
      exact (congrArg TaskView.dependsOn (Option.some.inj hviews)).symm
    exact ⟨hsame, (hviews plan hplan hsame).mp (h plan hplan)⟩
  · intro h plan hplan
    obtain ⟨hsame, hstored⟩ := h plan hplan
    exact (hviews plan hplan hsame).mpr hstored

/-- A new task waits in both stores under the very same row. -/
theorem sameRows_createTask (htasks : m.tasks = s.tasks) {plan : TaskPlan}
    (hwhen : AgreesWhen now m.toBoard (.createTask plan))
    (hfresh : CreatesFresh m.toBoard (.createTask plan)) :
    SameRows now (.createTask plan) m s := by
  refine ⟨((createTask_agree_iff htasks plan).mpr hwhen).1, ?_⟩
  have hfresh' : s.tasks.get? plan.taskId = none := htasks ▸ hfresh
  change m.tasks.upsert (plan.toTask now .pending) = (s.createTask now plan).2.tasks
  rw [ClusterStore.createTask]
  dsimp only
  rw [if_neg hwhen.1]
  apply Table.ext
  rw [htasks, Table.rows_upsert_of_fresh hfresh']
  exact (Table.rows_insertOrIgnore_of_fresh hfresh').symm

theorem sameRows_createTasksBatch (htasks : m.tasks = s.tasks) {plans : List TaskPlan}
    (hwhen : AgreesWhen now m.toBoard (.createTasksBatch plans))
    (hfresh : CreatesFresh m.toBoard (.createTasksBatch plans)) :
    SameRows now (.createTasksBatch plans) m s := by
  refine ⟨((createTasksBatch_agree_iff htasks plans).mpr hwhen).1, ?_⟩
  let ids := (plans.filter (fun plan => decide (plan.dependsOn = []))).map TaskPlan.taskId
  have hfree : ∀ plan ∈ plans, s.tasks.get? plan.taskId = none :=
    fun plan hplan => htasks ▸ hfresh.1 plan hplan
  have hids : ∀ plan ∈ plans, plan.taskId ∈ ids ↔ plan.dependsOn = [] := by
    intro plan hplan
    constructor
    · intro hmem
      obtain ⟨other, hother, hid⟩ := List.mem_map.mp hmem
      obtain ⟨hother, hdeps⟩ := List.mem_filter.mp hother
      have hsame : other = plan := List.inj_on_of_nodup_map hfresh.2 hother hplan hid
      exact hsame ▸ of_decide_eq_true hdeps
    · exact fun hdeps => List.mem_map.mpr
        ⟨plan, List.mem_filter.mpr ⟨hplan, decide_eq_true hdeps⟩, rfl⟩
  have hmemory : ((plans.map (ClusterState.batchTask now)).foldl Table.upsert s.tasks).rows =
      s.tasks.rows ++ plans.map (ClusterState.batchTask now) := by
    refine Table.rows_foldl_of_fresh (fun _ _ h => Table.rows_upsert_of_fresh h) ?_ ?_
    · intro t ht
      obtain ⟨plan, hplan, rfl⟩ := List.mem_map.mp ht
      exact hfree plan hplan
    · rw [List.map_map]
      exact hfresh.2
  have hinserted : (plans.foldl (fun tasks plan => tasks.insertOrIgnore
      (plan.toTask now .pending)) s.tasks).rows =
      s.tasks.rows ++ plans.map (fun plan => plan.toTask now .pending) := by
    rw [← List.foldl_map]
    refine Table.rows_foldl_of_fresh (fun _ _ h => Table.rows_insertOrIgnore_of_fresh h) ?_ ?_
    · intro t ht
      obtain ⟨plan, hplan, rfl⟩ := List.mem_map.mp ht
      exact hfree plan hplan
    · rw [List.map_map]
      exact hfresh.2
  apply Table.ext
  change (((plans.map (ClusterState.batchTask now)).foldl Table.upsert m.tasks)).rows =
    ((plans.foldl (fun tasks plan => tasks.insertOrIgnore
      (plan.toTask now .pending)) s.tasks).rows.map
        (fun t => if t.id ∈ ids ∧ t.status = .pending then t.promote now else t))
  rw [htasks, hmemory, hinserted, List.map_append, List.map_map]
  congr 1
  · symm
    refine (List.map_congr_left (fun t ht => if_neg ?_)).trans (List.map_id _)
    rintro ⟨hmem, -⟩
    obtain ⟨plan, hplan, hid⟩ := List.mem_map.mp hmem
    exact Table.get?_eq_none_iff.mp (hfree plan (List.mem_filter.mp hplan).1) t ht hid.symm
  · refine List.map_congr_left (fun plan hplan => ?_)
    change plan.toTask now (if plan.dependsOn = [] then .ready else .pending) =
      if plan.taskId ∈ ids ∧ TaskStatus.pending = .pending then _ else _
    by_cases hdeps : plan.dependsOn = []
    · rw [if_pos hdeps, if_pos ⟨(hids plan hplan).mpr hdeps, rfl⟩]
      rfl
    · rw [if_neg hdeps, if_neg (fun h => hdeps ((hids plan hplan).mp h.1))]

/-! ## Any operation, and runs -/

/-- The condition is exact. -/
theorem agree_iff_agreesWhen (htasks : m.tasks = s.tasks) (hleases : m.leases = s.leases)
    (o : TaskOp) : Agree now o m s ↔ AgreesWhen now m.toBoard o := by
  cases o with
  | createTask plan => exact createTask_agree_iff htasks plan
  | createTasksBatch plans => exact createTasksBatch_agree_iff htasks plans
  | setTaskStatus taskId status failReason =>
      exact (settled_setTaskStatus htasks taskId status failReason).agree_iff
  | unassignTask taskId => exact (settled_unassignTask htasks hleases taskId).agree_iff
  | requeueTask taskId reason => exact (settled_requeueTask htasks taskId reason).agree_iff
  | unblockTask taskId => exact (settled_unblockTask htasks taskId).agree_iff
  | unblockToReady taskId => exact (settled_unblockToReady htasks taskId).agree_iff
  | setDependencies taskId dependsOn =>
      exact (settled_setDependencies htasks taskId dependsOn).agree_iff
  | triggerPendingTasks => exact (settled_triggerPendingTasks htasks).agree_iff

theorem sameRows_of_agreesWhen (htasks : m.tasks = s.tasks) (hleases : m.leases = s.leases)
    {o : TaskOp} (hwhen : AgreesWhen now m.toBoard o) (hfresh : CreatesFresh m.toBoard o) :
    SameRows now o m s := by
  cases o with
  | createTask plan => exact sameRows_createTask htasks hwhen hfresh
  | createTasksBatch plans => exact sameRows_createTasksBatch htasks hwhen hfresh
  | setTaskStatus taskId status failReason =>
      exact (settled_setTaskStatus htasks taskId status failReason).sameRows hwhen
  | unassignTask taskId => exact (settled_unassignTask htasks hleases taskId).sameRows hwhen
  | requeueTask taskId reason =>
      exact (settled_requeueTask htasks taskId reason).sameRows hwhen
  | unblockTask taskId => exact (settled_unblockTask htasks taskId).sameRows hwhen
  | unblockToReady taskId => exact (settled_unblockToReady htasks taskId).sameRows hwhen
  | setDependencies taskId dependsOn =>
      exact (settled_setDependencies htasks taskId dependsOn).sameRows hwhen
  | triggerPendingTasks => exact (settled_triggerPendingTasks htasks).sameRows hwhen

omit [Unicode] in
/-- No operation on tasks makes a lease. -/
theorem ClusterState.leases_of_no_lease [Unicode] (o : TaskOp) (h : m.leases = Table.empty) :
    (m.step now o.op).2.leases = Table.empty := by
  have hnone : ∀ taskId, m.getLeaseByTask taskId = none := by
    intro taskId
    rw [Option.eq_none_iff_forall_ne_some]
    intro l hl
    have hmem := (getLeaseByTask_some hl).1
    rw [h] at hmem
    cases hmem
  cases o with
  | createTask | createTasksBatch | triggerPendingTasks => exact h
  | setTaskStatus taskId status failReason =>
      change (m.setTaskStatus now taskId status failReason).2.leases = _
      unfold setTaskStatus
      split
      · exact h
      · split <;> exact h
  | unassignTask taskId =>
      rcases unassignTask_cases now taskId m with heq | ⟨_, _, _, _, heq⟩
      · exact (congrArg (fun r => r.2.leases) heq).trans h
      · exact (congrArg (fun r => r.2.leases) heq).trans h
  | unblockTask taskId =>
      rcases unblockTo_cases now .pending taskId m with heq | ⟨_, _, _, heq⟩
      · exact (congrArg (fun r => r.2.leases) heq).trans h
      · exact (congrArg (fun r => r.2.leases) heq).trans h
  | unblockToReady taskId =>
      rcases unblockTo_cases now .ready taskId m with heq | ⟨_, _, _, heq⟩
      · exact (congrArg (fun r => r.2.leases) heq).trans h
      · exact (congrArg (fun r => r.2.leases) heq).trans h
  | setDependencies taskId dependsOn =>
      rcases writeTask_cases taskId (Task.withDependencies now dependsOn) (fun _ => rfl) m with
        ⟨heq, _⟩ | ⟨_, _, heq⟩
      · exact (congrArg (fun r => r.2.leases) heq).trans h
      · exact (congrArg (fun r => r.2.leases) heq).trans h
  | requeueTask taskId reason =>
      change (m.requeueTask now taskId reason).2.leases = _
      unfold requeueTask
      split
      · exact h
      · split
        · exact h
        · split
          · exact h
          · dsimp only
            split
            · exact h
            · rename_i lease hlease
              have hsome : none = some lease := (hnone taskId).symm.trans hlease
              cases hsome

theorem ClusterStore.leases_of_no_lease (o : TaskOp) (h : s.leases = Table.empty) :
    (s.step .sqlite now o.op).2.leases = Table.empty := by
  cases o with
  | requeueTask taskId reason =>
      have hleases : (s.step .sqlite now (.requeueTask taskId reason)).2.leases =
          s.leases.updateWhere (fun l => l.taskId = taskId ∧ l.IsLive now) Lease.revoke
            Lease.keepsKey_revoke := rfl
      rw [TaskOp.op, hleases, h]
      rfl
  | createTask plan =>
      change (s.createTask now plan).2.leases = _
      unfold createTask
      dsimp only
      split <;> exact h
  | setDependencies taskId dependsOn =>
      change (s.setDependencies now taskId dependsOn).2.leases = _
      unfold setDependencies
      dsimp only
      split <;> exact h
  | _ => exact h

/-- Each operation of a list is performed on both stores, and they agree. -/
def AgreeAlong : List (Nat × TaskOp) → ClusterState → ClusterStore → Prop
  | [], _, _ => True
  | (now, o) :: rest, m, s =>
      Agree now o m s ∧
        AgreeAlong rest (m.step now o.op).2 (s.step .sqlite now o.op).2

/-- Each operation meets the condition on the board it finds, and creations are
of new ids. -/
def MeetAlong : List (Nat × TaskOp) → ClusterState → Prop
  | [], _ => True
  | (now, o) :: rest, m =>
      (AgreesWhen now m.toBoard o ∧ CreatesFresh m.toBoard o) ∧
        MeetAlong rest (m.step now o.op).2

theorem agreeAlong_of_meetAlong {ops : List (Nat × TaskOp)} (htasks : m.tasks = s.tasks)
    (hm : m.leases = Table.empty) (hs : s.leases = Table.empty) (hmeet : MeetAlong ops m) :
    AgreeAlong ops m s := by
  induction ops generalizing m s with
  | nil => trivial
  | cons step ops ih =>
      obtain ⟨now, o⟩ := step
      obtain ⟨⟨hwhen, hfresh⟩, hrest⟩ := hmeet
      have hsame := sameRows_of_agreesWhen htasks (hm.trans hs.symm) hwhen hfresh
      exact ⟨hsame.agree, ih hsame.2 (ClusterState.leases_of_no_lease o hm)
        (ClusterStore.leases_of_no_lease o hs) hrest⟩

/-- The two stores, operation by operation and over runs. -/
theorem stores_agree :
    (∀ (now : Nat) (o : TaskOp) (m : ClusterState) (s : ClusterStore), m.tasks = s.tasks →
      m.leases = s.leases → (Agree now o m s ↔ AgreesWhen now m.toBoard o)) ∧
    ∀ ops : List (Nat × TaskOp), MeetAlong ops ClusterState.empty →
      AgreeAlong ops ClusterState.empty ClusterStore.empty :=
  ⟨fun _ o _ _ htasks hleases => agree_iff_agreesWhen htasks hleases o,
    fun _ => agreeAlong_of_meetAlong rfl rfl rfl⟩

end Operations

section Example

local instance asciiRefinement : Unicode := Unicode.ascii

/-- A task that waits for another, and its cancellation. -/
def cancelledTask : List (Nat × TaskOp) :=
  [(0, .createTask { taskId := "t", title := "build", dependsOn := ["d"] }),
    (1, .setTaskStatus "t" .cancelled "")]

theorem stores_agree_cancelled :
    (Agree 0 (.unassignTask "t") ClusterState.empty ClusterStore.empty ↔
      AgreesWhen 0 ClusterState.empty.toBoard (.unassignTask "t")) ∧
    AgreeAlong cancelledTask ClusterState.empty ClusterStore.empty := by
  refine ⟨stores_agree.1 0 (.unassignTask "t") _ _ rfl rfl,
    stores_agree.2 cancelledTask ⟨⟨⟨by decide, ?_⟩, rfl⟩, ⟨?_, trivial⟩, trivial⟩⟩
  · intro v hv
    cases hv
  · intro task htask
    cases htask
    decide

/-- The in-memory store refuses to revive the cancelled task, the table does
not. -/
theorem cancelled_task_revived :
    ¬AgreeAlong (cancelledTask ++ [(2, .setTaskStatus "t" .ready "")])
      ClusterState.empty ClusterStore.empty := by
  rintro ⟨-, -, ⟨hanswer, -⟩, -⟩
  revert hanswer
  decide

end Example

end HermesCluster
