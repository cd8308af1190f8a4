import HermesCluster.Routers.Runs
import HermesCluster.State.Terminality
/-!
# The dependency gate of the in-memory store

Only `trigger_pending_tasks` and its twin in the task router look at
`depends_on` before they write `ready`. The other writers rely on the task
having been ready before, which `set_dependencies` of this store undoes: it
rewrites the dependencies of a ready task and leaves it ready.
-/

namespace HermesCluster

open Program hiding pure bind

/-- Ready or running: past the dependency gate. -/
def TaskStatus.IsScheduled (s : TaskStatus) : Prop :=
  s = .ready ∨ s = .running

/-- Every task past the gate has its dependencies completed. -/
def Gated (b : Board) : Prop :=
  ∀ t ∈ b.tasks.rows, t.status.IsScheduled → DepsCompleted b.tasks t

/-- Completed tasks stay completed. -/
def CompletedKept (b b' : Board) : Prop :=
  ∀ taskId t, b.tasks.get? taskId = some t → t.status = .completed →
    ∃ t', b'.tasks.get? taskId = some t' ∧ t'.status = .completed

theorem DepsCompleted.mono {b b' : Board} {t t' : Task} (h : DepsCompleted b.tasks t)
    (hkept : CompletedKept b b') (hdeps : t'.dependsOn = t.dependsOn) :
    DepsCompleted b'.tasks t' := by
  intro dep hdep
  rw [hdeps] at hdep
  obtain ⟨u, hu, hdone⟩ := Option.map_eq_some_iff.mp (h dep hdep)
  obtain ⟨u', hu', hdone'⟩ := hkept dep u hu hdone
  rw [hu', Option.map_some, hdone']

section Step

variable [Unicode]

/-- What keeps the gate, of one operation: rows put to ready have their
dependencies completed, and so have those started or given new ones; no
completed task is created anew. -/
def KeepsGate (now : Nat) (b : Board) (op : StoreOp) : Prop :=
  (∀ t ∈ b.tasks.rows, Reopens .memory now b op t → DepsCompleted b.tasks t) ∧
    match op with
    | .setTaskStatus taskId status _ =>
        status = .running → ∀ t, b.tasks.get? taskId = some t → DepsCompleted b.tasks t
    | .setDependencies taskId dependsOn =>
        ∀ t, b.tasks.get? taskId = some t → t.status.IsScheduled →
          ∀ dep ∈ dependsOn, (b.tasks.get? dep).map Task.status = some .completed
    | .createTask plan => ∀ t, b.tasks.get? plan.taskId = some t → t.status ≠ .completed
    | .createTasksBatch plans => ∀ plan ∈ plans, ∀ t, b.tasks.get? plan.taskId = some t →
        t.status ≠ .completed
    | .handleSyncMessage _ => False
    | _ => True

variable {now : Nat} {b b' : Board} {op : StoreOp} {s : ClusterState}

theorem completedKept_step (hop : KeepsGate now s.toBoard op) :
    CompletedKept s.toBoard (ClusterState.step now op s).2.toBoard := by
  intro taskId t ht hdone
  obtain ⟨t', ht', hrewrites⟩ := (ClusterState.evolves now op s).get?_of_get?
    (fun _ _ h => Rewrites.id_eq h) ht
  refine ⟨t', ht', ?_⟩
  rcases hrewrites with rfl | hchange
  · exact hdone
  · have hover : ¬WritesOverEnded .memory op t := by
      intro hover
      have hid : s.tasks.get? t.id = some t := Table.get?_of_mem (Table.mem_of_get? ht)
      cases op with
      | setTaskStatus => exact hover.1 rfl
      | handleSyncMessage => exact hover rfl
      | createTask plan =>
          obtain ⟨-, hplan⟩ := hover
          exact hop.2 t (hplan ▸ hid) hdone
      | createTasksBatch plans =>
          obtain ⟨-, plan, hmem, hplan⟩ := hover
          exact hop.2 plan hmem t (hplan ▸ hid) hdone
      | _ => exact hover
    rcases hchange.staysEnded hover (.inl hdone) with heq | ⟨hrequested, -⟩
    · rw [heq, hdone]
    · rw [hdone] at hrequested
      cases hrequested

/-- A row past the gate after an operation. -/
theorem depsCompleted_of_change {t t' : Task} (h : Gated b) (hop : KeepsGate now b op)
    (hkept : CompletedKept b b') (ht : t ∈ b.tasks.rows)
    (hchange : Change .memory now b op t t') (hscheduled : t'.status.IsScheduled) :
    DepsCompleted b'.tasks t' := by
  have hget : b.tasks.get? t.id = some t := Table.get?_of_mem ht
  cases hchange with
  | @status taskId status _ _ hid hguard =>
      rcases hscheduled with hready | hrunning
      · cases (show status = .ready from hready)
        exact (hop.1 t ht ⟨rfl, hid, hguard⟩).mono hkept rfl
      · exact (hop.2 hrunning t (hid ▸ hget)).mono hkept rfl
  | unassign hid hopen hfree => exact (hop.1 t ht ⟨hid, hopen, hfree⟩).mono hkept rfl
  | resume hid hblocked => exact (hop.1 t ht ⟨hid, hblocked⟩).mono hkept rfl
  | requeue hid hopen hcap => exact (hop.1 t ht ⟨hid, hopen, hcap⟩).mono hkept rfl
  | dependencies hid =>
      have hdone := hop.2 t (hid ▸ hget) hscheduled
      exact DepsCompleted.mono (t := t.withDependencies now _) hdone hkept rfl
  | promote _ hdeps _ => exact hdeps.mono hkept rfl
  | assign hcandidate => exact (h t ht (.inl hcandidate.2.1)).mono hkept rfl
  | sync => exact hop.2.elim
  | unblock => simp [Task.unblockTo, TaskStatus.IsScheduled] at hscheduled
  | hold hpending => simp [Task.hold, TaskStatus.IsScheduled, hpending] at hscheduled
  | replace => simp [TaskPlan.toTask, TaskStatus.IsScheduled] at hscheduled
  | @replaceBatch _ plan _ _ hplan hid =>
      by_cases hempty : plan.dependsOn = []
      · intro dep hdep
        have hnone : dep ∈ plan.dependsOn := hdep
        rw [hempty] at hnone
        cases hnone
      · simp [ClusterState.batchTask, TaskPlan.toTask, TaskStatus.IsScheduled, hempty]
          at hscheduled
  | demote _ hsql | overwrite hsql | promoteRow hsql | promoteBatch hsql => exact absurd rfl hsql
  | result | ballot | cancelRequeue | writeRow => exact (h t ht hscheduled).mono hkept rfl

omit [Unicode] in
theorem dependsOn_of_created {t : Task} (h : Created .memory now op t)
    (hop : KeepsGate now b op) (hscheduled : t.status.IsScheduled) : t.dependsOn = [] := by
  cases h with
  | pending => simp [TaskPlan.toTask, TaskStatus.IsScheduled] at hscheduled
  | promoted hsql | batchPending hsql | batchPromoted hsql => exact absurd rfl hsql
  | @batch _ plan _ hplan =>
      by_contra hdeps
      have hne : plan.dependsOn ≠ [] := hdeps
      simp [ClusterState.batchTask, TaskPlan.toTask, TaskStatus.IsScheduled, hne] at hscheduled
  | synced => exact hop.2.elim

theorem gated_step (h : Gated s.toBoard) (hop : KeepsGate now s.toBoard op) :
    Gated (ClusterState.step now op s).2.toBoard := by
  intro t' ht' hscheduled
  have hkept := completedKept_step hop
  rcases (ClusterState.evolves now op s).exists_of_mem ht' with ⟨t, ht, rfl | hchange⟩ | hnew
  · exact (h t' ht hscheduled).mono hkept rfl
  · exact depsCompleted_of_change h hop hkept ht hchange hscheduled
  · intro dep hdep
    rw [dependsOn_of_created hnew hop hscheduled] at hdep
    cases hdep

end Step

/-! ## Runs of calls -/

section Runs

variable [Unicode]

/-- What a call needs of the board it begins on: a task that it resumes, or
whose dependencies it rewrites while the task is past the gate, has them
completed; no completed task is created anew. -/
def DependencySafe (c : Call) (w : Timed Board) : Prop :=
  (∀ t ∈ w.state.tasks.rows, c.Resumes w t → ¬t.status.IsTerminal →
      DepsCompleted w.state.tasks t) ∧
    match c with
    | .submit taskId _ => ∀ t, w.state.tasks.get? taskId = some t → t.status ≠ .completed
    | .createBatch plans => ∀ plan ∈ plans, ∀ t, w.state.tasks.get? plan.taskId = some t →
        t.status ≠ .completed
    | .setDependencies taskId req =>
        ∀ t, w.state.tasks.get? taskId = some t → t.status.IsScheduled →
          ∀ dep ∈ req.dependsOn, (w.state.tasks.get? dep).map Task.status = some .completed
    | _ => True

theorem Issued.keepsGate {c : Call} {w₀ : Timed Board} {b : Board} {op : StoreOp} {now : Nat}
    (h : Issued c w₀ b op) (hnow : ∃ i, now = w₀.clock i) (hsafe : DependencySafe c w₀)
    (hgated : Gated b) : KeepsGate now b op := by
  refine ⟨fun t ht hreopens => ?_, ?_⟩
  · cases h.reopening hnow ht hreopens with
    | promotes _ hdeps => exact hdeps
    | advances _ hdeps => exact hdeps
    | @resumes t₀ hquiet hget hrow hguard hresumes =>
        have hdeps := hsafe.1 t₀ (Table.mem_of_get? hget) hresumes (hguard rfl)
        rw [← depsCompleted_congr hquiet.gateSame] at hdeps
        intro dep hdep
        exact hdeps dep (hrow.dependsOn ▸ hdep)
  · cases h with
    | idle hidle => cases op <;> first | exact hidle.elim | trivial
    | submit hc hb =>
        subst hc hb
        exact hsafe.2
    | batch hc hb =>
        subst hc hb
        exact hsafe.2
    | dependencies hc hb =>
        subst hc hb
        exact hsafe.2
    | close _ hrunning => exact fun heq => absurd heq hrunning
    | claim hget hready =>
        intro _ t ht
        exact hgated t (Table.mem_of_get? ht) (.inl (by cases hget.symm.trans ht; exact hready))
    | promote | advance | release => exact fun heq => by cases heq
    | retry | resume | unassign => trivial

/-- Through any run of calls that are safe on the boards they begin on, every
task past the gate has its dependencies completed, after each operation. -/
theorem gated_of_calls (cs : List TimedCall) (w : Timed ClusterState)
    (hstart : Gated w.state.toBoard)
    (hsafe : Backend.memory.CallsMeet (Backend.memory.Meets DependencySafe) cs w) :
    Backend.memory.AlongCalls (fun _ _ w' => Gated (Backend.memory.board w'.state)) cs w ∧
      Gated (Backend.memory.board (Backend.memory.runCalls cs w).state) := by
  refine Backend.runs_keep (k := .memory) (I := fun w => Gated (Backend.memory.board w.state))
    ?_ ?_ (fun _ _ h => h) hstart hsafe
  · intro w' op hidle hgated
    have hop : KeepsGate (w'.clock 0) (Backend.memory.board w'.state) op := by
      refine ⟨fun t _ hreopens => ?_, ?_⟩
      · cases op <;> first | exact hidle.elim | exact hreopens.elim
      · cases op <;> first | exact hidle.elim | trivial
    exact ⟨gated_step hgated hop, gated_step hgated hop⟩
  · rintro c w₀ w' op hsafe ⟨j, hj⟩ hgated hissued
    have hop : KeepsGate (w'.clock 0) (Backend.memory.board w'.state) op :=
      hissued.keepsGate ⟨0 + j, hj 0⟩ hsafe hgated
    exact ⟨gated_step hgated hop, gated_step hgated hop⟩

end Runs

section Example

local instance asciiDeps : Unicode := Unicode.ascii

/-- A store with one node and no task. -/
def idleCluster : ClusterState :=
  { ClusterState.empty with nodes := .single { id := "n" } }

/-- The second of two tasks waits for the first, until its dependency is
dropped. -/
def inARow : List TimedCall :=
  [⟨.createBatch [{ taskId := "a", title := "a" },
      { taskId := "b", title := "b", dependsOn := ["a"] }], fun _ => 1⟩,
   ⟨.schedulePass, fun _ => 2⟩, ⟨.setDependencies "b" { dependsOn := [] }, fun _ => 3⟩,
   ⟨.triggerPending, fun _ => 4⟩]

theorem gated_of_calls_inARow :
    Gated (Backend.memory.runCalls inARow ⟨idleCluster, fun _ => 0⟩).state.toBoard := by
  have hstart : Gated idleCluster.toBoard := fun t ht => by cases ht
  refine (gated_of_calls inARow ⟨idleCluster, fun _ => 0⟩ hstart
    ⟨⟨?_, ?_⟩, ⟨?_, trivial⟩, ⟨?_, ?_⟩, ⟨?_, trivial⟩, trivial⟩).2
  · exact fun _ _ hresumes => hresumes.mayResume.elim
  · exact fun _ _ t ht => by cases ht
  · exact fun _ _ hresumes => hresumes.mayResume.elim
  · exact fun _ _ hresumes => hresumes.mayResume.elim
  · exact fun _ _ _ _ hdep => by cases hdep
  · exact fun _ _ hresumes => hresumes.mayResume.elim

/-- A task that is ready is given a dependency, and stays ready. -/
theorem ready_task_rewired :
    ¬Gated (Backend.memory.runCalls
      [⟨.createBatch [{ taskId := "a", title := "a" }, { taskId := "b", title := "b" }],
          fun _ => 1⟩,
        ⟨.setDependencies "b" { dependsOn := ["a"] }, fun _ => 2⟩]
      ⟨ClusterState.empty, fun _ => 0⟩).state.toBoard := by
  intro hgated
  have hmem : ({ id := "b", title := "b", dependsOn := ["a"], status := .ready,
                 createdAt := 1, updatedAt := 2, version := 2 } : Task) ∈
      (Backend.memory.runCalls
        [⟨.createBatch [{ taskId := "a", title := "a" }, { taskId := "b", title := "b" }],
            fun _ => 1⟩,
          ⟨.setDependencies "b" { dependsOn := ["a"] }, fun _ => 2⟩]
        ⟨ClusterState.empty, fun _ => 0⟩).state.tasks.rows := by decide
  have hdone := hgated _ hmem (.inl rfl) "a" (List.mem_singleton_self _)
  exact absurd hdone (by decide)

end Example

end HermesCluster
