import HermesCluster.Routers.Cascade
/-!
# The core's scheduler

`ClusterScheduler.reschedule_task` gives a task back and reads off where a schedule
pass put it. The task goes back as pending and keeps its assignee; the pass serves
ready tasks only.
-/

namespace HermesCluster

open Program hiding pure bind

namespace ClusterScheduler

/-- `schedule_pending`. -/
def schedulePending : Api Nat := do
  let newAssignments ← store .schedulePendingDetailed
  pure newAssignments.length

/-- The loop over the active leases, which stops at the first of the task. -/
def revokeFirst (taskId : String) : List Lease → Api Unit
  | [] => pure ()
  | lease :: activeLeases =>
      if lease.taskId = taskId then do
        let _ ← store (.revokeLease lease.id)
        pure ()
      else revokeFirst taskId activeLeases

/-- `if task.assigned_to: …`. -/
def revokeExisting (task : Task) (taskId : String) : Api Unit :=
  if task.assignedTo.getD "" = "" then pure ()
  else do
    let activeLeases ← store .getActiveLeases
    revokeFirst taskId activeLeases

/-- `task.assigned_to` of the row read back, or None. -/
def assigneeOf (task : Option Task) : Option String :=
  (task.bind Task.assignedTo).filter (fun nodeId => nodeId ≠ "")

/-- `reschedule_task`. -/
def rescheduleTask (taskId : String) : Api (Option String) := do
  match ← store (.getTask taskId) with
  | none => pure none
  | some task => do
      revokeExisting task taskId
      let _ ← store (.setTaskStatus taskId .pending "")
      let _ ← schedulePending
      let after ← store (.getTask taskId)
      pure (assigneeOf after)

/-- The task is active on the node, under a live lease. -/
def PlacedOn (now : Nat) (b : Board) (taskId nodeId : String) : Prop :=
  (∃ t, b.tasks.get? taskId = some t ∧ t.status.IsActive ∧ t.assignedTo = some nodeId) ∧
    ∃ l ∈ b.leases.rows, l.taskId = taskId ∧ l.nodeId = nodeId ∧ l.IsLive now

section Runs

variable [Unicode] {k : Backend} {w : Timed Board} {taskId : String} {α : Type}

/-- The call answers, and a node that it names is one the task is placed on. -/
def Truthful (k : Backend) (taskId : String)
    (out : Except ApiError (Option String) × Timed k.Store) : Prop :=
  ∃ answer, out.1 = .ok answer ∧
    ∀ nodeId, answer = some nodeId →
      PlacedOn (out.2.clock 0) (k.board out.2.state) taskId nodeId

/-- What a call leaves of the row it is for: the assignee of before, under a status
that no pass serves. -/
def GivenBack (t t' : Task) : Prop :=
  t'.assignedTo = t.assignedTo ∧ (t'.status = .pending ∨ t'.status.IsTerminal)

omit [Unicode] in
theorem not_isActive_of_givenBack {t t' : Task} (h : GivenBack t t') : ¬t'.status.IsActive := by
  intro hactive
  rcases hactive with hrunning | hassigned
  · simp [GivenBack, hrunning, TaskStatus.IsTerminal] at h
  · simp [GivenBack, hassigned, TaskStatus.IsTerminal] at h

theorem yields_revokeFirst (leases : List Lease) {f : Unit → Api α}
    {Q : Except ApiError α → Timed Board → Prop}
    (h : ∀ w', w'.state.tasks = w.state.tasks → Yields k (f ()) w' Q) :
    Yields k (revokeFirst taskId leases >>= f) w Q := by
  induction leases with
  | nil => exact h w rfl
  | cons lease leases ih =>
      unfold revokeFirst
      by_cases hfirst : lease.taskId = taskId
      · rw [if_pos hfirst]
        refine yields_store (fun r w' hC => h w' ?_)
        rw [hC.reply]
      · rw [if_neg hfirst]
        exact ih

theorem yields_revokeExisting (task : Task) {f : Unit → Api α}
    {Q : Except ApiError α → Timed Board → Prop}
    (h : ∀ w', w'.state.tasks = w.state.tasks → Yields k (f ()) w' Q) :
    Yields k (revokeExisting task taskId >>= f) w Q := by
  unfold revokeExisting
  by_cases hunassigned : task.assignedTo.getD "" = ""
  · rw [if_pos hunassigned]
    exact h w rfl
  · rw [if_neg hunassigned, bind_assoc]
    refine yields_store (fun activeLeases w₁ hC₁ => ?_)
    refine yields_revokeFirst activeLeases (fun w₂ hsame => h w₂ ?_)
    rw [hsame, hC₁.reply.2]

/-- The write of `pending`: memory refuses it of a task that has ended. -/
theorem givenBack_of_status {t : Task} {r : Bool} {w' : Timed Board}
    (ht : w.state.tasks.get? taskId = some t)
    (hC : Contract k (.setTaskStatus taskId .pending "") w r w') :
    ∃ t', w'.state.tasks.get? taskId = some t' ∧ GivenBack t t' := by
  obtain ⟨t', ht', hrow⟩ := hC.tasks.get?_of_get? (fun _ _ h => h.id_eq) ht
  refine ⟨t', ht', ?_⟩
  rcases hrow with rfl | hchange
  · by_cases hended : t'.status.IsTerminal
    · exact ⟨rfl, .inr hended⟩
    · have hwritten := hC.reply.2 t' ht (not_refuses_of_open hended)
      rw [ht'] at hwritten
      have hpending := congrArg Task.status (Option.some.inj hwritten)
      exact ⟨rfl, .inl hpending⟩
  · cases hchange with
    | status _ _ => exact ⟨rfl, .inl rfl⟩

theorem get?_of_pass {t : Task} {r : List Assignment} {w' : Timed Board}
    (ht : w.state.tasks.get? taskId = some t) (hready : t.status ≠ .ready)
    (hC : Contract k .schedulePendingDetailed w r w') :
    w'.state.tasks.get? taskId = some t := by
  obtain ⟨t', ht', hrow⟩ := hC.tasks.get?_of_get? (fun _ _ h => h.id_eq) ht
  rcases hrow with rfl | hchange
  · exact ht'
  · cases hchange with
    | assign hcandidate => exact absurd hcandidate.2.1 hready

omit [Unicode] in
theorem GivenBack.not_ready {t t' : Task} (h : GivenBack t t') : t'.status ≠ .ready := by
  intro hready
  simp [GivenBack, hready, TaskStatus.IsTerminal] at h

/-- The call answers with the assignee the task had before it. -/
theorem rescheduleTask_spec (k : Backend) (taskId : String) (w : Timed Board) :
    Yields k (rescheduleTask taskId) w (fun r w' =>
      r = .ok (assigneeOf (w.state.tasks.get? taskId)) ∧
        ∀ t, w.state.tasks.get? taskId = some t →
          ∃ t', w'.state.tasks.get? taskId = some t' ∧ GivenBack t t') := by
  unfold rescheduleTask
  refine yields_store (fun r w₁ hC₁ => ?_)
  obtain ⟨rfl, hsame₁⟩ := hC₁.reply
  cases hget : w.state.tasks.get? taskId with
  | none => exact ⟨rfl, fun t ht => by cases ht⟩
  | some t =>
      refine yields_revokeExisting t (fun w₂ hsame₂ => ?_)
      have hget₂ : w₂.state.tasks.get? taskId = some t := by rw [hsame₂, hsame₁, hget]
      refine yields_store (fun _ w₃ hC₃ => ?_)
      obtain ⟨t', hget₃, hback⟩ := givenBack_of_status hget₂ hC₃
      unfold schedulePending
      rw [bind_assoc]
      refine yields_store (fun _ w₄ hC₄ => ?_)
      have hget₄ := get?_of_pass hget₃ hback.not_ready hC₄
      refine yields_store (fun after w₅ hC₅ => ?_)
      obtain ⟨rfl, hsame₅⟩ := hC₅.reply
      refine ⟨?_, fun u hu => ⟨t', ?_, ?_⟩⟩
      · simp [assigneeOf, hget₄, hback.1]
      · rw [hsame₅, hget₄]
      · rw [← Option.some.inj hu]
        exact hback

omit [Unicode] in
theorem assigneeOf_eq_none_iff {task : Option Task} :
    assigneeOf task = none ↔ ∀ t, task = some t → t.assignedTo.getD "" = "" := by
  cases task with
  | none => simp [assigneeOf]
  | some t =>
      cases hassigned : t.assignedTo with
      | none => simp [assigneeOf, hassigned]
      | some nodeId => simp [assigneeOf, hassigned, Option.filter]

end Runs

end ClusterScheduler

/-- A reschedule names a node that the task is placed on exactly when it names none:
the task has no assignee, or there is no such task. -/
theorem rescheduleTask_truthful_iff [Unicode] (k : Backend) (w : Timed k.Store)
    (taskId : String) :
    ClusterScheduler.Truthful k taskId
        ((ClusterScheduler.rescheduleTask taskId).run k.tick w) ↔
      ∀ t, (k.board w.state).tasks.get? taskId = some t → t.assignedTo.getD "" = "" := by
  obtain ⟨hanswer, hrow⟩ :=
    (along_of_wp k.implements (ClusterScheduler.rescheduleTask_spec k taskId (k.view w))).2
  rw [← ClusterScheduler.assigneeOf_eq_none_iff]
  constructor
  · rintro ⟨answer, hout, htrue⟩
    have hsame := Except.ok.inj (hout.symm.trans hanswer)
    cases hassignee : ClusterScheduler.assigneeOf ((k.board w.state).tasks.get? taskId) with
    | none => rfl
    | some nodeId =>
        obtain ⟨⟨t', ht', hactive, -⟩, -⟩ := htrue nodeId (hsame.trans hassignee)
        cases hget : (k.board w.state).tasks.get? taskId with
        | none =>
            rw [hget] at hassignee
            cases hassignee
        | some t =>
            obtain ⟨u, hu, hback⟩ := hrow t hget
            obtain rfl := Option.some.inj (hu.symm.trans ht')
            exact absurd hactive (ClusterScheduler.not_isActive_of_givenBack hback)
  · intro hnone
    refine ⟨none, hanswer.trans (congrArg Except.ok hnone), fun nodeId h => ?_⟩
    cases h

section StaleAssignees

local instance asciiReschedules : Unicode := Unicode.ascii

/-- A task that a schedule pass gave to the only node. -/
def oneRunning : Timed ClusterState where
  state := (ClusterState.step 0 .schedulePendingDetailed { ClusterState.empty with
    nodes := Table.empty.upsert { id := "node_a" }
    tasks := Table.empty.upsert { id := "task_1", title := "t", createdAt := 0, updatedAt := 0,
                                  status := .ready } }).2
  clock := fun _ => 0

/-- The answer names the node; the task is pending and no lease is live. -/
theorem reschedule_names_stale_node :
    let out := (ClusterScheduler.rescheduleTask "task_1").run (Backend.tick .memory) oneRunning
    out.1.toOption = some (some "node_a") ∧
      (out.2.state.tasks.get? "task_1").map Task.status = some .pending ∧
      ¬ClusterScheduler.Truthful .memory "task_1" out := by
  have hstatus : (((ClusterScheduler.rescheduleTask "task_1").run (Backend.tick .memory)
      oneRunning).2.state.tasks.get? "task_1").map Task.status = some .pending := by
    decide +kernel
  have hanswer : ((ClusterScheduler.rescheduleTask "task_1").run (Backend.tick .memory)
      oneRunning).1.toOption = some (some "node_a") := by
    decide +kernel
  refine ⟨hanswer, hstatus, ?_⟩
  rintro ⟨answer, hout, htrue⟩
  rw [hout] at hanswer
  obtain ⟨⟨t, ht, hactive, -⟩, -⟩ := htrue "node_a" (Option.some.inj hanswer)
  have hpending : t.status = .pending := by
    rw [show ((ClusterScheduler.rescheduleTask "task_1").run (Backend.tick .memory)
      oneRunning).2.state.tasks.get? "task_1" = some t from ht] at hstatus
    exact Option.some.inj hstatus
  rw [hpending] at hactive
  exact absurd hactive (by decide)

end StaleAssignees

end HermesCluster
