import HermesCluster.Lease.TaskLeases
import HermesCluster.Routers.Footprint
import HermesCluster.State.Terminality
/-!
# Leases at the end of a delivery

`complete`, `fail`, `cancel`, `block` and `release` revoke what a lookup by task
finds, which is one lease. The others stay as they are, so whether the task is
free of live leases afterwards depends on how many there were.
-/

namespace HermesCluster

open Program hiding pure bind

/-! ## The calls -/

/-- The calls that end the delivery of a task. -/
inductive Ending where
  | complete (req : Option CompleteTaskRequest)
  | fail (req : Option FailTaskRequest)
  | cancel (req : Option CancelTaskRequest)
  | block (req : BlockTaskRequest)
  | release (req : ReleaseTaskRequest)

section Calls

variable [Unicode]

def Ending.prog (taskId : String) : Ending → Api Reply
  | complete req => Tasks.completeTask taskId req
  | fail req => Tasks.failTask taskId req
  | cancel req => Tasks.cancelTask taskId req
  | block req => Tasks.blockTask taskId req
  | release req => Tasks.releaseTask taskId req

/-- How many lookups a call on the row `t` makes; `none` where `requeue_task`
revokes all live leases by itself. -/
def Ending.lookups (k : Backend) (t : Task) : Ending → Option Nat
  | complete req =>
      if t.status = .cancelRequested then some 1
      else if ReviewerGate.reviewerCompletionVeto t (req.bind CompleteTaskRequest.result) = none
        then some 1
      else if k ≠ .memory then none
      else if t.attempts < taskRetryLimit then some 3
      else some 2
  | fail req =>
      if t.status = .cancelRequested then some 0
      else if (req.map FailTaskRequest.requeue).getD false = true ∧ k ≠ .memory then none
      else some 1
  | cancel _ | block _ | release _ => some 1

end Calls

/-- The lookups, if they are counted, reach every live lease. -/
def TaskLeases.Reached (now : Nat) (taskId : String) (h : TaskLeases) : Option Nat → Prop
  | none => True
  | some n => h.Covered now taskId n

/-- No lease of the task is live. A task that was put back may have been given
to a node anew; then this is about the leases it had before. -/
def LeasesEnded (now : Nat) (taskId : String) (b b' : Board) (reply : Reply) : Prop :=
  ∀ l ∈ leasesOf b' taskId,
    (reply.requeued = some true → l.id ∈ (leasesOf b taskId).map Lease.id) → ¬l.IsLive now

instance (now : Nat) (taskId : String) (b b' : Board) (reply : Reply) :
    Decidable (LeasesEnded now taskId b b' reply) :=
  inferInstanceAs (Decidable (∀ l ∈ leasesOf b' taskId,
    (reply.requeued = some true → l.id ∈ (leasesOf b taskId).map Lease.id) → ¬l.IsLive now))

/-! ## One operation -/

section Steps

variable [Unicode] {k : Backend} {taskId : String} {now n : Nat} {ids : List Nat} {cond : Prop}
  {w w' : Timed k.Store} {α : Type}

/-- The condition on which no live lease is left after `n` more lookups. -/
structure Sees (k : Backend) (taskId : String) (now : Nat) (ids : List Nat) (cond : Prop)
    (n : Nat) (w : Timed k.Store) : Prop where
  ids : (k.taskLeases taskId w.state).rows.map Lease.id = ids
  covered : (k.taskLeases taskId w.state).Covered now taskId n ↔ cond
  clock : ∀ i, w.clock i ≤ now

/-- The task is stored and has ended. -/
def RowEnded (taskId : String) (b : Board) : Prop :=
  ∃ t, b.tasks.get? taskId = some t ∧ t.status.IsTerminal

/-- What a handler ends with on the stores of a backend. -/
abbrev EndsOn (k : Backend) (p : Api α) (w : Timed k.Store)
    (Q : Except ApiError α → Timed k.Store → Prop) : Prop :=
  p.Wp k.Does (fun _ _ => True) w Q

theorem Backend.Does.contract {op : StoreOp} {r : op.Res} (h : k.Does op w r w') :
    Contract k op (k.view w) r (k.view w') := by
  obtain ⟨rfl, rfl⟩ := h
  exact k.implements op w

theorem Backend.Does.clock {op : StoreOp} {r : op.Res} (h : k.Does op w r w') (i : Nat) :
    w'.clock i = w.clock (i + 1) := by
  obtain ⟨-, rfl⟩ := h
  rfl

omit [Unicode] in
theorem Sees.of_eq (h : Sees k taskId now ids cond n w)
    (hsame : k.taskLeases taskId w'.state = k.taskLeases taskId w.state)
    (hclock : ∀ i, w'.clock i ≤ now) : Sees k taskId now ids cond n w' where
  ids := by rw [hsame, h.ids]
  covered := by rw [hsame, h.covered]
  clock := hclock

theorem Sees.clock_step (h : Sees k taskId now ids cond n w) {op : StoreOp} {r : op.Res}
    (hstep : k.Does op w r w') (i : Nat) : w'.clock i ≤ now :=
  (hstep.clock i).le.trans (h.clock _)

theorem Sees.spare (h : Sees k taskId now ids cond n w) {op : StoreOp} {r : op.Res}
    (hop : SparesLeases taskId (k.board w.state) op) (hstep : k.Does op w r w') :
    Sees k taskId now ids cond n w' := by
  refine h.of_eq ?_ (h.clock_step hstep)
  rw [hstep.2]
  exact k.taskLeases_of_spares _ hop

omit [Unicode] in
theorem Sees.revoked (h : Sees k taskId now ids cond (n + 1) w)
    (heq : k.taskLeases taskId w'.state = (k.taskLeases taskId w.state).revokeFirst taskId)
    (hclock : ∀ i, w'.clock i ≤ now) : Sees k taskId now ids cond n w' where
  ids := by rw [heq, TaskLeases.ids_revokeFirst, h.ids]
  covered := by
    rw [heq, TaskLeases.covered_revokeFirst, h.covered]
    rw [k.rows_taskLeases]
    exact nodup_leasesOf _ _
  clock := hclock

theorem state_of_reads {op : StoreOp} {r : op.Res} (hop : Reads op) (hstep : k.Does op w r w') :
    w'.state = w.state := by
  obtain ⟨-, rfl⟩ := hstep
  cases k with
  | memory => cases op <;> first | exact hop.elim | rfl
  | sql d => cases op <;> first | exact hop.elim | rfl

theorem RowEnded.step (h : RowEnded taskId (k.board w.state)) {op : StoreOp} {r : op.Res}
    (hstep : k.Does op w r w')
    (hop : ∀ t, (k.board w.state).tasks.get? taskId = some t → ¬WritesOverEnded k op t) :
    RowEnded taskId (k.board w'.state) := by
  obtain ⟨t, hget, hended⟩ := h
  obtain ⟨t', hget', hrow⟩ :=
    hstep.contract.tasks.get?_of_get? (fun _ _ hrow => hrow.id_eq) hget
  refine ⟨t', hget', ?_⟩
  rcases hrow with rfl | hchange
  · exact hended
  · exact (hchange.staysEnded (hop t hget)).isTerminal hended

theorem RowEnded.status_other (h : RowEnded taskId (k.board w.state)) {other reason : String}
    {status : TaskStatus} {r : Bool} (hother : other ≠ taskId)
    (hstep : k.Does (.setTaskStatus other status reason) w r w') :
    RowEnded taskId (k.board w'.state) := by
  refine h.step hstep (fun t hget hover => hother ?_)
  exact hover.2.1.symm.trans (Table.key_of_get? hget)

theorem rowEnded_of_close {t : Task} {reason : String} {status : TaskStatus} {r : Bool}
    (hget : (k.board w.state).tasks.get? taskId = some t) (hstatus : status.IsTerminal)
    (hstep : k.Does (.setTaskStatus taskId status reason) w r w') :
    RowEnded taskId (k.board w'.state) := by
  by_cases hguard : ClusterState.Refuses t.status status
  · obtain ⟨t', hget', hrow⟩ :=
      hstep.contract.tasks.get?_of_get? (fun _ _ hrow => hrow.id_eq) hget
    refine ⟨t', hget', ?_⟩
    rcases hrow with rfl | hchange
    · exact hguard.1
    · cases hchange with
      | status => exact hstatus
  · exact ⟨_, hstep.contract.reply.2 t hget hguard, hstatus⟩

/-! ## Lookups -/

theorem endsOn_getByTask {id : String} {f : Option Lease → Api α}
    {Q : Except ApiError α → Timed k.Store → Prop}
    (h : ∀ w', w'.state = w.state → (∀ i, ∃ j, w'.clock i = w.clock j) →
      EndsOn k (f ((k.taskLeases id w.state).found id).head?) w' Q) :
    EndsOn k (LeaseManager.getByTask id >>= f) w Q := by
  unfold LeaseManager.getByTask
  split
  · rename_i hempty
    have hnone : (k.taskLeases id w.state).found id = [] := by
      rw [TaskLeases.found, if_pos hempty]
    have hnext := h w rfl (fun i => ⟨i, rfl⟩)
    rw [hnone] at hnext
    exact hnext
  · refine wp_perform.mpr ⟨trivial, fun r w' hstep => ?_⟩
    have hreply : r = ((k.taskLeases id w.state).found id).head? := by
      rw [hstep.1]
      exact congrArg Prod.fst (k.step_getLeaseByTask (w.clock 0) id w.state)
    rw [hreply]
    have hreads : Reads (.getLeaseByTask id) := trivial
    exact h w' (state_of_reads hreads hstep) (fun i => ⟨i + 1, hstep.clock i⟩)

omit [Unicode] in
theorem Sees.of_state_eq (h : Sees k taskId now ids cond n w) (hsame : w'.state = w.state)
    (hclock : ∀ i, ∃ j, w'.clock i = w.clock j) : Sees k taskId now ids cond n w' := by
  refine h.of_eq (by rw [hsame]) (fun i => ?_)
  obtain ⟨j, hj⟩ := hclock i
  exact hj.le.trans (h.clock j)

theorem Sees.revoke (h : Sees k taskId now ids cond (n + 1) w) {l : Lease} {rest : List Lease}
    {r : Bool} (hfound : (k.taskLeases taskId w.state).found taskId = l :: rest)
    (hstep : k.Does (.revokeLease l.id) w r w') :
    Sees k taskId now ids cond n w' ∧
      (k.board w'.state).tasks = (k.board w.state).tasks := by
  refine ⟨h.revoked ?_ (h.clock_step hstep), ?_⟩
  · rw [hstep.2]
    exact k.taskLeases_revokeLease _ hfound
  · exact (congrArg Board.tasks hstep.contract.reply :)

omit [Unicode] in
theorem Sees.unfound (h : Sees k taskId now ids cond (n + 1) w)
    (hfound : (k.taskLeases taskId w.state).found taskId = []) :
    Sees k taskId now ids cond n w := by
  refine h.revoked ?_ h.clock
  rw [TaskLeases.revokeFirst, hfound]

/-- `lease = get_by_task(task_id); if lease: revoke(lease.id)`. -/
theorem Sees.endsOn_revokeLeaseOf (h : Sees k taskId now ids cond (n + 1) w)
    {f : Unit → Api α} {Q : Except ApiError α → Timed k.Store → Prop}
    (hf : ∀ w', Sees k taskId now ids cond n w' →
      (k.board w'.state).tasks = (k.board w.state).tasks → EndsOn k (f ()) w' Q) :
    EndsOn k (Tasks.revokeLeaseOf taskId >>= f) w Q := by
  rw [Tasks.revokeLeaseOf, bind_assoc]
  refine endsOn_getByTask (fun w₁ hsame hclock => ?_)
  have h₁ := h.of_state_eq hsame hclock
  cases hfound : (k.taskLeases taskId w.state).found taskId with
  | nil => exact hf w₁ (h₁.unfound (hsame.symm ▸ hfound)) (by rw [hsame])
  | cons l rest =>
      refine wp_perform.mpr ⟨trivial, fun r w₂ hstep => ?_⟩
      obtain ⟨h₂, htasks⟩ := h₁.revoke (hsame.symm ▸ hfound) hstep
      exact hf w₂ h₂ (htasks.trans (by rw [hsame]))

theorem endsOn_allCompleted {deps : List String} {f : Bool → Api α}
    {Q : Except ApiError α → Timed k.Store → Prop}
    (hf : ∀ allDone w', w'.state = w.state → (∀ i, ∃ j, w'.clock i = w.clock j) →
      EndsOn k (f allDone) w' Q) : EndsOn k (Tasks.allCompleted deps >>= f) w Q := by
  induction deps generalizing w with
  | nil => exact hf true w rfl (fun i => ⟨i, rfl⟩)
  | cons dep deps ih =>
      rw [Tasks.allCompleted, bind_assoc]
      refine wp_perform.mpr ⟨trivial, fun r w' hstep => ?_⟩
      have hreads : Reads (.getTask dep) := trivial
      have hsame := state_of_reads hreads hstep
      have hstop : EndsOn k (f false) w' Q := hf false w' hsame (fun i => ⟨i + 1, hstep.clock i⟩)
      cases r with
      | none => exact hstop
      | some t =>
          by_cases hdone : t.status = .completed
          · simp only [if_pos hdone]
            refine ih (fun allDone w'' hsame' hclock => hf allDone w'' (hsame'.trans hsame) ?_)
            intro i
            obtain ⟨j, hj⟩ := hclock i
            exact ⟨j + 1, hj.trans (hstep.clock j)⟩
          · simp only [if_neg hdone]
            exact hstop

end Steps

/-! ## The loops at the end of a handler -/

section Loops

variable [Unicode] {k : Backend} {taskId : String} {now n : Nat} {ids : List Nat} {cond : Prop}
  {w : Timed k.Store}

/-- A task that has ended, with lookups still to go. -/
def SeesEnded (k : Backend) (taskId : String) (now : Nat) (ids : List Nat) (cond : Prop) (n : Nat)
    (w : Timed k.Store) : Prop :=
  Sees k taskId now ids cond n w ∧ RowEnded taskId (k.board w.state)

omit [Unicode] in
theorem SeesEnded.reads (h : SeesEnded k taskId now ids cond n w) {w' : Timed k.Store}
    (hsame : w'.state = w.state) (hclock : ∀ i, ∃ j, w'.clock i = w.clock j) :
    SeesEnded k taskId now ids cond n w' := by
  refine ⟨h.1.of_state_eq hsame hclock, ?_⟩
  rw [hsame]
  exact h.2

theorem SeesEnded.status_other (h : SeesEnded k taskId now ids cond n w) {w' : Timed k.Store}
    {other reason : String} {status : TaskStatus} {r : Bool} (hother : other ≠ taskId)
    (hstep : k.Does (.setTaskStatus other status reason) w r w') :
    SeesEnded k taskId now ids cond n w' := by
  have hspares : SparesLeases taskId (k.board w.state) (.setTaskStatus other status reason) :=
    trivial
  exact ⟨h.1.spare hspares hstep, h.2.status_other hother hstep⟩

/-- The cascade takes no lease of a task that has ended. -/
theorem endsOn_cancelDependent (h : SeesEnded k taskId now ids cond n w) (reason depId : String) :
    EndsOn k (Tasks.cancelDependent reason depId) w
      (fun r w' => r = .ok ⟨⟩ ∧ SeesEnded k taskId now ids cond n w') := by
  unfold Tasks.cancelDependent
  refine wp_perform.mpr ⟨trivial, fun r w₁ hstep₁ => ?_⟩
  have hreads : Reads (.getTask depId) := trivial
  have h₁ := h.reads (state_of_reads hreads hstep₁) (fun i => ⟨i + 1, hstep₁.clock i⟩)
  have hreply : r = (k.board w.state).tasks.get? depId := hstep₁.contract.reply.1
  cases r with
  | none => exact ⟨rfl, h₁⟩
  | some dep =>
      by_cases hended : dep.status.IsTerminal
      · simp only [if_pos hended]
        exact ⟨rfl, h₁⟩
      have hother : depId ≠ taskId := by
        rintro rfl
        obtain ⟨t, hget, ht⟩ := h.2
        rw [Option.some.inj (hreply.trans hget)] at hended
        exact hended ht
      simp only [if_neg hended]
      refine endsOn_getByTask (fun w₂ hsame₂ hclock₂ => ?_)
      have h₂ := h₁.reads hsame₂ hclock₂
      cases hfound : (k.taskLeases depId w₁.state).found depId with
      | nil =>
          exact wp_perform.mpr ⟨trivial, fun _ w₃ hstep₃ => ⟨rfl, h₂.status_other hother hstep₃⟩⟩
      | cons l rest =>
          have hfirst : l ∈ (k.taskLeases depId w₁.state).found depId :=
            hfound ▸ List.mem_cons_self
          have hrow := (TaskLeases.mem_rows_of_mem_found hfirst).1
          rw [k.rows_taskLeases] at hrow
          obtain ⟨hmem, htask⟩ := mem_leasesOf.mp hrow
          refine wp_perform.mpr ⟨trivial, fun _ w₃ hstep₃ => ?_⟩
          have hspares : SparesLeases taskId (k.board w₂.state) (.revokeLease l.id) := by
            intro m hm hid hmtask
            rw [hsame₂] at hm
            rw [Table.eq_of_mem_of_key_eq hm hmem hid] at hmtask
            exact hother (htask.symm.trans hmtask)
          have h₃ : SeesEnded k taskId now ids cond n w₃ :=
            ⟨h₂.1.spare hspares hstep₃, h₂.2.step hstep₃ (fun _ _ => id)⟩
          exact wp_perform.mpr ⟨trivial, fun _ w₄ hstep₄ => ⟨rfl, h₃.status_other hother hstep₄⟩⟩

theorem endsOn_cascade (h : SeesEnded k taskId now ids cond n w) (id reason : String)
    {α : Type} {f : List String → Api α} {Q : Except ApiError α → Timed k.Store → Prop}
    (hf : ∀ dependents w', SeesEnded k taskId now ids cond n w' → EndsOn k (f dependents) w' Q) :
    EndsOn k (Tasks.cascadeCancelDependents id reason >>= f) w Q := by
  unfold Tasks.cascadeCancelDependents
  rw [bind_assoc]
  refine wp_perform.mpr ⟨trivial, fun dependents w₁ hstep₁ => ?_⟩
  have hreads : Reads (.getTriggerChain id) := trivial
  have h₁ := h.reads (state_of_reads hreads hstep₁) (fun i => ⟨i + 1, hstep₁.clock i⟩)
  rw [bind_assoc]
  refine Wp.seq (I := fun _ w' => SeesEnded k taskId now ids cond n w') ?_
    (fun _ w' h' => hf dependents w' h')
  refine (wp_forM dependents (Tasks.cancelDependent reason)
    (fun depId _ w' h' => endsOn_cancelDependent h' reason depId) h₁).mono ?_
  rintro r w' ⟨rfl, h'⟩
  exact ⟨⟨⟩, rfl, h'⟩

theorem endsOn_promoteDependent (h : SeesEnded k taskId now ids cond n w) (depId : String) :
    EndsOn k (Tasks.promoteDependent depId) w
      (fun r w' => r = .ok ⟨⟩ ∧ SeesEnded k taskId now ids cond n w') := by
  unfold Tasks.promoteDependent
  refine wp_perform.mpr ⟨trivial, fun r w₁ hstep₁ => ?_⟩
  have hreads : Reads (.getTask depId) := trivial
  have h₁ := h.reads (state_of_reads hreads hstep₁) (fun i => ⟨i + 1, hstep₁.clock i⟩)
  have hreply : r = (k.board w.state).tasks.get? depId := hstep₁.contract.reply.1
  cases r with
  | none => exact ⟨rfl, h₁⟩
  | some dep =>
      by_cases hpending : dep.status = .pending
      · have hother : depId ≠ taskId := by
          rintro rfl
          obtain ⟨t, hget, ht⟩ := h.2
          rw [Option.some.inj (hget.symm.trans hreply.symm)] at ht
          exact TaskStatus.not_isTerminal_of_pending hpending ht
        simp only [if_neg (not_not.mpr hpending)]
        refine endsOn_allCompleted (fun allDone w₂ hsame₂ hclock₂ => ?_)
        have h₂ := h₁.reads hsame₂ hclock₂
        split
        · exact ⟨rfl, h₂⟩
        refine wp_perform.mpr ⟨trivial, fun tasks w₃ hstep₃ => ?_⟩
        have hreads₃ : Reads .getAllTasks := trivial
        have h₃ := h₂.reads (state_of_reads hreads₃ hstep₃) (fun i => ⟨i + 1, hstep₃.clock i⟩)
        split
        · split
          · exact wp_perform.mpr ⟨trivial, fun _ w₄ hstep₄ =>
              ⟨rfl, h₃.status_other hother hstep₄⟩⟩
          · exact ⟨rfl, h₃⟩
        · exact wp_perform.mpr ⟨trivial, fun _ w₄ hstep₄ => ⟨rfl, h₃.status_other hother hstep₄⟩⟩
      · simp only [if_pos hpending]
        exact ⟨rfl, h₁⟩

/-- The end of a completion: the pass leases none to a task that has ended. -/
theorem endsOn_triggerDownstream (h : SeesEnded k taskId now ids cond n w) (id : String)
    {α : Type} {f : Unit → Api α} {Q : Except ApiError α → Timed k.Store → Prop}
    (hf : ∀ w₁ w', Sees k taskId now ids cond n w₁ →
      leasesOf (k.board w'.state) taskId = leasesOf (k.board w₁.state) taskId →
      EndsOn k (f ()) w' Q) : EndsOn k (Tasks.triggerDownstream id >>= f) w Q := by
  unfold Tasks.triggerDownstream
  rw [bind_assoc]
  refine wp_perform.mpr ⟨trivial, fun dependents w₁ hstep₁ => ?_⟩
  have hreads : Reads (.getDependents id) := trivial
  have h₁ := h.reads (state_of_reads hreads hstep₁) (fun i => ⟨i + 1, hstep₁.clock i⟩)
  rw [bind_assoc]
  refine Wp.seq (I := fun _ w' => SeesEnded k taskId now ids cond n w') ?_ (fun _ w₂ h₂ => ?_)
  · refine (wp_forM dependents Tasks.promoteDependent
      (fun depId _ w' h' => endsOn_promoteDependent h' depId) h₁).mono ?_
    rintro r w' ⟨rfl, h'⟩
    exact ⟨⟨⟩, rfl, h'⟩
  · refine wp_perform.mpr ⟨trivial, fun out w₃ hstep₃ => hf w₂ w₃ h₂.1 ?_⟩
    obtain ⟨cs, hpass⟩ := hstep₃.contract.reply
    obtain ⟨t, hget, hended⟩ := h₂.2
    refine hpass.leasesOf_eq (fun u hu hready => ?_)
    rw [Option.some.inj (hu.symm.trans hget)] at hready
    exact TaskStatus.not_isTerminal_of_ready hready hended

end Loops

/-! ## The handlers -/

section Handlers

variable [Unicode] {k : Backend} {taskId : String} {now n : Nat} {cond cond' : Prop}
  {b : Board}
  {w : Timed k.Store} {t : Task}

/-- A call that succeeds leaves no live lease, exactly on a condition. -/
def Settles (k : Backend) (taskId : String) (now : Nat) (b : Board) (cond : Prop)
    (r : Except ApiError Reply) (w' : Timed k.Store) : Prop :=
  ∀ reply, r = .ok reply → (LeasesEnded now taskId b (k.board w'.state) reply ↔ cond)

/-- `Sees`, for a call that began on `b`. -/
abbrev SeesFrom (k : Backend) (taskId : String) (now : Nat) (b : Board) (cond : Prop) (n : Nat)
    (w : Timed k.Store) : Prop :=
  Sees k taskId now ((leasesOf b taskId).map Lease.id) cond n w

omit [Unicode] in
theorem settles_error (e : ApiError) (w' : Timed k.Store) :
    Settles k taskId now b cond (.error e) w' :=
  fun _ h => by cases h

omit [Unicode] in
theorem SeesFrom.settles (h : SeesFrom k taskId now b cond 0 w) {w' : Timed k.Store}
    (hsame : leasesOf (k.board w'.state) taskId = leasesOf (k.board w.state) taskId)
    (reply : Reply) : Settles k taskId now b cond (.ok reply) w' := by
  rintro _ ⟨⟩
  have hids := h.ids
  rw [← h.covered, TaskLeases.Covered]
  rw [k.rows_taskLeases] at hids ⊢
  unfold LeasesEnded
  rw [hsame]
  constructor
  · intro hended l hl hlive
    refine absurd hlive (hended l hl (fun _ => ?_))
    exact hids ▸ List.mem_map_of_mem hl
  · intro hcovered l hl _ hlive
    cases hcovered l hl hlive

omit [Unicode] in
/-- The same after a pass, for a call that put the task back. -/
theorem SeesFrom.settles_requeued (h : SeesFrom k taskId now b cond 0 w) {w' : Timed k.Store}
    {added : List Lease}
    (hadded : leasesOf (k.board w'.state) taskId = leasesOf (k.board w.state) taskId ++ added)
    {reply : Reply} (hreply : reply.requeued = some true) :
    Settles k taskId now b cond (.ok reply) w' := by
  rintro _ ⟨⟩
  have hids := h.ids
  rw [← h.covered, TaskLeases.Covered]
  rw [k.rows_taskLeases] at hids ⊢
  unfold LeasesEnded
  rw [hadded, ← hids]
  have hnodup := nodup_leasesOf (k.board w'.state) taskId
  rw [hadded] at hnodup
  constructor
  · intro hended l hl hlive
    refine absurd hlive (hended l (List.mem_append_left _ hl) (fun _ => ?_))
    exact List.mem_map_of_mem hl
  · intro hcovered l hl hold hlive
    obtain ⟨m, hm, hid⟩ := List.mem_map.mp (hold hreply)
    have hsame : m = l := List.inj_on_of_nodup_map hnodup (List.mem_append_left _ hm) hl hid
    cases hcovered l (hsame ▸ hm) hlive

theorem endsOn_requireTask {f : Task → Api Reply}
    (hf : ∀ t w', (k.board w.state).tasks.get? taskId = some t → w'.state = w.state →
      (∀ i, ∃ j, w'.clock i = w.clock j) → EndsOn k (f t) w' (Settles k taskId now b cond)) :
    EndsOn k (Tasks.requireTask taskId >>= f) w (Settles k taskId now b cond) := by
  rw [Tasks.requireTask, bind_assoc]
  refine wp_perform.mpr ⟨trivial, fun r w' hstep => ?_⟩
  have hreads : Reads (.getTask taskId) := trivial
  have hsame := state_of_reads hreads hstep
  have hreply : r = (k.board w.state).tasks.get? taskId := hstep.contract.reply.1
  cases r with
  | none => exact settles_error _ w'
  | some t => exact hf t w' hreply.symm hsame (fun i => ⟨i + 1, hstep.clock i⟩)

/-- The task is closed, and what depends on it is cancelled. -/
theorem SeesFrom.endsOn_closing (h : SeesFrom k taskId now b cond 0 w)
    (hget : (k.board w.state).tasks.get? taskId = some t) {status : TaskStatus}
    (hstatus : status.IsTerminal) (reason why : String) (reply : List String → Reply) :
    EndsOn k (do
        let _ ← store (.setTaskStatus taskId status reason)
        let blocked ← Tasks.cascadeCancelDependents taskId why
        pure (reply blocked)) w (Settles k taskId now b cond) := by
  refine wp_perform.mpr ⟨trivial, fun _ w₁ hstep => ?_⟩
  have hspares : SparesLeases taskId (k.board w.state) (.setTaskStatus taskId status reason) :=
    trivial
  have h₁ : SeesEnded k taskId now ((leasesOf b taskId).map Lease.id) cond 0 w₁ :=
    ⟨h.spare hspares hstep, rowEnded_of_close hget hstatus hstep⟩
  exact endsOn_cascade h₁ taskId why (fun dependents w' h' => SeesFrom.settles h'.1 rfl _)

theorem SeesFrom.endsOn_consumeFailure (h : SeesFrom k taskId now b cond 1 w)
    (hget : (k.board w.state).tasks.get? taskId = some t) (reason : String) :
    EndsOn k (Tasks.consumeFailure taskId reason) w (Settles k taskId now b cond) := by
  unfold Tasks.consumeFailure
  refine Sees.endsOn_revokeLeaseOf h (fun w₁ h₁ htasks => ?_)
  exact SeesFrom.endsOn_closing h₁ (htasks ▸ hget) (.inr (.inl rfl)) reason _ _

theorem endsOn_requeue {reason : String} {m : Nat} {reply : Reply} {refused : Api Reply}
    (hreply : reply.requeued = some true)
    (hstep : ∀ r w', k.Does (.requeueTask taskId reason) w r w' →
      SeesFrom k taskId now b cond (if r = true then 0 else m) w')
    (hrefused : ∀ w', k.Does (.requeueTask taskId reason) w false w' →
      SeesFrom k taskId now b cond m w' → EndsOn k refused w' (Settles k taskId now b cond)) :
    EndsOn k (do
        let requeued ← store (.requeueTask taskId reason)
        if requeued = true then do
          let _ ← store .schedulePendingDetailed
          pure reply
        else refused) w (Settles k taskId now b cond) := by
  refine wp_perform.mpr ⟨trivial, fun r w₁ hstep₁ => ?_⟩
  have h₁ := hstep r w₁ hstep₁
  cases r with
  | false => exact hrefused w₁ hstep₁ h₁
  | true =>
      refine wp_perform.mpr ⟨trivial, fun out w₂ hstep₂ => ?_⟩
      obtain ⟨cs, hpass⟩ := hstep₂.contract.reply
      obtain ⟨added, hadded⟩ := hpass.leasesOf_prefix taskId
      exact SeesFrom.settles_requeued h₁ hadded hreply

/-- On memory the attempt is granted under the limit, and then takes one lease. -/
theorem sees_requeue_memory {w w' : Timed ClusterState} {reason : String} {r : Bool}
    (hget : w.state.tasks.get? taskId = some t) (hopen : ¬t.status.IsTerminal)
    (h : SeesFrom .memory taskId now b cond (if t.attempts < taskRetryLimit then 1 else n) w)
    (hstep : Backend.memory.Does (.requeueTask taskId reason) w r w') :
    SeesFrom .memory taskId now b cond (if r = true then 0 else n) w' := by
  have hclock := h.clock_step hstep
  obtain ⟨hr, hw'⟩ := hstep
  have hr : r = (ClusterState.requeueTask (w.clock 0) taskId reason w.state).1 := hr
  have hstate : w'.state = (ClusterState.requeueTask (w.clock 0) taskId reason w.state).2 := by
    rw [hw']
    rfl
  by_cases hcap : t.attempts < taskRetryLimit
  · rw [if_pos hcap] at h
    rw [ClusterState.requeueTask_of_open (w.clock 0) reason hget hopen hcap] at hr
    rw [if_pos hr]
    refine Sees.revoked h ?_ hclock
    rw [hstate]
    exact ClusterState.taskLeases_requeueTask (w.clock 0) hget hopen hcap reason
  · rw [if_neg hcap] at h
    have hrefused : ClusterState.requeueTask (w.clock 0) taskId reason w.state =
        (false, w.state) := by
      rcases ClusterState.requeueTask_cases (w.clock 0) taskId reason w.state with
        heq | ⟨u, hu, -, hucap, -⟩
      · exact heq
      · rw [Option.some.inj (hu.symm.trans hget)] at hucap
        exact absurd hucap hcap
    rw [hrefused] at hr hstate
    rw [if_neg (by simp [hr])]
    exact Sees.of_eq h (by rw [hstate]) hclock

/-- On SQL no live lease is left, whether the attempt is granted or not. -/
theorem sees_requeue_sql {d : SqlDialect} {w w' : Timed ClusterStore} {reason : String} {r : Bool}
    (h : SeesFrom (.sql d) taskId now b cond n w)
    (hstep : (Backend.sql d).Does (.requeueTask taskId reason) w r w') (m : Nat) :
    SeesFrom (.sql d) taskId now b True m w' := by
  have hrows : ((Backend.sql d).taskLeases taskId w'.state).rows =
      (leasesOf w.state.toBoard taskId).map
        (fun l => if l.IsLive (w.clock 0) then l.revoke else l) := by
    rw [hstep.2]
    exact ClusterStore.leasesOf_requeueTask (w.clock 0) w.state taskId reason
  refine ⟨?_, iff_of_true (fun l hl hlive => ?_) trivial, h.clock_step hstep⟩
  · rw [hrows, List.map_map, ← h.ids]
    refine List.map_congr_left (fun l _ => ?_)
    simp only [Function.comp_apply]
    split <;> rfl
  · rw [hrows] at hl
    obtain ⟨l₀, -, rfl⟩ := List.mem_map.mp hl
    split at hlive
    · cases hlive.1
    · rename_i hdead
      exact absurd ⟨hlive.1, (h.clock 0).trans_lt hlive.2⟩ hdead

omit [Unicode] in
theorem seesFrom_start (k : Backend) (taskId : String) {w : Timed k.Store} {now : Nat}
    (hclock : ∀ i, w.clock i ≤ now) (n : Nat) :
    SeesFrom k taskId now (k.board w.state) ((k.taskLeases taskId w.state).Covered now taskId n)
      n w :=
  ⟨by rw [k.rows_taskLeases], Iff.rfl, hclock⟩

theorem endsOn_refuseCompletion {veto : String} {m : Nat}
    (h : SeesFrom k taskId now b cond (m + 1) w)
    (hget : (k.board w.state).tasks.get? taskId = some t)
    (hrequeue : ∀ w₁ r w', SeesFrom k taskId now b cond m w₁ →
      (k.board w₁.state).tasks.get? taskId = some t →
      k.Does (.requeueTask taskId veto) w₁ r w' →
      SeesFrom k taskId now b cond' 0 w') :
    EndsOn k (Tasks.refuseCompletion taskId veto) w (Settles k taskId now b cond') := by
  unfold Tasks.refuseCompletion
  refine Sees.endsOn_revokeLeaseOf h (fun w₁ h₁ htasks₁ => ?_)
  rw [← htasks₁] at hget
  refine endsOn_requeue (m := 0) rfl (fun r w₂ hstep => ?_) (fun w₂ hstep h₂ => ?_)
  · rw [ite_self]
    exact hrequeue w₁ r w₂ h₁ hget hstep
  · have hsame : (k.board w₂.state).tasks = (k.board w₁.state).tasks :=
      (hstep.contract.reply rfl).1
    exact SeesFrom.endsOn_closing h₂ (hsame ▸ hget) (.inr (.inl rfl)) veto _ _

theorem SeesFrom.setTaskResult (h : SeesFrom k taskId now b cond n w)
    (hget : (k.board w.state).tasks.get? taskId = some t) {result : Option String} {r : Bool}
    {w' : Timed k.Store} (hstep : k.Does (.setTaskResult taskId result) w r w') :
    SeesFrom k taskId now b cond n w' ∧ ∃ t', (k.board w'.state).tasks.get? taskId = some t' ∧
      t'.status = t.status ∧ t'.attempts = t.attempts := by
  have hspares : SparesLeases taskId (k.board w.state) (.setTaskResult taskId result) := trivial
  obtain ⟨t', hget', hrow⟩ :=
    hstep.contract.tasks.get?_of_get? (fun _ _ hrow => hrow.id_eq) hget
  refine ⟨h.spare hspares hstep, t', hget', ?_⟩
  rcases hrow with rfl | hchange
  · exact ⟨rfl, rfl⟩
  · cases hchange with
    | result => exact ⟨rfl, rfl⟩

theorem endsOn_recordResult (h : SeesFrom k taskId now b cond n w)
    (hget : (k.board w.state).tasks.get? taskId = some t) {result : Option String}
    {f : Bool → Api Reply} {Q : Except ApiError Reply → Timed k.Store → Prop}
    (hf : ∀ stored w' t', SeesFrom k taskId now b cond n w' →
      (k.board w'.state).tasks.get? taskId = some t' → t'.status = t.status →
      t'.attempts = t.attempts → EndsOn k (f stored) w' Q) :
    EndsOn k (match result with
      | none => pure false >>= f
      | some _ => store (.setTaskResult taskId result) >>= f) w Q := by
  cases result with
  | none => exact hf false w t h hget rfl rfl
  | some body =>
      refine wp_perform.mpr ⟨trivial, fun stored w' hstep => ?_⟩
      obtain ⟨h', t', hget', hstatus, hattempts⟩ := h.setTaskResult hget hstep
      exact hf stored w' t' h' hget' hstatus hattempts

/-- The part of `complete_task` behind the stored result. -/
theorem endsOn_closeCompleted (h : SeesFrom k taskId now b cond 0 w)
    (hget : (k.board w.state).tasks.get? taskId = some t) (stored : Bool) :
    EndsOn k (do
        let _ ← store (.setTaskStatus taskId .completed "")
        Tasks.triggerDownstream taskId
        pure { status := some "completed", resultStored := some stored }) w
      (Settles k taskId now b cond) := by
  refine wp_perform.mpr ⟨trivial, fun _ w₁ hstep => ?_⟩
  have hspares : SparesLeases taskId (k.board w.state) (.setTaskStatus taskId .completed "") :=
    trivial
  have h₁ : SeesEnded k taskId now ((leasesOf b taskId).map Lease.id) cond 0 w₁ :=
    ⟨h.spare hspares hstep, rowEnded_of_close hget (.inl rfl) hstep⟩
  exact endsOn_triggerDownstream h₁ taskId
    (fun w₂ w₃ h₂ hsame => SeesFrom.settles h₂ hsame _)

/-- `complete_task`. -/
theorem endsOn_completeTask (hclock : ∀ i, w.clock i ≤ now)
    (hget : (k.board w.state).tasks.get? taskId = some t) (req : Option CompleteTaskRequest) :
    EndsOn k (Tasks.completeTask taskId req) w (Settles k taskId now (k.board w.state)
      ((k.taskLeases taskId w.state).Reached now taskId ((Ending.complete req).lookups k t))) := by
  unfold Tasks.completeTask
  refine endsOn_requireTask (fun u w₁ hu hsame₁ hclock₁ => ?_)
  obtain rfl : u = t := Option.some.inj (hu.symm.trans hget)
  have hstart := fun n => (seesFrom_start k taskId hclock n).of_state_eq
    hsame₁ hclock₁
  rw [← hsame₁] at hget
  split
  · exact settles_error _ w₁
  rename_i hclosed
  by_cases hrequested : u.status = .cancelRequested
  · -- the worker acknowledges a cancellation
    have hlookups : (Ending.complete req).lookups k u = some 1 := if_pos hrequested
    rw [hlookups]
    refine Sees.endsOn_revokeLeaseOf (hstart 1) (fun w₂ h₂ _ => ?_)
    rw [if_pos hrequested]
    refine wp_perform.mpr ⟨trivial, fun _ w₃ hstep => ?_⟩
    have hspares : SparesLeases taskId (k.board w₂.state)
      (.setTaskStatus taskId .cancelled "cancelled") := trivial
    exact SeesFrom.settles (h₂.spare hspares hstep) rfl _
  have hopen := not_isTerminal_of_not_isClosed hclosed hrequested
  have hlookups : (Ending.complete req).lookups k u =
      if ReviewerGate.reviewerCompletionVeto u (req.bind CompleteTaskRequest.result) = none
        then some 1
      else if k ≠ .memory then none
      else if u.attempts < taskRetryLimit then some 3
      else some 2 := if_neg hrequested
  rw [hlookups]
  cases hveto : ReviewerGate.reviewerCompletionVeto u (req.bind CompleteTaskRequest.result) with
  | none =>
      rw [if_pos rfl]
      refine Sees.endsOn_revokeLeaseOf (hstart 1) (fun w₂ h₂ htasks₂ => ?_)
      rw [if_neg hrequested]
      refine endsOn_recordResult h₂ (htasks₂ ▸ hget) (fun stored w₃ t' h₃ hget₃ _ _ => ?_)
      simp only [hveto]
      exact endsOn_closeCompleted h₃ hget₃ stored
  | some veto =>
      rw [if_neg (Option.some_ne_none veto)]
      cases k with
      | memory =>
          have hreached : (if u.attempts < taskRetryLimit then some 3 else some 2) =
              some ((if u.attempts < taskRetryLimit then 1 else 0) + 1 + 1) := by
            split <;> rfl
          rw [if_neg (not_not.mpr rfl), hreached]
          have hstart₃ := hstart ((if u.attempts < taskRetryLimit then 1 else 0) + 1 + 1)
          refine Sees.endsOn_revokeLeaseOf hstart₃ (fun w₂ h₂ htasks₂ => ?_)
          rw [if_neg hrequested]
          refine endsOn_recordResult h₂ (htasks₂ ▸ hget)
            (fun stored w₃ t' h₃ hget₃ hstatus hattempts => ?_)
          simp only [hveto]
          rw [← hattempts] at h₃
          refine endsOn_refuseCompletion h₃ hget₃ (fun w₄ r w₅ h₄ hget₄ hstep => ?_)
          have h₅ := sees_requeue_memory (n := 0) hget₄ (hstatus ▸ hopen) h₄ hstep
          rw [ite_self] at h₅
          rw [← hattempts]
          exact h₅
      | sql d =>
          rw [if_pos Backend.noConfusion]
          refine Sees.endsOn_revokeLeaseOf (hstart 2) (fun w₂ h₂ htasks₂ => ?_)
          rw [if_neg hrequested]
          refine endsOn_recordResult h₂ (htasks₂ ▸ hget) (fun stored w₃ t' h₃ hget₃ _ _ => ?_)
          simp only [hveto]
          refine endsOn_refuseCompletion h₃ hget₃ (fun w₄ r w₅ h₄ _ hstep => ?_)
          exact sees_requeue_sql h₄ hstep 0

/-- `fail_task`. -/
theorem endsOn_failTask (hclock : ∀ i, w.clock i ≤ now)
    (hget : (k.board w.state).tasks.get? taskId = some t) (req : Option FailTaskRequest) :
    EndsOn k (Tasks.failTask taskId req) w (Settles k taskId now (k.board w.state)
      ((k.taskLeases taskId w.state).Reached now taskId ((Ending.fail req).lookups k t))) := by
  unfold Tasks.failTask
  refine endsOn_requireTask (fun u w₁ hu hsame₁ hclock₁ => ?_)
  obtain rfl : u = t := Option.some.inj (hu.symm.trans hget)
  have hstart := fun n => (seesFrom_start k taskId hclock n).of_state_eq
    hsame₁ hclock₁
  rw [← hsame₁] at hget
  dsimp only
  split
  · exact settles_error _ w₁
  split
  · exact settles_error _ w₁
  rename_i hclosed
  by_cases hrequested : u.status = .cancelRequested
  · -- the worker acknowledges a cancellation; nothing is revoked
    have hlookups : (Ending.fail req).lookups k u = some 0 := if_pos hrequested
    rw [hlookups, if_pos hrequested]
    refine wp_perform.mpr ⟨trivial, fun _ w₂ hstep => ?_⟩
    have hspares : ∀ reason, SparesLeases taskId (k.board w₁.state)
      (.setTaskStatus taskId .cancelled reason) := fun _ => trivial
    exact SeesFrom.settles ((hstart 0).spare (hspares _) hstep) rfl _
  have hopen := not_isTerminal_of_not_isClosed hclosed hrequested
  have hlookups : (Ending.fail req).lookups k u =
      if (req.map FailTaskRequest.requeue).getD false = true ∧ k ≠ .memory then none
      else some 1 := if_neg hrequested
  rw [hlookups, if_neg hrequested]
  by_cases hrequeue : (req.map FailTaskRequest.requeue).getD false = true
  · rw [if_pos hrequeue]
    cases k with
    | memory =>
        rw [if_neg (fun hsql => hsql.2 rfl)]
        refine endsOn_requeue (m := 1) rfl (fun r w₂ hstep => ?_) (fun w₂ hstep h₂ => ?_)
        · refine sees_requeue_memory hget hopen ?_ hstep
          rw [ite_self]
          exact hstart 1
        · have hsame : (Backend.memory.board w₂.state).tasks =
              (Backend.memory.board w₁.state).tasks := (hstep.contract.reply rfl).1
          exact h₂.endsOn_consumeFailure (hsame ▸ hget) _
    | sql d =>
        rw [if_pos ⟨hrequeue, Backend.noConfusion⟩]
        refine endsOn_requeue (m := 1) rfl (fun r w₂ hstep => ?_) (fun w₂ hstep h₂ => ?_)
        · exact sees_requeue_sql (hstart 1) hstep _
        · have hsame : ((Backend.sql d).board w₂.state).tasks =
              ((Backend.sql d).board w₁.state).tasks := (hstep.contract.reply rfl).1
          exact h₂.endsOn_consumeFailure (hsame ▸ hget) _
  · rw [if_neg hrequeue, if_neg (fun hsql => hrequeue hsql.1)]
    exact SeesFrom.endsOn_consumeFailure (hstart 1) hget _

/-- `cancel_task`. -/
theorem endsOn_cancelTask (hclock : ∀ i, w.clock i ≤ now)
    (hget : (k.board w.state).tasks.get? taskId = some t) (req : Option CancelTaskRequest) :
    EndsOn k (Tasks.cancelTask taskId req) w (Settles k taskId now (k.board w.state)
      ((k.taskLeases taskId w.state).Covered now taskId 1)) := by
  unfold Tasks.cancelTask
  refine endsOn_requireTask (fun u w₁ hu hsame₁ hclock₁ => ?_)
  have h₁ := (seesFrom_start k taskId hclock 1).of_state_eq hsame₁ hclock₁
  rw [← hsame₁] at hget
  dsimp only
  split
  · exact settles_error _ w₁
  have hclosing : ∀ {w₂ : Timed k.Store} {requeue : Bool} {status : TaskStatus}
      {reason why : String} {reply : Reply},
      SeesFrom k taskId now (k.board w.state) ((k.taskLeases taskId w.state).Covered now taskId 1)
        0 w₂ →
      (k.board w₂.state).tasks.get? taskId = some t → status.IsTerminal →
      EndsOn k (do
          let _ ← store (.setTaskCancelRequeue taskId requeue)
          let _ ← store (.setTaskStatus taskId status reason)
          let _ ← Tasks.cascadeCancelDependents taskId why
          pure reply) w₂ (Settles k taskId now (k.board w.state)
        ((k.taskLeases taskId w.state).Covered now taskId 1)) := by
    intro w₂ requeue status reason why reply h₂ hget₂ hstatus
    refine wp_perform.mpr ⟨trivial, fun _ w₃ hstep => ?_⟩
    have hspares : SparesLeases taskId (k.board w₂.state)
      (.setTaskCancelRequeue taskId requeue) := trivial
    obtain ⟨t', hget', -⟩ :=
      hstep.contract.tasks.get?_of_get? (fun _ _ hrow => hrow.id_eq) hget₂
    exact SeesFrom.endsOn_closing (h₂.spare hspares hstep) hget' hstatus reason why
      (fun _ => reply)
  refine endsOn_getByTask (fun w₂ hsame₂ hclock₂ => ?_)
  have h₂ := h₁.of_state_eq hsame₂ hclock₂
  rw [← hsame₂] at hget
  cases hfound : (k.taskLeases taskId w₁.state).found taskId with
  | nil => exact hclosing (h₂.unfound (hsame₂.symm ▸ hfound)) hget (.inr (.inr (.inl rfl)))
  | cons l rest =>
      refine wp_perform.mpr ⟨trivial, fun _ w₃ hstep => ?_⟩
      obtain ⟨h₃, htasks⟩ := h₂.revoke (hsame₂.symm ▸ hfound) hstep
      exact hclosing h₃ (htasks ▸ hget) (.inr (.inr (.inr rfl)))

/-- `block_task`. -/
theorem endsOn_blockTask (hclock : ∀ i, w.clock i ≤ now) (req : BlockTaskRequest) :
    EndsOn k (Tasks.blockTask taskId req) w (Settles k taskId now (k.board w.state)
      ((k.taskLeases taskId w.state).Covered now taskId 1)) := by
  unfold Tasks.blockTask
  refine endsOn_requireTask (fun u w₁ hu hsame₁ hclock₁ => ?_)
  have h₁ := (seesFrom_start k taskId hclock 1).of_state_eq hsame₁ hclock₁
  split
  · exact settles_error _ w₁
  split
  · exact settles_error _ w₁
  refine wp_perform.mpr ⟨trivial, fun reading w₂ hstep₂ => ?_⟩
  have hreads : Reads .utcnow := trivial
  have h₂ := h₁.of_state_eq (state_of_reads hreads hstep₂) (fun i => ⟨i + 1, hstep₂.clock i⟩)
  split
  · exact settles_error _ w₂
  rename_i ballot _
  refine h₂.endsOn_revokeLeaseOf (fun w₃ h₃ _ => ?_)
  refine wp_perform.mpr ⟨trivial, fun _ w₄ hstep₄ => ?_⟩
  have hballot : SparesLeases taskId (k.board w₃.state) (.setTaskBallot taskId (some ballot)) :=
    trivial
  have h₄ := h₃.spare hballot hstep₄
  refine wp_perform.mpr ⟨trivial, fun ok w₅ hstep₅ => ?_⟩
  have hblocked : ∀ reason, SparesLeases taskId (k.board w₄.state)
    (.setTaskStatus taskId .blocked reason) := fun _ => trivial
  have h₅ := h₄.spare (hblocked _) hstep₅
  cases ok with
  | false => exact wp_perform.mpr ⟨trivial, fun _ w₆ _ => settles_error _ w₆⟩
  | true => exact SeesFrom.settles h₅ rfl _

/-- `release_task`; on SQL it raises after the release. -/
theorem endsOn_releaseTask (hclock : ∀ i, w.clock i ≤ now) (req : ReleaseTaskRequest) :
    EndsOn k (Tasks.releaseTask taskId req) w (Settles k taskId now (k.board w.state)
      ((k.taskLeases taskId w.state).Covered now taskId 1)) := by
  unfold Tasks.releaseTask
  refine endsOn_requireTask (fun u w₁ hu hsame₁ hclock₁ => ?_)
  have h₁ := (seesFrom_start k taskId hclock 1).of_state_eq hsame₁ hclock₁
  split
  · exact settles_error _ w₁
  refine h₁.endsOn_revokeLeaseOf (fun w₂ h₂ _ => ?_)
  refine wp_perform.mpr ⟨trivial, fun transitioned w₃ hstep₃ => ?_⟩
  have hready : SparesLeases taskId (k.board w₂.state) (.setTaskStatus taskId .ready "") := trivial
  have h₃ := h₂.spare hready hstep₃
  split
  · exact settles_error _ w₃
  unfold Tasks.writeTaskRow
  rw [bind_assoc]
  refine wp_perform.mpr ⟨trivial, fun r w₄ hstep₄ => ?_⟩
  have hrow : SparesLeases taskId (k.board w₃.state) (.writeTaskRow taskId none req.reason) :=
    trivial
  have h₄ := h₃.spare hrow hstep₄
  cases r with
  | error e => exact settles_error _ w₄
  | ok =>
      refine wp_perform.mpr ⟨trivial, fun released w₅ hstep₅ => ?_⟩
      have hreads : Reads (.getTask taskId) := trivial
      exact SeesFrom.settles h₄ (by rw [state_of_reads hreads hstep₅]) _

theorem endsOn_prog (hclock : ∀ i, w.clock i ≤ now)
    (hget : (k.board w.state).tasks.get? taskId = some t) (c : Ending) :
    EndsOn k (c.prog taskId) w (Settles k taskId now (k.board w.state)
      ((k.taskLeases taskId w.state).Reached now taskId (c.lookups k t))) := by
  cases c with
  | complete req => exact endsOn_completeTask hclock hget req
  | fail req => exact endsOn_failTask hclock hget req
  | cancel req => exact endsOn_cancelTask hclock hget req
  | block req => exact endsOn_blockTask hclock req
  | release req => exact endsOn_releaseTask hclock req

/-- Without the task, every call is answered with 404. -/
theorem run_of_absent (habsent : (k.board w.state).tasks.get? taskId = none) (c : Ending) :
    ((c.prog taskId).run k.tick w).1 = .error (.http 404 "task not found") := by
  have hreply : (k.tick (.getTask taskId) w).1 = none := by
    rw [← habsent]
    cases k <;> rfl
  have hrun : ∀ f : Task → Api Reply, ((Tasks.requireTask taskId >>= f).run k.tick w).1 =
      .error (.http 404 "task not found") := by
    intro f
    rw [Tasks.requireTask, bind_assoc]
    have hcall : ∀ g : Option Task → Api Reply, (store (.getTask taskId) >>= g).run k.tick w =
        (g (k.tick (.getTask taskId) w).1).run k.tick (k.tick (.getTask taskId) w).2 :=
      fun _ => rfl
    rw [hcall, hreply]
    rfl
  cases c <;> exact hrun _

/-- On any store, after a successful `complete`, `fail`, `cancel`, `block` or
`release`, no lease of the task is live, exactly if the lookups of the call reach
every lease of the task that is live. -/
theorem leasesEnded_iff (k : Backend) (c : Ending) (taskId : String) (w : Timed k.Store)
    (now : Nat) (hclock : ∀ i, w.clock i ≤ now) (reply : Reply)
    (hok : ((c.prog taskId).run k.tick w).1 = .ok reply) :
    LeasesEnded now taskId (k.board w.state) (k.board ((c.prog taskId).run k.tick w).2.state)
        reply ↔
      ∃ t, (k.board w.state).tasks.get? taskId = some t ∧
        (k.taskLeases taskId w.state).Reached now taskId (c.lookups k t) := by
  cases hget : (k.board w.state).tasks.get? taskId with
  | none =>
      rw [run_of_absent hget] at hok
      cases hok
  | some t =>
      have hsettles := (along_of_wp k.implements_does (endsOn_prog hclock hget c)).2 reply hok
      refine hsettles.trans ⟨fun hreached => ⟨t, rfl, hreached⟩, ?_⟩
      rintro ⟨u, hu, hreached⟩
      rwa [Option.some.inj hu]

end Handlers

section Example

local instance asciiLeases : Unicode := Unicode.ascii

/-- A SQL store with one node that is online. -/
def oneWorker : Timed ClusterStore :=
  ⟨(ClusterStore.empty.step .sqlite 0 (.registerNode { id := "n" })).2, fun _ => 0⟩

/-- A task is given to the node. -/
def leasedOnce : List TimedCall :=
  [⟨.createBatch [{ taskId := "t", title := "t" }], fun _ => 0⟩, ⟨.schedulePass, fun _ => 1⟩]

/-- Its lease lapses, and an operator advances it. -/
def leasedTwice : List TimedCall :=
  leasedOnce ++ [⟨.advance "t", fun _ => leaseTtl + 1⟩]

/-- The store after some calls, with the clock at a time. -/
def storeAt (cs : List TimedCall) (now : Nat) : Timed ClusterStore :=
  ⟨((Backend.sql .sqlite).runCalls cs oneWorker).state, fun _ => now⟩

def completionReply : Reply := { status := some "completed", resultStored := some false }

/-- With one lease its lookup reaches all. -/
theorem leasesEnded_iff_leasedOnce :
    LeasesEnded 2 "t" (storeAt leasedOnce 2).state.toBoard
      (((Ending.complete none).prog "t").run (Backend.sql .sqlite).tick
        (storeAt leasedOnce 2)).2.state.toBoard completionReply := by
  have hcovered : ((Backend.sql .sqlite).taskLeases "t" (storeAt leasedOnce 2).state).Covered
      2 "t" 1 := by decide
  refine (leasesEnded_iff (.sql .sqlite) (.complete none) "t" (storeAt leasedOnce 2) 2
    (fun _ => Nat.le_refl 2) completionReply (by rfl)).mpr ⟨_, rfl, ?_⟩
  exact hcovered

/-- The lapsed lease is found, and the live one stays. -/
theorem leasesEnded_leasedTwice :
    (((Ending.complete none).prog "t").run (Backend.sql .sqlite).tick
        (storeAt leasedTwice (leaseTtl + 2))).1 = .ok completionReply ∧
      ¬LeasesEnded (leaseTtl + 2) "t" (storeAt leasedTwice (leaseTtl + 2)).state.toBoard
        (((Ending.complete none).prog "t").run (Backend.sql .sqlite).tick
          (storeAt leasedTwice (leaseTtl + 2))).2.state.toBoard completionReply :=
  ⟨rfl, by decide⟩

end Example

end HermesCluster
