import HermesCluster.Routers.LeaseEnds
/-!
# Claims and releases that end in an error

`claim_task` and `release_task` write to the store more than once, and an error
can follow each write but the last: an attribute that only the in-memory store
has, an id the lease manager refuses, a status the task may not leave. Nothing
takes the earlier writes back.
-/

namespace HermesCluster

open Program hiding pure bind

/-- The calls by which a worker takes a task and hands it back. -/
inductive WorkerCall where
  | claim (req : ClaimTaskRequest)
  | release (req : ReleaseTaskRequest)

def WorkerCall.prog [Unicode] (taskId : String) : WorkerCall → Api Reply
  | claim req => Tasks.claimTask taskId req
  | release req => Tasks.releaseTask taskId req

/-- The call answers with the task. -/
def AnswersTask : Except ApiError Reply → Prop
  | .ok reply => reply.task.isSome
  | .error _ => False

instance (r : Except ApiError Reply) : Decidable (AnswersTask r) :=
  match r with
  | .ok reply => inferInstanceAs (Decidable (reply.task.isSome = true))
  | .error _ => inferInstanceAs (Decidable False)

/-- The row of the task and its leases are as they were. -/
def TaskKept (taskId : String) (b b' : Board) : Prop :=
  b'.tasks.get? taskId = b.tasks.get? taskId ∧ leasesOf b' taskId = leasesOf b taskId

instance (taskId : String) (b b' : Board) : Decidable (TaskKept taskId b b') :=
  inferInstanceAs (Decidable (_ ∧ _))

/-- An error leaves the task and its leases alone. -/
def AllOrNothing (k : Backend) (taskId : String) (w : Timed k.Store) (r : Except ApiError Reply)
    (w' : Timed k.Store) : Prop :=
  AnswersTask r ∨ TaskKept taskId (k.board w.state) (k.board w'.state)

/-- No error can follow a write: a claim of a free task is made on memory, with
two ids the lease manager takes, and so is a release by the holder, of a task
that is still open or has no lease to find. -/
def WorkerCall.Safe (k : Backend) (taskId : String) (s : k.Store) : WorkerCall → Prop
  | claim req => ∀ t, (k.board s).tasks.get? taskId = some t → t.status = .ready →
      t.assignedTo = none → k = .memory ∧ taskId ≠ "" ∧ req.nodeId ≠ ""
  | release req => ∀ t, (k.board s).tasks.get? taskId = some t → t.assignedTo = some req.nodeId →
      k = .memory ∧ (t.status.IsTerminal → (k.taskLeases taskId s).found taskId = [])

section Rows

theorem Table.get?_modify_of_get? {α κ : Type} [DecidableEq κ] [HasKey α κ] {t : Table α}
    {key : κ} {a : α} (h : t.get? key = some a) (f : α → α) (hf : Table.KeepsKey f) :
    (t.modify key f hf).get? key = some (f a) := by
  rw [Table.get?_modify_self, h]
  rfl

variable {k : Backend} {taskId : String} {w w' : Timed k.Store} {r : Except ApiError Reply}

theorem TaskKept.of_state_eq (h : w'.state = w.state) :
    TaskKept taskId (k.board w.state) (k.board w'.state) := by
  rw [h]
  exact ⟨rfl, rfl⟩

theorem not_taskKept_of_version {b b' : Board} {t t' : Task}
    (hget : b.tasks.get? taskId = some t) (hget' : b'.tasks.get? taskId = some t')
    (hversion : t.version < t'.version) : ¬TaskKept taskId b b' := by
  rintro ⟨hrow, -⟩
  rw [hget, hget'] at hrow
  exact absurd (congrArg Task.version (Option.some.inj hrow)) (ne_of_gt hversion)

theorem not_allOrNothing {e : ApiError}
    (h : ¬TaskKept taskId (k.board w.state) (k.board w'.state)) :
    ¬AllOrNothing k taskId w (.error e) w' := by
  rintro (hanswers | hsame)
  · exact hanswers
  · exact h hsame

/-- What is revoked is no longer among the active leases. -/
theorem TaskLeases.rows_revokeFirst_eq_iff {h : TaskLeases} :
    (h.revokeFirst taskId).rows = h.rows ↔ h.found taskId = [] := by
  unfold TaskLeases.revokeFirst
  cases hfound : h.found taskId with
  | nil => exact ⟨fun _ => rfl, fun _ => rfl⟩
  | cons l rest =>
      refine ⟨fun hrows => ?_, fun hnil => by cases hnil⟩
      have hfirst : l ∈ h.found taskId := hfound ▸ List.mem_cons_self
      obtain ⟨hmem, hactive⟩ := TaskLeases.mem_rows_of_mem_found hfirst
      have hrevoked : (if l.id = l.id then l.revoke else l) = l :=
        List.map_inj_left.mp (hrows.trans (List.map_id _).symm) l hmem
      rw [if_pos rfl] at hrevoked
      have hstatus : LeaseStatus.revoked = l.status := congrArg Lease.status hrevoked
      rw [hactive] at hstatus
      cases hstatus

end Rows

section Steps

variable [Unicode] {k : Backend} {taskId : String} {w w' : Timed k.Store} {t : Task}

/-- A status write goes through, unless memory refuses to reopen the task. -/
theorem does_setTaskStatus {status : TaskStatus} {reason : String} {r : Bool}
    (hget : (k.board w.state).tasks.get? taskId = some t)
    (hstep : k.Does (.setTaskStatus taskId status reason) w r w') :
    (k = .memory ∧ ClusterState.Refuses t.status status ∧ r = false ∧ w'.state = w.state) ∨
      (¬(k = .memory ∧ ClusterState.Refuses t.status status) ∧ r = true ∧
        (k.board w'.state).tasks.get? taskId = some (t.withStatus (w.clock 0) status reason) ∧
        (k.board w'.state).leases = (k.board w.state).leases) := by
  obtain ⟨rfl, rfl⟩ := hstep
  cases k with
  | memory =>
      have hrow : w.state.tasks.get? taskId = some t := hget
      have hwrite : w.state.setTaskStatus (w.clock 0) taskId status reason =
          if ClusterState.Refuses t.status status then (false, w.state)
          else (true, w.state.modifyTask taskId
            (Task.withStatus (w.clock 0) status reason) (fun _ => rfl)) := by
        rw [ClusterState.setTaskStatus, hrow]
      by_cases hrefuses : ClusterState.Refuses t.status status
      · rw [if_pos hrefuses] at hwrite
        exact .inl ⟨rfl, hrefuses, congrArg Prod.fst hwrite, congrArg Prod.snd hwrite⟩
      · rw [if_neg hrefuses] at hwrite
        refine .inr ⟨fun h => hrefuses h.2, congrArg Prod.fst hwrite, ?_, ?_⟩
        · exact (congrArg (fun p => p.2.tasks.get? taskId) hwrite).trans
            (Table.get?_modify_of_get? hrow (Task.withStatus _ status reason) (fun _ => rfl))
        · exact (congrArg (fun p => p.2.leases) hwrite :)
  | sql d =>
      have hrow : w.state.tasks.get? taskId = some t := hget
      have hwrite : w.state.setTaskStatus (w.clock 0) taskId status reason =
          (true, { w.state with
            tasks := w.state.tasks.modify taskId
              (Task.withStatus (w.clock 0) status reason) (fun _ => rfl) }) :=
        ClusterStore.updateHit_of_get? hrow
      refine .inr ⟨fun h => Backend.noConfusion h.1, congrArg Prod.fst hwrite, ?_, ?_⟩
      · exact (congrArg (fun p => p.2.tasks.get? taskId) hwrite).trans
          (Table.get?_modify_of_get? hrow (Task.withStatus _ status reason) (fun _ => rfl))
      · exact (congrArg (fun p => p.2.leases) hwrite :)

/-- The attribute is there on memory alone. -/
theorem does_writeTaskRow {assignedTo reason : Option String} {r : Except String Unit}
    (hget : (k.board w.state).tasks.get? taskId = some t)
    (hstep : k.Does (.writeTaskRow taskId assignedTo reason) w r w') :
    (k = .memory ∧ r = .ok () ∧ (k.board w'.state).tasks.get? taskId =
        some (t.writeRow (w.clock 0) assignedTo reason)) ∨
      (k ≠ .memory ∧ r = .error "AttributeError" ∧ w'.state = w.state) := by
  obtain ⟨rfl, rfl⟩ := hstep
  cases k with
  | memory =>
      have hrow : w.state.tasks.get? taskId = some t := hget
      have hwrite : w.state.writeTaskRow (w.clock 0) taskId assignedTo reason =
          (.ok (), w.state.modifyTask taskId
            (Task.writeRow (w.clock 0) assignedTo reason) (fun _ => rfl)) := by
        rw [ClusterState.writeTaskRow, hrow]
      refine .inl ⟨rfl, congrArg Prod.fst hwrite, ?_⟩
      exact (congrArg (fun p => p.2.tasks.get? taskId) hwrite).trans
        (Table.get?_modify_of_get? hrow (Task.writeRow _ assignedTo reason) (fun _ => rfl))
  | sql d => exact .inr ⟨Backend.noConfusion, rfl, rfl⟩

theorem endsOn_requireTask_or {f : Task → Api Reply}
    {Q : Except ApiError Reply → Timed k.Store → Prop}
    (hnone : (k.board w.state).tasks.get? taskId = none → ∀ r w', w'.state = w.state → Q r w')
    (hsome : ∀ t w', (k.board w.state).tasks.get? taskId = some t → w'.state = w.state →
      EndsOn k (f t) w' Q) :
    EndsOn k (Tasks.requireTask taskId >>= f) w Q := by
  rw [Tasks.requireTask, bind_assoc]
  refine wp_perform.mpr ⟨trivial, fun found w' hstep => ?_⟩
  have hreads : Reads (.getTask taskId) := trivial
  have hsame := state_of_reads hreads hstep
  have hreply : found = (k.board w.state).tasks.get? taskId := hstep.contract.reply.1
  cases found with
  | none => exact hnone hreply.symm _ w' hsame
  | some t => exact hsome t w' hreply.symm hsame

/-- `claim_task`. -/
theorem endsOn_claimTask (req : ClaimTaskRequest) :
    EndsOn k (Tasks.claimTask taskId req) w (fun r w' =>
      AllOrNothing k taskId w r w' ↔ (WorkerCall.claim req).Safe k taskId w.state) := by
  unfold Tasks.claimTask
  refine endsOn_requireTask_or (fun hnone r w₁ hsame => ?_) (fun t w₁ hget hsame => ?_)
  · refine iff_of_true (.inr (.of_state_eq hsame)) (fun t hget => ?_)
    rw [hnone] at hget
    cases hget
  have hrow : ∀ u, (k.board w.state).tasks.get? taskId = some u → u = t :=
    fun u hu => Option.some.inj (hu.symm.trans hget)
  have hkeep : ∀ r, AllOrNothing k taskId w r w₁ := fun _ => .inr (.of_state_eq hsame)
  by_cases hready : t.status = .ready
  swap
  · rw [if_pos hready]
    exact iff_of_true (hkeep _) (fun u hu hstatus => absurd (hrow u hu ▸ hstatus) hready)
  by_cases hfree : t.assignedTo = none
  swap
  · rw [if_neg (not_not.mpr hready), if_pos hfree]
    exact iff_of_true (hkeep _) (fun u hu _ hassigned => absurd (hrow u hu ▸ hassigned) hfree)
  rw [if_neg (not_not.mpr hready), if_neg (not_not.mpr hfree)]
  have hsafe : (WorkerCall.claim req).Safe k taskId w.state ↔
      k = .memory ∧ taskId ≠ "" ∧ req.nodeId ≠ "" :=
    ⟨fun h => h t hget hready hfree, fun h _ _ _ _ => h⟩
  rw [hsafe]
  have hget₁ : (k.board w₁.state).tasks.get? taskId = some t := by
    rw [hsame, hget]
  refine wp_perform.mpr ⟨trivial, fun r₂ w₂ hstep₂ => ?_⟩
  obtain ⟨-, hrefuses, -⟩ | ⟨-, -, hget₂, -⟩ := does_setTaskStatus hget₁ hstep₂
  · rw [hready] at hrefuses
    rcases hrefuses.1 with h | h | h | h <;> cases h
  rw [Tasks.writeTaskRow, bind_assoc]
  refine wp_perform.mpr ⟨trivial, fun r₃ w₃ hstep₃ => ?_⟩
  obtain ⟨rfl, rfl, hget₃⟩ | ⟨hsql, rfl, hsame₃⟩ := does_writeTaskRow hget₂ hstep₃
  · -- the row is set; the lease manager may still refuse
    have hchanged : ¬TaskKept taskId (Backend.memory.board w.state)
        (Backend.memory.board w₃.state) :=
      not_taskKept_of_version hget hget₃ ((Int.lt_succ t.version).trans (Int.lt_succ _))
    unfold LeaseManager.create
    split_ifs with htask hnode
    · exact iff_of_false (not_allOrNothing hchanged) (fun h => h.2.1 htask)
    · exact iff_of_false (not_allOrNothing hchanged) (fun h => h.2.2 hnode)
    refine wp_perform.mpr ⟨trivial, fun lease w₄ hstep₄ => ?_⟩
    have htasks : (Backend.memory.board w₄.state).tasks = (Backend.memory.board w₃.state).tasks :=
      hstep₄.contract.reply
    refine wp_perform.mpr ⟨trivial, fun claimed w₅ hstep₅ => ?_⟩
    have hclaimed : claimed = (Backend.memory.board w₄.state).tasks.get? taskId :=
      hstep₅.contract.reply.1
    rw [htasks, hget₃] at hclaimed
    refine iff_of_true (.inl ?_) ⟨rfl, htask, hnode⟩
    rw [hclaimed]
    rfl
  · refine iff_of_false (not_allOrNothing ?_) (fun h => hsql h.1)
    exact not_taskKept_of_version hget (hsame₃ ▸ hget₂) (Int.lt_succ t.version)

/-- A lookup that finds a lease revokes it. -/
theorem endsOn_revokeLeaseOf_iff {f : Unit → Api Reply}
    {Q : Except ApiError Reply → Timed k.Store → Prop}
    (hf : ∀ w', (k.board w'.state).tasks = (k.board w.state).tasks →
      (leasesOf (k.board w'.state) taskId = leasesOf (k.board w.state) taskId ↔
        (k.taskLeases taskId w.state).found taskId = []) → EndsOn k (f ()) w' Q) :
    EndsOn k (Tasks.revokeLeaseOf taskId >>= f) w Q := by
  rw [Tasks.revokeLeaseOf, bind_assoc]
  refine endsOn_getByTask (fun w₁ hsame _ => ?_)
  cases hfound : (k.taskLeases taskId w.state).found taskId with
  | nil =>
      refine hf w₁ (by rw [hsame]) ?_
      rw [hsame]
      exact iff_of_true rfl hfound
  | cons l rest =>
      refine wp_perform.mpr ⟨trivial, fun r w₂ hstep => ?_⟩
      have htasks : (k.board w₂.state).tasks = (k.board w₁.state).tasks :=
        (congrArg Board.tasks hstep.contract.reply :)
      have hrevoked : k.taskLeases taskId w₂.state =
          (k.taskLeases taskId w₁.state).revokeFirst taskId := by
        rw [hstep.2]
        exact k.taskLeases_revokeLease _ (hsame.symm ▸ hfound)
      refine hf w₂ (by rw [htasks, hsame]) ?_
      rw [← k.rows_taskLeases, ← k.rows_taskLeases, hrevoked, hsame]
      exact TaskLeases.rows_revokeFirst_eq_iff

/-- `release_task`. -/
theorem endsOn_releaseTask_iff (req : ReleaseTaskRequest) :
    EndsOn k (Tasks.releaseTask taskId req) w (fun r w' =>
      AllOrNothing k taskId w r w' ↔ (WorkerCall.release req).Safe k taskId w.state) := by
  unfold Tasks.releaseTask
  refine endsOn_requireTask_or (fun hnone r w₁ hsame => ?_) (fun t w₁ hget hsame => ?_)
  · refine iff_of_true (.inr (.of_state_eq hsame)) (fun t hget => ?_)
    rw [hnone] at hget
    cases hget
  have hrow : ∀ u, (k.board w.state).tasks.get? taskId = some u → u = t :=
    fun u hu => Option.some.inj (hu.symm.trans hget)
  by_cases hholder : t.assignedTo = some req.nodeId
  swap
  · rw [if_pos hholder]
    refine iff_of_true (.inr (.of_state_eq hsame)) (fun u hu hassigned => ?_)
    exact absurd (hrow u hu ▸ hassigned) hholder
  rw [if_neg (not_not.mpr hholder)]
  have hsafe : (WorkerCall.release req).Safe k taskId w.state ↔ k = .memory ∧
      (t.status.IsTerminal → (k.taskLeases taskId w.state).found taskId = []) :=
    ⟨fun h => h t hget hholder, fun h u hu _ => (hrow u hu).symm ▸ h⟩
  rw [hsafe]
  refine endsOn_revokeLeaseOf_iff (fun w₂ htasks hleases => ?_)
  rw [hsame] at htasks hleases
  have hget₂ : (k.board w₂.state).tasks.get? taskId = some t := by
    rw [htasks, hget]
  refine wp_perform.mpr ⟨trivial, fun r₃ w₃ hstep₃ => ?_⟩
  obtain ⟨rfl, hrefuses, rfl, hsame₃⟩ | ⟨hgoes, rfl, hget₃, -⟩ := does_setTaskStatus hget₂ hstep₃
  · -- the task has ended: nothing but the lease can be gone
    have hanswer : AllOrNothing .memory taskId w (.error (.http 409 ("task is terminal (status=" ++
        t.status.value ++ "), cannot release to ready"))) w₃ ↔
        leasesOf (Backend.memory.board w₂.state) taskId =
          leasesOf (Backend.memory.board w.state) taskId := by
      unfold AllOrNothing TaskKept
      rw [hsame₃, htasks]
      exact ⟨fun h => h.elim False.elim And.right, fun h => .inr ⟨rfl, h⟩⟩
    refine hanswer.trans (hleases.trans ?_)
    exact ⟨fun h => ⟨rfl, fun _ => h⟩, fun h => h.2 hrefuses.1⟩
  rw [if_neg (Bool.noConfusion : ¬true = false), Tasks.writeTaskRow, Program.bind_assoc]
  refine wp_perform.mpr ⟨trivial, fun r₄ w₄ hstep₄ => ?_⟩
  obtain ⟨rfl, rfl, hget₄⟩ | ⟨hsql, rfl, hsame₄⟩ := does_writeTaskRow hget₃ hstep₄
  · refine wp_perform.mpr ⟨trivial, fun released w₅ hstep₅ => ?_⟩
    have hreleased : released = (Backend.memory.board w₄.state).tasks.get? taskId :=
      hstep₅.contract.reply.1
    rw [hget₄] at hreleased
    refine iff_of_true (.inl ?_) ⟨rfl, fun hended => ?_⟩
    · rw [hreleased]
      rfl
    · exact absurd ⟨rfl, hended, fun h => TaskStatus.noConfusion h.2⟩ hgoes
  · refine iff_of_false (not_allOrNothing ?_) (fun h => hsql h.1)
    exact not_taskKept_of_version hget (hsame₄ ▸ hget₃) (Int.lt_succ t.version)

/-- On every store a claim or a release that ends in an error has changed
neither the task nor its leases, exactly if no error can follow a write. -/
theorem allOrNothing_iff (k : Backend) (taskId : String) (c : WorkerCall) (w : Timed k.Store) :
    AllOrNothing k taskId w ((c.prog taskId).run k.tick w).1 ((c.prog taskId).run k.tick w).2 ↔
      c.Safe k taskId w.state := by
  cases c with
  | claim req => exact (along_of_wp k.implements_does (endsOn_claimTask req)).2
  | release req => exact (along_of_wp k.implements_does (endsOn_releaseTask_iff req)).2

end Steps

section Example

local instance asciiWorkerCalls : Unicode := Unicode.ascii

/-- A task that waits for a worker. -/
def waitingTask (k : Backend) : Timed k.Store :=
  k.runCalls [⟨.createBatch [{ taskId := "t", title := "t" }], fun _ => 0⟩] ⟨k.empty, fun _ => 0⟩

/-- On SQL the claim is answered with an error, and the task is running without
a lease; on memory so it is for a worker with the empty id. -/
theorem claim_leaves_running :
    (¬AllOrNothing (.sql .sqlite) "t" (waitingTask _)
        (((WorkerCall.claim { nodeId := "n" }).prog "t").run
          (Backend.sql .sqlite).tick (waitingTask _)).1
        (((WorkerCall.claim { nodeId := "n" }).prog "t").run
          (Backend.sql .sqlite).tick (waitingTask _)).2) ∧
      ¬AllOrNothing .memory "t" (waitingTask _)
        (((WorkerCall.claim { nodeId := "" }).prog "t").run
          Backend.memory.tick (waitingTask _)).1
        (((WorkerCall.claim { nodeId := "" }).prog "t").run
          Backend.memory.tick (waitingTask _)).2 := by
  unfold AllOrNothing
  decide

end Example

end HermesCluster
