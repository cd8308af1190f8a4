import HermesCluster.Routers.Footprint
import HermesCluster.State.Terminality
/-!
# The retry cap

A failed delivery that asks for another attempt, and a refused completion of a
review, put the task back to ready as long as its counter is under the limit.
Nothing else writes the counter, so it is the number of times that happened.
-/

namespace HermesCluster

open Program hiding pure bind

/-- The counter of a task; 0 while there is no such task. -/
def attemptsOf (tasks : Table Task) (taskId : String) : Nat :=
  ((tasks.get? taskId).map Task.attempts).getD 0

/-- The task is stored and has failed. -/
def HasFailed (tasks : Table Task) (taskId : String) : Prop :=
  ∃ t, tasks.get? taskId = some t ∧ t.status = .failed

/-! ## One operation -/

/-- Neither another attempt at a task, nor a new row. -/
def Uncounted : StoreOp → Prop
  | .requeueTask _ _ | .createTask _ | .createTasksBatch _ | .handleSyncMessage _ => False
  | _ => True

/-- What such operations leave alone: the counters, and on a store with a guard
the tasks that have failed. -/
structure Untried (k : Backend) (b b' : Board) : Prop where
  attempts : ∀ taskId, attemptsOf b'.tasks taskId = attemptsOf b.tasks taskId
  failed : k = .memory → ∀ taskId, HasFailed b.tasks taskId → HasFailed b'.tasks taskId

theorem Untried.of_tasks_eq {k : Backend} {b b' : Board} (h : b'.tasks = b.tasks) :
    Untried k b b' := by
  refine ⟨fun taskId => ?_, fun _ taskId hfailed => ?_⟩
  · rw [h]
  · rwa [h]

theorem Untried.trans {k : Backend} {b b' b'' : Board} (h : Untried k b b')
    (h' : Untried k b' b'') : Untried k b b'' :=
  ⟨fun taskId => (h'.attempts taskId).trans (h.attempts taskId),
    fun hk taskId hfailed => h'.failed hk taskId (h.failed hk taskId hfailed)⟩

section Steps

variable [Unicode] {k : Backend} {now : Nat} {b b' : Board} {op : StoreOp} {t t' : Task}

/-- Only another attempt, or a new row in the place of the old one, writes the
counter. -/
theorem Rewrites.attempts_eq (h : Rewrites k now b op t t')
    (hrequeue : ∀ reason, op ≠ .requeueTask t.id reason)
    (hplans : ∀ plan ∈ op.plans, k = .memory → plan.taskId ≠ t.id) :
    t'.attempts = t.attempts := by
  rcases h with rfl | hchange
  · rfl
  cases hchange with
  | requeue hid =>
      subst hid
      exact absurd rfl (hrequeue _)
  | replace hmemory hid => exact absurd hid.symm (hplans _ List.mem_cons_self hmemory)
  | replaceBatch hmemory hplan hid => exact absurd hid.symm (hplans _ hplan hmemory)
  | _ => rfl

omit [Unicode] in
theorem Created.attempts_eq (h : Created k now op t') : t'.attempts = 0 := by
  cases h with
  | _ => rfl

/-- One operation that is no other attempt at the task. -/
theorem attemptsOf_step {taskId : String} (hrequeue : ∀ reason, op ≠ .requeueTask taskId reason)
    (hplans : ∀ plan ∈ op.plans, k = .memory → plan.taskId = taskId →
      b.tasks.get? taskId = none)
    (hevolves : b.tasks.Evolves (Rewrites k now b op) (Created k now op) b'.tasks) :
    attemptsOf b'.tasks taskId = attemptsOf b.tasks taskId := by
  have hkey : ∀ t t', Rewrites k now b op t t' → HasKey.key t' = HasKey.key t :=
    fun _ _ hrow => hrow.id_eq
  unfold attemptsOf
  cases hget' : b'.tasks.get? taskId with
  | none =>
      cases hget : b.tasks.get? taskId with
      | none => rfl
      | some t =>
          obtain ⟨t', ht', -⟩ := hevolves.get?_of_get? hkey hget
          rw [hget'] at ht'
          cases ht'
  | some t' =>
      rcases hevolves.of_get? hkey hget' with ⟨t, hget, hrow⟩ | ⟨hnone, hnew⟩
      · have hid : t.id = taskId := Table.key_of_get? hget
        have hsame : t'.attempts = t.attempts := by
          refine hrow.attempts_eq (fun reason => hid ▸ hrequeue reason) (fun plan hplan hk => ?_)
          rintro heq
          rw [hplans plan hplan hk (heq.trans hid)] at hget
          cases hget
        rw [hget, Option.map_some, Option.map_some, hsame]
      · rw [hnone, Option.map_some, hnew.attempts_eq]
        rfl

/-- On a store with a guard a failed task stays failed, unless its id is used
again. -/
theorem hasFailed_step {taskId : String}
    (hplans : ∀ plan ∈ op.plans, plan.taskId = taskId → b.tasks.get? taskId = none)
    (hevolves : b.tasks.Evolves (Rewrites .memory now b op) (Created .memory now op) b'.tasks)
    (h : HasFailed b.tasks taskId) : HasFailed b'.tasks taskId := by
  obtain ⟨t, hget, hfailed⟩ := h
  have hid : t.id = taskId := Table.key_of_get? hget
  have hunused : ∀ plan ∈ op.plans, t.id ≠ plan.taskId := by
    intro plan hplan heq
    rw [hplans plan hplan (heq.symm.trans hid)] at hget
    cases hget
  obtain ⟨t', hget', hrow⟩ := hevolves.get?_of_get? (fun _ _ hrow => hrow.id_eq) hget
  refine ⟨t', hget', ?_⟩
  rcases hrow with rfl | hchange
  · exact hfailed
  · have hstays : StaysEnded t t' := by
      refine hchange.staysEnded (fun hover => ?_)
      cases op with
      | createTask plan => exact hunused plan List.mem_cons_self hover.2
      | createTasksBatch plans =>
          obtain ⟨-, plan, hplan, heq⟩ := hover
          exact hunused plan hplan heq
      | setTaskStatus => exact hover.1 rfl
      | handleSyncMessage => exact hover rfl
      | _ => exact hover
    rcases hstays (.inr (.inl hfailed)) with heq | ⟨heq, -⟩
    · rw [heq, hfailed]
    · rw [hfailed] at heq
      cases heq

theorem untried_step (hop : Uncounted op)
    (hevolves : b.tasks.Evolves (Rewrites k now b op) (Created k now op) b'.tasks) :
    Untried k b b' := by
  have hplans : op.plans = [] := by cases op <;> first | exact hop.elim | rfl
  refine ⟨fun taskId => attemptsOf_step ?_ (by simp [hplans]) hevolves, ?_⟩
  · rintro reason rfl
    exact hop
  · rintro rfl taskId hfailed
    exact hasFailed_step (by simp [hplans]) hevolves hfailed

end Steps

/-! ## Another attempt -/

section Attempts

variable [Unicode] {k : Backend}

/-- Another attempt is granted to an open task under the limit, and counted. -/
def Grants (now : Nat) : (op : StoreOp) → Board → op.Res → Board → Prop
  | .requeueTask taskId reason, b, r, b' => r = true → ∃ t, b.tasks.get? taskId = some t ∧
      t.attempts < taskRetryLimit ∧ b'.tasks.get? taskId = some (t.requeue now reason)
  | _, _, _, _ => True

theorem Backend.grants (k : Backend) (now : Nat) (op : StoreOp) (s : k.Store) :
    Grants now op (k.board s) (k.step now op s).1 (k.board (k.step now op s).2) := by
  cases op with
  | requeueTask taskId reason =>
      cases k with
      | memory =>
          change Grants now (.requeueTask taskId reason) s.toBoard
            (ClusterState.requeueTask now taskId reason s).1
            (ClusterState.requeueTask now taskId reason s).2.toBoard
          rcases ClusterState.requeueTask_cases now taskId reason s with
            heq | ⟨t, hget, -, hcap, -, htasks⟩
          · rw [heq]
            exact fun h => by cases h
          · refine fun _ => ⟨t, hget, hcap, ?_⟩
            have hrow := s.tasks.get?_modify_self taskId (Task.requeue now reason) (fun _ => rfl)
            rw [← htasks, hget] at hrow
            exact hrow
      | sql d =>
          intro hhit
          obtain ⟨t, ht, hid, hopen, hcap⟩ := ClusterStore.updateHit_true hhit
          have hget : s.tasks.get? taskId = some t := Table.get?_eq_some_iff.mpr ⟨ht, hid⟩
          refine ⟨t, hget, hcap, ?_⟩
          refine (s.tasks.get?_updateWhere taskId _ (Task.requeue now reason)
            (fun _ => rfl)).trans ?_
          rw [hget, Option.map_some, if_pos ⟨hid, hopen, hcap⟩]
  | _ => trivial

/-- The contract, with what becomes of another attempt. -/
def GrantingContract (k : Backend) (op : StoreOp) (w : Timed Board) (r : op.Res)
    (w' : Timed Board) : Prop :=
  Contract k op w r w' ∧ Grants (w.clock 0) op w.state r w'.state

theorem Backend.implements_granting (k : Backend) :
    Program.Implements k.tick k.view (GrantingContract k) :=
  fun op w => ⟨k.implements op w, k.grants _ op w.state⟩

/-- The handler answers that the task was put back. -/
def Requeued (r : Except ApiError Reply) : Prop :=
  (r.toOption.bind Reply.requeued) = some true

instance : DecidablePred Requeued := fun r =>
  inferInstanceAs (Decidable ((r.toOption.bind Reply.requeued) = some true))

/-- What a handler ends with. -/
abbrev Ends (k : Backend) {α : Type} (p : Api α) (w : Timed Board)
    (Q : Except ApiError α → Timed Board → Prop) : Prop :=
  p.Wp (GrantingContract k) (fun _ _ => True) w Q

/-- The counters follow what the handler of `taskId` answers; and where it is
asked for another attempt at an open task beyond the limit, the task has failed
in the end. -/
structure Tried (k : Backend) (taskId : String) (asked : Prop) (w : Timed Board)
    (r : Except ApiError Reply) (w' : Timed Board) : Prop where
  counted : ∀ id, attemptsOf w'.state.tasks id =
    attemptsOf w.state.tasks id + if taskId = id ∧ Requeued r then 1 else 0
  spent : k = .memory → asked → ∀ t, w.state.tasks.get? taskId = some t →
    ¬t.status.IsTerminal → taskRetryLimit ≤ t.attempts → HasFailed w'.state.tasks taskId

omit [Unicode] in
theorem Tried.of_untried {taskId : String} {asked : Prop} {w w' : Timed Board}
    {r : Except ApiError Reply} (h : Untried k w.state w'.state) (hr : ¬Requeued r)
    (hspent : k = .memory → asked → ∀ t, w.state.tasks.get? taskId = some t →
      ¬t.status.IsTerminal → HasFailed w'.state.tasks taskId) : Tried k taskId asked w r w' where
  counted id := by rw [h.attempts id, if_neg (fun hboth => hr hboth.2), Nat.add_zero]
  spent hk hasked t hget hopen _ := hspent hk hasked t hget hopen

omit [Unicode] in
theorem Tried.of_moot {taskId : String} {asked : Prop} {w w' : Timed Board}
    {r : Except ApiError Reply} {t : Task} (hget : w.state.tasks.get? taskId = some t)
    (hmoot : t.status.IsTerminal ∨ ¬asked) (hr : ¬Requeued r)
    (h : Untried k w.state w'.state) : Tried k taskId asked w r w' := by
  refine .of_untried h hr (fun _ hasked u hu hopen => ?_)
  rw [Option.some.inj (hu.symm.trans hget)] at hopen
  rcases hmoot with hended | hunasked
  · exact absurd hended hopen
  · exact absurd hasked hunasked

omit [Unicode] in
theorem Tried.of_absent {taskId : String} {asked : Prop} {w w' : Timed Board}
    {r : Except ApiError Reply} (hnone : w.state.tasks.get? taskId = none)
    (hsame : w'.state = w.state) (hr : ¬Requeued r) : Tried k taskId asked w r w' := by
  refine .of_untried (.of_tasks_eq (congrArg Board.tasks hsame)) hr (fun _ _ t hget => ?_)
  rw [hnone] at hget
  cases hget

omit [Unicode] in
/-- What happens first leaves the counters alone, and the task as it is. -/
theorem Tried.after {taskId : String} {asked : Prop} {w w₁ w' : Timed Board}
    {r : Except ApiError Reply} (hfirst : Untried k w.state w₁.state)
    (hrow : ∀ t, w.state.tasks.get? taskId = some t →
      ∃ t₁, w₁.state.tasks.get? taskId = some t₁ ∧ t₁.status = t.status ∧ t₁.attempts = t.attempts)
    (h : Tried k taskId asked w₁ r w') : Tried k taskId asked w r w' where
  counted id := by rw [h.counted id, hfirst.attempts id]
  spent hk hasked t hget hopen hspent := by
    obtain ⟨t₁, hget₁, hstatus, hattempts⟩ := hrow t hget
    exact h.spent hk hasked t₁ hget₁ (hstatus ▸ hopen) (hattempts ▸ hspent)

omit [Unicode] in
theorem Tried.of_tasks_eq {taskId : String} {asked : Prop} {w w₁ w' : Timed Board}
    {r : Except ApiError Reply} (hsame : w₁.state.tasks = w.state.tasks)
    (h : Tried k taskId asked w₁ r w') : Tried k taskId asked w r w' := by
  refine h.after (.of_tasks_eq hsame) (fun t hget => ⟨t, ?_, rfl, rfl⟩)
  rw [hsame, hget]

omit [Unicode] in
theorem permits_uncounted : Permits (fun _ => True) Uncounted where
  routine {op} hop := by
    cases op <;> first | exact hop.elim | trivial
  status _ := trivial
  unblock _ := trivial

theorem ends_of_only {α : Type} {p : Api α} {w : Timed Board} (h : p.Only Uncounted) :
    Ends k p w (fun _ w' => Untried k w.state w'.state) :=
  h.wp_of_step (R := fun w w' : Timed Board => Untried k w.state w'.state) (fun _ _ _ => trivial)
    (fun _ => .of_tasks_eq rfl) (fun hfirst hrest => hfirst.trans hrest)
    (fun hop hstep => untried_step hop hstep.1.tasks)

/-- A task is failed, and its dependents are cancelled. -/
theorem ends_failing {taskId reason cause : String} {reply : List String → Reply}
    (hreply : ∀ blocked, (reply blocked).requeued = none) (w : Timed Board) :
    Ends k (do
        let _ ← store (.setTaskStatus taskId .failed reason)
        let blocked ← Tasks.cascadeCancelDependents taskId cause
        pure (reply blocked)) w
      (fun r w' => Untried k w.state w'.state ∧ ¬Requeued r ∧
        (k = .memory → ∀ t, w.state.tasks.get? taskId = some t → ¬t.status.IsTerminal →
          HasFailed w'.state.tasks taskId)) := by
  refine wp_perform.mpr ⟨trivial, fun _ w₁ hstep => ?_⟩
  have hwrite : Uncounted (.setTaskStatus taskId .failed reason) := trivial
  have hfirst : Untried k w.state w₁.state := untried_step hwrite hstep.1.tasks
  have hfailed : ∀ t, w.state.tasks.get? taskId = some t → ¬t.status.IsTerminal →
      HasFailed w₁.state.tasks taskId := by
    intro t hget hopen
    exact ⟨_, hstep.1.reply.2 t hget (fun hrefuses => hopen hrefuses.1), rfl⟩
  have hcascade : (Tasks.cascadeCancelDependents taskId cause).Only Uncounted :=
    only_cascadeCancelDependents permits_uncounted.tends taskId cause
      (fun _ _ => ⟨trivial, trivial⟩)
  refine wp_bind.mpr ((ends_of_only hcascade).mono (fun r w₂ hrest => ?_))
  have huntried := hfirst.trans hrest
  cases r with
  | error e =>
      refine ⟨huntried, fun h => (by cases h), fun hk t hget hopen => ?_⟩
      exact hrest.failed hk taskId (hfailed t hget hopen)
  | ok blocked =>
      refine ⟨huntried, fun h => ?_, fun hk t hget hopen => ?_⟩
      · have hnone : some true = none := h.symm.trans (hreply blocked)
        cases hnone
      · exact hrest.failed hk taskId (hfailed t hget hopen)

/-- Another attempt is asked for: either it is granted, and the rest leaves the
counters alone, or the task is failed. -/
theorem tried_requeue {taskId reason : String} {asked : Prop} {granted refused : Api Reply}
    {w : Timed Board}
    (hgranted : ∀ w', Ends k granted w' (fun r w'' => Untried k w'.state w''.state ∧ Requeued r))
    (hrefused : ∀ w', w'.state.tasks = w.state.tasks → Ends k refused w' (fun r w'' =>
      Untried k w'.state w''.state ∧ ¬Requeued r ∧
        (k = .memory → ∀ t, w'.state.tasks.get? taskId = some t → ¬t.status.IsTerminal →
          HasFailed w''.state.tasks taskId))) :
    Ends k (do
        let requeued ← store (.requeueTask taskId reason)
        if requeued = true then granted else refused) w (Tried k taskId asked w) := by
  refine wp_perform.mpr ⟨trivial, fun r w₁ hstep => ?_⟩
  cases r with
  | true =>
      obtain ⟨t, hget, hcap, hrow⟩ := hstep.2 rfl
      refine (hgranted w₁).mono (fun r w₂ hrest => ⟨fun id => ?_, ?_⟩)
      · rw [hrest.1.attempts id]
        by_cases hid : taskId = id
        · subst hid
          rw [if_pos ⟨rfl, hrest.2⟩, attemptsOf, attemptsOf, hrow, hget]
          rfl
        · rw [if_neg (fun hboth => hid hboth.1), Nat.add_zero]
          refine attemptsOf_step (fun reason' heq => ?_) (fun _ hplan => by cases hplan)
            hstep.1.tasks
          cases heq
          exact hid rfl
      · intro _ _ u hu _ hspent
        rw [Option.some.inj (hu.symm.trans hget)] at hspent
        omega
  | false =>
      have hsame : w₁.state.tasks = w.state.tasks := (hstep.1.reply rfl).1
      refine (hrefused w₁ hsame).mono (fun r w₂ hrest => ?_)
      obtain ⟨huntried, hr, hspent⟩ := hrest
      refine .of_untried ((Untried.of_tasks_eq hsame).trans huntried) hr
        (fun hk _ t hget hopen => hspent hk t ?_ hopen)
      rw [hsame, hget]

/-! ## The handlers -/

theorem tried_refuseCompletion {taskId veto : String} {asked : Prop} (w : Timed Board) :
    Ends k (Tasks.refuseCompletion taskId veto) w (Tried k taskId asked w) := by
  unfold Tasks.refuseCompletion
  refine wp_revokeLeaseOf And.left (fun _ => trivial) (fun w₁ hsame₁ => ?_)
  refine (tried_requeue (fun w₂ => ?_) (fun w₂ _ => ?_)).mono (fun _ _ => .of_tasks_eq hsame₁)
  · refine wp_perform.mpr ⟨trivial, fun _ w₃ hstep => ⟨?_, rfl⟩⟩
    exact untried_step (show Uncounted .schedulePendingDetailed from trivial) hstep.1.tasks
  · exact ends_failing (fun _ => rfl) w₂

theorem ends_consumeFailure {taskId reason : String} (w : Timed Board) :
    Ends k (Tasks.consumeFailure taskId reason) w (fun r w' =>
      Untried k w.state w'.state ∧ ¬Requeued r ∧
        (k = .memory → ∀ t, w.state.tasks.get? taskId = some t → ¬t.status.IsTerminal →
          HasFailed w'.state.tasks taskId)) := by
  unfold Tasks.consumeFailure
  refine wp_revokeLeaseOf And.left (fun _ => trivial) (fun w₁ hsame₁ => ?_)
  refine (ends_failing (fun _ => rfl) w₁).mono (fun r w' hrest => ?_)
  refine ⟨(Untried.of_tasks_eq hsame₁).trans hrest.1, hrest.2.1, fun hk t hget => ?_⟩
  exact hrest.2.2 hk t (by rw [hsame₁, hget])

/-- `fail_task`, which is asked for another attempt by its flag. -/
theorem tried_failTask (taskId : String) (req : Option FailTaskRequest) (w : Timed Board) :
    Ends k (Tasks.failTask taskId req) w (Tried k taskId
      (∃ body, req = some body ∧ body.requeue = true ∧ Text.strip body.reason ≠ "") w) := by
  unfold Tasks.failTask
  refine wp_requireTask And.left (fun _ => trivial)
    (fun w₁ hsame₁ hnone => .of_absent hnone hsame₁ (fun h => by cases h))
    (fun t w₁ hsame₁ hget => ?_)
  refine Wp.mono ?_ (fun _ _ => .of_tasks_eq (congrArg Board.tasks hsame₁))
  rw [← hsame₁] at hget
  dsimp only
  split
  · rename_i hblank
    refine .of_moot hget (.inr ?_) (fun h => by cases h) (.of_tasks_eq rfl)
    rintro ⟨body, rfl, -, hreason⟩
    exact hreason hblank
  split
  · rename_i hclosed
    exact .of_moot hget (.inl (isTerminal_of_isClosed hclosed)) (fun h => by cases h)
      (.of_tasks_eq rfl)
  split
  · rename_i hrequested
    refine wp_perform.mpr ⟨trivial, fun _ w₂ hstep => ?_⟩
    have hwrite : ∀ reason, Uncounted (.setTaskStatus taskId .cancelled reason) :=
      fun _ => trivial
    exact .of_moot hget (.inl (.inr (.inr (.inr hrequested)))) (fun h => by cases h)
      (untried_step (hwrite _) hstep.1.tasks)
  split
  · refine tried_requeue (fun w₂ => ?_) (fun w₂ _ => ends_consumeFailure w₂)
    refine wp_perform.mpr ⟨trivial, fun _ w₃ hstep => ⟨?_, rfl⟩⟩
    exact untried_step (show Uncounted .schedulePendingDetailed from trivial) hstep.1.tasks
  · rename_i hunasked
    refine (ends_consumeFailure w₁).mono (fun r w' hrest => ?_)
    refine .of_moot hget (.inr ?_) hrest.2.1 hrest.1
    rintro ⟨body, rfl, hrequeue, -⟩
    exact hunasked hrequeue

/-- `complete_task`, which is asked for another attempt where the completion is
refused. -/
theorem tried_completeTask (taskId : String) (req : Option CompleteTaskRequest)
    (w : Timed Board) :
    Ends k (Tasks.completeTask taskId req) w (Tried k taskId
      (∃ t, w.state.tasks.get? taskId = some t ∧ ReviewerGate.reviewerCompletionVeto t
        (req.bind CompleteTaskRequest.result) ≠ none) w) := by
  rw [Tasks.completeTask_eq]
  refine wp_requireTask And.left (fun _ => trivial)
    (fun w₁ hsame₁ hnone => .of_absent hnone hsame₁ (fun h => by cases h))
    (fun t w₁ hsame₁ hget => ?_)
  have hasked : (∃ t, w.state.tasks.get? taskId = some t ∧ ReviewerGate.reviewerCompletionVeto t
      (req.bind CompleteTaskRequest.result) ≠ none) →
      ReviewerGate.reviewerCompletionVeto t (req.bind CompleteTaskRequest.result) ≠ none := by
    rintro ⟨u, hu, hveto⟩
    rwa [Option.some.inj (hu.symm.trans hget)] at hveto
  generalize (∃ t, w.state.tasks.get? taskId = some t ∧ ReviewerGate.reviewerCompletionVeto t
      (req.bind CompleteTaskRequest.result) ≠ none) = asked at hasked ⊢
  refine Wp.mono ?_ (fun _ _ => .of_tasks_eq (congrArg Board.tasks hsame₁))
  rw [← hsame₁] at hget
  split
  · rename_i hclosed
    exact .of_moot hget (.inl (isTerminal_of_isClosed hclosed)) (fun h => by cases h)
      (.of_tasks_eq rfl)
  refine wp_revokeLeaseOf And.left (fun _ => trivial) (fun w₂ hsame₂ => ?_)
  refine Wp.mono ?_ (fun _ _ => .of_tasks_eq hsame₂)
  rw [← hsame₂] at hget
  split
  · rename_i hrequested
    refine wp_perform.mpr ⟨trivial, fun _ w₃ hstep => ?_⟩
    exact .of_moot hget (.inl (.inr (.inr (.inr hrequested)))) (fun h => by cases h)
      (untried_step (show Uncounted (.setTaskStatus taskId .cancelled "cancelled") from trivial)
        hstep.1.tasks)
  -- the same rest, with or without a result to store
  have hrest : ∀ (stored : Bool) (w₃ : Timed Board), Untried k w₂.state w₃.state →
      (∃ t₃, w₃.state.tasks.get? taskId = some t₃ ∧ t₃.status = t.status ∧
        t₃.attempts = t.attempts) →
      Ends k
        (Tasks.settleCompletion taskId t (req.bind CompleteTaskRequest.result) stored) w₃
        (Tried k taskId asked w₂) := by
    intro stored w₃ huntried hrow
    unfold Tasks.settleCompletion
    cases hveto : ReviewerGate.reviewerCompletionVeto t (req.bind CompleteTaskRequest.result) with
    | some veto =>
        refine (tried_refuseCompletion w₃).mono (fun _ _ => .after huntried (fun u hu => ?_))
        rwa [Option.some.inj (hu.symm.trans hget)]
    | none =>
        have hunasked : t.status.IsTerminal ∨ ¬asked := .inr (fun h => hasked h hveto)
        refine wp_perform.mpr ⟨trivial, fun _ w₄ hstep => ?_⟩
        have hwrite : Untried k w₃.state w₄.state :=
          untried_step (show Uncounted (.setTaskStatus taskId .completed "") from trivial)
            hstep.1.tasks
        have hdownstream : (Tasks.triggerDownstream taskId).Only Uncounted :=
          only_triggerDownstream permits_uncounted.allows taskId (fun _ _ => ⟨trivial, trivial⟩)
        refine wp_bind.mpr ((ends_of_only hdownstream).mono (fun r w₅ hlast => ?_))
        have hall := (huntried.trans hwrite).trans hlast
        cases r with
        | error e => exact .of_moot hget hunasked (fun h => by cases h) hall
        | ok _ => exact .of_moot hget hunasked (fun h => by cases h) hall
  cases hresult : req.bind CompleteTaskRequest.result with
  | none =>
      rw [hresult] at hrest
      exact hrest false w₂ (.of_tasks_eq rfl) ⟨t, hget, rfl, rfl⟩
  | some body =>
      rw [hresult] at hrest
      refine wp_perform.mpr ⟨trivial, fun r w₃ hstep => hrest r w₃ ?_ ?_⟩
      · exact untried_step (show Uncounted (.setTaskResult taskId (some body)) from trivial)
          hstep.1.tasks
      · obtain ⟨t₃, hget₃, hrow⟩ := hstep.1.tasks.get?_of_get? (fun _ _ h => h.id_eq) hget
        refine ⟨t₃, hget₃, ?_⟩
        rcases hrow with rfl | hchange
        · exact ⟨rfl, rfl⟩
        · cases hchange
          exact ⟨rfl, rfl⟩

/-! ## Calls -/

/-- The calls that put the task back to ready: the failures and the completions
of it that answer so. -/
def PutsBack (k : Backend) (taskId : String) (c : Call) (w : Timed k.Store) : Prop :=
  match c with
  | .fail id req => id = taskId ∧ Requeued ((Tasks.failTask id req).run k.tick w).1
  | .complete id req => id = taskId ∧ Requeued ((Tasks.completeTask id req).run k.tick w).1
  | _ => False

instance (taskId : String) (c : Call) (w : Timed k.Store) : Decidable (PutsBack k taskId c w) :=
  match c with
  | .fail id req =>
      inferInstanceAs (Decidable (id = taskId ∧ Requeued ((Tasks.failTask id req).run k.tick w).1))
  | .complete id req => inferInstanceAs
      (Decidable (id = taskId ∧ Requeued ((Tasks.completeTask id req).run k.tick w).1))
  | .submit _ _ | .createBatch _ | .claim _ _ | .release _ _ | .cancel _ _ | .block _ _
  | .answer _ _ | .unblock _ | .advance _ | .setDependencies _ _ | .triggerPending
  | .schedulePass | .recover _ | .sweep _ => isFalse id

/-- How often a run puts the task back to ready. -/
def Backend.timesPutBack (k : Backend) (taskId : String) (cs : List TimedCall)
    (w : Timed k.Store) : Nat :=
  countCalls k.tick TimedCall.enter (fun c => c.call.prog)
    (fun c w => PutsBack k taskId c.call w) cs w

/-- A call that asks for another attempt at an open task. -/
def AsksBack (taskId : String) (c : Call) (w : Timed Board) : Prop :=
  ∃ t, w.state.tasks.get? taskId = some t ∧ c.Retries taskId t

/-- No call creates the task under an id that is in use, on a store that would
write over it. -/
def CreatesUnused (k : Backend) (taskId : String) (c : Call) (w : Timed Board) : Prop :=
  k = .memory → match c with
    | .submit id _ => id = taskId → w.state.tasks.get? taskId = none
    | .createBatch plans =>
        ∀ plan ∈ plans, plan.taskId = taskId → w.state.tasks.get? taskId = none
    | _ => True

variable {taskId : String}

theorem Issued.plans_unused {c : Call} {w₀ : Timed Board} {b : Board} {op : StoreOp}
    (h : Issued c w₀ b op) (hunused : CreatesUnused k taskId c w₀) :
    ∀ plan ∈ op.plans, k = .memory → plan.taskId = taskId → b.tasks.get? taskId = none := by
  intro plan hplan hk hid
  cases h with
  | idle hidle => cases op <;> first | exact hidle.elim | cases hplan
  | submit hc hb =>
      subst hc hb
      obtain rfl := List.mem_singleton.mp hplan
      exact hunused hk hid
  | batch hc hb =>
      subst hc hb
      exact hunused hk plan hplan hid
  | _ => cases hplan

/-- A call that begins no other attempt. -/
def Attemptless (c : Call) : Prop :=
  ∀ id t, ¬c.Retries id t

theorem Issued.ne_requeueTask {c : Call} {w₀ : Timed Board} {b : Board} {op : StoreOp}
    (h : Issued c w₀ b op) (hc : Attemptless c) (id reason : String) :
    op ≠ .requeueTask id reason := by
  rintro rfl
  cases h with
  | idle hidle => exact hidle
  | retry hretries => exact hc _ _ hretries

theorem attemptless_of_ne {c : Call} (hfail : ∀ id req, c ≠ .fail id req)
    (hcomplete : ∀ id req, c ≠ .complete id req) : Attemptless c := by
  rintro id t ⟨-, ⟨req, hc, -⟩ | ⟨req, hc, -⟩⟩
  · exact hfail id _ hc
  · exact hcomplete id _ hc

/-- A call that begins no other attempt leaves the counter alone. -/
theorem Call.attemptsOf_eq {c : Call} {w : Timed k.Store}
    (hunused : k.Meets (CreatesUnused k taskId) c w) (hc : Attemptless c) :
    attemptsOf (k.board (c.prog.run k.tick w).2.state).tasks taskId =
      attemptsOf (k.board w.state).tasks taskId := by
  have hcond : k.Meets (fun c w => CreatesUnused k taskId c w ∧ Attemptless c) c w := by
    cases c with
    | sweep order =>
        refine callsMeet_of_forall (fun nodeId w => ⟨fun _ => trivial, ?_⟩) _ _
        exact attemptless_of_ne (fun _ _ heq => by cases heq) (fun _ _ heq => by cases heq)
    | _ => exact ⟨hunused, hc⟩
  have hstep : ∀ (w' : Timed k.Store) op,
      attemptsOf (k.board w'.state).tasks taskId = attemptsOf (k.board w.state).tasks taskId →
      (∀ reason, op ≠ .requeueTask taskId reason) →
      (∀ plan ∈ op.plans, k = .memory → plan.taskId = taskId →
        (k.board w'.state).tasks.get? taskId = none) →
      True ∧ attemptsOf (k.board (k.tick op w').2.state).tasks taskId =
        attemptsOf (k.board w.state).tasks taskId := by
    intro w' op hsame hrequeue hplans
    exact ⟨trivial, (attemptsOf_step hrequeue hplans (k.implements op w').tasks).trans hsame⟩
  refine (Backend.keeps_call (P := fun _ _ _ => True)
    (I := fun w' => attemptsOf (k.board w'.state).tasks taskId =
      attemptsOf (k.board w.state).tasks taskId) _ (fun w' op hidle hsame => ?_)
    (fun c w₀ w' op hcond _ hsame hissued => ?_) c w rfl hcond).2
  · refine hstep w' op hsame (fun reason => ?_) (fun plan hplan => ?_)
    · rintro rfl
      exact hidle
    · cases op <;> first | exact hidle.elim | cases hplan
  · exact hstep w' op hsame (hissued.ne_requeueTask hcond.2 taskId)
      (hissued.plans_unused hcond.1)

/-- Every call: the counter goes up by one where the task is put back. -/
theorem Call.attemptsOf_run {c : Call} {w : Timed k.Store}
    (hunused : k.Meets (CreatesUnused k taskId) c w) :
    attemptsOf (k.board (c.prog.run k.tick w).2.state).tasks taskId =
      attemptsOf (k.board w.state).tasks taskId + if PutsBack k taskId c w then 1 else 0 := by
  have hother : Attemptless c → ¬PutsBack k taskId c w →
      attemptsOf (k.board (c.prog.run k.tick w).2.state).tasks taskId =
        attemptsOf (k.board w.state).tasks taskId + if PutsBack k taskId c w then 1 else 0 := by
    intro hc hnot
    rw [if_neg hnot, Nat.add_zero]
    exact Call.attemptsOf_eq hunused hc
  cases c with
  | fail id req =>
      have htried := (along_of_wp k.implements_granting (tried_failTask id req (k.view w))).2
      have hrun := run_discard k.tick (Tasks.failTask id req) () w
      have hsame :=
        congrArg (fun w : Timed k.Store => attemptsOf (k.board w.state).tasks taskId) hrun
      exact hsame.trans (htried.counted taskId)
  | complete id req =>
      have htried := (along_of_wp k.implements_granting (tried_completeTask id req (k.view w))).2
      have hrun := run_discard k.tick (Tasks.completeTask id req) () w
      have hsame :=
        congrArg (fun w : Timed k.Store => attemptsOf (k.board w.state).tasks taskId) hrun
      exact hsame.trans (htried.counted taskId)
  | _ =>
      refine hother (attemptless_of_ne (fun _ _ heq => ?_) (fun _ _ heq => ?_)) id <;> cases heq

/-- On a store with a guard, a failed task stays failed through any run of calls. -/
theorem hasFailed_of_calls {cs : List TimedCall} {w : Timed ClusterState}
    (hunused : Backend.memory.CallsMeet (Backend.memory.Meets (CreatesUnused .memory taskId)) cs w)
    (h : HasFailed (Backend.memory.board w.state).tasks taskId) :
    HasFailed (Backend.memory.board (Backend.memory.runCalls cs w).state).tasks taskId := by
  have hstep : ∀ (w : Timed ClusterState) op,
      HasFailed (Backend.memory.board w.state).tasks taskId →
      (∀ plan ∈ op.plans, plan.taskId = taskId →
        (Backend.memory.board w.state).tasks.get? taskId = none) →
      True ∧ HasFailed (Backend.memory.board (Backend.memory.tick op w).2.state).tasks taskId := by
    intro w op h hplans
    exact ⟨trivial, hasFailed_step hplans (Backend.memory.implements op w).tasks h⟩
  refine (Backend.runs_keep (k := .memory) (P := fun _ _ _ => True)
    (I := fun w => HasFailed (Backend.memory.board w.state).tasks taskId)
    (fun w op hidle h => hstep w op h ?_) (fun c w₀ w op hcond _ h hissued => hstep w op h ?_)
    (fun _ _ h => h) h hunused).2
  · intro plan hplan
    cases op <;> first | exact hidle.elim | cases hplan
  · exact fun plan hplan => hissued.plans_unused hcond plan hplan rfl

/-- The counter never passes the limit. -/
theorem attemptsOf_le_step {now : Nat} {b b' : Board} {op : StoreOp}
    (hevolves : b.tasks.Evolves (Rewrites k now b op) (Created k now op) b'.tasks)
    (h : attemptsOf b.tasks taskId ≤ taskRetryLimit) :
    attemptsOf b'.tasks taskId ≤ taskRetryLimit := by
  unfold attemptsOf at h ⊢
  cases hget' : b'.tasks.get? taskId with
  | none => exact Nat.zero_le _
  | some t' =>
      change t'.attempts ≤ taskRetryLimit
      rcases hevolves.of_get? (fun _ _ hrow => hrow.id_eq) hget' with ⟨t, hget, hrow⟩ | ⟨-, hnew⟩
      · rw [hget] at h
        rcases hrow with rfl | hchange
        · exact h
        cases hchange with
        | requeue _ _ hcap => exact hcap
        | replace | replaceBatch => exact Nat.zero_le _
        | _ => exact h
      · rw [hnew.attempts_eq]
        exact Nat.zero_le _

theorem attemptsOf_le_of_calls {cs : List TimedCall} {w : Timed k.Store}
    (h : attemptsOf (k.board w.state).tasks taskId ≤ taskRetryLimit) :
    attemptsOf (k.board (k.runCalls cs w).state).tasks taskId ≤ taskRetryLimit := by
  have hstep : ∀ (w : Timed k.Store) op,
      attemptsOf (k.board w.state).tasks taskId ≤ taskRetryLimit →
      attemptsOf (k.board (k.tick op w).2.state).tasks taskId ≤ taskRetryLimit :=
    fun w op h => attemptsOf_le_step (k.implements op w).tasks h
  have hcall : ∀ (c : TimedCall) (w : Timed k.Store),
      attemptsOf (k.board w.state).tasks taskId ≤ taskRetryLimit → True →
      attemptsOf (k.board (c.call.prog.run k.tick w).2.state).tasks taskId ≤ taskRetryLimit :=
    fun c w h _ => run_of_step (I := fun w : Timed k.Store =>
      attemptsOf (k.board w.state).tasks taskId ≤ taskRetryLimit) c.call.prog h hstep
  have henter : ∀ (c : TimedCall) (w : Timed k.Store),
      attemptsOf (k.board w.state).tasks taskId ≤ taskRetryLimit →
      attemptsOf (k.board (c.enter w).state).tasks taskId ≤ taskRetryLimit := fun _ _ h => h
  exact runAll_of_calls (I := fun w : Timed k.Store =>
    attemptsOf (k.board w.state).tasks taskId ≤ taskRetryLimit) henter hcall h
    (callsMeet_of_forall (fun _ _ => trivial) cs w)

/-- Once the budget is spent, the next call that asks for another attempt leaves
the task failed. -/
theorem Call.hasFailed_of_spent {c : Call} {w : Timed ClusterState}
    (hasks : AsksBack taskId c (Backend.memory.view w))
    (hspent : taskRetryLimit ≤ attemptsOf (Backend.memory.board w.state).tasks taskId) :
    HasFailed (Backend.memory.board (c.prog.run Backend.memory.tick w).2.state).tasks taskId := by
  obtain ⟨t, hget, hopen, hrequeue⟩ := hasks
  have hattempts : taskRetryLimit ≤ t.attempts := by
    have hrow : (Backend.memory.board w.state).tasks.get? taskId = some t := hget
    rwa [attemptsOf, hrow, Option.map_some, Option.getD_some] at hspent
  have hended : ∀ {p : Api Reply} {asked : Prop},
      Ends .memory p (Backend.memory.view w) (Tried .memory taskId asked (Backend.memory.view w)) →
      asked → HasFailed
        (Backend.memory.board ((p >>= fun _ => pure ()).run Backend.memory.tick w).2.state).tasks
        taskId := by
    intro p asked hp hasked
    rw [run_discard]
    have htried := (along_of_wp Backend.memory.implements_granting hp).2
    exact htried.spent rfl hasked t hget hopen hattempts
  rcases hrequeue with ⟨req, rfl, hflag, hreason⟩ | ⟨req, rfl, hveto⟩
  · exact hended (tried_failTask taskId (some req) _) ⟨req, rfl, hflag, hreason⟩
  · exact hended (tried_completeTask taskId req _) ⟨t, hget, hveto⟩

/-- Through any run of calls on any store, a task that had not been put back, such
as one that is yet to be created, is put back to ready by failures and refused
completions at most as often as the limit says, and its counter is that number;
and on a store with a guard, the next call that asks for it once the budget is
spent leaves the task failed for good. -/
theorem attempts_of_calls (k : Backend) (taskId : String) (cs : List TimedCall)
    (w : Timed k.Store) (hstart : attemptsOf (k.board w.state).tasks taskId = 0)
    (hunused : k.CallsMeet (k.Meets (CreatesUnused k taskId)) cs w) :
    attemptsOf (k.board (k.runCalls cs w).state).tasks taskId = k.timesPutBack taskId cs w ∧
    k.timesPutBack taskId cs w ≤ taskRetryLimit ∧
    (k = .memory → ∀ before c after, cs = before ++ c :: after →
      k.timesPutBack taskId before w = taskRetryLimit →
      AsksBack taskId c.call (k.view (c.enter (k.runCalls before w))) →
      HasFailed (k.board (k.runCalls cs w).state).tasks taskId) := by
  have hcount : ∀ cs', k.CallsMeet (k.Meets (CreatesUnused k taskId)) cs' w →
      attemptsOf (k.board (k.runCalls cs' w).state).tasks taskId = k.timesPutBack taskId cs' w := by
    intro cs' hunused'
    have henter : ∀ (c : TimedCall) (w : Timed k.Store),
        attemptsOf (k.board (c.enter w).state).tasks taskId =
          attemptsOf (k.board w.state).tasks taskId := fun _ _ => rfl
    have hmeasure := measure_of_calls (P := fun (c : TimedCall) w => PutsBack k taskId c.call w)
      (m := fun w : Timed k.Store => attemptsOf (k.board w.state).tasks taskId) henter
      (fun _ _ h => Call.attemptsOf_run h) hunused'
    exact hmeasure.trans (by rw [hstart, Nat.zero_add]; rfl)
  refine ⟨hcount cs hunused, ?_, ?_⟩
  · rw [← hcount cs hunused]
    exact attemptsOf_le_of_calls (by rw [hstart]; exact Nat.zero_le _)
  · rintro rfl before c after rfl hspent hasks
    obtain ⟨hbefore, hrest⟩ := callsMeet_append.mp hunused
    have hattempts := hcount before hbefore
    rw [hspent] at hattempts
    have hfailed := Call.hasFailed_of_spent hasks (Nat.le_of_eq hattempts.symm)
    have hlast := hasFailed_of_calls hrest.2 hfailed
    unfold Backend.runCalls at hlast ⊢
    rwa [runAll_append]

end Attempts

section Example

local instance asciiRetries : Unicode := Unicode.ascii

/-- A failure that asks for another attempt. -/
def failure : TimedCall where
  call := .fail "t" (some { reason := "no deliverable", requeue := true })
  clock := fun _ => 2

/-- A task is submitted and fails so often. -/
def retried (n : Nat) : List TimedCall :=
  ⟨.submit "t" { title := "t" }, fun _ => 1⟩ :: List.replicate n failure

/-- An in-memory store with no nodes and no tasks. -/
def emptyRetries : Timed ClusterState := ⟨ClusterState.empty, fun _ => 0⟩

/-- Three attempts are granted, and after the fourth failure the task has failed. -/
theorem attempts_of_calls_retried :
    Backend.memory.timesPutBack "t" (retried 4) emptyRetries = 3 ∧
      HasFailed
        (Backend.memory.board (Backend.memory.runCalls (retried 4) emptyRetries).state).tasks
        "t" := by
  have hunused : Backend.memory.CallsMeet (Backend.memory.Meets (CreatesUnused .memory "t"))
      (retried 4) emptyRetries := by
    exact ⟨fun _ _ => rfl, fun _ => trivial, fun _ => trivial, fun _ => trivial, fun _ => trivial,
      trivial⟩
  have hcap := attempts_of_calls .memory "t" (retried 4) emptyRetries rfl hunused
  refine ⟨by decide, hcap.2.2 rfl (retried 3) failure [] rfl (by decide) ?_⟩
  exact ⟨_, rfl, by decide, .inl ⟨_, rfl, rfl, by decide⟩⟩

end Example

end HermesCluster
