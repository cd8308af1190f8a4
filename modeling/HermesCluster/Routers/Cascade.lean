import HermesCluster.Routers.Downstream
/-!
# Handlers that end a task

What `complete`, `fail`, `cancel` and a recovery do to the tasks downstream of
the one they end, and from it what a run of calls does: a pending task is left
below a failed or cancelled one only by a call that ends a task somebody waits
for without cascading, or that points a task at one that was doomed already.
-/

namespace HermesCluster

open Program hiding pure bind
open Relation

/-! ## The handlers that cascade -/

section Handlers

variable [Unicode] {k : Backend} {w : Timed Board} {b : Board} {α α' : Type}
  {Q : Except ApiError α → Timed Board → Prop}

/-- What a program leaves behind, whatever it issues. -/
abbrev Yields (k : Backend) (p : Api α) (w : Timed Board)
    (Q : Except ApiError α → Timed Board → Prop) : Prop :=
  p.Wp (Contract k) (fun _ _ => True) w Q

/-- No task is left dangling. -/
abbrev YieldsSound (k : Backend) (p : Api α) (w : Timed Board) : Prop :=
  Yields k p w (fun _ w' => NoDangling w'.state.tasks)

theorem yields_store {op : StoreOp} {f : op.Res → Api α}
    (h : ∀ r w', Contract k op w r w' → Yields k (f r) w' Q) :
    Yields k (store op >>= f) w Q :=
  wp_perform.mpr ⟨trivial, h⟩

theorem yields_requireTask {taskId : String} {f : Task → Api α}
    (hnone : ∀ w', w'.state = w.state → Q (.error (.http 404 "task not found")) w')
    (h : ∀ t w', w'.state = w.state → w.state.tasks.get? taskId = some t →
      Yields k (f t) w' Q) :
    Yields k (Tasks.requireTask taskId >>= f) w Q := by
  rw [Tasks.requireTask, bind_assoc]
  refine yields_store (fun r w' hC => ?_)
  obtain ⟨rfl, hsame⟩ := hC.reply
  cases hget : w.state.tasks.get? taskId with
  | none => exact hnone w' hsame
  | some t => exact h t w' hsame hget

theorem yields_getByTask {taskId : String} {f : Option Lease → Api α}
    (h : ∀ r w', w'.state = w.state → Yields k (f r) w' Q) :
    Yields k (LeaseManager.getByTask taskId >>= f) w Q := by
  unfold LeaseManager.getByTask
  split
  · exact h none w rfl
  · exact yields_store (fun r w' hC => h r w' hC.reply)

theorem yields_revokeLeaseOf {taskId : String} {f : Unit → Api α}
    (h : ∀ w', w'.state.tasks = w.state.tasks → Yields k (f ()) w' Q) :
    Yields k (Tasks.revokeLeaseOf taskId >>= f) w Q := by
  rw [Tasks.revokeLeaseOf, bind_assoc]
  refine yields_getByTask (fun r w' hsame => ?_)
  cases r with
  | none => exact h w' (congrArg Board.tasks hsame)
  | some lease =>
      refine yields_store (fun r w'' hC => h w'' ?_)
      have hrevoked : w''.state.tasks = w'.state.tasks := by rw [hC.reply]
      exact hrevoked.trans (congrArg Board.tasks hsame)

theorem yields_allCompleted {deps : List String} {f : Bool → Api α}
    (h : ∀ r w', w'.state = w.state → Yields k (f r) w' Q) :
    Yields k (Tasks.allCompleted deps >>= f) w Q := by
  induction deps generalizing w with
  | nil => exact h true w rfl
  | cons dep deps ih =>
      rw [Tasks.allCompleted, bind_assoc]
      refine yields_store (fun r w' hC => ?_)
      have hsame : w'.state = w.state := hC.reply.2
      cases r with
      | none => exact h false w' hsame
      | some t =>
          by_cases hdone : t.status = .completed
          · simp only [if_pos hdone]
            exact ih (fun r w'' hsame' => h r w'' (hsame'.trans hsame))
          · simp only [if_neg hdone]
            exact h false w' hsame

theorem yieldsSound_store {op : StoreOp} {f : op.Res → Api α} (hop : Sound w.state.tasks op)
    (h : NoDangling w.state.tasks)
    (hf : ∀ r w', NoDangling w'.state.tasks → YieldsSound k (f r) w') :
    YieldsSound k (store op >>= f) w :=
  yields_store (fun r w' hC => hf r w' (noDangling_of_sound hC hop h))

theorem cascaded_of_close {taskId reason : String} {status : TaskStatus} {t : Task} {r : Bool}
    {w' : Timed Board} (hended : status.IsTerminal)
    (ht : w.state.tasks.get? taskId = some t)
    (hguard : ¬ClusterState.Refuses t.status status)
    (hC : Contract k (.setTaskStatus taskId status reason) w r w') :
    Cascaded [taskId] w.state.tasks w'.state.tasks where
  rows := by
    refine forall₂_of_contract hC (fun _ => ⟨⟨rfl, rfl⟩, .inl rfl⟩) (fun u _ u' hchange => ?_)
      (fun u hcreated => by cases hcreated)
    cases hchange with
    | status hid _ =>
        exact ⟨⟨rfl, rfl⟩, .inr ⟨List.mem_singleton.mpr hid, hended⟩⟩
  ended := by
    intro id hid u hu
    rw [List.mem_singleton.mp hid, hC.reply.2 t ht hguard] at hu
    cases hu
    exact hended

/-- What the cascade does to a row: an open task that it is for is cancelled, at
once or by request; every other row stays as it is. -/
inductive Withdrawn (reason : String) (p : String → Prop) (t : Task) : Task → Prop
  | cancelled {now : Nat} {status : TaskStatus} (hmem : p t.id) (hopen : ¬t.status.IsTerminal)
      (hstatus : status = .cancelled ∨ status = .cancelRequested) :
      Withdrawn reason p t (t.withStatus now status reason)
  | kept (h : p t.id → t.status.IsTerminal) : Withdrawn reason p t t

omit [Unicode] in
theorem isTerminal_of_withdrawal {status : TaskStatus}
    (h : status = .cancelled ∨ status = .cancelRequested) : status.IsTerminal := by
  rcases h with rfl | rfl
  · decide
  · decide

omit [Unicode] in
theorem Withdrawn.id_eq {reason : String} {p : String → Prop} {t t' : Task}
    (h : Withdrawn reason p t t') : t'.id = t.id := by
  cases h <;> rfl

omit [Unicode] in
theorem Withdrawn.trans {reason id : String} {ids : List String} {t t' t'' : Task}
    (h : Withdrawn reason (· ∈ [id]) t t') (h' : Withdrawn reason (· ∈ ids) t' t'') :
    Withdrawn reason (· ∈ id :: ids) t t'' := by
  cases h with
  | cancelled hmem hopen hstatus =>
      cases h' with
      | cancelled _ hnot _ => exact absurd (isTerminal_of_withdrawal hstatus) hnot
      | kept _ =>
          exact .cancelled (List.mem_cons.mpr (.inl (List.mem_singleton.mp hmem))) hopen hstatus
  | kept hended =>
      cases h' with
      | cancelled hmem hopen hstatus =>
          exact .cancelled (List.mem_cons_of_mem _ hmem) hopen hstatus
      | kept hended' =>
          refine .kept (fun hmem => ?_)
          rcases List.mem_cons.mp hmem with hid | hmem
          · exact hended (List.mem_singleton.mpr hid)
          · exact hended' hmem

omit [Unicode] in
/-- The cascade ends the tasks of the list. -/
theorem cascaded_of_withdrawn {reason : String} {ids : List String} {tasks tasks' : Table Task}
    (h : List.Forall₂ (Withdrawn reason (· ∈ ids)) tasks.rows tasks'.rows) :
    Cascaded ids tasks tasks' where
  rows := by
    refine h.imp (fun t t' hrow => ?_)
    cases hrow with
    | cancelled hmem _ hstatus =>
        exact ⟨⟨rfl, rfl⟩, .inr ⟨hmem, isTerminal_of_withdrawal hstatus⟩⟩
    | kept _ => exact ⟨⟨rfl, rfl⟩, .inl rfl⟩
  ended := by
    intro id hid t' ht'
    have hevolves := Table.evolves_of_forall₂ (N := fun _ => False) h
    rcases hevolves.of_get? (fun _ _ hrow => hrow.id_eq) ht' with ⟨t, ht, hrow⟩ | ⟨-, hfalse⟩
    · cases hrow with
      | cancelled _ _ hstatus => exact isTerminal_of_withdrawal hstatus
      | kept hended =>
          rw [← show t'.id = id from Table.key_of_get? ht] at hid
          exact hended hid
    · exact hfalse.elim

/-- A status write that the store does not refuse, row by row. -/
theorem forall₂_of_status {taskId reason : String} {status : TaskStatus} {t : Task} {r : Bool}
    {w' : Timed Board} (ht : w.state.tasks.get? taskId = some t)
    (hguard : ¬ClusterState.Refuses t.status status)
    (hC : Contract k (.setTaskStatus taskId status reason) w r w') :
    List.Forall₂ (fun u u' => u' =
        if u.id = taskId then u.withStatus (w.clock 0) status reason else u)
      w.state.tasks.rows w'.state.tasks.rows := by
  have hwritten := hC.reply.2 t ht hguard
  have hrows : List.Forall₂ (fun u u' => u ∈ w.state.tasks.rows ∧ (u' = u ∨ u.id = taskId ∧
      u' = u.withStatus (w.clock 0) status reason)) w.state.tasks.rows w'.state.tasks.rows := by
    have hstep : List.Forall₂ (fun u u' => u' = u ∨ u.id = taskId ∧
        u' = u.withStatus (w.clock 0) status reason) w.state.tasks.rows w'.state.tasks.rows := by
      refine forall₂_of_contract hC (fun _ => .inl rfl) (fun u _ u' hchange => ?_)
        (fun u hcreated => by cases hcreated)
      cases hchange with
      | status hid _ => exact .inr ⟨hid, rfl⟩
    exact Table.forall₂_imp_of_mem hstep (fun u hu u' hrow => ⟨hu, hrow⟩)
  refine Table.forall₂_imp_of_mem_right hrows ?_
  rintro u' hu' u ⟨hu, hrow⟩
  by_cases hid : u.id = taskId
  · rw [if_pos hid]
    have hsame : u = t := by
      rw [← hid] at ht
      exact Option.some.inj ((Table.get?_of_mem hu).symm.trans ht)
    have hid' : u'.id = taskId := by
      rcases hrow with rfl | ⟨-, rfl⟩
      · exact hid
      · exact hid
    rw [← hid'] at hwritten
    rw [hsame]
    exact Option.some.inj ((Table.get?_of_mem hu').symm.trans hwritten)
  · rw [if_neg hid]
    exact hrow.resolve_right (fun h => hid h.1)

theorem withdrawn_of_contract {depId reason : String} {status : TaskStatus} {dep : Task}
    {r : Bool} {w' : Timed Board} (hstatus : status = .cancelled ∨ status = .cancelRequested)
    (hget : w.state.tasks.get? depId = some dep) (hopen : ¬dep.status.IsTerminal)
    (hC : Contract k (.setTaskStatus depId status reason) w r w') :
    List.Forall₂ (Withdrawn reason (· ∈ [depId])) w.state.tasks.rows w'.state.tasks.rows := by
  have hrows := forall₂_of_status hget (not_refuses_of_open hopen) hC
  refine Table.forall₂_imp_of_mem hrows ?_
  rintro t ht t' rfl
  by_cases hid : t.id = depId
  · rw [if_pos hid]
    have hdep : t = dep := by
      rw [← hid] at hget
      exact Option.some.inj ((Table.get?_of_mem ht).symm.trans hget)
    exact .cancelled (List.mem_singleton.mpr hid) (hdep ▸ hopen) hstatus
  · rw [if_neg hid]
    exact .kept (fun hmem => absurd (List.mem_singleton.mp hmem) hid)

theorem yields_cancelDependent (reason depId : String) (w : Timed Board) :
    Yields k (Tasks.cancelDependent reason depId) w
      (fun r w' => r = .ok ⟨⟩ ∧
        List.Forall₂ (Withdrawn reason (· ∈ [depId])) w.state.tasks.rows w'.state.tasks.rows) := by
  have hkept : ∀ w' : Timed Board, w'.state.tasks = w.state.tasks →
      (∀ t, w.state.tasks.get? depId = some t → t.status.IsTerminal) →
      List.Forall₂ (Withdrawn reason (· ∈ [depId])) w.state.tasks.rows w'.state.tasks.rows := by
    intro w' hsame hended
    rw [hsame, List.forall₂_same]
    refine fun t ht => .kept (fun hmem => hended t ?_)
    rw [← List.mem_singleton.mp hmem]
    exact Table.get?_of_mem ht
  unfold Tasks.cancelDependent
  refine yields_store (fun r w₁ hC₁ => ?_)
  obtain ⟨rfl, hsame₁⟩ := hC₁.reply
  cases hget : w.state.tasks.get? depId with
  | none =>
      refine ⟨rfl, hkept w₁ (congrArg Board.tasks hsame₁) (fun t ht => ?_)⟩
      rw [hget] at ht
      cases ht
  | some dep =>
      by_cases hended : dep.status.IsTerminal
      · simp only [if_pos hended]
        refine ⟨rfl, hkept w₁ (congrArg Board.tasks hsame₁) (fun t ht => ?_)⟩
        rw [hget] at ht
        cases ht
        exact hended
      · simp only [if_neg hended]
        -- the write, from a board with the same rows
        have hwrite : ∀ (w₂ w₃ : Timed Board) (status : TaskStatus) (r : Bool),
            w₂.state.tasks = w.state.tasks →
            status = .cancelled ∨ status = .cancelRequested →
            Contract k (.setTaskStatus depId status reason) w₂ r w₃ →
            List.Forall₂ (Withdrawn reason (· ∈ [depId])) w.state.tasks.rows
              w₃.state.tasks.rows := by
          intro w₂ w₃ status r hsame hstatus hC
          have hrows := withdrawn_of_contract hstatus (hsame ▸ hget) hended hC
          rwa [hsame] at hrows
        refine yields_getByTask (fun lease w₂ hsame₂ => ?_)
        have htasks₂ : w₂.state.tasks = w.state.tasks :=
          congrArg Board.tasks (hsame₂.trans hsame₁)
        cases lease with
        | none =>
            exact yields_store (fun r w₃ hC =>
              ⟨rfl, hwrite w₂ w₃ .cancelled r htasks₂ (.inl rfl) hC⟩)
        | some lease =>
            refine yields_store (fun r w₃ hC₃ => ?_)
            have htasks₃ : w₃.state.tasks = w.state.tasks :=
              (congrArg Board.tasks hC₃.reply).trans htasks₂
            exact yields_store (fun r w₄ hC =>
              ⟨rfl, hwrite w₃ w₄ .cancelRequested r htasks₃ (.inr rfl) hC⟩)

theorem yields_cancelDependents (reason : String) (ids : List String) (w : Timed Board) :
    Yields k (ids.forM (Tasks.cancelDependent reason)) w
      (fun r w' => r = .ok ⟨⟩ ∧
        List.Forall₂ (Withdrawn reason (· ∈ ids)) w.state.tasks.rows w'.state.tasks.rows) := by
  induction ids generalizing w with
  | nil =>
      refine ⟨rfl, List.forall₂_same.mpr (fun t _ => .kept (fun hmem => ?_))⟩
      cases hmem
  | cons id ids ih =>
      change Yields k (Tasks.cancelDependent reason id >>= fun _ =>
        ids.forM (Tasks.cancelDependent reason)) w _
      refine Wp.seq (I := fun _ w' =>
          List.Forall₂ (Withdrawn reason (· ∈ [id])) w.state.tasks.rows w'.state.tasks.rows)
        ((yields_cancelDependent reason id w).mono (fun r w' h => ⟨⟨⟩, h⟩)) (fun _ w' h => ?_)
      refine (ih w').mono (fun r w'' h' => ⟨h'.1, (Table.forall₂_comp h h'.2).imp ?_⟩)
      rintro t t'' ⟨t', hrow, hrow'⟩
      exact hrow.trans hrow'

/-- A task that was open on a calm board is ended, and its dependents with it. -/
theorem yieldsSound_close {taskId reason why : String} {status : TaskStatus} {t : Task}
    {f : List String → Api α} (hcalm : Calm b w.state) (hold : NoDangling b.tasks)
    (hcovered : Covered k.dependentRows b.tasks taskId) (ht : b.tasks.get? taskId = some t)
    (hopen : ¬t.status.IsTerminal) (hended : status.IsTerminal)
    (hf : ∀ ids w', NoDangling w'.state.tasks → YieldsSound k (f ids) w') :
    YieldsSound k (store (.setTaskStatus taskId status reason) >>= fun _ =>
      Tasks.cascadeCancelDependents taskId why >>= f) w := by
  obtain ⟨t', ht', hstatus⟩ := hcalm.exists_row ht
  refine yields_store (fun r w₁ hC => ?_)
  have hclosed := hcalm.cascaded.trans
    (cascaded_of_close hended ht' (hstatus ▸ not_refuses_of_open hopen) hC)
  rw [Tasks.cascadeCancelDependents, bind_assoc]
  refine yields_store (fun ids w₂ hC₂ => ?_)
  obtain ⟨rfl, hsame⟩ := hC₂.reply
  rw [hclosed.sameEdges.triggerChain_eq, bind_assoc]
  refine Wp.seq (I := fun _ w' => NoDangling w'.state.tasks)
    ((yields_cancelDependents why _ w₂).mono ?_) (fun _ w' h => hf _ w' h)
  rintro r w' ⟨rfl, hrows⟩
  rw [hsame] at hrows
  have hcascaded := hclosed.trans (cascaded_of_withdrawn hrows)
  exact ⟨⟨⟩, rfl, hcascaded.noDangling_of_covered hcovered hold⟩

theorem yieldsSound_promoteDependent (depId : String) (w : Timed Board)
    (hold : NoDangling w.state.tasks) :
    Yields k (Tasks.promoteDependent depId) w
      (fun r w' => r = .ok ⟨⟩ ∧ NoDangling w'.state.tasks) := by
  have hkept : ∀ w' : Timed Board, w'.state = w.state → NoDangling w'.state.tasks :=
    fun w' hsame => hsame ▸ hold
  unfold Tasks.promoteDependent
  refine yields_store (fun r w₁ hC₁ => ?_)
  obtain ⟨rfl, hsame₁⟩ := hC₁.reply
  cases hget : w.state.tasks.get? depId with
  | none => exact ⟨rfl, hkept w₁ hsame₁⟩
  | some dep =>
      by_cases hpending : dep.status = .pending
      · simp only [if_neg (not_not.mpr hpending)]
        refine yields_allCompleted (fun r w₂ hsame₂ => ?_)
        have hsame₂ := hsame₂.trans hsame₁
        cases r with
        | false => exact ⟨rfl, hkept w₂ hsame₂⟩
        | true =>
            refine yields_store (fun tasks w₃ hC₃ => ?_)
            have hsame₃ : w₃.state = w.state := hC₃.reply.2.trans hsame₂
            cases LandingGate.holdReason tasks dep with
            | some reason =>
                by_cases hnew : dep.failReason.getD "" ≠ reason
                · simp only [if_pos hnew]
                  refine yields_store (fun r w₄ hC₄ => ⟨rfl, ?_⟩)
                  refine noDangling_of_sound hC₄ ⟨fun hdead => ?_, fun _ t ht => ?_⟩
                    (hkept w₃ hsame₃)
                  · exact absurd hdead (by decide)
                  · rw [hsame₃, hget] at ht
                    cases ht
                    exact hpending
                · simp only [if_neg hnew]
                  exact ⟨rfl, hkept w₃ hsame₃⟩
            | none =>
                refine yields_store (fun r w₄ hC₄ => ⟨rfl, ?_⟩)
                refine noDangling_of_sound hC₄ ⟨fun hdead => ?_, fun h => by cases h⟩
                  (hkept w₃ hsame₃)
                exact absurd hdead (by decide)
      · simp only [if_pos hpending]
        exact ⟨rfl, hkept w₁ hsame₁⟩

theorem yieldsSound_triggerDownstream {taskId : String} {f : Unit → Api α}
    (hold : NoDangling w.state.tasks)
    (hf : ∀ w', NoDangling w'.state.tasks → YieldsSound k (f ()) w') :
    YieldsSound k (Tasks.triggerDownstream taskId >>= f) w := by
  rw [Tasks.triggerDownstream, bind_assoc]
  refine yieldsSound_store trivial hold (fun dependents w₁ h₁ => ?_)
  rw [bind_assoc]
  refine Wp.seq (I := fun _ w' => NoDangling w'.state.tasks)
    ((wp_forM (I := fun w' => NoDangling w'.state.tasks) dependents Tasks.promoteDependent
      (fun depId _ w' h => yieldsSound_promoteDependent depId w' h) h₁).mono
        (fun r w' h => ⟨⟨⟩, h⟩)) (fun _ w₂ h₂ => ?_)
  exact yieldsSound_store trivial h₂ (fun _ w₃ h₃ => hf w₃ h₃)

/-! ## When a call leaves nothing dangling -/

/-- An acknowledged cancellation ends a task that nothing waits for, and the
retry cap ends one whose dependents are all found. -/
def CompletesSound (query : RowQuery) (taskId : String) (req : Option CompleteTaskRequest)
    (b : Board) : Prop :=
  ∀ t, b.tasks.get? taskId = some t →
    (t.status = .cancelRequested → ¬Awaited b.tasks taskId) ∧
    (¬t.status.IsTerminal → taskRetryLimit ≤ t.attempts →
      ReviewerGate.reviewerCompletionVeto t (req.bind CompleteTaskRequest.result) ≠ none →
      Covered query b.tasks taskId)

/-- The same for a failure, which is retried on request below the cap. -/
def FailsSound (query : RowQuery) (taskId : String) (req : Option FailTaskRequest)
    (b : Board) : Prop :=
  Text.strip ((req.map FailTaskRequest.reason).getD "") ≠ "" →
    ∀ t, b.tasks.get? taskId = some t →
      (t.status = .cancelRequested → ¬Awaited b.tasks taskId) ∧
      (¬t.status.IsTerminal →
        ((req.map FailTaskRequest.requeue).getD false = true → taskRetryLimit ≤ t.attempts) →
        Covered query b.tasks taskId)

omit [Unicode] in
/-- A cancellation of an open task finds all its dependents. -/
def CancelsSound (query : RowQuery) (taskId : String) (b : Board) : Prop :=
  ∀ t, b.tasks.get? taskId = some t → ¬t.status.IsTerminal → Covered query b.tasks taskId

theorem yieldsSound_refuseCompletion {taskId veto : String} {t : Task} (hcalm : Calm b w.state)
    (hold : NoDangling b.tasks) (ht : b.tasks.get? taskId = some t)
    (hopen : ¬t.status.IsTerminal)
    (hcovered : taskRetryLimit ≤ t.attempts → Covered k.dependentRows b.tasks taskId) :
    YieldsSound k (Tasks.refuseCompletion taskId veto) w := by
  unfold Tasks.refuseCompletion
  refine yields_revokeLeaseOf (fun w₁ htasks => ?_)
  have hcalm₁ := hcalm.trans (Calm.of_tasks_eq htasks)
  refine yields_store (fun requeued w₂ hC => ?_)
  cases requeued with
  | true =>
      simp only [if_true]
      have h₂ := noDangling_of_sound hC trivial (hcalm₁.noDangling hold)
      exact yieldsSound_store trivial h₂ (fun _ w₃ h₃ => h₃)
  | false =>
      simp only [Bool.false_eq_true, if_false]
      obtain ⟨hsame, hcap⟩ := hC.reply rfl
      obtain ⟨t', ht', hrow⟩ := hcalm₁.get?_of_get? ht
      have hreached : taskRetryLimit ≤ t.attempts := by
        rcases hcap t' ht' with hended | hreached
        · exact absurd (hrow.status ▸ hended) hopen
        · exact hrow.attempts ▸ hreached
      exact yieldsSound_close (hcalm₁.trans (Calm.of_tasks_eq hsame)) hold (hcovered hreached)
        ht hopen (by decide) (fun _ w' h => h)

theorem yieldsSound_completeTask {taskId : String} {req : Option CompleteTaskRequest}
    (hcond : CompletesSound k.dependentRows taskId req w.state) (hold : NoDangling w.state.tasks) :
    YieldsSound k (Tasks.completeTask taskId req) w := by
  rw [Tasks.completeTask_eq]
  refine yields_requireTask (fun w' hsame => hsame ▸ hold) (fun t w₁ hsame₁ hget => ?_)
  have hold₁ : NoDangling w₁.state.tasks := hsame₁ ▸ hold
  obtain ⟨hack, hcap⟩ := hcond t hget
  by_cases hclosed : Tasks.IsClosed t.status
  · simp only [if_pos hclosed]
    exact hold₁
  simp only [if_neg hclosed]
  refine yields_revokeLeaseOf (fun w₂ htasks => ?_)
  have htasks₂ : w₂.state.tasks = w.state.tasks :=
    htasks.trans (congrArg Board.tasks hsame₁)
  by_cases hrequested : t.status = .cancelRequested
  · simp only [if_pos hrequested]
    refine yieldsSound_store ⟨fun _ => ?_, fun h => by cases h⟩ (htasks₂.symm ▸ hold)
      (fun _ w₃ h₃ => h₃)
    rw [htasks₂]
    exact hack hrequested
  simp only [if_neg hrequested]
  have hopen := not_isTerminal_of_not_isClosed hclosed hrequested
  have hcalm₂ : Calm w.state w₂.state := Calm.of_tasks_eq htasks₂
  have hrest : ∀ (stored : Bool) (w₃ : Timed Board), Calm w.state w₃.state →
      YieldsSound k
        (Tasks.settleCompletion taskId t (req.bind CompleteTaskRequest.result) stored) w₃ := by
    intro stored w₃ hcalm₃
    unfold Tasks.settleCompletion
    cases hveto : ReviewerGate.reviewerCompletionVeto t (req.bind CompleteTaskRequest.result) with
    | some veto =>
        refine yieldsSound_refuseCompletion hcalm₃ hold hget hopen (fun hreached => ?_)
        exact hcap hopen hreached (by simp [hveto])
    | none =>
        refine yieldsSound_store ⟨fun hdead => absurd hdead (by decide), fun h => by cases h⟩
          (hcalm₃.noDangling hold) (fun _ w₄ h₄ => ?_)
        exact yieldsSound_triggerDownstream h₄ (fun _ h₅ => h₅)
  cases hresult : req.bind CompleteTaskRequest.result with
  | none =>
      rw [hresult] at hrest
      exact hrest false w₂ hcalm₂
  | some result =>
      rw [hresult] at hrest
      refine yields_store (fun stored w₃ hC => ?_)
      refine hrest stored w₃ (hcalm₂.trans (calm_of_contract hC (fun u hu => ?_)))
      rw [htasks₂, hget] at hu
      cases hu
      exact fun hcompleted => hclosed (.inl hcompleted)

theorem yieldsSound_consumeFailure {taskId reason : String} {t : Task} (hcalm : Calm b w.state)
    (hold : NoDangling b.tasks) (ht : b.tasks.get? taskId = some t)
    (hopen : ¬t.status.IsTerminal) (hcovered : Covered k.dependentRows b.tasks taskId) :
    YieldsSound k (Tasks.consumeFailure taskId reason) w := by
  unfold Tasks.consumeFailure
  refine yields_revokeLeaseOf (fun w₁ htasks => ?_)
  exact yieldsSound_close (hcalm.trans (Calm.of_tasks_eq htasks)) hold hcovered ht hopen
    (by decide) (fun _ w' h => h)

theorem yieldsSound_failTask {taskId : String} {req : Option FailTaskRequest}
    (hcond : FailsSound k.dependentRows taskId req w.state) (hold : NoDangling w.state.tasks) :
    YieldsSound k (Tasks.failTask taskId req) w := by
  unfold Tasks.failTask
  refine yields_requireTask (fun w' hsame => hsame ▸ hold) (fun t w₁ hsame₁ hget => ?_)
  have hold₁ : NoDangling w₁.state.tasks := hsame₁ ▸ hold
  have hcalm₁ : Calm w.state w₁.state := Calm.of_tasks_eq (congrArg Board.tasks hsame₁)
  by_cases hblank : Text.strip ((req.map FailTaskRequest.reason).getD "") = ""
  · simp only [if_pos hblank]
    exact hold₁
  simp only [if_neg hblank]
  obtain ⟨hack, hconsumed⟩ := hcond hblank t hget
  by_cases hclosed : Tasks.IsClosed t.status
  · simp only [if_pos hclosed]
    exact hold₁
  simp only [if_neg hclosed]
  by_cases hrequested : t.status = .cancelRequested
  · simp only [if_pos hrequested]
    refine yieldsSound_store ⟨fun _ => ?_, fun h => by cases h⟩ hold₁ (fun _ w₂ h₂ => h₂)
    rw [hsame₁]
    exact hack hrequested
  simp only [if_neg hrequested]
  have hopen := not_isTerminal_of_not_isClosed hclosed hrequested
  by_cases hrequeue : (req.map FailTaskRequest.requeue).getD false = true
  · simp only [if_pos hrequeue]
    refine yields_store (fun requeued w₂ hC => ?_)
    cases requeued with
    | true =>
        simp only [if_true]
        have h₂ := noDangling_of_sound hC trivial (hcalm₁.noDangling hold)
        exact yieldsSound_store trivial h₂ (fun _ w₃ h₃ => h₃)
    | false =>
        simp only [Bool.false_eq_true, if_false]
        obtain ⟨hsame, hcap⟩ := hC.reply rfl
        refine yieldsSound_consumeFailure (hcalm₁.trans (Calm.of_tasks_eq hsame)) hold hget hopen
          (hconsumed hopen (fun _ => ?_))
        rw [← hsame₁] at hget
        exact (hcap t hget).resolve_left hopen
  · simp only [if_neg hrequeue]
    exact yieldsSound_consumeFailure hcalm₁ hold hget hopen
      (hconsumed hopen (fun h => absurd h hrequeue))

theorem yieldsSound_unblockTask {taskId : String}
    (hcond : Sound w.state.tasks (.unblockTask taskId)) (hold : NoDangling w.state.tasks) :
    YieldsSound k (Tasks.unblockTask taskId) w := by
  unfold Tasks.unblockTask
  refine yieldsSound_store hcond hold (fun unblocked w' h => ?_)
  cases unblocked <;> exact h

theorem yieldsSound_cancelTask {taskId : String} {req : Option CancelTaskRequest}
    (hcond : CancelsSound k.dependentRows taskId w.state) (hold : NoDangling w.state.tasks) :
    YieldsSound k (Tasks.cancelTask taskId req) w := by
  unfold Tasks.cancelTask
  refine yields_requireTask (fun w' hsame => hsame ▸ hold) (fun t w₁ hsame₁ hget => ?_)
  have hold₁ : NoDangling w₁.state.tasks := hsame₁ ▸ hold
  by_cases hended : t.status.IsTerminal
  · simp only [if_pos hended]
    exact hold₁
  simp only [if_neg hended]
  have hopen : ∀ w' : Timed Board, Calm w.state w'.state → ∀ u,
      w'.state.tasks.get? taskId = some u → u.status ≠ .completed := by
    intro w' hcalm u hu hcompleted
    obtain ⟨u', hu', hstatus⟩ := hcalm.exists_row hget
    cases Option.some.inj (hu.symm.trans hu')
    exact hended (.inl (hstatus ▸ hcompleted))
  refine yields_getByTask (fun lease w₂ hsame₂ => ?_)
  have hcalm₂ : Calm w.state w₂.state :=
    Calm.of_tasks_eq (congrArg Board.tasks (hsame₂.trans hsame₁))
  cases lease with
  | none =>
      refine yields_store (fun r w₃ hC₃ => ?_)
      have hcalm₃ := hcalm₂.trans (calm_of_contract hC₃ (hopen w₂ hcalm₂))
      exact yieldsSound_close hcalm₃ hold (hcond t hget hended) hget hended (by decide)
        (fun _ w' h => h)
  | some lease =>
      refine yields_store (fun r w₃ hC₃ => ?_)
      have hcalm₃ := hcalm₂.trans (calm_of_contract hC₃ trivial)
      refine yields_store (fun r w₄ hC₄ => ?_)
      have hcalm₄ := hcalm₃.trans (calm_of_contract hC₄ (hopen w₃ hcalm₃))
      exact yieldsSound_close hcalm₄ hold (hcond t hget hended) hget hended (by decide)
        (fun _ w' h => h)

end Handlers

end HermesCluster
