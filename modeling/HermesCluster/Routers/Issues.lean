import HermesCluster.Routers.Calls
/-!
# What each handler issues

One lemma per handler: run on any store that keeps the contract, it issues only
operations that `Issued` lists. The invariants of the task state machine are
derived from that list, not from the handlers.
-/

namespace HermesCluster

open Program hiding pure bind

section Rules

variable [Unicode] {k : Backend} {c : Call} {w₀ w : Timed Board} {b₁ : Board}
  {α α' : Type}

/-- `p`, run from `w` by the call `c` that began on `w₀`, issues what `Issued`
lists and ends with `Q`. -/
abbrev Meets (k : Backend) (c : Call) (w₀ : Timed Board) (p : Api α) (w : Timed Board)
    (Q : Except ApiError α → Timed Board → Prop) : Prop :=
  p.Wp (Contract k) (fun w op => Issued c w₀ w.state op) w Q

/-- `p` issues what `Issued` lists. -/
abbrev MeetsAny (k : Backend) (c : Call) (w₀ : Timed Board) (p : Api α) (w : Timed Board) :
    Prop :=
  Meets k c w₀ p w (fun _ _ => True)

variable {Q : Except ApiError α → Timed Board → Prop}

theorem meets_store {op : StoreOp} {f : op.Res → Api α} (hop : Issued c w₀ w.state op)
    (h : ∀ r w', Contract k op w r w' → Meets k c w₀ (f r) w' Q) :
    Meets k c w₀ (store op >>= f) w Q :=
  wp_perform.mpr ⟨hop, h⟩

theorem meets_getTask {taskId : String} {f : Option Task → Api α}
    (h : ∀ w', w'.state = w.state → Meets k c w₀ (f (w.state.tasks.get? taskId)) w' Q) :
    Meets k c w₀ (store (.getTask taskId) >>= f) w Q := by
  refine meets_store (.idle trivial) (fun r w' hC => ?_)
  obtain ⟨rfl, hsame⟩ := hC.reply
  exact h w' hsame

theorem meets_getAllTasks {f : List Task → Api α}
    (h : ∀ w', w'.state = w.state → Meets k c w₀ (f w.state.tasks.rows) w' Q) :
    Meets k c w₀ (store .getAllTasks >>= f) w Q := by
  refine meets_store (.idle trivial) (fun r w' hC => ?_)
  obtain ⟨rfl, hsame⟩ := hC.reply
  exact h w' hsame

theorem meetsAny_bind {p : Api α} {f : α → Api α'} (hp : MeetsAny k c w₀ p w)
    (hf : ∀ a w', MeetsAny k c w₀ (f a) w') : MeetsAny k c w₀ (p >>= f) w := by
  refine (wp_bind (Q := fun _ _ => True)).mpr (hp.mono (fun r w' _ => ?_))
  cases r with
  | ok a => exact hf a w'
  | error e => trivial

/-- The rest of a handler once its task is read. -/
theorem meetsAny_requireTask {taskId : String} {f : Task → Api α}
    (h : ∀ t w', w'.state = w.state → w.state.tasks.get? taskId = some t →
      MeetsAny k c w₀ (f t) w') :
    MeetsAny k c w₀ (Tasks.requireTask taskId >>= f) w := by
  rw [Tasks.requireTask, bind_assoc]
  refine meets_getTask (fun w' hsame => ?_)
  cases hget : w.state.tasks.get? taskId with
  | none => trivial
  | some t => exact h t w' hsame hget

/-- Operations that leave every row calm. -/
def CalmOp (b : Board) : StoreOp → Prop
  | .utcnow | .getTask _ | .getAllTasks | .getAllNodes | .getDependents _
  | .getTriggerChain _ | .getLeaseByTask _ | .getActiveLeases | .getExpiredLeases
  | .unleasedRunningTasks | .createLease _ _ _ | .revokeLease _ => True
  | .setTaskResult taskId _ | .setTaskBallot taskId _ | .setTaskCancelRequeue taskId _ =>
      ∀ t, b.tasks.get? taskId = some t → t.status ≠ .completed
  | _ => False

theorem calmRow_of_change {now : Nat} {b : Board} {op : StoreOp} {t t' : Task}
    (hop : CalmOp b op) (ht : b.tasks.get? t.id = some t) (h : Change k now b op t t') :
    CalmRow t t' := by
  cases h with
  | result hid | ballot hid | cancelRequeue hid =>
      have hopen : t.status ≠ .completed := hop t (hid ▸ ht)
      exact ⟨⟨⟨rfl, rfl, rfl, rfl, fun h => absurd (h.elim id id) hopen⟩, rfl, fun _ => rfl⟩,
        rfl, rfl, rfl⟩
  | _ => exact hop.elim

/-- An operation that adds no row relates the rows as its changes do. -/
theorem forall₂_of_contract {op : StoreOp} {r : op.Res} {w' : Timed Board}
    {R : Task → Task → Prop} (hC : Contract k op w r w') (hrefl : ∀ t, R t t)
    (hchange : ∀ t ∈ w.state.tasks.rows, ∀ t',
      Change k (w.clock 0) w.state op t t' → R t t')
    (hcreated : ∀ t, ¬Created k (w.clock 0) op t) :
    List.Forall₂ R w.state.tasks.rows w'.state.tasks.rows := by
  obtain ⟨kept, new, hrows, hkept, hnew⟩ := hC.tasks
  have hnone : new = [] := List.eq_nil_iff_forall_not_mem.mpr
    (fun t ht => hcreated t (hnew t ht))
  rw [hnone, List.append_nil] at hrows
  rw [hrows]
  refine Table.forall₂_imp_of_mem hkept (fun t ht t' h => ?_)
  rcases h with rfl | hrow
  · exact hrefl t'
  · exact hchange t ht t' hrow

theorem calm_of_contract {op : StoreOp} {r : op.Res} {w' : Timed Board}
    (hC : Contract k op w r w') (hop : CalmOp w.state op) : Calm w.state w'.state :=
  forall₂_of_contract hC CalmRow.refl
    (fun _ ht _ hchange => calmRow_of_change hop (Table.get?_of_mem ht) hchange)
    (fun t hnew => by cases hnew <;> exact hop)

theorem meets_calm {op : StoreOp} {f : op.Res → Api α} (hidle : Idle op)
    (hop : CalmOp w.state op) (hcalm : Calm b₁ w.state)
    (h : ∀ r w', Calm b₁ w'.state → Meets k c w₀ (f r) w' Q) :
    Meets k c w₀ (store op >>= f) w Q :=
  meets_store (.idle hidle) (fun r w' hC => h r w' (hcalm.trans (calm_of_contract hC hop)))

omit [Unicode] in
theorem Calm.exists_row {b b' : Board} (h : Calm b b') {taskId : String} {t : Task}
    (ht : b.tasks.get? taskId = some t) :
    ∃ t', b'.tasks.get? taskId = some t' ∧ t'.status = t.status := by
  obtain ⟨t', ht', hrow⟩ := h.get?_of_get? ht
  exact ⟨t', ht', hrow.status⟩

omit [Unicode] in
theorem not_refuses_of_open {s status : TaskStatus} (h : ¬s.IsTerminal) :
    ¬ClusterState.Refuses s status :=
  fun href => h href.1

omit [Unicode] in
theorem isTerminal_of_isClosed {s : TaskStatus} (h : Tasks.IsClosed s) : s.IsTerminal := by
  rcases h with rfl | rfl | rfl <;> decide

omit [Unicode] in
theorem not_isTerminal_of_not_isClosed {s : TaskStatus} (hclosed : ¬Tasks.IsClosed s)
    (hrequested : s ≠ .cancelRequested) : ¬s.IsTerminal := by
  rintro (h | h | h | h)
  · exact hclosed (.inl h)
  · exact hclosed (.inr (.inl h))
  · exact hclosed (.inr (.inr h))
  · exact hrequested h

theorem issued_close {b : Board} {taskId reason : String} {status : TaskStatus} {t : Task}
    (hcalm : Calm b₁ b) (ht : b₁.tasks.get? taskId = some t)
    (hguard : ¬ClusterState.Refuses t.status status) (hready : status ≠ .ready)
    (hrunning : status ≠ .running) :
    Issued c w₀ b (.setTaskStatus taskId status reason) := by
  obtain ⟨t', ht', hstatus⟩ := hcalm.exists_row ht
  exact .close hready hrunning ht' (hstatus ▸ hguard)

/-! ## Shared parts of the handlers -/

theorem meets_getByTask {taskId : String} {f : Option Lease → Api α}
    (hcalm : Calm b₁ w.state)
    (h : ∀ r w', Calm b₁ w'.state → Meets k c w₀ (f r) w' Q) :
    Meets k c w₀ (LeaseManager.getByTask taskId >>= f) w Q := by
  unfold LeaseManager.getByTask
  split
  · exact h none w hcalm
  · exact meets_calm trivial trivial hcalm h

theorem meets_revokeLeaseOf {taskId : String} {f : Unit → Api α}
    (hcalm : Calm b₁ w.state)
    (h : ∀ w', Calm b₁ w'.state → Meets k c w₀ (f ()) w' Q) :
    Meets k c w₀ (Tasks.revokeLeaseOf taskId >>= f) w Q := by
  rw [Tasks.revokeLeaseOf, bind_assoc]
  refine meets_getByTask hcalm (fun r w' hcalm' => ?_)
  cases r with
  | none => exact h w' hcalm'
  | some lease => exact meets_calm trivial trivial hcalm' (fun _ w'' hcalm'' => h w'' hcalm'')

/-- `all(...)` over the dependencies answers for the board it reads. -/
theorem meets_allCompleted {deps : List String} {f : Bool → Api α}
    (h : ∀ r w', w'.state = w.state →
      (r = true → ∀ dep ∈ deps,
        (w.state.tasks.get? dep).map Task.status = some .completed) →
      Meets k c w₀ (f r) w' Q) :
    Meets k c w₀ (Tasks.allCompleted deps >>= f) w Q := by
  induction deps generalizing w with
  | nil => exact h true w rfl (fun _ dep hdep => by cases hdep)
  | cons dep deps ih =>
      rw [Tasks.allCompleted, bind_assoc]
      refine meets_getTask (fun w' hsame => ?_)
      cases hget : w.state.tasks.get? dep with
      | none => exact h false w' hsame (fun hfalse => by cases hfalse)
      | some t =>
          by_cases hdone : t.status = .completed
          · simp only [if_pos hdone]
            refine ih (fun r w'' hsame' hall => h r w'' (hsame'.trans hsame) (fun hr => ?_))
            rw [hsame] at hall
            intro dep' hdep'
            rcases List.mem_cons.mp hdep' with rfl | hmem
            · rw [hget, Option.map_some, hdone]
            · exact hall hr dep' hmem
          · simp only [if_neg hdone]
            exact h false w' hsame (fun hfalse => by cases hfalse)

theorem meetsAny_store {op : StoreOp} {f : op.Res → Api α} (hop : Issued c w₀ w.state op)
    (h : ∀ r w', MeetsAny k c w₀ (f r) w') : MeetsAny k c w₀ (store op >>= f) w :=
  ⟨hop, fun r w' _ => h r w'⟩

theorem meets_forM {ι : Type} {xs : List ι} {f : ι → Api PUnit}
    (h : ∀ x w, Meets k c w₀ (f x) w (fun r _ => r = .ok ⟨⟩)) :
    Meets k c w₀ (xs.forM f) w (fun r _ => r = .ok ⟨⟩) :=
  (wp_forM (I := fun _ => True) xs f
    (fun x _ w _ => (h x w).mono (fun _ _ hr => ⟨hr, trivial⟩)) trivial).mono
    (fun _ _ hr => hr.1)

omit [Unicode] in
theorem calm_refl (w : Timed Board) : Calm w.state w.state := Calm.of_tasks_eq rfl

theorem meets_cancelDependent (reason depId : String) (w : Timed Board) :
    Meets k c w₀ (Tasks.cancelDependent reason depId) w (fun r _ => r = .ok ⟨⟩) := by
  unfold Tasks.cancelDependent
  refine meets_getTask (fun w₁ hsame => ?_)
  cases hget : w.state.tasks.get? depId with
  | none => rfl
  | some dep =>
      by_cases hended : dep.status.IsTerminal
      · simp only [if_pos hended]
        rfl
      · simp only [if_neg hended]
        rw [← hsame] at hget
        refine meets_getByTask (calm_refl w₁) (fun r w₂ hcalm => ?_)
        cases r with
        | none =>
            refine meets_store (issued_close hcalm hget (not_refuses_of_open hended) ?_ ?_)
              (fun _ _ _ => rfl) <;> decide
        | some lease =>
            refine meets_calm trivial trivial hcalm (fun _ w₃ hcalm' => ?_)
            refine meets_store (issued_close hcalm' hget (not_refuses_of_open hended) ?_ ?_)
              (fun _ _ _ => rfl) <;> decide

theorem meetsAny_cascade {taskId reason : String} :
    MeetsAny k c w₀ (Tasks.cascadeCancelDependents taskId reason) w := by
  unfold Tasks.cascadeCancelDependents
  refine meets_store (.idle trivial) (fun chain w₁ _ => ?_)
  refine meetsAny_bind ((meets_forM (fun depId w => ?_)).mono (fun _ _ _ => trivial))
    (fun _ _ => trivial)
  exact meets_cancelDependent reason depId w

theorem meets_promoteDependent (depId : String) (w : Timed Board) :
    Meets k c w₀ (Tasks.promoteDependent depId) w (fun r _ => r = .ok ⟨⟩) := by
  unfold Tasks.promoteDependent
  refine meets_getTask (fun w₁ hsame₁ => ?_)
  cases hget : w.state.tasks.get? depId with
  | none => rfl
  | some dep =>
      by_cases hpending : dep.status = .pending
      · simp only [if_neg (not_not.mpr hpending)]
        refine meets_allCompleted (fun r w₂ hsame₂ hall => ?_)
        cases r with
        | false => rfl
        | true =>
            refine meets_getAllTasks (fun w₃ hsame₃ => ?_)
            have hsame : w₃.state = w.state := hsame₃.trans (hsame₂.trans hsame₁)
            rw [← hsame] at hget
            have hopen : ¬dep.status.IsTerminal := TaskStatus.not_isTerminal_of_pending hpending
            cases hhold : LandingGate.holdReason w₂.state.tasks.rows dep with
            | some reason =>
                by_cases hnew : dep.failReason.getD "" ≠ reason
                · simp only [if_pos hnew]
                  refine meets_store (.close ?_ ?_ hget (not_refuses_of_open hopen))
                    (fun _ _ _ => rfl) <;> decide
                · simp only [if_neg hnew]
                  rfl
            | none =>
                refine meets_store (.promote hget hpending ?_ ?_) (fun _ _ _ => rfl)
                · intro d hd
                  rw [hsame, ← hsame₁]
                  exact hall rfl d hd
                · rw [hsame₃, hhold]
      · simp only [if_pos hpending]
        rfl

theorem meetsAny_triggerDownstream {taskId : String} :
    MeetsAny k c w₀ (Tasks.triggerDownstream taskId) w := by
  unfold Tasks.triggerDownstream
  refine meets_store (.idle trivial) (fun dependents w₁ _ => ?_)
  refine meetsAny_bind ((meets_forM (fun depId w => ?_)).mono (fun _ _ _ => trivial))
    (fun _ _ => meets_store (.idle trivial) (fun _ _ _ => trivial))
  exact meets_promoteDependent depId w

/-! ## Submit -/

theorem meetsAny_bind_reads {p : Api α} {f : α → Api α'}
    (hp : Meets k c w₀ p w (fun _ w' => w'.state = w.state))
    (hf : ∀ a w', w'.state = w.state → MeetsAny k c w₀ (f a) w') :
    MeetsAny k c w₀ (p >>= f) w := by
  refine (wp_bind (Q := fun _ _ => True)).mpr (hp.mono (fun r w' hsame => ?_))
  cases r with
  | ok a => exact hf a w' hsame
  | error e => trivial

theorem meets_checkBrief (req : SubmitTaskRequest) :
    Meets k c w₀ (Tasks.checkBrief req) w (fun _ w' => w'.state = w.state) := by
  unfold Tasks.checkBrief
  dsimp only
  repeat' split
  all_goals rfl

theorem meets_liveReviewer (req : SubmitTaskRequest) :
    Meets k c w₀ (Tasks.liveReviewer req) w (fun _ w' => w'.state = w.state) := by
  unfold Tasks.liveReviewer
  split
  · exact meets_getAllTasks (fun w' hsame => hsame)
  · rfl

theorem meets_checkLanding (req : SubmitTaskRequest) :
    Meets k c w₀ (Tasks.checkLanding req) w (fun _ w' => w'.state = w.state) := by
  unfold Tasks.checkLanding
  dsimp only
  split
  · rfl
  · split
    · rfl
    · split
      · refine meets_getAllTasks (fun w' hsame => ?_)
        split <;> exact hsame
      · rfl

theorem meets_checkCapabilities (req : SubmitTaskRequest) :
    Meets k c w₀ (Tasks.checkCapabilities req) w (fun _ w' => w'.state = w.state) := by
  unfold Tasks.checkCapabilities
  split
  · rfl
  · refine meets_store (.idle trivial) (fun r w' hC => ?_)
    have hsame : w'.state = w.state := hC.reply
    dsimp only
    split <;> exact hsame

theorem meets_missingDeps (deps : List String) :
    Meets k c w₀ (Tasks.missingDeps deps) w (fun _ w' => w'.state = w.state) := by
  induction deps generalizing w with
  | nil => rfl
  | cons dep deps ih =>
      unfold Tasks.missingDeps
      refine meets_getTask (fun w₁ hsame₁ => ?_)
      refine wp_bind.mpr ((ih (w := w₁)).mono (fun r w₂ hsame₂ => ?_))
      cases r with
      | ok missing => exact hsame₂.trans hsame₁
      | error e => exact hsame₂.trans hsame₁

theorem meetsAny_submitTask {taskId : String} {req : SubmitTaskRequest}
    (hc : c = .submit taskId req) : MeetsAny k c w₀ (Tasks.submitTask taskId req) w₀ := by
  unfold Tasks.submitTask
  refine meetsAny_bind_reads (meets_checkBrief req) (fun _ w₁ hsame₁ => ?_)
  refine meetsAny_bind_reads (meets_liveReviewer req) (fun live w₂ hsame₂ => ?_)
  cases live with
  | some t => trivial
  | none =>
      refine meetsAny_bind_reads (meets_checkLanding req) (fun _ w₃ hsame₃ => ?_)
      refine meetsAny_bind_reads (meets_checkCapabilities req) (fun _ w₄ hsame₄ => ?_)
      refine meetsAny_bind_reads (meets_missingDeps _) (fun missing w₅ hsame₅ => ?_)
      have hsame : w₅.state = w₀.state :=
        hsame₅.trans (hsame₄.trans (hsame₃.trans (hsame₂.trans hsame₁)))
      by_cases hmissing : missing ≠ []
      · simp only [if_pos hmissing]
        trivial
      · simp only [if_neg hmissing]
        refine meetsAny_store (.submit hc hsame) (fun _ _ => ?_)
        exact meetsAny_store (.idle trivial) (fun _ _ =>
          meetsAny_store (.idle trivial) (fun _ _ => trivial))

/-! ## Ending a task -/

theorem meetsAny_refuseCompletion {taskId veto : String} {t : Task}
    (hretries : c.Retries taskId t) (hcalm : Calm w₀.state w.state)
    (ht : w₀.state.tasks.get? taskId = some t) :
    MeetsAny k c w₀ (Tasks.refuseCompletion taskId veto) w := by
  unfold Tasks.refuseCompletion
  refine meets_revokeLeaseOf hcalm (fun w₁ hcalm₁ => ?_)
  refine meets_store (.retry hretries hcalm₁ ht) (fun requeued w₂ hC => ?_)
  cases requeued with
  | true => exact meetsAny_store (.idle trivial) (fun _ _ => trivial)
  | false =>
      have hcalm₂ := hcalm₁.trans (Calm.of_tasks_eq (hC.reply rfl).1)
      refine meetsAny_store
        (issued_close hcalm₂ ht (not_refuses_of_open hretries.1) (by decide) (by decide))
        (fun _ w₃ => ?_)
      exact meetsAny_bind meetsAny_cascade (fun _ _ => trivial)

theorem meetsAny_completeTask {taskId : String} {req : Option CompleteTaskRequest}
    (hc : c = .complete taskId req) : MeetsAny k c w₀ (Tasks.completeTask taskId req) w₀ := by
  rw [Tasks.completeTask_eq]
  refine meetsAny_requireTask (fun t w₁ hsame₁ ht => ?_)
  by_cases hclosed : Tasks.IsClosed t.status
  · simp only [if_pos hclosed]
    trivial
  · simp only [if_neg hclosed]
    refine meets_revokeLeaseOf (Calm.of_tasks_eq (congrArg Board.tasks hsame₁))
      (fun w₂ hcalm₂ => ?_)
    by_cases hrequested : t.status = .cancelRequested
    · simp only [if_pos hrequested]
      refine meetsAny_store (issued_close hcalm₂ ht ?_ (by decide) (by decide))
        (fun _ _ => trivial)
      exact fun href => href.2 ⟨hrequested, rfl⟩
    · simp only [if_neg hrequested]
      have hopen := not_isTerminal_of_not_isClosed hclosed hrequested
      -- the same rest, with or without a result to store
      have hrest : ∀ (stored : Bool) (w₃ : Timed Board), Calm w₀.state w₃.state →
          MeetsAny k c w₀
            (Tasks.settleCompletion taskId t (req.bind CompleteTaskRequest.result) stored) w₃ := by
        intro stored w₃ hcalm₃
        unfold Tasks.settleCompletion
        cases hveto : ReviewerGate.reviewerCompletionVeto t
            (req.bind CompleteTaskRequest.result) with
        | some veto =>
            refine meetsAny_refuseCompletion ⟨hopen, .inr ⟨req, hc, ?_⟩⟩ hcalm₃ ht
            rw [hveto]
            exact Option.some_ne_none veto
        | none =>
            refine meetsAny_store
              (issued_close hcalm₃ ht (not_refuses_of_open hopen) (by decide) (by decide))
              (fun _ w₄ => ?_)
            exact meetsAny_bind meetsAny_triggerDownstream (fun _ _ => trivial)
      cases hresult : req.bind CompleteTaskRequest.result with
      | none =>
          rw [hresult] at hrest
          exact hrest false w₂ hcalm₂
      | some body =>
          rw [hresult] at hrest
          refine meets_calm trivial ?_ hcalm₂ hrest
          intro t' ht'
          obtain ⟨u, hu, hrow⟩ := hcalm₂.of_get? ht'
          rw [ht] at hu
          cases hu
          rw [hrow.status]
          exact TaskStatus.ne_completed_of_open hopen

theorem meetsAny_consumeFailure {taskId reason : String} {t : Task}
    (hopen : ¬t.status.IsTerminal) (hcalm : Calm w₀.state w.state)
    (ht : w₀.state.tasks.get? taskId = some t) :
    MeetsAny k c w₀ (Tasks.consumeFailure taskId reason) w := by
  unfold Tasks.consumeFailure
  refine meets_revokeLeaseOf hcalm (fun w₁ hcalm₁ => ?_)
  refine meetsAny_store
    (issued_close hcalm₁ ht (not_refuses_of_open hopen) (by decide) (by decide))
    (fun _ w₂ => ?_)
  exact meetsAny_bind meetsAny_cascade (fun _ _ => trivial)

theorem meetsAny_failTask {taskId : String} {req : Option FailTaskRequest}
    (hc : c = .fail taskId req) : MeetsAny k c w₀ (Tasks.failTask taskId req) w₀ := by
  unfold Tasks.failTask
  refine meetsAny_requireTask (fun t w₁ hsame₁ ht => ?_)
  have hcalm₁ : Calm w₀.state w₁.state := Calm.of_tasks_eq (congrArg Board.tasks hsame₁)
  dsimp only
  split
  · trivial
  · rename_i hreason
    split
    · trivial
    · rename_i hclosed
      split
      · rename_i hrequested
        refine meetsAny_store (issued_close hcalm₁ ht ?_ (by decide) (by decide))
          (fun _ _ => trivial)
        exact fun href => href.2 ⟨hrequested, rfl⟩
      · rename_i hrequested
        have hopen := not_isTerminal_of_not_isClosed hclosed hrequested
        split
        · rename_i hrequeue
          have hretries : c.Retries taskId t := by
            cases req with
            | none => cases hrequeue
            | some req => exact ⟨hopen, .inl ⟨req, hc, hrequeue, hreason⟩⟩
          refine meets_store (.retry hretries hcalm₁ ht) (fun requeued w₂ hC => ?_)
          cases requeued with
          | true => exact meetsAny_store (.idle trivial) (fun _ _ => trivial)
          | false =>
              have hcalm₂ := hcalm₁.trans (Calm.of_tasks_eq (hC.reply rfl).1)
              exact meetsAny_consumeFailure hopen hcalm₂ ht
        · exact meetsAny_consumeFailure hopen hcalm₁ ht

omit [Unicode] in
theorem not_completed_of_calm {b : Board} {taskId : String} {t : Task}
    (hcalm : Calm w₀.state b) (ht : w₀.state.tasks.get? taskId = some t)
    (hopen : ¬t.status.IsTerminal) :
    ∀ t', b.tasks.get? taskId = some t' → t'.status ≠ .completed := by
  intro t' ht'
  obtain ⟨u, hu, hrow⟩ := hcalm.of_get? ht'
  rw [ht] at hu
  cases hu
  rw [hrow.status]
  exact TaskStatus.ne_completed_of_open hopen

theorem meetsAny_cancelTask {taskId : String} {req : Option CancelTaskRequest} :
    MeetsAny k c w₀ (Tasks.cancelTask taskId req) w₀ := by
  unfold Tasks.cancelTask
  refine meetsAny_requireTask (fun t w₁ hsame₁ ht => ?_)
  dsimp only
  split
  · trivial
  · rename_i hopen
    refine meets_getByTask (Calm.of_tasks_eq (congrArg Board.tasks hsame₁))
      (fun lease w₂ hcalm₂ => ?_)
    cases lease with
    | none =>
        refine meets_calm trivial (not_completed_of_calm hcalm₂ ht hopen) hcalm₂
          (fun _ w₃ hcalm₃ => ?_)
        refine meetsAny_store
          (issued_close hcalm₃ ht (not_refuses_of_open hopen) (by decide) (by decide))
          (fun _ w₄ => ?_)
        exact meetsAny_bind meetsAny_cascade (fun _ _ => trivial)
    | some lease =>
        refine meets_calm trivial trivial hcalm₂ (fun _ w₃ hcalm₃ => ?_)
        refine meets_calm trivial (not_completed_of_calm hcalm₃ ht hopen) hcalm₃
          (fun _ w₄ hcalm₄ => ?_)
        refine meetsAny_store
          (issued_close hcalm₄ ht (not_refuses_of_open hopen) (by decide) (by decide))
          (fun _ w₅ => ?_)
        exact meetsAny_bind meetsAny_cascade (fun _ _ => trivial)

/-! ## Blocking and answering -/

theorem meetsAny_unblockTask {taskId : String} :
    MeetsAny k c w₀ (Tasks.unblockTask taskId) w := by
  unfold Tasks.unblockTask
  refine meetsAny_store (.idle trivial) (fun unblocked w₁ => ?_)
  split <;> trivial

theorem meetsAny_blockTask {taskId : String} {req : BlockTaskRequest} :
    MeetsAny k c w₀ (Tasks.blockTask taskId req) w₀ := by
  unfold Tasks.blockTask
  refine meetsAny_requireTask (fun t w₁ hsame₁ ht => ?_)
  split
  · trivial
  · rename_i hopen
    split
    · trivial
    · refine meets_calm trivial trivial (Calm.of_tasks_eq (congrArg Board.tasks hsame₁))
        (fun now w₂ hcalm₂ => ?_)
      split
      · trivial
      · refine meets_revokeLeaseOf hcalm₂ (fun w₃ hcalm₃ => ?_)
        refine meets_calm trivial (not_completed_of_calm hcalm₃ ht hopen) hcalm₃
          (fun _ w₄ hcalm₄ => ?_)
        refine meetsAny_store
          (issued_close hcalm₄ ht (not_refuses_of_open hopen) (by decide) (by decide))
          (fun ok w₅ => ?_)
        split
        · exact meetsAny_store (.idle trivial) (fun _ _ => trivial)
        · trivial

theorem not_isAnswered_of_recordAnswer {now : Nat} {ballot answered : Ballot}
    {answer answeredBy : String}
    (h : BallotRules.recordAnswer now ballot answer answeredBy = .ok answered) :
    ¬BallotRules.IsAnswered ballot := by
  intro hanswered
  rw [BallotRules.recordAnswer, if_pos hanswered] at h
  cases h

theorem meetsAny_answerTask {taskId : String} {req : AnswerTaskRequest}
    (hc : c = .answer taskId req) : MeetsAny k c w₀ (Tasks.answerTask taskId req) w₀ := by
  unfold Tasks.answerTask
  refine meetsAny_requireTask (fun t w₁ hsame₁ ht => ?_)
  split
  · rename_i outstanding hblocked hballot
    have hopen : ¬t.status.IsTerminal := TaskStatus.not_isTerminal_of_blocked hblocked
    split
    · trivial
    · rename_i clean hclean
      refine meets_calm trivial trivial (Calm.of_tasks_eq (congrArg Board.tasks hsame₁))
        (fun now w₂ hcalm₂ => ?_)
      split
      · trivial
      · rename_i answered hrecorded
        have hanswers : Answers req t :=
          ⟨hblocked, by rw [hclean]; exact Option.some_ne_none clean, outstanding, hballot,
            not_isAnswered_of_recordAnswer hrecorded⟩
        refine meets_calm trivial (not_completed_of_calm hcalm₂ ht hopen) hcalm₂
          (fun _ w₃ hcalm₃ => ?_)
        refine meetsAny_store (.resume hc hcalm₃ ht hanswers) (fun resumed w₄ => ?_)
        split <;> trivial
  · trivial

/-! ## Operator and worker endpoints -/

theorem meetsAny_manualAdvance {taskId : String} (hc : c = .advance taskId) :
    MeetsAny k c w₀ (Tasks.manualAdvance taskId) w₀ := by
  unfold Tasks.manualAdvance
  refine meetsAny_requireTask (fun t w₁ hsame₁ ht => ?_)
  split
  · trivial
  · rename_i hopen
    refine meets_allCompleted (fun allDone w₂ hsame₂ hall => ?_)
    cases allDone with
    | false => trivial
    | true =>
        have hget : w₂.state.tasks.get? taskId = some t := by rw [hsame₂, hsame₁, ht]
        refine meetsAny_store (.advance hc hget hopen ?_) (fun _ w₃ => ?_)
        · intro dep hdep
          rw [hsame₂]
          exact hall rfl dep hdep
        · exact meetsAny_store (.idle trivial) (fun _ _ => trivial)

theorem meetsAny_setDependencies {taskId : String} {req : SetDependenciesRequest}
    (hc : c = .setDependencies taskId req) :
    MeetsAny k c w₀ (Tasks.setDependencies taskId req) w₀ := by
  unfold Tasks.setDependencies
  refine meetsAny_requireTask (fun t w₁ hsame₁ ht => ?_)
  refine meetsAny_store (.dependencies hc hsame₁) (fun _ w₂ => ?_)
  exact meetsAny_store (.idle trivial) (fun _ _ => trivial)

theorem meetsAny_writeTaskRow {taskId : String} {assignedTo failReason : Option String} :
    MeetsAny k c w₀ (Tasks.writeTaskRow taskId assignedTo failReason) w := by
  unfold Tasks.writeTaskRow
  refine meetsAny_store (.idle trivial) (fun written w₁ => ?_)
  split <;> trivial

theorem meetsAny_create {taskId nodeId : String} :
    MeetsAny k c w₀ (LeaseManager.create taskId nodeId) w := by
  unfold LeaseManager.create
  split
  · trivial
  · split
    · trivial
    · exact ⟨.idle trivial, fun _ _ _ => trivial⟩

theorem meetsAny_claimTask {taskId : String} {req : ClaimTaskRequest} :
    MeetsAny k c w₀ (Tasks.claimTask taskId req) w₀ := by
  unfold Tasks.claimTask
  refine meetsAny_requireTask (fun t w₁ hsame₁ ht => ?_)
  split
  · trivial
  · rename_i hready
    rw [not_not] at hready
    split
    · trivial
    · have hget : w₁.state.tasks.get? taskId = some t := by rw [hsame₁, ht]
      refine meetsAny_store (.claim hget hready) (fun _ w₂ => ?_)
      refine meetsAny_bind meetsAny_writeTaskRow (fun _ w₃ => ?_)
      refine meetsAny_bind meetsAny_create (fun _ w₄ => ?_)
      exact meetsAny_store (.idle trivial) (fun _ _ => trivial)

theorem meetsAny_releaseTask {taskId : String} {req : ReleaseTaskRequest}
    (hc : c = .release taskId req) : MeetsAny k c w₀ (Tasks.releaseTask taskId req) w₀ := by
  unfold Tasks.releaseTask
  refine meetsAny_requireTask (fun t w₁ hsame₁ ht => ?_)
  split
  · trivial
  · rename_i hown
    rw [not_not] at hown
    refine meets_revokeLeaseOf (Calm.of_tasks_eq (congrArg Board.tasks hsame₁))
      (fun w₂ hcalm₂ => ?_)
    refine meetsAny_store (.release hc hcalm₂ ht hown) (fun transitioned w₃ => ?_)
    split
    · trivial
    · refine meetsAny_bind meetsAny_writeTaskRow (fun _ w₄ => ?_)
      exact meetsAny_store (.idle trivial) (fun _ _ => trivial)

end Rules

end HermesCluster
