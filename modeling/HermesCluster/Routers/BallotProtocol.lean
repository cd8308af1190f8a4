import HermesCluster.Routers.Cascade
import HermesCluster.Routers.Footprint
/-!
# The ballot protocol

A worker that cannot decide files a ballot with `/block`, and the task waits until
the owner answers. The ballot stays on the row whatever becomes of the task, so a
row alone does not say whether the owner is still asked; the history of the calls
that succeeded does.
-/

namespace HermesCluster

open Program hiding pure bind

/-! ## The ballots that are shown -/

/-- What `/ballots/pending` shows of a ballot. -/
structure PendingBallot where
  taskId : String
  title : String
  laneKey : String
  node : String
  question : String
  options : List String
  cls : String
  askedAt : Nat
  deriving DecidableEq, Repr

/-- `asked_at` is written in whole seconds. -/
def PendingBallot.AskedBefore (a b : PendingBallot) : Prop :=
  a.askedAt / 1000000 ≤ b.askedAt / 1000000

instance : DecidableRel PendingBallot.AskedBefore := fun _ _ => inferInstanceAs (Decidable (_ ≤ _))

/-- The entry of a task that is blocked on an unanswered ballot. -/
def pendingBallot (t : Task) : Option PendingBallot :=
  match t.ballot with
  | none => none
  | some ballot =>
      if t.status ≠ .blocked ∨ BallotRules.IsAnswered ballot then none
      else some
        { taskId := t.id
          title := Text.take 120 t.title
          laneKey := t.laneKey
          node := t.assignedTo.getD ""
          question := ballot.question
          options := ballot.options
          cls := ballot.cls
          askedAt := ballot.askedAt }

/-- `pending_ballots`. -/
def pendingBallots (tasks : List Task) : List PendingBallot :=
  (tasks.filterMap pendingBallot).insertionSort PendingBallot.AskedBefore

/-! ## Histories -/

/-- The calls that release a blocked task. -/
inductive Releaser where
  | unblock | advance | release | fail | cancel | complete
  deriving DecidableEq, Repr

/-- What happens to the ballots of a task. A row that is replaced has none. -/
inductive BallotEvent where
  | filed
  | answered
  | released (releaser : Releaser)
  | replaced
  deriving DecidableEq, Repr

section Events

variable [Unicode]

/-- The handlers of the task API. -/
def Call.handler : Call → Option (Api Reply)
  | submit taskId req => some (Tasks.submitTask taskId req)
  | claim taskId req => some (Tasks.claimTask taskId req)
  | release taskId req => some (Tasks.releaseTask taskId req)
  | complete taskId req => some (Tasks.completeTask taskId req)
  | fail taskId req => some (Tasks.failTask taskId req)
  | cancel taskId req => some (Tasks.cancelTask taskId req)
  | block taskId req => some (Tasks.blockTask taskId req)
  | answer taskId req => some (Tasks.answerTask taskId req)
  | unblock taskId => some (Tasks.unblockTask taskId)
  | advance taskId => some (Tasks.manualAdvance taskId)
  | setDependencies taskId req => some (Tasks.setDependencies taskId req)
  | createBatch _ | triggerPending | schedulePass | recover _ | sweep _ => none

theorem Call.prog_of_handler {c : Call} {p : Api Reply} (h : c.handler = some p) :
    c.prog = p >>= fun _ => pure () := by
  cases c with
  | createBatch | triggerPending | schedulePass | recover | sweep => cases h
  | _ =>
      obtain rfl := Option.some.inj h
      rfl

omit [Unicode] in
/-- What the reply of a handler says about the ballots of a task. A call that ends a
task with its dependents names these, or finds them by their dependencies. -/
def Call.marks (c : Call) (taskId : String) (tasks : Table Task) (reply : Reply) :
    Option BallotEvent :=
  match c with
  | submit own _ => if own = taskId ∧ reply.deduped = none then some .replaced else none
  | block own _ => if own = taskId then some .filed else none
  | answer own _ => if own = taskId then some .answered else none
  | unblock own => if own = taskId then some (.released .unblock) else none
  | advance own => if own = taskId then some (.released .advance) else none
  | release own _ => if own = taskId then some (.released .release) else none
  | fail own _ =>
      if own = taskId ∨ taskId ∈ reply.blocked.getD [] then some (.released .fail) else none
  | complete own _ =>
      if own = taskId ∨ taskId ∈ reply.blocked.getD [] then some (.released .complete) else none
  | cancel own _ =>
      if own = taskId ∨ taskId ∈ triggerChain .all tasks own then some (.released .cancel) else none
  | _ => none

/-- What a call does to the ballots of a task, if it succeeds. -/
def Call.ballotEvent (taskId : String) (c : Call) (w : Timed Backend.memory.Store) :
    Option BallotEvent :=
  match c.handler with
  | none => none
  | some p =>
      match (p.run Backend.memory.tick w).1 with
      | .ok reply => c.marks taskId (Backend.memory.board w.state).tasks reply
      | .error _ => none

/-- The history of a task's ballots over some calls. -/
def ballotEvents (taskId : String) : List TimedCall → Timed Backend.memory.Store → List BallotEvent
  | [], _ => []
  | c :: cs, w =>
      (c.call.ballotEvent taskId (c.enter w)).toList ++
        ballotEvents taskId cs (c.call.prog.run Backend.memory.tick (c.enter w)).2

end Events

/-! ## The ballot of a row -/

/-- The task is blocked. -/
def Waiting (taskId : String) (tasks : Table Task) : Prop :=
  (tasks.get? taskId).map Task.status = some .blocked

instance (taskId : String) (tasks : Table Task) : Decidable (Waiting taskId tasks) :=
  inferInstanceAs (Decidable (_ = _))

/-- The ballot on the row of a task. -/
def ballotOf (taskId : String) (tasks : Table Task) : Option Ballot :=
  (tasks.get? taskId).bind Task.ballot

/-- A row keeps its ballot, and it is still waiting unless it is freed. -/
structure Frees (taskId : String) (freed : Prop) (tasks tasks' : Table Task) : Prop where
  waiting : Waiting taskId tasks' ↔ Waiting taskId tasks ∧ ¬freed
  ballot : ballotOf taskId tasks' = ballotOf taskId tasks

section Rows

variable {taskId : String} {p q : Prop} {tasks tasks' tasks'' : Table Task} {t t' : Task}

theorem waiting_iff_of_get? (h : tasks.get? taskId = some t) :
    Waiting taskId tasks ↔ t.status = .blocked := by
  rw [Waiting, h, Option.map_some, Option.some.injEq]

theorem not_waiting_of_none (h : tasks.get? taskId = none) : ¬Waiting taskId tasks := by
  rw [Waiting, h]
  exact nofun

theorem Frees.of_eq (h : tasks' = tasks) : Frees taskId False tasks tasks' := by
  subst h
  exact ⟨(and_iff_left id).symm, rfl⟩

theorem Frees.trans (h : Frees taskId p tasks tasks') (h' : Frees taskId q tasks' tasks'') :
    Frees taskId (p ∨ q) tasks tasks'' where
  waiting := by
    rw [h'.waiting, h.waiting, and_assoc, not_or]
  ballot := h'.ballot.trans h.ballot

theorem Frees.congr (h : Frees taskId p tasks tasks') (hpq : p ↔ q) :
    Frees taskId q tasks tasks' :=
  ⟨h.waiting.trans (and_congr_right fun _ => not_congr hpq), h.ballot⟩

theorem Frees.of_not_waiting (h : Frees taskId p tasks tasks') (hidle : ¬Waiting taskId tasks) :
    Frees taskId q tasks tasks' :=
  ⟨iff_of_false (fun hw => hidle (h.waiting.mp hw).1) (fun hw => hidle hw.1), h.ballot⟩

theorem Frees.of_row (ht : tasks.get? taskId = some t) (ht' : tasks'.get? taskId = some t')
    (hstatus : t'.status = .blocked ↔ t.status = .blocked ∧ ¬p) (hballot : t'.ballot = t.ballot) :
    Frees taskId p tasks tasks' where
  waiting := by
    rw [waiting_iff_of_get? ht, waiting_iff_of_get? ht', hstatus]
  ballot := by
    rw [ballotOf, ballotOf, ht, ht']
    exact hballot

theorem Frees.of_absent (ht : tasks.get? taskId = none) (ht' : tasks'.get? taskId = none) :
    Frees taskId p tasks tasks' where
  waiting := iff_of_false (not_waiting_of_none ht') (fun h => not_waiting_of_none ht h.1)
  ballot := by
    rw [ballotOf, ballotOf, ht, ht']

end Rows

/-! ## One operation -/

/-- The operation leaves the status and the ballot of a blocked task alone. -/
def Beside (taskId : String) : StoreOp → Prop
  | .createTask plan => plan.taskId ≠ taskId
  | .createTasksBatch _ | .handleSyncMessage _ => False
  | .setTaskStatus own _ _ | .setTaskBallot own _ | .unassignTask own | .unblockTask own
  | .unblockToReady own | .requeueTask own _ => own ≠ taskId
  | _ => True

theorem allows_beside {taskId : String} : Allows (Beside taskId) := by
  intro op hop
  cases op <;> first | exact hop.elim | trivial

/-- What else the in-memory store promises of writes to a row. -/
def WritesRow (now : Nat) : (op : StoreOp) → Board → op.Res → Board → Prop
  | .createTask plan, _, _, b' =>
      b'.tasks.get? plan.taskId = some (plan.toTask now .pending)
  | .setTaskStatus own status _, b, r, _ => ∀ t, b.tasks.get? own = some t →
      ¬ClusterState.Refuses t.status status → r = true
  | .setTaskBallot own ballot, b, _, b' => ∀ t, b.tasks.get? own = some t →
      b'.tasks.get? own = some (t.withBallot now ballot)
  | .unblockTask own, b, r, b' | .unblockToReady own, b, r, b' =>
      (r = true ↔ Waiting own b.tasks) ∧ ¬Waiting own b'.tasks
  | .requeueTask own _, _, r, b' => r = true → ¬Waiting own b'.tasks
  | .writeTaskRow own _ _, b, r, _ => b.tasks.get? own ≠ none → r = .ok ()
  | _, _, _, _ => True

section Operations

variable [Unicode]

omit [Unicode] in
theorem ClusterState.waiting_unblockTo {now : Nat} {status : TaskStatus} (own : String)
    (s : ClusterState) (hstatus : status ≠ .blocked) :
    ((s.unblockTo now status own).1 = true ↔ Waiting own s.tasks) ∧
      ¬Waiting own (s.unblockTo now status own).2.tasks := by
  cases hget : s.tasks.get? own with
  | none =>
      have hmiss : s.unblockTo now status own = (false, s) := by
        rw [ClusterState.unblockTo, hget]
      rw [hmiss]
      exact ⟨iff_of_false Bool.false_ne_true (not_waiting_of_none hget), not_waiting_of_none hget⟩
  | some t =>
      by_cases hblocked : t.status = .blocked
      · have hhit : s.unblockTo now status own =
            (true, s.modifyTask own (Task.unblockTo now status) (fun _ => rfl)) := by
          rw [ClusterState.unblockTo, hget]
          exact if_pos hblocked
        have hrow := s.tasks.get?_modify_self own (Task.unblockTo now status) (fun _ => rfl)
        rw [hget, Option.map_some] at hrow
        rw [hhit]
        refine ⟨iff_of_true rfl ((waiting_iff_of_get? hget).mpr hblocked), ?_⟩
        exact fun hwaiting => hstatus ((waiting_iff_of_get? hrow).mp hwaiting)
      · have hmiss : s.unblockTo now status own = (false, s) := by
          rw [ClusterState.unblockTo, hget]
          exact if_neg hblocked
        rw [hmiss]
        have hidle : ¬Waiting own s.tasks := fun h => hblocked ((waiting_iff_of_get? hget).mp h)
        exact ⟨iff_of_false Bool.false_ne_true hidle, hidle⟩

theorem ClusterState.writesRow (now : Nat) (op : StoreOp) (s : ClusterState) :
    WritesRow now op s.toBoard (step now op s).1 (step now op s).2.toBoard := by
  cases op with
  | createTask plan =>
      change (s.tasks.upsert (plan.toTask now .pending)).get? plan.taskId = _
      rw [Table.get?_upsert]
      exact if_pos rfl
  | setTaskStatus own status reason =>
      intro t ht hguard
      change (s.setTaskStatus now own status reason).1 = true
      rcases setTaskStatus_cases now own status reason s with ⟨-, hrefused⟩ | ⟨u, -, -, heq⟩
      · exact absurd (hrefused t ht) hguard
      · rw [heq]
  | setTaskBallot own ballot =>
      intro t ht
      change (s.writeTask own (Task.withBallot now ballot) (fun _ => rfl)).2.tasks.get? own = _
      have hget : s.tasks.get? own = some t := ht
      rcases writeTask_cases own (Task.withBallot now ballot) (fun _ => rfl) s with
        ⟨-, hnone⟩ | ⟨u, -, heq⟩
      · rw [hget] at hnone
        cases hnone
      · have hrow := s.tasks.get?_modify_self own (Task.withBallot now ballot) (fun _ => rfl)
        rw [hget] at hrow
        rw [heq]
        exact hrow
  | unblockTask own => exact waiting_unblockTo own s (by decide)
  | unblockToReady own => exact waiting_unblockTo own s (by decide)
  | requeueTask own reason =>
      intro htrue
      change ¬Waiting own (s.requeueTask now own reason).2.tasks
      rcases requeueTask_cases now own reason s with heq | ⟨t, hget, -, -, -, htasks⟩
      · have hfalse : (s.requeueTask now own reason).1 = true := htrue
        rw [heq] at hfalse
        cases hfalse
      · have hrow := s.tasks.get?_modify_self own (Task.requeue now reason) (fun _ => rfl)
        rw [hget, Option.map_some] at hrow
        rw [htasks]
        intro hwaiting
        cases (waiting_iff_of_get? hrow).mp hwaiting
  | writeTaskRow own assignedTo reason =>
      intro hrow
      change (s.writeTaskRow now own assignedTo reason).1 = .ok ()
      cases hget : s.tasks.get? own with
      | none => exact absurd hget hrow
      | some t => rw [writeTaskRow, hget]
  | _ => trivial

/-- The contract of the in-memory store, with the rows that are written. -/
def RowContract (op : StoreOp) (w : Timed Board) (r : op.Res) (w' : Timed Board) : Prop :=
  Contract .memory op w r w' ∧ WritesRow (w.clock 0) op w.state r w'.state

theorem implements_rows : Program.Implements Backend.memory.tick Backend.memory.view RowContract :=
  fun op w => ⟨Backend.memory.implements op w, ClusterState.writesRow _ op w.state⟩

variable {taskId : String} {op : StoreOp} {w w' : Timed Board}

theorem Contract.get?_ne_none {r : op.Res} (h : Contract .memory op w r w') {own : String}
    (hrow : w.state.tasks.get? own ≠ none) : w'.state.tasks.get? own ≠ none := by
  obtain ⟨t, ht⟩ := Option.ne_none_iff_exists'.mp hrow
  obtain ⟨t', ht', -⟩ := h.tasks.get?_of_get? (fun _ _ hrow => hrow.id_eq) ht
  rw [ht']
  exact nofun

theorem frees_of_beside {r : op.Res} (h : Contract .memory op w r w') (hop : Beside taskId op) :
    Frees taskId False w.state.tasks w'.state.tasks := by
  cases hget : w.state.tasks.get? taskId with
  | none =>
      refine Frees.of_absent hget ?_
      by_contra hsome
      obtain ⟨t', ht'⟩ := Option.ne_none_iff_exists'.mp hsome
      have hid : t'.id = taskId := Table.key_of_get? ht'
      rcases h.tasks.of_get? (fun _ _ hrow => hrow.id_eq) ht' with ⟨t, ht, -⟩ | ⟨-, hnew⟩
      · rw [hget] at ht
        cases ht
      · cases hnew with
        | pending => exact hop hid
        | promoted hsql => exact absurd rfl hsql
        | batch | batchPending | batchPromoted | synced => exact hop.elim
  | some t =>
      have hid : t.id = taskId := Table.key_of_get? hget
      obtain ⟨t', ht', hrow⟩ := h.tasks.get?_of_get? (fun _ _ hrow => hrow.id_eq) hget
      have hkept : t'.status = t.status → t'.ballot = t.ballot →
          Frees taskId False w.state.tasks w'.state.tasks := by
        intro hstatus hballot
        refine Frees.of_row hget ht' ?_ hballot
        rw [hstatus]
        exact (and_iff_left id).symm
      have hmoved : t.status ≠ .blocked → t'.status ≠ .blocked → t'.ballot = t.ballot →
          Frees taskId False w.state.tasks w'.state.tasks := by
        intro hidle hidle' hballot
        exact Frees.of_row hget ht' (iff_of_false hidle' (fun h => hidle h.1)) hballot
      rcases hrow with rfl | hchange
      · exact hkept rfl rfl
      · cases hchange with
        | status hown | unassign hown | unblock hown | resume hown | ballot hown | requeue hown =>
            exact absurd (hown.symm.trans hid) hop
        | replace _ hown => exact absurd (hown.symm.trans hid) hop
        | demote _ hsql | promoteRow hsql => exact absurd rfl hsql
        | replaceBatch | sync | overwrite | promoteBatch => exact hop.elim
        | promote hpending =>
            exact hmoved (fun hb => absurd (hpending.symm.trans hb) (by decide)) nofun rfl
        | assign hcandidate =>
            refine hmoved (fun hb => ?_) nofun rfl
            exact absurd (hcandidate.2.1.symm.trans hb) (by decide)
        | result | cancelRequeue | dependencies | hold | writeRow => exact hkept rfl rfl

/-- A write that changes no ballot and leaves the task free. -/
theorem frees_of_freed {r : op.Res} (h : Contract .memory op w r w')
    (hballot : ∀ t t', Change .memory (w.clock 0) w.state op t t' → t'.ballot = t.ballot)
    (hnew : ∀ t, ¬Created .memory (w.clock 0) op t) (hfree : ¬Waiting taskId w'.state.tasks) :
    Frees taskId True w.state.tasks w'.state.tasks where
  waiting := iff_of_false hfree (fun hw => hw.2 trivial)
  ballot := by
    unfold ballotOf
    cases hget : w.state.tasks.get? taskId with
    | none =>
        cases hget' : w'.state.tasks.get? taskId with
        | none => rfl
        | some t' =>
            have hfrom := h.tasks.of_get? (fun _ _ hrow => hrow.id_eq) hget'
            rcases hfrom with ⟨t, ht, -⟩ | ⟨-, hcreated⟩
            · rw [hget] at ht
              cases ht
            · exact absurd hcreated (hnew t')
    | some t =>
        obtain ⟨t', ht', hrow⟩ := h.tasks.get?_of_get? (fun _ _ hrow => hrow.id_eq) hget
        rw [ht']
        rcases hrow with rfl | hchange
        · rfl
        · exact hballot t t' hchange

/-- A status other than `blocked` frees the task it is written to. -/
theorem frees_of_status {own reason : String} {status : TaskStatus} {r : Bool}
    (h : Contract .memory (.setTaskStatus own status reason) w r w') (hstatus : status ≠ .blocked) :
    Frees taskId (own = taskId) w.state.tasks w'.state.tasks := by
  by_cases hown : own = taskId
  · subst hown
    refine (frees_of_freed h (fun t t' hchange => ?_) (fun t hnew => by cases hnew)
      (fun hwaiting => ?_)).congr (iff_of_true trivial rfl)
    · cases hchange
      rfl
    · obtain ⟨t', ht', hblocked⟩ := Option.map_eq_some_iff.mp hwaiting
      rcases h.tasks.of_get? (fun _ _ hrow => hrow.id_eq) ht' with ⟨t, ht, hrow⟩ | ⟨-, hnew⟩
      · rcases hrow with rfl | hchange
        · have hopen : ¬ClusterState.Refuses t'.status status := by
            rw [hblocked]
            exact fun hrefuses => absurd hrefuses.1 (by decide)
          have hrow := h.reply.2 t' ht hopen
          rw [ht', Option.some.injEq] at hrow
          have hwritten : t'.status = status := congrArg Task.status hrow
          exact hstatus (hwritten.symm.trans hblocked)
        · cases hchange
          exact hstatus hblocked
      · cases hnew
  · have hbeside : Beside taskId (.setTaskStatus own status reason) := hown
    exact (frees_of_beside h hbeside).congr (iff_of_false id hown)

theorem frees_of_unblockTask {own : String} {r : Bool}
    (h : RowContract (.unblockTask own) w r w') :
    Frees taskId (own = taskId) w.state.tasks w'.state.tasks := by
  by_cases hown : own = taskId
  · subst hown
    refine (frees_of_freed h.1 (fun t t' hchange => ?_) (fun t hnew => by cases hnew)
      h.2.2).congr (iff_of_true trivial rfl)
    cases hchange
    rfl
  · have hbeside : Beside taskId (.unblockTask own) := hown
    exact (frees_of_beside h.1 hbeside).congr (iff_of_false id hown)

theorem frees_of_unblockToReady {own : String} {r : Bool}
    (h : RowContract (.unblockToReady own) w r w') :
    Frees taskId (own = taskId) w.state.tasks w'.state.tasks := by
  by_cases hown : own = taskId
  · subst hown
    refine (frees_of_freed h.1 (fun t t' hchange => ?_) (fun t hnew => by cases hnew)
      h.2.2).congr (iff_of_true trivial rfl)
    cases hchange
    rfl
  · have hbeside : Beside taskId (.unblockToReady own) := hown
    exact (frees_of_beside h.1 hbeside).congr (iff_of_false id hown)

theorem frees_of_requeueTask {own reason : String}
    (h : RowContract (.requeueTask own reason) w true w') :
    Frees taskId (own = taskId) w.state.tasks w'.state.tasks := by
  by_cases hown : own = taskId
  · subst hown
    refine (frees_of_freed h.1 (fun t t' hchange => ?_) (fun t hnew => by cases hnew)
      (h.2 rfl)).congr (iff_of_true trivial rfl)
    cases hchange
    rfl
  · have hbeside : Beside taskId (.requeueTask own reason) := hown
    exact (frees_of_beside h.1 hbeside).congr (iff_of_false id hown)

end Operations

/-! ## Parts of handlers -/

section Parts

variable [Unicode] {taskId : String} {w : Timed Board} {α : Type}

/-- What a program leaves behind on the in-memory store. -/
abbrev Leaves (p : Api α) (w : Timed Board) (Q : Except ApiError α → Timed Board → Prop) : Prop :=
  p.Wp RowContract (fun _ _ => True) w Q

theorem leaves_store {op : StoreOp} {f : op.Res → Api α}
    {Q : Except ApiError α → Timed Board → Prop}
    (h : ∀ r w', RowContract op w r w' → Leaves (f r) w' Q) : Leaves (store op >>= f) w Q :=
  wp_perform.mpr ⟨trivial, h⟩

theorem leaves_of_only {p : Api α} (h : p.Only (Beside taskId)) :
    Leaves p w (fun _ w' => Frees taskId False w.state.tasks w'.state.tasks) := by
  refine h.wp_of_step
    (R := fun (w w' : Timed Board) => Frees taskId False w.state.tasks w'.state.tasks)
    (fun _ _ _ => trivial) (fun _ => Frees.of_eq rfl) ?_ ?_
  · exact fun h h' => (h.trans h').congr (or_self_iff)
  · exact fun hop hstep => frees_of_beside hstep.1 hop

omit [Unicode] in
theorem Frees.of_idle {own : String} {w' : Timed Board} (hsame : w'.state.tasks = w.state.tasks)
    (hidle : ¬Waiting own w.state.tasks) :
    Frees taskId (own = taskId) w.state.tasks w'.state.tasks := by
  have heq : Frees taskId False w.state.tasks w'.state.tasks := Frees.of_eq hsame
  by_cases hown : own = taskId
  · exact heq.of_not_waiting (hown ▸ hidle)
  · exact heq.congr (iff_of_false id hown)

theorem leaves_getByTask {own : String} {f : Option Lease → Api α}
    {Q : Except ApiError α → Timed Board → Prop}
    (h : ∀ lease w', w'.state = w.state → Leaves (f lease) w' Q) :
    Leaves (LeaseManager.getByTask own >>= f) w Q :=
  wp_getByTask (fun hstep => hstep.1) (fun _ => trivial) h

variable (taskId)

/-- One dependent of a cascade. -/
theorem leaves_cancelDependent (reason depId : String) :
    Leaves (Tasks.cancelDependent reason depId) w
      (fun r w' => r = .ok ⟨⟩ ∧ Frees taskId (depId = taskId) w.state.tasks w'.state.tasks) := by
  have hwrite : ∀ (w₁ w₂ : Timed Board) (status : TaskStatus) (r : Bool),
      w₁.state.tasks = w.state.tasks → status ≠ .blocked →
      RowContract (.setTaskStatus depId status reason) w₁ r w₂ →
      Frees taskId (depId = taskId) w.state.tasks w₂.state.tasks := by
    intro w₁ w₂ status r hsame hstatus hstep
    rw [← hsame]
    exact frees_of_status hstep.1 hstatus
  unfold Tasks.cancelDependent
  refine leaves_store (fun r w₁ hstep₁ => ?_)
  obtain ⟨rfl, hsame₁⟩ := hstep₁.1.reply
  have htasks₁ := congrArg Board.tasks hsame₁
  cases hget : w.state.tasks.get? depId with
  | none => exact ⟨rfl, Frees.of_idle htasks₁ (not_waiting_of_none hget)⟩
  | some dep =>
      by_cases hended : dep.status.IsTerminal
      · simp only [if_pos hended]
        refine ⟨rfl, Frees.of_idle htasks₁ (fun hwaiting => ?_)⟩
        rw [(waiting_iff_of_get? hget).mp hwaiting] at hended
        exact absurd hended (by decide)
      · simp only [if_neg hended]
        refine leaves_getByTask (fun lease w₂ hsame₂ => ?_)
        have htasks₂ := (congrArg Board.tasks hsame₂).trans htasks₁
        cases lease with
        | none =>
            exact leaves_store (fun r w₃ hstep =>
              ⟨rfl, hwrite w₂ w₃ .cancelled r htasks₂ (by decide) hstep⟩)
        | some lease =>
            refine leaves_store (fun r w₃ hstep₃ => ?_)
            have htasks₃ : w₃.state.tasks = w.state.tasks :=
              (congrArg Board.tasks hstep₃.1.reply).trans htasks₂
            exact leaves_store (fun r w₄ hstep =>
              ⟨rfl, hwrite w₃ w₄ .cancelRequested r htasks₃ (by decide) hstep⟩)

theorem leaves_cancelDependents (reason : String) (ids : List String) :
    Leaves (ids.forM (Tasks.cancelDependent reason)) w
      (fun r w' => r = .ok ⟨⟩ ∧ Frees taskId (taskId ∈ ids) w.state.tasks w'.state.tasks) := by
  induction ids generalizing w with
  | nil => exact ⟨rfl, (Frees.of_eq rfl).congr (iff_of_false id List.not_mem_nil)⟩
  | cons depId ids ih =>
      change Leaves (Tasks.cancelDependent reason depId >>= fun _ =>
        ids.forM (Tasks.cancelDependent reason)) w _
      refine Wp.seq (I := fun _ w' => Frees taskId (depId = taskId) w.state.tasks w'.state.tasks)
        ((leaves_cancelDependent taskId reason depId).mono (fun r w' h => ⟨⟨⟩, h⟩))
        (fun _ w' h => ?_)
      refine ih.mono (fun r w'' h' => ⟨h'.1, (h.trans h'.2).congr ?_⟩)
      rw [List.mem_cons, eq_comm]

theorem leaves_cascadeCancelDependents {own reason : String} {f : List String → Api α}
    {Q : Except ApiError α → Timed Board → Prop}
    (h : ∀ w', Frees taskId (taskId ∈ triggerChain .all w.state.tasks own) w.state.tasks
        w'.state.tasks → Leaves (f (triggerChain .all w.state.tasks own)) w' Q) :
    Leaves (Tasks.cascadeCancelDependents own reason >>= f) w Q := by
  rw [Tasks.cascadeCancelDependents, bind_assoc]
  refine leaves_store (fun chain w₁ hstep₁ => ?_)
  obtain ⟨rfl, hsame₁⟩ := hstep₁.1.reply
  rw [bind_assoc]
  refine Wp.seq (I := fun _ w' =>
    Frees taskId (taskId ∈ triggerChain .all w.state.tasks own) w.state.tasks w'.state.tasks)
    ((leaves_cancelDependents taskId reason _).mono ?_) (fun _ w₂ h₂ => h w₂ h₂)
  rintro r w' ⟨rfl, hfrees⟩
  rw [hsame₁] at hfrees
  exact ⟨⟨⟩, rfl, hfrees⟩

/-- A dependent is promoted from pending, and so it does not wait. -/
theorem leaves_promoteDependent (depId : String) :
    Leaves (Tasks.promoteDependent depId) w
      (fun r w' => r = .ok ⟨⟩ ∧ Frees taskId False w.state.tasks w'.state.tasks) := by
  have hkept : ∀ w' : Timed Board, w'.state = w.state →
      Frees taskId False w.state.tasks w'.state.tasks :=
    fun w' hsame => Frees.of_eq (congrArg Board.tasks hsame)
  unfold Tasks.promoteDependent
  refine leaves_store (fun r w₁ hstep₁ => ?_)
  obtain ⟨rfl, hsame₁⟩ := hstep₁.1.reply
  cases hget : w.state.tasks.get? depId with
  | none => exact ⟨rfl, hkept w₁ hsame₁⟩
  | some dep =>
      by_cases hpending : dep.status = .pending
      swap
      · simp only [if_pos hpending]
        exact ⟨rfl, hkept w₁ hsame₁⟩
      simp only [if_neg (not_not.mpr hpending)]
      have hwrite : ∀ (w₂ w₃ : Timed Board) (status : TaskStatus) (reason : String) (r : Bool),
          w₂.state = w.state → status ≠ .blocked →
          RowContract (.setTaskStatus depId status reason) w₂ r w₃ →
          Frees taskId False w.state.tasks w₃.state.tasks := by
        intro w₂ w₃ status reason r hsame hstatus hstep
        have hfrees : Frees taskId (depId = taskId) w₂.state.tasks w₃.state.tasks :=
          frees_of_status hstep.1 hstatus
        rw [hsame] at hfrees
        by_cases hown : depId = taskId
        · refine hfrees.of_not_waiting (fun hwaiting => ?_)
          have hblocked := (waiting_iff_of_get? (hown ▸ hget)).mp hwaiting
          exact absurd (hpending.symm.trans hblocked) (by decide)
        · exact hfrees.congr (iff_of_false hown id)
      refine wp_allCompleted (fun hstep => hstep.1) (fun _ => trivial)
        (fun allDone w₂ hsame₂ _ => ?_)
      have hsame₂ := hsame₂.trans hsame₁
      cases allDone with
      | false => exact ⟨rfl, hkept w₂ hsame₂⟩
      | true =>
          refine leaves_store (fun tasks w₃ hstep₃ => ?_)
          have hsame₃ : w₃.state = w.state := hstep₃.1.reply.2.trans hsame₂
          cases LandingGate.holdReason tasks dep with
          | some reason =>
              by_cases hnew : dep.failReason.getD "" ≠ reason
              · simp only [if_pos hnew]
                exact leaves_store (fun r w₄ hstep =>
                  ⟨rfl, hwrite w₃ w₄ .pending reason r hsame₃ (by decide) hstep⟩)
              · simp only [if_neg hnew]
                exact ⟨rfl, hkept w₃ hsame₃⟩
          | none =>
              exact leaves_store (fun r w₄ hstep =>
                ⟨rfl, hwrite w₃ w₄ .ready "" r hsame₃ (by decide) hstep⟩)

theorem leaves_triggerDownstream {own : String} {f : Unit → Api α}
    {Q : Except ApiError α → Timed Board → Prop}
    (h : ∀ w', Frees taskId False w.state.tasks w'.state.tasks → Leaves (f ()) w' Q) :
    Leaves (Tasks.triggerDownstream own >>= f) w Q := by
  rw [Tasks.triggerDownstream, bind_assoc]
  refine leaves_store (fun dependents w₁ hstep₁ => ?_)
  have hfirst : Frees taskId False w.state.tasks w₁.state.tasks :=
    Frees.of_eq (congrArg Board.tasks hstep₁.1.reply)
  rw [bind_assoc]
  refine Wp.seq (I := fun _ w' => Frees taskId False w.state.tasks w'.state.tasks)
    ((wp_forM (I := fun w' => Frees taskId False w.state.tasks w'.state.tasks) dependents
      Tasks.promoteDependent (fun depId _ w' hw' => ?_) hfirst).mono (fun r w' h => ⟨⟨⟩, h⟩))
    (fun _ w₂ h₂ => ?_)
  · refine (leaves_promoteDependent taskId depId).mono (fun r w'' h => ⟨h.1, ?_⟩)
    exact (hw'.trans h.2).congr or_self_iff
  · refine leaves_store (fun _ w₃ hstep₃ => h w₃ ?_)
    have hpass : Beside taskId .schedulePendingDetailed := trivial
    exact (h₂.trans (frees_of_beside hstep₃.1 hpass)).congr or_self_iff

end Parts

/-! ## Handlers -/

section Handlers

variable [Unicode]

/-- What an event means for the row of a task. -/
def Marked (taskId : String) : Option BallotEvent → Table Task → Table Task → Prop
  | none, tasks, tasks' => Frees taskId False tasks tasks'
  | some (.released _), tasks, tasks' => Frees taskId True tasks tasks'
  | some .filed, tasks, tasks' => ¬Waiting taskId tasks ∧ Waiting taskId tasks' ∧
      ∃ ballot, ballotOf taskId tasks' = some ballot ∧ ¬BallotRules.IsAnswered ballot
  | some .answered, tasks, tasks' => Waiting taskId tasks ∧ ¬Waiting taskId tasks' ∧
      ∃ outstanding now answer answeredBy recorded, ballotOf taskId tasks = some outstanding ∧
        BallotRules.recordAnswer now outstanding answer answeredBy = .ok recorded ∧
        ballotOf taskId tasks' = some (BallotRules.attachFormal recorded taskId)
  | some .replaced, _, tasks' => ¬Waiting taskId tasks' ∧ ballotOf taskId tasks' = none

/-- A handler does to the ballots of a task what its reply says, and nothing if it
fails. -/
abbrev Handled (taskId : String) (c : Call) (p : Api Reply) (w : Timed Board) : Prop :=
  Leaves p w (fun r w' =>
    match r with
    | .ok reply =>
        Marked taskId (c.marks taskId w.state.tasks reply) w.state.tasks w'.state.tasks
    | .error _ => Frees taskId False w.state.tasks w'.state.tasks)

variable {taskId own : String} {w : Timed Board} {p : Prop} {tasks tasks' : Table Task}

theorem Frees.marked [Decidable p] (h : Frees taskId p tasks tasks') (releaser : Releaser) :
    Marked taskId (if p then some (.released releaser) else none) tasks tasks' := by
  split
  · rename_i hp
    exact h.congr (iff_of_true hp trivial)
  · rename_i hp
    exact h.congr (iff_of_false hp id)

omit [Unicode] in
theorem Frees.unfreed (h : Frees taskId p tasks tasks') (hidle : p → ¬Waiting taskId tasks) :
    Frees taskId False tasks tasks' := by
  by_cases hp : p
  · exact h.of_not_waiting (hidle hp)
  · exact h.congr (iff_of_false hp id)

theorem handled_of_only {c : Call} {q : Api Reply} (h : q.Only (Beside taskId))
    (hmarks : ∀ reply, c.marks taskId w.state.tasks reply = none) : Handled taskId c q w := by
  refine (leaves_of_only h).mono (fun r w' hfrees => ?_)
  cases r with
  | error => exact hfrees
  | ok reply =>
      dsimp only
      rw [hmarks reply]
      exact hfrees

theorem leaves_rest {α : Type} {q : Api α} {w₁ : Timed Board}
    (h : Frees taskId p w.state.tasks w₁.state.tasks) (hq : q.Only (Beside taskId)) :
    Leaves q w₁ (fun _ w' => Frees taskId p w.state.tasks w'.state.tasks) :=
  (leaves_of_only hq).mono (fun _ _ hrest => (h.trans hrest).congr (Iff.of_eq (or_false p)))

theorem handled_requireTask {c : Call} {f : Task → Api Reply}
    (h : ∀ t w', w'.state = w.state → w.state.tasks.get? own = some t →
      Leaves (f t) w' (fun r w' =>
        match r with
        | .ok reply =>
            Marked taskId (c.marks taskId w.state.tasks reply) w.state.tasks w'.state.tasks
        | .error _ => Frees taskId False w.state.tasks w'.state.tasks)) :
    Handled taskId c (Tasks.requireTask own >>= f) w :=
  wp_requireTask (fun hstep => hstep.1) (fun _ => trivial)
    (fun _ hsame _ => Frees.of_eq (congrArg Board.tasks hsame)) h

theorem leaves_revokeLeaseOf {α : Type} {f : Unit → Api α}
    {Q : Except ApiError α → Timed Board → Prop}
    (h : ∀ w', w'.state.tasks = w.state.tasks → Leaves (f ()) w' Q) :
    Leaves (Tasks.revokeLeaseOf own >>= f) w Q :=
  wp_revokeLeaseOf (fun hstep => hstep.1) (fun _ => trivial) h

theorem handled_submitTask (req : SubmitTaskRequest) :
    Handled taskId (.submit own req) (Tasks.submitTask own req) w := by
  by_cases hown : own = taskId
  swap
  · refine handled_of_only (only_submitTask allows_beside own req hown) (fun reply => ?_)
    exact if_neg (fun h => hown h.1)
  subst hown
  have hkept : ∀ w' : Timed Board, w'.state = w.state →
      Frees own False w.state.tasks w'.state.tasks :=
    fun w' hsame => Frees.of_eq (congrArg Board.tasks hsame)
  unfold Tasks.submitTask
  refine wp_bind_of_reads (fun hstep => hstep.1) (fun _ => trivial) (only_checkBrief req)
    (fun _ w₁ hsame₁ => hkept w₁ hsame₁) (fun _ w₁ hsame₁ => ?_)
  refine wp_bind_of_reads (fun hstep => hstep.1) (fun _ => trivial) (only_liveReviewer id req)
    (fun _ w₂ hsame₂ => hkept w₂ (hsame₂.trans hsame₁)) (fun reviewer w₂ hsame₂ => ?_)
  have hsame₂ := hsame₂.trans hsame₁
  cases reviewer with
  | some t =>
      have hnone : (if own = own ∧ (some true : Option Bool) = none then
          some BallotEvent.replaced else none) = none := if_neg (fun h => by cases h.2)
      change Marked own _ _ _
      dsimp only [Call.marks]
      rw [hnone]
      exact hkept w₂ hsame₂
  | none =>
      refine wp_bind_of_reads (fun hstep => hstep.1) (fun _ => trivial) (only_checkLanding id req)
        (fun _ w₃ hsame₃ => hkept w₃ (hsame₃.trans hsame₂)) (fun _ w₃ hsame₃ => ?_)
      have hsame₃ := hsame₃.trans hsame₂
      refine wp_bind_of_reads (fun hstep => hstep.1) (fun _ => trivial)
        (only_checkCapabilities id req)
        (fun _ w₄ hsame₄ => hkept w₄ (hsame₄.trans hsame₃)) (fun _ w₄ hsame₄ => ?_)
      have hsame₄ := hsame₄.trans hsame₃
      refine wp_bind_of_reads (fun hstep => hstep.1) (fun _ => trivial) (only_missingDeps id _)
        (fun _ w₅ hsame₅ => hkept w₅ (hsame₅.trans hsame₄)) (fun missing w₅ hsame₅ => ?_)
      by_cases hmissing : missing = []
      swap
      · simp only [if_pos hmissing]
        exact hkept w₅ (hsame₅.trans hsame₄)
      simp only [if_neg (not_not.mpr hmissing)]
      refine leaves_store (fun task w₆ hstep₆ => ?_)
      have hget : w₆.state.tasks.get? own =
          some ((Tasks.submitPlan own req).toTask (w₅.clock 0) .pending) := hstep₆.2
      refine leaves_store (fun _ w₇ hstep₇ => leaves_store (fun stored w₈ hstep₈ => ?_))
      have hpass : Beside own .triggerPendingTasks := trivial
      have hfrees := frees_of_beside hstep₇.1 hpass
      have htasks₈ := congrArg Board.tasks hstep₈.1.reply.2
      have hmarks : (if own = own ∧ (none : Option Bool) = none then
          some BallotEvent.replaced else none) = some .replaced := if_pos ⟨rfl, rfl⟩
      change Marked own _ _ _
      dsimp only [Call.marks]
      rw [hmarks, htasks₈]
      refine ⟨fun hwaiting => ?_, ?_⟩
      · cases (waiting_iff_of_get? hget).mp (hfrees.waiting.mp hwaiting).1
      · rw [hfrees.ballot, ballotOf, hget]
        rfl

theorem handled_claimTask (req : ClaimTaskRequest) :
    Handled taskId (.claim own req) (Tasks.claimTask own req) w := by
  unfold Tasks.claimTask
  refine handled_requireTask (fun t w₁ hsame₁ hget => ?_)
  have htasks₁ := congrArg Board.tasks hsame₁
  by_cases hready : t.status = .ready
  swap
  · simp only [if_pos hready]
    exact Frees.of_eq htasks₁
  simp only [if_neg (not_not.mpr hready)]
  by_cases hfree : t.assignedTo = none
  swap
  · simp only [if_pos hfree]
    exact Frees.of_eq htasks₁
  simp only [if_neg (not_not.mpr hfree)]
  refine leaves_store (fun _ w₂ hstep₂ => ?_)
  have hstarted : Frees taskId (own = taskId) w₁.state.tasks w₂.state.tasks :=
    frees_of_status hstep₂.1 (by decide)
  rw [htasks₁] at hstarted
  have hkept := hstarted.unfreed (fun hown hwaiting => by
    have hblocked := (waiting_iff_of_get? (hown ▸ hget)).mp hwaiting
    exact absurd (hready.symm.trans hblocked) (by decide))
  refine (leaves_rest hkept ?_).mono (fun r w' h => ?_)
  · refine only_bind (only_writeTaskRow trivial) (fun _ => ?_)
    refine only_bind (only_create allows_beside _ _) (fun _ => ?_)
    exact only_store trivial (fun _ => trivial)
  · cases r <;> exact h

theorem handled_releaseTask (req : ReleaseTaskRequest) :
    Handled taskId (.release own req) (Tasks.releaseTask own req) w := by
  unfold Tasks.releaseTask
  refine handled_requireTask (fun t w₁ hsame₁ hget => ?_)
  have htasks₁ := congrArg Board.tasks hsame₁
  by_cases howner : t.assignedTo = some req.nodeId
  swap
  · simp only [if_pos howner]
    exact Frees.of_eq htasks₁
  simp only [if_neg (not_not.mpr howner)]
  refine leaves_revokeLeaseOf (fun w₂ htasks₂ => ?_)
  have htasks₂ := htasks₂.trans htasks₁
  have hget₂ : w₂.state.tasks.get? own = some t := htasks₂ ▸ hget
  refine leaves_store (fun transitioned w₃ hstep₃ => ?_)
  have hfrees : Frees taskId (own = taskId) w₂.state.tasks w₃.state.tasks :=
    frees_of_status hstep₃.1 (by decide)
  rw [htasks₂] at hfrees
  cases transitioned with
  | false =>
      -- a refused write is to a terminal row
      refine hfrees.unfreed (fun hown hwaiting => ?_)
      have hblocked := (waiting_iff_of_get? (hown ▸ hget)).mp hwaiting
      have hopen : ¬ClusterState.Refuses t.status .ready := by
        rw [hblocked]
        exact fun hrefuses => absurd hrefuses.1 (by decide)
      exact absurd (hstep₃.2 t hget₂ hopen) Bool.false_ne_true
  | true =>
      have hrow : w₃.state.tasks.get? own ≠ none :=
        hstep₃.1.get?_ne_none (by rw [hget₂]; exact nofun)
      simp only [Bool.true_eq_false, if_false]
      unfold Tasks.writeTaskRow
      rw [Program.bind_assoc]
      refine leaves_store (fun written w₄ hstep₄ => ?_)
      have hok : written = .ok () := hstep₄.2 hrow
      subst hok
      have hbeside : Beside taskId (.writeTaskRow own none req.reason) := trivial
      have hfrees₄ := hfrees.trans (frees_of_beside hstep₄.1 hbeside)
      refine leaves_store (fun released w₅ hstep₅ => ?_)
      have htasks₅ := congrArg Board.tasks hstep₅.1.reply.2
      refine Frees.marked ?_ .release
      rw [htasks₅]
      exact hfrees₄.congr (Iff.of_eq (or_false _))

variable (taskId) in
theorem leaves_close {α : Type} {reason why : String} {status : TaskStatus}
    {f : List String → Api α} {Q : Except ApiError α → Timed Board → Prop}
    (hstatus : status ≠ .blocked)
    (h : ∀ w', Frees taskId (own = taskId ∨ taskId ∈ triggerChain .all w.state.tasks own)
      w.state.tasks w'.state.tasks → Leaves (f (triggerChain .all w.state.tasks own)) w' Q) :
    Leaves (store (.setTaskStatus own status reason) >>= fun _ =>
      Tasks.cascadeCancelDependents own why >>= f) w Q := by
  refine leaves_store (fun r w₁ hstep => ?_)
  have hedges : SameEdges w.state.tasks w₁.state.tasks := by
    refine forall₂_of_contract hstep.1 (fun _ => ⟨rfl, rfl⟩) (fun t _ t' hchange => ?_)
      (fun t hnew => by cases hnew)
    cases hchange
    exact ⟨rfl, rfl⟩
  have hfrees : Frees taskId (own = taskId) w.state.tasks w₁.state.tasks :=
    frees_of_status hstep.1 hstatus
  refine leaves_cascadeCancelDependents taskId (fun w₂ hcascade => ?_)
  rw [hedges.triggerChain_eq] at hcascade ⊢
  exact h w₂ (hfrees.trans hcascade)

theorem handled_consumeFailure {reason : String} {req : Option FailTaskRequest}
    {w₁ : Timed Board} (hkept : Frees taskId False w.state.tasks w₁.state.tasks) :
    Leaves (Tasks.consumeFailure own reason) w₁ (fun r w' =>
      match r with
      | .ok reply => Marked taskId ((Call.fail own req).marks taskId w.state.tasks reply)
          w.state.tasks w'.state.tasks
      | .error _ => Frees taskId False w.state.tasks w'.state.tasks) := by
  unfold Tasks.consumeFailure
  refine leaves_revokeLeaseOf (fun w₂ htasks₂ => ?_)
  rw [← htasks₂] at hkept
  refine leaves_close taskId (by decide) (fun w₃ hfrees => ?_)
  refine Frees.marked ?_ .fail
  exact (hkept.trans hfrees).congr (Iff.of_eq (false_or _))

theorem handled_failTask (req : Option FailTaskRequest) :
    Handled taskId (.fail own req) (Tasks.failTask own req) w := by
  unfold Tasks.failTask
  refine handled_requireTask (fun t w₁ hsame₁ hget => ?_)
  have htasks₁ := congrArg Board.tasks hsame₁
  have hkept₁ : Frees taskId False w.state.tasks w₁.state.tasks := Frees.of_eq htasks₁
  by_cases hblank : Text.strip ((req.map FailTaskRequest.reason).getD "") = ""
  · simp only [if_pos hblank]
    exact hkept₁
  simp only [if_neg hblank]
  by_cases hclosed : Tasks.IsClosed t.status
  · simp only [if_pos hclosed]
    exact hkept₁
  simp only [if_neg hclosed]
  by_cases hrequested : t.status = .cancelRequested
  · simp only [if_pos hrequested]
    refine leaves_store (fun _ w₂ hstep₂ => ?_)
    have hfrees : Frees taskId (own = taskId) w₁.state.tasks w₂.state.tasks :=
      frees_of_status hstep₂.1 (by decide)
    rw [htasks₁] at hfrees
    refine Frees.marked (hfrees.congr ?_) .fail
    exact (or_iff_left List.not_mem_nil).symm
  simp only [if_neg hrequested]
  by_cases hrequeue : (req.map FailTaskRequest.requeue).getD false = true
  swap
  · simp only [if_neg hrequeue]
    exact handled_consumeFailure hkept₁
  simp only [if_pos hrequeue]
  refine leaves_store (fun requeued w₂ hstep₂ => ?_)
  cases requeued with
  | true =>
      refine leaves_store (fun _ w₃ hstep₃ => ?_)
      have hfrees : Frees taskId (own = taskId) w₁.state.tasks w₂.state.tasks :=
        frees_of_requeueTask hstep₂
      rw [htasks₁] at hfrees
      have hpass : Beside taskId .schedulePendingDetailed := trivial
      refine Frees.marked ((hfrees.trans (frees_of_beside hstep₃.1 hpass)).congr ?_) .fail
      exact or_congr_right (iff_of_false id List.not_mem_nil)
  | false =>
      have hsame₂ : w₂.state.tasks = w₁.state.tasks := (hstep₂.1.reply rfl).1
      exact handled_consumeFailure (Frees.of_eq (hsame₂.trans htasks₁))

theorem handled_refuseCompletion {veto : String} {req : Option CompleteTaskRequest}
    {w₁ : Timed Board} (hkept : Frees taskId False w.state.tasks w₁.state.tasks) :
    Leaves (Tasks.refuseCompletion own veto) w₁ (fun r w' =>
      match r with
      | .ok reply => Marked taskId ((Call.complete own req).marks taskId w.state.tasks reply)
          w.state.tasks w'.state.tasks
      | .error _ => Frees taskId False w.state.tasks w'.state.tasks) := by
  unfold Tasks.refuseCompletion
  refine leaves_revokeLeaseOf (fun w₂ htasks₂ => ?_)
  rw [← htasks₂] at hkept
  refine leaves_store (fun requeued w₃ hstep₃ => ?_)
  cases requeued with
  | true =>
      refine leaves_store (fun _ w₄ hstep₄ => ?_)
      have hfrees : Frees taskId (own = taskId) w₂.state.tasks w₃.state.tasks :=
        frees_of_requeueTask hstep₃
      have hpass : Beside taskId .schedulePendingDetailed := trivial
      have hall := hkept.trans (hfrees.trans (frees_of_beside hstep₄.1 hpass))
      refine Frees.marked (hall.congr ?_) .complete
      rw [false_or, or_false]
      exact (or_iff_left List.not_mem_nil).symm
  | false =>
      have hsame₃ : w₃.state.tasks = w₂.state.tasks := (hstep₃.1.reply rfl).1
      rw [← hsame₃] at hkept
      refine leaves_close taskId (by decide) (fun w₄ hfrees => ?_)
      refine Frees.marked ?_ .complete
      exact (hkept.trans hfrees).congr (Iff.of_eq (false_or _))

theorem handled_completeTask (req : Option CompleteTaskRequest) :
    Handled taskId (.complete own req) (Tasks.completeTask own req) w := by
  rw [Tasks.completeTask_eq]
  refine handled_requireTask (fun t w₁ hsame₁ hget => ?_)
  have htasks₁ := congrArg Board.tasks hsame₁
  by_cases hclosed : Tasks.IsClosed t.status
  · simp only [if_pos hclosed]
    exact Frees.of_eq htasks₁
  simp only [if_neg hclosed]
  refine leaves_revokeLeaseOf (fun w₂ htasks₂ => ?_)
  have htasks₂ := htasks₂.trans htasks₁
  by_cases hrequested : t.status = .cancelRequested
  · simp only [if_pos hrequested]
    refine leaves_store (fun _ w₃ hstep₃ => ?_)
    have hfrees : Frees taskId (own = taskId) w₂.state.tasks w₃.state.tasks :=
      frees_of_status hstep₃.1 (by decide)
    rw [htasks₂] at hfrees
    refine Frees.marked (hfrees.congr ?_) .complete
    exact (or_iff_left List.not_mem_nil).symm
  simp only [if_neg hrequested]
  have hrest : ∀ (stored : Bool) (w₃ : Timed Board),
      Frees taskId False w.state.tasks w₃.state.tasks →
      Leaves (Tasks.settleCompletion own t (req.bind CompleteTaskRequest.result) stored) w₃
        (fun r w' =>
        match r with
        | .ok reply => Marked taskId ((Call.complete own req).marks taskId w.state.tasks reply)
            w.state.tasks w'.state.tasks
        | .error _ => Frees taskId False w.state.tasks w'.state.tasks) := by
    intro stored w₃ hkept
    unfold Tasks.settleCompletion
    split
    · exact handled_refuseCompletion hkept
    · refine leaves_store (fun _ w₄ hstep₄ => ?_)
      have hfrees : Frees taskId (own = taskId) w₃.state.tasks w₄.state.tasks :=
        frees_of_status hstep₄.1 (by decide)
      refine leaves_triggerDownstream taskId (fun w₅ hpromoted => ?_)
      refine Frees.marked ((hkept.trans (hfrees.trans hpromoted)).congr ?_) .complete
      rw [false_or, or_false]
      exact (or_iff_left List.not_mem_nil).symm
  cases hresult : req.bind CompleteTaskRequest.result with
  | none =>
      rw [hresult] at hrest
      exact hrest false w₂ (Frees.of_eq htasks₂)
  | some result =>
      rw [hresult] at hrest
      refine leaves_store (fun stored w₃ hstep₃ => hrest stored w₃ ?_)
      have hbeside : Beside taskId (.setTaskResult own (some result)) := trivial
      exact htasks₂ ▸ frees_of_beside hstep₃.1 hbeside

theorem handled_cancelTask (req : Option CancelTaskRequest) :
    Handled taskId (.cancel own req) (Tasks.cancelTask own req) w := by
  unfold Tasks.cancelTask
  refine handled_requireTask (fun t w₁ hsame₁ hget => ?_)
  have htasks₁ := congrArg Board.tasks hsame₁
  by_cases hended : t.status.IsTerminal
  · simp only [if_pos hended]
    exact Frees.of_eq htasks₁
  simp only [if_neg hended]
  -- the intent is recorded first; it moves no dependency
  have hrest : ∀ (w₂ w₃ : Timed Board) (status : TaskStatus) (requeue r : Bool) (reply : Reply),
      w₂.state.tasks = w.state.tasks → status ≠ .blocked →
      RowContract (.setTaskCancelRequeue own requeue) w₂ r w₃ →
      Leaves (do
        let _ ← store
          (.setTaskStatus own status ((req.map CancelTaskRequest.reason).getD "cancelled"))
        let _ ← Tasks.cascadeCancelDependents own ("parent " ++ own ++ " cancelled")
        pure reply) w₃ (fun r w' =>
          match r with
          | .ok reply => Marked taskId ((Call.cancel own req).marks taskId w.state.tasks reply)
              w.state.tasks w'.state.tasks
          | .error _ => Frees taskId False w.state.tasks w'.state.tasks) := by
    intro w₂ w₃ status requeue r reply htasks₂ hstatus hstep₃
    have hbeside : Beside taskId (.setTaskCancelRequeue own requeue) := trivial
    have hkept := frees_of_beside hstep₃.1 hbeside
    have hedges : SameEdges w₂.state.tasks w₃.state.tasks := by
      refine forall₂_of_contract hstep₃.1 (fun _ => ⟨rfl, rfl⟩) (fun t _ t' hchange => ?_)
        (fun t hnew => by cases hnew)
      cases hchange
      exact ⟨rfl, rfl⟩
    rw [htasks₂] at hkept hedges
    refine leaves_close taskId hstatus (fun w₄ hfrees => ?_)
    rw [hedges.triggerChain_eq] at hfrees
    refine Frees.marked ?_ .cancel
    exact (hkept.trans hfrees).congr (Iff.of_eq (false_or _))
  refine leaves_getByTask (fun lease w₂ hsame₂ => ?_)
  have htasks₂ := (congrArg Board.tasks hsame₂).trans htasks₁
  cases lease with
  | none =>
      exact leaves_store (fun r w₃ hstep₃ =>
        hrest w₂ w₃ .cancelled _ r _ htasks₂ (by decide) hstep₃)
  | some lease =>
      refine leaves_store (fun _ w₃ hstep₃ => ?_)
      have htasks₃ : w₃.state.tasks = w.state.tasks :=
        (congrArg Board.tasks hstep₃.1.reply).trans htasks₂
      exact leaves_store (fun r w₄ hstep₄ =>
        hrest w₃ w₄ .cancelRequested _ r _ htasks₃ (by decide) hstep₄)

theorem handled_unblockTask : Handled taskId (.unblock own) (Tasks.unblockTask own) w := by
  unfold Tasks.unblockTask
  refine leaves_store (fun unblocked w₁ hstep => ?_)
  have hfrees : Frees taskId (own = taskId) w.state.tasks w₁.state.tasks :=
    frees_of_unblockTask hstep
  cases unblocked with
  | true => exact hfrees.marked .unblock
  | false =>
      refine hfrees.unfreed (fun hown hwaiting => ?_)
      exact absurd (hstep.2.1.mpr (hown ▸ hwaiting)) Bool.false_ne_true

theorem handled_manualAdvance : Handled taskId (.advance own) (Tasks.manualAdvance own) w := by
  unfold Tasks.manualAdvance
  refine handled_requireTask (fun t w₁ hsame₁ hget => ?_)
  have htasks₁ := congrArg Board.tasks hsame₁
  by_cases hended : t.status.IsTerminal
  · simp only [if_pos hended]
    exact Frees.of_eq htasks₁
  simp only [if_neg hended]
  refine wp_allCompleted (fun hstep => hstep.1) (fun _ => trivial) (fun allDone w₂ hsame₂ _ => ?_)
  have htasks₂ := (congrArg Board.tasks hsame₂).trans htasks₁
  cases allDone with
  | false => exact Frees.of_eq htasks₂
  | true =>
      refine leaves_store (fun _ w₃ hstep₃ => leaves_store (fun _ w₄ hstep₄ => ?_))
      have hfrees : Frees taskId (own = taskId) w₂.state.tasks w₃.state.tasks :=
        frees_of_status hstep₃.1 (by decide)
      rw [htasks₂] at hfrees
      have hpass : Beside taskId .schedulePendingDetailed := trivial
      refine Frees.marked ?_ .advance
      exact (hfrees.trans (frees_of_beside hstep₄.1 hpass)).congr (Iff.of_eq (or_false _))

theorem handled_setDependencies (req : SetDependenciesRequest) :
    Handled taskId (.setDependencies own req) (Tasks.setDependencies own req) w :=
  handled_of_only (only_setDependencies (Allows.tends allows_beside) own req trivial) (fun _ => rfl)

/-! ### Blocking and answering -/

/-- The checks of a ballot settle its class and nothing else. -/
theorem answer_of_validateCore {b ballot : Ballot} (h : BallotRules.validateCore b = .ok ballot) :
    ballot.answer = b.answer := by
  unfold BallotRules.validateCore at h
  dsimp only [bind, Except.bind, throw, throwThe, MonadExceptOf.throw] at h
  generalize (if b.cls = "" then BallotRules.defaultClass else b.cls) = cls at h
  split at h
  · cases h
  split at h
  · cases h
  split at h
  · cases h
  split at h
  · cases h
  split at h
  · cases h
  split at h
  · cases h
  · cases h
    rfl

theorem not_isAnswered_of_buildBallot {now : Nat} {question : String} {options : List String}
    {cls : Option String} {laneKey : String} {decisionRef decisionId : Option String}
    {ballot : Ballot}
    (h : BallotRules.buildBallot now question options cls laneKey decisionRef decisionId =
      .ok ballot) : ¬BallotRules.IsAnswered ballot := by
  unfold BallotRules.buildBallot at h
  cases href : BallotRules.parseDecisionRef decisionRef with
  | error e =>
      rw [href] at h
      cases h
  | ok parsedRef =>
      cases hid : BallotRules.validateDecisionId decisionId with
      | error e =>
          rw [href, hid] at h
          cases h
      | ok parsedId =>
          simp only [href, hid, bind, Except.bind] at h
          exact fun hanswered => hanswered.1 (answer_of_validateCore h)

theorem handled_blockTask (req : BlockTaskRequest) :
    Handled taskId (.block own req) (Tasks.blockTask own req) w := by
  by_cases hown : own = taskId
  swap
  · exact handled_of_only (only_blockTask allows_beside own req (fun _ => hown) (fun _ => hown))
      (fun _ => if_neg hown)
  subst hown
  unfold Tasks.blockTask
  refine handled_requireTask (fun t w₁ hsame₁ hget => ?_)
  have htasks₁ := congrArg Board.tasks hsame₁
  by_cases hended : t.status.IsTerminal
  · simp only [if_pos hended]
    exact Frees.of_eq htasks₁
  simp only [if_neg hended]
  by_cases hblocked : t.status = .blocked
  · simp only [if_pos hblocked]
    exact Frees.of_eq htasks₁
  simp only [if_neg hblocked]
  refine leaves_store (fun now w₂ hstep₂ => ?_)
  have htasks₂ := (congrArg Board.tasks hstep₂.1.reply).trans htasks₁
  cases hbuild : BallotRules.buildBallot now req.question req.options req.cls
      (if req.laneKey = "" then t.laneKey else req.laneKey) req.decisionRef req.decisionId with
  | error e => exact Frees.of_eq htasks₂
  | ok ballot =>
      refine leaves_revokeLeaseOf (fun w₃ htasks₃ => ?_)
      have hget₃ : w₃.state.tasks.get? own = some t := by
        rw [htasks₃, htasks₂]
        exact hget
      refine leaves_store (fun _ w₄ hstep₄ => ?_)
      have hget₄ := hstep₄.2 t hget₃
      refine leaves_store (fun ok w₅ hstep₅ => ?_)
      have hopen : ¬ClusterState.Refuses t.status .blocked := fun hrefuses => hended hrefuses.1
      have hok : ok = true := hstep₅.2 _ hget₄ hopen
      have hget₅ := hstep₅.1.reply.2 _ hget₄ hopen
      subst hok
      simp only [Bool.true_eq_false, if_false]
      have hmarks : (if own = own then some BallotEvent.filed else none) = some .filed := if_pos rfl
      change Marked own _ _ _
      dsimp only [Call.marks]
      rw [hmarks]
      refine ⟨fun hwaiting => hblocked ((waiting_iff_of_get? hget).mp hwaiting),
        (waiting_iff_of_get? hget₅).mpr rfl, ballot, ?_, not_isAnswered_of_buildBallot hbuild⟩
      rw [ballotOf, hget₅]
      rfl

theorem handled_answerTask (req : AnswerTaskRequest) :
    Handled taskId (.answer own req) (Tasks.answerTask own req) w := by
  by_cases hown : own = taskId
  swap
  · exact handled_of_only (only_answerTask allows_beside own req (fun _ => hown) hown)
      (fun _ => if_neg hown)
  subst hown
  unfold Tasks.answerTask
  refine handled_requireTask (fun t w₁ hsame₁ hget => ?_)
  have htasks₁ := congrArg Board.tasks hsame₁
  split
  swap
  · exact Frees.of_eq htasks₁
  rename_i outstanding hblocked hballot
  split
  · exact Frees.of_eq htasks₁
  rename_i answer hanswer
  refine leaves_store (fun now w₂ hstep₂ => ?_)
  have htasks₂ := (congrArg Board.tasks hstep₂.1.reply).trans htasks₁
  cases hrecord : BallotRules.recordAnswer now outstanding answer req.answeredBy with
  | error e => exact Frees.of_eq htasks₂
  | ok recorded =>
      have hget₂ : w₂.state.tasks.get? own = some t := htasks₂ ▸ hget
      dsimp only
      refine leaves_store (fun _ w₃ hstep₃ => leaves_store (fun resumed w₄ hstep₄ => ?_))
      have hget₃ := hstep₃.2 t hget₂
      have hfrees : Frees own (own = own) w₃.state.tasks w₄.state.tasks :=
        frees_of_unblockToReady hstep₄
      have hanswered : Marked own (some .answered) w.state.tasks w₄.state.tasks := by
        refine ⟨(waiting_iff_of_get? hget).mpr hblocked, hstep₄.2.2, outstanding, now, answer,
          req.answeredBy, recorded, ?_, hrecord, ?_⟩
        · rw [ballotOf, hget]
          exact hballot
        · rw [hfrees.ballot, ballotOf, hget₃]
          rfl
      have hmarks : (if own = own then some BallotEvent.answered else none) = some .answered :=
        if_pos rfl
      cases resumed with
      | false | true =>
          change Marked own _ _ _
          dsimp only [Call.marks]
          rw [hmarks]
          exact hanswered

/-! ### Every call -/

theorem handled_handler {c : Call} {q : Api Reply} (h : c.handler = some q) :
    Handled taskId c q w := by
  cases c with
  | submit _ req =>
      cases h
      exact handled_submitTask req
  | claim _ req =>
      cases h
      exact handled_claimTask req
  | release _ req =>
      cases h
      exact handled_releaseTask req
  | complete _ req =>
      cases h
      exact handled_completeTask req
  | fail _ req =>
      cases h
      exact handled_failTask req
  | cancel _ req =>
      cases h
      exact handled_cancelTask req
  | block _ req =>
      cases h
      exact handled_blockTask req
  | answer _ req =>
      cases h
      exact handled_answerTask req
  | unblock =>
      cases h
      exact handled_unblockTask
  | advance =>
      cases h
      exact handled_manualAdvance
  | setDependencies _ req =>
      cases h
      exact handled_setDependencies req
  | createBatch | triggerPending | schedulePass | recover | sweep => cases h

/-- The tasks of the in-memory store. -/
abbrev storedTasks (w : Timed Backend.memory.Store) : Table Task :=
  (Backend.memory.board w.state).tasks

/-- A call of the task API does to the ballots of a task what its event says. -/
theorem Call.marked_run {c : Call} (hc : c.handler ≠ none) (w : Timed Backend.memory.Store) :
    Marked taskId (c.ballotEvent taskId w) (storedTasks w)
      (storedTasks (c.prog.run Backend.memory.tick w).2) := by
  obtain ⟨q, hq⟩ := Option.ne_none_iff_exists'.mp hc
  have hhandled : Handled taskId c q (Backend.memory.view w) := handled_handler hq
  have hrun := (along_of_wp implements_rows hhandled).2
  rw [c.prog_of_handler hq, run_discard, ballotEvent, hq]
  cases hreply : (q.run Backend.memory.tick w).1 with
  | error e =>
      rw [hreply] at hrun
      dsimp only
      rw [hreply]
      exact hrun
  | ok reply =>
      rw [hreply] at hrun
      dsimp only
      rw [hreply]
      exact hrun

end Handlers

/-! ## Runs -/

/-- The row of a task against the history of its ballots. -/
structure Ledger (taskId : String) (events : List BallotEvent) (tasks : Table Task) : Prop where
  waiting : Waiting taskId tasks ↔ events.getLast? = some .filed
  unanswered : Waiting taskId tasks →
    ∃ ballot, ballotOf taskId tasks = some ballot ∧ ¬BallotRules.IsAnswered ballot
  answered : ∀ before after, events = before ++ .answered :: after →
    before.getLast? = some .filed

section Ledgers

variable {taskId : String} {events : List BallotEvent} {tasks tasks' : Table Task}

theorem Ledger.empty (h : tasks.rows = []) : Ledger taskId [] tasks := by
  have hnone : tasks.get? taskId = none := by
    rw [Table.get?_eq_none_iff, h]
    exact fun _ ha => absurd ha List.not_mem_nil
  have hidle : ¬Waiting taskId tasks := not_waiting_of_none hnone
  refine ⟨iff_of_false hidle nofun, fun hwaiting => absurd hwaiting hidle, ?_⟩
  exact fun before after heq => absurd heq (by simp)

theorem getLast?_snoc (event : BallotEvent) :
    (events ++ [event]).getLast? = some .filed ↔ event = .filed := by
  rw [List.getLast?_append, List.getLast?_singleton, Option.some_or, Option.some.injEq]

theorem Ledger.answered_snoc {event : BallotEvent} (h : Ledger taskId events tasks)
    (hlast : event = .answered → Waiting taskId tasks) :
    ∀ before after, events ++ [event] = before ++ .answered :: after →
      before.getLast? = some .filed := by
  intro before after heq
  rcases List.eq_nil_or_concat' after with rfl | ⟨rest, last, rfl⟩
  · obtain ⟨rfl, hevent⟩ := List.append_inj' heq rfl
    exact h.waiting.mp (hlast (List.singleton_inj.mp hevent))
  · rw [← List.cons_append, ← List.append_assoc] at heq
    exact h.answered before rest (List.append_inj' heq rfl).1

/-- An event extends the history by what it does to the row. -/
theorem Ledger.snoc [Unicode] {event : Option BallotEvent} (h : Ledger taskId events tasks)
    (hmarked : Marked taskId event tasks tasks') :
    Ledger taskId (events ++ event.toList) tasks' := by
  have hidle : ∀ event, event ≠ .filed → ¬Waiting taskId tasks' →
      (event = .answered → Waiting taskId tasks) → Ledger taskId (events ++ [event]) tasks' := by
    intro event hother hfree hlast
    refine ⟨iff_of_false hfree (fun heq => hother ((getLast?_snoc event).mp heq)),
      fun hwaiting => absurd hwaiting hfree, h.answered_snoc hlast⟩
  cases event with
  | none =>
      have hkept : Frees taskId False tasks tasks' := hmarked
      have hsame : Waiting taskId tasks' ↔ Waiting taskId tasks :=
        hkept.waiting.trans (and_iff_left id)
      rw [Option.toList_none, List.append_nil]
      refine ⟨hsame.trans h.waiting, fun hwaiting => ?_, h.answered⟩
      rw [hkept.ballot]
      exact h.unanswered (hsame.mp hwaiting)
  | some event =>
      rw [Option.toList_some]
      cases event with
      | filed =>
          obtain ⟨-, hwaiting, hballot⟩ := hmarked
          exact ⟨iff_of_true hwaiting ((getLast?_snoc _).mpr rfl), fun _ => hballot,
            h.answered_snoc nofun⟩
      | answered => exact hidle .answered nofun hmarked.2.1 (fun _ => hmarked.1)
      | released releaser =>
          have hfreed : Frees taskId True tasks tasks' := hmarked
          exact hidle _ nofun (fun hwaiting => (hfreed.waiting.mp hwaiting).2 trivial) nofun
      | replaced => exact hidle .replaced nofun hmarked.1 nofun

/-- An answered ballot stays, unless a ballot is filed or the row is replaced. -/
theorem Marked.ballot_of_answered [Unicode] {event : Option BallotEvent} {ballot : Ballot}
    (hmarked : Marked taskId event tasks tasks') (hfiled : event ≠ some .filed)
    (hreplaced : event ≠ some .replaced) (hballot : ballotOf taskId tasks = some ballot)
    (hanswered : BallotRules.IsAnswered ballot) : ballotOf taskId tasks' = some ballot := by
  cases event with
  | none => exact (Frees.ballot hmarked).trans hballot
  | some event =>
      cases event with
      | filed => exact absurd rfl hfiled
      | answered =>
          obtain ⟨-, -, outstanding, now, answer, answeredBy, recorded, hrow, hrecord, -⟩ := hmarked
          rw [hballot, Option.some.injEq] at hrow
          exact absurd (hrow ▸ hanswered) (not_isAnswered_of_recordAnswer hrecord)
      | released => exact (Frees.ballot hmarked).trans hballot
      | replaced => exact absurd rfl hreplaced

/-! ### What is shown -/

theorem pendingBallot_eq_some {t : Task} {b : PendingBallot} (h : pendingBallot t = some b) :
    b.taskId = t.id := by
  unfold pendingBallot at h
  split at h
  · cases h
  · split at h <;> cases h
    rfl

theorem isSome_pendingBallot_iff {t : Task} :
    (pendingBallot t).isSome ↔
      t.status = .blocked ∧ ∃ ballot, t.ballot = some ballot ∧ ¬BallotRules.IsAnswered ballot := by
  unfold pendingBallot
  cases hballot : t.ballot with
  | none => exact iff_of_false Bool.false_ne_true (fun ⟨_, _, h, _⟩ => by cases h)
  | some ballot =>
      by_cases hshown : t.status ≠ .blocked ∨ BallotRules.IsAnswered ballot
      · simp only [if_pos hshown]
        refine iff_of_false Bool.false_ne_true ?_
        rintro ⟨hblocked, ballot', heq, hopen⟩
        cases heq
        exact hshown.elim (fun hne => hne hblocked) hopen
      · simp only [if_neg hshown]
        rw [not_or, not_not] at hshown
        exact iff_of_true rfl ⟨hshown.1, ballot, rfl, hshown.2⟩

/-- Every task is shown at most once, and a blocked task with an unanswered ballot is. -/
theorem count_pendingBallots (h : Waiting taskId tasks →
      ∃ ballot, ballotOf taskId tasks = some ballot ∧ ¬BallotRules.IsAnswered ballot) :
    ((pendingBallots tasks.rows).map PendingBallot.taskId).count taskId =
      if Waiting taskId tasks then 1 else 0 := by
  have hperm := (List.perm_insertionSort PendingBallot.AskedBefore
    (tasks.rows.filterMap pendingBallot)).map PendingBallot.taskId
  have hids : ∀ rows : List Task,
      ((rows.filterMap pendingBallot).map PendingBallot.taskId).Sublist (rows.map Task.id) := by
    intro rows
    induction rows with
    | nil => exact List.Sublist.refl _
    | cons t rows ih =>
        cases hshown : pendingBallot t with
        | none =>
            rw [List.filterMap_cons_none hshown]
            exact ih.cons _
        | some b =>
            rw [List.filterMap_cons_some hshown, List.map_cons, List.map_cons,
              pendingBallot_eq_some hshown]
            exact ih.cons_cons _
  have hnodup := tasks.nodup.sublist (hids tasks.rows)
  unfold pendingBallots
  rw [hperm.count_eq, hnodup.count]
  refine if_congr ?_ rfl rfl
  constructor
  · intro hmem
    obtain ⟨b, hb, rfl⟩ := List.mem_map.mp hmem
    obtain ⟨t, ht, hshown⟩ := List.mem_filterMap.mp hb
    rw [pendingBallot_eq_some hshown]
    refine (waiting_iff_of_get? (Table.get?_of_mem ht)).mpr ?_
    exact (isSome_pendingBallot_iff.mp (by rw [hshown]; rfl)).1
  · intro hwaiting
    obtain ⟨ballot, hballot, hopen⟩ := h hwaiting
    obtain ⟨t, hget, hblocked⟩ := Option.map_eq_some_iff.mp hwaiting
    rw [ballotOf, hget] at hballot
    have hshown : (pendingBallot t).isSome :=
      isSome_pendingBallot_iff.mpr ⟨hblocked, ballot, hballot, hopen⟩
    obtain ⟨b, hb⟩ := Option.isSome_iff_exists.mp hshown
    refine List.mem_map.mpr ⟨b, List.mem_filterMap.mpr ⟨t, Table.mem_of_get? hget, hb⟩, ?_⟩
    exact (pendingBallot_eq_some hb).trans (Table.key_of_get? hget)

end Ledgers

section Runs

variable [Unicode] {taskId : String}

theorem ledger_of_calls {cs : List TimedCall} {w : Timed Backend.memory.Store}
    {events : List BallotEvent} (hcalls : ∀ c ∈ cs, c.call.handler ≠ none)
    (h : Ledger taskId events (storedTasks w)) :
    Ledger taskId (events ++ ballotEvents taskId cs w)
      (storedTasks (Backend.memory.runCalls cs w)) := by
  induction cs generalizing w events with
  | nil =>
      rw [ballotEvents, List.append_nil]
      exact h
  | cons c cs ih =>
      obtain ⟨hcall, hrest⟩ := List.forall_mem_cons.mp hcalls
      have hnext := h.snoc (Call.marked_run hcall (c.enter w))
      rw [ballotEvents, ← List.append_assoc]
      exact ih hrest hnext

/-- An answer is on record until a ballot is filed or the row is replaced. -/
theorem ballot_of_calls {cs : List TimedCall} {w : Timed Backend.memory.Store} {ballot : Ballot}
    (hcalls : ∀ c ∈ cs, c.call.handler ≠ none)
    (hevents : ∀ event ∈ ballotEvents taskId cs w, event ≠ .filed ∧ event ≠ .replaced)
    (hballot : ballotOf taskId (storedTasks w) = some ballot)
    (hanswered : BallotRules.IsAnswered ballot) :
    ballotOf taskId (storedTasks (Backend.memory.runCalls cs w)) = some ballot := by
  induction cs generalizing w with
  | nil => exact hballot
  | cons c cs ih =>
      obtain ⟨hcall, hrest⟩ := List.forall_mem_cons.mp hcalls
      rw [ballotEvents] at hevents
      have hfirst : ∀ event, c.call.ballotEvent taskId (c.enter w) = some event →
          event ≠ .filed ∧ event ≠ .replaced := by
        intro event hevent
        refine hevents event (List.mem_append_left _ ?_)
        rw [hevent]
        exact List.mem_singleton_self event
      refine ih hrest (fun event hevent => hevents event (List.mem_append_right _ hevent)) ?_
      exact (Call.marked_run hcall (c.enter w)).ballot_of_answered
        (fun hfiled => (hfirst _ hfiled).1 rfl) (fun hreplaced => (hfirst _ hreplaced).2 rfl)
        hballot hanswered

/-- Through any run of the handlers of the task API on an in-memory store without
tasks: a task is blocked exactly when a ballot was filed for it and nothing has
become of the ballot since, and then it is listed once, and otherwise not at all. An
answer is accepted in no other situation, it is recorded with its directive, and it
stays as it is until the next ballot is filed or the row is replaced. -/
theorem ballots_of_calls (taskId : String) (cs : List TimedCall) (w : Timed Backend.memory.Store)
    (hcalls : ∀ c ∈ cs, c.call.handler ≠ none) (hempty : (storedTasks w).rows = []) :
    (Waiting taskId (storedTasks (Backend.memory.runCalls cs w)) ↔
      (ballotEvents taskId cs w).getLast? = some .filed) ∧
    ((pendingBallots (storedTasks (Backend.memory.runCalls cs w)).rows).map
      PendingBallot.taskId).count taskId =
        (if (ballotEvents taskId cs w).getLast? = some .filed then 1 else 0) ∧
    (∀ before c after, cs = before ++ c :: after →
      c.call.ballotEvent taskId (c.enter (Backend.memory.runCalls before w)) = some .answered →
      (ballotEvents taskId before w).getLast? = some .filed ∧
        ∃ outstanding now answer answeredBy recorded,
          ballotOf taskId (storedTasks (Backend.memory.runCalls before w)) = some outstanding ∧
          BallotRules.recordAnswer now outstanding answer answeredBy = .ok recorded ∧
          ballotOf taskId (storedTasks (Backend.memory.runCalls (before ++ [c]) w)) =
            some (BallotRules.attachFormal recorded taskId)) ∧
    (∀ before after ballot, cs = before ++ after →
      ballotOf taskId (storedTasks (Backend.memory.runCalls before w)) = some ballot →
      BallotRules.IsAnswered ballot →
      (∀ event ∈ ballotEvents taskId after (Backend.memory.runCalls before w),
        event ≠ .filed ∧ event ≠ .replaced) →
      ballotOf taskId (storedTasks (Backend.memory.runCalls cs w)) = some ballot) := by
  have hstart : Ledger taskId [] (storedTasks w) := Ledger.empty hempty
  have hledger := ledger_of_calls hcalls hstart
  rw [List.nil_append] at hledger
  refine ⟨hledger.waiting, ?_, ?_, ?_⟩
  · rw [count_pendingBallots hledger.unanswered]
    exact if_congr hledger.waiting rfl rfl
  · rintro before c after rfl hevent
    have hbefore := ledger_of_calls (fun c hc => hcalls c (List.mem_append_left _ hc)) hstart
    have hcall := hcalls c (List.mem_append_right _ List.mem_cons_self)
    have hmarked : Marked taskId (c.call.ballotEvent taskId _) _ _ :=
      Call.marked_run hcall (c.enter (Backend.memory.runCalls before w))
    rw [hevent] at hmarked
    refine ⟨hbefore.waiting.mp hmarked.1, ?_⟩
    have hrun : Backend.memory.runCalls (before ++ [c]) w =
        (c.call.prog.run Backend.memory.tick (c.enter (Backend.memory.runCalls before w))).2 :=
      runAll_append before [c] w
    rw [hrun]
    exact hmarked.2.2
  · rintro before after ballot rfl hballot hanswered hevents
    have hlast := ballot_of_calls (fun c hc => hcalls c (List.mem_append_right _ hc)) hevents
      hballot hanswered
    unfold Backend.runCalls at hlast ⊢
    rwa [runAll_append]

end Runs

section Example

local instance asciiBallots : Unicode := Unicode.ascii

/-- An in-memory store with no nodes and no tasks. -/
def emptyBallots : Timed ClusterState := ⟨ClusterState.empty, fun _ => 0⟩

/-- A task is submitted and claimed, and its worker files a ballot. -/
def ballotAsked : List TimedCall :=
  [⟨.submit "t" { title := "t" }, fun _ => 1⟩,
    ⟨.claim "t" { nodeId := "n" }, fun _ => 2⟩,
    ⟨.block "t" { question := "which?", options := ["this", "that"] }, fun _ => 3⟩]

/-- The worker releases the task it is blocked on. -/
def givenUp : TimedCall := ⟨.release "t" { nodeId := "n" }, fun _ => 4⟩

/-- The owner answers. -/
def settled : TimedCall := ⟨.answer "t" { answer := "this", answeredBy := "owner" }, fun _ => 4⟩

/-- A task is submitted anew under its id. -/
def anew : TimedCall := ⟨.submit "t" { title := "t" }, fun _ => 5⟩

/-- The ballot is listed once while the owner is asked. -/
theorem ballots_of_calls_asked :
    ((pendingBallots (storedTasks (Backend.memory.runCalls ballotAsked emptyBallots)).rows).map
      PendingBallot.taskId).count "t" = 1 := by
  have hcalls : ∀ c ∈ ballotAsked, c.call.handler ≠ none := by
    intro c hc
    simp only [ballotAsked, List.mem_cons, List.not_mem_nil, or_false] at hc
    rcases hc with rfl | rfl | rfl <;> exact nofun
  have hasked := ballots_of_calls "t" ballotAsked emptyBallots hcalls rfl
  rw [hasked.2.1]
  decide +kernel

/-- A release returns the task while nothing but the release has become of its
ballot, and a submission under its id removes a recorded answer though nothing is
filed. -/
theorem ballot_given_up :
    (¬Waiting "t" (storedTasks (Backend.memory.runCalls (ballotAsked ++ [givenUp]) emptyBallots)) ∧
      ((ballotEvents "t" (ballotAsked ++ [givenUp]) emptyBallots).filter
        (· ≠ .released .release)).getLast? = some .filed) ∧
    (∃ ballot, ballotOf "t" (storedTasks
        (Backend.memory.runCalls (ballotAsked ++ [settled]) emptyBallots)) = some ballot ∧
      BallotRules.IsAnswered ballot ∧
      ballotOf "t" (storedTasks
        (Backend.memory.runCalls (ballotAsked ++ [settled, anew]) emptyBallots)) = none) := by
  refine ⟨by decide +kernel, ?_⟩
  have hanswered : ((ballotOf "t" (storedTasks
      (Backend.memory.runCalls (ballotAsked ++ [settled]) emptyBallots))).map Ballot.answer) =
      some (some "this") := by
    decide +kernel
  obtain ⟨ballot, hballot, hanswer⟩ := Option.map_eq_some_iff.mp hanswered
  refine ⟨ballot, hballot, ?_, by decide +kernel⟩
  rw [BallotRules.IsAnswered, hanswer]
  decide

end Example

end HermesCluster
