import HermesCluster.Lib.Retries
import HermesCluster.Plugin.ApiCall
import HermesCluster.Routers.BallotProtocol
import HermesCluster.Routers.ReviewerLanes
import HermesCluster.Routers.Terminality
import HermesCluster.State.Refinement
/-!
# What a retry does to main

A request whose answer is lost is sent again, though main may have run it. Main sees that a
task is closed, blocked or answered, and that a lane has its reviewer; where it does, a
request leaves everything as it is.
-/

namespace HermesCluster

open Program hiding pure bind

namespace Plugin

section Handlers

variable [Unicode] {k : Backend}

/-! ## Reads -/

theorem step_of_reads (op : StoreOp) (h : Reads op) (now : Nat) (s : k.Store) :
    (k.step now op s).2 = s := by
  cases k with
  | memory => cases op <;> first | exact h.elim | rfl
  | sql d => cases op <;> first | exact h.elim | rfl

/-- A part that reads, and what comes after it. -/
theorem run_bind_of_reads {α β : Type} {p : Api α} (h : p.Only Reads) (f : α → Api β)
    (w : Timed k.Store) :
    (∃ e w', w'.state = w.state ∧ (p >>= f).run k.tick w = (.error e, w')) ∨
      ∃ a w', w'.state = w.state ∧ (p >>= f).run k.tick w = (f a).run k.tick w' := by
  induction p generalizing w with
  | pure a => exact .inr ⟨a, w, rfl, rfl⟩
  | raise e => exact .inl ⟨e, w, rfl, rfl⟩
  | call op next ih =>
      have hsame : (k.tick op w).2.state = w.state := step_of_reads op h.1 _ _
      rcases ih _ (h.2 _) (k.tick op w).2 with ⟨e, w', hstate, hrun⟩ | ⟨a, w', hstate, hrun⟩
      · exact .inl ⟨e, w', hstate.trans hsame, hrun⟩
      · exact .inr ⟨a, w', hstate.trans hsame, hrun⟩

theorem run_store_bind {β : Type} (op : StoreOp) (f : op.Res → Api β) (w : Timed k.Store) :
    (store op >>= f).run k.tick w = (f (k.tick op w).1).run k.tick (k.tick op w).2 := rfl

/-- The task that a handler asks for, or its answer where there is none. -/
theorem run_requireTask {β : Type} (taskId : String) (f : Task → Api β) (w : Timed k.Store) :
    (Tasks.requireTask taskId >>= f).run k.tick w =
      match (k.board w.state).tasks.get? taskId with
      | none => (.error (.http 404 "task not found"), (k.tick (.getTask taskId) w).2)
      | some t => (f t).run k.tick (k.tick (.getTask taskId) w).2 := by
  have hreply : (k.tick (.getTask taskId) w).1 = (k.board w.state).tasks.get? taskId :=
    (k.implements (.getTask taskId) w).reply.1
  rw [Tasks.requireTask, bind_assoc, run_store_bind, hreply]
  cases (k.board w.state).tasks.get? taskId with
  | none => rfl
  | some t => rfl

theorem state_getTask (taskId : String) (w : Timed k.Store) :
    (k.tick (.getTask taskId) w).2.state = w.state :=
  step_of_reads (.getTask taskId) trivial _ _

/-! ## The effect of a call -/

/-- The store after a call. -/
def after (k : Backend) (c : TimedCall) (s : k.Store) : k.Store :=
  (c.call.prog.run k.tick ⟨s, c.clock⟩).2.state

/-- The task is closed. -/
def Closed (taskId : String) (tasks : Table Task) : Prop :=
  ∃ t, tasks.get? taskId = some t ∧ Tasks.IsClosed t.status

/-- The task does not wait for an answer. -/
def Resumed (taskId : String) (tasks : Table Task) : Prop :=
  ∃ t, tasks.get? taskId = some t ∧ t.status ≠ .blocked

theorem after_eq {c : TimedCall} {p : Api HermesCluster.Reply} (h : c.call.handler = some p)
    (s : k.Store) : after k c s = (p.run k.tick ⟨s, c.clock⟩).2.state := by
  rw [after, Call.prog_of_handler h, run_discard]

/-! ### A completion -/

/-- A call that creates nothing and releases nothing reopens nothing. -/
theorem not_writesOverEnded_of_issued {c : Call} {w₀ : Timed Board} {b : Board} {op : StoreOp}
    (h : Issued c w₀ b op) (hsubmit : ∀ taskId req, c ≠ .submit taskId req)
    (hbatch : ∀ plans, c ≠ .createBatch plans) (hrelease : ∀ taskId req, c ≠ .release taskId req)
    {taskId : String} {t : Task} (ht : b.tasks.get? taskId = some t) :
    ¬WritesOverEnded k op t := by
  cases k with
  | memory =>
      intro hover
      cases h with
      | submit hc => exact hsubmit _ _ hc
      | batch hc => exact hbatch _ hc
      | idle hidle => cases op <;> first | exact hidle.elim | exact hover.elim
      | close | promote | claim | advance | release => exact hover.1 rfl
      | retry | resume | dependencies | unassign => exact hover
  | sql d => exact h.not_writesOverEnded (fun _ _ hc => absurd hc (hrelease _ _)) ht

/-- The contract of a store, along a call that reopens nothing. -/
def EndedContract (k : Backend) (op : StoreOp) (w : Timed Board) (r : op.Res)
    (w' : Timed Board) : Prop :=
  Contract k op w r w' ∧ EndedKept w.state w'.state

/-- A completion reopens nothing. -/
theorem along_endedContract (taskId : String) (w : Timed k.Store) :
    (Call.complete taskId none).prog.Along k.tick
      (fun w op w' => EndedContract k op (k.view w) (k.tick op w).1 (k.view w')) w := by
  have hkeeps : (Call.complete taskId none).prog.Keeps k.tick
      (fun w op w' => EndedContract k op (k.view w) (k.tick op w).1 (k.view w'))
      (fun _ => True) w := by
    refine Backend.keeps_issued (fun _ hc => by cases hc) trivial
      (fun w' op _ _ hissued => ⟨⟨k.implements op w', ?_⟩, trivial⟩)
    refine Backend.endedKept_step k _ op w'.state (fun id t ht => ?_)
    exact not_writesOverEnded_of_issued hissued (fun _ _ hc => by cases hc)
      (fun _ hc => by cases hc) (fun _ _ hc => by cases hc) ht
  exact hkeeps.1

omit [Unicode] in
theorem closed_of_ended {taskId : String} {b b' : Board} (h : EndedKept b b')
    (hclosed : Closed taskId b.tasks) : Closed taskId b'.tasks := by
  obtain ⟨t, hget, hstatus⟩ := hclosed
  have hended : t.status.IsTerminal := by
    rcases hstatus with h | h | h <;> simp [TaskStatus.IsTerminal, h]
  obtain ⟨t', hget', hkept⟩ := h taskId t hget
  refine ⟨t', hget', ?_⟩
  rcases hkept hended with hsame | ⟨-, hcancelled⟩
  · rw [hsame]
    exact hstatus
  · exact .inr (.inr hcancelled)

/-- A completion that the gate does not refuse closes its task. -/
theorem wp_completeTask (taskId : String) (w : Timed Board)
    (hveto : ∀ t, w.state.tasks.get? taskId = some t →
      ReviewerGate.reviewerCompletionVeto t none = none) :
    (Tasks.completeTask taskId none).Wp (EndedContract k) (fun _ _ => True) w (fun _ w' =>
      w.state.tasks.get? taskId ≠ none → Closed taskId w'.state.tasks) := by
  rw [Tasks.completeTask_eq]
  refine wp_requireTask And.left (fun _ => trivial) (fun _ _ hnone hsome => absurd hnone hsome)
    (fun t w₁ hsame₁ hget => ?_)
  have hget₁ : w₁.state.tasks.get? taskId = some t := by
    rw [hsame₁]
    exact hget
  by_cases hclosed : Tasks.IsClosed t.status
  · rw [if_pos hclosed]
    exact fun _ => ⟨t, hget₁, hclosed⟩
  rw [if_neg hclosed]
  refine wp_revokeLeaseOf And.left (fun _ => trivial) (fun w₂ htasks₂ => ?_)
  have hget₂ : w₂.state.tasks.get? taskId = some t := by
    rw [htasks₂]
    exact hget₁
  -- a status that is written is there at the end
  have hwritten : ∀ {w' w'' : Timed Board} {status reason r}, Tasks.IsClosed status →
      w'.state.tasks.get? taskId = some t → ¬ClusterState.Refuses t.status status →
      EndedContract k (.setTaskStatus taskId status reason) w' r w'' →
      Closed taskId w''.state.tasks := by
    intro w' w'' status reason r hstatus hget' hguard hstep
    exact ⟨_, hstep.1.reply.2 t hget' hguard, hstatus⟩
  by_cases hrequested : t.status = .cancelRequested
  · rw [if_pos hrequested]
    refine wp_perform.mpr ⟨trivial, fun _ w₃ hstep => ?_⟩
    refine fun _ => hwritten (.inr (.inr rfl)) hget₂ ?_ hstep
    exact fun hrefuses => hrefuses.2 ⟨hrequested, rfl⟩
  rw [if_neg hrequested]
  change (Tasks.settleCompletion taskId t none false).Wp _ _ w₂ _
  unfold Tasks.settleCompletion
  rw [hveto t hget]
  refine wp_perform.mpr ⟨trivial, fun _ w₃ hstep => ?_⟩
  have hopen : ¬t.status.IsTerminal := by
    rintro (h | h | h | h)
    · exact hclosed (.inl h)
    · exact hclosed (.inr (.inl h))
    · exact hclosed (.inr (.inr h))
    · exact hrequested h
  have hdone := hwritten (.inl rfl) hget₂ (fun hrefuses => hopen hrefuses.1) hstep
  -- the dependents that are promoted were not closed
  have hrest : ((Tasks.triggerDownstream taskId >>= fun _ => pure
      ({ status := some "completed", resultStored := some false } : HermesCluster.Reply)) :
        Api HermesCluster.Reply).Only (fun _ => True) :=
    only_bind (only_triggerDownstream (fun _ => trivial) taskId
      (fun _ _ => ⟨trivial, trivial⟩)) (fun _ => trivial)
  refine (hrest.wp_of_step (R := fun w w' => EndedKept w.state w'.state) (fun _ _ _ => trivial)
    (fun w => EndedKept.refl w.state)
    (fun {w w' w''} (h : EndedKept w.state w'.state) (h' : EndedKept w'.state w''.state) =>
      h.trans h') (fun _ hstep => hstep.2)).mono (fun _ w₄ hkept _ => ?_)
  exact closed_of_ended hkept hdone

/-- A completion that the gate does not refuse settles, whatever it finds. -/
theorem settles_complete (taskId : String) (clock : Nat → Nat) (s : k.Store)
    (hveto : ∀ t, (k.board s).tasks.get? taskId = some t →
      ReviewerGate.reviewerCompletionVeto t none = none) :
    Retries.Settles (after k) (fun s => Closed taskId (k.board s).tasks)
      ⟨.complete taskId none, clock⟩ s := by
  have hafter : after k ⟨.complete taskId none, clock⟩ s =
      ((Tasks.completeTask taskId none).run k.tick ⟨s, clock⟩).2.state := after_eq rfl s
  constructor
  · rintro ⟨t, hget, hclosed⟩
    rw [hafter, Tasks.completeTask_eq, run_requireTask, hget]
    dsimp only
    rw [if_pos hclosed]
    exact state_getTask taskId _
  · by_cases hnone : (k.board s).tasks.get? taskId = none
    · left
      rw [hafter, Tasks.completeTask_eq, run_requireTask, hnone]
      exact state_getTask taskId _
    · right
      have hprog : (Call.complete taskId none).prog.Wp (EndedContract k) (fun _ _ => True)
          (k.view ⟨s, clock⟩) (fun _ w' => Closed taskId w'.state.tasks) := by
        rw [Call.prog_of_handler (c := .complete taskId none) rfl, wp_bind]
        refine (wp_completeTask taskId (k.view ⟨s, clock⟩) hveto).mono (fun r w' hdone => ?_)
        cases r with
        | ok => exact hdone hnone
        | error => exact hdone hnone
      exact (along_of_wp_of_along hprog (along_endedContract taskId ⟨s, clock⟩)).2

/-! ### A ballot -/

theorem status_of_setTaskBallot {taskId own : String} {ballot : Option Ballot} {r : Bool}
    {w w' : Timed Board} {t : Task} (h : Contract k (.setTaskBallot own ballot) w r w')
    (hget : w.state.tasks.get? taskId = some t) :
    ∃ t', w'.state.tasks.get? taskId = some t' ∧ t'.status = t.status := by
  obtain ⟨t', hget', hrewrites⟩ := h.tasks.get?_of_get? (fun _ _ hrow => hrow.id_eq) hget
  refine ⟨t', hget', ?_⟩
  rcases hrewrites with rfl | hchange
  · rfl
  · cases hchange
    rfl

/-- A request to block a task settles. -/
theorem settles_block (taskId : String) (req : BlockTaskRequest) (clock : Nat → Nat)
    (s : k.Store) :
    Retries.Settles (after k) (fun s => Waiting taskId (k.board s).tasks)
      ⟨.block taskId req, clock⟩ s := by
  have hafter : after k ⟨.block taskId req, clock⟩ s =
      ((Tasks.blockTask taskId req).run k.tick ⟨s, clock⟩).2.state := after_eq rfl s
  unfold Tasks.blockTask at hafter
  rw [run_requireTask] at hafter
  cases hget : (k.board s).tasks.get? taskId with
  | none =>
      rw [hget] at hafter
      exact .of_same (hafter.trans (state_getTask taskId _))
  | some t =>
      rw [hget] at hafter
      dsimp only at hafter
      by_cases hended : t.status.IsTerminal
      · rw [if_pos hended] at hafter
        exact .of_same (hafter.trans (state_getTask taskId _))
      rw [if_neg hended] at hafter
      by_cases hblocked : t.status = .blocked
      · rw [if_pos hblocked] at hafter
        exact .of_same (hafter.trans (state_getTask taskId _))
      rw [if_neg hblocked] at hafter
      refine ⟨fun hwaiting => absurd ((waiting_iff_of_get? hget).mp hwaiting) hblocked, ?_⟩
      set w₁ := (k.tick (.getTask taskId) ⟨s, clock⟩).2 with hw₁
      set w₂ := (k.tick .utcnow w₁).2 with hw₂
      have hsame₁ : w₁.state = s := state_getTask taskId ⟨s, clock⟩
      have hsame₂ : w₂.state = s := (step_of_reads .utcnow trivial _ _).trans hsame₁
      rw [run_store_bind] at hafter
      cases hbuild : BallotRules.buildBallot (k.tick .utcnow w₁).1 req.question req.options
          req.cls (if req.laneKey = "" then t.laneKey else req.laneKey) req.decisionRef
            req.decisionId with
      | error e =>
          rw [hbuild] at hafter
          exact .inl (hafter.trans hsame₂)
      | ok ballot =>
          rw [hbuild] at hafter
          right
          rw [hafter]
          have hget₂ : (k.view w₂).state.tasks.get? taskId = some t := by
            change (k.board w₂.state).tasks.get? taskId = some t
            rw [hsame₂]
            exact hget
          refine (along_of_wp (A := fun _ _ => True)
            (Q := fun _ w' => Waiting taskId w'.state.tasks) k.implements ?_).2
          refine wp_revokeLeaseOf id (fun _ => trivial) (fun w₃ htasks₃ => ?_)
          rw [← htasks₃] at hget₂
          refine wp_perform.mpr ⟨trivial, fun _ w₄ hstep₄ => ?_⟩
          obtain ⟨t', hget₄, hstatus⟩ := status_of_setTaskBallot hstep₄ hget₂
          refine wp_perform.mpr ⟨trivial, fun ok w₅ hstep₅ => ?_⟩
          have hget₅ := hstep₅.reply.2 t' hget₄ (fun hrefuses => hended (hstatus ▸ hrefuses.1))
          have hwaiting : Waiting taskId w₅.state.tasks := (waiting_iff_of_get? hget₅).mpr rfl
          cases ok with
          | true => exact hwaiting
          | false =>
              -- the ballot is taken back, and the task stays blocked
              refine wp_perform.mpr ⟨trivial, fun _ w₆ hstep₆ => ?_⟩
              obtain ⟨t'', hget₆, hstatus₆⟩ := status_of_setTaskBallot hstep₆ hget₅
              exact (waiting_iff_of_get? hget₆).mpr hstatus₆

/-- A task that is put back does not wait, on any store. -/
theorem resumed_of_unblockToReady (own : String) (w : Timed k.Store) {t : Task}
    (hget : (k.board w.state).tasks.get? own = some t) :
    Resumed own (k.board (k.tick (.unblockToReady own) w).2.state).tasks := by
  obtain ⟨t', hget', -⟩ := (k.implements (.unblockToReady own) w).tasks.get?_of_get?
    (fun _ _ hrow => hrow.id_eq) hget
  refine ⟨t', hget', fun hblocked => ?_⟩
  have hwaiting := (waiting_iff_of_get? hget').mpr hblocked
  cases k with
  | memory =>
      have hfree : ¬Waiting own (ClusterState.unblockTo (w.clock 0) .ready own w.state).2.tasks :=
        (ClusterState.waiting_unblockTo own w.state (by decide)).2
      exact hfree hwaiting
  | sql d =>
      have hrow : (w.state.tasks.updateWhere (fun t => t.id = own ∧ t.status = .blocked)
          (Task.unblockTo (w.clock 0) .ready) Task.keepsKey_unblockTo).get? own = some t' := hget'
      rw [Table.get?_updateWhere, show w.state.tasks.get? own = some t from hget,
        Option.map_some, Option.some.injEq] at hrow
      by_cases hold : t.status = .blocked
      · rw [if_pos ⟨Table.key_of_get? hget, hold⟩] at hrow
        rw [← hrow] at hblocked
        cases hblocked
      · rw [if_neg (fun h => hold h.2)] at hrow
        exact hold (hrow ▸ hblocked)

/-- An answer settles. -/
theorem settles_answer (taskId : String) (req : AnswerTaskRequest) (clock : Nat → Nat)
    (s : k.Store) :
    Retries.Settles (after k) (fun s => Resumed taskId (k.board s).tasks)
      ⟨.answer taskId req, clock⟩ s := by
  have hafter : after k ⟨.answer taskId req, clock⟩ s =
      ((Tasks.answerTask taskId req).run k.tick ⟨s, clock⟩).2.state := after_eq rfl s
  unfold Tasks.answerTask at hafter
  rw [run_requireTask] at hafter
  cases hget : (k.board s).tasks.get? taskId with
  | none =>
      rw [hget] at hafter
      exact .of_same (hafter.trans (state_getTask taskId _))
  | some t =>
      rw [hget] at hafter
      dsimp only at hafter
      split at hafter
      swap
      · exact .of_same (hafter.trans (state_getTask taskId _))
      rename_i outstanding hblocked hballot
      split at hafter
      · exact .of_same (hafter.trans (state_getTask taskId _))
      rename_i answer hanswer
      refine ⟨fun hresumed => ?_, ?_⟩
      · obtain ⟨t', hget', hopen⟩ := hresumed
        rw [hget] at hget'
        cases hget'
        exact absurd hblocked hopen
      set w₁ := (k.tick (.getTask taskId) ⟨s, clock⟩).2 with hw₁
      set w₂ := (k.tick .utcnow w₁).2 with hw₂
      have hsame₁ : w₁.state = s := state_getTask taskId ⟨s, clock⟩
      have hsame₂ : w₂.state = s := (step_of_reads .utcnow trivial _ _).trans hsame₁
      rw [run_store_bind] at hafter
      cases hrecord : BallotRules.recordAnswer (k.tick .utcnow w₁).1 outstanding answer
          req.answeredBy with
      | error e =>
          rw [hrecord] at hafter
          exact .inl (hafter.trans hsame₂)
      | ok answered =>
          rw [hrecord] at hafter
          right
          rw [hafter]
          set w₃ := (k.tick (.setTaskBallot taskId
            (some (BallotRules.attachFormal answered taskId))) w₂).2 with hw₃
          have hget₂ : (k.view w₂).state.tasks.get? taskId = some t := by
            change (k.board w₂.state).tasks.get? taskId = some t
            rw [hsame₂]
            exact hget
          obtain ⟨t', hget₃, -⟩ := status_of_setTaskBallot
            (k.implements (.setTaskBallot taskId
              (some (BallotRules.attachFormal answered taskId))) w₂) hget₂
          have hresumed := resumed_of_unblockToReady taskId w₃ hget₃
          change Resumed taskId (k.board ((Program.run k.tick
            (if (k.tick (.unblockToReady taskId) w₃).1 = false then _ else _)
              (k.tick (.unblockToReady taskId) w₃).2).2.state)).tasks
          split <;> exact hresumed

/-! ### A submission -/

/-- A reviewer of the lane that a submission finds. -/
def Found (lane : String) (t : Task) : Prop :=
  t.role = "reviewer" ∧ t.laneKey = lane ∧ Tasks.isLiveReviewer t.status = true

/-- The lane has a reviewer that a submission finds. -/
def Taken (lane : String) (tasks : Table Task) : Prop :=
  ∃ t ∈ tasks.rows, Found lane t

/-- How the submission of a reviewer ends: the store is as it was, or a task is made on a
lane that had no reviewer. -/
inductive SubmitEnd (k : Backend) (taskId : String) (req : SubmitTaskRequest) (s : k.Store) :
    k.Store → Prop
  | same : SubmitEnd k taskId req s s
  | created (now later : Nat) (hvacant : ¬Taken req.laneKey (k.board s).tasks) :
      SubmitEnd k taskId req s (k.step later .triggerPendingTasks
        (k.step now (.createTask (Tasks.submitPlan taskId req)) s).2).2

theorem submitTask_end (taskId : String) {req : SubmitTaskRequest}
    (hreviewer : IsReviewer req.role) (hlane : req.laneKey ≠ "") (w : Timed k.Store) :
    SubmitEnd k taskId req w.state ((Tasks.submitTask taskId req).run k.tick w).2.state := by
  unfold Tasks.submitTask
  have hrefused : ∀ {w' : Timed k.Store}, w'.state = w.state →
      SubmitEnd k taskId req w.state w'.state := by
    intro w' hsame
    rw [hsame]
    exact .same
  rcases run_bind_of_reads (only_checkBrief req) _ w with
    ⟨e, w₀, hsame₀, hrun₀⟩ | ⟨_, w₀, hsame₀, hrun₀⟩
  · rw [hrun₀]
    exact hrefused hsame₀
  rw [hrun₀, Tasks.liveReviewer, if_pos ⟨hreviewer, hlane⟩, bind_assoc]
  set w₁ := (k.tick .getAllTasks w₀).2 with hw₁
  have hsame₁ : w₁.state = w.state := (step_of_reads .getAllTasks trivial _ _).trans hsame₀
  have hreply : (k.tick .getAllTasks w₀).1 = (k.board w.state).tasks.rows := by
    rw [← hsame₀]
    exact (k.implements .getAllTasks w₀).reply.1
  have hrun : ∀ f : Option Task → Api HermesCluster.Reply,
      (store .getAllTasks >>= fun tasks => pure (tasks.find? (fun t =>
        t.role = "reviewer" && t.laneKey = req.laneKey && Tasks.isLiveReviewer t.status)) >>=
          f).run k.tick w₀ =
      (f ((k.board w.state).tasks.rows.find? (fun t => t.role = "reviewer" &&
        t.laneKey = req.laneKey && Tasks.isLiveReviewer t.status))).run k.tick w₁ := by
    intro f
    rw [← hreply]
    rfl
  rw [hrun]
  cases hfind : (k.board w.state).tasks.rows.find? (fun t =>
      t.role = "reviewer" && t.laneKey = req.laneKey && Tasks.isLiveReviewer t.status) with
  | some t => exact hrefused hsame₁
  | none =>
      have hvacant : ¬Taken req.laneKey (k.board w.state).tasks := by
        rintro ⟨t, ht, hrole, hkey, hlive⟩
        have hmiss := List.find?_eq_none.mp hfind t ht
        simp [hrole, hkey, hlive] at hmiss
      dsimp only
      rcases run_bind_of_reads (only_checkLanding id req) _ w₁ with
        ⟨e, w₂, hsame₂, hrun₂⟩ | ⟨_, w₂, hsame₂, hrun₂⟩
      · rw [hrun₂]
        exact hrefused (hsame₂.trans hsame₁)
      rw [hrun₂]
      rcases run_bind_of_reads (only_checkCapabilities id req) _ w₂ with
        ⟨e, w₃, hsame₃, hrun₃⟩ | ⟨_, w₃, hsame₃, hrun₃⟩
      · rw [hrun₃]
        exact hrefused (hsame₃.trans (hsame₂.trans hsame₁))
      rw [hrun₃]
      rcases run_bind_of_reads (only_missingDeps id (Tasks.submitPlan taskId req).dependsOn) _ w₃
        with ⟨e, w₄, hsame₄, hrun₄⟩ | ⟨missing, w₄, hsame₄, hrun₄⟩
      · rw [hrun₄]
        exact hrefused (hsame₄.trans (hsame₃.trans (hsame₂.trans hsame₁)))
      rw [hrun₄]
      have hsame : w₄.state = w.state := hsame₄.trans (hsame₃.trans (hsame₂.trans hsame₁))
      by_cases hmissing : missing ≠ []
      · rw [if_pos hmissing]
        exact hrefused hsame
      rw [if_neg hmissing]
      set w₅ := (k.tick (.createTask (Tasks.submitPlan taskId req)) w₄).2 with hw₅
      set w₆ := (k.tick .triggerPendingTasks w₅).2 with hw₆
      have hcreated : SubmitEnd k taskId req w.state w₆.state := by
        rw [← hsame] at hvacant ⊢
        exact .created (w₄.clock 0) (w₅.clock 0) hvacant
      rw [← state_getTask taskId w₆] at hcreated
      exact hcreated

/-- Neither the promotion pass nor the scheduling pass loses a reviewer. -/
theorem taken_of_pass {lane : String} {op : StoreOp}
    (hop : op = .triggerPendingTasks ∨ op = .schedulePendingDetailed) (now : Nat) {s : k.Store}
    (h : Taken lane (k.board s).tasks) : Taken lane (k.board (k.step now op s).2).tasks := by
  obtain ⟨t, ht, hrole, hkey, hlive⟩ := h
  obtain ⟨t', hget', hrewrites⟩ := (k.implements op ⟨s, fun _ => now⟩).tasks.get?_of_get?
    (fun _ _ hrow => hrow.id_eq) (Table.get?_of_mem ht)
  refine ⟨t', Table.mem_of_get? hget', ?_⟩
  rcases hrewrites with rfl | hchange
  · exact ⟨hrole, hkey, hlive⟩
  -- a row is promoted, held back with a reason, or assigned
  rcases hop with rfl | rfl
  · cases hchange with
    | promote => exact ⟨hrole, hkey, rfl⟩
    | hold => exact ⟨hrole, hkey, hlive⟩
  · cases hchange with
    | assign => exact ⟨hrole, hkey, rfl⟩

/-- An id that a creation may use: the tables of the SQL stores keep a row that has it. -/
def Fresh (k : Backend) (taskId : String) (tasks : Table Task) : Prop :=
  k = .memory ∨ tasks.get? taskId = none

/-- The task that is made is the reviewer of its lane. -/
theorem taken_of_created {taskId : String} {req : SubmitTaskRequest} {s : k.Store}
    (hrole : req.role = "reviewer") (hfresh : Fresh k taskId (k.board s).tasks) (now : Nat) :
    Taken req.laneKey
      (k.board (k.step now (.createTask (Tasks.submitPlan taskId req)) s).2).tasks := by
  have hrow : ∀ {tasks : Table Task} {t : Task}, tasks.get? taskId = some t →
      t.role = req.role → t.laneKey = req.laneKey → Tasks.isLiveReviewer t.status = true →
      Taken req.laneKey tasks := by
    intro tasks t hget hsame hkey hlive
    exact ⟨t, Table.mem_of_get? hget, hsame.trans hrole, hkey, hlive⟩
  cases k with
  | memory =>
      have hget : (s.tasks.upsert ((Tasks.submitPlan taskId req).toTask now .pending)).get? taskId =
          some ((Tasks.submitPlan taskId req).toTask now .pending) := by
        rw [Table.get?_upsert]
        exact if_pos rfl
      exact hrow hget rfl rfl rfl
  | sql d =>
      have habsent : s.tasks.get? taskId = none := hfresh.resolve_left (by simp)
      have hget : (ClusterStore.createTask now
          (Tasks.submitPlan taskId req) s).2.tasks.get? taskId = _ :=
        get?_createTask (Tasks.submitPlan taskId req) taskId
      rw [if_pos (show (Tasks.submitPlan taskId req).taskId = taskId from rfl), habsent,
        Option.getD_none] at hget
      unfold promoteAtOnce at hget
      split at hget
      · exact hrow hget rfl rfl rfl
      · exact hrow hget rfl rfl rfl

theorem SubmitEnd.same_of_taken {taskId : String} {req : SubmitTaskRequest} {s s' : k.Store}
    (h : SubmitEnd k taskId req s s') (htaken : Taken req.laneKey (k.board s).tasks) : s' = s := by
  cases h with
  | same => rfl
  | created _ _ hvacant => exact absurd htaken hvacant

theorem SubmitEnd.taken {taskId : String} {req : SubmitTaskRequest} {s s' : k.Store}
    (h : SubmitEnd k taskId req s s') (hrole : req.role = "reviewer")
    (hfresh : Fresh k taskId (k.board s).tasks) :
    s' = s ∨ Taken req.laneKey (k.board s').tasks := by
  cases h with
  | same => exact .inl rfl
  | created now later =>
      exact .inr (taken_of_pass (.inl rfl) later (taken_of_created hrole hfresh now))

/-- The submission of a reviewer under a fresh id settles. -/
theorem settles_submit (taskId : String) {req : SubmitTaskRequest} (clock : Nat → Nat)
    (s : k.Store) (hreviewer : IsReviewer req.role) (hrole : req.role = "reviewer")
    (hlane : req.laneKey ≠ "") (hfresh : Fresh k taskId (k.board s).tasks) :
    Retries.Settles (after k) (fun s => Taken req.laneKey (k.board s).tasks)
      ⟨.submit taskId req, clock⟩ s := by
  have hend := submitTask_end (k := k) taskId hreviewer hlane ⟨s, clock⟩
  have hafter : after k ⟨.submit taskId req, clock⟩ s =
      ((Tasks.submitTask taskId req).run k.tick ⟨s, clock⟩).2.state := after_eq rfl s
  rw [← hafter] at hend
  exact ⟨hend.same_of_taken, hend.taken hrole hfresh⟩

/-! ## A request and its retries -/

/-- The request has taken effect, as far as main can see when it comes again. -/
def Request.Done : Request → Table Task → Prop
  | .submit payload, tasks => Taken (payload.laneKey.getD "") tasks
  | .scheduleTrigger, _ => False
  | .complete taskId, tasks => Closed taskId tasks
  | .block taskId _, tasks => Waiting taskId tasks
  | .answer taskId _, tasks => Resumed taskId tasks

/-- What main has to find where it runs the request, and under which id: a submission is of a
reviewer, spelled so, on a lane, and its id is fresh; a completion is not refused by the
verdict gate, which would queue the task once more. -/
def Request.Recognised (k : Backend) : Request → Table Task → TimedCall → Prop
  | .submit payload, tasks, c =>
      (payload.role = some "reviewer" ∧ IsReviewer "reviewer" ∧ payload.laneKey.getD "" ≠ "") ∧
        ∀ taskId req, c.call = .submit taskId req → Fresh k taskId tasks
  | .scheduleTrigger, _, _ => False
  | .complete taskId, tasks, _ => ∀ t, tasks.get? taskId = some t →
      ReviewerGate.reviewerCompletionVeto t none = none
  | .block _ _, _, _ => True
  | .answer _ _, _, _ => True

/-- The calls of a trigger. -/
def IsTrigger : Call → Prop
  | .triggerPending | .schedulePass => True
  | _ => False

instance : DecidablePred IsTrigger := fun c => by
  unfold IsTrigger
  split <;> infer_instance

/-- The tool made the call for its request, and not to have the task scheduled. -/
def byRequest (x : Asker × TimedCall) : Bool :=
  decide (x.1 = .tool ∧ ¬IsTrigger x.2.call)

/-- Main recognises the request wherever it runs it, and no call of anybody else undoes it. -/
def Undisturbed (k : Backend) (req : Request) : List (Asker × TimedCall) → k.Store → Prop
  | [], _ => True
  | x :: ran, s =>
      ((byRequest x = true → req.Recognised k (k.board s).tasks x.2) ∧
        (x.1 = .other → req.Done (k.board s).tasks → req.Done (k.board (after k x.2 s)).tasks)) ∧
        Undisturbed k req ran (after k x.2 s)

/-- A call that a tool makes for its request: the request itself, or a trigger after a
submission. -/
def Request.Asks (req : Request) (c : TimedCall) : Prop :=
  (∃ taskId clock, c ∈ req.calls taskId clock) ∨
    (∃ payload, req = .submit payload) ∧ IsTrigger c.call

/-- A trigger leaves a submission in effect. -/
theorem done_of_trigger {req : Request} {c : TimedCall} {s : k.Store} (hasks : req.Asks c)
    (htrigger : IsTrigger c.call) (h : req.Done (k.board s).tasks) :
    req.Done (k.board (after k c s)).tasks := by
  obtain ⟨call, clock⟩ := c
  cases req with
  | submit payload =>
      cases call with
      | triggerPending => exact taken_of_pass (.inl rfl) (clock 0) h
      | schedulePass => exact taken_of_pass (.inr rfl) (clock 0) h
      | _ => exact htrigger.elim
  | scheduleTrigger => exact h.elim
  | complete | block | answer =>
      -- nothing triggers after these, and they are no triggers
      obtain ⟨_, _, hc⟩ := hasks.resolve_right (fun ⟨⟨_, hsubmit⟩, _⟩ => by cases hsubmit)
      obtain rfl := (TimedCall.mk.inj (List.mem_singleton.mp hc)).1
      exact htrigger.elim

omit [Unicode] in
theorem of_parse {payload : SubmitPayload} {req : SubmitTaskRequest}
    (h : payload.parse = some req) :
    req.role = payload.role.getD "author" ∧ req.laneKey = payload.laneKey.getD "" := by
  unfold SubmitPayload.parse at h
  split at h
  · obtain rfl := Option.some.inj h
    exact ⟨rfl, rfl⟩
  · cases h

/-- A request that main recognises settles. -/
theorem settles_of_recognised {req : Request} {c : TimedCall} {s : k.Store} {taskId : String}
    {clock : Nat → Nat} (hc : c ∈ req.calls taskId clock)
    (h : req.Recognised k (k.board s).tasks c) :
    Retries.Settles (after k) (fun s => req.Done (k.board s).tasks) c s := by
  cases req with
  | submit payload =>
      obtain ⟨⟨hrole, hreviewer, hlane⟩, hfresh⟩ := h
      rw [Request.calls, List.mem_map] at hc
      obtain ⟨req, hreq, rfl⟩ := hc
      rw [Option.mem_toList] at hreq
      obtain ⟨hspelled, hkey⟩ := of_parse hreq
      rw [hrole, Option.getD_some] at hspelled
      rw [← hkey] at hlane
      have hsettles := settles_submit taskId clock s (hspelled.symm ▸ hreviewer) hspelled hlane
        (hfresh taskId req rfl)
      rw [hkey] at hsettles
      exact hsettles
  | scheduleTrigger => exact h.elim
  | complete id =>
      obtain rfl := List.mem_singleton.mp hc
      exact settles_complete id clock s h
  | block id req =>
      obtain rfl := List.mem_singleton.mp hc
      exact settles_block id req clock s
  | answer id req =>
      obtain rfl := List.mem_singleton.mp hc
      exact settles_answer id req clock s

theorem settling_of_undisturbed {req : Request} {ran : List (Asker × TimedCall)} {s : k.Store}
    (hcalls : ∀ x ∈ ran, x.1 = .tool → req.Asks x.2) (h : Undisturbed k req ran s) :
    Retries.Undisturbed (fun x s => after k x.2 s) byRequest (fun s => req.Done (k.board s).tasks)
      ran s := by
  induction ran generalizing s with
  | nil => trivial
  | cons x ran ih =>
      obtain ⟨⟨hrecognised, hothers⟩, hrest⟩ := h
      rw [List.forall_mem_cons] at hcalls
      refine ⟨?_, ih hcalls.2 hrest⟩
      by_cases hx : byRequest x = true
      · rw [if_pos hx]
        obtain ⟨htool, hrequest⟩ := of_decide_eq_true hx
        obtain ⟨taskId, clock, hc⟩ :=
          (hcalls.1 htool).resolve_right (fun htrigger => hrequest htrigger.2)
        have hsettles := settles_of_recognised hc (hrecognised hx)
        exact ⟨hsettles.again, hsettles.done⟩
      · rw [if_neg hx]
        cases hasker : x.1 with
        | other => exact hothers hasker
        | tool =>
            -- what the tool asks for besides its request is a trigger
            have htrigger : IsTrigger x.2.call := by
              by_contra hnot
              exact hx (decide_eq_true ⟨hasker, hnot⟩)
            exact done_of_trigger (hcalls.1 hasker) htrigger

theorem runs_eq_runCalls (ran : List (Asker × TimedCall)) (w : Timed k.Store) :
    Retries.runs (fun x s => after k x.2 s) ran w.state =
      (k.runCalls (ran.map Prod.snd) w).state := by
  induction ran generalizing w with
  | nil => rfl
  | cons x ran ih =>
      have hrest := ih (k.runCalls [x.2] w)
      rw [← runCalls_append] at hrest
      exact hrest

/-- Where main is after what it ran, and after that with at most one run of the request. -/
theorem effective_of_ran {req : Request} {l l' : Link k} {ran : List (Asker × TimedCall)}
    (hran : Ran l l' ran)
    (hcalls : ∀ x ∈ ran, x.1 = .tool → req.Asks x.2)
    (hquiet : Undisturbed k req ran l.main.state) :
    ∃ once : List (Asker × TimedCall), once.Sublist ran ∧
      once.filter (fun x => !byRequest x) = ran.filter (fun x => !byRequest x) ∧
      (once.filter byRequest).length ≤ 1 ∧
      l'.main.state = (k.runCalls (once.map Prod.snd) l.main).state ∧
      (once.filter byRequest ≠ [] → req.Done (k.board l'.main.state).tasks) := by
  obtain ⟨once, honce, -, hdone⟩ :=
    Retries.exists_effective (settling_of_undisturbed hcalls hquiet)
  rw [hran.2, ← runs_eq_runCalls]
  refine ⟨once, honce.sublist, honce.others, honce.single, ?_, fun hne => hdone (.inr hne)⟩
  rw [← runs_eq_runCalls]
  exact honce.same.symm

end Handlers

end Plugin

end HermesCluster
