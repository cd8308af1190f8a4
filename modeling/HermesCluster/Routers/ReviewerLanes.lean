import HermesCluster.Routers.LaneKinds
/-!
# One live reviewer per lane

A submission of a reviewer looks for one on its lane and returns it. The search
sees a reviewer only if its role is spelled `reviewer` and it is not blocked;
what it does not see, the submission forks.
-/

namespace HermesCluster

open Program hiding pure bind

section Reviewers

variable [Unicode]

/-- The role, as every gate reads it. -/
def IsReviewer (role : String) : Prop :=
  Unicode.lower (Text.strip role) = "reviewer"

instance : DecidablePred IsReviewer := fun role =>
  inferInstanceAs (Decidable (Unicode.lower (Text.strip role) = "reviewer"))

/-- A reviewer with a lane whose task has not ended. -/
def LiveReviewer (t : Task) : Prop :=
  (IsReviewer t.role ∧ t.laneKey ≠ "") ∧ ¬t.status.IsTerminal

instance : DecidablePred LiveReviewer := fun t =>
  inferInstanceAs (Decidable ((IsReviewer t.role ∧ t.laneKey ≠ "") ∧ ¬t.status.IsTerminal))

/-- At most one live reviewer is on each lane. -/
def OneReviewer (tasks : Table Task) : Prop :=
  ∀ t ∈ tasks.rows, ∀ u ∈ tasks.rows, LiveReviewer t → LiveReviewer u → u.laneKey = t.laneKey →
    u = t

instance : DecidablePred OneReviewer := fun tasks =>
  inferInstanceAs (Decidable (∀ t ∈ tasks.rows, ∀ u ∈ tasks.rows, LiveReviewer t →
    LiveReviewer u → u.laneKey = t.laneKey → u = t))

omit [Unicode] in
theorem isTerminal_stays {s s' : TaskStatus} (h : s.IsTerminal)
    (hguard : ¬ClusterState.Refuses s s') : s'.IsTerminal := by
  by_contra hopen
  refine hguard ⟨h, ?_⟩
  rintro ⟨-, rfl⟩
  exact hopen (by decide)

/-- The reviewers of lanes, as a kind of task. -/
def reviewerKind : LaneKind where
  Holds _ _ role lane := IsReviewer role ∧ lane ≠ ""
  Ended := TaskStatus.IsTerminal
  isTerminal := id
  stays := isTerminal_stays

/-- The search of a submission can see the reviewer. -/
def Recognised (t : Task) : Prop :=
  t.role = "reviewer" ∧ t.status ≠ .blocked

instance : DecidablePred Recognised := fun t =>
  inferInstanceAs (Decidable (t.role = "reviewer" ∧ t.status ≠ .blocked))

omit [Unicode] in
theorem isLiveReviewer_of_open {s : TaskStatus} (hopen : ¬s.IsTerminal) (hblocked : s ≠ .blocked) :
    Tasks.isLiveReviewer s = true := by
  unfold TaskStatus.IsTerminal at hopen
  cases s <;> simp_all [Tasks.isLiveReviewer]

/-! ## A submission -/

/-- Every live reviewer of the lane can be seen. -/
def LaneSeen (tasks : Table Task) (lane : String) : Prop :=
  ∀ t ∈ tasks.rows, LiveReviewer t → t.laneKey = lane → Recognised t

instance (tasks : Table Task) (lane : String) : Decidable (LaneSeen tasks lane) :=
  inferInstanceAs (Decidable (∀ t ∈ tasks.rows, LiveReviewer t → t.laneKey = lane → Recognised t))

variable {k : Backend}

omit [Unicode] in
theorem spares_of_routine {κ : LaneKind} {tasks : Table Task} {op : StoreOp} (h : Routine op) :
    κ.Spares k tasks op := by
  cases op with
  | createTask | createTasksBatch | setTaskStatus | handleSyncMessage => exact h.elim
  | _ => exact .of_plain rfl (fun _ _ _ heq => by cases heq) (fun _ heq => by cases heq)

omit [Unicode] in
theorem spares_of_reads {κ : LaneKind} {tasks : Table Task} {op : StoreOp} (h : Reads op) :
    κ.Spares k tasks op :=
  spares_of_routine (routine_of_reads h)

/-- A program keeps the reviewers of each lane apart, and ends with `Q`. -/
abbrev Guarded (k : Backend) {α : Type} (p : Api α) (w : Timed Board)
    (Q : Except ApiError α → Timed Board → Prop) : Prop :=
  p.Wp (Contract k) (fun w op => reviewerKind.Spares k w.state.tasks op) w Q

/-- What a submission answers on a lane that has a live reviewer: a refusal, or a
reviewer of the lane that is there already. -/
def AnswersWithExisting (tasks : Table Task) (lane : String) (r : Except ApiError Reply) : Prop :=
  (∃ e, r = .error e) ∨
    ∃ t ∈ tasks.rows, t.role = "reviewer" ∧ t.laneKey = lane ∧
      Tasks.isLiveReviewer t.status = true ∧
        r = .ok { task := some t, deduped := some true }

/-- A submission of a reviewer whose lane is seen: it creates one only on a vacant
lane, and leaves the board alone otherwise. -/
theorem guarded_submitReviewer (taskId : String) {req : SubmitTaskRequest}
    (hreviewer : IsReviewer req.role) (hlane : req.laneKey ≠ "") {w : Timed Board}
    (hseen : LaneSeen w.state.tasks req.laneKey) :
    Guarded k (Tasks.submitTask taskId req) w (fun r w' =>
      ¬reviewerKind.Vacant w.state.tasks req.laneKey →
        w'.state = w.state ∧ AnswersWithExisting w.state.tasks req.laneKey r) := by
  unfold Tasks.submitTask
  refine wp_bind_of_reads id spares_of_reads (only_checkBrief req)
    (fun e w' hsame _ => ⟨hsame, .inl ⟨e, rfl⟩⟩) (fun _ w₁ hsame₁ => ?_)
  unfold Tasks.liveReviewer
  rw [if_pos ⟨hreviewer, hlane⟩, bind_assoc]
  refine wp_perform.mpr ⟨spares_of_reads trivial, fun r w₂ hstep => ?_⟩
  obtain ⟨rfl, hsame₂⟩ := hstep.reply
  rw [hsame₁] at hsame₂ ⊢
  cases hfind : w.state.tasks.rows.find? (fun t =>
      t.role = "reviewer" && t.laneKey = req.laneKey && Tasks.isLiveReviewer t.status) with
  | some t =>
      have hmatch := List.find?_some hfind
      simp only [Bool.and_eq_true, decide_eq_true_eq] at hmatch
      obtain ⟨⟨hrole, hkey⟩, hlive⟩ := hmatch
      exact fun _ => ⟨hsame₂, .inr ⟨t, List.mem_of_find?_eq_some hfind, hrole, hkey, hlive, rfl⟩⟩
  | none =>
      -- the search has missed nobody
      have hvacant : reviewerKind.Vacant w.state.tasks req.laneKey := by
        intro t ht hopen hkey
        obtain ⟨hrole, hblocked⟩ := hseen t ht hopen hkey
        have hmiss := List.find?_eq_none.mp hfind t ht
        simp [hrole, hkey, isLiveReviewer_of_open hopen.2 hblocked] at hmiss
      refine wp_bind_of_reads id spares_of_reads (only_checkLanding id req)
        (fun _ _ _ htaken => absurd hvacant htaken) (fun _ w₃ hsame₃ => ?_)
      refine wp_bind_of_reads id spares_of_reads (only_checkCapabilities id req)
        (fun _ _ _ htaken => absurd hvacant htaken) (fun _ w₄ hsame₄ => ?_)
      refine wp_bind_of_reads id spares_of_reads (only_missingDeps id _)
        (fun _ _ _ htaken => absurd hvacant htaken) (fun missing w₅ hsame₅ => ?_)
      split
      · exact fun htaken => absurd hvacant htaken
      · have hsame : w₅.state = w.state := by rw [hsame₅, hsame₄, hsame₃, hsame₂]
        refine wp_perform.mpr ⟨.of_creation (fun _ => hsame ▸ hvacant), fun _ _ _ => ?_⟩
        refine wp_perform.mpr ⟨spares_of_routine trivial, fun _ _ _ => ?_⟩
        refine wp_perform.mpr ⟨spares_of_reads trivial, fun _ _ _ => ?_⟩
        exact fun htaken => absurd hvacant htaken

/-! ## A release -/

/-- A release puts a task back to ready, whatever its status on a store without a
guard. -/
theorem guarded_releaseTask {taskId : String} {req : ReleaseTaskRequest} {w : Timed Board}
    (hrelease : k = .memory ∨ ∀ t, w.state.tasks.get? taskId = some t →
      t.assignedTo = some req.nodeId → reviewerKind.Reopenable w.state.tasks t) :
    Guarded k (Tasks.releaseTask taskId req) w (fun _ _ => True) := by
  unfold Tasks.releaseTask
  refine wp_requireTask id spares_of_reads (fun _ _ _ => trivial) (fun t w₁ hsame₁ hget => ?_)
  split
  · trivial
  · rename_i hown
    rw [not_not] at hown
    refine wp_revokeLeaseOf id (fun hop => spares_of_routine (routine_of_background hop))
      (fun w₂ hsame₂ => ?_)
    have hsame : w₂.state.tasks = w.state.tasks := by rw [hsame₂, hsame₁]
    refine wp_perform.mpr ⟨?_, fun transitioned w₃ _ => ?_⟩
    · refine .of_status (hrelease.imp id (fun hreopens => .inr (fun u hu => ?_)))
      rw [hsame] at hu ⊢
      obtain rfl := Option.some.inj (hu.symm.trans hget)
      exact hreopens u hu hown
    · split
      · trivial
      · have hrest : (do
            Tasks.writeTaskRow taskId none req.reason
            let released ← store (.getTask taskId)
            pure ({ task := released } : Reply)).Only Routine := by
          exact only_bind (only_writeTaskRow trivial)
            (fun _ => only_store trivial (fun _ => trivial))
        exact hrest.wp (fun _ _ => spares_of_routine)

/-! ## Calls -/

/-- What a call may not find: a live reviewer that its search does not see, or
one on a lane that it opens a task on by other means. -/
def Seen (k : Backend) (c : Call) (w : Timed Board) : Prop :=
  match c with
  | .submit _ req =>
      IsReviewer req.role → req.laneKey ≠ "" → LaneSeen w.state.tasks req.laneKey
  | .createBatch plans => reviewerKind.Spares k w.state.tasks (.createTasksBatch plans)
  | .release taskId req => k = .memory ∨ ∀ t, w.state.tasks.get? taskId = some t →
      t.assignedTo = some req.nodeId → reviewerKind.Reopenable w.state.tasks t
  | _ => True

/-- A submission of a reviewer for a lane that has one returns it, or is refused,
and leaves the board as it was. -/
def ReturnsExisting (k : Backend) (c : Call) (w : Timed k.Store) : Prop :=
  match c with
  | .submit taskId req => IsReviewer req.role → req.laneKey ≠ "" →
      ¬reviewerKind.Vacant (k.board w.state).tasks req.laneKey →
        k.board ((Tasks.submitTask taskId req).run k.tick w).2.state = k.board w.state ∧
          AnswersWithExisting (k.board w.state).tasks req.laneKey
            ((Tasks.submitTask taskId req).run k.tick w).1
  | _ => True

/-- A call that neither submits a reviewer nor releases a task. -/
def Unguarded (k : Backend) (c : Call) (w : Timed Board) : Prop :=
  (∀ taskId req, c = .submit taskId req → ¬reviewerKind.Plans (Tasks.submitPlan taskId req)) ∧
    (∀ plans, c = .createBatch plans →
      reviewerKind.Spares k w.state.tasks (.createTasksBatch plans)) ∧
    ∀ taskId req, c ≠ .release taskId req

/-- Every call, operation by operation. -/
theorem Call.keeps_oneReviewer (c : Call) {w : Timed k.Store} (hseen : k.Meets (Seen k) c w)
    (h : OneReviewer (k.board w.state).tasks) :
    c.prog.Keeps k.tick (fun _ _ w' => OneReviewer (k.board w'.state).tasks)
      (fun w => OneReviewer (k.board w.state).tasks) w ∧ ReturnsExisting k c w := by
  have hstep : ∀ (w : Timed k.Store) op, OneReviewer (k.board w.state).tasks →
      reviewerKind.Spares k (k.board w.state).tasks op →
      OneReviewer (k.board (k.tick op w).2.state).tasks ∧
        OneReviewer (k.board (k.tick op w).2.state).tasks := by
    intro w op h hop
    have halone : reviewerKind.Alone (k.board w.state).tasks := h
    have hnext : OneReviewer (k.board (k.tick op w).2.state).tasks :=
      LaneKind.alone_step halone hop (k.implements op w).tasks
    exact ⟨hnext, hnext⟩
  -- a call whose program is guarded
  have hguarded : ∀ {α : Type} {p : Api α},
      p.Along k.tick (fun w op _ => reviewerKind.Spares k (k.board w.state).tasks op) w →
      p.Keeps k.tick (fun _ _ w' => OneReviewer (k.board w'.state).tasks)
        (fun w => OneReviewer (k.board w.state).tasks) w :=
    fun halong => keeps_of_along halong h hstep
  have hplain : k.Meets (Unguarded k) c w →
      c.prog.Keeps k.tick (fun _ _ w' => OneReviewer (k.board w'.state).tasks)
        (fun w => OneReviewer (k.board w.state).tasks) w := by
    intro hcond
    refine Backend.keeps_call _ (fun w op hidle h => hstep w op h (LaneKind.spares_of_idle hidle))
      (fun c w₀ w op hcond _ h hissued => hstep w op h ?_) c w h hcond
    refine LaneKind.spares_of_issued hissued hcond.1 hcond.2.1 (.inr ?_)
    exact fun taskId req hc => absurd hc (hcond.2.2 taskId req)
  cases c with
  | submit taskId req =>
      by_cases hkind : IsReviewer req.role ∧ req.laneKey ≠ ""
      · have hwp := along_of_wp k.implements
          (guarded_submitReviewer taskId hkind.1 hkind.2 (hseen hkind.1 hkind.2))
        have hkeeps := hguarded hwp.1
        refine ⟨keeps_bind hkeeps (fun _ _ => keeps_pure hkeeps.2), fun _ _ htaken => ?_⟩
        exact hwp.2 htaken
      · refine ⟨hplain ⟨?_, fun _ hc => (by cases hc), fun _ _ hc => (by cases hc)⟩,
          fun hrole hlane => absurd ⟨hrole, hlane⟩ hkind⟩
        intro _ _ hc
        cases hc
        exact hkind
  | release taskId req =>
      have hwp := (along_of_wp k.implements (guarded_releaseTask hseen)).1
      have hkeeps := hguarded hwp
      exact ⟨keeps_bind hkeeps (fun _ _ => keeps_pure hkeeps.2), trivial⟩
  | createBatch plans =>
      refine ⟨hplain ⟨fun _ _ hc => (by cases hc), fun _ hc => ?_, fun _ _ hc => (by cases hc)⟩,
        trivial⟩
      cases hc
      exact hseen
  | sweep order =>
      refine ⟨hplain (callsMeet_of_forall (fun _ _ => ?_) _ _), trivial⟩
      exact ⟨fun _ _ hc => (by cases hc), fun _ hc => (by cases hc), fun _ _ hc => (by cases hc)⟩
  | _ =>
      refine ⟨hplain ⟨fun _ _ hc => ?_, fun _ hc => ?_, fun _ _ hc => ?_⟩, trivial⟩ <;> cases hc

/-- Through any run of calls, on any store: if the search of every submission of a
reviewer can see the live reviewers of its lane, and no release on a store without
a guard revives a reviewer beside a live one, at most one live reviewer is on each
lane after each operation, and a submission for a lane that has one returns it. -/
theorem oneReviewer_of_calls (k : Backend) (cs : List TimedCall) (w : Timed k.Store)
    (hstart : OneReviewer (k.board w.state).tasks) (hseen : k.CallsMeet (k.Meets (Seen k)) cs w) :
    (k.AlongCalls (fun _ _ w' => OneReviewer (k.board w'.state).tasks) cs w ∧
      OneReviewer (k.board (k.runCalls cs w).state).tasks) ∧
    k.CallsMeet (ReturnsExisting k) cs w := by
  have henter : ∀ (c : TimedCall) (w : Timed k.Store), OneReviewer (k.board w.state).tasks →
      OneReviewer (k.board (c.enter w).state).tasks := fun _ _ h => h
  constructor
  · exact alongAll_of_calls (I := fun w : Timed k.Store => OneReviewer (k.board w.state).tasks)
      henter (fun c _ h hseen => (c.call.keeps_oneReviewer hseen h).1) hstart hseen
  · refine callsMeet_of_calls (I := fun w : Timed k.Store => OneReviewer (k.board w.state).tasks)
      henter (fun c w h hseen => ?_) hstart hseen
    obtain ⟨hkeeps, hreturns⟩ := c.call.keeps_oneReviewer hseen h
    exact ⟨hreturns, hkeeps.2⟩

end Reviewers

section Example

local instance asciiReviewers : Unicode := Unicode.ascii

/-- An in-memory store with no nodes and no tasks. -/
def emptyReviewers : Timed ClusterState := ⟨ClusterState.empty, fun _ => 0⟩

/-- A review is submitted under an id, with its role spelled so. -/
def submitReview (taskId role : String) : TimedCall where
  call := .submit taskId { title := "review", laneKey := "l", role := role }
  clock := fun _ => 1

/-- The tasks of the in-memory store after some calls. -/
def ranReviewers (cs : List TimedCall) : Table Task :=
  (Backend.memory.board (Backend.memory.runCalls cs emptyReviewers).state).tasks

/-- The second submission returns the first task. -/
theorem oneReviewer_of_calls_twice :
    OneReviewer (ranReviewers [submitReview "a" "reviewer", submitReview "b" "Reviewer"]) := by
  have hempty : OneReviewer (Backend.memory.board emptyReviewers.state).tasks := by
    intro t ht
    cases ht
  have hseen : Backend.memory.CallsMeet (Backend.memory.Meets (Seen .memory))
      [submitReview "a" "reviewer", submitReview "b" "Reviewer"] emptyReviewers := by
    refine ⟨fun _ _ => ?_, fun _ _ => ?_, trivial⟩
    · change LaneSeen (Backend.memory.board emptyReviewers.state).tasks "l"
      decide
    · change LaneSeen (ranReviewers [submitReview "a" "reviewer"]) "l"
      decide
  exact (oneReviewer_of_calls .memory _ emptyReviewers hempty hseen).1.2

/-- A reviewer that is spelled otherwise is not seen, and a second one is made. -/
theorem two_reviewers_submitted :
    ¬OneReviewer (ranReviewers [submitReview "a" "Reviewer", submitReview "b" "Reviewer"]) := by
  decide

end Example

end HermesCluster
