import HermesCluster.Routers.Footprint
/-!
# Completed reviews carry a verdict

`complete_task` stores the delivered text, and then refuses the completion of a
review that has no verdict in it. Nothing else completes a task, and nothing
writes over the result of a completed one.
-/

namespace HermesCluster

open Program hiding pure bind

section Reviews

variable [Unicode]

/-- A reviewer task that is not a landing row. -/
def IsReview (t : Task) : Prop :=
  Unicode.lower (Text.strip t.role) = "reviewer" ∧ ReviewerGate.isLandingRow t = false

/-- A review has a verdict in its stored result. -/
def Decided (t : Task) : Prop :=
  IsReview t → ReviewerGate.reviewerVerdict t.result ≠ none

/-- Every completed review is decided. -/
def ReviewsDecided (tasks : Table Task) : Prop :=
  ∀ t ∈ tasks.rows, t.status = .completed → Decided t

instance : DecidablePred Decided := fun t =>
  inferInstanceAs (Decidable (Unicode.lower (Text.strip t.role) = "reviewer" ∧
    ReviewerGate.isLandingRow t = false → ReviewerGate.reviewerVerdict t.result ≠ none))

instance : DecidablePred ReviewsDecided := fun tasks =>
  inferInstanceAs (Decidable (∀ t ∈ tasks.rows, t.status = .completed → Decided t))

theorem isReview_congr {t t' : Task} (hrole : t'.role = t.role) (htitle : t'.title = t.title)
    (hlane : t'.laneKey = t.laneKey) : IsReview t' ↔ IsReview t := by
  rw [IsReview, IsReview, ReviewerGate.isLandingRow, ReviewerGate.isLandingRow,
    LandingGate.landingArtifact_congr htitle hlane, hrole, hlane]

theorem decided_congr {t t' : Task} (hrole : t'.role = t.role) (htitle : t'.title = t.title)
    (hlane : t'.laneKey = t.laneKey) (hresult : t'.result = t.result) :
    Decided t' ↔ Decided t := by
  rw [Decided, Decided, isReview_congr hrole htitle hlane, hresult]

/-- The gate lets through what is decided by the text it looks at. -/
theorem reviewerCompletionVeto_eq_none {t : Task} {result : Option String}
    (h : ReviewerGate.reviewerCompletionVeto t result = none) (hreview : IsReview t) :
    ReviewerGate.reviewerVerdict result ≠ none := by
  unfold ReviewerGate.reviewerCompletionVeto at h
  obtain ⟨hrole, hlanding⟩ := hreview
  rw [if_neg (not_not_intro hrole), if_neg (by rw [hlanding]; exact Bool.false_ne_true)] at h
  intro hnone
  rw [if_pos hnone] at h
  cases h

theorem reviewerVerdict_of_isBlank {body : String} (h : Text.isBlank body = true) :
    ReviewerGate.reviewerVerdict (some body) = none := by
  rw [ReviewerGate.reviewerVerdict, if_pos h]

/-! ## One operation -/

/-- The operation completes only what is decided, and leaves the results of
completed tasks alone. -/
def KeepsVerdicts (tasks : Table Task) : StoreOp → Prop
  | .setTaskStatus taskId status _ =>
      status = .completed → ∀ t, tasks.get? taskId = some t → Decided t
  | .setTaskResult taskId _ => ∀ t, tasks.get? taskId = some t → t.status ≠ .completed
  | .handleSyncMessage _ => False
  | _ => True

variable {k : Backend} {now : Nat} {b b' : Board} {op : StoreOp} {t t' : Task}

theorem Rewrites.decided (h : Rewrites k now b op t t') (ht : t ∈ b.tasks.rows)
    (hop : KeepsVerdicts b.tasks op) (hdecided : t.status = .completed → Decided t)
    (hdone : t'.status = .completed) : Decided t' := by
  have hkeep : t'.status = t.status → t'.role = t.role → t'.title = t.title →
      t'.laneKey = t.laneKey → t'.result = t.result → Decided t' := by
    intro hstatus hrole htitle hlane hresult
    exact (decided_congr hrole htitle hlane hresult).mpr (hdecided (hstatus ▸ hdone))
  rcases h with rfl | hchange
  · exact hdecided hdone
  cases hchange with
  | status hid =>
      have hsame : Decided t := hop hdone t (hid ▸ Table.get?_of_mem ht)
      exact (decided_congr rfl rfl rfl rfl).mpr hsame
  | result hid => exact absurd hdone (hop t (hid ▸ Table.get?_of_mem ht))
  | sync | overwrite => exact hop.elim
  | ballot | cancelRequeue | dependencies | hold | writeRow => exact hkeep rfl rfl rfl rfl rfl
  | replaceBatch =>
      unfold ClusterState.batchTask at hdone
      split at hdone <;> cases hdone
  | unassign | unblock | resume | requeue | demote | promote | assign | replace | promoteRow
  | promoteBatch => cases hdone

omit [Unicode] in
theorem Created.ne_completed (h : Created k now op t') (hop : ∀ msg, op ≠ .handleSyncMessage msg) :
    t'.status ≠ .completed := by
  cases h with
  | batch =>
      intro hdone
      unfold ClusterState.batchTask at hdone
      split at hdone <;> cases hdone
  | pending | promoted | batchPending | batchPromoted => exact fun h => by cases h
  | synced => exact absurd rfl (hop _)

theorem reviewsDecided_step (h : ReviewsDecided b.tasks) (hop : KeepsVerdicts b.tasks op)
    (hevolves : b.tasks.Evolves (Rewrites k now b op) (Created k now op) b'.tasks) :
    ReviewsDecided b'.tasks := by
  intro t' ht' hdone
  rcases hevolves.exists_of_mem ht' with ⟨t, ht, hrow⟩ | hnew
  · exact hrow.decided ht hop (h t ht) hdone
  · refine absurd hdone (hnew.ne_completed (fun msg hmsg => ?_))
    subst hmsg
    exact hop

end Reviews

/-! ## The completion of a task -/

section Completion

variable [Unicode] {k : Backend}

/-- A text that is not blank is stored as it was delivered. -/
def Stores (now : Nat) (op : StoreOp) (b b' : Board) : Prop :=
  match op with
  | .setTaskResult taskId (some body) => ∀ t, b.tasks.get? taskId = some t →
      b'.tasks.get? taskId = some (if Text.isBlank body then t else t.withResult now body)
  | _ => True

theorem Backend.stores (k : Backend) (now : Nat) (op : StoreOp) (s : k.Store) :
    Stores now op (k.board s) (k.board (k.step now op s).2) := by
  cases op with
  | setTaskResult taskId result =>
      cases result with
      | none => trivial
      | some body =>
          intro t ht
          cases k with
          | memory =>
              change (ClusterState.setTaskResult now taskId (some body) s).2.tasks.get? taskId = _
              unfold ClusterState.setTaskResult
              dsimp only
              split
              · exact ht
              · rw [show s.tasks.get? taskId = some t from ht]
                have hrow := s.tasks.get?_modify_self taskId (Task.withResult now body)
                  (fun _ => rfl)
                rw [show s.tasks.get? taskId = some t from ht] at hrow
                exact hrow
          | sql d =>
              change (ClusterStore.setTaskResult now taskId (some body) s).2.tasks.get? taskId = _
              unfold ClusterStore.setTaskResult
              dsimp only
              split
              · exact ht
              · have hrow := s.tasks.get?_modify_self taskId (Task.withResult now body)
                  (fun _ => rfl)
                rw [show s.tasks.get? taskId = some t from ht] at hrow
                exact hrow
  | _ => trivial

/-- The contract, with the text that is stored. -/
def StoringContract (k : Backend) (op : StoreOp) (w : Timed Board) (r : op.Res)
    (w' : Timed Board) : Prop :=
  Contract k op w r w' ∧ Stores (w.clock 0) op w.state w'.state

theorem Backend.implements_storing (k : Backend) :
    Program.Implements k.tick k.view (StoringContract k) :=
  fun op w => ⟨k.implements op w, k.stores _ op w.state⟩

/-- A program completes only what is decided. -/
abbrev Completes (k : Backend) {α : Type} (p : Api α) (w : Timed Board) : Prop :=
  p.Wp (StoringContract k) (fun w op => KeepsVerdicts w.state.tasks op) w (fun _ _ => True)

theorem permits_keepsVerdicts :
    Permits (fun s => s ≠ .completed) (fun op => ∀ tasks, KeepsVerdicts tasks op) where
  routine {op} hop _ := by
    cases op <;> first | exact hop.elim | trivial
  status hstatus _ _ _ hdone := absurd hdone hstatus
  unblock _ _ _ := trivial

theorem completes_of_only {α : Type} {p : Api α} {w : Timed Board}
    (h : p.Only (fun op => ∀ tasks, KeepsVerdicts tasks op)) : Completes k p w :=
  h.wp (fun w _ hop => hop w.state.tasks)

theorem keepsVerdicts_of_routine {tasks : Table Task} {op : StoreOp} (h : Routine op) :
    KeepsVerdicts tasks op :=
  permits_keepsVerdicts.routine h tasks

theorem decided_of_veto {t : Task} {result : Option String} {now : Nat}
    (hveto : ReviewerGate.reviewerCompletionVeto t result = none) :
    match result with
    | none => Decided t
    | some body => Decided (if Text.isBlank body then t else t.withResult now body) := by
  cases result with
  | none => exact fun hreview => absurd rfl (reviewerCompletionVeto_eq_none hveto hreview)
  | some body =>
      dsimp only
      by_cases hblank : Text.isBlank body = true
      · rw [if_pos hblank]
        intro hreview
        exact absurd (reviewerVerdict_of_isBlank hblank)
          (reviewerCompletionVeto_eq_none hveto hreview)
      · rw [if_neg hblank]
        intro hreview
        exact reviewerCompletionVeto_eq_none hveto ((isReview_congr rfl rfl rfl).mp hreview)

theorem completes_completeTask (taskId : String) (req : Option CompleteTaskRequest)
    (w : Timed Board) : Completes k (Tasks.completeTask taskId req) w := by
  rw [Tasks.completeTask_eq]
  refine wp_requireTask And.left (fun hop => keepsVerdicts_of_routine (routine_of_reads hop))
    (fun _ _ _ => trivial) (fun t w₁ hsame₁ hget => ?_)
  split
  · trivial
  rename_i hopen
  refine wp_revokeLeaseOf And.left
    (fun hop => keepsVerdicts_of_routine (routine_of_background hop)) (fun w₂ hsame₂ => ?_)
  have hrow : w₂.state.tasks.get? taskId = some t := by
    rw [hsame₂, hsame₁, hget]
  split
  · exact completes_of_only (only_store (fun _ hdone => by cases hdone) (fun _ => trivial))
  -- the same rest, with or without a result to store
  have hrest : ∀ (stored : Bool) (w₃ : Timed Board),
      (ReviewerGate.reviewerCompletionVeto t (req.bind CompleteTaskRequest.result) = none →
        ∀ u, w₃.state.tasks.get? taskId = some u → Decided u) →
      Completes k
        (Tasks.settleCompletion taskId t (req.bind CompleteTaskRequest.result) stored) w₃ := by
    intro stored w₃ hdecided
    unfold Tasks.settleCompletion
    have hwrites : ∀ {status : TaskStatus}, status ≠ .completed → ∀ {id reason}, ∀ tasks,
        KeepsVerdicts tasks (.setTaskStatus id status reason) :=
      fun hstatus => permits_keepsVerdicts.status hstatus
    cases hveto : ReviewerGate.reviewerCompletionVeto t
        (req.bind CompleteTaskRequest.result) with
    | some veto =>
        exact completes_of_only (only_refuseCompletion permits_keepsVerdicts.tends taskId veto
          (fun _ => hwrites (by decide)) (fun _ _ => ⟨hwrites (by decide), hwrites (by decide)⟩)
          (fun _ => trivial))
    | none =>
        refine wp_perform.mpr ⟨fun _ => hdecided hveto, fun _ w₄ _ => ?_⟩
        refine completes_of_only (only_bind ?_ (fun _ => trivial))
        exact only_triggerDownstream permits_keepsVerdicts.allows taskId
          (fun _ _ => ⟨hwrites (by decide), hwrites (by decide)⟩)
  cases hresult : req.bind CompleteTaskRequest.result with
  | none =>
      rw [hresult] at hrest
      refine hrest false w₂ (fun hveto u hu => ?_)
      rw [hrow] at hu
      cases hu
      exact fun hreview => absurd rfl (reviewerCompletionVeto_eq_none hveto hreview)
  | some body =>
      rw [hresult] at hrest
      refine wp_perform.mpr ⟨fun u hu hdone => ?_, fun r w₃ hC₃ => ?_⟩
      · rw [hrow] at hu
        cases hu
        exact hopen (.inl hdone)
      · refine hrest r w₃ (fun hveto u hu => ?_)
        rw [hC₃.2 t hrow] at hu
        cases hu
        exact decided_of_veto hveto

theorem Call.completes (c : Call) (w : Timed Board) : Completes k c.prog w := by
  by_cases hc : ∃ taskId req, c = .complete taskId req
  · obtain ⟨taskId, req, rfl⟩ := hc
    exact (completes_completeTask taskId req w).discard
  · refine completes_of_only (c.only permits_keepsVerdicts ?_ (fun _ _ => trivial)
      (fun _ _ => trivial) (fun _ _ _ => trivial) (fun _ hdone => hdone)
      (fun _ _ _ => by decide) ?_)
    · intro op hrecovering tasks
      cases op with
      | setTaskStatus taskId status reason =>
          intro hdone
          rw [show status = .failed from hrecovering] at hdone
          cases hdone
      | setTaskResult | handleSyncMessage => exact hrecovering.elim
      | _ => trivial
    · exact fun taskId req h => absurd ⟨taskId, req, h⟩ hc

/-- Through any run of calls, on any store, every completed review has a verdict
in its stored result after each operation, if it has at the start. -/
theorem reviewsDecided_of_calls (k : Backend) (cs : List TimedCall) (w : Timed k.Store)
    (hstart : ReviewsDecided (k.board w.state).tasks) :
    k.AlongCalls (fun _ _ w' => ReviewsDecided (k.board w'.state).tasks) cs w ∧
      ReviewsDecided (k.board (k.runCalls cs w).state).tasks := by
  have henter : ∀ (c : TimedCall) (w : Timed k.Store), ReviewsDecided (k.board w.state).tasks →
      ReviewsDecided (k.board (c.enter w).state).tasks := fun _ _ h => h
  refine alongAll_of_calls (I := fun w : Timed k.Store => ReviewsDecided (k.board w.state).tasks)
    henter (fun c w h _ => ?_) hstart
    (callsMeet_of_mem (fun _ _ => trivial) w)
  have halong := (along_of_wp k.implements_storing (c.call.completes (k.view w))).1
  refine keeps_of_along halong h (fun w op h hop => ?_)
  have hnext := reviewsDecided_step h hop (k.implements op w).tasks
  exact ⟨hnext, hnext⟩

end Completion

section Example

local instance asciiReviews : Unicode := Unicode.ascii

/-- A review is submitted, claimed by a node and delivered with a verdict. -/
def reviewedRun : List TimedCall :=
  [⟨.submit "r" { title := "review r!1", laneKey := "r!1", role := "reviewer" }, fun _ => 1⟩,
   ⟨.claim "r" { nodeId := "n" }, fun _ => 2⟩,
   ⟨.complete "r" (some { result := some "Verdict: PASS" }), fun _ => 3⟩]

/-- The tasks of an in-memory store that was empty, after the run. -/
def reviewedTasks : Table Task :=
  (Backend.memory.board
    (Backend.memory.runCalls reviewedRun ⟨ClusterState.empty, fun _ => 0⟩).state).tasks

theorem reviewsDecided_of_calls_reviewed :
    ReviewsDecided reviewedTasks ∧
      (reviewedTasks.get? "r").map Task.status = some .completed := by
  have hempty : ReviewsDecided (Backend.memory.board ClusterState.empty).tasks := by
    intro t ht
    cases ht
  refine ⟨(reviewsDecided_of_calls .memory reviewedRun ⟨ClusterState.empty, fun _ => 0⟩ hempty).2,
    ?_⟩
  decide +kernel

end Example

end HermesCluster
