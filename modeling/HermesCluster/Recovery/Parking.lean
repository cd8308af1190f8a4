import HermesCluster.Recovery.Manager
import HermesCluster.State.Contract
/-!
# Tasks that a recovery cannot place

`reschedule_orphaned` puts a task back to ready and runs a schedule pass. A task
that the pass does not place is parked by the pass, and then failed by the
rescheduler.
-/

namespace HermesCluster

open Program hiding pure bind

section Parking

variable [Unicode] {k : Backend} {taskId : String}

/-! ## What every turn of the loop keeps -/

omit [Unicode] in
/-- The rows of tasks that have ended stand as they were. -/
def EndedRowsKept (b b' : Board) : Prop :=
  ∀ taskId t, t.status.IsTerminal → b.tasks.get? taskId = some t →
    b'.tasks.get? taskId = some t

omit [Unicode] in
theorem EndedRowsKept.refl (b : Board) : EndedRowsKept b b := fun _ _ _ ht => ht

omit [Unicode] in
theorem EndedRowsKept.trans {b b' b'' : Board} (h : EndedRowsKept b b')
    (h' : EndedRowsKept b' b'') :
    EndedRowsKept b b'' :=
  fun taskId t hended ht => h' taskId t hended (h taskId t hended ht)

theorem endedRowsKept_of_contract {op : StoreOp} {w w' : Timed Board} {r : op.Res}
    (hC : Contract k op w r w')
    (hopen : ∀ t t', Change k (w.clock 0) w.state op t t' → t ∈ w.state.tasks.rows →
      ¬t.status.IsTerminal) : EndedRowsKept w.state w'.state := by
  intro taskId t hended ht
  obtain ⟨t', ht', hrow⟩ := hC.tasks.get?_of_get? (fun _ _ h => Rewrites.id_eq h) ht
  rcases hrow with rfl | hchange
  · exact ht'
  · exact absurd hended (hopen t t' hchange (Table.mem_of_get? ht))

/-- The only status the rescheduler writes is failed, on a task of its list that
has no assignee. -/
def FailsUnassigned (taskIds : List String) (w : Timed Board) (op : StoreOp) : Prop :=
  ∀ taskId status reason, op = .setTaskStatus taskId status reason →
    status = .failed ∧ taskId ∈ taskIds ∧
      ∀ t, w.state.tasks.get? taskId = some t → t.assignedTo.getD "" = ""

theorem wp_markFailed {taskIds : List String} (hmem : taskId ∈ taskIds) {w : Timed Board}
    {t : Task} (ht : w.state.tasks.get? taskId = some t) (hopen : ¬t.status.IsTerminal)
    (hfree : t.assignedTo.getD "" = "") :
    (Recovery.markFailed taskId).Wp (Contract k) (FailsUnassigned taskIds) w
      (fun r w' => (∃ u, r = .ok u) ∧ EndedRowsKept w.state w'.state) := by
  refine wp_perform.mpr ⟨?_, fun r w' hC => ⟨⟨(), rfl⟩, ?_⟩⟩
  · rintro _ _ _ heq
    cases heq
    refine ⟨rfl, hmem, fun u hu => ?_⟩
    rw [ht] at hu
    cases hu
    exact hfree
  · refine endedRowsKept_of_contract hC (fun u u' hchange hu => ?_)
    cases hchange with
    | status hid _ =>
        have hrow : u = t := Table.eq_of_mem_of_key_eq hu (Table.mem_of_get? ht)
          (hid.trans (Table.key_of_get? ht).symm)
        exact hrow ▸ hopen

/-- The row of a task just put back to ready, after the pass: placed, or parked. -/
theorem row_after_pass {w w' : Timed Board} {r : StoreOp.schedulePendingDetailed.Res} {t : Task}
    (ht : w.state.tasks.get? taskId = some t) (hready : t.status = .ready)
    (hC : Contract k .schedulePendingDetailed w r w') :
    (∃ t', w'.state.tasks.get? taskId = some t' ∧ ¬t'.status.IsTerminal) ∧
      ((∀ a ∈ r, a.taskId ≠ taskId) → w'.state.tasks.get? taskId = some t) := by
  obtain ⟨cs, hpass⟩ := hC.reply
  constructor
  · obtain ⟨t', ht', hrow⟩ := hC.tasks.get?_of_get? (fun _ _ h => Rewrites.id_eq h) ht
    refine ⟨t', ht', ?_⟩
    rcases hrow with rfl | hchange
    · exact TaskStatus.not_isTerminal_of_ready hready
    · cases hchange with
      | assign => simp [Task.assignTo, TaskStatus.IsTerminal]
  · intro hunplaced
    rw [hpass.tasks_eq, get?_placeAll_of_not_placed, ht]
    intro hplaced
    obtain ⟨p, hp, hid⟩ := List.mem_map.mp hplaced
    have hassigned := List.mem_map_of_mem (f := assignmentOf) hp
    rw [← hpass.out_eq] at hassigned
    exact hunplaced _ hassigned hid

theorem wp_rescheduleStep {taskIds : List String} (hmem : taskId ∈ taskIds) (n : Nat)
    (w : Timed Board) :
    (Recovery.rescheduleStep n taskId).Wp (Contract k) (FailsUnassigned taskIds) w
      (fun r w' => (∃ n', r = .ok n') ∧ EndedRowsKept w.state w'.state) := by
  have hother : ∀ (w : Timed Board) (op : StoreOp),
      (∀ taskId status reason, op ≠ .setTaskStatus taskId status reason) →
      FailsUnassigned taskIds w op :=
    fun _ _ hne taskId status reason heq => absurd heq (hne taskId status reason)
  unfold Recovery.rescheduleStep
  refine wp_perform.mpr ⟨hother _ _ (by simp), fun task w₁ hC₁ => ?_⟩
  have hsame₁ : w₁.state = w.state := hC₁.reply.2
  cases task with
  | none => exact ⟨⟨n, rfl⟩, hsame₁ ▸ EndedRowsKept.refl _⟩
  | some _ =>
      refine wp_perform.mpr ⟨hother _ _ (by simp), fun unassigned w₂ hC₂ => ?_⟩
      have hkept₂ : EndedRowsKept w.state w₂.state := by
        rw [← hsame₁]
        refine endedRowsKept_of_contract hC₂ (fun t t' hchange _ => ?_)
        cases hchange with
        | unassign _ hopen _ => exact hopen
      obtain ⟨-, -, hyes⟩ := hC₂.reply
      cases unassigned with
      | false => exact ⟨⟨n, rfl⟩, hkept₂⟩
      | true =>
          obtain ⟨-, t, -, -, hrow⟩ := hyes rfl
          refine wp_perform.mpr ⟨hother _ _ (by simp), fun scheduled w₃ hC₃ => ?_⟩
          obtain ⟨⟨t₃, ht₃, hopen⟩, hparked⟩ := row_after_pass hrow rfl hC₃
          have hkept₃ : EndedRowsKept w.state w₃.state := by
            refine hkept₂.trans (endedRowsKept_of_contract hC₃ (fun u u' hchange _ => ?_))
            cases hchange with
            | assign hcandidate => exact TaskStatus.not_isTerminal_of_ready hcandidate.2.1
          have hfailed : t₃.assignedTo.getD "" = "" → ∀ w₄ : Timed Board,
              w₄.state = w₃.state →
              (Recovery.markFailed taskId >>= fun _ => pure n).Wp (Contract k)
                (FailsUnassigned taskIds) w₄
                (fun r w' => (∃ n', r = .ok n') ∧ EndedRowsKept w.state w'.state) := by
            intro hfree w₄ hsame
            refine Wp.seq (I := fun _ w' => EndedRowsKept w.state w'.state)
              ((wp_markFailed hmem (hsame ▸ ht₃) hopen hfree).mono ?_)
              (fun _ w₅ h₅ => ⟨⟨n, rfl⟩, h₅⟩)
            rintro r w' ⟨⟨u, hr⟩, hkept⟩
            exact ⟨u, hr, hkept₃.trans (hsame ▸ hkept)⟩
          split
          · refine wp_perform.mpr ⟨hother _ _ (by simp), fun task w₄ hC₄ => ?_⟩
            obtain ⟨hread, hsame₄⟩ := hC₄.reply
            split
            · exact ⟨⟨n + 1, rfl⟩, hsame₄ ▸ hkept₃⟩
            · rename_i hfree
              rw [not_not, hread, ht₃] at hfree
              exact hfailed hfree w₄ hsame₄
          · rename_i hempty
            have hunplaced : ∀ a ∈ scheduled, a.taskId ≠ taskId := by
              rw [List.eq_nil_of_length_eq_zero (Nat.eq_zero_of_not_pos hempty)]
              exact List.forall_mem_nil _
            have hsame := Option.some.inj (ht₃.symm.trans (hparked hunplaced))
            exact hfailed (by rw [hsame]; rfl) w₃ rfl

theorem wp_foldlM_rescheduleStep (taskIds rest : List String) (hsub : ∀ id ∈ rest, id ∈ taskIds)
    (n : Nat) (w : Timed Board) :
    (rest.foldlM Recovery.rescheduleStep n).Wp (Contract k) (FailsUnassigned taskIds) w
      (fun r w' => (∃ n', r = .ok n') ∧ EndedRowsKept w.state w'.state) := by
  refine (wp_foldlM (I := fun _ w' => EndedRowsKept w.state w'.state) rest Recovery.rescheduleStep
    (fun id hid n' w' hkept => (wp_rescheduleStep (hsub id hid) n' w').mono ?_) n
    (EndedRowsKept.refl _)).mono ?_
  · rintro r w'' ⟨⟨n'', hr⟩, hkept'⟩
    exact ⟨n'', hr, hkept.trans hkept'⟩
  · rintro r w' ⟨n', hr, hkept⟩
    exact ⟨⟨n', hr⟩, hkept⟩

/-! ## The turn of a task that finds no place -/

/-- `unassign_task` at the turn of a task, and the store after it. -/
def Backend.unassigned (k : Backend) (taskId : String) (w : Timed k.Store) :
    Bool × Timed k.Store :=
  k.tick (.unassignTask taskId) (k.tick (.getTask taskId) w).2

/-- The pass that follows. -/
def Backend.passed (k : Backend) (taskId : String) (w : Timed k.Store) :
    List Assignment × Timed k.Store :=
  k.tick .schedulePendingDetailed (k.unassigned taskId w).2

/-- The task is put back to ready, and the pass that follows does not place it. -/
def Backend.Unplaced (k : Backend) (taskId : String) (w : Timed k.Store) : Prop :=
  (k.unassigned taskId w).1 = true ∧ ∀ a ∈ (k.passed taskId w).1, a.taskId ≠ taskId

/-- Ready and without an assignee, for a later pass. -/
def Parked (b : Board) (taskId : String) : Prop :=
  ∃ t, b.tasks.get? taskId = some t ∧ t.status = .ready ∧ t.assignedTo = none

/-- Failed, for want of a node. -/
def FailedUnplaced (b : Board) (taskId : String) : Prop :=
  ∃ t, b.tasks.get? taskId = some t ∧ t.status = .failed ∧ t.assignedTo = none ∧
    t.failReason = some "no available node for reschedule"

theorem parked_of_unplaced {w : Timed k.Store} (h : k.Unplaced taskId w) :
    Parked (k.board (k.passed taskId w).2.state) taskId := by
  obtain ⟨hunassigned, hunplaced⟩ := h
  have hC₂ := k.implements (.unassignTask taskId) (k.tick (.getTask taskId) w).2
  obtain ⟨-, -, hyes⟩ := hC₂.reply
  obtain ⟨-, t, -, -, hrow⟩ := hyes hunassigned
  have hC₃ := k.implements .schedulePendingDetailed (k.unassigned taskId w).2
  exact ⟨_, (row_after_pass hrow rfl hC₃).2 hunplaced, rfl, rfl⟩

/-- A parked task is failed by the write that `markFailed` makes. -/
theorem wp_markFailed_parked {w : Timed k.Store} (h : Parked (k.board w.state) taskId) :
    (Recovery.markFailed taskId).Wp k.Does (fun _ _ => True) w
      (fun r w' => ∃ u, r = .ok u ∧ FailedUnplaced (k.board w'.state) taskId) := by
  obtain ⟨t, ht, hready, hfree⟩ := h
  have hguard : ¬ClusterState.Refuses t.status .failed :=
    fun href => TaskStatus.not_isTerminal_of_ready hready href.1
  have hwritten := (k.implements
    (.setTaskStatus taskId .failed "no available node for reschedule") w).reply.2 t ht hguard
  refine wp_perform.mpr ⟨trivial, ?_⟩
  rintro _ _ ⟨rfl, rfl⟩
  exact ⟨(), rfl, _, hwritten, rfl, hfree, rfl⟩

/-- The turn of a task that finds no place ends with the task failed. -/
theorem wp_rescheduleStep_unplaced (n : Nat) {w : Timed k.Store} (h : k.Unplaced taskId w) :
    (Recovery.rescheduleStep n taskId).Wp k.Does (fun _ _ => True) w
      (fun r w' => r = .ok n ∧ FailedUnplaced (k.board w'.state) taskId) := by
  have hparked := parked_of_unplaced h
  have hunassigned : (k.tick (.unassignTask taskId) (k.tick (.getTask taskId) w).2).1 = true :=
    h.1
  have hfailed : ∀ w' : Timed k.Store, Parked (k.board w'.state) taskId →
      (Recovery.markFailed taskId >>= fun _ => pure n).Wp k.Does (fun _ _ => True) w'
        (fun r w' => r = .ok n ∧ FailedUnplaced (k.board w'.state) taskId) :=
    fun w' hparked' => Wp.seq (I := fun _ w' => FailedUnplaced (k.board w'.state) taskId)
      (wp_markFailed_parked hparked') (fun _ _ hdone => ⟨rfl, hdone⟩)
  unfold Recovery.rescheduleStep
  refine wp_perform.mpr ⟨trivial, ?_⟩
  rintro task w₁ ⟨rfl, rfl⟩
  have hread := (k.implements (.getTask taskId) w).reply
  have hC₂ := k.implements (.unassignTask taskId) (k.tick (.getTask taskId) w).2
  obtain ⟨-, t, ht, -, -⟩ := hC₂.reply.2.2 hunassigned
  cases htask : (k.tick (.getTask taskId) w).1 with
  | none =>
      rw [hread.2, ← hread.1, htask] at ht
      cases ht
  | some _ =>
      refine wp_perform.mpr ⟨trivial, ?_⟩
      rintro unassigned w₂ ⟨rfl, rfl⟩
      rw [if_neg (fun hfalse => Bool.noConfusion (hunassigned.symm.trans hfalse))]
      refine wp_perform.mpr ⟨trivial, ?_⟩
      rintro scheduled w₃ ⟨rfl, rfl⟩
      split
      · refine wp_perform.mpr ⟨trivial, ?_⟩
        rintro task w₄ ⟨rfl, rfl⟩
        have hread₄ := (k.implements (.getTask taskId) (k.passed taskId w).2).reply
        obtain ⟨u, hu, hready, hfree⟩ := hparked
        have hreply : (k.tick (.getTask taskId) (k.passed taskId w).2).1 = some u :=
          hread₄.1.trans hu
        split
        · rename_i hplaced
          refine absurd ?_ hplaced
          have hnobody : (((k.tick (.getTask taskId) (k.passed taskId w).2).1.bind
              Task.assignedTo).getD "") = "" := by
            rw [hreply, Option.bind_some, hfree, Option.getD_none]
          exact hnobody
        · refine hfailed _ ⟨u, ?_, hready, hfree⟩
          exact (congrArg (fun b : Board => b.tasks.get? taskId) hread₄.2).trans hu
      · exact hfailed _ hparked

/-! ## The whole loop -/

/-- `reschedule_orphaned` on the rest of a list, at the turn of one of its tasks. -/
theorem run_rescheduleOrphaned_append (k : Backend) (taskId : String) (pre post : List String)
    (w : Timed k.Store) :
    ∃ n n', ((Recovery.rescheduleOrphaned (pre ++ taskId :: post)).run k.tick w).2 =
      ((post.foldlM Recovery.rescheduleStep n').run k.tick
        ((Recovery.rescheduleStep n taskId).run k.tick
          ((Recovery.rescheduleOrphaned pre).run k.tick w).2).2).2 := by
  have hpre := wp_foldlM_rescheduleStep (k := k) pre pre (fun _ h => h) 0 (k.view w)
  obtain ⟨⟨n, hn⟩, -⟩ := (along_of_wp k.implements hpre).2
  obtain ⟨⟨n', hn'⟩, -⟩ := (along_of_wp k.implements
    (s := ((pre.foldlM Recovery.rescheduleStep 0).run k.tick w).2)
    (wp_rescheduleStep (List.mem_singleton_self taskId) n _)).2
  refine ⟨n, n', ?_⟩
  rw [Recovery.rescheduleOrphaned, List.foldlM_append, run_bind_of_ok hn, List.foldlM_cons,
    run_bind_of_ok hn']
  rfl

/-- `reschedule_orphaned` on any store. A task that it puts back to ready and
that the following pass does not place is parked by that pass; if no lane pins
it to a node, the task is failed for want of a node when the loop is done.
Nothing but such a write to failed, on a task without an assignee, is ever made
to a status. -/
theorem rescheduleOrphaned_unplaced (k : Backend) (pre post : List String) (taskId : String)
    (w : Timed k.Store) :
    let w₁ := ((Recovery.rescheduleOrphaned pre).run k.tick w).2
    let w₂ := ((Recovery.rescheduleOrphaned (pre ++ taskId :: post)).run k.tick w).2
    (k.Unplaced taskId w₁ →
      Parked (k.board (k.passed taskId w₁).2.state) taskId ∧
        ((∀ t, (k.board w₁.state).tasks.get? taskId = some t →
            lanePin (k.board w₁.state).lanes t = "") →
          FailedUnplaced (k.board w₂.state) taskId)) ∧
      (Recovery.rescheduleOrphaned (pre ++ taskId :: post)).Along k.tick
        (fun w op _ => FailsUnassigned (pre ++ taskId :: post) (k.view w) op) w := by
  intro w₁ w₂
  refine ⟨fun h => ⟨parked_of_unplaced h, fun _ => ?_⟩, ?_⟩
  · obtain ⟨n, n', hrun⟩ := run_rescheduleOrphaned_append k taskId pre post w
    obtain ⟨-, t, ht, hstatus, hrow⟩ := (along_of_wp k.implements_does (s := w₁)
      (wp_rescheduleStep_unplaced n h)).2
    obtain ⟨-, hkept⟩ := (along_of_wp k.implements
      (wp_foldlM_rescheduleStep post post (fun _ h => h) n' _)).2
    have hended : t.status.IsTerminal := by
      rw [hstatus]
      decide
    refine ⟨t, ?_, hstatus, hrow⟩
    rw [show w₂ = _ from hrun]
    exact hkept taskId t hended ht
  · exact (along_of_wp k.implements (wp_foldlM_rescheduleStep _ _ (fun _ h => h) 0 _)).1

end Parking

section Example

local instance asciiParking : Unicode := Unicode.ascii

/-- A task whose only node went offline, after its lease was revoked. -/
def strandedStore : ClusterState where
  nodes := .single { id := "n", status := .offline }
  tasks := ⟨[{ id := "a", title := "a", status := .running, assignedTo := some "n",
               createdAt := 1, updatedAt := 1 }], by decide⟩
  leases := ⟨[{ id := 0, taskId := "a", nodeId := "n", createdAt := 1, expiresAt := 2,
                status := .revoked }], by decide⟩
  index_ok := indexOk_empty _

theorem unplaced_strandedStore : Backend.memory.Unplaced "a" ⟨strandedStore, fun _ => 3⟩ := by
  refine ⟨by decide, ?_⟩
  rw [show (Backend.memory.passed "a" ⟨strandedStore, fun _ => 3⟩).1 = [] by decide]
  exact List.forall_mem_nil _

theorem rescheduleOrphaned_strandedStore :
    FailedUnplaced (Backend.memory.board ((Recovery.rescheduleOrphaned ["a"]).run
      Backend.memory.tick ⟨strandedStore, fun _ => 3⟩).2.state) "a" := by
  refine ((rescheduleOrphaned_unplaced .memory [] [] "a" ⟨strandedStore, fun _ => 3⟩).1
    unplaced_strandedStore).2 (fun t ht => ?_)
  cases ht
  rfl

/-- The stranded task does not stay ready. -/
theorem unplaced_task_failed :
    ¬∀ w : Timed Backend.memory.Store, Backend.memory.Unplaced "a" w →
      Parked (Backend.memory.board
        ((Recovery.rescheduleOrphaned ["a"]).run Backend.memory.tick w).2.state) "a" := by
  intro h
  obtain ⟨t, ht, hready, -⟩ := h ⟨strandedStore, fun _ => 3⟩ unplaced_strandedStore
  have hfailed : (((Recovery.rescheduleOrphaned ["a"]).run Backend.memory.tick
      ⟨strandedStore, fun _ => 3⟩).2.state.tasks.get? "a").map Task.status = some .failed := by
    decide
  rw [show ((Recovery.rescheduleOrphaned ["a"]).run Backend.memory.tick
    ⟨strandedStore, fun _ => 3⟩).2.state.tasks.get? "a" = some t from ht, Option.map_some,
    hready] at hfailed
  cases hfailed

end Example

end HermesCluster
