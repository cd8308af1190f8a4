import HermesCluster.Routers.Footprint
import Mathlib.Data.List.Pairwise
/-!
# One open task of a kind per lane

Some tasks are to be alone on their lane: of all the rows of a kind that have
not ended, at most one may name it. What a task is of a kind by is told by
columns that no operation writes, so the board can come to hold a second one
only where a row is created or one that has ended is opened again.
-/

namespace HermesCluster

open Program hiding pure bind

/-- A kind of task: the columns `issues`, `priority`, `role` and `laneKey` that
its rows have, and the statuses in which they no longer count. -/
structure LaneKind where
  Holds : List String → Int → String → String → Prop
  Ended : TaskStatus → Prop
  isTerminal : ∀ {s}, Ended s → s.IsTerminal
  stays : ∀ {s s'}, Ended s → ¬ClusterState.Refuses s s' → Ended s'

namespace LaneKind

variable (κ : LaneKind)

/-- The row is of the kind. -/
def Has (t : Task) : Prop :=
  κ.Holds t.issues t.priority t.role t.laneKey

/-- The row is of the kind and counts. -/
def Open (t : Task) : Prop :=
  κ.Has t ∧ ¬κ.Ended t.status

/-- The row to create is of the kind. -/
def Plans (plan : TaskPlan) : Prop :=
  κ.Holds plan.issues plan.priority plan.role plan.laneKey

/-- At most one open row of the kind is on each lane. -/
def Alone (tasks : Table Task) : Prop :=
  ∀ t ∈ tasks.rows, ∀ u ∈ tasks.rows, κ.Open t → κ.Open u → u.laneKey = t.laneKey → u = t

/-- No open row of the kind is on the lane. -/
def Vacant (tasks : Table Task) (lane : String) : Prop :=
  ∀ t ∈ tasks.rows, κ.Open t → t.laneKey ≠ lane

/-- No two plans of the kind are for one lane. -/
def OwnLanes (plans : List TaskPlan) : Prop :=
  plans.Pairwise (fun p q => κ.Plans p → κ.Plans q → q.laneKey ≠ p.laneKey)

/-- The row may be opened: if it has ended, no other row is open on its lane. -/
def Reopenable (tasks : Table Task) (t : Task) : Prop :=
  κ.Ended t.status → κ.Has t → κ.Vacant tasks t.laneKey

/-- What keeps the rows of a kind alone, of one operation: rows are created on
vacant lanes of their own, and opened again only on vacant lanes. -/
structure Spares (k : Backend) (tasks : Table Task) (op : StoreOp) : Prop where
  own : κ.OwnLanes op.plans
  vacant : ∀ plan ∈ op.plans, κ.Plans plan → κ.Vacant tasks plan.laneKey
  ended : ∀ taskId status reason, op = .setTaskStatus taskId status reason →
    k = .memory ∨ κ.Ended status ∨
      ∀ t, tasks.get? taskId = some t → κ.Reopenable tasks t
  unsynced : ∀ msg, op ≠ .handleSyncMessage msg

variable {κ}

theorem OwnLanes.eq_of_mem {plans : List TaskPlan} (h : κ.OwnLanes plans) {p q : TaskPlan}
    (hp : p ∈ plans) (hq : q ∈ plans) (hplans : κ.Plans p) (hplans' : κ.Plans q)
    (hlane : q.laneKey = p.laneKey) : q = p := by
  have : Std.Symm (fun p q : TaskPlan => κ.Plans p → κ.Plans q → q.laneKey ≠ p.laneKey) :=
    ⟨fun _ _ hpq hq hp heq => hpq hp hq heq.symm⟩
  by_contra hne
  exact List.Pairwise.forall h hp hq (Ne.symm hne) hplans hplans' hlane

theorem not_ended_of_open {s : TaskStatus} (h : ¬s.IsTerminal) : ¬κ.Ended s :=
  fun hended => h (κ.isTerminal hended)

section Step

variable [Unicode] {k : Backend} {now : Nat} {b b' : Board} {op : StoreOp} {t t' u' : Task}

/-- How it comes that a row of the kind is open after an operation. -/
inductive Origin (κ : LaneKind) (b : Board) (op : StoreOp) (t' : Task) : Prop
  | before {t : Task} (ht : t ∈ b.tasks.rows) (hid : t'.id = t.id)
      (hlane : t'.laneKey = t.laneKey) (hopen : κ.Open t)
  | planned {plan} (hplan : plan ∈ op.plans) (hid : t'.id = plan.taskId)
      (hlane : t'.laneKey = plan.laneKey) (hplans : κ.Plans plan)
  | reopened {taskId status reason} (hop : op = .setTaskStatus taskId status reason)
      (hid : t'.id = taskId) (hvacant : κ.Vacant b.tasks t'.laneKey)

theorem Rewrites.origin (h : Rewrites k now b op t t') (ht : t ∈ b.tasks.rows)
    (hop : κ.Spares k b.tasks op) (hopen : κ.Open t') : Origin κ b op t' := by
  have hhas : t'.issues = t.issues → t'.priority = t.priority → t'.role = t.role →
      t'.laneKey = t.laneKey → κ.Has t := by
    intro hissues hpriority hrole hlane
    have hholds := hopen.1
    unfold Has at hholds
    rwa [hissues, hpriority, hrole, hlane] at hholds
  have hkept : ¬κ.Ended t.status → t'.id = t.id → t'.issues = t.issues →
      t'.priority = t.priority → t'.role = t.role → t'.laneKey = t.laneKey →
      Origin κ b op t' := by
    intro hstatus hid hissues hpriority hrole hlane
    exact .before ht hid hlane ⟨hhas hissues hpriority hrole hlane, hstatus⟩
  rcases h with rfl | hchange
  · exact .before ht rfl rfl hopen
  cases hchange with
  | @status taskId status failReason _ hid hguard =>
      by_cases hended : κ.Ended t.status
      · rcases hop.ended _ _ _ rfl with hmemory | hends | hreopens
        · exact absurd (κ.stays hended (hguard hmemory)) hopen.2
        · exact absurd hends hopen.2
        · have hvacant := hreopens t (hid ▸ Table.get?_of_mem ht) hended (hhas rfl rfl rfl rfl)
          exact .reopened rfl hid hvacant
      · exact hkept hended rfl rfl rfl rfl rfl
  | unassign _ hrow | requeue _ hrow =>
      exact hkept (not_ended_of_open hrow) rfl rfl rfl rfl rfl
  | unblock _ hblocked | resume _ hblocked =>
      have hrow := TaskStatus.not_isTerminal_of_blocked hblocked
      exact hkept (not_ended_of_open hrow) rfl rfl rfl rfl rfl
  | demote _ _ _ hready =>
      have hrow := TaskStatus.not_isTerminal_of_ready hready
      exact hkept (not_ended_of_open hrow) rfl rfl rfl rfl rfl
  | assign hcandidate =>
      have hrow := TaskStatus.not_isTerminal_of_ready hcandidate.2.1
      exact hkept (not_ended_of_open hrow) rfl rfl rfl rfl rfl
  | promote hpending | promoteRow _ _ _ hpending | promoteBatch _ _ _ _ hpending =>
      have hrow := TaskStatus.not_isTerminal_of_pending hpending
      exact hkept (not_ended_of_open hrow) rfl rfl rfl rfl rfl
  | result | ballot | cancelRequeue | dependencies | hold | writeRow =>
      exact .before ht rfl rfl hopen
  | sync | overwrite => exact absurd rfl (hop.unsynced _)
  | replace => exact .planned List.mem_cons_self rfl rfl hopen.1
  | replaceBatch _ hplan => exact .planned hplan rfl rfl hopen.1

omit [Unicode] in
theorem Created.origin (h : Created k now op t') (hop : κ.Spares k b.tasks op)
    (hopen : κ.Open t') : Origin κ b op t' := by
  cases h with
  | pending | promoted => exact .planned List.mem_cons_self rfl rfl hopen.1
  | batch _ hplan | batchPending _ hplan | batchPromoted _ hplan =>
      exact .planned hplan rfl rfl hopen.1
  | synced => exact absurd rfl (hop.unsynced _)

omit [Unicode] in
/-- Two open rows of a lane after an operation are one. -/
theorem Origin.unique (h : κ.Alone b.tasks) (hop : κ.Spares k b.tasks op)
    (hkey : u'.laneKey = t'.laneKey) (ht' : Origin κ b op t') (hu' : Origin κ b op u') :
    u'.id = t'.id := by
  cases ht' with
  | before ht hid hlane hopen =>
      have htaken : ¬κ.Vacant b.tasks t'.laneKey := fun hvacant => hvacant _ ht hopen hlane.symm
      cases hu' with
      | before hu hid' hlane' hopen' =>
          have hsame := h _ ht _ hu hopen hopen' (hlane'.symm.trans (hkey.trans hlane))
          rw [hid, hid', hsame]
      | planned hplan _ hlane' hplans =>
          have hvacant := hop.vacant _ hplan hplans
          rw [← hlane', hkey] at hvacant
          exact absurd hvacant htaken
      | reopened _ _ hvacant => exact absurd (hkey ▸ hvacant) htaken
  | planned hplan hid hlane hplans =>
      have hvacant := hop.vacant _ hplan hplans
      rw [← hlane] at hvacant
      cases hu' with
      | before hu _ hlane' hopen =>
          exact absurd (hlane'.symm.trans hkey) (hvacant _ hu hopen)
      | planned hplan' hid' hlane' hplans' =>
          have hsame := hop.own.eq_of_mem hplan hplan' hplans hplans'
            (hlane'.symm.trans (hkey.trans hlane))
          rw [hid, hid', hsame]
      | reopened hstatus =>
          subst hstatus
          cases hplan
  | reopened hstatus hid hvacant =>
      subst hstatus
      cases hu' with
      | before hu _ hlane' hopen =>
          exact absurd (hlane'.symm.trans hkey) (hvacant _ hu hopen)
      | planned hplan' => cases hplan'
      | reopened hstatus' hid' =>
          cases hstatus'
          exact hid'.trans hid.symm

theorem alone_step (h : κ.Alone b.tasks) (hop : κ.Spares k b.tasks op)
    (hevolves : b.tasks.Evolves (Rewrites k now b op) (Created k now op) b'.tasks) :
    κ.Alone b'.tasks := by
  have horigin : ∀ t' ∈ b'.tasks.rows, κ.Open t' → Origin κ b op t' := by
    intro t' ht' hopen
    rcases hevolves.exists_of_mem ht' with ⟨t, ht, hrow⟩ | hnew
    · exact Rewrites.origin hrow ht hop hopen
    · exact Created.origin hnew hop hopen
  intro t' ht' u' hu' hopen hopen' hkey
  exact Table.eq_of_mem_of_key_eq hu' ht'
    (Origin.unique h hop hkey (horigin t' ht' hopen) (horigin u' hu' hopen'))

end Step

/-! ## What a call issues -/

section Calls

variable [Unicode] {k : Backend} {c : Call} {w₀ : Timed Board} {b : Board} {op : StoreOp}

omit [Unicode] in
theorem Spares.of_plain {tasks : Table Task} (hplans : op.plans = [])
    (hstatus : ∀ taskId status reason, op ≠ .setTaskStatus taskId status reason)
    (hsync : ∀ msg, op ≠ .handleSyncMessage msg) : κ.Spares k tasks op where
  own := by rw [hplans]; exact .nil
  vacant plan hplan := by rw [hplans] at hplan; cases hplan
  ended taskId status reason h := absurd h (hstatus taskId status reason)
  unsynced := hsync

omit [Unicode] in
theorem Spares.of_creation {tasks : Table Task} {plan : TaskPlan}
    (h : κ.Plans plan → κ.Vacant tasks plan.laneKey) : κ.Spares k tasks (.createTask plan) where
  own := List.pairwise_singleton _ _
  vacant p hp := by
    obtain rfl := List.mem_singleton.mp hp
    exact h
  ended _ _ _ heq := by cases heq
  unsynced _ heq := by cases heq

omit [Unicode] in
theorem Spares.of_batch {tasks : Table Task} {plans : List TaskPlan} (hown : κ.OwnLanes plans)
    (h : ∀ plan ∈ plans, κ.Plans plan → κ.Vacant tasks plan.laneKey) :
    κ.Spares k tasks (.createTasksBatch plans) where
  own := hown
  vacant := h
  ended _ _ _ heq := by cases heq
  unsynced _ heq := by cases heq

omit [Unicode] in
theorem Spares.of_status {tasks : Table Task} {taskId reason : String} {status : TaskStatus}
    (h : k = .memory ∨ κ.Ended status ∨
      ∀ t, tasks.get? taskId = some t → κ.Reopenable tasks t) :
    κ.Spares k tasks (.setTaskStatus taskId status reason) where
  own := .nil
  vacant plan hplan := by cases hplan
  ended _ _ _ heq := by cases heq; exact h
  unsynced _ heq := by cases heq

omit [Unicode] in
theorem spares_of_idle {tasks : Table Task} (h : Idle op) : κ.Spares k tasks op := by
  cases op with
  | createTask | createTasksBatch | setTaskStatus | handleSyncMessage => exact h.elim
  | _ => exact .of_plain rfl (fun _ _ _ heq => by cases heq) (fun _ heq => by cases heq)

variable (κ) in
/-- No node releases a task of its own that has ended. -/
def Unrevived (c : Call) (w : Timed Board) : Prop :=
  ∀ taskId req, c = .release taskId req → ∀ t, w.state.tasks.get? taskId = some t →
    t.assignedTo = some req.nodeId → ¬κ.Ended t.status

/-- Beside creations, only a release can open again what has ended, and only on
a store without a guard. -/
theorem spares_of_issued (h : Issued c w₀ b op)
    (hsubmit : ∀ taskId req, c = .submit taskId req → ¬κ.Plans (Tasks.submitPlan taskId req))
    (hbatch : ∀ plans, c = .createBatch plans → κ.Spares k w₀.state.tasks (.createTasksBatch plans))
    (hrelease : k = .memory ∨ κ.Unrevived c w₀) : κ.Spares k b.tasks op := by
  have hrow : ∀ {taskId t}, b.tasks.get? taskId = some t → ¬κ.Ended t.status →
      ∀ u, b.tasks.get? taskId = some u → κ.Reopenable b.tasks u := by
    intro taskId t ht hopen u hu hended
    rw [Option.some.inj (hu.symm.trans ht)] at hended
    exact absurd hended hopen
  cases h with
  | idle hidle => exact spares_of_idle hidle
  | submit hc =>
      exact .of_creation (fun hplans => absurd hplans (hsubmit _ _ hc))
  | batch hc hb =>
      rw [hb]
      exact hbatch _ hc
  | @close taskId status reason t _ _ hget hguard =>
      refine .of_status (.inr ?_)
      by_cases hended : κ.Ended t.status
      · exact .inl (κ.stays hended hguard)
      · exact .inr (hrow hget hended)
  | promote hget hpending =>
      have hopen := TaskStatus.not_isTerminal_of_pending hpending
      exact .of_status (.inr (.inr (hrow hget (not_ended_of_open hopen))))
  | claim hget hready =>
      have hopen := TaskStatus.not_isTerminal_of_ready hready
      exact .of_status (.inr (.inr (hrow hget (not_ended_of_open hopen))))
  | advance _ hget hopen =>
      exact .of_status (.inr (.inr (hrow hget (not_ended_of_open hopen))))
  | release hc hcalm hget hown =>
      refine .of_status (hrelease.imp id (fun hunrevived => .inr (fun u hu hended => ?_)))
      obtain ⟨t, ht, hrow⟩ := hcalm.of_get? hu
      rw [hrow.status] at hended
      have hsame := Option.some.inj (ht.symm.trans hget)
      exact absurd hended (hunrevived _ _ hc t ht (hsame ▸ hown))
  | retry | resume | dependencies | unassign =>
      exact .of_plain rfl (fun _ _ _ h => by cases h) (fun _ h => by cases h)

end Calls

end LaneKind

end HermesCluster
