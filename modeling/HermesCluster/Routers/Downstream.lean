import HermesCluster.Lib.Downstream
import HermesCluster.Routers.Issues
/-!
# Tasks that wait for nothing

A pending task below a failed or cancelled one can never be promoted. The
failure and the cancellation of a task cascade over its dependents; the other
ways in which a task ends, or a dependency begins, do not look.
-/

namespace HermesCluster

open Program hiding pure bind
open Relation

/-! ## The dependency graph of a board -/

/-- The task stored under `a` depends on `b`. -/
def DependsOn (tasks : Table Task) (a b : String) : Prop :=
  ∃ t, tasks.get? a = some t ∧ b ∈ t.dependsOn

/-- Ended without a success. -/
def TaskStatus.IsDead (s : TaskStatus) : Prop :=
  s = .failed ∨ s = .cancelled

instance : DecidablePred TaskStatus.IsDead := fun s =>
  inferInstanceAs (Decidable (s = .failed ∨ s = .cancelled))

def IsDead (tasks : Table Task) (taskId : String) : Prop :=
  ∃ t, tasks.get? taskId = some t ∧ t.status.IsDead

/-- The task, or one that it depends on directly or not, is failed or cancelled. -/
abbrev DoomedIn (tasks : Table Task) (taskId : String) : Prop :=
  Doomed (DependsOn tasks) (IsDead tasks) taskId

/-- A pending task depends on it, directly or not. -/
def Awaited (tasks : Table Task) (taskId : String) : Prop :=
  ∃ t ∈ tasks.rows, t.status = .pending ∧ TransGen (DependsOn tasks) t.id taskId

/-- No pending task has a direct or transitive dependency that is failed or
cancelled. -/
def NoDangling (tasks : Table Task) : Prop :=
  ∀ t ∈ tasks.rows, t.status = .pending → ∀ f, TransGen (DependsOn tasks) t.id f →
    ¬IsDead tasks f

section Graph

variable {tasks tasks' : Table Task}

theorem dependsOn_of_mem {t : Task} (ht : t ∈ tasks.rows) {d : String} (hd : d ∈ t.dependsOn) :
    DependsOn tasks t.id d :=
  ⟨t, Table.get?_of_mem ht, hd⟩

theorem mem_dependsOn {t : Task} (ht : t ∈ tasks.rows) {d : String}
    (h : DependsOn tasks t.id d) : d ∈ t.dependsOn := by
  obtain ⟨u, hu, hd⟩ := h
  have hget := Table.get?_of_mem ht
  rw [Task.key_eq, hu] at hget
  cases hget
  exact hd

theorem noDangling_iff :
    NoDangling tasks ↔ ∀ t ∈ tasks.rows, t.status = .pending → ∀ d ∈ t.dependsOn,
      ¬DoomedIn tasks d := by
  refine forall₃_congr (fun t ht _ => ?_)
  rw [forall_transGen_iff]
  exact ⟨fun h d hd => h d (dependsOn_of_mem ht hd), fun h d hd => h d (mem_dependsOn ht hd)⟩

/-- What a step may do: its new edges and its new pending tasks look at tasks
that were not doomed, and no pending task awaits the tasks that it ends. -/
structure Steady (tasks tasks' : Table Task) (ended : String → Prop) : Prop where
  edge : ∀ a b, DependsOn tasks' a b → DependsOn tasks a b ∨ ¬DoomedIn tasks b
  dead : ∀ a, IsDead tasks' a → IsDead tasks a ∨ ended a
  pending : ∀ t ∈ tasks'.rows, t.status = .pending → ∀ d ∈ t.dependsOn, ¬DoomedIn tasks d
  free : ∀ a, ended a → ¬Awaited tasks' a

theorem Steady.noDangling {ended : String → Prop} (h : Steady tasks tasks' ended) :
    NoDangling tasks' := by
  rw [noDangling_iff]
  intro t ht hpending d hd
  refine not_doomed_of_step h.edge h.dead (fun a hda hended => ?_) (h.pending t ht hpending d hd)
  exact h.free a hended ⟨t, ht, hpending, .head' (dependsOn_of_mem ht hd) hda⟩

end Graph

/-! ## One operation -/

section Operations

variable [Unicode] {k : Backend} {op : StoreOp} {w w' : Timed Board} {r : op.Res}

/-- Operations that leave no pending task below a dead one. -/
def Sound (tasks : Table Task) : StoreOp → Prop
  | .createTask plan => ∀ d ∈ plan.dependsOn, ¬DoomedIn tasks d
  | .createTasksBatch plans => ∀ plan ∈ plans, ∀ d ∈ plan.dependsOn, ¬DoomedIn tasks d
  | .setDependencies _ dependsOn => ∀ d ∈ dependsOn, ¬DoomedIn tasks d
  | .unblockTask taskId => ∀ t, tasks.get? taskId = some t → t.status = .blocked →
      ∀ d ∈ t.dependsOn, ¬DoomedIn tasks d
  | .setTaskStatus taskId status _ =>
      (status.IsDead → ¬Awaited tasks taskId) ∧
        (status = .pending → ∀ t, tasks.get? taskId = some t → t.status = .pending)
  | .handleSyncMessage _ => False
  | _ => True

theorem Change.dependsOn {now : Nat} {b : Board} {t t' : Task} (hop : Sound b.tasks op)
    (h : Change k now b op t t') :
    t'.dependsOn = t.dependsOn ∨ ∀ d ∈ t'.dependsOn, ¬DoomedIn b.tasks d := by
  cases h with
  | dependencies => exact .inr hop
  | demote => exact .inr hop
  | sync | overwrite => exact hop.elim
  | replace => exact .inr hop
  | replaceBatch _ hplan => exact .inr (hop _ hplan)
  | _ => exact .inl rfl

/-- A row becomes pending only with dependencies that are not doomed. -/
theorem Change.pending {now : Nat} {b : Board} {t t' : Task} (hop : Sound b.tasks op)
    (ht : t ∈ b.tasks.rows) (h : Change k now b op t t') (hpending : t'.status = .pending) :
    t.status = .pending ∨ ∀ d ∈ t'.dependsOn, ¬DoomedIn b.tasks d := by
  cases h with
  | status hid _ => exact .inl (hop.2 hpending t (hid ▸ Table.get?_of_mem ht))
  | result | ballot | cancelRequeue | writeRow => exact .inl hpending
  | unassign | requeue | resume | assign | promote | promoteRow | promoteBatch => cases hpending
  | unblock hid hblocked => exact .inr (hop t (hid ▸ Table.get?_of_mem ht) hblocked)
  | hold hold => exact .inl hold
  | dependencies | demote => exact .inr hop
  | sync | overwrite => exact hop.elim
  | replace => exact .inr hop
  | replaceBatch _ hplan => exact .inr (hop _ hplan)

/-- A row ends dead only by a status write. -/
theorem Change.dead {now : Nat} {b : Board} {t t' : Task} (hop : Sound b.tasks op)
    (h : Change k now b op t t') (hdead : t'.status.IsDead) :
    t.status.IsDead ∨ ∃ status reason, op = .setTaskStatus t.id status reason ∧ status.IsDead := by
  cases h with
  | @status _ status reason _ hid _ => exact .inr ⟨status, reason, hid ▸ rfl, hdead⟩
  | result | ballot | cancelRequeue | writeRow | hold | dependencies => exact .inl hdead
  | sync | overwrite => exact hop.elim
  | replaceBatch _ _ _ =>
      refine absurd hdead ?_
      unfold ClusterState.batchTask TaskPlan.toTask TaskStatus.IsDead
      dsimp only
      split <;> simp
  | _ => exact absurd hdead (by simp [TaskStatus.IsDead, Task.unassign, Task.unblockTo,
      Task.requeue, Task.promote, Task.assignTo, TaskPlan.toTask])

omit [Unicode] in
theorem Created.sound {now : Nat} {tasks : Table Task} {t : Task} (hop : Sound tasks op)
    (h : Created k now op t) :
    (∀ d ∈ t.dependsOn, ¬DoomedIn tasks d) ∧ ¬t.status.IsDead := by
  cases h with
  | pending => exact ⟨hop, by simp [TaskPlan.toTask, TaskStatus.IsDead]⟩
  | promoted => exact ⟨hop, by simp [Task.promote, TaskStatus.IsDead]⟩
  | batch _ hplan =>
      refine ⟨hop _ hplan, ?_⟩
      unfold ClusterState.batchTask TaskPlan.toTask TaskStatus.IsDead
      dsimp only
      split <;> simp
  | batchPending _ hplan => exact ⟨hop _ hplan, by simp [TaskPlan.toTask, TaskStatus.IsDead]⟩
  | batchPromoted _ hplan => exact ⟨hop _ hplan, by simp [Task.promote, TaskStatus.IsDead]⟩
  | synced => exact hop.elim

/-- The tasks a status write ends. -/
def EndedBy (op : StoreOp) (taskId : String) : Prop :=
  ∃ status reason, op = .setTaskStatus taskId status reason ∧ status.IsDead

theorem steady_of_contract (hC : Contract k op w r w') (hop : Sound w.state.tasks op)
    (h : NoDangling w.state.tasks) :
    Steady w.state.tasks w'.state.tasks (EndedBy op) := by
  have hid : ∀ t t', Rewrites k (w.clock 0) w.state op t t' → t'.id = t.id :=
    fun _ _ h => h.id_eq
  have hold := noDangling_iff.mp h
  have hedge : ∀ a b, DependsOn w'.state.tasks a b →
      DependsOn w.state.tasks a b ∨ ¬DoomedIn w.state.tasks b := by
    rintro a b ⟨t', ht', hb⟩
    rcases hC.tasks.of_get? hid ht' with ⟨t, ht, rfl | hchange⟩ | ⟨-, hcreated⟩
    · exact .inl ⟨t', ht, hb⟩
    · rcases hchange.dependsOn hop with hsame | hsound
      · exact .inl ⟨t, ht, hsame ▸ hb⟩
      · exact .inr (hsound b hb)
    · exact .inr ((hcreated.sound hop).1 b hb)
  have hpending : ∀ t' ∈ w'.state.tasks.rows, t'.status = .pending →
      (∃ t ∈ w.state.tasks.rows, t.id = t'.id ∧ t.status = .pending ∧
        t'.dependsOn = t.dependsOn) ∨ ∀ d ∈ t'.dependsOn, ¬DoomedIn w.state.tasks d := by
    intro t' ht' hstatus
    rcases hC.tasks.of_get? hid (Table.get?_of_mem ht') with
      ⟨t, ht, rfl | hchange⟩ | ⟨-, hcreated⟩
    · exact .inl ⟨t', Table.mem_of_get? ht, rfl, hstatus, rfl⟩
    · have hmem := Table.mem_of_get? ht
      rcases hchange.dependsOn hop with hsame | hsound
      · rcases hchange.pending hop hmem hstatus with hwas | hsound
        · exact .inl ⟨t, hmem, hchange.id_eq.symm, hwas, hsame⟩
        · exact .inr hsound
      · exact .inr hsound
    · exact .inr (hcreated.sound hop).1
  refine ⟨hedge, ?_, ?_, ?_⟩
  · rintro a ⟨t', ht', hdead⟩
    rcases hC.tasks.of_get? hid ht' with ⟨t, ht, rfl | hchange⟩ | ⟨-, hcreated⟩
    · exact .inl ⟨t', ht, hdead⟩
    · rcases hchange.dead hop hdead with hwas | ⟨status, reason, heq, hstatus⟩
      · exact .inl ⟨t, ht, hwas⟩
      · exact .inr ⟨status, reason, (Table.key_of_get? ht) ▸ heq, hstatus⟩
    · exact absurd hdead (hcreated.sound hop).2
  · intro t' ht' hstatus d hd
    rcases hpending t' ht' hstatus with ⟨t, ht, -, hwas, hsame⟩ | hsound
    · exact hold t ht hwas d (hsame ▸ hd)
    · exact hsound d hd
  · rintro a ⟨status, reason, rfl, hdead⟩ ⟨t', ht', hstatus, hpath⟩
    have hsame : ∀ a b, DependsOn w'.state.tasks a b → DependsOn w.state.tasks a b := by
      rintro a b ⟨u', hu', hb⟩
      rcases hC.tasks.of_get? hid hu' with ⟨u, hu, rfl | hchange⟩ | ⟨-, hcreated⟩
      · exact ⟨u', hu, hb⟩
      · cases hchange with
        | status => exact ⟨u, hu, hb⟩
      · cases hcreated
    obtain ⟨t, ht, hwas⟩ : ∃ t, w.state.tasks.get? t'.id = some t ∧ t.status = .pending := by
      rcases hC.tasks.of_get? hid (Table.get?_of_mem ht') with
        ⟨t, ht, rfl | hchange⟩ | ⟨-, hcreated⟩
      · exact ⟨t', ht, hstatus⟩
      · cases hchange with
        | status hid' _ =>
            refine ⟨t, ht, hop.2 hstatus t ?_⟩
            rw [← hid']
            exact Table.get?_key_of_get? ht
      · cases hcreated
    refine hop.1 hdead ⟨t, Table.mem_of_get? ht, hwas, ?_⟩
    rw [show t.id = t'.id from Table.key_of_get? ht]
    exact TransGen.mono hsame _ _ hpath

theorem noDangling_of_sound (hC : Contract k op w r w') (hop : Sound w.state.tasks op)
    (h : NoDangling w.state.tasks) : NoDangling w'.state.tasks :=
  (steady_of_contract hC hop h).noDangling

end Operations

/-! ## The traversal of the dependents -/

section Traversal

variable {query : RowQuery} {tasks tasks' : Table Task} {root : String}

theorem dependsOn_of_mem_dependentsOf {a b : String} (h : a ∈ dependentsOf query tasks b) :
    DependsOn tasks a b := by
  obtain ⟨t, ht, rfl⟩ := List.mem_map.mp h
  obtain ⟨hmem, hb⟩ := List.mem_filter.mp ht
  exact dependsOn_of_mem hmem (of_decide_eq_true (Bool.and_eq_true_iff.mp hb).2)

/-- Everything on the chain depends on the task it was asked for. -/
theorem transGen_of_mem_traverse (depth : Nat) {st : List String × List String}
    {taskId : String} (hroot : ReflTransGen (DependsOn tasks) taskId root)
    (hst : ∀ a ∈ st.2, TransGen (DependsOn tasks) a root) :
    ∀ a ∈ (traverseDependents query tasks depth st taskId).2,
      TransGen (DependsOn tasks) a root := by
  induction depth generalizing st taskId with
  | zero => exact hst
  | succ depth ih =>
      obtain ⟨visited, chain⟩ := st
      unfold traverseDependents
      split
      · exact hst
      · have hdeps : ∀ d ∈ dependentsOf query tasks taskId, TransGen (DependsOn tasks) d root :=
          fun d hd => .head' (dependsOn_of_mem_dependentsOf hd) hroot
        generalize dependentsOf query tasks taskId = deps at hdeps
        generalize taskId :: visited = seen
        induction deps generalizing seen chain with
        | nil => exact hst
        | cons d deps ihdeps =>
            rw [List.forall_mem_cons] at hdeps
            rw [List.foldl_cons]
            refine ihdeps _ (ih hdeps.1.to_reflTransGen (fun a ha => ?_)) hdeps.2 _
            rcases List.mem_append.mp ha with hold | hnew
            · exact hst a hold
            · rw [List.mem_singleton.mp hnew]
              exact hdeps.1

theorem transGen_of_mem_triggerChain {a : String} (h : a ∈ triggerChain query tasks root) :
    TransGen (DependsOn tasks) a root :=
  transGen_of_mem_traverse 10 .refl (fun _ hnil => by cases hnil) a h

/-- The rows differ in nothing the traversal looks at. -/
def SameEdges (tasks tasks' : Table Task) : Prop :=
  List.Forall₂ (fun t t' => t'.id = t.id ∧ t'.dependsOn = t.dependsOn) tasks.rows tasks'.rows

theorem SameEdges.dependentsOf_eq (h : SameEdges tasks tasks') (taskId : String) :
    dependentsOf query tasks' taskId = dependentsOf query tasks taskId := by
  unfold SameEdges at h
  unfold dependentsOf
  generalize tasks.rows = rows at h ⊢
  generalize tasks'.rows = rows' at h ⊢
  induction h with
  | nil => rfl
  | cons hrow _ ih =>
      rw [List.filter_cons, List.filter_cons, hrow.2]
      split
      · rw [List.map_cons, List.map_cons, ih, hrow.1]
      · exact ih

theorem SameEdges.triggerChain_eq (h : SameEdges tasks tasks') (taskId : String) :
    triggerChain query tasks' taskId = triggerChain query tasks taskId := by
  have htraverse : ∀ depth st taskId, traverseDependents query tasks' depth st taskId =
      traverseDependents query tasks depth st taskId := by
    intro depth
    induction depth with
    | zero => exact fun _ _ => rfl
    | succ depth ih =>
        rintro ⟨visited, chain⟩ taskId
        unfold traverseDependents
        rw [h.dependentsOf_eq]
        simp only [ih]
  rw [triggerChain, triggerChain, htraverse]

theorem SameEdges.dependsOn_iff (h : SameEdges tasks tasks') (a b : String) :
    DependsOn tasks' a b ↔ DependsOn tasks a b := by
  have hevolves : tasks.Evolves (fun t t' => t'.id = t.id ∧ t'.dependsOn = t.dependsOn)
      (fun _ => False) tasks' := Table.evolves_of_forall₂ h
  constructor
  · rintro ⟨t', ht', hb⟩
    rcases hevolves.of_get? (fun _ _ h => h.1) ht' with ⟨t, ht, hrow⟩ | ⟨-, hfalse⟩
    · exact ⟨t, ht, hrow.2 ▸ hb⟩
    · exact hfalse.elim
  · rintro ⟨t, ht, hb⟩
    obtain ⟨t', ht', hrow⟩ := hevolves.get?_of_get? (fun _ _ h => h.1) ht
    exact ⟨t', ht', hrow.2.symm ▸ hb⟩

end Traversal

/-! ## The cascade -/

section Cascade

variable {tasks tasks' tasks'' : Table Task} {ids ids' : List String} {root : String}

/-- Some tasks are ended; the other rows keep their status, and all of them
their dependencies. -/
structure Cascaded (ids : List String) (tasks tasks' : Table Task) : Prop where
  rows : List.Forall₂ (fun t t' => (t'.id = t.id ∧ t'.dependsOn = t.dependsOn) ∧
    (t'.status = t.status ∨ (t.id ∈ ids ∧ t'.status.IsTerminal))) tasks.rows tasks'.rows
  ended : ∀ taskId ∈ ids, ∀ t, tasks'.get? taskId = some t → t.status.IsTerminal

theorem Cascaded.sameEdges (h : Cascaded ids tasks tasks') : SameEdges tasks tasks' :=
  h.rows.imp (fun _ _ hrow => hrow.1)

theorem Cascaded.row (h : Cascaded ids tasks tasks') {taskId : String} {t' : Task}
    (ht' : tasks'.get? taskId = some t') :
    ∃ t, tasks.get? taskId = some t ∧
      (t'.status = t.status ∨ (taskId ∈ ids ∧ t'.status.IsTerminal)) := by
  have hevolves := Table.evolves_of_forall₂ (N := fun _ => False) h.rows
  rcases hevolves.of_get? (fun _ _ h => h.1.1) ht' with ⟨t, ht, -, hstatus⟩ | ⟨-, hfalse⟩
  · rw [show t.id = taskId from Table.key_of_get? ht] at hstatus
    exact ⟨t, ht, hstatus⟩
  · exact hfalse.elim

theorem Cascaded.trans (h : Cascaded ids tasks tasks') (h' : Cascaded ids' tasks' tasks'') :
    Cascaded (ids ++ ids') tasks tasks'' where
  rows := by
    refine (Table.forall₂_comp h.rows h'.rows).imp ?_
    rintro t t'' ⟨t', ⟨⟨hid, hdeps⟩, hstatus⟩, ⟨hid', hdeps'⟩, hstatus'⟩
    refine ⟨⟨hid'.trans hid, hdeps'.trans hdeps⟩, ?_⟩
    rcases hstatus' with hsame | ⟨hmem, hended⟩
    · rcases hstatus with hsame₀ | ⟨hmem, hended⟩
      · exact .inl (hsame.trans hsame₀)
      · exact .inr ⟨List.mem_append_left _ hmem, hsame ▸ hended⟩
    · exact .inr ⟨List.mem_append_right _ (hid ▸ hmem), hended⟩
  ended := by
    intro taskId hmem t'' ht''
    obtain ⟨t', ht', hstatus⟩ := h'.row ht''
    rcases hstatus with hsame | ⟨-, hended⟩
    · rcases List.mem_append.mp hmem with hleft | hright
      · exact hsame ▸ h.ended taskId hleft t' ht'
      · exact h'.ended taskId hright t'' ht''
    · exact hended

/-- Ending some tasks leaves nothing dangling if each pending task that awaits
one of them is ended as well. -/
theorem Cascaded.noDangling (h : Cascaded ids tasks tasks')
    (hclosed : ∀ a ∈ ids, ∀ t ∈ tasks.rows, t.status = .pending →
      TransGen (DependsOn tasks) t.id a → t.id ∈ ids) (hold : NoDangling tasks) :
    NoDangling tasks' := by
  have hpending : ∀ t' ∈ tasks'.rows, t'.status = .pending →
      t'.id ∉ ids ∧ ∃ t ∈ tasks.rows, t.id = t'.id ∧ t.status = .pending := by
    intro t' ht' hstatus
    have hget := Table.get?_of_mem ht'
    have hnot : t'.id ∉ ids := fun hmem =>
      TaskStatus.not_isTerminal_of_pending hstatus (h.ended _ hmem t' hget)
    obtain ⟨t, ht, hsame | ⟨hmem, -⟩⟩ := h.row hget
    · exact ⟨hnot, t, Table.mem_of_get? ht, Table.key_of_get? ht, hsame ▸ hstatus⟩
    · exact absurd hmem hnot
  have hsteady : Steady tasks tasks' (· ∈ ids) := ?_
  · exact hsteady.noDangling
  refine ⟨?_, ?_, ?_, ?_⟩
  · exact fun a b hedge => .inl ((h.sameEdges.dependsOn_iff a b).mp hedge)
  · rintro a ⟨t', ht', hdead⟩
    obtain ⟨t, ht, hsame | ⟨hmem, -⟩⟩ := h.row ht'
    · exact .inl ⟨t, ht, hsame ▸ hdead⟩
    · exact .inr hmem
  · intro t' ht' hstatus d hd
    obtain ⟨-, t, ht, hid, hwas⟩ := hpending t' ht' hstatus
    have hedge := (h.sameEdges.dependsOn_iff _ _).mp (dependsOn_of_mem ht' hd)
    rw [← hid] at hedge
    exact noDangling_iff.mp hold t ht hwas d (mem_dependsOn ht hedge)
  · rintro a hmem ⟨t', ht', hstatus, hpath⟩
    obtain ⟨hnot, t, ht, hid, hwas⟩ := hpending t' ht' hstatus
    have hpath' : TransGen (DependsOn tasks) t.id a := by
      rw [hid]
      exact TransGen.mono (fun a b => (h.sameEdges.dependsOn_iff a b).mp) _ _ hpath
    exact hnot (hid ▸ hclosed a hmem t ht hwas hpath')

/-- Every pending task below the root is among those traversed. -/
def Covered (query : RowQuery) (tasks : Table Task) (root : String) : Prop :=
  ∀ t ∈ tasks.rows, t.status = .pending → TransGen (DependsOn tasks) t.id root →
    t.id ∈ triggerChain query tasks root

/-- A task and the chain of its dependents end together. -/
theorem Cascaded.noDangling_of_covered
    (h : Cascaded (root :: triggerChain query tasks root) tasks tasks')
    (hcovered : Covered query tasks root) (hold : NoDangling tasks) : NoDangling tasks' := by
  refine h.noDangling (fun a hmem t ht hpending hpath => ?_) hold
  have hroot : TransGen (DependsOn tasks) t.id root := by
    rcases List.mem_cons.mp hmem with rfl | hbelow
    · exact hpath
    · exact hpath.trans (transGen_of_mem_triggerChain hbelow)
  exact List.mem_cons_of_mem _ (hcovered t ht hpending hroot)

theorem Calm.cascaded {b b' : Board} (h : Calm b b') : Cascaded [] b.tasks b'.tasks where
  rows := h.imp (fun _ _ hrow => ⟨⟨hrow.quiet.gate.id, hrow.quiet.dependsOn⟩, .inl hrow.status⟩)
  ended := List.forall_mem_nil _

theorem Calm.noDangling {b b' : Board} (h : Calm b b') (hold : NoDangling b.tasks) :
    NoDangling b'.tasks :=
  h.cascaded.noDangling (List.forall_mem_nil _) hold

end Cascade

end HermesCluster
