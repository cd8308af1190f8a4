import HermesCluster.Routers.Cascade
/-!
# The failure walk of the workflow resolver

`on_dependency_failed` runs once over the tasks and blocks those that are pending and
name the failed task among their dependencies. What depends on one of these in turn
is not looked at, and neither is a task that is ready or assigned.
-/

namespace HermesCluster

open Program hiding pure bind
open Relation

namespace WorkflowResolver

/-- What `on_dependency_failed` asks of a task. -/
def WaitsFor (failedTaskId : String) (t : Task) : Prop :=
  t.status = .pending ∧ failedTaskId ∈ t.dependsOn

instance (failedTaskId : String) : DecidablePred (WaitsFor failedTaskId) := fun t =>
  inferInstanceAs (Decidable (t.status = .pending ∧ failedTaskId ∈ t.dependsOn))

/-- The fail reason of a blocked dependent. -/
def blockReason (failedTaskId : String) : String :=
  s!"dependency {failedTaskId} failed"

/-- The body of the loop of `on_dependency_failed`. -/
def blockDependent (failedTaskId : String) (blocked : List String) (task : Task) :
    Api (List String) :=
  if task.status ≠ .pending then pure blocked
  else if failedTaskId ∈ task.dependsOn then do
    let _ ← store (.setTaskStatus task.id .blocked (blockReason failedTaskId))
    pure (blocked ++ [task.id])
  else pure blocked

/-- `on_dependency_failed`. -/
def onDependencyFailed (failedTaskId : String) : Api (List String) := do
  let allTasks ← store .getAllTasks
  allTasks.foldlM (blockDependent failedTaskId) []

/-- The tasks a failure is to block: those downstream that have not ended and do not
run. -/
def Doomed (tasks : Table Task) (failedTaskId : String) (t : Task) : Prop :=
  TransGen (DependsOn tasks) t.id failedTaskId ∧ ¬t.status.IsTerminal ∧ t.status ≠ .running

/-- Each task that is to be blocked is, and every other row is as it was. -/
def BlocksBelow (failedTaskId : String) (tasks tasks' : Table Task) : Prop :=
  List.Forall₂ (fun t t' =>
    t'.id = t.id ∧
      (Doomed tasks failedTaskId t → t'.status = .blocked) ∧
      (¬Doomed tasks failedTaskId t → t' = t)) tasks.rows tasks'.rows

/-- What the loop does to a row, once it has come to the tasks of `p`. -/
inductive Halted (failedTaskId : String) (p : String → Prop) (t : Task) : Task → Prop
  | blocked {now : Nat} (hmem : p t.id) (hwaits : WaitsFor failedTaskId t) :
      Halted failedTaskId p t (t.withStatus now .blocked (blockReason failedTaskId))
  | kept (h : p t.id → ¬WaitsFor failedTaskId t) : Halted failedTaskId p t t

section Rows

variable {failedTaskId : String} {p q : String → Prop} {t t' t'' : Task}

theorem Halted.id_eq (h : Halted failedTaskId p t t') : t'.id = t.id := by
  cases h <;> rfl

theorem Halted.trans (h : Halted failedTaskId p t t') (h' : Halted failedTaskId q t' t'') :
    Halted failedTaskId (fun id => p id ∨ q id) t t'' := by
  cases h with
  | blocked hmem hwaits =>
      cases h' with
      | blocked _ hwaits' =>
          have hblocked : TaskStatus.blocked = .pending := hwaits'.1
          cases hblocked
      | kept _ => exact .blocked (.inl hmem) hwaits
  | kept hnot =>
      cases h' with
      | blocked hmem hwaits => exact .blocked (.inr hmem) hwaits
      | kept hnot' => exact .kept (fun hmem => hmem.elim hnot hnot')

end Rows

section Walk

variable [Unicode] {k : Backend} {failedTaskId : String}

theorem blockDependent_spec (task : Task) (blocked : List String) (w : Timed Board)
    (hstored : w.state.tasks.get? task.id = some task) :
    Yields k (blockDependent failedTaskId blocked task) w (fun r w' =>
      (∃ blocked', r = .ok blocked') ∧
        List.Forall₂ (Halted failedTaskId (· = task.id))
          w.state.tasks.rows w'.state.tasks.rows) := by
  have hrow : ∀ t ∈ w.state.tasks.rows, t.id = task.id → t = task := by
    intro t ht hid
    rw [← hid] at hstored
    exact Option.some.inj ((Table.get?_of_mem ht).symm.trans hstored)
  have hkept : ¬WaitsFor failedTaskId task →
      List.Forall₂ (Halted failedTaskId (· = task.id))
        w.state.tasks.rows w.state.tasks.rows := by
    intro hnot
    rw [List.forall₂_same]
    exact fun t ht => .kept (fun hid => hrow t ht hid ▸ hnot)
  unfold blockDependent
  by_cases hpending : task.status = .pending
  · rw [if_neg (not_not.mpr hpending)]
    by_cases hdirect : failedTaskId ∈ task.dependsOn
    · rw [if_pos hdirect]
      refine yields_store (fun r w' hC => ⟨⟨_, rfl⟩, ?_⟩)
      have hopen : ¬task.status.IsTerminal := TaskStatus.not_isTerminal_of_pending hpending
      have hrows := forall₂_of_status hstored (not_refuses_of_open hopen) hC
      refine Table.forall₂_imp_of_mem hrows ?_
      rintro t ht t' rfl
      by_cases hid : t.id = task.id
      · rw [if_pos hid]
        exact .blocked hid (hrow t ht hid ▸ ⟨hpending, hdirect⟩)
      · rw [if_neg hid]
        exact .kept (fun h => absurd h hid)
    · rw [if_neg hdirect]
      exact ⟨⟨_, rfl⟩, hkept (fun hwaits => hdirect hwaits.2)⟩
  · rw [if_pos hpending]
    exact ⟨⟨_, rfl⟩, hkept (fun hwaits => hpending hwaits.1)⟩

/-- The loop, over tasks whose rows are still as they were read. -/
theorem blockDependents_spec (ts : List Task) (blocked : List String) (w : Timed Board)
    (hstored : ∀ t ∈ ts, w.state.tasks.get? t.id = some t) (hnodup : (ts.map Task.id).Nodup) :
    Yields k (ts.foldlM (blockDependent failedTaskId) blocked) w (fun r w' =>
      (∃ blocked', r = .ok blocked') ∧
        List.Forall₂ (Halted failedTaskId (· ∈ ts.map Task.id))
          w.state.tasks.rows w'.state.tasks.rows) := by
  induction ts generalizing blocked w with
  | nil =>
      refine ⟨⟨_, rfl⟩, List.forall₂_same.mpr (fun t _ => .kept (fun hmem => ?_))⟩
      cases hmem
  | cons task ts ih =>
      rw [List.map_cons, List.nodup_cons] at hnodup
      rw [List.foldlM_cons]
      refine Wp.seq (I := fun _ w' => List.Forall₂ (Halted failedTaskId (· = task.id))
          w.state.tasks.rows w'.state.tasks.rows)
        ((blockDependent_spec task blocked w (hstored task List.mem_cons_self)).mono
          (fun r w' h => h.1.imp (fun _ hr => ⟨hr, h.2⟩))) (fun blocked' w' h => ?_)
      have hstored' : ∀ t ∈ ts, w'.state.tasks.get? t.id = some t := by
        intro t ht
        have hevolves := Table.evolves_of_forall₂ (N := fun _ => False) h
        obtain ⟨t', ht', hrow⟩ := hevolves.get?_of_get? (fun _ _ hrow => hrow.id_eq)
          (hstored t (List.mem_cons_of_mem _ ht))
        cases hrow with
        | blocked hid _ => exact absurd (hid ▸ List.mem_map_of_mem ht) hnodup.1
        | kept _ => exact ht'
      refine (ih blocked' w' hstored' hnodup.2).mono (fun r w'' h' => ⟨h'.1, ?_⟩)
      refine (Table.forall₂_comp h h'.2).imp ?_
      rintro t t'' ⟨t', hrow, hrow'⟩
      simp only [List.map_cons, List.mem_cons]
      exact hrow.trans hrow'

theorem onDependencyFailed_spec (k : Backend) (failedTaskId : String) (w : Timed Board) :
    Yields k (onDependencyFailed failedTaskId) w (fun r w' =>
      (∃ blocked, r = .ok blocked) ∧
        List.Forall₂ (Halted failedTaskId (fun _ => True))
          w.state.tasks.rows w'.state.tasks.rows) := by
  unfold onDependencyFailed
  refine yields_store (fun allTasks w₁ hC => ?_)
  obtain ⟨rfl, hsame⟩ := hC.reply
  have hstored : ∀ t ∈ w.state.tasks.rows, w₁.state.tasks.get? t.id = some t := by
    intro t ht
    rw [hsame]
    exact Table.get?_of_mem ht
  refine (blockDependents_spec w.state.tasks.rows [] w₁ hstored w.state.tasks.nodup).mono
    (fun r w' h => ⟨h.1, ?_⟩)
  have hrows := h.2
  rw [hsame] at hrows
  refine Table.forall₂_imp_of_mem hrows (fun t ht t' hrow => ?_)
  cases hrow with
  | blocked _ hwaits => exact .blocked trivial hwaits
  | kept hnot => exact .kept (fun _ => hnot (List.mem_map_of_mem ht))

end Walk

section Reach

variable {failedTaskId : String} {tasks tasks' : Table Task} {t : Task}

theorem doomed_of_waitsFor (ht : t ∈ tasks.rows) (h : WaitsFor failedTaskId t) :
    Doomed tasks failedTaskId t := by
  refine ⟨.single ⟨t, Table.get?_of_mem ht, h.2⟩, ?_, ?_⟩
  · exact TaskStatus.not_isTerminal_of_pending h.1
  · rw [h.1]
    decide

/-- The walk blocks what it should exactly when nothing else is to be blocked than
the tasks it asks for and those that are blocked already. -/
theorem blocksBelow_iff
    (h : List.Forall₂ (Halted failedTaskId (fun _ => True)) tasks.rows tasks'.rows) :
    BlocksBelow failedTaskId tasks tasks' ↔
      ∀ t ∈ tasks.rows, Doomed tasks failedTaskId t →
        t.status = .blocked ∨ WaitsFor failedTaskId t := by
  constructor
  · intro hblocks t ht hdoomed
    have hboth := Table.evolves_of_forall₂ (N := fun _ => False) hblocks
    have hwalk := Table.evolves_of_forall₂ (N := fun _ => False) h
    obtain ⟨t', ht', -, hblocked, -⟩ :=
      hboth.get?_of_get? (fun _ _ hrow => hrow.1) (Table.get?_of_mem ht)
    obtain ⟨u, hu, hrow⟩ :=
      hwalk.get?_of_get? (fun _ _ hrow => hrow.id_eq) (Table.get?_of_mem ht)
    obtain rfl := Option.some.inj (hu.symm.trans ht')
    cases hrow with
    | blocked _ hwaits => exact .inr hwaits
    | kept _ => exact .inl (hblocked hdoomed)
  · intro hcovered
    refine Table.forall₂_imp_of_mem h (fun t ht t' hrow => ?_)
    refine ⟨hrow.id_eq, fun hdoomed => ?_, fun hspared => ?_⟩
    · cases hrow with
      | blocked _ _ => rfl
      | kept hnot => exact (hcovered t ht hdoomed).resolve_right (hnot trivial)
    · cases hrow with
      | blocked _ hwaits => exact absurd (doomed_of_waitsFor ht hwaits) hspared
      | kept _ => rfl

end Reach

end WorkflowResolver

/-- A failure blocks all that is downstream, and nothing else, exactly when every task
to block is blocked already or waits for the failed one directly. -/
theorem dependency_failure_blocks_iff [Unicode] (k : Backend) (failedTaskId : String)
    (w : Timed k.Store) :
    let out := (WorkflowResolver.onDependencyFailed failedTaskId).run k.tick w
    WorkflowResolver.BlocksBelow failedTaskId (k.board w.state).tasks
        (k.board out.2.state).tasks ↔
      ∀ t ∈ (k.board w.state).tasks.rows,
        WorkflowResolver.Doomed (k.board w.state).tasks failedTaskId t →
          t.status = .blocked ∨ WorkflowResolver.WaitsFor failedTaskId t := by
  obtain ⟨-, -, hrows⟩ := along_of_wp k.implements
    (WorkflowResolver.onDependencyFailed_spec k failedTaskId (k.view w))
  exact WorkflowResolver.blocksBelow_iff hrows

section LongerChains

local instance asciiFailures : Unicode := Unicode.ascii

/-- Three tasks in a chain, the first of which has just failed. -/
def failedChain : Timed ClusterState where
  state := (ClusterState.step 0 (.setTaskStatus "a" .failed "broken")
    (ClusterState.step 0 (.createTasksBatch
      [{ taskId := "a", title := "a" },
        { taskId := "b", title := "b", dependsOn := ["a"] },
        { taskId := "c", title := "c", dependsOn := ["b"] }]) ClusterState.empty).2).2
  clock := fun _ => 0

/-- The third task goes on waiting for the second, which will never complete. -/
theorem third_is_left_waiting :
    ¬WorkflowResolver.BlocksBelow "a" failedChain.state.tasks
      ((WorkflowResolver.onDependencyFailed "a").run (Backend.tick .memory)
        failedChain).2.state.tasks := by
  intro h
  have hb : DependsOn failedChain.state.tasks "b" "a" := ⟨_, rfl, by decide +kernel⟩
  have hc : DependsOn failedChain.state.tasks "c" "b" := ⟨_, rfl, by decide +kernel⟩
  have hstored : (failedChain.state.tasks.get? "c").map Task.status = some .pending := by
    decide +kernel
  have hleft : (((WorkflowResolver.onDependencyFailed "a").run (Backend.tick .memory)
      failedChain).2.state.tasks.get? "c").map Task.status = some .pending := by
    decide +kernel
  obtain ⟨t, ht, hpending⟩ := Option.map_eq_some_iff.mp hstored
  have hdoomed : WorkflowResolver.Doomed failedChain.state.tasks "a" t := by
    refine ⟨?_, TaskStatus.not_isTerminal_of_pending hpending, ?_⟩
    · rw [show t.id = "c" from Table.key_of_get? ht]
      exact .head hc (.single hb)
    · rw [hpending]
      decide
  have hevolves := Table.evolves_of_forall₂ (N := fun _ => False) h
  obtain ⟨t', ht', -, hblocked, -⟩ := hevolves.get?_of_get? (fun _ _ hrow => hrow.1) ht
  rw [ht'] at hleft
  have hstatus : t'.status = .pending := Option.some.inj hleft
  rw [hblocked hdoomed] at hstatus
  cases hstatus

end LongerChains

end HermesCluster
