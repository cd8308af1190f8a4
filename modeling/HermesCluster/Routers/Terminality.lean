import HermesCluster.Routers.Runs
import HermesCluster.State.Terminality
/-!
# Ended tasks stay ended, through the API of the SQL stores

`ClusterStore.set_task_status` updates the row whatever its status, so the end
of a task is guarded by the handlers. They all look at the status before they
write, but for `release_task`, which relies on the store to refuse: a release
of an ended task by the node it is still assigned to revives it.
-/

namespace HermesCluster

open Program hiding pure bind

section Runs

variable [Unicode]

/-- No release, by its assignee, of a task that has ended. -/
def ReleasesOpen (c : Call) (w : Timed Board) : Prop :=
  match c with
  | .release taskId req => ∀ t, w.state.tasks.get? taskId = some t →
      t.assignedTo = some req.nodeId → ¬t.status.IsTerminal
  | _ => True

omit [Unicode] in
theorem ReleasesOpen.of_release {c : Call} {w : Timed Board} (h : ReleasesOpen c w)
    {taskId : String} {req : ReleaseTaskRequest} {t : Task} (hc : c = .release taskId req)
    (hget : w.state.tasks.get? taskId = some t) (hown : t.assignedTo = some req.nodeId) :
    ¬t.status.IsTerminal := by
  subst hc
  exact h t hget hown

/-- Every other write of a call looks at the status first. -/
theorem Issued.not_writesOverEnded {c : Call} {w₀ : Timed Board} {b : Board} {op : StoreOp}
    {d : SqlDialect} {taskId : String} {t : Task} (h : Issued c w₀ b op)
    (hcond : ∀ req t₀, c = .release t.id req → w₀.state.tasks.get? t.id = some t₀ →
      t₀.assignedTo = some req.nodeId → ¬t₀.status.IsTerminal)
    (ht : b.tasks.get? taskId = some t) : ¬WritesOverEnded (.sql d) op t := by
  have hrow : ∀ {writtenId : String} {u : Task}, b.tasks.get? writtenId = some u →
      t.id = writtenId → u = t := by
    intro writtenId u hu hid
    exact Table.eq_of_mem_of_key_eq (Table.mem_of_get? hu) (Table.mem_of_get? ht)
      ((Table.key_of_get? hu).trans hid.symm)
  intro hover
  cases h with
  | idle hidle => cases op <;> first | exact hidle.elim | exact hover.elim
  | submit => exact absurd hover.1 (by simp)
  | batch => exact absurd hover.1 (by simp)
  | close _ _ hget hguard =>
      obtain ⟨-, hid, hrefuses⟩ := hover
      cases hrow hget hid
      exact hguard hrefuses
  | promote hget hpending =>
      obtain ⟨-, hid, hrefuses⟩ := hover
      cases hrow hget hid
      exact TaskStatus.not_isTerminal_of_pending hpending hrefuses.1
  | claim hget hready =>
      obtain ⟨-, hid, hrefuses⟩ := hover
      cases hrow hget hid
      exact TaskStatus.not_isTerminal_of_ready hready hrefuses.1
  | advance _ hget hopen =>
      obtain ⟨-, hid, hrefuses⟩ := hover
      cases hrow hget hid
      exact hopen hrefuses.1
  | @release _ _ t₀ hc hcalm hget hown =>
      obtain ⟨-, rfl, hrefuses⟩ := hover
      have hsame := hcalm.row (Table.mem_of_get? ht) hget
      rw [hsame.status] at hrefuses
      exact hcond _ t₀ hc hget hown hrefuses.1
  | retry | resume | dependencies | unassign => exact hover

/-- Through any run of calls in which every release by an assignee is of an open
task, an ended task stays as it ended, and a requested cancellation can only
become a cancellation. -/
theorem ended_forever_of_calls (d : SqlDialect) (cs : List TimedCall)
    (w : Timed (Backend.sql d).Store)
    (hcond : (Backend.sql d).CallsMeet ((Backend.sql d).Meets ReleasesOpen) cs w) :
    (Backend.sql d).AlongCalls
        (fun w _ w' => EndedKept ((Backend.sql d).board w.state) ((Backend.sql d).board w'.state))
        cs w ∧
      EndedKept ((Backend.sql d).board w.state)
        ((Backend.sql d).board ((Backend.sql d).runCalls cs w).state) := by
  have hkeep : ∀ (w' : Timed (Backend.sql d).Store) op,
      EndedKept ((Backend.sql d).board w.state) ((Backend.sql d).board w'.state) →
      (∀ taskId t, ((Backend.sql d).board w'.state).tasks.get? taskId = some t →
        ¬WritesOverEnded (.sql d) op t) →
      EndedKept ((Backend.sql d).board w'.state)
          ((Backend.sql d).board ((Backend.sql d).tick op w').2.state) ∧
        EndedKept ((Backend.sql d).board w.state)
          ((Backend.sql d).board ((Backend.sql d).tick op w').2.state) := by
    intro w' op hkept hop
    have hstep := Backend.endedKept_step (.sql d) (w'.clock 0) op w'.state hop
    exact ⟨hstep, hkept.trans hstep⟩
  refine Backend.runs_keep (I := fun w' => EndedKept ((Backend.sql d).board w.state)
    ((Backend.sql d).board w'.state)) ?_ ?_ (fun _ _ hkept => hkept) (EndedKept.refl _) hcond
  · intro w' op hidle hkept
    refine hkeep w' op hkept (fun _ t _ hover => ?_)
    cases op <;> first | exact hidle.elim | exact hover.elim
  · intro c w₀ w' op hreleases _ hkept hissued
    exact hkeep w' op hkept (fun _ _ ht =>
      hissued.not_writesOverEnded (fun _ _ hc => hreleases.of_release hc) ht)

end Runs

section Example

local instance asciiEnds : Unicode := Unicode.ascii

/-- A store with one online node. -/
def oneNodeStore : ClusterStore where
  nodes := .single { id := "n" }

/-- Two tasks are batched and started, one is completed, the other released. -/
def startedAndEnded : List TimedCall :=
  [⟨.createBatch [{ taskId := "a", title := "a" }, { taskId := "b", title := "b" }], fun _ => 1⟩,
   ⟨.schedulePass, fun _ => 2⟩, ⟨.complete "a" none, fun _ => 3⟩,
   ⟨.release "b" { nodeId := "n" }, fun _ => 4⟩]

/-- The state of a run that begins on `oneNodeStore`. -/
def ranFrom (cs : List TimedCall) : ClusterStore :=
  ((Backend.sql .sqlite).runCalls cs ⟨oneNodeStore, fun _ => 0⟩).state

theorem ended_forever_of_calls_started :
    EndedKept oneNodeStore.toBoard (ranFrom startedAndEnded).toBoard := by
  refine (ended_forever_of_calls .sqlite startedAndEnded ⟨oneNodeStore, fun _ => 0⟩
    ⟨trivial, trivial, trivial, ?_, trivial⟩).2
  intro t ht _
  have hrunning : (ranFrom (startedAndEnded.take 3)).tasks.get? "b" = some
      { id := "b", title := "b", status := .running, assignedTo := some "n",
        createdAt := 1, updatedAt := 2, version := 2 } := by decide
  cases Option.some.inj (hrunning.symm.trans ht)
  decide

/-- The completed task is released by the node it is still assigned to, and is
ready again. -/
theorem completed_task_released :
    ¬EndedKept (ranFrom startedAndEnded).toBoard
      (ranFrom (startedAndEnded ++ [⟨.release "a" { nodeId := "n" }, fun _ => 5⟩])).toBoard := by
  intro hkept
  have hbefore : (ranFrom startedAndEnded).tasks.get? "a" = some
      { id := "a", title := "a", status := .completed, assignedTo := some "n",
        createdAt := 1, updatedAt := 3, version := 3 } := by decide
  have hafter : (ranFrom (startedAndEnded ++
      [⟨.release "a" { nodeId := "n" }, fun _ => 5⟩])).tasks.get? "a" = some
      { id := "a", title := "a", status := .ready, assignedTo := some "n",
        createdAt := 1, updatedAt := 5, version := 4 } := by decide
  obtain ⟨t', ht', hstays⟩ := hkept "a" _ hbefore
  cases Option.some.inj (hafter.symm.trans ht')
  rcases hstays (.inl rfl) with heq | ⟨heq, -⟩ <;> cases heq

end Example

end HermesCluster
