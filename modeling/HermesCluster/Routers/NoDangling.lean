import HermesCluster.Routers.Cascade
import HermesCluster.Routers.Footprint
/-!
# No dangling dependents, over runs of calls

The other calls end no task without a success. They leave a pending task below
a failed or cancelled one only by pointing it at one.
-/

namespace HermesCluster

open Program hiding pure bind
open Relation

/-! ## Calls that end nothing -/

/-- Operations that neither end a task without a success nor make one wait
again. -/
def Plain : StoreOp → Prop
  | .setTaskStatus _ status _ => ¬status.IsDead ∧ status ≠ .pending
  | .unblockTask _ | .handleSyncMessage _ => False
  | _ => True

theorem plain_of_writes {op : StoreOp}
    (h : Writes (fun s => ¬s.IsDead ∧ s ≠ .pending) op) : Plain op := by
  cases op with
  | unblockTask => exact absurd rfl h.2
  | _ => exact h

/-! ## Recoveries -/

/-- No task is failed while a pending task waits for it. -/
def FailsUnawaited (tasks : Table Task) (op : StoreOp) : Prop :=
  ∀ taskId reason, op = .setTaskStatus taskId .failed reason → ¬Awaited tasks taskId

theorem sound_of_recovering {tasks : Table Task} {op : StoreOp} (h : Recovering op)
    (hfails : FailsUnawaited tasks op) : Sound tasks op := by
  cases op with
  | setTaskStatus taskId status reason =>
      obtain rfl : status = .failed := h
      exact ⟨fun _ => hfails taskId reason rfl, fun hpending => by cases hpending⟩
  | createTask | createTasksBatch | setDependencies | unblockTask | handleSyncMessage =>
      exact h.elim
  | _ => trivial

/-! ## Runs of calls -/

section Runs

variable [Unicode]

/-- A call names no doomed task as a dependency, and a task that it ends is
awaited by nothing that its cascade misses. A recovery does not cascade. -/
def Call.Spares (query : RowQuery) (c : Call) (b : Board) : Prop :=
  match c with
  | .submit taskId req =>
      ∀ d ∈ (Tasks.submitPlan taskId req).dependsOn, ¬DoomedIn b.tasks d
  | .createBatch plans => ∀ plan ∈ plans, ∀ d ∈ plan.dependsOn, ¬DoomedIn b.tasks d
  | .setDependencies _ req => ∀ d ∈ req.dependsOn, ¬DoomedIn b.tasks d
  | .unblock taskId => ∀ t, b.tasks.get? taskId = some t → t.status = .blocked →
      ∀ d ∈ t.dependsOn, ¬DoomedIn b.tasks d
  | .complete taskId req => CompletesSound query taskId req b
  | .fail taskId req => FailsSound query taskId req b
  | .cancel taskId _ => CancelsSound query taskId b
  | _ => True

/-- The same on a store; of a recovery it is asked on the board before each of its
operations, since what it places decides which tasks it fails. -/
def Backend.Spares (k : Backend) (c : Call) (w : Timed k.Store) : Prop :=
  match c with
  | .recover nodeId => (Call.recover nodeId).prog.Along k.tick
      (fun w op _ => FailsUnawaited (k.board w.state).tasks op) w
  | .sweep order => (Call.sweep order).prog.Along k.tick
      (fun w op _ => FailsUnawaited (k.board w.state).tasks op) w
  | c => c.Spares k.dependentRows (k.board w.state)

theorem Issued.sound {c : Call} {w₀ : Timed Board} {b : Board} {op : StoreOp}
    {query : RowQuery} (h : Issued c w₀ b op) (hplain : Plain op)
    (hcond : c.Spares query w₀.state) :
    Sound b.tasks op := by
  have hwrite : ∀ taskId status reason, Plain (.setTaskStatus taskId status reason) →
      Sound b.tasks (.setTaskStatus taskId status reason) :=
    fun _ _ _ h => ⟨fun hdead => absurd hdead h.1, fun hpending => absurd hpending h.2⟩
  cases h with
  | idle hidle => cases op <;> first | exact hidle.elim | exact hplain.elim | trivial
  | submit hc hb | batch hc hb | dependencies hc hb =>
      subst hc hb
      exact hcond
  | close | promote | claim | advance | release => exact hwrite _ _ _ hplain
  | retry | resume | unassign => trivial

variable {k : Backend} {w : Timed k.Store}

theorem noDangling_tick {op : StoreOp} (hop : Sound (k.board w.state).tasks op)
    (h : NoDangling (k.board w.state).tasks) :
    NoDangling (k.board (k.tick op w).2.state).tasks :=
  noDangling_of_sound (k.implements op w) hop h

theorem noDangling_of_plain {c : Call} (hc : ∀ order, c ≠ .sweep order)
    (hplain : c.prog.Only Plain) (hcond : c.Spares k.dependentRows (k.board w.state))
    (h : NoDangling (k.board w.state).tasks) :
    NoDangling (k.board (c.prog.run k.tick w).2.state).tasks := by
  have hissued := (along_of_wp k.implements (c.meetsAny k (k.view w) hc)).1
  have honly : c.prog.Along k.tick (fun _ op _ => Plain op) w := along_of_only hplain
  refine (keeps_of_along (P := fun _ _ _ => True)
    (I := fun w : Timed k.Store => NoDangling (k.board w.state).tasks)
    (A := fun w' op => Issued c (k.view w) (k.board w'.state) op ∧ Plain op)
    (along_and hissued honly) h (fun w' op h' hop => ⟨trivial, ?_⟩)).2
  exact noDangling_tick (hop.1.sound hop.2 hcond) h'

theorem noDangling_of_recovering {α : Type} {p : Api α} (hp : p.Only Recovering)
    (hcond : p.Along k.tick (fun w op _ => FailsUnawaited (k.board w.state).tasks op) w)
    (h : NoDangling (k.board w.state).tasks) :
    NoDangling (k.board (p.run k.tick w).2.state).tasks := by
  have honly : p.Along k.tick (fun _ op _ => Recovering op) w := along_of_only hp
  refine (keeps_of_along (P := fun _ _ _ => True)
    (I := fun w : Timed k.Store => NoDangling (k.board w.state).tasks)
    (A := fun w' op => Recovering op ∧ FailsUnawaited (k.board w'.state).tasks op)
    (along_and honly hcond) h (fun w' op h' hop => ⟨trivial, ?_⟩)).2
  exact noDangling_tick (sound_of_recovering hop.1 hop.2) h'

theorem noDangling_of_yields {α : Type} {p : Api α} (hp : YieldsSound k p (k.view w)) :
    NoDangling (k.board ((p >>= fun _ => pure ()).run k.tick w).2.state).tasks := by
  have hbind : YieldsSound k (p >>= fun _ => pure ()) (k.view w) := by
    refine wp_bind.mpr (hp.mono (fun r w' h => ?_))
    cases r <;> exact h
  exact (along_of_wp k.implements hbind).2

theorem noDangling_call (c : Call) (h : NoDangling (k.board w.state).tasks)
    (hcond : k.Spares c w) : NoDangling (k.board (c.prog.run k.tick w).2.state).tasks := by
  have hdone : ∀ {α : Type} {p : Api α}, p.Only (Writes (fun s => ¬s.IsDead ∧ s ≠ .pending)) →
      (p >>= fun _ => pure ()).Only Plain :=
    fun hp => Only.mono (only_bind hp (fun _ => only_pure ())) (fun _ => plain_of_writes)
  cases c with
  | submit taskId req =>
      exact noDangling_of_plain (fun _ => by simp)
        (hdone (only_submitTask permits_writes.allows taskId req trivial)) hcond h
  | createBatch plans =>
      exact noDangling_of_plain (fun _ => by simp) (only_store trivial (fun _ => trivial)) hcond h
  | claim taskId req =>
      exact noDangling_of_plain (fun _ => by simp)
        (hdone (only_claimTask permits_writes.allows taskId req
          (permits_writes.status (by decide)) (fun _ _ => trivial))) trivial h
  | release taskId req =>
      exact noDangling_of_plain (fun _ => by simp)
        (hdone (only_releaseTask permits_writes.allows taskId req
          (permits_writes.status (by decide)) (fun _ _ => trivial))) trivial h
  | block taskId req =>
      exact noDangling_of_plain (fun _ => by simp)
        (hdone (only_blockTask permits_writes.allows taskId req (fun _ => trivial)
          (fun _ => permits_writes.status (by decide)))) trivial h
  | answer taskId req =>
      exact noDangling_of_plain (fun _ => by simp)
        (hdone (only_answerTask permits_writes.allows taskId req (fun _ => trivial)
          trivial)) trivial h
  | advance taskId =>
      exact noDangling_of_plain (fun _ => by simp)
        (hdone (only_manualAdvance permits_writes.allows taskId
          (permits_writes.status (by decide)))) trivial h
  | setDependencies taskId req =>
      exact noDangling_of_plain (fun _ => by simp)
        (hdone (only_setDependencies permits_writes.tends taskId req trivial)) hcond h
  | triggerPending =>
      exact noDangling_of_plain (fun _ => by simp) (only_store trivial (fun _ => trivial)) trivial h
  | schedulePass =>
      exact noDangling_of_plain (fun _ => by simp) (only_store trivial (fun _ => trivial)) trivial h
  | complete taskId req => exact noDangling_of_yields (yieldsSound_completeTask hcond h)
  | fail taskId req => exact noDangling_of_yields (yieldsSound_failTask hcond h)
  | cancel taskId req => exact noDangling_of_yields (yieldsSound_cancelTask hcond h)
  | unblock taskId => exact noDangling_of_yields (yieldsSound_unblockTask hcond h)
  | recover nodeId =>
      exact noDangling_of_recovering
        (only_bind (only_triggerRecovery nodeId) (fun _ => trivial)) hcond h
  | sweep order =>
      exact noDangling_of_recovering
        (only_bind (only_detectExpiredLeases order) (fun _ => trivial)) hcond h

omit [Unicode] in
theorem noDangling_of_rows_eq_nil {tasks : Table Task} (h : tasks.rows = []) :
    NoDangling tasks := by
  intro t ht
  rw [h] at ht
  cases ht

/-- On any store, through any run of calls from a board where no task dangles,
such as one without tasks, in which every call spares what waits below it:
after each call, no pending task has a direct or transitive dependency that is
failed or cancelled. -/
theorem noDangling_of_calls (k : Backend) (cs : List TimedCall) (w : Timed k.Store)
    (hstart : NoDangling (k.board w.state).tasks) (hcond : k.CallsMeet k.Spares cs w) (n : Nat) :
    NoDangling (k.board (k.runCalls (cs.take n) w).state).tasks := by
  have hprefix : k.CallsMeet k.Spares (cs.take n) w := callsMeet_take n hcond
  have henter : ∀ (c : TimedCall) (w : Timed k.Store), NoDangling (k.board w.state).tasks →
      NoDangling (k.board (c.enter w).state).tasks := fun _ _ h => h
  exact runAll_of_calls (I := fun w : Timed k.Store => NoDangling (k.board w.state).tasks)
    henter (fun c _ h hspares => noDangling_call c.call h hspares) hstart hprefix

end Runs

section Example

local instance asciiDangling : Unicode := Unicode.ascii

/-- A store with one node, which is offline, and no tasks. -/
def offlineStore : ClusterState where
  nodes := .single { id := "n", status := .offline }
  index_ok := indexOk_initial

/-- The in-memory store after a run that begins with the offline node. -/
def ranOffline (cs : List TimedCall) : ClusterState :=
  (Backend.memory.runCalls cs ⟨offlineStore, fun _ => 0⟩).state

/-- One task, and another that waits for it. -/
def oneWaits : TimedCall :=
  ⟨.createBatch [{ taskId := "a", title := "a" },
    { taskId := "b", title := "b", dependsOn := ["a"] }], fun _ => 1⟩

/-- The failure of the first task cascades to the task that waits. -/
theorem noDangling_of_calls_fail :
    NoDangling (ranOffline
      [oneWaits, ⟨.fail "a" (some { reason := "broken" }), fun _ => 2⟩]).tasks := by
  refine noDangling_of_calls .memory
    [oneWaits, ⟨.fail "a" (some { reason := "broken" }), fun _ => 2⟩] ⟨offlineStore, fun _ => 0⟩
    (noDangling_of_rows_eq_nil rfl) ⟨?_, ?_, trivial⟩ 2
  · rintro plan - d - ⟨f, -, t, ht, -⟩
    cases ht
  · rintro - t ht
    have hrow : (ranOffline [oneWaits]).tasks.get? "a" = some
        { id := "a", title := "a", status := .ready, createdAt := 1, updatedAt := 1,
          version := 1 } := by
      decide
    cases Option.some.inj (hrow.symm.trans ht)
    refine ⟨fun h => (by cases h), fun _ _ u hu hpending _ => ?_⟩
    have hchain : ∀ u ∈ (ranOffline [oneWaits]).tasks.rows, u.status = .pending →
        u.id ∈ triggerChain .all (ranOffline [oneWaits]).tasks "a" := by decide
    exact hchain u hu hpending

/-- The first task is claimed, its lease lapses, and the sweep finds no node
for it. -/
def claimedAndSwept : List TimedCall :=
  [oneWaits, ⟨.claim "a" { nodeId := "n" }, fun _ => 2⟩,
    ⟨.sweep .insertion, fun _ => 2 * leaseTtl⟩]

/-- The sweep fails the first task and leaves the other waiting for it. -/
theorem dangling_claimedAndSwept : ¬NoDangling (ranOffline claimedAndSwept).tasks := by
  intro h
  have hwaits : (ranOffline claimedAndSwept).tasks.get? "b" = some
      { id := "b", title := "b", dependsOn := ["a"], createdAt := 1, updatedAt := 1,
        version := 1 } := by
    decide
  have hdead : ((ranOffline claimedAndSwept).tasks.get? "a").map Task.status =
      some .failed := by decide
  obtain ⟨t, ht, hstatus⟩ := Option.map_eq_some_iff.mp hdead
  refine h _ (Table.mem_of_get? hwaits) rfl "a" (.single ⟨_, hwaits, ?_⟩) ⟨t, ht, .inl hstatus⟩
  exact List.mem_singleton_self "a"

end Example

end HermesCluster
