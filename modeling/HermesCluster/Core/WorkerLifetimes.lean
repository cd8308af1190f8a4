import HermesCluster.Core.HermesReap
import HermesCluster.Core.LaneOrder
/-!
# Worker lifetimes

A Hermes worker is a process of its own. An executor tracks the workers it
started by their handles, and those of an earlier life, which it finds in its
store, by their pids alone: such a worker it can look at, but not kill. A
history keeps which workers have been seen to have exited or were killed, and
which the executor was told to give up.
-/

namespace HermesCluster

open Program hiding pure bind
open Executor AgentExecutor HermesReap

-- whether a reason is blank is never computed below
attribute [local irreducible] Text.strip

/-! ## What is known of the workers -/

/-- The ids without one. -/
def without (id : String) (ids : List String) : List String :=
  ids.filter (fun x => decide (x ≠ id))

theorem mem_without {id x : String} {ids : List String} :
    x ∈ without id ids ↔ x ∈ ids ∧ x ≠ id := by
  unfold without
  rw [List.mem_filter, decide_eq_true_iff]

/-- The workers that have been tracked, by their tasks. -/
structure Workers where
  /-- Started by this executor, and neither seen to have exited nor killed. -/
  own : List String := []
  /-- Found in the store, and not seen to be gone. -/
  attached : List String := []
  /-- Cancelled on main, or out of time. -/
  excused : List String := []

namespace Workers

variable [Unicode] {e e' : Executor} {w w' : Workers}

/-- The process of a spawn has exited. -/
def exited (spawn : ActiveSpawn) (w : Workers) : Workers :=
  if spawn.standIn = true then { w with attached := without spawn.taskId w.attached }
  else { w with own := without spawn.taskId w.own }

omit [Unicode] in
/-- The history after an operation, where `v` is what there is to see of the
worker that is looked at. -/
def after (op : ExecOp) (v : ReapView) (r : op.Res) (w : Workers) : Workers :=
  match op, r with
  | .popen _ task, .started =>
      { own := task.id :: w.own
        attached := without task.id w.attached
        excused := without task.id w.excused }
  | .observe spawn, seen =>
      let w := if (poll spawn v).isSome = true then w.exited spawn else w
      if seen.map Resolution.outcome = some .timeout then
        { w with excused := spawn.taskId :: w.excused }
      else w
  | .kill spawn, _ => { w with own := without spawn.taskId w.own }
  | .getTask taskId, some row =>
      if row.status ≠ .cancelled ∧ row.status ≠ .cancelRequested then w
      else { w with excused := taskId :: w.excused }
  | .getAllTaskSpawns e, some records =>
      { w with
        attached := w.attached ++ recordIds (untracked e records)
        excused := w.excused.filter (fun id => decide (id ∉ recordIds (untracked e records))) }
  | _, _ => w

/-- The executor tracks each of its own workers. -/
def Tracked (w : Workers) (e : Executor) : Prop :=
  ∀ id ∈ w.own, ∃ spawn ∈ e.activeSpawns.rows, spawn.standIn = false ∧ spawn.taskId = id

/-- A spawn is dropped, and a new worker started, when no worker of the task is
left. -/
def Ends (w : Workers) : ExecOp → Prop
  | .deleteTaskSpawn taskId => taskId ∉ w.own ∧ taskId ∉ w.attached
  | .popen e task => task.id ∉ w.own ∧ w.Tracked e
  | .getTasks e | .getAllTaskSpawns e => w.Tracked e
  | _ => True

/-- The same, but for the workers of earlier lives that the executor was told to
give up. -/
def EndsOwn (w : Workers) : ExecOp → Prop
  | .deleteTaskSpawn taskId => taskId ∉ w.own ∧ (taskId ∈ w.attached → taskId ∈ w.excused)
  | op => w.Ends op

instance (w : Workers) (e : Executor) : Decidable (w.Tracked e) :=
  inferInstanceAs (Decidable (∀ id ∈ w.own, _))

instance (w : Workers) (op : ExecOp) : Decidable (w.Ends op) := by
  induction op using ExecOp.casesOn with
  | deleteTaskSpawn taskId =>
      exact inferInstanceAs (Decidable (taskId ∉ w.own ∧ taskId ∉ w.attached))
  | popen e task => exact inferInstanceAs (Decidable (task.id ∉ w.own ∧ w.Tracked e))
  | getTasks e | getAllTaskSpawns e => exact inferInstanceAs (Decidable (w.Tracked e))
  | _ => exact isTrue trivial

instance (w : Workers) (op : ExecOp) : Decidable (w.EndsOwn op) := by
  induction op using ExecOp.casesOn with
  | deleteTaskSpawn taskId =>
      exact inferInstanceAs
        (Decidable (taskId ∉ w.own ∧ (taskId ∈ w.attached → taskId ∈ w.excused)))
  | popen e task => exact inferInstanceAs (Decidable (w.Ends (.popen e task)))
  | getTasks e | getAllTaskSpawns e => exact inferInstanceAs (Decidable (w.Tracked e))
  | _ => exact isTrue trivial

/-! ## The environment of a Hermes worker -/

/-- A worker is resolved as the reap judges what there is to see of it, main
lists each task once, and the records are of Hermes workers. -/
def HermesReply (spawnTimeout : Nat) (op : ExecOp) (v : ReapView) (r : op.Res) : Prop :=
  match op, r with
  | .observe spawn, seen => spawn.hermes = true → ∃ elapsed, seen.map Resolution.outcome =
      (reapHermesSpawn spawnTimeout spawn elapsed v).map (fun x => x.1.toOutcome)
  | .getTasks _, some tasks => (tasks.map Task.id).Nodup
  | .getAllTaskSpawns _, some records => ∀ r ∈ records, r.hermes = true
  | _, _ => True

/-- What an operation looks at. -/
def viewOf {σ : Type} (view : σ → ActiveSpawn → ReapView) (s : σ) : ExecOp → ReapView
  | .observe spawn => view s spawn
  | _ => {}

/-- What the history is told of an operation. -/
def note {σ : Type} (step : (op : ExecOp) → σ → op.Res × σ) (view : σ → ActiveSpawn → ReapView)
    (s : σ) (op : ExecOp) (_ : σ) (w : Workers) : Workers :=
  w.after op (viewOf view s op) (step op s).1

end Workers

/-! ## The executor and its workers -/

section Invariant

variable {e e' : Executor} {w w' : Workers} {inFlight : List Task}

/-- Every own worker is tracked and none waits for its lane, of which `inFlight`
are the tasks that a pass has taken up. -/
structure Watched (inFlight : List Task) (e : Executor) (w : Workers) : Prop where
  mode : e.hermesWorker = true
  tracked : w.Tracked e
  attached : ∀ spawn ∈ e.activeSpawns.rows, spawn.standIn = false → spawn.taskId ∉ w.attached
  hermes : ∀ spawn ∈ e.activeSpawns.rows, spawn.hermes = true
  payload : ∀ spawn ∈ e.activeSpawns.rows, (busyPayload spawn).id = spawn.taskId
  nodup : ((inFlight ++ e.waiting).map Task.id).Nodup
  apart : ∀ t ∈ inFlight ++ e.waiting, ∀ spawn ∈ e.activeSpawns.rows, spawn.standIn = false →
    spawn.taskId ≠ t.id

/-- The same spawns are live, and the same tasks wait. -/
structure SameWork (e e' : Executor) : Prop where
  mode : e'.hermesWorker = e.hermesWorker
  active : e'.activeSpawns = e.activeSpawns
  waiting : e'.waiting.Perm e.waiting

theorem SameWork.refl (e : Executor) : SameWork e e := ⟨rfl, rfl, .refl _⟩

theorem SameWork.trans {e'' : Executor} (h : SameWork e e') (h' : SameWork e' e'') :
    SameWork e e'' :=
  ⟨h'.mode.trans h.mode, h'.active.trans h.active, h'.waiting.trans h.waiting⟩

/-- The same spawns are live, and the tasks that wait or are in flight are some
of those that did. -/
theorem Watched.of_subperm {inFlight' : List Task} (h : Watched inFlight e w)
    (hmode : e'.hermesWorker = e.hermesWorker) (hactive : e'.activeSpawns = e.activeSpawns)
    (hwaiting : (inFlight' ++ e'.waiting).Subperm (inFlight ++ e.waiting)) :
    Watched inFlight' e' w := by
  refine ⟨hmode.trans h.mode, ?_, ?_, ?_, ?_, ?_, fun t ht => ?_⟩
  · unfold Workers.Tracked
    rw [hactive]
    exact h.tracked
  · rw [hactive]
    exact h.attached
  · rw [hactive]
    exact h.hermes
  · rw [hactive]
    exact h.payload
  · obtain ⟨tasks, hperm, hsub⟩ := hwaiting
    exact (hperm.map Task.id).nodup_iff.mp (h.nodup.sublist (hsub.map Task.id))
  · rw [hactive]
    exact h.apart t (hwaiting.subset ht)

theorem Watched.of_same (h : Watched inFlight e w) (hsame : SameWork e e') :
    Watched inFlight e' w :=
  h.of_subperm hsame.mode hsame.active (hsame.waiting.append_left inFlight).subperm

/-- A worker less is running, or more of them are excused. -/
structure Workers.Fewer (w w' : Workers) : Prop where
  own : w'.own ⊆ w.own
  attached : w'.attached ⊆ w.attached
  excused : w.excused ⊆ w'.excused

theorem Workers.Fewer.refl (w : Workers) : Workers.Fewer w w :=
  ⟨List.Subset.refl _, List.Subset.refl _, List.Subset.refl _⟩

theorem Workers.Fewer.trans {w'' : Workers} (h : Workers.Fewer w w')
    (h' : Workers.Fewer w' w'') : Workers.Fewer w w'' :=
  ⟨List.Subset.trans h'.own h.own, List.Subset.trans h'.attached h.attached,
    List.Subset.trans h.excused h'.excused⟩

theorem Watched.fewer (h : Watched inFlight e w) (hfewer : Workers.Fewer w w') :
    Watched inFlight e w' :=
  { h with
    tracked := fun id hid => h.tracked id (hfewer.own hid)
    attached := fun spawn hs hown hid => h.attached spawn hs hown (hfewer.attached hid) }

theorem Watched.own_of_standIn (h : Watched inFlight e w) {spawn : ActiveSpawn}
    (hspawn : spawn ∈ e.activeSpawns.rows) (hstand : spawn.standIn = true) :
    spawn.taskId ∉ w.own := by
  intro hid
  obtain ⟨s, hs, hown, heq⟩ := h.tracked _ hid
  obtain rfl : s = spawn := Table.eq_of_mem_of_key_eq hs hspawn heq
  rw [hown] at hstand
  cases hstand

/-- No worker of the task is left but one that is excused. -/
def Workers.Over (w : Workers) (taskId : String) : Prop :=
  taskId ∉ w.own ∧ (taskId ∈ w.attached → taskId ∈ w.excused)

theorem Workers.Over.fewer {taskId : String} (h : w.Over taskId)
    (hfewer : Workers.Fewer w w') : w'.Over taskId :=
  ⟨fun hid => h.1 (hfewer.own hid), fun hid => hfewer.excused (h.2 (hfewer.attached hid))⟩

theorem Watched.erase (h : Watched inFlight e w) {taskId : String} (hover : w.Over taskId)
    (hmode : e'.hermesWorker = e.hermesWorker) (hwaiting : e'.waiting.Perm e.waiting)
    (hactive : e'.activeSpawns = e.activeSpawns.erase taskId) : Watched inFlight e' w := by
  have hrow : ∀ {s}, s ∈ e'.activeSpawns.rows → s ∈ e.activeSpawns.rows := by
    intro s hs
    rw [hactive] at hs
    exact ((Table.mem_rows_erase _).mp hs).1
  refine ⟨hmode.trans h.mode, fun id hid => ?_, fun s hs => h.attached s (hrow hs),
    fun s hs => h.hermes s (hrow hs), fun s hs => h.payload s (hrow hs), ?_, fun t ht s hs => ?_⟩
  · obtain ⟨s, hs, hown, rfl⟩ := h.tracked id hid
    refine ⟨s, ?_, hown, rfl⟩
    rw [hactive]
    exact (Table.mem_rows_erase _).mpr ⟨hs, fun heq => hover.1 (heq ▸ hid)⟩
  · exact ((hwaiting.append_left inFlight).map Task.id).nodup_iff.mpr h.nodup
  · exact h.apart t ((hwaiting.append_left inFlight).mem_iff.mp ht) s (hrow hs)

theorem Watched.taken_up {task : Task} (h : Watched (task :: inFlight) e w) :
    task.id ∉ w.own := by
  intro hid
  obtain ⟨s, hs, hown, heq⟩ := h.tracked _ hid
  exact h.apart task List.mem_cons_self s hs hown heq

theorem Watched.drop {task : Task} (h : Watched (task :: inFlight) e w) :
    Watched inFlight e w :=
  h.of_subperm rfl rfl (List.sublist_cons_self task _).subperm

end Invariant

/-! ## Programs that watch their workers -/

section Rules

variable [Unicode] {spawnTimeout : Nat} {e e' : Executor} {w : Workers} {inFlight : List Task}

/-- The program drops no spawn whose worker may still run, unless it is excused,
where workers are resolved as the reap judges them. -/
abbrev Watches (spawnTimeout : Nat) {α : Type} (p : Exec α) (w : Workers)
    (Q : α → Workers → Prop) : Prop :=
  p.Meets (fun op w r w' => ∃ v, Workers.HermesReply spawnTimeout op v r ∧ w' = w.after op v r)
    (fun w op => w.EndsOwn op) w Q

/-- The operations that no worker depends on. -/
def WorkerQuiet : ExecOp → Prop
  | .getTasks _ | .getTask _ | .popen _ _ | .observe _ | .kill _ | .deleteTaskSpawn _
  | .getAllTaskSpawns _ => False
  | _ => True

theorem watches_of_only {α : Type} {I : α → Prop} {p : Exec α} (hp : p.Only WorkerQuiet)
    (hI : p.Returns I) : Watches spawnTimeout p w (fun a w' => I a ∧ w' = w) := by
  refine wp_of_only (I := (· = w)) hp hI rfl (fun {w' op} _ hop => ?_) ?_
  · cases op <;> trivial
  · rintro op w₁ r w₂ rfl hop ⟨v, -, hafter⟩
    cases op <;> first | exact hafter | cases hop

theorem watches_of_same {p : Exec Executor} (h : Watched inFlight e w)
    (hp : p.Only WorkerQuiet) (hsame : p.Returns (SameWork e)) :
    Watches spawnTimeout p w (Watched inFlight) := by
  refine (watches_of_only hp hsame).mono ?_
  rintro e' _ ⟨hsame, rfl⟩
  exact h.of_same hsame

end Rules

/-! ## What leaves the workers alone -/

theorem sameWork_queueReport (verb : ReportVerb) (taskId : String) (payload : ReportPayload)
    (e : Executor) : (queueReport verb taskId payload e).Returns (SameWork e) := by
  unfold queueReport
  refine returns_perform (fun ok => ?_)
  split
  · exact returns_pure (SameWork.refl e)
  · exact returns_perform (fun _ => returns_pure ⟨rfl, rfl, .refl _⟩)

theorem sameWork_drainPendingReports (e : Executor) :
    (drainPendingReports e).Returns (SameWork e) := by
  unfold drainPendingReports
  refine returns_perform (fun now => returns_foldlM _ _ (fun e' entry hsame => ?_)
    (SameWork.refl e))
  unfold drainReport
  refine returns_perform (fun ok => ?_)
  dsimp only
  split
  · exact returns_pure hsame
  · split
    · exact returns_pure (hsame.trans ⟨rfl, rfl, .refl _⟩)
    · split
      · exact returns_pure (hsame.trans ⟨rfl, rfl, .refl _⟩)
      · exact returns_pure (hsame.trans ⟨rfl, rfl, .refl _⟩)

theorem hermesWorker_releaseHead (now : Nat) (busyLaneKeys : List String) (laneKey : String)
    (e : Executor) : (releaseHead now busyLaneKeys e laneKey).hermesWorker = e.hermesWorker := by
  unfold releaseHead
  split
  · rfl
  · split
    · rfl
    · split
      · rfl
      · rfl

theorem sameWork_sweepLaneQueues (e : Executor) : (sweepLaneQueues e).Returns (SameWork e) := by
  unfold sweepLaneQueues
  refine returns_perform (fun now => returns_pure ?_)
  generalize (e.activeSpawns.rows.map ActiveSpawn.laneKey).filter _ = busyLaneKeys
  generalize e.laneQueue.rows.map LaneFifo.laneKey = laneKeys
  induction laneKeys generalizing e with
  | nil => exact SameWork.refl e
  | cons laneKey laneKeys ih =>
      obtain ⟨hwaiting, -, hactive⟩ := waiting_releaseHead now busyLaneKeys laneKey e
      have hhead : SameWork e (releaseHead now busyLaneKeys e laneKey) :=
        ⟨hermesWorker_releaseHead now busyLaneKeys laneKey e, hactive, hwaiting⟩
      exact hhead.trans (ih (releaseHead now busyLaneKeys e laneKey))

theorem hermesWorker_putBack (leftover : List Task) (e : Executor) :
    (putBack leftover e).hermesWorker = e.hermesWorker := by
  induction leftover with
  | nil => rfl
  | cons task leftover ih => exact ih

theorem hermesWorker_queueForLane (laneKey : String) (task : Task) (attempts : Nat)
    (e : Executor) : (queueForLane laneKey task attempts e).Returns
      (fun r => r.2.hermesWorker = e.hermesWorker) := by
  unfold queueForLane
  dsimp only
  split
  · exact returns_pure rfl
  · split
    · exact returns_pure rfl
    · exact returns_perform (fun _ => returns_pure rfl)

section Watch

variable [Unicode] {spawnTimeout : Nat} {e e' : Executor} {w : Workers} {inFlight : List Task}

theorem sameWork_reportFailure (taskId reason : String) (e : Executor) :
    (reportFailure taskId reason e).Returns (SameWork e) := by
  unfold reportFailure
  split
  · exact returns_pure (SameWork.refl e)
  · exact sameWork_queueReport _ _ _ e

theorem watches_reportFailure {taskId reason : String} (h : Watched inFlight e w) :
    Watches spawnTimeout (reportFailure taskId reason e) w (Watched inFlight) :=
  watches_of_same h (only_reportFailure taskId reason e (fun _ _ => trivial) trivial)
    (sameWork_reportFailure taskId reason e)

theorem watches_queueForLane {laneKey : String} {task : Task} {attempts : Nat}
    (h : Watched (task :: inFlight) e w) :
    Watches spawnTimeout (queueForLane laneKey task attempts e) w (fun r w' => w' = w ∧
      r.2.activeSpawns = e.activeSpawns ∧ Watched inFlight r.2 w) := by
  have hqueued : (queueForLane laneKey task attempts e).Returns (fun r =>
      r.2.activeSpawns = e.activeSpawns ∧ Watched inFlight r.2 w) := by
    refine (returns_and (hermesWorker_queueForLane laneKey task attempts e)
      (waiting_queueForLane laneKey task attempts e)).mono ?_
    rintro ⟨ok, e'⟩ ⟨hmode, -, hactive, hwaiting⟩
    refine ⟨hactive, h.of_subperm hmode hactive ?_⟩
    rcases hwaiting with ⟨hsame, -⟩ | ⟨-, hadded⟩
    · exact ((hsame.append_left inFlight).subperm).trans
        (List.sublist_cons_self task _).subperm
    · exact ((hadded.append_left inFlight).trans List.perm_middle).subperm
  refine (watches_of_only (only_queueForLane laneKey task attempts e trivial) hqueued).mono ?_
  rintro r w' ⟨hrest, rfl⟩
  exact ⟨rfl, hrest⟩

theorem watches_dropPersistedSpawn {taskId : String} (hover : w.Over taskId)
    (h : Watched inFlight e w) :
    Watches spawnTimeout (dropPersistedSpawn taskId e) w (fun e' w' => w' = w ∧
      e'.activeSpawns = e.activeSpawns ∧ Watched inFlight e' w) := by
  unfold dropPersistedSpawn
  split
  · exact meets_pure ⟨rfl, rfl, h⟩
  · refine meets_perform hover (fun _ w' hC => meets_pure ?_)
    obtain ⟨v, -, hafter⟩ := hC
    exact ⟨hafter, rfl, h.of_same ⟨rfl, rfl, .refl _⟩⟩

/-! ## Reaping -/

/-- A spawn is killed by its handle, which a stand-in does not have. -/
theorem watches_killSpawnProcess {spawn : ActiveSpawn} (h : Watched inFlight e w)
    (hspawn : spawn ∈ e.activeSpawns.rows) (hexcused : spawn.taskId ∈ w.excused) :
    Watches spawnTimeout (killSpawnProcess spawn) w (fun _ w' => Workers.Fewer w w' ∧
      w'.Over spawn.taskId) := by
  unfold killSpawnProcess
  split
  · rename_i hstand
    exact meets_pure ⟨Workers.Fewer.refl w, h.own_of_standIn hspawn hstand, fun _ => hexcused⟩
  · rename_i hown
    refine meets_perform trivial (fun _ w' hC => meets_pure ?_)
    obtain ⟨v, -, rfl⟩ := hC
    have hkilled : Workers.Fewer w (w.after (.kill spawn) v ()) :=
      ⟨fun _ hid => (mem_without.mp hid).1, List.Subset.refl _, List.Subset.refl _⟩
    refine ⟨hkilled, fun hid => (mem_without.mp hid).2 rfl, fun hid => ?_⟩
    exact absurd hid (h.attached spawn hspawn (Bool.eq_false_iff.mpr hown))

/-- The cancel sweep kills the worker before it gives it up. -/
theorem watches_sweepCancelled {spawn : ActiveSpawn} (h : Watched inFlight e w)
    (hspawn : spawn ∈ e.activeSpawns.rows) :
    Watches spawnTimeout (sweepCancelled e spawn) w (fun e' w' => Watched inFlight e' w' ∧
      ∀ s ∈ e.activeSpawns.rows, s.taskId ≠ spawn.taskId → s ∈ e'.activeSpawns.rows) := by
  unfold sweepCancelled
  refine meets_perform trivial (fun row w₁ hC => ?_)
  obtain ⟨v, -, hafter⟩ := hC
  cases row with
  | none =>
      obtain rfl : w₁ = w := hafter
      exact meets_pure ⟨h, fun s hs _ => hs⟩
  | some row =>
      replace hafter : w₁ = if row.status ≠ .cancelled ∧ row.status ≠ .cancelRequested then w
        else { w with excused := spawn.taskId :: w.excused } := hafter
      dsimp only
      split
      · rename_i hlive
        rw [if_pos hlive] at hafter
        subst hafter
        exact meets_pure ⟨h, fun s hs _ => hs⟩
      · rename_i hended
        rw [if_neg hended] at hafter
        have hfewer : Workers.Fewer w w₁ := by
          rw [hafter]
          exact ⟨List.Subset.refl _, List.Subset.refl _, List.subset_cons_self _ _⟩
        have hexcused : spawn.taskId ∈ w₁.excused := by
          rw [hafter]
          exact List.mem_cons_self
        have h₁ := h.fewer hfewer
        refine meets_bind (watches_killSpawnProcess h₁ hspawn hexcused) ?_
        rintro - w₂ ⟨hkilled, hover⟩
        have h₂ : Watched inFlight
            { e with activeSpawns := e.activeSpawns.erase spawn.taskId } w₂ :=
          (h₁.fewer hkilled).erase hover rfl (.refl _) rfl
        refine meets_bind (watches_dropPersistedSpawn hover h₂) ?_
        rintro e₃ w₂ ⟨rfl, hactive, h₃⟩
        have hend : Watched inFlight
              { e₃ with laneQueueMeta := e₃.laneQueueMeta.erase spawn.taskId } w₂ ∧
            ∀ s ∈ e.activeSpawns.rows, s.taskId ≠ spawn.taskId → s ∈ e₃.activeSpawns.rows := by
          refine ⟨h₃.of_same ⟨rfl, rfl, .refl _⟩, fun s hs hne => ?_⟩
          rw [hactive]
          exact (Table.mem_rows_erase _).mpr ⟨hs, hne⟩
        split
        · refine meets_perform trivial (fun _ w₄ hC => meets_pure ?_)
          obtain ⟨v', -, rfl⟩ := hC
          exact hend
        · exact meets_pure hend

/-- What a resolved spawn needs: no worker of it is left but one that is excused,
and only an own worker was refused. -/
def Spent (w : Workers) (x : ActiveSpawn × Resolution) : Prop :=
  w.Over x.1.taskId ∧ (x.2.outcome = .laneBusyRefused → x.1.standIn = false)

/-- A look at a worker, which is killed when its time is over. -/
theorem watches_observe {spawn : ActiveSpawn} {α : Type} {f : Option Resolution → Exec α}
    {Q : α → Workers → Prop} (h : Watched inFlight e w) (hspawn : spawn ∈ e.activeSpawns.rows)
    (hf : ∀ seen w', Workers.Fewer w w' → (∀ r, seen = some r → Spent w' (spawn, r)) →
      Watches spawnTimeout (f seen) w' Q) :
    Watches spawnTimeout (ask (.observe spawn) >>= fun seen =>
      killTimedOut spawn seen >>= fun _ => f seen) w Q := by
  have hmode := h.hermes spawn hspawn
  refine meets_perform trivial (fun seen w₁ hC => ?_)
  obtain ⟨v, hreply, hafter⟩ := hC
  obtain ⟨elapsed, hseen⟩ := hreply hmode
  let looked := if (poll spawn v).isSome = true then w.exited spawn else w
  replace hafter : w₁ = if seen.map Resolution.outcome = some .timeout then
      { looked with excused := spawn.taskId :: looked.excused } else looked := hafter
  have hlooked : Workers.Fewer w looked := by
    unfold looked Workers.exited
    split
    · split
      · exact ⟨List.Subset.refl _, fun _ hid => (mem_without.mp hid).1, List.Subset.refl _⟩
      · exact ⟨fun _ hid => (mem_without.mp hid).1, List.Subset.refl _, List.Subset.refl _⟩
    · exact Workers.Fewer.refl w
  have hfewer : Workers.Fewer w w₁ := by
    rw [hafter]
    split
    · exact hlooked.trans ⟨List.Subset.refl _, List.Subset.refl _, List.subset_cons_self _ _⟩
    · exact hlooked
  have hrefused : ∀ r, seen = some r → r.outcome = .laneBusyRefused → spawn.standIn = false := by
    rintro r rfl hbusy
    cases hreap : reapHermesSpawn spawnTimeout spawn elapsed v with
    | none =>
        rw [hreap] at hseen
        cases hseen
    | some x =>
        rw [hreap] at hseen
        have hx : x.1.toOutcome = .laneBusyRefused := by
          rw [← hbusy]
          exact (Option.some.inj hseen).symm
        refine standIn_of_refused hreap ?_
        cases hout : x.1 <;> rw [hout] at hx <;> cases hx
  by_cases htimeout : seen.map Resolution.outcome = some .timeout
  · have hexcused : spawn.taskId ∈ w₁.excused := by
      rw [hafter, if_pos htimeout]
      exact List.mem_cons_self
    unfold killTimedOut
    rw [if_pos ⟨hmode, htimeout⟩]
    refine meets_bind (watches_killSpawnProcess (h.fewer hfewer) hspawn hexcused) ?_
    rintro - w₂ ⟨hkilled, hover⟩
    exact hf seen w₂ (hfewer.trans hkilled) (fun r hr => ⟨hover, hrefused r hr⟩)
  · unfold killTimedOut
    rw [if_neg (fun hkill => htimeout hkill.2), Program.pure_bind]
    refine hf seen w₁ hfewer (fun r hr => ⟨?_, hrefused r hr⟩)
    rw [hafter, if_neg htimeout]
    -- the worker was resolved since it exited
    have hexited : (poll spawn v).isSome = true := by
      cases hreap : reapHermesSpawn spawnTimeout spawn elapsed v with
      | none =>
          rw [hreap, hr] at hseen
          cases hseen
      | some x =>
          refine (exited_of_reapHermesSpawn hreap).resolve_right (fun hout => htimeout ?_)
          rw [hseen, hreap, Option.map_some, hout]
          rfl
    unfold looked Workers.exited
    rw [if_pos hexited]
    split
    · rename_i hstand
      exact ⟨h.own_of_standIn hspawn hstand, fun hid => absurd rfl (mem_without.mp hid).2⟩
    · rename_i hown
      refine ⟨fun hid => (mem_without.mp hid).2 rfl, fun hid => absurd hid ?_⟩
      exact h.attached spawn hspawn (Bool.eq_false_iff.mpr hown)

theorem watches_observeAll {spawns : List ActiveSpawn} (h : Watched inFlight e w)
    (hspawns : ∀ spawn ∈ spawns, spawn ∈ e.activeSpawns.rows) :
    Watches spawnTimeout (observeAll spawns) w (fun resolved w' => Workers.Fewer w w' ∧
      (resolved.map Prod.fst).Sublist spawns ∧ ∀ x ∈ resolved, Spent w' x) := by
  induction spawns generalizing w with
  | nil => exact meets_pure ⟨Workers.Fewer.refl w, List.Sublist.refl [], List.forall_mem_nil _⟩
  | cons spawn spawns ih =>
      rw [List.forall_mem_cons] at hspawns
      unfold observeAll
      refine watches_observe h hspawns.1 (fun seen w₁ hfewer hspent => ?_)
      refine meets_bind (ih (h.fewer hfewer) hspawns.2) ?_
      rintro rest w₂ ⟨hfewer₂, hsub, hrest⟩
      cases seen with
      | none => exact meets_pure ⟨hfewer.trans hfewer₂, hsub.cons spawn, hrest⟩
      | some r =>
          obtain ⟨hover, hrefused⟩ := hspent r rfl
          refine meets_pure ⟨hfewer.trans hfewer₂, hsub.cons_cons spawn, ?_⟩
          exact List.forall_mem_cons.mpr ⟨⟨hover.fewer hfewer₂, hrefused⟩, hrest⟩

/-- A resolved spawn leaves the table, and its task waits again if its lane
refused it. -/
theorem watches_reapOne {x : ActiveSpawn × Resolution} (h : Watched [] e w)
    (hspawn : x.1 ∈ e.activeSpawns.rows) (hspent : Spent w x) :
    Watches spawnTimeout (reapOne e x) w (fun e' w' => w' = w ∧ Watched [] e' w ∧
      ∀ s ∈ e.activeSpawns.rows, s.taskId ≠ x.1.taskId → s ∈ e'.activeSpawns.rows) := by
  obtain ⟨spawn, r⟩ := x
  obtain ⟨hover, hrefused⟩ := hspent
  replace hover : w.Over spawn.taskId := hover
  let e₁ : Executor := { e with
    activeSpawns := e.activeSpawns.erase spawn.taskId
    laneQueueMeta := e.laneQueueMeta.erase spawn.taskId }
  have h₁ : Watched [] e₁ w := h.erase hover rfl (.refl _) rfl
  have hothers : ∀ {e' : Executor}, e'.activeSpawns = e₁.activeSpawns →
      ∀ s ∈ e.activeSpawns.rows, s.taskId ≠ spawn.taskId → s ∈ e'.activeSpawns.rows := by
    intro e' hactive s hs hne
    rw [hactive]
    exact (Table.mem_rows_erase _).mpr ⟨hs, hne⟩
  have hreport : ∀ {e' : Executor} {p : Exec Executor}, Watched [] e' w →
      e'.activeSpawns = e₁.activeSpawns → p.Only WorkerQuiet → p.Returns (SameWork e') →
      Watches spawnTimeout p w (fun e'' w' => w' = w ∧ Watched [] e'' w ∧
        ∀ s ∈ e.activeSpawns.rows, s.taskId ≠ spawn.taskId → s ∈ e''.activeSpawns.rows) := by
    intro e' p h' hactive hp hsame
    refine (watches_of_only hp hsame).mono ?_
    rintro e'' w' ⟨hsame, rfl⟩
    exact ⟨rfl, h'.of_same hsame, hothers (hsame.active.trans hactive)⟩
  unfold reapOne
  dsimp only
  split
  · rename_i hbusy
    -- the task takes the place of its spawn
    have hwaits : Watched [busyPayload spawn] e₁ w := by
      have hid := h.payload spawn hspawn
      have hown := hrefused hbusy
      have hnew : spawn.taskId ∉ e.waiting.map Task.id := by
        intro hmem
        obtain ⟨t, ht, heq⟩ := List.mem_map.mp hmem
        exact h.apart t ht spawn hspawn hown heq.symm
      refine { h₁ with nodup := ?_, apart := fun t ht s hs hs' => ?_ }
      · rw [List.cons_append, List.map_cons, List.nodup_cons, hid]
        exact ⟨hnew, h.nodup⟩
      · rcases List.mem_cons.mp ht with rfl | hold
        · rw [hid]
          exact ((Table.mem_rows_erase _).mp hs).2
        · exact h₁.apart t hold s hs hs'
    have hrequeue : Watches spawnTimeout (requeueBusyRefusal spawn e₁) w (fun st w' => w' = w ∧
        Watched [] st.2 w ∧ st.2.activeSpawns = e₁.activeSpawns) := by
      unfold requeueBusyRefusal
      dsimp only
      split
      · exact meets_pure ⟨rfl, h₁, rfl⟩
      · refine meets_bind (watches_queueForLane hwaits) ?_
        rintro ⟨ok, e₂⟩ w ⟨rfl, hactive, h₂⟩
        dsimp only at hactive h₂ ⊢
        split
        · refine meets_bind (watches_dropPersistedSpawn hover h₂) ?_
          rintro e₃ w ⟨rfl, hactive₃, h₃⟩
          exact meets_pure ⟨rfl, h₃, hactive₃.trans hactive⟩
        · exact meets_pure ⟨rfl, h₂, hactive⟩
    refine meets_bind hrequeue ?_
    rintro ⟨requeued, e₂⟩ w ⟨rfl, h₂, hactive⟩
    dsimp only at h₂ hactive ⊢
    split
    · exact meets_pure ⟨rfl, h₂, hothers hactive⟩
    · refine meets_bind (watches_dropPersistedSpawn hover h₂) ?_
      rintro e₃ w ⟨rfl, hactive₃, h₃⟩
      generalize "lane " ++ spawn.laneKey ++ _ ++ r.detail = reason
      have hleft : SameWork e₃
          { e₃ with laneQueueMeta := e₃.laneQueueMeta.erase spawn.taskId } := ⟨rfl, rfl, .refl _⟩
      exact hreport h₃ (hactive₃.trans hactive)
        (only_reportFailure _ reason _ (fun _ _ => trivial) trivial)
        ((sameWork_reportFailure _ reason _).mono fun _ => hleft.trans)
  · refine meets_bind (watches_dropPersistedSpawn hover h₁) ?_
    rintro e₂ w ⟨rfl, hactive, h₂⟩
    have hcomplete : ∀ result, Watches spawnTimeout (reportCompletion spawn.taskId result e₂) w
        (fun e' w' => w' = w ∧ Watched [] e' w ∧
          ∀ s ∈ e.activeSpawns.rows, s.taskId ≠ spawn.taskId → s ∈ e'.activeSpawns.rows) :=
      fun result => hreport h₂ hactive
        (only_queueReport _ _ _ _ (fun _ => trivial) trivial) (sameWork_queueReport _ _ _ e₂)
    split
    · exact hcomplete _
    · exact hcomplete _
    · unfold reportBlocked
      split
      · exact hcomplete _
      · exact hreport h₂ hactive (only_ask trivial fun _ => only_pure _)
          (returns_perform fun _ => returns_pure (SameWork.refl e₂))
    · exact hreport h₂ hactive (only_ask trivial fun _ => only_pure _)
        (returns_perform fun _ => returns_pure (SameWork.refl e₂))
    · generalize "lane " ++ spawn.laneName ++ ": " ++ r.detail = reason
      exact hreport h₂ hactive (only_reportFailure _ reason _ (fun _ _ => trivial) trivial)
        (sameWork_reportFailure _ reason _)

theorem watches_reapFinishedSpawns (h : Watched [] e w) :
    Watches spawnTimeout (reapFinishedSpawns e) w (Watched []) := by
  have hsweep : Watches spawnTimeout (e.activeSpawns.rows.foldlM sweepCancelled e) w
      (Watched []) := by
    refine (meets_foldlM (I := fun rest e' w' => Watched [] e' w' ∧
      (rest.map ActiveSpawn.taskId).Nodup ∧ ∀ s ∈ rest, s ∈ e'.activeSpawns.rows) _ ?_
      ⟨h, e.activeSpawns.nodup, fun s hs => hs⟩).mono (fun _ _ hend => hend.1)
    rintro spawn rest e' w' ⟨h', hrest, hin⟩
    rw [List.map_cons, List.nodup_cons] at hrest
    rw [List.forall_mem_cons] at hin
    refine (watches_sweepCancelled h' hin.1).mono ?_
    rintro e'' w'' ⟨h'', hkept⟩
    refine ⟨h'', hrest.2, fun s hs => hkept s (hin.2 s hs) (fun heq => hrest.1 ?_)⟩
    exact heq ▸ List.mem_map_of_mem hs
  unfold reapFinishedSpawns
  split
  · exact meets_pure h
  · refine meets_bind hsweep (fun e₁ w₁ h₁ => ?_)
    split
    · exact meets_pure h₁
    · refine meets_bind (watches_observeAll h₁ fun _ hs => hs) ?_
      rintro resolved w₂ ⟨hfewer, hsub, hspent⟩
      have hdistinct : (resolved.map (fun x => x.1.taskId)).Nodup := by
        have hkeys := (hsub.map ActiveSpawn.taskId).nodup e₁.activeSpawns.nodup
        rwa [List.map_map] at hkeys
      refine (meets_foldlM (I := fun rest e' w' => Watched [] e' w' ∧
        (rest.map (fun x => x.1.taskId)).Nodup ∧
        ∀ x ∈ rest, x.1 ∈ e'.activeSpawns.rows ∧ Spent w' x) _ ?_
        ⟨h₁.fewer hfewer, hdistinct, fun x hx => ⟨hsub.subset (List.mem_map_of_mem hx),
          hspent x hx⟩⟩).mono (fun _ _ hend => hend.1)
      rintro x rest e' w' ⟨h', hrest, hin⟩
      rw [List.map_cons, List.nodup_cons] at hrest
      rw [List.forall_mem_cons] at hin
      refine (watches_reapOne h' hin.1.1 hin.1.2).mono ?_
      rintro e'' w' ⟨rfl, h'', hkept⟩
      refine ⟨h'', hrest.2, fun y hy => ⟨hkept y.1 (hin.2 y hy).1 (fun heq => hrest.1 ?_),
        (hin.2 y hy).2⟩⟩
      exact heq ▸ List.mem_map_of_mem hy

/-! ## Spawning -/

/-- A worker that was started is tracked. -/
theorem watches_track {spawn : ActiveSpawn} {task : Task} {w₀ : Workers} {v : ReapView}
    (h : Watched (task :: inFlight) e w₀) (hw : w = w₀.after (.popen e task) v .started)
    (hid : spawn.taskId = task.id) (hown : spawn.standIn = false) (hmode : spawn.hermes = true)
    (hpayload : (busyPayload spawn).id = task.id) :
    Watches spawnTimeout (track spawn e) w (Watched inFlight) := by
  have htracked : ∀ leaseId now, Watched inFlight ({ e with
      activeSpawns := e.activeSpawns.upsert
        ({ spawn with leaseId := leaseId, startedAt := now } : ActiveSpawn) } : Executor) w := by
    intro leaseId now
    let spawned : ActiveSpawn := { spawn with leaseId := leaseId, startedAt := now }
    have hrow : ∀ s ∈ (e.activeSpawns.upsert spawned).rows, s = spawned ∨
        s ∈ e.activeSpawns.rows := fun s hs => ((Table.mem_rows_upsert _).mp hs).imp_right And.left
    have hwaiting : task.id ∉ (inFlight ++ e.waiting).map Task.id := by
      have hnodup := h.nodup
      rw [List.cons_append, List.map_cons, List.nodup_cons] at hnodup
      exact hnodup.1
    have hold := h.drop
    refine ⟨h.mode, fun id hmem => ?_, fun s hs hs' hmem => ?_, fun s hs => ?_, fun s hs => ?_,
      hold.nodup, fun t ht s hs hs' => ?_⟩
    · rw [hw] at hmem
      by_cases heq : id = task.id
      · exact ⟨spawned, (Table.mem_rows_upsert _).mpr (.inl rfl), hown, hid.trans heq.symm⟩
      · obtain ⟨s, hs, hs', rfl⟩ := h.tracked id ((List.mem_cons.mp hmem).resolve_left heq)
        exact ⟨s, (Table.mem_rows_upsert _).mpr (.inr ⟨hs, fun hkey => heq (hkey.trans hid)⟩),
          hs', rfl⟩
    · rw [hw] at hmem
      obtain ⟨hmem, hne⟩ := mem_without.mp hmem
      rcases hrow s hs with rfl | hs
      · exact hne hid
      · exact h.attached s hs hs' hmem
    · rcases hrow s hs with rfl | hs
      · exact hmode
      · exact h.hermes s hs
    · rcases hrow s hs with rfl | hs
      · exact hpayload.trans hid.symm
      · exact h.payload s hs
    · rcases hrow s hs with rfl | hs
      · intro heq
        exact hwaiting (List.mem_map.mpr ⟨t, ht, heq.symm.trans hid⟩)
      · exact hold.apart t ht s hs hs'
  have hrest : (track spawn e).Returns (fun e' => Watched inFlight e' w) := by
    unfold track
    refine returns_bind (returns_true _) (fun leaseId _ => returns_perform (fun now => ?_))
    unfold persistSpawn
    dsimp only
    split
    · exact returns_pure (htracked leaseId now)
    · exact returns_perform (fun _ =>
        returns_pure ((htracked leaseId now).of_same ⟨rfl, rfl, .refl _⟩))
  refine (watches_of_only ((only_track spawn e).mono fun op hop => ?_) hrest).mono ?_
  · cases op <;> trivial
  · rintro e' w' ⟨h', rfl⟩
    exact h'

theorem watches_spawnWorker {task : Task} (h : Watched (task :: inFlight) e w) :
    Watches spawnTimeout (spawnWorker task e) w (Watched inFlight) := by
  unfold spawnWorker
  have hplaced : Watches spawnTimeout (lanePlacedElsewhere e task.laneKey) w
      (fun _ w' => True ∧ w' = w) := by
    refine watches_of_only ?_ (returns_true _)
    unfold lanePlacedElsewhere
    split
    · exact only_pure _
    · exact only_ask trivial (fun _ => only_pure _)
  refine meets_bind hplaced ?_
  rintro placed w ⟨-, rfl⟩
  split
  · exact watches_of_same h.drop (only_ask trivial fun _ => only_pure _)
      (returns_perform fun _ => returns_pure (SameWork.refl e))
  · rw [if_pos h.mode]
    unfold spawnHermesWorker
    dsimp only
    split
    · refine meets_bind (watches_queueForLane h) ?_
      rintro ⟨ok, e'⟩ w ⟨rfl, -, h'⟩
      exact meets_pure h'
    · refine meets_perform ⟨h.taken_up, h.tracked⟩ (fun popened w₁ hC => ?_)
      obtain ⟨v, -, hafter⟩ := hC
      cases popened with
      | notFound =>
          obtain rfl : w₁ = w := hafter
          dsimp only
          generalize "executor_error: hermes not found on PATH" = reason
          exact watches_reportFailure h.drop
      | raised message =>
          obtain rfl : w₁ = w := hafter
          dsimp only
          generalize "executor_error: " ++ message = reason
          exact watches_reportFailure h.drop
      | started => exact watches_track h hafter rfl rfl rfl rfl

theorem watches_claimCandidate {st : Nat × Executor} {task : Task}
    (h : Watched (task :: inFlight) st.2 w) :
    Watches spawnTimeout (claimCandidate st task) w (fun st' => Watched inFlight st'.2) := by
  obtain ⟨budget, e⟩ := st
  unfold claimCandidate
  dsimp only
  split
  · refine meets_bind (watches_queueForLane h) ?_
    rintro ⟨ok, e'⟩ w ⟨rfl, -, h'⟩
    exact meets_pure h'
  · split
    · exact meets_pure h.drop
    · exact meets_bind (watches_spawnWorker h) (fun e' w' h' => meets_pure h')

/-- The released heads are in flight until they are spawned or put back. -/
theorem watches_spawnReleased (maxSpawns : Nat) (h : Watched [] e w) :
    Watches spawnTimeout (spawnReleased maxSpawns e) w (Watched []) := by
  have hdrained := waiting_drainReleasedLanes e
  unfold spawnReleased
  let ready := (drainReleasedLanes e).1
  have hsplit : ready = ready.take maxSpawns ++ ready.drop maxSpawns :=
    (List.take_append_drop maxSpawns ready).symm
  have h₁ : Watched (ready.take maxSpawns ++ ready.drop maxSpawns) (drainReleasedLanes e).2 w := by
    rw [← hsplit]
    exact h.of_subperm rfl rfl hdrained.symm.subperm
  refine meets_bind (meets_foldlM (I := fun rest => Watched (rest ++ ready.drop maxSpawns)) _
    (fun task rest e' w' h' => watches_spawnWorker h') h₁) (fun e' w' h' => ?_)
  obtain ⟨hwaiting, -, hactive⟩ := waiting_putBack (ready.drop maxSpawns) e'
  exact meets_pure (h'.of_subperm (hermesWorker_putBack _ e') hactive hwaiting.subperm)

/-! ## Records -/

omit [Unicode] in
/-- The workers that some records stand for are attached. -/
theorem Watched.attach {records attached : List SpawnRecord} (h : Watched [] e w) (v : ReapView)
    (hhermes : ∀ r ∈ records, r.hermes = true) (hsub : attached ⊆ records)
    (hmode : e'.hermesWorker = e.hermesWorker) (hactive : e'.activeSpawns = e.activeSpawns)
    (hwaiting : e'.waiting = e.waiting) :
    Watched [] (attached.foldl reattachRecord e')
      (w.after (.getAllTaskSpawns e) v (some records)) := by
  have hrow : ∀ s ∈ (attached.foldl reattachRecord e').activeSpawns.rows,
      s ∈ e.activeSpawns.rows ∨ ∃ r ∈ records, s = SpawnRecord.toSpawn r := by
    intro s hs
    rcases (mem_foldl_reattachRecord e').2 hs with hold | ⟨r, hr, -, rfl⟩
    · exact .inl (hactive ▸ hold)
    · exact .inr ⟨r, hsub hr, rfl⟩
  have hkept : ∀ s ∈ e.activeSpawns.rows,
      s ∈ (attached.foldl reattachRecord e').activeSpawns.rows := fun s hs =>
    (mem_foldl_reattachRecord e').1 (hactive ▸ hs)
  obtain ⟨spawns, hspawns⟩ := exists_foldl_reattachRecord attached e'
  have hwaits : (attached.foldl reattachRecord e').waiting = e.waiting := by
    rw [hspawns]
    exact hwaiting
  have hold : ∀ s, (s ∈ e.activeSpawns.rows ∨ ∃ r ∈ records, s = SpawnRecord.toSpawn r) →
      s.standIn = false → s ∈ e.activeSpawns.rows := by
    rintro s (hs | ⟨r, -, rfl⟩) hown
    · exact hs
    · cases hown
  refine ⟨?_, fun id hid => ?_, fun s hs hown hmem => ?_, fun s hs => ?_, fun s hs => ?_, ?_,
    fun t ht s hs hown => ?_⟩
  · rw [hspawns]
    exact hmode.trans h.mode
  · obtain ⟨s, hs, hown, heq⟩ := h.tracked id hid
    exact ⟨s, hkept s hs, hown, heq⟩
  · have hs := hold s (hrow s hs) hown
    rcases List.mem_append.mp hmem with hmem | hmem
    · exact h.attached s hs hown hmem
    · -- a record of a task that is live is not attached
      obtain ⟨r, hr, heq⟩ := List.mem_map.mp (List.mem_filter.mp hmem).1
      have hfree := (List.mem_filter.mp hr).2
      rw [heq, ← ActiveSpawn.key_eq s, Table.get?_of_mem hs] at hfree
      cases hfree
  · rcases hrow s hs with hs | ⟨r, hr, rfl⟩
    · exact h.hermes s hs
    · exact hhermes r hr
  · rcases hrow s hs with hs | ⟨r, hr, rfl⟩
    · exact h.payload s hs
    · rfl
  · rw [hwaits]
    exact h.nodup
  · rw [hwaits] at ht
    exact h.apart t ht s (hold s (hrow s hs) hown) hown

/-- The store is read again. -/
theorem watches_refreshPersistedIds (h : Watched [] e w) :
    Watches spawnTimeout (refreshPersistedIds e) w (fun e' w' => Watched [] e' w' ∧
      e'.waiting = e.waiting ∧ ∀ s ∈ e'.activeSpawns.rows, s.standIn = false →
        s ∈ e.activeSpawns.rows) := by
  unfold refreshPersistedIds
  split
  · exact meets_pure ⟨h, rfl, fun s hs _ => hs⟩
  · exact meets_pure ⟨h, rfl, fun s hs _ => hs⟩
  · refine meets_perform trivial (fun now w₁ hC => ?_)
    obtain ⟨v, -, hafter⟩ := hC
    obtain rfl : w₁ = w := hafter
    split
    · exact meets_pure ⟨h, rfl, fun s hs _ => hs⟩
    · refine meets_perform h.tracked (fun records w₂ hC => ?_)
      obtain ⟨v, hreply, hafter⟩ := hC
      cases records with
      | none =>
          obtain rfl : w₂ = w₁ := hafter
          exact meets_pure ⟨h.of_same ⟨rfl, rfl, .refl _⟩, rfl, fun s hs _ => hs⟩
      | some records =>
          subst hafter
          dsimp only
          generalize hadded : records.filter _ = added
          have hsub : added ⊆ records := by
            rw [← hadded]
            exact List.filter_sublist.subset
          generalize hread : ({ e with
            persistedIds := recordIds records
            foreignSpawnIds := _
            lastPersistedRefresh := now } : Executor) = e₁
          have hactive : e₁.activeSpawns = e.activeSpawns := hread ▸ rfl
          have hwaiting : e₁.waiting = e.waiting := hread ▸ rfl
          obtain ⟨spawns, hspawns⟩ := exists_foldl_reattachRecord added e₁
          refine meets_pure ⟨h.attach v hreply hsub (hread ▸ rfl) hactive hwaiting, ?_, ?_⟩
          · rw [hspawns]
            exact hwaiting
          · intro s hs hown
            rcases (mem_foldl_reattachRecord e₁).2 hs with hold | ⟨r, -, -, rfl⟩
            · exact hactive ▸ hold
            · cases hown

theorem watches_claimListed (budget : Nat) (h : Watched [] e w) :
    Watches spawnTimeout (claimListed budget e) w (Watched []) := by
  unfold claimListed
  refine meets_perform h.tracked (fun tasks w₁ hC => ?_)
  obtain ⟨v, hreply, hafter⟩ := hC
  obtain rfl : w₁ = w := hafter
  cases tasks with
  | none => exact meets_pure h
  | some tasks =>
      refine meets_bind (watches_refreshPersistedIds h) ?_
      rintro e' w' ⟨h', hwaiting, hown⟩
      refine meets_bind (meets_foldlM (I := fun rest st => Watched rest st.2) claimCandidate
        (fun task rest st w'' h'' => watches_claimCandidate h'') ?_)
        (fun st w'' h'' => meets_pure h'')
      dsimp only
      generalize hclaimed : candidates e' tasks _ _ = claimed
      have hcandidate : ∀ t ∈ claimed, t.id ∉ e.waiting.map Task.id ∧
          ∀ s ∈ e.activeSpawns.rows, s.taskId ≠ t.id := by
        intro t ht
        rw [← hclaimed] at ht
        obtain ⟨-, hkeep⟩ := List.mem_filter.mp ((List.mem_insertionSort _).mp ht)
        simp only [Bool.and_eq_true, decide_eq_true_eq, List.mem_append, not_or] at hkeep
        refine ⟨hkeep.2, fun s hs heq => hkeep.1.2.1 ?_⟩
        exact List.mem_map.mpr ⟨s, hs, heq⟩
      have hdistinct : (claimed.map Task.id).Nodup := by
        rw [← hclaimed, candidates]
        refine ((List.perm_insertionSort _ _).map Task.id).nodup_iff.mpr ?_
        exact List.Nodup.sublist (List.filter_sublist.map Task.id) hreply
      refine { h' with nodup := ?_, apart := fun t ht s hs hs' => ?_ }
      · rw [List.map_append, List.nodup_append]
        refine ⟨hdistinct, h'.nodup, fun x hx y hy => ?_⟩
        rintro rfl
        obtain ⟨t, ht, rfl⟩ := List.mem_map.mp hx
        rw [hwaiting] at hy
        exact (hcandidate t ht).1 hy
      · rcases List.mem_append.mp ht with hclaim | hwaits
        · exact (hcandidate t hclaim).2 s (hown s hs hs')
        · exact h'.apart t hwaits s hs hs'

theorem watches_claimPass (h : Watched [] e w) :
    Watches spawnTimeout (claimPass e) w (Watched []) := by
  rw [claimPass_eq]
  split
  · refine meets_perform trivial (fun blocked w₁ hC => ?_)
    obtain ⟨v, -, hafter⟩ := hC
    obtain rfl : w₁ = w := hafter
    split
    · exact meets_pure h
    · unfold passThrough
      refine meets_bind (watches_spawnReleased _ h) (fun e' w' h' => ?_)
      dsimp only
      split
      · exact meets_pure h'
      · exact watches_claimListed _ h'
  · exact meets_pure h

/-! ## Runs -/

theorem watches_upkeep (h : Watched [] e w) :
    Watches spawnTimeout (upkeep e) w (Watched []) := by
  unfold upkeep
  refine meets_bind (watches_reapFinishedSpawns h) (fun e₁ w₁ h₁ => ?_)
  have hdrain : Watches spawnTimeout (drainPendingReports e₁) w₁ (Watched []) := by
    refine watches_of_same h₁ ((only_drainPendingReports e₁).mono fun op hop => ?_)
      (sameWork_drainPendingReports e₁)
    cases op <;> trivial
  refine meets_bind hdrain (fun e₂ w₂ h₂ => ?_)
  have hlanes : Watches spawnTimeout (sweepLaneQueues e₂) w₂ (Watched []) :=
    watches_of_same h₂ (only_ask trivial fun _ => only_pure _) (sameWork_sweepLaneQueues e₂)
  refine meets_bind hlanes (fun e₃ w₃ h₃ => ?_)
  have hrenew : Watches spawnTimeout (renewLeases e₃) w₃ (fun _ w' => True ∧ w' = w₃) := by
    refine watches_of_only ((only_renewLeases e₃).mono ?_) (returns_true _)
    rintro op ⟨leaseId, rfl⟩
    trivial
  refine meets_bind hrenew ?_
  rintro - w₃ ⟨-, rfl⟩
  exact meets_pure h₃

theorem watches_pollLoop (cycles : Nat) (h : Watched [] e w) :
    Watches spawnTimeout (pollLoop cycles e) w (Watched []) := by
  induction cycles generalizing e w with
  | zero => exact meets_pure h
  | succ cycles ih =>
      unfold pollLoop
      rw [pollOnce_eq]
      exact meets_bind (meets_bind (watches_upkeep h) fun _ _ => watches_claimPass) fun _ _ => ih

/-- An executor begins with the workers that its store tells it of. -/
theorem watches_start (cycles : Nat) (hfresh : Fresh e) (hmode : e.hermesWorker = true) :
    Watches spawnTimeout (start cycles e) {} (Watched []) := by
  have hwaiting : e.waiting = [] := by
    unfold waiting waitingIn
    rw [hfresh.queue, hfresh.released]
    rfl
  have hnone : ∀ s ∈ e.activeSpawns.rows, False := by
    intro s hs
    rw [hfresh.active] at hs
    cases hs
  have hstart : Watched [] e {} := by
    refine ⟨hmode, nofun, fun s hs => (hnone s hs).elim, fun s hs => (hnone s hs).elim,
      fun s hs => (hnone s hs).elim, ?_, fun _ _ s hs => (hnone s hs).elim⟩
    rw [hwaiting]
    exact List.nodup_nil
  have hreconcile : Watches spawnTimeout (reconcilePersistedSpawns e) {} (Watched []) := by
    unfold reconcilePersistedSpawns
    split
    · exact meets_pure hstart
    · refine meets_perform hstart.tracked (fun records w₁ hC => ?_)
      obtain ⟨v, hreply, hafter⟩ := hC
      cases records with
      | none =>
          obtain rfl : w₁ = {} := hafter
          exact meets_pure hstart
      | some records =>
          subst hafter
          refine meets_perform trivial (fun now w₂ hC => ?_)
          obtain ⟨v', -, hafter⟩ := hC
          subst hafter
          exact meets_pure (hstart.attach v hreply (List.Subset.refl records) rfl rfl rfl)
  unfold start
  exact meets_bind hreconcile fun _ _ => watches_pollLoop cycles

/-- Through any run of an executor that starts Hermes workers, whatever its store
and main answer: each of its own workers is tracked until it has exited or been
killed; no worker is started while one of the task is left; and a spawn is
dropped only when its worker is gone, or when it was attached from a record and
main has cancelled its task or its time is over. -/
theorem endsOwn_of_start {σ : Type} (step : (op : ExecOp) → σ → op.Res × σ)
    (view : σ → ActiveSpawn → ReapView) (spawnTimeout cycles : Nat) (e : Executor) (s : σ)
    (hfresh : Fresh e) (hmode : e.hermesWorker = true)
    (hreplies : ∀ op s, Workers.HermesReply spawnTimeout op (Workers.viewOf view s op)
      (step op s).1) :
    (start cycles e).Along (noting step (Workers.note step view))
        (fun s op _ => s.2.EndsOwn op) (s, {}) ∧
      After (noting step (Workers.note step view)) (start cycles e) (s, {})
        (fun e' s' => s'.2.Tracked e') := by
  have himplements : Implements (noting step (Workers.note step view)) Prod.snd
      (fun op w r w' => ∃ v, Workers.HermesReply spawnTimeout op v r ∧ w' = w.after op v r) :=
    fun op s => ⟨Workers.viewOf view s.1 op, hreplies op s.1, rfl⟩
  have hstart : Watches spawnTimeout (start cycles e) (Prod.snd (s, ({} : Workers)))
      (Watched []) := watches_start cycles hfresh hmode
  obtain ⟨halong, hafter⟩ := after_of_wp hstart (along_of_implements himplements _ _)
  exact ⟨halong, hafter.mono fun _ _ h => h.tracked⟩

end Watch

section Example

local instance asciiWorkers : Unicode := Unicode.ascii

/-- One task of a worker that never exits; `attached` says whether an earlier
life of the executor started it. The state says whether main has been asked for
the task. -/
def endlessWorld (attached : Bool) : (op : ExecOp) → Bool → op.Res × Bool
  | .time, b | .monotonic, b => (0, b)
  | .diskGateBlocks, b => (false, b)
  | .getTasks _, b =>
      (some (if b = true then [] else
        [{ id := "a", title := "a", status := .running, assignedTo := some "n",
           createdAt := 1, updatedAt := 1 }]), b)
  | .getTask _, _ =>
      (some { id := "a", title := "a", status := .cancelled, assignedTo := some "n",
              createdAt := 1, updatedAt := 1 }, true)
  | .getLane _, b | .getLeases, b => (none, b)
  | .extendLease _, b | .report _ _, b | .block _ _, b | .requeue _ _ _, b | .ackCancel _, b =>
      (true, b)
  | .release _ _ _, b | .kill _, b | .recordTaskSpawn _, b | .deleteTaskSpawn _, b => ((), b)
  | .popen _ _, b => (.started, b)
  | .observe _, b => (none, b)
  | .getAllTaskSpawns _, b =>
      (some (if attached = true then [{ taskId := "a", hermes := true }] else []), b)

theorem hermesReply_endlessWorld (attached : Bool) (op : ExecOp) (b : Bool) :
    Workers.HermesReply 10 op (Workers.viewOf (fun _ _ => {}) b op)
      (endlessWorld attached op b).1 := by
  cases op with
  | observe spawn =>
      refine fun _ => ⟨0, ?_⟩
      cases hstand : spawn.standIn <;>
        simp [endlessWorld, Workers.viewOf, reapHermesSpawn, poll, hstand]
  | getTasks e =>
      cases b with
      | false => exact List.nodup_singleton "a"
      | true => exact List.nodup_nil
  | getAllTaskSpawns e =>
      cases attached <;> simp [endlessWorld, Workers.HermesReply]
  | time | monotonic | getTask | getLeases | extendLease | report | block | requeue | ackCancel
  | release | diskGateBlocks | popen | kill | getLane | recordTaskSpawn
  | deleteTaskSpawn => trivial

theorem endsOwn_of_start_cancelled :
    (start 2 { nodeId := "n", hermesWorker := true }).Along
        (noting (endlessWorld false) (Workers.note (endlessWorld false) fun _ _ => {}))
        (fun s op _ => s.2.EndsOwn op) (false, {}) ∧
      After (noting (endlessWorld false) (Workers.note (endlessWorld false) fun _ _ => {}))
        (start 2 { nodeId := "n", hermesWorker := true }) (false, {})
        (fun e' s' => s'.2.Tracked e') :=
  endsOwn_of_start (endlessWorld false) (fun _ _ => {}) 10 2
    { nodeId := "n", hermesWorker := true } false ⟨rfl, rfl, rfl, rfl⟩ rfl
    (hermesReply_endlessWorld false)

/-- The worker of an earlier life still runs when its task is cancelled, and its
spawn is dropped without a kill. -/
theorem attached_dropped_alive :
    ¬(start 1 { nodeId := "n", hermesWorker := true }).Along
      (noting (endlessWorld true) (Workers.note (endlessWorld true) fun _ _ => {}))
      (fun s op _ => s.2.Ends op) (false, {}) := by
  decide +kernel

end Example

end HermesCluster
