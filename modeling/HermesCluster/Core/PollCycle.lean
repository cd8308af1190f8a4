import HermesCluster.Lib.Loop
import HermesCluster.Core.AgentExecutor
/-!
# The poll cycle

A poll is an upkeep, in which ended workers are reaped, reports retried, the
heads of free lanes released and leases renewed, and then a claim pass. Runs are
split there, since what a claim pass does depends on the executor that the
upkeep leaves; and what each part can ask for is said once.
-/

namespace HermesCluster

open Program hiding pure bind

-- whether a reason is blank is never computed below
attribute [local irreducible] Text.strip

namespace AgentExecutor

/-! ## The parts of a poll -/

/-- The slots of a cycle. -/
def slots (e : Executor) : Nat :=
  e.maxConcurrent - e.activeSpawns.rows.length

/-- The released heads that a claim pass takes up. -/
def takenUp (e : Executor) : List Task :=
  (drainReleasedLanes e).1.take (slots e)

/-! ## Records that are attached -/

/-- Attaching records changes only the live spawns. -/
theorem exists_foldl_reattachRecord (records : List SpawnRecord) (e : Executor) :
    ∃ spawns, records.foldl reattachRecord e = { e with activeSpawns := spawns } := by
  induction records generalizing e with
  | nil => exact ⟨e.activeSpawns, rfl⟩
  | cons record records ih =>
      obtain ⟨spawns, hspawns⟩ := ih (reattachRecord e record)
      refine ⟨spawns, hspawns.trans ?_⟩
      unfold reattachRecord
      split
      · rfl
      · rfl

/-- A live spawn stays, and a new one stands for a record of a task that had none. -/
theorem mem_foldl_reattachRecord {records : List SpawnRecord} {spawn : ActiveSpawn}
    (e : Executor) :
    (spawn ∈ e.activeSpawns.rows → spawn ∈ (records.foldl reattachRecord e).activeSpawns.rows) ∧
      (spawn ∈ (records.foldl reattachRecord e).activeSpawns.rows → spawn ∈ e.activeSpawns.rows ∨
        ∃ r ∈ records, r.taskId ≠ "" ∧ spawn = SpawnRecord.toSpawn r) := by
  induction records generalizing e with
  | nil => exact ⟨id, .inl⟩
  | cons record records ih =>
      obtain ⟨hkept, hnew⟩ := ih (reattachRecord e record)
      have hstep : (spawn ∈ e.activeSpawns.rows →
            spawn ∈ (reattachRecord e record).activeSpawns.rows) ∧
          (spawn ∈ (reattachRecord e record).activeSpawns.rows → spawn ∈ e.activeSpawns.rows ∨
            record.taskId ≠ "" ∧ spawn = SpawnRecord.toSpawn record) := by
        unfold reattachRecord
        split
        · exact ⟨id, .inl⟩
        · rename_i hattached
          obtain ⟨hne, hfree⟩ := not_or.mp hattached
          have hfree' : e.activeSpawns.get? record.taskId = none := by simpa using hfree
          refine ⟨fun h => ?_, fun h => ?_⟩
          · refine (Table.mem_rows_upsert _).mpr (.inr ⟨h, fun hkey => ?_⟩)
            exact Table.get?_eq_none_iff.mp hfree' spawn h hkey
          · exact ((Table.mem_rows_upsert _).mp h).elim (fun heq => .inr ⟨hne, heq⟩)
              (fun hold => .inl hold.1)
      refine ⟨fun h => hkept (hstep.1 h), fun h => ?_⟩
      rcases hnew h with h | ⟨r, hr, hne, heq⟩
      · exact (hstep.2 h).imp_right fun hrec => ⟨record, List.mem_cons_self, hrec⟩
      · exact .inr ⟨r, List.mem_cons_of_mem _ hr, hne, heq⟩

section Parts

variable [Unicode]

/-- A poll up to its claim pass. -/
def upkeep (e : Executor) : Exec Executor := do
  let e ← reapFinishedSpawns e
  let e ← drainPendingReports e
  let e ← sweepLaneQueues e
  renewLeases e
  pure e

/-- The rest of a poll. -/
def claimPass (e : Executor) : Exec Executor :=
  if 0 < slots e then claimAndSpawn (slots e) e else pure e

theorem pollOnce_eq (e : Executor) : pollOnce e = upkeep e >>= claimPass := by
  unfold pollOnce upkeep
  simp only [bind_assoc, pure_bind]
  all_goals rfl

theorem pollLoop_eq (cycles : Nat) (e : Executor) :
    pollLoop cycles e = iterate pollOnce cycles e := by
  induction cycles generalizing e with
  | zero => rfl
  | succ cycles ih =>
      unfold pollLoop iterate
      exact congrArg (pollOnce e >>= ·) (funext ih)

/-- The released heads are spawned as far as the slots go; the others go back. -/
def spawnReleased (maxSpawns : Nat) (e : Executor) : Exec Executor := do
  let (ready, e) := drainReleasedLanes e
  let e ← (ready.take maxSpawns).foldlM (fun e task => spawnWorker task e) e
  pure (putBack (ready.drop maxSpawns) e)

/-- What main lists is claimed with the slots that are left. -/
def claimListed (budget : Nat) (e : Executor) : Exec Executor := do
  match ← ask (.getTasks e) with
  | none => pure e
  | some tasks =>
      let activeTaskIds := e.activeSpawns.rows.map ActiveSpawn.taskId
      let queuedTaskIds := (e.laneQueue.rows.flatMap LaneFifo.tasks ++
        e.laneReleased.rows.flatMap LaneFifo.tasks).map Task.id
      let e ← refreshPersistedIds e
      let (_, e) ← (candidates e tasks (activeTaskIds ++ e.persistedIds)
        queuedTaskIds).foldlM claimCandidate (budget, e)
      pure e

theorem claimAndSpawn_eq (maxSpawns : Nat) (e : Executor) :
    claimAndSpawn maxSpawns e = (do
      if (← ask .diskGateBlocks) = true then pure e
      else
        let e' ← spawnReleased maxSpawns e
        let budget := maxSpawns - (drainReleasedLanes e).1.length
        if budget = 0 then pure e' else claimListed budget e') := by
  unfold claimAndSpawn spawnReleased
  refine congrArg (ask .diskGateBlocks >>= ·) (funext fun blocks => ?_)
  by_cases hblocks : blocks = true
  · rw [if_pos hblocks, if_pos hblocks]
  · rw [if_neg hblocks, if_neg hblocks]
    generalize drainReleasedLanes e = drained
    obtain ⟨ready, e'⟩ := drained
    refine Eq.trans ?_ (Program.bind_assoc _ _ _).symm
    rfl

/-- A claim pass that the disk gate lets through. -/
def passThrough (e : Executor) : Exec Executor := do
  let e' ← spawnReleased (slots e) e
  let budget := slots e - (drainReleasedLanes e).1.length
  if budget = 0 then pure e' else claimListed budget e'

theorem claimPass_eq (e : Executor) :
    claimPass e = if 0 < slots e then (do
      if (← ask .diskGateBlocks) = true then pure e else passThrough e) else pure e := by
  unfold claimPass
  rw [claimAndSpawn_eq]
  rfl

/-! ## What the parts change -/

omit [Unicode] in
theorem changes_queueReport (verb : ReportVerb) (taskId : String) (payload : ReportPayload)
    (e : Executor) : (queueReport verb taskId payload e).Returns
      (fun e' => ∃ pending, e' = { e with pendingReports := pending }) := by
  unfold queueReport
  refine returns_perform (fun ok => ?_)
  split
  · exact returns_pure ⟨e.pendingReports, rfl⟩
  · exact returns_perform (fun _ => returns_pure ⟨_, rfl⟩)

theorem changes_reportFailure (taskId reason : String) (e : Executor) :
    (reportFailure taskId reason e).Returns
      (fun e' => ∃ pending, e' = { e with pendingReports := pending }) := by
  unfold reportFailure
  split
  · exact returns_pure ⟨e.pendingReports, rfl⟩
  · exact changes_queueReport _ _ _ e

omit [Unicode] in
theorem changes_drainPendingReports (e : Executor) : (drainPendingReports e).Returns
    (fun e' => ∃ pending, e' = { e with pendingReports := pending }) := by
  unfold drainPendingReports
  refine returns_perform (fun now => returns_foldlM _ _ (fun e' entry hpending => ?_)
    ⟨e.pendingReports, rfl⟩)
  obtain ⟨pending, rfl⟩ := hpending
  unfold drainReport
  refine returns_perform (fun ok => ?_)
  dsimp only
  split
  · exact returns_pure ⟨pending, rfl⟩
  · split
    · exact returns_pure ⟨_, rfl⟩
    · split
      · exact returns_pure ⟨_, rfl⟩
      · exact returns_pure ⟨_, rfl⟩

omit [Unicode] in
theorem changes_queueForLane (laneKey : String) (task : Task) (attempts : Nat) (e : Executor) :
    (queueForLane laneKey task attempts e).Returns (fun r => ∃ queue queueMeta,
      r.2 = { e with laneQueue := queue, laneQueueMeta := queueMeta }) := by
  unfold queueForLane
  dsimp only
  split
  · exact returns_pure ⟨_, e.laneQueueMeta, rfl⟩
  · split
    · exact returns_pure ⟨_, e.laneQueueMeta, rfl⟩
    · exact returns_perform (fun _ => returns_pure ⟨_, _, rfl⟩)

omit [Unicode] in
theorem changes_dropPersistedSpawn (taskId : String) (e : Executor) :
    (dropPersistedSpawn taskId e).Returns
      (fun e' => ∃ ids, e' = { e with persistedIds := ids }) := by
  unfold dropPersistedSpawn
  split
  · exact returns_pure ⟨e.persistedIds, rfl⟩
  · exact returns_perform (fun _ => returns_pure ⟨_, rfl⟩)

omit [Unicode] in
theorem changes_persistSpawn (spawn : ActiveSpawn) (e : Executor) :
    (persistSpawn spawn e).Returns (fun e' => ∃ ids, e' = { e with persistedIds := ids }) := by
  unfold persistSpawn
  split
  · exact returns_pure ⟨e.persistedIds, rfl⟩
  · exact returns_perform (fun _ => returns_pure ⟨_, rfl⟩)

omit [Unicode] in
theorem changes_sweepLaneQueues (e : Executor) : (sweepLaneQueues e).Returns
    (fun e' => ∃ queue released, e' = { e with laneQueue := queue, laneReleased := released }) := by
  unfold sweepLaneQueues
  refine returns_perform (fun now => returns_pure ?_)
  generalize (e.activeSpawns.rows.map ActiveSpawn.laneKey).filter _ = busyLaneKeys
  generalize e.laneQueue.rows.map LaneFifo.laneKey = laneKeys
  have hhead : ∀ (e' : Executor) laneKey, ∃ queue released,
      releaseHead now busyLaneKeys e' laneKey =
        { e' with laneQueue := queue, laneReleased := released } := by
    intro e' laneKey
    unfold releaseHead
    split
    · exact ⟨e'.laneQueue, e'.laneReleased, rfl⟩
    · split
      · exact ⟨_, e'.laneReleased, rfl⟩
      · split
        · exact ⟨e'.laneQueue, e'.laneReleased, rfl⟩
        · exact ⟨_, _, rfl⟩
  suffices hall : ∀ (e' : Executor), ∃ queue released,
      laneKeys.foldl (releaseHead now busyLaneKeys) e' =
        { e' with laneQueue := queue, laneReleased := released } from hall e
  induction laneKeys with
  | nil => exact fun e' => ⟨e'.laneQueue, e'.laneReleased, rfl⟩
  | cons laneKey laneKeys ih =>
      intro e'
      obtain ⟨queue, released, hstep⟩ := hhead e' laneKey
      obtain ⟨queue', released', hrest⟩ := ih (releaseHead now busyLaneKeys e' laneKey)
      refine ⟨queue', released', ?_⟩
      rw [List.foldl_cons, hrest, hstep]

omit [Unicode] in
theorem exists_putBack (leftover : List Task) (e : Executor) :
    ∃ queue, putBack leftover e = { e with laneQueue := queue } := by
  induction leftover with
  | nil => exact ⟨e.laneQueue, rfl⟩
  | cons task leftover ih =>
      obtain ⟨queue, hrest⟩ := ih
      refine ⟨queue.upsert ⟨task.laneKey, task :: fifoOf queue task.laneKey⟩, ?_⟩
      have hstep : putBack (task :: leftover) e = { putBack leftover e with
          laneQueue := ((putBack leftover e).laneQueue.upsert
            ⟨task.laneKey, task :: fifoOf (putBack leftover e).laneQueue task.laneKey⟩) } := rfl
      rw [hstep, hrest]

omit [Unicode] in
theorem changes_refreshPersistedIds (e : Executor) : (refreshPersistedIds e).Returns
    (fun e' => ∃ spawns ids foreign last, e' = { e with
      activeSpawns := spawns, persistedIds := ids, foreignSpawnIds := foreign,
      lastPersistedRefresh := last }) := by
  unfold refreshPersistedIds
  split
  · exact returns_pure ⟨_, _, _, _, rfl⟩
  · exact returns_pure ⟨_, _, _, _, rfl⟩
  · refine returns_perform (fun now => ?_)
    split
    · exact returns_pure ⟨_, _, _, _, rfl⟩
    · refine returns_perform (fun reply => ?_)
      cases reply with
      | none => exact returns_pure ⟨_, _, _, _, rfl⟩
      | some records =>
          dsimp only
          obtain ⟨spawns, hspawns⟩ := exists_foldl_reattachRecord
            (records.filter (fun r => decide (r.taskId ∉ e.persistedIds))) _
          rw [hspawns]
          exact returns_pure ⟨_, _, _, _, rfl⟩

/-! ## Runs -/

section Runs

variable {σ : Type} {step : (op : ExecOp) → σ → op.Res × σ}

/-- From the disk gate and what it lets through to claim passes. -/
theorem claimPass_of_passThrough {C P : σ → ExecOp → σ → Prop} {I : Executor → σ → Prop}
    {e : Executor} {s : σ} (hI : I e s) (hgate : P s .diskGateBlocks (step .diskGateBlocks s).2)
    (hblocked : C s .diskGateBlocks (step .diskGateBlocks s).2 →
      I e (step .diskGateBlocks s).2)
    (hpass : (step .diskGateBlocks s).1 = false →
      C s .diskGateBlocks (step .diskGateBlocks s).2 →
      (passThrough e).Along step C (step .diskGateBlocks s).2 →
      (passThrough e).Along step P (step .diskGateBlocks s).2 ∧
        After step (passThrough e) (step .diskGateBlocks s).2 I)
    (hC : (claimPass e).Along step C s) :
    (claimPass e).Along step P s ∧ After step (claimPass e) s I := by
  rw [claimPass_eq] at hC ⊢
  by_cases hslots : 0 < slots e
  · rw [if_pos hslots] at hC ⊢
    obtain ⟨hhere, hlater⟩ := hC
    replace hlater : (if (step .diskGateBlocks s).1 = true then pure e
        else passThrough e).Along step C (step .diskGateBlocks s).2 := hlater
    suffices hrest : (if (step .diskGateBlocks s).1 = true then pure e
          else passThrough e).Along step P (step .diskGateBlocks s).2 ∧
        After step (if (step .diskGateBlocks s).1 = true then pure e else passThrough e)
          (step .diskGateBlocks s).2 I from
      ⟨⟨hgate, hrest.1⟩, hrest.2⟩
    by_cases hopen : (step .diskGateBlocks s).1 = true
    · rw [if_pos hopen]
      exact ⟨trivial, hblocked hhere⟩
    · rw [if_neg hopen] at hlater ⊢
      exact hpass (Bool.eq_false_iff.mpr hopen) hhere hlater
  · rw [if_neg hslots]
    exact ⟨trivial, hI⟩

/-- A condition on the executor and its environment where a claim pass begins. -/
def AtClaim (step : (op : ExecOp) → σ → op.Res × σ) (cond : Executor → σ → Prop) (e : Executor)
    (s : σ) : Prop :=
  After step (upkeep e) s cond

/-- In a run of some cycles each claim pass begins where `cond` holds. -/
def ClaimsMeet (step : (op : ExecOp) → σ → op.Res × σ) (cond : Executor → σ → Prop)
    (cycles : Nat) (e : Executor) (s : σ) : Prop :=
  After step (reconcilePersistedSpawns e) s
    (IterationsMeet step pollOnce (AtClaim step cond) cycles)

instance {cond : Executor → σ → Prop} [∀ e s, Decidable (cond e s)] (e : Executor) (s : σ) :
    Decidable (AtClaim step cond e s) :=
  inferInstanceAs (Decidable (After _ _ _ _))

instance {cond : Executor → σ → Prop} [∀ e s, Decidable (cond e s)] (cycles : Nat) (e : Executor)
    (s : σ) : Decidable (ClaimsMeet step cond cycles e s) :=
  inferInstanceAs (Decidable (After _ _ _ _))

theorem claimsMeet_noting {η : Type} {note : σ → ExecOp → σ → η → η}
    {cond : Executor → σ → Prop} {cycles : Nat} {e : Executor} {s : σ × η} :
    ClaimsMeet (noting step note) (fun e s => cond e s.1) cycles e s ↔
      ClaimsMeet step cond cycles e s.1 := by
  have hclaim : (AtClaim (noting step note) fun e (s : σ × η) => cond e s.1) =
      fun e s => AtClaim step cond e s.1 := by
    funext e s
    exact propext after_noting
  have hcycles : IterationsMeet (noting step note) pollOnce
        (AtClaim (noting step note) fun e (s : σ × η) => cond e s.1) cycles =
      fun e s => IterationsMeet step pollOnce (AtClaim step cond) cycles e s.1 := by
    rw [hclaim]
    funext e s
    exact propext iterationsMeet_noting
  unfold ClaimsMeet
  rw [hcycles]
  exact after_noting

/-- From the parts of a poll to runs. -/
theorem start_of_parts {C P : σ → ExecOp → σ → Prop} {I : Executor → σ → Prop}
    {cond : Executor → σ → Prop}
    (hupkeep : ∀ e s, I e s → (upkeep e).Along step C s →
      (upkeep e).Along step P s ∧ After step (upkeep e) s I)
    (hclaim : ∀ e s, I e s → cond e s → (claimPass e).Along step C s →
      (claimPass e).Along step P s ∧ After step (claimPass e) s I)
    {cycles : Nat} {e : Executor} {s : σ} (hcond : ClaimsMeet step cond cycles e s)
    (hstart : (reconcilePersistedSpawns e).Along step C s →
      (reconcilePersistedSpawns e).Along step P s ∧ After step (reconcilePersistedSpawns e) s I)
    (hC : (start cycles e).Along step C s) :
    (start cycles e).Along step P s ∧ After step (start cycles e) s I := by
  have hpoll : ∀ e s, I e s → AtClaim step cond e s → (pollOnce e).Along step C s →
      (pollOnce e).Along step P s ∧ After step (pollOnce e) s I := by
    intro e s hI hat hC
    rw [pollOnce_eq, along_bind] at hC
    obtain ⟨halong, hafter⟩ := hupkeep e s hI hC.1
    have hrest : After step (upkeep e) s (fun e' s' =>
        (claimPass e').Along step P s' ∧ After step (claimPass e') s' I) := by
      refine after_iff.mpr (fun e' hrun => ?_)
      exact hclaim e' _ (after_of_ok hafter hrun) (after_of_ok hat hrun) (after_of_ok hC.2 hrun)
    rw [pollOnce_eq, along_bind, after_bind]
    exact ⟨⟨halong, hrest.mono fun _ _ h => h.1⟩, hrest.mono fun _ _ h => h.2⟩
  unfold start at hC ⊢
  rw [along_bind] at hC ⊢
  rw [after_bind]
  obtain ⟨halong, hafter⟩ := hstart hC.1
  have hrest : After step (reconcilePersistedSpawns e) s (fun e' s' =>
      (pollLoop cycles e').Along step P s' ∧ After step (pollLoop cycles e') s' I) := by
    refine after_iff.mpr (fun e' hrun => ?_)
    have hlater := after_of_ok hC.2 hrun
    rw [pollLoop_eq] at hlater ⊢
    exact iterate_of_body hpoll (after_of_ok hafter hrun) (after_of_ok hcond hrun) hlater
  exact ⟨⟨halong, hrest.mono fun _ _ h => h.1⟩, hrest.mono fun _ _ h => h.2⟩

end Runs

omit [Unicode] in
theorem end_of_after {σ α : Type} {step : (op : ExecOp) → σ → op.Res × σ} {p : Exec α} {s : σ}
    {I : σ → Prop} (h : After step p s (fun _ s' => I s')) : I (p.run step s).2 := by
  cases hrun : (p.run step s).1 with
  | ok a => exact after_of_ok h hrun
  | error e => cases e

/-! ## What the parts ask for -/

omit [Unicode] in
/-- What a program returns, with an assertion that each of its operations keeps. -/
theorem wp_of_only {α : Type} {β : Type} {C : (op : ExecOp) → β → op.Res → β → Prop}
    {A : β → ExecOp → Prop} {S : ExecOp → Prop} {I : β → Prop} {Q : α → Prop} {p : Exec α} {b : β}
    (h : p.Only S) (hQ : p.Returns Q) (hI : I b) (hA : ∀ {b op}, I b → S op → A b op)
    (hstep : ∀ {op b r b'}, I b → S op → C op b r b' → I b') :
    p.Wp C A b (fun r b' => ∃ a, r = .ok a ∧ Q a ∧ I b') := by
  refine (h.wp_of_returns hQ hI hA hstep).mono (fun r b' hr => ?_)
  cases r with
  | ok a => exact ⟨a, rfl, hr.1 a rfl, hr.2⟩
  | error e => cases e

/-- The operations of the cancel sweep. -/
def SweepOp : ExecOp → Prop
  | .getTask _ | .kill _ | .deleteTaskSpawn _ | .ackCancel _ => True
  | _ => False

/-- The operations of the reap of a spawn. -/
def ReapOp : ExecOp → Prop
  | .time | .monotonic | .deleteTaskSpawn _ | .report _ _ | .block _ _ | .requeue _ _ _ => True
  | _ => False

/-- The operations of the retries. -/
def ReportOp : ExecOp → Prop
  | .monotonic | .report _ _ => True
  | _ => False

/-- The operations of the upkeep. -/
def UpkeepOp : ExecOp → Prop
  | .diskGateBlocks | .getTasks _ | .popen _ _ | .getAllTaskSpawns _ | .release _ _ _ => False
  | _ => True

omit [Unicode] in
theorem SweepOp.upkeep {op : ExecOp} (h : SweepOp op) : UpkeepOp op := by
  cases op <;> trivial

omit [Unicode] in
theorem ReapOp.upkeep {op : ExecOp} (h : ReapOp op) : UpkeepOp op := by
  cases op <;> trivial

omit [Unicode] in
theorem ReportOp.upkeep {op : ExecOp} (h : ReportOp op) : UpkeepOp op := by
  cases op <;> trivial

/-- The operations of a spawn of the task. -/
def SpawnOp (task : Task) : ExecOp → Prop
  | .popen _ t => t = task
  | .getLane _ | .release _ _ _ | .report _ _ | .monotonic | .time | .getLeases
  | .recordTaskSpawn _ => True
  | _ => False

omit [Unicode] in
theorem only_ask {α : Type} {S : ExecOp → Prop} {op : ExecOp} {f : op.Res → Exec α} (hop : S op)
    (h : ∀ r, (f r).Only S) : (ask op >>= f).Only S :=
  only_perform hop h

omit [Unicode] in
theorem only_queueReport {S : ExecOp → Prop} (verb : ReportVerb) (taskId : String)
    (payload : ReportPayload) (e : Executor) (hreport : ∀ path, S (.report path payload))
    (hclock : S .monotonic) : (queueReport verb taskId payload e).Only S := by
  unfold queueReport
  refine only_ask (hreport _) (fun ok => ?_)
  split
  · exact only_pure _
  · exact only_ask hclock (fun _ => only_pure _)

theorem only_reportFailure {S : ExecOp → Prop} (taskId reason : String) (e : Executor)
    (hreport : ∀ path payload, S (.report path payload)) (hclock : S .monotonic) :
    (reportFailure taskId reason e).Only S := by
  unfold reportFailure
  split
  · exact only_pure _
  · exact only_queueReport _ _ _ _ (fun path => hreport path _) hclock

omit [Unicode] in
theorem only_queueForLane {S : ExecOp → Prop} (laneKey : String) (task : Task) (attempts : Nat)
    (e : Executor) (hclock : S .time) : (queueForLane laneKey task attempts e).Only S := by
  unfold queueForLane
  dsimp only
  split
  · exact only_pure _
  · split
    · exact only_pure _
    · exact only_ask hclock (fun _ => only_pure _)

omit [Unicode] in
theorem only_dropPersistedSpawn {S : ExecOp → Prop} (taskId : String) (e : Executor)
    (hdrop : S (.deleteTaskSpawn taskId)) : (dropPersistedSpawn taskId e).Only S := by
  unfold dropPersistedSpawn
  split
  · exact only_pure _
  · exact only_ask hdrop (fun _ => only_pure _)

omit [Unicode] in
theorem only_killSpawnProcess {S : ExecOp → Prop} (spawn : ActiveSpawn) (hkill : S (.kill spawn)) :
    (killSpawnProcess spawn).Only S := by
  unfold killSpawnProcess
  split
  · exact only_pure _
  · exact only_ask hkill (fun _ => only_pure _)

/-- What the two readings of the store ask for. -/
def StoreRead (op : ExecOp) : Prop :=
  op = .time ∨ ∃ e, op = .getAllTaskSpawns e

omit [Unicode] in
theorem only_reconcilePersistedSpawns (e : Executor) :
    (reconcilePersistedSpawns e).Only StoreRead := by
  unfold reconcilePersistedSpawns
  split
  · exact only_pure _
  · refine only_ask (.inr ⟨e, rfl⟩) (fun records => ?_)
    split
    · exact only_pure _
    · exact only_ask (.inl rfl) (fun _ => only_pure _)

omit [Unicode] in
theorem only_refreshPersistedIds (e : Executor) : (refreshPersistedIds e).Only StoreRead := by
  unfold refreshPersistedIds
  split
  · exact only_pure _
  · exact only_pure _
  · refine only_ask (.inl rfl) (fun now => ?_)
    split
    · exact only_pure _
    · refine only_ask (.inr ⟨e, rfl⟩) (fun records => ?_)
      split
      · exact only_pure _
      · exact only_pure _

omit [Unicode] in
theorem only_sweepCancelled (e : Executor) (spawn : ActiveSpawn) :
    (sweepCancelled e spawn).Only SweepOp := by
  unfold sweepCancelled
  refine only_ask trivial (fun row => ?_)
  cases row with
  | none => exact only_pure _
  | some row =>
      dsimp only
      split
      · exact only_pure _
      · refine only_bind (only_killSpawnProcess spawn trivial) (fun _ => ?_)
        refine only_bind (only_dropPersistedSpawn _ _ trivial) (fun e' => ?_)
        split
        · exact only_ask trivial (fun _ => only_pure _)
        · exact only_pure _

omit [Unicode] in
theorem only_observeAll (spawns : List ActiveSpawn) : (observeAll spawns).Only UpkeepOp := by
  induction spawns with
  | nil => exact only_pure _
  | cons spawn spawns ih =>
      unfold observeAll
      refine only_ask trivial (fun seen => only_bind ?_ (fun _ => only_bind ih (fun rest => ?_)))
      · unfold killTimedOut
        split
        · exact only_killSpawnProcess spawn trivial
        · exact only_pure _
      · split
        · exact only_pure _
        · exact only_pure _

theorem only_reapOne (e : Executor) (resolved : ActiveSpawn × Resolution) :
    (reapOne e resolved).Only ReapOp := by
  have hdrop : ∀ id e, (dropPersistedSpawn id e).Only ReapOp :=
    fun id e => only_dropPersistedSpawn id e trivial
  have hcomplete : ∀ id result e, (reportCompletion id result e).Only ReapOp :=
    fun id result e => only_queueReport _ _ _ _ (fun _ => trivial) trivial
  have hfail : ∀ id reason e, (reportFailure id reason e).Only ReapOp :=
    fun id reason e => only_reportFailure id reason e (fun _ _ => trivial) trivial
  obtain ⟨spawn, r⟩ := resolved
  unfold reapOne
  dsimp only
  split
  · refine only_bind ?_ (fun requeued => ?_)
    · unfold requeueBusyRefusal
      dsimp only
      split
      · exact only_pure _
      · refine only_bind (only_queueForLane _ _ _ _ trivial) (fun queued => ?_)
        split
        · exact only_bind (hdrop _ _) (fun _ => only_pure _)
        · exact only_pure _
    · split
      · exact only_pure _
      · refine only_bind (hdrop _ _) (fun e' => ?_)
        generalize "lane " ++ spawn.laneKey ++ _ ++ r.detail = reason
        exact hfail _ reason _
  · refine only_bind (hdrop _ _) (fun e' => ?_)
    split
    · exact hcomplete _ _ _
    · exact hcomplete _ _ _
    · unfold reportBlocked
      split
      · exact hcomplete _ _ _
      · exact only_ask trivial (fun _ => only_pure _)
    · exact only_ask trivial (fun _ => only_pure _)
    · generalize "lane " ++ spawn.laneName ++ ": " ++ r.detail = reason
      exact hfail _ reason _

theorem only_reapFinishedSpawns (e : Executor) : (reapFinishedSpawns e).Only UpkeepOp := by
  unfold reapFinishedSpawns
  split
  · exact only_pure _
  · refine only_bind ((only_foldlM _ only_sweepCancelled e).mono fun _ => SweepOp.upkeep)
      (fun e' => ?_)
    split
    · exact only_pure _
    · refine only_bind (only_observeAll _) (fun resolved => ?_)
      exact (only_foldlM resolved only_reapOne e').mono fun _ => ReapOp.upkeep

omit [Unicode] in
theorem only_drainPendingReports (e : Executor) : (drainPendingReports e).Only ReportOp := by
  unfold drainPendingReports
  refine only_ask trivial (fun now => only_foldlM _ (fun e entry => ?_) e)
  unfold drainReport
  refine only_ask trivial (fun ok => ?_)
  split
  · exact only_pure _
  · dsimp only
    split
    · exact only_pure _
    · split
      · exact only_pure _
      · exact only_pure _

omit [Unicode] in
theorem only_renewLeases (e : Executor) :
    (renewLeases e).Only (fun op => ∃ leaseId, op = .extendLease leaseId) := by
  refine only_forM _ (fun spawn => ?_)
  unfold renewLease
  split
  · exact only_pure _
  · exact only_ask ⟨_, rfl⟩ (fun _ => only_pure _)

theorem only_upkeep (e : Executor) : (upkeep e).Only UpkeepOp := by
  unfold upkeep
  refine only_bind (only_reapFinishedSpawns e) (fun e₁ => ?_)
  refine only_bind ((only_drainPendingReports e₁).mono fun _ => ReportOp.upkeep) (fun e₂ => ?_)
  refine only_bind (only_ask trivial (fun _ => only_pure _)) (fun e₃ => ?_)
  refine only_bind ((only_renewLeases e₃).mono ?_) (fun _ => only_pure _)
  rintro op ⟨leaseId, rfl⟩
  trivial

/-- The operations that track a worker that was started. -/
def TrackOp : ExecOp → Prop
  | .getLeases | .time | .recordTaskSpawn _ => True
  | _ => False

omit [Unicode] in
theorem only_track (spawn : ActiveSpawn) (e : Executor) : (track spawn e).Only TrackOp := by
  unfold track findLeaseForTask
  refine only_bind (only_ask trivial (fun leases => ?_)) (fun leaseId => ?_)
  · split
    · exact only_pure _
    · exact only_pure _
  · refine only_ask trivial (fun now => ?_)
    unfold persistSpawn
    dsimp only
    split
    · exact only_pure _
    · exact only_ask trivial (fun _ => only_pure _)

/-- A spawn of a task starts a worker for no other task. -/
theorem only_spawnWorker (task : Task) (e : Executor) :
    (spawnWorker task e).Only (SpawnOp task) := by
  have hfail : ∀ reason e, (reportFailure task.id reason e).Only (SpawnOp task) :=
    fun reason e => only_reportFailure task.id reason e (fun _ _ => trivial) trivial
  have htrack : ∀ spawn e, (track spawn e).Only (SpawnOp task) := by
    refine fun spawn e => (only_track spawn e).mono (fun op hop => ?_)
    cases op <;> trivial
  unfold spawnWorker
  refine only_bind ?_ (fun placed => ?_)
  · unfold lanePlacedElsewhere
    split
    · exact only_pure _
    · exact only_ask trivial (fun _ => only_pure _)
  · split
    · exact only_ask trivial (fun _ => only_pure _)
    · split
      · unfold spawnHermesWorker
        dsimp only
        split
        · exact only_bind (only_queueForLane _ _ _ _ trivial) (fun _ => only_pure _)
        · refine only_ask rfl (fun result => ?_)
          split
          · generalize "executor_error: hermes not found on PATH" = reason
            exact hfail reason e
          · generalize "executor_error: " ++ _ = reason
            exact hfail reason e
          · exact htrack _ _
      · unfold spawnBdayaWorker
        refine only_ask rfl (fun result => ?_)
        split
        · generalize "executor_error: npx not found on PATH" = reason
          exact hfail reason e
        · generalize "executor_error: " ++ _ = reason
          exact hfail reason e
        · exact htrack _ _

end Parts

end AgentExecutor

end HermesCluster
