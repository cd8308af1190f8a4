import HermesCluster.Core.LaneOrder
import HermesCluster.Core.VerdictReaders
/-!
# Busy refusals

A worker that its lane refuses is not a failure: its task waits its turn again,
five times. Whether it does is decided by the room in the queue of the lane; a
history of the refusals says how many of them a task has had.
-/

namespace HermesCluster

open Program hiding pure bind
open Executor AgentExecutor VerdictReaders

-- whether a reason is blank is never computed below
attribute [local irreducible] Text.strip

/-! ## Refusals -/

/-- The tasks whose workers were refused by their lanes, one entry each time. -/
def noteRefusal (op : ExecOp) (r : op.Res) (refused : List String) : List String :=
  match op, r with
  | .observe spawn, some seen =>
      if seen.outcome = .laneBusyRefused then refused ++ [spawn.taskId] else refused
  | _, _ => refused

/-- An environment with the history of the refusals. -/
abbrev countRefusals {σ : Type} (step : (op : ExecOp) → σ → op.Res × σ) (op : ExecOp)
    (s : σ × List String) : op.Res × (σ × List String) :=
  noting step (fun s op _ refused => noteRefusal op (step op s).1 refused) op s

/-- Refused by its lane, for at most the fifth time. -/
def Retries (x : ActiveSpawn × Resolution) (refused : List String) : Prop :=
  x.2.outcome = .laneBusyRefused ∧ refused.count x.1.taskId ≤ laneBusyMaxRetries

/-- Main is told of a task that has ended, or is to be delivered again. -/
def TellsMain : ExecOp → Prop
  | .report _ _ | .block _ _ | .requeue _ _ _ => True
  | _ => False

instance (x : ActiveSpawn × Resolution) (refused : List String) : Decidable (Retries x refused) :=
  inferInstanceAs (Decidable (_ ∧ _))

instance : DecidablePred TellsMain := by
  intro op
  induction op using ExecOp.casesOn with
  | report | block | requeue => exact isTrue trivial
  | _ => exact isFalse id

section Runs

variable {σ : Type} {step : (op : ExecOp) → σ → op.Res × σ}

/-- A retry finds room in the queue of its lane. -/
def RetryHasRoom (e : Executor) (x : ActiveSpawn × Resolution) (s : σ × List String) : Prop :=
  Retries x s.2 → (fifoOf e.laneQueue x.1.laneKey).length < laneQueueLimit

variable [Unicode]

/-- A retry waits in a lane queue, and main is told nothing. -/
def RetryWaits (step : (op : ExecOp) → σ → op.Res × σ) (e : Executor)
    (x : ActiveSpawn × Resolution) (s : σ × List String) : Prop :=
  Retries x s.2 →
    (reapOne e x).Along (countRefusals step) (fun _ op _ => ¬TellsMain op) s ∧
      After (countRefusals step) (reapOne e x) s (fun e' _ => e'.Waits x.1.taskId)

/-- Each spawn that a reap resolves meets a condition on where it is dealt with. -/
def AtReap (step : (op : ExecOp) → σ → op.Res × σ)
    (cond : Executor → ActiveSpawn × Resolution → σ → Prop) (e : Executor) (s : σ) : Prop :=
  e.activeSpawns.rows ≠ [] → After step (e.activeSpawns.rows.foldlM sweepCancelled e) s
    (fun e s => e.activeSpawns.rows ≠ [] → After step (observeAll e.activeSpawns.rows) s
      (fun resolved s => StepsMeet step reapOne cond resolved e s))

/-- In a run of some cycles each resolved spawn meets the condition. -/
def ReapsMeet (step : (op : ExecOp) → σ → op.Res × σ)
    (cond : Executor → ActiveSpawn × Resolution → σ → Prop) (cycles : Nat) (e : Executor)
    (s : σ) : Prop :=
  After step (reconcilePersistedSpawns e) s
    (IterationsMeet step pollOnce (AtReap step cond) cycles)

instance (e : Executor) (x : ActiveSpawn × Resolution) (s : σ × List String) :
    Decidable (RetryHasRoom e x s) :=
  inferInstanceAs (Decidable (_ → _))

instance (e : Executor) (x : ActiveSpawn × Resolution) (s : σ × List String) :
    Decidable (RetryWaits step e x s) :=
  inferInstanceAs (Decidable (_ → _ ∧ _))

instance {cond : Executor → ActiveSpawn × Resolution → σ → Prop}
    [∀ e x s, Decidable (cond e x s)] (e : Executor) (s : σ) :
    Decidable (AtReap step cond e s) :=
  inferInstanceAs (Decidable (_ → _))

instance {cond : Executor → ActiveSpawn × Resolution → σ → Prop}
    [∀ e x s, Decidable (cond e x s)] (cycles : Nat) (e : Executor) (s : σ) :
    Decidable (ReapsMeet step cond cycles e s) :=
  inferInstanceAs (Decidable (After _ _ _ _))

end Runs

/-! ## The attempts that are counted -/

/-- No more attempts are counted of a task than it has had refusals. -/
structure Counted (refused : List String) (e : Executor) : Prop where
  active : ∀ s ∈ e.activeSpawns.rows, s.busyAttempts ≤ refused.count s.taskId
  payload : ∀ s ∈ e.activeSpawns.rows, ∀ t, s.taskPayload = some t → t.id = s.taskId
  queued : ∀ m ∈ e.laneQueueMeta.rows, m.attempts ≤ refused.count m.taskId

section Counted

variable {refused : List String} {e e' : Executor}

theorem Counted.of_subset (h : Counted refused e)
    (hactive : ∀ s ∈ e'.activeSpawns.rows, s ∈ e.activeSpawns.rows)
    (hmeta : ∀ m ∈ e'.laneQueueMeta.rows, m ∈ e.laneQueueMeta.rows) : Counted refused e' :=
  ⟨fun s hs => h.active s (hactive s hs), fun s hs => h.payload s (hactive s hs),
    fun m hm => h.queued m (hmeta m hm)⟩

theorem Counted.mono {refused' : List String} (h : Counted refused e)
    (hle : ∀ id, refused.count id ≤ refused'.count id) : Counted refused' e :=
  ⟨fun s hs => (h.active s hs).trans (hle _), h.payload, fun m hm => (h.queued m hm).trans (hle _)⟩

theorem Counted.track (spawn : ActiveSpawn) (h : Counted refused e)
    (hattempts : spawn.busyAttempts ≤ refused.count spawn.taskId)
    (hpayload : ∀ t, spawn.taskPayload = some t → t.id = spawn.taskId) :
    Counted refused { e with activeSpawns := e.activeSpawns.upsert spawn } := by
  refine ⟨fun s hs => ?_, fun s hs => ?_, h.queued⟩
  · rcases e.activeSpawns.mem_rows_upsert.mp hs with rfl | ⟨hold, -⟩
    · exact hattempts
    · exact h.active s hold
  · rcases e.activeSpawns.mem_rows_upsert.mp hs with rfl | ⟨hold, -⟩
    · exact hpayload
    · exact h.payload s hold

theorem Counted.attach (records : List SpawnRecord) (h : Counted refused e) :
    Counted refused (records.foldl reattachRecord e) := by
  obtain ⟨spawns, hspawns⟩ := exists_foldl_reattachRecord records e
  have hmem : ∀ s ∈ (records.foldl reattachRecord e).activeSpawns.rows,
      s ∈ e.activeSpawns.rows ∨ ∃ r ∈ records, r.taskId ≠ "" ∧ s = SpawnRecord.toSpawn r :=
    fun s hs => (mem_foldl_reattachRecord e).2 hs
  have hmeta : (records.foldl reattachRecord e).laneQueueMeta = e.laneQueueMeta := by
    rw [hspawns]
  refine ⟨fun s hs => ?_, fun s hs => ?_, hmeta ▸ h.queued⟩
  · rcases hmem s hs with hold | ⟨r, -, -, rfl⟩
    · exact h.active s hold
    · exact Nat.zero_le _
  · rcases hmem s hs with hold | ⟨r, -, -, rfl⟩
    · exact h.payload s hold
    · exact fun t ht => by cases ht

theorem Counted.attempts_le (h : Counted refused e) (taskId : String) :
    ((e.laneQueueMeta.get? taskId).map QueueMeta.attempts).getD 0 ≤ refused.count taskId := by
  cases hget : e.laneQueueMeta.get? taskId with
  | none => exact Nat.zero_le _
  | some m =>
      have hkey : m.taskId = taskId := Table.key_of_get? hget
      rw [← hkey]
      exact h.queued m (Table.mem_of_get? hget)

theorem counted_queueForLane {laneKey : String} {task : Task} {attempts : Nat}
    (h : Counted refused e) (hattempts : attempts ≤ refused.count task.id) :
    (queueForLane laneKey task attempts e).Returns (fun r => Counted refused r.2) := by
  unfold queueForLane
  dsimp only
  split
  · exact returns_pure (h.of_subset (fun _ hs => hs) (fun _ hm => hm))
  · split
    · exact returns_pure (h.of_subset (fun _ hs => hs) (fun _ hm => hm))
    · refine returns_perform (fun now => returns_pure ⟨h.active, h.payload, fun m hm => ?_⟩)
      rcases e.laneQueueMeta.mem_rows_upsert.mp hm with rfl | ⟨hold, -⟩
      · exact hattempts
      · exact h.queued m hold

theorem counted_dropPersistedSpawn (taskId : String) (h : Counted refused e) :
    (dropPersistedSpawn taskId e).Returns (Counted refused) := by
  refine (changes_dropPersistedSpawn taskId e).mono ?_
  rintro e' ⟨ids, rfl⟩
  exact h.of_subset (fun _ hs => hs) (fun _ hm => hm)

theorem counted_queueReport (verb : ReportVerb) (taskId : String) (payload : ReportPayload)
    (h : Counted refused e) :
    (queueReport verb taskId payload e).Returns (Counted refused) := by
  refine (changes_queueReport verb taskId payload e).mono ?_
  rintro e' ⟨pending, rfl⟩
  exact h.of_subset (fun _ hs => hs) (fun _ hm => hm)

theorem counted_sweepCancelled (spawn : ActiveSpawn) (h : Counted refused e) :
    (sweepCancelled e spawn).Returns (Counted refused) := by
  have herased : ∀ e', Counted refused e' →
      Counted refused { e' with laneQueueMeta := e'.laneQueueMeta.erase spawn.taskId } :=
    fun e' h' => h'.of_subset (fun _ hs => hs)
      (fun _ hm => (e'.laneQueueMeta.mem_rows_erase.mp hm).1)
  unfold sweepCancelled
  refine returns_perform (fun row => ?_)
  cases row with
  | none => exact returns_pure h
  | some row =>
      dsimp only
      split
      · exact returns_pure h
      · refine returns_bind (returns_true _) (fun _ _ => ?_)
        have hless : Counted refused
            { e with activeSpawns := e.activeSpawns.erase spawn.taskId } :=
          h.of_subset (fun _ hs => (e.activeSpawns.mem_rows_erase.mp hs).1) (fun _ hm => hm)
        refine returns_bind (counted_dropPersistedSpawn spawn.taskId hless) (fun e' h' => ?_)
        split
        · exact returns_perform (fun _ => returns_pure (herased e' h'))
        · exact returns_pure (herased e' h')

theorem counted_drainPendingReports (h : Counted refused e) :
    (drainPendingReports e).Returns (Counted refused) := by
  refine (changes_drainPendingReports e).mono ?_
  rintro e' ⟨pending, rfl⟩
  exact h.of_subset (fun _ hs => hs) (fun _ hm => hm)

theorem counted_sweepLaneQueues (h : Counted refused e) :
    (sweepLaneQueues e).Returns (Counted refused) := by
  refine (changes_sweepLaneQueues e).mono ?_
  rintro e' ⟨queue, released, rfl⟩
  exact h.of_subset (fun _ hs => hs) (fun _ hm => hm)

theorem counted_reconcilePersistedSpawns (h : Counted refused e) :
    (reconcilePersistedSpawns e).Returns (Counted refused) := by
  unfold reconcilePersistedSpawns
  split
  · exact returns_pure h
  · refine returns_perform (fun records => ?_)
    cases records with
    | none => exact returns_pure h
    | some records =>
        refine returns_perform (fun now => returns_pure (Counted.attach records ?_))
        exact h.of_subset (fun _ hs => hs) (fun _ hm => hm)

theorem counted_refreshPersistedIds (h : Counted refused e) :
    (refreshPersistedIds e).Returns (Counted refused) := by
  have hsame : ∀ ids foreign last, Counted refused { e with
      persistedIds := ids, foreignSpawnIds := foreign, lastPersistedRefresh := last } :=
    fun ids foreign last => h.of_subset (fun _ hs => hs) (fun _ hm => hm)
  unfold refreshPersistedIds
  split
  · exact returns_pure h
  · exact returns_pure h
  · refine returns_perform (fun now => ?_)
    split
    · exact returns_pure h
    · refine returns_perform (fun records => ?_)
      cases records with
      | none => exact returns_pure (hsame e.persistedIds e.foreignSpawnIds now)
      | some records => exact returns_pure (Counted.attach _ (hsame _ _ now))

end Counted

/-! ## The reap of a refused worker -/

section Reap

variable {refused : List String} {e e' : Executor}

theorem busyPayload_id {spawn : ActiveSpawn}
    (h : ∀ t, spawn.taskPayload = some t → t.id = spawn.taskId) :
    (busyPayload spawn).id = spawn.taskId := by
  unfold busyPayload
  cases hpayload : spawn.taskPayload with
  | none => rfl
  | some t => exact h t hpayload

/-- The executor once a spawn is resolved. -/
def untrack (e : Executor) (taskId : String) : Executor :=
  { e with
    activeSpawns := e.activeSpawns.erase taskId
    laneQueueMeta := e.laneQueueMeta.erase taskId }

theorem Counted.untrack (h : Counted refused e) (taskId : String) :
    Counted refused (untrack e taskId) :=
  h.of_subset (fun _ hs => (e.activeSpawns.mem_rows_erase.mp hs).1)
    (fun _ hm => (e.laneQueueMeta.mem_rows_erase.mp hm).1)

/-- A resolved spawn as a reap finds it: its attempts do not count the refusal
that it may just have had. -/
structure Countable (refused : List String) (x : ActiveSpawn × Resolution) : Prop where
  attempts : x.2.outcome = .laneBusyRefused → x.1.busyAttempts + 1 ≤ refused.count x.1.taskId
  payload : ∀ t, x.1.taskPayload = some t → t.id = x.1.taskId

theorem waits_queueForLane (laneKey : String) (task : Task) (attempts : Nat)
    (hroom : (fifoOf e.laneQueue laneKey).length < laneQueueLimit) :
    (queueForLane laneKey task attempts e).Returns (fun r => r.1 = true ∧ r.2.Waits task.id) := by
  unfold queueForLane
  dsimp only
  rw [if_neg (Nat.not_le.mpr hroom)]
  split
  · rename_i hmem
    obtain ⟨t, ht, hid⟩ := List.any_eq_true.mp hmem
    refine returns_pure ⟨rfl, t, ?_, of_decide_eq_true hid⟩
    refine ((waitingIn_upsert_perm _ _ _ _).mem_iff).mpr (List.mem_append_left _ ht)
  · refine returns_perform (fun now => returns_pure ⟨rfl, task, ?_, rfl⟩)
    refine ((waitingIn_upsert_perm _ _ _ _).mem_iff).mpr (List.mem_append_left _ ?_)
    exact List.mem_append_right _ (List.mem_singleton_self task)

theorem waits_dropPersistedSpawn (taskId : String) {id : String} (h : e.Waits id) :
    (dropPersistedSpawn taskId e).Returns (fun e' => e'.Waits id) := by
  refine (changes_dropPersistedSpawn taskId e).mono ?_
  rintro e' ⟨ids, rfl⟩
  exact h

theorem counted_requeueBusyRefusal {spawn : ActiveSpawn} (h : Counted refused e)
    (hattempts : spawn.busyAttempts + 1 ≤ refused.count spawn.taskId)
    (hpayload : ∀ t, spawn.taskPayload = some t → t.id = spawn.taskId) :
    (requeueBusyRefusal spawn e).Returns (fun r => Counted refused r.2) := by
  unfold requeueBusyRefusal
  dsimp only
  split
  · exact returns_pure h
  · refine returns_bind (counted_queueForLane h ?_) ?_
    · change _ ≤ refused.count (busyPayload spawn).id
      rw [busyPayload_id hpayload]
      exact hattempts
    · rintro ⟨ok, e'⟩ h'
      dsimp only
      split
      · exact returns_bind (counted_dropPersistedSpawn _ h') (fun e'' h'' => returns_pure h'')
      · exact returns_pure h'

/-- A refused worker with retries left waits again if its queue has room … -/
theorem waits_requeueBusyRefusal {spawn : ActiveSpawn}
    (hpayload : ∀ t, spawn.taskPayload = some t → t.id = spawn.taskId)
    (hretries : spawn.busyAttempts + 1 ≤ laneBusyMaxRetries)
    (hroom : (fifoOf e.laneQueue spawn.laneKey).length < laneQueueLimit) :
    (requeueBusyRefusal spawn e).Returns (fun r => r.1 = true ∧ r.2.Waits spawn.taskId) := by
  unfold requeueBusyRefusal
  dsimp only
  rw [if_neg (Nat.not_lt.mpr hretries)]
  refine returns_bind (waits_queueForLane _ (busyPayload spawn) _ hroom) ?_
  rintro ⟨ok, e'⟩ ⟨rfl, hwaits⟩
  rw [busyPayload_id hpayload] at hwaits
  dsimp only
  rw [if_pos rfl]
  exact returns_bind (waits_dropPersistedSpawn _ hwaits)
    (fun e'' hwaits' => returns_pure ⟨rfl, hwaits'⟩)

/-- … and not otherwise. -/
theorem requeueBusyRefusal_of_full (spawn : ActiveSpawn)
    (hfull : laneQueueLimit ≤ (fifoOf e.laneQueue spawn.laneKey).length) :
    ∃ e', requeueBusyRefusal spawn e = pure (false, e') := by
  unfold requeueBusyRefusal
  dsimp only
  split
  · exact ⟨e, rfl⟩
  · unfold queueForLane
    dsimp only
    rw [if_pos hfull]
    exact ⟨_, rfl⟩

/-- What the reap of a refused worker asks for where it is queued again. -/
theorem only_requeueBusyRefusal (spawn : ActiveSpawn) (e : Executor) :
    (requeueBusyRefusal spawn e).Only (fun op => ¬TellsMain op) := by
  unfold requeueBusyRefusal
  dsimp only
  split
  · exact only_pure _
  · refine only_bind (only_queueForLane _ _ _ _ id) (fun queued => ?_)
    split
    · exact only_bind (only_dropPersistedSpawn _ _ id) (fun _ => only_pure _)
    · exact only_pure _

section Refused

variable [Unicode] {x : ActiveSpawn × Resolution}

theorem reapOne_of_refused (hrefused : x.2.outcome = .laneBusyRefused) :
    reapOne e x = requeueBusyRefusal x.1 (untrack e x.1.taskId) >>= fun st =>
      if st.1 = true then pure st.2
      else dropPersistedSpawn x.1.taskId st.2 >>= fun e' =>
        reportFailure x.1.taskId ("lane " ++ x.1.laneKey ++
          " busy after 5 retries — hermes said: " ++ x.2.detail)
          { e' with laneQueueMeta := e'.laneQueueMeta.erase x.1.taskId } := by
  obtain ⟨spawn, r⟩ := x
  unfold reapOne
  dsimp only
  rw [if_pos hrefused]
  rfl

theorem counted_reportFailure (taskId reason : String) (h : Counted refused e) :
    (reportFailure taskId reason e).Returns (Counted refused) := by
  refine (changes_reportFailure taskId reason e).mono ?_
  rintro e' ⟨pending, rfl⟩
  exact h.of_subset (fun _ hs => hs) (fun _ hm => hm)

theorem counted_reapOne (h : Counted refused e) (hx : Countable refused x) :
    (reapOne e x).Returns (Counted refused) := by
  by_cases hrefused : x.2.outcome = .laneBusyRefused
  · rw [reapOne_of_refused hrefused]
    refine returns_bind (counted_requeueBusyRefusal (h.untrack x.1.taskId) (hx.attempts hrefused)
      hx.payload) ?_
    rintro ⟨requeued, e₁⟩ h₁
    dsimp only
    split
    · exact returns_pure h₁
    · refine returns_bind (counted_dropPersistedSpawn _ h₁) (fun e₂ h₂ => ?_)
      generalize "lane " ++ x.1.laneKey ++ _ ++ x.2.detail = reason
      refine counted_reportFailure x.1.taskId reason ?_
      exact h₂.of_subset (fun _ hs => hs) (fun _ hm => (e₂.laneQueueMeta.mem_rows_erase.mp hm).1)
  · obtain ⟨spawn, r⟩ := x
    unfold reapOne
    dsimp only
    rw [if_neg hrefused]
    refine returns_bind (counted_dropPersistedSpawn _ (h.untrack spawn.taskId)) (fun e₁ h₁ => ?_)
    split
    · exact counted_queueReport _ _ _ h₁
    · exact counted_queueReport _ _ _ h₁
    · unfold reportBlocked
      split
      · exact counted_queueReport _ _ _ h₁
      · exact returns_perform (fun _ => returns_pure h₁)
    · exact returns_perform (fun _ => returns_pure h₁)
    · generalize "lane " ++ spawn.laneName ++ ": " ++ r.detail = reason
      exact counted_reportFailure spawn.taskId reason h₁

end Refused

/-- A retry waits again exactly if the queue of its lane has room. -/
theorem requeued_iff [SpacedUnicode] {σ : Type} {step : (op : ExecOp) → σ → op.Res × σ}
    {x : ActiveSpawn × Resolution} {s : σ × List String} (hx : Countable s.2 x) :
    RetryWaits step e x s ↔ RetryHasRoom e x s := by
  constructor
  · intro hrequeued hretries
    by_contra hfull
    obtain ⟨e₁, hfull⟩ : ∃ e₁, requeueBusyRefusal x.1 (untrack e x.1.taskId) = pure (false, e₁) :=
      requeueBusyRefusal_of_full x.1 (Nat.le_of_not_lt hfull)
    have htold := (hrequeued hretries).1
    rw [reapOne_of_refused hretries.1, hfull] at htold
    replace htold := (along_bind.mp htold).2
    change (dropPersistedSpawn x.1.taskId e₁ >>= _).Along _ _ s at htold
    replace htold := (along_bind.mp htold).2
    cases hrun : ((dropPersistedSpawn x.1.taskId e₁).run (countRefusals step) s).1 with
    | error err => cases err
    | ok e₂ =>
        have hreport := after_of_ok htold hrun
        have hblank : Text.strip ("lane " ++ x.1.laneKey ++
            " busy after 5 retries — hermes said: " ++ x.2.detail) ≠ "" := by
          refine Text.strip_ne_empty (c := 'l') ?_ (SpacedUnicode.not_isSpace 'l' rfl)
          simp only [String.toList_append, List.append_assoc]
          exact List.mem_append_left _ (by decide)
        rw [reportFailure, if_neg hblank] at hreport
        exact hreport.1 trivial
  · intro hroom hretries
    have hattempts := (hx.attempts hretries.1).trans hretries.2
    have hwaits : (requeueBusyRefusal x.1 (untrack e x.1.taskId)).Returns
        (fun r => r.1 = true ∧ r.2.Waits x.1.taskId) :=
      waits_requeueBusyRefusal hx.payload hattempts (hroom hretries)
    rw [reapOne_of_refused hretries.1]
    refine ⟨along_bind.mpr ⟨along_of_only (only_requeueBusyRefusal _ _), ?_⟩, after_bind.mpr ?_⟩
    · refine (after_of_returns hwaits).mono ?_
      rintro ⟨requeued, e₁⟩ s' ⟨rfl, -⟩
      exact trivial
    · refine (after_of_returns hwaits).mono ?_
      rintro ⟨requeued, e₁⟩ s' ⟨rfl, hwaits⟩
      exact hwaits

end Reap

/-! ## Runs -/

section Notes

variable {refused : List String} {e : Executor}

/-- The program leads from the refusals so far to `Q`. -/
abbrev Notes {α : Type} (p : Exec α) (refused : List String)
    (Q : α → List String → Prop) : Prop :=
  p.Meets (fun op refused r refused' => refused' = noteRefusal op r refused) (fun _ _ => True)
    refused Q

theorem notes_of_only {α : Type} {S : ExecOp → Prop} {I : α → Prop} {p : Exec α} (hp : p.Only S)
    (hS : ∀ spawn, ¬S (.observe spawn)) (hI : p.Returns I) :
    Notes p refused (fun a refused' => I a ∧ refused' = refused) := by
  refine wp_of_only (I := (· = refused)) hp hI rfl (fun _ _ => trivial) ?_
  rintro op _ r _ rfl hop rfl
  cases op with
  | observe spawn => exact absurd hop (hS spawn)
  | _ => rfl

theorem counts_of_only {S : ExecOp → Prop} {p : Exec Executor} (hp : p.Only S)
    (hS : ∀ spawn, ¬S (.observe spawn)) (hI : p.Returns (Counted refused)) :
    Notes p refused (fun e' refused' => Counted refused' e') := by
  refine (notes_of_only hp hS hI).mono ?_
  rintro e' refused' ⟨h, rfl⟩
  exact h

theorem count_noteRefusal (op : ExecOp) (r : op.Res) (refused : List String) (id : String) :
    refused.count id ≤ (noteRefusal op r refused).count id := by
  unfold noteRefusal
  split
  · split
    · rw [List.count_append]
      exact Nat.le_add_right _ _
    · exact Nat.le_refl _
  · exact Nat.le_refl _

/-- The looks at the workers: each refusal is one more of its task. -/
theorem notes_observeAll (spawns : List ActiveSpawn)
    (hcounted : ∀ s ∈ spawns, s.busyAttempts ≤ refused.count s.taskId ∧
      ∀ t, s.taskPayload = some t → t.id = s.taskId) :
    Notes (observeAll spawns) refused (fun resolved refused' =>
      (∀ id, refused.count id ≤ refused'.count id) ∧ ∀ x ∈ resolved, Countable refused' x) := by
  induction spawns generalizing refused with
  | nil => exact meets_pure ⟨fun _ => Nat.le_refl _, fun x hx => by cases hx⟩
  | cons spawn spawns ih =>
      rw [List.forall_mem_cons] at hcounted
      have hkill : ∀ seen, (killTimedOut spawn seen).Only SweepOp := by
        intro seen
        unfold killTimedOut
        split
        · exact only_killSpawnProcess spawn trivial
        · exact only_pure _
      unfold observeAll
      refine meets_perform trivial (fun seen refused₁ hnote => ?_)
      have hle : ∀ id, refused.count id ≤ refused₁.count id :=
        hnote ▸ count_noteRefusal _ seen refused
      refine meets_bind (notes_of_only (hkill seen) (fun _ => id) (returns_true _)) ?_
      rintro _ refused₁ ⟨-, rfl⟩
      refine meets_bind (ih fun s hs =>
        ⟨(hcounted.2 s hs).1.trans (hle _), (hcounted.2 s hs).2⟩) ?_
      rintro rest refused₂ ⟨hle', hrest⟩
      have hle₂ : ∀ id, refused.count id ≤ refused₂.count id := fun id => (hle id).trans (hle' id)
      cases seen with
      | none => exact meets_pure ⟨hle₂, hrest⟩
      | some r =>
          refine meets_pure ⟨hle₂, List.forall_mem_cons.mpr ⟨⟨fun hrefused => ?_,
            hcounted.1.2⟩, hrest⟩⟩
          refine Nat.le_trans ?_ (hle' spawn.taskId)
          rw [show refused₁ = refused ++ [spawn.taskId] from hnote.trans (if_pos hrefused),
            List.count_append, List.count_singleton_self]
          exact Nat.succ_le_succ hcounted.1.1

theorem counted_track {spawn : ActiveSpawn} (h : Counted refused e)
    (hattempts : spawn.busyAttempts ≤ refused.count spawn.taskId)
    (hpayload : ∀ t, spawn.taskPayload = some t → t.id = spawn.taskId) :
    (track spawn e).Returns (Counted refused) := by
  unfold track
  refine returns_bind (returns_true _) (fun leaseId _ => returns_perform (fun now => ?_))
  refine (changes_persistSpawn _ _).mono ?_
  rintro e' ⟨ids, rfl⟩
  have hspawn := h.track { spawn with leaseId := leaseId, startedAt := now } hattempts hpayload
  exact hspawn.of_subset (fun _ hs => hs) (fun _ hm => hm)

theorem counts_sweepAll (spawns : List ActiveSpawn) (h : Counted refused e) :
    Notes (spawns.foldlM sweepCancelled e) refused (fun e' refused' => Counted refused' e') :=
  counts_of_only (only_foldlM spawns only_sweepCancelled e) (fun _ => id)
    (returns_foldlM spawns _ (fun _ spawn h' => counted_sweepCancelled spawn h') h)

theorem Counted.spawns (h : Counted refused e) : ∀ s ∈ e.activeSpawns.rows,
    s.busyAttempts ≤ refused.count s.taskId ∧ ∀ t, s.taskPayload = some t → t.id = s.taskId :=
  fun s hs => ⟨h.active s hs, h.payload s hs⟩

section Claims

variable [Unicode]

theorem counted_spawnHermesWorker (task : Task) (h : Counted refused e) :
    (spawnHermesWorker task e).Returns (Counted refused) := by
  have hattempts := h.attempts_le task.id
  unfold spawnHermesWorker
  dsimp only
  split
  · exact returns_bind (counted_queueForLane h hattempts) (fun r hr => returns_pure hr)
  · refine returns_perform (fun result => ?_)
    cases result with
    | notFound => exact counted_reportFailure _ _ h
    | raised message =>
        dsimp only
        generalize "executor_error: " ++ message = reason
        exact counted_reportFailure _ reason h
    | started =>
        refine counted_track h hattempts (fun t ht => ?_)
        cases ht
        rfl

theorem counted_spawnWorker (task : Task) (h : Counted refused e) :
    (spawnWorker task e).Returns (Counted refused) := by
  unfold spawnWorker
  refine returns_bind (returns_true _) (fun placed _ => ?_)
  cases placed with
  | some node => exact returns_perform (fun _ => returns_pure h)
  | none =>
      dsimp only
      split
      · exact counted_spawnHermesWorker task h
      · unfold spawnBdayaWorker
        refine returns_perform (fun result => ?_)
        cases result with
        | notFound => exact counted_reportFailure _ _ h
        | raised message =>
            dsimp only
            generalize "executor_error: " ++ message = reason
            exact counted_reportFailure _ reason h
        | started => exact counted_track h (Nat.zero_le _) (fun t ht => by cases ht)

theorem counts_spawnWorker (task : Task) (h : Counted refused e) :
    Notes (spawnWorker task e) refused (fun e' refused' => Counted refused' e') :=
  counts_of_only (only_spawnWorker task e) (fun _ => id) (counted_spawnWorker task h)

theorem counts_claimCandidate (st : Nat × Executor) (task : Task) (h : Counted refused st.2) :
    Notes (claimCandidate st task) refused (fun st' refused' => Counted refused' st'.2) := by
  obtain ⟨budget, e⟩ := st
  unfold claimCandidate
  dsimp only
  split
  · refine meets_bind (notes_of_only (S := (· = .time)) (only_queueForLane _ _ _ _ rfl)
      (fun _ hop => by cases hop) (counted_queueForLane h (Nat.zero_le _))) ?_
    rintro ⟨queued, e'⟩ refused' ⟨h', rfl⟩
    exact meets_pure h'
  · split
    · exact meets_pure h
    · exact meets_bind (counts_spawnWorker task h) (fun e' refused' h' => meets_pure h')

theorem counts_spawnReleased (maxSpawns : Nat) (h : Counted refused e) :
    Notes (spawnReleased maxSpawns e) refused (fun e' refused' => Counted refused' e') := by
  have hback : ∀ {refused' : List String} {e' : Executor} (leftover : List Task),
      Counted refused' e' → Counted refused' (putBack leftover e') := by
    intro refused' e' leftover h'
    obtain ⟨queue, hqueue⟩ := exists_putBack leftover e'
    rw [hqueue]
    exact h'.of_subset (fun _ hs => hs) (fun _ hm => hm)
  have hdrained : Counted refused (drainReleasedLanes e).2 :=
    h.of_subset (fun _ hs => hs) (fun _ hm => hm)
  unfold spawnReleased
  refine meets_bind (I := fun e' refused' => Counted refused' e')
    (meets_foldlM (I := fun _ e' refused' => Counted refused' e') _
      (fun task _ e' refused' h' => counts_spawnWorker task h') hdrained) ?_
  exact fun e' refused' h' => meets_pure (hback _ h')

theorem counts_claimListed (budget : Nat) (h : Counted refused e) :
    Notes (claimListed budget e) refused (fun e' refused' => Counted refused' e') := by
  unfold claimListed
  refine meets_perform trivial ?_
  rintro tasks refused rfl
  cases tasks with
  | none => exact meets_pure h
  | some tasks =>
      refine meets_bind (counts_of_only (only_refreshPersistedIds e) ?_
        (counted_refreshPersistedIds h)) (fun e₁ refused₁ h₁ => ?_)
      · rintro spawn (hop | ⟨e', hop⟩)
        · cases hop
        · cases hop
      · refine meets_bind (I := fun st refused' => Counted refused' st.2)
          (meets_foldlM (I := fun _ st refused' => Counted refused' st.2) _
            (fun task _ st refused' h' => counts_claimCandidate st task h') h₁) ?_
        exact fun st refused' h' => meets_pure h'

theorem counts_claimPass (h : Counted refused e) :
    Notes (claimPass e) refused (fun e' refused' => Counted refused' e') := by
  rw [claimPass_eq]
  split
  · refine meets_perform trivial ?_
    rintro blocked refused rfl
    split
    · exact meets_pure h
    · unfold passThrough
      refine meets_bind (counts_spawnReleased (slots e) h) (fun e₁ refused₁ h₁ => ?_)
      dsimp only
      split
      · exact meets_pure h₁
      · exact counts_claimListed _ h₁
  · exact meets_pure h

/-! ### A cycle -/

theorem counts_reapOne {x : ActiveSpawn × Resolution} (h : Counted refused e)
    (hx : Countable refused x) :
    Notes (reapOne e x) refused (fun e' refused' => Counted refused' e' ∧ refused' = refused) := by
  refine (notes_of_only (only_reapOne e x) (fun _ => id) (counted_reapOne h hx)).mono ?_
  rintro e' refused ⟨h', rfl⟩
  exact ⟨h', rfl⟩

theorem counts_reapFinishedSpawns (h : Counted refused e) :
    Notes (reapFinishedSpawns e) refused (fun e' refused' => Counted refused' e') := by
  unfold reapFinishedSpawns
  split
  · exact meets_pure h
  · refine meets_bind (counts_sweepAll _ h) (fun e₁ refused₁ h₁ => ?_)
    split
    · exact meets_pure h₁
    · refine meets_bind (notes_observeAll e₁.activeSpawns.rows h₁.spawns) ?_
      rintro resolved refused₂ ⟨hle, hresolved⟩
      refine (meets_foldlM (I := fun xs e' refused' => Counted refused' e' ∧
        ∀ x ∈ xs, Countable refused' x) reapOne ?_ ⟨h₁.mono hle, hresolved⟩).mono
          (fun e' refused' h' => h'.1)
      rintro x xs e' refused' ⟨h', hxs⟩
      rw [List.forall_mem_cons] at hxs
      refine (counts_reapOne h' hxs.1).mono ?_
      rintro e'' refused'' ⟨h'', rfl⟩
      exact ⟨h'', hxs.2⟩

theorem counts_pollOnce (h : Counted refused e) :
    Notes (pollOnce e) refused (fun e' refused' => Counted refused' e') := by
  rw [pollOnce_eq]
  refine meets_bind ?_ (fun e' refused' h' => counts_claimPass h')
  unfold upkeep
  refine meets_bind (counts_reapFinishedSpawns h) (fun e₁ refused₁ h₁ => ?_)
  refine meets_bind (counts_of_only (only_drainPendingReports e₁) (fun _ => id)
    (counted_drainPendingReports h₁)) (fun e₂ refused₂ h₂ => ?_)
  refine meets_bind (counts_of_only (S := (· = .time)) (only_ask rfl (fun _ => only_pure _))
    (fun _ hop => by cases hop) (counted_sweepLaneQueues h₂)) (fun e₃ refused₃ h₃ => ?_)
  refine meets_bind (notes_of_only (only_renewLeases e₃) ?_ (returns_true _)) ?_
  · rintro spawn ⟨leaseId, hop⟩
    cases hop
  · rintro _ refused₃ ⟨-, rfl⟩
    exact meets_pure h₃

end Claims

end Notes

section Runs

variable [SpacedUnicode] {σ : Type} {step : (op : ExecOp) → σ → op.Res × σ} {e : Executor}
  {s : σ × List String}

omit [SpacedUnicode] in
theorem after_of_notes {α : Type} {p : Exec α} {Q : α → List String → Prop}
    (h : Notes p s.2 Q) : After (countRefusals step) p s (fun a s' => Q a s'.2) := by
  have himplements : Implements (countRefusals step) Prod.snd
      (fun op refused r refused' => refused' = noteRefusal op r refused) := fun _ _ => rfl
  exact (after_of_wp h (along_of_implements himplements p s)).2

theorem atReap_iff (h : Counted s.2 e) :
    AtReap (countRefusals step) (RetryWaits step) e s ↔
      AtReap (countRefusals step) RetryHasRoom e s := by
  refine imp_congr_right fun _ => (after_of_notes (counts_sweepAll _ h)).congr ?_
  intro e₁ s₁ h₁
  refine imp_congr_right fun _ => (after_of_notes (notes_observeAll _ h₁.spawns)).congr ?_
  rintro resolved s₂ ⟨hle, hresolved⟩
  refine stepsMeet_congr (I := fun xs e' s' => Counted s'.2 e' ∧ ∀ x ∈ xs, Countable s'.2 x) ?_
    ⟨h₁.mono hle, hresolved⟩
  rintro x xs e' s' ⟨h', hxs⟩
  rw [List.forall_mem_cons] at hxs
  refine ⟨requeued_iff hxs.1, (after_of_notes (counts_reapOne h' hxs.1)).mono ?_⟩
  rintro e'' s'' ⟨h'', hsame⟩
  exact ⟨h'', fun y hy => hsame ▸ hxs.2 y hy⟩

/-- Through any run of an executor that starts with nothing queued: every retry
waits its turn again, and main is told nothing of it, exactly if every retry finds
room in the queue of its lane. -/
theorem refusals_requeued_iff (step : (op : ExecOp) → σ → op.Res × σ) (cycles : Nat)
    (e : Executor) (s : σ) (hactive : e.activeSpawns.rows = [])
    (hqueue : e.laneQueueMeta.rows = []) :
    ReapsMeet (countRefusals step) (RetryWaits step) cycles e (s, []) ↔
      ReapsMeet (countRefusals step) RetryHasRoom cycles e (s, []) := by
  have hstart : Counted (s, ([] : List String)).2 e := by
    refine ⟨fun x hx => ?_, fun x hx => ?_, fun m hm => ?_⟩
    · rw [hactive] at hx
      cases hx
    · rw [hactive] at hx
      cases hx
    · rw [hqueue] at hm
      cases hm
  have hreconciled : Notes (reconcilePersistedSpawns e) (s, ([] : List String)).2
      (fun e' refused' => Counted refused' e') := by
    refine counts_of_only (only_reconcilePersistedSpawns e) ?_
      (counted_reconcilePersistedSpawns hstart)
    rintro spawn (hop | ⟨e', hop⟩)
    · cases hop
    · cases hop
  refine (after_of_notes hreconciled).congr (fun e₁ s₁ h₁ => ?_)
  exact iterationsMeet_congr (I := fun e' s' => Counted s'.2 e')
    (fun e' s' h' => ⟨atReap_iff h', after_of_notes (counts_pollOnce h')⟩) h₁

end Runs

section Example

local instance asciiRefusals : SpacedUnicode := SpacedUnicode.ascii

/-- Some tasks of one lane, all of them given to this node; whatever worker is
started is refused by the lane. -/
def busyWorld (tasks : List Task) : (op : ExecOp) → Unit → op.Res × Unit
  | .time, _ | .monotonic, _ => (0, ())
  | .diskGateBlocks, _ => (false, ())
  | .getTasks _, _ => (some tasks, ())
  | .getTask _, _ | .getLane _, _ | .getLeases, _ => (none, ())
  | .extendLease _, _ | .report _ _, _ | .block _ _, _ | .requeue _ _ _, _ | .ackCancel _, _ =>
      (true, ())
  | .release _ _ _, _ | .kill _, _ | .recordTaskSpawn _, _ | .deleteTaskSpawn _, _ => ((), ())
  | .popen _ _, _ => (.started, ())
  | .observe _, _ => (some { outcome := .laneBusyRefused, detail := "session not owned" }, ())
  | .getAllTaskSpawns _, _ => (some [], ())

/-- `n` tasks of one lane. -/
def tasksOfLane (n : Nat) : List Task :=
  (List.range n).map fun i =>
    { id := String.singleton (Char.ofNat (48 + i)), title := "t", status := .running,
      assignedTo := some "n", laneKey := "l", createdAt := 1, updatedAt := 1 }

theorem refusals_requeued_two :
    ReapsMeet (countRefusals (busyWorld (tasksOfLane 2))) (RetryWaits (busyWorld (tasksOfLane 2)))
        2 { nodeId := "n", hermesWorker := true } ((), []) ↔
      ReapsMeet (countRefusals (busyWorld (tasksOfLane 2))) RetryHasRoom
        2 { nodeId := "n", hermesWorker := true } ((), []) :=
  refusals_requeued_iff (busyWorld (tasksOfLane 2)) 2 { nodeId := "n", hermesWorker := true } ()
    rfl rfl

/-- Of 65 tasks of a lane one is started and the others fill the queue; at its
first refusal the one is reported failed. -/
theorem refused_with_full_queue :
    ¬ReapsMeet (countRefusals (busyWorld (tasksOfLane 65)))
      (RetryWaits (busyWorld (tasksOfLane 65)))
      2 { nodeId := "n", hermesWorker := true } ((), []) := by
  decide +kernel

end Example

end HermesCluster
