import HermesCluster.Core.PollCycle
/-!
# Delivery of terminal reports

A report that could not be delivered waits in `_pending_reports`, while its task
is still running and assigned to the node on main. The claim filter looks at the
live spawns, the lane queues and the persisted spawn records, not at the pending
reports. Apart from that filter the four structures are kept apart: no task is
in two of them.
-/

namespace HermesCluster

open Program hiding pure bind

namespace Executor

variable {e e' e'' : Executor} {id : String}

/-! ## The four structures -/

/-- The tasks of a queue and of what was released from it. -/
def waitingIn (queue released : Table LaneFifo) : List Task :=
  queue.rows.flatMap LaneFifo.tasks ++ released.rows.flatMap LaneFifo.tasks

/-- The tasks in the lane queues, released or not. -/
def waiting (e : Executor) : List Task :=
  waitingIn e.laneQueue e.laneReleased

/-- A terminal report of the task is undelivered. -/
def Pends (e : Executor) (id : String) : Prop :=
  ∃ r ∈ e.pendingReports.rows, r.taskId = id

/-- The task waits in a lane queue. -/
def Waits (e : Executor) (id : String) : Prop :=
  ∃ t ∈ e.waiting, t.id = id

/-- A live spawn is tracked for the task. -/
def Runs (e : Executor) (id : String) : Prop :=
  ∃ s ∈ e.activeSpawns.rows, s.taskId = id

/-- A task that waits is not waiting twice, not running and not reported, and a
running one is not reported. -/
structure Orderly (e : Executor) : Prop where
  nodup : (e.waiting.map Task.id).Nodup
  waits : ∀ id, e.Waits id → ¬e.Pends id ∧ ¬e.Runs id
  runs : ∀ id, e.Runs id → ¬e.Pends id
  payload : ∀ s ∈ e.activeSpawns.rows, ∀ t, s.taskPayload = some t → t.id = s.taskId

/-- In none of the structures. -/
structure Free (e : Executor) (id : String) : Prop where
  pends : ¬e.Pends id
  waits : ¬e.Waits id
  runs : ¬e.Runs id

/-- No other task enters a structure. -/
def Spares (id : String) (e e' : Executor) : Prop :=
  ∀ x, x ≠ id → (e'.Pends x → e.Pends x) ∧ (e'.Waits x → e.Waits x) ∧ (e'.Runs x → e.Runs x)

theorem Spares.refl (id : String) (e : Executor) : Spares id e e :=
  fun _ _ => ⟨fun h => h, fun h => h, fun h => h⟩

theorem Spares.trans (h : Spares id e e') (h' : Spares id e' e'') : Spares id e e'' :=
  fun x hx => ⟨fun hp => (h x hx).1 ((h' x hx).1 hp), fun hw => (h x hx).2.1 ((h' x hx).2.1 hw),
    fun hr => (h x hx).2.2 ((h' x hx).2.2 hr)⟩

theorem Free.of_spares {x : String} (h : e.Free x) (hx : x ≠ id) (hspares : Spares id e e') :
    e'.Free x :=
  ⟨fun hp => h.pends ((hspares x hx).1 hp), fun hw => h.waits ((hspares x hx).2.1 hw),
    fun hr => h.runs ((hspares x hx).2.2 hr)⟩

/-! ## The lane queues as one multiset -/

theorem waits_iff : e.Waits id ↔ id ∈ e.waiting.map Task.id := by
  rw [List.mem_map]
  rfl

/-- A queue is the fifo of a lane and the others. -/
theorem waitingIn_perm (queue released : Table LaneFifo) (laneKey : String) :
    (waitingIn queue released).Perm
      (AgentExecutor.fifoOf queue laneKey ++ waitingIn (queue.erase laneKey) released) := by
  unfold waitingIn AgentExecutor.fifoOf
  rw [← List.append_assoc]
  refine List.Perm.append_right _ ?_
  cases hget : queue.get? laneKey with
  | none =>
      rw [Table.erase_eq_self hget]
      rfl
  | some fifo => exact (Table.rows_perm_of_get? hget).flatMap_right LaneFifo.tasks

theorem waitingIn_upsert_perm (queue released : Table LaneFifo) (laneKey : String)
    (tasks : List Task) :
    (waitingIn (queue.upsert ⟨laneKey, tasks⟩) released).Perm
      (tasks ++ waitingIn (queue.erase laneKey) released) := by
  unfold waitingIn
  rw [← List.append_assoc]
  refine List.Perm.append_right _ ?_
  exact (queue.rows_upsert_perm ⟨laneKey, tasks⟩).flatMap_right LaneFifo.tasks

theorem waitingIn_comm (queue released : Table LaneFifo) :
    (waitingIn queue released).Perm (waitingIn released queue) :=
  List.perm_append_comm

theorem waitingIn_add {queue : Table LaneFifo} (released : Table LaneFifo) {laneKey : String}
    {tasks : List Task} {t : Task}
    (h : tasks.Perm (t :: AgentExecutor.fifoOf queue laneKey)) :
    (waitingIn (queue.upsert ⟨laneKey, tasks⟩) released).Perm (t :: waitingIn queue released) :=
  (waitingIn_upsert_perm queue released laneKey tasks).trans
    ((h.append_right _).trans ((waitingIn_perm queue released laneKey).symm.cons t))

/-- Orderliness is a matter of which tasks wait, not of where. -/
theorem Orderly.of_perm (h : e.Orderly) (hwaiting : e'.waiting.Perm e.waiting)
    (hpending : ∀ x, e'.Pends x → e.Pends x)
    (hactive : ∀ s ∈ e'.activeSpawns.rows, s ∈ e.activeSpawns.rows) : e'.Orderly := by
  have hwaits : ∀ x, e'.Waits x → e.Waits x := by
    rintro x ⟨t, ht, hid⟩
    exact ⟨t, hwaiting.mem_iff.mp ht, hid⟩
  have hruns : ∀ x, e'.Runs x → e.Runs x := by
    rintro x ⟨s, hs, hid⟩
    exact ⟨s, hactive s hs, hid⟩
  refine ⟨(hwaiting.map Task.id).nodup_iff.mpr h.nodup, fun x hx => ?_, fun x hx hp => ?_,
    fun s hs => h.payload s (hactive s hs)⟩
  · obtain ⟨hpends, hnot⟩ := h.waits x (hwaits x hx)
    exact ⟨fun hp => hpends (hpending x hp), fun hr => hnot (hruns x hr)⟩
  · exact h.runs x (hruns x hx) (hpending x hp)

/-- One more task waits. -/
theorem Orderly.of_cons {t : Task} (h : e.Orderly) (hfree : e.Free t.id)
    (hwaiting : e'.waiting.Perm (t :: e.waiting)) (hpending : e'.pendingReports = e.pendingReports)
    (hactive : e'.activeSpawns = e.activeSpawns) : e'.Orderly ∧ Spares t.id e e' := by
  have hwaits : ∀ x, e'.Waits x → x = t.id ∨ e.Waits x := by
    rintro x ⟨u, hu, rfl⟩
    rcases List.mem_cons.mp (hwaiting.mem_iff.mp hu) with rfl | hold
    · exact .inl rfl
    · exact .inr ⟨u, hold, rfl⟩
  have hpends : ∀ x, e'.Pends x → e.Pends x := by
    intro x hx
    rwa [Pends, hpending] at hx
  have hruns : ∀ x, e'.Runs x → e.Runs x := by
    intro x hx
    rwa [Runs, hactive] at hx
  refine ⟨⟨?_, fun x hx => ?_, fun x hx hp => ?_, ?_⟩,
    fun x hx => ⟨hpends x, fun hw => ?_, hruns x⟩⟩
  · refine (hwaiting.map Task.id).nodup_iff.mpr (List.nodup_cons.mpr ⟨?_, h.nodup⟩)
    rw [← waits_iff]
    exact hfree.waits
  · rcases hwaits x hx with rfl | hold
    · exact ⟨fun hp => hfree.pends (hpends _ hp), fun hr => hfree.runs (hruns _ hr)⟩
    · obtain ⟨hnp, hnr⟩ := h.waits x hold
      exact ⟨fun hp => hnp (hpends x hp), fun hr => hnr (hruns x hr)⟩
  · exact h.runs x (hruns x hx) (hpends x hp)
  · rw [hactive]
    exact h.payload
  · exact (hwaits x hw).resolve_left hx

end Executor

/-! ## Reasoning about the executor -/

open Executor AgentExecutor

/-- What the executor may assume of a reply: main lists each task once, and
shows no task whose report is pending as running on this node; and no record of
a task that waits or is reported turns up in the node's store. -/
def SettledReply (op : ExecOp) (r : op.Res) : Prop :=
  match op, r with
  | .getTasks e, some tasks =>
      (tasks.map Task.id).Nodup ∧ ∀ t ∈ tasks, t.status = .running →
        isAssignedToMe e t.assignedTo = true → ¬e.Pends t.id
  | .getAllTaskSpawns e, some records =>
      ∀ r ∈ records, r.taskId ∉ e.persistedIds → ¬e.Pends r.taskId ∧ ¬e.Waits r.taskId
  | _, _ => True

/-- No worker is spawned for a task whose report is pending. -/
def SpawnsUnreported : ExecOp → Prop
  | .popen e task => ¬e.Pends task.id
  | _ => True

instance (e : Executor) (id : String) : Decidable (e.Pends id) :=
  inferInstanceAs (Decidable (∃ r ∈ e.pendingReports.rows, r.taskId = id))

instance (e : Executor) (id : String) : Decidable (e.Waits id) :=
  inferInstanceAs (Decidable (∃ t ∈ e.waiting, t.id = id))

instance : (op : ExecOp) → (r : op.Res) → Decidable (SettledReply op r)
  | .getTasks e, some tasks =>
      inferInstanceAs (Decidable ((tasks.map Task.id).Nodup ∧ ∀ t ∈ tasks, t.status = .running →
        isAssignedToMe e t.assignedTo = true → ¬e.Pends t.id))
  | .getAllTaskSpawns e, some records =>
      inferInstanceAs (Decidable (∀ r ∈ records, r.taskId ∉ e.persistedIds →
        ¬e.Pends r.taskId ∧ ¬e.Waits r.taskId))
  | .getTasks _, none | .getAllTaskSpawns _, none => isTrue trivial
  | .time, _ | .monotonic, _ | .diskGateBlocks, _ | .getTask _, _ | .getLeases, _
  | .extendLease _, _ | .report _ _, _ | .block _ _, _ | .requeue _ _ _, _ | .ackCancel _, _
  | .release _ _ _, _ | .popen _ _, _ | .observe _, _ | .kill _, _ | .getLane _, _
  | .recordTaskSpawn _, _ | .deleteTaskSpawn _, _ => isTrue trivial

instance : (op : ExecOp) → Decidable (SpawnsUnreported op)
  | .popen e task => inferInstanceAs (Decidable (¬e.Pends task.id))
  | .time | .monotonic | .diskGateBlocks | .getTasks _ | .getTask _ | .getLeases
  | .extendLease _ | .report _ _ | .block _ _ | .requeue _ _ _ | .ackCancel _ | .release _ _ _
  | .observe _ | .kill _ | .getLane _ | .recordTaskSpawn _ | .deleteTaskSpawn _
  | .getAllTaskSpawns _ => isTrue trivial

section Rules

variable {α α' : Type} {Q : α → Prop}

/-- Given settled replies, the program spawns no worker for a task whose report
is pending, and ends with `Q`. -/
abbrev Leads (p : Exec α) (Q : α → Prop) : Prop :=
  p.Wp (fun op (_ : Unit) r _ => SettledReply op r) (fun _ op => SpawnsUnreported op) ()
    (fun r _ => ∃ a, r = .ok a ∧ Q a)

theorem leads_pure {a : α} (h : Q a) : Leads (pure a) Q := ⟨a, rfl, h⟩

theorem leads_ask {op : ExecOp} {f : op.Res → Exec α} (hop : SpawnsUnreported op)
    (h : ∀ r, SettledReply op r → Leads (f r) Q) : Leads (ask op >>= f) Q :=
  wp_perform.mpr ⟨hop, fun r _ hr => h r hr⟩

theorem leads_bind {p : Exec α'} {f : α' → Exec α} {I : α' → Prop} (hp : Leads p I)
    (hf : ∀ a, I a → Leads (f a) Q) : Leads (p >>= f) Q :=
  Wp.seq (I := fun a _ => I a) hp (fun a _ ha => hf a ha)

theorem Leads.mono {Q' : α → Prop} {p : Exec α} (h : Leads p Q) (hQ : ∀ a, Q a → Q' a) :
    Leads p Q' :=
  Wp.mono h (fun _ _ ⟨a, hr, ha⟩ => ⟨a, hr, hQ a ha⟩)

end Rules

variable {e : Executor} {id : String}

/-! ## Reports -/

theorem orderly_upsert_report (h : e.Orderly) (hwaits : ¬e.Waits id) (hruns : ¬e.Runs id)
    {r : PendingReport} (hr : r.taskId = id) :
    let e' := { e with pendingReports := e.pendingReports.upsert r }
    e'.Orderly ∧ Spares id e e' := by
  intro e'
  have hpends : ∀ x, x ≠ id → e'.Pends x → e.Pends x := by
    rintro x hx ⟨r', hr', rfl⟩
    rcases e.pendingReports.mem_rows_upsert.mp hr' with rfl | ⟨hold, -⟩
    · exact absurd hr hx
    · exact ⟨r', hold, rfl⟩
  refine ⟨⟨h.nodup, fun x hx => ⟨fun hp => ?_, (h.waits x hx).2⟩, fun x hx hp => ?_, h.payload⟩,
    fun x hx => ⟨hpends x hx, fun hw => hw, fun hr => hr⟩⟩
  · by_cases hid : x = id
    · exact hwaits (hid ▸ hx)
    · exact (h.waits x hx).1 (hpends x hid hp)
  · by_cases hid : x = id
    · exact hruns (hid ▸ hx)
    · exact h.runs x hx (hpends x hid hp)

theorem leads_queueReport {verb : ReportVerb} {payload : ReportPayload} (h : e.Orderly)
    (hwaits : ¬e.Waits id) (hruns : ¬e.Runs id) :
    Leads (queueReport verb id payload e) (fun e' => e'.Orderly ∧ Spares id e e') := by
  unfold queueReport
  refine leads_ask trivial (fun ok _ => ?_)
  split
  · exact leads_pure ⟨h, Spares.refl id e⟩
  · exact leads_ask trivial (fun now _ => leads_pure (orderly_upsert_report h hwaits hruns rfl))

theorem leads_reportFailure [Unicode] {reason : String} (h : e.Orderly) (hwaits : ¬e.Waits id)
    (hruns : ¬e.Runs id) :
    Leads (reportFailure id reason e) (fun e' => e'.Orderly ∧ Spares id e e') := by
  unfold reportFailure
  split
  · exact leads_pure ⟨h, Spares.refl id e⟩
  · exact leads_queueReport h hwaits hruns

theorem leads_reportBlocked {ballot : Option BlockTaskRequest} {result : Option String}
    (h : e.Orderly) (hwaits : ¬e.Waits id) (hruns : ¬e.Runs id) :
    Leads (reportBlocked id ballot result e) (fun e' => e'.Orderly ∧ Spares id e e') := by
  unfold reportBlocked
  cases ballot with
  | none => exact leads_queueReport h hwaits hruns
  | some ballot => exact leads_ask trivial (fun _ _ => leads_pure ⟨h, Spares.refl id e⟩)

theorem taskId_retryReport {now : Nat} {r r' : PendingReport} (h : retryReport now r = some r') :
    r'.taskId = r.taskId := by
  unfold retryReport at h
  dsimp only at h
  split at h
  · cases h
  · cases h
    rfl

/-- A drained report was pending. -/
theorem leads_drainReport (now : Nat) (entry : PendingReport) (h : e.Orderly) :
    Leads (drainReport now e entry) Orderly := by
  have hless : ∀ pending : Table PendingReport,
      (∀ r ∈ pending.rows, ∃ r' ∈ e.pendingReports.rows, r'.taskId = r.taskId) →
      ({ e with pendingReports := pending } : Executor).Orderly := by
    intro pending hpending
    refine h.of_perm (.refl _) ?_ (fun _ hs => hs)
    rintro x ⟨r, hr, rfl⟩
    exact hpending r hr
  have herased := hless (e.pendingReports.erase (entry.verb, entry.taskId))
    (fun r hr => ⟨r, (e.pendingReports.mem_rows_erase.mp hr).1, rfl⟩)
  unfold drainReport
  refine leads_ask trivial (fun ok _ => ?_)
  cases hcurrent : e.pendingReports.get? (entry.verb, entry.taskId) with
  | none => exact leads_pure h
  | some current =>
      dsimp only
      split
      · exact leads_pure herased
      · cases hnext : retryReport now current with
        | none => exact leads_pure herased
        | some next =>
            refine leads_pure (hless _ (fun r hr => ?_))
            rcases e.pendingReports.mem_rows_upsert.mp hr with rfl | ⟨hold, -⟩
            · exact ⟨current, Table.mem_of_get? hcurrent, (taskId_retryReport hnext).symm⟩
            · exact ⟨r, hold, rfl⟩

theorem leads_drainPendingReports (h : e.Orderly) : Leads (drainPendingReports e) Orderly := by
  unfold drainPendingReports
  refine leads_ask trivial (fun now _ => ?_)
  exact wp_foldlM (I := fun e _ => e.Orderly) _ _
    (fun entry _ e _ he => leads_drainReport now entry he) e h

/-! ## Lane queues -/

/-- A task that is queued waits as well, unless it waits already or there is no room. -/
theorem waiting_queueForLane (laneKey : String) (task : Task) (attempts : Nat) (e : Executor) :
    (queueForLane laneKey task attempts e).Returns (fun r =>
      r.2.pendingReports = e.pendingReports ∧ r.2.activeSpawns = e.activeSpawns ∧
        (r.2.waiting.Perm e.waiting ∧ (r.1 = true → e.Waits task.id) ∨
          r.1 = true ∧ r.2.waiting.Perm (task :: e.waiting))) := by
  let queue := e.laneQueue.upsert ⟨laneKey, fifoOf e.laneQueue laneKey⟩
  have hsame : (waitingIn queue e.laneReleased).Perm e.waiting :=
    (waitingIn_upsert_perm _ _ laneKey _).trans (waitingIn_perm _ _ laneKey).symm
  unfold queueForLane
  dsimp only
  split
  · exact returns_pure ⟨rfl, rfl, .inl ⟨hsame, nofun⟩⟩
  · split
    · rename_i hthere
      obtain ⟨t, ht, hid⟩ := List.any_eq_true.mp hthere
      have hmem := (waitingIn_perm _ e.laneReleased laneKey).mem_iff.mpr
        (List.mem_append_left _ ht)
      exact returns_pure ⟨rfl, rfl, .inl ⟨hsame, fun _ => ⟨t, hmem, of_decide_eq_true hid⟩⟩⟩
    · refine returns_perform (fun now => returns_pure ⟨rfl, rfl, .inr ⟨rfl, ?_⟩⟩)
      have hfifo : fifoOf queue laneKey = fifoOf e.laneQueue laneKey := by
        rw [fifoOf, Table.get?_upsert, LaneFifo.key_eq, if_pos rfl]
        rfl
      refine (waitingIn_add _ ?_).trans (hsame.cons task)
      rw [hfifo]
      exact List.perm_append_singleton _ _

/-- Queueing a free task. -/
theorem leads_queueForLane {laneKey : String} {task : Task} {attempts : Nat} (h : e.Orderly)
    (hfree : e.Free task.id) :
    Leads (queueForLane laneKey task attempts e)
      (fun r => r.2.Orderly ∧ Spares task.id e r.2 ∧
        (r.1 = false → r.2.activeSpawns = e.activeSpawns ∧ ¬r.2.Waits task.id)) := by
  refine Wp.mono (wp_of_only (S := (· = .time)) (I := fun _ => True)
    (only_queueForLane laneKey task attempts e rfl) (waiting_queueForLane laneKey task attempts e)
    trivial ?_ (fun _ _ _ => trivial)) ?_
  · rintro _ op - rfl
    trivial
  rintro r _ ⟨⟨ok, e'⟩, hr, ⟨hpending, hactive, hwaiting⟩, -⟩
  dsimp only at hpending hactive hwaiting
  refine ⟨(ok, e'), hr, ?_⟩
  rcases hwaiting with ⟨hsame, -⟩ | ⟨rfl, hadded⟩
  · have hwaits : ∀ x, e'.Waits x → e.Waits x := by
      rintro x ⟨t, ht, hid⟩
      exact ⟨t, hsame.mem_iff.mp ht, hid⟩
    have hpends : ∀ x, e'.Pends x → e.Pends x := by
      intro x hx
      rwa [Pends, hpending] at hx
    have hruns : ∀ x, e'.Runs x → e.Runs x := by
      intro x hx
      rwa [Runs, hactive] at hx
    refine ⟨h.of_perm hsame hpends (fun s hs => hactive ▸ hs), fun x _ => ?_, fun _ => ?_⟩
    · exact ⟨hpends x, hwaits x, hruns x⟩
    · exact ⟨hactive, fun hw => hfree.waits (hwaits _ hw)⟩
  · obtain ⟨horderly, hspares⟩ := h.of_cons hfree hadded hpending hactive
    exact ⟨horderly, hspares, fun hfalse => by cases hfalse⟩

/-- A released head waits as before. -/
theorem waiting_releaseHead (now : Nat) (busy : List String) (laneKey : String) (e : Executor) :
    (releaseHead now busy e laneKey).waiting.Perm e.waiting ∧
      (releaseHead now busy e laneKey).pendingReports = e.pendingReports ∧
      (releaseHead now busy e laneKey).activeSpawns = e.activeSpawns := by
  unfold releaseHead
  split
  · exact ⟨.refl _, rfl, rfl⟩
  · have hq := waitingIn_perm e.laneQueue e.laneReleased laneKey
    cases hfifo : fifoOf e.laneQueue laneKey with
    | nil =>
        rw [hfifo, List.nil_append] at hq
        exact ⟨hq.symm, rfl, rfl⟩
    | cons head rest =>
        dsimp only
        split
        · exact ⟨.refl _, rfl, rfl⟩
        · refine ⟨?_, rfl, rfl⟩
          rw [hfifo] at hq
          have hqueue : ∀ released, (waitingIn (if rest = [] then e.laneQueue.erase laneKey
              else e.laneQueue.upsert ⟨laneKey, rest⟩) released).Perm
              (rest ++ waitingIn (e.laneQueue.erase laneKey) released) := by
            intro released
            split
            · rename_i hrest
              rw [hrest]
              rfl
            · exact waitingIn_upsert_perm _ _ _ _
          -- the head moves from its queue to the released tasks
          have hreleased := (waitingIn_comm _ _).trans (waitingIn_add (if rest = [] then
            e.laneQueue.erase laneKey else e.laneQueue.upsert ⟨laneKey, rest⟩)
            (List.perm_append_singleton head (fifoOf e.laneReleased laneKey)))
          refine hreleased.trans (List.Perm.trans (.cons head ?_) hq.symm)
          exact (waitingIn_comm _ _).trans (hqueue e.laneReleased)

theorem orderly_releaseHead (now : Nat) (busy : List String) (laneKey : String) (h : e.Orderly) :
    (releaseHead now busy e laneKey).Orderly := by
  obtain ⟨hwaiting, hpending, hactive⟩ := waiting_releaseHead now busy laneKey e
  refine h.of_perm hwaiting (fun x hx => ?_) (fun s hs => ?_)
  · rwa [Pends, hpending] at hx
  · rwa [hactive] at hs

theorem leads_sweepLaneQueues (h : e.Orderly) : Leads (sweepLaneQueues e) Orderly := by
  unfold sweepLaneQueues
  refine leads_ask trivial (fun now _ => leads_pure ?_)
  generalize (e.activeSpawns.rows.map ActiveSpawn.laneKey).filter _ = busy
  generalize e.laneQueue.rows.map LaneFifo.laneKey = laneKeys
  induction laneKeys generalizing e with
  | nil => exact h
  | cons laneKey laneKeys ih => exact ih (orderly_releaseHead now busy laneKey h)

theorem waiting_drainReleasedLanes (e : Executor) :
    e.waiting.Perm ((drainReleasedLanes e).1 ++ (drainReleasedLanes e).2.waiting) := by
  unfold drainReleasedLanes waiting waitingIn
  rw [show (Table.empty : Table LaneFifo).rows = [] from rfl, List.flatMap_nil, List.append_nil]
  exact List.perm_append_comm

theorem waiting_putBack (leftover : List Task) (e : Executor) :
    (putBack leftover e).waiting.Perm (leftover ++ e.waiting) ∧
      (putBack leftover e).pendingReports = e.pendingReports ∧
      (putBack leftover e).activeSpawns = e.activeSpawns := by
  induction leftover with
  | nil => exact ⟨.refl _, rfl, rfl⟩
  | cons task leftover ih =>
      obtain ⟨hwaiting, hpending, hactive⟩ := ih
      exact ⟨(waitingIn_add _ (.refl _)).trans (hwaiting.cons task), hpending, hactive⟩

theorem orderly_putBack {leftover : List Task} (h : e.Orderly)
    (hnodup : (leftover.map Task.id).Nodup) (hfree : ∀ t ∈ leftover, e.Free t.id) :
    (putBack leftover e).Orderly := by
  induction leftover with
  | nil => exact h
  | cons task leftover ih =>
      rw [List.map_cons, List.nodup_cons] at hnodup
      rw [List.forall_mem_cons] at hfree
      obtain ⟨hwaiting, hpending, hactive⟩ := waiting_putBack leftover e
      have hfree' : (putBack leftover e).Free task.id := by
        refine ⟨fun hp => ?_, fun hw => ?_, fun hr => ?_⟩
        · rw [Pends, hpending] at hp
          exact hfree.1.pends hp
        · rw [waits_iff, (hwaiting.map Task.id).mem_iff, List.map_append, List.mem_append] at hw
          rcases hw with hleft | hold
          · exact hnodup.1 hleft
          · exact hfree.1.waits (waits_iff.mpr hold)
        · rw [Runs, hactive] at hr
          exact hfree.1.runs hr
      have hadded : (putBack (task :: leftover) e).waiting.Perm
          (task :: (putBack leftover e).waiting) := waitingIn_add _ (.refl _)
      exact ((ih hnodup.2 hfree.2).of_cons hfree' hadded rfl rfl).1

/-! ## Spawn records -/

/-- The structures that orderliness is about stand still. -/
structure SameQueues (e e' : Executor) : Prop where
  active : e'.activeSpawns = e.activeSpawns
  pending : e'.pendingReports = e.pendingReports
  queue : e'.laneQueue = e.laneQueue
  released : e'.laneReleased = e.laneReleased

theorem SameQueues.refl (e : Executor) : SameQueues e e := ⟨rfl, rfl, rfl, rfl⟩

theorem SameQueues.pends {e' : Executor} (h : SameQueues e e') (id : String) :
    e'.Pends id ↔ e.Pends id := by
  rw [Pends, h.pending]
  rfl

theorem SameQueues.waits {e' : Executor} (h : SameQueues e e') (id : String) :
    e'.Waits id ↔ e.Waits id := by
  rw [Waits, waiting, h.queue, h.released]
  rfl

theorem SameQueues.runs {e' : Executor} (h : SameQueues e e') (id : String) :
    e'.Runs id ↔ e.Runs id := by
  rw [Runs, h.active]
  rfl

theorem SameQueues.spares {e' : Executor} (h : SameQueues e e') (id : String) :
    Spares id e e' :=
  fun x _ => ⟨(h.pends x).mp, (h.waits x).mp, (h.runs x).mp⟩

theorem SameQueues.orderly {e' : Executor} (h : SameQueues e e') (ho : e.Orderly) :
    e'.Orderly := by
  refine ho.of_perm ?_ (fun x => (h.pends x).mp) (fun s hs => h.active ▸ hs)
  rw [waiting, h.queue, h.released]
  rfl

theorem leads_persistSpawn (spawn : ActiveSpawn) (e : Executor) :
    Leads (persistSpawn spawn e) (SameQueues e) := by
  unfold persistSpawn
  split
  · exact leads_pure (SameQueues.refl e)
  · exact leads_ask trivial (fun _ _ => leads_pure ⟨rfl, rfl, rfl, rfl⟩)

theorem leads_dropPersistedSpawn (id : String) (e : Executor) :
    Leads (dropPersistedSpawn id e) (SameQueues e) := by
  unfold dropPersistedSpawn
  split
  · exact leads_pure (SameQueues.refl e)
  · exact leads_ask trivial (fun _ _ => leads_pure ⟨rfl, rfl, rfl, rfl⟩)

theorem orderly_upsert_spawn (spawn : ActiveSpawn) (h : e.Orderly)
    (hpends : ¬e.Pends spawn.taskId) (hwaits : ¬e.Waits spawn.taskId)
    (hpayload : ∀ t, spawn.taskPayload = some t → t.id = spawn.taskId) :
    let e' : Executor := { e with activeSpawns := e.activeSpawns.upsert spawn }
    e'.Orderly ∧ Spares spawn.taskId e e' := by
  intro e'
  have hruns : ∀ x, x ≠ spawn.taskId → e'.Runs x → e.Runs x := by
    rintro x hx ⟨s, hs, rfl⟩
    rcases e.activeSpawns.mem_rows_upsert.mp hs with rfl | ⟨hold, -⟩
    · exact absurd rfl hx
    · exact ⟨s, hold, rfl⟩
  refine ⟨⟨h.nodup, fun x hx => ⟨(h.waits x hx).1, fun hr => ?_⟩, fun x hx hp => ?_,
    fun s hs => ?_⟩, fun x hx => ⟨fun hp => hp, fun hw => hw, hruns x hx⟩⟩
  · by_cases hid : x = spawn.taskId
    · exact hwaits (hid ▸ hx)
    · exact (h.waits x hx).2 (hruns x hid hr)
  · by_cases hid : x = spawn.taskId
    · exact hpends (hid ▸ hp)
    · exact h.runs x (hruns x hid hx) hp
  · rcases e.activeSpawns.mem_rows_upsert.mp hs with rfl | ⟨hold, -⟩
    · exact hpayload
    · exact h.payload s hold

/-- A record is attached only if no spawn is tracked for its task. -/
theorem orderly_reattachRecord {record : SpawnRecord} (h : e.Orderly)
    (hpends : ¬e.Pends record.taskId) (hwaits : ¬e.Waits record.taskId) :
    let e' := reattachRecord e record
    e'.Orderly ∧ (∀ x, e'.Pends x → e.Pends x) ∧ (∀ x, e'.Waits x → e.Waits x) ∧
      ∀ x, e'.Runs x → e.Runs x ∨ (record.taskId ≠ "" ∧ x = record.taskId) := by
  intro e'
  by_cases hskip : record.taskId = "" ∨ (e.activeSpawns.get? record.taskId).isSome
  · have hsame : e' = e := if_pos hskip
    rw [hsame]
    exact ⟨h, fun _ hx => hx, fun _ hx => hx, fun _ hx => .inl hx⟩
  · have hattached : e' =
        { e with activeSpawns := e.activeSpawns.upsert (SpawnRecord.toSpawn record) } :=
      if_neg hskip
    rw [not_or] at hskip
    obtain ⟨horderly, hspares⟩ := orderly_upsert_spawn (SpawnRecord.toSpawn record) h
      hpends hwaits (fun t ht => by cases ht)
    rw [hattached]
    refine ⟨horderly, fun _ hx => hx, fun _ hx => hx, fun x hx => ?_⟩
    by_cases hid : x = record.taskId
    · exact .inr ⟨hskip.1, hid⟩
    · exact .inl ((hspares x hid).2.2 hx)

theorem orderly_foldl_reattachRecord (records : List SpawnRecord) (h : e.Orderly)
    (hloose : ∀ r ∈ records, ¬e.Pends r.taskId ∧ ¬e.Waits r.taskId) :
    let e' := records.foldl reattachRecord e
    e'.Orderly ∧ (∀ x, e'.Pends x → e.Pends x) ∧ (∀ x, e'.Waits x → e.Waits x) ∧
      ∀ x, e'.Runs x → e.Runs x ∨ ∃ r ∈ records, r.taskId ≠ "" ∧ x = r.taskId := by
  induction records generalizing e with
  | nil => exact ⟨h, fun _ hx => hx, fun _ hx => hx, fun _ hx => .inl hx⟩
  | cons record records ih =>
      rw [List.forall_mem_cons] at hloose
      obtain ⟨h', hp, hw, hr⟩ := orderly_reattachRecord h hloose.1.1 hloose.1.2
      obtain ⟨h'', hp', hw', hr'⟩ := ih h' (fun r hmem =>
        ⟨fun hx => (hloose.2 r hmem).1 (hp _ hx), fun hx => (hloose.2 r hmem).2 (hw _ hx)⟩)
      refine ⟨h'', fun x hx => hp x (hp' x hx), fun x hx => hw x (hw' x hx), fun x hx => ?_⟩
      rcases hr' x hx with hx' | ⟨r, hmem, hne, hid⟩
      · rcases hr x hx' with hold | ⟨hne, hid⟩
        · exact .inl hold
        · exact .inr ⟨record, List.mem_cons_self, hne, hid⟩
      · exact .inr ⟨r, List.mem_cons_of_mem _ hmem, hne, hid⟩

theorem fields_foldl_reattachRecord (records : List SpawnRecord) (e : Executor) :
    (records.foldl reattachRecord e).persistedIds = e.persistedIds ∧
      (records.foldl reattachRecord e).nodeId = e.nodeId := by
  obtain ⟨spawns, hspawns⟩ := exists_foldl_reattachRecord records e
  rw [hspawns]
  exact ⟨rfl, rfl⟩

theorem leads_reconcilePersistedSpawns (h : e.Orderly) (hpends : ∀ id, ¬e.Pends id)
    (hwaits : ∀ id, ¬e.Waits id) : Leads (reconcilePersistedSpawns e) Orderly := by
  unfold reconcilePersistedSpawns
  split
  · exact leads_pure h
  refine leads_ask trivial (fun records _ => ?_)
  cases records with
  | none => exact leads_pure h
  | some records =>
      refine leads_ask trivial (fun now _ => leads_pure ?_)
      have hsame : SameQueues e
          { e with persistedIds := recordIds records, lastPersistedRefresh := now } :=
        ⟨rfl, rfl, rfl, rfl⟩
      refine (orderly_foldl_reattachRecord records (hsame.orderly h) (fun r _ => ?_)).1
      exact ⟨fun hp => hpends _ ((hsame.pends _).mp hp), fun hw => hwaits _ ((hsame.waits _).mp hw)⟩

/-- A re-read of the store: only tasks with a persisted record begin to run. -/
theorem leads_refreshPersistedIds (h : e.Orderly) :
    Leads (refreshPersistedIds e) (fun e' => e'.Orderly ∧ (∀ x, e'.Pends x → e.Pends x) ∧
      (∀ x, e'.Waits x → e.Waits x) ∧ (∀ x, e'.Runs x → e.Runs x ∨ x ∈ e'.persistedIds) ∧
      e'.nodeId = e.nodeId) := by
  have hkept : Leads (pure e : Exec Executor) (fun e' => e'.Orderly ∧
      (∀ x, e'.Pends x → e.Pends x) ∧ (∀ x, e'.Waits x → e.Waits x) ∧
      (∀ x, e'.Runs x → e.Runs x ∨ x ∈ e'.persistedIds) ∧ e'.nodeId = e.nodeId) :=
    leads_pure ⟨h, fun _ hx => hx, fun _ hx => hx, fun _ hx => .inl hx, rfl⟩
  unfold refreshPersistedIds
  split
  · exact hkept
  · exact hkept
  · refine leads_ask trivial (fun now _ => ?_)
    split
    · exact hkept
    · refine leads_ask trivial (fun records hsettled => ?_)
      cases records with
      | none =>
          have hsame : SameQueues e { e with lastPersistedRefresh := now } := ⟨rfl, rfl, rfl, rfl⟩
          exact leads_pure ⟨hsame.orderly h, fun _ hx => hx, fun _ hx => hx,
            fun _ hx => .inl hx, rfl⟩
      | some records =>
          let added := records.filter (fun r => decide (r.taskId ∉ e.persistedIds))
          let fresh : Executor := { e with
            lastPersistedRefresh := now
            persistedIds := recordIds records
            foreignSpawnIds := (e.foreignSpawnIds ++ recordIds added).filter
              (fun id => decide (id ∈ recordIds records)) }
          have hsame : SameQueues e fresh := ⟨rfl, rfl, rfl, rfl⟩
          have hloose : ∀ r ∈ added, ¬e.Pends r.taskId ∧ ¬e.Waits r.taskId := by
            intro r hr
            obtain ⟨hmem, hnew⟩ := List.mem_filter.mp hr
            exact hsettled r hmem (of_decide_eq_true hnew)
          obtain ⟨h', hp, hw, hr⟩ := orderly_foldl_reattachRecord added (hsame.orderly h) hloose
          obtain ⟨hids, hnode⟩ := fields_foldl_reattachRecord added fresh
          refine leads_pure ⟨h', hp, hw, fun x hx => ?_, hnode⟩
          rcases hr x hx with hold | ⟨r, hmem, hne, rfl⟩
          · exact .inl hold
          · refine .inr ?_
            rw [hids]
            refine List.mem_filter.mpr ⟨List.mem_map_of_mem (List.mem_filter.mp hmem).1, ?_⟩
            exact decide_eq_true hne

theorem leads_renewLeases (e : Executor) : Leads (renewLeases e) (fun _ => True) := by
  refine (wp_forM (I := fun _ => True) _ _ (fun spawn _ _ _ => ?_) trivial).mono
    (fun _ _ hr => ⟨⟨⟩, hr.1, trivial⟩)
  unfold renewLease
  cases spawn.leaseId with
  | none => exact ⟨rfl, trivial⟩
  | some leaseId => exact wp_perform.mpr ⟨trivial, fun _ _ _ => ⟨rfl, trivial⟩⟩

/-! ## Reaping -/

theorem leads_killSpawnProcess (spawn : ActiveSpawn) :
    Leads (killSpawnProcess spawn) (fun _ => True) := by
  unfold killSpawnProcess
  split
  · exact leads_pure trivial
  · exact leads_ask trivial (fun _ _ => leads_pure trivial)

theorem leads_sweepCancelled (spawn : ActiveSpawn) (h : e.Orderly) :
    Leads (sweepCancelled e spawn) Orderly := by
  have herased : ({ e with
      activeSpawns := e.activeSpawns.erase spawn.taskId } : Executor).Orderly :=
    h.of_perm (.refl _) (fun _ hx => hx) (fun _ hs => (e.activeSpawns.mem_rows_erase.mp hs).1)
  unfold sweepCancelled
  refine leads_ask trivial (fun row _ => ?_)
  cases row with
  | none => exact leads_pure h
  | some row =>
      dsimp only
      split
      · exact leads_pure h
      · refine leads_bind (leads_killSpawnProcess spawn) (fun _ _ => ?_)
        refine leads_bind (leads_dropPersistedSpawn spawn.taskId _) (fun e' he' => ?_)
        have horderly := he'.orderly herased
        have hmeta : SameQueues e'
            { e' with laneQueueMeta := e'.laneQueueMeta.erase spawn.taskId } := ⟨rfl, rfl, rfl, rfl⟩
        split
        · exact leads_ask trivial (fun _ _ => leads_pure (hmeta.orderly horderly))
        · exact leads_pure (hmeta.orderly horderly)

theorem leads_observeAll (spawns : List ActiveSpawn) :
    Leads (observeAll spawns) (fun resolved => (resolved.map Prod.fst).Sublist spawns) := by
  induction spawns with
  | nil => exact leads_pure (List.Sublist.refl [])
  | cons spawn spawns ih =>
      have hkilled : ∀ seen, Leads (killTimedOut spawn seen) (fun _ => True) := by
        intro seen
        unfold killTimedOut
        split
        · exact leads_killSpawnProcess spawn
        · exact leads_pure trivial
      unfold observeAll
      refine leads_ask trivial (fun seen _ => leads_bind (hkilled seen) (fun _ _ => ?_))
      refine leads_bind ih (fun rest hrest => ?_)
      cases seen with
      | none => exact leads_pure (hrest.cons spawn)
      | some r => exact leads_pure (hrest.cons_cons spawn)

/-- What a resolved spawn needs of the executor: its task does not wait and is
not reported. -/
structure Resolvable (e : Executor) (spawn : ActiveSpawn) : Prop where
  pends : ¬e.Pends spawn.taskId
  waits : ¬e.Waits spawn.taskId
  payload : ∀ t, spawn.taskPayload = some t → t.id = spawn.taskId

theorem Resolvable.of_spares {e' : Executor} {spawn : ActiveSpawn} (h : Resolvable e spawn)
    (hid : spawn.taskId ≠ id) (hspares : Spares id e e') : Resolvable e' spawn :=
  ⟨fun hp => h.pends ((hspares _ hid).1 hp), fun hw => h.waits ((hspares _ hid).2.1 hw), h.payload⟩

theorem leads_requeueBusyRefusal {spawn : ActiveSpawn} (h : e.Orderly)
    (hfree : e.Free spawn.taskId)
    (hpayload : ∀ t, spawn.taskPayload = some t → t.id = spawn.taskId) :
    Leads (requeueBusyRefusal spawn e)
      (fun r => r.2.Orderly ∧ Spares spawn.taskId e r.2 ∧
        (r.1 = false → ¬r.2.Waits spawn.taskId ∧ ¬r.2.Runs spawn.taskId)) := by
  unfold requeueBusyRefusal
  dsimp only
  split
  · exact leads_pure ⟨h, Spares.refl _ e, fun _ => ⟨hfree.waits, hfree.runs⟩⟩
  · generalize hp : spawn.taskPayload.getD _ = payload
    have hid : payload.id = spawn.taskId := by
      rw [← hp]
      cases ht : spawn.taskPayload with
      | none => rfl
      | some t => exact hpayload t ht
    refine leads_bind (leads_queueForLane h (hid.symm ▸ hfree)) ?_
    rintro ⟨ok, e'⟩ ⟨horderly, hspares, hrefused⟩
    rw [hid] at hspares hrefused
    dsimp only
    split
    · refine leads_bind (leads_dropPersistedSpawn spawn.taskId e') (fun e'' he'' => ?_)
      exact leads_pure ⟨he''.orderly horderly, hspares.trans (he''.spares _),
        fun hfalse => by cases hfalse⟩
    · rename_i hok
      obtain ⟨hactive, hnot⟩ := hrefused (Bool.eq_false_of_not_eq_true hok)
      refine leads_pure ⟨horderly, hspares, fun _ => ⟨hnot, fun hr => hfree.runs ?_⟩⟩
      rwa [Runs, hactive] at hr

section Reap

variable [Unicode]

-- whether a reason is blank is never computed below
attribute [local irreducible] Text.strip

/-- The task of a resolved spawn leaves the live spawns, and then enters one
structure at most. -/
theorem leads_reapOne {resolved : ActiveSpawn × Resolution} (h : e.Orderly)
    (hr : Resolvable e resolved.1) :
    Leads (reapOne e resolved) (fun e' => e'.Orderly ∧ Spares resolved.1.taskId e e') := by
  obtain ⟨spawn, r⟩ := resolved
  let e₁ : Executor := { e with
    activeSpawns := e.activeSpawns.erase spawn.taskId
    laneQueueMeta := e.laneQueueMeta.erase spawn.taskId }
  have hruns : ∀ x, e₁.Runs x → e.Runs x ∧ x ≠ spawn.taskId := by
    rintro x ⟨s, hs, rfl⟩
    obtain ⟨hmem, hne⟩ := e.activeSpawns.mem_rows_erase.mp hs
    exact ⟨⟨s, hmem, rfl⟩, hne⟩
  have h₁ : e₁.Orderly :=
    h.of_perm (.refl _) (fun _ hx => hx) (fun _ hs => (e.activeSpawns.mem_rows_erase.mp hs).1)
  have hspares₁ : Spares spawn.taskId e e₁ :=
    fun x _ => ⟨fun hx => hx, fun hx => hx, fun hx => (hruns x hx).1⟩
  have hfree₁ : e₁.Free spawn.taskId := ⟨hr.pends, hr.waits, fun hx => (hruns _ hx).2 rfl⟩
  unfold reapOne
  dsimp only
  split
  · refine leads_bind (leads_requeueBusyRefusal h₁ hfree₁ hr.payload) ?_
    rintro ⟨requeued, e₂⟩ ⟨h₂, hspares₂, hrefused⟩
    dsimp only
    split
    · exact leads_pure ⟨h₂, hspares₁.trans hspares₂⟩
    · rename_i hno
      obtain ⟨hwaits, hruns₂⟩ := hrefused (Bool.eq_false_of_not_eq_true hno)
      refine leads_bind (leads_dropPersistedSpawn spawn.taskId e₂) (fun e₃ he₃ => ?_)
      have hsame : SameQueues e₂
          { e₃ with laneQueueMeta := e₃.laneQueueMeta.erase spawn.taskId } :=
        ⟨he₃.active, he₃.pending, he₃.queue, he₃.released⟩
      refine (leads_reportFailure (hsame.orderly h₂) (fun hw => hwaits ((hsame.waits _).mp hw))
        (fun hx => hruns₂ ((hsame.runs _).mp hx))).mono ?_
      rintro e₄ ⟨h₄, hspares₄⟩
      exact ⟨h₄, hspares₁.trans (hspares₂.trans ((hsame.spares _).trans hspares₄))⟩
  · refine leads_bind (leads_dropPersistedSpawn spawn.taskId e₁) (fun e₂ he₂ => ?_)
    have h₂ := he₂.orderly h₁
    have hspares₂ := hspares₁.trans (he₂.spares spawn.taskId)
    have hwaits₂ : ¬e₂.Waits spawn.taskId := fun hw => hfree₁.waits ((he₂.waits _).mp hw)
    have hruns₂ : ¬e₂.Runs spawn.taskId := fun hx => hfree₁.runs ((he₂.runs _).mp hx)
    have hreported : ∀ p : Exec Executor,
        Leads p (fun e' => e'.Orderly ∧ Spares spawn.taskId e₂ e') →
        Leads p (fun e' => e'.Orderly ∧ Spares spawn.taskId e e') :=
      fun p hp => hp.mono (fun e' he' => ⟨he'.1, hspares₂.trans he'.2⟩)
    split
    · exact hreported _ (leads_queueReport h₂ hwaits₂ hruns₂)
    · exact hreported _ (leads_queueReport h₂ hwaits₂ hruns₂)
    · exact hreported _ (leads_reportBlocked h₂ hwaits₂ hruns₂)
    · exact leads_ask trivial (fun _ _ => leads_pure ⟨h₂, hspares₂⟩)
    · generalize "lane " ++ spawn.laneName ++ ": " ++ r.detail = reason
      exact hreported _ (leads_reportFailure h₂ hwaits₂ hruns₂)

theorem leads_reapFinishedSpawns (h : e.Orderly) : Leads (reapFinishedSpawns e) Orderly := by
  unfold reapFinishedSpawns
  split
  · exact leads_pure h
  · refine leads_bind (I := Orderly) (wp_foldlM (I := fun e _ => e.Orderly) _ _
      (fun spawn _ e _ he => leads_sweepCancelled spawn he) e h) (fun e₁ h₁ => ?_)
    split
    · exact leads_pure h₁
    · refine leads_bind (leads_observeAll e₁.activeSpawns.rows) (fun resolved hsub => ?_)
      have hnodup : (resolved.map (fun r => r.1.taskId)).Nodup := by
        have hkeys := (hsub.map ActiveSpawn.taskId).nodup e₁.activeSpawns.nodup
        rwa [List.map_map] at hkeys
      have hready : ∀ r ∈ resolved, Resolvable e₁ r.1 := by
        intro r hmem
        have hrow := hsub.subset (List.mem_map_of_mem hmem)
        have hruns : e₁.Runs r.1.taskId := ⟨r.1, hrow, rfl⟩
        exact ⟨h₁.runs _ hruns, fun hw => (h₁.waits _ hw).2 hruns, h₁.payload r.1 hrow⟩
      refine Wp.mono (wp_foldlM_distinct (I := fun e _ => e.Orderly)
        (D := fun e r => Resolvable e r.1) (k := fun r : ActiveSpawn × Resolution => r.1.taskId)
        resolved reapOne (fun r e _ he hr => ?_) hnodup e₁ h₁ hready) ?_
      · refine (leads_reapOne he hr).mono ?_
        rintro e' ⟨he', hspares⟩
        exact ⟨he', fun y hy hD => hD.of_spares hy hspares⟩
      · rintro r _ ⟨e', hr, he', -⟩
        exact ⟨e', hr, he'⟩

/-! ## Spawning -/

omit [Unicode] in
theorem leads_track {spawn : ActiveSpawn} (h : e.Orderly) (hfree : e.Free spawn.taskId)
    (hpayload : ∀ t, spawn.taskPayload = some t → t.id = spawn.taskId) :
    Leads (track spawn e) (fun e' => e'.Orderly ∧ Spares spawn.taskId e e') := by
  unfold track findLeaseForTask
  rw [bind_assoc]
  refine leads_ask trivial (fun leases _ => ?_)
  have hrest : ∀ leaseId : Option Nat, Leads (do
      let now ← ask .time
      let spawn := { spawn with leaseId := leaseId, startedAt := now }
      persistSpawn spawn { e with activeSpawns := e.activeSpawns.upsert spawn })
      (fun e' => e'.Orderly ∧ Spares spawn.taskId e e') := by
    intro leaseId
    refine leads_ask trivial (fun now _ => ?_)
    have hadded := orderly_upsert_spawn { spawn with leaseId := leaseId, startedAt := now } h
      hfree.pends hfree.waits hpayload
    refine (leads_persistSpawn _ _).mono (fun e' he' => ?_)
    exact ⟨he'.orderly hadded.1, hadded.2.trans (he'.spares _)⟩
  cases leases with
  | none => exact hrest none
  | some leases => exact hrest _

theorem leads_spawnBdayaWorker {task : Task} (h : e.Orderly) (hfree : e.Free task.id) :
    Leads (spawnBdayaWorker task e) (fun e' => e'.Orderly ∧ Spares task.id e e') := by
  unfold spawnBdayaWorker
  refine leads_ask hfree.pends (fun result _ => ?_)
  cases result with
  | notFound =>
      dsimp only
      generalize "executor_error: npx not found on PATH" = reason
      exact leads_reportFailure h hfree.waits hfree.runs
  | raised message =>
      dsimp only
      generalize "executor_error: " ++ message = reason
      exact leads_reportFailure h hfree.waits hfree.runs
  | started => exact leads_track h hfree (fun t ht => by cases ht)

theorem leads_spawnHermesWorker {task : Task} (h : e.Orderly) (hfree : e.Free task.id) :
    Leads (spawnHermesWorker task e) (fun e' => e'.Orderly ∧ Spares task.id e e') := by
  unfold spawnHermesWorker
  dsimp only
  split
  · refine leads_bind (leads_queueForLane h hfree) ?_
    rintro ⟨ok, e'⟩ ⟨h', hspares, -⟩
    exact leads_pure ⟨h', hspares⟩
  · refine leads_ask hfree.pends (fun result _ => ?_)
    cases result with
    | notFound =>
        dsimp only
        generalize "executor_error: hermes not found on PATH" = reason
        exact leads_reportFailure h hfree.waits hfree.runs
    | raised message =>
        dsimp only
        generalize "executor_error: " ++ message = reason
        exact leads_reportFailure h hfree.waits hfree.runs
    | started =>
        refine leads_track h hfree (fun t ht => ?_)
        cases ht
        rfl

theorem leads_lanePlacedElsewhere (e : Executor) (laneKey : String) :
    Leads (lanePlacedElsewhere e laneKey) (fun _ => True) := by
  unfold lanePlacedElsewhere
  split
  · exact leads_pure trivial
  · exact leads_ask trivial (fun _ _ => leads_pure trivial)

theorem leads_spawnWorker {task : Task} (h : e.Orderly) (hfree : e.Free task.id) :
    Leads (spawnWorker task e) (fun e' => e'.Orderly ∧ Spares task.id e e') := by
  unfold spawnWorker
  refine leads_bind (leads_lanePlacedElsewhere e task.laneKey) (fun placed _ => ?_)
  cases placed with
  | some node => exact leads_ask trivial (fun _ _ => leads_pure ⟨h, Spares.refl _ e⟩)
  | none =>
      dsimp only
      split
      · exact leads_spawnHermesWorker h hfree
      · exact leads_spawnBdayaWorker h hfree

theorem leads_claimCandidate {budget : Nat} {task : Task} (h : e.Orderly)
    (hfree : e.Free task.id) :
    Leads (claimCandidate (budget, e) task)
      (fun st => st.2.Orderly ∧ Spares task.id e st.2) := by
  unfold claimCandidate
  dsimp only
  split
  · refine leads_bind (leads_queueForLane h hfree) ?_
    rintro ⟨ok, e'⟩ ⟨h', hspares, -⟩
    exact leads_pure ⟨h', hspares⟩
  · split
    · exact leads_pure ⟨h, Spares.refl _ e⟩
    · exact leads_bind (leads_spawnWorker h hfree) (fun e' he' => leads_pure he')

/-- The candidates of a settled list are free. -/
theorem leads_claimCandidates {tasks : List Task} {budget : Nat} (h : e.Orderly)
    (hnodup : (tasks.map Task.id).Nodup)
    (hlisted : ∀ t ∈ tasks, t.status = .running → isAssignedToMe e t.assignedTo = true →
      ¬e.Pends t.id) :
    Leads (refreshPersistedIds e >>= fun e' =>
        (candidates e' tasks (e.activeSpawns.rows.map ActiveSpawn.taskId ++ e'.persistedIds)
          (e.waiting.map Task.id)).foldlM claimCandidate (budget, e') >>= fun st =>
          pure st.2) Orderly := by
  refine leads_bind (leads_refreshPersistedIds h) ?_
  rintro e' ⟨h', hpends, hwaits, hruns, hnode⟩
  generalize hclaimed : candidates e' tasks _ _ = claimed
  have hcandidate : ∀ t ∈ claimed, e'.Free t.id := by
    intro t ht
    rw [← hclaimed] at ht
    obtain ⟨hmem, hkeep⟩ := List.mem_filter.mp ((List.mem_insertionSort _).mp ht)
    simp only [Bool.and_eq_true, decide_eq_true_eq, List.mem_append, not_or] at hkeep
    obtain ⟨⟨⟨hrunning, hmine⟩, hactive, hpersisted⟩, hqueued⟩ := hkeep
    have hmine' : isAssignedToMe e t.assignedTo = true := by
      unfold isAssignedToMe at hmine ⊢
      rwa [hnode] at hmine
    refine ⟨fun hp => hlisted t hmem hrunning hmine' (hpends _ hp),
      fun hw => hqueued (waits_iff.mp (hwaits _ hw)), fun hr => ?_⟩
    rcases hruns _ hr with ⟨s, hs, hid⟩ | hrecord
    · exact hactive (List.mem_map.mpr ⟨s, hs, hid⟩)
    · exact hpersisted hrecord
  have hdistinct : (claimed.map Task.id).Nodup := by
    rw [← hclaimed, candidates]
    refine ((List.perm_insertionSort _ _).map Task.id).nodup_iff.mpr ?_
    exact hnodup.sublist (List.filter_sublist.map Task.id)
  refine leads_bind (I := fun st => st.2.Orderly) ?_ (fun st hst => leads_pure hst)
  refine Wp.mono (wp_foldlM_distinct (I := fun (st : Nat × Executor) _ => st.2.Orderly)
    (D := fun (st : Nat × Executor) t => st.2.Free t.id) (k := Task.id)
    claimed claimCandidate (fun t st _ hst hfree => ?_) hdistinct (budget, e') h' hcandidate) ?_
  · refine (leads_claimCandidate hst hfree).mono ?_
    rintro st' ⟨hst', hspares⟩
    exact ⟨hst', fun y hy hfree' => hfree'.of_spares hy hspares⟩
  · rintro r _ ⟨st', hr, hst', -⟩
    exact ⟨st', hr, hst'⟩

/-- The released heads of a cycle are spawned or go back to their queues. -/
theorem leads_spawnReleased (maxSpawns : Nat) (h : e.Orderly) :
    Leads (((drainReleasedLanes e).1.take maxSpawns).foldlM (fun e task => spawnWorker task e)
        (drainReleasedLanes e).2)
      (fun e' => (putBack ((drainReleasedLanes e).1.drop maxSpawns) e').Orderly) := by
  have hdrained := waiting_drainReleasedLanes e
  have hsame : (drainReleasedLanes e).2.pendingReports = e.pendingReports ∧
      (drainReleasedLanes e).2.activeSpawns = e.activeSpawns := ⟨rfl, rfl⟩
  generalize drainReleasedLanes e = drained at *
  obtain ⟨ready, e₁⟩ := drained
  obtain ⟨hpending, hactive⟩ := hsame
  dsimp only at hdrained hpending hactive ⊢
  have hpends : ∀ x, e₁.Pends x → e.Pends x := by
    intro x hx
    rwa [Pends, hpending] at hx
  have hruns : ∀ x, e₁.Runs x → e.Runs x := by
    intro x hx
    rwa [Runs, hactive] at hx
  have hids := (hdrained.map Task.id).nodup_iff.mp h.nodup
  rw [List.map_append, List.nodup_append] at hids
  obtain ⟨hready, hwaiting, hapart⟩ := hids
  have h₁ : e₁.Orderly := by
    refine ⟨hwaiting, fun x hx => ?_, fun x hx hp => h.runs x (hruns x hx) (hpends x hp), ?_⟩
    · obtain ⟨t, ht, hid⟩ := hx
      obtain ⟨hnp, hnr⟩ := h.waits x ⟨t, hdrained.mem_iff.mpr (List.mem_append_right _ ht), hid⟩
      exact ⟨fun hp => hnp (hpends x hp), fun hr => hnr (hruns x hr)⟩
    · rw [hactive]
      exact h.payload
  have hfree : ∀ t ∈ ready, e₁.Free t.id := by
    intro t ht
    obtain ⟨hnp, hnr⟩ := h.waits t.id ⟨t, hdrained.mem_iff.mpr (List.mem_append_left _ ht), rfl⟩
    refine ⟨fun hp => hnp (hpends _ hp), fun hw => ?_, fun hr => hnr (hruns _ hr)⟩
    exact hapart t.id (List.mem_map_of_mem ht) t.id (waits_iff.mp hw) rfl
  have hsplit :
      ((ready.take maxSpawns).map Task.id ++ (ready.drop maxSpawns).map Task.id).Nodup := by
    rwa [← List.map_append, List.take_append_drop]
  obtain ⟨htaken, hleft, hdisjoint⟩ := List.nodup_append.mp hsplit
  refine Wp.mono (wp_foldlM_distinct (I := fun (e : Executor) _ => e.Orderly)
    (D := fun (e : Executor) (t : Task) => e.Free t.id) Task.id (ready.take maxSpawns)
    (fun e task => spawnWorker task e) (fun t e _ he hfree => ?_) htaken e₁ h₁
    (fun t ht => hfree t (List.mem_of_mem_take ht))) ?_
  · refine (leads_spawnWorker he hfree).mono ?_
    rintro e' ⟨he', hspares⟩
    exact ⟨he', fun y hy hfree' => hfree'.of_spares hy hspares⟩
  · rintro r _ ⟨e₂, hr, h₂, hkept⟩
    refine ⟨e₂, hr, orderly_putBack h₂ hleft (fun t ht => ?_)⟩
    refine hkept t (fun hmem => ?_) (hfree t (List.mem_of_mem_drop ht))
    exact hdisjoint t.id hmem t.id (List.mem_map_of_mem ht) rfl

theorem leads_claimAndSpawn (maxSpawns : Nat) (h : e.Orderly) :
    Leads (claimAndSpawn maxSpawns e) Orderly := by
  unfold claimAndSpawn
  refine leads_ask trivial (fun blocked _ => ?_)
  split
  · exact leads_pure h
  refine leads_bind (leads_spawnReleased maxSpawns h) (fun e₁ h₁ => ?_)
  unfold drainReleasedLanes at h₁
  dsimp only at h₁ ⊢
  generalize putBack _ e₁ = e₂ at h₁ ⊢
  split
  · exact leads_pure h₁
  refine leads_ask trivial (fun tasks hsettled => ?_)
  cases tasks with
  | none => exact leads_pure h₁
  | some tasks => exact leads_claimCandidates h₁ hsettled.1 hsettled.2

/-! ## Runs of the executor -/

theorem leads_pollOnce (h : e.Orderly) : Leads (pollOnce e) Orderly := by
  unfold pollOnce
  refine leads_bind (leads_reapFinishedSpawns h) (fun e₁ h₁ => ?_)
  refine leads_bind (leads_drainPendingReports h₁) (fun e₂ h₂ => ?_)
  refine leads_bind (leads_sweepLaneQueues h₂) (fun e₃ h₃ => ?_)
  refine leads_bind (leads_renewLeases e₃) (fun _ _ => ?_)
  dsimp only
  split
  · exact leads_claimAndSpawn _ h₃
  · exact leads_pure h₃

theorem leads_pollLoop (cycles : Nat) (h : e.Orderly) : Leads (pollLoop cycles e) Orderly := by
  induction cycles generalizing e with
  | zero => exact leads_pure h
  | succ cycles ih => exact leads_bind (leads_pollOnce h) (fun _ h' => ih h')

theorem leads_start (cycles : Nat) (h : e.Orderly) (hpends : ∀ id, ¬e.Pends id)
    (hwaits : ∀ id, ¬e.Waits id) : Leads (start cycles e) Orderly := by
  unfold start
  exact leads_bind (leads_reconcilePersistedSpawns h hpends hwaits)
    (fun _ h' => leads_pollLoop cycles h')

/-- An executor as `__init__` leaves it: no task is in any structure. -/
structure Fresh (e : Executor) : Prop where
  active : e.activeSpawns.rows = []
  pending : e.pendingReports.rows = []
  queue : e.laneQueue.rows = []
  released : e.laneReleased.rows = []

omit [Unicode] in
theorem Fresh.orderly (h : Fresh e) :
    e.Orderly ∧ (∀ id, ¬e.Pends id) ∧ ∀ id, ¬e.Waits id := by
  have hwaiting : e.waiting = [] := by
    rw [waiting, waitingIn, h.queue, h.released]
    rfl
  have hpends : ∀ id, ¬e.Pends id := by
    rintro id ⟨r, hr, -⟩
    rw [h.pending] at hr
    cases hr
  have hwaits : ∀ id, ¬e.Waits id := by
    rintro id ⟨t, ht, -⟩
    rw [hwaiting] at ht
    cases ht
  refine ⟨⟨?_, fun id hw => absurd hw (hwaits id), fun id _ => hpends id, fun s hs => ?_⟩,
    hpends, hwaits⟩
  · rw [hwaiting]
    exact List.nodup_nil
  · rw [h.active] at hs
    cases hs

end Reap

section Example

local instance asciiReports : Unicode := Unicode.ascii

/-- One task, running on the node `n`. -/
def assigned : Task :=
  { id := "a", title := "a", status := .running, assignedTo := some "n",
    createdAt := 1, updatedAt := 1 }

/-- An environment where workers start and are done by the next cycle, and main
gets no report; the state says whether main lists its tasks. -/
def answers (tasks : Bool → Option (List Task) × Bool) : (op : ExecOp) → Bool → op.Res × Bool
  | .time, up | .monotonic, up => (0, up)
  | .diskGateBlocks, up => (false, up)
  | .getTasks _, up => tasks up
  | .getTask _, up => (none, up)
  | .getLeases, up => (none, up)
  | .extendLease _, up => (false, up)
  | .report _ _, up => (false, up)
  | .block _ _, up => (false, up)
  | .requeue _ _ _, up | .ackCancel _, up => (false, up)
  | .release _ _ _, up | .recordTaskSpawn _, up | .deleteTaskSpawn _, up => ((), up)
  | .popen _ _, up => (.started, up)
  | .kill _, up => ((), up)
  | .observe _, up => (some { outcome := .done, detail := "" }, up)
  | .getLane _, up => (none, up)
  | .getAllTaskSpawns _, up => (some [], up)

/-- Main assigns the task and is then out of reach. -/
def outage : (op : ExecOp) → Bool → op.Res × Bool :=
  answers (fun up => (if up then some [assigned] else none, false))

/-- Main loses every report and lists the task as it stands. -/
def reportsLost : (op : ExecOp) → Bool → op.Res × Bool :=
  answers (fun up => (some [assigned], up))

end Example

end HermesCluster
