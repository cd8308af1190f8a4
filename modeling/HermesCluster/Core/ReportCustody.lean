import HermesCluster.Core.Outcomes
/-!
# Custody of the reports

A terminal report that main does not accept is kept and sent again. An invariant
that speaks of the pending reports alone concerns three places only: where
reports are queued, where they are sent again, and where a worker is seen to have
ended. What it needs there is stated once, and carried to runs of the executor.
-/

namespace HermesCluster

open Program hiding pure bind
open Executor AgentExecutor VerdictReaders

-- whether a reason is blank is never computed below
attribute [local irreducible] Text.strip

/-! ## Invariants of the pending reports -/

/-- The operations other than the reports themselves. -/
def ReportQuiet : ExecOp → Prop
  | .report _ _ => False
  | _ => True

theorem ReportQuiet.of_sweep {op : ExecOp} (h : SweepOp op) : ReportQuiet op := by
  cases op <;> trivial

theorem ReportQuiet.of_storeRead {op : ExecOp} (h : StoreRead op) : ReportQuiet op := by
  rcases h with rfl | ⟨e, rfl⟩
  · trivial
  · trivial

/-- What an invariant of the pending reports needs; `Owes` says which reports of
a task may be made. -/
structure ReportCare {β : Type} (C : (op : ExecOp) → β → op.Res → β → Prop)
    (A : β → ExecOp → Prop) (J : Executor → β → Prop) (Owes : β → ReportVerb → String → Prop) :
    Prop where
  same : ∀ {e e' b}, J e b → e'.pendingReports = e.pendingReports → J e' b
  permits : ∀ {b op}, ReportQuiet op → A b op
  quiet : ∀ {e op b r b'}, J e b → ReportQuiet op → C op b r b' → J e b'
  owes : ∀ {op b r b' verb id}, C op b r b' → Owes b verb id → Owes b' verb id
  fails : ∀ {b id}, Owes b .fail id
  seen : ∀ {b spawn r b'}, C (.observe spawn) b (some r) b' → EndsComplete r →
    Owes b' .complete spawn.taskId
  queues : ∀ {e b} verb id payload, J e b → Owes b verb id →
    (queueReport verb id payload e).Meets C A b J
  drains : ∀ {e b}, J e b → (drainPendingReports e).Meets C A b J

namespace ReportCare

variable {β : Type} {C : (op : ExecOp) → β → op.Res → β → Prop} {A : β → ExecOp → Prop}
  {J : Executor → β → Prop} {Owes : β → ReportVerb → String → Prop} {e e' : Executor} {b : β}

theorem asks (care : ReportCare C A J Owes) {α : Type} {Q : α → β → Prop} {op : ExecOp}
    {f : op.Res → Exec α} (hop : ReportQuiet op) (h : J e b)
    (hf : ∀ r b', J e b' → (f r).Meets C A b' Q) : (ask op >>= f).Meets C A b Q :=
  meets_perform (care.permits hop) (fun r b' hC => hf r b' (care.quiet h hop hC))

theorem of_only (care : ReportCare C A J Owes) {α : Type} {I : α → Prop} {p : Exec α}
    (h : J e b) (hp : p.Only ReportQuiet) (hI : p.Returns I) :
    p.Meets C A b (fun a b' => I a ∧ J e b') :=
  wp_of_only (I := fun b' => J e b') hp hI h (fun _ hop => care.permits hop)
    (fun hJ hop hC => care.quiet hJ hop hC)

theorem of_same (care : ReportCare C A J Owes) {p : Exec Executor} (h : J e b)
    (hp : p.Only ReportQuiet) (hsame : p.Returns (fun e' => e'.pendingReports = e.pendingReports)) :
    p.Meets C A b J := by
  refine (care.of_only h hp hsame).mono ?_
  rintro e' b' ⟨hpending, h'⟩
  exact care.same h' hpending

theorem dropPersistedSpawn (care : ReportCare C A J Owes) (taskId : String) (h : J e b) :
    (dropPersistedSpawn taskId e).Meets C A b J := by
  refine care.of_same h (only_dropPersistedSpawn taskId e trivial)
    ((changes_dropPersistedSpawn taskId e).mono ?_)
  rintro e' ⟨ids, rfl⟩
  rfl

theorem queueForLane (care : ReportCare C A J Owes) (laneKey : String) (task : Task)
    (attempts : Nat) (h : J e b) :
    (queueForLane laneKey task attempts e).Meets C A b (fun r b' => J r.2 b') := by
  refine (care.of_only h (only_queueForLane laneKey task attempts e trivial)
    (changes_queueForLane laneKey task attempts e)).mono ?_
  rintro ⟨ok, e'⟩ b' ⟨⟨queue, queueMeta, rfl⟩, h'⟩
  exact care.same h' rfl

theorem requeueBusyRefusal (care : ReportCare C A J Owes) (spawn : ActiveSpawn) (h : J e b) :
    (requeueBusyRefusal spawn e).Meets C A b (fun r b' => J r.2 b') := by
  unfold AgentExecutor.requeueBusyRefusal
  dsimp only
  split
  · exact meets_pure h
  · refine meets_bind (care.queueForLane _ _ _ h) ?_
    rintro ⟨ok, e'⟩ b' h'
    dsimp only
    split
    · exact meets_bind (care.dropPersistedSpawn _ h') (fun e'' b'' h'' => meets_pure h'')
    · exact meets_pure h'

theorem sweepCancelled (care : ReportCare C A J Owes) (spawn : ActiveSpawn) (h : J e b) :
    (sweepCancelled e spawn).Meets C A b J := by
  refine care.of_same h ((only_sweepCancelled e spawn).mono fun _ => ReportQuiet.of_sweep) ?_
  unfold AgentExecutor.sweepCancelled
  refine returns_perform (fun row => ?_)
  cases row with
  | none => exact returns_pure rfl
  | some row =>
      dsimp only
      split
      · exact returns_pure rfl
      · refine returns_bind (returns_true _) (fun _ _ => ?_)
        refine returns_bind (changes_dropPersistedSpawn spawn.taskId _) ?_
        rintro _ ⟨ids, rfl⟩
        split
        · exact returns_perform (fun _ => returns_pure rfl)
        · exact returns_pure rfl

theorem keeping (care : ReportCare C A J Owes) {α : Type} {p : Exec α} {Q : α → β → Prop}
    {φ : Prop} {verb : ReportVerb} {id : String} (h : p.Meets C A b Q)
    (howes : φ → Owes b verb id) :
    p.Meets C A b (fun a b' => Q a b' ∧ (φ → Owes b' verb id)) :=
  Meets.keeping (P := fun b => φ → Owes b verb id) h howes
    (fun _ _ _ _ hstep hb hφ => care.owes hstep (hb hφ))

/-- What is resolved may be reported. -/
theorem observeAll (care : ReportCare C A J Owes) (spawns : List ActiveSpawn) (h : J e b) :
    (observeAll spawns).Meets C A b (fun resolved b' => J e b' ∧
      ∀ x ∈ resolved, EndsComplete x.2 → Owes b' .complete x.1.taskId) := by
  induction spawns generalizing b with
  | nil => exact meets_pure ⟨h, List.forall_mem_nil _⟩
  | cons spawn spawns ih =>
      have hkill : ∀ seen, (killTimedOut spawn seen).Only ReportQuiet := by
        intro seen
        unfold killTimedOut
        split
        · exact only_killSpawnProcess spawn trivial
        · exact only_pure _
      have hlook : ReportQuiet (.observe spawn) := trivial
      unfold AgentExecutor.observeAll
      refine meets_perform (care.permits hlook) (fun seen b₁ hC => ?_)
      have h₁ : J e b₁ := care.quiet h hlook hC
      -- what the look at this spawn allows is kept through the looks at the others
      have hseen : (∃ r ∈ seen, EndsComplete r) → Owes b₁ .complete spawn.taskId := by
        rintro ⟨r, hr, hcompletes⟩
        rw [Option.mem_def] at hr
        subst hr
        exact care.seen hC hcompletes
      refine meets_bind (care.keeping (care.of_only h₁ (hkill seen) (returns_true _)) hseen) ?_
      rintro _ b₂ ⟨⟨-, h₂⟩, hseen₂⟩
      refine meets_bind (care.keeping (ih h₂) hseen₂) ?_
      rintro rest b₃ ⟨⟨h₃, hrest⟩, hseen₃⟩
      cases seen with
      | none => exact meets_pure ⟨h₃, hrest⟩
      | some r =>
          refine meets_pure ⟨h₃, List.forall_mem_cons.mpr ⟨fun hr => ?_, hrest⟩⟩
          exact hseen₃ ⟨r, rfl, hr⟩

theorem sweepLaneQueues (care : ReportCare C A J Owes) (h : J e b) :
    (sweepLaneQueues e).Meets C A b J := by
  refine care.of_same h (only_ask trivial (fun _ => only_pure _))
    ((changes_sweepLaneQueues e).mono ?_)
  rintro e' ⟨queue, released, rfl⟩
  rfl

theorem renewLeases (care : ReportCare C A J Owes) (h : J e b) :
    (renewLeases e).Meets C A b (fun _ b' => J e b') := by
  refine (care.of_only h ((only_renewLeases e).mono ?_) (returns_true _)).mono (fun _ _ h' => h'.2)
  rintro op ⟨leaseId, rfl⟩
  trivial

theorem reconcilePersistedSpawns (care : ReportCare C A J Owes) (h : J e b) :
    (reconcilePersistedSpawns e).Meets C A b J := by
  refine care.of_same h
    ((only_reconcilePersistedSpawns e).mono fun _ => ReportQuiet.of_storeRead) ?_
  unfold AgentExecutor.reconcilePersistedSpawns
  split
  · exact returns_pure rfl
  · refine returns_perform (fun records => ?_)
    cases records with
    | none => exact returns_pure rfl
    | some records =>
        refine returns_perform (fun now => returns_pure ?_)
        obtain ⟨spawns, hspawns⟩ := exists_foldl_reattachRecord records
          { e with persistedIds := recordIds records, lastPersistedRefresh := now }
        rw [hspawns]

theorem track (care : ReportCare C A J Owes) (spawn : ActiveSpawn) (h : J e b) :
    (track spawn e).Meets C A b J := by
  refine care.of_same h ((only_track spawn e).mono fun op hop => ?_) ?_
  · cases op <;> trivial
  · unfold AgentExecutor.track
    refine returns_bind (returns_true _) (fun leaseId _ => returns_perform (fun now => ?_))
    refine (changes_persistSpawn _ _).mono ?_
    rintro e' ⟨ids, rfl⟩
    rfl

/-! ### The parts that report failures -/

section Parts

variable [Unicode]

theorem reportFailure (care : ReportCare C A J Owes) (taskId reason : String) (h : J e b) :
    (reportFailure taskId reason e).Meets C A b J := by
  unfold AgentExecutor.reportFailure
  split
  · exact meets_pure h
  · exact care.queues .fail taskId _ h care.fails

theorem reapOne (care : ReportCare C A J Owes) (x : ActiveSpawn × Resolution) (h : J e b)
    (howes : EndsComplete x.2 → Owes b .complete x.1.taskId) : (reapOne e x).Meets C A b J := by
  have huntracked : J (untrack e x.1.taskId) b := care.same h rfl
  by_cases hrefused : x.2.outcome = .laneBusyRefused
  · rw [reapOne_of_refused hrefused]
    refine meets_bind (care.requeueBusyRefusal x.1 huntracked) ?_
    rintro ⟨requeued, e₁⟩ b₁ h₁
    dsimp only
    split
    · exact meets_pure h₁
    · refine meets_bind (care.dropPersistedSpawn _ h₁) (fun e₂ b₂ h₂ => ?_)
      generalize "lane " ++ x.1.laneKey ++ _ ++ x.2.detail = reason
      exact care.reportFailure _ reason (care.same h₂ rfl)
  · obtain ⟨spawn, r⟩ := x
    unfold AgentExecutor.reapOne
    dsimp only at hrefused howes ⊢
    rw [if_neg hrefused]
    refine meets_bind (care.keeping (care.dropPersistedSpawn spawn.taskId huntracked) howes) ?_
    rintro e₁ b₁ ⟨h₁, howes₁⟩
    split
    · rename_i hdone
      exact care.queues .complete _ _ h₁ (howes₁ (.inl hdone))
    · rename_i hpromoted
      exact care.queues .complete _ _ h₁ (howes₁ (.inr (.inl hpromoted)))
    · rename_i hblocked
      unfold reportBlocked
      cases hballot : r.ballot with
      | none => exact care.queues .complete _ _ h₁ (howes₁ (.inr (.inr ⟨hblocked, hballot⟩)))
      | some ballot =>
          exact care.asks trivial h₁ (fun _ b₂ h₂ => meets_pure h₂)
    · exact care.asks trivial h₁ (fun _ b₂ h₂ => meets_pure h₂)
    · generalize "lane " ++ spawn.laneName ++ ": " ++ r.detail = reason
      exact care.reportFailure _ reason h₁

theorem reapFinishedSpawns (care : ReportCare C A J Owes) (h : J e b) :
    (reapFinishedSpawns e).Meets C A b J := by
  unfold AgentExecutor.reapFinishedSpawns
  split
  · exact meets_pure h
  · refine meets_bind (I := J) (meets_foldlM (I := fun _ e b => J e b) _
      (fun spawn _ e' b' h' => care.sweepCancelled spawn h') h) (fun e₁ b₁ h₁ => ?_)
    split
    · exact meets_pure h₁
    · refine meets_bind (care.observeAll e₁.activeSpawns.rows h₁) ?_
      rintro resolved b₂ ⟨h₂, howes⟩
      refine (meets_foldlM (I := fun xs e b => J e b ∧
        ∀ x ∈ xs, EndsComplete x.2 → Owes b .complete x.1.taskId) _ ?_ ⟨h₂, howes⟩).mono
        (fun _ _ h' => h'.1)
      rintro x xs e' b' ⟨h', hxs⟩
      rw [List.forall_mem_cons] at hxs
      exact Meets.keeping (P := fun b => ∀ y ∈ xs, EndsComplete y.2 → Owes b .complete y.1.taskId)
        (care.reapOne x h' hxs.1) hxs.2
        (fun _ _ _ _ hstep hb y hy hcompletes => care.owes hstep (hb y hy hcompletes))

theorem spawnHermesWorker (care : ReportCare C A J Owes) (task : Task) (h : J e b) :
    (spawnHermesWorker task e).Meets C A b J := by
  unfold AgentExecutor.spawnHermesWorker
  dsimp only
  split
  · exact meets_bind (care.queueForLane _ _ _ h) (fun r b' h' => meets_pure h')
  · refine care.asks trivial h (fun result b₁ h₁ => ?_)
    cases result with
    | notFound => exact care.reportFailure _ _ h₁
    | raised message =>
        dsimp only
        generalize "executor_error: " ++ message = reason
        exact care.reportFailure _ reason h₁
    | started => exact care.track _ h₁

theorem spawnBdayaWorker (care : ReportCare C A J Owes) (task : Task) (h : J e b) :
    (spawnBdayaWorker task e).Meets C A b J := by
  unfold AgentExecutor.spawnBdayaWorker
  refine care.asks trivial h (fun result b₁ h₁ => ?_)
  cases result with
  | notFound => exact care.reportFailure _ _ h₁
  | raised message =>
      dsimp only
      generalize "executor_error: " ++ message = reason
      exact care.reportFailure _ reason h₁
  | started => exact care.track _ h₁

theorem spawnWorker (care : ReportCare C A J Owes) (task : Task) (h : J e b) :
    (spawnWorker task e).Meets C A b J := by
  have hplaced : (lanePlacedElsewhere e task.laneKey).Only ReportQuiet := by
    unfold lanePlacedElsewhere
    split
    · exact only_pure _
    · exact only_ask trivial (fun _ => only_pure _)
  unfold AgentExecutor.spawnWorker
  refine meets_bind (care.of_only h hplaced (returns_true _)) ?_
  rintro placed b₁ ⟨-, h₁⟩
  cases placed with
  | some node =>
      exact care.asks trivial h₁ (fun _ b₂ h₂ => meets_pure h₂)
  | none =>
      dsimp only
      split
      · exact care.spawnHermesWorker task h₁
      · exact care.spawnBdayaWorker task h₁

theorem claimCandidate (care : ReportCare C A J Owes) (st : Nat × Executor) (task : Task)
    (h : J st.2 b) : (claimCandidate st task).Meets C A b (fun st' b' => J st'.2 b') := by
  obtain ⟨budget, e⟩ := st
  unfold AgentExecutor.claimCandidate
  dsimp only
  split
  · exact meets_bind (care.queueForLane _ _ _ h) (fun r b' h' => meets_pure h')
  · split
    · exact meets_pure h
    · exact meets_bind (care.spawnWorker task h) (fun e' b' h' => meets_pure h')

theorem spawnReleased (care : ReportCare C A J Owes) (maxSpawns : Nat) (h : J e b) :
    (spawnReleased maxSpawns e).Meets C A b J := by
  have hdrained : J (drainReleasedLanes e).2 b := care.same h rfl
  unfold AgentExecutor.spawnReleased
  refine meets_bind (I := J) (meets_foldlM (I := fun _ e b => J e b) _
    (fun task _ e' b' h' => care.spawnWorker task h') hdrained) (fun e' b' h' => meets_pure ?_)
  generalize List.drop maxSpawns _ = leftover
  obtain ⟨queue, hqueue⟩ := exists_putBack leftover e'
  refine care.same h' ?_
  rw [hqueue]

theorem claimListed (care : ReportCare C A J Owes) (budget : Nat) (h : J e b) :
    (claimListed budget e).Meets C A b J := by
  unfold AgentExecutor.claimListed
  refine care.asks trivial h (fun tasks b₁ h₁ => ?_)
  cases tasks with
  | none => exact meets_pure h₁
  | some tasks =>
      have hrefresh : (refreshPersistedIds e).Meets C A b₁ J := by
        refine care.of_same h₁
          ((only_refreshPersistedIds e).mono fun _ => ReportQuiet.of_storeRead)
          ((changes_refreshPersistedIds e).mono ?_)
        rintro e' ⟨spawns, ids, foreign, last, rfl⟩
        rfl
      refine meets_bind hrefresh (fun e₂ b₂ h₂ => ?_)
      refine meets_bind (I := fun st b => J st.2 b) (meets_foldlM (I := fun _ st b => J st.2 b) _
        (fun task _ st b' h' => care.claimCandidate st task h') h₂) ?_
      exact fun st b' h' => meets_pure h'

theorem claimPass (care : ReportCare C A J Owes) (h : J e b) : (claimPass e).Meets C A b J := by
  rw [claimPass_eq]
  split
  · refine care.asks trivial h (fun blocked b₁ h₁ => ?_)
    split
    · exact meets_pure h₁
    · unfold passThrough
      refine meets_bind (care.spawnReleased (slots e) h₁) (fun e₂ b₂ h₂ => ?_)
      dsimp only
      split
      · exact meets_pure h₂
      · exact care.claimListed _ h₂
  · exact meets_pure h

theorem pollOnce (care : ReportCare C A J Owes) (h : J e b) : (pollOnce e).Meets C A b J := by
  rw [pollOnce_eq]
  unfold upkeep
  refine meets_bind (I := J) ?_ (fun e' b' h' => care.claimPass h')
  refine meets_bind (care.reapFinishedSpawns h) (fun e₁ b₁ h₁ => ?_)
  refine meets_bind (care.drains h₁) (fun e₂ b₂ h₂ => ?_)
  refine meets_bind (care.sweepLaneQueues h₂) (fun e₃ b₃ h₃ => ?_)
  exact meets_bind (care.renewLeases h₃) (fun _ b₄ h₄ => meets_pure h₄)

theorem pollLoop (care : ReportCare C A J Owes) (cycles : Nat) (h : J e b) :
    (pollLoop cycles e).Meets C A b J := by
  induction cycles generalizing e b with
  | zero => exact meets_pure h
  | succ cycles ih => exact meets_bind (care.pollOnce h) (fun _ _ h' => ih h')

theorem start (care : ReportCare C A J Owes) (cycles : Nat) (h : J e b) :
    (start cycles e).Meets C A b J :=
  meets_bind (care.reconcilePersistedSpawns h) (fun _ _ h' => care.pollLoop cycles h')

end Parts

end ReportCare

/-! ## Custody -/

/-- A terminal report that was sent, and whether main accepted it. -/
structure Posted where
  path : String
  payload : ReportPayload
  ok : Bool
  deriving DecidableEq

/-- The reports that were sent, the last one first. -/
def notePosted (op : ExecOp) (r : op.Res) (mail : List Posted) : List Posted :=
  match op, r with
  | .report path payload, ok => ⟨path, payload, ok⟩ :: mail
  | _, _ => mail

/-- The last report that was sent to the path. -/
def lastPosted (mail : List Posted) (path : String) : Option Posted :=
  mail.find? (fun x => decide (x.path = path))

/-- How often main has not accepted a report of the payload on the path. -/
def failures (mail : List Posted) (path : String) (payload : ReportPayload) : Nat :=
  mail.count ⟨path, payload, false⟩

/-- The executor holds the report of the payload on the path for another attempt. -/
def HoldsReport (e : Executor) (path : String) (payload : ReportPayload) : Prop :=
  ∃ r ∈ e.pendingReports.rows, r.path = path ∧ r.payload = payload

/-- A report of which main has accepted no later one on its path is held, until
it has failed as often as a report may. -/
def ReportsKept (e : Executor) (mail : List Posted) : Prop :=
  ∀ path x, lastPosted mail path = some x → x.ok = false →
    HoldsReport e path x.payload ∨ reportMaxAttempts ≤ failures mail path x.payload

/-- A pending report goes to its own path, and no more attempts are counted of it
than have failed. -/
structure Custody (e : Executor) (mail : List Posted) : Prop where
  path : ∀ r ∈ e.pendingReports.rows, r.path = reportPath r.verb r.taskId
  attempts : ∀ r ∈ e.pendingReports.rows, r.attempts ≤ failures mail r.path r.payload
  kept : ReportsKept e mail

section Custody

variable {e e' : Executor} {mail : List Posted}

theorem failures_le (x : Posted) (path : String) (payload : ReportPayload) :
    failures mail path payload ≤ failures (x :: mail) path payload :=
  List.count_le_count_cons

theorem failures_cons_self (path : String) (payload : ReportPayload) :
    failures (⟨path, payload, false⟩ :: mail) path payload = failures mail path payload + 1 :=
  List.count_cons_self

theorem lastPosted_cons (x : Posted) (mail : List Posted) (path : String) :
    lastPosted (x :: mail) path = if x.path = path then some x else lastPosted mail path := by
  unfold lastPosted
  split
  · rename_i hpath
    exact List.find?_cons_of_pos (decide_eq_true hpath)
  · rename_i hpath
    exact List.find?_cons_of_neg (by simpa using hpath)

/-- A report is given up after its last attempt … -/
theorem attempts_of_retryReport_none {now : Nat} {r : PendingReport}
    (h : retryReport now r = none) : reportMaxAttempts ≤ r.attempts + 1 := by
  unfold retryReport at h
  dsimp only at h
  split at h
  · assumption
  · cases h

/-- … and otherwise is the same report with one attempt more. -/
theorem retryReport_eq {now : Nat} {r next : PendingReport} (h : retryReport now r = some next) :
    ∃ nextAt, next = { r with attempts := r.attempts + 1, nextAt := nextAt } := by
  unfold retryReport at h
  dsimp only at h
  split at h
  · cases h
  · cases h
    exact ⟨_, rfl⟩

/-- One more report is sent, on whose path alone the pending reports change. -/
theorem Custody.post (h : Custody e mail) {x : Posted}
    (hrows : ∀ r ∈ e'.pendingReports.rows, r ∈ e.pendingReports.rows ∨
      r.path = reportPath r.verb r.taskId ∧ r.attempts ≤ failures (x :: mail) r.path r.payload)
    (hothers : ∀ r ∈ e.pendingReports.rows, r.path ≠ x.path → r ∈ e'.pendingReports.rows)
    (hlast : x.ok = false → HoldsReport e' x.path x.payload ∨
      reportMaxAttempts ≤ failures (x :: mail) x.path x.payload) : Custody e' (x :: mail) := by
  refine ⟨fun r hr => ?_, fun r hr => ?_, fun path y hy hok => ?_⟩
  · rcases hrows r hr with hold | ⟨hpath, -⟩
    · exact h.path r hold
    · exact hpath
  · rcases hrows r hr with hold | ⟨-, hattempts⟩
    · exact (h.attempts r hold).trans (failures_le x _ _)
    · exact hattempts
  · rw [lastPosted_cons] at hy
    split at hy
    · rename_i hpath
      cases hy
      rw [← hpath]
      exact hlast hok
    · rename_i hpath
      rcases h.kept path y hy hok with ⟨r, hr, hrpath, hpayload⟩ | hfailed
      · exact .inl ⟨r, hothers r hr (fun heq => hpath (heq.symm.trans hrpath)), hrpath, hpayload⟩
      · exact .inr (hfailed.trans (failures_le x _ _))

theorem Custody.of_same (h : Custody e mail) (hpending : e'.pendingReports = e.pendingReports) :
    Custody e' mail := by
  refine ⟨?_, ?_, fun path x hx hok => ?_⟩
  · rw [hpending]
    exact h.path
  · rw [hpending]
    exact h.attempts
  · unfold HoldsReport
    rw [hpending]
    exact h.kept path x hx hok

/-- The program leads from the reports sent so far to `Q`. -/
abbrev Posts {α : Type} (p : Exec α) (mail : List Posted) (Q : α → List Posted → Prop) : Prop :=
  p.Meets (fun op mail r mail' => mail' = notePosted op r mail) (fun _ _ => True) mail Q

theorem posts_queueReport (verb : ReportVerb) (taskId : String) (payload : ReportPayload)
    (h : Custody e mail) : Posts (queueReport verb taskId payload e) mail Custody := by
  unfold queueReport
  refine meets_perform trivial (fun ok mail₁ hmail => ?_)
  obtain rfl : mail₁ = ⟨reportPath verb taskId, payload, ok⟩ :: mail := hmail
  split
  · rename_i hok
    refine meets_pure (h.post (fun r hr => .inl hr) (fun r hr _ => hr) (fun hfalse => ?_))
    exact Bool.noConfusion (hok.symm.trans hfalse)
  · rename_i hok
    obtain rfl : ok = false := Bool.eq_false_iff.mpr hok
    refine meets_perform trivial (fun now mail₂ hmail => meets_pure ?_)
    obtain rfl : mail₂ = _ := hmail
    refine h.post (fun r hr => ?_) (fun r hr hpath => ?_) (fun _ => .inl ?_)
    · rcases (Table.mem_rows_upsert _).mp hr with rfl | ⟨hold, -⟩
      · have hfailed : 1 ≤ failures (⟨reportPath verb taskId, payload, false⟩ :: mail)
            (reportPath verb taskId) payload := by
          rw [failures_cons_self]
          exact Nat.le_add_left 1 _
        exact .inr ⟨rfl, hfailed⟩
      · exact .inl hold
    · refine (Table.mem_rows_upsert _).mpr (.inr ⟨hr, fun hkey => hpath ?_⟩)
      rw [PendingReport.key_eq, PendingReport.key_eq, Prod.mk.injEq] at hkey
      rw [h.path r hr, hkey.1, hkey.2]
    · exact ⟨_, (Table.mem_rows_upsert _).mpr (.inl rfl), rfl, rfl⟩

/-- A pending report is sent again. -/
theorem posts_drainReport (now : Nat) {entry : PendingReport} (h : Custody e mail)
    (hentry : entry ∈ e.pendingReports.rows) :
    Posts (drainReport now e entry) mail (fun e' mail' => Custody e' mail' ∧
      ∀ r ∈ e.pendingReports.rows, HasKey.key r ≠ HasKey.key entry →
        r ∈ e'.pendingReports.rows) := by
  have hget : e.pendingReports.get? (entry.verb, entry.taskId) = some entry :=
    Table.get?_of_mem hentry
  have hothers : ∀ r ∈ e.pendingReports.rows, HasKey.key r ≠ HasKey.key entry →
      r ∈ (e.pendingReports.erase (entry.verb, entry.taskId)).rows :=
    fun r hr hkey => (Table.mem_rows_erase _).mpr ⟨hr, hkey⟩
  have hapart : ∀ r ∈ e.pendingReports.rows, r.path ≠ entry.path →
      HasKey.key r ≠ HasKey.key entry := by
    intro r hr hpath hkey
    rw [PendingReport.key_eq, PendingReport.key_eq, Prod.mk.injEq] at hkey
    exact hpath (by rw [h.path r hr, h.path entry hentry, hkey.1, hkey.2])
  have herased : ∀ r ∈ (e.pendingReports.erase (entry.verb, entry.taskId)).rows,
      r ∈ e.pendingReports.rows := fun r hr => ((Table.mem_rows_erase _).mp hr).1
  unfold drainReport
  refine meets_perform trivial (fun ok mail₁ hmail => ?_)
  obtain rfl : mail₁ = ⟨entry.path, entry.payload, ok⟩ :: mail := hmail
  rw [hget]
  dsimp only
  split
  · rename_i hok
    refine meets_pure ⟨h.post (fun r hr => .inl (herased r hr))
      (fun r hr hpath => hothers r hr (hapart r hr hpath)) (fun hfalse => ?_), hothers⟩
    exact Bool.noConfusion (hok.symm.trans hfalse)
  · rename_i hok
    obtain rfl : ok = false := Bool.eq_false_iff.mpr hok
    have hfailed : entry.attempts + 1 ≤
        failures (⟨entry.path, entry.payload, false⟩ :: mail) entry.path entry.payload := by
      rw [failures_cons_self]
      exact Nat.succ_le_succ (h.attempts entry hentry)
    cases hnext : retryReport now entry with
    | none =>
        refine meets_pure ⟨h.post (fun r hr => .inl (herased r hr))
          (fun r hr hpath => hothers r hr (hapart r hr hpath)) (fun _ => .inr ?_), hothers⟩
        exact (attempts_of_retryReport_none hnext).trans hfailed
    | some next =>
        obtain ⟨nextAt, rfl⟩ := retryReport_eq hnext
        have hkept : ∀ r ∈ e.pendingReports.rows, HasKey.key r ≠ HasKey.key entry →
            r ∈ (e.pendingReports.upsert
              { entry with attempts := entry.attempts + 1, nextAt := nextAt }).rows :=
          fun r hr hne => (Table.mem_rows_upsert _).mpr (.inr ⟨hr, hne⟩)
        refine meets_pure ⟨h.post (fun r hr => ?_)
          (fun r hr hne => hkept r hr (hapart r hr hne)) (fun _ => .inl ?_), hkept⟩
        · rcases (Table.mem_rows_upsert _).mp hr with rfl | ⟨hold, -⟩
          · exact .inr ⟨h.path entry hentry, hfailed⟩
          · exact .inl hold
        · exact ⟨_, (Table.mem_rows_upsert _).mpr (.inl rfl), rfl, rfl⟩

theorem posts_drainPendingReports (h : Custody e mail) :
    Posts (drainPendingReports e) mail Custody := by
  unfold drainPendingReports
  refine meets_perform trivial (fun now mail₁ hmail => ?_)
  obtain rfl : mail₁ = mail := hmail
  have hdue : ((e.pendingReports.rows.filter (fun r => decide (r.nextAt ≤ now))).map
      (HasKey.key : PendingReport → ReportVerb × String)).Nodup :=
    e.pendingReports.nodup.sublist (List.filter_sublist.map _)
  -- the reports that are due are distinct, so each is pending when its turn comes
  refine Wp.mono (wp_foldlM_distinct (I := Custody)
    (D := fun (e : Executor) (r : PendingReport) => r ∈ e.pendingReports.rows) HasKey.key
    _ (drainReport now) (fun entry e' mail' h' hentry => ?_) hdue e h
    (fun r hr => List.mem_of_mem_filter hr)) ?_
  · refine (posts_drainReport now h' hentry).mono ?_
    rintro e'' mail'' ⟨h'', hothers⟩
    exact ⟨h'', fun r hkey hr => hothers r hr hkey⟩
  · rintro r mail' ⟨e', hr, h', -⟩
    exact ⟨e', hr, h'⟩

theorem custody_care : ReportCare (fun op mail r mail' => mail' = notePosted op r mail)
    (fun _ _ => True) Custody (fun _ _ _ => True) where
  same h hpending := h.of_same hpending
  permits _ := trivial
  quiet {e op mail r mail'} h hop hmail := by
    cases op <;> first | exact hmail ▸ h | cases hop
  owes _ _ := trivial
  fails := trivial
  seen _ _ := trivial
  queues verb id payload h _ := posts_queueReport verb id payload h
  drains h := posts_drainPendingReports h

end Custody

/-! ## Runs -/

section Runs

variable {σ : Type}

/-- An environment with the history of a pass. -/
abbrev recordPass (step : (op : ExecOp) → σ → op.Res × σ) (op : ExecOp) (s : σ × ReapPass) :
    op.Res × (σ × ReapPass) :=
  noting step (fun s op _ pass => pass.after op (step op s).1) op s

/-- An environment with the history of the reports. -/
abbrev recordPosts (step : (op : ExecOp) → σ → op.Res × σ) (op : ExecOp) (s : σ × List Posted) :
    op.Res × (σ × List Posted) :=
  noting step (fun s op _ mail => notePosted op (step op s).1 mail) op s

theorem account_reapFinishedSpawns [SpacedUnicode] (step : (op : ExecOp) → σ → op.Res × σ)
    (e : Executor) (s : σ) : After (recordPass step) (reapFinishedSpawns e) (s, {})
      (fun e' s' => PassAccount e e' s'.2) := by
  have himplements : Implements (recordPass step) Prod.snd
      (fun op pass r pass' => pass' = pass.after op r) := fun _ _ => rfl
  have hpass : Passes (reapFinishedSpawns e) (s, ({} : ReapPass)).2
      (fun e' pass => PassAccount e e' pass) := passes_reapFinishedSpawns e
  exact (after_of_wp hpass (along_of_implements himplements _ _)).2

end Runs

section Example

local instance asciiCustody : SpacedUnicode := SpacedUnicode.ascii

/-- Main cannot be reached; the store has a worker of an earlier life, which has
come to the outcome. -/
def cutOff (outcome : Outcome) : (op : ExecOp) → Unit → op.Res × Unit
  | .time, _ | .monotonic, _ => (0, ())
  | .diskGateBlocks, _ => (false, ())
  | .getTasks _, _ | .getTask _, _ | .getLane _, _ | .getLeases, _ => (none, ())
  | .extendLease _, _ | .report _ _, _ | .block _ _, _ | .requeue _ _ _, _ | .ackCancel _, _ =>
      (false, ())
  | .release _ _ _, _ | .kill _, _ | .recordTaskSpawn _, _ | .deleteTaskSpawn _, _ => ((), ())
  | .popen _ _, _ => (.started, ())
  | .observe _, _ => (some { outcome := outcome, detail := "" }, ())
  | .getAllTaskSpawns _, _ => (some [{ taskId := "a", hermes := true }], ())

/-- The tasks of which main has not taken a ballot or a re-queue. -/
def noteUntold (op : ExecOp) (r : op.Res) (ids : List String) : List String :=
  match op, r with
  | .block taskId _, false | .requeue taskId _ _, false => taskId :: ids
  | _, _ => ids

instance (e : Executor) (id : String) : Decidable (e.Runs id) :=
  inferInstanceAs (Decidable (∃ s ∈ e.activeSpawns.rows, s.taskId = id))

end Example

end HermesCluster
