import HermesCluster.Core.WorkerLifetimes
import HermesCluster.Core.ReportCustody
/-!
# The evidence of a completion

A task is reported complete on the evidence of a look at one of its workers. A
history keeps these looks; a report that waits was made on evidence that is still
on it when the report is sent again.
-/

namespace HermesCluster

open Program hiding pure bind
open Executor AgentExecutor HermesReap VerdictReaders

-- whether a reason is blank is never computed below
attribute [local irreducible] Text.strip

/-! ## What a completion shows of a Hermes worker -/

section Judged

variable [Unicode] {spawnTimeout elapsed : Nat} {spawn : ActiveSpawn} {v : ReapView}

/-- The worker has exited with 0, or is one of an earlier life whose pid is gone;
its delivery is in place, and is a deliverable or a transcript that was promoted. -/
structure Truthful (spawn : ActiveSpawn) (v : ReapView) : Prop where
  exited : spawn.standIn = false → v.exitCode = some 0
  gone : spawn.standIn = true → v.pidAnswers = false
  landed : strandedTmps spawn.startedAt v.tmps = []
  delivers :
    delivered v ≠ "" ∧
        classifyNonDeliverable (delivered v) v.brief
          (Text.contains v.stderr "API failed after") = none ∨
      delivered v = "" ∧ Text.strip v.transcript.read ≠ "" ∧ v.promotes = true

omit [Unicode] in
/-- The outcomes that are reported as complete, or as blocked. -/
def Delivers (o : ReapOutcome) : Prop :=
  o = .done ∨ o = .transcriptPromoted ∨ o = .blocked

omit [Unicode] in
theorem delivers_of_toOutcome {o : ReapOutcome} {r : Resolution} (hr : EndsComplete r)
    (ho : r.outcome = o.toOutcome) : Delivers o := by
  unfold EndsComplete at hr
  rw [ho] at hr
  cases o with
  | done => exact .inl rfl
  | transcriptPromoted => exact .inr (.inl rfl)
  | blocked => exact .inr (.inr rfl)
  | _ => rcases hr with h | h | ⟨h, -⟩ <;> cases h

theorem classify_of_judgeDelivery (h : Delivers (judgeDelivery elapsed v).1) :
    classifyNonDeliverable (delivered v) v.brief
      (Text.contains v.stderr "API failed after") = none := by
  unfold judgeDelivery at h
  dsimp only at h
  split at h
  · rcases h with h | h | h <;> cases h
  · assumption

theorem promoted_of_judgeTranscript (h : Delivers (judgeTranscript elapsed v).1) :
    Text.strip v.transcript.read ≠ "" ∧ v.promotes = true := by
  unfold judgeTranscript at h
  dsimp only at h
  split at h
  · rcases h with h | h | h <;> cases h
  · rename_i htranscript
    split at h
    · rcases h with h | h | h <;> cases h
    · split at h
      · rename_i hpromotes
        exact ⟨htranscript, hpromotes⟩
      · rcases h with h | h | h <;> cases h

theorem not_delivers_judgeCrash {rc : Int} : ¬Delivers (judgeCrash spawn rc elapsed v).1 := by
  unfold judgeCrash
  dsimp only
  split
  · rintro (h | h | h) <;> cases h
  · rintro (h | h | h) <;> cases h

omit [Unicode] in
theorem poll_zero (h : poll spawn v = some 0) :
    (spawn.standIn = false → v.exitCode = some 0) ∧
      (spawn.standIn = true → v.pidAnswers = false) := by
  unfold poll at h
  split at h
  · rename_i hstandIn
    refine ⟨fun hown => absurd (hstandIn.symm.trans hown) (by decide), fun _ => ?_⟩
    split at h
    · cases h
    · rename_i hanswers
      exact Bool.eq_false_iff.mpr hanswers
  · rename_i hown
    exact ⟨fun _ => h, fun hstandIn => absurd hstandIn hown⟩

/-- The reap calls a worker done, promoted or blocked only on its evidence. -/
theorem truthful_of_reap {x : ReapOutcome × String}
    (h : reapHermesSpawn spawnTimeout spawn elapsed v = some x) (hx : Delivers x.1) :
    Truthful spawn v := by
  unfold reapHermesSpawn at h
  split at h
  · split at h
    · cases h
      rcases hx with h | h | h <;> cases h
    · cases h
  · rename_i rc hexit
    split at h
    · cases h
      exact absurd hx not_delivers_judgeCrash
    · rename_i hrc
      obtain rfl : rc = 0 := Decidable.not_not.mp hrc
      obtain ⟨hexited, hgone⟩ := poll_zero hexit
      dsimp only at h
      split at h
      · cases h
        rcases hx with h | h | h <;> cases h
      · rename_i hlanded
        have hlanded' := Decidable.not_not.mp hlanded
        split at h
        · rename_i hdelivered
          cases h
          exact ⟨hexited, hgone, hlanded', .inl ⟨hdelivered, classify_of_judgeDelivery hx⟩⟩
        · rename_i hnone
          cases h
          exact ⟨hexited, hgone, hlanded',
            .inr ⟨Decidable.not_not.mp hnone, promoted_of_judgeTranscript hx⟩⟩

end Judged

/-! ## The history of the looks -/

/-- A look at a worker of which its completion may be reported. -/
structure Fate where
  spawn : ActiveSpawn
  view : ReapView

/-- The looks that were followed by a completion. -/
def noteFate (op : ExecOp) (v : ReapView) (r : op.Res) (fates : List Fate) : List Fate :=
  match op, r with
  | .observe spawn, some seen =>
      if EndsComplete seen then ⟨spawn, v⟩ :: fates else fates
  | _, _ => fates

section Fates

variable [Unicode]

/-- There was a look at a worker of the task, and one of Hermes bears it out. -/
def Evidence (fates : List Fate) (id : String) : Prop :=
  ∃ f ∈ fates, f.spawn.taskId = id ∧ (f.spawn.hermes = true → Truthful f.spawn f.view)

/-- A worker of Hermes is resolved as the reap judges what there is to see of it. -/
def JudgedReply (spawnTimeout : Nat) (op : ExecOp) (v : ReapView) (r : op.Res) : Prop :=
  match op, r with
  | .observe spawn, seen => spawn.hermes = true → ∃ elapsed, seen.map Resolution.outcome =
      (reapHermesSpawn spawnTimeout spawn elapsed v).map (fun x => x.1.toOutcome)
  | _, _ => True

/-- What ends a worker of Hermes as complete bears it out. -/
def TruthfulLook (op : ExecOp) (v : ReapView) (r : op.Res) : Prop :=
  match op, r with
  | .observe spawn, some seen => spawn.hermes = true → EndsComplete seen → Truthful spawn v
  | _, _ => True

/-- A completion is reported on evidence. -/
def ReportsEvident (fates : List Fate) : ExecOp → Prop
  | .report path _ => ∀ id, path = reportPath .complete id → Evidence fates id
  | _ => True

/-- A report that waits goes to its own path, and a completion has its evidence. -/
structure ReportEvident (fates : List Fate) (r : PendingReport) : Prop where
  path : r.path = reportPath r.verb r.taskId
  evident : r.verb = .complete → Evidence fates r.taskId

theorem Evidence.cons {fates fates' : List Fate} {id : String} (h : Evidence fates id)
    (hsub : fates ⊆ fates') : Evidence fates' id :=
  let ⟨f, hf, hid, htrue⟩ := h
  ⟨f, hsub hf, hid, htrue⟩

omit [Unicode] in
theorem subset_noteFate (op : ExecOp) (v : ReapView) (r : op.Res) (fates : List Fate) :
    fates ⊆ noteFate op v r fates := by
  unfold noteFate
  split
  · split
    · exact List.subset_cons_self _ fates
    · exact List.Subset.refl fates
  · exact List.Subset.refl fates

theorem ReportEvident.mono {fates fates' : List Fate} {r : PendingReport}
    (h : ReportEvident fates r) (hsub : fates ⊆ fates') : ReportEvident fates' r :=
  ⟨h.path, fun hverb => (h.evident hverb).cons hsub⟩

theorem ReportEvident.permits {fates : List Fate} {verb : ReportVerb} {taskId : String}
    (h : verb = .complete → Evidence fates taskId) (payload : ReportPayload) :
    ReportsEvident fates (.report (reportPath verb taskId) payload) := by
  intro id hpath
  obtain ⟨hverb, rfl⟩ := reportPath_inj hpath
  exact h hverb

variable {spawnTimeout : Nat} {e e' : Executor} {fates : List Fate}

/-- The pending reports are evident. -/
def PendingEvident (e : Executor) (fates : List Fate) : Prop :=
  ∀ r ∈ e.pendingReports.rows, ReportEvident fates r

/-- The program leads from the looks so far to `Q`, and reports completions on
evidence, where workers are resolved as the reap judges them. -/
abbrev Bears (spawnTimeout : Nat) {α : Type} (p : Exec α) (fates : List Fate)
    (Q : α → List Fate → Prop) : Prop :=
  p.Meets (fun op fates r fates' =>
      ∃ v, JudgedReply spawnTimeout op v r ∧ fates' = noteFate op v r fates)
    ReportsEvident fates Q

theorem bears_queueReport (verb : ReportVerb) (taskId : String) (payload : ReportPayload)
    (h : PendingEvident e fates) (howes : verb = .complete → Evidence fates taskId) :
    Bears spawnTimeout (queueReport verb taskId payload e) fates PendingEvident := by
  unfold queueReport
  refine meets_perform (ReportEvident.permits howes payload) (fun ok fates₁ hC => ?_)
  obtain ⟨-, -, rfl⟩ := hC
  split
  · exact meets_pure h
  · refine meets_perform trivial (fun now fates₂ hC => meets_pure (fun r hr => ?_))
    obtain ⟨-, -, rfl⟩ := hC
    rcases (Table.mem_rows_upsert _).mp hr with rfl | ⟨hold, -⟩
    · exact ⟨rfl, howes⟩
    · exact h r hold

theorem bears_drainReport (now : Nat) {entry : PendingReport} (h : PendingEvident e fates)
    (hentry : ReportEvident fates entry) :
    Bears spawnTimeout (drainReport now e entry) fates
      (fun e' fates' => PendingEvident e' fates' ∧ fates' = fates) := by
  have herased : ∀ key, PendingEvident
      { e with pendingReports := e.pendingReports.erase key } fates :=
    fun key r hr => h r ((Table.mem_rows_erase _).mp hr).1
  have hpermits := ReportEvident.permits hentry.evident entry.payload
  rw [← hentry.path] at hpermits
  unfold drainReport
  refine meets_perform hpermits (fun ok fates₁ hC => ?_)
  obtain ⟨-, -, rfl⟩ := hC
  cases hcurrent : e.pendingReports.get? (entry.verb, entry.taskId) with
  | none => exact meets_pure ⟨h, rfl⟩
  | some current =>
      dsimp only
      split
      · exact meets_pure ⟨herased _, rfl⟩
      · cases hnext : retryReport now current with
        | none => exact meets_pure ⟨herased _, rfl⟩
        | some next =>
            obtain ⟨nextAt, rfl⟩ := retryReport_eq hnext
            refine meets_pure ⟨fun r hr => ?_, rfl⟩
            rcases (Table.mem_rows_upsert _).mp hr with rfl | ⟨hold, -⟩
            · have hold := h current (Table.mem_of_get? hcurrent)
              exact ⟨hold.path, hold.evident⟩
            · exact h r hold

theorem bears_drainPendingReports (h : PendingEvident e fates) :
    Bears spawnTimeout (drainPendingReports e) fates PendingEvident := by
  unfold drainPendingReports
  refine meets_perform trivial (fun now fates₁ hC => ?_)
  obtain ⟨-, -, rfl⟩ := hC
  refine (meets_foldlM (I := fun due e' fates' => PendingEvident e' fates' ∧
    ∀ r ∈ due, ReportEvident fates' r) (drainReport now) ?_
    ⟨h, fun r hr => h r (List.mem_of_mem_filter hr)⟩).mono (fun _ _ h' => h'.1)
  rintro entry due e' fates' ⟨h', hdue⟩
  rw [List.forall_mem_cons] at hdue
  refine (bears_drainReport now h' hdue.1).mono ?_
  rintro e'' fates'' ⟨h'', rfl⟩
  exact ⟨h'', hdue.2⟩

theorem JudgedReply.truthful {spawnTimeout : Nat} {op : ExecOp} {v : ReapView} {r : op.Res}
    (h : JudgedReply spawnTimeout op v r) : TruthfulLook op v r := by
  unfold TruthfulLook
  split
  · rename_i spawn seen
    intro hhermes hseen
    obtain ⟨elapsed, houtcome⟩ := h hhermes
    cases hreap : reapHermesSpawn spawnTimeout spawn elapsed v with
    | none =>
        rw [hreap] at houtcome
        cases houtcome
    | some x =>
        rw [hreap] at houtcome
        exact truthful_of_reap hreap (delivers_of_toOutcome hseen (Option.some_inj.mp houtcome))
  · trivial

theorem evidence_of_seen {spawn : ActiveSpawn} {r : Resolution} {v : ReapView}
    (hjudged : JudgedReply spawnTimeout (.observe spawn) v (some r)) (hr : EndsComplete r) :
    Evidence (noteFate (.observe spawn) v (some r) fates) spawn.taskId := by
  refine ⟨⟨spawn, v⟩, ?_, rfl, fun hhermes => ?_⟩
  · unfold noteFate
    dsimp only
    rw [if_pos hr]
    exact List.mem_cons_self
  · exact hjudged.truthful hhermes hr

theorem evident_care : ReportCare
    (fun op fates r fates' =>
      ∃ v, JudgedReply spawnTimeout op v r ∧ fates' = noteFate op v r fates)
    ReportsEvident PendingEvident
    (fun fates verb id => verb = .complete → Evidence fates id) where
  same h hpending r hr := h r (hpending ▸ hr)
  permits {fates op} hop := by
    cases op <;> trivial
  quiet h _ hC r hr := by
    obtain ⟨v, -, rfl⟩ := hC
    exact (h r hr).mono (subset_noteFate _ v _ _)
  owes hC howes hverb := by
    obtain ⟨v, -, rfl⟩ := hC
    exact (howes hverb).cons (subset_noteFate _ v _ _)
  fails hverb := by cases hverb
  seen hC hr _ := by
    obtain ⟨v, hjudged, rfl⟩ := hC
    exact evidence_of_seen hjudged hr
  queues verb id payload h howes := bears_queueReport verb id payload h howes
  drains h := bears_drainPendingReports h

end Fates

/-! ## Runs -/

section Runs

variable {σ : Type}

/-- What there is to see of a worker, and to read of it once it has ended. -/
structure Look where
  elapsed : Nat
  view : ReapView
  result : Option String := none
  ballot : Option BlockTaskRequest := none

/-- An environment whose Hermes workers are resolved as the reap judges them. -/
def judging [Unicode] (spawnTimeout : Nat) (look : σ → ActiveSpawn → Look)
    (step : (op : ExecOp) → σ → op.Res × σ) : (op : ExecOp) → σ → op.Res × σ
  | .observe spawn, s =>
      if spawn.hermes = true then
        let seen := look s spawn
        ((reapHermesSpawn spawnTimeout spawn seen.elapsed seen.view).map (fun x =>
            { outcome := x.1.toOutcome, detail := x.2, result := seen.result,
              ballot := seen.ballot }),
          (step (.observe spawn) s).2)
      else step (.observe spawn) s
  | op, s => step op s

/-- An environment with the history of the looks. -/
abbrev recordFates (step : (op : ExecOp) → σ → op.Res × σ) (look : σ → ActiveSpawn → Look)
    (op : ExecOp) (s : σ × List Fate) : op.Res × (σ × List Fate) :=
  noting step (fun s op _ fates =>
    noteFate op (Workers.viewOf (fun s spawn => (look s spawn).view) s op) (step op s).1 fates) op s

theorem judgedReply_judging [Unicode] (spawnTimeout : Nat) (look : σ → ActiveSpawn → Look)
    (step : (op : ExecOp) → σ → op.Res × σ) (op : ExecOp) (s : σ) :
    JudgedReply spawnTimeout op (Workers.viewOf (fun s spawn => (look s spawn).view) s op)
      (judging spawnTimeout look step op s).1 := by
  cases op with
  | observe spawn =>
      refine fun hhermes => ⟨(look s spawn).elapsed, ?_⟩
      dsimp only [judging]
      rw [if_pos hhermes]
      exact Option.map_map _ _ _
  | _ => trivial

/-- A pass accounts for every spawn that it resolves. In a run every worker of
Hermes that ends as complete bears it out, and if the run begins with no report
pending, every completion is reported on such a look at a worker of the task,
whatever else main and the workers answer. -/
theorem completions_evident [SpacedUnicode] (spawnTimeout : Nat)
    (look : σ → ActiveSpawn → Look) (step : (op : ExecOp) → σ → op.Res × σ) (e : Executor)
    (s : σ) :
    After (recordPass (judging spawnTimeout look step)) (reapFinishedSpawns e) (s, {})
        (fun e' s' => PassAccount e e' s'.2) ∧
      ∀ cycles, e.pendingReports.rows = [] →
        (start cycles e).Along (judging spawnTimeout look step) (fun s op _ =>
          TruthfulLook op (Workers.viewOf (fun s spawn => (look s spawn).view) s op)
            (judging spawnTimeout look step op s).1) s ∧
        (start cycles e).Along (recordFates (judging spawnTimeout look step) look)
          (fun s op _ => ReportsEvident s.2 op) (s, []) := by
  refine ⟨account_reapFinishedSpawns _ e s, fun cycles hpending => ?_⟩
  have hnone : PendingEvident e (s, ([] : List Fate)).2 := by
    unfold PendingEvident
    rw [hpending]
    exact List.forall_mem_nil _
  have hjudged : (start cycles e).Along (judging spawnTimeout look step) (fun s op _ =>
      JudgedReply spawnTimeout op (Workers.viewOf (fun s spawn => (look s spawn).view) s op)
        (judging spawnTimeout look step op s).1) s :=
    along_of_forall (judgedReply_judging spawnTimeout look step) _ s
  have hbears : Bears spawnTimeout (start cycles e) (s, ([] : List Fate)).2 PendingEvident :=
    evident_care.start cycles hnone
  refine ⟨hjudged.mono fun _ _ _ hreply => hreply.truthful,
    (along_of_wp_of_along hbears ((along_noting_noted hjudged).mono ?_)).1⟩
  rintro s₁ op s₂ ⟨hreply, hnoted⟩
  exact ⟨_, hreply, hnoted⟩

end Runs

section Example

local instance asciiEvidence : SpacedUnicode := SpacedUnicode.ascii

/-- The worker was killed after it had written its result. -/
def killedLate : Look where
  elapsed := 1
  view := { exitCode := some 137, pidAnswers := false, resultPath := "r", result := .text "done" }

/-- The store has a worker of an earlier life. -/
def earlierLife : (op : ExecOp) → Unit → op.Res × Unit
  | .time, _ | .monotonic, _ => (0, ())
  | .diskGateBlocks, _ => (false, ())
  | .getTasks _, _ | .getTask _, _ | .getLane _, _ | .getLeases, _ => (none, ())
  | .extendLease _, _ | .report _ _, _ | .block _ _, _ | .requeue _ _ _, _ | .ackCancel _, _ =>
      (true, ())
  | .release _ _ _, _ | .kill _, _ | .recordTaskSpawn _, _ | .deleteTaskSpawn _, _ => ((), ())
  | .popen _ _, _ => (.started, ())
  | .observe _, _ => (none, ())
  | .getAllTaskSpawns _, _ => (some [{ taskId := "a", hermes := true }], ())

/-- The worker is gone. -/
abbrev goneWorker : (op : ExecOp) → Unit → op.Res × Unit :=
  judging 1 (fun _ _ => killedLate) earlierLife

theorem completions_evident_goneWorker :
    (start 2 { nodeId := "n", hermesWorker := true }).Along goneWorker (fun s op _ =>
      TruthfulLook op (Workers.viewOf (fun _ _ => killedLate.view) s op) (goneWorker op s).1) () ∧
    (start 2 { nodeId := "n", hermesWorker := true }).Along
      (recordFates goneWorker (fun _ _ => killedLate))
      (fun s op _ => ReportsEvident s.2 op) ((), []) :=
  (completions_evident 1 (fun _ _ => killedLate) earlierLife
    { nodeId := "n", hermesWorker := true } ()).2 2 rfl

/-- The task is reported complete after a look at a worker of it that had exited
with 0. -/
def ReportsExited (fates : List Fate) (id : String) : ExecOp → Prop
  | .report path _ => path = reportPath .complete id →
      ∃ f ∈ fates, f.spawn.taskId = id ∧ f.view.exitCode = some 0
  | _ => True

instance (fates : List Fate) (id : String) : DecidablePred (ReportsExited fates id) := by
  intro op
  induction op using ExecOp.casesOn with
  | report path payload => exact inferInstanceAs (Decidable (_ → _))
  | _ => exact isTrue trivial

/-- Of a worker of an earlier life the exit code is not known: one that was killed
is reported complete. -/
theorem killed_reported_complete :
    ¬(start 1 { nodeId := "n", hermesWorker := true }).Along
      (recordFates goneWorker (fun _ _ => killedLate))
      (fun s op _ => ∀ id, ReportsExited s.2 id op) ((), []) := by
  intro h
  have hone : (start 1 { nodeId := "n", hermesWorker := true }).Along
      (recordFates goneWorker (fun _ _ => killedLate))
      (fun s op _ => ReportsExited s.2 "a" op) ((), []) := h.mono fun _ _ _ hop => hop "a"
  revert hone
  decide +kernel

end Example

end HermesCluster
