import HermesCluster.Core.BusyRefusals
/-!
# Outcomes

What `_reap_finished_spawns` makes of the spawns it looks at: which of them have
ended, and what main is told of each. This is said of one pass, from any
executor, in any environment and whichever calls to main fail.
-/

namespace HermesCluster

open Program hiding pure bind
open Executor AgentExecutor VerdictReaders

-- whether a reason is blank is never computed below
attribute [local irreducible] Text.strip

/-! ## What main is told -/

/-- The path of a terminal report. -/
def reportPath (verb : ReportVerb) (taskId : String) : String :=
  "/api/v1/tasks/" ++ taskId ++ "/" ++ verb.value

theorem reportPath_inj {verb verb' : ReportVerb} {id id' : String}
    (h : reportPath verb id = reportPath verb' id') : verb = verb' ∧ id = id' := by
  have htail : id.toList ++ ('/' :: verb.value.toList) =
      id'.toList ++ ('/' :: verb'.value.toList) := by
    have hlist := congrArg String.toList h
    simp only [reportPath, String.toList_append, List.append_assoc] at hlist
    exact List.append_cancel_left hlist
  have hlast : ('/' :: verb.value.toList).getLast? = ('/' :: verb'.value.toList).getLast? := by
    have hends := congrArg List.getLast? htail
    rwa [List.getLast?_append_of_ne_nil _ (List.cons_ne_nil _ _),
      List.getLast?_append_of_ne_nil _ (List.cons_ne_nil _ _)] at hends
  cases verb with
  | complete =>
      cases verb' with
      | complete => exact ⟨rfl, String.toList_inj.mp (List.append_cancel_right htail)⟩
      | fail =>
          change some 'e' = some 'l' at hlast
          cases hlast
  | fail =>
      cases verb' with
      | complete =>
          change some 'l' = some 'e' at hlast
          cases hlast
      | fail => exact ⟨rfl, String.toList_inj.mp (List.append_cancel_right htail)⟩

/-- The report of a completed task. -/
def completionReport (taskId : String) (result : Option String) : ExecOp :=
  .report (reportPath .complete taskId) { result := result.filter (fun r => decide (r ≠ "")) }

section Told

variable [Unicode]

/-- The report of a failed task. -/
def failureReport (taskId reason : String) : ExecOp :=
  .report (reportPath .fail taskId) { reason := some (Text.strip reason) }

/-- What main is told of a spawn that has ended. -/
def outcomeOp (retryLimit : Nat) (x : ActiveSpawn × Resolution) : ExecOp :=
  match x.2.outcome with
  | .laneBusyRefused =>
      failureReport x.1.taskId ("lane " ++ x.1.laneKey ++
        " busy after 5 retries — hermes said: " ++ x.2.detail)
  | .done | .transcriptPromoted => completionReport x.1.taskId x.2.result
  | .blocked =>
      match x.2.ballot with
      | none => completionReport x.1.taskId x.2.result
      | some ballot => .block x.1.taskId ballot
  | .nonDeliverable =>
      .requeue x.1.taskId
        (Text.take 2000 ("non_deliverable: lane " ++ x.1.laneName ++ ": " ++ x.2.detail))
        (decide (x.1.attempt < retryLimit))
  | .timeout | .other =>
      failureReport x.1.taskId ("lane " ++ x.1.laneName ++ ": " ++ x.2.detail)

omit [Unicode] in
/-- Reported as complete, as is a ballot that cannot be read any more. -/
def EndsComplete (r : Resolution) : Prop :=
  r.outcome = .done ∨ r.outcome = .transcriptPromoted ∨ r.outcome = .blocked ∧ r.ballot = none

instance : DecidablePred EndsComplete := fun _ => inferInstanceAs (Decidable (_ ∨ _ ∨ _))

omit [Unicode] in
/-- Refused by its lane, with retries left. -/
def MayWait (x : ActiveSpawn × Resolution) : Prop :=
  x.2.outcome = .laneBusyRefused ∧ x.1.busyAttempts + 1 ≤ laneBusyMaxRetries

/-- Main is told of each ended spawn, once and in their order; the task of one
that its lane refused may wait its turn again instead. -/
inductive Accounted (retryLimit : Nat) (e : Executor) :
    List (ActiveSpawn × Resolution) → List ExecOp → Prop
  | nil : Accounted retryLimit e [] []
  | told {x xs ops} : Accounted retryLimit e xs ops →
      Accounted retryLimit e (x :: xs) (outcomeOp retryLimit x :: ops)
  | waits {x xs ops} : MayWait x → e.Waits (busyPayload x.1).id → Accounted retryLimit e xs ops →
      Accounted retryLimit e (x :: xs) ops

theorem Accounted.mono {retryLimit : Nat} {e e' : Executor}
    {xs : List (ActiveSpawn × Resolution)} {ops : List ExecOp} (h : Accounted retryLimit e xs ops)
    (hwaits : ∀ id, e.Waits id → e'.Waits id) : Accounted retryLimit e' xs ops := by
  induction h with
  | nil => exact .nil
  | told _ ih => exact .told ih
  | waits hmay hwait _ ih => exact .waits hmay (hwaits _ hwait) ih

theorem Accounted.append {retryLimit : Nat} {e : Executor} {xs ys : List (ActiveSpawn × Resolution)}
    {ops ops' : List ExecOp} (h : Accounted retryLimit e xs ops)
    (h' : Accounted retryLimit e ys ops') : Accounted retryLimit e (xs ++ ys) (ops ++ ops') := by
  induction h with
  | nil => exact h'
  | told _ ih => exact .told ih
  | waits hmay hwait _ ih => exact .waits hmay hwait ih

end Told

/-! ## A pass -/

/-- What a pass has come to. -/
structure ReapPass where
  /-- The swept tasks of which main awaits an acknowledgement. -/
  cancelling : List String := []
  acked : List String := []
  ended : List (ActiveSpawn × Resolution) := []
  told : List ExecOp := []

/-- The pass after an operation. -/
def ReapPass.after (op : ExecOp) (r : op.Res) (pass : ReapPass) : ReapPass :=
  match op, r with
  | .getTask taskId, some row =>
      if row.status = .cancelRequested then
        { pass with cancelling := pass.cancelling ++ [taskId] }
      else pass
  | .ackCancel taskId, _ => { pass with acked := pass.acked ++ [taskId] }
  | .observe spawn, some resolution => { pass with ended := pass.ended ++ [(spawn, resolution)] }
  | .report path payload, _ => { pass with told := pass.told ++ [.report path payload] }
  | .block taskId ballot, _ => { pass with told := pass.told ++ [.block taskId ballot] }
  | .requeue taskId reason requeue, _ =>
      { pass with told := pass.told ++ [.requeue taskId reason requeue] }
  | _, _ => pass

/-- The program leads from the pass to `Q`. -/
abbrev Passes {α : Type} (p : Exec α) (pass : ReapPass) (Q : α → ReapPass → Prop) : Prop :=
  p.Meets (fun op pass r pass' => pass' = pass.after op r) (fun _ _ => True) pass Q

/-- The operations that a pass does not speak of. -/
def PassQuiet : ExecOp → Prop
  | .getTask _ | .ackCancel _ | .observe _ | .report _ _ | .block _ _ | .requeue _ _ _ => False
  | _ => True

/-- The same spawns are live, and whoever waits still does. -/
structure SameTurn (e e' : Executor) : Prop where
  limit : e'.retryLimit = e.retryLimit
  active : e'.activeSpawns = e.activeSpawns
  waits : ∀ id, e.Waits id → e'.Waits id

theorem SameTurn.refl (e : Executor) : SameTurn e e := ⟨rfl, rfl, fun _ => id⟩

theorem SameTurn.trans {e e' e'' : Executor} (h : SameTurn e e') (h' : SameTurn e' e'') :
    SameTurn e e'' :=
  ⟨h'.limit.trans h.limit, h'.active.trans h.active, fun id hid => h'.waits id (h.waits id hid)⟩

section Parts

variable {e e' : Executor} {pass : ReapPass}

theorem passes_of_only {α : Type} {I : α → Prop} {p : Exec α} (hp : p.Only PassQuiet)
    (hI : p.Returns I) : Passes p pass (fun a pass' => I a ∧ pass' = pass) := by
  refine wp_of_only (I := (· = pass)) hp hI rfl (fun _ _ => trivial) ?_
  rintro op pass₁ r pass₂ rfl hop hafter
  cases op <;> first | exact hafter | cases hop

theorem passes_dropPersistedSpawn (taskId : String) (e : Executor) :
    Passes (dropPersistedSpawn taskId e) pass (fun e' pass' => SameTurn e e' ∧ pass' = pass) := by
  refine passes_of_only (only_dropPersistedSpawn taskId e trivial)
    ((changes_dropPersistedSpawn taskId e).mono ?_)
  rintro e' ⟨ids, rfl⟩
  exact ⟨rfl, rfl, fun _ => id⟩

theorem passes_queueReport (verb : ReportVerb) (taskId : String) (payload : ReportPayload)
    (e : Executor) : Passes (queueReport verb taskId payload e) pass (fun e' pass' =>
      SameTurn e e' ∧
        pass' = { pass with told := pass.told ++ [.report (reportPath verb taskId) payload] }) := by
  unfold queueReport
  refine meets_perform trivial (fun ok pass₁ hpass => ?_)
  obtain rfl : pass₁ = _ := hpass
  split
  · exact meets_pure ⟨SameTurn.refl e, rfl⟩
  · refine meets_perform trivial (fun now pass₂ hpass => ?_)
    obtain rfl : pass₂ = _ := hpass
    exact meets_pure ⟨⟨rfl, rfl, fun _ => id⟩, rfl⟩

/-- A task that is queued waits, as do those that did. -/
theorem passes_queueForLane (laneKey : String) (task : Task) (attempts : Nat) (e : Executor) :
    Passes (queueForLane laneKey task attempts e) pass (fun r pass' =>
      (SameTurn e r.2 ∧ (r.1 = true → r.2.Waits task.id)) ∧ pass' = pass) := by
  refine passes_of_only (only_queueForLane laneKey task attempts e trivial)
    ((returns_and (changes_queueForLane laneKey task attempts e)
      (waiting_queueForLane laneKey task attempts e)).mono ?_)
  rintro ⟨ok, e'⟩ ⟨⟨queue, queueMeta, rfl⟩, -, -, hwaiting⟩
  rcases hwaiting with ⟨hsame, hold⟩ | ⟨-, hadded⟩
  · have hwaits : ∀ id, e.Waits id → Waits _ id :=
      fun id ⟨t, ht, hid⟩ => ⟨t, hsame.mem_iff.mpr ht, hid⟩
    exact ⟨⟨rfl, rfl, hwaits⟩, fun hok => hwaits task.id (hold hok)⟩
  · refine ⟨⟨rfl, rfl, fun id ⟨t, ht, hid⟩ => ?_⟩, fun _ => ?_⟩
    · exact ⟨t, hadded.mem_iff.mpr (List.mem_cons_of_mem task ht), hid⟩
    · exact ⟨task, hadded.mem_iff.mpr List.mem_cons_self, rfl⟩

/-- A worker that the lane refused waits its turn again, which is possible five
times, or nothing is done for it. -/
theorem passes_requeueBusyRefusal (spawn : ActiveSpawn) (e : Executor) :
    Passes (requeueBusyRefusal spawn e) pass (fun r pass' => pass' = pass ∧ SameTurn e r.2 ∧
      (r.1 = true → spawn.busyAttempts + 1 ≤ laneBusyMaxRetries ∧
        r.2.Waits (busyPayload spawn).id)) := by
  unfold requeueBusyRefusal
  dsimp only
  split
  · exact meets_pure ⟨rfl, SameTurn.refl e, nofun⟩
  · rename_i hretries
    refine meets_bind (passes_queueForLane spawn.laneKey (busyPayload spawn) _ e) ?_
    rintro ⟨ok, e₁⟩ _ ⟨⟨hturn, hwaits⟩, rfl⟩
    dsimp only at hturn hwaits ⊢
    split
    · rename_i hok
      refine meets_bind (passes_dropPersistedSpawn spawn.taskId e₁) ?_
      rintro e₂ _ ⟨hturn', rfl⟩
      refine meets_pure ⟨rfl, hturn.trans hturn', fun _ => ⟨Nat.le_of_not_lt hretries, ?_⟩⟩
      exact hturn'.waits _ (hwaits hok)
    · exact meets_pure ⟨rfl, hturn, nofun⟩

/-- The swept tasks are acknowledged, as main awaits it, and no longer tracked. -/
theorem passes_sweepCancelled (e : Executor) (spawn : ActiveSpawn) :
    Passes (sweepCancelled e spawn) pass (fun e' pass' => e'.retryLimit = e.retryLimit ∧
      e'.activeSpawns.rows.Sublist e.activeSpawns.rows ∧
      ∃ ids, pass' =
          { pass with cancelling := pass.cancelling ++ ids, acked := pass.acked ++ ids } ∧
        ∀ id ∈ ids, ¬e'.Runs id) := by
  unfold sweepCancelled
  refine meets_perform trivial (fun row pass₁ hpass => ?_)
  cases row with
  | none =>
      refine meets_pure ⟨rfl, List.Sublist.refl _, [], ?_, fun _ hid => by cases hid⟩
      obtain rfl : pass₁ = pass := hpass
      rw [List.append_nil, List.append_nil]
  | some row =>
      dsimp only
      split
      · rename_i hlive
        refine meets_pure ⟨rfl, List.Sublist.refl _, [], ?_, fun _ hid => by cases hid⟩
        obtain rfl : pass₁ = pass := hpass.trans (if_neg hlive.2)
        rw [List.append_nil, List.append_nil]
      · refine meets_bind (passes_of_only (only_killSpawnProcess spawn trivial)
          (returns_true _)) ?_
        rintro _ _ ⟨-, rfl⟩
        refine meets_bind (passes_dropPersistedSpawn spawn.taskId _) ?_
        rintro e₁ _ ⟨hturn, rfl⟩
        have hactive : e₁.activeSpawns = e.activeSpawns.erase spawn.taskId := hturn.active
        have hsub : e₁.activeSpawns.rows.Sublist e.activeSpawns.rows := by
          rw [hactive]
          exact List.filter_sublist
        split
        · rename_i hcancel
          refine meets_perform trivial (fun _ pass₂ hpass' => meets_pure ⟨hturn.limit, hsub,
            [spawn.taskId], ?_, fun id hid => ?_⟩)
          · obtain rfl : pass₂ = _ := hpass'
            obtain rfl : _ = _ := hpass.trans (if_pos hcancel)
            rfl
          · rw [List.mem_singleton] at hid
            rintro ⟨s, hs, heq⟩
            rw [hactive] at hs
            exact ((Table.mem_rows_erase _).mp hs).2 (heq.trans hid)
        · rename_i hcancel
          refine meets_pure ⟨hturn.limit, hsub, [], ?_, fun _ hid => by cases hid⟩
          rw [hpass.trans (if_neg hcancel), List.append_nil, List.append_nil]

/-- Each live spawn is looked at once. -/
theorem passes_observeAll (spawns : List ActiveSpawn) :
    Passes (observeAll spawns) pass (fun resolved pass' =>
      (resolved.map Prod.fst).Sublist spawns ∧
        pass' = { pass with ended := pass.ended ++ resolved }) := by
  induction spawns generalizing pass with
  | nil =>
      refine meets_pure ⟨List.Sublist.refl _, ?_⟩
      rw [List.append_nil]
  | cons spawn spawns ih =>
      have hkill : ∀ seen, (killTimedOut spawn seen).Only PassQuiet := by
        intro seen
        unfold killTimedOut
        split
        · exact only_killSpawnProcess spawn trivial
        · exact only_pure _
      unfold observeAll
      refine meets_perform trivial (fun seen pass₁ hpass => ?_)
      refine meets_bind (passes_of_only (hkill seen) (returns_true _)) ?_
      rintro _ pass₁ ⟨-, rfl⟩
      refine meets_bind ih ?_
      rintro rest _ ⟨hsub, rfl⟩
      cases seen with
      | none =>
          obtain rfl : pass₁ = pass := hpass
          exact meets_pure ⟨hsub.trans (List.sublist_cons_self spawn spawns), rfl⟩
      | some r =>
          obtain rfl : pass₁ = { pass with ended := pass.ended ++ [(spawn, r)] } := hpass
          refine meets_pure ⟨hsub.cons_cons spawn, ?_⟩
          rw [List.append_assoc]
          rfl

end Parts

/-! ## The outcome of a spawn -/

section Reap

variable [SpacedUnicode] {e e' : Executor} {pass : ReapPass}

theorem strip_reason (rest : List String) : Text.strip (rest.foldl (· ++ ·) "lane ") ≠ "" := by
  have hmem : ∀ (s : String), 'l' ∈ s.toList → 'l' ∈ (rest.foldl (· ++ ·) s).toList := by
    induction rest with
    | nil => exact fun s hs => hs
    | cons t rest ih =>
        intro s hs
        refine ih (s ++ t) ?_
        rw [String.toList_append]
        exact List.mem_append_left _ hs
  exact Text.strip_ne_empty (c := 'l') (hmem "lane " (by decide))
    (SpacedUnicode.not_isSpace 'l' rfl)

theorem passes_reportFailure {reason : String} (hreason : Text.strip reason ≠ "")
    (taskId : String) (e : Executor) : Passes (reportFailure taskId reason e) pass
      (fun e' pass' => SameTurn e e' ∧
        pass' = { pass with told := pass.told ++ [failureReport taskId reason] }) := by
  unfold reportFailure
  rw [if_neg hreason]
  exact passes_queueReport .fail taskId _ e

/-- A spawn is resolved: it is no longer live, and main is told of it or its task
waits. -/
structure Resolves (e : Executor) (x : ActiveSpawn × Resolution) (e' : Executor)
    (ops : List ExecOp) : Prop where
  limit : e'.retryLimit = e.retryLimit
  active : e'.activeSpawns = e.activeSpawns.erase x.1.taskId
  waits : ∀ id, e.Waits id → e'.Waits id
  accounted : Accounted e.retryLimit e' [x] ops

theorem Resolves.told {e₁ : Executor} {x : ActiveSpawn × Resolution}
    (h : SameTurn (untrack e x.1.taskId) e₁) :
    Resolves e x e₁ [outcomeOp e.retryLimit x] :=
  ⟨h.limit, h.active, h.waits, .told .nil⟩

theorem passes_reapOne (x : ActiveSpawn × Resolution) (e : Executor) :
    Passes (reapOne e x) pass (fun e' pass' => ∃ ops, Resolves e x e' ops ∧
      pass' = { pass with told := pass.told ++ ops }) := by
  by_cases hrefused : x.2.outcome = .laneBusyRefused
  · rw [reapOne_of_refused hrefused]
    refine meets_bind (passes_requeueBusyRefusal x.1 (untrack e x.1.taskId)) ?_
    rintro ⟨requeued, e₁⟩ _ ⟨rfl, hturn, hwaits⟩
    dsimp only at hturn hwaits ⊢
    split
    · rename_i hrequeued
      obtain ⟨hretries, hwait⟩ := hwaits hrequeued
      refine meets_pure ⟨[], ⟨hturn.limit, hturn.active, hturn.waits,
        .waits ⟨hrefused, hretries⟩ hwait .nil⟩, ?_⟩
      rw [List.append_nil]
    · refine meets_bind (passes_dropPersistedSpawn x.1.taskId e₁) ?_
      rintro e₂ _ ⟨hturn', rfl⟩
      have hreason : Text.strip ("lane " ++ x.1.laneKey ++
          " busy after 5 retries — hermes said: " ++ x.2.detail) ≠ "" :=
        strip_reason [x.1.laneKey, " busy after 5 retries — hermes said: ", x.2.detail]
      refine (passes_reportFailure hreason x.1.taskId _).mono ?_
      rintro e₃ pass' ⟨hturn'', rfl⟩
      refine ⟨[outcomeOp e.retryLimit x],
        Resolves.told ((hturn.trans hturn').trans
          ⟨hturn''.limit, hturn''.active, hturn''.waits⟩), ?_⟩
      rw [outcomeOp, hrefused]
  · obtain ⟨spawn, r⟩ := x
    unfold reapOne
    dsimp only at hrefused ⊢
    rw [if_neg hrefused]
    refine meets_bind (passes_dropPersistedSpawn spawn.taskId (untrack e spawn.taskId)) ?_
    rintro e₁ pass ⟨hturn, rfl⟩
    have hcompleted : EndsComplete r →
        Passes (reportCompletion spawn.taskId r.result e₁) pass (fun e' pass' => ∃ ops,
          Resolves e (spawn, r) e' ops ∧ pass' = { pass with told := pass.told ++ ops }) := by
      intro houtcome
      refine (passes_queueReport .complete spawn.taskId _ e₁).mono ?_
      rintro e' pass' ⟨hturn', rfl⟩
      refine ⟨_, Resolves.told (hturn.trans hturn'), ?_⟩
      rcases houtcome with h | h | ⟨h, hballot⟩
      · rw [outcomeOp, h]
        rfl
      · rw [outcomeOp, h]
        rfl
      · rw [outcomeOp, h, hballot]
        rfl
    split
    · rename_i hdone
      exact hcompleted (.inl hdone)
    · rename_i hpromoted
      exact hcompleted (.inr (.inl hpromoted))
    · rename_i hblocked
      unfold reportBlocked
      cases hballot : r.ballot with
      | none => exact hcompleted (.inr (.inr ⟨hblocked, hballot⟩))
      | some ballot =>
          refine meets_perform trivial (fun _ pass' hpass => meets_pure ?_)
          obtain rfl : pass' = _ := hpass
          refine ⟨_, Resolves.told hturn, ?_⟩
          rw [outcomeOp, hblocked, hballot]
          rfl
    · rename_i hrequeue
      refine meets_perform trivial (fun _ pass' hpass => meets_pure ?_)
      obtain rfl : pass' = _ := hpass
      refine ⟨_, Resolves.told hturn, ?_⟩
      rw [outcomeOp, hrequeue, hturn.limit]
      rfl
    · rename_i hdone hpromoted hblocked hrequeue
      have hreason : Text.strip ("lane " ++ spawn.laneName ++ ": " ++ r.detail) ≠ "" :=
        strip_reason [spawn.laneName, ": ", r.detail]
      refine (passes_reportFailure hreason spawn.taskId e₁).mono ?_
      rintro e' pass' ⟨hturn', rfl⟩
      refine ⟨_, Resolves.told (hturn.trans hturn'), ?_⟩
      have hfailed : outcomeOp e.retryLimit (spawn, r) = failureReport spawn.taskId
          ("lane " ++ spawn.laneName ++ ": " ++ r.detail) := by
        cases houtcome : r.outcome with
        | done => exact absurd houtcome hdone
        | transcriptPromoted => exact absurd houtcome hpromoted
        | blocked => exact absurd houtcome hblocked
        | nonDeliverable => exact absurd houtcome hrequeue
        | laneBusyRefused => exact absurd houtcome hrefused
        | timeout => rw [outcomeOp, houtcome]
        | other => rw [outcomeOp, houtcome]
      rw [hfailed]

/-! ## The pass as a whole -/

/-- A pass settles what it has resolved: each was a live spawn and is none after,
main is told of it, or its task waits, and cancellations are acknowledged as main
awaits it. -/
structure PassAccount (e e' : Executor) (pass : ReapPass) : Prop where
  tracked : (pass.ended.map Prod.fst).Sublist e.activeSpawns.rows
  accounted : Accounted e.retryLimit e' pass.ended pass.told
  acked : pass.acked = pass.cancelling
  dropped : ∀ id, id ∈ pass.cancelling ∨ (∃ x ∈ pass.ended, x.1.taskId = id) → ¬e'.Runs id

/-- The resolved spawns are dealt with one by one. -/
theorem passes_reapAll (resolved : List (ActiveSpawn × Resolution)) (e : Executor) :
    Passes (resolved.foldlM reapOne e) pass (fun e' pass' =>
      (∀ s ∈ e'.activeSpawns.rows, s ∈ e.activeSpawns.rows) ∧
      (∀ x ∈ resolved, ¬e'.Runs x.1.taskId) ∧
      ∃ told, Accounted e.retryLimit e' resolved told ∧
        pass' = { pass with told := pass.told ++ told }) := by
  -- the spawns dealt with so far are accounted for, and none of them is live
  refine (meets_foldlM (I := fun xs e' pass' => e'.retryLimit = e.retryLimit ∧
    (∀ s ∈ e'.activeSpawns.rows, s ∈ e.activeSpawns.rows) ∧
    ∃ done told, done ++ xs = resolved ∧ (∀ x ∈ done, ¬e'.Runs x.1.taskId) ∧
      Accounted e.retryLimit e' done told ∧ pass' = { pass with told := pass.told ++ told })
    reapOne ?_ ?_).mono ?_
  · rintro x xs e₁ _ ⟨hlimit, hactive, done, told, rfl, hdone, haccounted, rfl⟩
    refine (passes_reapOne x e₁).mono ?_
    rintro e₂ _ ⟨ops, hresolves, rfl⟩
    have hless : ∀ s ∈ e₂.activeSpawns.rows, s ∈ e₁.activeSpawns.rows ∧ s.taskId ≠ x.1.taskId := by
      intro s hs
      rw [hresolves.active] at hs
      exact (Table.mem_rows_erase _).mp hs
    refine ⟨hresolves.limit.trans hlimit, fun s hs => hactive s (hless s hs).1, done ++ [x],
      told ++ ops, ?_, fun y hy => ?_, ?_, ?_⟩
    · rw [List.append_assoc, List.singleton_append]
    · rintro ⟨s, hs, hid⟩
      rcases List.mem_append.mp hy with hy | hy
      · exact hdone y hy ⟨s, (hless s hs).1, hid⟩
      · rw [List.mem_singleton.mp hy] at hid
        exact (hless s hs).2 hid
    · rw [← hlimit]
      exact (hlimit ▸ haccounted.mono hresolves.waits).append hresolves.accounted
    · rw [List.append_assoc]
  · refine ⟨rfl, fun s hs => hs, [], [], rfl, List.forall_mem_nil _, .nil, ?_⟩
    rw [List.append_nil]
  · rintro e' pass' ⟨-, hactive, done, told, hall, hdone, haccounted, hpass⟩
    rw [List.append_nil] at hall
    subst hall
    exact ⟨hactive, hdone, told, haccounted, hpass⟩

/-- Every pass settles what it resolves. -/
theorem passes_reapFinishedSpawns (e : Executor) :
    Passes (reapFinishedSpawns e) {} (fun e' pass => PassAccount e e' pass) := by
  have hsweep : Passes (e.activeSpawns.rows.foldlM sweepCancelled e) {} (fun e' pass' =>
      e'.retryLimit = e.retryLimit ∧ e'.activeSpawns.rows.Sublist e.activeSpawns.rows ∧
      ∃ ids, pass' = { cancelling := ids, acked := ids } ∧ ∀ id ∈ ids, ¬e'.Runs id) := by
    refine meets_foldlM (I := fun _ (e' : Executor) (pass' : ReapPass) =>
      e'.retryLimit = e.retryLimit ∧ e'.activeSpawns.rows.Sublist e.activeSpawns.rows ∧
      ∃ ids, pass' = { cancelling := ids, acked := ids } ∧ ∀ id ∈ ids, ¬e'.Runs id)
      sweepCancelled ?_ ⟨rfl, List.Sublist.refl _, [], rfl, List.forall_mem_nil _⟩
    rintro spawn _ e₁ _ ⟨hlimit, hsub, ids, rfl, hids⟩
    refine (passes_sweepCancelled e₁ spawn).mono ?_
    rintro e₂ _ ⟨hlimit', hsub', ids', rfl, hids'⟩
    refine ⟨hlimit'.trans hlimit, hsub'.trans hsub, ids ++ ids', rfl, fun id hid => ?_⟩
    rcases List.mem_append.mp hid with hid | hid
    · rintro ⟨s, hs, heq⟩
      exact hids id hid ⟨s, hsub'.subset hs, heq⟩
    · exact hids' id hid
  unfold reapFinishedSpawns
  split
  · refine meets_pure ⟨List.nil_sublist _, .nil, rfl, ?_⟩
    rintro id (hid | ⟨x, hx, -⟩)
    · cases hid
    · cases hx
  · refine meets_bind hsweep ?_
    rintro e₁ _ ⟨hlimit, hsub, ids, rfl, hids⟩
    split
    · refine meets_pure ⟨List.nil_sublist _, .nil, rfl, ?_⟩
      rintro id (hid | ⟨x, hx, -⟩)
      · exact hids id hid
      · cases hx
    · refine meets_bind (passes_observeAll e₁.activeSpawns.rows) ?_
      rintro resolved _ ⟨hresolved, rfl⟩
      refine (passes_reapAll resolved e₁).mono ?_
      rintro e₂ _ ⟨hactive, hdone, told, haccounted, rfl⟩
      refine ⟨hresolved.trans hsub, hlimit ▸ haccounted, rfl, ?_⟩
      rintro id (hid | ⟨x, hx, rfl⟩)
      · rintro ⟨s, hs, heq⟩
        exact hids id hid ⟨s, hactive s hs, heq⟩
      · exact hdone x hx

end Reap

end HermesCluster
