import HermesCluster.Lib.History
import HermesCluster.Routers.LandingSafety
import HermesCluster.Routers.ReviewCompletion
/-!
# The latest round

`latest_reviewer_verdict` takes the round with the latest `updated_at` for the one
that was completed last. Every write to a row moves that column, so this module
asks of each write that it leaves the rounds of an artifact in the order in which
they were completed.
-/

namespace HermesCluster

open Program hiding pure bind
open LandingGate

/-! ## The order of completions -/

/-- The tasks that are completed in `b'` and were not in `b`. -/
def completedIn (b b' : Board) : List String :=
  (b'.tasks.rows.filter (fun t => decide (t.status = .completed ∧
    (b.tasks.get? t.id).map Task.status ≠ some .completed))).map Task.id

section Rounds

variable [Unicode]

/-- The round of an artifact that was completed last, by a log of all completions
with the latest first. -/
def lastCompleted (log : List String) (tasks : Table Task) (repo n : String) : Option String :=
  log.find? (fun taskId => (tasks.get? taskId).any (fun t => reviewerOf t repo n))

/-- The gate takes the round that was completed last. -/
def NewestDecides (log : List String) (b : Board) : Prop :=
  ∀ repo n, (latestReviewerVerdict b.tasks.rows repo n).2.2 =
    (lastCompleted log b.tasks repo n).getD ""

/-- The log has every completed task, and its order is the one the gate goes by. -/
structure InOrder (log : List String) (tasks : Table Task) : Prop where
  logged : ∀ t ∈ tasks.rows, t.status = .completed → t.id ∈ log
  later : ∀ repo n, ∀ t ∈ tasks.rows, ∀ u ∈ tasks.rows, reviewerOf t repo n = true →
    reviewerOf u repo n = true → log.idxOf t.id < log.idxOf u.id → LaterRound t u

omit [Unicode] in
theorem LandingGate.LaterRound.not_later {t u : Task} (h : LaterRound t u) : ¬LaterRound u t := by
  unfold LaterRound at h ⊢
  omega

omit [Unicode] in
/-- A round that is later than all others is the latest one. -/
theorem latestRound_eq {rows : List Task} {r : Task} (hr : r ∈ rows)
    (hlater : ∀ u ∈ rows, u ≠ r → LaterRound r u) : latestRound rows = some r := by
  have hfold : ∀ (ts : List Task) (best : Task), r ∈ best :: ts →
      (∀ u ∈ best :: ts, u ≠ r → LaterRound r u) →
      ts.foldl (fun best t => if LaterRound t best then t else best) best = r := by
    intro ts
    induction ts with
    | nil =>
        intro best hmem _
        exact (List.mem_singleton.mp hmem).symm
    | cons t ts ih =>
        intro best hmem hall
        rw [List.foldl_cons]
        have hkeeps : ∀ {x}, x = best ∨ x = t → r ∈ x :: ts →
            ts.foldl (fun best t => if LaterRound t best then t else best) x = r := by
          intro x hx hmemx
          refine ih x hmemx (fun u hu => hall u ?_)
          rcases List.mem_cons.mp hu with rfl | hts
          · rcases hx with rfl | rfl <;> simp
          · simp [hts]
        by_cases hstep : LaterRound t best
        · rw [if_pos hstep]
          refine hkeeps (.inr rfl) ?_
          rcases List.mem_cons.mp hmem with rfl | hrest
          · by_cases heq : t = r
            · simp [heq]
            · exact absurd hstep (hall t (by simp) heq).not_later
          · exact hrest
        · rw [if_neg hstep]
          refine hkeeps (.inl rfl) ?_
          rcases List.mem_cons.mp hmem with rfl | hrest
          · simp
          rcases List.mem_cons.mp hrest with rfl | hts
          · by_cases heq : best = r
            · simp [heq]
            · exact absurd (hall best (by simp) heq) hstep
          · simp [hts]
  cases rows with
  | nil => cases hr
  | cons t ts => exact congrArg some (hfold ts t hr hlater)

/-- In order, the gate reads the log. -/
theorem InOrder.newestDecides {log : List String} {b : Board} (h : InOrder log b.tasks) :
    NewestDecides log b := by
  intro repo n
  have hround : ∀ {t}, t ∈ b.tasks.rows → reviewerOf t repo n = true →
      (b.tasks.get? t.id).any (fun t => reviewerOf t repo n) = true := by
    intro t ht hreviews
    rw [show b.tasks.get? t.id = some t from Table.get?_of_mem ht]
    exact hreviews
  unfold latestReviewerVerdict
  cases hlast : lastCompleted log b.tasks repo n with
  | none =>
      have hnone : b.tasks.rows.filter (fun t => reviewerOf t repo n) = [] := by
        rw [List.filter_eq_nil_iff]
        intro t ht hreviews
        exact List.find?_eq_none.mp hlast t.id (h.logged t ht (reviewerOf_completed hreviews))
          (hround ht hreviews)
      rw [hnone]
      rfl
  | some taskId =>
      obtain ⟨hfound, earlier, rest, hlog, hearlier⟩ := List.find?_eq_some_iff_append.mp hlast
      obtain ⟨t, hget, hreviews⟩ : ∃ t, b.tasks.get? taskId = some t ∧
          reviewerOf t repo n = true := by
        cases hget : b.tasks.get? taskId with
        | none =>
            rw [hget] at hfound
            cases hfound
        | some t =>
            rw [hget] at hfound
            exact ⟨t, rfl, hfound⟩
      have ht : t ∈ b.tasks.rows := Table.mem_of_get? hget
      have hid : t.id = taskId := Table.key_of_get? hget
      have hbefore : ∀ {u}, u ∈ b.tasks.rows → reviewerOf u repo n = true → u.id ∉ earlier := by
        intro u hu hureviews hmem
        have hmiss := hearlier u.id hmem
        rw [hround hu hureviews] at hmiss
        cases hmiss
      have hlatest : latestRound (b.tasks.rows.filter (fun t => reviewerOf t repo n)) = some t := by
        refine latestRound_eq (List.mem_filter.mpr ⟨ht, hreviews⟩) (fun u hu hne => ?_)
        obtain ⟨hu, hureviews⟩ := List.mem_filter.mp hu
        refine h.later repo n t ht u hu hreviews hureviews ?_
        have hother : u.id ≠ taskId := by
          intro heq
          exact hne (Table.eq_of_mem_of_key_eq hu ht (heq.trans hid.symm))
        rw [hid, hlog, List.idxOf_append_of_notMem (hid ▸ hbefore ht hreviews),
          List.idxOf_append_of_notMem (hbefore hu hureviews), List.idxOf_cons_self,
          List.idxOf_cons_ne _ hother.symm]
        omega
      rw [hlatest]
      exact hid

/-! ## One operation -/

/-- The operation writes the row of a task and leaves it completed, under this
version. -/
def LeavesCompleted (k : Backend) (op : StoreOp) (t : Task) (version : Int) : Prop :=
  match op with
  | .setTaskStatus taskId status _ => taskId = t.id ∧ status = .completed ∧
      (k = .memory → ¬ClusterState.Refuses t.status .completed) ∧ version = t.version + 1
  | .setTaskResult taskId _ | .setTaskBallot taskId _ | .setTaskCancelRequeue taskId _
  | .setDependencies taskId _ | .writeTaskRow taskId _ _ =>
      taskId = t.id ∧ t.status = .completed ∧ version = t.version + 1
  | .handleSyncMessage msg => ∃ ts, msg.taskState = some ts ∧ ts.taskId = t.id ∧
      TaskStatus.ofValue ts.status = some .completed ∧
      (k = .memory → ¬ClusterState.Refuses t.status .completed) ∧
      version = if k = .memory then max (t.version + 1) ts.version else ts.version
  | _ => False

/-- The row under a new time stamp and a new version. -/
def Task.stamp (now : Nat) (version : Int) (t : Task) : Task :=
  { t with updatedAt := now, version := version }

/-- A task that is completed becomes the latest round of its artifacts, and one
that was completed keeps its place among the other rounds. -/
def KeepsPlace (tasks : Table Task) (t : Task) (now : Nat) (version : Int) : Prop :=
  ∀ repo n, reviewerOf { t with status := .completed } repo n = true →
    ∀ u ∈ tasks.rows, u.id ≠ t.id → reviewerOf u repo n = true →
      if t.status = .completed then
        (LaterRound t u → LaterRound (t.stamp now version) u) ∧
          (LaterRound u t → LaterRound u (t.stamp now version))
      else LaterRound (t.stamp now version) u

/-- What keeps the order of the rounds, of one operation. -/
def OrderSafe (k : Backend) (now : Nat) (b : Board) (op : StoreOp) : Prop :=
  (∀ t ∈ b.tasks.rows, ∀ version, LeavesCompleted k op t version →
      KeepsPlace b.tasks t now version) ∧
    match op with
    | .handleSyncMessage msg => ∀ ts, msg.taskState = some ts → b.tasks.get? ts.taskId = none →
        TaskStatus.ofValue ts.status = some .completed →
          KeepsPlace b.tasks (ts.toTask now .pending) now ts.version
    | _ => True

/-- The row an operation may leave completed. -/
def StoreOp.target : StoreOp → Option String
  | .setTaskStatus taskId _ _ | .setTaskResult taskId _ | .setTaskBallot taskId _
  | .setTaskCancelRequeue taskId _ | .setDependencies taskId _ | .writeTaskRow taskId _ _ =>
      some taskId
  | .handleSyncMessage msg => msg.taskState.map TaskSync.taskId
  | _ => none

variable {k : Backend} {now : Nat} {b b' : Board} {op : StoreOp} {t t' : Task}

omit [Unicode] in
theorem LeavesCompleted.target_eq {version : Int} (h : LeavesCompleted k op t version) :
    op.target = some t.id := by
  cases op with
  | handleSyncMessage msg =>
      obtain ⟨ts, hts, hid, -⟩ := h
      change msg.taskState.map TaskSync.taskId = some t.id
      rw [hts, ← hid]
      rfl
  | setTaskStatus | setTaskResult | setTaskBallot | setTaskCancelRequeue | setDependencies
  | writeTaskRow => exact congrArg some h.1
  | _ => exact h.elim

omit [Unicode] in
/-- What the gate reads of a round besides its time stamp. -/
structure SameRound (t t' : Task) : Prop where
  role : t'.role = t.role
  title : t'.title = t.title
  laneKey : t'.laneKey = t.laneKey

theorem SameRound.reviewerOf_eq (h : SameRound t t') (hstatus : t'.status = t.status)
    (repo n : String) : reviewerOf t' repo n = reviewerOf t repo n := by
  unfold reviewerOf
  rw [h.role, h.title, h.laneKey, hstatus]

theorem Change.leavesCompleted (h : Change k now b op t t') (hdone : t'.status = .completed) :
    LeavesCompleted k op t t'.version ∧ SameRound t t' ∧ t'.updatedAt = now := by
  cases h with
  | status hid hguard =>
      obtain rfl : _ = TaskStatus.completed := hdone
      exact ⟨⟨hid.symm, rfl, hguard, rfl⟩, ⟨rfl, rfl, rfl⟩, rfl⟩
  | sync hmemory hts hid hstatus hguard =>
      obtain rfl : _ = TaskStatus.completed := hdone
      exact ⟨⟨_, hts, hid.symm, hstatus, fun _ => hguard, (if_pos hmemory).symm⟩,
        ⟨rfl, rfl, rfl⟩, rfl⟩
  | overwrite hsql hts hid hstatus =>
      obtain rfl : _ = TaskStatus.completed := hdone
      exact ⟨⟨_, hts, hid.symm, hstatus, fun hmemory => absurd hmemory hsql, (if_neg hsql).symm⟩,
        ⟨rfl, rfl, rfl⟩, rfl⟩
  | result hid | ballot hid | cancelRequeue hid | dependencies hid | writeRow hid =>
      exact ⟨⟨hid.symm, hdone, rfl⟩, ⟨rfl, rfl, rfl⟩, rfl⟩
  | hold hpending => exact absurd (hpending.symm.trans hdone) (by decide)
  | replaceBatch =>
      unfold ClusterState.batchTask at hdone
      split at hdone <;> cases hdone
  | unassign | unblock | resume | requeue | demote | promote | assign | replace | promoteRow
  | promoteBatch => cases hdone

/-- A row that an operation has written and left completed: as a completed row it
has kept its place, as another one it is the latest round. -/
structure Lands (b : Board) (t' : Task) : Prop where
  kept : ∀ t ∈ b.tasks.rows, t.id = t'.id → t.status = .completed → SameRound t t' ∧
    ∀ repo n, reviewerOf t' repo n = true → ∀ u ∈ b.tasks.rows, u.id ≠ t'.id →
      reviewerOf u repo n = true →
        (LaterRound t u → LaterRound t' u) ∧ (LaterRound u t → LaterRound u t')
  latest : (b.tasks.get? t'.id).map Task.status ≠ some .completed →
    ∀ repo n, reviewerOf t' repo n = true → ∀ u ∈ b.tasks.rows, u.id ≠ t'.id →
      reviewerOf u repo n = true → LaterRound t' u

/-- A completed row after an operation is an old one, or it has been placed. -/
theorem lands_of_orderSafe (hop : OrderSafe k now b op)
    (hevolves : b.tasks.Evolves (Rewrites k now b op) (Created k now op) b'.tasks)
    (ht' : t' ∈ b'.tasks.rows) (hdone : t'.status = .completed) :
    t' ∈ b.tasks.rows ∨ (op.target = some t'.id ∧ Lands b t') := by
  rcases hevolves.of_get? (fun _ _ h => Rewrites.id_eq h) (Table.get?_of_mem ht') with
    ⟨t, hget, rfl | hchange⟩ | ⟨hnone, hcreated⟩
  · exact .inl (Table.mem_of_get? hget)
  · have ht : t ∈ b.tasks.rows := Table.mem_of_get? hget
    have hid : t'.id = t.id := hchange.id_eq
    obtain ⟨hleaves, hsame, hupdated⟩ := hchange.leavesCompleted hdone
    have hplace := hop.1 t ht _ hleaves
    have hreviews : ∀ {repo n}, reviewerOf t' repo n = true →
        reviewerOf { t with status := .completed } repo n = true := by
      intro repo n h
      have hround : SameRound { t with status := TaskStatus.completed } t' :=
        ⟨hsame.role, hsame.title, hsame.laneKey⟩
      rwa [hround.reviewerOf_eq hdone] at h
    refine .inr ⟨hid ▸ hleaves.target_eq, ⟨fun u hu huid hudone => ?_, fun hnew => ?_⟩⟩
    · obtain rfl : u = t := Table.eq_of_mem_of_key_eq hu ht (huid.trans hid)
      refine ⟨hsame, fun repo n hrev v hv hvid hvrev => ?_⟩
      have hkept := hplace repo n (hreviews hrev) v hv (hid ▸ hvid) hvrev
      rw [if_pos hudone] at hkept
      subst hupdated
      exact hkept
    · intro repo n hrev v hv hvid hvrev
      have hlatest := hplace repo n (hreviews hrev) v hv (hid ▸ hvid) hvrev
      have hopen : t.status ≠ .completed := by
        intro hcompleted
        refine hnew ?_
        rw [show b.tasks.get? t'.id = some t from hget, Option.map_some, hcompleted]
      rw [if_neg hopen] at hlatest
      subst hupdated
      exact hlatest
  · by_cases hsync : ∃ msg, op = .handleSyncMessage msg
    swap
    · exact absurd hdone (hcreated.ne_completed (fun msg heq => hsync ⟨msg, heq⟩))
    obtain ⟨msg, rfl⟩ := hsync
    cases hcreated with
    | @synced _ ts status hts hstatus =>
        have hcompleted : TaskStatus.ofValue ts.status = some .completed := by
          cases hvalue : TaskStatus.ofValue ts.status with
          | none =>
              rw [hvalue] at hstatus
              exact absurd (hstatus.trans hdone) (by decide)
          | some value =>
              rw [hvalue] at hstatus
              exact congrArg some (hstatus.trans hdone)
        have hplace := hop.2 ts hts hnone hcompleted
        refine .inr ⟨?_, ⟨fun u hu huid => ?_, fun _ repo n hrev v hv hvid hvrev => ?_⟩⟩
        · change msg.taskState.map TaskSync.taskId = _
          rw [hts]
          rfl
        · exact absurd huid (Table.get?_eq_none_iff.mp hnone u hu)
        · have hstat : status = .completed := hdone
          subst hstat
          have hlatest := hplace repo n hrev v hv hvid hvrev
          have hopen : (ts.toTask now .pending).status ≠ .completed := nofun
          rw [if_neg hopen] at hlatest
          exact hlatest

omit [Unicode] in
theorem mem_completedIn {taskId : String} : taskId ∈ completedIn b b' ↔
    ∃ t' ∈ b'.tasks.rows, t'.id = taskId ∧ t'.status = .completed ∧
      (b.tasks.get? taskId).map Task.status ≠ some .completed := by
  simp only [completedIn, List.mem_map, List.mem_filter, decide_eq_true_eq]
  constructor
  · rintro ⟨t', ⟨ht', hdone, hnew⟩, rfl⟩
    exact ⟨t', ht', rfl, hdone, hnew⟩
  · rintro ⟨t', ht', rfl, hdone, hnew⟩
    exact ⟨t', ⟨ht', hdone, hnew⟩, rfl⟩

/-- One operation keeps the rounds in order. -/
theorem InOrder.step {log : List String} (h : InOrder log b.tasks) (hop : OrderSafe k now b op)
    (hevolves : b.tasks.Evolves (Rewrites k now b op) (Created k now op) b'.tasks) :
    InOrder (completedIn b b' ++ log) b'.tasks := by
  have hold : ∀ {t : Task}, t ∈ b.tasks.rows → t.status = .completed → t.id ∉ completedIn b b' := by
    intro t ht hdone hmem
    obtain ⟨-, -, -, -, hnew⟩ := mem_completedIn.mp hmem
    rw [show b.tasks.get? t.id = some t from Table.get?_of_mem ht, Option.map_some, hdone] at hnew
    exact hnew rfl
  have hnew : ∀ {t' : Task}, t' ∈ b'.tasks.rows → t'.status = .completed →
      (b.tasks.get? t'.id).map Task.status ≠ some .completed → t'.id ∈ completedIn b b' :=
    fun ht' hdone hnew => mem_completedIn.mpr ⟨_, ht', rfl, hdone, hnew⟩
  have hbefore : ∀ {t' : Task}, (b.tasks.get? t'.id).map Task.status = some .completed →
      ∃ t ∈ b.tasks.rows, t.id = t'.id ∧ t.status = .completed := by
    intro t' hsome
    obtain ⟨t, hget, hdone⟩ := Option.map_eq_some_iff.mp hsome
    exact ⟨t, Table.mem_of_get? hget, Table.key_of_get? hget, hdone⟩
  refine ⟨fun t' ht' hdone => ?_, fun repo n t' ht' u' hu' ht'rev hu'rev hidx => ?_⟩
  · by_cases hcompleted : (b.tasks.get? t'.id).map Task.status = some .completed
    · obtain ⟨t, ht, hid, htdone⟩ := hbefore hcompleted
      exact List.mem_append_right _ (hid ▸ h.logged t ht htdone)
    · exact List.mem_append_left _ (hnew ht' hdone hcompleted)
  have ht'done := reviewerOf_completed ht'rev
  have hu'done := reviewerOf_completed hu'rev
  -- where a task stands in the new log
  have hlogged : ∀ {v : String}, v ∉ completedIn b b' →
      (completedIn b b' ++ log).idxOf v = (completedIn b b').length + log.idxOf v :=
    fun hv => List.idxOf_append_of_notMem hv
  have hnewest : ∀ {v : String}, v ∈ completedIn b b' →
      (completedIn b b' ++ log).idxOf v < (completedIn b b').length := by
    intro v hv
    rw [List.idxOf_append_of_mem hv]
    exact List.idxOf_lt_length_iff.mpr hv
  rcases lands_of_orderSafe hop hevolves ht' ht'done with ht | ⟨httarget, htplacing⟩ <;>
    rcases lands_of_orderSafe hop hevolves hu' hu'done with hu | ⟨hutarget, huplacing⟩
  · rw [hlogged (hold ht ht'done), hlogged (hold hu hu'done)] at hidx
    exact h.later repo n t' ht u' hu ht'rev hu'rev (by omega)
  · -- an older round was written
    have hne : t'.id ≠ u'.id := fun heq => by rw [heq] at hidx; omega
    rw [hlogged (hold ht ht'done)] at hidx
    by_cases hcompleted : (b.tasks.get? u'.id).map Task.status = some .completed
    · obtain ⟨u, hu, huid, hudone⟩ := hbefore hcompleted
      obtain ⟨hsame, hplace⟩ := huplacing.kept u hu huid hudone
      have hurev : reviewerOf u repo n = true := by
        rwa [hsame.reviewerOf_eq (hu'done.trans hudone.symm)] at hu'rev
      rw [← huid, hlogged (hold hu hudone)] at hidx
      refine (hplace repo n hu'rev t' ht hne ht'rev).2 ?_
      exact h.later repo n t' ht u hu ht'rev hurev (by omega)
    · have hlt := hnewest (hnew hu' hu'done hcompleted)
      omega
  · -- a newer round was written
    have hne : u'.id ≠ t'.id := fun heq => by rw [heq] at hidx; omega
    by_cases hcompleted : (b.tasks.get? t'.id).map Task.status = some .completed
    · obtain ⟨t, ht, htid, htdone⟩ := hbefore hcompleted
      obtain ⟨hsame, hplace⟩ := htplacing.kept t ht htid htdone
      have htrev : reviewerOf t repo n = true := by
        rwa [hsame.reviewerOf_eq (ht'done.trans htdone.symm)] at ht'rev
      rw [hlogged (hold hu hu'done), ← htid, hlogged (hold ht htdone)] at hidx
      refine (hplace repo n ht'rev u' hu hne hu'rev).1 ?_
      exact h.later repo n t ht u' hu htrev hu'rev (by omega)
    · exact htplacing.latest hcompleted repo n ht'rev u' hu hne hu'rev
  · have heq : t'.id = u'.id := Option.some.inj (httarget.symm.trans hutarget)
    rw [heq] at hidx
    omega

end Rounds

/-! ## Calls -/

section Calls

variable [Unicode] {k : Backend} {now : Nat} {b : Board} {op : StoreOp} {taskId : String}
  {t : Task}

/-- No completed row is written, on whatever board. -/
def Aloof : StoreOp → Prop
  | .setTaskStatus _ status _ => status ≠ .completed
  | .setTaskResult _ _ | .setTaskBallot _ _ | .setTaskCancelRequeue _ _ | .setDependencies _ _
  | .writeTaskRow _ _ _ | .handleSyncMessage _ => False
  | _ => True

/-- The operation writes columns of the row beside its status. -/
def WritesBeside (taskId : String) : StoreOp → Prop
  | .setTaskResult id _ | .setTaskBallot id _ | .setTaskCancelRequeue id _
  | .setDependencies id _ | .writeTaskRow id _ _ => id = taskId
  | _ => False

/-- The calls that write columns beside the status, or complete a task. -/
def Call.WritesRows : Call → Prop
  | .claim _ _ | .release _ _ | .complete _ _ | .cancel _ _ | .block _ _ | .answer _ _
  | .setDependencies _ _ => True
  | _ => False

omit [Unicode] in
theorem allows_aloof : Allows Aloof := by
  intro op hop
  cases op <;> first | exact hop.elim | trivial

theorem Aloof.orderSafe (h : Aloof op) : OrderSafe k now b op := by
  refine ⟨fun t _ version hleaves => ?_, ?_⟩
  · cases op <;> first | exact h.elim | exact hleaves.elim | exact absurd hleaves.2.1 h
  · cases op <;> first | exact h.elim | trivial

omit [Unicode] in
theorem Footprint.aloof {c : Call} (hc : ¬c.WritesRows) (h : Footprint c op) : Aloof op := by
  cases op with
  | setTaskStatus id status reason =>
      intro hdone
      obtain ⟨req, rfl⟩ := h.2.1 hdone
      exact hc trivial
  | setTaskResult | setTaskCancelRequeue | setDependencies =>
      obtain ⟨req, rfl⟩ := h
      exact hc trivial
  | setTaskBallot | writeTaskRow =>
      rcases h with ⟨req, rfl⟩ | ⟨req, rfl⟩
      · exact hc trivial
      · exact hc trivial
  | handleSyncMessage => exact h
  | _ => trivial

theorem orderSafe_of_open (hop : WritesBeside taskId op)
    (hopen : ∀ t, b.tasks.get? taskId = some t → t.status ≠ .completed) :
    OrderSafe k now b op := by
  refine ⟨fun t ht version hleaves => ?_, ?_⟩
  · have hid : t.id = taskId ∧ t.status = .completed := by
      cases op <;> first | exact hop.elim | exact ⟨hleaves.1.symm.trans hop, hleaves.2.1⟩
    exact absurd hid.2 (hopen t (hid.1 ▸ Table.get?_of_mem ht))
  · cases op <;> first | exact hop.elim | trivial

/-- The version under which `complete_task` leaves a row. -/
def completionVersion (t : Task) (result : Option String) : Int :=
  match result with
  | none => t.version + 1
  | some body => if Text.isBlank body then t.version + 1 else t.version + 2

/-- What keeps the order of the rounds, of one call: a completion is later than the
other rounds of the artifact, and new dependencies of a completed round leave it
in its place. -/
def RoundSafe (c : Call) (w : Timed Board) : Prop :=
  match c with
  | .complete taskId req => ∀ t, w.state.tasks.get? taskId = some t → ¬t.status.IsTerminal →
      ReviewerGate.reviewerCompletionVeto t (req.bind CompleteTaskRequest.result) = none →
        ∀ i, KeepsPlace w.state.tasks t (w.clock i)
          (completionVersion t (req.bind CompleteTaskRequest.result))
  | .setDependencies taskId _ => ∀ t, w.state.tasks.get? taskId = some t →
      t.status = .completed → ∀ i, KeepsPlace w.state.tasks t (w.clock i) (t.version + 1)
  | _ => True

/-- A status write that hits leaves that status. -/
def Hits (now : Nat) : (op : StoreOp) → Board → op.Res → Board → Prop
  | .setTaskStatus taskId status reason, b, r, b' => r = true →
      ∀ t, b.tasks.get? taskId = some t →
        b'.tasks.get? taskId = some (t.withStatus now status reason)
  | _, _, _, _ => True

theorem Backend.hits (k : Backend) (now : Nat) (op : StoreOp) (s : k.Store) :
    Hits now op (k.board s) (k.step now op s).1 (k.board (k.step now op s).2) := by
  cases op with
  | setTaskStatus taskId status reason =>
      cases k with
      | memory =>
          change Hits now (.setTaskStatus taskId status reason) s.toBoard
            (ClusterState.setTaskStatus now taskId status reason s).1
            (ClusterState.setTaskStatus now taskId status reason s).2.toBoard
          rcases ClusterState.setTaskStatus_cases now taskId status reason s with
            ⟨heq, -⟩ | ⟨t, -, -, heq⟩
          · rw [heq]
            exact fun h => by cases h
          · rw [heq]
            intro _ u hu
            have hrow := s.tasks.get?_modify_self taskId (Task.withStatus now status reason)
              (fun _ => rfl)
            rw [show s.tasks.get? taskId = some u from hu] at hrow
            exact hrow
      | sql d =>
          intro _ u hu
          refine (s.tasks.get?_updateWhere taskId _ (Task.withStatus now status reason)
            (fun _ => rfl)).trans ?_
          have hid : u.id = taskId := Table.key_of_get? hu
          rw [show s.tasks.get? taskId = some u from hu, Option.map_some, if_pos hid]
  | _ => trivial

/-- The contract, with the rows that are written. -/
def WritingContract (k : Backend) (op : StoreOp) (w : Timed Board) (r : op.Res)
    (w' : Timed Board) : Prop :=
  StoringContract k op w r w' ∧ Hits (w.clock 0) op w.state r w'.state

theorem Backend.implements_writing (k : Backend) :
    Program.Implements k.tick k.view (WritingContract k) :=
  fun op w => ⟨k.implements_storing op w, k.hits _ op w.state⟩

/-- The program keeps the order of the rounds, at whatever reading of the clock. -/
abbrev Orders (k : Backend) (clock : Nat → Nat) {α : Type} (p : Api α) (w : Timed Board) : Prop :=
  p.Wp (WritingContract k) (fun w op => ∀ i, OrderSafe k (clock i) w.state op) w
    (fun _ _ => True)

variable {clock : Nat → Nat} {w : Timed Board}

theorem orders_of_only {α : Type} {p : Api α} (h : p.Only Aloof) : Orders k clock p w :=
  h.wp (fun _ _ hop _ => hop.orderSafe)

theorem orderSafe_of_background (hop : Background op) (i : Nat) :
    OrderSafe k (clock i) b op :=
  (allows_aloof hop).orderSafe

/-- A completion: besides the row of the task, which it may have written since, the
rows are those that were there when the place of the round was looked at. -/
theorem orderSafe_completed {tasks : Table Task} {t' : Task} {version : Int} {reason : String}
    (hget : b.tasks.get? taskId = some t') (hsame : SameRound t t') (hid : t'.id = t.id)
    (hopen : t.status ≠ .completed) (hopen' : t'.status ≠ .completed)
    (hversion : version = t'.version + 1)
    (hothers : ∀ u ∈ b.tasks.rows, u.id ≠ taskId → u ∈ tasks.rows)
    (hplace : KeepsPlace tasks t now version) :
    OrderSafe k now b (.setTaskStatus taskId .completed reason) := by
  refine ⟨fun u hu v hleaves => ?_, trivial⟩
  obtain ⟨huid, -, -, rfl⟩ := hleaves
  have hut : u = t' := Option.some.inj
    ((Table.get?_of_mem hu).symm.trans ((congrArg b.tasks.get? huid.symm).trans hget))
  subst hut
  intro repo n hrev x hx hxid hxrev
  have hround : SameRound { t with status := TaskStatus.completed }
      { u with status := TaskStatus.completed } := ⟨hsame.role, hsame.title, hsame.laneKey⟩
  rw [hround.reviewerOf_eq rfl] at hrev
  have hlatest := hplace repo n hrev x (hothers x hx (huid ▸ hxid)) (hid ▸ hxid) hxrev
  rw [if_neg hopen, hversion] at hlatest
  rw [if_neg hopen']
  exact hlatest

omit [Unicode] in
/-- The task is not completed. -/
def Unfinished (taskId : String) (b : Board) : Prop :=
  ∀ t, b.tasks.get? taskId = some t → t.status ≠ .completed

theorem Unfinished.step {w w' : Timed Board} {r : op.Res} (h : Unfinished taskId w.state)
    (hstep : Contract k op w r w') (hsync : ∀ msg, op ≠ .handleSyncMessage msg)
    (hop : ∀ t version, LeavesCompleted k op t version → t.status = .completed) :
    Unfinished taskId w'.state := by
  intro t' ht' hdone
  rcases hstep.tasks.of_get? (fun _ _ hrow => Rewrites.id_eq hrow) ht' with
    ⟨t, hget, rfl | hchange⟩ | ⟨-, hcreated⟩
  · exact h _ hget hdone
  · exact h t hget (hop t _ (hchange.leavesCompleted hdone).1)
  · exact hcreated.ne_completed hsync hdone

/-- Nothing but a write of the status completes a task. -/
theorem Unfinished.aloof {w w' : Timed Board} {r : op.Res} (h : Unfinished taskId w.state)
    (hstep : Contract k op w r w') (hop : Aloof op) : Unfinished taskId w'.state := by
  refine h.step hstep (fun msg heq => by subst heq; exact hop) (fun t version hleaves => ?_)
  cases op <;> first | exact hop.elim | exact hleaves.elim | exact absurd hleaves.2.1 hop

theorem Unfinished.beside {w w' : Timed Board} {r : op.Res} (h : Unfinished taskId w.state)
    (hstep : Contract k op w r w') (hop : WritesBeside taskId op) :
    Unfinished taskId w'.state := by
  refine h.step hstep (fun msg heq => by subst heq; exact hop) (fun t version hleaves => ?_)
  cases op <;> first | exact hop.elim | exact hleaves.2.1

theorem orders_writeTaskRow {α : Type} {assignedTo reason : Option String} {f : Unit → Api α}
    (h : Unfinished taskId w.state) (hrest : (f ()).Only Aloof) :
    Orders k clock (Tasks.writeTaskRow taskId assignedTo reason >>= f) w := by
  rw [Tasks.writeTaskRow, bind_assoc]
  refine wp_perform.mpr ⟨fun _ => orderSafe_of_open rfl h, fun r w' _ => ?_⟩
  cases r with
  | error => trivial
  | ok => exact orders_of_only hrest

omit [Unicode] in
theorem aloof_status {status : TaskStatus} (h : status ≠ .completed) (reason : String) :
    Aloof (.setTaskStatus taskId status reason) := h

omit [Unicode] in
theorem aloof_cancel (id reason : String) : Aloof (.setTaskStatus id .cancelled reason) ∧
    Aloof (.setTaskStatus id .cancelRequested reason) :=
  ⟨aloof_status (by decide) reason, aloof_status (by decide) reason⟩

theorem orderSafe_of_reads {op : StoreOp} (hop : Reads op) (i : Nat) :
    OrderSafe k (clock i) b op :=
  orderSafe_of_background (background_of_reads hop) i

omit [Unicode] in
theorem unfinished_of_get? (hget : b.tasks.get? taskId = some t) (h : t.status ≠ .completed) :
    Unfinished taskId b := by
  intro u hu
  rwa [Option.some.inj (hu.symm.trans hget)]

omit [Unicode] in
theorem Unfinished.of_eq {b' : Board} (h : Unfinished taskId b) (hsame : b'.tasks = b.tasks) :
    Unfinished taskId b' := by
  unfold Unfinished
  rwa [hsame]

theorem orders_claimTask (req : ClaimTaskRequest) :
    Orders k clock (Tasks.claimTask taskId req) w := by
  unfold Tasks.claimTask
  refine wp_requireTask (fun h => h.1.1) orderSafe_of_reads (fun _ _ _ => trivial)
    (fun t w₁ hsame hget => ?_)
  split
  · trivial
  rename_i hready
  rw [not_not] at hready
  split
  · trivial
  have hopen : Unfinished taskId w₁.state :=
    unfinished_of_get? (hsame ▸ hget) (by rw [hready]; decide)
  have hrunning : Aloof (.setTaskStatus taskId .running "") := aloof_status (by decide) ""
  refine wp_perform.mpr ⟨fun _ => hrunning.orderSafe, fun _ w₂ hstep => ?_⟩
  refine orders_writeTaskRow (hopen.aloof hstep.1.1 hrunning) ?_
  refine only_bind (only_create allows_aloof _ _) (fun _ => ?_)
  exact only_store trivial (fun _ => trivial)

/-- A release may find a completed task, which it puts back to ready first. -/
theorem orders_releaseTask (req : ReleaseTaskRequest) :
    Orders k clock (Tasks.releaseTask taskId req) w := by
  unfold Tasks.releaseTask
  refine wp_requireTask (fun h => h.1.1) orderSafe_of_reads (fun _ _ _ => trivial)
    (fun t w₁ hsame₁ hget => ?_)
  split
  · trivial
  refine wp_revokeLeaseOf (fun h => h.1.1) orderSafe_of_background (fun w₂ hsame₂ => ?_)
  have hready : Aloof (.setTaskStatus taskId .ready "") := aloof_status (by decide) ""
  refine wp_perform.mpr ⟨fun _ => hready.orderSafe, fun transitioned w₃ hstep => ?_⟩
  split
  · trivial
  rename_i htransitioned
  have hrow : w₃.state.tasks.get? taskId = some (t.withStatus (w₂.clock 0) .ready "") := by
    refine hstep.2 (by simpa using htransitioned) t ?_
    rw [hsame₂, hsame₁, hget]
  exact orders_writeTaskRow (unfinished_of_get? hrow nofun)
    (only_store trivial (fun _ => trivial))

theorem orders_cancelTask (req : Option CancelTaskRequest) :
    Orders k clock (Tasks.cancelTask taskId req) w := by
  unfold Tasks.cancelTask
  refine wp_requireTask (fun h => h.1.1) orderSafe_of_reads (fun _ _ _ => trivial)
    (fun t w₁ hsame₁ hget => ?_)
  dsimp only
  split
  · trivial
  rename_i hopen
  have hopen₁ : Unfinished taskId w₁.state :=
    unfinished_of_get? (hsame₁ ▸ hget) (TaskStatus.ne_completed_of_open hopen)
  have hcascade := only_cascadeCancelDependents (Allows.tends allows_aloof) taskId
    ("parent " ++ taskId ++ " cancelled") aloof_cancel
  unfold LeaseManager.getByTask
  -- the row is written once, before the status
  have hrest : ∀ (w₂ : Timed Board) (requeue : Bool) (status : TaskStatus) (reason : String)
      (reply : Reply), Unfinished taskId w₂.state → status ≠ .completed →
      Orders k clock (do
        let _ ← store (.setTaskCancelRequeue taskId requeue)
        let _ ← store (.setTaskStatus taskId status reason)
        let _ ← Tasks.cascadeCancelDependents taskId ("parent " ++ taskId ++ " cancelled")
        pure reply) w₂ := by
    intro w₂ requeue status reason reply hopen₂ hstatus
    refine wp_perform.mpr ⟨fun _ => orderSafe_of_open rfl hopen₂, fun _ w₃ _ => ?_⟩
    refine orders_of_only (only_store (aloof_status hstatus reason) (fun _ => ?_))
    exact only_bind hcascade (fun _ => trivial)
  split
  · exact hrest w₁ _ _ _ _ hopen₁ (by decide)
  · refine wp_perform.mpr ⟨orderSafe_of_reads trivial, fun r w₂ hstep => ?_⟩
    have hopen₂ := hopen₁.aloof hstep.1.1 trivial
    cases r with
    | none => exact hrest w₂ _ _ _ _ hopen₂ (by decide)
    | some lease =>
        refine wp_perform.mpr ⟨orderSafe_of_background trivial, fun _ w₃ hstep₃ => ?_⟩
        exact hrest w₃ _ _ _ _ (hopen₂.aloof hstep₃.1.1 trivial) (by decide)

theorem orders_blockTask (req : BlockTaskRequest) :
    Orders k clock (Tasks.blockTask taskId req) w := by
  unfold Tasks.blockTask
  refine wp_requireTask (fun h => h.1.1) orderSafe_of_reads (fun _ _ _ => trivial)
    (fun t w₁ hsame₁ hget => ?_)
  split
  · trivial
  rename_i hopen
  have hopen₁ : Unfinished taskId w₁.state :=
    unfinished_of_get? (hsame₁ ▸ hget) (TaskStatus.ne_completed_of_open hopen)
  split
  · trivial
  refine wp_perform.mpr ⟨orderSafe_of_reads trivial, fun now w₂ hstep₂ => ?_⟩
  split
  · trivial
  refine wp_revokeLeaseOf (fun h => h.1.1) orderSafe_of_background (fun w₃ hsame₃ => ?_)
  have hopen₃ := (hopen₁.aloof hstep₂.1.1 trivial).of_eq hsame₃
  refine wp_perform.mpr ⟨fun _ => orderSafe_of_open rfl hopen₃, fun _ w₄ hstep₄ => ?_⟩
  have hopen₄ := hopen₃.beside hstep₄.1.1 rfl
  have hblocked : Aloof (.setTaskStatus taskId .blocked "awaiting owner decision (ballot)") :=
    aloof_status (by decide) _
  refine wp_perform.mpr ⟨fun _ => hblocked.orderSafe, fun ok w₅ hstep₅ => ?_⟩
  split
  · refine wp_perform.mpr ⟨fun _ => orderSafe_of_open rfl ?_, fun _ _ _ => trivial⟩
    exact hopen₄.aloof hstep₅.1.1 hblocked
  · trivial

theorem orders_answerTask (req : AnswerTaskRequest) :
    Orders k clock (Tasks.answerTask taskId req) w := by
  unfold Tasks.answerTask
  refine wp_requireTask (fun h => h.1.1) orderSafe_of_reads (fun _ _ _ => trivial)
    (fun t w₁ hsame₁ hget => ?_)
  split
  · rename_i hblocked _
    have hopen₁ : Unfinished taskId w₁.state :=
      unfinished_of_get? (hsame₁ ▸ hget) (by rw [hblocked]; decide)
    split
    · trivial
    refine wp_perform.mpr ⟨orderSafe_of_reads trivial, fun now w₂ hstep₂ => ?_⟩
    split
    · trivial
    refine wp_perform.mpr ⟨fun _ => orderSafe_of_open rfl ?_, fun _ w₃ _ => ?_⟩
    · exact hopen₁.aloof hstep₂.1.1 trivial
    · refine orders_of_only (only_store trivial (fun resumed => ?_))
      split <;> trivial
  · trivial

theorem orders_setDependencies (req : SetDependenciesRequest)
    (hsafe : RoundSafe (.setDependencies taskId req) w) :
    Orders k w.clock (Tasks.setDependencies taskId req) w := by
  unfold Tasks.setDependencies
  refine wp_requireTask (fun h => h.1.1) orderSafe_of_reads (fun _ _ _ => trivial)
    (fun t w₁ hsame₁ hget => ?_)
  refine wp_perform.mpr ⟨fun i => ⟨fun u hu version hleaves => ?_, trivial⟩, fun _ _ _ => ?_⟩
  · obtain ⟨hid, hdone, rfl⟩ := hleaves
    rw [hsame₁] at hu ⊢
    exact hsafe u (hid ▸ Table.get?_of_mem hu) hdone i
  · exact orders_of_only (only_store trivial (fun _ => trivial))

theorem orders_completeTask (req : Option CompleteTaskRequest)
    (hsafe : RoundSafe (.complete taskId req) w) :
    Orders k w.clock (Tasks.completeTask taskId req) w := by
  rw [Tasks.completeTask_eq]
  refine wp_requireTask (fun h => h.1.1) orderSafe_of_reads (fun _ _ _ => trivial)
    (fun t w₁ hsame₁ hget => ?_)
  split
  · trivial
  rename_i hclosed
  refine wp_revokeLeaseOf (fun h => h.1.1) orderSafe_of_background (fun w₂ hsame₂ => ?_)
  have htasks : w₂.state.tasks = w.state.tasks := by rw [hsame₂, hsame₁]
  have hrow : w₂.state.tasks.get? taskId = some t := by rw [htasks, hget]
  split
  · exact orders_of_only (only_store (aloof_cancel _ _).1 (fun _ => trivial))
  rename_i hrequested
  have hopen : ¬t.status.IsTerminal := not_isTerminal_of_not_isClosed hclosed hrequested
  have hplace := hsafe t hget hopen
  -- the same rest, with or without a result to store
  have hrest : ∀ (stored : Bool) (w₃ : Timed Board),
      (ReviewerGate.reviewerCompletionVeto t (req.bind CompleteTaskRequest.result) = none →
        ∀ i, OrderSafe k (w.clock i) w₃.state (.setTaskStatus taskId .completed "")) →
      Orders k w.clock
        (Tasks.settleCompletion taskId t (req.bind CompleteTaskRequest.result) stored) w₃ := by
    intro stored w₃ hcompletes
    unfold Tasks.settleCompletion
    cases hveto : ReviewerGate.reviewerCompletionVeto t
        (req.bind CompleteTaskRequest.result) with
    | some veto =>
        exact orders_of_only (only_refuseCompletion (Allows.tends allows_aloof) taskId veto
          (aloof_status (by decide)) aloof_cancel trivial)
    | none =>
        refine wp_perform.mpr ⟨hcompletes hveto, fun _ w₄ _ => ?_⟩
        refine orders_of_only (only_bind (only_triggerDownstream allows_aloof taskId ?_)
          (fun _ => trivial))
        exact fun _ reason => ⟨aloof_status (by decide) reason, aloof_status (by decide) reason⟩
  cases hresult : req.bind CompleteTaskRequest.result with
  | none =>
      rw [hresult] at hrest hplace
      refine hrest false w₂ (fun hveto i => ?_)
      exact orderSafe_completed hrow ⟨rfl, rfl, rfl⟩ rfl
        (TaskStatus.ne_completed_of_open hopen) (TaskStatus.ne_completed_of_open hopen) rfl
        (fun u hu _ => htasks ▸ hu) (hplace hveto i)
  | some body =>
      rw [hresult] at hrest hplace
      have hresults : WritesBeside taskId (.setTaskResult taskId (some body)) := rfl
      have hunfinished : Unfinished taskId w₂.state :=
        unfinished_of_get? hrow (TaskStatus.ne_completed_of_open hopen)
      refine wp_perform.mpr ⟨fun _ => orderSafe_of_open hresults hunfinished,
        fun r w₃ hstep => hrest r w₃ (fun hveto i => ?_)⟩
      have hrow₃ := hstep.1.2 t hrow
      have hothers : ∀ u ∈ w₃.state.tasks.rows, u.id ≠ taskId → u ∈ w.state.tasks.rows := by
        intro u hu huid
        rw [← htasks]
        rcases hstep.1.1.tasks.of_get? (fun _ _ h => Rewrites.id_eq h) (Table.get?_of_mem hu) with
          ⟨v, hv, rfl | hchange⟩ | ⟨-, hcreated⟩
        · exact Table.mem_of_get? hv
        · cases hchange with
          | result hid => exact absurd hid huid
        · cases hcreated
      have hcompletes : ∀ t' : Task, w₃.state.tasks.get? taskId = some t' → SameRound t t' →
          t'.id = t.id → t'.status = t.status → completionVersion t (some body) = t'.version + 1 →
          OrderSafe k (w.clock i) w₃.state (.setTaskStatus taskId .completed "") := by
        intro t' ht' hsame hid hstatus hversion
        exact orderSafe_completed ht' hsame hid (TaskStatus.ne_completed_of_open hopen)
          (hstatus ▸ TaskStatus.ne_completed_of_open hopen) hversion hothers (hplace hveto i)
      by_cases hblank : Text.isBlank body = true
      · rw [if_pos hblank] at hrow₃
        exact hcompletes t hrow₃ ⟨rfl, rfl, rfl⟩ rfl rfl (if_pos hblank)
      · rw [if_neg hblank] at hrow₃
        refine hcompletes _ hrow₃ ⟨rfl, rfl, rfl⟩ rfl rfl ((if_neg hblank).trans ?_)
        change t.version + 2 = t.version + 1 + 1
        omega

theorem Call.orders (c : Call) (hsafe : RoundSafe c w) : Orders k w.clock c.prog w := by
  by_cases hc : c.WritesRows
  · cases c with
    | claim taskId req => exact (orders_claimTask req).discard
    | release taskId req => exact (orders_releaseTask req).discard
    | complete taskId req => exact (orders_completeTask req hsafe).discard
    | cancel taskId req => exact (orders_cancelTask req).discard
    | block taskId req => exact (orders_blockTask req).discard
    | answer taskId req => exact (orders_answerTask req).discard
    | setDependencies taskId req => exact (orders_setDependencies req hsafe).discard
    | _ => exact hc.elim
  · exact orders_of_only (c.footprint.mono (fun _ => Footprint.aloof hc))

/-! ## Runs -/

/-- What an event needs of the store it begins on. -/
def Backend.RoundsSafe (k : Backend) (e : Event) (w : Timed k.Store) : Prop :=
  match e with
  | .call c => RoundSafe c (k.view w)
  | .operation op => OrderSafe k (w.clock 0) (k.board w.state) op

/-- `P` holds after every operation of some events, of the log of all completions
since their beginning and of the board. -/
def Backend.AlongCompletions (k : Backend) (P : List String → Board → Prop)
    (es : List TimedEvent) (w : Timed k.Store) : Prop :=
  AlongAll
    (noting k.tick (fun w _ w' log => completedIn (k.board w.state) (k.board w'.state) ++ log))
    (fun e s => (e.enter s.1, s.2)) (fun _ _ s' => P s'.2 (k.board s'.1.state))
    (fun e : TimedEvent => e.event.prog) es (w, [])

instance (k : Backend) (P : List String → Board → Prop) [∀ log b, Decidable (P log b)]
    (es : List TimedEvent) (w : Timed k.Store) : Decidable (k.AlongCompletions P es w) :=
  decidableAlongAll _ _ _ _ es (w, [])

theorem Backend.along_orderSafe {e : Event} {w : Timed k.Store} (hsafe : k.RoundsSafe e w) :
    e.prog.Along k.tick (fun w op _ => OrderSafe k (w.clock 0) (k.board w.state) op) w := by
  cases e with
  | operation op => exact ⟨hsafe, trivial⟩
  | call c =>
      have halong := (along_of_wp k.implements_writing (c.orders (w := k.view w) hsafe)).1
      exact (keeps_of_along (I := fun w' => Later w.clock w'.clock) halong (Later.refl _)
        (fun w' op hlater hop => by
          obtain ⟨j, hj⟩ := hlater
          refine ⟨?_, Later.next ⟨j, hj⟩⟩
          rw [hj 0]
          exact hop (0 + j))).1

/-- In every run from a store without completed tasks whose events are safe, after
every operation of it, the round the gate takes is the one that was completed
last. -/
theorem newest_decides_of_events (k : Backend) (es : List TimedEvent) (w : Timed k.Store)
    (hstart : ∀ t ∈ (k.board w.state).tasks.rows, t.status ≠ .completed)
    (hsafe : CallsMeet k.tick TimedEvent.enter (fun e => e.event.prog)
      (fun e => k.RoundsSafe e.event) es w) :
    k.AlongCompletions NewestDecides es w := by
  have hempty : InOrder [] (k.board w.state).tasks := by
    refine ⟨fun t ht hdone => absurd hdone (hstart t ht), ?_⟩
    exact fun repo n t ht _ _ hreviews => absurd (reviewerOf_completed hreviews) (hstart t ht)
  have henter : ∀ (e : TimedEvent) (s : Timed k.Store × List String),
      InOrder s.2 (k.board s.1.state).tasks →
      InOrder (e.enter s.1, s.2).2 (k.board (e.enter s.1, s.2).1.state).tasks := fun _ _ h => h
  refine (alongAll_of_calls (I := fun s => InOrder s.2 (k.board s.1.state).tasks) henter
    (fun e s h hsafe => ?_) hempty (callsMeet_noting.mpr hsafe)).1
  refine keeps_of_along (along_noting.mpr (k.along_orderSafe hsafe)) h (fun s op h hop => ?_)
  have hnext := h.step hop (k.implements op s.1).tasks
  exact ⟨hnext.newestDecides, hnext⟩

theorem KeepsPlace.of_lt {tasks : Table Task} {version : Int} (hopen : t.status ≠ .completed)
    (hlt : ∀ u ∈ tasks.rows, u.updatedAt < now) : KeepsPlace tasks t now version := by
  intro repo n _ u hu _ _
  rw [if_neg hopen]
  exact .inl (hlt u hu)

end Calls

section Example

local instance asciiRounds : Unicode := Unicode.ascii

/-- Two reviewer rounds of one artifact, both given to a node. -/
def twoRounds : ClusterState where
  tasks := ⟨[{ id := "v1", title := "review", role := "reviewer", laneKey := "r!1",
               status := .running, createdAt := 1, updatedAt := 1 },
             { id := "v2", title := "review", role := "reviewer", laneKey := "r!1-rev2",
               status := .running, createdAt := 1, updatedAt := 1 }], by decide⟩
  index_ok := indexOk_initial

/-- The first round passes, and the second one asks for changes. -/
def twoReviews : List TimedEvent :=
  [⟨.call (.complete "v1" (some { result := some "Verdict: PASS, SHA: abc1234" })), fun _ => 2⟩,
   ⟨.call (.complete "v2" (some { result := some "Verdict: NEEDS-CHANGES" })), fun _ => 3⟩]

/-- The dependencies of the first round are set again. -/
def rewiredReview : TimedEvent :=
  ⟨.call (.setDependencies "v1" { dependsOn := [] }), fun _ => 4⟩

theorem newest_decides_of_events_twoReviews :
    Backend.memory.AlongCompletions NewestDecides twoReviews ⟨twoRounds, fun _ => 0⟩ := by
  refine newest_decides_of_events .memory twoReviews ⟨twoRounds, fun _ => 0⟩ (by decide) ?_
  refine ⟨fun t hget hopen _ i => ?_, fun t hget hopen _ i => ?_, trivial⟩
  · refine .of_lt (TaskStatus.ne_completed_of_open hopen) ?_
    change ∀ u ∈ twoRounds.tasks.rows, u.updatedAt < 2
    decide
  · refine .of_lt (TaskStatus.ne_completed_of_open hopen) ?_
    change ∀ u ∈ (Backend.memory.board (Backend.memory.runEvents (twoReviews.take 1)
      ⟨twoRounds, fun _ => 0⟩).state).tasks.rows, u.updatedAt < 3
    decide +kernel

/-- The older round decides, although the newer one asks for changes. -/
theorem rewired_review_decides :
    ¬Backend.memory.AlongCompletions NewestDecides (twoReviews ++ [rewiredReview])
      ⟨twoRounds, fun _ => 0⟩ := by
  intro h
  have hround : Backend.memory.AlongCompletions
      (fun log b => (latestReviewerVerdict b.tasks.rows "r" "1").2.2 =
        (lastCompleted log b.tasks "r" "1").getD "")
      (twoReviews ++ [rewiredReview]) ⟨twoRounds, fun _ => 0⟩ :=
    AlongAll.mono h (fun _ _ _ hnewest => hnewest "r" "1")
  revert hround
  decide +kernel

end Example

end HermesCluster
