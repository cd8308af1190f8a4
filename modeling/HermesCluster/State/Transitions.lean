import HermesCluster.Lib.Evolution
import HermesCluster.State.ScheduleGuarantees
/-!
# What an operation does to the tasks

Each operation of each backend, seen from one task row: which rows it rewrites
and how, and which rows it adds. Every invariant of the tasks is derived from
these two relations.
-/

namespace HermesCluster

variable [Unicode]

/-- How an operation rewrites a row of the board `b`. -/
inductive Change (k : Backend) (now : Nat) (b : Board) : StoreOp → Task → Task → Prop
  | status {taskId status failReason t} (hid : t.id = taskId)
      (hguard : k = .memory → ¬ClusterState.Refuses t.status status) :
      Change k now b (.setTaskStatus taskId status failReason) t
        (t.withStatus now status failReason)
  | result {taskId body t} (hid : t.id = taskId) :
      Change k now b (.setTaskResult taskId (some body)) t (t.withResult now body)
  | unassign {taskId t} (hid : t.id = taskId) (hopen : ¬t.status.IsTerminal)
      (hfree : Unleased now b taskId) :
      Change k now b (.unassignTask taskId) t (t.unassign now)
  | unblock {taskId t} (hid : t.id = taskId) (hblocked : t.status = .blocked) :
      Change k now b (.unblockTask taskId) t (t.unblockTo now .pending)
  | resume {taskId t} (hid : t.id = taskId) (hblocked : t.status = .blocked) :
      Change k now b (.unblockToReady taskId) t (t.unblockTo now .ready)
  | ballot {taskId ballot t} (hid : t.id = taskId) :
      Change k now b (.setTaskBallot taskId ballot) t (t.withBallot now ballot)
  | cancelRequeue {taskId requeue t} (hid : t.id = taskId) :
      Change k now b (.setTaskCancelRequeue taskId requeue) t (t.withCancelRequeue now requeue)
  | requeue {taskId reason t} (hid : t.id = taskId) (hopen : ¬t.status.IsTerminal)
      (hcap : t.attempts < taskRetryLimit) :
      Change k now b (.requeueTask taskId reason) t (t.requeue now reason)
  | dependencies {taskId dependsOn t} (hid : t.id = taskId)
      (hkeep : k = .memory ∨ dependsOn = [] ∨ t.status ≠ .ready) :
      Change k now b (.setDependencies taskId dependsOn) t (t.withDependencies now dependsOn)
  | demote {taskId dependsOn t} (hid : t.id = taskId) (hsql : k ≠ .memory)
      (hdeps : dependsOn ≠ []) (hready : t.status = .ready) :
      Change k now b (.setDependencies taskId dependsOn) t
        { t.withDependencies now dependsOn with status := .pending }
  | promote {t} (hpending : t.status = .pending) (hdeps : DepsCompleted b.tasks t)
      (hgate : LandingGate.holdReason b.tasks.rows t = none) :
      Change k now b .triggerPendingTasks t (t.promote now)
  | hold {t reason} (hpending : t.status = .pending) :
      Change k now b .triggerPendingTasks t (t.hold now reason)
  | assign {t nodeId} (hcandidate : IsCandidate now b t) :
      Change k now b .schedulePendingDetailed t (t.assignTo now nodeId)
  | sync {msg ts status t} (hmemory : k = .memory) (hts : msg.taskState = some ts)
      (hid : t.id = ts.taskId) (hstatus : TaskStatus.ofValue ts.status = some status)
      (hguard : ¬ClusterState.Refuses t.status status) :
      Change k now b (.handleSyncMessage msg) t
        ((t.withStatus now status "").withSync ts.assignedTo ts.version)
  | overwrite {msg ts status t} (hsql : k ≠ .memory) (hts : msg.taskState = some ts)
      (hid : t.id = ts.taskId) (hstatus : TaskStatus.ofValue ts.status = some status) :
      Change k now b (.handleSyncMessage msg) t
        (t.overwriteSync now status ts.assignedTo ts.version)
  | writeRow {taskId assignedTo failReason t} (hid : t.id = taskId) :
      Change k now b (.writeTaskRow taskId assignedTo failReason) t
        (t.writeRow now assignedTo failReason)
  | replace {plan t} (hmemory : k = .memory) (hid : t.id = plan.taskId) :
      Change k now b (.createTask plan) t (plan.toTask now .pending)
  | replaceBatch {plans plan t} (hmemory : k = .memory) (hplan : plan ∈ plans)
      (hid : t.id = plan.taskId) :
      Change k now b (.createTasksBatch plans) t (ClusterState.batchTask now plan)
  | promoteRow {plan t} (hsql : k ≠ .memory) (hid : t.id = plan.taskId)
      (hdeps : plan.dependsOn = []) (hpending : t.status = .pending) :
      Change k now b (.createTask plan) t (t.promote now)
  | promoteBatch {plans plan t} (hsql : k ≠ .memory) (hplan : plan ∈ plans)
      (hid : t.id = plan.taskId) (hdeps : plan.dependsOn = [])
      (hpending : t.status = .pending) :
      Change k now b (.createTasksBatch plans) t (t.promote now)

/-- The operation puts the row to ready, looking neither at its dependencies nor
at the landing gate. -/
def Reopens (k : Backend) (now : Nat) (b : Board) (op : StoreOp) (t : Task) : Prop :=
  match op with
  | .setTaskStatus taskId status _ =>
      status = .ready ∧ t.id = taskId ∧ (k = .memory → ¬ClusterState.Refuses t.status .ready)
  | .unassignTask taskId => t.id = taskId ∧ ¬t.status.IsTerminal ∧ Unleased now b taskId
  | .unblockToReady taskId => t.id = taskId ∧ t.status = .blocked
  | .requeueTask taskId _ =>
      t.id = taskId ∧ ¬t.status.IsTerminal ∧ t.attempts < taskRetryLimit
  | _ => False

/-- How an operation leaves a row: as it is, or changed. -/
def Rewrites (k : Backend) (now : Nat) (b : Board) (op : StoreOp) (t t' : Task) : Prop :=
  t' = t ∨ Change k now b op t t'

omit [Unicode] in
/-- The rows an operation adds. -/
inductive Created (k : Backend) (now : Nat) : StoreOp → Task → Prop
  | pending {plan} : Created k now (.createTask plan) (plan.toTask now .pending)
  | promoted {plan} (hsql : k ≠ .memory) (hdeps : plan.dependsOn = []) :
      Created k now (.createTask plan) ((plan.toTask now .pending).promote now)
  | batch {plans plan} (hmemory : k = .memory) (hplan : plan ∈ plans) :
      Created k now (.createTasksBatch plans) (ClusterState.batchTask now plan)
  | batchPending {plans plan} (hsql : k ≠ .memory) (hplan : plan ∈ plans) :
      Created k now (.createTasksBatch plans) (plan.toTask now .pending)
  | batchPromoted {plans plan plan'} (hsql : k ≠ .memory) (hplan : plan ∈ plans)
      (hplan' : plan' ∈ plans) (hid : plan.taskId = plan'.taskId)
      (hdeps : plan'.dependsOn = []) :
      Created k now (.createTasksBatch plans) ((plan.toTask now .pending).promote now)
  | synced {msg ts status} (hts : msg.taskState = some ts)
      (hstatus : (TaskStatus.ofValue ts.status).getD .pending = status) :
      Created k now (.handleSyncMessage msg) (ts.toTask now status)

theorem Change.id_eq {k : Backend} {now : Nat} {b : Board} {op : StoreOp} {t t' : Task}
    (h : Change k now b op t t') : t'.id = t.id := by
  cases h with
  | replace _ hid => exact hid.symm
  | replaceBatch _ _ hid => exact hid.symm
  | _ => rfl

theorem Rewrites.id_eq {k : Backend} {now : Nat} {b : Board} {op : StoreOp} {t t' : Task}
    (h : Rewrites k now b op t t') : t'.id = t.id := by
  rcases h with rfl | hchange
  · rfl
  · exact hchange.id_eq

theorem Rewrites.refl {k : Backend} {now : Nat} {b : Board} {op : StoreOp} (t : Task) :
    Rewrites k now b op t t :=
  .inl rfl

/-! ## The promotion loop -/

section Promotion

/-- A row before and after the loop of `trigger_pending_tasks`. -/
def Promotes (now : Nat) (tasks : Table Task) (t t' : Task) : Prop :=
  t' = t ∨ (t.status = .pending ∧
    ((DepsCompleted tasks t ∧ LandingGate.holdReason tasks.rows t = none ∧
        t' = t.promote now) ∨
      ∃ reason, t' = t.hold now reason))

/-- One iteration of the loop, on the table it works on. -/
def PromoteStep (now : Nat) (tasks : Table Task) (taskId : String) (tasks' : Table Task) :
    Prop :=
  tasks' = tasks ∨ ∃ t, tasks.get? taskId = some t ∧ t.status = .pending ∧
    ((DepsCompleted tasks t ∧ LandingGate.holdReason tasks.rows t = none ∧
        tasks' = tasks.modify taskId (Task.promote now) Task.keepsKey_promote) ∨
      ∃ reason, tasks' = tasks.modify taskId (Task.hold now reason) Task.keepsKey_hold)

variable {now : Nat} {tasks tasks' : Table Task}

theorem Promotes.id_eq {t t' : Task} (h : Promotes now tasks t t') : t'.id = t.id := by
  rcases h with rfl | ⟨-, ⟨-, -, rfl⟩ | ⟨reason, rfl⟩⟩ <;> rfl

theorem Promotes.gateSame {t t' : Task} (h : Promotes now tasks t t') :
    LandingGate.GateSame t t' := by
  rcases h with rfl | ⟨hpending, ⟨-, -, rfl⟩ | ⟨reason, rfl⟩⟩
  · exact LandingGate.GateSame.refl t'
  · exact ⟨rfl, rfl, rfl, rfl, by simp [Task.promote, hpending]⟩
  · exact ⟨rfl, rfl, rfl, rfl, by simp [Task.hold, hpending]⟩

omit [Unicode] in
/-- Completed rows stay, and no row becomes completed. -/
theorem depsCompleted_congr
    (h : List.Forall₂ LandingGate.GateSame tasks.rows tasks'.rows) (t : Task) :
    DepsCompleted tasks' t ↔ DepsCompleted tasks t := by
  have hevolves : Table.Evolves LandingGate.GateSame (fun _ => False) tasks tasks' :=
    Table.evolves_of_forall₂ h
  have hkey : ∀ a a', LandingGate.GateSame a a' → HasKey.key a' = HasKey.key a :=
    fun _ _ hsame => hsame.id
  refine forall₂_congr (fun dep _ => ?_)
  constructor
  · intro hdone
    obtain ⟨t', hget', hstatus⟩ := Option.map_eq_some_iff.mp hdone
    rcases hevolves.of_get? hkey hget' with ⟨t, hget, hsame⟩ | ⟨-, hfalse⟩
    · rw [hget, ← hsame.completed (.inr hstatus), Option.map_some, hstatus]
    · exact hfalse.elim
  · intro hdone
    obtain ⟨t, hget, hstatus⟩ := Option.map_eq_some_iff.mp hdone
    obtain ⟨t', hget', hsame⟩ := hevolves.get?_of_get? hkey hget
    rw [hget', hsame.completed (.inl hstatus), Option.map_some, hstatus]

/-- The loop over distinct ids rewrites the rows as `Promotes` says. -/
theorem forall₂_promotes {ι : Type} (now : Nat) (key : ι → String)
    (step : Table Task × Nat → ι → Table Task × Nat) (xs : List ι)
    (hnodup : (xs.map key).Nodup) (st : Table Task × Nat)
    (hrows : List.Forall₂ (Promotes now tasks) tasks.rows st.1.rows)
    (hsame : ∀ x ∈ xs, st.1.get? (key x) = tasks.get? (key x))
    (hstep : ∀ st : Table Task × Nat, ∀ x ∈ xs, st.1.get? (key x) = tasks.get? (key x) →
      PromoteStep now st.1 (key x) (step st x).1) :
    List.Forall₂ (Promotes now tasks) tasks.rows (xs.foldl step st).1.rows := by
  induction xs generalizing st with
  | nil => exact hrows
  | cons x xs ih =>
      rw [List.map_cons, List.nodup_cons] at hnodup
      obtain ⟨hx, hrest⟩ := hnodup
      have hgate := hrows.imp (fun _ _ h => Promotes.gateSame h)
      have hx_same := hsame x List.mem_cons_self
      have hother : ∀ y ∈ xs, key y ≠ key x := fun y hy heq =>
        hx (heq ▸ List.mem_map_of_mem hy)
      rw [List.foldl_cons]
      refine ih hrest (step st x) ?_ ?_
        (fun st y hy => hstep st y (List.mem_cons_of_mem _ hy))
      · rcases hstep st x List.mem_cons_self hx_same with
          heq | ⟨t, hget, hpending, ⟨hdeps, hhold, heq⟩ | ⟨reason, heq⟩⟩
        · rw [heq]
          exact hrows
        · rw [heq]
          refine Table.forall₂_modify (fun _ _ h => h.id_eq) (Task.promote now)
            Task.keepsKey_promote hrows hx_same (fun a ha => ?_)
          rw [hx_same, ha] at hget
          cases hget
          refine .inr ⟨hpending, .inl ⟨(depsCompleted_congr hgate t).mp hdeps, ?_, rfl⟩⟩
          rw [← hhold]
          exact (LandingGate.holdReason_congr hgate rfl rfl rfl).symm
        · rw [heq]
          refine Table.forall₂_modify (fun _ _ h => h.id_eq) (Task.hold now reason)
            Task.keepsKey_hold hrows hx_same (fun a ha => ?_)
          rw [hx_same, ha] at hget
          cases hget
          exact .inr ⟨hpending, .inr ⟨reason, rfl⟩⟩
      · intro y hy
        rw [← hsame y (List.mem_cons_of_mem _ hy)]
        rcases hstep st x List.mem_cons_self hx_same with
          heq | ⟨t, -, -, ⟨-, -, heq⟩ | ⟨reason, heq⟩⟩
        · rw [heq]
        · rw [heq]
          exact st.1.get?_modify_ne (key x) (Task.promote now) Task.keepsKey_promote (hother y hy)
        · rw [heq]
          exact st.1.get?_modify_ne (key x) (Task.hold now reason) Task.keepsKey_hold (hother y hy)

end Promotion

/-! ## The schedule pass -/

section Schedule

variable {k : Backend} {now : Nat} {b b' : Board} {cs : List Task} {out : List Assignment}

theorem forall₂_placeAll {ps : List (Task × String)} (b₁ : Board)
    (hcandidates : ∀ p ∈ ps, IsCandidate now b p.1)
    (hnodup : (ps.map (fun p => p.1.id)).Nodup)
    (hsame : ∀ p ∈ ps, b₁.tasks.get? p.1.id = b.tasks.get? p.1.id)
    (hrows : List.Forall₂ (Rewrites k now b .schedulePendingDetailed) b.tasks.rows
      b₁.tasks.rows) :
    List.Forall₂ (Rewrites k now b .schedulePendingDetailed) b.tasks.rows
      (b₁.placeAll now ps).tasks.rows := by
  induction ps generalizing b₁ with
  | nil => exact hrows
  | cons p ps ih =>
      rw [List.map_cons, List.nodup_cons] at hnodup
      obtain ⟨hp, hrest⟩ := hnodup
      have hcandidate := hcandidates p List.mem_cons_self
      refine ih (b₁.place now p)
        (fun q hq => hcandidates q (List.mem_cons_of_mem _ hq)) hrest (fun q hq => ?_) ?_
      · rw [← hsame q (List.mem_cons_of_mem _ hq)]
        refine get?_place_ne (fun hid => hp ?_)
        rw [← hid]
        exact List.mem_map_of_mem (f := fun p => p.1.id) hq
      · refine Table.forall₂_modify (fun _ _ h => h.id_eq) (Task.assignTo now p.2)
          Task.keepsKey_assignTo hrows
          (hsame p List.mem_cons_self) (fun t ht => .inr ?_)
        have hrow : t = p.1 := Table.eq_of_mem_of_key_eq (Table.mem_of_get? ht)
          hcandidate.1 (Table.key_of_get? ht)
        rw [hrow]
        exact .assign hcandidate

theorem PassOf.evolves (h : PassOf now b cs out b') :
    b.tasks.Evolves (Rewrites k now b .schedulePendingDetailed)
      (Created k now .schedulePendingDetailed) b'.tasks := by
  rw [h.tasks_eq]
  refine Table.evolves_of_forall₂ (forall₂_placeAll b (fun p hp => ?_) h.nodup_placed
    (fun _ _ => rfl) (List.forall₂_same.mpr (fun t _ => Rewrites.refl t)))
  exact (h.served.mem_iff _).mp (mem_of_mem_placements hp)

end Schedule

/-! ## The in-memory store -/

namespace ClusterState

variable {now : Nat} {s : ClusterState}

theorem promoteStep_spec (now : Nat) (st : Table Task × Nat) (taskId : String) :
    PromoteStep now st.1 taskId (promoteStep now st taskId).1 := by
  unfold promoteStep
  split
  · exact .inl rfl
  · rename_i t hget
    split
    · exact .inl rfl
    · rename_i hpending
      rw [not_not] at hpending
      split
      · exact .inl rfl
      · rename_i hdeps
        rw [not_not] at hdeps
        split
        · rename_i reason _
          split
          · exact .inl rfl
          · exact .inr ⟨t, hget, hpending, .inr ⟨reason, rfl⟩⟩
        · rename_i hhold
          exact .inr ⟨t, hget, hpending, .inl ⟨hdeps, hhold, rfl⟩⟩

theorem evolves_triggerPendingTasks (now : Nat) (s : ClusterState) :
    s.tasks.Evolves (Rewrites .memory now s.toBoard .triggerPendingTasks)
      (Created .memory now .triggerPendingTasks) (s.triggerPendingTasks now).2.tasks := by
  have hloop := forall₂_promotes now id (promoteStep now) (s.tasks.rows.map Task.id)
    (by rw [List.map_id]; exact s.tasks.nodup) (s.tasks, 0)
    (List.forall₂_same.mpr (fun _ _ => .inl rfl))
    (fun _ _ => rfl) (fun st x _ _ => promoteStep_spec now st x)
  refine (Table.evolves_of_forall₂ hloop).mono (fun t t' h => ?_) (fun _ h => h)
  rcases h with rfl | ⟨hpending, ⟨hdeps, hhold, rfl⟩ | ⟨reason, rfl⟩⟩
  · exact .inl rfl
  · exact .inr (.promote hpending hdeps hhold)
  · exact .inr (.hold hpending)

/-- A batch writes its plans one after the other; the last plan of an id stays. -/
theorem evolves_createTasksBatch (now : Nat) (plans : List TaskPlan) (s : ClusterState) :
    s.tasks.Evolves (Rewrites .memory now s.toBoard (.createTasksBatch plans))
      (Created .memory now (.createTasksBatch plans))
      (s.createTasksBatch now plans).2.tasks := by
  suffices h : ∀ (rest : List TaskPlan) (tasks : Table Task), (∀ plan ∈ rest, plan ∈ plans) →
      s.tasks.Evolves (Rewrites .memory now s.toBoard (.createTasksBatch plans))
        (Created .memory now (.createTasksBatch plans)) tasks →
      s.tasks.Evolves (Rewrites .memory now s.toBoard (.createTasksBatch plans))
        (Created .memory now (.createTasksBatch plans))
        ((rest.map (batchTask now)).foldl Table.upsert tasks) by
    exact h plans s.tasks (fun _ h => h) (Table.Evolves.of_eq rfl (fun t _ => Rewrites.refl t))
  intro rest
  induction rest with
  | nil => exact fun _ _ h => h
  | cons plan rest ih =>
      intro tasks hmem hevolves
      have hplan := hmem plan List.mem_cons_self
      refine ih _ (fun p hp => hmem p (List.mem_cons_of_mem _ hp)) ?_
      have hstep : tasks.Evolves (fun t t' => t' = t ∨
            (t.id = plan.taskId ∧ t' = batchTask now plan))
          (fun t => t = batchTask now plan) (tasks.upsert (batchTask now plan)) := by
        refine Table.Evolves.upsert (fun _ => .inl rfl) (fun t ht => .inr ⟨?_, rfl⟩) rfl
        exact Table.key_of_get? ht
      refine (hevolves.trans hstep).mono ?_ ?_
      · rintro t t' ⟨u, hu, rfl | ⟨hid, rfl⟩⟩
        · exact hu
        · exact .inr (.replaceBatch rfl hplan (hu.id_eq.symm.trans hid))
      · rintro t (rfl | ⟨u, hu, rfl | ⟨-, rfl⟩⟩)
        · exact .batch rfl hplan
        · exact hu
        · exact .batch rfl hplan

theorem evolves_handleSyncMessage (now : Nat) (msg : SyncMessage) (s : ClusterState) :
    s.tasks.Evolves (Rewrites .memory now s.toBoard (.handleSyncMessage msg))
      (Created .memory now (.handleSyncMessage msg)) (s.handleSyncMessage now msg).2.tasks := by
  have hkeep : s.tasks.Evolves (Rewrites .memory now s.toBoard (.handleSyncMessage msg))
      (Created .memory now (.handleSyncMessage msg)) s.tasks :=
    Table.Evolves.of_eq rfl (fun t _ => Rewrites.refl t)
  unfold handleSyncMessage
  split
  · exact hkeep
  · dsimp only
    split
    · exact hkeep
    · rename_i ts hts
      split
      · rename_i hget
        refine Table.Evolves.upsert Rewrites.refl (fun t ht => ?_) (.synced hts rfl)
        rw [show s.tasks.get? ts.taskId = some t from ht] at hget
        cases hget
      · rename_i task hget
        split
        · exact hkeep
        · split
          · exact hkeep
          · rename_i status hstatus
            rcases setTaskStatus_cases now ts.taskId status ""
                { s with syncVersion := msg.version } with ⟨heq, -⟩ | ⟨t, ht, href, heq⟩
            · rw [heq]
              exact hkeep
            · rw [heq]
              change s.tasks.Evolves _ _ ((s.tasks.modify ts.taskId
                (Task.withStatus now status "") (fun _ => rfl)).modify ts.taskId
                (Task.withSync ts.assignedTo ts.version) (fun _ => rfl))
              refine Eq.subst (motive := fun tasks => s.tasks.Evolves _ _ tasks)
                (Table.modify_modify s.tasks ts.taskId (Task.withStatus now status "")
                  (Task.withSync ts.assignedTo ts.version) (fun _ => rfl)
                  (fun _ => rfl)).symm ?_
              refine Table.Evolves.modify _ _ Rewrites.refl
                (fun u hu => .inr (.sync rfl hts (Table.key_of_get? hu) hstatus ?_))
              rw [show s.tasks.get? ts.taskId = some t from ht] at hu
              cases hu
              exact href

/-- What an operation of the in-memory store does to the tasks. -/
theorem evolves (now : Nat) (op : StoreOp) (s : ClusterState) :
    s.tasks.Evolves (Rewrites .memory now s.toBoard op) (Created .memory now op)
      (step now op s).2.tasks := by
  have hkeep : ∀ s' : ClusterState, s'.tasks = s.tasks →
      s.tasks.Evolves (Rewrites .memory now s.toBoard op) (Created .memory now op) s'.tasks :=
    fun _ heq => Table.Evolves.of_eq heq (fun t _ => Rewrites.refl t)
  have hwrite : ∀ (taskId : String) (f : Task → Task) (hf : Table.KeepsKey f),
      (∀ t, s.tasks.get? taskId = some t → t.id = taskId →
        Change .memory now s.toBoard op t (f t)) →
      s.tasks.Evolves (Rewrites .memory now s.toBoard op) (Created .memory now op)
        (s.modifyTask taskId f hf).tasks :=
    fun taskId f hf h => Table.Evolves.modify f hf Rewrites.refl
      (fun t ht => .inr (h t ht (Table.key_of_get? ht)))
  have hblind : ∀ (taskId : String) (f : Task → Task) (hf : Table.KeepsKey f),
      (∀ t, t.id = taskId → Change .memory now s.toBoard op t (f t)) →
      s.tasks.Evolves (Rewrites .memory now s.toBoard op) (Created .memory now op)
        (s.writeTask taskId f hf).2.tasks := by
    intro taskId f hf h
    rcases writeTask_cases taskId f hf s with ⟨heq, -⟩ | ⟨t, -, heq⟩
    · rw [heq]
      exact hkeep s rfl
    · rw [heq]
      exact hwrite taskId f hf (fun t _ hid => h t hid)
  cases op with
  | createTask plan =>
      refine Table.Evolves.upsert Rewrites.refl (fun t ht => .inr (.replace rfl ?_)) .pending
      exact Table.key_of_get? ht
  | createTasksBatch plans => exact evolves_createTasksBatch now plans s
  | setTaskResult taskId result =>
      change s.tasks.Evolves _ _ (s.setTaskResult now taskId result).2.tasks
      rcases setTaskResult_cases now taskId result s with heq | ⟨t, body, -, rfl, heq⟩
      · rw [heq]
        exact hkeep s rfl
      · rw [heq]
        exact hwrite taskId _ _ (fun _ _ hid => .result hid)
  | setTaskStatus taskId status failReason =>
      change s.tasks.Evolves _ _ (s.setTaskStatus now taskId status failReason).2.tasks
      rcases setTaskStatus_cases now taskId status failReason s with
        ⟨heq, -⟩ | ⟨t, hget, href, heq⟩
      · rw [heq]
        exact hkeep s rfl
      · rw [heq]
        refine hwrite taskId _ _ (fun u hu hid => .status hid (fun _ => ?_))
        rw [hget] at hu
        cases hu
        exact href
  | unassignTask taskId =>
      change s.tasks.Evolves _ _ (s.unassignTask now taskId).2.tasks
      rcases unassignTask_cases now taskId s with heq | ⟨t, hget, hopen, hfree, heq⟩
      · rw [heq]
        exact hkeep s rfl
      · rw [heq]
        refine hwrite taskId _ _ (fun u hu hid => .unassign hid ?_ hfree)
        rw [hget] at hu
        cases hu
        exact hopen
  | unblockTask taskId =>
      change s.tasks.Evolves _ _ (s.unblockTo now .pending taskId).2.tasks
      rcases unblockTo_cases now .pending taskId s with heq | ⟨t, hget, hblocked, heq⟩
      · rw [heq]
        exact hkeep s rfl
      · rw [heq]
        refine hwrite taskId _ _ (fun u hu hid => .unblock hid ?_)
        rw [hget] at hu
        cases hu
        exact hblocked
  | unblockToReady taskId =>
      change s.tasks.Evolves _ _ (s.unblockTo now .ready taskId).2.tasks
      rcases unblockTo_cases now .ready taskId s with heq | ⟨t, hget, hblocked, heq⟩
      · rw [heq]
        exact hkeep s rfl
      · rw [heq]
        refine hwrite taskId _ _ (fun u hu hid => .resume hid ?_)
        rw [hget] at hu
        cases hu
        exact hblocked
  | setTaskBallot taskId ballot => exact hblind taskId _ _ (fun _ hid => .ballot hid)
  | setTaskCancelRequeue taskId requeue =>
      exact hblind taskId _ _ (fun _ hid => .cancelRequeue hid)
  | setDependencies taskId dependsOn =>
      exact hblind taskId _ _ (fun _ hid => .dependencies hid (.inl rfl))
  | requeueTask taskId reason =>
      change s.tasks.Evolves _ _ (s.requeueTask now taskId reason).2.tasks
      rcases requeueTask_cases now taskId reason s with
        heq | ⟨t, hget, hopen, hcap, -, heq⟩
      · rw [heq]
        exact hkeep s rfl
      · rw [heq]
        refine Table.Evolves.modify (Task.requeue now reason) Task.keepsKey_requeue Rewrites.refl
          (fun u hu => ?_)
        have hid := Table.key_of_get? hu
        rw [hget] at hu
        cases hu
        exact .inr (.requeue hid hopen hcap)
  | writeTaskRow taskId assignedTo failReason =>
      change s.tasks.Evolves _ _ (s.writeTaskRow now taskId assignedTo failReason).2.tasks
      rcases writeTaskRow_cases now taskId assignedTo failReason s with heq | ⟨t, -, heq⟩
      · rw [heq]
        exact hkeep s rfl
      · rw [heq]
        exact hwrite taskId _ _ (fun _ _ hid => .writeRow hid)
  | triggerPendingTasks => exact evolves_triggerPendingTasks now s
  | schedulePendingDetailed => exact (passOf_schedulePendingDetailed now s).evolves
  | handleSyncMessage msg => exact evolves_handleSyncMessage now msg s
  | revokeLease leaseId =>
      refine hkeep (s.revokeLease leaseId).2 ?_
      unfold revokeLease
      split <;> rfl
  | _ => exact hkeep _ rfl

end ClusterState

/-! ## The SQL stores -/

namespace ClusterStore

variable {d : SqlDialect} {now : Nat} {s : ClusterStore}

theorem promoteStep_spec (d : SqlDialect) (now : Nat) {st : Table Task × Nat} {t : Task}
    (hget : st.1.get? t.id = some t) (hpending : t.status = .pending) :
    PromoteStep now st.1 t.id (promoteStep d now st (t.id, t.dependsOn)).1 := by
  have hrow : ∀ (f : Task → Task) (hf : Table.KeepsKey f),
      st.1.updateWhere (fun u => u.id = t.id ∧ u.status = .pending) f hf =
        st.1.modify t.id f hf :=
    fun f hf => Table.updateWhere_key_and hget hpending f hf
  have hpromoted : DepsCompleted st.1 t → LandingGate.holdReason st.1.rows t = none →
      PromoteStep now st.1 t.id (promoteRow d now st t.id).1 :=
    fun hdeps hhold => .inr ⟨t, hget, hpending, .inl ⟨hdeps, hhold, hrow _ _⟩⟩
  unfold promoteStep
  split
  · exact .inl rfl
  · rename_i hdeps
    rw [not_not] at hdeps
    rw [hget]
    split
    · rename_i hnone
      have hplain : ¬LandingGate.IsLanding t := by
        intro hlanding
        simp [Option.filter, hlanding] at hnone
      exact hpromoted hdeps (LandingGate.holdReason_of_not_isLanding hplain)
    · rename_i candidate hcandidate
      obtain ⟨hsome, -⟩ := Option.filter_eq_some_iff.mp hcandidate
      cases hsome
      split
      · rename_i hhold
        exact hpromoted hdeps hhold
      · rename_i reason _
        split
        · exact .inl rfl
        · exact .inr ⟨t, hget, hpending, .inr ⟨reason, hrow _ _⟩⟩

theorem evolves_triggerPendingTasks (d : SqlDialect) (now : Nat) (s : ClusterStore) :
    s.tasks.Evolves (Rewrites (.sql d) now s.toBoard .triggerPendingTasks)
      (Created (.sql d) now .triggerPendingTasks) (s.triggerPendingTasks d now).2.tasks := by
  have hnodup : (((s.tasks.rows.filter (fun t => decide (t.status = .pending))).map
      (fun t => (t.id, t.dependsOn))).map Prod.fst).Nodup := by
    rw [List.map_map]
    exact s.tasks.nodup.sublist (List.filter_sublist.map Task.id)
  have hloop := forall₂_promotes now Prod.fst (promoteStep d now) _
    hnodup (s.tasks, 0) (List.forall₂_same.mpr (fun _ _ => .inl rfl)) (fun _ _ => rfl) ?_
  · refine (Table.evolves_of_forall₂ hloop).mono (fun t t' h => ?_) (fun _ h => h)
    rcases h with rfl | ⟨hpending, ⟨hdeps, hhold, rfl⟩ | ⟨reason, rfl⟩⟩
    · exact .inl rfl
    · exact .inr (.promote hpending hdeps hhold)
    · exact .inr (.hold hpending)
  · intro st row hrow hsame
    obtain ⟨t, ht, rfl⟩ := List.mem_map.mp hrow
    obtain ⟨hmem, hpending⟩ := List.mem_filter.mp ht
    exact promoteStep_spec d now (hsame.trans (Table.get?_of_mem hmem))
      (of_decide_eq_true hpending)

/-- The insert, then the promotion of a pending row without dependencies. -/
theorem evolves_createTask (d : SqlDialect) (now : Nat) (plan : TaskPlan) (s : ClusterStore) :
    s.tasks.Evolves (Rewrites (.sql d) now s.toBoard (.createTask plan))
      (Created (.sql d) now (.createTask plan)) (s.createTask now plan).2.tasks := by
  have hinsert : s.tasks.Evolves (fun t t' => t' = t)
      (fun t => t = plan.toTask now .pending)
      (s.tasks.insertOrIgnore (plan.toTask now .pending)) :=
    Table.Evolves.insertOrIgnore (fun _ => rfl) rfl
  unfold createTask
  dsimp only
  split
  · rename_i hdeps
    have hupdate := Table.Evolves.updateWhere
      (t := s.tasks.insertOrIgnore (plan.toTask now .pending))
      (R := fun t t' => t' = t ∨ (t.id = plan.taskId ∧ t.status = .pending ∧
        t' = t.promote now)) (N := fun _ => False)
      (p := fun t => t.id = plan.taskId ∧ t.status = .pending) (Task.promote now)
      Task.keepsKey_promote (fun t _ hp => .inr ⟨hp.1, hp.2, rfl⟩) (fun _ _ _ => .inl rfl)
    refine (hinsert.trans hupdate).mono ?_ ?_
    · rintro t t' ⟨u, rfl, rfl | ⟨hid, hpending, rfl⟩⟩
      · exact .inl rfl
      · exact .inr (.promoteRow (by simp) hid hdeps hpending)
    · rintro t (hfalse | ⟨u, rfl, rfl | ⟨-, -, rfl⟩⟩)
      · exact hfalse.elim
      · exact .pending
      · exact .promoted (by simp) hdeps
  · refine hinsert.mono ?_ ?_
    · rintro t t' rfl
      exact .inl rfl
    · rintro t rfl
      exact .pending

theorem evolves_createTasksBatch (d : SqlDialect) (now : Nat) (plans : List TaskPlan)
    (s : ClusterStore) :
    s.tasks.Evolves (Rewrites (.sql d) now s.toBoard (.createTasksBatch plans))
      (Created (.sql d) now (.createTasksBatch plans))
      (s.createTasksBatch d now plans).2.tasks := by
  have hinserts : ∀ (rest : List TaskPlan) (tasks : Table Task),
      (∀ plan ∈ rest, plan ∈ plans) →
      s.tasks.Evolves (fun t t' => t' = t)
        (fun t => ∃ plan ∈ plans, t = plan.toTask now .pending) tasks →
      s.tasks.Evolves (fun t t' => t' = t)
        (fun t => ∃ plan ∈ plans, t = plan.toTask now .pending)
        (rest.foldl (fun tasks plan => tasks.insertOrIgnore (plan.toTask now .pending))
          tasks) := by
    intro rest
    induction rest with
    | nil => exact fun _ _ h => h
    | cons plan rest ih =>
        intro tasks hmem hevolves
        refine ih _ (fun p hp => hmem p (List.mem_cons_of_mem _ hp)) ?_
        have hinsert : tasks.Evolves (fun t t' => t' = t)
            (fun t => t = plan.toTask now .pending)
            (tasks.insertOrIgnore (plan.toTask now .pending)) :=
          Table.Evolves.insertOrIgnore (fun _ => rfl) rfl
        refine (hevolves.trans hinsert).mono ?_ ?_
        · rintro t t' ⟨u, rfl, rfl⟩
          rfl
        · rintro t (rfl | ⟨u, hu, rfl⟩)
          · exact ⟨plan, hmem plan List.mem_cons_self, rfl⟩
          · exact hu
  have hinsert := hinserts plans s.tasks (fun _ h => h)
    (Table.Evolves.of_eq rfl (fun _ _ => rfl))
  have hupdate := Table.Evolves.updateWhere
    (t := plans.foldl (fun tasks plan => tasks.insertOrIgnore (plan.toTask now .pending))
      s.tasks)
    (R := fun t t' => t' = t ∨ (t.id ∈ (plans.filter
      (fun plan => decide (plan.dependsOn = []))).map TaskPlan.taskId ∧
        t.status = .pending ∧ t' = t.promote now)) (N := fun _ => False)
    (p := fun t => t.id ∈ (plans.filter
      (fun plan => decide (plan.dependsOn = []))).map TaskPlan.taskId ∧ t.status = .pending)
    (Task.promote now) Task.keepsKey_promote (fun t _ hp => .inr ⟨hp.1, hp.2, rfl⟩)
    (fun _ _ _ => .inl rfl)
  have hplanOf : ∀ {taskId : String}, taskId ∈ (plans.filter
      (fun plan => decide (plan.dependsOn = []))).map TaskPlan.taskId →
      ∃ plan ∈ plans, taskId = plan.taskId ∧ plan.dependsOn = [] := by
    intro taskId hmem
    obtain ⟨plan, hplan, rfl⟩ := List.mem_map.mp hmem
    obtain ⟨hin, hdeps⟩ := List.mem_filter.mp hplan
    exact ⟨plan, hin, rfl, of_decide_eq_true hdeps⟩
  refine (hinsert.trans hupdate).mono ?_ ?_
  · rintro t t' ⟨u, rfl, rfl | ⟨hid, hpending, rfl⟩⟩
    · exact .inl rfl
    · obtain ⟨plan, hplan, hsame, hdeps⟩ := hplanOf hid
      exact .inr (.promoteBatch (by simp) hplan hsame hdeps hpending)
  · rintro t (hfalse | ⟨u, ⟨plan, hplan, rfl⟩, rfl | ⟨hid, -, rfl⟩⟩)
    · exact hfalse.elim
    · exact .batchPending (by simp) hplan
    · obtain ⟨plan', hplan', hsame, hdeps⟩ := hplanOf hid
      exact .batchPromoted (by simp) hplan hplan' hsame hdeps

theorem evolves_setDependencies (d : SqlDialect) (now : Nat) (taskId : String)
    (dependsOn : List String) (s : ClusterStore) :
    s.tasks.Evolves (Rewrites (.sql d) now s.toBoard (.setDependencies taskId dependsOn))
      (Created (.sql d) now (.setDependencies taskId dependsOn))
      (s.setDependencies now taskId dependsOn).2.tasks := by
  have hwrite := Table.Evolves.updateWhere (t := s.tasks)
    (R := fun t t' => t' = t ∧ t.id ≠ taskId ∨
      (t.id = taskId ∧ t' = t.withDependencies now dependsOn))
    (N := fun _ => False) (p := fun t => t.id = taskId)
    (Task.withDependencies now dependsOn) Task.keepsKey_withDependencies
    (fun t _ hp => .inr ⟨hp, rfl⟩) (fun _ _ hp => .inl ⟨rfl, hp⟩)
  unfold setDependencies
  dsimp only
  split
  · rename_i hdemote
    have hsecond := Table.Evolves.updateWhere
      (t := s.tasks.updateWhere (fun t => t.id = taskId)
        (Task.withDependencies now dependsOn) Task.keepsKey_withDependencies)
      (R := fun t t' => (t' = t ∧ (t.id = taskId → t.status ≠ .ready)) ∨
        (t.id = taskId ∧ t.status = .ready ∧ t' = { t with status := .pending }))
      (N := fun _ => False) (p := fun t => t.id = taskId ∧ t.status = .ready)
      (fun t => { t with status := .pending }) (fun _ => rfl)
      (fun t _ hp => .inr ⟨hp.1, hp.2, rfl⟩)
      (fun t _ hp => .inl ⟨rfl, fun hid hready => hp ⟨hid, hready⟩⟩)
    refine (hwrite.trans hsecond).mono ?_ ?_
    · rintro t t' ⟨u, ⟨rfl, hne⟩ | ⟨hid, rfl⟩, ⟨rfl, hready⟩ | ⟨hid', hready, rfl⟩⟩
      · exact .inl rfl
      · exact absurd hid' hne
      · exact .inr (.dependencies hid (.inr (.inr (hready hid))))
      · exact .inr (.demote hid (by simp) hdemote.1 hready)
    · rintro t (hfalse | ⟨u, hfalse, -⟩)
      · exact hfalse.elim
      · exact hfalse.elim
  · rename_i hkeep
    refine hwrite.mono_of_mem ?_ (fun _ hfalse => hfalse.elim)
    rintro t ht t' (⟨rfl, -⟩ | ⟨hid, rfl⟩)
    · exact .inl rfl
    · refine .inr (.dependencies hid (.inr (.inl ?_)))
      -- the row is there, so the write reported a hit
      by_contra hdeps
      refine hkeep ⟨hdeps, decide_eq_true ?_⟩
      exact List.countP_pos_iff.mpr ⟨t, ht, decide_eq_true hid⟩

theorem evolves_handleSyncMessage (d : SqlDialect) (now : Nat) (msg : SyncMessage)
    (s : ClusterStore) :
    s.tasks.Evolves (Rewrites (.sql d) now s.toBoard (.handleSyncMessage msg))
      (Created (.sql d) now (.handleSyncMessage msg))
      (s.handleSyncMessage now msg).2.tasks := by
  have hkeep : s.tasks.Evolves (Rewrites (.sql d) now s.toBoard (.handleSyncMessage msg))
      (Created (.sql d) now (.handleSyncMessage msg)) s.tasks :=
    Table.Evolves.of_eq rfl (fun t _ => Rewrites.refl t)
  unfold handleSyncMessage
  split
  · exact hkeep
  · dsimp only
    split
    · exact hkeep
    · rename_i ts hts
      split
      · exact hkeep
      · rename_i status hstatus
        split
        · exact Table.Evolves.updateWhere
            (Task.overwriteSync now status ts.assignedTo ts.version) (fun _ => rfl)
            (fun _ _ hid => .inr (.overwrite (by simp) hts hid hstatus))
            (fun _ _ _ => .inl rfl)
        · refine Table.Evolves.insertOrIgnore Rewrites.refl (.synced hts ?_)
          rw [hstatus, Option.getD_some]

/-- What an operation of a SQL store does to the tasks. -/
theorem evolves (d : SqlDialect) (now : Nat) (op : StoreOp) (s : ClusterStore) :
    s.tasks.Evolves (Rewrites (.sql d) now s.toBoard op) (Created (.sql d) now op)
      (step d now op s).2.tasks := by
  have hkeep : ∀ s' : ClusterStore, s'.tasks = s.tasks →
      s.tasks.Evolves (Rewrites (.sql d) now s.toBoard op) (Created (.sql d) now op)
        s'.tasks :=
    fun _ heq => Table.Evolves.of_eq heq (fun t _ => Rewrites.refl t)
  have hwrite : ∀ (p : Task → Prop) [DecidablePred p] (f : Task → Task)
      (hf : Table.KeepsKey f), (∀ t, p t → Change (.sql d) now s.toBoard op t (f t)) →
      s.tasks.Evolves (Rewrites (.sql d) now s.toBoard op) (Created (.sql d) now op)
        (s.tasks.updateWhere p f hf) :=
    fun p _ f hf h => Table.Evolves.updateWhere f hf (fun t _ hp => .inr (h t hp))
      (fun _ _ _ => .inl rfl)
  cases op with
  | createTask plan => exact evolves_createTask d now plan s
  | createTasksBatch plans => exact evolves_createTasksBatch d now plans s
  | setTaskResult taskId result =>
      change s.tasks.Evolves _ _ (s.setTaskResult now taskId result).2.tasks
      unfold setTaskResult
      split
      · exact hkeep s rfl
      · rename_i body
        split
        · exact hkeep s rfl
        · exact hwrite _ (Task.withResult now body) Task.keepsKey_withResult
            (fun t hid => .result hid)
  | setTaskStatus taskId status failReason =>
      exact hwrite _ (Task.withStatus now status failReason) Task.keepsKey_withStatus
        (fun t hid => .status hid (fun hk => by simp at hk))
  | unassignTask taskId =>
      refine hwrite _ (Task.unassign now) Task.keepsKey_unassign
        (fun t hp => .unassign hp.1 hp.2.1 ?_)
      rintro - l hl htask hlive
      exact hp.2.2 ⟨l, hl, htask.trans hp.1.symm, hlive⟩
  | unblockTask taskId =>
      exact hwrite _ (Task.unblockTo now .pending) Task.keepsKey_unblockTo
        (fun t hp => .unblock hp.1 hp.2)
  | unblockToReady taskId =>
      exact hwrite _ (Task.unblockTo now .ready) Task.keepsKey_unblockTo
        (fun t hp => .resume hp.1 hp.2)
  | setTaskBallot taskId ballot =>
      exact hwrite _ (Task.withBallot now ballot) Task.keepsKey_withBallot
        (fun t hid => .ballot hid)
  | setTaskCancelRequeue taskId requeue =>
      exact hwrite _ (Task.withCancelRequeue now requeue) Task.keepsKey_withCancelRequeue
        (fun t hid => .cancelRequeue hid)
  | requeueTask taskId reason =>
      exact hwrite _ (Task.requeue now reason) Task.keepsKey_requeue
        (fun t hp => .requeue hp.1 hp.2.1 hp.2.2)
  | setDependencies taskId dependsOn => exact evolves_setDependencies d now taskId dependsOn s
  | triggerPendingTasks => exact evolves_triggerPendingTasks d now s
  | schedulePendingDetailed => exact (passOf_schedulePendingDetailed d now s).evolves
  | handleSyncMessage msg => exact evolves_handleSyncMessage d now msg s
  | _ => exact hkeep _ rfl

end ClusterStore

theorem Backend.evolves (k : Backend) (now : Nat) (op : StoreOp) (s : k.Store) :
    (k.board s).tasks.Evolves (Rewrites k now (k.board s) op) (Created k now op)
      (k.board (k.step now op s).2).tasks := by
  cases k with
  | memory => exact ClusterState.evolves now op s
  | sql d => exact ClusterStore.evolves d now op s

end HermesCluster
