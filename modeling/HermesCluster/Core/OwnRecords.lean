import HermesCluster.Core.ReportDelivery
/-!
# The executor's own records

The rows of `task_spawns` tell a restarted executor which workers it started,
and a running one that another executor writes the same store. Each call of the
store may fail, and a failed call leaves the rows and what the executor knows of
them apart. Here an executor has its store to itself, over any number of lives.
-/

namespace HermesCluster

open Program hiding pure bind
open AgentExecutor

-- whether a reason is blank is never computed below
attribute [local irreducible] Text.strip

/-! ## The store -/

/-- What a call may do to the rows of a store that nobody else writes, whether it
fails or not. -/
def OwnStore (op : ExecOp) (rows : List SpawnRecord) (r : op.Res) (rows' : List SpawnRecord) :
    Prop :=
  match op, r with
  | .recordTaskSpawn spawn, _ => ∀ row ∈ rows', row ∈ rows ∨ row.taskId = spawn.taskId
  | .deleteTaskSpawn _, _ => rows' ⊆ rows
  | .getAllTaskSpawns _, none => rows' = rows
  | .getAllTaskSpawns _, some records => records = rows ∧ rows' = rows
  | _, _ => rows' = rows

/-- No row of the task is left when its record has been dropped. -/
def Drops (op : ExecOp) (rows' : List SpawnRecord) : Prop :=
  match op with
  | .deleteTaskSpawn taskId => ∀ row ∈ rows', row.taskId ≠ taskId
  | _ => True

instance (op : ExecOp) (rows' : List SpawnRecord) : Decidable (Drops op rows') := by
  unfold Drops
  split <;> infer_instance

/-! ## Resolved tasks -/

/-- The tasks whose worker has ended, or which main has cancelled, since they
were last spawned. -/
def resolvedAfter (op : ExecOp) (r : op.Res) (resolved : List String) : List String :=
  match op, r with
  | .observe spawn, some _ => spawn.taskId :: resolved
  | .getTask taskId, some row =>
      if row.status ≠ .cancelled ∧ row.status ≠ .cancelRequested then resolved
      else taskId :: resolved
  | .popen _ task, .started => resolved.filter (fun id => decide (id ≠ task.id))
  | _, _ => resolved

/-- The executor sees no duplicate of itself, and tracks no resolved task. -/
def TracksOpen (e : Executor) (resolved : List String) : Prop :=
  duplicateExecutorObserved e = false ∧ ∀ spawn ∈ e.activeSpawns.rows, spawn.taskId ∉ resolved

/-- No worker of a resolved task is looked at. -/
def LooksOpen (resolved : List String) : ExecOp → Prop
  | .getTask taskId => taskId ∉ resolved
  | .observe spawn => spawn.taskId ∉ resolved
  | .getTasks e | .popen e _ | .getAllTaskSpawns e => TracksOpen e resolved
  | _ => True

instance (e : Executor) (resolved : List String) : Decidable (TracksOpen e resolved) :=
  inferInstanceAs (Decidable (_ ∧ _))

instance (resolved : List String) (op : ExecOp) : Decidable (LooksOpen resolved op) := by
  induction op using ExecOp.casesOn with
  | getTask taskId => exact inferInstanceAs (Decidable (taskId ∉ resolved))
  | observe spawn => exact inferInstanceAs (Decidable (spawn.taskId ∉ resolved))
  | getTasks e | popen e _ | getAllTaskSpawns e =>
      exact inferInstanceAs (Decidable (TracksOpen e resolved))
  | _ => exact isTrue trivial

/-! ## The records and what the executor knows of them -/

/-- The executor knows every row, and neither the rows nor the live spawns are
of resolved tasks, except of those in `reaping`. -/
structure OwnRecords (reaping : List String) (e : Executor)
    (b : List SpawnRecord × List String) : Prop where
  stored : e.hasStore = true
  known : ∀ row ∈ b.1, row.taskId ≠ "" → row.taskId ∈ e.persistedIds
  alone : e.foreignSpawnIds = []
  open_rows : ∀ row ∈ b.1, row.taskId ≠ "" → row.taskId ∈ b.2 → row.taskId ∈ reaping
  open_spawns : ∀ spawn ∈ e.activeSpawns.rows, spawn.taskId ∈ b.2 → spawn.taskId ∈ reaping

/-- Nothing that a record is about has changed. -/
structure SameSpawns (e e' : Executor) : Prop where
  stored : e'.hasStore = e.hasStore
  active : e'.activeSpawns = e.activeSpawns
  persisted : e'.persistedIds = e.persistedIds
  foreign : e'.foreignSpawnIds = e.foreignSpawnIds

theorem SameSpawns.refl (e : Executor) : SameSpawns e e := ⟨rfl, rfl, rfl, rfl⟩

variable {e e' : Executor} {reaping : List String} {b : List SpawnRecord × List String}

theorem SameSpawns.trans {e'' : Executor} (h : SameSpawns e e') (h' : SameSpawns e' e'') :
    SameSpawns e e'' :=
  ⟨h'.stored.trans h.stored, h'.active.trans h.active, h'.persisted.trans h.persisted,
    h'.foreign.trans h.foreign⟩

theorem OwnRecords.of_same (h : OwnRecords reaping e b) (hsame : SameSpawns e e') :
    OwnRecords reaping e' b where
  stored := hsame.stored.trans h.stored
  known := hsame.persisted ▸ h.known
  alone := hsame.foreign.trans h.alone
  open_rows := h.open_rows
  open_spawns := hsame.active ▸ h.open_spawns

theorem OwnRecords.tracksOpen (h : OwnRecords [] e b) : TracksOpen e b.2 := by
  refine ⟨?_, fun spawn hspawn hresolved => ?_⟩
  · unfold duplicateExecutorObserved
    exact decide_eq_false (not_not_intro h.alone)
  · exact List.not_mem_nil (h.open_spawns spawn hspawn hresolved)

/-- The program looks only at open tasks, in a store of its own where what is
dropped is gone. -/
abbrev Minds {α : Type} (p : Exec α) (b : List SpawnRecord × List String)
    (Q : α → List SpawnRecord × List String → Prop) : Prop :=
  p.Meets (fun op b r b' => OwnStore op b.1 r b'.1 ∧ Drops op b'.1 ∧
    b'.2 = resolvedAfter op r b.2) (fun b op => LooksOpen b.2 op) b Q

/-- The operations that neither the records nor what is resolved depend on. -/
def RecordQuiet : ExecOp → Prop
  | .getTasks _ | .getTask _ | .popen _ _ | .observe _ | .recordTaskSpawn _ | .deleteTaskSpawn _
  | .getAllTaskSpawns _ => False
  | _ => True

theorem minds_of_only {α : Type} {I : α → Prop} {p : Exec α} (hp : p.Only RecordQuiet)
    (hI : p.Returns I) : Minds p b (fun a b' => I a ∧ b' = b) := by
  refine wp_of_only (I := (· = b)) hp hI rfl (fun {b' op} _ hop => ?_) ?_
  · cases op <;> trivial
  · rintro op b₁ r b₂ rfl hop ⟨hrows, -, hresolved⟩
    cases op <;> first | exact Prod.ext hrows hresolved | cases hop

theorem minds_of_same {p : Exec Executor} (h : OwnRecords reaping e b)
    (hp : p.Only RecordQuiet) (hsame : p.Returns (SameSpawns e)) :
    Minds p b (OwnRecords reaping) := by
  refine (minds_of_only hp hsame).mono ?_
  rintro e' _ ⟨hsame, rfl⟩
  exact h.of_same hsame

/-! ## Calls of the store -/

/-- What is dropped is neither in the store nor known any more. -/
theorem minds_dropPersistedSpawn {taskId : String} (h : OwnRecords (taskId :: reaping) e b)
    (hgone : ∀ spawn ∈ e.activeSpawns.rows, spawn.taskId ≠ taskId) :
    Minds (dropPersistedSpawn taskId e) b
      (fun e' b' => OwnRecords reaping e' b' ∧ e'.activeSpawns = e.activeSpawns) := by
  have hopen : ∀ {id : String}, id ∈ taskId :: reaping → id ≠ taskId → id ∈ reaping :=
    fun hmem hne => (List.mem_cons.mp hmem).resolve_left hne
  unfold dropPersistedSpawn
  rw [if_neg (Bool.eq_false_iff.not.mpr (not_not_intro h.stored))]
  refine meets_perform trivial (fun _ b' hC => meets_pure ?_)
  obtain ⟨hrows, hdropped, hresolved⟩ := hC
  replace hrows : b'.1 ⊆ b.1 := hrows
  replace hresolved : b'.2 = b.2 := hresolved
  refine ⟨⟨h.stored, fun row hrow hne => ?_, h.alone, fun row hrow hne hres => ?_,
    fun spawn hspawn hres => ?_⟩, rfl⟩
  · have hother : row.taskId ≠ taskId := hdropped row hrow
    exact List.mem_filter.mpr ⟨h.known row (hrows hrow) hne, decide_eq_true hother⟩
  · rw [hresolved] at hres
    exact hopen (h.open_rows row (hrows hrow) hne hres) (hdropped row hrow)
  · rw [hresolved] at hres
    exact hopen (h.open_spawns spawn hspawn hres) (hgone spawn hspawn)

theorem minds_persistSpawn {spawn : ActiveSpawn} (h : OwnRecords [] e b)
    (hopen : spawn.taskId ∉ b.2) : Minds (persistSpawn spawn e) b (OwnRecords []) := by
  unfold persistSpawn
  rw [if_neg (Bool.eq_false_iff.not.mpr (not_not_intro h.stored))]
  refine meets_perform trivial (fun _ b' hC => meets_pure ?_)
  obtain ⟨hrows, -, hresolved⟩ := hC
  replace hrows : ∀ row ∈ b'.1, row ∈ b.1 ∨ row.taskId = spawn.taskId := hrows
  replace hresolved : b'.2 = b.2 := hresolved
  have hknown : ∀ id, id ∈ e.persistedIds ∨ id = spawn.taskId →
      id ∈ if spawn.taskId ∈ e.persistedIds then e.persistedIds
        else e.persistedIds ++ [spawn.taskId] := by
    intro id hid
    split
    · rename_i hmem
      exact hid.elim (fun hold => hold) (fun heq => heq ▸ hmem)
    · exact List.mem_append.mpr (hid.imp_right List.mem_singleton.mpr)
  refine ⟨h.stored, fun row hrow hne => ?_, h.alone, fun row hrow hne hres => ?_,
    fun s hs hres => h.open_spawns s hs (hresolved ▸ hres)⟩
  · exact hknown _ ((hrows row hrow).imp_left (fun hold => h.known row hold hne))
  · rw [hresolved] at hres
    rcases hrows row hrow with hold | heq
    · exact h.open_rows row hold hne hres
    · exact absurd (heq ▸ hres) hopen

/-- Records without an id, or of tasks already tracked, are not attached. -/
theorem foldl_reattachRecord_of_blank {records : List SpawnRecord}
    (hblank : ∀ r ∈ records, r.taskId = "") (e : Executor) :
    records.foldl reattachRecord e = e := by
  induction records with
  | nil => rfl
  | cons record records ih =>
      rw [List.forall_mem_cons] at hblank
      have hsame : reattachRecord e record = e := if_pos (.inl hblank.1)
      rw [List.foldl_cons, hsame]
      exact ih hblank.2

/-- The store is read again: no row is new to the executor. -/
theorem minds_refreshPersistedIds (h : OwnRecords [] e b) :
    Minds (refreshPersistedIds e) b (OwnRecords []) := by
  unfold refreshPersistedIds
  split
  · exact meets_pure h
  · exact meets_pure h
  · refine meets_perform trivial (fun now b₁ hC => ?_)
    obtain ⟨hrows, -, hresolved⟩ := hC
    obtain rfl : b₁ = b := Prod.ext hrows hresolved
    split
    · exact meets_pure h
    · refine meets_perform h.tracksOpen (fun records b₂ hC => ?_)
      obtain ⟨hrows, -, hresolved⟩ := hC
      replace hresolved : b₂.2 = b₁.2 := hresolved
      cases records with
      | none =>
          obtain rfl : b₂ = b₁ := Prod.ext hrows hresolved
          exact meets_pure (h.of_same ⟨rfl, rfl, rfl, rfl⟩)
      | some records =>
          obtain ⟨rfl, hrows⟩ : records = b₁.1 ∧ b₂.1 = b₁.1 := hrows
          obtain rfl : b₂ = b₁ := Prod.ext hrows hresolved
          have hblank : ∀ r ∈ b₂.1.filter (fun r => decide (r.taskId ∉ e.persistedIds)),
              r.taskId = "" := by
            intro r hr
            obtain ⟨hr, hnew⟩ := List.mem_filter.mp hr
            by_contra hne
            exact of_decide_eq_true hnew (h.known r hr hne)
          have hnone : recordIds (b₂.1.filter (fun r => decide (r.taskId ∉ e.persistedIds))) =
              [] := by
            refine List.filter_eq_nil_iff.mpr (fun id hid => ?_)
            obtain ⟨r, hr, rfl⟩ := List.mem_map.mp hid
            exact fun hne => of_decide_eq_true hne (hblank r hr)
          refine meets_pure ?_
          dsimp only
          rw [foldl_reattachRecord_of_blank hblank, hnone, h.alone]
          refine ⟨h.stored, fun row hrow hne => ?_, rfl, h.open_rows, h.open_spawns⟩
          exact List.mem_filter.mpr ⟨List.mem_map_of_mem hrow, decide_eq_true hne⟩

/-! ## What leaves the records alone -/

theorem sameSpawns_queueReport (verb : ReportVerb) (taskId : String) (payload : ReportPayload)
    (e : Executor) : (queueReport verb taskId payload e).Returns (SameSpawns e) := by
  unfold queueReport
  refine returns_perform (fun ok => ?_)
  split
  · exact returns_pure (SameSpawns.refl e)
  · exact returns_perform (fun _ => returns_pure ⟨rfl, rfl, rfl, rfl⟩)

theorem sameSpawns_queueForLane (laneKey : String) (task : Task) (attempts : Nat) (e : Executor) :
    (queueForLane laneKey task attempts e).Returns (fun r => SameSpawns e r.2) := by
  unfold queueForLane
  dsimp only
  split
  · exact returns_pure ⟨rfl, rfl, rfl, rfl⟩
  · split
    · exact returns_pure ⟨rfl, rfl, rfl, rfl⟩
    · exact returns_perform (fun _ => returns_pure ⟨rfl, rfl, rfl, rfl⟩)

theorem sameSpawns_releaseHead (now : Nat) (busyLaneKeys : List String) (laneKeys : List String)
    (e : Executor) : SameSpawns e (laneKeys.foldl (releaseHead now busyLaneKeys) e) := by
  induction laneKeys generalizing e with
  | nil => exact SameSpawns.refl e
  | cons laneKey laneKeys ih =>
      refine SameSpawns.trans ?_ (ih (releaseHead now busyLaneKeys e laneKey))
      unfold releaseHead
      split
      · exact SameSpawns.refl e
      · split
        · exact ⟨rfl, rfl, rfl, rfl⟩
        · split
          · exact SameSpawns.refl e
          · exact ⟨rfl, rfl, rfl, rfl⟩

theorem sameSpawns_putBack (leftover : List Task) (e : Executor) :
    SameSpawns e (putBack leftover e) := by
  induction leftover with
  | nil => exact SameSpawns.refl e
  | cons task leftover ih => exact ih.trans ⟨rfl, rfl, rfl, rfl⟩

theorem sameSpawns_drainPendingReports (e : Executor) :
    (drainPendingReports e).Returns (SameSpawns e) := by
  unfold drainPendingReports
  refine returns_perform (fun now => returns_foldlM _ _ (fun e' entry hsame => ?_)
    (SameSpawns.refl e))
  unfold drainReport
  refine returns_perform (fun ok => ?_)
  dsimp only
  split
  · exact returns_pure hsame
  · split
    · exact returns_pure (hsame.trans ⟨rfl, rfl, rfl, rfl⟩)
    · split
      · exact returns_pure (hsame.trans ⟨rfl, rfl, rfl, rfl⟩)
      · exact returns_pure (hsame.trans ⟨rfl, rfl, rfl, rfl⟩)

theorem minds_queueReport {verb : ReportVerb} {taskId : String} {payload : ReportPayload}
    (h : OwnRecords reaping e b) :
    Minds (queueReport verb taskId payload e) b (OwnRecords reaping) :=
  minds_of_same h (only_queueReport verb taskId payload e (fun _ => trivial) trivial)
    (sameSpawns_queueReport verb taskId payload e)

theorem minds_queueForLane {laneKey : String} {task : Task} {attempts : Nat} :
    Minds (queueForLane laneKey task attempts e) b (fun r b' => SameSpawns e r.2 ∧ b' = b) :=
  minds_of_only (only_queueForLane laneKey task attempts e trivial)
    (sameSpawns_queueForLane laneKey task attempts e)

section Reap

variable [Unicode]

theorem minds_reportFailure {taskId reason : String} (h : OwnRecords reaping e b) :
    Minds (reportFailure taskId reason e) b (OwnRecords reaping) := by
  unfold reportFailure
  split
  · exact meets_pure h
  · exact minds_queueReport h

/-! ## Reaping -/

omit [Unicode] in
/-- The cancel sweep drops the record of a cancelled task. -/
theorem minds_sweepCancelled {spawn : ActiveSpawn} (h : OwnRecords [] e b)
    (hspawn : spawn ∈ e.activeSpawns.rows) :
    Minds (sweepCancelled e spawn) b (fun e' b' => OwnRecords [] e' b' ∧
      ∀ s ∈ e.activeSpawns.rows, s.taskId ≠ spawn.taskId → s ∈ e'.activeSpawns.rows) := by
  unfold sweepCancelled
  refine meets_perform (h.tracksOpen.2 spawn hspawn) (fun row b₁ hC => ?_)
  obtain ⟨hrows, -, hresolved⟩ := hC
  replace hrows : b₁.1 = b.1 := hrows
  cases row with
  | none =>
      obtain rfl : b₁ = b := Prod.ext hrows hresolved
      exact meets_pure ⟨h, fun s hs _ => hs⟩
  | some row =>
      replace hresolved : b₁.2 = if row.status ≠ .cancelled ∧ row.status ≠ .cancelRequested
        then b.2 else spawn.taskId :: b.2 := hresolved
      dsimp only
      split
      · rename_i hlive
        rw [if_pos hlive] at hresolved
        obtain rfl : b₁ = b := Prod.ext hrows hresolved
        exact meets_pure ⟨h, fun s hs _ => hs⟩
      · rename_i hended
        rw [if_neg hended] at hresolved
        let e₁ : Executor := { e with activeSpawns := e.activeSpawns.erase spawn.taskId }
        have herased : ∀ s, s ∈ e₁.activeSpawns.rows ↔
            s ∈ e.activeSpawns.rows ∧ s.taskId ≠ spawn.taskId :=
          fun s => Table.mem_rows_erase _
        have hreaping : OwnRecords [spawn.taskId] e₁ b₁ := by
          refine ⟨h.stored, hrows ▸ h.known, h.alone, fun r hr hne hres => ?_,
            fun s hs hres => ?_⟩
          · rw [hresolved] at hres
            rw [hrows] at hr
            rcases List.mem_cons.mp hres with heq | hold
            · exact List.mem_singleton.mpr heq
            · exact absurd (h.open_rows r hr hne hold) List.not_mem_nil
          · rw [hresolved] at hres
            rcases List.mem_cons.mp hres with heq | hold
            · exact List.mem_singleton.mpr heq
            · exact absurd (h.open_spawns s ((herased s).mp hs).1 hold) List.not_mem_nil
        have hkill : Minds (killSpawnProcess spawn) b₁ (fun _ b' => True ∧ b' = b₁) :=
          minds_of_only (only_killSpawnProcess spawn trivial) (returns_true _)
        have hkept : ∀ s ∈ e.activeSpawns.rows, s.taskId ≠ spawn.taskId →
            s ∈ e₁.activeSpawns.rows := fun s hs hne => (herased s).mpr ⟨hs, hne⟩
        refine meets_bind hkill ?_
        rintro - _ ⟨-, rfl⟩
        refine meets_bind (minds_dropPersistedSpawn hreaping
          (fun s hs => ((herased s).mp hs).2)) ?_
        rintro e₂ b₂ ⟨h₂, hactive⟩
        have hend : ∀ {b'}, OwnRecords [] e₂ b' →
            OwnRecords [] { e₂ with laneQueueMeta := e₂.laneQueueMeta.erase spawn.taskId } b' ∧
              ∀ s ∈ e.activeSpawns.rows, s.taskId ≠ spawn.taskId → s ∈ e₂.activeSpawns.rows :=
          fun h' => ⟨h'.of_same ⟨rfl, rfl, rfl, rfl⟩, fun s hs hne => hactive ▸ hkept s hs hne⟩
        split
        · refine meets_perform trivial (fun _ b₃ hC => ?_)
          obtain rfl : b₃ = b₂ := Prod.ext hC.1 hC.2.2
          exact meets_pure (hend h₂)
        · exact meets_pure (hend h₂)

omit [Unicode] in
/-- The tasks of the workers found to have ended are resolved. -/
theorem minds_observeAll {spawns : List ActiveSpawn}
    (hdistinct : (spawns.map ActiveSpawn.taskId).Nodup)
    (hopen : ∀ spawn ∈ spawns, spawn.taskId ∉ b.2) :
    Minds (observeAll spawns) b (fun resolved b' => b'.1 = b.1 ∧
      ∀ id ∈ b'.2, id ∈ resolved.map (fun x => x.1.taskId) ∨ id ∈ b.2) := by
  induction spawns generalizing b with
  | nil => exact meets_pure ⟨rfl, fun id hid => .inr hid⟩
  | cons spawn spawns ih =>
      rw [List.map_cons, List.nodup_cons] at hdistinct
      rw [List.forall_mem_cons] at hopen
      unfold observeAll
      refine meets_perform hopen.1 (fun seen b₁ hC => ?_)
      obtain ⟨hrows, -, hresolved⟩ := hC
      replace hrows : b₁.1 = b.1 := hrows
      have hkill : Minds (killTimedOut spawn seen) b₁ (fun _ b' => True ∧ b' = b₁) := by
        unfold killTimedOut
        split
        · exact minds_of_only (only_killSpawnProcess spawn trivial) (returns_true _)
        · exact meets_pure ⟨trivial, rfl⟩
      refine meets_bind hkill ?_
      rintro - b₁ ⟨-, rfl⟩
      cases seen with
      | none =>
          obtain rfl : b₁ = b := Prod.ext hrows hresolved
          refine meets_bind (ih hdistinct.2 hopen.2) ?_
          intro rest b₂ hrest
          exact meets_pure hrest
      | some seen =>
          replace hresolved : b₁.2 = spawn.taskId :: b.2 := hresolved
          have hopen₁ : ∀ s ∈ spawns, s.taskId ∉ b₁.2 := by
            intro s hs hmem
            rw [hresolved] at hmem
            rcases List.mem_cons.mp hmem with heq | hold
            · exact hdistinct.1 (heq ▸ List.mem_map_of_mem hs)
            · exact hopen.2 s hs hold
          refine meets_bind (ih hdistinct.2 hopen₁) ?_
          rintro rest b₂ ⟨hrows₂, hrest⟩
          refine meets_pure ⟨hrows₂.trans hrows, fun id hid => ?_⟩
          rw [List.map_cons, List.mem_cons]
          rcases hrest id hid with hmem | hmem
          · exact .inl (.inr hmem)
          · rw [hresolved] at hmem
            exact (List.mem_cons.mp hmem).elim (fun heq => .inl (.inl heq)) .inr

/-- A resolved spawn leaves the live spawns, and its record the store. -/
theorem minds_reapOne {x : ActiveSpawn × Resolution}
    (h : OwnRecords (x.1.taskId :: reaping) e b) : Minds (reapOne e x) b (OwnRecords reaping) := by
  obtain ⟨spawn, r⟩ := x
  let e₁ : Executor := { e with
    activeSpawns := e.activeSpawns.erase spawn.taskId
    laneQueueMeta := e.laneQueueMeta.erase spawn.taskId }
  have herased : ∀ s, s ∈ e₁.activeSpawns.rows ↔
      s ∈ e.activeSpawns.rows ∧ s.taskId ≠ spawn.taskId := fun s => Table.mem_rows_erase _
  have h₁ : OwnRecords (spawn.taskId :: reaping) e₁ b :=
    ⟨h.stored, h.known, h.alone, h.open_rows,
      fun s hs hres => h.open_spawns s ((herased s).mp hs).1 hres⟩
  have hdrop : ∀ {e'}, SameSpawns e₁ e' →
      Minds (dropPersistedSpawn spawn.taskId e') b (OwnRecords reaping) := by
    intro e' hsame
    refine (minds_dropPersistedSpawn (h₁.of_same hsame) (fun s hs => ?_)).mono
      (fun _ _ hend => hend.1)
    rw [hsame.active] at hs
    exact ((herased s).mp hs).2
  unfold reapOne
  dsimp only
  split
  · have hbusy : Minds (requeueBusyRefusal spawn e₁) b (fun st b' =>
        (st.1 = true → OwnRecords reaping st.2 b') ∧
          (st.1 = false → SameSpawns e₁ st.2 ∧ b' = b)) := by
      unfold requeueBusyRefusal
      dsimp only
      split
      · exact meets_pure ⟨nofun, fun _ => ⟨SameSpawns.refl e₁, rfl⟩⟩
      · refine meets_bind minds_queueForLane ?_
        rintro ⟨ok, e₂⟩ _ ⟨hsame, rfl⟩
        dsimp only
        split
        · exact meets_bind (hdrop hsame) (fun e₃ b₃ h₃ => meets_pure ⟨fun _ => h₃, nofun⟩)
        · exact meets_pure ⟨nofun, fun _ => ⟨hsame, rfl⟩⟩
    refine meets_bind hbusy ?_
    rintro ⟨requeued, e₂⟩ b₂ ⟨hwaits, hrefused⟩
    dsimp only
    split
    · rename_i hrequeued
      exact meets_pure (hwaits hrequeued)
    · rename_i hrequeued
      obtain ⟨hsame, rfl⟩ := hrefused (Bool.eq_false_iff.mpr hrequeued)
      refine meets_bind (hdrop hsame) (fun e₃ b₃ h₃ => ?_)
      generalize "lane " ++ spawn.laneKey ++ _ ++ r.detail = reason
      exact minds_reportFailure (h₃.of_same ⟨rfl, rfl, rfl, rfl⟩)
  · refine meets_bind (hdrop (SameSpawns.refl e₁)) (fun e₂ b₂ h₂ => ?_)
    split
    · exact minds_queueReport h₂
    · exact minds_queueReport h₂
    · unfold reportBlocked
      split
      · exact minds_queueReport h₂
      · refine meets_perform trivial (fun _ b₃ hC => ?_)
        obtain rfl : b₃ = b₂ := Prod.ext hC.1 hC.2.2
        exact meets_pure h₂
    · refine meets_perform trivial (fun _ b₃ hC => ?_)
      obtain rfl : b₃ = b₂ := Prod.ext hC.1 hC.2.2
      exact meets_pure h₂
    · generalize "lane " ++ spawn.laneName ++ ": " ++ r.detail = reason
      exact minds_reportFailure h₂

theorem minds_reapFinishedSpawns (h : OwnRecords [] e b) :
    Minds (reapFinishedSpawns e) b (OwnRecords []) := by
  have hdistinct : ∀ e : Executor, (e.activeSpawns.rows.map ActiveSpawn.taskId).Nodup :=
    fun e => e.activeSpawns.nodup
  have hsweep : Minds (e.activeSpawns.rows.foldlM sweepCancelled e) b (OwnRecords []) := by
    refine (meets_foldlM (I := fun rest e' b' => OwnRecords [] e' b' ∧
      (rest.map ActiveSpawn.taskId).Nodup ∧ ∀ s ∈ rest, s ∈ e'.activeSpawns.rows) _ ?_
      ⟨h, hdistinct e, fun s hs => hs⟩).mono (fun _ _ hend => hend.1)
    rintro spawn rest e' b' ⟨h', hrest, hin⟩
    rw [List.map_cons, List.nodup_cons] at hrest
    rw [List.forall_mem_cons] at hin
    refine (minds_sweepCancelled h' hin.1).mono ?_
    rintro e'' b'' ⟨h'', hkept⟩
    refine ⟨h'', hrest.2, fun s hs => hkept s (hin.2 s hs) (fun heq => hrest.1 ?_)⟩
    exact heq ▸ List.mem_map_of_mem hs
  unfold reapFinishedSpawns
  split
  · exact meets_pure h
  · refine meets_bind hsweep (fun e₁ b₁ h₁ => ?_)
    split
    · exact meets_pure h₁
    · refine meets_bind (minds_observeAll (hdistinct e₁) h₁.tracksOpen.2) ?_
      rintro resolved b₂ ⟨hrows, hresolved⟩
      refine (meets_foldlM (I := fun rest e' b' =>
        OwnRecords (rest.map fun x => x.1.taskId) e' b') _ (fun x rest e' b' h' => ?_) ?_)
      · exact minds_reapOne h'
      · refine ⟨h₁.stored, hrows ▸ h₁.known, h₁.alone, fun r hr hne hres => ?_,
          fun s hs hres => ?_⟩
        · rw [hrows] at hr
          exact (hresolved _ hres).elim id (fun hold => nomatch h₁.open_rows r hr hne hold)
        · exact (hresolved _ hres).elim id (fun hold => nomatch h₁.open_spawns s hs hold)

/-! ## Spawning -/

omit [Unicode] in
theorem minds_track {spawn : ActiveSpawn} (h : OwnRecords [] e b) (hopen : spawn.taskId ∉ b.2) :
    Minds (track spawn e) b (OwnRecords []) := by
  unfold track
  have hlease : Minds (findLeaseForTask e spawn.taskId) b (fun _ b' => True ∧ b' = b) := by
    refine minds_of_only ?_ (returns_true _)
    unfold findLeaseForTask
    refine only_ask trivial (fun leases => ?_)
    split
    · exact only_pure _
    · exact only_pure _
  refine meets_bind hlease ?_
  rintro leaseId b ⟨-, rfl⟩
  refine meets_perform trivial (fun now b₁ hC => ?_)
  obtain rfl : b₁ = b := Prod.ext hC.1 hC.2.2
  refine minds_persistSpawn ⟨h.stored, h.known, h.alone, h.open_rows, fun s hs hres => ?_⟩ hopen
  rcases (Table.mem_rows_upsert _).mp hs with rfl | hold
  · exact absurd hres hopen
  · exact h.open_spawns s hold.1 hres

/-- The end of a spawn, by what `Popen` did. -/
theorem minds_popen {task : Task} {f : Popen → Exec Executor} (h : OwnRecords [] e b)
    (hfailed : ∀ popened ≠ .started, ∃ reason, f popened = reportFailure task.id reason e)
    (hstarted : ∃ spawn, f .started = track spawn e ∧ spawn.taskId = task.id) :
    Minds (ask (.popen e task) >>= f) b (OwnRecords []) := by
  refine meets_perform h.tracksOpen (fun popened b₁ hC => ?_)
  obtain ⟨hrows, -, hresolved⟩ := hC
  have hfail : popened ≠ .started → b₁ = b → Minds (f popened) b₁ (OwnRecords []) := by
    rintro hne rfl
    obtain ⟨reason, heq⟩ := hfailed popened hne
    rw [heq]
    exact minds_reportFailure h
  cases popened with
  | notFound => exact hfail nofun (Prod.ext hrows hresolved)
  | raised message => exact hfail nofun (Prod.ext hrows hresolved)
  | started =>
      obtain ⟨spawn, heq, hspawn⟩ := hstarted
      rw [heq]
      replace hrows : b₁.1 = b.1 := hrows
      replace hresolved : b₁.2 = b.2.filter (fun id => decide (id ≠ task.id)) := hresolved
      have hsub : ∀ id ∈ b₁.2, id ∈ b.2 ∧ id ≠ task.id := by
        intro id hid
        rw [hresolved] at hid
        exact (List.mem_filter.mp hid).imp_right of_decide_eq_true
      refine minds_track ⟨h.stored, hrows ▸ h.known, h.alone, fun r hr hne hres => ?_,
        fun s hs hres => h.open_spawns s hs (hsub _ hres).1⟩ (fun hres => (hsub _ hres).2 hspawn)
      rw [hrows] at hr
      exact h.open_rows r hr hne (hsub _ hres).1

theorem minds_spawnWorker {task : Task} (h : OwnRecords [] e b) :
    Minds (spawnWorker task e) b (OwnRecords []) := by
  unfold spawnWorker
  have hplaced : Minds (lanePlacedElsewhere e task.laneKey) b (fun _ b' => True ∧ b' = b) := by
    refine minds_of_only ?_ (returns_true _)
    unfold lanePlacedElsewhere
    split
    · exact only_pure _
    · exact only_ask trivial (fun _ => only_pure _)
  refine meets_bind hplaced ?_
  rintro placed b ⟨-, rfl⟩
  split
  · refine meets_perform trivial (fun _ b₁ hC => ?_)
    obtain rfl : b₁ = b := Prod.ext hC.1 hC.2.2
    exact meets_pure h
  · split
    · unfold spawnHermesWorker
      dsimp only
      split
      · refine meets_bind minds_queueForLane ?_
        rintro queued _ ⟨hsame, rfl⟩
        exact meets_pure (h.of_same hsame)
      · refine minds_popen h (fun popened hne => ?_) ⟨_, rfl, rfl⟩
        cases popened with
        | notFound => exact ⟨_, rfl⟩
        | raised message => exact ⟨_, rfl⟩
        | started => exact absurd rfl hne
    · unfold spawnBdayaWorker
      refine minds_popen h (fun popened hne => ?_) ⟨_, rfl, rfl⟩
      cases popened with
      | notFound => exact ⟨_, rfl⟩
      | raised message => exact ⟨_, rfl⟩
      | started => exact absurd rfl hne

theorem minds_claimCandidate {st : Nat × Executor} {task : Task} (h : OwnRecords [] st.2 b) :
    Minds (claimCandidate st task) b (fun st' => OwnRecords [] st'.2) := by
  obtain ⟨budget, e⟩ := st
  unfold claimCandidate
  dsimp only
  split
  · refine meets_bind minds_queueForLane ?_
    rintro queued _ ⟨hsame, rfl⟩
    exact meets_pure (h.of_same hsame)
  · split
    · exact meets_pure h
    · exact meets_bind (minds_spawnWorker h) (fun e' b' h' => meets_pure h')

theorem minds_claimPass (h : OwnRecords [] e b) : Minds (claimPass e) b (OwnRecords []) := by
  have hreleased : Minds (spawnReleased (slots e) e) b (OwnRecords []) := by
    have hdrained : OwnRecords [] (drainReleasedLanes e).2 b := h.of_same ⟨rfl, rfl, rfl, rfl⟩
    unfold spawnReleased
    refine meets_bind (meets_foldlM (I := fun _ => OwnRecords []) _
      (fun _ _ _ _ h' => minds_spawnWorker h') hdrained) (fun e' b' h' => ?_)
    exact meets_pure (h'.of_same (sameSpawns_putBack _ e'))
  have hlisted : ∀ budget {e b}, OwnRecords [] e b →
      Minds (claimListed budget e) b (OwnRecords []) := by
    intro budget e b h
    unfold claimListed
    refine meets_perform h.tracksOpen (fun tasks b₁ hC => ?_)
    obtain rfl : b₁ = b := Prod.ext hC.1 hC.2.2
    cases tasks with
    | none => exact meets_pure h
    | some tasks =>
        refine meets_bind (minds_refreshPersistedIds h) (fun e' b' h' => ?_)
        exact meets_bind (meets_foldlM (I := fun _ st => OwnRecords [] st.2) claimCandidate
          (fun _ _ _ _ => minds_claimCandidate) h') (fun st b'' h'' => meets_pure h'')
  rw [claimPass_eq]
  split
  · refine meets_perform trivial (fun blocked b₁ hC => ?_)
    obtain rfl : b₁ = b := Prod.ext hC.1 hC.2.2
    split
    · exact meets_pure h
    · unfold passThrough
      refine meets_bind hreleased (fun e' b' h' => ?_)
      dsimp only
      split
      · exact meets_pure h'
      · exact hlisted _ h'
  · exact meets_pure h

/-! ## Lives -/

theorem minds_upkeep (h : OwnRecords [] e b) : Minds (upkeep e) b (OwnRecords []) := by
  unfold upkeep
  refine meets_bind (minds_reapFinishedSpawns h) (fun e₁ b₁ h₁ => ?_)
  have hdrain : Minds (drainPendingReports e₁) b₁ (OwnRecords []) := by
    refine minds_of_same h₁ ((only_drainPendingReports e₁).mono fun op hop => ?_)
      (sameSpawns_drainPendingReports e₁)
    cases op <;> trivial
  refine meets_bind hdrain (fun e₂ b₂ h₂ => ?_)
  have hlanes : Minds (sweepLaneQueues e₂) b₂ (OwnRecords []) :=
    minds_of_same h₂ (only_ask trivial fun _ => only_pure _)
      (returns_perform fun now => returns_pure (sameSpawns_releaseHead now _ _ e₂))
  refine meets_bind hlanes (fun e₃ b₃ h₃ => ?_)
  have hrenew : Minds (renewLeases e₃) b₃ (fun _ b' => True ∧ b' = b₃) := by
    refine minds_of_only ((only_renewLeases e₃).mono ?_) (returns_true _)
    rintro op ⟨leaseId, rfl⟩
    trivial
  refine meets_bind hrenew ?_
  rintro - _ ⟨-, rfl⟩
  exact meets_pure h₃

theorem minds_pollLoop (cycles : Nat) (h : OwnRecords [] e b) :
    Minds (pollLoop cycles e) b (OwnRecords []) := by
  induction cycles generalizing e b with
  | zero => exact meets_pure h
  | succ cycles ih =>
      unfold pollLoop
      rw [pollOnce_eq]
      exact meets_bind (meets_bind (minds_upkeep h) fun _ _ => minds_claimPass) fun _ _ => ih

/-- A life of an executor with a store: how `__init__` leaves it, and the cycles
until it stops. -/
structure Life where
  executor : Executor
  cycles : Nat
  stored : executor.hasStore = true
  fresh : Fresh executor
  unread : executor.persistedIds = [] ∧ executor.foreignSpawnIds = []

def Life.run (life : Life) : Exec Executor :=
  start life.cycles life.executor

variable {σ : Type}

/-- The rows of the store, and the resolved tasks. -/
def recordView (rows : σ → List SpawnRecord) (s : σ × List String) :
    List SpawnRecord × List String :=
  (rows s.1, s.2)

/-- What the history is told of an operation. -/
def noteResolved (step : (op : ExecOp) → σ → op.Res × σ) (s : σ) (op : ExecOp) (_ : σ)
    (resolved : List String) : List String :=
  resolvedAfter op (step op s).1 resolved

/-- The life begins with a reading of the store, unless that is empty, and what
it drops is gone. -/
def Lasting (step : (op : ExecOp) → σ → op.Res × σ) (rows : σ → List SpawnRecord) (life : Life)
    (s : σ) : Prop :=
  ((step (.getAllTaskSpawns life.executor) s).1 = none → rows s = []) ∧
    life.run.Along step (fun _ op s' => Drops op (rows s')) s

variable {step : (op : ExecOp) → σ → op.Res × σ} {rows : σ → List SpawnRecord}

instance (life : Life) (s : σ) : Decidable (Lasting step rows life s) :=
  inferInstanceAs (Decidable (_ ∧ _))

omit [Unicode] in
/-- The store is read for the first time. -/
theorem minds_reconcilePersistedSpawns {life : Life} {s : σ × List String}
    (hstore : Implements step rows OwnStore)
    (hopen : ∀ row ∈ rows s.1, row.taskId ≠ "" → row.taskId ∉ s.2)
    (hread : (step (.getAllTaskSpawns life.executor) s.1).1 = none → rows s.1 = []) :
    (reconcilePersistedSpawns life.executor).Along (noting step (noteResolved step))
        (fun s op _ => LooksOpen s.2 op) s ∧
      After (noting step (noteResolved step)) (reconcilePersistedSpawns life.executor) s
        (fun e s' => OwnRecords [] e (recordView rows s')) := by
  have hactive := life.fresh.active
  have htracks : TracksOpen life.executor s.2 := by
    refine ⟨?_, fun spawn hspawn => ?_⟩
    · unfold duplicateExecutorObserved
      exact decide_eq_false (not_not_intro life.unread.2)
    · rw [hactive] at hspawn
      cases hspawn
  unfold reconcilePersistedSpawns
  rw [if_neg (Bool.eq_false_iff.not.mpr (not_not_intro life.stored))]
  have hlaw := hstore (.getAllTaskSpawns life.executor) s.1
  rcases hout : step (.getAllTaskSpawns life.executor) s.1 with ⟨r, s₁⟩
  have hnoting : noting step (noteResolved step) (.getAllTaskSpawns life.executor) s =
      (r, s₁, s.2) := by
    unfold noting noteResolved
    rw [hout]
    rfl
  rw [hout] at hlaw hread
  refine and_congr along_perform after_perform |>.mpr ⟨⟨htracks, ?_⟩, ?_⟩
  all_goals rw [hnoting]
  · cases r with
    | none => trivial
    | some records => exact ⟨trivial, trivial⟩
  · cases r with
    | none =>
        have hempty : rows s₁ = [] := hlaw.trans (hread rfl)
        change OwnRecords [] life.executor (rows s₁, s.2)
        rw [hempty]
        refine ⟨life.stored, nofun, life.unread.2, nofun, fun spawn hspawn => ?_⟩
        rw [hactive] at hspawn
        cases hspawn
    | some records =>
        obtain ⟨rfl, hrows⟩ : records = rows s.1 ∧ rows s₁ = rows s.1 := hlaw
        have htime : rows (step .time s₁).2 = rows s.1 := (hstore .time s₁).trans hrows
        let read : Executor := { life.executor with
          persistedIds := recordIds (rows s.1), lastPersistedRefresh := (step .time s₁).1 }
        change OwnRecords [] ((rows s.1).foldl reattachRecord read) (rows (step .time s₁).2, s.2)
        obtain ⟨spawns, hspawns⟩ := exists_foldl_reattachRecord (rows s.1) read
        have hopen_spawns : ∀ spawn ∈ spawns.rows, spawn.taskId ∉ s.2 := by
          intro spawn hspawn
          have hmem : spawn ∈ ((rows s.1).foldl reattachRecord read).activeSpawns.rows := by
            rw [hspawns]
            exact hspawn
          rcases (mem_foldl_reattachRecord read).2 hmem with hold | ⟨r, hr, hne, rfl⟩
          · replace hold : spawn ∈ life.executor.activeSpawns.rows := hold
            rw [hactive] at hold
            cases hold
          · exact hopen r hr hne
        rw [hspawns, htime]
        refine ⟨life.stored, fun row hrow hne => ?_, life.unread.2, fun row hrow hne hres => ?_,
          fun spawn hspawn hres => absurd hres (hopen_spawns spawn hspawn)⟩
        · exact List.mem_filter.mpr ⟨List.mem_map_of_mem hrow, decide_eq_true hne⟩
        · exact absurd hres (hopen row hrow hne)

/-- One life, from rows of open tasks. -/
theorem minds_life {life : Life} {s : σ × List String} (hstore : Implements step rows OwnStore)
    (hopen : ∀ row ∈ rows s.1, row.taskId ≠ "" → row.taskId ∉ s.2)
    (hlasting : Lasting step rows life s.1) :
    life.run.Along (noting step (noteResolved step)) (fun s op _ => LooksOpen s.2 op) s ∧
      After (noting step (noteResolved step)) life.run s
        (fun e s' => OwnRecords [] e (recordView rows s')) := by
  obtain ⟨hread, hdrops⟩ := hlasting
  obtain ⟨halong, hafter⟩ := minds_reconcilePersistedSpawns hstore hopen hread
  have hcontract : life.run.Along (noting step (noteResolved step)) (fun s op s' =>
      OwnStore op (recordView rows s).1 (noting step (noteResolved step) op s).1
          (recordView rows s').1 ∧
        Drops op (recordView rows s').1 ∧ (recordView rows s').2 =
          resolvedAfter op (noting step (noteResolved step) op s).1 (recordView rows s).2) s :=
    along_and (along_of_implements (fun op s => hstore op s.1) _ s) (along_noting_noted hdrops)
  unfold Life.run start at hcontract ⊢
  rw [along_bind] at hcontract ⊢
  rw [after_bind]
  have hrest : After (noting step (noteResolved step))
      (reconcilePersistedSpawns life.executor) s (fun e s' =>
        (pollLoop life.cycles e).Along (noting step (noteResolved step))
            (fun s op _ => LooksOpen s.2 op) s' ∧
          After (noting step (noteResolved step)) (pollLoop life.cycles e) s'
            (fun e s'' => OwnRecords [] e (recordView rows s''))) := by
    refine after_iff.mpr (fun e hrun => ?_)
    have hstart := after_of_ok hafter hrun
    exact after_of_wp (minds_pollLoop life.cycles hstart) (after_of_ok hcontract.2 hrun)
  exact ⟨⟨halong, hrest.mono fun _ _ h => h.1⟩, hrest.mono fun _ _ h => h.2⟩

/-- Through any run of an executor on a store of its own, over any number of
lives and whichever calls of the store fail: as long as each life begins with a
reading of what the store holds, and what is dropped is gone, the executor sees
no duplicate of itself, and no worker of a resolved task is taken up again. -/
theorem ownRecords_of_lasting (step : (op : ExecOp) → σ → op.Res × σ)
    (rows : σ → List SpawnRecord) (hstore : Implements step rows OwnStore) (lives : List Life)
    (s : σ) (hlasting : CallsMeet step (fun _ s => s) Life.run (Lasting step rows) lives s) :
    AlongAll (noting step (noteResolved step)) (fun _ s => s) (fun s op _ => LooksOpen s.2 op)
        Life.run lives (s, []) ∧
      CallsMeet (noting step (noteResolved step)) (fun _ s => s) Life.run
        (fun life s => After (noting step (noteResolved step)) life.run s
          (fun e s' => TracksOpen e s'.2)) lives (s, []) := by
  let opened : σ × List String → Prop := fun s =>
    ∀ row ∈ rows s.1, row.taskId ≠ "" → row.taskId ∉ s.2
  have hlife : ∀ (life : Life) (s : σ × List String), opened s → Lasting step rows life s.1 →
      opened (life.run.run (noting step (noteResolved step)) s).2 := by
    intro life s hopen hlasting
    have hend := (minds_life hstore hopen hlasting).2
    refine end_of_after (hend.mono fun e s' h row hrow hne hres => ?_)
    exact List.not_mem_nil (h.open_rows row hrow hne hres)
  have hstart : opened (s, []) := fun _ _ _ => List.not_mem_nil
  have hlives : CallsMeet (noting step (noteResolved step)) (fun _ s => s) Life.run
      (fun life s => Lasting step rows life s.1) lives (s, []) :=
    callsMeet_noting_calls.mpr hlasting
  refine ⟨(alongAll_of_calls (fun _ _ h => h) (fun life s hopen hlasting => ?_) hstart hlives).1,
    callsMeet_of_calls (fun _ _ h => h) (fun life s hopen hlasting => ?_) hstart hlives⟩
  · exact ⟨(minds_life hstore hopen hlasting).1, hlife life s hopen hlasting⟩
  · exact ⟨(minds_life hstore hopen hlasting).2.mono fun _ _ h => h.tracksOpen,
      hlife life s hopen hlasting⟩

end Reap

section Example

local instance asciiRecords : Unicode := Unicode.ascii

/-- The store's rows, and whether main has been told of the task `a`. -/
structure RecordWorld where
  rows : List SpawnRecord := []
  reported : Bool := false
  deriving DecidableEq

/-- Main lists `a` until it is told of it, and its worker is done at once;
`keeps` says whether the store fails to delete what is dropped. -/
def recordWorld (keeps : Bool) : (op : ExecOp) → RecordWorld → op.Res × RecordWorld
  | .time, w | .monotonic, w => (0, w)
  | .diskGateBlocks, w => (false, w)
  | .getTasks _, w =>
      (some (if w.reported = true then [] else
        [{ id := "a", title := "a", status := .running, assignedTo := some "n",
           createdAt := 1, updatedAt := 1 }]), w)
  | .getTask _, w | .getLane _, w => (none, w)
  | .getLeases, w => (none, w)
  | .extendLease _, w | .block _ _, w | .requeue _ _ _, w | .ackCancel _, w => (true, w)
  | .report _ _, w => (true, { w with reported := true })
  | .release _ _ _, w | .kill _, w => ((), w)
  | .popen _ _, w => (.started, w)
  | .observe _, w => (some { outcome := .done, detail := "" }, w)
  | .recordTaskSpawn spawn, w => ((), { w with rows := [{ taskId := spawn.taskId }] })
  | .deleteTaskSpawn _, w => ((), if keeps = true then w else { w with rows := [] })
  | .getAllTaskSpawns _, w => (some w.rows, w)

theorem ownStore_recordWorld (keeps : Bool) :
    Implements (recordWorld keeps) RecordWorld.rows OwnStore := by
  intro op w
  cases op with
  | recordTaskSpawn spawn => exact fun row hrow => .inr (List.mem_singleton.mp hrow ▸ rfl)
  | deleteTaskSpawn taskId =>
      cases keeps with
      | true => exact List.Subset.refl _
      | false => exact List.nil_subset _
  | getAllTaskSpawns e => exact ⟨rfl, rfl⟩
  | time | monotonic | getTask | getLeases | extendLease | report | block | requeue | ackCancel
  | release | popen | observe | kill | getLane | diskGateBlocks | getTasks => rfl

/-- An executor that reads its store in every cycle, for three cycles. -/
def recordLife : Life where
  executor := { nodeId := "n", persistedRefresh := some 0 }
  cycles := 3
  stored := rfl
  fresh := ⟨rfl, rfl, rfl, rfl⟩
  unread := ⟨rfl, rfl⟩

theorem ownRecords_of_lasting_twice :
    AlongAll (noting (recordWorld false) (noteResolved (recordWorld false))) (fun _ s => s)
        (fun s op _ => LooksOpen s.2 op) Life.run [recordLife, recordLife] ({}, []) ∧
      CallsMeet (noting (recordWorld false) (noteResolved (recordWorld false))) (fun _ s => s)
        Life.run (fun life s => After (noting (recordWorld false)
          (noteResolved (recordWorld false))) life.run s (fun e s' => TracksOpen e s'.2))
        [recordLife, recordLife] ({}, []) :=
  ownRecords_of_lasting (recordWorld false) RecordWorld.rows (ownStore_recordWorld false)
    [recordLife, recordLife] {} ⟨by decide, by decide, trivial⟩

/-- The worker of `a` is done and reported, but its record stays: the executor
takes it for a duplicate's and looks at the worker a second time. -/
theorem leftover_taken_up :
    ¬(AlongAll (noting (recordWorld true) (noteResolved (recordWorld true))) (fun _ s => s)
        (fun s op _ => LooksOpen s.2 op) Life.run [recordLife] ({}, []) ∨
      CallsMeet (noting (recordWorld true) (noteResolved (recordWorld true))) (fun _ s => s)
        Life.run (fun life s => After (noting (recordWorld true)
          (noteResolved (recordWorld true))) life.run s (fun e s' => TracksOpen e s'.2))
        [recordLife] ({}, [])) := by
  rintro (halong | hends)
  · exact absurd halong.1 (by decide)
  · exact absurd hends.1 (by decide)

end Example

end HermesCluster
