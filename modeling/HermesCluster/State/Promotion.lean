import HermesCluster.State.Refinement
/-!
# What a promotion pass leaves

`trigger_pending_tasks` looks at every pending task once. What it makes of a row
depends on the rows as they were before, so a second pass has nothing to promote;
and a schedule pass places nothing exactly when no task it would serve has a node
with room.
-/

namespace HermesCluster

variable [Unicode]

/-! ## One pass -/

/-- The pass makes the task ready. -/
def Promotable (tasks : Table Task) (t : Task) : Prop :=
  t.status = .pending ∧ DepsCompleted tasks t ∧ LandingGate.holdReason tasks.rows t = none

instance (tasks : Table Task) : DecidablePred (Promotable tasks) := fun t =>
  inferInstanceAs (Decidable (t.status = .pending ∧ DepsCompleted tasks t ∧
    LandingGate.holdReason tasks.rows t = none))

/-- What the pass makes of a row. -/
def promoted (now : Nat) (tasks : Table Task) (t : Task) : Task :=
  if t.status = .pending ∧ DepsCompleted tasks t then
    match LandingGate.holdReason tasks.rows t with
    | none => t.promote now
    | some reason => if t.failReason = some reason then t else t.hold now reason
  else t

theorem promoted_cases (now : Nat) (tasks : Table Task) (t : Task) :
    (Promotable tasks t ∧ promoted now tasks t = t.promote now) ∨
      (¬Promotable tasks t ∧ (promoted now tasks t = t ∨
        t.status = .pending ∧ ∃ reason, promoted now tasks t = t.hold now reason)) := by
  unfold promoted Promotable
  split
  · rename_i hopen
    cases hhold : LandingGate.holdReason tasks.rows t with
    | none => exact .inl ⟨⟨hopen.1, hopen.2, rfl⟩, rfl⟩
    | some reason =>
        refine .inr ⟨fun h => Option.some_ne_none reason h.2.2, ?_⟩
        dsimp only
        split
        · exact .inl rfl
        · exact .inr ⟨hopen.1, reason, rfl⟩
  · rename_i hclosed
    exact .inr ⟨fun h => hclosed ⟨h.1, h.2.1⟩, .inl rfl⟩

theorem keepsKey_promoted (now : Nat) (tasks : Table Task) :
    Table.KeepsKey (promoted now tasks) := by
  intro t
  rcases promoted_cases now tasks t with ⟨-, h⟩ | ⟨-, h | ⟨-, reason, h⟩⟩ <;> rw [h] <;> rfl

theorem gateSame_promoted (now : Nat) (tasks : Table Task) (t : Task) :
    LandingGate.GateSame t (promoted now tasks t) := by
  rcases promoted_cases now tasks t with ⟨hprom, h⟩ | ⟨-, h | ⟨hpending, reason, h⟩⟩
  · rw [h]
    exact ⟨rfl, rfl, rfl, rfl, by simp [Task.promote, hprom.1]⟩
  · rw [h]
    exact LandingGate.GateSame.refl t
  · rw [h]
    exact ⟨rfl, rfl, rfl, rfl, by simp [Task.hold, hpending]⟩

variable {now : Nat} {tasks tasks' : Table Task}

theorem promotable_congr (h : List.Forall₂ LandingGate.GateSame tasks.rows tasks'.rows)
    (t : Task) : Promotable tasks' t ↔ Promotable tasks t := by
  unfold Promotable
  rw [depsCompleted_congr h, LandingGate.holdReason_congr h rfl rfl rfl]

theorem promoted_congr (now : Nat)
    (h : List.Forall₂ LandingGate.GateSame tasks.rows tasks'.rows) (t : Task) :
    promoted now tasks' t = promoted now tasks t := by
  unfold promoted
  rw [LandingGate.holdReason_congr h rfl rfl rfl]
  simp only [depsCompleted_congr h t]

theorem not_promotable_promoted (now : Nat) (tasks : Table Task) (t : Task) :
    ¬Promotable tasks (promoted now tasks t) := by
  rcases promoted_cases now tasks t with ⟨-, h⟩ | ⟨hnot, h | ⟨-, reason, h⟩⟩
  · rw [h]
    intro hprom
    cases hprom.1
  · rw [h]
    exact hnot
  · rw [h]
    rintro ⟨hpending, hdeps, hhold⟩
    exact hnot ⟨hpending, hdeps, LandingGate.passes_congr rfl rfl rfl hhold⟩

/-! ## The loop -/

/-- The rows once the ids in `done` have been looked at. -/
def promotedOnly (now : Nat) (tasks : Table Task) (done : List String) (t : Task) : Task :=
  if t.id ∈ done then promoted now tasks t else t

theorem gateSame_promotedOnly (now : Nat) (tasks : Table Task) (done : List String) (t : Task) :
    LandingGate.GateSame t (promotedOnly now tasks done t) := by
  unfold promotedOnly
  split
  · exact gateSame_promoted now tasks t
  · exact LandingGate.GateSame.refl t

theorem promotedOnly_id (now : Nat) (tasks : Table Task) (done : List String) (t : Task) :
    (promotedOnly now tasks done t).id = t.id :=
  (gateSame_promotedOnly now tasks done t).id

/-- One iteration rewrites the row that it looks at. -/
theorem promoteStep_fst {st : Table Task × Nat} {t : Task} (hget : st.1.get? t.id = some t) :
    (ClusterState.promoteStep now st t.id).1 =
      st.1.modify t.id (promoted now st.1) (keepsKey_promoted now st.1) := by
  have hkept : promoted now st.1 t = t →
      st.1 = st.1.modify t.id (promoted now st.1) (keepsKey_promoted now st.1) :=
    fun hfixed => (Table.modify_of_fixed hget hfixed).symm
  rw [ClusterState.promoteStep, hget]
  dsimp only
  split
  · rename_i hother
    exact hkept (if_neg (fun h => hother h.1))
  · rename_i hpending
    rw [not_not] at hpending
    split
    · rename_i hwaits
      exact hkept (if_neg (fun h => hwaits h.2))
    · rename_i hdeps
      rw [not_not] at hdeps
      have hopen : promoted now st.1 t = match LandingGate.holdReason st.1.rows t with
          | none => t.promote now
          | some reason => if t.failReason = some reason then t else t.hold now reason :=
        if_pos ⟨hpending, hdeps⟩
      cases hhold : LandingGate.holdReason st.1.rows t with
      | none =>
          rw [hhold] at hopen
          have hmade : st.1.modify t.id (Task.promote now) (fun _ => rfl) =
              st.1.modify t.id (promoted now st.1) (keepsKey_promoted now st.1) :=
            Table.modify_congr hget hopen.symm
          exact hmade
      | some reason =>
          rw [hhold] at hopen
          dsimp only at hopen ⊢
          by_cases hrecorded : t.failReason = some reason
          · rw [if_pos hrecorded] at hopen ⊢
            exact hkept hopen
          · rw [if_neg hrecorded] at hopen ⊢
            have hheld : st.1.modify t.id (Task.hold now reason) (fun _ => rfl) =
                st.1.modify t.id (promoted now st.1) (keepsKey_promoted now st.1) :=
              Table.modify_congr hget hopen.symm
            exact hheld

theorem promoteStep_rows {st : Table Task × Nat} {done : List String} {t : Task}
    (hrows : st.1.rows = tasks.rows.map (promotedOnly now tasks done)) (ht : t ∈ tasks.rows)
    (hfresh : t.id ∉ done) :
    st.1.get? t.id = some t ∧
      (ClusterState.promoteStep now st t.id).1.rows =
        tasks.rows.map (promotedOnly now tasks (done ++ [t.id])) := by
  have hself : promotedOnly now tasks done t = t := if_neg hfresh
  have hget : st.1.get? t.id = some t := by
    refine Table.get?_eq_some_iff.mpr ⟨?_, rfl⟩
    rw [hrows, ← hself]
    exact List.mem_map_of_mem ht
  have hgate : List.Forall₂ LandingGate.GateSame tasks.rows st.1.rows := by
    rw [hrows, List.forall₂_map_right_iff, List.forall₂_same]
    exact fun u _ => gateSame_promotedOnly now tasks done u
  refine ⟨hget, ?_⟩
  rw [promoteStep_fst hget]
  change st.1.rows.map (fun u => if u.id = t.id then promoted now st.1 u else u) = _
  rw [hrows, List.map_map]
  refine List.map_congr_left (fun u hu => ?_)
  rw [Function.comp_apply, promotedOnly_id]
  by_cases hid : u.id = t.id
  · have heq : u = t := Table.eq_of_mem_of_key_eq hu ht hid
    subst heq
    rw [if_pos rfl, hself, promoted_congr now hgate]
    exact (if_pos (List.mem_append_right _ List.mem_cons_self)).symm
  · rw [if_neg hid]
    unfold promotedOnly
    simp only [List.mem_append, List.mem_singleton, hid, or_false]

theorem foldl_promoteStep (rest : List Task) {st : Table Task × Nat} {done : List String}
    (hrows : st.1.rows = tasks.rows.map (promotedOnly now tasks done))
    (hmem : ∀ t ∈ rest, t ∈ tasks.rows) (hnodup : (rest.map Task.id).Nodup)
    (hfresh : ∀ t ∈ rest, t.id ∉ done) :
    ((rest.map Task.id).foldl (ClusterState.promoteStep now) st).1.rows =
      tasks.rows.map (promotedOnly now tasks (done ++ rest.map Task.id)) := by
  induction rest generalizing st done with
  | nil =>
      rw [List.map_nil, List.append_nil]
      exact hrows
  | cons t rest ih =>
      rw [List.map_cons, List.nodup_cons] at hnodup
      rw [List.forall_mem_cons] at hmem hfresh
      obtain ⟨-, hstep⟩ := promoteStep_rows hrows hmem.1 hfresh.1
      have hlater : ∀ u ∈ rest, u.id ∉ done ++ [t.id] := by
        intro u hu hdone
        rcases List.mem_append.mp hdone with hold | hsame
        · exact hfresh.2 u hu hold
        · rw [List.mem_singleton] at hsame
          exact hnodup.1 (hsame ▸ List.mem_map_of_mem hu)
      rw [List.map_cons, List.foldl_cons, ih hstep hmem.2 hnodup.2 hlater, List.append_assoc]
      rfl

theorem ClusterState.rows_triggerPendingTasks (now : Nat) (s : ClusterState) :
    (s.triggerPendingTasks now).2.tasks.rows = s.tasks.rows.map (promoted now s.tasks) := by
  have hbegin : s.tasks.rows = s.tasks.rows.map (promotedOnly now s.tasks []) := by
    have hnone : promotedOnly now s.tasks [] = id :=
      funext (fun _ => if_neg List.not_mem_nil)
    rw [hnone, List.map_id]
  have hloop : (s.triggerPendingTasks now).2.tasks.rows =
      s.tasks.rows.map (promotedOnly now s.tasks ([] ++ s.tasks.rows.map Task.id)) :=
    foldl_promoteStep s.tasks.rows hbegin (fun _ ht => ht) s.tasks.nodup
      (fun _ _ h => by cases h)
  refine hloop.trans (List.map_congr_left (fun t ht => ?_))
  exact if_pos (List.mem_map_of_mem ht)

/-- On every store the pass rewrites each row for the rows as they were, and leaves
the rest alone. -/
theorem board_triggerPendingTasks (k : Backend) (now : Nat) (s : k.Store) :
    k.board (k.step now .triggerPendingTasks s).2 =
      { k.board s with
        tasks := (k.board s).tasks.mapRows (promoted now (k.board s).tasks)
          (keepsKey_promoted now (k.board s).tasks) } := by
  cases k with
  | memory =>
      have htasks : (ClusterState.triggerPendingTasks now s).2.tasks =
          s.tasks.mapRows (promoted now s.tasks) (keepsKey_promoted now s.tasks) :=
        Table.ext (ClusterState.rows_triggerPendingTasks now s)
      exact congrArg (fun tasks => ({ s.toBoard with tasks := tasks } : Board)) htasks
  | sql d =>
      let m : ClusterState := { ClusterState.empty with tasks := s.tasks }
      have hsame : (ClusterStore.triggerPendingTasks d now s).2.tasks =
          (m.triggerPendingTasks now).2.tasks := (triggerPendingTasks_eq d now rfl).2
      have htasks : (ClusterStore.triggerPendingTasks d now s).2.tasks =
          s.tasks.mapRows (promoted now s.tasks) (keepsKey_promoted now s.tasks) :=
        hsame.trans (Table.ext (ClusterState.rows_triggerPendingTasks now m))
      exact congrArg (fun tasks => ({ s.toBoard with tasks := tasks } : Board)) htasks

/-! ## What is left to promote -/

/-- Some pending task is ready after another pass. -/
def LeftToPromote (k : Backend) (now : Nat) (s : k.Store) : Prop :=
  ∃ t ∈ (k.board s).tasks.rows, t.status = .pending ∧
    ((k.board (k.step now .triggerPendingTasks s).2).tasks.get? t.id).map Task.status =
      some .ready

theorem leftToPromote_iff (k : Backend) (now : Nat) (s : k.Store) :
    LeftToPromote k now s ↔ ∃ t ∈ (k.board s).tasks.rows, Promotable (k.board s).tasks t := by
  refine exists_congr (fun t => and_congr_right (fun ht => ?_))
  have hrow : (k.board (k.step now .triggerPendingTasks s).2).tasks.get? t.id =
      some (promoted now (k.board s).tasks t) := by
    rw [board_triggerPendingTasks]
    have hget := (k.board s).tasks.get?_mapRows t.id (promoted now (k.board s).tasks)
      (keepsKey_promoted now (k.board s).tasks)
    have hstored : (k.board s).tasks.get? t.id = some t := Table.get?_of_mem ht
    rw [hstored] at hget
    exact hget
  rw [hrow, Option.map_some, Option.some.injEq]
  rcases promoted_cases now (k.board s).tasks t with ⟨hprom, h⟩ | ⟨hnot, h | ⟨-, reason, h⟩⟩
  · rw [h]
    exact iff_of_true ⟨hprom.1, rfl⟩ hprom
  · rw [h]
    refine iff_of_false ?_ hnot
    rintro ⟨hpending, hready⟩
    rw [hpending] at hready
    cases hready
  · rw [h]
    refine iff_of_false ?_ hnot
    rintro ⟨hpending, hready⟩
    have hsame : (t.hold now reason).status = t.status := rfl
    rw [hsame, hpending] at hready
    cases hready

/-- A second pass finds nothing. -/
theorem not_leftToPromote (k : Backend) (now later : Nat) (s : k.Store) :
    ¬LeftToPromote k later (k.step now .triggerPendingTasks s).2 := by
  rw [leftToPromote_iff, board_triggerPendingTasks]
  rintro ⟨t, ht, hprom⟩
  obtain ⟨u, -, rfl⟩ := List.mem_map.mp ht
  have hgate : List.Forall₂ LandingGate.GateSame (k.board s).tasks.rows
      ((k.board s).tasks.mapRows (promoted now (k.board s).tasks)
        (keepsKey_promoted now (k.board s).tasks)).rows := by
    change List.Forall₂ _ _ ((k.board s).tasks.rows.map _)
    rw [List.forall₂_map_right_iff, List.forall₂_same]
    exact fun v _ => gateSame_promoted now _ v
  exact not_promotable_promoted now _ u ((promotable_congr hgate _).mp hprom)

/-! ## What is left to schedule -/

/-- A further pass assigns a task. -/
def LeftToSchedule (k : Backend) (now : Nat) (s : k.Store) : Prop :=
  (k.step now .schedulePendingDetailed s).1 ≠ []

/-- A node of the fleet that can take the task over: online, able to run it, the one
its pin stands for if it has a pin, and not full with the tasks there are. -/
def HasPlace (nodes : Table Node) (lanes : Table Lane) (tasks : List Task) (t : Task) : Prop :=
  ∃ n ∈ onlineNodes nodes, nodeCanRun t.requires n = true ∧
    (lanePin lanes t ≠ "" → pinnedNode (onlineNodes nodes) (lanePin lanes t) = some n) ∧
    nodeAtCapacity n (startLoad tasks n.id) = false

theorem leftToSchedule_iff (k : Backend) (now : Nat) (s : k.Store) :
    LeftToSchedule k now s ↔ ∃ t, IsCandidate now (k.board s) t ∧
      HasPlace (k.board s).nodes (k.board s).lanes (k.board s).tasks.rows t := by
  obtain ⟨cs, hpass, -⟩ := k.passOf now s
  unfold LeftToSchedule
  rw [hpass.out_eq, Ne, List.map_eq_nil_iff, placements,
    Chooser.place_eq_nil_iff (laneChooser_sound _ _)
      (laneChooser_complete _ (eq_of_mem_onlineNodes (k.board s).nodes))]
  simp only [not_forall, not_not, exists_prop]
  refine exists_congr (fun t => and_congr (hpass.served.mem_iff t) ?_)
  constructor
  · rintro ⟨_, ⟨n, hn, rfl, hcan, hpin⟩, m, hm, hid, hroom⟩
    rw [eq_of_mem_onlineNodes _ m hm n hn hid] at hroom
    exact ⟨n, hn, hcan, hpin, hroom⟩
  · rintro ⟨n, hn, hcan, hpin, hroom⟩
    exact ⟨n.id, ⟨n, hn, rfl, hcan, hpin⟩, n, hn, rfl, hroom⟩

/-! ## What a schedule pass finds after a promotion pass -/

/-- The tasks, with those ready that a promotion pass makes ready. -/
def readied (tasks : Table Task) : List Task :=
  tasks.rows.map (fun t => if Promotable tasks t then { t with status := .ready } else t)

/-- A task that a schedule pass gives to a node once all that can be promoted is
ready. -/
structure Servable (now : Nat) (b : Board) (t : Task) : Prop where
  stored : t ∈ b.tasks.rows
  ready : t.status = .ready ∨ Promotable b.tasks t
  unleased : t.id ∉ leasedTaskIds now b.leases
  free : t.id ∉ laneBlockedReadyIds (readied b.tasks)
  place : HasPlace b.nodes b.lanes b.tasks.rows t

omit [Unicode] in
/-- The lane guard looks at five columns. -/
def guardView (t : Task) : Task where
  id := t.id
  title := ""
  priority := t.priority
  status := t.status
  createdAt := t.createdAt
  updatedAt := 0
  laneKey := t.laneKey

omit [Unicode] in
theorem laneBlocked_guardView (rows : List Task) (lane : String) :
    laneBlocked (rows.map guardView) lane = laneBlocked rows lane := by
  have hactive : activeLanes (rows.map guardView) = activeLanes rows := by
    unfold activeLanes
    rw [List.filter_map, List.map_map]
    rfl
  have hready : readyOfLane (rows.map guardView) lane = (readyOfLane rows lane).map guardView := by
    unfold readyOfLane
    rw [List.filter_map]
    rfl
  have hsorted : ((readyOfLane rows lane).map guardView).insertionSort SiblingFirst =
      ((readyOfLane rows lane).insertionSort SiblingFirst).map guardView :=
    (List.map_insertionSort SiblingFirst SiblingFirst guardView _
      (fun _ _ _ _ => Iff.rfl)).symm
  unfold laneBlocked
  rw [hactive, hready, hsorted, List.map_map, ← List.map_drop, List.map_map]
  rfl

omit [Unicode] in
theorem laneBlockedReadyIds_guardView (rows : List Task) :
    laneBlockedReadyIds (rows.map guardView) = laneBlockedReadyIds rows := by
  have hlanes : ((rows.map guardView).filter
        (fun t => decide (t.laneKey ≠ "" ∧ t.status = .ready))).map Task.laneKey =
      (rows.filter (fun t => decide (t.laneKey ≠ "" ∧ t.status = .ready))).map Task.laneKey := by
    rw [List.filter_map, List.map_map]
    rfl
  unfold laneBlockedReadyIds
  rw [hlanes]
  exact List.flatMap_congr (fun lane _ => laneBlocked_guardView rows lane)

/-- For the lane guard, promotion makes tasks ready and does nothing else. -/
theorem laneBlockedReadyIds_promoted (now : Nat) (tasks : Table Task) :
    laneBlockedReadyIds (tasks.rows.map (promoted now tasks)) =
      laneBlockedReadyIds (readied tasks) := by
  rw [← laneBlockedReadyIds_guardView, ← laneBlockedReadyIds_guardView (readied tasks), readied,
    List.map_map, List.map_map]
  refine congrArg laneBlockedReadyIds (List.map_congr_left (fun t _ => ?_))
  dsimp only [Function.comp_apply]
  rcases promoted_cases now tasks t with ⟨hprom, h⟩ | ⟨hnot, h | ⟨-, reason, h⟩⟩
  · rw [h, if_pos hprom]
    rfl
  · rw [h, if_neg hnot]
  · rw [h, if_neg hnot]
    rfl

theorem promoted_fields (now : Nat) (tasks : Table Task) (t : Task) :
    (promoted now tasks t).requires = t.requires ∧ (promoted now tasks t).laneKey = t.laneKey ∧
      (promoted now tasks t).assignedTo = t.assignedTo := by
  rcases promoted_cases now tasks t with ⟨-, h⟩ | ⟨-, h | ⟨-, reason, h⟩⟩ <;> rw [h] <;>
    exact ⟨rfl, rfl, rfl⟩

theorem promoted_ready_iff (now : Nat) (tasks : Table Task) (t : Task) :
    (promoted now tasks t).status = .ready ↔ t.status = .ready ∨ Promotable tasks t := by
  rcases promoted_cases now tasks t with ⟨hprom, h⟩ | ⟨hnot, h | ⟨-, reason, h⟩⟩
  · rw [h]
    exact iff_of_true rfl (.inr hprom)
  · rw [h]
    exact (or_iff_left hnot).symm
  · rw [h]
    exact (or_iff_left hnot).symm

theorem promoted_active_iff (now : Nat) (tasks : Table Task) (t : Task) :
    (promoted now tasks t).status.IsActive ↔ t.status.IsActive := by
  rcases promoted_cases now tasks t with ⟨hprom, h⟩ | ⟨-, h | ⟨-, reason, h⟩⟩
  · have hpending : ¬t.status.IsActive := by simp [TaskStatus.IsActive, hprom.1]
    rw [h]
    exact iff_of_false (by simp [TaskStatus.IsActive, Task.promote]) hpending
  · rw [h]
  · rw [h]
    rfl

theorem startLoad_promoted (now : Nat) (tasks : Table Task) :
    startLoad (tasks.rows.map (promoted now tasks)) = startLoad tasks.rows := by
  funext nodeId
  unfold startLoad activeOn
  rw [List.countP_map]
  have hcount : ∀ t, decide ((promoted now tasks t).status.IsActive ∧
      (promoted now tasks t).assignedTo = some nodeId) =
        decide (t.status.IsActive ∧ t.assignedTo = some nodeId) := by
    intro t
    rw [(promoted_fields now tasks t).2.2]
    exact decide_eq_decide.mpr (and_congr_left' (promoted_active_iff now tasks t))
  exact congrArg _ (List.countP_congr (fun t _ => by
    rw [Function.comp_apply, hcount]))

/-- A schedule pass after a promotion pass has work exactly when some task is
servable before. -/
theorem leftToSchedule_after_promotion (k : Backend) (now later : Nat) (s : k.Store) :
    LeftToSchedule k later (k.step now .triggerPendingTasks s).2 ↔
      ∃ t, Servable later (k.board s) t := by
  rw [leftToSchedule_iff, board_triggerPendingTasks]
  generalize k.board s = b
  have hplace : ∀ t, HasPlace b.nodes b.lanes (b.tasks.rows.map (promoted now b.tasks))
      (promoted now b.tasks t) ↔ HasPlace b.nodes b.lanes b.tasks.rows t := by
    intro t
    obtain ⟨hrequires, hlane, -⟩ := promoted_fields now b.tasks t
    have hpin : lanePin b.lanes (promoted now b.tasks t) = lanePin b.lanes t := by
      unfold lanePin
      rw [hlane]
    unfold HasPlace
    rw [hrequires, hpin, startLoad_promoted]
  constructor
  · rintro ⟨_, ⟨ht, hready, hleased, hfree⟩, hroom⟩
    obtain ⟨t, hstored, rfl⟩ := List.mem_map.mp ht
    have hid : (promoted now b.tasks t).id = t.id := (gateSame_promoted now b.tasks t).id
    exact ⟨t,
      { stored := hstored
        ready := (promoted_ready_iff now b.tasks t).mp hready
        unleased := hid ▸ hleased
        free := by
          rw [← laneBlockedReadyIds_promoted now, ← hid]
          exact hfree
        place := (hplace t).mp hroom }⟩
  · rintro ⟨t, h⟩
    have hid : (promoted now b.tasks t).id = t.id := (gateSame_promoted now b.tasks t).id
    refine ⟨promoted now b.tasks t, ⟨List.mem_map_of_mem h.stored,
      (promoted_ready_iff now b.tasks t).mpr h.ready, hid.symm ▸ h.unleased, ?_⟩,
      (hplace t).mpr h.place⟩
    rw [hid]
    have hfree := h.free
    rw [← laneBlockedReadyIds_promoted now] at hfree
    exact hfree

end HermesCluster
