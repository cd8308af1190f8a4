import HermesCluster.State.ScheduleGuarantees
/-!
# Fair balance

A schedule pass over tasks that any node may run is a greedy placement on a least
loaded node, so it leaves the loads level; ties go to the node picked longest ago,
so it rotates among the nodes that are equally loaded.
-/

namespace HermesCluster

/-! ## The cursor -/

namespace FairScheduler

/-- A cursor that the scheduler's own code can leave: made new, then moved by
`mark_picked`. -/
def Used (fs : FairScheduler) : Prop :=
  ∃ picks : List String, fs = picks.foldl markPicked {}

/-- No pick is recorded at the current round or later. -/
def InTurn (fs : FairScheduler) : Prop :=
  ∀ nodeId, fs.lastPickedAt nodeId < fs.pickRound

theorem InTurn.markPicked {fs : FairScheduler} (h : fs.InTurn) (nodeId : String) :
    (fs.markPicked nodeId).InTurn := by
  intro other
  change Function.update fs.lastPickedAt nodeId fs.pickRound other <
    ((fs.pickRound + 1 : Nat) : Int)
  by_cases hself : other = nodeId
  · rw [hself, Function.update_self]
    omega
  · rw [Function.update_of_ne hself]
    have hlast := h other
    omega

theorem Used.inTurn {fs : FairScheduler} (h : fs.Used) : fs.InTurn := by
  obtain ⟨picks, rfl⟩ := h
  have hnew : InTurn {} := fun _ => Int.negSucc_lt_zero 0
  induction picks using List.reverseRecOn with
  | nil => exact hnew
  | append_singleton picks nodeId ih =>
      rw [List.foldl_append]
      exact ih.markPicked nodeId

theorem Used.markPicked {fs : FairScheduler} (h : fs.Used) (nodeId : String) :
    (fs.markPicked nodeId).Used := by
  obtain ⟨picks, rfl⟩ := h
  exact ⟨picks ++ [nodeId], by rw [List.foldl_append]; rfl⟩

end FairScheduler

section Cursor

variable [Unicode] {σ : Type}

theorem Pass.used_run {assign : Task → String → σ → Option σ} {online : List Node}
    {pin : Task → String} {p : Pass σ} (h : p.fair.Used) (readyTasks : List Task) :
    (Pass.run assign online pin p readyTasks).fair.Used := by
  induction readyTasks generalizing p with
  | nil => exact h
  | cons task readyTasks ih =>
      refine ih ?_
      unfold Pass.serve
      split
      · exact h
      · split
        · exact h
        · exact h.markPicked _

namespace ClusterState

omit [Unicode] in
theorem fair_writeTask (taskId : String) (f : Task → Task) (hf : Table.KeepsKey f)
    (s : ClusterState) : (s.writeTask taskId f hf).2.fair = s.fair := by
  unfold writeTask
  split <;> rfl

omit [Unicode] in
theorem fair_unblockTo (now : Nat) (status : TaskStatus) (taskId : String) (s : ClusterState) :
    (s.unblockTo now status taskId).2.fair = s.fair := by
  unfold unblockTo
  split
  · rfl
  · split <;> rfl

omit [Unicode] in
theorem fair_setTaskStatus (now : Nat) (taskId : String) (status : TaskStatus)
    (failReason : String) (s : ClusterState) :
    (s.setTaskStatus now taskId status failReason).2.fair = s.fair := by
  unfold setTaskStatus
  split
  · rfl
  · split <;> rfl

omit [Unicode] in
theorem fair_revokeLease (leaseId : Nat) (s : ClusterState) :
    (s.revokeLease leaseId).2.fair = s.fair := by
  unfold revokeLease
  split <;> rfl

omit [Unicode] in
theorem fair_handleSyncMessage (now : Nat) (msg : SyncMessage) (s : ClusterState) :
    (s.handleSyncMessage now msg).2.fair = s.fair := by
  have hwritten : ∀ (taskId : String) (status : TaskStatus),
      (setTaskStatus now taskId status "" { s with syncVersion := msg.version }).2.fair =
        s.fair := fun _ _ => fair_setTaskStatus _ _ _ _ _
  unfold handleSyncMessage
  split
  · rfl
  · dsimp only
    split
    · rfl
    · split
      · rfl
      · split
        · rfl
        · split
          · rfl
          · split
            · exact hwritten _ _
            · exact hwritten _ _

/-- Only a schedule pass moves the cursor. -/
theorem fair_step (now : Nat) (op : StoreOp) (s : ClusterState)
    (hop : op ≠ .schedulePendingDetailed) : (step now op s).2.fair = s.fair := by
  cases op with
  | schedulePendingDetailed => exact absurd rfl hop
  | setTaskResult taskId result =>
      dsimp only [step]
      unfold setTaskResult
      split
      · rfl
      · split
        · rfl
        · split <;> rfl
  | setTaskStatus => exact fair_setTaskStatus _ _ _ _ _
  | unassignTask taskId =>
      dsimp only [step]
      unfold unassignTask
      split
      · rfl
      · split
        · rfl
        · split <;> rfl
  | unblockTask => exact fair_unblockTo _ _ _ _
  | unblockToReady => exact fair_unblockTo _ _ _ _
  | setTaskBallot => exact fair_writeTask _ _ _ _
  | setTaskCancelRequeue => exact fair_writeTask _ _ _ _
  | setDependencies => exact fair_writeTask _ _ _ _
  | requeueTask taskId reason =>
      dsimp only [step]
      unfold requeueTask
      split
      · rfl
      · split
        · rfl
        · split
          · rfl
          · dsimp only
            split
            · rfl
            · exact fair_revokeLease _ _
  | handleSyncMessage => exact fair_handleSyncMessage _ _ _
  | writeTaskRow taskId assignedTo failReason =>
      dsimp only [step]
      unfold writeTaskRow
      split <;> rfl
  | revokeLease => exact fair_revokeLease _ _
  | _ => rfl

end ClusterState

namespace ClusterStore

omit [Unicode] in
theorem fair_createTask (now : Nat) (plan : TaskPlan) (s : ClusterStore) :
    (s.createTask now plan).2.fair = s.fair := by
  unfold createTask
  dsimp only
  split <;> rfl

omit [Unicode] in
theorem fair_handleSyncMessage (now : Nat) (msg : SyncMessage) (s : ClusterStore) :
    (s.handleSyncMessage now msg).2.fair = s.fair := by
  unfold handleSyncMessage
  split
  · rfl
  · dsimp only
    split
    · rfl
    · split
      · rfl
      · split <;> rfl

theorem fair_step (d : SqlDialect) (now : Nat) (op : StoreOp) (s : ClusterStore)
    (hop : op ≠ .schedulePendingDetailed) : (step d now op s).2.fair = s.fair := by
  cases op with
  | schedulePendingDetailed => exact absurd rfl hop
  | createTask => exact fair_createTask _ _ _
  | setTaskResult taskId result =>
      dsimp only [step]
      unfold setTaskResult
      split
      · rfl
      · split <;> rfl
  | setDependencies taskId dependsOn =>
      dsimp only [step]
      unfold setDependencies
      dsimp only
      split <;> rfl
  | handleSyncMessage => exact fair_handleSyncMessage _ _ _
  | _ => rfl

end ClusterStore

theorem ClusterState.used_schedulePendingDetailed (now : Nat) (s : ClusterState)
    (h : s.fair.Used) : (s.schedulePendingDetailed now).2.fair.Used := by
  unfold ClusterState.schedulePendingDetailed
  dsimp only
  split
  · exact h
  · exact Pass.used_run h _

theorem ClusterStore.used_schedulePendingDetailed (d : SqlDialect) (now : Nat) (s : ClusterStore)
    (h : s.fair.Used) : (s.schedulePendingDetailed d now).2.fair.Used := by
  unfold ClusterStore.schedulePendingDetailed
  dsimp only
  split
  · exact h
  · exact Pass.used_run h _

/-- A store that began with a new cursor has one that its code can leave. -/
theorem Backend.used_step (k : Backend) (now : Nat) (op : StoreOp) (s : k.Store)
    (h : (k.board s).fair.Used) : (k.board (k.step now op s).2).fair.Used := by
  by_cases hop : op = .schedulePendingDetailed
  · subst hop
    cases k with
    | memory => exact ClusterState.used_schedulePendingDetailed now s h
    | sql d => exact ClusterStore.used_schedulePendingDetailed d now s h
  · cases k with
    | memory =>
        have hsame : (ClusterState.step now op s).2.fair = s.fair :=
          ClusterState.fair_step now op s hop
        exact hsame.symm ▸ h
    | sql d =>
        have hsame : (ClusterStore.step d now op s).2.fair = s.fair :=
          ClusterStore.fair_step d now op s hop
        exact hsame.symm ▸ h

end Cursor

/-! ## The planner keeps level and rotates -/

section Planner

variable [Unicode] {onlineNodes : List Node}

/-- What the planner leaves aside has no smaller key. -/
theorem laneChooser_key (pin : Task → String)
    (hids : ∀ a ∈ onlineNodes, ∀ b ∈ onlineNodes, a.id = b.id → a = b) {fs : FairScheduler}
    {load : String → Nat} {task : Task} {nodeId other : String}
    (h : (laneChooser onlineNodes pin).choose fs load task = some nodeId)
    (hslot : Eligible onlineNodes (pin task) task.requires other)
    (hroom : HasRoom onlineNodes other (load other)) :
    ¬FairScheduler.KeyLt (load other, fs.lastPickedAt other)
      (load nodeId, fs.lastPickedAt nodeId) := by
  obtain ⟨node, hchoose, rfl⟩ := Option.map_eq_some_iff.mp h
  obtain ⟨m, hm, rfl, hcan, hpinned⟩ := hslot
  obtain ⟨m', hm', hid, hfree⟩ := hroom
  rw [hids m' hm' m hm hid] at hfree
  by_cases hpin : pin task = ""
  · have hplain : fs.choose task.requires onlineNodes load = some node := by
      rw [FairScheduler.choosePinned, if_pos hpin] at hchoose
      exact hchoose
    exact FairScheduler.choose_least hplain hm ⟨hcan, hfree⟩
  · -- the pin leaves one node to choose from
    obtain ⟨-, -, hnamed⟩ := choosePinned_some (Prod.ext hchoose rfl)
    obtain rfl := Option.some.inj ((hpinned hpin).symm.trans (hnamed hpin))
    unfold FairScheduler.KeyLt
    omega

theorem laneChooser_least (pin : Task → String)
    (hids : ∀ a ∈ onlineNodes, ∀ b ∈ onlineNodes, a.id = b.id → a = b) :
    (laneChooser onlineNodes pin).Least
      (fun task => Eligible onlineNodes (pin task) task.requires) (HasRoom onlineNodes) := by
  intro fs load task nodeId h other hslot hroom
  have hkey := laneChooser_key pin hids h hslot hroom
  unfold FairScheduler.KeyLt at hkey
  omega

theorem laneChooser_rotates (pin : Task → String)
    (hids : ∀ a ∈ onlineNodes, ∀ b ∈ onlineNodes, a.id = b.id → a = b) :
    (laneChooser onlineNodes pin).Rotates
      (fun task => Eligible onlineNodes (pin task) task.requires) (HasRoom onlineNodes)
      FairScheduler.InTurn FairScheduler.lastPickedAt where
  keeps _ nodeId h := h.markPicked nodeId
  newest fs nodeId other h := by
    change fs.lastPickedAt other < Function.update fs.lastPickedAt nodeId fs.pickRound nodeId
    rw [Function.update_self]
    exact h other
  others fs nodeId other hne := Function.update_of_ne hne _ _
  longest fs load task nodeId h other hslot hroom hequal := by
    have hkey := laneChooser_key pin hids h hslot hroom
    unfold FairScheduler.KeyLt at hkey
    omega

end Planner

/-! ## A pass -/

/-- The active tasks of a node once some assignments are written. -/
def activeWith (tasks : List Task) (out : List Assignment) (nodeId : String) : Nat :=
  activeOn tasks nodeId + out.countP (fun a => decide (a.nodeId = nodeId))

/-- A pass that returns `out` leaves the loads level and rotates. The empty node id
stands for no node in the count of active tasks. -/
structure FairPass (b : Board) (out : List Assignment) (b' : Board) : Prop where
  level : ∀ a ∈ out, a.nodeId ≠ "" → ∀ n ∈ onlineNodes b'.nodes, n.drained = false →
    nodeAtCapacity n (activeOn b'.tasks.rows n.id) = false →
      activeOn b'.tasks.rows a.nodeId ≤ activeOn b'.tasks.rows n.id + 1
  rotates : ∀ before first mid second after, out = before ++ first :: (mid ++ second :: after) →
    second.nodeId = first.nodeId → first.nodeId ≠ "" →
    ∀ n ∈ onlineNodes b.nodes, n.drained = false → n.id ≠ "" → n.id ≠ first.nodeId →
    ∀ done rest, first :: mid = done ++ rest →
      activeWith b.tasks.rows (before ++ done) n.id =
        activeWith b.tasks.rows (before ++ done) first.nodeId →
      nodeAtCapacity n (activeWith b.tasks.rows (before ++ done) n.id) = false →
        ∃ a ∈ mid, a.nodeId = n.id

section Pass

variable [Unicode] {now : Nat} {b b' : Board} {cs : List Task} {out : List Assignment}

/-- Any node in service is eligible for a candidate that is neither pinned nor
demanding. -/
theorem PassOf.eligible (h : PassOf now b cs out b')
    (hplain : ∀ t, IsCandidate now b t → lanePin b.lanes t = "" ∧ t.requires = []) {n : Node}
    (hn : n ∈ onlineNodes b.nodes) (hdrained : n.drained = false) :
    ∀ t ∈ cs, Eligible (onlineNodes b.nodes) (lanePin b.lanes t) t.requires n.id := by
  intro t ht
  obtain ⟨hpin, hrequires⟩ := hplain t ((h.served.mem_iff t).mp ht)
  refine ⟨n, hn, rfl, nodeCanRun_iff.mpr ⟨hdrained, ?_⟩, fun hne => absurd hpin hne⟩
  rw [hrequires]
  exact List.forall_mem_nil _

theorem PassOf.level (h : PassOf now b cs out b')
    (hplain : ∀ t, IsCandidate now b t → lanePin b.lanes t = "" ∧ t.requires = []) :
    ∀ a ∈ out, a.nodeId ≠ "" → ∀ n ∈ onlineNodes b'.nodes, n.drained = false →
      nodeAtCapacity n (activeOn b'.tasks.rows n.id) = false →
        activeOn b'.tasks.rows a.nodeId ≤ activeOn b'.tasks.rows n.id + 1 := by
  intro a ha hne n hn hdrained hfree
  rw [h.nodes_eq] at hn
  obtain ⟨p, hp, rfl⟩ := h.mem_out.mp ha
  have hroom : HasRoom (onlineNodes b.nodes) n.id
      (Chooser.loadAfter (startLoad b.tasks.rows) (placements b cs) n.id) := by
    refine hasRoom_antitone _ n.id _ _ (h.loadAfter_le n.id) ⟨n, hn, rfl, hfree⟩
  have hbalanced := Chooser.balanced_of_place
    (laneChooser_least (lanePin b.lanes) (eq_of_mem_onlineNodes b.nodes)) (hasRoom_antitone _)
    hp (h.eligible hplain hn hdrained) hroom
  calc activeOn b'.tasks.rows p.2
      = Chooser.loadAfter (startLoad b.tasks.rows) (placements b cs) p.2 :=
        (h.loadAfter_eq hne).symm
    _ ≤ Chooser.loadAfter (startLoad b.tasks.rows) (placements b cs) n.id + 1 := hbalanced
    _ ≤ activeOn b'.tasks.rows n.id + 1 := Nat.add_le_add_right (h.loadAfter_le n.id) 1

omit [Unicode] in
/-- The planner's load of a named node is its count of active tasks. -/
theorem loadAfter_eq_activeWith (tasks : List Task) (ps : List (Task × String)) {nodeId : String}
    (hne : nodeId ≠ "") : Chooser.loadAfter (startLoad tasks) ps nodeId =
      activeWith tasks (ps.map assignmentOf) nodeId := by
  rw [Chooser.loadAfter, activeWith, startLoad, if_neg hne, List.countP_map]
  rfl

theorem PassOf.rotates (h : PassOf now b cs out b') (hfair : b.fair.InTurn)
    (hplain : ∀ t, IsCandidate now b t → lanePin b.lanes t = "" ∧ t.requires = []) :
    ∀ before first mid second after, out = before ++ first :: (mid ++ second :: after) →
      second.nodeId = first.nodeId → first.nodeId ≠ "" →
      ∀ n ∈ onlineNodes b.nodes, n.drained = false → n.id ≠ "" → n.id ≠ first.nodeId →
      ∀ done rest, first :: mid = done ++ rest →
        activeWith b.tasks.rows (before ++ done) n.id =
          activeWith b.tasks.rows (before ++ done) first.nodeId →
        nodeAtCapacity n (activeWith b.tasks.rows (before ++ done) n.id) = false →
          ∃ a ∈ mid, a.nodeId = n.id := by
  intro before first mid second after hout hsame hnamed n hn hdrained hne hother done rest
    hmoment hequal hfree
  -- the assignments come from placements, piece by piece
  rw [h.out_eq, List.map_eq_append_iff] at hout
  obtain ⟨psBefore, psRest, hps, rfl, hrest⟩ := hout
  obtain ⟨p, psLater, rfl, rfl, hlater⟩ := List.map_eq_cons_iff.mp hrest
  obtain ⟨psMid, psEnd, rfl, rfl, hend⟩ := List.map_eq_append_iff.mp hlater
  obtain ⟨q, psAfter, rfl, rfl, rfl⟩ := List.map_eq_cons_iff.mp hend
  obtain ⟨psDone, psRest, hsplit, rfl, rfl⟩ := List.map_eq_append_iff.mp
    (show (p :: psMid).map assignmentOf = done ++ rest from hmoment)
  obtain ⟨t, nodeId⟩ := p
  obtain ⟨u, nodeId'⟩ := q
  obtain rfl : nodeId' = nodeId := hsame
  rw [← List.map_append, ← loadAfter_eq_activeWith _ _ hne] at hequal hfree
  rw [← loadAfter_eq_activeWith _ _ hnamed] at hequal
  obtain ⟨p', hp', hid⟩ := (laneChooser_rotates (lanePin b.lanes)
    (eq_of_mem_onlineNodes b.nodes)).between
    (laneChooser_least (lanePin b.lanes) (eq_of_mem_onlineNodes b.nodes)) hfair hother hps
    (h.eligible hplain hn hdrained) hsplit hequal ⟨n, hn, rfl, hfree⟩
  exact ⟨assignmentOf p', List.mem_map_of_mem hp', hid⟩

end Pass

/-! ## Every backend, every state -/

/-- One pass over a store state whose candidates any node may run is fair. -/
theorem schedulePendingDetailed_fair [Unicode] (k : Backend) (now : Nat) (s : k.Store)
    (hfair : (k.board s).fair.Used)
    (hplain : ∀ t, IsCandidate now (k.board s) t →
      lanePin (k.board s).lanes t = "" ∧ t.requires = []) :
    FairPass (k.board s) (k.step now .schedulePendingDetailed s).1
      (k.board (k.step now .schedulePendingDetailed s).2) := by
  obtain ⟨cs, hpass, -⟩ := k.passOf now s
  exact
    { level := hpass.level hplain
      rotates := hpass.rotates hfair.inTurn hplain }

section Examples

local instance asciiBalance : Unicode := Unicode.ascii

/-- Two nodes, one of them busy, and three tasks waiting. -/
def unevenNodes : ClusterState where
  nodes := ⟨[{ id := "m", maxConcurrent := 3 }, { id := "n" }], by decide⟩
  tasks := ⟨[{ id := "a", title := "a", status := .running, assignedTo := some "m",
               createdAt := 1, updatedAt := 1 },
             { id := "b", title := "b", status := .ready, createdAt := 2, updatedAt := 2 },
             { id := "c", title := "c", status := .ready, createdAt := 3, updatedAt := 3 },
             { id := "d", title := "d", status := .ready, createdAt := 4, updatedAt := 4 }],
    by decide⟩
  index_ok := indexOk_initial

theorem schedulePendingDetailed_fair_unevenNodes :
    FairPass unevenNodes.toBoard (ClusterState.step 5 .schedulePendingDetailed unevenNodes).1
      (ClusterState.step 5 .schedulePendingDetailed unevenNodes).2.toBoard :=
  schedulePendingDetailed_fair .memory 5 unevenNodes ⟨[], rfl⟩ (fun t ht => by
    have hplain : ∀ t ∈ unevenNodes.tasks.rows,
        lanePin unevenNodes.lanes t = "" ∧ t.requires = [] := by decide
    exact hplain t ht.1)

/-- A busy node without an id before an idle one, and a task waiting. -/
def unnamedBusy : ClusterState where
  nodes := ⟨[{ id := "" }, { id := "n" }], by decide⟩
  tasks := unnamedNode.tasks
  index_ok := indexOk_initial

/-- The count of active tasks skips an empty `assigned_to`, so the busy node is
taken for an idle one. -/
theorem unnamed_node_preferred :
    ¬∀ (s : ClusterState) (now : Nat),
      (∀ t ∈ s.tasks.rows, lanePin s.lanes t = "" ∧ t.requires = []) →
      ∀ a ∈ (ClusterState.step now .schedulePendingDetailed s).1, ∀ n ∈ onlineNodes s.nodes,
        n.drained = false →
        nodeAtCapacity n (activeOn
          (ClusterState.step now .schedulePendingDetailed s).2.tasks.rows n.id) = false →
        activeOn (ClusterState.step now .schedulePendingDetailed s).2.tasks.rows a.nodeId ≤
          activeOn (ClusterState.step now .schedulePendingDetailed s).2.tasks.rows n.id + 1 := by
  intro h
  have hmem : (⟨"b", "b", "", 3⟩ : Assignment) ∈
      (ClusterState.step 3 .schedulePendingDetailed unnamedBusy).1 := by decide
  have hle := h unnamedBusy 3 (by decide) _ hmem { id := "n" } (by decide) (by decide) (by decide)
  exact absurd hle (by decide)

end Examples

end HermesCluster
