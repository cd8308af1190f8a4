import HermesCluster.State.Backend
/-!
# What a schedule pass does

Every backend's `schedule_pending_detailed` writes the placements that the
planner makes, as a greedy chooser, for the candidates in the order they are
served. The facts about the loop are then those of greedy placement.
-/

namespace HermesCluster

/-- The active tasks of a node. -/
def activeOn (tasks : List Task) (nodeId : String) : Nat :=
  tasks.countP (fun t => decide (t.status.IsActive ∧ t.assignedTo = some nodeId))

/-- The load a pass starts from; the empty node id counts no task. -/
def startLoad (tasks : List Task) (nodeId : String) : Nat :=
  if nodeId = "" then 0 else activeOn tasks nodeId

theorem startLoad_le (tasks : List Task) (nodeId : String) :
    startLoad tasks nodeId ≤ activeOn tasks nodeId := by
  unfold startLoad
  split
  · exact Nat.zero_le _
  · exact Nat.le_refl _

/-- The tasks a pass serves: ready, without a live lease, let through by the
lane guard. -/
def IsCandidate (now : Nat) (b : Board) (t : Task) : Prop :=
  t ∈ b.tasks.rows ∧ t.status = .ready ∧ t.id ∉ leasedTaskIds now b.leases ∧
    t.id ∉ laneBlockedReadyIds b.tasks.rows

/-- The list a pass loops over. -/
structure Served (now : Nat) (b : Board) (cs : List Task) : Prop where
  mem_iff : ∀ t, t ∈ cs ↔ IsCandidate now b t
  nodup : cs.Nodup

/-- The write of one assignment. -/
def Board.place (now : Nat) (b : Board) (p : Task × String) : Board :=
  { b with
    tasks := b.tasks.modify p.1.id (Task.assignTo now p.2) (fun _ => rfl)
    leases := addLease now b.leases p.1.id p.2 schedulerAssignedTtl }

def Board.placeAll (now : Nat) (b : Board) (ps : List (Task × String)) : Board :=
  ps.foldl (Board.place now) b

/-- What the pass reports for a placement. -/
def assignmentOf (p : Task × String) : Assignment :=
  ⟨p.1.id, p.1.title, p.2, p.1.priority⟩

/-- The row a candidate is loaded from is ready. -/
def RowReady (b : Board) (t : Task) : Prop :=
  ∃ row, b.tasks.get? t.id = some row ∧ row.status = .ready

theorem get?_place_self (now : Nat) (b : Board) (p : Task × String) :
    (b.place now p).tasks.get? p.1.id =
      (b.tasks.get? p.1.id).map (Task.assignTo now p.2) :=
  b.tasks.get?_modify_self p.1.id (Task.assignTo now p.2) (fun _ => rfl)

theorem get?_place_ne {now : Nat} {b : Board} {p : Task × String} {taskId : String}
    (h : taskId ≠ p.1.id) : (b.place now p).tasks.get? taskId = b.tasks.get? taskId :=
  b.tasks.get?_modify_ne p.1.id (Task.assignTo now p.2) (fun _ => rfl) h

theorem rowReady_place {now : Nat} {b : Board} {p : Task × String} {t : Task}
    (h : RowReady b t) (hne : t.id ≠ p.1.id) : RowReady (b.place now p) t := by
  obtain ⟨row, hget, hready⟩ := h
  exact ⟨row, (get?_place_ne hne).trans hget, hready⟩

section Loop

variable [Unicode] {σ : Type}

/-- On a ready row, `assign` writes what `Board.place` writes. -/
def Places (now : Nat) (board : σ → Board) (assign : Task → String → σ → Option σ) : Prop :=
  ∀ t nodeId s, RowReady (board s) t →
    ∃ s', assign t nodeId s = some s' ∧ board s' = (board s).place now (t, nodeId)

/-- The loop is the greedy placement of the candidates. -/
theorem Pass.run_eq_place {now : Nat} {board : σ → Board}
    {assign : Task → String → σ → Option σ} (hassign : Places now board assign)
    (online : List Node) (pin : Task → String) {cs : List Task} {p : Pass σ}
    (hnodup : (cs.map Task.id).Nodup) (hready : ∀ t ∈ cs, RowReady (board p.store) t) :
    board (Pass.run assign online pin p cs).store =
        (board p.store).placeAll now
          ((laneChooser online pin).place cs p.fair p.activeCounts) ∧
      (Pass.run assign online pin p cs).newAssignments =
        p.newAssignments ++
          ((laneChooser online pin).place cs p.fair p.activeCounts).map assignmentOf := by
  induction cs generalizing p with
  | nil => exact ⟨rfl, (List.append_nil _).symm⟩
  | cons t cs ih =>
      rw [List.map_cons, List.nodup_cons] at hnodup
      obtain ⟨ht, hrest⟩ := hnodup
      have hrun : Pass.run assign online pin p (t :: cs) =
          Pass.run assign online pin (Pass.serve assign online pin p t) cs := rfl
      rw [hrun]
      cases hchoose :
          (p.fair.choosePinned t.requires online p.activeCounts (pin t)).1 with
      | none =>
          have hserve : Pass.serve assign online pin p t = p := by
            simp only [Pass.serve, hchoose]
          have hnone : (laneChooser online pin).choose p.fair p.activeCounts t = none := by
            simp only [laneChooser, hchoose, Option.map_none]
          rw [hserve, Chooser.place_cons_none hnone]
          exact ih hrest (fun u hu => hready u (List.mem_cons_of_mem _ hu))
      | some node =>
          obtain ⟨s', hwrite, hboard⟩ :=
            hassign t node.id p.store (hready t List.mem_cons_self)
          have hserve : Pass.serve assign online pin p t =
              { store := s'
                fair := p.fair.markPicked node.id
                activeCounts := Chooser.bump p.activeCounts node.id
                newAssignments := p.newAssignments ++ [assignmentOf (t, node.id)] } := by
            simp only [Pass.serve, hchoose, hwrite, assignmentOf]
          have hsome : (laneChooser online pin).choose p.fair p.activeCounts t =
              some node.id := by
            simp only [laneChooser, hchoose, Option.map_some]
          have hlater : ∀ u ∈ cs, RowReady (board s') u := by
            intro u hu
            rw [hboard]
            refine rowReady_place (hready u (List.mem_cons_of_mem _ hu)) (fun hid => ht ?_)
            rw [← hid]
            exact List.mem_map_of_mem hu
          rw [hserve, Chooser.place_cons_some hsome]
          obtain ⟨hstore, hout⟩ := ih (p := ⟨s', p.fair.markPicked node.id,
            Chooser.bump p.activeCounts node.id,
            p.newAssignments ++ [assignmentOf (t, node.id)]⟩) hrest hlater
          refine ⟨?_, ?_⟩
          · rw [hstore, hboard]
            rfl
          · rw [hout, List.map_cons, List.append_assoc]
            rfl

end Loop

/-! ## The rows after some placements -/

section PlaceAll

variable {now : Nat} {b : Board} {ps : List (Task × String)}

@[simp] theorem placeAll_nil : b.placeAll now [] = b := rfl

@[simp] theorem placeAll_cons (p : Task × String) :
    b.placeAll now (p :: ps) = (b.place now p).placeAll now ps := rfl

@[simp] theorem placeAll_nodes : (b.placeAll now ps).nodes = b.nodes := by
  induction ps generalizing b with
  | nil => rfl
  | cons p ps ih => rw [placeAll_cons, ih]; rfl

@[simp] theorem placeAll_lanes : (b.placeAll now ps).lanes = b.lanes := by
  induction ps generalizing b with
  | nil => rfl
  | cons p ps ih => rw [placeAll_cons, ih]; rfl

theorem get?_placeAll_of_not_placed {taskId : String}
    (h : taskId ∉ ps.map (fun p => p.1.id)) :
    (b.placeAll now ps).tasks.get? taskId = b.tasks.get? taskId := by
  induction ps generalizing b with
  | nil => rfl
  | cons p ps ih =>
      rw [List.map_cons, List.mem_cons, not_or] at h
      rw [placeAll_cons, ih h.2]
      exact get?_place_ne h.1

/-- A task that is placed runs on its node. -/
theorem get?_placeAll_of_placed {t : Task} {nodeId : String}
    (hnodup : (ps.map (fun p => p.1.id)).Nodup) (h : (t, nodeId) ∈ ps) :
    (b.placeAll now ps).tasks.get? t.id =
      (b.tasks.get? t.id).map (Task.assignTo now nodeId) := by
  induction ps generalizing b with
  | nil => cases h
  | cons p ps ih =>
      rw [List.map_cons, List.nodup_cons] at hnodup
      obtain ⟨hp, hrest⟩ := hnodup
      rw [placeAll_cons]
      rcases List.mem_cons.mp h with rfl | hmem
      · rw [get?_placeAll_of_not_placed hp]
        exact get?_place_self now b (t, nodeId)
      · rw [ih hrest hmem]
        have hne : t.id ≠ p.1.id := by
          intro hid
          apply hp
          rw [← hid]
          exact List.mem_map_of_mem (f := fun p => p.1.id) hmem
        rw [get?_place_ne hne]

/-- Each placement moves a ready row to a running one; a count of rows that
leaves the ready ones out grows by the placements it takes in. -/
theorem countP_placeAll {q : Task → Bool} (hq : ∀ t, t.status = .ready → q t = false)
    (hnodup : (ps.map (fun p => p.1.id)).Nodup)
    (hrows : ∀ p ∈ ps, b.tasks.get? p.1.id = some p.1 ∧ p.1.status = .ready) :
    (b.placeAll now ps).tasks.rows.countP q =
      b.tasks.rows.countP q + ps.countP (fun p => q (p.1.assignTo now p.2)) := by
  induction ps generalizing b with
  | nil => rfl
  | cons p ps ih =>
      rw [List.map_cons, List.nodup_cons] at hnodup
      obtain ⟨hp, hrest⟩ := hnodup
      obtain ⟨hget, hready⟩ := hrows p List.mem_cons_self
      have hlater : ∀ p' ∈ ps,
          (b.place now p).tasks.get? p'.1.id = some p'.1 ∧ p'.1.status = .ready := by
        intro p' hp'
        obtain ⟨hget', hready'⟩ := hrows p' (List.mem_cons_of_mem _ hp')
        refine ⟨(get?_place_ne (fun hid => hp ?_)).trans hget', hready'⟩
        rw [← hid]
        exact List.mem_map_of_mem (f := fun p => p.1.id) hp'
      have hone : (b.place now p).tasks.rows.countP q + (q p.1).toNat =
          b.tasks.rows.countP q + (q (p.1.assignTo now p.2)).toNat :=
        Table.countP_modify hget (Task.assignTo now p.2) (fun _ => rfl) q
      rw [hq p.1 hready, Bool.toNat_false] at hone
      rw [placeAll_cons, ih hrest hlater, List.countP_cons]
      cases hw : q (p.1.assignTo now p.2) <;> rw [hw] at hone <;> simp at hone ⊢ <;> omega

theorem leases_placeAll (now : Nat) (b : Board) (ps : List (Task × String)) :
    ∃ added : List Lease,
      (b.placeAll now ps).leases.rows = b.leases.rows ++ added ∧
        added.map (fun l => (l.taskId, l.nodeId)) = ps.map (fun p => (p.1.id, p.2)) ∧
        ∀ l ∈ added, l.IsLive now := by
  induction ps generalizing b with
  | nil => exact ⟨[], (List.append_nil _).symm, rfl, by simp⟩
  | cons p ps ih =>
      obtain ⟨added, hrows, hpairs, hlive⟩ := ih (b.place now p)
      have hplace : (b.place now p).leases.rows =
          b.leases.rows ++ [newLease now b.leases p.1.id p.2 schedulerAssignedTtl] := rfl
      refine ⟨newLease now b.leases p.1.id p.2 schedulerAssignedTtl :: added, ?_, ?_, ?_⟩
      · rw [placeAll_cons, hrows, hplace, List.append_assoc, List.singleton_append]
      · rw [List.map_cons, hpairs, List.map_cons]
        rfl
      · intro l hl
        rcases List.mem_cons.mp hl with rfl | hmem
        · exact ⟨rfl, Nat.lt_add_of_pos_right (by decide)⟩
        · exact hlive l hmem

end PlaceAll

/-! ## Every backend makes such a pass -/

/-- The placements of a pass over the candidates `cs`. -/
def placements [Unicode] (b : Board) (cs : List Task) : List (Task × String) :=
  (laneChooser (onlineNodes b.nodes) (lanePin b.lanes)).place cs b.fair
    (startLoad b.tasks.rows)

/-- The pass from `b` to `b'` with the assignments `out` that serves `cs`. -/
structure PassOf [Unicode] (now : Nat) (b : Board) (cs : List Task)
    (out : List Assignment) (b' : Board) : Prop where
  served : Served now b cs
  out_eq : out = (placements b cs).map assignmentOf
  tasks_eq : b'.tasks = (b.placeAll now (placements b cs)).tasks
  leases_eq : b'.leases = (b.placeAll now (placements b cs)).leases
  nodes_eq : b'.nodes = b.nodes
  lanes_eq : b'.lanes = b.lanes

theorem place_nil_nodes [Unicode] (pin : Task → String) (cs : List Task)
    (f : FairScheduler) (load : String → Nat) :
    (laneChooser [] pin).place cs f load = [] := by
  induction cs with
  | nil => rfl
  | cons t cs ih =>
      have hnone : (laneChooser [] pin).choose f load t = none := by
        by_cases hpin : pin t = "" <;>
          simp [laneChooser, FairScheduler.choosePinned, FairScheduler.choose, pinnedNode, hpin]
      rw [Chooser.place_cons_none hnone, ih]

instance (shown : Nat → Int) : Std.Total (ServedFirst shown) := ⟨fun a b => by
  unfold ServedFirst
  omega⟩

instance (shown : Nat → Int) : IsTrans Task (ServedFirst shown) := ⟨fun a b c hab hbc => by
  unfold ServedFirst at *
  omega⟩

section Served

variable {now : Nat} {b : Board} {cs : List Task}

theorem Served.rowReady (h : Served now b cs) :
    ∀ t ∈ cs, b.tasks.get? t.id = some t ∧ t.status = .ready := by
  intro t ht
  obtain ⟨hmem, hready, -⟩ := (h.mem_iff t).mp ht
  exact ⟨Table.get?_of_mem hmem, hready⟩

theorem Served.nodup_ids (h : Served now b cs) : (cs.map Task.id).Nodup := by
  refine (List.nodup_map_iff_inj_on h.nodup).mpr (fun t ht u hu hid => ?_)
  exact Table.eq_of_mem_of_key_eq ((h.mem_iff t).mp ht).1 ((h.mem_iff u).mp hu).1 hid

end Served

/-- A backend's loop makes a pass; with no node online it has nothing to do. -/
theorem passOf_run [Unicode] {σ : Type} {now : Nat} {board : σ → Board}
    {assign : Task → String → σ → Option σ} (hassign : Places now board assign) {s : σ}
    {cs : List Task} (hserved : Served now (board s) cs) {pass : Pass σ}
    (hpass : pass = Pass.run assign (onlineNodes (board s).nodes) (lanePin (board s).lanes)
      { store := s, fair := (board s).fair, activeCounts := startLoad (board s).tasks.rows }
      cs)
    (fair : FairScheduler) :
    PassOf now (board s) cs pass.newAssignments { board pass.store with fair := fair } := by
  obtain ⟨hboard, hout⟩ := Pass.run_eq_place hassign (onlineNodes (board s).nodes)
    (lanePin (board s).lanes)
    (p := { store := s, fair := (board s).fair,
            activeCounts := startLoad (board s).tasks.rows })
    hserved.nodup_ids (fun t ht => ⟨t, hserved.rowReady t ht⟩)
  rw [← hpass] at hboard hout
  exact
    { served := hserved
      out_eq := hout
      tasks_eq := (congrArg Board.tasks hboard :)
      leases_eq := (congrArg Board.leases hboard :)
      nodes_eq := (congrArg Board.nodes hboard).trans placeAll_nodes
      lanes_eq := (congrArg Board.lanes hboard).trans placeAll_lanes }

theorem passOf_of_offline [Unicode] {now : Nat} {b : Board} {cs : List Task}
    (hserved : Served now b cs) (honline : onlineNodes b.nodes = []) :
    PassOf now b cs [] b := by
  have hnone : placements b cs = [] := by
    rw [placements, honline]
    exact place_nil_nodes _ _ _ _
  constructor <;> simp [hnone, hserved]

namespace ClusterState

theorem served_readyTasks (now : Nat) (s : ClusterState) :
    Served now s.toBoard (s.readyTasks now) where
  mem_iff t := by simp [readyTasks, IsCandidate]
  nodup := (List.perm_insertionSort _ _).nodup_iff.mpr (s.tasks.rows_nodup.filter _)

theorem sorted_readyTasks (now : Nat) (s : ClusterState) :
    (s.readyTasks now).Pairwise (ServedFirst s.timestamp) :=
  List.pairwise_insertionSort _ _

theorem activeCounts_eq (tasks : List Task) : activeCounts tasks = startLoad tasks := by
  suffices h : ∀ counts : String → Nat,
      tasks.foldl countTask counts = fun n => counts n + startLoad tasks n by
    rw [activeCounts, h]
    simp
  induction tasks with
  | nil =>
      intro counts
      simp [startLoad, activeOn]
  | cons t tasks ih =>
      intro counts
      rw [List.foldl_cons, ih]
      funext n
      rw [startLoad, startLoad, activeOn, activeOn, List.countP_cons, countTask]
      cases hto : t.assignedTo with
      | none => simp
      | some nodeId =>
          by_cases hcount : t.status.IsActive ∧ nodeId ≠ ""
          · by_cases hn : n = nodeId
            · subst hn
              simp [hcount.1, hcount.2, Chooser.bump]
              omega
            · simp [hcount.1, hcount.2, Chooser.bump, hn, Ne.symm hn]
          · by_cases hn : n = ""
            · simp [hcount, hn]
            · have hno : ¬(t.status.IsActive ∧ nodeId = n) := by
                rintro ⟨hactive, rfl⟩
                exact hcount ⟨hactive, hn⟩
              simp [hcount, hn, hno]

theorem places_assign (now : Nat) : Places now ClusterState.toBoard (assign now) := by
  intro t nodeId s _
  exact ⟨_, rfl, rfl⟩

variable [Unicode]

theorem passOf_schedulePendingDetailed (now : Nat) (s : ClusterState) :
    PassOf now s.toBoard (s.readyTasks now) (s.schedulePendingDetailed now).1
      (s.schedulePendingDetailed now).2.toBoard := by
  have hserved := served_readyTasks now s
  by_cases honline : onlineNodes s.nodes = []
  · simp only [schedulePendingDetailed, if_pos honline]
    exact passOf_of_offline hserved honline
  · simp only [schedulePendingDetailed, if_neg honline, activeCounts_eq]
    exact passOf_run (places_assign now) hserved rfl _

end ClusterState

namespace ClusterStore

theorem served_readyTasks (now : Nat) (s : ClusterStore) :
    Served now s.toBoard (s.readyTasks now) where
  mem_iff t := by simp [readyTasks, IsCandidate, and_assoc]
  nodup := ((List.perm_insertionSort _ _).nodup_iff.mpr
    (s.tasks.rows_nodup.filter _)).filter _

theorem sorted_readyTasks (now : Nat) (s : ClusterStore) :
    (s.readyTasks now).Pairwise (ServedFirst (fun time => time)) :=
  (List.pairwise_insertionSort _ _).filter _

theorem activeCounts_eq (tasks : List Task) : activeCounts tasks = startLoad tasks := rfl

/-- The status guard of PostgreSQL lets a ready row through, and only that row
has the id. -/
theorem places_assign (d : SqlDialect) (now : Nat) :
    Places now ClusterStore.toBoard (assign d now) := by
  intro t nodeId s ⟨row, hget, hready⟩
  have hhit : ¬(d = .postgres ∧ s.tasks.countWhere
      (fun u => u.id = t.id ∧ (d = .postgres → u.status = .ready)) = 0) := by
    rintro ⟨-, hzero⟩
    have hpos := (Table.countWhere_key_pos s.tasks t.id
      (fun u => d = .postgres → u.status = .ready)).mpr ⟨row, hget, fun _ => hready⟩
    exact absurd hzero (Nat.ne_of_gt hpos)
  have htable : s.tasks.updateWhere
      (fun u => u.id = t.id ∧ (d = .postgres → u.status = .ready))
      (Task.assignTo now nodeId) (fun _ => rfl) =
      s.tasks.modify t.id (Task.assignTo now nodeId) (fun _ => rfl) :=
    Table.updateWhere_key_and hget (p := fun u => d = .postgres → u.status = .ready)
      (fun _ => hready) _ _
  simp only [assign, updateTasks, if_neg hhit, htable]
  exact ⟨_, rfl, rfl⟩

variable [Unicode]

theorem passOf_schedulePendingDetailed (d : SqlDialect) (now : Nat) (s : ClusterStore) :
    PassOf now s.toBoard (s.readyTasks now) (s.schedulePendingDetailed d now).1
      (s.schedulePendingDetailed d now).2.toBoard := by
  have hserved := served_readyTasks now s
  by_cases honline : onlineNodes s.nodes = []
  · simp only [schedulePendingDetailed, if_pos honline]
    exact passOf_of_offline hserved honline
  · simp only [schedulePendingDetailed, if_neg honline, activeCounts_eq]
    exact passOf_run (places_assign d now) hserved rfl _

end ClusterStore

/-- How a store reads the times that it sorts by: in memory by its local clock, in SQL as
they are. -/
def Backend.shown : (k : Backend) → k.Store → Nat → Int
  | memory, s => ClusterState.timestamp s
  | sql _, _ => fun time => time

/-- Every backend makes a pass over the candidates of its board, in its order. -/
theorem Backend.passOf [Unicode] (k : Backend) (now : Nat) (s : k.Store) :
    ∃ cs, PassOf now (k.board s) cs (k.step now .schedulePendingDetailed s).1
        (k.board (k.step now .schedulePendingDetailed s).2) ∧
      cs.Pairwise (ServedFirst (k.shown s)) := by
  cases k with
  | memory =>
      exact ⟨_, ClusterState.passOf_schedulePendingDetailed now s,
        ClusterState.sorted_readyTasks now s⟩
  | sql d =>
      exact ⟨_, ClusterStore.passOf_schedulePendingDetailed d now s,
        ClusterStore.sorted_readyTasks now s⟩

end HermesCluster
