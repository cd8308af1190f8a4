import HermesCluster.State.ScheduleGuarantees
/-!
# The lane registry

Rows of the lanes table with the columns that a placement report writes. The
scheduler reads some of the columns: the board holds a projection of these rows,
and every operation here does to the board what the store's operation of that
name does.
-/

namespace HermesCluster

/-! ## Rows and operations -/

/-- A row of the lanes table, but for its timestamps. -/
structure LaneRow extends Lane where
  profile : String := ""
  role : String := "author"
  lastTaskId : String := ""
  deriving DecidableEq

instance : HasKey LaneRow String := ⟨fun row => row.laneKey⟩

@[simp] theorem LaneRow.key_eq (row : LaneRow) : HasKey.key row = row.laneKey := rfl

/-- The operations of a store that leave its lanes alone. -/
def StoreOp.SparesLanes : StoreOp → Prop
  | .recordLane _ | .deleteLane _ => False
  | _ => True

/-- The operations on lanes, and any other operation of the store. -/
inductive LaneOp where
  | getLane (laneKey : String)
  | recordLane (row : LaneRow)
  | store (op : StoreOp) (h : op.SparesLanes)

abbrev LaneOp.Res : LaneOp → Type
  | getLane _ => Option LaneRow
  | recordLane _ => Unit
  | store op _ => op.Res

/-! ## A store with its lanes -/

/-- The store's lanes are replaced. -/
def Backend.withLanes : (k : Backend) → Table Lane → k.Store → k.Store
  | .memory, lanes, s => { (s : ClusterState) with lanes := lanes }
  | .sql _, lanes, s => { (s : ClusterStore) with lanes := lanes }

/-- The lanes beside the rest of a store, whose own lanes table is not looked at. -/
structure LaneBoard (k : Backend) where
  lanes : Table LaneRow := Table.empty
  rest : k.Store

namespace LaneBoard

variable {k : Backend}

/-- The lanes as the board holds them. -/
def boardLanes (b : LaneBoard k) : Table Lane :=
  b.lanes.project LaneRow.toLane (fun _ => rfl)

/-- The store as the scheduler sees it. -/
def store (b : LaneBoard k) : k.Store :=
  k.withLanes b.boardLanes b.rest

/-- One operation at the time `now`. -/
def step [Unicode] (now : Nat) : (op : LaneOp) → LaneBoard k → op.Res × LaneBoard k
  | .getLane laneKey, b => (b.lanes.get? laneKey, b)
  | .recordLane row, b => ((), { b with lanes := b.lanes.upsert row })
  | .store op _, b => ((k.step now op b.store).1, { b with rest := (k.step now op b.store).2 })

/-- One operation at the next reading of the clock. -/
abbrev tick [Unicode] :
    (op : LaneOp) → Program.Timed (LaneBoard k) → op.Res × Program.Timed (LaneBoard k) :=
  Program.timed step

end LaneBoard

/-! ## The board under an operation -/

/-- The store's operation that a lane operation is on the board. -/
def LaneOp.onBoard : LaneOp → Option StoreOp
  | .getLane _ => none
  | .recordLane row => some (.recordLane row.toLane)
  | .store op _ => some op

section Refinement

variable [Unicode] {k : Backend} {now : Nat}

theorem ClusterState.lanes_step {op : StoreOp} (h : op.SparesLanes) (s : ClusterState) :
    (s.step now op).2.lanes = s.lanes := by
  cases op with
  | recordLane | deleteLane => exact h.elim
  | schedulePendingDetailed => exact (passOf_schedulePendingDetailed now s).lanes_eq
  | setTaskResult | setTaskStatus | unassignTask | unblockTask | setTaskBallot
  | setTaskCancelRequeue | unblockToReady | setDependencies | writeTaskRow | revokeLease =>
      dsimp only [step, setTaskResult, setTaskStatus, unassignTask, unblockTask, unblockTo,
        setTaskBallot, setTaskCancelRequeue, writeTask, unblockToReady, setDependencies,
        writeTaskRow, revokeLease]
      repeat' split
      all_goals rfl
  | requeueTask =>
      dsimp only [step, requeueTask, revokeLease]
      repeat' split
      all_goals rfl
  | handleSyncMessage =>
      dsimp only [step, handleSyncMessage, setTaskStatus]
      repeat' split
      all_goals rfl
  | _ => rfl

theorem ClusterStore.lanes_step (d : SqlDialect) {op : StoreOp} (h : op.SparesLanes)
    (s : ClusterStore) : (s.step d now op).2.lanes = s.lanes := by
  cases op with
  | recordLane | deleteLane => exact h.elim
  | schedulePendingDetailed => exact (passOf_schedulePendingDetailed d now s).lanes_eq
  | createTask | setTaskResult | setDependencies | handleSyncMessage =>
      dsimp only [step, createTask, setTaskResult, setDependencies, handleSyncMessage]
      repeat' split
      all_goals rfl
  | _ => rfl

theorem Backend.lanes_step (k : Backend) {op : StoreOp} (h : op.SparesLanes) (s : k.Store) :
    (k.board (k.step now op s).2).lanes = (k.board s).lanes := by
  cases k with
  | memory => exact ClusterState.lanes_step h s
  | sql d => exact ClusterStore.lanes_step d h s

omit [Unicode] in
@[simp] theorem Backend.lanes_withLanes (lanes : Table Lane) (s : k.Store) :
    (k.board (k.withLanes lanes s)).lanes = lanes := by
  cases k <;> rfl

omit [Unicode] in
theorem Backend.withLanes_self {lanes : Table Lane} {s : k.Store}
    (h : (k.board s).lanes = lanes) : k.withLanes lanes s = s := by
  subst h
  cases k <;> rfl

/-- Every lane operation is the store's operation of that name on the board, or a
read. -/
theorem LaneBoard.store_step (op : LaneOp) (b : LaneBoard k) :
    (b.step now op).2.store =
      match op.onBoard with
      | some boardOp => (k.step now boardOp b.store).2
      | none => b.store := by
  cases op with
  | getLane => rfl
  | recordLane row =>
      have hlanes : (b.step now (.recordLane row)).2.boardLanes =
          b.boardLanes.upsert row.toLane :=
        b.lanes.project_upsert row
      change k.withLanes _ b.rest = _
      rw [hlanes]
      cases k with
      | memory => rfl
      | sql d => rfl
  | store op h =>
      have hkept : (k.board (k.step now op b.store).2).lanes = b.boardLanes := by
        rw [k.lanes_step h]
        exact k.lanes_withLanes _ _
      exact k.withLanes_self hkept

end Refinement

end HermesCluster
