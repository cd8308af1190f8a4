import HermesCluster.State.ClusterState
import HermesCluster.State.ClusterStore
/-!
# The store backends

The three stores behind one interface, each with the board it holds.
-/

namespace HermesCluster

inductive Backend where
  | memory
  | sql (d : SqlDialect)
  deriving DecidableEq, Repr

namespace Backend

abbrev Store : Backend → Type
  | memory => ClusterState
  | sql _ => ClusterStore

def empty : (k : Backend) → k.Store
  | memory => ClusterState.empty
  | sql _ => ClusterStore.empty

def board : (k : Backend) → k.Store → Board
  | memory, s => ClusterState.toBoard s
  | sql _, s => ClusterStore.toBoard s

/-- The rows from which `get_dependents` takes those that depend on an id. -/
def dependentRows : Backend → RowQuery
  | memory => .all
  | sql d => d.dependentRows

/-- Every query finds the rows of an id that JSON holds as it is. -/
theorem dependentRows_of_plain (k : Backend) {taskId : String} {dependsOn : List String}
    (hmem : taskId ∈ dependsOn) (hplain : ∀ c ∈ taskId.toList, JsonText.IsPlain c) :
    k.dependentRows taskId dependsOn = true := by
  match k with
  | memory | sql .sqlite => rfl
  | sql .postgres =>
      have htext : '"' :: (taskId.toList ++ ['"']) <:+: JsonText.strings dependsOn :=
        JsonText.string_of_plain hplain ▸ JsonText.string_infix hmem
      refine Like.accepts_between (fun hslash => ?_) htext
      rcases List.mem_cons.mp hslash with hquote | hrest
      · exact absurd hquote (by decide)
      · rcases List.mem_append.mp hrest with hid | hend
        · exact (hplain _ hid).2.2.2 rfl
        · exact absurd hend (by decide)

/-- One operation at the time `now`. -/
def step [Unicode] (k : Backend) (now : Nat) (op : StoreOp) : k.Store → op.Res × k.Store :=
  match k with
  | memory => ClusterState.step now op
  | sql d => ClusterStore.step d now op

@[simp] theorem board_memory (s : ClusterState) : memory.board s = s.toBoard := rfl

@[simp] theorem board_sql (d : SqlDialect) (s : ClusterStore) :
    (sql d).board s = s.toBoard := rfl

@[simp] theorem step_memory [Unicode] (now : Nat) (op : StoreOp) (s : ClusterState) :
    memory.step now op s = ClusterState.step now op s := rfl

@[simp] theorem step_sql [Unicode] (d : SqlDialect) (now : Nat) (op : StoreOp)
    (s : ClusterStore) : (sql d).step now op s = ClusterStore.step d now op s := rfl

theorem step_getAllNodes [Unicode] (k : Backend) (now : Nat) (s : k.Store) :
    k.step now .getAllNodes s = ((k.board s).nodes.rows, s) := by
  cases k <;> rfl

theorem step_getAllTasks [Unicode] (k : Backend) (now : Nat) (s : k.Store) :
    k.step now .getAllTasks s = ((k.board s).tasks.rows, s) := by
  cases k <;> rfl

end Backend

end HermesCluster
