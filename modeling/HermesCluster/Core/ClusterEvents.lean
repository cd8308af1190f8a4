import HermesCluster.Lease.LeaseManager
import HermesCluster.State.Promotion
/-!
# The core's callbacks

`ClusterCore` hangs two callbacks on the store, for a node that registers and for
capabilities that change. Each promotes what is pending and then means to schedule,
but takes the length of a count first; the store swallows what a callback raises.
-/

namespace HermesCluster

open Program hiding pure bind

namespace ClusterCore

/-! ## The callbacks -/

/-- Whether the store answers a call that its own callback makes. On Postgres such
a call waits for the thread that runs the callback, and times out. -/
def answersCallbacks : Backend → Bool
  | .sql .postgres => false
  | _ => true

/-- A call of a callback on the store. -/
def callStore (k : Backend) (op : StoreOp) : Api op.Res :=
  if answersCallbacks k = true then store op else raise (.exception "TimeoutError")

/-- `len(promoted)`, where `promoted` is a count. -/
def lenPromoted (_promoted : Nat) : Api Nat :=
  raise (.exception "object of type 'int' has no len()")

/-- What both callbacks do: the log line comes before the schedule pass. -/
def promoteThenSchedule (k : Backend) : Api Unit := do
  let promoted ← callStore k .triggerPendingTasks
  if promoted ≠ 0 then
    let _ ← lenPromoted promoted
    let _ ← callStore k .schedulePendingDetailed
    pure ()
  else pure ()

/-- `_on_node_online`. -/
def onNodeOnline (k : Backend) : Api Unit :=
  promoteThenSchedule k

/-- `_on_capability_change`. -/
def onCapabilityChange (k : Backend) : Api Unit :=
  promoteThenSchedule k

/-- `try: callback(…) except Exception: pass`. -/
def swallow {α : Type} : Api α → Api Unit
  | .pure _ => .pure ()
  | .raise _ => .pure ()
  | .call op next => .call op (fun r => swallow (next r))

/-- `register_node`. -/
def registerNode (k : Backend) (node : Node) : Api Unit := do
  store (.registerNode node)
  swallow (onNodeOnline k)

/-- `update_capabilities`: SQLite calls back for any node id, the other stores for
one they know. -/
def updateCapabilities (k : Backend) (nodeId : String) (caps : List String) : Api Unit := do
  let nodes ← store .getAllNodes
  store (.updateCapabilities nodeId caps)
  if k = .sql .sqlite ∨ nodeId ∈ nodes.map Node.id then swallow (onCapabilityChange k)
  else pure ()

/-! ## The events -/

/-- What fires a callback. -/
inductive Event where
  | registerNode (node : Node)
  | updateCapabilities (nodeId : String) (caps : List String)

namespace Event

def prog (k : Backend) : Event → Api Unit
  | registerNode node => ClusterCore.registerNode k node
  | updateCapabilities nodeId caps => ClusterCore.updateCapabilities k nodeId caps

/-- The write of an event. -/
def op : Event → StoreOp
  | registerNode node => .registerNode node
  | updateCapabilities nodeId caps => .updateCapabilities nodeId caps

/-- The nodes with the one that registers, or whose capabilities change. Memory
keeps a drain flag besides the one that is registered; the SQL stores keep the
stored one. -/
def fleet (k : Backend) (nodes : Table Node) : Event → Table Node
  | registerNode node =>
      let stored := (nodes.get? node.id).any Node.drained
      nodes.upsert { node with drained := if k = .memory then node.drained || stored else stored }
  | updateCapabilities nodeId caps =>
      nodes.modify nodeId (Node.withCapabilities caps) Node.keepsKey_withCapabilities

/-- The callback runs, and the store answers it. -/
def Wakes (k : Backend) (nodes : Table Node) : Event → Prop
  | registerNode _ => answersCallbacks k = true
  | updateCapabilities nodeId _ =>
      answersCallbacks k = true ∧ (k = .sql .sqlite ∨ nodeId ∈ nodes.rows.map Node.id)

end Event

section Runs

variable [Unicode] {k : Backend}

/-- No task is left that a promotion pass would promote or a schedule pass would
assign. -/
def NothingLeft (k : Backend) (now : Nat) (s : k.Store) : Prop :=
  ¬LeftToPromote k now s ∧ ¬LeftToSchedule k now s

/-- No task waits for the event: with the nodes as they are after it, none is
servable, counting those as ready that can be promoted; and where the callback does
not run, none can be promoted. -/
def NothingWaits (k : Backend) (now : Nat) (b : Board) (e : Event) : Prop :=
  (e.Wakes k b.nodes ∨ ∀ t ∈ b.tasks.rows, ¬Promotable b.tasks t) ∧
    ∀ t, ¬Servable now { b with nodes := e.fleet k b.nodes } t

theorem board_event (e : Event) (now : Nat) (s : k.Store) :
    k.board (k.step now e.op s).2 =
      { k.board s with nodes := e.fleet k (k.board s).nodes } := by
  cases e with
  | registerNode node => cases k <;> rfl
  | updateCapabilities nodeId caps => cases k <;> rfl

/-- What the callbacks do to the store: one promotion pass, if they are answered. -/
theorem state_callback (w : Timed k.Store) :
    ((swallow (promoteThenSchedule k)).run k.tick w).2.state =
      if answersCallbacks k = true then (k.step (w.clock 0) .triggerPendingTasks w.state).2
      else w.state := by
  unfold promoteThenSchedule callStore
  split
  · simp only [store, perform_bind]
    unfold swallow
    rw [run]
    dsimp only
    split <;> rfl
  · rfl

/-- What an event leaves. -/
theorem state_event (e : Event) (w : Timed k.Store) :
    ∃ now later, (e.Wakes k (k.board w.state).nodes ∧ ((e.prog k).run k.tick w).2.state =
        (k.step later .triggerPendingTasks (k.step now e.op w.state).2).2) ∨
      (¬e.Wakes k (k.board w.state).nodes ∧
        ((e.prog k).run k.tick w).2.state = (k.step now e.op w.state).2) := by
  cases e with
  | registerNode node =>
      refine ⟨w.clock 0, w.clock 1, ?_⟩
      have hrun : ((Event.prog k (.registerNode node)).run k.tick w).2.state =
          if answersCallbacks k = true then
            (k.step (w.clock 1) .triggerPendingTasks
              (k.step (w.clock 0) (.registerNode node) w.state).2).2
          else (k.step (w.clock 0) (.registerNode node) w.state).2 :=
        state_callback ⟨_, fun i => w.clock (i + 1)⟩
      by_cases hanswers : answersCallbacks k = true
      · exact .inl ⟨hanswers, hrun.trans (if_pos hanswers)⟩
      · exact .inr ⟨hanswers, hrun.trans (if_neg hanswers)⟩
  | updateCapabilities nodeId caps =>
      refine ⟨w.clock 1, w.clock 2, ?_⟩
      let written := (k.step (w.clock 1) (.updateCapabilities nodeId caps) w.state).2
      have hprog : ((Event.prog k (.updateCapabilities nodeId caps)).run k.tick w).2 =
          ((if k = .sql .sqlite ∨ nodeId ∈ (k.board w.state).nodes.rows.map Node.id then
              swallow (onCapabilityChange k)
            else pure ()).run k.tick ⟨written, fun i => w.clock (i + 2)⟩).2 := by
        unfold Event.prog ClusterCore.updateCapabilities
        simp only [store, perform_bind, run, timed, Backend.step_getAllNodes]
        rfl
      rw [hprog]
      by_cases hcalls : k = .sql .sqlite ∨ nodeId ∈ (k.board w.state).nodes.rows.map Node.id
      · rw [if_pos hcalls]
        have hrun := state_callback (k := k) ⟨written, fun i => w.clock (i + 2)⟩
        by_cases hanswers : answersCallbacks k = true
        · exact .inl ⟨⟨hanswers, hcalls⟩, hrun.trans (if_pos hanswers)⟩
        · exact .inr ⟨fun h => hanswers h.1, hrun.trans (if_neg hanswers)⟩
      · rw [if_neg hcalls]
        exact .inr ⟨fun h => hcalls h.2, rfl⟩

/-- Without a promotion pass, what is servable is what a schedule pass finds. -/
theorem exists_servable_iff {now : Nat} {b : Board}
    (hnone : ∀ t ∈ b.tasks.rows, ¬Promotable b.tasks t) :
    (∃ t, Servable now b t) ↔
      ∃ t, IsCandidate now b t ∧ HasPlace b.nodes b.lanes b.tasks.rows t := by
  have hreadied : readied b.tasks = b.tasks.rows := by
    unfold readied
    conv_rhs => rw [← List.map_id b.tasks.rows]
    exact List.map_congr_left (fun t ht => if_neg (hnone t ht))
  refine exists_congr (fun t => ?_)
  constructor
  · intro h
    have hready : t.status = .ready := h.ready.resolve_right (hnone t h.stored)
    exact ⟨⟨h.stored, hready, h.unleased, hreadied ▸ h.free⟩, h.place⟩
  · rintro ⟨⟨hstored, hready, hleased, hfree⟩, hplace⟩
    exact ⟨hstored, .inl hready, hleased, hreadied.symm ▸ hfree, hplace⟩

end Runs

end ClusterCore

/-- An event schedules the work that it unblocks exactly when none waits. -/
theorem events_schedule_iff [Unicode] (k : Backend) (now : Nat) (e : ClusterCore.Event)
    (w : Timed k.Store) :
    ClusterCore.NothingLeft k now ((e.prog k).run k.tick w).2.state ↔
      ClusterCore.NothingWaits k now (k.board w.state) e := by
  obtain ⟨first, later, ⟨hwakes, hstate⟩ | ⟨hidle, hstate⟩⟩ := ClusterCore.state_event e w
  · unfold ClusterCore.NothingLeft ClusterCore.NothingWaits
    rw [hstate, leftToSchedule_after_promotion, ClusterCore.board_event, not_exists]
    exact ⟨fun h => ⟨.inl hwakes, h.2⟩, fun h => ⟨not_leftToPromote _ _ _ _, h.2⟩⟩
  · unfold ClusterCore.NothingLeft ClusterCore.NothingWaits
    rw [hstate, leftToPromote_iff, leftToSchedule_iff, ClusterCore.board_event,
      or_iff_right hidle]
    have hnone : (¬∃ t ∈ (k.board w.state).tasks.rows, Promotable (k.board w.state).tasks t) ↔
        ∀ t ∈ (k.board w.state).tasks.rows, ¬Promotable (k.board w.state).tasks t := by
      simp only [not_exists, not_and]
    refine (and_congr_left' hnone).trans (and_congr_right (fun hnothing => ?_))
    rw [← not_exists]
    exact (not_congr (ClusterCore.exists_servable_iff
      (b := { k.board w.state with nodes := e.fleet k (k.board w.state).nodes }) hnothing)).symm

section ParkedWork

local instance asciiParked : Unicode := Unicode.ascii

/-- A pending task with nothing to wait for. -/
def onePending : Timed ClusterState where
  state := { ClusterState.empty with
    tasks := Table.empty.upsert { id := "task_1", title := "t", createdAt := 0, updatedAt := 0 } }
  clock := fun _ => 0

/-- The first node registers: the task is promoted, and stays ready, although a
schedule pass would give it to the node. -/
theorem registered_node_stays_idle :
    let after := ((ClusterCore.Event.registerNode { id := "node_a" }).prog .memory).run
      (Backend.tick .memory) onePending
    (after.2.state.tasks.get? "task_1").map Task.status = some .ready ∧
      ¬ClusterCore.NothingLeft .memory 0 after.2.state := by
  refine ⟨by decide +kernel, fun h => h.2 ?_⟩
  have hassigned : (ClusterState.step 0 .schedulePendingDetailed
      (((ClusterCore.Event.registerNode { id := "node_a" }).prog .memory).run
        (Backend.tick .memory) onePending).2.state).1 = [⟨"task_1", "t", "node_a", 3⟩] := by
    decide +kernel
  exact fun hnone => List.cons_ne_nil _ _ (hassigned.symm.trans hnone)

end ParkedWork

end HermesCluster
