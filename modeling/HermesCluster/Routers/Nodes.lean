import HermesCluster.Sync.FullState
/-!
# Calls on the node registry

Everything that reaches the node rows as one inductive type of calls: the node
manager's entry points, the router's own, the watchdog's check and the receiver
of full states, beside any other operation on the store. `Issues` lists the
operations each of them can ask for.
-/

namespace HermesCluster

open Program hiding pure bind
open NodeManager (query)

/-! ## The router's own writes -/

namespace NodesRouter

/-- What an endpoint does once it found its node. -/
def withNode (nodeId : String) (p : NodeApi Unit) : NodeApi Unit := do
  match ← query (.getNode nodeId) with
  | none => raise .nodeNotFound
  | some _ => p

/-- `trigger_pending_tasks` and `schedule_pending`. -/
def reschedule : NodeApi Unit := do
  let _ ← Sync.store .triggerPendingTasks trivial
  let _ ← Sync.store .schedulePendingDetailed trivial
  pure ()

/-- `PATCH /nodes/{id}/capabilities`. -/
def updateCapabilities (nodeId : String) (capabilities : List String) : NodeApi Unit :=
  withNode nodeId do
    query (.updateCapabilities nodeId capabilities)
    reschedule

/-- `PATCH /nodes/{id}/drain`. -/
def setDrained (nodeId : String) (drained : Bool) : NodeApi Unit :=
  withNode nodeId do
    query (.setDrained nodeId drained)
    if drained then pure () else reschedule

end NodesRouter

/-! ## Calls -/

inductive NodeCall where
  | join (args : JoinArgs)
  | leave (nodeId : String)
  | heartbeat (nodeId : String) (load : Rat) (report : HealthReport)
  | updateCapabilities (nodeId : String) (capabilities : List String)
  | setStatus (nodeId : String) (status : NodeStatus) (reason : String)
  | check
  | patchCapabilities (nodeId : String) (capabilities : List String)
  | setDrained (nodeId : String) (drained : Bool)
  | fullState (payload : FullState)
  | store (op : StoreOp) (h : op.SparesNodes)

/-- What a call runs; its result is left out. -/
def NodeCall.prog (cfg : NodeConfig) : NodeCall → NodeApi Unit
  | join args => NodeManager.join cfg args >>= fun _ => pure ()
  | leave nodeId => NodeManager.leave nodeId >>= fun _ => pure ()
  | heartbeat nodeId load report => NodeManager.sendHeartbeat cfg nodeId load report
  | updateCapabilities nodeId capabilities =>
      NodeManager.updateCapabilities nodeId capabilities >>= fun _ => pure ()
  | setStatus nodeId status reason =>
      NodeManager.setStatus nodeId status reason >>= fun _ => pure ()
  | check => NodeManager.check cfg >>= fun _ => pure ()
  | patchCapabilities nodeId capabilities => NodesRouter.updateCapabilities nodeId capabilities
  | setDrained nodeId drained => NodesRouter.setDrained nodeId drained
  | fullState payload => Sync.receiveFullState payload >>= fun _ => pure ()
  | store op h => Sync.store op h >>= fun _ => pure ()

/-- A call with the readings the clock gives to its operations. -/
structure TimedNodeCall where
  call : NodeCall
  clock : Nat → Nat

/-- A call begins: the clock runs through its readings. -/
def TimedNodeCall.enter {σ : Type} (c : TimedNodeCall) (w : Timed σ) : Timed σ :=
  { w with clock := c.clock }

/-- The operations that leave every row of the registry as it is. -/
def NodeOp.SparesRows : NodeOp → Prop
  | .registerNode _ | .updateHeartbeat _ _ _ _ | .updateCapabilities _ _ | .setDrained _ _
  | .updateMaxConcurrent _ _ | .updateInstanceToken _ _ | .setNodeStatus _ _ _ => False
  | _ => True

/-- The operations a call can ask for. -/
inductive NodeCall.Issues : NodeCall → NodeOp → Prop
  | idle {c : NodeCall} {op : NodeOp} (h : op.SparesRows) : Issues c op
  | beat {nodeId : String} {load load' : Rat} {report : HealthReport} {reason : String} :
      Issues (.heartbeat nodeId load report) (.updateHeartbeat nodeId load' report reason)
  | register {args : JoinArgs} {node : NodeRow} (hid : node.id = args.nodeId) :
      Issues (.join args) (.registerNode node)
  | rejoin {args : JoinArgs} {load : Rat} {reason : String} :
      Issues (.join args) (.updateHeartbeat args.nodeId load args.report reason)
  | rejoinCaps {args : JoinArgs} :
      Issues (.join args) (.updateCapabilities args.nodeId args.capabilities)
  | rejoinCapacity {args : JoinArgs} :
      Issues (.join args) (.updateMaxConcurrent args.nodeId args.maxConcurrent)
  | rejoinToken {args : JoinArgs} :
      Issues (.join args) (.updateInstanceToken args.nodeId args.instanceToken)
  | leave {nodeId : String} : Issues (.leave nodeId) (.setNodeStatus nodeId .offline "")
  | updateCaps {nodeId : String} {capabilities caps : List String} :
      Issues (.updateCapabilities nodeId capabilities) (.updateCapabilities nodeId caps)
  | setStatus {nodeId : String} {status : NodeStatus} {reason : String} :
      Issues (.setStatus nodeId status reason) (.setNodeStatus nodeId status reason)
  | judged {nodeId : String} {status : NodeStatus} {reason : String} :
      Issues .check (.setNodeStatus nodeId status reason)
  | patchCaps {nodeId : String} {capabilities : List String} :
      Issues (.patchCapabilities nodeId capabilities) (.updateCapabilities nodeId capabilities)
  | drain {nodeId : String} {drained : Bool} :
      Issues (.setDrained nodeId drained) (.setDrained nodeId drained)
  | received {payload : FullState} {node : NodeRow} (h : some node ∈ payload.nodes) :
      Issues (.fullState payload) (.registerNode node)

section Only

variable {α : Type} {S : NodeOp → Prop}

theorem only_query {op : NodeOp} {f : op.Res → NodeApi α} (hop : S op)
    (h : ∀ r, (f r).Only S) : (query op >>= f).Only S :=
  only_perform hop h

theorem only_getNode {nodeId : String} {f : Option NodeRow → NodeApi α}
    (hS : ∀ op : NodeOp, op.SparesRows → S op) (hnone : (f none).Only S)
    (hsome : ∀ n, (f (some n)).Only S) : (query (.getNode nodeId) >>= f).Only S := by
  refine only_query (hS _ trivial) (fun r => ?_)
  cases r with
  | none => exact hnone
  | some n => exact hsome n

theorem only_sendHeartbeat {cfg : NodeConfig} {nodeId : String} {load : Rat}
    {report : HealthReport} (hS : ∀ op : NodeOp, op.SparesRows → S op)
    (hbeat : ∀ load reason, S (.updateHeartbeat nodeId load report reason)) :
    (NodeManager.sendHeartbeat cfg nodeId load report).Only S :=
  only_getNode hS trivial (fun _ => ⟨hbeat _ _, fun _ => trivial⟩)

theorem only_syncStore {op : StoreOp} {h : op.SparesNodes} {f : op.Res → NodeApi α}
    (hS : ∀ op : NodeOp, op.SparesRows → S op) (hf : ∀ r, (f r).Only S) :
    (Sync.store op h >>= f).Only S :=
  only_query (hS (.store op h) trivial) hf

theorem only_rejoin {cfg : NodeConfig} {args : JoinArgs}
    (hS : ∀ op, NodeCall.Issues (.join args) op → S op) :
    (NodeManager.rejoin cfg args).Only S := by
  have hspares : ∀ op : NodeOp, op.SparesRows → S op := fun op h => hS op (.idle h)
  refine only_bind (only_sendHeartbeat hspares (fun _ _ => hS _ .rejoin)) (fun _ => ?_)
  refine only_bind (only_ite ⟨hS _ .rejoinCaps, fun _ => trivial⟩ trivial) (fun _ => ?_)
  refine only_bind (only_ite ⟨hS _ .rejoinCapacity, fun _ => trivial⟩ trivial) (fun _ => ?_)
  refine only_bind (only_ite ⟨hS _ .rejoinToken, fun _ => trivial⟩ trivial) (fun _ => ?_)
  exact ⟨hspares _ trivial, fun _ => trivial⟩

theorem only_receiveNode {payload : FullState} {entry : Option NodeRow}
    (hentry : entry ∈ payload.nodes)
    (hS : ∀ op, NodeCall.Issues (.fullState payload) op → S op) (reply : FullReply) :
    (Sync.receiveNode reply entry).Only S := by
  have hspares : ∀ op : NodeOp, op.SparesRows → S op := fun op h => hS op (.idle h)
  cases entry with
  | none => trivial
  | some node =>
      have hregister : S (.registerNode node) := hS _ (.received hentry)
      refine only_getNode hspares ⟨hregister, fun _ => trivial⟩ (fun existing => ?_)
      exact only_ite ⟨hregister, fun _ => trivial⟩ trivial

theorem only_receiveTask {entry : Option Task}
    (hS : ∀ op : NodeOp, op.SparesRows → S op) (reply : FullReply) :
    (Sync.receiveTask reply entry).Only S := by
  cases entry with
  | none => trivial
  | some task =>
      refine only_syncStore hS (fun existing => ?_)
      cases existing with
      | none =>
          refine only_syncStore hS (fun _ => ?_)
          exact only_ite (only_syncStore hS (fun _ => trivial)) trivial
      | some existing =>
          exact only_ite (only_syncStore hS (fun _ => trivial)) trivial

theorem only_checkNode {cfg : NodeConfig} {now : Nat} {aware : Bool} {n : NodeRow}
    {events : List (String × NodeStatus)} (hS : ∀ op : NodeOp, op.SparesRows → S op)
    (hset : S (.setNodeStatus n.id (cfg.verdict now n).1 (cfg.verdict now n).2)) :
    (NodeManager.checkNode cfg now aware events n).Only S := by
  refine only_ite trivial (only_ite (only_bind (only_getNode hS trivial (fun _ => ?_)) (fun _ => trivial)) trivial)
  exact only_ite trivial ⟨hset, fun _ => trivial⟩

/-- A call asks for nothing else. -/
theorem NodeCall.only (cfg : NodeConfig) (c : NodeCall) : (c.prog cfg).Only c.Issues := by
  have hspares : ∀ op : NodeOp, op.SparesRows → c.Issues op := fun _ h => .idle h
  cases c with
  | join args =>
      refine only_bind (only_ite trivial ?_) (fun _ => trivial)
      refine only_query (.idle trivial) (fun now => ?_)
      refine only_getNode hspares ?_ (fun existing => ?_)
      · exact ⟨.register rfl, fun _ => ⟨.idle trivial, fun _ => trivial⟩⟩
      · exact only_ite trivial (only_rejoin (fun _ h => h))
  | leave nodeId =>
      refine only_bind (only_getNode hspares trivial (fun _ => ?_)) (fun _ => trivial)
      exact ⟨.leave, fun _ => ⟨.idle trivial, fun _ => trivial⟩⟩
  | heartbeat => exact only_sendHeartbeat hspares (fun _ _ => .beat)
  | updateCapabilities nodeId capabilities =>
      refine only_bind (only_getNode hspares trivial (fun _ => ?_)) (fun _ => trivial)
      refine only_query (.idle trivial) (fun _ => only_ite trivial ?_)
      exact ⟨.updateCaps, fun _ => ⟨.idle trivial, fun _ => trivial⟩⟩
  | setStatus =>
      refine only_bind (only_getNode hspares trivial (fun _ => ?_)) (fun _ => trivial)
      exact only_ite trivial ⟨.setStatus, fun _ => trivial⟩
  | check =>
      refine only_bind (only_query (.idle trivial) (fun now => ?_)) (fun _ => trivial)
      refine only_query (.idle trivial) (fun nodes => only_query (.idle trivial) (fun aware => ?_))
      exact only_foldlM nodes (fun _ _ => only_checkNode hspares .judged) []
  | patchCapabilities =>
      refine only_getNode hspares trivial (fun _ => ?_)
      exact ⟨.patchCaps, fun _ => ⟨.idle trivial, fun _ => ⟨.idle trivial, fun _ => trivial⟩⟩⟩
  | setDrained =>
      refine only_getNode hspares trivial (fun _ => ?_)
      refine ⟨.drain, fun _ => only_ite trivial ?_⟩
      exact ⟨.idle trivial, fun _ => ⟨.idle trivial, fun _ => trivial⟩⟩
  | fullState payload =>
      refine only_bind (only_bind ?_ (fun reply => ?_)) (fun _ => trivial)
      · exact only_foldlM_of_mem payload.nodes
          (fun reply _ hentry => only_receiveNode hentry (fun _ h => h) reply) {}
      · exact only_foldlM payload.tasks (fun reply _ => only_receiveTask hspares reply) reply
  | store => exact ⟨.idle trivial, fun _ => trivial⟩

end Only

end HermesCluster
