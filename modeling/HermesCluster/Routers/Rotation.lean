import HermesCluster.Routers.Nodes
import HermesCluster.Core.Watchdog
/-!
# Nodes out of rotation

What keeps the scheduler from a node: the operator's drain and the status. A
drain holds through every run of calls that does not undo it. A status does not:
a node that left is online again after the first check that finds its last
heartbeat fresh.
-/

namespace HermesCluster

open Program hiding pure bind
open NodeManager (query)

section Rotation

variable [Unicode] {k : Backend}

/-- The cluster after some calls, each run to its end. -/
def Cluster.runCalls (cfg : NodeConfig) :
    List TimedNodeCall → Timed (Cluster k) → Timed (Cluster k) :=
  runAll Cluster.tick TimedNodeCall.enter (fun c => c.call.prog cfg)

/-- `P` holds of the cluster before every operation of the calls, and at their end. -/
def Cluster.Throughout (cfg : NodeConfig) (P : Cluster k → Prop) (cs : List TimedNodeCall)
    (w : Timed (Cluster k)) : Prop :=
  AlongAll Cluster.tick TimedNodeCall.enter (fun w _ _ => P w.state)
    (fun c : TimedNodeCall => c.call.prog cfg) cs w ∧ P (Cluster.runCalls cfg cs w).state

/-! ## Passes -/

/-- A schedule pass would assign no task to the node. -/
def Cluster.NoPassTo (nodeId : String) (c : Cluster k) : Prop :=
  ∀ now, ∀ a ∈ (k.step now .schedulePendingDetailed c.store).1, a.nodeId ≠ nodeId

theorem Cluster.noPassTo_of_unfit {nodeId : String} {c : Cluster k}
    (h : ∀ n, c.nodes.get? nodeId = some n → n.status ≠ .online ∨ n.drained = true) :
    c.NoPassTo nodeId := by
  rintro now a ha rfl
  obtain ⟨t, m, hfit⟩ := (schedulePendingDetailed_safe k now c.store).assignable a ha
  have hnode := hfit.node
  rw [c.nodes_store, Cluster.boardNodes, Table.get?_project, Option.map_eq_some_iff] at hnode
  obtain ⟨n, hget, rfl⟩ := hnode
  rcases h n hget with hstatus | hdrained
  · exact hstatus hfit.online
  · have hundrained : n.drained = false := hfit.undrained
    rw [hdrained] at hundrained
    cases hundrained

/-! ## Drained nodes -/

namespace Cluster

/-- The node has a row, and the row is drained. -/
def Drained (nodeId : String) (c : Cluster k) : Prop :=
  ∃ n, c.nodes.get? nodeId = some n ∧ n.drained = true

theorem Drained.noPassTo {nodeId : String} {c : Cluster k} (h : c.Drained nodeId) :
    c.NoPassTo nodeId := by
  obtain ⟨n, hget, hdrained⟩ := h
  refine noPassTo_of_unfit (fun m hm => .inr ?_)
  rw [hget] at hm
  exact Option.some.inj hm ▸ hdrained

/-- Only an explicit undrain of the node lifts a drain. -/
theorem Drained.step {nodeId : String} {c : Cluster k} (h : c.Drained nodeId) (now : Nat)
    {op : NodeOp} (hop : op ≠ .setDrained nodeId false) : (c.step now op).2.Drained nodeId := by
  obtain ⟨n, hget, hdrained⟩ := h
  unfold Drained
  rw [get?_step, hget]
  cases op with
  | registerNode node =>
      dsimp only [NodeOp.onRow]
      split
      · refine ⟨_, rfl, ?_⟩
        change registeredDrained k node (some n) = true
        cases k <;> simp [registeredDrained, hdrained]
      · exact ⟨n, rfl, hdrained⟩
  | setDrained id drained =>
      dsimp only [NodeOp.onRow]
      split
      · rename_i hid
        refine ⟨_, rfl, ?_⟩
        change drained = true
        by_contra hlifted
        rw [hid, Bool.eq_false_iff.mpr hlifted] at hop
        exact hop rfl
      · exact ⟨n, rfl, hdrained⟩
  | updateHeartbeat | updateCapabilities | updateMaxConcurrent | updateInstanceToken
  | setNodeStatus =>
      dsimp only [NodeOp.onRow]
      split
      · exact ⟨_, rfl, hdrained⟩
      · exact ⟨n, rfl, hdrained⟩
  | _ => exact ⟨n, rfl, hdrained⟩

end Cluster

omit [Unicode] in
theorem NodeCall.Issues.ne_undrain {c : NodeCall} {op : NodeOp} {nodeId : String}
    (h : c.Issues op) (hc : c ≠ .setDrained nodeId false) : op ≠ .setDrained nodeId false := by
  rintro rfl
  cases h with
  | idle hspares => exact hspares
  | drain => exact hc rfl

/-- A drain of a registered node holds through every run without an undrain of
it, and no schedule pass made anywhere in the run assigns a task to it. -/
theorem drain_sticks (k : Backend) (cfg : NodeConfig) (w : Timed (Cluster k)) (nodeId : String)
    (hregistered : (w.state.nodes.get? nodeId).isSome) (cs : List TimedNodeCall)
    (hcs : ∀ c ∈ cs, c.call ≠ .setDrained nodeId false) :
    Cluster.Throughout cfg (fun c => c.Drained nodeId ∧ c.NoPassTo nodeId) cs
      (Cluster.tick (.setDrained nodeId true) w).2 := by
  obtain ⟨n, hget⟩ := Option.isSome_iff_exists.mp hregistered
  have hstart : (Cluster.tick (.setDrained nodeId true) w).2.state.Drained nodeId := by
    refine ⟨n.onNode (Node.withDrained true), ?_, rfl⟩
    refine (Cluster.get?_step (w.clock 0) (.setDrained nodeId true) w.state nodeId).trans ?_
    rw [hget]
    exact if_pos rfl
  have henter : ∀ (c : TimedNodeCall) (w : Timed (Cluster k)),
      w.state.Drained nodeId → (c.enter w).state.Drained nodeId := fun _ _ h => h
  have hcall : ∀ (c : TimedNodeCall) (w : Timed (Cluster k)), w.state.Drained nodeId →
      c.call ≠ .setDrained nodeId false →
      (c.call.prog cfg).Keeps Cluster.tick
        (fun w _ _ => w.state.Drained nodeId ∧ w.state.NoPassTo nodeId)
        (fun w => w.state.Drained nodeId) w := by
    intro c w hw hc
    refine keeps_of_along (along_of_only (c.call.only cfg)) hw (fun w op hdrained hop => ?_)
    exact ⟨⟨hdrained, hdrained.noPassTo⟩, hdrained.step _ (hop.ne_undrain hc)⟩
  have hmeet : CallsMeet Cluster.tick TimedNodeCall.enter
      (fun c : TimedNodeCall => c.call.prog cfg)
      (fun c _ => c.call ≠ .setDrained nodeId false) cs
      (Cluster.tick (.setDrained nodeId true) w).2 :=
    callsMeet_of_mem hcs _
  obtain ⟨halong, hend⟩ := alongAll_of_calls henter hcall hstart hmeet
  exact ⟨halong, hend, hend.noPassTo⟩

/-! ## Nodes that left -/

namespace Cluster

/-- The node is not online. -/
def Out (nodeId : String) (c : Cluster k) : Prop :=
  ∀ n, c.nodes.get? nodeId = some n → n.status ≠ .online

theorem Out.noPassTo {nodeId : String} {c : Cluster k} (h : c.Out nodeId) :
    c.NoPassTo nodeId :=
  noPassTo_of_unfit (fun n hn => .inl (h n hn))

end Cluster

/-- The operations that put a node online. -/
def NodeOp.PutsOnline (nodeId : String) : NodeOp → Prop
  | .registerNode node => node.id = nodeId ∧ node.status = .online
  | .updateHeartbeat id _ _ statusReason => id = nodeId ∧ statusReason = ""
  | .setNodeStatus id status _ => id = nodeId ∧ status = .online
  | _ => False

/-- No other operation does. -/
theorem Cluster.Out.step {nodeId : String} {c : Cluster k} (h : c.Out nodeId) (now : Nat)
    {op : NodeOp} (hop : ¬op.PutsOnline nodeId) : (c.step now op).2.Out nodeId := by
  intro n' hn'
  rw [Cluster.get?_step] at hn'
  cases op with
  | registerNode node =>
      dsimp only [NodeOp.onRow] at hn'
      split at hn'
      · rename_i hid
        cases hn'
        exact fun honline => hop ⟨hid, honline⟩
      · exact h n' hn'
  | updateHeartbeat id load report statusReason =>
      dsimp only [NodeOp.onRow] at hn'
      split at hn'
      · rename_i hid
        obtain ⟨n, -, rfl⟩ := Option.map_eq_some_iff.mp hn'
        have hreason : statusReason ≠ "" := fun hempty => hop ⟨hid, hempty⟩
        change (if statusReason = "" then NodeStatus.online else .degraded) ≠ .online
        rw [if_neg hreason]
        exact NodeStatus.noConfusion
      · exact h n' hn'
  | setNodeStatus id status reason =>
      dsimp only [NodeOp.onRow] at hn'
      split at hn'
      · rename_i hid
        obtain ⟨n, -, rfl⟩ := Option.map_eq_some_iff.mp hn'
        exact fun honline => hop ⟨hid, honline⟩
      · exact h n' hn'
  | updateCapabilities | setDrained | updateMaxConcurrent | updateInstanceToken =>
      dsimp only [NodeOp.onRow] at hn'
      split at hn'
      · obtain ⟨n, hn, rfl⟩ := Option.map_eq_some_iff.mp hn'
        exact h n hn
      · exact h n' hn'
  | _ => exact h n' hn'

/-- No entry for the node that the receiver applies, its row having the load
`load`, has the node online. -/
def MergesOut (nodeId : String) : Option Rat → List (Option NodeRow) → Prop
  | _, [] => True
  | load, none :: entries => MergesOut nodeId load entries
  | load, some node :: entries =>
      if node.id = nodeId ∧ Sync.Newer load node then
        node.status ≠ .online ∧ MergesOut nodeId (some node.load) entries
      else MergesOut nodeId load entries

/-- A call does not put the node back: it is no join of it, no heartbeat of it
that breaks no rule, no check that finds it fresh and by its readings healthy, no
request to have it online and no full state that has it online. -/
def NodeCall.LeavesOut (cfg : NodeConfig) (nodeId : String) (c : NodeCall)
    (w : Timed (Cluster k)) : Prop :=
  match c with
  | .join args => args.nodeId ≠ nodeId
  | .heartbeat id _ report => id = nodeId → ∀ n ∈ w.state.nodes.get? nodeId,
      cfg.Breaks n.maxConcurrent report
  | .setStatus id status _ => id = nodeId → status ≠ .online
  | .check => ∀ n ∈ w.state.nodes.get? nodeId,
      cfg.Fresh (w.clock 0) n.lastHeartbeat → cfg.Breaks n.maxConcurrent n.readings
  | .fullState payload =>
      MergesOut nodeId (w.state.loadOf nodeId) payload.nodes
  | _ => True

instance decidableMergesOut (nodeId : String) :
    (load : Option Rat) → (entries : List (Option NodeRow)) →
      Decidable (MergesOut nodeId load entries)
  | _, [] => isTrue trivial
  | load, none :: entries => decidableMergesOut nodeId load entries
  | load, some node :: entries =>
      have := decidableMergesOut nodeId (some node.load) entries
      have := decidableMergesOut nodeId load entries
      inferInstanceAs (Decidable (if node.id = nodeId ∧ Sync.Newer load node then
        node.status ≠ .online ∧ MergesOut nodeId (some node.load) entries
      else MergesOut nodeId load entries))

omit [Unicode] in
instance (cfg : NodeConfig) (nodeId : String) (c : NodeCall) (w : Timed (Cluster k)) :
    Decidable (c.LeavesOut cfg nodeId w) :=
  match c with
  | .join args => inferInstanceAs (Decidable (args.nodeId ≠ nodeId))
  | .heartbeat id _ report => inferInstanceAs (Decidable (id = nodeId →
      ∀ n ∈ w.state.nodes.get? nodeId, cfg.Breaks n.maxConcurrent report))
  | .setStatus id status _ => inferInstanceAs (Decidable (id = nodeId → status ≠ .online))
  | .check => inferInstanceAs (Decidable (∀ n ∈ w.state.nodes.get? nodeId,
      cfg.Fresh (w.clock 0) n.lastHeartbeat → cfg.Breaks n.maxConcurrent n.readings))
  | .fullState payload =>
      inferInstanceAs (Decidable (MergesOut nodeId (w.state.loadOf nodeId) payload.nodes))
  | .leave _ | .updateCapabilities _ _ | .patchCapabilities _ _ | .setDrained _ _
  | .store _ _ => isTrue trivial

section Departure

variable {cfg : NodeConfig} {nodeId : String} {w : Timed (Cluster k)}

/-- A program keeps the node out, and no pass it makes assigns a task to it. -/
abbrev KeepsOut (k : Backend) (nodeId : String) {α : Type} (p : NodeApi α)
    (w : Timed (Cluster k)) : Prop :=
  p.Keeps Cluster.tick (fun w _ _ => w.state.Out nodeId ∧ w.state.NoPassTo nodeId)
    (fun w => w.state.Out nodeId) w

theorem keepsOut_of_only {α : Type} {p : NodeApi α}
    (hp : p.Only (fun op => ¬op.PutsOnline nodeId)) (hw : w.state.Out nodeId) :
    KeepsOut k nodeId p w :=
  keeps_of_along (along_of_only hp) hw
    (fun _ _ hout hop => ⟨⟨hout, hout.noPassTo⟩, hout.step _ hop⟩)

theorem keepsOut_query {α : Type} {op : NodeOp} {f : op.Res → NodeApi α}
    (hw : w.state.Out nodeId) (h : KeepsOut k nodeId (f (Cluster.tick op w).1)
      (Cluster.tick op w).2) :
    KeepsOut k nodeId (query op >>= f) w :=
  keeps_perform ⟨hw, hw.noPassTo⟩ h

theorem keepsOut_getNode {α : Type} {id : String} {f : Option NodeRow → NodeApi α}
    (hw : w.state.Out nodeId)
    (h : ∀ clock, KeepsOut k nodeId (f (w.state.nodes.get? id)) ⟨w.state, clock⟩) :
    KeepsOut k nodeId (query (.getNode id) >>= f) w :=
  keepsOut_query hw (h _)

theorem keepsOut_heartbeat {id : String} {load : Rat} {report : HealthReport}
    (hw : w.state.Out nodeId)
    (hbreaks : id = nodeId → ∀ n ∈ w.state.nodes.get? nodeId,
      cfg.Breaks n.maxConcurrent report) :
    KeepsOut k nodeId (NodeManager.sendHeartbeat cfg id load report) w := by
  refine keepsOut_getNode hw (fun clock => ?_)
  cases hget : w.state.nodes.get? id with
  | none => exact keeps_pure hw
  | some n =>
      refine keepsOut_of_only ⟨?_, fun _ => trivial⟩ hw
      rintro ⟨rfl, hempty⟩
      exact cfg.reportReason_eq_empty_iff.mp hempty (hbreaks rfl n hget)

theorem keepsOut_check (hw : w.state.Out nodeId)
    (hbreaks : ∀ n ∈ w.state.nodes.get? nodeId,
      cfg.Fresh (w.clock 0) n.lastHeartbeat → cfg.Breaks n.maxConcurrent n.readings) :
    KeepsOut k nodeId (NodeManager.check cfg) w := by
  refine keepsOut_query hw (keepsOut_query hw (keepsOut_query hw ?_))
  refine keepsOut_of_only ?_ hw
  change (w.state.nodes.rows.foldlM (NodeManager.checkNode cfg (w.clock 0)
    (Cluster.readsAware k)) []).Only _
  refine only_foldlM_of_mem _ (fun events n hn => ?_) []
  have hspares : ∀ op : NodeOp, op.SparesRows → ¬op.PutsOnline nodeId := by
    intro op hop hputs
    cases op <;> first | exact hop | exact hputs
  refine only_checkNode hspares ?_
  rintro ⟨hid, honline⟩
  obtain ⟨hfresh, hhealthy⟩ := cfg.verdict_online_iff.mp honline
  have hget : w.state.nodes.get? n.id = some n := Table.get?_of_mem hn
  exact hhealthy (hbreaks n (hid ▸ hget) hfresh)

/-- An entry of a full state, which the receiver does not apply if it has the node
online. -/
theorem keepsOut_receiveNode {node : NodeRow} (hw : w.state.Out nodeId)
    (honline : node.id = nodeId → Sync.Newer (w.state.loadOf nodeId) node →
      node.status ≠ .online) (reply : FullReply) :
    KeepsOut k nodeId (Sync.receiveNode reply (some node)) w := by
  refine keepsOut_getNode hw (fun clock => ?_)
  cases hget : w.state.nodes.get? node.id with
  | none =>
      refine keepsOut_of_only ⟨?_, fun _ => trivial⟩ hw
      rintro ⟨rfl, hputs⟩
      refine honline rfl (fun stored hstored => ?_) hputs
      rw [Cluster.loadOf, hget] at hstored
      exact absurd hstored (Option.not_mem_none stored)
  | some existing =>
      change KeepsOut k nodeId (if existing.load ≤ node.load then _ else _) _
      split
      · rename_i hload
        refine keepsOut_of_only ⟨?_, fun _ => trivial⟩ hw
        rintro ⟨rfl, hputs⟩
        refine honline rfl (fun stored hstored => ?_) hputs
        rw [Cluster.loadOf, hget] at hstored
        exact Option.some.inj hstored ▸ hload
      · exact keeps_pure hw

/-- The load of the row that an entry leaves is the one the next entry for the
node is compared with. -/
theorem keepsOut_receiveNodes {entries : List (Option NodeRow)} (hw : w.state.Out nodeId)
    (hmerges : MergesOut nodeId (w.state.loadOf nodeId) entries) (reply : FullReply) :
    KeepsOut k nodeId (entries.foldlM Sync.receiveNode reply) w := by
  induction entries generalizing w reply with
  | nil => exact keeps_pure hw
  | cons entry entries ih =>
      rw [List.foldlM_cons]
      cases entry with
      | none => exact ih hw hmerges _
      | some node =>
          have hfirst : KeepsOut k nodeId (Sync.receiveNode reply (some node)) w := by
            refine keepsOut_receiveNode hw (fun hid hnewer => ?_) reply
            rw [MergesOut, if_pos ⟨hid, hnewer⟩] at hmerges
            exact hmerges.1
          refine keeps_bind hfirst (fun reply' _ => ih hfirst.2 ?_ reply')
          obtain ⟨_, clock, hrun⟩ := Sync.run_receiveNode w reply node
          rw [hrun]
          change MergesOut nodeId (Cluster.loadOf (if _ then _ else _) nodeId) entries
          by_cases hid : node.id = nodeId
          · rw [hid]
            by_cases hnewer : Sync.Newer (w.state.loadOf nodeId) node
            · rw [MergesOut, if_pos ⟨hid, hnewer⟩] at hmerges
              have hload : (w.state.registerNode node).loadOf nodeId = some node.load := by
                have hrow := w.state.get?_step 0 (.registerNode node) nodeId
                exact congrArg (Option.map _) (hrow.trans (if_pos hid))
              rw [if_pos hnewer, hload]
              exact hmerges.2
            · rw [MergesOut, if_neg (fun h => hnewer h.2)] at hmerges
              rw [if_neg hnewer]
              exact hmerges
          · rw [MergesOut, if_neg (fun h => hid h.1)] at hmerges
            split
            · have hload : (w.state.registerNode node).loadOf nodeId = w.state.loadOf nodeId := by
                have hrow := w.state.get?_step 0 (.registerNode node) nodeId
                exact congrArg (Option.map _) (hrow.trans (if_neg hid))
              rw [hload]
              exact hmerges
            · exact hmerges

theorem NodeCall.keepsOut {c : NodeCall} (hw : w.state.Out nodeId)
    (hc : c.LeavesOut cfg nodeId w) : KeepsOut k nodeId (c.prog cfg) w := by
  have hdiscard : ∀ {α : Type} {p : NodeApi α}, KeepsOut k nodeId p w →
      KeepsOut k nodeId (p >>= fun _ => pure ()) w :=
    fun hp => keeps_bind hp (fun _ _ => keeps_pure hp.2)
  have hspares : ∀ {op : NodeOp}, op.SparesRows → ¬op.PutsOnline nodeId := by
    intro op hop hputs
    cases op <;> first | exact hop | exact hputs
  -- a call none of whose operations can put the node online
  have honly : (∀ op, c.Issues op → ¬op.PutsOnline nodeId) →
      KeepsOut k nodeId (c.prog cfg) w := fun h => keepsOut_of_only ((c.only cfg).mono h) hw
  cases c with
  | heartbeat id load report => exact keepsOut_heartbeat hw hc
  | check => exact hdiscard (keepsOut_check hw hc)
  | fullState payload =>
      refine hdiscard ?_
      have hnodes := keepsOut_receiveNodes hw hc {}
      refine keeps_bind hnodes (fun reply _ => keepsOut_of_only ?_ hnodes.2)
      exact only_foldlM payload.tasks
        (fun reply _ => only_receiveTask (fun _ => hspares) reply) reply
  | join args =>
      refine honly (fun op hop hputs => ?_)
      cases hop with
      | idle h => exact hspares h hputs
      | register hid => exact hc (hid.symm.trans hputs.1)
      | rejoin => exact hc hputs.1
      | rejoinCaps | rejoinCapacity | rejoinToken => exact hputs
  | leave id =>
      refine honly (fun op hop hputs => ?_)
      cases hop with
      | idle h => exact hspares h hputs
      | leave => cases hputs.2
  | setStatus id status reason =>
      refine honly (fun op hop hputs => ?_)
      cases hop with
      | idle h => exact hspares h hputs
      | setStatus => exact hc hputs.1 hputs.2
  | updateCapabilities | patchCapabilities | setDrained | store =>
      refine honly (fun op hop hputs => ?_)
      cases hop with
      | idle h => exact hspares h hputs
      | _ => exact hputs

theorem out_of_leave (w : Timed (Cluster k)) (nodeId : String) :
    ((NodeManager.leave nodeId).run Cluster.tick w).2.state.Out nodeId := by
  simp only [NodeManager.leave, query, perform_bind, run, timed, Cluster.step]
  cases hget : w.state.nodes.get? nodeId with
  | none =>
      intro n hn
      have hnone : w.state.nodes.get? nodeId = some n := hn
      rw [hget] at hnone
      cases hnone
  | some n =>
      intro n' hn'
      have hrow := w.state.get?_step (w.clock 1) (.setNodeStatus nodeId .offline "") nodeId
      rw [NodeOp.onRow, if_pos rfl, hget] at hrow
      have hleft : some n' = some (n.onNode (Node.withNodeStatus .offline "")) :=
        hn'.symm.trans hrow
      rw [Option.some.inj hleft]
      exact NodeStatus.noConfusion

/-- After `leave`, and until the next call that puts it back, the node is not
online, and no schedule pass assigns a task to it. -/
theorem left_node_stays_out (k : Backend) (cfg : NodeConfig) (w : Timed (Cluster k))
    (nodeId : String) (cs : List TimedNodeCall)
    (hcs : CallsMeet Cluster.tick TimedNodeCall.enter (fun c : TimedNodeCall => c.call.prog cfg)
      (fun c w => c.call.LeavesOut cfg nodeId w) cs
      ((NodeManager.leave nodeId).run Cluster.tick w).2) :
    Cluster.Throughout cfg (fun c => c.Out nodeId ∧ c.NoPassTo nodeId) cs
      ((NodeManager.leave nodeId).run Cluster.tick w).2 := by
  have henter : ∀ (c : TimedNodeCall) (w : Timed (Cluster k)),
      w.state.Out nodeId → (c.enter w).state.Out nodeId := fun _ _ h => h
  have hcall : ∀ (c : TimedNodeCall) (w : Timed (Cluster k)), w.state.Out nodeId →
      c.call.LeavesOut cfg nodeId w → KeepsOut k nodeId (c.call.prog cfg) w :=
    fun c w hw hc => c.call.keepsOut hw hc
  obtain ⟨halong, hend⟩ := alongAll_of_calls henter hcall (out_of_leave w nodeId) hcs
  exact ⟨halong, hend, hend.noPassTo⟩

end Departure

end Rotation

/-! ## Runs on a cluster with one ready task -/

section OneReadyTask

local instance asciiRotation : Unicode := Unicode.ascii

/-- No node yet, and a task that any node can run. -/
def oneReadyTask : Timed (Cluster .memory) where
  state :=
    { rest := { ClusterState.empty with
        tasks := Table.empty.upsert
          { id := "task_1", title := "t", status := .ready, createdAt := 0, updatedAt := 0 } } }
  clock := fun _ => 0

/-- The same once the node has joined. -/
def oneReadyNode : Timed (Cluster .memory) :=
  Cluster.runCalls {} [⟨.join { nodeId := "node_a", instanceToken := "tok_1" }, fun _ => 0⟩]
    oneReadyTask

theorem drain_sticks_through_rejoin :
    Cluster.Throughout {} (fun c => c.Drained "node_a" ∧ c.NoPassTo "node_a")
      [⟨.heartbeat "node_a" 0 {}, fun _ => 5000000⟩,
        ⟨.join { nodeId := "node_a", instanceToken := "tok_1" }, fun _ => 6000000⟩,
        ⟨.check, fun _ => 7000000⟩,
        ⟨.patchCapabilities "node_a" ["gpu"], fun _ => 8000000⟩,
        ⟨.fullState { nodes := [some { id := "node_a" }] }, fun _ => 9000000⟩]
      (Cluster.tick (.setDrained "node_a" true) oneReadyNode).2 :=
  drain_sticks .memory {} oneReadyNode "node_a" (by decide +kernel) _ (by simp)

/-- A drain of a node that is not registered yet is lost. -/
theorem unknown_node_not_drained :
    let w := Cluster.runCalls {} [⟨.join { nodeId := "node_a" }, fun _ => 0⟩]
      (Cluster.tick (.setDrained "node_a" true) oneReadyTask).2
    (w.state.nodes.get? "node_a").map (fun n => n.drained) = some false ∧
      (Backend.memory.step 0 .schedulePendingDetailed w.state.store).1.map
        Assignment.nodeId = ["node_a"] := by
  decide +kernel

theorem left_node_stays_out_when_stale :
    Cluster.Throughout {} (fun c => c.Out "node_a" ∧ c.NoPassTo "node_a")
      [⟨.updateCapabilities "node_a" ["gpu"], fun _ => 1000000⟩,
        ⟨.setStatus "node_a" .degraded "maintenance", fun _ => 2000000⟩,
        ⟨.check, fun _ => 20000000⟩]
      ((NodeManager.leave "node_a").run Cluster.tick oneReadyNode).2 :=
  left_node_stays_out .memory {} oneReadyNode "node_a" _
    ⟨trivial, by decide, by decide +kernel, trivial⟩

/-- A node that joined, left and is checked five seconds later is online again,
and the next pass assigns the task to it. -/
theorem left_node_returns :
    let w := Cluster.runCalls {} [⟨.leave "node_a", fun _ => 1000000⟩,
      ⟨.check, fun _ => 5000000⟩] oneReadyNode
    w.state.statusOf "node_a" = some .online ∧
      (Backend.memory.step 5000000 .schedulePendingDetailed w.state.store).1.map
        Assignment.nodeId = ["node_a"] := by
  decide +kernel

end OneReadyTask

end HermesCluster
