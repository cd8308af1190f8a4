import HermesCluster.Routers.Rotation
/-!
# The instance gate

Who holds a node id is told from what the calls returned: the last token that a
join was accepted with, and when the node was last heard of. The stored row says
the same in every state of every run, so a join of another instance is refused
as long as the holder is heard of.
-/

namespace HermesCluster

open Program hiding pure bind
open NodeManager (query)

/-- The instance that holds a node id, and when it was last heard of. -/
structure Tenure where
  token : String
  lastBeat : Nat
  deriving DecidableEq

/-- The tenure that the stored row shows. -/
def Cluster.tenureOf {k : Backend} (c : Cluster k) (nodeId : String) : Option Tenure :=
  (c.nodes.get? nodeId).map (fun n => ⟨n.instanceToken, n.lastHeartbeat⟩)

section Gate

variable [Unicode] {k : Backend} {cfg : NodeConfig} {nodeId : String}

/-! ## Histories -/

/-- The tenure after a call, from its outcome. An accepted join of a held node id
keeps the holder's token if it brings none. -/
def Tenure.after (nodeId : String) (c : TimedNodeCall) (accepted : Bool) (t : Option Tenure) :
    Option Tenure :=
  match c.call with
  | .join args =>
      if args.nodeId = nodeId ∧ accepted = true then
        match t with
        | none => some ⟨args.instanceToken, c.clock 0⟩
        | some t =>
            some ⟨if args.instanceToken ≠ "" then args.instanceToken else t.token, c.clock 3⟩
      else t
  | .heartbeat id _ _ => if id = nodeId then t.map (fun t => ⟨t.token, c.clock 1⟩) else t
  | _ => t

/-- The tenure after some calls. -/
def tenureAfter (cfg : NodeConfig) (nodeId : String) :
    List TimedNodeCall → Timed (Cluster k) → Option Tenure → Option Tenure
  | [], _, t => t
  | c :: cs, w, t =>
      let ended := (c.call.prog cfg).run Cluster.tick (c.enter w)
      tenureAfter cfg nodeId cs ended.2 (Tenure.after nodeId c ended.1.isOk t)

/-! ## The row under an operation -/

/-- What an operation makes of a tenure. -/
def NodeOp.onTenure (now : Nat) (nodeId : String) : NodeOp → Option Tenure → Option Tenure
  | .registerNode node, t =>
      if node.id = nodeId then some ⟨node.instanceToken, node.lastHeartbeat⟩ else t
  | .updateHeartbeat id _ _ _, t => if id = nodeId then t.map (fun t => ⟨t.token, now⟩) else t
  | .updateInstanceToken id instanceToken, t =>
      if id = nodeId then t.map (fun t => ⟨instanceToken, t.lastBeat⟩) else t
  | _, t => t

theorem Cluster.tenureOf_step (now : Nat) (op : NodeOp) (c : Cluster k) (nodeId : String) :
    (c.step now op).2.tenureOf nodeId = op.onTenure now nodeId (c.tenureOf nodeId) := by
  unfold tenureOf
  rw [get?_step]
  cases op with
  | registerNode | updateHeartbeat | updateInstanceToken | updateCapabilities | setDrained
  | updateMaxConcurrent | setNodeStatus =>
      dsimp only [NodeOp.onRow, NodeOp.onTenure]
      split
      · cases c.nodes.get? nodeId <;> rfl
      · rfl
  | _ => rfl

/-- The operations that leave the tenure of a node alone. -/
def NodeOp.SparesTenure (nodeId : String) : NodeOp → Prop
  | .registerNode node => node.id ≠ nodeId
  | .updateHeartbeat id _ _ _ | .updateInstanceToken id _ => id ≠ nodeId
  | _ => True

theorem Cluster.tenureOf_step_of_spares (now : Nat) {op : NodeOp} (c : Cluster k)
    (hop : op.SparesTenure nodeId) : (c.step now op).2.tenureOf nodeId = c.tenureOf nodeId := by
  rw [tenureOf_step]
  cases op with
  | registerNode | updateHeartbeat | updateInstanceToken => exact if_neg hop
  | _ => rfl

theorem tenureOf_run_of_only {α : Type} {p : NodeApi α}
    (hp : p.Only (fun op => op.SparesTenure nodeId)) (w : Timed (Cluster k)) :
    (p.run Cluster.tick w).2.state.tenureOf nodeId = w.state.tenureOf nodeId := by
  have hkeeps : p.Keeps Cluster.tick (fun _ _ _ => True)
      (fun w' => w'.state.tenureOf nodeId = w.state.tenureOf nodeId) w :=
    keeps_of_along (along_of_only hp) rfl
      (fun w' _ hsame hop => ⟨trivial, (w'.state.tenureOf_step_of_spares _ hop).trans hsame⟩)
  exact hkeeps.2

/-! ## Heartbeats and joins -/

theorem tenureOf_sendHeartbeat (cfg : NodeConfig) (nodeId : String) (w : Timed (Cluster k))
    (load : Rat) (report : HealthReport) :
    ∃ clock c, (NodeManager.sendHeartbeat cfg nodeId load report).run Cluster.tick w =
        (.ok (), ⟨c, clock⟩) ∧
      c.tenureOf nodeId = (w.state.tenureOf nodeId).map (fun t => ⟨t.token, w.clock 1⟩) := by
  cases hget : w.state.nodes.get? nodeId with
  | none =>
      refine ⟨_, _, NodeManager.run_sendHeartbeat_none w hget load report, ?_⟩
      rw [Cluster.tenureOf, hget]
      rfl
  | some n =>
      refine ⟨_, _, NodeManager.run_sendHeartbeat_some w hget load report, ?_⟩
      have hstep := w.state.tenureOf_step (w.clock 1) (.updateHeartbeat nodeId
        (max 0 (min 1 load)) report (cfg.reportReason n.maxConcurrent report)) nodeId
      exact hstep.trans (if_pos rfl)

/-- An update that is made on a condition, and what it makes of the tenure. -/
theorem tenureOf_onlyIf (nodeId : String) (c : Prop) [Decidable c] (op : NodeOp)
    (p : NodeApi Unit) (w : Timed (Cluster k))
    (hp : p.run Cluster.tick w = (.ok (), (Cluster.tick op w).2)) :
    ∃ w', (NodeManager.onlyIf c p).run Cluster.tick w = (.ok (), w') ∧
      w'.state.tenureOf nodeId =
        if c then op.onTenure (w.clock 0) nodeId (w.state.tenureOf nodeId)
        else w.state.tenureOf nodeId := by
  unfold NodeManager.onlyIf
  split
  · exact ⟨_, hp, w.state.tenureOf_step _ op nodeId⟩
  · exact ⟨w, rfl, rfl⟩

/-- A join of a held node id that is let through. -/
theorem run_rejoin (cfg : NodeConfig) (w : Timed (Cluster k)) (args : JoinArgs) {t : Tenure}
    (ht : w.state.tenureOf args.nodeId = some t) :
    ∃ n w', (NodeManager.rejoin cfg args).run Cluster.tick w = (.ok (some n), w') ∧
      n.instanceToken = (if args.instanceToken ≠ "" then args.instanceToken else t.token) ∧
      w'.state.tenureOf args.nodeId = some
        ⟨if args.instanceToken ≠ "" then args.instanceToken else t.token, w.clock 1⟩ := by
  obtain ⟨clock₁, c₁, hbeat, ht₁⟩ :=
    tenureOf_sendHeartbeat cfg args.nodeId w 0 args.report
  obtain ⟨w₂, hcaps, ht₂⟩ := tenureOf_onlyIf args.nodeId (args.capabilities ≠ [])
    (.updateCapabilities args.nodeId args.capabilities)
    (query (.updateCapabilities args.nodeId args.capabilities)) ⟨c₁, clock₁⟩ rfl
  obtain ⟨w₃, hcapacity, ht₃⟩ := tenureOf_onlyIf args.nodeId (args.maxConcurrent ≠ 0)
    (.updateMaxConcurrent args.nodeId args.maxConcurrent)
    (query (.updateMaxConcurrent args.nodeId args.maxConcurrent)) w₂ rfl
  obtain ⟨w₄, htoken, ht₄⟩ := tenureOf_onlyIf args.nodeId (args.instanceToken ≠ "")
    (.updateInstanceToken args.nodeId args.instanceToken)
    (query (.updateInstanceToken args.nodeId args.instanceToken)) w₃ rfl
  have hrun : (NodeManager.rejoin cfg args).run Cluster.tick w =
      (.ok (w₄.state.nodes.get? args.nodeId), (Cluster.tick (.getNode args.nodeId) w₄).2) := by
    unfold NodeManager.rejoin
    rw [run_bind_of_ok (congrArg Prod.fst hbeat), hbeat, run_bind_of_ok (congrArg Prod.fst hcaps),
      hcaps, run_bind_of_ok (congrArg Prod.fst hcapacity), hcapacity,
      run_bind_of_ok (congrArg Prod.fst htoken), htoken]
    rfl
  have hkept₂ : w₂.state.tenureOf args.nodeId = some ⟨t.token, w.clock 1⟩ := by
    rw [ht₂, ht₁, ht]
    exact ite_self _
  have hkept₃ : w₃.state.tenureOf args.nodeId = some ⟨t.token, w.clock 1⟩ := by
    rw [ht₃, hkept₂]
    exact ite_self _
  have hlast : w₄.state.tenureOf args.nodeId = some
      ⟨if args.instanceToken ≠ "" then args.instanceToken else t.token, w.clock 1⟩ := by
    rw [ht₄, hkept₃]
    split
    · exact if_pos rfl
    · rfl
  obtain ⟨n, hget, htenure⟩ := Option.map_eq_some_iff.mp hlast
  rw [hget] at hrun
  exact ⟨n, _, hrun, congrArg Tenure.token htenure, hlast⟩

theorem run_join_free (cfg : NodeConfig) {w : Timed (Cluster k)} {args : JoinArgs}
    (hid : args.nodeId ≠ "")
    (ht : w.state.tenureOf args.nodeId = none) :
    ∃ n w', (NodeManager.join cfg args).run Cluster.tick w = (.ok (some n), w') ∧
      w'.state.tenureOf args.nodeId = some ⟨args.instanceToken, w.clock 0⟩ := by
  have hget : w.state.nodes.get? args.nodeId = none := Option.map_eq_none_iff.mp ht
  let row := NodeManager.joinedRow cfg args (w.clock 0)
  have hrun : (NodeManager.join cfg args).run Cluster.tick w = (.ok (some row),
      (Cluster.tick (.cacheCaps args.nodeId args.capabilities)
        (Cluster.tick (.registerNode row) ⟨w.state, fun i => w.clock (i + 1 + 1)⟩).2).2) := by
    unfold NodeManager.join
    rw [if_neg hid]
    simp only [query, perform_bind, run, timed, Cluster.step, hget]
    rfl
  have hstep := w.state.tenureOf_step 0 (.registerNode row) args.nodeId
  exact ⟨row, _, hrun, hstep.trans (if_pos rfl)⟩

theorem run_join_refused (cfg : NodeConfig) {w : Timed (Cluster k)} {args : JoinArgs}
    (hid : args.nodeId ≠ "")
    {t : Tenure} (ht : w.state.tenureOf args.nodeId = some t)
    (hother : NodeManager.OtherInstance args t.token)
    (hage : NodeConfig.elapsed (w.clock 0) t.lastBeat < cfg.offlineAfter) :
    ∃ clock, (NodeManager.join cfg args).run Cluster.tick w =
      (.error (.duplicateInstanceJoin args.nodeId t.token args.instanceToken
        (NodeConfig.elapsed (w.clock 0) t.lastBeat) cfg.offlineAfter), ⟨w.state, clock⟩) := by
  obtain ⟨n, hget, rfl⟩ := Option.map_eq_some_iff.mp ht
  refine ⟨fun i => w.clock (i + 1 + 1), ?_⟩
  unfold NodeManager.join
  rw [if_neg hid]
  simp only [query, perform_bind, run, timed, Cluster.step, hget]
  rw [if_pos ⟨hother, hage⟩]
  rfl

theorem run_join_held (cfg : NodeConfig) {w : Timed (Cluster k)} {args : JoinArgs}
    (hid : args.nodeId ≠ "")
    {t : Tenure} (ht : w.state.tenureOf args.nodeId = some t)
    (hopen : ¬(NodeManager.OtherInstance args t.token ∧
      NodeConfig.elapsed (w.clock 0) t.lastBeat < cfg.offlineAfter)) :
    ∃ n w', (NodeManager.join cfg args).run Cluster.tick w = (.ok (some n), w') ∧
      n.instanceToken = (if args.instanceToken ≠ "" then args.instanceToken else t.token) ∧
      w'.state.tenureOf args.nodeId = some
        ⟨if args.instanceToken ≠ "" then args.instanceToken else t.token, w.clock 3⟩ := by
  obtain ⟨n, hget, hrow⟩ := Option.map_eq_some_iff.mp ht
  obtain ⟨m, w', hrun, htoken, htenure⟩ :=
    run_rejoin cfg ⟨w.state, fun i => w.clock (i + 1 + 1)⟩ args ht
  refine ⟨m, w', ?_, htoken, htenure⟩
  rw [← hrow] at hopen
  unfold NodeManager.join
  rw [if_neg hid]
  simp only [query, perform_bind, run, timed, Cluster.step, hget]
  rw [if_neg hopen]
  exact hrun

/-! ## The row tells the history -/

/-- Calls that do not write over a row with that of another coordinator. -/
def NodeCall.Local (c : NodeCall) : Prop :=
  ∀ payload, c ≠ .fullState payload

omit [Unicode] in
theorem only_sparesTenure {c : NodeCall} (hlocal : c.Local)
    (hjoin : ∀ args, c = .join args → args.nodeId ≠ nodeId)
    (hbeat : ∀ id load report, c = .heartbeat id load report → id ≠ nodeId) :
    (c.prog cfg).Only (fun op => op.SparesTenure nodeId) := by
  refine (c.only cfg).mono (fun op hop => ?_)
  cases hop with
  | idle h => cases op <;> first | exact h.elim | trivial
  | beat => exact hbeat _ _ _ rfl
  | register hid => exact fun hnode => hjoin _ rfl (hid.symm.trans hnode)
  | rejoin | rejoinToken => exact hjoin _ rfl
  | received => exact absurd rfl (hlocal _)
  | _ => trivial

theorem tenureOf_join (cfg : NodeConfig) (w : Timed (Cluster k)) (args : JoinArgs) :
    ((NodeManager.join cfg args).run Cluster.tick w).2.state.tenureOf args.nodeId =
      Tenure.after args.nodeId ⟨.join args, w.clock⟩
        ((NodeManager.join cfg args).run Cluster.tick w).1.isOk
        (w.state.tenureOf args.nodeId) := by
  have hrefused : ∀ t, Tenure.after args.nodeId ⟨.join args, w.clock⟩ false t = t :=
    fun t => if_neg (fun h => Bool.false_ne_true h.2)
  have haccepted : ∀ t, Tenure.after args.nodeId ⟨.join args, w.clock⟩ true (some t) = some
      ⟨if args.instanceToken ≠ "" then args.instanceToken else t.token, w.clock 3⟩ :=
    fun t => if_pos ⟨rfl, rfl⟩
  by_cases hid : args.nodeId = ""
  · have hrun : (NodeManager.join cfg args).run Cluster.tick w = (.error .nodeIdRequired, w) := by
      unfold NodeManager.join
      rw [if_pos hid]
      rfl
    rw [hrun]
    exact (hrefused _).symm
  cases ht : w.state.tenureOf args.nodeId with
  | none =>
      obtain ⟨n, w', hrun, htenure⟩ := run_join_free cfg hid ht
      rw [hrun, htenure]
      exact (if_pos ⟨rfl, rfl⟩).symm
  | some t =>
      by_cases hgate : NodeManager.OtherInstance args t.token ∧
          NodeConfig.elapsed (w.clock 0) t.lastBeat < cfg.offlineAfter
      · obtain ⟨clock, hrun⟩ := run_join_refused cfg hid ht hgate.1 hgate.2
        rw [hrun]
        exact ht.trans (hrefused _).symm
      · obtain ⟨n, w', hrun, -, htenure⟩ := run_join_held cfg hid ht hgate
        rw [hrun, htenure]
        exact (haccepted t).symm

/-- One call. -/
theorem tenureOf_call (cfg : NodeConfig) (nodeId : String) (c : TimedNodeCall)
    (hlocal : c.call.Local) (w : Timed (Cluster k)) :
    ((c.call.prog cfg).run Cluster.tick (c.enter w)).2.state.tenureOf nodeId =
      Tenure.after nodeId c ((c.call.prog cfg).run Cluster.tick (c.enter w)).1.isOk
        (w.state.tenureOf nodeId) := by
  have hspares : (∀ args, c.call = .join args → args.nodeId ≠ nodeId) →
      (∀ id load report, c.call = .heartbeat id load report → id ≠ nodeId) →
      ((c.call.prog cfg).run Cluster.tick (c.enter w)).2.state.tenureOf nodeId =
        w.state.tenureOf nodeId :=
    fun hjoin hbeat => tenureOf_run_of_only (only_sparesTenure hlocal hjoin hbeat) _
  obtain ⟨call, clock⟩ := c
  cases call with
  | join args =>
      by_cases hn : args.nodeId = nodeId
      · subst hn
        unfold NodeCall.prog
        rw [run_discard, isOk_run_discard]
        exact tenureOf_join cfg ⟨w.state, clock⟩ args
      · rw [Tenure.after]
        dsimp only
        rw [if_neg (fun h => hn h.1)]
        exact hspares (fun _ h => by cases h; exact hn) (fun _ _ _ h => by cases h)
  | heartbeat id load report =>
      by_cases hn : id = nodeId
      · subst hn
        obtain ⟨clock', c', hrun, htenure⟩ :=
          tenureOf_sendHeartbeat cfg id ⟨w.state, clock⟩ load report
        have hafter : Tenure.after id ⟨.heartbeat id load report, clock⟩ true
            (w.state.tenureOf id) = (w.state.tenureOf id).map (fun t => ⟨t.token, clock 1⟩) :=
          if_pos rfl
        change ((NodeManager.sendHeartbeat cfg id load report).run Cluster.tick
          ⟨w.state, clock⟩).2.state.tenureOf id = Tenure.after id _
          ((NodeManager.sendHeartbeat cfg id load report).run Cluster.tick
            ⟨w.state, clock⟩).1.isOk _
        rw [hrun, htenure]
        exact hafter.symm
      · rw [Tenure.after]
        dsimp only
        rw [if_neg hn]
        exact hspares (fun _ h => by cases h) (fun _ _ _ h => by cases h; exact hn)
  | fullState payload => exact absurd rfl (hlocal payload)
  | _ => exact hspares (fun _ h => by cases h) (fun _ _ _ h => by cases h)

/-- In every run the stored row shows the tenure that the calls' outcomes tell. -/
theorem tenureOf_runCalls (cfg : NodeConfig) (nodeId : String) (cs : List TimedNodeCall)
    (hlocal : ∀ c ∈ cs, c.call.Local)
    (w : Timed (Cluster k)) :
    (Cluster.runCalls cfg cs w).state.tenureOf nodeId =
      tenureAfter cfg nodeId cs w (w.state.tenureOf nodeId) := by
  induction cs generalizing w with
  | nil => rfl
  | cons c cs ih =>
      rw [List.forall_mem_cons] at hlocal
      have hcall := tenureOf_call cfg nodeId c hlocal.1 w
      have hrest := ih hlocal.2 ((c.call.prog cfg).run Cluster.tick (c.enter w)).2
      rw [hcall] at hrest
      exact hrest

/-- What the gate does in a state in which `t` holds the node id. -/
structure InstanceGated (cfg : NodeConfig) (nodeId : String) (t : Tenure) (c : Cluster k) :
    Prop where
  refuses : ∀ (args : JoinArgs) (clock : Nat → Nat), args.nodeId = nodeId →
    NodeManager.OtherInstance args t.token →
    NodeConfig.elapsed (clock 0) t.lastBeat < cfg.offlineAfter →
    let joined := (NodeManager.join cfg args).run Cluster.tick ⟨c, clock⟩
    joined.1 = .error (.duplicateInstanceJoin nodeId t.token args.instanceToken
        (NodeConfig.elapsed (clock 0) t.lastBeat) cfg.offlineAfter) ∧
      joined.2.state = c
  accepts : ∀ (args : JoinArgs) (clock : Nat → Nat), args.nodeId = nodeId →
    args.instanceToken = t.token →
    ∃ n, ((NodeManager.join cfg args).run Cluster.tick ⟨c, clock⟩).1 = .ok (some n) ∧
      n.instanceToken = t.token
  passes : ∀ (call : TimedNodeCall) (t' : Tenure),
    Tenure.after nodeId call ((call.call.prog cfg).run Cluster.tick ⟨c, call.clock⟩).1.isOk
      (some t) = some t' →
    t.token ≠ "" → t'.token ≠ t.token →
    cfg.offlineAfter ≤ NodeConfig.elapsed (call.clock 0) t.lastBeat

theorem gated_of_tenureOf {c : Cluster k} {t : Tenure} (hid : nodeId ≠ "")
    (ht : c.tenureOf nodeId = some t) : InstanceGated cfg nodeId t c := by
  have hrefuses : ∀ (args : JoinArgs) (clock : Nat → Nat), args.nodeId = nodeId →
      NodeManager.OtherInstance args t.token →
      NodeConfig.elapsed (clock 0) t.lastBeat < cfg.offlineAfter →
      ∃ clock', (NodeManager.join cfg args).run Cluster.tick ⟨c, clock⟩ =
        (.error (.duplicateInstanceJoin nodeId t.token args.instanceToken
          (NodeConfig.elapsed (clock 0) t.lastBeat) cfg.offlineAfter), ⟨c, clock'⟩) := by
    rintro args clock rfl hother hage
    have hjoining : (Timed.mk c clock).state.tenureOf args.nodeId = some t := ht
    exact run_join_refused cfg hid hjoining hother hage
  refine ⟨fun args clock hn hother hage => ?_, ?_, fun call t' hafter hheld hpassed => ?_⟩
  · obtain ⟨_, hrun⟩ := hrefuses args clock hn hother hage
    rw [hrun]
    exact ⟨rfl, rfl⟩
  · rintro args clock rfl hsame
    have hjoining : (Timed.mk c clock).state.tenureOf args.nodeId = some t := ht
    obtain ⟨n, w', hrun, htoken, -⟩ :=
      run_join_held cfg hid hjoining (fun h => h.1.2.2 hsame)
    rw [hrun]
    refine ⟨n, rfl, ?_⟩
    rw [htoken, hsame]
    exact ite_self _
  · by_contra hfresh
    obtain ⟨call, clock⟩ := call
    cases call with
    | join args =>
        dsimp only [Tenure.after] at hafter
        split at hafter
        · rename_i haccepted
          cases hafter
          by_cases htoken : args.instanceToken ≠ ""
          · dsimp only at hpassed
            rw [if_pos htoken] at hpassed
            obtain ⟨_, hrun⟩ := hrefuses args clock haccepted.1 ⟨htoken, hheld, hpassed⟩
              (not_le.mp hfresh)
            have hok := haccepted.2
            unfold NodeCall.prog at hok
            rw [isOk_run_discard, hrun] at hok
            cases hok
          · dsimp only at hpassed
            rw [if_neg htoken] at hpassed
            exact hpassed rfl
        · cases hafter
          exact hpassed rfl
    | heartbeat id load report =>
        dsimp only [Tenure.after] at hafter
        split at hafter <;> cases hafter <;> exact hpassed rfl
    | _ =>
        cases hafter
        exact hpassed rfl

/-- In every state of every run, the row shows who holds the node id by the
outcomes of the calls; while the holder is heard of, a join of another instance is
refused and writes nothing; a join of the holder itself is accepted; and the token
passes to another instance only once the holder was not heard of for
`offline_after`. -/
theorem one_instance_per_node (k : Backend) (cfg : NodeConfig) (nodeId : String)
    (hid : nodeId ≠ "") (cs : List TimedNodeCall) (hlocal : ∀ c ∈ cs, c.call.Local)
    (w : Timed (Cluster k)) :
    (Cluster.runCalls cfg cs w).state.tenureOf nodeId =
        tenureAfter cfg nodeId cs w (w.state.tenureOf nodeId) ∧
      ∀ t ∈ tenureAfter cfg nodeId cs w (w.state.tenureOf nodeId),
        InstanceGated cfg nodeId t (Cluster.runCalls cfg cs w).state := by
  have hrow := tenureOf_runCalls cfg nodeId cs hlocal w
  exact ⟨hrow, fun t ht => gated_of_tenureOf hid (hrow.trans ht)⟩

end Gate

section TwoInstances

local instance asciiInstances : Unicode := Unicode.ascii

/-- A worker joins and beats, a second one knocks, the first one falls silent and
the second takes over. -/
theorem one_instance_per_node_takeover :
    let cs : List TimedNodeCall :=
      [⟨.join { nodeId := "node_a", instanceToken := "tok_1" }, fun _ => 0⟩,
        ⟨.heartbeat "node_a" 0 {}, fun _ => 10000000⟩,
        ⟨.join { nodeId := "node_a", instanceToken := "tok_2" }, fun _ => 15000000⟩,
        ⟨.join { nodeId := "node_a", instanceToken := "tok_2" }, fun _ => 40000000⟩]
    (Cluster.runCalls {} cs oneReadyTask).state.tenureOf "node_a" =
        tenureAfter {} "node_a" cs oneReadyTask (oneReadyTask.state.tenureOf "node_a") ∧
      ∀ t ∈ tenureAfter {} "node_a" cs oneReadyTask (oneReadyTask.state.tenureOf "node_a"),
        InstanceGated {} "node_a" t (Cluster.runCalls {} cs oneReadyTask).state :=
  one_instance_per_node .memory {} "node_a" (by decide) _ (by simp [NodeCall.Local]) oneReadyTask

end TwoInstances

end HermesCluster
