import HermesCluster.Lib.Machine
import HermesCluster.Routers.InstanceGate
/-!
# Declared capabilities

A node declares what it can do with a join, or someone does for it. A declaration
counts once the call reports success, and the row of the node should then name what
was declared last. The node manager compares a declaration with a cache of its own,
which a rejoin, the router and a restart leave behind.
-/

namespace HermesCluster

open Program hiding pure bind
open NodeManager (query)

/-! ## The row under an operation -/

/-- The capabilities that the stored row shows. -/
def Cluster.capsOf {k : Backend} (c : Cluster k) (nodeId : String) : Option (List String) :=
  (c.nodes.get? nodeId).map (fun n => n.capabilities)

/-- What an operation makes of the capabilities of a node. -/
def NodeOp.onCaps (nodeId : String) : NodeOp → Option (List String) → Option (List String)
  | .registerNode node, caps => if node.id = nodeId then some node.capabilities else caps
  | .updateCapabilities id declared, caps =>
      if id = nodeId then caps.map (fun _ => declared) else caps
  | _, caps => caps

/-- The operations that leave the capabilities of a node alone. -/
def NodeOp.SparesCaps (nodeId : String) : NodeOp → Prop
  | .registerNode node => node.id ≠ nodeId
  | .updateCapabilities id _ => id ≠ nodeId
  | _ => True

section Rows

variable [Unicode] {k : Backend} {nodeId : String}

theorem Cluster.capsOf_step (now : Nat) (op : NodeOp) (c : Cluster k) (nodeId : String) :
    (c.step now op).2.capsOf nodeId = op.onCaps nodeId (c.capsOf nodeId) := by
  unfold capsOf
  rw [get?_step]
  cases op with
  | registerNode | updateHeartbeat | updateInstanceToken | updateCapabilities | setDrained
  | updateMaxConcurrent | setNodeStatus =>
      dsimp only [NodeOp.onRow, NodeOp.onCaps]
      split
      · cases c.nodes.get? nodeId <;> rfl
      · rfl
  | _ => rfl

theorem Cluster.capsOf_step_of_spares (now : Nat) {op : NodeOp} (c : Cluster k)
    (hop : op.SparesCaps nodeId) : (c.step now op).2.capsOf nodeId = c.capsOf nodeId := by
  rw [capsOf_step]
  cases op with
  | registerNode | updateCapabilities => exact if_neg hop
  | _ => rfl

theorem capsOf_run_of_only {α : Type} {p : NodeApi α}
    (hp : p.Only (fun op => op.SparesCaps nodeId)) (w : Timed (Cluster k)) :
    (p.run Cluster.tick w).2.state.capsOf nodeId = w.state.capsOf nodeId := by
  have hkeeps : p.Keeps Cluster.tick (fun _ _ _ => True)
      (fun w' => w'.state.capsOf nodeId = w.state.capsOf nodeId) w :=
    keeps_of_along (along_of_only hp) rfl
      (fun w' _ hsame hop => ⟨trivial, (w'.state.capsOf_step_of_spares _ hop).trans hsame⟩)
  exact hkeeps.2

/-! ## Joins -/

variable {cfg : NodeConfig}

theorem capsOf_sendHeartbeat (cfg : NodeConfig) (nodeId : String) (w : Timed (Cluster k))
    (load : Rat) (report : HealthReport) :
    ∃ w', (NodeManager.sendHeartbeat cfg nodeId load report).run Cluster.tick w = (.ok (), w') ∧
      w'.state.capsOf nodeId = w.state.capsOf nodeId := by
  cases hget : w.state.nodes.get? nodeId with
  | none => exact ⟨_, NodeManager.run_sendHeartbeat_none w hget load report, rfl⟩
  | some n =>
      refine ⟨_, NodeManager.run_sendHeartbeat_some w hget load report, ?_⟩
      exact w.state.capsOf_step (w.clock 1) (.updateHeartbeat nodeId (max 0 (min 1 load)) report
        (cfg.reportReason n.maxConcurrent report)) nodeId

theorem capsOf_onlyIf (c : Prop) [Decidable c] (op : NodeOp) (w : Timed (Cluster k))
    (nodeId : String) :
    (if c then (Cluster.tick op w).2 else w).state.capsOf nodeId =
      if c then op.onCaps nodeId (w.state.capsOf nodeId) else w.state.capsOf nodeId := by
  split
  · exact w.state.capsOf_step _ op nodeId
  · rfl

/-- What a join of a node leaves of its capabilities: nothing declared is not a
declaration of nothing. -/
def joinedCaps (declared : List String) : Option (List String) → List String
  | none => declared
  | some stored => if declared ≠ [] then declared else stored

theorem run_rejoin_caps (cfg : NodeConfig) (w : Timed (Cluster k)) (args : JoinArgs)
    {stored : List String}
    (hstored : w.state.capsOf args.nodeId = some stored) :
    ∃ n w', (NodeManager.rejoin cfg args).run Cluster.tick w = (.ok n, w') ∧
      w'.state.capsOf args.nodeId = some (joinedCaps args.capabilities (some stored)) := by
  obtain ⟨w₁, hbeat, hcaps⟩ :=
    capsOf_sendHeartbeat cfg args.nodeId w 0 args.report
  let w₂ := if args.capabilities ≠ [] then
      (Cluster.tick (.updateCapabilities args.nodeId args.capabilities) w₁).2 else w₁
  let w₃ := if args.maxConcurrent ≠ 0 then
      (Cluster.tick (.updateMaxConcurrent args.nodeId args.maxConcurrent) w₂).2 else w₂
  let w₄ := if args.instanceToken ≠ "" then
      (Cluster.tick (.updateInstanceToken args.nodeId args.instanceToken) w₃).2 else w₃
  have hrun : (NodeManager.rejoin cfg args).run Cluster.tick w =
      (.ok (w₄.state.nodes.get? args.nodeId), (Cluster.tick (.getNode args.nodeId) w₄).2) := by
    unfold NodeManager.rejoin
    rw [run_bind_of_eq hbeat, run_bind_of_eq (NodeManager.run_onlyIf w₁ _ _ rfl),
      run_bind_of_eq (NodeManager.run_onlyIf w₂ _ _ rfl),
      run_bind_of_eq (NodeManager.run_onlyIf w₃ _ _ rfl)]
    rfl
  have hcaps₂ : w₂.state.capsOf args.nodeId =
      some (joinedCaps args.capabilities (some stored)) := by
    have hstep := capsOf_onlyIf (args.capabilities ≠ [])
      (.updateCapabilities args.nodeId args.capabilities) w₁ args.nodeId
    refine hstep.trans ?_
    rw [hcaps, hstored]
    unfold joinedCaps
    split
    · exact if_pos rfl
    · rfl
  have hcaps₃ : w₃.state.capsOf args.nodeId = w₂.state.capsOf args.nodeId :=
    (capsOf_onlyIf (args.maxConcurrent ≠ 0)
      (.updateMaxConcurrent args.nodeId args.maxConcurrent) w₂ args.nodeId).trans (ite_self _)
  have hcaps₄ : w₄.state.capsOf args.nodeId = w₃.state.capsOf args.nodeId :=
    (capsOf_onlyIf (args.instanceToken ≠ "")
      (.updateInstanceToken args.nodeId args.instanceToken) w₃ args.nodeId).trans (ite_self _)
  exact ⟨_, _, hrun, hcaps₄.trans (hcaps₃.trans hcaps₂)⟩

/-- A join that is accepted. -/
theorem run_join_caps {w : Timed (Cluster k)} {args : JoinArgs}
    (hok : ((NodeManager.join cfg args).run Cluster.tick w).1.isOk = true) :
    ((NodeManager.join cfg args).run Cluster.tick w).2.state.capsOf args.nodeId =
      some (joinedCaps args.capabilities (w.state.capsOf args.nodeId)) := by
  unfold NodeManager.join at hok ⊢
  by_cases hid : args.nodeId = ""
  · rw [if_pos hid] at hok
    cases hok
  rw [if_neg hid] at hok ⊢
  cases hget : w.state.nodes.get? args.nodeId with
  | none =>
      have hnone : w.state.capsOf args.nodeId = none := by
        unfold Cluster.capsOf
        rw [hget]
        rfl
      rw [hnone]
      simp only [query, perform_bind, run, timed, Cluster.step, hget]
      have hstep := w.state.capsOf_step 0
        (.registerNode (NodeManager.joinedRow cfg args (w.clock 0))) args.nodeId
      exact hstep.trans (if_pos rfl)
  | some n =>
      have hstored : w.state.capsOf args.nodeId = some n.capabilities := by
        unfold Cluster.capsOf
        rw [hget]
        rfl
      rw [hstored]
      simp only [query, perform_bind, run, timed, Cluster.step, hget] at hok ⊢
      split at hok
      · cases hok
      · rename_i hopen
        rw [if_neg hopen]
        obtain ⟨m, w', hrun, hcaps⟩ := run_rejoin_caps cfg
          ⟨w.state, fun i => w.clock (i + 1 + 1)⟩ args hstored
        rw [hrun]
        exact hcaps

/-! ## The other declarations -/

/-- An update through the node manager: it is dropped where the cache names the
same. -/
theorem run_updateCapabilities_some {w : Timed (Cluster k)} {stored : List String}
    (hstored : w.state.capsOf nodeId = some stored) (declared : List String) :
    ((NodeManager.updateCapabilities nodeId declared).run Cluster.tick w).1 = .ok true ∧
      ((NodeManager.updateCapabilities nodeId declared).run Cluster.tick w).2.state.capsOf nodeId =
        some (if NodeManager.sortedCaps
              (((w.state.capCache.get? nodeId).map CapEntry.caps).getD []) =
            NodeManager.sortedCaps declared then stored
          else NodeManager.sortedCaps declared) := by
  obtain ⟨n, hget, hn⟩ := Option.map_eq_some_iff.mp hstored
  unfold NodeManager.updateCapabilities
  simp only [query, perform_bind, run, timed, Cluster.step, hget]
  split
  · exact ⟨rfl, hstored⟩
  · refine ⟨rfl, ?_⟩
    have hstep := w.state.capsOf_step 0
      (.updateCapabilities nodeId (NodeManager.sortedCaps declared)) nodeId
    rw [hstored] at hstep
    exact hstep.trans (if_pos rfl)

theorem run_updateCapabilities_none {w : Timed (Cluster k)}
    (hnone : w.state.capsOf nodeId = none) (declared : List String) :
    (NodeManager.updateCapabilities nodeId declared).run Cluster.tick w =
      (.ok false, ⟨w.state, fun i => w.clock (i + 1)⟩) := by
  have hget : w.state.nodes.get? nodeId = none := Option.map_eq_none_iff.mp hnone
  unfold NodeManager.updateCapabilities
  simp only [query, perform_bind, run, timed, Cluster.step, hget]
  rfl

theorem run_patchCapabilities {w : Timed (Cluster k)} {declared : List String}
    (hok : ((NodesRouter.updateCapabilities nodeId declared).run Cluster.tick w).1.isOk = true) :
    ((NodesRouter.updateCapabilities nodeId declared).run Cluster.tick w).2.state.capsOf nodeId =
      some declared := by
  unfold NodesRouter.updateCapabilities NodesRouter.withNode at hok ⊢
  cases hget : w.state.nodes.get? nodeId with
  | none =>
      simp only [query, perform_bind, run, timed, Cluster.step, hget] at hok
      cases hok
  | some n =>
      have hstored : w.state.capsOf nodeId = some n.capabilities := by
        unfold Cluster.capsOf
        rw [hget]
        rfl
      have hstep := w.state.capsOf_step 0 (.updateCapabilities nodeId declared) nodeId
      rw [hstored] at hstep
      simp only [query, perform_bind, run, timed, Cluster.step, hget]
      exact hstep.trans (if_pos rfl)

theorem run_patchCapabilities_failed {w : Timed (Cluster k)} {declared : List String}
    (hfailed : ((NodesRouter.updateCapabilities nodeId declared).run Cluster.tick w).1.isOk =
      false) :
    ((NodesRouter.updateCapabilities nodeId declared).run Cluster.tick w).2.state = w.state := by
  unfold NodesRouter.updateCapabilities NodesRouter.withNode at hfailed ⊢
  cases hget : w.state.nodes.get? nodeId with
  | none =>
      simp only [query, perform_bind, run, timed, Cluster.step, hget]
  | some n =>
      simp only [query, perform_bind, run, timed, Cluster.step, hget] at hfailed
      cases hfailed

end Rows

/-! ## Runs -/

/-- A call on the registry, or the node manager starts anew over the same store. -/
inductive RegistryEvent where
  | call (c : TimedNodeCall)
  | restart

/-- The node of a declaration, and what is declared. -/
def NodeCall.declares : NodeCall → Option (String × List String)
  | .join args => some (args.nodeId, args.capabilities)
  | .updateCapabilities nodeId declared | .patchCapabilities nodeId declared =>
      some (nodeId, declared)
  | _ => none

section Runs

variable [Unicode] {k : Backend} {cfg : NodeConfig}

/-- Whether a call reports success, and where it ends; the node manager's update
says so by what it returns. -/
def NodeCall.outcome (cfg : NodeConfig) (c : NodeCall) (w : Timed (Cluster k)) :
    Bool × Timed (Cluster k) :=
  match c with
  | .updateCapabilities nodeId declared =>
      let out := (NodeManager.updateCapabilities nodeId declared).run Cluster.tick w
      (match out.1 with
        | .ok updated => updated
        | .error _ => false, out.2)
  | c => (((c.prog cfg).run Cluster.tick w).1.isOk, ((c.prog cfg).run Cluster.tick w).2)

/-- The registry under calls and restarts, with whether each call reports success. -/
def registry (cfg : NodeConfig) : Machine (Timed (Cluster k)) RegistryEvent Bool
  | .call c, w => c.call.outcome cfg (c.enter w)
  | .restart, w => (true, { w with state := { w.state with capCache := Table.empty } })

/-- What a step declares for a node, if it reports success. -/
def declarationOf (nodeId : String) (x : RegistryEvent × Bool) : Option (List String) :=
  match x.1 with
  | .restart => none
  | .call c =>
      if x.2 = true then
        (c.call.declares.filter (fun d => decide (d.1 = nodeId))).map Prod.snd
      else none

/-- What was last declared for a node. -/
def lastDeclared (nodeId : String) (run : List (RegistryEvent × Bool)) : Option (List String) :=
  (run.filterMap (declarationOf nodeId)).getLast?

/-- The same capabilities, in any order. -/
def SameCaps (a b : List String) : Prop :=
  ∀ cap, cap ∈ a ↔ cap ∈ b

/-- The row of every node names what was last declared for it. -/
def Declared (run : List (RegistryEvent × Bool)) (c : Cluster k) : Prop :=
  ∀ nodeId, ∀ declared ∈ lastDeclared nodeId run,
    ∃ stored ∈ c.capsOf nodeId, SameCaps stored declared

/-- A join that is turned away. -/
def JoinRefused (cfg : NodeConfig) (args : JoinArgs) (clock : Nat → Nat) (c : Cluster k) : Prop :=
  args.nodeId = "" ∨ ∃ n ∈ c.nodes.get? args.nodeId,
    NodeManager.OtherInstance args n.instanceToken ∧
      NodeConfig.elapsed (clock 0) n.lastHeartbeat < cfg.offlineAfter

/-- A declaration that is not dropped: a node that is let join again declares
something, unless nothing is stored; an update differs from what the cache names,
unless it is what is stored. -/
def Heard (cfg : NodeConfig) (e : RegistryEvent) (w : Timed (Cluster k)) : Prop :=
  match e with
  | .call ⟨.join args, clock⟩ =>
      ¬JoinRefused cfg args clock w.state → args.capabilities = [] →
        ∀ stored ∈ w.state.capsOf args.nodeId, stored = []
  | .call ⟨.updateCapabilities nodeId declared, _⟩ =>
      ∀ stored ∈ w.state.capsOf nodeId,
        NodeManager.sortedCaps (((w.state.capCache.get? nodeId).map CapEntry.caps).getD []) =
          NodeManager.sortedCaps declared → SameCaps stored declared
  | _ => True

omit [Unicode] in
theorem SameCaps.refl (caps : List String) : SameCaps caps caps := fun _ => Iff.rfl

omit [Unicode] in
theorem sameCaps_sortedCaps (caps : List String) : SameCaps (NodeManager.sortedCaps caps) caps :=
  fun _ => (List.perm_insertionSort _ caps).mem_iff

theorem outcome_snd (c : NodeCall) (w : Timed (Cluster k)) :
    (c.outcome cfg w).2 = ((c.prog cfg).run Cluster.tick w).2 := by
  cases c with
  | updateCapabilities nodeId declared => exact (run_discard _ _ _ _).symm
  | _ => rfl

/-! ## A step -/

omit [Unicode] in
theorem only_sparesCaps {c : NodeCall} {nodeId : String} (hlocal : c.Local)
    (hother : ∀ d ∈ c.declares, d.1 ≠ nodeId) :
    (c.prog cfg).Only (fun op => op.SparesCaps nodeId) := by
  refine (c.only cfg).mono (fun op hop => ?_)
  cases hop with
  | idle h => cases op <;> first | exact h.elim | trivial
  | register hid => exact fun hnode => hother _ rfl (hid.symm.trans hnode)
  | rejoinCaps | updateCaps | patchCaps => exact hother _ rfl
  | received => exact absurd rfl (hlocal _)
  | _ => trivial

theorem capsOf_of_other (cfg : NodeConfig) {c : NodeCall} {nodeId : String} (hlocal : c.Local)
    (hother : ∀ d ∈ c.declares, d.1 ≠ nodeId) (w : Timed (Cluster k)) :
    (c.outcome cfg w).2.state.capsOf nodeId = w.state.capsOf nodeId := by
  rw [outcome_snd]
  exact capsOf_run_of_only (only_sparesCaps hlocal hother) w

theorem run_join_failed {w : Timed (Cluster k)} {args : JoinArgs}
    (hfailed : ((NodeManager.join cfg args).run Cluster.tick w).1.isOk = false) :
    ((NodeManager.join cfg args).run Cluster.tick w).2.state = w.state := by
  unfold NodeManager.join at hfailed ⊢
  by_cases hid : args.nodeId = ""
  · rw [if_pos hid]
    rfl
  rw [if_neg hid] at hfailed ⊢
  cases hget : w.state.nodes.get? args.nodeId with
  | none =>
      simp only [query, perform_bind, run, timed, Cluster.step, hget] at hfailed
      cases hfailed
  | some n =>
      have hstored : w.state.capsOf args.nodeId = some n.capabilities := by
        unfold Cluster.capsOf
        rw [hget]
        rfl
      simp only [query, perform_bind, run, timed, Cluster.step, hget] at hfailed ⊢
      split at hfailed
      · rename_i hgate
        rw [if_pos hgate]
        rfl
      · obtain ⟨m, w', hrun, -⟩ := run_rejoin_caps cfg
          ⟨w.state, fun i => w.clock (i + 1 + 1)⟩ args hstored
        rw [hrun] at hfailed
        cases hfailed

/-- A join that is accepted was not turned away. -/
theorem not_joinRefused_of_ok {c : Cluster k} {clock : Nat → Nat} {args : JoinArgs}
    (hok : ((NodeManager.join cfg args).run Cluster.tick ⟨c, clock⟩).1.isOk = true) :
    ¬JoinRefused cfg args clock c := by
  rintro (hid | ⟨n, hget, hother, hage⟩)
  · unfold NodeManager.join at hok
    rw [if_pos hid] at hok
    cases hok
  · by_cases hid : args.nodeId = ""
    · unfold NodeManager.join at hok
      rw [if_pos hid] at hok
      cases hok
    · have hrow : c.tenureOf args.nodeId = some ⟨n.instanceToken, n.lastHeartbeat⟩ :=
        Option.map_eq_some_iff.mpr ⟨n, hget, rfl⟩
      obtain ⟨clock', hrun⟩ := run_join_refused cfg (w := ⟨c, clock⟩) hid hrow hother hage
      rw [hrun] at hok
      cases hok

/-- So does a declaration that fails. -/
theorem capsOf_of_failed {c : NodeCall} {nodeId : String} {declared : List String}
    (hdeclares : c.declares = some (nodeId, declared)) {w : Timed (Cluster k)}
    (hfailed : (c.outcome cfg w).1 = false) :
    (c.outcome cfg w).2.state.capsOf nodeId = w.state.capsOf nodeId := by
  cases c with
  | join args =>
      have hprog : (NodeCall.join args).outcome cfg w =
          (((NodeManager.join cfg args).run Cluster.tick w).1.isOk,
            ((NodeManager.join cfg args).run Cluster.tick w).2) :=
        Prod.ext (isOk_run_discard _ _ _ _) (run_discard _ _ _ _)
      rw [hprog] at hfailed ⊢
      exact congrArg (fun c => c.capsOf nodeId) (run_join_failed hfailed)
  | updateCapabilities id caps =>
      cases hdeclares
      dsimp only [NodeCall.outcome] at hfailed ⊢
      cases hstored : w.state.capsOf nodeId with
      | none =>
          rw [run_updateCapabilities_none hstored]
          exact hstored
      | some stored =>
          rw [(run_updateCapabilities_some hstored declared).1] at hfailed
          cases hfailed
  | patchCapabilities id caps =>
      cases hdeclares
      exact congrArg (fun c => c.capsOf nodeId) (run_patchCapabilities_failed hfailed)
  | _ => cases hdeclares

/-- A declaration that reports success is stored exactly when it is heard. -/
theorem capsOf_of_declared {c : TimedNodeCall} {nodeId : String} {declared : List String}
    (hdeclares : c.call.declares = some (nodeId, declared)) {w : Timed (Cluster k)}
    (hok : (c.call.outcome cfg (c.enter w)).1 = true) :
    ∃ stored, (c.call.outcome cfg (c.enter w)).2.state.capsOf nodeId = some stored ∧
      (SameCaps stored declared ↔ Heard cfg (.call c) w) := by
  obtain ⟨call, clock⟩ := c
  cases call with
  | join args =>
      cases hdeclares
      have hprog : (NodeCall.join args).outcome cfg ⟨w.state, clock⟩ =
          (((NodeManager.join cfg args).run Cluster.tick ⟨w.state, clock⟩).1.isOk,
            ((NodeManager.join cfg args).run Cluster.tick ⟨w.state, clock⟩).2) :=
        Prod.ext (isOk_run_discard _ _ _ _) (run_discard _ _ _ _)
      dsimp only [TimedNodeCall.enter] at hok ⊢
      rw [hprog] at hok ⊢
      refine ⟨_, run_join_caps hok, ?_⟩
      have hopen := not_joinRefused_of_ok hok
      cases hstored : w.state.capsOf args.nodeId with
      | none =>
          refine iff_of_true (SameCaps.refl _) (fun _ _ stored hmem => ?_)
          rw [hstored] at hmem
          cases hmem
      | some stored =>
          by_cases hlist : args.capabilities = []
          · have hkept : joinedCaps args.capabilities (some stored) = stored :=
              if_neg (fun h => h hlist)
            rw [hkept, hlist]
            constructor
            · intro hsame _ _ other hmem
              rw [hstored] at hmem
              cases hmem
              exact List.eq_nil_iff_forall_not_mem.mpr
                (fun cap hcap => List.not_mem_nil ((hsame cap).mp hcap))
            · intro hheard
              rw [hheard hopen hlist stored hstored]
              exact SameCaps.refl _
          · have hsent : joinedCaps args.capabilities (some stored) = args.capabilities :=
              if_pos hlist
            rw [hsent]
            exact iff_of_true (SameCaps.refl _) (fun _ hempty => absurd hempty hlist)
  | updateCapabilities id caps =>
      cases hdeclares
      dsimp only [NodeCall.outcome, TimedNodeCall.enter] at hok ⊢
      cases hstored : w.state.capsOf nodeId with
      | none =>
          have hrun := run_updateCapabilities_none (w := ⟨w.state, clock⟩) hstored declared
          rw [hrun] at hok
          cases hok
      | some stored =>
          obtain ⟨-, hcaps⟩ :=
            run_updateCapabilities_some (w := ⟨w.state, clock⟩) hstored declared
          refine ⟨_, hcaps, ?_⟩
          have hheard : Heard cfg (.call ⟨.updateCapabilities nodeId declared, clock⟩) w ↔
              (NodeManager.sortedCaps
                  (((w.state.capCache.get? nodeId).map CapEntry.caps).getD []) =
                NodeManager.sortedCaps declared → SameCaps stored declared) := by
            constructor
            · exact fun h => h stored hstored
            · intro h other hmem
              rw [hstored] at hmem
              cases hmem
              exact h
          rw [hheard]
          split
          · rename_i hsame
            exact ⟨fun h _ => h, fun h => h hsame⟩
          · rename_i hchanged
            exact iff_of_true (sameCaps_sortedCaps declared) (fun h => absurd h hchanged)
  | patchCapabilities id caps =>
      cases hdeclares
      exact ⟨_, run_patchCapabilities hok, iff_of_true (SameCaps.refl _) trivial⟩
  | _ => cases hdeclares

omit [Unicode] in
theorem lastDeclared_concat (nodeId : String) (past : List (RegistryEvent × Bool))
    (x : RegistryEvent × Bool) :
    lastDeclared nodeId (past ++ [x]) =
      (declarationOf nodeId x).or (lastDeclared nodeId past) := by
  unfold lastDeclared
  rw [List.filterMap_append]
  cases hx : declarationOf nodeId x with
  | none =>
      rw [List.filterMap_cons_none hx, List.filterMap_nil, List.append_nil]
      rfl
  | some declared =>
      rw [List.filterMap_cons_some hx, List.filterMap_nil, List.getLast?_concat]
      rfl

/-- The calls of this registry alone. -/
def RegistryEvent.Local : RegistryEvent → Prop
  | .call c => c.call.Local
  | .restart => True

/-- A step whose declaration, if it makes one, is heard. -/
theorem declared_step {past : List (RegistryEvent × Bool)} {e : RegistryEvent}
    {w : Timed (Cluster k)} (hpast : Declared past w.state) (hlocal : e.Local)
    (hheard : Heard cfg e w) :
    Declared (past ++ [(e, (registry cfg e w).1)]) (registry cfg e w).2.state := by
  intro nodeId declared hlast
  rw [lastDeclared_concat] at hlast
  cases e with
  | restart => exact hpast nodeId declared hlast
  | call c =>
      cases hdeclares : c.call.declares.filter (fun d => decide (d.1 = nodeId)) with
      | none =>
          have hother : ∀ d ∈ c.call.declares, d.1 ≠ nodeId :=
            fun d hd => of_decide_eq_false (Bool.eq_false_iff.mpr
              (Option.filter_eq_none_iff.mp hdeclares d hd))
          have hquiet : declarationOf nodeId (.call c, (registry cfg (.call c) w).1) = none := by
            unfold declarationOf
            dsimp only
            rw [hdeclares]
            exact ite_self _
          rw [hquiet] at hlast
          have hkept := capsOf_of_other cfg hlocal hother (c.enter w)
          obtain ⟨stored, hstored, hsame⟩ := hpast nodeId declared hlast
          exact ⟨stored, hkept.trans hstored, hsame⟩
      | some d =>
          obtain ⟨hd, hnode⟩ := Option.filter_eq_some_iff.mp hdeclares
          obtain ⟨id, caps⟩ := d
          have hid : id = nodeId := of_decide_eq_true hnode
          subst hid
          cases hout : (c.call.outcome cfg (c.enter w)).1 with
          | false =>
              have hquiet :
                  declarationOf id (.call c, (registry cfg (.call c) w).1) = none :=
                if_neg (fun h => Bool.false_ne_true (hout.symm.trans h))
              rw [hquiet] at hlast
              have hkept := capsOf_of_failed hd hout
              obtain ⟨stored, hstored, hsame⟩ := hpast id declared hlast
              exact ⟨stored, hkept.trans hstored, hsame⟩
          | true =>
              have hmade : declarationOf id (.call c, (registry cfg (.call c) w).1) =
                  some caps := by
                unfold declarationOf
                dsimp only
                rw [hdeclares]
                exact if_pos hout
              rw [hmade] at hlast
              cases hlast
              obtain ⟨stored, hstored, hexact⟩ := capsOf_of_declared hd hout
              exact ⟨stored, hstored, hexact.mpr hheard⟩

end Runs

/-- In every run in which each declaration is heard, the row of every node names
what was last declared for it. -/
theorem row_is_last_declared [Unicode] (k : Backend) (cfg : NodeConfig)
    (es : List RegistryEvent) (hlocal : ∀ e ∈ es, e.Local) (w : Timed (Cluster k))
    (hheard : (registry cfg).Meets (Heard cfg) es w) :
    Declared ((registry cfg).answers es w) ((registry cfg).after es w).state := by
  have hmeets : (registry cfg).Meets (fun e w => e.Local ∧ Heard cfg e w) es w :=
    (Machine.meets_of_forall hlocal).and hheard
  exact Machine.tracks_of_step (I := fun past w => Declared past w.state)
    (fun _ _ h => by cases h) hmeets
    (fun _ _ _ hpast h => declared_step hpast h.1 h.2)

section DroppedDeclarations

local instance asciiDeclarations : Unicode := Unicode.ascii

/-- A node joins, leaves, and declares nothing: the update reports success, but the
cache was emptied when the node left, and the row keeps what the join declared. -/
theorem left_node_keeps_capabilities :
    let es : List RegistryEvent :=
      [.call ⟨.join { nodeId := "node_a", capabilities := ["docker"] }, fun _ => 0⟩,
        .call ⟨.leave "node_a", fun _ => 0⟩,
        .call ⟨.updateCapabilities "node_a" [], fun _ => 0⟩]
    (∀ e ∈ es, e.Local) ∧
      ¬Declared ((registry {}).answers es oneReadyTask)
        ((registry {}).after es oneReadyTask).state := by
  refine ⟨by simp [RegistryEvent.Local, NodeCall.Local], fun h => ?_⟩
  obtain ⟨stored, hstored, hsame⟩ := h "node_a" [] rfl
  have hkept : some ["docker"] = some stored := hstored
  cases hkept
  exact List.not_mem_nil ((hsame "docker").mp List.mem_cons_self)

/-- A node joins, declares less, and after a restart declares something else. -/
theorem row_is_last_declared_updated :
    let es : List RegistryEvent :=
      [.call ⟨.join { nodeId := "node_a", capabilities := ["docker", "gpu"] }, fun _ => 0⟩,
        .call ⟨.patchCapabilities "node_a" [], fun _ => 0⟩,
        .restart,
        .call ⟨.updateCapabilities "node_a" ["docker"], fun _ => 0⟩]
    Declared ((registry {}).answers es oneReadyTask)
      ((registry {}).after es oneReadyTask).state := by
  refine row_is_last_declared .memory {} _ (by simp [RegistryEvent.Local, NodeCall.Local])
    oneReadyTask ?_
  refine ⟨fun _ h => ?_, trivial, trivial, fun _ _ h => ?_, trivial⟩
  · cases h
  · exact absurd h (by decide)

end DroppedDeclarations

end HermesCluster
