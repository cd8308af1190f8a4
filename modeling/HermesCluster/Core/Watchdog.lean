import HermesCluster.Core.NodeManager
/-!
# The two judges of a node's health

A heartbeat is judged by the fields of its report, a watchdog's check by the
last known readings. The two come to the same status exactly if the report
itself breaks a rule, or no reading that it leaves out does, or the store is
Postgres, where a check raises before it judges anything.
-/

namespace HermesCluster

open Program hiding pure bind

/-! ## Readings -/

/-- The stored readings that a report says nothing of. -/
def HealthReport.leftOut (report : HealthReport) (n : NodeRow) : HealthReport where
  diskFreeGb := if report.diskFreeGb.isSome then none else n.diskFreeGb
  cpuLoadPct := if report.cpuLoadPct.isSome then none else n.cpuLoadPct
  laneCount := if report.laneCount.isSome then none else n.laneCount
  duplicateExecutor := if report.duplicateExecutor.isSome then none else n.duplicateExecutor

section Overlay

open NodeHealth

/-- A rule that is silent on an absent reading, asked of a reading that stays in
place if the report has none. -/
theorem rule_overlay {α : Type} {R : Option α → Prop} (hnone : ¬R none)
    (reported stored : Option α) :
    R (reported <|> stored) ↔
      R reported ∨ R (if reported.isSome then none else stored) := by
  cases reported with
  | none => exact (or_iff_right hnone).symm
  | some reading => exact (or_iff_left hnone).symm

theorem NodeConfig.breaks_beat_iff {cfg : NodeConfig} {now : Nat} {load : Rat}
    {report : HealthReport} {reason : String} {n : NodeRow} :
    cfg.Breaks n.maxConcurrent (n.beat now load report reason).readings ↔
      cfg.Breaks n.maxConcurrent report ∨ cfg.Breaks n.maxConcurrent (report.leftOut n) := by
  have hdisk := rule_overlay (R := fun gb => isBelowFloor gb cfg.minFreeDiskGb = true)
    Bool.false_ne_true report.diskFreeGb n.diskFreeGb
  have hdup := rule_overlay (R := fun dup => dup = some true) (by simp)
    report.duplicateExecutor n.duplicateExecutor
  have hlanes := rule_overlay (R := fun lanes => isLaneBacklog lanes n.maxConcurrent = true)
    Bool.false_ne_true report.laneCount n.laneCount
  have hcpu := rule_overlay (R := fun cpu => isCpuSaturated cpu cfg.maxCpuLoad = true)
    Bool.false_ne_true report.cpuLoadPct n.cpuLoadPct
  have hcapacity := (or_congr hlanes hcpu).trans or_or_or_comm
  have hhealth := (or_congr hdup hcapacity).trans or_or_or_comm
  exact (or_congr hdisk hhealth).trans or_or_or_comm

end Overlay

/-! ## Checks after a heartbeat -/

namespace Cluster

variable {k : Backend}

def statusOf (c : Cluster k) (nodeId : String) : Option NodeStatus :=
  (c.nodes.get? nodeId).map (fun n => n.status)

end Cluster

section Checks

variable [Unicode] {k : Backend}

/-- The cluster after some checks of the watchdog, each with its clock readings. -/
def runChecks (cfg : NodeConfig) : List (Nat → Nat) → Timed (Cluster k) → Timed (Cluster k) :=
  runAll Cluster.tick (fun clock w => { w with clock := clock })
    (fun _ => NodeManager.check cfg)

variable {cfg : NodeConfig} {w : Timed (Cluster k)} {nodeId : String} {n : NodeRow}
  {checks : List (Nat → Nat)}

/-- A check of a node. -/
theorem get?_check (hnaive : Cluster.readsAware k = false) (cfg : NodeConfig)
    (h : w.state.nodes.get? nodeId = some n) :
    ((NodeManager.check cfg).run Cluster.tick w).2.state.nodes.get? nodeId =
      some (NodeManager.judge cfg (w.clock 0) n) := by
  obtain ⟨events, nodes, clock, hrun, hget⟩ := NodeManager.run_check hnaive cfg w
  rw [hrun]
  exact (hget nodeId).trans (congrArg (Option.map _) h)

/-- Checks of a node whose heartbeat is fresh give it the status that its
readings call for. -/
theorem statusOf_runChecks (hnaive : Cluster.readsAware k = false)
    (h : w.state.nodes.get? nodeId = some n) (hne : checks ≠ [])
    (hfresh : ∀ clock ∈ checks, cfg.Fresh (clock 0) n.lastHeartbeat) :
    (runChecks cfg checks w).state.statusOf nodeId =
      some (if cfg.Breaks n.maxConcurrent n.readings then .degraded else .online) := by
  induction checks generalizing w n with
  | nil => exact absurd rfl hne
  | cons clock checks ih =>
      rw [List.forall_mem_cons] at hfresh
      have hentered : ({ w with clock := clock } : Timed (Cluster k)).state.nodes.get? nodeId =
        some n := h
      have hjudged := get?_check hnaive cfg hentered
      obtain ⟨hbeat, hceiling, hreadings⟩ :
          (NodeManager.judge cfg (clock 0) n).lastHeartbeat = n.lastHeartbeat ∧
            (NodeManager.judge cfg (clock 0) n).maxConcurrent = n.maxConcurrent ∧
            (NodeManager.judge cfg (clock 0) n).readings = n.readings := by
        unfold NodeManager.judge
        split <;> exact ⟨rfl, rfl, rfl⟩
      rcases eq_or_ne checks [] with rfl | hmore
      · refine (congrArg (Option.map _) hjudged).trans (congrArg some ?_)
        exact (NodeManager.judge_status cfg (clock 0) n).trans (cfg.verdict_of_fresh hfresh.1)
      · have hrest := ih hjudged hmore (hbeat.symm ▸ hfresh.2)
        rw [hceiling, hreadings] at hrest
        exact hrest

/-- Checks of aware heartbeats leave the registry as it is. -/
theorem state_runChecks_aware (haware : Cluster.readsAware k = true) (cfg : NodeConfig)
    (checks : List (Nat → Nat)) (w : Timed (Cluster k)) :
    (runChecks cfg checks w).state = w.state := by
  induction checks generalizing w with
  | nil => rfl
  | cons clock checks ih =>
      exact (ih _).trans (NodeManager.run_check_aware haware cfg { w with clock := clock })

/-- The checks made while a heartbeat is fresh leave the status that the
heartbeat gave, exactly if its report breaks a rule, or none of the stored
readings that it leaves out does, or the checks raise, as they do on Postgres. -/
theorem heartbeat_agrees_iff (k : Backend) (cfg : NodeConfig) (w : Timed (Cluster k))
    (nodeId : String) (load : Rat) (report : HealthReport) (n : NodeRow)
    (h : w.state.nodes.get? nodeId = some n) (checks : List (Nat → Nat)) (hne : checks ≠ [])
    (hfresh : ∀ clock ∈ checks, cfg.Fresh (clock 0) (w.clock 1)) :
    let beaten := ((NodeManager.sendHeartbeat cfg nodeId load report).run Cluster.tick w).2
    (runChecks cfg checks beaten).state.statusOf nodeId = beaten.state.statusOf nodeId ↔
      k = .sql .postgres ∨ cfg.Breaks n.maxConcurrent report ∨
        ¬cfg.Breaks n.maxConcurrent (report.leftOut n) := by
  intro beaten
  by_cases hpostgres : k = .sql .postgres
  · have haware : Cluster.readsAware k = true := decide_eq_true hpostgres
    rw [state_runChecks_aware haware]
    exact iff_of_true rfl (.inl hpostgres)
  have hnaive : Cluster.readsAware k = false := decide_eq_false hpostgres
  rw [or_iff_right hpostgres]
  let beat : NodeRow := n.beat (w.clock 1) (max 0 (min 1 load)) report
    (cfg.reportReason n.maxConcurrent report)
  have hbeaten : beaten.state.nodes.get? nodeId = some beat := by
    unfold beaten
    rw [NodeManager.run_sendHeartbeat_some w h]
    have hget := w.state.nodes.get?_modify_self nodeId (NodeRow.beat (w.clock 1)
      (max 0 (min 1 load)) report (cfg.reportReason n.maxConcurrent report)) (fun _ => rfl)
    exact hget.trans (congrArg (Option.map _) h)
  have hstatus : beaten.state.statusOf nodeId =
      some (if cfg.Breaks n.maxConcurrent report then .degraded else .online) := by
    refine (congrArg (Option.map _) hbeaten).trans (congrArg some ?_)
    change (if cfg.reportReason n.maxConcurrent report = "" then _ else _) = _
    simp only [cfg.reportReason_eq_empty_iff, ite_not]
  have hchecked : (runChecks cfg checks beaten).state.statusOf nodeId = some
      (if cfg.Breaks n.maxConcurrent beat.readings then .degraded else .online) :=
    statusOf_runChecks hnaive hbeaten hne hfresh
  rw [hchecked, hstatus]
  simp only [beat, NodeConfig.breaks_beat_iff]
  by_cases hreport : cfg.Breaks n.maxConcurrent report
  · simp only [hreport, true_or, if_true]
  · by_cases hleft : cfg.Breaks n.maxConcurrent (report.leftOut n) <;>
      simp [hreport, hleft]

end Checks

section SilentHeartbeat

local instance asciiHeartbeats : Unicode := Unicode.ascii

/-- A node that once reported a full disk, and a heartbeat that says nothing of it. -/
def fullDiskCluster : Timed (Cluster .memory) where
  state :=
    { nodes := Table.empty.upsert
        { id := "node_a", status := .degraded, diskFreeGb := some 1 }
      rest := Backend.memory.empty }
  clock := fun _ => 100000000

/-- The heartbeat puts the node online, the next check five seconds later puts it
back to degraded. -/
theorem silent_heartbeat_flaps :
    let beaten := ((NodeManager.sendHeartbeat {} "node_a" 0 {}).run Cluster.tick
      fullDiskCluster).2
    beaten.state.statusOf "node_a" = some .online ∧
      (runChecks {} [fun _ => 105000000] beaten).state.statusOf "node_a" = some .degraded := by
  decide +kernel

theorem heartbeat_agrees_on_full_disk :
    let beaten := ((NodeManager.sendHeartbeat {} "node_a" 0 { diskFreeGb := some 2 }).run
      Cluster.tick fullDiskCluster).2
    (runChecks {} [fun _ => 105000000] beaten).state.statusOf "node_a" =
      beaten.state.statusOf "node_a" :=
  (heartbeat_agrees_iff .memory {} fullDiskCluster "node_a" 0 { diskFreeGb := some 2 }
    { id := "node_a", status := .degraded, diskFreeGb := some 1 } (by decide)
    [fun _ => 105000000] (by decide) (by decide +kernel)).mpr (.inr (.inl (by decide)))

end SilentHeartbeat

end HermesCluster
