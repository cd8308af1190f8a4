import HermesCluster.State.NodeRegistry
/-!
# Node health

The rules under which a node is degraded, on the readings it reports: free disk,
a second executor, a lane backlog, a saturated processor. Each is a pure
function of one reading and of what the main node configures for it.
-/

namespace HermesCluster

/-- What the main node configures; the two waits are seconds. -/
structure NodeConfig where
  minFreeDiskGb : Rat := 5
  maxCpuLoad : Rat := 0
  degradedAfter : Rat := 15
  offlineAfter : Rat := 30

namespace NodeHealth

/-! ## The rules -/

/-- `is_below_floor`. -/
def isBelowFloor (freeGb : Option Rat) (minFreeGb : Rat) : Bool :=
  freeGb.any (fun gb => decide (0 < minFreeGb ∧ gb < minFreeGb))

/-- `disk_reason`. -/
def diskReason (freeGb : Option Rat) (minFreeGb : Rat) : String :=
  if isBelowFloor freeGb minFreeGb then
    "disk below floor: " ++ Text.fixed 2 (freeGb.getD 0) ++ " GB free < " ++
      Text.fixed 1 minFreeGb ++ " GB " ++
      "(node.min_free_disk_gb, shared/claude-plugins#892)"
  else ""

/-- `is_cpu_saturated`. -/
def isCpuSaturated (cpu : Option Rat) (maxCpuLoad : Rat) : Bool :=
  cpu.any (fun load => decide (0 < maxCpuLoad ∧ maxCpuLoad ≤ load))

/-- `is_lane_backlog`. -/
def isLaneBacklog (laneCount : Option Int) (maxConcurrent : Int) : Bool :=
  laneCount.any (fun lanes => decide (0 < maxConcurrent ∧ maxConcurrent < lanes))

def duplicateReason : String :=
  "duplicate executor: another live executor shares this node id " ++
    "(#899) — lanes are being spawned twice"

def backlogReason (laneCount maxConcurrent : Int) : String :=
  "lane backlog: " ++ toString laneCount ++ " live lanes > declared " ++
    "max_concurrent " ++ toString maxConcurrent ++ " (#879 duplicate-executor " ++
    "fingerprint)"

def cpuReason (cpu maxCpuLoad : Rat) : String :=
  "cpu saturated: " ++ Text.fixed 2 cpu ++ " >= node.max_cpu_load " ++
    Text.fixed 2 maxCpuLoad ++ " (#879)"

/-- The causes that `health_reason` composes. -/
def healthParts (cpu : Option Rat) (maxCpuLoad : Rat) (laneCount : Option Int)
    (maxConcurrent : Int) (duplicateExecutor : Option Bool) : List String :=
  (if duplicateExecutor = some true then [duplicateReason] else []) ++
  (if isLaneBacklog laneCount maxConcurrent then
    [backlogReason (laneCount.getD 0) maxConcurrent] else []) ++
  (if isCpuSaturated cpu maxCpuLoad then [cpuReason (cpu.getD 0) maxCpuLoad] else [])

/-- `health_reason`. -/
def healthReason (cpu : Option Rat) (maxCpuLoad : Rat) (laneCount : Option Int)
    (maxConcurrent : Int) (duplicateExecutor : Option Bool) : String :=
  Text.join "; " (healthParts cpu maxCpuLoad laneCount maxConcurrent duplicateExecutor)

end NodeHealth

/-! ## Verdicts -/

/-- The last known readings of a node. -/
def NodeRow.readings (n : NodeRow) : HealthReport where
  diskFreeGb := n.diskFreeGb
  cpuLoadPct := n.cpuLoadPct
  laneCount := n.laneCount
  duplicateExecutor := n.duplicateExecutor

namespace NodeConfig

open NodeHealth

variable (cfg : NodeConfig)

/-- `health_reason` of a report. -/
def healthReason (maxConcurrent : Int) (report : HealthReport) : String :=
  NodeHealth.healthReason report.cpuLoadPct cfg.maxCpuLoad report.laneCount maxConcurrent
    report.duplicateExecutor

/-- The reason that a join or a heartbeat stores: the disk's, the health's, or both. -/
def reportReason (maxConcurrent : Int) (report : HealthReport) : String :=
  let reason := diskReason report.diskFreeGb cfg.minFreeDiskGb
  let hReason := cfg.healthReason maxConcurrent report
  if hReason ≠ "" then (if reason ≠ "" then reason ++ "; " ++ hReason else hReason)
  else reason

/-- `(now - last_heartbeat).total_seconds()`. -/
def elapsed (now lastHeartbeat : Nat) : Rat :=
  ((now : Int) - (lastHeartbeat : Int) : Int) / 1000000

/-- The status that the watchdog gives to a node, and its reason. -/
def verdict (now : Nat) (n : NodeRow) : NodeStatus × String :=
  let age := elapsed now n.lastHeartbeat
  if cfg.offlineAfter ≤ age then (.offline, "")
  else if cfg.degradedAfter ≤ age then
    (.degraded, "heartbeat stale " ++ Text.fixed 0 age ++ "s")
  else if isBelowFloor n.diskFreeGb cfg.minFreeDiskGb then
    (.degraded, diskReason n.diskFreeGb cfg.minFreeDiskGb)
  else
    let hReason := cfg.healthReason n.maxConcurrent n.readings
    if hReason ≠ "" then (.degraded, hReason) else (.online, "")

/-! ## What the rules say -/

/-- Some reading of the report breaks its rule. -/
def Breaks (maxConcurrent : Int) (report : HealthReport) : Prop :=
  isBelowFloor report.diskFreeGb cfg.minFreeDiskGb = true ∨
    report.duplicateExecutor = some true ∨
    isLaneBacklog report.laneCount maxConcurrent = true ∨
    isCpuSaturated report.cpuLoadPct cfg.maxCpuLoad = true

instance (maxConcurrent : Int) (report : HealthReport) :
    Decidable (cfg.Breaks maxConcurrent report) :=
  inferInstanceAs (Decidable (_ ∨ _))

/-- The heartbeat is recent enough for the node to be judged by its readings. -/
def Fresh (now lastHeartbeat : Nat) : Prop :=
  elapsed now lastHeartbeat < cfg.offlineAfter ∧ elapsed now lastHeartbeat < cfg.degradedAfter

instance (now lastHeartbeat : Nat) : Decidable (cfg.Fresh now lastHeartbeat) :=
  inferInstanceAs (Decidable (_ ∧ _))

end NodeConfig

section Reasons

open NodeHealth

theorem NodeHealth.diskReason_eq_empty_iff {freeGb : Option Rat} {minFreeGb : Rat} :
    diskReason freeGb minFreeGb = "" ↔ ¬isBelowFloor freeGb minFreeGb = true := by
  unfold diskReason
  split
  · rename_i hbelow
    refine iff_of_false ?_ (not_not.mpr hbelow)
    iterate 5 refine Text.append_ne_empty ?_
    simp
  · rename_i hbelow
    exact iff_of_true rfl hbelow

variable {cfg : NodeConfig} {maxConcurrent : Int} {report : HealthReport}

theorem NodeHealth.duplicateReason_ne_empty : duplicateReason ≠ "" := by
  unfold duplicateReason
  exact Text.append_ne_empty (by simp)

theorem NodeHealth.backlogReason_ne_empty (laneCount maxConcurrent : Int) :
    backlogReason laneCount maxConcurrent ≠ "" := by
  unfold backlogReason
  iterate 6 refine Text.append_ne_empty ?_
  simp

theorem NodeHealth.cpuReason_ne_empty (cpu maxCpuLoad : Rat) :
    cpuReason cpu maxCpuLoad ≠ "" := by
  unfold cpuReason
  iterate 4 refine Text.append_ne_empty ?_
  simp

theorem NodeHealth.ne_empty_of_mem_healthParts {cpu : Option Rat} {maxCpuLoad : Rat}
    {laneCount : Option Int} {duplicateExecutor : Option Bool} :
    ∀ part ∈ healthParts cpu maxCpuLoad laneCount maxConcurrent duplicateExecutor,
      part ≠ "" := by
  intro part hpart
  simp only [healthParts, List.mem_append, List.mem_ite_nil_right, List.mem_singleton] at hpart
  rcases hpart with (⟨-, h⟩ | ⟨-, h⟩) | ⟨-, h⟩
  · exact h ▸ duplicateReason_ne_empty
  · exact h ▸ backlogReason_ne_empty _ _
  · exact h ▸ cpuReason_ne_empty _ _

theorem NodeConfig.healthReason_eq_empty_iff :
    cfg.healthReason maxConcurrent report = "" ↔
      ¬(report.duplicateExecutor = some true ∨
        isLaneBacklog report.laneCount maxConcurrent = true ∨
        isCpuSaturated report.cpuLoadPct cfg.maxCpuLoad = true) := by
  unfold NodeConfig.healthReason NodeHealth.healthReason
  rw [Text.join_eq_empty_iff ne_empty_of_mem_healthParts]
  simp only [healthParts, List.append_eq_nil_iff, ite_eq_right_iff, List.cons_ne_nil, imp_false,
    not_or, and_assoc]

/-- A join or a heartbeat finds a reason exactly if its report breaks a rule. -/
theorem NodeConfig.reportReason_eq_empty_iff :
    cfg.reportReason maxConcurrent report = "" ↔ ¬cfg.Breaks maxConcurrent report := by
  unfold NodeConfig.reportReason NodeConfig.Breaks
  rw [not_or, ← diskReason_eq_empty_iff, ← cfg.healthReason_eq_empty_iff]
  by_cases hhealth : cfg.healthReason maxConcurrent report = ""
  · simp only [hhealth, ne_eq, not_true_eq_false, if_false, and_true]
  · simp only [hhealth, ne_eq, not_false_eq_true, if_true, and_false, iff_false]
    split
    · rename_i hdisk
      rw [String.append_assoc]
      exact Text.append_ne_empty hdisk
    · exact hhealth

theorem NodeConfig.verdict_of_fresh {now : Nat} {n : NodeRow}
    (h : cfg.Fresh now n.lastHeartbeat) :
    (cfg.verdict now n).1 =
      if cfg.Breaks n.maxConcurrent n.readings then .degraded else .online := by
  have hoffline : ¬cfg.offlineAfter ≤ elapsed now n.lastHeartbeat := not_le.mpr h.1
  have hdegraded : ¬cfg.degradedAfter ≤ elapsed now n.lastHeartbeat := not_le.mpr h.2
  unfold NodeConfig.verdict
  simp only [if_neg hoffline, if_neg hdegraded]
  by_cases hdisk : isBelowFloor n.diskFreeGb cfg.minFreeDiskGb = true
  · have hbreaks : cfg.Breaks n.maxConcurrent n.readings := .inl hdisk
    rw [if_pos hdisk, if_pos hbreaks]
  · rw [if_neg hdisk]
    by_cases hhealth : cfg.healthReason n.maxConcurrent n.readings = ""
    · have hbreaks : ¬cfg.Breaks n.maxConcurrent n.readings :=
        not_or.mpr ⟨hdisk, cfg.healthReason_eq_empty_iff.mp hhealth⟩
      rw [if_neg (not_not.mpr hhealth), if_neg hbreaks]
    · have hbreaks : cfg.Breaks n.maxConcurrent n.readings :=
        .inr (not_not.mp (mt cfg.healthReason_eq_empty_iff.mpr hhealth))
      rw [if_pos hhealth, if_pos hbreaks]

/-- The watchdog has a node online exactly if its heartbeat is fresh and its last
known readings break no rule. -/
theorem NodeConfig.verdict_online_iff {now : Nat} {n : NodeRow} :
    (cfg.verdict now n).1 = .online ↔
      cfg.Fresh now n.lastHeartbeat ∧ ¬cfg.Breaks n.maxConcurrent n.readings := by
  by_cases hfresh : cfg.Fresh now n.lastHeartbeat
  · rw [cfg.verdict_of_fresh hfresh]
    by_cases hbreaks : cfg.Breaks n.maxConcurrent n.readings <;> simp [hfresh, hbreaks]
  · refine iff_of_false ?_ (fun h => hfresh h.1)
    unfold NodeConfig.verdict
    rw [NodeConfig.Fresh, not_and_or, not_lt, not_lt] at hfresh
    by_cases hoffline : cfg.offlineAfter ≤ elapsed now n.lastHeartbeat
    · simp only [if_pos hoffline]
      exact NodeStatus.noConfusion
    · have hdegraded : cfg.degradedAfter ≤ elapsed now n.lastHeartbeat :=
        hfresh.resolve_left hoffline
      simp only [if_neg hoffline, if_pos hdegraded]
      exact NodeStatus.noConfusion

end Reasons

end HermesCluster
