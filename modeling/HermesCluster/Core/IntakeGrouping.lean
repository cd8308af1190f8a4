import HermesCluster.Core.IntakePolicy
import HermesCluster.Lib.Grouping
import Mathlib.Order.Lex
/-!
# Grouped intake: the planner

`core/intake_grouping.py`: which waiting issues of a repository go into its next
lane bundle. The audit text of a plan and the brief of its task, which nothing
here reads, are left out.
-/

namespace HermesCluster

/-- An open issue, as GitLab lists it. `createdAt` is what `parse_gitlab_time`
reads from `created_at`. -/
structure GitLabIssue where
  iid : Int
  title : String := ""
  labels : List String := []
  authorId : Option Int := none
  fullRef : String := ""
  description : String := ""
  createdAt : Option Int := none
  deriving DecidableEq, Repr

/-- A bundle task on a lane, with its band. -/
structure LaneEntry where
  lane : String
  taskId : String
  band : Int
  deriving DecidableEq, Repr

/-- `LaneView`. -/
structure LaneView where
  queuedBundles : List LaneEntry := []
  activeBundles : List LaneEntry := []
  deriving DecidableEq, Repr

/-- `BundlePlan`. -/
structure BundlePlan where
  laneKey : String
  iids : List Int
  priority : Int
  issueIds : List String
  deriving DecidableEq, Repr

/-- An issue under its `"<path>#<iid>"` with its band. -/
structure Candidate where
  issueId : String
  issue : GitLabIssue
  band : Int
  deriving DecidableEq, Repr

namespace IntakeGrouping

/-! ## Lanes and labels -/

/-- `lane_repo`: the last segment of a path. -/
def laneRepo (projectPath : String) : String :=
  let repo := Text.lastSegment '/' (Text.rstripChar '/' projectPath)
  if repo = "" then "unknown-repo" else repo

/-- `lane_branch_for`. -/
def laneBranchFor (projectPath : String) (config : GroupingConfig) : String :=
  ((config.laneBranches.lookup (laneRepo projectPath)).or
    (config.laneBranches.lookup projectPath)).getD config.laneBranch

/-- `lane_key_for`. -/
def laneKeyFor (projectPath : String) (config : GroupingConfig) : String :=
  laneRepo projectPath ++ "#" ++ laneBranchFor projectPath config

/-- `is_doomed_label`. -/
def isDoomedLabel (label : String) (config : GroupingConfig) : Bool :=
  config.skipLabelPatterns.any (fun p => p.found label)

/-- `issue_is_doomed`. -/
def issueIsDoomed (issue : GitLabIssue) (config : GroupingConfig) : Bool :=
  issue.labels.any (fun l => isDoomedLabel l config)

/-- `_area_cluster`. -/
def areaCluster (issue : GitLabIssue) : String :=
  (issue.labels.find? (fun l => Text.startsWith l "area::")).getD ""

/-! ## The accumulation window -/

/-- `oldest_candidate_age_s`, in microseconds. -/
def oldestCandidateAge (now : Int) (candidates : List Candidate) : Option Int :=
  ((candidates.filterMap (fun c => c.issue.createdAt)).map (fun t => max 0 (now - t))).max?

/-- `should_accumulate`. -/
def shouldAccumulate (batchSize : Nat) (topBand : Int) (oldestAge : Option Int)
    (config : GroupingConfig) : Bool :=
  if config.accumulateWindowS = 0 then false
  else if topBand = 0 then false
  else if config.maxBundleSize ≤ batchSize then false
  else
    match oldestAge with
    | none => false
    | some age => decide (age < (config.accumulateWindowS : Int) * 1000000)

/-! ## Packing -/

/-- `filter_candidates`. -/
def filterCandidates (candidates : List Candidate) (config : GroupingConfig) : List Candidate :=
  candidates.filter (fun c => !issueIsDoomed c.issue config)

/-- The order of `_recency_key`: newest first, undated last, then by id. -/
def RecentFirst (a b : Candidate) : Prop :=
  match a.issue.createdAt, b.issue.createdAt with
  | some x, some y => y < x ∨ (x = y ∧ a.issueId.toList ≤ b.issueId.toList)
  | some _, none => True
  | none, some _ => False
  | none, none => a.issueId.toList ≤ b.issueId.toList

instance : DecidableRel RecentFirst := fun a b => by
  unfold RecentFirst
  exact
    match a.issue.createdAt, b.issue.createdAt with
    | some _, some _ => inferInstanceAs (Decidable (_ ∨ _))
    | some _, none => isTrue trivial
    | none, some _ => isFalse id
    | none, none => inferInstanceAs (Decidable (_ ≤ _))

/-- The order of the clusters: big ones first, named ones first, then by name. -/
def BigFirst (a b : String × List Candidate) : Prop :=
  b.2.length < a.2.length ∨
    (a.2.length = b.2.length ∧
      ((a.1 ≠ "" ∧ b.1 = "") ∨ ((a.1 = "" ↔ b.1 = "") ∧ a.1.toList ≤ b.1.toList)))

instance : DecidableRel BigFirst := fun _ _ => inferInstanceAs (Decidable (_ ∨ _))

/-- The batch so far and the clusters it takes from. -/
structure Packing where
  batch : List Candidate := []
  usedClusters : List String := []

/-- The inner loop: candidates of one cluster, up to the size cap. -/
def packCluster (config : GroupingConfig) (name : String) : List Candidate → Packing → Packing
  | [], p => p
  | c :: group, p =>
      if config.maxBundleSize ≤ p.batch.length then p
      else packCluster config name group
        { batch := p.batch ++ [c]
          usedClusters := if name ∈ p.usedClusters then p.usedClusters
            else p.usedClusters ++ [name] }

/-- The outer loop, with its two exits. -/
def packClusters (config : GroupingConfig) : List (String × List Candidate) → Packing → Packing
  | [], p => p
  | (name, group) :: clusters, p =>
      if config.maxAreaClustersPerBundle ≤ p.usedClusters.length ∧ name ∉ p.usedClusters then p
      else
        let p := packCluster config name group p
        if config.maxBundleSize ≤ p.batch.length then p else packClusters config clusters p

/-- The least band of some candidates. -/
def topBand (candidates : List Candidate) : Option Int :=
  (candidates.map Candidate.band).min?

/-- `pack_repo_candidates`: of the best band, newest first, by clusters. -/
def packRepoCandidates (candidates : List Candidate) (config : GroupingConfig) :
    List Candidate :=
  let bandMembers := (candidates.filter (fun c => some c.band = topBand candidates)).insertionSort
    RecentFirst
  let clusters := Grouping.groups (bandMembers.map (fun c => (areaCluster c.issue, c)))
  (packClusters config (clusters.insertionSort BigFirst) {}).batch

/-- `bundle_plan_for_repo`: at most one outstanding bundle per lane, but for one
of band 0; then the accumulation window; then the packing. -/
def bundlePlanForRepo (laneKey : String) (candidates : List Candidate) (config : GroupingConfig)
    (view : LaneView) (now : Int) : Option BundlePlan :=
  match topBand candidates with
  | none => none
  | some top =>
      let queued := view.queuedBundles.filter (fun e => decide (e.lane = laneKey))
      let active := view.activeBundles.filter (fun e => decide (e.lane = laneKey))
      if queued.length + active.length ≠ 0 ∧ (0 < top ∨ ∃ e ∈ queued, e.band = 0) then none
      else if shouldAccumulate candidates.length top (oldestCandidateAge now candidates) config then
        none
      else
        let batch := packRepoCandidates candidates config
        if batch = [] then none
        else some
          { laneKey := laneKey
            iids := batch.map (fun c => c.issue.iid)
            priority := top
            issueIds := batch.map Candidate.issueId }

/-- `bundle_title`. -/
def bundleTitle (plan : BundlePlan) : String :=
  let first := toString (plan.iids.headD 0)
  if plan.iids.length = 1 then "[lane:" ++ plan.laneKey ++ "][##" ++ first ++ "]"
  else
    "[lane:" ++ plan.laneKey ++ "][##" ++ first ++ "…" ++ toString (plan.iids.getLastD 0) ++ " x" ++
      toString plan.iids.length ++ "]"

/-! ## What is packed -/

section Packed

variable {config : GroupingConfig} {candidates : List Candidate} {c : Candidate}

theorem mem_packCluster {name : String} {group : List Candidate} {p : Packing}
    (h : c ∈ (packCluster config name group p).batch) : c ∈ p.batch ∨ c ∈ group := by
  induction group generalizing p with
  | nil => exact .inl h
  | cons d group ih =>
      unfold packCluster at h
      split at h
      · exact .inl h
      · rcases ih h with hbatch | hgroup
        · rcases List.mem_append.mp hbatch with hold | hnew
          · exact .inl hold
          · rw [List.mem_singleton.mp hnew]
            exact .inr List.mem_cons_self
        · exact .inr (List.mem_cons_of_mem _ hgroup)

theorem mem_packClusters {clusters : List (String × List Candidate)} {p : Packing}
    (h : c ∈ (packClusters config clusters p).batch) :
    c ∈ p.batch ∨ ∃ name group, (name, group) ∈ clusters ∧ c ∈ group := by
  induction clusters generalizing p with
  | nil => exact .inl h
  | cons cluster clusters ih =>
      obtain ⟨name, group⟩ := cluster
      have hhead : c ∈ (packCluster config name group p).batch →
          c ∈ p.batch ∨
            ∃ name' group', (name', group') ∈ (name, group) :: clusters ∧ c ∈ group' := by
        intro hc
        rcases mem_packCluster hc with hold | hnew
        · exact .inl hold
        · exact .inr ⟨name, group, List.mem_cons_self, hnew⟩
      unfold packClusters at h
      split at h
      · exact .inl h
      · dsimp only at h
        split at h
        · exact hhead h
        · rcases ih h with hc | ⟨name', group', hcluster, hc⟩
          · exact hhead hc
          · exact .inr ⟨name', group', List.mem_cons_of_mem _ hcluster, hc⟩

theorem mem_packRepoCandidates (h : c ∈ packRepoCandidates candidates config) :
    c ∈ candidates ∧ some c.band = topBand candidates := by
  rcases mem_packClusters h with hnone | ⟨name, group, hcluster, hc⟩
  · cases hnone
  · rw [List.mem_insertionSort] at hcluster
    obtain ⟨d, hd, heq⟩ := List.mem_map.mp (Grouping.mem_of_mem_groups hcluster hc)
    cases heq
    rw [List.mem_insertionSort, List.mem_filter, decide_eq_true_iff] at hd
    exact hd

/-- What a plan is made of. -/
theorem bundlePlanForRepo_some {laneKey : String} {view : LaneView} {now : Int}
    {plan : BundlePlan} (h : bundlePlanForRepo laneKey candidates config view now = some plan) :
    plan.laneKey = laneKey ∧ topBand candidates = some plan.priority ∧
      plan.issueIds = (packRepoCandidates candidates config).map Candidate.issueId ∧
      plan.issueIds ≠ [] ∧
      (0 < plan.priority → (∀ e ∈ view.queuedBundles, e.lane ≠ laneKey) ∧
        ∀ e ∈ view.activeBundles, e.lane ≠ laneKey) := by
  unfold bundlePlanForRepo at h
  split at h
  · cases h
  rename_i top htop
  dsimp only at h
  split at h
  · cases h
  rename_i hguard
  split at h
  · cases h
  split at h
  · cases h
  rename_i hbatch
  cases h
  refine ⟨rfl, htop, rfl, fun hnil => hbatch (List.map_eq_nil_iff.mp hnil), fun hpos => ?_⟩
  have hempty : (view.queuedBundles.filter (fun e => decide (e.lane = laneKey))).length +
      (view.activeBundles.filter (fun e => decide (e.lane = laneKey))).length = 0 := by
    by_contra hne
    exact hguard ⟨hne, .inl hpos⟩
  have hnone : ∀ es : List LaneEntry,
      (es.filter (fun e => decide (e.lane = laneKey))).length = 0 → ∀ e ∈ es, e.lane ≠ laneKey := by
    intro es hes e he
    rw [List.length_eq_zero_iff, List.filter_eq_nil_iff] at hes
    simpa using hes e he
  exact ⟨hnone _ (by omega), hnone _ (by omega)⟩

end Packed

end IntakeGrouping

end HermesCluster
