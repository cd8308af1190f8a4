import HermesCluster.Routers.LaneBundles
/-!
# The accumulation window

A lane with a window waits until its oldest waiting issue has aged or a sitting is
full. The window is asked about all the issues that wait; the batch is packed from
those of the best band in the first area clusters.
-/

namespace HermesCluster

open Program hiding pure bind

namespace IntakeGrouping

/-! ## When a batch is due -/

/-- The oldest of some candidates has waited for the window, or nobody knows. -/
def Waited (config : GroupingConfig) (now : Int) (cands : List Candidate) : Prop :=
  ∀ age ∈ oldestCandidateAge now cands, (config.accumulateWindowS : Int) * 1000000 ≤ age

/-- There are as many as the cap allows, or the oldest has waited. -/
def Due (config : GroupingConfig) (now : Int) (cands : List Candidate) : Prop :=
  config.maxBundleSize ≤ cands.length ∨ Waited config now cands

instance (config : GroupingConfig) (now : Int) (cands : List Candidate) :
    Decidable (Waited config now cands) :=
  inferInstanceAs (Decidable (∀ age ∈ oldestCandidateAge now cands, _ ≤ age))

instance (config : GroupingConfig) (now : Int) (cands : List Candidate) :
    Decidable (Due config now cands) :=
  inferInstanceAs (Decidable (_ ∨ _))

section Window

variable {config : GroupingConfig} {now : Int} {cands : List Candidate}

theorem mem_ages {age : Int} :
    age ∈ (cands.filterMap (fun c => c.issue.createdAt)).map (fun t => max 0 (now - t)) ↔
      ∃ c ∈ cands, ∃ t ∈ c.issue.createdAt, max 0 (now - t) = age := by
  simp only [List.mem_map, List.mem_filterMap, Option.mem_def]
  constructor
  · rintro ⟨t, ⟨c, hc, ht⟩, rfl⟩
    exact ⟨c, hc, t, ht, rfl⟩
  · rintro ⟨c, hc, t, ht, rfl⟩
    exact ⟨t, ⟨c, hc, ht⟩, rfl⟩

/-- The oldest has waited if and only if some candidate has, or none has a date. -/
theorem waited_iff : Waited config now cands ↔
    (∃ c ∈ cands, ∃ t ∈ c.issue.createdAt,
        (config.accumulateWindowS : Int) * 1000000 ≤ max 0 (now - t)) ∨
      ∀ c ∈ cands, c.issue.createdAt = none := by
  unfold Waited oldestCandidateAge
  constructor
  · intro h
    cases hmax : ((cands.filterMap (fun c => c.issue.createdAt)).map
        (fun t => max 0 (now - t))).max? with
    | none =>
        refine .inr (fun c hc => ?_)
        cases hdate : c.issue.createdAt with
        | none => rfl
        | some t =>
            rw [List.max?_eq_none_iff] at hmax
            have hage := mem_ages.mpr ⟨c, hc, t, hdate, (rfl : max 0 (now - t) = _)⟩
            rw [hmax] at hage
            cases hage
    | some age =>
        obtain ⟨c, hc, t, ht, rfl⟩ := mem_ages.mp (List.max?_mem hmax)
        exact .inl ⟨c, hc, t, ht, h _ hmax⟩
  · rintro (⟨c, hc, t, ht, hold⟩ | hnone) age hage
    · exact hold.trans ((List.max?_eq_some_iff.mp hage).2 _ (mem_ages.mpr ⟨c, hc, t, ht, rfl⟩))
    · obtain ⟨c, hc, t, ht, -⟩ := mem_ages.mp (List.max?_mem hage)
      rw [hnone c hc] at ht
      cases ht

theorem waited_congr {others : List Candidate} (h : ∀ c, c ∈ cands ↔ c ∈ others) :
    Waited config now cands ↔ Waited config now others := by
  simp only [waited_iff, h]

/-- Above band 0, a batch is held back exactly if it is not due. -/
theorem shouldAccumulate_eq_false_iff {top : Int} (htop : top ≠ 0) :
    shouldAccumulate cands.length top (oldestCandidateAge now cands) config = false ↔
      Due config now cands := by
  unfold shouldAccumulate Due Waited
  rw [if_neg htop]
  split
  · rename_i hoff
    refine iff_of_true rfl (.inr (fun age hage => ?_))
    obtain ⟨c, -, t, -, rfl⟩ := mem_ages.mp (List.max?_mem hage)
    rw [hoff]
    exact le_max_left 0 (now - t)
  split
  · rename_i hfull
    exact iff_of_true rfl (.inl hfull)
  rename_i hsmall
  cases oldestCandidateAge now cands with
  | none => exact iff_of_true rfl (.inr nofun)
  | some age => simp [hsmall]

end Window

/-! ## The batch -/

/-- The candidates of the best band, newest first. -/
def leadingBand (cands : List Candidate) : List Candidate :=
  (cands.filter (fun c => some c.band = topBand cands)).insertionSort RecentFirst

/-- The area clusters of some candidates, in the order of packing. -/
def areaClusters (members : List Candidate) : List (String × List Candidate) :=
  (Grouping.groups (members.map (fun c => (areaCluster c.issue, c)))).insertionSort BigFirst

/-- The candidates of the best band in the first area clusters: what the batch is
cut from. -/
def leadingMembers (cands : List Candidate) (config : GroupingConfig) : List Candidate :=
  ((areaClusters (leadingBand cands)).take config.maxAreaClustersPerBundle.toNat).flatMap Prod.snd

section Batch

variable {config : GroupingConfig} {now : Int} {cands : List Candidate}

theorem batch_packCluster {name : String} {group : List Candidate} {p : Packing} :
    (packCluster config name group p).batch =
      p.batch ++ group.take (config.maxBundleSize - p.batch.length) := by
  induction group generalizing p with
  | nil => simp [packCluster]
  | cons c group ih =>
      unfold packCluster
      split
      · rename_i hfull
        rw [Nat.sub_eq_zero_of_le hfull, List.take_zero, List.append_nil]
      · rename_i hroom
        have hsplit : config.maxBundleSize - p.batch.length =
            (config.maxBundleSize - (p.batch.length + 1)) + 1 := by omega
        rw [ih, hsplit, List.take_succ_cons]
        simp

theorem usedClusters_packCluster_of_mem {name : String} {group : List Candidate} {p : Packing}
    (hused : name ∈ p.usedClusters) :
    (packCluster config name group p).usedClusters = p.usedClusters := by
  induction group generalizing p with
  | nil => rfl
  | cons c group ih =>
      unfold packCluster
      split
      · rfl
      · exact ih hused

theorem usedClusters_packCluster {name : String} {group : List Candidate} {p : Packing}
    (hgroup : group ≠ []) (hroom : p.batch.length < config.maxBundleSize)
    (hnew : name ∉ p.usedClusters) :
    (packCluster config name group p).usedClusters = p.usedClusters ++ [name] := by
  cases group with
  | nil => exact absurd rfl hgroup
  | cons c group =>
      unfold packCluster
      rw [if_neg (Nat.not_le.mpr hroom), usedClusters_packCluster_of_mem]
      · exact if_neg hnew
      · rw [if_neg hnew]
        exact List.mem_append_right _ (List.mem_singleton_self _)

/-- The loop over clusters takes the first ones, up to the cap. -/
theorem batch_packClusters {clusters : List (String × List Candidate)} {p : Packing}
    (hgroups : ∀ g ∈ clusters, g.2 ≠ []) (hnames : (clusters.map Prod.fst).Nodup)
    (hfresh : ∀ g ∈ clusters, g.1 ∉ p.usedClusters)
    (hroom : p.batch.length < config.maxBundleSize) :
    (packClusters config clusters p).batch = p.batch ++
      ((clusters.take (config.maxAreaClustersPerBundle.toNat - p.usedClusters.length)).flatMap
        Prod.snd).take (config.maxBundleSize - p.batch.length) := by
  induction clusters generalizing p with
  | nil => simp [packClusters]
  | cons g clusters ih =>
      obtain ⟨name, group⟩ := g
      have hnew : name ∉ p.usedClusters := hfresh _ List.mem_cons_self
      unfold packClusters
      by_cases hmany : config.maxAreaClustersPerBundle ≤ p.usedClusters.length
      · have hnone : config.maxAreaClustersPerBundle.toNat - p.usedClusters.length = 0 := by omega
        rw [if_pos ⟨hmany, hnew⟩, hnone, List.take_zero, List.flatMap_nil, List.take_nil,
          List.append_nil]
      rw [if_neg (fun h => hmany h.1)]
      dsimp only
      have hused := usedClusters_packCluster (hgroups _ List.mem_cons_self) hroom hnew
      have hcount : config.maxAreaClustersPerBundle.toNat - p.usedClusters.length =
          (config.maxAreaClustersPerBundle.toNat - (p.usedClusters.length + 1)) + 1 := by omega
      rw [hcount, List.take_succ_cons, List.flatMap_cons]
      have hbatch := @batch_packCluster config name group p
      split
      · rename_i hfull
        rw [hbatch, List.length_append, List.length_take] at hfull
        have hcut : config.maxBundleSize - p.batch.length ≤ group.length := by omega
        rw [hbatch, List.take_append_of_le_length hcut]
      · rename_i hroom'
        rw [hbatch, List.length_append, List.length_take] at hroom'
        have hwhole : group.take (config.maxBundleSize - p.batch.length) = group :=
          List.take_of_length_le (by omega)
        rw [hwhole] at hbatch
        rw [List.map_cons, List.nodup_cons] at hnames
        rw [ih (fun g hg => hgroups g (List.mem_cons_of_mem _ hg)) hnames.2 ?_ ?_, hbatch, hused,
          List.take_append, hwhole]
        · simp only [List.length_append, List.length_singleton, List.append_assoc, Nat.sub_sub]
        · intro g hg hmem
          rw [hused, List.mem_append, List.mem_singleton] at hmem
          rcases hmem with hold | hname
          · exact hfresh g (List.mem_cons_of_mem _ hg) hold
          · exact hnames.1 (List.mem_map.mpr ⟨g, hg, hname⟩)
        · rw [hbatch, List.length_append]
          omega

theorem ne_nil_of_mem_areaClusters {members : List Candidate} {g : String × List Candidate}
    (h : g ∈ areaClusters members) : g.2 ≠ [] :=
  Grouping.ne_nil_of_mem_groups ((List.mem_insertionSort _).mp h)

theorem nodup_areaClusters (members : List Candidate) :
    ((areaClusters members).map Prod.fst).Nodup :=
  ((List.perm_insertionSort _ _).map _).nodup_iff.mpr (Grouping.nodup_keys_groups _)

theorem mem_of_mem_areaClusters {members : List Candidate} {g : String × List Candidate}
    (h : g ∈ areaClusters members) {c : Candidate} (hc : c ∈ g.2) : c ∈ members := by
  have hgroup := (List.mem_insertionSort _).mp h
  obtain ⟨d, hd, heq⟩ := List.mem_map.mp (Grouping.mem_of_mem_groups hgroup hc)
  obtain rfl : d = c := congrArg Prod.snd heq
  exact hd

theorem areaClusters_ne_nil {members : List Candidate} (h : members ≠ []) :
    areaClusters members ≠ [] := by
  obtain ⟨c, hc⟩ := List.exists_mem_of_ne_nil members h
  have hpairs := Grouping.pairs_groups (members.map (fun c => (areaCluster c.issue, c)))
  obtain ⟨as, hgroup, -⟩ := Grouping.mem_pairs.mp (hpairs.mem_iff.mpr (List.mem_map_of_mem hc))
  exact List.ne_nil_of_mem ((List.mem_insertionSort _).mpr hgroup)

theorem leadingBand_ne_nil (h : cands ≠ []) : leadingBand cands ≠ [] := by
  obtain ⟨top, htop⟩ : ∃ top, topBand cands = some top := by
    refine Option.ne_none_iff_exists'.mp (fun hnone => h ?_)
    exact List.map_eq_nil_iff.mp (List.min?_eq_none_iff.mp hnone)
  obtain ⟨best, hbest, hband⟩ := List.mem_map.mp (List.min?_mem htop)
  refine List.ne_nil_of_mem ((List.mem_insertionSort _).mpr (List.mem_filter.mpr ⟨hbest, ?_⟩))
  rw [decide_eq_true_iff, htop, hband]

theorem packRepoCandidates_eq :
    packRepoCandidates cands config = (leadingMembers cands config).take config.maxBundleSize := by
  have hroom : ({} : Packing).batch.length < config.maxBundleSize := config.cap_pos
  exact (batch_packClusters (fun _ => ne_nil_of_mem_areaClusters) (nodup_areaClusters _)
    (fun _ _ => List.not_mem_nil) hroom).trans (List.nil_append _)

theorem mem_leadingMembers {cand : Candidate} (h : cand ∈ leadingMembers cands config) :
    cand ∈ cands := by
  obtain ⟨g, hg, hcand⟩ := List.mem_flatMap.mp h
  have hmember := mem_of_mem_areaClusters (List.mem_of_mem_take hg) hcand
  exact List.mem_of_mem_filter ((List.mem_insertionSort _).mp hmember)

/-- Candidates have leading members, unless no cluster may be taken. -/
theorem leadingMembers_eq_nil_iff : leadingMembers cands config = [] ↔
    cands = [] ∨ config.maxAreaClustersPerBundle ≤ 0 := by
  constructor
  · intro hnil
    by_contra hsome
    obtain ⟨hcands, hclusters⟩ := not_or.mp hsome
    obtain ⟨g, rest, hsorted⟩ := List.exists_cons_of_ne_nil
      (areaClusters_ne_nil (leadingBand_ne_nil hcands))
    have hfirst : g ∈ areaClusters (leadingBand cands) := by
      rw [hsorted]
      exact List.mem_cons_self
    have hcount : config.maxAreaClustersPerBundle.toNat =
        (config.maxAreaClustersPerBundle.toNat - 1) + 1 := by omega
    unfold leadingMembers at hnil
    rw [hsorted, hcount, List.take_succ_cons, List.flatMap_cons, List.append_eq_nil_iff] at hnil
    exact ne_nil_of_mem_areaClusters hfirst hnil.1
  · rintro (rfl | hnone)
    · simp [leadingMembers, leadingBand, areaClusters, Grouping.groups]
    · unfold leadingMembers
      rw [Int.toNat_of_nonpos hnone]
      rfl

/-- The batch is due if and only if the leading members are. -/
theorem due_packRepoCandidates_iff :
    Due config now (packRepoCandidates cands config) ↔
      Due config now (leadingMembers cands config) := by
  rw [packRepoCandidates_eq]
  by_cases hfull : config.maxBundleSize ≤ (leadingMembers cands config).length
  · refine iff_of_true (.inl ?_) (.inl hfull)
    rw [List.length_take]
    omega
  · rw [List.take_of_length_le (by omega)]

/-! ## The plan -/

/-- No bundle counts on the lane. -/
def Unoccupied (view : LaneView) (laneKey : String) : Prop :=
  (∀ e ∈ view.queuedBundles, e.lane ≠ laneKey) ∧ ∀ e ∈ view.activeBundles, e.lane ≠ laneKey

/-- Above band 0, a plan is made for a free lane whose candidates are due. -/
theorem bundlePlanForRepo_of_pos {laneKey : String} {view : LaneView} {top : Int}
    (htop : topBand cands = some top) (hpos : 0 < top) (plan : BundlePlan) :
    bundlePlanForRepo laneKey cands config view now = some plan ↔
      (Unoccupied view laneKey ∧ Due config now cands ∧ packRepoCandidates cands config ≠ []) ∧
        { laneKey := laneKey
          iids := (packRepoCandidates cands config).map (fun c => c.issue.iid)
          priority := top
          issueIds := (packRepoCandidates cands config).map Candidate.issueId } = plan := by
  have hfree : (view.queuedBundles.filter (fun e => decide (e.lane = laneKey))).length +
      (view.activeBundles.filter (fun e => decide (e.lane = laneKey))).length = 0 ↔
      Unoccupied view laneKey := by
    simp [Unoccupied, List.filter_eq_nil_iff]
  have hdue : shouldAccumulate cands.length top (oldestCandidateAge now cands) config = false ↔
      Due config now cands := shouldAccumulate_eq_false_iff (Int.ne_of_gt hpos)
  unfold bundlePlanForRepo
  simp only [htop]
  split
  · rename_i hbusy
    refine iff_of_false nofun (fun h => hbusy.1 (hfree.mpr h.1.1))
  rename_i hguard
  have hlane : Unoccupied view laneKey :=
    hfree.mp (by_contra fun hbusy => hguard ⟨hbusy, .inl hpos⟩)
  split
  · rename_i hheld
    refine iff_of_false nofun (fun h => ?_)
    rw [hdue.mpr h.1.2.1] at hheld
    cases hheld
  rename_i hripe
  rw [Bool.not_eq_true, hdue] at hripe
  split
  · rename_i hempty
    exact iff_of_false nofun (fun h => h.1.2.2 hempty)
  · rename_i hbatch
    rw [Option.some.injEq]
    exact (and_iff_right ⟨hlane, hripe, hbatch⟩).symm

/-- Why a free lane gets no plan. -/
theorem of_bundlePlanForRepo_none {laneKey : String} {view : LaneView}
    (h : bundlePlanForRepo laneKey cands config view now = none) (hfree : Unoccupied view laneKey) :
    ¬Due config now cands ∨ leadingMembers cands config = [] := by
  cases htop : topBand cands with
  | none =>
      have hcands : cands = [] := List.map_eq_nil_iff.mp (List.min?_eq_none_iff.mp htop)
      exact .inr (leadingMembers_eq_nil_iff.mpr (.inl hcands))
  | some top =>
      have hqueued : view.queuedBundles.filter (fun e => decide (e.lane = laneKey)) = [] := by
        simpa [List.filter_eq_nil_iff] using hfree.1
      have hactive : view.activeBundles.filter (fun e => decide (e.lane = laneKey)) = [] := by
        simpa [List.filter_eq_nil_iff] using hfree.2
      unfold bundlePlanForRepo at h
      simp only [htop, hqueued, hactive, List.length_nil, Nat.add_zero, ne_eq, not_true_eq_false,
        false_and, if_false] at h
      split at h
      · rename_i hheld
        refine .inl (fun hdue => ?_)
        have hband : top ≠ 0 := by
          rintro rfl
          simp [shouldAccumulate] at hheld
        rw [(shouldAccumulate_eq_false_iff hband).mpr hdue] at hheld
        cases hheld
      split at h
      · rename_i hempty
        rw [packRepoCandidates_eq, List.take_eq_nil_iff] at hempty
        exact .inr (hempty.resolve_left (Nat.ne_of_gt config.cap_pos))
      · cases h

theorem Due.of_sublist {others : List Candidate} (h : Due config now others)
    (hsub : others.Sublist cands) (hdue : ¬Due config now cands) :
    ∀ c ∈ others, c.issue.createdAt = none := by
  rcases h with hfull | hwaited
  · exact absurd (.inl (hfull.trans hsub.length_le)) hdue
  · rcases waited_iff.mp hwaited with ⟨c, hc, hold⟩ | hnone
    · exact absurd (.inr (waited_iff.mpr (.inl ⟨c, hsub.subset hc, hold⟩))) hdue
    · exact hnone

end Batch

end IntakeGrouping

namespace Intake

open IntakeGrouping

/-! ## The plans of a cycle -/

section Plans

variable [Unicode] {c : Cycle} {view : GroupingView} {repo : String × List Candidate}

/-- The candidates that the plan of a repository is made from: those left after the
open merge requests, and after what is held in the first batch. -/
def plannedFrom (c : Cycle) (view : GroupingView) (repo : String × List Candidate) :
    List Candidate :=
  match planFor c view repo.1 (unreferenced c view repo) with
  | none => unreferenced c view repo
  | some plan => without (heldIn c plan) (unreferenced c view repo)

/-- If a free lane above band 0 is due by all who wait, it is by those of the best
band in the first area clusters. -/
def WindowKept (c : Cycle) (view : GroupingView) (repo : String × List Candidate) : Prop :=
  ∀ top ∈ topBand (plannedFrom c view repo), 0 < top → Unoccupied view.lanes (laneOf c repo) →
    Due c.policy.grouping c.now (plannedFrom c view repo) →
      Due c.policy.grouping c.now (leadingMembers (plannedFrom c view repo) c.policy.grouping)

/-- The candidates of a cycle with some ids. -/
def membersOf (c : Cycle) (issueIds : List String) : List Candidate :=
  ((candidates c).map Prod.snd).filter (fun cand => decide (cand.issueId ∈ issueIds))

/-- Above band 0, the issues are as many as the cap allows, or the oldest has waited. -/
def Ripe (c : Cycle) (priority : Int) (issueIds : List String) : Prop :=
  0 < priority → c.policy.grouping.maxBundleSize ≤ issueIds.length ∨
    Waited c.policy.grouping c.now (membersOf c issueIds)

theorem plannedFrom_sublist :
    (plannedFrom c view repo).Sublist (waiting c view repo.2) := by
  have hleft : (unreferenced c view repo).Sublist (waiting c view repo.2) := List.filter_sublist
  unfold plannedFrom
  split
  · exact hleft
  · exact List.filter_sublist.trans hleft

/-- The first look only saves the questions to GitLab; the plan is of what is left. -/
theorem planRepo_eq : planRepo c view repo =
    if planFor c view repo.1 (waiting c view repo.2) = none then none
    else planFor c view repo.1 (plannedFrom c view repo) := by
  unfold planRepo plannedFrom
  split
  · rfl
  dsimp only
  cases hfirst : planFor c view repo.1 (unreferenced c view repo) with
  | none => exact hfirst.symm
  | some first =>
      dsimp only
      split
      · rename_i hnone
        have hall : without (heldIn c first) (unreferenced c view repo) =
            unreferenced c view repo := by
          rw [hnone]
          exact List.filter_eq_self.mpr (fun _ _ => decide_eq_true List.not_mem_nil)
        rw [hall, hfirst]
      · rfl

theorem windowKept_of_none (h : planFor c view repo.1 (waiting c view repo.2) = none) :
    WindowKept c view repo := by
  intro top _ _ hfree hdue
  rcases of_bundlePlanForRepo_none h hfree with hyoung | hempty
  · have hundated := hdue.of_sublist plannedFrom_sublist hyoung
    exact .inr (waited_iff.mpr (.inr (fun cand hcand => hundated cand (mem_leadingMembers hcand))))
  · have hnone : leadingMembers (plannedFrom c view repo) c.policy.grouping = [] := by
      refine leadingMembers_eq_nil_iff.mpr ((leadingMembers_eq_nil_iff.mp hempty).imp_left ?_)
      exact fun hwaiting => List.sublist_nil.mp (hwaiting ▸ plannedFrom_sublist)
    rw [hnone]
    exact .inr (waited_iff.mpr (.inr (fun _ hcand => by cases hcand)))

omit [Unicode] in
/-- The issues of a batch are found again by their ids. -/
theorem mem_membersOf {batch : List Candidate}
    (hbatch : ∀ cand ∈ batch, ∃ path, (path, cand) ∈ candidates c) (cand : Candidate) :
    cand ∈ membersOf c (batch.map Candidate.issueId) ↔ cand ∈ batch := by
  unfold membersOf
  rw [List.mem_filter, decide_eq_true_iff]
  constructor
  · rintro ⟨hcand, hid⟩
    obtain ⟨p, hp, rfl⟩ := List.mem_map.mp hcand
    obtain ⟨other, hother, heq⟩ := List.mem_map.mp hid
    obtain ⟨path, hpath⟩ := hbatch other hother
    have hsame := List.inj_on_of_nodup_map (nodup_candidates c) hpath hp heq
    rwa [← hsame]
  · intro hcand
    obtain ⟨path, hpath⟩ := hbatch cand hcand
    exact ⟨List.mem_map.mpr ⟨_, hpath, rfl⟩, List.mem_map_of_mem hcand⟩

omit [Unicode] in
/-- A batch of candidates of the cycle is ripe if and only if its leading members are due. -/
theorem ripe_packed_iff {cands : List Candidate} {config : GroupingConfig}
    (hcands : ∀ cand ∈ cands, ∃ path, (path, cand) ∈ candidates c) :
    (config.maxBundleSize ≤ ((packRepoCandidates cands config).map Candidate.issueId).length ∨
        Waited config c.now
          (membersOf c ((packRepoCandidates cands config).map Candidate.issueId))) ↔
      Due config c.now (leadingMembers cands config) := by
  have hbatch : ∀ cand ∈ packRepoCandidates cands config, ∃ path, (path, cand) ∈ candidates c :=
    fun cand hcand => hcands cand (mem_packRepoCandidates hcand).1
  rw [← due_packRepoCandidates_iff, List.length_map, waited_congr (mem_membersOf hbatch)]
  rfl

theorem planRepo_ripe_iff (hrepo : repo ∈ Grouping.groups (candidates c)) :
    (∀ plan ∈ planRepo c view repo, Ripe c plan.priority plan.issueIds) ↔
      WindowKept c view repo := by
  rw [planRepo_eq]
  split
  · rename_i hnone
    exact iff_of_true (fun _ h => by cases h) (windowKept_of_none hnone)
  have hcands : ∀ cand ∈ plannedFrom c view repo, ∃ path, (path, cand) ∈ candidates c := by
    intro cand hcand
    have hwaiting := mem_waiting (plannedFrom_sublist.subset hcand)
    exact ⟨repo.1, Grouping.mem_of_mem_groups hrepo hwaiting.1⟩
  constructor
  · intro h top htop hpos hfree hall
    by_cases hbatch : packRepoCandidates (plannedFrom c view repo) c.policy.grouping = []
    · rw [← due_packRepoCandidates_iff, hbatch]
      exact .inr (waited_iff.mpr (.inr (fun _ hcand => by cases hcand)))
    · have hplan := (bundlePlanForRepo_of_pos htop hpos _).mpr ⟨⟨hfree, hall, hbatch⟩, rfl⟩
      exact (ripe_packed_iff hcands).mp (h _ hplan hpos)
  · intro h plan hplan hpos
    obtain ⟨-, htop, hids, -⟩ := bundlePlanForRepo_some hplan
    obtain ⟨⟨hfree, hall, -⟩, -⟩ := (bundlePlanForRepo_of_pos htop hpos plan).mp hplan
    rw [hids]
    exact (ripe_packed_iff hcands).mpr (h _ htop hpos hfree hall)

/-- The plan of a repository is cut from what is left, which is due. -/
theorem due_of_planRepo {plan : BundlePlan} (h : plan ∈ planRepo c view repo) :
    plan.laneKey = laneOf c repo ∧
      (∀ id ∈ plan.issueIds, ∃ cand ∈ plannedFrom c view repo, cand.issueId = id) ∧
        (0 < plan.priority → Due c.policy.grouping c.now (plannedFrom c view repo)) := by
  rw [planRepo_eq] at h
  split at h
  · cases h
  obtain ⟨hlane, htop, -⟩ := bundlePlanForRepo_some h
  refine ⟨hlane, (planFor_some h).1, fun hpos => ?_⟩
  exact ((bundlePlanForRepo_of_pos htop hpos plan).mp h).1.2.1

end Plans

end Intake

/-! ## Cycles -/

section Cycles

variable [Unicode]

omit [Unicode] in
/-- Every bundle that the operation creates is ripe by its own members. -/
def MintsRipe (c : Intake.Cycle) : StoreOp → Prop
  | .createTasksBatch rows => ∀ row ∈ rows, Intake.Ripe c row.priority row.issues
  | _ => True

/-- Every bundle that the operation creates is cut from what is left of a
repository; above band 0, where that is less than the cap, its oldest has waited. -/
def MintsFromWaited (c : Intake.Cycle) (view : Intake.GroupingView) : StoreOp → Prop
  | .createTasksBatch rows => ∀ row ∈ rows, ∃ repo ∈ Grouping.groups (Intake.candidates c),
      row.laneKey = Intake.laneOf c repo ∧
        (∀ id ∈ row.issues, ∃ cand ∈ Intake.plannedFrom c view repo, cand.issueId = id) ∧
        (0 < row.priority →
          (Intake.plannedFrom c view repo).length < c.policy.grouping.maxBundleSize →
            IntakeGrouping.Waited c.policy.grouping c.now (Intake.plannedFrom c view repo))
  | _ => True

theorem mintsFromWaited_groupedPlans (c : Intake.Cycle) (view : Intake.GroupingView) :
    MintsFromWaited c view
      (.createTasksBatch (Intake.payloads c (Intake.groupedPlans c view))) := by
  intro row hrow
  obtain ⟨plan, hplan, taskId, rfl⟩ := Intake.mem_payloads hrow
  obtain ⟨repo, hrepo, hplan⟩ := List.mem_filterMap.mp hplan
  obtain ⟨hlane, hids, hdue⟩ := Intake.due_of_planRepo hplan
  refine ⟨repo, hrepo, hlane, hids, fun hpos hsmall => ?_⟩
  exact (hdue hpos).resolve_left (Nat.not_le.mpr hsmall)

/-- A grouped cycle creates ripe bundles exactly if its plans are ripe. -/
theorem along_mintsRipe_iff (k : Backend) (c : Intake.Cycle) (w : Timed k.Store) :
    (Intake.groupedCycle c).Along k.tick (fun _ op _ => MintsRipe c op) w ↔
      ∀ plan ∈ Intake.groupedPlans c (Intake.groupingView (k.board w.state).tasks.rows),
        Intake.Ripe c plan.priority plan.issueIds := by
  rw [along_groupedCycle_iff k c w ?_ (fun _ h => by cases h)]
  · constructor
    · intro h plan hplan
      obtain ⟨taskId, hrow⟩ := Intake.payload_of_mem hplan
      exact h _ hrow
    · intro h row hrow
      obtain ⟨plan, hplan, taskId, rfl⟩ := Intake.mem_payloads hrow
      exact h plan hplan
  · intro op hop
    cases op with
    | createTasksBatch rows => exact absurd rfl (hop rows)
    | _ => trivial

/-- A grouped cycle on any store: a bundle above band 0 is minted from fewer waiting
issues than the cap only if the oldest of them has waited. It is full, or its own
oldest member has waited, exactly if for each project the window that all who wait
have met is also met by those of the best band and the first area clusters. -/
theorem window_of_groupedCycle (k : Backend) (c : Intake.Cycle) (w : Timed k.Store) :
    (Intake.groupedCycle c).Along k.tick (fun _ op _ =>
        MintsFromWaited c (Intake.groupingView (k.board w.state).tasks.rows) op) w ∧
      ((Intake.groupedCycle c).Along k.tick (fun _ op _ => MintsRipe c op) w ↔
        ∀ repo ∈ Grouping.groups (Intake.candidates c),
          Intake.WindowKept c (Intake.groupingView (k.board w.state).tasks.rows) repo) := by
  constructor
  · rw [along_groupedCycle_iff k c w ?_ (fun _ h => by cases h)]
    · exact mintsFromWaited_groupedPlans c _
    · intro op hop
      cases op with
      | createTasksBatch rows => exact absurd rfl (hop rows)
      | _ => trivial
  · rw [along_mintsRipe_iff]
    constructor
    · intro h repo hrepo
      refine (Intake.planRepo_ripe_iff hrepo).mp (fun plan hplan => ?_)
      exact h plan (List.mem_filterMap.mpr ⟨repo, hrepo, hplan⟩)
    · intro h plan hplan
      obtain ⟨repo, hrepo, hplan⟩ := List.mem_filterMap.mp hplan
      exact (Intake.planRepo_ripe_iff hrepo).mpr (h repo hrepo) plan hplan

end Cycles

section Example

local instance asciiWindow : Unicode := Unicode.ascii

/-- A cycle that finds two issues of a project, under a window of an hour: one of
band 1 that is ten seconds old, and one of band 3 that has waited for hours. -/
def mixedBands : Intake.Cycle where
  policy :=
    { priority := { labels := [("p1", 1)] }
      grouping := { enabled := true, accumulateWindowS := 3600 }
      configured := true }
  fetched := [(
    [{ iid := 1, fullRef := "team/app#1", labels := ["p1"], createdAt := some 9990000000 },
      { iid := 2, fullRef := "team/app#2", createdAt := some 0 }],
    some { type := .group, path := "team" })]
  gitlab := ⟨fun _ => some [], fun _ => [], fun _ => true⟩
  now := 10000000000
  taskIds := fun _ => "bundle"

/-- The old issue lets the young one be bundled alone. -/
theorem young_bundle_minted :
    ¬(Intake.groupedCycle mixedBands).Along Backend.memory.tick
      (fun _ op _ => MintsRipe mixedBands op) ⟨ClusterState.empty, fun _ => 0⟩ := by
  rw [along_mintsRipe_iff]
  intro h
  have hplans : (Intake.groupedPlans mixedBands (Intake.groupingView [])).map
      (fun plan => (plan.priority, plan.issueIds)) = [(1, ["team/app#1"])] := by
    decide +kernel
  have hyoung : ¬IntakeGrouping.Waited mixedBands.policy.grouping mixedBands.now
      (Intake.membersOf mixedBands ["team/app#1"]) := by
    decide +kernel
  obtain ⟨plan, hplan, heq⟩ : ∃ plan ∈ Intake.groupedPlans mixedBands (Intake.groupingView []),
      (plan.priority, plan.issueIds) = ((1 : Int), ["team/app#1"]) := by
    have hmem : ((1 : Int), ["team/app#1"]) ∈
        (Intake.groupedPlans mixedBands (Intake.groupingView [])).map
          (fun plan => (plan.priority, plan.issueIds)) := by
      rw [hplans]
      exact List.mem_singleton_self _
    exact List.mem_map.mp hmem
  obtain ⟨hband, hids⟩ := Prod.mk.inj heq
  have hripe := h plan hplan
  rw [hband, hids] at hripe
  rcases hripe Int.one_pos with hfull | hwaited
  · revert hfull
    decide
  · exact hyoung hwaited

end Example

end HermesCluster
