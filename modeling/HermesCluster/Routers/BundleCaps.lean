import Mathlib.Tactic.MkIffOfInductiveProp
import HermesCluster.Lib.Ranks
import HermesCluster.Routers.BundlePacking
/-!
# Which candidates fit into a bundle

A candidate is packed if it is of the best band, few enough area clusters come before
its own, and few enough candidates before it. So what a lane gets can be told from
the candidates, the caps and the lane, without packing.
-/

namespace HermesCluster

namespace IntakeGrouping

/-! ## The order of packing -/

instance : Std.Total BigFirst := ⟨fun a b => by
  unfold BigFirst
  rcases lt_trichotomy a.2.length b.2.length with hlt | heq | hlt
  · exact .inr (.inl hlt)
  · by_cases ha : a.1 = ""
    · by_cases hb : b.1 = ""
      · rw [ha, hb]
        exact .inl (.inr ⟨heq, .inr ⟨Iff.rfl, le_refl _⟩⟩)
      · exact .inr (.inr ⟨heq.symm, .inl ⟨hb, ha⟩⟩)
    · by_cases hb : b.1 = ""
      · exact .inl (.inr ⟨heq, .inl ⟨ha, hb⟩⟩)
      · rcases le_total a.1.toList b.1.toList with hle | hle
        · exact .inl (.inr ⟨heq, .inr ⟨iff_of_false ha hb, hle⟩⟩)
        · exact .inr (.inr ⟨heq.symm, .inr ⟨iff_of_false hb ha, hle⟩⟩)
  · exact .inl (.inl hlt)⟩

instance : IsTrans (String × List Candidate) BigFirst := ⟨fun a b c hab hbc => by
  unfold BigFirst at *
  rcases hab with hab | ⟨hab, hname⟩
  · rcases hbc with hbc | ⟨hbc, -⟩
    · exact .inl (hbc.trans hab)
    · exact .inl (hbc ▸ hab)
  · rcases hbc with hbc | ⟨hbc, hname'⟩
    · exact .inl (hab ▸ hbc)
    · refine .inr ⟨hab.trans hbc, ?_⟩
      rcases hname with ⟨ha, hb⟩ | ⟨hsame, hle⟩
      · rcases hname' with ⟨hb', -⟩ | ⟨hsame', -⟩
        · exact absurd hb hb'
        · exact .inl ⟨ha, hsame'.mp hb⟩
      · rcases hname' with ⟨hb', hc⟩ | ⟨hsame', hle'⟩
        · exact .inl ⟨fun ha => hb' (hsame.mp ha), hc⟩
        · exact .inr ⟨hsame.trans hsame', le_trans hle hle'⟩⟩

/-- Clusters that come before each other have one name. -/
theorem name_eq_of_bigFirst {a b : String × List Candidate} (hab : BigFirst a b)
    (hba : BigFirst b a) : a.1 = b.1 := by
  unfold BigFirst at hab hba
  rcases hab with hab | ⟨hab, hname⟩
  · rcases hba with hba | ⟨hba, -⟩ <;> omega
  · rcases hba with hba | ⟨-, hname'⟩
    · omega
    · rcases hname with ⟨ha, hb⟩ | ⟨hsame, hle⟩
      · rcases hname' with ⟨hb', -⟩ | ⟨hsame', -⟩
        · exact absurd hb hb'
        · exact absurd (hsame'.mp hb) ha
      · rcases hname' with ⟨hb, ha⟩ | ⟨-, hle'⟩
        · exact absurd (hsame.mp ha) hb
        · exact String.toList_inj.mp (le_antisymm hle hle')

/-- The candidates of the best band. -/
def leading (cands : List Candidate) : List Candidate :=
  cands.filter (fun c => decide (∀ d ∈ cands, c.band ≤ d.band))

/-- The area cluster of a name in the best band. -/
def cluster (cands : List Candidate) (name : String) : String × List Candidate :=
  (name, (leading cands).filter (fun c => decide (areaCluster c.issue = name)))

/-- One cluster is packed before another. -/
def ClusterBefore (cands : List Candidate) (name name' : String) : Prop :=
  name ≠ name' ∧ BigFirst (cluster cands name) (cluster cands name')

/-- One candidate of a cluster is packed before another. -/
def Newer (a b : Candidate) : Prop :=
  a.issueId ≠ b.issueId ∧ RecentFirst a b

/-- One candidate is packed before another: its cluster is, or it is in their cluster. -/
abbrev PackedBefore (cands : List Candidate) : Candidate → Candidate → Prop :=
  Ranks.Ahead (fun c => areaCluster c.issue) (ClusterBefore cands) Newer

instance (cands : List Candidate) : DecidableRel (ClusterBefore cands) :=
  fun _ _ => inferInstanceAs (Decidable (_ ∧ _))

instance : DecidableRel Newer :=
  fun _ _ => inferInstanceAs (Decidable (_ ∧ _))

/-- A candidate of the best band before which fewer clusters and fewer candidates are
packed than the caps allow. -/
@[mk_iff]
structure WithinCaps (config : GroupingConfig) (cands : List Candidate) (c : Candidate) :
    Prop where
  best : c ∈ leading cands
  clusters : ((((leading cands).map (fun c => areaCluster c.issue)).dedup.countP
    (fun name => decide (ClusterBefore cands name (areaCluster c.issue))) : Nat) : Int) <
      config.maxAreaClustersPerBundle
  size : (leading cands).countP (fun d => decide (PackedBefore cands d c)) < config.maxBundleSize

instance (config : GroupingConfig) (cands : List Candidate) :
    DecidablePred (WithinCaps config cands) :=
  fun _ => decidable_of_iff _ (withinCaps_iff _ _ _).symm

/-- Candidates that are taken out leave the best band the best, if some of it stays. -/
theorem leading_filter {cands : List Candidate} {p : Candidate → Prop} [DecidablePred p]
    (hsome : ∃ c ∈ leading cands, p c) :
    leading (cands.filter (fun c => decide (p c))) =
      (leading cands).filter (fun c => decide (p c)) := by
  obtain ⟨best, hbest, hp⟩ := hsome
  obtain ⟨hmem, hleast⟩ := List.mem_filter.mp hbest
  have hleast := of_decide_eq_true hleast
  unfold leading
  rw [List.filter_comm]
  refine congrArg (List.filter _) (List.filter_congr (fun c _ => decide_eq_decide.mpr ?_))
  constructor
  · intro h d hd
    exact (h best (List.mem_filter.mpr ⟨hmem, decide_eq_true hp⟩)).trans (hleast d hd)
  · exact fun h d hd => h d (List.mem_of_mem_filter hd)

section Packing

variable {config : GroupingConfig} {cands : List Candidate}

theorem leadingBand_eq (cands : List Candidate) :
    leadingBand cands = (leading cands).insertionSort RecentFirst := by
  unfold leadingBand leading
  refine congrArg (List.insertionSort RecentFirst) (List.filter_congr (fun c hc => ?_))
  refine decide_eq_decide.mpr ⟨fun h d hd => ?_, fun h => ?_⟩
  · exact (List.min?_eq_some_iff.mp h.symm).2 _ (List.mem_map_of_mem hd)
  · refine (List.min?_eq_some_iff.mpr ⟨List.mem_map_of_mem hc, fun b hb => ?_⟩).symm
    obtain ⟨d, hd, rfl⟩ := List.mem_map.mp hb
    exact h d hd

theorem clusterBefore_asymm (cands : List Candidate) (name name' : String) (h : ClusterBefore cands name name') :
    ¬ClusterBefore cands name' name :=
  fun hback => h.1 (name_eq_of_bigFirst h.2 hback.2)

theorem newer_asymm (a b : Candidate) (h : Newer a b) : ¬Newer b a :=
  fun hback => h.1 (issueId_eq_of_recentFirst h.2 hback.2)

/-- A cluster of the packing has the members of its name. -/
theorem eq_filter_of_mem_areaClusters {members : List Candidate}
    {g : String × List Candidate} (hg : g ∈ areaClusters members) :
    g.2 = members.filter (fun c => decide (areaCluster c.issue = g.1)) := by
  rw [Grouping.eq_of_mem_groups ((List.mem_insertionSort _).mp hg), List.filter_map, List.map_map]
  exact List.map_id _

/-- The packing takes the clusters in their order. -/
theorem pairwise_clusterBefore (cands : List Candidate) :
    ((areaClusters (leadingBand cands)).map Prod.fst).Pairwise (ClusterBefore cands) := by
  have hsize : ∀ g ∈ areaClusters (leadingBand cands),
      g.2.length = (cluster cands g.1).2.length := by
    intro g hg
    rw [eq_filter_of_mem_areaClusters hg, leadingBand_eq]
    exact ((List.perm_insertionSort RecentFirst (leading cands)).filter _).length_eq
  have hcongr : ∀ g ∈ areaClusters (leadingBand cands), ∀ g' ∈ areaClusters (leadingBand cands),
      BigFirst g g' → BigFirst (cluster cands g.1) (cluster cands g'.1) := by
    intro g hg g' hg' h
    unfold BigFirst at h ⊢
    rw [← hsize g hg, ← hsize g' hg']
    exact h
  have hsorted : (areaClusters (leadingBand cands)).Pairwise BigFirst :=
    List.pairwise_insertionSort _ _
  have hnames : (areaClusters (leadingBand cands)).Pairwise (fun g g' => g.1 ≠ g'.1) :=
    List.pairwise_map.mp (nodup_areaClusters _)
  rw [List.pairwise_map]
  exact (hnames.and hsorted).imp_of_mem
    (fun {g g'} hg hg' h => ⟨h.1, hcongr g hg g' hg' h.2⟩)

/-- And the candidates of each in theirs. -/
theorem pairwise_newer (hids : (cands.map Candidate.issueId).Nodup)
    {g : String × List Candidate} (hg : g ∈ areaClusters (leadingBand cands)) :
    g.2.Pairwise Newer := by
  have hsorted := pairwise_of_mem_areaClusters hg
  have hdistinct : (g.2.map Candidate.issueId).Nodup := by
    have hall : ((leadingBand cands).map Candidate.issueId).Nodup := by
      rw [leadingBand_eq]
      refine ((List.perm_insertionSort RecentFirst (leading cands)).map _).nodup_iff.mpr ?_
      exact hids.sublist (List.filter_sublist.map _)
    rw [eq_filter_of_mem_areaClusters hg]
    exact hall.sublist (List.filter_sublist.map _)
  exact (List.pairwise_map.mp hdistinct).and hsorted

/-- The batch holds the candidates within the caps. -/
theorem mem_packRepoCandidates_iff (hids : (cands.map Candidate.issueId).Nodup)
    {c : Candidate} : c ∈ packRepoCandidates cands config ↔ WithinCaps config cands c := by
  have hband : (leadingBand cands).Perm (leading cands) := by
    rw [leadingBand_eq]
    exact List.perm_insertionSort _ _
  have hperm := perm_leadingBand_areaClusters.trans hband
  have hnames : ((areaClusters (leadingBand cands)).map Prod.fst).Perm
      ((leading cands).map (fun c => areaCluster c.issue)).dedup := by
    refine (List.perm_ext_iff_of_nodup (nodup_areaClusters _) (List.nodup_dedup _)).mpr ?_
    intro name
    rw [List.mem_dedup, List.mem_map, List.mem_map]
    constructor
    · rintro ⟨g, hg, rfl⟩
      obtain ⟨d, hd⟩ := List.exists_mem_of_ne_nil _ (ne_nil_of_mem_areaClusters hg)
      exact ⟨d, hband.mem_iff.mp (mem_of_mem_areaClusters hg hd), areaCluster_of_mem hg hd⟩
    · rintro ⟨d, hd, rfl⟩
      obtain ⟨g, hg, hmem⟩ := List.mem_flatMap.mp (hperm.mem_iff.mpr hd)
      exact ⟨g, hg, (areaCluster_of_mem hg hmem).symm⟩
  rw [packRepoCandidates_eq, withinCaps_iff]
  by_cases hleading : c ∈ leading cands
  · have hrank := Ranks.mem_take_flatMap_take_iff
      (fun g hg a ha => areaCluster_of_mem hg ha) (clusterBefore_asymm cands) newer_asymm
      (pairwise_clusterBefore cands) (fun g hg => pairwise_newer hids hg)
      (hperm.mem_iff.mpr hleading) config.maxAreaClustersPerBundle.toNat config.maxBundleSize
    rw [and_iff_right hleading, ← hnames.countP_eq, ← hperm.countP_eq, ← Int.lt_toNat]
    exact hrank
  · refine iff_of_false (fun h => hleading ?_) (fun h => hleading h.1)
    have hmember := List.mem_of_mem_take h
    obtain ⟨g, hg, hmem⟩ := List.mem_flatMap.mp hmember
    exact hband.mem_iff.mp (mem_of_mem_areaClusters (List.mem_of_mem_take hg) hmem)

/-- Where the best band is within the caps, each of its candidates is. -/
theorem withinCaps_of_roomy (hsize : (leading cands).length ≤ config.maxBundleSize)
    (hclusters : ((((leading cands).map (fun c => areaCluster c.issue)).dedup.length : Nat) : Int) ≤
      config.maxAreaClustersPerBundle) {c : Candidate} :
    WithinCaps config cands c ↔ c ∈ leading cands := by
  refine ⟨WithinCaps.best, fun hc => ⟨hc, ?_, ?_⟩⟩
  · have hless := Ranks.countP_lt_length (clusterBefore_asymm cands)
      (List.mem_dedup.mpr (List.mem_map_of_mem (f := fun c => areaCluster c.issue) hc))
    omega
  · have hasymm : ∀ a b, PackedBefore cands a b → ¬PackedBefore cands b a :=
      Ranks.ahead_asymm (clusterBefore_asymm cands) newer_asymm
    exact (Ranks.countP_lt_length hasymm hc).trans_le hsize

end Packing

/-! ## When there is a bundle -/

section Plan

variable {config : GroupingConfig} {cands : List Candidate} {laneKey : String} {view : LaneView}
  {now : Int}

/-- The lane takes a bundle of the band: it has none, or the band is 0 and no bundle of
band 0 is queued there. -/
def LaneOpen (view : LaneView) (laneKey : String) (top : Int) : Prop :=
  Unoccupied view laneKey ∨
    top ≤ 0 ∧ ∀ e ∈ view.queuedBundles, e.lane = laneKey → e.band ≠ 0

/-- Nothing keeps the candidates back: the lane takes a bundle of their best band, their
window is over, and the caps leave room for a cluster. -/
def Released (laneKey : String) (cands : List Candidate) (config : GroupingConfig)
    (view : LaneView) (now : Int) : Prop :=
  ∃ top ∈ topBand cands, LaneOpen view laneKey top ∧
    shouldAccumulate cands.length top (oldestCandidateAge now cands) config = false ∧
      0 < config.maxAreaClustersPerBundle

theorem bundlePlanForRepo_ne_none_iff :
    bundlePlanForRepo laneKey cands config view now ≠ none ↔
      Released laneKey cands config view now := by
  unfold bundlePlanForRepo Released
  cases htop : topBand cands with
  | none => simp
  | some top =>
      have hcands : cands ≠ [] := by
        rintro rfl
        cases htop
      have hbatch : packRepoCandidates cands config = [] ↔
          ¬0 < config.maxAreaClustersPerBundle := by
        rw [packRepoCandidates_eq, List.take_eq_nil_iff,
          or_iff_right (Nat.ne_of_gt config.cap_pos), leadingMembers_eq_nil_iff,
          or_iff_right hcands, not_lt]
      have hopen : LaneOpen view laneKey top ↔
          ¬((view.queuedBundles.filter (fun e => decide (e.lane = laneKey))).length +
              (view.activeBundles.filter (fun e => decide (e.lane = laneKey))).length ≠ 0 ∧
            (0 < top ∨ ∃ e ∈ view.queuedBundles.filter (fun e => decide (e.lane = laneKey)),
              e.band = 0)) := by
        unfold LaneOpen Unoccupied
        simp only [ne_eq, Nat.add_eq_zero_iff, List.length_eq_zero_iff, List.filter_eq_nil_iff,
          decide_eq_true_eq, List.mem_filter]
        grind
      have hsome : (∃ b ∈ some top, LaneOpen view laneKey b ∧ shouldAccumulate cands.length b
            (oldestCandidateAge now cands) config = false ∧
              0 < config.maxAreaClustersPerBundle) ↔
          LaneOpen view laneKey top ∧ shouldAccumulate cands.length top
            (oldestCandidateAge now cands) config = false ∧
              0 < config.maxAreaClustersPerBundle := by
        simp
      rw [hsome, hopen]
      dsimp only
      split
      · rename_i hbusy
        exact iff_of_false (fun h => h rfl) (fun h => h.1 hbusy)
      rename_i hfree
      rw [and_iff_right hfree]
      split
      · rename_i hyoung
        exact iff_of_false (fun h => h rfl) (fun h => absurd (h.1.symm.trans hyoung) nofun)
      rename_i hripe
      rw [Bool.not_eq_true] at hripe
      rw [and_iff_right hripe]
      split
      · rename_i hempty
        exact iff_of_false (fun h => h rfl) (hbatch.mp hempty)
      · rename_i hsome
        exact iff_of_true nofun (not_not.mp (fun hnone => hsome (hbatch.mpr hnone)))

end Plan

end IntakeGrouping

end HermesCluster
