import HermesCluster.Routers.Accumulation
import Mathlib.Data.List.Flatten
import Mathlib.Data.List.Perm.Subperm
/-!
# What a bundle is

The batch that `pack_repo_candidates` cuts from the candidates of a lane: of the
best band, within both caps, newest first in each cluster, and the same in whatever
order the candidates come.
-/

namespace HermesCluster

namespace IntakeGrouping

/-! ## The order by age -/

instance : Std.Total RecentFirst := ⟨fun a b => by
  unfold RecentFirst
  cases a.issue.createdAt with
  | none =>
      cases b.issue.createdAt with
      | none => exact le_total a.issueId.toList b.issueId.toList
      | some y => exact .inr trivial
  | some x =>
      cases b.issue.createdAt with
      | none => exact .inl trivial
      | some y =>
          rcases lt_trichotomy x y with h | h | h
          · exact .inr (.inl h)
          · rcases le_total a.issueId.toList b.issueId.toList with hle | hle
            · exact .inl (.inr ⟨h, hle⟩)
            · exact .inr (.inr ⟨h.symm, hle⟩)
          · exact .inl (.inl h)⟩

instance : IsTrans Candidate RecentFirst := ⟨fun a b c hab hbc => by
  unfold RecentFirst at *
  cases ha : a.issue.createdAt with
  | none =>
      cases hb : b.issue.createdAt with
      | none =>
          cases hc : c.issue.createdAt with
          | none =>
              rw [ha, hb] at hab
              rw [hb, hc] at hbc
              exact le_trans hab hbc
          | some z =>
              rw [hb, hc] at hbc
              exact hbc
      | some y =>
          rw [ha, hb] at hab
          exact hab.elim
  | some x =>
      cases hc : c.issue.createdAt with
      | none => trivial
      | some z =>
          cases hb : b.issue.createdAt with
          | none =>
              rw [hb, hc] at hbc
              exact hbc.elim
          | some y =>
              rw [ha, hb] at hab
              rw [hb, hc] at hbc
              dsimp only at hab hbc ⊢
              rcases hab with hlt | ⟨rfl, hle⟩
              · rcases hbc with hlt' | ⟨rfl, -⟩
                · exact .inl (hlt'.trans hlt)
                · exact .inl hlt
              · rcases hbc with hlt' | ⟨rfl, hle'⟩
                · exact .inl hlt'
                · exact .inr ⟨rfl, le_trans hle hle'⟩⟩

/-- Candidates that come before each other have one id. -/
theorem issueId_eq_of_recentFirst {a b : Candidate} (hab : RecentFirst a b)
    (hba : RecentFirst b a) : a.issueId = b.issueId := by
  have hle : a.issueId.toList ≤ b.issueId.toList ∧ b.issueId.toList ≤ a.issueId.toList := by
    unfold RecentFirst at hab hba
    cases ha : a.issue.createdAt with
    | none =>
        cases hb : b.issue.createdAt with
        | none =>
            rw [ha, hb] at hab
            rw [ha, hb] at hba
            exact ⟨hab, hba⟩
        | some y =>
            rw [ha, hb] at hab
            exact hab.elim
    | some x =>
        cases hb : b.issue.createdAt with
        | none =>
            rw [ha, hb] at hba
            exact hba.elim
        | some y =>
            rw [ha, hb] at hab
            rw [ha, hb] at hba
            dsimp only at hab hba
            rcases hab with hlt | ⟨heq, hle⟩
            · rcases hba with hlt' | ⟨heq', -⟩
              · exact absurd hlt' (not_lt.mpr hlt.le)
              · exact absurd heq' hlt.ne
            · rcases hba with hlt' | ⟨-, hle'⟩
              · exact absurd heq (ne_of_lt hlt')
              · exact ⟨hle, hle'⟩
  exact String.toList_inj.mp (le_antisymm hle.1 hle.2)

/-! ## The clusters of a batch -/

section Packing

variable {config : GroupingConfig} {cands others : List Candidate}

theorem pairwise_of_mem_areaClusters {g : String × List Candidate}
    (h : g ∈ areaClusters (leadingBand cands)) : g.2.Pairwise RecentFirst := by
  have hsorted : (leadingBand cands).Pairwise RecentFirst := List.pairwise_insertionSort _ _
  have hgroup := Grouping.eq_of_mem_groups ((List.mem_insertionSort _).mp h)
  rw [hgroup, List.filter_map, List.map_map]
  have hid : (Prod.snd ∘ fun c : Candidate => (areaCluster c.issue, c)) = id := rfl
  rw [hid, List.map_id]
  exact hsorted.sublist List.filter_sublist

theorem areaCluster_of_mem {members : List Candidate} {g : String × List Candidate}
    (h : g ∈ areaClusters members) {c : Candidate} (hc : c ∈ g.2) :
    areaCluster c.issue = g.1 := by
  obtain ⟨d, -, heq⟩ := List.mem_map.mp
    (Grouping.mem_of_mem_groups ((List.mem_insertionSort _).mp h) hc)
  obtain ⟨hname, rfl⟩ := Prod.mk.inj heq
  exact hname

/-- What the batch is cut from: newest first within each cluster. -/
theorem pairwise_leadingMembers : (leadingMembers cands config).Pairwise
    (fun a b => areaCluster a.issue = areaCluster b.issue → RecentFirst a b) := by
  unfold leadingMembers
  rw [List.pairwise_flatMap]
  have hnames : (areaClusters (leadingBand cands)).Pairwise (fun g g' => g.1 ≠ g'.1) :=
    List.pairwise_map.mp (nodup_areaClusters _)
  constructor
  · intro g hg
    refine List.Pairwise.imp ?_ (pairwise_of_mem_areaClusters (List.mem_of_mem_take hg))
    intro a b hfirst _
    exact hfirst
  · have htaken := hnames.sublist (List.take_sublist config.maxAreaClustersPerBundle.toNat _)
    refine htaken.imp_of_mem (fun {g g'} hg hg' hne a ha b hb hsame => ?_)
    rw [areaCluster_of_mem (List.mem_of_mem_take hg) ha,
      areaCluster_of_mem (List.mem_of_mem_take hg') hb] at hsame
    exact absurd hsame hne

theorem perm_leadingBand_areaClusters :
    ((areaClusters (leadingBand cands)).flatMap Prod.snd).Perm (leadingBand cands) := by
  have hsnd : ∀ gs : List (String × List Candidate),
      gs.flatMap Prod.snd = (Grouping.pairs gs).map Prod.snd := by
    intro gs
    unfold Grouping.pairs
    rw [List.map_flatMap]
    refine List.flatMap_congr (fun g _ => ?_)
    rw [List.map_map]
    exact (List.map_id _).symm
  let ps := (leadingBand cands).map (fun c => (areaCluster c.issue, c))
  have hsorted : ((areaClusters (leadingBand cands)).flatMap Prod.snd).Perm
      ((Grouping.groups ps).flatMap Prod.snd) :=
    (List.perm_insertionSort _ _).flatMap_right _
  have hpairs : ((Grouping.groups ps).flatMap Prod.snd).Perm (ps.map Prod.snd) := by
    rw [hsnd]
    exact (Grouping.pairs_groups ps).map _
  have hback : ps.map Prod.snd = leadingBand cands := by
    rw [List.map_map]
    exact List.map_id _
  exact hback ▸ hsorted.trans hpairs

theorem nodup_leadingMembers (h : cands.Nodup) : (leadingMembers cands config).Nodup := by
  have hband : (leadingBand cands).Nodup :=
    (List.perm_insertionSort _ _).nodup_iff.mpr (h.filter _)
  have hall := perm_leadingBand_areaClusters.nodup_iff.mpr hband
  refine hall.sublist ?_
  exact (List.take_sublist _ _).flatMap Prod.snd

theorem clusters_leadingMembers_le :
    ((leadingMembers cands config).map (fun c => areaCluster c.issue)).dedup.length ≤
      config.maxAreaClustersPerBundle.toNat := by
  have hnames : ((leadingMembers cands config).map (fun c => areaCluster c.issue)).dedup ⊆
      ((areaClusters (leadingBand cands)).take config.maxAreaClustersPerBundle.toNat).map
        Prod.fst := by
    intro name hname
    obtain ⟨c, hc, rfl⟩ := List.mem_map.mp (List.mem_dedup.mp hname)
    obtain ⟨g, hg, hmem⟩ := List.mem_flatMap.mp hc
    rw [areaCluster_of_mem (List.mem_of_mem_take hg) hmem]
    exact List.mem_map_of_mem hg
  have hcount := (List.subperm_of_subset (List.nodup_dedup _) hnames).length_le
  rw [List.length_map, List.length_take] at hcount
  omega

/-! ## The order of the candidates -/

theorem topBand_perm (h : others.Perm cands) : topBand others = topBand cands := by
  have hmap : (others.map Candidate.band).Perm (cands.map Candidate.band) := h.map _
  refine Option.ext (fun top => ?_)
  unfold topBand
  rw [List.min?_eq_some_iff, List.min?_eq_some_iff, hmap.mem_iff]
  refine and_congr_right (fun _ => ?_)
  exact forall_congr' (fun b => by rw [hmap.mem_iff])

/-- The best band, sorted, does not show how the candidates came. -/
theorem leadingBand_perm (h : others.Perm cands)
    (hids : (cands.map Candidate.issueId).Nodup) : leadingBand others = leadingBand cands := by
  unfold leadingBand
  rw [topBand_perm h]
  have hfilter := h.filter (fun c => decide (some c.band = topBand cands))
  refine List.Perm.eq_of_pairwise (fun a b ha hb hab hba => ?_)
    (List.pairwise_insertionSort RecentFirst _) (List.pairwise_insertionSort RecentFirst _) ?_
  · rw [List.mem_insertionSort] at ha hb
    have ha' : a ∈ cands := h.mem_iff.mp (List.mem_of_mem_filter ha)
    exact List.inj_on_of_nodup_map hids ha' (List.mem_of_mem_filter hb)
      (issueId_eq_of_recentFirst hab hba)
  · exact ((List.perm_insertionSort _ _).trans hfilter).trans (List.perm_insertionSort _ _).symm

theorem packRepoCandidates_perm (h : others.Perm cands)
    (hids : (cands.map Candidate.issueId).Nodup) :
    packRepoCandidates others config = packRepoCandidates cands config := by
  rw [packRepoCandidates_eq, packRepoCandidates_eq]
  unfold leadingMembers
  rw [leadingBand_perm h hids]

/-! ## A bundle -/

/-- What a batch packed from some candidates is. -/
structure WellPacked (cands : List Candidate) (config : GroupingConfig) (batch : List Candidate) :
    Prop where
  nodup : batch.Nodup
  candidates : ∀ c ∈ batch, c ∈ cands
  leading : ∀ c ∈ batch, ∀ d ∈ cands, c.band ≤ d.band
  size : batch.length ≤ config.maxBundleSize
  clusters : (batch.map (fun c => areaCluster c.issue)).dedup.length ≤
    config.maxAreaClustersPerBundle.toNat
  newest : batch.Pairwise
    (fun a b => areaCluster a.issue = areaCluster b.issue → RecentFirst a b)
  nonempty : cands ≠ [] → 0 < config.maxAreaClustersPerBundle → batch ≠ []

theorem packRepoCandidates_wellPacked (cands : List Candidate) (config : GroupingConfig)
    (hids : (cands.map Candidate.issueId).Nodup) :
    WellPacked cands config (packRepoCandidates cands config) ∧
      ∀ others, others.Perm cands →
        packRepoCandidates others config = packRepoCandidates cands config := by
  refine ⟨?_, fun others h => packRepoCandidates_perm h hids⟩
  have hbatch : (packRepoCandidates cands config).Sublist (leadingMembers cands config) := by
    rw [packRepoCandidates_eq]
    exact List.take_sublist _ _
  constructor
  · exact (nodup_leadingMembers (List.Nodup.of_map _ hids)).sublist hbatch
  · exact fun c hc => (mem_packRepoCandidates hc).1
  · intro c hc d hd
    obtain ⟨-, hband⟩ := mem_packRepoCandidates hc
    exact (List.min?_eq_some_iff.mp hband.symm).2 _ (List.mem_map_of_mem hd)
  · rw [packRepoCandidates_eq, List.length_take]
    exact Nat.min_le_left _ _
  · have hsub : (packRepoCandidates cands config).map (fun c => areaCluster c.issue) ⊆
        (leadingMembers cands config).map (fun c => areaCluster c.issue) :=
      (hbatch.map _).subset
    have hdedup := List.subperm_of_subset (List.nodup_dedup _)
      (fun name hname => List.mem_dedup.mpr (hsub (List.mem_dedup.mp hname)))
    exact hdedup.length_le.trans clusters_leadingMembers_le
  · exact pairwise_leadingMembers.sublist hbatch
  · intro hcands hcap
    rw [packRepoCandidates_eq]
    have hsome : leadingMembers cands config ≠ [] := by
      rw [Ne, leadingMembers_eq_nil_iff, not_or]
      exact ⟨hcands, not_le.mpr hcap⟩
    obtain ⟨c, rest, heq⟩ := List.exists_cons_of_ne_nil hsome
    have hsize : config.maxBundleSize = (config.maxBundleSize - 1) + 1 := by
      have hpos := config.cap_pos
      omega
    rw [heq, hsize, List.take_succ_cons]
    exact List.cons_ne_nil _ _

end Packing

section Example

/-- Two issues of one area and an undated one, filed on two days. -/
def threeIssues : List Candidate :=
  [{ issueId := "g/r#1", issue := { iid := 1, labels := ["area::ui"], createdAt := some 1 },
     band := 3 },
   { issueId := "g/r#2", issue := { iid := 2, labels := ["area::ui"], createdAt := some 2 },
     band := 3 },
   { issueId := "g/r#3", issue := { iid := 3 }, band := 3 }]

theorem packRepoCandidates_wellPacked_threeIssues :
    WellPacked threeIssues {} (packRepoCandidates threeIssues {}) ∧
      ∀ others, others.Perm threeIssues →
        packRepoCandidates others {} = packRepoCandidates threeIssues {} :=
  packRepoCandidates_wellPacked threeIssues {} (by decide)

end Example

end IntakeGrouping

end HermesCluster
