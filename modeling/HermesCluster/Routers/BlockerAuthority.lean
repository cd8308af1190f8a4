import HermesCluster.Routers.BundleCaps
/-!
# Blockers and bundles

GitLab orders the issues: one with an open blocker outside its bundle stays out.
A grouped cycle checks the batch it packs first, takes out what is held, and packs
what is left once more; the second batch is not checked again.
-/

namespace HermesCluster

open Program hiding pure bind

namespace Intake

open IntakeGrouping

section Plans

variable [Unicode] {c : Cycle} {view : GroupingView} {repo : String × List Candidate}

/-- The issues that block an issue and are not closed, as GitLab links them. -/
def openBlockers (c : Cycle) (issueId : String) : List String :=
  ((c.gitlab.links issueId).filter (fun dep => decide
    (IsOpenBlocker dep c.policy.grouping.blockerLinkTypes))).map IssueLink.fullRef

/-- Every open blocker of a member is a member. -/
def BlockersInside (c : Cycle) (issueIds : List String) : Prop :=
  ∀ issueId ∈ issueIds, ∀ blocker ∈ openBlockers c issueId, blocker ∈ issueIds

/-! ## What is held -/

/-- The issue is one of some candidates, within the caps. -/
def Fits (c : Cycle) (cands : List Candidate) (issueId : String) : Prop :=
  ∃ cand ∈ cands, cand.issueId = issueId ∧ WithinCaps c.policy.grouping cands cand

/-- An issue within the caps that has to wait: GitLab does not answer for its links, or an
open blocker is not within the caps. -/
def Waits (c : Cycle) (cands : List Candidate) (issueId : String) : Prop :=
  Fits c cands issueId ∧ (c.gitlab.linksAnswered issueId = false ∨
    ∃ blocker ∈ openBlockers c issueId, ¬Fits c cands blocker)

instance (c : Cycle) (cands : List Candidate) : DecidablePred (Fits c cands) :=
  fun _ => inferInstanceAs (Decidable (∃ cand ∈ cands, _))

instance (c : Cycle) (cands : List Candidate) : DecidablePred (Waits c cands) :=
  fun _ => inferInstanceAs (Decidable (_ ∧ (_ ∨ _)))

/-- The candidates that do not have to wait. -/
def unheld (c : Cycle) (cands : List Candidate) : List Candidate :=
  cands.filter (fun cand => decide (¬Waits c cands cand.issueId))

/-- An issue within the caps is not within them any more when those that wait are taken
out: its cluster, or its band, is no longer the first. -/
def Displaced (c : Cycle) (cands : List Candidate) (issueId : String) : Prop :=
  Fits c cands issueId ∧ ¬Waits c cands issueId ∧ ¬Fits c (unheld c cands) issueId

/-- With those that wait taken out, no issue that stays within the caps has an open blocker
that waits or is displaced, and one that comes within the caps has its open blockers there. -/
structure Ordered (c : Cycle) (cands : List Candidate) : Prop where
  stays : ∀ issueId, Fits c cands issueId → Fits c (unheld c cands) issueId →
    ∀ blocker ∈ openBlockers c issueId, ¬Waits c cands blocker ∧ ¬Displaced c cands blocker
  comes : ∀ issueId, ¬Fits c cands issueId → Fits c (unheld c cands) issueId →
    ∀ blocker ∈ openBlockers c issueId, Fits c (unheld c cands) blocker

/-- The lane of a project gets a bundle of some candidates. -/
def Releases (c : Cycle) (view : GroupingView) (path : String) (cands : List Candidate) : Prop :=
  Released (laneKeyFor path c.policy.grouping) cands c.policy.grouping view.lanes c.now

/-- A project in which some issue waits, and whose lane gets a bundle before and after it is
taken out, is in order. -/
def Settles (c : Cycle) (view : GroupingView) (repo : String × List Candidate) : Prop :=
  let listed := unreferenced c view repo
  Releases c view repo.1 (waiting c view repo.2) → Releases c view repo.1 listed →
    (∃ issueId, Waits c listed issueId) → Releases c view repo.1 (unheld c listed) →
      Ordered c listed

section Held

variable {cands : List Candidate} {path : String} {plan : BundlePlan}

omit [Unicode] in
theorem planFor_ne_none_iff :
    planFor c view path cands ≠ none ↔ Releases c view path cands :=
  bundlePlanForRepo_ne_none_iff

omit [Unicode] in
/-- A plan is of the issues within the caps. -/
theorem mem_issueIds_iff (hids : (cands.map Candidate.issueId).Nodup)
    (hplan : planFor c view path cands = some plan) {issueId : String} :
    issueId ∈ plan.issueIds ↔ Fits c cands issueId := by
  obtain ⟨-, -, hpacked, -⟩ := bundlePlanForRepo_some hplan
  rw [hpacked, List.mem_map]
  constructor
  · rintro ⟨cand, hcand, rfl⟩
    exact ⟨cand, (mem_packRepoCandidates hcand).1, rfl, (mem_packRepoCandidates_iff hids).mp hcand⟩
  · rintro ⟨cand, -, rfl, hfits⟩
    exact ⟨cand, (mem_packRepoCandidates_iff hids).mpr hfits, rfl⟩

omit [Unicode] in
/-- What is held of a plan are the issues that wait. -/
theorem mem_heldIn_iff (hids : (cands.map Candidate.issueId).Nodup)
    (hplan : planFor c view path cands = some plan) {issueId : String} :
    issueId ∈ heldIn c plan ↔ Waits c cands issueId := by
  have hmem : ∀ id, id ∈ plan.issueIds ↔ Fits c cands id :=
    fun _ => mem_issueIds_iff hids hplan
  unfold heldIn Waits
  rw [List.mem_filter, decide_eq_true_iff, hmem]
  unfold HeldByOpenBlockers
  refine and_congr_right (fun _ => or_congr_right ?_)
  constructor
  · rintro ⟨dep, hdep, hopen, hout⟩
    refine ⟨dep.fullRef, ?_, fun hfits => hout ((hmem _).mpr hfits)⟩
    exact List.mem_map_of_mem (List.mem_filter.mpr ⟨hdep, decide_eq_true hopen⟩)
  · rintro ⟨blocker, hblocker, hout⟩
    obtain ⟨dep, hdep, rfl⟩ := List.mem_map.mp hblocker
    rw [List.mem_filter, decide_eq_true_iff] at hdep
    exact ⟨dep, hdep.1, hdep.2, fun hin => hout ((hmem _).mp hin)⟩

omit [Unicode] in
theorem without_heldIn (hids : (cands.map Candidate.issueId).Nodup)
    (hplan : planFor c view path cands = some plan) :
    without (heldIn c plan) cands = unheld c cands :=
  List.filter_congr (fun _ _ => decide_eq_decide.mpr (not_congr (mem_heldIn_iff hids hplan)))

omit [Unicode] in
theorem heldIn_eq_nil_iff (hids : (cands.map Candidate.issueId).Nodup)
    (hplan : planFor c view path cands = some plan) :
    heldIn c plan = [] ↔ ¬∃ issueId, Waits c cands issueId := by
  rw [List.eq_nil_iff_forall_not_mem, not_exists]
  exact forall_congr' (fun _ => not_congr (mem_heldIn_iff hids hplan))

omit [Unicode] in
/-- An issue within the caps that does not wait has its open blockers within them. -/
theorem fits_of_not_waits {issueId : String} (hfits : Fits c cands issueId)
    (hfree : ¬Waits c cands issueId) : ∀ blocker ∈ openBlockers c issueId, Fits c cands blocker := by
  intro blocker hblocker
  by_contra hout
  exact hfree ⟨hfits, .inr ⟨blocker, hblocker, hout⟩⟩

omit [Unicode] in
theorem not_waits_of_fits {issueId : String} (h : Fits c (unheld c cands) issueId) :
    ¬Waits c cands issueId := by
  obtain ⟨cand, hcand, rfl, -⟩ := h
  exact of_decide_eq_true (List.mem_filter.mp hcand).2

omit [Unicode] in
/-- The second batch has its blockers inside if the candidates are in order. -/
theorem inside_iff_ordered :
    (∀ issueId, Fits c (unheld c cands) issueId →
      ∀ blocker ∈ openBlockers c issueId, Fits c (unheld c cands) blocker) ↔ Ordered c cands := by
  constructor
  · intro h
    refine ⟨fun issueId _ hleft blocker hblocker => ?_, fun issueId _ => h issueId⟩
    have hfits := h issueId hleft blocker hblocker
    exact ⟨not_waits_of_fits hfits, fun hdisplaced => hdisplaced.2.2 hfits⟩
  · intro h issueId hleft blocker hblocker
    by_cases hfits : Fits c cands issueId
    · obtain ⟨hfree, hplace⟩ := h.stays issueId hfits hleft blocker hblocker
      have hin := fits_of_not_waits hfits (not_waits_of_fits hleft) blocker hblocker
      by_contra hout
      exact hplace ⟨hin, hfree, hout⟩
    · exact h.comes issueId hfits hleft blocker hblocker

omit [Unicode] in
/-- Where the whole best band is within the caps and some of it need not wait, the
candidates are in order if no issue of the band that need not wait has a blocker that
does. -/
theorem ordered_iff_of_roomy (hsize : (leading cands).length ≤ c.policy.grouping.maxBundleSize)
    (hclusters : ((((leading cands).map (fun c => areaCluster c.issue)).dedup.length : Nat) : Int) ≤
      c.policy.grouping.maxAreaClustersPerBundle)
    (hsome : ∃ cand ∈ leading cands, ¬Waits c cands cand.issueId) :
    Ordered c cands ↔ ∀ cand ∈ leading cands, ¬Waits c cands cand.issueId →
      ∀ blocker ∈ openBlockers c cand.issueId, ¬Waits c cands blocker := by
  have hfits : ∀ issueId, Fits c cands issueId ↔
      ∃ cand ∈ leading cands, cand.issueId = issueId := by
    intro issueId
    constructor
    · rintro ⟨cand, -, hid, hcaps⟩
      exact ⟨cand, hcaps.best, hid⟩
    · rintro ⟨cand, hcand, hid⟩
      exact ⟨cand, List.mem_of_mem_filter hcand, hid,
        (withinCaps_of_roomy hsize hclusters).mpr hcand⟩
  have hleft : ∀ issueId, Fits c (unheld c cands) issueId ↔
      ∃ cand ∈ leading cands, cand.issueId = issueId ∧ ¬Waits c cands issueId := by
    have hleading := leading_filter hsome
    have hsub : (leading (unheld c cands)).Sublist (leading cands) :=
      hleading ▸ List.filter_sublist
    intro issueId
    constructor
    · rintro ⟨cand, hcand, rfl, hcaps⟩
      exact ⟨cand, hsub.subset hcaps.best, rfl, of_decide_eq_true (List.mem_filter.mp hcand).2⟩
    · rintro ⟨cand, hcand, rfl, hfree⟩
      have hbest : cand ∈ leading (unheld c cands) := by
        rw [show leading (unheld c cands) = _ from hleading]
        exact List.mem_filter.mpr ⟨hcand, decide_eq_true hfree⟩
      refine ⟨cand, List.mem_of_mem_filter hbest, rfl, (withinCaps_of_roomy ?_ ?_).mpr hbest⟩
      · exact hsub.length_le.trans hsize
      · refine le_trans (Int.ofNat_le.mpr (List.Subperm.length_le ?_)) hclusters
        refine List.subperm_of_subset (List.nodup_dedup _) (fun name hname => ?_)
        exact List.mem_dedup.mpr ((hsub.map _).subset (List.mem_dedup.mp hname))
  rw [← inside_iff_ordered]
  constructor
  · intro h cand hcand hfree blocker hblocker
    obtain ⟨-, -, -, hblocker'⟩ := (hleft blocker).mp
      (h cand.issueId ((hleft _).mpr ⟨cand, hcand, rfl, hfree⟩) blocker hblocker)
    exact hblocker'
  · intro h issueId hid blocker hblocker
    obtain ⟨cand, hcand, rfl, hfree⟩ := (hleft issueId).mp hid
    have hin := fits_of_not_waits ((hfits _).mpr ⟨cand, hcand, rfl⟩) hfree blocker hblocker
    obtain ⟨other, hother, hsame⟩ := (hfits blocker).mp hin
    exact (hleft blocker).mpr ⟨other, hother, hsame, h cand hcand hfree blocker hblocker⟩

end Held

omit [Unicode] in
/-- No issue counts twice among the candidates of a project. -/
theorem nodup_repo (hrepo : repo ∈ Grouping.groups (candidates c)) :
    (repo.2.map Candidate.issueId).Nodup := by
  rw [Grouping.eq_of_mem_groups hrepo, List.map_map]
  exact (nodup_candidates c).sublist (List.filter_sublist.map _)

theorem planRepo_inside_iff (hrepo : repo ∈ Grouping.groups (candidates c)) :
    (∀ plan ∈ planRepo c view repo, BlockersInside c plan.issueIds) ↔ Settles c view repo := by
  have hids : ((unreferenced c view repo).map Candidate.issueId).Nodup := by
    refine (nodup_repo hrepo).sublist (List.Sublist.map _ ?_)
    exact List.filter_sublist.trans (List.filter_sublist.trans List.filter_sublist)
  have hleft : ((unheld c (unreferenced c view repo)).map Candidate.issueId).Nodup :=
    hids.sublist (List.filter_sublist.map _)
  unfold planRepo Settles
  dsimp only
  rw [← planFor_ne_none_iff, ← planFor_ne_none_iff, ← planFor_ne_none_iff]
  split
  · rename_i hnone
    simp [hnone]
  rename_i hwaiting
  rw [imp_iff_right hwaiting]
  split
  · rename_i hnone
    simp [hnone]
  rename_i first hfirst
  have hfound : planFor c view repo.1 (unreferenced c view repo) ≠ none := by
    rw [hfirst]
    exact nofun
  have hnil := heldIn_eq_nil_iff hids hfirst
  rw [imp_iff_right hfound]
  split
  · rename_i hnone
    rw [hnil] at hnone
    refine iff_of_true (fun plan hplan => ?_) (fun hheld => absurd hheld hnone)
    cases hplan
    intro issueId hid blocker hblocker
    rw [mem_issueIds_iff hids hfirst] at hid ⊢
    exact fits_of_not_waits hid (fun hwaits => hnone ⟨issueId, hwaits⟩) blocker hblocker
  · rename_i hheld
    rw [hnil, not_not] at hheld
    rw [imp_iff_right hheld, without_heldIn hids hfirst, ← inside_iff_ordered]
    constructor
    · intro h hsecond issueId hfits blocker hblocker
      obtain ⟨second, hplan⟩ := Option.ne_none_iff_exists'.mp hsecond
      rw [← mem_issueIds_iff hleft hplan] at hfits ⊢
      exact h second hplan issueId hfits blocker hblocker
    · intro h second hplan issueId hid blocker hblocker
      have hsecond : planFor c view repo.1 (unheld c (unreferenced c view repo)) ≠ none := by
        rw [hplan]
        exact nofun
      rw [mem_issueIds_iff hleft hplan] at hid ⊢
      exact h hsecond issueId hid blocker hblocker

end Plans

end Intake

/-! ## Cycles -/

section Cycles

variable [Unicode]

omit [Unicode] in
/-- Every bundle that the operation creates has the open blockers of its issues. -/
def RespectsBlockers (c : Intake.Cycle) : StoreOp → Prop
  | .createTasksBatch plans => ∀ plan ∈ plans, Intake.BlockersInside c plan.issues
  | _ => True

omit [Unicode] in
theorem respectsBlockers_payloads {c : Intake.Cycle} {plans : List BundlePlan} :
    RespectsBlockers c (.createTasksBatch (Intake.payloads c plans)) ↔
      ∀ plan ∈ plans, Intake.BlockersInside c plan.issueIds := by
  constructor
  · intro h plan hplan
    obtain ⟨taskId, hrow⟩ := Intake.payload_of_mem hplan
    exact h _ hrow
  · intro h row hrow
    obtain ⟨plan, hplan, taskId, rfl⟩ := Intake.mem_payloads hrow
    exact h plan hplan

/-- A grouped cycle creates bundles with the open blockers of their issues exactly if
its plans have them. -/
theorem along_respectsBlockers_iff (k : Backend) (c : Intake.Cycle) (w : Timed k.Store) :
    (Intake.groupedCycle c).Along k.tick (fun _ op _ => RespectsBlockers c op) w ↔
      ∀ plan ∈ Intake.groupedPlans c (Intake.groupingView (k.board w.state).tasks.rows),
        Intake.BlockersInside c plan.issueIds := by
  rw [along_groupedCycle_iff k c w ?_ (fun _ h => by cases h), respectsBlockers_payloads]
  intro op hop
  cases op with
  | createTasksBatch rows => exact absurd rfl (hop rows)
  | _ => trivial

/-- A grouped cycle on any store: every bundle it creates has the open blockers of
its issues, exactly if the waiting issues of each project are in order. -/
theorem blockersInside_iff (k : Backend) (c : Intake.Cycle) (w : Timed k.Store) :
    (Intake.groupedCycle c).Along k.tick (fun _ op _ => RespectsBlockers c op) w ↔
      ∀ repo ∈ Grouping.groups (Intake.candidates c),
        Intake.Settles c (Intake.groupingView (k.board w.state).tasks.rows) repo := by
  rw [along_respectsBlockers_iff]
  constructor
  · intro h repo hrepo
    refine (Intake.planRepo_inside_iff hrepo).mp (fun plan hplan => ?_)
    exact h plan (List.mem_filterMap.mpr ⟨repo, hrepo, hplan⟩)
  · intro h plan hplan
    obtain ⟨repo, hrepo, hplan⟩ := List.mem_filterMap.mp hplan
    exact (Intake.planRepo_inside_iff hrepo).mpr (h repo hrepo) plan hplan

end Cycles

section Example

local instance asciiBlockers : Unicode := Unicode.ascii

/-- A cycle that finds two issues of a project: the first waits for one of another
project, the second for the first. -/
def chained : Intake.Cycle where
  policy := { requires := [], grouping := { enabled := true }, configured := true }
  fetched :=
    [([{ iid := 1, fullRef := "team/app#1" }, { iid := 2, fullRef := "team/app#2" }], none)]
  gitlab :=
    { mergeRequests := fun _ => some []
      links := fun issueId =>
        if issueId = "team/app#1" then [⟨some "is_blocked_by", "team/lib#9", some "opened"⟩]
        else [⟨some "is_blocked_by", "team/app#1", some "opened"⟩]
      linksAnswered := fun _ => true }
  now := 0
  taskIds := fun _ => "bundle"

/-- The first issue is held, and the second is bundled without it. -/
theorem blocker_left_behind :
    ¬(Intake.groupedCycle chained).Along Backend.memory.tick
      (fun _ op _ => RespectsBlockers chained op) ⟨ClusterState.empty, fun _ => 0⟩ := by
  rw [along_respectsBlockers_iff]
  intro h
  have hplans : (Intake.groupedPlans chained (Intake.groupingView [])).map BundlePlan.issueIds =
      [["team/app#2"]] := by
    decide
  have hblocked : "team/app#1" ∈ Intake.openBlockers chained "team/app#2" := by decide
  obtain ⟨plan, hplan, hids⟩ : ∃ plan ∈ Intake.groupedPlans chained (Intake.groupingView []),
      plan.issueIds = ["team/app#2"] := by
    have hmem : ["team/app#2"] ∈
        (Intake.groupedPlans chained (Intake.groupingView [])).map BundlePlan.issueIds := by
      rw [hplans]
      exact List.mem_singleton_self _
    exact List.mem_map.mp hmem
  have hinside := h plan hplan "team/app#2" (by rw [hids]; exact List.mem_singleton_self _)
    "team/app#1" hblocked
  rw [hids] at hinside
  revert hinside
  decide

end Example

end HermesCluster
