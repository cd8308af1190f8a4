import HermesCluster.Core.Ballot
import HermesCluster.Core.IntakeGrouping
import HermesCluster.Lease.LeaseManager
/-!
# GitLab intake

`routers/intake.py`: the webhook and the poll cycle as programs over the store
interface. What GitLab answers during a cycle is part of its input, as are the
policy it loads and the ids it draws; what the process remembers between calls
(`_issue_dedup_to_task_id`, `_seen_keys`) may be anything, as a restart forgets it.
-/

namespace HermesCluster

/-- A link of an issue: `link_type`, `references.full` and `state`. -/
structure IssueLink where
  linkType : Option String
  fullRef : String := ""
  state : Option String
  deriving DecidableEq, Repr

/-- What GitLab answers: the texts of a project's open merge requests, or none if
a request fails; the links of an issue, and whether that request succeeds. -/
structure GitLab where
  mergeRequests : String → Option (List String)
  links : String → List IssueLink
  linksAnswered : String → Bool

/-- What the process remembers of the issues it has made tasks of. -/
structure IntakeMemory where
  taskOf : List (String × String) := []
  seenKeys : List String := []

/-- The bootstrap label and requirements, from the environment. -/
structure BootDefaults where
  label : String := "tooling"
  requires : List String := ["tooling"]

/-- What the webhook answers; the dump of the task is left out. -/
structure IntakeReply where
  status : String
  reason : Option String := none
  taskId : Option String := none
  priority : Option Int := none
  laneKey : Option String := none
  deriving DecidableEq, Repr

namespace Intake

/-! ## The view of the store -/

/-- `_ISSUE_HOLDING_STATUSES`. -/
def issueHoldingStatuses : List TaskStatus :=
  [.pending, .ready, .running, .assigned, .cancelRequested]

/-- The tasks whose issues `_grouping_view` counts as held. -/
def HoldsIssues (t : Task) : Prop :=
  t.status = .completed ∨ (t.status = .cancelled ∧ t.cancelRequeue = some false) ∨
    t.status ∈ issueHoldingStatuses

instance : DecidablePred HoldsIssues := fun t =>
  inferInstanceAs (Decidable (t.status = .completed ∨
    (t.status = .cancelled ∧ t.cancelRequeue = some false) ∨ t.status ∈ issueHoldingStatuses))

/-- The bundles that count on a lane. -/
def OnLane (t : Task) : Prop :=
  t.issues ≠ [] ∧ t.status ∈ issueHoldingStatuses ∧ t.laneKey ≠ ""

instance : DecidablePred OnLane := fun t =>
  inferInstanceAs (Decidable
    (t.issues ≠ [] ∧ t.status ∈ issueHoldingStatuses ∧ t.laneKey ≠ ""))

def laneEntry (t : Task) : LaneEntry := ⟨t.laneKey, t.id, t.priority⟩

/-- What `_grouping_view` returns. -/
structure GroupingView where
  lanes : LaneView
  blocked : List String
  legacyOpenIids : List Int

/-- `_dedup_key`. -/
def dedupKey (mode : DedupScope) (path : String) (iid : Int) : String :=
  if mode = .full ∧ path ≠ "" then path ++ "#" ++ toString iid else toString iid

section Programs

variable [Unicode]

/-- The issue a per-issue task in flight is about, by its title. -/
def legacyOpenIid (t : Task) : Option Int :=
  if t.issues = [] ∧ t.status ∈ issueHoldingStatuses then
    let title := Regex.seqs [Regex.lit "[#", Regex.group (Regex.plus Regex.digit), Regex.lit "]"]
    ((title.matchStart t.title).bind (fun c => c.captures.head?)).map
      (fun digits => (BallotRules.intOfDigits digits : Int))
  else none

/-- `_grouping_view`. -/
def groupingView (tasks : List Task) : GroupingView where
  lanes :=
    { queuedBundles :=
        (tasks.filter (fun t => decide (OnLane t ∧ ¬t.status.IsActive))).map laneEntry
      activeBundles := (tasks.filter (fun t => decide (OnLane t ∧ t.status.IsActive))).map laneEntry }
  blocked := (tasks.filter (fun t => decide (HoldsIssues t))).flatMap Task.issues
  legacyOpenIids := tasks.filterMap legacyOpenIid

/-! ## Creating tasks -/

omit [Unicode] in
/-- The row of a bundle task. -/
def bundlePayload (requires : List String) (plan : BundlePlan) (taskId : String) : TaskPlan where
  taskId := taskId
  title := IntakeGrouping.bundleTitle plan
  requires := requires
  priority := plan.priority
  laneKey := plan.laneKey
  role := "author"
  issues := plan.issueIds

omit [Unicode] in
/-- `_create_bundle_task`. -/
def createBundleTask (requires : List String) (plan : BundlePlan) (taskId : String) : Api Task := do
  let task ← store (.createTask (bundlePayload requires plan taskId))
  let _ ← store .triggerPendingTasks
  let _ ← store .schedulePendingDetailed
  pure task

omit [Unicode] in
/-- `_create_task_from_issue`: the task, whether it is new, and what is
remembered. -/
def createTaskFromIssue (mem : IntakeMemory) (key : String) (displayIid : Int) (title : String)
    (priority : Int) (requires : List String) (description taskId : String) :
    Api (Task × Bool × IntakeMemory) := do
  let existing ← match mem.taskOf.lookup key with
    | some known => store (.getTask known)
    | none => pure none
  match existing with
  | some task => pure (task, false, mem)
  | none =>
      let task ← store (.createTask
        { taskId := taskId
          title := "[#" ++ toString displayIid ++ "] " ++ title
          requires := requires
          priority := priority
          description := description })
      let _ ← store .triggerPendingTasks
      let _ ← store .schedulePendingDetailed
      pure (task, true, { mem with taskOf := (key, taskId) :: mem.taskOf })

/-! ## The webhook -/

/-- An issue event. `iid` is the representation of what was sent, if that is no
integer; `authorized` says whether the token matches. -/
structure IssueEvent where
  authorized : Bool := true
  objectKind : Option String := some "issue"
  action : Option String := some "open"
  iid : Except String Int
  title : String := ""
  description : String := ""
  labels : List String := []
  projectPath : String := ""
  authorId : Option Int := none

/-- The band, the requirements and the dedup key of an issue that is let in. -/
structure Admission where
  priority : Int
  requires : List String
  dedupKey : String

omit [Unicode] in
/-- `_in_scope`: the first enabled scope that the path is in. -/
def inScope (path : String) (scopes : List IntakeScope) : Option IntakeScope :=
  scopes.find? (fun s => decide (s.enabled = true ∧ s.path ≠ "" ∧
    ((s.type = .project ∧ s.path = path) ∨
      (s.type = .group ∧ (path = s.path ∨ Text.startsWith path (s.path ++ "/") = true)))))

/-- `repr` of a list of strings. -/
def reprList (xs : List String) : String :=
  "[" ++ Text.join ", " (xs.map Text.repr) ++ "]"

/-- By the policy, if one is configured with scopes, else by the bootstrap label;
or the reason why the issue is not let in. -/
def admissionOf (ev : IssueEvent) (iid : Int) (policy : GitLabIntakePolicy) (defaults : BootDefaults) :
    Except String Admission :=
  if policy.configured = true ∧ policy.scopes ≠ [] then
    if policy.enabled = some false then .error "intake disabled by policy"
    else
      match inScope ev.projectPath policy.scopes with
      | none => .error ("project " ++ Text.repr ev.projectPath ++ " not in any enabled scope")
      | some matched =>
          if matched.label ≠ "" ∧ matched.label ∉ ev.labels then
            .error ("scope label " ++ Text.repr matched.label ++ " not in " ++ reprList ev.labels)
          else
            let band := policy.priority.bandFor ev.authorId ev.projectPath matched.path ev.labels
            .ok
              { priority := (band.val : Int)
                requires := policy.requires
                dedupKey := dedupKey policy.dedupScope ev.projectPath iid }
  else if defaults.label ∉ ev.labels then
    .error ("label=" ++ defaults.label ++ " not in " ++ reprList ev.labels)
  else .ok { priority := 3, requires := defaults.requires, dedupKey := dedupKey .iid "" iid }

/-- The webhook under a grouping policy: band 0 becomes a bundle of its own at
once, everything else waits for the next cycle. -/
def groupedWebhook (ev : IssueEvent) (iid : Int) (admission : Admission) (cfg : GroupingConfig)
    (taskId : String) : Api IntakeReply := do
  if ev.labels.any (fun l => IntakeGrouping.isDoomedLabel l cfg) then
    pure { status := "ignored", reason := some "doomed label (grouped mode)" }
  else
    let key := dedupKey .full ev.projectPath iid
    let tasks ← store .getAllTasks
    let view := groupingView tasks
    if key ∈ view.blocked ∨ iid ∈ view.legacyOpenIids then
      pure { status := "deduped", reason := some "issue already in a live task" }
    else if 0 < admission.priority then
      let window := if 0 < cfg.accumulateWindowS then
          " (window " ++ toString cfg.accumulateWindowS ++ "s)" else ""
      pure
        { status := "queued-grouping"
          reason := some ("grouping enabled; poll cycles accumulate it into this lane's next bundle" ++
            window) }
    else
      let lane := IntakeGrouping.laneKeyFor ev.projectPath cfg
      if ∃ e ∈ view.lanes.queuedBundles, e.lane = lane ∧ e.band = 0 then
        pure
          { status := "queued-grouping"
            reason := some ("band-0 bundle already queued on lane " ++ lane) }
      else
        let plan : BundlePlan :=
          { laneKey := lane, iids := [iid], priority := 0, issueIds := [key] }
        let task ← createBundleTask admission.requires plan taskId
        pure
          { status := "created"
            taskId := some task.id
            priority := some task.priority
            laneKey := some lane }

/-- `webhook`. -/
def webhook (ev : IssueEvent) (policy : GitLabIntakePolicy) (defaults : BootDefaults)
    (mem : IntakeMemory) (taskId : String) : Api IntakeReply := do
  if ev.authorized = false then httpError 401 "Invalid webhook token"
  else if ev.objectKind ≠ some "issue" then
    pure { status := "ignored", reason := some ("event=" ++ ev.objectKind.getD "None") }
  else if ev.action ≠ some "open" ∧ ev.action ≠ some "reopen" then
    pure { status := "ignored", reason := some ("action=" ++ ev.action.getD "None") }
  else
    match ev.iid with
    | .error sent => httpError 400 ("Invalid or missing iid: " ++ sent)
    | .ok iid =>
        match admissionOf ev iid policy defaults with
        | .error reason => pure { status := "ignored", reason := some reason }
        | .ok admission =>
            if policy.configured = true ∧ policy.scopes ≠ [] ∧ policy.grouping.enabled = true then
              groupedWebhook ev iid admission policy.grouping taskId
            else do
              let (task, isNew, _) ← createTaskFromIssue mem admission.dedupKey iid ev.title
                admission.priority admission.requires ev.description taskId
              pure
                { status := if isNew = true then "created" else "deduped"
                  taskId := some task.id
                  priority := some task.priority }

/-! ## What the planner asks GitLab -/

/-- `(?:[Cc]loses|[Rr]efs?|#)\s*#?(\d+)`. -/
def mrRef : Regex :=
  Regex.seqs
    [Regex.alts [Regex.seqs [Regex.oneOf "Cc", Regex.lit "loses"],
      Regex.seqs [Regex.oneOf "Rr", Regex.lit "ef", Regex.opt (Regex.lit "s")], Regex.lit "#"],
     Regex.star Regex.space, Regex.opt (Regex.lit "#"), Regex.group (Regex.plus Regex.digit)]

/-- `_open_mr_issue_refs`: the issues an open merge request refers to; all of
them if GitLab cannot say. -/
def openMrIssueRefs (gitlab : GitLab) (projectPath : String) (openIds : List String) :
    List String :=
  match gitlab.mergeRequests projectPath with
  | none => openIds
  | some texts =>
      let refs := texts.flatMap (fun text =>
        (mrRef.findall text).map (fun digits => projectPath ++ "#" ++ digits))
      openIds.filter (fun id => decide (id ∈ refs))

omit [Unicode] in
/-- The link is to an issue that blocks and is not closed. -/
def IsOpenBlocker (dep : IssueLink) (blockerTypes : List String) : Prop :=
  (∃ linkType ∈ dep.linkType, linkType ∈ blockerTypes) ∧ '#' ∈ dep.fullRef.toList ∧
    dep.state ≠ some "closed"

instance (dep : IssueLink) (blockerTypes : List String) :
    Decidable (IsOpenBlocker dep blockerTypes) :=
  inferInstanceAs (Decidable ((∃ linkType ∈ dep.linkType, linkType ∈ blockerTypes) ∧
    '#' ∈ dep.fullRef.toList ∧ dep.state ≠ some "closed"))

omit [Unicode] in
/-- `_held_by_open_blockers`, of one issue: an open blocker is outside the batch,
or GitLab cannot say. -/
def HeldByOpenBlockers (gitlab : GitLab) (issueId : String) (batchIds blockerTypes : List String) :
    Prop :=
  gitlab.linksAnswered issueId = false ∨
    ∃ dep ∈ gitlab.links issueId, IsOpenBlocker dep blockerTypes ∧ dep.fullRef ∉ batchIds

instance (gitlab : GitLab) (issueId : String) (batchIds blockerTypes : List String) :
    Decidable (HeldByOpenBlockers gitlab issueId batchIds blockerTypes) :=
  inferInstanceAs (Decidable (gitlab.linksAnswered issueId = false ∨
    ∃ dep ∈ gitlab.links issueId, IsOpenBlocker dep blockerTypes ∧ dep.fullRef ∉ batchIds))

/-! ## The grouped cycle -/

/-- The input of a cycle: the policy, the issues of each scope, what GitLab
answers, the time, and the ids that are drawn. -/
structure Cycle where
  policy : GitLabIntakePolicy
  fetched : List (List GitLabIssue × Option IntakeScope)
  gitlab : GitLab
  now : Int
  taskIds : Nat → String

omit [Unicode] in
/-- The project of an issue: by its reference, else by the scope. -/
def projectPathOf (issue : GitLabIssue) (scope : Option IntakeScope) : String :=
  if '#' ∈ issue.fullRef.toList then Text.beforeLast '#' issue.fullRef
  else
    match scope with
    | some s => if s.type = .project then s.path else ""
    | none => ""

omit [Unicode] in
/-- One issue of the loop that collects candidates; each issue counts once. -/
def collectIssue (policy : GitLabIntakePolicy) (scope : Option IntakeScope)
    (seen : List (String × Candidate)) (issue : GitLabIssue) : List (String × Candidate) :=
  let path := projectPathOf issue scope
  let issueId := path ++ "#" ++ toString issue.iid
  if path = "" then seen
  else if issueId ∈ seen.map (fun p => p.2.issueId) then seen
  else
    let band : Int :=
      match scope with
      | some s => ((policy.priority.bandFor issue.authorId path s.path issue.labels).val : Int)
      | none => 3
    seen ++ [(path, { issueId := issueId, issue := issue, band := band })]

omit [Unicode] in
/-- The candidates of a cycle with their projects. -/
def candidates (c : Cycle) : List (String × Candidate) :=
  c.fetched.foldl (fun seen p => p.1.foldl (collectIssue c.policy p.2) seen) []

omit [Unicode] in
/-- The candidates of a repository that wait: neither held by a task nor in
flight as a task of their own, and not doomed by a label. -/
def waiting (c : Cycle) (view : GroupingView) (pairs : List Candidate) : List Candidate :=
  IntakeGrouping.filterCandidates
    (pairs.filter (fun cand => decide
      (cand.issueId ∉ view.blocked ∧ cand.issue.iid ∉ view.legacyOpenIids)))
    c.policy.grouping

/-- And that no open merge request refers to. -/
def unreferenced (c : Cycle) (view : GroupingView) (repo : String × List Candidate) :
    List Candidate :=
  let plans := waiting c view repo.2
  let artifact := openMrIssueRefs c.gitlab repo.1 (plans.map Candidate.issueId)
  plans.filter (fun cand => decide (cand.issueId ∉ artifact))

omit [Unicode] in
/-- `bundle_plan_for_repo` on the lane of a project. -/
def planFor (c : Cycle) (view : GroupingView) (projectPath : String) (cands : List Candidate) :
    Option BundlePlan :=
  IntakeGrouping.bundlePlanForRepo (IntakeGrouping.laneKeyFor projectPath c.policy.grouping) cands
    c.policy.grouping view.lanes c.now

omit [Unicode] in
/-- The issues of a plan that an open blocker outside it holds. -/
def heldIn (c : Cycle) (plan : BundlePlan) : List String :=
  plan.issueIds.filter (fun id => decide
    (HeldByOpenBlockers c.gitlab id plan.issueIds c.policy.grouping.blockerLinkTypes))

omit [Unicode] in
/-- What is left of some candidates when issues are held. -/
def without (held : List String) (cands : List Candidate) : List Candidate :=
  cands.filter (fun cand => decide (cand.issueId ∉ held))

/-- The plan for one repository: what is held is taken out once, and what is left
is planned again. -/
def planRepo (c : Cycle) (view : GroupingView) (repo : String × List Candidate) :
    Option BundlePlan :=
  if planFor c view repo.1 (waiting c view repo.2) = none then none
  else
    let plans := unreferenced c view repo
    match planFor c view repo.1 plans with
    | none => none
    | some plan =>
        if heldIn c plan = [] then some plan
        else planFor c view repo.1 (without (heldIn c plan) plans)

/-- The plans of a cycle, one repository after another. -/
def groupedPlans (c : Cycle) (view : GroupingView) : List BundlePlan :=
  (Grouping.groups (candidates c)).filterMap (planRepo c view)

omit [Unicode] in
/-- The rows that a cycle publishes. -/
def payloads (c : Cycle) (plans : List BundlePlan) : List TaskPlan :=
  plans.mapIdx (fun i plan => bundlePayload c.policy.requires plan (c.taskIds i))

omit [Unicode] in
/-- The id to report for a row: of the task made, else of the one stored under its
id. -/
def recordCreated (tasks : List Task) (created : List String) (row : TaskPlan) :
    Api (List String) :=
  match tasks.find? (fun t => decide (t.id = row.taskId)) with
  | some task => pure (created ++ [task.id])
  | none => do
      match ← store (.getTask row.taskId) with
      | none => pure created
      | some task => pure (created ++ [task.id])

/-- `_grouped_cycle`. -/
def groupedCycle (c : Cycle) : Api (List String) := do
  let tasks ← store .getAllTasks
  let plans := groupedPlans c (groupingView tasks)
  if plans = [] then pure []
  else
    let made ← store (.createTasksBatch (payloads c plans))
    let created ← (payloads c plans).foldlM (recordCreated made) []
    let _ ← store .triggerPendingTasks
    let _ ← store .schedulePendingDetailed
    pure created

/-! ## The poll cycle -/

omit [Unicode] in
/-- One issue of the loop without grouping. -/
def pollIssue (c : Cycle) (defaults : BootDefaults) (scope : Option IntakeScope)
    (st : IntakeMemory × List String) (issue : GitLabIssue) : Api (IntakeMemory × List String) := do
  let (mem, created) := st
  let named := if '#' ∈ issue.fullRef.toList then Text.beforeLast '#' issue.fullRef else ""
  let path :=
    match scope with
    | some s => if named = "" ∧ s.type = .project then s.path else named
    | none => named
  let (priority, requires, key) : Int × List String × String :=
    match scope with
    | some s => (((c.policy.priority.bandFor issue.authorId path s.path issue.labels).val : Int),
        c.policy.requires, dedupKey c.policy.dedupScope path issue.iid)
    | none => (3, defaults.requires, dedupKey .iid "" issue.iid)
  if key ∈ mem.seenKeys then pure (mem, created)
  else
    let mem := { mem with seenKeys := key :: mem.seenKeys }
    if (mem.taskOf.lookup key).isSome = true then pure (mem, created)
    else
      let (task, isNew, mem) ← createTaskFromIssue mem key issue.iid issue.title priority requires
        issue.description (c.taskIds created.length)
      pure (mem, if isNew = true then created ++ [task.id] else created)

/-- `poll_once`, once the issues are fetched. -/
def pollOnce (c : Cycle) (defaults : BootDefaults) (mem : IntakeMemory) : Api (List String) := do
  if c.policy.enabled = some false then pure []
  else if c.policy.grouping.enabled = true ∧ c.policy.configured = true then groupedCycle c
  else
    let (_, created) ← c.fetched.foldlM
      (fun st p => p.1.foldlM (pollIssue c defaults p.2) st) (mem, [])
    pure created

end Programs

end Intake

end HermesCluster
