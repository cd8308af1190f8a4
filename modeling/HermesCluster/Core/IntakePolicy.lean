import HermesCluster.Lib.Regex
import HermesCluster.Models
/-!
# Intake policy

`core/intake_policy.py` and the configuration of `core/intake_grouping.py`: what
to ingest, in which band, and how issues are bundled. Only validated policies
exist: a band is one of the six, a bundle holds at least one issue. Where
requests go (endpoint, token, interval) is left out.
-/

namespace HermesCluster

/-- `DEFAULT_SKIP_LABEL_PATTERNS`. -/
def defaultSkipLabelPatterns : List Regex :=
  let status := fun name => Regex.seqs
    [Regex.bos, Regex.opt (Regex.group (Regex.lit "status::")), Regex.lit name, Regex.eos]
  [status "blocked", status "needs-human", status "needs-decision",
    Regex.seqs [Regex.bos, Regex.lit "epic", Regex.eos],
    Regex.seqs [Regex.bos, Regex.lit "type::epic", Regex.eos]]

/-- The size of a bundle has room for one issue, also by default. -/
theorem one_le_maxBundleSize : 1 ≤ 30 := by decide

/-- `GroupingConfig`. -/
structure GroupingConfig where
  enabled : Bool := false
  laneBranch : String := "env/dev"
  laneBranches : List (String × String) := []
  maxBundleSize : Nat := 30
  maxAreaClustersPerBundle : Int := 8
  skipLabelPatterns : List Regex := defaultSkipLabelPatterns
  blockerLinkTypes : List String := ["is_blocked_by", "blocked_by"]
  accumulateWindowS : Nat := 0
  cap_pos : 1 ≤ maxBundleSize := by exact one_le_maxBundleSize

inductive ScopeType where
  | project | group
  deriving DecidableEq, Repr

/-- `IntakeScope`; an empty label ingests every open issue. -/
structure IntakeScope where
  type : ScopeType := .project
  path : String := ""
  label : String := ""
  enabled : Bool := true
  deriving DecidableEq, Repr

/-- One of `VALID_PRIORITY_BANDS`. -/
abbrev Band : Type := Fin 6

instance neZeroBands : NeZero 6 := ⟨by decide⟩

/-- `IntakePriority`. -/
structure IntakePriority where
  default : Band := 3
  authorIds : List (Int × Band) := []
  projectPaths : List (String × Band) := []
  labels : List (String × Band) := []
  labelPrefixes : List String := []
  deriving DecidableEq, Repr

/-- `band_for`: the author, then the project or its scope, then a label, then a
label prefix decides. -/
def IntakePriority.bandFor (p : IntakePriority) (authorId : Option Int)
    (projectPath scopePath : String) (labels : List String) : Band :=
  let byAuthor := authorId.bind (fun author => p.authorIds.lookup author)
  let byPath := ([projectPath, scopePath].filter (fun path => decide (path ≠ ""))).findSome?
    (fun path => p.projectPaths.lookup path)
  let byLabel := labels.findSome? (fun label => p.labels.lookup label)
  let byStart : Option Band :=
    if p.labelPrefixes.any (fun start => labels.any (fun l => Text.startsWith l start)) then
      some 0
    else none
  (((byAuthor.or byPath).or byLabel).or byStart).getD p.default

/-- The `dedup_scope` of a policy. -/
inductive DedupScope where
  | iid | full
  deriving DecidableEq, Repr

/-- `GitLabIntakePolicy`, as `load_policy` returns it. -/
structure GitLabIntakePolicy where
  enabled : Option Bool := none
  requires : List String := ["tooling"]
  scopes : List IntakeScope := []
  priority : IntakePriority := {}
  dedupScope : DedupScope := .iid
  grouping : GroupingConfig := {}
  configured : Bool := false

end HermesCluster
