import HermesCluster.Models
import HermesCluster.Lib.Regex
/-!
# Submit guards

The checks of `routers/tasks.py` that compare a brief with the target its lane
names, and the requested capabilities with what the fleet can serve.
-/

namespace HermesCluster

namespace SubmitGuards

open Regex

variable [Unicode]

/-- `_lane_target`: the number a lane key names. -/
def laneTarget (laneKey : String) : Option String :=
  ((seqs [oneOf "!#", group (plus digit)]).search laneKey).bind (fun c => c.captures.head?)

/-- `_brief_names_target`: the target as a number, not as a substring. -/
def briefNamesTarget (title target : String) : Bool :=
  (seqs [notBefore Unicode.isDecimal, lit target, notAfter Unicode.isDecimal]).found title

/-- `(?: pr | mr | issue )`, ignoring case. -/
def referrer : Regex := alts [litI "pr", litI "mr", litI "issue"]

/-- `\s+`. -/
def gap : Regex := plus space

/-- `[!#]?`. -/
def mark : Regex := opt (oneOf "!#")

/-- `_ACTION_REF_RE`: a number that a posting or reviewing action is bound to. -/
def actionRefRe : Regex :=
  let cli := seqs [alt (litI "gh") (litI "glab"), gap, referrer, gap,
    alts (["comment", "review", "close", "merge", "edit", "approve", "ready"].map litI)]
  let comment := seqs [litI "comment", opt (alt (litI "s") (litI "ed")), gap, litI "on"]
  let post := seqs [litI "post", opt (alt (litI "s") (litI "ed")),
    opt (seqs [gap, litI "the", gap, plus word]), gap,
    alts [litI "to", litI "on", litI "in"]]
  let verdict := seqs [litI "verdict", gap, alt (litI "on") (litI "for")]
  let review := seqs [litI "review", opt (alt (litI "s") (litI "ed")),
    opt (seqs [gap, litI "the"]), gap, referrer, star space, mark]
  let merge := seqs [alt (litI "merge") (litI "close"), gap, opt (seqs [litI "the", gap]),
    referrer, star space, mark]
  let merged := seqs [alt (litI "merged") (litI "closed"), gap, litI "the", gap, opt referrer]
  seqs [wordBoundary, alts [cli, comment, post, verdict, review, merge, merged],
    star space, mark, star space, group (plus digit), notAfter Unicode.isWord]

/-- `_action_ref_mismatches`: action-bound numbers that are not the target. -/
def actionRefMismatches (brief target : String) : List String :=
  (actionRefRe.findall brief).filter (fun n => !briefNamesTarget n target)

omit [Unicode] in
/-- `_schedulable_nodes`. -/
def schedulableNodes (nodes : List Node) : List Node :=
  nodes.filter (fun node => !node.drained)

omit [Unicode] in
/-- `_known_capabilities`. -/
def knownCapabilities (nodes : List Node) : List String :=
  (schedulableNodes nodes).flatMap Node.capabilities

omit [Unicode] in
/-- `_unsatisfiable_capabilities`: nothing is refused while no node could be
asked. -/
def unsatisfiableCapabilities (nodes : List Node) (taskRequires : List String) :
    List String :=
  if schedulableNodes nodes = [] then []
  else taskRequires.filter (fun cap => decide (cap ∉ knownCapabilities nodes))

/-! ## The refusals -/

def wrongColumnDetail (laneKey : String) : String :=
  "brief in the wrong column (#872): lane_key " ++ Text.repr laneKey ++ " " ++
    "got a multi-line title -- that is a brief pasted into the " ++
    "goal field. Send the job text in `description` and keep " ++
    "`title` one line."

def targetDetail (laneKey target : String) (fromDescription : Bool) : String :=
  "brief/target disagreement (#872): lane_key " ++ Text.repr laneKey ++ " " ++
    "names target " ++ target ++ ", but the brief " ++
    "(" ++ (if fromDescription then "description" else "title -- which IS the brief") ++ ") " ++
    "never mentions it. The lane would run the wrong job and report " ++
    "completed. Fix the brief, or the lane_key."

def actionDetail (laneKey target : String) (mismatches : List String) : String :=
  "brief/action disagreement (#872): lane_key " ++
    Text.repr laneKey ++ " names target " ++ target ++ ", but the brief " ++
    "binds a posting/reviewing action " ++
    "to " ++ Text.join ", " (Text.sortedSet mismatches) ++ ". The lane would " ++
    "act on the wrong target -- or silently override its own " ++
    "brief and get lucky. Fix the number in the brief, or " ++
    "the lane_key."

def reviewerLaneDetail (lane target : String) : String :=
  "landing refused (#914): lane " ++ Text.repr lane ++ " is the " ++
    "reviewer lane of " ++ target ++ " — a reviewer never lands " ++
    "what it reviewed (RV-1). Use '<repo>#land-<n>'."

def authoringLaneDetail (lane target : String) : String :=
  "landing refused (#914): lane " ++ Text.repr lane ++ " authored " ++
    target ++ " (carries it in issues) — author != lander " ++
    "(RV-1 is not negotiable). A dedicated lander lane " ++
    "'<repo>#land-<n>' on a reviewer's PASS at the head."

omit [Unicode] in
def capabilityDetail (unknown known : List String) : String :=
  "unsatisfiable capability (#907): no registered node advertises " ++
    Text.join ", " (Text.sortedSet unknown) ++ ". This task would queue forever " ++
    "instead of running. Known capabilities: " ++
    (if known = [] then "(none — every schedulable node advertises nothing)"
      else Text.join ", " (Text.sortedSet known)) ++ ". " ++
    "Either request one of those, or teach a node to advertise the " ++
    "capability you need — do NOT relabel the task with a capability " ++
    "that merely schedules."

omit [Unicode] in
def missingDepsDetail (missing : List String) : String :=
  "depends_on names unknown task(s): " ++ Text.join ", " missing ++ " — " ++
    "a task waiting on a dependency that does not exist can " ++
    "never be promoted (#905)"

end SubmitGuards

end HermesCluster
