import HermesCluster.Core.AgentExecutor
import HermesCluster.Lib.Regex
/-!
# The reap of a Hermes worker

`_reap_hermes_spawn` of `core/agent_executor.py`, with the content guards of
`core/deliverable_guard.py`: what the process, the files of the delivery and the shared
results directory say of a worker. The crash diagnostics it appends are left out.
-/

namespace HermesCluster

/-- How the reap classifies a finished worker. -/
inductive ReapOutcome where
  | done | transcriptPromoted | blocked | nonDeliverable | laneBusyRefused | timeout
  | lostDeliverable | spawnFailed | noResult
  deriving DecidableEq, Repr

/-- What becomes of it in `_reap_finished_spawns`. -/
def ReapOutcome.toOutcome : ReapOutcome → Outcome
  | .done => .done
  | .transcriptPromoted => .transcriptPromoted
  | .blocked => .blocked
  | .nonDeliverable => .nonDeliverable
  | .laneBusyRefused => .laneBusyRefused
  | .timeout => .timeout
  | .lostDeliverable | .spawnFailed | .noResult => .other

/-- A `.hermes-tmp.*` entry of the results directory, and the task whose worker
wrote it, which the reap does not know. -/
structure TmpFile where
  path : String
  isFile : Bool := true
  mtime : Nat
  writer : String
  deriving DecidableEq, Repr

/-- A file that may be missing or unreadable. -/
inductive FileText where
  | missing | unreadable | text (contents : String)
  deriving DecidableEq, Repr

/-- The contents, where they can be read. -/
def FileText.read : FileText → String
  | .text contents => contents
  | .missing | .unreadable => ""

/-- What a reap looks at. -/
structure ReapView where
  /-- The exit code, once the process has exited. -/
  exitCode : Option Int := none
  /-- `os.kill(pid, 0)` does not find the pid gone. -/
  pidAnswers : Bool := true
  resultPath : String := ""
  result : FileText := .missing
  stdoutPath : String := ""
  transcript : FileText := .missing
  stderr : String := ""
  /-- The brief that was dispatched, or nothing. -/
  brief : String := ""
  /-- What `_escalation_ballot` makes of the side-file. -/
  escalation : Option BlockTaskRequest := none
  /-- `_write_promoted_result` succeeds. -/
  promotes : Bool := true
  /-- `.hermes-tmp.*` in the results directory. -/
  tmps : List TmpFile := []

namespace HermesReap

/-! ## The deliverable -/

section Content

variable [Unicode]

/-- `RESULT_SENTINEL`. -/
def resultSentinel : String :=
  "<!-- LANE-STARTED: the executor wrote this before launching hermes; " ++
    "the lane never delivered a result. Crash diagnostics follow (if any) " ++
    "— NOT a verdict (shared/claude-plugins#892). -->"

omit [Unicode] in
/-- A line that the executor wrote before the worker ran. -/
def isOwnLine (line : String) : Bool :=
  line = resultSentinel || Text.startsWith line "<!-- task:"

/-- `_content_after_sentinel`. -/
def contentAfterSentinel (contents : String) : String :=
  Text.strip (Text.join "\n" ((Text.splitlines contents).dropWhile isOwnLine))

open Regex

/-- `_PROVIDER_SHAPE`. -/
def providerShape : Regex :=
  seqs [bos, litI "API call failed after ", plus digit, litI " retries:", space]

/-- `_NO_TURN_LINE`. -/
def noTurnLine : Regex :=
  seqs [lit "Session ", plus (chr fun c => !Unicode.isSpace c),
    lit " found but has no messages. Starting fresh."]

/-- `s.lstrip()`. -/
def lstrip (s : String) : String :=
  String.ofList (s.toList.dropWhile Unicode.isSpace)

/-- `_is_provider_shape`. -/
def isProviderShape (content : String) (isErrorResponse : Bool) : Bool :=
  (providerShape.matchStart (lstrip content)).isSome ||
    (isErrorResponse && providerShape.found content)

/-- `_flat`. -/
def flat (s : String) : String :=
  Unicode.lower (String.ofList (s.toList.filter fun c => !Unicode.isSpace c))

def echoTrimBudget : Nat := 16
def echoMinFlat : Nat := 120

/-- `_is_echo_of_brief`: up to the budget may be cut at each end. -/
def isEchoOfBrief (content brief : String) : Bool :=
  let cb := flat brief
  let cr := (flat content).toList
  if cr.length < echoMinFlat || cb.toList.length < echoMinFlat then false
  else
    (List.range (echoTrimBudget + 1)).any fun lead =>
      (List.range (echoTrimBudget + 1)).any fun tail =>
        let core := (cr.drop lead).take (cr.length - lead - tail)
        !core.isEmpty && Text.contains cb (String.ofList core)

/-- `classify_non_deliverable`. -/
def classifyNonDeliverable (content brief : String) (isErrorResponse : Bool) : Option String :=
  if Text.strip content = "" then none
  else if isProviderShape content isErrorResponse then some "provider_error"
  else if isEchoOfBrief content brief then some "brief_echo"
  else none

/-- `has_no_turn_stderr`. -/
def hasNoTurnStderr (stderr : String) : Bool :=
  noTurnLine.found stderr

/-! ## The refusal of a busy lane -/

def refusalReasonStart : String := "hermes-refusal-reason:"

/-- `_refusal_reason`. -/
def refusalReason (stderr : String) : String :=
  match ((Text.splitlines stderr).map Text.strip).find? (Text.startsWith · refusalReasonStart) with
  | some line => Text.strip (Text.removePrefix refusalReasonStart line)
  | none => ""

/-- `_refusal_text`: the last such line and what follows it. -/
def refusalText (stderr : String) : String :=
  Text.strip (Text.join "\n" (((Text.splitlines stderr).map Text.strip).foldl
    (fun out s =>
      if Text.startsWith s refusalReasonStart then [s]
      else if out.isEmpty then out
      else out ++ [s]) []))

omit [Unicode] in
/-- `_LANE_BUSY_REFUSALS`. -/
def laneBusyRefusals : List String :=
  ["SESSION_NOT_OWNED", "MAX_CONCURRENT_SESSIONS", "SESSION_COORDINATION_UNAVAILABLE"]

/-- The last lines of the error output, kept when the exit was seen. -/
def spawnExitStderr (stderr : String) : String :=
  let lines := ((Text.strip stderr).toList.splitOn '\n').map String.ofList
  Text.take 500 (Text.join "\n" (lines.drop (lines.length - 5)))

/-! ## The reap -/

omit [Unicode] in
/-- `poll()`: a stand-in only sees whether the pid is gone, which is an exit with 0. -/
def poll (spawn : ActiveSpawn) (v : ReapView) : Option Int :=
  if spawn.standIn then (if v.pidAnswers then none else some 0) else v.exitCode

omit [Unicode] in
/-- `_stranded_tmps`. -/
def strandedTmps (since : Nat) (tmps : List TmpFile) : List TmpFile :=
  tmps.filter fun t => t.isFile && decide (since ≤ t.mtime)

omit [Unicode] in
/-- `f"{elapsed:.0f}s"`. -/
def seconds (elapsed : Nat) : String :=
  Text.fixed 0 ((elapsed : Rat) / 1000000) ++ "s"

omit [Unicode] in
def strandedDetail (stranded : List TmpFile) : String :=
  "hermes exited rc=0 but " ++ toString stranded.length ++ " stranded .hermes-tmp.* file(s) " ++
    "from this delivery were never renamed into place (lost deliverable — " ++
    "shared/claude-plugins#868): " ++ Text.join ", " (stranded.map TmpFile.path)

/-- The file that the worker was to write, without the executor's own lines. -/
def delivered (v : ReapView) : String :=
  if v.resultPath = "" then "" else contentAfterSentinel v.result.read

/-- What a worker that exited with 0 and wrote its result came to. -/
def judgeDelivery (elapsed : Nat) (v : ReapView) : ReapOutcome × String :=
  let contents := delivered v
  match classifyNonDeliverable contents v.brief (Text.contains v.stderr "API failed after") with
  | some reason =>
      (.nonDeliverable, "result body is not a deliverable (" ++ reason ++
        (if hasNoTurnStderr v.stderr then
          "; agent produced no turn — session restored zero messages" else "") ++
        "): " ++ Text.repr (Text.take 200 (Text.strip contents)))
  | none =>
      match v.escalation with
      | some ballot =>
          (.blocked, "lane escalated a decision to the owner: " ++
            Text.repr (Text.take 120 ballot.question) ++ " (" ++ toString ballot.options.length ++
            " options, class=" ++ ballot.cls.getD "None" ++ ")")
      | none => (.done, "hermes result written in " ++ seconds elapsed ++ " (" ++ v.resultPath ++ ")")

/-- What a worker that exited with 0 and wrote no result came to. -/
def judgeTranscript (elapsed : Nat) (v : ReapView) : ReapOutcome × String :=
  let exited := "hermes exited rc=0 after " ++ seconds elapsed
  if Text.strip v.transcript.read = "" then (.noResult, exited ++ " but wrote no result")
  else if v.resultPath = "" then
    (.lostDeliverable, exited ++ " but wrote no deliverable at " ++ v.resultPath ++
      "; transcript present at " ++ v.stdoutPath ++
      " — do NOT treat it as the verdict (shared/claude-plugins#868)")
  else if v.promotes then
    (.transcriptPromoted, exited ++ " without writing " ++ v.resultPath ++
      "; the executor PROMOTED the transcript at " ++ v.stdoutPath ++
      " into it with a visible marker — outcome transcript_promoted, NOT a lane verdict " ++
      "(shared/claude-plugins#871)")
  else
    (.lostDeliverable, exited ++ " but wrote no deliverable at " ++ v.resultPath ++
      " and the transcript promotion write FAILED; transcript at " ++ v.stdoutPath ++
      " — do NOT treat it as the verdict (shared/claude-plugins#868 #871)")

/-- What a worker that exited with another code came to. -/
def judgeCrash (spawn : ActiveSpawn) (rc : Int) (elapsed : Nat) (v : ReapView) :
    ReapOutcome × String :=
  let detail := "hermes exited rc=" ++ toString rc ++ " after " ++ seconds elapsed
  if spawn.laneKey ≠ "" ∧ refusalReason v.stderr ∈ laneBusyRefusals then
    let refusal := refusalText v.stderr
    (.laneBusyRefused, if refusal = "" then detail else refusal)
  else
    let lines := spawnExitStderr v.stderr
    (.spawnFailed, if lines = "" then detail else detail ++ ": " ++ Text.take 300 lines)

/-- `_reap_hermes_spawn`: nothing while the worker may still run. -/
def reapHermesSpawn (spawnTimeout : Nat) (spawn : ActiveSpawn) (elapsed : Nat) (v : ReapView) :
    Option (ReapOutcome × String) :=
  match poll spawn v with
  | none =>
      if spawnTimeout < elapsed then some (.timeout, "exceeded " ++ seconds spawnTimeout) else none
  | some rc =>
      if rc ≠ 0 then some (judgeCrash spawn rc elapsed v)
      else
        let stranded := strandedTmps spawn.startedAt v.tmps
        if stranded ≠ [] then some (.lostDeliverable, strandedDetail stranded)
        else if delivered v ≠ "" then some (judgeDelivery elapsed v)
        else some (judgeTranscript elapsed v)

end Content

/-! ## What a resolution tells of the process -/

section Process

variable [Unicode] {spawnTimeout elapsed : Nat} {spawn : ActiveSpawn} {v : ReapView}
  {x : ReapOutcome × String}

theorem exited_of_reapHermesSpawn (h : reapHermesSpawn spawnTimeout spawn elapsed v = some x) :
    (poll spawn v).isSome = true ∨ x.1 = .timeout := by
  unfold reapHermesSpawn at h
  split at h
  · split at h
    · cases h
      exact .inr rfl
    · cases h
  · rename_i hexit
    rw [hexit]
    exact .inl rfl

/-- Only a worker that was started here, and exited with another code than 0, was
refused by its lane. -/
theorem exitCode_of_refused (h : reapHermesSpawn spawnTimeout spawn elapsed v = some x)
    (hrefused : x.1 = .laneBusyRefused) : ∃ rc ≠ 0, poll spawn v = some rc := by
  have hdelivery : (judgeDelivery elapsed v).1 ≠ .laneBusyRefused := by
    unfold judgeDelivery
    dsimp only
    split
    · nofun
    · split
      · nofun
      · nofun
  have htranscript : (judgeTranscript elapsed v).1 ≠ .laneBusyRefused := by
    unfold judgeTranscript
    dsimp only
    split
    · nofun
    · split
      · nofun
      · split
        · nofun
        · nofun
  unfold reapHermesSpawn at h
  split at h
  · split at h
    · cases h
      cases hrefused
    · cases h
  · rename_i rc hexit
    split at h
    · rename_i hrc
      exact ⟨rc, hrc, hexit⟩
    · dsimp only at h
      split at h
      · cases h
        cases hrefused
      · split at h
        · cases h
          exact absurd hrefused hdelivery
        · cases h
          exact absurd hrefused htranscript

theorem standIn_of_refused (h : reapHermesSpawn spawnTimeout spawn elapsed v = some x)
    (hrefused : x.1 = .laneBusyRefused) : spawn.standIn = false := by
  obtain ⟨rc, hrc, hexit⟩ := exitCode_of_refused h hrefused
  unfold poll at hexit
  split at hexit
  · split at hexit
    · cases hexit
    · cases hexit
      exact absurd rfl hrc
  · rename_i hown
    exact Bool.eq_false_iff.mpr hown

end Process

/-! ## What other lanes write -/

section Shared

variable [Unicode] {spawn : ActiveSpawn} {v v' : ReapView}

omit [Unicode] in
/-- The two views differ in what other workers wrote to the results directory. -/
structure SameOwn (spawn : ActiveSpawn) (v v' : ReapView) : Prop where
  shared : v' = { v with tmps := v'.tmps }
  own : v'.tmps.filter (fun t => t.writer = spawn.taskId) =
    v.tmps.filter (fun t => t.writer = spawn.taskId)

/-- What a worker that exited with 0 left is lost whatever is stranded. -/
def LostAnyway (v : ReapView) : Prop :=
  delivered v = "" ∧ Text.strip v.transcript.read ≠ "" ∧ (v.resultPath = "" ∨ v.promotes = false)

/-- What a worker that exited with 0 came to, where nothing is stranded. -/
def judgeClean (elapsed : Nat) (v : ReapView) : ReapOutcome × String :=
  if delivered v ≠ "" then judgeDelivery elapsed v else judgeTranscript elapsed v

theorem judgeDelivery_ne_lost (elapsed : Nat) (v : ReapView) :
    (judgeDelivery elapsed v).1 ≠ .lostDeliverable := by
  unfold judgeDelivery
  dsimp only
  split
  · nofun
  · split
    · nofun
    · nofun

theorem judgeClean_lost_iff (elapsed : Nat) :
    (judgeClean elapsed v).1 = .lostDeliverable ↔ LostAnyway v := by
  unfold judgeClean LostAnyway
  by_cases hdelivered : delivered v = ""
  · rw [if_neg (not_not.mpr hdelivered)]
    unfold judgeTranscript
    dsimp only
    split
    case isTrue hblank => simp [hblank]
    case isFalse hblank =>
      split
      case isTrue hpath => simp [hdelivered, hblank, hpath]
      case isFalse hpath =>
        split
        case isTrue hpromotes => simp [hpath, hpromotes]
        case isFalse hpromotes => simp [hdelivered, hblank, hpromotes]
  · rw [if_pos hdelivered]
    exact iff_of_false (judgeDelivery_ne_lost elapsed v) (fun h => hdelivered h.1)

theorem reapHermesSpawn_of_clean {spawnTimeout elapsed : Nat} (hrc : poll spawn v = some 0) :
    reapHermesSpawn spawnTimeout spawn elapsed v =
      some (if strandedTmps spawn.startedAt v.tmps ≠ [] then
        (.lostDeliverable, strandedDetail (strandedTmps spawn.startedAt v.tmps))
      else judgeClean elapsed v) := by
  unfold reapHermesSpawn judgeClean
  rw [hrc]
  dsimp only
  rw [if_neg (not_not.mpr rfl)]
  split
  · rfl
  · split
    · rfl
    · rfl

/-- Two views that differ in what other lanes wrote resolve a worker with the same
outcome exactly when it did not exit with 0, or its deliverable is lost anyway, or
neither or both show a file that was written since it started. -/
theorem reapHermesSpawn_same_iff (spawnTimeout elapsed : Nat) (h : SameOwn spawn v v') :
    (reapHermesSpawn spawnTimeout spawn elapsed v').map Prod.fst =
        (reapHermesSpawn spawnTimeout spawn elapsed v).map Prod.fst ↔
      poll spawn v ≠ some 0 ∨ LostAnyway v ∨
        (strandedTmps spawn.startedAt v'.tmps = [] ↔ strandedTmps spawn.startedAt v.tmps = []) := by
  have hpoll : poll spawn v' = poll spawn v := by rw [h.shared]; rfl
  have hclean : judgeClean elapsed v' = judgeClean elapsed v := by rw [h.shared]; rfl
  by_cases hrc : poll spawn v = some 0
  · rw [reapHermesSpawn_of_clean hrc, reapHermesSpawn_of_clean (hpoll.trans hrc), hclean]
    simp only [Option.map_some, Option.some.injEq]
    have hlost := judgeClean_lost_iff (v := v) elapsed
    by_cases hhere : strandedTmps spawn.startedAt v.tmps = []
    · by_cases hthere : strandedTmps spawn.startedAt v'.tmps = []
      · simp [hhere, hthere]
      · simp only [hhere, hthere, hrc, ne_eq, not_true_eq_false, not_false_eq_true, if_true,
          if_false, false_or, iff_true, or_false]
        rw [eq_comm]
        exact hlost
    · by_cases hthere : strandedTmps spawn.startedAt v'.tmps = []
      · simp only [hhere, hthere, hrc, ne_eq, not_true_eq_false, not_false_eq_true, if_true,
          if_false, false_or, true_iff, or_false]
        exact hlost
      · simp [hhere, hthere]
  · refine iff_of_true ?_ (.inl hrc)
    unfold reapHermesSpawn
    rw [hpoll]
    cases hexit : poll spawn v with
    | none => rfl
    | some rc =>
        have hne : rc ≠ 0 := fun hzero => hrc (hzero ▸ hexit)
        dsimp only
        rw [if_pos hne, if_pos hne]
        have hcrash : judgeCrash spawn rc elapsed v' = judgeCrash spawn rc elapsed v := by
          rw [h.shared]
          rfl
        rw [hcrash]

end Shared

section Example

local instance asciiReap : Unicode := Unicode.ascii

def laneSpawn : ActiveSpawn where
  taskId := "t1"
  startedAt := 100
  laneName := "hermes-t1"
  hermes := true

/-- A worker exited with 0 and wrote its result, while another lane's file was
touched at some time. -/
def sharedView (mtime : Nat) : ReapView where
  exitCode := some 0
  resultPath := "hermes-results/t1.md"
  result := .text "Verdict: PASS\n"
  tmps := [{ path := "hermes-results/.hermes-tmp.x", mtime := mtime, writer := "t2" }]

def aloneView : ReapView := { sharedView 0 with tmps := [] }

theorem reapHermesSpawn_same_iff_stale :
    (reapHermesSpawn 1000 laneSpawn 60 (sharedView 50)).map Prod.fst =
      (reapHermesSpawn 1000 laneSpawn 60 aloneView).map Prod.fst :=
  (reapHermesSpawn_same_iff 1000 60 ⟨rfl, rfl⟩).mpr (.inr (.inr (by decide)))

theorem lost_to_other_lane :
    SameOwn laneSpawn aloneView (sharedView 150) ∧
      (reapHermesSpawn 1000 laneSpawn 60 aloneView).map Prod.fst = some .done ∧
      (reapHermesSpawn 1000 laneSpawn 60 (sharedView 150)).map Prod.fst =
        some .lostDeliverable :=
  ⟨⟨rfl, rfl⟩, by decide +kernel, by decide +kernel⟩

end Example

end HermesReap

end HermesCluster
