import HermesCluster.Plugin.Retries
/-!
# The tools

The handlers of `plugin.py` through which a lane submits, completes, blocks and answers
tasks. A submission that main took is followed by a scheduling trigger, unless main says
that it has the task already; what comes of the trigger does not reach the lane.

A submission may run more than once on main, if its answer is lost. For a reviewer main
finds the task of the earlier attempt and hands it out again.
-/

namespace HermesCluster

open Program hiding pure bind

namespace Plugin

/-! ## The code -/

/-- The arguments of `kanban_cluster_submit`; what is not given is `none`. -/
structure SubmitArgs where
  title : Option String := none
  requires : Option (List String) := none
  priority : Option Int := none
  role : Option String := none
  laneKey : Option String := none
  dependsOn : Option (List String) := none

/-- The payload of `handle_cluster_submit`: a role, a lane or dependencies that are empty
are not sent. -/
def submitPayload (args : SubmitArgs) : SubmitPayload where
  title := args.title.getD "Untitled task"
  requires := args.requires.getD []
  priority := args.priority.getD 3
  role := args.role.filter (fun role => decide (role ≠ ""))
  laneKey := args.laneKey.filter (fun lane => decide (lane ≠ ""))
  dependsOn := args.dependsOn.filter (fun deps => decide (deps ≠ []))

/-- `handle_cluster_submit`. -/
def handleClusterSubmit (endpoint : Endpoint) (args : SubmitArgs) : Tool Answer := do
  let result ← apiCall endpoint (.submit (submitPayload args))
  if ¬result.HasError ∧ ¬result.Deduped then
    let _ ← apiCall endpoint .scheduleTrigger
    pure result
  else pure result

/-- `args.get("task_id")`, where it is not empty. -/
def givenId (taskId : Option String) : Option String :=
  taskId.filter (fun id => decide (id ≠ ""))

/-- A tool about one task: `if not task_id`, and then the one request. -/
def withTaskId (endpoint : Endpoint) (taskId : Option String) (req : String → Request) :
    Tool Answer :=
  match givenId taskId with
  | none => pure (.error "task_id is required")
  | some id => apiCall endpoint (req id)

/-- `handle_cluster_complete`: no result goes with it. -/
def handleClusterComplete (endpoint : Endpoint) (taskId : Option String) : Tool Answer :=
  withTaskId endpoint taskId .complete

/-- The arguments of `kanban_cluster_block` beside the task. -/
structure BlockArgs where
  question : Option String := none
  options : Option (List String) := none
  cls : Option String := none
  decisionRef : Option String := none
  decisionId : Option String := none

/-- The body of `handle_cluster_block`: a class or an address that is empty is not sent. -/
def BlockArgs.body (args : BlockArgs) : BlockTaskRequest where
  question := args.question.getD ""
  options := args.options.getD []
  cls := args.cls.filter (fun cls => decide (cls ≠ ""))
  decisionRef := args.decisionRef.filter (fun ref => decide (ref ≠ ""))
  decisionId := args.decisionId.filter (fun id => decide (id ≠ ""))

/-- `handle_cluster_block`. -/
def handleClusterBlock (endpoint : Endpoint) (taskId : Option String) (args : BlockArgs) :
    Tool Answer :=
  withTaskId endpoint taskId (fun id => .block id args.body)

/-- The body of `handle_cluster_answer`. -/
def answerBody (answer answeredBy : Option String) : AnswerTaskRequest where
  answer := answer.getD ""
  answeredBy := answeredBy.getD ""

/-- `handle_cluster_answer`. -/
def handleClusterAnswer (endpoint : Endpoint) (taskId answer answeredBy : Option String) :
    Tool Answer :=
  withTaskId endpoint taskId (fun id => .answer id (answerBody answer answeredBy))

section World

variable [Unicode] {k : Backend}

/-! ## A submission and its trigger -/

theorem run_handleClusterSubmit {endpoint : Endpoint} {args : SubmitArgs}
    {attempts : Nat → Attempt} {l l₁ : Link k} {answer : Answer}
    (h : (apiCall endpoint (.submit (submitPayload args))).run (step attempts) l =
      (.ok answer, l₁)) :
    (handleClusterSubmit endpoint args).run (step attempts) l = (.ok answer,
      if ¬answer.HasError ∧ ¬answer.Deduped then
        ((apiCall endpoint .scheduleTrigger).run (step attempts) l₁).2
      else l₁) := by
  rw [handleClusterSubmit, run_bind_of_eq h]
  by_cases htaken : ¬answer.HasError ∧ ¬answer.Deduped
  · obtain ⟨_, _, _, htrigger, -⟩ := apiCall_run endpoint attempts .scheduleTrigger l₁
    rw [if_pos htaken, if_pos htaken, run_bind_of_eq htrigger]
    rfl
  · rw [if_neg htaken, if_neg htaken]
    rfl

/-- A submission is sent up to three times and returns what came back last; only an answer
with no error, which does not name a task that was there, is followed by triggers, of which
there are up to three too and nothing is heard. -/
theorem handleClusterSubmit_run (endpoint : Endpoint) (args : SubmitArgs)
    (attempts : Nat → Attempt) (l : Link k) :
    ∃ answer submitted triggered ran,
      ((handleClusterSubmit endpoint args).run (step attempts) l).1 = .ok answer ∧
      Ran l ((handleClusterSubmit endpoint args).run (step attempts) l).2 ran ∧
      ((handleClusterSubmit endpoint args).run (step attempts) l).2.responses =
        l.responses ++ submitted ++ triggered ∧
      own ran = callsOf attempts (.submit (submitPayload args)) l.sent submitted.length ++
        callsOf attempts .scheduleTrigger (l.sent + submitted.length) triggered.length ∧
      submitted.length ≤ 3 ∧ triggered.length ≤ 3 ∧
      (submitted = [] ↔ endpoint.baseUrl = "") ∧
      (endpoint.baseUrl ≠ "" → Story 3 submitted answer) ∧
      (triggered ≠ [] ↔ endpoint.baseUrl ≠ "" ∧ ¬answer.HasError ∧ ¬answer.Deduped) := by
  obtain ⟨answer, submitted, ran, hrun, hran, hresponses, hsent, hown, hlimit, hbase, hstory⟩ :=
    apiCall_run endpoint attempts (.submit (submitPayload args)) l
  set l₁ := ((apiCall endpoint (.submit (submitPayload args))).run (step attempts) l).2 with hl₁
  rw [run_handleClusterSubmit hrun]
  by_cases htaken : ¬answer.HasError ∧ ¬answer.Deduped
  · rw [if_pos htaken]
    obtain ⟨_, triggered, ran', -, hran', hresponses', -, hown', hlimit', hbase', -⟩ :=
      apiCall_run endpoint attempts .scheduleTrigger l₁
    refine ⟨answer, submitted, triggered, ran ++ ran', rfl, hran.trans hran', ?_, ?_, hlimit,
      hlimit', hbase, hstory, ?_⟩
    · exact hresponses'.trans (by rw [hresponses])
    · rw [own_append, hown, hown', hsent]
    · rw [ne_eq, hbase']
      simp only [htaken, ne_eq, not_false_eq_true, and_true]
  · rw [if_neg htaken]
    refine ⟨answer, submitted, [], ran, rfl, hran, ?_, ?_, hlimit, by simp, hbase, hstory, ?_⟩
    · rw [List.append_nil]
      exact hresponses
    · rw [hown]
      exact (List.append_nil _).symm
    · simp only [ne_eq, not_true_eq_false, false_iff, not_and]
      exact fun _ herror => not_and.mp htaken herror

/-! ## Every tool takes effect once -/

/-- A call of one of the tools. -/
inductive ToolCall where
  | submit (args : SubmitArgs)
  | complete (taskId : Option String)
  | block (taskId : Option String) (args : BlockArgs)
  | answer (taskId answer answeredBy : Option String)

def ToolCall.handle (endpoint : Endpoint) : ToolCall → Tool Answer
  | .submit args => handleClusterSubmit endpoint args
  | .complete taskId => handleClusterComplete endpoint taskId
  | .block taskId args => handleClusterBlock endpoint taskId args
  | .answer taskId text answeredBy => handleClusterAnswer endpoint taskId text answeredBy

/-- The request of a call that names its task. -/
def ToolCall.request : ToolCall → Option Request
  | .submit args => some (.submit (submitPayload args))
  | .complete taskId => (givenId taskId).map .complete
  | .block taskId args => (givenId taskId).map (fun id => .block id args.body)
  | .answer taskId text answeredBy =>
      (givenId taskId).map (fun id => .answer id (answerBody text answeredBy))

/-- What a call of the API makes main run is its request. -/
theorem apiCall_ran (endpoint : Endpoint) (attempts : Nat → Attempt) (req : Request)
    (l : Link k) :
    ∃ ran, Ran l ((apiCall endpoint req).run (step attempts) l).2 ran ∧
      ∀ x ∈ ran, x.1 = .tool → ∃ taskId clock, x.2 ∈ req.calls taskId clock := by
  obtain ⟨_, rs, ran, -, hran, -, -, hown, -⟩ := apiCall_run endpoint attempts req l
  refine ⟨ran, hran, fun x hx htool => ?_⟩
  have hmem : x.2 ∈ own ran :=
    List.mem_map_of_mem (List.mem_filter.mpr ⟨hx, decide_eq_true htool⟩)
  rw [hown] at hmem
  exact exists_of_mem_callsOf hmem

omit [Unicode] in
theorem isTrigger_of_mem {c : TimedCall} {taskId : String} {clock : Nat → Nat}
    (h : c ∈ Request.calls taskId clock .scheduleTrigger) : IsTrigger c.call := by
  simp only [Request.calls, List.mem_cons, List.not_mem_nil, or_false] at h
  rcases h with rfl | rfl <;> trivial

theorem withTaskId_ran (endpoint : Endpoint) (attempts : Nat → Attempt) (taskId : Option String)
    (req : String → Request) (l : Link k) :
    ∃ ran, Ran l ((withTaskId endpoint taskId req).run (step attempts) l).2 ran ∧
      ∀ x ∈ ran, x.1 = .tool → ∃ r ∈ (givenId taskId).map req, r.Asks x.2 := by
  unfold withTaskId
  cases hgiven : givenId taskId with
  | none => exact ⟨[], .refl l, fun _ hx => absurd hx List.not_mem_nil⟩
  | some id =>
      obtain ⟨ran, hran, hcalls⟩ := apiCall_ran endpoint attempts (req id) l
      exact ⟨ran, hran, fun x hx htool => ⟨req id, rfl, .inl (hcalls x hx htool)⟩⟩

theorem handle_ran (endpoint : Endpoint) (attempts : Nat → Attempt) (call : ToolCall)
    (l : Link k) :
    ∃ ran, Ran l ((call.handle endpoint).run (step attempts) l).2 ran ∧
      ∀ x ∈ ran, x.1 = .tool → ∃ req ∈ call.request, req.Asks x.2 := by
  cases call with
  | submit args =>
      obtain ⟨answer, _, _, hrun, -⟩ :=
        apiCall_run endpoint attempts (.submit (submitPayload args)) l
      obtain ⟨ran, hran, hcalls⟩ :=
        apiCall_ran endpoint attempts (.submit (submitPayload args)) l
      set l₁ := ((apiCall endpoint (.submit (submitPayload args))).run (step attempts) l).2
      have hsubmitted : ∀ x ∈ ran, x.1 = .tool →
          ∃ req ∈ ToolCall.request (.submit args), req.Asks x.2 :=
        fun x hx htool => ⟨_, rfl, .inl (hcalls x hx htool)⟩
      change ∃ ran, Ran l ((handleClusterSubmit endpoint args).run (step attempts) l).2 ran ∧ _
      rw [run_handleClusterSubmit hrun]
      by_cases htaken : ¬answer.HasError ∧ ¬answer.Deduped
      · rw [if_pos htaken]
        obtain ⟨ran', hran', hcalls'⟩ := apiCall_ran endpoint attempts .scheduleTrigger l₁
        refine ⟨ran ++ ran', hran.trans hran', fun x hx htool => ?_⟩
        rcases List.mem_append.mp hx with hx | hx
        · exact hsubmitted x hx htool
        · obtain ⟨_, _, htrigger⟩ := hcalls' x hx htool
          exact ⟨_, rfl, .inr ⟨⟨_, rfl⟩, isTrigger_of_mem htrigger⟩⟩
      · rw [if_neg htaken]
        exact ⟨ran, hran, hsubmitted⟩
  | complete taskId => exact withTaskId_ran endpoint attempts taskId _ l
  | block taskId args => exact withTaskId_ran endpoint attempts taskId _ l
  | answer taskId text answeredBy => exact withTaskId_ran endpoint attempts taskId _ l

/-- However many attempts of a tool get through, it takes effect once: main is where
everything else that it ran and at most one run of the request would have left it. -/
theorem tool_takes_effect_once (endpoint : Endpoint) (attempts : Nat → Attempt)
    (call : ToolCall) (l : Link k) {ran : List (Asker × TimedCall)}
    (hran : ((call.handle endpoint).run (step attempts) l).2.ran = l.ran ++ ran)
    (hquiet : ∀ req ∈ call.request, Undisturbed k req ran l.main.state) :
    ∃ once : List (Asker × TimedCall), once.Sublist ran ∧
      once.filter (fun x => !byRequest x) = ran.filter (fun x => !byRequest x) ∧
      (once.filter byRequest).length ≤ 1 ∧
      ((call.handle endpoint).run (step attempts) l).2.main.state =
        (k.runCalls (once.map Prod.snd) l.main).state ∧
      ∀ req ∈ call.request, once.filter byRequest ≠ [] →
        req.Done (k.board ((call.handle endpoint).run (step attempts) l).2.main.state).tasks := by
  obtain ⟨ran', hRan, hcalls⟩ := handle_ran endpoint attempts call l
  obtain rfl : ran = ran' := List.append_cancel_left (hran.symm.trans hRan.1)
  cases hrequest : call.request with
  | none =>
      rw [hrequest] at hcalls
      have hnone : ran.filter byRequest = [] := by
        rw [List.filter_eq_nil_iff]
        intro x hx hbyRequest
        obtain ⟨_, hreq, -⟩ := hcalls x hx (of_decide_eq_true hbyRequest).1
        cases hreq
      refine ⟨ran, List.Sublist.refl ran, rfl, ?_, hRan.2, fun _ hreq => by cases hreq⟩
      rw [hnone]
      exact Nat.zero_le 1
  | some req =>
      rw [hrequest] at hcalls hquiet
      obtain ⟨once, hsub, hothers, hsingle, hsame, hdone⟩ := effective_of_ran hRan
        (fun x hx htool => by
          obtain ⟨req', hreq, hc⟩ := hcalls x hx htool
          obtain rfl := Option.some.inj hreq
          exact hc) (hquiet req rfl)
      refine ⟨once, hsub, hothers, hsingle, hsame, fun req' hreq => ?_⟩
      obtain rfl := Option.some.inj hreq
      exact hdone

end World

section Example

local instance asciiTools : Unicode := Unicode.ascii

/-- A review is handed off. -/
def handOff : SubmitArgs where
  title := some "review"
  role := some "reviewer"
  laneKey := some "l"

/-- The first attempt does not reach main, and somebody has main promote tasks before the
next one; the trigger comes through. -/
def lostFirst : Nat → Attempt
  | 0 => { fate := .lost (.urlError "Connection refused") }
  | 1 => { others := [⟨.triggerPending, fun _ => 1⟩], fate := .served "a" (fun _ => 2) none }
  | _ => { fate := .served "" (fun _ => 3) none }

/-- What main runs for it. -/
def ranOnMain : List (Asker × TimedCall) :=
  (lostFirst 1).ran (.submit (submitPayload handOff)) ++ (lostFirst 2).ran .scheduleTrigger

/-- A main with no tasks. -/
def emptyLink : Link .memory where
  main := ⟨ClusterState.empty, fun _ => 0⟩

/-- The endpoint of that main. -/
def mainEndpoint : Endpoint where
  baseUrl := "http://main"

theorem handOff_takes_effect_once :
    ∃ once : List (Asker × TimedCall), once.Sublist ranOnMain ∧
      (once.filter byRequest).length ≤ 1 ∧
      (((ToolCall.submit handOff).handle mainEndpoint).run (step lostFirst)
        emptyLink).2.main.state =
          (Backend.memory.runCalls (once.map Prod.snd) emptyLink.main).state := by
  have hran : (((ToolCall.submit handOff).handle mainEndpoint).run (step lostFirst)
      emptyLink).2.ran = emptyLink.ran ++ ranOnMain := rfl
  have hquiet : ∀ req ∈ (ToolCall.submit handOff).request,
      Undisturbed .memory req ranOnMain emptyLink.main.state := by
    intro req hreq
    cases hreq
    have hreviewer : IsReviewer "reviewer" := by decide
    have hrecognised : ∀ tasks c, (Request.submit (submitPayload handOff)).Recognised .memory
        tasks c := fun _ _ => ⟨⟨rfl, hreviewer, by decide⟩, fun _ _ _ => .inl rfl⟩
    exact ⟨⟨fun hbyRequest => absurd hbyRequest (by decide),
        fun _ htaken => taken_of_pass (k := .memory) (.inl rfl) 1 htaken⟩,
      ⟨fun _ => hrecognised _ _, fun hother => by cases hother⟩,
      ⟨fun hbyRequest => absurd hbyRequest (by decide), fun hother => by cases hother⟩,
      ⟨fun hbyRequest => absurd hbyRequest (by decide), fun hother => by cases hother⟩, trivial⟩
  obtain ⟨once, hsub, -, hsingle, hstate, -⟩ := tool_takes_effect_once mainEndpoint lostFirst
    (.submit handOff) emptyLink hran hquiet
  exact ⟨once, hsub, hsingle, hstate⟩

end Example

end Plugin

end HermesCluster
