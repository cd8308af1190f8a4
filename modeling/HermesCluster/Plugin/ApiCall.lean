import HermesCluster.Routers.Calls
/-!
# The tools' requests

`_api_call` of `plugin.py` sends a request to main and answers with what came back as a
dictionary. A failure of the transport is retried twice, after one and after two seconds;
an answer of main is never retried, whatever its status, and neither is any other
exception. Main may have run a request whose answer did not come back.

Headers and signatures are left out: a retry sends the request object it has.
-/

namespace HermesCluster

open Program hiding pure bind

namespace Plugin

/-! ## What travels -/

/-- The body of a submission: `role`, `lane_key` and `depends_on` only where given. -/
structure SubmitPayload where
  title : String
  requires : List String
  priority : Int
  role : Option String := none
  laneKey : Option String := none
  dependsOn : Option (List String) := none

/-- The schema of a submission admits the bands 0 to 5. -/
def SubmitPayload.parse (payload : SubmitPayload) : Option SubmitTaskRequest :=
  if h : 0 ≤ payload.priority ∧ payload.priority ≤ 5 then
    some
      { title := payload.title
        requires := payload.requires
        priority := some ⟨payload.priority.toNat, by omega⟩
        laneKey := payload.laneKey.getD ""
        role := payload.role.getD "author"
        dependsOn := payload.dependsOn.getD [] }
  else none

/-- A request of a tool that main runs against its tasks. -/
inductive Request where
  | submit (payload : SubmitPayload)
  | scheduleTrigger
  | complete (taskId : String)
  | block (taskId : String) (req : BlockTaskRequest)
  | answer (taskId : String) (req : AnswerTaskRequest)

/-- An exception of `urlopen`, or of what reads the body. -/
inductive Failure where
  | urlError (reason : String)
  | raised (message : String)
  deriving DecidableEq, Repr

/-- What `urlopen` and the decoding of the body come to. An HTTP error has the `detail` of
its body, unless that cannot be decoded. -/
inductive Response where
  | body (reply : HermesCluster.Reply)
  | httpError (statusCode : Nat) (phrase : String) (detail : Option String)
  | failed (failure : Failure)

/-- The dictionary that a tool gets: an answer of main, or one of its own with an error. -/
inductive Answer where
  | reply (reply : HermesCluster.Reply)
  | refused (statusCode : Nat) (detail : String)
  | error (text : String)

/-- `result.get("error")`. -/
def Answer.HasError : Answer → Prop
  | .error text => text ≠ ""
  | _ => False

instance : DecidablePred Answer.HasError := fun a => by
  cases a <;> unfold Answer.HasError <;> infer_instance

/-- `result.get("deduped")`. -/
def Answer.Deduped : Answer → Prop
  | .reply r => r.deduped = some true
  | _ => False

instance : DecidablePred Answer.Deduped := fun a => by
  cases a <;> unfold Answer.Deduped <;> infer_instance

/-- `str(e)`. -/
def Failure.text : Failure → String
  | .urlError reason => "<urlopen error " ++ reason ++ ">"
  | .raised message => message

/-- A failure of the transport, and no answer of main. -/
def Response.IsTransport : Response → Prop
  | .failed (.urlError _) => True
  | _ => False

instance : DecidablePred Response.IsTransport := fun r => by
  unfold Response.IsTransport
  split <;> infer_instance

/-- What a response is as a dictionary. -/
def Response.answer : Response → Answer
  | .body reply => .reply reply
  | .httpError statusCode _ (some detail) => .refused statusCode detail
  | .httpError statusCode phrase none =>
      .error ("HTTP Error " ++ toString statusCode ++ ": " ++ phrase)
  | .failed failure => .error failure.text

/-! ## The code -/

/-- What a tool asks of the world. -/
inductive ToolOp where
  | urlopen (req : Request)
  | sleep (seconds : Nat)

abbrev ToolOp.Res : ToolOp → Type
  | urlopen _ => Response
  | sleep _ => Unit

abbrev Tool (α : Type) : Type := Program ToolOp ToolOp.Res Empty α

def ask (op : ToolOp) : Tool op.Res := Program.perform op

/-- `_base_url` and `_endpoint_error`. -/
structure Endpoint where
  baseUrl : String
  endpointError : String := ""

/-- The attempts after a failure of the transport, one after each wait. -/
def retry (req : Request) : List Nat → Response → Tool Answer
  | [], last => pure last.answer
  | wait :: waits, _ => do
      let _ ← ask (.sleep wait)
      let response ← ask (.urlopen req)
      if response.IsTransport then retry req waits response else pure response.answer

/-- The waits between the attempts, in seconds. -/
def waits : List Nat := [1, 2]

/-- `_api_call`. -/
def apiCall (endpoint : Endpoint) (req : Request) : Tool Answer :=
  if endpoint.baseUrl = "" then
    pure (.error (if endpoint.endpointError = "" then "cluster endpoint not configured"
      else endpoint.endpointError))
  else do
    let response ← ask (.urlopen req)
    if response.IsTransport then retry req waits response else pure response.answer

/-! ## Main at the other end -/

section World

variable [Unicode]

/-- `POST /api/v1/schedule/trigger`; the counts it answers with are left out. -/
def scheduleTrigger : Api HermesCluster.Reply := do
  let _ ← store .triggerPendingTasks
  let _ ← store .schedulePendingDetailed
  pure {}

/-- What main runs for a request that its schema admits, under the id it draws for a new task. -/
def Request.prog (taskId : String) : Request → Api HermesCluster.Reply
  | .submit payload =>
      match payload.parse with
      | none => httpError 422 "Input should be between 0 and 5"
      | some req => Tasks.submitTask taskId req
  | .scheduleTrigger => Plugin.scheduleTrigger
  | .complete id => Tasks.completeTask id none
  | .block id req => Tasks.blockTask id req
  | .answer id req => Tasks.answerTask id req

/-- The same as calls. -/
def Request.calls (taskId : String) (clock : Nat → Nat) : Request → List TimedCall
  | .submit payload => payload.parse.toList.map (fun req => ⟨.submit taskId req, clock⟩)
  | .scheduleTrigger => [⟨.triggerPending, clock⟩, ⟨.schedulePass, fun i => clock (i + 1)⟩]
  | .complete id => [⟨.complete id none, clock⟩]
  | .block id req => [⟨.block id req, clock⟩]
  | .answer id req => [⟨.answer id req, clock⟩]

omit [Unicode] in
/-- The response that a handler's end comes to. -/
def responseOf : Except ApiError HermesCluster.Reply → Response
  | .ok reply => .body reply
  | .error (.http statusCode detail) => .httpError statusCode "" (some detail)
  | .error (.exception _) => .httpError 500 "Internal Server Error" none

/-- What becomes of an attempt: it does not reach main, something before main answers it,
or main runs it, under the id and the clock readings that it draws, and the answer comes
back or fails on its way. Any failure is allowed anywhere, while urllib makes a `URLError`
only of what fails up to the end of the sending. -/
inductive Fate where
  | lost (failure : Failure)
  | turnedAway (statusCode : Nat) (phrase : String) (detail : Option String)
  | served (taskId : String) (clock : Nat → Nat) (failure : Option Failure)

/-- An attempt, and the calls of others that main runs before it. -/
structure Attempt where
  others : List TimedCall := []
  fate : Fate

/-- Who made a call. -/
inductive Asker where
  | tool
  | other
  deriving DecidableEq, Repr

/-- The world of a tool: main, the attempts so far, and what they were answered; with what
main has run, in order. -/
structure Link (k : Backend) where
  main : Timed k.Store
  sent : Nat := 0
  responses : List Response := []
  ran : List (Asker × TimedCall) := []

variable {k : Backend}

/-- The calls that an attempt makes main run. -/
def Attempt.calls (a : Attempt) (req : Request) : List TimedCall :=
  match a.fate with
  | .served taskId clock _ => req.calls taskId clock
  | _ => []

/-- One attempt. -/
def urlopen (req : Request) (a : Attempt) (l : Link k) : Response × Link k :=
  let main := k.runCalls a.others l.main
  let ran := l.ran ++ a.others.map (fun c => (.other, c)) ++ (a.calls req).map (fun c => (.tool, c))
  let (response, main) : Response × Timed k.Store :=
    match a.fate with
    | .lost failure => (.failed failure, main)
    | .turnedAway statusCode phrase detail => (.httpError statusCode phrase detail, main)
    | .served taskId clock failure =>
        let out := (req.prog taskId).run k.tick { main with clock := clock }
        (match failure with
          | none => responseOf out.1
          | some failure => .failed failure, out.2)
  (response,
    { main := main, sent := l.sent + 1, responses := l.responses ++ [response], ran := ran })

/-- One operation of a tool, where the attempts meet these fates. -/
def step (attempts : Nat → Attempt) : (op : ToolOp) → Link k → op.Res × Link k
  | .urlopen req, l => urlopen req (attempts l.sent) l
  | .sleep _, l => ((), l)

/-! ## What an attempt does -/

/-- What the tool itself made main run. -/
def own (ran : List (Asker × TimedCall)) : List TimedCall :=
  (ran.filter (fun x => decide (x.1 = .tool))).map Prod.snd

omit [Unicode] in
theorem own_append (ran ran' : List (Asker × TimedCall)) :
    own (ran ++ ran') = own ran ++ own ran' := by
  simp only [own, List.filter_append, List.map_append]

omit [Unicode] in
@[simp] theorem own_others (cs : List TimedCall) :
    own (cs.map (fun c => (.other, c))) = [] := by
  simp [own, List.filter_map]

omit [Unicode] in
@[simp] theorem own_tool (cs : List TimedCall) : own (cs.map (fun c => (.tool, c))) = cs := by
  simp [own, List.filter_map, Function.comp_def]

omit [Unicode] in
theorem runCalls_append [Unicode] (cs cs' : List TimedCall) (w : Timed k.Store) :
    k.runCalls (cs ++ cs') w = k.runCalls cs' (k.runCalls cs w) :=
  runAll_append cs cs' w

theorem runCalls_congr (cs : List TimedCall) {w w' : Timed k.Store} (h : w.state = w'.state) :
    (k.runCalls cs w).state = (k.runCalls cs w').state := by
  cases cs with
  | nil => exact h
  | cons c cs =>
      have henter : c.enter w = c.enter w' := by rw [TimedCall.enter, TimedCall.enter, h]
      change (runAll k.tick TimedCall.enter _ cs (c.call.prog.run k.tick (c.enter w)).2).state = _
      rw [henter]
      rfl

/-- The handlers are the calls of the model. -/
theorem run_prog_eq_calls (taskId : String) (clock : Nat → Nat) (req : Request)
    (w : Timed k.Store) :
    ((req.prog taskId).run k.tick { w with clock := clock }).2.state =
      (k.runCalls (req.calls taskId clock) w).state := by
  have hone : ∀ (c : Call) (p : Api HermesCluster.Reply),
      c.prog = (p >>= fun _ => pure ()) →
      (p.run k.tick { w with clock := clock }).2.state = (k.runCalls [⟨c, clock⟩] w).state := by
    intro c p hprog
    change _ = (c.prog.run k.tick { w with clock := clock }).2.state
    rw [hprog]
    exact congrArg Timed.state (run_discard k.tick p () _).symm
  cases req with
  | submit payload =>
      cases hparse : payload.parse with
      | none => simp only [Request.prog, Request.calls, hparse]; rfl
      | some req =>
          simp only [Request.prog, Request.calls, hparse]
          exact hone (.submit taskId req) _ rfl
  | scheduleTrigger => rfl
  | complete id => exact hone (.complete id none) _ rfl
  | block id req => exact hone (.block id req) _ rfl
  | answer id req => exact hone (.answer id req) _ rfl

/-- What an attempt adds to what main has run. -/
def Attempt.ran (a : Attempt) (req : Request) : List (Asker × TimedCall) :=
  a.others.map (fun c => (.other, c)) ++ (a.calls req).map (fun c => (.tool, c))

omit [Unicode] in
theorem own_ran (a : Attempt) (req : Request) : own (a.ran req) = a.calls req := by
  rw [Attempt.ran, own_append, own_others, own_tool, List.nil_append]

theorem urlopen_spec (req : Request) (a : Attempt) (l : Link k) :
    (urlopen req a l).2.ran = l.ran ++ a.ran req ∧
      (urlopen req a l).2.main.state =
        (k.runCalls ((a.ran req).map Prod.snd) l.main).state := by
  have hsnd : (a.ran req).map Prod.snd = a.others ++ a.calls req := by
    simp [Attempt.ran, Function.comp_def]
  refine ⟨?_, ?_⟩
  · rw [urlopen, Attempt.ran, List.append_assoc]
  · rw [hsnd, runCalls_append]
    unfold urlopen Attempt.calls
    cases a.fate with
    | lost failure => rfl
    | turnedAway statusCode phrase detail => rfl
    | served taskId clock failure => exact run_prog_eq_calls taskId clock req _

/-! ## What a program does -/

/-- What main has run since a state of the world, and that it is where that leads. -/
def Ran (l l' : Link k) (ran : List (Asker × TimedCall)) : Prop :=
  l'.ran = l.ran ++ ran ∧ l'.main.state = (k.runCalls (ran.map Prod.snd) l.main).state

omit [Unicode] in
theorem Ran.refl [Unicode] (l : Link k) : Ran l l [] :=
  ⟨(List.append_nil _).symm, rfl⟩

theorem Ran.trans {l l' l'' : Link k} {ran ran' : List (Asker × TimedCall)}
    (h : Ran l l' ran) (h' : Ran l' l'' ran') : Ran l l'' (ran ++ ran') := by
  refine ⟨?_, ?_⟩
  · rw [h'.1, h.1, List.append_assoc]
  · rw [h'.2, List.map_append, runCalls_append]
    exact runCalls_congr _ h.2

theorem ran_urlopen (req : Request) (a : Attempt) (l : Link k) :
    Ran l (urlopen req a l).2 (a.ran req) :=
  urlopen_spec req a l

/-- Some attempts of one request: what main ran for them, and the responses. -/
structure Tried (attempts : Nat → Attempt) (req : Request) (l l' : Link k)
    (rs : List Response) : Prop where
  sent : l'.sent = l.sent + rs.length
  answered : l'.responses = l.responses ++ rs
  ran : Ran l l' ((List.range' l.sent rs.length).flatMap (fun i => (attempts i).ran req))

variable {attempts : Nat → Attempt} {req : Request} {l l' l'' : Link k} {rs rs' : List Response}

theorem Tried.refl (attempts : Nat → Attempt) (req : Request) (l : Link k) :
    Tried attempts req l l [] :=
  ⟨rfl, (List.append_nil _).symm, .refl l⟩

theorem Tried.trans (h : Tried attempts req l l' rs) (h' : Tried attempts req l' l'' rs') :
    Tried attempts req l l'' (rs ++ rs') where
  sent := by rw [h'.sent, h.sent, List.length_append, Nat.add_assoc]
  answered := by rw [h'.answered, h.answered, List.append_assoc]
  ran := by
    have hran := h.ran.trans h'.ran
    rw [h.sent] at hran
    rw [List.length_append, ← List.range'_append_1, List.flatMap_append]
    exact hran

theorem tried_urlopen (attempts : Nat → Attempt) (req : Request) (l : Link k) :
    Tried attempts req l (step attempts (.urlopen req) l).2
      [(step attempts (.urlopen req) l).1] where
  sent := rfl
  answered := rfl
  ran := by
    simp only [List.length_singleton, List.range'_one, List.flatMap_singleton]
    exact ran_urlopen req (attempts l.sent) l

/-- How a call comes by its answer: every response but the last is a failure of the
transport, and so is the last only where the attempts have run out. -/
def Story (limit : Nat) (rs : List Response) (answer : Answer) : Prop :=
  ∃ earlier last, rs = earlier ++ [last] ∧ (∀ r ∈ earlier, r.IsTransport) ∧
    answer = last.answer ∧ rs.length ≤ limit ∧ (last.IsTransport → rs.length = limit)

omit [Unicode] in
theorem Story.cons {limit : Nat} {r : Response} {rs : List Response} {answer : Answer}
    (hr : r.IsTransport) (h : Story limit rs answer) : Story (limit + 1) (r :: rs) answer := by
  obtain ⟨earlier, last, rfl, htransport, hanswer, hlimit, hout⟩ := h
  refine ⟨r :: earlier, last, rfl, ?_, hanswer, ?_, fun hlast => ?_⟩
  · rw [List.forall_mem_cons]
    exact ⟨hr, htransport⟩
  · rw [List.length_cons]
    omega
  · rw [List.length_cons, hout hlast]

omit [Unicode] in
theorem Story.single {limit : Nat} {r : Response} (h : r.IsTransport → limit = 0) :
    Story (limit + 1) [r] r.answer := by
  refine ⟨[], r, rfl, by simp, rfl, ?_, fun hr => ?_⟩
  · rw [List.length_singleton]
    omega
  · rw [List.length_singleton, h hr]

variable (attempts req l) in
theorem retry_spec (waits : List Nat) {last : Response} (hlast : last.IsTransport) :
    ∃ answer rs, ((retry req waits last).run (step attempts) l).1 = .ok answer ∧
      Tried attempts req l ((retry req waits last).run (step attempts) l).2 rs ∧
      Story (waits.length + 1) (last :: rs) answer := by
  induction waits generalizing l last with
  | nil => exact ⟨last.answer, [], rfl, .refl attempts req l, .single (fun _ => rfl)⟩
  | cons wait waits ih =>
      have htried := tried_urlopen attempts req l
      set response := (step attempts (.urlopen req) l).1 with hresponse
      set l₁ := (step attempts (.urlopen req) l).2 with hl₁
      have hrun : (retry req (wait :: waits) last).run (step attempts) l =
          (if response.IsTransport then retry req waits response
            else pure response.answer).run (step attempts) l₁ := rfl
      rw [hrun]
      by_cases hagain : response.IsTransport
      · rw [if_pos hagain]
        obtain ⟨answer, rs, hanswer, htried', hstory⟩ := ih (l := l₁) hagain
        exact ⟨answer, response :: rs, hanswer, htried.trans htried', hstory.cons hlast⟩
      · rw [if_neg hagain]
        exact ⟨response.answer, [response], rfl, htried,
          (Story.single (fun h => absurd h hagain)).cons hlast⟩

/-- A call sends its request once or, behind failures of the transport, up to three
times; without a base URL it sends nothing. -/
theorem apiCall_spec (endpoint : Endpoint) (attempts : Nat → Attempt) (req : Request)
    (l : Link k) :
    ∃ answer rs, ((apiCall endpoint req).run (step attempts) l).1 = .ok answer ∧
      Tried attempts req l ((apiCall endpoint req).run (step attempts) l).2 rs ∧
      rs.length ≤ 3 ∧ (rs = [] ↔ endpoint.baseUrl = "") ∧
      (endpoint.baseUrl ≠ "" → Story 3 rs answer) := by
  unfold apiCall
  by_cases hbase : endpoint.baseUrl = ""
  · rw [if_pos hbase]
    exact ⟨_, [], rfl, .refl attempts req l, by simp, by simp [hbase],
      fun h => absurd hbase h⟩
  · rw [if_neg hbase]
    have htried := tried_urlopen attempts req l
    set response := (step attempts (.urlopen req) l).1 with hresponse
    set l₁ := (step attempts (.urlopen req) l).2 with hl₁
    have hrun : (ask (.urlopen req) >>= fun response =>
        if response.IsTransport then retry req waits response
          else pure response.answer).run (step attempts) l =
        (if response.IsTransport then retry req waits response
          else pure response.answer).run (step attempts) l₁ := rfl
    rw [hrun]
    by_cases hagain : response.IsTransport
    · rw [if_pos hagain]
      obtain ⟨answer, rs, hanswer, htried', hstory⟩ :=
        retry_spec attempts req l₁ waits hagain
      have hlength : (response :: rs).length ≤ 3 := by
        obtain ⟨-, -, -, -, -, hlimit, -⟩ := hstory
        exact hlimit
      exact ⟨answer, response :: rs, hanswer, htried.trans htried', hlength, by simp [hbase],
        fun _ => hstory⟩
    · rw [if_neg hagain]
      exact ⟨response.answer, [response], rfl, htried, by simp, by simp [hbase],
        fun _ => .single (fun h => absurd h hagain)⟩

/-- The calls of the attempts of a request, of which the first is the `sent`th of all. -/
def callsOf (attempts : Nat → Attempt) (req : Request) (sent n : Nat) : List TimedCall :=
  (List.range' sent n).flatMap (fun i => (attempts i).calls req)

omit [Unicode] in
theorem exists_of_mem_callsOf {attempts : Nat → Attempt} {req : Request} {sent n : Nat}
    {c : TimedCall} (h : c ∈ callsOf attempts req sent n) :
    ∃ taskId clock, c ∈ req.calls taskId clock := by
  obtain ⟨i, -, hc⟩ := List.mem_flatMap.mp h
  unfold Attempt.calls at hc
  split at hc
  · exact ⟨_, _, hc⟩
  · cases hc

omit [Unicode] in
theorem own_flatMap (attempts : Nat → Attempt) (req : Request) (is : List Nat) :
    own (is.flatMap (fun i => (attempts i).ran req)) =
      is.flatMap (fun i => (attempts i).calls req) := by
  induction is with
  | nil => rfl
  | cons i is ih => simp only [List.flatMap_cons, own_append, own_ran, ih]

/-- What a call of the API comes to. -/
theorem apiCall_run (endpoint : Endpoint) (attempts : Nat → Attempt) (req : Request)
    (l : Link k) :
    ∃ answer rs ran, (apiCall endpoint req).run (step attempts) l =
        (.ok answer, ((apiCall endpoint req).run (step attempts) l).2) ∧
      Ran l ((apiCall endpoint req).run (step attempts) l).2 ran ∧
      ((apiCall endpoint req).run (step attempts) l).2.responses = l.responses ++ rs ∧
      ((apiCall endpoint req).run (step attempts) l).2.sent = l.sent + rs.length ∧
      own ran = callsOf attempts req l.sent rs.length ∧ rs.length ≤ 3 ∧
      (rs = [] ↔ endpoint.baseUrl = "") ∧ (endpoint.baseUrl ≠ "" → Story 3 rs answer) := by
  obtain ⟨answer, rs, hanswer, htried, hlimit, hbase, hstory⟩ :=
    apiCall_spec endpoint attempts req l
  refine ⟨answer, rs, _, Prod.ext hanswer rfl, htried.ran, htried.answered, htried.sent, ?_,
    hlimit, hbase, hstory⟩
  exact own_flatMap attempts req _

end World

end Plugin

end HermesCluster
