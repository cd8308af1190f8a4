import Mathlib.Algebra.Order.Ring.Rat
import HermesCluster.Core.PeerAuth
import HermesCluster.Lib.Json
import HermesCluster.Lib.PyValue
import HermesCluster.Lib.Spawning
/-!
# Webhook delivery

`hooks/payload.py` and `hooks/dispatcher.py`. `deliver` sends a payload to one endpoint,
again after each failure until the attempts run out, and records what became of each
attempt. It is a program of four operations: it looks whether the dispatcher runs, sends
a request, calls back with a record, and sleeps. The semaphore, which nothing acquires,
and the times in a record are left out.
-/

namespace HermesCluster

/-! ## Payloads -/

inductive HookEventType where
  | taskCreated
  | taskCompleted
  | taskFailed
  | nodeJoined
  | nodeLeft
  | leaseCreated
  | leaseExpired
  deriving DecidableEq, Repr

def HookEventType.value : HookEventType → String
  | .taskCreated => "task_created"
  | .taskCompleted => "task_completed"
  | .taskFailed => "task_failed"
  | .nodeJoined => "node_joined"
  | .nodeLeft => "node_left"
  | .leaseCreated => "lease_created"
  | .leaseExpired => "lease_expired"

def allEventTypes : List HookEventType :=
  [.taskCreated, .taskCompleted, .taskFailed, .nodeJoined, .nodeLeft, .leaseCreated, .leaseExpired]

def isValidEvent (eventType : String) : Bool :=
  (allEventTypes.map HookEventType.value).contains eventType

theorem mem_allEventTypes (e : HookEventType) : e ∈ allEventTypes := by
  cases e <;> decide

theorem isValidEvent_value (e : HookEventType) : isValidEvent e.value = true := by
  simp only [isValidEvent, List.contains_iff_mem]
  exact List.mem_map_of_mem (mem_allEventTypes e)

inductive DeliveryStatus where
  | success
  | failed
  | pending
  | retry
  deriving DecidableEq, Repr

def DeliveryStatus.value : DeliveryStatus → String
  | .success => "success"
  | .failed => "failed"
  | .pending => "pending"
  | .retry => "retry"

/-- `Payload`; the timestamp is the text that `str` gives of it. -/
structure Payload where
  eventType : HookEventType := .taskCreated
  timestamp : String
  data : Json := .null

/-- `json.dumps`. -/
class JsonDumps where
  dumps : Json → String

/-- `payload.model_dump()`. -/
def Payload.modelDump (payload : Payload) : Json :=
  .obj [("event_type", .str payload.eventType.value), ("timestamp", .str payload.timestamp),
    ("data", payload.data)]

section Signing

variable [Sha256]

open PeerAuth

def signPayload (body : List UInt8) (secret : String) : String :=
  "sha256=" ++ hex (Sha256.mac (encode secret) body)

/-- `verify_signature`; `compare_digest` takes no text beyond ASCII. -/
def verifySignature (body : List UInt8) (secret signature : String) : Except PyError Bool :=
  if signature.toList.all (fun c => c.toNat < 128) then
    .ok (decide (signPayload body secret = signature))
  else .error .typeError

/-- What verifies under a signature is what has the same code as what was signed. -/
theorem verifySignature_signPayload (body body' : List UInt8) (secret secret' : String) :
    verifySignature body' secret' (signPayload body secret) =
      .ok (decide (Sha256.mac (encode secret') body' = Sha256.mac (encode secret) body)) := by
  have hascii : (signPayload body secret).toList.all (fun c => c.toNat < 128) = true := by
    simp only [signPayload, String.toList_append, List.all_append, Bool.and_eq_true]
    refine ⟨by decide, List.all_eq_true.mpr fun c hc => ?_⟩
    exact decide_eq_true (mem_hex hc).1
  have hsame : signPayload body' secret' = signPayload body secret ↔
      Sha256.mac (encode secret') body' = Sha256.mac (encode secret) body := by
    refine ⟨fun h => hex_injective ?_, fun h => congrArg (fun m => "sha256=" ++ hex m) h⟩
    exact String.append_right_inj _ |>.mp h
  unfold verifySignature
  rw [if_pos hascii, decide_eq_decide.mpr hsame]

end Signing

/-! ## Records -/

/-- What `_send_request` reports. -/
structure HttpReply where
  statusCode : Int
  error : Option String := none
  deriving DecidableEq

/-- `error is None and 200 <= status_code < 300`. -/
def HttpReply.IsOk (reply : HttpReply) : Prop :=
  reply.error = none ∧ 200 ≤ reply.statusCode ∧ reply.statusCode < 300

instance (reply : HttpReply) : Decidable reply.IsOk :=
  inferInstanceAs (Decidable (_ ∧ _ ∧ _))

def HttpReply.errMsg (reply : HttpReply) : String :=
  match reply.error with
  | none => "status " ++ toString reply.statusCode
  | some error => error

structure DeliveryRecord where
  id : String
  hookId : String
  eventType : String
  url : String
  status : DeliveryStatus
  statusCode : Int := 0
  error : String := ""
  attempts : Int := 0
  maxAttempts : Int := 0
  deriving DecidableEq

/-- The arguments of `deliver`, and the id that it draws. -/
structure HookDelivery where
  id : String
  hookId : String
  url : String
  secret : String
  payload : Payload

/-- The settings of a dispatcher, and which object it is. -/
structure Dispatcher where
  serial : Nat := 0
  maxRetries : Int := 3
  baseDelay : Rat := 1
  maxDelay : Rat := 30
  httpTimeout : Int := 10

namespace Dispatcher

def maxAttempts (d : Dispatcher) : Int :=
  d.maxRetries + 1

variable (d : Dispatcher) (job : HookDelivery)

/-- A record of an attempt. -/
def recordOf (status : DeliveryStatus) (attempt : Int) : DeliveryRecord where
  id := job.id
  hookId := job.hookId
  eventType := job.payload.eventType.value
  url := job.url
  status := status
  attempts := attempt
  maxAttempts := d.maxAttempts

def stoppedRecord (attempt : Nat) : DeliveryRecord :=
  { recordOf d job .pending attempt with error := "dispatcher stopped" }

def successRecord (attempt : Nat) (reply : HttpReply) : DeliveryRecord :=
  { recordOf d job .success attempt with statusCode := reply.statusCode }

def failedRecord (attempt : Nat) (reply : HttpReply) : DeliveryRecord :=
  { recordOf d job .failed attempt with statusCode := reply.statusCode, error := reply.errMsg }

def retryRecord (attempt : Nat) (reply : HttpReply) : DeliveryRecord :=
  { recordOf d job .retry attempt with statusCode := reply.statusCode, error := reply.errMsg }

def exhaustedRecord : DeliveryRecord :=
  { recordOf d job .failed d.maxAttempts with error := "exhausted retries" }

end Dispatcher

/-! ## Delivery -/

structure HookRequest where
  url : String
  body : List UInt8
  headers : List (String × String)
  timeout : Int
  deriving DecidableEq

inductive DispatchOp where
  | isRunning (dispatcher : Nat)
  | send (request : HookRequest)
  | record (record : DeliveryRecord)
  | sleep (delay : Rat)
  deriving DecidableEq

/-- The replies; a record is not taken where the callback raises. -/
@[reducible]
def DispatchOp.Res : DispatchOp → Type
  | .isRunning _ | .record _ => Bool
  | .send _ => HttpReply
  | .sleep _ => Unit

/-- What `deliver` may raise: a callback that failed, and a power beyond what `math.pow`
gives. -/
inductive DispatchError where
  | callback
  | overflow
  deriving DecidableEq

abbrev DispatchProgram := Program DispatchOp DispatchOp.Res DispatchError

abbrev DispatchOp.run (op : DispatchOp) : DispatchProgram op.Res :=
  Program.perform op

abbrev DispatchEvent := Program.Event DispatchOp.Res

namespace Dispatcher

open Program hiding pure bind

variable [Sha256] [JsonDumps]

/-- `json.dumps(payload.model_dump(), default=str).encode("utf-8")`. -/
def body (job : HookDelivery) : List UInt8 :=
  PeerAuth.encode (JsonDumps.dumps job.payload.modelDump)

/-- The request of `_send_request`. -/
def request (d : Dispatcher) (job : HookDelivery) : HookRequest where
  url := job.url
  body := body job
  headers :=
    [("Content-Type", "application/json"), ("User-Agent", "hermes-agent-cluster/1.0")] ++
      if job.secret ≠ "" then [("X-Hub-Signature-256", signPayload (body job) job.secret)] else []
  timeout := d.httpTimeout

/-- `_compute_backoff`. -/
def computeBackoff (d : Dispatcher) (attempt : Nat) : Except DispatchError Rat :=
  if 1024 ≤ attempt - 1 then .error .overflow
  else .ok (min (d.baseDelay * 2 ^ (attempt - 1)) d.maxDelay)

/-- The callback, and the record is returned. -/
def conclude (record : DeliveryRecord) : DispatchProgram DeliveryRecord :=
  (DispatchOp.record record).run >>= fun taken : Bool =>
    if taken = true then Program.pure record else .raise .callback

/-- `asyncio.sleep(delay)`. -/
def pause (next : DispatchProgram DeliveryRecord) :
    Except DispatchError Rat → DispatchProgram DeliveryRecord
  | .error e => .raise e
  | .ok delay => (DispatchOp.sleep delay).run >>= fun _ => next

/-- The callback with a retry, the backoff, and the next attempt. -/
def backOff (d : Dispatcher) (attempt : Nat) (record : DeliveryRecord)
    (next : DispatchProgram DeliveryRecord) : DispatchProgram DeliveryRecord :=
  (DispatchOp.record record).run >>= fun taken : Bool =>
    if taken = true then pause next (d.computeBackoff attempt) else .raise .callback

/-- What follows from the reply to an attempt. -/
def judge (d : Dispatcher) (job : HookDelivery) (attempt : Nat)
    (next : DispatchProgram DeliveryRecord) (reply : HttpReply) : DispatchProgram DeliveryRecord :=
  if reply.IsOk then conclude (d.successRecord job attempt reply)
  else if d.maxAttempts ≤ attempt then conclude (d.failedRecord job attempt reply)
  else backOff d attempt (d.retryRecord job attempt reply) next

/-- The rest of the loop, with the number of attempts that are left of its range. -/
def attemptFrom (d : Dispatcher) (job : HookDelivery) : Nat → Nat → DispatchProgram DeliveryRecord
  | 0, _ => conclude (d.exhaustedRecord job)
  | left + 1, attempt =>
      (DispatchOp.isRunning d.serial).run >>= fun up : Bool =>
        if up = true then
          (DispatchOp.send (d.request job)).run >>=
            judge d job attempt (attemptFrom d job left (attempt + 1))
        else conclude (d.stoppedRecord job attempt)

/-- `Dispatcher.deliver`. -/
def deliver (d : Dispatcher) (job : HookDelivery) : DispatchProgram DeliveryRecord :=
  attemptFrom d job d.maxAttempts.toNat 1

end Dispatcher

/-! ## The course of a delivery -/

/-- The replies to the requests that were sent. -/
def repliesIn (es : List DispatchEvent) : List HttpReply :=
  es.filterMap fun
    | ⟨.send _, reply⟩ => some reply
    | _ => none

/-- The records that the callback took. -/
def recordsIn (es : List DispatchEvent) : List DeliveryRecord :=
  es.filterMap fun
    | ⟨.record record, true⟩ => some record
    | _ => none

/-- Whether the dispatcher was found stopped. -/
def haltedIn (es : List DispatchEvent) : Bool :=
  es.any fun
    | ⟨.isRunning _, false⟩ => true
    | _ => false

/-- How long it slept, each time. -/
def delaysIn (es : List DispatchEvent) : List Rat :=
  es.filterMap fun
    | ⟨.sleep delay, _⟩ => some delay
    | _ => none

/-- What a program returned. -/
def returned {α : Type} : DispatchProgram α → Option α
  | .pure a => some a
  | _ => none

namespace Dispatcher

open Program hiding pure bind

variable (d : Dispatcher) (job : HookDelivery)

/-- The record of an attempt that was answered. -/
def verdict (attempt : Nat) (reply : HttpReply) : DeliveryRecord :=
  if reply.IsOk then d.successRecord job attempt reply
  else if d.maxAttempts ≤ attempt then d.failedRecord job attempt reply
  else d.retryRecord job attempt reply

/-- The records of the attempts, in order. -/
def chronicle (replies : List HttpReply) : List DeliveryRecord :=
  replies.mapIdx fun i reply => d.verdict job (i + 1) reply

/-- How far a delivery can have come: the replies it was given, the records it has made,
whether it found the dispatcher stopped, and the record it has ended with. All replies
but the last are failures, and each is recorded before the next request is sent. -/
inductive Story : List HttpReply → List DeliveryRecord → Bool → Option DeliveryRecord → Prop
  | trying (replies : List HttpReply) (halted : Bool) (hfailed : ∀ reply ∈ replies, ¬reply.IsOk)
      (hleft : (replies.length : Int) < d.maxAttempts ∨ replies = []) :
      Story replies (d.chronicle job replies) halted none
  | answered (replies : List HttpReply) (reply : HttpReply)
      (hfailed : ∀ reply ∈ replies, ¬reply.IsOk)
      (hleft : (replies.length : Int) < d.maxAttempts) :
      Story (replies ++ [reply]) (d.chronicle job replies) false none
  | ended (replies : List HttpReply) (reply : HttpReply)
      (hfailed : ∀ reply ∈ replies, ¬reply.IsOk)
      (hleft : (replies.length : Int) < d.maxAttempts)
      (hlast : reply.IsOk ∨ d.maxAttempts = replies.length + 1) :
      Story (replies ++ [reply]) (d.chronicle job (replies ++ [reply])) false
        (some (d.verdict job (replies.length + 1) reply))
  | stopped (replies : List HttpReply) (hfailed : ∀ reply ∈ replies, ¬reply.IsOk)
      (hleft : (replies.length : Int) < d.maxAttempts) :
      Story replies (d.chronicle job replies ++ [d.stoppedRecord job (replies.length + 1)]) true
        (some (d.stoppedRecord job (replies.length + 1)))
  | noAttempts (hnone : d.maxAttempts ≤ 0) :
      Story [] [d.exhaustedRecord job] false (some (d.exhaustedRecord job))

variable {d job}

theorem chronicle_concat (replies : List HttpReply) (reply : HttpReply) :
    d.chronicle job (replies ++ [reply]) =
      d.chronicle job replies ++ [d.verdict job (replies.length + 1) reply] := by
  simp [chronicle, List.mapIdx_append]

theorem Story.getLast {replies : List HttpReply} {records : List DeliveryRecord} {halted : Bool}
    {record : DeliveryRecord} (h : Story d job replies records halted (some record)) :
    records.getLast? = some record := by
  cases h with
  | ended replies reply hfailed hleft hlast => simp [chronicle_concat]
  | stopped replies hfailed hleft => simp
  | noAttempts hnone => rfl

/-- Where the dispatcher was never found stopped, the record says whether some request was
answered well. -/
theorem Story.success_iff {replies : List HttpReply} {records : List DeliveryRecord}
    {record : DeliveryRecord} (h : Story d job replies records false (some record)) :
    (record.status = .success ↔ ∃ reply ∈ replies, reply.IsOk) ∧
      (record.status ≠ .success → record.status = .failed) := by
  cases h with
  | ended replies reply hfailed hleft hlast =>
      by_cases hok : reply.IsOk
      · have hsuccess : (d.verdict job (replies.length + 1) reply).status = .success := by
          rw [verdict, if_pos hok]
          rfl
        refine ⟨iff_of_true hsuccess ⟨reply, by simp, hok⟩, fun hne => absurd hsuccess hne⟩
      · have hend : d.maxAttempts ≤ (replies.length + 1 : Nat) := by
          have := hlast.resolve_left hok
          omega
        have hstatus : (d.verdict job (replies.length + 1) reply).status = .failed := by
          rw [verdict, if_neg hok, if_pos hend]
          rfl
        refine ⟨iff_of_false (by simp [hstatus]) ?_, fun _ => hstatus⟩
        rintro ⟨r, hmem, hr⟩
        rcases List.mem_append.mp hmem with hold | hnew
        · exact hfailed r hold hr
        · rw [List.mem_singleton.mp hnew] at hr
          exact hok hr
  | noAttempts hnone => simp [exhaustedRecord, recordOf]

/-- Without a reply, a delivery ends as stopped or with no attempt allowed. -/
theorem Story.of_no_replies {records : List DeliveryRecord} {halted : Bool}
    {record : DeliveryRecord} (h : Story d job [] records halted (some record)) :
    record = d.stoppedRecord job 1 ∨ (d.maxAttempts ≤ 0 ∧ record = d.exhaustedRecord job) := by
  generalize hreplies : ([] : List HttpReply) = replies at h
  generalize hend : some record = last at h
  cases h with
  | trying => cases hend
  | answered => cases hend
  | ended replies reply => simp at hreplies
  | stopped replies =>
      subst hreplies
      exact .inl (Option.some.inj hend)
  | noAttempts hnone => exact .inr ⟨hnone, Option.some.inj hend⟩

theorem conclude_eq (record : DeliveryRecord) :
    conclude record = .call (.record record) fun taken =>
      if taken = true then .pure record else .raise .callback := rfl

theorem backOff_eq (attempt : Nat) (record : DeliveryRecord)
    (next : DispatchProgram DeliveryRecord) :
    backOff d attempt record next = .call (.record record) fun taken =>
      if taken = true then pause next (d.computeBackoff attempt) else .raise .callback := rfl

theorem pause_ok (next : DispatchProgram DeliveryRecord) (delay : Rat) :
    pause next (.ok delay) = .call (.sleep delay) fun _ => next := rfl

theorem path_conclude {record : DeliveryRecord} {es : List DispatchEvent}
    {q : DispatchProgram DeliveryRecord} (h : Path (conclude record) es q) :
    repliesIn es = [] ∧ haltedIn es = false ∧
      ((recordsIn es = [] ∧ returned q = none) ∨
        (recordsIn es = [record] ∧ returned q = some record)) := by
  rw [conclude_eq] at h
  rcases path_call_cases h with ⟨rfl, rfl⟩ | ⟨taken, rest, rfl, hrest⟩
  · simp [repliesIn, haltedIn, recordsIn, returned]
  · cases taken with
    | false =>
        simp at hrest
        simp [hrest, repliesIn, haltedIn, recordsIn, returned]
    | true =>
        simp at hrest
        simp [hrest, repliesIn, haltedIn, recordsIn, returned]

/-- The callback with a retry, and what follows it, if anything does. -/
theorem path_backOff {attempt : Nat} {record : DeliveryRecord}
    {next q : DispatchProgram DeliveryRecord} {es : List DispatchEvent}
    (h : Path (backOff d attempt record next) es q) :
    (repliesIn es = [] ∧ haltedIn es = false ∧ (recordsIn es = [] ∨ recordsIn es = [record]) ∧
        returned q = none) ∨
      ∃ rest, repliesIn es = repliesIn rest ∧ haltedIn es = haltedIn rest ∧
        recordsIn es = record :: recordsIn rest ∧ Path next rest q := by
  rw [backOff_eq] at h
  rcases path_call_cases h with ⟨rfl, rfl⟩ | ⟨taken, rest, rfl, hrest⟩
  · simp [repliesIn, haltedIn, recordsIn, returned]
  · cases taken with
    | false =>
        simp at hrest
        simp [hrest, repliesIn, haltedIn, recordsIn, returned]
    | true =>
        simp at hrest
        cases hdelay : d.computeBackoff attempt with
        | error e =>
            simp [hdelay, pause] at hrest
            simp [hrest, repliesIn, haltedIn, recordsIn, returned]
        | ok delay =>
            rw [hdelay, pause_ok] at hrest
            rcases path_call_cases hrest with ⟨rfl, rfl⟩ | ⟨_, rest, rfl, hnext⟩
            · simp [repliesIn, haltedIn, recordsIn, returned]
            · exact .inr ⟨rest, rfl, rfl, rfl, hnext⟩

/-- The last reply, recorded or not. -/
theorem story_of_conclude {past : List HttpReply} {reply : HttpReply} {es : List DispatchEvent}
    {q : DispatchProgram DeliveryRecord} (hlt : (past.length : Int) < d.maxAttempts)
    (hpast : ∀ reply ∈ past, ¬reply.IsOk) (hlast : reply.IsOk ∨ d.maxAttempts = past.length + 1)
    (h : Path (conclude (d.verdict job (past.length + 1) reply)) es q) :
    Story d job (past ++ [reply] ++ repliesIn es) (d.chronicle job past ++ recordsIn es)
      (haltedIn es) (returned q) := by
  obtain ⟨hreplies, hhalted, ⟨hrecords, hend⟩ | ⟨hrecords, hend⟩⟩ := path_conclude h
  · rw [hreplies, hhalted, hrecords, hend, List.append_nil, List.append_nil]
    exact .answered past reply hpast hlt
  · rw [hreplies, hhalted, hrecords, hend, List.append_nil, ← chronicle_concat]
    exact .ended past reply hpast hlt hlast

section Course

variable [Sha256] [JsonDumps]

theorem deliver_eq : deliver d job = attemptFrom d job d.maxAttempts.toNat 1 := rfl

theorem attemptFrom_succ (left attempt : Nat) :
    attemptFrom d job (left + 1) attempt = .call (.isRunning d.serial) fun up =>
      if up = true then
        .call (.send (d.request job)) (judge d job attempt (attemptFrom d job left (attempt + 1)))
      else conclude (d.stoppedRecord job attempt) := by
  rfl

/-- The course of the attempts that are left, after those that have failed. -/
theorem story_of_attempts {left : Nat} {past : List HttpReply} {es : List DispatchEvent}
    {q : DispatchProgram DeliveryRecord} (hleft : left + past.length = d.maxAttempts.toNat)
    (hmore : left = 0 → past = []) (hpast : ∀ reply ∈ past, ¬reply.IsOk)
    (h : Path (attemptFrom d job left (past.length + 1)) es q) :
    Story d job (past ++ repliesIn es) (d.chronicle job past ++ recordsIn es) (haltedIn es)
      (returned q) := by
  induction left generalizing past es with
  | zero =>
      obtain rfl := hmore rfl
      have hnone : d.maxAttempts ≤ 0 := by
        simp at hleft
        omega
      obtain ⟨hreplies, hhalted, ⟨hrecords, hend⟩ | ⟨hrecords, hend⟩⟩ := path_conclude h
      · rw [hreplies, hhalted, hrecords, hend]
        exact .trying [] _ (by simp) (.inr rfl)
      · rw [hreplies, hhalted, hrecords, hend]
        exact .noAttempts hnone
  | succ left ih =>
      have hlt : (past.length : Int) < d.maxAttempts := by omega
      have htrying : ∀ halted, Story d job past (d.chronicle job past) halted none :=
        fun halted => .trying past halted hpast (.inl hlt)
      rw [attemptFrom_succ] at h
      rcases path_call_cases h with ⟨rfl, rfl⟩ | ⟨up, rest, rfl, hup⟩
      · simpa [repliesIn, recordsIn, haltedIn, returned] using htrying false
      cases up with
      | false =>
          have hclosed : Path (conclude (d.stoppedRecord job (past.length + 1))) rest q := hup
          show Story d job (past ++ repliesIn rest) (d.chronicle job past ++ recordsIn rest) true
            (returned q)
          obtain ⟨hreplies, -, ⟨hrecords, hend⟩ | ⟨hrecords, hend⟩⟩ := path_conclude hclosed
          · simpa [hreplies, hrecords, hend] using htrying true
          · rw [hreplies, hrecords, hend, List.append_nil]
            exact .stopped past hpast hlt
      | true =>
          have hsend : Path (.call (.send (d.request job)) (judge d job (past.length + 1)
            (attemptFrom d job left (past.length + 1 + 1)))) rest q := hup
          rcases path_call_cases hsend with ⟨rfl, rfl⟩ | ⟨reply, rest, rfl, hjudge⟩
          · simpa [repliesIn, recordsIn, haltedIn, returned] using htrying false
          have hreplies : past ++ repliesIn (⟨.isRunning d.serial, true⟩ ::
              ⟨.send (d.request job), reply⟩ :: rest) = past ++ [reply] ++ repliesIn rest := by
            simp [repliesIn]
          rw [hreplies]
          show Story d job _ (d.chronicle job past ++ recordsIn rest) (haltedIn rest) (returned q)
          unfold judge at hjudge
          by_cases hok : reply.IsOk
          · apply story_of_conclude hlt hpast (.inl hok)
            rw [verdict, if_pos hok]
            rwa [if_pos hok] at hjudge
          rw [if_neg hok] at hjudge
          by_cases hend : d.maxAttempts ≤ (past.length + 1 : Nat)
          · apply story_of_conclude hlt hpast (.inr (by omega))
            rw [verdict, if_neg hok, if_pos hend]
            rwa [if_pos hend] at hjudge
          rw [if_neg hend] at hjudge
          have hfailed : ∀ r ∈ past ++ [reply], ¬r.IsOk := by
            simpa [or_imp, forall_and, hok] using hpast
          have hverdict : d.verdict job (past.length + 1) reply =
              d.retryRecord job (past.length + 1) reply := by
            rw [verdict, if_neg hok, if_neg hend]
          rcases path_backOff hjudge with
            ⟨hnone, hhalted, hrecords | hrecords, hq⟩ | ⟨later, hnone, hhalted, hrecords, hlater⟩
          · rw [hnone, hhalted, hrecords, hq, List.append_nil, List.append_nil]
            exact .answered past reply hpast hlt
          · rw [hnone, hhalted, hrecords, hq, List.append_nil, ← hverdict, ← chronicle_concat]
            exact .trying (past ++ [reply]) false hfailed (.inl (by simp; omega))
          · have hgone := @ih (past ++ [reply]) later (by simp; omega) (fun hzero => by omega)
              hfailed (by simpa using hlater)
            rw [chronicle_concat, hverdict] at hgone
            simpa [hnone, hhalted, hrecords] using hgone

theorem story_of_path {es : List DispatchEvent} {q : DispatchProgram DeliveryRecord}
    (h : Path (deliver d job) es q) :
    Story d job (repliesIn es) (recordsIn es) (haltedIn es) (returned q) := by
  have hstory : Story d job ([] ++ repliesIn es) (d.chronicle job [] ++ recordsIn es)
      (haltedIn es) (returned q) :=
    story_of_attempts (by simp) (fun _ => rfl) (by simp) h
  simpa [chronicle] using hstory

/-! ## What a delivery can ask for -/

/-- The operations of a delivery: its own dispatcher, its own request, its own records. -/
def Permits (d : Dispatcher) (job : HookDelivery) : DispatchOp → Prop
  | .isRunning dispatcher => dispatcher = d.serial
  | .send request => request = d.request job
  | .record record => record.id = job.id ∧ record.hookId = job.hookId
  | .sleep _ => True

omit [Sha256] [JsonDumps] in
theorem only_conclude {S : DispatchOp → Prop} {record : DeliveryRecord} (h : S (.record record)) :
    (conclude record).Only S := by
  rw [conclude_eq]
  exact ⟨h, fun _ => only_ite trivial trivial⟩

omit [Sha256] [JsonDumps] in
theorem only_backOff {S : DispatchOp → Prop} {attempt : Nat} {record : DeliveryRecord}
    {next : DispatchProgram DeliveryRecord} (hrecord : S (.record record))
    (hsleep : ∀ delay, S (.sleep delay)) (hnext : next.Only S) :
    (backOff d attempt record next).Only S := by
  rw [backOff_eq]
  refine ⟨hrecord, fun _ => only_ite ?_ trivial⟩
  cases d.computeBackoff attempt with
  | error e => trivial
  | ok delay => exact ⟨hsleep delay, fun _ => hnext⟩

theorem only_attemptFrom (left attempt : Nat) :
    (attemptFrom d job left attempt).Only (d.Permits job) := by
  induction left generalizing attempt with
  | zero => exact only_conclude ⟨rfl, rfl⟩
  | succ left ih =>
      rw [attemptFrom_succ]
      refine ⟨rfl, fun _ => only_ite ⟨rfl, fun reply => ?_⟩ (only_conclude ⟨rfl, rfl⟩)⟩
      apply only_ite (only_conclude ⟨rfl, rfl⟩)
      apply only_ite (only_conclude ⟨rfl, rfl⟩)
      exact only_backOff ⟨rfl, rfl⟩ (fun _ => trivial) (ih (attempt + 1))

theorem deliver_only : (deliver d job).Only (d.Permits job) :=
  only_attemptFrom _ _

/-! ## How long a delivery takes -/

omit [Sha256] [JsonDumps] in
theorem short_conclude {record : DeliveryRecord} {es : List DispatchEvent}
    {q : DispatchProgram DeliveryRecord} (h : Path (conclude record) es q) :
    es.length ≤ 1 ∧ delaysIn es = [] ∧ repliesIn es = [] ∧
      ∀ e, q = .raise e → ∃ record, ⟨.record record, false⟩ ∈ es := by
  rw [conclude_eq] at h
  rcases path_call_cases h with ⟨rfl, rfl⟩ | ⟨taken, rest, rfl, hrest⟩
  · simp [delaysIn, repliesIn]
  · cases taken with
    | false =>
        simp at hrest
        simp [hrest, delaysIn, repliesIn]
    | true =>
        simp at hrest
        simp [hrest, delaysIn, repliesIn]

/-- The events of an attempt after which no other has begun. -/
structure LastAttempt (d : Dispatcher) (attempt : Nat) (es : List DispatchEvent)
    (q : DispatchProgram DeliveryRecord) : Prop where
  length : es.length ≤ 3
  delays : delaysIn es = []
  replies : (repliesIn es).length ≤ 1
  raise : ∀ e, q = .raise e → (∃ record, ⟨.record record, false⟩ ∈ es) ∨
    1024 ≤ attempt - 1 ∧ (attempt : Int) < d.maxAttempts

omit [Sha256] [JsonDumps] in
theorem lastAttempt_of_conclude {before es : List DispatchEvent} {record : DeliveryRecord}
    {q : DispatchProgram DeliveryRecord} (attempt : Nat) (hlength : before.length ≤ 2)
    (hdelays : delaysIn before = []) (hreplies : (repliesIn before).length ≤ 1)
    (h : Path (conclude record) es q) : LastAttempt d attempt (before ++ es) q := by
  obtain ⟨hshort, hnodelay, hnoreply, hraise⟩ := short_conclude h
  refine ⟨?_, ?_, ?_, fun e he => .inl ?_⟩
  · rw [List.length_append]
    omega
  · simp only [delaysIn, List.filterMap_append] at hdelays hnodelay ⊢
    rw [hdelays, hnodelay, List.append_nil]
  · simp only [repliesIn, List.filterMap_append, List.length_append] at hreplies hnoreply ⊢
    rw [hnoreply]
    exact hreplies
  · obtain ⟨record, hrecord⟩ := hraise e he
    exact ⟨record, List.mem_append_right _ hrecord⟩

/-- What follows a reply that does not end the delivery. -/
theorem path_afterRetry {left attempt : Nat} (reply : HttpReply) {record : DeliveryRecord}
    {es : List DispatchEvent} {q : DispatchProgram DeliveryRecord}
    (hmore : (attempt : Int) < d.maxAttempts)
    (h : Path (backOff d attempt record (attemptFrom d job left (attempt + 1))) es q) :
    LastAttempt d attempt ([⟨.isRunning d.serial, true⟩, ⟨.send (d.request job), reply⟩] ++ es) q ∨
      ∃ delay rest, es = [⟨.record record, true⟩, ⟨.sleep delay, ()⟩] ++ rest ∧
        d.computeBackoff attempt = .ok delay ∧
        Path (attemptFrom d job left (attempt + 1)) rest q := by
  rw [backOff_eq] at h
  rcases path_call_cases h with ⟨rfl, rfl⟩ | ⟨taken, rest, rfl, htaken⟩
  · exact .inl ⟨by simp, rfl, by simp [repliesIn], by simp⟩
  cases taken with
  | false =>
      simp at htaken
      simp only [htaken]
      exact .inl ⟨by simp, rfl, by simp [repliesIn], fun _ _ => .inl ⟨record, by simp⟩⟩
  | true =>
      simp at htaken
      cases hdelay : d.computeBackoff attempt with
      | error e =>
          have hbig : 1024 ≤ attempt - 1 := by
            by_contra hsmall
            simp [computeBackoff, hsmall] at hdelay
          simp [hdelay, pause] at htaken
          simp only [htaken]
          exact .inl ⟨by simp, rfl, by simp [repliesIn], fun _ _ => .inr ⟨hbig, hmore⟩⟩
      | ok delay =>
          rw [hdelay, pause_ok] at htaken
          rcases path_call_cases htaken with ⟨rfl, rfl⟩ | ⟨_, rest, rfl, hnext⟩
          · exact .inl ⟨by simp, rfl, by simp [repliesIn], by simp⟩
          · exact .inr ⟨delay, rest, rfl, rfl, hnext⟩

/-- An attempt that is the last so far, or one after which the next has begun. -/
theorem path_attempt {left attempt : Nat} {es : List DispatchEvent}
    {q : DispatchProgram DeliveryRecord} (h : Path (attemptFrom d job (left + 1) attempt) es q) :
    LastAttempt d attempt es q ∨
      ∃ reply record delay rest, es = [⟨.isRunning d.serial, true⟩, ⟨.send (d.request job), reply⟩,
          ⟨.record record, true⟩, ⟨.sleep delay, ()⟩] ++ rest ∧
        d.computeBackoff attempt = .ok delay ∧
        Path (attemptFrom d job left (attempt + 1)) rest q := by
  rw [attemptFrom_succ] at h
  rcases path_call_cases h with ⟨rfl, rfl⟩ | ⟨up, rest, rfl, hup⟩
  · exact .inl ⟨by simp, rfl, by simp [repliesIn], by simp⟩
  cases up with
  | false =>
      have hclosed : Path (conclude (d.stoppedRecord job attempt)) rest q := hup
      have hlast : LastAttempt d attempt ([⟨.isRunning d.serial, false⟩] ++ rest) q :=
        lastAttempt_of_conclude attempt (by simp) rfl (by simp [repliesIn]) hclosed
      exact .inl hlast
  | true =>
      have hsend : Path (.call (.send (d.request job)) (judge d job attempt
        (attemptFrom d job left (attempt + 1)))) rest q := hup
      rcases path_call_cases hsend with ⟨rfl, rfl⟩ | ⟨reply, rest, rfl, hjudge⟩
      · exact .inl ⟨by simp, rfl, by simp [repliesIn], by simp⟩
      have hconclude : ∀ record, Path (conclude record) rest q → LastAttempt d attempt
          ([⟨.isRunning d.serial, true⟩, ⟨.send (d.request job), reply⟩] ++ rest) q :=
        fun record hrecord =>
          lastAttempt_of_conclude attempt (by simp) rfl (by simp [repliesIn]) hrecord
      unfold judge at hjudge
      by_cases hok : reply.IsOk
      · rw [if_pos hok] at hjudge
        exact .inl (hconclude _ hjudge)
      rw [if_neg hok] at hjudge
      by_cases hend : d.maxAttempts ≤ attempt
      · rw [if_pos hend] at hjudge
        exact .inl (hconclude _ hjudge)
      rw [if_neg hend] at hjudge
      rcases path_afterRetry reply (by omega) hjudge with
        hlast | ⟨delay, later, rfl, hdelay, hlater⟩
      · exact .inl hlast
      · exact .inr ⟨reply, _, delay, later, rfl, hdelay, hlater⟩

/-- The delays so far are the first of the ladder. -/
theorem delays_of_path {es : List DispatchEvent} {q : DispatchProgram DeliveryRecord}
    (h : Path (deliver d job) es q) :
    ∃ n, delaysIn es = (List.range n).map (fun k => min (d.baseDelay * 2 ^ k) d.maxDelay) ∧
      n ≤ (repliesIn es).length ∧ (repliesIn es).length ≤ n + 1 := by
  have hfrom : ∀ left attempt es, Path (attemptFrom d job left (attempt + 1)) es q →
      ∃ n, delaysIn es =
          (List.range' attempt n).map (fun k => min (d.baseDelay * 2 ^ k) d.maxDelay) ∧
        n ≤ (repliesIn es).length ∧ (repliesIn es).length ≤ n + 1 := by
    intro left
    induction left with
    | zero =>
        intro attempt es hpath
        obtain ⟨-, hdelays, hreplies, -⟩ := short_conclude hpath
        exact ⟨0, by simp [hdelays], by simp, by simp [hreplies]⟩
    | succ left ih =>
        intro attempt es hpath
        rcases path_attempt hpath with hlast | ⟨reply, _, delay, rest, rfl, hdelay, hrest⟩
        · exact ⟨0, by simp [hlast.delays], by simp, by simpa using hlast.replies⟩
        · obtain ⟨n, hn, hle, hge⟩ := ih (attempt + 1) rest hrest
          have hvalue : delay = min (d.baseDelay * 2 ^ attempt) d.maxDelay := by
            unfold computeBackoff at hdelay
            split at hdelay
            · cases hdelay
            · exact (Except.ok.inj hdelay).symm
          refine ⟨n + 1, ?_, ?_, ?_⟩
          · show delay :: delaysIn rest = _
            rw [List.range'_succ, List.map_cons, hn, hvalue]
          · show n + 1 ≤ (reply :: repliesIn rest).length
            simp
            omega
          · show (reply :: repliesIn rest).length ≤ n + 1 + 1
            simp
            omega
  obtain ⟨n, hn, hle, hge⟩ := hfrom _ 0 es h
  exact ⟨n, by rw [hn, List.range_eq_range'], hle, hge⟩

theorem length_of_path {es : List DispatchEvent} {q : DispatchProgram DeliveryRecord}
    (h : Path (deliver d job) es q) : es.length ≤ 4 * d.maxAttempts.toNat + 1 := by
  have hfrom : ∀ left attempt es, Path (attemptFrom d job left attempt) es q →
      es.length ≤ 4 * left + 1 := by
    intro left
    induction left with
    | zero =>
        intro attempt es hpath
        have hshort := (short_conclude hpath).1
        omega
    | succ left ih =>
        intro attempt es hpath
        rcases path_attempt hpath with hlast | ⟨_, _, _, rest, rfl, -, hrest⟩
        · have hlength := hlast.length
          omega
        · have hlater := ih (attempt + 1) rest hrest
          simp
          omega
  exact hfrom _ 1 es h

/-- What raises: a callback that fails, or a ladder beyond what `math.pow` gives. -/
theorem raise_of_path {es : List DispatchEvent} {e : DispatchError}
    (h : Path (deliver d job) es (.raise e)) :
    (∃ record, ⟨.record record, false⟩ ∈ es) ∨ 1025 ≤ d.maxRetries := by
  have hfrom : ∀ left attempt es, Path (attemptFrom d job left attempt) es (.raise e) →
      (∃ record, ⟨.record record, false⟩ ∈ es) ∨ 1025 ≤ d.maxRetries := by
    intro left
    induction left with
    | zero =>
        intro attempt es hpath
        obtain ⟨-, -, -, hraise⟩ := short_conclude hpath
        exact .inl (hraise e rfl)
    | succ left ih =>
        intro attempt es hpath
        rcases path_attempt hpath with hlast | ⟨_, _, _, rest, rfl, -, hrest⟩
        · rcases hlast.raise e rfl with hcallback | ⟨hbig, hlt⟩
          · exact .inl hcallback
          · unfold maxAttempts at hlt
            right
            omega
        · rcases ih (attempt + 1) rest hrest with ⟨record, hrecord⟩ | hbig
          · exact .inl ⟨record, List.mem_append_right _ hrecord⟩
          · exact .inr hbig
  exact hfrom _ 1 es h

/-- A dispatcher that is not running sends nothing. -/
theorem nothing_sent {es : List DispatchEvent} {q : DispatchProgram DeliveryRecord}
    (h : Path (deliver d job) es q) (hidle : ⟨.isRunning d.serial, true⟩ ∉ es) :
    repliesIn es = [] := by
  rw [deliver_eq] at h
  cases hleft : d.maxAttempts.toNat with
  | zero =>
      rw [hleft] at h
      exact (short_conclude h).2.2.1
  | succ left =>
      rw [hleft, attemptFrom_succ] at h
      rcases path_call_cases h with ⟨rfl, rfl⟩ | ⟨up, rest, rfl, hup⟩
      · rfl
      cases up with
      | false =>
          have hclosed : Path (conclude (d.stoppedRecord job 1)) rest q := hup
          exact (short_conclude hclosed).2.2.1
      | true => simp at hidle

end Course

end Dispatcher

end HermesCluster
