import HermesCluster.Hooks.Dispatcher
import HermesCluster.Lib.BoundedLog
import HermesCluster.Lib.Table
import HermesCluster.Lib.Url
/-!
# The webhook manager

`hooks/manager.py`, `routers/hooks.py`, and the `emit_alert` of `core/metering.py` and
`core/release_drift_poller.py`: the registered hooks, the deliveries that an event
starts, and the history that all of them write to. Deliveries run while hooks come and
go and other alerts are under way; every order of their steps is a run of `hooks`. The
times that a hook and a record carry are left out.
-/

namespace HermesCluster

structure Hook where
  id : String
  url : String
  events : List HookEventType
  secret : String := ""
  active : Bool := true
  deriving DecidableEq

instance : HasKey Hook String := ⟨Hook.id⟩

/-- `HookManager`: the hooks and the history. -/
structure HookManager where
  hooks : Table Hook := Table.empty
  deliveries : List DeliveryRecord := []

namespace HookManager

variable (m : HookManager)

/-- `register`, with the id that it draws. -/
def register (id url : String) (events : List HookEventType) (secret : String) :
    Except String (Hook × HookManager) :=
  if url = "" then .error "url is required"
  else if events = [] then .error "at least one event type is required"
  else
    match events.find? (fun event => !isValidEvent event.value) with
    | some event => .error ("invalid event type: " ++ event.value)
    | none =>
        let hook : Hook := { id := id, url := url, events := events, secret := secret }
        .ok (hook, { m with hooks := m.hooks.upsert hook })

def deregister (hookId : String) : Except String HookManager :=
  match m.hooks.get? hookId with
  | none => .error ("hook " ++ hookId ++ " not found")
  | some _ => .ok { m with hooks := m.hooks.erase hookId }

def get (hookId : String) : Option Hook :=
  m.hooks.get? hookId

/-- `list_hooks`: the secrets are left out. -/
def listHooks : List Hook :=
  m.hooks.rows.map fun hook => { hook with secret := "" }

def getHooksForEvent (eventType : HookEventType) : List Hook :=
  m.hooks.rows.filter fun hook => hook.active && hook.events.contains eventType

/-- `_record_delivery`: nothing can be popped from an empty history that is full. One
step here; the source holds no lock from the check to the append. -/
def recordDelivery (maxHistory : Nat) (record : DeliveryRecord) : Option HookManager :=
  if maxHistory ≤ m.deliveries.length ∧ m.deliveries = [] then none
  else some { m with deliveries := BoundedLog.push maxHistory m.deliveries record }

def getDeliveries (hookId : String) : List DeliveryRecord :=
  m.deliveries.filter fun record => record.hookId = hookId

def getDeliveriesAll : List DeliveryRecord :=
  m.deliveries

end HookManager

/-! ## The routes -/

namespace HookApi

open HookManager

/-- A status and a detail. -/
structure HttpError where
  status : Nat
  detail : String
  deriving DecidableEq

/-- `POST /hooks`. -/
def registerHook (m : HookManager) (id url : String) (events : List HookEventType)
    (secret : String) : Except HttpError (Hook × HookManager) :=
  if url = "" then .error ⟨400, "url is required"⟩
  else if events = [] then .error ⟨400, "at least one event type is required"⟩
  else
    match m.register id url events secret with
    | .error detail => .error ⟨400, detail⟩
    | .ok registered => .ok registered

/-- `DELETE /hooks/{id}`. -/
def deregisterHook (m : HookManager) (hookId : String) : Except HttpError HookManager :=
  match m.deregister hookId with
  | .error _ => .error ⟨404, "hook " ++ hookId ++ " not found"⟩
  | .ok after => .ok after

/-- `GET /hooks/{id}/deliveries`. -/
def getHookDeliveries (m : HookManager) (hookId : String) :
    Except HttpError (List DeliveryRecord) :=
  match m.get hookId with
  | none => .error ⟨404, "hook " ++ hookId ++ " not found"⟩
  | some _ => .ok (m.getDeliveries hookId)

end HookApi

/-! ## Alerts -/

/-- The pollers that send alerts. -/
inductive AlertSource where
  | metering
  | releaseDrift
  deriving DecidableEq

def AlertSource.value : AlertSource → String
  | .metering => "metering"
  | .releaseDrift => "release_drift"

/-- An alert that is being sent: its hooks, and the position of its first delivery. -/
structure AlertFan where
  source : AlertSource
  hooks : List Hook
  first : Nat

/-- What is kept in `last_errors`: a stage and the start of a message. -/
structure PollerError where
  stage : String
  message : String
  deriving DecidableEq

/-- `_record_error`. -/
def recordError (stage message : String) : PollerError :=
  ⟨stage, Text.take 300 message⟩

/-- `str(exc)` of what a delivery may raise. -/
def DispatchError.text : DispatchError → String
  | .callback => "pop from empty list"
  | .overflow => "math range error"

/-- How a delivery ended, if it has. -/
def outcomeOf : DispatchProgram DeliveryRecord → Option (Except DispatchError DeliveryRecord)
  | .pure record => some (.ok record)
  | .raise e => some (.error e)
  | .call _ _ => none

section Counting

variable [Nfkc]

/-- The loop of metering's `emit_alert`; a URL that does not parse ends it, and the alert
counts as delivered to nobody. -/
def countMetering : List (Hook × Except DispatchError DeliveryRecord) → Nat →
    Nat × List PollerError
  | [], ok => (ok, [])
  | (_, .error e) :: rest, ok =>
      let (count, errors) := countMetering rest ok
      (count, recordError "alert_delivery" e.text :: errors)
  | (hook, .ok record) :: rest, ok =>
      if record.status = .success then countMetering rest (ok + 1)
      else
        match Url.urlsplit hook.url with
        | .error text => (0, [recordError "alert_emit" text])
        | .ok split =>
            let (count, errors) := countMetering rest ok
            (count, recordError "alert_delivery" (Text.take 200 ("metering alert to " ++
              split.netloc ++ ": " ++ record.status.value ++ " " ++ record.error)) :: errors)

/-- The loop of the drift poller's `emit_alert`, which keeps only what was raised. -/
def countDrift : List (Hook × Except DispatchError DeliveryRecord) → Nat → Nat × List PollerError
  | [], ok => (ok, [])
  | (_, .error e) :: rest, ok =>
      let (count, errors) := countDrift rest ok
      (count, recordError "alert_delivery" (Text.take 200 e.text) :: errors)
  | (_, .ok record) :: rest, ok => countDrift rest (if record.status = .success then ok + 1 else ok)

def AlertSource.count : AlertSource → List (Hook × Except DispatchError DeliveryRecord) →
    Nat × List PollerError
  | .metering, results => countMetering results 0
  | .releaseDrift, results => countDrift results 0

end Counting

/-! ## Everything at once -/

/-- The manager's settings and those of its dispatcher. -/
structure HookSettings where
  maxHistory : Nat := 1000
  shared : Dispatcher := {}

/-- The dispatcher that `emit_alert` makes for its deliveries. -/
def HookSettings.alertDispatcher (settings : HookSettings) (serial : Nat) : Dispatcher :=
  { serial := serial
    maxRetries := settings.shared.maxRetries
    httpTimeout := settings.shared.httpTimeout }

/-- The manager, the dispatchers that run, and the alerts that were sent. -/
structure HookWorld where
  manager : HookManager := {}
  running : Nat → Bool := fun _ => false
  alerts : List AlertFan := []

/-- A call of a route, of the manager, or of a poller, with the ids that are drawn. -/
inductive HookCall where
  | register (id url : String) (events : List HookEventType) (secret : String)
  | deregister (hookId : String)
  | start
  | stop
  | emit (eventType : HookEventType) (data : Json) (timestamp : String) (ids : Nat → String)
  | emitAlert (source : AlertSource) (alert : List (String × Json)) (timestamp : String)
      (ids : Nat → String)
  | gather (alert : Nat)

inductive HookAnswer where
  | registered (result : Except HookApi.HttpError Hook)
  | deregistered (result : Except HookApi.HttpError Unit)
  | done
  | emitted (count : Nat)
  | alerting (alert : Option Nat)
  | gathered (result : Option (Nat × List PollerError))

/-- A delivery, and the dispatcher that makes it. -/
structure HookJob where
  dispatcher : Dispatcher
  delivery : HookDelivery

/-- One delivery for each hook. -/
def jobsFor (dispatcher : Dispatcher) (ids : Nat → String) (payload : Payload)
    (hooks : List Hook) : List HookJob :=
  hooks.mapIdx fun i hook => ⟨dispatcher, ⟨ids i, hook.id, hook.url, hook.secret, payload⟩⟩

/-- `{"source": source, **alert}`. -/
def AlertSource.data (source : AlertSource) (alert : List (String × Json)) : Json :=
  .obj (alert.foldl (fun fields field => Json.insert fields field.1 field.2)
    [("source", .str source.value)])

/-- What an operation of a delivery does, where a request would be given this reply. -/
def dispatchStep (settings : HookSettings) (reply : HttpReply) :
    (op : DispatchOp) → HookWorld → op.Res × HookWorld
  | .isRunning dispatcher, w => (w.running dispatcher, w)
  | .send _, w => (reply, w)
  | .record record, w =>
      match w.manager.recordDelivery settings.maxHistory record with
      | none => (false, w)
      | some manager => (true, { w with manager := manager })
  | .sleep _, w => ((), w)

section Handling

variable [Nfkc]

/-- How the deliveries of an alert ended, once all have. -/
def gatherResults (fan : AlertFan) (pool : List (DispatchProgram DeliveryRecord)) :
    Option (List (Except DispatchError DeliveryRecord)) :=
  ((pool.drop fan.first).take fan.hooks.length).mapM outcomeOf

/-- What a call answers, the deliveries that it begins, and what it leaves. -/
def handleCall (settings : HookSettings) :
    Program.Handler DispatchOp DispatchOp.Res DispatchError DeliveryRecord HookJob HookAnswer
      HookWorld HookCall
  | .register id url events secret, (_, w) =>
      match HookApi.registerHook w.manager id url events secret with
      | .error e => ((.registered (.error e), []), w)
      | .ok (hook, manager) => ((.registered (.ok hook), []), { w with manager := manager })
  | .deregister hookId, (_, w) =>
      match HookApi.deregisterHook w.manager hookId with
      | .error e => ((.deregistered (.error e), []), w)
      | .ok manager => ((.deregistered (.ok ()), []), { w with manager := manager })
  | .start, (_, w) => ((.done, []), { w with running := Function.update w.running 0 true })
  | .stop, (_, w) => ((.done, []), { w with running := Function.update w.running 0 false })
  | .emit eventType data timestamp ids, (_, w) =>
      let hooks := w.manager.getHooksForEvent eventType
      let payload : Payload := { eventType := eventType, timestamp := timestamp, data := data }
      ((.emitted hooks.length, jobsFor { settings.shared with serial := 0 } ids payload hooks), w)
  | .emitAlert source alert timestamp ids, (pool, w) =>
      let hooks := w.manager.getHooksForEvent .taskFailed
      if hooks = [] then ((.alerting none, []), w)
      else
        let number := w.alerts.length
        let payload : Payload :=
          { eventType := .taskFailed, timestamp := timestamp, data := source.data alert }
        ((.alerting (some number),
            jobsFor (settings.alertDispatcher (number + 1)) ids payload hooks),
          { w with
            running := Function.update w.running (number + 1) true
            alerts := w.alerts ++ [⟨source, hooks, pool.length⟩] })
  | .gather number, (pool, w) =>
      match w.alerts[number]? with
      | none => ((.gathered none, []), w)
      | some fan =>
          match gatherResults fan pool with
          | none => ((.gathered none, []), w)
          | some results =>
              ((.gathered (some (fan.source.count (fan.hooks.zip results))), []),
                { w with running := Function.update w.running (number + 1) false })

end Handling

variable [Sha256] [JsonDumps] [Nfkc]

def HookJob.program (job : HookJob) : DispatchProgram DeliveryRecord :=
  job.dispatcher.deliver job.delivery

/-- The webhook system: calls and steps of deliveries, in any order. -/
def hooks (settings : HookSettings) :
    Machine (List (DispatchProgram DeliveryRecord) × HookWorld)
      (Program.Occasion HttpReply HookCall) (Program.Outcome DispatchOp.Res HookJob HookAnswer) :=
  Program.crew (dispatchStep settings) HookJob.program (handleCall settings)

abbrev HookRun : Type :=
  Program.CrewRun HttpReply HookCall DispatchOp.Res HookJob HookAnswer

end HermesCluster
