import HermesCluster.Hooks.HookManager
/-!
# Runs of the webhook system

What holds in every order of calls and deliveries: the history is the end of what was
recorded, the registered hooks are those that the calls left standing, an event begins
one delivery for each of them that subscribed to it, and every delivery tells its story.
-/

namespace HermesCluster

open Program hiding pure bind

namespace HookRuns

/-! ## Changes to the registered hooks -/

inductive HookChange where
  | added (hook : Hook)
  | removed (hookId : String)

def HookChange.id : HookChange → String
  | .added hook => hook.id
  | .removed hookId => hookId

/-- What an occasion changed. -/
def changeOf : Occasion HttpReply HookCall × Outcome DispatchOp.Res HookJob HookAnswer →
    Option HookChange
  | (_, .answered (.registered (.ok hook)) _) => some (.added hook)
  | (.other (.deregister hookId), .answered (.deregistered (.ok _)) _) => some (.removed hookId)
  | _ => none

/-- A hook was registered, and nothing has been done to its id since. -/
def Standing (hook : Hook) (run : HookRun) : Prop :=
  ∃ before after, run.filterMap changeOf = before ++ .added hook :: after ∧
    ∀ change ∈ after, change.id ≠ hook.id

theorem not_standing_nil (hook : Hook) : ¬Standing hook [] := by
  rintro ⟨before, after, h, -⟩
  simp at h

theorem standing_concat_iff {hook : Hook} {run : HookRun}
    {entry : Occasion HttpReply HookCall × Outcome DispatchOp.Res HookJob HookAnswer} :
    Standing hook (run ++ [entry]) ↔
      match changeOf entry with
      | none => Standing hook run
      | some change => change = .added hook ∨ (change.id ≠ hook.id ∧ Standing hook run) := by
  unfold Standing
  rw [List.filterMap_append, List.filterMap_cons, List.filterMap_nil]
  cases changeOf entry with
  | none => simp
  | some change =>
      constructor
      · rintro ⟨before, after, h, hafter⟩
        cases after using List.reverseRecOn with
        | nil =>
            have hlast := List.append_inj_right' h rfl
            exact .inl (List.cons.inj hlast).1
        | append_singleton after last =>
            rw [← List.cons_append, ← List.append_assoc] at h
            have hlast := List.append_inj_right' h rfl
            have hfirst := List.append_inj_left' h rfl
            obtain rfl := (List.cons.inj hlast).1
            refine .inr ⟨hafter _ (by simp), before, after, hfirst, fun c hc => ?_⟩
            exact hafter c (by simp [hc])
      · rintro (rfl | ⟨hid, before, after, h, hafter⟩)
        · exact ⟨_, [], rfl, by simp⟩
        · refine ⟨before, after ++ [change], by simp [h], fun c hc => ?_⟩
          rcases List.mem_append.mp hc with hold | hnew
          · exact hafter c hold
          · rw [List.mem_singleton.mp hnew]
            exact hid

/-! ## The history -/

theorem recordsIn_append (es es' : List DispatchEvent) :
    recordsIn (es ++ es') = recordsIn es ++ recordsIn es' := by
  simp [recordsIn]

theorem eventsIn_concat (run : HookRun)
    (entry : Occasion HttpReply HookCall × Outcome DispatchOp.Res HookJob HookAnswer) :
    eventsIn (run ++ [entry]) = eventsIn run ++ eventsIn [entry] := by
  simp [eventsIn]

theorem recordDelivery_eq {maxHistory : Nat} (h : 0 < maxHistory) (m : HookManager)
    (record : DeliveryRecord) :
    m.recordDelivery maxHistory record =
      some { m with deliveries := BoundedLog.push maxHistory m.deliveries record } := by
  unfold HookManager.recordDelivery
  rw [if_neg]
  intro hfull
  rw [hfull.2] at hfull
  simp at hfull
  omega

section Calls

variable [Nfkc] (settings : HookSettings)

/-- To whom a delivery goes, and how it is signed. -/
def addressee (job : HookJob) : String × String × String :=
  (job.delivery.hookId, job.delivery.url, job.delivery.secret)

/-- What a call announces. -/
def announced : HookCall → Option Payload
  | .emit eventType data timestamp _ =>
      some { eventType := eventType, timestamp := timestamp, data := data }
  | .emitAlert source alert timestamp _ =>
      some { eventType := .taskFailed, timestamp := timestamp, data := source.data alert }
  | _ => none

/-- All that a call can do: refuse or only look, change the hooks, switch the manager's
dispatcher, begin deliveries, or end an alert. -/
inductive CallEffect (pool : List (DispatchProgram DeliveryRecord)) (w : HookWorld) :
    HookCall → (HookAnswer × List HookJob) × HookWorld → Prop
  | nothing (call : HookCall) (answer : HookAnswer) (hcall : announced call = none)
      (hchange : changeOf (.other call, .answered answer []) = none)
      (hgathered : ∀ result, answer ≠ .gathered (some result)) :
      CallEffect pool w call ((answer, []), w)
  | registered (id url : String) (events : List HookEventType) (secret : String) :
      CallEffect pool w (.register id url events secret)
        ((.registered (.ok { id := id, url := url, events := events, secret := secret }), []),
          { w with manager.hooks :=
              w.manager.hooks.upsert { id := id, url := url, events := events, secret := secret } })
  | deregistered (hookId : String) :
      CallEffect pool w (.deregister hookId) ((.deregistered (.ok ()), []),
        { w with manager.hooks := w.manager.hooks.erase hookId })
  | began : CallEffect pool w .start ((.done, []),
        { w with running := Function.update w.running 0 true })
  | halted : CallEffect pool w .stop ((.done, []),
        { w with running := Function.update w.running 0 false })
  | emitted (eventType : HookEventType) (data : Json) (timestamp : String) (ids : Nat → String)
      (payload : Payload)
      (hpayload : announced (.emit eventType data timestamp ids) = some payload) :
      CallEffect pool w (.emit eventType data timestamp ids)
        ((.emitted (w.manager.getHooksForEvent eventType).length,
          jobsFor { settings.shared with serial := 0 } ids payload
            (w.manager.getHooksForEvent payload.eventType)), w)
  | unheard (source : AlertSource) (alert : List (String × Json)) (timestamp : String)
      (ids : Nat → String) (hnone : w.manager.getHooksForEvent .taskFailed = []) :
      CallEffect pool w (.emitAlert source alert timestamp ids) ((.alerting none, []), w)
  | alerted (source : AlertSource) (alert : List (String × Json)) (timestamp : String)
      (ids : Nat → String) (payload : Payload)
      (hpayload : announced (.emitAlert source alert timestamp ids) = some payload)
      (hfailed : payload.eventType = .taskFailed) :
      CallEffect pool w (.emitAlert source alert timestamp ids)
        ((.alerting (some w.alerts.length),
          jobsFor (settings.alertDispatcher (w.alerts.length + 1)) ids payload
            (w.manager.getHooksForEvent .taskFailed)),
          { w with
            running := Function.update w.running (w.alerts.length + 1) true
            alerts := w.alerts ++
              [⟨source, w.manager.getHooksForEvent .taskFailed, pool.length⟩] })
  | gathered (number : Nat) (fan : AlertFan)
      (results : List (Except DispatchError DeliveryRecord)) (hfan : w.alerts[number]? = some fan)
      (hresults : gatherResults fan pool = some results) :
      CallEffect pool w (.gather number)
        ((.gathered (some (fan.source.count (fan.hooks.zip results))), []),
          { w with running := Function.update w.running (number + 1) false })

theorem handleCall_effect (call : HookCall) (pool : List (DispatchProgram DeliveryRecord))
    (w : HookWorld) : CallEffect settings pool w call (handleCall settings call (pool, w)) := by
  cases call with
  | register id url events secret =>
      simp only [handleCall, HookApi.registerHook, HookManager.register]
      split_ifs
      · exact .nothing _ _ rfl rfl (by simp)
      · exact .nothing _ _ rfl rfl (by simp)
      · have hvalid : events.find? (fun event => !isValidEvent event.value) = none := by
          simp [isValidEvent_value]
        rw [hvalid]
        exact .registered id url events secret
  | deregister hookId =>
      simp only [handleCall, HookApi.deregisterHook, HookManager.deregister]
      cases w.manager.hooks.get? hookId with
      | none => exact .nothing _ _ rfl rfl (by simp)
      | some found => exact .deregistered hookId
  | start => exact .began
  | stop => exact .halted
  | emit eventType data timestamp ids => exact .emitted eventType data timestamp ids _ rfl
  | emitAlert source alert timestamp ids =>
      simp only [handleCall]
      split_ifs with hnone
      · exact .unheard source alert timestamp ids hnone
      · exact .alerted source alert timestamp ids _ rfl rfl
  | gather number =>
      simp only [handleCall]
      cases hfan : w.alerts[number]? with
      | none => exact .nothing _ _ rfl rfl (by simp)
      | some fan =>
          dsimp only
          cases hresults : gatherResults fan pool with
          | none => exact .nothing _ _ rfl rfl (by simp)
          | some results => exact .gathered number fan results hfan hresults

variable {settings} {pool : List (DispatchProgram DeliveryRecord)} {w : HookWorld}
  {call : HookCall} {out : (HookAnswer × List HookJob) × HookWorld}

theorem CallEffect.deliveries (h : CallEffect settings pool w call out) :
    out.2.manager.deliveries = w.manager.deliveries := by
  cases h <;> rfl

/-- The hooks after a call are those that its change leaves, if it made one. -/
theorem CallEffect.mem_hooks (h : CallEffect settings pool w call out) (hook : Hook) :
    hook ∈ out.2.manager.hooks.rows ↔
      match changeOf (.other call, .answered out.1.1 out.1.2) with
      | none => hook ∈ w.manager.hooks.rows
      | some change =>
          change = .added hook ∨ (change.id ≠ hook.id ∧ hook ∈ w.manager.hooks.rows) := by
  cases h with
  | nothing _ answer hcall hchange hgathered => simp only [hchange]
  | registered id url events secret =>
      simp only [changeOf, HookChange.added.injEq, HookChange.id, Table.mem_rows_upsert]
      exact or_congr eq_comm (and_comm.trans (and_congr_left' ne_comm))
  | deregistered hookId =>
      simp only [changeOf, HookChange.id, Table.mem_rows_erase, reduceCtorEq, false_or]
      exact and_comm.trans (and_congr_left' ne_comm)
  | began => rfl
  | halted => rfl
  | emitted => rfl
  | unheard => rfl
  | alerted => rfl
  | gathered => rfl

/-- A hook is registered as active. -/
theorem CallEffect.active_of_added (h : CallEffect settings pool w call out) {hook : Hook}
    (hadded : changeOf (.other call, .answered out.1.1 out.1.2) = some (.added hook)) :
    hook.active = true := by
  cases h with
  | nothing _ answer hcall hchange hgathered => simp [hchange] at hadded
  | registered id url events secret =>
      cases hadded
      rfl
  | deregistered hookId => cases hadded
  | began => cases hadded
  | halted => cases hadded
  | emitted => cases hadded
  | unheard => cases hadded
  | alerted => cases hadded
  | gathered => cases hadded

omit [Nfkc] in
theorem addressees_jobsFor (dispatcher : Dispatcher) (ids : Nat → String) (payload : Payload)
    (hooks : List Hook) :
    (jobsFor dispatcher ids payload hooks).map addressee =
      hooks.map fun hook => (hook.id, hook.url, hook.secret) := by
  apply List.ext_getElem
  · simp [jobsFor]
  · intro i hi hi'
    simp [jobsFor, addressee]

omit [Nfkc] in
theorem payload_jobsFor {dispatcher : Dispatcher} {ids : Nat → String} {payload : Payload}
    {hooks : List Hook} {job : HookJob} (h : job ∈ jobsFor dispatcher ids payload hooks) :
    job.delivery.payload = payload := by
  obtain ⟨i, hi, rfl⟩ := List.mem_mapIdx.mp h
  rfl

/-- A call that announces an event begins one delivery for each hook that wants it; no
other call begins any. -/
theorem CallEffect.started (h : CallEffect settings pool w call out) :
    match announced call with
    | none => out.1.2 = []
    | some payload =>
        out.1.2.map addressee = (w.manager.getHooksForEvent payload.eventType).map
            (fun hook => (hook.id, hook.url, hook.secret)) ∧
          ∀ job ∈ out.1.2, job.delivery.payload = payload := by
  cases h with
  | nothing _ answer hcall hchange hgathered => simp only [hcall]
  | registered => rfl
  | deregistered => rfl
  | began => rfl
  | halted => rfl
  | emitted eventType data timestamp ids payload hpayload =>
      rw [hpayload]
      exact ⟨addressees_jobsFor _ _ _ _, fun job hjob => payload_jobsFor hjob⟩
  | unheard source alert timestamp ids hnone => simp [announced, hnone]
  | alerted source alert timestamp ids payload hpayload hfailed =>
      rw [hpayload]
      dsimp only
      rw [hfailed]
      exact ⟨addressees_jobsFor _ _ _ _, fun job hjob => payload_jobsFor hjob⟩
  | gathered => rfl

end Calls

section Example

/-- Digests for payloads that no secret signs. -/
@[reducible] def relayDigests : Sha256 where
  digest body := 0 :: body
  mac key message := 0 :: (key ++ message)
  mac_ne_nil _ _ := List.cons_ne_nil _ _

/-- The text of the one payload that is sent. -/
@[reducible] def relayTexts : JsonDumps where
  dumps _ := "\x7b\"event_type\": \"task_failed\", \"timestamp\": " ++
    "\"2026-03-01 09:00:00+00:00\", \"data\": \x7b\"source\": \"metering\"\x7d\x7d"

def relayCalls : List (Occasion HttpReply HookCall) :=
  [.other (.register "hook_1" "http://relay:8080/alert" [.taskFailed] ""),
    .other (.emitAlert .metering [] "2026-03-01 09:00:00+00:00" fun _ => "deliv_1")]

/-- A relay is reached at the second attempt. -/
def relayRun : List (Occasion HttpReply HookCall) :=
  relayCalls ++
    List.replicate 4 (.turn ⟨0, ⟨503, some "HTTP Error 503: Service Unavailable"⟩⟩) ++
    List.replicate 3 (.turn ⟨0, ⟨200, none⟩⟩)

def relayJob : HookJob where
  dispatcher := HookSettings.alertDispatcher {} 1
  delivery := ⟨"deliv_1", "hook_1", "http://relay:8080/alert", "",
    { eventType := .taskFailed, timestamp := "2026-03-01 09:00:00+00:00",
      data := .obj [("source", .str "metering")] }⟩

end Example

section Runs

variable [Sha256] [JsonDumps] [Nfkc] {settings : HookSettings}

variable (settings) in
/-- What happened in a run from the start. -/
def runOf (occasions : List (Occasion HttpReply HookCall)) : HookRun :=
  (hooks settings).answers occasions ([], {})

variable (settings) in
/-- The programs that are under way after it, and the world. -/
def endOf (occasions : List (Occasion HttpReply HookCall)) :
    List (DispatchProgram DeliveryRecord) × HookWorld :=
  (hooks settings).after occasions ([], {})

variable (settings) in
/-- The rule for what is said of a run of the system and of where it has come to. -/
theorem tracks_of_hooks
    {I : HookRun → List (DispatchProgram DeliveryRecord) → HookWorld → Prop}
    (hbegin : I [] [] {})
    (hcall : ∀ past pool w call, I past pool w →
      I (past ++ [(.other call, .answered (handleCall settings call (pool, w)).1.1
          (handleCall settings call (pool, w)).1.2)])
        (pool ++ (handleCall settings call (pool, w)).1.2.map HookJob.program)
        (handleCall settings call (pool, w)).2)
    (hturn : ∀ past pool w (t : Turn HttpReply) op next, I past pool w →
      pool[t.position]? = some (.call op next) →
        I (past ++ [(.turn t, .performed (some ⟨op, (dispatchStep settings t.env op w).1⟩))])
          (pool.set t.position (next (dispatchStep settings t.env op w).1))
          (dispatchStep settings t.env op w).2)
    (hidle : ∀ past pool w (t : Turn HttpReply), I past pool w →
      I (past ++ [(.turn t, .performed none)]) pool w)
    (occasions : List (Occasion HttpReply HookCall)) :
    I (runOf settings occasions) (endOf settings occasions).1 (endOf settings occasions).2 :=
  tracks_of_crew (I := fun past st => I past st.1 st.2) hbegin hcall hturn hidle occasions

/-- The history is the end of all that was recorded, in the order in which it was. -/
theorem deliveries_endOf (hroom : 0 < settings.maxHistory)
    (occasions : List (Occasion HttpReply HookCall)) :
    (endOf settings occasions).2.manager.getDeliveriesAll =
      (recordsIn (eventsIn (runOf settings occasions))).rtake settings.maxHistory := by
  apply tracks_of_hooks settings (I := fun past _ w => w.manager.deliveries =
    (recordsIn (eventsIn past)).rtake settings.maxHistory)
  · simp [eventsIn, recordsIn]
  · intro past pool w call h
    have hnothing : recordsIn (eventsIn [((.other call : Occasion HttpReply HookCall),
        (.answered (handleCall settings call (pool, w)).1.1
          (handleCall settings call (pool, w)).1.2 : Outcome DispatchOp.Res HookJob HookAnswer))]) =
        [] := rfl
    rw [(handleCall_effect settings call pool w).deliveries, eventsIn_concat, recordsIn_append,
      hnothing, List.append_nil]
    exact h
  · intro past pool w t op next h hcall
    rw [eventsIn_concat, recordsIn_append]
    cases op with
    | record record =>
        simp only [dispatchStep, recordDelivery_eq hroom]
        rw [h, BoundedLog.push_rtake hroom]
        rfl
    | isRunning dispatcher => simpa [dispatchStep, eventsIn, recordsIn] using h
    | send request => simpa [dispatchStep, eventsIn, recordsIn] using h
    | sleep delay => simpa [dispatchStep, eventsIn, recordsIn] using h
  · intro past pool w t h
    simpa [eventsIn] using h

end Runs

section Example

attribute [local instance] relayDigests relayTexts Nfkc.ascii

theorem deliveries_relay :
    (endOf {} relayRun).2.manager.getDeliveriesAll =
      (recordsIn (eventsIn (runOf {} relayRun))).rtake 1000 :=
  deliveries_endOf (by decide) relayRun

end Example

section Runs

variable [Sha256] [JsonDumps] [Nfkc] {settings : HookSettings}

/-! ## Who is told of an event -/

/-- The registered hooks are those that the calls so far left standing. -/
theorem mem_hooks_endOf (occasions : List (Occasion HttpReply HookCall)) (hook : Hook) :
    hook ∈ (endOf settings occasions).2.manager.hooks.rows ↔
      Standing hook (runOf settings occasions) := by
  apply tracks_of_hooks settings (I := fun past _ w =>
    hook ∈ w.manager.hooks.rows ↔ Standing hook past)
  · simp [Table.empty, not_standing_nil]
  · intro past pool w call h
    rw [(handleCall_effect settings call pool w).mem_hooks, standing_concat_iff]
    cases changeOf (.other call, .answered (handleCall settings call (pool, w)).1.1
        (handleCall settings call (pool, w)).1.2) with
    | none => exact h
    | some change => exact or_congr_right (and_congr_right fun _ => h)
  · intro past pool w t op next h hcall
    rw [standing_concat_iff]
    have hmanager : (dispatchStep settings t.env op w).2.manager.hooks = w.manager.hooks := by
      cases op with
      | record record =>
          simp only [dispatchStep, HookManager.recordDelivery]
          split_ifs <;> rfl
      | isRunning dispatcher => rfl
      | send request => rfl
      | sleep delay => rfl
    rw [hmanager]
    exact h
  · intro past pool w t h
    rw [standing_concat_iff]
    exact h

theorem active_of_mem (occasions : List (Occasion HttpReply HookCall)) :
    ∀ hook ∈ (endOf settings occasions).2.manager.hooks.rows, hook.active = true := by
  apply tracks_of_hooks settings (I := fun _ _ w =>
    ∀ hook ∈ w.manager.hooks.rows, hook.active = true)
  · simp [Table.empty]
  · intro past pool w call h hook hmem
    have heffect := handleCall_effect settings call pool w
    rw [heffect.mem_hooks] at hmem
    cases hchange : changeOf (.other call, .answered (handleCall settings call (pool, w)).1.1
        (handleCall settings call (pool, w)).1.2) with
    | none =>
        rw [hchange] at hmem
        exact h hook hmem
    | some change =>
        rw [hchange] at hmem
        rcases hmem with rfl | hold
        · exact heffect.active_of_added hchange
        · exact h hook hold.2
  · intro past pool w t op next h hcall
    cases op with
    | record record =>
        simp only [dispatchStep, HookManager.recordDelivery]
        split_ifs <;> exact h
    | isRunning dispatcher => exact h
    | send request => exact h
    | sleep delay => exact h
  · intro past pool w t h
    exact h

variable (settings) in
theorem getHooksForEvent_spec (occasions : List (Occasion HttpReply HookCall))
    (eventType : HookEventType) :
    (((endOf settings occasions).2.manager.getHooksForEvent eventType).map Hook.id).Nodup ∧
      ∀ hook, hook ∈ (endOf settings occasions).2.manager.getHooksForEvent eventType ↔
        Standing hook (runOf settings occasions) ∧ eventType ∈ hook.events := by
  constructor
  · exact (endOf settings occasions).2.manager.hooks.nodup.sublist
      (List.filter_sublist.map Hook.id)
  · intro hook
    rw [HookManager.getHooksForEvent, List.mem_filter, mem_hooks_endOf, Bool.and_eq_true,
      List.contains_iff_mem]
    refine and_congr_right fun hstanding => and_iff_right ?_
    exact active_of_mem occasions hook ((mem_hooks_endOf occasions hook).mpr hstanding)

variable (settings) in
theorem startedIn_call (occasions : List (Occasion HttpReply HookCall)) (call : HookCall) :
    startedIn (runOf settings (occasions ++ [.other call])) =
      startedIn (runOf settings occasions) ++
        (handleCall settings call (endOf settings occasions)).1.2 := by
  rw [runOf, Machine.answers_concat, startedIn_concat]
  rfl

variable (settings) in
theorem begun_of_call (occasions : List (Occasion HttpReply HookCall)) (call : HookCall) :
    let begun := (handleCall settings call (endOf settings occasions)).1.2
    match announced call with
    | none => begun = []
    | some payload =>
        (∀ job ∈ begun, job.delivery.payload = payload) ∧
        ∃ hooks : List Hook, (hooks.map Hook.id).Nodup ∧
          (∀ hook, hook ∈ hooks ↔
            Standing hook (runOf settings occasions) ∧ payload.eventType ∈ hook.events) ∧
          begun.map addressee = hooks.map fun hook => (hook.id, hook.url, hook.secret) := by
  have hstarted := (handleCall_effect settings call (endOf settings occasions).1
    (endOf settings occasions).2).started
  cases hannounced : announced call with
  | none => simpa only [hannounced] using hstarted
  | some payload =>
      rw [hannounced] at hstarted
      obtain ⟨hnodup, hmem⟩ := getHooksForEvent_spec settings occasions payload.eventType
      exact ⟨hstarted.2, _, hnodup, hmem, hstarted.1⟩

variable (settings) in
/-- What is announced is delivered once to each hook that stands and subscribed to the
event, and to nobody else; no other call begins a delivery. -/
theorem fan_out (occasions : List (Occasion HttpReply HookCall)) (call : HookCall) :
    ∃ begun : List HookJob,
      startedIn (runOf settings (occasions ++ [.other call])) =
          startedIn (runOf settings occasions) ++ begun ∧
        match announced call with
        | none => begun = []
        | some payload =>
            (∀ job ∈ begun, job.delivery.payload = payload) ∧
            ∃ hooks : List Hook, (hooks.map Hook.id).Nodup ∧
              (∀ hook, hook ∈ hooks ↔
                Standing hook (runOf settings occasions) ∧ payload.eventType ∈ hook.events) ∧
              begun.map addressee = hooks.map fun hook => (hook.id, hook.url, hook.secret) :=
  ⟨_, startedIn_call settings occasions call, begun_of_call settings occasions call⟩

/-! ## The course of every delivery -/

theorem path_of_job {occasions : List (Occasion HttpReply HookCall)} {i : Nat} {job : HookJob}
    (hjob : (startedIn (runOf settings occasions))[i]? = some job) :
    ∃ program, (endOf settings occasions).1[i]? = some program ∧
      Path job.program (performedBy i (runOf settings occasions)) program :=
  path_of_started hjob

/-- Every delivery has come as far as its story tells, and has slept as its ladder says,
once between two requests. -/
theorem delivery_story {occasions : List (Occasion HttpReply HookCall)} {i : Nat} {job : HookJob}
    (hjob : (startedIn (runOf settings occasions))[i]? = some job) :
    let es := performedBy i (runOf settings occasions)
    (∃ program, (endOf settings occasions).1[i]? = some program ∧
      job.dispatcher.Story job.delivery (repliesIn es) (recordsIn es) (haltedIn es)
        (returned program)) ∧
    ∃ n, delaysIn es =
        (List.range n).map
          (fun k => min (job.dispatcher.baseDelay * 2 ^ k) job.dispatcher.maxDelay) ∧
      n ≤ (repliesIn es).length ∧ (repliesIn es).length ≤ n + 1 := by
  obtain ⟨program, hprogram, hpath⟩ := path_of_job hjob
  exact ⟨⟨program, hprogram, Dispatcher.story_of_path hpath⟩, Dispatcher.delays_of_path hpath⟩

end Runs

section Example

attribute [local instance] relayDigests relayTexts Nfkc.ascii

theorem delivery_story_relay :
    let es := performedBy 0 (runOf {} relayRun)
    (∃ program, (endOf {} relayRun).1[0]? = some program ∧
      relayJob.dispatcher.Story relayJob.delivery (repliesIn es) (recordsIn es) (haltedIn es)
        (returned program)) ∧
    ∃ n, delaysIn es =
        (List.range n).map
          (fun k => min (relayJob.dispatcher.baseDelay * 2 ^ k) relayJob.dispatcher.maxDelay) ∧
      n ≤ (repliesIn es).length ∧ (repliesIn es).length ≤ n + 1 := by
  have hjob : (startedIn (runOf {} relayRun))[0]? = some relayJob := rfl
  exact delivery_story hjob

end Example

section Runs

variable [Sha256] [JsonDumps] [Nfkc] {settings : HookSettings}

variable (settings) in
/-- What every reply to an operation is like, every performed operation is like. -/
theorem forall_performed {P : DispatchEvent → Prop}
    (hP : ∀ reply op w, P ⟨op, (dispatchStep settings reply op w).1⟩)
    (occasions : List (Occasion HttpReply HookCall)) (i : Nat) :
    ∀ e ∈ performedBy i (runOf settings occasions), P e := by
  apply tracks_of_hooks settings (I := fun past _ _ =>
    ∀ e ∈ performedBy i past, P e)
  · simp [performedBy]
  · intro past pool w call h
    simpa [performedBy_concat, eventOf] using h
  · intro past pool w t op next h hcall e he
    rw [performedBy_concat, List.mem_append] at he
    rcases he with hold | hnew
    · exact h e hold
    · simp only [eventOf] at hnew
      split_ifs at hnew
      · simp only [Option.toList_some, List.mem_singleton] at hnew
        rw [hnew]
        exact hP t.env op w
      · cases hnew
  · intro past pool w t h
    simpa [performedBy_concat, eventOf] using h

/-- With room in the history, every callback is taken. -/
theorem taken_of_room (hroom : 0 < settings.maxHistory)
    (occasions : List (Occasion HttpReply HookCall)) (i : Nat) (record : DeliveryRecord) :
    ⟨.record record, false⟩ ∉ performedBy i (runOf settings occasions) := by
  intro hmem
  have htaken := forall_performed settings
    (P := fun e => ∀ record, e ≠ ⟨.record record, false⟩) ?_ occasions i _ hmem record
  · exact htaken rfl
  · intro reply op w record
    cases op with
    | record record' => simp [dispatchStep, recordDelivery_eq hroom]
    | isRunning dispatcher => simp
    | send request => simp
    | sleep delay => simp

/-- A delivery that has had its turns has ended with the record that it made last. If
nobody stopped its dispatcher, the record says whether some request was answered well. -/
theorem delivery_ends (hroom : 0 < settings.maxHistory)
    {before : List (Occasion HttpReply HookCall)} {i : Nat} {job : HookJob}
    (hjob : (startedIn (runOf settings before))[i]? = some job)
    (hladder : job.dispatcher.maxRetries ≤ 1024) {later : List (Occasion HttpReply HookCall)}
    (hturns : 4 * job.dispatcher.maxAttempts.toNat + 1 < later.countP (isTurnOf i)) :
    let es := performedBy i (runOf settings (before ++ later))
    ∃ record, (endOf settings (before ++ later)).1[i]? = some (.pure record) ∧
      (recordsIn es).getLast? = some record ∧
      (haltedIn es = false →
        (record.status = .success ↔ ∃ reply ∈ repliesIn es, reply.IsOk) ∧
          (record.status ≠ .success → record.status = .failed)) := by
  intro es
  have hi : i < (startedIn (runOf settings before)).length :=
    (List.getElem?_eq_some_iff.mp hjob).1
  have hjob' : (startedIn (runOf settings (before ++ later)))[i]? = some job := by
    rw [runOf, Machine.answers_append, startedIn, List.flatMap_append,
      List.getElem?_append_left (by exact hi)]
    exact hjob
  obtain ⟨program, hprogram, hpath⟩ := path_of_job hjob'
  have hlength := Dispatcher.length_of_path hpath
  rcases ended_or_performed hi later with ⟨q, hq, hended⟩ | hcount
  · obtain rfl : program = q := Option.some.inj (hprogram.symm.trans hq)
    cases program with
    | call op next => exact hended.elim
    | raise e =>
        rcases Dispatcher.raise_of_path hpath with ⟨record, hrecord⟩ | hbig
        · exact absurd hrecord (taken_of_room hroom _ i record)
        · omega
    | pure record =>
        have hstory := Dispatcher.story_of_path hpath
        refine ⟨record, hprogram, hstory.getLast, fun hnever => ?_⟩
        have hunhalted : job.dispatcher.Story job.delivery (repliesIn es) (recordsIn es) false
            (some record) := hnever ▸ hstory
        exact hunhalted.success_iff
  · exfalso
    have hperformed : later.countP (isTurnOf i) ≤
        (performedBy i (runOf settings (before ++ later))).length := hcount
    exact absurd (hperformed.trans hlength) (by omega)

end Runs

section Example

attribute [local instance] relayDigests relayTexts Nfkc.ascii

theorem delivery_ends_relay :
    let es := performedBy 0 (runOf {} (relayCalls ++ List.replicate 18 (.turn ⟨0, ⟨200, none⟩⟩)))
    ∃ record, (endOf {} (relayCalls ++ List.replicate 18 (.turn ⟨0, ⟨200, none⟩⟩))).1[0]? =
        some (.pure record) ∧
      (recordsIn es).getLast? = some record ∧
      (haltedIn es = false →
        (record.status = .success ↔ ∃ reply ∈ repliesIn es, reply.IsOk) ∧
          (record.status ≠ .success → record.status = .failed)) := by
  have hjob : (startedIn (runOf {} relayCalls))[0]? = some relayJob := rfl
  exact delivery_ends (by decide) hjob (by decide) (by decide)

end Example

section Runs

variable [Sha256] [JsonDumps] [Nfkc] {settings : HookSettings}

/-! ## A dispatcher that nobody starts -/

/-- While the manager's dispatcher has not been started, nobody has found it running. -/
theorem not_running (occasions : List (Occasion HttpReply HookCall)) (i : Nat)
    (hnever : .other .start ∉ occasions) :
    ⟨.isRunning 0, true⟩ ∉ performedBy i (runOf settings occasions) := by
  have hall := tracks_of_hooks settings (I := fun past _ w =>
    .other .start ∉ past.map Prod.fst →
      w.running 0 = false ∧ ⟨.isRunning 0, true⟩ ∉ performedBy i past) ?_ ?_ ?_ ?_ occasions
  · refine (hall ?_).2
    rw [runOf, Machine.fst_answers]
    exact hnever
  · simp [performedBy]
  · intro past pool w call h hstart
    simp only [List.map_append, List.mem_append, not_or] at hstart
    obtain ⟨hdown, hnobody⟩ := h hstart.1
    refine ⟨?_, by simpa [performedBy_concat, eventOf] using hnobody⟩
    have heffect := handleCall_effect settings call pool w
    generalize handleCall settings call (pool, w) = out at heffect
    cases heffect with
    | began => simp at hstart
    | halted => simp
    | alerted => simpa using hdown
    | gathered => simpa using hdown
    | nothing => exact hdown
    | registered => exact hdown
    | deregistered => exact hdown
    | emitted => exact hdown
    | unheard => exact hdown
  · intro past pool w t op next h hcall hstart
    simp only [List.map_append, List.mem_append, not_or] at hstart
    obtain ⟨hdown, hnobody⟩ := h hstart.1
    rw [performedBy_concat, List.mem_append, not_or]
    cases op with
    | isRunning dispatcher =>
        refine ⟨hdown, hnobody, ?_⟩
        simp only [eventOf]
        split_ifs
        · by_cases hzero : dispatcher = 0
          · subst hzero
            simp [dispatchStep, hdown]
          · simp [Ne.symm hzero]
        · simp
    | send request =>
        refine ⟨hdown, hnobody, ?_⟩
        simp only [eventOf]
        split_ifs <;> simp
    | sleep delay =>
        refine ⟨hdown, hnobody, ?_⟩
        simp only [eventOf]
        split_ifs <;> simp
    | record record =>
        refine ⟨?_, hnobody, ?_⟩
        · simp only [dispatchStep, HookManager.recordDelivery]
          split_ifs <;> exact hdown
        · simp only [eventOf]
          split_ifs <;> simp
  · intro past pool w t h hstart
    simp only [List.map_append, List.mem_append, not_or] at hstart
    simpa [performedBy_concat, eventOf] using h hstart.1

/-- An event that is emitted through a dispatcher that was never started reaches nobody:
nothing is sent, and what is recorded of a delivery is that it was stopped. -/
theorem never_started {occasions : List (Occasion HttpReply HookCall)}
    (hnever : .other .start ∉ occasions) {i : Nat} {job : HookJob}
    (hjob : (startedIn (runOf settings occasions))[i]? = some job)
    (hshared : job.dispatcher.serial = 0) (hattempts : 0 ≤ job.dispatcher.maxRetries) :
    repliesIn (performedBy i (runOf settings occasions)) = [] ∧
      ∀ record, (endOf settings occasions).1[i]? = some (.pure record) →
        record = job.dispatcher.stoppedRecord job.delivery 1 := by
  obtain ⟨program, hprogram, hpath⟩ := path_of_job hjob
  have hnone : repliesIn (performedBy i (runOf settings occasions)) = [] := by
    apply Dispatcher.nothing_sent hpath
    rw [hshared]
    exact not_running occasions i hnever
  refine ⟨hnone, fun record hrecord => ?_⟩
  obtain rfl : program = .pure record := Option.some.inj (hprogram.symm.trans hrecord)
  have hstory := Dispatcher.story_of_path hpath
  rw [hnone] at hstory
  rcases hstory.of_no_replies with hstopped | ⟨hzero, -⟩
  · exact hstopped
  · unfold Dispatcher.maxAttempts at hzero
    omega

end Runs

section Example

attribute [local instance] relayDigests relayTexts Nfkc.ascii

/-- An event that the manager emits. -/
def emittedRun : List (Occasion HttpReply HookCall) :=
  [.other (.register "hook_1" "http://relay:8080/alert" [.taskFailed] ""),
    .other (.emit .taskFailed (.obj []) "2026-03-01 09:00:00+00:00" fun _ => "deliv_1"),
    .turn ⟨0, ⟨200, none⟩⟩, .turn ⟨0, ⟨200, none⟩⟩]

theorem never_started_emitted :
    ∃ job : HookJob, (startedIn (runOf {} emittedRun))[0]? = some job ∧
      repliesIn (performedBy 0 (runOf {} emittedRun)) = [] ∧
      ∀ record, (endOf {} emittedRun).1[0]? = some (.pure record) →
        record = job.dispatcher.stoppedRecord job.delivery 1 :=
  ⟨_, rfl, never_started (by simp [emittedRun]) rfl rfl (by decide)⟩

end Example

section Runs

variable [Sha256] [JsonDumps] [Nfkc] {settings : HookSettings}

/-! ## What is sent, and how it is signed -/

theorem startedIn_turn (occasions : List (Occasion HttpReply HookCall)) (t : Turn HttpReply) :
    startedIn (runOf settings (occasions ++ [.turn t])) = startedIn (runOf settings occasions) := by
  rw [runOf, Machine.answers_concat, startedIn_concat, hooks, startedBy_turn, List.append_nil]
  rfl

variable (settings) in
/-- The call that follows `past` in a run began the delivery at a position. -/
def BegunAt (occasions past : List (Occasion HttpReply HookCall)) (call : HookCall) (i : Nat) :
    Prop :=
  past ++ [.other call] <+: occasions ∧
    (startedIn (runOf settings past)).length ≤ i ∧
      i < (startedIn (runOf settings (past ++ [.other call]))).length

/-- Every delivery is of what the call that began it announced, for a hook that stood at
that call. -/
theorem addressed {occasions : List (Occasion HttpReply HookCall)} {i : Nat} {job : HookJob}
    (hjob : (startedIn (runOf settings occasions))[i]? = some job) :
    ∃ past call hook, BegunAt settings occasions past call i ∧
      announced call = some job.delivery.payload ∧ Standing hook (runOf settings past) ∧
        job.delivery.payload.eventType ∈ hook.events ∧
          addressee job = (hook.id, hook.url, hook.secret) := by
  induction occasions using List.reverseRecOn with
  | nil => simp [runOf, Machine.answers, startedIn] at hjob
  | append_singleton occasions occasion ih =>
      have hlater : ∀ {past call}, BegunAt settings occasions past call i →
          BegunAt settings (occasions ++ [occasion]) past call i :=
        fun h => ⟨h.1.trans (List.prefix_append _ _), h.2⟩
      cases occasion with
      | turn t =>
          rw [startedIn_turn] at hjob
          obtain ⟨past, call, hook, hbegun, hhook⟩ := ih hjob
          exact ⟨past, call, hook, hlater hbegun, hhook⟩
      | other call =>
          by_cases hold : i < (startedIn (runOf settings occasions)).length
          · rw [startedIn_call, List.getElem?_append_left hold] at hjob
            obtain ⟨past, call, hook, hbegun, hhook⟩ := ih hjob
            exact ⟨past, call, hook, hlater hbegun, hhook⟩
          · have hlast : BegunAt settings (occasions ++ [.other call]) occasions call i :=
              ⟨List.prefix_rfl, Nat.le_of_not_lt hold, (List.getElem?_eq_some_iff.mp hjob).1⟩
            rw [startedIn_call, List.getElem?_append_right (Nat.le_of_not_lt hold)] at hjob
            have hnew := List.mem_of_getElem? hjob
            have hfan := begun_of_call settings occasions call
            cases hannounced : announced call with
            | none =>
                rw [hannounced] at hfan
                rw [hfan] at hnew
                cases hnew
            | some payload =>
                rw [hannounced] at hfan
                obtain ⟨hpayload, hooks, -, hmem, hsame⟩ := hfan
                obtain rfl := hpayload job hnew
                have haddressee := List.mem_map_of_mem (f := addressee) hnew
                rw [hsame] at haddressee
                obtain ⟨hook, hhook, heq⟩ := List.mem_map.mp haddressee
                obtain ⟨hstanding, hwants⟩ := (hmem hook).mp hhook
                exact ⟨occasions, call, hook, hlast, hannounced, hstanding, hwants, heq.symm⟩

end Runs

section Example

attribute [local instance] relayDigests relayTexts Nfkc.ascii

end Example

end HookRuns

end HermesCluster
