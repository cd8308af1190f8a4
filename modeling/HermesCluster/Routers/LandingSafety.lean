import HermesCluster.Routers.Runs
/-!
# The landing gate over runs

`core/landing_gate.py` promises that every promotion boundary asks
`hold_reason`, and that the operator's advance is the only ungated path. Asked
it is by `trigger_pending_tasks` and by `_trigger_downstream`. This module says
what the other paths to ready must be given for the promise to hold.
-/

namespace HermesCluster

open Program hiding pure bind

section Step

variable [Unicode]

/-- A landing that becomes ready passes the gate on the board it was held on. -/
def GateKept (b b' : Board) : Prop :=
  ∀ t' ∈ b'.tasks.rows, LandingGate.IsLanding t' → t'.status = .ready →
    (∀ t, b.tasks.get? t'.id = some t → t.status ≠ .ready) →
    LandingGate.holdReason b.tasks.rows t' = none

omit [Unicode] in
/-- The rows, up to their time stamps, that a creation may leave ready: a new row
of the in-memory batch, a row a SQL store inserts, and a pending one it finds
under the id of a plan without dependencies. -/
inductive Admits (k : Backend) (b : Board) (plans : List TaskPlan) : Task → Prop
  | published {plan} (hmemory : k = .memory) (hplan : plan ∈ plans) (hdeps : plan.dependsOn = [])
      (hnew : ∀ t, b.tasks.get? plan.taskId = some t → t.status ≠ .ready) :
      Admits k b plans (plan.toTask 0 .ready)
  | inserted {plan plan'} (hsql : k ≠ .memory) (hplan : plan ∈ plans) (hplan' : plan' ∈ plans)
      (hid : plan.taskId = plan'.taskId) (hdeps : plan'.dependsOn = [])
      (hnew : b.tasks.get? plan.taskId = none) : Admits k b plans (plan.toTask 0 .ready)
  | found {plan t} (hsql : k ≠ .memory) (hplan : plan ∈ plans) (hdeps : plan.dependsOn = [])
      (hget : b.tasks.get? plan.taskId = some t) (hpending : t.status = .pending) :
      Admits k b plans t

/-- What keeps the landing gate, of one operation: every row it may put to ready
without asking passes the gate. -/
def GateSafe (k : Backend) (now : Nat) (b : Board) (op : StoreOp) : Prop :=
  (∀ t ∈ b.tasks.rows, t.status ≠ .ready → Reopens k now b op t →
      LandingGate.holdReason b.tasks.rows t = none) ∧
    match op with
    | .createTask plan => k ≠ .memory →
        ∀ t, Admits k b [plan] t → LandingGate.holdReason b.tasks.rows t = none
    | .createTasksBatch plans =>
        ∀ t, Admits k b plans t → LandingGate.holdReason b.tasks.rows t = none
    | .handleSyncMessage msg =>
        ∀ ts, msg.taskState = some ts → TaskStatus.ofValue ts.status = some .ready →
          (∀ t, b.tasks.get? ts.taskId = some t → t.status ≠ .ready →
            LandingGate.holdReason b.tasks.rows t = none) ∧
          (b.tasks.get? ts.taskId = none →
            LandingGate.holdReason b.tasks.rows (ts.toTask 0 .ready) = none)
    | _ => True

variable {k : Backend} {now : Nat} {b : Board} {op : StoreOp}

/-- A row that becomes ready. -/
theorem holdReason_of_change {t t' : Task} (hop : GateSafe k now b op)
    (hget : b.tasks.get? t.id = some t) (hchange : Change k now b op t t')
    (hready : t'.status = .ready) (hbefore : t.status ≠ .ready) :
    LandingGate.holdReason b.tasks.rows t' = none := by
  have ht : t ∈ b.tasks.rows := Table.mem_of_get? hget
  cases hchange with
  | @status _ status _ _ hid hguard =>
      cases (show status = .ready from hready)
      exact LandingGate.passes_congr rfl rfl rfl (hop.1 t ht hbefore ⟨rfl, hid, hguard⟩)
  | unassign hid hopen hfree =>
      exact LandingGate.passes_congr rfl rfl rfl (hop.1 t ht hbefore ⟨hid, hopen, hfree⟩)
  | resume hid hblocked =>
      exact LandingGate.passes_congr rfl rfl rfl (hop.1 t ht hbefore ⟨hid, hblocked⟩)
  | requeue hid hopen hcap =>
      exact LandingGate.passes_congr rfl rfl rfl (hop.1 t ht hbefore ⟨hid, hopen, hcap⟩)
  | promote _ _ hgate => exact LandingGate.passes_congr rfl rfl rfl hgate
  | @sync _ ts status _ _ hts hid hstatus _ =>
      cases (show status = .ready from hready)
      exact LandingGate.passes_congr rfl rfl rfl ((hop.2 ts hts hstatus).1 t (hid ▸ hget) hbefore)
  | @overwrite _ ts status _ _ hts hid hstatus =>
      cases (show status = .ready from hready)
      exact LandingGate.passes_congr rfl rfl rfl ((hop.2 ts hts hstatus).1 t (hid ▸ hget) hbefore)
  | replace => simp [TaskPlan.toTask] at hready
  | @replaceBatch _ plan _ hmemory hplan hid =>
      by_cases hdeps : plan.dependsOn = []
      · refine LandingGate.passes_congr rfl rfl rfl
          (hop.2 (plan.toTask 0 .ready) (.published hmemory hplan hdeps ?_))
        intro u hu
        rw [← hid, hget] at hu
        cases hu
        exact hbefore
      · simp [ClusterState.batchTask, TaskPlan.toTask, hdeps] at hready
  | promoteRow hsql hid hdeps hpending =>
      exact LandingGate.passes_congr rfl rfl rfl (hop.2 hsql t
        (.found hsql (List.mem_singleton_self _) hdeps (hid ▸ hget) hpending))
  | promoteBatch hsql hplan hid hdeps hpending =>
      exact LandingGate.passes_congr rfl rfl rfl
        (hop.2 t (.found hsql hplan hdeps (hid ▸ hget) hpending))
  | hold hpending => simp [Task.hold, hpending] at hready
  | unblock => simp [Task.unblockTo] at hready
  | demote => cases hready
  | assign => simp [Task.assignTo] at hready
  | result | ballot | cancelRequeue | dependencies | writeRow => exact absurd hready hbefore

/-- A new row that is ready. -/
theorem holdReason_of_created {t : Task} (hop : GateSafe k now b op)
    (hnone : b.tasks.get? t.id = none) (hcreated : Created k now op t)
    (hready : t.status = .ready) : LandingGate.holdReason b.tasks.rows t = none := by
  cases hcreated with
  | pending | batchPending => simp [TaskPlan.toTask] at hready
  | promoted hsql hdeps =>
      exact LandingGate.passes_congr rfl rfl rfl (hop.2 hsql (TaskPlan.toTask _ 0 .ready)
        (.inserted hsql (List.mem_singleton_self _) (List.mem_singleton_self _) rfl hdeps hnone))
  | @batch _ plan hmemory hplan =>
      by_cases hdeps : plan.dependsOn = []
      · refine LandingGate.passes_congr rfl rfl rfl
          (hop.2 (plan.toTask 0 .ready) (.published hmemory hplan hdeps ?_))
        intro u hu
        have hsome : b.tasks.get? plan.taskId = none := hnone
        rw [hsome] at hu
        cases hu
      · simp [ClusterState.batchTask, TaskPlan.toTask, hdeps] at hready
  | batchPromoted hsql hplan hplan' hid hdeps =>
      exact LandingGate.passes_congr rfl rfl rfl (hop.2 (TaskPlan.toTask _ 0 .ready)
        (.inserted hsql hplan hplan' hid hdeps hnone))
  | @synced _ ts status hts hstatus =>
      cases (show status = .ready from hready)
      have hvalue : TaskStatus.ofValue ts.status = some .ready := by
        cases hvalue : TaskStatus.ofValue ts.status with
        | none =>
            rw [hvalue] at hstatus
            cases hstatus
        | some value =>
            rw [hvalue, Option.getD_some] at hstatus
            rw [hstatus]
      have hheld := (hop.2 ts hts hvalue).2 hnone
      refine LandingGate.passes_congr ?_ ?_ ?_ hheld
      · rfl
      · rfl
      · rfl

theorem gateKept_step (k : Backend) (now : Nat) (op : StoreOp) (s : k.Store)
    (hop : GateSafe k now (k.board s) op) :
    GateKept (k.board s) (k.board (k.step now op s).2) := by
  intro t' ht' _ hready hbefore
  rcases (k.evolves now op s).of_get? (fun _ _ h => Rewrites.id_eq h) (Table.get?_of_mem ht') with
    ⟨t, hget, rfl | hchange⟩ | ⟨hnone, hcreated⟩
  · exact absurd hready (hbefore _ hget)
  · have hid : t.id = t'.id := hchange.id_eq.symm
    exact holdReason_of_change hop (hid.symm ▸ hget) hchange hready (hbefore t hget)
  · exact holdReason_of_created hop hnone hcreated hready

end Step

/-! ## Runs of calls and operations -/

/-- What happens to a store: a call, or an operation by itself. -/
inductive Event where
  | call (c : Call)
  | operation (op : StoreOp)

/-- An event with the readings the clock gives to its operations. -/
structure TimedEvent where
  event : Event
  clock : Nat → Nat

def TimedEvent.enter {σ : Type} (e : TimedEvent) (w : Timed σ) : Timed σ :=
  { w with clock := e.clock }

section Runs

variable [Unicode]

def Event.prog : Event → Api Unit
  | .call c => c.prog
  | .operation op => store op >>= fun _ => pure ()

/-- The store after some events, each run to its end. -/
def Backend.runEvents (k : Backend) : List TimedEvent → Timed k.Store → Timed k.Store :=
  Program.runAll k.tick TimedEvent.enter (fun e => e.event.prog)

/-- `P` holds of every operation of some events. -/
def Backend.AlongEvents (k : Backend) (P : Timed k.Store → StoreOp → Timed k.Store → Prop) :
    List TimedEvent → Timed k.Store → Prop :=
  Program.AlongAll k.tick TimedEvent.enter P (fun e => e.event.prog)

/-- What a call needs of the board it begins on: every task it resumes, and
every row it creates as ready, passes the gate. An advance is let through. -/
def LandingSafe (k : Backend) (c : Call) (w : Timed Board) : Prop :=
  (∀ t ∈ w.state.tasks.rows, c.Resumes w t → (k = .memory → ¬t.status.IsTerminal) →
      LandingGate.holdReason w.state.tasks.rows t = none) ∧
    match c with
    | .submit taskId req => k ≠ .memory →
        ∀ t, Admits k w.state [Tasks.submitPlan taskId req] t →
          LandingGate.holdReason w.state.tasks.rows t = none
    | .createBatch plans =>
        ∀ t, Admits k w.state plans t → LandingGate.holdReason w.state.tasks.rows t = none
    | .advance _ => False
    | _ => True

/-- What an event needs of the store it begins on. -/
def Backend.EventSafe (k : Backend) (e : Event) (w : Timed k.Store) : Prop :=
  match e with
  | .call c => k.Meets (LandingSafe k) c w
  | .operation op => GateSafe k (w.clock 0) (k.board w.state) op

/-- Every event of a run is safe where it begins. -/
def Backend.EventsSafe (k : Backend) : List TimedEvent → Timed k.Store → Prop :=
  Program.CallsMeet k.tick TimedEvent.enter (fun e => e.event.prog)
    (fun e => k.EventSafe e.event)

variable {k : Backend}

theorem Issued.gateSafe {c : Call} {w₀ : Timed Board} {b : Board} {op : StoreOp} {now : Nat}
    (h : Issued c w₀ b op) (hnow : ∃ i, now = w₀.clock i) (hsafe : LandingSafe k c w₀) :
    GateSafe k now b op := by
  refine ⟨fun t ht _ hreopens => ?_, ?_⟩
  · cases h.reopening hnow ht hreopens with
    | promotes _ _ hgate => exact hgate
    | advances hc _ =>
        subst hc
        exact hsafe.2.elim
    | @resumes t₀ hquiet hget hrow hguard hresumes =>
        have hnone := hsafe.1 t₀ (Table.mem_of_get? hget) hresumes hguard
        rw [LandingGate.holdReason_congr hquiet.gateSame hrow.gate.id hrow.gate.title
          hrow.gate.laneKey, hnone]
  · cases h with
    | idle hidle => cases op <;> first | exact hidle.elim | trivial
    | submit hc hb =>
        subst hc hb
        exact hsafe.2
    | batch hc hb =>
        subst hc hb
        exact hsafe.2
    | _ => trivial

theorem gateSafe_of_idle {now : Nat} {b : Board} {op : StoreOp} (hidle : Idle op) :
    GateSafe k now b op := by
  refine ⟨fun t _ _ hreopens => ?_, ?_⟩
  · cases op <;> first | exact hidle.elim | exact hreopens.elim
  · cases op <;> first | exact hidle.elim | trivial

/-- Through any run of safe calls and operations, a landing becomes ready only
when the gate finds no reason to hold it. -/
theorem gateKept_of_events (k : Backend) (es : List TimedEvent) (w : Timed k.Store)
    (hsafe : k.EventsSafe es w) :
    k.AlongEvents (fun w _ w' => GateKept (k.board w.state) (k.board w'.state)) es w := by
  have hstep : ∀ (w : Timed k.Store) op, GateSafe k (w.clock 0) (k.board w.state) op →
      GateKept (k.board w.state) (k.board (k.tick op w).2.state) :=
    fun w op hop => gateKept_step k (w.clock 0) op w.state hop
  refine (alongAll_of_calls (I := fun _ => True) (fun _ _ _ => trivial)
    (fun e w _ hsafe => ?_) trivial hsafe).1
  obtain ⟨event, clock⟩ := e
  cases event with
  | operation op => exact keeps_perform (hstep w op hsafe) (keeps_pure trivial)
  | call c =>
      refine Backend.keeps_call (LandingSafe k) ?_ ?_ c w trivial hsafe
      · exact fun w op hidle _ => ⟨hstep w op (gateSafe_of_idle hidle), trivial⟩
      · rintro c w₀ w op hsafe ⟨j, hj⟩ _ hissued
        exact ⟨hstep w op (hissued.gateSafe ⟨0 + j, hj 0⟩ hsafe), trivial⟩

end Runs

section Example

local instance asciiLandings : Unicode := Unicode.ascii

/-- A store with one reviewer round, which passed `r!1` at a head. -/
def reviewedStore : ClusterStore where
  tasks := ⟨[{ id := "v", title := "review", role := "reviewer", laneKey := "r!1",
               status := .completed, result := some "Verdict: PASS, SHA: abc1234",
               createdAt := 1, updatedAt := 2 }], by decide⟩

/-- A landing of `r!1` at the head that was passed. -/
def landingPlan : TaskPlan where
  taskId := "l"
  title := "merge abc1234"
  laneKey := "r#land-1"

/-- The landing is created, and a pass is run. -/
def landed : List TimedEvent :=
  [⟨.operation (.createTask landingPlan), fun _ => 3⟩, ⟨.call .schedulePass, fun _ => 4⟩]

theorem gateKept_of_events_landed :
    (Backend.sql .sqlite).AlongEvents (fun w _ w' => GateKept
      ((Backend.sql .sqlite).board w.state) ((Backend.sql .sqlite).board w'.state))
      landed ⟨reviewedStore, fun _ => 0⟩ := by
  have hcreate : GateSafe (.sql .sqlite) 3 ((Backend.sql .sqlite).board reviewedStore)
      (.createTask landingPlan) := by
    refine ⟨fun _ _ _ hreopens => hreopens.elim, fun _ t hadmits => ?_⟩
    cases hadmits with
    | published hmemory => cases hmemory
    | inserted _ hplan =>
        obtain rfl := List.mem_singleton.mp hplan
        decide
    | found _ hplan _ hget =>
        obtain rfl := List.mem_singleton.mp hplan
        cases hget
  have hpass : ∀ w, (Backend.sql .sqlite).EventSafe (.call .schedulePass) w :=
    fun w => ⟨fun _ _ hresumes => hresumes.mayResume.elim, trivial⟩
  exact gateKept_of_events _ landed _ ⟨hcreate, hpass _, trivial⟩

/-- Without a reviewer round, the landing is created ready all the same. -/
theorem created_landing_ready :
    ¬(Backend.sql .sqlite).AlongEvents (fun w _ w' => GateKept
      ((Backend.sql .sqlite).board w.state) ((Backend.sql .sqlite).board w'.state))
      [⟨.operation (.createTask landingPlan), fun _ => 3⟩] ⟨ClusterStore.empty, fun _ => 0⟩ := by
  intro hkept
  have hnone := hkept.1.1 ((landingPlan.toTask 3 .pending).promote 3) (by decide) (by decide) rfl
    (fun t ht => by cases ht)
  exact absurd hnone (by decide)

end Example

end HermesCluster
