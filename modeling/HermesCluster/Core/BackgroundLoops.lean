import HermesCluster.Lib.FlagLoop
/-!
# Background loops

`core/metering.py`, `core/release_drift_poller.py` and `core/worker_connector.py`:
how their threads are started and stopped. Calls to a component come one after
another, and the threads go on between them.
-/

namespace HermesCluster

/-! ## The pollers -/

/-- Where a thread of a poller is in `_run`. -/
inductive RunPhase where
  | testing
  | polling
  | waiting
  | ended
  deriving DecidableEq, Repr

/-- `_run`: what `_stop.wait` returns is not looked at, the next test decides. -/
def pollLoopThread : FlagLoop RunPhase where
  first := .testing
  finished := .ended
  next
    | true, .testing => .ended
    | false, .testing => .polling
    | _, .polling => .waiting
    | _, .waiting => .testing
    | _, .ended => .ended
  wake := id
  begins
    | false, .testing => true
    | _, _ => false
  Leaving p := p = .ended
  next_finished flag := by cases flag <;> rfl
  leaving_finished := rfl
  leaving_next flag p h := by
    rw [h]
    cases flag <;> rfl
  leaving_wake _ := id
  not_begins flag p h := by
    rw [h]
    cases flag <;> rfl
  returns p h := by
    cases p with
    | testing => exact ⟨0, rfl⟩
    | waiting => exact ⟨1, rfl⟩
    | polling => exact ⟨2, rfl⟩
    | ended => exact absurd rfl h

/-- The attributes `_stop` and `_thread`, with the threads there are. -/
structure PollerThreads where
  pool : LoopPool RunPhase := {}
  thread : Option Nat := none

namespace PollerThreads

/-- `self._thread and self._thread.is_alive()`. -/
def Running (s : PollerThreads) : Prop :=
  ∃ i ∈ s.thread, ∃ p ∈ s.pool.loops[i]?, p ≠ .ended

instance (s : PollerThreads) : Decidable s.Running :=
  inferInstanceAs (Decidable (∃ i ∈ s.thread, ∃ p ∈ s.pool.loops[i]?, p ≠ .ended))

/-- What happens to a poller: a call, a tick of its supervisor, or a step of a
thread. -/
inductive Act where
  | start
  | ensureStarted (enabled : Bool)
  | stop
  | supervise (enabled : Bool)
  | loop (i : Nat)
  | crash (i : Nat)
  deriving DecidableEq

/-- `start`. -/
def start (s : PollerThreads) : PollerThreads :=
  if s.Running ∧ s.pool.flag = false then s
  else { pool := s.pool.apply pollLoopThread .arm, thread := some s.pool.loops.length }

/-- `stop`. -/
def stop (s : PollerThreads) : PollerThreads :=
  { pool := s.pool.apply pollLoopThread .tell, thread := none }

/-- `ensure_started`. -/
def ensureStarted (enabled : Bool) (s : PollerThreads) : PollerThreads :=
  if enabled = false then s else s.start

/-- One tick of `_supervise`. -/
def supervise (enabled : Bool) (s : PollerThreads) : PollerThreads :=
  if enabled = true ∧ ¬s.Running then s.start
  else if enabled = false ∧ s.Running then s.stop
  else s

def step : Act → PollerThreads → PollerThreads
  | .start, s => s.start
  | .ensureStarted enabled, s => s.ensureStarted enabled
  | .stop, s => s.stop
  | .supervise enabled, s => s.supervise enabled
  | .loop i, s => { s with pool := s.pool.apply pollLoopThread (.advance i) }
  | .crash i, s => { s with pool := s.pool.apply pollLoopThread (.halt i) }

/-- What an act does to the threads. -/
def startOp (s : PollerThreads) : PoolOp :=
  if s.Running ∧ s.pool.flag = false then .idle else .arm

def op : Act → PollerThreads → PoolOp
  | .start, s => s.startOp
  | .ensureStarted enabled, s => if enabled = false then .idle else s.startOp
  | .stop, _ => .tell
  | .supervise enabled, s =>
      if enabled = true ∧ ¬s.Running then s.startOp
      else if enabled = false ∧ s.Running then .tell
      else .idle
  | .loop i, _ => .advance i
  | .crash i, _ => .halt i

/-- A thread that nobody told to stop is the one the poller knows, and the flag
is cleared. -/
def Known (s : PollerThreads) : Prop :=
  ∀ i, s.pool.Active pollLoopThread i → s.thread = some i ∧ s.pool.flag = false

theorem pool_start (s : PollerThreads) :
    s.start.pool = s.pool.apply pollLoopThread s.startOp := by
  unfold start startOp
  split <;> rfl

theorem pool_step (a : Act) (s : PollerThreads) :
    (step a s).pool = s.pool.apply pollLoopThread (op a s) := by
  cases a with
  | start => exact pool_start s
  | ensureStarted enabled =>
      cases enabled with
      | false => rfl
      | true => exact pool_start s
  | supervise enabled =>
      change (s.supervise enabled).pool = _
      unfold supervise
      simp only [op]
      split_ifs
      · exact pool_start s
      · rfl
      · rfl
  | stop | loop i | crash i => rfl

theorem not_active_of_startOp {s : PollerThreads} (h : s.Known) (hop : s.startOp = .arm) (i : Nat) :
    ¬s.pool.Active pollLoopThread i := by
  intro hactive
  obtain ⟨hthread, hflag⟩ := h i hactive
  obtain ⟨-, p, hp, halive⟩ := hactive
  unfold startOp at hop
  rw [if_pos ⟨⟨i, hthread, p, hp, halive⟩, hflag⟩] at hop
  cases hop

theorem lone {a : Act} {s : PollerThreads} (h : s.Known) (hop : op a s = .arm) (i : Nat) :
    ¬s.pool.Active pollLoopThread i := by
  cases a with
  | start => exact not_active_of_startOp h hop i
  | ensureStarted enabled =>
      cases enabled with
      | false => cases hop
      | true => exact not_active_of_startOp h hop i
  | supervise enabled =>
      simp only [op] at hop
      split_ifs at hop
      exact not_active_of_startOp h hop i
  | stop | loop | crash => cases hop

theorem known_start {s : PollerThreads} (h : s.Known) : s.start.Known := by
  by_cases hruns : s.Running ∧ s.pool.flag = false
  · rw [start, if_pos hruns]
    exact h
  · have hop : s.startOp = .arm := if_neg hruns
    rw [start, if_neg hruns]
    intro i hactive
    rcases hactive.of_apply with hbefore | ⟨-, rfl⟩
    · exact absurd hbefore (not_active_of_startOp h hop i)
    · exact ⟨rfl, rfl⟩

theorem known_stop (s : PollerThreads) : s.stop.Known :=
  fun i hactive => absurd hactive (LoopPool.not_active_tell i)

theorem known_step (a : Act) {s : PollerThreads} (h : s.Known) : (step a s).Known := by
  cases a with
  | start => exact known_start h
  | ensureStarted enabled =>
      cases enabled with
      | false => exact h
      | true => exact known_start h
  | stop => exact known_stop s
  | supervise enabled =>
      change (s.supervise enabled).Known
      unfold supervise
      split_ifs
      · exact known_start h
      · exact known_stop s
      · exact h
  | loop j | crash j =>
      intro i hactive
      rcases hactive.of_apply with hbefore | ⟨harm, -⟩
      · exact h i hbefore
      · cases harm

/-- A poller as the owner of its threads. -/
def owner : LoopOwner pollLoopThread PollerThreads Act where
  step := step
  pool := pool
  op := op
  pool_step := pool_step
  loop := .loop
  op_loop _ _ := rfl
  Inv := Known
  inv_step a _ := known_step a
  lone _ _ := lone

end PollerThreads

/-- `MeteringPoller`. -/
def meteringPoller : LoopOwner pollLoopThread PollerThreads PollerThreads.Act :=
  PollerThreads.owner

/-- `ReleaseDriftPoller`, whose four methods are the same. -/
def releaseDriftPoller : LoopOwner pollLoopThread PollerThreads PollerThreads.Act :=
  PollerThreads.owner

/-! ## The worker connector -/

/-- Where a thread of the connector is in `_loop`. -/
inductive BeatPhase where
  | begun
  | beating
  | waiting
  | woken
  | ended
  deriving DecidableEq, Repr

/-- `_loop`: `_beat_wait` tells of a stop that was there when the wait began or
came while it lasted. -/
def connectorLoop : FlagLoop BeatPhase where
  first := .begun
  finished := .ended
  next
    | _, .begun => .beating
    | true, .beating => .ended
    | false, .beating => .waiting
    | _, .waiting => .beating
    | _, .woken => .ended
    | _, .ended => .ended
  wake
    | .waiting => .woken
    | p => p
  begins
    | _, .begun => true
    | _, .waiting => true
    | _, _ => false
  Leaving p := p = .woken ∨ p = .ended
  next_finished flag := by cases flag <;> rfl
  leaving_finished := .inr rfl
  leaving_next flag p h := by
    rcases h with rfl | rfl <;> cases flag <;> exact .inr rfl
  leaving_wake p h := by
    rcases h with rfl | rfl
    · exact .inl rfl
    · exact .inr rfl
  not_begins flag p h := by
    rcases h with rfl | rfl <;> cases flag <;> rfl
  returns p h := by
    cases p with
    | begun => exact ⟨0, rfl⟩
    | waiting => exact ⟨0, rfl⟩
    | beating => exact ⟨1, rfl⟩
    | woken => exact absurd (.inl rfl) h
    | ended => exact absurd (.inr rfl) h

/-- `_connector_stop`, `_connector_started` and `_connector_thread`; `joining` is
set while `stop_worker_connector` waits for the thread. -/
structure ConnectorThreads where
  pool : LoopPool BeatPhase := {}
  started : Bool := false
  thread : Option Nat := none
  joining : Bool := false

namespace ConnectorThreads

/-- `stop_worker_connector` is two acts, between which it waits for the thread
to end or the timeout to pass. -/
inductive Act where
  | start
  | stop
  | joined
  | loop (i : Nat)
  | crash (i : Nat)
  deriving DecidableEq

/-- `start_worker_connector`. -/
def start (s : ConnectorThreads) : ConnectorThreads :=
  if s.started = true ∨ s.joining = true then s
  else { s with
    pool := s.pool.apply connectorLoop .arm
    started := true
    thread := some s.pool.loops.length }

/-- `stop_worker_connector` up to the join. -/
def stop (s : ConnectorThreads) : ConnectorThreads :=
  { s with pool := s.pool.apply connectorLoop .tell, joining := true }

/-- `stop_worker_connector` after the join. -/
def joined (s : ConnectorThreads) : ConnectorThreads :=
  if s.joining = true then { s with started := false, thread := none, joining := false }
  else s

def step : Act → ConnectorThreads → ConnectorThreads
  | .start, s => s.start
  | .stop, s => s.stop
  | .joined, s => s.joined
  | .loop i, s => { s with pool := s.pool.apply connectorLoop (.advance i) }
  | .crash i, s => { s with pool := s.pool.apply connectorLoop (.halt i) }

def op : Act → ConnectorThreads → PoolOp
  | .start, s => if s.started = true ∨ s.joining = true then .idle else .arm
  | .stop, _ => .tell
  | .joined, _ => .idle
  | .loop i, _ => .advance i
  | .crash i, _ => .halt i

/-- While a thread goes on that nobody told to stop, the connector is started
and nobody waits for its end. -/
def Known (s : ConnectorThreads) : Prop :=
  ∀ i, s.pool.Active connectorLoop i → s.started = true ∧ s.joining = false

theorem pool_step (a : Act) (s : ConnectorThreads) :
    (step a s).pool = s.pool.apply connectorLoop (op a s) := by
  cases a with
  | start =>
      change s.start.pool = _
      unfold start
      simp only [op]
      split <;> rfl
  | joined =>
      change s.joined.pool = _
      unfold joined
      split <;> rfl
  | stop | loop i | crash i => rfl

theorem lone {a : Act} {s : ConnectorThreads} (h : s.Known) (hop : op a s = .arm) (i : Nat) :
    ¬s.pool.Active connectorLoop i := by
  intro hactive
  cases a with
  | start =>
      simp only [op] at hop
      rw [if_pos (.inl (h i hactive).1)] at hop
      cases hop
  | stop | joined | loop | crash => cases hop

theorem known_step (a : Act) {s : ConnectorThreads} (h : s.Known) : (step a s).Known := by
  cases a with
  | start =>
      change s.start.Known
      unfold start
      split_ifs with hbusy
      · exact h
      intro i hactive
      exact ⟨rfl, Bool.eq_false_iff.mpr fun hjoining => hbusy (.inr hjoining)⟩
  | stop => exact fun i hactive => absurd hactive (LoopPool.not_active_tell i)
  | joined =>
      change s.joined.Known
      unfold joined
      split_ifs with hjoining
      · intro i hactive
        rw [(h i hactive).2] at hjoining
        cases hjoining
      · exact h
  | loop j | crash j =>
      intro i hactive
      rcases hactive.of_apply with hbefore | ⟨harm, -⟩
      · exact h i hbefore
      · cases harm

end ConnectorThreads

/-- The connector of a worker as the owner of its threads. -/
def workerConnector : LoopOwner connectorLoop ConnectorThreads ConnectorThreads.Act where
  step := ConnectorThreads.step
  pool := ConnectorThreads.pool
  op := ConnectorThreads.op
  pool_step := ConnectorThreads.pool_step
  loop := .loop
  op_loop _ _ := rfl
  Inv := ConnectorThreads.Known
  inv_step a _ := ConnectorThreads.known_step a
  lone _ _ := ConnectorThreads.lone

/-! ## One loop -/

theorem left_of_no_loops {P : Type} {prog : FlagLoop P} (n : Nat) :
    LoopPool.Left prog n {} :=
  fun _ _ _ hp => by cases hp

theorem sound_of_no_loops {P σ α : Type} {prog : FlagLoop P} {o : LoopOwner prog σ α} {s : σ}
    (hinv : o.Inv s) (hpool : o.pool s = {}) : o.Sound s where
  inv := hinv
  counted := hpool ▸ ⟨Nat.le_refl _, Nat.le_refl _⟩
  one := by
    rw [hpool]
    rintro i j ⟨-, p, hp, -⟩ -
    cases hp

/-- In a run of a poller or of the connector from its beginning, a loop is only
begun when every loop told to stop is leaving, exactly if, whenever from some
moment on only the loops make steps, none comes back that was told to stop
before a later one began, and at most one goes on. -/
theorem oneLoop_each (acts : List PollerThreads.Act) (connectorActs : List ConnectorThreads.Act) :
    (meteringPoller.machine.Meets meteringPoller.InTurn acts {} ↔
      ∀ (before : List PollerThreads.Act) (loops : List Nat), before <+: acts →
        meteringPoller.machine.Meets meteringPoller.OneLoop
          (before ++ loops.map .loop) {}) ∧
    (releaseDriftPoller.machine.Meets releaseDriftPoller.InTurn acts {} ↔
      ∀ (before : List PollerThreads.Act) (loops : List Nat), before <+: acts →
        releaseDriftPoller.machine.Meets releaseDriftPoller.OneLoop
          (before ++ loops.map .loop) {}) ∧
    (workerConnector.machine.Meets workerConnector.InTurn connectorActs {} ↔
      ∀ (before : List ConnectorThreads.Act) (loops : List Nat), before <+: connectorActs →
        workerConnector.machine.Meets workerConnector.OneLoop
          (before ++ loops.map .loop) {}) := by
  have hpoller : PollerThreads.owner.Sound {} :=
    sound_of_no_loops (by rintro i ⟨-, p, hp, -⟩; cases hp) rfl
  have hconnector : workerConnector.Sound {} :=
    sound_of_no_loops (by rintro i ⟨-, p, hp, -⟩; cases hp) rfl
  refine ⟨?_, ?_, ?_⟩
  · exact LoopOwner.inTurn_iff hpoller (left_of_no_loops _)
  · exact LoopOwner.inTurn_iff hpoller (left_of_no_loops _)
  · exact LoopOwner.inTurn_iff hconnector (left_of_no_loops _)

/-- A stop and a start while a cycle runs: the old loop goes on beside the new. -/
theorem stopped_loop_comes_back :
    (¬meteringPoller.machine.Meets meteringPoller.OneLoop
      [.start, .loop 0, .stop, .start, .loop 0, .loop 0, .loop 0] {}) ∧
    (¬releaseDriftPoller.machine.Meets releaseDriftPoller.OneLoop
      [.start, .loop 0, .supervise false, .supervise true, .loop 0, .loop 0, .loop 0] {}) ∧
    ¬workerConnector.machine.Meets workerConnector.OneLoop
      [.start, .loop 0, .stop, .joined, .start, .loop 0, .loop 0] {} := by
  refine ⟨fun h => ?_, fun h => ?_, fun h => ?_⟩
  · exact h.2.2.2.2.2.2.1.1 ⟨by decide, .testing, rfl, rfl⟩
  · exact h.2.2.2.2.2.2.1.1 ⟨by decide, .testing, rfl, rfl⟩
  · exact h.2.2.2.2.2.2.1.1 ⟨by decide, .waiting, rfl, rfl⟩

end HermesCluster
