import HermesCluster.Core.ReportDelivery
import HermesCluster.Lease.LeaseRows
import HermesCluster.Recovery.Isolation
/-!
# Lease renewal

An executor and main's store, with everything that may happen between two
renewal requests: operations on main by anyone, TTL sweeps, and what the
executor does to the tasks it holds. A renewal cycle is a snapshot of the live
spawns, then one request for each. `extend` answers with a new lease and revokes
the one it was asked for, while the executor keeps the id it found at the spawn.
-/

namespace HermesCluster

open Program hiding pure bind
open AgentExecutor

/-! ## Requests about leases -/

section Serve

variable [Unicode]

/-- Main answers the executor's requests about leases, if they reach it; `node`
is what anyone else answers. -/
def serve (k : Backend) (now : Nat) (node : (op : ExecOp) → op.Res) (reaches : Bool) :
    (op : ExecOp) → k.Store → op.Res × k.Store
  | .extendLease leaseId, s =>
      if reaches = true then
        let r := (LeaseManager.extend leaseId).run k.tick ⟨s, fun _ => now⟩
        (match r.1 with | .ok (some _) => true | _ => false, r.2.state)
      else (false, s)
  | .getLeases, s =>
      if reaches = true then
        let r := LeaseManager.listActive.run k.tick ⟨s, fun _ => now⟩
        (match r.1 with | .ok leases => some leases | .error _ => none, r.2.state)
      else (none, s)
  | op, s => (node op, s)

/-- A method of the executor, run to its end. -/
def Exec.result {α σ : Type} (step : (op : ExecOp) → σ → op.Res × σ) (p : Exec α) (s : σ) :
    α × σ :=
  match p.run step s with
  | (.ok a, s') => (a, s')

omit [Unicode] in
theorem Exec.result_ask {α σ : Type} {step : (op : ExecOp) → σ → op.Res × σ} {op : ExecOp}
    {f : op.Res → Exec α} {s : σ} :
    Exec.result step (ask op >>= f) s = Exec.result step (f (step op s).1) (step op s).2 := rfl

end Serve

/-! ## The system -/

/-- Main's store and an executor. Of the renewal cycles: when the last one that
was completed began, when the current one began, and the spawns it has still to
renew. -/
structure Fleet (k : Backend) where
  main : k.Store
  executor : Executor
  now : Nat
  lastCycle : Nat
  cycleStart : Nat
  pending : List ActiveSpawn

/-- What can happen. `track` is the end of a spawn, `reattach` a record read
back, `reap` the end of a worker. -/
inductive FleetStep where
  | main (op : StoreOp)
  | sweep (order : Recovery.SetOrder)
  | beginCycle
  | renew (reaches : Bool)
  | track (spawn : ActiveSpawn) (reaches : Bool)
  | reattach (record : SpawnRecord)
  | queue (laneKey : String) (task : Task) (attempts : Nat)
  | reap (taskId : String)

namespace Fleet

variable {k : Backend}

/-- Main's store, and an executor that has just started. -/
def init (main : k.Store) (executor : Executor) (now : Nat) : Fleet k where
  main := main
  executor := executor
  now := now
  lastCycle := now
  cycleStart := now
  pending := []

/-- A cycle is completed when no spawn is left to renew. -/
def closeCycle (s : Fleet k) : Fleet k :=
  if s.pending = [] then { s with lastCycle := s.cycleStart } else s

/-- The task has a live spawn on the executor or waits in one of its queues. -/
def Holds (s : Fleet k) (id : String) : Prop :=
  s.executor.Runs id ∨ s.executor.Waits id

section Step

variable [Unicode]

/-- What happens at the time `now`. -/
def step (node : (op : ExecOp) → op.Res) (now : Nat) (s : Fleet k) : FleetStep → Fleet k
  | .main op => { s with now := now, main := (k.step now op s.main).2 }
  | .sweep order =>
      { s with
        now := now
        main := ((Recovery.detectExpiredLeases order).run k.tick ⟨s.main, fun _ => now⟩).2.state }
  | .beginCycle =>
      closeCycle { s with
        now := now, cycleStart := now, pending := s.executor.activeSpawns.rows }
  | .renew reaches =>
      match s.pending with
      | [] => { s with now := now }
      | spawn :: pending =>
          let r := Exec.result (serve k now node reaches) (renewLease spawn) s.main
          closeCycle { s with now := now, main := r.2, pending := pending }
  | .track spawn reaches =>
      let r := Exec.result (serve k now node reaches) (AgentExecutor.track spawn s.executor) s.main
      { s with now := now, executor := r.1, main := r.2 }
  | .reattach record => { s with now := now, executor := reattachRecord s.executor record }
  | .queue laneKey task attempts =>
      let r := Exec.result (serve k now node true)
        (queueForLane laneKey task attempts s.executor) s.main
      { s with now := now, executor := r.1.2, main := r.2 }
  | .reap taskId =>
      { s with
        now := now
        executor := { s.executor with activeSpawns := s.executor.activeSpawns.erase taskId } }

/-- The state after some steps, each with its time. -/
def run (node : (op : ExecOp) → op.Res) : List (Nat × FleetStep) → Fleet k → Fleet k
  | [], s => s
  | (now, st) :: rest, s => run node rest (s.step node now st)

/-- Every step meets a condition on the state it is taken in. -/
def Meets (node : (op : ExecOp) → op.Res) (cond : Nat → Fleet k → FleetStep → Prop) :
    List (Nat × FleetStep) → Fleet k → Prop
  | [], _ => True
  | (now, st) :: rest, s => cond now s st ∧ Meets node cond rest (s.step node now st)

end Step

end Fleet

/-! ## What a request does -/

/-- The lease is one of the task, for the executor's node. -/
structure ForTask (e : Executor) (id : String) (l : Lease) : Prop where
  taskId : l.taskId = id
  node : leaseNodeMatches e l.nodeId = true

theorem ForTask.of_same {e : Executor} {id : String} {l l' : Lease} (h : ForTask e id l)
    (hsame : SameLease l l') : ForTask e id l' :=
  ⟨hsame.taskId.trans h.taskId, hsame.nodeId ▸ h.node⟩

theorem ForTask.of_nodeId {e e' : Executor} {id : String} {l : Lease} (h : ForTask e id l)
    (hnode : e'.nodeId = e.nodeId) : ForTask e' id l := by
  refine ⟨h.taskId, ?_⟩
  have hmatches := h.node
  unfold leaseNodeMatches at hmatches ⊢
  rwa [hnode]

section Requests

variable [Unicode] {k : Backend} {now : Nat} {node : (op : ExecOp) → op.Res} {reaches : Bool}
  {s : k.Store}

/-- `extend` on an id that is not among the active leases … -/
theorem run_extend_none {leaseId : Nat} (h : (k.step now .getActiveLeases s).1.find?
      (fun l => decide (l.id = leaseId)) = none) :
    (LeaseManager.extend leaseId).run k.tick ⟨s, fun _ => now⟩ =
      (.ok none, ⟨(k.step now .getActiveLeases s).2, fun _ => now⟩) := by
  rw [LeaseManager.extend_eq]
  refine (congrArg (fun lease? => (LeaseManager.extendFrom leaseId lease?).run k.tick _) h).trans ?_
  rfl

/-- … and on one that is. -/
theorem run_extend_some {leaseId : Nat} {lease : Lease}
    (h : (k.step now .getActiveLeases s).1.find? (fun l => decide (l.id = leaseId)) =
      some lease) :
    let r := k.step now (.createLease lease.taskId lease.nodeId leaseTtl)
      (k.step now .getActiveLeases s).2
    (LeaseManager.extend leaseId).run k.tick ⟨s, fun _ => now⟩ =
      (.ok (some r.1), ⟨(k.step now (.revokeLease leaseId) r.2).2, fun _ => now⟩) := by
  intro r
  rw [LeaseManager.extend_eq]
  refine (congrArg (fun lease? => (LeaseManager.extendFrom leaseId lease?).run k.tick _) h).trans ?_
  rfl

/-- An extension, whether it succeeds or not, keeps the other leases that have
not lapsed. If it succeeds, the lease was live and is now revoked, and its task
has a new one for the same node. -/
theorem extendLease_cases (k : Backend) (now : Nat) (node : (op : ExecOp) → op.Res)
    (reaches : Bool) (leaseId : Nat) (s : k.Store) :
    let r := serve k now node reaches (.extendLease leaseId) s
    (∀ l ∈ (k.board s).leases.rows, ¬l.IsLapsed now → l.id ≠ leaseId →
        l ∈ (k.board r.2).leases.rows) ∧
      (r.1 = true → RevokedIn (k.board r.2) leaseId ∧
        ∃ l ∈ (k.board s).leases.rows, l.id = leaseId ∧ l.IsLive now ∧
          ∃ l' ∈ (k.board r.2).leases.rows, l'.taskId = l.taskId ∧ l'.nodeId = l.nodeId ∧
            l'.status = .active ∧ l'.expiresAt = now + leaseTtl) := by
  intro r
  cases reaches with
  | false => exact ⟨fun l hl _ _ => hl, fun h => by cases h⟩
  | true =>
      cases hfound : (k.step now .getActiveLeases s).1.find? (fun l => decide (l.id = leaseId)) with
      | none =>
          have hr : r = (false, (k.step now .getActiveLeases s).2) := by
            simp only [r, serve, run_extend_none hfound, if_true]
          rw [hr]
          exact ⟨fun l hl hlapsed _ => Backend.mem_leases_getActiveLeases hl hlapsed,
            fun h => by cases h⟩
      | some lease =>
          let s₁ := (k.step now .getActiveLeases s).2
          let s₂ := (k.step now (.createLease lease.taskId lease.nodeId leaseTtl) s₁).2
          have hr : r = (true, (k.step now (.revokeLease leaseId) s₂).2) := by
            simp only [r, serve, run_extend_some hfound, if_true, s₂, s₁]
          have hadded : (k.board s₂).leases.rows = (k.board s₁).leases.rows ++
              [newLease now (k.board s₁).leases lease.taskId lease.nodeId leaseTtl] :=
            congrArg Table.rows (k.createLease_step now lease.taskId lease.nodeId leaseTtl s₁)
          have hkept : ∀ l ∈ (k.board s₂).leases.rows, l.id ≠ leaseId →
              l ∈ (k.board (k.step now (.revokeLease leaseId) s₂).2).leases.rows := by
            intro l hl hne
            rw [k.revokeLease_step]
            exact List.mem_map.mpr ⟨l, hl, if_neg hne⟩
          have hlisted := List.mem_of_find?_eq_some hfound
          rw [(k.getActiveLeases_step now s).1] at hlisted
          obtain ⟨hmem, hlive⟩ := List.mem_filter.mp hlisted
          have hsame := List.find?_some hfound
          have hid : lease.id = leaseId := of_decide_eq_true hsame
          have hlive := of_decide_eq_true hlive
          have hmem₁ : lease ∈ (k.board s₁).leases.rows :=
            Backend.mem_leases_getActiveLeases hmem (fun h => Nat.not_lt.mpr h.2 hlive.2)
          rw [hr]
          have hold : ∀ l ∈ (k.board s₁).leases.rows, l ∈ (k.board s₂).leases.rows := by
            intro l hl
            rw [hadded]
            exact List.mem_append_left _ hl
          refine ⟨fun l hl hlapsed hne => hkept l ?_ hne, fun _ => ⟨⟨lease.revoke, ?_, hid, rfl⟩,
            lease, hmem, hid, hlive, ?_⟩⟩
          · exact hold l (Backend.mem_leases_getActiveLeases hl hlapsed)
          · rw [k.revokeLease_step]
            exact List.mem_map.mpr ⟨lease, hold lease hmem₁, if_pos hid⟩
          · -- the new id is above the one that is extended
            have hnew : freshLeaseId (k.board s₁).leases ≠ leaseId :=
              Nat.ne_of_gt (hid ▸ lt_freshLeaseId hmem₁)
            refine ⟨newLease now (k.board s₁).leases lease.taskId lease.nodeId leaseTtl,
              hkept _ ?_ hnew, rfl, rfl, rfl, rfl⟩
            rw [hadded]
            exact List.mem_append_right _ (List.mem_singleton_self _)

/-- No request makes main drop a lease or move it. -/
theorem serve_keepsLeases (k : Backend) (now : Nat) (node : (op : ExecOp) → op.Res)
    (reaches : Bool) (op : ExecOp) (s : k.Store) {l : Lease}
    (hl : l ∈ (k.board s).leases.rows) :
    ∃ l' ∈ (k.board (serve k now node reaches op s).2).leases.rows, SameLease l l' := by
  cases op with
  | extendLease leaseId =>
      cases reaches with
      | false => exact ⟨l, hl, SameLease.refl l⟩
      | true => exact k.exists_sameLease_run (LeaseManager.extend leaseId) ⟨s, fun _ => now⟩ hl
  | getLeases =>
      cases reaches with
      | false => exact ⟨l, hl, SameLease.refl l⟩
      | true => exact k.exists_sameLease_run LeaseManager.listActive ⟨s, fun _ => now⟩ hl
  | _ => exact ⟨l, hl, SameLease.refl l⟩

/-- The leases listed to the executor, if main is reached, are its live ones. -/
theorem getLeases_cases (k : Backend) (now : Nat) (node : (op : ExecOp) → op.Res)
    (reaches : Bool) (s : k.Store) :
    let r := serve k now node reaches .getLeases s
    (r.1 = if reaches = true then
        some ((k.board s).leases.rows.filter (fun l => decide (l.IsLive now))) else none) ∧
      ∀ l ∈ (k.board s).leases.rows, ¬l.IsLapsed now → l ∈ (k.board r.2).leases.rows := by
  intro r
  cases reaches with
  | false => exact ⟨rfl, fun l hl _ => hl⟩
  | true =>
      refine ⟨congrArg some (k.getActiveLeases_step now s).1, fun l hl hlapsed => ?_⟩
      exact Backend.mem_leases_getActiveLeases hl hlapsed

/-- The end of a spawn: the worker is tracked under the lease that is found. -/
theorem result_track (k : Backend) (now : Nat) (node : (op : ExecOp) → op.Res) (reaches : Bool)
    (spawn : ActiveSpawn) (e : Executor) (s : k.Store) :
    let got := serve k now node reaches .getLeases s
    let r := Exec.result (serve k now node reaches) (track spawn e) s
    let leaseId := got.1.bind (fun leases => (leases.find? (fun l =>
      l.taskId = spawn.taskId && leaseNodeMatches e l.nodeId && l.status = .active)).map Lease.id)
    let tracked : ActiveSpawn := { spawn with leaseId := leaseId, startedAt := node .time }
    r.2 = got.2 ∧ r.1.nodeId = e.nodeId ∧ r.1.laneQueue = e.laneQueue ∧
      r.1.laneReleased = e.laneReleased ∧
      r.1.activeSpawns = e.activeSpawns.upsert tracked := by
  intro got r leaseId tracked
  let e' : Executor := { e with activeSpawns := e.activeSpawns.upsert tracked }
  have hr : r = Exec.result (serve k now node reaches) (persistSpawn tracked e') got.2 := by
    dsimp only [r, e', tracked, leaseId]
    unfold track findLeaseForTask
    rw [bind_assoc, Exec.result_ask]
    change Exec.result _ _ got.2 = _
    cases got.1 with
    | none => rfl
    | some leases => rfl
  rw [hr]
  unfold persistSpawn
  split
  · exact ⟨rfl, rfl, rfl, rfl, rfl⟩
  · exact ⟨rfl, rfl, rfl, rfl, rfl⟩

end Requests

/-! ## The claim's premises, and what else it takes -/

namespace Fleet

variable [Unicode] {k : Backend} {node : (op : ExecOp) → op.Res} {now : Nat} {s : Fleet k}

/-- The task of a spawn that is live now: the lease lasts for a TTL from the
beginning of the current cycle. -/
def Covers (s : Fleet k) (id : String) (l : Lease) : Prop :=
  l ∈ (k.board s.main).leases.rows ∧ ForTask s.executor id l ∧ l.status = .active ∧
    s.cycleStart + leaseTtl ≤ l.expiresAt

/-- What is assumed of a run: time does not run backwards and the next cycle is
completed within a TTL of the beginning of the last; nobody revokes a lease of a
held task, whose outcome is still to come; every extension succeeds. -/
def Assumes (node : (op : ExecOp) → op.Res) (now : Nat) (s : Fleet k) (st : FleetStep) : Prop :=
  s.now ≤ now ∧ now < s.lastCycle + leaseTtl ∧
    match st with
    | .main op => ∀ l ∈ (k.board s.main).leases.rows, s.Holds l.taskId → ¬op.Revokes l
    | .beginCycle => s.pending = []
    | .renew reaches => ∀ spawn ∈ s.pending.head?, ∀ leaseId ∈ spawn.leaseId,
        (serve k now node reaches (.extendLease leaseId) s.main).1 = true
    | _ => True

/-- What it takes besides: a worker is tracked under a lease that lasts until
the next cycle is completed, no task is put into a lane queue, and the node
holds no expired lease when the sweep runs. -/
def Suffices (now : Nat) (s : Fleet k) (st : FleetStep) : Prop :=
  match st with
  | .sweep _ => ∀ nodeId, leaseNodeMatches s.executor nodeId = true →
      ¬HoldsExpired now (k.board s.main) nodeId
  | .track spawn reaches => reaches = true ∧ ∃ l, s.Covers spawn.taskId l
  | .reattach record => ∃ l, s.Covers record.taskId l ∧ record.leaseId = some l.id
  | .queue _ _ _ => False
  | _ => True

/-! ## The invariant -/

/-- When the lease of a held task has to last: a TTL from the beginning of the
current cycle, or of the last one while the task waits for its renewal. -/
def deadline (s : Fleet k) (id : String) : Nat :=
  if id ∈ s.pending.map ActiveSpawn.taskId then s.lastCycle + leaseTtl
  else s.cycleStart + leaseTtl

/-- Each task with a live spawn has a lease that lasts, and each spawn that is
live or still to be renewed remembers a lease of its task. -/
structure Sound (s : Fleet k) : Prop where
  ordered : s.lastCycle ≤ s.cycleStart ∧ s.cycleStart ≤ s.now
  unqueued : s.executor.waiting = []
  remembered : ∀ spawn, spawn ∈ s.executor.activeSpawns.rows ∨ spawn ∈ s.pending →
    ∃ leaseId ∈ spawn.leaseId, ∃ l ∈ (k.board s.main).leases.rows,
      l.id = leaseId ∧ ForTask s.executor spawn.taskId l
  covered : ∀ id, s.executor.Runs id → ∃ l ∈ (k.board s.main).leases.rows,
    ForTask s.executor id l ∧ l.status = .active ∧ s.deadline id ≤ l.expiresAt

/-- Besides, no cycle is under way when no spawn is left to renew. -/
structure Inv (s : Fleet k) : Prop extends Sound s where
  idle : s.pending = [] → s.lastCycle = s.cycleStart

omit [Unicode] in
theorem Sound.lastCycle_le_deadline (h : s.Sound) (id : String) :
    s.lastCycle + leaseTtl ≤ s.deadline id := by
  have hle := h.ordered.1
  unfold deadline
  split
  · exact Nat.le_refl _
  · exact Nat.add_le_add_right hle leaseTtl

omit [Unicode] in
theorem Sound.deadline_le (h : s.Sound) (id : String) :
    s.deadline id ≤ s.cycleStart + leaseTtl := by
  have hle := h.ordered.1
  unfold deadline
  split
  · exact Nat.add_le_add_right hle leaseTtl
  · exact Nat.le_refl _

omit [Unicode] in
/-- Main's store may move on as long as the leases that cover the held tasks are
kept. -/
theorem Sound.main (h : s.Sound) (hnow : s.now ≤ now) {main : k.Store}
    (hrows : ∀ l ∈ (k.board s.main).leases.rows,
      ∃ l' ∈ (k.board main).leases.rows, SameLease l l')
    (hkept : ∀ l ∈ (k.board s.main).leases.rows, l.status = .active →
      s.lastCycle + leaseTtl ≤ l.expiresAt → leaseNodeMatches s.executor l.nodeId = true →
      s.executor.Runs l.taskId → l ∈ (k.board main).leases.rows) :
    ({ s with now := now, main := main } : Fleet k).Sound where
  ordered := ⟨h.ordered.1, h.ordered.2.trans hnow⟩
  unqueued := h.unqueued
  remembered := by
    intro spawn hspawn
    obtain ⟨leaseId, hid, l, hl, hlid, hfor⟩ := h.remembered spawn hspawn
    obtain ⟨l', hl', hsame⟩ := hrows l hl
    exact ⟨leaseId, hid, l', hl', hsame.id.trans hlid, hfor.of_same hsame⟩
  covered := by
    intro id hid
    obtain ⟨l, hl, hfor, hactive, hdeadline⟩ := h.covered id hid
    have hlasts := (h.lastCycle_le_deadline id).trans hdeadline
    exact ⟨l, hkept l hl hactive hlasts hfor.node (hfor.taskId.symm ▸ hid), hfor, hactive,
      hdeadline⟩

omit [Unicode] in
/-- The executor may move on to spawns whose tasks are covered. -/
theorem Sound.executor (h : s.Sound) {e : Executor} (hnode : e.nodeId = s.executor.nodeId)
    (hwaiting : e.waiting = s.executor.waiting)
    (hspawns : ∀ spawn ∈ e.activeSpawns.rows, spawn ∈ s.executor.activeSpawns.rows ∨
      (∃ l, s.Covers spawn.taskId l) ∧ ∃ leaseId ∈ spawn.leaseId,
        ∃ l ∈ (k.board s.main).leases.rows, l.id = leaseId ∧ ForTask s.executor spawn.taskId l) :
    ({ s with executor := e } : Fleet k).Sound where
  ordered := h.ordered
  unqueued := hwaiting.trans h.unqueued
  remembered := by
    intro spawn hspawn
    have hold : ∃ leaseId ∈ spawn.leaseId, ∃ l ∈ (k.board s.main).leases.rows,
        l.id = leaseId ∧ ForTask s.executor spawn.taskId l := by
      rcases hspawn with hlive | hpending
      · rcases hspawns spawn hlive with hold | ⟨-, hnew⟩
        · exact h.remembered spawn (.inl hold)
        · exact hnew
      · exact h.remembered spawn (.inr hpending)
    obtain ⟨leaseId, hid, l, hl, hlid, hfor⟩ := hold
    exact ⟨leaseId, hid, l, hl, hlid, hfor.of_nodeId hnode⟩
  covered := by
    rintro id ⟨spawn, hspawn, rfl⟩
    rcases hspawns spawn hspawn with hold | ⟨⟨l, hl, hfor, hactive, hlasts⟩, -⟩
    · obtain ⟨l, hl, hfor, hactive, hdeadline⟩ := h.covered spawn.taskId ⟨spawn, hold, rfl⟩
      exact ⟨l, hl, hfor.of_nodeId hnode, hactive, hdeadline⟩
    · exact ⟨l, hl, hfor.of_nodeId hnode, hactive, (h.deadline_le spawn.taskId).trans hlasts⟩

omit [Unicode] in
theorem Sound.close (h : s.Sound) : (closeCycle s).Inv := by
  unfold closeCycle
  split
  · rename_i hnil
    refine ⟨⟨⟨Nat.le_refl _, h.ordered.2⟩, h.unqueued, h.remembered, fun id hid => ?_⟩,
      fun _ => rfl⟩
    obtain ⟨l, hl, hfor, hactive, hdeadline⟩ := h.covered id hid
    refine ⟨l, hl, hfor, hactive, ?_⟩
    have hnot : id ∉ s.pending.map ActiveSpawn.taskId := by
      rw [hnil]
      exact List.not_mem_nil
    rw [deadline, if_neg hnot] at hdeadline
    rwa [deadline, if_neg hnot]
  · rename_i hsome
    exact ⟨h, fun hnil => absurd hnil hsome⟩

/-! ## One step -/

theorem Inv.mainStep (h : s.Inv) {op : StoreOp} (hassumes : s.Assumes node now (.main op)) :
    (s.step node now (.main op)).Inv := by
  obtain ⟨hnow, hcycle, hrevokes⟩ := hassumes
  have hrows := k.keepsLeases_step now op s.main
  refine ⟨h.main hnow (fun l hl => ?_) (fun l hl hactive hlasts _ hruns => ?_), h.idle⟩
  · obtain ⟨l', hl', hsame, -⟩ := hrows l hl
    exact ⟨l', hl', hsame⟩
  · obtain ⟨l', hl', -, hkept⟩ := hrows l hl
    have hsame : l' = l := hkept
      (fun hlapsed => absurd (hcycle.trans_le hlasts) (Nat.not_lt.mpr hlapsed.2))
      (hrevokes l hl (.inl hruns))
    exact hsame ▸ hl'

theorem Inv.sweepStep (h : s.Inv) {order : Recovery.SetOrder}
    (hassumes : s.Assumes node now (.sweep order)) (hsuffices : s.Suffices now (.sweep order)) :
    (s.step node now (.sweep order)).Inv := by
  obtain ⟨hnow, -, -⟩ := hassumes
  refine ⟨h.main hnow (fun l hl => ?_) (fun l hl _ _ hmatches _ => ?_), h.idle⟩
  · exact k.exists_sameLease_run (Recovery.detectExpiredLeases order) ⟨s.main, fun _ => now⟩ hl
  · exact (detectExpiredLeases_isolated k order now s.main).1 l hl (hsuffices l.nodeId hmatches)

omit [Unicode] in
theorem Inv.runs_of_holds (h : s.Inv) {id : String} (hholds : s.Holds id) :
    s.executor.Runs id := by
  rcases hholds with hruns | ⟨t, ht, -⟩
  · exact hruns
  · rw [h.unqueued] at ht
    cases ht

/-- The sweep leaves the rows of the held tasks alone. -/
theorem Inv.sweep_spares (h : s.Inv) {order : Recovery.SetOrder}
    (hassumes : s.Assumes node now (.sweep order)) (hsuffices : s.Suffices now (.sweep order))
    {id : String} (hne : id ≠ "") (hholds : s.Holds id) :
    (k.board (s.step node now (.sweep order)).main).tasks.get? id =
      (k.board s.main).tasks.get? id := by
  obtain ⟨l, hl, hfor, hactive, hdeadline⟩ := h.covered id (h.runs_of_holds hholds)
  have hlasts := (h.lastCycle_le_deadline id).trans hdeadline
  have hlive : l.IsLive now := ⟨hactive, hassumes.2.1.trans_le hlasts⟩
  have hrows := (detectExpiredLeases_isolated k order now s.main).2
  have hevolves := Table.evolves_of_forall₂ (N := fun _ => False) hrows
  change (k.board ((Recovery.detectExpiredLeases order).run k.tick
    ⟨s.main, fun _ => now⟩).2.state).tasks.get? id = _
  cases hget : (k.board s.main).tasks.get? id with
  | some t =>
      obtain ⟨t', ht', -, hrow⟩ := hevolves.get?_of_get? (fun _ _ hrow => hrow.1) hget
      rcases hrow with rfl | ⟨-, hsheltered⟩
      · exact ht'
      · have hid : t.id = id := Table.key_of_get? hget
        exact absurd ⟨hid ▸ hne, l, hl, hfor.taskId.trans hid.symm, hlive,
          hsuffices l.nodeId hfor.node⟩ hsheltered
  | none =>
      rw [Option.eq_none_iff_forall_ne_some]
      intro t' ht'
      rcases hevolves.of_get? (fun _ _ hrow => hrow.1) ht' with ⟨t, ht, -⟩ | ⟨-, hfalse⟩
      · rw [hget] at ht
        cases ht
      · exact hfalse

theorem Inv.beginCycleStep (h : s.Inv) (hassumes : s.Assumes node now .beginCycle) :
    (s.step node now .beginCycle).Inv := by
  obtain ⟨hnow, -, hnil⟩ := hassumes
  have hle := h.ordered
  refine Sound.close ⟨⟨hle.1.trans (hle.2.trans hnow), Nat.le_refl _⟩, h.unqueued, ?_, ?_⟩
  · intro spawn hspawn
    exact h.remembered spawn (.inl (or_self_iff.mp hspawn))
  · intro id hid
    obtain ⟨l, hl, hfor, hactive, hdeadline⟩ := h.covered id hid
    refine ⟨l, hl, hfor, hactive, ?_⟩
    obtain ⟨spawn, hspawn, rfl⟩ := hid
    have hpending : spawn.taskId ∈ s.executor.activeSpawns.rows.map ActiveSpawn.taskId :=
      List.mem_map_of_mem hspawn
    rw [deadline, if_pos hpending]
    exact (h.lastCycle_le_deadline _).trans hdeadline

omit [Unicode] in
/-- The lease of the renewed task is replaced, the others are kept. -/
theorem Sound.renewed (h : s.Sound) (hnow : s.now ≤ now) (hcycle : now < s.lastCycle + leaseTtl)
    {spawn : ActiveSpawn} {pending : List ActiveSpawn} (hpending : s.pending = spawn :: pending)
    {main : k.Store} (hrows : ∀ l ∈ (k.board s.main).leases.rows,
      ∃ l' ∈ (k.board main).leases.rows, SameLease l l')
    {l₀ : Lease} (hl₀ : l₀ ∈ (k.board s.main).leases.rows)
    (hfor₀ : ForTask s.executor spawn.taskId l₀)
    (hothers : ∀ l ∈ (k.board s.main).leases.rows, ¬l.IsLapsed now → l.id ≠ l₀.id →
      l ∈ (k.board main).leases.rows)
    {l₁ : Lease} (hl₁ : l₁ ∈ (k.board main).leases.rows)
    (hfor₁ : ForTask s.executor spawn.taskId l₁) (hactive₁ : l₁.status = .active)
    (hexpires : l₁.expiresAt = now + leaseTtl) :
    ({ s with now := now, main := main, pending := pending } : Fleet k).Sound := by
  have hle := h.ordered
  refine ⟨⟨hle.1, hle.2.trans hnow⟩, h.unqueued, fun other hother => ?_, fun id hruns => ?_⟩
  · have hbefore : other ∈ s.executor.activeSpawns.rows ∨ other ∈ s.pending := by
      rw [hpending]
      exact hother.imp_right (List.mem_cons_of_mem spawn)
    obtain ⟨leaseId, hid, l, hl, hlid, hfor⟩ := h.remembered other hbefore
    obtain ⟨l', hl', hsame⟩ := hrows l hl
    exact ⟨leaseId, hid, l', hl', hsame.id.trans hlid, hfor.of_same hsame⟩
  · by_cases hown : id = spawn.taskId
    · refine ⟨l₁, hl₁, hown ▸ hfor₁, hactive₁, ?_⟩
      rw [hexpires]
      unfold deadline
      split
      · exact Nat.add_le_add_right (hle.1.trans (hle.2.trans hnow)) leaseTtl
      · exact Nat.add_le_add_right (hle.2.trans hnow) leaseTtl
    · obtain ⟨l, hl, hfor, hactive, hdeadline⟩ := h.covered id hruns
      have hlasts := (h.lastCycle_le_deadline id).trans hdeadline
      refine ⟨l, hothers l hl ?_ ?_, hfor, hactive, ?_⟩
      · exact fun hlapsed => absurd (hcycle.trans_le hlasts) (Nat.not_lt.mpr hlapsed.2)
      · intro hid
        have hsame : l = l₀ := Table.eq_of_mem_of_key_eq hl hl₀ hid
        exact hown (hfor.taskId.symm.trans (hsame ▸ hfor₀.taskId))
      · unfold deadline at hdeadline ⊢
        simp only [hpending, List.map_cons, List.mem_cons, hown, false_or] at hdeadline
        exact hdeadline

theorem Inv.renewStep (h : s.Inv) {reaches : Bool}
    (hassumes : s.Assumes node now (.renew reaches)) : (s.step node now (.renew reaches)).Inv := by
  obtain ⟨hnow, hcycle, hextends⟩ := hassumes
  cases hpending : s.pending with
  | nil =>
      have hstep : s.step node now (.renew reaches) = { s with now := now } := by
        simp only [step, hpending]
      rw [hstep]
      exact ⟨⟨⟨h.ordered.1, h.ordered.2.trans hnow⟩, h.unqueued, h.remembered, h.covered⟩, h.idle⟩
  | cons spawn pending =>
      obtain ⟨leaseId, hid, l, hl, rfl, hfor⟩ :=
        h.remembered spawn (.inr (hpending ▸ List.mem_cons_self))
      have hextended : (serve k now node reaches (.extendLease l.id) s.main).1 = true := by
        rw [hpending] at hextends
        exact hextends spawn rfl l.id hid
      obtain ⟨hothers, hrenewed⟩ := extendLease_cases k now node reaches l.id s.main
      obtain ⟨-, l₀, hl₀, hid₀, -, l₁, hl₁, htask, hnode, hactive₁, hexpires⟩ := hrenewed hextended
      obtain rfl : l₀ = l := Table.eq_of_mem_of_key_eq hl₀ hl hid₀
      have hfor₁ : ForTask s.executor spawn.taskId l₁ :=
        ⟨htask.trans hfor.taskId, hnode.symm ▸ hfor.node⟩
      have hrows := fun (l : Lease) (hl : l ∈ (k.board s.main).leases.rows) =>
        serve_keepsLeases k now node reaches (.extendLease l₀.id) s.main hl
      have hsound := h.renewed hnow hcycle hpending hrows hl₀ hfor hothers hl₁ hfor₁ hactive₁
        hexpires
      have hresult : (Exec.result (serve k now node reaches) (renewLease spawn) s.main).2 =
          (serve k now node reaches (.extendLease l₀.id) s.main).2 := by
        rw [renewLease, show spawn.leaseId = some l₀.id from hid]
        rfl
      have hstep : s.step node now (.renew reaches) = closeCycle { s with
          now := now
          main := (serve k now node reaches (.extendLease l₀.id) s.main).2
          pending := pending } := by
        simp only [step, hpending, hresult]
      rw [hstep]
      exact hsound.close

/-- A worker is tracked under the first lease that main lists for its task. -/
theorem Inv.trackStep (h : s.Inv) {spawn : ActiveSpawn} {reaches : Bool}
    (hassumes : s.Assumes node now (.track spawn reaches))
    (hsuffices : s.Suffices now (.track spawn reaches)) :
    (s.step node now (.track spawn reaches)).Inv := by
  obtain ⟨hnow, hcycle, -⟩ := hassumes
  obtain ⟨rfl, l, hl, hfor, hactive, hlasts⟩ := hsuffices
  obtain ⟨hmain, hnode, hqueue, hreleased, hactives⟩ :=
    result_track k now node true spawn s.executor s.main
  obtain ⟨hlisted, hkept⟩ := getLeases_cases k now node true s.main
  have hrows := fun (l : Lease) (hl : l ∈ (k.board s.main).leases.rows) =>
    serve_keepsLeases k now node true .getLeases s.main hl
  have hunlapsed : ∀ l : Lease, s.lastCycle + leaseTtl ≤ l.expiresAt → ¬l.IsLapsed now :=
    fun l hlasts hlapsed => absurd (hcycle.trans_le hlasts) (Nat.not_lt.mpr hlapsed.2)
  have hcovers := (Nat.add_le_add_right h.ordered.1 leaseTtl).trans hlasts
  have hsound : ({ s with now := now, main := (serve k now node true .getLeases s.main).2 } :
      Fleet k).Sound :=
    h.main hnow hrows (fun l hl _ hlasts _ _ => hkept l hl (hunlapsed l hlasts))
  -- the lookup finds a lease, since there is one
  obtain ⟨found, hfound⟩ : ∃ found, ((k.board s.main).leases.rows.filter
      (fun l => decide (l.IsLive now))).find? (fun l => l.taskId = spawn.taskId &&
        leaseNodeMatches s.executor l.nodeId && l.status = .active) = some found := by
    rw [← Option.isSome_iff_exists, List.find?_isSome]
    refine ⟨l, List.mem_filter.mpr ⟨hl, ?_⟩, ?_⟩
    · exact decide_eq_true ⟨hactive, hcycle.trans_le hcovers⟩
    · simp only [hfor.taskId, hfor.node, hactive, decide_true, Bool.and_self]
  have hmem := (List.mem_filter.mp (List.mem_of_find?_eq_some hfound)).1
  have hkeys := List.find?_some hfound
  simp only [Bool.and_eq_true, decide_eq_true_eq] at hkeys
  rw [hlisted, if_pos rfl, Option.bind_some, hfound] at hactives
  have hexec := hsound.executor hnode (by rw [Executor.waiting, hqueue, hreleased]; rfl)
    (fun other hother => ?_)
  · refine ⟨?_, h.idle⟩
    have hstep : s.step node now (.track spawn true) = { s with
        now := now
        executor := (Exec.result (serve k now node true) (track spawn s.executor) s.main).1
        main := (serve k now node true .getLeases s.main).2 } := by
      simp only [step, hmain]
    rw [hstep]
    exact hexec
  · rw [hactives] at hother
    rcases s.executor.activeSpawns.mem_rows_upsert.mp hother with rfl | ⟨hold, -⟩
    · refine .inr ⟨⟨l, hkept l hl (hunlapsed l hcovers), hfor, hactive, hlasts⟩, found.id, rfl, ?_⟩
      obtain ⟨found', hfound', hsame⟩ := hrows found hmem
      exact ⟨found', hfound', hsame.id, ForTask.of_same ⟨hkeys.1.1, hkeys.1.2⟩ hsame⟩
    · exact .inl hold

omit [Unicode] in
theorem reattachRecord_cases (e : Executor) (record : SpawnRecord) :
    (reattachRecord e record).nodeId = e.nodeId ∧
      (reattachRecord e record).waiting = e.waiting ∧
      ∀ spawn ∈ (reattachRecord e record).activeSpawns.rows, spawn ∈ e.activeSpawns.rows ∨
        spawn = SpawnRecord.toSpawn record := by
  unfold reattachRecord
  split
  · exact ⟨rfl, rfl, fun spawn hspawn => .inl hspawn⟩
  · refine ⟨rfl, rfl, fun spawn hspawn => ?_⟩
    rcases e.activeSpawns.mem_rows_upsert.mp hspawn with rfl | ⟨hold, -⟩
    · exact .inr rfl
    · exact .inl hold

theorem Inv.reattachStep (h : s.Inv) {record : SpawnRecord}
    (hassumes : s.Assumes node now (.reattach record))
    (hsuffices : s.Suffices now (.reattach record)) :
    (s.step node now (.reattach record)).Inv := by
  obtain ⟨hnow, hcycle, -⟩ := hassumes
  obtain ⟨l, hcovers, hid⟩ := hsuffices
  obtain ⟨hnode, hwaiting, hspawns⟩ := reattachRecord_cases s.executor record
  have hsound : ({ s with now := now } : Fleet k).Sound :=
    h.main hnow (fun l hl => ⟨l, hl, SameLease.refl l⟩) (fun l hl _ _ _ _ => hl)
  refine ⟨hsound.executor hnode hwaiting (fun spawn hspawn => ?_), h.idle⟩
  rcases hspawns spawn hspawn with hold | rfl
  · exact .inl hold
  · exact .inr ⟨⟨l, hcovers⟩, l.id, hid, l, hcovers.1, rfl, hcovers.2.1⟩

theorem Inv.reapStep (h : s.Inv) {taskId : String}
    (hassumes : s.Assumes node now (.reap taskId)) : (s.step node now (.reap taskId)).Inv := by
  have hsound : ({ s with now := now } : Fleet k).Sound :=
    h.main hassumes.1 (fun l hl => ⟨l, hl, SameLease.refl l⟩) (fun l hl _ _ _ _ => hl)
  refine ⟨hsound.executor rfl rfl (fun spawn hspawn => .inl ?_), h.idle⟩
  exact (s.executor.activeSpawns.mem_rows_erase.mp hspawn).1

/-- Whatever happens next. -/
theorem Inv.step (h : s.Inv) {st : FleetStep} (hassumes : s.Assumes node now st)
    (hsuffices : s.Suffices now st) : (s.step node now st).Inv := by
  cases st with
  | main op => exact h.mainStep hassumes
  | sweep order => exact h.sweepStep hassumes hsuffices
  | beginCycle => exact h.beginCycleStep hassumes
  | renew reaches => exact h.renewStep hassumes
  | track spawn reaches => exact h.trackStep hassumes hsuffices
  | reattach record => exact h.reattachStep hassumes hsuffices
  | queue laneKey task attempts => exact hsuffices.elim
  | reap taskId => exact h.reapStep hassumes

/-! ## Runs -/

/-- Until the next cycle has to be completed, each held task has an active and
unexpired lease for the node. -/
def Kept (s : Fleet k) : Prop :=
  ∀ id, s.Holds id → ∀ t, t < s.lastCycle + leaseTtl →
    ∃ l ∈ (k.board s.main).leases.rows, ForTask s.executor id l ∧ l.IsLive t

/-- The sweep leaves the held tasks alone. -/
def Spared (node : (op : ExecOp) → op.Res) (now : Nat) (s : Fleet k) (st : FleetStep) : Prop :=
  ∀ order, st = .sweep order → ∀ id, id ≠ "" → s.Holds id →
    (k.board (s.step node now st).main).tasks.get? id = (k.board s.main).tasks.get? id

omit [Unicode] in
theorem Inv.kept (h : s.Inv) : s.Kept := by
  intro id hholds t ht
  obtain ⟨l, hl, hfor, hactive, hdeadline⟩ := h.covered id (h.runs_of_holds hholds)
  exact ⟨l, hl, hfor, hactive, ht.trans_le ((h.lastCycle_le_deadline id).trans hdeadline)⟩

omit [Unicode] in
theorem inv_init (main : k.Store) {e : Executor} (he : Fresh e) (now : Nat) :
    (init main e now).Inv := by
  have hnone : ∀ spawn, spawn ∉ e.activeSpawns.rows := by
    intro spawn hspawn
    rw [he.active] at hspawn
    cases hspawn
  refine ⟨⟨⟨Nat.le_refl _, Nat.le_refl _⟩, ?_, ?_, ?_⟩, fun _ => rfl⟩
  · change Executor.waitingIn e.laneQueue e.laneReleased = []
    rw [Executor.waitingIn, he.queue, he.released]
    rfl
  · rintro spawn (hspawn | hspawn)
    · exact absurd hspawn (hnone spawn)
    · cases hspawn
  · rintro id ⟨spawn, hspawn, -⟩
    exact absurd hspawn (hnone spawn)

theorem meets_of_inv (steps : List (Nat × FleetStep)) (h : s.Inv)
    (hmeets : s.Meets node (fun now s st => s.Assumes node now st ∧ s.Suffices now st) steps) :
    s.Meets node (fun now s st => s.Kept ∧ s.Spared node now st) steps ∧
      (s.run node steps).Kept := by
  induction steps generalizing s with
  | nil => exact ⟨trivial, h.kept⟩
  | cons entry steps ih =>
      obtain ⟨now, st⟩ := entry
      obtain ⟨⟨hassumes, hsuffices⟩, hrest⟩ := hmeets
      obtain ⟨hlater, hend⟩ := ih (h.step hassumes hsuffices) hrest
      refine ⟨⟨⟨h.kept, ?_⟩, hlater⟩, hend⟩
      rintro order rfl id hne hholds
      exact h.sweep_spares hassumes hsuffices hne hholds

/-- On any store, through any run of an executor that starts fresh, with any
operations on main between its requests: as long as the premises and the
condition are met at each step, each held task has an active and unexpired lease
for the node at every moment, and no sweep touches a held task. -/
theorem kept_of_meets (k : Backend) (node : (op : ExecOp) → op.Res) (main : k.Store)
    (e : Executor) (he : Fresh e) (now : Nat) (steps : List (Nat × FleetStep))
    (hmeets : (init main e now).Meets node
      (fun now s st => s.Assumes node now st ∧ s.Suffices now st) steps) :
    (init main e now).Meets node (fun now s st => s.Kept ∧ s.Spared node now st) steps ∧
      ((init main e now).run node steps).Kept :=
  meets_of_inv steps (inv_init main he now) hmeets

end Fleet

section Example

local instance asciiRenewal : Unicode := Unicode.ascii

open Fleet

/-- Two tasks that run on a node. -/
def twoRunning : ClusterState where
  nodes := .single { id := "n" }
  tasks := ⟨[{ id := "a", title := "a", status := .running, assignedTo := some "n",
               laneKey := "lane", createdAt := 0, updatedAt := 0 },
             { id := "b", title := "b", status := .running, assignedTo := some "n",
               laneKey := "lane", createdAt := 0, updatedAt := 0 }], by decide⟩
  index_ok := indexOk_initial

/-- What a node answers whose clock stands still. -/
def stillNode : (op : ExecOp) → op.Res
  | .time | .monotonic => (0 : Nat)
  | .diskGateBlocks | .extendLease _ | .report _ _ | .block _ _ => false
  | .getTasks _ | .getTask _ | .getLeases | .observe _ | .getLane _ | .getAllTaskSpawns _ => none
  | .requeue _ _ _ | .ackCancel _ => false
  | .release _ _ _ | .kill _ | .recordTaskSpawn _ | .deleteTaskSpawn _ => ()
  | .popen _ _ => .started

/-- Main's store and the executor of its node. -/
def twoFleet : Fleet .memory := init twoRunning { nodeId := "n" } 0

/-- The first task is spawned and renewed. -/
def renewedRun : List (Nat × FleetStep) :=
  [(1, .main (.createLease "a" "n" leaseTtl)), (1, .main (.createLease "b" "n" leaseTtl)),
    (1, .track { taskId := "a", laneKey := "lane" } true), (2, .beginCycle), (3, .renew true)]

/-- The second one waits for the lane. -/
def queuedRun : List (Nat × FleetStep) :=
  [(1, .main (.createLease "a" "n" leaseTtl)), (1, .main (.createLease "b" "n" leaseTtl)),
    (1, .track { taskId := "a", laneKey := "lane" } true),
    (1, .queue "lane" { id := "b", title := "b", createdAt := 0, updatedAt := 0 } 0),
    (2, .beginCycle), (3, .renew true)]

theorem not_revokes_createLease (taskId nodeId : String) (ttl : Nat) (l : Lease) :
    ¬(StoreOp.createLease taskId nodeId ttl).Revokes l := by
  rintro (h | ⟨reason, h⟩) <;> cases h

theorem kept_of_meets_renewedRun : (twoFleet.run stillNode renewedRun).Kept := by
  have hleased : ∀ s : Fleet .memory, s.now ≤ 1 → 1 < s.lastCycle + leaseTtl → ∀ taskId,
      s.Assumes stillNode 1 (.main (.createLease taskId "n" leaseTtl)) ∧
        s.Suffices 1 (.main (.createLease taskId "n" leaseTtl)) :=
    fun s hnow hcycle taskId =>
      ⟨⟨hnow, hcycle, fun l _ _ => not_revokes_createLease taskId "n" leaseTtl l⟩, trivial⟩
  refine (kept_of_meets .memory stillNode twoRunning { nodeId := "n" } ⟨rfl, rfl, rfl, rfl⟩ 0
    renewedRun ⟨hleased _ (by decide) (by decide) "a", hleased _ (by decide) (by decide) "b",
      ⟨⟨by decide, by decide, trivial⟩, rfl,
        { id := 0, taskId := "a", nodeId := "n", createdAt := 1, expiresAt := 1 + leaseTtl },
        by decide, ⟨rfl, by decide⟩, rfl, by decide⟩,
      ⟨⟨by decide, by decide, rfl⟩, trivial⟩, ⟨⟨by decide, by decide, by decide⟩, trivial⟩,
      trivial⟩).2

/-- All premises are met, yet the lease of the task that waits lapses, and the
sweep then puts the task back. -/
theorem lapsed_queuedRun :
    twoFleet.Meets stillNode (fun now s st => s.Assumes stillNode now st)
        (queuedRun ++ [(1 + leaseTtl, .sweep .insertion)]) ∧
      ¬(twoFleet.run stillNode queuedRun).Kept ∧
      ¬(twoFleet.run stillNode queuedRun).Spared stillNode (1 + leaseTtl) (.sweep .insertion) := by
  have hleased : ∀ s : Fleet .memory, s.now ≤ 1 → 1 < s.lastCycle + leaseTtl → ∀ taskId,
      s.Assumes stillNode 1 (.main (.createLease taskId "n" leaseTtl)) :=
    fun s hnow hcycle taskId =>
      ⟨hnow, hcycle, fun l _ _ => not_revokes_createLease taskId "n" leaseTtl l⟩
  have hwaits : (twoFleet.run stillNode queuedRun).Holds "b" :=
    .inr ⟨{ id := "b", title := "b", createdAt := 0, updatedAt := 0 }, by decide, rfl⟩
  refine ⟨⟨hleased _ (by decide) (by decide) "a", hleased _ (by decide) (by decide) "b",
    ⟨by decide, by decide, trivial⟩, ⟨by decide, by decide, trivial⟩,
    ⟨by decide, by decide, rfl⟩, ⟨by decide, by decide, by decide⟩,
    ⟨by decide, by decide, trivial⟩, trivial⟩, fun hkept => ?_, fun hspared => ?_⟩
  · obtain ⟨l, hl, hfor, hlive⟩ := hkept "b" hwaits (1 + leaseTtl) (by decide)
    have hlapsed : ∀ l ∈ (twoFleet.run stillNode queuedRun).main.leases.rows, l.taskId = "b" →
        ¬l.IsLive (1 + leaseTtl) := by decide
    exact hlapsed l hl hfor.taskId hlive
  · have hsame := hspared .insertion rfl "b" (by decide) hwaits
    have hrescheduled : ((twoFleet.run stillNode queuedRun).step stillNode (1 + leaseTtl)
        (.sweep .insertion)).main.tasks.get? "b" ≠
          (twoFleet.run stillNode queuedRun).main.tasks.get? "b" := by decide
    exact hrescheduled hsame

end Example

end HermesCluster
