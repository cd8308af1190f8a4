import HermesCluster.State.Transitions
/-!
# The contract of a store

What every backend promises of an operation: the rewrites of the task rows, and
what it returns and leaves alone. Handlers are verified against this contract,
so that each result about them holds of every store.
-/

namespace HermesCluster

variable [Unicode]

/-- What an operation returns, and what it does besides the task rows. -/
def Replies (k : Backend) (now : Nat) : (op : StoreOp) → Board → op.Res → Board → Prop
  | .getTask taskId, b, r, b' => r = b.tasks.get? taskId ∧ b' = b
  | .getAllTasks, b, r, b' => r = b.tasks.rows ∧ b' = b
  | .getActiveLeases, b, r, b' =>
      r = b.leases.rows.filter (fun l => decide (l.IsLive now)) ∧
        b' = { b with
          leases := b.leases.updateWhere (Lease.IsLapsed now) Lease.expire
            Lease.keepsKey_expire }
  | .getExpiredLeases, b, r, b' =>
      r = b.leases.rows.filter (fun l => decide (l.status = .expired)) ∧ b' = b
  | .utcnow, b, _, b' => b' = b
  | .getAllNodes, b, _, b' => b' = b
  | .getDependents _, b, _, b' => b' = b
  | .getTriggerChain taskId, b, r, b' => r = triggerChain k.dependentRows b.tasks taskId ∧ b' = b
  | .getLeaseByTask _, b, _, b' => b' = b
  | .unleasedRunningTasks, b, _, b' => b' = b
  | .setTaskStatus taskId status failReason, b, _, b' =>
      b'.leases = b.leases ∧ ∀ t, b.tasks.get? taskId = some t →
        ¬ClusterState.Refuses t.status status →
        b'.tasks.get? taskId = some (t.withStatus now status failReason)
  | .unassignTask taskId, b, r, b' =>
      b'.leases = b.leases ∧ (r = false → b' = b) ∧
        (r = true → Unleased now b taskId ∧ ∃ t, b.tasks.get? taskId = some t ∧
          ¬t.status.IsTerminal ∧ b'.tasks.get? taskId = some (t.unassign now))
  | .requeueTask taskId _, b, r, b' =>
      r = false → b'.tasks = b.tasks ∧ ∀ t, b.tasks.get? taskId = some t →
        t.status.IsTerminal ∨ taskRetryLimit ≤ t.attempts
  | .createLease _ _ _, b, _, b' => b'.tasks = b.tasks
  | .revokeLease leaseId, b, _, b' =>
      b' = { b with leases := b.leases.modify leaseId Lease.revoke Lease.keepsKey_revoke }
  | .schedulePendingDetailed, b, r, b' => ∃ cs, PassOf now b cs r b'
  | _, _, _, _ => True

namespace ClusterState

theorem reply (now : Nat) (op : StoreOp) (s : ClusterState) :
    Replies .memory now op s.toBoard (step now op s).1 (step now op s).2.toBoard := by
  cases op with
  | getTask | getAllTasks | getActiveLeases | getExpiredLeases | getTriggerChain =>
      exact ⟨rfl, rfl⟩
  | setTaskStatus taskId status failReason =>
      change (s.setTaskStatus now taskId status failReason).2.leases = s.leases ∧
        ∀ t, s.tasks.get? taskId = some t → ¬Refuses t.status status →
          (s.setTaskStatus now taskId status failReason).2.tasks.get? taskId =
            some (t.withStatus now status failReason)
      rcases setTaskStatus_cases now taskId status failReason s with
        ⟨heq, hrefused⟩ | ⟨u, -, -, heq⟩
      · rw [heq]
        exact ⟨rfl, fun t ht hguard => absurd (hrefused t ht) hguard⟩
      · rw [heq]
        refine ⟨rfl, fun t ht _ => ?_⟩
        have hrow := s.tasks.get?_modify_self taskId (Task.withStatus now status failReason)
          (fun _ => rfl)
        rw [ht] at hrow
        exact hrow
  | unassignTask taskId =>
      change Replies .memory now (.unassignTask taskId) s.toBoard (s.unassignTask now taskId).1
        (s.unassignTask now taskId).2.toBoard
      rcases unassignTask_cases now taskId s with heq | ⟨t, hget, hopen, hfree, heq⟩
      · rw [heq]
        exact ⟨rfl, fun _ => rfl, Bool.noConfusion⟩
      · rw [heq]
        refine ⟨rfl, Bool.noConfusion, fun _ => ⟨hfree, t, hget, hopen, ?_⟩⟩
        have hrow := s.tasks.get?_modify_self taskId (Task.unassign now) (fun _ => rfl)
        rw [hget] at hrow
        exact hrow
  | requeueTask taskId reason =>
      change Replies .memory now (.requeueTask taskId reason) s.toBoard
        (s.requeueTask now taskId reason).1 (s.requeueTask now taskId reason).2.toBoard
      rcases requeueTask_cases now taskId reason s with heq | ⟨t, -, -, -, htrue, -⟩
      · rw [heq]
        refine fun _ => ⟨rfl, fun t ht => ?_⟩
        by_contra hnot
        obtain ⟨hopen, hcap⟩ := not_or.mp hnot
        have htrue := requeueTask_of_open now reason ht hopen (Nat.lt_of_not_le hcap)
        rw [heq] at htrue
        cases htrue
      · rw [htrue]
        exact fun h => by cases h
  | revokeLease leaseId =>
      change (s.revokeLease leaseId).2.toBoard = _
      unfold revokeLease
      split
      · rename_i hget
        rw [Table.modify_eq_self hget]
      · rfl
  | schedulePendingDetailed => exact ⟨_, passOf_schedulePendingDetailed now s⟩
  | utcnow | getAllNodes | getDependents | getLeaseByTask | unleasedRunningTasks
  | createLease => rfl
  | _ => trivial

end ClusterState

namespace ClusterStore

omit [Unicode] in
theorem updateHit_false {p : Task → Prop} [DecidablePred p] {f : Task → Task}
    {hf : Table.KeepsKey f} {s : ClusterStore} (h : (s.updateHit p f hf).1 = false) :
    (s.updateHit p f hf).2 = s := by
  have hmiss : ∀ t ∈ s.tasks.rows, ¬p t := by
    intro t ht hp
    have hzero := of_decide_eq_false h
    exact hzero (List.countP_pos_iff.mpr ⟨t, ht, decide_eq_true hp⟩)
  simp only [updateHit, Table.updateWhere_eq_self hmiss]

omit [Unicode] in
theorem updateHit_true {p : Task → Prop} [DecidablePred p] {f : Task → Task}
    {hf : Table.KeepsKey f} {s : ClusterStore} (h : (s.updateHit p f hf).1 = true) :
    ∃ t ∈ s.tasks.rows, p t := by
  obtain ⟨t, ht, hp⟩ := List.countP_pos_iff.mp (of_decide_eq_true h)
  exact ⟨t, ht, of_decide_eq_true hp⟩

section GuardedUpdates

variable {s : ClusterStore} {taskId : String} {f : Task → Task} {hf : Table.KeepsKey f}
  {p : Task → Prop} [DecidablePred p]

omit [Unicode] in
/-- An `UPDATE` on the primary key that finds its row. -/
theorem updateHit_of_get? {t : Task} (ht : s.tasks.get? taskId = some t) :
    s.updateHit (fun u => u.id = taskId) f hf =
      (true, { s with tasks := s.tasks.modify taskId f hf }) := by
  have hcount : 0 < s.tasks.countWhere (fun u => u.id = taskId) :=
    List.countP_pos_iff.mpr
      ⟨t, Table.mem_of_get? ht, decide_eq_true (Table.key_of_get? ht)⟩
  rw [updateHit, decide_eq_true hcount]
  rfl

omit [Unicode] in
theorem updateHit_of_absent (h : s.tasks.get? taskId = none) :
    s.updateHit (fun u => u.id = taskId) f hf = (false, s) := by
  have hcount : ¬0 < s.tasks.countWhere (fun u => u.id = taskId) := by
    rw [Table.countWhere, List.countP_pos_iff]
    rintro ⟨u, hu, hid⟩
    exact Table.get?_eq_none_iff.mp h u hu (of_decide_eq_true hid)
  have hsame : s.tasks.updateWhere (fun u => u.id = taskId) f hf = s.tasks :=
    Table.updateWhere_eq_self (Table.get?_eq_none_iff.mp h)
  rw [updateHit, decide_eq_false hcount, hsame]

variable (hf) in
omit [Unicode] in
/-- The same with a further condition, which the row meets … -/
theorem updateHit_of_meets {t : Task} (ht : s.tasks.get? taskId = some t) (hp : p t) :
    s.updateHit (fun u => u.id = taskId ∧ p u) f hf =
      (true, { s with tasks := s.tasks.modify taskId f hf }) := by
  have hcount : 0 < s.tasks.countWhere (fun u => u.id = taskId ∧ p u) :=
    (s.tasks.countWhere_key_pos taskId p).mpr ⟨t, ht, hp⟩
  rw [updateHit, decide_eq_true hcount]
  exact congrArg (fun tasks => (true, { s with tasks := tasks }))
    (Table.updateWhere_key_and ht hp f hf)

omit [Unicode] in
/-- … or does not. -/
theorem updateHit_of_fails (h : ∀ t, s.tasks.get? taskId = some t → ¬p t) :
    s.updateHit (fun u => u.id = taskId ∧ p u) f hf = (false, s) := by
  have hcount : ¬0 < s.tasks.countWhere (fun u => u.id = taskId ∧ p u) := by
    intro hpos
    obtain ⟨t, ht, hp⟩ := (s.tasks.countWhere_key_pos taskId p).mp hpos
    exact h t ht hp
  have hmiss : ∀ t ∈ s.tasks.rows, ¬(t.id = taskId ∧ p t) := by
    rintro t ht ⟨rfl, hp⟩
    exact h t (Table.get?_of_mem ht) hp
  rw [updateHit, decide_eq_false hcount, Table.updateWhere_eq_self hmiss]

end GuardedUpdates

omit [Unicode] in
/-- The ids collected are those of the lapsed leases. -/
theorem getActiveLeases_eq (d : SqlDialect) (now : Nat) (s : ClusterStore) :
    s.getActiveLeases d now =
      (s.leases.rows.filter (fun l => decide (l.IsLive now)),
        { s with
          leases := s.leases.updateWhere (Lease.IsLapsed now) Lease.expire
            Lease.keepsKey_expire }) := by
  unfold getActiveLeases
  dsimp only
  congr 1
  · rw [List.filter_filter]
    refine List.filter_congr (fun l _ => ?_)
    rw [Bool.and_comm, ← Bool.decide_and]
    rfl
  · congr 2
    refine Table.updateWhere_congr (fun l hl => ?_)
    constructor
    · rintro ⟨hid, -⟩
      obtain ⟨m, hm, hsame⟩ := List.mem_map.mp hid
      simp only [List.mem_filter, decide_eq_true_eq] at hm
      obtain rfl : m = l := Table.eq_of_mem_of_key_eq hm.1.1 hl hsame
      exact ⟨hm.1.2, hm.2⟩
    · rintro ⟨hactive, hlapsed⟩
      refine ⟨List.mem_map_of_mem ?_, fun _ => hactive⟩
      simp only [List.mem_filter, decide_eq_true_eq]
      exact ⟨⟨hl, hactive⟩, hlapsed⟩

theorem reply (d : SqlDialect) (now : Nat) (op : StoreOp) (s : ClusterStore) :
    Replies (.sql d) now op s.toBoard (step d now op s).1 (step d now op s).2.toBoard := by
  cases op with
  | getTask | getAllTasks | getExpiredLeases | getTriggerChain => exact ⟨rfl, rfl⟩
  | getActiveLeases =>
      change Replies (.sql d) now .getActiveLeases s.toBoard (s.getActiveLeases d now).1
        (s.getActiveLeases d now).2.toBoard
      rw [getActiveLeases_eq]
      exact ⟨rfl, rfl⟩
  | unassignTask taskId =>
      refine ⟨rfl, fun h => ?_, fun h => ?_⟩
      · exact congrArg ClusterStore.toBoard (updateHit_false h)
      · obtain ⟨t, ht, hid, hopen, hfree⟩ := updateHit_true h
        have hget : s.tasks.get? taskId = some t := Table.get?_eq_some_iff.mpr ⟨ht, hid⟩
        refine ⟨fun _ l hl htask hlive => hfree ⟨l, hl, htask.trans hid.symm, hlive⟩,
          t, hget, hopen, ?_⟩
        refine (s.tasks.get?_updateWhere taskId _ (Task.unassign now) (fun _ => rfl)).trans ?_
        rw [hget, Option.map_some, if_pos ⟨hid, hopen, hfree⟩]
  | setTaskStatus taskId status failReason =>
      refine ⟨rfl, fun t ht _ => ?_⟩
      have hrow := s.tasks.get?_modify_self taskId (Task.withStatus now status failReason)
        (fun _ => rfl)
      rw [show s.tasks.get? taskId = some t from ht] at hrow
      exact hrow
  | requeueTask taskId reason =>
      intro h
      have hsame := updateHit_false h
      refine ⟨(congrArg (fun s : ClusterStore => s.tasks) hsame :), fun t ht => ?_⟩
      by_contra hnot
      obtain ⟨hopen, hcap⟩ := not_or.mp hnot
      have hhit := updateHit_of_meets (f := Task.requeue now reason) (fun _ => rfl)
        (p := fun t => ¬t.status.IsTerminal ∧ t.attempts < taskRetryLimit)
        (s := { s with
          leases := s.leases.updateWhere (fun l => l.taskId = taskId ∧ l.IsLive now)
            Lease.revoke Lease.keepsKey_revoke }) ht ⟨hopen, Nat.lt_of_not_le hcap⟩
      exact absurd (h.symm.trans (congrArg Prod.fst hhit)) Bool.false_ne_true
  | schedulePendingDetailed => exact ⟨_, passOf_schedulePendingDetailed d now s⟩
  | utcnow | getAllNodes | getDependents | getLeaseByTask | unleasedRunningTasks
  | createLease | revokeLease => rfl
  | _ => trivial

end ClusterStore

/-! ## The contract, with the clock -/

/-- The board of a store, with the clock readings still to come. -/
def Backend.view (k : Backend) (w : Program.Timed k.Store) : Program.Timed Board :=
  ⟨k.board w.state, w.clock⟩

/-- One operation at the next reading of the clock. -/
abbrev Backend.tick (k : Backend) : (op : StoreOp) → Program.Timed k.Store →
    op.Res × Program.Timed k.Store :=
  Program.timed k.step

structure Contract (k : Backend) (op : StoreOp) (w : Program.Timed Board) (r : op.Res)
    (w' : Program.Timed Board) : Prop where
  tasks : w.state.tasks.Evolves (Rewrites k (w.clock 0) w.state op)
    (Created k (w.clock 0) op) w'.state.tasks
  reply : Replies k (w.clock 0) op w.state r w'.state
  clock : w'.clock = fun i => w.clock (i + 1)

/-- What the backend does, as a contract. -/
def Backend.Does (k : Backend) (op : StoreOp) (w : Program.Timed k.Store) (r : op.Res)
    (w' : Program.Timed k.Store) : Prop :=
  r = (k.tick op w).1 ∧ w' = (k.tick op w).2

theorem Backend.implements_does (k : Backend) : Program.Implements k.tick id k.Does :=
  fun _ _ => ⟨rfl, rfl⟩

/-- Every backend keeps the contract. -/
theorem Backend.implements (k : Backend) :
    Program.Implements k.tick k.view (Contract k) := by
  intro op w
  refine ⟨k.evolves _ op w.state, ?_, rfl⟩
  cases k with
  | memory => exact ClusterState.reply _ op w.state
  | sql d => exact ClusterStore.reply d _ op w.state

end HermesCluster
