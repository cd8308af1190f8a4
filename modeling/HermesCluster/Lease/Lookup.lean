import HermesCluster.Lease.Extension
import HermesCluster.Lease.Statements
/-!
# Looking a lease up by its task

The in-memory store under a lease manager, through any sequence of calls. An index
names the lease of a task that was created last, until one of its leases is revoked;
the lookup does not look at the time, and a lease that has lapsed is active until a
call of `get_active_leases` sees it.
-/

namespace HermesCluster

/-- A call on the store or on its manager; the clock is read by each. -/
inductive LeaseCall where
  /-- `create_lease`, for any length of time. -/
  | create (taskId nodeId : String) (ttl : Int)
  /-- `revoke_lease`. -/
  | revoke (leaseId : Nat)
  | extend (leaseId additionalTtl : Option Nat)
  | getActiveLeases

namespace LeaseCall

/-- The call reads which leases are active and marks the others. -/
def Sweeps : LeaseCall → Prop
  | .extend leaseId _ => leaseId.isSome = true
  | .getActiveLeases => True
  | _ => False

/-- `create_lease` with the time it reads. -/
def createLease (now : Nat) (taskId nodeId : String) (ttl : Int) (s : ClusterState) :
    ClusterState :=
  { s with
    leases := LeaseRun.insert taskId nodeId now (now + ttl).toNat s.leases
    taskLeaseIndex := s.taskLeaseIndex.upsert ⟨taskId, freshLeaseId s.leases⟩
    index_ok := s.index_ok.append _ _ }

variable [Unicode]

/-- One call; there is nothing after a call that does not come back. -/
def step (m : Manager .memory) : LeaseCall → Option (Manager .memory)
  | .create taskId nodeId ttl =>
      some { m with
        store :=
          ⟨createLease (m.store.clock 0) taskId nodeId ttl m.store.state,
            fun i => m.store.clock (i + 1)⟩ }
  | .revoke leaseId => some (m.perform (.revokeLease leaseId)).2
  | .extend leaseId additionalTtl => (m.extend leaseId additionalTtl).map Prod.snd
  | .getActiveLeases => m.listActive.map Prod.snd

def run (calls : List LeaseCall) (m : Manager .memory) : Option (Manager .memory) :=
  calls.foldlM step m

end LeaseCall

/-! ## What becomes of a lease -/

/-- A lease is kept with its expiry, and becomes active only by being created. -/
structure Ages (leases leases' : Table Lease) : Prop where
  kept : ∀ l ∈ leases.rows, ∃ l' ∈ leases'.rows, l'.id = l.id
  aged : ∀ l ∈ leases.rows, ∀ l' ∈ leases'.rows, l'.id = l.id →
    l'.expiresAt = l.expiresAt ∧ (l'.status = .active → l.status = .active)

theorem Ages.refl (leases : Table Lease) : Ages leases leases where
  kept := fun l hl => ⟨l, hl, rfl⟩
  aged := by
    intro l hl l' hl' hid
    obtain rfl : l' = l := Table.eq_of_mem_of_key_eq hl' hl hid
    exact ⟨rfl, id⟩

theorem Ages.trans {leases leases' leases'' : Table Lease} (h : Ages leases leases')
    (h' : Ages leases' leases'') : Ages leases leases'' where
  kept := by
    intro l hl
    obtain ⟨l', hl', hid⟩ := h.kept l hl
    obtain ⟨l'', hl'', hid'⟩ := h'.kept l' hl'
    exact ⟨l'', hl'', hid'.trans hid⟩
  aged := by
    intro l hl l'' hl'' hid
    obtain ⟨l', hl', hid'⟩ := h.kept l hl
    obtain ⟨hexpiry, hactive⟩ := h.aged l hl l' hl' hid'
    obtain ⟨hexpiry', hactive'⟩ := h'.aged l' hl' l'' hl'' (hid.trans hid'.symm)
    exact ⟨hexpiry'.trans hexpiry, fun hl => hactive (hactive' hl)⟩

theorem Ages.of_append {leases : Table Lease} {new : Lease}
    (h : leases.get? new.id = none) : Ages leases (leases.append new h) where
  kept := fun l hl => ⟨l, List.mem_append_left _ hl, rfl⟩
  aged := by
    intro l hl l' hl' hid
    rcases List.mem_append.mp hl' with hl' | hl'
    · exact (Ages.refl leases).aged l hl l' hl' hid
    · rw [List.mem_singleton.mp hl'] at hid
      exact absurd hid.symm (Table.get?_eq_none_iff.mp h l hl)

theorem Ages.of_updateWhere {leases : Table Lease} {p : Lease → Prop} [DecidablePred p]
    {f : Lease → Lease} (hf : Table.KeepsKey f) (hexpiry : ∀ l, (f l).expiresAt = l.expiresAt)
    (hactive : ∀ l, (f l).status ≠ .active) : Ages leases (leases.updateWhere p f hf) where
  kept := by
    intro l hl
    refine ⟨_, List.mem_map_of_mem hl, ?_⟩
    split
    · exact hf l
    · rfl
  aged := by
    intro l hl l' hl' hid
    obtain ⟨m, hm, rfl⟩ := List.mem_map.mp hl'
    by_cases hp : p m
    · rw [if_pos hp] at hid ⊢
      obtain rfl : m = l := Table.eq_of_mem_of_key_eq hm hl ((hf m).symm.trans hid)
      exact ⟨hexpiry m, fun h => absurd h (hactive m)⟩
    · rw [if_neg hp] at hid ⊢
      exact (Ages.refl leases).aged l hl m hm hid

/-! ## One call -/

namespace LeaseCall

section Calls

variable [Unicode] {m m' : Manager .memory} {c : LeaseCall}

theorem leases_listActive (h : m.listActive.map Prod.snd = some m') :
    m'.leases = m.leases.updateWhere (Lease.IsLapsed (m.store.clock 0)) Lease.expire
      Lease.keepsKey_expire := by
  rw [Manager.listActive_eq] at h
  cases h
  exact (Backend.memory.getActiveLeases_step (m.store.clock 0) m.store.state).2

theorem lapsed_of_extend {leaseId : Nat} {additionalTtl : Option Nat}
    (h : (m.extend (some leaseId) additionalTtl).map Prod.snd = some m') : m.lapsed = [] := by
  by_contra hlapsed
  obtain ⟨l, hl⟩ := List.exists_mem_of_ne_nil _ hlapsed
  obtain ⟨hmem, hl⟩ := Manager.mem_lapsed.mp hl
  rw [Manager.extend_eq_none hmem hl] at h
  cases h

theorem ages_step (h : step m c = some m') : Ages m.leases m'.leases := by
  have hrevoke : ∀ (leases : Table Lease) (leaseId : Nat),
      Ages leases (leases.modify leaseId Lease.revoke Lease.keepsKey_revoke) := fun _ _ =>
    .of_updateWhere Lease.keepsKey_revoke (fun _ => rfl) (fun _ => LeaseStatus.noConfusion)
  cases c with
  | create taskId nodeId ttl =>
      cases h
      exact .of_append (get?_freshLeaseId m.leases)
  | revoke leaseId =>
      cases h
      have hleases := Backend.memory.revokeLease_step (m.store.clock 0) leaseId m.store.state
      change Ages m.leases (Backend.memory.board _).leases
      exact hleases ▸ hrevoke m.leases leaseId
  | getActiveLeases =>
      rw [leases_listActive h]
      exact .of_updateWhere Lease.keepsKey_expire (fun _ => rfl) (fun _ => LeaseStatus.noConfusion)
  | extend leaseId additionalTtl =>
      cases leaseId with
      | none =>
          cases h
          exact .refl _
      | some leaseId =>
          obtain ⟨r, hr, ⟨-, hsame, -⟩ | ⟨l, -, -, -, -, hleases⟩⟩ :=
            Manager.extend_cases leaseId additionalTtl (lapsed_of_extend h)
          · change (m.extend (some leaseId) additionalTtl).map Prod.snd = some m' at h
            rw [hr] at h
            cases h
            rw [hsame]
            exact .refl m.leases
          · change (m.extend (some leaseId) additionalTtl).map Prod.snd = some m' at h
            rw [hr] at h
            cases h
            rw [hleases]
            exact (Ages.of_append (get?_freshLeaseId m.leases)).trans (hrevoke _ l.id)

/-- After a sweep an active lease that was stored before it is unexpired at its
time. -/
theorem unexpired_step (h : step m c = some m') (hsweeps : c.Sweeps) {l l' : Lease}
    (hl : l ∈ m.leases.rows) (hl' : l' ∈ m'.leases.rows) (hid : l'.id = l.id)
    (hactive : l'.status = .active) : m.store.clock 0 < l'.expiresAt := by
  cases c with
  | create | revoke => exact hsweeps.elim
  | getActiveLeases =>
      rw [leases_listActive h] at hl'
      obtain ⟨n, -, rfl⟩ := List.mem_map.mp hl'
      by_cases hlapsed : n.IsLapsed (m.store.clock 0)
      · rw [if_pos hlapsed] at hactive
        cases hactive
      · rw [if_neg hlapsed] at hactive ⊢
        exact Nat.lt_of_not_le (fun hle => hlapsed ⟨hactive, hle⟩)
  | extend leaseId additionalTtl =>
      cases leaseId with
      | none => cases hsweeps
      | some leaseId =>
          have hlapsed := Manager.lapsed_eq_nil_iff.mp (lapsed_of_extend h) l hl
          obtain ⟨hexpiry, hstatus⟩ := (ages_step h).aged l hl l' hl' hid
          rw [hexpiry]
          exact Nat.lt_of_not_le (fun hle => hlapsed ⟨hstatus hactive, hle⟩)

/-! ## Any sequence of calls -/

theorem ages_run {calls : List LeaseCall} (h : run calls m = some m') :
    Ages m.leases m'.leases := by
  induction calls generalizing m with
  | nil =>
      cases h
      exact .refl _
  | cons c calls ih =>
      obtain ⟨m₁, hstep, hrest⟩ := Option.bind_eq_some_iff.mp h
      exact (ages_step hstep).trans (ih hrest)

/-- A lookup by the id of a task finds a lease if and only if the task has one that is
active, and it finds such a lease; and the lease it finds was unexpired at every sweep
since it was created. -/
theorem getLeaseByTask_of_run {calls : List LeaseCall} (h : run calls m = some m')
    {taskId : String} (hne : taskId ≠ "") :
    ((m'.store.state.getLeaseByTask taskId).isSome = true ↔
        ∃ l ∈ m'.leases.rows, l.taskId = taskId ∧ l.status = .active) ∧
      ∀ l, m'.store.state.getLeaseByTask taskId = some l →
        l ∈ m'.leases.rows ∧ l.taskId = taskId ∧ l.status = .active ∧
        ∀ before c after m₁, calls = before ++ c :: after → run before m = some m₁ →
          c.Sweeps → (∃ l₁ ∈ m₁.leases.rows, l₁.id = l.id) →
          m₁.store.clock 0 < l.expiresAt := by
  refine ⟨ClusterState.isSome_getLeaseByTask.trans (and_iff_right hne), fun l hl => ?_⟩
  obtain ⟨hmem, htask, hactive⟩ := ClusterState.getLeaseByTask_some hl
  refine ⟨hmem, htask, hactive, ?_⟩
  rintro before c after m₁ rfl hbefore hsweeps ⟨l₁, hl₁, hid⟩
  unfold run at h hbefore
  rw [List.foldlM_append, hbefore, Option.bind_eq_bind, Option.bind_some] at h
  obtain ⟨m₂, hstep, hafter⟩ := Option.bind_eq_some_iff.mp h
  obtain ⟨l₂, hl₂, hid₂⟩ := (ages_step hstep).kept l₁ hl₁
  obtain ⟨hexpiry, hstatus⟩ := (ages_run hafter).aged l₂ hl₂ l hmem (hid.symm.trans hid₂.symm)
  rw [hexpiry]
  exact unexpired_step hstep hsweeps hl₁ hl₂ hid₂ (hstatus hactive)

end Calls

section Examples

local instance asciiLookup : Unicode := Unicode.ascii

/-- An empty store, whose clock stands at six seconds from the third call on. -/
def sixSeconds : Manager .memory where
  store := ⟨ClusterState.empty, fun i => if i < 2 then 0 else 6000000⟩

theorem getLeaseByTask_of_run_sixSeconds :
    let calls := [.create "t" "n" 60000000, .getActiveLeases]
    ∃ m', run calls sixSeconds = some m' ∧
      ((m'.store.state.getLeaseByTask "t").isSome = true ↔
        ∃ l ∈ m'.leases.rows, l.taskId = "t" ∧ l.status = .active) ∧
      ∀ l, m'.store.state.getLeaseByTask "t" = some l →
        l ∈ m'.leases.rows ∧ l.taskId = "t" ∧ l.status = .active ∧
        ∀ before c after m₁, calls = before ++ c :: after → run before sixSeconds = some m₁ →
          c.Sweeps → (∃ l₁ ∈ m₁.leases.rows, l₁.id = l.id) →
          m₁.store.clock 0 < l.expiresAt :=
  ⟨_, rfl, getLeaseByTask_of_run rfl (by decide)⟩

/-- The second lease of a task has lapsed and is found instead of the first, which is
still live; and no lease is found under the empty id. -/
theorem lapsed_lease_found :
    (∃ m', run [.create "t" "n" 60000000, .create "t" "n" 5000000] sixSeconds = some m' ∧
      (∃ l ∈ m'.leases.rows, l.taskId = "t" ∧ l.IsLive (m'.store.clock 0)) ∧
      ∃ l, m'.store.state.getLeaseByTask "t" = some l ∧ ¬l.IsLive (m'.store.clock 0)) ∧
    ∃ m', run [.create "" "n" 60000000] sixSeconds = some m' ∧
      (∃ l ∈ m'.leases.rows, l.taskId = "" ∧ l.status = .active) ∧
      m'.store.state.getLeaseByTask "" = none := by
  refine ⟨⟨_, rfl, ⟨⟨0, "t", "n", 0, 60000000, .active⟩, ?_, rfl, ?_⟩,
    ⟨1, "t", "n", 0, 5000000, .active⟩, ?_, ?_⟩, _, rfl,
    ⟨⟨0, "", "n", 0, 60000000, .active⟩, ?_, rfl, rfl⟩, rfl⟩
  · decide
  · decide
  · decide
  · decide
  · decide

end Examples

end LeaseCall

end HermesCluster
