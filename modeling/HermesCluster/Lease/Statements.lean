import HermesCluster.Lease.LeaseRows
/-!
# The statements behind the lease operations

Any number of callers on one store, one statement at a time. On the SQL stores
`get_active_leases` reads the active leases in one statement and marks the lapsed
ones in a later one; in memory it does both under the lock of the leases.
-/

namespace HermesCluster

/-- The leases of a store, and what each caller has read and not yet marked. -/
structure LeaseRun where
  leases : Table Lease
  expiredIds : Nat → List Nat := fun _ => []

/-- One statement of a caller. The ttl may be any, so the expiry is any time. -/
inductive LeaseStatement where
  /-- `create_lease`. -/
  | insert (taskId nodeId : String) (createdAt expiresAt : Nat)
  /-- `revoke_lease`. -/
  | revoke (leaseId : Nat)
  /-- `get_active_leases` begins, with the time it compares with. -/
  | select (caller now : Nat)
  /-- `get_active_leases` ends. -/
  | mark (caller : Nat)

namespace LeaseRun

def insert (taskId nodeId : String) (createdAt expiresAt : Nat) (leases : Table Lease) :
    Table Lease :=
  leases.append
    { id := freshLeaseId leases, taskId := taskId, nodeId := nodeId, createdAt := createdAt
      expiresAt := expiresAt }
    (get?_freshLeaseId leases)

def step (k : Backend) (s : LeaseRun) : LeaseStatement → LeaseRun
  | .insert taskId nodeId createdAt expiresAt =>
      { s with leases := insert taskId nodeId createdAt expiresAt s.leases }
  | .revoke leaseId =>
      { s with leases := s.leases.modify leaseId Lease.revoke Lease.keepsKey_revoke }
  | .select caller now =>
      match k with
      | .memory =>
          { s with
            leases := s.leases.updateWhere (Lease.IsLapsed now) Lease.expire
              Lease.keepsKey_expire }
      | .sql _ =>
          let lapsed := s.leases.rows.filter (fun l => decide (l.IsLapsed now))
          { s with expiredIds := Function.update s.expiredIds caller (lapsed.map Lease.id) }
  | .mark caller =>
      match k with
      | .memory => s
      -- only Postgres looks at the status again
      | .sql d =>
          { leases := s.leases.updateWhere
              (fun l => l.id ∈ s.expiredIds caller ∧ (d = .postgres → l.status = .active))
              Lease.expire Lease.keepsKey_expire
            expiredIds := Function.update s.expiredIds caller [] }

def run (k : Backend) (xs : List LeaseStatement) (s : LeaseRun) : LeaseRun :=
  xs.foldl (step k) s

/-- A revoked lease stays revoked, and an expired one does not become active. -/
def Advances (leases leases' : Table Lease) : Prop :=
  ∀ l ∈ leases.rows, ∃ l' ∈ leases'.rows, l'.id = l.id ∧
    (l.status = .revoked → l'.status = .revoked) ∧
    (l.status = .expired → l'.status ≠ .active)

/-- The leases only advance, from any point of the run to any later one. -/
def Monotone (k : Backend) (xs : List LeaseStatement) (s : LeaseRun) : Prop :=
  ∀ before between after, xs = before ++ (between ++ after) →
    Advances (run k before s).leases (run k (before ++ between) s).leases

/-- No lease that the caller has read is revoked by now. -/
def Unrevoked (caller : Nat) (s : LeaseRun) : Prop :=
  ∀ l ∈ s.leases.rows, l.id ∈ s.expiredIds caller → l.status ≠ .revoked

/-! ## Leases that advance -/

theorem Advances.refl (leases : Table Lease) : Advances leases leases := by
  intro l hl
  refine ⟨l, hl, rfl, id, fun hexpired hactive => ?_⟩
  rw [hexpired] at hactive
  cases hactive

theorem Advances.trans {leases leases' leases'' : Table Lease} (h : Advances leases leases')
    (h' : Advances leases' leases'') : Advances leases leases'' := by
  intro l hl
  obtain ⟨l', hl', hid, hrevoked, hexpired⟩ := h l hl
  obtain ⟨l'', hl'', hid', hrevoked', hexpired'⟩ := h' l' hl'
  refine ⟨l'', hl'', hid'.trans hid, fun hl => hrevoked' (hrevoked hl), fun hl => ?_⟩
  cases hstatus : l'.status with
  | active => exact absurd hstatus (hexpired hl)
  | expired => exact hexpired' hstatus
  | revoked =>
      rw [hrevoked' hstatus]
      exact LeaseStatus.noConfusion

theorem Advances.of_append {leases : Table Lease} {l : Lease} (h : leases.get? l.id = none) :
    Advances leases (leases.append l h) := by
  intro m hm
  obtain ⟨m', hm', hadvances⟩ := Advances.refl leases m hm
  exact ⟨m', List.mem_append_left _ hm', hadvances⟩

/-- Rewriting rows, none of them revoked unless it stays so, and none to active. -/
theorem Advances.of_updateWhere {leases : Table Lease} {p : Lease → Prop} [DecidablePred p]
    {f : Lease → Lease} (hf : Table.KeepsKey f)
    (hrevoked : ∀ l ∈ leases.rows, p l → l.status = .revoked → (f l).status = .revoked)
    (hactive : ∀ l, (f l).status ≠ .active) :
    Advances leases (leases.updateWhere p f hf) := by
  intro l hl
  refine ⟨_, List.mem_map_of_mem hl, ?_⟩
  by_cases hp : p l
  · rw [if_pos hp]
    exact ⟨hf l, hrevoked l hl hp, fun _ => hactive l⟩
  · rw [if_neg hp]
    refine ⟨rfl, id, fun hexpired hactive => ?_⟩
    rw [hexpired] at hactive
    cases hactive

/-! ## One statement -/

variable {k : Backend} {s : LeaseRun}

/-- Only an update of SQLite can take a lease back, and only one that was revoked
after it was read. -/
theorem advances_step {st : LeaseStatement}
    (h : ∀ caller, st = .mark caller → k = .sql .sqlite → Unrevoked caller s) :
    Advances s.leases (step k s st).leases := by
  have hexpire : ∀ l : Lease, l.expire.status ≠ .active := fun _ => LeaseStatus.noConfusion
  cases st with
  | insert taskId nodeId createdAt expiresAt => exact .of_append (get?_freshLeaseId s.leases)
  | revoke leaseId =>
      exact .of_updateWhere Lease.keepsKey_revoke (fun _ _ _ _ => rfl)
        (fun _ => LeaseStatus.noConfusion)
  | select caller now =>
      cases k with
      | sql d => exact .refl s.leases
      | memory =>
          refine .of_updateWhere Lease.keepsKey_expire (fun l _ hlapsed hrevoked => ?_) hexpire
          rw [hlapsed.1] at hrevoked
          cases hrevoked
  | mark caller =>
      cases k with
      | memory => exact .refl s.leases
      | sql d =>
          refine .of_updateWhere Lease.keepsKey_expire (fun l hl hmarked hrevoked => ?_) hexpire
          cases d with
          | sqlite => exact absurd hrevoked (h caller rfl rfl l hl hmarked.1)
          | postgres =>
              rw [hmarked.2 rfl] at hrevoked
              cases hrevoked

/-- An update of SQLite that finds a lease revoked makes it expired. -/
theorem unrevoked_of_advances {caller : Nat}
    (h : Advances s.leases (step (.sql .sqlite) s (.mark caller)).leases) :
    Unrevoked caller s := by
  intro l hl hread hrevoked
  obtain ⟨l', hl', hid, hstays, -⟩ := h l hl
  obtain ⟨m, hm, rfl⟩ := List.mem_map.mp hl'
  have hstays := hstays hrevoked
  by_cases hmarked : m.id ∈ s.expiredIds caller ∧ (SqlDialect.sqlite = .postgres →
      m.status = .active)
  · rw [if_pos hmarked] at hstays
    cases hstays
  · rw [if_neg hmarked] at hid
    refine hmarked ⟨?_, SqlDialect.noConfusion⟩
    rw [hid]
    exact hread

/-! ## Any interleaving -/

theorem run_append (xs ys : List LeaseStatement) (s : LeaseRun) :
    run k (xs ++ ys) s = run k ys (run k xs s) :=
  List.foldl_append

theorem advances_run {xs : List LeaseStatement}
    (h : ∀ before caller after, xs = before ++ .mark caller :: after → k = .sql .sqlite →
      Unrevoked caller (run k before s)) :
    Advances s.leases (run k xs s).leases := by
  induction xs generalizing s with
  | nil => exact .refl s.leases
  | cons st xs ih =>
      have hfirst : Advances s.leases (step k s st).leases :=
        advances_step (fun caller hst => h [] caller xs (by rw [hst, List.nil_append]))
      refine hfirst.trans (ih (fun before caller after hxs => ?_))
      exact h (st :: before) caller after (by rw [hxs, List.cons_append])

/-- From any leases and any unfinished reads, an interleaving keeps the leases
advancing exactly if no update of SQLite finds a lease revoked that its caller has
read as lapsed. -/
theorem monotone_iff (k : Backend) (xs : List LeaseStatement) (s : LeaseRun) :
    Monotone k xs s ↔
      (k = .sql .sqlite → ∀ before caller after, xs = before ++ .mark caller :: after →
        Unrevoked caller (run k before s)) := by
  constructor
  · rintro h rfl before caller after rfl
    refine unrevoked_of_advances ?_
    have hstep := h before [.mark caller] after rfl
    rwa [run_append] at hstep
  · rintro h before between after rfl
    rw [run_append]
    refine advances_run (fun before' caller after' hbetween hk => ?_)
    rw [← run_append]
    refine h hk (before ++ before') caller (after' ++ after) ?_
    rw [hbetween, List.append_assoc, List.append_assoc, List.cons_append]

/-! ## A call that is not interrupted -/

section Store

variable [Unicode] {now : Nat} (w : k.Store) (expiredIds : Nat → List Nat)

/-- The statements of `create_lease`, of `revoke_lease` and of `get_active_leases`,
one right after the other, do what the operation of the store does. -/
theorem run_createLease (taskId nodeId : String) (ttl : Nat) :
    (run k [.insert taskId nodeId now (now + ttl)] ⟨(k.board w).leases, expiredIds⟩).leases =
      (k.board (k.step now (.createLease taskId nodeId ttl) w).2).leases :=
  (k.createLease_step now taskId nodeId ttl w).symm

theorem run_revokeLease (leaseId : Nat) :
    (run k [.revoke leaseId] ⟨(k.board w).leases, expiredIds⟩).leases =
      (k.board (k.step now (.revokeLease leaseId) w).2).leases :=
  (k.revokeLease_step now leaseId w).symm

theorem run_getActiveLeases (caller : Nat) :
    (run k [.select caller now, .mark caller] ⟨(k.board w).leases, expiredIds⟩).leases =
      (k.board (k.step now .getActiveLeases w).2).leases := by
  refine Eq.trans ?_ (k.getActiveLeases_step now w).2.symm
  cases k with
  | memory => rfl
  | sql d =>
      refine Table.updateWhere_congr (fun l hl => ?_)
      change l.id ∈ Function.update expiredIds caller _ caller ∧ _ ↔ _
      rw [Function.update_self, List.mem_map]
      constructor
      · rintro ⟨⟨m, hm, hid⟩, -⟩
        obtain ⟨hmem, hlapsed⟩ := List.mem_filter.mp hm
        obtain rfl := List.inj_on_of_nodup_map (Table.nodup _) hmem hl hid
        exact of_decide_eq_true hlapsed
      · intro hlapsed
        exact ⟨⟨l, List.mem_filter.mpr ⟨hl, decide_eq_true hlapsed⟩, rfl⟩, fun _ => hlapsed.1⟩

end Store

/-! ## A revocation that is lost -/

/-- A lease that has lapsed at the time 2. -/
def oneLapsed : LeaseRun where
  leases := .single { id := 0, taskId := "t", nodeId := "n", createdAt := 0, expiresAt := 2 }

/-- SQLite marks a lease as expired that was revoked after it was read. -/
theorem revocation_lost :
    ¬Monotone (.sql .sqlite) [.select 0 2, .revoke 0, .mark 0] oneLapsed := by
  intro h
  obtain ⟨l, hl, -, hrevoked, -⟩ := h [.select 0 2, .revoke 0] [.mark 0] [] rfl
    ⟨0, "t", "n", 0, 2, .revoked⟩ (by decide)
  have hall : ∀ l ∈ (run (.sql .sqlite) [.select 0 2, .revoke 0, .mark 0] oneLapsed).leases.rows,
      l.status = .expired := by decide
  have hexpired := hall l hl
  rw [hrevoked rfl] at hexpired
  cases hexpired

end LeaseRun

end HermesCluster
