import HermesCluster.Lease.LeaseRows
/-!
# Extending a lease

`LeaseManager.extend` with the lock of the manager, which it holds from the lookup
to the revocation. The lookup calls the manager back for every lease that has
lapsed, and the callback takes the lock. An additional ttl is a length of time; a
registered callback only queues an event.
-/

namespace HermesCluster

open Program hiding pure bind

/-- A lease manager on its store, with the clock readings to come. -/
structure Manager (k : Backend) where
  store : Timed k.Store
  /-- `LeaseConfig.ttl`. -/
  ttl : Nat := leaseTtl
  totalExpired : Nat := 0
  /-- The task and the node that the registered callbacks were called with. -/
  notified : List (String × String) := []

namespace Manager

section Extend

variable [Unicode] {k : Backend}

omit [Unicode] in
/-- The stored leases. -/
def leases (m : Manager k) : Table Lease :=
  (k.board m.store.state).leases

/-- One operation of the store. -/
def perform (op : StoreOp) (m : Manager k) : op.Res × Manager k :=
  ((k.tick op m.store).1, { m with store := (k.tick op m.store).2 })

omit [Unicode] in
/-- `_on_lease_expired`, where `held` says whether whoever waits for the callback
holds the lock. It is not reentrant: a thread that holds it waits for itself. On
Postgres the callback runs on another thread, and its caller, which holds the lock,
waits for that thread. -/
def onLeaseExpired (held : Bool) (taskId nodeId : String) (m : Manager k) :
    Option (Manager k) :=
  if held = true then none
  else
    some { m with
      totalExpired := m.totalExpired + 1
      notified := m.notified ++ [(taskId, nodeId)] }

omit [Unicode] in
/-- The leases that `get_active_leases` marks as expired. -/
def lapsed (m : Manager k) : List Lease :=
  m.leases.rows.filter (fun l => decide (l.IsLapsed (m.store.clock 0)))

/-- `get_active_leases`, with a callback for every lease that it finds lapsed. -/
def getActiveLeases (held : Bool) (m : Manager k) : Option (List Lease × Manager k) :=
  (m.lapsed.foldlM (fun m l => onLeaseExpired held l.taskId l.nodeId m) m).map
    (perform .getActiveLeases)

/-- `list_active`, which is also a tick of the scanner. -/
def listActive (m : Manager k) : Option (List Lease × Manager k) :=
  getActiveLeases false m

omit [Unicode] in
/-- `additional_ttl or self._config.ttl`: a ttl of zero is none. -/
def effectiveTtl (additionalTtl : Option Nat) (m : Manager k) : Nat :=
  if additionalTtl.getD 0 = 0 then m.ttl else additionalTtl.getD 0

/-- What `extend` does with the active leases: the new lease is created before the
old one is revoked. -/
def replace (leaseId ttl : Nat) (activeLeases : List Lease) (m : Manager k) :
    Option Lease × Manager k :=
  match activeLeases.find? (fun l => decide (l.id = leaseId)) with
  | none => (none, m)
  | some lease =>
      let created := perform (.createLease lease.taskId lease.nodeId ttl) m
      let revoked := perform (.revokeLease leaseId) created.2
      (some created.1, revoked.2)

/-- `extend`, for the empty id if there is no id. The lock is held all the way. -/
def extend (leaseId additionalTtl : Option Nat) (m : Manager k) :
    Option (Option Lease × Manager k) :=
  match leaseId with
  | none => some (none, m)
  | some leaseId =>
      (getActiveLeases true m).map fun r =>
        replace leaseId (m.effectiveTtl additionalTtl) r.1 r.2

/-! ## What an extension is for -/

/-- The call comes back. If it succeeds, the lease was active and unexpired, and its
task has an active lease for the same node that ends no earlier; if it fails, the
active leases are the same. -/
def KeepsLease (leaseId additionalTtl : Option Nat) (m : Manager k) : Prop :=
  ∃ r, extend leaseId additionalTtl m = some r ∧
    (r.1.isSome = true → ∃ l ∈ m.leases.rows, leaseId = some l.id ∧
      l.IsLive (m.store.clock 0) ∧
      ∃ a ∈ r.2.leases.rows, a.taskId = l.taskId ∧ a.nodeId = l.nodeId ∧
        a.status = .active ∧ l.expiresAt ≤ a.expiresAt) ∧
    (r.1 = none → ∀ l : Lease,
      l ∈ r.2.leases.rows ∧ l.status = .active ↔ l ∈ m.leases.rows ∧ l.status = .active)

omit [Unicode] in
/-- No lease has lapsed when they are looked up, and the one to extend does not end
after the new one will, unless another lease of its task and node lasts as long. -/
def Extensible (leaseId additionalTtl : Option Nat) (m : Manager k) : Prop :=
  ∀ id, leaseId = some id →
    (∀ l ∈ m.leases.rows, ¬l.IsLapsed (m.store.clock 0)) ∧
    ∀ l ∈ m.leases.rows, l.id = id → l.status = .active →
      l.expiresAt ≤ m.store.clock 1 + m.effectiveTtl additionalTtl ∨
      ∃ a ∈ m.leases.rows, a.id ≠ id ∧ a.taskId = l.taskId ∧ a.nodeId = l.nodeId ∧
        a.status = .active ∧ l.expiresAt ≤ a.expiresAt

/-! ## The lookup -/

omit [Unicode] in
theorem mem_lapsed {m : Manager k} {l : Lease} :
    l ∈ m.lapsed ↔ l ∈ m.leases.rows ∧ l.IsLapsed (m.store.clock 0) := by
  rw [lapsed, List.mem_filter, decide_eq_true_iff]

omit [Unicode] in
theorem foldlM_onLeaseExpired_false (ls : List Lease) (m : Manager k) :
    ls.foldlM (fun m l => onLeaseExpired false l.taskId l.nodeId m) m =
      some { m with
        totalExpired := m.totalExpired + ls.length
        notified := m.notified ++ ls.map (fun l => (l.taskId, l.nodeId)) } := by
  induction ls generalizing m with
  | nil => simp
  | cons l ls ih =>
      rw [List.foldlM_cons]
      refine (ih _).trans ?_
      rw [List.map_cons, List.length_cons, List.append_assoc, List.singleton_append,
        Nat.add_assoc, Nat.add_comm 1]

omit [Unicode] in
theorem foldlM_onLeaseExpired_true (ls : List Lease) (m : Manager k) :
    ls.foldlM (fun m l => onLeaseExpired true l.taskId l.nodeId m) m =
      if ls = [] then some m else none := by
  cases ls with
  | nil => rfl
  | cons l ls => rfl

theorem listActive_eq (m : Manager k) :
    m.listActive = some (perform .getActiveLeases { m with
      totalExpired := m.totalExpired + m.lapsed.length
      notified := m.notified ++ m.lapsed.map (fun l => (l.taskId, l.nodeId)) }) := by
  unfold listActive getActiveLeases
  rw [foldlM_onLeaseExpired_false, Option.map_some]

theorem getActiveLeases_held (m : Manager k) :
    getActiveLeases true m =
      if m.lapsed = [] then some (perform .getActiveLeases m) else none := by
  unfold getActiveLeases
  rw [foldlM_onLeaseExpired_true]
  split <;> rfl

/-- Where nothing has lapsed, the lookup returns the active leases and changes
none. -/
theorem getActiveLeases_of_none {m : Manager k} (h : m.lapsed = []) :
    (perform .getActiveLeases m).1 =
        m.leases.rows.filter (fun l => decide (l.IsLive (m.store.clock 0))) ∧
      (perform .getActiveLeases m).2.leases = m.leases := by
  obtain ⟨hreply, hleases⟩ := k.getActiveLeases_step (m.store.clock 0) m.store.state
  refine ⟨hreply, hleases.trans (Table.updateWhere_eq_self (fun l hl hlapsed => ?_))⟩
  have hmem : l ∈ m.lapsed := mem_lapsed.mpr ⟨hl, hlapsed⟩
  rw [h] at hmem
  cases hmem

theorem extend_some (leaseId : Nat) (additionalTtl : Option Nat) (m : Manager k) :
    extend (some leaseId) additionalTtl m = (getActiveLeases true m).map fun r =>
      replace leaseId (m.effectiveTtl additionalTtl) r.1 r.2 :=
  rfl

/-! ## The replacement -/

omit [Unicode] in
theorem lapsed_eq_nil_iff {m : Manager k} :
    m.lapsed = [] ↔ ∀ l ∈ m.leases.rows, ¬l.IsLapsed (m.store.clock 0) := by
  rw [List.eq_nil_iff_forall_not_mem]
  refine forall_congr' (fun l => ?_)
  rw [mem_lapsed, not_and]

/-- A replacement adds a lease and revokes the one it is for. -/
theorem leases_replace (m : Manager k) {lease : Lease} (ttl : Nat)
    {activeLeases : List Lease}
    (hfind : activeLeases.find? (fun l => decide (l.id = lease.id)) = some lease) :
    (replace lease.id ttl activeLeases m).1.isSome = true ∧
      (replace lease.id ttl activeLeases m).2.leases =
        (addLease (m.store.clock 0) m.leases lease.taskId lease.nodeId ttl).modify lease.id
          Lease.revoke Lease.keepsKey_revoke := by
  unfold replace
  rw [hfind]
  refine ⟨rfl, (k.revokeLease_step _ lease.id _).trans ?_⟩
  exact congrArg (fun leases => leases.modify lease.id Lease.revoke Lease.keepsKey_revoke)
    (k.createLease_step (m.store.clock 0) lease.taskId lease.nodeId ttl m.store.state)

omit [Unicode] in
/-- The rows when a lease is added and another revoked. -/
theorem mem_addLease_revoke {now ttl : Nat} {leases : Table Lease} {lease a : Lease}
    (hlease : lease ∈ leases.rows) :
    a ∈ ((addLease now leases lease.taskId lease.nodeId ttl).modify lease.id Lease.revoke
        Lease.keepsKey_revoke).rows ↔
      a = newLease now leases lease.taskId lease.nodeId ttl ∨ a = lease.revoke ∨
        (a ∈ leases.rows ∧ a.id ≠ lease.id) := by
  have hnew : (newLease now leases lease.taskId lease.nodeId ttl).id ≠ lease.id :=
    Nat.ne_of_gt (lt_freshLeaseId hlease)
  have hone : ∀ l ∈ leases.rows, l.id = lease.id → l = lease := fun l hl hid =>
    List.inj_on_of_nodup_map leases.nodup hl hlease hid
  change a ∈ (leases.rows ++ [newLease now leases lease.taskId lease.nodeId ttl]).map
    (fun l => if l.id = lease.id then l.revoke else l) ↔ _
  rw [List.mem_map]
  constructor
  · rintro ⟨l, hl, rfl⟩
    rcases List.mem_append.mp hl with hl | hl
    · by_cases hid : l.id = lease.id
      · rw [if_pos hid, hone l hl hid]
        exact .inr (.inl rfl)
      · rw [if_neg hid]
        exact .inr (.inr ⟨hl, hid⟩)
    · rw [List.mem_singleton.mp hl, if_neg hnew]
      exact .inl rfl
  · rintro (rfl | rfl | ⟨ha, hid⟩)
    · exact ⟨_, List.mem_append_right _ (List.mem_singleton_self _), if_neg hnew⟩
    · exact ⟨lease, List.mem_append_left _ hlease, if_pos rfl⟩
    · exact ⟨a, List.mem_append_left _ ha, if_neg hid⟩

/-- What an extension returns once nothing has lapsed: nothing, and the leases as they
were, if the id is not one of an active lease; else a new lease in place of the
old. -/
theorem extend_cases (leaseId : Nat) (additionalTtl : Option Nat) {m : Manager k}
    (h : m.lapsed = []) :
    ∃ r, extend (some leaseId) additionalTtl m = some r ∧
      ((r.1 = none ∧ r.2.leases = m.leases ∧
          ∀ l ∈ m.leases.rows, l.id = leaseId → l.status ≠ .active) ∨
        ∃ l ∈ m.leases.rows, l.id = leaseId ∧ l.IsLive (m.store.clock 0) ∧
          r.1.isSome = true ∧
          r.2.leases = (addLease (m.store.clock 1) m.leases l.taskId l.nodeId
            (m.effectiveTtl additionalTtl)).modify l.id Lease.revoke Lease.keepsKey_revoke) := by
  have hlapsed := lapsed_eq_nil_iff.mp h
  obtain ⟨hreply, hsame⟩ := getActiveLeases_of_none h
  have hextend : extend (some leaseId) additionalTtl m =
      some (replace leaseId (m.effectiveTtl additionalTtl) (perform .getActiveLeases m).1
        (perform .getActiveLeases m).2) := by
    rw [extend_some, getActiveLeases_held, if_pos h, Option.map_some]
  refine ⟨_, hextend, ?_⟩
  rw [hreply]
  cases hfind : (m.leases.rows.filter (fun l => decide (l.IsLive (m.store.clock 0)))).find?
      (fun l => decide (l.id = leaseId)) with
  | none =>
      refine .inl ⟨?_, ?_, fun l hl hid hactive => ?_⟩
      · rw [replace, hfind]
      · rw [replace, hfind]
        exact hsame
      · have hlive : l.IsLive (m.store.clock 0) :=
          ⟨hactive, Nat.lt_of_not_le (fun hle => hlapsed l hl ⟨hactive, hle⟩)⟩
        have hmem : l ∈ m.leases.rows.filter
            (fun l => decide (l.IsLive (m.store.clock 0))) :=
          List.mem_filter.mpr ⟨hl, decide_eq_true hlive⟩
        exact List.find?_eq_none.mp hfind l hmem (decide_eq_true hid)
  | some lease =>
      obtain ⟨hlease, hlive⟩ := List.mem_filter.mp (List.mem_of_find?_eq_some hfind)
      have hid := List.find?_some hfind
      obtain rfl : lease.id = leaseId := of_decide_eq_true hid
      obtain ⟨hsome, hleases⟩ := leases_replace (perform .getActiveLeases m).2
        (m.effectiveTtl additionalTtl) hfind
      rw [hsame] at hleases
      exact .inr ⟨lease, hlease, rfl, of_decide_eq_true hlive, hsome, hleases⟩

/-- Where nothing has lapsed, the call is the program that the handlers run. -/
theorem extend_eq_run {leaseId : Nat} {m : Manager k} (h : m.lapsed = [])
    (httl : m.ttl = leaseTtl) :
    ∃ r, extend (some leaseId) none m = some r ∧
      (LeaseManager.extend leaseId).run k.tick m.store = (.ok r.1, r.2.store) := by
  have hextend : extend (some leaseId) none m =
      some (replace leaseId leaseTtl (perform .getActiveLeases m).1
        (perform .getActiveLeases m).2) := by
    rw [extend_some, getActiveLeases_held, if_pos h, Option.map_some]
    unfold effectiveTtl
    rw [httl]
    rfl
  refine ⟨_, hextend, ?_⟩
  rw [LeaseManager.extend_eq]
  change (LeaseManager.extendFrom leaseId ((perform .getActiveLeases m).1.find? _)).run k.tick
    (perform .getActiveLeases m).2.store = _
  unfold replace
  cases (perform .getActiveLeases m).1.find? (fun l => decide (l.id = leaseId)) with
  | none => rfl
  | some lease => rfl

/-! ## When an extension keeps the lease -/

/-- A lapsed lease of any task makes the call wait for the lock it holds. -/
theorem extend_eq_none {leaseId : Nat} {additionalTtl : Option Nat} {m : Manager k}
    {l : Lease} (hl : l ∈ m.leases.rows) (hlapsed : l.IsLapsed (m.store.clock 0)) :
    extend (some leaseId) additionalTtl m = none := by
  have hne : m.lapsed ≠ [] := List.ne_nil_of_mem (mem_lapsed.mpr ⟨hl, hlapsed⟩)
  rw [extend_some, getActiveLeases_held, if_neg hne, Option.map_none]

/-- The extension is safe exactly if nothing has lapsed when it looks, and the lease
would not have lasted longer than the new one. -/
theorem keepsLease_iff (leaseId additionalTtl : Option Nat) (m : Manager k) :
    KeepsLease leaseId additionalTtl m ↔ Extensible leaseId additionalTtl m := by
  cases leaseId with
  | none =>
      refine iff_of_true ⟨(none, m), rfl, fun h => ?_, fun _ _ => Iff.rfl⟩ (fun id h => ?_)
      · cases h
      · cases h
  | some id =>
      by_cases hlapsed : m.lapsed = []
      · obtain ⟨r, hr, ⟨hnone, hsame, hinactive⟩ | ⟨l, hl, rfl, hlive, hsome, hleases⟩⟩ :=
          extend_cases id additionalTtl hlapsed
        · refine iff_of_true ⟨r, hr, fun h => ?_, fun _ l => by rw [hsame]⟩ ?_
          · rw [hnone] at h
            cases h
          · intro id' hid'
            cases hid'
            refine ⟨lapsed_eq_nil_iff.mp hlapsed, fun l hl hid hactive => ?_⟩
            exact absurd hactive (hinactive l hl hid)
        · refine ⟨fun ⟨r', hr', hkept, _⟩ id' hid' => ?_, fun hext => ?_⟩
          · cases hid'
            rw [hr] at hr'
            cases hr'
            refine ⟨lapsed_eq_nil_iff.mp hlapsed, fun l' hl' hid' hactive => ?_⟩
            obtain rfl : l' = l := List.inj_on_of_nodup_map m.leases.nodup hl' hl hid'
            obtain ⟨old, hold, hid, -, a, ha, htask, hnode, hstatus, hle⟩ := hkept hsome
            obtain rfl : old = l' := List.inj_on_of_nodup_map m.leases.nodup hold hl
              (Option.some.inj hid).symm
            rw [hleases] at ha
            rcases (mem_addLease_revoke hl).mp ha with rfl | rfl | ⟨hmem, hne⟩
            · exact .inl hle
            · cases hstatus
            · exact .inr ⟨a, hmem, hne, htask, hnode, hstatus, hle⟩
          · refine ⟨r, hr, fun _ => ⟨l, hl, rfl, hlive, ?_⟩, fun hnone => ?_⟩
            · rw [hleases]
              rcases (hext l.id rfl).2 l hl rfl hlive.1 with hle | ⟨a, ha, hne, hsame⟩
              · exact ⟨_, (mem_addLease_revoke hl).mpr (.inl rfl), rfl, rfl, rfl, hle⟩
              · exact ⟨a, (mem_addLease_revoke hl).mpr (.inr (.inr ⟨ha, hne⟩)), hsame⟩
            · rw [hnone] at hsome
              cases hsome
      · obtain ⟨l, hl⟩ := List.exists_mem_of_ne_nil _ hlapsed
        obtain ⟨hmem, hl⟩ := mem_lapsed.mp hl
        refine iff_of_false ?_ (fun h => (h id rfl).1 l hmem hl)
        rintro ⟨r, hr, -⟩
        rw [extend_eq_none hmem hl] at hr
        cases hr

end Extend

section Examples

local instance asciiExtension : Unicode := Unicode.ascii

/-- After six seconds a lease of five seconds has lapsed; another one has not. -/
def lapsedBeside : Manager .memory where
  store :=
    { state :=
        { leases := ⟨[
            { id := 0, taskId := "a", nodeId := "n", createdAt := 0, expiresAt := 5000000 },
            { id := 1, taskId := "b", nodeId := "n", createdAt := 0, expiresAt := 60000000 }],
            by decide⟩
          index_ok := indexOk_empty _ }
      clock := fun _ => 6000000 }

/-- A lease of an hour, after a second. -/
def hourLease : Manager .memory where
  store :=
    { state :=
        { leases := .single
            { id := 0, taskId := "a", nodeId := "n", createdAt := 0, expiresAt := 3600000000 }
          index_ok := indexOk_empty _ }
      clock := fun _ => 1000000 }

/-- The lapsed lease of one task blocks the extension of another's, and the lease of
an hour is cut to a minute. -/
theorem extension_loses_lease :
    ¬KeepsLease (some 1) none lapsedBeside ∧ ¬KeepsLease (some 0) none hourLease := by
  constructor
  · rintro ⟨r, hr, -⟩
    rw [extend_eq_none (l := ⟨0, "a", "n", 0, 5000000, .active⟩) (by decide) (by decide)] at hr
    cases hr
  · rintro ⟨r, hr, hkept, -⟩
    have hrun : (extend (some 0) none hourLease).map (fun r => (r.1.isSome, r.2.leases.rows)) =
        some (true, [⟨0, "a", "n", 0, 3600000000, .revoked⟩,
          ⟨1, "a", "n", 1000000, 61000000, .active⟩]) := by
      decide +kernel
    rw [hr, Option.map_some] at hrun
    obtain ⟨hsome, hrows⟩ := Prod.mk.inj (Option.some.inj hrun)
    obtain ⟨l, hl, -, -, a, ha, -, -, hstatus, hle⟩ := hkept hsome
    obtain rfl := List.mem_singleton.mp hl
    rw [hrows] at ha
    rcases List.mem_pair.mp ha with rfl | rfl
    · cases hstatus
    · exact absurd hle (by decide)

end Examples

end Manager

end HermesCluster
