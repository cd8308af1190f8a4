import HermesCluster.Recovery.Pipeline
/-!
# What recovery and the TTL sweep leave alone

`trigger_recovery` works from the leases of a node and asks of a task only
whether it has ended and who holds it; `detect_expired_leases` recovers every
node that holds an expired lease, with all of that node's leases.
-/

namespace HermesCluster

open Program hiding pure bind

/-! ## One recovery -/

section Recovery

variable [Unicode]

/-- `trigger_recovery`, whatever the store and the clock, adds and drops no task
and keeps every row, but for a task that was orphaned, and a ready task that the
schedule pass placed. It leaves no lease of the node unrevoked. -/
theorem triggerRecovery_touches (k : Backend) (nodeId : String) (w : Timed k.Store) :
    let w' := ((Recovery.triggerRecovery nodeId).run k.tick w).2
    List.Forall₂ (fun t t' => t'.id = t.id ∧ RecoveredRow nodeId (k.view w) t t')
        (k.board w.state).tasks.rows (k.board w'.state).tasks.rows ∧
      ∀ l ∈ (k.board w.state).leases.rows, l.nodeId = nodeId → l.status ≠ .revoked →
        RevokedIn (k.board w'.state) l.id := by
  obtain ⟨summary, -, h⟩ := (along_of_wp k.implements
    (meets_triggerRecovery (k := k) (c := .recover nodeId) (k.view w) rfl)).2
  exact ⟨h.rows.imp (fun _ _ hrow => ⟨hrow.1.gate.id, hrow.2⟩), h.revoked⟩

end Recovery

/-! ## The sweep -/

/-- A node holds a lease whose time has passed, marked or not. -/
def HoldsExpired (now : Nat) (b : Board) (nodeId : String) : Prop :=
  ∃ l ∈ b.leases.rows, l.nodeId = nodeId ∧ (l.status = .expired ∨ l.IsLapsed now)

/-- A task that the sweep may touch: it is ready, or it is open and a lease of a
node that holds an expired one names it. -/
def Sweepable (now : Nat) (b : Board) (t : Task) : Prop :=
  t.status = .ready ∨ (¬t.status.IsTerminal ∧ ∃ l ∈ b.leases.rows,
    l.taskId = t.id ∧ l.status ≠ .revoked ∧ HoldsExpired now b l.nodeId)

/-- A task under a live lease of a node that holds no expired one; the lookup by
the empty id finds no lease. -/
def Sheltered (now : Nat) (b : Board) (t : Task) : Prop :=
  t.id ≠ "" ∧ ∃ l ∈ b.leases.rows, l.taskId = t.id ∧ l.IsLive now ∧ ¬HoldsExpired now b l.nodeId

/-- What a sweep that began on `b` has done so far. -/
structure Swept (now : Nat) (b : Board) (w : Timed Board) : Prop where
  clock : ∀ i, w.clock i = now
  leases : ∀ l ∈ b.leases.rows, ¬HoldsExpired now b l.nodeId → l ∈ w.state.leases.rows
  rows : List.Forall₂ (fun t t' => t'.id = t.id ∧
    (t' = t ∨ (Sweepable now b t ∧ ¬Sheltered now b t))) b.tasks.rows w.state.tasks.rows
  traced : ∀ l' ∈ w.state.leases.rows, (∃ l ∈ b.leases.rows, SameLease l l') ∨
    ∃ t ∈ b.tasks.rows, t.id = l'.taskId ∧ Sweepable now b t

section Sweep

variable [Unicode] {k : Backend} {now : Nat} {b : Board} {w w' : Timed Board} {nodeId : String}

omit [Unicode] in
theorem Swept.read {w' : Timed Board} (h : Swept now b w)
    (hclock : w'.clock = fun i => w.clock (i + 1)) (hsame : w'.state = w.state) :
    Swept now b w' where
  clock := fun i => (congrFun hclock i).trans (h.clock (i + 1))
  leases := hsame ▸ h.leases
  rows := hsame ▸ h.rows
  traced := hsame ▸ h.traced

omit [Unicode] in
theorem Swept.outlives (h : Swept now b w) {l : Lease} (hlive : l.IsLive now) : Outlives w l :=
  ⟨hlive.1, fun i => (h.clock i).symm ▸ hlive.2⟩

omit [Unicode] in
theorem Swept.not_sheltered (h : Swept now b w) (hexpired : HoldsExpired now b nodeId)
    {t : Task} (hunheld : t.id ≠ "" → Unheld nodeId w t.id) : ¬Sheltered now b t := by
  rintro ⟨hne, l, hl, htask, hlive, hnode⟩
  have hother : l.nodeId ≠ nodeId := fun heq => hnode (heq ▸ hexpired)
  exact hunheld hne l (h.leases l hl hnode) hother htask (h.outlives hlive)

omit [Unicode] in
/-- A lease of a swept node that is not revoked names a sweepable task. -/
theorem Swept.sweepable (h : Swept now b w) (hexpired : HoldsExpired now b nodeId) {t : Task}
    (ht : t ∈ b.tasks.rows) (hopen : ¬t.status.IsTerminal)
    (hnamed : ∃ l ∈ w.state.leases.rows, l.nodeId = nodeId ∧ l.taskId = t.id ∧
      l.status ≠ .revoked) : Sweepable now b t := by
  obtain ⟨l', hl', hnode, htask, hstatus⟩ := hnamed
  rcases h.traced l' hl' with ⟨l, hl, hsame⟩ | ⟨u, hu, hid, hsweepable⟩
  · refine .inr ⟨hopen, l, hl, hsame.taskId.symm.trans htask,
      fun hrevoked => hstatus (hsame.revoked hrevoked), ?_⟩
    rw [← hsame.nodeId, hnode]
    exact hexpired
  · have heq : u = t := Table.eq_of_mem_of_key_eq hu ht (hid.trans htask)
    exact heq ▸ hsweepable

omit [Unicode] in
theorem Swept.startable (h : Swept now b w) (hexpired : HoldsExpired now b nodeId) {t u : Task}
    (ht : t ∈ b.tasks.rows) (hrow : u = t ∨ (Sweepable now b t ∧ ¬Sheltered now b t))
    (hstartable : Startable nodeId w u) : Sweepable now b t := by
  rcases hrow with rfl | ⟨hsweepable, -⟩
  · rcases hstartable with hready | horphaned
    · exact .inl hready
    · exact h.sweepable hexpired ht horphaned.unended horphaned.named
  · exact hsweepable

omit [Unicode] in
theorem Swept.row (h : Swept now b w) (hexpired : HoldsExpired now b nodeId) {t u u' : Task}
    (ht : t ∈ b.tasks.rows) (hid : u.id = t.id)
    (hrow : u = t ∨ (Sweepable now b t ∧ ¬Sheltered now b t))
    (hrecovered : RecoveredRow nodeId w u u') :
    u' = t ∨ (Sweepable now b t ∧ ¬Sheltered now b t) := by
  cases hrecovered with
  | kept heq => rwa [heq]
  | orphaned horphaned =>
      exact .inr ⟨h.startable hexpired ht hrow (.inr horphaned),
        h.not_sheltered hexpired (hid ▸ horphaned.unheld)⟩
  | placed hready hunheld _ =>
      exact .inr ⟨h.startable hexpired ht hrow (.inl hready),
        h.not_sheltered hexpired (fun _ => hid ▸ hunheld)⟩

omit [Unicode] in
theorem Swept.recover (h : Swept now b w) (hexpired : HoldsExpired now b nodeId)
    (hrecovered : Recovered nodeId w w') : Swept now b w' where
  clock := by
    obtain ⟨j, hj⟩ := hrecovered.clock
    exact fun i => (hj i).trans (h.clock (i + j))
  leases := by
    intro l hl hnode
    refine hrecovered.others l (h.leases l hl hnode) (fun heq => hnode (heq ▸ hexpired)) ?_
    intro i hlapsed
    rw [h.clock i] at hlapsed
    exact hnode ⟨l, hl, rfl, .inr hlapsed⟩
  rows := by
    refine Table.forall₂_imp_of_mem (Table.forall₂_comp h.rows hrecovered.rows) ?_
    rintro t ht u' ⟨u, ⟨hid, hrow⟩, hquiet, hrow'⟩
    exact ⟨hquiet.gate.id.trans hid, h.row hexpired ht hid hrow hrow'⟩
  traced := by
    intro l' hl'
    rcases hrecovered.traced l' hl' with ⟨l, hl, hsame⟩ | ⟨u, hu, hid, hstartable⟩
    · rcases h.traced l hl with ⟨l₀, hl₀, hsame₀⟩ | ⟨t, ht, htask, hsweepable⟩
      · exact .inl ⟨l₀, hl₀, hsame₀.trans hsame⟩
      · exact .inr ⟨t, ht, htask.trans hsame.taskId.symm, hsweepable⟩
    · obtain ⟨t, ht, hsame, hrow⟩ := Table.exists_of_mem_right h.rows hu
      exact .inr ⟨t, ht, hsame.symm.trans hid, h.startable hexpired ht hrow hstartable⟩

omit [Unicode] in
theorem Swept.start (hclock : ∀ i, w.clock i = now) (hstate : w.state = { b with
    leases := b.leases.updateWhere (Lease.IsLapsed now) Lease.expire Lease.keepsKey_expire }) :
    Swept now b w where
  clock := hclock
  leases := by
    intro l hl hnode
    rw [hstate]
    refine List.mem_map.mpr ⟨l, hl, if_neg (fun hlapsed => hnode ?_)⟩
    exact ⟨l, hl, rfl, .inr hlapsed⟩
  rows := by
    rw [hstate]
    exact List.forall₂_same.mpr (fun t _ => ⟨rfl, .inl rfl⟩)
  traced := by
    intro l' hl'
    rw [hstate] at hl'
    obtain ⟨l, hl, rfl⟩ := List.mem_map.mp hl'
    exact .inl ⟨l, hl, SameLease.expire_if now l⟩

omit [Unicode] in
theorem holdsExpired_of_marked {l : Lease} (hl : l ∈ (b.leases.updateWhere
    (Lease.IsLapsed now) Lease.expire Lease.keepsKey_expire).rows)
    (hstatus : l.status = .expired) : HoldsExpired now b l.nodeId := by
  obtain ⟨l₀, hl₀, rfl⟩ := List.mem_map.mp hl
  by_cases hlapsed : l₀.IsLapsed now
  · rw [if_pos hlapsed]
    exact ⟨l₀, hl₀, rfl, .inr hlapsed⟩
  · rw [if_neg hlapsed] at hstatus ⊢
    exact ⟨l₀, hl₀, rfl, .inl hstatus⟩

theorem swept_detectExpiredLeases (order : Recovery.SetOrder) (now : Nat) (b : Board) :
    (Recovery.detectExpiredLeases order).Wp (Contract k) (fun _ _ => True) ⟨b, fun _ => now⟩
      (fun r w' => ∃ sweep, r = .ok sweep ∧ Swept now b w') := by
  unfold Recovery.detectExpiredLeases
  refine wp_perform.mpr ⟨trivial, fun active w₁ hC₁ => ?_⟩
  refine wp_perform.mpr ⟨trivial, fun expired w₂ hC₂ => ?_⟩
  obtain ⟨rfl, hmarked⟩ := hC₁.reply
  obtain ⟨rfl, hsame₂⟩ := hC₂.reply
  have hstart : Swept now b w₁ := Swept.start (fun i => congrFun hC₁.clock i) hmarked
  refine Wp.seq (I := fun _ w => Swept now b w) ((wp_forM (I := Swept now b) _ _
    (fun nodeId hnodeId w h => ?_) (hstart.read hC₂.clock hsame₂)).mono
      (fun _ w h => ⟨⟨⟩, h⟩))
    (fun _ w₃ h₃ => wp_perform.mpr ⟨trivial, fun unleased w₄ hC₄ => ?_⟩)
  · have hexpired : HoldsExpired now b nodeId := by
      rw [order.mem_iterate] at hnodeId
      obtain ⟨l, hl, rfl⟩ := List.mem_map.mp hnodeId
      obtain ⟨hmem, hstatus⟩ := List.mem_filter.mp hl
      rw [hmarked] at hmem
      exact holdsExpired_of_marked hmem (of_decide_eq_true hstatus)
    have hrecover := (meets_triggerRecovery (k := k) (c := .recover nodeId) w rfl).mono_permit
      (fun _ _ => True) (fun _ _ _ => trivial)
    refine Wp.seq (I := fun _ w => Swept now b w) (hrecover.mono ?_) (fun _ w' h' => ⟨rfl, h'⟩)
    rintro r w' ⟨summary, hr, hrecovered⟩
    exact ⟨summary, hr, h.recover hexpired hrecovered⟩
  · exact ⟨_, rfl, h₃.read hC₄.clock hC₄.reply⟩

/-- `detect_expired_leases`, at one reading of the clock: the leases of a node
that holds no expired one are kept as they are, and the only tasks it touches
are ready, or open and named by a lease of a node that does; a task sheltered
by a live lease of another node is not among them. -/
theorem detectExpiredLeases_isolated (k : Backend) (order : Recovery.SetOrder) (now : Nat)
    (s : k.Store) :
    let b := k.board s
    let b' := k.board ((Recovery.detectExpiredLeases order).run k.tick ⟨s, fun _ => now⟩).2.state
    (∀ l ∈ b.leases.rows, ¬HoldsExpired now b l.nodeId → l ∈ b'.leases.rows) ∧
      List.Forall₂ (fun t t' => t'.id = t.id ∧
        (t' = t ∨ (Sweepable now b t ∧ ¬Sheltered now b t))) b.tasks.rows b'.tasks.rows := by
  obtain ⟨sweep, -, h⟩ := (along_of_wp k.implements (s := (⟨s, fun _ => now⟩ : Timed k.Store))
    (swept_detectExpiredLeases (k := k) order now (k.board s))).2
  exact ⟨h.leases, h.rows⟩

end Sweep

section Example

local instance asciiRecovery : Unicode := Unicode.ascii

/-- A task that waits for the owner's answer, and the expired lease of the node
that asked. -/
def waitingStore : ClusterState where
  nodes := .single { id := "n" }
  tasks := ⟨[{ id := "a", title := "a", status := .blocked, assignedTo := some "n",
               ballot := some { question := "which?", options := [], cls := "decision",
                                laneKey := "", askedAt := 2, decisionRef := "", decisionId := "",
                                answer := none, answeredAt := none, answeredBy := "" },
               createdAt := 1, updatedAt := 2 }], by decide⟩
  leases := ⟨[{ id := 0, taskId := "a", nodeId := "n", createdAt := 1, expiresAt := 2,
                status := .expired }], by decide⟩
  index_ok := indexOk_empty _

/-- The recovery of the node starts the waiting task again, its ballot unanswered. -/
theorem blocked_task_recovered :
    ¬∀ taskId t t', waitingStore.tasks.get? taskId = some t →
      ((Recovery.triggerRecovery "n").run Backend.memory.tick
        ⟨waitingStore, fun _ => 3⟩).2.state.tasks.get? taskId = some t' →
      t'.status ≠ t.status → t.status.IsActive ∧ t.assignedTo = some "n" := by
  intro h
  obtain ⟨t', ht'⟩ : ∃ t', ((Recovery.triggerRecovery "n").run Backend.memory.tick
      ⟨waitingStore, fun _ => 3⟩).2.state.tasks.get? "a" = some t' ∧ t'.status = .running := by
    refine ⟨_, rfl, by decide⟩
  have hactive := (h "a" _ t' rfl ht'.1 (by rw [ht'.2]; decide)).1
  exact absurd hactive (by decide)

/-- A node with a task whose lease has lapsed and one whose lease has not. -/
def siblingStore : ClusterState where
  nodes := .single { id := "n" }
  tasks := ⟨[{ id := "a", title := "a", status := .running, assignedTo := some "n",
               createdAt := 1, updatedAt := 1 },
             { id := "b", title := "b", status := .running, assignedTo := some "n",
               createdAt := 1, updatedAt := 1 }], by decide⟩
  leases := ⟨[{ id := 0, taskId := "a", nodeId := "n", createdAt := 1, expiresAt := 2 },
              { id := 1, taskId := "b", nodeId := "n", createdAt := 1, expiresAt := 9 }],
    by decide⟩
  index_ok := indexOk_empty _

/-- The sweep revokes the live lease along with the lapsed one. -/
theorem live_sibling_revoked :
    ¬∀ l ∈ siblingStore.leases.rows, l.IsLive 3 →
      ∃ l' ∈ ((Recovery.detectExpiredLeases Recovery.SetOrder.insertion).run Backend.memory.tick
        ⟨siblingStore, fun _ => 3⟩).2.state.leases.rows, l'.id = l.id ∧ l'.status = .active := by
  intro h
  obtain ⟨l', hl', hid, hactive⟩ := h
    { id := 1, taskId := "b", nodeId := "n", createdAt := 1, expiresAt := 9 }
    (by decide) (by decide)
  have hrevoked : ∀ l ∈ ((Recovery.detectExpiredLeases Recovery.SetOrder.insertion).run
      Backend.memory.tick ⟨siblingStore, fun _ => 3⟩).2.state.leases.rows,
      l.id = 1 → l.status = .revoked := by decide
  rw [hrevoked l' hl' hid] at hactive
  cases hactive

end Example

end HermesCluster
