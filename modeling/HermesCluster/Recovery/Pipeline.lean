import HermesCluster.Routers.Issues
/-!
# What a recovery issues and leaves behind

The recovery of a node revokes every lease of the node that was not revoked,
unassigns the tasks those leases name, and runs a schedule pass for each. It
issues only operations that `Issued` lists, and its effect is `Recovered`.
-/

namespace HermesCluster

open Program hiding pure bind

section Recovery

variable [Unicode] {k : Backend} {c : Call} {nodeId : String} {w₀ w : Timed Board} {b : Board}

/-! ## Leases -/

omit [Unicode] in
/-- The same lease later on: a revoked one stays revoked. -/
structure SameLease (l l' : Lease) : Prop where
  id : l'.id = l.id
  nodeId : l'.nodeId = l.nodeId
  taskId : l'.taskId = l.taskId
  revoked : l.status = .revoked → l'.status = .revoked

omit [Unicode] in
theorem SameLease.refl (l : Lease) : SameLease l l := ⟨rfl, rfl, rfl, fun h => h⟩

omit [Unicode] in
theorem SameLease.trans {l l' l'' : Lease} (h : SameLease l l') (h' : SameLease l' l'') :
    SameLease l l'' :=
  ⟨h'.id.trans h.id, h'.nodeId.trans h.nodeId, h'.taskId.trans h.taskId,
    fun hrevoked => h'.revoked (h.revoked hrevoked)⟩

omit [Unicode] in
theorem SameLease.revoke_if (p : Prop) [Decidable p] (l : Lease) :
    SameLease l (if p then l.revoke else l) := by
  split
  · exact ⟨rfl, rfl, rfl, fun _ => rfl⟩
  · exact SameLease.refl l

omit [Unicode] in
theorem SameLease.expire_if (now : Nat) (l : Lease) :
    SameLease l (if l.IsLapsed now then l.expire else l) := by
  split
  · rename_i hlapsed
    refine ⟨rfl, rfl, rfl, fun hrevoked => ?_⟩
    rw [hlapsed.1] at hrevoked
    cases hrevoked
  · exact SameLease.refl l

/-- A lease stands revoked. -/
def RevokedIn (b : Board) (leaseId : Nat) : Prop :=
  ∃ l ∈ b.leases.rows, l.id = leaseId ∧ l.status = .revoked

/-- The leases after one is revoked. -/
def revokeIn (leaseId : Nat) (b : Board) : Board :=
  { b with leases := b.leases.modify leaseId Lease.revoke Lease.keepsKey_revoke }

omit [Unicode] in
theorem mem_revokeIn (leaseId : Nat) {l : Lease} (hl : l ∈ b.leases.rows) :
    (if l.id = leaseId then l.revoke else l) ∈ (revokeIn leaseId b).leases.rows :=
  List.mem_map_of_mem (f := fun l : Lease => if HasKey.key l = leaseId then l.revoke else l) hl

omit [Unicode] in
theorem of_mem_revokeIn {leaseId : Nat} {l' : Lease}
    (hl' : l' ∈ (revokeIn leaseId b).leases.rows) : ∃ l ∈ b.leases.rows, SameLease l l' := by
  obtain ⟨l, hl, rfl⟩ := List.mem_map.mp hl'
  exact ⟨l, hl, SameLease.revoke_if _ l⟩

omit [Unicode] in
theorem RevokedIn.revokeIn {leaseId other : Nat} (h : RevokedIn b other) :
    RevokedIn (revokeIn leaseId b) other := by
  obtain ⟨l, hl, hid, hstatus⟩ := h
  refine ⟨_, mem_revokeIn _ hl, ?_, ?_⟩
  · split <;> exact hid
  · split
    · rfl
    · exact hstatus

omit [Unicode] in
theorem revokedIn_revokeIn {leaseId : Nat} {l : Lease} (hl : l ∈ b.leases.rows)
    (hid : l.id = leaseId) : RevokedIn (revokeIn leaseId b) leaseId := by
  have hmem := mem_revokeIn leaseId hl
  rw [if_pos hid] at hmem
  exact ⟨l.revoke, hmem, hid, rfl⟩

omit [Unicode] in
theorem OthersKept.revokeIn {leaseId : Nat} (h : OthersKept nodeId w₀ b)
    (hnode : ∃ l₀ ∈ w₀.state.leases.rows, l₀.id = leaseId ∧ l₀.nodeId = nodeId) :
    OthersKept nodeId w₀ (revokeIn leaseId b) := by
  intro l hl hother hunlapsing
  obtain ⟨l₀, hl₀, hid, hnode⟩ := hnode
  have hne : l.id ≠ leaseId := by
    intro heq
    obtain rfl : l = l₀ := Table.eq_of_mem_of_key_eq hl hl₀ (heq.trans hid.symm)
    exact hother hnode
  have hmem := mem_revokeIn leaseId (h l hl hother hunlapsing)
  rw [if_neg hne] at hmem
  exact hmem

/-! ## Revoking -/

/-- What the revoker has done so far: no task row is touched, the leases are those
it began with, and the tasks it lists are named by leases of the node. -/
structure RevokedSoFar (nodeId : String) (w₀ : Timed Board) (st : Recovery.Revoked)
    (w : Timed Board) : Prop where
  clock : Later w₀.clock w.clock
  tasks : w.state.tasks = w₀.state.tasks
  others : OthersKept nodeId w₀ w.state
  present : ∀ l ∈ w₀.state.leases.rows, ∃ l' ∈ w.state.leases.rows, SameLease l l'
  traced : ∀ l' ∈ w.state.leases.rows, ∃ l ∈ w₀.state.leases.rows, SameLease l l'
  seen : ∀ leaseId ∈ st.seen, RevokedIn w.state leaseId
  named : ∀ taskId ∈ st.taskIds, ∃ l ∈ w₀.state.leases.rows,
    l.nodeId = nodeId ∧ l.taskId = taskId ∧ l.status ≠ .revoked

omit [Unicode] in
theorem RevokedSoFar.revoke {st : Recovery.Revoked} {w' : Timed Board} {leaseId : Nat}
    (h : RevokedSoFar nodeId w₀ st w) (hclock : w'.clock = fun i => w.clock (i + 1))
    (hstate : w'.state = revokeIn leaseId w.state)
    (hnode : ∃ l₀ ∈ w₀.state.leases.rows, l₀.id = leaseId ∧ l₀.nodeId = nodeId) :
    RevokedSoFar nodeId w₀ { st with seen := leaseId :: st.seen } w' where
  clock := hclock ▸ h.clock.next
  tasks := by
    rw [hstate]
    exact h.tasks
  others := hstate ▸ h.others.revokeIn hnode
  present := by
    intro l hl
    obtain ⟨l', hl', hsame⟩ := h.present l hl
    rw [hstate]
    exact ⟨_, mem_revokeIn _ hl', hsame.trans (SameLease.revoke_if _ l')⟩
  traced := by
    intro l' hl'
    rw [hstate] at hl'
    obtain ⟨l, hl, hsame⟩ := of_mem_revokeIn hl'
    obtain ⟨l₀, hl₀, hsame₀⟩ := h.traced l hl
    exact ⟨l₀, hl₀, hsame₀.trans hsame⟩
  seen := by
    intro id hid
    rw [hstate]
    rcases List.mem_cons.mp hid with rfl | hmem
    · obtain ⟨l₀, hl₀, hid₀, -⟩ := hnode
      obtain ⟨l, hl, hsame⟩ := h.present l₀ hl₀
      exact revokedIn_revokeIn hl (hsame.id.trans hid₀)
    · exact (h.seen id hmem).revokeIn
  named := h.named

omit [Unicode] in
theorem RevokedSoFar.list {st : Recovery.Revoked} {taskId : String}
    (h : RevokedSoFar nodeId w₀ st w)
    (hnamed : ∃ l ∈ w₀.state.leases.rows,
      l.nodeId = nodeId ∧ l.taskId = taskId ∧ l.status ≠ .revoked) :
    RevokedSoFar nodeId w₀ { st with taskIds := st.taskIds ++ [taskId] } w := by
  refine { h with named := fun id hid => ?_ }
  rcases List.mem_append.mp hid with hold | hnew
  · exact h.named id hold
  · obtain rfl := List.mem_singleton.mp hnew
    exact hnamed

/-- A lease that the revoker reads: of the node, it was not revoked. -/
def Readable (w₀ : Timed Board) (l : Lease) : Prop :=
  ∃ l₀ ∈ w₀.state.leases.rows, SameLease l₀ l ∧ l₀.status ≠ .revoked

theorem meets_revokeStep {st : Recovery.Revoked} {l : Lease} (hl : Readable w₀ l)
    (h : RevokedSoFar nodeId w₀ st w) :
    Meets k c w₀ (Recovery.revokeStep nodeId st l) w
      (fun r w' => ∃ st', r = .ok st' ∧ RevokedSoFar nodeId w₀ st' w' ∧
        (l.nodeId = nodeId → RevokedIn w'.state l.id) ∧
        ∀ m : Lease, (m.nodeId = nodeId → RevokedIn w.state m.id) →
          m.nodeId = nodeId → RevokedIn w'.state m.id) := by
  unfold Recovery.revokeStep
  split
  · rename_i hskip
    refine ⟨st, rfl, h, fun hnode => ?_, fun _ hm => hm⟩
    rcases hskip with hother | hseen
    · exact absurd hnode hother
    · exact h.seen l.id hseen
  · rename_i htake
    have hnode : l.nodeId = nodeId := by
      by_contra hne
      exact htake (.inl hne)
    obtain ⟨l₀, hl₀, hsame, hstatus⟩ := hl
    have hnode₀ : l₀.nodeId = nodeId := hsame.nodeId.symm.trans hnode
    refine meets_store (.idle trivial) (fun success w' hC => ?_)
    have hstate : w'.state = revokeIn l.id w.state := hC.reply
    have hdone := h.revoke hC.clock hstate ⟨l₀, hl₀, hsame.id.symm, hnode₀⟩
    have hrevoked : RevokedIn w'.state l.id := hdone.seen l.id List.mem_cons_self
    refine ⟨_, rfl, ?_, fun _ => hrevoked, fun m hm hmine => ?_⟩
    · split
      · exact hdone.list ⟨l₀, hl₀, hnode₀, hsame.taskId.symm, hstatus⟩
      · exact hdone
    · rw [hstate]
      exact (hm hmine).revokeIn

/-- After its leases are revoked, with the tasks they name. -/
structure Revoked (nodeId : String) (w₀ : Timed Board) (taskIds : List String)
    (w : Timed Board) : Prop extends RevokedSoFar nodeId w₀ { taskIds := taskIds } w where
  revoked : ∀ l ∈ w₀.state.leases.rows, l.nodeId = nodeId → l.status ≠ .revoked →
    RevokedIn w.state l.id

omit [Unicode] in
/-- Reading the active leases marks the lapsed ones. -/
theorem revokedSoFar_start {w₁ : Timed Board} (hclock : Later w₀.clock w₁.clock)
    (hstate : w₁.state = { w₀.state with
      leases := w₀.state.leases.updateWhere (Lease.IsLapsed (w₀.clock 0)) Lease.expire
        Lease.keepsKey_expire }) : RevokedSoFar nodeId w₀ {} w₁ := by
  refine ⟨hclock, by rw [hstate], ?_, ?_, ?_, by simp, by simp⟩
  · intro l hl _ hunlapsing
    rw [hstate]
    exact List.mem_map.mpr ⟨l, hl, if_neg (hunlapsing 0)⟩
  · intro l hl
    rw [hstate]
    exact ⟨_, List.mem_map_of_mem hl, SameLease.expire_if _ l⟩
  · intro l' hl'
    rw [hstate] at hl'
    obtain ⟨l, hl, rfl⟩ := List.mem_map.mp hl'
    exact ⟨l, hl, SameLease.expire_if _ l⟩

theorem meets_revokeAllForNode (w₀ : Timed Board) :
    Meets k c w₀ (Recovery.revokeAllForNode nodeId) w₀
      (fun r w' => ∃ taskIds, r = .ok taskIds ∧ Revoked nodeId w₀ taskIds w') := by
  unfold Recovery.revokeAllForNode
  refine meets_store (.idle trivial) (fun active w₁ hC₁ => ?_)
  obtain ⟨rfl, hmarked⟩ := hC₁.reply
  refine meets_store (.idle trivial) (fun expired w₂ hC₂ => ?_)
  obtain ⟨rfl, hsame₂⟩ := hC₂.reply
  have hclock : Later w₀.clock w₂.clock := by
    rw [hC₂.clock, hC₁.clock]
    exact (Later.refl _).next.next
  have hstart : RevokedSoFar nodeId w₀ {} w₂ :=
    revokedSoFar_start hclock (hsame₂.trans hmarked)
  generalize hleases : w₀.state.leases.rows.filter (fun l => decide (l.IsLive (w₀.clock 0))) ++
    w₁.state.leases.rows.filter (fun l => decide (l.status = .expired)) = leases
  have hlive : ∀ l ∈ w₀.state.leases.rows, l.IsLive (w₀.clock 0) → l ∈ leases := by
    intro l hl hlive
    rw [← hleases]
    exact List.mem_append_left _ (List.mem_filter.mpr ⟨hl, decide_eq_true hlive⟩)
  have hdead : ∀ l ∈ w₀.state.leases.rows,
      (if l.IsLapsed (w₀.clock 0) then l.expire else l).status = .expired →
      (if l.IsLapsed (w₀.clock 0) then l.expire else l) ∈ leases := by
    intro l hl hstatus
    rw [← hleases]
    refine List.mem_append_right _ (List.mem_filter.mpr ⟨?_, decide_eq_true hstatus⟩)
    rw [hmarked]
    exact List.mem_map_of_mem hl
  have hreadable : ∀ l ∈ leases, Readable w₀ l := by
    intro l hl
    rw [← hleases] at hl
    rcases List.mem_append.mp hl with hmem | hmem
    · obtain ⟨hmem, hlive⟩ := List.mem_filter.mp hmem
      refine ⟨l, hmem, SameLease.refl l, ?_⟩
      rw [(of_decide_eq_true hlive).1]
      decide
    · obtain ⟨hmem, hstatus⟩ := List.mem_filter.mp hmem
      rw [hmarked] at hmem
      obtain ⟨l₀, hl₀, rfl⟩ := List.mem_map.mp hmem
      refine ⟨l₀, hl₀, SameLease.expire_if _ l₀, ?_⟩
      by_cases hlapsed : l₀.IsLapsed (w₀.clock 0)
      · rw [hlapsed.1]
        decide
      · simp only [if_neg hlapsed] at hstatus
        rw [of_decide_eq_true hstatus]
        decide
  refine Wp.seq (I := fun st (w : Timed Board) => RevokedSoFar nodeId w₀ st w ∧
    ∀ l ∈ leases, l.nodeId = nodeId → RevokedIn w.state l.id)
    ((wp_foldlM_each (I := fun st (w : Timed Board) => RevokedSoFar nodeId w₀ st w)
      (D := fun (l : Lease) (w : Timed Board) => l.nodeId = nodeId → RevokedIn w.state l.id) _ _
      (fun l hl st w h => meets_revokeStep (hreadable l hl) h) {} hstart).mono ?_) ?_
  · rintro r w' ⟨st, hr, hsofar, hall, -⟩
    exact ⟨st, hr, hsofar, hall⟩
  rintro st w₃ ⟨hsofar, hall⟩
  refine ⟨st.taskIds, rfl, { hsofar with seen := by simp }, ?_⟩
  intro l hl hnode hstatus
  by_cases hlapsed : l.IsLapsed (w₀.clock 0)
  · have hmem := hdead l hl
    rw [if_pos hlapsed] at hmem
    exact hall l.expire (hmem rfl) hnode
  · have hmem := hdead l hl
    rw [if_neg hlapsed] at hmem
    cases hvalue : l.status with
    | expired => exact hall l (hmem hvalue) hnode
    | revoked => exact absurd hvalue hstatus
    | active =>
        refine hall l (hlive l hl ⟨hvalue, ?_⟩) hnode
        exact Nat.lt_of_not_le (fun hge => hlapsed ⟨hvalue, hge⟩)

/-! ## Rescheduling -/

omit [Unicode] in
/-- How a recovery leaves a row: as it was, orphaned when the recovery began, or
ready then and placed since. -/
inductive RecoveredRow (nodeId : String) (w₀ : Timed Board) (t₀ t : Task) : Prop
  | kept (hrow : t = t₀)
  | orphaned (horphaned : Orphaned nodeId w₀ t₀)
  | placed {now node} (hready : t₀.status = .ready) (hunheld : Unheld nodeId w₀ t₀.id)
      (hrow : t = t₀.assignTo now node)

omit [Unicode] in
/-- A task that a recovery may have started. -/
def Startable (nodeId : String) (w₀ : Timed Board) (t₀ : Task) : Prop :=
  t₀.status = .ready ∨ Orphaned nodeId w₀ t₀

/-- The effect of a recovery, once its leases are revoked. -/
structure Recovered (nodeId : String) (w₀ w : Timed Board) : Prop where
  clock : Later w₀.clock w.clock
  rows : List.Forall₂ (fun t₀ t => QuietRow t₀ t ∧ RecoveredRow nodeId w₀ t₀ t)
    w₀.state.tasks.rows w.state.tasks.rows
  others : OthersKept nodeId w₀ w.state
  revoked : ∀ l ∈ w₀.state.leases.rows, l.nodeId = nodeId → l.status ≠ .revoked →
    RevokedIn w.state l.id
  traced : ∀ l' ∈ w.state.leases.rows, (∃ l ∈ w₀.state.leases.rows, SameLease l l') ∨
    ∃ t₀ ∈ w₀.state.tasks.rows, t₀.id = l'.taskId ∧ Startable nodeId w₀ t₀

omit [Unicode] in
theorem Recovered.quiet (h : Recovered nodeId w₀ w) : Quiet w₀.state w.state :=
  h.rows.imp (fun _ _ hrow => hrow.1)

omit [Unicode] in
theorem Recovered.start {taskIds : List String} (h : Revoked nodeId w₀ taskIds w) :
    Recovered nodeId w₀ w where
  clock := h.clock
  rows := by
    rw [h.tasks]
    exact List.forall₂_same.mpr (fun t _ => ⟨QuietRow.refl t, .kept rfl⟩)
  others := h.others
  revoked := h.revoked
  traced := fun l' hl' => .inl (h.traced l' hl')

omit [Unicode] in
theorem Recovered.row (h : Recovered nodeId w₀ w) {t : Task} (ht : t ∈ w.state.tasks.rows) :
    ∃ t₀ ∈ w₀.state.tasks.rows, QuietRow t₀ t ∧ RecoveredRow nodeId w₀ t₀ t :=
  Table.exists_of_mem_right h.rows ht

/-- Operations that leave a row quiet: a row they change is open and does not
become completed. -/
def QuietOp (op : StoreOp) (t : Task) : Prop :=
  match op with
  | .unassignTask _ | .schedulePendingDetailed => True
  | .setTaskStatus _ status _ => status ≠ .completed ∧ ¬t.status.IsTerminal
  | _ => False

omit [Unicode] in
theorem quietRow_of_open {t t' : Task} (hopen : ¬t.status.IsTerminal)
    (hnot : t'.status ≠ .completed)
    (hsame : t'.id = t.id ∧ t'.title = t.title ∧ t'.laneKey = t.laneKey ∧ t'.issues = t.issues)
    (hdeps : t'.dependsOn = t.dependsOn) : QuietRow t t' := by
  obtain ⟨hid, htitle, hlane, hissues⟩ := hsame
  refine ⟨⟨hid, htitle, hlane, hissues, fun h => ?_⟩, hdeps, fun hended => absurd hended hopen⟩
  rcases h with hdone | hdone
  · exact absurd hdone (TaskStatus.ne_completed_of_open hopen)
  · exact absurd hdone hnot

theorem quietRow_of_change {now : Nat} {op : StoreOp} {t t' : Task}
    (hop : QuietOp op t) (h : Change k now b op t t') : QuietRow t t' := by
  cases h with
  | status hid _ =>
      exact quietRow_of_open hop.2 hop.1 ⟨rfl, rfl, rfl, rfl⟩ rfl
  | unassign _ hopen _ =>
      exact quietRow_of_open hopen (by simp [Task.unassign]) ⟨rfl, rfl, rfl, rfl⟩ rfl
  | assign hcandidate =>
      exact quietRow_of_open (TaskStatus.not_isTerminal_of_ready hcandidate.2.1)
        (by simp [Task.assignTo]) ⟨rfl, rfl, rfl, rfl⟩ rfl
  | _ => exact hop.elim

theorem Recovered.rows_step {op : StoreOp} {r : op.Res} {w' : Timed Board}
    (h : Recovered nodeId w₀ w) (hC : Contract k op w r w')
    (hcreated : ∀ t, ¬Created k (w.clock 0) op t)
    (hrow : ∀ t₀ ∈ w₀.state.tasks.rows, ∀ t ∈ w.state.tasks.rows, ∀ t', QuietRow t₀ t →
      RecoveredRow nodeId w₀ t₀ t → Change k (w.clock 0) w.state op t t' →
      QuietOp op t ∧ RecoveredRow nodeId w₀ t₀ t') :
    List.Forall₂ (fun t₀ t => QuietRow t₀ t ∧ RecoveredRow nodeId w₀ t₀ t)
      w₀.state.tasks.rows w'.state.tasks.rows := by
  have hstep : List.Forall₂
      (fun t t' => t' = t ∨ (t ∈ w.state.tasks.rows ∧ Change k (w.clock 0) w.state op t t'))
      w.state.tasks.rows w'.state.tasks.rows :=
    forall₂_of_contract hC (fun _ => .inl rfl) (fun _ ht _ hchange => .inr ⟨ht, hchange⟩) hcreated
  refine Table.forall₂_imp_of_mem (Table.forall₂_comp h.rows hstep) ?_
  rintro t₀ ht₀ t' ⟨t, ⟨hquiet, hrecovered⟩, rfl | ⟨ht, hchange⟩⟩
  · exact ⟨hquiet, hrecovered⟩
  · obtain ⟨hop, hrecovered'⟩ := hrow t₀ ht₀ t ht t' hquiet hrecovered hchange
    exact ⟨hquiet.trans (quietRow_of_change hop hchange), hrecovered'⟩

omit [Unicode] in
theorem Recovered.of_leases_eq {w' : Timed Board} (h : Recovered nodeId w₀ w)
    (hclock : w'.clock = fun i => w.clock (i + 1)) (hleases : w'.state.leases = w.state.leases)
    (hrows : List.Forall₂ (fun t₀ t => QuietRow t₀ t ∧ RecoveredRow nodeId w₀ t₀ t)
      w₀.state.tasks.rows w'.state.tasks.rows) : Recovered nodeId w₀ w' where
  clock := hclock ▸ h.clock.next
  rows := hrows
  others := fun l hl hother hunlapsing => hleases.symm ▸ h.others l hl hother hunlapsing
  revoked := by
    intro l hl hnode hstatus
    unfold RevokedIn
    rw [hleases]
    exact h.revoked l hl hnode hstatus
  traced := fun l' hl' => h.traced l' (hleases ▸ hl')

omit [Unicode] in
theorem Recovered.read {w' : Timed Board} (h : Recovered nodeId w₀ w)
    (hclock : w'.clock = fun i => w.clock (i + 1)) (hsame : w'.state = w.state) :
    Recovered nodeId w₀ w' :=
  h.of_leases_eq hclock (congrArg Board.leases hsame) (hsame ▸ h.rows)

omit [Unicode] in
theorem orphaned_of_unleased {now : Nat} {l : Lease} {t₀ t : Task}
    (hnow : ∃ i, now = w₀.clock i) (hl : l ∈ w₀.state.leases.rows) (hnode : l.nodeId = nodeId)
    (htask : l.taskId = t.id) (hstatus : l.status ≠ .revoked) (hothers : OthersKept nodeId w₀ b)
    (hfree : Unleased now b t.id) (hopen : ¬t.status.IsTerminal) (hrow : QuietRow t₀ t) :
    Orphaned nodeId w₀ t₀ := by
  have hid : t.id = t₀.id := hrow.gate.id
  refine ⟨fun hended => hopen ?_, ⟨l, hl, hnode, htask.trans hid, hstatus⟩, ?_⟩
  · rw [hrow.ended hended]
    exact hended
  · intro hne m hm hother hnamed houtlives
    rw [← hid] at hne hnamed
    obtain ⟨i, rfl⟩ := hnow
    exact hfree hne m (hothers m hm hother houtlives.unlapsing) hnamed
      ⟨houtlives.1, houtlives.2 i⟩

omit [Unicode] in
theorem Recovered.now (h : Recovered nodeId w₀ w) : ∃ i, w.clock 0 = w₀.clock i := by
  obtain ⟨j, hj⟩ := h.clock
  exact ⟨0 + j, hj 0⟩

/-- A task under a lease of the node that was not revoked. -/
def Named (nodeId : String) (w₀ : Timed Board) (taskId : String) : Prop :=
  ∃ l ∈ w₀.state.leases.rows, l.nodeId = nodeId ∧ l.taskId = taskId ∧ l.status ≠ .revoked

theorem Recovered.unassign {taskId : String} {r : Bool} {w' : Timed Board}
    (h : Recovered nodeId w₀ w) (hnamed : Named nodeId w₀ taskId)
    (hC : Contract k (.unassignTask taskId) w r w') :
    Recovered nodeId w₀ w' ∧ (r = true →
      ∀ t₀ ∈ w₀.state.tasks.rows, t₀.id = taskId → Orphaned nodeId w₀ t₀) := by
  obtain ⟨l, hl, hnode, htask, hstatus⟩ := hnamed
  obtain ⟨hleases, -, hyes⟩ := hC.reply
  have horphaned : ∀ {t₀ t : Task}, QuietRow t₀ t → t.id = taskId → ¬t.status.IsTerminal →
      Unleased (w.clock 0) w.state taskId → Orphaned nodeId w₀ t₀ := by
    intro t₀ t hquiet hid hopen hfree
    exact orphaned_of_unleased h.now hl hnode (htask.trans hid.symm) hstatus h.others
      (hid.symm ▸ hfree) hopen hquiet
  refine ⟨h.of_leases_eq hC.clock hleases ?_, fun hr t₀ ht₀ hid => ?_⟩
  · refine h.rows_step hC (fun t ht => by cases ht) (fun t₀ _ t _ t' hquiet _ hchange => ?_)
    cases hchange with
    | unassign hid hopen hfree => exact ⟨trivial, .orphaned (horphaned hquiet hid hopen hfree)⟩
  · obtain ⟨hfree, t, ht, hopen, -⟩ := hyes hr
    obtain ⟨u₀, hu₀, hquiet, -⟩ := h.row (Table.mem_of_get? ht)
    have hid' : t.id = taskId := Table.key_of_get? ht
    have hsame : u₀ = t₀ := Table.eq_of_mem_of_key_eq hu₀ ht₀
      ((hquiet.gate.id.symm.trans hid').trans hid.symm)
    exact hsame ▸ horphaned hquiet hid' hopen hfree

omit [Unicode] in
theorem PassOf.mem_leases [Unicode] {now : Nat} {b' : Board} {cs : List Task}
    {out : List Assignment} (h : PassOf now b cs out b') {l : Lease} (hl : l ∈ b.leases.rows) :
    l ∈ b'.leases.rows := by
  obtain ⟨added, hrows, -, -⟩ := leases_placeAll now b (placements b cs)
  rw [h.leases_eq, hrows]
  exact List.mem_append_left _ hl

/-- A lease after a pass is an old one, or names a candidate. -/
theorem PassOf.of_mem_leases {now : Nat} {b' : Board} {cs : List Task}
    {out : List Assignment} (h : PassOf now b cs out b') {l : Lease}
    (hl : l ∈ b'.leases.rows) :
    l ∈ b.leases.rows ∨ ∃ t, IsCandidate now b t ∧ t.id = l.taskId := by
  obtain ⟨added, hrows, hpairs, -⟩ := leases_placeAll now b (placements b cs)
  rw [h.leases_eq, hrows] at hl
  rcases List.mem_append.mp hl with hold | hnew
  · exact .inl hold
  · have hpair := List.mem_map_of_mem (f := fun l : Lease => (l.taskId, l.nodeId)) hnew
    rw [hpairs] at hpair
    obtain ⟨p, hp, heq⟩ := List.mem_map.mp hpair
    exact .inr ⟨p.1, (h.served.mem_iff _).mp (mem_of_mem_placements hp),
      congrArg Prod.fst heq⟩

omit [Unicode] in
theorem RecoveredRow.of_ready {t₀ t : Task} (h : RecoveredRow nodeId w₀ t₀ t)
    (hready : t.status = .ready) :
    (t = t₀ ∧ t₀.status = .ready) ∨ Orphaned nodeId w₀ t₀ := by
  cases h with
  | kept hrow =>
      subst hrow
      exact .inl ⟨rfl, hready⟩
  | orphaned horphaned => exact .inr horphaned
  | placed _ _ hrow =>
      rw [hrow] at hready
      cases hready

theorem Recovered.schedule {r : StoreOp.schedulePendingDetailed.Res} {w' : Timed Board}
    (h : Recovered nodeId w₀ w) (hC : Contract k .schedulePendingDetailed w r w') :
    Recovered nodeId w₀ w' := by
  obtain ⟨cs, hpass⟩ := hC.reply
  refine ⟨hC.clock ▸ h.clock.next, ?_, ?_, ?_, ?_⟩
  · refine h.rows_step hC (fun t ht => by cases ht) (fun t₀ _ t _ t' hquiet hrow hchange => ?_)
    cases hchange with
    | assign hcandidate =>
        obtain ⟨-, hready, hunleased, -⟩ := hcandidate
        refine ⟨trivial, ?_⟩
        rcases hrow.of_ready hready with ⟨rfl, hready₀⟩ | horphaned
        · refine .placed hready₀ (fun l hl hother hnamed houtlives => hunleased ?_) rfl
          obtain ⟨i, hi⟩ := h.now
          refine List.mem_map.mpr ⟨l, List.mem_filter.mpr
            ⟨h.others l hl hother houtlives.unlapsing, decide_eq_true ⟨houtlives.1, ?_⟩⟩, hnamed⟩
          rw [hi]
          exact houtlives.2 i
        · exact .orphaned horphaned
  · exact fun l hl hother hunlapsing => hpass.mem_leases (h.others l hl hother hunlapsing)
  · intro l hl hnode hstatus
    obtain ⟨l', hl', hid, hrevoked⟩ := h.revoked l hl hnode hstatus
    exact ⟨l', hpass.mem_leases hl', hid, hrevoked⟩
  · intro l' hl'
    rcases hpass.of_mem_leases hl' with hold | ⟨t, hcandidate, hid⟩
    · exact h.traced l' hold
    · obtain ⟨t₀, ht₀, hquiet, hrow⟩ := h.row hcandidate.1
      refine .inr ⟨t₀, ht₀, hquiet.gate.id.symm.trans hid, ?_⟩
      rcases hrow.of_ready hcandidate.2.1 with ⟨-, hready⟩ | horphaned
      · exact .inl hready
      · exact .inr horphaned

theorem open_after_pass {r : StoreOp.schedulePendingDetailed.Res} {w' : Timed Board}
    {taskId : String} {t : Task} (ht : w.state.tasks.get? taskId = some t)
    (hready : t.status = .ready) (hC : Contract k .schedulePendingDetailed w r w') :
    ∃ t', w'.state.tasks.get? taskId = some t' ∧ ¬t'.status.IsTerminal := by
  obtain ⟨t', ht', hrow⟩ := hC.tasks.get?_of_get? (fun _ _ h => Rewrites.id_eq h) ht
  refine ⟨t', ht', ?_⟩
  rcases hrow with rfl | hchange
  · exact TaskStatus.not_isTerminal_of_ready hready
  · cases hchange with
    | assign => simp [Task.assignTo, TaskStatus.IsTerminal]

theorem meets_markFailed {taskId : String} {t : Task}
    (ht : w.state.tasks.get? taskId = some t) (hopen : ¬t.status.IsTerminal)
    (horphaned : ∀ t₀ ∈ w₀.state.tasks.rows, t₀.id = taskId → Orphaned nodeId w₀ t₀)
    (h : Recovered nodeId w₀ w) :
    Meets k c w₀ (Recovery.markFailed taskId) w
      (fun r w' => ∃ u, r = .ok u ∧ Recovered nodeId w₀ w') := by
  unfold Recovery.markFailed
  refine meets_store (.close (by decide) (by decide) ht (not_refuses_of_open hopen))
    (fun r w' hC => ⟨(), rfl, h.of_leases_eq hC.clock hC.reply.1 ?_⟩)
  refine h.rows_step hC (fun t ht => by cases ht) (fun t₀ ht₀ u hu u' hquiet _ hchange => ?_)
  cases hchange with
  | status hid _ =>
      have hrow : u = t := Table.eq_of_mem_of_key_eq hu (Table.mem_of_get? ht)
        (hid.trans (Table.key_of_get? ht).symm)
      refine ⟨⟨by decide, hrow ▸ hopen⟩, .orphaned (horphaned t₀ ht₀ ?_)⟩
      exact hquiet.gate.id.symm.trans hid

theorem meets_rescheduleStep (hc : c = .recover nodeId) {rescheduled : Nat} {taskId : String}
    (hnamed : Named nodeId w₀ taskId) (h : Recovered nodeId w₀ w) :
    Meets k c w₀ (Recovery.rescheduleStep rescheduled taskId) w
      (fun r w' => ∃ n, r = .ok n ∧ Recovered nodeId w₀ w') := by
  unfold Recovery.rescheduleStep
  refine meets_store (.idle trivial) (fun task w₁ hC₁ => ?_)
  have h₁ := h.read hC₁.clock hC₁.reply.2
  cases task with
  | none => exact ⟨rescheduled, rfl, h₁⟩
  | some t =>
      obtain ⟨l, hl, hnode, htask, hstatus⟩ := hnamed
      refine meets_store (.unassign hc h₁.quiet hl hnode htask hstatus h₁.others)
        (fun unassigned w₂ hC₂ => ?_)
      obtain ⟨h₂, horphaned⟩ := h₁.unassign ⟨l, hl, hnode, htask, hstatus⟩ hC₂
      obtain ⟨-, -, hyes⟩ := hC₂.reply
      cases unassigned with
      | false => exact ⟨rescheduled, rfl, h₂⟩
      | true =>
          obtain ⟨-, u, -, -, hrow⟩ := hyes rfl
          refine meets_store (.idle trivial) (fun scheduled w₃ hC₃ => ?_)
          have h₃ := h₂.schedule hC₃
          obtain ⟨u', hu', hopen⟩ := open_after_pass hrow rfl hC₃
          have hfailed : ∀ w₄ : Timed Board, Recovered nodeId w₀ w₄ → w₄.state = w₃.state →
              Meets k c w₀ (Recovery.markFailed taskId >>= fun _ => pure rescheduled) w₄
                (fun r w' => ∃ n, r = .ok n ∧ Recovered nodeId w₀ w') := by
            intro w₄ h₄ hsame
            exact Wp.seq (meets_markFailed (hsame ▸ hu') hopen (horphaned rfl) h₄)
              (fun _ w₅ h₅ => ⟨rescheduled, rfl, h₅⟩)
          split
          · refine meets_store (.idle trivial) (fun task w₄ hC₄ => ?_)
            have h₄ := h₃.read hC₄.clock hC₄.reply.2
            split
            · exact ⟨rescheduled + 1, rfl, h₄⟩
            · exact hfailed w₄ h₄ hC₄.reply.2
          · exact hfailed w₃ h₃ rfl

/-- A recovery issues what `Issued` lists, and its effect is `Recovered`. -/
theorem meets_triggerRecovery (w₀ : Timed Board) (hc : c = .recover nodeId) :
    Meets k c w₀ (Recovery.triggerRecovery nodeId) w₀
      (fun r w' => ∃ summary, r = .ok summary ∧ Recovered nodeId w₀ w') := by
  unfold Recovery.triggerRecovery
  refine Wp.seq (meets_revokeAllForNode w₀) (fun taskIds w₁ h₁ => ?_)
  split
  · exact ⟨_, rfl, Recovered.start h₁⟩
  · refine Wp.seq (I := fun _ w => Recovered nodeId w₀ w)
      (wp_foldlM taskIds _ (fun taskId htask n w h =>
        meets_rescheduleStep hc (h₁.named taskId htask) h) 0 (Recovered.start h₁))
      (fun n w₂ h₂ => ⟨_, rfl, h₂⟩)

end Recovery

end HermesCluster
