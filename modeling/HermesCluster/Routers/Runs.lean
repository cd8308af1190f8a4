import HermesCluster.Recovery.Pipeline
/-!
# Runs of calls

From what a call issues to what a run of calls keeps. A sweep is a run of
recoveries, so a condition on calls is asked of each of its recoveries, on the
store that recovery begins on.
-/

namespace HermesCluster

open Program hiding pure bind

section Runs

variable [Unicode]

/-! ## What a call issues -/

theorem meetsAny_pure_bind {k : Backend} {c : Call} {w₀ w : Timed Board} {α : Type}
    {p : Api α} (hp : MeetsAny k c w₀ p w) :
    MeetsAny k c w₀ (p >>= fun _ => pure ()) w :=
  meetsAny_bind hp (fun _ _ => trivial)

theorem Call.meetsAny (k : Backend) (c : Call) (w₀ : Timed Board)
    (hc : ∀ order, c ≠ .sweep order) : MeetsAny k c w₀ c.prog w₀ := by
  cases c with
  | submit => exact meetsAny_pure_bind (meetsAny_submitTask rfl)
  | createBatch plans => exact meetsAny_store (.batch rfl rfl) (fun _ _ => trivial)
  | claim => exact meetsAny_pure_bind meetsAny_claimTask
  | release => exact meetsAny_pure_bind (meetsAny_releaseTask rfl)
  | complete => exact meetsAny_pure_bind (meetsAny_completeTask rfl)
  | fail => exact meetsAny_pure_bind (meetsAny_failTask rfl)
  | cancel => exact meetsAny_pure_bind meetsAny_cancelTask
  | block => exact meetsAny_pure_bind meetsAny_blockTask
  | answer => exact meetsAny_pure_bind (meetsAny_answerTask rfl)
  | unblock => exact meetsAny_pure_bind meetsAny_unblockTask
  | advance => exact meetsAny_pure_bind (meetsAny_manualAdvance rfl)
  | setDependencies => exact meetsAny_pure_bind (meetsAny_setDependencies rfl)
  | triggerPending => exact meetsAny_store (.idle trivial) (fun _ _ => trivial)
  | schedulePass => exact meetsAny_store (.idle trivial) (fun _ _ => trivial)
  | recover =>
      exact meetsAny_pure_bind ((meets_triggerRecovery w₀ rfl).mono (fun _ _ _ => trivial))
  | sweep order => exact absurd rfl (hc order)

/-! ## Reopened rows -/

/-- How it comes that a call puts a row `t` of the board `b` to ready: the row
was found to pass both gates, an operator advanced it, or the call resumes the
task, whose row stood still since the call began. -/
inductive Reopening (k : Backend) (c : Call) (w₀ : Timed Board) (b : Board) (t : Task) : Prop
  | promotes (hpending : t.status = .pending) (hdeps : DepsCompleted b.tasks t)
      (hgate : LandingGate.holdReason b.tasks.rows t = none)
  | advances (hc : c = .advance t.id) (hdeps : DepsCompleted b.tasks t)
  | resumes {t₀} (hquiet : Quiet w₀.state b) (hget : w₀.state.tasks.get? t.id = some t₀)
      (hrow : QuietRow t₀ t) (hguard : k = .memory → ¬t₀.status.IsTerminal)
      (hresumes : c.Resumes w₀ t₀)

section Reopened

variable {k : Backend} {c : Call} {w₀ : Timed Board} {b : Board} {op : StoreOp} {t : Task}

omit [Unicode] in
theorem Calm.row (h : Calm w₀.state b) {t₀ : Task} (ht : t ∈ b.tasks.rows)
    (hget : w₀.state.tasks.get? t.id = some t₀) : CalmRow t₀ t := by
  obtain ⟨u, hu, hrow⟩ := h.of_get? (Table.get?_of_mem ht)
  have hsame : some u = some t₀ := hu.symm.trans hget
  cases hsame
  exact hrow

/-- A call reopens a row in no other way. -/
theorem Issued.reopening {now : Nat} (h : Issued c w₀ b op) (hnow : ∃ i, now = w₀.clock i)
    (ht : t ∈ b.tasks.rows) (hreopens : Reopens k now b op t) : Reopening k c w₀ b t := by
  have hrow : ∀ {taskId : String} {u : Task}, b.tasks.get? taskId = some u →
      t.id = taskId → u = t := by
    intro taskId u hu hid
    exact Table.eq_of_mem_of_key_eq (Table.mem_of_get? hu) ht
      ((Table.key_of_get? hu).trans hid.symm)
  cases h with
  | idle hidle => cases op <;> first | exact hidle.elim | exact hreopens.elim
  | submit | batch | dependencies => exact hreopens.elim
  | close hready => exact absurd hreopens.1 hready
  | promote hget hpending hdeps hgate =>
      obtain ⟨-, hid, -⟩ := hreopens
      cases hrow hget hid
      exact .promotes hpending hdeps hgate
  | claim => cases hreopens.1
  | advance hc hget _ hdeps =>
      obtain ⟨-, hid, -⟩ := hreopens
      cases hrow hget hid
      exact .advances (hid ▸ hc) hdeps
  | @release _ _ t₀ hc hcalm hget hown =>
      obtain ⟨-, rfl, hguard⟩ := hreopens
      have hid : t₀.id = t.id := Table.key_of_get? hget
      have hsame := hcalm.row ht hget
      refine .resumes hcalm.toQuiet hget hsame.quiet (fun hk hended => hguard hk ?_)
        (.release (hid.symm ▸ hc) hown)
      rw [hsame.status]
      exact ⟨hended, fun hack => by cases hack.2⟩
  | @retry _ _ t₀ hretries hcalm hget =>
      obtain ⟨rfl, -, hcap⟩ := hreopens
      have hid : t₀.id = t.id := Table.key_of_get? hget
      have hsame := hcalm.row ht hget
      exact .resumes hcalm.toQuiet hget hsame.quiet (fun _ => hretries.1)
        (.retry (hid.symm ▸ hretries) (hsame.attempts ▸ hcap))
  | @resume _ _ t₀ hc hcalm hget hanswers =>
      obtain ⟨rfl, -⟩ := hreopens
      have hid : t₀.id = t.id := Table.key_of_get? hget
      exact .resumes hcalm.toQuiet hget (hcalm.row ht hget).quiet
        (fun _ => TaskStatus.not_isTerminal_of_blocked hanswers.1)
        (.answer (hid.symm ▸ hc) hanswers)
  | unassign hc hquiet hl hnode htask hstatus hothers =>
      obtain ⟨rfl, hopen, hfree⟩ := hreopens
      obtain ⟨t₀, hget, hsame⟩ := hquiet.of_get? (Table.get?_of_mem ht)
      have horphaned := orphaned_of_unleased hnow hl hnode htask hstatus hothers hfree hopen hsame
      exact .resumes hquiet hget hsame (fun _ => horphaned.unended) (.recover hc horphaned)

end Reopened

/-! ## Conditions on calls -/

/-- The recoveries of a sweep meet a condition, each on the store it begins on. -/
def Backend.SweepMeets (k : Backend) (cond : Call → Timed Board → Prop)
    (order : Recovery.SetOrder) (w : Timed k.Store) : Prop :=
  let expired : List Lease × Timed k.Store :=
    k.tick .getExpiredLeases (k.tick .getActiveLeases w).2
  Program.CallsMeet k.tick (fun _ w => w) (fun nodeId => (Call.recover nodeId).prog)
    (fun nodeId w => cond (.recover nodeId) (k.view w))
    (order.iterate (expired.1.map Lease.nodeId)) expired.2

/-- A call meets a condition on the store it begins on. -/
def Backend.Meets (k : Backend) (cond : Call → Timed Board → Prop) (c : Call)
    (w : Timed k.Store) : Prop :=
  match c with
  | .sweep order => k.SweepMeets cond order w
  | c => cond c (k.view w)

theorem Backend.meets_iff {k : Backend} {cond : Call → Timed Board → Prop} {c : Call}
    {w : Timed k.Store} (hc : ∀ order, c ≠ .sweep order) :
    k.Meets cond c w ↔ cond c (k.view w) := by
  cases c with
  | sweep order => exact absurd rfl (hc order)
  | _ => rfl

variable {k : Backend} {cond : Call → Timed Board → Prop} {I : Timed k.Store → Prop}
  {P : Timed k.Store → StoreOp → Timed k.Store → Prop}

theorem Backend.keeps_issued {c : Call} {w₀ : Timed k.Store} (hc : ∀ order, c ≠ .sweep order)
    (hI : I w₀)
    (hstep : ∀ w op, Later w₀.clock w.clock → I w →
      Issued c (k.view w₀) (k.board w.state) op →
      P w op (k.tick op w).2 ∧ I (k.tick op w).2) :
    c.prog.Keeps k.tick P I w₀ := by
  have halong := (along_of_wp k.implements (c.meetsAny k (k.view w₀) hc)).1
  have hkeeps := keeps_of_along (P := P) (I := fun w => I w ∧ Later w₀.clock w.clock) halong
    ⟨hI, Later.refl _⟩ (fun w op hw hissued => by
      obtain ⟨hop, hnext⟩ := hstep w op hw.2 hw.1 hissued
      exact ⟨hop, hnext, hw.2.next⟩)
  exact ⟨hkeeps.1, hkeeps.2.1⟩

theorem Backend.keeps_sweep {order : Recovery.SetOrder} {w : Timed k.Store}
    (hidle : ∀ w op, Idle op → I w → P w op (k.tick op w).2 ∧ I (k.tick op w).2)
    (hrecover : ∀ nodeId w, I w → cond (.recover nodeId) (k.view w) →
      (Call.recover nodeId).prog.Keeps k.tick P I w)
    (hI : I w) (hcond : k.SweepMeets cond order w) :
    (Recovery.detectExpiredLeases order).Keeps k.tick P I w := by
  obtain ⟨hactive, hI₁⟩ := hidle w .getActiveLeases trivial hI
  obtain ⟨hexpired, hI₂⟩ := hidle _ .getExpiredLeases trivial hI₁
  have hloop := keeps_forM hrecover hI₂ hcond
  obtain ⟨hlast, hI₃⟩ := hidle _ .unleasedRunningTasks trivial hloop.2
  unfold Recovery.detectExpiredLeases
  refine keeps_perform hactive (keeps_perform hexpired ?_)
  exact keeps_bind hloop (fun _ _ => keeps_perform hlast (keeps_pure hI₃))

theorem Backend.keeps_call (cond : Call → Timed Board → Prop)
    (hidle : ∀ w op, Idle op → I w → P w op (k.tick op w).2 ∧ I (k.tick op w).2)
    (hstep : ∀ c (w₀ w : Timed k.Store) op, cond c (k.view w₀) → Later w₀.clock w.clock →
      I w → Issued c (k.view w₀) (k.board w.state) op →
      P w op (k.tick op w).2 ∧ I (k.tick op w).2)
    (c : Call) (w : Timed k.Store) (hI : I w) (hcond : k.Meets cond c w) :
    c.prog.Keeps k.tick P I w := by
  by_cases hc : ∀ order, c ≠ .sweep order
  · rw [Backend.meets_iff hc] at hcond
    exact Backend.keeps_issued hc hI (fun w' op hlater => hstep c w w' op hcond hlater)
  · obtain ⟨order, hsweep⟩ := not_forall.mp hc
    obtain rfl := not_not.mp hsweep
    have hsweep := Backend.keeps_sweep hidle (fun nodeId w hI hcond =>
      Backend.keeps_issued (fun _ h => by cases h) hI
        (fun w' op hlater => hstep (.recover nodeId) w w' op hcond hlater)) hI hcond
    exact keeps_bind hsweep (fun _ _ => keeps_pure hsweep.2)

theorem Backend.runs_keep
    (hidle : ∀ w op, Idle op → I w → P w op (k.tick op w).2 ∧ I (k.tick op w).2)
    (hstep : ∀ c (w₀ w : Timed k.Store) op, cond c (k.view w₀) → Later w₀.clock w.clock →
      I w → Issued c (k.view w₀) (k.board w.state) op →
      P w op (k.tick op w).2 ∧ I (k.tick op w).2)
    (henter : ∀ (c : TimedCall) w, I w → I (c.enter w)) {cs : List TimedCall}
    {w : Timed k.Store} (hI : I w) (hcond : k.CallsMeet (k.Meets cond) cs w) :
    k.AlongCalls P cs w ∧ I (k.runCalls cs w) :=
  alongAll_of_calls henter
    (fun c w hI hcond => Backend.keeps_call cond hidle hstep c.call w hI hcond)
    hI hcond

end Runs

end HermesCluster
