import HermesCluster.Routers.Footprint
/-!
# One sitting per lane

The schedule pass lets no ready task through whose lane has an active one, and
no two of one lane. The claim endpoint starts a ready task without a look at its
lane; nothing else starts a task.
-/

namespace HermesCluster

open Program hiding pure bind

/-- At most one task of each lane is active. -/
def OnePerLane (tasks : Table Task) : Prop :=
  ∀ t ∈ tasks.rows, ∀ u ∈ tasks.rows, t.laneKey ≠ "" → u.laneKey = t.laneKey →
    t.status.IsActive → u.status.IsActive → u = t

/-- No other task of the lane is active. -/
def LaneFree (tasks : Table Task) (t : Task) : Prop :=
  t.laneKey ≠ "" → ∀ u ∈ tasks.rows, u.laneKey = t.laneKey → u.id ≠ t.id → ¬u.status.IsActive

/-- What keeps lanes apart, of one operation: a task that it makes active by a
plain write has its lane free. -/
def KeepsLanes (tasks : Table Task) : StoreOp → Prop
  | .setTaskStatus taskId status _ =>
      status.IsActive → ∀ t, tasks.get? taskId = some t → LaneFree tasks t
  | .handleSyncMessage _ => False
  | _ => True

section Step

variable [Unicode] {k : Backend} {now : Nat} {b b' : Board} {op : StoreOp} {t t' u u' : Task}

/-- How it comes that a row is active after an operation. -/
inductive Activity (now : Nat) (b : Board) (op : StoreOp) (t : Task) : Prop
  | before (hactive : t.status.IsActive)
  | assigned (hop : op = .schedulePendingDetailed) (hcandidate : IsCandidate now b t)
  | written {status reason} (hop : op = .setTaskStatus t.id status reason)
      (hactive : status.IsActive)

omit [Unicode] in
theorem TaskStatus.not_isActive_ready : ¬TaskStatus.ready.IsActive := by decide

omit [Unicode] in
theorem TaskStatus.not_isActive_pending : ¬TaskStatus.pending.IsActive := by decide

theorem Rewrites.activity (h : Rewrites k now b op t t') (hop : KeepsLanes b.tasks op)
    (hactive : t'.status.IsActive) : t'.laneKey = t.laneKey ∧ Activity now b op t := by
  rcases h with rfl | hchange
  · exact ⟨rfl, .before hactive⟩
  cases hchange with
  | status hid =>
      rw [← hid]
      exact ⟨rfl, .written rfl hactive⟩
  | assign hcandidate => exact ⟨rfl, .assigned rfl hcandidate⟩
  | result | ballot | cancelRequeue | dependencies | writeRow | hold =>
      exact ⟨rfl, .before hactive⟩
  | sync | overwrite => exact hop.elim
  | @replaceBatch _ plan =>
      by_cases hdeps : plan.dependsOn = []
      · rw [ClusterState.batchTask, if_pos hdeps] at hactive
        exact absurd hactive TaskStatus.not_isActive_ready
      · rw [ClusterState.batchTask, if_neg hdeps] at hactive
        exact absurd hactive TaskStatus.not_isActive_pending
  | unassign | resume | requeue | promote | promoteRow | promoteBatch =>
      exact absurd hactive TaskStatus.not_isActive_ready
  | unblock | demote | replace => exact absurd hactive TaskStatus.not_isActive_pending

omit [Unicode] in
theorem Created.not_active (h : Created k now op t) (hop : KeepsLanes b.tasks op) :
    ¬t.status.IsActive := by
  cases h with
  | pending | batchPending => exact TaskStatus.not_isActive_pending
  | promoted | batchPromoted => exact TaskStatus.not_isActive_ready
  | @batch _ plan =>
      unfold ClusterState.batchTask
      split
      · exact TaskStatus.not_isActive_ready
      · exact TaskStatus.not_isActive_pending
  | synced => exact hop.elim

omit [Unicode] in
/-- Two rows of a lane that are active after an operation are one row. -/
theorem Activity.unique (h : OnePerLane b.tasks) (hop : KeepsLanes b.tasks op)
    (ht : t ∈ b.tasks.rows) (hu : u ∈ b.tasks.rows) (hlane : t.laneKey ≠ "")
    (hkey : u.laneKey = t.laneKey) (htact : Activity now b op t) (huact : Activity now b op u) :
    u.id = t.id := by
  cases htact with
  | before htactive =>
      cases huact with
      | before huactive => rw [h t ht u hu hlane hkey htactive huactive]
      | assigned _ hcandidate =>
          obtain ⟨-, hready, -, hfree⟩ := hcandidate
          have hidle := not_active_of_free hu hready (hkey ▸ hlane) hfree t ht hkey.symm
          exact absurd htactive hidle
      | written hwrites huactive =>
          subst hwrites
          by_contra hne
          exact hop huactive u (Table.get?_of_mem hu) (hkey ▸ hlane) t ht hkey.symm
            (fun hid => hne hid.symm) htactive
  | assigned hpass hcandidate =>
      obtain ⟨-, hready, -, hfree⟩ := hcandidate
      cases huact with
      | before huactive =>
          exact absurd huactive (not_active_of_free ht hready hlane hfree u hu hkey)
      | assigned _ hcandidate' =>
          obtain ⟨-, hready', -, hfree'⟩ := hcandidate'
          rw [eq_of_free ht hready hlane hfree hu hready' hfree' hkey]
      | written hwrites _ => cases hpass.symm.trans hwrites
  | written hwrites htactive =>
      subst hwrites
      cases huact with
      | before huactive =>
          by_contra hne
          exact hop htactive t (Table.get?_of_mem ht) hlane u hu hkey hne huactive
      | assigned hpass _ => cases hpass
      | written hwrites' _ =>
          injection hwrites' with hid
          exact hid.symm

theorem onePerLane_step {now : Nat} (h : OnePerLane b.tasks) (hop : KeepsLanes b.tasks op)
    (hevolves : b.tasks.Evolves (Rewrites k now b op) (Created k now op) b'.tasks) :
    OnePerLane b'.tasks := by
  intro t' ht' u' hu' hlane hkey htactive huactive
  rcases hevolves.exists_of_mem ht' with ⟨t, ht, hrow⟩ | hnew
  · rcases hevolves.exists_of_mem hu' with ⟨u, hu, hrow'⟩ | hnew'
    · obtain ⟨htlane, htact⟩ := hrow.activity hop htactive
      obtain ⟨hulane, huact⟩ := hrow'.activity hop huactive
      have hid := Activity.unique h hop ht hu (htlane ▸ hlane)
        (hulane.symm.trans (hkey.trans htlane)) htact huact
      exact Table.eq_of_mem_of_key_eq hu' ht' (hrow'.id_eq.trans (hid.trans hrow.id_eq.symm))
    · exact absurd huactive (hnew'.not_active hop)
  · exact absurd htactive (hnew.not_active hop)

end Step

/-! ## Calls -/

section Calls

variable [Unicode] {k : Backend} {w : Timed k.Store}

/-- What a call needs of the board it begins on: a claim that is accepted finds
the lane of its task free. -/
def LaneSafe (c : Call) (b : Board) : Prop :=
  match c with
  | .claim taskId _ => ∀ t, b.tasks.get? taskId = some t → t.status = .ready →
      t.assignedTo = none → LaneFree b.tasks t
  | _ => True

omit [Unicode] in
theorem keepsLanes_of_writes {tasks : Table Task} {op : StoreOp}
    (h : Writes (fun s => ¬s.IsActive) op) : KeepsLanes tasks op := by
  cases op with
  | setTaskStatus => exact fun hactive => absurd hactive h
  | handleSyncMessage => exact h
  | _ => trivial

omit [Unicode] in
theorem writes_of_recovering {op : StoreOp} (h : Recovering op) :
    Writes (fun s => ¬s.IsActive) op := by
  cases op with
  | setTaskStatus taskId status reason =>
      obtain rfl : status = .failed := h
      exact (by decide : ¬TaskStatus.failed.IsActive)
  | unblockTask | handleSyncMessage => exact h.elim
  | _ => trivial

theorem Call.only_writes (c : Call) (hc : ∀ taskId req, c ≠ .claim taskId req) :
    c.prog.Only (Writes (fun s => ¬s.IsActive)) := by
  refine c.only permits_writes writes_of_recovering (fun _ => trivial) (fun _ => trivial)
    (fun _ _ => trivial) (fun hidle _ => hidle) (fun taskId req h => absurd h (hc taskId req))
    (fun _ _ _ => ?_)
  exact ⟨by decide, fun _ => trivial⟩

/-- A claim starts a task that it has found to be ready and not assigned. -/
theorem wp_claimTask (taskId : String) (req : ClaimTaskRequest) {w : Timed Board}
    (hsafe : LaneSafe (.claim taskId req) w.state) :
    (Tasks.claimTask taskId req).Wp (Contract k) (fun w op => KeepsLanes w.state.tasks op) w
      (fun _ _ => True) := by
  unfold Tasks.claimTask Tasks.requireTask
  rw [bind_assoc]
  refine wp_perform.mpr ⟨trivial, fun r w₁ hC => ?_⟩
  obtain ⟨rfl, hsame⟩ := hC.reply
  cases hget : w.state.tasks.get? taskId with
  | none => trivial
  | some t =>
      rw [pure_bind]
      split
      · trivial
      · rename_i hready
        rw [not_not] at hready
        split
        · trivial
        · rename_i hfree
          rw [not_not] at hfree
          refine wp_perform.mpr ⟨fun _ u hu => ?_, fun _ w₂ _ => ?_⟩
          · rw [hsame] at hu ⊢
            obtain rfl : t = u := Option.some.inj (hget.symm.trans hu)
            exact hsafe t hget hready hfree
          · refine Only.wp (S := Writes (fun s => ¬s.IsActive)) ?_
              (fun _ _ => keepsLanes_of_writes)
            refine only_bind (only_writeTaskRow trivial) (fun _ => ?_)
            refine only_bind (only_create permits_writes.allows _ _) (fun _ => ?_)
            exact only_store trivial (fun _ => trivial)

theorem Call.keeps_onePerLane (c : Call) (hsafe : LaneSafe c (k.board w.state))
    (h : OnePerLane (k.board w.state).tasks) :
    c.prog.Keeps k.tick (fun _ _ w' => OnePerLane (k.board w'.state).tasks)
      (fun w => OnePerLane (k.board w.state).tasks) w := by
  have halong : c.prog.Along k.tick (fun w op _ => KeepsLanes (k.board w.state).tasks op) w := by
    by_cases hc : ∀ taskId req, c ≠ .claim taskId req
    · have hwp : c.prog.Wp (Contract k) (fun (w : Timed Board) op => KeepsLanes w.state.tasks op)
          (k.view w) (fun _ _ => True) :=
        (c.only_writes hc).wp (fun _ _ => keepsLanes_of_writes)
      exact (along_of_wp k.implements hwp).1
    · simp only [not_forall, not_not] at hc
      obtain ⟨taskId, req, rfl⟩ := hc
      have hclaim : LaneSafe (.claim taskId req) (k.view w).state := hsafe
      have hwp : (Call.claim taskId req).prog.Wp (Contract k)
          (fun (w : Timed Board) op => KeepsLanes w.state.tasks op) (k.view w)
          (fun _ _ => True) := by
        refine wp_bind.mpr ((wp_claimTask taskId req hclaim).mono (fun r _ _ => ?_))
        cases r <;> trivial
      exact (along_of_wp k.implements hwp).1
  refine keeps_of_along (A := fun w op => KeepsLanes (k.board w.state).tasks op) halong h
    (fun w op h hop => ?_)
  have hnext := onePerLane_step h hop (k.implements op w).tasks
  exact ⟨hnext, hnext⟩

/-- On any store, through any run of calls from a board with at most one active
task on each lane, such as one whose tasks were only submitted, in which each
accepted claim finds the lane of its task free: after each operation, at most
one task of each lane is active. -/
theorem onePerLane_of_calls (k : Backend) (cs : List TimedCall) (w : Timed k.Store)
    (hstart : OnePerLane (k.board w.state).tasks)
    (hsafe : k.CallsMeet (fun c w => LaneSafe c (k.board w.state)) cs w) :
    k.AlongCalls (fun _ _ w' => OnePerLane (k.board w'.state).tasks) cs w ∧
      OnePerLane (k.board (k.runCalls cs w).state).tasks := by
  have henter : ∀ (c : TimedCall) (w : Timed k.Store), OnePerLane (k.board w.state).tasks →
      OnePerLane (k.board (c.enter w).state).tasks := fun _ _ h => h
  exact alongAll_of_calls (I := fun w : Timed k.Store => OnePerLane (k.board w.state).tasks)
    henter (fun c _ h hsafe => c.call.keeps_onePerLane hsafe h) hstart hsafe

end Calls

section Example

local instance asciiLanes : Unicode := Unicode.ascii

/-- A store with one node and no tasks. -/
def emptyLanes : ClusterState where
  nodes := .single { id := "n" }
  index_ok := indexOk_initial

/-- The in-memory store after a run that begins with no tasks. -/
def ranLanes (cs : List TimedCall) : ClusterState :=
  (Backend.memory.runCalls cs ⟨emptyLanes, fun _ => 0⟩).state

/-- Two tasks of one lane. -/
def laneMates : TimedCall :=
  ⟨.createBatch [{ taskId := "a", title := "a", laneKey := "lane" },
    { taskId := "b", title := "b", laneKey := "lane" }], fun _ => 1⟩

/-- The pass starts the first and holds the other back, which is claimed when the
first is done. -/
theorem onePerLane_of_calls_inTurn :
    OnePerLane (ranLanes [laneMates, ⟨.schedulePass, fun _ => 2⟩, ⟨.complete "a" none, fun _ => 3⟩,
      ⟨.claim "b" { nodeId := "n" }, fun _ => 4⟩]).tasks := by
  refine (onePerLane_of_calls .memory
    [laneMates, ⟨.schedulePass, fun _ => 2⟩, ⟨.complete "a" none, fun _ => 3⟩,
      ⟨.claim "b" { nodeId := "n" }, fun _ => 4⟩] ⟨emptyLanes, fun _ => 0⟩
    (fun t ht => by cases ht) ⟨trivial, trivial, trivial, ?_, trivial⟩).2
  intro t ht _ _ _ u hu hkey hne
  have hidle : ∀ t ∈ (ranLanes [laneMates, ⟨.schedulePass, fun _ => 2⟩,
      ⟨.complete "a" none, fun _ => 3⟩]).tasks.rows, t.id ≠ "b" → ¬t.status.IsActive := by
    decide
  exact hidle u hu (Table.key_of_get? ht ▸ hne)

/-- The first is still running when the other is claimed. -/
theorem two_sittings_claimed :
    ¬OnePerLane (ranLanes [laneMates, ⟨.schedulePass, fun _ => 2⟩,
      ⟨.claim "b" { nodeId := "n" }, fun _ => 3⟩]).tasks := by
  intro h
  have hactive : ∀ t ∈ (ranLanes [laneMates, ⟨.schedulePass, fun _ => 2⟩,
      ⟨.claim "b" { nodeId := "n" }, fun _ => 3⟩]).tasks.rows,
      t.laneKey = "lane" ∧ t.status.IsActive := by
    decide
  have hone : ∀ t ∈ (ranLanes [laneMates, ⟨.schedulePass, fun _ => 2⟩,
      ⟨.claim "b" { nodeId := "n" }, fun _ => 3⟩]).tasks.rows,
      ∀ u ∈ (ranLanes [laneMates, ⟨.schedulePass, fun _ => 2⟩,
        ⟨.claim "b" { nodeId := "n" }, fun _ => 3⟩]).tasks.rows, u = t := by
    intro t ht u hu
    obtain ⟨hlane, htactive⟩ := hactive t ht
    obtain ⟨hlane', huactive⟩ := hactive u hu
    exact h t ht u hu (by rw [hlane]; decide) (hlane'.trans hlane.symm) htactive huactive
  revert hone
  decide

end Example

end HermesCluster
