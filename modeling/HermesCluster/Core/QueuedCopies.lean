import HermesCluster.Core.ReportDelivery
/-!
# Queued copies

A task that waits for its lane waits as a copy of the row main listed, and its
worker is spawned from that copy. What main did to the task meanwhile is not
asked again: the claim pass compares with main's list only what it has not
queued, and the cancel sweep looks only at live spawns. A history keeps, for
each task, whether main has shown it running here ever since the copy was taken.
-/

namespace HermesCluster

open Program hiding pure bind
open Executor AgentExecutor

/-! ## Lapsed copies -/

/-- Main's row of a task shows it running on the executor's node. -/
def runsHere (e : Executor) (row : Option Task) : Bool :=
  match row with
  | none => false
  | some t => decide (t.status = .running) && isAssignedToMe e t.assignedTo

/-- What a run has seen of main. -/
structure Copies where
  /-- The tasks that main listed as running here, once the claim pass has asked. -/
  shown : Option (List Task) := none
  /-- Since main was last asked while the task did not wait, main has not shown
  it running here all the time. -/
  lapsed : String → Bool := fun _ => false
  /-- The lapsed tasks when the claim pass began. -/
  atGate : String → Bool := fun _ => false

namespace Copies

variable {σ : Type} {step : (op : ExecOp) → σ → op.Res × σ} {main : σ → String → Option Task}
  {here : Executor}

/-- The history after an operation, where `main` is what main's rows are in each
state of the environment. -/
def note (step : (op : ExecOp) → σ → op.Res × σ) (main : σ → String → Option Task)
    (here : Executor) (s : σ) (op : ExecOp) (s' : σ) (c : Copies) : Copies :=
  let off := fun id => !runsHere here (main s' id)
  match op with
  | .diskGateBlocks =>
      { shown := none, lapsed := fun id => c.lapsed id || off id, atGate := c.lapsed }
  | .getTasks e =>
      { c with
        shown := some (candidates e ((step (.getTasks e) s).1.getD []) [] [])
        lapsed := fun id => (c.lapsed id && decide (e.Waits id)) || off id }
  | _ => { c with lapsed := fun id => c.lapsed id || off id }

/-- The task is a row main has just listed, or a copy that had not lapsed when
the claim pass took it up. -/
def Backs : Copies → Task → Prop
  | ⟨some rows, _, _⟩, task => task ∈ rows
  | ⟨none, _, atGate⟩, task => atGate task.id = false

/-- A worker is spawned only for such a task. -/
def Spawns (c : Copies) : ExecOp → Prop
  | .popen _ task => c.Backs task
  | _ => True

instance : (c : Copies) → (task : Task) → Decidable (c.Backs task)
  | ⟨some rows, _, _⟩, task => inferInstanceAs (Decidable (task ∈ rows))
  | ⟨none, _, atGate⟩, task => inferInstanceAs (Decidable (atGate task.id = false))

instance (c : Copies) : (op : ExecOp) → Decidable (c.Spawns op)
  | .popen _ task => inferInstanceAs (Decidable (c.Backs task))
  | .time | .monotonic | .diskGateBlocks | .getTasks _ | .getTask _ | .getLeases
  | .extendLease _ | .report _ _ | .block _ _ | .requeue _ _ _ | .ackCancel _ | .release _ _ _
  | .observe _ | .kill _ | .getLane _ | .recordTaskSpawn _ | .deleteTaskSpawn _
  | .getAllTaskSpawns _ => isTrue trivial

/-- Where the disk gate lets a claim pass through, none of the copies it takes
up has lapsed. -/
def TakesLive (step : (op : ExecOp) → σ → op.Res × σ) (e : Executor) (s : σ × Copies) : Prop :=
  (step .diskGateBlocks s.1).1 = false → ∀ t ∈ takenUp e, s.2.lapsed t.id = false

instance (e : Executor) (s : σ × Copies) : Decidable (TakesLive step e s) :=
  inferInstanceAs (Decidable (_ → _))

/-! ## The history as a contract -/

/-- What an operation tells the history of main's list and of the gate. -/
def Tells (op : ExecOp) (c : Copies) (r : op.Res) (c' : Copies) : Prop :=
  match op, r with
  | .diskGateBlocks, _ => True
  | .getTasks e, tasks => c'.shown = some (candidates e (tasks.getD []) [] [])
  | _, _ => c'.shown = c.shown ∧ c'.atGate = c.atGate

theorem tells_note : Implements (noting step (note step main here)) Prod.snd Tells := by
  rintro op ⟨s, c⟩
  cases op with
  | diskGateBlocks => trivial
  | getTasks e => rfl
  | time | monotonic | getTask | getLeases | extendLease | report | block | requeue | ackCancel
  | release | popen | observe | kill | getLane | recordTaskSpawn | deleteTaskSpawn
  | getAllTaskSpawns => exact ⟨rfl, rfl⟩

/-- Main's list has not been asked for anew. -/
theorem Tells.same {op : ExecOp} {c c' : Copies} {r : op.Res} (h : Tells op c r c')
    (hgate : op ≠ .diskGateBlocks) (hlist : ∀ e, op ≠ .getTasks e) :
    c'.shown = c.shown ∧ c'.atGate = c.atGate := by
  cases op with
  | diskGateBlocks => exact absurd rfl hgate
  | getTasks e => exact absurd rfl (hlist e)
  | time | monotonic | getTask | getLeases | extendLease | report | block | requeue | ackCancel
  | release | popen | observe | kill | getLane | recordTaskSpawn | deleteTaskSpawn
  | getAllTaskSpawns => exact h

end Copies

open Copies

/-! ## The claim pass -/

section Claim

variable [Unicode] {e : Executor} {c : Copies}

/-- The program spawns only what the history backs, and leaves `I` of it. -/
abbrev Backed {α : Type} (p : Exec α) (c : Copies) (Q : α → Prop) (I : Copies → Prop) : Prop :=
  p.Wp Tells (fun c op => c.Spawns op) c (fun r c' => ∃ a, r = .ok a ∧ Q a ∧ I c')

omit [Unicode] in
theorem backed_of_only {α : Type} {S : ExecOp → Prop} {Q : α → Prop} {p : Exec α} (h : p.Only S)
    (hQ : p.Returns Q) (hspawns : ∀ {c' : Copies} {op}, c'.shown = c.shown ∧ c'.atGate = c.atGate →
      S op → c'.Spawns op) (hgate : ¬S .diskGateBlocks) (hlist : ∀ e, ¬S (.getTasks e)) :
    Backed p c Q (fun c' => c'.shown = c.shown ∧ c'.atGate = c.atGate) := by
  refine wp_of_only h hQ ⟨rfl, rfl⟩ hspawns (fun {op} b r b' hb hop hC => ?_)
  have hsame := hC.same (fun heq => hgate (heq ▸ hop)) (fun e heq => hlist e (heq ▸ hop))
  exact ⟨hsame.1.trans hb.1, hsame.2.trans hb.2⟩

omit [Unicode] in
theorem Copies.Backs.of_same {c' : Copies} {task : Task} (h : c.Backs task)
    (hshown : c'.shown = c.shown) (hgate : c'.atGate = c.atGate) : c'.Backs task := by
  obtain ⟨shown, lapsed, atGate⟩ := c
  obtain ⟨shown', lapsed', atGate'⟩ := c'
  cases hshown
  cases hgate
  cases shown with
  | none => exact h
  | some rows => exact h

theorem backed_spawnWorker {task : Task} (h : c.Backs task) :
    Backed (spawnWorker task e) c (fun _ => True)
      (fun c' => c'.shown = c.shown ∧ c'.atGate = c.atGate) := by
  refine backed_of_only (only_spawnWorker task e) (returns_true _) ?_ id (fun _ => id)
  intro c' op hsame hop
  cases op with
  | popen e' t =>
      obtain rfl : t = task := hop
      exact h.of_same hsame.1 hsame.2
  | time | monotonic | getTask | getLeases | extendLease | report | block | requeue | ackCancel
  | release | diskGateBlocks | getTasks | observe | kill | getLane | recordTaskSpawn
  | deleteTaskSpawn | getAllTaskSpawns => trivial

omit [Unicode] in
/-- What the executor does to its node id, to read its store again. -/
theorem returns_refreshPersistedIds (e : Executor) :
    (refreshPersistedIds e).Returns (fun e' => e'.nodeId = e.nodeId) := by
  unfold refreshPersistedIds
  split
  · exact returns_pure rfl
  · exact returns_pure rfl
  · refine returns_perform (fun now => ?_)
    split
    · exact returns_pure rfl
    · refine returns_perform (fun records => ?_)
      split
      · exact returns_pure rfl
      · exact returns_pure (fields_foldl_reattachRecord _ _).2

omit [Unicode] in
/-- The candidates are among what main lists as running here. -/
theorem mem_candidates_of_nodeId {e e' : Executor} (hnode : e'.nodeId = e.nodeId)
    {tasks : List Task} {active queued : List String} {t : Task}
    (ht : t ∈ candidates e' tasks active queued) : t ∈ candidates e tasks [] [] := by
  unfold candidates isAssignedToMe at ht ⊢
  rw [hnode, List.mem_insertionSort, List.mem_filter] at ht
  rw [List.mem_insertionSort, List.mem_filter]
  refine ⟨ht.1, ?_⟩
  simp only [Bool.and_eq_true, decide_eq_true_eq, List.not_mem_nil, not_false_eq_true, and_true]
  simp only [Bool.and_eq_true, decide_eq_true_eq] at ht
  exact ht.2.1.1

/-- The released heads that the pass takes up have not lapsed. -/
theorem backed_spawnReleased (maxSpawns : Nat) (hshown : c.shown = none)
    (hlive : ∀ t ∈ (drainReleasedLanes e).1.take maxSpawns, c.atGate t.id = false) :
    Backed (spawnReleased maxSpawns e) c (fun _ => True) (fun _ => True) := by
  unfold spawnReleased
  dsimp only
  refine Wp.seq (I := fun _ _ => True) (Wp.mono (wp_foldlM
    (I := fun _ c' => c'.shown = c.shown ∧ c'.atGate = c.atGate) _ _
    (fun t ht e' c' hsame => ?_) _ ⟨rfl, rfl⟩) ?_) (fun e' c' _ => ⟨_, rfl, trivial, trivial⟩)
  · have hbacked : c.Backs t := by
      obtain ⟨shown, lapsed, atGate⟩ := c
      cases hshown
      exact hlive t ht
    refine (backed_spawnWorker (hbacked.of_same hsame.1 hsame.2)).mono ?_
    rintro r c₂ ⟨e₂, hr, -, hshown', hgate'⟩
    exact ⟨e₂, hr, hshown'.trans hsame.1, hgate'.trans hsame.2⟩
  · rintro r c' ⟨e', hr, -⟩
    exact ⟨e', hr, trivial⟩

theorem backed_claimCandidate {st : Nat × Executor} {task : Task} (h : c.Backs task) :
    Backed (claimCandidate st task) c (fun _ => True)
      (fun c' => c'.shown = c.shown ∧ c'.atGate = c.atGate) := by
  obtain ⟨budget, e⟩ := st
  unfold claimCandidate
  dsimp only
  split
  · refine backed_of_only (S := (· = .time)) ?_ (returns_true _) ?_ (fun h => ?_) (fun e h => ?_)
    · exact only_bind (only_queueForLane _ _ _ _ rfl) (fun _ => only_pure _)
    · rintro c' op - rfl
      trivial
    · cases h
    · cases h
  · split
    · exact ⟨_, rfl, trivial, rfl, rfl⟩
    · refine Wp.seq (I := fun _ c' => c'.shown = c.shown ∧ c'.atGate = c.atGate)
        ((backed_spawnWorker h).mono ?_) (fun e' c' hsame => ⟨_, rfl, trivial, hsame⟩)
      rintro r c' ⟨e', hr, -, hsame⟩
      exact ⟨e', hr, hsame⟩

theorem backed_claimListed (budget : Nat) :
    Backed (claimListed budget e) c (fun _ => True) (fun _ => True) := by
  unfold claimListed
  refine wp_perform.mpr ⟨trivial, fun tasks c₁ hshown => ?_⟩
  cases tasks with
  | none => exact ⟨_, rfl, trivial, trivial⟩
  | some tasks =>
      replace hshown : c₁.shown = some (candidates e tasks [] []) := hshown
      dsimp only
      refine Wp.seq (I := fun e' c' => e'.nodeId = e.nodeId ∧ c'.shown = c₁.shown) (Wp.mono
        (backed_of_only (only_refreshPersistedIds e) (returns_refreshPersistedIds e) ?_ ?_ ?_) ?_)
        (fun e' c' hkept => ?_)
      · rintro c' op - (rfl | ⟨e', rfl⟩)
        · trivial
        · trivial
      · rintro (h | ⟨e', h⟩) <;> cases h
      · rintro e (h | ⟨e', h⟩) <;> cases h
      · rintro r c' ⟨e', hr, hnode, hsame, -⟩
        exact ⟨e', hr, hnode, hsame⟩
      · obtain ⟨hnode, hsame⟩ := hkept
        refine Wp.seq (I := fun _ _ => True) (Wp.mono (wp_foldlM
          (I := fun _ c₂ => c₂.shown = c₁.shown) _ _ (fun t ht st c₂ hsame' => ?_) _ hsame) ?_)
          (fun st c₂ _ => ⟨_, rfl, trivial, trivial⟩)
        · have hlisted := mem_candidates_of_nodeId hnode ht
          have hbacked : c₂.Backs t := by
            obtain ⟨shown, lapsed, atGate⟩ := c₂
            cases hsame'.trans hshown
            exact hlisted
          refine (backed_claimCandidate hbacked).mono ?_
          rintro r c₃ ⟨st', hr, -, hshown', -⟩
          exact ⟨st', hr, hshown'.trans hsame'⟩
        · rintro r c₂ ⟨st, hr, -⟩
          exact ⟨st, hr, trivial⟩

/-! ## Runs -/

variable {σ : Type} {step : (op : ExecOp) → σ → op.Res × σ} {main : σ → String → Option Task}
  {here : Executor}

omit [Unicode] in
theorem spawns_of_upkeepOp {op : ExecOp} (h : UpkeepOp op) (c : Copies) : c.Spawns op := by
  cases op with
  | popen e t => cases h
  | time | monotonic | getTask | getLeases | extendLease | report | block | requeue | ackCancel
  | release | diskGateBlocks | getTasks | observe | kill | getLane | recordTaskSpawn
  | deleteTaskSpawn | getAllTaskSpawns => trivial

/-- A claim pass that takes up no lapsed copy. -/
theorem along_claimPass {s : σ × Copies} (htakes : TakesLive step e s) :
    (claimPass e).Along (noting step (note step main here)) (fun s op _ => s.2.Spawns op) s := by
  refine (claimPass_of_passThrough (C := fun _ _ _ => True) (I := fun _ _ => True) trivial trivial
    (fun _ => trivial) (fun hopen _ _ => ?_) (along_of_forall (fun _ _ => trivial) _ _)).1
  generalize hgate : noting step (note step main here) .diskGateBlocks s = after at hopen ⊢
  have hlive := htakes (congrArg Prod.fst hgate |>.trans hopen)
  have hbacked : Backed (passThrough e) after.2.2 (fun _ => True) (fun _ => True) := by
    unfold passThrough
    refine Wp.seq (I := fun _ _ => True) (Wp.mono (backed_spawnReleased _ ?_ ?_) ?_)
      (fun e' c' _ => ?_)
    · rw [← hgate]
      rfl
    · rw [← hgate]
      exact hlive
    · rintro r c' ⟨e', hr, -⟩
      exact ⟨e', hr, trivial⟩
    · dsimp only
      split
      · exact ⟨_, rfl, trivial, trivial⟩
      · exact backed_claimListed _
  exact ⟨(along_of_wp tells_note hbacked).1, after_iff.mpr fun _ _ => trivial⟩

/-- Through any run of an executor in any environment, whatever main does to its
tasks: as long as no claim pass takes up a lapsed copy, each worker is spawned
from a row that main has just listed as running here, or from a queued copy of a
task that main showed running here all the while. -/
theorem spawnsLive_of_claims (step : (op : ExecOp) → σ → op.Res × σ)
    (main : σ → String → Option Task) (cycles : Nat) (e : Executor) (s : σ)
    (htakes : ClaimsMeet (noting step (note step main e)) (TakesLive step) cycles e (s, {})) :
    (start cycles e).Along (noting step (note step main e)) (fun s op _ => s.2.Spawns op)
      (s, {}) := by
  refine (start_of_parts (C := fun _ _ _ => True) (I := fun _ _ => True) (fun e s _ _ => ?_)
    (fun e s _ htakes _ => ?_) htakes (fun _ => ?_) (along_of_forall (fun _ _ => trivial) _ _)).1
  · refine ⟨(along_of_only (only_upkeep e)).mono fun s op _ hop => ?_,
      after_iff.mpr fun _ _ => trivial⟩
    exact spawns_of_upkeepOp hop s.2
  · exact ⟨along_claimPass htakes, after_iff.mpr fun _ _ => trivial⟩
  · refine ⟨(along_of_only (only_reconcilePersistedSpawns e)).mono ?_,
      after_iff.mpr fun _ _ => trivial⟩
    rintro s op - (rfl | ⟨e', rfl⟩)
    · trivial
    · trivial

end Claim

section Example

local instance asciiCopies : Unicode := Unicode.ascii

/-- Two tasks of one lane, running on the node `n`. -/
def queuedMates : List Task :=
  [{ id := "a", title := "a", status := .running, assignedTo := some "n", laneKey := "lane",
     createdAt := 1, updatedAt := 1 },
   { id := "b", title := "b", status := .running, assignedTo := some "n", laneKey := "lane",
     createdAt := 1, updatedAt := 1 }]

/-- Main's rows once it has, or has not yet, cancelled the second task. -/
def queuedMatesRow (cancelled : Bool) (id : String) : Option Task :=
  (queuedMates.find? (fun t => t.id = id)).map fun t =>
    if cancelled = true ∧ t.id = "b" then { t with status := .cancelled } else t

/-- Workers are done at the next look at them; `cancels` says whether main
cancels the second task then, while it waits for the lane. -/
def queuedMatesWorld (cancels : Bool) : (op : ExecOp) → Bool → op.Res × Bool
  | .time, c | .monotonic, c => (0, c)
  | .diskGateBlocks, c => (false, c)
  | .getTasks _, c => (some (["a", "b"].filterMap (queuedMatesRow c)), c)
  | .getTask id, c => (queuedMatesRow c id, c)
  | .getLeases, c => (none, c)
  | .extendLease _, c | .report _ _, c | .block _ _, c | .requeue _ _ _, c | .ackCancel _, c =>
      (true, c)
  | .release _ _ _, c | .kill _, c | .recordTaskSpawn _, c | .deleteTaskSpawn _, c => ((), c)
  | .popen _ _, c => (.started, c)
  | .observe _, c => (some { outcome := .done, detail := "" }, c || cancels)
  | .getLane _, c => (none, c)
  | .getAllTaskSpawns _, c => (some [], c)

theorem spawnsLive_of_claims_kept :
    (start 2 { nodeId := "n", maxConcurrent := 2 }).Along
      (noting (queuedMatesWorld false) (note (queuedMatesWorld false) queuedMatesRow
        { nodeId := "n", maxConcurrent := 2 })) (fun s op _ => s.2.Spawns op) (false, {}) :=
  spawnsLive_of_claims (queuedMatesWorld false) queuedMatesRow 2
    { nodeId := "n", maxConcurrent := 2 } false (by decide)

/-- The second task is cancelled while it waits for the worker of the first, and
spawned in the next cycle all the same. -/
theorem cancelled_copy_spawned :
    ¬(start 2 { nodeId := "n", maxConcurrent := 2 }).Along
      (noting (queuedMatesWorld true) (note (queuedMatesWorld true) queuedMatesRow
        { nodeId := "n", maxConcurrent := 2 })) (fun s op _ => s.2.Spawns op) (false, {}) := by
  decide

end Example

end HermesCluster
