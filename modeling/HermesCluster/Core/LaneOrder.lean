import HermesCluster.Core.ReportDelivery
/-!
# The order of a lane

A delivery that finds its lane busy waits in the lane's queue; the head of a free
lane is released, and spawned by the next claim pass. The line of a lane is what
was released of it, and then its queue. A history of the arrivals and of what
claim passes take from the lines says that lines are left in the order they were
entered in, by each delivery once.
-/

namespace HermesCluster

open Program hiding pure bind

namespace Executor

variable {e e' : Executor} {L : String}

/-! ## Lines -/

/-- What waits for a lane, first come first. -/
def lineOf (e : Executor) (L : String) : List Task :=
  AgentExecutor.fifoOf e.laneReleased L ++ AgentExecutor.fifoOf e.laneQueue L

/-- The tasks of one lane. -/
def ofLane (L : String) (tasks : List Task) : List Task :=
  tasks.filter (fun t => decide (t.laneKey = L))

/-- The lanes in flight. -/
def busyLanes (e : Executor) : List String :=
  (e.activeSpawns.rows.map ActiveSpawn.laneKey).filter (fun laneKey => decide (laneKey ≠ ""))

/-- At most one delivery of each lane is in flight, none of a lane whose head is
released; and everything stands in the line of its own lane. -/
structure InLine (e : Executor) : Prop where
  single : e.busyLanes.Nodup
  free : ∀ L, AgentExecutor.fifoOf e.laneReleased L ≠ [] → L ∉ e.busyLanes
  own : ∀ L, ∀ t ∈ e.lineOf L, t.laneKey = L
  payload : ∀ s ∈ e.activeSpawns.rows, ∀ t, s.taskPayload = some t → t.laneKey = s.laneKey

theorem mem_busyLanes : L ∈ e.busyLanes ↔ L ≠ "" ∧ ∃ s ∈ e.activeSpawns.rows, s.laneKey = L := by
  unfold busyLanes
  rw [List.mem_filter, List.mem_map, decide_eq_true_eq, and_comm]

theorem laneHasActiveDelivery_iff (hL : L ≠ "") :
    AgentExecutor.laneHasActiveDelivery e L = true ↔ L ∈ e.busyLanes := by
  unfold AgentExecutor.laneHasActiveDelivery
  rw [mem_busyLanes, List.any_eq_true]
  simp only [decide_eq_true_eq]
  exact (and_iff_right hL).symm

theorem ofLane_append (tasks tasks' : List Task) :
    ofLane L (tasks ++ tasks') = ofLane L tasks ++ ofLane L tasks' :=
  List.filter_append ..

theorem ofLane_eq_self {tasks : List Task} (h : ∀ t ∈ tasks, t.laneKey = L) :
    ofLane L tasks = tasks :=
  List.filter_eq_self.mpr (fun t ht => decide_eq_true (h t ht))

theorem ofLane_eq_nil {tasks : List Task} (h : ∀ t ∈ tasks, t.laneKey ≠ L) :
    ofLane L tasks = [] :=
  List.filter_eq_nil_iff.mpr (fun t ht hL => h t ht (of_decide_eq_true hL))

theorem fifoOf_upsert (q : Table LaneFifo) (laneKey : String) (tasks : List Task) (L : String) :
    AgentExecutor.fifoOf (q.upsert ⟨laneKey, tasks⟩) L =
      if L = laneKey then tasks else AgentExecutor.fifoOf q L := by
  unfold AgentExecutor.fifoOf
  rw [Table.get?_upsert]
  by_cases h : L = laneKey
  · rw [if_pos h, if_pos (by rw [LaneFifo.key_eq, h])]
    rfl
  · rw [if_neg h, if_neg (by rw [LaneFifo.key_eq]; exact fun heq => h heq.symm)]

theorem fifoOf_erase (q : Table LaneFifo) (laneKey L : String) :
    AgentExecutor.fifoOf (q.erase laneKey) L =
      if L = laneKey then [] else AgentExecutor.fifoOf q L := by
  unfold AgentExecutor.fifoOf
  rw [Table.get?_erase]
  split
  · rfl
  · rfl

theorem ofLane_flatMap_rows (rows : List LaneFifo) (hnodup : (rows.map LaneFifo.laneKey).Nodup)
    (hown : ∀ f ∈ rows, ∀ t ∈ f.tasks, t.laneKey = f.laneKey) (L : String) :
    ofLane L (rows.flatMap LaneFifo.tasks) =
      ((rows.find? (fun f => decide (f.laneKey = L))).map LaneFifo.tasks).getD [] := by
  induction rows with
  | nil => rfl
  | cons f rows ih =>
      rw [List.map_cons, List.nodup_cons] at hnodup
      rw [List.forall_mem_cons] at hown
      rw [List.flatMap_cons, ofLane_append, List.find?_cons]
      by_cases hL : f.laneKey = L
      · rw [decide_eq_true hL]
        have hrest : ofLane L (rows.flatMap LaneFifo.tasks) = [] := by
          refine ofLane_eq_nil (fun t ht heq => ?_)
          obtain ⟨f', hf', ht'⟩ := List.mem_flatMap.mp ht
          have hkey : f'.laneKey = f.laneKey := ((hown.2 f' hf' t ht').symm.trans heq).trans hL.symm
          exact hnodup.1 (hkey ▸ List.mem_map_of_mem hf')
        rw [hrest, List.append_nil]
        exact ofLane_eq_self (fun t ht => (hown.1 t ht).trans hL)
      · rw [decide_eq_false hL, ih hnodup.2 hown.2]
        have hhere : ofLane L f.tasks = [] :=
          ofLane_eq_nil (fun t ht heq => hL ((hown.1 t ht).symm.trans heq))
        rw [hhere, List.nil_append]

theorem ofLane_flatMap (q : Table LaneFifo)
    (hown : ∀ L, ∀ t ∈ AgentExecutor.fifoOf q L, t.laneKey = L) (L : String) :
    ofLane L (q.rows.flatMap LaneFifo.tasks) = AgentExecutor.fifoOf q L := by
  refine ofLane_flatMap_rows q.rows q.nodup (fun f hf t ht => hown f.laneKey t ?_) L
  unfold AgentExecutor.fifoOf
  rw [show q.get? f.laneKey = some f from Table.get?_of_mem hf]
  exact ht

/-! ## What moves in a line -/

/-- Between two executors the lines are entered and left, each at its own end. -/
def Flow (e e' : Executor) (entered left : List Task) : Prop :=
  ∀ L, L ≠ "" → e.lineOf L ++ ofLane L entered = ofLane L left ++ e'.lineOf L

theorem Flow.of_eq (h : ∀ L, e'.lineOf L = e.lineOf L) : Flow e e' [] [] := by
  intro L _
  rw [h L]
  exact List.append_nil _

theorem Flow.trans {e'' : Executor} {entered left entered' left' : List Task}
    (h : Flow e e' entered left) (h' : Flow e' e'' entered' left') :
    Flow e e'' (entered ++ entered') (left ++ left') := by
  intro L hL
  calc e.lineOf L ++ ofLane L (entered ++ entered')
      = (e.lineOf L ++ ofLane L entered) ++ ofLane L entered' := by
        rw [ofLane_append, List.append_assoc]
    _ = ofLane L left ++ (e'.lineOf L ++ ofLane L entered') := by
        rw [h L hL, List.append_assoc]
    _ = ofLane L (left ++ left') ++ e''.lineOf L := by
        rw [h' L hL, ofLane_append, List.append_assoc]

/-- The queues and what was released of them. -/
structure SameLines (e e' : Executor) : Prop where
  queue : e'.laneQueue = e.laneQueue
  released : e'.laneReleased = e.laneReleased

theorem SameLines.lineOf (h : SameLines e e') (L : String) : e'.lineOf L = e.lineOf L := by
  unfold Executor.lineOf
  rw [h.queue, h.released]

theorem SameLines.refl (e : Executor) : SameLines e e := ⟨rfl, rfl⟩

theorem SameLines.trans {e'' : Executor} (h : SameLines e e') (h' : SameLines e' e'') :
    SameLines e e'' :=
  ⟨h'.queue.trans h.queue, h'.released.trans h.released⟩

theorem InLine.of_sublist (h : e.InLine)
    (hactive : e'.activeSpawns.rows.Sublist e.activeSpawns.rows) (hlines : SameLines e e') :
    e'.InLine := by
  have hbusy : e'.busyLanes.Sublist e.busyLanes := (hactive.map _).filter _
  refine ⟨h.single.sublist hbusy, fun L hL hmem => ?_, fun L t ht => ?_,
    fun s hs => h.payload s (hactive.subset hs)⟩
  · rw [hlines.released] at hL
    exact h.free L hL (hbusy.subset hmem)
  · rw [hlines.lineOf L] at ht
    exact h.own L t ht

/-- One more delivery in flight, of a lane that is free and has no head released. -/
theorem InLine.upsert {spawn : ActiveSpawn} (h : e.InLine)
    (hfree : spawn.laneKey = "" ∨ spawn.laneKey ∉ e.busyLanes)
    (hreleased : spawn.laneKey ≠ "" → AgentExecutor.fifoOf e.laneReleased spawn.laneKey = [])
    (hpayload : ∀ t, spawn.taskPayload = some t → t.laneKey = spawn.laneKey) :
    ({ e with activeSpawns := e.activeSpawns.upsert spawn } : Executor).InLine := by
  have hperm := e.activeSpawns.rows_upsert_perm spawn
  have hless : (e.activeSpawns.erase (HasKey.key spawn)).rows.Sublist e.activeSpawns.rows :=
    List.filter_sublist
  have hbusy : ({ e with activeSpawns := e.activeSpawns.upsert spawn } : Executor).busyLanes.Perm
      ((if spawn.laneKey = "" then [] else [spawn.laneKey]) ++
        ((e.activeSpawns.erase (HasKey.key spawn)).rows.map ActiveSpawn.laneKey).filter
          (fun laneKey => decide (laneKey ≠ ""))) := by
    refine ((hperm.map _).filter _).trans (.of_eq ?_)
    rw [List.map_cons, List.filter_cons]
    by_cases hL : spawn.laneKey = ""
    · rw [if_pos hL, if_neg (by simp [hL])]
      rfl
    · rw [if_neg hL, if_pos (by simpa using hL)]
      rfl
  have hold : ∀ L, L ∈ ((e.activeSpawns.erase (HasKey.key spawn)).rows.map
      ActiveSpawn.laneKey).filter (fun laneKey => decide (laneKey ≠ "")) → L ∈ e.busyLanes :=
    fun L hL => ((hless.map _).filter _).subset hL
  refine ⟨hbusy.nodup_iff.mpr ?_, fun L hL hmem => ?_, h.own, fun s hs => ?_⟩
  · have hrest := h.single.sublist ((hless.map ActiveSpawn.laneKey).filter _)
    split
    · exact hrest
    · rename_i hL
      exact List.nodup_cons.mpr ⟨fun hmem => hfree.elim hL (fun hnot => hnot (hold _ hmem)), hrest⟩
  · rcases List.mem_append.mp (hbusy.mem_iff.mp hmem) with hnew | hmem
    · split at hnew
      · cases hnew
      · rename_i hne
        rw [List.mem_singleton] at hnew
        exact hL (hnew ▸ hreleased hne)
    · exact h.free L hL (hold L hmem)
  · rcases e.activeSpawns.mem_rows_upsert.mp hs with rfl | ⟨hmem, -⟩
    · exact hpayload
    · exact h.payload s hmem

end Executor

open Executor AgentExecutor

-- whether a reason is blank is never computed below
attribute [local irreducible] Text.strip

/-! ## Histories of the lanes -/

/-- What a busy refusal puts back: a spawn that was attached from a record has
no payload, and only its id is left of the task. -/
def busyPayload (spawn : ActiveSpawn) : Task :=
  spawn.taskPayload.getD { id := spawn.taskId, title := "", createdAt := 0, updatedAt := 0 }

/-- What a run has seen of deliveries. -/
structure LaneHistory where
  /-- The claim pass has read main's list. -/
  listed : Bool := false
  /-- What may have entered a line: refused workers, and tasks main listed. -/
  arrivals : List Task := []
  /-- What claim passes took from the lines: each id when its worker was started
  or the task was given back to main. -/
  handedOut : List String := []

namespace LaneHistory

def arrive (tasks : List Task) (h : LaneHistory) : LaneHistory :=
  { h with arrivals := h.arrivals ++ tasks }

def handOut (id : String) (h : LaneHistory) : LaneHistory :=
  if h.listed = true then h else { h with handedOut := h.handedOut ++ [id] }

/-- The history after an operation and its reply. -/
def note (op : ExecOp) (r : op.Res) (h : LaneHistory) : LaneHistory :=
  match op, r with
  | .diskGateBlocks, _ => { h with listed := false }
  | .getTasks e, tasks => ({ h with listed := true }).arrive (candidates e (tasks.getD []) [] [])
  | .observe spawn, some seen =>
      if seen.outcome = .laneBusyRefused then h.arrive [busyPayload spawn] else h
  | .popen _ task, _ => h.handOut task.id
  | .release taskId _ _, _ => h.handOut taskId
  | _, _ => h

end LaneHistory

/-- The records that the executor does not track. -/
def untracked (e : Executor) (records : List SpawnRecord) : List SpawnRecord :=
  records.filter (fun r => (e.activeSpawns.get? r.taskId).isNone)

/-- The lanes of some records. -/
def recordLanes (records : List SpawnRecord) : List String :=
  (records.map SpawnRecord.laneKey).filter (fun laneKey => decide (laneKey ≠ ""))

/-- What a reply keeps of the lanes: no worker that was attached from a record
is refused by its lane, and records that turn up in the store are of different
lanes, none of them in flight. -/
def LaneReply (op : ExecOp) (r : op.Res) : Prop :=
  match op, r with
  | .observe spawn, some seen => seen.outcome = .laneBusyRefused → spawn.taskPayload.isSome = true
  | .getAllTaskSpawns e, some records =>
      (recordLanes (untracked e records)).Nodup ∧
        ∀ L ∈ recordLanes (untracked e records), L ∉ e.busyLanes
  | _, _ => True

instance (op : ExecOp) (r : op.Res) : Decidable (LaneReply op r) := by
  unfold LaneReply
  split <;> infer_instance

/-- A worker is started only while its lane is free. -/
def StartsOnFreeLane : ExecOp → Prop
  | .popen e task => task.laneKey = "" ∨ laneHasActiveDelivery e task.laneKey = false
  | _ => True

instance (op : ExecOp) : Decidable (StartsOnFreeLane op) := by
  unfold StartsOnFreeLane
  split <;> infer_instance

/-- Nothing about a delivery. -/
def LaneQuiet : ExecOp → Prop
  | .diskGateBlocks | .getTasks _ | .observe _ | .popen _ _ | .release _ _ _ => False
  | _ => True

section Rules

variable {α α' : Type} {h : LaneHistory} {Q : α → LaneHistory → Prop}

/-- Given such replies, the program starts workers only on free lanes, and ends
with `Q` of its history. -/
abbrev InTurn (p : Exec α) (h : LaneHistory) (Q : α → LaneHistory → Prop) : Prop :=
  p.Wp (fun op h r h' => LaneReply op r ∧ h' = h.note op r) (fun _ op => StartsOnFreeLane op) h
    (fun r h' => ∃ a, r = .ok a ∧ Q a h')

theorem inTurn_pure {a : α} (ha : Q a h) : InTurn (pure a) h Q := ⟨a, rfl, ha⟩

theorem inTurn_ask {op : ExecOp} {f : op.Res → Exec α} (hop : StartsOnFreeLane op)
    (hf : ∀ r, LaneReply op r → InTurn (f r) (h.note op r) Q) : InTurn (ask op >>= f) h Q := by
  refine wp_perform.mpr ⟨hop, ?_⟩
  rintro r _ ⟨hr, rfl⟩
  exact hf r hr

theorem inTurn_bind {p : Exec α'} {f : α' → Exec α} {I : α' → LaneHistory → Prop}
    (hp : InTurn p h I) (hf : ∀ a h', I a h' → InTurn (f a) h' Q) : InTurn (p >>= f) h Q :=
  Wp.seq hp hf

theorem InTurn.mono {Q' : α → LaneHistory → Prop} {p : Exec α} (hp : InTurn p h Q)
    (hQ : ∀ a h', Q a h' → Q' a h') : InTurn p h Q' :=
  Wp.mono hp (fun _ _ ⟨a, hr, ha⟩ => ⟨a, hr, hQ a _ ha⟩)

theorem inTurn_of_only {I : α → Prop} {p : Exec α} (hp : p.Only LaneQuiet) (hI : p.Returns I) :
    InTurn p h (fun a h' => I a ∧ h' = h) := by
  refine (wp_of_only (I := (· = h)) hp hI rfl (fun {_ op} _ hop => ?_) ?_)
  · cases op <;> trivial
  · rintro op _ r _ rfl hop ⟨-, rfl⟩
    cases op <;> first | rfl | cases hop

end Rules

/-! ## The ledger of the lanes -/

/-- What was handed out, and what still waits, is what entered, in its order. -/
def LaneLedger (e : Executor) (arrivals : List Task) (handedOut : List String) : Prop :=
  ∃ entered left : List Task, handedOut = left.map Task.id ∧ entered.Sublist arrivals ∧
    ∀ L, L ≠ "" → ofLane L entered = ofLane L left ++ e.lineOf L

theorem LaneLedger.flow {e e' : Executor} {arrivals arrivals' entered left : List Task}
    {handedOut : List String} (hledger : LaneLedger e arrivals handedOut)
    (hflow : Flow e e' entered left) (harrived : entered.Sublist arrivals') :
    LaneLedger e' (arrivals ++ arrivals') (handedOut ++ left.map Task.id) := by
  obtain ⟨entered₀, left₀, rfl, hsub, hlines⟩ := hledger
  refine ⟨entered₀ ++ entered, left₀ ++ left, (List.map_append ..).symm, hsub.append harrived,
    fun L hL => ?_⟩
  calc ofLane L (entered₀ ++ entered)
      = ofLane L left₀ ++ (e.lineOf L ++ ofLane L entered) := by
        rw [ofLane_append, hlines L hL, List.append_assoc]
    _ = ofLane L (left₀ ++ left) ++ e'.lineOf L := by
        rw [hflow L hL, ofLane_append, List.append_assoc]

theorem LaneLedger.mono {e : Executor} {arrivals arrivals' : List Task} {handedOut : List String}
    (hledger : LaneLedger e arrivals handedOut) (h : arrivals.Sublist arrivals') :
    LaneLedger e arrivals' handedOut := by
  obtain ⟨entered, left, hout, hsub, hlines⟩ := hledger
  exact ⟨entered, left, hout, hsub.trans h, hlines⟩

variable {e : Executor} {h : LaneHistory}

/-! ## The upkeep -/

/-- A delivery enters its line at the end, or not at all. -/
theorem returns_queueForLane {laneKey : String} {task : Task} {attempts : Nat} (hin : e.InLine)
    (hlane : task.laneKey = laneKey) :
    (queueForLane laneKey task attempts e).Returns (fun r => r.2.InLine ∧
      r.2.activeSpawns = e.activeSpawns ∧ r.2.laneReleased = e.laneReleased ∧
      ∃ entered, entered.Sublist [task] ∧ Flow e r.2 entered []) := by
  let q := fifoOf e.laneQueue laneKey
  have hqueue : ∀ (tasks : List Task) (queueMeta : Table QueueMeta) (L : String),
      ({ e with laneQueue := (e.laneQueue.upsert ⟨laneKey, q⟩).upsert ⟨laneKey, tasks⟩,
                laneQueueMeta := queueMeta } : Executor).lineOf L =
        if L = laneKey then fifoOf e.laneReleased L ++ tasks else e.lineOf L := by
    intro tasks queueMeta L
    unfold Executor.lineOf
    dsimp only
    rw [fifoOf_upsert]
    split
    · rfl
    · rename_i hL
      rw [fifoOf_upsert, if_neg hL]
  have hsame : ∀ L, ({ e with laneQueue := e.laneQueue.upsert ⟨laneKey, q⟩ } : Executor).lineOf L =
      e.lineOf L := by
    intro L
    unfold Executor.lineOf
    dsimp only
    rw [fifoOf_upsert]
    split
    · rename_i hL
      rw [hL]
    · rfl
  have hkept : ({ e with laneQueue := e.laneQueue.upsert ⟨laneKey, q⟩ } : Executor).InLine :=
    ⟨hin.single, hin.free, fun L t ht => hin.own L t (hsame L ▸ ht), hin.payload⟩
  unfold queueForLane
  dsimp only
  split
  · exact returns_pure ⟨hkept, rfl, rfl, [], List.nil_sublist _, Flow.of_eq hsame⟩
  · split
    · exact returns_pure ⟨hkept, rfl, rfl, [], List.nil_sublist _, Flow.of_eq hsame⟩
    · refine returns_perform (fun now => returns_pure ⟨⟨hin.single, hin.free, fun L t ht => ?_,
        hin.payload⟩, rfl, rfl, [task], List.Sublist.refl _, fun L _ => ?_⟩)
      · rw [hqueue] at ht
        split at ht
        · rename_i hL
          subst hL
          rw [← List.append_assoc] at ht
          rcases List.mem_append.mp ht with hold | hnew
          · exact hin.own L t hold
          · rw [List.mem_singleton.mp hnew, hlane]
        · exact hin.own L t ht
      · rw [hqueue]
        split
        · rename_i hL
          rw [ofLane_eq_self (L := L) (by simpa using hlane.trans hL.symm), hL]
          exact List.append_assoc _ _ _
        · rename_i hL
          rw [ofLane_eq_nil (L := L) (by simpa [hlane] using Ne.symm hL), List.append_nil]
          rfl

/-- The payloads of the workers that their lanes refused. -/
def refusals (resolved : List (ActiveSpawn × Resolution)) : List Task :=
  (resolved.filter (fun x => decide (x.2.outcome = .laneBusyRefused))).map
    (fun x => busyPayload x.1)

/-- A resolved spawn of which the lane can be told. -/
def Told (x : ActiveSpawn × Resolution) : Prop :=
  x.2.outcome = .laneBusyRefused → (busyPayload x.1).laneKey = x.1.laneKey

theorem returns_dropPersistedSpawn (taskId : String) (e : Executor) :
    (dropPersistedSpawn taskId e).Returns
      (fun e' => e'.activeSpawns = e.activeSpawns ∧ SameLines e e') := by
  unfold dropPersistedSpawn
  split
  · exact returns_pure ⟨rfl, SameLines.refl e⟩
  · exact returns_perform (fun _ => returns_pure ⟨rfl, rfl, rfl⟩)

theorem returns_queueReport (verb : ReportVerb) (taskId : String) (payload : ReportPayload)
    (e : Executor) : (queueReport verb taskId payload e).Returns
      (fun e' => e'.activeSpawns = e.activeSpawns ∧ SameLines e e') := by
  unfold queueReport
  refine returns_perform (fun ok => ?_)
  split
  · exact returns_pure ⟨rfl, SameLines.refl e⟩
  · exact returns_perform (fun _ => returns_pure ⟨rfl, rfl, rfl⟩)

theorem returns_reportCompletion (taskId : String) (result : Option String) (e : Executor) :
    (reportCompletion taskId result e).Returns
      (fun e' => e'.activeSpawns = e.activeSpawns ∧ SameLines e e') :=
  returns_queueReport .complete taskId _ e

theorem Executor.InLine.of_same {e' : Executor} (hin : e.InLine)
    (hactive : e'.activeSpawns = e.activeSpawns) (hlines : SameLines e e') : e'.InLine :=
  hin.of_sublist (by rw [hactive]) hlines

section Upkeep

variable [Unicode]

theorem returns_reportFailure (taskId reason : String) (e : Executor) :
    (reportFailure taskId reason e).Returns
      (fun e' => e'.activeSpawns = e.activeSpawns ∧ SameLines e e') := by
  unfold reportFailure
  split
  · exact returns_pure ⟨rfl, SameLines.refl e⟩
  · exact returns_queueReport _ _ _ e

/-- The delivery of a resolved spawn leaves its lane; refused, it enters it again. -/
theorem returns_reapOne {x : ActiveSpawn × Resolution} (hin : e.InLine) (htold : Told x) :
    (reapOne e x).Returns (fun e' => e'.InLine ∧
      ∃ entered, entered.Sublist (refusals [x]) ∧ Flow e e' entered []) := by
  obtain ⟨spawn, r⟩ := x
  let e₁ : Executor := { e with
    activeSpawns := e.activeSpawns.erase spawn.taskId
    laneQueueMeta := e.laneQueueMeta.erase spawn.taskId }
  have hlines : SameLines e e₁ := ⟨rfl, rfl⟩
  have hin₁ : e₁.InLine := hin.of_sublist List.filter_sublist hlines
  -- what neither touches the lines nor the live spawns
  have hkept : ∀ {e' e'' : Executor} {entered : List Task}, e'.InLine →
      entered.Sublist (refusals [(spawn, r)]) → Flow e e' entered [] →
      e''.activeSpawns = e'.activeSpawns ∧ SameLines e' e'' →
      e''.InLine ∧ ∃ entered, entered.Sublist (refusals [(spawn, r)]) ∧ Flow e e'' entered [] := by
    intro e' e'' entered hin' hsub hflow ⟨hactive, hsame⟩
    refine ⟨hin'.of_same hactive hsame, entered, hsub, ?_⟩
    have hrest := hflow.trans (Flow.of_eq (fun L => hsame.lineOf L))
    rwa [List.append_nil] at hrest
  have hquiet : ∀ {e'' : Executor}, e''.activeSpawns = e₁.activeSpawns ∧ SameLines e₁ e'' →
      e''.InLine ∧ ∃ entered, entered.Sublist (refusals [(spawn, r)]) ∧ Flow e e'' entered [] :=
    fun hsame => hkept hin₁ (List.nil_sublist _) (Flow.of_eq (fun L => hlines.lineOf L)) hsame
  have hreport : ∀ {e' : Executor} {p : Exec Executor},
      e'.activeSpawns = e₁.activeSpawns ∧ SameLines e₁ e' →
      p.Returns (fun e'' => e''.activeSpawns = e'.activeSpawns ∧ SameLines e' e'') →
      p.Returns (fun e'' => e''.InLine ∧
        ∃ entered, entered.Sublist (refusals [(spawn, r)]) ∧ Flow e e'' entered []) :=
    fun hsame hp => hp.mono fun e'' hrest =>
      hquiet ⟨hrest.1.trans hsame.1, hsame.2.trans hrest.2⟩
  unfold reapOne
  dsimp only
  split
  · rename_i hrefused
    have hone : refusals [(spawn, r)] = [busyPayload spawn] := by
      unfold refusals
      rw [List.filter_cons, if_pos (decide_eq_true hrefused)]
      rfl
    have hbusy : (requeueBusyRefusal spawn e₁).Returns (fun st => st.2.InLine ∧
        ∃ entered, entered.Sublist (refusals [(spawn, r)]) ∧ Flow e st.2 entered []) := by
      unfold requeueBusyRefusal
      dsimp only
      split
      · exact returns_pure (hquiet ⟨rfl, SameLines.refl e₁⟩)
      · refine returns_bind (returns_queueForLane hin₁ (htold hrefused)) ?_
        rintro ⟨ok, e₂⟩ ⟨hin₂, -, -, entered, hsub, hflow⟩
        have hflow₀ := (Flow.of_eq (fun L => hlines.lineOf L)).trans hflow
        rw [List.nil_append] at hflow₀
        replace hsub : entered.Sublist [busyPayload spawn] := hsub
        rw [← hone] at hsub
        dsimp only
        split
        · refine returns_bind (returns_dropPersistedSpawn spawn.taskId e₂) (fun e₃ hsame => ?_)
          exact returns_pure (hkept hin₂ hsub hflow₀ hsame)
        · exact returns_pure ⟨hin₂, entered, hsub, hflow₀⟩
    refine returns_bind hbusy ?_
    rintro ⟨requeued, e₂⟩ ⟨hin₂, entered, hsub, hflow⟩
    dsimp only
    split
    · exact returns_pure ⟨hin₂, entered, hsub, hflow⟩
    · refine returns_bind (returns_dropPersistedSpawn spawn.taskId e₂) (fun e₃ hsame => ?_)
      generalize "lane " ++ spawn.laneKey ++ _ ++ r.detail = reason
      refine (returns_reportFailure spawn.taskId reason _).mono (fun e₄ hrest => ?_)
      exact hkept hin₂ hsub hflow ⟨hrest.1.trans hsame.1, hsame.2.queue ▸ hrest.2.queue,
        hsame.2.released ▸ hrest.2.released⟩
  · refine returns_bind (returns_dropPersistedSpawn spawn.taskId e₁) (fun e₂ hsame => ?_)
    split
    · exact hreport hsame (returns_reportCompletion _ _ e₂)
    · exact hreport hsame (returns_reportCompletion _ _ e₂)
    · unfold reportBlocked
      split
      · exact hreport hsame (returns_reportCompletion _ _ e₂)
      · exact returns_perform (fun _ => returns_pure (hquiet hsame))
    · exact returns_perform (fun _ => returns_pure (hquiet hsame))
    · generalize "lane " ++ spawn.laneName ++ ": " ++ r.detail = reason
      exact hreport hsame (returns_reportFailure _ reason e₂)

end Upkeep

theorem returns_reapAll [Unicode] (resolved : List (ActiveSpawn × Resolution)) (hin : e.InLine)
    (htold : ∀ x ∈ resolved, Told x) :
    (resolved.foldlM reapOne e).Returns (fun e' => e'.InLine ∧
      ∃ entered, entered.Sublist (refusals resolved) ∧ Flow e e' entered []) := by
  induction resolved generalizing e with
  | nil => exact returns_pure ⟨hin, [], List.nil_sublist _, Flow.of_eq fun _ => rfl⟩
  | cons x resolved ih =>
      rw [List.forall_mem_cons] at htold
      rw [List.foldlM_cons]
      refine returns_bind (returns_reapOne hin htold.1) ?_
      rintro e₁ ⟨hin₁, entered, hsub, hflow⟩
      refine (ih hin₁ htold.2).mono ?_
      rintro e₂ ⟨hin₂, entered', hsub', hflow'⟩
      refine ⟨hin₂, entered ++ entered', ?_, hflow.trans hflow'⟩
      have hsplit : refusals (x :: resolved) = refusals [x] ++ refusals resolved := by
        unfold refusals
        rw [← List.map_append, ← List.filter_append]
        rfl
      rw [hsplit]
      exact hsub.append hsub'

/-- The looks at the workers: what the lanes refused has arrived once more. -/
theorem inTurn_observeAll (spawns : List ActiveSpawn) :
    InTurn (observeAll spawns) h (fun resolved h' => h' = h.arrive (refusals resolved) ∧
      ∀ x ∈ resolved, x.1 ∈ spawns ∧
        (x.2.outcome = .laneBusyRefused → x.1.taskPayload.isSome = true)) := by
  induction spawns generalizing h with
  | nil =>
      refine inTurn_pure ⟨?_, fun x hx => by cases hx⟩
      exact congrArg (fun arrivals => { h with arrivals := arrivals }) (List.append_nil _).symm
  | cons spawn spawns ih =>
      have hkill : ∀ seen, (killTimedOut spawn seen).Only LaneQuiet := by
        intro seen
        unfold killTimedOut
        split
        · exact only_killSpawnProcess spawn trivial
        · exact only_pure _
      unfold observeAll
      refine inTurn_ask trivial (fun seen hseen => ?_)
      refine inTurn_bind (inTurn_of_only (hkill seen) (returns_true _)) ?_
      rintro _ _ ⟨-, rfl⟩
      refine inTurn_bind ih ?_
      rintro rest _ ⟨rfl, hrest⟩
      cases seen with
      | none =>
          exact inTurn_pure ⟨rfl, fun x hx =>
            ⟨List.mem_cons_of_mem _ (hrest x hx).1, (hrest x hx).2⟩⟩
      | some r =>
          refine inTurn_pure ⟨?_, fun x hx => ?_⟩
          · unfold LaneHistory.note refusals
            dsimp only
            rw [List.filter_cons]
            by_cases hrefused : r.outcome = .laneBusyRefused
            · rw [if_pos hrefused, if_pos (decide_eq_true hrefused)]
              exact congrArg (fun arrivals => { h with arrivals := arrivals })
                (List.append_assoc _ _ _)
            · rw [if_neg hrefused, if_neg (by simpa using hrefused)]
          · rcases List.mem_cons.mp hx with rfl | hx
            · exact ⟨List.mem_cons_self, hseen⟩
            · exact ⟨List.mem_cons_of_mem _ (hrest x hx).1, (hrest x hx).2⟩

theorem returns_sweepCancelled (spawn : ActiveSpawn) (hin : e.InLine) :
    (sweepCancelled e spawn).Returns (fun e' => e'.InLine ∧ SameLines e e') := by
  have hin₁ : ({ e with activeSpawns := e.activeSpawns.erase spawn.taskId } : Executor).InLine :=
    hin.of_sublist List.filter_sublist ⟨rfl, rfl⟩
  unfold sweepCancelled
  refine returns_perform (fun row => ?_)
  cases row with
  | none => exact returns_pure ⟨hin, SameLines.refl e⟩
  | some row =>
      dsimp only
      split
      · exact returns_pure ⟨hin, SameLines.refl e⟩
      · refine returns_bind (returns_true _) (fun _ _ => ?_)
        refine returns_bind (returns_dropPersistedSpawn spawn.taskId _) (fun e₂ hsame => ?_)
        have hlines : SameLines e
            { e₂ with laneQueueMeta := e₂.laneQueueMeta.erase spawn.taskId } :=
          ⟨hsame.2.queue, hsame.2.released⟩
        have hin₂ : ({ e₂ with
            laneQueueMeta := e₂.laneQueueMeta.erase spawn.taskId } : Executor).InLine :=
          hin₁.of_same hsame.1 ⟨hsame.2.queue, hsame.2.released⟩
        split
        · exact returns_perform (fun _ => returns_pure ⟨hin₂, hlines⟩)
        · exact returns_pure ⟨hin₂, hlines⟩

/-- The lines, with the ledger of what went through them. -/
def Kept (e : Executor) (h : LaneHistory) : Prop :=
  e.InLine ∧ LaneLedger e h.arrivals h.handedOut

theorem Kept.of_same {e' : Executor} (hkept : Kept e h) (hin : e'.InLine)
    (hlines : ∀ L, e'.lineOf L = e.lineOf L) : Kept e' h := by
  have hledger := hkept.2.flow (Flow.of_eq hlines) (List.Sublist.refl [])
  rw [List.append_nil, List.map_nil, List.append_nil] at hledger
  exact ⟨hin, hledger⟩

section Upkeep

variable [Unicode]

theorem inTurn_reapFinishedSpawns (hkept : Kept e h) :
    InTurn (reapFinishedSpawns e) h (fun e' h' => Kept e' h') := by
  unfold reapFinishedSpawns
  split
  · exact inTurn_pure hkept
  · have hswept : (e.activeSpawns.rows.foldlM sweepCancelled e).Returns
        (fun e' => e'.InLine ∧ SameLines e e') :=
      returns_foldlM (I := fun e' => e'.InLine ∧ SameLines e e') _ _ (fun e' spawn he' =>
        (returns_sweepCancelled spawn he'.1).mono fun e'' he'' => ⟨he''.1, he'.2.trans he''.2⟩)
        ⟨hkept.1, SameLines.refl e⟩
    refine inTurn_bind (inTurn_of_only ((only_foldlM _ only_sweepCancelled e).mono ?_) hswept) ?_
    · intro op hop
      cases op <;> trivial
    · rintro e₁ _ ⟨⟨hin₁, hlines⟩, rfl⟩
      have hkept₁ := hkept.of_same hin₁ hlines.lineOf
      split
      · exact inTurn_pure hkept₁
      · refine inTurn_bind (inTurn_observeAll e₁.activeSpawns.rows) ?_
        rintro resolved _ ⟨rfl, hseen⟩
        have htold : ∀ x ∈ resolved, Told x := by
          intro x hx hrefused
          obtain ⟨hmem, hsome⟩ := hseen x hx
          obtain ⟨t, ht⟩ := Option.isSome_iff_exists.mp (hsome hrefused)
          rw [busyPayload, ht]
          exact hin₁.payload x.1 hmem t ht
        refine (inTurn_of_only ((only_foldlM resolved only_reapOne e₁).mono ?_)
          (returns_reapAll resolved hin₁ htold)).mono ?_
        · intro op hop
          cases op <;> trivial
        · rintro e₂ _ ⟨⟨hin₂, entered, hsub, hflow⟩, rfl⟩
          have hledger := hkept₁.2.flow hflow hsub
          rw [List.map_nil, List.append_nil] at hledger
          exact ⟨hin₂, hledger⟩

end Upkeep

theorem returns_drainPendingReports (e : Executor) :
    (drainPendingReports e).Returns
      (fun e' => e'.activeSpawns = e.activeSpawns ∧ SameLines e e') := by
  unfold drainPendingReports
  refine returns_perform (fun now => returns_foldlM _ _ (fun e' entry he' => ?_)
    ⟨rfl, SameLines.refl e⟩)
  have hsame : ∀ pending, ({ e' with pendingReports := pending } : Executor).activeSpawns =
      e.activeSpawns ∧ SameLines e { e' with pendingReports := pending } :=
    fun _ => ⟨he'.1, he'.2.queue, he'.2.released⟩
  unfold drainReport
  refine returns_perform (fun ok => ?_)
  split
  · exact returns_pure he'
  · dsimp only
    split
    · exact returns_pure (hsame _)
    · split
      · exact returns_pure (hsame _)
      · exact returns_pure (hsame _)

/-- The head of a free lane goes from the queue to what is released. -/
theorem releaseHead_inLine (now : Nat) {busy : List String} (laneKey : String) (hin : e.InLine)
    (hbusy : ∀ L ∈ e.busyLanes, L ∈ busy) :
    (releaseHead now busy e laneKey).InLine ∧
      (∀ L, (releaseHead now busy e laneKey).lineOf L = e.lineOf L) ∧
      (releaseHead now busy e laneKey).activeSpawns = e.activeSpawns := by
  unfold releaseHead
  split
  · exact ⟨hin, fun _ => rfl, rfl⟩
  · rename_i hidle
    cases hfifo : fifoOf e.laneQueue laneKey with
    | nil =>
        have hlines : ∀ L, ({ e with laneQueue := e.laneQueue.erase laneKey } : Executor).lineOf L =
            e.lineOf L := by
          intro L
          unfold Executor.lineOf
          dsimp only
          rw [fifoOf_erase]
          split
          · rename_i hL
            rw [hL, hfifo]
          · rfl
        exact ⟨⟨hin.single, hin.free, fun L t ht => hin.own L t (hlines L ▸ ht), hin.payload⟩,
          hlines, rfl⟩
    | cons head rest =>
        dsimp only
        split
        · exact ⟨hin, fun _ => rfl, rfl⟩
        · let queue := if rest = [] then e.laneQueue.erase laneKey
            else e.laneQueue.upsert ⟨laneKey, rest⟩
          have hqueue : ∀ L, fifoOf queue L =
              if L = laneKey then rest else fifoOf e.laneQueue L := by
            intro L
            dsimp only [queue]
            split
            · rename_i hrest
              rw [fifoOf_erase, hrest]
            · exact fifoOf_upsert _ _ _ _
          have hlines : ∀ L, ({ e with
              laneQueue := queue
              laneReleased := e.laneReleased.upsert
                ⟨laneKey, fifoOf e.laneReleased laneKey ++ [head]⟩ } : Executor).lineOf L =
              e.lineOf L := by
            intro L
            unfold Executor.lineOf
            dsimp only
            rw [fifoOf_upsert, hqueue]
            split
            · rename_i hL
              rw [hL, hfifo, List.append_assoc]
              rfl
            · rfl
          refine ⟨⟨hin.single, fun L hL hmem => ?_, fun L t ht => hin.own L t (hlines L ▸ ht),
            hin.payload⟩, hlines, rfl⟩
          dsimp only at hL
          rw [fifoOf_upsert] at hL
          split at hL
          · rename_i heq
            exact hidle (heq ▸ hbusy L hmem)
          · exact hin.free L hL hmem

theorem returns_sweepLaneQueues (hin : e.InLine) :
    (sweepLaneQueues e).Returns (fun e' => e'.InLine ∧ ∀ L, e'.lineOf L = e.lineOf L) := by
  unfold sweepLaneQueues
  refine returns_perform (fun now => returns_pure ?_)
  have hbusy : ∀ L ∈ e.busyLanes, L ∈ (e.activeSpawns.rows.map ActiveSpawn.laneKey).filter
      (fun laneKey => decide (laneKey ≠ "")) := fun _ hL => hL
  generalize (e.activeSpawns.rows.map ActiveSpawn.laneKey).filter _ = busy at hbusy ⊢
  generalize e.laneQueue.rows.map LaneFifo.laneKey = laneKeys
  induction laneKeys generalizing e with
  | nil => exact ⟨hin, fun _ => rfl⟩
  | cons laneKey laneKeys ih =>
      obtain ⟨hin₁, hlines, hactive⟩ := releaseHead_inLine now laneKey hin hbusy
      have hbusy₁ : ∀ L ∈ (releaseHead now busy e laneKey).busyLanes, L ∈ busy := by
        intro L hL
        rw [busyLanes, hactive] at hL
        exact hbusy L hL
      obtain ⟨hin₂, hrest⟩ := ih hin₁ hbusy₁
      exact ⟨hin₂, fun L => (hrest L).trans (hlines L)⟩

theorem inTurn_upkeep [Unicode] (hkept : Kept e h) :
    InTurn (upkeep e) h (fun e' h' => Kept e' h') := by
  unfold upkeep
  refine inTurn_bind (inTurn_reapFinishedSpawns hkept) (fun e₁ h₁ hkept₁ => ?_)
  refine inTurn_bind (inTurn_of_only ((only_drainPendingReports e₁).mono ?_)
    (returns_drainPendingReports e₁)) ?_
  · intro op hop
    cases op <;> trivial
  · rintro e₂ _ ⟨⟨hactive, hlines⟩, rfl⟩
    have hkept₂ := hkept₁.of_same (hkept₁.1.of_same hactive hlines) hlines.lineOf
    refine inTurn_bind (inTurn_of_only (only_ask trivial fun _ => only_pure _)
      (returns_sweepLaneQueues hkept₂.1)) ?_
    rintro e₃ _ ⟨⟨hin₃, hlines₃⟩, rfl⟩
    refine inTurn_bind (inTurn_of_only ((only_renewLeases e₃).mono ?_) (returns_true _)) ?_
    · rintro op ⟨leaseId, rfl⟩
      trivial
    · rintro _ _ ⟨-, rfl⟩
      exact inTurn_pure (hkept₂.of_same hin₃ hlines₃)

/-! ## The claim pass -/

/-- A task whose lane is free, with none of it released. -/
structure LaneOpen (e : Executor) (laneKey : String) : Prop where
  idle : laneKey = "" ∨ laneKey ∉ e.busyLanes
  released : laneKey ≠ "" → fifoOf e.laneReleased laneKey = []

theorem LaneOpen.starts {task : Task} (hfree : LaneOpen e task.laneKey) :
    StartsOnFreeLane (.popen e task) := by
  rcases hfree.idle with hnone | hidle
  · exact .inl hnone
  · by_cases hL : task.laneKey = ""
    · exact .inl hL
    · refine .inr (Bool.eq_false_of_not_eq_true (fun hactive => hidle ?_))
      exact (laneHasActiveDelivery_iff hL).mp hactive

/-- At most the lane becomes busy, and the lines are as they were. -/
structure Occupies (laneKey : String) (e e' : Executor) : Prop where
  inLine : e'.InLine
  lines : SameLines e e'
  busy : ∀ L ∈ e'.busyLanes, L ∈ e.busyLanes ∨ L = laneKey

theorem Occupies.of_same {laneKey : String} {e' : Executor} (hin : e.InLine)
    (hactive : e'.activeSpawns = e.activeSpawns) (hlines : SameLines e e') :
    Occupies laneKey e e' := by
  refine ⟨hin.of_same hactive hlines, hlines, fun L hL => .inl ?_⟩
  rwa [busyLanes, hactive] at hL

theorem returns_track {spawn : ActiveSpawn} (hin : e.InLine) (hfree : LaneOpen e spawn.laneKey)
    (hpayload : ∀ t, spawn.taskPayload = some t → t.laneKey = spawn.laneKey) :
    (track spawn e).Returns (Occupies spawn.laneKey e) := by
  unfold track
  refine returns_bind (returns_true _) (fun leaseId _ => returns_perform (fun now => ?_))
  let tracked : ActiveSpawn := { spawn with leaseId := leaseId, startedAt := now }
  have hadded : Occupies spawn.laneKey e
      { e with activeSpawns := e.activeSpawns.upsert tracked } := by
    have hin' : ({ e with activeSpawns := e.activeSpawns.upsert tracked } : Executor).InLine :=
      hin.upsert hfree.idle hfree.released hpayload
    refine ⟨hin', ⟨rfl, rfl⟩, fun L hL => ?_⟩
    obtain ⟨hne, s, hs, hlane⟩ := mem_busyLanes.mp hL
    rcases e.activeSpawns.mem_rows_upsert.mp hs with rfl | ⟨hmem, -⟩
    · exact .inr hlane.symm
    · exact .inl (mem_busyLanes.mpr ⟨hne, s, hmem, hlane⟩)
  unfold persistSpawn
  dsimp only
  split
  · exact returns_pure hadded
  · exact returns_perform (fun _ => returns_pure
      ⟨hadded.inLine.of_same rfl ⟨rfl, rfl⟩, ⟨rfl, rfl⟩, hadded.busy⟩)

section Claim

variable [Unicode]

/-- A delivery whose lane is free is handed out, once. -/
theorem inTurn_spawnWorker {task : Task} (hin : e.InLine) (hfree : LaneOpen e task.laneKey) :
    InTurn (spawnWorker task e) h
      (fun e' h' => Occupies task.laneKey e e' ∧ h' = h.handOut task.id) := by
  have hfail : ∀ reason h', InTurn (reportFailure task.id reason e) h'
      (fun e' h'' => Occupies task.laneKey e e' ∧ h'' = h') := by
    intro reason h'
    refine (inTurn_of_only (only_reportFailure task.id reason e (fun _ _ => trivial) trivial)
      (returns_reportFailure task.id reason e)).mono ?_
    rintro e' _ ⟨⟨hactive, hlines⟩, rfl⟩
    exact ⟨Occupies.of_same hin hactive hlines, rfl⟩
  have htrack : ∀ (spawn : ActiveSpawn) h', spawn.laneKey = task.laneKey →
      (∀ t, spawn.taskPayload = some t → t.laneKey = spawn.laneKey) →
      InTurn (track spawn e) h' (fun e' h'' => Occupies task.laneKey e e' ∧ h'' = h') := by
    intro spawn h' hlane hpayload
    refine (inTurn_of_only ((only_track spawn e).mono ?_)
      (returns_track hin (hlane.symm ▸ hfree) hpayload)).mono ?_
    · intro op hop
      cases op <;> trivial
    · rintro e' _ ⟨hocc, rfl⟩
      exact ⟨hlane ▸ hocc, rfl⟩
  unfold spawnWorker
  have hplaced : (lanePlacedElsewhere e task.laneKey).Only LaneQuiet := by
    unfold lanePlacedElsewhere
    split
    · exact only_pure _
    · exact only_ask trivial (fun _ => only_pure _)
  refine inTurn_bind (inTurn_of_only hplaced (returns_true _)) ?_
  rintro placed _ ⟨-, rfl⟩
  cases placed with
  | some node =>
      refine inTurn_ask trivial (fun _ _ => inTurn_pure ⟨?_, rfl⟩)
      exact Occupies.of_same hin rfl (SameLines.refl e)
  | none =>
      dsimp only
      split
      · have hidle : ¬(task.laneKey ≠ "" ∧ laneHasActiveDelivery e task.laneKey = true) := by
          rintro ⟨hL, hactive⟩
          exact hfree.idle.elim hL (fun hnot => hnot ((laneHasActiveDelivery_iff hL).mp hactive))
        unfold spawnHermesWorker
        dsimp only
        rw [if_neg hidle]
        refine inTurn_ask hfree.starts (fun result _ => ?_)
        cases result with
        | notFound =>
            generalize "executor_error: hermes not found on PATH" = reason
            exact hfail reason _
        | raised message =>
            dsimp only
            generalize "executor_error: " ++ message = reason
            exact hfail reason _
        | started =>
            refine htrack _ _ rfl (fun t ht => ?_)
            cases ht
            rfl
      · unfold spawnBdayaWorker
        refine inTurn_ask hfree.starts (fun result _ => ?_)
        cases result with
        | notFound =>
            generalize "executor_error: npx not found on PATH" = reason
            exact hfail reason _
        | raised message =>
            dsimp only
            generalize "executor_error: " ++ message = reason
            exact hfail reason _
        | started => exact htrack _ _ rfl (fun t ht => by cases ht)

/-- The nonempty lanes of some tasks. -/
def lanesOf (tasks : List Task) : List String :=
  (tasks.map Task.laneKey).filter (fun laneKey => decide (laneKey ≠ ""))

/-- Deliveries of different free lanes are all handed out. -/
theorem inTurn_spawnAll (tasks : List Task) (hin : e.InLine) (hlisted : h.listed = false)
    (hfree : ∀ t ∈ tasks, LaneOpen e t.laneKey) (hdistinct : (lanesOf tasks).Nodup) :
    InTurn (tasks.foldlM (fun e task => spawnWorker task e) e) h (fun e' h' =>
      e'.InLine ∧ SameLines e e' ∧
        h' = { h with handedOut := h.handedOut ++ tasks.map Task.id }) := by
  induction tasks generalizing e h with
  | nil =>
      refine inTurn_pure ⟨hin, SameLines.refl e, ?_⟩
      exact congrArg (fun out => { h with handedOut := out }) (List.append_nil _).symm
  | cons task tasks ih =>
      rw [List.forall_mem_cons] at hfree
      rw [List.foldlM_cons]
      refine inTurn_bind (inTurn_spawnWorker hin hfree.1) ?_
      rintro e₁ _ ⟨hocc, rfl⟩
      have hout : h.handOut task.id = { h with handedOut := h.handedOut ++ [task.id] } := by
        unfold LaneHistory.handOut
        rw [if_neg (by rw [hlisted]; exact Bool.false_ne_true)]
      have hrest : (lanesOf tasks).Nodup ∧
          ∀ t ∈ tasks, t.laneKey ≠ "" → t.laneKey ≠ task.laneKey := by
        unfold lanesOf at hdistinct ⊢
        rw [List.map_cons, List.filter_cons] at hdistinct
        split at hdistinct
        · rw [List.nodup_cons] at hdistinct
          refine ⟨hdistinct.2, fun t ht hL heq => hdistinct.1 ?_⟩
          exact List.mem_filter.mpr ⟨heq ▸ List.mem_map_of_mem ht, by simpa [heq] using hL⟩
        · rename_i hnone
          refine ⟨hdistinct, fun t _ hL heq => hnone ?_⟩
          simpa [heq] using hL
      have hfree₁ : ∀ t ∈ tasks, LaneOpen e₁ t.laneKey := by
        intro t ht
        refine ⟨?_, fun hL => hocc.lines.released ▸ (hfree.2 t ht).released hL⟩
        by_cases hL : t.laneKey = ""
        · exact .inl hL
        · refine .inr (fun hmem => ?_)
          rcases hocc.busy _ hmem with hold | hnew
          · exact (hfree.2 t ht).idle.elim hL (fun hnot => hnot hold)
          · exact hrest.2 t ht hL hnew
      refine (ih hocc.inLine (by rw [hout]; exact hlisted) hfree₁ hrest.1).mono ?_
      rintro e₂ _ ⟨hin₂, hlines, rfl⟩
      refine ⟨hin₂, hocc.lines.trans hlines, ?_⟩
      rw [hout, List.map_cons]
      exact congrArg (fun out => { h with handedOut := out }) (List.append_assoc _ _ _)

end Claim

theorem fifoOf_empty (L : String) : fifoOf (Table.empty : Table LaneFifo) L = [] := rfl

theorem lineOf_putBack (leftover : List Task) (e : Executor) (L : String) :
    fifoOf (putBack leftover e).laneQueue L = ofLane L leftover ++ fifoOf e.laneQueue L := by
  induction leftover with
  | nil => rfl
  | cons task leftover ih =>
      change fifoOf ((putBack leftover e).laneQueue.upsert
        ⟨task.laneKey, task :: fifoOf (putBack leftover e).laneQueue task.laneKey⟩) L = _
      rw [fifoOf_upsert]
      unfold ofLane at ih ⊢
      rw [List.filter_cons]
      by_cases hL : L = task.laneKey
      · subst hL
        rw [if_pos rfl, if_pos (decide_eq_true rfl), ih]
        rfl
      · rw [if_neg hL, if_neg (by simpa using Ne.symm hL), ih]

theorem fields_putBack (leftover : List Task) (e : Executor) :
    (putBack leftover e).laneReleased = e.laneReleased ∧
      (putBack leftover e).activeSpawns = e.activeSpawns := by
  induction leftover with
  | nil => exact ⟨rfl, rfl⟩
  | cons task leftover ih => exact ih

section Claim

variable [Unicode]

/-- The released heads are handed out, one of a lane, or go back to their lines. -/
theorem inTurn_spawnReleased (maxSpawns : Nat) (hkept : Kept e h) (hlisted : h.listed = false)
    (hdistinct : (lanesOf ((drainReleasedLanes e).1.take maxSpawns)).Nodup) :
    InTurn (spawnReleased maxSpawns e) h (fun e' h' => Kept e' h' ∧
      ∀ L, fifoOf e'.laneReleased L = []) := by
  obtain ⟨hin, hledger⟩ := hkept
  let ready := e.laneReleased.rows.flatMap LaneFifo.tasks
  let e₁ : Executor := { e with laneReleased := .empty }
  have hready : ∀ L, ofLane L ready = fifoOf e.laneReleased L := fun L =>
    ofLane_flatMap e.laneReleased (fun L t ht => hin.own L t (List.mem_append_left _ ht)) L
  have hqueue : ∀ L, e₁.lineOf L = fifoOf e.laneQueue L := fun L => rfl
  have hin₁ : e₁.InLine := by
    refine ⟨hin.single, fun L hL => absurd (fifoOf_empty L) hL, fun L t ht => ?_, hin.payload⟩
    exact hin.own L t (List.mem_append_right _ ht)
  have hfree : ∀ t ∈ ready.take maxSpawns, LaneOpen e₁ t.laneKey := by
    intro t ht
    refine ⟨.inr (hin.free t.laneKey (fun hnone => ?_)), fun _ => fifoOf_empty _⟩
    have hmem : t ∈ ofLane t.laneKey ready :=
      List.mem_filter.mpr ⟨List.mem_of_mem_take ht, decide_eq_true rfl⟩
    rw [hready, hnone] at hmem
    cases hmem
  unfold spawnReleased
  refine inTurn_bind (inTurn_spawnAll (ready.take maxSpawns) hin₁ hlisted hfree hdistinct) ?_
  rintro e₂ _ ⟨hin₂, hlines, rfl⟩
  let e₃ := putBack (ready.drop maxSpawns) e₂
  obtain ⟨hreleased, hactive⟩ := fields_putBack (ready.drop maxSpawns) e₂
  have hnone : ∀ L, fifoOf e₃.laneReleased L = [] := by
    intro L
    rw [hreleased, hlines.released]
    rfl
  have hline : ∀ L, e₃.lineOf L = ofLane L (ready.drop maxSpawns) ++ fifoOf e.laneQueue L := by
    intro L
    rw [Executor.lineOf, hnone, List.nil_append, lineOf_putBack, hlines.queue]
  have hflow : Flow e e₃ [] (ready.take maxSpawns) := by
    intro L _
    calc e.lineOf L ++ ofLane L []
        = ofLane L ready ++ fifoOf e.laneQueue L := by
          rw [hready]
          exact List.append_nil _
      _ = ofLane L (ready.take maxSpawns) ++ (ofLane L (ready.drop maxSpawns) ++
            fifoOf e.laneQueue L) := by
          rw [← List.append_assoc, ← ofLane_append, List.take_append_drop]
      _ = ofLane L (ready.take maxSpawns) ++ e₃.lineOf L := by rw [hline]
  refine inTurn_pure ⟨⟨⟨?_, fun L hL => absurd (hnone L) hL, fun L t ht => ?_, ?_⟩, ?_⟩, hnone⟩
  · rw [busyLanes, hactive]
    exact hin₂.single
  · rw [hline] at ht
    rcases List.mem_append.mp ht with hback | hold
    · exact of_decide_eq_true (List.mem_filter.mp hback).2
    · exact hin.own L t (List.mem_append_right _ hold)
  · rw [hactive]
    exact hin₂.payload
  · have hrest := hledger.flow hflow (List.Sublist.refl [])
    rwa [List.append_nil] at hrest

/-- One task that main listed: it enters its line, waits on the board or is spawned. -/
theorem inTurn_claimCandidate {budget : Nat} {task : Task} (hin : e.InLine)
    (hreleased : ∀ L, fifoOf e.laneReleased L = []) (hlisted : h.listed = true) :
    InTurn (claimCandidate (budget, e) task) h (fun st h' => h' = h ∧ st.2.InLine ∧
      st.2.laneReleased = e.laneReleased ∧
      ∃ entered, entered.Sublist [task] ∧ Flow e st.2 entered []) := by
  have hsame : ∀ {e' : Executor}, SameLines e e' →
      ∃ entered, entered.Sublist [task] ∧ Flow e e' entered [] :=
    fun hlines => ⟨[], List.nil_sublist _, Flow.of_eq fun L => hlines.lineOf L⟩
  unfold claimCandidate
  dsimp only
  split
  · refine inTurn_bind (inTurn_of_only (only_queueForLane _ _ _ _ trivial)
      (returns_queueForLane hin rfl)) ?_
    rintro ⟨ok, e'⟩ _ ⟨⟨hin', -, hrel, hflow⟩, rfl⟩
    exact inTurn_pure ⟨rfl, hin', hrel, hflow⟩
  · rename_i hidle
    split
    · exact inTurn_pure ⟨rfl, hin, rfl, hsame (SameLines.refl e)⟩
    · have hfree : LaneOpen e task.laneKey := by
        refine ⟨?_, fun _ => hreleased _⟩
        by_cases hL : task.laneKey = ""
        · exact .inl hL
        · exact .inr (fun hmem => hidle ⟨hL, (laneHasActiveDelivery_iff hL).mpr hmem⟩)
      refine inTurn_bind (inTurn_spawnWorker hin hfree) ?_
      rintro e' _ ⟨hocc, rfl⟩
      refine inTurn_pure ⟨?_, hocc.inLine, hocc.lines.released, hsame hocc.lines⟩
      exact if_pos hlisted

theorem inTurn_claimAll (tasks : List Task) {budget : Nat} (hin : e.InLine)
    (hreleased : ∀ L, fifoOf e.laneReleased L = []) (hlisted : h.listed = true) :
    InTurn (tasks.foldlM claimCandidate (budget, e)) h (fun st h' => h' = h ∧ st.2.InLine ∧
      ∃ entered, entered.Sublist tasks ∧ Flow e st.2 entered []) := by
  induction tasks generalizing e budget with
  | nil => exact inTurn_pure ⟨rfl, hin, [], List.nil_sublist _, Flow.of_eq fun _ => rfl⟩
  | cons task tasks ih =>
      rw [List.foldlM_cons]
      refine inTurn_bind (inTurn_claimCandidate hin hreleased hlisted) ?_
      rintro ⟨budget', e₁⟩ _ ⟨rfl, hin₁, hrel, entered, hsub, hflow⟩
      refine (ih hin₁ (fun L => by rw [hrel]; exact hreleased L)).mono ?_
      rintro st _ ⟨rfl, hin₂, entered', hsub', hflow'⟩
      exact ⟨rfl, hin₂, entered ++ entered', hsub.append hsub', hflow.trans hflow'⟩

end Claim

/-! ## Spawn records -/

/-- Records of different free lanes are attached. -/
theorem inLine_foldl_reattach (records : List SpawnRecord) (hin : e.InLine)
    (hreleased : ∀ L, fifoOf e.laneReleased L = [])
    (hdistinct : (recordLanes (untracked e records)).Nodup)
    (hidle : ∀ L ∈ recordLanes (untracked e records), L ∉ e.busyLanes) :
    (records.foldl reattachRecord e).InLine ∧ SameLines e (records.foldl reattachRecord e) := by
  induction records generalizing e with
  | nil => exact ⟨hin, SameLines.refl e⟩
  | cons record records ih =>
      have hsub : (recordLanes (untracked e records)).Sublist
          (recordLanes (untracked e (record :: records))) :=
        (((List.sublist_cons_self record records).filter _).map _).filter _
      by_cases hskip : record.taskId = "" ∨ (e.activeSpawns.get? record.taskId).isSome
      · have hsame : reattachRecord e record = e := if_pos hskip
        rw [List.foldl_cons, hsame]
        exact ih hin hreleased (hdistinct.sublist hsub) (fun L hL => hidle L (hsub.subset hL))
      · have hattached : reattachRecord e record =
            { e with activeSpawns := e.activeSpawns.upsert (SpawnRecord.toSpawn record) } :=
          if_neg hskip
        rw [not_or, Bool.not_eq_true, Option.isSome_eq_false_iff] at hskip
        have hcons : untracked e (record :: records) = record :: untracked e records := by
          unfold untracked
          rw [List.filter_cons, if_pos hskip.2]
        have hhere : record.laneKey = "" ∨ record.laneKey ∉ e.busyLanes := by
          by_cases hL : record.laneKey = ""
          · exact .inl hL
          · refine .inr (hidle _ ?_)
            rw [hcons]
            exact List.mem_filter.mpr ⟨List.mem_cons_self, by simpa using hL⟩
        have hnew : record.laneKey ≠ "" → record.laneKey ∉ recordLanes (untracked e records) := by
          intro hL
          rw [hcons, recordLanes, List.map_cons, List.filter_cons, if_pos (by simpa using hL),
            List.nodup_cons] at hdistinct
          exact hdistinct.1
        have hin₁ : InLine
            { e with activeSpawns := e.activeSpawns.upsert (SpawnRecord.toSpawn record) } :=
          hin.upsert hhere (fun _ => hreleased _) (fun t ht => by cases ht)
        have hless : (recordLanes (untracked { e with
            activeSpawns := e.activeSpawns.upsert (SpawnRecord.toSpawn record) } records)).Sublist
            (recordLanes (untracked e records)) := by
          refine (List.Sublist.map _ (List.monotone_filter_right records (fun r hr => ?_))).filter _
          dsimp only at hr ⊢
          rw [Table.get?_upsert] at hr
          split at hr
          · cases hr
          · exact hr
        have hidle₁ : ∀ L ∈ recordLanes (untracked { e with
            activeSpawns := e.activeSpawns.upsert (SpawnRecord.toSpawn record) } records),
            L ∉ ({ e with
              activeSpawns := e.activeSpawns.upsert (SpawnRecord.toSpawn record) } :
                Executor).busyLanes := by
          intro L hL hmem
          have hL' := hless.subset hL
          obtain ⟨hne, s, hs, hlane⟩ := mem_busyLanes.mp hmem
          rcases e.activeSpawns.mem_rows_upsert.mp hs with rfl | ⟨hold, -⟩
          · replace hlane : record.laneKey = L := hlane
            exact hnew (hlane.symm ▸ hne) (hlane.symm ▸ hL')
          · exact hidle L (hsub.subset hL') (mem_busyLanes.mpr ⟨hne, s, hold, hlane⟩)
        rw [List.foldl_cons, hattached]
        obtain ⟨hin₂, hlines⟩ :=
          ih hin₁ hreleased ((hdistinct.sublist hsub).sublist hless) hidle₁
        exact ⟨hin₂, hlines.queue, hlines.released⟩

theorem inTurn_refreshPersistedIds (hin : e.InLine)
    (hreleased : ∀ L, fifoOf e.laneReleased L = []) :
    InTurn (refreshPersistedIds e) h (fun e' h' => h' = h ∧ e'.InLine ∧ SameLines e e' ∧
      e'.nodeId = e.nodeId) := by
  have hsame : ∀ {e' : Executor}, e'.activeSpawns = e.activeSpawns → SameLines e e' →
      e'.nodeId = e.nodeId → InTurn (pure e' : Exec Executor) h (fun e' h' => h' = h ∧ e'.InLine ∧
        SameLines e e' ∧ e'.nodeId = e.nodeId) :=
    fun hactive hlines hnode => inTurn_pure ⟨rfl, hin.of_same hactive hlines, hlines, hnode⟩
  unfold refreshPersistedIds
  split
  · exact hsame rfl (SameLines.refl e) rfl
  · exact hsame rfl (SameLines.refl e) rfl
  · refine inTurn_ask trivial (fun now _ => ?_)
    split
    · exact hsame rfl (SameLines.refl e) rfl
    · refine inTurn_ask trivial (fun records hreply => ?_)
      cases records with
      | none => exact hsame rfl ⟨rfl, rfl⟩ rfl
      | some records =>
          dsimp only
          generalize hadded : records.filter (fun r => decide (r.taskId ∉ e.persistedIds)) = added
          generalize (e.foreignSpawnIds ++ recordIds added).filter _ = foreign
          have hsub : (recordLanes (untracked e added)).Sublist
              (recordLanes (untracked e records)) := by
            rw [← hadded]
            exact ((List.filter_sublist.filter _).map _).filter _
          let fresh : Executor := { e with
            lastPersistedRefresh := now
            persistedIds := recordIds records
            foreignSpawnIds := foreign }
          have hfresh : fresh.InLine := hin.of_same rfl ⟨rfl, rfl⟩
          obtain ⟨hin', hlines⟩ := inLine_foldl_reattach added hfresh hreleased
            (hreply.1.sublist hsub) (fun L hL => hreply.2 L (hsub.subset hL))
          exact inTurn_pure ⟨rfl, hin', ⟨hlines.queue, hlines.released⟩,
            (fields_foldl_reattachRecord added fresh).2⟩

theorem sublist_insertionSort_of_sublist {α : Type} {r : α → α → Prop} [DecidableRel r]
    [Std.Total r] [IsTrans α r] {l l' : List α} (h : l.Sublist l') :
    (l.insertionSort r).Sublist (l'.insertionSort r) := by
  induction h with
  | slnil => exact List.Sublist.refl _
  | cons a _ ih =>
      rw [List.insertionSort_cons]
      exact ih.trans (List.sublist_orderedInsert a _)
  | cons_cons a _ ih =>
      rw [List.insertionSort_cons, List.insertionSort_cons]
      exact ih.orderedInsert_sublist a (List.pairwise_insertionSort r _)

/-- The candidates are, in their order, among what main lists as running here. -/
theorem candidates_sublist {e' : Executor} (hnode : e'.nodeId = e.nodeId) (tasks : List Task)
    (active queued : List String) :
    (candidates e' tasks active queued).Sublist (candidates e tasks [] []) := by
  have : Std.Total (fun a b : Task => a.priority ≤ b.priority) :=
    ⟨fun a b => Int.le_total a.priority b.priority⟩
  have : IsTrans Task (fun a b : Task => a.priority ≤ b.priority) :=
    ⟨fun a b c hab hbc => Int.le_trans hab hbc⟩
  unfold candidates
  refine sublist_insertionSort_of_sublist (List.monotone_filter_right tasks (fun t ht => ?_))
  unfold isAssignedToMe at ht ⊢
  rw [hnode] at ht
  simp only [Bool.and_eq_true, decide_eq_true_eq] at ht
  simp only [Bool.and_eq_true, decide_eq_true_eq, List.not_mem_nil, not_false_eq_true, and_true]
  exact ht.1.1

section Runs

variable [Unicode] {σ : Type} {step : (op : ExecOp) → σ → op.Res × σ}

theorem inTurn_claimListed (budget : Nat) (hkept : Kept e h)
    (hreleased : ∀ L, fifoOf e.laneReleased L = []) :
    InTurn (claimListed budget e) h (fun e' h' => Kept e' h') := by
  obtain ⟨hin, hledger⟩ := hkept
  unfold claimListed
  refine inTurn_ask trivial (fun tasks _ => ?_)
  cases tasks with
  | none => exact inTurn_pure ⟨hin, hledger.mono (List.sublist_append_left _ _)⟩
  | some tasks =>
      dsimp only
      refine inTurn_bind (inTurn_refreshPersistedIds hin hreleased) ?_
      rintro e₁ _ ⟨rfl, hin₁, hlines, hnode⟩
      generalize hclaimed : candidates e₁ tasks _ _ = claimed
      have hsub : claimed.Sublist (candidates e tasks [] []) := by
        rw [← hclaimed]
        exact candidates_sublist hnode tasks _ _
      refine inTurn_bind (inTurn_claimAll claimed hin₁
        (fun L => by rw [hlines.released]; exact hreleased L) rfl) ?_
      rintro ⟨left, e₂⟩ _ ⟨rfl, hin₂, entered, hentered, hflow⟩
      have hflow₂ := (Flow.of_eq hlines.lineOf).trans hflow
      rw [List.nil_append, List.nil_append] at hflow₂
      have hrest := hledger.flow hflow₂ (hentered.trans hsub)
      rw [List.map_nil, List.append_nil] at hrest
      exact inTurn_pure ⟨hin₂, hrest⟩

/-! ## Runs -/

/-- Where the disk gate lets a claim pass through, the heads it takes up are of
different lanes. -/
def TakesDistinct (step : (op : ExecOp) → σ → op.Res × σ) (e : Executor) (s : σ) : Prop :=
  (step .diskGateBlocks s).1 = false → (lanesOf (takenUp e)).Nodup

instance (e : Executor) (s : σ) : Decidable (TakesDistinct step e s) :=
  inferInstanceAs (Decidable (_ → _))

/-- The history of a run. -/
def noteLanes (step : (op : ExecOp) → σ → op.Res × σ) (s : σ) (op : ExecOp) (_ : σ)
    (h : LaneHistory) : LaneHistory :=
  h.note op (step op s).1

omit [Unicode] in
theorem InTurn.run {α : Type} {p : Exec α} {s : σ × LaneHistory} {Q : α → LaneHistory → Prop}
    (hp : InTurn p s.2 Q)
    (hreplies : p.Along (noting step (noteLanes step))
      (fun s op s' => LaneReply op (noting step (noteLanes step) op s).1 ∧
        s'.2 = s.2.note op (noting step (noteLanes step) op s).1) s) :
    p.Along (noting step (noteLanes step)) (fun _ op _ => StartsOnFreeLane op) s ∧
      After (noting step (noteLanes step)) p s (fun a s' => Q a s'.2) :=
  after_of_wp hp hreplies

theorem inTurn_claimPass {s : σ × LaneHistory}
    (hreplies : (claimPass e).Along (noting step (noteLanes step))
      (fun s op s' => LaneReply op (noting step (noteLanes step) op s).1 ∧
        s'.2 = s.2.note op (noting step (noteLanes step) op s).1) s)
    (hkept : Kept e s.2) (htakes : TakesDistinct step e s.1) :
    (claimPass e).Along (noting step (noteLanes step)) (fun _ op _ => StartsOnFreeLane op) s ∧
      After (noting step (noteLanes step)) (claimPass e) s (fun e' s' => Kept e' s'.2) := by
  refine claimPass_of_passThrough hkept trivial (fun hgate => ?_) (fun hopen hgate hlater => ?_)
    hreplies
  · rw [hgate.2]
    exact hkept
  · have hturn : InTurn (passThrough e) (noting step (noteLanes step) .diskGateBlocks s).2.2
        (fun e' h' => Kept e' h') := by
      unfold passThrough
      refine inTurn_bind (inTurn_spawnReleased _ hkept rfl (htakes hopen)) ?_
      rintro e₁ h₁ ⟨hkept₁, hreleased⟩
      dsimp only
      split
      · exact inTurn_pure hkept₁
      · exact inTurn_claimListed _ hkept₁ hreleased
    exact hturn.run hlater

omit [Unicode] in
theorem inTurn_reconcilePersistedSpawns (hfresh : Fresh e) :
    InTurn (reconcilePersistedSpawns e) {} (fun e' h' => Kept e' h') := by
  have hempty : ∀ L, e.lineOf L = [] := by
    intro L
    unfold Executor.lineOf fifoOf Table.get?
    rw [hfresh.queue, hfresh.released]
    rfl
  have hin : e.InLine := by
    refine ⟨?_, fun L hL => absurd (List.append_eq_nil_iff.mp (hempty L)).1 hL, fun L t ht => ?_,
      fun s hs => ?_⟩
    · unfold busyLanes
      rw [hfresh.active]
      exact List.nodup_nil
    · rw [hempty L] at ht
      cases ht
    · rw [hfresh.active] at hs
      cases hs
  have hkept : ∀ e' : Executor, e'.InLine → SameLines e e' → Kept e' {} := by
    refine fun e' hin' hlines => ⟨hin', [], [], rfl, List.Sublist.refl _, fun L _ => ?_⟩
    rw [hlines.lineOf, hempty]
    rfl
  unfold reconcilePersistedSpawns
  split
  · exact inTurn_pure (hkept e hin (SameLines.refl e))
  · refine inTurn_ask trivial (fun records hreply => ?_)
    cases records with
    | none => exact inTurn_pure (hkept e hin (SameLines.refl e))
    | some records =>
        refine inTurn_ask trivial (fun now _ => ?_)
        let read : Executor := { e with
          persistedIds := recordIds records
          lastPersistedRefresh := now }
        have hread : read.InLine := hin.of_same rfl ⟨rfl, rfl⟩
        obtain ⟨hin', hlines⟩ := inLine_foldl_reattach records hread
          (fun L => (List.append_eq_nil_iff.mp (hempty L)).1) hreply.1 hreply.2
        exact inTurn_pure (hkept _ hin' ⟨hlines.queue, hlines.released⟩)

end Runs

section Example

local instance asciiLines : Unicode := Unicode.ascii

/-- Three tasks of one lane, running on the node `n`. -/
def lineUp : List Task :=
  ["a", "b", "c"].map fun id =>
    { id := id, title := id, status := .running, assignedTo := some "n", laneKey := "lane",
      createdAt := 1, updatedAt := 1 }

/-- Workers are done at the next look at them. The state counts what the disk
gate was asked; `refused` says which time it blocks. -/
def lineUpWorld (refused : Nat) : (op : ExecOp) → Nat → op.Res × Nat
  | .time, n | .monotonic, n => (0, n)
  | .diskGateBlocks, n => (decide (n = refused), n + 1)
  | .getTasks _, n => (some lineUp, n)
  | .getTask id, n => (lineUp.find? (fun t => t.id = id), n)
  | .getLeases, n => (none, n)
  | .extendLease _, n | .report _ _, n | .block _ _, n | .requeue _ _ _, n | .ackCancel _, n =>
      (true, n)
  | .release _ _ _, n | .kill _, n | .recordTaskSpawn _, n | .deleteTaskSpawn _, n => ((), n)
  | .popen _ _, n => (.started, n)
  | .observe _, n => (some { outcome := .done, detail := "" }, n)
  | .getLane _, n => (none, n)
  | .getAllTaskSpawns _, n => (some [], n)

end Example

end HermesCluster
