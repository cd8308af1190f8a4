import HermesCluster.Routers.LeaseEnds
/-!
# The capability vocabulary

`GET /capabilities` lists what the fleet offers and, as an alarm, what live tasks
ask for in vain. Both it and the admission of a task look at one capability at a
time, where the scheduler looks for one node that has them all.
-/

namespace HermesCluster

open Program hiding pure bind

/-- An entry of the vocabulary. -/
structure VocabEntry where
  capability : String
  nodes : List String := []
  unavailableNodes : List String := []
  servable : Bool := false
  freeSlots : Int := 0
  deriving DecidableEq, Repr

/-- An entry of the alarm. Times are compared as their ISO texts are. -/
structure StalledEntry where
  capability : String
  taskCount : Nat := 0
  taskIds : List String := []
  oldestCreatedAt : Option Nat := none
  deriving DecidableEq, Repr

instance : HasKey VocabEntry String := ⟨VocabEntry.capability⟩
instance : HasKey StalledEntry String := ⟨StalledEntry.capability⟩

/-- The answer of `GET /capabilities`. -/
structure CapabilityReport where
  capabilities : List VocabEntry
  known : List String
  stalled : List StalledEntry
  nodeCount : Nat
  schedulableNodeCount : Nat
  deriving DecidableEq, Repr

namespace Capabilities

/-- `_LIVE_TASK_STATUSES`. -/
def IsLive (s : TaskStatus) : Prop :=
  s = .pending ∨ s = .ready ∨ s = .blocked ∨ s.IsActive

instance : DecidablePred IsLive := fun s =>
  inferInstanceAs (Decidable (s = .pending ∨ s = .ready ∨ s = .blocked ∨ s.IsActive))

/-- `_schedulable`: online and not drained. -/
def schedulable (node : Node) : Bool :=
  if node.status ≠ .online then false else !node.drained

/-- The slots of a node that are free; `-1` where there is no ceiling. -/
def freeSlots (tasks : List Task) (node : Node) : Int :=
  let activeCount := startLoad tasks node.id
  if schedulable node = true ∧ nodeAtCapacity node activeCount = false then
    if 0 < node.maxConcurrent then max 0 (node.maxConcurrent - activeCount) else -1
  else 0

/-- What a node that advertises a capability adds to its entry. -/
def advertise (tasks : List Task) (x : Node × String) (entry : VocabEntry) : VocabEntry :=
  if schedulable x.1 = true then
    { entry with
      nodes := entry.nodes ++ [x.1.id]
      servable := true
      freeSlots :=
        if 0 ≤ entry.freeSlots then
          if freeSlots tasks x.1 < 0 then -1 else entry.freeSlots + freeSlots tasks x.1
        else entry.freeSlots }
  else { entry with unavailableNodes := entry.unavailableNodes ++ [x.1.id] }

theorem keepsKey_advertise (tasks : List Task) (x : Node × String) :
    Table.KeepsKey (advertise tasks x) := by
  intro entry
  unfold advertise
  split <;> rfl

/-- `vocab`: the nodes are gone through, and the capabilities of each. -/
def vocab (nodes : List Node) (tasks : List Task) : Table VocabEntry :=
  (nodes.flatMap (fun node => node.capabilities.map (fun cap => (node, cap)))).foldl
    (fun t x => t.setDefault { capability := x.2 } (advertise tasks x) (keepsKey_advertise tasks x))
    Table.empty

/-- `known`. -/
def known (nodes : List Node) (tasks : List Task) : List String :=
  ((vocab nodes tasks).rows.filter (fun e => e.servable)).map VocabEntry.capability

/-- What a live task that asks for a capability in vain adds to its entry. -/
def complain (x : Task × String) (entry : StalledEntry) : StalledEntry :=
  { entry with
    taskCount := entry.taskCount + 1
    taskIds :=
      if entry.taskIds.length < 20 then entry.taskIds ++ [x.1.id] else entry.taskIds
    oldestCreatedAt :=
      if entry.oldestCreatedAt = none ∨ x.1.createdAt < entry.oldestCreatedAt.getD 0 then
        some x.1.createdAt
      else entry.oldestCreatedAt }

theorem keepsKey_complain (x : Task × String) : Table.KeepsKey (complain x) := fun _ => rfl

/-- What live tasks ask for that is not known. -/
def missing (known : List String) (tasks : List Task) : List (Task × String) :=
  (tasks.filter (fun t => decide (IsLive t.status))).flatMap (fun t =>
    (t.requires.filter (fun cap => decide (cap ∉ known))).map (fun cap => (t, cap)))

/-- `stalled`. -/
def stalled (known : List String) (tasks : List Task) : Table StalledEntry :=
  (missing known tasks).foldl
    (fun t x => t.setDefault { capability := x.2 } (complain x) (keepsKey_complain x))
    Table.empty

/-- The answer for what the store holds. -/
def report (nodes : List Node) (tasks : List Task) : CapabilityReport where
  capabilities := (vocab nodes tasks).rows.insertionSort
    (fun a b => a.capability.toList ≤ b.capability.toList)
  known := (known nodes tasks).insertionSort (fun a b => a.toList ≤ b.toList)
  stalled := (stalled (known nodes tasks) tasks).rows.insertionSort
    (fun a b => b.taskCount ≤ a.taskCount)
  nodeCount := nodes.length
  schedulableNodeCount := nodes.countP schedulable

/-- `list_capabilities`. -/
def listCapabilities : Api CapabilityReport := do
  let nodes ← store .getAllNodes
  let tasks ← store .getAllTasks
  pure (report nodes tasks)

/-! ## What the alarm sees -/

section Alarm

variable {nodes : List Node} {tasks : List Task}

theorem schedulable_iff (node : Node) :
    schedulable node = true ↔ node.status = .online ∧ node.drained = false := by
  unfold schedulable
  split
  · rename_i hoffline
    exact iff_of_false Bool.false_ne_true (fun h => hoffline h.1)
  · rename_i honline
    rw [Bool.not_eq_true']
    exact (and_iff_right (not_not.mp honline)).symm

/-- A capability is known when a node that would be given work advertises it. -/
theorem mem_known {cap : String} :
    cap ∈ known nodes tasks ↔
      ∃ node ∈ nodes, node.status = .online ∧ node.drained = false ∧ cap ∈ node.capabilities := by
  have hservable : ∀ (x : Node × String) (e : VocabEntry),
      (advertise tasks x e).servable = (e.servable || schedulable x.1) := by
    intro x e
    unfold advertise
    cases schedulable x.1 <;> simp
  have hentry := Table.get?_foldl_setDefault (fun x : Node × String => x.2)
    (fun cap => ({ capability := cap } : VocabEntry)) (fun _ => rfl)
    (keepsKey_advertise tasks) Table.empty
    (nodes.flatMap (fun node => node.capabilities.map (fun cap => (node, cap)))) cap
  calc
    cap ∈ known nodes tasks ↔ ((vocab nodes tasks).get? cap).any (fun e => e.servable) = true := by
      rw [Table.any_get?]
      simp only [known, List.mem_map, List.mem_filter]
      exact exists_congr (fun e => by tauto)
    _ ↔ _ := by
      rw [vocab, hentry, Table.any_foldl_some hservable rfl]
      simp only [schedulable_iff, Table.get?_empty, Option.any_none, Bool.false_or,
        List.any_filter, List.any_flatMap, List.any_map, List.any_eq_true, Function.comp_apply,
        Bool.and_eq_true, decide_eq_true_eq]
      refine exists_congr (fun node => and_congr_right (fun _ => ?_))
      constructor
      · rintro ⟨_, hcap, rfl, honline, hdrained⟩
        exact ⟨honline, hdrained, hcap⟩
      · rintro ⟨honline, hdrained, hcap⟩
        exact ⟨cap, hcap, rfl, honline, hdrained⟩

/-- The alarm names what live tasks ask for and no node that would be given work
advertises, and nothing else. -/
theorem report_stalled_eq_nil (nodes : List Node) (tasks : List Task) :
    (report nodes tasks).stalled = [] ↔
      ∀ t ∈ tasks, IsLive t.status → ∀ cap ∈ t.requires,
        ∃ node ∈ nodes, node.status = .online ∧ node.drained = false ∧
          cap ∈ node.capabilities := by
  have hrows : (report nodes tasks).stalled = [] ↔
      missing (known nodes tasks) tasks = [] := by
    have hsorted : (report nodes tasks).stalled.Perm
        (stalled (known nodes tasks) tasks).rows := List.perm_insertionSort _ _
    have hnil : (report nodes tasks).stalled = [] ↔
        (stalled (known nodes tasks) tasks).rows = [] :=
      ⟨fun h => (h ▸ hsorted).nil_eq.symm, fun h => (h ▸ hsorted).eq_nil⟩
    have hloop := Table.rows_foldl_setDefault_eq_nil (fun x : Task × String => x.2)
      (fun cap => ({ capability := cap } : StalledEntry)) (fun _ => rfl)
      keepsKey_complain (missing (known nodes tasks) tasks)
    exact hnil.trans hloop
  rw [hrows, missing, List.flatMap_eq_nil_iff]
  simp only [List.mem_filter, decide_eq_true_eq, and_imp, List.map_eq_nil_iff,
    List.filter_eq_nil_iff, not_not, mem_known]

theorem nodeCanRun_of_one {wanted : List String} {cap : String}
    (hone : ∀ c ∈ wanted, c = cap) {node : Node} (hdrained : node.drained = false)
    (hnode : cap ∈ node.capabilities) : nodeCanRun wanted node = true := by
  unfold nodeCanRun
  rw [hdrained, if_neg Bool.false_ne_true, List.all_eq_true]
  intro c hc
  rw [hone c hc]
  exact decide_eq_true hnode

end Alarm

end Capabilities

/-! ## What admission sees -/

section Admission

variable [Unicode] {k : Backend} {w : Timed k.Store}

theorem state_run_of_reads {α : Type} {p : Api α} (hp : p.Only Reads) (w : Timed k.Store) :
    (p.run k.tick w).2.state = w.state := by
  induction p generalizing w with
  | pure a => rfl
  | raise e => rfl
  | call op next ih =>
      exact (ih _ (hp.2 _) _).trans (state_of_reads (k := k) hp.1 ⟨rfl, rfl⟩)

theorem run_ok_of_reads {α β : Type} {p : Api α} {f : α → Api β} {b : β} (hp : p.Only Reads)
    (hok : ((p >>= f).run k.tick w).1 = .ok b) :
    ∃ a w', (p.run k.tick w).1 = .ok a ∧ w'.state = w.state ∧ ((f a).run k.tick w').1 = .ok b := by
  obtain ⟨a, ha, hrest⟩ := exists_of_run_bind_ok hok
  exact ⟨a, _, ha, state_run_of_reads hp w, hrest⟩

/-- What passes the guard is advertised, piece by piece. -/
theorem declared_of_checkCapabilities {req : SubmitTaskRequest} {u : Unit}
    (hok : ((Tasks.checkCapabilities req).run k.tick w).1 = .ok u)
    (hnode : ∃ node ∈ (k.board w.state).nodes.rows, node.drained = false) :
    ∀ cap ∈ req.requires, ∃ node ∈ (k.board w.state).nodes.rows,
      node.drained = false ∧ cap ∈ node.capabilities := by
  intro cap hcap
  unfold Tasks.checkCapabilities at hok
  rw [if_neg (List.ne_nil_of_mem hcap)] at hok
  have hchosen : SubmitGuards.schedulableNodes (k.board w.state).nodes.rows ≠ [] := by
    obtain ⟨node, hmem, hdrained⟩ := hnode
    refine List.ne_nil_of_mem (List.mem_filter.mpr ⟨hmem, ?_⟩)
    rw [hdrained]
    rfl
  have hall : SubmitGuards.unsatisfiableCapabilities (k.board w.state).nodes.rows
      req.requires = [] := by
    by_contra hunknown
    have hraise := hok
    simp only [store, perform_bind, run, timed, Backend.step_getAllNodes] at hraise
    rw [if_pos hunknown] at hraise
    cases hraise
  rw [SubmitGuards.unsatisfiableCapabilities, if_neg hchosen] at hall
  have hknown := List.filter_eq_nil_iff.mp hall cap hcap
  rw [decide_eq_true_eq, not_not] at hknown
  obtain ⟨node, hmem, hdeclared⟩ := List.mem_flatMap.mp hknown
  obtain ⟨hmem', hdrained⟩ := List.mem_filter.mp hmem
  exact ⟨node, hmem', Bool.not_eq_true' _ ▸ hdrained, hdeclared⟩

/-- A submission for which a task is made has passed the guard. -/
theorem declared_of_submitTask {taskId : String} {req : SubmitTaskRequest} {reply : Reply}
    (hok : ((Tasks.submitTask taskId req).run k.tick w).1 = .ok reply)
    (hnew : reply.deduped = none)
    (hnode : ∃ node ∈ (k.board w.state).nodes.rows, node.drained = false) :
    ∀ cap ∈ req.requires, ∃ node ∈ (k.board w.state).nodes.rows,
      node.drained = false ∧ cap ∈ node.capabilities := by
  unfold Tasks.submitTask at hok
  obtain ⟨_, w₁, -, hsame₁, hok₁⟩ := run_ok_of_reads (only_checkBrief req) hok
  obtain ⟨reviewer, w₂, -, hsame₂, hok₂⟩ := run_ok_of_reads (only_liveReviewer id req) hok₁
  cases reviewer with
  | some t =>
      have hreply : reply = { task := some t, deduped := some true } := by
        cases hok₂
        rfl
      rw [hreply] at hnew
      cases hnew
  | none =>
      obtain ⟨_, w₃, -, hsame₃, hok₃⟩ := run_ok_of_reads (only_checkLanding id req) hok₂
      obtain ⟨_, w₄, hpassed, -, -⟩ := run_ok_of_reads (only_checkCapabilities id req) hok₃
      have hsame : w₃.state = w.state := by rw [hsame₃, hsame₂, hsame₁]
      rw [← hsame] at hnode ⊢
      exact declared_of_checkCapabilities hpassed hnode

/-- `GET /capabilities` tells of the store, and does not fail. -/
theorem run_listCapabilities (w : Timed k.Store) :
    (Capabilities.listCapabilities.run k.tick w).1 =
      .ok (Capabilities.report (k.board w.state).nodes.rows (k.board w.state).tasks.rows) := by
  simp only [Capabilities.listCapabilities, store, perform_bind, run, timed,
    Backend.step_getAllNodes, Backend.step_getAllTasks]
  rfl

variable (k w)

/-- A task is made only for what nodes that are not drained declare, each thing by
one of them; a task that asks for one thing, or nothing, can be run. -/
def AdmitsDeclared : Prop :=
  ∀ taskId req reply, ((Tasks.submitTask taskId req).run k.tick w).1 = .ok reply →
    reply.deduped = none → (∃ node ∈ (k.board w.state).nodes.rows, node.drained = false) →
      (∀ cap ∈ req.requires, ∃ node ∈ (k.board w.state).nodes.rows,
        node.drained = false ∧ cap ∈ node.capabilities) ∧
      ((∀ c ∈ req.requires, ∀ d ∈ req.requires, c = d) →
        ∃ node ∈ (k.board w.state).nodes.rows, nodeCanRun req.requires node = true)

/-- The alarm is off when all that live tasks ask for is declared by nodes that are
online and not drained; then each task that asks for one thing has such a node. -/
def AlarmTellsDeclared : Prop :=
  ∃ report, (Capabilities.listCapabilities.run k.tick w).1 = .ok report ∧
    (report.stalled = [] ↔ ∀ t ∈ (k.board w.state).tasks.rows, Capabilities.IsLive t.status →
      ∀ cap ∈ t.requires, ∃ node ∈ (k.board w.state).nodes.rows,
        node.status = .online ∧ node.drained = false ∧ cap ∈ node.capabilities) ∧
    (report.stalled = [] → ∀ t ∈ (k.board w.state).tasks.rows, Capabilities.IsLive t.status →
      t.requires ≠ [] → (∀ c ∈ t.requires, ∀ d ∈ t.requires, c = d) →
        ∃ node ∈ (k.board w.state).nodes.rows,
          node.status = .online ∧ nodeCanRun t.requires node = true)

variable {k w}

/-- Admission and alarm speak of one capability at a time. -/
theorem admission_and_alarm (k : Backend) (w : Timed k.Store) :
    AdmitsDeclared k w ∧ AlarmTellsDeclared k w := by
  constructor
  · intro taskId req reply hok hnew hnode
    have hdeclared := declared_of_submitTask hok hnew hnode
    refine ⟨hdeclared, fun hone => ?_⟩
    by_cases hwanted : req.requires = []
    · obtain ⟨node, hmem, hdrained⟩ := hnode
      refine ⟨node, hmem, ?_⟩
      rw [hwanted, nodeCanRun, hdrained]
      rfl
    · obtain ⟨cap, hcap⟩ := List.exists_mem_of_ne_nil _ hwanted
      obtain ⟨node, hmem, hdrained, hnode⟩ := hdeclared cap hcap
      exact ⟨node, hmem, Capabilities.nodeCanRun_of_one
        (fun c hc => hone c hc cap hcap) hdrained hnode⟩
  · have hreport := Capabilities.report_stalled_eq_nil (k.board w.state).nodes.rows
      (k.board w.state).tasks.rows
    refine ⟨_, run_listCapabilities w, hreport, fun hoff t ht hlive hne hone => ?_⟩
    obtain ⟨cap, hcap⟩ := List.exists_mem_of_ne_nil _ hne
    obtain ⟨node, hmem, honline, hdrained, hdeclared⟩ := hreport.mp hoff t ht hlive cap hcap
    exact ⟨node, hmem, honline, Capabilities.nodeCanRun_of_one
      (fun c hc => hone c hc cap hcap) hdrained hdeclared⟩

end Admission

section SplitFleet

local instance asciiFleet : Unicode := Unicode.ascii

/-- Two nodes, each with half of what a task will ask for. -/
def splitFleet : Timed ClusterState where
  state := { ClusterState.empty with
    nodes := (Table.empty.upsert { id := "node_a", capabilities := ["docker"] }).upsert
      { id := "node_b", capabilities := ["gpu"] } }
  clock := fun _ => 0

/-- A task that asks for both is accepted, no node declares both, and afterwards
the alarm is off. -/
theorem split_fleet_accepts :
    let req : SubmitTaskRequest := { title := "t", requires := ["docker", "gpu"] }
    let after := (Tasks.submitTask "task_1" req).run (Backend.tick .memory) splitFleet
    after.1.isOk = true ∧
      (∀ node ∈ splitFleet.state.nodes.rows, node.drained = false) ∧
      (∀ node ∈ splitFleet.state.nodes.rows, ¬∀ cap ∈ req.requires, cap ∈ node.capabilities) ∧
      (∃ t ∈ after.2.state.tasks.rows, Capabilities.IsLive t.status ∧ t.requires = req.requires) ∧
      (Capabilities.listCapabilities.run (Backend.tick .memory) after.2).1.toOption.map
        (fun report => report.stalled) = some [] := by
  decide +kernel

end SplitFleet

end HermesCluster
