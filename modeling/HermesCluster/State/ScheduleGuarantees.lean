import HermesCluster.State.SchedulePass
/-!
# What a schedule pass guarantees

Safety of one pass, work conservation, and the order in which tasks are served,
for every backend and every state of its store.
-/

namespace HermesCluster

/-- The active tasks of a lane. -/
def activeInLane (tasks : List Task) (lane : String) : Nat :=
  tasks.countP (fun t => decide (t.status.IsActive ∧ t.laneKey = lane))

theorem not_mem_leasedTaskIds {now : Nat} {leases : Table Lease} {taskId : String} :
    taskId ∉ leasedTaskIds now leases ↔
      ∀ l ∈ leases.rows, l.taskId = taskId → ¬l.IsLive now := by
  simp only [leasedTaskIds, List.mem_map, List.mem_filter, decide_eq_true_eq]
  constructor
  · intro h l hl hid hlive
    exact h ⟨l, ⟨hl, hlive⟩, hid⟩
  · rintro h ⟨l, ⟨hl, hlive⟩, hid⟩
    exact h l hl hid hlive

theorem mem_onlineNodes {nodes : Table Node} {n : Node} :
    n ∈ onlineNodes nodes ↔ n ∈ nodes.rows ∧ n.status = .online := by
  simp [onlineNodes]

theorem eq_of_mem_onlineNodes (nodes : Table Node) :
    ∀ a ∈ onlineNodes nodes, ∀ b ∈ onlineNodes nodes, a.id = b.id → a = b := by
  intro a ha b hb hid
  exact Table.eq_of_mem_of_key_eq (mem_onlineNodes.mp ha).1 (mem_onlineNodes.mp hb).1 hid

theorem nodeCanRun_iff {taskRequires : List String} {n : Node} :
    nodeCanRun taskRequires n = true ↔
      n.drained = false ∧ ∀ cap ∈ taskRequires, cap ∈ n.capabilities := by
  cases hd : n.drained <;> simp [nodeCanRun, hd]

theorem not_active_of_ready {t : Task} (h : t.status = .ready) : ¬t.status.IsActive := by
  simp [TaskStatus.IsActive, h]

section Guarantees

variable [Unicode]

/-! ## Safety -/

/-- The task and the node of an assignment, as the pass found them. -/
structure Assignable (now : Nat) (b : Board) (a : Assignment) (t : Task) (n : Node) :
    Prop where
  task : b.tasks.get? a.taskId = some t
  node : b.nodes.get? a.nodeId = some n
  ready : t.status = .ready
  unleased : ∀ l ∈ b.leases.rows, l.taskId = t.id → ¬l.IsLive now
  online : n.status = .online
  undrained : n.drained = false
  capable : ∀ cap ∈ t.requires, cap ∈ n.capabilities
  pinned : lanePin b.lanes t ≠ "" → sameNode n.id (lanePin b.lanes t) = true

/-- `l` is the one lease the pass added for a task. -/
structure OnlyNewLease (b b' : Board) (taskId : String) (l : Lease) : Prop where
  stored : l ∈ b'.leases.rows
  new : l ∉ b.leases.rows
  task : l.taskId = taskId
  only : ∀ m ∈ b'.leases.rows, m ∉ b.leases.rows → m.taskId = taskId → m = l

/-- A pass from `b` to `b'` that returns `out` and does nothing it must not. A
ceiling of 0 or less is no ceiling; a task of the empty lane is in no lane. -/
structure SafePass (now : Nat) (b : Board) (out : List Assignment) (b' : Board) :
    Prop where
  assignable : ∀ a ∈ out, ∃ t n, Assignable now b a t n
  once : (out.map Assignment.taskId).Nodup
  runs : ∀ a ∈ out, b'.tasks.get? a.taskId =
    (b.tasks.get? a.taskId).map (Task.assignTo now a.nodeId)
  capacity : ∀ a ∈ out, ∀ n, b.nodes.get? a.nodeId = some n → n.id ≠ "" →
    0 < n.maxConcurrent → (activeOn b'.tasks.rows n.id : Int) ≤ n.maxConcurrent
  leased : ∀ a ∈ out, ∃ l, OnlyNewLease b b' a.taskId l ∧ l.nodeId = a.nodeId ∧
    l.IsLive now
  lanes : ∀ lane ≠ "", activeInLane b.tasks.rows lane ≤ 1 →
    activeInLane b'.tasks.rows lane ≤ 1
  frame_tasks : ∀ taskId ∉ out.map Assignment.taskId,
    b'.tasks.get? taskId = b.tasks.get? taskId
  frame_leases : ∀ taskId ∉ out.map Assignment.taskId,
    b'.leases.rows.filter (fun l => decide (l.taskId = taskId)) =
      b.leases.rows.filter (fun l => decide (l.taskId = taskId))

section Pass

variable {now : Nat} {b b' : Board} {cs : List Task} {out : List Assignment}

theorem placements_sublist (b : Board) (cs : List Task) :
    ((placements b cs).map Prod.fst).Sublist cs :=
  Chooser.place_sublist cs b.fair _

theorem mem_of_mem_placements {p : Task × String} (h : p ∈ placements b cs) : p.1 ∈ cs :=
  (placements_sublist b cs).subset (List.mem_map_of_mem h)

theorem eligible_of_mem_placements {t : Task} {nodeId : String}
    (h : (t, nodeId) ∈ placements b cs) :
    Eligible (onlineNodes b.nodes) (lanePin b.lanes t) t.requires nodeId :=
  Chooser.eligible_of_mem_place (laneChooser_sound _ _) h

namespace PassOf

theorem mem_out (h : PassOf now b cs out b') {a : Assignment} :
    a ∈ out ↔ ∃ p ∈ placements b cs, assignmentOf p = a := by
  rw [h.out_eq, List.mem_map]

theorem out_taskIds (h : PassOf now b cs out b') :
    out.map Assignment.taskId = (placements b cs).map (fun p => p.1.id) := by
  rw [h.out_eq, List.map_map]
  rfl

theorem nodup_placed (h : PassOf now b cs out b') :
    ((placements b cs).map (fun p => p.1.id)).Nodup := by
  have hids : (placements b cs).map (fun p => p.1.id) =
      ((placements b cs).map Prod.fst).map Task.id := by
    rw [List.map_map]
    rfl
  rw [hids]
  exact h.served.nodup_ids.sublist ((placements_sublist b cs).map Task.id)

theorem rows_placed (h : PassOf now b cs out b') :
    ∀ p ∈ placements b cs, b.tasks.get? p.1.id = some p.1 ∧ p.1.status = .ready :=
  fun p hp => h.served.rowReady p.1 (mem_of_mem_placements hp)

theorem assignable (h : PassOf now b cs out b') :
    ∀ a ∈ out, ∃ t n, Assignable now b a t n := by
  intro a ha
  obtain ⟨⟨t, nodeId⟩, hp, rfl⟩ := h.mem_out.mp ha
  obtain ⟨hmem, hready, hleased, -⟩ := (h.served.mem_iff t).mp (mem_of_mem_placements hp)
  obtain ⟨n, hn, rfl, hcan, hpin⟩ := eligible_of_mem_placements hp
  obtain ⟨hnode, honline⟩ := mem_onlineNodes.mp hn
  obtain ⟨hdrained, hcaps⟩ := nodeCanRun_iff.mp hcan
  refine ⟨t, n, ?_⟩
  exact
    { task := Table.get?_of_mem hmem
      node := Table.get?_of_mem hnode
      ready := hready
      unleased := not_mem_leasedTaskIds.mp hleased
      online := honline
      undrained := hdrained
      capable := hcaps
      pinned := fun hne => sameNode_of_pinnedNode (hpin hne) }

/-- Every count of active rows grows by the placements it takes in. -/
theorem countP_tasks (h : PassOf now b cs out b') {q : Task → Bool}
    (hq : ∀ t, t.status = .ready → q t = false) :
    b'.tasks.rows.countP q =
      b.tasks.rows.countP q + (placements b cs).countP (fun p => q (p.1.assignTo now p.2)) := by
  rw [h.tasks_eq]
  exact countP_placeAll hq h.nodup_placed h.rows_placed

theorem activeOn_eq (h : PassOf now b cs out b') (nodeId : String) :
    activeOn b'.tasks.rows nodeId =
      activeOn b.tasks.rows nodeId +
        (placements b cs).countP (fun p => decide (p.2 = nodeId)) := by
  rw [activeOn, h.countP_tasks, activeOn]
  · congr 2
    funext p
    simp [Task.assignTo, TaskStatus.IsActive]
  · intro t hready
    simp [not_active_of_ready hready]

/-- The load the planner ends with counts no more than the active tasks. -/
theorem loadAfter_le (h : PassOf now b cs out b') (nodeId : String) :
    Chooser.loadAfter (startLoad b.tasks.rows) (placements b cs) nodeId ≤
      activeOn b'.tasks.rows nodeId := by
  rw [h.activeOn_eq, Chooser.loadAfter]
  exact Nat.add_le_add_right (startLoad_le _ _) _

theorem loadAfter_eq (h : PassOf now b cs out b') {nodeId : String} (hne : nodeId ≠ "") :
    Chooser.loadAfter (startLoad b.tasks.rows) (placements b cs) nodeId =
      activeOn b'.tasks.rows nodeId := by
  rw [h.activeOn_eq, Chooser.loadAfter, startLoad, if_neg hne]

theorem capacity (h : PassOf now b cs out b') :
    ∀ a ∈ out, ∀ n, b.nodes.get? a.nodeId = some n → n.id ≠ "" → 0 < n.maxConcurrent →
      (activeOn b'.tasks.rows n.id : Int) ≤ n.maxConcurrent := by
  intro a ha n hn hne hpos
  obtain ⟨⟨t, nodeId⟩, hp, rfl⟩ := h.mem_out.mp ha
  obtain ⟨m, hload, hroom⟩ := Chooser.room_of_mem_place (laneChooser_sound _ _) hp
  obtain ⟨n', hn', rfl, hfree⟩ := hroom
  have hsame : n = n' := by
    have hget := Table.get?_of_mem (mem_onlineNodes.mp hn').1
    exact Option.some.inj (hn.symm.trans hget)
  subst hsame
  have hend : activeOn b'.tasks.rows n.id = m + 1 := by
    rw [← h.loadAfter_eq hne]
    exact hload
  rw [hend]
  exact le_maxConcurrent_of_room hpos hfree

theorem activeInLane_eq (h : PassOf now b cs out b') (lane : String) :
    activeInLane b'.tasks.rows lane =
      activeInLane b.tasks.rows lane +
        (placements b cs).countP (fun p => decide (p.1.laneKey = lane)) := by
  rw [activeInLane, h.countP_tasks, activeInLane]
  · congr 2
    funext p
    simp [Task.assignTo, TaskStatus.IsActive]
  · intro t hready
    simp [not_active_of_ready hready]

/-- Two placed tasks of one lane are one task. -/
theorem countP_lane_le_one (h : PassOf now b cs out b') {lane : String} (hlane : lane ≠ "") :
    (placements b cs).countP (fun p => decide (p.1.laneKey = lane)) ≤ 1 := by
  rw [List.countP_eq_length_filter]
  generalize hfilter :
    (placements b cs).filter (fun p => decide (p.1.laneKey = lane)) = found
  match found with
  | [] => exact Nat.zero_le 1
  | [_] => exact Nat.le_refl 1
  | p :: q :: rest =>
      have hsub : (p :: q :: rest).Sublist (placements b cs) :=
        hfilter ▸ List.filter_sublist
      have hmem : ∀ r ∈ p :: q :: rest, r ∈ placements b cs ∧ r.1.laneKey = lane := by
        intro r hr
        rw [← hfilter] at hr
        obtain ⟨hplaced, hkey⟩ := List.mem_filter.mp hr
        exact ⟨hplaced, of_decide_eq_true hkey⟩
      obtain ⟨hp, hpkey⟩ := hmem p (by simp)
      obtain ⟨hq, hqkey⟩ := hmem q (by simp)
      obtain ⟨hpmem, hpready, -, hpfree⟩ :=
        (h.served.mem_iff _).mp (mem_of_mem_placements hp)
      obtain ⟨hqmem, hqready, -, hqfree⟩ :=
        (h.served.mem_iff _).mp (mem_of_mem_placements hq)
      have hsame : p.1 = q.1 := eq_of_free hpmem hpready (hpkey ▸ hlane) hpfree hqmem
        hqready hqfree (hqkey.trans hpkey.symm)
      have hnodup := h.nodup_placed.sublist (hsub.map (fun p => p.1.id))
      simp [hsame] at hnodup

theorem lanes (h : PassOf now b cs out b') :
    ∀ lane ≠ "", activeInLane b.tasks.rows lane ≤ 1 →
      activeInLane b'.tasks.rows lane ≤ 1 := by
  intro lane hlane hone
  rw [h.activeInLane_eq]
  by_cases hplaced : ∃ p ∈ placements b cs, p.1.laneKey = lane
  · -- the guard let a task of this lane through, so no sitting was active
    obtain ⟨p, hp, hkey⟩ := hplaced
    obtain ⟨hmem, hready, -, hfree⟩ := (h.served.mem_iff _).mp (mem_of_mem_placements hp)
    have hidle : activeInLane b.tasks.rows lane = 0 := by
      rw [activeInLane, List.countP_eq_zero]
      intro u hu hactive
      obtain ⟨hstatus, hukey⟩ := of_decide_eq_true hactive
      exact not_active_of_free hmem hready (hkey ▸ hlane) hfree u hu
        (hukey.trans hkey.symm) hstatus
    have hle := h.countP_lane_le_one hlane
    omega
  · have hzero : (placements b cs).countP (fun p => decide (p.1.laneKey = lane)) = 0 := by
      rw [List.countP_eq_zero]
      intro p hp hkey
      exact hplaced ⟨p, hp, of_decide_eq_true hkey⟩
    omega

theorem leased (h : PassOf now b cs out b') :
    ∀ a ∈ out, ∃ l, OnlyNewLease b b' a.taskId l ∧ l.nodeId = a.nodeId ∧ l.IsLive now := by
  intro a ha
  obtain ⟨p, hp, rfl⟩ := h.mem_out.mp ha
  obtain ⟨added, hrows, hpairs, hlive⟩ := leases_placeAll now b (placements b cs)
  rw [← h.leases_eq] at hrows
  have hadded : (added.map Lease.taskId).Nodup := by
    have hids : added.map Lease.taskId = (placements b cs).map (fun p => p.1.id) := by
      have hfst := congrArg (List.map Prod.fst) hpairs
      rw [List.map_map, List.map_map] at hfst
      exact hfst
    rw [hids]
    exact h.nodup_placed
  have hdisjoint : ∀ l ∈ added, l ∉ b.leases.rows := by
    intro l hl hold
    have hnodup := b'.leases.rows_nodup
    rw [hrows] at hnodup
    exact (List.nodup_append.mp hnodup).2.2 l hold l hl rfl
  have hpair : (p.1.id, p.2) ∈ added.map (fun l => (l.taskId, l.nodeId)) := by
    rw [hpairs]
    exact List.mem_map_of_mem (f := fun p => (p.1.id, p.2)) hp
  obtain ⟨l, hl, heq⟩ := List.mem_map.mp hpair
  obtain ⟨htask, hnode⟩ := Prod.mk.inj heq
  refine ⟨l, ⟨?_, hdisjoint l hl, htask, ?_⟩, hnode, hlive l hl⟩
  · rw [hrows]
    exact List.mem_append_right _ hl
  · intro m hm hnew hmtask
    rw [hrows] at hm
    have hmadded := (List.mem_append.mp hm).resolve_left hnew
    exact List.inj_on_of_nodup_map hadded hmadded hl (hmtask.trans htask.symm)

theorem frame_tasks (h : PassOf now b cs out b') :
    ∀ taskId ∉ out.map Assignment.taskId, b'.tasks.get? taskId = b.tasks.get? taskId := by
  intro taskId hnot
  rw [h.out_taskIds] at hnot
  rw [h.tasks_eq]
  exact get?_placeAll_of_not_placed hnot

theorem frame_leases (h : PassOf now b cs out b') :
    ∀ taskId ∉ out.map Assignment.taskId,
      b'.leases.rows.filter (fun l => decide (l.taskId = taskId)) =
        b.leases.rows.filter (fun l => decide (l.taskId = taskId)) := by
  intro taskId hnot
  rw [h.out_taskIds] at hnot
  obtain ⟨added, hrows, hpairs, -⟩ := leases_placeAll now b (placements b cs)
  have hnone : added.filter (fun l => decide (l.taskId = taskId)) = [] := by
    rw [List.filter_eq_nil_iff]
    intro l hl hid
    have hmem : (l.taskId, l.nodeId) ∈ (placements b cs).map (fun p => (p.1.id, p.2)) := by
      rw [← hpairs]
      exact List.mem_map_of_mem (f := fun l : Lease => (l.taskId, l.nodeId)) hl
    obtain ⟨p, hp, heq⟩ := List.mem_map.mp hmem
    apply hnot
    rw [← of_decide_eq_true hid, ← (Prod.mk.inj heq).1]
    exact List.mem_map_of_mem (f := fun p => p.1.id) hp
  rw [h.leases_eq, hrows, List.filter_append, hnone, List.append_nil]

theorem runs (h : PassOf now b cs out b') :
    ∀ a ∈ out, b'.tasks.get? a.taskId =
      (b.tasks.get? a.taskId).map (Task.assignTo now a.nodeId) := by
  intro a ha
  obtain ⟨⟨t, nodeId⟩, hp, rfl⟩ := h.mem_out.mp ha
  rw [h.tasks_eq]
  exact get?_placeAll_of_placed h.nodup_placed hp

theorem safe (h : PassOf now b cs out b') : SafePass now b out b' where
  assignable := h.assignable
  once := by
    rw [h.out_taskIds]
    exact h.nodup_placed
  runs := h.runs
  capacity := h.capacity
  leased := h.leased
  lanes := h.lanes
  frame_tasks := h.frame_tasks
  frame_leases := h.frame_leases

/-! ## Work conservation -/

/-- A candidate that was not placed has no eligible node with room at the end. -/
theorem full_of_not_placed (h : PassOf now b cs out b') {t : Task}
    (ht : IsCandidate now b t) (hnot : t.id ∉ out.map Assignment.taskId) {n : Node}
    (hn : n ∈ onlineNodes b.nodes) (hcan : nodeCanRun t.requires n = true)
    (hpin : lanePin b.lanes t ≠ "" →
      pinnedNode (onlineNodes b.nodes) (lanePin b.lanes t) = some n) :
    nodeAtCapacity n (activeOn b'.tasks.rows n.id) = true := by
  have hunplaced : ∀ nodeId, (t, nodeId) ∉ placements b cs := by
    intro nodeId hp
    apply hnot
    rw [h.out_taskIds]
    exact List.mem_map_of_mem (f := fun p => p.1.id) hp
  have hfull := Chooser.no_room_of_not_placed
    (laneChooser_complete (lanePin b.lanes) (eq_of_mem_onlineNodes b.nodes))
    (hasRoom_antitone _) ((h.served.mem_iff t).mpr ht) hunplaced ⟨n, hn, rfl, hcan, hpin⟩
  cases hend : nodeAtCapacity n (activeOn b'.tasks.rows n.id) with
  | true => rfl
  | false =>
      refine absurd ⟨n, hn, rfl, ?_⟩ hfull
      cases hload : nodeAtCapacity n
          (Chooser.loadAfter (startLoad b.tasks.rows) (placements b cs) n.id) with
      | false => exact hload
      | true =>
          rw [nodeAtCapacity_mono (h.loadAfter_le n.id) hload] at hend
          cases hend

theorem not_placed_of_waits (h : PassOf now b cs out b') {t : Task}
    (hwaits : (b'.tasks.get? t.id).map Task.status = some .ready) :
    t.id ∉ out.map Assignment.taskId := by
  intro hmem
  obtain ⟨a, ha, hid⟩ := List.mem_map.mp hmem
  obtain ⟨u, n, hassignable⟩ := h.assignable a ha
  rw [← hid, h.runs a ha, hassignable.task] at hwaits
  cases hwaits

/-! ## Order -/

/-- A candidate served before another one that needs no less and has no fewer
nodes to go to is placed if the other one is. -/
theorem placed_of_later (h : PassOf now b cs out b') {shown : Nat → Int}
    (hsorted : cs.Pairwise (ServedFirst shown)) {t u : Task}
    (ht : IsCandidate now b t) (hpin : lanePin b.lanes t = "")
    (hcaps : ∀ cap ∈ t.requires, cap ∈ u.requires) (hu : u ∈ b.tasks.rows)
    (hfirst : ¬ServedFirst shown u t) (hplaced : u.id ∈ out.map Assignment.taskId) :
    t.id ∈ out.map Assignment.taskId := by
  by_contra hnot
  rw [h.out_taskIds] at hplaced hnot
  obtain ⟨p, hp, hid⟩ := List.mem_map.mp hplaced
  have hrow : p.1 = u :=
    Table.eq_of_mem_of_key_eq ((h.served.mem_iff _).mp (mem_of_mem_placements hp)).1 hu hid
  obtain ⟨before, after, hsplit⟩ := List.append_of_mem ((h.served.mem_iff t).mpr ht)
  rw [hsplit] at hsorted
  have hbefore : u ∉ before := fun hmem =>
    hfirst ((List.pairwise_append.mp hsorted).2.2 u hmem t List.mem_cons_self)
  have hsame : ∀ nodeId,
      Eligible (onlineNodes b.nodes) (lanePin b.lanes u) u.requires nodeId →
        Eligible (onlineNodes b.nodes) (lanePin b.lanes t) t.requires nodeId := by
    rintro nodeId ⟨n, hn, rfl, hcan, -⟩
    obtain ⟨hdrained, hall⟩ := nodeCanRun_iff.mp hcan
    refine ⟨n, hn, rfl, nodeCanRun_iff.mpr ⟨hdrained, ?_⟩, fun hne => absurd hpin hne⟩
    exact fun cap hcap => hall cap (hcaps cap hcap)
  have hunplaced : ∀ nodeId, (t, nodeId) ∉ placements b cs := fun nodeId hmem =>
    hnot (List.mem_map_of_mem (f := fun p => p.1.id) hmem)
  refine Chooser.not_placed_of_earlier before after b.fair (startLoad b.tasks.rows)
    (laneChooser_sound (onlineNodes b.nodes) (lanePin b.lanes))
    (laneChooser_complete (lanePin b.lanes) (eq_of_mem_onlineNodes b.nodes))
    (hasRoom_antitone _) hbefore hsame ?_ p.2 ?_
  · intro nodeId
    rw [← hsplit]
    exact hunplaced nodeId
  · rw [← hsplit, ← hrow]
    exact hp

/-- Of the ready siblings of a lane the one that is placed comes first. -/
theorem siblingFirst_of_placed (h : PassOf now b cs out b') {t u : Task}
    (ht : t ∈ b.tasks.rows) (hready : t.status = .ready) (hu : u ∈ b.tasks.rows)
    (hlane : u.laneKey ≠ "") (hkey : t.laneKey = u.laneKey)
    (hplaced : u.id ∈ out.map Assignment.taskId) : SiblingFirst u t := by
  rw [h.out_taskIds] at hplaced
  obtain ⟨p, hp, hid⟩ := List.mem_map.mp hplaced
  obtain ⟨hmem, huready, -, hfree⟩ := (h.served.mem_iff _).mp (mem_of_mem_placements hp)
  have hrow : p.1 = u := Table.eq_of_mem_of_key_eq hmem hu hid
  rw [hrow] at huready hfree
  exact siblingFirst_of_free hu huready hlane hfree ht hready hkey

end PassOf

end Pass

/-- Nothing that a pass leaves ready could still be placed. A pin that names no
online node leaves its task parked. -/
structure WorkConserving (now : Nat) (b b' : Board) : Prop where
  unpinned : ∀ t, IsCandidate now b t → lanePin b.lanes t = "" →
    (b'.tasks.get? t.id).map Task.status = some .ready →
    ∀ n ∈ b.nodes.rows, n.status = .online → n.drained = false →
      (∀ cap ∈ t.requires, cap ∈ n.capabilities) →
      nodeAtCapacity n (activeOn b'.tasks.rows n.id) = true
  pinned : ∀ t, IsCandidate now b t → lanePin b.lanes t ≠ "" →
    (b'.tasks.get? t.id).map Task.status = some .ready →
    ∀ n, pinnedNode (onlineNodes b.nodes) (lanePin b.lanes t) = some n →
      n.drained = true ∨ (∃ cap ∈ t.requires, cap ∉ n.capabilities) ∨
        nodeAtCapacity n (activeOn b'.tasks.rows n.id) = true

theorem PassOf.workConserving {now : Nat} {b b' : Board} {cs : List Task}
    {out : List Assignment} (h : PassOf now b cs out b') : WorkConserving now b b' where
  unpinned t ht hpin hwaits n hn honline hdrained hcaps :=
    h.full_of_not_placed ht (h.not_placed_of_waits hwaits) (mem_onlineNodes.mpr ⟨hn, honline⟩)
      (nodeCanRun_iff.mpr ⟨hdrained, hcaps⟩) (fun hne => absurd hpin hne)
  pinned t ht hpin hwaits n hn := by
    by_cases hcan : nodeCanRun t.requires n = true
    · exact .inr (.inr (h.full_of_not_placed ht (h.not_placed_of_waits hwaits)
        (List.mem_of_find?_eq_some hn) hcan (fun _ => hn)))
    · rw [nodeCanRun_iff, not_and_or] at hcan
      rcases hcan with hdrained | hcaps
      · exact .inl (by simpa using hdrained)
      · exact .inr (.inl (by simpa using hcaps))

/-- Strictly before in the order of service, where the clock shows two times of one band
in their order. -/
def ServedBefore (shown : Nat → Int) (t u : Task) : Prop :=
  t.priority < u.priority ∨
    (t.priority = u.priority ∧ u.createdAt < t.createdAt ∧
      shown u.createdAt < shown t.createdAt)

omit [Unicode] in
theorem not_servedFirst_of_servedBefore {shown : Nat → Int} {t u : Task}
    (h : ServedBefore shown t u) : ¬ServedFirst shown u t := by
  unfold ServedBefore at h
  unfold ServedFirst
  omega

/-- The order of service. Between lanes it is that of the ready list; within a
lane the guard lets the smaller band through, the oldest first. -/
structure ServedInOrder (shown : Nat → Int) (now : Nat) (b : Board) (out : List Assignment) :
    Prop where
  bands : ∀ t u, IsCandidate now b t → u ∈ b.tasks.rows → lanePin b.lanes t = "" →
    (∀ cap ∈ t.requires, cap ∈ u.requires) → ServedBefore shown t u →
    u.id ∈ out.map Assignment.taskId → t.id ∈ out.map Assignment.taskId
  siblings : ∀ t u, t ∈ b.tasks.rows → t.status = .ready → u ∈ b.tasks.rows →
    u.laneKey ≠ "" → t.laneKey = u.laneKey → u.id ∈ out.map Assignment.taskId →
    SiblingFirst u t

theorem PassOf.servedInOrder {now : Nat} {b b' : Board} {cs : List Task}
    {out : List Assignment} (h : PassOf now b cs out b') {shown : Nat → Int}
    (hsorted : cs.Pairwise (ServedFirst shown)) : ServedInOrder shown now b out where
  bands _ _ ht hu hpin hcaps hbefore hplaced :=
    h.placed_of_later hsorted ht hpin hcaps hu (not_servedFirst_of_servedBefore hbefore) hplaced
  siblings _ _ ht hready hu hlane hkey hplaced :=
    h.siblingFirst_of_placed ht hready hu hlane hkey hplaced

end Guarantees

/-! ## Every backend, every state -/

section Backends

variable [Unicode]

/-- One pass over any store state is safe. -/
theorem schedulePendingDetailed_safe (k : Backend) (now : Nat) (s : k.Store) :
    SafePass now (k.board s) (k.step now .schedulePendingDetailed s).1
      (k.board (k.step now .schedulePendingDetailed s).2) := by
  obtain ⟨cs, hpass, -⟩ := k.passOf now s
  exact hpass.safe

/-- One pass over any store state leaves nothing that it could still place. -/
theorem schedulePendingDetailed_work_conserving (k : Backend) (now : Nat) (s : k.Store) :
    WorkConserving now (k.board s)
      (k.board (k.step now .schedulePendingDetailed s).2) := by
  obtain ⟨cs, hpass, -⟩ := k.passOf now s
  exact hpass.workConserving

/-- One pass over any store state serves the tasks in order. -/
theorem schedulePendingDetailed_in_order (k : Backend) (now : Nat) (s : k.Store) :
    ServedInOrder (k.shown s) now (k.board s) (k.step now .schedulePendingDetailed s).1 := by
  obtain ⟨cs, hpass, hsorted⟩ := k.passOf now s
  exact hpass.servedInOrder hsorted

end Backends

/-! ## What a pass does not guarantee -/

section Limits

local instance : Unicode := Unicode.ascii

/-- A full node without an id, and a task waiting. -/
def unnamedNode : ClusterState where
  nodes := .single { id := "", maxConcurrent := 1 }
  tasks := ⟨[{ id := "a", title := "a", status := .running, assignedTo := some "",
               createdAt := 1, updatedAt := 1 },
             { id := "b", title := "b", status := .ready, createdAt := 2, updatedAt := 2 }],
    by decide⟩
  index_ok := indexOk_initial

/-- The count of active tasks skips an empty `assigned_to`, so the node without
an id is filled past its ceiling. -/
theorem unnamed_node_overfilled :
    ¬∀ a ∈ (ClusterState.step 3 .schedulePendingDetailed unnamedNode).1,
      ∀ n, unnamedNode.nodes.get? a.nodeId = some n → 0 < n.maxConcurrent →
        (activeOn (ClusterState.step 3 .schedulePendingDetailed unnamedNode).2.tasks.rows
          n.id : Int) ≤ n.maxConcurrent := by
  intro h
  have hmem : (⟨"b", "b", "", 3⟩ : Assignment) ∈
      (ClusterState.step 3 .schedulePendingDetailed unnamedNode).1 := by decide
  have hle := h _ hmem { id := "", maxConcurrent := 1 } (by decide) (by decide)
  exact absurd hle (by decide)

/-- An idle node that owns a lane, a sitting of the lane, and its sibling. -/
def heldSibling : ClusterState where
  nodes := .single { id := "n" }
  tasks := ⟨[{ id := "a", title := "a", status := .running, assignedTo := some "n",
               laneKey := "repo!1", createdAt := 1, updatedAt := 1 },
             { id := "b", title := "b", status := .ready, laneKey := "repo!1",
               createdAt := 2, updatedAt := 2 }], by decide⟩
  lanes := .single { laneKey := "repo!1", node := "n" }
  index_ok := indexOk_initial

/-- A pinned task that the lane guard holds stays ready although its node is
online, not drained, capable and unlimited. -/
theorem held_pinned_task_waits :
    ¬∀ t ∈ (ClusterState.step 3 .schedulePendingDetailed heldSibling).2.tasks.rows,
      t.status = .ready → lanePin heldSibling.lanes t ≠ "" →
        ∀ n ∈ heldSibling.nodes.rows, sameNode n.id (lanePin heldSibling.lanes t) = true →
          n.status ≠ .online ∨ n.drained = true ∨ (∃ cap ∈ t.requires, cap ∉ n.capabilities) ∨
            nodeAtCapacity n (activeOn
              (ClusterState.step 3 .schedulePendingDetailed heldSibling).2.tasks.rows n.id) =
              true := by
  decide

/-- Two ready siblings of one lane, and a node with room for both. -/
def readySiblings : ClusterState where
  nodes := .single { id := "n" }
  tasks := ⟨[{ id := "old", title := "old", status := .ready, laneKey := "repo!1",
               createdAt := 1, updatedAt := 1 },
             { id := "new", title := "new", status := .ready, laneKey := "repo!1",
               createdAt := 2, updatedAt := 2 }], by decide⟩
  index_ok := indexOk_initial

/-- Within a lane the oldest sibling goes first, against the order of the ready
list. -/
theorem newer_sibling_waits :
    ¬∀ t ∈ readySiblings.tasks.rows, ∀ u ∈ readySiblings.tasks.rows,
      t.status = .ready → u.status = .ready →
      t.id ∉ leasedTaskIds 3 readySiblings.leases →
      u.id ∉ leasedTaskIds 3 readySiblings.leases →
      lanePin readySiblings.lanes t = "" → lanePin readySiblings.lanes u = "" →
      t.requires = u.requires →
      t.laneKey ∉ activeLanes readySiblings.tasks.rows →
      u.laneKey ∉ activeLanes readySiblings.tasks.rows →
      (t.priority < u.priority ∨ (t.priority = u.priority ∧ u.createdAt < t.createdAt)) →
      u.id ∈ (ClusterState.step 3 .schedulePendingDetailed readySiblings).1.map
        Assignment.taskId →
      ((ClusterState.step 3 .schedulePendingDetailed readySiblings).2.tasks.get? t.id).map
        Task.status ≠ some .ready := by
  decide

end Limits

end HermesCluster
