import HermesCluster.Lease.LeaseRows
/-!
# The leases of one task

A store may hold several leases of a task, while a lookup by task returns one.
In which order the lookup finds the active ones, as each one found is revoked,
and which operations leave the leases of a task alone.
-/

namespace HermesCluster

/-- The lease rows of a task, and the lease that the index names for it. -/
structure TaskLeases where
  rows : List Lease
  indexed : Option Nat := none

namespace TaskLeases

/-- The active leases in the order in which lookups find them, if each one found
is revoked; nothing is found for the empty id. -/
def found (taskId : String) (h : TaskLeases) : List Lease :=
  if taskId = "" then []
  else
    let active := h.rows.filter (fun l => decide (l.status = .active))
    match h.indexed.bind (fun id => active.find? (fun l => decide (l.id = id))) with
    | some l => l :: active.filter (fun m => decide (m.id ≠ l.id))
    | none => active

/-- The lease found first is revoked, and the index forgets the task. -/
def revokeFirst (taskId : String) (h : TaskLeases) : TaskLeases :=
  match h.found taskId with
  | [] => h
  | l :: _ => { rows := h.rows.map (fun m => if m.id = l.id then m.revoke else m) }

/-- Every live lease is among the first `n` that lookups find. -/
def Covered (now : Nat) (taskId : String) (n : Nat) (h : TaskLeases) : Prop :=
  ∀ l ∈ h.rows, l.IsLive now → l ∈ (h.found taskId).take n

instance (now : Nat) (taskId : String) (n : Nat) (h : TaskLeases) :
    Decidable (h.Covered now taskId n) :=
  inferInstanceAs (Decidable (∀ l ∈ h.rows, l.IsLive now → l ∈ (h.found taskId).take n))

variable {now n : Nat} {taskId : String} {h : TaskLeases}

theorem mem_rows_of_mem_found {l : Lease} (hl : l ∈ h.found taskId) :
    l ∈ h.rows ∧ l.status = .active := by
  unfold found at hl
  split at hl
  · cases hl
  have hactive : ∀ m ∈ h.rows.filter (fun l => decide (l.status = .active)),
      m ∈ h.rows ∧ m.status = .active := by
    intro m hm
    obtain ⟨hmem, hstatus⟩ := List.mem_filter.mp hm
    exact ⟨hmem, of_decide_eq_true hstatus⟩
  dsimp only at hl
  split at hl
  · rename_i first hfirst
    obtain ⟨id, -, hfind⟩ := Option.bind_eq_some_iff.mp hfirst
    rcases List.mem_cons.mp hl with rfl | hrest
    · exact hactive _ (List.mem_of_find?_eq_some hfind)
    · exact hactive _ (List.mem_filter.mp hrest).1
  · exact hactive _ hl

theorem ids_revokeFirst (taskId : String) (h : TaskLeases) :
    (h.revokeFirst taskId).rows.map Lease.id = h.rows.map Lease.id := by
  unfold revokeFirst
  split
  · rfl
  · rw [List.map_map]
    refine List.map_congr_left (fun m _ => ?_)
    simp only [Function.comp_apply]
    split <;> rfl

/-- Among rows with distinct ids, those that remain active when one is revoked. -/
theorem filter_active_revoke (rows : List Lease) (id : Nat) :
    (rows.map (fun m => if m.id = id then m.revoke else m)).filter
        (fun l => decide (l.status = .active)) =
      (rows.filter (fun l => decide (l.status = .active))).filter
        (fun m => decide (m.id ≠ id)) := by
  induction rows with
  | nil => rfl
  | cons m rows ih =>
      rw [List.map_cons, List.filter_cons, ih, List.filter_cons]
      by_cases hid : m.id = id
      · have hrevoked : m.revoke.status ≠ .active := by
          intro hactive
          cases hactive
        rw [if_pos hid, decide_eq_false hrevoked]
        by_cases hactive : m.status = .active
        · simp [hactive, hid]
        · simp [hactive]
      · rw [if_neg hid]
        by_cases hactive : m.status = .active
        · simp [hactive, hid]
        · simp [hactive]

/-- The next lookup finds the next one. -/
theorem found_revokeFirst (hnodup : (h.rows.map Lease.id).Nodup) :
    (h.revokeFirst taskId).found taskId = (h.found taskId).tail := by
  unfold revokeFirst
  cases hfound : h.found taskId with
  | nil => exact hfound
  | cons l rest =>
      have hne : taskId ≠ "" := by
        rintro rfl
        cases hfound
      dsimp only
      unfold found at hfound ⊢
      rw [if_neg hne] at hfound ⊢
      simp only [Option.bind_none, List.tail_cons]
      rw [filter_active_revoke]
      dsimp only at hfound
      split at hfound
      · cases hfound
        rfl
      · have hsub : ((l :: rest).map Lease.id).Sublist (h.rows.map Lease.id) :=
          hfound ▸ List.filter_sublist.map Lease.id
        have hfresh := (List.nodup_cons.mp (hnodup.sublist hsub)).1
        rw [hfound, List.filter_cons_of_neg (by simp)]
        refine List.filter_eq_self.mpr (fun m hm => decide_eq_true (fun heq => hfresh ?_))
        exact heq ▸ List.mem_map_of_mem hm

/-- One lookup covers one lease. -/
theorem covered_revokeFirst (hnodup : (h.rows.map Lease.id).Nodup) :
    (h.revokeFirst taskId).Covered now taskId n ↔ h.Covered now taskId (n + 1) := by
  unfold Covered
  rw [found_revokeFirst hnodup]
  unfold revokeFirst
  cases hfound : h.found taskId with
  | nil => simp
  | cons first rest =>
      have hfirst : first ∈ h.rows := by
        have hmem : first ∈ h.found taskId := hfound ▸ List.mem_cons_self
        exact (mem_rows_of_mem_found hmem).1
      rw [List.tail_cons, List.take_succ_cons]
      constructor
      · intro hcover l hl hlive
        by_cases hid : l.id = first.id
        · rw [List.inj_on_of_nodup_map hnodup hl hfirst hid]
          exact List.mem_cons_self
        · refine List.mem_cons_of_mem first (hcover l (List.mem_map.mpr ⟨l, hl, ?_⟩) hlive)
          exact if_neg hid
      · intro hcover l hl hlive
        obtain ⟨m, hm, rfl⟩ := List.mem_map.mp hl
        split at hlive
        · cases hlive.1
        · rename_i hid
          rw [if_neg hid]
          rcases List.mem_cons.mp (hcover m hm hlive) with rfl | hrest
          · exact absurd rfl hid
          · exact hrest

end TaskLeases

/-- The leases of a task. -/
def leasesOf (b : Board) (taskId : String) : List Lease :=
  b.leases.rows.filter (fun l => decide (l.taskId = taskId))

theorem mem_leasesOf {b : Board} {taskId : String} {l : Lease} :
    l ∈ leasesOf b taskId ↔ l ∈ b.leases.rows ∧ l.taskId = taskId := by
  rw [leasesOf, List.mem_filter, decide_eq_true_eq]

theorem nodup_leasesOf (b : Board) (taskId : String) :
    ((leasesOf b taskId).map Lease.id).Nodup :=
  b.leases.nodup.sublist (List.filter_sublist.map Lease.id)

/-- The leases of a task with the entry of the index, which only the in-memory
store keeps. -/
def Backend.taskLeases : (k : Backend) → (taskId : String) → k.Store → TaskLeases
  | .memory, taskId, s =>
      { rows := leasesOf (ClusterState.toBoard s) taskId
        indexed := ((ClusterState.taskLeaseIndex s).get? taskId).map IndexEntry.leaseId }
  | .sql _, taskId, s => { rows := leasesOf (ClusterStore.toBoard s) taskId }

theorem Backend.rows_taskLeases (k : Backend) (taskId : String) (s : k.Store) :
    (k.taskLeases taskId s).rows = leasesOf (k.board s) taskId := by
  cases k <;> rfl

/-! ## What the operations of a store do to them -/

/-- The operation reads, writes to a task row, or revokes a lease of another
task. -/
def SparesLeases (taskId : String) (b : Board) : StoreOp → Prop
  | .revokeLease leaseId => ∀ l ∈ b.leases.rows, l.id = leaseId → l.taskId ≠ taskId
  | .utcnow | .getTask _ | .getAllTasks | .getAllNodes | .getDependents _ | .getTriggerChain _
  | .getLeaseByTask _ | .setTaskResult _ _ | .setTaskStatus _ _ _ | .setTaskBallot _ _
  | .setTaskCancelRequeue _ _ | .writeTaskRow _ _ _ => True
  | _ => False

section Boards

variable {b b' : Board} {taskId : String}

theorem leasesOf_of_append {added : List Lease} (h : b'.leases.rows = b.leases.rows ++ added) :
    leasesOf b' taskId =
      leasesOf b taskId ++ added.filter (fun l => decide (l.taskId = taskId)) := by
  rw [leasesOf, leasesOf, h, List.filter_append]

theorem leasesOf_updateWhere {p : Lease → Prop} [DecidablePred p] {f : Lease → Lease}
    (hf : Table.KeepsKey f) (htask : ∀ l, (f l).taskId = l.taskId)
    (h : b'.leases = b.leases.updateWhere p f hf) :
    leasesOf b' taskId = (leasesOf b taskId).map (fun l => if p l then f l else l) := by
  have hrows : b'.leases.rows = b.leases.rows.map (fun l => if p l then f l else l) :=
    congrArg Table.rows h
  rw [leasesOf, leasesOf, hrows, List.filter_map]
  congr 1
  refine List.filter_congr (fun l _ => ?_)
  simp only [Function.comp_apply]
  split
  · rw [htask]
  · rfl

theorem leasesOf_updateWhere_other {p : Lease → Prop} [DecidablePred p] {f : Lease → Lease}
    (hf : Table.KeepsKey f) (htask : ∀ l, (f l).taskId = l.taskId)
    (h : b'.leases = b.leases.updateWhere p f hf)
    (hother : ∀ l ∈ b.leases.rows, p l → l.taskId ≠ taskId) :
    leasesOf b' taskId = leasesOf b taskId := by
  rw [leasesOf_updateWhere hf htask h]
  refine (List.map_congr_left (fun l hl => ?_)).trans (List.map_id _)
  obtain ⟨hmem, htid⟩ := mem_leasesOf.mp hl
  exact if_neg (fun hp => hother l hmem hp htid)

end Boards

namespace ClusterState

variable {s : ClusterState} {taskId : String}

theorem getLeaseByTask_eq (taskId : String) (s : ClusterState) :
    s.getLeaseByTask taskId = ((Backend.memory.taskLeases taskId s).found taskId).head? := by
  have hscan : s.leases.rows.find? (fun l => decide (l.taskId = taskId ∧ l.status = .active)) =
      ((leasesOf s.toBoard taskId).filter (fun l => decide (l.status = .active))).head? := by
    rw [leasesOf, List.filter_filter, List.head?_filter]
    congr 1
    funext l
    rw [Bool.decide_and, Bool.and_comm]
  unfold getLeaseByTask TaskLeases.found
  by_cases hempty : taskId = ""
  · rw [if_pos hempty, if_pos hempty]
    rfl
  rw [if_neg hempty, if_neg hempty, hscan]
  dsimp only [Backend.taskLeases]
  cases hindex : s.taskLeaseIndex.get? taskId with
  | none => rfl
  | some e =>
      obtain ⟨l, hl, hid, htask⟩ := s.index_ok e (Table.mem_of_get? hindex)
      have hget : s.leases.get? e.leaseId = some l := Table.get?_eq_some_iff.mpr ⟨hl, hid⟩
      have hmem : l ∈ leasesOf s.toBoard taskId :=
        mem_leasesOf.mpr ⟨hl, htask.trans (Table.key_of_get? hindex)⟩
      simp only [Option.bind_some, Option.map_some, hget]
      by_cases hactive : l.status = .active
      · have hfind : ((leasesOf s.toBoard taskId).filter
            (fun l => decide (l.status = .active))).find? (fun m => decide (m.id = e.leaseId)) =
              some l := by
          have hactives : l ∈ (leasesOf s.toBoard taskId).filter
              (fun l => decide (l.status = .active)) :=
            List.mem_filter.mpr ⟨hmem, decide_eq_true hactive⟩
          have hnodup := (nodup_leasesOf s.toBoard taskId).sublist
            ((List.filter_sublist (p := fun l => decide (l.status = .active))).map Lease.id)
          exact hid ▸ Table.get?_of_mem (t := ⟨_, hnodup⟩) hactives
        rw [hfind, Option.filter_some, if_pos (decide_eq_true hactive)]
        rfl
      · have hfind : ((leasesOf s.toBoard taskId).filter
            (fun l => decide (l.status = .active))).find? (fun m => decide (m.id = e.leaseId)) =
              none := by
          refine List.find?_eq_none.mpr (fun m hm heq => ?_)
          obtain ⟨hmem', hactive'⟩ := List.mem_filter.mp hm
          have hsame : m = l := Table.eq_of_mem_of_key_eq (mem_leasesOf.mp hmem').1 hl
            ((of_decide_eq_true heq).trans hid.symm)
          exact hactive (hsame ▸ of_decide_eq_true hactive')
        rw [hfind, Option.filter_some, if_neg (by simp [hactive])]

theorem taskLeases_revokeLease {l : Lease} {rest : List Lease}
    (hfound : (Backend.memory.taskLeases taskId s).found taskId = l :: rest) :
    Backend.memory.taskLeases taskId (s.revokeLease l.id).2 =
      (Backend.memory.taskLeases taskId s).revokeFirst taskId := by
  obtain ⟨hrow, -⟩ := TaskLeases.mem_rows_of_mem_found
    (hfound ▸ List.mem_cons_self : l ∈ (Backend.memory.taskLeases taskId s).found taskId)
  obtain ⟨hmem, htask⟩ := mem_leasesOf.mp hrow
  have hget : s.leases.get? l.id = some l := Table.get?_of_mem hmem
  unfold TaskLeases.revokeFirst
  rw [hfound]
  unfold revokeLease
  rw [hget]
  dsimp only [Backend.taskLeases]
  rw [htask, Table.get?_erase, if_pos rfl]
  congr 1
  exact leasesOf_updateWhere Lease.keepsKey_revoke (fun _ => rfl) rfl

end ClusterState

namespace ClusterStore

variable {s : ClusterStore} {d : SqlDialect} {taskId : String}

theorem getLeaseByTask_eq (d : SqlDialect) (taskId : String) (s : ClusterStore) :
    s.getLeaseByTask taskId = (((Backend.sql d).taskLeases taskId s).found taskId).head? := by
  unfold getLeaseByTask TaskLeases.found
  by_cases hempty : taskId = ""
  · rw [if_pos hempty, if_pos hempty]
    rfl
  rw [if_neg hempty, if_neg hempty]
  dsimp only [Backend.taskLeases, Option.bind_none]
  rw [leasesOf, List.filter_filter, List.head?_filter]
  congr 1
  funext l
  rw [Bool.decide_and, Bool.and_comm]

theorem taskLeases_revokeLease {l : Lease} {rest : List Lease}
    (hfound : ((Backend.sql d).taskLeases taskId s).found taskId = l :: rest) :
    (Backend.sql d).taskLeases taskId (s.revokeLease l.id).2 =
      ((Backend.sql d).taskLeases taskId s).revokeFirst taskId := by
  unfold TaskLeases.revokeFirst
  rw [hfound]
  dsimp only [Backend.taskLeases]
  congr 1
  exact leasesOf_updateWhere Lease.keepsKey_revoke (fun _ => rfl) rfl

end ClusterStore

section Steps

variable [Unicode] (k : Backend) (now : Nat) {taskId : String} {s : k.Store}

theorem Backend.step_getLeaseByTask (taskId : String) (s : k.Store) :
    k.step now (.getLeaseByTask taskId) s = (((k.taskLeases taskId s).found taskId).head?, s) := by
  cases k with
  | memory => exact congrArg (·, s) (ClusterState.getLeaseByTask_eq taskId s)
  | sql d => exact congrArg (·, s) (ClusterStore.getLeaseByTask_eq d taskId s)

theorem Backend.taskLeases_revokeLease {l : Lease} {rest : List Lease}
    (hfound : (k.taskLeases taskId s).found taskId = l :: rest) :
    k.taskLeases taskId (k.step now (.revokeLease l.id) s).2 =
      (k.taskLeases taskId s).revokeFirst taskId := by
  cases k with
  | memory => exact ClusterState.taskLeases_revokeLease hfound
  | sql d => exact ClusterStore.taskLeases_revokeLease hfound

omit [Unicode] in
/-- On memory a task that is put back loses the lease that is found first. -/
theorem ClusterState.taskLeases_requeueTask {s : ClusterState} {t : Task}
    (hget : s.tasks.get? taskId = some t) (hopen : ¬t.status.IsTerminal)
    (hcap : t.attempts < taskRetryLimit) (reason : String) :
    Backend.memory.taskLeases taskId (s.requeueTask now taskId reason).2 =
      (Backend.memory.taskLeases taskId s).revokeFirst taskId := by
  have hlookup : (s.modifyTask taskId (Task.requeue now reason) (fun _ => rfl)).getLeaseByTask
      taskId = ((Backend.memory.taskLeases taskId s).found taskId).head? :=
    getLeaseByTask_eq taskId _
  unfold requeueTask
  rw [hget]
  dsimp only
  rw [if_neg hopen, if_neg (Nat.not_le.mpr hcap), hlookup]
  cases hfound : (Backend.memory.taskLeases taskId s).found taskId with
  | nil =>
      unfold TaskLeases.revokeFirst
      rw [hfound]
      rfl
  | cons l rest =>
      exact taskLeases_revokeLease
        (s := s.modifyTask taskId (Task.requeue now reason) (fun _ => rfl)) hfound

omit [Unicode] in
theorem ClusterStore.leasesOf_requeueTask (s : ClusterStore) (taskId reason : String) :
    leasesOf (s.requeueTask now taskId reason).2.toBoard taskId =
      (leasesOf s.toBoard taskId).map (fun l => if l.IsLive now then l.revoke else l) := by
  refine (leasesOf_updateWhere Lease.keepsKey_revoke (fun _ => rfl) rfl).trans ?_
  refine List.map_congr_left (fun l hl => ?_)
  simp only [(mem_leasesOf.mp hl).2, true_and]

theorem ClusterState.taskLeases_of_spares {s : ClusterState} {op : StoreOp}
    (hop : SparesLeases taskId s.toBoard op) :
    Backend.memory.taskLeases taskId (s.step now op).2 = Backend.memory.taskLeases taskId s := by
  cases op with
  | revokeLease leaseId =>
      change Backend.memory.taskLeases taskId (s.revokeLease leaseId).2 = _
      unfold revokeLease
      split
      · rfl
      · rename_i lease hget
        have hne : lease.taskId ≠ taskId :=
          hop lease (Table.mem_of_get? hget) (Table.key_of_get? hget)
        dsimp only [Backend.taskLeases]
        rw [Table.get?_erase, if_neg hne.symm]
        congr 1
        exact leasesOf_updateWhere_other Lease.keepsKey_revoke (fun _ => rfl) rfl hop
  | setTaskResult id result =>
      change Backend.memory.taskLeases taskId (s.setTaskResult now id result).2 = _
      rcases setTaskResult_cases now id result s with heq | ⟨_, _, _, _, heq⟩
      · rw [heq]
      · rw [heq]
        rfl
  | setTaskStatus id status failReason =>
      change Backend.memory.taskLeases taskId (s.setTaskStatus now id status failReason).2 = _
      rcases setTaskStatus_cases now id status failReason s with ⟨heq, -⟩ | ⟨_, _, _, heq⟩
      · rw [heq]
      · rw [heq]
        rfl
  | setTaskBallot id ballot =>
      change Backend.memory.taskLeases taskId (s.writeTask id _ _).2 = _
      unfold writeTask
      split <;> rfl
  | setTaskCancelRequeue id requeue =>
      change Backend.memory.taskLeases taskId (s.writeTask id _ _).2 = _
      unfold writeTask
      split <;> rfl
  | writeTaskRow id assignedTo failReason =>
      change Backend.memory.taskLeases taskId (s.writeTaskRow now id assignedTo failReason).2 = _
      rcases writeTaskRow_cases now id assignedTo failReason s with heq | ⟨_, _, heq⟩
      · rw [heq]
      · rw [heq]
        rfl
  | utcnow | getTask | getAllTasks | getAllNodes | getDependents | getTriggerChain
  | getLeaseByTask => rfl
  | _ => exact hop.elim

theorem ClusterStore.taskLeases_of_spares (d : SqlDialect) {s : ClusterStore} {op : StoreOp}
    (hop : SparesLeases taskId s.toBoard op) :
    (Backend.sql d).taskLeases taskId (s.step d now op).2 =
      (Backend.sql d).taskLeases taskId s := by
  cases op with
  | revokeLease leaseId =>
      change TaskLeases.mk (leasesOf _ taskId) none = ⟨leasesOf _ taskId, none⟩
      congr 1
      exact leasesOf_updateWhere_other Lease.keepsKey_revoke (fun _ => rfl) rfl hop
  | setTaskResult id result =>
      change (Backend.sql d).taskLeases taskId (s.setTaskResult now id result).2 = _
      unfold setTaskResult
      split
      · rfl
      · split <;> rfl
  | utcnow | getTask | getAllTasks | getAllNodes | getDependents | getTriggerChain
  | getLeaseByTask | setTaskStatus | setTaskBallot | setTaskCancelRequeue | writeTaskRow => rfl
  | _ => exact hop.elim

theorem Backend.taskLeases_of_spares {op : StoreOp} (hop : SparesLeases taskId (k.board s) op) :
    k.taskLeases taskId (k.step now op s).2 = k.taskLeases taskId s := by
  cases k with
  | memory => exact ClusterState.taskLeases_of_spares now hop
  | sql d => exact ClusterStore.taskLeases_of_spares now d hop

end Steps

/-! ## The pass -/

section Pass

variable [Unicode] {now : Nat} {b b' : Board} {cs : List Task} {out : List Assignment}
  {taskId : String}

theorem PassOf.leasesOf_prefix (h : PassOf now b cs out b') (taskId : String) :
    ∃ added, leasesOf b' taskId = leasesOf b taskId ++ added := by
  obtain ⟨added, hrows, -⟩ := leases_placeAll now b (placements b cs)
  exact ⟨_, leasesOf_of_append ((congrArg Table.rows h.leases_eq).trans hrows)⟩

theorem PassOf.leasesOf_eq (h : PassOf now b cs out b')
    (hready : ∀ t, b.tasks.get? taskId = some t → t.status ≠ .ready) :
    leasesOf b' taskId = leasesOf b taskId := by
  refine h.frame_leases taskId (fun hmem => ?_)
  rw [h.out_taskIds] at hmem
  obtain ⟨p, hp, hid⟩ := List.mem_map.mp hmem
  obtain ⟨hget, hstatus⟩ := h.rows_placed p hp
  exact hready p.1 (hid ▸ hget) hstatus

end Pass

end HermesCluster
