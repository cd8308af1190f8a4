import HermesCluster.Lib.IsoOrder
import HermesCluster.Models
/-!
# Times as they are stored

The SQLite store keeps a date-time as text, and its queries compare the texts. The
in-memory store compares the date-times, except that its schedule pass compares
`created_at.timestamp()`, which reads a naive value on the local clock, and that it
trims deliveries by their arrival. What the two decide on the same rows. A timestamp
counts microseconds and is taken to be exact.
-/

namespace HermesCluster

namespace StoredTimes

open IsoTime

/-! ## Values -/

/-- `_dt_to_str`. -/
def dtToStr : Option DateTime → String
  | none => ""
  | some dt => String.ofList dt.1.isoformat

/-- `_str_to_dt`; `utcnow` is what `datetime.utcnow()` would say. -/
def strToDt (utcnow : DateTime) (s : String) : DateTime :=
  if s = "" then utcnow else (fromisoformat s.toList).getD utcnow

/-- The text of a naive date-time. -/
def stored (d : Naive) : String :=
  dtToStr (some d.1)

/-- `time.localtime`: what the local clock shows at an instant, in seconds. -/
abbrev LocalClock := Int → Int

/-- The instant at which the local clock shows `t`: the first of two, and for a time
that the clock leaves out what it would be without the change. -/
def mktime (clock : LocalClock) (t : Int) : Int :=
  let a := clock t - t
  let u1 := t - a
  let t1 := clock u1
  if t1 = t then
    let u2 := u1 - 86400
    let b := clock u2 - u2
    if a = b then u1
    else
      let u2 := t - b
      if clock u2 = t then u2 else u1
  else
    let b := t1 - u1
    let u2 := t - b
    if clock u2 = t then u2 else max u1 u2

/-- `timestamp()` of a naive value. -/
def timestamp (clock : LocalClock) (d : Naive) : Int :=
  mktime clock (d.1.1.instant / 1000000) * 1000000 + d.1.1.microsecond

/-! ## Rows -/

/-- What is compared of a lease. -/
structure LeaseTimes where
  id : String
  taskId : String
  status : LeaseStatus := .active
  expiresAt : Naive

/-- What is compared of a ready task. -/
structure ReadyTask where
  id : String
  priority : Int := defaultPriority
  createdAt : Naive

/-- What is compared of a delivery. -/
structure DeliveryTimes where
  id : String
  createdAt : Naive

/-- A row of `leases`. -/
structure LeaseRow where
  id : String
  task_id : String
  status : LeaseStatus
  expires_at : String

/-- A row of `tasks`. -/
structure TaskRow where
  id : String
  priority : Int
  created_at : String

/-- A row of `deliveries`. -/
structure DeliveryRow where
  id : String
  created_at : String

def LeaseTimes.row (l : LeaseTimes) : LeaseRow :=
  ⟨l.id, l.taskId, l.status, stored l.expiresAt⟩

def ReadyTask.row (t : ReadyTask) : TaskRow :=
  ⟨t.id, t.priority, stored t.createdAt⟩

def DeliveryTimes.row (d : DeliveryTimes) : DeliveryRow :=
  ⟨d.id, stored d.createdAt⟩

/-! ## The SQLite store -/

namespace ClusterStore

/-- `WHERE status = ? AND expires_at > ?`, for the active leases at a time. -/
def whereLive (now : Naive) (r : LeaseRow) : Bool :=
  decide (r.status = .active ∧ stored now < r.expires_at)

/-- `SELECT task_id FROM leases WHERE status = ? AND expires_at > ?`. -/
def leasedTaskIds (now : Naive) (rows : List LeaseRow) : List String :=
  (rows.filter (whereLive now)).map LeaseRow.task_id

/-- `get_active_leases`: the active leases, and those that are marked expired. -/
def getActiveLeases (utcnow : DateTime) (now : Naive) (rows : List LeaseRow) :
    List String × List String :=
  let rows := rows.filter (fun r => decide (r.status = .active))
  let live := fun r : LeaseRow => decide (now.1.1.Before (strToDt utcnow r.expires_at).1)
  ((rows.filter live).map LeaseRow.id, (rows.filter (fun r => !live r)).map LeaseRow.id)

/-- `ORDER BY priority, created_at DESC` puts the one before the other. -/
def OrderBy (x y : TaskRow) : Prop :=
  x.priority < y.priority ∨ x.priority = y.priority ∧ y.created_at < x.created_at

/-- `ORDER BY created_at DESC` keeps the one rather than the other. -/
def KeepsFirst (x y : DeliveryRow) : Prop :=
  y.created_at < x.created_at

end ClusterStore

/-! ## The in-memory store -/

namespace ClusterState

/-- `lease.status == active and lease.expires_at > now`. -/
def isLive (now : Naive) (l : LeaseTimes) : Bool :=
  decide (l.status = .active ∧ now < l.expiresAt)

def leasedTaskIds (now : Naive) (leases : List LeaseTimes) : List String :=
  (leases.filter (isLive now)).map LeaseTimes.taskId

/-- `get_active_leases`: the active leases, and those that become expired. -/
def getActiveLeases (now : Naive) (leases : List LeaseTimes) : List String × List String :=
  ((leases.filter (isLive now)).map LeaseTimes.id,
    (leases.filter (fun l => decide (l.status = .active ∧ ¬now < l.expiresAt))).map LeaseTimes.id)

/-- `sorted(…, key=lambda t: (t.priority, -t.created_at.timestamp()))` puts the one
before the other. -/
def Sorted (clock : LocalClock) (x y : ReadyTask) : Prop :=
  x.priority < y.priority ∨
    x.priority = y.priority ∧ -timestamp clock x.createdAt < -timestamp clock y.createdAt

end ClusterState

/-! ## What is to hold -/

/-- The rows of both stores; deliveries in the order in which they arrived. -/
structure Rows where
  leases : List LeaseTimes := []
  ready : List ReadyTask := []
  deliveries : List DeliveryTimes := []

/-- What is stored is read back and ordered as the times are, and both stores decide
alike on their rows: which leases are live at a time, which of two ready tasks is
served first, and which of two deliveries is kept, in memory the later one. -/
structure DecidesAlike (clock : LocalClock) (rows : Rows) : Prop where
  reads_back : ∀ (utcnow : DateTime) (d : Naive), strToDt utcnow (stored d) = d.1
  ordered : ∀ d e : Naive, stored d < stored e ↔ d < e
  leased : ∀ now, ClusterStore.leasedTaskIds now (rows.leases.map LeaseTimes.row) =
    ClusterState.leasedTaskIds now rows.leases
  active : ∀ utcnow now,
    ClusterStore.getActiveLeases utcnow now (rows.leases.map LeaseTimes.row) =
      ClusterState.getActiveLeases now rows.leases
  served : ∀ x ∈ rows.ready, ∀ y ∈ rows.ready,
    ClusterStore.OrderBy x.row y.row ↔ ClusterState.Sorted clock x y
  kept : rows.deliveries.Pairwise (fun d e => ClusterStore.KeepsFirst e.row d.row)

/-- The local clock shows the creation times of ready tasks of one band in their order. -/
def ShowsInOrder (clock : LocalClock) (ready : List ReadyTask) : Prop :=
  ∀ x ∈ ready, ∀ y ∈ ready, x.priority = y.priority →
    (x.createdAt < y.createdAt ↔ timestamp clock x.createdAt < timestamp clock y.createdAt)

/-! ## Texts -/

theorem stored_ne_empty (d : Naive) : stored d ≠ "" := by
  intro hempty
  have hnil : d.1.1.isoformat = [] := by
    rw [← String.toList_ofList (l := d.1.1.isoformat)]
    exact congrArg String.toList hempty
  have hread := fromisoformat_isoformat d.1
  rw [hnil] at hread
  cases hread

theorem strToDt_stored (utcnow : DateTime) (d : Naive) : strToDt utcnow (stored d) = d.1 := by
  rw [strToDt, if_neg (stored_ne_empty d), stored, dtToStr, String.toList_ofList,
    fromisoformat_isoformat, Option.getD_some]

theorem stored_lt_iff {d e : Naive} : stored d < stored e ↔ d < e := by
  change (String.ofList _).toList < (String.ofList _).toList ↔ _
  rw [String.toList_ofList, String.toList_ofList]
  exact isoformat_lt_iff

theorem whereLive_row (now : Naive) (l : LeaseTimes) :
    ClusterStore.whereLive now l.row = ClusterState.isLive now l :=
  decide_eq_decide.mpr (and_congr_right fun _ => stored_lt_iff)

theorem leasedTaskIds_row (now : Naive) (leases : List LeaseTimes) :
    ClusterStore.leasedTaskIds now (leases.map LeaseTimes.row) =
      ClusterState.leasedTaskIds now leases := by
  unfold ClusterStore.leasedTaskIds ClusterState.leasedTaskIds
  rw [List.filter_map, List.map_map]
  exact congrArg (List.map _) (List.filter_congr fun l _ => whereLive_row now l)

theorem readBack_live (utcnow : DateTime) (now : Naive) (l : LeaseTimes) :
    decide (now.1.1.Before (strToDt utcnow l.row.expires_at).1) = decide (now < l.expiresAt) := by
  have hread : strToDt utcnow l.row.expires_at = l.expiresAt.1 := strToDt_stored utcnow l.expiresAt
  rw [hread]
  exact decide_eq_decide.mpr Naive.lt_iff.symm

theorem getActiveLeases_row (utcnow : DateTime) (now : Naive) (leases : List LeaseTimes) :
    ClusterStore.getActiveLeases utcnow now (leases.map LeaseTimes.row) =
      ClusterState.getActiveLeases now leases := by
  simp only [ClusterStore.getActiveLeases, ClusterState.getActiveLeases, List.filter_map,
    List.map_map, List.filter_filter, Function.comp_def, readBack_live]
  refine Prod.ext ?_ ?_
  · refine congrArg (List.map _) (List.filter_congr fun l _ => ?_)
    rw [Bool.eq_iff_iff, Bool.and_eq_true_iff, decide_eq_true_iff, decide_eq_true_iff,
      ClusterState.isLive, decide_eq_true_iff]
    exact and_comm
  · refine congrArg (List.map _) (List.filter_congr fun l _ => ?_)
    rw [Bool.eq_iff_iff, Bool.and_eq_true_iff, Bool.not_eq_true', decide_eq_false_iff_not,
      decide_eq_true_iff, decide_eq_true_iff]
    exact and_comm

/-! ## Timestamps -/

theorem orderBy_row {x y : ReadyTask} : ClusterStore.OrderBy x.row y.row ↔
    x.priority < y.priority ∨ x.priority = y.priority ∧ y.createdAt < x.createdAt :=
  or_congr_right (and_congr_right fun _ => stored_lt_iff)

theorem sorted_iff {clock : LocalClock} {x y : ReadyTask} : ClusterState.Sorted clock x y ↔
    x.priority < y.priority ∨
      x.priority = y.priority ∧ timestamp clock y.createdAt < timestamp clock x.createdAt :=
  or_congr_right (and_congr_right fun _ => Int.neg_lt_neg_iff)

/-- A clock that is always as far off shows what it is asked for. -/
theorem mktime_offset (offset t : Int) : mktime (fun u => u + offset) t = t - offset := by
  simp only [mktime]
  rw [if_pos (by omega), if_pos (by omega)]
  omega

theorem timestamp_offset (offset : Int) (d : Naive) :
    timestamp (fun u => u + offset) d = d.1.1.instant - offset * 1000000 := by
  have hus : d.1.1.instant % 1000000 = d.1.1.microsecond := by
    have hsmall := d.1.2.microsecond
    have hnaive : d.1.1.utcoffset = none := d.2
    simp only [Fields.instant, hnaive, Option.getD_none]
    omega
  rw [timestamp, mktime_offset]
  omega

/-- With UTC, or any other time that is never changed, the creation times are shown in
their order. -/
theorem showsInOrder_offset (offset : Int) (ready : List ReadyTask) :
    ShowsInOrder (fun u => u + offset) ready := by
  intro x _ y _ _
  rw [timestamp_offset, timestamp_offset, ← instant_lt_iff]
  omega

/-! ## The decisions -/

/-- Times are read back and compared as texts rightly, so both stores decide alike
about leases; they do about ready tasks and deliveries exactly if the local clock keeps
the order of creation within each band and deliveries arrive in the order of theirs. -/
theorem stored_times_decide_iff (clock : LocalClock) (rows : Rows) :
    DecidesAlike clock rows ↔ ShowsInOrder clock rows.ready ∧
      rows.deliveries.Pairwise (fun d e => d.createdAt < e.createdAt) := by
  have hserved : (∀ x ∈ rows.ready, ∀ y ∈ rows.ready,
      ClusterStore.OrderBy x.row y.row ↔ ClusterState.Sorted clock x y) ↔
      ShowsInOrder clock rows.ready := by
    constructor
    · intro h x hx y hy hband
      have hyx := h y hy x hx
      rw [orderBy_row, sorted_iff, hband] at hyx
      simpa using hyx
    · intro h x hx y hy
      rw [orderBy_row, sorted_iff]
      exact or_congr_right (and_congr_right fun hband => h y hy x hx hband.symm)
  have hkept : rows.deliveries.Pairwise (fun d e => ClusterStore.KeepsFirst e.row d.row) ↔
      rows.deliveries.Pairwise (fun d e => d.createdAt < e.createdAt) :=
    List.Pairwise.iff fun _ _ => stored_lt_iff
  constructor
  · intro h
    exact ⟨hserved.mp h.served, hkept.mp h.kept⟩
  · rintro ⟨hready, hdeliveries⟩
    exact {
      reads_back := strToDt_stored
      ordered := fun d e => stored_lt_iff
      leased := fun now => leasedTaskIds_row now rows.leases
      active := fun utcnow now => getActiveLeases_row utcnow now rows.leases
      served := hserved.mpr hready
      kept := hkept.mpr hdeliveries }

/-! ## A clock that is put forward -/

/-- New York in 2026: an hour less behind from March 8, 7:00 UTC, to November 1, 6:00 UTC. -/
def newYork : LocalClock :=
  fun u => if 1772953200 ≤ u ∧ u < 1793512800 then u - 14400 else u - 18000

/-- Created at 2:59 and at 3:01 on March 8. -/
def springTasks : Rows where
  ready :=
    [{ id := "older", createdAt := ⟨⟨⟨2026, 3, 8, 2, 59, 0, 0, none⟩, by decide⟩, rfl⟩ },
      { id := "newer", createdAt := ⟨⟨⟨2026, 3, 8, 3, 1, 0, 0, none⟩, by decide⟩, rfl⟩ }]

/-- In memory, the older of the two is served first. -/
theorem spring_tasks_not_alike : ¬DecidesAlike newYork springTasks := by
  intro h
  have hserved := h.served _ (List.mem_cons_of_mem _ List.mem_cons_self) _ List.mem_cons_self
  have horder := sorted_iff.mp (hserved.mp (orderBy_row.mpr (.inr ⟨rfl, by decide⟩)))
  revert horder
  decide

end StoredTimes

end HermesCluster
