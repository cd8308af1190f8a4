import HermesCluster.Core.NodeManager
import HermesCluster.Lib.IsoTime
/-!
# The watchdog's loop

A check subtracts the last heartbeat of every node from the time, as the store of the
nodes reads it back: in memory the object itself, on SQLite a text, on Postgres an
instant with a time zone. Nothing in the loop catches what a check raises.
-/

namespace HermesCluster

namespace Watchdog

/-! ## Date-times -/

/-- A `datetime`: microseconds of its own clock since 1970, and `utcoffset()` if it
is aware. -/
structure Moment where
  wall : Int
  utcoffset : Option Int := none
  deriving DecidableEq

namespace Moment

def IsNaive (m : Moment) : Prop :=
  m.utcoffset = none

instance (m : Moment) : Decidable m.IsNaive :=
  inferInstanceAs (Decidable (m.utcoffset = none))

/-- The instant, where a naive value is UTC. -/
def instant (m : Moment) : Int :=
  m.wall - m.utcoffset.getD 0

/-- `(a - b).total_seconds()`. -/
def sub (a b : Moment) : Except String Rat :=
  match a.utcoffset, b.utcoffset with
  | none, none => .ok ((a.wall - b.wall : Int) / 1000000)
  | some o, some p => .ok (((a.wall - o) - (b.wall - p) : Int) / 1000000)
  | _, _ => .error "can't subtract offset-naive and offset-aware datetimes"

def ofDateTime (d : IsoTime.DateTime) : Moment where
  wall := d.1.instant + d.1.utcoffset.getD 0
  utcoffset := d.1.utcoffset

end Moment

/-! ## What the stores hold -/

/-- The column `last_heartbeat`: an object, a text, or an instant. The columns may
be `NULL`. -/
abbrev Heartbeat : Backend → Type
  | .memory => Moment
  | .sql .sqlite => Option String
  | .sql .postgres => Option Int

/-- `_str_to_dt`, with what `utcnow` returns to it. -/
def strToDt (utcnow : Int) (s : String) : Moment :=
  if s = "" then { wall := utcnow }
  else
    match IsoTime.fromisoformat s.toList with
    | some d => .ofDateTime d
    | none => { wall := utcnow }

/-- The heartbeat that `_row_to_node` returns. -/
def readHeartbeat (utcnow : Int) : (k : Backend) → Heartbeat k → Moment
  | .memory, m => m
  | .sql .sqlite, s => strToDt utcnow (s.getD "")
  | .sql .postgres, some t => { wall := t, utcoffset := some 0 }
  | .sql .postgres, none => { wall := utcnow }

/-- The stored heartbeat is read as a naive value. -/
def ReadsNaive : (k : Backend) → Heartbeat k → Prop
  | .memory, m => m.IsNaive
  | .sql .sqlite, s => ∀ d, IsoTime.fromisoformat (s.getD "").toList = some d →
      d.1.utcoffset = none
  | .sql .postgres, t => t = none

/-- A row of the nodes, as far as a check reads it; a column that is missing or
`NULL` is `none`. -/
structure StoredNode (k : Backend) where
  id : String
  status : NodeStatus
  lastHeartbeat : Heartbeat k
  maxConcurrent : Option Int := none
  readings : HealthReport := {}

/-- `HeartbeatNode`. -/
structure HeartbeatNode where
  id : String
  lastHeartbeat : Moment
  status : NodeStatus
  maxConcurrent : Int := 0
  readings : HealthReport := {}

/-- A node of `get_all_heartbeat_nodes`. -/
def StoredNode.read {k : Backend} (utcnow : Int) (n : StoredNode k) : HeartbeatNode where
  id := n.id
  lastHeartbeat := readHeartbeat utcnow k n.lastHeartbeat
  status := n.status
  maxConcurrent := n.maxConcurrent.getD 0
  readings := n.readings

/-! ## A check -/

/-- `update_node_status` of the registry. -/
structure StatusWrite where
  nodeId : String
  status : NodeStatus
  reason : String
  deriving DecidableEq

variable (cfg : NodeConfig)

/-- The status and the reason that a node of a given age is given. -/
def verdict (elapsed : Rat) (n : HeartbeatNode) : NodeStatus × String :=
  if cfg.offlineAfter ≤ elapsed then (.offline, "")
  else if cfg.degradedAfter ≤ elapsed then
    (.degraded, "heartbeat stale " ++ Text.fixed 0 elapsed ++ "s")
  else if NodeHealth.isBelowFloor n.readings.diskFreeGb cfg.minFreeDiskGb then
    (.degraded, NodeHealth.diskReason n.readings.diskFreeGb cfg.minFreeDiskGb)
  else
    let hReason := cfg.healthReason n.maxConcurrent n.readings
    if hReason ≠ "" then (.degraded, hReason) else (.online, "")

/-- The loop of `_check`: the writes it makes, and what it raises. -/
def checkNodes (now : Moment) : List HeartbeatNode → List StatusWrite × Option String
  | [] => ([], none)
  | n :: ns =>
      match now.sub n.lastHeartbeat with
      | .error e => ([], some e)
      | .ok elapsed =>
          let (status, reason) := verdict cfg elapsed n
          let rest := checkNodes now ns
          (if status ≠ n.status then ⟨n.id, status, reason⟩ :: rest.1 else rest.1, rest.2)

/-- What a check meets: its time, the rows of the store, and the time at which each
is read. -/
structure Cycle (k : Backend) where
  now : Int
  clock : Nat → Int
  rows : List (StoredNode k)

variable {k : Backend}

/-- The nodes that the store returns. -/
def Cycle.nodes (c : Cycle k) : List HeartbeatNode :=
  c.rows.mapIdx (fun i n => n.read (c.clock i))

/-- `_check`. -/
def check (c : Cycle k) : List StatusWrite × Option String :=
  checkNodes cfg { wall := c.now } c.nodes

/-- `_loop`: the writes of each check that is made; the thread ends with what one
raises. -/
def loop : List (Cycle k) → List (List StatusWrite) × Option String
  | [] => ([], none)
  | c :: cycles =>
      match check cfg c with
      | (writes, some e) => ([writes], some e)
      | (writes, none) =>
          let rest := loop cycles
          (writes :: rest.1, rest.2)

/-- The heartbeat is `offline_after` old or older. -/
def Dead (now : Int) (n : HeartbeatNode) : Prop :=
  cfg.offlineAfter ≤ ((now - n.lastHeartbeat.instant : Int) / 1000000 : Rat)

/-- Every check of the loop is made, without raising, and leaves every dead node
offline. -/
def Total (cycles : List (Cycle k)) : Prop :=
  (loop cfg cycles).2 = none ∧
    List.Forall₂ (fun (c : Cycle k) writes => ∀ n ∈ c.nodes, Dead cfg c.now n →
      n.status = .offline ∨ ⟨n.id, .offline, ""⟩ ∈ writes) cycles (loop cfg cycles).1

/-! ## When a check raises -/

omit cfg k in
/-- A naive time can be compared with a naive one, and with no other. -/
theorem Moment.sub_naive (wall : Int) (b : Moment) :
    sub { wall := wall } b =
      if b.IsNaive then .ok ((wall - b.instant : Int) / 1000000)
      else .error "can't subtract offset-naive and offset-aware datetimes" := by
  obtain ⟨wall', utcoffset⟩ := b
  cases utcoffset with
  | none =>
      have hnaive : IsNaive { wall := wall' } := rfl
      have hinstant : instant { wall := wall' } = wall' := Int.sub_zero wall'
      rw [if_pos hnaive, hinstant]
      rfl
  | some o =>
      have haware : ¬IsNaive { wall := wall', utcoffset := some o } := fun h => by cases h
      rw [if_neg haware]
      rfl

variable {cfg}

/-- A check raises exactly if some node has an aware heartbeat. -/
theorem raises_checkNodes_iff (now : Int) (ns : List HeartbeatNode) :
    (checkNodes cfg { wall := now } ns).2 = none ↔ ∀ n ∈ ns, n.lastHeartbeat.IsNaive := by
  induction ns with
  | nil => exact iff_of_true rfl (fun _ hn => by cases hn)
  | cons n ns ih =>
      rw [List.forall_mem_cons, ← ih, checkNodes, Moment.sub_naive]
      by_cases hnaive : n.lastHeartbeat.IsNaive
      · rw [if_pos hnaive]
        exact (and_iff_right hnaive).symm
      · rw [if_neg hnaive]
        exact iff_of_false (fun h => by cases h) (fun h => hnaive h.1)

/-- One that does not raise leaves the dead nodes offline. -/
theorem offline_checkNodes {now : Int} (ns : List HeartbeatNode)
    (h : (checkNodes cfg { wall := now } ns).2 = none) :
    ∀ n ∈ ns, Dead cfg now n →
      n.status = .offline ∨ ⟨n.id, .offline, ""⟩ ∈ (checkNodes cfg { wall := now } ns).1 := by
  induction ns with
  | nil =>
      intro n hn
      cases hn
  | cons m ns ih =>
      have hall := (raises_checkNodes_iff now (m :: ns)).mp h
      rw [List.forall_mem_cons] at hall
      have hrest := ih ((raises_checkNodes_iff now ns).mpr hall.2)
      rw [checkNodes, Moment.sub_naive, if_pos hall.1]
      intro n hn hdead
      dsimp only
      rcases List.mem_cons.mp hn with rfl | hn
      · have hverdict : verdict cfg ((now - n.lastHeartbeat.instant : Int) / 1000000) n =
            (.offline, "") := if_pos hdead
        rw [hverdict]
        by_cases hstatus : n.status = .offline
        · exact .inl hstatus
        · rw [if_pos (Ne.symm hstatus)]
          exact .inr List.mem_cons_self
      · refine (hrest n hn hdead).imp_right (fun hmem => ?_)
        split
        · exact List.mem_cons_of_mem _ hmem
        · exact hmem

omit cfg in
/-- What of a stored heartbeat decides whether it is naive. -/
theorem naive_readHeartbeat_iff (utcnow : Int) (h : Heartbeat k) :
    (readHeartbeat utcnow k h).IsNaive ↔ ReadsNaive k h := by
  cases k with
  | memory => exact Iff.rfl
  | sql d =>
      cases d with
      | sqlite =>
          change (strToDt utcnow (h.getD "")).IsNaive ↔ ∀ d, _
          unfold strToDt
          by_cases hempty : h.getD "" = ""
          · rw [if_pos hempty, hempty]
            refine iff_of_true rfl (fun d hd => ?_)
            cases hd
          · rw [if_neg hempty]
            cases hread : IsoTime.fromisoformat (h.getD "").toList with
            | none => exact iff_of_true rfl (fun d hd => by cases hd)
            | some d =>
                refine ⟨fun hnaive d' hd' => ?_, fun hall => hall d rfl⟩
                cases hd'
                exact hnaive
      | postgres =>
          cases h with
          | none => exact iff_of_true rfl rfl
          | some t => exact iff_of_false (fun h => by cases h) (fun h => by cases h)

omit cfg in
theorem naive_nodes_iff (c : Cycle k) :
    (∀ n ∈ c.nodes, n.lastHeartbeat.IsNaive) ↔
      ∀ n ∈ c.rows, ReadsNaive k n.lastHeartbeat := by
  unfold Cycle.nodes
  constructor
  · intro h n hn
    obtain ⟨i, hi, rfl⟩ := List.getElem_of_mem hn
    exact (naive_readHeartbeat_iff (c.clock i) _).mp
      (h _ (List.mem_mapIdx.mpr ⟨i, hi, rfl⟩))
  · intro h n hn
    obtain ⟨i, hi, rfl⟩ := List.mem_mapIdx.mp hn
    exact (naive_readHeartbeat_iff (c.clock i) _).mpr (h _ (List.getElem_mem hi))

theorem check_eq_none_iff (cfg : NodeConfig) (c : Cycle k) :
    (check cfg c).2 = none ↔ ∀ n ∈ c.rows, ReadsNaive k n.lastHeartbeat :=
  (raises_checkNodes_iff c.now c.nodes).trans (naive_nodes_iff c)

/-- The loop goes on and marks the dead nodes exactly if no row that it meets has an
aware heartbeat. -/
theorem total_iff (cfg : NodeConfig) (cycles : List (Cycle k)) :
    Total cfg cycles ↔ ∀ c ∈ cycles, ∀ n ∈ c.rows, ReadsNaive k n.lastHeartbeat := by
  induction cycles with
  | nil => exact iff_of_true ⟨rfl, .nil⟩ (fun _ hc => by cases hc)
  | cons c cycles ih =>
      rw [List.forall_mem_cons, ← ih, ← check_eq_none_iff cfg c]
      unfold Total
      rw [loop]
      rcases hcheck : check cfg c with ⟨writes, _ | e⟩
      · dsimp only
        rw [List.forall₂_cons]
        have hmarked := offline_checkNodes c.nodes (congrArg Prod.snd hcheck)
        have hwrites : (checkNodes cfg { wall := c.now } c.nodes).1 = writes :=
          congrArg Prod.fst hcheck
        rw [hwrites] at hmarked
        exact ⟨fun h => ⟨rfl, h.1, h.2.2⟩, fun h => ⟨h.2.1, hmarked, h.2.2⟩⟩
      · exact iff_of_false (fun h => by cases h.1) (fun h => by cases h.1)

/-! ## Naive heartbeats -/

/-- A row of the registry as the check reads it. -/
def HeartbeatNode.ofRow (n : NodeRow) : HeartbeatNode where
  id := n.id
  lastHeartbeat := { wall := n.lastHeartbeat }
  status := n.status
  maxConcurrent := n.maxConcurrent
  readings := n.readings

/-- The check of naive rows is that of the node manager. -/
theorem checkNodes_ofRow (now : Nat) (ns : List NodeRow) :
    checkNodes cfg { wall := now } (ns.map HeartbeatNode.ofRow) =
      (ns.filterMap (fun n =>
        if (cfg.verdict now n).1 ≠ n.status then
          some ⟨n.id, (cfg.verdict now n).1, (cfg.verdict now n).2⟩
        else none), none) := by
  induction ns with
  | nil => rfl
  | cons n ns ih =>
      have hverdict : verdict cfg (NodeConfig.elapsed now n.lastHeartbeat)
          (HeartbeatNode.ofRow n) = cfg.verdict now n := rfl
      rw [List.map_cons, checkNodes, ih, List.filterMap_cons]
      change (if (verdict cfg (NodeConfig.elapsed now n.lastHeartbeat)
          (HeartbeatNode.ofRow n)).1 ≠ n.status then _ else _, _) = _
      rw [hverdict]
      split <;> rfl

/-- A node whose heartbeat Postgres keeps at the time 0, forty seconds later. -/
def deadNode : Cycle (.sql .postgres) where
  now := 40000000
  clock := fun _ => 40000000
  rows := [{ id := "n", status := .online, lastHeartbeat := some 0 }]

/-- The check raises at the dead node, and so ends the thread. -/
theorem aware_heartbeat_ends_loop : ¬Total {} [deadNode] := by
  rintro ⟨h, -⟩
  exact absurd h (by decide)

end Watchdog

end HermesCluster
