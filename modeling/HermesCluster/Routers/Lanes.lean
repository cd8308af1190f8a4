import HermesCluster.Lib.Machine
import HermesCluster.State.LaneRegistry
/-!
# Placement reports

`routers/lanes.py`: a worker reports where a lane runs and in which session, and
main keeps one row per lane. Who may report a placement, and whose session a row
names, is said of every run of reports, from any node and in any order.
-/

namespace HermesCluster

open Program hiding pure bind

/-! ## The endpoint -/

/-- `LaneReportRequest`. -/
structure LaneReportRequest where
  laneKey : String
  nodeId : String
  sessionId : String := ""
  profile : String := ""
  role : String := "author"
  lastTaskId : String := ""
  deriving DecidableEq

/-- The answers that are no success. -/
inductive LaneError where
  | incomplete
  | notTheOwner (caller laneKey nodeId : String)
  deriving DecidableEq

namespace LaneError

def status : LaneError → Nat
  | incomplete => 422
  | notTheOwner _ _ _ => 403

def detail [Unicode] : LaneError → String
  | incomplete => "lane placement report requires both lane_key and node_id"
  | notTheOwner caller laneKey nodeId =>
      "a lane may only be pinned to the reporting node: caller " ++ Text.repr caller ++
        " cannot place " ++ Text.repr laneKey ++ " on " ++ Text.repr nodeId ++
        " (#909 — placement authority belongs to the session owner)"

end LaneError

structure PlacementReply where
  status : String := "recorded"
  laneKey : String
  node : String
  promoted : Nat
  scheduled : Nat
  deriving DecidableEq

abbrev LaneApi := Program LaneOp LaneOp.Res LaneError

namespace LanesRouter

def query (op : LaneOp) : LaneApi op.Res :=
  perform op

def store (op : StoreOp) (h : op.SparesLanes) : LaneApi op.Res :=
  perform (LaneOp.store op h)

/-- `a or b` of two texts. -/
def orElse (a b : String) : String :=
  if a ≠ "" then a else b

section Report

variable [Unicode]

/-- The row that a report leaves, in place of the one that is there. -/
def reportedRow (req : LaneReportRequest) (existing : Option LaneRow) : LaneRow where
  laneKey := Text.strip req.laneKey
  sessionId := orElse (Text.strip req.sessionId) ((existing.map (fun row => row.sessionId)).getD "")
  node := Text.strip req.nodeId
  profile := orElse req.profile ((existing.map LaneRow.profile).getD "")
  role := orElse (orElse req.role ((existing.map LaneRow.role).getD "")) "author"
  lastTaskId := orElse req.lastTaskId ((existing.map LaneRow.lastTaskId).getD "")

/-- `report_lane`; no authenticated caller is the empty text. -/
def reportLane (caller : String) (req : LaneReportRequest) : LaneApi PlacementReply := do
  let laneKey := Text.strip req.laneKey
  let nodeId := Text.strip req.nodeId
  if laneKey = "" ∨ nodeId = "" then
    raise .incomplete
  else if caller ≠ "" ∧ sameNode caller nodeId = false then
    raise (.notTheOwner caller laneKey nodeId)
  else do
    let existing ← query (.getLane laneKey)
    query (.recordLane (reportedRow req existing))
    let promoted ← store .triggerPendingTasks trivial
    let scheduled ← store .schedulePendingDetailed trivial
    pure { laneKey := laneKey, node := nodeId, promoted := promoted, scheduled := scheduled.length }

/-- The checks of a report. -/
def Admits (caller : String) (req : LaneReportRequest) : Prop :=
  (Text.strip req.laneKey ≠ "" ∧ Text.strip req.nodeId ≠ "") ∧
    (caller ≠ "" → sameNode caller (Text.strip req.nodeId) = true)

instance (caller : String) (req : LaneReportRequest) : Decidable (Admits caller req) :=
  inferInstanceAs (Decidable (_ ∧ _))

variable {k : Backend} {caller : String} {req : LaneReportRequest} (w : Timed (LaneBoard k))

theorem run_reportLane_of_admits (h : Admits caller req) :
    ((reportLane caller req).run LaneBoard.tick w).1.isOk = true ∧
      ((reportLane caller req).run LaneBoard.tick w).2.state.lanes =
        w.state.lanes.upsert
          (reportedRow req (w.state.lanes.get? (Text.strip req.laneKey))) := by
  obtain ⟨⟨hlane, hnode⟩, hcaller⟩ := h
  unfold reportLane
  dsimp only
  rw [if_neg (not_or.mpr ⟨hlane, hnode⟩), if_neg (fun hother => by
    rw [hcaller hother.1] at hother
    exact absurd hother.2.symm Bool.false_ne_true)]
  exact ⟨rfl, rfl⟩

theorem run_reportLane_of_refused (h : ¬Admits caller req) :
    ((reportLane caller req).run LaneBoard.tick w).1.isOk = false ∧
      ((reportLane caller req).run LaneBoard.tick w).2 = w := by
  unfold reportLane
  dsimp only
  by_cases hblank : Text.strip req.laneKey = "" ∨ Text.strip req.nodeId = ""
  · rw [if_pos hblank]
    exact ⟨rfl, rfl⟩
  · rw [if_neg hblank]
    by_cases hother : caller ≠ "" ∧ sameNode caller (Text.strip req.nodeId) = false
    · rw [if_pos hother]
      exact ⟨rfl, rfl⟩
    · refine absurd ⟨not_or.mp hblank, fun hcaller => ?_⟩ h
      by_contra hno
      exact hother ⟨hcaller, by simpa using hno⟩

end Report

/-! ## Runs -/

/-- A report, or any other operation on the store. -/
inductive LaneCall where
  | report (caller : String) (req : LaneReportRequest)
  | store (op : StoreOp) (h : op.SparesLanes)

/-- A call with the readings the clock gives to its operations. -/
structure TimedLaneCall where
  call : LaneCall
  clock : Nat → Nat

section Runs

variable [Unicode] {k : Backend}

/-- What a call runs; its reply is left out. -/
def LaneCall.prog : LaneCall → LaneApi Unit
  | report caller req => reportLane caller req >>= fun _ => pure ()
  | store op h => LanesRouter.store op h >>= fun _ => pure ()

/-- Main's lanes table under calls. -/
def placements : Machine (Timed (LaneBoard k)) TimedLaneCall (Except LaneError Unit) := fun c w =>
  c.call.prog.run LaneBoard.tick { w with clock := c.clock }

abbrev LaneRun : Type := List (TimedLaneCall × Except LaneError Unit)

/-- A report that was accepted names this session for the lane, from this node. -/
def Reported (run : LaneRun) (laneKey sessionId node : String) : Prop :=
  ∃ x ∈ run, ∃ caller req, x.1.call = .report caller req ∧ x.2.isOk = true ∧
    Text.strip req.laneKey = laneKey ∧ Text.strip req.sessionId = sessionId ∧
      sameNode (Text.strip req.nodeId) node = true

/-- The session that a row names was reported by the row's node. -/
def SessionsOwned (run : LaneRun) (lanes : Table LaneRow) : Prop :=
  ∀ laneKey, ∀ row ∈ lanes.get? laneKey, row.sessionId ≠ "" →
    Reported run laneKey row.sessionId row.node

/-- A report without a session finds no session of another node. -/
def FindsOwnSession (c : TimedLaneCall) (w : Timed (LaneBoard k)) : Prop :=
  match c.call with
  | .report caller req =>
      Admits caller req → Text.strip req.sessionId = "" →
        ∀ row ∈ w.state.lanes.get? (Text.strip req.laneKey), row.sessionId ≠ "" →
          sameNode (Text.strip req.nodeId) row.node = true
  | .store _ _ => True

theorem sameNode_iff {a b : String} :
    sameNode a b = true ↔ (a ≠ "" ∧ b ≠ "") ∧ canonicalNodeId a = canonicalNodeId b := by
  unfold sameNode
  split
  · rename_i hempty
    exact iff_of_false Bool.false_ne_true (fun h => hempty.elim h.1.1 h.1.2)
  · rename_i hgiven
    rw [decide_eq_true_iff]
    exact (and_iff_right (not_or.mp hgiven)).symm

theorem sameNode_refl {a : String} (h : a ≠ "") : sameNode a a = true :=
  sameNode_iff.mpr ⟨⟨h, h⟩, rfl⟩

theorem sameNode_of_sameNode {a b c : String} (h : sameNode a c = true) (h' : sameNode b c = true) :
    sameNode a b = true := by
  obtain ⟨⟨ha, -⟩, hac⟩ := sameNode_iff.mp h
  obtain ⟨⟨hb, -⟩, hbc⟩ := sameNode_iff.mp h'
  exact sameNode_iff.mpr ⟨⟨ha, hb⟩, hac.trans hbc.symm⟩

theorem Reported.concat {run : LaneRun} {laneKey sessionId node : String}
    (h : Reported run laneKey sessionId node) (x : TimedLaneCall × Except LaneError Unit) :
    Reported (run ++ [x]) laneKey sessionId node := by
  obtain ⟨y, hy, hreport⟩ := h
  exact ⟨y, List.mem_append_left _ hy, hreport⟩

theorem Reported.of_sameNode {run : LaneRun} {laneKey sessionId node node' : String}
    (h : Reported run laneKey sessionId node) (hsame : sameNode node' node = true) :
    Reported run laneKey sessionId node' := by
  obtain ⟨y, hy, caller, req, hcall, hok, hlane, hsession, hnode⟩ := h
  exact ⟨y, hy, caller, req, hcall, hok, hlane, hsession, sameNode_of_sameNode hnode hsame⟩

variable (w : Timed (LaneBoard k)) (clock : Nat → Nat)

theorem placements_of_admits {caller : String} {req : LaneReportRequest}
    (h : Admits caller req) :
    (placements ⟨.report caller req, clock⟩ w).1.isOk = true ∧
      (placements ⟨.report caller req, clock⟩ w).2.state.lanes =
        w.state.lanes.upsert
          (reportedRow req (w.state.lanes.get? (Text.strip req.laneKey))) := by
  obtain ⟨hok, hlanes⟩ := run_reportLane_of_admits { w with clock := clock } h
  refine ⟨(isOk_run_discard _ _ _ _).trans hok, ?_⟩
  unfold placements LaneCall.prog
  rw [run_discard]
  dsimp only at hlanes ⊢
  exact hlanes

theorem placements_of_refused {caller : String} {req : LaneReportRequest}
    (h : ¬Admits caller req) :
    (placements ⟨.report caller req, clock⟩ w).2.state.lanes = w.state.lanes := by
  obtain ⟨-, hsame⟩ := run_reportLane_of_refused { w with clock := clock } h
  unfold placements LaneCall.prog
  rw [run_discard, hsame]

theorem SessionsOwned.concat {run : LaneRun} {lanes : Table LaneRow} (h : SessionsOwned run lanes)
    (x : TimedLaneCall × Except LaneError Unit) : SessionsOwned (run ++ [x]) lanes :=
  fun laneKey row hrow hsession => (h laneKey row hrow hsession).concat x

variable {w}

/-- The session that a report leaves in a row is its own, or one of its node. -/
theorem reported_of_step {run : LaneRun} {caller : String} {req : LaneReportRequest}
    {clock : Nat → Nat} {answer : Except LaneError Unit} (hok : answer.isOk = true)
    (h : SessionsOwned run w.state.lanes) (hadmits : Admits caller req)
    (hown : FindsOwnSession ⟨.report caller req, clock⟩ w) {laneKey : String}
    (hlane : Text.strip req.laneKey = laneKey)
    (hsession : (reportedRow req (w.state.lanes.get? laneKey)).sessionId ≠ "") :
    Reported (run ++ [(⟨.report caller req, clock⟩, answer)]) laneKey
      (reportedRow req (w.state.lanes.get? laneKey)).sessionId (Text.strip req.nodeId) := by
  subst hlane
  by_cases hgiven : Text.strip req.sessionId ≠ ""
  · have hnames : (reportedRow req (w.state.lanes.get? (Text.strip req.laneKey))).sessionId =
        Text.strip req.sessionId := if_pos hgiven
    rw [hnames]
    exact ⟨_, List.mem_append_right _ (List.mem_singleton_self _), caller, req, rfl, hok, rfl, rfl,
      sameNode_refl hadmits.1.2⟩
  · have hkept : (reportedRow req (w.state.lanes.get? (Text.strip req.laneKey))).sessionId =
        ((w.state.lanes.get? (Text.strip req.laneKey)).map (fun row => row.sessionId)).getD "" :=
      if_neg hgiven
    rw [hkept] at hsession ⊢
    cases hrow : w.state.lanes.get? (Text.strip req.laneKey) with
    | none =>
        rw [hrow] at hsession
        exact absurd rfl hsession
    | some row =>
        rw [hrow] at hsession
        have hsame := hown hadmits (of_not_not hgiven) row hrow hsession
        exact ((h _ row hrow hsession).of_sameNode hsame).concat _

theorem SessionsOwned.step {run : LaneRun} {c : TimedLaneCall}
    (h : SessionsOwned run w.state.lanes) (hown : FindsOwnSession c w) :
    SessionsOwned (run ++ [(c, (placements c w).1)]) (placements c w).2.state.lanes := by
  obtain ⟨call, clock⟩ := c
  cases call with
  | store op hop => exact h.concat _
  | report caller req =>
      by_cases hadmits : Admits caller req
      · obtain ⟨hok, hlanes⟩ := placements_of_admits w clock hadmits
        rw [hlanes]
        intro laneKey row hrow hsession
        rw [Option.mem_def, Table.get?_upsert] at hrow
        by_cases hlane : Text.strip req.laneKey = laneKey
        · have hkey : HasKey.key (reportedRow req (w.state.lanes.get? (Text.strip req.laneKey))) =
              laneKey := hlane
          rw [if_pos hkey] at hrow
          cases hrow
          subst hlane
          exact reported_of_step hok h hadmits hown rfl hsession
        · have hkey : ¬HasKey.key (reportedRow req (w.state.lanes.get? (Text.strip req.laneKey))) =
              laneKey := hlane
          rw [if_neg hkey] at hrow
          exact (h laneKey row hrow hsession).concat _
      · rw [placements_of_refused w clock hadmits]
        exact h.concat _

theorem sessionsOwned_run {calls : List TimedLaneCall}
    (hempty : w.state.lanes = Table.empty) (hown : placements.Meets FindsOwnSession calls w) :
    SessionsOwned (placements.answers calls w) (placements.after calls w).state.lanes := by
  refine Machine.tracks_of_step (I := fun run w => SessionsOwned run w.state.lanes)
    ?_ hown (fun _ _ _ h hcall => h.step hcall)
  rw [hempty]
  intro laneKey row hrow
  cases hrow

/-- What an authenticated report changes is a row of the caller's node. -/
theorem sameNode_of_changed {caller : String} {req : LaneReportRequest} {clock : Nat → Nat}
    (hcaller : caller ≠ "") {laneKey : String}
    (hchanged : (placements ⟨.report caller req, clock⟩ w).2.state.lanes.get? laneKey ≠
      w.state.lanes.get? laneKey) :
    ∃ row ∈ (placements ⟨.report caller req, clock⟩ w).2.state.lanes.get? laneKey,
      sameNode caller row.node = true := by
  by_cases hadmits : Admits caller req
  · obtain ⟨-, hlanes⟩ := placements_of_admits w clock hadmits
    rw [hlanes, Table.get?_upsert] at hchanged ⊢
    by_cases hlane : HasKey.key (reportedRow req (w.state.lanes.get? (Text.strip req.laneKey))) =
        laneKey
    · rw [if_pos hlane]
      exact ⟨_, rfl, hadmits.2 hcaller⟩
    · rw [if_neg hlane] at hchanged
      exact absurd rfl hchanged
  · rw [placements_of_refused w clock hadmits] at hchanged
    exact absurd rfl hchanged

/-- From an empty lanes table, under any reports and other operations: as long as a
report that names no session finds none of another node, each session in the table
was reported by its row's node; and in every state reached, an authenticated report
changes rows into rows of its own node only. -/
theorem placement_coherent (rest : k.Store) (clock : Nat → Nat) (calls : List TimedLaneCall)
    (hown : placements.Meets FindsOwnSession calls ⟨⟨Table.empty, rest⟩, clock⟩) :
    SessionsOwned (placements.answers calls ⟨⟨Table.empty, rest⟩, clock⟩)
        (placements.after calls ⟨⟨Table.empty, rest⟩, clock⟩).state.lanes ∧
      ∀ caller req clock' laneKey, caller ≠ "" →
        let w := placements.after calls ⟨⟨Table.empty, rest⟩, clock⟩
        let w' := (placements ⟨.report caller req, clock'⟩ w).2
        w'.state.lanes.get? laneKey ≠ w.state.lanes.get? laneKey →
          ∃ row ∈ w'.state.lanes.get? laneKey, sameNode caller row.node = true :=
  ⟨sessionsOwned_run rfl hown, fun _ _ _ _ hcaller => sameNode_of_changed hcaller⟩

end Runs

section Case

local instance asciiPlacements : Unicode := Unicode.ascii

/-- A lane that ran on `n1` is reported by `n2` when it spawns a worker for it. -/
def movedLane : List TimedLaneCall :=
  [⟨.report "n1" { laneKey := "repo!1", nodeId := "n1", sessionId := "s1" }, id⟩,
    ⟨.report "n2" { laneKey := "repo!1", nodeId := "n2" }, id⟩]

/-- The same node reports the session and, later, another spawn. -/
def keptLane : List TimedLaneCall :=
  [⟨.report "node_n1" { laneKey := "repo!1", nodeId := "n1", sessionId := "s1" }, id⟩,
    ⟨.report "n1" { laneKey := "repo!1", nodeId := "node_n1" }, id⟩]

def noPlacements : Timed (LaneBoard .memory) := ⟨⟨Table.empty, ClusterState.empty⟩, id⟩

theorem placement_coherent_kept :
    SessionsOwned (placements.answers keptLane noPlacements)
      (placements.after keptLane noPlacements).state.lanes := by
  refine (placement_coherent (k := .memory) ClusterState.empty id keptLane ⟨?_, ?_, trivial⟩).1
  · intro _ hblank
    exact absurd hblank (by decide)
  · intro _ _ row hrow _
    have hnode : ((placements.after keptLane.dropLast noPlacements).state.lanes.get? "repo!1").map
        (fun row => row.node) = some "n1" := by decide +kernel
    have hmap := congrArg (Option.map (fun row : LaneRow => row.node)) hrow
    have hrownode : row.node = "n1" := Option.some.inj (hmap.symm.trans hnode)
    rw [hrownode]
    decide +kernel

/-- The row then names a session of `n1` as running on `n2`. -/
theorem moved_lane_keeps_session :
    ((placements.after movedLane noPlacements).state.lanes.get? "repo!1").map
        (fun row => (row.node, row.sessionId)) = some ("n2", "s1") ∧
      ¬SessionsOwned (placements.answers movedLane noPlacements)
        (placements.after movedLane noPlacements).state.lanes := by
  have hrow : ((placements.after movedLane noPlacements).state.lanes.get? "repo!1").map
      (fun row => (row.node, row.sessionId)) = some ("n2", "s1") := by decide +kernel
  refine ⟨hrow, fun howned => ?_⟩
  obtain ⟨row, hget, hfields⟩ := Option.map_eq_some_iff.mp hrow
  obtain ⟨hnode, hsession⟩ := Prod.mk.inj hfields
  obtain ⟨x, hx, caller, req, hcall, -, -, hnamed, hsame⟩ :=
    howned "repo!1" row hget (by rw [hsession]; decide)
  rw [hnode] at hsame
  rw [hsession] at hnamed
  have hmem : x.1 ∈ movedLane := by
    rw [← placements.fst_answers movedLane noPlacements]
    exact List.mem_map_of_mem hx
  rcases List.mem_cons.mp hmem with hfirst | hmem
  · -- the report of the session comes from the other node
    rw [hfirst] at hcall
    cases hcall
    exact absurd hsame (by decide +kernel)
  · -- the report of the node names no session
    rw [List.mem_singleton.mp hmem] at hcall
    cases hcall
    exact absurd hnamed (by decide +kernel)

end Case

end LanesRouter

end HermesCluster
