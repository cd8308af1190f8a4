import HermesCluster.Core.Scheduler
import HermesCluster.Lib.Greedy
import HermesCluster.Lib.Text
/-!
# Lane-to-node affinity

`core/lane_affinity.py`: node-id spellings, and the planner that gives a task
of a placed lane to the node of that lane or to nobody.
-/

namespace HermesCluster

variable [Unicode]

/-- `canonical_node_id`: at most one leading `node_` removed. -/
def canonicalNodeId (nodeId : String) : String :=
  let s := Text.strip nodeId
  if Text.startsWith s "node_" then Text.drop 5 s else s

/-- `same_node`. -/
def sameNode (a b : String) : Bool :=
  if a = "" ∨ b = "" then false
  else decide (canonicalNodeId a = canonicalNodeId b)

/-- The online node a pin stands for: the first one it names. -/
def pinnedNode (onlineNodes : List Node) (pin : String) : Option Node :=
  onlineNodes.find? (fun node => sameNode node.id pin)

theorem sameNode_of_pinnedNode {onlineNodes : List Node} {pin : String} {node : Node}
    (h : pinnedNode onlineNodes pin = some node) : sameNode node.id pin = true := by
  unfold pinnedNode at h
  simpa using List.find?_some h

namespace FairScheduler

/-- `AffinityScheduler.choose_pinned`; `(none, true)` means the task parks. -/
def choosePinned (fs : FairScheduler) (taskRequires : List String)
    (onlineNodes : List Node) (activeCounts : String → Nat) (pin : String) :
    Option Node × Bool :=
  if pin = "" then (fs.choose taskRequires onlineNodes activeCounts, false)
  else
    match pinnedNode onlineNodes pin with
    | none => (none, true)
    | some node =>
        if nodeCanRun taskRequires node = false then (none, true)
        else if nodeAtCapacity node (activeCounts node.id) then (none, true)
        else (some node, true)

end FairScheduler

/-! ## The planner as a chooser of node ids -/

/-- The nodes a task may be placed on: an online node that can run it, and the
one its pin stands for if it has a pin. -/
def Eligible (onlineNodes : List Node) (pin : String) (taskRequires : List String)
    (nodeId : String) : Prop :=
  ∃ node ∈ onlineNodes, node.id = nodeId ∧ nodeCanRun taskRequires node = true ∧
    (pin ≠ "" → pinnedNode onlineNodes pin = some node)

/-- A node id whose node is not at capacity under this load. -/
def HasRoom (onlineNodes : List Node) (nodeId : String) (activeCount : Nat) : Prop :=
  ∃ node ∈ onlineNodes, node.id = nodeId ∧ nodeAtCapacity node activeCount = false

omit [Unicode] in
theorem hasRoom_antitone (onlineNodes : List Node) :
    Chooser.Antitone (HasRoom onlineNodes) := by
  rintro nodeId m n hmn ⟨node, hmem, hid, hroom⟩
  refine ⟨node, hmem, hid, ?_⟩
  cases hm : nodeAtCapacity node m with
  | false => rfl
  | true => rw [nodeAtCapacity_mono hmn hm] at hroom; cases hroom

section Pinned

variable {fs : FairScheduler} {taskRequires : List String} {onlineNodes : List Node}
  {activeCounts : String → Nat} {pin : String}

theorem choosePinned_some {node : Node} {pinned : Bool}
    (h : fs.choosePinned taskRequires onlineNodes activeCounts pin = (some node, pinned)) :
    node ∈ onlineNodes ∧ FairScheduler.CanTake taskRequires activeCounts node ∧
      (pin ≠ "" → pinnedNode onlineNodes pin = some node) := by
  unfold FairScheduler.choosePinned at h
  split at h
  · rename_i hpin
    obtain ⟨hmem, htake⟩ := FairScheduler.choose_some (Prod.mk.inj h).1
    exact ⟨hmem, htake, fun hne => absurd hpin hne⟩
  · split at h
    · cases h
    · rename_i m hm
      split at h
      · cases h
      · rename_i hcan
        split at h
        · cases h
        · rename_i hfull
          cases h
          exact ⟨List.mem_of_find?_eq_some hm,
            ⟨by simpa using hcan, by simpa using hfull⟩, fun _ => hm⟩

theorem choosePinned_none {pinned : Bool}
    (h : fs.choosePinned taskRequires onlineNodes activeCounts pin = (none, pinned)) :
    ∀ node ∈ onlineNodes, (pin ≠ "" → pinnedNode onlineNodes pin = some node) →
      ¬FairScheduler.CanTake taskRequires activeCounts node := by
  unfold FairScheduler.choosePinned at h
  split at h
  · intro node hmem _
    exact FairScheduler.choose_none (Prod.mk.inj h).1 node hmem
  · rename_i hpin
    intro node hmem hnode
    rw [hnode hpin] at h
    dsimp only at h
    split at h
    · rename_i hcan
      intro htake
      simp [htake.1] at hcan
    · split at h
      · rename_i hfull
        intro htake
        simp [htake.2] at hfull
      · cases h

end Pinned

/-- The planner of a schedule pass, naming node ids. -/
def laneChooser (onlineNodes : List Node) (pin : Task → String) :
    Chooser Task String FairScheduler where
  choose fs activeCounts task :=
    (fs.choosePinned task.requires onlineNodes activeCounts (pin task)).1.map Node.id
  picked := FairScheduler.markPicked

theorem laneChooser_sound (onlineNodes : List Node) (pin : Task → String) :
    (laneChooser onlineNodes pin).Sound
      (fun task => Eligible onlineNodes (pin task) task.requires) (HasRoom onlineNodes) := by
  intro fs activeCounts task nodeId h
  obtain ⟨node, hchoose, rfl⟩ := Option.map_eq_some_iff.mp h
  obtain ⟨hmem, htake, hpin⟩ := choosePinned_some (Prod.ext hchoose rfl)
  exact ⟨⟨node, hmem, rfl, htake.1, hpin⟩, ⟨node, hmem, rfl, htake.2⟩⟩

theorem laneChooser_complete {onlineNodes : List Node} (pin : Task → String)
    (hids : ∀ a ∈ onlineNodes, ∀ b ∈ onlineNodes, a.id = b.id → a = b) :
    (laneChooser onlineNodes pin).Complete
      (fun task => Eligible onlineNodes (pin task) task.requires) (HasRoom onlineNodes) := by
  rintro fs activeCounts task h _ ⟨node, hmem, rfl, hcan, hpin⟩ ⟨node', hmem', hid, hroom⟩
  have hnone := choosePinned_none (Prod.ext (Option.map_eq_none_iff.mp h) rfl)
  rw [hids node' hmem' node hmem hid] at hroom
  exact hnone node hmem hpin ⟨hcan, hroom⟩

end HermesCluster
