import HermesCluster.Models
import Mathlib.Data.List.Dedup
import Mathlib.Data.List.Sort
/-!
# Scheduling core

`core/scheduler.py`: the one-per-lane guard, node eligibility, and the fair
planner that names the least-loaded capable node.
-/

namespace HermesCluster

/-! ## One sitting per lane -/

/-- The order in which the siblings of a lane are let through:
`(priority, created_at)`. -/
def SiblingFirst (a b : Task) : Prop :=
  a.priority < b.priority ∨ (a.priority = b.priority ∧ a.createdAt ≤ b.createdAt)

instance : DecidableRel SiblingFirst := fun a b =>
  inferInstanceAs (Decidable
    (a.priority < b.priority ∨ (a.priority = b.priority ∧ a.createdAt ≤ b.createdAt)))

/-- Lanes with a running or assigned task. -/
def activeLanes (tasks : List Task) : List String :=
  (tasks.filter (fun t => decide (t.laneKey ≠ "" ∧ t.status.IsActive))).map Task.laneKey

/-- The ready tasks of a lane. -/
def readyOfLane (tasks : List Task) (lane : String) : List Task :=
  tasks.filter (fun t => decide (t.laneKey = lane ∧ t.status = .ready))

/-- The ready tasks of one lane that must wait: all of them behind an active
sitting, else all but the first. -/
def laneBlocked (tasks : List Task) (lane : String) : List String :=
  if lane ∈ activeLanes tasks then (readyOfLane tasks lane).map Task.id
  else (((readyOfLane tasks lane).insertionSort SiblingFirst).drop 1).map Task.id

/-- `lane_blocked_ready_ids`. -/
def laneBlockedReadyIds (tasks : List Task) : List String :=
  let byLane := (tasks.filter
    (fun t => decide (t.laneKey ≠ "" ∧ t.status = .ready))).map Task.laneKey
  byLane.dedup.flatMap (laneBlocked tasks)

/-! ### What the guard lets through -/

instance : Std.Total SiblingFirst := ⟨fun a b => by
  unfold SiblingFirst
  omega⟩

instance : IsTrans Task SiblingFirst := ⟨fun a b c hab hbc => by
  unfold SiblingFirst at *
  omega⟩

section LaneGuard

variable {tasks : List Task} {t u : Task}

theorem mem_activeLanes {lane : String} :
    lane ∈ activeLanes tasks ↔
      lane ≠ "" ∧ ∃ u ∈ tasks, u.laneKey = lane ∧ u.status.IsActive := by
  constructor
  · intro h
    obtain ⟨u, hu, rfl⟩ := List.mem_map.mp h
    obtain ⟨hmem, hactive⟩ := List.mem_filter.mp hu
    obtain ⟨hne, hstatus⟩ := of_decide_eq_true hactive
    exact ⟨hne, u, hmem, rfl, hstatus⟩
  · rintro ⟨hne, u, hmem, rfl, hstatus⟩
    exact List.mem_map_of_mem (List.mem_filter.mpr ⟨hmem, decide_eq_true ⟨hne, hstatus⟩⟩)

theorem mem_readyOfLane {lane : String} :
    t ∈ readyOfLane tasks lane ↔ t ∈ tasks ∧ t.laneKey = lane ∧ t.status = .ready := by
  simp [readyOfLane]

theorem mem_laneBlockedReadyIds {taskId : String} :
    taskId ∈ laneBlockedReadyIds tasks ↔
      ∃ lane, (∃ u ∈ tasks, u.laneKey = lane ∧ lane ≠ "" ∧ u.status = .ready) ∧
        taskId ∈ laneBlocked tasks lane := by
  simp only [laneBlockedReadyIds, List.mem_flatMap, List.mem_dedup, List.mem_map,
    List.mem_filter, decide_eq_true_eq]
  constructor
  · rintro ⟨lane, ⟨u, ⟨hu, hne, hready⟩, rfl⟩, hblocked⟩
    exact ⟨u.laneKey, ⟨u, hu, rfl, hne, hready⟩, hblocked⟩
  · rintro ⟨lane, ⟨u, hu, rfl, hne, hready⟩, hblocked⟩
    exact ⟨u.laneKey, ⟨u, ⟨hu, hne, hready⟩, rfl⟩, hblocked⟩

theorem not_mem_laneBlocked (ht : t ∈ tasks) (hready : t.status = .ready)
    (hlane : t.laneKey ≠ "") (hfree : t.id ∉ laneBlockedReadyIds tasks) :
    t.id ∉ laneBlocked tasks t.laneKey :=
  fun hblocked => hfree (mem_laneBlockedReadyIds.mpr
    ⟨t.laneKey, ⟨t, ht, rfl, hlane, hready⟩, hblocked⟩)

/-- Behind an active sitting every ready task of the lane waits. -/
theorem not_active_of_free (ht : t ∈ tasks) (hready : t.status = .ready)
    (hlane : t.laneKey ≠ "") (hfree : t.id ∉ laneBlockedReadyIds tasks) :
    ∀ u ∈ tasks, u.laneKey = t.laneKey → ¬u.status.IsActive := by
  intro u hu hkey hactive
  have hsitting : t.laneKey ∈ activeLanes tasks :=
    mem_activeLanes.mpr ⟨hlane, u, hu, hkey, hactive⟩
  apply not_mem_laneBlocked ht hready hlane hfree
  rw [laneBlocked, if_pos hsitting]
  exact List.mem_map_of_mem (mem_readyOfLane.mpr ⟨ht, rfl, hready⟩)

/-- The task let through heads the sorted siblings of its lane. -/
theorem siblings_of_free (ht : t ∈ tasks) (hready : t.status = .ready)
    (hlane : t.laneKey ≠ "") (hfree : t.id ∉ laneBlockedReadyIds tasks) :
    ∃ rest, (readyOfLane tasks t.laneKey).insertionSort SiblingFirst = t :: rest ∧
      t.id ∉ rest.map Task.id := by
  have hnot := not_mem_laneBlocked ht hready hlane hfree
  have hidle : t.laneKey ∉ activeLanes tasks := by
    intro hsitting
    obtain ⟨-, u, hu, hkey, hactive⟩ := mem_activeLanes.mp hsitting
    exact not_active_of_free ht hready hlane hfree u hu hkey hactive
  rw [laneBlocked, if_neg hidle] at hnot
  have hmem : t ∈ (readyOfLane tasks t.laneKey).insertionSort SiblingFirst :=
    (List.mem_insertionSort _).mpr (mem_readyOfLane.mpr ⟨ht, rfl, hready⟩)
  cases hsorted : (readyOfLane tasks t.laneKey).insertionSort SiblingFirst with
  | nil =>
      rw [hsorted] at hmem
      cases hmem
  | cons first rest =>
      rw [hsorted] at hmem hnot
      rw [List.drop_one, List.tail_cons] at hnot
      rcases List.mem_cons.mp hmem with rfl | hrest
      · exact ⟨rest, rfl, hnot⟩
      · exact absurd (List.mem_map_of_mem hrest) hnot

/-- Among the ready siblings of a lane, the one let through comes first. -/
theorem siblingFirst_of_free (ht : t ∈ tasks) (hready : t.status = .ready)
    (hlane : t.laneKey ≠ "") (hfree : t.id ∉ laneBlockedReadyIds tasks)
    (hu : u ∈ tasks) (huready : u.status = .ready) (hkey : u.laneKey = t.laneKey) :
    SiblingFirst t u := by
  obtain ⟨rest, hsorted, -⟩ := siblings_of_free ht hready hlane hfree
  have hpairwise := List.pairwise_insertionSort SiblingFirst (readyOfLane tasks t.laneKey)
  have hmem : u ∈ (readyOfLane tasks t.laneKey).insertionSort SiblingFirst :=
    (List.mem_insertionSort _).mpr (mem_readyOfLane.mpr ⟨hu, hkey, huready⟩)
  rw [hsorted] at hpairwise hmem
  rcases List.mem_cons.mp hmem with rfl | hrest
  · exact (Std.Total.total u u).elim id id
  · exact (List.pairwise_cons.mp hpairwise).1 u hrest

/-- At most one ready task of a lane is let through. -/
theorem eq_of_free (ht : t ∈ tasks) (hready : t.status = .ready)
    (hlane : t.laneKey ≠ "") (hfree : t.id ∉ laneBlockedReadyIds tasks)
    (hu : u ∈ tasks) (huready : u.status = .ready)
    (hufree : u.id ∉ laneBlockedReadyIds tasks) (hkey : u.laneKey = t.laneKey) :
    t = u := by
  obtain ⟨rest, hsorted, -⟩ := siblings_of_free ht hready hlane hfree
  obtain ⟨rest', hsorted', -⟩ := siblings_of_free hu huready (hkey ▸ hlane) hufree
  rw [hkey, hsorted] at hsorted'
  exact (List.cons.inj hsorted').1

end LaneGuard

/-! ## Node eligibility -/

/-- `node_at_capacity`: a ceiling of 0 or less is no ceiling. -/
def nodeAtCapacity (node : Node) (activeCount : Nat) : Bool :=
  if node.maxConcurrent ≤ 0 then false
  else decide (node.maxConcurrent ≤ (activeCount : Int))

/-- `node_can_run`: a drained node runs nothing, whatever it declares. -/
def nodeCanRun (taskRequires : List String) (node : Node) : Bool :=
  if node.drained then false
  else taskRequires.all (fun cap => decide (cap ∈ node.capabilities))

/-! ## The fair planner -/

/-- The round-robin cursor. A node never picked reads as `-1`. -/
structure FairScheduler where
  pickRound : Nat := 0
  lastPickedAt : String → Int := fun _ => -1

namespace FairScheduler

/-- `(active_count, last_picked_round)`, compared lexicographically. -/
def KeyLt (a b : Nat × Int) : Prop :=
  a.1 < b.1 ∨ (a.1 = b.1 ∧ a.2 < b.2)

instance : DecidableRel KeyLt := fun a b =>
  inferInstanceAs (Decidable (a.1 < b.1 ∨ (a.1 = b.1 ∧ a.2 < b.2)))

def key (fs : FairScheduler) (activeCounts : String → Nat) (node : Node) : Nat × Int :=
  (activeCounts node.id, fs.lastPickedAt node.id)

/-- One iteration of the scan in `choose`. -/
def chooseStep (fs : FairScheduler) (taskRequires : List String)
    (activeCounts : String → Nat) (best : Option Node) (node : Node) : Option Node :=
  if nodeCanRun taskRequires node = false then best
  else if nodeAtCapacity node (activeCounts node.id) then best
  else
    match best with
    | none => some node
    | some b =>
        if KeyLt (fs.key activeCounts node) (fs.key activeCounts b) then some node
        else some b

/-- `FairScheduler.choose`: the eligible node with room that has the smallest
key, the first of them on a tie. -/
def choose (fs : FairScheduler) (taskRequires : List String) (onlineNodes : List Node)
    (activeCounts : String → Nat) : Option Node :=
  onlineNodes.foldl (fs.chooseStep taskRequires activeCounts) none

/-- `FairScheduler.mark_picked`. -/
def markPicked (fs : FairScheduler) (nodeId : String) : FairScheduler where
  pickRound := fs.pickRound + 1
  lastPickedAt := Function.update fs.lastPickedAt nodeId fs.pickRound

end FairScheduler

/-! ## What the planner guarantees -/

theorem nodeAtCapacity_mono {node : Node} {m n : Nat} (h : m ≤ n)
    (hm : nodeAtCapacity node m = true) : nodeAtCapacity node n = true := by
  unfold nodeAtCapacity at *
  split
  · simp_all
  · rename_i hpos
    rw [if_neg hpos] at hm
    have hle := of_decide_eq_true hm
    exact decide_eq_true (by omega)

/-- Below the ceiling there is room for one more. -/
theorem le_maxConcurrent_of_room {node : Node} {n : Nat} (hpos : 0 < node.maxConcurrent)
    (h : nodeAtCapacity node n = false) : ((n + 1 : Nat) : Int) ≤ node.maxConcurrent := by
  unfold nodeAtCapacity at h
  rw [if_neg (by omega)] at h
  have hlt := of_decide_eq_false h
  omega

namespace FairScheduler

variable {fs : FairScheduler} {taskRequires : List String}
  {activeCounts : String → Nat}

/-- A node that can take one more task with these requirements. -/
def CanTake (taskRequires : List String) (activeCounts : String → Nat) (node : Node) :
    Prop :=
  nodeCanRun taskRequires node = true ∧ nodeAtCapacity node (activeCounts node.id) = false

theorem chooseStep_cases (fs : FairScheduler) (taskRequires : List String)
    (activeCounts : String → Nat) (best : Option Node) (node : Node) :
    fs.chooseStep taskRequires activeCounts best node = best ∨
      (fs.chooseStep taskRequires activeCounts best node = some node ∧
        CanTake taskRequires activeCounts node) := by
  unfold chooseStep
  split
  · exact .inl rfl
  · rename_i hcan
    split
    · exact .inl rfl
    · rename_i hfull
      have htake : CanTake taskRequires activeCounts node :=
        ⟨by simpa using hcan, by simpa using hfull⟩
      split
      · exact .inr ⟨rfl, htake⟩
      · split
        · exact .inr ⟨rfl, htake⟩
        · exact .inl rfl

theorem chooseStep_eq_none {best : Option Node} {node : Node}
    (h : fs.chooseStep taskRequires activeCounts best node = none) :
    best = none ∧ ¬CanTake taskRequires activeCounts node := by
  unfold chooseStep at h
  split at h
  · rename_i hcan
    exact ⟨h, fun htake => by simp [htake.1] at hcan⟩
  · split at h
    · rename_i hfull
      exact ⟨h, fun htake => by simp [htake.2] at hfull⟩
    · split at h
      · cases h
      · split at h <;> cases h

theorem foldl_choose_some {nodes : List Node} {best : Option Node} {node : Node}
    (h : nodes.foldl (fs.chooseStep taskRequires activeCounts) best = some node) :
    best = some node ∨ (node ∈ nodes ∧ CanTake taskRequires activeCounts node) := by
  induction nodes generalizing best with
  | nil => exact .inl h
  | cons m nodes ih =>
      rcases ih h with hstep | ⟨hmem, htake⟩
      · rcases chooseStep_cases fs taskRequires activeCounts best m with heq | ⟨heq, htake⟩
        · exact .inl (heq ▸ hstep)
        · rw [heq] at hstep
          cases hstep
          exact .inr ⟨List.mem_cons_self, htake⟩
      · exact .inr ⟨List.mem_cons_of_mem _ hmem, htake⟩

theorem foldl_choose_none {nodes : List Node} {best : Option Node}
    (h : nodes.foldl (fs.chooseStep taskRequires activeCounts) best = none) :
    best = none ∧ ∀ node ∈ nodes, ¬CanTake taskRequires activeCounts node := by
  induction nodes generalizing best with
  | nil => exact ⟨h, by simp⟩
  | cons m nodes ih =>
      obtain ⟨hstep, hrest⟩ := ih h
      obtain ⟨hbest, hm⟩ := chooseStep_eq_none hstep
      exact ⟨hbest, by simpa using ⟨hm, hrest⟩⟩

/-- The planner names an online node that can take the task. -/
theorem choose_some {nodes : List Node} {node : Node}
    (h : fs.choose taskRequires nodes activeCounts = some node) :
    node ∈ nodes ∧ CanTake taskRequires activeCounts node := by
  rcases foldl_choose_some h with hbest | hnode
  · cases hbest
  · exact hnode

/-- The planner names nothing only when no online node can take the task. -/
theorem choose_none {nodes : List Node}
    (h : fs.choose taskRequires nodes activeCounts = none) :
    ∀ node ∈ nodes, ¬CanTake taskRequires activeCounts node :=
  (foldl_choose_none h).2

/-! ### The smallest key -/

theorem not_keyLt_trans {a b c : Nat × Int} (hab : ¬KeyLt a b) (hbc : ¬KeyLt b c) :
    ¬KeyLt a c := by
  unfold KeyLt at *
  omega

/-- One iteration keeps a key that is no larger. -/
theorem chooseStep_least (fs : FairScheduler) (taskRequires : List String)
    (activeCounts : String → Nat) (best : Option Node) (node : Node) :
    (∀ b, best = some b → ∃ b', fs.chooseStep taskRequires activeCounts best node = some b' ∧
        ¬KeyLt (fs.key activeCounts b) (fs.key activeCounts b')) ∧
      (CanTake taskRequires activeCounts node →
        ∃ b', fs.chooseStep taskRequires activeCounts best node = some b' ∧
          ¬KeyLt (fs.key activeCounts node) (fs.key activeCounts b')) := by
  have hself : ∀ a : Nat × Int, ¬KeyLt a a := fun a => by
    unfold KeyLt
    omega
  unfold chooseStep
  split
  · rename_i hcan
    exact ⟨fun b hb => ⟨b, hb, hself _⟩, fun htake => by simp [htake.1] at hcan⟩
  · split
    · rename_i hfull
      exact ⟨fun b hb => ⟨b, hb, hself _⟩, fun htake => by simp [htake.2] at hfull⟩
    · cases best with
      | none => exact ⟨fun b hb => (by cases hb), fun _ => ⟨node, rfl, hself _⟩⟩
      | some b =>
          dsimp only
          split
          · rename_i hless
            refine ⟨fun b' hb' => ⟨node, rfl, ?_⟩, fun _ => ⟨node, rfl, hself _⟩⟩
            cases hb'
            unfold KeyLt at *
            omega
          · rename_i hless
            refine ⟨fun b' hb' => ⟨b, rfl, ?_⟩, fun _ => ⟨b, rfl, hless⟩⟩
            cases hb'
            exact hself _

theorem foldl_choose_least {nodes : List Node} {best : Option Node} {node : Node}
    (h : nodes.foldl (fs.chooseStep taskRequires activeCounts) best = some node) :
    (∀ b, best = some b → ¬KeyLt (fs.key activeCounts b) (fs.key activeCounts node)) ∧
      ∀ m ∈ nodes, CanTake taskRequires activeCounts m →
        ¬KeyLt (fs.key activeCounts m) (fs.key activeCounts node) := by
  induction nodes generalizing best with
  | nil =>
      refine ⟨fun b hb => ?_, by simp⟩
      obtain rfl := Option.some.inj (hb.symm.trans h)
      unfold KeyLt
      omega
  | cons m nodes ih =>
      obtain ⟨hfirst, hrest⟩ := ih h
      obtain ⟨hbest, hm⟩ := chooseStep_least fs taskRequires activeCounts best m
      refine ⟨fun b hb => ?_, List.forall_mem_cons.mpr ⟨fun htake => ?_, hrest⟩⟩
      · obtain ⟨b', hb', hless⟩ := hbest b hb
        exact not_keyLt_trans hless (hfirst b' hb')
      · obtain ⟨b', hb', hless⟩ := hm htake
        exact not_keyLt_trans hless (hfirst b' hb')

/-- No online node that can take the task has a smaller key than the one named. -/
theorem choose_least {nodes : List Node} {node m : Node}
    (h : fs.choose taskRequires nodes activeCounts = some node) (hm : m ∈ nodes)
    (htake : CanTake taskRequires activeCounts m) :
    ¬KeyLt (fs.key activeCounts m) (fs.key activeCounts node) :=
  (foldl_choose_least h).2 m hm htake

end FairScheduler

end HermesCluster
