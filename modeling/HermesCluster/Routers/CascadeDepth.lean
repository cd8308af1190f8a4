import Mathlib.Data.List.Chain
import HermesCluster.Lib.DepthFirst
import HermesCluster.Routers.Cascade
/-!
# How far a cascade reaches

The cascade cancels the open tasks among those that a depth-first walk over the
dependents finds, and no other. The walk is ten levels deep, and it follows each
task once, at the level where it first comes to it: an open task is missed if it
depends only on tasks that the walk meets too far down, or whose query does not
find its row, as happens on Postgres with ids that JSON escapes.
-/

namespace HermesCluster

open Program hiding pure bind
open Relation

/-- From `root`, to its tenth level, the walk over the dependents follows the task. -/
def Followed (query : RowQuery) (tasks : Table Task) (root taskId : String) : Prop :=
  ∃ seen, DepthFirst (dependentsOf query tasks) 10 [root] [] seen ∧ taskId ∈ seen

/-- Each open task that depends on `root`, directly or not, depends directly on
one that the walk follows, and the query for that one finds its row. -/
def Reached (query : RowQuery) (tasks : Table Task) (root : String) : Prop :=
  ∀ t ∈ tasks.rows, ¬t.status.IsTerminal → TransGen (DependsOn tasks) t.id root →
    ∃ d ∈ t.dependsOn, query d t.dependsOn = true ∧ Followed query tasks root d

/-- The open tasks that depend on `root`, directly or not, are cancelled, and every
other row is as it was. -/
def CancelsBelow (reason root : String) (tasks tasks' : Table Task) : Prop :=
  List.Forall₂ (Withdrawn reason (TransGen (DependsOn tasks) · root)) tasks.rows tasks'.rows

/-! ## What the walk finds -/

section Walk

variable {query : RowQuery} {tasks : Table Task} {root : String}

theorem mem_dependentsOf {a b : String} :
    a ∈ dependentsOf query tasks b ↔
      ∃ t ∈ tasks.rows, t.id = a ∧ b ∈ t.dependsOn ∧ query b t.dependsOn = true := by
  constructor
  · intro h
    obtain ⟨t, ht, rfl⟩ := List.mem_map.mp h
    obtain ⟨hmem, hfound⟩ := List.mem_filter.mp ht
    obtain ⟨hquery, hb⟩ := Bool.and_eq_true_iff.mp hfound
    exact ⟨t, hmem, rfl, of_decide_eq_true hb, hquery⟩
  · rintro ⟨t, ht, rfl, hb, hquery⟩
    exact List.mem_map_of_mem (List.mem_filter.mpr
      ⟨ht, Bool.and_eq_true_iff.mpr ⟨hquery, decide_eq_true hb⟩⟩)

theorem dependsOn_iff {a b : String} :
    b ∈ ((tasks.get? a).map Task.dependsOn).getD [] ↔ DependsOn tasks a b := by
  unfold DependsOn
  cases tasks.get? a with
  | none => simp
  | some t => simp

instance (a b : String) : Decidable (DependsOn tasks a b) :=
  decidable_of_iff _ dependsOn_iff

/-- A list of dependents, walked one after the other. -/
theorem walks_foldl {depth : Nat}
    (htraverse : ∀ st taskId,
      DepthFirst (dependentsOf query tasks) depth [taskId] st.1
          (traverseDependents query tasks depth st taskId).1 ∧
        ∀ a, a ∈ (traverseDependents query tasks depth st taskId).2 ↔
          a ∈ st.2 ∨ ∃ d ∈ (traverseDependents query tasks depth st taskId).1,
            d ∉ st.1 ∧ a ∈ dependentsOf query tasks d)
    (deps : List String) (st : List String × List String) :
    let st' := deps.foldl
      (fun st dep => traverseDependents query tasks depth (st.1, st.2 ++ [dep]) dep) st
    DepthFirst (dependentsOf query tasks) depth deps st.1 st'.1 ∧
      ∀ a, a ∈ st'.2 ↔
        a ∈ st.2 ∨ a ∈ deps ∨ ∃ d ∈ st'.1, d ∉ st.1 ∧ a ∈ dependentsOf query tasks d := by
  induction deps generalizing st with
  | nil =>
      refine ⟨.done, fun a => ⟨.inl, ?_⟩⟩
      rintro (h | h | ⟨d, hd, hnot, -⟩)
      · exact h
      · cases h
      · exact absurd hd hnot
  | cons dep deps ih =>
      obtain ⟨hfirst, hchain⟩ := htraverse (st.1, st.2 ++ [dep]) dep
      obtain ⟨hrest, hchain'⟩ := ih (traverseDependents query tasks depth (st.1, st.2 ++ [dep]) dep)
      refine ⟨hfirst.cons hrest, fun a => ?_⟩
      rw [List.foldl_cons, hchain', hchain, List.mem_append, List.mem_singleton, List.mem_cons]
      constructor
      · rintro (((h | h) | ⟨d, hd, hnot, ha⟩) | h | ⟨d, hd, hnot, ha⟩)
        · exact .inl h
        · exact .inr (.inl (.inl h))
        · exact .inr (.inr ⟨d, hrest.subset d hd, hnot, ha⟩)
        · exact .inr (.inl (.inr h))
        · exact .inr (.inr ⟨d, hd, fun hmem => hnot (hfirst.subset d hmem), ha⟩)
      · rintro (h | (h | h) | ⟨d, hd, hnot, ha⟩)
        · exact .inl (.inl (.inl h))
        · exact .inl (.inl (.inr h))
        · exact .inr (.inl h)
        · by_cases hmem : d ∈ (traverseDependents query tasks depth (st.1, st.2 ++ [dep]) dep).1
          · exact .inl (.inr ⟨d, hmem, hnot, ha⟩)
          · exact .inr (.inr ⟨d, hd, hmem, ha⟩)

/-- The recursion is a depth-first walk, and collects the dependents of the tasks
that it follows. -/
theorem walks_traverse (query : RowQuery) (tasks : Table Task) (depth : Nat) (st : List String × List String)
    (taskId : String) :
    DepthFirst (dependentsOf query tasks) depth [taskId] st.1
        (traverseDependents query tasks depth st taskId).1 ∧
      ∀ a, a ∈ (traverseDependents query tasks depth st taskId).2 ↔
        a ∈ st.2 ∨ ∃ d ∈ (traverseDependents query tasks depth st taskId).1,
          d ∉ st.1 ∧ a ∈ dependentsOf query tasks d := by
  have hsame : ∀ (st : List String × List String) (a : String),
      a ∈ st.2 ↔ a ∈ st.2 ∨ ∃ d ∈ st.1, d ∉ st.1 ∧ a ∈ dependentsOf query tasks d := by
    refine fun st a => ⟨.inl, ?_⟩
    rintro (h | ⟨d, hd, hnot, -⟩)
    · exact h
    · exact absurd hd hnot
  induction depth generalizing st taskId with
  | zero => exact ⟨.deep .done, hsame st⟩
  | succ depth ih =>
      obtain ⟨visited, chain⟩ := st
      unfold traverseDependents
      by_cases hvisited : taskId ∈ visited
      · rw [if_pos hvisited]
        exact ⟨.again hvisited .done, hsame (visited, chain)⟩
      · rw [if_neg hvisited]
        obtain ⟨hbelow, hchain⟩ :=
          walks_foldl ih (dependentsOf query tasks taskId) (taskId :: visited, chain)
        refine ⟨.follow hvisited hbelow .done, fun a => ?_⟩
        have hself := hbelow.subset taskId List.mem_cons_self
        rw [hchain]
        constructor
        · rintro (h | h | ⟨d, hd, hnot, ha⟩)
          · exact .inl h
          · exact .inr ⟨taskId, hself, hvisited, h⟩
          · exact .inr ⟨d, hd, fun hmem => hnot (List.mem_cons_of_mem _ hmem), ha⟩
        · rintro (h | ⟨d, hd, hnot, ha⟩)
          · exact .inl h
          · rcases Classical.em (d = taskId) with rfl | hne
            · exact .inr (.inl ha)
            · refine .inr (.inr ⟨d, hd, fun hmem => ?_, ha⟩)
              exact (List.mem_cons.mp hmem).elim hne hnot

/-- The chain of a task: what depends directly on a task that the walk follows. -/
theorem mem_triggerChain_iff {a : String} :
    a ∈ triggerChain query tasks root ↔
      ∃ d, a ∈ dependentsOf query tasks d ∧ Followed query tasks root d := by
  obtain ⟨hwalk, hchain⟩ := walks_traverse query tasks 10 ([], []) root
  rw [triggerChain, hchain]
  constructor
  · rintro (h | ⟨d, hd, -, ha⟩)
    · cases h
    · exact ⟨d, ha, _, hwalk, hd⟩
  · rintro ⟨d, ha, seen, hseen, hd⟩
    cases hwalk.unique hseen
    exact .inr ⟨d, hd, List.not_mem_nil, ha⟩

theorem reached_iff :
    Reached query tasks root ↔ ∀ t ∈ tasks.rows, ¬t.status.IsTerminal →
      TransGen (DependsOn tasks) t.id root → t.id ∈ triggerChain query tasks root := by
  refine forall₄_congr (fun t ht _ _ => ?_)
  rw [mem_triggerChain_iff]
  constructor
  · rintro ⟨d, hd, hquery, hfollowed⟩
    exact ⟨d, mem_dependentsOf.mpr ⟨t, ht, rfl, hd, hquery⟩, hfollowed⟩
  · rintro ⟨d, hd, hfollowed⟩
    obtain ⟨u, hu, hid, hdep, hquery⟩ := mem_dependentsOf.mp hd
    obtain rfl : u = t := Table.eq_of_mem_of_key_eq hu ht hid
    exact ⟨d, hdep, hquery, hfollowed⟩

/-! ### Which graphs are shallow enough -/

theorem transGen_next_iff {a : String}
    (hfinds : ∀ t ∈ tasks.rows, ∀ d ∈ t.dependsOn, query d t.dependsOn = true) :
    TransGen (fun x y => y ∈ dependentsOf query tasks x) root a ↔
      TransGen (DependsOn tasks) a root := by
  have hnext : (fun x y => y ∈ dependentsOf query tasks x) = Function.swap (DependsOn tasks) := by
    funext x y
    refine propext ⟨dependsOn_of_mem_dependentsOf, fun ⟨t, ht, hd⟩ => ?_⟩
    have hrow := Table.mem_of_get? ht
    exact mem_dependentsOf.mpr ⟨t, hrow, Table.key_of_get? ht, hd, hfinds t hrow x hd⟩
  rw [hnext]
  exact transGen_swap

theorem exists_depthFirst (query : RowQuery) (tasks : Table Task) (root : String) :
    ∃ seen, DepthFirst (dependentsOf query tasks) 10 [root] [] seen :=
  ⟨_, (walks_traverse query tasks 10 ([], []) root).1⟩

/-- No task is missed where the query finds every row and no chain of distinct tasks
below the root has more than ten links. -/
theorem reached_of_shallow
    (hfinds : ∀ t ∈ tasks.rows, ∀ d ∈ t.dependsOn, query d t.dependsOn = true)
    (hshallow : DepthFirst.Shallow (dependentsOf query tasks) 10 root)
    (hended : ∀ t, tasks.get? root = some t → t.status.IsTerminal) :
    Reached query tasks root := by
  intro t ht hopen hbelow
  obtain ⟨seen, hseen⟩ := exists_depthFirst query tasks root
  have hne : t.id ≠ root := by
    rintro rfl
    exact hopen (hended t (Table.get?_of_mem ht))
  obtain ⟨d, hd, hmem⟩ :=
    hseen.found_of_shallow hshallow ((transGen_next_iff hfinds).mpr hbelow) hne
  have hdep := mem_dependsOn ht (dependsOn_of_mem_dependentsOf hmem)
  exact ⟨d, hdep, hfinds t ht d hdep, seen, hseen, hd⟩

/-- A task that is not missed is at most ten links from the root. -/
theorem within_of_reached (h : Reached query tasks root) {t : Task} (ht : t ∈ tasks.rows)
    (hopen : ¬t.status.IsTerminal) (hbelow : TransGen (DependsOn tasks) t.id root) :
    ∃ d ∈ t.dependsOn, ∃ n < 10, DepthFirst.Within (dependentsOf query tasks) n root d := by
  obtain ⟨d, hd, -, seen, hseen, hmem⟩ := h t ht hopen hbelow
  rcases hseen.within_of_mem d hmem with hnil | ⟨x, hx, hnear⟩
  · cases hnil
  · rw [List.mem_singleton.mp hx] at hnear
    exact ⟨d, hd, hnear⟩

end Walk

/-! ## What the cascade does -/

section Cascade

variable [Unicode] {k : Backend} {query : RowQuery} {reason root : String}
  {tasks tasks' : Table Task}

theorem cascade_spec (k : Backend) (root reason : String) (w : Timed Board) :
    Yields k (Tasks.cascadeCancelDependents root reason) w
      (fun r w' => r = .ok (triggerChain k.dependentRows w.state.tasks root) ∧
        List.Forall₂ (Withdrawn reason (· ∈ triggerChain k.dependentRows w.state.tasks root))
          w.state.tasks.rows w'.state.tasks.rows) := by
  unfold Tasks.cascadeCancelDependents
  refine yields_store (fun ids w₁ hC => ?_)
  obtain ⟨rfl, hsame⟩ := hC.reply
  refine Wp.seq (I := fun _ w' =>
      List.Forall₂ (Withdrawn reason (· ∈ triggerChain k.dependentRows w.state.tasks root))
        w.state.tasks.rows w'.state.tasks.rows)
    ((yields_cancelDependents reason _ w₁).mono ?_) (fun _ w' h => ⟨rfl, h⟩)
  rintro r w' ⟨rfl, hrows⟩
  rw [hsame] at hrows
  exact ⟨⟨⟩, rfl, hrows⟩

omit [Unicode] in
theorem cancelsBelow_of_covers (hcovers : Reached query tasks root)
    (h : List.Forall₂ (Withdrawn reason (· ∈ triggerChain query tasks root))
      tasks.rows tasks'.rows) : CancelsBelow reason root tasks tasks' := by
  rw [reached_iff] at hcovers
  refine Table.forall₂_imp_of_mem h (fun t ht t' hrow => ?_)
  cases hrow with
  | cancelled hchain hopen hstatus =>
      exact .cancelled (transGen_of_mem_triggerChain hchain) hopen hstatus
  | kept hended =>
      refine .kept (fun hbelow => ?_)
      by_cases hopen : t.status.IsTerminal
      · exact hopen
      · exact hended (hcovers t ht hopen hbelow)

omit [Unicode] in
theorem reached_of_cancelsBelow (h : CancelsBelow reason root tasks tasks')
    (hrows : List.Forall₂ (Withdrawn reason (· ∈ triggerChain query tasks root))
      tasks.rows tasks'.rows) : Reached query tasks root := by
  rw [reached_iff]
  intro t ht hopen hbelow
  have hevolves := Table.evolves_of_forall₂ (N := fun _ => False) h
  obtain ⟨t', ht', hrow⟩ :=
    hevolves.get?_of_get? (fun _ _ hrow => hrow.id_eq) (Table.get?_of_mem ht)
  -- the row is no longer open, so the walk found it
  have hended : t'.status.IsTerminal := by
    cases hrow with
    | cancelled _ _ hstatus => exact isTerminal_of_withdrawal hstatus
    | kept hended => exact hended hbelow
  have hevolves' := Table.evolves_of_forall₂ (N := fun _ => False) hrows
  obtain ⟨t'', ht'', hrow'⟩ :=
    hevolves'.get?_of_get? (fun _ _ hrow => hrow.id_eq) (Table.get?_of_mem ht)
  obtain rfl := Option.some.inj (ht'.symm.trans ht'')
  cases hrow' with
  | cancelled hchain _ _ => exact hchain
  | kept _ => exact absurd hended hopen

/-- The cascade is complete exactly if each open task below depends on one that
the walk follows, by a row that the query finds. -/
theorem cascade_complete_iff (k : Backend) (root reason : String) (w : Timed k.Store) :
    CancelsBelow reason root (k.board w.state).tasks
        (k.board ((Tasks.cascadeCancelDependents root reason).run k.tick w).2.state).tasks ↔
      Reached k.dependentRows (k.board w.state).tasks root := by
  obtain ⟨-, hrows⟩ := (along_of_wp k.implements (cascade_spec k root reason (k.view w))).2
  exact ⟨fun h => reached_of_cancelsBelow h hrows, fun h => cancelsBelow_of_covers h hrows⟩

end Cascade

section Example

local instance asciiCascade : Unicode := Unicode.ascii

/-- Twelve tasks, each of which waits for the one before it. -/
def longChain : List TaskPlan :=
  { taskId := "a", title := "a" } ::
    [("b", "a"), ("c", "b"), ("d", "c"), ("e", "d"), ("f", "e"), ("g", "f"), ("h", "g"),
      ("i", "h"), ("j", "i"), ("k", "j"), ("l", "k")].map
        (fun (taskId, dep) => { taskId := taskId, title := taskId, dependsOn := [dep] })

/-- The in-memory store with the twelve tasks, the first of which has just failed. -/
def chainedTasks : Timed ClusterState :=
  (Backend.memory.tick (.setTaskStatus "a" .failed "broken")
    (Backend.memory.runCalls [⟨.createBatch longChain, fun _ => 1⟩]
      ⟨{ index_ok := indexOk_initial }, fun _ => 2⟩)).2

theorem eleventh_below_first : TransGen (DependsOn chainedTasks.state.tasks) "l" "a" := by
  have hchain : List.IsChain (DependsOn chainedTasks.state.tasks)
      ["k", "j", "i", "h", "g", "f", "e", "d", "c", "b", "a"] := by
    decide +kernel
  have hlast : DependsOn chainedTasks.state.tasks "l" "k" := by
    decide +kernel
  exact .head' hlast (List.relationReflTransGen_of_exists_isChain_cons _ hchain rfl)

/-- The eleventh task below the one that fails is left waiting for it. -/
theorem cascade_misses_eleventh :
    ¬CancelsBelow "parent a failed" "a" chainedTasks.state.tasks
      ((Tasks.cascadeCancelDependents "a" "parent a failed").run Backend.memory.tick
        chainedTasks).2.state.tasks := by
  intro h
  have hpending : (((Tasks.cascadeCancelDependents "a" "parent a failed").run
      Backend.memory.tick chainedTasks).2.state.tasks.get? "l").map Task.status =
      some .pending := by
    decide +kernel
  obtain ⟨t', ht', hstatus⟩ := Option.map_eq_some_iff.mp hpending
  have hevolves := Table.evolves_of_forall₂ (N := fun _ => False) h
  rcases hevolves.of_get? (fun _ _ hrow => hrow.id_eq) ht' with ⟨t, ht, hrow⟩ | ⟨-, hfalse⟩
  · have hopen : ¬t'.status.IsTerminal := TaskStatus.not_isTerminal_of_pending hstatus
    cases hrow with
    | cancelled _ _ hended => exact hopen (isTerminal_of_withdrawal hended)
    | kept hended =>
        refine hopen (hended ?_)
        rw [show t'.id = "l" from Table.key_of_get? ht]
        exact eleventh_below_first
  · exact hfalse

end Example

end HermesCluster
