import HermesCluster.State.Transitions
/-!
# Ended tasks stay ended

The in-memory store guards the terminal statuses in `set_task_status` and in
every other operation that writes a status, so that no run of its operations
revives an ended task. A creation must not reuse the id of a stored task.
-/

namespace HermesCluster

/-- An ended task keeps its status; a requested cancellation may be
acknowledged. -/
def StaysEnded (t t' : Task) : Prop :=
  t.status.IsTerminal →
    t'.status = t.status ∨ (t.status = .cancelRequested ∧ t'.status = .cancelled)

theorem StaysEnded.of_status_eq {t t' : Task} (h : t'.status = t.status) : StaysEnded t t' :=
  fun _ => .inl h

theorem StaysEnded.isTerminal {t t' : Task} (h : StaysEnded t t') (hended : t.status.IsTerminal) :
    t'.status.IsTerminal := by
  rcases h hended with heq | ⟨-, heq⟩
  · rwa [heq]
  · rw [heq]
    exact .inr (.inr (.inl rfl))

theorem StaysEnded.trans {t t' t'' : Task} (h : StaysEnded t t') (h' : StaysEnded t' t'') :
    StaysEnded t t'' := by
  intro hended
  rcases h hended with heq | ⟨hrequested, hcancelled⟩
  · rcases h' (heq ▸ hended) with heq' | ⟨hrequested, hcancelled⟩
    · exact .inl (heq'.trans heq)
    · exact .inr ⟨heq.symm.trans hrequested, hcancelled⟩
  · rcases h' (.inr (.inr (.inl hcancelled))) with heq | ⟨hrequested', -⟩
    · exact .inr ⟨hrequested, heq.trans hcancelled⟩
    · rw [hcancelled] at hrequested'
      cases hrequested'

/-- Every stored task stays, and stays ended once it has ended. -/
def EndedKept (b b' : Board) : Prop :=
  ∀ taskId t, b.tasks.get? taskId = some t →
    ∃ t', b'.tasks.get? taskId = some t' ∧ StaysEnded t t'

theorem EndedKept.refl (b : Board) : EndedKept b b :=
  fun _ t ht => ⟨t, ht, StaysEnded.of_status_eq rfl⟩

theorem EndedKept.trans {b b' b'' : Board} (h : EndedKept b b') (h' : EndedKept b' b'') :
    EndedKept b b'' := by
  intro taskId t ht
  obtain ⟨t', ht', hkept⟩ := h taskId t ht
  obtain ⟨t'', ht'', hkept'⟩ := h' taskId t' ht'
  exact ⟨t'', ht'', hkept.trans hkept'⟩

theorem staysEnded_of_not_refuses {t t' : Task} {status : TaskStatus}
    (h : ¬ClusterState.Refuses t.status status) (ht' : t'.status = status) :
    StaysEnded t t' := by
  intro hended
  by_contra hchanged
  refine h ⟨hended, ?_⟩
  rintro ⟨hrequested, rfl⟩
  exact hchanged (.inr ⟨hrequested, ht'⟩)

section Steps

variable [Unicode] {k : Backend} {now : Nat} {b : Board} {op : StoreOp} {t t' : Task}

/-- The operations that may write a status over an ended one: a blind status
write, a sync message, a creation under a stored id. -/
def WritesOverEnded (k : Backend) (op : StoreOp) (t : Task) : Prop :=
  match op with
  | .setTaskStatus taskId status _ =>
      k ≠ .memory ∧ t.id = taskId ∧ ClusterState.Refuses t.status status
  | .handleSyncMessage _ => k ≠ .memory
  | .createTask plan => k = .memory ∧ t.id = plan.taskId
  | .createTasksBatch plans => k = .memory ∧ ∃ plan ∈ plans, t.id = plan.taskId
  | _ => False

/-- Every other rewrite respects an end. -/
theorem Change.staysEnded (h : Change k now b op t t') (hop : ¬WritesOverEnded k op t) :
    StaysEnded t t' := by
  cases h with
  | @status taskId status failReason _ hid hguard =>
      refine staysEnded_of_not_refuses (fun href => hop ?_) rfl
      exact ⟨fun hk => hguard hk href, hid, href⟩
  | unassign _ hopen _ => exact fun hended => absurd hended hopen
  | unblock _ hblocked =>
      exact fun hended => absurd hended (TaskStatus.not_isTerminal_of_blocked hblocked)
  | resume _ hblocked =>
      exact fun hended => absurd hended (TaskStatus.not_isTerminal_of_blocked hblocked)
  | requeue _ hopen _ => exact fun hended => absurd hended hopen
  | demote _ _ _ hready =>
      exact fun hended => absurd hended (TaskStatus.not_isTerminal_of_ready hready)
  | promote hpending _ _ =>
      exact fun hended => absurd hended (TaskStatus.not_isTerminal_of_pending hpending)
  | assign hcandidate =>
      exact fun hended => absurd hended (TaskStatus.not_isTerminal_of_ready hcandidate.2.1)
  | sync _ _ _ _ hguard => exact staysEnded_of_not_refuses hguard rfl
  | overwrite hsql => exact absurd hsql hop
  | replace hmemory hid => exact absurd ⟨hmemory, hid⟩ hop
  | replaceBatch hmemory hplan hid => exact absurd ⟨hmemory, _, hplan, hid⟩ hop
  | promoteRow _ _ _ hpending =>
      exact fun hended => absurd hended (TaskStatus.not_isTerminal_of_pending hpending)
  | promoteBatch _ _ _ _ hpending =>
      exact fun hended => absurd hended (TaskStatus.not_isTerminal_of_pending hpending)
  | result | ballot | cancelRequeue | dependencies | hold | writeRow =>
      exact StaysEnded.of_status_eq rfl

theorem Backend.endedKept_step (k : Backend) (now : Nat) (op : StoreOp) (s : k.Store)
    (hop : ∀ taskId t, (k.board s).tasks.get? taskId = some t → ¬WritesOverEnded k op t) :
    EndedKept (k.board s) (k.board (k.step now op s).2) := by
  intro taskId t ht
  obtain ⟨t', ht', hrewrites⟩ :=
    (k.evolves now op s).get?_of_get? (fun _ _ h => Rewrites.id_eq h) ht
  refine ⟨t', ht', ?_⟩
  rcases hrewrites with rfl | hchange
  · exact StaysEnded.of_status_eq rfl
  · exact hchange.staysEnded (hop taskId t ht)

end Steps

/-! ## Runs of the in-memory store -/

namespace ClusterState

section Runs

/-- A creation is under an id that no stored task has. -/
def CreatesFresh (s : ClusterState) (op : StoreOp) : Prop :=
  match op with
  | .createTask plan => s.tasks.get? plan.taskId = none
  | .createTasksBatch plans => ∀ plan ∈ plans, s.tasks.get? plan.taskId = none
  | _ => True

variable [Unicode]

/-- The state after some operations, each at its time. -/
def runOps : List (Nat × StoreOp) → ClusterState → ClusterState
  | [], s => s
  | (now, op) :: ops, s => runOps ops (step now op s).2

/-- Every creation of a run is fresh. -/
def FreshRun : List (Nat × StoreOp) → ClusterState → Prop
  | [], _ => True
  | (now, op) :: ops, s => CreatesFresh s op ∧ FreshRun ops (step now op s).2

theorem endedKept_step {now : Nat} {op : StoreOp} {s : ClusterState}
    (hfresh : CreatesFresh s op) : EndedKept s.toBoard (step now op s).2.toBoard := by
  refine Backend.endedKept_step .memory now op s (fun taskId t ht hover => ?_)
  have hid : t.id = taskId := Table.key_of_get? ht
  have hused : s.tasks.get? t.id = some t := hid ▸ ht
  cases op with
  | setTaskStatus => exact hover.1 rfl
  | handleSyncMessage => exact hover rfl
  | createTask plan =>
      rw [hover.2, show s.tasks.get? plan.taskId = none from hfresh] at hused
      cases hused
  | createTasksBatch plans =>
      obtain ⟨-, plan, hplan, htid⟩ := hover
      rw [htid, hfresh plan hplan] at hused
      cases hused
  | _ => exact hover

/-- Through any run of operations of the in-memory store, from any state, a task
that has ended stays as it ended, and a requested cancellation can only become
a cancellation. -/
theorem ended_forever (ops : List (Nat × StoreOp)) (s : ClusterState)
    (hfresh : FreshRun ops s) : EndedKept s.toBoard (runOps ops s).toBoard := by
  induction ops generalizing s with
  | nil => exact EndedKept.refl _
  | cons timed ops ih =>
      obtain ⟨now, op⟩ := timed
      obtain ⟨hop, hrest⟩ := hfresh
      exact (endedKept_step hop).trans (ih _ hrest)

end Runs

section Example

local instance : Unicode := Unicode.ascii

/-- A store with one completed task. -/
def endedStore : ClusterState where
  tasks := ⟨[{ id := "a", title := "a", status := .completed, createdAt := 0, updatedAt := 0 }],
    by decide⟩
  index_ok := indexOk_initial

/-- A creation, and everything that could revive the completed task. -/
def revivals : List (Nat × StoreOp) :=
  [(1, .createTask { taskId := "b", title := "b" }), (2, .setTaskStatus "a" .ready ""),
    (3, .requeueTask "a" "again"), (4, .unassignTask "a"), (5, .unblockToReady "a"),
    (6, .handleSyncMessage ⟨9, some { taskId := "a", title := "a", status := "running",
                                      version := 9 }⟩)]

theorem ended_forever_revivals :
    FreshRun revivals endedStore ∧
      EndedKept endedStore.toBoard (runOps revivals endedStore).toBoard :=
  have hfresh : FreshRun revivals endedStore :=
    ⟨rfl, trivial, trivial, trivial, trivial, trivial, trivial⟩
  ⟨hfresh, ended_forever revivals endedStore hfresh⟩

end Example

end ClusterState

end HermesCluster
