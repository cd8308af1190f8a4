import HermesCluster.Lib.Machine
/-!
# Queues that end their workers

Workers take items from one queue, in any number and at any pace. A worker that
finds the queue empty looks at a flag before it asks again, and leaves if the flag is
set. A queue may also hold pills: who takes a pill leaves, whatever the flag says.
-/

universe u v w

/-- Where a worker is. -/
inductive Worker (α : Type u) where
  | asking
  | looking
  | holding (a : α)
  | ended
  deriving DecidableEq, Repr

def Worker.held {α : Type u} : Worker α → List α
  | holding a => [a]
  | _ => []

def Worker.isAlive {α : Type u} : Worker α → Bool
  | ended => false
  | _ => true

/-- The flag, the queue with its oldest entry first (`none` is a pill), and the
workers there have been. -/
structure PillQueue (α : Type u) where
  flag : Bool := false
  queue : List (Option α) := []
  workers : List (Worker α) := []

/-- What can happen to the queue and its workers. -/
inductive PillOp (α : Type u) where
  | idle
  | offer (entry : Option α)
  | arm
  | tell
  | step (i : Nat)
  | crash (i : Nat)

/-- What became of an item. -/
inductive PillEvent (α : Type u) where
  | none
  | took (a : α)
  | finished (a : α)
  | lost (a : α)
  deriving DecidableEq, Repr

namespace PillOp

variable {α : Type u}

/-- The item that an operation adds. -/
def items : PillOp α → List α
  | offer (some a) => [a]
  | _ => []

end PillOp

namespace PillEvent

variable {α : Type u}

def taken : PillEvent α → List α
  | took a => [a]
  | _ => []

def done : PillEvent α → List α
  | finished a => [a]
  | _ => []

def dropped : PillEvent α → List α
  | lost a => [a]
  | _ => []

end PillEvent

namespace PillQueue

variable {α : Type u}

/-- The items that wait. -/
def waiting (s : PillQueue α) : List α :=
  s.queue.filterMap id

/-- The items in the hands of the workers. -/
def inHand (s : PillQueue α) : List α :=
  s.workers.flatMap Worker.held

/-- One step of a worker. -/
def work (i : Nat) (s : PillQueue α) : PillEvent α × PillQueue α :=
  match s.workers[i]? with
  | some .asking =>
      match s.queue with
      | [] => (.none, { s with workers := s.workers.set i .looking })
      | none :: rest => (.none, { s with queue := rest, workers := s.workers.set i .ended })
      | some a :: rest =>
          (.took a, { s with queue := rest, workers := s.workers.set i (.holding a) })
  | some .looking =>
      (.none, { s with workers := s.workers.set i (if s.flag = true then .ended else .asking) })
  | some (.holding a) => (.finished a, { s with workers := s.workers.set i .asking })
  | some .ended | none => (.none, s)

/-- A worker fails over the item in its hands. -/
def fail (i : Nat) (s : PillQueue α) : PillEvent α × PillQueue α :=
  match s.workers[i]? with
  | some (.holding a) => (.lost a, { s with workers := s.workers.set i .ended })
  | _ => (.none, s)

def apply : PillOp α → PillQueue α → PillEvent α × PillQueue α
  | .idle, s => (.none, s)
  | .offer entry, s => (.none, { s with queue := s.queue ++ [entry] })
  | .arm, s => (.none, { s with flag := false, workers := s.workers ++ [.asking] })
  | .tell, s => (.none, { s with flag := true })
  | .step i, s => s.work i
  | .crash i, s => s.fail i

/-! ## What can happen -/

/-- All that an operation can do. -/
inductive Change (s : PillQueue α) : PillOp α → PillEvent α → PillQueue α → Prop
  | same {op} (hop : op.items = []) : Change s op .none s
  | offer {entry} : Change s (.offer entry) .none { s with queue := s.queue ++ [entry] }
  | arm : Change s .arm .none { s with flag := false, workers := s.workers ++ [.asking] }
  | tell : Change s .tell .none { s with flag := true }
  | looks {i} (hworker : s.workers[i]? = some .asking) (hqueue : s.queue = []) :
      Change s (.step i) .none { s with workers := s.workers.set i .looking }
  | swallows {i rest} (hworker : s.workers[i]? = some .asking) (hqueue : s.queue = none :: rest) :
      Change s (.step i) .none { s with queue := rest, workers := s.workers.set i .ended }
  | takes {i a rest} (hworker : s.workers[i]? = some .asking) (hqueue : s.queue = some a :: rest) :
      Change s (.step i) (.took a) { s with queue := rest, workers := s.workers.set i (.holding a) }
  | leaves {i} (hworker : s.workers[i]? = some .looking) (hflag : s.flag = true) :
      Change s (.step i) .none { s with workers := s.workers.set i .ended }
  | stays {i} (hworker : s.workers[i]? = some .looking) (hflag : s.flag = false) :
      Change s (.step i) .none { s with workers := s.workers.set i .asking }
  | finishes {i a} (hworker : s.workers[i]? = some (.holding a)) :
      Change s (.step i) (.finished a) { s with workers := s.workers.set i .asking }
  | fails {i a} (hworker : s.workers[i]? = some (.holding a)) :
      Change s (.crash i) (.lost a) { s with workers := s.workers.set i .ended }

theorem change_work (i : Nat) (s : PillQueue α) : s.Change (.step i) (s.work i).1 (s.work i).2 := by
  unfold work
  split
  · rename_i hworker
    split
    · exact .looks hworker (by assumption)
    · exact .swallows hworker (by assumption)
    · exact .takes hworker (by assumption)
  · rename_i hworker
    by_cases hflag : s.flag = true
    · rw [if_pos hflag]
      exact .leaves hworker hflag
    · rw [if_neg hflag]
      exact .stays hworker (Bool.not_eq_true _ ▸ hflag)
  · exact .finishes (by assumption)
  all_goals exact .same rfl

theorem change_fail (i : Nat) (s : PillQueue α) :
    s.Change (.crash i) (s.fail i).1 (s.fail i).2 := by
  unfold fail
  split
  · exact .fails (by assumption)
  · exact .same rfl

theorem change_apply (op : PillOp α) (s : PillQueue α) :
    s.Change op (s.apply op).1 (s.apply op).2 := by
  cases op with
  | idle => exact .same rfl
  | offer entry => exact .offer
  | arm => exact .arm
  | tell => exact .tell
  | step i => exact change_work i s
  | crash i => exact change_fail i s

/-! ## One worker changes place -/

variable {s : PillQueue α} {i : Nat} {p : Worker α}

theorem workers_eq (h : s.workers[i]? = some p) :
    s.workers = s.workers.take i ++ p :: s.workers.drop (i + 1) := by
  obtain ⟨hi, rfl⟩ := List.getElem?_eq_some_iff.mp h
  rw [← List.drop_eq_getElem_cons hi, List.take_append_drop]

theorem set_workers_eq (q : Worker α) (h : s.workers[i]? = some p) :
    s.workers.set i q = s.workers.take i ++ q :: s.workers.drop (i + 1) := by
  obtain ⟨hi, -⟩ := List.getElem?_eq_some_iff.mp h
  rw [List.set_eq_take_append_cons_drop, if_pos hi]

theorem held_workers (q : Worker α) (h : s.workers[i]? = some p) :
    (p.held ++ (s.workers.set i q).flatMap Worker.held).Perm (q.held ++ s.inHand) := by
  unfold inHand
  rw [set_workers_eq q h]
  conv_rhs => rw [workers_eq h]
  simp only [List.flatMap_append, List.flatMap_cons]
  generalize (s.workers.take i).flatMap Worker.held = before
  generalize (s.workers.drop (i + 1)).flatMap Worker.held = later
  calc p.held ++ (before ++ (q.held ++ later))
      _ = (p.held ++ before ++ q.held) ++ later := by simp only [List.append_assoc]
      _ |>.Perm ((q.held ++ (before ++ p.held)) ++ later) := by
        refine List.Perm.append_right later ?_
        exact List.perm_append_comm.trans (List.Perm.append_left _ List.perm_append_comm)
      _ = q.held ++ (before ++ (p.held ++ later)) := by simp only [List.append_assoc]

/-! ## No item is lost -/

/-- Items leave the queue in the order in which they came. -/
theorem Change.waiting_eq {op : PillOp α} {ev : PillEvent α} {s' : PillQueue α}
    (h : s.Change op ev s') : s.waiting ++ op.items = ev.taken ++ s'.waiting := by
  unfold waiting
  cases h with
  | same hop => simp [hop, PillEvent.taken]
  | @offer entry => cases entry <;> simp [PillOp.items, PillEvent.taken]
  | arm | tell => simp [PillOp.items, PillEvent.taken]
  | swallows _ hqueue | takes _ hqueue => simp [hqueue, PillOp.items, PillEvent.taken]
  | looks | leaves | stays | finishes | fails => simp [PillOp.items, PillEvent.taken]

/-- An item that was taken is in one worker's hands until that worker is done with it. -/
theorem Change.inHand_perm {op : PillOp α} {ev : PillEvent α} {s' : PillQueue α}
    (h : s.Change op ev s') :
    (ev.taken ++ s.inHand).Perm (ev.done ++ ev.dropped ++ s'.inHand) := by
  cases h with
  | same | offer | tell => exact List.Perm.refl _
  | arm =>
      apply List.Perm.of_eq
      simp [inHand, Worker.held, PillEvent.taken, PillEvent.done, PillEvent.dropped]
  | looks hworker => exact (held_workers .looking hworker).symm
  | takes hworker => exact (held_workers (.holding _) hworker).symm
  | stays hworker | finishes hworker => exact (held_workers .asking hworker).symm
  | swallows hworker | leaves hworker | fails hworker =>
      exact (held_workers .ended hworker).symm

end PillQueue
