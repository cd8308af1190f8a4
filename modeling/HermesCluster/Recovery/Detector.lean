import HermesCluster.Lib.PillQueue
/-!
# Offline detector

`recovery/detector.py`: nodes that went offline are reported to a queue of a bounded
size, and a thread takes the reports and recovers the nodes one by one. A call of
`start` is one step; the threads, those who report and other calls go on between the
steps of a `stop`.
-/

namespace HermesCluster

/-- `OfflineEvent`. -/
structure OfflineEvent where
  nodeId : String
  timestamp : Nat
  deriving DecidableEq, Repr

/-- What is left to do in a call of `stop`, after its locked part. -/
inductive StopPhase where
  | looking
  | putting
  deriving DecidableEq, Repr

/-- The attributes of `Detector`, with its threads; `_stop_event` is the flag of the
queue. -/
structure Detector where
  running : Bool := false
  /-- `_thread`, by its place among the threads there have been. -/
  thread : Option Nat := none
  /-- The calls of `stop` that are past their locked part. -/
  stopping : List StopPhase := []
  pool : PillQueue OfflineEvent := {}

namespace Detector

/-- The size of `_event_queue`. -/
def maxsize : Nat := 100

/-- What happens to a detector: a report, a call, a step of a call of `stop` or of a
thread. A thread crashes when `_handle_offline` raises. -/
inductive Act where
  | notifyOffline (event : OfflineEvent)
  | start
  | stop
  | goOn (i : Nat)
  | loop (i : Nat)
  | crash (i : Nat)
  deriving DecidableEq, Repr

/-- `self._thread and self._thread.is_alive()`. -/
def threadAlive (s : Detector) : Bool :=
  match s.thread with
  | none => false
  | some i => ((s.pool.workers[i]?).map Worker.isAlive).getD false

/-- What an act does to the queue and the threads: `put_nowait` refuses what finds
the queue full, and `put` waits. -/
def op : Act → Detector → PillOp OfflineEvent
  | .notifyOffline event, s =>
      if s.pool.queue.length < maxsize then .offer (some event) else .idle
  | .start, s => if s.running = true then .idle else .arm
  | .stop, s => if s.running = true then .tell else .idle
  | .goOn i, s =>
      if s.stopping[i]? = some .putting ∧ s.pool.queue.length < maxsize then .offer none
      else .idle
  | .loop i, _ => .step i
  | .crash i, _ => .crash i

/-- `start`. -/
def start (s : Detector) : Detector :=
  if s.running = true then s
  else { s with running := true, thread := some s.pool.workers.length }

/-- The locked part of `stop`. -/
def stop (s : Detector) : Detector :=
  if s.running = true then { s with running := false, stopping := s.stopping ++ [.looking] }
  else s

/-- The rest of a call of `stop`: a pill is put if the thread is alive. -/
def goOn (i : Nat) (s : Detector) : Detector :=
  match s.stopping[i]? with
  | none => s
  | some .looking =>
      { s with
        stopping :=
          if s.threadAlive = true then s.stopping.set i .putting else s.stopping.eraseIdx i }
  | some .putting =>
      if s.pool.queue.length < maxsize then { s with stopping := s.stopping.eraseIdx i } else s

def step (a : Act) (s : Detector) : Detector :=
  { (match a with
      | .start => s.start
      | .stop => s.stop
      | .goOn i => s.goOn i
      | .notifyOffline _ | .loop _ | .crash _ => s) with
    pool := (s.pool.apply (s.op a)).2 }

/-- A detector answers with what it does to its queue, and what became of a report. -/
def machine : Machine Detector Act (PillOp OfflineEvent × PillEvent OfflineEvent) :=
  fun a s => ((s.op a, (s.pool.apply (s.op a)).1), s.step a)

abbrev Done := Act × PillOp OfflineEvent × PillEvent OfflineEvent

/-- The reports that were put into the queue. -/
def accepted (dones : List Done) : List OfflineEvent :=
  dones.flatMap (fun d => d.2.1.items)

/-- The reports that a thread took. -/
def taken (dones : List Done) : List OfflineEvent :=
  dones.flatMap (fun d => d.2.2.taken)

/-- The reports whose node was recovered. -/
def handled (dones : List Done) : List OfflineEvent :=
  dones.flatMap (fun d => d.2.2.done)

/-- The reports that a thread died over. -/
def lost (dones : List Done) : List OfflineEvent :=
  dones.flatMap (fun d => d.2.2.dropped)

/-! ## Every report is accounted for -/

/-- Where the accepted reports are. -/
structure Accounted (dones : List Done) (s : Detector) : Prop where
  inOrder : accepted dones = taken dones ++ s.pool.waiting
  once : (taken dones).Perm (handled dones ++ lost dones ++ s.pool.inHand)

theorem Accounted.concat {dones : List Done} {s s' : Detector} {a : Act}
    {op : PillOp OfflineEvent} {ev : PillEvent OfflineEvent} (h : Accounted dones s)
    (hchange : s.pool.Change op ev s'.pool) : Accounted (dones ++ [(a, op, ev)]) s' := by
  obtain ⟨horder, honce⟩ := h
  simp only [accepted, taken, handled, lost] at horder honce
  constructor
  · simp only [accepted, taken, List.flatMap_append, List.flatMap_singleton]
    rw [horder, List.append_assoc, hchange.waiting_eq, List.append_assoc]
  · simp only [taken, handled, lost, List.flatMap_append, List.flatMap_singleton]
    generalize dones.flatMap (fun d => d.2.2.taken) = took at honce ⊢
    generalize dones.flatMap (fun d => d.2.2.done) = did at honce ⊢
    generalize dones.flatMap (fun d => d.2.2.dropped) = gone at honce ⊢
    calc took ++ ev.taken
      _ |>.Perm (did ++ gone ++ s.pool.inHand ++ ev.taken) := List.Perm.append_right _ honce
      _ |>.Perm (did ++ gone ++ (ev.taken ++ s.pool.inHand)) := by
        rw [List.append_assoc]
        exact List.Perm.append_left _ List.perm_append_comm
      _ |>.Perm (did ++ gone ++ (ev.done ++ ev.dropped ++ s'.pool.inHand)) :=
        List.Perm.append_left _ hchange.inHand_perm
      _ |>.Perm (did ++ ev.done ++ (gone ++ ev.dropped) ++ s'.pool.inHand) := by
        simp only [List.append_assoc]
        refine List.Perm.append_left did ?_
        rw [← List.append_assoc, ← List.append_assoc ev.done]
        exact List.Perm.append_right _ List.perm_append_comm

theorem accounted_after (acts : List Act) :
    Accounted (machine.answers acts {}) (machine.after acts {}) := by
  refine Machine.tracks_of_step (P := fun _ _ => True) ⟨rfl, List.Perm.refl _⟩
    (Machine.meets_of_forall (fun _ _ => trivial)) ?_
  intro past s a hpast _
  exact hpast.concat (PillQueue.change_apply (s.op a) s.pool)

/-- In every run, the reports in the queue are the latest that were accepted, and each
of the others was taken once: its node was recovered, a thread died over it, or a
thread has it in hand. -/
theorem reports_accounted (acts : List Act) :
    let dones := machine.answers acts {}
    let pool := (machine.after acts {}).pool
    accepted dones = taken dones ++ pool.waiting ∧
      (accepted dones).Perm (handled dones ++ lost dones ++ pool.inHand ++ pool.waiting) := by
  have haccounted := accounted_after acts
  refine ⟨haccounted.inOrder, ?_⟩
  rw [haccounted.inOrder]
  exact List.Perm.append_right _ haccounted.once

/-! ## A detector that nobody starts -/

variable {s : Detector}

theorem step_notifyOffline_of_lt {event : OfflineEvent} (h : s.pool.queue.length < maxsize) :
    s.step (.notifyOffline event) =
      { s with pool := { s.pool with queue := s.pool.queue ++ [some event] } } := by
  simp [step, op, if_pos h, PillQueue.apply]

theorem step_notifyOffline_of_full {event : OfflineEvent}
    (h : ¬s.pool.queue.length < maxsize) : s.step (.notifyOffline event) = s := by
  simp [step, op, if_neg h, PillQueue.apply]

/-- The reports that were made. -/
def reported (acts : List Act) : List OfflineEvent :=
  acts.flatMap (fun
    | .notifyOffline event => [event]
    | _ => [])

theorem reported_concat (acts : List Act) (a : Act) :
    reported (acts ++ [a]) = reported acts ++ reported [a] := by
  simp only [reported, List.flatMap_append]

/-- It has no thread, and its queue fills up with the first reports. -/
structure Idle (dones : List Done) (s : Detector) : Prop where
  running : s.running = false
  stopping : s.stopping = []
  workers : s.pool.workers = []
  queue : s.pool.queue = ((reported (dones.map Prod.fst)).take maxsize).map some
  quiet : ∀ d ∈ dones, d.2.2 = .none

/-- An act that reports nothing changes nothing. -/
theorem Idle.same {dones : List Done} (h : Idle dones s) {a : Act} (hreported : reported [a] = [])
    (hstep : s.step a = s) (hquiet : (s.pool.apply (s.op a)).1 = .none) :
    Idle (dones ++ [(a, (machine a s).1)]) (s.step a) := by
  rw [hstep]
  refine ⟨h.running, h.stopping, h.workers, ?_, ?_⟩
  · rw [List.map_append, List.map_singleton, reported_concat, hreported, List.append_nil]
    exact h.queue
  · intro d hd
    rcases List.mem_append.mp hd with hold | hnew
    · exact h.quiet d hold
    · rw [List.mem_singleton.mp hnew]
      exact hquiet

theorem Idle.notifyOffline {dones : List Done} (h : Idle dones s) (event : OfflineEvent) :
    Idle (dones ++ [(.notifyOffline event, (machine (.notifyOffline event) s).1)])
      (s.step (.notifyOffline event)) := by
  have hquiet : ∀ d ∈ dones ++ [(.notifyOffline event, (machine (.notifyOffline event) s).1)],
      d.2.2 = .none := by
    intro d hd
    rcases List.mem_append.mp hd with hold | hnew
    · exact h.quiet d hold
    · rw [List.mem_singleton.mp hnew]
      simp only [machine, op]
      split <;> rfl
  have hlength : s.pool.queue.length = min maxsize (reported (dones.map Prod.fst)).length := by
    rw [h.queue, List.length_map, List.length_take]
  by_cases hroom : s.pool.queue.length < maxsize
  · rw [step_notifyOffline_of_lt hroom]
    refine ⟨h.running, h.stopping, h.workers, ?_, hquiet⟩
    rw [List.map_append, List.map_singleton, reported_concat]
    have hall : (reported (dones.map Prod.fst)).length < maxsize := by omega
    have hqueue := h.queue
    rw [List.take_of_length_le (by omega)] at hqueue
    rw [List.take_of_length_le (by rw [List.length_append]; exact hall), hqueue, List.map_append]
    rfl
  · rw [step_notifyOffline_of_full hroom]
    refine ⟨h.running, h.stopping, h.workers, ?_, hquiet⟩
    rw [List.map_append, List.map_singleton, reported_concat,
      List.take_append_of_le_length (by omega)]
    exact h.queue

theorem Idle.step {dones : List Done} (h : Idle dones s) {a : Act} (ha : a ≠ .start) :
    Idle (dones ++ [(a, (machine a s).1)]) (s.step a) := by
  obtain ⟨running, thread, stopping, flag, queue, workers⟩ := s
  obtain rfl : running = false := h.running
  obtain rfl : stopping = [] := h.stopping
  obtain rfl : workers = [] := h.workers
  cases a with
  | start => exact absurd rfl ha
  | notifyOffline event => exact h.notifyOffline event
  | stop | goOn | loop | crash => exact h.same rfl rfl rfl

/-- Of a detector that nobody starts, in every run: the first reports are accepted, as
many as the queue holds, and no node is ever recovered. -/
theorem unstarted_recovers_none (acts : List Act) (hacts : .start ∉ acts) :
    accepted (machine.answers acts {}) = (reported acts).take maxsize ∧
      taken (machine.answers acts {}) = [] ∧ handled (machine.answers acts {}) = [] := by
  have hidle : Idle (machine.answers acts {}) (machine.after acts {}) := by
    refine Machine.tracks_of_step (P := fun a _ => a ≠ .start) ?_
      (Machine.meets_of_forall (fun a ha => ne_of_mem_of_not_mem ha hacts)) ?_
    · exact ⟨rfl, rfl, rfl, rfl, by simp⟩
    · exact fun past s a hpast ha => hpast.step ha
  have hquiet : ∀ f : PillEvent OfflineEvent → List OfflineEvent, f .none = [] →
      (machine.answers acts {}).flatMap (fun d => f d.2.2) = [] := by
    intro f hf
    refine List.flatMap_eq_nil_iff.mpr (fun d hd => ?_)
    rw [hidle.quiet d hd]
    exact hf
  have htaken : taken (machine.answers acts {}) = [] := hquiet PillEvent.taken rfl
  refine ⟨?_, htaken, hquiet PillEvent.done rfl⟩
  have hqueue := hidle.queue
  rw [Machine.fst_answers] at hqueue
  rw [(accounted_after acts).inOrder, htaken, List.nil_append, PillQueue.waiting, hqueue]
  simp

section Example

/-- The events of one outage, reported twice. -/
def outage : List Act :=
  [.notifyOffline ⟨"pc", 1⟩, .stop, .loop 0, .notifyOffline ⟨"pc", 2⟩]

theorem unstarted_recovers_none_outage :
    accepted (machine.answers outage {}) = [⟨"pc", 1⟩, ⟨"pc", 2⟩] ∧
    taken (machine.answers outage {}) = [] ∧ handled (machine.answers outage {}) = [] :=
  unstarted_recovers_none outage (by decide)

end Example

end Detector

end HermesCluster
