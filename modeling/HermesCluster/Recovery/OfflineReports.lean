import HermesCluster.Lease.LeaseRows
import HermesCluster.Recovery.Detector
import HermesCluster.Recovery.Isolation
/-!
# Reports of offline nodes

The detector beside the calls to the cluster: what a report does to the store once a
thread has taken it. A call, and a recovery, is one step here: nothing of another comes
between its transactions.
-/

namespace HermesCluster

open Program hiding pure bind

namespace Detector

/-- `_handle_offline`; the event it logs is written and never read here. -/
def handleOffline (evt : OfflineEvent) : Api Unit := do
  let revokedTaskIds ← Recovery.revokeAllForNode evt.nodeId
  if revokedTaskIds = [] then pure ()
  else
    let _ ← Recovery.rescheduleOrphaned revokedTaskIds
    pure ()

/-- The first operations of a program, which then raises. -/
def cut : Nat → Api Unit → Api Unit
  | 0, _ => .raise (.exception "")
  | n + 1, .call op next => .call op (fun r => cut n (next r))
  | _ + 1, p => p

/-- What an event of a thread does to the store. -/
def effect (reached : Nat) : PillEvent OfflineEvent → Api Unit
  | .finished evt => handleOffline evt
  | .lost evt => cut reached (handleOffline evt)
  | .none | .took _ => pure ()

end Detector

/-- The detector and the store it works on. -/
structure OfflineWorld (k : Backend) where
  detector : Detector := {}
  store : Timed k.Store

/-- What happens to the detector, with the clock of the store operations this leads to
and how many of them a crash leaves; or a call. -/
inductive OfflineAct where
  | detector (a : Detector.Act) (clock : Nat → Nat) (reached : Nat)
  | call (c : TimedCall)

namespace OfflineWorld

section Runs

variable [Unicode] {k : Backend}

/-- The world answers with what became of the detector's reports; a call or a recovery
is a single step. -/
def machine (k : Backend) : Machine (OfflineWorld k) OfflineAct (List Detector.Done)
  | .detector a clock reached, w =>
      let (done, d) := Detector.machine a w.detector
      ([(a, done)],
        { detector := d
          store :=
            ((Detector.effect reached done.2).run k.tick { w.store with clock := clock }).2 })
  | .call c, w => ([], { w with store := (c.call.prog.run k.tick (c.enter w.store)).2 })

/-- What became of the reports of a run. -/
def dones (acts : List OfflineAct) (w : OfflineWorld k) : List Detector.Done :=
  ((machine k).answers acts w).flatMap Prod.snd

/-! ## The recovery of a report -/

omit [Unicode] in
/-- A report is recovered like a node for which a recovery is called. -/
theorem handleOffline_eq (evt : OfflineEvent) :
    Detector.handleOffline evt = Recovery.triggerRecovery evt.nodeId >>= fun _ => pure () := by
  unfold Detector.handleOffline Recovery.triggerRecovery
  rw [bind_assoc]
  refine congrArg (Recovery.revokeAllForNode evt.nodeId >>= ·) (funext fun revokedTaskIds => ?_)
  by_cases hnone : revokedTaskIds = []
  · simp only [if_pos hnone]
    rfl
  · simp only [if_neg hnone]
    rw [bind_assoc]
    rfl

/-- After the recovery no lease of the node stands. -/
theorem revokedIn_handleOffline (evt : OfflineEvent) (w : Timed k.Store) {l : Lease}
    (hl : l ∈ (k.board w.state).leases.rows) (hnode : l.nodeId = evt.nodeId) :
    RevokedIn (k.board ((Detector.handleOffline evt).run k.tick w).2.state) l.id := by
  rw [handleOffline_eq, run_discard]
  by_cases hrevoked : l.status = .revoked
  · obtain ⟨l', hl', hsame⟩ :=
      k.exists_sameLease_run (Recovery.triggerRecovery evt.nodeId) w hl
    exact ⟨l', hl', hsame.id, hsame.revoked hrevoked⟩
  · exact (triggerRecovery_touches k evt.nodeId w).2 l hl hnode hrevoked

/-! ## What a step leaves of a lease -/

variable {w : OfflineWorld k} {l : Lease} {e : OfflineEvent}

def leases (w : OfflineWorld k) : List Lease :=
  (k.board w.store.state).leases.rows

theorem exists_sameLease_step (a : OfflineAct) (hl : l ∈ w.leases) :
    ∃ l' ∈ (machine k a w).2.leases, SameLease l l' := by
  cases a with
  | detector a clock reached =>
      exact k.exists_sameLease_run (Detector.effect reached (Detector.machine a w.detector).1.2)
        { w.store with clock := clock } hl
  | call c => exact k.exists_sameLease_run c.call.prog (c.enter w.store) hl

theorem revokedIn_step (a : OfflineAct) {id : Nat}
    (h : RevokedIn (k.board w.store.state) id) :
    RevokedIn (k.board (machine k a w).2.store.state) id := by
  obtain ⟨l, hl, hid, hrevoked⟩ := h
  obtain ⟨l', hl', hsame⟩ := exists_sameLease_step a hl
  exact ⟨l', hl', hsame.id.trans hid, hsame.revoked hrevoked⟩

/-- The step in which the node of a report is recovered. -/
theorem revokedIn_of_handled {a : OfflineAct} (hl : l ∈ w.leases) (hnode : l.nodeId = e.nodeId)
    (he : e ∈ Detector.handled (machine k a w).1) :
    RevokedIn (k.board (machine k a w).2.store.state) l.id := by
  cases a with
  | call c => cases he
  | detector a clock reached =>
      change e ∈ Detector.handled [(a, (Detector.machine a w.detector).1)] at he
      change RevokedIn (k.board ((Detector.effect reached (Detector.machine a w.detector).1.2).run
        k.tick { w.store with clock := clock }).2.state) l.id
      rw [Detector.handled, List.flatMap_singleton] at he
      cases hev : (Detector.machine a w.detector).1.2 with
      | finished evt =>
          rw [hev] at he
          obtain rfl : e = evt := List.mem_singleton.mp he
          exact revokedIn_handleOffline e _ hl hnode
      | none | took | lost =>
          rw [hev] at he
          cases he

/-! ## Runs -/

theorem dones_append (before later : List OfflineAct) (w : OfflineWorld k) :
    dones (before ++ later) w = dones before w ++ dones later ((machine k).after before w) := by
  unfold dones
  rw [Machine.answers_append, List.flatMap_append]

theorem dones_cons (a : OfflineAct) (acts : List OfflineAct) (w : OfflineWorld k) :
    dones (a :: acts) w = (machine k a w).1 ++ dones acts (machine k a w).2 := by
  unfold dones
  rw [Machine.answers, List.flatMap_cons]

/-- Every report of a run is accounted for. -/
theorem accounted_step {past : List Detector.Done} (h : Detector.Accounted past w.detector)
    (a : OfflineAct) :
    Detector.Accounted (past ++ (machine k a w).1) (machine k a w).2.detector := by
  cases a with
  | call c =>
      rw [show (machine k (.call c) w).1 = [] from rfl, List.append_nil]
      exact h
  | detector a clock reached =>
      exact h.concat (PillQueue.change_apply (w.detector.op a) w.detector.pool)

theorem accounted_after {past : List Detector.Done} (h : Detector.Accounted past w.detector)
    (acts : List OfflineAct) :
    Detector.Accounted (past ++ dones acts w) ((machine k).after acts w).detector := by
  induction acts generalizing past w with
  | nil =>
      rw [show dones [] w = [] from rfl, List.append_nil]
      exact h
  | cons a acts ih =>
      rw [dones_cons, ← List.append_assoc]
      exact ih (accounted_step h a)

theorem revokedIn_stays (acts : List OfflineAct) {id : Nat}
    (h : RevokedIn (k.board w.store.state) id) :
    RevokedIn (k.board ((machine k).after acts w).store.state) id := by
  induction acts generalizing w with
  | nil => exact h
  | cons a acts ih => exact ih (revokedIn_step a h)

/-- A lease of a node that is recovered in a run is revoked at its end. -/
theorem revokedIn_after (acts : List OfflineAct) (hl : l ∈ w.leases) (hnode : l.nodeId = e.nodeId)
    (he : e ∈ Detector.handled (dones acts w)) :
    RevokedIn (k.board ((machine k).after acts w).store.state) l.id := by
  induction acts generalizing w l with
  | nil => cases he
  | cons a acts ih =>
      rw [dones_cons, Detector.handled, List.flatMap_append] at he
      rcases List.mem_append.mp he with hnow | hlater
      · exact revokedIn_stays acts (revokedIn_of_handled hl hnode hnow)
      · obtain ⟨l', hl', hsame⟩ := exists_sameLease_step a hl
        have hrevoked := ih hl' (hsame.nodeId.trans hnode) hlater
        rwa [hsame.id] at hrevoked

omit [Unicode] in
/-- As often as a report was accepted, its node was recovered, once nothing of it is
left. -/
theorem count_handled {past : List Detector.Done} {d : Detector} (h : Detector.Accounted past d)
    (hwaiting : e ∉ d.pool.waiting) (hhand : e ∉ d.pool.inHand) (hlost : e ∉ Detector.lost past) :
    (Detector.handled past).count e = (Detector.accepted past).count e := by
  have horder := congrArg (List.count e) h.inOrder
  have honce := h.once.count_eq e
  rw [List.count_append, List.count_eq_zero_of_not_mem hwaiting] at horder
  rw [List.count_append, List.count_append, List.count_eq_zero_of_not_mem hhand,
    List.count_eq_zero_of_not_mem hlost] at honce
  omega

omit [Unicode] in
theorem count_handled_le {past : List Detector.Done} {d : Detector}
    (h : Detector.Accounted past d) :
    (Detector.handled past).count e ≤ (Detector.accepted past).count e := by
  have horder := congrArg (List.count e) h.inOrder
  have honce := h.once.count_eq e
  rw [List.count_append] at horder
  rw [List.count_append, List.count_append] at honce
  omega

omit [Unicode] in
theorem count_accepted_append (before later : List Detector.Done) :
    (Detector.accepted (before ++ later)).count e =
      (Detector.accepted before).count e + (Detector.accepted later).count e := by
  rw [Detector.accepted, List.flatMap_append, List.count_append]
  rfl

omit [Unicode] in
theorem count_handled_append (before later : List Detector.Done) :
    (Detector.handled (before ++ later)).count e =
      (Detector.handled before).count e + (Detector.handled later).count e := by
  rw [Detector.handled, List.flatMap_append, List.count_append]
  rfl

/-- Once a report that was accepted is no longer waiting or in hand, and no thread died
over it, the leases are revoked that its node held when it was made: for every run of
calls, reports, starts and stops, and threads. -/
theorem offline_leases_revoked (store : Timed k.Store) (past later : List OfflineAct)
    (clock : Nat → Nat) (reached : Nat)
    (haccepted : ((machine k).after past { store := store }).detector.pool.queue.length <
      Detector.maxsize)
    (hwaiting : e ∉ ((machine k).after
      (past ++ .detector (.notifyOffline e) clock reached :: later)
        { store := store }).detector.pool.waiting)
    (hhand : e ∉ ((machine k).after
      (past ++ .detector (.notifyOffline e) clock reached :: later)
        { store := store }).detector.pool.inHand)
    (hlost : e ∉ Detector.lost (dones
      (past ++ .detector (.notifyOffline e) clock reached :: later)
        ({ store := store } : OfflineWorld k)))
    (hl : l ∈ ((machine k).after past { store := store }).leases) (hnode : l.nodeId = e.nodeId) :
    RevokedIn (k.board ((machine k).after
      (past ++ .detector (.notifyOffline e) clock reached :: later)
        { store := store }).store.state) l.id := by
  generalize hnow : (machine k).after past { store := store } = w at haccepted hl
  have hstart : Detector.Accounted [] ({} : Detector) := ⟨rfl, List.Perm.refl _⟩
  have hend := accounted_after (w := { store := store }) hstart
    (past ++ .detector (.notifyOffline e) clock reached :: later)
  have hpast := accounted_after (w := { store := store }) hstart past
  rw [List.nil_append] at hend hpast
  have hcount := count_handled hend hwaiting hhand hlost
  have hbefore := count_handled_le (e := e) hpast
  rw [Machine.after_append, hnow]
  rw [dones_append, hnow, dones_cons] at hcount
  simp only [count_accepted_append, count_handled_append] at hcount
  have hoffered : (Detector.accepted
      (machine k (.detector (.notifyOffline e) clock reached) w).1).count e = 1 := by
    have hop : w.detector.op (.notifyOffline e) = .offer (some e) := if_pos haccepted
    simp [Detector.accepted, machine, Detector.machine, hop, PillOp.items]
  have hquiet : (Detector.handled
      (machine k (.detector (.notifyOffline e) clock reached) w).1).count e = 0 := by
    have hop : w.detector.op (.notifyOffline e) = .offer (some e) := if_pos haccepted
    simp [Detector.handled, machine, Detector.machine, hop, PillQueue.apply, PillEvent.done]
  have hlater : e ∈ Detector.handled (dones later
      (machine k (.detector (.notifyOffline e) clock reached) w).2) := by
    apply List.count_pos_iff.mp
    omega
  obtain ⟨l', hl', hsame⟩ :=
    exists_sameLease_step (.detector (.notifyOffline e) clock reached) hl
  rw [← hsame.id]
  exact revokedIn_after later hl' (hsame.nodeId.trans hnode) hlater

end Runs

section Example

local instance asciiOffline : Unicode := Unicode.ascii

/-- The node of two tasks is reported, and a thread takes the report. -/
theorem offline_leases_revoked_sibling :
    RevokedIn (((machine .memory).after
      ([.detector .start (fun _ => 1) 0] ++ .detector (.notifyOffline ⟨"n", 1⟩) (fun _ => 1) 0 ::
        [.detector (.loop 0) (fun _ => 1) 0, .detector (.loop 0) (fun _ => 1) 0])
      { store := ⟨siblingStore, fun _ => 1⟩ }).store.state.toBoard) 1 :=
  offline_leases_revoked (k := .memory) (e := ⟨"n", 1⟩)
    (l := { id := 1, taskId := "b", nodeId := "n", createdAt := 1, expiresAt := 9 })
    ⟨siblingStore, fun _ => 1⟩ _ _ _ _ (by decide) (by decide) (by decide) (by decide)
    (by decide) rfl

end Example

end OfflineWorld

end HermesCluster
