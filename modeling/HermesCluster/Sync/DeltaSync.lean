import HermesCluster.Sync.Messages
/-!
# Delta synchronisation

A coordinator queues events about its tasks and sends the queue to its peers. The
queue is drained before the sends, and an event is stamped with a version that
queueing does not advance; so a run loses no update only as long as every send
arrives and at most one update is under way.
-/

namespace HermesCluster

open Delivery

/-! ## The coordinator -/

/-- One attempt to send a batch: whether the peer received it, and whether it
answered with success. -/
structure Attempt where
  reached : Bool
  ok : Bool
  clock : Nat → Nat := fun _ => 0
  reached_of_ok : ok = true → reached = true

/-- Another coordinator, on any of the stores. -/
structure Peer where
  k : Backend
  store : k.Store

/-- `max_retries` of `SyncClient`. -/
def maxRetries : Nat := 2

namespace Peer

/-- A batch that arrives. -/
def receive (peer : Peer) (msgs : List SyncMessage) (clock : Nat → Nat) : Peer where
  k := peer.k
  store := (Sync.receiveBatch peer.k.syncPort msgs clock peer.store).2

/-- The attempts of `send_batch`, up to the first success. -/
def sendAttempts (msgs : List SyncMessage) : List Attempt → Peer → Bool × Peer
  | [], peer => (false, peer)
  | a :: attempts, peer =>
      let peer := if a.reached then peer.receive msgs a.clock else peer
      if a.ok then (true, peer) else sendAttempts msgs attempts peer

/-- `send_batch`. -/
def sendBatch (msgs : List SyncMessage) (attempts : List Attempt) (peer : Peer) : Bool × Peer :=
  sendAttempts msgs (attempts.take maxRetries) peer

end Peer

/-- One coordinator with its queue, and its peers. The messages that left the queue
although some peer did not receive them are kept for the record. -/
structure SyncNet (k : Backend) where
  sender : k.Store
  queue : List SyncMessage := []
  peers : List Peer
  missed : List SyncMessage := []

/-- The payload of an event about a task. -/
def Task.syncState (t : Task) : TaskSync where
  taskId := t.id
  title := t.title
  status := t.status.value
  assignedTo := t.assignedTo
  version := t.version

/-- `queue_task_event`. -/
def Sync.taskEvent {k : Backend} (s : k.Store) (ts : TaskSync) : SyncMessage where
  version := k.syncPort.syncVersion s + 1
  taskState := some ts

/-- The steps of a run: the coordinator's own store changes, and events are queued
about tasks as they then are; or the queue is sent. -/
inductive SyncAction where
  | change (now : Nat) (op : StoreOp) (reported : List String)
  | deltaSync (attempts : Nat → List Attempt)

namespace SyncNet

variable {k : Backend}

/-- The batch reaches the peer. -/
def Arrives (attempts : List Attempt) : Prop :=
  ∃ a ∈ attempts.take maxRetries, a.reached = true

instance (attempts : List Attempt) : Decidable (Arrives attempts) :=
  inferInstanceAs (Decidable (∃ a ∈ attempts.take maxRetries, a.reached = true))

/-- The rows of the tasks that are reported. -/
def reportedTasks (s : k.Store) (reported : List String) : List Task :=
  reported.filterMap (fun taskId => (k.board s).tasks.get? taskId)

/-- `_do_delta_sync`: the queue is drained first. -/
def deltaSync (attempts : Nat → List Attempt) (net : SyncNet k) : SyncNet k :=
  if net.queue = [] then net
  else
    { net with
      queue := []
      peers := net.peers.mapIdx (fun i peer => (peer.sendBatch net.queue (attempts i)).2)
      missed := net.missed ++
        (if ∀ i < net.peers.length, Arrives (attempts i) then [] else net.queue) }

variable [Unicode]

def step : SyncAction → SyncNet k → SyncNet k
  | .change now op reported, net =>
      let sender := (k.step now op net.sender).2
      { net with
        sender := sender
        queue := net.queue ++
          (reportedTasks sender reported).map (fun t => Sync.taskEvent sender t.syncState) }
  | .deltaSync attempts, net => net.deltaSync attempts

def run (actions : List SyncAction) (net : SyncNet k) : SyncNet k :=
  actions.foldl (fun net action => net.step action) net

end SyncNet

/-! ## What the stores are to agree on -/

def Backend.register (k : Backend) (s : k.Store) (taskId : String) : Option (Register TaskStatus) :=
  ((k.board s).tasks.get? taskId).map Task.register

def Backend.onSync : Backend → TaskSync → Option (Register TaskStatus) →
    Option (Register TaskStatus)
  | .memory => TaskSync.onMemory
  | .sql _ => TaskSync.onStore

theorem Backend.delivers (k : Backend) :
    k.syncPort.Delivers k.register (SyncMessage.write k.onSync) SyncMessage.Decodes := by
  cases k with
  | memory => exact ⟨ClusterState.delivers.version,
      fun now msg s _ hlive => ClusterState.delivers.registers now msg s trivial hlive⟩
  | sql d => exact ClusterStore.delivers

namespace SyncNet

variable {k : Backend}

/-- Every peer has the tasks of the sender. -/
def Agree (net : SyncNet k) : Prop :=
  ∀ peer ∈ net.peers, peer.k.register peer.store = k.register net.sender

/-- Nothing is queued or has been missed, and every peer agrees. -/
structure InSync (net : SyncNet k) : Prop where
  queue : net.queue = []
  missed : net.missed = []
  agree : net.Agree

end SyncNet

/-- The store writes the task over its row as it is. -/
def Peer.Takes (peer : Peer) (t : Task) : Prop :=
  match peer.k with
  | .memory => ∀ row, peer.k.register peer.store t.id = some row →
      row.version < t.version ∧ ¬ClusterState.Refuses row.status t.status ∧
        (t.assignedTo.getD "" ≠ "" ∨ row.assignedTo = t.assignedTo)
  | .sql _ => True

namespace SyncNet

variable [Unicode] {k : Backend}

/-- The condition on a step. A change of the store is not seen in the registers; or
it is seen in one task, the first that is reported, nothing is queued, and no peer's
sync version is above the sender's or keeps the row from being written. A send
reaches every peer. -/
def Meets (net : SyncNet k) : SyncAction → Prop
  | .change now op reported =>
      let sender := (k.step now op net.sender).2
      k.register sender = k.register net.sender ∨
        ∃ t rest, reportedTasks sender reported = t :: rest ∧
          (∀ taskId ≠ t.id, k.register sender taskId = k.register net.sender taskId) ∧
          net.queue = [] ∧
          ∀ peer ∈ net.peers,
            peer.k.syncPort.syncVersion peer.store ≤ k.syncPort.syncVersion sender ∧ peer.Takes t
  | .deltaSync attempts => net.queue = [] ∨ ∀ i < net.peers.length, Arrives (attempts i)

/-- Every step of a run meets the condition in the state it begins in. -/
def AllMeet (net : SyncNet k) : List SyncAction → Prop
  | [] => True
  | action :: actions => net.Meets action ∧ (net.step action).AllMeet actions

end SyncNet

/-! ## One message -/

theorem TaskStatus.ofValue_value (status : TaskStatus) : ofValue status.value = some status := by
  cases status <;> decide

section Messages

variable {k : Backend} {t : Task}

theorem Task.createdStatus_syncState (t : Task) : t.syncState.createdStatus = t.status := by
  rw [TaskSync.createdStatus]
  exact congrArg (Option.getD · TaskStatus.pending) (TaskStatus.ofValue_value t.status)

theorem Sync.decodes_taskEvent (s : k.Store) (t : Task) :
    (Sync.taskEvent s t.syncState).Decodes := by
  intro ts hts
  cases hts
  rw [show t.syncState.status = t.status.value from rfl, TaskStatus.ofValue_value]
  rfl

theorem Backend.onSync_same (k : Backend) (t : Task) :
    k.onSync t.syncState (some t.register) = some t.register := by
  cases k with
  | memory =>
      refine t.syncState.onMemory_of_not_accepted (fun haccepted => ?_)
      exact lt_irrefl _ haccepted.1
  | sql d => exact congrArg (Option.map _) (TaskStatus.ofValue_value t.status)

/-- A payload that a peer takes. -/
theorem Peer.onSync_of_takes {peer : Peer} (h : peer.Takes t) :
    peer.k.onSync t.syncState (peer.k.register peer.store t.id) = some t.register := by
  obtain ⟨k, s⟩ := peer
  cases k with
  | memory =>
      dsimp only [Peer.Takes] at h ⊢
      cases hrow : Backend.memory.register s t.id with
      | none =>
          change some (⟨t.syncState.createdStatus, t.assignedTo, t.version⟩ :
            Register TaskStatus) = _
          rw [t.createdStatus_syncState]
          rfl
      | some row =>
          obtain ⟨hversion, hopen, hassigned⟩ := h row hrow
          refine (t.syncState.onMemory_of_accepted hversion
            (TaskStatus.ofValue_value t.status) hopen).trans ?_
          have hkeep : t.syncState.keep row.assignedTo = t.assignedTo := by
            by_cases hnamed : t.assignedTo.getD "" = ""
            · refine (if_pos hnamed).trans ?_
              rcases hassigned with hne | hsame
              · exact absurd hnamed hne
              · exact hsame
            · exact if_neg hnamed
          rw [hkeep]
          rfl
  | sql d => exact congrArg (Option.map _) (TaskStatus.ofValue_value t.status)

end Messages

/-! ## What a peer will have -/

namespace Peer

/-- The sync version and the registers of a peer. -/
def view (peer : Peer) : Int × (String → Option (Register TaskStatus)) :=
  (peer.k.syncPort.syncVersion peer.store, peer.k.register peer.store)

/-- The same once a batch has been delivered. -/
def after (peer : Peer) (msgs : List SyncMessage) : Int × (String → Option (Register TaskStatus)) :=
  deliver SyncMessage.version (act SyncMessage.target (SyncMessage.write peer.k.onSync))
    peer.view msgs

variable {msgs : List SyncMessage}

theorem view_receive (hmsgs : ∀ msg ∈ msgs, msg.Decodes) (peer : Peer) (clock : Nat → Nat) :
    (peer.receive msgs clock).view = peer.after msgs :=
  peer.k.delivers.receiveBatch hmsgs clock peer.store

/-- Every attempt that arrives delivers the whole batch, and a second delivery does
nothing. -/
theorem view_sendAttempts (hmsgs : ∀ msg ∈ msgs, msg.Decodes) (attempts : List Attempt)
    (peer : Peer) :
    ((sendAttempts msgs attempts peer).2.view = peer.view ∨
        (sendAttempts msgs attempts peer).2.view = peer.after msgs) ∧
      ((∃ a ∈ attempts, a.reached = true) →
        (sendAttempts msgs attempts peer).2.view = peer.after msgs) := by
  induction attempts generalizing peer with
  | nil =>
      refine ⟨.inl rfl, ?_⟩
      rintro ⟨a, ha, -⟩
      cases ha
  | cons a attempts ih =>
      by_cases hreached : a.reached = true
      · have hview := view_receive hmsgs peer a.clock
        have hrest : (sendAttempts msgs (a :: attempts) peer).2.view = peer.after msgs := by
          rw [sendAttempts, if_pos hreached]
          split
          · exact hview
          · have hagain : (peer.receive msgs a.clock).after msgs = peer.after msgs := by
              rw [after, hview]
              exact deliver_again peer.view msgs
            rcases (ih (peer.receive msgs a.clock)).1 with hkept | hsent
            · exact hkept.trans hview
            · exact hsent.trans hagain
        exact ⟨.inr hrest, fun _ => hrest⟩
      · have hfailed : ¬a.ok = true := fun hok => hreached (a.reached_of_ok hok)
        have hskip : sendAttempts msgs (a :: attempts) peer = sendAttempts msgs attempts peer := by
          rw [sendAttempts, if_neg hreached]
          exact if_neg hfailed
        rw [hskip]
        refine ⟨(ih peer).1, ?_⟩
        rintro ⟨b, hb, hreached'⟩
        cases hb with
        | head => exact absurd hreached' hreached
        | tail _ hb => exact (ih peer).2 ⟨b, hb, hreached'⟩

end Peer

/-! ## One step -/

namespace SyncNet

variable {k : Backend}

/-- Once the queue has been delivered, every peer has the tasks of the sender. -/
structure Coherent (net : SyncNet k) : Prop where
  decodes : ∀ msg ∈ net.queue, msg.Decodes
  agree : ∀ peer ∈ net.peers, (peer.after net.queue).2 = k.register net.sender
  missed : net.missed = []

theorem InSync.coherent {net : SyncNet k} (h : net.InSync) : net.Coherent where
  decodes := by
    rw [h.queue]
    exact List.forall_mem_nil _
  agree := by
    intro peer hpeer
    rw [h.queue]
    exact h.agree peer hpeer
  missed := h.missed

theorem Coherent.agree_of_sent {net : SyncNet k} (h : net.Coherent) (hqueue : net.queue = []) :
    net.Agree := by
  intro peer hpeer
  have hagree := h.agree peer hpeer
  rwa [hqueue] at hagree

theorem register_of_reported {s : k.Store} {reported : List String} {t : Task}
    (h : t ∈ reportedTasks s reported) : k.register s t.id = some t.register := by
  obtain ⟨taskId, -, hget⟩ := List.mem_filterMap.mp h
  have hid : t.id = taskId := Table.key_of_get? hget
  rw [Backend.register, hid, hget]
  rfl

theorem Coherent.deltaSync {net : SyncNet k} (h : net.Coherent) {attempts : Nat → List Attempt}
    (hmeets : net.queue = [] ∨ ∀ i < net.peers.length, Arrives (attempts i)) :
    (net.deltaSync attempts).Coherent := by
  by_cases hqueue : net.queue = []
  · rw [SyncNet.deltaSync, if_pos hqueue]
    exact h
  · have harrives := hmeets.resolve_left hqueue
    rw [SyncNet.deltaSync, if_neg hqueue, if_pos harrives, h.missed]
    refine ⟨List.forall_mem_nil _, fun peer' hpeer' => ?_, rfl⟩
    obtain ⟨i, hi, rfl⟩ := List.mem_mapIdx.mp hpeer'
    have hview := (Peer.view_sendAttempts h.decodes _ net.peers[i]).2 (harrives i hi)
    refine (congrArg Prod.snd hview).trans ?_
    exact h.agree _ (List.getElem_mem hi)

theorem deliver_same {k' : Backend} {s : k.Store} {ts : List Task}
    {x : Int × (String → Option (Register TaskStatus))}
    (hsame : ∀ t ∈ ts, x.2 t.id = some t.register) :
    (deliver SyncMessage.version (act SyncMessage.target (SyncMessage.write k'.onSync)) x
      (ts.map (fun t => Sync.taskEvent s t.syncState))).2 = x.2 := by
  let Same : Int → (String → Option (Register TaskStatus)) → Prop := fun _ y => y = x.2
  have hrun : Same (deliver SyncMessage.version (act SyncMessage.target
      (SyncMessage.write k'.onSync)) x (ts.map (fun t => Sync.taskEvent s t.syncState))).1
      (deliver SyncMessage.version (act SyncMessage.target (SyncMessage.write k'.onSync)) x
        (ts.map (fun t => Sync.taskEvent s t.syncState))).2 := by
    refine deliver_of_step rfl ?_
    rintro msg hmsg before y - - rfl
    obtain ⟨t, ht, rfl⟩ := List.mem_map.mp hmsg
    refine Inert.act_eq (fun taskId htarget => ?_)
    have hid : t.id = taskId := Option.some.inj htarget
    rw [← hid, hsame t ht]
    exact k'.onSync_same t
  exact hrun

variable [Unicode]

theorem Coherent.change {net : SyncNet k} (h : net.Coherent) {now : Nat} {op : StoreOp}
    {reported : List String} (hmeets : net.Meets (.change now op reported)) :
    (net.step (.change now op reported)).Coherent := by
  let sender := (k.step now op net.sender).2
  refine ⟨fun msg hmsg => ?_, fun peer hpeer => ?_, h.missed⟩
  · rcases List.mem_append.mp hmsg with hold | hnew
    · exact h.decodes msg hold
    · obtain ⟨t, -, rfl⟩ := List.mem_map.mp hnew
      exact Sync.decodes_taskEvent sender t
  · have hbefore := h.agree peer hpeer
    change (peer.after (net.queue ++ (reportedTasks sender reported).map
      (fun t => Sync.taskEvent sender t.syncState))).2 = k.register sender
    rw [Peer.after, deliver_append]
    rcases hmeets with hsame | ⟨t, rest, hreported, hothers, hqueue, hpeers⟩
    · refine (deliver_same (fun t ht => ?_)).trans (hbefore.trans hsame.symm)
      exact (congrFun (hbefore.trans hsame.symm) t.id).trans (register_of_reported ht)
    · obtain ⟨hversion, htakes⟩ := hpeers peer hpeer
      rw [hqueue] at hbefore
      have hview : peer.k.register peer.store = k.register net.sender := hbefore
      have hlive : peer.view.1 < (Sync.taskEvent sender t.syncState).version :=
        Int.lt_add_one_of_le hversion
      have hstale : ∀ msg ∈ rest.map (fun u => Sync.taskEvent sender u.syncState),
          msg.version ≤ (Sync.taskEvent sender t.syncState).version := by
        intro msg hmsg
        obtain ⟨u, -, rfl⟩ := List.mem_map.mp hmsg
        exact le_rfl
      rw [hqueue, hreported, List.map_cons, deliver_nil, deliver_cons, receive_live hlive,
        deliver_stale hstale]
      funext taskId
      have htarget : (Sync.taskEvent sender t.syncState).target = some t.id := rfl
      by_cases hid : taskId = t.id
      · subst hid
        have ht : t ∈ reportedTasks sender reported := by
          rw [hreported]
          exact List.mem_cons_self
        rw [register_of_reported ht]
        refine (act_of_target htarget).trans ?_
        exact Peer.onSync_of_takes htakes
      · have hne : (Sync.taskEvent sender t.syncState).target ≠ some taskId :=
          fun heq => hid (Option.some.inj heq).symm
        refine (act_of_ne hne).trans ?_
        refine (congrFun hview taskId).trans ?_
        exact (hothers taskId hid).symm

theorem Coherent.step {net : SyncNet k} (h : net.Coherent) {action : SyncAction}
    (hmeets : net.Meets action) : (net.step action).Coherent := by
  cases action with
  | change now op reported => exact h.change hmeets
  | deltaSync attempts => exact h.deltaSync hmeets

theorem Coherent.run {net : SyncNet k} (h : net.Coherent) (actions : List SyncAction)
    (hmeets : net.AllMeet actions) (n : Nat) : (net.run (actions.take n)).Coherent := by
  induction actions generalizing net n with
  | nil =>
      rw [List.take_nil]
      exact h
  | cons action actions ih =>
      cases n with
      | zero => exact h
      | succ n => exact ih (h.step hmeets.1) hmeets.2 n

end SyncNet

/-! ## Runs -/

/-- Where every step meets the condition, a run that begins in sync loses no update
in any state it reaches: whenever the queue has been sent every peer has the tasks
of the sender, and no message has left the queue without reaching every peer. -/
theorem delta_sync_loses_nothing [Unicode] (k : Backend) (net : SyncNet k) (hsync : net.InSync)
    (actions : List SyncAction) (hmeets : net.AllMeet actions) (n : Nat) :
    ((net.run (actions.take n)).queue = [] → (net.run (actions.take n)).Agree) ∧
      (net.run (actions.take n)).missed = [] := by
  have hcoherent := hsync.coherent.run actions hmeets n
  exact ⟨hcoherent.agree_of_sent, hcoherent.missed⟩

section OnePeer

local instance asciiDelta : Unicode := Unicode.ascii

/-- Two coordinators that hold nothing yet. -/
def emptyNet : SyncNet .memory where
  sender := ClusterState.empty
  peers := [⟨.memory, ClusterState.empty⟩]

theorem emptyNet_inSync : emptyNet.InSync where
  queue := rfl
  missed := rfl
  agree := by
    intro peer hpeer
    obtain rfl := List.mem_singleton.mp hpeer
    rfl

/-- A new task and the event about it. -/
def createAndReport (taskId : String) : SyncAction :=
  .change 0 (.createTask { taskId := taskId, title := "t" }) [taskId]

/-- Every first attempt succeeds, or none arrives. -/
def sendAll : SyncAction :=
  .deltaSync (fun _ => [{ reached := true, ok := true, reached_of_ok := fun _ => rfl }])

def sendNone : SyncAction :=
  .deltaSync (fun _ => List.replicate maxRetries
    { reached := false, ok := false, reached_of_ok := fun h => h })

theorem one_event_arrives :
    ((emptyNet.run ([createAndReport "task_1", sendAll].take 2)).queue = [] →
        (emptyNet.run ([createAndReport "task_1", sendAll].take 2)).Agree) ∧
      (emptyNet.run ([createAndReport "task_1", sendAll].take 2)).missed = [] := by
  refine delta_sync_loses_nothing .memory emptyNet emptyNet_inSync
    [createAndReport "task_1", sendAll] ⟨.inr ?_, .inr ?_, trivial⟩ 2
  · refine ⟨{ id := "task_1", title := "t", createdAt := 0, updatedAt := 0, version := 1 }, [],
      rfl, fun taskId hne => ?_, rfl, fun peer hpeer => ?_⟩
    · have hother := Table.get?_upsert (Table.empty : Table Task) taskId
        (TaskPlan.toTask { taskId := "task_1", title := "t" } 0 .pending)
      exact congrArg (Option.map Task.register) (hother.trans (if_neg (Ne.symm hne)))
    · obtain rfl := List.mem_singleton.mp hpeer
      exact ⟨le_rfl, fun row hrow => absurd hrow (Option.some_ne_none row).symm⟩
  · exact fun i _ => ⟨_, List.mem_singleton_self _, rfl⟩

/-- Two events that are queued before the send carry one version, so the peer drops
the second; and a send that fails loses the message. -/
theorem second_event_lost :
    let net := emptyNet.run [createAndReport "task_1", createAndReport "task_2", sendAll]
    net.queue = [] ∧ ¬net.Agree ∧
      (emptyNet.run [createAndReport "task_1", sendNone]).queue = [] ∧
      (emptyNet.run [createAndReport "task_1", sendNone]).missed ≠ [] := by
  have hlost : (emptyNet.run [createAndReport "task_1", createAndReport "task_2",
      sendAll]).peers.map (fun peer => (peer.k.register peer.store "task_2").isSome) =
        [false] := by
    decide
  have hsent : (Backend.memory.register (emptyNet.run [createAndReport "task_1",
      createAndReport "task_2", sendAll]).sender "task_2").isSome = true := by
    decide
  refine ⟨by decide, fun hagree => ?_, by decide, by decide⟩
  have hpeer : ∀ held ∈ [false], held = true := by
    rw [← hlost]
    intro held hheld
    obtain ⟨peer, hpeer, rfl⟩ := List.mem_map.mp hheld
    rw [hagree peer hpeer]
    exact hsent
  exact Bool.false_ne_true (hpeer false (List.mem_singleton_self _))

end OnePeer

end HermesCluster
