import HermesCluster.Lib.Delivery
import HermesCluster.State.Refinement
/-!
# Sync messages

The receiver of delta messages over a store's `sync_version` and
`handle_sync_message`. What it does to the status, the assignee and the version of
each task is a delivery to registers behind one gate: the gate is the sync version
of the whole store.
-/

namespace HermesCluster

/-! ## The receiver -/

/-- What the receiver asks of a store. -/
structure SyncPort (σ : Type) where
  syncVersion : σ → Int
  handle : Nat → SyncMessage → σ → Bool × σ

structure BatchReply where
  accepted : Nat := 0
  rejected : Nat := 0

/-- One more message was applied, or not. -/
def BatchReply.count (applied : Bool) (reply : BatchReply) : BatchReply :=
  if applied then { reply with accepted := reply.accepted + 1 }
  else { reply with rejected := reply.rejected + 1 }

namespace Sync

variable {σ : Type} (port : SyncPort σ)

/-- `receive_single`: whether the message was applied. -/
def receiveSingle (now : Nat) (msg : SyncMessage) (s : σ) : Bool × σ :=
  if msg.version ≤ port.syncVersion s then (false, s) else port.handle now msg s

/-- `receive_batch`, each message at the next reading of the clock. -/
def receiveBatch : List SyncMessage → (Nat → Nat) → σ → BatchReply × σ
  | [], _, s => ({}, s)
  | msg :: msgs, clock, s =>
      let first := receiveSingle port (clock 0) msg s
      let rest := receiveBatch msgs (fun i => clock (i + 1)) first.2
      (rest.1.count first.1, rest.2)

end Sync

/-! ## The stores -/

def ClusterState.port : SyncPort ClusterState where
  syncVersion := ClusterState.syncVersion
  handle := ClusterState.handleSyncMessage

def ClusterStore.port : SyncPort ClusterStore where
  syncVersion := ClusterStore.syncVersion
  handle := ClusterStore.handleSyncMessage

def Backend.syncPort : (k : Backend) → SyncPort k.Store
  | .memory => ClusterState.port
  | .sql _ => ClusterStore.port

/-- The port is the store's own operation. -/
theorem Backend.handle_syncPort [Unicode] (k : Backend) (now : Nat) (msg : SyncMessage)
    (s : k.Store) : k.syncPort.handle now msg s = k.step now (.handleSyncMessage msg) s := by
  cases k <;> rfl

/-- The columns of a row of the task table that a sync message writes. The status
column holds any text. -/
structure SyncRow where
  id : String
  title : String
  status : String
  assignedTo : Option String := none
  version : Int := 0
  createdAt : Nat
  updatedAt : Nat
  deriving DecidableEq

instance : HasKey SyncRow String := ⟨SyncRow.id⟩

def TaskSync.toRow (ts : TaskSync) (now : Nat) : SyncRow where
  id := ts.taskId
  title := ts.title
  status := ts.status
  assignedTo := ts.assignedTo
  version := ts.version
  createdAt := now
  updatedAt := now

/-- `UPDATE tasks SET status = ?, assigned_to = ?, version = ?, updated_at = ?`. -/
def SyncRow.overwrite (now : Nat) (ts : TaskSync) (row : SyncRow) : SyncRow :=
  { row with
    status := ts.status
    assignedTo := ts.assignedTo
    version := ts.version
    updatedAt := now }

theorem SyncRow.keepsKey_overwrite (now : Nat) (ts : TaskSync) :
    Table.KeepsKey (SyncRow.overwrite now ts) :=
  fun _ => rfl

/-- The task table of a SQL store as sync sees it, and the highest version of its
`sync_log`. -/
structure SyncTable where
  tasks : Table SyncRow := Table.empty
  syncVersion : Int := 0

namespace SyncTable

/-- `handle_sync_message` of the SQL stores, for a status of any text. -/
def handleSyncMessage (now : Nat) (msg : SyncMessage) (s : SyncTable) : Bool × SyncTable :=
  if msg.version ≤ s.syncVersion then (false, s)
  else
    let s := { s with syncVersion := msg.version }
    match msg.taskState with
    | none => (true, s)
    | some ts =>
        match s.tasks.get? ts.taskId with
        | some _ =>
            (true, { s with
              tasks := s.tasks.modify ts.taskId _ (SyncRow.keepsKey_overwrite now ts) })
        | none => (true, { s with tasks := s.tasks.upsert (ts.toRow now) })

def port : SyncPort SyncTable where
  syncVersion := SyncTable.syncVersion
  handle := handleSyncMessage

end SyncTable

/-! ## Registers -/

/-- The fields of a task that the stores are to agree on; the status is a member
of the enum, or a text. -/
structure Register (S : Type) where
  status : S
  assignedTo : Option String
  version : Int
  deriving DecidableEq

def Task.register (t : Task) : Register TaskStatus where
  status := t.status
  assignedTo := t.assignedTo
  version := t.version

def SyncRow.register (row : SyncRow) : Register String where
  status := row.status
  assignedTo := row.assignedTo
  version := row.version

/-- The task that a message is about. -/
def SyncMessage.target (msg : SyncMessage) : Option String :=
  msg.taskState.map TaskSync.taskId

/-- A write of the payload, if there is one. -/
def SyncMessage.write {ρ : Type} (f : TaskSync → ρ → ρ) (msg : SyncMessage) (r : ρ) : ρ :=
  match msg.taskState with
  | none => r
  | some ts => f ts r

namespace TaskSync

/-- The status of a task that the in-memory store creates from a message. -/
def createdStatus (ts : TaskSync) : TaskStatus :=
  (TaskStatus.ofValue ts.status).getD .pending

/-- The assignee that the in-memory store keeps: an empty one is not written. -/
def keep (ts : TaskSync) (stored : Option String) : Option String :=
  if ts.assignedTo.getD "" = "" then stored else ts.assignedTo

/-- The in-memory store writes a task only in a higher version, to a status of the
enum, and not out of a terminal status. -/
def Accepted (ts : TaskSync) (row : Register TaskStatus) : Prop :=
  row.version < ts.version ∧
    ∃ status, TaskStatus.ofValue ts.status = some status ∧
      ¬ClusterState.Refuses row.status status

/-- What the in-memory store makes of a register. -/
def onMemory (ts : TaskSync) : Option (Register TaskStatus) → Option (Register TaskStatus)
  | none => some ⟨ts.createdStatus, ts.assignedTo, ts.version⟩
  | some row =>
      match TaskStatus.ofValue ts.status with
      | none => some row
      | some status =>
          if ts.version ≤ row.version ∨ ClusterState.Refuses row.status status then some row
          else some ⟨status, ts.keep row.assignedTo, ts.version⟩

/-- A SQL store overwrites whatever is there. -/
def onTable (ts : TaskSync) (_ : Option (Register String)) : Option (Register String) :=
  some ⟨ts.status, ts.assignedTo, ts.version⟩

end TaskSync

section OnMemory

variable (ts : TaskSync) {row : Register TaskStatus}

theorem TaskSync.onMemory_of_not_accepted (h : ¬ts.Accepted row) :
    ts.onMemory (some row) = some row := by
  unfold TaskSync.onMemory
  dsimp only
  split
  · rfl
  · rename_i status hvalue
    rw [if_pos]
    by_contra hopen
    rw [not_or, not_le] at hopen
    exact h ⟨hopen.1, status, hvalue, hopen.2⟩

theorem TaskSync.onMemory_of_accepted {status : TaskStatus} (hversion : row.version < ts.version)
    (hvalue : TaskStatus.ofValue ts.status = some status)
    (hopen : ¬ClusterState.Refuses row.status status) :
    ts.onMemory (some row) = some ⟨status, ts.keep row.assignedTo, ts.version⟩ := by
  unfold TaskSync.onMemory
  rw [hvalue]
  exact if_neg (not_or.mpr ⟨not_le_of_gt hversion, hopen⟩)

end OnMemory

def ClusterState.register (s : ClusterState) (taskId : String) : Option (Register TaskStatus) :=
  (s.tasks.get? taskId).map Task.register

def ClusterStore.register (s : ClusterStore) (taskId : String) : Option (Register TaskStatus) :=
  (s.tasks.get? taskId).map Task.register

def SyncTable.register (s : SyncTable) (taskId : String) : Option (Register String) :=
  (s.tasks.get? taskId).map SyncRow.register

/-- A payload whose status is a member of the enum: the rows of `ClusterStore` hold
no other one. -/
def SyncMessage.Decodes (msg : SyncMessage) : Prop :=
  ∀ ts, msg.taskState = some ts → (TaskStatus.ofValue ts.status).isSome

/-- A SQL store on statuses of the enum. -/
def TaskSync.onStore (ts : TaskSync) (_ : Option (Register TaskStatus)) :
    Option (Register TaskStatus) :=
  (TaskStatus.ofValue ts.status).map (fun status => ⟨status, ts.assignedTo, ts.version⟩)

/-! ## Delivery -/

/-- A handled message moves the gate and acts on the registers. -/
structure SyncPort.Delivers {σ ρ : Type} (port : SyncPort σ) (view : σ → String → ρ)
    (write : SyncMessage → ρ → ρ) (P : SyncMessage → Prop) : Prop where
  version : ∀ now msg s, port.syncVersion s < msg.version →
    port.syncVersion (port.handle now msg s).2 = msg.version
  registers : ∀ now msg s, P msg → port.syncVersion s < msg.version →
    view (port.handle now msg s).2 = Delivery.act SyncMessage.target write msg (view s)

/-- A batch is a delivery. -/
theorem SyncPort.Delivers.receiveBatch {σ ρ : Type} {port : SyncPort σ} {view : σ → String → ρ}
    {write : SyncMessage → ρ → ρ} {P : SyncMessage → Prop} (h : port.Delivers view write P)
    {msgs : List SyncMessage} (hmsgs : ∀ msg ∈ msgs, P msg) (clock : Nat → Nat) (s : σ) :
    (port.syncVersion (Sync.receiveBatch port msgs clock s).2,
        view (Sync.receiveBatch port msgs clock s).2) =
      Delivery.deliver SyncMessage.version (Delivery.act SyncMessage.target write)
        (port.syncVersion s, view s) msgs := by
  induction msgs generalizing clock s with
  | nil => rfl
  | cons msg msgs ih =>
      rw [List.forall_mem_cons] at hmsgs
      refine (ih hmsgs.2 _ _).trans ?_
      rw [Delivery.deliver_cons, Sync.receiveSingle]
      rcases le_or_gt msg.version (port.syncVersion s) with hstale | hlive
      · rw [if_pos hstale, Delivery.receive_stale hstale]
      · rw [if_neg (not_le_of_gt hlive), Delivery.receive_live hlive, h.version _ _ _ hlive,
          h.registers _ _ _ hmsgs.1 hlive]

theorem register_of_write {α S : Type} [HasKey α String] {view : α → Register S}
    {msg : SyncMessage} {ts : TaskSync} (hts : msg.taskState = some ts) {rows rows' : Table α}
    {f : TaskSync → Option (Register S) → Option (Register S)}
    (hrow : (rows'.get? ts.taskId).map view = f ts ((rows.get? ts.taskId).map view))
    (hother : ∀ taskId, taskId ≠ ts.taskId → rows'.get? taskId = rows.get? taskId) :
    (fun taskId => (rows'.get? taskId).map view) =
      Delivery.act SyncMessage.target (SyncMessage.write f) msg
        (fun taskId => (rows.get? taskId).map view) := by
  have htarget : msg.target = some ts.taskId := by rw [SyncMessage.target, hts]; rfl
  funext taskId
  by_cases hid : taskId = ts.taskId
  · subst hid
    rw [Delivery.act_of_target htarget, SyncMessage.write, hts]
    exact hrow
  · have hne : msg.target ≠ some taskId := by
      rw [htarget]
      exact fun heq => hid (Option.some.inj heq).symm
    rw [Delivery.act_of_ne hne, hother taskId hid]

theorem act_of_no_payload {ρ : Type} {write : SyncMessage → ρ → ρ} {msg : SyncMessage}
    (hts : msg.taskState = none) (y : String → ρ) :
    Delivery.act SyncMessage.target write msg y = y := by
  rw [Delivery.act, SyncMessage.target, hts]
  rfl

theorem SyncTable.delivers :
    SyncTable.port.Delivers SyncTable.register (SyncMessage.write TaskSync.onTable)
      (fun _ => True) where
  version := by
    intro now msg s hlive
    change s.syncVersion < msg.version at hlive
    change (handleSyncMessage now msg s).2.syncVersion = msg.version
    unfold handleSyncMessage
    rw [if_neg (not_le_of_gt hlive)]
    dsimp only
    repeat' split
    all_goals rfl
  registers := by
    intro now msg s _ hlive
    change s.syncVersion < msg.version at hlive
    change (handleSyncMessage now msg s).2.register = _
    unfold handleSyncMessage
    rw [if_neg (not_le_of_gt hlive)]
    cases hts : msg.taskState with
    | none => exact (act_of_no_payload hts _).symm
    | some ts =>
        dsimp only
        split
        · rename_i row hget
          refine register_of_write hts ?_ (fun taskId hne => ?_)
          · rw [Table.get?_modify_self, hget]
            rfl
          · exact Table.get?_modify_ne _ _ _ (SyncRow.keepsKey_overwrite now ts) hne
        · rename_i hget
          refine register_of_write hts ?_ (fun taskId hne => ?_)
          · exact congrArg (Option.map SyncRow.register)
              ((Table.get?_upsert _ _ _).trans (if_pos rfl))
          · exact (Table.get?_upsert _ _ _).trans (if_neg (Ne.symm hne))

theorem ClusterState.delivers :
    ClusterState.port.Delivers ClusterState.register (SyncMessage.write TaskSync.onMemory)
      (fun _ => True) where
  version := by
    intro now msg s hlive
    change s.syncVersion < msg.version at hlive
    change (handleSyncMessage now msg s).2.syncVersion = msg.version
    unfold handleSyncMessage setTaskStatus
    rw [if_neg (not_le_of_gt hlive)]
    dsimp only
    repeat' split
    all_goals rfl
  registers := by
    intro now msg s _ hlive
    change s.syncVersion < msg.version at hlive
    change (handleSyncMessage now msg s).2.register = _
    unfold handleSyncMessage
    rw [if_neg (not_le_of_gt hlive)]
    cases hts : msg.taskState with
    | none => exact (act_of_no_payload hts _).symm
    | some ts =>
        dsimp only
        split
        · rename_i hget
          refine register_of_write hts ?_ (fun taskId hne => ?_)
          · rw [hget]
            exact congrArg (Option.map Task.register)
              ((Table.get?_upsert _ _ _).trans (if_pos rfl))
          · exact (Table.get?_upsert _ _ _).trans (if_neg (Ne.symm hne))
        · rename_i task hget
          have hkept : ¬ts.Accepted task.register →
              s.register = Delivery.act SyncMessage.target (SyncMessage.write TaskSync.onMemory)
                msg s.register := by
            intro haccepted
            refine register_of_write hts ?_ (fun _ _ => rfl)
            rw [hget]
            exact (ts.onMemory_of_not_accepted haccepted).symm
          split
          · rename_i hstale
            exact hkept (fun haccepted => absurd haccepted.1 (not_lt_of_ge hstale))
          · rename_i hnewer
            split
            · rename_i hunknown
              refine hkept (fun haccepted => ?_)
              obtain ⟨status, hvalue, -⟩ := haccepted.2
              rw [hunknown] at hvalue
              cases hvalue
            · rename_i status hvalue
              unfold setTaskStatus
              rw [hget]
              dsimp only
              by_cases hrefuses : Refuses task.status status
              · simp only [if_pos hrefuses, Bool.false_eq_true, if_false]
                refine hkept (fun haccepted => ?_)
                obtain ⟨status', hvalue', hopen⟩ := haccepted.2
                cases hvalue.symm.trans hvalue'
                exact hopen hrefuses
              · simp only [if_neg hrefuses, if_true]
                have hstatus : Table.KeepsKey (Task.withStatus now status "") := fun _ => rfl
                have hsync : Table.KeepsKey (Task.withSync ts.assignedTo ts.version) := fun _ => rfl
                refine register_of_write hts ?_ (fun taskId hne => ?_)
                · have hrow : ((s.tasks.modify ts.taskId _ hstatus).modify ts.taskId _ hsync).get?
                      ts.taskId =
                        some ((task.withStatus now status "").withSync ts.assignedTo
                          ts.version) := by
                    rw [Table.get?_modify_self, Table.get?_modify_self, hget]
                    rfl
                  have hversion : max (task.version + 1) ts.version = ts.version :=
                    max_eq_right (not_le.mp hnewer)
                  refine (congrArg (Option.map Task.register) hrow).trans ?_
                  rw [hget]
                  refine Eq.trans ?_ (ts.onMemory_of_accepted
                    (show task.register.version < ts.version from not_le.mp hnewer) hvalue
                    hrefuses).symm
                  exact congrArg (fun version => some
                    (⟨status, ts.keep task.assignedTo, version⟩ : Register TaskStatus)) hversion
                · exact (Table.get?_modify_ne _ _ _ hsync hne).trans
                    (Table.get?_modify_ne _ _ _ hstatus hne)

theorem ClusterStore.delivers :
    ClusterStore.port.Delivers ClusterStore.register (SyncMessage.write TaskSync.onStore)
      SyncMessage.Decodes where
  version := by
    intro now msg s hlive
    change s.syncVersion < msg.version at hlive
    change (handleSyncMessage now msg s).2.syncVersion = msg.version
    unfold handleSyncMessage
    rw [if_neg (not_le_of_gt hlive)]
    dsimp only
    repeat' split
    all_goals rfl
  registers := by
    intro now msg s hdecodes hlive
    change s.syncVersion < msg.version at hlive
    change (handleSyncMessage now msg s).2.register = _
    unfold handleSyncMessage
    rw [if_neg (not_le_of_gt hlive)]
    cases hts : msg.taskState with
    | none => exact (act_of_no_payload hts _).symm
    | some ts =>
        obtain ⟨status, hvalue⟩ := Option.isSome_iff_exists.mp (hdecodes ts hts)
        have hwritten : ∀ r, ts.onStore r = some ⟨status, ts.assignedTo, ts.version⟩ := by
          intro r
          rw [TaskSync.onStore, hvalue]
          rfl
        dsimp only
        rw [hvalue]
        dsimp only
        split
        · rename_i task hget
          have hkey : Table.KeepsKey
            (Task.overwriteSync now status ts.assignedTo ts.version) := fun _ => rfl
          refine register_of_write hts ?_ (fun taskId hne => ?_)
          · rw [hwritten]
            refine congrArg (Option.map Task.register)
              (Table.get?_modify_self _ _ (Task.overwriteSync now status ts.assignedTo ts.version)
                hkey) |>.trans ?_
            rw [hget]
            rfl
          · exact Table.get?_modify_ne _ _ _ hkey hne
        · rename_i hget
          refine register_of_write hts ?_ (fun taskId hne => ?_)
          · rw [Table.get?_insertOrIgnore, if_pos ⟨rfl, hget⟩, hwritten]
            rfl
          · rw [Table.get?_insertOrIgnore, if_neg]
            exact fun hboth => hne hboth.1.symm

/-! ## The SQL table as sync sees it -/

def Task.syncRow (t : Task) : SyncRow where
  id := t.id
  title := t.title
  status := t.status.value
  assignedTo := t.assignedTo
  version := t.version
  createdAt := t.createdAt
  updatedAt := t.updatedAt

theorem Task.key_syncRow (t : Task) : HasKey.key t.syncRow = HasKey.key t :=
  rfl

def ClusterStore.syncTable (s : ClusterStore) : SyncTable where
  tasks := s.tasks.project Task.syncRow Task.key_syncRow
  syncVersion := s.syncVersion

theorem TaskStatus.value_of_ofValue {text : String} {status : TaskStatus}
    (h : ofValue text = some status) : status.value = text := by
  have hfound := List.find?_some h
  exact of_decide_eq_true hfound

/-- On statuses of the enum the SQL store does to its rows what the table does. -/
theorem ClusterStore.handleSyncMessage_syncTable (now : Nat) {msg : SyncMessage}
    (hdecodes : msg.Decodes) (s : ClusterStore) :
    s.syncTable.handleSyncMessage now msg =
      ((s.handleSyncMessage now msg).1, (s.handleSyncMessage now msg).2.syncTable) := by
  unfold handleSyncMessage SyncTable.handleSyncMessage
  change (if msg.version ≤ s.syncVersion then _ else _) = _
  by_cases hstale : msg.version ≤ s.syncVersion
  · simp only [if_pos hstale]
  · simp only [if_neg hstale]
    cases hts : msg.taskState with
    | none => rfl
    | some ts =>
        obtain ⟨status, hvalue⟩ := Option.isSome_iff_exists.mp (hdecodes ts hts)
        have htext : status.value = ts.status := TaskStatus.value_of_ofValue hvalue
        have hproject : s.syncTable.tasks.get? ts.taskId =
            (s.tasks.get? ts.taskId).map Task.syncRow :=
          @Table.get?_project _ _ _ _ _ _ Task.key_syncRow s.tasks _ _
        simp only [hvalue, hproject]
        cases hget : s.tasks.get? ts.taskId with
        | none =>
            have hinsert : s.tasks.insertOrIgnore (ts.toTask now status) =
                s.tasks.upsert (ts.toTask now status) :=
              s.tasks.insertOrIgnore_of_fresh hget
            have hrow : (ts.toTask now status).syncRow = ts.toRow now := by
              rw [Task.syncRow, TaskSync.toRow, ← htext]
              rfl
            have htasks : (s.tasks.upsert (ts.toTask now status)).project Task.syncRow
                Task.key_syncRow = s.syncTable.tasks.upsert (ts.toRow now) := by
              rw [Table.project_upsert, hrow]
              rfl
            simp only [Option.map_none, hinsert]
            exact congrArg (fun tasks => (true, (⟨tasks, msg.version⟩ : SyncTable))) htasks.symm
        | some t =>
            have htasks : (s.tasks.modify ts.taskId
                (Task.overwriteSync now status ts.assignedTo ts.version)
                (fun _ => rfl)).project Task.syncRow Task.key_syncRow =
                s.syncTable.tasks.modify ts.taskId _ (SyncRow.keepsKey_overwrite now ts) := by
              refine s.tasks.project_modify _ _ _ _ _ (fun u => ?_)
              rw [Task.overwriteSync, Task.syncRow, SyncRow.overwrite, ← htext]
              rfl
            exact congrArg (fun tasks => (true, (⟨tasks, msg.version⟩ : SyncTable))) htasks.symm

end HermesCluster
