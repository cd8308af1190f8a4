import HermesCluster.Lib.Interleave
import HermesCluster.Lib.Json
import HermesCluster.Lib.PyValue
/-!
# The single-instance lock

`core/single_instance.py`: `acquire` binds a port and then writes who holds it to a
file, `release` closes the socket and then removes the file if it is its own. Both are
programs of socket and file operations, which two processes may interleave in any way;
the operating system lets one socket at a time be bound to the port.
-/

namespace HermesCluster

namespace SingleInstance

open Program hiding pure bind

/-! ## Operations -/

inductive BindResult where
  | bound
  | inUse
  | failed

inductive LockOp where
  | bind (sock : Nat)
  | close (sock : Nat)
  | isFile
  | readLock
  | unlink
  | mkdir
  | writeTmp (pid : Int) (document : Json)
  | replace (pid : Int)
  | probe (pid : Int)

/-- What an operation reports; an `OSError` is a `false`, or nothing read. -/
def LockOp.Res : LockOp → Type
  | .bind _ => BindResult
  | .close _ | .unlink => Unit
  | .isFile | .mkdir | .writeTmp _ _ | .replace _ | .probe _ => Bool
  | .readLock => Option Json

/-- The exceptions of `acquire` and `release`. -/
inductive LockError where
  | valueError
  | typeError
  | attributeError
  | couldNotBind (port : Nat)
  | portTaken (port : Nat) (holderPid : Int)
  | heldByLiveInstance (nodeId : String) (holderPid : Int) (holderToken : Option Json)

abbrev LockProgram := Program LockOp LockOp.Res LockError

abbrev LockOp.run (op : LockOp) : LockProgram op.Res :=
  perform op

/-- A process that runs `acquire`, with the time it reads. -/
structure Instance where
  nodeId : String
  pid : Int
  token : String
  port : Nat
  acquiredAt : Rat
  sock : Nat

/-- `SingleInstanceLock`. -/
structure Lock where
  nodeId : String
  sock : Nat
  token : String
  released : Bool := false

/-- What is written to the lock file. -/
def Instance.document (me : Instance) : Json :=
  .obj [("node_id", .str me.nodeId), ("pid", .num me.pid), ("token", .str me.token),
    ("port", .num me.port), ("acquired_at", .num me.acquiredAt)]

def Instance.lock (me : Instance) : Lock :=
  ⟨me.nodeId, me.sock, me.token, false⟩

/-! ## Release -/

/-- `data.get("token") == token` of an object. -/
def hasToken (token : String) (document : Json) : Bool :=
  match document.get? "token" with
  | some (.str t) => t = token
  | _ => false

/-- `path.unlink()`. -/
def unlinkFile : LockProgram Unit :=
  LockOp.unlink.run

/-- What `release` does once it has read the file. -/
def unlinkIfOwn (lock : Lock) : Option Json → LockProgram Unit
  | none => Program.pure ()
  | some data =>
      if data.truthy = false then Program.pure ()
      else
        match data with
        | .obj _ => if hasToken lock.token data = true then unlinkFile else Program.pure ()
        | _ => .raise .attributeError

def readAndUnlink (lock : Lock) (isFile : Bool) : LockProgram Unit :=
  if isFile = true then LockOp.readLock.run >>= unlinkIfOwn lock else Program.pure ()

/-- `SingleInstanceLock.release`. -/
def release (lock : Lock) : LockProgram Unit :=
  if lock.released = true then Program.pure ()
  else (LockOp.close lock.sock).run >>= fun _ => LockOp.isFile.run >>= readAndUnlink lock

/-! ## Acquire -/

/-- The lock that `acquire` returns, and whether it logged that the file could not be
written. -/
structure Acquired where
  lock : Lock
  warned : Bool

/-- `os.kill(pid, 0)`: whether the process is there. -/
def probe (pid : Int) : LockProgram Bool :=
  (LockOp.probe pid).run

/-- `pid_alive`. -/
def pidAlive (pid : Int) : LockProgram Bool :=
  if pid ≤ 0 then Program.pure false else probe pid

section Acquire

variable [Unicode]

/-- `int(data.get("pid") or 0)`. -/
def holderPid : Option Json → Except LockError Int
  | none => .ok 0
  | some json =>
      if json.truthy = false then .ok 0
      else
        match json with
        | .num q => .ok (PyFloat.truncate q)
        | .bool _ => .ok 1
        | .str s =>
            match Decimal.int s with
            | some n => .ok n
            | none => .error .valueError
        | _ => .error .typeError

/-- The port is held: by whom, as far as the file tells. -/
def refuse (me : Instance) (data : Option Json) : LockProgram Acquired :=
  let found := data.filter Json.truthy
  match found.getD (.obj []) with
  | .obj fields =>
      match holderPid (fields.lookup "pid") with
      | .error e => .raise e
      | .ok pid =>
          if pid = 0 then .raise (.portTaken me.port pid)
          else pidAlive pid >>= fun alive =>
            if alive = true then
              .raise (.heldByLiveInstance me.nodeId pid (fields.lookup "token"))
            else .raise (.portTaken me.port pid)
  | _ => .raise .attributeError

/-- The file that was written is put in its place. -/
def putLock (me : Instance) (written : Bool) : LockProgram Acquired :=
  if written = true then
    (LockOp.replace me.pid).run >>= fun replaced : Bool => Program.pure ⟨me.lock, !replaced⟩
  else Program.pure ⟨me.lock, true⟩

/-- The file is written next to its place. -/
def writeTmp (me : Instance) (made : Bool) : LockProgram Acquired :=
  if made = true then (LockOp.writeTmp me.pid me.document).run >>= putLock me
  else Program.pure ⟨me.lock, true⟩

def writeLock (me : Instance) : LockProgram Acquired :=
  LockOp.mkdir.run >>= writeTmp me

/-- What `acquire` does once it has tried to bind. -/
def acquireBound (me : Instance) : BindResult → LockProgram Acquired
  | .bound => writeLock me
  | .failed => (LockOp.close me.sock).run >>= fun _ => .raise (.couldNotBind me.port)
  | .inUse => (LockOp.close me.sock).run >>= fun _ => LockOp.readLock.run >>= refuse me

/-- `acquire`. -/
def acquire (me : Instance) : LockProgram Acquired :=
  if me.nodeId = "" then .raise .valueError
  else (LockOp.bind me.sock).run >>= acquireBound me

end Acquire

/-! ## The operating system -/

/-- The socket that holds the port, and the files; the content of a file is what
`json.loads` makes of it, if anything. -/
structure LockWorld where
  holder : Option Nat
  file : Option (Option Json)
  tmp : Int → Option Json := fun _ => none

/-- What goes wrong with an operation, and whether the probed process lives. -/
structure Fault where
  fails : Bool := false
  alive : Bool := true

def lockStep (fault : Fault) : (op : LockOp) → LockWorld → op.Res × LockWorld
  | .bind sock, w =>
      if fault.fails = true then (.failed, w)
      else if w.holder = none then (.bound, { w with holder := some sock })
      else (.inUse, w)
  | .close sock, w => ((), if w.holder = some sock then { w with holder := none } else w)
  | .isFile, w => (w.file.isSome && !fault.fails, w)
  | .readLock, w => (if fault.fails = true then none else w.file.join, w)
  | .unlink, w => ((), if fault.fails = true then w else { w with file := none })
  | .mkdir, w => (!fault.fails, w)
  | .writeTmp pid document, w =>
      if fault.fails = true then (false, w)
      else (true, { w with tmp := Function.update w.tmp pid (some document) })
  | .replace pid, w =>
      if fault.fails = true then (false, w)
      else
        match w.tmp pid with
        | some document =>
            (true, { w with file := some (some document), tmp := Function.update w.tmp pid none })
        | none => (false, w)
  | .probe _, w => (fault.alive, w)

/-! ## Two processes -/

/-- How a program of the two ends. -/
inductive LockResult where
  | released
  | acquired (a : Acquired)

/-- The previous holder releases while the next one acquires. -/
def handover [Unicode] (old : Lock) (new : Instance) :
    Pool LockOp LockOp.Res LockError LockResult :=
  [release old >>= fun _ => Program.pure .released,
    acquire new >>= fun a => Program.pure (.acquired a)]

/-- The pool and the world. -/
abbrev Handover := Pool LockOp LockOp.Res LockError LockResult × LockWorld

/-- The turns of both. -/
abbrev turns : Machine Handover (Turn Fault) Unit :=
  Pool.machine lockStep

/-- The program at a position is about to perform an operation. -/
def isAbout (p : LockOp → Bool) (i : Nat) (s : Handover) : Bool :=
  match s.1[i]? with
  | some (.call op _) => p op
  | _ => false

/-- `os.replace`, by any process. -/
def isReplace : LockOp → Bool
  | .replace _ => true
  | _ => false

def isUnlink : LockOp → Bool
  | .unlink => true
  | _ => false

/-- The next holder's `acquire` has returned without a warning. -/
def hasAcquired (s : Handover) : Bool :=
  match s.1[(1 : Nat)]? with
  | some (.pure (.acquired a)) => !a.warned
  | _ => false

/-- Once `acquire` has returned without a warning, the file names the process that
holds the port. -/
def NamesHolder (new : Instance) (s : Handover) : Prop :=
  hasAcquired s = true →
    s.2.holder = some new.sock ∧ s.2.file = some (some new.document)

/-- The previous holder does not delete the file of the next one. -/
def Spares (new : Instance) (turn : Turn Fault) (s : Handover) : Prop :=
  turn.position = 0 → isAbout isUnlink 0 s = true → s.2.file ≠ some (some new.document)

/-- No file is put in its place between the previous holder's look at it and its removal. -/
def KeepsClear (turn : Turn Fault) (s : Handover) : Prop :=
  isAbout isReplace turn.position s = true → turn.env.fails = false →
    isAbout isUnlink 0 s = false

instance (turn : Turn Fault) (s : Handover) : Decidable (KeepsClear turn s) :=
  inferInstanceAs (Decidable (_ → _))

/-! ## The release -/

/-- What the release ends with, once `f` is all that is left of it. -/
abbrev released (f : LockProgram Unit) : LockProgram LockResult :=
  f >>= fun _ => Program.pure .released

/-- How far the release is; when it is about to remove the file, the file has its token. -/
inductive Releasing (old : Lock) (w : LockWorld) : LockProgram LockResult → Prop
  | closing : Releasing old w
      (.call (.close old.sock) fun _ => .call .isFile fun b => released (readAndUnlink old b))
  | looking : Releasing old w (.call .isFile fun b => released (readAndUnlink old b))
  | reading : Releasing old w (.call .readLock fun data => released (unlinkIfOwn old data))
  | unlinking (document : Json) (hfile : w.file = some (some document))
      (htoken : hasToken old.token document = true) :
      Releasing old w (.call .unlink fun _ => .pure .released)
  | returned (r : LockResult) : Releasing old w (.pure r)
  | raised (e : LockError) : Releasing old w (.raise e)

section Release

variable {old : Lock} {new : Instance} {w w' : LockWorld} {op : LockOp}
  {next : op.Res → LockProgram LockResult} {p : LockProgram LockResult}

theorem releasing_release : Releasing old w (released (release old)) := by
  unfold released release
  split
  · exact .returned _
  · exact .closing

theorem releasing_readAndUnlink (b : Bool) : Releasing old w (released (readAndUnlink old b)) := by
  unfold released readAndUnlink
  split
  · exact .reading
  · exact .returned _

theorem unlinkIfOwn_cases (old : Lock) (data : Option Json) :
    unlinkIfOwn old data = .pure () ∨ unlinkIfOwn old data = .raise .attributeError ∨
      ∃ json ∈ data, hasToken old.token json = true ∧
        unlinkIfOwn old data = unlinkFile := by
  unfold unlinkIfOwn
  split
  · exact .inl rfl
  · split
    · exact .inl rfl
    · split
      · split
        · rename_i htoken
          exact .inr (.inr ⟨_, rfl, htoken, rfl⟩)
        · exact .inl rfl
      · exact .inr (.inl rfl)

theorem releasing_unlinkIfOwn {data : Option Json}
    (hdata : ∀ json ∈ data, w.file = some (some json)) :
    Releasing old w (released (unlinkIfOwn old data)) := by
  rcases unlinkIfOwn_cases old data with h | h | ⟨json, hjson, htoken, h⟩
  · rw [h]
    exact .returned _
  · rw [h]
    exact .raised _
  · rw [h]
    exact .unlinking json (hdata json hjson) htoken

/-- The file matters to the release only while it is about to remove it. -/
theorem Releasing.of_file (h : Releasing old w p)
    (hfile : (∃ next, p = .call .unlink next) → w'.file = w.file) : Releasing old w' p := by
  cases h with
  | closing => exact .closing
  | looking => exact .looking
  | reading => exact .reading
  | unlinking document hw htoken => exact .unlinking document ((hfile ⟨_, rfl⟩).trans hw) htoken
  | returned r => exact .returned r
  | raised e => exact .raised e

theorem Releasing.step (h : Releasing old w (.call op next)) (fault : Fault) :
    Releasing old (lockStep fault op w).2 (next (lockStep fault op w).1) := by
  cases h with
  | closing => exact .looking
  | looking => exact releasing_readAndUnlink _
  | reading =>
      refine releasing_unlinkIfOwn fun json hjson => ?_
      have hread : (if fault.fails = true then none else w.file.join) = some json := hjson
      split at hread
      · cases hread
      · exact Option.join_eq_some_iff.mp hread
  | unlinking document hw htoken => exact .returned _

/-- What the release does to the world: it takes the port from no other socket, and the
file from nobody with another token. -/
theorem Releasing.frame (h : Releasing old w (.call op next)) (hsock : old.sock ≠ new.sock)
    (htoken : old.token ≠ new.token) (fault : Fault) :
    (w.holder = some new.sock → (lockStep fault op w).2.holder = some new.sock) ∧
      (lockStep fault op w).2.tmp = w.tmp ∧
      (w.file = some (some new.document) →
        (lockStep fault op w).2.file = some (some new.document)) := by
  cases h with
  | closing =>
      simp only [lockStep]
      split
      · rename_i hheld
        refine ⟨fun hport => ?_, rfl, id⟩
        rw [hport] at hheld
        exact absurd (Option.some.inj hheld).symm hsock
      · exact ⟨id, rfl, id⟩
  | looking => exact ⟨id, rfl, id⟩
  | reading => exact ⟨id, rfl, id⟩
  | unlinking document hfile howned =>
      have hother : w.file ≠ some (some new.document) := by
        intro hnew
        rw [hnew] at hfile
        obtain rfl := Option.some.inj (Option.some.inj hfile)
        have hsame : new.token = old.token := of_decide_eq_true howned
        exact htoken hsame.symm
      simp only [lockStep]
      split
      · exact ⟨id, rfl, id⟩
      · exact ⟨id, rfl, fun hnew => absurd hnew hother⟩

end Release

/-! ## The acquisition -/

/-- What the acquisition ends with, once `f` is all that is left of it. -/
abbrev acquired (f : LockProgram Acquired) : LockProgram LockResult :=
  f >>= fun a => Program.pure (.acquired a)

/-- What an `acquire` may do that found the port held. -/
def Refusing (new : Instance) : LockOp → Prop
  | .close sock => sock = new.sock
  | .readLock | .probe _ => True
  | _ => False

section Acquisition

variable [Unicode]

/-- How far the acquisition is. From the bind on its socket holds the port, and once it
has returned without a warning the file is its own. -/
inductive Acquiring (new : Instance) (w : LockWorld) : LockProgram LockResult → Prop
  | binding : Acquiring new w (.call (.bind new.sock) fun r => acquired (acquireBound new r))
  | making (hport : w.holder = some new.sock) :
      Acquiring new w (.call .mkdir fun made => acquired (writeTmp new made))
  | writing (hport : w.holder = some new.sock) :
      Acquiring new w (.call (.writeTmp new.pid new.document) fun written =>
        acquired (putLock new written))
  | replacing (hport : w.holder = some new.sock) (htmp : w.tmp new.pid = some new.document) :
      Acquiring new w (.call (.replace new.pid) fun replaced =>
        .pure (.acquired ⟨new.lock, !replaced⟩))
  | acquired (a : Acquired) (h : a.warned = false →
      w.holder = some new.sock ∧ w.file = some (some new.document)) :
      Acquiring new w (.pure (.acquired a))
  | refused (p : LockProgram LockResult) (honly : p.Only (Refusing new))
      (hnever : p.Returns fun _ => False) : Acquiring new w p

variable {new : Instance} {w w' : LockWorld} {op : LockOp}
  {next : op.Res → LockProgram LockResult} {p : LockProgram LockResult}

theorem acquiring_warned {a : Acquired} (h : a.warned = true) :
    Acquiring new w (.pure (.acquired a)) := by
  refine .acquired a fun hclean => ?_
  rw [h] at hclean
  cases hclean

theorem acquiring_putLock {written : Bool} (hport : w.holder = some new.sock)
    (htmp : written = true → w.tmp new.pid = some new.document) :
    Acquiring new w (acquired (putLock new written)) := by
  unfold acquired putLock
  split
  · rename_i h
    exact .replacing hport (htmp h)
  · exact acquiring_warned rfl

theorem acquiring_writeTmp {made : Bool} (hport : w.holder = some new.sock) :
    Acquiring new w (acquired (writeTmp new made)) := by
  unfold acquired writeTmp
  split
  · exact .writing hport
  · exact acquiring_warned rfl

theorem refuse_only (data : Option Json) :
    (refuse new data).Only (Refusing new) ∧ (refuse new data).Returns fun _ => False := by
  unfold refuse
  dsimp only
  split
  · split
    · exact ⟨trivial, trivial⟩
    · split
      · exact ⟨trivial, trivial⟩
      · refine ⟨only_bind ?_ fun alive => ?_, returns_bind (returns_true _) fun alive _ => ?_⟩
        · unfold pidAlive
          split
          · trivial
          · exact ⟨trivial, fun _ => trivial⟩
        · split <;> trivial
        · split <;> trivial
  · exact ⟨trivial, trivial⟩

theorem acquiring_refused {f : LockProgram Acquired} (honly : f.Only (Refusing new))
    (hnever : f.Returns fun _ => False) : Acquiring new w (acquired f) :=
  .refused _ (only_bind honly fun _ => trivial) (returns_bind hnever fun _ h => h.elim)

theorem acquiring_acquire : Acquiring new w (acquired (acquire new)) := by
  unfold acquired acquire
  split
  · exact acquiring_refused trivial trivial
  · exact .binding

theorem Acquiring.step (h : Acquiring new w (.call op next)) (fault : Fault) :
    Acquiring new (lockStep fault op w).2 (next (lockStep fault op w).1) := by
  cases h with
  | binding =>
      simp only [lockStep]
      split
      · exact acquiring_refused ⟨rfl, fun _ => trivial⟩ (fun _ => trivial)
      · split
        · exact .making rfl
        · exact acquiring_refused ⟨rfl, fun _ => ⟨trivial, fun data => (refuse_only data).1⟩⟩
            (fun _ data => (refuse_only data).2)
  | making hport => exact acquiring_writeTmp hport
  | writing hport =>
      simp only [lockStep]
      split
      · exact acquiring_putLock hport (fun h => by cases h)
      · exact acquiring_putLock hport (fun _ => Function.update_self ..)
  | replacing hport htmp =>
      simp only [lockStep, htmp]
      split
      · exact acquiring_warned rfl
      · exact .acquired _ fun _ => ⟨hport, rfl⟩
  | refused _ honly hnever => exact .refused _ (honly.2 _) (hnever _)

/-- What the acquisition relies on. -/
theorem Acquiring.of_world (h : Acquiring new w p)
    (hholder : w.holder = some new.sock → w'.holder = some new.sock) (htmp : w'.tmp = w.tmp)
    (hfile : w.file = some (some new.document) → w'.file = some (some new.document)) :
    Acquiring new w' p := by
  cases h with
  | binding => exact .binding
  | making hport => exact .making (hholder hport)
  | writing hport => exact .writing (hholder hport)
  | replacing hport htmp' => exact .replacing (hholder hport) (by rw [htmp, htmp'])
  | acquired a h => exact .acquired a fun ha => ⟨hholder (h ha).1, hfile (h ha).2⟩
  | refused _ honly hnever => exact .refused _ honly hnever

/-- Only a replacement of the file that goes through changes it. -/
theorem Acquiring.frame (h : Acquiring new w (.call op next)) {fault : Fault}
    (hop : isReplace op = true → fault.fails = true) :
    (lockStep fault op w).2.file = w.file := by
  cases h with
  | binding =>
      simp only [lockStep]
      split_ifs <;> rfl
  | making hport => rfl
  | writing hport =>
      simp only [lockStep]
      split_ifs <;> rfl
  | replacing hport htmp =>
      simp only [lockStep]
      rw [if_pos (hop rfl)]
  | refused _ honly hnever =>
      cases op with
      | close sock =>
          simp only [lockStep]
          split_ifs <;> rfl
      | readLock => rfl
      | probe pid => rfl
      | _ => exact absurd honly.1 id

end Acquisition

/-! ## Every interleaving -/

section Interleaving

variable [Unicode] {old : Lock} {new : Instance}

/-- The assertions of both programs. -/
def Positions (old : Lock) (new : Instance) : Nat → LockProgram LockResult → LockWorld → Prop
  | 0, p, w => Releasing old w p
  | 1, p, w => Acquiring new w p
  | _, _, _ => False

theorem Positions.cases {i : Nat} {p : LockProgram LockResult} {w : LockWorld}
    (h : Positions old new i p w) :
    i = 0 ∧ Releasing old w p ∨ i = 1 ∧ Acquiring new w p := by
  unfold Positions at h
  split at h
  · exact .inl ⟨rfl, h⟩
  · exact .inr ⟨rfl, h⟩
  · exact h.elim

theorem asserts_handover (w : LockWorld) :
    Pool.Asserts (Positions old new) (handover old new, w) := by
  intro i p hp
  rcases i with - | - | i
  · obtain rfl := Option.some.inj hp
    exact releasing_release
  · obtain rfl := Option.some.inj hp
    exact acquiring_acquire
  · cases hp

omit [Unicode] in
theorem isAbout_of_call {s : Handover} {i : Nat} {op : LockOp}
    {next : op.Res → LockProgram LockResult} (h : s.1[i]? = some (.call op next))
    (p : LockOp → Bool) : isAbout p i s = p op := by
  unfold isAbout
  rw [h]

theorem asserts_turns {inputs : List (Turn Fault)} {w : LockWorld}
    (hsock : old.sock ≠ new.sock) (htoken : old.token ≠ new.token)
    (hclear : turns.Meets KeepsClear inputs (handover old new, w)) :
    Pool.Asserts (Positions old new) (turns.after inputs (handover old new, w)) := by
  refine Pool.asserts_after (asserts_handover w) hclear ?_ ?_
  · rintro ⟨position, fault⟩ s op next hs _ hturn
    rcases (hs position _ hturn).cases with ⟨rfl, hhere⟩ | ⟨rfl, hhere⟩
    · exact hhere.step fault
    · exact hhere.step fault
  · rintro ⟨position, fault⟩ s op next hs hclear hturn i p hi hp
    rcases (hs position _ hturn).cases with ⟨rfl, hhere⟩ | ⟨rfl, hhere⟩
    · rcases (hs i p hp).cases with ⟨rfl, -⟩ | ⟨rfl, hthere⟩
      · exact absurd rfl hi
      · obtain ⟨hholder, htmp, hfile⟩ := hhere.frame hsock htoken fault
        exact hthere.of_world hholder htmp hfile
    · rcases (hs i p hp).cases with ⟨rfl, hthere⟩ | ⟨rfl, -⟩
      · refine hthere.of_file fun ⟨next', hunlink⟩ => ?_
        rw [hunlink] at hp
        refine hhere.frame fun hreplace => ?_
        -- The release is about to remove the file, so a replacement does not go through.
        by_contra hfault
        have habout : isAbout isReplace 1 s = true := by
          rw [isAbout_of_call hturn, hreplace]
        have hnot := hclear habout (by simpa using hfault)
        rw [isAbout_of_call hp] at hnot
        cases hnot
      · exact absurd rfl hi

theorem namesHolder_of_asserts {s : Handover} (hs : Pool.Asserts (Positions old new) s) :
    NamesHolder new s := by
  intro hacquired
  unfold hasAcquired at hacquired
  split at hacquired
  · rename_i a ha
    have hclean : a.warned = false := by simpa using hacquired
    have hassert : Acquiring new s.2 (.pure (.acquired a)) := hs 1 _ ha
    cases hassert with
    | acquired _ h => exact h hclean
    | refused _ _ hnever => exact hnever.elim
  · cases hacquired

theorem spares_of_asserts {s : Handover} (hs : Pool.Asserts (Positions old new) s)
    (htoken : old.token ≠ new.token) (turn : Turn Fault) : Spares new turn s := by
  intro _ habout hnew
  unfold isAbout at habout
  split at habout
  · rename_i op next hop
    have hassert : Releasing old s.2 (.call op next) := hs 0 _ hop
    cases hassert with
    | unlinking document hfile howned =>
        rw [hnew] at hfile
        obtain rfl := Option.some.inj (Option.some.inj hfile)
        have hsame : new.token = old.token := of_decide_eq_true howned
        exact htoken hsame.symm
    | _ => cases habout
  · cases habout

/-- In whatever order the operations of the two processes come, and whatever fails: if
their tokens differ and the new file is never put in its place while the previous holder,
having found its own token in the file, is about to remove it, then the previous holder
never deletes the file of the next one, and from its return without a warning on the file
names the process whose socket holds the port. -/
theorem lock_file_names_holder (old : Lock) (new : Instance) (w : LockWorld)
    (inputs : List (Turn Fault)) (hsock : old.sock ≠ new.sock) (htoken : old.token ≠ new.token)
    (hclear : turns.Meets KeepsClear inputs (handover old new, w)) :
    turns.Meets (Spares new) inputs (handover old new, w) ∧
      ∀ past, past <+: inputs → NamesHolder new (turns.after past (handover old new, w)) := by
  have hasserts : ∀ past, past <+: inputs →
      Pool.Asserts (Positions old new) (turns.after past (handover old new, w)) :=
    fun past hpast => asserts_turns hsock htoken (hclear.of_prefix hpast)
  refine ⟨Machine.meets_of_prefix fun past turn hpast => ?_, fun past hpast => ?_⟩
  · exact spares_of_asserts (hasserts past ((List.prefix_append _ _).trans hpast)) htoken turn
  · exact namesHolder_of_asserts (hasserts past hpast)

end Interleaving

section Examples

local instance asciiLocks : Unicode := Unicode.ascii

def stopping : Lock where
  nodeId := "w1"
  sock := 1
  token := "a1"

def starting : Instance where
  nodeId := "w1"
  pid := 200
  token := "b2"
  port := 10899
  acquiredAt := 0
  sock := 2

/-- The previous holder, with process id 100, holds the port and is named in the file. -/
def held : LockWorld where
  holder := some 1
  file := some (some (.obj [("pid", .num 100), ("token", .str "a1")]))

/-- The next process binds as soon as the socket is closed, and writes the file when the
previous one has removed its own. -/
def inOrder : List (Turn Fault) :=
  [⟨0, {}⟩, ⟨1, {}⟩, ⟨0, {}⟩, ⟨0, {}⟩, ⟨1, {}⟩, ⟨0, {}⟩, ⟨1, {}⟩, ⟨1, {}⟩]

theorem lock_file_names_holder_inOrder :
    NamesHolder starting (turns.after inOrder (handover stopping starting, held)) :=
  (lock_file_names_holder stopping starting held inOrder (by decide) (by decide)
    (by decide)).2 inOrder List.prefix_rfl

/-- The file is written between the previous holder's look at its own and its removal. -/
def overtaken : List (Turn Fault) :=
  [⟨0, {}⟩, ⟨0, {}⟩, ⟨0, {}⟩, ⟨1, {}⟩, ⟨1, {}⟩, ⟨1, {}⟩, ⟨1, {}⟩, ⟨0, {}⟩]

/-- The next holder has its port, but its file is gone. -/
theorem overtaken_file_deleted :
    ¬(turns.Meets (Spares starting) overtaken (handover stopping starting, held) ∧
      ∀ past, past <+: overtaken →
        NamesHolder starting (turns.after past (handover stopping starting, held))) := by
  rintro ⟨-, hnames⟩
  have hfile := (hnames overtaken List.prefix_rfl rfl).2
  cases hfile

end Examples

end SingleInstance

end HermesCluster
