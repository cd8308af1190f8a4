import HermesCluster.Sync.Messages
/-!
# When the order of sync messages is free

Two coordinators start from one state and receive the same messages in two orders.
There is one gate for all tasks, so a message about one task can shut out an
earlier one about another. The outcome is the same in every order only where at
most one task is written, and where whatever comes through before a message of the
highest version leaves no trace behind it.
-/

namespace HermesCluster

open Delivery

/-! ## Rows that follow a row -/

theorem ClusterState.refuses_of_written {current requested status : TaskStatus}
    (hopen : ¬Refuses current requested) (h : Refuses current status) :
    Refuses requested status := by
  have hcancel : current = .cancelRequested ∧ requested = .cancelled := by
    by_contra hother
    exact hopen ⟨h.1, hother⟩
  rw [hcancel.2]
  refine ⟨.inr (.inr (.inl rfl)), fun hboth => ?_⟩
  cases hboth.1

/-- What is not accepted at the first row is not accepted at the second. -/
structure Register.Follows (row r : Register TaskStatus) : Prop where
  version : row.version ≤ r.version
  refuses : ∀ status, ClusterState.Refuses row.status status →
    ClusterState.Refuses r.status status

namespace TaskSync

variable {ts : TaskSync} {row r : Register TaskStatus}

/-- What the in-memory store writes over a row. -/
def written (ts : TaskSync) (row : Register TaskStatus) : Register TaskStatus where
  status := ts.createdStatus
  assignedTo := ts.keep row.assignedTo
  version := ts.version

theorem createdStatus_of_ofValue {status : TaskStatus}
    (h : TaskStatus.ofValue ts.status = some status) : ts.createdStatus = status := by
  rw [createdStatus, h]
  rfl

theorem Accepted.onMemory_eq (h : ts.Accepted row) :
    ts.onMemory (some row) = some (ts.written row) := by
  obtain ⟨hversion, status, hvalue, hopen⟩ := h
  rw [ts.onMemory_of_accepted hversion hvalue hopen, written, createdStatus_of_ofValue hvalue]

theorem Accepted.not_refuses (h : ts.Accepted row) :
    ¬ClusterState.Refuses row.status ts.createdStatus := by
  obtain ⟨-, status, hvalue, hopen⟩ := h
  rw [createdStatus_of_ofValue hvalue]
  exact hopen

theorem Accepted.ofValue_eq (h : ts.Accepted row) :
    TaskStatus.ofValue ts.status = some ts.createdStatus := by
  obtain ⟨-, status, hvalue, -⟩ := h
  rw [createdStatus_of_ofValue hvalue, hvalue]

theorem Accepted.follows (h : ts.Accepted row) : row.Follows (ts.written row) where
  version := h.1.le
  refuses := fun _ => ClusterState.refuses_of_written h.not_refuses

theorem Accepted.of_follows (hfollows : row.Follows r) (h : ts.Accepted r) : ts.Accepted row := by
  obtain ⟨hversion, status, hvalue, hopen⟩ := h
  exact ⟨hfollows.version.trans_lt hversion, status, hvalue,
    fun hrefuses => hopen (hfollows.refuses status hrefuses)⟩

theorem keep_of_empty (h : ts.assignedTo.getD "" = "") (stored : Option String) :
    ts.keep stored = stored :=
  if_pos h

theorem keep_of_named (h : ts.assignedTo.getD "" ≠ "") (stored : Option String) :
    ts.keep stored = ts.assignedTo :=
  if_neg h

theorem le_version_of_onMemory (h : ts.onMemory (some row) = some r) : row.version ≤ r.version := by
  by_cases haccepted : ts.Accepted row
  · rw [haccepted.onMemory_eq, Option.some.injEq] at h
    subst h
    exact haccepted.1.le
  · rw [ts.onMemory_of_not_accepted haccepted, Option.some.injEq] at h
    exact h ▸ le_rfl

end TaskSync

theorem Register.Follows.refl (row : Register TaskStatus) : row.Follows row where
  version := le_rfl
  refuses := fun _ h => h

theorem Register.Follows.trans {row r r' : Register TaskStatus} (h : row.Follows r)
    (h' : r.Follows r') : row.Follows r' where
  version := h.version.trans h'.version
  refuses := fun status hrefuses => h'.refuses status (h.refuses status hrefuses)

/-! ## The condition -/

/-- A message about a task that is above the gate at the start. -/
structure Offered (version : Int) (msgs : List SyncMessage) (taskId : String)
    (msg : SyncMessage) (ts : TaskSync) : Prop where
  mem : msg ∈ msgs
  live : version < msg.version
  payload : msg.taskState = some ts
  task : ts.taskId = taskId

/-- The messages about a task that is there lead to one outcome: all top messages
write it; of the other accepted ones each either writes the outcome itself, or
something of a lower version that keeps no writer of the outcome out and that
leaves no assignee to one that names none. -/
structure MemoryOutcome (version : Int) (msgs : List SyncMessage) (taskId : String)
    (row outcome : Register TaskStatus) : Prop where
  tops : ∀ msg ts, IsTop SyncMessage.version version msgs msg → msg.taskState = some ts →
    ts.Accepted row ∧ ts.version = outcome.version
  final : ∀ msg ts, Offered version msgs taskId msg ts → ts.Accepted row →
    ts.version = outcome.version →
    ts.createdStatus = outcome.status ∧ ts.keep row.assignedTo = outcome.assignedTo
  early : ∀ msg ts, Offered version msgs taskId msg ts → ts.Accepted row →
    ts.version ≠ outcome.version →
    ts.version < outcome.version ∧ ¬ClusterState.Refuses ts.createdStatus outcome.status
  behind : ∀ msg ts msg' ts', Offered version msgs taskId msg ts → ts.Accepted row →
    ts.version ≠ outcome.version → Offered version msgs taskId msg' ts' → ts'.Accepted row →
    ts'.version = outcome.version → msg.version < msg'.version →
    ts'.assignedTo.getD "" ≠ "" ∨ ts.keep row.assignedTo = row.assignedTo

/-- The same for a task that is not there, and that the first message creates. -/
structure NewOutcome (version : Int) (msgs : List SyncMessage) (taskId : String)
    (outcome : Register TaskStatus) : Prop where
  tops : ∀ msg ts, IsTop SyncMessage.version version msgs msg → msg.taskState = some ts →
    ts.version = outcome.version
  final : ∀ msg ts, Offered version msgs taskId msg ts → ts.version = outcome.version →
    ts.createdStatus = outcome.status ∧ ts.assignedTo = outcome.assignedTo
  early : ∀ msg ts, Offered version msgs taskId msg ts → ts.version ≠ outcome.version →
    ts.version < outcome.version ∧ ¬ClusterState.Refuses ts.createdStatus outcome.status ∧
      (outcome.assignedTo.getD "" ≠ "" ∨ ts.assignedTo = outcome.assignedTo)
  known : ∀ msg ts msg' ts', Offered version msgs taskId msg ts →
    ts.version ≠ outcome.version → IsTop SyncMessage.version version msgs msg' →
    msg'.taskState = some ts' → (TaskStatus.ofValue ts'.status).isSome

/-- On a SQL store all top messages write the same. -/
def TableOutcome (version : Int) (msgs : List SyncMessage) (outcome : Register String) : Prop :=
  ∀ msg ts, IsTop SyncMessage.version version msgs msg → msg.taskState = some ts →
    (⟨ts.status, ts.assignedTo, ts.version⟩ : Register String) = outcome

/-! ## One task -/

section Row

variable {version : Int} {msgs : List SyncMessage} {taskId : String}

theorem Offered.target {msg : SyncMessage} {ts : TaskSync}
    (h : Offered version msgs taskId msg ts) : msg.target = some taskId := by
  rw [SyncMessage.target, h.payload]
  exact congrArg some h.task

theorem Offered.mem_about {msg : SyncMessage} {ts : TaskSync}
    (h : Offered version msgs taskId msg ts) :
    msg ∈ about SyncMessage.target taskId msgs :=
  Delivery.mem_about.mpr ⟨h.mem, h.target⟩

theorem Offered.write_eq {msg : SyncMessage} {ts : TaskSync}
    (h : Offered version msgs taskId msg ts) {ρ : Type} (f : TaskSync → ρ → ρ) (r : ρ) :
    msg.write f r = f ts r := by
  rw [SyncMessage.write, h.payload]

theorem exists_offered {msg : SyncMessage} (hmem : msg ∈ about SyncMessage.target taskId msgs)
    (hlive : version < msg.version) : ∃ ts, Offered version msgs taskId msg ts := by
  obtain ⟨hmsgs, htarget⟩ := Delivery.mem_about.mp hmem
  obtain ⟨ts, hts, htask⟩ := Option.map_eq_some_iff.mp htarget
  exact ⟨ts, hmsgs, hlive, hts, htask⟩

theorem top_about {msg : SyncMessage}
    (htops : ∀ msg, IsTop SyncMessage.version version msgs msg → msg.target = some taskId)
    (h : IsTop SyncMessage.version version msgs msg) :
    IsTop SyncMessage.version version (about SyncMessage.target taskId msgs) msg where
  mem := Delivery.mem_about.mpr ⟨h.mem, htops msg h⟩
  live := h.live
  top := fun msg' hmsg' => h.top msg' (Delivery.mem_about.mp hmsg').1

variable (htops : ∀ msg, IsTop SyncMessage.version version msgs msg → msg.target = some taskId)
include htops

theorem top_offered {msg : SyncMessage} (h : IsTop SyncMessage.version version msgs msg) :
    ∃ ts, Offered version msgs taskId msg ts :=
  exists_offered (Delivery.mem_about.mpr ⟨h.mem, htops msg h⟩) h.live

/-! A task that is there -/

section Present

variable {row : Register TaskStatus}
  (hfree : OrderFree SyncMessage.version (SyncMessage.write TaskSync.onMemory)
    (version, some row) (about SyncMessage.target taskId msgs))
include hfree

/-- If any message is accepted, every top one is. -/
theorem top_accepted {m t : SyncMessage} {mts tts : TaskSync}
    (hm : Offered version msgs taskId m mts) (haccepted : mts.Accepted row)
    (ht : IsTop SyncMessage.version version msgs t) (htts : Offered version msgs taskId t tts) :
    tts.Accepted row := by
  by_contra hrejected
  have hkept : tts.onMemory (some row) = some row := tts.onMemory_of_not_accepted hrejected
  have hraised : row.version < (mts.written row).version := haccepted.1
  rcases (ht.top m hm.mem).lt_or_eq with hbelow | hsame
  · have hboth := hfree.below_top hm.mem_about hm.live (top_about htops ht) hbelow
    rw [hm.write_eq, htts.write_eq, htts.write_eq, hkept, haccepted.onMemory_eq] at hboth
    exact absurd (TaskSync.le_version_of_onMemory hboth) (not_le_of_gt hraised)
  · have hmtop : IsTop SyncMessage.version version msgs m :=
      ⟨hm.mem, hm.live, fun m' hm' => (ht.top m' hm').trans hsame.ge⟩
    have hboth := hfree.tops (top_about htops hmtop) (top_about htops ht)
    rw [hm.write_eq, htts.write_eq, hkept, haccepted.onMemory_eq, Option.some.injEq] at hboth
    rw [hboth] at hraised
    exact lt_irrefl _ hraised

/-- What an accepted message writes is the outcome, or a top message writes the
outcome over it. -/
theorem written_or_overwritten {m t : SyncMessage} {mts tts : TaskSync}
    (hm : Offered version msgs taskId m mts) (haccepted : mts.Accepted row)
    (ht : IsTop SyncMessage.version version msgs t) (htts : Offered version msgs taskId t tts)
    (htaccepted : tts.Accepted row) :
    mts.written row = tts.written row ∨ tts.Accepted (mts.written row) := by
  rcases (ht.top m hm.mem).lt_or_eq with hbelow | hsame
  · have hboth := hfree.below_top hm.mem_about hm.live (top_about htops ht) hbelow
    rw [hm.write_eq, htts.write_eq, htts.write_eq, haccepted.onMemory_eq,
      htaccepted.onMemory_eq] at hboth
    by_cases hover : tts.Accepted (mts.written row)
    · exact .inr hover
    · rw [tts.onMemory_of_not_accepted hover, Option.some.injEq] at hboth
      exact .inl hboth
  · have hmtop : IsTop SyncMessage.version version msgs m :=
      ⟨hm.mem, hm.live, fun m' hm' => (ht.top m' hm').trans hsame.ge⟩
    have hboth := hfree.tops (top_about htops hmtop) (top_about htops ht)
    rw [hm.write_eq, htts.write_eq, haccepted.onMemory_eq, htaccepted.onMemory_eq,
      Option.some.injEq] at hboth
    exact .inl hboth

theorem memoryOutcome_of_orderFree {m t : SyncMessage} {mts tts : TaskSync}
    (hm : Offered version msgs taskId m mts) (haccepted : mts.Accepted row)
    (ht : IsTop SyncMessage.version version msgs t) (htts : Offered version msgs taskId t tts) :
    MemoryOutcome version msgs taskId row (tts.written row) := by
  have htaccepted : tts.Accepted row := top_accepted htops hfree hm haccepted ht htts
  have hcases : ∀ msg ts, Offered version msgs taskId msg ts → ts.Accepted row →
      ts.written row = tts.written row ∨ tts.Accepted (ts.written row) :=
    fun msg ts h ha => written_or_overwritten htops hfree h ha ht htts htaccepted
  have hfinal : ∀ msg ts, Offered version msgs taskId msg ts → ts.Accepted row →
      ts.version = tts.version → ts.written row = tts.written row := by
    intro msg ts hmsg ha hversion
    rcases hcases msg ts hmsg ha with hsame | hover
    · exact hsame
    · exact absurd hversion hover.1.ne
  have hearly : ∀ msg ts, Offered version msgs taskId msg ts → ts.Accepted row →
      ts.version ≠ tts.version → tts.Accepted (ts.written row) := by
    intro msg ts hmsg ha hversion
    rcases hcases msg ts hmsg ha with hsame | hover
    · exact absurd (congrArg Register.version hsame) hversion
    · exact hover
  refine ⟨fun msg ts htop hpayload => ?_, fun msg ts hmsg ha hversion => ?_,
    fun msg ts hmsg ha hversion => ?_, ?_⟩
  · have hoffered : Offered version msgs taskId msg ts := by
      obtain ⟨ts', hts'⟩ := top_offered htops htop
      rw [hpayload.symm.trans hts'.payload |> Option.some.inj]
      exact hts'
    have ha : ts.Accepted row := top_accepted htops hfree hm haccepted htop hoffered
    refine ⟨ha, ?_⟩
    have hboth := hfree.tops (top_about htops htop) (top_about htops ht)
    rw [hoffered.write_eq, htts.write_eq, ha.onMemory_eq, htaccepted.onMemory_eq,
      Option.some.injEq] at hboth
    exact congrArg Register.version hboth
  · have hsame := hfinal msg ts hmsg ha hversion
    exact ⟨congrArg Register.status hsame, congrArg Register.assignedTo hsame⟩
  · have hover := hearly msg ts hmsg ha hversion
    exact ⟨hover.1, hover.not_refuses⟩
  · intro msg ts msg' ts' hmsg ha hversion hmsg' ha' hversion' hbefore
    by_cases hnamed : ts'.assignedTo.getD "" ≠ ""
    · exact .inl hnamed
    · rw [ne_eq, not_not] at hnamed
      have hsame' := hfinal msg' ts' hmsg' ha' hversion'
      have hover := hearly msg ts hmsg ha hversion
      -- the later message is accepted behind the earlier one, whose assignee it keeps
      have hover' : ts'.Accepted (ts.written row) := by
        refine ⟨hversion' ▸ hover.1, ts'.createdStatus, ha'.ofValue_eq, ?_⟩
        rw [show ts'.createdStatus = tts.createdStatus from congrArg Register.status hsame']
        exact hover.not_refuses
      have hlast : ts'.written (ts.written row) = tts.written row := by
        rcases (ht.top msg' hmsg'.mem).lt_or_eq with hbelow | hsame
        · have hthree := hfree.below_below hmsg.mem_about hmsg.live hmsg'.mem_about hbefore
            (top_about htops ht) hbelow
          rw [hmsg.write_eq, hmsg'.write_eq, htts.write_eq, htts.write_eq, ha.onMemory_eq,
            hover'.onMemory_eq, htaccepted.onMemory_eq, tts.onMemory_of_not_accepted,
            Option.some.injEq] at hthree
          · exact hthree
          · intro hthird
            exact absurd hversion'.symm hthird.1.ne'
        · have htop' : IsTop SyncMessage.version version msgs msg' :=
            ⟨hmsg'.mem, hmsg'.live, fun m' hm' => (ht.top m' hm').trans hsame.ge⟩
          have htwo := hfree.below_top hmsg.mem_about hmsg.live (top_about htops htop') hbefore
          rw [hmsg.write_eq, hmsg'.write_eq, hmsg'.write_eq, ha.onMemory_eq, hover'.onMemory_eq,
            ha'.onMemory_eq, Option.some.injEq] at htwo
          exact htwo.trans hsame'
      have hassigned := congrArg Register.assignedTo (hlast.trans hsame'.symm)
      change ts'.keep (ts.keep row.assignedTo) = ts'.keep row.assignedTo at hassigned
      rw [ts'.keep_of_empty hnamed, ts'.keep_of_empty hnamed] at hassigned
      exact .inr hassigned

end Present

/-- A rule for one outcome: what has been delivered is early still, or the outcome
has been reached, and a top message reaches it. -/
theorem orderFree_of_early {ρ : Type} {write : SyncMessage → ρ → ρ} {start : ρ}
    (outcome : ρ) (Early : Int → ρ → Prop)
    (hstart : ∀ t, IsTop SyncMessage.version version msgs t → Early version start)
    (hdone : ∀ t msg ts, IsTop SyncMessage.version version msgs t →
      Offered version msgs taskId msg ts → write msg outcome = outcome ∨
        msg.version < t.version ∧ Early msg.version (write msg outcome))
    (hstep : ∀ t msg ts before r, IsTop SyncMessage.version version msgs t →
      Offered version msgs taskId msg ts → before < msg.version → Early before r →
      write msg r = outcome ∨ msg.version < t.version ∧ Early msg.version (write msg r)) :
    OrderFree SyncMessage.version write (version, start)
      (about SyncMessage.target taskId msgs) := by
  intro l₁ l₂ hl₁ hl₂
  by_cases hlive : ∃ msg ∈ about SyncMessage.target taskId msgs, version < msg.version
  · obtain ⟨msg, hmsg, hlive⟩ := hlive
    obtain ⟨t, ht⟩ := exists_top (Delivery.mem_about.mp hmsg).1 hlive
    let Reached : Int → ρ → Prop :=
      fun before r => r = outcome ∨ before < t.version ∧ Early before r
    have hreached : ∀ l, l.Perm (about SyncMessage.target taskId msgs) →
        (deliver SyncMessage.version write (version, start) l).2 = outcome := by
      intro l hl
      have hrun : Reached (deliver SyncMessage.version write (version, start) l).1
          (deliver SyncMessage.version write (version, start) l).2 := by
        refine deliver_of_step (.inr ⟨ht.live, hstart t ht⟩) ?_
        intro m hm before r hbefore hstarted hr
        obtain ⟨ts, hoffered⟩ := exists_offered (hl.subset hm) hstarted
        rcases hr with rfl | ⟨-, hearly⟩
        · exact hdone t m ts ht hoffered
        · exact hstep t m ts before r ht hoffered hbefore hearly
      have hpast : t.version ≤ (deliver SyncMessage.version write (version, start) l).1 :=
        ver_le_deliver _ (hl.mem_iff.mpr (top_about htops ht).mem)
      rcases hrun with hdone | ⟨hbefore, -⟩
      · exact hdone
      · exact absurd hbefore (not_lt_of_ge hpast)
    rw [hreached l₁ hl₁, hreached l₂ hl₂]
  · have hstale : ∀ l, l.Perm (about SyncMessage.target taskId msgs) →
        deliver SyncMessage.version write (version, start) l = (version, start) := by
      intro l hl
      refine deliver_stale (fun m hm => ?_)
      by_contra hm'
      exact hlive ⟨m, hl.subset hm, not_le.mp hm'⟩
    rw [hstale l₁ hl₁, hstale l₂ hl₂]

theorem MemoryOutcome.opens {row outcome : Register TaskStatus}
    (h : MemoryOutcome version msgs taskId row outcome) {t : SyncMessage}
    (ht : IsTop SyncMessage.version version msgs t) :
    row.version < outcome.version ∧ ¬ClusterState.Refuses row.status outcome.status := by
  obtain ⟨ts, hts⟩ := top_offered htops ht
  obtain ⟨haccepted, hversion⟩ := h.tops t ts ht hts.payload
  refine ⟨hversion ▸ haccepted.1, ?_⟩
  rw [← (h.final t ts hts haccepted hversion).1]
  exact haccepted.not_refuses

/-- The outcome is reached in every order. -/
theorem orderFree_of_memoryOutcome {row outcome : Register TaskStatus}
    (h : MemoryOutcome version msgs taskId row outcome) :
    OrderFree SyncMessage.version (SyncMessage.write TaskSync.onMemory) (version, some row)
      (about SyncMessage.target taskId msgs) := by
  let Early : Int → Option (Register TaskStatus) → Prop := fun before current =>
    ∃ r, current = some r ∧ row.Follows r ∧ r.version < outcome.version ∧
      ¬ClusterState.Refuses r.status outcome.status ∧
      ∀ msg ts, Offered version msgs taskId msg ts → ts.Accepted row →
        ts.version = outcome.version → before < msg.version →
        ts.assignedTo.getD "" ≠ "" ∨ r.assignedTo = row.assignedTo
  refine orderFree_of_early htops (some outcome) Early ?_ ?_ ?_
  · intro t ht
    obtain ⟨hraises, hopen⟩ := h.opens htops ht
    exact ⟨row, rfl, .refl row, hraises, hopen, fun _ _ _ _ _ _ => .inr rfl⟩
  · intro t msg ts ht hmsg
    obtain ⟨hraises, hopen⟩ := h.opens htops ht
    have hfollows : row.Follows outcome :=
      ⟨hraises.le, fun _ => ClusterState.refuses_of_written hopen⟩
    rw [hmsg.write_eq]
    refine .inl (ts.onMemory_of_not_accepted (fun hover => ?_))
    have haccepted : ts.Accepted row := hover.of_follows hfollows
    by_cases hversion : ts.version = outcome.version
    · exact absurd hversion hover.1.ne'
    · exact lt_asymm hover.1 (h.early msg ts hmsg haccepted hversion).1
  · rintro t msg ts before current ht hmsg hbefore ⟨r, rfl, hfollows, hlow, hopen, hblank⟩
    rw [hmsg.write_eq]
    have hbelow : ¬(ts.Accepted row ∧ ts.version = outcome.version) → msg.version < t.version := by
      intro hother
      refine (ht.top msg hmsg.mem).lt_of_ne (fun hsame => hother ?_)
      exact h.tops msg ts ⟨hmsg.mem, hmsg.live, fun m hm => (ht.top m hm).trans hsame.ge⟩
        hmsg.payload
    -- fewer messages are still to come behind a later one
    have hlater : ∀ msg' ts', Offered version msgs taskId msg' ts' → ts'.Accepted row →
        ts'.version = outcome.version → msg.version < msg'.version →
        ts'.assignedTo.getD "" ≠ "" ∨ r.assignedTo = row.assignedTo :=
      fun msg' ts' hmsg' ha' hversion' hrising =>
        hblank msg' ts' hmsg' ha' hversion' (hbefore.trans hrising)
    by_cases hover : ts.Accepted r
    · have haccepted : ts.Accepted row := hover.of_follows hfollows
      rw [hover.onMemory_eq]
      by_cases hversion : ts.version = outcome.version
      · obtain ⟨hstatus, hassigned⟩ := h.final msg ts hmsg haccepted hversion
        have hkeep : ts.keep r.assignedTo = outcome.assignedTo := by
          by_cases hnamed : ts.assignedTo.getD "" = ""
          · rw [ts.keep_of_empty hnamed] at hassigned ⊢
            rcases hblank msg ts hmsg haccepted hversion hbefore with hne | hsame
            · exact absurd hnamed hne
            · rw [hsame, hassigned]
          · rw [ts.keep_of_named hnamed] at hassigned ⊢
            exact hassigned
        refine .inl (congrArg some ?_)
        rw [TaskSync.written, hstatus, hkeep, hversion]
      · obtain ⟨hlower, hkeeps⟩ := h.early msg ts hmsg haccepted hversion
        refine .inr ⟨hbelow (fun hboth => hversion hboth.2), ts.written r, rfl,
          hfollows.trans hover.follows, hlower, hkeeps, ?_⟩
        intro msg' ts' hmsg' ha' hversion' hrising
        rcases hlater msg' ts' hmsg' ha' hversion' hrising with hnamed | hsame
        · exact .inl hnamed
        · rcases h.behind msg ts msg' ts' hmsg haccepted hversion hmsg' ha' hversion' hrising
            with hnamed | hkept
          · exact .inl hnamed
          · refine .inr ?_
            change ts.keep r.assignedTo = row.assignedTo
            rw [hsame, hkept]
    · rw [ts.onMemory_of_not_accepted hover]
      refine .inr ⟨hbelow ?_, r, rfl, hfollows, hlow, hopen, hlater⟩
      rintro ⟨haccepted, hversion⟩
      refine hover ⟨hversion ▸ hlow, ts.createdStatus, haccepted.ofValue_eq, ?_⟩
      rw [(h.final msg ts hmsg haccepted hversion).1]
      exact hopen

/-! A task that is not there -/

theorem newOutcome_of_orderFree
    (hfree : OrderFree SyncMessage.version (SyncMessage.write TaskSync.onMemory) (version, none)
      (about SyncMessage.target taskId msgs))
    {t : SyncMessage} {tts : TaskSync} (ht : IsTop SyncMessage.version version msgs t)
    (htts : Offered version msgs taskId t tts) :
    NewOutcome version msgs taskId ⟨tts.createdStatus, tts.assignedTo, tts.version⟩ := by
  have htop : ∀ msg ts, IsTop SyncMessage.version version msgs msg →
      Offered version msgs taskId msg ts →
      (⟨ts.createdStatus, ts.assignedTo, ts.version⟩ : Register TaskStatus) =
        ⟨tts.createdStatus, tts.assignedTo, tts.version⟩ := by
    intro msg ts hmsg hoffered
    have hboth := hfree.tops (top_about htops hmsg) (top_about htops ht)
    rw [hoffered.write_eq, htts.write_eq] at hboth
    exact Option.some.inj hboth
  have hpayload : ∀ msg ts, IsTop SyncMessage.version version msgs msg →
      msg.taskState = some ts → Offered version msgs taskId msg ts := by
    intro msg ts hmsg hts
    obtain ⟨ts', hts'⟩ := top_offered htops hmsg
    rw [Option.some.inj (hts.symm.trans hts'.payload)]
    exact hts'
  -- a created row is the outcome already, or every top message writes it over
  have hcases : ∀ msg ts, Offered version msgs taskId msg ts →
      (⟨ts.createdStatus, ts.assignedTo, ts.version⟩ : Register TaskStatus) =
          ⟨tts.createdStatus, tts.assignedTo, tts.version⟩ ∨
        ∀ msg' ts', IsTop SyncMessage.version version msgs msg' → msg'.taskState = some ts' →
          ts'.Accepted ⟨ts.createdStatus, ts.assignedTo, ts.version⟩ ∧
            ts'.keep ts.assignedTo = tts.assignedTo := by
    intro msg ts hmsg
    by_cases hsame : (⟨ts.createdStatus, ts.assignedTo, ts.version⟩ : Register TaskStatus) =
        ⟨tts.createdStatus, tts.assignedTo, tts.version⟩
    · exact .inl hsame
    · refine .inr (fun msg' ts' hmsg' hts' => ?_)
      have hoffered := hpayload msg' ts' hmsg' hts'
      have hbelow : msg.version < msg'.version := by
        refine (hmsg'.top msg hmsg.mem).lt_of_ne (fun heq => hsame ?_)
        exact htop msg ts ⟨hmsg.mem, hmsg.live, fun m hm => (hmsg'.top m hm).trans heq.ge⟩ hmsg
      have hboth := hfree.below_top hmsg.mem_about hmsg.live (top_about htops hmsg') hbelow
      rw [hmsg.write_eq, hoffered.write_eq, hoffered.write_eq] at hboth
      change ts'.onMemory (some ⟨ts.createdStatus, ts.assignedTo, ts.version⟩) =
        some ⟨ts'.createdStatus, ts'.assignedTo, ts'.version⟩ at hboth
      rw [htop msg' ts' hmsg' hoffered] at hboth
      by_cases hover : ts'.Accepted ⟨ts.createdStatus, ts.assignedTo, ts.version⟩
      · rw [hover.onMemory_eq, Option.some.injEq] at hboth
        exact ⟨hover, congrArg Register.assignedTo hboth⟩
      · rw [ts'.onMemory_of_not_accepted hover, Option.some.injEq] at hboth
        exact absurd hboth hsame
  have hearly : ∀ msg ts, Offered version msgs taskId msg ts → ts.version ≠ tts.version →
      ∀ msg' ts', IsTop SyncMessage.version version msgs msg' → msg'.taskState = some ts' →
        ts'.Accepted ⟨ts.createdStatus, ts.assignedTo, ts.version⟩ ∧
          ts'.keep ts.assignedTo = tts.assignedTo := by
    intro msg ts hmsg hversion
    rcases hcases msg ts hmsg with hsame | hover
    · exact absurd (congrArg Register.version hsame) hversion
    · exact hover
  refine ⟨fun msg ts hmsg hts => ?_, fun msg ts hmsg hversion => ?_,
    fun msg ts hmsg hversion => ?_, fun msg ts msg' ts' hmsg hversion hmsg' hts' => ?_⟩
  · exact congrArg Register.version (htop msg ts hmsg (hpayload msg ts hmsg hts))
  · rcases hcases msg ts hmsg with hsame | hover
    · exact ⟨congrArg Register.status hsame, congrArg Register.assignedTo hsame⟩
    · exact absurd hversion (hover t tts ht htts.payload).1.1.ne
  · obtain ⟨hover, hkeep⟩ := hearly msg ts hmsg hversion t tts ht htts.payload
    refine ⟨hover.1, hover.not_refuses, ?_⟩
    by_cases hnamed : tts.assignedTo.getD "" = ""
    · rw [tts.keep_of_empty hnamed] at hkeep
      exact .inr hkeep
    · exact .inl hnamed
  · obtain ⟨hover, -⟩ := hearly msg ts hmsg hversion msg' ts' hmsg' hts'
    rw [hover.ofValue_eq]
    rfl

theorem orderFree_of_newOutcome {outcome : Register TaskStatus}
    (h : NewOutcome version msgs taskId outcome) :
    OrderFree SyncMessage.version (SyncMessage.write TaskSync.onMemory) (version, none)
      (about SyncMessage.target taskId msgs) := by
  let Early : Int → Option (Register TaskStatus) → Prop := fun _ current =>
    ∀ r, current = some r → r.version < outcome.version ∧
      ¬ClusterState.Refuses r.status outcome.status ∧
      (outcome.assignedTo.getD "" ≠ "" ∨ r.assignedTo = outcome.assignedTo) ∧
      ∀ msg ts, IsTop SyncMessage.version version msgs msg → msg.taskState = some ts →
        (TaskStatus.ofValue ts.status).isSome
  refine orderFree_of_early htops (some outcome) Early ?_ ?_ ?_
  · intro t _ r hr
    cases hr
  · intro t msg ts _ hmsg
    rw [hmsg.write_eq]
    refine .inl (ts.onMemory_of_not_accepted (fun hover => ?_))
    by_cases hversion : ts.version = outcome.version
    · exact absurd hversion hover.1.ne'
    · exact lt_asymm hover.1 (h.early msg ts hmsg hversion).1
  · intro t msg ts before current ht hmsg hbefore hearly
    rw [hmsg.write_eq]
    have hbelow : ts.version ≠ outcome.version → msg.version < t.version := by
      intro hversion
      refine (ht.top msg hmsg.mem).lt_of_ne (fun hsame => hversion ?_)
      exact h.tops msg ts ⟨hmsg.mem, hmsg.live, fun m hm => (ht.top m hm).trans hsame.ge⟩
        hmsg.payload
    cases current with
    | none =>
        by_cases hversion : ts.version = outcome.version
        · obtain ⟨hstatus, hassigned⟩ := h.final msg ts hmsg hversion
          refine .inl (congrArg some ?_)
          rw [hstatus, hassigned, hversion]
        · obtain ⟨hlower, hkeeps, hblank⟩ := h.early msg ts hmsg hversion
          refine .inr ⟨hbelow hversion, ?_⟩
          rintro r ⟨⟩
          exact ⟨hlower, hkeeps, hblank,
            fun msg' ts' hmsg' hts' => h.known msg ts msg' ts' hmsg hversion hmsg' hts'⟩
    | some r =>
        obtain ⟨hlow, hopen, hblank, hknown⟩ := hearly r rfl
        by_cases hover : ts.Accepted r
        · rw [hover.onMemory_eq]
          by_cases hversion : ts.version = outcome.version
          · obtain ⟨hstatus, hassigned⟩ := h.final msg ts hmsg hversion
            have hkeep : ts.keep r.assignedTo = outcome.assignedTo := by
              by_cases hnamed : ts.assignedTo.getD "" = ""
              · rw [ts.keep_of_empty hnamed]
                rcases hblank with hne | hsame
                · rw [hassigned] at hnamed
                  exact absurd hnamed hne
                · exact hsame
              · rw [ts.keep_of_named hnamed, hassigned]
            refine .inl (congrArg some ?_)
            rw [TaskSync.written, hstatus, hkeep, hversion]
          · obtain ⟨hlower, hkeeps, hempty⟩ := h.early msg ts hmsg hversion
            refine .inr ⟨hbelow hversion, ?_⟩
            rintro r' ⟨⟩
            refine ⟨hlower, hkeeps, ?_, hknown⟩
            rcases hempty with hne | hsame
            · exact .inl hne
            · rcases hblank with hne | hkept
              · exact .inl hne
              · refine .inr ?_
                change ts.keep r.assignedTo = outcome.assignedTo
                by_cases hnamed : ts.assignedTo.getD "" = ""
                · rw [ts.keep_of_empty hnamed, hkept]
                · rw [ts.keep_of_named hnamed, hsame]
        · rw [ts.onMemory_of_not_accepted hover]
          refine .inr ⟨?_, hearly⟩
          by_cases hversion : ts.version = outcome.version
          · -- a top message has a status of the enum, so this one, which was not accepted, is none
            refine (ht.top msg hmsg.mem).lt_of_ne (fun hsame => hover ?_)
            have hvalue := Option.isSome_iff_exists.mp (hknown msg ts
              ⟨hmsg.mem, hmsg.live, fun m hm => (ht.top m hm).trans hsame.ge⟩ hmsg.payload)
            obtain ⟨status, hvalue⟩ := hvalue
            refine ⟨hversion ▸ hlow, status, hvalue, ?_⟩
            rw [← TaskSync.createdStatus_of_ofValue hvalue,
              (h.final msg ts hmsg hversion).1]
            exact hopen
          · exact hbelow hversion

/-! A task on a SQL store -/

theorem orderFree_onTable_iff {start : Option (Register String)} :
    OrderFree SyncMessage.version (SyncMessage.write TaskSync.onTable) (version, start)
        (about SyncMessage.target taskId msgs) ↔
      ∃ outcome, TableOutcome version msgs outcome := by
  constructor
  · intro hfree
    by_cases htop : ∃ t, IsTop SyncMessage.version version msgs t
    · obtain ⟨t, ht⟩ := htop
      obtain ⟨tts, htts⟩ := top_offered htops ht
      refine ⟨⟨tts.status, tts.assignedTo, tts.version⟩, fun msg ts hmsg hts => ?_⟩
      have hboth := hfree.tops (top_about htops hmsg) (top_about htops ht)
      rw [htts.write_eq, SyncMessage.write, hts] at hboth
      exact Option.some.inj hboth
    · exact ⟨⟨"", none, 0⟩, fun msg _ hmsg _ => absurd ⟨msg, hmsg⟩ htop⟩
  · rintro ⟨outcome, h⟩
    have hstep : ∀ t msg ts (r : Option (Register String)),
        IsTop SyncMessage.version version msgs t → Offered version msgs taskId msg ts →
        msg.write TaskSync.onTable r = some outcome ∨ msg.version < t.version ∧ True := by
      intro t msg ts r ht hmsg
      rcases (ht.top msg hmsg.mem).lt_or_eq with hbelow | hsame
      · exact .inr ⟨hbelow, trivial⟩
      · rw [hmsg.write_eq]
        refine .inl (congrArg some (h msg ts ?_ hmsg.payload))
        exact ⟨hmsg.mem, hmsg.live, fun m hm => (ht.top m hm).trans hsame.ge⟩
    exact orderFree_of_early htops (some outcome) (fun _ _ => True) (fun _ _ => trivial)
      (fun t msg ts ht hmsg => hstep t msg ts _ ht hmsg)
      (fun t msg ts _ r ht hmsg _ _ => hstep t msg ts r ht hmsg)

end Row

/-! ## All tasks -/

/-- The message writes nothing over the in-memory store. -/
def ClusterState.Ignores (s : ClusterState) (msg : SyncMessage) : Prop :=
  ∀ ts, msg.taskState = some ts →
    ∃ row, s.register ts.taskId = some row ∧ ¬ts.Accepted row

/-- The table holds what the message says. -/
def SyncTable.Holds (s : SyncTable) (msg : SyncMessage) : Prop :=
  ∀ ts, msg.taskState = some ts →
    s.register ts.taskId = some ⟨ts.status, ts.assignedTo, ts.version⟩

/-- No message above the gate writes anything at the start; or only messages about
one task do, all messages of the highest version are about it, and it has one
outcome. -/
def OneOutcome (version : Int) (msgs : List SyncMessage) (Silent : SyncMessage → Prop)
    (Settles : String → Prop) : Prop :=
  (∀ msg ∈ msgs, version < msg.version → Silent msg) ∨
    ∃ taskId, (∀ msg ∈ msgs, version < msg.version → msg.target ≠ some taskId → Silent msg) ∧
      (∀ msg, IsTop SyncMessage.version version msgs msg → msg.target = some taskId) ∧
      Settles taskId

/-- The messages about a task lead to one outcome, whether it is there or not. -/
def ClusterState.Settles (s : ClusterState) (msgs : List SyncMessage) (taskId : String) : Prop :=
  match s.register taskId with
  | none => ∃ outcome, NewOutcome s.syncVersion msgs taskId outcome
  | some row => ∃ outcome, MemoryOutcome s.syncVersion msgs taskId row outcome

def ClusterState.OneOutcome (s : ClusterState) (msgs : List SyncMessage) : Prop :=
  HermesCluster.OneOutcome s.syncVersion msgs s.Ignores (s.Settles msgs)

def SyncTable.OneOutcome (s : SyncTable) (msgs : List SyncMessage) : Prop :=
  HermesCluster.OneOutcome s.syncVersion msgs s.Holds (fun _ =>
    ∃ outcome, TableOutcome s.syncVersion msgs outcome)

theorem idle_iff {ρ : Type} {f : TaskSync → ρ → ρ} {view : String → ρ} {msg : SyncMessage} :
    Inert SyncMessage.target (SyncMessage.write f) view msg ↔
      ∀ ts, msg.taskState = some ts → f ts (view ts.taskId) = view ts.taskId := by
  constructor
  · intro h ts hts
    have htarget : msg.target = some ts.taskId := by
      rw [SyncMessage.target, hts]
      rfl
    have hidle := h ts.taskId htarget
    rwa [SyncMessage.write, hts] at hidle
  · intro h taskId htarget
    obtain ⟨ts, hts, htask⟩ := Option.map_eq_some_iff.mp htarget
    subst htask
    rw [SyncMessage.write, hts]
    exact h ts hts

theorem ClusterState.idle_iff (s : ClusterState) (msg : SyncMessage) :
    Inert SyncMessage.target (SyncMessage.write TaskSync.onMemory) s.register msg ↔
      s.Ignores msg := by
  rw [HermesCluster.idle_iff]
  refine forall₂_congr (fun ts _ => ?_)
  cases hrow : s.register ts.taskId with
  | none =>
      refine iff_of_false (fun hsame => ?_) (fun hrow' => ?_)
      · cases hsame
      · obtain ⟨row, hrow', -⟩ := hrow'
        cases hrow'
  | some row =>
      constructor
      · intro hsame
        refine ⟨row, rfl, fun haccepted => ?_⟩
        rw [haccepted.onMemory_eq, Option.some.injEq] at hsame
        exact haccepted.1.ne' (congrArg Register.version hsame)
      · rintro ⟨row', hrow', hrejected⟩
        cases hrow'
        exact ts.onMemory_of_not_accepted hrejected

theorem ClusterState.orderFree_iff (s : ClusterState) (msgs : List SyncMessage) :
    OrderFree SyncMessage.version (act SyncMessage.target (SyncMessage.write TaskSync.onMemory))
      (s.syncVersion, s.register) msgs ↔ s.OneOutcome msgs := by
  rw [orderFree_act_iff]
  simp only [s.idle_iff]
  constructor
  · rintro (hsilent | ⟨taskId, hsilent, htops, hrow⟩)
    · exact .inl hsilent
    · by_cases hwrites : ∃ msg ts, Offered s.syncVersion msgs taskId msg ts ∧
          ∀ row, s.register taskId = some row → ts.Accepted row
      · obtain ⟨m, mts, hm, haccepted⟩ := hwrites
        obtain ⟨t, ht⟩ := exists_top hm.mem hm.live
        obtain ⟨tts, htts⟩ := top_offered htops ht
        refine .inr ⟨taskId, hsilent, htops, ?_⟩
        unfold ClusterState.Settles
        cases hget : s.register taskId with
        | none =>
            rw [hget] at hrow
            exact ⟨_, newOutcome_of_orderFree htops hrow ht htts⟩
        | some row =>
            rw [hget] at hrow
            exact ⟨_, memoryOutcome_of_orderFree htops hrow hm (haccepted row hget) ht htts⟩
      · refine .inl (fun msg hmsg hlive => ?_)
        by_cases htarget : msg.target = some taskId
        · intro ts hts
          have hid : ts.taskId = taskId := by
            rw [SyncMessage.target, hts] at htarget
            exact Option.some.inj htarget
          by_contra hnone
          refine hwrites ⟨msg, ts, ⟨hmsg, hlive, hts, hid⟩, fun row hrow' => ?_⟩
          by_contra hrejected
          exact hnone ⟨row, hid ▸ hrow', hrejected⟩
        · exact hsilent msg hmsg hlive htarget
  · rintro (hsilent | ⟨taskId, hsilent, htops, hsettles⟩)
    · exact .inl hsilent
    · refine .inr ⟨taskId, hsilent, htops, ?_⟩
      cases hget : s.register taskId with
      | none =>
          rw [ClusterState.Settles, hget] at hsettles
          obtain ⟨outcome, houtcome⟩ := hsettles
          exact orderFree_of_newOutcome htops houtcome
      | some row =>
          rw [ClusterState.Settles, hget] at hsettles
          obtain ⟨outcome, houtcome⟩ := hsettles
          exact orderFree_of_memoryOutcome htops houtcome

theorem SyncTable.orderFree_iff (s : SyncTable) (msgs : List SyncMessage) :
    OrderFree SyncMessage.version (act SyncMessage.target (SyncMessage.write TaskSync.onTable))
      (s.syncVersion, s.register) msgs ↔ s.OneOutcome msgs := by
  rw [orderFree_act_iff]
  have hidle : ∀ msg, Inert SyncMessage.target (SyncMessage.write TaskSync.onTable) s.register msg ↔
      s.Holds msg := by
    intro msg
    rw [HermesCluster.idle_iff]
    exact forall₂_congr (fun ts _ => eq_comm)
  simp only [hidle]
  refine or_congr Iff.rfl (exists_congr (fun taskId => and_congr_right (fun _ => ?_)))
  exact and_congr_right (fun htops => orderFree_onTable_iff htops)

/-! ## Two coordinators -/

/-- The state of a store as sync sees it: the in-memory store itself, or the task
table of a SQL store. -/
abbrev Backend.SyncState : Backend → Type
  | .memory => ClusterState
  | .sql _ => SyncTable

/-- What the status column holds. -/
abbrev Backend.StatusColumn : Backend → Type
  | .memory => TaskStatus
  | .sql _ => String

def Backend.messagePort : (k : Backend) → SyncPort k.SyncState
  | .memory => ClusterState.port
  | .sql _ => SyncTable.port

def Backend.registers : (k : Backend) → k.SyncState → String → Option (Register k.StatusColumn)
  | .memory, s => ClusterState.register s
  | .sql _, s => SyncTable.register s

def Backend.OneOutcome : (k : Backend) → k.SyncState → List SyncMessage → Prop
  | .memory, s, msgs => ClusterState.OneOutcome s msgs
  | .sql _, s, msgs => SyncTable.OneOutcome s msgs

/-- Both coordinators end with the same status, assignee and version of every task,
in whatever orders and at whatever times they receive the messages. -/
def Backend.Converges (k : Backend) (s : k.SyncState) (msgs : List SyncMessage) : Prop :=
  ∀ l₁ l₂ : List SyncMessage, l₁.Perm msgs → l₂.Perm msgs → ∀ clock₁ clock₂ taskId,
    k.registers (Sync.receiveBatch k.messagePort l₁ clock₁ s).2 taskId =
      k.registers (Sync.receiveBatch k.messagePort l₂ clock₂ s).2 taskId

/-- A batch is a delivery, so what counts is the order alone. -/
theorem SyncPort.Delivers.orderFree_iff {σ ρ : Type} {port : SyncPort σ}
    {view : σ → String → ρ} {write : SyncMessage → ρ → ρ}
    (h : port.Delivers view write (fun _ => True)) (s : σ) (msgs : List SyncMessage) :
    (∀ l₁ l₂ : List SyncMessage, l₁.Perm msgs → l₂.Perm msgs → ∀ clock₁ clock₂ taskId,
        view (Sync.receiveBatch port l₁ clock₁ s).2 taskId =
          view (Sync.receiveBatch port l₂ clock₂ s).2 taskId) ↔
      OrderFree SyncMessage.version (act SyncMessage.target write)
        (port.syncVersion s, view s) msgs := by
  have hview : ∀ (l : List SyncMessage) clock, view (Sync.receiveBatch port l clock s).2 =
      (deliver SyncMessage.version (act SyncMessage.target write)
        (port.syncVersion s, view s) l).2 :=
    fun l clock => congrArg Prod.snd (h.receiveBatch (fun _ _ => trivial) clock s)
  constructor
  · intro hsame l₁ l₂ hl₁ hl₂
    rw [← hview l₁ (fun _ => 0), ← hview l₂ (fun _ => 0)]
    exact funext (hsame l₁ l₂ hl₁ hl₂ _ _)
  · intro hfree l₁ l₂ hl₁ hl₂ clock₁ clock₂ taskId
    rw [hview l₁ clock₁, hview l₂ clock₂]
    exact congrFun (hfree l₁ l₂ hl₁ hl₂) taskId

theorem converges_iff (k : Backend) (s : k.SyncState) (msgs : List SyncMessage) :
    k.Converges s msgs ↔ k.OneOutcome s msgs := by
  cases k with
  | memory =>
      exact (ClusterState.delivers.orderFree_iff s msgs).trans (ClusterState.orderFree_iff s msgs)
  | sql d =>
      exact (SyncTable.delivers.orderFree_iff s msgs).trans (SyncTable.orderFree_iff s msgs)

/-- A message about one task, as another coordinator queues it. -/
def createdMessage (version : Int) (taskId : String) : SyncMessage where
  version := version
  taskState := some { taskId := taskId, title := "t", status := "pending", version := 1 }

/-- The message about the first task is shut out when the one about the second
comes first. -/
theorem earlier_task_masked : ¬Backend.memory.Converges ClusterState.empty
    [createdMessage 1 "task_1", createdMessage 2 "task_2"] := by
  intro h
  have hsame := h [createdMessage 1 "task_1", createdMessage 2 "task_2"]
    [createdMessage 2 "task_2", createdMessage 1 "task_1"] (List.Perm.refl _)
    (List.Perm.swap _ _ _) (fun _ => 0) (fun _ => 0) "task_1"
  have hkept : (Backend.memory.registers (Sync.receiveBatch Backend.memory.messagePort
      [createdMessage 1 "task_1", createdMessage 2 "task_2"] (fun _ => 0)
        ClusterState.empty).2 "task_1").isSome = true := by
    decide
  have hlost : (Backend.memory.registers (Sync.receiveBatch Backend.memory.messagePort
      [createdMessage 2 "task_2", createdMessage 1 "task_1"] (fun _ => 0)
        ClusterState.empty).2 "task_1").isSome = false := by
    decide
  rw [hsame, hlost] at hkept
  cases hkept

end HermesCluster
