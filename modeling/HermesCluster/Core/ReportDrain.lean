import HermesCluster.Core.AgentExecutor
import HermesCluster.Lib.Machine
/-!
# Pending reports between threads

`_queue_report` and `_drain_pending_reports` of `core/agent_executor.py`, one request and
one lock section at a time, in any order: reports are posted and filed while a drain
runs. Each report has a number here, and what happens is told by these numbers. The
section that settles a retry looks the report up by verb and task alone, so that a report
filed meanwhile under the same key is settled in place of the one that was sent.
-/

namespace HermesCluster

/-- A report, with a number of its own. -/
structure Ticket extends PendingReport where
  serial : Nat
  deriving DecidableEq, Repr

instance : HasKey Ticket (ReportVerb × String) := ⟨fun t => (t.verb, t.taskId)⟩

/-- A drain between its lock sections: what is left to be sent, and what was sent last. -/
structure DrainRun where
  now : Nat
  due : List Ticket
  posted : Option (Ticket × Bool) := none

/-- `_pending_reports`, and what the threads have in hand. -/
structure ReportDesk where
  issued : Nat := 0
  unfiled : List Ticket := []
  pending : Table Ticket := .empty
  drain : Option DrainRun := none

/-- What a thread does next. The outcome of a request is part of it. -/
inductive DeskEvent where
  | post (verb : ReportVerb) (taskId : String) (payload : ReportPayload) (ok : Bool)
  | file (serial now : Nat)
  | beginDrain (now : Nat)
  | retry (ok : Bool)
  | settle
  deriving DecidableEq, Repr

/-- What happens to a report, by its number. -/
inductive DeskAnswer where
  | idle
  | posted (serial : Nat) (ok : Bool)
  | scheduled (serial now nextAt : Nat) (replaced : Option Nat)
  | retried (serial : Nat) (ok : Bool) (now : Nat)
  | removed (serial : Nat)
  deriving DecidableEq, Repr

namespace ReportDrain

open HasKey AgentExecutor
open Program hiding pure bind

/-! ## Lock sections -/

/-- The second lock section of a drain: an entry under the key is removed after a
delivery, and retried or given up after a failure. -/
def settleEntry {α κ : Type} [HasKey α κ] [DecidableEq κ] (retry : α → Option α) (ok : Bool)
    (t : Table α) (k : κ) : Table α :=
  match t.get? k with
  | none => t
  | some current =>
      if ok = true then t.erase k
      else
        match retry current with
        | none => t.erase k
        | some next => t.upsert next

/-- A drain on its own settles one report after the other. -/
theorem drainReport_eq (now : Nat) (e : Executor) (entry : PendingReport) :
    drainReport now e entry = (do
      let ok ← ask (.report entry.path entry.payload)
      pure { e with
        pendingReports :=
          settleEntry (retryReport now) ok e.pendingReports (entry.verb, entry.taskId) }) := by
  unfold drainReport
  refine congrArg _ (funext fun ok => ?_)
  unfold settleEntry
  cases e.pendingReports.get? (entry.verb, entry.taskId) with
  | none => rfl
  | some current =>
      dsimp only
      cases ok with
      | true => rfl
      | false =>
          rw [if_neg Bool.false_ne_true, if_neg Bool.false_ne_true]
          cases retryReport now current <;> rfl

def retryTicket (now : Nat) (t : Ticket) : Option Ticket :=
  (retryReport now t.toPendingReport).map fun r => { t with toPendingReport := r }

/-- A drain goes on while something is due. -/
def running (now : Nat) (due : List Ticket) : Option DrainRun :=
  if due = [] then none else some { now := now, due := due }

/-- `_queue_report`, up to the outcome of its request. -/
def postReport (verb : ReportVerb) (taskId : String) (payload : ReportPayload) (ok : Bool)
    (s : ReportDesk) : DeskAnswer × ReportDesk :=
  let ticket : Ticket :=
    { verb := verb, taskId := taskId, path := "/api/v1/tasks/" ++ taskId ++ "/" ++ verb.value,
      payload := payload, attempts := 1, nextAt := 0, serial := s.issued }
  (.posted s.issued ok,
    { s with
      issued := s.issued + 1
      unfiled := if ok = true then s.unfiled else s.unfiled ++ [ticket] })

/-- The lock section of `_queue_report`. -/
def fileReport (serial now : Nat) (s : ReportDesk) : DeskAnswer × ReportDesk :=
  match s.unfiled.find? (fun t => t.serial = serial) with
  | none => (.idle, s)
  | some t =>
      (.scheduled serial now (now + reportBackoffBase)
          ((s.pending.get? (key t)).map Ticket.serial),
        { s with
          unfiled := s.unfiled.filter (fun u => u.serial ≠ serial)
          pending := s.pending.upsert { t with nextAt := now + reportBackoffBase } })

/-- The first lock section of `_drain_pending_reports`. -/
def beginDrain (now : Nat) (s : ReportDesk) : DeskAnswer × ReportDesk :=
  match s.drain with
  | some _ => (.idle, s)
  | none =>
      (.idle, { s with
        drain := running now (s.pending.rows.filter (fun t => t.nextAt ≤ now)) })

/-- The request for the next report that is due. -/
def retryNext (ok : Bool) (s : ReportDesk) : DeskAnswer × ReportDesk :=
  match s.drain with
  | some { now, due := t :: due, posted := none } =>
      (.retried t.serial ok now,
        { s with drain := some { now := now, due := due, posted := some (t, ok) } })
  | _ => (.idle, s)

/-- What the second lock section does to an entry. -/
def settleAnswer (now : Nat) (ok : Bool) : Option Ticket → DeskAnswer
  | none => .idle
  | some current =>
      if ok = true then .removed current.serial
      else
        match retryTicket now current with
        | none => .removed current.serial
        | some next => .scheduled next.serial now next.nextAt none

/-- The second lock section of `_drain_pending_reports`. -/
def settle (s : ReportDesk) : DeskAnswer × ReportDesk :=
  match s.drain with
  | some { now, due, posted := some (t, ok) } =>
      (settleAnswer now ok (s.pending.get? (key t)),
        { s with
          pending := settleEntry (retryTicket now) ok s.pending (key t)
          drain := running now due })
  | _ => (.idle, s)

/-- The threads, step by step. -/
def desk : Machine ReportDesk DeskEvent DeskAnswer
  | .post verb taskId payload ok, s => postReport verb taskId payload ok s
  | .file serial now, s => fileReport serial now s
  | .beginDrain now, s => beginDrain now s
  | .retry ok, s => retryNext ok s
  | .settle, s => settle s

/-! ## The reports in hand -/

/-- What the running drain still has to send, and what it has sent last. -/
def dueOf (s : ReportDesk) : List Ticket :=
  (s.drain.map DrainRun.due).getD []

def postedOf (s : ReportDesk) : Option (Ticket × Bool) :=
  s.drain.bind DrainRun.posted

/-- The reports that the running drain has in hand. -/
def handled (s : ReportDesk) : List Ticket :=
  ((postedOf s).map Prod.fst).toList ++ dueOf s

/-- The report is not filed while the drain has another one of its verb and task in hand. -/
def Undisturbed (n : Nat) : DeskEvent → ReportDesk → Prop
  | .file m _, s => m = n → ∀ t ∈ s.unfiled, t.serial = n → ∀ u ∈ handled s, key u ≠ key t
  | _, _ => True

instance (n : Nat) : (e : DeskEvent) → (s : ReportDesk) → Decidable (Undisturbed n e s)
  | .post _ _ _ _, _ => isTrue trivial
  | .file m _, s => inferInstanceAs (Decidable
      (m = n → ∀ t ∈ s.unfiled, t.serial = n → ∀ u ∈ handled s, key u ≠ key t))
  | .beginDrain _, _ => isTrue trivial
  | .retry _, _ => isTrue trivial
  | .settle, _ => isTrue trivial

/-! ## One step -/

/-- The delay after some attempts. -/
def backoff (attempts : Nat) : Nat :=
  min (reportBackoffBase * 2 ^ (attempts - 1)) reportBackoffCap

theorem retryTicket_cases (now : Nat) (t : Ticket) :
    (reportMaxAttempts ≤ t.attempts + 1 ∧ retryTicket now t = none) ∨
    (t.attempts + 1 < reportMaxAttempts ∧ retryTicket now t =
      some { t with attempts := t.attempts + 1, nextAt := now + backoff (t.attempts + 1) }) := by
  unfold retryTicket retryReport
  dsimp only
  by_cases hlast : reportMaxAttempts ≤ t.attempts + 1
  · rw [if_pos hlast]
    exact .inl ⟨hlast, rfl⟩
  · rw [if_neg hlast]
    exact .inr ⟨Nat.lt_of_not_le hlast, rfl⟩

/-- What a step can do. -/
inductive DeskStep (s : ReportDesk) : DeskEvent → DeskAnswer → ReportDesk → Prop
  | idle (e : DeskEvent) : DeskStep s e .idle s
  | delivered {verb : ReportVerb} {taskId : String} {payload : ReportPayload} :
      DeskStep s (.post verb taskId payload true) (.posted s.issued true)
        { s with issued := s.issued + 1 }
  | refused {verb : ReportVerb} {taskId : String} {payload : ReportPayload} (t : Ticket)
      (hserial : t.serial = s.issued) (hattempts : t.attempts = 1) :
      DeskStep s (.post verb taskId payload false) (.posted s.issued false)
        { s with issued := s.issued + 1, unfiled := s.unfiled ++ [t] }
  | filed (t : Ticket) (now : Nat) (ht : t ∈ s.unfiled) :
      DeskStep s (.file t.serial now)
        (.scheduled t.serial now (now + reportBackoffBase)
          ((s.pending.get? (key t)).map Ticket.serial))
        { s with
          unfiled := s.unfiled.filter (fun u => u.serial ≠ t.serial)
          pending := s.pending.upsert { t with nextAt := now + reportBackoffBase } }
  | begun (now : Nat) (hdrain : s.drain = none) :
      DeskStep s (.beginDrain now) .idle
        { s with drain := running now (s.pending.rows.filter (fun t => t.nextAt ≤ now)) }
  | retried {now : Nat} {t : Ticket} {due : List Ticket} (ok : Bool)
      (hdrain : s.drain = some { now := now, due := t :: due }) :
      DeskStep s (.retry ok) (.retried t.serial ok now)
        { s with drain := some { now := now, due := due, posted := some (t, ok) } }
  | vanished {now : Nat} {t : Ticket} {due : List Ticket} {ok : Bool}
      (hdrain : s.drain = some { now := now, due := due, posted := some (t, ok) })
      (hget : s.pending.get? (key t) = none) :
      DeskStep s .settle .idle { s with drain := running now due }
  | removed {now : Nat} {t current : Ticket} {due : List Ticket} {ok : Bool}
      (hdrain : s.drain = some { now := now, due := due, posted := some (t, ok) })
      (hget : s.pending.get? (key t) = some current)
      (hover : ok = true ∨ reportMaxAttempts ≤ current.attempts + 1) :
      DeskStep s .settle (.removed current.serial)
        { s with pending := s.pending.erase (key t), drain := running now due }
  | putOff {now : Nat} {t current : Ticket} {due : List Ticket}
      (hdrain : s.drain = some { now := now, due := due, posted := some (t, false) })
      (hget : s.pending.get? (key t) = some current)
      (hlow : current.attempts + 1 < reportMaxAttempts) :
      DeskStep s .settle
        (.scheduled current.serial now (now + backoff (current.attempts + 1)) none)
        { s with
          pending := s.pending.upsert { current with
            attempts := current.attempts + 1
            nextAt := now + backoff (current.attempts + 1) }
          drain := running now due }

theorem deskStep_settle (s : ReportDesk) : DeskStep s .settle (settle s).1 (settle s).2 := by
  unfold settle
  split
  · rename_i now due t ok hdrain
    unfold settleAnswer settleEntry
    cases hget : s.pending.get? (key t) with
    | none => exact .vanished hdrain hget
    | some current =>
        dsimp only
        cases ok with
        | true => exact .removed hdrain hget (.inl rfl)
        | false =>
            rw [if_neg Bool.false_ne_true, if_neg Bool.false_ne_true]
            obtain ⟨hlast, hnone⟩ | ⟨hlow, hnext⟩ := retryTicket_cases now current
            · rw [hnone]
              exact .removed hdrain hget (.inr hlast)
            · rw [hnext]
              exact .putOff hdrain hget hlow
  · exact .idle _

theorem deskStep (e : DeskEvent) (s : ReportDesk) : DeskStep s e (desk e s).1 (desk e s).2 := by
  cases e with
  | post verb taskId payload ok =>
      cases ok with
      | true => exact .delivered
      | false => exact .refused _ rfl rfl
  | file serial now =>
      change DeskStep s _ (fileReport serial now s).1 (fileReport serial now s).2
      unfold fileReport
      cases hfind : s.unfiled.find? (fun t => t.serial = serial) with
      | none => exact .idle _
      | some t =>
          obtain rfl : t.serial = serial := by simpa using List.find?_some hfind
          exact .filed t now (List.mem_of_find?_eq_some hfind)
  | beginDrain now =>
      change DeskStep s _ (beginDrain now s).1 (beginDrain now s).2
      unfold beginDrain
      cases hdrain : s.drain with
      | some d => exact .idle _
      | none => exact .begun now hdrain
  | retry ok =>
      change DeskStep s _ (retryNext ok s).1 (retryNext ok s).2
      unfold retryNext
      split
      · rename_i hdrain
        exact .retried ok hdrain
      · exact .idle _
  | settle => exact deskStep_settle s

variable {s : ReportDesk}

theorem dueOf_running (now : Nat) (due : List Ticket) :
    ((running now due).map DrainRun.due).getD [] = due := by
  unfold running
  split
  · rename_i hdue
    exact hdue.symm
  · rfl

theorem postedOf_running (now : Nat) (due : List Ticket) :
    (running now due).bind DrainRun.posted = none := by
  unfold running
  split <;> rfl

theorem handled_running {now : Nat} {due : List Ticket} (h : s.drain = running now due) :
    dueOf s = due ∧ postedOf s = none ∧ handled s = due := by
  have hdue : dueOf s = due := (congrArg (fun d => (d.map DrainRun.due).getD []) h).trans
    (dueOf_running now due)
  have hposted : postedOf s = none := (congrArg (Option.bind · DrainRun.posted) h).trans
    (postedOf_running now due)
  refine ⟨hdue, hposted, ?_⟩
  unfold handled
  rw [hdue, hposted]
  rfl

theorem handled_of_some {d : DrainRun} (h : s.drain = some d) :
    dueOf s = d.due ∧ postedOf s = d.posted ∧
      handled s = (d.posted.map Prod.fst).toList ++ d.due := by
  unfold handled dueOf postedOf
  rw [h]
  exact ⟨rfl, rfl, rfl⟩

theorem mem_handled_of_due {t : Ticket} (h : t ∈ dueOf s) : t ∈ handled s :=
  List.mem_append_right _ h

theorem mem_handled_of_posted {p : Ticket × Bool} (h : p ∈ postedOf s) : p.1 ∈ handled s := by
  refine List.mem_append_left _ ?_
  rw [Option.mem_def.mp h]
  exact List.mem_singleton_self p.1

/-! ## Numbers -/

/-- A report has a number of its own, wherever it is. -/
structure Numbered (s : ReportDesk) : Prop where
  below : ∀ t, t ∈ s.unfiled ∨ t ∈ s.pending.rows ∨ t ∈ handled s → t.serial < s.issued
  apart : ∀ t ∈ s.unfiled, ∀ u, u ∈ s.pending.rows ∨ u ∈ handled s → u.serial ≠ t.serial
  own : ∀ t ∈ s.pending.rows, ∀ u ∈ s.pending.rows, t.serial = u.serial → t = u
  keyed : ∀ t ∈ s.pending.rows, ∀ u ∈ handled s, t.serial = u.serial → key t = key u
  inHand : ((handled s).map Ticket.serial).Nodup

/-- Where reports only go away, the numbers stay apart. -/
theorem Numbered.mono {s' : ReportDesk} (h : Numbered s) (hissued : s.issued ≤ s'.issued)
    (hunfiled : ∀ t ∈ s'.unfiled, t ∈ s.unfiled)
    (hpending : ∀ t ∈ s'.pending.rows, t ∈ s.pending.rows)
    (hhandled : (handled s').Sublist (handled s)) : Numbered s' where
  below t ht := (h.below t (ht.imp (hunfiled t)
    (Or.imp (hpending t) (fun hmem => hhandled.subset hmem)))).trans_le hissued
  apart t ht u hu := h.apart t (hunfiled t ht) u
    (hu.imp (hpending u) (fun hmem => hhandled.subset hmem))
  own t ht u hu := h.own t (hpending t ht) u (hpending u hu)
  keyed t ht u hu := h.keyed t (hpending t ht) u (hhandled.subset hu)
  inHand := h.inHand.sublist (hhandled.map _)

/-- A pending report that is written again keeps its number. -/
theorem Numbered.rewrite {current next : Ticket} (h : Numbered s)
    (hcurrent : current ∈ s.pending.rows) (hserial : next.serial = current.serial)
    (hkey : key next = key current) : Numbered { s with pending := s.pending.upsert next } := by
  have hrows : ∀ u ∈ (s.pending.upsert next).rows,
      u = next ∨ u ∈ s.pending.rows ∧ u.serial ≠ current.serial := by
    intro u hu
    obtain hu | ⟨hu, hne⟩ := s.pending.mem_rows_upsert.mp hu
    · exact .inl hu
    · refine .inr ⟨hu, fun heq => hne ?_⟩
      rw [h.own u hu current hcurrent heq, hkey]
  constructor
  case below =>
    rintro u (hu | hu | hu)
    · exact h.below u (.inl hu)
    · obtain rfl | ⟨hu, -⟩ := hrows u hu
      · exact hserial ▸ h.below current (.inr (.inl hcurrent))
      · exact h.below u (.inr (.inl hu))
    · exact h.below u (.inr (.inr hu))
  case apart =>
    rintro u hu v (hv | hv)
    · obtain rfl | ⟨hv, -⟩ := hrows v hv
      · exact hserial ▸ h.apart u hu current (.inl hcurrent)
      · exact h.apart u hu v (.inl hv)
    · exact h.apart u hu v (.inr hv)
  case own =>
    intro u hu v hv heq
    obtain rfl | ⟨hu, hneu⟩ := hrows u hu
    · obtain rfl | ⟨-, hnev⟩ := hrows v hv
      · rfl
      · exact absurd (heq.symm.trans hserial) hnev
    · obtain rfl | ⟨hv, -⟩ := hrows v hv
      · exact absurd (heq.trans hserial) hneu
      · exact h.own u hu v hv heq
  case keyed =>
    intro u hu v hv heq
    obtain rfl | ⟨hu, -⟩ := hrows u hu
    · exact hkey.trans (h.keyed current hcurrent v hv (hserial.symm.trans heq))
    · exact h.keyed u hu v hv heq
  case inHand => exact h.inHand

theorem sublist_settled {now : Nat} {t : Ticket} {due : List Ticket} {ok : Bool}
    (hdrain : s.drain = some { now := now, due := due, posted := some (t, ok) })
    {s' : ReportDesk} (hdrain' : s'.drain = running now due) :
    (handled s').Sublist (handled s) := by
  rw [(handled_running hdrain').2.2, (handled_of_some hdrain).2.2]
  exact List.sublist_cons_self t due

theorem numbered_step {e : DeskEvent} {answer : DeskAnswer} {s' : ReportDesk} (h : Numbered s)
    (hstep : DeskStep s e answer s') : Numbered s' := by
  cases hstep with
  | idle => exact h
  | delivered =>
      exact h.mono (Nat.le_succ _) (fun _ ht => ht) (fun _ ht => ht) (List.Sublist.refl _)
  | refused t hserial =>
      have hold : ∀ u, u ∈ s.unfiled ∨ u ∈ s.pending.rows ∨ u ∈ handled s →
          u.serial < s.issued := h.below
      constructor
      case below =>
        rintro u (hu | hu)
        · obtain hu | hu := List.mem_append.mp hu
          · exact (hold u (.inl hu)).trans (Nat.lt_succ_self _)
          · rw [List.mem_singleton.mp hu, hserial]
            exact Nat.lt_succ_self _
        · exact (hold u (.inr hu)).trans (Nat.lt_succ_self _)
      case apart =>
        intro u hu v hv
        obtain hu | hu := List.mem_append.mp hu
        · exact h.apart u hu v hv
        · rw [List.mem_singleton.mp hu, hserial]
          exact Nat.ne_of_lt (hold v (.inr hv))
      case own => exact h.own
      case keyed => exact h.keyed
      case inHand => exact h.inHand
  | filed t now ht =>
      have hunfiled : ∀ u ∈ s.unfiled.filter (fun u => u.serial ≠ t.serial),
          u ∈ s.unfiled ∧ u.serial ≠ t.serial := by
        intro u hu
        obtain ⟨hmem, hne⟩ := List.mem_filter.mp hu
        exact ⟨hmem, of_decide_eq_true hne⟩
      constructor
      case below =>
        rintro u (hu | hu | hu)
        · exact h.below u (.inl (hunfiled u hu).1)
        · obtain rfl | ⟨hu, -⟩ := s.pending.mem_rows_upsert.mp hu
          · exact h.below t (.inl ht)
          · exact h.below u (.inr (.inl hu))
        · exact h.below u (.inr (.inr hu))
      case apart =>
        rintro u hu v (hv | hv)
        · obtain rfl | ⟨hv, -⟩ := s.pending.mem_rows_upsert.mp hv
          · exact (hunfiled u hu).2.symm
          · exact h.apart u (hunfiled u hu).1 v (.inl hv)
        · exact h.apart u (hunfiled u hu).1 v (.inr hv)
      case own =>
        intro u hu v hv heq
        obtain rfl | ⟨hu, -⟩ := s.pending.mem_rows_upsert.mp hu
        · obtain rfl | ⟨hv, -⟩ := s.pending.mem_rows_upsert.mp hv
          · rfl
          · exact absurd heq.symm (h.apart t ht v (.inl hv))
        · obtain rfl | ⟨hv, -⟩ := s.pending.mem_rows_upsert.mp hv
          · exact absurd heq (h.apart t ht u (.inl hu))
          · exact h.own u hu v hv heq
      case keyed =>
        intro u hu v hv heq
        obtain rfl | ⟨hu, -⟩ := s.pending.mem_rows_upsert.mp hu
        · exact absurd heq.symm (h.apart t ht v (.inr hv))
        · exact h.keyed u hu v hv heq
      case inHand => exact h.inHand
  | begun now hdrain =>
      have hhandled : handled { s with
          drain := running now (s.pending.rows.filter (fun t => t.nextAt ≤ now)) } =
          s.pending.rows.filter (fun t => t.nextAt ≤ now) := (handled_running rfl).2.2
      constructor
      case below =>
        rintro u (hu | hu | hu)
        · exact h.below u (.inl hu)
        · exact h.below u (.inr (.inl hu))
        · rw [hhandled] at hu
          exact h.below u (.inr (.inl (List.mem_of_mem_filter hu)))
      case apart =>
        rintro u hu v (hv | hv)
        · exact h.apart u hu v (.inl hv)
        · rw [hhandled] at hv
          exact h.apart u hu v (.inl (List.mem_of_mem_filter hv))
      case own => exact h.own
      case keyed =>
        intro u hu v hv heq
        rw [hhandled] at hv
        exact congrArg key (h.own u hu v (List.mem_of_mem_filter hv) heq)
      case inHand =>
        rw [hhandled]
        refine List.Nodup.map_on (fun u hu v hv => ?_) (s.pending.rows_nodup.filter _)
        exact h.own u (List.mem_of_mem_filter hu) v (List.mem_of_mem_filter hv)
  | retried ok hdrain =>
      refine h.mono le_rfl (fun _ ht => ht) (fun _ ht => ht) ?_
      rw [(handled_of_some hdrain).2.2, (handled_of_some rfl).2.2]
      exact List.Sublist.refl _
  | vanished hdrain hget =>
      exact h.mono le_rfl (fun _ ht => ht) (fun _ ht => ht) (sublist_settled hdrain rfl)
  | removed hdrain hget =>
      exact h.mono le_rfl (fun _ ht => ht) (fun _ ht => (s.pending.mem_rows_erase.mp ht).1)
        (sublist_settled hdrain rfl)
  | @putOff now t current due hdrain hget =>
      have hnext : Numbered { s with
          pending := s.pending.upsert { current with
            attempts := current.attempts + 1
            nextAt := now + backoff (current.attempts + 1) } } :=
        h.rewrite (Table.mem_of_get? hget) rfl rfl
      exact hnext.mono le_rfl (fun _ ht => ht) (fun _ ht => ht) (sublist_settled hdrain rfl)

end ReportDrain

end HermesCluster
