import HermesCluster.Core.ReportDrain
/-!
# Reports are pursued

What becomes of a report, told from the past of the desk: it is put off after each failed
attempt and sent again when it is due, until it is delivered, given up after the last
attempt, or written over by a later report of the same verb and task.
-/

namespace HermesCluster

namespace ReportDrain

open HasKey AgentExecutor

/-! ## What becomes of a report -/

abbrev DeskPast : Type := List (DeskEvent × DeskAnswer)

def attemptOf (n : Nat) : DeskAnswer → Option Bool
  | .posted m ok => if m = n then some ok else none
  | .retried m ok _ => if m = n then some ok else none
  | _ => none

def scheduleOf (n : Nat) : DeskAnswer → Option (Nat × Nat)
  | .scheduled m now nextAt _ => if m = n then some (now, nextAt) else none
  | _ => none

/-- The outcomes of the requests for a report. -/
def attempts (past : DeskPast) (n : Nat) : List Bool :=
  past.filterMap fun x => attemptOf n x.2

/-- When a report was put off, and until when. -/
def schedule (past : DeskPast) (n : Nat) : List (Nat × Nat) :=
  past.filterMap fun x => scheduleOf n x.2

def delays (past : DeskPast) (n : Nat) : List Nat :=
  (schedule past n).map fun p => p.2 - p.1

/-- Another report of the same verb and task was written over it. -/
def Replaced (past : DeskPast) (n : Nat) : Prop :=
  ∃ x ∈ past, ∃ m now nextAt, x.2 = .scheduled m now nextAt (some n)

/-- The report is about to be filed, or is pending. -/
def Awaits (s : ReportDesk) (n : Nat) : Prop :=
  (∃ t ∈ s.unfiled, t.serial = n) ∨ ∃ t ∈ s.pending.rows, t.serial = n

/-- A retry waits for the time that was set last. -/
def Punctual (past : DeskPast) (n : Nat) : Prop :=
  ∀ earlier x later, past = earlier ++ x :: later → ∀ ok now, x.2 = .retried n ok now →
    ∃ p ∈ (schedule earlier n).getLast?, p.2 ≤ now

/-- What the past says of a report. -/
structure Chronicle (past : DeskPast) (n : Nat) : Prop where
  once : ∀ earlier later, attempts past n = earlier ++ true :: later → later = []
  bounded : (attempts past n).length ≤ reportMaxAttempts
  grows : (delays past n).Pairwise (· ≤ ·)
  capped : ∀ delay ∈ delays past n, delay ≤ reportBackoffCap
  spent : (attempts past n).length ≤ (delays past n).length + 1
  punctual : Punctual past n

/-- A report is delivered, given up after the last attempt, or still waits. -/
def Pursued (past : DeskPast) (s : ReportDesk) (n : Nat) : Prop :=
  true ∈ attempts past n ∨ (attempts past n).length = reportMaxAttempts ∨ Awaits s n

/-- A drain that begins when a report is due has sent it when it is over. -/
def TakenUp (events : List DeskEvent) (n : Nat) : Prop :=
  ∀ before now during, events = before ++ .beginDrain now :: during →
    (desk.after before {}).drain = none → (desk.after events {}).drain = none →
    ∀ t ∈ (desk.after before {}).pending.rows, t.serial = n → t.nextAt ≤ now →
      ∃ x ∈ desk.answers during (desk.after (before ++ [.beginDrain now]) {}),
        ∃ ok, x.2 = .retried n ok now

variable {s : ReportDesk} {past : DeskPast} {n : Nat}

/-! ## The past, one answer longer -/

variable {x : DeskEvent × DeskAnswer}

theorem attempts_concat :
    attempts (past ++ [x]) n = attempts past n ++ (attemptOf n x.2).toList := by
  unfold attempts
  rw [List.filterMap_append]
  refine congrArg _ ?_
  cases h : attemptOf n x.2 with
  | none => exact List.filterMap_cons_none h
  | some ok => exact List.filterMap_cons_some h

theorem schedule_concat :
    schedule (past ++ [x]) n = schedule past n ++ (scheduleOf n x.2).toList := by
  unfold schedule
  rw [List.filterMap_append]
  refine congrArg _ ?_
  cases h : scheduleOf n x.2 with
  | none => exact List.filterMap_cons_none h
  | some p => exact List.filterMap_cons_some h

theorem delays_concat : delays (past ++ [x]) n =
    delays past n ++ ((scheduleOf n x.2).map fun p => p.2 - p.1).toList := by
  unfold delays
  rw [schedule_concat, List.map_append]
  cases scheduleOf n x.2 <;> rfl

theorem Punctual.concat (h : Punctual past n) (hlast : ∀ ok now, x.2 = .retried n ok now →
    ∃ p ∈ (schedule past n).getLast?, p.2 ≤ now) : Punctual (past ++ [x]) n := by
  intro earlier y later hsplit ok now hy
  obtain rfl | ⟨later', z, rfl⟩ := List.eq_nil_or_concat later
  · obtain ⟨rfl, hxy⟩ := List.append_inj' hsplit rfl
    obtain rfl : x = y := List.singleton_inj.mp hxy
    exact hlast ok now hy
  · rw [List.concat_eq_append, ← List.cons_append, ← List.append_assoc] at hsplit
    obtain ⟨rfl, -⟩ := List.append_inj' hsplit rfl
    exact h earlier y later' rfl ok now hy

/-- The delays after the first attempts. -/
def backoffs (count : Nat) : List Nat :=
  (List.range count).map fun i => backoff (i + 1)

theorem backoffs_succ (count : Nat) :
    backoffs (count + 1) = backoffs count ++ [backoff (count + 1)] := by
  unfold backoffs
  rw [List.range_succ, List.map_append]
  rfl

theorem backoff_mono {a b : Nat} (h : a ≤ b) : backoff a ≤ backoff b := by
  unfold backoff
  exact min_le_min_right _ (Nat.mul_le_mul_left _
    (Nat.pow_le_pow_right (by decide) (Nat.sub_le_sub_right h 1)))

theorem pairwise_backoffs (count : Nat) : (backoffs count).Pairwise (· ≤ ·) := by
  refine List.pairwise_map.mpr (List.pairwise_lt_range.imp ?_)
  exact fun h => backoff_mono (Nat.succ_le_succ h.le)

theorem le_cap_of_mem_backoffs {count delay : Nat} (h : delay ∈ backoffs count) :
    delay ≤ reportBackoffCap := by
  obtain ⟨i, -, rfl⟩ := List.mem_map.mp h
  exact min_le_right _ _

/-- What is kept of a report in the past: failures up to a delivery, and the delays that the
attempts call for. -/
structure Ledger (past : DeskPast) (n : Nat) : Prop where
  failures : ∃ a, a ≤ reportMaxAttempts ∧
    (attempts past n = List.replicate a false ∨
      a < reportMaxAttempts ∧ attempts past n = List.replicate a false ++ [true])
  backsOff : ∃ count, delays past n = backoffs count
  spent : (attempts past n).length ≤ (delays past n).length + 1
  punctual : Punctual past n

theorem Ledger.chronicle (h : Ledger past n) : Chronicle past n := by
  obtain ⟨a, hmax, hattempts⟩ := h.failures
  obtain ⟨count, hdelays⟩ := h.backsOff
  constructor
  case once =>
    intro earlier later hsplit
    obtain hfailed | ⟨-, hdone⟩ := hattempts
    · have hmem : true ∈ List.replicate a false := by
        rw [← hfailed, hsplit]
        exact List.mem_append_right _ List.mem_cons_self
      cases List.eq_of_mem_replicate hmem
    · rw [hdone] at hsplit
      obtain rfl | ⟨later', z, rfl⟩ := List.eq_nil_or_concat later
      · rfl
      · rw [List.concat_eq_append, ← List.cons_append, ← List.append_assoc] at hsplit
        obtain ⟨hearlier, -⟩ := List.append_inj' hsplit rfl
        have hmem : true ∈ List.replicate a false := by
          rw [hearlier]
          exact List.mem_append_right _ List.mem_cons_self
        cases List.eq_of_mem_replicate hmem
  case bounded =>
    obtain hfailed | ⟨hlow, hdone⟩ := hattempts
    · rw [hfailed, List.length_replicate]
      exact hmax
    · rw [hdone, List.length_append, List.length_replicate]
      exact hlow
  case grows =>
    rw [hdelays]
    exact pairwise_backoffs count
  case capped =>
    rw [hdelays]
    exact fun delay hdelay => le_cap_of_mem_backoffs hdelay
  case spent => exact h.spent
  case punctual => exact h.punctual

/-- An answer that does not concern the report. -/
def Silent (n : Nat) (answer : DeskAnswer) : Prop :=
  attemptOf n answer = none ∧ scheduleOf n answer = none

theorem attempts_of_silent (h : Silent n x.2) : attempts (past ++ [x]) n = attempts past n := by
  rw [attempts_concat, h.1]
  exact List.append_nil _

theorem schedule_of_silent (h : Silent n x.2) : schedule (past ++ [x]) n = schedule past n := by
  rw [schedule_concat, h.2]
  exact List.append_nil _

theorem delays_of_silent (h : Silent n x.2) : delays (past ++ [x]) n = delays past n :=
  congrArg (List.map _) (schedule_of_silent h)

theorem not_retried_of_attemptOf_eq_none {ok : Bool} {now : Nat}
    (h : attemptOf n x.2 = none) : x.2 ≠ .retried n ok now := by
  intro heq
  rw [heq, attemptOf, if_pos rfl] at h
  cases h

theorem Ledger.silent (h : Ledger past n) (hsilent : Silent n x.2) : Ledger (past ++ [x]) n where
  failures := by
    rw [attempts_of_silent hsilent]
    exact h.failures
  backsOff := by
    rw [delays_of_silent hsilent]
    exact h.backsOff
  spent := by
    rw [attempts_of_silent hsilent, delays_of_silent hsilent]
    exact h.spent
  punctual := h.punctual.concat
    (fun _ _ heq => absurd heq (not_retried_of_attemptOf_eq_none hsilent.1))

/-- A further attempt, after failures each of which was put off. -/
theorem Ledger.attempt {a : Nat} {ok : Bool} (h : Ledger past n)
    (hattempt : attemptOf n x.2 = some ok) (hschedule : scheduleOf n x.2 = none)
    (hfailed : attempts past n = List.replicate a false) (hlow : a < reportMaxAttempts)
    (hspent : a ≤ (delays past n).length)
    (hlast : ∀ ok now, x.2 = .retried n ok now → ∃ p ∈ (schedule past n).getLast?, p.2 ≤ now) :
    attempts (past ++ [x]) n = List.replicate a false ++ [ok] ∧ Ledger (past ++ [x]) n := by
  have hattempts : attempts (past ++ [x]) n = List.replicate a false ++ [ok] := by
    rw [attempts_concat, hattempt, hfailed]
    rfl
  have hdelays : delays (past ++ [x]) n = delays past n := by
    rw [delays_concat, hschedule]
    exact List.append_nil _
  refine ⟨hattempts, ?_, ?_, ?_, h.punctual.concat hlast⟩
  · rw [hattempts]
    cases ok with
    | true => exact ⟨a, hlow.le, .inr ⟨hlow, rfl⟩⟩
    | false => exact ⟨a + 1, hlow, .inl List.replicate_succ'.symm⟩
  · rw [hdelays]
    exact h.backsOff
  · rw [hattempts, hdelays, List.length_append, List.length_replicate]
    exact Nat.succ_le_succ hspent

theorem Ledger.putOff {now count : Nat} (h : Ledger past n)
    (hschedule : scheduleOf n x.2 = some (now, now + backoff (count + 1)))
    (hattempt : attemptOf n x.2 = none) (hdelays : delays past n = backoffs count) :
    delays (past ++ [x]) n = backoffs (count + 1) ∧ Ledger (past ++ [x]) n := by
  have hattempts : attempts (past ++ [x]) n = attempts past n := by
    rw [attempts_concat, hattempt]
    exact List.append_nil _
  have hdelays' : delays (past ++ [x]) n = backoffs (count + 1) := by
    rw [delays_concat, hschedule, hdelays, backoffs_succ]
    change backoffs count ++ [now + backoff (count + 1) - now] = _
    rw [Nat.add_sub_cancel_left]
  refine ⟨hdelays', ?_, ⟨count + 1, hdelays'⟩, ?_, h.punctual.concat
    (fun _ _ heq => absurd heq (not_retried_of_attemptOf_eq_none hattempt))⟩
  · rw [hattempts]
    exact h.failures
  · have hspent := h.spent
    rw [hdelays] at hspent
    rw [hattempts, hdelays', backoffs_succ, List.length_append]
    exact hspent.trans (Nat.le_succ _)

/-! ## The story of a report -/

/-- The past agrees with what a report says of itself. -/
structure Noted (past : DeskPast) (t : Ticket) : Prop where
  low : t.attempts < reportMaxAttempts
  delays : delays past t.serial = backoffs t.attempts
  last : ∃ p ∈ (schedule past t.serial).getLast?, p.2 = t.nextAt

/-- What is known of one report, wherever it is. -/
structure Story (n : Nat) (past : DeskPast) (s : ReportDesk) : Prop where
  fresh : s.issued ≤ n → attempts past n = [] ∧ schedule past n = []
  unfiled : ∀ t ∈ s.unfiled, t.serial = n →
    t.attempts = 1 ∧ attempts past n = [false] ∧ schedule past n = []
  pending : ∀ t ∈ s.pending.rows, t.serial = n → Noted past t
  resting : ∀ t ∈ s.pending.rows, t.serial = n → (∀ p ∈ postedOf s, p.1.serial ≠ n) →
    attempts past n = List.replicate t.attempts false
  due : ∀ t ∈ dueOf s, t.serial = n →
    Noted past t ∧ attempts past n = List.replicate t.attempts false
  posted : ∀ p ∈ postedOf s, p.1.serial = n →
    attempts past n = List.replicate p.1.attempts false ++ [p.2]
  onTime : ∀ d ∈ s.drain, ∀ t ∈ d.due, t.nextAt ≤ d.now
  own : ∀ t ∈ s.pending.rows, t.serial = n → ∀ u ∈ handled s, key u = key t → u = t
  pursued : n < s.issued → Pursued past s n ∨ Replaced past n
  ledger : Ledger past n

theorem Noted.of_eq {past' : DeskPast} {t : Ticket} (h : Noted past t)
    (hschedule : schedule past' t.serial = schedule past t.serial) : Noted past' t where
  low := h.low
  delays := (congrArg (List.map _) hschedule).trans h.delays
  last := by
    rw [hschedule]
    exact h.last

theorem Replaced.concat (h : Replaced past n) : Replaced (past ++ [x]) n := by
  obtain ⟨y, hy, hreplaced⟩ := h
  exact ⟨y, List.mem_append_left _ hy, hreplaced⟩

/-- A step that does not concern the report. -/
theorem Story.silent {s' : ReportDesk} (h : Story n past s) (hsilent : Silent n x.2)
    (hissued : s.issued ≤ s'.issued ∧ (n < s'.issued → n < s.issued))
    (hunfiled : ∀ t ∈ s'.unfiled, t.serial = n → t ∈ s.unfiled)
    (hpending : ∀ t ∈ s'.pending.rows, t.serial = n → t ∈ s.pending.rows)
    (hresting : ∀ t ∈ s'.pending.rows, t.serial = n → (∀ p ∈ postedOf s', p.1.serial ≠ n) →
      ∀ p ∈ postedOf s, p.1.serial ≠ n)
    (hdue : ∀ t ∈ dueOf s', t.serial = n →
      t ∈ dueOf s ∨ t ∈ s.pending.rows ∧ postedOf s = none)
    (hposted : ∀ p ∈ postedOf s', p.1.serial = n → p ∈ postedOf s)
    (honTime : ∀ d ∈ s'.drain, ∀ t ∈ d.due, t.nextAt ≤ d.now)
    (hown : ∀ t ∈ s'.pending.rows, t.serial = n → ∀ u ∈ handled s', key u = key t →
      u ∈ handled s ∨ u = t)
    (hpursued : Awaits s n → Pursued (past ++ [x]) s' n ∨ Replaced (past ++ [x]) n) :
    Story n (past ++ [x]) s' := by
  have hattempts : attempts (past ++ [x]) n = attempts past n := attempts_of_silent hsilent
  have hschedule : schedule (past ++ [x]) n = schedule past n := schedule_of_silent hsilent
  constructor
  case fresh =>
    intro hfresh
    rw [hattempts, hschedule]
    exact h.fresh (hissued.1.trans hfresh)
  case unfiled =>
    intro t ht hn
    rw [hattempts, hschedule]
    exact h.unfiled t (hunfiled t ht hn) hn
  case pending =>
    intro t ht hn
    exact (h.pending t (hpending t ht hn) hn).of_eq (hn ▸ hschedule)
  case resting =>
    intro t ht hn hnone
    rw [hattempts]
    exact h.resting t (hpending t ht hn) hn (hresting t ht hn hnone)
  case due =>
    intro t ht hn
    rw [hattempts]
    obtain hold | ⟨hold, hnone⟩ := hdue t ht hn
    · obtain ⟨hnoted, hfailed⟩ := h.due t hold hn
      exact ⟨hnoted.of_eq (hn ▸ hschedule), hfailed⟩
    · refine ⟨(h.pending t hold hn).of_eq (hn ▸ hschedule), h.resting t hold hn ?_⟩
      rw [hnone]
      exact fun p hp => by cases hp
  case posted =>
    intro p hp hn
    rw [hattempts]
    exact h.posted p (hposted p hp hn) hn
  case onTime => exact honTime
  case own =>
    intro t ht hn u hu hkey
    obtain hu | rfl := hown t ht hn u hu hkey
    · exact h.own t (hpending t ht hn) hn u hu hkey
    · rfl
  case pursued =>
    intro hlt
    obtain hpursued' | hreplaced := h.pursued (hissued.2 hlt)
    · obtain hdone | hover | hawaits := hpursued'
      · exact .inl (.inl (hattempts.symm ▸ hdone))
      · exact .inl (.inr (.inl (hattempts.symm ▸ hover)))
      · exact hpursued hawaits
    · exact .inr hreplaced.concat
  case ledger => exact h.ledger.silent hsilent

theorem Numbered.absent (h : Numbered s) (hn : s.issued ≤ n) {t : Ticket}
    (ht : t ∈ s.unfiled ∨ t ∈ s.pending.rows ∨ t ∈ handled s) : t.serial ≠ n :=
  fun heq => absurd (h.below t ht) (by omega)

/-- A report is issued with its first attempt. -/
theorem story_issued {verb : ReportVerb} {taskId : String} {payload : ReportPayload} {ok : Bool}
    {unfiled : List Ticket} (hnum : Numbered s) (h : Story n past s)
    (hold : ∀ t ∈ unfiled, t.serial ≠ s.issued → t ∈ s.unfiled)
    (hkeep : ∀ t ∈ s.unfiled, t ∈ unfiled)
    (hnew : ∀ t ∈ unfiled, t.serial = s.issued → t.attempts = 1 ∧ ok = false)
    (hkept : ok = true ∨ ∃ t ∈ unfiled, t.serial = s.issued) :
    Story n (past ++ [(.post verb taskId payload ok, .posted s.issued ok)])
      { s with issued := s.issued + 1, unfiled := unfiled } := by
  by_cases hn : s.issued = n
  · obtain ⟨hnone, hnever⟩ := h.fresh hn.le
    have hattempt : attemptOf n (.posted s.issued ok) = some ok := if_pos hn
    obtain ⟨hattempts, hledger⟩ := h.ledger.attempt
      (x := (.post verb taskId payload ok, .posted s.issued ok)) (a := 0)
      hattempt rfl hnone (by decide) (Nat.zero_le _) (fun _ _ heq => by cases heq)
    have hschedule : schedule (past ++ [(.post verb taskId payload ok, .posted s.issued ok)]) n =
        [] := by
      rw [schedule_concat, hnever]
      rfl
    have habsent : ∀ {t : Ticket}, t ∈ s.pending.rows ∨ t ∈ handled s → t.serial ≠ n :=
      fun ht => hnum.absent hn.le (.inr ht)
    constructor
    case fresh => exact fun hfresh => absurd hfresh (by simp only; omega)
    case unfiled =>
      intro t ht hserial
      obtain ⟨hone, rfl⟩ := hnew t ht (hserial.trans hn.symm)
      exact ⟨hone, hattempts, hschedule⟩
    case pending => exact fun t ht hserial => absurd hserial (habsent (.inl ht))
    case resting => exact fun t ht hserial => absurd hserial (habsent (.inl ht))
    case due => exact fun t ht hserial => absurd hserial (habsent (.inr (mem_handled_of_due ht)))
    case posted =>
      exact fun p hp hserial => absurd hserial (habsent (.inr (mem_handled_of_posted hp)))
    case onTime => exact h.onTime
    case own => exact fun t ht hserial => absurd hserial (habsent (.inl ht))
    case pursued =>
      intro _
      obtain rfl | ⟨t, ht, hserial⟩ := hkept
      · refine .inl (.inl ?_)
        rw [hattempts]
        exact List.mem_singleton_self true
      · exact .inl (.inr (.inr (.inl ⟨t, ht, hserial.trans hn⟩)))
    case ledger => exact hledger
  · refine h.silent ⟨if_neg hn, rfl⟩ ⟨Nat.le_succ _, fun hlt => ?_⟩ (fun t ht hserial => ?_)
      (fun _ ht _ => ht) (fun _ _ _ hnone => hnone) (fun _ ht _ => .inl ht) (fun _ hp _ => hp)
      h.onTime (fun _ _ _ _ hu _ => .inl hu) (fun hawaits => ?_)
    · change n < s.issued + 1 at hlt
      omega
    · exact hold t ht (fun heq => hn (heq.symm.trans hserial))
    · exact .inl (.inr (.inr (hawaits.imp_left (fun ⟨t, ht, hserial⟩ => ⟨t, hkeep t ht, hserial⟩))))

/-- A report is filed, and perhaps written over another one. -/
theorem story_filed {t : Ticket} {now : Nat} (hnum : Numbered s) (h : Story n past s)
    (ht : t ∈ s.unfiled) (hcalm : t.serial = n → ∀ u ∈ handled s, key u ≠ key t) :
    Story n (past ++ [(.file t.serial now, .scheduled t.serial now (now + reportBackoffBase)
        ((s.pending.get? (key t)).map Ticket.serial))])
      { s with
        unfiled := s.unfiled.filter (fun u => u.serial ≠ t.serial)
        pending := s.pending.upsert { t with nextAt := now + reportBackoffBase } } := by
  have hunfiled : ∀ u ∈ s.unfiled.filter (fun u => u.serial ≠ t.serial),
      u ∈ s.unfiled ∧ u.serial ≠ t.serial := by
    intro u hu
    obtain ⟨hmem, hne⟩ := List.mem_filter.mp hu
    exact ⟨hmem, of_decide_eq_true hne⟩
  have hrows : ∀ u ∈ (s.pending.upsert { t with nextAt := now + reportBackoffBase }).rows,
      u = { t with nextAt := now + reportBackoffBase } ∨ u ∈ s.pending.rows ∧ key u ≠ key t :=
    fun u hu => s.pending.mem_rows_upsert.mp hu
  by_cases hn : t.serial = n
  · obtain ⟨hone, hattempts, hnever⟩ := h.unfiled t ht hn
    have habsent : ∀ {u : Ticket}, u ∈ s.pending.rows ∨ u ∈ handled s → u.serial ≠ n :=
      fun hu heq => hnum.apart t ht _ hu (heq.trans hn.symm)
    have honly : ∀ u ∈ (s.pending.upsert { t with nextAt := now + reportBackoffBase }).rows,
        u.serial = n → u = { t with nextAt := now + reportBackoffBase } :=
      fun u hu hserial => (hrows u hu).resolve_right (fun hu => habsent (.inl hu.1) hserial)
    let x : DeskEvent × DeskAnswer := (.file t.serial now, .scheduled t.serial now
      (now + reportBackoffBase) ((s.pending.get? (key t)).map Ticket.serial))
    have hscheduleOf : scheduleOf n x.2 = some (now, now + reportBackoffBase) := if_pos hn
    have hfirst : reportBackoffBase = backoff (0 + 1) := by decide
    have hnone : delays past n = backoffs 0 := by
      unfold delays
      rw [hnever]
      rfl
    obtain ⟨hdelays, hledger⟩ := h.ledger.putOff (x := x) (hfirst ▸ hscheduleOf) rfl hnone
    have hattempts' : attempts (past ++ [x]) n = [false] :=
      (attempts_concat.trans (List.append_nil _)).trans hattempts
    have hlast : ∃ p ∈ (schedule (past ++ [x]) n).getLast?, p.2 = now + reportBackoffBase := by
      rw [schedule_concat, hscheduleOf]
      exact ⟨(now, now + reportBackoffBase), List.getLast?_concat, rfl⟩
    constructor
    case fresh =>
      exact fun hfresh => absurd hn (hnum.absent hfresh (.inl ht))
    case unfiled => exact fun u hu hserial => absurd (hserial.trans hn.symm) (hunfiled u hu).2
    case pending =>
      intro u hu hserial
      obtain rfl := honly u hu hserial
      refine ⟨hone ▸ by decide, ?_, ?_⟩
      · change delays (past ++ [x]) t.serial = backoffs t.attempts
        rw [hn, hdelays, hone]
      · change ∃ p ∈ (schedule (past ++ [x]) t.serial).getLast?, _
        rw [hn]
        exact hlast
    case resting =>
      intro u hu hserial _
      obtain rfl := honly u hu hserial
      change attempts (past ++ [x]) n = List.replicate t.attempts false
      rw [hattempts', hone]
      rfl
    case due => exact fun u hu hserial => absurd hserial (habsent (.inr (mem_handled_of_due hu)))
    case posted =>
      exact fun p hp hserial => absurd hserial (habsent (.inr (mem_handled_of_posted hp)))
    case onTime => exact h.onTime
    case own =>
      intro u hu hserial v hv hkey
      obtain rfl := honly u hu hserial
      exact absurd hkey (hcalm hn v hv)
    case pursued =>
      exact fun _ => .inl (.inr (.inr (.inr ⟨_, s.pending.mem_rows_upsert.mpr (.inl rfl), hn⟩)))
    case ledger => exact hledger
  · refine h.silent ⟨rfl, if_neg hn⟩ ⟨le_rfl, id⟩ (fun u hu _ => (hunfiled u hu).1)
      (fun u hu hserial => ?_) (fun _ _ _ hnone => hnone) (fun _ hu _ => .inl hu)
      (fun _ hp _ => hp) h.onTime (fun _ _ _ _ hu _ => .inl hu) (fun hawaits => ?_)
    · obtain rfl | ⟨hu, -⟩ := hrows u hu
      · exact absurd hserial hn
      · exact hu
    · obtain ⟨u, hu, hserial⟩ | ⟨u, hu, hserial⟩ := hawaits
      · refine .inl (.inr (.inr (.inl ⟨u, List.mem_filter.mpr ⟨hu, ?_⟩, hserial⟩)))
        exact decide_eq_true (fun heq => hn (heq.symm.trans hserial))
      · by_cases hkey : key u = key t
        · refine .inr ⟨_, List.mem_append_right _ (List.mem_singleton_self _),
            t.serial, now, now + reportBackoffBase, ?_⟩
          rw [← hkey, s.pending.get?_of_mem hu, Option.map_some, hserial]
        · exact .inl (.inr (.inr (.inr ⟨u, s.pending.mem_rows_upsert.mpr (.inr ⟨hu, hkey⟩),
            hserial⟩)))

theorem onTime_running {now : Nat} {due : List Ticket} {d : DrainRun}
    (hall : ∀ t ∈ due, t.nextAt ≤ now) (hd : d ∈ running now due) :
    ∀ t ∈ d.due, t.nextAt ≤ d.now := by
  unfold running at hd
  split at hd
  · cases hd
  · obtain rfl := Option.some.inj hd
    exact hall

theorem story_begun {now : Nat} (h : Story n past s) (hdrain : s.drain = none) :
    Story n (past ++ [(.beginDrain now, .idle)])
      { s with drain := running now (s.pending.rows.filter (fun t => t.nextAt ≤ now)) } := by
  obtain ⟨hdue, hposted, hhandled⟩ := handled_running
    (s := { s with drain := running now (s.pending.rows.filter (fun t => t.nextAt ≤ now)) }) rfl
  have hnone : postedOf s = none := by
    unfold postedOf
    rw [hdrain]
    rfl
  refine h.silent ⟨rfl, rfl⟩ ⟨le_rfl, id⟩ (fun _ ht _ => ht) (fun _ ht _ => ht)
    (fun t ht _ _ => ?_) (fun t ht _ => ?_) (fun p hp _ => ?_) (fun d hd t ht => ?_)
    (fun t ht _ u hu hkey => ?_) (fun hawaits => .inl (.inr (.inr hawaits)))
  · rw [hnone]
    exact fun p hp => by cases hp
  · rw [hdue] at ht
    exact .inr ⟨List.mem_of_mem_filter ht, hnone⟩
  · rw [hposted] at hp
    cases hp
  · exact onTime_running (fun u hu => of_decide_eq_true (List.mem_filter.mp hu).2) hd t ht
  · rw [hhandled] at hu
    exact .inr (Table.eq_of_mem_of_key_eq (List.mem_of_mem_filter hu) ht hkey)

/-- A report that is due is sent again. -/
theorem story_retried {now : Nat} {t : Ticket} {due : List Ticket} {ok : Bool}
    (hnum : Numbered s) (h : Story n past s)
    (hdrain : s.drain = some { now := now, due := t :: due }) :
    Story n (past ++ [(.retry ok, .retried t.serial ok now)])
      { s with drain := some { now := now, due := due, posted := some (t, ok) } } := by
  let s' : ReportDesk :=
    { s with drain := some { now := now, due := due, posted := some (t, ok) } }
  obtain ⟨hdue, hposted, hhandled⟩ := handled_of_some hdrain
  obtain ⟨hdue', hposted', hhandled'⟩ := handled_of_some (s := s') rfl
  have hsame : handled s' = handled s := hhandled'.trans hhandled.symm
  have htime : ∀ u ∈ t :: due, u.nextAt ≤ now := h.onTime _ hdrain
  by_cases hn : t.serial = n
  · obtain ⟨hnoted, hfailed⟩ := h.due t (by rw [hdue]; exact List.mem_cons_self) hn
    let x : DeskEvent × DeskAnswer := (.retry ok, .retried t.serial ok now)
    have hattempt : attemptOf n x.2 = some ok := if_pos hn
    have hspent : t.attempts ≤ (delays past n).length := by
      rw [← hn, hnoted.delays]
      unfold backoffs
      rw [List.length_map, List.length_range]
    have hlast : ∀ ok' now', x.2 = .retried n ok' now' →
        ∃ p ∈ (schedule past n).getLast?, p.2 ≤ now' := by
      intro _ _ heq
      obtain ⟨p, hp, hnext⟩ := hnoted.last
      obtain ⟨-, -, rfl⟩ := DeskAnswer.retried.inj heq
      exact ⟨p, hn ▸ hp, hnext.trans_le (htime t List.mem_cons_self)⟩
    obtain ⟨hattempts, hledger⟩ :=
      h.ledger.attempt hattempt rfl hfailed hnoted.low hspent hlast
    have hschedule : schedule (past ++ [x]) n = schedule past n :=
      schedule_concat.trans (List.append_nil _)
    have hother : ∀ u ∈ due, u.serial ≠ n := by
      have hnodup := hnum.inHand
      rw [hhandled] at hnodup
      intro u hu heq
      exact (List.nodup_cons.mp hnodup).1 (List.mem_map.mpr ⟨u, hu, heq.trans hn.symm⟩)
    constructor
    case fresh =>
      exact fun hfresh => absurd hn (hnum.absent hfresh
        (.inr (.inr (mem_handled_of_due (by rw [hdue]; exact List.mem_cons_self)))))
    case unfiled =>
      refine fun u hu hserial => absurd (hn.trans hserial.symm) (hnum.apart u hu t (.inr ?_))
      exact mem_handled_of_due (by rw [hdue]; exact List.mem_cons_self)
    case pending => exact fun u hu hserial => (h.pending u hu hserial).of_eq (hserial ▸ hschedule)
    case resting =>
      refine fun u hu hserial hrest => absurd hn (hrest (t, ok) ?_)
      exact hposted'
    case due =>
      intro u hu hserial
      rw [hdue'] at hu
      exact absurd hserial (hother u hu)
    case posted =>
      intro p hp _
      rw [hposted'] at hp
      obtain rfl := Option.some.inj hp
      exact hattempts
    case onTime =>
      intro d hd u hu
      obtain rfl := Option.some.inj hd
      exact htime u (List.mem_cons_of_mem t hu)
    case own =>
      intro u hu hserial v hv hkey
      rw [hsame] at hv
      exact h.own u hu hserial v hv hkey
    case pursued =>
      intro hlt
      refine (h.pursued hlt).imp ?_ Replaced.concat
      rintro (hdone | hover | hawaits)
      · refine .inl ?_
        rw [attempts_concat]
        exact List.mem_append_left _ hdone
      · rw [hfailed, List.length_replicate] at hover
        exact absurd hover hnoted.low.ne
      · exact .inr (.inr hawaits)
    case ledger => exact hledger
  · refine h.silent ⟨if_neg hn, rfl⟩ ⟨le_rfl, id⟩ (fun _ ht _ => ht) (fun _ ht _ => ht)
      (fun u hu _ _ => ?_) (fun u hu _ => .inl ?_) (fun p hp hserial => ?_) (fun d hd u hu => ?_)
      (fun u hu _ v hv _ => .inl ?_) (fun hawaits => .inl (.inr (.inr hawaits)))
    · rw [hposted]
      exact fun p hp => by cases hp
    · rw [hdue'] at hu
      rw [hdue]
      exact List.mem_cons_of_mem t hu
    · rw [hposted'] at hp
      obtain rfl := Option.some.inj hp
      exact absurd hserial hn
    · obtain rfl := Option.some.inj hd
      exact htime u (List.mem_cons_of_mem t hu)
    · rw [hsame] at hv
      exact hv

section Settled

variable {now : Nat} {t : Ticket} {due : List Ticket} {ok : Bool}

/-- The report that was sent is the one under its key, if that is the report in question. -/
theorem Story.sent (hnum : Numbered s) (h : Story n past s)
    (hdrain : s.drain = some { now := now, due := due, posted := some (t, ok) })
    {u : Ticket} (hu : u ∈ s.pending.rows) (hserial : u.serial = n)
    (hsent : t.serial = n ∨ key u = key t) : u = t := by
  obtain ⟨-, hposted, -⟩ := handled_of_some hdrain
  have ht : t ∈ handled s := mem_handled_of_posted (p := (t, ok)) hposted
  have hkey : key u = key t := hsent.elim
    (fun hn => hnum.keyed u hu t ht (hserial.trans hn.symm)) id
  exact (h.own u hu hserial t ht hkey.symm).symm

/-- A retry is settled without a change to the report in question. -/
theorem story_unsettled {answer : DeskAnswer} {pending : Table Ticket}
    (h : Story n past s)
    (hdrain : s.drain = some { now := now, due := due, posted := some (t, ok) })
    (hsilent : Silent n answer)
    (hpending : ∀ u ∈ pending.rows, u.serial = n → u ∈ s.pending.rows ∧ t.serial ≠ n)
    (hpursued : ∀ u ∈ s.pending.rows, u.serial = n → u ∈ pending.rows ∨
      true ∈ attempts past n ∨ (attempts past n).length = reportMaxAttempts) :
    Story n (past ++ [(.settle, answer)])
      { s with pending := pending, drain := running now due } := by
  obtain ⟨hdue, hposted, hhandled⟩ := handled_of_some hdrain
  obtain ⟨hdue', hposted', hhandled'⟩ := handled_running
    (s := { s with pending := pending, drain := running now due }) rfl
  have hattempts : attempts (past ++ [(.settle, answer)]) n = attempts past n :=
    attempts_of_silent hsilent
  refine h.silent hsilent ⟨le_rfl, id⟩ (fun _ hu _ => hu) (fun u hu hn => (hpending u hu hn).1)
    (fun u hu hn _ p hp => ?_) (fun u hu _ => .inl ?_) (fun p hp _ => ?_) (fun d hd u hu => ?_)
    (fun u hu _ v hv _ => .inl ?_) (fun hawaits => .inl ?_)
  · rw [hposted] at hp
    obtain rfl := Option.some.inj hp
    exact (hpending u hu hn).2
  · rw [hdue'] at hu
    rw [hdue]
    exact hu
  · rw [hposted'] at hp
    cases hp
  · exact onTime_running (h.onTime _ hdrain) hd u hu
  · rw [hhandled'] at hv
    rw [hhandled]
    exact List.mem_cons_of_mem t hv
  · obtain hunfiled | ⟨u, hu, hn⟩ := hawaits
    · exact .inr (.inr (.inl hunfiled))
    · obtain hstays | hdone | hover := hpursued u hu hn
      · exact .inr (.inr (.inr ⟨u, hstays, hn⟩))
      · exact .inl (hattempts.symm ▸ hdone)
      · exact .inr (.inl (hattempts.symm ▸ hover))

/-- An entry is removed, after a delivery or after the last attempt. -/
theorem story_removed {current : Ticket} (hnum : Numbered s) (h : Story n past s)
    (hdrain : s.drain = some { now := now, due := due, posted := some (t, ok) })
    (hget : s.pending.get? (key t) = some current)
    (hover : ok = true ∨ reportMaxAttempts ≤ current.attempts + 1) :
    Story n (past ++ [(.settle, .removed current.serial)])
      { s with pending := s.pending.erase (key t), drain := running now due } := by
  refine story_unsettled h hdrain ⟨rfl, rfl⟩ (fun u hu hn => ?_) (fun u hu hn => ?_)
  · obtain ⟨hu, hne⟩ := s.pending.mem_rows_erase.mp hu
    refine ⟨hu, fun ht => hne ?_⟩
    rw [h.sent hnum hdrain hu hn (.inl ht)]
  · by_cases hkey : key u = key t
    · obtain rfl := h.sent hnum hdrain hu hn (.inr hkey)
      obtain rfl : u = current := Option.some.inj ((s.pending.get?_of_mem hu).symm.trans hget)
      have hattempts : attempts past n = List.replicate u.attempts false ++ [ok] :=
        h.posted (u, ok) (handled_of_some hdrain).2.1 hn
      rw [hattempts]
      obtain rfl | hlast := hover
      · exact .inr (.inl (List.mem_append_right _ (List.mem_singleton_self true)))
      · have hlow := (h.pending u hu hn).low
        refine .inr (.inr ?_)
        rw [List.length_append, List.length_replicate, List.length_singleton]
        omega
    · exact .inl (s.pending.mem_rows_erase.mpr ⟨hu, hkey⟩)

/-- A report is put off once more. -/
theorem story_putOff {current : Ticket} (hnum : Numbered s) (h : Story n past s)
    (hdrain : s.drain = some { now := now, due := due, posted := some (t, false) })
    (hget : s.pending.get? (key t) = some current)
    (hlow : current.attempts + 1 < reportMaxAttempts) :
    Story n (past ++ [(.settle,
        .scheduled current.serial now (now + backoff (current.attempts + 1)) none)])
      { s with
        pending := s.pending.upsert { current with
          attempts := current.attempts + 1
          nextAt := now + backoff (current.attempts + 1) }
        drain := running now due } := by
  let next : Ticket := { current with
    attempts := current.attempts + 1
    nextAt := now + backoff (current.attempts + 1) }
  have hcurrent : current ∈ s.pending.rows := Table.mem_of_get? hget
  have hcurrentKey : key current = key t := Table.key_of_get? hget
  have hrows : ∀ u ∈ (s.pending.upsert next).rows,
      u = next ∨ u ∈ s.pending.rows ∧ key u ≠ key t := by
    intro u hu
    refine (s.pending.mem_rows_upsert.mp hu).imp_right (And.imp_right fun hne => ?_)
    exact hcurrentKey ▸ hne
  by_cases hn : current.serial = n
  · obtain rfl := h.sent hnum hdrain hcurrent hn (.inr hcurrentKey)
    have hnoted := h.pending current hcurrent hn
    have hattempts : attempts past n = List.replicate current.attempts false ++ [false] :=
      h.posted (current, false) (handled_of_some hdrain).2.1 hn
    let x : DeskEvent × DeskAnswer := (.settle,
      .scheduled current.serial now (now + backoff (current.attempts + 1)) none)
    have hscheduleOf : scheduleOf n x.2 = some (now, now + backoff (current.attempts + 1)) :=
      if_pos hn
    obtain ⟨hdelays, hledger⟩ := h.ledger.putOff hscheduleOf rfl (hn ▸ hnoted.delays)
    have hattempts' : attempts (past ++ [x]) n = List.replicate next.attempts false :=
      (attempts_concat.trans (List.append_nil _)).trans
        (hattempts.trans List.replicate_succ'.symm)
    have hlast : ∃ p ∈ (schedule (past ++ [x]) n).getLast?, p.2 = next.nextAt := by
      rw [schedule_concat, hscheduleOf]
      exact ⟨_, List.getLast?_concat, rfl⟩
    have honly : ∀ u ∈ (s.pending.upsert next).rows, u.serial = n → u = next := by
      refine fun u hu hserial => (hrows u hu).resolve_right (fun ⟨hu, hne⟩ => hne ?_)
      rw [hnum.own u hu current hcurrent (hserial.trans hn.symm)]
    obtain ⟨hdue, hposted, hhandled⟩ := handled_of_some hdrain
    obtain ⟨hdue', hposted', hhandled'⟩ := handled_running
      (s := { s with pending := s.pending.upsert next, drain := running now due }) rfl
    have hother : ∀ u ∈ due, u.serial ≠ n := by
      have hnodup := hnum.inHand
      rw [hhandled] at hnodup
      intro u hu heq
      exact (List.nodup_cons.mp hnodup).1 (List.mem_map.mpr ⟨u, hu, heq.trans hn.symm⟩)
    constructor
    case fresh => exact fun hfresh => absurd hn (hnum.absent hfresh (.inr (.inl hcurrent)))
    case unfiled =>
      exact fun u hu hserial =>
        absurd (hn.trans hserial.symm) (hnum.apart u hu current (.inl hcurrent))
    case pending =>
      intro u hu hserial
      obtain rfl := honly u hu hserial
      refine ⟨hlow, ?_, ?_⟩
      · change delays (past ++ [x]) current.serial = backoffs (current.attempts + 1)
        rw [hn, hdelays]
      · change ∃ p ∈ (schedule (past ++ [x]) current.serial).getLast?, _
        rw [hn]
        exact hlast
    case resting =>
      intro u hu hserial _
      obtain rfl := honly u hu hserial
      exact hattempts'
    case due =>
      intro u hu hserial
      rw [hdue'] at hu
      exact absurd hserial (hother u hu)
    case posted =>
      intro p hp _
      rw [hposted'] at hp
      cases hp
    case onTime =>
      exact fun d hd => onTime_running (h.onTime _ hdrain) hd
    case own =>
      intro u hu hserial v hv hkey
      obtain rfl := honly u hu hserial
      rw [hhandled'] at hv
      have hsent : v = current := h.own current hcurrent hn v
        (hhandled ▸ List.mem_cons_of_mem current hv) hkey
      exact absurd (hsent ▸ hn) (hother v hv)
    case pursued =>
      exact fun _ => .inl (.inr (.inr (.inr ⟨next, s.pending.mem_rows_upsert.mpr (.inl rfl), hn⟩)))
    case ledger => exact hledger
  · refine story_unsettled h hdrain ⟨rfl, if_neg hn⟩ (fun u hu hserial => ?_)
      (fun u hu hserial => .inl ?_)
    · obtain rfl | ⟨hu, hne⟩ := hrows u hu
      · exact absurd hserial hn
      · refine ⟨hu, fun ht => hne ?_⟩
        rw [h.sent hnum hdrain hu hserial (.inl ht)]
    · refine s.pending.mem_rows_upsert.mpr (.inr ⟨hu, fun heq => hn ?_⟩)
      have hsame : u = current := Table.eq_of_mem_of_key_eq hu hcurrent heq
      exact hsame ▸ hserial

end Settled

/-- The rule of the steps. -/
theorem story_step {e : DeskEvent} {answer : DeskAnswer} {s' : ReportDesk} (hnum : Numbered s)
    (h : Story n past s) (hcalm : Undisturbed n e s) (hstep : DeskStep s e answer s') :
    Story n (past ++ [(e, answer)]) s' := by
  cases hstep with
  | idle e =>
      exact h.silent ⟨rfl, rfl⟩ ⟨le_rfl, id⟩ (fun _ ht _ => ht) (fun _ ht _ => ht)
        (fun _ _ _ hnone => hnone) (fun _ ht _ => .inl ht) (fun _ hp _ => hp) h.onTime
        (fun _ _ _ _ hu _ => .inl hu) (fun hawaits => .inl (.inr (.inr hawaits)))
  | delivered =>
      exact story_issued hnum h (fun _ ht _ => ht) (fun _ ht => ht)
        (fun t ht heq => absurd heq (hnum.absent le_rfl (.inl ht))) (.inl rfl)
  | refused t hserial hattempts =>
      refine story_issued hnum h (fun u hu hne => ?_) (fun u hu => List.mem_append_left _ hu)
        (fun u hu heq => ?_)
        (.inr ⟨t, List.mem_append_right _ (List.mem_singleton_self t), hserial⟩)
      · refine (List.mem_append.mp hu).resolve_right (fun hu => hne ?_)
        rw [List.mem_singleton.mp hu, hserial]
      · obtain hu | hu := List.mem_append.mp hu
        · exact absurd heq (hnum.absent le_rfl (.inl hu))
        · rw [List.mem_singleton.mp hu]
          exact ⟨hattempts, rfl⟩
  | filed t now ht => exact story_filed hnum h ht (fun hn u hu => hcalm hn t ht hn u hu)
  | begun now hdrain => exact story_begun h hdrain
  | retried ok hdrain => exact story_retried hnum h hdrain
  | vanished hdrain hget =>
      refine story_unsettled h hdrain ⟨rfl, rfl⟩ (fun u hu hn => ⟨hu, fun ht => ?_⟩)
        (fun u hu _ => .inl hu)
      obtain rfl := h.sent hnum hdrain hu hn (.inl ht)
      cases (s.pending.get?_of_mem hu).symm.trans hget
  | removed hdrain hget hover => exact story_removed hnum h hdrain hget hover
  | putOff hdrain hget hlow => exact story_putOff hnum h hdrain hget hlow

/-! ## What is due is sent -/

theorem due_step {e : DeskEvent} {answer : DeskAnswer} {s' : ReportDesk} {d : DrainRun}
    {t : Ticket} (hstep : DeskStep s e answer s') (hdrain : s.drain = some d) (ht : t ∈ d.due) :
    (∃ ok, answer = .retried t.serial ok d.now) ∨
      ∃ d', s'.drain = some d' ∧ d'.now = d.now ∧ t ∈ d'.due := by
  have hgoes : ∀ {now : Nat} {u : Ticket} {due : List Ticket} {ok : Bool},
      s.drain = some { now := now, due := due, posted := some (u, ok) } →
      ∃ d', running now due = some d' ∧ d'.now = d.now ∧ t ∈ d'.due := by
    intro now u due ok hsent
    obtain rfl := Option.some.inj (hsent.symm.trans hdrain)
    exact ⟨_, if_neg (List.ne_nil_of_mem ht), rfl, ht⟩
  cases hstep with
  | idle => exact .inr ⟨d, hdrain, rfl, ht⟩
  | delivered => exact .inr ⟨d, hdrain, rfl, ht⟩
  | refused => exact .inr ⟨d, hdrain, rfl, ht⟩
  | filed => exact .inr ⟨d, hdrain, rfl, ht⟩
  | begun now hnone => cases hnone.symm.trans hdrain
  | retried ok hnext =>
      obtain rfl := Option.some.inj (hnext.symm.trans hdrain)
      obtain rfl | ht := List.mem_cons.mp ht
      · exact .inl ⟨ok, rfl⟩
      · exact .inr ⟨_, rfl, rfl, ht⟩
  | vanished hsent => exact .inr (hgoes hsent)
  | removed hsent => exact .inr (hgoes hsent)
  | putOff hsent => exact .inr (hgoes hsent)

/-- What a drain has in hand is sent before the drain is over. -/
theorem due_run {d : DrainRun} {t : Ticket} (hdrain : s.drain = some d) (ht : t ∈ d.due)
    (events : List DeskEvent) :
    (∃ x ∈ desk.answers events s, ∃ ok, x.2 = .retried t.serial ok d.now) ∨
      ∃ d', (desk.after events s).drain = some d' ∧ d'.now = d.now ∧ t ∈ d'.due := by
  induction events using List.reverseRecOn with
  | nil => exact .inr ⟨d, hdrain, rfl, ht⟩
  | append_singleton events e ih =>
      rw [desk.answers_concat, desk.after_concat]
      obtain ⟨x, hx, hretried⟩ | ⟨d', hdrain', hnow, ht'⟩ := ih
      · exact .inl ⟨x, List.mem_append_left _ hx, hretried⟩
      · rw [← hnow]
        refine (due_step (deskStep e _) hdrain' ht').imp_left (fun ⟨ok, hanswer⟩ => ?_)
        exact ⟨_, List.mem_append_right _ (List.mem_singleton_self _), ok, hanswer⟩

theorem takenUp_of_due (events : List DeskEvent) (n : Nat) : TakenUp events n := by
  rintro before now during rfl hidle hover t ht rfl hdue
  have hbegun : (desk.after (before ++ [.beginDrain now]) {}).drain =
      running now ((desk.after before {}).pending.rows.filter (fun t => t.nextAt ≤ now)) := by
    rw [desk.after_concat]
    change (beginDrain now (desk.after before {})).2.drain = _
    unfold beginDrain
    rw [hidle]
  have hmem : t ∈ (desk.after before {}).pending.rows.filter (fun t => t.nextAt ≤ now) :=
    List.mem_filter.mpr ⟨ht, decide_eq_true hdue⟩
  have hdrain := hbegun.trans (if_neg (List.ne_nil_of_mem hmem))
  obtain hretried | ⟨d', hdrain', -⟩ := due_run hdrain hmem during
  · exact hretried
  · rw [← desk.after_append, List.append_assoc] at hdrain'
    cases hover.symm.trans hdrain'

/-! ## Every run -/

/-- A report is put off after each failure, by delays that grow up to the cap, and is sent
again when it is due, until it is delivered, given up or replaced; a delivery ends it. Of a
report that is filed while the drain has another one of its verb and task in hand, nothing
is said. -/
theorem reports_pursued (events : List DeskEvent) (n : Nat)
    (hissued : n < (desk.after events {}).issued) (hcalm : desk.Meets (Undisturbed n) events {}) :
    Chronicle (desk.answers events {}) n ∧
      (Pursued (desk.answers events {}) (desk.after events {}) n ∨
        Replaced (desk.answers events {}) n) ∧
      TakenUp events n := by
  have hstory : Numbered (desk.after events {}) ∧
      Story n (desk.answers events {}) (desk.after events {}) := by
    refine Machine.tracks_of_step (I := fun past s => Numbered s ∧ Story n past s)
      ⟨⟨?_, ?_, ?_, ?_, List.nodup_nil⟩, ?_⟩ hcalm (fun past s e h he => ?_)
    · rintro t (ht | ht | ht) <;> cases ht
    · exact fun t ht => by cases ht
    · exact fun t ht => by cases ht
    · exact fun t ht => by cases ht
    · refine ⟨fun _ => ⟨rfl, rfl⟩, ?_, ?_, ?_, ?_, ?_, ?_, ?_, ?_, ?_⟩
      · exact fun t ht => by cases ht
      · exact fun t ht => by cases ht
      · exact fun t ht => by cases ht
      · exact fun t ht => by cases ht
      · exact fun t ht => by cases ht
      · exact fun t ht => by cases ht
      · exact fun t ht => by cases ht
      · exact fun hlt => absurd hlt (Nat.not_lt_zero n)
      · refine ⟨⟨0, Nat.zero_le _, .inl rfl⟩, ⟨0, rfl⟩, Nat.zero_le _, ?_⟩
        intro earlier x later hsplit
        cases earlier <;> cases hsplit
    · have hstep := deskStep e s
      exact ⟨numbered_step h.1 hstep, story_step h.1 h.2 he hstep⟩
  exact ⟨hstory.2.ledger.chronicle, hstory.2.pursued hissued, takenUp_of_due events n⟩

/-- Main is down for one attempt. -/
def sentTwice : List DeskEvent :=
  [.post .complete "task_1" {} false, .file 0 0, .beginDrain 500000, .retry true, .settle]

theorem reports_pursued_twice :
    Chronicle (desk.answers sentTwice {}) 0 ∧
      (Pursued (desk.answers sentTwice {}) (desk.after sentTwice {}) 0 ∨
        Replaced (desk.answers sentTwice {}) 0) ∧
      TakenUp sentTwice 0 :=
  reports_pursued sentTwice 0 (by decide +kernel) (by decide +kernel)

/-- Two failures of one task are reported while main is down. -/
def reportedTwice : List DeskEvent :=
  [.post .fail "task_1" { reason := some "npx not found" } false, .file 0 0,
    .post .fail "task_1" { reason := some "lane failed" } false, .file 1 1]

/-- A second failure is reported while the first one is being delivered. -/
def reportedMeanwhile : List DeskEvent :=
  [.post .fail "task_1" { reason := some "npx not found" } false, .file 0 0,
    .beginDrain 500000, .retry true,
    .post .fail "task_1" { reason := some "lane failed" } false, .file 1 500000, .settle]

/-- The earlier report is written over; and a report is lost to the delivery of another. -/
theorem earlier_report_is_dropped :
    (0 < (desk.after reportedTwice {}).issued ∧
      ¬Pursued (desk.answers reportedTwice {}) (desk.after reportedTwice {}) 0) ∧
    1 < (desk.after reportedMeanwhile {}).issued ∧
      ¬Pursued (desk.answers reportedMeanwhile {}) (desk.after reportedMeanwhile {}) 1 := by
  unfold Pursued Awaits
  decide +kernel

end ReportDrain

end HermesCluster
