import Mathlib.Algebra.Order.Ring.Rat
import Mathlib.Data.Int.Log
import Mathlib.Data.Nat.Log
import HermesCluster.Lib.Machine
import HermesCluster.Lib.Json
import HermesCluster.Lib.Text
/-!
# Metering alerts

`evaluate_alert` of `core/metering.py`: when a poll cycle is to raise an alert, for a
surplus of credits that is too low or for fetches that fail in a row. One key is kept of
the alert raised last, for both kinds; over a run it stands for what was raised since
the last healthy cycle.
-/

namespace HermesCluster

/-- `MeteringConfig`. -/
structure MeteringConfig where
  enabled : Bool := false
  intervalS : Int := 900
  alertBelow : Rat := 25000
  failThreshold : Int := 3
  host : String := "modelstudio.ap-southeast-1.aliyuncs.com"
  apiVersion : String := "2026-02-10"
  project : String := "bdaya-website"
  akIdSecret : String := "alibaba-ram-metering-access-key-id"
  akSecretSecret : String := "alibaba-ram-metering-access-key-secret"
  adcTokenFile : String := ""
  httpTimeout : Int := 30
  deriving Repr

/-- An entry of `parse_seat_details`. -/
structure Seat where
  seatId : String
  total : Rat := 0
  surplus : Rat := 0
  cycleEnd : Option Json := none
  deriving Repr

/-- What an alert is raised for, `fetch_failed` or `credits_low`. -/
inductive MeteringKind where
  | fetchFailed | creditsLow
  deriving DecidableEq, Repr

/-- An alert, as it is returned; an absent key is `none`. -/
structure MeteringAlert where
  kind : MeteringKind
  consecutiveFailures : Option Int := none
  surplusTotal : Option Rat := none
  alertBelow : Option Rat := none
  message : String

/-- The keys of suppression: `f"failed:{…}"`, and `f"low:{round(surplus, 2)}"` by the
hundredths. -/
inductive MeteringKey where
  | failed (times : Int)
  | low (hundredths : Int)
  deriving DecidableEq, Repr

/-- The bookkeeping of the poller. -/
structure MeteringState where
  consecutiveFailures : Int := 0
  lastAlertKey : Option MeteringKey := none
  deriving DecidableEq, Repr

namespace Metering

/-! ## The text of an alert -/

/-- The trailing zeros of a fraction, and a point that nothing follows, are dropped. -/
def trimFraction (whole fraction : List Char) : List Char :=
  match Text.rstripList (fun c => c = '0') fraction with
  | [] => whole
  | digits => whole ++ '.' :: digits

/-- `f"{q:g}"` of a positive number. -/
def generalPos (q : Rat) : List Char :=
  let e := Int.log 10 q
  let m := Text.roundHalfEven (q * (10 : Rat) ^ (5 - e))
  -- six digits, or 10 ^ 6 where the rounding carries
  let (m, e) := if m = 1000000 then (100000, e + 1) else (m, e)
  let digits := Nat.toDigits 10 m.toNat
  if e < -4 ∨ 6 ≤ e then
    let exponent := Nat.toDigits 10 e.natAbs
    trimFraction (digits.take 1) (digits.drop 1) ++ 'e' :: (if e < 0 then '-' else '+') ::
      (List.replicate (2 - exponent.length) '0' ++ exponent)
  else if e < 0 then
    trimFraction ['0'] (List.replicate (e.natAbs - 1) '0' ++ digits)
  else trimFraction (digits.take (e.toNat + 1)) (digits.drop (e.toNat + 1))

/-- `f"{q:g}"`. -/
def general (q : Rat) : String :=
  String.ofList
    (if q = 0 then ['0'] else if q < 0 then '-' :: generalPos (-q) else generalPos q)

/-! ## A cycle -/

/-- `total_surplus`; the sum is exact, where the source adds doubles. -/
def totalSurplus (seats : List Seat) : Rat :=
  (seats.map Seat.surplus).sum

/-- `round(surplus, 2)`, in hundredths; the keys `low:-0.0` and `low:0.0` are one here. -/
def hundredths (surplus : Rat) : Int :=
  Text.roundHalfEven (surplus * 100)

/-- `evaluate_alert` for a fetch that failed. -/
def evaluateFailure (cfg : MeteringConfig) (state : MeteringState) :
    Option MeteringAlert × MeteringState :=
  let n := state.consecutiveFailures + 1
  let key := MeteringKey.failed (n / max cfg.failThreshold 1)
  if cfg.failThreshold ≤ n ∧ state.lastAlertKey ≠ some key then
    (some
      { kind := .fetchFailed
        consecutiveFailures := some n
        message := "Alibaba metering fetch failed " ++ toString n ++ "x in a row (threshold " ++
          toString cfg.failThreshold ++ ")" },
     { consecutiveFailures := n, lastAlertKey := some key })
  else (none, { state with consecutiveFailures := n })

/-- `evaluate_alert` for the seats that were fetched. -/
def evaluateSeats (cfg : MeteringConfig) (seats : List Seat) (state : MeteringState) :
    Option MeteringAlert × MeteringState :=
  let surplus := totalSurplus seats
  let key := MeteringKey.low (hundredths surplus)
  if surplus < cfg.alertBelow then
    if state.lastAlertKey = some key then (none, { state with consecutiveFailures := 0 })
    else
      (some
        { kind := .creditsLow
          surplusTotal := some surplus
          alertBelow := some cfg.alertBelow
          message := "Alibaba Token Plan surplus " ++ general surplus ++
            " credits below alert threshold " ++ general cfg.alertBelow },
       { consecutiveFailures := 0, lastAlertKey := some key })
  else (none, {})

/-- `evaluate_alert`. -/
def evaluateAlert (cfg : MeteringConfig) (sample : Option (List Seat)) (state : MeteringState) :
    Option MeteringAlert × MeteringState :=
  match sample with
  | none => evaluateFailure cfg state
  | some seats => evaluateSeats cfg seats state

/-! ## Runs -/

/-- The poller's bookkeeping as a machine, fed with what each cycle fetched. -/
def meter (cfg : MeteringConfig) :
    Machine MeteringState (Option (List Seat)) (Option MeteringAlert) :=
  fun sample state => evaluateAlert cfg sample state

abbrev MeteringRun : Type := List (Option (List Seat) × Option MeteringAlert)

/-- A cycle with credits enough. -/
def Healthy (cfg : MeteringConfig) (sample : Option (List Seat)) : Prop :=
  ∃ seats, sample = some seats ∧ cfg.alertBelow ≤ totalSurplus seats

/-- The kind of what a cycle answers. -/
def kindOf (answer : Option MeteringAlert) : Option MeteringKind :=
  answer.map MeteringAlert.kind

/-- The alerts for failing fetches among some answers. -/
def failureAlerts (run : MeteringRun) : Nat :=
  run.countP (fun x => decide (kindOf x.2 = some .fetchFailed))

/-- The most recent alert was for a surplus that rounds to these hundredths, and no cycle
was healthy since. -/
def LowStands (cfg : MeteringConfig) (cents : Int) (run : MeteringRun) : Prop :=
  ∃ before seats alert later, run = before ++ (some seats, some alert) :: later ∧
    alert.kind = .creditsLow ∧ hundredths (totalSurplus seats) = cents ∧
    ∀ x ∈ later, x.2 = none ∧ ¬Healthy cfg x.1

section Runs

variable {cfg : MeteringConfig} {state : MeteringState} {run : MeteringRun} {cents : Int}
  {seats : List Seat} {sample : Option (List Seat)} {answer : Option MeteringAlert}

/-! ## A step -/

/-- A failure raises what the key does not stand for yet, and touches nothing else. -/
theorem evaluateFailure_cases (cfg : MeteringConfig) (state : MeteringState) :
    let n := state.consecutiveFailures + 1
    let key := MeteringKey.failed (n / max cfg.failThreshold 1)
    (evaluateFailure cfg state).2.consecutiveFailures = n ∧
      ((cfg.failThreshold ≤ n ∧ state.lastAlertKey ≠ some key ∧
          kindOf (evaluateFailure cfg state).1 = some .fetchFailed ∧
          (evaluateFailure cfg state).2.lastAlertKey = some key) ∨
        (¬(cfg.failThreshold ≤ n ∧ state.lastAlertKey ≠ some key) ∧
          (evaluateFailure cfg state).1 = none ∧
          (evaluateFailure cfg state).2.lastAlertKey = state.lastAlertKey)) := by
  intro n key
  unfold evaluateFailure
  by_cases hraised : cfg.failThreshold ≤ n ∧ state.lastAlertKey ≠ some key
  · simp only [n, key] at hraised ⊢
    rw [if_pos hraised]
    exact ⟨rfl, .inl ⟨hraised.1, hraised.2, rfl, rfl⟩⟩
  · simp only [n, key] at hraised ⊢
    rw [if_neg hraised]
    exact ⟨rfl, .inr ⟨hraised, rfl, rfl⟩⟩

/-- A success ends the streak; it raises a surplus that is too low unless the key stands
for it, and a healthy one clears the key. -/
theorem evaluateSeats_cases (cfg : MeteringConfig) (seats : List Seat) (state : MeteringState) :
    let key := MeteringKey.low (hundredths (totalSurplus seats))
    (evaluateSeats cfg seats state).2.consecutiveFailures = 0 ∧
      ((totalSurplus seats < cfg.alertBelow ∧ state.lastAlertKey ≠ some key ∧
          kindOf (evaluateSeats cfg seats state).1 = some .creditsLow ∧
          (evaluateSeats cfg seats state).2.lastAlertKey = some key) ∨
        (totalSurplus seats < cfg.alertBelow ∧ state.lastAlertKey = some key ∧
          (evaluateSeats cfg seats state).1 = none ∧
          (evaluateSeats cfg seats state).2.lastAlertKey = some key) ∨
        (cfg.alertBelow ≤ totalSurplus seats ∧ (evaluateSeats cfg seats state).1 = none ∧
          (evaluateSeats cfg seats state).2.lastAlertKey = none)) := by
  intro key
  unfold evaluateSeats
  by_cases hlow : totalSurplus seats < cfg.alertBelow
  · by_cases hkey : state.lastAlertKey = some key
    · simp only [key] at hkey ⊢
      rw [if_pos hlow, if_pos hkey]
      exact ⟨rfl, .inr (.inl ⟨hlow, hkey, rfl, hkey⟩)⟩
    · simp only [key] at hkey ⊢
      rw [if_pos hlow, if_neg hkey]
      exact ⟨rfl, .inl ⟨hlow, hkey, rfl, rfl⟩⟩
  · rw [if_neg hlow]
    exact ⟨rfl, .inr (.inr ⟨not_lt.mp hlow, rfl, rfl⟩)⟩

/-! ## A streak of failures -/

/-- The count a state has come to after a streak, and the key. -/
structure AfterStreak (cfg : MeteringConfig) (key : Option MeteringKey) (n : Nat)
    (state : MeteringState) : Prop where
  count : state.consecutiveFailures = n
  early : n < cfg.failThreshold → state.lastAlertKey = key
  late : cfg.failThreshold ≤ n → state.lastAlertKey = some (.failed (n / cfg.failThreshold))

/-- No failure is counted, and the key stands for none. -/
def Rested (state : MeteringState) : Prop :=
  state.consecutiveFailures = 0 ∧ ∀ times, state.lastAlertKey ≠ some (.failed times)

theorem rested_after (cfg : MeteringConfig) {before : List (Option (List Seat))}
    (h : before = [] ∨ ∃ seats, before.getLast? = some (some seats)) :
    Rested ((meter cfg).after before {}) := by
  rcases h with rfl | ⟨seats, hlast⟩
  · exact ⟨rfl, fun times hkey => by cases hkey⟩
  · obtain ⟨past, rfl⟩ := List.getLast?_eq_some_iff.mp hlast
    rw [(meter cfg).after_concat]
    obtain ⟨hcount, hcases⟩ := evaluateSeats_cases cfg seats ((meter cfg).after past {})
    refine ⟨hcount, fun times hkey => ?_⟩
    change (evaluateSeats cfg seats ((meter cfg).after past {})).2.lastAlertKey = _ at hkey
    rcases hcases with ⟨-, -, -, h⟩ | ⟨-, -, -, h⟩ | ⟨-, -, h⟩
    all_goals
      rw [h] at hkey
      cases hkey

/-- One more failure: the alert that the quotient steps up to. -/
theorem AfterStreak.step {key : Option MeteringKey} {n : Nat} (hT : 1 ≤ cfg.failThreshold)
    (hkey : ∀ times, key ≠ some (.failed times)) (h : AfterStreak cfg key n state) :
    AfterStreak cfg key (n + 1) (evaluateFailure cfg state).2 ∧
      ((n + 1 : Nat) : Int) / cfg.failThreshold = n / cfg.failThreshold +
        if kindOf (evaluateFailure cfg state).1 = some .fetchFailed then 1 else 0 := by
  obtain ⟨T, hTeq⟩ : ∃ T : Nat, cfg.failThreshold = T :=
    ⟨cfg.failThreshold.toNat, (Int.toNat_of_nonneg (by omega)).symm⟩
  have hpos : 0 < T := by omega
  obtain ⟨hcount, hcases⟩ := evaluateFailure_cases cfg state
  have hmax : max cfg.failThreshold 1 = T := by omega
  have hnext : state.consecutiveFailures + 1 = ((n + 1 : Nat) : Int) := by
    rw [h.count]
    rfl
  rw [hnext] at hcount hcases
  rw [hmax] at hcases
  have hdiv : ∀ m : Nat, (m : Int) / cfg.failThreshold = ((m / T : Nat) : Int) := by
    intro m
    rw [hTeq]
    rfl
  have hsucc : ((n + 1) / T : Nat) = n / T + if T ∣ n + 1 then 1 else 0 := Nat.succ_div
  rcases hcases with ⟨hreached, hnew, hkind, hlast⟩ | ⟨hnot, hnone, hlast⟩
  · -- an alert is raised, so the quotient is not the one the key stands for
    refine ⟨⟨hcount, fun hearly => absurd hreached (by omega), fun _ => ?_⟩, ?_⟩
    · rw [hlast, hTeq]
    · rw [if_pos hkind, hdiv, hdiv]
      have hdvd : T ∣ n + 1 := by
        by_contra hndvd
        rw [if_neg hndvd, Nat.add_zero] at hsucc
        by_cases hlate : cfg.failThreshold ≤ n
        · refine hnew ?_
          rw [h.late hlate, hdiv]
          exact congrArg (fun q : Nat => some (MeteringKey.failed (q : Int))) hsucc.symm
        · have hlast : n + 1 = T := by omega
          exact hndvd (hlast ▸ Nat.dvd_refl _)
      rw [if_pos hdvd] at hsucc
      omega
  · have hquiet : kindOf (evaluateFailure cfg state).1 ≠ some .fetchFailed := by
      rw [hnone]
      exact fun h => by cases h
    rw [if_neg hquiet, hdiv, hdiv]
    by_cases hreached : cfg.failThreshold ≤ ((n + 1 : Nat) : Int)
    · -- the key stands for the quotient already
      have hstands : state.lastAlertKey = some (.failed (((n + 1 : Nat) : Int) / T)) := by
        by_contra hne
        exact hnot ⟨hreached, hne⟩
      have hlate : cfg.failThreshold ≤ n := by
        by_contra hearly
        exact hkey _ ((h.early (by omega)).symm.trans hstands)
      rw [h.late hlate, hTeq] at hstands
      have hsame : ((n / T : Nat) : Int) = ((n + 1) / T : Nat) :=
        MeteringKey.failed.inj (Option.some.inj hstands)
      refine ⟨⟨hcount, fun hearly => absurd hreached (by omega), fun _ => ?_⟩, by omega⟩
      rw [hlast, h.late hlate, hdiv, hdiv, hsame]
    · have hearly : n < T := by omega
      refine ⟨⟨hcount, fun _ => hlast.trans (h.early (by omega)),
        fun hlate => absurd hlate hreached⟩, ?_⟩
      rw [Nat.div_eq_of_lt (by omega), Nat.div_eq_of_lt hearly]
      rfl

theorem streak_spec (hT : 1 ≤ cfg.failThreshold) (h : Rested state) (n : Nat) :
    AfterStreak cfg state.lastAlertKey n ((meter cfg).after (List.replicate n none) state) ∧
      (failureAlerts ((meter cfg).answers (List.replicate n none) state) : Int) =
        n / cfg.failThreshold := by
  induction n with
  | zero =>
      refine ⟨⟨h.1, fun _ => rfl, fun hlate => ?_⟩, (Int.zero_ediv _).symm⟩
      rw [Nat.cast_zero] at hlate
      omega
  | succ n ih =>
      obtain ⟨hafter, hcount⟩ := ih
      obtain ⟨hnext, hquotient⟩ := hafter.step hT h.2
      rw [List.replicate_succ', (meter cfg).after_concat, (meter cfg).answers_concat]
      refine ⟨hnext, ?_⟩
      rw [hquotient, ← hcount]
      unfold failureAlerts
      rw [List.countP_append, List.countP_singleton, Nat.cast_add]
      congr 1
      simp only [decide_eq_true_eq, Nat.cast_ite, Nat.cast_one, Nat.cast_zero]
      rfl

/-! ## A surplus that stays low -/

theorem lowStands_concat :
    LowStands cfg cents (run ++ [(sample, answer)]) ↔
      (∃ seats alert, sample = some seats ∧ answer = some alert ∧ alert.kind = .creditsLow ∧
          hundredths (totalSurplus seats) = cents) ∨
        LowStands cfg cents run ∧ answer = none ∧ ¬Healthy cfg sample := by
  constructor
  · rintro ⟨before, seats, alert, later, hsplit, hkind, hcents, hlater⟩
    rcases List.eq_nil_or_concat later with rfl | ⟨later, x, rfl⟩
    · obtain ⟨-, hlast⟩ := List.append_inj' hsplit rfl
      cases hlast
      exact .inl ⟨seats, alert, rfl, rfl, hkind, hcents⟩
    · rw [List.concat_eq_append, ← List.cons_append, ← List.append_assoc] at hsplit
      obtain ⟨rfl, hlast⟩ := List.append_inj' hsplit rfl
      cases hlast
      rw [List.concat_eq_append, List.forall_mem_append, List.forall_mem_singleton] at hlater
      exact .inr ⟨⟨before, seats, alert, later, rfl, hkind, hcents, hlater.1⟩, hlater.2⟩
  · rintro (⟨seats, alert, rfl, rfl, hkind, hcents⟩ |
      ⟨⟨before, seats, alert, later, rfl, hkind, hcents, hlater⟩, hlast⟩)
    · exact ⟨run, seats, alert, [], rfl, hkind, hcents, by simp⟩
    · refine ⟨before, seats, alert, later ++ [(sample, answer)], by simp, hkind, hcents, ?_⟩
      rw [List.forall_mem_append, List.forall_mem_singleton]
      exact ⟨hlater, hlast⟩

/-- The key stands for a low surplus as long as the last alert was for it. -/
def KeyTracks (cfg : MeteringConfig) (run : MeteringRun) (state : MeteringState) : Prop :=
  ∀ cents, state.lastAlertKey = some (.low cents) ↔ LowStands cfg cents run

theorem KeyTracks.step (h : KeyTracks cfg run state) (sample : Option (List Seat)) :
    KeyTracks cfg (run ++ [(sample, (meter cfg sample state).1)])
      (meter cfg sample state).2 := by
  intro cents
  rw [lowStands_concat]
  cases sample with
  | none =>
      have hfailed : ¬Healthy cfg none := fun ⟨_, hnone, _⟩ => by cases hnone
      obtain ⟨-, ⟨-, -, hkind, hlast⟩ | ⟨-, hnone, hlast⟩⟩ := evaluateFailure_cases cfg state
      · change (evaluateFailure cfg state).2.lastAlertKey = _ ↔ _
        rw [hlast]
        refine iff_of_false (fun hkey => by cases hkey) ?_
        rintro (⟨seats, alert, hsample, -⟩ | ⟨-, hanswer, -⟩)
        · cases hsample
        · change (evaluateFailure cfg state).1 = none at hanswer
          rw [hanswer] at hkind
          cases hkind
      · change (evaluateFailure cfg state).2.lastAlertKey = _ ↔ _
        rw [hlast, h cents]
        refine ⟨fun hstands => .inr ⟨hstands, hnone, hfailed⟩, ?_⟩
        rintro (⟨seats, alert, hsample, -⟩ | ⟨hstands, -⟩)
        · cases hsample
        · exact hstands
  | some seats =>
      change (evaluateSeats cfg seats state).2.lastAlertKey = _ ↔ _
      have hlow : totalSurplus seats < cfg.alertBelow → ¬Healthy cfg (some seats) := by
        rintro hlow ⟨_, ⟨⟩, hle⟩
        exact absurd hlow (not_lt.mpr hle)
      obtain ⟨-, ⟨-, hnew, hkind, hlast⟩ | ⟨hbelow, hkey, hnone, hlast⟩ |
        ⟨hhealthy, hnone, hlast⟩⟩ := evaluateSeats_cases cfg seats state
      · rw [hlast, Option.some.injEq, MeteringKey.low.injEq]
        obtain ⟨alert, halert, hkind⟩ := Option.map_eq_some_iff.mp hkind
        constructor
        · rintro rfl
          exact .inl ⟨seats, alert, rfl, halert, hkind, rfl⟩
        · rintro (⟨_, _, ⟨⟩, -, -, hcents⟩ | ⟨-, hanswer, -⟩)
          · exact hcents
          · exact absurd (halert.symm.trans hanswer) (Option.some_ne_none alert)
      · rw [hlast, ← hkey, h cents]
        refine ⟨fun hstands => .inr ⟨hstands, hnone, hlow hbelow⟩, ?_⟩
        rintro (⟨_, alert, ⟨⟩, hanswer, -⟩ | ⟨hstands, -⟩)
        · exact absurd (hnone.symm.trans hanswer) (Option.some_ne_none alert).symm
        · exact hstands
      · rw [hlast]
        refine iff_of_false (fun hkey => by cases hkey) ?_
        rintro (⟨_, alert, ⟨⟩, hanswer, -⟩ | ⟨-, -, hnot⟩)
        · exact absurd (hnone.symm.trans hanswer) (Option.some_ne_none alert).symm
        · exact hnot ⟨seats, rfl, hhealthy⟩

theorem keyTracks_run (cfg : MeteringConfig) (inputs : List (Option (List Seat))) :
    KeyTracks cfg ((meter cfg).answers inputs {}) ((meter cfg).after inputs {}) := by
  refine Machine.tracks_of_step (P := fun _ _ => True) ?_
    (Machine.meets_of_forall (fun _ _ => trivial)) (fun _ _ sample htracks _ => htracks.step sample)
  intro cents
  refine iff_of_false (fun hkey => by cases hkey) ?_
  rintro ⟨before, seats, alert, later, hsplit, -⟩
  exact List.append_ne_nil_of_right_ne_nil _ (List.cons_ne_nil _ _) hsplit.symm

theorem creditsLow_iff (cfg : MeteringConfig) (past : List (Option (List Seat)))
    (seats : List Seat) :
    kindOf (meter cfg (some seats) ((meter cfg).after past {})).1 = some .creditsLow ↔
      totalSurplus seats < cfg.alertBelow ∧
        ¬LowStands cfg (hundredths (totalSurplus seats)) ((meter cfg).answers past {}) := by
  rw [← keyTracks_run cfg past]
  obtain ⟨-, ⟨hlow, hnew, hkind, -⟩ | ⟨-, hkey, hnone, -⟩ | ⟨hhealthy, hnone, -⟩⟩ :=
    evaluateSeats_cases cfg seats ((meter cfg).after past {})
  · exact iff_of_true hkind ⟨hlow, hnew⟩
  · refine iff_of_false (fun hkind => ?_) (fun h => h.2 hkey)
    change kindOf (evaluateSeats cfg seats _).1 = _ at hkind
    rw [hnone] at hkind
    cases hkind
  · refine iff_of_false (fun hkind => ?_) (fun h => absurd h.1 (not_lt.mpr hhealthy))
    change kindOf (evaluateSeats cfg seats _).1 = _ at hkind
    rw [hnone] at hkind
    cases hkind

end Runs

end Metering

end HermesCluster
