import Mathlib.Data.Rat.Lemmas
import Mathlib.Algebra.Order.Ring.Rat
import HermesCluster.Lib.Machine
import HermesCluster.Lib.PyValue
/-!
# Release drift

`core/release_drift.py`: the comparison of the deployed commit with the head of
main, and `evaluate_drift_alert`, which decides in each poll cycle whether the
drift is to be reported. What it promises is said of whole runs: since when a
drifted episode lasts, and that whoever is owed an alert has had it.
-/

namespace HermesCluster

/-! ## Settings -/

/-- `DriftConfig`. -/
structure DriftConfig where
  enabled : Bool := false
  intervalS : Int := 900
  graceS : Int := 1800
  maxAgeS : Int := 3600
  commitThreshold : Int := 2
  image : String := "europe-west1-docker.pkg.dev/bdaya-website/bdaya-docker/hermes-cluster-main"
  pinRepo : String := "Bdaya-Dev/bdaya-website-infra"
  pinFile : String := "cluster-config/hermes-main/kustomization.yaml"
  mainRepo : String := "Bdaya-Dev/hermes-agent-cluster"
  mainBranch : String := "main"
  httpTimeout : Int := 15
  adcTokenFile : String := ""
  inFlightHead : String := ""
  deriving DecidableEq

/-- What an alert is raised for. -/
inductive DriftTrigger where
  | commits | maxAge | grace | stalled
  deriving DecidableEq, Repr

def DriftTrigger.value : DriftTrigger → String
  | commits => "commits"
  | maxAge => "max_age"
  | grace => "grace"
  | stalled => "stalled"

/-- What a comparison came to; an absent key is `none`. -/
structure Drift where
  drifted : Bool
  pinSha : Option String := none
  mainSha : Option String := none
  commitsAhead : Option Int := none
  releaseInFlight : Bool := false
  deriving DecidableEq

/-- An alert, as it is returned. -/
structure DriftAlert where
  kind : String := "release_drift"
  trigger : DriftTrigger
  pinSha : Option String
  mainSha : Option String
  commitsAhead : Int
  driftAgeS : Int
  releaseInFlight : Bool
  message : String
  deriving DecidableEq

/-- The bookkeeping of the poller, a dictionary: a key that is not there is
`none`. -/
structure AlertState where
  firstSeenTs : Option (Option Rat) := none
  cycles : Option Int := none
  head : Option (Option String) := none
  lastAlertKey : Option (Option String) := none
  deriving DecidableEq

namespace ReleaseDrift

/-! ## An alert -/

/-- `(s or "")[:n]`. -/
def short (n : Nat) (s : Option String) : String :=
  Text.take n (s.getD "")

def alertMessage (cfg : DriftConfig) (drift : Drift) (trigger : DriftTrigger) (commits : Int)
    (age : Rat) : String :=
  match trigger with
  | .stalled =>
      "hermes-cluster-main drift: a release PR for fork main " ++ short 9 drift.mainSha ++
        " has been open for " ++ toString (PyFloat.truncate age) ++
        "s without merging (deployed build is " ++ short 9 drift.pinSha ++
        "). A review/merge decision is owed — never kubectl."
  | _ =>
      "hermes-cluster-main image deployed from fork commit " ++ short 9 drift.pinSha ++ " but " ++
        (if commits ≠ 0 then toString commits ++ " commit(s) " else "") ++
        "merged to Bdaya-Dev/hermes-agent-cluster@" ++ cfg.mainBranch ++
        " have not been released (main head " ++ short 9 drift.mainSha ++ ", drift age " ++
        toString (PyFloat.truncate age) ++ "s). A release PR is owed: bump " ++ cfg.pinFile ++
        " newTag to the main head — never kubectl. If a release PR for " ++
        short 9 drift.mainSha ++ " is already open, acknowledge via " ++
        "PUT /api/v1/config release_drift.in_flight_head=" ++ short 40 drift.mainSha

/-- What there is to raise an alert for. -/
def alertTrigger (cfg : DriftConfig) (inFlight : Bool) (commits : Int) (age : Rat) :
    Option DriftTrigger :=
  if inFlight = true then
    if ((3 * cfg.maxAgeS : Int) : Rat) ≤ age then some .stalled else none
  else if cfg.commitThreshold < commits then some .commits
  else if (cfg.maxAgeS : Rat) ≤ age then some .maxAge
  else if (cfg.graceS : Rat) ≤ age then some .grace
  else none

/-- The key under which an alert is suppressed. -/
def alertKey (head : Option String) (trigger : DriftTrigger) : String :=
  match head with
  | none | some "" => "drift:" ++ trigger.value
  | some head => "drift:" ++ head ++ ":" ++ trigger.value

/-! ## A cycle -/

/-- `state.get("first_seen_ts")`, where it is truthy. -/
def seenAt (state : AlertState) : Option Rat :=
  state.firstSeenTs.join.filter (fun ts => decide (ts ≠ 0))

/-- The state after a cycle without drift. -/
def recovered : AlertState where
  firstSeenTs := some none
  cycles := some 0
  head := some none
  lastAlertKey := some none

/-- A drifted cycle is counted in; another head is a fresh alarm. -/
def track (head : Option String) (now : Rat) (state : AlertState) : AlertState where
  firstSeenTs := some (some ((seenAt state).getD now))
  cycles := some (state.cycles.getD 0 + 1)
  head := if state.head.join ≠ head then some head else state.head
  lastAlertKey := if state.head.join ≠ head then some none else state.lastAlertKey

/-- `evaluate_drift_alert`. -/
def evaluateDriftAlert (drift : Drift) (cfg : DriftConfig) (now : Rat) (state : AlertState) :
    Option DriftAlert × AlertState :=
  if drift.drifted = false then (none, recovered)
  else
    let state' := track drift.mainSha now state
    let age := now - (seenAt state).getD now
    let commits := drift.commitsAhead.getD 1
    match alertTrigger cfg drift.releaseInFlight commits age with
    | none => (none, state')
    | some trigger =>
        let key := alertKey drift.mainSha trigger
        if state'.lastAlertKey.join = some key then (none, state')
        else
          (some
            { trigger := trigger
              pinSha := drift.pinSha
              mainSha := drift.mainSha
              commitsAhead := commits
              driftAgeS := PyFloat.truncate age
              releaseInFlight := drift.releaseInFlight
              message := alertMessage cfg drift trigger commits age },
           { state' with lastAlertKey := some (some key) })

/-! ## Runs -/

/-- What a cycle evaluates. -/
structure DriftCycle where
  drift : Drift
  cfg : DriftConfig
  now : Rat

/-- The poller's bookkeeping as a machine. -/
def alarm : Machine AlertState DriftCycle (Option DriftAlert) := fun c state =>
  evaluateDriftAlert c.drift c.cfg c.now state

abbrev DriftRun : Type := List (DriftCycle × Option DriftAlert)

/-- The cycles of the drifted episode that a run ends in. -/
def episode (run : DriftRun) : DriftRun :=
  run.rtakeWhile (fun x => x.1.drift.drifted)

/-- The latest cycles of a run that were drifted, with this head. -/
def reign (head : Option String) (run : DriftRun) : DriftRun :=
  run.rtakeWhile (fun x => x.1.drift.drifted && decide (x.1.drift.mainSha = head))

/-- The time of the first cycle of the episode. -/
def since (run : DriftRun) : Option Rat :=
  (episode run).head?.map (fun x => x.1.now)

/-- An alert for this head has been returned since it became the head. -/
def Alerted (head : Option String) (run : DriftRun) : Prop :=
  ∃ x ∈ reign head run, ∃ alert ∈ x.2, alert.mainSha = head

/-- An alert is owed: without an acknowledgement for too many commits or too old
a drift, with one for a release that has stalled. -/
def Owed (c : DriftCycle) (age : Rat) : Prop :=
  if c.drift.releaseInFlight = true then ((3 * c.cfg.maxAgeS : Int) : Rat) ≤ age
  else c.cfg.commitThreshold < c.drift.commitsAhead.getD 1 ∨
    ((min c.cfg.graceS c.cfg.maxAgeS : Int) : Rat) ≤ age

instance (c : DriftCycle) (age : Rat) : Decidable (Owed c age) := by
  unfold Owed
  infer_instance

/-- What the state says of the run that led to it. -/
structure Tracks (run : DriftRun) (state : AlertState) : Prop where
  seen : seenAt state = since run
  /-- A remembered alert was returned for the head that is remembered. -/
  alerted : state.lastAlertKey.join ≠ none → Alerted state.head.join run

section Runs

variable {run : DriftRun} {state : AlertState} {c : DriftCycle} {answer : Option DriftAlert}

theorem since_concat_of_drifted (h : c.drift.drifted = true) :
    since (run ++ [(c, answer)]) = some ((since run).getD c.now) := by
  unfold since episode
  rw [List.head?_rtakeWhile_concat (p := fun x : DriftCycle × Option DriftAlert =>
    x.1.drift.drifted) h]
  cases (run.rtakeWhile (fun x => x.1.drift.drifted)).head? with
  | none => rfl
  | some x => rfl

theorem since_concat_of_recovered (h : c.drift.drifted = false) :
    since (run ++ [(c, answer)]) = none := by
  unfold since episode
  rw [List.rtakeWhile_concat_neg _ _ _ (by simp [h])]
  rfl

theorem reign_concat (h : c.drift.drifted = true) :
    reign c.drift.mainSha (run ++ [(c, answer)]) = reign c.drift.mainSha run ++ [(c, answer)] :=
  List.rtakeWhile_concat_pos _ _ _ (by simp [h])

theorem Alerted.concat (h : Alerted c.drift.mainSha run) (hdrift : c.drift.drifted = true) :
    Alerted c.drift.mainSha (run ++ [(c, answer)]) := by
  obtain ⟨x, hx, hfor⟩ := h
  refine ⟨x, ?_, hfor⟩
  rw [reign_concat hdrift]
  exact List.mem_append_left _ hx

theorem alerted_of_answer {alert : DriftAlert} (hdrift : c.drift.drifted = true)
    (hfor : alert.mainSha = c.drift.mainSha) :
    Alerted c.drift.mainSha (run ++ [(c, some alert)]) := by
  refine ⟨(c, some alert), ?_, alert, rfl, hfor⟩
  rw [reign_concat hdrift]
  exact List.mem_append_right _ (List.mem_singleton_self _)

/-! ## A step -/

theorem isSome_alertTrigger {age : Rat} : (alertTrigger c.cfg c.drift.releaseInFlight
    (c.drift.commitsAhead.getD 1) age).isSome = true ↔ Owed c age := by
  unfold alertTrigger Owed
  split
  · split
    · rename_i hage
      exact iff_of_true rfl hage
    · rename_i hage
      exact iff_of_false Bool.false_ne_true hage
  · have hmin : ((min c.cfg.graceS c.cfg.maxAgeS : Int) : Rat) ≤ age ↔
        (c.cfg.graceS : Rat) ≤ age ∨ (c.cfg.maxAgeS : Rat) ≤ age := by
      rw [Int.cast_min]
      exact min_le_iff
    rw [hmin]
    split
    · rename_i hcommits
      exact iff_of_true rfl (.inl hcommits)
    · rename_i hcommits
      split
      · rename_i hage
        exact iff_of_true rfl (.inr (.inr hage))
      · rename_i hage
        split
        · rename_i hgrace
          exact iff_of_true rfl (.inr (.inl hgrace))
        · rename_i hgrace
          exact iff_of_false Bool.false_ne_true
            (fun howed => howed.elim hcommits (fun h => h.elim hgrace hage))

theorem seenAt_track (head : Option String) {now : Rat} (hnow : 0 < now) :
    seenAt (track head now state) = some ((seenAt state).getD now) := by
  have hne : (seenAt state).getD now ≠ 0 := by
    cases hseen : seenAt state with
    | none => exact hnow.ne'
    | some ts => exact of_decide_eq_true (Option.filter_eq_some_iff.mp hseen).2
  change Option.filter _ (some ((seenAt state).getD now)) = _
  rw [Option.filter_some, if_pos (decide_eq_true hne)]

theorem head_track (head : Option String) (now : Rat) :
    (track head now state).head.join = head := by
  dsimp only [track]
  split
  · rfl
  · rename_i hsame
    exact of_not_not hsame

theorem head_of_lastAlertKey_track {head : Option String} {now : Rat}
    (h : (track head now state).lastAlertKey.join ≠ none) :
    state.head.join = head ∧ state.lastAlertKey.join ≠ none := by
  dsimp only [track] at h
  split at h
  · exact absurd rfl h
  · rename_i hsame
    exact ⟨of_not_not hsame, h⟩

/-- A cycle with drift: the state it leaves, and the alert there is a trigger for
unless it is remembered as returned. -/
theorem alarm_of_drifted (state : AlertState) (h : c.drift.drifted = true) :
    ∃ key, (alarm c state).2 =
        { track c.drift.mainSha c.now state with lastAlertKey := key } ∧
      (key = (track c.drift.mainSha c.now state).lastAlertKey ∧
          (Owed c (c.now - (seenAt state).getD c.now) →
            (track c.drift.mainSha c.now state).lastAlertKey.join ≠ none) ∨
        ∃ alert, (alarm c state).1 = some alert ∧ alert.mainSha = c.drift.mainSha) := by
  unfold alarm evaluateDriftAlert
  rw [if_neg (by simp [h])]
  dsimp only
  split
  · rename_i hnone
    refine ⟨_, rfl, .inl ⟨rfl, fun howed => ?_⟩⟩
    rw [← isSome_alertTrigger, hnone] at howed
    exact absurd howed Bool.false_ne_true
  · split
    · rename_i hkey
      exact ⟨_, rfl, .inl ⟨rfl, fun _ => by rw [hkey]; exact Option.some_ne_none _⟩⟩
    · exact ⟨_, rfl, .inr ⟨_, rfl, rfl⟩⟩

theorem Tracks.alerted_of_owed (h : Tracks run state) (hdrift : c.drift.drifted = true)
    (howed : Owed c (c.now - (since run).getD c.now)) :
    Alerted c.drift.mainSha (run ++ [(c, (alarm c state).1)]) := by
  obtain ⟨key, -, hcase⟩ := alarm_of_drifted state hdrift
  rcases hcase with ⟨-, hremembered⟩ | ⟨alert, hanswer, hfor⟩
  · rw [h.seen] at hremembered
    obtain ⟨hsame, hold⟩ := head_of_lastAlertKey_track (hremembered howed)
    have halerted := h.alerted hold
    rw [hsame] at halerted
    exact halerted.concat hdrift
  · rw [hanswer]
    exact alerted_of_answer hdrift hfor

theorem alarm_of_recovered (h : c.drift.drifted = false) : alarm c state = (none, recovered) :=
  if_pos h

/-- The state after a cycle says of the longer run what it should. -/
theorem Tracks.step (h : Tracks run state) (hnow : 0 < c.now) :
    Tracks (run ++ [(c, (alarm c state).1)]) (alarm c state).2 := by
  cases hdrift : c.drift.drifted with
  | false =>
      rw [alarm_of_recovered hdrift]
      exact ⟨(since_concat_of_recovered hdrift).symm, fun hkey => absurd rfl hkey⟩
  | true =>
      obtain ⟨key, hstate, hcase⟩ := alarm_of_drifted state hdrift
      have hfirst : seenAt (alarm c state).2 = some ((since run).getD c.now) := by
        rw [hstate, ← h.seen]
        exact seenAt_track c.drift.mainSha hnow
      have hhead : (alarm c state).2.head.join = c.drift.mainSha := by
        rw [hstate]
        exact head_track c.drift.mainSha c.now
      refine ⟨hfirst.trans (since_concat_of_drifted hdrift).symm, fun hkey => ?_⟩
      rw [hhead]
      rcases hcase with ⟨hkept, -⟩ | ⟨alert, hanswer, hfor⟩
      · rw [hstate, hkept] at hkey
        obtain ⟨hsame, hold⟩ := head_of_lastAlertKey_track hkey
        have halerted := h.alerted hold
        rw [hsame] at halerted
        exact halerted.concat hdrift
      · rw [hanswer]
        exact alerted_of_answer hdrift hfor

theorem tracks_run {cycles : List DriftCycle} (hnow : ∀ c ∈ cycles, 0 < c.now) :
    Tracks (alarm.answers cycles {}) (alarm.after cycles {}) :=
  Machine.tracks_of_step ⟨rfl, fun hkey => absurd rfl hkey⟩ (Machine.meets_of_forall hnow)
    (fun _ _ _ htracks hc => htracks.step hc)

theorem firstSeenTs_of_seenAt {ts : Rat} (h : seenAt state = some ts) :
    state.firstSeenTs = some (some ts) := by
  have hjoin := (Option.filter_eq_some_iff.mp h).1
  exact Option.join_eq_some_iff.mp hjoin

/-! ## The state after a recovery -/

/-- Two states that no cycle tells apart. -/
structure Alike (state state' : AlertState) : Prop where
  seen : seenAt state = seenAt state'
  cycles : state.cycles.getD 0 = state'.cycles.getD 0
  head : state.head.join = state'.head.join
  lastAlertKey : state.lastAlertKey.join = state'.lastAlertKey.join

theorem alike_recovered : Alike recovered {} := ⟨rfl, rfl, rfl, rfl⟩

theorem Alike.track {state' : AlertState} (h : Alike state state') (head : Option String)
    (now : Rat) : Alike (track head now state) (track head now state') := by
  refine ⟨?_, ?_, (head_track head now).trans (head_track head now).symm, ?_⟩
  · have hts : (ReleaseDrift.track head now state).firstSeenTs =
        (ReleaseDrift.track head now state').firstSeenTs :=
      congrArg (fun seen : Option Rat => some (some (seen.getD now))) h.seen
    unfold seenAt
    rw [hts]
  · unfold ReleaseDrift.track
    rw [h.cycles]
  · unfold ReleaseDrift.track
    rw [h.head]
    split
    · rfl
    · exact h.lastAlertKey

theorem Alike.alarm {state' : AlertState} (h : Alike state state') (c : DriftCycle) :
    (alarm c state).1 = (alarm c state').1 ∧ Alike (alarm c state).2 (alarm c state').2 := by
  have htrack := h.track c.drift.mainSha c.now
  unfold ReleaseDrift.alarm evaluateDriftAlert
  dsimp only
  rw [h.seen, htrack.lastAlertKey]
  split
  · exact ⟨rfl, rfl, rfl, rfl, rfl⟩
  · split
    · exact ⟨rfl, htrack⟩
    · split
      · exact ⟨rfl, htrack⟩
      · exact ⟨rfl, htrack.seen, htrack.cycles, htrack.head, rfl⟩

end Runs

/-- Over every run from the empty state, with positive readings of the clock: the
stored time is that of the first cycle of the current drifted episode; where an
alert is owed, one for the current head has been returned since it became the
head; and once there is no drift, the cycles to come are answered as from the
empty state. -/
theorem drift_alarm_complete (past : List DriftCycle) (c : DriftCycle)
    (hnow : ∀ x ∈ past ++ [c], 0 < x.now) :
    let run := alarm.answers (past ++ [c]) {}
    let state := alarm.after (past ++ [c]) {}
    (c.drift.drifted = true → ∃ first ∈ (episode run).head?,
      state.firstSeenTs = some (some first.1.now) ∧
        (Owed c (c.now - first.1.now) → Alerted c.drift.mainSha run)) ∧
      (c.drift.drifted = false →
        ∀ later, alarm.answers later state = alarm.answers later {}) := by
  intro run state
  have htracks : Tracks run state := tracks_run hnow
  have hrun : run = alarm.answers past {} ++ [(c, (alarm c (alarm.after past {})).1)] :=
    alarm.answers_concat past c {}
  have hstate : state = (alarm c (alarm.after past {})).2 := alarm.after_concat past c {}
  refine ⟨fun hdrift => ?_, fun hrecovered later => ?_⟩
  · have hpast : Tracks (alarm.answers past {}) (alarm.after past {}) :=
      tracks_run (fun x hx => hnow x (List.mem_append_left _ hx))
    have hsince : (episode run).head?.map (fun x => x.1.now) =
        some ((since (alarm.answers past {})).getD c.now) :=
      (congrArg since hrun).trans (since_concat_of_drifted hdrift)
    obtain ⟨first, hfirst, htime⟩ := Option.map_eq_some_iff.mp hsince
    refine ⟨first, hfirst, firstSeenTs_of_seenAt ?_, fun howed => ?_⟩
    · rw [htracks.seen, since, hfirst]
      rfl
    · rw [hrun]
      rw [htime] at howed
      exact hpast.alerted_of_owed hdrift howed
  · rw [hstate, alarm_of_recovered hrecovered]
    exact Machine.answers_congr alike_recovered (fun c _ _ halike => halike.alarm c)

/-- Main is some commits ahead of the deployed one. -/
def behind (commits : Int) (now : Rat) : DriftCycle where
  drift := { drifted := true, pinSha := some "a1", mainSha := some "b2",
             commitsAhead := some commits }
  cfg := {}
  now := now

theorem drift_alarm_complete_behind :
    Alerted (some "b2") (alarm.answers ([behind 1 100] ++ [behind 3 400]) {}) := by
  have hnow : ∀ x ∈ [behind 1 100] ++ [behind 3 400], 0 < x.now := by decide +kernel
  obtain ⟨first, -, -, halerted⟩ :=
    (drift_alarm_complete [behind 1 100] (behind 3 400) hnow).1 rfl
  refine halerted ?_
  rw [Owed, if_neg (by decide)]
  exact .inl (by decide)

end ReleaseDrift

end HermesCluster
