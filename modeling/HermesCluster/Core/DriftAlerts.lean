import HermesCluster.Core.ReleaseDrift
import HermesCluster.Lib.Suppression
/-!
# How often an alert is raised

`evaluate_drift_alert` suppresses the alert that it raised last. While main has one
head, an alert for a trigger class is raised again once another class was due in
between.
-/

namespace HermesCluster

namespace ReleaseDrift

/-! ## What is due -/

/-- The cycles of the drifted episode that some cycles end in. -/
def drifting (cycles : List DriftCycle) : List DriftCycle :=
  cycles.rtakeWhile (fun c => c.drift.drifted)

/-- Since when the episode is known; the reading 0 is falsy. -/
def firstSeen (past : List DriftCycle) : Option Rat :=
  ((drifting past).map DriftCycle.now).find? (fun ts => decide (ts ≠ 0))

/-- The class of the alert there is cause for in a cycle, whatever was raised before. -/
def due (past : List DriftCycle) (c : DriftCycle) : Option DriftTrigger :=
  if c.drift.drifted = false then none
  else alertTrigger c.cfg c.drift.releaseInFlight (c.drift.commitsAhead.getD 1)
    (c.now - (firstSeen past).getD c.now)

/-- A drifted cycle with this head of main. -/
def HeadIs (head : Option String) (c : DriftCycle) : Prop :=
  c.drift.drifted = true ∧ c.drift.mainSha = head

/-- The class of an alert. -/
def classOf (answer : Option DriftAlert) : Option DriftTrigger :=
  answer.map DriftAlert.trigger

/-- While a head stays current, no class is raised twice. -/
def OncePerClass (run : DriftRun) : Prop :=
  ∀ before x between y later head trigger,
    run = before ++ x :: (between ++ y :: later) →
      (∀ z ∈ x :: (between ++ [y]), HeadIs head z.1) →
      classOf x.2 = some trigger → classOf y.2 ≠ some trigger

/-- While a head stays current, a class that is due, and is due again, is the only one
that is due in between. -/
def Unalternating (cycles : List DriftCycle) : Prop :=
  ∀ before x between y between' z later head trigger trigger',
    cycles = before ++ x :: (between ++ y :: (between' ++ z :: later)) →
      (∀ c ∈ x :: (between ++ y :: (between' ++ [z])), HeadIs head c) →
      due before x = some trigger →
      due (before ++ x :: between) y = some trigger' →
      due (before ++ x :: (between ++ y :: between')) z = some trigger → trigger' = trigger

section Suppressed

variable {state : AlertState} {c : DriftCycle} {head : Option String} {past : List DriftCycle}

/-! ## A cycle -/

/-- The key of what is due in a state. -/
def dueKey (c : DriftCycle) (state : AlertState) : Option String :=
  (alertTrigger c.cfg c.drift.releaseInFlight (c.drift.commitsAhead.getD 1)
    (c.now - (seenAt state).getD c.now)).map (alertKey c.drift.mainSha)

/-- The key of an alert that is raised. -/
def sentKey (answer : Option DriftAlert) : Option String :=
  answer.map (fun alert => alertKey alert.mainSha alert.trigger)

/-- A cycle with a head that the state knows. -/
def StaysWith (head : Option String) (c : DriftCycle) (state : AlertState) : Prop :=
  HeadIs head c ∧ state.head.join = head

theorem lastAlertKey_track (h : state.head.join = head) (now : Rat) :
    (track head now state).lastAlertKey.join = state.lastAlertKey.join := by
  simp [track, h]

/-- What a drifted cycle raises and remembers. -/
theorem alarm_drifted (state : AlertState) (h : c.drift.drifted = true) :
    sentKey (alarm c state).1 =
        (if dueKey c state = (track c.drift.mainSha c.now state).lastAlertKey.join then none
          else dueKey c state) ∧
      (alarm c state).2.lastAlertKey.join =
        (dueKey c state).or (track c.drift.mainSha c.now state).lastAlertKey.join ∧
      (alarm c state).2.head.join = c.drift.mainSha ∧
      ∀ alert ∈ (alarm c state).1, alert.mainSha = c.drift.mainSha := by
  have hhead : (track c.drift.mainSha c.now state).head.join = c.drift.mainSha :=
    head_track c.drift.mainSha c.now
  unfold alarm evaluateDriftAlert dueKey
  rw [if_neg (by simp [h])]
  dsimp only
  cases alertTrigger c.cfg c.drift.releaseInFlight (c.drift.commitsAhead.getD 1)
      (c.now - (seenAt state).getD c.now) with
  | none => exact ⟨(ite_self none).symm, rfl, hhead, fun alert halert => by cases halert⟩
  | some trigger =>
      dsimp only
      by_cases hkey : (track c.drift.mainSha c.now state).lastAlertKey.join =
          some (alertKey c.drift.mainSha trigger)
      · rw [if_pos hkey, hkey]
        exact ⟨(if_pos rfl).symm, rfl, hhead, fun alert halert => by cases halert⟩
      · rw [if_neg hkey, Option.map_some, if_neg (fun heq => hkey heq.symm)]
        refine ⟨rfl, rfl, hhead, ?_⟩
        rintro alert ⟨⟩
        rfl

theorem suppresses_alarm (head : Option String) :
    alarm.Suppresses (StaysWith head) dueKey (fun state => state.lastAlertKey.join)
      sentKey where
  sent_eq c state h := by
    obtain ⟨⟨hdrift, hsha⟩, hhead⟩ := h
    rw [(alarm_drifted state hdrift).1, lastAlertKey_track (hhead.trans hsha.symm)]
  memory_eq c state h := by
    obtain ⟨⟨hdrift, hsha⟩, hhead⟩ := h
    rw [(alarm_drifted state hdrift).2.1, lastAlertKey_track (hhead.trans hsha.symm)]

theorem head_alarm (state : AlertState) (h : HeadIs head c) : (alarm c state).2.head.join = head :=
  (alarm_drifted state h.1).2.2.1.trans h.2

theorem meets_staysWith {cycles : List DriftCycle} (h : ∀ c ∈ cycles, HeadIs head c)
    (hhead : state.head.join = head) : alarm.Meets (StaysWith head) cycles state := by
  induction cycles generalizing state with
  | nil => trivial
  | cons c cycles ih =>
      rw [List.forall_mem_cons] at h
      exact ⟨⟨h.1, hhead⟩, ih h.2 (head_alarm state h.1)⟩

/-! ## Keys -/

theorem value_injective {a b : DriftTrigger} (h : a.value = b.value) : a = b := by
  cases a <;> cases b <;> first | rfl | exact absurd h (by decide)

theorem alertKey_injective {a b : DriftTrigger} (h : alertKey head a = alertKey head b) :
    a = b := by
  refine value_injective ?_
  unfold alertKey at h
  have hlist := congrArg String.toList h
  split at hlist
  all_goals
    simp only [String.toList_append, List.append_cancel_left_eq] at hlist
    exact String.toList_inj.mp hlist

/-! ## Time -/

theorem drifting_concat_of_drifted (h : c.drift.drifted = true) :
    drifting (past ++ [c]) = drifting past ++ [c] :=
  List.rtakeWhile_concat_pos _ _ _ h

/-- The stored time is that of the first cycle of the episode. -/
theorem seenAt_after (past : List DriftCycle) : seenAt (alarm.after past {}) = firstSeen past := by
  induction past using List.reverseRecOn with
  | nil => rfl
  | append_singleton past c ih =>
      rw [alarm.after_concat]
      cases hdrift : c.drift.drifted with
      | false =>
          rw [alarm_of_recovered hdrift, firstSeen, drifting,
            List.rtakeWhile_concat_neg _ _ _ (by simp [hdrift])]
          rfl
      | true =>
          obtain ⟨key, hstate, -⟩ := alarm_of_drifted (alarm.after past {}) hdrift
          rw [hstate, firstSeen, drifting_concat_of_drifted hdrift, List.map_append,
            List.find?_append]
          change Option.filter _ (some ((seenAt (alarm.after past {})).getD c.now)) = _
          rw [ih, firstSeen]
          cases hfirst : ((drifting past).map DriftCycle.now).find?
              (fun ts => decide (ts ≠ 0)) with
          | none =>
              rw [Option.none_or, Option.getD_none]
              by_cases hzero : c.now = 0
              · simp [hzero]
              · simp [hzero]
          | some ts =>
              have hne := List.find?_some hfirst
              rw [Option.getD_some, Option.filter_some, if_pos hne, Option.some_or]

theorem dueKey_after (h : HeadIs head c) :
    dueKey c (alarm.after past {}) = (due past c).map (alertKey head) := by
  unfold dueKey due
  rw [seenAt_after, if_neg (by simp [h.1]), h.2]

/-! ## Runs -/

/-- An alert that is raised is due, and is remembered. -/
theorem due_of_sent {key : String} (h : c.drift.drifted = true)
    (hsent : sentKey (alarm c state).1 = some key) :
    dueKey c state = some key ∧ (alarm c state).2.lastAlertKey.join = some key := by
  obtain ⟨hkey, hmemory, -⟩ := alarm_drifted state h
  rw [hkey] at hsent
  split at hsent
  · cases hsent
  · rw [hsent] at hmemory
    exact ⟨hsent, hmemory⟩

theorem sentKey_eq_iff {trigger : DriftTrigger} (h : HeadIs head c) :
    sentKey (alarm c state).1 = some (alertKey head trigger) ↔
      classOf (alarm c state).1 = some trigger := by
  obtain ⟨-, -, -, hsha⟩ := alarm_drifted state h.1
  unfold sentKey classOf
  cases halert : (alarm c state).1 with
  | none => exact iff_of_false (fun h => by cases h) (fun h => by cases h)
  | some alert =>
      have hhead : alert.mainSha = head := (hsha alert halert).trans h.2
      rw [Option.map_some, Option.map_some, Option.some.injEq, Option.some.injEq, hhead]
      exact ⟨fun heq => alertKey_injective heq, congrArg _⟩

/-- What the state remembers was raised while its head was current. -/
theorem exists_sent_of_remembered (past : List DriftCycle) {key : String}
    (h : (alarm.after past {}).lastAlertKey.join = some key) :
    ∃ before x later, past = before ++ x :: later ∧
      sentKey (alarm x (alarm.after before {})).1 = some key ∧
      ∀ z ∈ x :: later, HeadIs (alarm.after past {}).head.join z := by
  induction past using List.reverseRecOn with
  | nil => cases h
  | append_singleton past c ih =>
      rw [alarm.after_concat] at h
      cases hdrift : c.drift.drifted with
      | false =>
          rw [alarm_of_recovered hdrift] at h
          cases h
      | true =>
          obtain ⟨hsent, hmemory, hhead, -⟩ :=
            alarm_drifted (alarm.after past {}) hdrift
          rw [alarm.after_concat, hhead]
          by_cases hnow : sentKey (alarm c (alarm.after past {})).1 = some key
          · refine ⟨past, c, [], rfl, hnow, fun z hz => ?_⟩
            rw [List.mem_singleton.mp hz]
            exact ⟨hdrift, rfl⟩
          · have hkept : (track c.drift.mainSha c.now
                (alarm.after past {})).lastAlertKey.join = some key := by
              rw [hmemory] at h
              rw [hsent] at hnow
              split at hnow
              · rename_i hsame
                rwa [hsame, Option.or_self] at h
              · cases hdue : dueKey c (alarm.after past {}) with
                | none => rwa [hdue] at h
                | some key' =>
                    rw [hdue] at h hnow
                    exact absurd h hnow
            have hne : (track c.drift.mainSha c.now
                (alarm.after past {})).lastAlertKey.join ≠ none := by
              rw [hkept]
              exact Option.some_ne_none key
            obtain ⟨hstays, -⟩ := head_of_lastAlertKey_track hne
            rw [lastAlertKey_track hstays] at hkept
            obtain ⟨before, x, later, hsplit, hraised, hheads⟩ := ih hkept
            refine ⟨before, x, later ++ [c], ?_, hraised, fun z hz => ?_⟩
            · rw [hsplit, List.append_assoc, List.cons_append]
            · rw [← List.cons_append, List.mem_append, List.mem_singleton] at hz
              rcases hz with hz | rfl
              · rw [← hstays]
                exact hheads z hz
              · exact ⟨hdrift, rfl⟩

/-- The same of the cycles, each answered in the state that the cycles before it
leave. -/
theorem oncePerClass_iff {cycles : List DriftCycle} :
    OncePerClass (alarm.answers cycles {}) ↔
      ∀ before x between y later head trigger,
        cycles = before ++ x :: (between ++ y :: later) →
          (∀ c ∈ x :: (between ++ [y]), HeadIs head c) →
          sentKey (alarm x (alarm.after before {})).1 = some (alertKey head trigger) →
          sentKey (alarm y (alarm.after (before ++ x :: between) {})).1 ≠
            some (alertKey head trigger) := by
  constructor
  · rintro h before x between y later head trigger rfl hheads hx hy
    rw [sentKey_eq_iff (hheads x List.mem_cons_self)] at hx
    rw [sentKey_eq_iff (hheads y (by simp))] at hy
    have hrun := alarm.answers_append before (x :: (between ++ y :: later)) {}
    rw [Machine.answers, alarm.answers_append between] at hrun
    refine h _ _ _ _ _ head trigger hrun (fun z hz => hheads z.1 ?_) hx ?_
    · simp only [List.mem_cons, List.mem_append, List.not_mem_nil, or_false] at hz ⊢
      rcases hz with rfl | hz | rfl
      · exact .inl rfl
      · exact .inr (.inl (Machine.fst_mem_of_mem_answers hz))
      · exact .inr (.inr rfl)
    · rw [alarm.after_append] at hy
      exact hy
  · intro h before x between y later head trigger hrun hheads hx hy
    obtain ⟨hcycles, hanswer⟩ := Machine.of_answers_eq hrun
    rw [← List.cons_append, ← List.append_assoc] at hrun
    obtain ⟨-, hanswer'⟩ := Machine.of_answers_eq hrun
    rw [List.map_append, List.map_cons] at hanswer'
    have hheadx : HeadIs head x.1 := hheads x List.mem_cons_self
    have hheady : HeadIs head y.1 := hheads y (by simp)
    rw [hanswer, ← sentKey_eq_iff hheadx] at hx
    rw [hanswer', ← sentKey_eq_iff hheady] at hy
    rw [List.map_append, List.map_cons] at hcycles
    refine h _ _ _ _ _ head trigger hcycles (fun c hc => ?_) hx hy
    rw [← List.map_singleton, ← List.map_append, ← List.map_cons] at hc
    obtain ⟨z, hz, rfl⟩ := List.mem_map.mp hc
    exact hheads z hz

theorem oncePerClass_of_unalternating {cycles : List DriftCycle} (h : Unalternating cycles) :
    OncePerClass (alarm.answers cycles {}) := by
  rw [oncePerClass_iff]
  intro before x between y later head trigger hcycles hheads hx hy
  have hheadx : HeadIs head x := hheads x List.mem_cons_self
  have hheady : HeadIs head y := hheads y (by simp)
  -- the first alert, and what is remembered from then on
  obtain ⟨hduex, hmemory⟩ := due_of_sent hheadx.1 hx
  rw [dueKey_after hheadx] at hduex
  obtain ⟨a, ha, hkeya⟩ := Option.map_eq_some_iff.mp hduex
  obtain rfl := alertKey_injective hkeya
  -- the second one
  have hmeets := meets_staysWith (fun c hc => hheads c (List.mem_cons_of_mem x hc))
    (head_alarm (alarm.after before {}) hheadx)
  obtain ⟨hmeets, hstays⟩ := Machine.meets_concat.mp hmeets
  rw [alarm.after_append] at hy
  obtain ⟨hduey, hforgotten⟩ := (suppresses_alarm head).due_of_sent hstays hy
  change dueKey y (alarm.after (x :: between) (alarm.after before {})) = _ at hduey
  rw [← alarm.after_append, dueKey_after hheady] at hduey
  obtain ⟨b, hb, hkeyb⟩ := Option.map_eq_some_iff.mp hduey
  obtain rfl := alertKey_injective hkeyb
  -- what was due in between
  obtain ⟨first, z, rest, key, rfl, hduez, hne⟩ :=
    (suppresses_alarm head).exists_other_due hmeets hmemory hforgotten
  have hheadz : HeadIs head z := hheads z (by simp)
  change dueKey z (alarm.after (x :: first) (alarm.after before {})) = _ at hduez
  rw [← alarm.after_append, dueKey_after hheadz] at hduez
  obtain ⟨trigger', hdue', rfl⟩ := Option.map_eq_some_iff.mp hduez
  simp only [List.append_assoc, List.cons_append] at hcycles hheads hb
  have hsame := h before x first z rest y later head _ trigger' hcycles hheads ha hdue' hb
  exact hne (congrArg (alertKey head) hsame)

theorem unalternating_of_oncePerClass {cycles : List DriftCycle}
    (h : OncePerClass (alarm.answers cycles {})) : Unalternating cycles := by
  rw [oncePerClass_iff] at h
  rintro before x between y between' z later head trigger trigger' rfl hheads hx hy hz
  by_contra hne
  have hheadx : HeadIs head x := hheads x List.mem_cons_self
  have hheady : HeadIs head y := hheads y (by simp)
  have hheadz : HeadIs head z := hheads z (by simp)
  -- the alert that is remembered after the first of the three cycles
  have hmemory : (alarm.after (before ++ [x]) {}).lastAlertKey.join =
      some (alertKey head trigger) := by
    rw [alarm.after_concat, (alarm_drifted _ hheadx.1).2.1, dueKey_after hheadx, hx]
    rfl
  obtain ⟨first, a, rest, hsplit, hsent, hheads₁⟩ := exists_sent_of_remembered _ hmemory
  rw [alarm.after_concat, head_alarm _ hheadx] at hheads₁
  -- another one is remembered after the second
  have hmemory' : (alarm.after (before ++ x :: (between ++ [y])) {}).lastAlertKey.join =
      some (alertKey head trigger') := by
    rw [← List.cons_append, ← List.append_assoc, alarm.after_concat,
      (alarm_drifted _ hheady.1).2.1, dueKey_after hheady, hy]
    rfl
  -- and the first one is raised again by the third
  have hmeets : alarm.Meets (StaysWith head) (between' ++ [z])
      (alarm.after (before ++ x :: (between ++ [y])) {}) := by
    refine meets_staysWith (fun c hc => hheads c ?_) ?_
    · simp only [List.mem_append, List.mem_cons, List.not_mem_nil, or_false] at hc ⊢
      rcases hc with hc | rfl
      · exact .inr (.inr (.inr (.inl hc)))
      · exact .inr (.inr (.inr (.inr rfl)))
    · rw [← List.cons_append, ← List.append_assoc, alarm.after_concat, head_alarm _ hheady]
  have hforgotten : (alarm.after (before ++ x :: (between ++ [y])) {}).lastAlertKey.join ≠
      some (alertKey head trigger) := by
    rw [hmemory']
    exact fun heq => hne (alertKey_injective (Option.some.inj heq))
  have hdue : dueKey z (alarm.after between'
      (alarm.after (before ++ x :: (between ++ [y])) {})) = some (alertKey head trigger) := by
    rw [← alarm.after_append, dueKey_after hheadz]
    simp only [List.append_assoc, List.cons_append, List.nil_append]
    rw [hz]
    rfl
  obtain ⟨second, b, rest', hsplit', hsent'⟩ :=
    (suppresses_alarm head).exists_sent hmeets hforgotten hdue
  rw [← alarm.after_append] at hsent'
  refine h first a (rest ++ between ++ y :: second) b (rest' ++ later) head trigger ?_
    (fun c hc => ?_) hsent ?_
  · calc before ++ x :: (between ++ y :: (between' ++ z :: later))
        = (before ++ [x]) ++ (between ++ y :: ((between' ++ [z]) ++ later)) := by simp
      _ = (first ++ a :: rest) ++ (between ++ y :: ((second ++ b :: rest') ++ later)) := by
          rw [hsplit, hsplit']
      _ = _ := by simp
  · have hlate : ∀ c ∈ second ++ b :: rest', HeadIs head c := by
      rw [← hsplit']
      exact fun c hc => hheads c (by simp at hc ⊢; tauto)
    simp only [List.mem_cons, List.mem_append, List.not_mem_nil, or_false] at hc
    rcases hc with rfl | ((hc | hc) | rfl | hc) | rfl
    · exact hheads₁ c List.mem_cons_self
    · exact hheads₁ c (List.mem_cons_of_mem a hc)
    · exact hheads c (by simp [hc])
    · exact hheady
    · exact hlate c (List.mem_append_left _ hc)
    · exact hlate c (by simp)
  · have hpast : before ++ x :: (between ++ [y]) ++ second =
        first ++ a :: (rest ++ between ++ y :: second) := by
      calc before ++ x :: (between ++ [y]) ++ second
          = (before ++ [x]) ++ (between ++ y :: second) := by simp
        _ = (first ++ a :: rest) ++ (between ++ y :: second) := by rw [hsplit]
        _ = _ := by simp
    rw [← hpast]
    exact hsent'

end Suppressed

/-- While a head stays current each class is raised at most once, exactly in the runs in
which no other class is due between two cycles in which one is. -/
theorem drift_alerts_once_iff (cycles : List DriftCycle) :
    OncePerClass (alarm.answers cycles {}) ↔ Unalternating cycles :=
  ⟨unalternating_of_oncePerClass, oncePerClass_of_unalternating⟩

/-- Too many commits, a comparison that failed once the grace was over, and too many
commits again. -/
def failedComparison : List DriftCycle :=
  [behind 5 100, behind 1 2000, behind 5 2900]

/-- The alert for the commits is raised twice for the one head. -/
theorem commits_raised_twice : ¬OncePerClass (alarm.answers failedComparison {}) := by
  intro h
  have hrun : (alarm.answers failedComparison {}).map (fun x => classOf x.2) =
      [some .commits, some .grace, some .commits] := by
    decide +kernel
  refine h [] _ [_] _ [] (some "b2") .commits rfl ?_ ?_ ?_
  · simp [HeadIs, behind]
  · exact (List.cons.inj hrun).1
  · exact (List.cons.inj (List.cons.inj (List.cons.inj hrun).2).2).1

end ReleaseDrift

end HermesCluster
