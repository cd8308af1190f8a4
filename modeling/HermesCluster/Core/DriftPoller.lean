import HermesCluster.Core.ReleaseDrift
/-!
# The drift poller

`core/release_drift_poller.py`: one poll cycle, for whatever the config store and
the fetchers hand over. Which values end a cycle with an exception, and what
becomes of the cycles in which main cannot be read. The stored sample and the
error counters, which only the status page reads, are left out.
-/

namespace HermesCluster

namespace DriftPoller

open ReleaseDrift

section Poller

variable [Unicode] [PyStr]

/-! ## Settings -/

/-- A section that is malformed is told from an exception. -/
inductive SectionError where
  | driftConfig
  | raised (error : PyError)
  deriving DecidableEq

abbrev Section : Type := List (String × PyValue)

omit [PyStr] in
/-- `_require_int`: only `TypeError` and `ValueError` are caught. -/
def requireInt (fields : Section) (key : String) (default : Int) : Except SectionError Int :=
  match ((fields.lookup key).getD (.int default)).toInt with
  | .ok n => .ok n
  | .error .overflowError => .error (.raised .overflowError)
  | .error _ => .error .driftConfig

omit [PyStr] in
/-- `_require_bool`. -/
def requireBool (fields : Section) (key : String) (default : Bool) : Except SectionError Bool :=
  match (fields.lookup key).getD (.bool default) with
  | .bool b => .ok b
  | .str s =>
      if Unicode.lower s = "true" then .ok true
      else if Unicode.lower s = "false" then .ok false
      else .error .driftConfig
  | _ => .error .driftConfig

omit [Unicode] in
/-- `str(section.get(key, default))`. -/
def textOf (fields : Section) (key default : String) : String :=
  ((fields.lookup key).getD (.str default)).text

/-- The fields of a section. -/
def readSection (fields : Section) : Except SectionError DriftConfig := do
  let base : DriftConfig := {}
  let enabled ← requireBool fields "enabled" base.enabled
  let intervalS ← requireInt fields "interval_s" base.intervalS
  let graceS ← requireInt fields "grace_s" base.graceS
  let maxAgeS ← requireInt fields "max_age_s" base.maxAgeS
  let commitThreshold ← requireInt fields "commit_threshold" base.commitThreshold
  let httpTimeout ← requireInt fields "http_timeout" base.httpTimeout
  pure
    { enabled := enabled
      intervalS := intervalS
      graceS := graceS
      maxAgeS := maxAgeS
      commitThreshold := commitThreshold
      image := textOf fields "image" base.image
      pinRepo := textOf fields "pin_repo" base.pinRepo
      pinFile := textOf fields "pin_file" base.pinFile
      mainRepo := textOf fields "main_repo" base.mainRepo
      mainBranch := textOf fields "main_branch" base.mainBranch
      httpTimeout := httpTimeout
      adcTokenFile := textOf fields "adc_token_file" base.adcTokenFile
      inFlightHead := Unicode.lower
        (Text.strip (textOf fields "in_flight_head" base.inFlightHead)) }

/-- The bounds on the numbers of a section. -/
def InBounds (cfg : DriftConfig) : Prop :=
  30 ≤ cfg.intervalS ∧ 0 ≤ cfg.graceS ∧ 0 < cfg.maxAgeS ∧ 1 ≤ cfg.commitThreshold ∧
    0 < cfg.httpTimeout

omit [Unicode] [PyStr] in
instance (cfg : DriftConfig) : Decidable (InBounds cfg) :=
  inferInstanceAs (Decidable (_ ∧ _))

/-- `parse_drift_settings`: a malformed section has no settings. -/
def parseDriftSettings (config : PyValue) : Except PyError (Option DriftConfig) :=
  let found := match config with
    | .dict fields => (fields.lookup "release_drift").getD .none
    | _ => .none
  match found with
  | .none => .ok (some {})
  | .dict fields =>
      match readSection fields with
      | .ok cfg => .ok (if InBounds cfg then some cfg else none)
      | .error .driftConfig => .ok none
      | .error (.raised error) => .error error
  | _ => .ok none

/-! ## A cycle -/

/-- What a call to the outside does. -/
inductive Fetched where
  | returned (v : PyValue)
  | raised

/-- What a cycle is handed: the stored config, the commit baked into the image, and
what the fetchers and the registry do. -/
structure PollInput where
  config : Fetched
  buildCommit : String
  mainHead : Fetched
  compare : Fetched
  digests : Fetched
  now : Rat

/-- An alert, with what the cycle adds to it. -/
structure SentAlert extends DriftAlert where
  mainDigest : Option PyValue := none
  commitRange : Option PyValue := none

/-- The dictionary a cycle returns; an absent key is `none`. -/
structure PollResult where
  ok : Bool
  stage : Option String := none
  enabled : Option Bool := none
  status : Option String := none
  drifted : Option Bool := none
  alert : Option SentAlert := none
  intervalSeconds : Option Int := none

omit [Unicode] [PyStr] in
/-- `_config`. -/
def configOf : Fetched → PyValue
  | .returned v => if v.truthy then v else .dict []
  | .raised => .dict []

def isLowerHex (c : Char) : Bool :=
  decide (c ∈ "0123456789abcdef".toList)

omit [PyStr] in
/-- `deployed_commit`. -/
def deployedCommit (buildCommit : String) : Option String :=
  let raw := Unicode.lower (Text.strip buildCommit)
  if raw.toList.length = 40 ∧ raw.toList.all isLowerHex = true then some raw else none

/-- `FULL_SHA_RE.match`; its `$` also matches before a last newline. -/
def isFullSha (s : String) : Bool :=
  let cs := if s.toList.getLast? = some '\n' then s.toList.dropLast else s.toList
  decide (cs.length = 40) && cs.all isLowerHex

/-- What a call that may raise is taken for. -/
def Fetched.value : Fetched → PyValue
  | .returned v => v
  | .raised => .none

/-- `compare["ahead_by"]` of a reply; what cannot be subscripted so is no answer. -/
def aheadBy : PyValue → Option PyValue
  | .dict fields => (fields.lookup "ahead_by").bind PyValue.given
  | _ => none

/-- `(compare or {}).get("commits", [])[:10]`, which only raises or not. -/
def recentCommits (compare : PyValue) : Except PyError Unit :=
  if compare.truthy = false then .ok ()
  else
    match compare with
    | .dict fields =>
        match (fields.lookup "commits").getD (.list []) with
        | .list _ | .str _ => .ok ()
        | _ => .error .typeError
    | _ => .error .attributeError

/-- `digests.items()`. -/
def itemsOf : PyValue → Except PyError Section
  | .dict fields => .ok fields
  | _ => .error .attributeError

omit [PyStr] in
/-- `compute_drift`; a sha that passed the check is in lower case. -/
def computeDrift (pinSha : String) (mainSha : PyValue) (commitsAhead : Option PyValue) :
    Except PyError Drift := do
  match mainSha with
  | .str main =>
      if isFullSha main = false then .error .valueError
      else
        let drifted := decide (pinSha ≠ main)
        let ahead ← match commitsAhead with
          | none => pure (if drifted then 1 else 0)
          | some v => v.toInt
        pure
          { drifted := drifted
            pinSha := some pinSha
            mainSha := some main
            commitsAhead := some (if drifted then ahead else 0) }
  | _ => .error .valueError

/-- What a cycle with settings does once it knows the deployed commit and has a
reading of main's head. -/
def pollDrift (settings : DriftConfig) (deployed : String) (head : PyValue) (input : PollInput)
    (state : AlertState) : Except PyError (PollResult × AlertState) := do
  let drifted := match head with
    | .str main => decide (deployed ≠ main)
    | _ => true
  let compare := if drifted then input.compare.value else .none
  let drift ← computeDrift deployed head (if compare.truthy then aheadBy compare else none)
  let drift := { drift with
    releaseInFlight := decide (settings.inFlightHead ≠ "") &&
      decide (drift.mainSha = some settings.inFlightHead) }
  let digests := if drift.drifted then
      match input.digests with
      | .returned v => v
      | .raised => .dict []
    else .dict []
  recentCommits compare
  let items ← itemsOf digests
  let (alert, state) := evaluateDriftAlert drift settings input.now state
  let range := ((items.lookup "range").bind PyValue.given).getD
    (if drift.drifted then .str (short 9 drift.pinSha ++ ".." ++ short 9 drift.mainSha) else .none)
  let sent := alert.map (fun alert =>
    { alert with
      mainDigest := (items.lookup "main_digest").filter PyValue.truthy
      commitRange := (some range).filter PyValue.truthy : SentAlert })
  pure
    ({ ok := true, enabled := some true, status := some "ok", drifted := some drift.drifted,
       alert := sent, intervalSeconds := some settings.intervalS }, state)

/-- A cycle that raises leaves the bookkeeping alone. -/
def cycleEnd (state : AlertState) :
    Except PyError (PollResult × AlertState) → Except PyError PollResult × AlertState
  | .ok (result, state') => (.ok result, state')
  | .error error => (.error error, state)

/-- `poll_once`. -/
def pollOnce (input : PollInput) (state : AlertState) : Except PyError PollResult × AlertState :=
  match parseDriftSettings (configOf input.config) with
  | .error error => (.error error, state)
  | .ok none => (.ok { ok := false, stage := some "config" }, state)
  | .ok (some settings) =>
      if settings.enabled = false then
        (.ok { ok := true, enabled := some false,
               intervalSeconds := some (min settings.intervalS 60) }, state)
      else
        match deployedCommit input.buildCommit with
        | none =>
            (.ok { ok := true, enabled := some true, status := some "unpinned",
                   intervalSeconds := some settings.intervalS }, state)
        | some deployed =>
            let head := input.mainHead.value
            if head.truthy = false then
              (.ok { ok := false, enabled := some true, status := some "unknown",
                     intervalSeconds := some settings.intervalS }, state)
            else cycleEnd state (pollDrift settings deployed head input state)

/-! ## Which values a cycle survives -/

/-- What `[:10]` works on. -/
def IsSequence : PyValue → Prop
  | .list _ | .str _ => True
  | _ => False

omit [PyStr] in
/-- A comparison that can be read: nothing, or a dictionary with a number of
commits and a sequence of them, as far as it has these keys. -/
def CompareReadable : PyValue → Prop
  | .dict fields =>
      (∀ v ∈ (fields.lookup "ahead_by").bind PyValue.given, v.toInt.isOk = true) ∧
        IsSequence ((fields.lookup "commits").getD (.list []))
  | v => v.truthy = false

/-- Digests that can be read: none at all, or a dictionary. -/
def DigestsReadable : Fetched → Prop
  | .raised | .returned (.dict _) => True
  | _ => False

omit [PyStr] in
/-- A reading of main's head that the comparison accepts, with what is asked for
where main is ahead. -/
def HeadReadable (deployed : String) (head : PyValue) (input : PollInput) : Prop :=
  ∃ main, head = .str main ∧ isFullSha main = true ∧
    (deployed ≠ main → CompareReadable input.compare.value ∧ DigestsReadable input.digests)

/-- The values of a cycle that gets as far as they are looked at. -/
def Readable (input : PollInput) : Prop :=
  match parseDriftSettings (configOf input.config) with
  | .error _ => False
  | .ok none => True
  | .ok (some settings) =>
      settings.enabled = true → ∀ deployed ∈ deployedCommit input.buildCommit,
        input.mainHead.value.truthy = true → HeadReadable deployed input.mainHead.value input

section Survives

variable {settings : DriftConfig} {deployed : String} {head : PyValue} {input : PollInput}
  {state : AlertState}

omit [PyStr] in
theorem computeDrift_eq_ok {ahead : Option PyValue} {drift : Drift}
    (h : computeDrift deployed head ahead = .ok drift) :
    ∃ main, head = .str main ∧ isFullSha main = true ∧
      drift.drifted = decide (deployed ≠ main) ∧ ∀ v ∈ ahead, v.toInt.isOk = true := by
  unfold computeDrift at h
  split at h
  · rename_i main
    split at h
    · cases h
    · rename_i hfull
      refine ⟨main, rfl, by simpa using hfull, ?_⟩
      cases ahead with
      | none =>
          cases h
          exact ⟨rfl, fun v hv => by cases hv⟩
      | some v =>
          obtain ⟨n, hn, hdrift⟩ := Except.bind_eq_ok_iff.mp h
          cases hdrift
          refine ⟨rfl, fun v' hv' => ?_⟩
          cases hv'
          rw [hn]
          rfl
  · cases h

omit [PyStr] in
theorem isOk_computeDrift (deployed : String) {main : String} {ahead : Option PyValue}
    (hfull : isFullSha main = true) (hahead : ∀ v ∈ ahead, v.toInt.isOk = true) :
    ∃ drift, computeDrift deployed (.str main) ahead = .ok drift ∧
      drift.drifted = decide (deployed ≠ main) := by
  unfold computeDrift
  dsimp only
  rw [if_neg (by simp [hfull])]
  cases ahead with
  | none => exact ⟨_, rfl, rfl⟩
  | some v =>
      have hv := hahead v rfl
      cases hn : v.toInt with
      | ok n =>
          dsimp only
          rw [hn]
          exact ⟨_, rfl, rfl⟩
      | error error =>
          rw [hn] at hv
          exact absurd hv Bool.false_ne_true

omit [Unicode] [PyStr] in
theorem isOk_recentCommits {compare : PyValue} {u : Unit} (h : recentCommits compare = .ok u) :
    compare.truthy = false ∨ ∃ fields, compare = .dict fields ∧
      IsSequence ((fields.lookup "commits").getD (.list [])) := by
  unfold recentCommits at h
  split at h
  · rename_i hfalsy
    exact .inl hfalsy
  · rename_i htruthy
    split at h
    · rename_i fields
      refine .inr ⟨fields, rfl, ?_⟩
      split at h
      · rename_i items hcommits
        rw [hcommits]
        trivial
      · rename_i text hcommits
        rw [hcommits]
        trivial
      · cases h
    · cases h

omit [Unicode] [PyStr] in
theorem recentCommits_of_sequence {fields : Section}
    (h : IsSequence ((fields.lookup "commits").getD (.list []))) :
    recentCommits (.dict fields) = .ok () := by
  unfold recentCommits
  split
  · rfl
  · dsimp only
    generalize (fields.lookup "commits").getD (.list []) = commits at h
    cases commits with
    | list | str => rfl
    | _ => exact h.elim

omit [PyStr] in
theorem compareReadable_of_falsy {v : PyValue} (h : v.truthy = false) : CompareReadable v := by
  cases v with
  | dict fields =>
      cases fields with
      | nil => exact ⟨fun v hv => (by cases hv), trivial⟩
      | cons f fields => cases h
  | _ => exact h

omit [PyStr] in
/-- A comparison can be read if its number of commits and their list can. -/
theorem compareReadable_iff {v : PyValue} :
    CompareReadable v ↔
      (∀ n ∈ (if v.truthy then aheadBy v else none), n.toInt.isOk = true) ∧
        recentCommits v = .ok () := by
  constructor
  · intro h
    cases v with
    | dict fields =>
        refine ⟨fun n hn => ?_, recentCommits_of_sequence h.2⟩
        split at hn
        · exact h.1 n hn
        · cases hn
    | _ =>
        have hfalsy := h
        refine ⟨fun n hn => ?_, if_pos hfalsy⟩
        rw [hfalsy] at hn
        cases hn
  · rintro ⟨hahead, hrecent⟩
    rcases isOk_recentCommits hrecent with hfalsy | ⟨fields, rfl, hcommits⟩
    · exact compareReadable_of_falsy hfalsy
    · refine ⟨fun n hn => hahead n ?_, hcommits⟩
      cases fields with
      | nil => cases hn
      | cons f fields => exact hn

omit [Unicode] [PyStr] in
theorem digestsReadable_iff {digests : Fetched} :
    DigestsReadable digests ↔ ∃ items, itemsOf (match digests with
      | .returned v => v
      | .raised => .dict []) = .ok items := by
  cases digests with
  | raised => exact iff_of_true trivial ⟨[], rfl⟩
  | returned v =>
      cases v with
      | dict fields => exact iff_of_true trivial ⟨fields, rfl⟩
      | _ => exact iff_of_false id (fun ⟨_, h⟩ => by cases h)

omit [PyStr] in
theorem headReadable_of_isOk (h : (pollDrift settings deployed head input state).isOk = true) :
    HeadReadable deployed head input := by
  obtain ⟨out, hout⟩ := Except.isOk_iff.mp h
  unfold pollDrift at hout
  obtain ⟨drift, hdrift, hrest⟩ := Except.bind_eq_ok_iff.mp hout
  obtain ⟨main, rfl, hfull, hdrifted, hahead⟩ := computeDrift_eq_ok hdrift
  obtain ⟨u, hrecent, hrest⟩ := Except.bind_eq_ok_iff.mp hrest
  obtain ⟨items, hitems, hrest⟩ := Except.bind_eq_ok_iff.mp hrest
  refine ⟨main, rfl, hfull, fun hne => ?_⟩
  have hdiffer : decide (deployed ≠ main) = true := decide_eq_true hne
  dsimp only at hahead hrecent hitems
  rw [hdrifted, if_pos hdiffer] at hitems
  rw [if_pos hdiffer] at hahead hrecent
  exact ⟨compareReadable_iff.mpr ⟨hahead, hrecent⟩, digestsReadable_iff.mpr ⟨items, hitems⟩⟩

omit [PyStr] in
theorem isOk_of_headReadable (h : HeadReadable deployed head input) :
    (pollDrift settings deployed head input state).isOk = true := by
  obtain ⟨main, rfl, hfull, hreads⟩ := h
  have hcompare : CompareReadable
      (if decide (deployed ≠ main) = true then input.compare.value else .none) := by
    split
    · rename_i hdiffer
      exact (hreads (of_decide_eq_true hdiffer)).1
    · rfl
  obtain ⟨hahead, hrecent⟩ := compareReadable_iff.mp hcompare
  obtain ⟨drift, hdrift, hdrifted⟩ := isOk_computeDrift deployed hfull hahead
  have hdigests : ∃ items, itemsOf (if drift.drifted = true then
      match input.digests with
      | .returned v => v
      | .raised => .dict []
      else .dict []) = .ok items := by
    rw [hdrifted]
    split
    · rename_i hdiffer
      exact digestsReadable_iff.mp (hreads (of_decide_eq_true hdiffer)).2
    · exact ⟨[], rfl⟩
  obtain ⟨items, hitems⟩ := hdigests
  refine (Except.isOk_bind hdrift).trans ?_
  refine (Except.isOk_bind hrecent).trans ?_
  exact (Except.isOk_bind hitems).trans rfl

/-! ## Cycles -/

omit [Unicode] [PyStr] in
theorem isOk_cycleEnd (out : Except PyError (PollResult × AlertState)) :
    (cycleEnd state out).1.isOk = out.isOk := by
  cases out with
  | ok out => rfl
  | error error => rfl

/-- A cycle raises unless its values can be read. -/
theorem isOk_pollOnce : (pollOnce input state).1.isOk = true ↔ Readable input := by
  unfold pollOnce Readable
  cases parseDriftSettings (configOf input.config) with
  | error error => exact iff_of_false Bool.false_ne_true id
  | ok parsed =>
      cases parsed with
      | none => exact iff_of_true rfl trivial
      | some settings =>
          dsimp only
          by_cases henabled : settings.enabled = false
          · rw [if_pos henabled]
            exact iff_of_true rfl (fun htrue => absurd (henabled.symm.trans htrue)
              Bool.false_ne_true)
          · rw [if_neg henabled]
            have htrue : settings.enabled = true := by simpa using henabled
            cases deployedCommit input.buildCommit with
            | none => exact iff_of_true rfl (fun _ _ h => by cases h)
            | some deployed =>
                dsimp only
                by_cases hhead : input.mainHead.value.truthy = false
                · rw [if_pos hhead]
                  exact iff_of_true rfl (fun _ _ _ h => absurd (hhead.symm.trans h)
                    Bool.false_ne_true)
                · rw [if_neg hhead]
                  have hread : (pollDrift settings deployed input.mainHead.value input
                      state).isOk = true ↔
                      HeadReadable deployed input.mainHead.value input :=
                    ⟨headReadable_of_isOk, isOk_of_headReadable⟩
                  rw [isOk_cycleEnd, hread]
                  exact ⟨fun h _ d hd _ => (by cases hd; exact h),
                    fun h => h htrue deployed rfl (by simpa using hhead)⟩

/-- An enabled cycle that knows the deployed commit and cannot read main's head. -/
def Blind (input : PollInput) : Prop :=
  (∃ settings, parseDriftSettings (configOf input.config) = .ok (some settings) ∧
      settings.enabled = true) ∧
    (deployedCommit input.buildCommit).isSome = true ∧ input.mainHead.value.truthy = false

/-- A cycle whose alert is sent. -/
def Emits (answer : Except PyError PollResult) : Prop :=
  ∃ result, answer = .ok result ∧ result.alert.isSome = true

/-- A blind cycle says so in its status, and sends no alert. -/
theorem pollOnce_of_blind (h : Blind input) (state : AlertState) :
    ∃ interval, pollOnce input state =
    (.ok { ok := false, enabled := some true, status := some "unknown",
           intervalSeconds := interval }, state) := by
  obtain ⟨⟨settings, hparse, henabled⟩, hdeployed, hhead⟩ := h
  obtain ⟨deployed, hcommit⟩ := Option.isSome_iff_exists.mp hdeployed
  refine ⟨some settings.intervalS, ?_⟩
  unfold pollOnce
  rw [hparse]
  dsimp only
  rw [if_neg (by simp [henabled]), hcommit]
  exact if_pos hhead

theorem not_emits_of_blind (h : Blind input) : ¬Emits (pollOnce input state).1 := by
  rintro ⟨result, hresult, halert⟩
  obtain ⟨interval, hcycle⟩ := pollOnce_of_blind h state
  rw [hcycle] at hresult
  cases hresult
  exact absurd halert Bool.false_ne_true

end Survives

/-! ## Runs -/

def poller : Machine AlertState PollInput (Except PyError PollResult) := pollOnce

abbrev PollRun : Type := List (PollInput × Except PyError PollResult)

omit [Unicode] [PyStr] in
def NeverRaises (run : PollRun) : Prop :=
  ∀ x ∈ run, x.2.isOk = true

/-- Of more than `patience` blind cycles in a row, one sends an alert. -/
def CriesOut (patience : Nat) (run : PollRun) : Prop :=
  ∀ stretch, stretch <:+: run → patience < stretch.length → (∀ x ∈ stretch, Blind x.1) →
    ∃ x ∈ stretch, Emits x.2

/-- From any state, for any behaviour of the store and the fetchers: no cycle
raises and blindness is reported, if and only if every value that a cycle looks at
can be read, and main is never out of sight for longer than it is to be borne. -/
theorem poller_never_silent_iff (patience : Nat) (inputs : List PollInput) (state : AlertState) :
    (NeverRaises (poller.answers inputs state) ∧ CriesOut patience (poller.answers inputs state)) ↔
      (∀ input ∈ inputs, Readable input) ∧
        ¬∃ stretch, stretch <:+: inputs ∧ patience < stretch.length ∧
          ∀ input ∈ stretch, Blind input := by
  have hfst : (poller.answers inputs state).map Prod.fst = inputs :=
    poller.fst_answers inputs state
  have hsurvives : NeverRaises (poller.answers inputs state) ↔
      ∀ input ∈ inputs, Readable input := by
    have hread : ∀ x ∈ poller.answers inputs state, x.2.isOk = true ↔ Readable x.1 := by
      intro x hx
      obtain ⟨t, hanswer⟩ := Machine.exists_of_mem_answers hx
      rw [hanswer]
      exact isOk_pollOnce
    constructor
    · intro h input hinput
      rw [← hfst] at hinput
      obtain ⟨x, hx, rfl⟩ := List.mem_map.mp hinput
      exact (hread x hx).mp (h x hx)
    · intro h x hx
      exact (hread x hx).mpr (h x.1 (hfst ▸ List.mem_map_of_mem hx))
  have hblind : CriesOut patience (poller.answers inputs state) ↔
      ¬∃ stretch, stretch <:+: inputs ∧ patience < stretch.length ∧
        ∀ input ∈ stretch, Blind input := by
    constructor
    · rintro h ⟨stretch, hin, hlong, hall⟩
      rw [← hfst] at hin
      obtain ⟨cycles, hcycles, rfl⟩ := List.infix_map_iff.mp hin
      obtain ⟨x, hx, hemits⟩ := h cycles hcycles (by simpa using hlong)
        (fun x hx => hall x.1 (List.mem_map_of_mem hx))
      obtain ⟨t, hanswer⟩ := Machine.exists_of_mem_answers (hcycles.subset hx)
      rw [hanswer] at hemits
      exact not_emits_of_blind (hall x.1 (List.mem_map_of_mem hx)) hemits
    · intro h stretch hin hlong hall
      refine absurd ⟨stretch.map Prod.fst, ?_, by simpa using hlong, ?_⟩ h
      · rw [← hfst]
        exact hin.map Prod.fst
      · intro input hinput
        obtain ⟨x, hx, rfl⟩ := List.mem_map.mp hinput
        exact hall x hx
  rw [hsurvives, hblind]

end Poller

/-! ## A blind poller -/

section Case

local instance asciiPoller : Unicode := Unicode.ascii
local instance noTexts : PyStr := ⟨fun _ => ""⟩

/-- The poller is switched on, and knows what it runs. -/
def enabledCycle (mainHead : Fetched) (now : Rat) : PollInput where
  config := .returned (.dict [("release_drift", .dict [("enabled", .bool true)])])
  buildCommit := "0123456789012345678901234567890123456789"
  mainHead := mainHead
  compare := .raised
  digests := .raised
  now := now

/-- A head in capitals ends a cycle with an exception; and however long the head
cannot be fetched, nothing is sent. -/
theorem poller_raises_and_stays_silent :
    ¬NeverRaises (poller.answers [enabledCycle (.returned (.str "ABCDEF")) 100] {}) ∧
      ∀ patience, ¬CriesOut patience
        (poller.answers (List.replicate (patience + 1) (enabledCycle .raised 100)) {}) := by
  have hraises : (pollOnce (enabledCycle (.returned (.str "ABCDEF")) 100) {}).1.isOk = false := by
    decide +kernel
  refine ⟨fun hnever => ?_, fun patience hcries => ?_⟩
  · exact Bool.false_ne_true (hraises.symm.trans (hnever _ (List.mem_singleton_self _)))
  have hblind : Blind (enabledCycle .raised 100) :=
    ⟨⟨{ enabled := true }, by decide +kernel, rfl⟩, by decide +kernel, rfl⟩
  have hmem : ∀ x ∈ poller.answers (List.replicate (patience + 1) (enabledCycle .raised 100)) {},
      Blind x.1 := by
    intro x hx
    have hinput := List.mem_map_of_mem (f := Prod.fst) hx
    rw [poller.fst_answers] at hinput
    rw [List.eq_of_mem_replicate hinput]
    exact hblind
  have hlong : patience <
      (poller.answers (List.replicate (patience + 1) (enabledCycle .raised 100)) {}).length := by
    rw [← List.length_map (f := Prod.fst), poller.fst_answers, List.length_replicate]
    exact Nat.lt_succ_self patience
  obtain ⟨x, hx, hemits⟩ := hcries _ (List.infix_refl _) hlong hmem
  obtain ⟨t, hanswer⟩ := Machine.exists_of_mem_answers hx
  rw [hanswer] at hemits
  exact not_emits_of_blind (hmem x hx) hemits

end Case

end DriftPoller

end HermesCluster
