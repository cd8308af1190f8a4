import HermesCluster.Lib.Json
import HermesCluster.Lib.Machine
import HermesCluster.State.NodeRegistry
/-!
# The worker connector

`_loop` of `core/worker_connector.py`: a worker joins the main, beats, and declares the
capabilities whose probes pass. A cycle is a step of a machine whose inputs are what the
environment says in it; the events of a run are its probe rounds, joins and beats.
-/

namespace HermesCluster

namespace WorkerConnector

/-! ## The model -/

/-- An entry of `capability_probes`. -/
structure CapabilityProbe where
  name : String
  intervalS : Int := 300

/-- The arguments of `start_worker_connector` that the loop reads. -/
structure Config where
  nodeId : String
  capabilities : List String := []
  maxConcurrent : Int := 0
  capabilityProbes : List CapabilityProbe := []
  instanceToken : String := ""

/-- The results of a round of probes, by name. -/
abbrev ProbeStates := List (String × Bool)

/-- `declared_capabilities`. -/
def declaredCapabilities (staticCaps : List String) (probes : List CapabilityProbe)
    (states : ProbeStates) : List String :=
  let gated := probes.map CapabilityProbe.name
  Text.sortedSet (staticCaps.filter (fun c => decide (c ∉ gated)) ++
    (states.filter Prod.snd).map Prod.fst)

namespace Config

/-- `_probe_states`; `passes` tells which probes exit with 0. -/
def probeStates (cfg : Config) (passes : String → Bool) : ProbeStates :=
  cfg.capabilityProbes.map fun p => (p.name, passes p.name)

/-- `_declared_caps`. -/
def declaredCaps (cfg : Config) (states : ProbeStates) : List String :=
  declaredCapabilities cfg.capabilities cfg.capabilityProbes states

/-- `probe_interval`. -/
def probeInterval (cfg : Config) : Int :=
  (cfg.capabilityProbes.map CapabilityProbe.intervalS).min?.getD 300

end Config

/-- What `_signed_post` returns: nothing, the status of a refusal, or the answer. -/
inductive Answer where
  | unreachable
  | httpError (code : Int)
  | body (json : Json)

namespace Answer

/-- `result["node_id"]` where `result and "node_id" in result`; an answer that is no
object may raise. -/
def nodeId : Answer → Except String (Option Json)
  | .body (.obj fields) => .ok (fields.lookup "node_id")
  | .body (.arr items) =>
      if items.any (fun | .str s => s = "node_id" | _ => false) = true then .error "TypeError"
      else .ok none
  | .body (.str s) => if Text.contains s "node_id" = true then .error "TypeError" else .ok none
  | .body json => if json.truthy = true then .error "TypeError" else .ok none
  | _ => .ok none

/-- The answer is an object whose status is `unknown_node`. -/
def isUnknownNode : Answer → Bool
  | .body (.obj fields) =>
      match fields.lookup "status" with
      | some (.str s) => s = "unknown_node"
      | _ => false
  | _ => false

end Answer

/-- The body of a join; a field left out is `none`. -/
structure JoinData where
  nodeName : String
  capabilities : List String
  endpoint : String
  maxConcurrent : Int
  instanceToken : Option String
  health : HealthReport

/-- A `PATCH` of the capabilities of a node, and whether it was answered. -/
structure CapabilityPatch where
  nodeId : Json
  capabilities : List String
  accepted : Bool

inductive Event where
  | round (states : ProbeStates) (patch : Option CapabilityPatch)
  | join (data : JoinData) (answer : Answer)
  | beat (nodeId : Json) (health : HealthReport) (answer : Answer)

/-- What the environment says in a cycle. -/
structure Cycle where
  time : Rat
  probedAt : Rat
  passes : String → Bool
  patchAccepted : Bool
  joinHealth : HealthReport
  joinAnswer : Answer
  beatHealth : HealthReport
  beatAnswer : Answer
  stop : Bool

/-- The variables of the loop; `ended` once the thread has returned or raised. -/
structure LoopState where
  probeStates : ProbeStates
  declared : List String
  lastProbeAt : Rat
  registeredId : Option Json := none
  ended : Bool := false

/-- Before the loop. -/
def Config.start (cfg : Config) (time : Rat) (passes : String → Bool) : LoopState where
  probeStates := cfg.probeStates passes
  declared := cfg.declaredCaps (cfg.probeStates passes)
  lastProbeAt := time

/-- A part of a cycle. -/
abbrev Part := LoopState → List Event × LoopState

/-- One part after the other, unless the first ended the thread. -/
def Part.then (p q : Part) : Part := fun s =>
  let first := p s
  if first.2.ended = true then first
  else ((first.1 ++ (q first.2).1), (q first.2).2)

section Parts

variable (cfg : Config) (c : Cycle)

/-- A round of probes on its own cadence; a change is pushed. -/
def reprobe : Part := fun s =>
  if cfg.capabilityProbes ≠ [] ∧ c.time - s.lastProbeAt ≥ cfg.probeInterval then
    let s := { s with lastProbeAt := c.probedAt }
    let newStates := cfg.probeStates c.passes
    let newDeclared := cfg.declaredCaps newStates
    match s.registeredId with
    | some id =>
        if newDeclared ≠ s.declared then
          let event := .round newStates (some ⟨id, newDeclared, c.patchAccepted⟩)
          if c.patchAccepted = true then
            ([event], { s with declared := newDeclared, probeStates := newStates })
          else ([event], s)
        else ([.round newStates none], s)
    | none => ([.round newStates none], s)
  else ([], s)

def joinData (declared : List String) : JoinData where
  nodeName := cfg.nodeId
  capabilities := declared
  endpoint := "http://" ++ cfg.nodeId ++ ":0"
  maxConcurrent := cfg.maxConcurrent
  instanceToken := if cfg.instanceToken = "" then none else some cfg.instanceToken
  health := c.joinHealth

/-- The value of a key that may be `null`, as `None`. -/
def presentId : Option Json → Option Json
  | some .null => none
  | id => id

/-- A join, if the node is not registered. -/
def tryJoin : Part := fun s =>
  match s.registeredId with
  | some _ => ([], s)
  | none =>
      let event := .join (joinData cfg c s.declared) c.joinAnswer
      match c.joinAnswer.nodeId with
      | .ok id => ([event], { s with registeredId := presentId id })
      | .error _ => ([event], { s with ended := true })

/-- A beat, if the node is registered. -/
def heartbeat : Part := fun s =>
  match s.registeredId with
  | none => ([], s)
  | some id =>
      let event := .beat id c.beatHealth c.beatAnswer
      if c.beatAnswer.isUnknownNode = true then ([event], { s with registeredId := none })
      else ([event], s)

/-- `_beat_wait`. -/
def beatWait : Part := fun s =>
  ([], { s with ended := c.stop })

/-- The cycles of `_loop`. -/
def loop : Machine LoopState Cycle (List Event) := fun c s =>
  if s.ended = true then ([], s)
  else (reprobe cfg c).then ((tryJoin cfg c).then ((heartbeat c).then (beatWait c))) s

end Parts

/-- The events of some cycles. -/
def events (cfg : Config) (cycles : List Cycle) (s : LoopState) : List Event :=
  ((loop cfg).answers cycles s).flatMap Prod.snd

/-! ## What a trace tells -/

/-- The capabilities that a request of an event carries. -/
def Event.sent : Event → Option (List String)
  | .round _ (some patch) => some patch.capabilities
  | .join data _ => some data.capabilities
  | _ => none

/-- The results of the most recent round; `first` are those from before the loop. -/
def latest (first : ProbeStates) (past : List Event) : ProbeStates :=
  past.foldl (fun states e =>
    match e with
    | .round states' _ => states'
    | _ => states) first

/-- The list of the last `PATCH` that was accepted. -/
def adopted (first : List String) (past : List Event) : List String :=
  past.foldl (fun caps e =>
    match e with
    | .round _ (some patch) => if patch.accepted = true then patch.capabilities else caps
    | _ => caps) first

/-- What the node is registered as. -/
def registered (past : List Event) : Option Json :=
  past.foldl (fun id e =>
    match e with
    | .join _ answer =>
        match answer.nodeId with
        | .ok id' => presentId id'
        | .error _ => id
    | .beat _ _ answer => if answer.isUnknownNode = true then none else id
    | _ => id) none

/-- The list of the last request that the main accepted. -/
def acceptedList (past : List Event) : Option (List String) :=
  past.foldl (fun caps e =>
    match e with
    | .round _ (some patch) => if patch.accepted = true then some patch.capabilities else caps
    | .join data answer =>
        match answer.nodeId with
        | .ok id => if (presentId id).isSome = true then some data.capabilities else caps
        | .error _ => caps
    | _ => caps) none

/-- A property of each event of a trace and the events before it. -/
def Each (P : List Event → Event → Prop) (trace : List Event) : Prop :=
  ∀ before e after, trace = before ++ e :: after → P before e

section Properties

variable (cfg : Config) (first : ProbeStates)

/-- A request carries what is to be declared after the most recent round. -/
def CarriesLatest (past : List Event) (e : Event) : Prop :=
  ∀ caps ∈ e.sent, caps = cfg.declaredCaps (latest first (past ++ [e]))

/-- A round of a registered node sends what is to be declared, unless that is what the
main accepted last. -/
def SendsChange (past : List Event) (e : Event) : Prop :=
  ∀ states patch id, e = .round states patch → registered past = some id →
    acceptedList past ≠ some (cfg.declaredCaps states) →
      ∃ accepted, patch = some ⟨id, cfg.declaredCaps states, accepted⟩

/-- At a join, what is to be declared after the most recent round is the list from before
the loop or of the last `PATCH` that was accepted since. -/
def JoinsSettled (past : List Event) (e : Event) : Prop :=
  ∀ data answer, e = .join data answer →
    adopted (cfg.declaredCaps first) past = cfg.declaredCaps (latest first past)

end Properties

/-! ## Steps -/

theorem each_nil {P : List Event → Event → Prop} : Each P [] :=
  fun before e after h => absurd (congrArg List.length h) (by simp)

theorem each_concat {P : List Event → Event → Prop} {trace : List Event} {e : Event} :
    Each P (trace ++ [e]) ↔ Each P trace ∧ P trace e := by
  constructor
  · intro h
    refine ⟨fun before e' after htrace => ?_, h trace e [] rfl⟩
    exact h before e' (after ++ [e]) (by rw [htrace, List.append_assoc, List.cons_append])
  · rintro ⟨htrace, he⟩ before e' after hsplit
    rcases List.eq_nil_or_concat after with rfl | ⟨after, last, rfl⟩
    · obtain ⟨rfl, hlast⟩ := List.append_inj' hsplit rfl
      obtain rfl := (List.cons.inj hlast).1
      exact he
    · rw [List.concat_eq_append, ← List.cons_append, ← List.append_assoc] at hsplit
      exact htrace before e' after (List.append_inj_left' hsplit rfl)

section Steps

variable {cfg : Config} {first : ProbeStates} {past : List Event} {s s' : LoopState}

/-- What one event is about: a request is up to date if and only if it is no join before
a change has settled, and a change is sent. -/
def Faithful (cfg : Config) (first : ProbeStates) (past : List Event) (e : Event) : Prop :=
  (CarriesLatest cfg first past e ↔ JoinsSettled cfg first past e) ∧ SendsChange cfg past e

/-- The variables of the loop are what the events before tell. -/
structure Kept (cfg : Config) (first : ProbeStates) (past : List Event) (s : LoopState) :
    Prop where
  declared : s.declared = adopted (cfg.declaredCaps first) past
  registered : s.registeredId = registered past
  accepted : s.registeredId.isSome = true → acceptedList past = some s.declared
  faithful : Each (Faithful cfg first) past

/-- A part of a cycle keeps what the events tell. -/
def Keeps (cfg : Config) (first : ProbeStates) (p : Part) : Prop :=
  ∀ past s, Kept cfg first past s → Kept cfg first (past ++ (p s).1) (p s).2

theorem Keeps.then {p q : Part} (hp : Keeps cfg first p) (hq : Keeps cfg first q) :
    Keeps cfg first (p.then q) := by
  intro past s h
  unfold Part.then
  dsimp only
  split
  · exact hp past s h
  · rw [← List.append_assoc]
    exact hq _ _ (hp past s h)

theorem Kept.of_eq (h : Kept cfg first past s) (hdeclared : s'.declared = s.declared)
    (hid : s'.registeredId = s.registeredId) : Kept cfg first (past ++ []) s' := by
  rw [List.append_nil]
  exact ⟨hdeclared.trans h.declared, hid.trans h.registered,
    fun hsome => by rw [hdeclared]; exact h.accepted (hid ▸ hsome), h.faithful⟩

theorem faithful_round {states : ProbeStates} {patch : Option CapabilityPatch}
    (hpatch : ∀ p ∈ patch, p.capabilities = cfg.declaredCaps states)
    (hsends : SendsChange cfg past (.round states patch)) :
    Faithful cfg first past (.round states patch) := by
  have hlatest : latest first (past ++ [.round states patch]) = states := by
    rw [latest, List.foldl_append]
    rfl
  have hcarries : CarriesLatest cfg first past (.round states patch) := by
    intro caps hcaps
    rw [hlatest]
    cases patch with
    | none => cases hcaps
    | some p =>
        obtain rfl := Option.some.inj hcaps
        exact hpatch p rfl
  exact ⟨iff_of_true hcarries (fun data answer he => by cases he), hsends⟩

/-- A round without a `PATCH`, or whose `PATCH` is not answered, settles nothing. -/
theorem kept_concat_round {states : ProbeStates} {patch : Option CapabilityPatch}
    (h : Kept cfg first past s) (hpatch : ∀ p ∈ patch, p.accepted = false)
    (hround : Faithful cfg first past (.round states patch))
    (hdeclared : s'.declared = s.declared) (hid : s'.registeredId = s.registeredId) :
    Kept cfg first (past ++ [.round states patch]) s' := by
  have hlists : adopted (cfg.declaredCaps first) (past ++ [.round states patch]) =
        adopted (cfg.declaredCaps first) past ∧
      acceptedList (past ++ [.round states patch]) = acceptedList past := by
    unfold adopted acceptedList
    rw [List.foldl_append, List.foldl_append]
    cases patch with
    | none => exact ⟨rfl, rfl⟩
    | some p => simp [hpatch p rfl]
  have hregistered : registered (past ++ [.round states patch]) = registered past := by
    unfold registered
    rw [List.foldl_append]
    rfl
  refine ⟨?_, ?_, fun hsome => ?_, each_concat.mpr ⟨h.faithful, hround⟩⟩
  · rw [hdeclared, h.declared, hlists.1]
  · rw [hid, h.registered, hregistered]
  · rw [hlists.2, hdeclared]
    exact h.accepted (hid ▸ hsome)

theorem keeps_reprobe (c : Cycle) : Keeps cfg first (reprobe cfg c) := by
  intro past s h
  have hregistered := h.registered
  unfold reprobe
  split
  · dsimp only
    split
    · rename_i id hid
      rw [hid] at hregistered
      have haccepted := h.accepted (hid ▸ rfl)
      split
      · have hround : ∀ accepted, Faithful cfg first past (.round (cfg.probeStates c.passes)
            (some ⟨id, cfg.declaredCaps (cfg.probeStates c.passes), accepted⟩)) := by
          intro accepted
          refine faithful_round (fun p hp => Option.some.inj hp ▸ rfl) ?_
          intro states patch id' he hid' _
          obtain ⟨rfl, rfl⟩ := Event.round.inj he
          obtain rfl : id = id' := Option.some.inj (hregistered.trans hid')
          exact ⟨accepted, rfl⟩
        split
        · rename_i hpatched
          refine ⟨?_, ?_, fun _ => ?_, each_concat.mpr ⟨h.faithful, hround _⟩⟩
          · simp [adopted, hpatched]
          · simpa [registered] using h.registered
          · simp [acceptedList, hpatched]
        · rename_i hrefused
          refine kept_concat_round h (fun p hp => ?_) (hround _) rfl rfl
          obtain rfl := Option.some.inj hp
          exact Bool.eq_false_of_not_eq_true hrefused
      · rename_i hsame
        refine kept_concat_round h (fun p hp => by cases hp)
          (faithful_round (fun p hp => by cases hp) ?_) rfl rfl
        intro states patch id' he _ hchange
        obtain ⟨rfl, rfl⟩ := Event.round.inj he
        rw [haccepted, not_not.mp hsame] at hchange
        exact absurd rfl hchange
    · rename_i hid
      rw [hid] at hregistered
      refine kept_concat_round h (fun p hp => by cases hp)
        (faithful_round (fun p hp => by cases hp) ?_) rfl rfl
      intro states patch id' he hid' _
      rw [← hregistered] at hid'
      cases hid'
  · exact h.of_eq rfl rfl

theorem faithful_join {data : JoinData} {answer : Answer}
    (hdata : data.capabilities = adopted (cfg.declaredCaps first) past) :
    Faithful cfg first past (.join data answer) := by
  have hlatest : latest first (past ++ [.join data answer]) = latest first past := by
    rw [latest, List.foldl_append]
    rfl
  refine ⟨⟨fun h data' answer' he => ?_, fun h caps hcaps => ?_⟩, fun _ _ _ he => by cases he⟩
  · have hcaps := h data.capabilities rfl
    rw [hdata, hlatest] at hcaps
    exact hcaps
  · obtain rfl := Option.some.inj hcaps
    rw [hlatest, hdata]
    exact h data answer rfl

theorem keeps_tryJoin (c : Cycle) : Keeps cfg first (tryJoin cfg c) := by
  intro past s h
  unfold tryJoin
  split
  · exact h.of_eq rfl rfl
  · rename_i hid
    have hjoin : Faithful cfg first past (.join (joinData cfg c s.declared) c.joinAnswer) :=
      faithful_join h.declared
    dsimp only
    split
    · rename_i id hanswer
      refine ⟨?_, ?_, fun hsome => ?_, each_concat.mpr ⟨h.faithful, hjoin⟩⟩
      · simpa [adopted] using h.declared
      · simp [registered, hanswer]
      · simp [acceptedList, hanswer, hsome, joinData]
    · rename_i error hanswer
      refine ⟨?_, ?_, fun hsome => ?_, each_concat.mpr ⟨h.faithful, hjoin⟩⟩
      · simpa [adopted] using h.declared
      · simpa [registered, hanswer] using h.registered
      · rw [hid] at hsome
        cases hsome

theorem keeps_heartbeat (c : Cycle) : Keeps cfg first (heartbeat c) := by
  intro past s h
  unfold heartbeat
  split
  · exact h.of_eq rfl rfl
  · rename_i id hid
    have hbeat : Faithful cfg first past (.beat id c.beatHealth c.beatAnswer) :=
      ⟨iff_of_true (fun caps hcaps => by cases hcaps) (fun data answer he => by cases he),
        fun _ _ _ he => by cases he⟩
    dsimp only
    split
    · rename_i hunknown
      refine ⟨?_, ?_, fun hsome => ?_, each_concat.mpr ⟨h.faithful, hbeat⟩⟩
      · simpa [adopted] using h.declared
      · simp [registered, hunknown]
      · cases hsome
    · rename_i hknown
      refine ⟨?_, ?_, fun hsome => ?_, each_concat.mpr ⟨h.faithful, hbeat⟩⟩
      · simpa [adopted] using h.declared
      · simpa [registered, hknown] using h.registered
      · simpa [acceptedList] using h.accepted hsome

theorem keeps_beatWait (c : Cycle) : Keeps cfg first (beatWait c) :=
  fun _ _ h => h.of_eq rfl rfl

theorem keeps_loop (c : Cycle) : Keeps cfg first (loop cfg c) := by
  intro past s h
  unfold loop
  split
  · exact h.of_eq rfl rfl
  · exact (keeps_reprobe c).then ((keeps_tryJoin c).then
      ((keeps_heartbeat c).then (keeps_beatWait c))) past s h

theorem Kept.run (cycles : List Cycle) (h : Kept cfg first past s) :
    Kept cfg first (past ++ events cfg cycles s) ((loop cfg).after cycles s) := by
  induction cycles generalizing past s with
  | nil => exact h.of_eq rfl rfl
  | cons c cycles ih =>
      have hnext := ih (keeps_loop c past s h)
      rw [List.append_assoc] at hnext
      exact hnext

end Steps

theorem kept_start (cfg : Config) (time : Rat) (passes : String → Bool) :
    Kept cfg (cfg.probeStates passes) [] (cfg.start time passes) where
  declared := rfl
  registered := rfl
  accepted h := by cases h
  faithful := each_nil

/-! ## The declarations of a run -/

/-- A registered node sends a change at each round until the main has accepted it. Every
join and every `PATCH` carries what is to be declared after the most recent round if and
only if no join comes before a change that a round saw has been accepted, or is gone. -/
theorem connector_declares_iff (cfg : Config) (time : Rat) (passes : String → Bool)
    (cycles : List Cycle) :
    Each (CarriesLatest cfg (cfg.probeStates passes)) (events cfg cycles (cfg.start time passes)) ∧
        Each (SendsChange cfg) (events cfg cycles (cfg.start time passes)) ↔
      Each (JoinsSettled cfg (cfg.probeStates passes))
        (events cfg cycles (cfg.start time passes)) := by
  have hfaithful := ((kept_start cfg time passes).run cycles).faithful
  rw [List.nil_append] at hfaithful
  constructor
  · rintro ⟨hcarries, -⟩ before e after htrace
    exact (hfaithful before e after htrace).1.mp (hcarries before e after htrace)
  · intro hsettled
    refine ⟨fun before e after htrace => ?_, fun before e after htrace => ?_⟩
    · exact (hfaithful before e after htrace).1.mpr (hsettled before e after htrace)
    · exact (hfaithful before e after htrace).2

/-! ## A change seen before the join -/

def probedWorker : Config where
  nodeId := "worker-1"
  capabilities := ["shell"]
  capabilityProbes := [{ name := "github-write", intervalS := 20 }]

/-- A cycle in which the main is not reached. -/
def unreached (time : Rat) (passes : Bool) : Cycle where
  time := time
  probedAt := time
  passes := fun _ => passes
  patchAccepted := false
  joinHealth := {}
  joinAnswer := .unreachable
  beatHealth := {}
  beatAnswer := .unreachable
  stop := false

/-- The probe passes at first, and fails at its second round. -/
def lostBeforeJoin : List Cycle :=
  [unreached 0 true, unreached 20 false]

/-- The join after the second round still declares the capability. -/
theorem lost_before_join_declared :
    ¬(Each (CarriesLatest probedWorker (probedWorker.probeStates fun _ => true))
        (events probedWorker lostBeforeJoin (probedWorker.start 0 fun _ => true)) ∧
      Each (SendsChange probedWorker)
        (events probedWorker lostBeforeJoin (probedWorker.start 0 fun _ => true))) := by
  rintro ⟨hcarries, -⟩
  let declared := probedWorker.declaredCaps (probedWorker.probeStates fun _ => true)
  have htrace : events probedWorker lostBeforeJoin (probedWorker.start 0 fun _ => true) =
      [.join (joinData probedWorker (unreached 0 true) declared) .unreachable,
        .round (probedWorker.probeStates fun _ => false) none] ++
      .join (joinData probedWorker (unreached 20 false) declared) .unreachable :: [] := by
    have hinterval : probedWorker.probeInterval = 20 := by decide
    have hearly : ¬(20 : Rat) ≤ 0 := by decide +kernel
    have hprobes : probedWorker.capabilityProbes ≠ [] := by decide
    simp [events, lostBeforeJoin, Machine.answers, loop, Part.then, reprobe, tryJoin, heartbeat,
      beatWait, unreached, Config.start, Answer.nodeId, presentId, hinterval,
      hearly, hprobes, declared]
  have hjoin := hcarries _ _ _ htrace _ rfl
  revert hjoin
  decide +kernel

end WorkerConnector

end HermesCluster
