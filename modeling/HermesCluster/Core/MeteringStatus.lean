import HermesCluster.Core.Metering
import HermesCluster.Lib.PyValue
/-!
# What the metering poller shows

One poll cycle of `core/metering.py`, from the stored configuration and the reply of the
service, and the status page. A cycle without credentials leaves the stored sample
alone, and an alert is shown only from the cycle that raises it. Delivery to the hooks,
the thread and the error counters are left out.
-/

namespace HermesCluster

/-- What a cycle does with a value or a text that Python's tables decide: `str(v)`,
`type(v).__name__` and `float(s)`. -/
class JsonText where
  str : Json → String
  typeName : Json → String
  float : String → Option Rat

/-- An alert, with what the cycle adds to it: the total and the seats. -/
structure SentMetering extends MeteringAlert where
  detail : Option (Rat × List Seat) := none

/-- The stored sample. -/
structure MeteringSample where
  source : String := "alibaba-modelstudio-tokenplan"
  seats : List Seat := []
  creditsRemainingTotal : Rat := 0
  fetchedAt : Option String := none
  lastError : Option String := none
  alertActive : Option SentMetering := none

namespace Metering

section Poller

variable [Unicode] [JsonText]

/-! ## Settings -/

/-- `int(v)`. -/
def intOf : Json → Option Int
  | .bool b => some (if b then 1 else 0)
  | .num q => some (PyFloat.truncate q)
  | .str s => Decimal.int s
  | _ => none

omit [Unicode] in
/-- `float(v)`. -/
def floatOf : Json → Option Rat
  | .bool b => some (if b then 1 else 0)
  | .num q => some q
  | .str s => JsonText.float s
  | _ => none

/-- `d.get(key, default)`. -/
def field (fields : List (String × Json)) (key : String) (default : Json) : Json :=
  (fields.lookup key).getD default

/-- The fields of a section; it is malformed where a number cannot be read. -/
def readSection (fields : List (String × Json)) : Option MeteringConfig := do
  let base : MeteringConfig := {}
  let intervalS ← intOf (field fields "interval_s" (.num base.intervalS))
  let alertBelow ← floatOf (field fields "alert_below" (.num base.alertBelow))
  let failThreshold ← intOf (field fields "fail_threshold" (.num base.failThreshold))
  let httpTimeout ← intOf (field fields "http_timeout" (.num base.httpTimeout))
  pure
    { enabled := (field fields "enabled" (.bool base.enabled)).truthy
      intervalS := intervalS
      alertBelow := alertBelow
      failThreshold := failThreshold
      host := JsonText.str (field fields "host" (.str base.host))
      apiVersion := JsonText.str (field fields "api_version" (.str base.apiVersion))
      project := JsonText.str (field fields "project" (.str base.project))
      akIdSecret := JsonText.str (field fields "ak_id_secret" (.str base.akIdSecret))
      akSecretSecret := JsonText.str (field fields "ak_secret_secret" (.str base.akSecretSecret))
      adcTokenFile := JsonText.str (field fields "adc_token_file" (.str base.adcTokenFile))
      httpTimeout := httpTimeout }

/-- `parse_metering_settings`: a malformed section has no settings. -/
def parseMeteringSettings : Json → Option MeteringConfig
  | .obj fields =>
      match field fields "metering" .null with
      | .null => some {}
      | .obj found => readSection found
      | _ => none
  | _ => some {}

/-! ## Seats -/

omit [Unicode] in
/-- `_as_float`. -/
def asFloat : Json → Option Rat
  | .num q => some q
  | .str s => JsonText.float s
  | _ => none

/-- `a or b`. -/
def orElse (a b : Json) : Json :=
  if a.truthy then a else b

/-- `d.get("Items") or d.get("Seats")`. -/
def itemsOf (fields : List (String × Json)) : Json :=
  orElse (field fields "Items" .null) (field fields "Seats" .null)

omit [Unicode] in
/-- What the loop over `seat.get("EquityList") or []` meets; the characters of a text and
the keys of an object are no objects. -/
def equityOf (seat : List (String × Json)) : Except String (List Json) :=
  let equity := field seat "EquityList" .null
  if equity.truthy then
    match equity with
    | .arr entries => .ok entries
    | .str _ | .obj _ => .ok []
    | v => .error ("'" ++ JsonText.typeName v ++ "' object is not iterable")
  else .ok []

omit [Unicode] in
/-- One entry of a seat is added in. -/
def addEquity (seat : Seat) : Json → Seat
  | .obj eq =>
      let ce := field eq "CycleEndTime" .null
      { seat with
        total := seat.total + (asFloat (field eq "CycleTotalValue" .null)).getD 0
        surplus := seat.surplus + (asFloat (field eq "CycleSurplusValue" .null)).getD 0
        cycleEnd := seat.cycleEnd.or (if ce.truthy then some ce else none) }
  | _ => seat

omit [Unicode] in
/-- The entry of an item, if it is an object. -/
def seatOf (idx : Nat) : Json → Except String (Option Seat)
  | .obj seat => do
      let equity ← equityOf seat
      let seatId := JsonText.str (field seat "SeatId" (field seat "SeatName" (.num idx)))
      pure (some (equity.foldl addEquity { seatId := seatId }))
  | _ => pure none

/-- Where the list of seats is looked for. -/
def seatItems (raw : Json) : Except String (List Json) :=
  let data := match raw with
    | .obj fields => field fields "Data" .null
    | _ => .null
  let inner := match data with
    | .obj fields => itemsOf fields
    | _ => .null
  let outer := match inner, raw with
    | .null, .obj fields => itemsOf fields
    | items, _ => items
  match outer, data with
  | .arr items, _ | _, .arr items => .ok items
  | _, _ => .error "seat-detail: no Items list in response"

omit [Unicode] in
/-- `parse_seat_details`. -/
def parseSeatDetails (raw : Json) : Except String (List Seat) := do
  let items ← seatItems raw
  let seats ← items.zipIdx.mapM (fun (item, idx) => seatOf idx item)
  let out := seats.reduceOption
  if out.isEmpty then .error "seat-detail: Items list was empty" else .ok out

/-! ## A cycle -/

/-- A client is what its call of `get_seat_details` comes to. -/
abbrev MeteringClient : Type := Except String Json

/-- What a cycle finds: the stored configuration, what it takes for the client, and
the time. -/
structure MeteringInput where
  config : Json
  clientOverride : Option (MeteringConfig → Option MeteringClient × Option String) := none
  loadCreds : MeteringConfig → Except String (String × String)
  clientFactory : String → String → MeteringConfig → Except String MeteringClient
  now : String

/-- What the poller keeps between its cycles. -/
structure MeteringPoller where
  creds : Option (String × String) := none
  credsTried : Bool := false
  credError : Option String := none
  sample : Option MeteringSample := none
  alertState : MeteringState := {}

/-- The dictionary a cycle returns; an absent key is `none`. -/
structure MeteringResult where
  ok : Bool
  stage : Option String := none
  enabled : Option Bool := none
  intervalSeconds : Option Int := none
  alert : Option SentMetering := none

/-- The credentials are loaded once; a failure is tried again in the next cycle. -/
def tryCreds (settings : MeteringConfig) (input : MeteringInput) (poller : MeteringPoller) :
    MeteringPoller :=
  if poller.credsTried then poller
  else
    match input.loadCreds settings with
    | .ok creds => { poller with creds := some creds, credsTried := true }
    | .error error =>
        { poller with creds := none, credError := some (Text.take 300 error), credsTried := false }

/-- `_client`. -/
def clientOf (settings : MeteringConfig) (input : MeteringInput) (poller : MeteringPoller) :
    (Option MeteringClient × Option String) × MeteringPoller :=
  match input.clientOverride with
  | some client => (client settings, poller)
  | none =>
      let poller := tryCreds settings input poller
      match poller.creds with
      | none => ((none, some (poller.credError.getD "credentials unavailable")), poller)
      | some (ak, sk) =>
          match input.clientFactory ak sk settings with
          | .ok client => ((some client, none), poller)
          | .error error => ((none, some (Text.take 300 error)), poller)

/-- What an enabled cycle came to before it looks at alerts. -/
inductive Fetch where
  | noClient
  | failed (error : String)
  | fetched (seats : List Seat)

/-- The seats, where there are some. -/
def Fetch.seats : Fetch → Option (List Seat)
  | fetched seats => some seats
  | _ => none

def fetch (settings : MeteringConfig) (input : MeteringInput) (poller : MeteringPoller) :
    Fetch × MeteringPoller :=
  match clientOf settings input poller with
  | ((none, _), poller) => (.noClient, poller)
  | ((some client, _), poller) =>
      match client >>= parseSeatDetails with
      | .ok seats => (.fetched seats, poller)
      | .error error => (.failed error, poller)

/-- What becomes of the stored sample. -/
def Fetch.record (now : String) : Fetch → Option MeteringSample → Option MeteringSample
  | noClient, sample => sample
  | failed error, sample => some { sample.getD {} with lastError := some (Text.take 300 error) }
  | fetched seats, _ =>
      some { seats := seats, creditsRemainingTotal := totalSurplus seats, fetchedAt := some now }

/-- The rest of an enabled cycle. -/
def settle (settings : MeteringConfig) (now : String) (f : Fetch) (poller : MeteringPoller) :
    MeteringResult × MeteringPoller :=
  let sample := f.record now poller.sample
  let (alert, alertState) := evaluateAlert settings f.seats poller.alertState
  let sent := alert.map (fun alert =>
    { alert with detail := f.seats.map (fun seats => (totalSurplus seats, seats)) : SentMetering })
  ({ ok := f.seats.isSome, intervalSeconds := some settings.intervalS, alert := sent },
   { poller with
     sample := if sent.isSome then sample.map ({ · with alertActive := sent }) else sample
     alertState := alertState })

/-- The settings of a cycle that is enabled. -/
def enabledSettings (input : MeteringInput) : Option MeteringConfig :=
  (parseMeteringSettings input.config).filter MeteringConfig.enabled

/-- `poll_once`. -/
def pollOnce (input : MeteringInput) (poller : MeteringPoller) :
    MeteringResult × MeteringPoller :=
  match parseMeteringSettings input.config with
  | none => ({ ok := false, stage := some "config" }, poller)
  | some settings =>
      if settings.enabled = false then
        ({ ok := true, enabled := some false,
           intervalSeconds := some (min settings.intervalS 60) }, poller)
      else
        let (f, poller) := fetch settings input poller
        settle settings input.now f poller

/-- The dictionary of `status`, without what the thread and the error counters say. -/
structure MeteringStatus where
  enabled : Bool
  intervalS : Int
  alertBelow : Rat
  failThreshold : Int
  creditsAvailable : Bool
  seats : List Seat
  creditsRemainingTotal : Option Rat
  fetchedAt : Option String
  lastError : Option String
  alertActive : Option SentMetering

/-- `status`. -/
def status (config : Json) (poller : MeteringPoller) : MeteringStatus :=
  let settings := parseMeteringSettings config
  { enabled := settings.any MeteringConfig.enabled
    intervalS := (settings.map MeteringConfig.intervalS).getD 900
    alertBelow := (settings.map MeteringConfig.alertBelow).getD 25000
    failThreshold := (settings.map MeteringConfig.failThreshold).getD 3
    creditsAvailable := poller.sample.any (fun sample => sample.lastError.isNone)
    seats := (poller.sample.map MeteringSample.seats).getD []
    creditsRemainingTotal := poller.sample.map MeteringSample.creditsRemainingTotal
    fetchedAt := poller.sample.bind MeteringSample.fetchedAt
    lastError := poller.sample.bind MeteringSample.lastError
    alertActive := poller.sample.bind MeteringSample.alertActive }

/-! ## What the page is to show -/

/-- An enabled cycle: its settings, and the seats that it fetched. -/
structure MeteringCycle where
  settings : MeteringConfig
  seats : Option (List Seat)

/-- What is seen of a cycle from outside, if it is enabled. -/
def observe (input : MeteringInput) (poller : MeteringPoller) : Option MeteringCycle :=
  (enabledSettings input).map
    (fun settings => ⟨settings, (fetch settings input poller).1.seats⟩)

/-- The poller as a machine; with the answer of a cycle goes what is seen of it. -/
def metered : Machine MeteringPoller MeteringInput (Option MeteringCycle × MeteringResult) :=
  fun input poller =>
    ((observe input poller, (pollOnce input poller).1), (pollOnce input poller).2)

/-- The enabled cycles of a run from the start. -/
def cyclesOf (inputs : List MeteringInput) : List MeteringCycle :=
  (metered.answers inputs {}).filterMap (fun x => x.2.1)

/-- How many of the latest cycles failed in a row. -/
def failureStreak (cycles : List MeteringCycle) : Nat :=
  (cycles.rtakeWhile (fun c => c.seats.isNone)).length

/-- The condition of an alert in a cycle: the surplus is too low, or the streak of
failures has reached the threshold. -/
def MeteringCycle.Alerting (c : MeteringCycle) (streak : Nat) : Prop :=
  match c.seats with
  | some seats => totalSurplus seats < c.settings.alertBelow
  | none => c.settings.failThreshold ≤ streak

/-- The page shows what is true of the most recent enabled cycle. -/
structure ShowsTruth (cycles : List MeteringCycle) (page : MeteringStatus) : Prop where
  credits : page.creditsAvailable = true ↔ ∃ c ∈ cycles.getLast?, c.seats.isSome = true
  alert : page.alertActive.isSome = true ↔
    ∃ c ∈ cycles.getLast?, c.Alerting (failureStreak cycles)

/-- Whatever is configured by then, the page shows the truth after these cycles. -/
def TruthfulAfter (inputs : List MeteringInput) : Prop :=
  ∀ config, ShowsTruth (cyclesOf inputs) (status config (metered.after inputs {}))

/-! ## Which cycles leave it true -/

section Coherent

/-- An alert is shown. -/
def MeteringPoller.Alarmed (poller : MeteringPoller) : Prop :=
  ∃ sample ∈ poller.sample, sample.alertActive.isSome = true

/-- The alert of one more failure has been raised already. -/
def MeteringPoller.Stands (settings : MeteringConfig) (poller : MeteringPoller) : Prop :=
  poller.alertState.lastAlertKey =
    some (.failed ((poller.alertState.consecutiveFailures + 1) / max settings.failThreshold 1))

/-- One more failure reaches the threshold. -/
def MeteringPoller.Reaches (settings : MeteringConfig) (poller : MeteringPoller) : Prop :=
  settings.failThreshold ≤ poller.alertState.consecutiveFailures + 1

/-- The cycles after which the page is right. Without a client: a sample must not stand
that was fetched without an error; an alert must be shown already, or be raised with a
sample to show it by, if and only if the threshold is reached. After a failed fetch the
same, with a sample in any case. After a success: a surplus that is too low must not be
what was raised last. -/
def Coherent (settings : MeteringConfig) (poller : MeteringPoller) : Fetch → Prop
  | .noClient =>
      (∀ sample ∈ poller.sample, sample.lastError ≠ none) ∧
        (poller.Reaches settings →
          (poller.Stands settings → poller.Alarmed) ∧
            (¬poller.Stands settings → poller.sample ≠ none)) ∧
        (¬poller.Reaches settings → ¬poller.Alarmed)
  | .failed _ =>
      (poller.Reaches settings → poller.Stands settings → poller.Alarmed) ∧
        (¬poller.Reaches settings → ¬poller.Alarmed)
  | .fetched seats =>
      totalSurplus seats < settings.alertBelow →
        poller.alertState.lastAlertKey ≠ some (.low (hundredths (totalSurplus seats)))

variable {settings : MeteringConfig} {poller : MeteringPoller} {input : MeteringInput}
  {f : Fetch} {cycles : List MeteringCycle} {c : MeteringCycle}

omit [Unicode] [JsonText] in
theorem isSome_evaluateFailure :
    (evaluateFailure settings poller.alertState).1.isSome = true ↔
      poller.Reaches settings ∧ ¬poller.Stands settings := by
  obtain ⟨-, ⟨hreached, hnew, hkind, -⟩ | ⟨hnot, hnone, -⟩⟩ :=
    evaluateFailure_cases settings poller.alertState
  · refine iff_of_true ?_ ⟨hreached, hnew⟩
    obtain ⟨alert, halert, -⟩ := Option.map_eq_some_iff.mp hkind
    rw [halert]
    rfl
  · refine iff_of_false ?_ hnot
    rw [hnone]
    exact Bool.false_ne_true

omit [Unicode] [JsonText] in
theorem isSome_evaluateSeats {seats : List Seat} :
    (evaluateSeats settings seats poller.alertState).1.isSome = true ↔
      totalSurplus seats < settings.alertBelow ∧
        poller.alertState.lastAlertKey ≠ some (.low (hundredths (totalSurplus seats))) := by
  obtain ⟨-, ⟨hlow, hnew, hkind, -⟩ | ⟨-, hkey, hnone, -⟩ | ⟨hhealthy, hnone, -⟩⟩ :=
    evaluateSeats_cases settings seats poller.alertState
  · refine iff_of_true ?_ ⟨hlow, hnew⟩
    obtain ⟨alert, halert, -⟩ := Option.map_eq_some_iff.mp hkind
    rw [halert]
    rfl
  · rw [hnone]
    exact iff_of_false Bool.false_ne_true (fun h => h.2 hkey)
  · rw [hnone]
    exact iff_of_false Bool.false_ne_true (fun h => absurd h.1 (not_lt.mpr hhealthy))

omit [Unicode] [JsonText] in
/-- A cycle leaves the sample that it records, with the alert that it raises. -/
theorem sample_settle (now : String) :
    (settle settings now f poller).2.sample =
      (f.record now poller.sample).map (fun sample =>
        if (evaluateAlert settings f.seats poller.alertState).1.isSome = true then
          { sample with alertActive := (settle settings now f poller).1.alert }
        else sample) := by
  unfold settle
  dsimp only
  rw [Option.isSome_map]
  split
  · rfl
  · exact Option.map_id'.symm

theorem creditsAvailable_settle (config : Json) (now : String) :
    (status config (settle settings now f poller).2).creditsAvailable =
      (f.record now poller.sample).any (fun sample => sample.lastError.isNone) := by
  change Option.any _ (settle settings now f poller).2.sample = _
  rw [sample_settle]
  cases f.record now poller.sample with
  | none => rfl
  | some sample =>
      rw [Option.map_some, Option.any_some, Option.any_some]
      split <;> rfl

theorem alertActive_settle (config : Json) (now : String) :
    (status config (settle settings now f poller).2).alertActive.isSome = true ↔
      ∃ sample ∈ f.record now poller.sample,
        (evaluateAlert settings f.seats poller.alertState).1.isSome = true ∨
          sample.alertActive.isSome = true := by
  change (Option.bind (settle settings now f poller).2.sample _).isSome = true ↔ _
  have hsent : (settle settings now f poller).1.alert.isSome =
      (evaluateAlert settings f.seats poller.alertState).1.isSome := Option.isSome_map
  rw [sample_settle]
  cases f.record now poller.sample with
  | none => exact iff_of_false Bool.false_ne_true (fun ⟨_, h, _⟩ => by cases h)
  | some sample =>
      rw [Option.map_some, Option.bind_some]
      by_cases hraised : (evaluateAlert settings f.seats poller.alertState).1.isSome = true
      · rw [if_pos hraised]
        exact iff_of_true (hsent.trans hraised) ⟨sample, rfl, .inl hraised⟩
      · rw [if_neg hraised]
        constructor
        · exact fun h => ⟨sample, rfl, .inr h⟩
        · rintro ⟨_, ⟨⟩, h⟩
          exact h.resolve_left hraised

omit [Unicode] [JsonText] in
theorem failureStreak_concat : failureStreak (cycles ++ [c]) =
    if c.seats.isNone = true then failureStreak cycles + 1 else 0 := by
  let p : MeteringCycle → Bool := fun c => c.seats.isNone
  unfold failureStreak
  split
  · rename_i hfailed
    rw [List.rtakeWhile_concat_pos p cycles c hfailed, List.length_append,
      List.length_singleton]
  · rename_i hfetched
    rw [List.rtakeWhile_concat_neg p cycles c hfetched]
    rfl

omit [Unicode] [JsonText] in
theorem raised_or_shown_iff {reached stands shown : Prop} :
    (reached ∧ ¬stands ∨ shown ↔ reached) ↔
      (reached → stands → shown) ∧ (¬reached → ¬shown) := by
  tauto

omit [Unicode] [JsonText] in
/-- What the page shows of a failure: an alert that is raised with a sample to show it by,
or one that was shown before. -/
theorem alarm_shown_iff (sample : Option MeteringSample) {raised reached stands : Prop}
    (hraised : raised ↔ reached ∧ ¬stands) :
    ((∃ s ∈ sample, raised ∨ s.alertActive.isSome = true) ↔ reached) ↔
      (reached →
          (stands → ∃ s ∈ sample, s.alertActive.isSome = true) ∧
            (¬stands → sample ≠ none)) ∧
        (¬reached → ¬∃ s ∈ sample, s.alertActive.isSome = true) := by
  cases sample with
  | none =>
      simp only [Option.mem_def, reduceCtorEq, false_and, exists_false, ne_eq, not_true]
      tauto
  | some s =>
      simp only [Option.mem_def, Option.some.injEq, exists_eq_left', ne_eq, reduceCtorEq,
        not_false_eq_true, hraised, implies_true, and_true]
      exact raised_or_shown_iff

/-- An enabled cycle leaves the page right exactly if it is coherent with the state. -/
theorem showsTruth_settle_iff (config : Json) (now : String)
    (hstreak : poller.alertState.consecutiveFailures = failureStreak cycles) :
    ShowsTruth (cycles ++ [⟨settings, f.seats⟩]) (status config (settle settings now f poller).2) ↔
      Coherent settings poller f := by
  have hcount : ∀ P : MeteringCycle → Prop,
      (∃ c ∈ (cycles ++ [(⟨settings, f.seats⟩ : MeteringCycle)]).getLast?, P c) ↔
        P ⟨settings, f.seats⟩ := by
    intro P
    rw [List.getLast?_concat]
    exact ⟨fun ⟨_, h, hP⟩ => by cases h; exact hP, fun h => ⟨_, rfl, h⟩⟩
  have hshows : ShowsTruth (cycles ++ [⟨settings, f.seats⟩])
      (status config (settle settings now f poller).2) ↔
      ((f.record now poller.sample).any (fun sample => sample.lastError.isNone) = true ↔
          f.seats.isSome = true) ∧
        ((∃ sample ∈ f.record now poller.sample,
          (evaluateAlert settings f.seats poller.alertState).1.isSome = true ∨
            sample.alertActive.isSome = true) ↔
          MeteringCycle.Alerting ⟨settings, f.seats⟩
            (failureStreak (cycles ++ [⟨settings, f.seats⟩]))) := by
    constructor
    · rintro ⟨hcredits, halert⟩
      rw [creditsAvailable_settle, hcount] at hcredits
      rw [alertActive_settle, hcount] at halert
      exact ⟨hcredits, halert⟩
    · rintro ⟨hcredits, halert⟩
      refine ⟨?_, ?_⟩
      · rw [creditsAvailable_settle, hcount]
        exact hcredits
      · rw [alertActive_settle, hcount]
        exact halert
  have hreaches : settings.failThreshold ≤ ((failureStreak cycles + 1 : Nat) : Int) ↔
      poller.Reaches settings := by
    rw [MeteringPoller.Reaches, hstreak]
    push_cast
    rfl
  rw [hshows, failureStreak_concat]
  cases f with
  | noClient =>
      have hcredits : (poller.sample.any (fun sample => sample.lastError.isNone) = true ↔
          (none : Option (List Seat)).isSome = true) ↔
          ∀ sample ∈ poller.sample, sample.lastError ≠ none := by
        cases poller.sample with
        | none => simp
        | some sample => simp
      refine and_congr hcredits (Iff.trans ?_
        (alarm_shown_iff poller.sample isSome_evaluateFailure))
      exact iff_congr Iff.rfl hreaches
  | failed error =>
      have hactive : (∃ sample ∈ Fetch.record now (.failed error) poller.sample,
          (evaluateAlert settings none poller.alertState).1.isSome = true ∨
            sample.alertActive.isSome = true) ↔
          (evaluateFailure settings poller.alertState).1.isSome = true ∨ poller.Alarmed := by
        unfold MeteringPoller.Alarmed Fetch.record
        cases poller.sample with
        | none => simp [evaluateAlert]
        | some sample => simp [evaluateAlert]
      have hcredits : ((Fetch.record now (.failed error) poller.sample).any
          (fun sample => sample.lastError.isNone) = true ↔
            (none : Option (List Seat)).isSome = true) := by
        simp [Fetch.record]
      refine (and_iff_right hcredits).trans ?_
      refine (iff_congr hactive hreaches).trans ?_
      rw [isSome_evaluateFailure]
      exact raised_or_shown_iff
  | fetched seats =>
      have hcredits : ((Fetch.record now (.fetched seats) poller.sample).any
          (fun sample => sample.lastError.isNone) = true ↔ (some seats).isSome = true) := by
        simp [Fetch.record]
      have hactive : (∃ sample ∈ Fetch.record now (.fetched seats) poller.sample,
          (evaluateAlert settings (some seats) poller.alertState).1.isSome = true ∨
            sample.alertActive.isSome = true) ↔
          (evaluateSeats settings seats poller.alertState).1.isSome = true := by
        simp [Fetch.record, evaluateAlert]
      refine (and_iff_right hcredits).trans ?_
      refine (iff_congr hactive Iff.rfl).trans ?_
      rw [isSome_evaluateSeats]
      exact ⟨fun h hlow => (h.mpr hlow).2, fun h => ⟨And.left, fun hlow => ⟨hlow, h hlow⟩⟩⟩

/-! ## Runs -/

omit [Unicode] in
/-- Fetching keeps the sample and the bookkeeping. -/
theorem poller_fetch (settings : MeteringConfig) (input : MeteringInput)
    (poller : MeteringPoller) :
    ∃ creds tried error, (fetch settings input poller).2 =
      { poller with creds := creds, credsTried := tried, credError := error } := by
  have htry : ∃ creds tried error, tryCreds settings input poller =
      { poller with creds := creds, credsTried := tried, credError := error } := by
    unfold tryCreds
    split
    · exact ⟨_, _, _, rfl⟩
    · split <;> exact ⟨_, _, _, rfl⟩
  have hclient : ∃ creds tried error, (clientOf settings input poller).2 =
      { poller with creds := creds, credsTried := tried, credError := error } := by
    unfold clientOf
    split
    · exact ⟨_, _, _, rfl⟩
    · dsimp only
      split
      · exact htry
      · split
        · exact htry
        · exact htry
  unfold fetch
  split
  · rename_i hout
    rw [hout] at hclient
    exact hclient
  · rename_i hout
    rw [hout] at hclient
    split
    · exact hclient
    · exact hclient

theorem pollOnce_of_disabled (h : enabledSettings input = none) :
    (pollOnce input poller).2 = poller := by
  unfold pollOnce
  unfold enabledSettings at h
  cases hparse : parseMeteringSettings input.config with
  | none => rfl
  | some settings =>
      rw [hparse, Option.filter_eq_none_iff] at h
      have hoff : settings.enabled = false := by simpa using h settings rfl
      simp only [if_pos hoff]

theorem pollOnce_of_enabled (h : enabledSettings input = some settings) :
    pollOnce input poller = settle settings input.now (fetch settings input poller).1
      (fetch settings input poller).2 := by
  obtain ⟨hparse, hon⟩ := Option.filter_eq_some_iff.mp h
  unfold pollOnce
  rw [hparse]
  simp only [hon, Bool.true_eq_false, if_false]

theorem cyclesOf_concat (past : List MeteringInput) (input : MeteringInput) :
    cyclesOf (past ++ [input]) =
      cyclesOf past ++ (observe input (metered.after past {})).toList := by
  unfold cyclesOf
  rw [metered.answers_concat, List.filterMap_append]
  refine congrArg _ ?_
  cases hseen : observe input (metered.after past {}) with
  | none => simp [metered, hseen]
  | some c => simp [metered, hseen]

omit [Unicode] [JsonText] in
theorem failures_settle (now : String)
    (hstreak : poller.alertState.consecutiveFailures = failureStreak cycles) :
    (settle settings now f poller).2.alertState.consecutiveFailures =
      failureStreak (cycles ++ [⟨settings, f.seats⟩]) := by
  rw [failureStreak_concat]
  change (evaluateAlert settings f.seats poller.alertState).2.consecutiveFailures = _
  cases hseats : f.seats with
  | none =>
      obtain ⟨hcount, -⟩ := evaluateFailure_cases settings poller.alertState
      exact hcount.trans (congrArg (· + 1) hstreak)
  | some seats => exact (evaluateSeats_cases settings seats poller.alertState).1

theorem failures_after (past : List MeteringInput) :
    (metered.after past {}).alertState.consecutiveFailures = failureStreak (cyclesOf past) := by
  induction past using List.reverseRecOn with
  | nil => rfl
  | append_singleton past input ih =>
      rw [metered.after_concat, cyclesOf_concat]
      change (pollOnce input (metered.after past {})).2.alertState.consecutiveFailures = _
      unfold observe
      cases hsettings : enabledSettings input with
      | none =>
          rw [pollOnce_of_disabled hsettings, Option.map_none, Option.toList_none,
            List.append_nil]
          exact ih
      | some settings =>
          obtain ⟨creds, tried, error, hpoller⟩ :=
            poller_fetch settings input (metered.after past {})
          rw [pollOnce_of_enabled hsettings, Option.map_some, Option.toList_some, hpoller]
          exact failures_settle input.now ih

/-- A cycle after cycles after which the page was right. -/
theorem truthfulAfter_concat (past : List MeteringInput) (input : MeteringInput)
    (h : TruthfulAfter past) :
    TruthfulAfter (past ++ [input]) ↔
      ∀ settings ∈ enabledSettings input,
        Coherent settings (metered.after past {})
          (fetch settings input (metered.after past {})).1 := by
  unfold TruthfulAfter
  rw [metered.after_concat, cyclesOf_concat]
  change (∀ config, ShowsTruth _ (status config
    (pollOnce input (metered.after past {})).2)) ↔ _
  unfold observe
  cases hsettings : enabledSettings input with
  | none =>
      rw [pollOnce_of_disabled hsettings, Option.map_none, Option.toList_none, List.append_nil]
      exact iff_of_true h (fun settings hsettings => by cases hsettings)
  | some settings =>
      obtain ⟨creds, tried, error, hpoller⟩ :=
        poller_fetch settings input (metered.after past {})
      rw [pollOnce_of_enabled hsettings, Option.map_some, Option.toList_some, hpoller]
      constructor
      · rintro hall _ ⟨⟩
        exact (showsTruth_settle_iff .null input.now (failures_after past)).mp (hall .null)
      · intro hcoherent config
        exact (showsTruth_settle_iff config input.now (failures_after past)).mpr
          (hcoherent settings rfl)

end Coherent

end Poller

section LowTwice

local instance asciiCredits : Unicode := Unicode.ascii
local instance noNumerals : JsonText := ⟨fun _ => "", fun _ => "", fun _ => none⟩

/-- A cycle that finds twelve credits left. -/
def twelveCredits : MeteringInput where
  config := .obj [("metering", .obj [("enabled", .bool true)])]
  loadCreds _ := .ok ("ak", "sk")
  clientFactory _ _ _ := .ok (.ok (.obj [("Data", .obj [("Items", .arr [.obj
    [("EquityList", .arr [.obj [("CycleSurplusValue", .num 12)]])]])])]))
  now := "2026-09-14T00:00:00+00:00"

end LowTwice

end Metering

end HermesCluster
