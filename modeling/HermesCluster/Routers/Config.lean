import HermesCluster.Lib.Schema
/-!
# The config router

`routers/config.py`: the stored configuration is shown with its tokens redacted, and
an update is parsed by `ConfigJSON`, checked and stored.
-/

namespace HermesCluster

/-! ## The model (`models/__init__.py`) -/

section ConfigModel

def clusterConfigJSON : Schema.Fields :=
  [("id", .scalar .str, .str "cluster_default"), ("role", .scalar .str, .str "main"),
    ("endpoint", .scalar .str, .str ""), ("token", .scalar .str, .str "")]

def nodeConfigJSON : Schema.Fields :=
  [("id", .scalar .str, .str "node_main"), ("name", .scalar .str, .str "main-node"),
    ("capabilities", .list (.scalar .str), .arr [])]

def serverConfigJSON : Schema.Fields :=
  [("bind", .scalar .str, .str "0.0.0.0"), ("port", .scalar .int, .num 8787)]

def leaseConfigJSON : Schema.Fields :=
  [("ttl", .scalar .str, .str "60s"), ("scan_rate", .scalar .str, .str "10s")]

def watchdogConfigJSON : Schema.Fields :=
  [("check_interval", .scalar .str, .str "5s"), ("degraded_after", .scalar .str, .str "15s"),
    ("offline_after", .scalar .str, .str "30s")]

def tlsConfigJSON : Schema.Fields :=
  [("enabled", .scalar .bool, .bool false), ("cert_file", .scalar .str, .str ""),
    ("key_file", .scalar .str, .str "")]

def heartbeatConfigJSON : Schema.Fields :=
  [("interval", .scalar .str, .str "30s"), ("lease_timeout", .scalar .str, .str "120s")]

def reconnectConfigJSON : Schema.Fields :=
  [("initial_interval", .scalar .str, .str "1s"), ("max_interval", .scalar .str, .str "60s"),
    ("multiplier", .scalar .float, .num 2)]

def federationConfigJSON : Schema.Fields :=
  [("enabled", .scalar .bool, .bool true), ("ping_interval", .scalar .str, .str "30s"),
    ("token", .scalar .str, .str "")]

def telemetryConfigJSON : Schema.Fields :=
  [("enabled", .scalar .bool, .bool false), ("exporter", .scalar .str, .str "otlp"),
    ("endpoint", .scalar .str, .str ""), ("service_name", .scalar .str, .str "hermes-cluster"),
    ("sample_rate", .scalar .float, .num 1), ("batch_timeout", .scalar .str, .str "5s")]

/-- A section of the configuration and its fields. -/
abbrev ConfigSection : Type := String × Schema.Fields

def configSections : List ConfigSection :=
  [("cluster", clusterConfigJSON), ("node", nodeConfigJSON), ("server", serverConfigJSON),
    ("lease", leaseConfigJSON), ("watchdog", watchdogConfigJSON), ("tls", tlsConfigJSON),
    ("heartbeat", heartbeatConfigJSON), ("reconnect", reconnectConfigJSON),
    ("federation", federationConfigJSON), ("telemetry", telemetryConfigJSON)]

/-- A section's model drops keys it does not know. -/
def ConfigSection.field (s : ConfigSection) : String × Schema × Json :=
  (s.1, .model false s.2, .obj (Schema.defaults s.2))

def configFields : Schema.Fields :=
  configSections.map ConfigSection.field

/-- Unknown sections are kept (`extra="allow"`). -/
def configJSON : Schema :=
  .model true configFields

end ConfigModel

/-! ## The endpoints -/

/-- `ConfigJSON().model_dump()`. -/
def defaultConfig : List (String × Json) :=
  Schema.defaults configFields

def currentConfig (stored : Option (List (String × Json))) : List (String × Json) :=
  stored.getD defaultConfig

def redactKeys : List String :=
  ["token", "secret", "password"]

def redacted : Json :=
  .str "***REDACTED***"

mutual

def redactTokens : Json → Json
  | .obj fields => .obj (redactFields fields)
  | .arr items => .arr (redactItems items)
  | j => j

def redactItems : List Json → List Json
  | [] => []
  | j :: rest => redactTokens j :: redactItems rest

def redactFields : List (String × Json) → List (String × Json)
  | [] => []
  | (key, j) :: rest =>
      (key, if key ∈ redactKeys then redacted else redactTokens j) :: redactFields rest

end

/-- `GET /api/v1/config`. -/
def getConfig (stored : Option (List (String × Json))) (defaults : Bool) : List (String × Json) :=
  redactFields (if defaults then defaultConfig else currentConfig stored)

/-- What is wrong with a configuration, and the value it has. -/
inductive ConfigError where
  | clusterId
  | nodeId
  | port (got : Json)
  | role (got : Json)
  | endpoint

/-- The text of an error, where `str` is Python's. -/
def ConfigError.message (str : Json → String) : ConfigError → String
  | .clusterId => "cluster.id is required"
  | .nodeId => "node.id is required"
  | .port got => "server.port must be 1-65535, got " ++ str got
  | .role got => "cluster.role must be 'main' or 'worker', got '" ++ str got ++ "'"
  | .endpoint => "cluster.endpoint is required for worker nodes"

/-- `cfg.get(section, {}).get(key)`. -/
def configField (cfg : List (String × Json)) (sec key : String) : Option Json :=
  ((cfg.lookup sec).getD (.obj [])).get? key

/-- An integer from 1 to 65535; `True` is the integer 1. -/
def isPort : Json → Bool
  | .num q => q.den = 1 && 1 ≤ q && q ≤ 65535
  | .bool b => b
  | _ => false

def isText (s : String) : Json → Bool
  | .str t => t = s
  | _ => false

/-- `_validate_config`. -/
def validateConfig (cfg : List (String × Json)) : List ConfigError :=
  let port := (configField cfg "server" "port").getD (.num 8787)
  let role := (configField cfg "cluster" "role").getD (.str "main")
  let given := fun sec key => ((configField cfg sec key).getD .null).truthy
  (if given "cluster" "id" then [] else [.clusterId]) ++
    (if given "node" "id" then [] else [.nodeId]) ++
    (if isPort port then [] else [.port port]) ++
    (if isText "main" role || isText "worker" role then [] else [.role role]) ++
    (if isText "worker" role && !given "cluster" "endpoint" then [.endpoint] else [])

/-- Why an update is refused: by the model or by the checks. -/
inductive ConfigRefusal where
  | malformed
  | invalid (errors : List ConfigError)

/-- `PUT /api/v1/config`: the configuration that is stored. -/
def updateConfig [Coercion] (cfg : List (String × Json)) :
    Except ConfigRefusal (List (String × Json)) :=
  match Schema.validate configJSON (.obj cfg) with
  | some (.obj dict) =>
      match validateConfig dict with
      | [] => .ok dict
      | errors => .error (.invalid errors)
  | _ => .error .malformed

/-! ## What redaction leaves alone -/

mutual

/-- Every token, secret and password in the value is the text shown in its place. -/
def Masked : Json → Prop
  | .obj fields => MaskedFields fields
  | .arr items => MaskedItems items
  | _ => True

def MaskedItems : List Json → Prop
  | [] => True
  | j :: rest => Masked j ∧ MaskedItems rest

def MaskedFields : List (String × Json) → Prop
  | [] => True
  | (key, j) :: rest => (if key ∈ redactKeys then j = redacted else Masked j) ∧ MaskedFields rest

end

/-- What is shown under a key. -/
def redactAt (key : String) (j : Json) : Json :=
  if key ∈ redactKeys then redacted else redactTokens j

def MaskedAt (key : String) (j : Json) : Prop :=
  if key ∈ redactKeys then j = redacted else Masked j

section Steps

variable {key : String} {j : Json} {items : List Json} {fields : List (String × Json)}

theorem redactTokens_obj : redactTokens (.obj fields) = .obj (redactFields fields) := rfl

theorem redactTokens_arr : redactTokens (.arr items) = .arr (redactItems items) := rfl

theorem redactTokens_of_isScalar (h : j.IsScalar) : redactTokens j = j := by
  cases j with
  | arr | obj => exact h.elim
  | null | bool | num | str => rfl

theorem redactItems_cons : redactItems (j :: items) = redactTokens j :: redactItems items := rfl

theorem redactFields_cons :
    redactFields ((key, j) :: fields) = (key, redactAt key j) :: redactFields fields := rfl

theorem masked_obj_iff : Masked (.obj fields) ↔ MaskedFields fields := Iff.rfl

theorem masked_arr_iff : Masked (.arr items) ↔ MaskedItems items := Iff.rfl

theorem maskedItems_cons_iff : MaskedItems (j :: items) ↔ Masked j ∧ MaskedItems items := Iff.rfl

theorem maskedFields_cons_iff :
    MaskedFields ((key, j) :: fields) ↔ MaskedAt key j ∧ MaskedFields fields := Iff.rfl

end Steps

mutual

theorem redactTokens_eq_iff : (j : Json) → (redactTokens j = j ↔ Masked j)
  | .obj fields => by
      rw [redactTokens_obj, masked_obj_iff, Json.obj.injEq]
      exact redactFields_eq_iff fields
  | .arr items => by
      rw [redactTokens_arr, masked_arr_iff, Json.arr.injEq]
      exact redactItems_eq_iff items
  | .null | .bool _ | .num _ | .str _ => iff_of_true rfl trivial

theorem redactItems_eq_iff : (items : List Json) → (redactItems items = items ↔ MaskedItems items)
  | [] => iff_of_true rfl trivial
  | j :: rest => by
      rw [redactItems_cons, maskedItems_cons_iff, List.cons.injEq, redactTokens_eq_iff j,
        redactItems_eq_iff rest]

theorem redactFields_eq_iff :
    (fields : List (String × Json)) → (redactFields fields = fields ↔ MaskedFields fields)
  | [] => iff_of_true rfl trivial
  | (key, j) :: rest => by
      rw [redactFields_cons, maskedFields_cons_iff, List.cons.injEq, Prod.mk.injEq,
        redactFields_eq_iff rest]
      unfold redactAt MaskedAt
      split
      · simp [eq_comm]
      · simp [redactTokens_eq_iff j]

end

theorem redactAt_eq_iff (key : String) (j : Json) : redactAt key j = j ↔ MaskedAt key j := by
  unfold redactAt MaskedAt
  split
  · exact eq_comm
  · exact redactTokens_eq_iff j

section Fields

variable {fields : List (String × Json)} {k : String}

theorem keys_redactFields : (redactFields fields).map Prod.fst = fields.map Prod.fst := by
  induction fields with
  | nil => rfl
  | cons f rest ih =>
      rw [redactFields_cons, List.map_cons, List.map_cons, ih]

theorem lookup_redactFields :
    (redactFields fields).lookup k = (fields.lookup k).map (redactAt k) := by
  induction fields with
  | nil => rfl
  | cons f rest ih =>
      rw [redactFields_cons, Json.lookup_cons, Json.lookup_cons, ih]
      dsimp only
      by_cases hk : k = f.1
      · rw [if_pos hk, if_pos hk, hk]
        rfl
      · rw [if_neg hk, if_neg hk]

/-- With distinct keys the entries are masked where each key's value is. -/
theorem maskedFields_iff (hnodup : (fields.map Prod.fst).Nodup) :
    MaskedFields fields ↔ ∀ k v, fields.lookup k = some v → MaskedAt k v := by
  induction fields with
  | nil => exact iff_of_true trivial (fun k v hv => by cases hv)
  | cons f rest ih =>
      rw [List.map_cons, List.nodup_cons] at hnodup
      rw [maskedFields_cons_iff, ih hnodup.2]
      constructor
      · rintro ⟨hhere, hrest⟩ k v hv
        rw [Json.lookup_cons] at hv
        split at hv
        case isTrue hk =>
          cases hv
          exact hk ▸ hhere
        case isFalse => exact hrest k v hv
      · intro h
        refine ⟨h f.1 f.2 (by rw [Json.lookup_cons, if_pos rfl]), fun k v hv => h k v ?_⟩
        have hne : k ≠ f.1 := by
          rintro rfl
          exact hnodup.1 (Json.lookup_isSome_iff.mp (hv ▸ rfl))
        rw [Json.lookup_cons, if_neg hne, hv]

theorem masked_of_sameFields (hnodup : (fields.map Prod.fst).Nodup)
    (h : Json.SameFields fields (redactFields fields)) : MaskedFields fields :=
  (redactFields_eq_iff fields).mp
    (Json.eq_of_lookup keys_redactFields (by rwa [keys_redactFields]) (fun k => (h k).symm))

end Fields

/-! ## What the model reads of the document shown -/

/-- A field of a section: only text is redacted, and other fields are scalars or
lists of scalars. -/
def plainField (f : String × Schema × Json) : Bool :=
  match f.2.1 with
  | .scalar .str => true
  | .scalar _ | .list (.scalar _) => f.1 ∉ redactKeys
  | _ => false

theorem plain_configSections :
    ∀ s ∈ configSections, (Schema.names s.2).Nodup ∧ ∀ f ∈ s.2, plainField f = true := by
  decide

theorem names_configFields : (Schema.names configFields).Nodup := by
  decide

theorem configSection_not_redacted : ∀ s ∈ configSections, s.1 ∉ redactKeys := by
  decide

section Reading

variable [Coercion]

theorem redactItems_of_scalars {kind : ScalarKind} {items values : List Json}
    (h : items.mapM (Schema.validate (.scalar kind)) = some values) :
    redactItems items = items := by
  induction items generalizing values with
  | nil => rfl
  | cons j rest ih =>
      rw [List.mapM_cons] at h
      obtain ⟨w, hw, h⟩ := Option.bind_eq_some_iff.mp h
      obtain ⟨others, hothers, -⟩ := Option.bind_eq_some_iff.mp h
      rw [Schema.validate_scalar] at hw
      rw [redactItems_cons, redactTokens_of_isScalar (Coercion.value_scalar hw).1, ih hothers]

/-- What is shown of a field's value still has the field's type, and is that value
where it is not redacted. -/
theorem validate_redactAt {f : String × Schema × Json} (hf : plainField f = true) {j w : Json}
    (h : Schema.validate f.2.1 j = some w) :
    ∃ w', Schema.validate f.2.1 (redactAt f.1 j) = some w' ∧
      (f.1 ∉ redactKeys → redactAt f.1 j = j) ∧
      (f.1 ∈ redactKeys → Schema.validate f.2.1 redacted = some redacted) := by
  obtain ⟨key, s, default⟩ := f
  dsimp only at h ⊢
  have hplain : key ∉ redactKeys → redactTokens j = j := by
    intro hkey
    unfold plainField at hf
    dsimp only at hf
    split at hf
    · rw [Schema.validate_scalar] at h
      exact redactTokens_of_isScalar (Coercion.value_scalar h).1
    · rw [Schema.validate_scalar] at h
      exact redactTokens_of_isScalar (Coercion.value_scalar h).1
    · cases j with
      | arr items =>
          rw [Schema.validate_arr] at h
          obtain ⟨values, hvalues, -⟩ := Option.map_eq_some_iff.mp h
          rw [redactTokens_arr, redactItems_of_scalars hvalues]
      | null | bool | num | str | obj =>
          change none = some w at h
          cases h
    · cases hf
  have htext : key ∈ redactKeys → Schema.validate s redacted = some redacted := by
    intro hkey
    unfold plainField at hf
    dsimp only at hf
    split at hf
    · rw [Schema.validate_scalar]
      exact Coercion.value_str _
    · exact absurd hkey (of_decide_eq_true hf)
    · exact absurd hkey (of_decide_eq_true hf)
    · cases hf
  by_cases hkey : key ∈ redactKeys
  · refine ⟨redacted, ?_, fun hnot => absurd hkey hnot, htext⟩
    rw [redactAt, if_pos hkey, htext hkey]
  · refine ⟨w, ?_, fun _ => by rw [redactAt, if_neg hkey, hplain hkey], htext⟩
    rw [redactAt, if_neg hkey, hplain hkey, h]

/-- A section's fields are read of what is shown as of what is stored, but for the
redacted ones. -/
theorem validateFields_redact {s : ConfigSection} (hs : s ∈ configSections)
    {fields values : List (String × Json)} (h : Schema.validateFields s.2 fields = some values) :
    ∃ values', Schema.validateFields s.2 (redactFields fields) = some values' ∧
      ∀ k, k ∉ redactKeys → values'.lookup k = values.lookup k := by
  obtain ⟨hnodup, hplain⟩ := plain_configSections s hs
  have hfield : ∀ f ∈ s.2, ∃ w',
      Schema.fieldValue f.2 ((redactFields fields).lookup f.1) = some w' ∧
        (f.1 ∉ redactKeys → values.lookup f.1 = some w') := by
    intro f hf
    obtain ⟨w, hw, hlookup⟩ := Schema.lookup_validateFields hnodup h hf
    rw [lookup_redactFields]
    cases hgiven : fields.lookup f.1 with
    | none =>
        rw [hgiven] at hw
        exact ⟨w, hw, fun _ => hlookup⟩
    | some j =>
        rw [hgiven] at hw
        obtain ⟨w', hw', hsame, -⟩ := validate_redactAt (hplain f hf) (w := w) hw
        refine ⟨w', hw', fun hkey => ?_⟩
        rw [hsame hkey] at hw'
        rw [hlookup]
        exact hw.symm.trans hw'
  obtain ⟨values', hvalues'⟩ := Schema.validateFields_isSome fun f hf =>
    ⟨_, (hfield f hf).choose_spec.1⟩
  refine ⟨values', hvalues', fun k hk => ?_⟩
  by_cases hknown : k ∈ Schema.names s.2
  · obtain ⟨f, hf, rfl⟩ := List.mem_map.mp hknown
    obtain ⟨w', hw', hlookup⟩ := hfield f hf
    obtain ⟨w'', hw'', hlookup'⟩ := Schema.lookup_validateFields hnodup hvalues' hf
    rw [hlookup', hlookup hk, ← hw'', hw']
  · have hnone : ∀ {vs : List (String × Json)}, vs.map Prod.fst = Schema.names s.2 →
        vs.lookup k = none := by
      intro vs hvs
      rw [← Option.not_isSome_iff_eq_none, Json.lookup_isSome_iff, hvs]
      exact hknown
    rw [hnone (Schema.keys_validateFields hvalues'), hnone (Schema.keys_validateFields h)]

theorem validate_section_iff {s : ConfigSection} {j w : Json} :
    Schema.validate s.field.2.1 j = some w ↔ ∃ fields values, j = .obj fields ∧
      w = .obj values ∧ Schema.validateFields s.2 fields = some values := by
  change Schema.validate (.model false s.2) j = some w ↔ _
  cases j with
  | obj fields =>
      rw [Schema.validate_model]
      constructor
      · intro h
        obtain ⟨values, hvalues, rfl⟩ := Option.map_eq_some_iff.mp h
        exact ⟨fields, values, rfl, congrArg Json.obj (List.append_nil values), hvalues⟩
      · rintro ⟨fields', values, heq, rfl, hvalues⟩
        cases heq
        rw [hvalues]
        exact congrArg (some ∘ Json.obj) (List.append_nil values)
  | null | bool | num | str | arr =>
      change none = some w ↔ _
      constructor
      · exact fun h => by cases h
      · rintro ⟨_, _, heq, -⟩
        cases heq

theorem section_redact {s : ConfigSection} (hs : s ∈ configSections) {given : Option Json}
    {w : Json} (h : Schema.fieldValue s.field.2 given = some w) :
    ∃ w', Schema.fieldValue s.field.2 (given.map redactTokens) = some w' ∧
      ∀ k, k ∉ redactKeys → w'.get? k = w.get? k := by
  cases given with
  | none => exact ⟨w, h, fun _ _ => rfl⟩
  | some j =>
      obtain ⟨fields, values, rfl, rfl, hvalues⟩ := validate_section_iff.mp h
      obtain ⟨values', hvalues', hsame⟩ := validateFields_redact hs hvalues
      refine ⟨.obj values', ?_, hsame⟩
      refine validate_section_iff.mpr ⟨redactFields fields, values', ?_, rfl, hvalues'⟩
      exact redactTokens_obj

/-- The sections that the model does not know. -/
def unknownSections (cfg : List (String × Json)) : List (String × Json) :=
  cfg.filter fun f => decide (f.1 ∉ Schema.names configFields)

theorem updateConfig_eq_ok {cfg dict : List (String × Json)} :
    updateConfig cfg = .ok dict ↔ ∃ values, Schema.validateFields configFields cfg = some values ∧
      dict = values ++ unknownSections cfg ∧ validateConfig dict = [] := by
  unfold updateConfig configJSON
  rw [Schema.validate_model]
  cases hvalues : Schema.validateFields configFields cfg with
  | none =>
      constructor
      · exact fun h => by cases h
      · rintro ⟨values, heq, -⟩
        cases heq
  | some values =>
      change (match validateConfig (values ++ unknownSections cfg) with
        | [] => Except.ok (values ++ unknownSections cfg)
        | errors => .error (ConfigRefusal.invalid errors)) = .ok dict ↔ _
      constructor
      · intro h
        split at h
        case h_1 hvalid =>
          cases h
          exact ⟨values, rfl, rfl, hvalid⟩
        case h_2 => cases h
      · rintro ⟨values', heq, rfl, hvalid⟩
        cases heq
        rw [hvalid]

/-- A section is stored as its model reads it, and any other as it is given. -/
theorem lookup_updateConfig {cfg dict : List (String × Json)} (h : updateConfig cfg = .ok dict) :
    (∀ s ∈ configSections, ∃ w, Schema.fieldValue s.field.2 (cfg.lookup s.1) = some w ∧
      dict.lookup s.1 = some w) ∧
    ∀ k, k ∉ Schema.names configFields → dict.lookup k = cfg.lookup k := by
  obtain ⟨values, hvalues, rfl, -⟩ := updateConfig_eq_ok.mp h
  constructor
  · intro s hs
    obtain ⟨w, hw, hlookup⟩ := Schema.lookup_validateFields names_configFields hvalues
      (List.mem_map_of_mem (f := ConfigSection.field) hs)
    refine ⟨w, hw, ?_⟩
    rw [Json.lookup_append]
    rw [show values.lookup s.1 = some w from hlookup]
    rfl
  · intro k hk
    have hnone : values.lookup k = none := by
      rw [← Option.not_isSome_iff_eq_none, Json.lookup_isSome_iff,
        Schema.keys_validateFields hvalues]
      exact hk
    have hrest : (unknownSections cfg).lookup k =
        if decide (k ∉ Schema.names configFields) then cfg.lookup k else none :=
      Json.lookup_filter fun key => decide (key ∉ Schema.names configFields)
    rw [Json.lookup_append, hnone, hrest, if_pos (decide_eq_true hk)]
    rfl

omit [Coercion] in
/-- The checks read no redacted field. -/
theorem validateConfig_congr {cfg cfg' : List (String × Json)}
    (h : ∀ s ∈ configSections, ∀ k, k ∉ redactKeys →
      configField cfg' s.1 k = configField cfg s.1 k) :
    validateConfig cfg' = validateConfig cfg := by
  have hread : ∀ sec key, sec ∈ configSections.map Prod.fst → key ∉ redactKeys →
      configField cfg' sec key = configField cfg sec key := by
    intro sec key hsec hkey
    obtain ⟨s, hs, rfl⟩ := List.mem_map.mp hsec
    exact h s hs key hkey
  simp only [validateConfig, hread "cluster" "id" (by decide) (by decide),
    hread "node" "id" (by decide) (by decide), hread "server" "port" (by decide) (by decide),
    hread "cluster" "role" (by decide) (by decide),
    hread "cluster" "endpoint" (by decide) (by decide)]

/-- A configuration that is accepted is accepted with its tokens redacted. -/
theorem updateConfig_redact {cfg dict : List (String × Json)} (h : updateConfig cfg = .ok dict) :
    ∃ dict', updateConfig (redactFields cfg) = .ok dict' := by
  obtain ⟨values, hvalues, rfl, hvalid⟩ := updateConfig_eq_ok.mp h
  have hsection : ∀ s ∈ configSections, ∃ w w',
      (values ++ unknownSections cfg).lookup s.1 = some w ∧
      Schema.fieldValue s.field.2 ((redactFields cfg).lookup s.1) = some w' ∧
      ∀ k, k ∉ redactKeys → w'.get? k = w.get? k := by
    intro s hs
    obtain ⟨w, hw, hlookup⟩ := (lookup_updateConfig h).1 s hs
    obtain ⟨w', hw', hsame⟩ := section_redact hs hw
    have hshown : (redactFields cfg).lookup s.1 = (cfg.lookup s.1).map redactTokens := by
      rw [lookup_redactFields]
      unfold redactAt
      simp only [if_neg (configSection_not_redacted s hs)]
    exact ⟨w, w', hlookup, hshown ▸ hw', hsame⟩
  have hfields : ∀ f ∈ configFields, ∃ w',
      Schema.fieldValue f.2 ((redactFields cfg).lookup f.1) = some w' := by
    intro f hf
    obtain ⟨s, hs, rfl⟩ := List.mem_map.mp hf
    obtain ⟨w, w', -, hw', -⟩ := hsection s hs
    exact ⟨w', hw'⟩
  obtain ⟨values', hvalues'⟩ := Schema.validateFields_isSome hfields
  refine ⟨_, updateConfig_eq_ok.mpr ⟨values', hvalues', rfl, ?_⟩⟩
  rw [← hvalid]
  refine validateConfig_congr (fun s hs k hk => ?_)
  obtain ⟨w, w', hlookup, hw', hsame⟩ := hsection s hs
  obtain ⟨w'', hw'', hlookup'⟩ := Schema.lookup_validateFields names_configFields hvalues'
    (List.mem_map_of_mem (f := ConfigSection.field) hs)
  have hthere : (values' ++ unknownSections (redactFields cfg)).lookup s.1 = some w' := by
    rw [Json.lookup_append]
    rw [show values'.lookup s.1 = some w' from hlookup'.trans (hw''.symm.trans hw')]
    rfl
  unfold configField
  rw [hthere, hlookup]
  exact hsame k hk

end Reading

/-! ## Reading, editing and writing back -/

section RoundTrip

variable [Coercion]

/-- A section with the model's keys, each value one of its type already. -/
def Complete (s : ConfigSection) (given : Option Json) : Prop :=
  ∃ fields, given = some (.obj fields) ∧
    (∀ k, (fields.lookup k).isSome = true ↔ k ∈ Schema.names s.2) ∧
    ∀ f ∈ s.2, ∀ v, fields.lookup f.1 = some v → Schema.validate f.2.1 v = some v

/-- The fields of a section are stored as they were, after they were shown and sent
back, exactly when the section was complete and its tokens are masked. -/
theorem sameFields_iff {s : ConfigSection} (hs : s ∈ configSections)
    {fields values values' : List (String × Json)} (hnodup : (fields.map Prod.fst).Nodup)
    (h : Schema.validateFields s.2 fields = some values)
    (h' : Schema.validateFields s.2 (redactFields fields) = some values') :
    Json.SameFields fields values' ↔
      MaskedFields fields ∧ Complete s (some (.obj fields)) := by
  obtain ⟨hnames, hplain⟩ := plain_configSections s hs
  have hkeys : ∀ k, (values'.lookup k).isSome = true ↔ k ∈ Schema.names s.2 := by
    intro k
    rw [Json.lookup_isSome_iff, Schema.keys_validateFields h']
  have hvalue : ∀ f ∈ s.2, ∀ v, fields.lookup f.1 = some v →
      values'.lookup f.1 = Schema.validate f.2.1 (redactAt f.1 v) := by
    intro f hf v hv
    obtain ⟨w, hw, hlookup⟩ := Schema.lookup_validateFields hnames h' hf
    rw [lookup_redactFields, hv] at hw
    exact hlookup.trans hw.symm
  constructor
  · intro hsame
    have hshown : ∀ f ∈ s.2, ∀ v, fields.lookup f.1 = some v →
        redactAt f.1 v = v ∧ Schema.validate f.2.1 v = some v := by
      intro f hf v hv
      obtain ⟨w, hw, -⟩ := Schema.lookup_validateFields hnames h hf
      rw [hv] at hw
      obtain ⟨w', -, hplainly, htext⟩ := validate_redactAt (hplain f hf) (w := w) hw
      have hstored : Schema.validate f.2.1 (redactAt f.1 v) = some v :=
        (hvalue f hf v hv).symm.trans ((hsame f.1).symm.trans hv)
      by_cases hkey : f.1 ∈ redactKeys
      · have hred : redactAt f.1 v = redacted := if_pos hkey
        rw [hred, htext hkey] at hstored
        obtain rfl : redacted = v := Option.some.inj hstored
        exact ⟨hred, htext hkey⟩
      · rw [hplainly hkey] at hstored
        exact ⟨hplainly hkey, hstored⟩
    have hknown : ∀ k, (fields.lookup k).isSome = true ↔ k ∈ Schema.names s.2 := by
      intro k
      rw [hsame k, hkeys k]
    refine ⟨(maskedFields_iff hnodup).mpr (fun k v hv => ?_), fields, rfl, hknown,
      fun f hf v hv => (hshown f hf v hv).2⟩
    obtain ⟨f, hf, rfl⟩ := List.mem_map.mp ((hknown k).mp (hv ▸ rfl))
    exact (redactAt_eq_iff _ _).mp (hshown f hf v hv).1
  · rintro ⟨hmasked, fields', heq, hknown, hself⟩
    cases heq
    intro k
    by_cases hk : k ∈ Schema.names s.2
    · obtain ⟨v, hv⟩ := Option.isSome_iff_exists.mp ((hknown k).mpr hk)
      obtain ⟨f, hf, rfl⟩ := List.mem_map.mp hk
      have hshown := (redactAt_eq_iff _ _).mpr ((maskedFields_iff hnodup).mp hmasked _ _ hv)
      rw [hvalue f hf v hv, hshown, hself f hf v hv, hv]
    · rw [Option.not_isSome_iff_eq_none.mp (mt (hknown k).mp hk),
        Option.not_isSome_iff_eq_none.mp (mt (hkeys k).mp hk)]

/-- The same of a section that may be missing. -/
theorem section_unchanged_iff {s : ConfigSection} (hs : s ∈ configSections)
    {given : Option Json} (hgiven : ∀ j, given = some j → j.WellFormed) {w w' : Json}
    (h : Schema.fieldValue s.field.2 given = some w)
    (h' : Schema.fieldValue s.field.2 (given.map redactTokens) = some w') :
    Json.SameValue given (some w') ↔
      (∀ j, given = some j → Masked j) ∧ Complete s given := by
  cases given with
  | none =>
      constructor
      · rintro (heq | ⟨_, _, heq, -⟩)
        · cases heq
        · cases heq
      · rintro ⟨-, _, heq, -⟩
        cases heq
  | some j =>
      obtain ⟨fields, values, rfl, rfl, hvalues⟩ := validate_section_iff.mp h
      obtain ⟨fields', values', heq, rfl, hvalues'⟩ := validate_section_iff.mp h'
      rw [redactTokens_obj, Json.obj.injEq] at heq
      rw [← heq] at hvalues'
      have hsame := sameFields_iff hs (hgiven _ rfl).keys hvalues hvalues'
      constructor
      · intro hvalue
        obtain ⟨hmasked, hcomplete⟩ := hsame.mp hvalue.sameFields
        refine ⟨fun j hj => ?_, hcomplete⟩
        cases hj
        exact masked_obj_iff.mpr hmasked
      · rintro ⟨hmasked, hcomplete⟩
        have hfields := hmasked _ rfl
        rw [masked_obj_iff] at hfields
        exact Json.sameValue_obj (hsame.mpr ⟨hfields, hcomplete⟩)

omit [Coercion] in
/-- What is stored under any other key is what was there exactly when it is masked. -/
theorem shown_unchanged_iff {k : String} {given : Option Json}
    (hgiven : ∀ j, given = some j → j.WellFormed) :
    Json.SameValue given (given.map (redactAt k)) ↔ ∀ j, given = some j → MaskedAt k j := by
  cases given with
  | none =>
      constructor
      · exact fun _ j hj => by cases hj
      · exact fun _ => .refl none
  | some j =>
      have hself : (∀ j', some j = some j' → MaskedAt k j') ↔ redactAt k j = j := by
        rw [redactAt_eq_iff]
        exact ⟨fun h => h j rfl, fun h j' heq => Option.some.inj heq ▸ h⟩
      rw [hself, Option.map_some]
      constructor
      · rintro (heq | ⟨fs, gs, hfs, hgs, hsame⟩)
        · exact (Option.some.inj heq).symm
        · cases hfs
          unfold redactAt at hgs ⊢
          split
          case isTrue hkey =>
            rw [if_pos hkey] at hgs
            cases hgs
          case isFalse hkey =>
            rw [if_neg hkey, redactTokens_obj] at hgs
            cases hgs
            rw [redactTokens_eq_iff, masked_obj_iff]
            exact masked_of_sameFields (hgiven _ rfl).keys hsame
      · intro heq
        rw [heq]
        exact .refl _

/-- A configuration that would be accepted is, when it is shown and sent back, stored
as it was exactly when its tokens, secrets and passwords are masked already and each
section of the model is complete. -/
theorem updateConfig_getConfig_iff (cfg : Json.Document) {accepted : List (String × Json)}
    (haccepted : updateConfig cfg.fields = .ok accepted) :
    (∃ stored, updateConfig (getConfig (some cfg.fields) false) = .ok stored ∧
        Json.SameDocument cfg.fields stored) ↔
      Masked (.obj cfg.fields) ∧ ∀ s ∈ configSections, Complete s (cfg.fields.lookup s.1) := by
  have hwell : ∀ {k j}, cfg.fields.lookup k = some j → j.WellFormed :=
    fun hj => cfg.wellFormed.of_lookup hj
  have hlookup : ∀ s ∈ configSections, (redactFields cfg.fields).lookup s.1 =
      (cfg.fields.lookup s.1).map redactTokens := by
    intro s hs
    rw [lookup_redactFields]
    unfold redactAt
    simp only [if_neg (configSection_not_redacted s hs)]
  have hsection : ∀ {stored}, updateConfig (redactFields cfg.fields) = .ok stored →
      ∀ s ∈ configSections, (Json.SameValue (cfg.fields.lookup s.1) (stored.lookup s.1) ↔
        (∀ j, cfg.fields.lookup s.1 = some j → Masked j) ∧
          Complete s (cfg.fields.lookup s.1)) := by
    intro stored hstored s hs
    obtain ⟨w, hw, -⟩ := (lookup_updateConfig haccepted).1 s hs
    obtain ⟨w', hw', hthere⟩ := (lookup_updateConfig hstored).1 s hs
    rw [hlookup s hs] at hw'
    rw [hthere]
    exact section_unchanged_iff hs (fun _ => hwell) hw hw'
  have hother : ∀ {stored}, updateConfig (redactFields cfg.fields) = .ok stored →
      ∀ k, k ∉ Schema.names configFields →
        (Json.SameValue (cfg.fields.lookup k) (stored.lookup k) ↔
          ∀ j, cfg.fields.lookup k = some j → MaskedAt k j) := by
    intro stored hstored k hk
    rw [(lookup_updateConfig hstored).2 k hk, lookup_redactFields]
    exact shown_unchanged_iff (fun _ => hwell)
  have hknown : ∀ {k}, k ∈ Schema.names configFields → ∃ s ∈ configSections, s.1 = k := by
    intro k hk
    obtain ⟨f, hf, rfl⟩ := List.mem_map.mp hk
    obtain ⟨s, hs, rfl⟩ := List.mem_map.mp hf
    exact ⟨s, hs, rfl⟩
  change (∃ stored, updateConfig (redactFields cfg.fields) = .ok stored ∧ _) ↔ _
  rw [masked_obj_iff, maskedFields_iff cfg.wellFormed.keys]
  constructor
  · rintro ⟨stored, hstored, hsame⟩
    refine ⟨fun k j hj => ?_, fun s hs => ((hsection hstored s hs).mp (hsame s.1)).2⟩
    by_cases hk : k ∈ Schema.names configFields
    · obtain ⟨s, hs, rfl⟩ := hknown hk
      rw [MaskedAt, if_neg (configSection_not_redacted s hs)]
      exact ((hsection hstored s hs).mp (hsame s.1)).1 j hj
    · exact (hother hstored k hk).mp (hsame k) j hj
  · rintro ⟨hmasked, hcomplete⟩
    obtain ⟨stored, hstored⟩ := updateConfig_redact haccepted
    refine ⟨stored, hstored, fun k => ?_⟩
    by_cases hk : k ∈ Schema.names configFields
    · obtain ⟨s, hs, rfl⟩ := hknown hk
      refine (hsection hstored s hs).mpr ⟨fun j hj => ?_, hcomplete s hs⟩
      have hat := hmasked s.1 j hj
      rwa [MaskedAt, if_neg (configSection_not_redacted s hs)] at hat
    · exact (hother hstored k hk).mpr (fun j hj => hmasked k j hj)

end RoundTrip

section Example

attribute [local instance] Coercion.strict

/-- The default configuration with given tokens. -/
def configWith (token : String) : List (String × Json) :=
  [("cluster", .obj [("id", .str "cluster_default"), ("role", .str "main"), ("endpoint", .str ""),
      ("token", .str token)])] ++
    (defaultConfig.drop 1).take 7 ++
    [("federation", .obj [("enabled", .bool true), ("ping_interval", .str "30s"),
      ("token", .str token)])] ++
    defaultConfig.drop 9

/-- A configuration whose tokens are masked survives. -/
theorem updateConfig_getConfig_iff_masked :
    Masked (.obj (configWith "***REDACTED***")) ∧ ∀ s ∈ configSections,
      Complete s ((configWith "***REDACTED***").lookup s.1) :=
  (updateConfig_getConfig_iff ⟨configWith "***REDACTED***", by decide⟩ rfl).mp
    ⟨configWith "***REDACTED***", rfl, fun _ => .refl _⟩

def tokenConfig : Json.Document :=
  { fields := configWith "s3cret"
    wellFormed := by decide }

/-- A token is stored as the text shown in its place. -/
theorem token_replaced :
    (∃ accepted, updateConfig tokenConfig.fields = .ok accepted) ∧
      ¬ ∃ stored, updateConfig (getConfig (some tokenConfig.fields) false) = .ok stored ∧
        Json.SameDocument tokenConfig.fields stored := by
  refine ⟨⟨configWith "s3cret", rfl⟩, ?_⟩
  rintro ⟨stored, hstored, hsame⟩
  have hshown : updateConfig (getConfig (some (configWith "s3cret")) false) =
      .ok (configWith "***REDACTED***") := rfl
  obtain rfl : configWith "***REDACTED***" = stored := Except.ok.inj (hshown.symm.trans hstored)
  have htoken : some (Json.str "s3cret") = some (Json.str "***REDACTED***") :=
    (hsame "cluster").sameFields "token"
  simp at htoken

end Example

end HermesCluster
