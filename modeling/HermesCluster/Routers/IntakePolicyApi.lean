import HermesCluster.Core.IntakeEndpoint
import HermesCluster.Core.VerdictReaders
import HermesCluster.Lib.Schema
/-!
# The intake policy endpoints

`GET` and `PUT /policy` of `routers/intake.py` over the stored `intake.gitlab`
section: the section as `core/intake_policy.py` validates and loads it, what is shown
of it, and what a write stores. Who may write is left out.
-/

namespace HermesCluster

/-- Which texts `re.compile` takes; it takes the default patterns. -/
class PatternSyntax where
  compiles : String → Bool
  compiles_blocked : compiles "^(status::)?blocked$" = true
  compiles_needsHuman : compiles "^(status::)?needs-human$" = true
  compiles_needsDecision : compiles "^(status::)?needs-decision$" = true
  compiles_epic : compiles "^epic$" = true
  compiles_typeEpic : compiles "^type::epic$" = true

namespace IntakePolicyApi

open IntakeEndpoint VerdictReaders

/-! ## The model -/

/-- An integer that `VALID_PRIORITY_BANDS` holds. -/
def isBand : Json → Bool
  | .num q => [0, 1, 2, 3, 4, 5].contains q
  | _ => false

def allBands : Json → Bool
  | .obj fields => fields.all fun f => isBand f.2
  | _ => false

def oneOf (texts : List String) : Json → Bool
  | .str s => texts.contains s
  | _ => false

def atLeast (n : Rat) : Json → Bool
  | .num q => decide (n ≤ q)
  | _ => false

def intakeScope : Schema.Fields :=
  [("type", .checked (.scalar .str) (Schema.ensure (oneOf ["project", "group"])), .str "project"),
    ("path", .scalar .str, .str ""), ("label", .scalar .str, .str ""),
    ("enabled", .scalar .bool, .bool true)]

def intakePriority : Schema.Fields :=
  [("default", .checked (.scalar .int) (Schema.ensure isBand), .num 3),
    ("author_ids", .checked (.dict .int (.scalar .int)) (Schema.ensure allBands), .obj []),
    ("project_paths", .checked (.dict .str (.scalar .int)) (Schema.ensure allBands), .obj []),
    ("labels", .checked (.dict .str (.scalar .int)) (Schema.ensure allBands), .obj []),
    ("label_prefixes", .list (.scalar .str), .arr [])]

/-- `DEFAULT_SKIP_LABEL_PATTERNS`. -/
def skipLabelPatterns : List Json :=
  [.str "^(status::)?blocked$", .str "^(status::)?needs-human$",
    .str "^(status::)?needs-decision$", .str "^epic$", .str "^type::epic$"]

def compile [PatternSyntax] : Json → Bool
  | .str s => PatternSyntax.compiles s
  | _ => false

def allCompile [PatternSyntax] : Json → Bool
  | .arr items => items.all compile
  | _ => false

def groupingConfig [PatternSyntax] : Schema.Fields :=
  [("enabled", .scalar .bool, .bool false), ("lane_branch", .scalar .str, .str "env/dev"),
    ("lane_branches", .dict .str (.scalar .str), .obj []),
    ("max_bundle_size", .checked (.scalar .int) (Schema.ensure (atLeast 1)), .num 30),
    ("max_area_clusters_per_bundle", .scalar .int, .num 8),
    ("skip_label_patterns", .checked (.list (.scalar .str)) (Schema.ensure allCompile),
      .arr skipLabelPatterns),
    ("blocker_link_types", .list (.scalar .str), .arr [.str "is_blocked_by", .str "blocked_by"]),
    ("accumulate_window_s", .checked (.scalar .int) (Schema.ensure (atLeast 0)), .num 0)]

section Policy

variable [Unicode] [Nfkc]

omit [Nfkc] in
/-- A capability without blanks around it, if it is not blank. -/
def capability : Json → Option Json
  | .str s => if Text.strip s = "" then none else some (.str (Text.strip s))
  | _ => none

omit [Nfkc] in
/-- `_check_requires`. -/
def checkRequires : Json → Option Json
  | .arr items =>
      match items.filterMap capability with
      | [] => none
      | cleaned => some (.arr cleaned)
  | _ => none

/-- `_check_endpoint`. -/
def checkEndpoint (env : IntakeEnv) : Json → Option Json
  | .str s => (sanitizeEndpoint env s).toOption.map .str
  | _ => none

/-- `GitLabIntakePolicy`. -/
def gitLabIntakePolicy [PatternSyntax] (env : IntakeEnv) : Schema.Fields :=
  [("enabled", .optional (.scalar .bool), .null),
    ("endpoint", .checked (.scalar .str) (checkEndpoint env), .str ""),
    ("interval_seconds", .scalar .int, .num 0),
    ("requires", .checked (.list (.scalar .str)) checkRequires, .arr [.str "tooling"]),
    ("scopes", .list (.model false intakeScope), .arr []),
    ("priority", .model false intakePriority, .obj (Schema.defaults intakePriority)),
    ("dedup_scope", .checked (.scalar .str) (Schema.ensure (oneOf ["iid", "full"])), .str "iid"),
    ("grouping", .model false groupingConfig, .obj (Schema.defaults groupingConfig)),
    ("allowed_endpoints", .list (.scalar .str), .arr []),
    ("configured", .scalar .bool, .bool false)]

end Policy

section Endpoints

variable [Unicode] [Nfkc] [Coercion] [PatternSyntax]

/-- A model as the list of its fields. -/
abbrev Policy : Type := List (String × Json)

/-- What `_boot_defaults` reads besides the endpoint. -/
structure BootDefaults where
  project : String
  label : String
  interval : Int
  requires : List String
  tokenPresent : Bool

omit [Unicode] [Nfkc] [Coercion] [PatternSyntax] in
/-- `policy_from_raw`. -/
def policyFromRaw (storeConfig : Option (List (String × Json))) : Option (List (String × Json)) :=
  match storeConfig with
  | none => none
  | some cfg =>
      match cfg.lookup "intake" with
      | some (.obj intake) =>
          match intake.lookup "gitlab" with
          | some (.obj gitlab) => some gitlab
          | _ => none
      | _ => none

omit [Unicode] [Nfkc] [Coercion] [PatternSyntax] in
/-- The lift of a raw section's hosts into the environment, where `str` is Python's. -/
def liftSection (str : Json → String) (gitlab : List (String × Json)) (env : IntakeEnv) :
    IntakeEnv :=
  match gitlab.lookup "allowed_endpoints" with
  | some (.arr extra) => liftAllowed (extra.map str) env
  | _ => env

omit [Unicode] [Nfkc] [Coercion] [PatternSyntax] in
/-- `if not p.key: p.key = value`. -/
def fill (key : String) (value : Json) (p : Policy) : Policy :=
  if ((p.lookup key).getD .null).truthy then p else Json.insert p key value

omit [Unicode] [Nfkc] [Coercion] [PatternSyntax] in
/-- The end of `load_policy`. -/
def finish (env : IntakeEnv) (p : Policy) (configured : Bool) : Policy :=
  Json.insert (fill "endpoint" (.str (bootEndpoint env)) p) "configured" (.bool configured)

/-- `load_policy`: the environment it leaves, and the policy unless it raises. -/
def loadPolicy (str : Json → String) (boot : BootDefaults) (env : IntakeEnv)
    (storeConfig : Option (List (String × Json))) : IntakeEnv × Option Policy :=
  match policyFromRaw storeConfig with
  | none =>
      (env, (Schema.validateFields (gitLabIntakePolicy env)
        [("endpoint", .str (bootEndpoint env)), ("interval_seconds", .num boot.interval)]).map
          fun p => finish env p false)
  | some gitlab =>
      let env := liftSection str gitlab env
      (env, (Schema.validateFields (gitLabIntakePolicy env) gitlab).map fun p =>
        finish env (fill "interval_seconds" (.num boot.interval) p) true)

omit [Unicode] [Nfkc] [Coercion] [PatternSyntax] in
/-- A policy without what is not shown, nor stored. -/
def shownPolicy (p : Policy) : Policy :=
  Json.erase (Json.erase p "configured") "allowed_endpoints"

omit [Unicode] [Nfkc] [Coercion] [PatternSyntax] in
def policyDocument (boot : BootDefaults) (env : IntakeEnv) (p : Policy) : List (String × Json) :=
  [("configured", (p.lookup "configured").getD (.bool false)), ("policy", .obj (shownPolicy p)),
    ("legacy_defaults", .obj
      [("endpoint", .str (bootEndpoint env)), ("project", .str boot.project),
        ("label", .str boot.label), ("interval", .num boot.interval),
        ("requires", .arr (boot.requires.map .str)), ("token_present", .bool boot.tokenPresent)])]

/-- `GET /policy`. -/
def getPolicy (str : Json → String) (boot : BootDefaults) (env : IntakeEnv)
    (storeConfig : Option (List (String × Json))) : IntakeEnv × Option (List (String × Json)) :=
  let (env, policy) := loadPolicy str boot env storeConfig
  (env, policy.map (policyDocument boot env))

/-- Why a write is refused, or that it raises something else. -/
inductive PolicyRefusal where
  | invalid
  | notAllowed (detail : String)
  | raised

omit [Unicode] [Nfkc] [Coercion] [PatternSyntax] in
/-- The section that a body holds, in one of three shapes. -/
def gitlabSection (payload : List (String × Json)) : Json :=
  match payload.lookup "gitlab" with
  | some (.obj gitlab) => .obj gitlab
  | _ =>
      match payload.lookup "intake" with
      | some (.obj intake) => (intake.lookup "gitlab").getD (.obj [])
      | _ => .obj payload

omit [Coercion] [PatternSyntax] in
/-- The allowlist as a hard error. -/
def checkEndpointWrite (env : IntakeEnv) (endpoint : Json) : Except PolicyRefusal Unit :=
  if endpoint.truthy then
    match endpoint with
    | .str value =>
        match endpointHost value with
        | .error e => .error (.notAllowed e)
        | .ok host =>
            match allowedEndpointHosts env "" with
            | .error e => .error (.notAllowed e)
            | .ok hosts =>
                if host ∈ hosts then .ok ()
                else .error (.notAllowed "endpoint is not allowed for runtime configuration")
    | _ => .error .raised
  else .ok ()

/-- `validate_policy_write`. -/
def validatePolicyWrite (env : IntakeEnv) (gitlab : List (String × Json)) :
    Except PolicyRefusal Policy := do
  checkEndpointWrite env ((gitlab.lookup "endpoint").getD .null)
  match Schema.validateFields (gitLabIntakePolicy env) gitlab with
  | none => .error .invalid
  | some p => .ok p

omit [Unicode] [Nfkc] [Coercion] [PatternSyntax] in
/-- `dict(existing.get("intake") or {})`. -/
def intakeOf (existing : List (String × Json)) : Except PolicyRefusal (List (String × Json)) :=
  match existing.lookup "intake" with
  | some (.obj intake) => .ok intake
  | some j => if j.truthy then .error .raised else .ok []
  | none => .ok []

/-- `PUT /policy` by a caller who may write: the configuration it stores. -/
def putPolicy (env : IntakeEnv) (storeConfig : Option (List (String × Json)))
    (payload : List (String × Json)) : Except PolicyRefusal (List (String × Json)) :=
  match gitlabSection payload with
  | .obj gitlab => do
      let p ← validatePolicyWrite env (Json.erase gitlab "allowed_endpoints")
      let existing := storeConfig.getD []
      let intake ← intakeOf existing
      let stored := Json.insert intake "gitlab" (.obj (shownPolicy p))
      return Json.insert existing "intake" (.obj stored)
  | _ => .error .raised

/-- The stored configuration after a write, which a refusal leaves as it was. -/
def afterPut (env : IntakeEnv) (storeConfig : Option (List (String × Json)))
    (payload : List (String × Json)) : Option (List (String × Json)) :=
  match putPolicy env storeConfig payload with
  | .ok merged => some merged
  | .error _ => storeConfig

end Endpoints

/-! ## The model is lawful -/

section Lawful

variable [Unicode] [Nfkc] [Coercion] [PatternSyntax]

open Schema

omit [Unicode] [Nfkc] [PatternSyntax] in
theorem lawful_intakeScope : (Schema.model false intakeScope).Lawful := by
  refine lawful_model false (by decide) ?_
  simp only [intakeScope, List.forall_mem_cons]
  exact ⟨⟨lawful_ensure (lawful_scalar _) _, validate_ensure (validate_str _) rfl⟩,
    ⟨lawful_scalar _, validate_str _⟩, ⟨lawful_scalar _, validate_str _⟩,
    ⟨lawful_scalar _, validate_bool _⟩, List.forall_mem_nil _⟩

omit [Unicode] [Nfkc] [PatternSyntax] in
theorem lawful_intakePriority : (Schema.model false intakePriority).Lawful := by
  have hbands : ∀ key, (Schema.checked (.dict key (.scalar .int)) (ensure allBands)).Lawful ∧
      validate (.checked (.dict key (.scalar .int)) (ensure allBands)) (.obj []) =
        some (.obj []) := fun key =>
    ⟨lawful_ensure (lawful_dict _ (lawful_scalar _)) _,
      validate_ensure (validate_dict_nil _ _) rfl⟩
  refine lawful_model false (by decide) ?_
  simp only [intakePriority, List.forall_mem_cons]
  exact ⟨⟨lawful_ensure (lawful_scalar _) _, validate_ensure (validate_int rfl) (by decide)⟩,
    hbands .int, hbands .str, hbands .str,
    ⟨lawful_list (lawful_scalar _), validate_list (List.forall_mem_nil _)⟩, List.forall_mem_nil _⟩

omit [Unicode] [Nfkc] [Coercion] in
theorem allCompile_skipLabelPatterns : allCompile (.arr skipLabelPatterns) = true := by
  simp [allCompile, skipLabelPatterns, compile, PatternSyntax.compiles_blocked,
    PatternSyntax.compiles_needsHuman, PatternSyntax.compiles_needsDecision,
    PatternSyntax.compiles_epic, PatternSyntax.compiles_typeEpic]

omit [Unicode] [Nfkc] [PatternSyntax] in
theorem validate_texts (texts : List String) :
    validate (.list (.scalar .str)) (.arr (texts.map .str)) = some (.arr (texts.map .str)) := by
  refine validate_list (fun j hj => ?_)
  obtain ⟨s, -, rfl⟩ := List.mem_map.mp hj
  exact validate_str s

omit [Unicode] [Nfkc] in
theorem lawful_groupingConfig : (Schema.model false groupingConfig).Lawful := by
  have hnames : names groupingConfig = ["enabled", "lane_branch", "lane_branches",
    "max_bundle_size", "max_area_clusters_per_bundle", "skip_label_patterns",
    "blocker_link_types", "accumulate_window_s"] := rfl
  refine lawful_model false (hnames ▸ by decide) ?_
  simp only [groupingConfig, List.forall_mem_cons]
  exact ⟨⟨lawful_scalar _, validate_bool _⟩, ⟨lawful_scalar _, validate_str _⟩,
    ⟨lawful_dict _ (lawful_scalar _), validate_dict_nil _ _⟩,
    ⟨lawful_ensure (lawful_scalar _) _, validate_ensure (validate_int rfl) (by decide)⟩,
    ⟨lawful_scalar _, validate_int rfl⟩,
    ⟨lawful_ensure (lawful_list (lawful_scalar _)) _,
      validate_ensure (validate_texts ["^(status::)?blocked$", "^(status::)?needs-human$",
        "^(status::)?needs-decision$", "^epic$", "^type::epic$"]) allCompile_skipLabelPatterns⟩,
    ⟨lawful_list (lawful_scalar _), validate_texts ["is_blocked_by", "blocked_by"]⟩,
    ⟨lawful_ensure (lawful_scalar _) _, validate_ensure (validate_int rfl) (by decide)⟩,
    List.forall_mem_nil _⟩

omit [Nfkc] [PatternSyntax] in
/-- The capabilities that are left are left alone. -/
theorem lawful_checkRequires :
    (Schema.checked (.list (.scalar .str)) checkRequires).Lawful := by
  refine lawful_checked_iff.mpr ⟨lawful_list (lawful_scalar _), fun w y hw hy => ?_⟩
  cases w with
  | arr items =>
      have hclean : ∀ c ∈ items.filterMap capability,
          (∃ s, c = .str s) ∧ capability c = some c := by
        intro c hc
        obtain ⟨j, -, hj⟩ := List.mem_filterMap.mp hc
        unfold capability at hj
        split at hj
        case h_2 => cases hj
        case h_1 s =>
          split at hj
          case isTrue => cases hj
          case isFalse hne =>
            cases hj
            refine ⟨⟨_, rfl⟩, ?_⟩
            unfold capability
            dsimp only
            rw [Text.strip_strip]
            exact if_neg hne
      have hself : (items.filterMap capability).filterMap capability =
          items.filterMap capability := by
        calc
          _ = (items.filterMap capability).filterMap some :=
            List.filterMap_congr fun c hc => (hclean c hc).2
          _ = _ := List.filterMap_some
      unfold checkRequires at hy
      dsimp only at hy
      split at hy
      case h_1 => cases hy
      case h_2 hne =>
        cases hy
        constructor
        · refine validate_list (fun c hc => ?_)
          obtain ⟨⟨s, rfl⟩, -⟩ := hclean c hc
          exact validate_str s
        · unfold checkRequires
          dsimp only
          rw [hself]
          split
          case h_1 hnil => exact absurd hnil hne
          case h_2 => rfl
  | null | bool | num | str | obj => cases hy

omit [PatternSyntax] in
/-- An endpoint that passes the allowlist, and none, are left alone. -/
theorem lawful_checkEndpoint (env : IntakeEnv) :
    (Schema.checked (.scalar .str) (checkEndpoint env)).Lawful := by
  refine lawful_checked_iff.mpr ⟨lawful_scalar _, fun w y hw hy => ?_⟩
  cases w with
  | str value =>
      unfold checkEndpoint at hy
      dsimp only at hy
      obtain ⟨kept, hkept, rfl⟩ := Option.map_eq_some_iff.mp hy
      refine ⟨validate_str kept, ?_⟩
      have hagain : sanitizeEndpoint env kept = .ok kept := by
        by_cases hempty : kept = ""
        · rw [hempty]
          rfl
        · cases hsan : sanitizeEndpoint env value with
          | error e =>
              rw [hsan] at hkept
              cases hkept
          | ok result =>
              rw [hsan] at hkept
              obtain rfl : result = kept := Option.some.inj hkept
              by_cases hvalue : value = ""
              · rw [hvalue] at hsan
                exact absurd (Except.ok.inj hsan).symm hempty
              · obtain ⟨host, hosts, -, -, hresult⟩ := (sanitizeEndpoint_eq_ok hvalue).mp hsan
                split at hresult
                · rw [← hresult] at hsan
                  exact hresult ▸ hsan
                · exact absurd hresult hempty
      unfold checkEndpoint
      dsimp only
      rw [hagain]
      rfl
  | null | bool | num | arr | obj => cases hy

end Lawful

/-! ## The policy that is shown -/

section Shown

variable [SpacedUnicode] [Nfkc] [Coercion] [PatternSyntax]

open Schema

variable {env : IntakeEnv} {boot : BootDefaults} {p policy given : Policy} {k : String}

omit [Coercion] in
theorem names_gitLabIntakePolicy (env : IntakeEnv) :
    names (gitLabIntakePolicy env) = ["enabled", "endpoint", "interval_seconds", "requires",
      "scopes", "priority", "dedup_scope", "grouping", "allowed_endpoints", "configured"] := rfl

omit [Coercion] in
theorem nodup_gitLabIntakePolicy (env : IntakeEnv) : (names (gitLabIntakePolicy env)).Nodup := by
  rw [names_gitLabIntakePolicy]
  decide

omit [Nfkc] [Coercion] [PatternSyntax] in
theorem strip_tooling : Text.strip "tooling" = "tooling" := by
  have hstart : Unicode.isSpace 't' = false := SpacedUnicode.not_isSpace 't' rfl
  have hend : Unicode.isSpace 'g' = false := SpacedUnicode.not_isSpace 'g' rfl
  have hkept : Text.rstripList Unicode.isSpace ("tooling".toList.dropWhile Unicode.isSpace) =
      "tooling".toList := by
    simp [Text.rstripList, hstart, hend]
  unfold Text.strip
  rw [hkept, String.ofList_toList]

omit [Nfkc] [Coercion] [PatternSyntax] in
theorem checkRequires_tooling :
    checkRequires (.arr [.str "tooling"]) = some (.arr [.str "tooling"]) := by
  have hkept : capability (.str "tooling") = some (.str "tooling") := by
    unfold capability
    dsimp only
    rw [strip_tooling]
    rfl
  unfold checkRequires
  simp [hkept]

theorem lawful_gitLabIntakePolicy (env : IntakeEnv) :
    (Schema.model false (gitLabIntakePolicy env)).Lawful := by
  refine lawful_model false (nodup_gitLabIntakePolicy env) ?_
  have henabled : (Schema.optional (.scalar .bool)).Lawful := lawful_scalar .bool
  have hendpoint : checkEndpoint env (.str "") = some (.str "") := rfl
  have hrequires : validate (.list (.scalar .str)) (.arr [.str "tooling"]) =
      some (.arr [.str "tooling"]) := validate_texts ["tooling"]
  simp only [gitLabIntakePolicy, List.forall_mem_cons]
  refine ⟨⟨henabled, validate_null _⟩, ⟨lawful_checkEndpoint env, ?_⟩,
    ⟨lawful_scalar _, validate_int rfl⟩, ⟨lawful_checkRequires, ?_⟩,
    ⟨lawful_list lawful_intakeScope, validate_list (List.forall_mem_nil _)⟩,
    ⟨lawful_intakePriority, validate_defaults lawful_intakePriority⟩,
    ⟨lawful_ensure (lawful_scalar _) _, validate_ensure (validate_str _) rfl⟩,
    ⟨lawful_groupingConfig, validate_defaults lawful_groupingConfig⟩,
    ⟨lawful_list (lawful_scalar _), validate_list (List.forall_mem_nil _)⟩,
    ⟨lawful_scalar _, validate_bool _⟩, List.forall_mem_nil _⟩
  · rw [validate_checked, validate_str]
    exact hendpoint
  · rw [validate_checked, hrequires]
    exact checkRequires_tooling

/-- A policy each of whose fields, but for the two that are not stored, would be
validated to itself. -/
structure Stable (env : IntakeEnv) (p : Policy) : Prop where
  keys : p.map Prod.fst = names (gitLabIntakePolicy env)
  values : ∀ f ∈ gitLabIntakePolicy env, f.1 ≠ "configured" → f.1 ≠ "allowed_endpoints" →
    ∃ v, p.lookup f.1 = some v ∧ validate f.2.1 v = some v

/-- The policy with the defaults of the two. -/
def plainPolicy (p : Policy) : Policy :=
  Json.insert (Json.insert p "configured" (.bool false)) "allowed_endpoints" (.arr [])

omit [SpacedUnicode] [Nfkc] [Coercion] [PatternSyntax] in
theorem lookup_shownPolicy : (shownPolicy p).lookup k =
    if k = "configured" ∨ k = "allowed_endpoints" then none else p.lookup k := by
  unfold shownPolicy
  rw [Json.lookup_erase, Json.lookup_erase]
  by_cases hallowed : k = "allowed_endpoints"
  · rw [if_pos hallowed, if_pos (.inr hallowed)]
  · rw [if_neg hallowed]
    simp [hallowed]

omit [SpacedUnicode] [Nfkc] [Coercion] [PatternSyntax] in
theorem lookup_plainPolicy : (plainPolicy p).lookup k =
    if k = "allowed_endpoints" then some (.arr []) else if k = "configured" then some (.bool false)
      else p.lookup k := by
  unfold plainPolicy
  rw [Json.lookup_insert, Json.lookup_insert]

omit [Coercion] in
theorem keys_insert_policy {key : String} {value : Json}
    (h : p.map Prod.fst = names (gitLabIntakePolicy env))
    (hkey : key ∈ names (gitLabIntakePolicy env)) :
    (Json.insert p key value).map Prod.fst = names (gitLabIntakePolicy env) := by
  rw [Json.keys_insert (h ▸ hkey), h]

omit [Coercion] in
theorem keys_plainPolicy (h : p.map Prod.fst = names (gitLabIntakePolicy env)) :
    (plainPolicy p).map Prod.fst = names (gitLabIntakePolicy env) :=
  keys_insert_policy (keys_insert_policy h (by rw [names_gitLabIntakePolicy]; decide))
    (by rw [names_gitLabIntakePolicy]; decide)

/-- What is shown of a stable policy is validated to it. -/
theorem validate_shownPolicy (h : Stable env p) :
    validateFields (gitLabIntakePolicy env) (shownPolicy p) = some (plainPolicy p) := by
  refine validateFields_eq (nodup_gitLabIntakePolicy env) (keys_plainPolicy h.keys)
    (fun f hf => ?_)
  have hfield : ∀ g ∈ gitLabIntakePolicy env, f.1 = g.1 → f = g := fun g hg hname =>
    List.inj_on_of_nodup_map (nodup_gitLabIntakePolicy env) hf hg hname
  rw [lookup_shownPolicy, lookup_plainPolicy]
  by_cases hallowed : f.1 = "allowed_endpoints"
  · rw [hfield ("allowed_endpoints", .list (.scalar .str), .arr []) (by simp [gitLabIntakePolicy])
      hallowed]
    rfl
  · by_cases hconfigured : f.1 = "configured"
    · rw [hfield ("configured", .scalar .bool, .bool false) (by simp [gitLabIntakePolicy])
        hconfigured]
      rfl
    · rw [if_neg (not_or.mpr ⟨hconfigured, hallowed⟩), if_neg hallowed, if_neg hconfigured]
      obtain ⟨v, hv, hself⟩ := h.values f hf hconfigured hallowed
      rw [hv]
      exact hself

omit [SpacedUnicode] [Nfkc] [Coercion] [PatternSyntax] in
theorem lookup_fill {key : String} {value : Json} : (fill key value p).lookup k =
    if k = key ∧ ((p.lookup key).getD .null).truthy = false then some value else p.lookup k := by
  unfold fill
  split
  case isTrue htruthy => rw [if_neg (fun h => absurd htruthy (by simp [h.2]))]
  case isFalse hfalsy =>
    rw [Bool.not_eq_true] at hfalsy
    rw [Json.lookup_insert, hfalsy]
    simp

omit [SpacedUnicode] [Nfkc] [Coercion] [PatternSyntax] in
/-- What was filled is not filled again. -/
theorem lookup_fill_again {q : Policy} {key : String} {value : Json}
    (h : p.lookup key = (fill key value q).lookup key) :
    (fill key value p).lookup k = p.lookup k := by
  rw [lookup_fill] at h ⊢
  split
  case isFalse => rfl
  case isTrue hfalsy =>
    obtain ⟨rfl, hfalsy⟩ := hfalsy
    split at h
    case isTrue => exact h.symm
    case isFalse htruthy =>
      rw [h] at hfalsy
      exact absurd ⟨rfl, hfalsy⟩ htruthy

omit [SpacedUnicode] [Nfkc] [Coercion] [PatternSyntax] in
theorem lookup_finish {configured : Bool} : (finish env p configured).lookup k =
    if k = "configured" then some (.bool configured)
    else (fill "endpoint" (.str (bootEndpoint env)) p).lookup k := by
  unfold finish
  rw [Json.lookup_insert]

omit [Coercion] in
theorem keys_fill {key : String} {value : Json}
    (h : p.map Prod.fst = names (gitLabIntakePolicy env))
    (hkey : key ∈ names (gitLabIntakePolicy env)) :
    (fill key value p).map Prod.fst = names (gitLabIntakePolicy env) := by
  unfold fill
  split
  · exact h
  · exact keys_insert_policy h hkey

omit [Coercion] in
theorem keys_finish {configured : Bool} (h : p.map Prod.fst = names (gitLabIntakePolicy env)) :
    (finish env p configured).map Prod.fst = names (gitLabIntakePolicy env) :=
  keys_insert_policy (keys_fill h (by rw [names_gitLabIntakePolicy]; decide))
    (by rw [names_gitLabIntakePolicy]; decide)

omit [PatternSyntax] [Coercion] in
/-- An endpoint that may be written is kept by the sanitizer. -/
theorem checkEndpoint_of_write {s : String} (h : checkEndpointWrite env (.str s) = .ok ()) :
    checkEndpoint env (.str s) = some (.str s) := by
  have hkept : sanitizeEndpoint env s = .ok s := by
    by_cases hempty : s = ""
    · rw [hempty]
      rfl
    · unfold checkEndpointWrite at h
      rw [if_pos (by simpa [Json.truthy] using hempty)] at h
      dsimp only at h
      split at h
      case h_1 => cases h
      case h_2 host hhost =>
        split at h
        case h_1 => cases h
        case h_2 hosts hhosts =>
          split at h
          case isTrue hmem =>
            refine (sanitizeEndpoint_eq_ok hempty).mpr ⟨host, hosts, hhost, hhosts, ?_⟩
            rw [if_pos ⟨ne_empty_of_mem_allowed hhosts hmem, hmem⟩]
          case isFalse => cases h
  unfold checkEndpoint
  dsimp only
  rw [hkept]
  rfl

theorem endpoint_is_text (h : validateFields (gitLabIntakePolicy env) given = some p) :
    ∃ s, p.lookup "endpoint" = some (.str s) := by
  obtain ⟨v, hv, hlookup⟩ := lookup_validateFields (nodup_gitLabIntakePolicy env) h
    (f := ("endpoint", .checked (.scalar .str) (checkEndpoint env), .str ""))
    (by simp [gitLabIntakePolicy])
  unfold fieldValue at hv
  split at hv
  · cases hv
    exact ⟨"", hlookup⟩
  · rw [validate_checked] at hv
    obtain ⟨w, -, hw⟩ := Option.bind_eq_some_iff.mp hv
    cases w with
    | str s =>
        obtain ⟨kept, -, rfl⟩ := Option.map_eq_some_iff.mp hw
        exact ⟨kept, hlookup⟩
    | null | bool | num | arr | obj => cases hw

theorem validate_again (h : validateFields (gitLabIntakePolicy env) given = some p)
    {f : String × Schema × Json} (hf : f ∈ gitLabIntakePolicy env) :
    ∃ v, p.lookup f.1 = some v ∧ validate f.2.1 v = some v := by
  have hlawful := lawful_gitLabIntakePolicy env
  rw [lawful_model_iff] at hlawful
  obtain ⟨hsettled, hdefault⟩ := settled_of_lawfulFields _ hlawful.2 f hf
  obtain ⟨v, hv, hlookup⟩ := lookup_validateFields (nodup_gitLabIntakePolicy env) h hf
  refine ⟨v, hlookup, ?_⟩
  unfold fieldValue at hv
  split at hv
  · cases hv
    exact hdefault
  · exact hsettled _ _ hv

/-- A loaded policy whose endpoint may be written is stable. -/
theorem stable_of_loaded (h : validateFields (gitLabIntakePolicy env) given = some p)
    (hpolicy : policy = finish env (fill "interval_seconds" (.num boot.interval) p) true)
    (hwrite : checkEndpointWrite env ((policy.lookup "endpoint").getD .null) = .ok ()) :
    Stable env policy := by
  have hkeys : (fill "interval_seconds" (.num boot.interval) p).map Prod.fst =
      names (gitLabIntakePolicy env) :=
    keys_fill (keys_validateFields h) (by rw [names_gitLabIntakePolicy]; decide)
  refine ⟨hpolicy ▸ keys_finish hkeys, fun f hf hconfigured hallowed => ?_⟩
  have hfield : ∀ g ∈ gitLabIntakePolicy env, f.1 = g.1 → f = g := fun g hg hname =>
    List.inj_on_of_nodup_map (nodup_gitLabIntakePolicy env) hf hg hname
  obtain ⟨v, hv, hself⟩ := validate_again h hf
  have hread : policy.lookup f.1 = (fill "endpoint" (.str (bootEndpoint env))
      (fill "interval_seconds" (.num boot.interval) p)).lookup f.1 := by
    rw [hpolicy, lookup_finish, if_neg hconfigured]
  by_cases hendpoint : f.1 = "endpoint"
  · -- what may be written is kept, whether it was stored or is the default
    obtain ⟨s, hs⟩ : ∃ s, policy.lookup "endpoint" = some (.str s) := by
      obtain ⟨s, hs⟩ := endpoint_is_text h
      rw [← hendpoint, hread, lookup_fill]
      split
      · exact ⟨_, rfl⟩
      · rw [lookup_fill, if_neg (by rw [hendpoint]; simp), hendpoint]
        exact ⟨s, hs⟩
    rw [hs] at hwrite
    refine ⟨.str s, hendpoint ▸ hs, ?_⟩
    rw [hfield ("endpoint", .checked (.scalar .str) (checkEndpoint env), .str "")
      (by simp [gitLabIntakePolicy]) hendpoint, validate, validate_str]
    exact checkEndpoint_of_write hwrite
  · rw [hread, lookup_fill, if_neg (fun hboth => hendpoint hboth.1), lookup_fill]
    split
    case isTrue hinterval =>
      refine ⟨_, rfl, ?_⟩
      rw [hfield ("interval_seconds", .scalar .int, .num 0) (by simp [gitLabIntakePolicy])
        hinterval.1]
      exact validate_int (Rat.den_intCast _)
    case isFalse => exact ⟨v, hv, hself⟩

theorem stable_defaults (env : IntakeEnv) : Stable env (defaults (gitLabIntakePolicy env)) := by
  have hlawful := lawful_gitLabIntakePolicy env
  rw [lawful_model_iff] at hlawful
  refine ⟨by simp [defaults, names, Function.comp_def], fun f hf _ _ => ?_⟩
  exact ⟨f.2.2, lookup_defaults hlawful.1 hf, (settled_of_lawfulFields _ hlawful.2 f hf).2⟩

omit [Coercion] in
theorem plainPolicy_defaults (env : IntakeEnv) :
    plainPolicy (defaults (gitLabIntakePolicy env)) = defaults (gitLabIntakePolicy env) := rfl

omit [Coercion] in
/-- A policy that was finished once is not changed by finishing it again, but for
the hosts that are not stored. -/
theorem finish_plainPolicy (hkeys : p.map Prod.fst = names (gitLabIntakePolicy env))
    (hpolicy : policy = finish env (fill "interval_seconds" (.num boot.interval) p) true) :
    finish env (fill "interval_seconds" (.num boot.interval) (plainPolicy policy)) true =
      Json.insert policy "allowed_endpoints" (.arr []) := by
  have hinterval : "interval_seconds" ∈ names (gitLabIntakePolicy env) := by
    rw [names_gitLabIntakePolicy]
    decide
  have hpolicyKeys : policy.map Prod.fst = names (gitLabIntakePolicy env) :=
    hpolicy ▸ keys_finish (keys_fill hkeys hinterval)
  have hleft : (finish env (fill "interval_seconds" (.num boot.interval) (plainPolicy policy))
      true).map Prod.fst = names (gitLabIntakePolicy env) :=
    keys_finish (keys_fill (keys_plainPolicy hpolicyKeys) hinterval)
  have hright : (Json.insert policy "allowed_endpoints" (.arr [])).map Prod.fst =
      names (gitLabIntakePolicy env) :=
    keys_insert_policy hpolicyKeys (by rw [names_gitLabIntakePolicy]; decide)
  refine Json.eq_of_lookup (hleft.trans hright.symm)
    (hleft ▸ nodup_gitLabIntakePolicy env) (fun k => ?_)
  have hread : ∀ k, k ≠ "configured" → policy.lookup k =
      (fill "endpoint" (.str (bootEndpoint env))
        (fill "interval_seconds" (.num boot.interval) p)).lookup k := by
    intro k hk
    rw [hpolicy, lookup_finish, if_neg hk]
  have hplain : ∀ k, k ≠ "allowed_endpoints" → k ≠ "configured" →
      (plainPolicy policy).lookup k = policy.lookup k := by
    intro k hallowed hconfigured
    rw [lookup_plainPolicy, if_neg hallowed, if_neg hconfigured]
  have hfill : ∀ k, (fill "interval_seconds" (.num boot.interval) (plainPolicy policy)).lookup k =
      (plainPolicy policy).lookup k := by
    refine fun k => lookup_fill_again (q := p) ?_
    rw [hplain _ (by decide) (by decide), hread _ (by decide), lookup_fill,
      if_neg (fun h => absurd h.1 (by decide))]
  have hfill' : ∀ k, (fill "endpoint" (.str (bootEndpoint env))
      (fill "interval_seconds" (.num boot.interval) (plainPolicy policy))).lookup k =
      (plainPolicy policy).lookup k := by
    intro k
    rw [lookup_fill_again (q := fill "interval_seconds" (.num boot.interval) p), hfill]
    rw [hfill, hplain _ (by decide) (by decide), hread _ (by decide)]
  rw [lookup_finish, hfill', lookup_plainPolicy, Json.lookup_insert]
  by_cases hconfigured : k = "configured"
  · rw [if_pos hconfigured, if_neg (by rw [hconfigured]; decide), hconfigured, hpolicy,
      lookup_finish, if_pos rfl]
  · rw [if_neg hconfigured, if_neg hconfigured]

end Shown

/-! ## Reading, editing and writing back -/

section RoundTrip

variable [SpacedUnicode] [Nfkc] [Coercion] [PatternSyntax]

open Schema

variable {str : Json → String} {env env' : IntakeEnv} {boot : BootDefaults}
  {p q policy given gitlab intake existing shown : List (String × Json)}
  {cfg : Option (List (String × Json))} {k : String}

omit [SpacedUnicode] [Nfkc] [Coercion] [PatternSyntax] in
theorem policyFromRaw_eq_some : policyFromRaw cfg = some gitlab ↔
    ∃ existing intake, cfg = some existing ∧ existing.lookup "intake" = some (.obj intake) ∧
      intake.lookup "gitlab" = some (.obj gitlab) := by
  constructor
  · intro h
    unfold policyFromRaw at h
    split at h
    case h_1 => cases h
    case h_2 existing =>
      split at h
      case h_2 => cases h
      case h_1 intake hintake =>
        split at h
        case h_2 => cases h
        case h_1 section_ hgitlab =>
          cases h
          exact ⟨existing, intake, rfl, hintake, hgitlab⟩
  · rintro ⟨existing, intake, rfl, hintake, hgitlab⟩
    unfold policyFromRaw
    simp only [hintake, hgitlab]

omit [SpacedUnicode] [Nfkc] [Coercion] [PatternSyntax] in
/-- The hosts are lifted once. -/
theorem liftSection_again :
    liftSection str gitlab (liftSection str gitlab env) = liftSection str gitlab env := by
  have honce : ∀ extra, liftAllowed extra (liftAllowed extra env) = liftAllowed extra env := by
    intro extra
    unfold liftAllowed
    by_cases h : extra = [] ∨ env.allowedEndpoints.isSome
    · rw [if_pos h, if_pos h]
    · rw [if_neg h, if_pos (.inr rfl)]
  unfold liftSection
  cases gitlab.lookup "allowed_endpoints" with
  | none => rfl
  | some j =>
      cases j with
      | arr extra => exact honce _
      | null | bool | num | str | obj => rfl

/-- What `load_policy` makes of a stored section. -/
theorem loadPolicy_eq_some (hstored : policyFromRaw cfg = some gitlab)
    (h : loadPolicy str boot env cfg = (env', some policy)) :
    env' = liftSection str gitlab env ∧ ∃ p,
      validateFields (gitLabIntakePolicy env') gitlab = some p ∧
        policy = finish env' (fill "interval_seconds" (.num boot.interval) p) true := by
  unfold loadPolicy at h
  rw [hstored] at h
  dsimp only at h
  obtain ⟨henv, hpolicy⟩ := Prod.mk.inj h
  obtain ⟨p, hp, heq⟩ := Option.map_eq_some_iff.mp hpolicy
  exact ⟨henv.symm, p, henv ▸ hp, henv ▸ heq.symm⟩

/-- A configuration whose `intake.gitlab` section is this policy. -/
def storedWith (existing intake p : List (String × Json)) : List (String × Json) :=
  Json.insert existing "intake" (.obj (Json.insert intake "gitlab" (.obj (shownPolicy p))))

omit [SpacedUnicode] [Nfkc] [Coercion] [PatternSyntax] in
theorem policyFromRaw_storedWith :
    policyFromRaw (some (storedWith existing intake p)) = some (shownPolicy p) := by
  refine policyFromRaw_eq_some.mpr
    ⟨_, Json.insert intake "gitlab" (.obj (shownPolicy p)), rfl, ?_, ?_⟩
  · unfold storedWith
    rw [Json.lookup_insert, if_pos rfl]
  · rw [Json.lookup_insert, if_pos rfl]

/-- A stable policy that was stored is loaded with its blanks filled. -/
theorem loadPolicy_storedWith (h : Stable env p) :
    loadPolicy str boot env (some (storedWith existing intake p)) =
      (env, some (finish env (fill "interval_seconds" (.num boot.interval) (plainPolicy p))
        true)) := by
  have hlift : liftSection str (shownPolicy p) env = env := by
    unfold liftSection
    rw [lookup_shownPolicy, if_pos (.inr rfl)]
  unfold loadPolicy
  rw [policyFromRaw_storedWith]
  dsimp only
  rw [hlift, validate_shownPolicy h]
  rfl

theorem afterPut_refused {e : PolicyRefusal} (hsection : gitlabSection given = .obj given)
    (herase : Json.erase given "allowed_endpoints" = given)
    (hwrite : checkEndpointWrite env ((given.lookup "endpoint").getD .null) = .error e) :
    afterPut env cfg given = cfg := by
  unfold afterPut putPolicy validatePolicyWrite
  rw [hsection]
  dsimp only
  rw [herase, hwrite]
  rfl

/-- What an accepted write of a bare section stores. -/
theorem afterPut_accepted (hsection : gitlabSection given = .obj given)
    (herase : Json.erase given "allowed_endpoints" = given)
    (hintake : existing.lookup "intake" = some (.obj intake))
    (hwrite : checkEndpointWrite env ((given.lookup "endpoint").getD .null) = .ok ())
    (hvalid : validateFields (gitLabIntakePolicy env) given = some q) :
    afterPut env (some existing) given = some (storedWith existing intake q) := by
  have hintakeOf : intakeOf existing = .ok intake := by
    unfold intakeOf
    rw [hintake]
  unfold afterPut putPolicy validatePolicyWrite
  rw [hsection]
  dsimp only [Option.getD_some]
  rw [herase, hwrite, hvalid, hintakeOf]
  rfl

/-- Every section but `intake.gitlab` is as it was. -/
def OthersKept (cfg cfg' : Option (List (String × Json))) : Prop :=
  (∀ k, k ≠ "intake" → (cfg'.getD []).lookup k = (cfg.getD []).lookup k) ∧
    ∀ k, k ≠ "gitlab" → (((cfg'.getD []).lookup "intake").getD .null).get? k =
      (((cfg.getD []).lookup "intake").getD .null).get? k

/-- A write of this body leaves the policy that is loaded, and every other section,
as they were. -/
def Survives (str : Json → String) (boot : BootDefaults) (env env' : IntakeEnv)
    (cfg : Option (List (String × Json))) (body : List (String × Json)) : Prop :=
  (loadPolicy str boot env' (afterPut env' cfg body)).2 = (loadPolicy str boot env cfg).2 ∧
    OthersKept cfg (afterPut env' cfg body)

/-- What the end of a load makes of a field. -/
def filled (boot : BootDefaults) (env : IntakeEnv) (key : String) (value : Json) : Json :=
  if key = "configured" then .bool true
  else if key = "endpoint" ∧ value.truthy = false then .str (bootEndpoint env)
  else if key = "interval_seconds" ∧ value.truthy = false then .num boot.interval
  else value

/-- A section whose fields, as far as they are given, come to what the defaults of
the model come to. -/
def AllDefault (boot : BootDefaults) (env : IntakeEnv) (gitlab : List (String × Json)) : Prop :=
  ∀ f ∈ gitLabIntakePolicy env, ∀ j, gitlab.lookup f.1 = some j →
    ∃ v, validate f.2.1 j = some v ∧ filled boot env f.1 v = filled boot env f.1 f.2.2

/-- What an empty section is loaded to. -/
def emptyPolicy (boot : BootDefaults) (env : IntakeEnv) : Policy :=
  finish env (fill "interval_seconds" (.num boot.interval) (defaults (gitLabIntakePolicy env))) true

omit [SpacedUnicode] [Nfkc] [Coercion] [PatternSyntax] in
theorem lookup_loaded {v : Json} (h : p.lookup k = some v) :
    (finish env (fill "interval_seconds" (.num boot.interval) p) true).lookup k =
      some (filled boot env k v) := by
  rw [lookup_finish, lookup_fill, lookup_fill, lookup_fill]
  unfold filled
  split
  · rfl
  · by_cases hendpoint : k = "endpoint"
    · subst hendpoint
      simp only [h, Option.getD_some, true_and, String.reduceEq, false_and, if_false]
      split
      · rfl
      · rfl
    · by_cases hinterval : k = "interval_seconds"
      · subst hinterval
        simp only [h, Option.getD_some, true_and, String.reduceEq, false_and, if_false]
        split
        · rfl
        · rfl
      · simp only [hendpoint, hinterval, h, false_and, if_false]

/-- A section is loaded to what an empty one is exactly when it is all defaults. -/
theorem loaded_eq_empty_iff (hp : validateFields (gitLabIntakePolicy env) gitlab = some p) :
    finish env (fill "interval_seconds" (.num boot.interval) p) true = emptyPolicy boot env ↔
      AllDefault boot env gitlab := by
  have hnodup := nodup_gitLabIntakePolicy env
  have hkeys := keys_validateFields hp
  have hinterval : "interval_seconds" ∈ names (gitLabIntakePolicy env) := by
    rw [names_gitLabIntakePolicy]
    decide
  have hloaded : ∀ f ∈ gitLabIntakePolicy env, ∃ v,
      fieldValue f.2 (gitlab.lookup f.1) = some v ∧
      (finish env (fill "interval_seconds" (.num boot.interval) p) true).lookup f.1 =
        some (filled boot env f.1 v) := by
    intro f hf
    obtain ⟨v, hv, hlookup⟩ := lookup_validateFields hnodup hp hf
    exact ⟨v, hv, lookup_loaded hlookup⟩
  have hempty : ∀ f ∈ gitLabIntakePolicy env,
      (emptyPolicy boot env).lookup f.1 = some (filled boot env f.1 f.2.2) :=
    fun f hf => lookup_loaded (lookup_defaults hnodup hf)
  constructor
  · intro heq f hf j hj
    obtain ⟨v, hv, hlookup⟩ := hloaded f hf
    rw [hj] at hv
    rw [heq, hempty f hf] at hlookup
    exact ⟨v, hv, (Option.some.inj hlookup).symm⟩
  · intro hall
    have hleft : (finish env (fill "interval_seconds" (.num boot.interval) p) true).map Prod.fst =
        names (gitLabIntakePolicy env) := keys_finish (keys_fill hkeys hinterval)
    have hright : (emptyPolicy boot env).map Prod.fst = names (gitLabIntakePolicy env) :=
      keys_finish (keys_fill (stable_defaults env).keys hinterval)
    refine Json.eq_of_lookup (hleft.trans hright.symm) (hleft ▸ hnodup) (fun k => ?_)
    by_cases hk : k ∈ names (gitLabIntakePolicy env)
    · obtain ⟨f, hf, rfl⟩ := List.mem_map.mp hk
      obtain ⟨v, hv, hlookup⟩ := hloaded f hf
      rw [hlookup, hempty f hf]
      unfold fieldValue at hv
      split at hv
      case h_1 =>
        cases hv
        rfl
      case h_2 j hj =>
        obtain ⟨w, hw, hsame⟩ := hall f hf j hj
        rw [← hsame, Option.some.inj (hv.symm.trans hw)]
    · have hnone : ∀ {fs : Policy}, fs.map Prod.fst = names (gitLabIntakePolicy env) →
          fs.lookup k = none := by
        intro fs hfs
        rw [← Option.not_isSome_iff_eq_none, Json.lookup_isSome_iff, hfs]
        exact hk
      rw [hnone hleft, hnone hright]

omit [SpacedUnicode] [Nfkc] [Coercion] [PatternSyntax] in
theorem othersKept_storedWith (hintake : existing.lookup "intake" = some (.obj intake)) :
    OthersKept (some existing) (some (storedWith existing intake p)) := by
  unfold storedWith
  constructor
  · intro k hk
    exact Json.lookup_insert.trans (if_neg hk)
  · intro k hk
    dsimp only [Option.getD_some]
    rw [Json.lookup_insert, if_pos rfl, hintake]
    exact Json.lookup_insert.trans (if_neg hk)

omit [SpacedUnicode] [Nfkc] [Coercion] [PatternSyntax] in
theorem intake_of_stored (h : policyFromRaw cfg = some gitlab) :
    ∃ existing intake, cfg = some existing ∧ existing.lookup "intake" = some (.obj intake) := by
  obtain ⟨existing, intake, hcfg, hintake, -⟩ := policyFromRaw_eq_some.mp h
  exact ⟨existing, intake, hcfg, hintake⟩

/-- Sent back as a whole, the document is written as an empty section. -/
theorem document_written (hintake : existing.lookup "intake" = some (.obj intake))
    (hconfigured : policy.lookup "configured" = some (.bool true)) :
    ∃ q, plainPolicy q = defaults (gitLabIntakePolicy env) ∧ Stable env q ∧
      afterPut env (some existing) (policyDocument boot env policy) =
        some (storedWith existing intake q) := by
  let q : Policy := Json.insert (defaults (gitLabIntakePolicy env)) "configured" (.bool true)
  have hkeys : q.map Prod.fst = names (gitLabIntakePolicy env) :=
    keys_insert_policy (stable_defaults env).keys (by rw [names_gitLabIntakePolicy]; decide)
  have hvalid : validateFields (gitLabIntakePolicy env) (policyDocument boot env policy) =
      some q := by
    refine validateFields_eq (nodup_gitLabIntakePolicy env) hkeys (fun f hf => ?_)
    have hfield : ∀ g ∈ gitLabIntakePolicy env, f.1 = g.1 → f = g := fun g hg hname =>
      List.inj_on_of_nodup_map (nodup_gitLabIntakePolicy env) hf hg hname
    rw [Json.lookup_insert]
    by_cases hk : f.1 = "configured"
    · rw [hfield ("configured", .scalar .bool, .bool false) (by simp [gitLabIntakePolicy]) hk,
        if_pos rfl]
      unfold policyDocument
      rw [Json.lookup_cons, if_pos rfl, hconfigured]
      exact validate_bool true
    · have hname : f.1 ∈ names (gitLabIntakePolicy env) := List.mem_map_of_mem hf
      have hother : f.1 ≠ "policy" ∧ f.1 ≠ "legacy_defaults" := by
        rw [names_gitLabIntakePolicy] at hname
        constructor
        · intro heq
          rw [heq] at hname
          exact absurd hname (by decide)
        · intro heq
          rw [heq] at hname
          exact absurd hname (by decide)
      rw [if_neg hk, lookup_defaults (nodup_gitLabIntakePolicy env) hf]
      unfold policyDocument
      rw [Json.lookup_cons, if_neg hk, Json.lookup_cons, if_neg hother.1, Json.lookup_cons,
        if_neg hother.2]
      rfl
  refine ⟨q, plainPolicy_defaults env, ⟨hkeys, fun f hf hk hallowed => ?_⟩, ?_⟩
  · obtain ⟨v, hv, hself⟩ := (stable_defaults env).values f hf hk hallowed
    exact ⟨v, Json.lookup_insert.trans ((if_neg hk).trans hv), hself⟩
  · exact afterPut_accepted rfl rfl hintake rfl hvalid

omit [SpacedUnicode] [Nfkc] [Coercion] [PatternSyntax] in
theorem storedWith_plainPolicy :
    storedWith existing intake (plainPolicy policy) = storedWith existing intake policy := by
  have hshown : shownPolicy (plainPolicy policy) = shownPolicy policy := by
    unfold shownPolicy plainPolicy
    rw [Json.erase_comm, Json.erase_insert, Json.erase_comm, Json.erase_insert]
  unfold storedWith
  rw [hshown]

/-- The policy object that is sent back is refused, or written as it is. -/
theorem object_written (hintake : existing.lookup "intake" = some (.obj intake))
    (hp : validateFields (gitLabIntakePolicy env) gitlab = some p)
    (hpolicy : policy = finish env (fill "interval_seconds" (.num boot.interval) p) true) :
    afterPut env (some existing) (shownPolicy policy) = some existing ∨
      Stable env policy ∧ afterPut env (some existing) (shownPolicy policy) =
        some (storedWith existing intake policy) := by
  have hinterval : "interval_seconds" ∈ names (gitLabIntakePolicy env) := by
    rw [names_gitLabIntakePolicy]
    decide
  have hkeys : policy.map Prod.fst = names (gitLabIntakePolicy env) :=
    hpolicy ▸ keys_finish (keys_fill (keys_validateFields hp) hinterval)
  have hnone : ∀ k, k ∉ names (gitLabIntakePolicy env) → (shownPolicy policy).lookup k = none := by
    intro k hk
    rw [lookup_shownPolicy, ← hkeys, ← Json.lookup_isSome_iff, Option.not_isSome_iff_eq_none] at *
    rw [hk, ite_self]
  have hsection : gitlabSection (shownPolicy policy) = .obj (shownPolicy policy) := by
    unfold gitlabSection
    rw [hnone "gitlab" (by rw [names_gitLabIntakePolicy]; decide),
      hnone "intake" (by rw [names_gitLabIntakePolicy]; decide)]
  have herase : Json.erase (shownPolicy policy) "allowed_endpoints" = shownPolicy policy := by
    simp [shownPolicy, Json.erase, List.filter_filter]
  have hendpoint : (shownPolicy policy).lookup "endpoint" = policy.lookup "endpoint" := by
    rw [lookup_shownPolicy, if_neg (by decide)]
  cases hwrite : checkEndpointWrite env ((policy.lookup "endpoint").getD .null) with
  | error e => exact .inl (afterPut_refused hsection herase (hendpoint ▸ hwrite))
  | ok u =>
      have hstable := stable_of_loaded hp hpolicy hwrite
      have hwritten := afterPut_accepted hsection herase hintake (hendpoint ▸ hwrite)
        (validate_shownPolicy hstable)
      exact .inr ⟨hstable, hwritten.trans (congrArg some storedWith_plainPolicy)⟩

/-- For every stored `intake.gitlab` policy, what is read and sent back, as the whole
document and as its `policy` object, leaves the loaded policy and the other sections
as they were exactly when the stored section is all defaults. -/
theorem policy_roundTrip_iff (hstored : policyFromRaw cfg = some gitlab)
    (hget : getPolicy str boot env cfg = (env', some shown)) :
    (∀ body, body = shown ∨ shown.lookup "policy" = some (.obj body) →
        Survives str boot env env' cfg body) ↔ AllDefault boot env' gitlab := by
  obtain ⟨existing, intake, rfl, hintake⟩ := intake_of_stored hstored
  obtain ⟨policy, hload, rfl⟩ : ∃ policy, loadPolicy str boot env (some existing) =
      (env', some policy) ∧ policyDocument boot env' policy = shown := by
    obtain ⟨henv, hshown⟩ := Prod.mk.inj hget
    obtain ⟨policy, hpolicy, heq⟩ := Option.map_eq_some_iff.mp hshown
    exact ⟨policy, Prod.ext henv hpolicy, henv ▸ heq⟩
  obtain ⟨rfl, p, hp, hpolicy⟩ := loadPolicy_eq_some hstored hload
  have hconfigured : policy.lookup "configured" = some (.bool true) := by
    rw [hpolicy, lookup_finish, if_pos rfl]
  rw [← loaded_eq_empty_iff hp, ← hpolicy]
  obtain ⟨q, hplain, hstable, hafter⟩ : ∃ q, _ ∧ _ ∧ afterPut _ _ (policyDocument boot _ _) = _ :=
    document_written hintake hconfigured
  have hread : (loadPolicy str boot env (some existing)).2 = some policy := by rw [hload]
  have hdocument : (loadPolicy str boot (liftSection str gitlab env)
      (afterPut (liftSection str gitlab env) (some existing)
        (policyDocument boot (liftSection str gitlab env) policy))).2 =
      some (emptyPolicy boot (liftSection str gitlab env)) := by
    rw [hafter, loadPolicy_storedWith hstable, hplain]
    rfl
  constructor
  · intro h
    have hsurvives := (h _ (.inl rfl)).1
    rw [hdocument, hread] at hsurvives
    exact (Option.some.inj hsurvives).symm
  · intro hempty body hbody
    rcases hbody with rfl | hbody
    · refine ⟨by rw [hdocument, hread, hempty], ?_⟩
      rw [hafter]
      exact othersKept_storedWith hintake
    · obtain rfl : shownPolicy policy = body := Json.obj.inj (Option.some.inj hbody)
      rcases object_written hintake hp hpolicy with hrefused | ⟨hstable, hwritten⟩
      · rw [Survives, hrefused]
        refine ⟨?_, fun _ _ => rfl, fun _ _ => rfl⟩
        unfold loadPolicy
        rw [hstored]
        dsimp only
        rw [liftSection_again]
      · rw [Survives, hwritten]
        refine ⟨?_, othersKept_storedWith hintake⟩
        have hallowed : policy.lookup "allowed_endpoints" = some (.arr []) := by
          rw [hempty]
          exact lookup_loaded (lookup_defaults (nodup_gitLabIntakePolicy _)
            (f := ("allowed_endpoints", .list (.scalar .str), .arr []))
            (by simp [gitLabIntakePolicy]))
        rw [hread, loadPolicy_storedWith hstable,
          finish_plainPolicy (keys_validateFields hp) hpolicy, Json.insert_eq_self hallowed]

end RoundTrip

section Example

local instance asciiPolicies : SpacedUnicode := SpacedUnicode.ascii

local instance asciiPoliciesNfkc : Nfkc := Nfkc.ascii

attribute [local instance] Coercion.strict

local instance anyPattern : PatternSyntax where
  compiles _ := true
  compiles_blocked := rfl
  compiles_needsHuman := rfl
  compiles_needsDecision := rfl
  compiles_epic := rfl
  compiles_typeEpic := rfl

def bootDefaults : BootDefaults where
  project := "shared%2Fclaude-plugins"
  label := "tooling"
  interval := 30
  requires := ["tooling"]
  tokenPresent := true

def configOf (gitlab : List (String × Json)) : Option (List (String × Json)) :=
  some [("intake", .obj [("gitlab", .obj gitlab)])]

theorem policy_roundTrip_iff_empty :
    Survives (fun _ => "") bootDefaults {} {} (configOf [])
      (policyDocument bootDefaults {} (emptyPolicy bootDefaults {})) := by
  have hstored : policyFromRaw (configOf []) = some [] := rfl
  have hget : getPolicy (fun _ => "") bootDefaults {} (configOf []) =
      ({}, some (policyDocument bootDefaults {} (emptyPolicy bootDefaults {}))) := rfl
  exact (policy_roundTrip_iff hstored hget).mpr (fun _ _ _ hj => by cases hj) _ (.inl rfl)

/-- The whole document wipes a policy that polls every 45 seconds. -/
theorem policy_wiped :
    ∃ shown, getPolicy (fun _ => "") bootDefaults {}
        (configOf [("interval_seconds", .num 45)]) = ({}, some shown) ∧
      ¬ Survives (fun _ => "") bootDefaults {} {} (configOf [("interval_seconds", .num 45)])
        shown := by
  refine ⟨_, rfl, fun h => ?_⟩
  have hinterval : some (Json.num 30) = some (Json.num 45) :=
    congrArg (fun policy : Option Policy => policy.bind (List.lookup "interval_seconds")) h.1
  simp at hinterval

end Example

end IntakePolicyApi

end HermesCluster
