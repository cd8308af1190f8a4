import HermesCluster.Core.IntakePolicy
import HermesCluster.Lib.Url
/-!
# Intake endpoint

`core/intake_policy.py` and the poller of `routers/intake.py`, as far as they
decide where the intake credential is sent: the endpoint of the policy row, the
hosts it may name, and the endpoint a cycle requests. The allowlist beyond the
boot endpoint lives in the environment of the process.
-/

namespace HermesCluster

/-- `DEFAULT_GITLAB_ENDPOINT`. -/
def defaultGitlabEndpoint : String := "https://gitlab.bdaya-dev.com"

/-- `GITLAB_INTAKE_ENDPOINT` and `GITLAB_INTAKE_ALLOWED_ENDPOINTS`. -/
structure IntakeEnv where
  endpoint : Option String := none
  allowedEndpoints : Option String := none
  deriving DecidableEq, Repr

/-- The `endpoint` of a policy row, which is JSON. -/
inductive EndpointValue where
  | absent
  | text (s : String)
  | other
  deriving DecidableEq, Repr

/-- A stored `intake.gitlab` section whose other fields are well formed; `rest`
is what they validate to. -/
structure PolicyRow where
  endpoint : EndpointValue := .absent
  allowedEndpoints : List String := []
  rest : GitLabIntakePolicy := {}

/-- What `load_policy` returns. -/
structure LoadedPolicy where
  endpoint : String
  rest : GitLabIntakePolicy

namespace IntakeEndpoint

/-! ## The allowlist -/

/-- `os.environ.setdefault("GITLAB_INTAKE_ALLOWED_ENDPOINTS", …)` for a list that
is not empty. -/
def liftAllowed (extra : List String) (env : IntakeEnv) : IntakeEnv :=
  if extra = [] ∨ env.allowedEndpoints.isSome then env
  else { env with allowedEndpoints := some (Text.join "," extra) }

/-- The lift that a load of the row makes. -/
def liftRow (env : IntakeEnv) (row : Option PolicyRow) : IntakeEnv :=
  match row with
  | none => env
  | some r => liftAllowed r.allowedEndpoints env

/-- The environment after loads of these rows. -/
def envAfter (env : IntakeEnv) (rows : List (Option PolicyRow)) : IntakeEnv :=
  rows.foldl liftRow env

/-- `_seed_policy_from_config_file`: the lift of the file, and the row it leaves. -/
def seedPolicyFromConfigFile (env : IntakeEnv) (seed row : Option PolicyRow) :
    IntakeEnv × Option PolicyRow :=
  (liftRow env seed, row.or seed)

/-- The endpoint of `_boot_defaults`. -/
def bootEndpoint (env : IntakeEnv) : String :=
  env.endpoint.getD defaultGitlabEndpoint

section Hosts

variable [Unicode] [Nfkc]

/-- `_endpoint_host`: the port is read outside the `try`. -/
def endpointHost (value : String) : Except String String :=
  match Url.urlsplit value with
  | .error _ => .ok ""
  | .ok parsed =>
      if (parsed.scheme ≠ "http" ∧ parsed.scheme ≠ "https") ∨ parsed.netloc = "" then .ok ""
      else
        let host := Text.rstripChar '.' (Unicode.lower (parsed.hostname.getD ""))
        if host = "" then .ok ""
        else
          match parsed.port with
          | .error e => .error e
          | .ok none => .ok host
          | .ok (some port) => .ok (host ++ ":" ++ toString port)

omit [Unicode] [Nfkc] in
/-- `raw.split(",")`. -/
def splitCommas (raw : String) : List String :=
  (raw.toList.splitOn ',').map String.ofList

omit [Nfkc] in
/-- The entries that `_allowed_endpoint_hosts` reads, without the blank ones. -/
def allowedEntries (env : IntakeEnv) (bootDefault : String) : List String :=
  let fromEnv := env.endpoint.getD ""
  let effectiveDefault :=
    if bootDefault ≠ "" then bootDefault
    else if fromEnv ≠ "" then fromEnv
    else defaultGitlabEndpoint
  (([effectiveDefault, env.allowedEndpoints.getD ""].flatMap splitCommas).map
    Text.strip).filter (fun part => decide (part ≠ ""))

/-- The host of one entry, which may leave out the scheme. -/
def entryHost (part : String) : Except String String :=
  endpointHost (if Text.contains part "://" then part else "https://" ++ part)

/-- `_allowed_endpoint_hosts`. -/
def allowedEndpointHosts (env : IntakeEnv) (bootDefault : String) :
    Except String (List String) :=
  ((allowedEntries env bootDefault).mapM entryHost).map
    (List.filter (fun host => decide (host ≠ "")))

/-- `_sanitize_endpoint` of the load path. -/
def sanitizeEndpoint (env : IntakeEnv) (value : String) : Except String String := do
  if value = "" then return ""
  let host ← endpointHost value
  let allowed ← allowedEndpointHosts env ""
  return if host ≠ "" ∧ host ∈ allowed then value else ""

/-! ## Loading and polling -/

/-- The `endpoint` field after its validator; a default is not validated. -/
def validateEndpoint (env : IntakeEnv) : EndpointValue → Except String String
  | .absent => .ok ""
  | .text value => sanitizeEndpoint env value
  | .other => .error "Input should be a valid string"

/-- The `endpoint` of the model that `load_policy` validates, in the environment
that it has lifted the row's list into. -/
def validatedEndpoint (env : IntakeEnv) (defaultEndpoint : String) (row : Option PolicyRow) :
    Except String String :=
  match row with
  | none => sanitizeEndpoint env defaultEndpoint
  | some r => validateEndpoint (liftRow env row) r.endpoint

omit [Unicode] [Nfkc] in
/-- What `load_policy` makes of the validated model: an endpoint that was wiped is
the default one. -/
def finishPolicy (defaultEndpoint : String) (row : Option PolicyRow) (endpoint : String) :
    LoadedPolicy where
  endpoint := if endpoint = "" then defaultEndpoint else endpoint
  rest := { (row.map PolicyRow.rest).getD {} with configured := row.isSome }

/-- `load_policy`. -/
def loadPolicy (env : IntakeEnv) (defaultEndpoint : String) (row : Option PolicyRow) :
    Except String LoadedPolicy := do
  let endpoint ← validatedEndpoint env defaultEndpoint row
  return finishPolicy defaultEndpoint row endpoint

/-- The endpoint that a cycle of `poll_once` sends the credential to; `none` if it
is switched off or refused. -/
def polledEndpoint (env : IntakeEnv) (defaultEndpoint : String) (row : Option PolicyRow) :
    Except String (Option String) := do
  let policy ← loadPolicy env defaultEndpoint row
  if policy.rest.enabled = some false then return none
  let endpoint := if policy.endpoint = "" then defaultEndpoint else policy.endpoint
  let host ← endpointHost endpoint
  let allowed ← allowedEndpointHosts (liftRow env row) defaultEndpoint
  return if host ∈ allowed then some endpoint else none

/-! ## The credential boundary -/

/-- The hosts that the boot configuration and the file seed allow. -/
def bootHosts (boot : IntakeEnv) : Except String (List String) :=
  allowedEndpointHosts boot (bootEndpoint boot)

/-- The host of the endpoint is absent or a boot host. -/
def HostAllowed (boot : IntakeEnv) (endpoint : String) : Prop :=
  ∀ host, endpointHost endpoint = .ok host →
    host = "" ∨ ∃ hosts, bootHosts boot = .ok hosts ∧ host ∈ hosts

/-- The policy row of a process that booted as `boot` and whose environment is now
`env` does not widen where the credential may go. -/
structure CredentialBoundary (boot env : IntakeEnv) (row : Option PolicyRow) : Prop where
  loads : ∀ r, row = some r →
    (loadPolicy env (bootEndpoint boot) (some { r with endpoint := .absent })).isOk →
      (loadPolicy env (bootEndpoint boot) row).isOk
  host : ∀ policy, loadPolicy env (bootEndpoint boot) row = .ok policy →
    HostAllowed boot policy.endpoint
  sent : ∀ endpoint, polledEndpoint env (bootEndpoint boot) row = .ok (some endpoint) →
    ∃ host hosts, endpointHost endpoint = .ok host ∧ bootHosts boot = .ok hosts ∧ host ∈ hosts

/-- What a row's endpoint must be like. Where the boot endpoint is used, its own host
is at issue; else the endpoint and every entry of the allowlist can be read, and a
host that the lifted lists accept is a boot host anyway. -/
def KeepsBoundary (boot env : IntakeEnv) (row : Option PolicyRow) : Prop :=
  match row.map PolicyRow.endpoint with
  | none =>
      (∃ hosts, allowedEndpointHosts env "" = .ok hosts) → HostAllowed boot (bootEndpoint boot)
  | some .absent => HostAllowed boot (bootEndpoint boot)
  | some .other => False
  | some (.text value) =>
      if value = "" then HostAllowed boot (bootEndpoint boot)
      else
        ∃ host hosts, endpointHost value = .ok host ∧
          allowedEndpointHosts (liftRow env row) "" = .ok hosts ∧
          if host ≠ "" ∧ host ∈ hosts then
            ∃ bootHosts', bootHosts boot = .ok bootHosts' ∧ host ∈ bootHosts'
          else HostAllowed boot (bootEndpoint boot)

variable {boot env : IntakeEnv} {row : Option PolicyRow}

omit [Unicode] [Nfkc] in
@[simp] theorem finishPolicy_endpoint (defaultEndpoint endpoint : String) :
    (finishPolicy defaultEndpoint row endpoint).endpoint =
      if endpoint = "" then defaultEndpoint else endpoint := rfl

theorem endpointHost_empty : endpointHost "" = .ok "" := by
  rfl

theorem ne_empty_of_mem_allowed {bootDefault host : String} {hosts : List String}
    (h : allowedEndpointHosts env bootDefault = .ok hosts) (hmem : host ∈ hosts) :
    host ≠ "" := by
  unfold allowedEndpointHosts at h
  cases hread : (allowedEntries env bootDefault).mapM entryHost with
  | error e =>
      rw [hread] at h
      cases h
  | ok read =>
      rw [hread] at h
      cases h
      exact of_decide_eq_true (List.mem_filter.mp hmem).2

/-- What the sanitizer lets through. -/
theorem sanitizeEndpoint_eq_ok {value result : String} (hvalue : value ≠ "") :
    sanitizeEndpoint env value = .ok result ↔
      ∃ host hosts, endpointHost value = .ok host ∧ allowedEndpointHosts env "" = .ok hosts ∧
        result = if host ≠ "" ∧ host ∈ hosts then value else "" := by
  unfold sanitizeEndpoint
  rw [if_neg hvalue]
  cases hhost : endpointHost value with
  | error e => simp [bind, Except.bind]
  | ok host =>
      cases hhosts : allowedEndpointHosts env "" with
      | error e => simp [bind, Except.bind]
      | ok hosts => simp [bind, Except.bind, pure, Except.pure, eq_comm]

theorem loadPolicy_eq_ok {defaultEndpoint : String} {policy : LoadedPolicy} :
    loadPolicy env defaultEndpoint row = .ok policy ↔
      ∃ endpoint, validatedEndpoint env defaultEndpoint row = .ok endpoint ∧
        policy = finishPolicy defaultEndpoint row endpoint := by
  unfold loadPolicy
  cases validatedEndpoint env defaultEndpoint row with
  | error e => simp [bind, Except.bind]
  | ok endpoint => simp [bind, Except.bind, pure, Except.pure, eq_comm]

omit [Unicode] [Nfkc] in
theorem isOk_iff_exists {ε α : Type} {x : Except ε α} : x.isOk = true ↔ ∃ a, x = .ok a := by
  cases x <;> simp [Except.isOk, Except.toBool]

theorem loadPolicy_isOk {defaultEndpoint : String} :
    (loadPolicy env defaultEndpoint row).isOk = true ↔
      ∃ endpoint, validatedEndpoint env defaultEndpoint row = .ok endpoint := by
  rw [isOk_iff_exists]
  constructor
  · rintro ⟨policy, hload⟩
    obtain ⟨endpoint, hvalid, -⟩ := loadPolicy_eq_ok.mp hload
    exact ⟨endpoint, hvalid⟩
  · rintro ⟨endpoint, hvalid⟩
    exact ⟨_, loadPolicy_eq_ok.mpr ⟨endpoint, hvalid, rfl⟩⟩

/-- The guard of the poller asks for a host that is there, so what is sent follows
from the host of the policy that was loaded. -/
theorem sent_of_host
    (hhost : ∀ policy, loadPolicy env (bootEndpoint boot) row = .ok policy →
      HostAllowed boot policy.endpoint)
    {endpoint : String}
    (hpoll : polledEndpoint env (bootEndpoint boot) row = .ok (some endpoint)) :
    ∃ host hosts, endpointHost endpoint = .ok host ∧ bootHosts boot = .ok hosts ∧
      host ∈ hosts := by
  unfold polledEndpoint at hpoll
  cases hload : loadPolicy env (bootEndpoint boot) row with
  | error e => simp [hload, bind, Except.bind] at hpoll
  | ok policy =>
      have hsame : (if policy.endpoint = "" then bootEndpoint boot else policy.endpoint) =
          policy.endpoint := by
        obtain ⟨validated, -, rfl⟩ := loadPolicy_eq_ok.mp hload
        rw [finishPolicy_endpoint]
        split_ifs with hvalidated hboot <;> simp_all
      simp only [hload, hsame, bind, Except.bind, pure, Except.pure] at hpoll
      split at hpoll
      · cases hpoll
      · cases hread : endpointHost policy.endpoint with
        | error e => simp [hread] at hpoll
        | ok host =>
            cases hhosts : allowedEndpointHosts (liftRow env row) (bootEndpoint boot) with
            | error e => simp [hread, hhosts] at hpoll
            | ok hosts =>
                simp only [hread, hhosts, Except.ok.injEq] at hpoll
                split at hpoll
                · rename_i hmem
                  cases hpoll
                  rcases hhost policy hload host hread with hnone | ⟨allowed, hboot, hin⟩
                  · exact absurd hnone (ne_empty_of_mem_allowed hhosts hmem)
                  · exact ⟨host, allowed, hread, hboot, hin⟩
                · cases hpoll

theorem validatedEndpoint_of_absent {defaultEndpoint : String} {r : PolicyRow}
    (hr : r.endpoint = .absent) :
    validatedEndpoint env defaultEndpoint (some r) = .ok "" := by
  simp only [validatedEndpoint, hr, validateEndpoint]

theorem validatedEndpoint_of_text {defaultEndpoint value : String} {r : PolicyRow}
    (hr : r.endpoint = .text value) :
    validatedEndpoint env defaultEndpoint (some r) =
      sanitizeEndpoint (liftRow env (some r)) value := by
  simp only [validatedEndpoint, hr, validateEndpoint]

/-- The boundary in terms of the validated field alone. -/
theorem credentialBoundary_iff_validated :
    CredentialBoundary boot env row ↔
      (row.isSome → ∃ endpoint, validatedEndpoint env (bootEndpoint boot) row = .ok endpoint) ∧
      ∀ endpoint, validatedEndpoint env (bootEndpoint boot) row = .ok endpoint →
        HostAllowed boot (if endpoint = "" then bootEndpoint boot else endpoint) := by
  constructor
  · intro h
    constructor
    · intro hrow
      obtain ⟨r, rfl⟩ := Option.isSome_iff_exists.mp hrow
      have habsent : (loadPolicy env (bootEndpoint boot)
          (some { r with endpoint := .absent })).isOk = true :=
        loadPolicy_isOk.mpr ⟨"", validatedEndpoint_of_absent rfl⟩
      have hloads := h.loads r rfl habsent
      exact loadPolicy_isOk.mp hloads
    · intro endpoint hvalid
      have hload : loadPolicy env (bootEndpoint boot) row =
          .ok (finishPolicy (bootEndpoint boot) row endpoint) :=
        loadPolicy_eq_ok.mpr ⟨endpoint, hvalid, rfl⟩
      have hallowed := h.host _ hload
      rwa [finishPolicy_endpoint] at hallowed
  · rintro ⟨hloads, hallowed⟩
    have hhost : ∀ policy, loadPolicy env (bootEndpoint boot) row = .ok policy →
        HostAllowed boot policy.endpoint := by
      intro policy hload
      obtain ⟨endpoint, hvalid, rfl⟩ := loadPolicy_eq_ok.mp hload
      rw [finishPolicy_endpoint]
      exact hallowed endpoint hvalid
    refine ⟨fun r hr _ => ?_, hhost, fun _ => sent_of_host hhost⟩
    exact loadPolicy_isOk.mpr (hloads (Option.isSome_iff_exists.mpr ⟨r, hr⟩))

theorem hostAllowed_empty : HostAllowed boot "" := by
  intro host hhost
  rw [endpointHost_empty] at hhost
  cases hhost
  exact .inl rfl

omit [Unicode] [Nfkc] in
theorem returned_eq {c : Prop} [Decidable c] {value default : String} (hvalue : value ≠ "") :
    (if (if c then value else "") = "" then default else if c then value else "") =
      if c then value else default := by
  by_cases hc : c
  · simp only [if_pos hc, if_neg hvalue]
  · simp only [if_neg hc, if_pos]

theorem boundary_without_row :
    CredentialBoundary boot env none ↔ KeepsBoundary boot env none := by
  rw [credentialBoundary_iff_validated]
  change (_ ∧ _) ↔ ((∃ hosts, allowedEndpointHosts env "" = .ok hosts) → _)
  simp only [Option.isSome_none, Bool.false_eq_true, false_implies, true_and]
  by_cases hboot : bootEndpoint boot = ""
  · have hempty : HostAllowed boot (bootEndpoint boot) := hboot ▸ hostAllowed_empty
    refine iff_of_true (fun endpoint hvalid => ?_) (fun _ => hempty)
    change sanitizeEndpoint env (bootEndpoint boot) = .ok endpoint at hvalid
    rw [hboot] at hvalid
    cases hvalid
    exact hempty
  · constructor
    · rintro h ⟨hosts, hhosts⟩ host hhost
      have hvalid := h _ ((sanitizeEndpoint_eq_ok hboot).mpr ⟨host, hosts, hhost, hhosts, rfl⟩)
      rw [returned_eq hboot, ite_self] at hvalid
      exact hvalid host hhost
    · intro h endpoint hvalid
      obtain ⟨host, hosts, -, hhosts, rfl⟩ := (sanitizeEndpoint_eq_ok hboot).mp hvalid
      rw [returned_eq hboot, ite_self]
      exact h ⟨hosts, hhosts⟩

/-- A row with an endpoint that is a text. -/
theorem boundary_of_text {r : PolicyRow} {value : String} (hvalue : value ≠ "")
    (hr : r.endpoint = .text value) :
    CredentialBoundary boot env (some r) ↔
      ∃ host hosts, endpointHost value = .ok host ∧
        allowedEndpointHosts (liftRow env (some r)) "" = .ok hosts ∧
        if host ≠ "" ∧ host ∈ hosts then
          ∃ bootHosts', bootHosts boot = .ok bootHosts' ∧ host ∈ bootHosts'
        else HostAllowed boot (bootEndpoint boot) := by
  rw [credentialBoundary_iff_validated, validatedEndpoint_of_text hr]
  constructor
  · rintro ⟨hloads, hallowed⟩
    obtain ⟨endpoint, hvalid⟩ := hloads rfl
    obtain ⟨host, hosts, hhost, hhosts, hendpoint⟩ := (sanitizeEndpoint_eq_ok hvalue).mp hvalid
    have hresult := hallowed endpoint hvalid
    refine ⟨host, hosts, hhost, hhosts, ?_⟩
    rw [hendpoint, returned_eq hvalue] at hresult
    split_ifs at hresult ⊢ with haccepted
    · exact (hresult host hhost).resolve_left haccepted.1
    · exact hresult
  · rintro ⟨host, hosts, hhost, hhosts, hcond⟩
    refine ⟨fun _ => ⟨_, (sanitizeEndpoint_eq_ok hvalue).mpr ⟨host, hosts, hhost, hhosts, rfl⟩⟩,
      fun endpoint hvalid => ?_⟩
    obtain ⟨read, readHosts, hread, hreadHosts, rfl⟩ :=
      (sanitizeEndpoint_eq_ok hvalue).mp hvalid
    cases hread.symm.trans hhost
    cases hreadHosts.symm.trans hhosts
    rw [returned_eq hvalue]
    split_ifs at hcond ⊢ with haccepted
    · intro host' hhost'
      cases hhost'.symm.trans hhost
      exact .inr hcond
    · exact hcond

theorem boundary_of_default {r : PolicyRow}
    (hr : validatedEndpoint env (bootEndpoint boot) (some r) = .ok "") :
    CredentialBoundary boot env (some r) ↔ HostAllowed boot (bootEndpoint boot) := by
  rw [credentialBoundary_iff_validated, hr]
  constructor
  · rintro ⟨-, hallowed⟩
    exact hallowed "" rfl
  · intro h
    refine ⟨fun _ => ⟨"", rfl⟩, fun endpoint hvalid => ?_⟩
    cases hvalid
    exact h

/-- Whatever rows were loaded since the boot, the next one keeps the boundary if and
only if its endpoint is as `KeepsBoundary` says. -/
theorem credentialBoundary_iff (start : IntakeEnv) (seed stored : Option PolicyRow)
    (loaded : List (Option PolicyRow)) (row : Option PolicyRow) :
    let boot := (seedPolicyFromConfigFile start seed stored).1
    let env := envAfter boot loaded
    CredentialBoundary boot env row ↔ KeepsBoundary boot env row := by
  intro boot env
  rcases row with _ | r
  · exact boundary_without_row
  · unfold KeepsBoundary
    rw [Option.map_some]
    cases hr : r.endpoint with
    | absent =>
        exact boundary_of_default (validatedEndpoint_of_absent hr)
    | other =>
        refine iff_of_false (fun h => ?_) id
        obtain ⟨endpoint, hvalid⟩ := (credentialBoundary_iff_validated.mp h).1 rfl
        simp only [validatedEndpoint, hr, validateEndpoint] at hvalid
        cases hvalid
    | text value =>
        dsimp only
        split_ifs with hvalue
        · have hdefault : validatedEndpoint env (bootEndpoint boot) (some r) = .ok "" := by
            rw [validatedEndpoint_of_text hr, hvalue]
            rfl
          exact boundary_of_default hdefault
        · exact boundary_of_text hvalue hr

end Hosts

section ForeignHost

local instance asciiEndpoint : Unicode := Unicode.ascii

local instance asciiEndpointNfkc : Nfkc := Nfkc.ascii

/-- A row that allows the host it names. -/
def foreignRow : PolicyRow where
  endpoint := .text "https://attacker.example"
  allowedEndpoints := ["attacker.example"]

/-- The credential goes to a host that only the row names, and a port out of range
makes the load raise. -/
theorem foreign_host_polled :
    polledEndpoint {} defaultGitlabEndpoint (some foreignRow) =
        .ok (some "https://attacker.example") ∧
      ¬CredentialBoundary {} {} (some foreignRow) ∧
      ¬CredentialBoundary {} {} (some { endpoint := .text "https://gitlab.bdaya-dev.com:65536" })
      := by
  have hpoll : polledEndpoint {} defaultGitlabEndpoint (some foreignRow) =
      .ok (some "https://attacker.example") := by
    decide +kernel
  refine ⟨hpoll, fun h => ?_, fun h => ?_⟩
  · obtain ⟨host, hosts, hhost, hhosts, hmem⟩ := h.sent _ hpoll
    have hread : endpointHost "https://attacker.example" = .ok "attacker.example" := by
      decide +kernel
    have hboot : bootHosts {} = .ok ["gitlab.bdaya-dev.com"] := by decide +kernel
    cases hread.symm.trans hhost
    cases hboot.symm.trans hhosts
    simp at hmem
  · have hraises : (loadPolicy {} (bootEndpoint {})
        (some { endpoint := .text "https://gitlab.bdaya-dev.com:65536" })).isOk = false := by
      decide +kernel
    have hloads := h.loads _ rfl
    rw [hraises] at hloads
    exact absurd (hloads (by decide +kernel)) (by decide)

end ForeignHost

end IntakeEndpoint

end HermesCluster
