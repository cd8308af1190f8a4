import HermesCluster.Plugin.ClusterEndpoint
/-!
# Attaching to a cluster

The plugin resolves its base URL once, when it is registered or when a session starts, and
keeps it. A session with `auto_start` then starts a server of its own, unless the base URL is
of another machine; the start runs in the background, and the first thing it does is to make
the base URL the loopback.
-/

namespace HermesCluster

open Program hiding pure bind

namespace Plugin

open ClusterEndpoint

section Attachment

variable [Unicode] [PyStr]

/-- The configuration of the plugin, as far as it bears on the endpoint. -/
structure PluginConfig where
  endpoint : PyValue := .none
  nodeId : PyValue := .str "node_main"
  token : PyValue := .str ""
  configPath : PyValue := .str ""
  port : PyValue := .int 8787
  autoStart : PyValue := .bool true

/-- The state of the module: `_cluster_config`, `_base_url`, `_endpoint_error`, and the ports
of the starts that have not yet begun to run. -/
structure Attachment where
  clusterConfig : Option PluginConfig := none
  baseUrl : String := ""
  endpointError : String := ""
  starting : List PyValue := []

/-- What the tools see of it. -/
def Attachment.endpoint (s : Attachment) : Endpoint where
  baseUrl := s.baseUrl
  endpointError := s.endpointError

/-- `f"http://127.0.0.1:{port}"`. -/
def loopback (port : PyValue) : String :=
  "http://127.0.0.1:" ++ port.text

/-- The file that named the endpoint says who the node is, too. -/
def adopt (config : PluginConfig) (resolved : ResolvedEndpoint) : PluginConfig :=
  { config with
    nodeId := if resolved.nodeId ≠ "" then .str resolved.nodeId else config.nodeId
    token :=
      if config.token.truthy = false ∧ resolved.token ≠ "" then .str resolved.token
      else config.token }

/-- What the configuration comes to: a base URL, and the configuration with what goes with it,
or a reason to have none. -/
inductive Outcome where
  | taken (baseUrl : String) (config : PluginConfig)
  | refused (why : String)

/-- What `_ensure_base_url` makes of a resolution. -/
def settle (config : PluginConfig) : Except String ResolvedEndpoint → Outcome
  | .error _ => .taken (loopback config.port) config
  | .ok resolved =>
      if resolved.endpoint ≠ "" then .taken resolved.endpoint (adopt config resolved)
      else if resolved.incomplete then
        .refused (if resolved.why = "" then "cluster endpoint config invalid" else resolved.why)
      else .taken (loopback config.port) config

/-- `str(config.get("endpoint") or "").strip().rstrip("/")`. -/
def ownEndpoint (config : PluginConfig) : String :=
  Text.rstripChar '/' (Text.strip (orEmpty config.endpoint))

/-- `_ensure_base_url` where there is no base URL yet. -/
def outcome (files : Files) (config : PluginConfig) : Outcome :=
  if ownEndpoint config ≠ "" then
    if isHttp (ownEndpoint config) then .taken (ownEndpoint config) config
    else
      .refused ("cluster endpoint config " ++ Text.repr (ownEndpoint config) ++
        " is not an http(s) URL — refusing to guess a base URL")
  else
    settle config
      (resolveClusterEndpoint files (orEmpty config.nodeId) (orEmpty config.configPath))

/-- `_ensure_base_url`, with the configuration that it writes to. -/
def ensureBaseUrl (files : Files) (config : PluginConfig) (s : Attachment) :
    PluginConfig × Attachment :=
  if s.baseUrl ≠ "" then (config, s)
  else
    match outcome files config with
    | .taken baseUrl config => (config, { s with baseUrl := baseUrl })
    | .refused why => (config, { s with endpointError := why })

/-- `"127.0.0.1" in base or "localhost" in base`. -/
def isLocal (base : String) : Bool :=
  Text.contains base "127.0.0.1" || Text.contains base "localhost"

/-- What happens to the plugin. A session that starts before the plugin is registered has the
defaults of the environment; `background i` is the `i`th of the pending starts, which begins. -/
inductive Event where
  | register (files : Files) (settings : PluginConfig)
  | sessionStart (files : Files) (defaults : PluginConfig)
  | background (i : Nat)
  | clusterInit (config : PluginConfig)

/-- `_on_session_start`. -/
def onSessionStart (files : Files) (defaults : PluginConfig) (s : Attachment) : Attachment :=
  let config := s.clusterConfig.getD defaults
  if config.autoStart.truthy = false then s
  else
    let (config, s) := ensureBaseUrl files config s
    if s.baseUrl ≠ "" ∧ isLocal s.baseUrl = false then s
    else { s with starting := s.starting ++ [config.port] }

/-- One event. `handle_cluster_init` starts the server itself. -/
def Attachment.step (s : Attachment) : Event → Attachment
  | .register files settings =>
      let (config, s) := ensureBaseUrl files settings s
      { s with clusterConfig := some config }
  | .sessionStart files defaults => onSessionStart files defaults s
  | .background i =>
      match s.starting[i]? with
      | none => s
      | some port => { s with baseUrl := loopback port, starting := s.starting.eraseIdx i }
  | .clusterInit config => { s with baseUrl := loopback config.port }

def Attachment.run (s : Attachment) (events : List Event) : Attachment :=
  events.foldl Attachment.step s

/-! ## What the files decide -/

omit [Unicode] in
theorem loopback_ne_empty (port : PyValue) : loopback port ≠ "" := by
  unfold loopback
  rw [← String.toList_inj.ne, String.toList_append]
  simp

omit [Unicode] in
theorem isLocal_loopback (port : PyValue) : isLocal (loopback port) = true := by
  have hinfix : Text.contains (loopback port) "127.0.0.1" = true := by
    rw [Text.contains_iff, loopback, String.toList_append]
    exact ⟨"http://".toList, ":".toList ++ port.text.toList, by simp⟩
  rw [isLocal, hinfix, Bool.true_or]

/-- The file is the first of the search that does not pass over the endpoint, and this is what
comes of it. -/
inductive DecidedBy (files : Files) (config : PluginConfig) (path : Path) : Outcome → Prop
  | raised {e : String} (hload : files.load path = .error e) :
      DecidedBy files config path (.taken (loopback config.port) config)
  | named {cfg : Fields} {endpoint : String} (hload : files.load path = .ok (some cfg))
      (hnamed : namedEndpoint cfg = some endpoint) (hhttp : isHttp endpoint = true) :
      DecidedBy files config path
        (.taken endpoint (adopt config (applyClusterSection cfg (files.str path))))
  | refused {cfg : Fields} {endpoint : String} (hload : files.load path = .ok (some cfg))
      (hnamed : namedEndpoint cfg = some endpoint) (hhttp : isHttp endpoint = false) :
      DecidedBy files config path (.refused (applyClusterSection cfg (files.str path)).why)

theorem decidedBy_settle {files : Files} {config : PluginConfig} {path : Path}
    {r : Except String ResolvedEndpoint} (h : Decides files path r) :
    DecidedBy files config path (settle config r) := by
  cases h with
  | raised hload => exact .raised hload
  | named hload hnamed =>
      rw [settle]
      rcases applyClusterSection_some (files.str path) hnamed with
        ⟨hhttp, htaken⟩ | ⟨hhttp, hnone, hincomplete, hwhy⟩
      · rw [if_pos (htaken.symm ▸ ne_empty_of_isHttp hhttp), htaken]
        exact .named hload hnamed hhttp
      · rw [if_neg (not_not.mpr hnone), if_pos hincomplete, if_neg hwhy]
        exact .refused hload hnamed hhttp

/-- The configuration of the plugin comes first, and then the first file that does not pass
over the endpoint: what is named there is taken, or refused if it is no URL. The loopback is
for where no file names one, and for where one cannot be looked for or read before that. -/
theorem outcome_decided (files : Files) (config : PluginConfig) :
    (ownEndpoint config ≠ "" ∧
      (isHttp (ownEndpoint config) = true ∧
          outcome files config = .taken (ownEndpoint config) config ∨
        isHttp (ownEndpoint config) = false ∧
          ∃ why, why ≠ "" ∧ outcome files config = .refused why)) ∨
    ownEndpoint config = "" ∧
      match candidateConfigPaths files (orEmpty config.nodeId) (orEmpty config.configPath) with
      | .error _ => outcome files config = .taken (loopback config.port) config
      | .ok paths =>
          (∃ before path after, paths = before ++ path :: after ∧
              (∀ p ∈ before, Silent files p) ∧
                DecidedBy files config path (outcome files config)) ∨
            (∀ p ∈ paths, Silent files p) ∧
              outcome files config = .taken (loopback config.port) config := by
  by_cases hown : ownEndpoint config = ""
  · refine .inr ⟨hown, ?_⟩
    rw [outcome, if_neg (not_not.mpr hown), resolveClusterEndpoint]
    cases candidateConfigPaths files (orEmpty config.nodeId) (orEmpty config.configPath) with
    | error e => rfl
    | ok paths =>
        change (∃ before path after, _ ∧ _ ∧
          DecidedBy files config path (settle config (resolveFrom files paths))) ∨
            _ ∧ settle config (resolveFrom files paths) = _
        rcases resolveFrom_spec files paths with
          ⟨before, path, after, heq, hsilent, hdecides⟩ | ⟨hall, hunset⟩
        · exact .inl ⟨before, path, after, heq, hsilent, decidedBy_settle hdecides⟩
        · rw [hunset]
          exact .inr ⟨hall, rfl⟩
  · refine .inl ⟨hown, ?_⟩
    rw [outcome, if_pos hown]
    cases hhttp : isHttp (ownEndpoint config) with
    | true => exact .inl ⟨rfl, rfl⟩
    | false =>
        exact .inr ⟨rfl, _, Text.append_ne_empty (Text.append_ne_empty (by decide)), rfl⟩

/-! ## What becomes of an attachment -/

/-- A base URL of another machine. -/
def Remote (base : String) : Prop :=
  base ≠ "" ∧ isLocal base = false

instance : DecidablePred Remote := fun base =>
  inferInstanceAs (Decidable (base ≠ "" ∧ isLocal base = false))

omit [Unicode] [PyStr] in
/-- The plugin is attached to another machine, and nothing waits to be started. -/
structure Attached (s : Attachment) (url : String) : Prop where
  base : s.baseUrl = url
  idle : s.starting = []

theorem ensureBaseUrl_of_ne_empty {files : Files} {config : PluginConfig} {s : Attachment}
    (h : s.baseUrl ≠ "") : ensureBaseUrl files config s = (config, s) := by
  rw [ensureBaseUrl, if_pos h]

theorem attached_step {s : Attachment} {url : String} (hremote : Remote url)
    (h : Attached s url) {event : Event} (hinit : ∀ config, event ≠ .clusterInit config) :
    Attached (s.step event) url := by
  have hset : s.baseUrl ≠ "" := h.base ▸ hremote.1
  cases event with
  | register files settings =>
      rw [Attachment.step, ensureBaseUrl_of_ne_empty hset]
      exact ⟨h.base, h.idle⟩
  | sessionStart files defaults =>
      rw [Attachment.step, onSessionStart]
      dsimp only
      split
      · exact h
      · rw [ensureBaseUrl_of_ne_empty hset]
        have hkept : s.baseUrl ≠ "" ∧ isLocal s.baseUrl = false := by
          rw [h.base]
          exact hremote
        rw [if_pos hkept]
        exact h
  | background i =>
      rw [Attachment.step, h.idle]
      exact h
  | clusterInit config => exact absurd rfl (hinit config)

/-- Attached to another machine the plugin stays so, whatever its files and its sessions
become, and starts no server, until a server is started by hand. -/
theorem remote_stays {s : Attachment} {url : String} (hremote : Remote url)
    (hattached : Attached s url) (events : List Event)
    (hinit : ∀ event ∈ events, ∀ config, event ≠ .clusterInit config) :
    Attached (s.run events) url := by
  induction events generalizing s with
  | nil => exact hattached
  | cons event events ih =>
      rw [List.forall_mem_cons] at hinit
      exact ih (attached_step hremote hattached hinit.1) hinit.2

/-! ## An endpoint that is refused -/

/-- Sessions that start over some files, and starts that begin. -/
def Event.IsSession (files : Files) : Event → Prop
  | .sessionStart files' _ => files' = files
  | .background _ => True
  | _ => False

/-- How many sessions have started. -/
def sessions (events : List Event) : Nat :=
  events.countP (fun event => match event with
    | .sessionStart _ _ => true
    | _ => false)

/-- After a registration whose endpoint was refused, and some sessions: the refusal stands
while all their starts are pending, and when one has begun the base URL is the loopback. -/
structure Pending (config : PluginConfig) (why : String) (started : Nat) (s : Attachment) :
    Prop where
  config_eq : s.clusterConfig = some config
  ports : ∀ port ∈ s.starting, port = config.port
  why_eq : s.endpointError = why
  base : s.baseUrl = "" ∧ s.starting.length = started ∨
    s.baseUrl = loopback config.port ∧ s.starting.length < started

omit [Unicode] in
theorem Pending.idle {config : PluginConfig} {why : String} {s : Attachment}
    (h : Pending config why 0 s) : s.starting = [] := by
  rcases h.base with ⟨-, hlength⟩ | ⟨-, hlength⟩
  · exact List.eq_nil_of_length_eq_zero hlength
  · exact absurd hlength (Nat.not_lt_zero _)

theorem pending_register {files : Files} {config : PluginConfig} {why : String}
    (hrefused : outcome files config = .refused why) :
    Pending config why 0 (Attachment.step {} (.register files config)) := by
  have hset : ensureBaseUrl files config {} = (config, { endpointError := why }) := by
    unfold ensureBaseUrl
    rw [if_neg (by simp), hrefused]
  rw [Attachment.step, hset]
  exact ⟨rfl, fun _ h => absurd h List.not_mem_nil, rfl, .inl ⟨rfl, rfl⟩⟩

theorem pending_sessionStart {files : Files} {config : PluginConfig} (defaults : PluginConfig)
    {why : String} {started : Nat} {s : Attachment}
    (hrefused : outcome files config = .refused why) (hauto : config.autoStart.truthy = true)
    (h : Pending config why started s) :
    Pending config why (started + 1) (onSessionStart files defaults s) := by
  unfold onSessionStart
  rw [h.config_eq, Option.getD_some]
  dsimp only
  rw [if_neg (by simp [hauto])]
  have hports : ∀ port ∈ s.starting ++ [config.port], port = config.port := by
    intro port hport
    rcases List.mem_append.mp hport with hport | hport
    · exact h.ports port hport
    · exact List.mem_singleton.mp hport
  rcases h.base with ⟨hbase, hlength⟩ | ⟨hbase, hlength⟩
  · have hensure : ensureBaseUrl files config s = (config, { s with endpointError := why }) := by
      unfold ensureBaseUrl
      rw [if_neg (not_not.mpr hbase), hrefused]
    rw [hensure]
    dsimp only
    rw [if_neg (fun hkept => hkept.1 hbase)]
    refine ⟨h.config_eq, hports, rfl, .inl ⟨hbase, ?_⟩⟩
    rw [List.length_append, hlength, List.length_singleton]
  · have hset : s.baseUrl ≠ "" := hbase ▸ loopback_ne_empty config.port
    rw [ensureBaseUrl_of_ne_empty hset]
    dsimp only
    have hlocal : isLocal s.baseUrl = true := hbase ▸ isLocal_loopback config.port
    rw [if_neg (fun hkept => by rw [hlocal] at hkept; cases hkept.2)]
    refine ⟨h.config_eq, hports, h.why_eq, .inr ⟨hbase, ?_⟩⟩
    rw [List.length_append, List.length_singleton]
    omega

theorem pending_background {config : PluginConfig} {why : String} {started : Nat}
    {s : Attachment} (i : Nat) (h : Pending config why started s) :
    Pending config why started (s.step (.background i)) := by
  rw [Attachment.step]
  cases hport : s.starting[i]? with
  | none => exact h
  | some port =>
      have hmem : port ∈ s.starting := List.mem_of_getElem? hport
      have hlt : i < s.starting.length := (List.getElem?_eq_some_iff.mp hport).1
      refine ⟨h.config_eq, fun p hp => h.ports p (List.mem_of_mem_eraseIdx hp), h.why_eq,
        .inr ⟨congrArg loopback (h.ports port hmem), ?_⟩⟩
      have hlength := List.length_eraseIdx_of_lt hlt
      have hstarted : s.starting.length ≤ started :=
        h.base.elim (fun hb => le_of_eq hb.2) (fun hb => le_of_lt hb.2)
      dsimp only
      omega

theorem pending_run {files : Files} {config : PluginConfig} {why : String} {started : Nat}
    {s : Attachment} (hrefused : outcome files config = .refused why)
    (hauto : config.autoStart.truthy = true) (events : List Event)
    (hevents : ∀ event ∈ events, event.IsSession files) (h : Pending config why started s) :
    Pending config why (started + sessions events) (s.run events) := by
  induction events generalizing s started with
  | nil => exact h
  | cons event events ih =>
      rw [List.forall_mem_cons] at hevents
      cases event with
      | sessionStart files' defaults =>
          obtain rfl : files' = files := hevents.1
          have hnext := ih hevents.2 (pending_sessionStart defaults hrefused hauto h)
          have hcount : sessions (.sessionStart files' defaults :: events) =
              sessions events + 1 := List.countP_cons_of_pos rfl
          rw [hcount, ← Nat.add_assoc, Nat.add_right_comm]
          exact hnext
      | background i =>
          have hnext := ih hevents.2 (pending_background i h)
          have hcount : sessions (.background i :: events) = sessions events :=
            List.countP_cons_of_neg (by simp)
          rw [hcount]
          exact hnext
      | register | clusterInit => exact hevents.1.elim

/-- Where nothing is started of its own, the refusal stands for good. -/
theorem refused_run {files : Files} {config : PluginConfig} {s : Attachment}
    (hauto : config.autoStart.truthy = false) (events : List Event)
    (hevents : ∀ event ∈ events, event.IsSession files) (hconfig : s.clusterConfig = some config)
    (hidle : s.starting = []) : s.run events = s := by
  induction events with
  | nil => rfl
  | cons event events ih =>
      rw [List.forall_mem_cons] at hevents
      have hsame : s.step event = s := by
        cases event with
        | sessionStart files' defaults =>
            rw [Attachment.step, onSessionStart, hconfig, Option.getD_some]
            exact if_pos hauto
        | background i =>
            rw [Attachment.step, hidle]
            rfl
        | register | clusterInit => exact hevents.1.elim
      change (s.step event).run events = s
      rw [hsame]
      exact ih hevents.2

theorem why_ne_empty {files : Files} {config : PluginConfig} {why : String}
    (h : outcome files config = .refused why) : why ≠ "" := by
  unfold outcome at h
  split at h
  · split at h
    · cases h
    · cases h
      exact Text.append_ne_empty (Text.append_ne_empty (by decide))
  · unfold settle at h
    split at h
    · cases h
    · split at h
      · cases h
      · split at h
        · cases h
          split
          · decide
          · assumption
        · cases h

/-- An endpoint that is refused leaves every tool with the reason and sends nothing, over any
sessions with the files as they are; but only until the start of one of these sessions has
begun. From then on the base URL is the loopback. Without `auto_start` nothing starts. -/
theorem refusal_until_started {files : Files} {config : PluginConfig} {why : String}
    (hrefused : outcome files config = .refused why) (events : List Event)
    (hevents : ∀ event ∈ events, event.IsSession files) :
    let registered := Attachment.step {} (.register files config)
    (config.autoStart.truthy = false → registered.run events = registered) ∧
      (config.autoStart.truthy = true →
        ((registered.run events).baseUrl = "" ↔
          (registered.run events).starting.length = sessions events) ∧
        ((registered.run events).baseUrl ≠ "" →
          (registered.run events).baseUrl = loopback config.port)) ∧
      ((registered.run events).baseUrl = "" → ∀ {k : Backend} (req : Request)
        (attempts : Nat → Attempt) (l : Link k),
          (apiCall (registered.run events).endpoint req).run (Plugin.step attempts) l =
            (.ok (.error why), l)) := by
  intro registered
  have hregistered := pending_register hrefused
  have hwhy : (registered.run events).endpointError = why := by
    cases hauto : config.autoStart.truthy with
    | false =>
        rw [refused_run hauto events hevents hregistered.config_eq hregistered.idle]
        exact hregistered.why_eq
    | true => exact (pending_run hrefused hauto events hevents hregistered).why_eq
  refine ⟨fun hauto => ?_, fun hauto => ?_, fun hbase k req attempts l => ?_⟩
  · exact refused_run hauto events hevents hregistered.config_eq hregistered.idle
  · have hpending := pending_run hrefused hauto events hevents hregistered
    rw [Nat.zero_add] at hpending
    rcases hpending.base with ⟨hbase, hlength⟩ | ⟨hbase, hlength⟩
    · exact ⟨iff_of_true hbase hlength, fun hset => absurd hbase hset⟩
    · exact ⟨iff_of_false (hbase.trans_ne (loopback_ne_empty config.port))
        (Nat.ne_of_lt hlength), fun _ => hbase⟩
  · rw [apiCall, if_pos (show (registered.run events).endpoint.baseUrl = "" from hbase)]
    change ((Except.ok (Answer.error (if (registered.run events).endpointError = "" then _
      else (registered.run events).endpointError)), l) : Except Empty Answer × Link k) = _
    rw [hwhy, if_neg (why_ne_empty hrefused)]

end Attachment

section Example

local instance asciiAttachment : Unicode := Unicode.ascii

local instance strAttachment : PyStr where
  str v :=
    match v with
    | .int n => toString n
    | _ => ""

/-- The settings forget the scheme. -/
def unusable : PluginConfig where
  endpoint := .str "main:8787"

/-- A session starts, and so does its server. -/
def oneSession : List Event :=
  [.sessionStart bareCheckout {}, .background 0]

theorem remote_stays_main :
    Attached (({ baseUrl := "https://main" } : Attachment).run oneSession) "https://main" := by
  have hremote : Remote "https://main" := by decide
  exact remote_stays hremote ⟨rfl, rfl⟩ oneSession (by simp [oneSession])

theorem refused_then_local :
    ((Attachment.step {} (.register bareCheckout unusable)).run oneSession).baseUrl =
      "http://127.0.0.1:8787" := by
  have hrefused : outcome bareCheckout unusable = .refused ("cluster endpoint config " ++
      Text.repr "main:8787" ++ " is not an http(s) URL — refusing to guess a base URL") := rfl
  have hsessions : ∀ event ∈ oneSession, event.IsSession bareCheckout := by
    simp [oneSession, Event.IsSession]
  have hbegun : ((Attachment.step {} (.register bareCheckout unusable)).run oneSession).baseUrl ≠
      "" := by decide
  exact ((refusal_until_started hrefused oneSession hsessions).2.1 rfl).2 hbegun

end Example

end Plugin

end HermesCluster
