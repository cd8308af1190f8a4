import HermesCluster.Lib.PyValue
import HermesCluster.Plugin.ApiCall
/-!
# Which cluster the tools address

`core/cluster_endpoint.py` looks through the config files of a node for one that names the
endpoint of main; `_ensure_base_url` of `plugin.py` takes its word, or the loopback where no
file names one. A file that names an unusable endpoint is not passed over.

What reading a file comes to is a parameter: `yaml` is not the repository's.
-/

namespace HermesCluster

namespace ClusterEndpoint

/-! ## Files -/

/-- A path, by its parts. -/
abbrev Path := List String

/-- A parsed mapping. -/
abbrev Fields := List (String × PyValue)

/-- What the resolver sees of the machine. `load` is `_load_yaml`: an exception other than
`OSError` is raised, and what is missing or no mapping is `none`. `glob` has the names of the
worker files of a directory, in order. -/
structure Files where
  moduleFile : Path
  home : Except String Path
  expanduser : String → Except String Path
  glob : Path → List String
  load : Path → Except String (Option Fields)
  str : Path → String

/-- `_REPO_ROOT`: `Path(__file__).resolve().parents[1]`. -/
def Files.repoRoot (files : Files) : Path :=
  files.moduleFile.dropLast.dropLast

/-! ## One file -/

section Resolution

variable [Unicode] [PyStr]

/-- `d.get(key)`. -/
def field (d : Fields) (key : String) : PyValue :=
  (d.lookup key).getD .none

/-- `str(v or "")`. -/
def orEmpty (v : PyValue) : String :=
  if v.truthy then v.text else ""

/-- `cfg.get(key) or {}`, where that is a mapping. -/
def subsection (cfg : Fields) (key : String) : Option Fields :=
  match field cfg key with
  | .dict d => some d
  | v => if v.truthy then none else some []

omit [Unicode] [PyStr] in
/-- `endpoint.startswith("http://") or endpoint.startswith("https://")`. -/
def isHttp (endpoint : String) : Bool :=
  Text.startsWith endpoint "http://" || Text.startsWith endpoint "https://"

/-- The dictionary of a resolution. -/
structure ResolvedEndpoint where
  endpoint : String := ""
  nodeId : String := ""
  token : String := ""
  source : String := ""
  incomplete : Bool := false
  why : String := ""

/-- `section.get("endpoint")`, unless it is `None` or blank. -/
def namedEndpoint (cfg : Fields) : Option String :=
  match subsection cfg "cluster" with
  | none => none
  | some d =>
      match field d "endpoint" with
      | .none => none
      | raw =>
          if Text.strip raw.text = "" then none
          else some (Text.rstripChar '/' (Text.strip raw.text))

/-- `_apply_cluster_section`. -/
def applyClusterSection (cfg : Fields) (source : String) : ResolvedEndpoint :=
  let out : ResolvedEndpoint :=
    { nodeId := ((subsection cfg "node").map (fun d =>
        Text.strip (orEmpty (field d "id")))).getD ""
      token := ((subsection cfg "cluster").map (fun d =>
        Text.strip (orEmpty (field d "token")))).getD ""
      source := source }
  match namedEndpoint cfg with
  | none => out
  | some endpoint =>
      if isHttp endpoint then { out with endpoint := endpoint }
      else
        { out with
          incomplete := true
          why := "cluster.endpoint=" ++ Text.repr endpoint ++ " in " ++ source ++
            " is not an http(s) URL — fix the config; refusing to guess a base URL." }

/-! ## The search -/

/-- The first worker file whose `node.id` is the one asked for. -/
def workerFile (files : Files) (nodeId : String) : List Path → Except String (List Path)
  | [] => .ok []
  | path :: paths => do
      let cfg ← files.load path
      match subsection (cfg.getD []) "node" with
      | some d =>
          if Text.strip (orEmpty (field d "id")) = nodeId then .ok [path]
          else workerFile files nodeId paths
      | none => workerFile files nodeId paths

/-- The worker files of the checkout, of which at most one is looked at. -/
def workerFiles (files : Files) (nodeId : String) : Except String (List Path) :=
  if nodeId = "" then .ok []
  else workerFile files nodeId
    ((files.glob files.repoRoot).map (fun name => files.repoRoot ++ [name]))

/-- `Path(explicit_path).expanduser()`, if there is one. -/
def explicitFile (files : Files) (explicitPath : String) : Except String (List Path) :=
  if explicitPath = "" then .ok [] else (files.expanduser explicitPath).map (fun p => [p])

/-- `candidate_config_paths`. -/
def candidateConfigPaths (files : Files) (nodeId explicitPath : String) :
    Except String (List Path) := do
  let explicit ← explicitFile files explicitPath
  let home ← files.home
  let workers ← workerFiles files nodeId
  pure (explicit ++ [home ++ [".config", "bdaya", "hermes-cluster.yaml"]] ++ workers ++
    [files.repoRoot ++ ["cluster.yaml"]])

/-- The loop of `resolve_cluster_endpoint`. -/
def resolveFrom (files : Files) : List Path → Except String ResolvedEndpoint
  | [] => .ok {}
  | path :: paths => do
      match ← files.load path with
      | none => resolveFrom files paths
      | some cfg =>
          if cfg.isEmpty then resolveFrom files paths
          else
            let resolved := applyClusterSection cfg (files.str path)
            if resolved.endpoint ≠ "" ∨ resolved.incomplete = true then .ok resolved
            else resolveFrom files paths

/-- `resolve_cluster_endpoint`. -/
def resolveClusterEndpoint (files : Files) (nodeId explicitPath : String) :
    Except String ResolvedEndpoint := do
  let paths ← candidateConfigPaths files nodeId explicitPath
  resolveFrom files paths

/-! ## Which file decides -/

/-- A file that says nothing about the endpoint. -/
def Silent (files : Files) (path : Path) : Prop :=
  ∃ cfg, files.load path = .ok cfg ∧ ∀ fields, cfg = some fields → namedEndpoint fields = none

/-- A file settles the search: it cannot be read, or it names an endpoint. -/
inductive Decides (files : Files) (path : Path) : Except String ResolvedEndpoint → Prop
  | raised {e : String} (hload : files.load path = .error e) : Decides files path (.error e)
  | named {cfg : Fields} {endpoint : String} (hload : files.load path = .ok (some cfg))
      (hnamed : namedEndpoint cfg = some endpoint) :
      Decides files path (.ok (applyClusterSection cfg (files.str path)))

theorem namedEndpoint_of_isEmpty {cfg : Fields} (h : cfg.isEmpty = true) :
    namedEndpoint cfg = none := by
  rw [List.isEmpty_iff] at h
  subst h
  rfl

theorem applyClusterSection_none {cfg : Fields} {source : String}
    (h : namedEndpoint cfg = none) :
    ¬((applyClusterSection cfg source).endpoint ≠ "" ∨
      (applyClusterSection cfg source).incomplete = true) := by
  unfold applyClusterSection
  rw [h]
  simp

/-- An endpoint that is named is taken or refused. -/
theorem applyClusterSection_some {cfg : Fields} {endpoint : String} (source : String)
    (h : namedEndpoint cfg = some endpoint) :
    (isHttp endpoint = true ∧ (applyClusterSection cfg source).endpoint = endpoint) ∨
      (isHttp endpoint = false ∧ (applyClusterSection cfg source).endpoint = "" ∧
        (applyClusterSection cfg source).incomplete = true ∧
          (applyClusterSection cfg source).why ≠ "") := by
  unfold applyClusterSection
  rw [h]
  dsimp only
  by_cases hhttp : isHttp endpoint = true
  · rw [if_pos hhttp]
    exact .inl ⟨hhttp, rfl⟩
  · rw [if_neg hhttp]
    refine .inr ⟨Bool.not_eq_true _ ▸ hhttp, rfl, rfl, ?_⟩
    simp only [String.append_assoc]
    exact Text.append_ne_empty (by decide)

omit [Unicode] [PyStr] in
theorem ne_empty_of_isHttp {endpoint : String} (h : isHttp endpoint = true) : endpoint ≠ "" := by
  rintro rfl
  revert h
  decide

/-- The first file that does not pass decides, and where all pass nothing is named. -/
theorem resolveFrom_spec (files : Files) (paths : List Path) :
    (∃ before path after, paths = before ++ path :: after ∧ (∀ p ∈ before, Silent files p) ∧
        Decides files path (resolveFrom files paths)) ∨
      (∀ p ∈ paths, Silent files p) ∧ resolveFrom files paths = .ok {} := by
  induction paths with
  | nil => exact .inr ⟨fun p hp => absurd hp List.not_mem_nil, rfl⟩
  | cons path paths ih =>
      -- a silent file is passed over
      have hpassed : Silent files path → resolveFrom files (path :: paths) =
          resolveFrom files paths →
          (∃ before p after, path :: paths = before ++ p :: after ∧
            (∀ q ∈ before, Silent files q) ∧
              Decides files p (resolveFrom files (path :: paths))) ∨
          (∀ p ∈ path :: paths, Silent files p) ∧ resolveFrom files (path :: paths) = .ok {} := by
        intro hsilent hsame
        rw [hsame]
        rcases ih with ⟨before, p, after, rfl, hbefore, hdecides⟩ | ⟨hall, hunset⟩
        · refine .inl ⟨path :: before, p, after, rfl, ?_, hdecides⟩
          rw [List.forall_mem_cons]
          exact ⟨hsilent, hbefore⟩
        · refine .inr ⟨?_, hunset⟩
          rw [List.forall_mem_cons]
          exact ⟨hsilent, hall⟩
      have hhere : Decides files path (resolveFrom files (path :: paths)) →
          (∃ before p after, path :: paths = before ++ p :: after ∧
            (∀ q ∈ before, Silent files q) ∧
              Decides files p (resolveFrom files (path :: paths))) ∨
          (∀ p ∈ path :: paths, Silent files p) ∧ resolveFrom files (path :: paths) = .ok {} :=
        fun hdecides => .inl ⟨[], path, paths, rfl, fun q hq => absurd hq List.not_mem_nil,
          hdecides⟩
      cases hload : files.load path with
      | error e =>
          apply hhere
          have hrun : resolveFrom files (path :: paths) = .error e := by
            rw [resolveFrom, hload]
            rfl
          rw [hrun]
          exact .raised hload
      | ok loaded =>
          cases loaded with
          | none =>
              apply hpassed ⟨none, hload, fun _ h => by cases h⟩
              rw [resolveFrom, hload]
              rfl
          | some cfg =>
              have hrun : resolveFrom files (path :: paths) =
                  if cfg.isEmpty then resolveFrom files paths
                  else if (applyClusterSection cfg (files.str path)).endpoint ≠ "" ∨
                      (applyClusterSection cfg (files.str path)).incomplete = true then
                    .ok (applyClusterSection cfg (files.str path))
                  else resolveFrom files paths := by
                rw [resolveFrom, hload]
                rfl
              cases hnamed : namedEndpoint cfg with
              | none =>
                  apply hpassed ⟨some cfg, hload, fun _ h => by cases h; exact hnamed⟩
                  rw [hrun, if_neg (applyClusterSection_none hnamed), ite_self]
              | some endpoint =>
                  apply hhere
                  have hfull : ¬cfg.isEmpty = true := by
                    intro hempty
                    rw [namedEndpoint_of_isEmpty hempty] at hnamed
                    cases hnamed
                  have htaken : (applyClusterSection cfg (files.str path)).endpoint ≠ "" ∨
                      (applyClusterSection cfg (files.str path)).incomplete = true := by
                    rcases applyClusterSection_some (files.str path) hnamed with
                      ⟨hhttp, hsame⟩ | ⟨-, -, hincomplete, -⟩
                    · rw [hsame]
                      exact .inl (ne_empty_of_isHttp hhttp)
                    · exact .inr hincomplete
                  rw [hrun, if_neg hfull, if_pos htaken]
                  exact .named hload hnamed

/-! ## Where the files are looked for -/

theorem workerFile_congr {files files' : Files} {nodeId : String} {paths : List Path}
    (h : ∀ p ∈ paths, files'.load p = files.load p) :
    workerFile files' nodeId paths = workerFile files nodeId paths := by
  induction paths with
  | nil => rfl
  | cons path paths ih =>
      rw [List.forall_mem_cons] at h
      rw [workerFile, workerFile, h.1, ih h.2]

theorem mem_of_workerFile {files : Files} {nodeId : String} {paths found : List Path}
    (h : workerFile files nodeId paths = .ok found) : ∀ p ∈ found, p ∈ paths := by
  induction paths with
  | nil =>
      cases h
      exact fun _ hp => hp
  | cons path paths ih =>
      rw [workerFile] at h
      obtain ⟨cfg, -, h⟩ := Except.bind_eq_ok_iff.mp h
      have hlater : workerFile files nodeId paths = .ok found → ∀ p ∈ found, p ∈ path :: paths :=
        fun hrest p hp => List.mem_cons_of_mem _ (ih hrest p hp)
      split at h
      · split at h
        · cases h
          intro p hp
          rw [List.mem_singleton] at hp
          rw [hp]
          exact List.mem_cons_self
        · exact hlater h
      · exact hlater h

theorem resolveFrom_congr {files files' : Files} {paths : List Path}
    (hstr : files'.str = files.str) (h : ∀ p ∈ paths, files'.load p = files.load p) :
    resolveFrom files' paths = resolveFrom files paths := by
  induction paths with
  | nil => rfl
  | cons path paths ih =>
      rw [List.forall_mem_cons] at h
      rw [resolveFrom, resolveFrom, h.1, ih h.2, hstr]

/-- The module is one directory deeper than the root it is to be at: what stands directly in
the checkout is not looked for, be it `cluster.yaml` or the files of the workers. -/
theorem checkout_unread (files : Files) {checkout : Path}
    (hmodule : files.moduleFile = checkout ++ ["hermes_cluster", "core", "cluster_endpoint.py"])
    (hhome : ∀ home, files.home = .ok home → home ++ [".config", "bdaya"] ≠ checkout)
    {load : Path → Except String (Option Fields)} {glob : Path → List String}
    (hload : ∀ path, path.dropLast ≠ checkout → load path = files.load path)
    (hglob : ∀ path, path ≠ checkout → glob path = files.glob path) (nodeId : String) :
    resolveClusterEndpoint { files with load := load, glob := glob } nodeId "" =
      resolveClusterEndpoint files nodeId "" := by
  have hroot : files.repoRoot = checkout ++ ["hermes_cluster"] := by
    rw [Files.repoRoot, hmodule]
    simp [List.dropLast_append_of_ne_nil]
  have hdeeper : files.repoRoot ≠ checkout := by
    rw [hroot]
    simp
  have hinside : ∀ name,
      load (files.repoRoot ++ [name]) = files.load (files.repoRoot ++ [name]) := by
    intro name
    apply hload
    rw [List.dropLast_concat]
    exact hdeeper
  have hworkers : workerFiles { files with load := load, glob := glob } nodeId =
      workerFiles files nodeId := by
    unfold workerFiles
    split
    · rfl
    · change workerFile { files with load := load, glob := glob } nodeId
        ((glob files.repoRoot).map (fun name => files.repoRoot ++ [name])) = _
      rw [hglob _ hdeeper]
      apply workerFile_congr
      intro p hp
      obtain ⟨name, -, rfl⟩ := List.mem_map.mp hp
      exact hinside name
  have hcandidates :
      candidateConfigPaths { files with load := load, glob := glob } nodeId "" =
        candidateConfigPaths files nodeId "" := by
    unfold candidateConfigPaths
    rw [hworkers]
    rfl
  rw [resolveClusterEndpoint, resolveClusterEndpoint, hcandidates]
  cases hpaths : candidateConfigPaths files nodeId "" with
  | error e => rfl
  | ok paths =>
      refine resolveFrom_congr rfl (fun p hp => ?_)
      obtain ⟨explicit, hexplicit, hpaths⟩ := Except.bind_eq_ok_iff.mp hpaths
      cases hexplicit
      obtain ⟨home, hhomeOk, hpaths⟩ := Except.bind_eq_ok_iff.mp hpaths
      obtain ⟨workers, hworkersOk, hpaths⟩ := Except.bind_eq_ok_iff.mp hpaths
      cases hpaths
      simp only [List.nil_append, List.mem_append, List.mem_singleton] at hp
      rcases hp with (hp | hp) | hp
      · rw [hp]
        apply hload
        have hbeside := hhome home hhomeOk
        rw [show home ++ [".config", "bdaya", "hermes-cluster.yaml"] =
          (home ++ [".config", "bdaya"]) ++ ["hermes-cluster.yaml"] by simp, List.dropLast_concat]
        exact hbeside
      · unfold workerFiles at hworkersOk
        split at hworkersOk
        · cases hworkersOk
          exact absurd hp List.not_mem_nil
        · obtain ⟨name, -, rfl⟩ := List.mem_map.mp (mem_of_workerFile hworkersOk p hp)
          exact hinside name
      · rw [hp]
        exact hinside "cluster.yaml"

end Resolution

section Example

local instance asciiEndpoint : Unicode := Unicode.ascii

local instance strEndpoint : PyStr := ⟨fun _ => ""⟩

/-- A checkout under `/srv`, whose files are all missing. -/
def bareCheckout : Files where
  moduleFile := ["srv", "agent", "hermes_cluster", "core", "cluster_endpoint.py"]
  home := .ok ["home", "u"]
  expanduser := fun _ => .error ""
  glob := fun _ => []
  load := fun _ => .ok none
  str := fun path => Text.join "/" path

/-- The `cluster.yaml` of the checkout names main. -/
def rootConfig (path : Path) : Except String (Option Fields) :=
  if path = ["srv", "agent", "cluster.yaml"] then
    .ok (some [("cluster", .dict [("endpoint", .str "https://main")])])
  else .ok none

theorem rootConfig_unread :
    resolveClusterEndpoint { bareCheckout with load := rootConfig } "pc" "" =
      resolveClusterEndpoint bareCheckout "pc" "" := by
  have hload : ∀ path : Path, path.dropLast ≠ ["srv", "agent"] →
      rootConfig path = bareCheckout.load path := by
    intro path hpath
    refine if_neg (fun h => hpath ?_)
    rw [h]
    decide
  have hhome : ∀ home, bareCheckout.home = .ok home →
      home ++ [".config", "bdaya"] ≠ ["srv", "agent"] := by
    intro home h
    cases h
    decide
  exact checkout_unread bareCheckout rfl hhome hload (fun _ _ => rfl) "pc"

end Example

end ClusterEndpoint

end HermesCluster
