import HermesCluster.Lib.Json
import HermesCluster.Lib.Program
import HermesCluster.Lib.PyValue
import HermesCluster.Lib.Regex
/-!
# The review on the forge

`submit_pr_review` of `core/gh_review.py` posts the verdict of a reviewer as a review of
the App, and reads the reviews of the pull request back. Here: what the forge has said
whenever a review is reported as submitted.
-/

namespace HermesCluster

namespace GhReview

open Regex
open Program hiding pure bind

/-! ## Requests and answers -/

inductive ReviewEvent where
  | approve
  | requestChanges
  deriving DecidableEq

namespace ReviewEvent

def name : ReviewEvent → String
  | .approve => "APPROVE"
  | .requestChanges => "REQUEST_CHANGES"

/-- `want_state`. -/
def wantState : ReviewEvent → String
  | .approve => "APPROVED"
  | .requestChanges => "CHANGES_REQUESTED"

end ReviewEvent

/-- `_EVENT_BY_VERDICT`. -/
def eventByVerdict (word : String) : Option ReviewEvent :=
  if word = "PASS" then some .approve
  else if word = "NEEDS-CHANGES" then some .requestChanges
  else none

theorem eventByVerdict_eq_some_iff {word : String} {event : ReviewEvent} :
    eventByVerdict word = some event ↔
      word = "PASS" ∧ event = .approve ∨ word = "NEEDS-CHANGES" ∧ event = .requestChanges := by
  unfold eventByVerdict
  split
  · next hpass => simp [hpass, eq_comm]
  · next hpass =>
      split
      · next hneeds => simp [hneeds, eq_comm]
      · next hneeds => simp [hpass, hneeds]

inductive Method where
  | get
  | post
  deriving DecidableEq

structure Payload where
  commitId : String
  event : String
  body : String

/-- The arguments of `http.request`. -/
structure Request where
  method : Method
  url : String
  token : String
  payload : Option Payload := none

/-- What `http.request` returns or raises; `raised` is any exception but `HttpError`. -/
inductive Reply where
  | json (document : Json)
  | httpError (status : Int) (body : String)
  | raised (error : String)

/-- An exception that leaves `submit_pr_review`. -/
inductive Raised where
  | python (error : PyError)
  | transport (error : String)

abbrev ForgeProgram := Program Request (fun _ => Reply) Raised

def request (req : Request) : ForgeProgram Reply :=
  perform req

/-- The arguments of `submit_pr_review`; `minter` is what the token minter does. -/
structure Submission where
  mrUrl : Option String
  sha : Option String
  verdict : Option String
  body : String := ""
  token : Option String := none
  minter : Except String (String × Json)

structure ReviewResult where
  ok : Bool
  submitted : Bool
  event : Option ReviewEvent
  reviewState : Option String
  prUrl : Option String
  tokenLen : Nat
  tokenSource : Option Json := none
  reviewId : Option Json := none
  reason : String

/-! ## The listing -/

/-- A value as an element of a set: `True` is `1`, and lists and objects have no hash. -/
inductive SetKey where
  | none
  | num (q : Rat)
  | str (s : String)
  deriving DecidableEq

def setKey : Json → Except PyError SetKey
  | .null => .ok .none
  | .bool b => .ok (.num (if b = true then 1 else 0))
  | .num q => .ok (.num q)
  | .str s => .ok (.str s)
  | .arr _ | .obj _ => .error .typeError

abbrev Fields := List (String × Json)

/-- `fields.get("id")`. -/
def idOf (fields : Fields) : Json :=
  (fields.lookup "id").getD .null

/-- `fields.get(key) or default`, where a value of another type has not the method that is
called next. -/
def getOr {α : Type} (as : Json → Option α) (default : α) (fields : Fields) (key : String) :
    Except PyError α :=
  match fields.lookup key with
  | none => .ok default
  | some value =>
      match as value with
      | some a => .ok a
      | none => if value.truthy = true then .error .attributeError else .ok default

def asText : Json → Option String
  | .str s => some s
  | _ => none

def asObject : Json → Option Fields
  | .obj fields => some fields
  | _ => none

/-- `fields.get(key) or ""`. -/
def textOf : Fields → String → Except PyError String :=
  getOr asText ""

/-- `rv.get("user") or {}`. -/
def userOf (rv : Fields) : Except PyError Fields :=
  getOr asObject [] rv "user"

/-- `user.get("type") == "Bot"`. -/
def isBot (user : Fields) : Bool :=
  match user.lookup "type" with
  | some (.str s) => s = "Bot"
  | _ => false

/-- `mine and rv.get("id") is not None and rv.get("id") not in mine`. -/
def isOther (mine : SetKey) (rv : Fields) : Except PyError Bool :=
  match idOf rv with
  | .null => .ok false
  | id => (setKey id).map fun key => decide (key ≠ mine)

/-- `page.get("reviews") if isinstance(page, dict) else page`, if that is a list. -/
def listing (page : Json) : List Json :=
  let reviews :=
    match page with
    | .obj fields => (fields.lookup "reviews").getD .null
    | page => page
  match reviews with
  | .arr rows => rows
  | _ => []

/-- `p and q`, where `q` may raise. -/
def andThen (p : Bool) (q : Except PyError Bool) : Except PyError Bool :=
  if p = true then q else .ok false

section Source

variable [Unicode]

/-- `state.upper() == want_state and commit_id.lower().startswith(str(sha)[:7].lower())`. -/
def isAtSha (sha : String) (event : ReviewEvent) (rv : Fields) : Except PyError Bool := do
  let state ← textOf rv "state"
  andThen (Unicode.upper state = event.wantState) do
    let commit ← textOf rv "commit_id"
    return Text.startsWith (Unicode.lower commit) (Unicode.lower (Text.take 7 sha))

/-- A row of the listing for which `_readback` returns. -/
def isRecorded (sha : String) (event : ReviewEvent) (mine : SetKey) : Json → Except PyError Bool
  | .obj rv => do
      let user ← userOf rv
      let login ← textOf user "login"
      let other ← isOther mine rv
      andThen (!other && (Text.startsWith (Unicode.lower login) "bdaya-lane-agent" && isBot user))
        (isAtSha sha event rv)
  | _ => .error .attributeError

/-- The loop of `_readback`. -/
def anyRecorded (sha : String) (event : ReviewEvent) (mine : SetKey) :
    List Json → Except PyError Bool
  | [] => .ok false
  | rv :: rows => do
      if ← isRecorded sha event mine rv then return true
      else anyRecorded sha event mine rows

/-! ## The source -/

def api : String := "https://api.github.com"

/-- `_parse_github_pr_url` of `core/intake_grouping.py`. -/
def prUrlRe : Regex :=
  let nameChar := chr fun c => Unicode.isWord c || c = '.' || c = '-'
  seqs [lit "http", opt (lit "s"), lit "://", opt (lit "www."), lit "github.com/",
    group (seqs [plus nameChar, lit "/", plus nameChar]), lit "/pull/", group (plus digit)]

def parseGithubPrUrl (mrUrl : String) : Except PyError (Option (String × Int)) :=
  match (prUrlRe.search mrUrl).map Cursor.captures with
  | some [repo, number] =>
      match Decimal.int number with
      | some n => .ok (some (repo, n))
      | none => .error .valueError
  | _ => .ok none

def pullUrl (pr : String × Int) : String :=
  api ++ "/repos/" ++ pr.1 ++ "/pulls/" ++ toString pr.2

def reviewsUrl (pr : String × Int) : String :=
  pullUrl pr ++ "/reviews"

def createRequest (a : Submission) (pr : String × Int) (sha : String) (event : ReviewEvent)
    (token : String) : Request where
  method := .post
  url := reviewsUrl pr
  token := token
  payload := some ⟨sha, event.name, a.body⟩

def listRequest (pr : String × Int) (token : String) : Request where
  method := .get
  url := reviewsUrl pr ++ "?per_page=100"
  token := token

/-- `verdict.strip().upper().replace("_", "-")`. -/
def normalized (verdict : String) : String :=
  Text.replaceChar '_' '-' (Unicode.upper (Text.strip verdict))

def reviewEventForVerdict : Option String → Option ReviewEvent
  | none => none
  | some verdict => if verdict = "" then none else eventByVerdict (normalized verdict)

/-- `_readback`. -/
def readback (token : String) (pr : String × Int) (sha : String) (event : ReviewEvent)
    (mine : SetKey) : ForgeProgram (Option String × String) :=
  request (listRequest pr token) >>= fun reply =>
    match reply with
    | .httpError status _ => Program.pure (none, s!"readback failed: HTTP {status}")
    | .raised error => raise (.transport error)
    | .json page =>
        match anyRecorded sha event mine (listing page).reverse with
        | .error error => raise (.python error)
        | .ok true => Program.pure (some event.wantState, "verified")
        | .ok false =>
            Program.pure (none, "no recorded App-bot review at the pinned sha in GET /reviews")

/-- A result without a review. -/
def unsubmitted (a : Submission) (ok : Bool) (event : Option ReviewEvent) (tokenLen : Nat)
    (reason : String) : ReviewResult where
  ok := ok
  submitted := false
  event := event
  reviewState := none
  prUrl := a.mrUrl
  tokenLen := tokenLen
  reason := reason

/-- `pr_url` of a result with a token. -/
def resultUrl (mrUrl : Option String) (pr : String × Int) : Option String :=
  if Text.startsWith (mrUrl.getD "None") "http" = true then mrUrl else some (pullUrl pr)

/-- The result after `_readback`. -/
def reported (a : Submission) (pr : String × Int) (event : ReviewEvent) (token : String)
    (source : Json) (created : Fields) (state : Option String) (detail : String) :
    ReviewResult where
  ok := state.isSome
  submitted := state.isSome
  event := some event
  reviewState := state
  prUrl := resultUrl a.mrUrl pr
  tokenLen := token.toList.length
  tokenSource := some source
  reviewId := some (idOf created)
  reason := detail

/-- What is done with the answer to the post. -/
def confirm (a : Submission) (pr : String × Int) (sha : String) (event : ReviewEvent)
    (token : String) (source : Json) : Json → ForgeProgram ReviewResult
  | .obj created =>
      match setKey (idOf created) with
      | .error error => raise (.python error)
      | .ok mine =>
          readback token pr sha event mine >>= fun seen =>
            Program.pure (reported a pr event token source created seen.1 seen.2)
  | _ => raise (.python .attributeError)

/-- What is done once there is a token. -/
def postReview (a : Submission) (pr : String × Int) (sha : String) (event : ReviewEvent)
    (token : String) (source : Json) : ForgeProgram ReviewResult :=
  request (createRequest a pr sha event token) >>= fun reply =>
    match reply with
    | .httpError status body =>
        Program.pure (unsubmitted a false (some event) token.toList.length
          (s!"review submission failed: HTTP {status} " ++ Text.take 200 body))
    | .raised error => raise (.transport error)
    | .json created => confirm a pr sha event token source created

/-- The token of the caller, or a new one. -/
def tokenOf (a : Submission) : Except String (String × Json) :=
  match a.token with
  | some token => .ok (token, .str "caller")
  | none => a.minter

/-- `submit_pr_review`. -/
def submitPrReview (a : Submission) : ForgeProgram ReviewResult :=
  match parseGithubPrUrl (a.mrUrl.getD "") with
  | .error error => raise (.python error)
  | .ok none => Program.pure (unsubmitted a false none 0 "not a GitHub PR url")
  | .ok (some pr) =>
      match reviewEventForVerdict a.verdict with
      | none =>
          Program.pure (unsubmitted a true none 0
            ("verdict " ++ (a.verdict.map Text.repr).getD "None" ++ " is not review-grade: " ++
              "no review submitted (only PASS and NEEDS-CHANGES reach the forge)"))
      | some event =>
          let sha := a.sha.getD ""
          if sha = "" then
            Program.pure (unsubmitted a false (some event) 0
              ("no head sha pinned: a review without its sha is " ++
                "the stale-verdict hole #914 closed on the board"))
          else
            match tokenOf a with
            | .error error =>
                Program.pure (unsubmitted a false (some event) 0
                  ("installation token unavailable, review NOT submitted: " ++ error))
            | .ok (token, source) => postReview a pr sha event token source

end Source

/-! ## The forge -/

/-- A request with its answer. -/
abbrev Exchange := Request × Reply

/-- What the forge says to a request, given the exchanges before it. -/
abbrev Forge := List Exchange → Request → Reply

/-- The forge answers, and the exchange is written down. -/
def converse (forge : Forge) (req : Request) (log : List Exchange) : Reply × List Exchange :=
  (forge log req, log ++ [(req, forge log req)])

/-- How `submit_pr_review` ends, and what was exchanged. -/
def outcome [Unicode] (forge : Forge) (a : Submission) :
    Except Raised ReviewResult × List Exchange :=
  (submitPrReview a).run (converse forge) []

theorem run_request {α : Type} (forge : Forge) (req : Request) (f : Reply → ForgeProgram α)
    (log : List Exchange) :
    (request req >>= f).run (converse forge) log =
      (f (forge log req)).run (converse forge) (log ++ [(req, forge log req)]) := rfl

/-- Tables in which only the empty text is empty in the other case. -/
class CasedUnicode extends Unicode where
  lower_eq_empty_iff : ∀ s, lower s = "" ↔ s = ""
  upper_eq_empty_iff : ∀ s, upper s = "" ↔ s = ""

theorem ofList_map_eq_empty_iff (f : Char → Char) (s : String) :
    String.ofList (s.toList.map f) = "" ↔ s = "" := by
  rw [← String.toList_inj, String.toList_ofList, String.toList_empty, List.map_eq_nil_iff,
    ← String.toList_empty, String.toList_inj]

abbrev CasedUnicode.ascii : CasedUnicode where
  toUnicode := Unicode.ascii
  lower_eq_empty_iff := ofList_map_eq_empty_iff _
  upper_eq_empty_iff := ofList_map_eq_empty_iff _

/-! ## What a row says -/

section Rows

theorem andThen_eq_ok_true {p : Bool} {q : Except PyError Bool} :
    andThen p q = .ok true ↔ p = true ∧ q = .ok true := by
  cases p with
  | true => exact (and_iff_right rfl).symm
  | false =>
      refine iff_of_false (fun h => ?_) (fun h => Bool.false_ne_true h.1)
      cases h

theorem getOr_eq_ok_iff {α : Type} {as : Json → Option α} {default a : α} {fields : Fields}
    {key : String} (ha : a ≠ default) :
    getOr as default fields key = .ok a ↔ ∃ v, fields.lookup key = some v ∧ as v = some a := by
  unfold getOr
  cases hlookup : fields.lookup key with
  | none =>
      refine iff_of_false (fun h => ha (Except.ok.inj h).symm) ?_
      rintro ⟨v, hv, -⟩
      cases hv
  | some value =>
      cases has : as value with
      | some b => simp [has]
      | none =>
          refine iff_of_false (fun h => ?_) ?_
          · simp only [has] at h
            split at h
            · cases h
            · exact ha (Except.ok.inj h).symm
          · rintro ⟨v, hv, hva⟩
            rw [← Option.some.inj hv, has] at hva
            cases hva

theorem asText_eq_some_iff {v : Json} {s : String} : asText v = some s ↔ v = .str s := by
  cases v <;> simp [asText]

theorem asObject_eq_some_iff {v : Json} {o : Fields} : asObject v = some o ↔ v = .obj o := by
  cases v <;> simp [asObject]

variable {fields rv user : Fields} {key s : String}

theorem textOf_eq_ok_iff (hs : s ≠ "") :
    textOf fields key = .ok s ↔ fields.lookup key = some (.str s) := by
  refine (getOr_eq_ok_iff hs).trans ?_
  simp only [asText_eq_some_iff, exists_eq_right]

theorem userOf_eq_ok_iff (huser : user ≠ []) :
    userOf rv = .ok user ↔ rv.lookup "user" = some (.obj user) := by
  refine (getOr_eq_ok_iff huser).trans ?_
  simp only [asObject_eq_some_iff, exists_eq_right]

theorem isBot_iff : isBot user = true ↔ user.lookup "type" = some (.str "Bot") := by
  unfold isBot
  split
  · next s hlookup => simp [hlookup]
  · next hnot => exact iff_of_false Bool.false_ne_true (hnot "Bot")

theorem isOther_eq_false_iff {mine : SetKey} :
    isOther mine rv = .ok false ↔ idOf rv = .null ∨ setKey (idOf rv) = .ok mine := by
  unfold isOther
  split
  · next hid => exact iff_of_true rfl (Or.inl hid)
  · next hnot =>
      rw [or_iff_right hnot]
      cases hkey : setKey (idOf rv) with
      | error error =>
          refine iff_of_false (fun h => ?_) (fun h => ?_)
          · cases h
          · cases h
      | ok key =>
          by_cases hmine : key = mine
          · simp [hmine, Except.map]
          · simp [hmine, Except.map]

theorem ne_empty_of_startsWith {p : String} (hp : p ≠ "")
    (h : Text.startsWith s p = true) : s ≠ "" := by
  rintro rfl
  have hprefix := List.prefix_nil.mp (List.isPrefixOf_iff_prefix.mp h)
  exact hp (String.toList_inj.mp hprefix)

theorem take_ne_empty {n : Nat} (hs : s ≠ "") : Text.take (n + 1) s ≠ "" := by
  intro hempty
  rw [← String.toList_inj, Text.take, String.toList_ofList] at hempty
  rcases List.take_eq_nil_iff.mp hempty with hn | hnil
  · cases hn
  · exact hs (String.toList_inj.mp hnil)

theorem ReviewEvent.wantState_ne_empty (event : ReviewEvent) : event.wantState ≠ "" := by
  cases event with
  | approve => decide
  | requestChanges => decide

end Rows

section Recorded

variable [CasedUnicode]

/-- A review by the App bot in the state of the event, which the forge does not tell from the
one that was created. -/
structure Recorded (event : ReviewEvent) (mine : SetKey) (commit : String) (rv : Fields) :
    Prop where
  bot : ∃ user login, rv.lookup "user" = some (.obj user) ∧
    user.lookup "login" = some (.str login) ∧
    Text.startsWith (Unicode.lower login) "bdaya-lane-agent" = true ∧
    user.lookup "type" = some (.str "Bot")
  id : idOf rv = .null ∨ setKey (idOf rv) = .ok mine
  state : ∃ state, rv.lookup "state" = some (.str state) ∧
    Unicode.upper state = event.wantState
  commitId : rv.lookup "commit_id" = some (.str commit)
  commit_ne : commit ≠ ""

/-- The two agree as far as `_readback` looks. -/
def SharesPrefix (commit sha : String) : Prop :=
  Text.startsWith (Unicode.lower commit) (Unicode.lower (Text.take 7 sha)) = true

variable {sha : String} {event : ReviewEvent} {mine : SetKey} {rv : Fields}

theorem isAtSha_iff (hsha : sha ≠ "") :
    isAtSha sha event rv = .ok true ↔
      (∃ state, rv.lookup "state" = some (.str state) ∧ Unicode.upper state = event.wantState) ∧
        ∃ commit, (rv.lookup "commit_id" = some (.str commit) ∧ commit ≠ "") ∧
          SharesPrefix commit sha := by
  have hwant : ∀ {state}, Unicode.upper state = event.wantState → state ≠ "" := by
    intro state hstate hempty
    rw [(CasedUnicode.upper_eq_empty_iff state).mpr hempty] at hstate
    exact event.wantState_ne_empty hstate.symm
  have hcommit : ∀ {commit}, SharesPrefix commit sha → commit ≠ "" := by
    intro commit hshares hempty
    refine ne_empty_of_startsWith (fun hlower => ?_) hshares
      ((CasedUnicode.lower_eq_empty_iff commit).mpr hempty)
    exact take_ne_empty hsha ((CasedUnicode.lower_eq_empty_iff _).mp hlower)
  unfold isAtSha
  rw [Except.bind_eq_ok_iff]
  constructor
  · rintro ⟨state, hstate, h⟩
    obtain ⟨hupper, h⟩ := andThen_eq_ok_true.mp h
    obtain ⟨commit, hread, h⟩ := Except.bind_eq_ok_iff.mp h
    have hupper := of_decide_eq_true hupper
    have hshares : SharesPrefix commit sha := Except.ok.inj h
    exact ⟨⟨state, (textOf_eq_ok_iff (hwant hupper)).mp hstate, hupper⟩, commit,
      ⟨(textOf_eq_ok_iff (hcommit hshares)).mp hread, hcommit hshares⟩, hshares⟩
  · rintro ⟨⟨state, hstate, hupper⟩, commit, ⟨hread, hne⟩, hshares⟩
    refine ⟨state, (textOf_eq_ok_iff (hwant hupper)).mpr hstate, ?_⟩
    refine andThen_eq_ok_true.mpr ⟨decide_eq_true hupper, Except.bind_eq_ok_iff.mpr ?_⟩
    exact ⟨commit, (textOf_eq_ok_iff hne).mpr hread, congrArg Except.ok hshares⟩

theorem isRecorded_iff (hsha : sha ≠ "") :
    isRecorded sha event mine (.obj rv) = .ok true ↔
      ∃ commit, Recorded event mine commit rv ∧ SharesPrefix commit sha := by
  have hlogin : ∀ {login}, Text.startsWith (Unicode.lower login) "bdaya-lane-agent" = true →
      login ≠ "" := by
    intro login hstarts hempty
    refine ne_empty_of_startsWith (by decide) hstarts ?_
    exact (CasedUnicode.lower_eq_empty_iff login).mpr hempty
  unfold isRecorded
  simp only [Except.bind_eq_ok_iff, andThen_eq_ok_true, isAtSha_iff hsha, Bool.and_eq_true,
    Bool.not_eq_true', isBot_iff]
  constructor
  · rintro ⟨user, huser, login, hread, other, hother, ⟨rfl, hstarts, hbot⟩, hstate, commit,
      ⟨hcommit, hne⟩, hshares⟩
    have huser_ne : user ≠ [] := by
      rintro rfl
      cases hbot
    refine ⟨commit, ⟨⟨user, login, (userOf_eq_ok_iff huser_ne).mp huser,
      (textOf_eq_ok_iff (hlogin hstarts)).mp hread, hstarts, hbot⟩,
      isOther_eq_false_iff.mp hother, hstate, hcommit, hne⟩, hshares⟩
  · rintro ⟨commit, ⟨⟨user, login, huser, hread, hstarts, hbot⟩, hid, hstate, hcommit, hne⟩,
      hshares⟩
    have huser_ne : user ≠ [] := by
      rintro rfl
      cases hbot
    exact ⟨user, (userOf_eq_ok_iff huser_ne).mpr huser, login,
      (textOf_eq_ok_iff (hlogin hstarts)).mpr hread, false, isOther_eq_false_iff.mpr hid,
      ⟨rfl, hstarts, hbot⟩, hstate, commit, ⟨hcommit, hne⟩, hshares⟩

/-- What the loop of `_readback` finds is a row of the listing. -/
theorem exists_of_anyRecorded {rows : List Json} (hsha : sha ≠ "")
    (h : anyRecorded sha event mine rows = .ok true) :
    ∃ rv commit, .obj rv ∈ rows ∧ Recorded event mine commit rv ∧ SharesPrefix commit sha := by
  induction rows with
  | nil => cases h
  | cons row rows ih =>
      obtain ⟨here, hhere, h⟩ := Except.bind_eq_ok_iff.mp h
      cases here with
      | false =>
          obtain ⟨rv, commit, hmem, hrest⟩ := ih h
          exact ⟨rv, commit, List.mem_cons_of_mem _ hmem, hrest⟩
      | true =>
          cases row with
          | obj rv =>
              obtain ⟨commit, hrecorded⟩ := (isRecorded_iff hsha).mp hhere
              exact ⟨rv, commit, List.mem_cons_self, hrecorded⟩
          | _ => cases hhere

end Recorded

/-! ## What was exchanged -/

section Runs

variable [CasedUnicode]

/-- The verdict is one of the two that reach the forge. -/
def Graded (verdict : String) (event : ReviewEvent) : Prop :=
  normalized verdict = "PASS" ∧ event = .approve ∨
    normalized verdict = "NEEDS-CHANGES" ∧ event = .requestChanges

/-- One of the two commits is a prefix of the other. -/
def Compatible (commit sha : String) : Prop :=
  Text.startsWith (Unicode.lower commit) (Unicode.lower sha) = true ∨
    Text.startsWith (Unicode.lower sha) (Unicode.lower commit) = true

/-- No review of the listing that could be the one agrees with `sha` in the first
characters only. -/
def Telling (event : ReviewEvent) (mine : SetKey) (page : Json) (sha : String) : Prop :=
  ∀ rv commit, .obj rv ∈ listing page → Recorded event mine commit rv →
    SharesPrefix commit sha → Compatible commit sha

/-- The review was posted, and it is in the listing that was read back. -/
structure ReadBack (a : Submission) (sha : String) (event : ReviewEvent) (pr : String × Int)
    (token : String) (created : Fields) (page : Json) (log : List Exchange) : Prop where
  parsed : parseGithubPrUrl (a.mrUrl.getD "") = .ok (some pr)
  exchanged : log = [(createRequest a pr sha event token, .json (.obj created)),
    (listRequest pr token, .json page)]
  listed : ∃ rv mine commit, .obj rv ∈ listing page ∧ setKey (idOf created) = .ok mine ∧
    Recorded event mine commit rv ∧ (Telling event mine page sha → Compatible commit sha)

variable {forge : Forge} {a : Submission} {pr : String × Int} {sha token : String}
  {event : ReviewEvent} {mine : SetKey} {source : Json} {log : List Exchange}
  {r : ReviewResult}

theorem readback_verified {state detail : String} (hsha : sha ≠ "")
    (h : ((readback token pr sha event mine).run (converse forge) log).1 =
      .ok (some state, detail)) :
    ∃ page rv commit,
      ((readback token pr sha event mine).run (converse forge) log).2 =
        log ++ [(listRequest pr token, .json page)] ∧
      .obj rv ∈ listing page ∧ Recorded event mine commit rv ∧ SharesPrefix commit sha := by
  unfold readback at h ⊢
  rw [run_request] at h ⊢
  cases hreply : forge log (listRequest pr token) with
  | httpError status body =>
      rw [hreply] at h
      cases h
  | raised error =>
      rw [hreply] at h
      cases h
  | json page =>
      rw [hreply] at h
      dsimp only at h ⊢
      cases hrow : anyRecorded sha event mine (listing page).reverse with
      | error error =>
          rw [hrow] at h
          cases h
      | ok found =>
          rw [hrow] at h
          cases found with
          | false => cases h
          | true =>
              obtain ⟨rv, commit, hmem, hrest⟩ := exists_of_anyRecorded hsha hrow
              exact ⟨page, rv, commit, rfl, List.mem_reverse.mp hmem, hrest⟩

theorem confirm_verified {document : Json} (hsha : sha ≠ "")
    (h : ((confirm a pr sha event token source document).run (converse forge) log).1 = .ok r)
    (hr : r.submitted = true) :
    ∃ created page rv mine commit, document = .obj created ∧
      ((confirm a pr sha event token source document).run (converse forge) log).2 =
        log ++ [(listRequest pr token, .json page)] ∧
      .obj rv ∈ listing page ∧ setKey (idOf created) = .ok mine ∧
      Recorded event mine commit rv ∧ SharesPrefix commit sha := by
  cases document with
  | obj created =>
      unfold confirm at h ⊢
      dsimp only at h ⊢
      cases hmine : setKey (idOf created) with
      | error error =>
          rw [hmine] at h
          cases h
      | ok mine =>
          rw [hmine] at h
          obtain ⟨⟨state, detail⟩, hread, hend⟩ := exists_of_run_bind_ok h
          rw [run_bind_of_ok hread]
          cases state with
          | none =>
              cases hend
              cases hr
          | some state =>
              obtain ⟨page, rv, commit, hlog, hmem, hrest⟩ := readback_verified hsha hread
              exact ⟨created, page, rv, mine, commit, rfl, hlog, hmem, hmine, hrest⟩
  | _ => cases h

theorem postReview_verified (hsha : sha ≠ "")
    (h : ((postReview a pr sha event token source).run (converse forge) log).1 = .ok r)
    (hr : r.submitted = true) :
    ∃ created page rv mine commit,
      ((postReview a pr sha event token source).run (converse forge) log).2 =
        log ++ [(createRequest a pr sha event token, .json (.obj created)),
          (listRequest pr token, .json page)] ∧
      .obj rv ∈ listing page ∧ setKey (idOf created) = .ok mine ∧
      Recorded event mine commit rv ∧ SharesPrefix commit sha := by
  unfold postReview at h ⊢
  rw [run_request] at h ⊢
  cases hreply : forge log (createRequest a pr sha event token) with
  | httpError status body =>
      rw [hreply] at h
      cases h
      cases hr
  | raised error =>
      rw [hreply] at h
      cases h
  | json document =>
      rw [hreply] at h
      obtain ⟨created, page, rv, mine, commit, rfl, hlog, hrest⟩ := confirm_verified hsha h hr
      refine ⟨created, page, rv, mine, commit, hlog.trans ?_, hrest⟩
      rw [List.append_assoc]
      rfl

theorem normalized_empty : normalized "" = "" := by
  have hstrip : Text.strip "" = "" := rfl
  have hupper : Unicode.upper "" = "" := (CasedUnicode.upper_eq_empty_iff "").mpr rfl
  rw [normalized, hstrip, hupper]
  rfl

theorem reviewEventForVerdict_eq_some_iff {verdict : Option String} :
    reviewEventForVerdict verdict = some event ↔ ∃ v, verdict = some v ∧ Graded v event := by
  cases verdict with
  | none => simp [reviewEventForVerdict]
  | some v =>
      simp only [reviewEventForVerdict, Option.some.injEq, exists_eq_left']
      split
      · next hempty =>
          subst hempty
          rw [Graded, normalized_empty]
          simp
      · exact eventByVerdict_eq_some_iff

/-- A run that submits gets as far as the post. -/
theorem exists_postReview (h : (outcome forge a).1 = .ok r) (hr : r.submitted = true) :
    ∃ pr event sha token source,
      parseGithubPrUrl (a.mrUrl.getD "") = .ok (some pr) ∧
      reviewEventForVerdict a.verdict = some event ∧ a.sha = some sha ∧ sha ≠ "" ∧
      submitPrReview a = postReview a pr sha event token source := by
  unfold outcome at h
  unfold submitPrReview at h ⊢
  cases hparsed : parseGithubPrUrl (a.mrUrl.getD "") with
  | error error =>
      rw [hparsed] at h
      cases h
  | ok parsed =>
  rw [hparsed] at h
  cases parsed with
  | none =>
      cases h
      cases hr
  | some pr =>
  cases hevent : reviewEventForVerdict a.verdict with
  | none =>
      rw [hevent] at h
      cases h
      cases hr
  | some event =>
  rw [hevent] at h
  dsimp only at h ⊢
  by_cases hsha : a.sha.getD "" = ""
  · rw [if_pos hsha] at h
    cases h
    cases hr
  rw [if_neg hsha] at h ⊢
  cases htoken : tokenOf a with
  | error error =>
      rw [htoken] at h
      cases h
      cases hr
  | ok minted =>
      cases hgiven : a.sha with
      | none => exact absurd (congrArg (Option.getD · "") hgiven) hsha
      | some sha =>
          rw [hgiven] at hsha
          exact ⟨pr, event, sha, minted.1, minted.2, rfl, rfl, rfl, hsha, rfl⟩

/-- A verdict that is not for the forge sends nothing. -/
theorem no_request_of_verdict (h : reviewEventForVerdict a.verdict = none) :
    (outcome forge a).2 = [] := by
  unfold outcome submitPrReview
  rw [h]
  cases parseGithubPrUrl (a.mrUrl.getD "") with
  | error error => rfl
  | ok parsed =>
      cases parsed with
      | none => rfl
      | some pr => rfl

/-- A review is reported as submitted only if it was posted and the listing shows it, and a
verdict that is not for the forge sends nothing. -/
theorem review_never_claimed_falsely (forge : Forge) (a : Submission) :
    (∀ r, (outcome forge a).1 = .ok r → r.submitted = true →
      ∃ verdict sha event pr token created page,
        a.verdict = some verdict ∧ Graded verdict event ∧ a.sha = some sha ∧
          ReadBack a sha event pr token created page (outcome forge a).2) ∧
    ((∀ verdict event, a.verdict = some verdict → ¬Graded verdict event) →
      (outcome forge a).2 = []) := by
  constructor
  · intro r h hr
    obtain ⟨pr, event, sha, token, source, hparsed, hevent, hgiven, hsha, hpost⟩ :=
      exists_postReview h hr
    obtain ⟨verdict, hverdict, hgraded⟩ := reviewEventForVerdict_eq_some_iff.mp hevent
    unfold outcome at h ⊢
    rw [hpost] at h ⊢
    obtain ⟨created, page, rv, mine, commit, hlog, hmem, hmine, hrecorded, hshares⟩ :=
      postReview_verified hsha h hr
    refine ⟨verdict, sha, event, pr, token, created, page, hverdict, hgraded, hgiven, hparsed,
      hlog, rv, mine, commit, hmem, hmine, hrecorded, fun htelling => ?_⟩
    exact htelling rv commit hmem hrecorded hshares
  · intro hnot
    refine no_request_of_verdict (Option.eq_none_iff_forall_ne_some.mpr fun event hevent => ?_)
    obtain ⟨verdict, hverdict, hgraded⟩ := reviewEventForVerdict_eq_some_iff.mp hevent
    exact hnot verdict event hverdict hgraded

end Runs

section Examples

local instance asciiForge : CasedUnicode := CasedUnicode.ascii

def pinned : String := "d1c8e5f000000000000000000000000000000000"

def passing : Submission where
  mrUrl := some "https://github.com/acme/widgets/pull/77"
  sha := some pinned
  verdict := some "PASS"
  token := some "ghs_xxxx"
  minter := .error "no key"

/-- A review of the App in this state, with these entries besides. -/
def reviewOfApp (state : String) (entries : Fields) : Fields :=
  entries ++ [("user", .obj [("login", .str "bdaya-lane-agent[bot]"), ("type", .str "Bot")]),
    ("state", .str state), ("commit_id", .str pinned)]

/-- A forge that creates the review `id` and lists one review. -/
def forgeListing (id : Rat) (rv : Fields) : Forge := fun _ req =>
  match req.method with
  | .post => .json (.obj [("id", .num id)])
  | .get => .json (.obj [("reviews", .arr [.obj rv])])

def approving : Forge :=
  forgeListing 999 (reviewOfApp "APPROVED" [("id", .num 999)])

theorem review_never_claimed_falsely_passing :
    (∃ r, (outcome approving passing).1 = .ok r ∧ r.submitted = true ∧
      ∃ verdict sha event pr token created page,
        some "PASS" = some verdict ∧ Graded verdict event ∧ some pinned = some sha ∧
          ReadBack passing sha event pr token created page (outcome approving passing).2) ∧
    (outcome approving { passing with verdict := some "NEEDS-HUMAN" }).2 = [] := by
  constructor
  · obtain ⟨r, hrun, hr⟩ : ∃ r, (outcome approving passing).1 = .ok r ∧ r.submitted = true :=
      ⟨_, rfl, rfl⟩
    exact ⟨r, hrun, hr, (review_never_claimed_falsely approving passing).1 r hrun hr⟩
  · refine (review_never_claimed_falsely approving _).2 ?_
    rintro verdict event heq (⟨hpass, -⟩ | ⟨hneeds, -⟩)
    · cases heq
      exact absurd hpass (by decide)
    · cases heq
      exact absurd hneeds (by decide)

/-- A row without an id counts as the review that was created. -/
theorem nameless_review_claimed :
    ∃ r created page,
      (outcome (forgeListing 1 (reviewOfApp "CHANGES_REQUESTED" []))
          { passing with verdict := some "NEEDS-CHANGES" }) =
        (.ok r,
          [(createRequest passing ("acme/widgets", 77) pinned .requestChanges "ghs_xxxx",
              .json (.obj created)),
            (listRequest ("acme/widgets", 77) "ghs_xxxx", .json page)]) ∧
      r.submitted = true ∧
      ∀ rv, .obj rv ∈ listing page → setKey (idOf rv) ≠ setKey (idOf created) := by
  refine ⟨_, _, _, rfl, rfl, fun rv hmem => ?_⟩
  obtain rfl : rv = reviewOfApp "CHANGES_REQUESTED" [] :=
    Json.obj.inj (List.mem_singleton.mp hmem)
  decide

end Examples

end GhReview

end HermesCluster
