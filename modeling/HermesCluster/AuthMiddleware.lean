import HermesCluster.Lib.Url
import HermesCluster.Core.PeerAuth
/-!
# The signed path

A client signs the path of the URL it calls; the middleware verifies the path that
`request.url` gives for the request, once the server has undone the escapes. The
server's decoder and `request.url`, which belongs to Starlette, are parameters.
-/

namespace HermesCluster

open PeerAuth

/-! ## The signer -/

/-- `build_signed_path`. -/
def buildSignedPath [Nfkc] (url : String) : Except String String := do
  let parsed ← Url.parts url
  let path := String.ofList parsed.parsedPath
  if parsed.query ≠ [] then pure (path ++ "?" ++ String.ofList parsed.query)
  else pure path

/-! ## The verifier -/

/-- What the middleware looks at in a request: the path and the query are those of
`request.url`. -/
structure PeerRequest where
  method : String
  path : String
  query : String
  body : List UInt8
  headers : Headers

/-- `PUBLIC_PATHS`. -/
def publicPaths : List String :=
  ["/health", "/metrics", "/docs", "/redoc", "/openapi.json", "/api/v1/intake/gitlab/webhook",
    "/api/v1/intake/gitlab/policy"]

/-- `PUBLIC_PREFIXES`. -/
def publicPrefixes : List String :=
  ["/dashboard/", "/dashboard/static/"]

/-- `_is_public`. -/
def isPublic (path : String) : Bool :=
  publicPaths.contains path || publicPrefixes.any (fun start => Text.startsWith path start)

/-- The path of a request with its query, as it is verified. -/
def PeerRequest.signedPath (r : PeerRequest) : String :=
  if r.query ≠ "" then r.path ++ "?" ++ r.query else r.path

/-- `PeerAuthMiddleware.dispatch`: the request goes on to the application, or it
is answered with 401. -/
def dispatch [Unicode] [Sha256] (state : PeerAuthState) (enabled : Bool) (now : Int)
    (r : PeerRequest) : Except String Bool := do
  if enabled = false then pure true
  else if isPublic r.path = true then pure true
  else
    let (ok, _) ← state.verifyRequest now r.method r.signedPath r.body r.headers
    pure ok

/-! ## From the client to the middleware -/

/-- The path a client asks for: a URL without one asks for the root. -/
def requestTarget (parsed : Url.Parts) : List Char :=
  if parsed.path = [] then ['/'] else parsed.path

/-- `request.url.path` and `request.url.query`, for the path and the query that a client
asks for. What is plain comes back. Otherwise the path is what `urlsplit` finds where the
decoded path stands, or it spells the decoded path in its own way; and as a path of
`urlsplit` it ends before a question mark. -/
class RequestUrl [Url.Utf8] where
  path : List Char → List Char → List Char
  query : List Char → List Char → List Char
  path_plain : ∀ target q, target.head? = some '/' → target.all Url.isUnreserved = true →
    path target q = target
  query_plain : ∀ target q, target.head? = some '/' → target.all Url.isUnreserved = true →
    query target q = q
  path_read : ∀ target q, target.head? = some '/' →
    path target q = Url.pathPart (Url.unquote target) ∨
      Url.unquote (path target q) = Url.unquote target
  mark_not_mem : ∀ target q, '?' ∉ path target q

section Paths

variable [Url.Utf8] [RequestUrl] {parsed : Url.Parts}

/-- The path and the query come back as the client wrote them. -/
def RequestUrl.Keeps (target q : List Char) : Prop :=
  RequestUrl.path target q = target ∧ RequestUrl.query target q = q

/-- The request that the middleware is handed for a URL. -/
def received (parsed : Url.Parts) (method : String) (body : List UInt8)
    (headers : Headers) : PeerRequest :=
  { method := method
    path := String.ofList (RequestUrl.path (requestTarget parsed) parsed.query)
    query := String.ofList (RequestUrl.query (requestTarget parsed) parsed.query)
    body := body
    headers := headers }

/-- There is a path, its last segment has no parameters, and it is written in characters
that no URL escapes, or else `request.url` keeps its escapes. -/
structure WrittenOut (parsed : Url.Parts) : Prop where
  path_ne : parsed.path ≠ []
  params : ';' ∉ Url.lastPathSegment parsed.path
  escapes : parsed.path.all Url.isUnreserved = true ∨ RequestUrl.Keeps parsed.path parsed.query

/-- The two sides see one path and one query exactly when the path is written out. -/
theorem parsedPath_eq_iff (hscheme : parsed.scheme = "http" ∨ parsed.scheme = "https")
    (hroot : parsed.path = [] ∨ ∃ rest, parsed.path = '/' :: rest) :
    (parsed.parsedPath = RequestUrl.path (requestTarget parsed) parsed.query ∧
        parsed.query = RequestUrl.query (requestTarget parsed) parsed.query) ↔
      WrittenOut parsed := by
  have huses : parsed.scheme ∈ Url.usesParams := by
    rcases hscheme with heq | heq
    · rw [heq]
      decide
    · rw [heq]
      decide
  unfold Url.Parts.parsedPath
  rw [if_pos huses]
  constructor
  · rintro ⟨hpath, hquery⟩
    have hne : parsed.path ≠ [] := by
      intro hempty
      have htarget : requestTarget parsed = ['/'] := if_pos hempty
      rw [htarget, RequestUrl.path_plain _ _ rfl (by decide), hempty] at hpath
      cases hpath
    have htarget : requestTarget parsed = parsed.path := if_neg hne
    have hslash : parsed.path.head? = some '/' := by
      obtain ⟨rest, hrest⟩ := hroot.resolve_left hne
      rw [hrest]
      rfl
    rw [htarget] at hpath hquery
    have hparams : ';' ∉ Url.lastPathSegment parsed.path := by
      intro hmem
      rcases RequestUrl.path_read parsed.path parsed.query hslash with hread | hspelt
      · exact Url.pathPart_unquote_ne hmem (hread.symm.trans hpath.symm)
      · rw [← hpath] at hspelt
        exact Url.unquote_withoutParams_ne hmem hspelt
    rw [Url.withoutParams_eq_self hparams] at hpath
    exact ⟨hne, hparams, .inr ⟨hpath.symm, hquery.symm⟩⟩
  · intro h
    have htarget : requestTarget parsed = parsed.path := if_neg h.path_ne
    have hkept : RequestUrl.Keeps parsed.path parsed.query := by
      refine h.escapes.elim (fun hplain => ?_) id
      have hslash : parsed.path.head? = some '/' := by
        obtain ⟨rest, hrest⟩ := hroot.resolve_left h.path_ne
        rw [hrest]
        rfl
      exact ⟨RequestUrl.path_plain _ _ hslash hplain, RequestUrl.query_plain _ _ hslash hplain⟩
    rw [Url.withoutParams_eq_self h.params, htarget]
    exact ⟨hkept.1.symm, hkept.2.symm⟩

omit [Url.Utf8] [RequestUrl] in
theorem ofList_eq_empty_iff {cs : List Char} : String.ofList cs = "" ↔ cs = [] := by
  rw [← String.toList_inj, String.toList_ofList]
  rfl

/-- A path and a query as they are signed. -/
def withQuery (path q : List Char) : List Char :=
  path ++ if q = [] then [] else '?' :: q

omit [Url.Utf8] [RequestUrl] in
theorem withQuery_inj {path path' q q' : List Char} (hpath : '?' ∉ path) (hpath' : '?' ∉ path') :
    withQuery path q = withQuery path' q' ↔ path = path' ∧ q = q' := by
  have hcut : ∀ l r : List Char, '?' ∉ l → (withQuery l r).takeWhile (fun c => c ≠ '?') = l := by
    intro l r hl
    have hpass : ∀ c ∈ l, decide (c ≠ '?') = true := by
      rintro c hc
      exact decide_eq_true (fun heq => hl (heq ▸ hc))
    rw [withQuery, List.takeWhile_append_of_pos hpass]
    split <;> simp
  constructor
  · intro h
    obtain rfl : path = path' := by
      rw [← hcut path q hpath, h, hcut path' q' hpath']
    refine ⟨rfl, ?_⟩
    have htail := List.append_cancel_left h
    by_cases hq : q = [] <;> by_cases hq' : q' = [] <;> simp_all
  · rintro ⟨rfl, rfl⟩
    rfl

omit [Url.Utf8] [RequestUrl] in
theorem toList_withQuery (path q : List Char) :
    (String.ofList path ++ "?" ++ String.ofList q).toList = path ++ '?' :: q := by
  simp

omit [Url.Utf8] [RequestUrl] in
theorem buildSignedPath_eq [Nfkc] {url : String} (hparsed : Url.parts url = .ok parsed) :
    buildSignedPath url = .ok (String.ofList (withQuery parsed.parsedPath parsed.query)) := by
  unfold buildSignedPath withQuery
  rw [hparsed]
  by_cases hquery : parsed.query ≠ []
  · refine (if_pos hquery).trans (congrArg Except.ok ?_)
    rw [if_neg hquery, ← String.toList_inj, toList_withQuery, String.toList_ofList]
  · refine (if_neg hquery).trans (congrArg Except.ok ?_)
    rw [if_pos (not_not.mp hquery), List.append_nil]

theorem signedPath_received (parsed : Url.Parts) (method : String) (body : List UInt8)
    (headers : Headers) :
    (received parsed method body headers).signedPath =
      String.ofList (withQuery (RequestUrl.path (requestTarget parsed) parsed.query)
        (RequestUrl.query (requestTarget parsed) parsed.query)) := by
  unfold PeerRequest.signedPath received withQuery
  dsimp only
  by_cases hquery : RequestUrl.query (requestTarget parsed) parsed.query = []
  · rw [if_pos hquery, hquery, List.append_nil]
    rfl
  · rw [if_neg hquery, if_pos (fun hempty => hquery (ofList_eq_empty_iff.mp hempty)),
      ← String.toList_inj, toList_withQuery, String.toList_ofList]

/-- What is signed for a URL is what is verified exactly when its paths and queries agree. -/
theorem buildSignedPath_eq_iff [Nfkc] {url method : String} {body : List UInt8} {headers : Headers}
    (hparsed : Url.parts url = .ok parsed) :
    buildSignedPath url = .ok (received parsed method body headers).signedPath ↔
      parsed.parsedPath = RequestUrl.path (requestTarget parsed) parsed.query ∧
        parsed.query = RequestUrl.query (requestTarget parsed) parsed.query := by
  have hmark : '?' ∉ parsed.parsedPath := by
    intro hmem
    have hpath : '?' ∈ parsed.path := by
      unfold Url.Parts.parsedPath at hmem
      split at hmem
      · exact Url.mem_of_mem_withoutParams hmem
      · exact hmem
    exact (Url.path_of_parts hparsed).1 _ hpath (by decide)
  rw [buildSignedPath_eq hparsed, signedPath_received, Except.ok.injEq, String.ofList_inj]
  exact withQuery_inj hmark (RequestUrl.mark_not_mem _ _)

/-- What a client signs for a URL is what the middleware verifies, and its
signed requests go on to the application, exactly when the path is written out. -/
theorem signedPath_agrees_iff [Unicode] [Sha256] [Nfkc] {url : String}
    (hparsed : Url.parts url = .ok parsed)
    (hscheme : parsed.scheme = "http" ∨ parsed.scheme = "https") (hhost : parsed.netloc ≠ "") :
    ((∀ method body headers,
        buildSignedPath url = .ok (received parsed method body headers).signedPath) ∧
      ∀ (signer verifier : PeerAuthState) enabled signedAt timestamp now ts method path body
          headers,
        buildSignedPath url = .ok path →
        signer.signRequest signedAt method path body timestamp = .ok headers → headers ≠ [] →
        verifier.peerTokens.lookup signer.localNodeId = some signer.localToken →
        Decimal.int (header headers "X-Peer-Timestamp") = some ts →
        |now - ts| ≤ verifier.replayWindow →
        dispatch verifier enabled now (received parsed method body headers) = .ok true) ↔
      WrittenOut parsed := by
  have hpath := parsedPath_eq_iff hscheme ((Url.path_of_parts hparsed).2 hhost)
  constructor
  · intro h
    exact hpath.mp ((buildSignedPath_eq_iff hparsed).mp (h.1 "" [] []))
  · intro hwritten
    have hagree : ∀ method body headers,
        buildSignedPath url = .ok (received parsed method body headers).signedPath :=
      fun _ _ _ => (buildSignedPath_eq_iff hparsed).mpr (hpath.mpr hwritten)
    refine ⟨hagree, ?_⟩
    intro signer verifier enabled signedAt timestamp now ts method path body headers hpath hsigned
      hne hknown hread hfresh
    have hsame : path = (received parsed method body headers).signedPath :=
      Except.ok.inj (hpath.symm.trans (hagree method body headers))
    obtain ⟨hnode, htoken, at', hheaders⟩ := PeerAuthState.signRequest_eq_ok hsigned hne
    have hverified : verifier.verifyRequest now method path body headers = .ok (true, "") :=
      (verifier.verifyRequest_iff now method path body headers).mpr
        ⟨_, ts, PeerAuthState.vouches_of_signed hnode htoken hknown hheaders hread hfresh⟩
    unfold dispatch
    split
    · rfl
    · split
      · rfl
      · rw [← hsame]
        change (verifier.verifyRequest now method path body headers >>= fun p => pure p.1) = _
        rw [hverified]
        rfl

end Paths

/-! ## Where the decoded path is read -/

section Decoded

variable [Url.Utf8]

/-- `request.url` of the versions that put the decoded path and the query together and
read them as a URL. -/
abbrev decodedUrl : RequestUrl where
  path target _ := Url.pathPart (Url.unquote target)
  query target q := Url.queryPart (Url.unquote target) q
  path_plain target _ _ h := by
    rw [Url.unquote_of_plain (Url.hasEscape_of_unreserved h),
      (Url.unmarked_of_unreserved h).pathPart_eq]
  query_plain target q _ h := by
    rw [Url.unquote_of_plain (Url.hasEscape_of_unreserved h),
      (Url.unmarked_of_unreserved h).queryPart_eq]
  path_read _ _ _ := .inl rfl
  mark_not_mem target _ hmem := by
    have hmark := List.mem_takeWhile_imp hmem
    exact absurd hmark (by decide)

attribute [local instance] decodedUrl

/-- There a path is written out if nothing in it is escaped. -/
theorem writtenOut_decoded_iff [Nfkc] {url : String} {parsed : Url.Parts}
    (hparsed : Url.parts url = .ok parsed) :
    WrittenOut parsed ↔ parsed.path ≠ [] ∧ ';' ∉ Url.lastPathSegment parsed.path ∧
      Url.hasEscape parsed.path = false := by
  have hclean := (Url.path_of_parts hparsed).1
  constructor
  · intro h
    refine ⟨h.path_ne, h.params, ?_⟩
    rcases h.escapes with hplain | hkept
    · exact Url.hasEscape_of_unreserved hplain
    · by_contra hescape
      have hpath : Url.pathPart (Url.unquote parsed.path) = parsed.path := hkept.1
      have hshort := Url.length_pathPart_le (Url.unquote parsed.path)
      have hdecode := Url.length_unquote_lt (Bool.not_eq_false _ ▸ hescape)
      rw [hpath] at hshort
      omega
  · rintro ⟨hne, hparams, hescape⟩
    refine ⟨hne, hparams, .inr ⟨?_, ?_⟩⟩
    · change Url.pathPart (Url.unquote parsed.path) = parsed.path
      rw [Url.unquote_of_plain hescape, hclean.pathPart_eq]
    · change Url.queryPart (Url.unquote parsed.path) parsed.query = parsed.query
      rw [Url.unquote_of_plain hescape, hclean.queryPart_eq]

end Decoded

section Example

local instance asciiPaths : Unicode := Unicode.ascii

local instance asciiPathsNfkc : Nfkc := Nfkc.ascii

attribute [local instance] listingDigests

/-- ASCII text of some bytes. -/
local instance asciiBytes : Url.Utf8 where
  decode bytes := bytes.map (fun b => Char.ofNat b.toNat)
  decode_nil := rfl
  length_decode_le _ := (List.length_map _).le

attribute [local instance] decodedUrl

/-- A listing of one node's tasks. -/
def listingUrl : Url.Parts :=
  { scheme := "http", netloc := "main:8787", path := "/api/v1/tasks".toList,
    query := "node=x".toList }

theorem signedPath_agrees_iff_listing :
    buildSignedPath "http://main:8787/api/v1/tasks?node=x" =
      .ok (received listingUrl "GET" [] []).signedPath :=
  have hparsed : Url.parts "http://main:8787/api/v1/tasks?node=x" = .ok listingUrl := by
    decide +kernel
  ((signedPath_agrees_iff hparsed (.inl rfl) (by decide)).mpr
    ⟨by decide +kernel, by decide +kernel, .inl (by decide +kernel)⟩).1 "GET" [] []

/-- The task `a;b` of the URL is signed as the task `a`. -/
theorem task_with_semicolon_differs :
    buildSignedPath "http://main:8787/api/v1/tasks/a;b" ≠
      (Url.parts "http://main:8787/api/v1/tasks/a;b").map (fun parsed =>
        (received parsed "GET" [] []).signedPath) := by
  decide +kernel

end Example

end HermesCluster
