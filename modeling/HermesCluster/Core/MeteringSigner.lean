import HermesCluster.Core.PeerAuth
import HermesCluster.Lib.FormCodec
import HermesCluster.Lib.Table
/-!
# Signed metering requests

The signer of `core/metering.py` and the request that its client sends. The query is
written twice: canonically, for the signature, and by `urlencode`, for the URL. The two
tell the same pairs unless a value is missing: it is signed as blank and sent as `None`.
What the client makes of the response is left out.
-/

namespace HermesCluster

namespace Metering

/-! ## Queries and headers -/

/-- A value of a query. -/
inductive QueryValue where
  | text (s : String)
  | number (n : Int)
  | none
  deriving DecidableEq, Repr

namespace QueryValue

/-- `str(v)`. -/
def str : QueryValue → Except String String
  | text s => .ok s
  | number n => Decimal.str n
  | none => .ok "None"

/-- `"" if v is None else str(v)`. -/
def signed : QueryValue → Except String String
  | none => .ok ""
  | v => v.str

end QueryValue

/-- An entry of a query. -/
structure QueryItem where
  name : String
  value : QueryValue
  deriving DecidableEq, Repr

instance : HasKey QueryItem String := ⟨QueryItem.name⟩

/-- A query, as a `dict`. -/
abbrev Query : Type := Table QueryItem

/-- A header of a request. -/
structure Header where
  name : String
  value : String
  deriving DecidableEq, Repr

instance : HasKey Header String := ⟨Header.name⟩

abbrev HeaderTable : Type := Table Header

/-- A key pair, and where it is used. -/
structure ModelStudioClient where
  ak : String
  sk : String
  host : String := "modelstudio.ap-southeast-1.aliyuncs.com"
  apiVersion : String := "2026-02-10"
  hasKeys : ak ≠ "" ∧ sk ≠ ""

/-- What the client hands to `http`. -/
structure SignedRequest where
  method : String
  url : String
  headers : HeaderTable

/-! ## The signer -/

/-- `ALGORITHM`. -/
def algorithm : String := "ACS3-HMAC-SHA256"

/-- `_UNRESERVED`. -/
def unreserved : List Char :=
  "ABCDEFGHIJKLMNOPQRSTUVWXYZabcdefghijklmnopqrstuvwxyz0123456789-_.~".toList

/-- One byte of a text, encoded. -/
def percentByte (b : UInt8) : List Char :=
  let ch := Char.ofNat b.toNat
  if ch ∈ unreserved then [ch] else FormCodec.escape b

/-- `percent_encode`. -/
def percentEncode (s : String) : String :=
  String.ofList ((PeerAuth.encode s).flatMap percentByte)

/-- The order of pairs of texts. -/
def TupleLe (a b : String × String) : Prop :=
  a.1.toList < b.1.toList ∨ a.1.toList = b.1.toList ∧ a.2.toList ≤ b.2.toList

instance : DecidableRel TupleLe :=
  fun _ _ => inferInstanceAs (Decidable (_ ∨ _))

/-- The entries of a query that may be missing. -/
def queryItems (query : Option Query) : List QueryItem :=
  (query.map Table.rows).getD []

/-- The names with the texts of their values. -/
def texts (f : QueryValue → Except String String) (items : List QueryItem) :
    Except String (List (String × String)) :=
  items.mapM fun item => do
    let value ← f item.value
    pure (item.name, value)

/-- `_canonical_query`. -/
def canonicalQuery (query : Option Query) : Except String String :=
  if queryItems query = [] then .ok ""
  else do
    let pairs ← texts QueryValue.signed (queryItems query)
    let items := (pairs.map fun p => (percentEncode p.1, percentEncode p.2)).insertionSort TupleLe
    pure (Text.join "&" (items.map fun w => w.1 ++ "=" ++ w.2))

section Digests

variable [Unicode] [Sha256]

/-- `_sha256_hex`. -/
def sha256Hex (data : List UInt8) : String :=
  PeerAuth.hex (Sha256.digest data)

/-- A header is part of the canonical request. -/
def isSelected (name : String) : Bool :=
  Text.startsWith (Unicode.lower name) "x-acs-" ||
    ["host", "content-type"].contains (Unicode.lower name)

/-- The canonical headers, sorted. -/
def orderedHeaders (headers : HeaderTable) : List (String × String) :=
  let selected := headers.rows.foldl (fun (t : HeaderTable) h =>
    if isSelected h.name then t.upsert ⟨Unicode.lower h.name, Text.strip h.value⟩ else t) .empty
  (selected.rows.map fun h => (h.name, h.value)).insertionSort TupleLe

/-- `build_string_to_sign`: the string to sign, the canonical request and the names of
the signed headers. -/
def buildStringToSign (method path : String) (query : Option Query) (headers : HeaderTable)
    (body : List UInt8) : Except String (String × String × String) := do
  let ordered := orderedHeaders headers
  let canonicalHeaders := Text.join "" (ordered.map fun h => h.1 ++ ":" ++ h.2 ++ "\n")
  let signedHeaders := Text.join ";" (ordered.map Prod.fst)
  let queryText ← canonicalQuery query
  let canonicalRequest := Text.join "\n"
    [Unicode.upper method, path, queryText, canonicalHeaders, signedHeaders, sha256Hex body]
  pure (algorithm ++ "\n" ++ sha256Hex (PeerAuth.encode canonicalRequest), canonicalRequest,
    signedHeaders)

/-- `sign_string_to_sign`. -/
def signStringToSign (secret stringToSign : String) : String :=
  PeerAuth.hex (Sha256.mac (PeerAuth.encode secret) (PeerAuth.encode stringToSign))

/-- A URL with a query string. -/
def withQuery (url query : String) : String :=
  if query = "" then url else url ++ "?" ++ query

namespace ModelStudioClient

variable (c : ModelStudioClient)

/-- The URL of a path, without a query. -/
def endpoint (path : String) : String :=
  "https://" ++ c.host ++ path

/-- The headers of `call`, for the time `date` and the token `nonce`. -/
def headers (action date nonce : String) : HeaderTable :=
  [(⟨"host", c.host⟩ : Header), ⟨"x-acs-action", action⟩, ⟨"x-acs-version", c.apiVersion⟩,
    ⟨"x-acs-date", date⟩, ⟨"x-acs-signature-nonce", nonce⟩,
    ⟨"x-acs-content-sha256", sha256Hex []⟩, ⟨"accept", "application/json"⟩].foldl
    Table.upsert .empty

/-- What `call` sends. -/
def request (action path : String) (query : Option Query) (date nonce : String) :
    Except String SignedRequest := do
  let headers := c.headers action date nonce
  let (stringToSign, _, signedHeaders) ← buildStringToSign "GET" path query headers []
  let signature := signStringToSign c.sk stringToSign
  let headers := headers.upsert ⟨"authorization", algorithm ++ " Credential=" ++ c.ak ++
    ",SignedHeaders=" ++ signedHeaders ++ ",Signature=" ++ signature⟩
  let url := c.endpoint path
  if queryItems query = [] then pure ⟨"GET", url, headers⟩
  else do
    let pairs ← texts QueryValue.str (queryItems query)
    pure ⟨"GET", url ++ "?" ++ FormCodec.urlencode pairs, headers⟩

/-- Where it sends anything, the query string reads as the pairs that are signed. -/
def Agrees (action path date nonce : String) (query : Query) : Prop :=
  ∀ r, c.request action path (some query) date nonce = .ok r →
    ∃ sent pairs signedPairs, r.url = withQuery (c.endpoint path) sent ∧
      FormCodec.decode sent = some pairs ∧
      texts QueryValue.signed query.rows = .ok signedPairs ∧ pairs.Perm signedPairs

end ModelStudioClient

end Digests

/-- Only texts are asked for. -/
def OnlyTexts (query : Query) : Prop :=
  ∀ item ∈ query.rows, ∃ s, item.value = .text s

/-- The canonical query reads as the pairs that are signed, whatever their order; other
pairs of texts have another one. -/
structure Canonical (query : Query) : Prop where
  reads : ∀ signed, canonicalQuery (some query) = .ok signed → ∃ pairs signedPairs,
    FormCodec.decode signed = some pairs ∧
      texts QueryValue.signed query.rows = .ok signedPairs ∧ pairs.Perm signedPairs
  unordered : ∀ other : Query, query.rows.Perm other.rows →
    canonicalQuery (some query) = canonicalQuery (some other)
  tellsApart : ∀ other : Query, OnlyTexts query → OnlyTexts other →
    canonicalQuery (some query) = canonicalQuery (some other) → query.rows.Perm other.rows

/-! ## The pairs of a query -/

/-- A number with too many digits to be written. -/
def QueryValue.TooLong (v : QueryValue) : Prop :=
  ∃ n, v = .number n ∧ Decimal.maxStrDigits < (Nat.toDigits 10 n.natAbs).length

/-- The text of a value, where it has one. -/
def textOf (f : QueryValue → Except String String) (v : QueryValue) : String :=
  match f v with
  | .ok s => s
  | .error _ => ""

def pairsOf (f : QueryValue → Except String String) (items : List QueryItem) :
    List (String × String) :=
  items.map fun item => (item.name, textOf f item.value)

/-- Values are written, but for numbers that are too long. -/
def Writes (f : QueryValue → Except String String) : Prop :=
  ∀ v, (v.TooLong ∧ f v = .error Decimal.tooLong) ∨ (¬v.TooLong ∧ ∃ s, f v = .ok s)

theorem writes_str : Writes QueryValue.str := by
  rintro (s | n | -)
  · exact .inr ⟨fun ⟨_, h, _⟩ => (by cases h), s, rfl⟩
  · change _ ∨ ¬QueryValue.TooLong (.number n) ∧ ∃ s, Decimal.str n = .ok s
    by_cases hlong : Decimal.maxStrDigits < (Nat.toDigits 10 n.natAbs).length
    · refine .inl ⟨⟨n, rfl, hlong⟩, ?_⟩
      change Decimal.str n = _
      unfold Decimal.str
      dsimp only
      rw [String.toList_ofList, if_pos hlong]
    · refine .inr ⟨?_, ?_⟩
      · rintro ⟨_, ⟨⟩, h⟩
        exact hlong h
      · unfold Decimal.str
        dsimp only
        rw [String.toList_ofList, if_neg hlong]
        exact ⟨_, rfl⟩
  · exact .inr ⟨fun ⟨_, h, _⟩ => (by cases h), "None", rfl⟩

theorem writes_signed : Writes QueryValue.signed := by
  rintro (s | n | -)
  · exact writes_str (.text s)
  · exact writes_str (.number n)
  · exact .inr ⟨fun ⟨_, h, _⟩ => (by cases h), "", rfl⟩

variable {f : QueryValue → Except String String}

/-- A query is written unless a number is too long. -/
theorem texts_cases (hf : Writes f) (items : List QueryItem) :
    ((∃ item ∈ items, item.value.TooLong) ∧ texts f items = .error Decimal.tooLong) ∨
    ((∀ item ∈ items, ¬item.value.TooLong) ∧ texts f items = .ok (pairsOf f items)) := by
  induction items with
  | nil => exact .inr ⟨fun _ h => (by cases h), rfl⟩
  | cons item items ih =>
      have hcons : texts f (item :: items) = (do
          let value ← f item.value
          let pairs ← texts f items
          pure ((item.name, value) :: pairs)) := by
        unfold texts
        rw [List.mapM_cons]
        cases f item.value <;> rfl
      rw [hcons]
      obtain ⟨hlong, herror⟩ | ⟨hshort, s, hs⟩ := hf item.value
      · rw [herror]
        exact .inl ⟨⟨item, List.mem_cons_self, hlong⟩, rfl⟩
      · rw [hs]
        obtain ⟨⟨other, hmem, hlong⟩, herror⟩ | ⟨hall, htexts⟩ := ih
        · rw [herror]
          exact .inl ⟨⟨other, List.mem_cons_of_mem _ hmem, hlong⟩, rfl⟩
        · rw [htexts]
          refine .inr ⟨List.forall_mem_cons.mpr ⟨hshort, hall⟩, ?_⟩
          have htext : textOf f item.value = s := by
            unfold textOf
            rw [hs]
          unfold pairsOf
          rw [List.map_cons, htext]
          rfl

/-- What is sent is what is signed exactly if no value is missing. -/
theorem pairsOf_perm_iff (items : List QueryItem) :
    (pairsOf QueryValue.str items).Perm (pairsOf QueryValue.signed items) ↔
      ∀ item ∈ items, item.value ≠ .none := by
  let lengths : List (String × String) → Nat := fun ps => (ps.map fun p => p.2.length).sum
  have hlengths : lengths (pairsOf QueryValue.str items) =
      lengths (pairsOf QueryValue.signed items) +
        4 * items.countP (fun item => item.value = .none) := by
    induction items with
    | nil => rfl
    | cons item items ih =>
        have hsplit : ∀ f, lengths (pairsOf f (item :: items)) =
            (textOf f item.value).length + lengths (pairsOf f items) :=
          fun f => List.sum_cons
        rw [hsplit, hsplit, List.countP_cons, ih]
        cases hvalue : item.value with
        | none =>
            change "None".length + _ = "".length + _ + _
            have hnone : "None".length = 4 := rfl
            have hblank : "".length = 0 := rfl
            simp only [decide_true, if_true]
            omega
        | text s =>
            simp only [reduceCtorEq, decide_false]
            exact (Nat.add_assoc ..).symm
        | number n =>
            simp only [reduceCtorEq, decide_false]
            exact (Nat.add_assoc ..).symm
  constructor
  · intro hperm item hitem hnone
    have hsum : lengths (pairsOf QueryValue.str items) =
        lengths (pairsOf QueryValue.signed items) := (hperm.map _).sum_eq
    have hcount : 0 < items.countP (fun item => item.value = .none) :=
      List.countP_pos_iff.mpr ⟨item, hitem, decide_eq_true hnone⟩
    omega
  · intro hall
    refine List.Perm.of_eq (List.map_congr_left (fun item hitem => ?_))
    have hvalue := hall item hitem
    cases hcases : item.value with
    | none => exact absurd hcases hvalue
    | text s => rfl
    | number n => rfl

/-! ## The canonical query -/

theorem tupleLe_total (a b : String × String) : TupleLe a b ∨ TupleLe b a := by
  unfold TupleLe
  obtain hlt | heq | hgt := lt_trichotomy a.1.toList b.1.toList
  · exact .inl (.inl hlt)
  · obtain hle | hle := le_total a.2.toList b.2.toList
    · exact .inl (.inr ⟨heq, hle⟩)
    · exact .inr (.inr ⟨heq.symm, hle⟩)
  · exact .inr (.inl hgt)

theorem tupleLe_trans {a b c : String × String} (hab : TupleLe a b) (hbc : TupleLe b c) :
    TupleLe a c := by
  obtain hlt | ⟨heq, hle⟩ := hab
  · obtain hlt' | ⟨heq', -⟩ := hbc
    · exact .inl (hlt.trans hlt')
    · exact .inl (heq' ▸ hlt)
  · obtain hlt' | ⟨heq', hle'⟩ := hbc
    · exact .inl (heq ▸ hlt')
    · exact .inr ⟨heq.trans heq', hle.trans hle'⟩

theorem tupleLe_antisymm {a b : String × String} (hab : TupleLe a b) (hba : TupleLe b a) :
    a = b := by
  obtain hlt | ⟨heq, hle⟩ := hab
  · obtain hgt | ⟨heq, -⟩ := hba
    · exact absurd (hlt.trans hgt) (lt_irrefl _)
    · exact absurd (heq ▸ hlt) (lt_irrefl _)
  · obtain hgt | ⟨-, hge⟩ := hba
    · exact absurd (heq ▸ hgt) (lt_irrefl _)
    · exact Prod.ext (String.toList_inj.mp heq) (String.toList_inj.mp (hle.antisymm hge))

instance : Std.Total TupleLe := ⟨tupleLe_total⟩

instance : IsTrans (String × String) TupleLe := ⟨fun _ _ _ => tupleLe_trans⟩

/-- The canonical query of some pairs. -/
def canonicalText (pairs : List (String × String)) : String :=
  FormCodec.form
    ((pairs.map fun p => (percentEncode p.1, percentEncode p.2)).insertionSort TupleLe)

variable {pairs others : List (String × String)}

theorem canonicalText_perm (h : pairs.Perm others) :
    canonicalText pairs = canonicalText others := by
  refine congrArg FormCodec.form (List.Perm.eq_of_pairwise
    (fun a b _ _ hab hba => tupleLe_antisymm hab hba)
    (List.pairwise_insertionSort _ _) (List.pairwise_insertionSort _ _) ?_)
  exact ((List.perm_insertionSort _ _).trans (h.map _)).trans (List.perm_insertionSort _ _).symm

theorem safe_of_mem_unreserved {c : Char} (h : c ∈ unreserved) :
    FormCodec.isAlwaysSafe c = true := by
  have hall : unreserved.all FormCodec.isAlwaysSafe = true := by decide +kernel
  exact List.all_eq_true.mp hall c h

theorem faithful_percent : FormCodec.Faithful percentByte := by
  refine FormCodec.faithful_of_cases (fun b => ?_)
  unfold percentByte
  dsimp only
  split
  · rename_i hmem
    exact .inl ⟨_, rfl, FormCodec.plain_of_safe (safe_of_mem_unreserved hmem)⟩
  · exact .inr (.inr rfl)

theorem encoded_percentEncode (s : String) : FormCodec.Encoded (percentEncode s) s :=
  faithful_percent.encoded s

/-- The canonical query reads as the pairs, in some order. -/
theorem decode_canonicalText (pairs : List (String × String)) :
    ∃ others, FormCodec.decode (canonicalText pairs) = some others ∧ others.Perm pairs := by
  have hwritten : List.Forall₂ FormCodec.Written
      (pairs.map fun p => (percentEncode p.1, percentEncode p.2)) pairs :=
    List.forall₂_map_left_iff.mpr (List.forall₂_same.mpr
      (fun p _ => ⟨encoded_percentEncode p.1, encoded_percentEncode p.2⟩))
  obtain ⟨others, hothers, hperm⟩ :=
    List.perm_comp_forall₂ (List.perm_insertionSort TupleLe _) hwritten
  exact ⟨others, FormCodec.decode_form hothers, hperm⟩

theorem perm_of_canonicalText (h : canonicalText pairs = canonicalText others) :
    pairs.Perm others := by
  obtain ⟨ps, hps, hpairs⟩ := decode_canonicalText pairs
  obtain ⟨qs, hqs, hothers⟩ := decode_canonicalText others
  have heq : ps = qs := Option.some.inj (hps.symm.trans ((congrArg _ h).trans hqs))
  exact (hpairs.symm.trans (List.Perm.of_eq heq)).trans hothers

theorem canonicalQuery_eq (query : Query) :
    canonicalQuery (some query) =
      (texts QueryValue.signed query.rows).map canonicalText := by
  unfold canonicalQuery
  change (if query.rows = [] then _ else _) = _
  split
  · rename_i hempty
    rw [hempty]
    rfl
  · rfl

theorem canonical (query : Query) : Canonical query := by
  constructor
  case reads =>
    intro signed hsigned
    rw [canonicalQuery_eq] at hsigned
    cases htexts : texts QueryValue.signed query.rows with
    | error e => rw [htexts] at hsigned; cases hsigned
    | ok pairs =>
        rw [htexts] at hsigned
        obtain rfl := Except.ok.inj hsigned
        obtain ⟨others, hothers, hperm⟩ := decode_canonicalText pairs
        exact ⟨others, pairs, hothers, rfl, hperm⟩
  case unordered =>
    intro other hperm
    rw [canonicalQuery_eq, canonicalQuery_eq]
    obtain ⟨⟨item, hitem, hlong⟩, herror⟩ | ⟨hshort, htexts⟩ :=
      texts_cases writes_signed query.rows
    · obtain ⟨-, herror'⟩ | ⟨hshort, -⟩ := texts_cases writes_signed other.rows
      · rw [herror, herror']
      · exact absurd hlong (hshort item (hperm.mem_iff.mp hitem))
    · obtain ⟨⟨item, hitem, hlong⟩, -⟩ | ⟨-, htexts'⟩ := texts_cases writes_signed other.rows
      · exact absurd hlong (hshort item (hperm.mem_iff.mpr hitem))
      · rw [htexts, htexts']
        exact congrArg Except.ok (canonicalText_perm (hperm.map _))
  case tellsApart =>
    intro other hquery hother h
    have hrows : ∀ q : Query, OnlyTexts q →
        texts QueryValue.signed q.rows = .ok (pairsOf QueryValue.signed q.rows) ∧
        (pairsOf QueryValue.signed q.rows).map (fun p => QueryItem.mk p.1 (.text p.2)) =
          q.rows := by
      intro q hq
      refine ⟨?_, ?_⟩
      · obtain ⟨⟨item, hitem, n, hn, -⟩, -⟩ | ⟨-, htexts⟩ := texts_cases writes_signed q.rows
        · obtain ⟨s, hs⟩ := hq item hitem
          cases hn.symm.trans hs
        · exact htexts
      · unfold pairsOf
        rw [List.map_map]
        refine (List.map_congr_left (fun item hitem => ?_)).trans (List.map_id' _)
        obtain ⟨s, hs⟩ := hq item hitem
        obtain ⟨name, value⟩ := item
        obtain rfl : value = .text s := hs
        rfl
    obtain ⟨htexts, hquery⟩ := hrows query hquery
    obtain ⟨htexts', hother⟩ := hrows other hother
    rw [canonicalQuery_eq, canonicalQuery_eq, htexts, htexts'] at h
    rw [← hquery, ← hother]
    exact (perm_of_canonicalText (Except.ok.inj h)).map _

/-! ## The query that is sent -/

theorem decode_urlencode (pairs : List (String × String)) :
    FormCodec.decode (FormCodec.urlencode pairs) = some pairs :=
  FormCodec.decode_form (List.forall₂_map_left_iff.mpr (List.forall₂_same.mpr
    (fun p _ => ⟨FormCodec.encoded_quotePlus p.1, FormCodec.encoded_quotePlus p.2⟩)))

theorem urlencode_ne_empty (h : pairs ≠ []) : FormCodec.urlencode pairs ≠ "" := by
  have hfield : ∀ w, FormCodec.field w ≠ "" := by
    intro w hw
    have hlist := congrArg String.toList hw
    rw [FormCodec.toList_field] at hlist
    exact List.append_ne_nil_of_right_ne_nil _ (List.cons_ne_nil _ _) hlist
  intro hempty
  have hnil := (Text.join_eq_empty_iff (fun x hx => ?_)).mp hempty
  · exact h (List.map_eq_nil_iff.mp (List.map_eq_nil_iff.mp hnil))
  · obtain ⟨w, -, rfl⟩ := List.mem_map.mp hx
    exact hfield w

theorem toList_withQuery (url query : String) : (withQuery url query).toList =
    url.toList ++ (if query = "" then [] else '?' :: query.toList) := by
  unfold withQuery
  split
  · exact (List.append_nil _).symm
  · rw [String.toList_append, String.toList_append, List.append_assoc]
    rfl

theorem withQuery_inj {url a b : String} (h : withQuery url a = withQuery url b) : a = b := by
  have hlists := congrArg String.toList h
  rw [toList_withQuery, toList_withQuery, List.append_cancel_left_eq] at hlists
  split at hlists <;> split at hlists
  · rename_i ha hb
    exact ha.trans hb.symm
  · cases hlists
  · cases hlists
  · exact String.toList_inj.mp (List.cons.inj hlists).2

/-- The query string is put behind the URL. -/
theorem send_eq {query : Query}
    (h : texts QueryValue.str query.rows = .ok pairs) (url : String) (headers : HeaderTable) :
    (if queryItems (some query) = [] then pure ⟨"GET", url, headers⟩
      else do
        let pairs ← texts QueryValue.str (queryItems (some query))
        pure ⟨"GET", url ++ "?" ++ FormCodec.urlencode pairs, headers⟩) =
      (Except.ok ⟨"GET", withQuery url (FormCodec.urlencode pairs), headers⟩ :
        Except String SignedRequest) := by
  change (if query.rows = [] then _ else Except.bind (texts QueryValue.str query.rows) _) = _
  rw [h]
  split
  · rename_i hempty
    rw [hempty] at h
    obtain rfl : [] = pairs := Except.ok.inj h
    rfl
  · rename_i hsome
    obtain ⟨-, herror⟩ | ⟨-, hok⟩ := texts_cases writes_str query.rows
    · cases h.symm.trans herror
    · obtain rfl := Except.ok.inj (h.symm.trans hok)
      have hpairs : pairsOf QueryValue.str query.rows ≠ [] :=
        fun hnil => hsome (List.map_eq_nil_iff.mp hnil)
      have hquery : withQuery url (FormCodec.urlencode (pairsOf QueryValue.str query.rows)) =
          url ++ "?" ++ FormCodec.urlencode (pairsOf QueryValue.str query.rows) :=
        if_neg (urlencode_ne_empty hpairs)
      rw [hquery]
      rfl

section Sent

variable [Unicode] [Sha256] (c : ModelStudioClient)

theorem request_cases (action path date nonce : String) (query : Query) :
    ((∃ item ∈ query.rows, item.value.TooLong) ∧
      c.request action path (some query) date nonce = .error Decimal.tooLong) ∨
    ((∀ item ∈ query.rows, ¬item.value.TooLong) ∧
      ∃ r, c.request action path (some query) date nonce = .ok r ∧
        r.url = withQuery (c.endpoint path)
          (FormCodec.urlencode (pairsOf QueryValue.str query.rows))) := by
  unfold ModelStudioClient.request buildStringToSign
  rw [canonicalQuery_eq]
  obtain ⟨hlong, herror⟩ | ⟨hshort, htexts⟩ := texts_cases writes_signed query.rows
  · rw [herror]
    exact .inl ⟨hlong, rfl⟩
  · rw [htexts]
    refine .inr ⟨hshort, ?_⟩
    obtain ⟨⟨item, hitem, hlong⟩, -⟩ | ⟨-, hsent⟩ := texts_cases writes_str query.rows
    · exact absurd hlong (hshort item hitem)
    · exact ⟨_, send_eq hsent (c.endpoint path) _, rfl⟩

theorem agrees_iff (action path date nonce : String) (query : Query) :
    c.Agrees action path date nonce query ↔
      (∀ item ∈ query.rows, item.value ≠ .none) ∨ ∃ item ∈ query.rows, item.value.TooLong := by
  obtain ⟨hlong, herror⟩ | ⟨hshort, r, hr, hurl⟩ := request_cases c action path date nonce query
  · refine iff_of_true (fun r hr => ?_) (.inr hlong)
    rw [herror] at hr
    cases hr
  · obtain ⟨⟨item, hitem, hlong⟩, -⟩ | ⟨-, htexts⟩ := texts_cases writes_signed query.rows
    · exact absurd hlong (hshort item hitem)
    rw [← pairsOf_perm_iff, or_iff_left (fun ⟨item, hitem, hlong⟩ => hshort item hitem hlong)]
    constructor
    · intro h
      obtain ⟨sent, pairs, signedPairs, hsent, hpairs, hsigned, hperm⟩ := h r hr
      obtain rfl := withQuery_inj (hurl.symm.trans hsent)
      rw [decode_urlencode] at hpairs
      rw [htexts] at hsigned
      obtain rfl := Option.some.inj hpairs
      obtain rfl := Except.ok.inj hsigned
      exact hperm
    · intro hperm r' hr'
      obtain rfl := Except.ok.inj (hr.symm.trans hr')
      exact ⟨_, _, _, hurl, decode_urlencode _, htexts, hperm⟩

/-- The signer and the wire agree exactly if no value of the query is missing, or if a
number is too long for anything to be sent. -/
theorem signer_wire_agree_iff (action path date nonce : String) (query : Query) :
    (c.Agrees action path date nonce query ∧ Canonical query) ↔
      (∀ item ∈ query.rows, item.value ≠ .none) ∨ ∃ item ∈ query.rows, item.value.TooLong :=
  (and_iff_left (canonical query)).trans (agrees_iff c action path date nonce query)

end Sent

section Missing

local instance asciiSigns : Unicode := Unicode.ascii
local instance noDigests : Sha256 := ⟨fun _ => [], fun _ _ => [0], fun _ _ => List.cons_ne_nil _ _⟩

/-- A client with some key pair. -/
def someClient : ModelStudioClient where
  ak := "ak"
  sk := "sk"
  hasKeys := by decide

/-- A missing value is signed as blank and sent as `None`. -/
theorem missing_value_is_sent :
    ¬someClient.Agrees "GetSubscriptionStats" "/tokenplan/subscription/stats"
      "2026-09-14T00:00:00Z" "00" (Table.single ⟨"seat", .none⟩) := by
  rw [agrees_iff]
  rintro (hall | ⟨item, hitem, n, hn, -⟩)
  · exact hall ⟨"seat", .none⟩ List.mem_cons_self rfl
  · obtain rfl := List.mem_singleton.mp hitem
    cases hn

end Missing

end Metering

end HermesCluster
