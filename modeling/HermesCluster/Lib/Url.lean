import Mathlib.Data.List.TakeWhile
import HermesCluster.Lib.Text
/-!
# URLs

`urllib.parse.urlsplit`, the `hostname` and the `port` of its result, and what it
takes from `ipaddress`; path and query, and the percent escapes of a path. The
fragment is left out. A `ValueError` is an `Except.error` with its text.
-/

/-- `unicodedata.normalize("NFKC", s)`, a table like those of `Unicode`. -/
class Nfkc where
  normalize : String → String

namespace Nfkc

/-- The table on ASCII text. -/
abbrev ascii : Nfkc where
  normalize s := s

end Nfkc

namespace Url

/-! ## IP addresses -/

def isDigit (c : Char) : Bool :=
  '0' ≤ c && c ≤ '9'

def isAlpha (c : Char) : Bool :=
  ('a' ≤ c && c ≤ 'z') || ('A' ≤ c && c ≤ 'Z')

def isHexDigit (c : Char) : Bool :=
  isDigit c || ('a' ≤ c && c ≤ 'f') || ('A' ≤ c && c ≤ 'F')

/-- The number that ASCII digits write. -/
def decimalValue (digits : List Char) : Nat :=
  digits.foldl (fun n c => 10 * n + (c.toNat - '0'.toNat)) 0

/-- One octet of a dotted quad: no leading zero, at most 255. -/
def isOctet (cs : List Char) : Bool :=
  cs ≠ [] && cs.all isDigit && cs.length ≤ 3 && (cs = ['0'] || cs.head? ≠ some '0') &&
    decimalValue cs ≤ 255

/-- `IPv4Address` accepts the text. -/
def isIPv4 (cs : List Char) : Bool :=
  let octets := cs.splitOn '.'
  octets.length = 4 && octets.all isOctet

def isHextet (cs : List Char) : Bool :=
  cs ≠ [] && cs.length ≤ 4 && cs.all isHexDigit

/-- The parts between the colons; a dotted quad at the end stands for two. -/
def hextets (cs : List Char) : Option (List (List Char)) :=
  let parts := cs.splitOn ':'
  match parts.getLast? with
  | some last =>
      if '.' ∈ last then
        if isIPv4 last then some (parts.dropLast ++ [['0'], ['0']]) else none
      else some parts
  | none => none

/-- One side of the `::`; an address may begin or end with it. -/
def besideGap (parts : List (List Char)) : List (List Char) :=
  if parts = [[]] then [] else parts

/-- Eight hextets, or fewer around one `::`. -/
def isHextets (parts : List (List Char)) : Bool :=
  match (parts.drop 1).dropLast.findIdx? (fun part => part = []) with
  | some i =>
      let written := besideGap (parts.take (i + 1)) ++ besideGap (parts.drop (i + 2))
      written.length ≤ 7 && written.all isHextet
  | none => parts.length = 8 && parts.all isHextet

/-- `IPv6Address` accepts the text: an address, perhaps with a zone. -/
def isIPv6 (cs : List Char) : Bool :=
  let address := cs.takeWhile (fun c => c ≠ '%')
  let zone := (cs.dropWhile (fun c => c ≠ '%')).drop 1
  (!cs.contains '%' || (zone ≠ [] && !zone.contains '%')) && !cs.contains '/' &&
    match hextets address with
    | some parts => 3 ≤ (address.splitOn ':').length && isHextets parts
    | none => false

/-! ## Splitting -/

/-- What `urlsplit` finds out about the destination. -/
structure SplitResult where
  scheme : String
  netloc : String
  deriving DecidableEq, Repr

/-- `_check_bracketed_host`: an IPv6 address, or a later version spelled out. -/
def isBracketedHost (host : List Char) : Bool :=
  match host with
  | 'v' :: future =>
      let version := future.takeWhile isHexDigit
      match future.dropWhile isHexDigit with
      | '.' :: address => version ≠ [] && address ≠ [] && !address.contains '\n'
      | _ => false
  | _ => isIPv6 host

/-- `_check_bracketed_netloc`. -/
def checkBracketedNetloc (netloc : String) : Except String Unit :=
  let hostAndPort := Text.lastSegment '@' netloc
  let (before, bracketed) := Text.partition '[' hostAndPort
  let (host, port) :=
    if hostAndPort.toList.contains '[' then Text.partition ']' bracketed
    else Text.partition ':' hostAndPort
  if hostAndPort.toList.contains '[' ∧
      (before ≠ "" ∨ (port ≠ "" ∧ Text.startsWith port ":" = false)) then
    .error "Invalid IPv6 URL"
  else if isBracketedHost host.toList then .ok ()
  else .error (host ++ " does not appear to be an IPv6 address")

/-- `_checknetloc`: no character decomposes into one that delimits. -/
def checkNetloc [Nfkc] (netloc : String) : Except String Unit :=
  let kept := String.ofList (netloc.toList.filter (fun c => !List.contains ['@', ':', '#', '?'] c))
  let normalized := Nfkc.normalize kept
  if netloc.toList.all (fun c => c.toNat < 128) ∨ normalized = kept then .ok ()
  else if ['/', '?', '#', '@', ':'].any (fun c => normalized.toList.contains c) then
    .error ("netloc '" ++ netloc ++ "' contains invalid characters under NFKC normalization")
  else .ok ()

/-- The text a URL is read from: no leading blanks, no tabs or newlines. -/
def cleaned (url : String) : List Char :=
  (url.toList.dropWhile (fun c => c ≤ ' ')).filter (fun c => !List.contains ['\t', '\r', '\n'] c)

def isSchemeChar (c : Char) : Bool :=
  isAlpha c || isDigit c || ['+', '-', '.'].contains c

/-- The scheme of a URL and what follows it. -/
def splitScheme (cs : List Char) : String × List Char :=
  let name := cs.takeWhile (fun c => c ≠ ':')
  if cs.contains ':' ∧ name.head?.any isAlpha = true ∧ name.all isSchemeChar = true then
    (String.ofList (name.map Unicode.asciiLowerChar), (cs.dropWhile (fun c => c ≠ ':')).drop 1)
  else ("", cs)

/-- `_splitnetloc`, where there is one. -/
def splitNetloc (rest : List Char) : String :=
  match rest with
  | '/' :: '/' :: rest =>
      String.ofList (rest.takeWhile (fun c => !List.contains ['/', '?', '#'] c))
  | _ => ""

/-- `urlsplit`. -/
def urlsplit [Nfkc] (url : String) : Except String SplitResult := do
  let (scheme, rest) := splitScheme (cleaned url)
  let netloc := splitNetloc rest
  if netloc.toList.contains '[' ≠ netloc.toList.contains ']' then
    .error "Invalid IPv6 URL"
  else if netloc.toList.contains '[' then
    checkBracketedNetloc netloc
  checkNetloc netloc
  .ok ⟨scheme, netloc⟩

namespace SplitResult

/-- `_hostinfo`: the host and the text of the port. -/
def hostinfo (r : SplitResult) : String × String :=
  let info := Text.lastSegment '@' r.netloc
  if info.toList.contains '[' then
    let (host, rest) := Text.partition ']' (Text.partition '[' info).2
    (host, (Text.partition ':' rest).2)
  else Text.partition ':' info

/-- `hostname`: in lower case, but for the zone. -/
def hostname [Unicode] (r : SplitResult) : Option String :=
  let host := r.hostinfo.1
  if host = "" then none
  else
    let (name, zone) := Text.partition '%' host
    some (Unicode.lower name ++ (if host.toList.contains '%' then "%" else "") ++ zone)

/-- `port`: a number up to 65535, or it raises. -/
def port (r : SplitResult) : Except String (Option Nat) :=
  let digits := r.hostinfo.2.toList
  if digits = [] then .ok none
  else if digits.all isDigit = false then
    .error ("Port could not be cast to integer value as '" ++ r.hostinfo.2 ++ "'")
  else if 65535 < decimalValue digits then .error "Port out of range 0-65535"
  else .ok (some (decimalValue digits))

end SplitResult

/-! ## Path and query -/

/-- What follows the destination. -/
def splitPath (rest : List Char) : List Char :=
  match rest with
  | '/' :: '/' :: rest => rest.dropWhile (fun c => !List.contains ['/', '?', '#'] c)
  | rest => rest

/-- A URL in its parts. -/
structure Parts where
  scheme : String
  netloc : String
  path : List Char
  query : List Char
  deriving DecidableEq, Repr

/-- `urlsplit`, with the path and the query. -/
def parts [Nfkc] (url : String) : Except String Parts := do
  let split ← urlsplit url
  let text := (splitPath (splitScheme (cleaned url)).2).takeWhile (fun c => c ≠ '#')
  pure { scheme := split.scheme, netloc := split.netloc,
         path := text.takeWhile (fun c => c ≠ '?'),
         query := (text.dropWhile (fun c => c ≠ '?')).drop 1 }

theorem netloc_of_urlsplit [Nfkc] {url : String} {r : SplitResult} (h : urlsplit url = .ok r) :
    r.netloc = splitNetloc (splitScheme (cleaned url)).2 := by
  have hchecked : ∀ {check : Except String Unit} {split : SplitResult},
      (check >>= fun _ => .ok split) = Except.ok r → split = r := by
    intro check split heq
    cases check with
    | error e => cases heq
    | ok _ => exact Except.ok.inj heq
  unfold urlsplit at h
  dsimp only at h
  split at h
  · cases h
  · split at h
    · cases hhost : checkBracketedNetloc (splitNetloc (splitScheme (cleaned url)).2) with
      | error e =>
          rw [hhost] at h
          cases h
      | ok _ =>
          rw [hhost] at h
          exact congrArg SplitResult.netloc (hchecked h).symm
    · exact congrArg SplitResult.netloc (hchecked h).symm

theorem path_of_destination (rest : List Char) :
    let text := (rest.dropWhile (fun c => !List.contains ['/', '?', '#'] c)).takeWhile
      (fun c => c ≠ '#')
    text.takeWhile (fun c => c ≠ '?') = [] ∨
      ∃ path, text.takeWhile (fun c => c ≠ '?') = '/' :: path := by
  have hhead := List.head?_dropWhile_not (fun c => !List.contains ['/', '?', '#'] c) rest
  match hdrop : rest.dropWhile (fun c => !List.contains ['/', '?', '#'] c) with
  | [] => exact .inl rfl
  | c :: cs =>
      rw [hdrop, List.head?_cons] at hhead
      have hmark : c = '/' ∨ c = '?' ∨ c = '#' := by
        simpa [or_iff_not_imp_left] using hhead
      rcases hmark with rfl | rfl | rfl
      · exact .inr ⟨_, by rw [List.takeWhile_cons_of_pos (by decide),
          List.takeWhile_cons_of_pos (by decide)]⟩
      · exact .inl (by rw [List.takeWhile_cons_of_pos (by decide),
          List.takeWhile_cons_of_neg (by decide)])
      · exact .inl (by rw [List.takeWhile_cons_of_neg (by decide), List.takeWhile_nil])

/-- Nothing in the text ends a path, and nothing is dropped from it. -/
def Unmarked (text : List Char) : Prop :=
  ∀ c ∈ text, c ∉ ['\t', '\r', '\n', '?', '#']

theorem mem_of_mem_splitPath {c : Char} {rest : List Char} (h : c ∈ splitPath rest) :
    c ∈ rest := by
  unfold splitPath at h
  split at h
  · exact List.mem_cons_of_mem _ (List.mem_cons_of_mem _ ((List.dropWhile_sublist _).mem h))
  · exact h

theorem mem_of_mem_splitScheme {c : Char} {cs : List Char} (h : c ∈ (splitScheme cs).2) :
    c ∈ cs := by
  unfold splitScheme at h
  dsimp only at h
  split at h
  · exact (List.dropWhile_sublist _).mem (List.mem_of_mem_drop h)
  · exact h

/-- A path ends before the query and the fragment, and after a destination it begins
with a slash. -/
theorem path_of_parts [Nfkc] {url : String} {p : Parts} (h : parts url = .ok p) :
    Unmarked p.path ∧ (p.netloc ≠ "" → p.path = [] ∨ ∃ rest, p.path = '/' :: rest) := by
  unfold parts at h
  cases hsplit : urlsplit url with
  | error e =>
      rw [hsplit] at h
      cases h
  | ok split =>
      rw [hsplit] at h
      cases h
      have hnetloc := netloc_of_urlsplit hsplit
      dsimp only
      refine ⟨fun c hc hmark => ?_, fun hne => ?_⟩
      · have hquery := List.mem_takeWhile_imp hc
        have hfragment := List.mem_takeWhile_imp ((List.takeWhile_sublist _).mem hc)
        have hclean := mem_of_mem_splitScheme (mem_of_mem_splitPath
          ((List.takeWhile_sublist _).mem ((List.takeWhile_sublist _).mem hc)))
        have hkept := (List.mem_filter.mp hclean).2
        simp only [List.mem_cons, List.not_mem_nil, or_false] at hmark
        rcases hmark with rfl | rfl | rfl | rfl | rfl
        · exact absurd hkept (by decide)
        · exact absurd hkept (by decide)
        · exact absurd hkept (by decide)
        · exact absurd hquery (by decide)
        · exact absurd hfragment (by decide)
      · rw [hnetloc] at hne
        generalize (splitScheme (cleaned url)).2 = rest at hne ⊢
        unfold splitNetloc at hne
        unfold splitPath
        split at hne
        · exact path_of_destination _
        · exact absurd rfl hne

/-- `uses_params`. -/
def usesParams : List String :=
  ["", "ftp", "hdl", "prospero", "http", "imap", "https", "shttp", "rtsp", "rtsps", "rtspu", "sip",
    "sips", "mms", "sftp", "tel"]

/-- The path after its last slash. -/
def lastPathSegment (path : List Char) : List Char :=
  (path.reverse.takeWhile (fun c => c ≠ '/')).reverse

/-- `_splitparams`: the path without the parameters of its last segment. -/
def withoutParams (path : List Char) : List Char :=
  (path.reverse.dropWhile (fun c => c ≠ '/')).reverse ++
    (lastPathSegment path).takeWhile (fun c => c ≠ ';')

/-- The `path` of `urlparse`. -/
def Parts.parsedPath (p : Parts) : List Char :=
  if p.scheme ∈ usesParams then withoutParams p.path else p.path

theorem segments_append (path : List Char) :
    (path.reverse.dropWhile (fun c => c ≠ '/')).reverse ++ lastPathSegment path = path := by
  unfold lastPathSegment
  rw [← List.reverse_append, List.takeWhile_append_dropWhile, List.reverse_reverse]

theorem withoutParams_eq_self {path : List Char} (h : ';' ∉ lastPathSegment path) :
    withoutParams path = path := by
  unfold withoutParams
  rw [List.takeWhile_eq_self_iff.mpr, segments_append]
  intro c hc
  exact decide_eq_true (fun heq => h (heq ▸ hc))

/-- A path with parameters loses them from their semicolon on. -/
theorem exists_params {path : List Char} (h : ';' ∈ lastPathSegment path) :
    ∃ params, path = withoutParams path ++ ';' :: params := by
  obtain ⟨before, params, hsegment, hnot⟩ := List.eq_append_cons_of_mem h
  have hcut : (lastPathSegment path).takeWhile (fun c => c ≠ ';') = before := by
    rw [hsegment, List.takeWhile_append_of_pos, List.takeWhile_cons_of_neg (by decide),
      List.append_nil]
    exact fun c hc => decide_eq_true (fun heq => hnot (heq ▸ hc))
  refine ⟨params, ?_⟩
  rw [withoutParams, hcut, List.append_assoc, ← hsegment, segments_append]

theorem mem_of_mem_withoutParams {path : List Char} {c : Char} (h : c ∈ withoutParams path) :
    c ∈ path := by
  rw [← segments_append path]
  rcases List.mem_append.mp h with hdirectory | hsegment
  · exact List.mem_append_left _ hdirectory
  · exact List.mem_append_right _ (List.takeWhile_sublist _ |>.mem hsegment)

/-- The path that `urlsplit` finds in a text that stands where the path of a URL does:
without tabs and newlines, up to the query or the fragment. -/
def pathPart (text : List Char) : List Char :=
  (text.filter (fun c => !List.contains ['\t', '\r', '\n'] c)).takeWhile
    (fun c => !List.contains ['?', '#'] c)

/-- The query that `urlsplit` finds there, the query `q` of the URL following. -/
def queryPart (text q : List Char) : List Char :=
  match (text.filter (fun c => !List.contains ['\t', '\r', '\n'] c)).dropWhile
      (fun c => !List.contains ['?', '#'] c) with
  | [] => q
  | '?' :: rest =>
      if '#' ∈ rest then rest.takeWhile (fun c => c ≠ '#')
      else if q = [] then rest
      else rest ++ '?' :: q
  | _ => []

/-- A letter, a digit or one of the marks that no URL escapes, or a slash. -/
def isUnreserved (c : Char) : Bool :=
  isAlpha c || isDigit c || ['-', '.', '_', '~', '/'].contains c

theorem length_pathPart_le (text : List Char) : (pathPart text).length ≤ text.length :=
  (List.takeWhile_sublist _).length_le.trans (List.length_filter_le _ _)

section Unmarked

variable {text : List Char}

theorem Unmarked.filter_eq (h : Unmarked text) :
    text.filter (fun c => !List.contains ['\t', '\r', '\n'] c) = text := by
  refine List.filter_eq_self.mpr (fun c hc => ?_)
  have hmark := h c hc
  simp only [List.mem_cons, not_or] at hmark
  simp [hmark]

theorem Unmarked.all_path (h : Unmarked text) :
    ∀ c ∈ text, (!List.contains ['?', '#'] c) = true := by
  intro c hc
  have hmark := h c hc
  simp only [List.mem_cons, not_or] at hmark
  simp [hmark]

theorem Unmarked.pathPart_eq (h : Unmarked text) : pathPart text = text := by
  rw [pathPart, h.filter_eq, List.takeWhile_eq_self_iff.mpr h.all_path]

theorem Unmarked.queryPart_eq (h : Unmarked text) (q : List Char) : queryPart text q = q := by
  rw [queryPart, h.filter_eq, List.dropWhile_eq_nil_iff.mpr h.all_path]

theorem unmarked_of_unreserved (h : text.all isUnreserved = true) : Unmarked text := by
  intro c hc hmark
  have hplain := List.all_eq_true.mp h c hc
  simp only [List.mem_cons, List.not_mem_nil, or_false] at hmark
  rcases hmark with rfl | rfl | rfl | rfl | rfl <;> exact absurd hplain (by decide)

end Unmarked

/-! ## Percent escapes -/

/-- UTF-8 text of some bytes, what is no UTF-8 replaced. -/
class Utf8 where
  decode : List UInt8 → List Char
  decode_nil : decode [] = []
  length_decode_le : ∀ bytes, (decode bytes).length ≤ bytes.length

def hexValue (c : Char) : Nat :=
  if isDigit c then c.toNat - '0'.toNat
  else if 'a' ≤ c then c.toNat - 'a'.toNat + 10
  else c.toNat - 'A'.toNat + 10

/-- A character is escaped somewhere. -/
def hasEscape : List Char → Bool
  | '%' :: a :: b :: cs => isHexDigit a && isHexDigit b || hasEscape (a :: b :: cs)
  | _ :: cs => hasEscape cs
  | [] => false

section Unquote

variable [Utf8]

/-- The text of a path whose last escapes are pending. -/
def unquoteFrom (pending : List UInt8) : List Char → List Char
  | '%' :: a :: b :: cs =>
      if isHexDigit a && isHexDigit b then
        unquoteFrom (pending ++ [UInt8.ofNat (16 * hexValue a + hexValue b)]) cs
      else Utf8.decode pending ++ '%' :: unquoteFrom [] (a :: b :: cs)
  | c :: cs => Utf8.decode pending ++ c :: unquoteFrom [] cs
  | [] => Utf8.decode pending

/-- `unquote`. -/
def unquote (cs : List Char) : List Char :=
  unquoteFrom [] cs

/-! ### Steps -/

/-- No escape begins with the character, for want of two more. -/
def Alone (c : Char) (cs : List Char) : Prop :=
  ∀ a b rest, c = '%' → cs = a :: b :: rest → False

variable {pending : List UInt8} {a b c : Char} {cs : List Char}

omit [Utf8] in
theorem hasEscape_percent :
    hasEscape ('%' :: a :: b :: cs) = (isHexDigit a && isHexDigit b || hasEscape (a :: b :: cs)) :=
  rfl

omit [Utf8] in
theorem hasEscape_alone (h : Alone c cs) : hasEscape (c :: cs) = hasEscape cs :=
  hasEscape.eq_2 _ _ h

theorem unquoteFrom_percent :
    unquoteFrom pending ('%' :: a :: b :: cs) =
      if isHexDigit a && isHexDigit b then
        unquoteFrom (pending ++ [UInt8.ofNat (16 * hexValue a + hexValue b)]) cs
      else Utf8.decode pending ++ '%' :: unquoteFrom [] (a :: b :: cs) := rfl

theorem unquoteFrom_alone (h : Alone c cs) :
    unquoteFrom pending (c :: cs) = Utf8.decode pending ++ c :: unquoteFrom [] cs :=
  unquoteFrom.eq_2 _ _ _ h

omit [Utf8] in
/-- Induction along the escapes of a text. -/
theorem escapes_induction {motive : List Char → Prop} (nil : motive [])
    (percent : ∀ a b cs, motive cs → motive (a :: b :: cs) → motive ('%' :: a :: b :: cs))
    (alone : ∀ c cs, Alone c cs → motive cs → motive (c :: cs)) (cs : List Char) : motive cs := by
  induction hn : cs.length using Nat.strong_induction_on generalizing cs with
  | _ n ih =>
      cases cs with
      | nil => exact nil
      | cons c rest =>
          subst hn
          by_cases hescape : ∃ a b cs, c = '%' ∧ rest = a :: b :: cs
          · obtain ⟨a, b, cs, rfl, rfl⟩ := hescape
            refine percent a b cs (ih _ ?_ cs rfl) (ih _ ?_ (a :: b :: cs) rfl)
            · simp only [List.length_cons]
              omega
            · exact Nat.lt_succ_self _
          · refine alone c rest (fun a b cs hc hcs => hescape ⟨a, b, cs, hc, hcs⟩) ?_
            exact ih _ (Nat.lt_succ_self _) rest rfl

/-! ### What is decoded -/

omit [Utf8] in
theorem hasEscape_of_unreserved (h : cs.all isUnreserved = true) : hasEscape cs = false := by
  induction cs using escapes_induction with
  | nil => rfl
  | percent a b cs _ _ =>
      rw [List.all_cons, Bool.and_eq_true] at h
      exact absurd h.1 (by decide)
  | alone c cs halone ih =>
      rw [List.all_cons, Bool.and_eq_true] at h
      rw [hasEscape_alone halone]
      exact ih h.2

theorem unquote_of_plain (h : hasEscape cs = false) : unquote cs = cs := by
  unfold unquote
  induction cs using escapes_induction with
  | nil => exact Utf8.decode_nil
  | percent a b cs _ ih =>
      rw [hasEscape_percent, Bool.or_eq_false_iff] at h
      rw [unquoteFrom_percent, if_neg (by rw [h.1]; decide), Utf8.decode_nil, ih h.2]
      rfl
  | alone c cs halone ih =>
      rw [hasEscape_alone halone] at h
      rw [unquoteFrom_alone halone, Utf8.decode_nil, ih h]
      rfl

/-- Escapes make a path longer than its text. -/
theorem length_unquoteFrom (pending : List UInt8) (cs : List Char) :
    (unquoteFrom pending cs).length ≤ pending.length + cs.length ∧
      (hasEscape cs = true → (unquoteFrom pending cs).length < pending.length + cs.length) := by
  have hdecode := Utf8.length_decode_le pending
  induction cs using escapes_induction generalizing pending with
  | nil => exact ⟨hdecode, fun hescape => by cases hescape⟩
  | percent a b cs ih ih' =>
      rw [unquoteFrom_percent]
      split
      · have hrest := (ih _ (Utf8.length_decode_le
          (pending ++ [UInt8.ofNat (16 * hexValue a + hexValue b)]))).1
        rw [List.length_append] at hrest
        simp only [List.length_cons, List.length_nil] at hrest ⊢
        exact ⟨by omega, fun _ => by omega⟩
      · rename_i hhex
        have hrest := ih' [] (Utf8.length_decode_le [])
        rw [hasEscape_percent, List.length_append]
        simp only [List.length_cons, List.length_nil] at hrest ⊢
        refine ⟨by omega, fun hescape => ?_⟩
        rw [Bool.eq_false_iff.mpr hhex, Bool.false_or] at hescape
        have := hrest.2 hescape
        omega
  | alone c cs halone ih =>
      have hrest := ih [] (Utf8.length_decode_le [])
      rw [unquoteFrom_alone halone, hasEscape_alone halone, List.length_append]
      simp only [List.length_cons, List.length_nil] at hrest ⊢
      refine ⟨by omega, fun hescape => ?_⟩
      have := hrest.2 hescape
      omega

/-- Semicolons stay. -/
theorem count_unquoteFrom (pending : List UInt8) (cs : List Char) :
    cs.count ';' ≤ (unquoteFrom pending cs).count ';' := by
  induction cs using escapes_induction generalizing pending with
  | nil => exact Nat.zero_le _
  | percent a b cs ih ih' =>
      have hpercent : ∀ l : List Char, ('%' :: l).count ';' = l.count ';' :=
        fun l => List.count_cons_of_ne (by decide)
      rw [unquoteFrom_percent, hpercent]
      split
      · rename_i hhex
        have hne : ∀ {c : Char}, isHexDigit c = true → c ≠ ';' := by
          rintro c hc rfl
          exact absurd hc (by decide)
        rw [Bool.and_eq_true] at hhex
        rw [List.count_cons_of_ne (hne hhex.1), List.count_cons_of_ne (hne hhex.2)]
        exact ih _
      · rw [List.count_append, hpercent]
        exact (ih' []).trans (Nat.le_add_left _ _)
  | alone c cs halone ih =>
      rw [unquoteFrom_alone halone, List.count_append, List.count_cons, List.count_cons]
      have := ih []
      omega

/-- A character that begins no escape is decoded by itself. -/
theorem unquoteFrom_cons
    (h : ∀ a b rest, c = '%' → cs = a :: b :: rest → (isHexDigit a && isHexDigit b) = false) :
    unquoteFrom pending (c :: cs) = Utf8.decode pending ++ c :: unquoteFrom [] cs := by
  by_cases hescape : ∃ a b rest, c = '%' ∧ cs = a :: b :: rest
  · obtain ⟨a, b, rest, rfl, rfl⟩ := hescape
    rw [unquoteFrom_percent, h a b rest rfl rfl, if_neg Bool.false_ne_true]
  · exact unquoteFrom_alone (fun a b rest hc hcs => hescape ⟨a, b, rest, hc, hcs⟩)

/-- No escape reaches over a semicolon. -/
theorem unquoteFrom_append (pending : List UInt8) (cs params : List Char) :
    unquoteFrom pending (cs ++ ';' :: params) =
      unquoteFrom pending cs ++ ';' :: unquoteFrom [] params := by
  induction cs using escapes_induction generalizing pending with
  | nil => exact unquoteFrom_cons (fun _ _ _ hsemicolon => absurd hsemicolon (by decide))
  | percent a b cs ih ih' =>
      rw [List.cons_append, List.cons_append, List.cons_append, unquoteFrom_percent,
        unquoteFrom_percent]
      split
      · exact ih _
      · rw [List.append_assoc, List.cons_append]
        exact congrArg (fun l => Utf8.decode pending ++ '%' :: l) (ih' [])
  | alone c cs halone ih =>
      rw [List.cons_append, unquoteFrom_cons, unquoteFrom_alone halone, ih, List.append_assoc,
        List.cons_append]
      rintro a b rest rfl hcs
      match cs, hcs with
      | [], hcs =>
          obtain ⟨rfl, -⟩ := List.cons.inj hcs
          rfl
      | [_], hcs =>
          obtain ⟨-, hcs⟩ := List.cons.inj hcs
          obtain ⟨rfl, -⟩ := List.cons.inj hcs
          exact Bool.and_false _
      | x :: y :: cs, _ => exact (halone x y cs rfl rfl).elim

theorem unquote_append (cs params : List Char) :
    unquote (cs ++ ';' :: params) = unquote cs ++ ';' :: unquote params :=
  unquoteFrom_append [] cs params

/-- What is escaped gets shorter. -/
theorem length_unquote_lt {cs : List Char} (h : hasEscape cs = true) :
    (unquote cs).length < cs.length := by
  have hlt := (length_unquoteFrom [] cs).2 h
  rwa [List.length_nil, Nat.zero_add] at hlt

theorem unquote_withoutParams_ne {path : List Char} (h : ';' ∈ lastPathSegment path) :
    unquote (withoutParams path) ≠ unquote path := by
  obtain ⟨params, hpath⟩ := exists_params h
  intro heq
  have hlength := congrArg List.length (heq.trans (congrArg unquote hpath))
  rw [unquote_append, List.length_append, List.length_cons] at hlength
  omega

theorem length_filter_unquote_le (cs : List Char) :
    ((unquote cs).filter (fun c => !List.contains ['\t', '\r', '\n'] c)).length ≤ cs.length := by
  have hdecode := (length_unquoteFrom [] cs).1
  rw [List.length_nil, Nat.zero_add] at hdecode
  exact (List.length_filter_le _ _).trans hdecode

theorem count_filter_unquote (cs : List Char) :
    cs.count ';' ≤
      ((unquote cs).filter (fun c => !List.contains ['\t', '\r', '\n'] c)).count ';' := by
  rw [List.count_filter (by decide)]
  exact count_unquoteFrom [] cs

/-- No part of a path is read as the path without its parameters, decoded or not. -/
theorem pathPart_unquote_ne {path : List Char} (h : ';' ∈ lastPathSegment path) :
    pathPart (unquote path) ≠ withoutParams path := by
  obtain ⟨params, hpath⟩ := exists_params h
  have hdecoded := (congrArg unquote hpath).trans (unquote_append _ _)
  intro heq
  rw [hdecoded, pathPart, List.filter_append, List.filter_cons_of_pos (by decide)] at heq
  have hlength := length_filter_unquote_le (withoutParams path)
  have hcount := count_filter_unquote (withoutParams path)
  generalize (unquote (withoutParams path)).filter _ = text at heq hlength hcount
  by_cases hmark : ∀ c ∈ text, (!List.contains ['?', '#'] c) = true
  · -- the semicolon is read, which the path without its parameters does not have
    rw [List.takeWhile_append_of_pos hmark, List.takeWhile_cons_of_pos (by decide)] at heq
    rw [← heq, List.count_append, List.count_cons_self] at hcount
    omega
  · -- the path ends before a mark that stood there escaped
    have hcut : (text.takeWhile (fun c => !List.contains ['?', '#'] c)).length ≠ text.length :=
      fun hall => hmark (List.takeWhile_eq_self_iff.mp
        ((List.takeWhile_prefix _).eq_of_length hall))
    have hle := (List.takeWhile_prefix (l := text) (fun c => !List.contains ['?', '#'] c)).length_le
    rw [List.takeWhile_append, if_neg hcut] at heq
    rw [heq] at hcut hle
    omega

end Unquote

end Url
