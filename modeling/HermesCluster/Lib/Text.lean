import Mathlib.Data.Char
import Mathlib.Data.List.DropRight
import Mathlib.Data.List.Infix
import Mathlib.Data.List.Lex
import Mathlib.Data.List.Sort
import Mathlib.Data.Rat.Floor
/-!
# Text

The `str` operations of Python that the model needs, as functions of the list
of code points. What depends on the Unicode tables is a parameter, the class
`Unicode`; `Unicode.ascii` is its restriction to ASCII text.
-/

/-- The Unicode data behind `str.isalnum`, `str.isspace`, `str.isprintable`,
`unicodedata.decimal`, `str.lower` and `str.upper`. -/
class Unicode where
  isAlnum : Char → Bool
  isSpace : Char → Bool
  isPrintable : Char → Bool
  decimal : Char → Option Nat
  lower : String → String
  upper : String → String

namespace Unicode

def asciiIsSpace (c : Char) : Bool :=
  c = ' ' || ('\t' ≤ c && c ≤ '\r') || ('\x1c' ≤ c && c ≤ '\x1f')

def asciiLowerChar (c : Char) : Char :=
  if 'A' ≤ c ∧ c ≤ 'Z' then Char.ofNat (c.toNat + 32) else c

def asciiUpperChar (c : Char) : Char :=
  if 'a' ≤ c ∧ c ≤ 'z' then Char.ofNat (c.toNat - 32) else c

/-- The tables on ASCII text. -/
abbrev ascii : Unicode where
  isAlnum c := ('0' ≤ c && c ≤ '9') || ('a' ≤ c && c ≤ 'z') || ('A' ≤ c && c ≤ 'Z')
  isSpace := asciiIsSpace
  isPrintable c := ' ' ≤ c && c ≤ '~'
  decimal c := if '0' ≤ c ∧ c ≤ '9' then some (c.toNat - '0'.toNat) else none
  lower s := String.ofList (s.toList.map asciiLowerChar)
  upper s := String.ofList (s.toList.map asciiUpperChar)

variable [Unicode]

/-- `\d` of a Unicode pattern. -/
def isDecimal (c : Char) : Bool :=
  (decimal c).isSome

/-- `\w` of a Unicode pattern. -/
def isWord (c : Char) : Bool :=
  isAlnum c || c = '_'

end Unicode

namespace Text

/-- `s.startswith(p)`. -/
def startsWith (s p : String) : Bool :=
  p.toList.isPrefixOf s.toList

/-- `p in s`. -/
def contains (s p : String) : Bool :=
  s.toList.tails.any (fun t => p.toList.isPrefixOf t)

theorem contains_iff {s p : String} : contains s p = true ↔ p.toList <:+: s.toList := by
  unfold contains
  rw [List.any_eq_true]
  constructor
  · rintro ⟨t, ht, hp⟩
    exact (List.isPrefixOf_iff_prefix.mp hp).isInfix.trans ((List.mem_tails _ _).mp ht).isInfix
  · intro h
    obtain ⟨t, hprefix, hsuffix⟩ := List.infix_iff_prefix_suffix.mp h
    exact ⟨t, (List.mem_tails _ _).mpr hsuffix, List.isPrefixOf_iff_prefix.mpr hprefix⟩

/-- `s[n:]`. -/
def drop (n : Nat) (s : String) : String :=
  String.ofList (s.toList.drop n)

/-- `s[:n]`. -/
def take (n : Nat) (s : String) : String :=
  String.ofList (s.toList.take n)

/-- `s.removeprefix(p)`. -/
def removePrefix (p s : String) : String :=
  if startsWith s p then drop p.toList.length s else s

def rstripList (p : Char → Bool) (cs : List Char) : List Char :=
  (cs.reverse.dropWhile p).reverse

/-- `s.rstrip(c)` for one character. -/
def rstripChar (c : Char) (s : String) : String :=
  String.ofList (rstripList (fun d => d = c) s.toList)

/-- `s.split(c)[-1]`. -/
def lastSegment (c : Char) (s : String) : String :=
  String.ofList ((s.toList.reverse.takeWhile (fun d => d ≠ c)).reverse)

/-- `s.rsplit(c, 1)[0]`. -/
def beforeLast (c : Char) (s : String) : String :=
  if c ∈ s.toList then
    String.ofList ((s.toList.reverse.dropWhile (fun d => d ≠ c)).drop 1).reverse
  else s

/-- The parts of `s.partition(c)` around the first `c`. -/
def partition (c : Char) (s : String) : String × String :=
  (String.ofList (s.toList.takeWhile (fun d => d ≠ c)),
    String.ofList ((s.toList.dropWhile (fun d => d ≠ c)).drop 1))

/-- `s.replace(a, b)` for single characters. -/
def replaceChar (a b : Char) (s : String) : String :=
  String.ofList (s.toList.map (fun c => if c = a then b else c))

/-- `sep.join(xs)`. -/
def join (sep : String) : List String → String
  | [] => ""
  | [x] => x
  | x :: y :: xs => x ++ sep ++ join sep (y :: xs)

theorem append_ne_empty {s t : String} (h : s ≠ "") : s ++ t ≠ "" := by
  intro hempty
  rw [← String.toList_inj, String.toList_append] at hempty
  exact h (String.toList_inj.mp (List.append_eq_nil_iff.mp hempty).1)

/-- A joined text is empty only if there was nothing to join. -/
theorem join_eq_empty_iff {sep : String} {xs : List String} (h : ∀ x ∈ xs, x ≠ "") :
    join sep xs = "" ↔ xs = [] := by
  refine ⟨fun hjoin => ?_, fun hnil => hnil ▸ rfl⟩
  match xs with
  | [] => rfl
  | [x] => exact absurd hjoin (h x List.mem_cons_self)
  | x :: y :: xs =>
      have hx : x ≠ "" := h x List.mem_cons_self
      exact absurd hjoin (append_ne_empty (append_ne_empty hx))

/-- The nearest integer; of two equally near ones the even one. -/
def roundHalfEven (q : Rat) : Int :=
  let below := q.floor
  let rest := q - below
  if rest < 1 / 2 then below
  else if 1 / 2 < rest then below + 1
  else if below % 2 = 0 then below
  else below + 1

/-- `f"{q:.{digits}f}"`. -/
def fixed (digits : Nat) (q : Rat) : String :=
  let scaled := (roundHalfEven ((if q < 0 then -q else q) * 10 ^ digits)).toNat
  let fraction := toString (scaled % 10 ^ digits)
  let zeros := String.ofList (List.replicate (digits - fraction.length) '0')
  let sign := if q < 0 then "-" else ""
  let whole := sign ++ toString (scaled / 10 ^ digits)
  if digits = 0 then whole else whole ++ "." ++ zeros ++ fraction

/-- `sorted(set(xs))`. -/
def sortedSet (xs : List String) : List String :=
  (xs.dedup).insertionSort (fun a b => a.toList ≤ b.toList)

/-- The boundaries of `str.splitlines`, besides `\r\n`. -/
def isLineBreak (c : Char) : Bool :=
  ('\n' ≤ c && c ≤ '\r') || ('\x1c' ≤ c && c ≤ '\x1e') || c = '\u0085' ||
    c = '\u2028' || c = '\u2029'

/-- `str.splitlines`, with the current line (reversed) as accumulator. -/
def splitlinesAux : List Char → List Char → List String
  | acc, [] => if acc.isEmpty then [] else [String.ofList acc.reverse]
  | acc, '\r' :: '\n' :: cs => String.ofList acc.reverse :: splitlinesAux [] cs
  | acc, c :: cs =>
      if isLineBreak c then String.ofList acc.reverse :: splitlinesAux [] cs
      else splitlinesAux (c :: acc) cs

def splitlines (s : String) : List String :=
  splitlinesAux [] s.toList

variable [Unicode]

/-- `s.strip()`. -/
def strip (s : String) : String :=
  String.ofList (rstripList Unicode.isSpace (s.toList.dropWhile Unicode.isSpace))

theorem strip_strip (s : String) : strip (strip s) = strip s := by
  let p : Char → Bool := Unicode.isSpace
  have hhead : (rstripList p (s.toList.dropWhile p)).dropWhile p =
      rstripList p (s.toList.dropWhile p) := by
    rw [List.dropWhile_eq_self_iff]
    intro hlength
    have hstarts : rstripList p (s.toList.dropWhile p) <+: s.toList.dropWhile p :=
      List.rdropWhile_prefix p _
    rw [hstarts.getElem hlength]
    exact List.dropWhile_get_zero_not p s.toList (hlength.trans_le hstarts.length_le)
  have hend : rstripList p (rstripList p (s.toList.dropWhile p)) =
      rstripList p (s.toList.dropWhile p) :=
    List.rdropWhile_idempotent p _
  unfold strip
  rw [String.toList_ofList]
  exact congrArg String.ofList ((congrArg (rstripList p) hhead).trans hend)

/-- A text with a character that is no space. -/
theorem strip_ne_empty {s : String} {c : Char} (hc : c ∈ s.toList)
    (hspace : Unicode.isSpace c = false) : strip s ≠ "" := by
  let p : Char → Bool := Unicode.isSpace
  intro hblank
  have hnil : (s.toList.dropWhile p).rdropWhile p = [] := by
    have hlist := congrArg String.toList hblank
    rwa [strip, String.toList_ofList] at hlist
  have hrest : s.toList.dropWhile p = [] := by
    by_contra hne
    have hhead := List.rdropWhile_eq_nil_iff.mp hnil _ (List.head_mem hne)
    have hnot := List.head_dropWhile_not p hne
    exact Bool.false_ne_true (hnot.symm.trans hhead)
  have hall : Unicode.isSpace c = true := List.dropWhile_eq_nil_iff.mp hrest c hc
  exact Bool.false_ne_true (hspace.symm.trans hall)

/-- `not s.strip()`. -/
def isBlank (s : String) : Bool :=
  s.toList.all Unicode.isSpace

def hexDigit (n : Nat) : Char :=
  if n < 10 then Char.ofNat ('0'.toNat + n) else Char.ofNat ('a'.toNat + n - 10)

/-- `n` as exactly `w` hexadecimal digits. -/
def hex : Nat → Nat → List Char
  | 0, _ => []
  | w + 1, n => hex w (n / 16) ++ [hexDigit (n % 16)]

/-- One character inside `repr(s)`, the quote being `q`. -/
def reprChar (q c : Char) : List Char :=
  if c = q ∨ c = '\\' then ['\\', c]
  else if c = '\n' then ['\\', 'n']
  else if c = '\r' then ['\\', 'r']
  else if c = '\t' then ['\\', 't']
  else if Unicode.isPrintable c then [c]
  else if c.toNat < 0x100 then '\\' :: 'x' :: hex 2 c.toNat
  else if c.toNat < 0x10000 then '\\' :: 'u' :: hex 4 c.toNat
  else '\\' :: 'U' :: hex 8 c.toNat

/-- `repr(s)`: single quotes, unless the text has those and no double ones. -/
def repr (s : String) : String :=
  let q := if s.toList.contains '\'' && !s.toList.contains '"' then '"' else '\''
  String.ofList ([q] ++ s.toList.flatMap (reprChar q) ++ [q])

end Text
