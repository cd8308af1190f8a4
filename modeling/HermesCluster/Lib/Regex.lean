import HermesCluster.Lib.Text
/-!
# Backtracking regular expressions

The matching order of Python's `re`: alternatives from left to right,
repetitions greedy or lazy, the first way to match wins. A matcher takes a
continuation that says whether the rest of the pattern matches, which is what
backtracking means here. Assertions look at the text before the position
(reversed) and after it.
-/

inductive Regex where
  | eps
  | chr (p : Char → Bool)
  | look (p : List Char → List Char → Bool)
  | seq (r s : Regex)
  | alt (r s : Regex)
  | rep (r : Regex) (min : Nat) (max : Option Nat) (greedy : Bool)
  | group (r : Regex)

namespace Regex

/-- A position in the text: what was read (reversed), what is left, and the
groups closed so far, the last one first. -/
structure Cursor where
  before : List Char
  after : List Char
  groups : List String

/-- The text read between two positions of one match. -/
def Cursor.between (start finish : Cursor) : String :=
  String.ofList (finish.before.take (start.after.length - finish.after.length)).reverse

/-- The iterations of a repetition. A further iteration beyond the minimum
must read something; `fuel` bounds the iterations by the text that is left. -/
def loop (body : Cursor → (Cursor → Option Cursor) → Option Cursor)
    (greedy : Bool) (k : Cursor → Option Cursor) :
    Nat → Nat → Option Nat → Cursor → Option Cursor
  | 0, min, _, c => if min = 0 then k c else none
  | fuel + 1, min, max, c =>
      let stop := if min = 0 then k c else none
      if max = some 0 then stop
      else
        let more := body c (fun c' =>
          if 0 < min ∨ c'.after.length < c.after.length then
            loop body greedy k fuel (min - 1) (max.map (· - 1)) c'
          else none)
        if greedy then more.or stop else stop.or more

/-- Match from a position, then go on with the continuation. -/
def matchK : Regex → Cursor → (Cursor → Option Cursor) → Option Cursor
  | eps, c, k => k c
  | chr p, c, k =>
      match c.after with
      | [] => none
      | x :: xs => if p x then k { c with before := x :: c.before, after := xs } else none
  | look p, c, k => if p c.before c.after then k c else none
  | seq r s, c, k => r.matchK c (fun c' => s.matchK c' k)
  | alt r s, c, k => (r.matchK c k).or (s.matchK c k)
  | rep r min max greedy, c, k =>
      loop r.matchK greedy k (c.after.length + min + 1) min max c
  | group r, c, k =>
      r.matchK c (fun c' => k { c' with groups := c.between c' :: c'.groups })

section Steps

variable {body : Cursor → (Cursor → Option Cursor) → Option Cursor} {greedy : Bool}
  {k : Cursor → Option Cursor} {fuel min : Nat} {max : Option Nat} {c : Cursor} {r s : Regex}

theorem loop_zero : loop body greedy k 0 min max c = if min = 0 then k c else none := rfl

theorem loop_succ :
    loop body greedy k (fuel + 1) min max c =
      if max = some 0 then if min = 0 then k c else none
      else if greedy then
        (body c (fun c' =>
          if 0 < min ∨ c'.after.length < c.after.length then
            loop body greedy k fuel (min - 1) (max.map (· - 1)) c'
          else none)).or (if min = 0 then k c else none)
      else
        (if min = 0 then k c else none).or (body c (fun c' =>
          if 0 < min ∨ c'.after.length < c.after.length then
            loop body greedy k fuel (min - 1) (max.map (· - 1)) c'
          else none)) := rfl

theorem matchK_chr {p : Char → Bool} :
    (chr p).matchK c k =
      match c.after with
      | [] => none
      | x :: xs => if p x then k { c with before := x :: c.before, after := xs } else none := rfl

theorem matchK_look {q : List Char → List Char → Bool} :
    (look q).matchK c k = if q c.before c.after then k c else none := rfl

theorem matchK_alt : (alt r s).matchK c k = (r.matchK c k).or (s.matchK c k) := rfl

theorem matchK_rep :
    (rep r min max greedy).matchK c k =
      loop r.matchK greedy k (c.after.length + min + 1) min max c := rfl

end Steps

/-! ## Building patterns -/

def seqs : List Regex → Regex
  | [] => eps
  | r :: rs => seq r (seqs rs)

def alts : List Regex → Regex
  | [] => look (fun _ _ => false)
  | [r] => r
  | r :: s :: rs => alt r (alts (s :: rs))

def star (r : Regex) : Regex := rep r 0 none true
def plus (r : Regex) : Regex := rep r 1 none true
def opt (r : Regex) : Regex := rep r 0 (some 1) true
def upTo (n : Nat) (r : Regex) : Regex := rep r 0 (some n) true

/-- Exactly this text, the `re.escape` of it. -/
def lit (s : String) : Regex :=
  seqs (s.toList.map (fun c => chr (fun d => d = c)))

/-- An ASCII letter under `re.IGNORECASE`: also the four letters outside ASCII
whose case folds into it. -/
def foldEq (a c : Char) : Bool :=
  Unicode.asciiLowerChar c = Unicode.asciiLowerChar a ||
    (Unicode.asciiLowerChar a = 'i' && (c = '\u0130' || c = '\u0131')) ||
    (Unicode.asciiLowerChar a = 's' && c = '\u017f') ||
    (Unicode.asciiLowerChar a = 'k' && c = '\u212a')

/-- `[a-z]` under `re.IGNORECASE`. -/
def isLetterI (c : Char) : Bool :=
  ('a' ≤ Unicode.asciiLowerChar c && Unicode.asciiLowerChar c ≤ 'z') ||
    c = '\u0130' || c = '\u0131' || c = '\u017f' || c = '\u212a'

/-- ASCII text under `re.IGNORECASE`. -/
def litI (s : String) : Regex :=
  seqs (s.toList.map (fun a => chr (foldEq a)))

def oneOf (s : String) : Regex :=
  chr (fun c => s.toList.contains c)

def isHex (c : Char) : Bool :=
  ('0' ≤ c && c ≤ '9') || ('a' ≤ c && c ≤ 'f')

/-- `[0-9a-f]` under `re.IGNORECASE`. -/
def isHexI (c : Char) : Bool :=
  isHex (Unicode.asciiLowerChar c)

/-- `.` -/
def dot : Regex := chr (fun c => c ≠ '\n')

/-- `(?<!p)` for one character. -/
def notBefore (p : Char → Bool) : Regex :=
  look (fun before _ => !(before.head?.any p))

/-- `(?!p)` for one character. -/
def notAfter (p : Char → Bool) : Regex :=
  look (fun _ after => !(after.head?.any p))

/-- `^` outside `re.MULTILINE`. -/
def bos : Regex :=
  look (fun before _ => before = [])

/-- `$` outside `re.MULTILINE`: the end, or before a last newline. -/
def eos : Regex :=
  look (fun _ after => after = [] || after = ['\n'])

/-- `^` under `re.MULTILINE`. -/
def lineStart : Regex :=
  look (fun before _ => before.head?.all (fun c => c = '\n'))

/-- `$` under `re.MULTILINE`. -/
def lineEnd : Regex :=
  look (fun _ after => after.head?.all (fun c => c = '\n'))

section Classes

variable [Unicode]

def digit : Regex := chr Unicode.isDecimal
def word : Regex := chr Unicode.isWord
def nonWord : Regex := chr (fun c => !Unicode.isWord c)
def space : Regex := chr Unicode.isSpace

/-- `\b`. -/
def wordBoundary : Regex :=
  look (fun before after => before.head?.any Unicode.isWord != after.head?.any Unicode.isWord)

end Classes

/-! ## Using a pattern -/

/-- The groups of a match, in the order they were closed. -/
def Cursor.captures (c : Cursor) : List String :=
  c.groups.reverse

/-- `re.match`: a match at the start of the text. -/
def matchStart (r : Regex) (s : String) : Option Cursor :=
  r.matchK ⟨[], s.toList, []⟩ some

/-- The first match at or after a position: where it starts and where it ends. -/
def searchFrom (r : Regex) : List Char → List Char → Option (Cursor × Cursor)
  | before, after =>
      match r.matchK ⟨before, after, []⟩ some with
      | some c => some (⟨before, after, []⟩, c)
      | none =>
          match after with
          | [] => none
          | x :: xs => searchFrom r (x :: before) xs
  termination_by structural _ after => after

section Searching

variable {r : Regex} {before after xs : List Char} {x : Char} {c : Cursor} {fuel : Nat}

theorem searchFrom_nil :
    searchFrom r before [] =
      match r.matchK ⟨before, [], []⟩ some with
      | some c => some (⟨before, [], []⟩, c)
      | none => none := by
  unfold searchFrom
  rfl

theorem searchFrom_cons :
    searchFrom r before (x :: xs) =
      match r.matchK ⟨before, x :: xs, []⟩ some with
      | some c => some (⟨before, x :: xs, []⟩, c)
      | none => searchFrom r (x :: before) xs := by
  conv => lhs; unfold searchFrom

theorem searchFrom_of_match (h : r.matchK ⟨before, after, []⟩ some = some c) :
    searchFrom r before after = some (⟨before, after, []⟩, c) := by
  cases after with
  | nil => rw [searchFrom_nil, h]
  | cons x xs => rw [searchFrom_cons, h]

end Searching

/-- `re.search`. -/
def search (r : Regex) (s : String) : Option Cursor :=
  (searchFrom r [] s.toList).map Prod.snd

/-- `re.search(…) is not None`. -/
def found (r : Regex) (s : String) : Bool :=
  (r.search s).isSome

/-- The matches of `re.findall`, left to right and without overlap; after an
empty match the search goes on one character later. -/
def findallFrom (r : Regex) : Nat → List Char → List Char → List (Cursor × Cursor)
  | 0, _, _ => []
  | fuel + 1, before, after =>
      match searchFrom r before after with
      | none => []
      | some (start, finish) =>
          (start, finish) ::
            (if finish.after.length < start.after.length then
              findallFrom r fuel finish.before finish.after
            else
              match finish.after with
              | [] => []
              | x :: xs => findallFrom r fuel (x :: finish.before) xs)

theorem findallFrom_succ {r : Regex} {fuel : Nat} {before after : List Char} :
    findallFrom r (fuel + 1) before after =
      match searchFrom r before after with
      | none => []
      | some (start, finish) =>
          (start, finish) ::
            (if finish.after.length < start.after.length then
              findallFrom r fuel finish.before finish.after
            else
              match finish.after with
              | [] => []
              | x :: xs => findallFrom r fuel (x :: finish.before) xs) := rfl

/-- `re.findall` of a pattern with one group: the text of that group. -/
def findall (r : Regex) (s : String) : List String :=
  (findallFrom r (s.toList.length + 1) [] s.toList).filterMap
    (fun m => m.2.captures.head?)

end Regex
