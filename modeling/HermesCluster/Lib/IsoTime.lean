import Mathlib.Algebra.GroupWithZero.Nat
import Mathlib.Data.List.Basic
/-!
# Date-times as text

`datetime` of Python with its texts: what `isoformat` writes, `fromisoformat`
reads back. The texts read are those of Python 3.10 and before; later versions
read more, which `isoformat` never writes.
-/

namespace IsoTime

/-! ## Numbers of a fixed width -/

/-- `n` in `w` digits. -/
def pad : Nat → Nat → List Char
  | 0, _ => []
  | w + 1, n => pad w (n / 10) ++ [Nat.digitChar (n % 10)]

/-- The number in the next `w` characters. -/
def digits (w : Nat) (cs : List Char) : Option (Nat × List Char) :=
  if (cs.take w).length = w ∧ (cs.take w).all Char.isDigit = true then
    some (Nat.ofDigitChars 10 (cs.take w) 0, cs.drop w)
  else none

theorem length_pad (w n : Nat) : (pad w n).length = w := by
  induction w generalizing n with
  | zero => rfl
  | succ w ih => rw [pad, List.length_append, ih, List.length_singleton]

theorem isDigit_pad (w n : Nat) : (pad w n).all Char.isDigit = true := by
  induction w generalizing n with
  | zero => rfl
  | succ w ih =>
      have hlast : (Nat.digitChar (n % 10)).isDigit = true := by
        rw [Nat.isDigit_digitChar]
        exact decide_eq_true (Nat.mod_lt n (by decide))
      rw [pad, List.all_append, ih, List.all_cons, hlast]
      rfl

theorem ofDigitChars_pad {w n : Nat} (h : n < 10 ^ w) : Nat.ofDigitChars 10 (pad w n) 0 = n := by
  induction w generalizing n with
  | zero =>
      have hzero : n = 0 := by
        rw [Nat.pow_zero] at h
        omega
      rw [hzero]
      rfl
  | succ w ih =>
      have hdiv : n / 10 < 10 ^ w := by
        rw [Nat.pow_succ] at h
        omega
      have hmod : n % 10 < 10 := Nat.mod_lt n (by decide)
      rw [pad, Nat.ofDigitChars_append, ih hdiv,
        Nat.ofDigitChars_cons_digitChar_of_lt_ten hmod, Nat.ofDigitChars_nil]
      omega

/-- Written and read back. -/
theorem digits_pad {w n : Nat} (h : n < 10 ^ w) (rest : List Char) :
    digits w (pad w n ++ rest) = some (n, rest) := by
  have htake : (pad w n ++ rest).take w = pad w n := List.take_left' (length_pad w n)
  have hdrop : (pad w n ++ rest).drop w = rest := List.drop_left' (length_pad w n)
  rw [digits, htake, hdrop, if_pos ⟨length_pad w n, isDigit_pad w n⟩, ofDigitChars_pad h]

/-! ## Date-times -/

def daysInMonth (year month : Nat) : Nat :=
  if month = 2 then
    if year % 4 = 0 ∧ (year % 100 ≠ 0 ∨ year % 400 = 0) then 29 else 28
  else if month = 4 ∨ month = 6 ∨ month = 9 ∨ month = 11 then 30
  else 31

/-- The fields of a `datetime`, with `utcoffset()` in microseconds. -/
structure Fields where
  year : Nat
  month : Nat
  day : Nat
  hour : Nat
  minute : Nat
  second : Nat
  microsecond : Nat
  utcoffset : Option Int
  deriving DecidableEq

/-- What the constructor of `datetime` accepts. -/
structure Fields.Valid (d : Fields) : Prop where
  year : 1 ≤ d.year ∧ d.year ≤ 9999
  month : 1 ≤ d.month ∧ d.month ≤ 12
  day : 1 ≤ d.day ∧ d.day ≤ daysInMonth d.year d.month
  hour : d.hour < 24
  minute : d.minute < 60
  second : d.second < 60
  microsecond : d.microsecond < 1000000
  utcoffset : ∀ o ∈ d.utcoffset, o.natAbs < 86400000000

instance (d : Fields) : Decidable d.Valid :=
  decidable_of_iff
    ((1 ≤ d.year ∧ d.year ≤ 9999) ∧ (1 ≤ d.month ∧ d.month ≤ 12) ∧
      (1 ≤ d.day ∧ d.day ≤ daysInMonth d.year d.month) ∧ d.hour < 24 ∧ d.minute < 60 ∧
      d.second < 60 ∧ d.microsecond < 1000000 ∧ ∀ o ∈ d.utcoffset, o.natAbs < 86400000000)
    ⟨fun ⟨hy, hmo, hd, hh, hmi, hs, hus, ho⟩ => ⟨hy, hmo, hd, hh, hmi, hs, hus, ho⟩,
      fun ⟨hy, hmo, hd, hh, hmi, hs, hus, ho⟩ => ⟨hy, hmo, hd, hh, hmi, hs, hus, ho⟩⟩

/-- A `datetime`. -/
abbrev DateTime : Type := { d : Fields // d.Valid }

/-- Days before the first of a month, counted from the first of January of year 1. -/
def daysBefore (year month : Nat) : Nat :=
  let y := year - 1
  365 * y + y / 4 - y / 100 + y / 400 +
    ((List.range (month - 1)).map fun m => daysInMonth year (m + 1)).sum

/-- Microseconds since 1970-01-01 in UTC, where a naive value is UTC. -/
def Fields.instant (d : Fields) : Int :=
  let days : Int := (daysBefore d.year d.month + d.day : Nat) - 719163
  ((days * 24 + d.hour) * 60 + d.minute) * 60000000 + d.second * 1000000 + d.microsecond -
    d.utcoffset.getD 0

/-! ## Writing -/

/-- Microseconds, if there are any. -/
def fractionText (us : Nat) : List Char :=
  if us = 0 then [] else '.' :: pad 6 us

/-- The offset from UTC; its seconds only if there are any. -/
def offsetText : Option Int → List Char
  | none => []
  | some o =>
      let a := o.natAbs
      let seconds := a / 1000000 % 60
      let us := a % 1000000
      (if o < 0 then '-' else '+') :: pad 2 (a / 3600000000) ++
        ':' :: pad 2 (a / 60000000 % 60) ++
        if seconds = 0 ∧ us = 0 then [] else ':' :: pad 2 seconds ++ fractionText us

/-- `isoformat()`. -/
def Fields.isoformat (d : Fields) : List Char :=
  pad 4 d.year ++ '-' :: pad 2 d.month ++ '-' :: pad 2 d.day ++ 'T' :: pad 2 d.hour ++
    ':' :: pad 2 d.minute ++ ':' :: pad 2 d.second ++ fractionText d.microsecond ++
    offsetText d.utcoffset

example : (Fields.mk 1970 1 1 0 30 0 0 (some 1800000000)).instant = 0 := by decide

/-! ## Reading -/

/-- A given character comes next. -/
def expect (c : Char) : List Char → Option (List Char)
  | [] => none
  | d :: cs => if d = c then some cs else none

/-- `.fff` or `.ffffff`, if a point comes next. -/
def readFraction : List Char → Option (Nat × List Char)
  | '.' :: cs =>
      match digits 6 cs with
      | some r => some r
      | none => (digits 3 cs).map fun r => (r.1 * 1000, r.2)
  | cs => some (0, cs)

/-- `:SS` with its fraction, if a colon comes next. -/
def readSeconds : List Char → Option ((Nat × Nat) × List Char)
  | ':' :: cs => do
      let (second, cs) ← digits 2 cs
      let (us, cs) ← readFraction cs
      some ((second, us), cs)
  | cs => some ((0, 0), cs)

/-- `HH[:MM[:SS[.fff[fff]]]]`. -/
def readClock (cs : List Char) : Option ((Nat × Nat × Nat × Nat) × List Char) := do
  let (hour, cs) ← digits 2 cs
  match cs with
  | ':' :: cs => do
      let (minute, cs) ← digits 2 cs
      let ((second, us), cs) ← readSeconds cs
      some ((hour, minute, second, us), cs)
  | cs => some ((hour, 0, 0, 0), cs)

/-- `+HH:MM[:SS[.ffffff]]` up to the end, or nothing. -/
def readOffset : List Char → Option (Option Int)
  | [] => some none
  | sign :: cs => do
      let (hour, cs) ← digits 2 cs
      let cs ← expect ':' cs
      let (minute, cs) ← digits 2 cs
      let ((second, us), cs) ← readSeconds cs
      let a : Int := (((hour * 60 + minute) * 60 + second) * 1000000 + us : Nat)
      if cs ≠ [] then none
      else if sign = '+' then some (some a)
      else if sign = '-' then some (some (-a))
      else none

/-- `datetime.fromisoformat`; a `ValueError` is `none`. -/
def fromisoformat (cs : List Char) : Option DateTime := do
  let (year, cs) ← digits 4 cs
  let cs ← expect '-' cs
  let (month, cs) ← digits 2 cs
  let cs ← expect '-' cs
  let (day, cs) ← digits 2 cs
  let ((hour, minute, second, us), cs) ←
    match cs with
    | [] => some ((0, 0, 0, 0), [])
    | _ :: cs => readClock cs
  let utcoffset ← readOffset cs
  let d : Fields := ⟨year, month, day, hour, minute, second, us, utcoffset⟩
  if h : d.Valid then some ⟨d, h⟩ else none

/-! ## The round trip -/

theorem readFraction_of_ne {rest : List Char} (h : ∀ c ∈ rest.head?, c ≠ '.') :
    readFraction rest = some (0, rest) := by
  unfold readFraction
  split
  · exact absurd rfl (h '.' rfl)
  · rfl

theorem readFraction_text {us : Nat} (hus : us < 1000000) {rest : List Char}
    (hrest : ∀ c ∈ rest.head?, c ≠ '.') :
    readFraction (fractionText us ++ rest) = some (us, rest) := by
  unfold fractionText
  split
  · rename_i hzero
    rw [hzero]
    exact readFraction_of_ne hrest
  · change (match digits 6 (pad 6 us ++ rest) with
      | some r => some r
      | none => _) = _
    rw [digits_pad hus]

theorem readSeconds_text {second us : Nat} (hsecond : second < 60) (hus : us < 1000000)
    {rest : List Char} (hrest : ∀ c ∈ rest.head?, c ≠ '.') :
    readSeconds (':' :: (pad 2 second ++ (fractionText us ++ rest))) =
      some ((second, us), rest) := by
  have hwidth : second < 10 ^ 2 := Nat.lt_trans hsecond (by decide)
  rw [readSeconds, digits_pad hwidth]
  simp only [Option.bind_eq_bind, Option.bind_some]
  rw [readFraction_text hus hrest]
  rfl

theorem readClock_text {hour minute second us : Nat} (hhour : hour < 24) (hminute : minute < 60)
    (hsecond : second < 60) (hus : us < 1000000) {rest : List Char}
    (hrest : ∀ c ∈ rest.head?, c ≠ '.') :
    readClock (pad 2 hour ++ ':' :: (pad 2 minute ++ ':' :: (pad 2 second ++
      (fractionText us ++ rest)))) = some ((hour, minute, second, us), rest) := by
  have hhour' : hour < 10 ^ 2 := Nat.lt_trans hhour (by decide)
  have hminute' : minute < 10 ^ 2 := Nat.lt_trans hminute (by decide)
  rw [readClock, digits_pad hhour']
  simp only [Option.bind_eq_bind, Option.bind_some]
  rw [digits_pad hminute']
  simp only [Option.bind_some]
  rw [readSeconds_text hsecond hus hrest]
  rfl

/-- The parts of an offset below a day make it up again. -/
theorem offset_parts (a : Nat) :
    ((a / 3600000000 * 60 + a / 60000000 % 60) * 60 + a / 1000000 % 60) * 1000000 +
      a % 1000000 = a := by
  omega

theorem readOffset_text {offset : Option Int} (h : ∀ o ∈ offset, o.natAbs < 86400000000) :
    readOffset (offsetText offset) = some offset := by
  cases offset with
  | none => rfl
  | some o =>
      have hday := h o rfl
      have hhour : o.natAbs / 3600000000 < 10 ^ 2 := by omega
      have hminute : o.natAbs / 60000000 % 60 < 10 ^ 2 := by omega
      have hseconds : readSeconds (if o.natAbs / 1000000 % 60 = 0 ∧ o.natAbs % 1000000 = 0 then []
          else ':' :: (pad 2 (o.natAbs / 1000000 % 60) ++ fractionText (o.natAbs % 1000000))) =
          some ((o.natAbs / 1000000 % 60, o.natAbs % 1000000), []) := by
        split
        · rename_i hzero
          rw [hzero.1, hzero.2]
          rfl
        · have hread : readSeconds (':' :: (pad 2 (o.natAbs / 1000000 % 60) ++
              (fractionText (o.natAbs % 1000000) ++ []))) =
              some ((o.natAbs / 1000000 % 60, o.natAbs % 1000000), []) :=
            readSeconds_text (by omega) (by omega) (fun _ hc => by cases hc)
          rwa [List.append_nil] at hread
      simp only [offsetText, List.cons_append, List.append_assoc]
      rw [readOffset, digits_pad hhour]
      simp only [Option.bind_eq_bind, Option.bind_some, expect, if_true]
      rw [digits_pad hminute]
      simp only [Option.bind_some]
      rw [hseconds]
      simp only [Option.bind_some, ne_eq, not_true_eq_false, if_false, offset_parts]
      by_cases hneg : o < 0
      · rw [if_pos hneg, if_neg (by decide), if_pos rfl]
        congr 2
        omega
      · rw [if_neg hneg, if_pos rfl]
        congr 2
        omega

/-- An offset begins with its sign. -/
theorem head_offsetText {offset : Option Int} {c : Char} (h : c ∈ (offsetText offset).head?) :
    c ≠ '.' := by
  cases offset with
  | none => cases h
  | some o =>
      have hc : (if o < 0 then '-' else '+') = c := Option.some.inj h
      rw [← hc]
      split <;> decide

/-- What is written is read back. -/
theorem fromisoformat_isoformat (d : DateTime) : fromisoformat d.1.isoformat = some d := by
  obtain ⟨d, hvalid⟩ := d
  have hyear : d.year < 10 ^ 4 := Nat.lt_of_le_of_lt hvalid.year.2 (by decide)
  have hmonth : d.month < 10 ^ 2 := Nat.lt_of_le_of_lt hvalid.month.2 (by decide)
  have hday : d.day < 10 ^ 2 := by
    have hmonthDays : daysInMonth d.year d.month ≤ 31 := by
      unfold daysInMonth
      split_ifs <;> omega
    have hle := hvalid.day.2
    omega
  simp only [Fields.isoformat, List.cons_append, List.append_assoc]
  rw [fromisoformat, digits_pad hyear]
  simp only [Option.bind_eq_bind, Option.bind_some, expect, if_true]
  rw [digits_pad hmonth]
  simp only [Option.bind_some, if_true]
  rw [digits_pad hday]
  simp only [Option.bind_some]
  rw [readClock_text hvalid.hour hvalid.minute hvalid.second hvalid.microsecond
    (fun _ hc => head_offsetText hc)]
  simp only [Option.bind_some]
  rw [readOffset_text hvalid.utcoffset]
  exact dif_pos hvalid

/-- Two date-times with one text are the same. -/
theorem isoformat_injective {d e : DateTime} (h : d.1.isoformat = e.1.isoformat) : d = e := by
  have hread := fromisoformat_isoformat d
  rw [h, fromisoformat_isoformat] at hread
  exact (Option.some.inj hread).symm

end IsoTime
