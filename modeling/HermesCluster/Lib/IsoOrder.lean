import HermesCluster.Lib.IsoTime
import Mathlib.Data.Char
import Mathlib.Data.List.Lex
import Mathlib.Order.Lattice
/-!
# Date-times in order

Naive date-times are compared field by field. Their texts, whose numbers all have a
fixed width, are in the same order, and so are the instants they name in UTC.
-/

namespace IsoTime

/-! ## Texts of numbers -/

section Lex

variable {α : Type} [LinearOrder α] {xs ys us vs : List α}

/-- Of two lists, beginnings of one length decide first. -/
theorem append_lt_append_iff (h : xs.length = ys.length) :
    xs ++ us < ys ++ vs ↔ xs < ys ∨ xs = ys ∧ us < vs := by
  induction xs generalizing ys with
  | nil =>
      obtain rfl := List.length_eq_zero_iff.mp h.symm
      simp
  | cons x xs ih =>
      cases ys with
      | nil => cases h
      | cons y ys =>
          have hrest := ih (Nat.succ.inj h)
          rw [List.cons_append, List.cons_append, List.cons_lt_cons_iff, hrest,
            List.cons_lt_cons_iff, List.cons.injEq]
          tauto

end Lex

theorem digitChar_lt_iff : ∀ a < 10, ∀ b < 10, Nat.digitChar a < Nat.digitChar b ↔ a < b := by
  decide

theorem pad_injective {w m n : Nat} (hm : m < 10 ^ w) (hn : n < 10 ^ w) :
    pad w m = pad w n ↔ m = n := by
  refine ⟨fun h => ?_, fun h => h ▸ rfl⟩
  rw [← ofDigitChars_pad hm, h, ofDigitChars_pad hn]

/-- Numbers of one width are in the order of their texts. -/
theorem pad_lt_pad_iff {w m n : Nat} (hm : m < 10 ^ w) (hn : n < 10 ^ w) :
    pad w m < pad w n ↔ m < n := by
  induction w generalizing m n with
  | zero =>
      rw [Nat.pow_zero] at hm hn
      simp [pad]
      omega
  | succ w ih =>
      have hm' : m / 10 < 10 ^ w := by
        rw [Nat.pow_succ] at hm
        omega
      have hn' : n / 10 < 10 ^ w := by
        rw [Nat.pow_succ] at hn
        omega
      have hlast : [Nat.digitChar (m % 10)] < [Nat.digitChar (n % 10)] ↔ m % 10 < n % 10 := by
        rw [List.cons_lt_cons_iff,
          digitChar_lt_iff _ (Nat.mod_lt m (by decide)) _ (Nat.mod_lt n (by decide))]
        simp
      have hlength : (pad w (m / 10)).length = (pad w (n / 10)).length := by
        rw [length_pad, length_pad]
      rw [pad, pad, append_lt_append_iff hlength, ih hm' hn', pad_injective hm' hn', hlast]
      omega

theorem pad_append_lt_iff {w m n : Nat} (hm : m < 10 ^ w) (hn : n < 10 ^ w) {us vs : List Char} :
    pad w m ++ us < pad w n ++ vs ↔ m < n ∨ m = n ∧ us < vs := by
  have hlength : (pad w m).length = (pad w n).length := by
    rw [length_pad, length_pad]
  rw [append_lt_append_iff hlength, pad_lt_pad_iff hm hn, pad_injective hm hn]

/-- No fraction comes before any. -/
theorem fractionText_lt_iff {m n : Nat} (hm : m < 1000000) (hn : n < 1000000) :
    fractionText m < fractionText n ↔ m < n := by
  unfold fractionText
  by_cases hm0 : m = 0 <;> by_cases hn0 : n = 0
  · rw [if_pos hm0, if_pos hn0, hm0, hn0]
    simp
  · rw [if_pos hm0, if_neg hn0]
    exact iff_of_true (List.nil_lt_cons _ _) (by omega)
  · rw [if_neg hm0, if_pos hn0]
    exact iff_of_false (List.not_lt_nil _) (by omega)
  · rw [if_neg hm0, if_neg hn0, List.cons_lt_cons_self]
    exact pad_lt_pad_iff hm hn

/-! ## Naive date-times -/

/-- The date comes before the other. -/
def Fields.DateBefore (d e : Fields) : Prop :=
  d.year < e.year ∨ d.year = e.year ∧
    (d.month < e.month ∨ d.month = e.month ∧ d.day < e.day)

def Fields.SameDate (d e : Fields) : Prop :=
  d.year = e.year ∧ d.month = e.month ∧ d.day = e.day

/-- The time of the day comes before the other. -/
def Fields.ClockBefore (d e : Fields) : Prop :=
  d.hour < e.hour ∨ d.hour = e.hour ∧
    (d.minute < e.minute ∨ d.minute = e.minute ∧
      (d.second < e.second ∨ d.second = e.second ∧ d.microsecond < e.microsecond))

/-- `d < e` of naive values: the first field that differs decides. -/
def Fields.Before (d e : Fields) : Prop :=
  d.DateBefore e ∨ d.SameDate e ∧ d.ClockBefore e

instance (d e : Fields) : Decidable (d.Before e) := by
  unfold Fields.Before Fields.DateBefore Fields.SameDate Fields.ClockBefore
  infer_instance

/-- A `datetime` without a timezone. -/
abbrev Naive : Type := { d : DateTime // d.1.utcoffset = none }

instance : LT Naive :=
  ⟨fun d e => d.1.1.Before e.1.1⟩

instance : DecidableLT Naive :=
  fun d e => inferInstanceAs (Decidable (d.1.1.Before e.1.1))

theorem Naive.lt_iff {d e : Naive} : d < e ↔ d.1.1.Before e.1.1 := Iff.rfl

/-- Naive date-times are in the order of their texts. -/
theorem isoformat_lt_iff {d e : Naive} : d.1.1.isoformat < e.1.1.isoformat ↔ d < e := by
  obtain ⟨⟨d, hd⟩, hnaive⟩ := d
  obtain ⟨⟨e, he⟩, hnaive'⟩ := e
  have hwidth : ∀ {f : Fields}, f.Valid → f.year < 10 ^ 4 ∧ f.month < 10 ^ 2 ∧ f.day < 10 ^ 2 ∧
      f.hour < 10 ^ 2 ∧ f.minute < 10 ^ 2 ∧ f.second < 10 ^ 2 := by
    intro f hf
    obtain ⟨⟨-, hy⟩, ⟨-, hmo⟩, ⟨-, hday⟩, hh, hmi, hs, -, -⟩ := hf
    have hmonth : daysInMonth f.year f.month ≤ 31 := by
      unfold daysInMonth
      split_ifs <;> omega
    omega
  obtain ⟨hy, hmo, hday, hh, hmi, hs⟩ := hwidth hd
  obtain ⟨hy', hmo', hday', hh', hmi', hs'⟩ := hwidth he
  have hnone : d.utcoffset = none := hnaive
  have hnone' : e.utcoffset = none := hnaive'
  rw [Naive.lt_iff]
  simp only [Fields.isoformat, List.cons_append, List.append_assoc, hnone, hnone', offsetText,
    List.append_nil]
  rw [pad_append_lt_iff hy hy', List.cons_lt_cons_self, pad_append_lt_iff hmo hmo',
    List.cons_lt_cons_self, pad_append_lt_iff hday hday', List.cons_lt_cons_self,
    pad_append_lt_iff hh hh', List.cons_lt_cons_self, pad_append_lt_iff hmi hmi',
    List.cons_lt_cons_self, pad_append_lt_iff hs hs',
    fractionText_lt_iff hd.microsecond he.microsecond]
  simp only [Fields.Before, Fields.DateBefore, Fields.SameDate, Fields.ClockBefore, and_or_left,
    or_assoc, and_assoc]

/-! ## Instants -/

/-- Days of a year before a month. -/
def daysBeforeMonth (year month : Nat) : Nat :=
  ((List.range (month - 1)).map fun m => daysInMonth year (m + 1)).sum

/-- Days before a year, counted from the first of January of year 1. -/
def daysBeforeYear (year : Nat) : Nat :=
  365 * (year - 1) + (year - 1) / 4 - (year - 1) / 100 + (year - 1) / 400

theorem daysBefore_eq (year month : Nat) :
    daysBefore year month = daysBeforeYear year + daysBeforeMonth year month := rfl

theorem daysBeforeMonth_succ {year month : Nat} (h : 1 ≤ month) :
    daysBeforeMonth year (month + 1) = daysBeforeMonth year month + daysInMonth year month := by
  obtain ⟨m, rfl⟩ := Nat.exists_eq_add_of_le' h
  unfold daysBeforeMonth
  rw [Nat.add_sub_cancel, Nat.add_sub_cancel, List.range_succ, List.map_append, List.sum_append]
  simp

theorem daysBeforeMonth_mono {year m m' : Nat} (hm : 1 ≤ m) (h : m ≤ m') :
    daysBeforeMonth year m ≤ daysBeforeMonth year m' := by
  induction m', h using Nat.le_induction with
  | base => exact le_rfl
  | succ m' hle ih =>
      rw [daysBeforeMonth_succ (hm.trans hle)]
      omega

/-- The months of a year make it up. -/
theorem daysBeforeYear_succ {year : Nat} (h : 1 ≤ year) :
    daysBeforeYear year + daysBeforeMonth year 13 = daysBeforeYear (year + 1) := by
  obtain ⟨y, rfl⟩ := Nat.exists_eq_add_of_le' h
  have hmonths : daysBeforeMonth (y + 1) 13 = 337 + daysInMonth (y + 1) 2 := by
    simp [daysBeforeMonth, List.range_succ, daysInMonth]
    omega
  have hdiv : ∀ k, 0 < k → (y + 1) / k = y / k + if (y + 1) % k = 0 then 1 else 0 := by
    intro k hk
    rw [Nat.succ_div]
    simp only [Nat.dvd_iff_mod_eq_zero]
  have hleap : (y + 1) % 400 = 0 → (y + 1) % 100 = 0 := by omega
  have hleap' : (y + 1) % 100 = 0 → (y + 1) % 4 = 0 := by omega
  have hle : y / 100 ≤ y / 4 := by omega
  rw [hmonths]
  unfold daysBeforeYear daysInMonth
  rw [Nat.add_sub_cancel, Nat.add_sub_cancel, hdiv 4 (by decide), hdiv 100 (by decide),
    hdiv 400 (by decide)]
  generalize y / 4 = a, y / 100 = b, y / 400 = c at *
  generalize (y + 1) % 4 = r, (y + 1) % 100 = r', (y + 1) % 400 = r'' at *
  split_ifs <;> omega

theorem daysBeforeYear_mono {y y' : Nat} (hy : 1 ≤ y) (h : y ≤ y') :
    daysBeforeYear y ≤ daysBeforeYear y' := by
  induction y', h using Nat.le_induction with
  | base => exact le_rfl
  | succ y' hle ih =>
      rw [← daysBeforeYear_succ (hy.trans hle)]
      omega

/-- The days are counted in the order of the dates. -/
theorem days_lt_of_dateBefore {d e : Fields} (hd : d.Valid) (he : e.Valid) (h : d.DateBefore e) :
    daysBefore d.year d.month + d.day < daysBefore e.year e.month + e.day := by
  have hmonth : daysBeforeMonth d.year d.month + d.day ≤ daysBeforeMonth d.year (d.month + 1) := by
    rw [daysBeforeMonth_succ hd.month.1]
    exact Nat.add_le_add_left hd.day.2 _
  have heday := he.day.1
  rw [daysBefore_eq, daysBefore_eq]
  rcases h with hyear | ⟨hyear, hsame⟩
  · have hend : daysBeforeMonth d.year (d.month + 1) ≤ daysBeforeMonth d.year 13 :=
      daysBeforeMonth_mono (Nat.le_add_left 1 _) (Nat.succ_le_succ hd.month.2)
    have hnext := daysBeforeYear_succ hd.year.1
    have hlater : daysBeforeYear (d.year + 1) ≤ daysBeforeYear e.year :=
      daysBeforeYear_mono (Nat.le_add_left 1 _) hyear
    omega
  · rw [hyear] at hmonth ⊢
    rcases hsame with hearlier | ⟨hmo, hday⟩
    · have hlater : daysBeforeMonth e.year (d.month + 1) ≤ daysBeforeMonth e.year e.month :=
        daysBeforeMonth_mono (Nat.le_add_left 1 _) hearlier
      omega
    · rw [hmo]
      omega

theorem instant_lt_of_before {d e : Naive} (h : d < e) : d.1.1.instant < e.1.1.instant := by
  obtain ⟨⟨d, hd⟩, hnaive⟩ := d
  obtain ⟨⟨e, he⟩, hnaive'⟩ := e
  have hnone : d.utcoffset = none := hnaive
  have hnone' : e.utcoffset = none := hnaive'
  have hclock := And.intro hd.hour (And.intro hd.minute (And.intro hd.second hd.microsecond))
  have hclock' := And.intro he.hour (And.intro he.minute (And.intro he.second he.microsecond))
  have hbefore : d.Before e := h
  simp only [Fields.instant, hnone, hnone', Option.getD_none]
  rcases hbefore with hdate | ⟨⟨hy, hmo, hday⟩, hlater⟩
  · have hdays := days_lt_of_dateBefore hd he hdate
    omega
  · rw [hy, hmo, hday]
    unfold Fields.ClockBefore at hlater
    omega

/-- Naive date-times are in the order of their instants, read as UTC. -/
theorem instant_lt_iff {d e : Naive} : d.1.1.instant < e.1.1.instant ↔ d < e := by
  refine ⟨fun h => ?_, instant_lt_of_before⟩
  rcases lt_trichotomy d.1.1.isoformat e.1.1.isoformat with hlt | heq | hgt
  · exact isoformat_lt_iff.mp hlt
  · rw [isoformat_injective heq] at h
    exact absurd h (Int.lt_irrefl _)
  · have hback := instant_lt_of_before (isoformat_lt_iff.mp hgt)
    exact absurd h (Int.not_lt.mpr (Int.le_of_lt hback))

end IsoTime
