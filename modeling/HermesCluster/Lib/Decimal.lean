import HermesCluster.Lib.Text
/-!
# Integers as text

`str(n)` and `int(s)` of Python, with the limit on the length of the text. What
`str` writes, `int` reads back, and it holds only digits and a sign.
-/

namespace Decimal

/-- `sys.get_int_max_str_digits()`. -/
def maxStrDigits : Nat := 4300

/-! ## Writing -/

def tooLong : String :=
  "Exceeds the limit (4300 digits) for integer string conversion"

/-- `str(n)`. -/
def str (n : Int) : Except String String :=
  let digits := String.ofList (Nat.toDigits 10 n.natAbs)
  if maxStrDigits < digits.toList.length then .error tooLong
  else .ok (if n < 0 then "-" ++ digits else digits)

/-! ## Reading -/

/-- A character as the parser sees it: other scripts have their digits and blanks. -/
def plainChar [Unicode] (c : Char) : Char :=
  if c.toNat < 127 then c
  else if Unicode.isSpace c then ' '
  else
    match Unicode.decimal c with
    | some d => Nat.digitChar d
    | none => '?'

def isBlankChar (c : Char) : Bool :=
  c = ' ' || ('\t' ≤ c && c ≤ '\r')

/-- A number without its sign; underscores may stand between digits. -/
def magnitude (cs : List Char) : Option Nat :=
  let groups := cs.splitOn '_'
  if groups.all (fun g => g ≠ [] && g.all Char.isDigit) = true ∧
      groups.flatten.length ≤ maxStrDigits then
    some (Nat.ofDigitChars 10 groups.flatten 0)
  else none

/-- A number with a sign or without one. -/
def signed (cs : List Char) : Option Int :=
  match cs with
  | '-' :: digits => (magnitude digits).map fun n : Nat => -(n : Int)
  | '+' :: digits => (magnitude digits).map Int.ofNat
  | digits => (magnitude digits).map Int.ofNat

/-- `int(s)`; a `ValueError` is `none`. -/
def int [Unicode] (s : String) : Option Int :=
  signed (Text.rstripList isBlankChar ((s.toList.map plainChar).dropWhile isBlankChar))

/-! ## What is written -/

theorem str_eq_ok {n : Int} {s : String} (h : str n = .ok s) :
    (Nat.toDigits 10 n.natAbs).length ≤ maxStrDigits ∧
      s.toList = (if n < 0 then ['-'] else []) ++ Nat.toDigits 10 n.natAbs := by
  unfold str at h
  dsimp only at h
  rw [String.toList_ofList] at h
  split at h
  · cases h
  · rename_i hshort
    refine ⟨Nat.le_of_not_lt hshort, ?_⟩
    cases h
    split
    · exact (String.toList_append ..).trans (congrArg _ String.toList_ofList)
    · rw [String.toList_ofList]
      rfl

theorem isDigit_of_mem {n : Nat} {c : Char} (h : c ∈ Nat.toDigits 10 n) : c.isDigit = true :=
  Nat.isDigit_of_mem_toDigits (by decide) (by decide) h

/-- A written number holds digits and a sign. -/
theorem mem_str {n : Int} {s : String} (h : str n = .ok s) {c : Char} (hc : c ∈ s.toList) :
    c = '-' ∨ c.isDigit = true := by
  rw [(str_eq_ok h).2, List.mem_append] at hc
  rcases hc with hsign | hdigit
  · split at hsign
    · exact .inl (List.mem_singleton.mp hsign)
    · cases hsign
  · exact .inr (isDigit_of_mem hdigit)

theorem toNat_of_isDigit {c : Char} (h : c.isDigit = true) : 48 ≤ c.toNat ∧ c.toNat ≤ 57 := by
  unfold Char.isDigit at h
  simp only [Bool.and_eq_true, decide_eq_true_eq] at h
  exact ⟨h.1, h.2⟩

theorem plainChar_of_mem [Unicode] {c : Char} (h : c = '-' ∨ c.isDigit = true) :
    plainChar c = c := by
  refine if_pos ?_
  rcases h with rfl | hdigit
  · decide
  · have := toNat_of_isDigit hdigit
    omega

theorem isBlankChar_of_mem {c : Char} (h : c = '-' ∨ c.isDigit = true) : isBlankChar c = false := by
  rcases h with rfl | hdigit
  · decide
  · have hbounds := toNat_of_isDigit hdigit
    unfold isBlankChar
    simp only [Bool.or_eq_false_iff, decide_eq_false_iff_not, Bool.and_eq_false_iff]
    refine ⟨?_, .inr ?_⟩
    · rintro rfl
      exact absurd hbounds.1 (by decide)
    · intro hle
      have hle' : c.toNat ≤ 13 := hle
      omega

/-- Nothing is stripped from what holds no blank. -/
theorem rstripList_of_all {p : Char → Bool} {cs : List Char} (h : ∀ c ∈ cs, p c = false) :
    Text.rstripList p (cs.dropWhile p) = cs := by
  have hdrop : ∀ {l : List Char}, (∀ c ∈ l, p c = false) → l.dropWhile p = l := by
    intro l hl
    cases l with
    | nil => rfl
    | cons c l => exact List.dropWhile_cons_of_neg (by simp [hl c List.mem_cons_self])
  unfold Text.rstripList
  rw [hdrop h, hdrop (fun c hc => h c (List.mem_reverse.mp hc)), List.reverse_reverse]

theorem magnitude_toDigits {n : Nat} (h : (Nat.toDigits 10 n).length ≤ maxStrDigits) :
    magnitude (Nat.toDigits 10 n) = some n := by
  have hsplit : (Nat.toDigits 10 n).splitOn '_' = [Nat.toDigits 10 n] :=
    List.splitOn_eq_singleton Nat.underscore_not_in_toDigits
  have hdigits : (Nat.toDigits 10 n).all Char.isDigit = true :=
    List.all_eq_true.mpr fun c hc => isDigit_of_mem hc
  unfold magnitude
  rw [hsplit]
  simp [hdigits, h]

theorem signed_toDigits {n : Nat} (h : (Nat.toDigits 10 n).length ≤ maxStrDigits) :
    signed (Nat.toDigits 10 n) = some (n : Int) := by
  have hmagnitude := magnitude_toDigits h
  have hfirst : ∀ c ∈ Nat.toDigits 10 n, c.isDigit = true := fun c hc => isDigit_of_mem hc
  unfold signed
  split
  · rename_i digits heq
    rw [heq] at hfirst
    exact absurd (hfirst _ List.mem_cons_self) (by decide)
  · rename_i digits heq
    rw [heq] at hfirst
    exact absurd (hfirst _ List.mem_cons_self) (by decide)
  · rw [hmagnitude]
    rfl

/-- What is written is read back. -/
theorem int_str [Unicode] {n : Int} {s : String} (h : str n = .ok s) : int s = some n := by
  obtain ⟨hshort, hlist⟩ := str_eq_ok h
  have hplain : s.toList.map plainChar = s.toList := by
    refine (List.map_congr_left fun c hc => ?_).trans (List.map_id _)
    exact plainChar_of_mem (mem_str h hc)
  unfold int
  rw [hplain, rstripList_of_all (fun c hc => isBlankChar_of_mem (mem_str h hc)), hlist]
  by_cases hneg : n < 0
  · rw [if_pos hneg]
    change (magnitude (Nat.toDigits 10 n.natAbs)).map (fun k : Nat => -(k : Int)) = some n
    rw [magnitude_toDigits hshort, Option.map_some]
    exact congrArg some (by omega)
  · rw [if_neg hneg, List.nil_append, signed_toDigits hshort]
    exact congrArg some (by omega)

/-- Two numbers are written alike only if they are one. -/
theorem str_injective {m n : Int} {s : String} (hm : str m = .ok s) (hn : str n = .ok s) :
    m = n := by
  let _ := Unicode.ascii
  exact Option.some.inj ((int_str hm).symm.trans (int_str hn))

/-! ## What is read -/

theorem ofDigitChars_lt {cs : List Char} (h : ∀ c ∈ cs, c.isDigit = true) :
    Nat.ofDigitChars 10 cs 0 < 10 ^ cs.length := by
  induction cs with
  | nil => decide
  | cons c cs ih =>
      have hbounds := toNat_of_isDigit (h c List.mem_cons_self)
      have hrest := ih (fun d hd => h d (List.mem_cons_of_mem c hd))
      rw [Nat.ofDigitChars_cons, Nat.ofDigitChars_eq_ofDigitChars_zero, List.length_cons,
        Nat.pow_succ]
      have hdigit : 10 * 0 + (c.toNat - '0'.toNat) ≤ 9 := by
        have : '0'.toNat = 48 := rfl
        omega
      have := Nat.mul_le_mul_left (10 ^ cs.length) hdigit
      omega

theorem magnitude_short {cs : List Char} {n : Nat} (h : magnitude cs = some n) :
    (Nat.toDigits 10 n).length ≤ maxStrDigits := by
  unfold magnitude at h
  dsimp only at h
  split at h
  · rename_i hlegal
    cases h
    refine (Nat.length_toDigits_le_iff (by decide) (by decide)).mpr ?_
    refine Nat.lt_of_lt_of_le (ofDigitChars_lt fun c hc => ?_)
      (Nat.pow_le_pow_right (by decide) hlegal.2)
    obtain ⟨group, hgroup, hmem⟩ := List.mem_flatten.mp hc
    have hlegal' := List.all_eq_true.mp hlegal.1 group hgroup
    simp only [Bool.and_eq_true] at hlegal'
    exact List.all_eq_true.mp hlegal'.2 c hmem
  · cases h

/-- A number that was read can be written. -/
theorem str_of_int [Unicode] {n : Int} {s : String} (h : int s = some n) :
    ∃ t, str n = .ok t := by
  have hwritten : ∀ k : Nat, k = n.natAbs → (Nat.toDigits 10 k).length ≤ maxStrDigits →
      ∃ t, str n = .ok t := by
    rintro k rfl hshort
    unfold str
    dsimp only
    rw [String.toList_ofList, if_neg (Nat.not_lt.mpr hshort)]
    exact ⟨_, rfl⟩
  unfold int signed at h
  split at h
  all_goals
    obtain ⟨k, hk, rfl⟩ := Option.map_eq_some_iff.mp h
    exact hwritten k (by simp) (magnitude_short hk)

end Decimal
