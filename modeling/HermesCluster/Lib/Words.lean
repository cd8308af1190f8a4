import HermesCluster.Lib.LinePatterns
/-!
# Words in a text

What `\b` and the lookarounds of a pattern say about the characters next to it: that no
character of a kind stands there. The tables are taken to agree on what a word is.
-/

/-- Digits and letters are word characters, no letter is a digit, no blank is a word
character, and among the ASCII characters the words are those of ASCII. -/
class WordUnicode extends Unicode where
  isAlnum_decimal : ∀ c, (decimal c).isSome = true → isAlnum c = true
  isAlnum_letter : ∀ c, Regex.isLetterI c = true → isAlnum c = true
  decimal_letter : ∀ c, Regex.isLetterI c = true → (decimal c).isSome = false
  not_isSpace : ∀ c, isAlnum c = true ∨ c = '_' → isSpace c = false
  isAlnum_ascii : ∀ c, c.toNat < 128 → isAlnum c = Unicode.ascii.isAlnum c

namespace WordUnicode

theorem ascii_decimal {c : Char} (h : (Unicode.ascii.decimal c).isSome = true) :
    Unicode.ascii.isAlnum c = true ∧ Regex.isLetterI c = false := by
  have hdigit : '0' ≤ c ∧ c ≤ '9' := by
    by_contra hnot
    have hnone : Unicode.ascii.decimal c = none := if_neg hnot
    rw [hnone] at h
    cases h
  have hsmall : c.toNat ≤ '9'.toNat := hdigit.2
  have hall : (!(Unicode.ascii.decimal c).isSome ||
      (Unicode.ascii.isAlnum c && !Regex.isLetterI c)) = true :=
    Regex.char_of_lt (q := fun c => !(Unicode.ascii.decimal c).isSome ||
      (Unicode.ascii.isAlnum c && !Regex.isLetterI c)) (by decide +kernel)
      (hsmall.trans_lt (by decide))
  simpa [h] using hall

theorem ascii_space {c : Char} (h : Unicode.asciiIsSpace c = true) :
    Unicode.ascii.isAlnum c = false ∧ Regex.isLetterI c = false ∧ c ≠ '_' := by
  have hall : (!Unicode.asciiIsSpace c || (!Unicode.ascii.isAlnum c && !Regex.isLetterI c &&
      decide (c ≠ '_'))) = true :=
    Regex.char_of_lt (q := fun c => !Unicode.asciiIsSpace c ||
      (!Unicode.ascii.isAlnum c && !Regex.isLetterI c && decide (c ≠ '_'))) (by decide +kernel)
      ((Regex.asciiIsSpace_le h).trans_lt (by decide))
  rw [h, Bool.not_true, Bool.false_or, Bool.and_eq_true, Bool.and_eq_true, Bool.not_eq_true',
    Bool.not_eq_true', decide_eq_true_eq] at hall
  exact ⟨hall.1.1, hall.1.2, hall.2⟩

theorem ascii_letter {c : Char} (hsmall : c.toNat < 128) (h : Regex.isLetterI c = true) :
    Unicode.ascii.isAlnum c = true := by
  have hall : (!Regex.isLetterI c || Unicode.ascii.isAlnum c) = true :=
    Regex.char_of_lt (q := fun c => !Regex.isLetterI c || Unicode.ascii.isAlnum c)
      (by decide +kernel) hsmall
  rwa [h, Bool.not_true, Bool.false_or] at hall

theorem ascii_hex {c : Char} (h : Regex.isHexI c = true) : Unicode.ascii.isAlnum c = true := by
  have hall : (!Regex.isHexI c || Unicode.ascii.isAlnum c) = true :=
    Regex.char_of_lt (q := fun c => !Regex.isHexI c || Unicode.ascii.isAlnum c)
      (by decide +kernel) (Regex.isHexI_lt h)
  rwa [h, Bool.not_true, Bool.false_or] at hall

/-- The tables on ASCII text, and on the letters that fold into it. -/
abbrev ascii : WordUnicode where
  toUnicode := { Unicode.ascii with
    isAlnum := fun c => Unicode.ascii.isAlnum c || Regex.isLetterI c }
  isAlnum_decimal c h := Bool.or_eq_true_iff.mpr (.inl (ascii_decimal h).1)
  isAlnum_letter c h := Bool.or_eq_true_iff.mpr (.inr h)
  decimal_letter c h := by
    by_contra hdecimal
    rw [Bool.not_eq_false] at hdecimal
    rw [(ascii_decimal hdecimal).2] at h
    cases h
  not_isSpace c h := by
    by_contra hspace
    rw [Bool.not_eq_false] at hspace
    obtain ⟨halnum, hletter, hunderscore⟩ := ascii_space hspace
    obtain h | h := h
    · obtain h | h := Bool.or_eq_true_iff.mp h
      · cases halnum.symm.trans h
      · cases hletter.symm.trans h
    · exact hunderscore h
  isAlnum_ascii c hsmall := Bool.or_eq_left_iff_imp.mpr (ascii_letter hsmall)

end WordUnicode

namespace Regex

/-- No character of the kind comes first. -/
def Lacks (p : Char → Bool) (cs : List Char) : Prop :=
  cs.head?.any p = false

instance (p : Char → Bool) (cs : List Char) : Decidable (Lacks p cs) :=
  inferInstanceAs (Decidable (_ = _))

theorem lacks_nil (p : Char → Bool) : Lacks p [] := rfl

theorem lacks_cons_iff {p : Char → Bool} {x : Char} {xs : List Char} :
    Lacks p (x :: xs) ↔ p x = false := Iff.rfl

theorem lacks_iff {p : Char → Bool} {cs : List Char} :
    Lacks p cs ↔ ∀ x ∈ cs.head?, p x = false := by
  cases cs with
  | nil =>
      constructor
      · rintro - x ⟨⟩
      · exact fun _ => rfl
  | cons x xs =>
      rw [lacks_cons_iff]
      exact ⟨fun h y hy => Option.some.inj hy ▸ h, fun h => h x rfl⟩

theorem Lacks.of_append {p : Char → Bool} {cs ds : List Char} (h : Lacks p (cs ++ ds)) :
    Lacks p cs := by
  cases cs with
  | nil => exact lacks_nil p
  | cons x cs => exact h

/-! ## Runs -/

/-- A text begins with a run of each kind, which may be empty. -/
theorem exists_run (p : Char → Bool) (cs : List Char) :
    ∃ w after, cs = w ++ after ∧ (∀ x ∈ w, p x = true) ∧ Lacks p after := by
  induction cs with
  | nil => exact ⟨[], [], rfl, List.forall_mem_nil _, lacks_nil p⟩
  | cons x xs ih =>
      cases hx : p x with
      | false => exact ⟨[], x :: xs, rfl, List.forall_mem_nil _, hx⟩
      | true =>
          obtain ⟨w, after, rfl, hw, hafter⟩ := ih
          exact ⟨x :: w, after, rfl, List.forall_mem_cons.mpr ⟨hx, hw⟩, hafter⟩

/-- The run at the beginning of a text is one. -/
theorem run_unique {p : Char → Bool} {w w' after after' : List Char}
    (h : w ++ after = w' ++ after') (hw : ∀ x ∈ w, p x = true) (hw' : ∀ x ∈ w', p x = true)
    (hafter : Lacks p after) (hafter' : Lacks p after') : w = w' ∧ after = after' := by
  induction w generalizing w' with
  | nil =>
      cases w' with
      | nil => exact ⟨rfl, h⟩
      | cons x w' =>
          obtain rfl : after = x :: (w' ++ after') := h
          rw [lacks_cons_iff, hw' x List.mem_cons_self] at hafter
          cases hafter
  | cons x w ih =>
      cases w' with
      | nil =>
          obtain rfl : x :: (w ++ after) = after' := h
          rw [lacks_cons_iff, hw x List.mem_cons_self] at hafter'
          cases hafter'
      | cons x' w' =>
          obtain ⟨rfl, hrest⟩ := List.cons.inj h
          obtain ⟨rfl, rfl⟩ := ih hrest (fun y hy => hw y (List.mem_cons_of_mem x hy))
            (fun y hy => hw' y (List.mem_cons_of_mem x hy))
          exact ⟨rfl, rfl⟩

section Words

variable [WordUnicode] {c c' : Cursor}

theorem isWord_of_isDecimal {x : Char} (h : Unicode.isDecimal x = true) :
    Unicode.isWord x = true := by
  unfold Unicode.isWord
  rw [WordUnicode.isAlnum_decimal x h, Bool.true_or]

theorem isWord_of_isLetterI {x : Char} (h : isLetterI x = true) : Unicode.isWord x = true := by
  unfold Unicode.isWord
  rw [WordUnicode.isAlnum_letter x h, Bool.true_or]

theorem isWord_of_isHexI {x : Char} (h : isHexI x = true) : Unicode.isWord x = true := by
  unfold Unicode.isWord
  rw [WordUnicode.isAlnum_ascii x (isHexI_lt h), WordUnicode.ascii_hex h,
    Bool.true_or]

theorem not_isDecimal_of_isLetterI {x : Char} (h : isLetterI x = true) :
    Unicode.isDecimal x = false :=
  WordUnicode.decimal_letter x h

theorem not_isWord_of_isSpace {x : Char} (h : Unicode.isSpace x = true) :
    Unicode.isWord x = false := by
  by_contra hword
  rw [Bool.not_eq_false, Unicode.isWord, Bool.or_eq_true, decide_eq_true_eq] at hword
  rw [WordUnicode.not_isSpace x hword] at h
  cases h

theorem not_isDecimal_of_not_isWord {x : Char} (h : Unicode.isWord x = false) :
    Unicode.isDecimal x = false := by
  by_contra hdecimal
  rw [Bool.not_eq_false] at hdecimal
  rw [isWord_of_isDecimal hdecimal] at h
  cases h

theorem Lacks.isDecimal {cs : List Char} (h : Lacks Unicode.isWord cs) :
    Lacks Unicode.isDecimal cs :=
  lacks_iff.mpr (fun x hx => not_isDecimal_of_not_isWord (lacks_iff.mp h x hx))

/-- `\b` in front of a word. -/
theorem reads_boundary_of_word_after {x : Char} {xs : List Char} (hafter : c.after = x :: xs)
    (hx : Unicode.isWord x = true) :
    Reads wordBoundary c c' ↔ Lacks Unicode.isWord c.before ∧ c' = c := by
  unfold wordBoundary
  rw [reads_look_iff, hafter, List.head?_cons, Option.any_some, hx, Lacks]
  cases c.before.head?.any Unicode.isWord <;> simp

/-- `\b` behind a word. -/
theorem reads_boundary_of_word_before {x : Char} {xs : List Char} (hbefore : c.before = x :: xs)
    (hx : Unicode.isWord x = true) :
    Reads wordBoundary c c' ↔ Lacks Unicode.isWord c.after ∧ c' = c := by
  unfold wordBoundary
  rw [reads_look_iff, hbefore, List.head?_cons, Option.any_some, hx, Lacks]
  cases c.after.head?.any Unicode.isWord <;> simp

end Words

end Regex
