import HermesCluster.Core.ReleasePin
/-!
# Where the reader finds the pin

What the pattern of `extract_pinned_sha` comes to, line by line: a list item of the
image's name, and from there the first `newTag` that indented lines lead to.
-/

namespace HermesCluster

namespace ReleasePin

open Regex

/-- Tables that agree with ASCII about white space. -/
class AsciiSpaces extends Unicode where
  isSpace_ascii : ∀ c, c.toNat < 128 → isSpace c = Unicode.asciiIsSpace c

abbrev AsciiSpaces.ascii : AsciiSpaces where
  toUnicode := Unicode.ascii
  isSpace_ascii _ _ := rfl

/-! ## Characters -/

section Spaces

variable [AsciiSpaces]

theorem isSpace_of_isBlank {c : Char} (h : isBlank c = true) : Unicode.isSpace c = true := by
  unfold isBlank at h
  rw [Bool.or_eq_true, decide_eq_true_eq, decide_eq_true_eq] at h
  rcases h with rfl | rfl
  · rw [AsciiSpaces.isSpace_ascii _ (by decide)]
    decide
  · rw [AsciiSpaces.isSpace_ascii _ (by decide)]
    decide

theorem isSpace_newline : Unicode.isSpace '\n' = true := by
  rw [AsciiSpaces.isSpace_ascii _ (by decide)]
  decide

theorem not_isSpace_of_isHexI {c : Char} (h : isHexI c = true) : Unicode.isSpace c = false := by
  have hsmall := isHexI_lt h
  rw [AsciiSpaces.isSpace_ascii c hsmall]
  have hall : (!(isHexI c && Unicode.asciiIsSpace c)) = true :=
    char_of_lt (q := fun c => !(isHexI c && Unicode.asciiIsSpace c)) (by decide) hsmall
  rw [h, Bool.true_and, Bool.not_eq_true'] at hall
  exact hall

end Spaces

/-! ## Words and lines -/

/-- The text after a word it begins with. -/
def dropWord (w t : List Char) : Option (List Char) :=
  if w.isPrefixOf t then some (t.drop w.length) else none

theorem dropWord_eq_some_iff {w t t' : List Char} : dropWord w t = some t' ↔ t = w ++ t' := by
  unfold dropWord
  constructor
  · intro h
    split at h
    · rename_i hw
      obtain ⟨rest, rfl⟩ := List.isPrefixOf_iff_prefix.mp hw
      rw [List.drop_left] at h
      exact congrArg (w ++ ·) (Option.some.inj h)
    · cases h
  · rintro rfl
    rw [if_pos (List.isPrefixOf_iff_prefix.mpr (List.prefix_append w t')), List.drop_left]

theorem dropWord_append (w t : List Char) : dropWord w (w ++ t) = some t :=
  dropWord_eq_some_iff.mpr rfl

theorem dropWhile_append_of_head {q : Char → Bool} {w t : List Char} (hw : ∀ x ∈ w, q x = true)
    (ht : ∀ x ∈ t.head?, q x = false) : (w ++ t).dropWhile q = t := by
  rw [List.dropWhile_append_of_pos hw]
  cases t with
  | nil => rfl
  | cons x t =>
      have hx : q x = false := ht x rfl
      rw [List.dropWhile_cons_of_neg (by rw [hx]; exact Bool.false_ne_true)]

theorem takeWhile_append_of_head {q : Char → Bool} {w t : List Char} (hw : ∀ x ∈ w, q x = true)
    (ht : ∀ x ∈ t.head?, q x = false) : (w ++ t).takeWhile q = w := by
  rw [List.takeWhile_append_of_pos hw]
  cases t with
  | nil => rw [List.takeWhile_nil, List.append_nil]
  | cons x t =>
      have hx : q x = false := ht x rfl
      rw [List.takeWhile_cons_of_neg (by rw [hx]; exact Bool.false_ne_true), List.append_nil]

/-- The text without a quote at its beginning. -/
def unquote : List Char → List Char
  | [] => []
  | c :: cs => if isQuote c then cs else c :: cs

theorem unquote_append {q t : List Char} (hq : q = [] ∨ q = ['"'])
    (ht : ∀ x ∈ t.head?, isQuote x = false) : unquote (q ++ t) = t := by
  rcases hq with rfl | rfl
  · cases t with
    | nil => rfl
    | cons x t =>
        have hx : isQuote x = false := ht x rfl
        rw [List.nil_append, unquote, hx]
        rfl
  · rfl

theorem exists_unquote (t : List Char) : ∃ q, (q = [] ∨ q = ['"']) ∧ t = q ++ unquote t := by
  cases t with
  | nil => exact ⟨[], .inl rfl, rfl⟩
  | cons x t =>
      by_cases hx : isQuote x = true
      · refine ⟨['"'], .inr rfl, ?_⟩
        obtain rfl : x = '"' := of_decide_eq_true hx
        rfl
      · refine ⟨[], .inl rfl, ?_⟩
        rw [unquote, if_neg hx, List.nil_append]

section Reader

variable [Unicode]

/-- A word after any white space. -/
def word (w : String) (t : List Char) : Option (List Char) :=
  dropWord w.toList (t.dropWhile Unicode.isSpace)

/-- The line has text, with nothing but blanks before it. -/
def hasText (t : List Char) : Bool :=
  (t.dropWhile isBlank).head?.any (fun c => !Unicode.isSpace c)

/-- The next line with text. -/
def nextLine : List Char → Option (List Char)
  | [] => none
  | c :: cs =>
      if Unicode.isSpace c = false then none
      else if c = '\n' ∧ hasText cs then some cs
      else nextLine cs

/-- The text after the name of the image, where it is a list item. -/
def afterName (t : List Char) : Option (List Char) :=
  ((word "-" t).bind (word "name:")).bind (word "hermes-cluster-main")

/-- The line is indented and has text. -/
def isIndented (t : List Char) : Bool :=
  t.head?.any isBlank && hasText t

/-- The digits of a `newTag` line, and what follows them. -/
def digitsAt (t : List Char) : Option (List Char) :=
  ((dropWord "newTag:".toList (t.dropWhile isBlank)).map
    (fun rest => unquote (rest.dropWhile Unicode.isSpace))).filter
      (fun rest => rest.head?.any isHexI)

/-- The digits of a `newTag` line. -/
def digitsOf (t : List Char) : Option (List Char) :=
  (digitsAt t).map (·.takeWhile isHexI)

/-- The commit id of a `newTag` line. -/
def shaOf (t : List Char) : Option String :=
  (digitsOf t).bind (fun ds =>
    let sha := asciiLower (String.ofList ds)
    if (fullShaRe.matchStart sha).isSome then some sha else none)

/-- The first `newTag` that indented lines lead to. -/
def followTag : List (List Char) → Option (List Char)
  | [] => none
  | t :: ts =>
      if (digitsAt t).isSome then some t
      else if isIndented t then followTag ts
      else none

/-- The `newTag` line that a list item leads to. -/
def itemTag (t : List Char) : Option (List Char) :=
  ((afterName t).bind nextLine).bind (fun body => followTag (lineStarts body))

/-- The `newTag` line that the reader comes to, and the text after it. -/
def mainTag (text : List Char) : Option (List Char) :=
  (lineStarts text).findSome? itemTag

end Reader

/-! ## The reader's pattern -/

section Reading

variable [AsciiSpaces]

theorem not_isSpace_graphic {c : Char} (h : '!' ≤ c) (h' : c ≤ '~') :
    Unicode.isSpace c = false := by
  have hle := UInt32.le_iff_toNat_le.mp (Char.le_def.mp h')
  have hge : '!'.toNat ≤ c.toNat := UInt32.le_iff_toNat_le.mp (Char.le_def.mp h)
  have hsmall : c.toNat < 128 := lt_of_le_of_lt hle (by decide)
  rw [AsciiSpaces.isSpace_ascii c hsmall]
  have hall : (!('!'.toNat ≤ c.toNat && Unicode.asciiIsSpace c)) = true :=
    char_of_lt (q := fun c => !('!'.toNat ≤ c.toNat && Unicode.asciiIsSpace c)) (by decide) hsmall
  rw [decide_eq_true hge, Bool.true_and, Bool.not_eq_true'] at hall
  exact hall

theorem word_eq_some_iff {w : String} {c : Char} {cs t t' : List Char} (hw : w.toList = c :: cs)
    (hc : Unicode.isSpace c = false) :
    word w t = some t' ↔ ∃ ws, (∀ x ∈ ws, Unicode.isSpace x = true) ∧ t = ws ++ w.toList ++ t' := by
  unfold word
  rw [dropWord_eq_some_iff]
  constructor
  · intro h
    refine ⟨t.takeWhile Unicode.isSpace, fun x hx => List.mem_takeWhile_imp hx, ?_⟩
    rw [List.append_assoc, ← h, List.takeWhile_append_dropWhile]
  · rintro ⟨ws, hws, rfl⟩
    rw [List.append_assoc, dropWhile_append_of_head hws]
    rw [hw]
    rintro x ⟨⟩
    exact hc

theorem afterName_eq_some_iff {t t' : List Char} :
    afterName t = some t' ↔ ∃ w₀ w₁ w₂, (∀ x ∈ w₀, Unicode.isSpace x = true) ∧
      (∀ x ∈ w₁, Unicode.isSpace x = true) ∧ (∀ x ∈ w₂, Unicode.isSpace x = true) ∧
      t = w₀ ++ "-".toList ++ (w₁ ++ "name:".toList ++
        (w₂ ++ "hermes-cluster-main".toList ++ t')) := by
  have hdash : Unicode.isSpace '-' = false := not_isSpace_graphic (by decide) (by decide)
  have hn : Unicode.isSpace 'n' = false := not_isSpace_graphic (by decide) (by decide)
  have hh : Unicode.isSpace 'h' = false := not_isSpace_graphic (by decide) (by decide)
  unfold afterName
  simp only [Option.bind_eq_some_iff]
  constructor
  · rintro ⟨t₂, ⟨t₁, h₀, h₁⟩, h₂⟩
    obtain ⟨w₀, hw₀, rfl⟩ := (word_eq_some_iff rfl hdash).mp h₀
    obtain ⟨w₁, hw₁, rfl⟩ := (word_eq_some_iff rfl hn).mp h₁
    obtain ⟨w₂, hw₂, rfl⟩ := (word_eq_some_iff rfl hh).mp h₂
    exact ⟨w₀, w₁, w₂, hw₀, hw₁, hw₂, rfl⟩
  · rintro ⟨w₀, w₁, w₂, hw₀, hw₁, hw₂, rfl⟩
    refine ⟨_, ⟨_, (word_eq_some_iff rfl hdash).mpr ⟨w₀, hw₀, rfl⟩,
      (word_eq_some_iff rfl hn).mpr ⟨w₁, hw₁, rfl⟩⟩, ?_⟩
    exact (word_eq_some_iff rfl hh).mpr ⟨w₂, hw₂, rfl⟩

/-- After white space that goes on to another line there is no text yet. -/
theorem hasText_of_space {ws t : List Char} (hws : ∀ x ∈ ws, Unicode.isSpace x = true) :
    hasText (ws ++ '\n' :: t) = false := by
  unfold hasText
  induction ws with
  | nil =>
      rw [List.nil_append, List.dropWhile_cons_of_neg (by decide), List.head?_cons,
        Option.any_some, isSpace_newline]
      rfl
  | cons x ws ih =>
      rw [List.forall_mem_cons] at hws
      rw [List.cons_append]
      by_cases hx : isBlank x = true
      · rw [List.dropWhile_cons_of_pos hx]
        exact ih hws.2
      · rw [List.dropWhile_cons_of_neg hx, List.head?_cons, Option.any_some, hws.1]
        rfl

theorem nextLine_eq_some_iff {t u : List Char} :
    nextLine t = some u ↔
      (∃ ws, (∀ x ∈ ws, Unicode.isSpace x = true) ∧ t = ws ++ '\n' :: u) ∧ hasText u = true := by
  induction t with
  | nil =>
      refine iff_of_false (Option.some_ne_none u ∘ Eq.symm) ?_
      rintro ⟨⟨ws, -, hnil⟩, -⟩
      exact absurd hnil.symm (by simp)
  | cons x t ih =>
      by_cases hx : Unicode.isSpace x = true
      · have hspace : ¬Unicode.isSpace x = false := by
          rw [hx]
          exact Bool.noConfusion
        unfold nextLine
        rw [if_neg hspace]
        by_cases hhere : x = '\n' ∧ hasText t = true
        · rw [if_pos hhere]
          constructor
          · intro h
            obtain rfl : t = u := Option.some.inj h
            exact ⟨⟨[], by simp, congrArg (· :: t) hhere.1⟩, hhere.2⟩
          · rintro ⟨⟨ws, hws, ht⟩, hu⟩
            cases ws with
            | nil => exact congrArg some (List.cons.inj ht).2
            | cons y ws =>
                obtain ⟨rfl, rfl⟩ := List.cons.inj ht
                have hno := hasText_of_space (t := u) (List.forall_mem_cons.mp hws).2
                exact absurd (hno.symm.trans hhere.2) Bool.false_ne_true
        · rw [if_neg hhere, ih]
          refine and_congr_left (fun hu => ⟨?_, ?_⟩)
          · rintro ⟨ws, hws, rfl⟩
            exact ⟨x :: ws, List.forall_mem_cons.mpr ⟨hx, hws⟩, rfl⟩
          · rintro ⟨ws, hws, ht⟩
            cases ws with
            | nil =>
                obtain ⟨rfl, rfl⟩ := List.cons.inj ht
                exact absurd ⟨rfl, hu⟩ hhere
            | cons y ws =>
                obtain ⟨rfl, rfl⟩ := List.cons.inj ht
                exact ⟨ws, (List.forall_mem_cons.mp hws).2, rfl⟩
      · rw [Bool.not_eq_true] at hx
        unfold nextLine
        rw [if_pos hx]
        refine iff_of_false (Option.some_ne_none u ∘ Eq.symm) ?_
        rintro ⟨⟨ws, hws, ht⟩, -⟩
        cases ws with
        | nil =>
            obtain ⟨rfl, -⟩ := List.cons.inj ht
            rw [isSpace_newline] at hx
            cases hx
        | cons y ws =>
            obtain ⟨rfl, -⟩ := List.cons.inj ht
            rw [hws x List.mem_cons_self] at hx
            cases hx

theorem digitsAt_eq_some_iff {t u : List Char} :
    digitsAt t = some u ↔ ∃ w ws q, (∀ x ∈ w, isBlank x = true) ∧
      (∀ x ∈ ws, Unicode.isSpace x = true) ∧ (q = [] ∨ q = ['"']) ∧
      t = w ++ "newTag:".toList ++ ws ++ q ++ u ∧ u.head?.any isHexI = true := by
  have hn : ∀ s : List Char, ∀ x ∈ ("newTag:".toList ++ s).head?, isBlank x = false := by
    rintro s x ⟨⟩
    rfl
  unfold digitsAt
  rw [Option.filter_eq_some_iff, Option.map_eq_some_iff]
  constructor
  · rintro ⟨⟨rest, hrest, rfl⟩, hhead⟩
    rw [dropWord_eq_some_iff] at hrest
    obtain ⟨q, hq, hquote⟩ := exists_unquote (rest.dropWhile Unicode.isSpace)
    refine ⟨t.takeWhile isBlank, rest.takeWhile Unicode.isSpace, q, ?_, ?_, hq, ?_, hhead⟩
    · exact fun x hx => List.mem_takeWhile_imp hx
    · exact fun x hx => List.mem_takeWhile_imp hx
    · calc t = t.takeWhile isBlank ++ t.dropWhile isBlank := List.takeWhile_append_dropWhile.symm
        _ = t.takeWhile isBlank ++ ("newTag:".toList ++ (rest.takeWhile Unicode.isSpace ++
              (q ++ unquote (rest.dropWhile Unicode.isSpace)))) := by
            rw [hrest, ← hquote, List.takeWhile_append_dropWhile]
        _ = _ := by simp only [List.append_assoc]
  · rintro ⟨w, ws, q, hw, hws, hq, rfl, hhead⟩
    obtain ⟨x, xs, rfl⟩ : ∃ x xs, u = x :: xs := by
      cases u with
      | nil => cases hhead
      | cons x xs => exact ⟨x, xs, rfl⟩
    rw [List.head?_cons, Option.any_some] at hhead
    have hquote : isQuote x = false := by
      have hall : (!(isHexI x && isQuote x)) = true :=
        char_of_lt (q := fun c => !(isHexI c && isQuote c)) (by decide) (isHexI_lt hhead)
      rwa [hhead, Bool.true_and, Bool.not_eq_true'] at hall
    have hbegin : ∀ y ∈ (q ++ x :: xs).head?, Unicode.isSpace y = false := by
      rcases hq with rfl | rfl
      · rintro y ⟨⟩
        exact not_isSpace_of_isHexI hhead
      · rintro y ⟨⟩
        exact not_isSpace_graphic (by decide) (by decide)
    refine ⟨⟨ws ++ (q ++ x :: xs), ?_, ?_⟩, hhead⟩
    · simp only [List.append_assoc]
      rw [dropWhile_append_of_head hw (hn _), dropWord_append]
    · rw [dropWhile_append_of_head hws hbegin, unquote_append hq]
      rintro y ⟨⟩
      exact hquote

theorem reads_imageName {c c' : Cursor} (h : Reads imageName c c') :
    atLine c.before = true ∧ c'.groups = c.groups ∧ (∀ x ∈ c'.after.head?, x = '\n') ∧
      ∃ ws, (∀ x ∈ ws, Unicode.isSpace x = true) ∧ afterName c.after = some (ws ++ c'.after) := by
  simp only [imageName, reads_seqs_cons, reads_seqs_nil, lineStart, lineEnd, space,
    reads_look_iff, reads_star_chr_iff, reads_lit_iff] at h
  obtain ⟨_, ⟨hat, rfl⟩, c₁, ⟨w₀, h₀, hw₀⟩, c₂, hdash, c₃, ⟨w₁, h₁, hw₁⟩, c₄, hname, c₅,
    ⟨w₂, h₂, hw₂⟩, c₆, himage, c₇, ⟨ws, h₃, hws⟩, _, ⟨hend, rfl⟩, rfl⟩ := h
  have hall := h₀.trans (hdash.trans (h₁.trans (hname.trans (h₂.trans himage))))
  refine ⟨hat, (hall.trans h₃).groups, ?_, ws, hws, ?_⟩
  · intro x hx
    rw [hx, Option.all_some, decide_eq_true_eq] at hend
    exact hend
  · rw [afterName_eq_some_iff]
    refine ⟨w₀, w₁, w₂, hw₀, hw₁, hw₂, ?_⟩
    rw [hall.after, h₃.after]
    simp only [List.append_assoc]

theorem exists_reads_imageName {c : Cursor} {ws t : List Char} (hat : atLine c.before = true)
    (hname : afterName c.after = some (ws ++ t)) (hws : ∀ x ∈ ws, Unicode.isSpace x = true)
    (ht : ∀ x ∈ t.head?, x = '\n') : ∃ c', Reads imageName c c' ∧ c'.after = t := by
  obtain ⟨w₀, w₁, w₂, hw₀, hw₁, hw₂, hafter⟩ := afterName_eq_some_iff.mp hname
  simp only [List.append_assoc] at hafter
  obtain ⟨c₁, h₀, hc₁⟩ := Cursor.exists_passes hafter
  obtain ⟨c₂, hdash, hc₂⟩ := Cursor.exists_passes hc₁
  obtain ⟨c₃, h₁, hc₃⟩ := Cursor.exists_passes hc₂
  obtain ⟨c₄, hlit, hc₄⟩ := Cursor.exists_passes hc₃
  obtain ⟨c₅, h₂, hc₅⟩ := Cursor.exists_passes hc₄
  obtain ⟨c₆, himage, hc₆⟩ := Cursor.exists_passes hc₅
  obtain ⟨c₇, h₃, hc₇⟩ := Cursor.exists_passes hc₆
  refine ⟨c₇, ?_, hc₇⟩
  simp only [imageName, reads_seqs_cons, reads_seqs_nil, lineStart, lineEnd, space,
    reads_look_iff, reads_star_chr_iff, reads_lit_iff]
  refine ⟨c, ⟨hat, rfl⟩, c₁, ⟨w₀, h₀, hw₀⟩, c₂, hdash, c₃, ⟨w₁, h₁, hw₁⟩, c₄, hlit, c₅,
    ⟨w₂, h₂, hw₂⟩, c₆, himage, c₇, ⟨ws, h₃, hws⟩, c₇, ⟨?_, rfl⟩, rfl⟩
  rw [hc₇]
  cases hhead : t.head? with
  | none => rfl
  | some x => exact decide_eq_true (ht x hhead)

/-- What follows the end of a line, blanks before it apart. -/
def afterBreak (t : List Char) : Option (List Char) :=
  dropWord ['\n'] (t.dropWhile isBlank)

omit [AsciiSpaces] in
theorem afterBreak_eq_some_iff {t u : List Char} :
    afterBreak t = some u ↔ ∃ w, (∀ x ∈ w, isBlank x = true) ∧ t = w ++ '\n' :: u := by
  unfold afterBreak
  rw [dropWord_eq_some_iff]
  constructor
  · intro h
    refine ⟨t.takeWhile isBlank, fun x hx => List.mem_takeWhile_imp hx, ?_⟩
    calc t = t.takeWhile isBlank ++ t.dropWhile isBlank := List.takeWhile_append_dropWhile.symm
      _ = _ := by rw [h, List.singleton_append]
  · rintro ⟨w, hw, rfl⟩
    refine dropWhile_append_of_head hw ?_
    rintro x ⟨⟩
    rfl

/-- What the reader keeps of a match. -/
def captured (d : Cursor) : Option String :=
  d.captures.head?

omit [AsciiSpaces] in
/-- The digits are read to their end. -/
theorem map_matchK_digits {c : Cursor} (hgroups : c.groups = []) :
    ((seqs [group (plus (chr isHexI)), quote]).matchK c some).map captured =
      if c.after.head?.any isHexI then
        some (some (String.ofList (c.after.takeWhile isHexI))) else none := by
  split
  · rename_i hhead
    obtain ⟨c', hpass, hafter⟩ := Cursor.exists_passes (c := c)
      (List.takeWhile_append_dropWhile (p := isHexI)).symm
    have hend : ∀ x ∈ c'.after.head?, isHexI x = false := by
      intro x hx
      rw [hafter] at hx
      have hnot := List.head?_dropWhile_not isHexI c.after
      rw [hx] at hnot
      simpa using hnot
    have hlength : 1 ≤ (c.after.takeWhile isHexI).length := by
      cases hc : c.after with
      | nil =>
          rw [hc] at hhead
          cases hhead
      | cons x xs =>
          rw [hc, List.head?_cons, Option.any_some] at hhead
          rw [List.takeWhile_cons_of_pos hhead]
          exact Nat.succ_le_succ (Nat.zero_le _)
    let closed : Cursor := { c' with groups := c.between c' :: c'.groups }
    have hquote : ∀ d, Reads quote closed d → d.groups = closed.groups := by
      intro d hread
      rcases reads_opt_chr_iff.mp hread with rfl | ⟨x, hx, -⟩
      · rfl
      · exact hx.groups
    have hreads : Reads quote closed closed := reads_opt_chr_iff.mpr (.inl rfl)
    have hvalue : ((seqs [quote]).matchK closed some).map captured =
        some (some (String.ofList (c.after.takeWhile isHexI))) := by
      have hcaptured : ∀ d, d.groups = closed.groups →
          captured d = some (String.ofList (c.after.takeWhile isHexI)) := by
        intro d hd
        unfold captured Cursor.captures
        rw [hd, List.head?_reverse]
        change (c.between c' :: c'.groups).getLast? = _
        rw [hpass.groups, hgroups, hpass.between]
        rfl
      change (quote.matchK closed some).map captured = _
      refine map_matchK_eq (fun d hread => .inr ?_) (fun _ => ⟨closed, hreads, ?_⟩)
      · rw [Option.map_some, hcaptured d (hquote d hread)]
      · rw [Option.map_some, hcaptured closed rfl]
    have hsome : ((seqs [quote]).matchK closed some).isSome := by
      rw [← Option.isSome_map (f := captured), hvalue]
      rfl
    have hrun := matchK_rep_chr_of_run
      (k := fun c' => (seqs [quote]).matchK { c' with groups := c.between c' :: c'.groups } some)
      hpass (fun x hx => List.mem_takeWhile_imp hx) hend hlength hsome
    rw [← hvalue]
    exact congrArg (Option.map captured) hrun
  · rename_i hhead
    refine map_matchK_eq (fun d hread => absurd ?_ hhead) (fun h => absurd h (by simp))
    obtain ⟨e, hgroup, -⟩ := reads_seqs_cons.mp hread
    obtain ⟨e', hplus, -⟩ := reads_group_iff.mp hgroup
    obtain ⟨x, w, hpass, hx, -⟩ := reads_plus_chr_iff.mp hplus
    rw [hpass.after, List.cons_append, List.head?_cons, Option.any_some]
    exact hx

/-- The digits as the text that is captured. -/
def asCapture (digits : Option (List Char)) : Option (Option String) :=
  digits.map (fun ds => some (String.ofList ds))

theorem map_matchK_newTag {c : Cursor} (hgroups : c.groups = []) :
    (newTag.matchK c some).map captured =
      asCapture ((afterBreak c.after).bind digitsOf) := by
  have hsplit : newTag.matchK c some =
      (seqs [blanks, chr isNewline, blanks, lit "newTag:", star space, quote]).matchK c
        (fun c' => (seqs [group (plus (chr isHexI)), quote]).matchK c' some) :=
    matchK_seqs_append [blanks, chr isNewline, blanks, lit "newTag:", star space, quote] _
  rw [hsplit]
  refine map_matchK_eq (fun c' hread => ?_) (fun hsome => ?_)
  · simp only [reads_seqs_cons, reads_seqs_nil, blanks, space, quote, reads_star_chr_iff,
      reads_chr_iff, reads_lit_iff, reads_opt_chr_iff] at hread
    obtain ⟨c₁, ⟨w, hpass₁, hw⟩, c₂, ⟨x, hpass₂, hx⟩, c₃, ⟨w', hpass₃, hw'⟩, c₄, hpass₄, c₅,
      ⟨ws, hpass₅, hws⟩, c₆, hquote, rfl⟩ := hread
    obtain rfl : x = '\n' := of_decide_eq_true hx
    have hbreak : afterBreak c.after = some c₂.after := by
      refine afterBreak_eq_some_iff.mpr ⟨w, hw, ?_⟩
      rw [hpass₁.after, hpass₂.after]
      rfl
    have hpass := hpass₁.trans (hpass₂.trans (hpass₃.trans (hpass₄.trans hpass₅)))
    obtain ⟨q, hq, hpass₆⟩ : ∃ q, (q = [] ∨ q = ['"']) ∧ c₅.Passes q c' := by
      rcases hquote with rfl | ⟨y, hy, hquote⟩
      · exact ⟨[], .inl rfl, Cursor.Passes.refl _⟩
      · obtain rfl : y = '"' := of_decide_eq_true hquote
        exact ⟨['"'], .inr rfl, hy⟩
    rw [map_matchK_digits ((hpass.trans hpass₆).groups.trans hgroups)]
    split
    · rename_i hhead
      have hdigits : digitsAt c₂.after = some c'.after := by
        refine digitsAt_eq_some_iff.mpr ⟨w', ws, q, hw', hws, hq, ?_, hhead⟩
        rw [hpass₃.after, hpass₄.after, hpass₅.after, hpass₆.after]
        simp only [List.append_assoc]
      rw [hbreak, Option.bind_some, digitsOf, hdigits]
      exact .inr rfl
    · exact .inl rfl
  · unfold asCapture at hsome
    rw [Option.isSome_map, Option.isSome_iff_exists] at hsome
    obtain ⟨ds, hds⟩ := hsome
    obtain ⟨u, hbreak, hdigits⟩ := Option.bind_eq_some_iff.mp hds
    unfold digitsOf at hdigits
    obtain ⟨v, hv, rfl⟩ := Option.map_eq_some_iff.mp hdigits
    obtain ⟨w, hw, hafter⟩ := afterBreak_eq_some_iff.mp hbreak
    obtain ⟨w', ws, q, hw', hws, hq, rfl, hhead⟩ := digitsAt_eq_some_iff.mp hv
    rw [← List.singleton_append] at hafter
    simp only [List.append_assoc] at hafter
    obtain ⟨c₁, hpass₁, hc₁⟩ := Cursor.exists_passes hafter
    obtain ⟨c₂, hpass₂, hc₂⟩ := Cursor.exists_passes hc₁
    obtain ⟨c₃, hpass₃, hc₃⟩ := Cursor.exists_passes hc₂
    obtain ⟨c₄, hpass₄, hc₄⟩ := Cursor.exists_passes hc₃
    obtain ⟨c₅, hpass₅, hc₅⟩ := Cursor.exists_passes hc₄
    obtain ⟨c₆, hpass₆, hc₆⟩ := Cursor.exists_passes hc₅
    have hpass := hpass₁.trans (hpass₂.trans (hpass₃.trans (hpass₄.trans (hpass₅.trans hpass₆))))
    refine ⟨c₆, ?_, ?_⟩
    · simp only [reads_seqs_cons, reads_seqs_nil, blanks, space, quote, reads_star_chr_iff,
        reads_chr_iff, reads_lit_iff, reads_opt_chr_iff]
      refine ⟨c₁, ⟨w, hpass₁, hw⟩, c₂, ⟨'\n', hpass₂, rfl⟩, c₃, ⟨w', hpass₃, hw'⟩, c₄, hpass₄,
        c₅, ⟨ws, hpass₅, hws⟩, c₆, ?_, rfl⟩
      rcases hq with rfl | rfl
      · exact .inl (hpass₆.unique (Cursor.Passes.refl c₅))
      · exact .inr ⟨'"', hpass₆, rfl⟩
    · rw [map_matchK_digits (hpass.groups.trans hgroups), hc₆, if_pos hhead, hds]
      rfl

/-- The digits of the first `newTag` that indented lines lead to. -/
def followDigits (lines : List (List Char)) : Option (List Char) :=
  (followTag lines).bind digitsOf

theorem followDigits_cons {t : List Char} {ts : List (List Char)} :
    followDigits (t :: ts) =
      (digitsOf t).or (if isIndented t then followDigits ts else none) := by
  unfold followDigits digitsOf
  rw [followTag]
  cases hdigits : digitsAt t with
  | none =>
      rw [Option.map_none, Option.none_or]
      simp only [Option.isSome_none, Bool.false_eq_true, if_false]
      split
      · rfl
      · rfl
  | some u =>
      simp only [Option.isSome_some, if_true, Option.bind_some, hdigits, Option.map_some,
        Option.some_or]

/-- A line without text is neither a `newTag` line nor an indented one. -/
theorem followDigits_of_not_hasText {u : List Char} (h : ¬hasText u = true) :
    followDigits (lineStarts u) = none := by
  unfold lineStarts
  rw [followDigits_cons]
  have hdigits : digitsOf u = none := by
    unfold digitsOf
    rw [Option.map_eq_none_iff]
    cases hu : digitsAt u with
    | none => rfl
    | some v =>
        refine absurd ?_ h
        obtain ⟨w, ws, q, hw, -, -, rfl, -⟩ := digitsAt_eq_some_iff.mp hu
        unfold hasText
        simp only [List.append_assoc]
        rw [dropWhile_append_of_head hw (by rintro x ⟨⟩; rfl)]
        change (!Unicode.isSpace 'n') = true
        rw [not_isSpace_graphic (by decide) (by decide)]
        rfl
  have hindented : ¬isIndented u = true := by
    unfold isIndented
    rw [Bool.and_eq_true]
    exact fun hboth => h hboth.2
  rw [hdigits, if_neg hindented]
  rfl

theorem isIndented_iff {u : List Char} :
    isIndented u = true ↔
      ∃ b w y v, (∀ x ∈ b :: w, isBlank x = true) ∧ Unicode.isSpace y = false ∧
        u = (b :: w) ++ ([y] ++ v) := by
  unfold isIndented hasText
  rw [Bool.and_eq_true]
  constructor
  · rintro ⟨hhead, htext⟩
    obtain ⟨b, u, rfl⟩ : ∃ b u', u = b :: u' := by
      cases u with
      | nil => cases hhead
      | cons b u' => exact ⟨b, u', rfl⟩
    have hb : isBlank b = true := hhead
    rw [List.dropWhile_cons_of_pos hb] at htext
    obtain ⟨y, v, hyv⟩ : ∃ y v, u.dropWhile isBlank = y :: v := by
      cases hdrop : u.dropWhile isBlank with
      | nil =>
          rw [hdrop] at htext
          cases htext
      | cons y v => exact ⟨y, v, rfl⟩
    rw [hyv, List.head?_cons, Option.any_some, Bool.not_eq_true'] at htext
    refine ⟨b, u.takeWhile isBlank, y, v, ?_, htext, ?_⟩
    · rw [List.forall_mem_cons]
      exact ⟨hb, fun x hx => List.mem_takeWhile_imp hx⟩
    · rw [List.singleton_append, ← hyv, List.cons_append, List.takeWhile_append_dropWhile]
  · rintro ⟨b, w, y, v, hw, hy, rfl⟩
    refine ⟨hw b List.mem_cons_self, ?_⟩
    rw [dropWhile_append_of_head hw]
    · rw [List.singleton_append, List.head?_cons, Option.any_some, hy]
      rfl
    · rintro x ⟨⟩
      by_contra hx
      rw [Bool.not_eq_false] at hx
      rw [isSpace_of_isBlank hx] at hy
      cases hy

/-- An indented line and what is read of it. -/
theorem reads_indentedLine {c c' : Cursor} (h : Reads indentedLine c c') :
    ∃ u, afterBreak c.after = some u ∧ isIndented u = true ∧ breaks u = breaks c'.after ∧
      c'.after.length < c.after.length ∧ c'.groups = c.groups := by
  simp only [indentedLine, reads_seqs_cons, reads_seqs_nil, blanks, restOfLine, dot,
    reads_star_chr_iff, reads_plus_chr_iff, reads_chr_iff] at h
  obtain ⟨c₁, ⟨w, hpass₁, hw⟩, c₂, ⟨x, hpass₂, hx⟩, c₃, ⟨b, w', hpass₃, hb, hw'⟩, c₄,
    ⟨y, hpass₄, hy⟩, c₅, ⟨z, hpass₅, hz⟩, rfl⟩ := h
  obtain rfl : x = '\n' := of_decide_eq_true hx
  rw [Bool.not_eq_true'] at hy
  have hbw : ∀ x ∈ b :: w', isBlank x = true := List.forall_mem_cons.mpr ⟨hb, hw'⟩
  have hpass := hpass₁.trans (hpass₂.trans (hpass₃.trans (hpass₄.trans hpass₅)))
  have hline : c₂.after = (b :: w') ++ ([y] ++ (z ++ c'.after)) := by
    rw [hpass₃.after, hpass₄.after, hpass₅.after]
  refine ⟨c₂.after, afterBreak_eq_some_iff.mpr ⟨w, hw, ?_⟩, ?_, ?_, ?_, hpass.groups⟩
  · rw [hpass₁.after, hpass₂.after]
    rfl
  · exact isIndented_iff.mpr ⟨b, w', y, _, hbw, hy, hline⟩
  · have hstay : '\n' ∉ (b :: w') ++ [y] ++ z := by
      intro hmem
      rw [List.mem_append, List.mem_append, List.mem_singleton] at hmem
      rcases hmem with (hmem | rfl) | hmem
      · cases hbw _ hmem
      · rw [isSpace_newline] at hy
        cases hy
      · exact of_decide_eq_true (hz _ hmem) rfl
    rw [hline]
    simp only [← List.append_assoc]
    exact breaks_append_of_not_mem hstay
  · rw [hpass.after]
    simp only [List.length_append, List.length_cons]
    omega

/-- An indented line can be read to its end. -/
theorem exists_reads_indentedLine {c : Cursor} {u : List Char}
    (hbreak : afterBreak c.after = some u) (hu : isIndented u = true) :
    ∃ c', Reads indentedLine c c' ∧ ∀ x ∈ c'.after.head?, x = '\n' := by
  obtain ⟨w, hw, hafter⟩ := afterBreak_eq_some_iff.mp hbreak
  obtain ⟨b, w', y, v, hbw, hy, rfl⟩ := isIndented_iff.mp hu
  have hline : c.after = w ++ (['\n'] ++ ((b :: w') ++ ([y] ++
      (v.takeWhile (fun x => x ≠ '\n') ++ v.dropWhile (fun x => x ≠ '\n'))))) := by
    rw [List.takeWhile_append_dropWhile, hafter]
    rfl
  obtain ⟨c₁, hpass₁, hc₁⟩ := Cursor.exists_passes hline
  obtain ⟨c₂, hpass₂, hc₂⟩ := Cursor.exists_passes hc₁
  obtain ⟨c₃, hpass₃, hc₃⟩ := Cursor.exists_passes hc₂
  obtain ⟨c₄, hpass₄, hc₄⟩ := Cursor.exists_passes hc₃
  obtain ⟨c₅, hpass₅, hc₅⟩ := Cursor.exists_passes hc₄
  have hz : ∀ x ∈ v.takeWhile (fun x => x ≠ '\n'), decide (x ≠ '\n') = true :=
    fun x hx => List.mem_takeWhile_imp (p := fun x => decide (x ≠ '\n')) hx
  refine ⟨c₅, ?_, ?_⟩
  · simp only [indentedLine, reads_seqs_cons, reads_seqs_nil, blanks, restOfLine, dot,
      reads_star_chr_iff, reads_plus_chr_iff, reads_chr_iff]
    obtain ⟨hb, hw'⟩ := List.forall_mem_cons.mp hbw
    exact ⟨c₁, ⟨w, hpass₁, hw⟩, c₂, ⟨'\n', hpass₂, rfl⟩, c₃, ⟨b, w', hpass₃, hb, hw'⟩,
      c₄, ⟨y, hpass₄, by rw [hy]; rfl⟩, c₅, ⟨_, hpass₅, hz⟩, rfl⟩
  · intro x hx
    rw [hc₅] at hx
    have hnot := List.head?_dropWhile_not (fun x => decide (x ≠ '\n')) v
    rw [hx] at hnot
    simpa using hnot

omit [AsciiSpaces] in
theorem breaks_of_afterBreak {t u : List Char} (h : afterBreak t = some u) :
    breaks t = lineStarts u := by
  obtain ⟨v, hv, rfl⟩ := afterBreak_eq_some_iff.mp h
  have hnl : '\n' ∉ v := by
    intro hmem
    cases hv _ hmem
  rw [breaks_append_of_not_mem hnl]
  rfl

omit [AsciiSpaces] in
theorem afterBreak_of_newline {t : List Char} (ht : ∀ x ∈ t.head?, x = '\n') :
    afterBreak t = t.head?.map (fun _ => t.tail) := by
  cases t with
  | nil => rfl
  | cons x t =>
      obtain rfl : x = '\n' := ht x rfl
      rfl

/-- The indented lines, tried one after another. -/
theorem map_loop_indentedLine {fuel : Nat} {c : Cursor} (hgroups : c.groups = [])
    (hfuel : c.after.length < fuel) :
    (loop indentedLine.matchK false (fun c' => newTag.matchK c' some) fuel 0 none c).map captured =
      asCapture ((afterBreak c.after).bind (fun u => followDigits (lineStarts u))) := by
  induction fuel generalizing c with
  | zero => omega
  | succ fuel ih =>
      have hmore : (indentedLine.matchK c (fun c' =>
          if c'.after.length < c.after.length then
            loop indentedLine.matchK false (fun c' => newTag.matchK c' some) fuel 0 none c'
          else none)).map captured = asCapture ((afterBreak c.after).bind (fun u =>
            if isIndented u then followDigits (breaks u) else none)) := by
        refine map_matchK_eq (fun c' hread => ?_) (fun hsome => ?_)
        · obtain ⟨u, hbreak, hindented, hbreaks, hshorter, hgroups'⟩ := reads_indentedLine hread
          rw [if_pos hshorter, ih (hgroups'.trans hgroups) (by omega), hbreak,
            Option.bind_some, if_pos hindented, hbreaks]
          -- in the middle of its line there is no newline to go on from
          cases hnext : afterBreak c'.after with
          | none => exact .inl rfl
          | some u' =>
              rw [breaks_of_afterBreak hnext]
              exact .inr rfl
        · unfold asCapture at hsome
          rw [Option.isSome_map, Option.isSome_iff_exists] at hsome
          obtain ⟨ds, hds⟩ := hsome
          obtain ⟨u, hbreak, hdigits⟩ := Option.bind_eq_some_iff.mp hds
          split at hdigits
          · rename_i hindented
            obtain ⟨c', hread, hend⟩ := exists_reads_indentedLine hbreak hindented
            obtain ⟨u', hbreak', -, hbreaks, hshorter, hgroups'⟩ := reads_indentedLine hread
            obtain rfl : u = u' := Option.some.inj (hbreak.symm.trans hbreak')
            refine ⟨c', hread, ?_⟩
            rw [if_pos hshorter, ih (hgroups'.trans hgroups) (by omega), hds]
            rw [hbreaks] at hdigits
            have hnext := afterBreak_of_newline hend
            cases hhead : c'.after.head? with
            | none =>
                rw [List.head?_eq_none_iff] at hhead
                rw [hhead] at hdigits
                cases hdigits
            | some x =>
                rw [hhead, Option.map_some] at hnext
                rw [hnext, Option.bind_some, ← breaks_of_afterBreak hnext, hdigits]
          · cases hdigits
      rw [loop_lazy_succ, Option.map_or, map_matchK_newTag hgroups, hmore]
      cases afterBreak c.after with
      | none => rfl
      | some u =>
          unfold asCapture lineStarts
          rw [Option.bind_some, Option.bind_some, Option.bind_some, followDigits_cons,
            Option.map_or]

theorem lineValued_pinRe :
    LineValued pinRe (fun m => captured m.2)
      (fun t => asCapture (((afterName t).bind nextLine).bind
        (fun u => followDigits (lineStarts u)))) := by
  intro before after
  have hrest : ∀ c' : Cursor, c'.groups = [] →
      ((seqs [rep indentedLine 0 none false, newTag]).matchK c' some).map captured =
        asCapture ((afterBreak c'.after).bind (fun u => followDigits (lineStarts u))) := by
    intro c' hgroups
    exact map_loop_indentedLine hgroups (Nat.lt_succ_self _)
  change (imageName.matchK _ (fun c' =>
    (seqs [rep indentedLine 0 none false, newTag]).matchK c' some)).map captured = _
  refine map_matchK_eq (fun c' hread => ?_) (fun hsome => ?_)
  · obtain ⟨hat, hgroups, hend, ws, hws, hname⟩ := reads_imageName hread
    dsimp only at hat hname ⊢
    rw [hrest c' hgroups, if_pos hat, hname, Option.bind_some]
    cases hbreak : afterBreak c'.after with
    | none => exact .inl rfl
    | some u =>
        have hafter : c'.after = '\n' :: u := by
          have hnext := afterBreak_of_newline hend
          rw [hbreak] at hnext
          obtain ⟨x, hx, hu⟩ := Option.map_eq_some_iff.mp hnext.symm
          obtain rfl := hend x hx
          rw [← hu]
          exact (List.cons_head?_tail hx).symm
        by_cases htext : hasText u = true
        · have hnext : nextLine (ws ++ c'.after) = some u :=
            nextLine_eq_some_iff.mpr ⟨⟨ws, hws, by rw [hafter]⟩, htext⟩
          rw [hnext]
          exact .inr rfl
        · refine .inl ?_
          rw [Option.bind_some, followDigits_of_not_hasText htext]
          rfl
  · split at hsome
    · rename_i hat
      rw [if_pos hat]
      unfold asCapture at hsome
      rw [Option.isSome_map, Option.isSome_iff_exists] at hsome
      obtain ⟨ds, hds⟩ := hsome
      obtain ⟨u, hu, hdigits⟩ := Option.bind_eq_some_iff.mp hds
      obtain ⟨t, hname, hnext⟩ := Option.bind_eq_some_iff.mp hu
      obtain ⟨⟨ws, hws, rfl⟩, -⟩ := nextLine_eq_some_iff.mp hnext
      obtain ⟨c', hread, hafter⟩ := exists_reads_imageName (c := ⟨before, after, []⟩) hat hname hws
        (by rintro x ⟨⟩; rfl)
      refine ⟨c', hread, ?_⟩
      obtain ⟨-, hgroups, -⟩ := reads_imageName hread
      have hbreak : afterBreak c'.after = some u :=
        afterBreak_eq_some_iff.mpr ⟨[], by simp, hafter⟩
      dsimp only
      rw [hrest c' hgroups, hbreak, hds, Option.bind_some, hdigits]
    · cases hsome

omit [AsciiSpaces] in
theorem findSome?_bind {α β γ : Type} {F : α → Option β} {G : β → Option γ} {l : List α}
    (h : ∀ a b, F a = some b → (G b).isSome) :
    l.findSome? (fun a => (F a).bind G) = (l.findSome? F).bind G := by
  induction l with
  | nil => rfl
  | cons a l ih =>
      rw [List.findSome?_cons, List.findSome?_cons]
      cases ha : F a with
      | none => exact ih
      | some b =>
          obtain ⟨d, hd⟩ := Option.isSome_iff_exists.mp (h a b ha)
          rw [Option.bind_some]
          simp only [hd]

omit [AsciiSpaces] in
theorem isSome_digitsAt_of_followTag [Unicode] {lines : List (List Char)} {t : List Char}
    (h : followTag lines = some t) : (digitsAt t).isSome ∧ t ∈ lines := by
  induction lines with
  | nil => cases h
  | cons u us ih =>
      rw [followTag] at h
      split at h
      · rename_i hu
        cases h
        exact ⟨hu, List.mem_cons_self⟩
      · split at h
        · exact (ih h).imp_right (List.mem_cons_of_mem u)
        · cases h

omit [AsciiSpaces] in
/-- The text that stands for a full commit id. -/
theorem isSome_fullSha_iff {ds : List Char} (hds : ∀ x ∈ ds, isHexI x = true) :
    (fullShaRe.matchStart (String.ofList ds)).isSome ↔
      ds.length = 40 ∧ ∀ x ∈ ds, isHex x = true := by
  unfold matchStart
  rw [String.toList_ofList, ← Option.ne_none_iff_isSome, Ne, matchK_some_eq_none_iff]
  simp only [not_forall, not_not, fullShaRe, reads_seqs_cons, reads_seqs_nil, bos, eos,
    reads_look_iff, hex40, reads_rep_chr_iff]
  constructor
  · rintro ⟨c', c₁, ⟨-, hc₁⟩, c, ⟨w, hpass, hw, hmin, hmax⟩, c₂, ⟨hend, hc₂⟩, hc'⟩
    subst hc₁
    rw [hc₂] at hc'
    subst hc'
    have hrest : c'.after = [] := by
      rw [Bool.or_eq_true, decide_eq_true_eq, decide_eq_true_eq] at hend
      rcases hend with hnil | hnl
      · exact hnil
      · have hmem : '\n' ∈ ds := by
          have hafter : ds = w ++ c'.after := hpass.after
          rw [hafter, hnl]
          simp
        cases hds _ hmem
    have hafter : ds = w ++ c'.after := hpass.after
    rw [hrest, List.append_nil] at hafter
    subst hafter
    exact ⟨le_antisymm (hmax 40 rfl) hmin, hw⟩
  · rintro ⟨hlength, hhex⟩
    obtain ⟨c, hpass, hafter⟩ := Cursor.exists_passes (c := ⟨[], ds, []⟩)
      (List.append_nil ds).symm
    refine ⟨c, ⟨[], ds, []⟩, ⟨rfl, rfl⟩, c, ⟨ds, hpass, hhex, hlength.ge, ?_⟩, c, ⟨?_, rfl⟩, rfl⟩
    · rintro m ⟨⟩
      exact hlength.le
    · rw [hafter]
      rfl

/-- The reader takes the commit id of the line that it comes to. -/
theorem extractPinnedSha_eq (text : String) :
    extractPinnedSha text = (mainTag text.toList).bind shaOf := by
  have hsearch : (pinRe.search text).map captured =
      asCapture ((mainTag text.toList).bind digitsOf) := by
    have hdigits : ∀ t u, itemTag t = some u → (digitsOf u).isSome := by
      intro t u hu
      obtain ⟨body, -, hfollow⟩ := Option.bind_eq_some_iff.mp hu
      unfold digitsOf
      rw [Option.isSome_map]
      exact (isSome_digitsAt_of_followTag hfollow).1
    have hcapture : ∀ t u, (itemTag t).bind digitsOf = some u →
        ((some ∘ fun ds => some (String.ofList ds)) u).isSome := fun _ _ _ => rfl
    rw [search_lines lineValued_pinRe, mainTag, ← findSome?_bind hdigits, asCapture,
      Option.map_eq_bind, ← findSome?_bind hcapture]
    congr 1
    funext t
    unfold asCapture followDigits itemTag
    rw [Option.map_eq_bind, Option.bind_assoc _ _ digitsOf]
  unfold extractPinnedSha
  cases hblock : pinRe.search text with
  | none =>
      rw [hblock] at hsearch
      have hnone : (mainTag text.toList).bind digitsOf = none := by
        unfold asCapture at hsearch
        exact Option.map_eq_none_iff.mp hsearch.symm
      unfold shaOf
      rw [← Option.bind_assoc, hnone]
      rfl
  | some block =>
      rw [hblock, Option.map_some] at hsearch
      obtain ⟨ds, hds, hcaptured⟩ := Option.map_eq_some_iff.mp hsearch.symm
      unfold shaOf
      rw [← Option.bind_assoc, hds]
      have hhead : block.captures.head? = some (String.ofList ds) := hcaptured.symm
      dsimp only [Option.bind_some]
      rw [hhead]
      rfl


end Reading

end ReleasePin

end HermesCluster
