import HermesCluster.Core.PinPatterns
/-!
# Where the writer finds the pin

`NEW_TAG_LINE` takes any line with a `newTag` of forty digits for the pin, and
`NEW_TAG_BLOCK` that line with the comment under it.
-/

namespace HermesCluster

namespace ReleasePin

open Regex

/-! ## A pin line -/

/-- The indentation and the digits of a line that the writer takes for the pin. -/
def tagAt (t : List Char) : Option (List Char × List Char) :=
  ((dropWord "newTag:".toList (t.dropWhile isBlank)).map
    (fun rest => (unquote (rest.dropWhile isBlank)).take 40)).bind (fun digits =>
      if digits.length = 40 ∧ digits.all isHex then some (t.takeWhile isBlank, digits) else none)

/-- A line that the writer takes for the pin, taken apart. -/
structure IsTag (indent digits rest t : List Char) : Prop where
  blank : ∀ x ∈ indent, isBlank x = true
  length : digits.length = 40
  hex : ∀ x ∈ digits, isHex x = true
  split : ∃ gap q, (∀ x ∈ gap, isBlank x = true) ∧ (q = [] ∨ q = ['"']) ∧
    t = indent ++ "newTag:".toList ++ gap ++ q ++ digits ++ rest

theorem isHex_facts {c : Char} (h : isHex c = true) :
    isBlank c = false ∧ isQuote c = false ∧ isHexI c = true ∧ c ≠ '\n' := by
  have hsmall : c.toNat < 128 := by
    refine isHexI_lt ?_
    have hlower : Unicode.asciiLowerChar c = c := by
      unfold Unicode.asciiLowerChar
      refine if_neg (fun hc => ?_)
      obtain ⟨hlow, hhigh⟩ := hc
      unfold isHex at h
      simp only [Bool.or_eq_true, Bool.and_eq_true, decide_eq_true_eq, Char.le_def,
        UInt32.le_iff_toNat_le] at h hlow hhigh
      rcases h with ⟨-, h⟩ | ⟨h, -⟩
      · exact absurd (hlow.trans h) (by decide)
      · exact absurd (h.trans hhigh) (by decide)
    unfold isHexI
    rw [hlower]
    exact h
  have hall : (!isHex c || (!isBlank c && !isQuote c && isHexI c && !isNewline c)) = true :=
    char_of_lt (q := fun c => !isHex c || (!isBlank c && !isQuote c && isHexI c && !isNewline c))
      (by decide) hsmall
  rw [h, Bool.not_true, Bool.false_or] at hall
  simp only [Bool.and_eq_true, Bool.not_eq_true'] at hall
  exact ⟨hall.1.1.1, hall.1.1.2, hall.1.2, of_decide_eq_false hall.2⟩

theorem tagAt_eq_some_iff {indent digits t : List Char} :
    tagAt t = some (indent, digits) ↔ ∃ rest, IsTag indent digits rest t := by
  have hn : ∀ s : List Char, ∀ x ∈ ("newTag:".toList ++ s).head?, isBlank x = false := by
    rintro s x ⟨⟩
    rfl
  constructor
  · intro h
    unfold tagAt at h
    obtain ⟨found, hfound, hdigits⟩ := Option.bind_eq_some_iff.mp h
    obtain ⟨after, hafter, rfl⟩ := Option.map_eq_some_iff.mp hfound
    rw [dropWord_eq_some_iff] at hafter
    split at hdigits
    · rename_i hhex
      rw [Option.some.injEq, Prod.mk.injEq] at hdigits
      obtain ⟨rfl, rfl⟩ := hdigits
      obtain ⟨q, hq, hquote⟩ := exists_unquote (after.dropWhile isBlank)
      refine ⟨(unquote (after.dropWhile isBlank)).drop 40, ?_, hhex.1, ?_,
        after.takeWhile isBlank, q, ?_, hq, ?_⟩
      · exact fun x hx => List.mem_takeWhile_imp hx
      · exact List.all_eq_true.mp hhex.2
      · exact fun x hx => List.mem_takeWhile_imp hx
      · calc t = t.takeWhile isBlank ++ t.dropWhile isBlank := List.takeWhile_append_dropWhile.symm
          _ = t.takeWhile isBlank ++ ("newTag:".toList ++ (after.takeWhile isBlank ++
                (q ++ unquote (after.dropWhile isBlank)))) := by
              rw [hafter, ← hquote, List.takeWhile_append_dropWhile]
          _ = _ := by
              simp only [List.append_assoc, List.take_append_drop]
    · cases hdigits
  · rintro ⟨rest, hblank, hlength, hhex, gap, q, hgap, hq, rfl⟩
    obtain ⟨x, xs, rfl⟩ : ∃ x xs, digits = x :: xs :=
      List.exists_cons_of_length_pos (by omega)
    have hx := isHex_facts (hhex x List.mem_cons_self)
    have hbegin : ∀ y ∈ (q ++ ((x :: xs) ++ rest)).head?, isBlank y = false := by
      rcases hq with rfl | rfl
      · rintro y ⟨⟩
        exact hx.1
      · rintro y ⟨⟩
        rfl
    have htake : (unquote (q ++ ((x :: xs) ++ rest))).take 40 = x :: xs := by
      rw [unquote_append hq (by rintro y ⟨⟩; exact hx.2.1), ← hlength, List.take_left]
    unfold tagAt
    simp only [List.append_assoc]
    rw [dropWhile_append_of_head hblank (hn _), takeWhile_append_of_head hblank (hn _),
      dropWord_append, Option.map_some, dropWhile_append_of_head hgap hbegin, htake,
      Option.bind_some, if_pos ⟨hlength, List.all_eq_true.mpr hhex⟩]

/-! ## The pattern of the line -/

section Writing

variable {c c' : Cursor}

theorem exists_passes_line (c : Cursor) :
    ∃ w c', c.Passes w c' ∧ (∀ x ∈ w, decide (x ≠ '\n') = true) ∧
      ∀ x ∈ c'.after.head?, x = '\n' := by
  obtain ⟨c', hpass, hafter⟩ := Cursor.exists_passes (c := c)
    (List.takeWhile_append_dropWhile (p := fun x => decide (x ≠ '\n'))).symm
  refine ⟨_, c', hpass, fun x hx => List.mem_takeWhile_imp (p := fun x => decide (x ≠ '\n')) hx, ?_⟩
  intro x hx
  rw [hafter] at hx
  have hnot := List.head?_dropWhile_not (fun x => decide (x ≠ '\n')) c.after
  rw [hx] at hnot
  simpa using hnot

theorem not_mem_of_ne_newline {w : List Char} (hw : ∀ x ∈ w, decide (x ≠ '\n') = true) :
    '\n' ∉ w :=
  fun hmem => of_decide_eq_true (hw _ hmem) rfl

theorem not_mem_of_isBlank {w : List Char} (hw : ∀ x ∈ w, isBlank x = true) : '\n' ∉ w := by
  intro hmem
  cases hw _ hmem

theorem not_mem_of_isHex {w : List Char} (hw : ∀ x ∈ w, isHex x = true) : '\n' ∉ w := by
  intro hmem
  cases hw _ hmem

theorem reads_quote_iff : Reads quote c c' ↔ ∃ q, (q = [] ∨ q = ['"']) ∧ c.Passes q c' := by
  unfold quote
  rw [reads_opt_chr_iff]
  constructor
  · rintro (rfl | ⟨y, hy, hquote⟩)
    · exact ⟨[], .inl rfl, Cursor.Passes.refl _⟩
    · obtain rfl : y = '"' := of_decide_eq_true hquote
      exact ⟨['"'], .inr rfl, hy⟩
  · rintro ⟨q, rfl | rfl, hpass⟩
    · exact .inl (hpass.unique (Cursor.Passes.refl c))
    · exact .inr ⟨'"', hpass, rfl⟩

theorem reads_hex40_iff :
    Reads hex40 c c' ↔ ∃ w, c.Passes w c' ∧ w.length = 40 ∧ ∀ x ∈ w, isHex x = true := by
  unfold hex40
  rw [reads_rep_chr_iff]
  constructor
  · rintro ⟨w, hpass, hw, hmin, hmax⟩
    exact ⟨w, hpass, le_antisymm (hmax 40 rfl) hmin, hw⟩
  · rintro ⟨w, hpass, hlength, hw⟩
    refine ⟨w, hpass, hw, hlength.ge, ?_⟩
    rintro m ⟨⟩
    exact hlength.le

theorem not_mem_quote {q : List Char} (hq : q = [] ∨ q = ['"']) : '\n' ∉ q := by
  rcases hq with rfl | rfl <;> simp

theorem reads_newTagLine (h : Reads newTagLine c c') :
    atLine c.before = true ∧ ∃ indent digits line, IsTag indent digits (line ++ c'.after) c.after ∧
      '\n' ∉ line ∧ c'.groups = String.ofList digits :: String.ofList indent :: c.groups := by
  simp only [newTagLine, reads_seqs_cons, reads_seqs_nil, lineStart, lineEnd, blanks, restOfLine,
    dot, reads_look_iff, reads_group_iff, reads_star_chr_iff, reads_lit_iff, reads_quote_iff,
    reads_hex40_iff] at h
  obtain ⟨c₀, ⟨hat, hc₀⟩, _, ⟨c₁, ⟨indent, h₁, hindent⟩, rfl⟩, c₂, h₂, c₃, ⟨gap, h₃, hgap⟩, c₄,
    ⟨q, hq, h₄⟩, _, ⟨c₅, ⟨digits, h₅, hlength, hhex⟩, rfl⟩, c₆, ⟨q', hq', h₆⟩, c₇,
    ⟨line, h₇, hline⟩, _, ⟨-, rfl⟩, rfl⟩ := h
  obtain rfl := hc₀.symm
  have hafter₁ : c₁.after = "newTag:".toList ++ c₂.after := h₂.after
  have hafter₅ : c₅.after = q' ++ c₆.after := h₆.after
  refine ⟨hat, indent, digits, q' ++ line, ⟨hindent, hlength, hhex, gap, q, hgap, hq, ?_⟩, ?_, ?_⟩
  · rw [h₁.after, hafter₁, h₃.after, h₄.after, h₅.after, hafter₅, h₇.after]
    simp only [List.append_assoc]
  · rw [List.mem_append, not_or]
    exact ⟨not_mem_quote hq', not_mem_of_ne_newline hline⟩
  · rw [h₇.groups, h₆.groups]
    change c₄.between c₅ :: c₅.groups = _
    rw [h₅.between, h₅.groups, h₄.groups, h₃.groups, h₂.groups]
    change _ :: c.between c₁ :: c₁.groups = _
    rw [h₁.between, h₁.groups]

theorem exists_reads_newTagLine {indent digits rest : List Char} (hat : atLine c.before = true)
    (h : IsTag indent digits rest c.after) : ∃ c', Reads newTagLine c c' := by
  obtain ⟨hindent, hlength, hhex, gap, q, hgap, hq, hafter⟩ := h
  simp only [List.append_assoc] at hafter
  obtain ⟨c₁, h₁, hc₁⟩ := Cursor.exists_passes hafter
  let d₁ : Cursor := { c₁ with groups := c.between c₁ :: c₁.groups }
  obtain ⟨c₂, h₂, hc₂⟩ := Cursor.exists_passes (c := d₁) hc₁
  obtain ⟨c₃, h₃, hc₃⟩ := Cursor.exists_passes hc₂
  obtain ⟨c₄, h₄, hc₄⟩ := Cursor.exists_passes hc₃
  obtain ⟨c₅, h₅, hc₅⟩ := Cursor.exists_passes hc₄
  let d₅ : Cursor := { c₅ with groups := c₄.between c₅ :: c₅.groups }
  obtain ⟨line, c₆, h₆, hline, hend⟩ := exists_passes_line d₅
  refine ⟨c₆, ?_⟩
  simp only [newTagLine, reads_seqs_cons, reads_seqs_nil, lineStart, lineEnd, blanks, restOfLine,
    dot, reads_look_iff, reads_group_iff, reads_star_chr_iff, reads_lit_iff, reads_quote_iff,
    reads_hex40_iff]
  refine ⟨c, ⟨hat, rfl⟩, d₁, ⟨c₁, ⟨indent, h₁, hindent⟩, rfl⟩, c₂, h₂, c₃, ⟨gap, h₃, hgap⟩, c₄,
    ⟨q, hq, h₄⟩, d₅, ⟨c₅, ⟨digits, h₅, hlength, hhex⟩, rfl⟩, d₅,
    ⟨[], .inl rfl, Cursor.Passes.refl _⟩, c₆, ⟨line, h₆, hline⟩, c₆, ⟨?_, rfl⟩, rfl⟩
  cases hhead : c₆.after.head? with
  | none => rfl
  | some x => exact decide_eq_true (hend x hhead)

/-- The groups of a line that the writer takes for the pin. -/
def tagGroups (t : List Char) : Option (List String) :=
  (tagAt t).map (fun tag => [String.ofList tag.1, String.ofList tag.2])

theorem lineValued_newTagLine :
    LineValued newTagLine (fun m => m.2.captures) tagGroups := by
  intro before after
  refine map_matchK_eq (fun c' hread => .inr ?_) (fun hsome => ?_)
  · obtain ⟨hat, indent, digits, line, htag, -, hgroups⟩ := reads_newTagLine hread
    dsimp only at hat htag hgroups
    rw [if_pos hat, tagGroups, tagAt_eq_some_iff.mpr ⟨_, htag⟩]
    simp only [Option.map_some, Cursor.captures, hgroups, List.reverse_cons, List.reverse_nil,
      List.nil_append, List.singleton_append]
  · split at hsome
    · rename_i hat
      unfold tagGroups at hsome
      rw [Option.isSome_map, Option.isSome_iff_exists] at hsome
      obtain ⟨⟨indent, digits⟩, htag⟩ := hsome
      obtain ⟨rest, hrest⟩ := tagAt_eq_some_iff.mp htag
      obtain ⟨c', hread⟩ := exists_reads_newTagLine (c := ⟨before, after, []⟩) hat hrest
      refine ⟨c', hread, ?_⟩
      obtain ⟨-, indent', digits', line, htag', -, hgroups⟩ := reads_newTagLine hread
      dsimp only at htag' hgroups
      rw [if_pos hat, tagGroups, tagAt_eq_some_iff.mpr ⟨_, htag'⟩]
      simp only [Option.map_some, Cursor.captures, hgroups, List.reverse_cons, List.reverse_nil,
        List.nil_append, List.singleton_append]
    · cases hsome

theorem IsTag.not_mem {indent digits rest t : List Char} (h : IsTag indent digits rest t) :
    ∃ w, t = w ++ rest ∧ w ≠ [] ∧ '\n' ∉ w := by
  obtain ⟨hindent, -, hhex, gap, q, hgap, hq, rfl⟩ := h
  refine ⟨_, rfl, by simp, ?_⟩
  simp only [List.mem_append, not_or]
  exact ⟨⟨⟨⟨not_mem_of_isBlank hindent, by decide⟩, not_mem_of_isBlank hgap⟩, not_mem_quote hq⟩,
    not_mem_of_isHex hhex⟩

theorem oneLine_newTagLine : OneLine newTagLine := by
  intro c d hmatch
  have hread := reads_of_matchK_some hmatch
  obtain ⟨-, indent, digits, line, htag, hline, -⟩ := reads_newTagLine hread
  obtain ⟨w, hafter, hbefore⟩ := hread.split
  obtain ⟨u, hu, hne, hnl⟩ := htag.not_mem
  have hw : w = u ++ line := by
    have hboth : w ++ d.after = u ++ line ++ d.after := by
      rw [← hafter, hu, List.append_assoc]
    exact List.append_cancel_right hboth
  refine ⟨w, hafter, hbefore, ?_, ?_⟩
  · rw [hw]
    exact List.append_ne_nil_of_left_ne_nil hne line
  · rw [hw, List.mem_append, not_or]
    exact ⟨hnl, hline⟩

/-! ## The block -/

/-- A line of the comment under a pin. -/
def IsComment (line : List Char) : Prop :=
  ∃ pad rest, pad ≠ [] ∧ (∀ x ∈ pad, isBlank x = true) ∧ line = pad ++ '#' :: rest ∧ '\n' ∉ rest

/-- The lines under another one. -/
def under (lines : List (List Char)) : List Char :=
  lines.flatMap (fun line => '\n' :: line)

/-- A pin line and the comment under it. -/
def IsBlock (indent digits block : List Char) : Prop :=
  ∃ tail comments, IsTag indent digits (tail ++ under comments) block ∧ '\n' ∉ tail ∧
    ∀ line ∈ comments, IsComment line

/-- One line of the comment, as `NEW_TAG_BLOCK` has it. -/
def commentLine : Regex :=
  seqs [chr isNewline, plus (chr isBlank), lit "#", restOfLine]

theorem matchK_restOfLine {k : Cursor → Option Cursor} {line : List Char}
    (hpass : c.Passes line c') (hline : ∀ x ∈ line, decide (x ≠ '\n') = true)
    (hend : ∀ x ∈ c'.after.head?, x = '\n') (hk : (k c').isSome) :
    restOfLine.matchK c k = k c' := by
  refine matchK_rep_chr_of_run hpass hline (fun x hx => ?_) (Nat.zero_le _) hk
  rw [hend x hx]
  rfl

/-- The comment is read line by line. -/
theorem passes_comments {fuel : Nat} {d : Cursor} (hend : ∀ x ∈ c.after.head?, x = '\n')
    (h : loop commentLine.matchK true some fuel 0 none c = some d) :
    ∃ comments, c.Passes (under comments) d ∧ (∀ line ∈ comments, IsComment line) ∧
      ∀ x ∈ d.after.head?, x = '\n' := by
  induction fuel generalizing c with
  | zero =>
      cases h
      exact ⟨[], Cursor.Passes.refl _, by simp, hend⟩
  | succ fuel ih =>
      rw [loop_greedy_succ] at h
      rcases Option.or_eq_some_iff.mp h with hmore | ⟨-, hstop⟩
      · have hsplit := matchK_seqs_append [chr isNewline, plus (chr isBlank), lit "#"]
          [restOfLine] (c := c) (k := fun c' =>
            if c'.after.length < c.after.length then
              loop commentLine.matchK true some fuel 0 none c' else none)
        obtain ⟨c₁, hread, hrest⟩ := reads_of_matchK (hsplit ▸ hmore)
        simp only [reads_seqs_cons, reads_seqs_nil, reads_chr_iff, reads_plus_chr_iff,
          reads_lit_iff] at hread
        obtain ⟨c₂, ⟨x, h₂, hx⟩, c₃, ⟨b, pad, h₃, hb, hpad⟩, c₄, h₄, rfl⟩ := hread
        obtain rfl : x = '\n' := of_decide_eq_true hx
        obtain ⟨line, c', h₅, hline, hend'⟩ := exists_passes_line c₁
        have hpass := h₂.trans (h₃.trans (h₄.trans h₅))
        have hshorter : c'.after.length < c.after.length := by
          rw [hpass.after]
          simp only [List.length_append, List.length_cons]
          omega
        change restOfLine.matchK c₁ _ = some d at hrest
        rw [matchK_restOfLine h₅ hline hend'] at hrest
        · change (if c'.after.length < c.after.length then
            loop commentLine.matchK true some fuel 0 none c' else none) = some d at hrest
          rw [if_pos hshorter] at hrest
          obtain ⟨comments, hpass', hcomments, hlast⟩ := ih hend' hrest
          refine ⟨((b :: pad) ++ '#' :: line) :: comments, ?_, ?_, hlast⟩
          · have hall := hpass.trans hpass'
            have htext : ['\n'] ++ (b :: pad ++ ("#".toList ++ line)) ++ under comments =
                under (((b :: pad) ++ '#' :: line) :: comments) := by
              unfold under
              rw [List.flatMap_cons]
              rfl
            rwa [htext] at hall
          · rw [List.forall_mem_cons]
            exact ⟨⟨b :: pad, line, List.cons_ne_nil _ _, List.forall_mem_cons.mpr ⟨hb, hpad⟩, rfl,
              not_mem_of_ne_newline hline⟩, hcomments⟩
        · change (if c'.after.length < c.after.length then
            loop commentLine.matchK true some fuel 0 none c' else none).isSome
          rw [if_pos hshorter]
          exact isSome_loop_greedy
      · cases hstop
        exact ⟨[], Cursor.Passes.refl _, by simp, hend⟩

/-- What `NEW_TAG_BLOCK` matches. -/
theorem match_newTagBlock {d : Cursor} (h : newTagBlock.matchK c some = some d) :
    atLine c.before = true ∧ ∃ indent digits block, c.Passes block d ∧
      IsBlock indent digits block ∧ ∀ x ∈ d.after.head?, x = '\n' := by
  have hsplit := matchK_seqs_append
    [lineStart, blanks, lit "newTag:", blanks, quote, hex40, quote]
    [restOfLine, star commentLine] (c := c) (k := some)
  have hmatch : (seqs ([lineStart, blanks, lit "newTag:", blanks, quote, hex40, quote] ++
      [restOfLine, star commentLine])).matchK c some = some d := h
  rw [hsplit] at hmatch
  obtain ⟨c₇, hread, hrest⟩ := reads_of_matchK hmatch
  simp only [reads_seqs_cons, reads_seqs_nil, lineStart, blanks, reads_look_iff,
    reads_star_chr_iff, reads_lit_iff, reads_quote_iff, reads_hex40_iff] at hread
  obtain ⟨c₀, ⟨hat, hc₀⟩, c₁, ⟨indent, h₁, hindent⟩, c₂, h₂, c₃, ⟨gap, h₃, hgap⟩, c₄, ⟨q, hq, h₄⟩,
    c₅, ⟨digits, h₅, hlength, hhex⟩, c₆, ⟨q', hq', h₆⟩, rfl⟩ := hread
  obtain rfl := hc₀.symm
  obtain ⟨line, c₈, h₇, hline, hend⟩ := exists_passes_line c₇
  change restOfLine.matchK c₇ (fun c' => (star commentLine).matchK c' some) = some d at hrest
  have hstar : ((star commentLine).matchK c₈ some).isSome := isSome_loop_greedy
  rw [matchK_restOfLine (k := fun c' => (star commentLine).matchK c' some) h₇ hline hend
    hstar] at hrest
  obtain ⟨comments, h₈, hcomments, hlast⟩ := passes_comments hend hrest
  refine ⟨hat, indent, digits, _, h₁.trans (h₂.trans (h₃.trans (h₄.trans (h₅.trans (h₆.trans
    (h₇.trans h₈)))))), ⟨q' ++ line, comments, ⟨hindent, hlength, hhex, gap, q, hgap, hq, ?_⟩, ?_,
    hcomments⟩, hlast⟩
  · simp only [List.append_assoc]
  · rw [List.mem_append, not_or]
    exact ⟨not_mem_quote hq', not_mem_of_ne_newline hline⟩

theorem exists_reads_newTagBlock {indent digits rest : List Char} (hat : atLine c.before = true)
    (h : IsTag indent digits rest c.after) : ∃ c', Reads newTagBlock c c' := by
  obtain ⟨hindent, hlength, hhex, gap, q, hgap, hq, hafter⟩ := h
  simp only [List.append_assoc] at hafter
  obtain ⟨c₁, h₁, hc₁⟩ := Cursor.exists_passes hafter
  obtain ⟨c₂, h₂, hc₂⟩ := Cursor.exists_passes hc₁
  obtain ⟨c₃, h₃, hc₃⟩ := Cursor.exists_passes hc₂
  obtain ⟨c₄, h₄, hc₄⟩ := Cursor.exists_passes hc₃
  obtain ⟨c₅, h₅, -⟩ := Cursor.exists_passes hc₄
  refine ⟨c₅, ?_⟩
  simp only [newTagBlock, reads_seqs_cons, reads_seqs_nil, lineStart, blanks, restOfLine,
    dot, reads_look_iff, reads_star_chr_iff, reads_lit_iff, reads_quote_iff, reads_hex40_iff]
  exact ⟨c, ⟨hat, rfl⟩, c₁, ⟨indent, h₁, hindent⟩, c₂, h₂, c₃, ⟨gap, h₃, hgap⟩, c₄, ⟨q, hq, h₄⟩,
    c₅, ⟨digits, h₅, hlength, hhex⟩, c₅, ⟨[], .inl rfl, Cursor.Passes.refl _⟩, c₅,
    ⟨[], Cursor.Passes.refl _, by simp⟩, c₅, .stop, rfl⟩

theorem isTag_of_isBlock {indent digits block below : List Char}
    (h : IsBlock indent digits block) : ∃ rest, IsTag indent digits rest (block ++ below) := by
  obtain ⟨tail, comments, ⟨hindent, hlength, hhex, gap, q, hgap, hq, rfl⟩, -, -⟩ := h
  refine ⟨tail ++ under comments ++ below, hindent, hlength, hhex, gap, q, hgap, hq, ?_⟩
  simp only [List.append_assoc]

theorem tagAt_block {indent digits block below : List Char} (h : IsBlock indent digits block) :
    tagAt (block ++ below) = some (indent, digits) :=
  tagAt_eq_some_iff.mpr (isTag_of_isBlock h)

/-- The block is searched where the line is. -/
theorem lineValued_newTagBlock :
    LineValued newTagBlock (fun m => m.1.after)
      (fun t => if (tagAt t).isSome then some t else none) := by
  intro before after
  dsimp only
  cases hmatch : newTagBlock.matchK ⟨before, after, []⟩ some with
  | some d =>
      obtain ⟨hat, indent, digits, block, hpass, hblock, -⟩ := match_newTagBlock hmatch
      dsimp only at hat
      have hafter : after = block ++ d.after := hpass.after
      rw [if_pos hat, hafter, tagAt_block hblock]
      rfl
  | none =>
      split
      · rename_i hat
        split
        · rename_i htag
          obtain ⟨⟨indent, digits⟩, htag⟩ := Option.isSome_iff_exists.mp htag
          obtain ⟨rest, hrest⟩ := tagAt_eq_some_iff.mp htag
          obtain ⟨c', hread⟩ := exists_reads_newTagBlock (c := ⟨before, after, []⟩) hat hrest
          exact absurd hread (matchK_some_eq_none_iff.mp hmatch c')
        · rfl
      · rfl

end Writing

end ReleasePin

end HermesCluster
