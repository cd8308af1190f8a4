import HermesCluster.Core.PinBlocks
/-!
# Reading past a pin line

What the reader finds above a pin line does not depend on what that line says: it
comes to a place above it, or to the line itself, or looks further down.
-/

namespace HermesCluster

namespace ReleasePin

open Regex

/-! ## Closed lines -/

/-- The last line of the text is ended. -/
def EndsLine (a : List Char) : Prop :=
  ∀ x ∈ a.getLast?, x = '\n'

theorem endsLine_nil : EndsLine [] := by
  rintro x ⟨⟩

theorem EndsLine.of_append {w a : List Char} (h : EndsLine (w ++ a)) : EndsLine a := by
  intro x hx
  refine h x ?_
  rw [List.getLast?_append, hx]
  rfl

theorem endsLine_iff {a : List Char} : EndsLine a ↔ a = [] ∨ ∃ w, a = w ++ ['\n'] := by
  constructor
  · intro h
    rcases List.eq_nil_or_concat' a with rfl | ⟨w, x, rfl⟩
    · exact .inl rfl
    · refine .inr ⟨w, ?_⟩
      rw [h x (by rw [List.getLast?_concat]; rfl)]
  · rintro (rfl | ⟨w, rfl⟩)
    · exact endsLine_nil
    · intro x hx
      rw [List.getLast?_concat] at hx
      exact (Option.some.inj hx).symm

theorem EndsLine.append {a b : List Char} (ha : EndsLine a) (hb : EndsLine b) :
    EndsLine (a ++ b) := by
  rcases endsLine_iff.mp hb with rfl | ⟨w, rfl⟩
  · rwa [List.append_nil]
  · exact endsLine_iff.mpr (.inr ⟨a ++ w, (List.append_assoc a w _).symm⟩)

theorem EndsLine.mem_newline {a : List Char} (h : EndsLine a) (hne : a ≠ []) : '\n' ∈ a := by
  rcases endsLine_iff.mp h with rfl | ⟨w, rfl⟩
  · exact absurd rfl hne
  · simp

theorem atLine_reverse {a : List Char} (h : atLine a.reverse = true) : EndsLine a := by
  intro x hx
  unfold atLine at h
  rw [List.head?_reverse, hx, Option.all_some, decide_eq_true_eq] at h
  exact h

theorem mem_lineStarts_iff {s t : List Char} :
    t ∈ lineStarts s ↔ ∃ w, EndsLine w ∧ s = w ++ t := by
  unfold lineStarts
  rw [List.mem_cons, mem_breaks_iff]
  constructor
  · rintro (rfl | ⟨w, rfl⟩)
    · exact ⟨[], endsLine_nil, rfl⟩
    · exact ⟨w ++ ['\n'], endsLine_iff.mpr (.inr ⟨w, rfl⟩), by simp⟩
  · rintro ⟨w, hw, rfl⟩
    rcases endsLine_iff.mp hw with rfl | ⟨w, rfl⟩
    · exact .inl rfl
    · exact .inr ⟨w, by simp⟩

theorem EndsLine.of_mem_lineStarts {a b : List Char} (h : EndsLine a) (hb : b ∈ lineStarts a) :
    EndsLine b := by
  obtain ⟨w, -, rfl⟩ := mem_lineStarts_iff.mp hb
  exact h.of_append

theorem EndsLine.nil_mem {a : List Char} (h : EndsLine a) : [] ∈ lineStarts a :=
  mem_lineStarts_iff.mpr ⟨a, h, (List.append_nil a).symm⟩

theorem dropWord_append_of_endsLine {w a y : List Char} (h : EndsLine a) (hne : a ≠ [])
    (hw : '\n' ∉ w) : dropWord w (a ++ y) = (dropWord w a).map (· ++ y) := by
  cases ha : dropWord w a with
  | some t =>
      rw [dropWord_eq_some_iff] at ha
      rw [ha, List.append_assoc, dropWord_append, Option.map_some]
  | none =>
      cases hay : dropWord w (a ++ y) with
      | none => rfl
      | some t =>
          rw [dropWord_eq_some_iff] at hay
          rcases List.append_eq_append_iff.mp hay with ⟨v, rfl, -⟩ | ⟨v, rfl, -⟩
          · exact absurd (List.mem_append_left v (h.mem_newline hne)) hw
          · rw [dropWord_append] at ha
            cases ha

section Closed

variable {a : List Char}

theorem dropWhile_isBlank_append {y : List Char} (h : EndsLine a)
    (hne : a ≠ []) :
    (a ++ y).dropWhile isBlank = a.dropWhile isBlank ++ y ∧ a.dropWhile isBlank ≠ [] := by
  have hnil : a.dropWhile isBlank ≠ [] := by
    intro hnil
    have hblank := List.dropWhile_eq_nil_iff.mp hnil _ (h.mem_newline hne)
    cases hblank
  refine ⟨?_, hnil⟩
  rw [List.dropWhile_append, if_neg]
  rwa [List.isEmpty_iff]

theorem EndsLine.dropWhile {q : Char → Bool} (h : EndsLine a) : EndsLine (a.dropWhile q) := by
  obtain ⟨w, hw⟩ := List.dropWhile_suffix q (l := a)
  rw [← hw] at h
  exact h.of_append

theorem EndsLine.dropWord {w t : List Char} (h : EndsLine a) (ht : dropWord w a = some t) :
    EndsLine t := by
  rw [dropWord_eq_some_iff] at ht
  rw [ht] at h
  exact h.of_append

end Closed

/-- The text begins with a line that the writer takes for the pin. -/
def Tagged (y : List Char) : Prop :=
  ∃ indent digits rest, IsTag indent digits rest y

theorem asciiLowerChar_of_isHex {c : Char} (h : isHex c = true) :
    Unicode.asciiLowerChar c = c := by
  unfold Unicode.asciiLowerChar
  refine if_neg (fun hc => ?_)
  have hsmall := isHexI_lt (isHex_facts h).2.2.1
  have hall : (!(isHex c && ('A' ≤ c && c ≤ 'Z'))) = true :=
    char_of_lt (q := fun c => !(isHex c && ('A' ≤ c && c ≤ 'Z'))) (by decide) hsmall
  rw [h, Bool.true_and, decide_eq_true hc.1, decide_eq_true hc.2] at hall
  cases hall

theorem isHexI_asciiLowerChar {c : Char} (h : isHexI c = true) :
    isHexI (Unicode.asciiLowerChar c) = true := by
  have hall : (!isHexI c || isHexI (Unicode.asciiLowerChar c)) = true :=
    char_of_lt (q := fun c => !isHexI c || isHexI (Unicode.asciiLowerChar c)) (by decide)
      (isHexI_lt h)
  rwa [h, Bool.not_true, Bool.false_or] at hall

section Reading

variable [AsciiSpaces]

theorem Tagged.dropWhile_isSpace {y : List Char} (h : Tagged y) :
    ∃ rest, y.dropWhile Unicode.isSpace = "newTag:".toList ++ rest := by
  obtain ⟨indent, digits, rest, hindent, -, -, gap, q, -, -, rfl⟩ := h
  refine ⟨gap ++ (q ++ (digits ++ rest)), ?_⟩
  simp only [List.append_assoc]
  refine dropWhile_append_of_head (fun x hx => isSpace_of_isBlank (hindent x hx)) ?_
  rintro x ⟨⟩
  exact not_isSpace_graphic (by decide) (by decide)

theorem Tagged.digitsAt {y : List Char} {indent digits rest : List Char}
    (h : IsTag indent digits rest y) : digitsAt y = some (digits ++ rest) := by
  obtain ⟨hindent, hlength, hhex, gap, q, hgap, hq, rfl⟩ := h
  obtain ⟨x, xs, rfl⟩ : ∃ x xs, digits = x :: xs := List.exists_cons_of_length_pos (by omega)
  refine digitsAt_eq_some_iff.mpr ⟨indent, gap, q, hindent,
    fun x hx => isSpace_of_isBlank (hgap x hx), hq, ?_, ?_⟩
  · simp only [List.append_assoc]
  · exact (isHex_facts (hhex x List.mem_cons_self)).2.2.1

theorem Tagged.hasText {y : List Char} (h : Tagged y) : hasText y = true := by
  obtain ⟨indent, digits, rest, hindent, -, -, gap, q, -, -, rfl⟩ := h
  unfold ReleasePin.hasText
  simp only [List.append_assoc]
  rw [dropWhile_append_of_head hindent (by rintro x ⟨⟩; rfl)]
  change (!Unicode.isSpace 'n') = true
  rw [not_isSpace_graphic (by decide) (by decide)]
  rfl

/-! ## What the reader sees of closed lines -/

variable {a y : List Char}

theorem dropWhile_isSpace_append (hy : Tagged y) :
    a.dropWhile Unicode.isSpace = [] ∧
        (∃ rest, (a ++ y).dropWhile Unicode.isSpace = "newTag:".toList ++ rest) ∨
      a.dropWhile Unicode.isSpace ≠ [] ∧
        (a ++ y).dropWhile Unicode.isSpace = a.dropWhile Unicode.isSpace ++ y := by
  rw [List.dropWhile_append]
  by_cases hnil : a.dropWhile Unicode.isSpace = []
  · rw [hnil]
    exact .inl ⟨rfl, hy.dropWhile_isSpace⟩
  · refine .inr ⟨hnil, ?_⟩
    rw [if_neg]
    rwa [List.isEmpty_iff]

theorem word_append {w : String} (h : EndsLine a) (hy : Tagged y) (hne : w.toList ≠ [])
    (hw : '\n' ∉ w.toList)
    (htag : ∀ rest, ReleasePin.dropWord w.toList ("newTag:".toList ++ rest) = none) :
    word w (a ++ y) = (word w a).map (· ++ y) := by
  unfold word
  rcases dropWhile_isSpace_append (a := a) hy with ⟨hnil, rest, hrest⟩ | ⟨hsome, happend⟩
  · have hnone : ReleasePin.dropWord w.toList [] = none := by
      cases hdrop : ReleasePin.dropWord w.toList [] with
      | none => rfl
      | some t =>
          rw [dropWord_eq_some_iff] at hdrop
          exact absurd (List.append_eq_nil_iff.mp hdrop.symm).1 hne
    rw [hnil, hrest, htag, hnone]
    rfl
  · rw [happend]
    exact dropWord_append_of_endsLine h.dropWhile hsome hw

theorem EndsLine.word {w : String} {t : List Char} (h : EndsLine a) (ht : word w a = some t) :
    EndsLine t :=
  h.dropWhile.dropWord ht

theorem afterName_append (h : EndsLine a) (hy : Tagged y) :
    afterName (a ++ y) = (afterName a).map (· ++ y) := by
  unfold afterName
  rw [word_append h hy (by decide) (by decide) (fun _ => rfl)]
  cases hdash : ReleasePin.word "-" a with
  | none => rfl
  | some a₁ =>
      have h₁ := h.word hdash
      rw [Option.map_some, Option.bind_some, Option.bind_some,
        word_append h₁ hy (by decide) (by decide) (fun _ => rfl)]
      cases hname : ReleasePin.word "name:" a₁ with
      | none => rfl
      | some a₂ =>
          rw [Option.map_some, Option.bind_some, Option.bind_some]
          exact word_append (h₁.word hname) hy (by decide) (by decide) (fun _ => rfl)

theorem EndsLine.afterName {t : List Char} (h : EndsLine a) (ht : afterName a = some t) :
    EndsLine t := by
  unfold ReleasePin.afterName at ht
  obtain ⟨t₂, ht₂, himage⟩ := Option.bind_eq_some_iff.mp ht
  obtain ⟨t₁, hdash, hname⟩ := Option.bind_eq_some_iff.mp ht₂
  exact ((h.word hdash).word hname).word himage

theorem hasText_append (h : EndsLine a) (hy : Tagged y) :
    hasText (a ++ y) = (a.isEmpty || hasText a) := by
  by_cases hne : a = []
  · subst hne
    exact hy.hasText
  · obtain ⟨happend, hnil⟩ := dropWhile_isBlank_append (y := y) h hne
    unfold hasText
    rw [happend, List.head?_append_of_ne_nil _ hnil]
    cases a with
    | nil => exact absurd rfl hne
    | cons x a => rfl

theorem isIndented_append (h : EndsLine a) (hne : a ≠ []) (hy : Tagged y) :
    isIndented (a ++ y) = isIndented a := by
  unfold isIndented
  rw [hasText_append h hy, List.head?_append_of_ne_nil _ hne]
  cases a with
  | nil => exact absurd rfl hne
  | cons x a => rfl

theorem digitsAt_append (h : EndsLine a) (hne : a ≠ []) (hy : Tagged y) :
    digitsAt (a ++ y) = (digitsAt a).map (· ++ y) := by
  obtain ⟨happend, hnil⟩ := dropWhile_isBlank_append (y := y) h hne
  unfold digitsAt
  rw [happend, dropWord_append_of_endsLine h.dropWhile hnil (by decide)]
  cases hword : ReleasePin.dropWord "newTag:".toList (a.dropWhile isBlank) with
  | none => rfl
  | some b =>
      have hb : EndsLine b := h.dropWhile.dropWord hword
      rw [Option.map_some, Option.map_some, Option.map_some]
      rcases dropWhile_isSpace_append (a := b) hy with ⟨hspace, rest, hrest⟩ | ⟨hsome, happend⟩
      · rw [hspace, hrest]
        rfl
      · rw [happend]
        have hclosed : EndsLine (b.dropWhile Unicode.isSpace) := hb.dropWhile
        generalize b.dropWhile Unicode.isSpace = d at hsome hclosed
        have hquote : unquote (d ++ y) = unquote d ++ y ∧ unquote d ≠ [] := by
          cases d with
          | nil => exact absurd rfl hsome
          | cons x d =>
              rw [List.cons_append]
              simp only [unquote]
              by_cases hx : isQuote x = true
              · rw [if_pos hx, if_pos hx]
                refine ⟨rfl, ?_⟩
                rintro rfl
                have hnl := hclosed x rfl
                rw [hnl] at hx
                cases hx
              · rw [if_neg hx, if_neg hx]
                exact ⟨rfl, List.cons_ne_nil _ _⟩
        have hhead : (unquote d ++ y).head? = (unquote d).head? :=
          List.head?_append_of_ne_nil _ hquote.2
        rw [hquote.1]
        simp only [Option.filter_some, hhead]
        split
        · rfl
        · rfl

/-- Whatever tagged text follows, the reading comes to nothing, or to the same place
above it or at its beginning. -/
def Settled (f : List Char → Option (List Char)) : Prop :=
  (∀ y, Tagged y → f y = none) ∨
    ∃ a, EndsLine a ∧ ∀ y, Tagged y → f y = some (a ++ y)

theorem nextLine_tagged (hy : Tagged y) : nextLine y = none := by
  obtain ⟨indent, digits, rest, hindent, -, -, gap, q, -, -, rfl⟩ := hy
  simp only [List.append_assoc]
  induction indent with
  | nil => exact if_pos (not_isSpace_graphic (by decide) (by decide))
  | cons x indent ih =>
      rw [List.forall_mem_cons] at hindent
      have hspace : ¬Unicode.isSpace x = false := by
        rw [isSpace_of_isBlank hindent.1]
        exact Bool.noConfusion
      have hnl : x ≠ '\n' := by
        rintro rfl
        cases hindent.1
      rw [List.cons_append, nextLine, if_neg hspace, if_neg (fun hboth => hnl hboth.1)]
      exact ih hindent.2

theorem nextLine_settled (h : EndsLine a) : Settled (fun y => nextLine (a ++ y)) := by
  induction a with
  | nil => exact .inl (fun y hy => nextLine_tagged hy)
  | cons x a ih =>
      have ha : EndsLine a := h.of_append (w := [x])
      by_cases hx : Unicode.isSpace x = false
      · exact .inl (fun y _ => if_pos hx)
      · by_cases hhere : x = '\n' ∧ (a.isEmpty || hasText a) = true
        · refine .inr ⟨a, ha, fun y hy => ?_⟩
          change (if Unicode.isSpace x = false then none
            else if x = '\n' ∧ hasText (a ++ y) = true then some (a ++ y)
            else nextLine (a ++ y)) = _
          rw [if_neg hx, hasText_append ha hy, if_pos hhere]
        · have hskip : ∀ y, Tagged y → nextLine (x :: a ++ y) = nextLine (a ++ y) := by
            intro y hy
            change (if Unicode.isSpace x = false then none
              else if x = '\n' ∧ hasText (a ++ y) = true then some (a ++ y)
              else nextLine (a ++ y)) = _
            rw [if_neg hx, hasText_append ha hy, if_neg hhere]
          rcases ih ha with hnone | ⟨b, hb, hsome⟩
          · exact .inl (fun y hy => (hskip y hy).trans (hnone y hy))
          · exact .inr ⟨b, hb, fun y hy => (hskip y hy).trans (hsome y hy)⟩

theorem followTag_settled (lines : List (List Char)) (hlines : ∀ b ∈ lines, EndsLine b)
    (hnil : [] ∈ lines) (rest : List Char → List (List Char)) :
    Settled (fun y => followTag (lines.map (· ++ y) ++ rest y)) := by
  induction lines with
  | nil => cases hnil
  | cons b lines ih =>
      rw [List.forall_mem_cons] at hlines
      by_cases hb : b = []
      · subst hb
        refine .inr ⟨[], endsLine_nil, fun y hy => ?_⟩
        obtain ⟨indent, digits, rest', htag⟩ := hy
        change (if (digitsAt y).isSome then some y else _) = some y
        rw [Tagged.digitsAt htag]
        rfl
      · have hrest : [] ∈ lines :=
          (List.mem_cons.mp hnil).resolve_left (fun hempty => hb hempty.symm)
        have hstep : ∀ y, Tagged y → followTag ((b :: lines).map (· ++ y) ++ rest y) =
            if (digitsAt b).isSome then some (b ++ y)
            else if isIndented b then followTag (lines.map (· ++ y) ++ rest y) else none := by
          intro y hy
          rw [List.map_cons, List.cons_append, followTag, digitsAt_append hlines.1 hb hy,
            isIndented_append hlines.1 hb hy, Option.isSome_map]
        by_cases hdigits : (digitsAt b).isSome = true
        · refine .inr ⟨b, hlines.1, fun y hy => ?_⟩
          dsimp only
          rw [hstep y hy, if_pos hdigits]
        · by_cases hindented : isIndented b = true
          · have hskip : ∀ y, Tagged y → followTag ((b :: lines).map (· ++ y) ++ rest y) =
                followTag (lines.map (· ++ y) ++ rest y) := by
              intro y hy
              rw [hstep y hy, if_neg hdigits, if_pos hindented]
            rcases ih hlines.2 hrest with hnone | ⟨b', hb', hsome⟩
            · exact .inl (fun y hy => (hskip y hy).trans (hnone y hy))
            · exact .inr ⟨b', hb', fun y hy => (hskip y hy).trans (hsome y hy)⟩
          · refine .inl (fun y hy => ?_)
            dsimp only
            rw [hstep y hy, if_neg hdigits, if_neg hindented]

theorem itemTag_settled (h : EndsLine a) : Settled (fun y => itemTag (a ++ y)) := by
  unfold itemTag
  cases hname : afterName a with
  | none =>
      refine .inl (fun y hy => ?_)
      dsimp only
      rw [afterName_append h hy, hname]
      rfl
  | some b =>
      have hb := h.afterName hname
      have hstep : ∀ y, Tagged y → (afterName (a ++ y)).bind nextLine = nextLine (b ++ y) := by
        intro y hy
        rw [afterName_append h hy, hname, Option.map_some, Option.bind_some]
      rcases nextLine_settled hb with hnone | ⟨d, hd, hsome⟩
      · refine .inl (fun y hy => ?_)
        dsimp only
        have hnext : nextLine (b ++ y) = none := hnone y hy
        rw [hstep y hy, hnext]
        rfl
      · have hlines : ∀ y, Tagged y → ((afterName (a ++ y)).bind nextLine).bind
            (fun body => followTag (lineStarts body)) =
              followTag ((lineStarts d).map (· ++ y) ++ breaks y) := by
          intro y hy
          have hnext : nextLine (b ++ y) = some (d ++ y) := hsome y hy
          rw [hstep y hy, hnext, Option.bind_some, lineStarts_append]
        have hfollow := followTag_settled (lineStarts d)
          (fun b hb => hd.of_mem_lineStarts hb) hd.nil_mem breaks
        rcases hfollow with hnone | ⟨b', hb', hsome'⟩
        · exact .inl (fun y hy => (hlines y hy).trans (hnone y hy))
        · exact .inr ⟨b', hb', fun y hy => (hlines y hy).trans (hsome' y hy)⟩

/-- Under closed lines the reader comes to the same place, or finds nothing in them
and looks further down. -/
theorem mainTag_append (h : EndsLine a) :
    (∃ b, EndsLine b ∧ ∀ y, Tagged y → mainTag (a ++ y) = some (b ++ y)) ∨
      ∀ y, Tagged y → mainTag (a ++ y) = (breaks y).findSome? itemTag := by
  have hlines : ∀ lines : List (List Char), (∀ b ∈ lines, EndsLine b) →
      (∃ b, EndsLine b ∧ ∀ y, Tagged y →
        (lines.map (· ++ y) ++ breaks y).findSome? itemTag = some (b ++ y)) ∨
      ∀ y, Tagged y → (lines.map (· ++ y) ++ breaks y).findSome? itemTag =
        (breaks y).findSome? itemTag := by
    intro lines hall
    induction lines with
    | nil => exact .inr (fun y _ => rfl)
    | cons d lines ih =>
        rw [List.forall_mem_cons] at hall
        rcases itemTag_settled hall.1 with hnone | ⟨b, hb, hsome⟩
        · have hskip : ∀ y, Tagged y → ((d :: lines).map (· ++ y) ++ breaks y).findSome? itemTag =
              (lines.map (· ++ y) ++ breaks y).findSome? itemTag := by
            intro y hy
            have hhere : itemTag (d ++ y) = none := hnone y hy
            rw [List.map_cons, List.cons_append, List.findSome?_cons, hhere]
          rcases ih hall.2 with ⟨b, hb, hsome⟩ | hbelow
          · exact .inl ⟨b, hb, fun y hy => (hskip y hy).trans (hsome y hy)⟩
          · exact .inr (fun y hy => (hskip y hy).trans (hbelow y hy))
        · refine .inl ⟨b, hb, fun y hy => ?_⟩
          have hhere : itemTag (d ++ y) = some (b ++ y) := hsome y hy
          rw [List.map_cons, List.cons_append, List.findSome?_cons, hhere]
  have hstart : ∀ y, mainTag (a ++ y) =
      ((lineStarts a).map (· ++ y) ++ breaks y).findSome? itemTag := by
    intro y
    rw [mainTag, lineStarts_append]
  simp only [hstart]
  exact hlines (lineStarts a) (fun b hb => h.of_mem_lineStarts hb)

/-- The commit id of a line above the tagged text does not depend on that text. -/
theorem shaOf_append (h : EndsLine a) (hne : a ≠ []) {y y' : List Char} (hy : Tagged y)
    (hy' : Tagged y') : shaOf (a ++ y) = shaOf (a ++ y') := by
  have hdigits : ∀ z, Tagged z → digitsOf (a ++ z) = digitsOf a := by
    intro z hz
    unfold digitsOf
    rw [digitsAt_append h hne hz]
    cases hd : digitsAt a with
    | none => rfl
    | some d =>
        obtain ⟨w, ws, q, -, -, -, rfl, hhead⟩ := digitsAt_eq_some_iff.mp hd
        have hclosed : EndsLine d := h.of_append
        have hne' : d ≠ [] := by
          rintro rfl
          cases hhead
        rw [Option.map_some, Option.map_some, Option.map_some]
        congr 1
        rw [List.takeWhile_append, if_neg]
        intro hall
        have hrun : d.takeWhile isHexI = d :=
          (List.takeWhile_prefix isHexI).eq_of_length hall
        have hnl := hclosed.mem_newline hne'
        rw [← hrun] at hnl
        cases List.mem_takeWhile_imp hnl
  unfold shaOf
  rw [hdigits y hy, hdigits y' hy']

/-- The reader takes the digits of a pin line, if no further digit follows them. -/
theorem shaOf_tag {indent digits rest : List Char} (h : IsTag indent digits rest y) :
    shaOf y = if rest.head?.any isHexI then none else some (String.ofList digits) := by
  have hall : ∀ x ∈ digits, isHexI x = true := fun x hx => (isHex_facts (h.hex x hx)).2.2.1
  have hdigits : digitsOf y = some (digits ++ rest.takeWhile isHexI) := by
    unfold digitsOf
    rw [Tagged.digitsAt h, Option.map_some, List.takeWhile_append_of_pos hall]
  have hrun : ∀ x ∈ digits ++ rest.takeWhile isHexI, isHexI x = true := by
    rw [List.forall_mem_append]
    exact ⟨hall, fun x hx => List.mem_takeWhile_imp hx⟩
  have hlower : asciiLower (String.ofList (digits ++ rest.takeWhile isHexI)) =
      String.ofList (digits ++ (rest.takeWhile isHexI).map Unicode.asciiLowerChar) := by
    unfold asciiLower
    have hsame : digits.map Unicode.asciiLowerChar = digits.map id :=
      List.map_congr_left (fun x hx => asciiLowerChar_of_isHex (h.hex x hx))
    rw [String.toList_ofList, List.map_append, hsame, List.map_id]
  unfold shaOf
  rw [hdigits, Option.bind_some, hlower]
  have hlowered : ∀ x ∈ digits ++ (rest.takeWhile isHexI).map Unicode.asciiLowerChar,
      isHexI x = true := by
    rw [List.forall_mem_append]
    refine ⟨hall, fun x hx => ?_⟩
    obtain ⟨z, hz, rfl⟩ := List.mem_map.mp hx
    exact isHexI_asciiLowerChar (List.mem_takeWhile_imp hz)
  have hfull := isSome_fullSha_iff hlowered
  cases rest with
  | nil =>
      have hsome : (fullShaRe.matchStart (String.ofList digits)).isSome = true := by
        have hiff := hfull
        rw [List.takeWhile_nil, List.map_nil, List.append_nil] at hiff
        exact hiff.mpr ⟨h.length, h.hex⟩
      rw [List.takeWhile_nil, List.map_nil, List.append_nil]
      dsimp only
      rw [if_pos hsome]
      rfl
  | cons x rest =>
      rw [List.head?_cons, Option.any_some]
      by_cases hx : isHexI x = true
      · rw [if_pos hx]
        rw [List.takeWhile_cons_of_pos hx] at hfull ⊢
        refine if_neg (fun hsome => ?_)
        have hlength := (hfull.mp hsome).1
        rw [List.length_append, h.length, List.map_cons, List.length_cons] at hlength
        omega
      · rw [if_neg hx]
        rw [List.takeWhile_cons_of_neg hx, List.map_nil, List.append_nil] at hfull ⊢
        exact if_pos (hfull.mpr ⟨h.length, h.hex⟩)

end Reading

end ReleasePin

end HermesCluster
