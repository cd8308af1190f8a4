import HermesCluster.Core.PinPlaces
/-!
# What the release writer changes

Where `render_release_text` succeeds it has replaced the one pin line of the
manifest, and the comment under it, by new ones; and when it succeeds.
-/

namespace HermesCluster

namespace ReleasePin

open Regex

/-! ## The lines of a block -/

theorem tagAt_comment {line rest : List Char} (h : IsComment line) :
    tagAt (line ++ rest) = none := by
  obtain ⟨pad, text, -, hpad, rfl, -⟩ := h
  unfold tagAt
  rw [List.append_assoc, List.cons_append,
    dropWhile_append_of_head hpad (by rintro x ⟨⟩; rfl)]
  rfl

theorem itemTag_comment [AsciiSpaces] {line rest : List Char} (h : IsComment line) :
    itemTag (line ++ rest) = none := by
  obtain ⟨pad, text, -, hpad, rfl, -⟩ := h
  have hhash : Unicode.isSpace '#' = false := not_isSpace_graphic (by decide) (by decide)
  unfold itemTag afterName word
  rw [List.append_assoc, List.cons_append,
    dropWhile_append_of_head (fun x hx => isSpace_of_isBlank (hpad x hx))
      (by rintro x ⟨⟩; exact hhash)]
  rfl

theorem not_mem_comment {line : List Char} (h : IsComment line) : '\n' ∉ line := by
  obtain ⟨pad, text, -, hpad, rfl, htext⟩ := h
  rw [List.mem_append, List.mem_cons, not_or, not_or]
  exact ⟨not_mem_of_isBlank hpad, by decide, htext⟩

theorem mem_breaks_under {comments : List (List Char)} {z : List Char}
    (hcomments : ∀ line ∈ comments, IsComment line) (h : z ∈ breaks (under comments)) :
    ∃ line rest, IsComment line ∧ z = line ++ rest := by
  induction comments with
  | nil => cases h
  | cons line comments ih =>
      rw [List.forall_mem_cons] at hcomments
      have hbreaks : breaks (under (line :: comments)) =
          (line ++ under comments) :: breaks (under comments) := by
        unfold under
        rw [List.flatMap_cons, List.cons_append, breaks, if_pos rfl,
          breaks_append_of_not_mem (not_mem_comment hcomments.1)]
      rw [hbreaks, List.mem_cons] at h
      rcases h with rfl | h
      · exact ⟨line, _, hcomments.1, rfl⟩
      · exact ih hcomments.2 h

theorem mem_breaks_block {indent digits block z : List Char} (h : IsBlock indent digits block)
    (hz : z ∈ breaks block) : ∃ line rest, IsComment line ∧ z = line ++ rest := by
  obtain ⟨tail, comments, htag, htail, hcomments⟩ := h
  obtain ⟨w, rfl, -, hw⟩ := htag.not_mem
  rw [breaks_append_of_not_mem hw, breaks_append_of_not_mem htail] at hz
  exact mem_breaks_under hcomments hz

/-- A function of lines that knows no comment sees nothing in the rest of a block. -/
theorem findSome?_block {β : Type} {g : List Char → Option β} {indent digits block : List Char}
    (h : IsBlock indent digits block) (below : List Char)
    (hg : ∀ line rest, IsComment line → g (line ++ rest) = none) :
    (breaks (block ++ below)).findSome? g = (breaks below).findSome? g ∧
      (breaks (block ++ below)).filterMap g = (breaks below).filterMap g := by
  have hnone : ∀ z ∈ (breaks block).map (· ++ below), g z = none := by
    intro z hz
    obtain ⟨z', hz', rfl⟩ := List.mem_map.mp hz
    obtain ⟨line, rest, hline, rfl⟩ := mem_breaks_block h hz'
    rw [List.append_assoc]
    exact hg line _ hline
  rw [breaks_append, List.findSome?_append, List.filterMap_append,
    List.findSome?_eq_none_iff.mpr hnone, List.filterMap_eq_nil_iff.mpr hnone]
  exact ⟨rfl, rfl⟩

theorem not_endsLine_block {indent digits block : List Char} (h : IsBlock indent digits block) :
    ¬EndsLine block := by
  intro hclosed
  obtain ⟨tail, comments, htag, htail, hcomments⟩ := h
  obtain ⟨w, rfl, hne, hw⟩ := htag.not_mem
  rw [← List.append_assoc] at hclosed
  rcases List.eq_nil_or_concat' comments with rfl | ⟨comments, line, rfl⟩
  · have hmem := hclosed.mem_newline (by simp [hne])
    simp [under, hw, htail] at hmem
  · have hline := hcomments line (by simp)
    have hsplit : w ++ tail ++ under (comments ++ [line]) =
        (w ++ tail ++ under comments ++ ['\n']) ++ line := by
      unfold under
      simp
    rw [hsplit] at hclosed
    have hmem := hclosed.of_append.mem_newline (by
      obtain ⟨pad, text, -, -, rfl, -⟩ := hline
      simp)
    exact not_mem_comment hline hmem

/-! ## What the writer writes -/

theorem mem_splitNewlines {t piece : List Char} (h : piece ∈ splitNewlines t) : '\n' ∉ piece := by
  induction t generalizing piece with
  | nil =>
      rw [splitNewlines, List.mem_singleton] at h
      rw [h]
      exact List.not_mem_nil
  | cons c t ih =>
      rw [splitNewlines] at h
      split at h
      · rcases List.mem_cons.mp h with rfl | h
        · exact List.not_mem_nil
        · exact ih h
      · rename_i hc
        split at h
        · rw [List.mem_singleton] at h
          rw [h, List.mem_singleton]
          exact fun hnl => hc hnl.symm
        · rename_i line lines hlines
          rcases List.mem_cons.mp h with rfl | h
          · rw [List.mem_cons, not_or]
            refine ⟨fun hnl => hc hnl.symm, ih ?_⟩
            rw [hlines]
            exact List.mem_cons_self
          · refine ih ?_
            rw [hlines]
            exact List.mem_cons_of_mem _ h

theorem splitNewlines_ne_nil (t : List Char) : splitNewlines t ≠ [] := by
  cases t with
  | nil => exact List.cons_ne_nil _ _
  | cons c t =>
      rw [splitNewlines]
      split
      · exact List.cons_ne_nil _ _
      · split
        · exact List.cons_ne_nil _ _
        · exact List.cons_ne_nil _ _

theorem under_map_toList {lines : List String} (h : lines ≠ []) :
    under (lines.map String.toList) = '\n' :: (Text.join "\n" lines).toList := by
  induction lines with
  | nil => exact absurd rfl h
  | cons line lines ih =>
      cases lines with
      | nil =>
          unfold under Text.join
          simp
      | cons line' lines =>
          have hrest := ih (List.cons_ne_nil _ _)
          unfold under at hrest ⊢
          rw [List.map_cons, List.flatMap_cons, hrest, Text.join, String.toList_append,
            String.toList_append]
          simp

/-- Every line that `indent_comment` makes is a comment. -/
theorem indentComment_eq (lines : List String) (h : lines ≠ []) :
    ∃ comments, (∀ line ∈ comments, IsComment line) ∧
      '\n' :: (indentComment lines).toList = under comments := by
  let made := lines.flatMap (fun ln =>
    (splitNewlines ln.toList).map (fun piece => commentPad ++ String.ofList piece))
  have hmade : made ≠ [] := by
    obtain ⟨line, lines, rfl⟩ := List.exists_cons_of_ne_nil h
    obtain ⟨piece, pieces, hpieces⟩ :=
      List.exists_cons_of_ne_nil (splitNewlines_ne_nil line.toList)
    change List.flatMap _ (line :: lines) ≠ []
    rw [List.flatMap_cons, hpieces]
    exact List.cons_ne_nil _ _
  refine ⟨made.map String.toList, fun line hline => ?_, (under_map_toList hmade).symm⟩
  obtain ⟨text, htext, rfl⟩ := List.mem_map.mp hline
  obtain ⟨ln, -, hmem⟩ := List.mem_flatMap.mp htext
  obtain ⟨piece, hpiece, rfl⟩ := List.mem_map.mp hmem
  refine ⟨"      ".toList, ' ' :: piece, by decide, List.all_eq_true.mp (by decide), ?_, ?_⟩
  · rw [String.toList_append, String.toList_ofList]
    rfl
  · rw [List.mem_cons, not_or]
    exact ⟨by decide, mem_splitNewlines hpiece⟩

/-- The new pin line and its comment are a block. -/
theorem isBlock_new (indent : List Char) {pin sha : List Char} (digest runUrl : String)
    (compare : Compare) (hpin : ∀ x ∈ pin, isHex x = true) (hsha : ∀ x ∈ sha, isHex x = true) :
    ∃ tail comments, (newPinLine (String.ofList indent) (String.ofList pin) (String.ofList sha) ++
        "\n" ++ trainComment (String.ofList pin) (String.ofList sha) digest runUrl compare).toList =
          indent ++ "newTag:".toList ++ [' '] ++ ['"'] ++ sha ++ ('"' :: tail ++ under comments) ∧
      '\n' ∉ tail ∧ ∀ line ∈ comments, IsComment line := by
  obtain ⟨comments, hcomments, hunder⟩ := indentComment_eq (_ :: _) (List.cons_ne_nil _ _)
  refine ⟨"  # RELEASE TRAIN ".toList ++ "(auto, #917) — rolls the hosted main ".toList ++
    pin.take 9 ++ " -> ".toList ++ sha.take 9 ++ " (hermes-agent-cluster fork main).".toList,
    comments, ?_, ?_, hcomments⟩
  · rw [String.toList_append, String.toList_append]
    have hbreak : "\n".toList ++ (trainComment (String.ofList pin) (String.ofList sha) digest runUrl
        compare).toList = under comments := by
      rw [← hunder]
      rfl
    have hopen : "newTag: \"".toList = "newTag:".toList ++ ([' '] ++ ['"']) := by decide
    have hclose : "\"  # RELEASE TRAIN ".toList = '"' :: "  # RELEASE TRAIN ".toList := by decide
    rw [List.append_assoc _ "\n".toList, hbreak]
    unfold newPinLine Text.take
    simp only [String.toList_append, String.toList_ofList, hopen, hclose, List.append_assoc,
      List.cons_append]
  · simp only [List.mem_append, not_or]
    refine ⟨⟨⟨⟨⟨by decide, by decide⟩, ?_⟩, by decide⟩, ?_⟩, by decide⟩
    · exact fun hmem => not_mem_of_isHex hpin (List.mem_of_mem_take hmem)
    · exact fun hmem => not_mem_of_isHex hsha (List.mem_of_mem_take hmem)

theorem newTags_eq (text : String) :
    newTags text = ((lineStarts text.toList).filterMap tagAt).map
      (fun tag => String.ofList tag.2) := by
  have hlines := findallFrom_lines lineValued_newTagLine oneLine_newTagLine []
    (Nat.lt_succ_self text.toList.length)
  have hgroups : ∀ lines : List (List Char),
      (lines.filterMap tagGroups).map (fun g => g.getD 1 "") =
      (lines.filterMap tagAt).map (fun tag => String.ofList tag.2) := by
    intro lines
    rw [List.map_filterMap, List.map_filterMap]
    congr 1
    funext t
    unfold tagGroups
    rw [Option.map_map]
    rfl
  have hcaptures := congrArg (List.map fun g => g.getD 1 "") hlines
  rw [List.map_map] at hcaptures
  rw [← hgroups]
  exact hcaptures

/-- The first occurrence is replaced. -/
theorem exists_replaceFirst (new : List Char) {old t u v : List Char} (h : t = u ++ (old ++ v)) :
    ∃ u' v', t = u' ++ (old ++ v') ∧ u'.length ≤ u.length ∧
      replaceFirst old new t = u' ++ (new ++ v') := by
  induction t generalizing u with
  | nil =>
      obtain ⟨rfl, hrest⟩ := List.append_eq_nil_iff.mp h.symm
      obtain ⟨rfl, rfl⟩ := List.append_eq_nil_iff.mp hrest
      refine ⟨[], [], rfl, le_rfl, ?_⟩
      rw [replaceFirst, if_pos rfl, List.append_nil]
      rfl
  | cons c t ih =>
      by_cases hhere : old.isPrefixOf (c :: t) = true
      · obtain ⟨rest, hrest⟩ := List.isPrefixOf_iff_prefix.mp hhere
        refine ⟨[], rest, hrest.symm, Nat.zero_le _, ?_⟩
        rw [replaceFirst, if_pos hhere, ← hrest, List.drop_left]
        rfl
      · cases u with
        | nil =>
            refine absurd (List.isPrefixOf_iff_prefix.mpr ?_) hhere
            rw [h]
            exact List.prefix_append old v
        | cons d u =>
            rw [List.cons_append, List.cons.injEq] at h
            obtain ⟨rfl, ht⟩ := h
            obtain ⟨u', v', ht', hlength, hreplace⟩ := ih ht
            refine ⟨c :: u', v', congrArg (c :: ·) ht', Nat.succ_le_succ hlength, ?_⟩
            rw [replaceFirst, if_neg hhere, hreplace]
            rfl

/-- What a release changes: the block of the pin, and nothing above or below it. -/
structure Edit (above indent pin sha block block' below cur new : List Char) : Prop where
  cur_eq : cur = above ++ (block ++ below)
  new_eq : new = above ++ (block' ++ below)
  closed : EndsLine above
  old : IsBlock indent pin block
  fresh : IsBlock indent sha block'
  differ : pin ≠ sha
  break_below : ∀ x ∈ below.head?, x = '\n'
  above_free : ∀ t ∈ lineStarts above, t ≠ [] → tagAt (t ++ (block ++ below)) = none
  tags : (lineStarts new).filterMap tagAt = [(indent, sha)]
  plain : ∃ rest, IsTag indent sha ('"' :: rest) (block' ++ below)

/-- The block and the line are found at one place, the first pin line. -/
theorem search_block {text : String} {start finish line : Cursor}
    (hblock : searchFrom newTagBlock [] text.toList = some (start, finish))
    (hline : newTagLine.search text = some line) :
    ∃ above indent pin block below, text.toList = above ++ (block ++ below) ∧ EndsLine above ∧
      IsBlock indent pin block ∧ (∀ x ∈ below.head?, x = '\n') ∧
      (∀ t ∈ lineStarts above, t ≠ [] → tagAt (t ++ (block ++ below)) = none) ∧
      start.between finish = String.ofList block ∧
      line.captures = [String.ofList indent, String.ofList pin] := by
  obtain ⟨above, habove, hstart, hmatch, hmiss⟩ := searchFrom_eq_some hblock
  obtain ⟨hat, indent, pin, block, hpass, hold, hbreak⟩ := match_newTagBlock hmatch
  have hbefore : start.before = above.reverse := by
    rw [hstart, List.append_nil]
  have hafter : start.after = block ++ finish.after := hpass.after
  refine ⟨above, indent, pin, block, finish.after, ?_, ?_, hold, hbreak, ?_, hpass.between, ?_⟩
  · rw [habove, hafter]
  · rw [hbefore] at hat
    exact atLine_reverse hat
  · intro t ht hne
    obtain ⟨w, hw, rfl⟩ := mem_lineStarts_iff.mp ht
    have hnone := hmiss w t rfl hne
    have hvalue := lineValued_newTagBlock (w.reverse ++ []) (t ++ start.after)
    have hatw : atLine (w.reverse ++ []) = true := by
      rw [List.append_nil]
      unfold atLine
      rw [List.head?_reverse]
      cases hlast : w.getLast? with
      | none => rfl
      | some x => exact decide_eq_true (hw x hlast)
    rw [hnone, Option.map_none, if_pos hatw] at hvalue
    rw [← hafter]
    cases htag : tagAt (t ++ start.after) with
    | none => rfl
    | some tag =>
        dsimp only at hvalue
        rw [htag] at hvalue
        cases hvalue
  · have hposition := searchFrom_lines lineValued_newTagBlock [] text.toList
    have hgroups := search_lines lineValued_newTagLine text
    have hbind : ∀ lines : List (List Char), lines.findSome? tagGroups =
        (lines.findSome? (fun t => if (tagAt t).isSome then some t else none)).bind tagGroups := by
      intro lines
      rw [← findSome?_bind]
      · congr 1
        funext t
        unfold tagGroups
        cases htag : tagAt t with
        | none => rfl
        | some tag =>
            simp only [Option.isSome_some, if_true, Option.bind_some, htag]
      · intro t t' h
        split at h
        · rename_i htag
          cases h
          unfold tagGroups
          rwa [Option.isSome_map]
        · cases h
    have hfirst : (lineStarts text.toList).findSome?
        (fun t => if (tagAt t).isSome then some t else none) = some start.after := by
      rw [hblock] at hposition
      exact hposition.symm
    rw [hline, Option.map_some, hbind, hfirst, Option.bind_some, hafter, tagGroups,
      tagAt_block hold] at hgroups
    exact Option.some.inj hgroups

/-- A block that occurs earlier does not reach into the pin line. -/
theorem occurrence_apart {above indent pin block below u v : List Char} (hclosed : EndsLine above)
    (hold : IsBlock indent pin block) (h : above ++ (block ++ below) = u ++ (block ++ v))
    (hlength : u.length ≤ above.length) :
    u = above ∨
      ∃ x, above = u ++ (block ++ x) ∧ v = x ++ (block ++ below) ∧ x ≠ [] ∧ EndsLine x := by
  obtain ⟨a, rfl, hrest⟩ : ∃ a, above = u ++ a ∧ block ++ v = a ++ (block ++ below) := by
    rcases List.append_eq_append_iff.mp h with ⟨a, rfl, hrest⟩ | ⟨a, rfl, hrest⟩
    · have hnil : a = [] := by
        rw [List.length_append] at hlength
        exact List.length_eq_zero_iff.mp (by omega)
      subst hnil
      exact ⟨[], by simp, hrest.symm⟩
    · exact ⟨a, rfl, hrest⟩
  have ha : EndsLine a := hclosed.of_append
  by_cases hne : a = []
  · exact .inl (by rw [hne, List.append_nil])
  · right
    rcases List.append_eq_append_iff.mp hrest with ⟨x, rfl, hx⟩ | ⟨z, hz, hbelow⟩
    · refine ⟨x, rfl, hx, ?_, ha.of_append⟩
      rintro rfl
      rw [List.append_nil] at ha
      exact not_endsLine_block hold ha
    · -- the pin line would begin where a line of the comment does
      obtain ⟨w, rfl⟩ := (endsLine_iff.mp ha).resolve_left hne
      have hmem : z ∈ breaks block := mem_breaks_iff.mpr ⟨w, by rw [hz]; simp⟩
      obtain ⟨line, rest, hline, rfl⟩ := mem_breaks_block hold hmem
      have htag : tagAt (block ++ below) = some (indent, pin) := tagAt_block hold
      rw [hbelow, List.append_assoc, tagAt_comment hline] at htag
      cases htag

theorem eq_of_filterMap_singleton {α β : Type} {f : α → Option β} {l : List α} {b : β} {a a' : α}
    (h : l.filterMap f = [b]) (ha : a ∈ l) (ha' : a' ∈ l) (hfa : (f a).isSome)
    (hfa' : (f a').isSome) : a = a' := by
  induction l with
  | nil => cases ha
  | cons x l ih =>
      cases hx : f x with
      | none =>
          have hne : ∀ y, (f y).isSome → y ∈ x :: l → y ∈ l := by
            intro y hy hmem
            refine (List.mem_cons.mp hmem).resolve_left ?_
            rintro rfl
            rw [hx] at hy
            cases hy
          rw [List.filterMap_cons_none hx] at h
          exact ih h (hne a hfa ha) (hne a' hfa' ha')
      | some d =>
          rw [List.filterMap_cons_some hx, List.cons.injEq] at h
          have heq : ∀ y, (f y).isSome → y ∈ x :: l → y = x := by
            intro y hy hmem
            refine (List.mem_cons.mp hmem).resolve_right (fun hl => ?_)
            rw [List.filterMap_eq_nil_iff.mp h.2 y hl] at hy
            cases hy
          rw [heq a hfa ha, heq a' hfa' ha']

theorem Edit.unique {above indent pin sha block block' below cur new t : List Char}
    (h : Edit above indent pin sha block block' below cur new) (ht : t ∈ lineStarts new)
    (htag : (tagAt t).isSome) : t = block' ++ below := by
  have hmem : block' ++ below ∈ lineStarts new :=
    mem_lineStarts_iff.mpr ⟨above, h.closed, h.new_eq⟩
  refine eq_of_filterMap_singleton h.tags ht hmem htag ?_
  rw [tagAt_block h.fresh]
  rfl

section Render

variable [Unicode] {curText newSha digest runUrl newText : String} {compare : Compare}

/-- What the writer has done where it succeeds. -/
theorem edit_of_render
    (h : renderReleaseText curText newSha digest runUrl compare = .ok newText) :
    ∃ above indent pin sha block block' below, newSha = String.ofList sha ∧
      Edit above indent pin sha block block' below curText.toList newText.toList := by
  unfold renderReleaseText at h
  split at h
  · cases h
  split at h
  · cases h
  split at h
  · rename_i match₁ match₂ found line hblock hline
    obtain ⟨start, finish⟩ := found
    obtain ⟨above, indent, pin, block, below, hcur, hclosed, hold, hbreak, hfree, hbetween,
      hcaptures⟩ := search_block hblock hline
    dsimp only at h
    rw [hcaptures, hbetween, String.toList_ofList] at h
    simp only [List.getD_cons_zero, List.getD_cons_succ] at h
    split at h
    · cases h
    · rename_i hpin
      obtain ⟨u, v, hoccurs, hlength, hreplace⟩ := exists_replaceFirst
        ((newPinLine (String.ofList indent) (String.ofList pin) newSha ++ "\n" ++
          trainComment (String.ofList pin) newSha digest runUrl compare).toList) hcur
      rw [hreplace] at h
      split at h
      · cases h
      rename_i hone
      split at h
      · cases h
      rename_i hhead
      split at h
      · cases h
      obtain rfl := Except.ok.inj h
      rw [not_not, newTags_eq, List.length_map, String.toList_ofList] at hone
      rw [not_not, newTags_eq, String.toList_ofList] at hhead
      obtain ⟨tag, htags⟩ := List.length_eq_one_iff.mp hone
      rw [htags, List.map_singleton, List.head?_cons, Option.some.injEq] at hhead
      -- so the new commit id has forty digits
      obtain ⟨indent', sha⟩ := tag
      have hsha : newSha = String.ofList sha := hhead.symm
      have hmem := List.mem_singleton_self (indent', sha)
      rw [← htags] at hmem
      obtain ⟨t, -, htag⟩ := List.mem_filterMap.mp hmem
      obtain ⟨rest, htag'⟩ := tagAt_eq_some_iff.mp htag
      subst hsha
      have hdiffer : pin ≠ sha := fun heq => hpin (congrArg String.ofList heq)
      obtain ⟨restOld, htagOld⟩ : ∃ rest, IsTag indent pin rest (block ++ []) :=
        isTag_of_isBlock hold
      rw [List.append_nil] at htagOld
      obtain ⟨tail, comments, hnew, htail, hcomments⟩ := isBlock_new indent digest runUrl
        compare htagOld.hex htag'.hex
      rw [hnew] at htags ⊢
      have hfresh : IsTag indent sha ('"' :: tail ++ under comments) (indent ++ "newTag:".toList ++
          [' '] ++ ['"'] ++ sha ++ ('"' :: tail ++ under comments)) :=
        ⟨htagOld.blank, htag'.length, htag'.hex, [' '], ['"'], List.all_eq_true.mp (by decide),
          .inr rfl, rfl⟩
      have hblock' : IsBlock indent sha (indent ++ "newTag:".toList ++ [' '] ++ ['"'] ++ sha ++
          ('"' :: tail ++ under comments)) := by
        refine ⟨'"' :: tail, comments, hfresh, ?_, hcomments⟩
        rw [List.mem_cons, not_or]
        exact ⟨by decide, htail⟩
      generalize indent ++ "newTag:".toList ++ [' '] ++ ['"'] ++ sha ++
        ('"' :: tail ++ under comments) = block' at htags hfresh hblock'
      rcases occurrence_apart hclosed hold (hcur.symm.trans hoccurs) hlength with rfl |
        ⟨x, habove, hv, hne, hx⟩
      · have hbelow : v = below :=
          (List.append_cancel_left (List.append_cancel_left (hcur.symm.trans hoccurs))).symm
        subst hbelow
        have hplain : ∃ rest, IsTag indent sha ('"' :: rest) (block' ++ v) := by
          obtain ⟨hblank, hlen, hhex, gap, q, hgap, hq, hsplit⟩ := hfresh
          refine ⟨tail ++ under comments ++ v, hblank, hlen, hhex, gap, q, hgap, hq, ?_⟩
          rw [hsplit]
          simp only [List.append_assoc, List.cons_append]
        have hindent : indent' = indent := by
          have hmem' : (indent, sha) ∈ (lineStarts (u ++ (block' ++ v))).filterMap tagAt :=
            List.mem_filterMap.mpr ⟨block' ++ v, mem_lineStarts_iff.mpr ⟨u, hclosed, rfl⟩,
              tagAt_block hblock'⟩
          rw [htags, List.mem_singleton, Prod.mk.injEq] at hmem'
          exact hmem'.1.symm
        subst hindent
        refine ⟨u, indent', pin, sha, block, block', v, rfl, ?_⟩
        rw [String.toList_ofList]
        exact ⟨hcur, rfl, hclosed, hold, hblock', hdiffer, hbreak, hfree, htags, hplain⟩
      · -- the old pin line would still stand there
        have hstays : (indent, pin) ∈ (lineStarts (u ++ (block' ++ v))).filterMap tagAt := by
          refine List.mem_filterMap.mpr ⟨block ++ below, mem_lineStarts_iff.mpr
            ⟨u ++ (block' ++ x), ?_, ?_⟩, tagAt_block hold⟩
          · rw [← List.append_assoc]
            rcases endsLine_iff.mp hx with rfl | ⟨w, rfl⟩
            · exact absurd rfl hne
            · exact endsLine_iff.mpr (.inr ⟨u ++ block' ++ w, by simp⟩)
          · rw [hv]
            simp only [List.append_assoc]
        rw [htags, List.mem_singleton, Prod.mk.injEq] at hstays
        exact absurd hstays.2 hdiffer
  · cases h

/-! ## When the writer succeeds -/

omit [Unicode] in
/-- Whether a closed line is a pin line does not depend on the text after it. -/
theorem tagAt_append {a y : List Char} (h : EndsLine a) (hne : a ≠ []) :
    tagAt (a ++ y) = tagAt a := by
  have hiff : ∀ tag, tagAt (a ++ y) = some tag ↔ tagAt a = some tag := by
    rintro ⟨indent, digits⟩
    rw [tagAt_eq_some_iff, tagAt_eq_some_iff]
    constructor
    · rintro ⟨rest, hblank, hlength, hhex, gap, q, hgap, hq, hsplit⟩
      have htag : IsTag indent digits rest (a ++ y) :=
        ⟨hblank, hlength, hhex, gap, q, hgap, hq, hsplit⟩
      obtain ⟨w, hw, -, hnl⟩ := htag.not_mem
      rcases List.append_eq_append_iff.mp hw with ⟨v, rfl, -⟩ | ⟨v, rfl, -⟩
      · exact absurd (List.mem_append_left v (h.mem_newline hne)) hnl
      · refine ⟨v, hblank, hlength, hhex, gap, q, hgap, hq, ?_⟩
        exact congrArg (· ++ v) (List.append_cancel_right (hw.symm.trans hsplit))
    · rintro ⟨rest, hblank, hlength, hhex, gap, q, hgap, hq, rfl⟩
      refine ⟨rest ++ y, hblank, hlength, hhex, gap, q, hgap, hq, ?_⟩
      simp only [List.append_assoc]
  exact Option.ext hiff

omit [Unicode] in
/-- With the block the one pin line is exchanged. -/
theorem filterMap_tagAt_edit {above indent pin sha block block' below : List Char}
    (hclosed : EndsLine above) (hold : IsBlock indent pin block)
    (hfresh : IsBlock indent sha block')
    (htags : (lineStarts (above ++ (block ++ below))).filterMap tagAt = [(indent, pin)]) :
    (lineStarts (above ++ (block' ++ below))).filterMap tagAt = [(indent, sha)] := by
  have hrest : ∀ {digits b}, IsBlock indent digits b →
      (breaks (b ++ below)).filterMap tagAt = (breaks below).filterMap tagAt :=
    fun hb => (findSome?_block hb below fun _ _ hline => tagAt_comment hline).2
  rw [lineStarts_append, List.filterMap_append, hrest hold] at htags
  rw [lineStarts_append, List.filterMap_append, hrest hfresh]
  have hmem : (indent, pin) ∈ ((lineStarts above).map (· ++ (block ++ below))).filterMap tagAt :=
    List.mem_filterMap.mpr ⟨block ++ below, List.mem_map.mpr ⟨[], hclosed.nil_mem, rfl⟩,
      tagAt_block hold⟩
  have hparts : ((lineStarts above).map (· ++ (block ++ below))).filterMap tagAt =
      [(indent, pin)] ∧ (breaks below).filterMap tagAt = [] := by
    rcases List.append_eq_singleton_iff.mp htags with ⟨hnil, -⟩ | hparts
    · rw [hnil] at hmem
      cases hmem
    · exact hparts
  have hsame : ((lineStarts above).map (· ++ (block' ++ below))).filterMap tagAt =
      (((lineStarts above).map (· ++ (block ++ below))).filterMap tagAt).map
        (fun _ => (indent, sha)) := by
    rw [List.filterMap_map, List.filterMap_map, List.map_filterMap]
    refine List.filterMap_congr (fun t ht => ?_)
    change tagAt (t ++ (block' ++ below)) =
      (tagAt (t ++ (block ++ below))).map (fun _ => (indent, sha))
    by_cases hne : t = []
    · rw [hne, List.nil_append, List.nil_append, tagAt_block hold, tagAt_block hfresh]
      rfl
    · have ht' := hclosed.of_mem_lineStarts ht
      rw [tagAt_append ht' hne, tagAt_append ht' hne]
      cases htag : tagAt t with
      | none => rfl
      | some tag =>
          -- it would be a second pin line
          have hother : t ++ (block ++ below) = block ++ below := by
            refine eq_of_filterMap_singleton hparts.1 (List.mem_map.mpr ⟨t, ht, rfl⟩)
              (List.mem_map.mpr ⟨[], hclosed.nil_mem, rfl⟩) ?_ ?_
            · rw [tagAt_append ht' hne, htag]
              rfl
            · rw [tagAt_block hold]
              rfl
          exact absurd (List.append_left_eq_self.mp hother) hne
  rw [hsame, hparts.1, hparts.2]
  rfl

omit [Unicode] in
theorem infix_join {sep x : String} {xs : List String} (h : x ∈ xs) :
    x.toList <:+: (Text.join sep xs).toList := by
  induction xs with
  | nil => cases h
  | cons y xs ih =>
      cases xs with
      | nil =>
          rw [List.mem_singleton] at h
          rw [h]
          exact List.infix_rfl
      | cons z xs =>
          rw [Text.join, String.toList_append, String.toList_append]
          rcases List.mem_cons.mp h with rfl | h
          · rw [List.append_assoc]
            exact (List.prefix_append _ _).isInfix
          · exact (ih h).trans (List.suffix_append _ _).isInfix

omit [Unicode] in
theorem splitNewlines_of_not_mem {t : List Char} (h : '\n' ∉ t) : splitNewlines t = [t] := by
  induction t with
  | nil => rfl
  | cons c t ih =>
      rw [List.mem_cons, not_or] at h
      rw [splitNewlines, if_neg (fun hc => h.1 hc.symm), ih h.2]

omit [Unicode] in
/-- The comment names the digest. -/
theorem infix_trainComment (pin sha runUrl : String) (compare : Compare)
    (hdigest : (digestRe.matchStart digest).isSome) :
    digest.toList <:+: (trainComment pin sha digest runUrl compare).toList := by
  have hline : '\n' ∉ ("digest " ++ digest).toList := by
    unfold matchStart at hdigest
    obtain ⟨c, hmatch⟩ := Option.isSome_iff_exists.mp hdigest
    have hread := reads_of_matchK_some hmatch
    simp only [digestRe, reads_seqs_cons, reads_seqs_nil, reads_lit_iff, reads_rep_chr_iff,
      reads_look_iff] at hread
    obtain ⟨c₁, hlit, c₂, ⟨w, hpass, hw, -⟩, c₃, ⟨hend, hc₃⟩, -⟩ := hread
    have htext : digest.toList = "sha256:".toList ++ (w ++ c₂.after) := by
      rw [← hpass.after]
      exact hlit.after
    rw [of_decide_eq_true hend, List.append_nil] at htext
    rw [String.toList_append, htext]
    simp only [List.mem_append, not_or]
    exact ⟨by decide, by decide, not_mem_of_isHex hw⟩
  have hmade : commentPad ++ ("digest " ++ digest) ∈ (List.flatMap (fun ln =>
      (splitNewlines ln.toList).map (fun piece => commentPad ++ String.ofList piece))
      ["Image published by fork run " ++ runUrl, "digest " ++ digest]) := by
    refine List.mem_flatMap.mpr ⟨"digest " ++ digest, by simp, ?_⟩
    rw [splitNewlines_of_not_mem hline, List.map_singleton, String.ofList_toList]
    exact List.mem_singleton_self _
  have hinner : digest.toList <:+: (commentPad ++ ("digest " ++ digest)).toList := by
    rw [String.toList_append, String.toList_append, ← List.append_assoc]
    exact (List.suffix_append _ _).isInfix
  refine hinner.trans (infix_join ?_)
  obtain ⟨ln, hln, hpiece⟩ := List.mem_flatMap.mp hmade
  refine List.mem_flatMap.mpr ⟨ln, ?_, hpiece⟩
  simp only [List.mem_cons, List.not_mem_nil, or_false] at hln ⊢
  rcases hln with rfl | rfl
  · simp
  · simp

omit [Unicode] in
/-- No `newTag:` stands before that of the pin line. -/
def PinFirst (text : List Char) : Bool :=
  text.tails.all (fun t => !("newTag:".toList.isPrefixOf t) ||
    (lineStarts text).all (fun line =>
      !(tagAt line).isSome || decide (t.length ≤ (line.dropWhile isBlank).length)))

/-- A manifest with one pin line is released, if no `newTag:` stands before it. -/
theorem exists_render {indent pin sha : List Char}
    (htags : (lineStarts curText.toList).filterMap tagAt = [(indent, pin)])
    (hfirst : PinFirst curText.toList = true) (hlength : sha.length = 40)
    (hhex : ∀ x ∈ sha, isHex x = true) (hdigest : (digestRe.matchStart digest).isSome)
    (hdiffer : pin ≠ sha) :
    ∃ newText, renderReleaseText curText (String.ofList sha) digest runUrl compare =
      .ok newText := by
  have hsha : ¬(hex40.matchStart (String.ofList sha)).isNone = true := by
    obtain ⟨c, hpass, -⟩ := Cursor.exists_passes (c := ⟨[], (String.ofList sha).toList, []⟩)
      (w := sha) (t := []) (by rw [String.toList_ofList, List.append_nil])
    have hread : Reads hex40 ⟨[], (String.ofList sha).toList, []⟩ c :=
      reads_hex40_iff.mpr ⟨sha, hpass, hlength, hhex⟩
    rw [Option.isNone_iff_eq_none, ← Ne, Option.ne_none_iff_isSome]
    exact isSome_matchK_of_reads hread rfl
  have hdigest' : ¬(digestRe.matchStart digest).isNone = true := by
    rw [Option.isNone_iff_eq_none, ← Ne, Option.ne_none_iff_isSome]
    exact hdigest
  -- both searches find the pin line
  obtain ⟨l, hl, hlt⟩ := List.mem_filterMap.mp (htags.symm ▸ List.mem_singleton_self (indent, pin))
  have hposition := searchFrom_lines lineValued_newTagBlock [] curText.toList
  have hgroups := search_lines lineValued_newTagLine curText
  have hfoundBlock : (searchFrom newTagBlock [] curText.toList).isSome := by
    rw [← Option.isSome_map, hposition, List.findSome?_isSome_iff]
    exact ⟨l, hl, by rw [hlt]; rfl⟩
  have hfoundLine : (newTagLine.search curText).isSome := by
    rw [← Option.isSome_map, hgroups, List.findSome?_isSome_iff]
    exact ⟨l, hl, by unfold tagGroups; rw [hlt]; rfl⟩
  obtain ⟨⟨start, finish⟩, hblock⟩ := Option.isSome_iff_exists.mp hfoundBlock
  obtain ⟨line, hline⟩ := Option.isSome_iff_exists.mp hfoundLine
  obtain ⟨above, indent', pin', block, below, hcur, hclosed, hold, -, -, hbetween, hcaptures⟩ :=
    search_block hblock hline
  have hplace : block ++ below ∈ lineStarts curText.toList :=
    mem_lineStarts_iff.mpr ⟨above, hclosed, hcur⟩
  have htag : (indent', pin') = (indent, pin) := by
    have hmem := List.mem_filterMap.mpr ⟨block ++ below, hplace, tagAt_block hold⟩
    rwa [htags, List.mem_singleton] at hmem
  obtain ⟨rfl, rfl⟩ := Prod.mk.inj htag
  obtain ⟨restOld, htagOld⟩ : ∃ rest, IsTag indent' pin' rest (block ++ []) :=
    isTag_of_isBlock hold
  rw [List.append_nil] at htagOld
  obtain ⟨tail, comments, hnew, htail, hcomments⟩ := isBlock_new indent' digest runUrl
    compare htagOld.hex hhex
  generalize hmade : (newPinLine (String.ofList indent') (String.ofList pin') (String.ofList sha) ++
    "\n" ++ trainComment (String.ofList pin') (String.ofList sha) digest runUrl compare).toList =
      made at hnew
  have hfresh : IsBlock indent' sha made := by
    rw [hnew]
    refine ⟨'"' :: tail, comments, ⟨htagOld.blank, hlength, hhex, [' '], ['"'],
      List.all_eq_true.mp (by decide), .inr rfl, rfl⟩, ?_, hcomments⟩
    rw [List.mem_cons, not_or]
    exact ⟨by decide, htail⟩
  obtain ⟨u, v, hoccurs, hle, hreplace⟩ := exists_replaceFirst made hcur
  -- the block does not occur before the pin line
  have hge : above.length ≤ u.length := by
    obtain ⟨gap, q, hgap, hq, hsplit⟩ := htagOld.split
    have hword : block = indent' ++ ("newTag:".toList ++ (gap ++ q ++ pin' ++ restOld)) := by
      rw [hsplit]
      simp only [List.append_assoc]
    have hall := List.all_eq_true.mp hfirst
      ("newTag:".toList ++ (gap ++ q ++ pin' ++ restOld) ++ v) (by
        rw [List.mem_tails, hoccurs, hword]
        exact ⟨u ++ indent', by simp only [List.append_assoc]⟩)
    rw [Bool.or_eq_true, Bool.not_eq_true'] at hall
    rcases hall with hno | hall
    · rw [List.append_assoc, List.isPrefixOf_iff_prefix.mpr (List.prefix_append _ _)] at hno
      cases hno
    · have hline := List.all_eq_true.mp hall _ hplace
      rw [tagAt_block hold, Option.isSome_some, Bool.not_true, Bool.false_or, decide_eq_true_eq,
        hword, List.append_assoc indent', List.append_assoc "newTag:".toList,
        dropWhile_append_of_head htagOld.blank (by rintro x ⟨⟩; rfl)] at hline
      have hlengths := congrArg List.length (hcur.symm.trans hoccurs)
      simp only [List.length_append] at hlengths hline
      omega
  have hu : u = above := by
    rcases occurrence_apart hclosed hold (hcur.symm.trans hoccurs) hle with hu |
      ⟨x, habove, -, hne, -⟩
    · exact hu
    · have hlengths := congrArg List.length habove
      have hpos := List.length_pos_iff.mpr hne
      simp only [List.length_append] at hlengths
      omega
  subst hu
  have hv : v = below :=
    (List.append_cancel_left (List.append_cancel_left (hcur.symm.trans hoccurs))).symm
  subst hv
  have hnewTags : newTags (String.ofList (u ++ (made ++ v))) = [String.ofList sha] := by
    rw [newTags_eq, String.toList_ofList,
      filterMap_tagAt_edit hclosed hold hfresh (by rw [← hcur]; exact htags)]
    rfl
  have hcontains : ¬Text.contains (String.ofList (u ++ (made ++ v))) digest = false := by
    rw [Bool.not_eq_false]
    unfold Text.contains
    rw [String.toList_ofList, List.any_eq_true]
    obtain ⟨w, w', hw⟩ := infix_trainComment (String.ofList pin') (String.ofList sha) runUrl
      compare hdigest
    refine ⟨digest.toList ++ (w' ++ v), ?_, ?_⟩
    · rw [List.mem_tails, ← hmade, String.toList_append, ← hw]
      exact ⟨u ++ ((newPinLine (String.ofList indent') (String.ofList pin') (String.ofList sha) ++
        "\n").toList ++ w), by simp only [List.append_assoc]⟩
    · exact List.isPrefixOf_iff_prefix.mpr (List.prefix_append _ _)
  refine ⟨String.ofList (u ++ (made ++ v)), ?_⟩
  unfold renderReleaseText
  rw [if_neg hsha, if_neg hdigest', hblock, hline]
  dsimp only
  rw [hcaptures, hbetween, String.toList_ofList]
  simp only [List.getD_cons_zero, List.getD_cons_succ]
  rw [if_neg (fun heq => hdiffer (String.ofList_injective heq)), hmade, hreplace, hnewTags,
    if_neg (by simp), if_neg (by simp), if_neg hcontains]

end Render

end ReleasePin

end HermesCluster
