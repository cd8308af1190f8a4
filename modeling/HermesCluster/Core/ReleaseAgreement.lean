import HermesCluster.Core.ReleaseEdit
/-!
# The release writer and the drift reader

When the writer's edit and the reader agree on the pin of a manifest.
-/

namespace HermesCluster

namespace ReleasePin

open Regex

/-! ## Agreement on the pin -/

/-- A line that does not end an item whose dash stands in this column: it is
indented deeper, or blank, or a comment. -/
def OfItem (column : Nat) (line : List Char) : Prop :=
  column < (line.takeWhile isBlank).length ∨
    ∀ x ∈ (line.dropWhile isBlank).head?, x = '\n' ∨ x = '#'

/-- A line indented by `depth` under this text belongs to the list item
`- name: hermes-cluster-main`. -/
def InItem [Unicode] (above : List Char) (depth : Nat) : Prop :=
  ∃ before w₀ w₁ w₂ w₃ body, EndsLine before ∧
    (∀ w ∈ [w₀, w₁, w₂, w₃], ∀ x ∈ w, Unicode.isSpace x = true) ∧ '\n' ∉ w₀ ∧
    above = before ++ (w₀ ++ "-".toList ++ w₁ ++ "name:".toList ++ w₂ ++
      "hermes-cluster-main".toList ++ w₃ ++ '\n' :: body) ∧
    (∀ line ∈ lineStarts body, line ≠ [] → OfItem w₀.length line) ∧ w₀.length < depth

/-- Nothing differs but the pin line and its comment, in the image's item. -/
def OnlyPinChanged [Unicode] (text newText : String) (pin sha : List Char) : Prop :=
  ∃ above indent block block' below,
    text.toList = above ++ (block ++ below) ∧ newText.toList = above ++ (block' ++ below) ∧
    EndsLine above ∧ (∀ x ∈ below.head?, x = '\n') ∧ IsBlock indent pin block ∧
    IsBlock indent sha block' ∧ InItem above indent.length

/-- The reader finds the new commit in the new text, the replaced one in the old, and
no other line has changed. -/
def Agree [Unicode] (text newSha newText : String) : Prop :=
  extractPinnedSha newText = some newSha ∧
    ∃ pin, extractPinnedSha text = some (String.ofList pin) ∧
      OnlyPinChanged text newText pin newSha.toList

/-- The first `newTag` that an item of the image's name leads to is written as forty
lower-case digits and belongs to that item. -/
def PinnedPlainly [Unicode] (text : String) : Prop :=
  ∃ above indent digits rest line, text.toList = above ++ line ∧
    mainTag text.toList = some line ∧ IsTag indent digits rest line ∧
    rest.head?.any isHexI = false ∧ InItem above indent.length

section Agreement

variable [AsciiSpaces] {above indent pin sha block block' below : List Char}
  {text newText : String}

/-- The line that an item leads to stands below it. -/
theorem itemTag_split {t line : List Char} (h : itemTag t = some line) :
    ∃ w, EndsLine w ∧ t = w ++ line := by
  obtain ⟨body, hbody, hfollow⟩ := Option.bind_eq_some_iff.mp h
  obtain ⟨v, hname, hnext⟩ := Option.bind_eq_some_iff.mp hbody
  obtain ⟨w₀, w₁, w₂, -, -, -, rfl⟩ := afterName_eq_some_iff.mp hname
  obtain ⟨⟨ws, -, rfl⟩, -⟩ := nextLine_eq_some_iff.mp hnext
  obtain ⟨w, hw, rfl⟩ := mem_lineStarts_iff.mp (isSome_digitsAt_of_followTag hfollow).2
  refine ⟨w₀ ++ "-".toList ++ (w₁ ++ "name:".toList ++
    (w₂ ++ "hermes-cluster-main".toList ++ ws)) ++ ['\n'] ++ w, ?_, by simp⟩
  exact EndsLine.append (endsLine_iff.mpr (.inr ⟨_, rfl⟩)) hw

theorem mainTag_mem {t line : List Char} (h : mainTag t = some line) : line ∈ lineStarts t := by
  obtain ⟨u, hu, hitem⟩ := List.exists_of_findSome?_eq_some h
  obtain ⟨w, hw, rfl⟩ := mem_lineStarts_iff.mp hu
  obtain ⟨w', hw', rfl⟩ := itemTag_split hitem
  exact mem_lineStarts_iff.mpr ⟨w ++ w', hw.append hw', (List.append_assoc w w' line).symm⟩

/-- Both readings come to the edited block, or to the same place elsewhere. -/
theorem Edit.mainTag (h : Edit above indent pin sha block block' below text.toList newText.toList) :
    (mainTag text.toList = some (block ++ below) ∧
        mainTag newText.toList = some (block' ++ below)) ∨
      mainTag text.toList ≠ some (block ++ below) ∧
        extractPinnedSha text = extractPinnedSha newText := by
  have hold : Tagged (block ++ below) := ⟨_, _, isTag_of_isBlock h.old⟩
  have hfresh : Tagged (block' ++ below) := ⟨_, _, isTag_of_isBlock h.fresh⟩
  rw [extractPinnedSha_eq, extractPinnedSha_eq, h.cur_eq, h.new_eq]
  rcases mainTag_append h.closed with ⟨b, hb, hsome⟩ | hbelow
  · rw [hsome _ hold, hsome _ hfresh]
    by_cases hne : b = []
    · rw [hne]
      exact .inl ⟨rfl, rfl⟩
    · refine .inr ⟨fun heq => hne ?_, shaOf_append hb hne hold hfresh⟩
      exact List.append_left_eq_self.mp (Option.some.inj heq)
  · rw [hbelow _ hold, hbelow _ hfresh,
      (findSome?_block h.old below fun _ _ hline => itemTag_comment hline).1,
      (findSome?_block h.fresh below fun _ _ hline => itemTag_comment hline).1]
    refine .inr ⟨fun heq => ?_, rfl⟩
    obtain ⟨u, hu, hitem⟩ := List.exists_of_findSome?_eq_some heq
    obtain ⟨w, hw⟩ := mem_breaks_iff.mp hu
    obtain ⟨w', -, rfl⟩ := itemTag_split hitem
    have hlength := congrArg List.length hw
    simp only [List.length_append, List.length_cons] at hlength
    omega

omit [AsciiSpaces] in
/-- The edited line is the one pin line of the old text. -/
theorem Edit.eq_of_tag
    (h : Edit above indent pin sha block block' below text.toList newText.toList) {line : List Char}
    (hline : line ∈ lineStarts text.toList) (htag : (tagAt line).isSome) :
    line = block ++ below := by
  have hlines : lineStarts text.toList =
      (lineStarts above).map (· ++ (block ++ below)) ++ breaks (block ++ below) := by
    rw [h.cur_eq, lineStarts_append]
  rw [hlines, List.mem_append, breaks_append, List.mem_append] at hline
  rcases hline with hline | hline | hline
  · obtain ⟨t, ht, rfl⟩ := List.mem_map.mp hline
    by_cases hne : t = []
    · rw [hne, List.nil_append]
    · rw [h.above_free t ht hne] at htag
      cases htag
  · obtain ⟨z, hz, rfl⟩ := List.mem_map.mp hline
    obtain ⟨comment, rest, hcomment, rfl⟩ := mem_breaks_block h.old hz
    rw [List.append_assoc, tagAt_comment hcomment] at htag
    cases htag
  · obtain ⟨w, hw⟩ := mem_breaks_iff.mp hline
    have hnew : line ∈ lineStarts newText.toList := by
      refine mem_lineStarts_iff.mpr ⟨above ++ (block' ++ (w ++ ['\n'])), ?_, ?_⟩
      · exact endsLine_iff.mpr (.inr ⟨above ++ (block' ++ w), by simp⟩)
      · rw [h.new_eq, hw]
        simp
    have hsame := h.unique hnew htag
    have hlength := congrArg List.length hsame
    rw [hw] at hlength
    simp only [List.length_append, List.length_cons] at hlength
    omega

theorem Edit.shaOf_old
    (h : Edit above indent pin sha block block' below text.toList newText.toList)
    (hpin : shaOf (block ++ below) = some (String.ofList pin)) :
    ∃ rest, IsTag indent pin rest (block ++ below) ∧ rest.head?.any isHexI = false := by
  obtain ⟨rest, htag⟩ : ∃ rest, IsTag indent pin rest (block ++ below) := isTag_of_isBlock h.old
  refine ⟨rest, htag, ?_⟩
  rw [shaOf_tag htag] at hpin
  split at hpin
  · cases hpin
  · rename_i hhead
    exact Bool.not_eq_true _ ▸ hhead

theorem Edit.shaOf_fresh
    (h : Edit above indent pin sha block block' below text.toList newText.toList) :
    shaOf (block' ++ below) = some (String.ofList sha) := by
  obtain ⟨rest, htag⟩ := h.plain
  rw [shaOf_tag htag]
  rfl

/-- Where the writer succeeds, it and the reader agree exactly if the manifest is
pinned plainly. -/
theorem reader_agrees_iff {newSha digest runUrl : String} {compare : Compare}
    (h : renderReleaseText text newSha digest runUrl compare = .ok newText) :
    Agree text newSha newText ↔ PinnedPlainly text := by
  obtain ⟨above, indent, pin, sha, block, block', below, rfl, hedit⟩ := edit_of_render h
  constructor
  · rintro ⟨hnew, pin', hcur, above', indent', b, b', below', hb, hb', hclosed, -, hold, hfresh,
      hitem⟩
    have hplace : b' ++ below' = block' ++ below := by
      refine hedit.unique (mem_lineStarts_iff.mpr ⟨above', hclosed, hb'⟩) ?_
      rw [tagAt_block hfresh]
      rfl
    have habove : above' = above := by
      have hnewText := hedit.new_eq
      rw [hb', hplace] at hnewText
      exact List.append_cancel_right hnewText
    subst habove
    have hplaceOld : b ++ below' = block ++ below :=
      List.append_cancel_left (hb.symm.trans hedit.cur_eq)
    have htag : some (indent', pin') = some (indent, pin) := by
      rw [← tagAt_block hold, ← tagAt_block hedit.old, hplaceOld]
    obtain ⟨rfl, rfl⟩ := Prod.mk.inj (Option.some.inj htag)
    rcases hedit.mainTag with ⟨hmain, -⟩ | ⟨-, hsame⟩
    · have hsha : shaOf (block ++ below) = some (String.ofList pin') := by
        rw [extractPinnedSha_eq, hmain, Option.bind_some] at hcur
        exact hcur
      obtain ⟨rest, hrest, hhead⟩ := hedit.shaOf_old hsha
      exact ⟨above', indent', pin', rest, _, hedit.cur_eq, hmain, hrest, hhead, hitem⟩
    · rw [hcur, hnew, Option.some.injEq] at hsame
      exact absurd (String.ofList_injective hsame) hedit.differ
  · rintro ⟨above', indent', digits, rest, line, htext, hmain, htag, hhead, hitem⟩
    have hsome : tagAt line = some (indent', digits) := tagAt_eq_some_iff.mpr ⟨rest, htag⟩
    obtain rfl : line = block ++ below :=
      hedit.eq_of_tag (mainTag_mem hmain) (by rw [hsome]; rfl)
    have habove : above' = above := by
      rw [hedit.cur_eq] at htext
      exact (List.append_cancel_right htext).symm
    subst habove
    rw [tagAt_block hedit.old, Option.some.injEq, Prod.mk.injEq] at hsome
    obtain ⟨rfl, rfl⟩ := hsome
    have hcur : extractPinnedSha text = some (String.ofList pin) := by
      rw [extractPinnedSha_eq, hmain, Option.bind_some, shaOf_tag htag, hhead]
      rfl
    have hnew : extractPinnedSha newText = some (String.ofList sha) := by
      rcases hedit.mainTag with ⟨-, hmain'⟩ | ⟨hother, -⟩
      · rw [extractPinnedSha_eq, hmain', Option.bind_some, hedit.shaOf_fresh]
      · exact absurd hmain hother
    refine ⟨hnew, pin, hcur, above', indent, block, block', below, hedit.cur_eq, hedit.new_eq,
      hedit.closed, hedit.break_below, hedit.old, ?_, hitem⟩
    rw [String.toList_ofList]
    exact hedit.fresh

end Agreement

section Manifests

local instance asciiManifest : AsciiSpaces := AsciiSpaces.ascii

/-- A manifest of one image. -/
def pinnedManifest : String :=
  "- name: hermes-cluster-main\n  newTag: 0123456789012345678901234567890123456789\n"

/-- A manifest whose main image follows a moving tag, and another one is pinned. -/
def looseManifest : String :=
  "- name: o\n  newTag: 0123456789012345678901234567890123456789\n" ++
    "- name: hermes-cluster-main\n  newTag: latest\n"

def someDigest : String :=
  "sha256:" ++ "bbbbbbbbbbbbbbbbbbbbbbbbbbbbbbbbbbbbbbbbbbbbbbbbbbbbbbbbbbbbbbbb"

theorem reader_agrees_iff_pinnedManifest :
    ∃ newText, renderReleaseText pinnedManifest (String.ofList (List.replicate 40 'a')) someDigest
        "" {} = .ok newText ∧
      (Agree pinnedManifest (String.ofList (List.replicate 40 'a')) newText ↔
        PinnedPlainly pinnedManifest) := by
  have htags : (lineStarts pinnedManifest.toList).filterMap tagAt =
      [([' ', ' '], "0123456789012345678901234567890123456789".toList)] := by decide +kernel
  obtain ⟨newText, h⟩ : ∃ newText, renderReleaseText pinnedManifest
      (String.ofList (List.replicate 40 'a')) someDigest "" {} = .ok newText :=
    exists_render htags (by decide +kernel) (by decide) (List.all_eq_true.mp (by decide))
      (by decide +kernel) (by decide)
  exact ⟨newText, h, reader_agrees_iff h⟩

/-- The pin of another image is replaced, and the reader finds none. -/
theorem other_image_released :
    ¬∀ (text newSha digest runUrl newText : String) (compare : Compare),
      renderReleaseText text newSha digest runUrl compare = .ok newText →
        Agree text newSha newText := by
  intro hall
  have htags : (lineStarts looseManifest.toList).filterMap tagAt =
      [([' ', ' '], "0123456789012345678901234567890123456789".toList)] := by decide +kernel
  obtain ⟨newText, h⟩ : ∃ newText, renderReleaseText looseManifest
      (String.ofList (List.replicate 40 'a')) someDigest "" {} = .ok newText :=
    exists_render htags (by decide +kernel) (by decide) (List.all_eq_true.mp (by decide))
      (by decide +kernel) (by decide)
  obtain ⟨-, pin, hpin, -⟩ := hall _ _ _ _ _ _ h
  have hnone : mainTag looseManifest.toList = none := by decide +kernel
  rw [extractPinnedSha_eq, hnone] at hpin
  cases hpin

end Manifests

end ReleasePin

end HermesCluster
