import HermesCluster.Core.LandingGate
import HermesCluster.Lib.Words
/-!
# Reviews and the artifact they are of

What `_reviewer_of` takes for a review of `<repo>!<n>`, in terms of the texts: a lane of
that number whose path ends in the project, a reference in the title, or a merge request
in the title with the project's name in the title or the lane. The last two look for the
project's name as a text, so that it may be the end or a part of another name.
-/

namespace HermesCluster

namespace LandingGate

open Regex

/-! ## References -/

/-- `repo.rstrip("/").split("/")[-1]`. -/
def tailOf (repo : String) : String :=
  Text.lastSegment '/' (Text.rstripChar '/' repo)

section References

variable [Unicode]

/-- A character of one segment of a project path. -/
def isSegmentChar (c : Char) : Bool :=
  Unicode.isWord c || c = '.' || c = '-'

/-- The lane is `<path>!<n>`, perhaps with more behind it. -/
def LaneRef (tail n lane : String) : Prop :=
  ∃ path after, lane.toList = path ++ '!' :: (n.toList ++ after) ∧ '!' ∉ path ∧
    tailOf (String.ofList path) = tail ∧ Lacks Unicode.isDecimal after

/-- `<name>!<n>` occurs, and the number ends there. -/
def RefText (name n text : String) : Prop :=
  ∃ before after, text.toList = before ++ (name.toList ++ '!' :: (n.toList ++ after)) ∧
    Lacks Unicode.isWord after

/-- A path that ends in the tail occurs in front of `!<n>`, and both end there. -/
def RefIn (tail n text : String) : Prop :=
  ∃ before slashes after,
    text.toList = before ++ (tail.toList ++ (slashes ++ '!' :: (n.toList ++ after))) ∧
      (∀ c ∈ slashes, c = '/') ∧ Lacks isSegmentChar before.reverse ∧ Lacks Unicode.isWord after

/-- A path that ends in the tail occurs. -/
def PathIn (tail text : String) : Prop :=
  ∃ before slashes after, text.toList = before ++ (tail.toList ++ (slashes ++ after)) ∧
    (∀ c ∈ slashes, c = '/') ∧ Lacks isSegmentChar before.reverse ∧
      Lacks (fun c => isSegmentChar c || c = '/') after

/-- `MR !<n>` or `PR #<n>` occurs. -/
def RequestIn (n text : String) : Prop :=
  ∃ before kind blanks mark blanks' after,
    text.toList = before ++ (kind ++ (blanks ++ (mark ++ (blanks' ++ (n.toList ++ after))))) ∧
      (kind = ['M', 'R'] ∨ kind = ['P', 'R']) ∧ (∀ c ∈ blanks, Unicode.isSpace c = true) ∧
      (mark = [] ∨ mark = ['#'] ∨ mark = ['!']) ∧ (∀ c ∈ blanks', Unicode.isSpace c = true) ∧
      Lacks Unicode.isWord before.reverse ∧ Lacks Unicode.isWord after

/-- The task names the merge request, and a project path that ends like the artifact's. -/
def NamesArtifact (t : Task) (repo n : String) : Prop :=
  LaneRef (tailOf repo) n t.laneKey ∨ RefIn (tailOf repo) n t.title ∨
    RequestIn n t.title ∧ (PathIn (tailOf repo) t.laneKey ∨ PathIn (tailOf repo) t.title)

/-- The task is a completed review. -/
def Reviews (t : Task) : Prop :=
  Unicode.lower (Text.strip t.role) = "reviewer" ∧ t.status = .completed

/-- No path in the lane or the title of the review ends in the project's name, but the
text of the name does occur: in front of the number, or in the title or the lane beside a
merge request of the number. -/
structure Borrows (t : Task) (repo n : String) : Prop where
  reviews : Reviews t
  lane : ¬LaneRef (tailOf repo) n t.laneKey
  title : ¬RefIn (tailOf repo) n t.title
  paths : RequestIn n t.title → ¬PathIn (tailOf repo) t.laneKey ∧ ¬PathIn (tailOf repo) t.title
  occurs : RefText repo n t.title ∨ RefText (tailOf repo) n t.title ∨
    RequestIn n t.title ∧ ((tailOf repo).toList <:+: t.laneKey.toList ∨
      (tailOf repo).toList <:+: t.title.toList)

end References

/-! ## The number of a landing -/

section Number

variable [Unicode]

/-- A number as `\d+` reads it. -/
def IsNumber (n : String) : Prop :=
  n.toList ≠ [] ∧ ∀ c ∈ n.toList, Unicode.isDecimal c = true

variable {c c' : Cursor}

theorem groups_of_number (h : Reads (group (plus digit)) c c') :
    ∃ n, c'.groups = n :: c.groups ∧ IsNumber n := by
  obtain ⟨d, hread, rfl⟩ := reads_group_iff.mp h
  obtain ⟨x, w, hpass, hx, hw⟩ := reads_plus_chr_iff.mp hread
  refine ⟨c.between d, congrArg _ hpass.groups, ?_⟩
  rw [hpass.between, IsNumber, String.toList_ofList]
  exact ⟨List.cons_ne_nil x w, List.forall_mem_cons.mpr ⟨hx, hw⟩⟩

omit [Unicode] in
theorem groups_of_run {p : Char → Bool} (h : Reads (group (plus (chr p))) c c') :
    ∃ text, c'.groups = text :: c.groups := by
  obtain ⟨d, hread, rfl⟩ := reads_group_iff.mp h
  obtain ⟨x, w, hpass, -⟩ := reads_plus_chr_iff.mp hread
  exact ⟨c.between d, congrArg _ hpass.groups⟩

theorem captures_landLane {lane : List Char} (h : Reads landLaneRe ⟨[], lane, []⟩ c') :
    ∃ repo n, c'.captures = [repo, n] ∧ IsNumber n := by
  obtain ⟨c₁, h₁, hrest₁⟩ := reads_seqs_cons.mp h
  obtain ⟨c₂, h₂, hrest₂⟩ := reads_seqs_cons.mp hrest₁
  obtain ⟨c₃, h₃, hrest₃⟩ := reads_seqs_cons.mp hrest₂
  obtain ⟨c₄, h₄, hrest₄⟩ := reads_seqs_cons.mp hrest₃
  obtain rfl := reads_seqs_nil.mp hrest₄
  obtain ⟨-, rfl⟩ := reads_look_iff.mp h₄
  obtain ⟨repo, hrepo⟩ := groups_of_run h₁
  obtain ⟨n, hn, hnumber⟩ := groups_of_number h₃
  refine ⟨repo, n, ?_, hnumber⟩
  unfold Cursor.captures
  rw [hn, (reads_lit_iff.mp h₂).groups, hrepo]
  rfl

theorem captures_titleRef {before after : List Char}
    (h : Reads titleRefRe ⟨before, after, []⟩ c') :
    ∃ repo n, c'.captures = [repo, n] ∧ IsNumber n := by
  obtain ⟨c₁, h₁, hrest₁⟩ := reads_seqs_cons.mp h
  obtain ⟨c₂, h₂, hrest₂⟩ := reads_seqs_cons.mp hrest₁
  obtain ⟨c₃, h₃, hrest₃⟩ := reads_seqs_cons.mp hrest₂
  obtain rfl := reads_seqs_nil.mp hrest₃
  obtain ⟨repo, hrepo⟩ := groups_of_run h₁
  obtain ⟨n, hn, hnumber⟩ := groups_of_number h₃
  refine ⟨repo, n, ?_, hnumber⟩
  unfold Cursor.captures
  rw [hn, (reads_lit_iff.mp h₂).groups, hrepo]
  rfl

/-- The number of a landing is one. -/
theorem isNumber_of_landingArtifact {task : Task} {repo n : String}
    (h : landingArtifact task = some (repo, n)) : IsNumber n := by
  unfold landingArtifact at h
  split at h
  · rename_i repo' n' hmatch
    obtain ⟨c', hc', hcaptures⟩ := Option.map_eq_some_iff.mp hmatch
    obtain ⟨repo'', n'', hcaptures', hnumber⟩ := captures_landLane (reads_of_matchK_some hc')
    rw [hcaptures] at hcaptures'
    cases h
    cases hcaptures'
    exact hnumber
  · split at h
    · split at h
      · rename_i repo' n' hsearch
        obtain ⟨c', hc', hcaptures⟩ := Option.map_eq_some_iff.mp hsearch
        obtain ⟨⟨start, finish⟩, hfrom, rfl⟩ := Option.map_eq_some_iff.mp hc'
        obtain ⟨w, -, hstart, hmatch, -⟩ := searchFrom_eq_some hfrom
        rw [hstart] at hmatch
        obtain ⟨repo'', n'', hcaptures', hnumber⟩ :=
          captures_titleRef (reads_of_matchK_some hmatch)
        dsimp only at hcaptures
        rw [hcaptures] at hcaptures'
        cases h
        cases hcaptures'
        exact hnumber
      · cases h
    · cases h

end Number

/-! ## The patterns -/

section Patterns

variable [WordUnicode] {n text : String}

/-- Behind a number `\b` sees to it that no word character follows. -/
theorem reads_number_boundary {c c' : Cursor} (hn : IsNumber n) :
    Reads (seqs [lit n, wordBoundary]) c c' ↔
      c.Passes n.toList c' ∧ Lacks Unicode.isWord c'.after := by
  rw [reads_seqs_cons]
  have hlast : ∀ d, c.Passes n.toList d → ∃ x xs, d.before = x :: xs ∧ Unicode.isWord x = true := by
    intro d hpass
    obtain ⟨init, x, hsplit⟩ := (List.eq_nil_or_concat n.toList).resolve_left hn.1
    refine ⟨x, init.reverse ++ c.before, ?_, ?_⟩
    · rw [hpass.before, hsplit]
      simp
    · refine isWord_of_isDecimal (hn.2 x ?_)
      rw [hsplit]
      simp
  constructor
  · rintro ⟨d, hlit, hrest⟩
    have hpass := reads_lit_iff.mp hlit
    obtain ⟨x, xs, hbefore, hx⟩ := hlast d hpass
    obtain ⟨d', hboundary, hnil⟩ := reads_seqs_cons.mp hrest
    obtain rfl := reads_seqs_nil.mp hnil
    obtain ⟨hlacks, rfl⟩ := (reads_boundary_of_word_before hbefore hx).mp hboundary
    exact ⟨hpass, hlacks⟩
  · rintro ⟨hpass, hlacks⟩
    obtain ⟨x, xs, hbefore, hx⟩ := hlast c' hpass
    refine ⟨c', reads_lit_iff.mpr hpass, reads_seqs_cons.mpr ⟨c', ?_, reads_seqs_nil.mpr rfl⟩⟩
    exact (reads_boundary_of_word_before hbefore hx).mpr ⟨hlacks, rfl⟩

/-- A reference `<repo>!<n>` or `<tail>!<n>` is found where the text has one. -/
theorem found_artifactRef_iff {repo tail : String} (hn : IsNumber n) :
    (artifactRefRe repo tail n).found text = true ↔
      RefText repo n text ∨ RefText tail n text := by
  unfold artifactRefRe
  rw [found_iff]
  constructor
  · rintro ⟨before, rest, c', htext, hread⟩
    obtain ⟨c₁, hname, hrest₁⟩ := reads_seqs_cons.mp hread
    obtain ⟨c₂, hbang, hrest₂⟩ := reads_seqs_cons.mp hrest₁
    obtain ⟨hnumber, hlacks⟩ := (reads_number_boundary hn).mp hrest₂
    have hmark : c₁.after = '!' :: (n.toList ++ c'.after) := by
      rw [(reads_lit_iff.mp hbang).after, hnumber.after]
      rfl
    have hoccurs : ∀ name : String, Reads (lit name) ⟨before.reverse, rest, []⟩ c₁ →
        RefText name n text := by
      intro name hlit
      have hrest : rest = name.toList ++ c₁.after := (reads_lit_iff.mp hlit).after
      exact ⟨before, c'.after, by rw [htext, hrest, hmark], hlacks⟩
    obtain _ | _ | _ | _ | hrepo | htail := hname
    · exact .inl (hoccurs repo hrepo)
    · exact .inr (hoccurs tail htail)
  · have hreads : ∀ name : String, (∀ c c' : Cursor, Reads (lit name) c c' →
        Reads (alt (lit repo) (lit tail)) c c') → RefText name n text →
        ∃ u v c', text.toList = u ++ v ∧
          Reads (seqs [alt (lit repo) (lit tail), lit "!", lit n, wordBoundary])
            ⟨u.reverse, v, []⟩ c' := by
      rintro name halt ⟨before, after, htext, hlacks⟩
      have hsplit : (⟨before.reverse, name.toList ++ '!' :: (n.toList ++ after), []⟩ : Cursor).after
          = name.toList ++ ("!".toList ++ (n.toList ++ after)) := rfl
      obtain ⟨c₁, hname, hrest₁⟩ := Cursor.exists_passes hsplit
      obtain ⟨c₂, hbang, hrest₂⟩ := Cursor.exists_passes hrest₁
      obtain ⟨c₃, hnumber, rfl⟩ := Cursor.exists_passes hrest₂
      refine ⟨before, _, c₃, htext, ?_⟩
      refine reads_seqs_cons.mpr ⟨c₁, halt _ _ (reads_lit_iff.mpr hname), ?_⟩
      refine reads_seqs_cons.mpr ⟨c₂, reads_lit_iff.mpr hbang, ?_⟩
      exact (reads_number_boundary hn).mpr ⟨hnumber, hlacks⟩
    rintro (hrepo | htail)
    · exact hreads repo (fun _ _ h => .left h) hrepo
    · exact hreads tail (fun _ _ h => .right h) htail

omit [WordUnicode] in
theorem reads_request_kind_iff {c c' : Cursor} :
    Reads (alt (lit "MR") (lit "PR")) c c' ↔
      ∃ kind, c.Passes kind c' ∧ (kind = ['M', 'R'] ∨ kind = ['P', 'R']) := by
  constructor
  · intro h
    obtain _ | _ | _ | _ | hmr | hpr := h
    · exact ⟨_, reads_lit_iff.mp hmr, .inl rfl⟩
    · exact ⟨_, reads_lit_iff.mp hpr, .inr rfl⟩
  · rintro ⟨kind, hpass, rfl | rfl⟩
    · exact .left (reads_lit_iff.mpr hpass)
    · exact .right (reads_lit_iff.mpr hpass)

omit [WordUnicode] in
theorem reads_mark_iff {c c' : Cursor} :
    Reads (opt (oneOf "#!")) c c' ↔
      ∃ mark, c.Passes mark c' ∧ (mark = [] ∨ mark = ['#'] ∨ mark = ['!']) := by
  have hone : ∀ x : Char, "#!".toList.contains x = true ↔ x = '#' ∨ x = '!' := by
    intro x
    rw [List.contains_iff_mem]
    exact List.mem_cons.trans (or_congr_right List.mem_singleton)
  unfold oneOf
  rw [reads_opt_chr_iff]
  constructor
  · rintro (rfl | ⟨x, hpass, hx⟩)
    · exact ⟨[], Cursor.Passes.refl _, .inl rfl⟩
    · obtain rfl | rfl := (hone x).mp hx
      · exact ⟨_, hpass, .inr (.inl rfl)⟩
      · exact ⟨_, hpass, .inr (.inr rfl)⟩
  · rintro ⟨mark, hpass, rfl | rfl | rfl⟩
    · exact .inl (hpass.unique (Cursor.Passes.refl _))
    · exact .inr ⟨'#', hpass, (hone '#').mpr (.inl rfl)⟩
    · exact .inr ⟨'!', hpass, (hone '!').mpr (.inr rfl)⟩

theorem exists_word_of_kind {kind : List Char} (h : kind = ['M', 'R'] ∨ kind = ['P', 'R']) :
    ∃ x xs, kind = x :: xs ∧ Unicode.isWord x = true := by
  rcases h with rfl | rfl
  · exact ⟨'M', ['R'], rfl, isWord_of_isLetterI (by decide)⟩
  · exact ⟨'P', ['R'], rfl, isWord_of_isLetterI (by decide)⟩

/-- A merge request is found where the text has one. -/
theorem found_mergeRequest_iff (hn : IsNumber n) :
    (mergeRequestRe n).found text = true ↔ RequestIn n text := by
  unfold mergeRequestRe
  rw [found_iff]
  constructor
  · rintro ⟨before, rest, c', htext, hread⟩
    obtain ⟨c₁, hboundary, hrest₁⟩ := reads_seqs_cons.mp hread
    obtain ⟨c₂, hreadKind, hrest₂⟩ := reads_seqs_cons.mp hrest₁
    obtain ⟨c₃, hreadBlanks, hrest₃⟩ := reads_seqs_cons.mp hrest₂
    obtain ⟨c₄, hreadMark, hrest₄⟩ := reads_seqs_cons.mp hrest₃
    obtain ⟨c₅, hreadBlanks', hrest₅⟩ := reads_seqs_cons.mp hrest₄
    obtain ⟨hnumber, hlacks⟩ := (reads_number_boundary hn).mp hrest₅
    obtain ⟨kind, hpassKind, hkind⟩ := reads_request_kind_iff.mp hreadKind
    obtain ⟨blanks, hpassBlanks, hblanks⟩ := reads_star_chr_iff.mp hreadBlanks
    obtain ⟨mark, hpassMark, hmark⟩ := reads_mark_iff.mp hreadMark
    obtain ⟨blanks', hpassBlanks', hblanks'⟩ := reads_star_chr_iff.mp hreadBlanks'
    obtain ⟨x, xs, rfl, hx⟩ := exists_word_of_kind hkind
    obtain ⟨-, rfl⟩ := reads_look_iff.mp hboundary
    obtain ⟨hfirst, -⟩ := (reads_boundary_of_word_after hpassKind.after hx).mp hboundary
    refine ⟨before, x :: xs, blanks, mark, blanks', c'.after, ?_, hkind, hblanks, hmark, hblanks',
      hfirst, hlacks⟩
    have hrest : rest = x :: xs ++ c₂.after := hpassKind.after
    rw [htext, hrest, hpassBlanks.after, hpassMark.after, hpassBlanks'.after, hnumber.after]
  · rintro ⟨before, kind, blanks, mark, blanks', after, htext, hkind, hblanks, hmark, hblanks',
      hfirst, hlacks⟩
    let start : Cursor := ⟨before.reverse,
      kind ++ (blanks ++ (mark ++ (blanks' ++ (n.toList ++ after)))), []⟩
    have hstart : start.after =
        kind ++ (blanks ++ (mark ++ (blanks' ++ (n.toList ++ after)))) := rfl
    obtain ⟨c₂, hpassKind, hrest₂⟩ := Cursor.exists_passes hstart
    obtain ⟨c₃, hpassBlanks, hrest₃⟩ := Cursor.exists_passes hrest₂
    obtain ⟨c₄, hpassMark, hrest₄⟩ := Cursor.exists_passes hrest₃
    obtain ⟨c₅, hpassBlanks', hrest₅⟩ := Cursor.exists_passes hrest₄
    obtain ⟨c₆, hnumber, rfl⟩ := Cursor.exists_passes hrest₅
    obtain ⟨x, xs, rfl, hx⟩ := exists_word_of_kind hkind
    refine ⟨before, _, c₆, htext, ?_⟩
    refine reads_seqs_cons.mpr
      ⟨start, (reads_boundary_of_word_after hstart hx).mpr ⟨hfirst, rfl⟩, ?_⟩
    refine reads_seqs_cons.mpr
      ⟨c₂, reads_request_kind_iff.mpr ⟨x :: xs, hpassKind, hkind⟩, ?_⟩
    refine reads_seqs_cons.mpr ⟨c₃, reads_star_chr_iff.mpr ⟨blanks, hpassBlanks, hblanks⟩, ?_⟩
    refine reads_seqs_cons.mpr ⟨c₄, reads_mark_iff.mpr ⟨mark, hpassMark, hmark⟩, ?_⟩
    refine reads_seqs_cons.mpr ⟨c₅, reads_star_chr_iff.mpr ⟨blanks', hpassBlanks', hblanks'⟩, ?_⟩
    exact (reads_number_boundary hn).mpr ⟨hnumber, hlacks⟩

end Patterns

/-! ## The lane -/

section Lane

variable [Unicode] {n : String}

theorem matchStart_digits {text : String} {w after : List Char} (htext : text.toList = w ++ after)
    (hw : ∀ x ∈ w, Unicode.isDecimal x = true) (hafter : Lacks Unicode.isDecimal after)
    (hpos : w ≠ []) :
    (seqs [group (plus digit)]).matchStart text = some ⟨w.reverse, after, [String.ofList w]⟩ := by
  obtain ⟨c', hpass, rfl⟩ :=
    Cursor.exists_passes (c := ⟨[], text.toList, []⟩) htext
  have hbetween := hpass.between
  have hbefore : c'.before = w.reverse := by
    rw [hpass.before, List.append_nil]
  have hgroups : c'.groups = [] := hpass.groups
  unfold matchStart
  change (plus digit).matchK ⟨[], text.toList, []⟩ (fun d => some
    { d with groups := Cursor.between ⟨[], text.toList, []⟩ d :: d.groups }) = _
  unfold plus digit
  rw [matchK_rep_chr_of_run hpass hw (lacks_iff.mp hafter) (List.length_pos_iff.mpr hpos) rfl,
    hbetween, hbefore, hgroups]

/-- The number of a lane is the run of digits behind its first `!`. -/
theorem laneNumber_eq_some_iff {text : String} (hn : IsNumber n) :
    laneNumber text = some n ↔
      ∃ after, text.toList = n.toList ++ after ∧ Lacks Unicode.isDecimal after := by
  obtain ⟨w, after, htext, hw, hafter⟩ := exists_run Unicode.isDecimal text.toList
  by_cases hempty : w = []
  · have hnone : laneNumber text = none := by
      unfold laneNumber
      rw [Option.bind_eq_none_iff]
      intro c hmatch
      obtain ⟨c₁, hgroup, -⟩ := reads_seqs_cons.mp (reads_of_matchK_some hmatch)
      obtain ⟨c₂, hplus, -⟩ := reads_group_iff.mp hgroup
      obtain ⟨x, xs, hpass, hx, -⟩ := reads_plus_chr_iff.mp hplus
      subst hempty
      have hstart : after = x :: (xs ++ c₂.after) := htext.symm.trans hpass.after
      rw [hstart, lacks_cons_iff, hx] at hafter
      cases hafter
    rw [hnone]
    refine iff_of_false (by simp) ?_
    rintro ⟨after', htext', hafter'⟩
    have hrun := run_unique (htext.symm.trans htext') hw hn.2 hafter hafter'
    exact hn.1 (hrun.1.symm.trans hempty)
  · have hsome : laneNumber text = some (String.ofList w) := by
      unfold laneNumber
      rw [matchStart_digits htext hw hafter hempty]
      rfl
    rw [hsome, Option.some_inj]
    constructor
    · rintro rfl
      exact ⟨after, by rw [htext, String.toList_ofList], hafter⟩
    · rintro ⟨after', htext', hafter'⟩
      have hrun := run_unique (htext.symm.trans htext') hw hn.2 hafter hafter'
      rw [hrun.1, String.ofList_toList]

omit [Unicode] in
/-- What `partition` makes of a text with the separator. -/
theorem partition_eq {text : String} {path after : List Char}
    (htext : text.toList = path ++ '!' :: after) (hpath : '!' ∉ path) :
    Text.partition '!' text = (String.ofList path, String.ofList after) := by
  have hother : ∀ d ∈ path, decide (d ≠ '!') = true := by
    intro d hd
    rw [decide_eq_true_eq]
    rintro rfl
    exact hpath hd
  unfold Text.partition
  rw [htext, List.takeWhile_append_of_pos hother, List.dropWhile_append_of_pos hother]
  simp

/-- The lane of a round names the number and a path that ends in the tail. -/
theorem laneRef_iff {tail lane : String} (hn : IsNumber n) :
    LaneRef tail n lane ↔ Text.contains lane "!" = true ∧
      laneNumber (Text.partition '!' lane).2 = some n ∧
        Text.lastSegment '/' (Text.rstripChar '/' (Text.partition '!' lane).1) = tail := by
  rw [laneNumber_eq_some_iff hn]
  constructor
  · rintro ⟨path, after, hlane, hpath, htail, hlacks⟩
    rw [partition_eq hlane hpath, String.toList_ofList]
    refine ⟨?_, ⟨after, rfl, hlacks⟩, htail⟩
    rw [Text.contains_iff, hlane]
    exact ⟨path, n.toList ++ after, by simp⟩
  · rintro ⟨hcontains, ⟨after, hnumber, hlacks⟩, htail⟩
    rw [Text.contains_iff] at hcontains
    have hmem : '!' ∈ lane.toList := hcontains.subset (List.mem_singleton.mpr rfl)
    obtain ⟨path, rest, hlane, hpath⟩ := List.eq_append_cons_of_mem hmem
    rw [partition_eq hlane hpath] at hnumber htail
    rw [String.toList_ofList] at hnumber
    exact ⟨path, after, by rw [hlane, hnumber], hpath, htail, hlacks⟩

end Lane

/-! ## Reviews -/

section Reviews

variable [WordUnicode] {t : Task} {repo n : String}

theorem reviewerOf_iff (hn : IsNumber n) :
    reviewerOf t repo n = true ↔ Reviews t ∧
      (LaneRef (tailOf repo) n t.laneKey ∨ RefText repo n t.title ∨
        RefText (tailOf repo) n t.title ∨
        RequestIn n t.title ∧ ((tailOf repo).toList <:+: t.laneKey.toList ∨
          (tailOf repo).toList <:+: t.title.toList)) := by
  rw [laneRef_iff hn, ← Text.contains_iff, ← Text.contains_iff, ← found_mergeRequest_iff hn,
    ← or_assoc (a := RefText repo n t.title), ← found_artifactRef_iff hn]
  unfold reviewerOf Reviews
  dsimp only
  by_cases hrole : Unicode.lower (Text.strip t.role) = "reviewer"
  · by_cases hstatus : t.status = .completed
    · rw [if_neg (not_not_intro hrole), if_neg (not_not_intro hstatus)]
      simp only [hrole, hstatus, true_and, Bool.if_true_left, Bool.or_eq_true, Bool.and_eq_true,
        decide_eq_true_eq, tailOf, and_assoc]
    · rw [if_neg (not_not_intro hrole), if_pos hstatus]
      simp only [hstatus, and_false, false_and, Bool.false_eq_true]
  · rw [if_pos hrole]
    simp only [hrole, false_and, Bool.false_eq_true]

/-- A board's reviews are of the merge request they name, exactly where no completed
reviewer task borrows the text of the project from another name. -/
theorem reviews_name_artifact_iff {landing : Task} (board : List Task)
    (hlanding : landingArtifact landing = some (repo, n)) :
    (∀ t ∈ board, reviewerOf t repo n = true → NamesArtifact t repo n) ↔
      ∀ t ∈ board, ¬Borrows t repo n := by
  have hn := isNumber_of_landingArtifact hlanding
  refine forall₂_congr fun t ht => ?_
  rw [reviewerOf_iff hn]
  constructor
  · rintro hnames ⟨hreviews, hlane, htitle, hpaths, hoccurs⟩
    obtain hnamed | hnamed | ⟨hrequest, hpath⟩ := hnames ⟨hreviews, .inr hoccurs⟩
    · exact hlane hnamed
    · exact htitle hnamed
    · obtain ⟨hnoLane, hnoTitle⟩ := hpaths hrequest
      exact hpath.elim hnoLane hnoTitle
  · rintro hborrows ⟨hreviews, hlane | hoccurs⟩
    · exact .inl hlane
    · by_contra hunnamed
      refine hborrows ⟨hreviews, fun hlane => hunnamed (.inl hlane),
        fun htitle => hunnamed (.inr (.inl htitle)), fun hrequest => ?_, hoccurs⟩
      exact ⟨fun hpath => hunnamed (.inr (.inr ⟨hrequest, .inl hpath⟩)),
        fun hpath => hunnamed (.inr (.inr ⟨hrequest, .inr hpath⟩))⟩

end Reviews

section Example

local instance wordReviews : WordUnicode := WordUnicode.ascii

/-- A landing of `repo!12`. -/
def landingTwelve : Task :=
  { id := "l", title := "LAND repo!12", laneKey := "repo#land-12", createdAt := 3, updatedAt := 3 }

/-- A completed review. -/
def reviewOf (laneKey title : String) : Task :=
  { id := "v", title, laneKey, role := "reviewer", status := .completed, createdAt := 1,
    updatedAt := 2 }

/-- The second round of a review names its merge request in the lane. -/
theorem second_round_names_artifact :
    landingArtifact landingTwelve = some ("repo", "12") ∧
      reviewerOf (reviewOf "repo!12-rev2" "second round") "repo" "12" = true ∧
      NamesArtifact (reviewOf "repo!12-rev2" "second round") "repo" "12" := by
  have hlanding : landingArtifact landingTwelve = some ("repo", "12") := by decide
  have hround : reviewerOf (reviewOf "repo!12-rev2" "second round") "repo" "12" = true := by decide
  have hlane : LaneRef (tailOf "repo") "12" "repo!12-rev2" :=
    ⟨"repo".toList, "-rev2".toList, by decide, by decide, by decide, by decide⟩
  refine ⟨hlanding, hround, ?_⟩
  have hiff := reviews_name_artifact_iff [reviewOf "repo!12-rev2" "second round"] hlanding
  refine hiff.mpr ?_ _ (List.mem_singleton.mpr rfl) hround
  rintro t ht ⟨-, hnoLane, -⟩
  obtain rfl := List.mem_singleton.mp ht
  exact hnoLane hlane

/-- The review of another project's merge request is taken for one of `repo!12`. -/
theorem foreign_review_is_taken :
    landingArtifact landingTwelve = some ("repo", "12") ∧
      reviewerOf (reviewOf "" "xrepo!12") "repo" "12" = true ∧
      ¬NamesArtifact (reviewOf "" "xrepo!12") "repo" "12" := by
  refine ⟨by decide, by decide, ?_⟩
  rintro (⟨path, after, hlane, -⟩ | ⟨before, slashes, after, htitle, hslashes, hlacks, -⟩ |
    ⟨hrequest, -⟩)
  · exact List.append_ne_nil_of_right_ne_nil path (List.cons_ne_nil _ _) hlane.symm
  · have hsplit : "xrepo".toList ++ '!' :: "12".toList =
        (before ++ ("repo".toList ++ slashes)) ++ '!' :: ("12".toList ++ after) := by
      rw [List.append_assoc, List.append_assoc]
      exact htitle
    have hpath := ((List.append_cons_inj_of_notMem (by decide) (by decide)).mp hsplit).1
    have hnone : slashes = [] := by
      refine List.eq_nil_iff_forall_not_mem.mpr fun c hc => ?_
      have hslash : '/' ∈ "xrepo".toList := by
        rw [hpath, ← hslashes c hc]
        exact List.mem_append_right _ (List.mem_append_right _ hc)
      exact absurd hslash (by decide)
    rw [hnone, List.append_nil] at hpath
    have hcancel : ['x'] ++ "repo".toList = before ++ "repo".toList := hpath
    have hbefore : before = ['x'] := (List.append_cancel_right hcancel).symm
    rw [hbefore] at hlacks
    exact absurd hlacks (by decide)
  · obtain ⟨before, kind, blanks, mark, blanks', after, htitle, hkind, -⟩ := hrequest
    have hletter : 'R' ∈ "xrepo!12".toList := by
      refine htitle ▸ List.mem_append_right _ (List.mem_append_left _ ?_)
      rcases hkind with rfl | rfl <;> decide
    exact absurd hletter (by decide)

end Example

end LandingGate

end HermesCluster
