import HermesCluster.Core.ReviewerGate
import HermesCluster.Lib.Matching
/-!
# The two readers of a review

`landing_gate.parse_reviewer_verdict` reads a labelled verdict, and
`reviewer_gate.reviewer_verdict` falls back on other forms. Here: on which texts
the two agree, and on which the landing gate overlooks a later verdict.
-/

namespace HermesCluster

namespace VerdictReaders

open Regex LandingGate ReviewerGate

/-- Tables in which no letter is white space. -/
class SpacedUnicode extends Unicode where
  not_isSpace : ∀ c, isLetterI c = true → isSpace c = false

abbrev SpacedUnicode.ascii : SpacedUnicode where
  toUnicode := Unicode.ascii
  not_isSpace := by
    intro c hletter
    by_contra hspace
    rw [Bool.not_eq_false] at hspace
    have hsmall := asciiIsSpace_le hspace
    have hall : ∀ n, n ≤ 32 → isLetterI (Char.ofNat n) = false := by decide
    have hnot := hall c.toNat hsmall
    rw [Char.ofNat_toNat, hletter] at hnot
    cases hnot

/-! ## Labelled words -/

section Labelled

variable [Unicode]

/-- A label, and one of these words after it. -/
def labelled (words : List String) : Regex :=
  seqs [verdictLabel, group (alts (words.map litI))]

/-- The words of `_VERDICT_RE`. -/
def readableWords : List String :=
  ["PASS", "NEEDS-CHANGES", "NEEDS_CHANGES", "NEEDS-HUMAN", "INCOMPLETE-ROSTER"]

/-- The words of the shared vocabulary that `_VERDICT_RE` lacks. -/
def unreadableWords : List String :=
  ["NEEDS_HUMAN", "NOT-READY", "NOT_READY", "INCOMPLETE_ROSTER"]

/-- The verdict vocabulary of the two gates, with hyphens or underscores. -/
def vocabulary : List String :=
  readableWords ++ unreadableWords

theorem verdictRe_eq : verdictRe = labelled readableWords := rfl

theorem captures_labelled (words : List String) : Captures (labelled words) :=
  captures_seqs (List.mem_cons_of_mem _ List.mem_cons_self) captures_group

theorem reads_labelled_mono {words words' : List String} (hsub : words ⊆ words') {c c' : Cursor}
    (h : Reads (labelled words) c c') : Reads (labelled words') c c' := by
  obtain ⟨c₁, hlabel, hrest⟩ := reads_seqs_cons.mp h
  obtain ⟨c₂, hgroup, hend⟩ := reads_seqs_cons.mp hrest
  obtain ⟨c₃, halts, hc₂⟩ := reads_group_iff.mp hgroup
  obtain ⟨r, hmem, hread⟩ := reads_alts_iff.mp halts
  obtain ⟨word, hword, rfl⟩ := List.mem_map.mp hmem
  have halts' : Reads (alts (words'.map litI)) c₁ c₃ :=
    reads_alts_iff.mpr ⟨_, List.mem_map_of_mem (hsub hword), hread⟩
  exact reads_seqs_cons.mpr ⟨c₁, hlabel,
    reads_seqs_cons.mpr ⟨c₂, reads_group_iff.mpr ⟨c₃, halts', hc₂⟩, hend⟩⟩

end Labelled

/-! ## Where a label can be -/

section Positions

variable [SpacedUnicode] {c c' c'' : Cursor}

/-- Between the label and its word there is no letter. -/
theorem reads_verdictLabel (h : Reads verdictLabel c c') :
    ∃ v gap, c.Passes (v ++ gap) c' ∧
      List.Forall₂ (fun a x => foldEq a x = true) "verdict".toList v ∧
      ∀ x ∈ gap, isLetterI x = false := by
  obtain ⟨c₁, hword, hgap⟩ := reads_seqs_cons.mp h
  obtain ⟨v, hv, hfold⟩ := reads_litI_iff.mp hword
  have hspace : Within (fun x => isLetterI x = false) (star space) := by
    refine within_rep (within_chr (fun x hx => ?_)) 0 none true
    by_contra hletter
    rw [SpacedUnicode.not_isSpace x (eq_true_of_ne_false hletter)] at hx
    cases hx
  have hstars : Within (fun x => isLetterI x = false) stars := by
    refine within_rep (within_chr (fun x hx => ?_)) 0 (some 2) true
    rw [List.contains_iff_mem, show "*".toList = ['*'] from rfl, List.mem_singleton] at hx
    subst hx
    decide
  have hcolon : Within (fun x => isLetterI x = false) (opt (lit ":")) := by
    refine within_rep (within_seqs ?_) 0 (some 1) true
    rw [show ":".toList = [':'] from rfl, List.map_singleton, List.forall_mem_singleton]
    refine within_chr (fun x hx => ?_)
    rw [decide_eq_true_eq] at hx
    subst hx
    decide
  have hother : Within (fun x => isLetterI x = false)
      (upTo 4 (chr (fun c => !isLetterI c))) :=
    within_rep (within_chr (fun x hx => (Bool.not_eq_true' _).mp hx)) 0 (some 4) true
  have hall : Within (fun x => isLetterI x = false)
      (seqs [upTo 4 (chr (fun c => !isLetterI c)), stars, star space, opt (lit ":"),
        star space, stars, star space]) := by
    refine within_seqs ?_
    simp only [List.forall_mem_cons]
    exact ⟨hother, hstars, hspace, hcolon, hspace, hstars, hspace, fun _ h => nomatch h⟩
  obtain ⟨gap, hpass, hgap⟩ := hall _ _ hgap
  exact ⟨v, gap, hv.trans hpass, hfold, hgap⟩

/-- A labelled word: the label, no letters, the word. -/
structure LabelledAt (words : List String) (c : Cursor) (v gap w : List Char) (c' : Cursor) :
    Prop where
  after : c.after = v ++ gap ++ w ++ c'.after
  before : c'.before = (v ++ gap ++ w).reverse ++ c.before
  groups : c'.groups = String.ofList w :: c.groups
  label : v.map foldChar = "verdict".toList
  gap : ∀ x ∈ gap, isLetterI x = false
  word : ∃ word ∈ words, w.map foldChar = word.toList.map Unicode.asciiLowerChar

/-- All words are ASCII. -/
theorem reads_labelled {words : List String} (hascii : ∀ word ∈ words, ∀ a ∈ word.toList,
    a.toNat < 128) (h : Reads (labelled words) c c') :
    ∃ v gap w, LabelledAt words c v gap w c' := by
  obtain ⟨c₁, hlabel, hrest⟩ := reads_seqs_cons.mp h
  obtain ⟨c₂, hgroup, hend⟩ := reads_seqs_cons.mp hrest
  rw [reads_seqs_nil] at hend
  subst hend
  obtain ⟨c₃, halts, rfl⟩ := reads_group_iff.mp hgroup
  obtain ⟨r, hmem, hread⟩ := reads_alts_iff.mp halts
  obtain ⟨word, hword, rfl⟩ := List.mem_map.mp hmem
  obtain ⟨v, gap, hpass, hv, hgap⟩ := reads_verdictLabel hlabel
  obtain ⟨w, hpass', hw⟩ := reads_litI_iff.mp hread
  have htrans := hpass.trans hpass'
  refine ⟨v, gap, w, htrans.after, htrans.before, ?_, ?_, hgap, word, hword,
    map_foldChar (hascii word hword) hw⟩
  · change c₁.between c₃ :: c₃.groups = String.ofList w :: c.groups
    rw [hpass'.between, htrans.groups]
  · rw [map_foldChar (by simp) hv]
    decide

omit [SpacedUnicode] in
theorem vocabulary_ascii : ∀ word ∈ vocabulary, ∀ a ∈ word.toList, a.toNat < 128 := by
  simp [vocabulary, readableWords, unreadableWords]

omit [SpacedUnicode] in
/-- No word begins with another one. -/
theorem vocabulary_prefix_free : ∀ word ∈ vocabulary, ∀ word' ∈ vocabulary,
    (word.toList.map Unicode.asciiLowerChar) <+: (word'.toList.map Unicode.asciiLowerChar) →
      word = word' := by
  decide

omit [SpacedUnicode] in
theorem vocabulary_letters : ∀ word ∈ vocabulary,
    'v' ∉ word.toList.map Unicode.asciiLowerChar ∧
      ∃ a ∈ (word.toList.map Unicode.asciiLowerChar).head?, 'a' ≤ a ∧ a ≤ 'z' := by
  simp [vocabulary, readableWords, unreadableWords, Unicode.asciiLowerChar]

variable {v v' gap gap' w w' : List Char}

omit [SpacedUnicode] in
/-- The word begins where the first letter after the label is. -/
theorem LabelledAt.takeWhile (h : LabelledAt vocabulary c v gap w c') :
    (gap ++ (w ++ c'.after)).takeWhile (fun x => !isLetterI x) = gap := by
  obtain ⟨word, hword, hw⟩ := h.word
  obtain ⟨-, a, ha, hletter⟩ := vocabulary_letters word hword
  have hgap : ∀ x ∈ gap, (!isLetterI x) = true := by
    intro x hx
    rw [h.gap x hx]
    rfl
  rw [List.takeWhile_append_of_pos hgap]
  cases w with
  | nil =>
      rw [← hw] at ha
      cases ha
  | cons y ys =>
      rw [← hw, List.map_cons, List.head?_cons, Option.mem_some_iff] at ha
      subst ha
      rw [List.cons_append, List.takeWhile_cons_of_neg, List.append_nil]
      rw [isLetterI_of_foldChar hletter]
      exact Bool.false_ne_true

omit [SpacedUnicode] in
/-- From one position there is at most one labelled word. -/
theorem LabelledAt.unique (h : LabelledAt vocabulary c v gap w c')
    (h' : LabelledAt vocabulary c v' gap' w' c'') : c' = c'' := by
  have hlength : v.length = v'.length := by
    rw [← List.length_map foldChar, h.label, ← h'.label, List.length_map]
  have hafter : v ++ (gap ++ (w ++ c'.after)) = v' ++ (gap' ++ (w' ++ c''.after)) := by
    have heq := h.after.symm.trans h'.after
    simpa only [List.append_assoc] using heq
  obtain ⟨rfl, htail⟩ := List.append_inj hafter hlength
  have hgap : gap = gap' := by
    rw [← h.takeWhile, htail, h'.takeWhile]
  subst hgap
  have hwords := List.append_cancel_left htail
  obtain ⟨word, hword, hw⟩ := h.word
  obtain ⟨word', hword', hw'⟩ := h'.word
  have hlengths : w.length = w'.length := by
    have hpre : w.map foldChar <+: (w ++ c'.after).map foldChar := by
      rw [List.map_append]
      exact List.prefix_append _ _
    have hpre' : w'.map foldChar <+: (w ++ c'.after).map foldChar := by
      rw [hwords, List.map_append]
      exact List.prefix_append _ _
    rw [hw] at hpre
    rw [hw'] at hpre'
    have hsame : word = word' := by
      rcases List.prefix_or_prefix_of_prefix hpre hpre' with hle | hle
      · exact vocabulary_prefix_free word hword word' hword' hle
      · exact (vocabulary_prefix_free word' hword' word hword hle).symm
    rw [← List.length_map foldChar, hw, hsame, ← hw', List.length_map]
  obtain ⟨rfl, hrest⟩ := List.append_inj hwords hlengths
  have hbefore := h.before.trans h'.before.symm
  have hgroups := h.groups.trans h'.groups.symm
  cases c'
  cases c''
  simp_all

omit [SpacedUnicode] in
/-- After its first letter no label begins inside a labelled word. -/
theorem LabelledAt.no_label_inside (h : LabelledAt vocabulary c v gap w c') :
    ∃ x tail, v ++ gap ++ w = x :: tail ∧ ∀ y ∈ tail, foldChar y ≠ 'v' := by
  cases v with
  | nil => exact absurd h.label (by decide)
  | cons x rest =>
      refine ⟨x, rest ++ gap ++ w, rfl, fun y hy hv => ?_⟩
      have hlabel : rest.map foldChar = "erdict".toList := by
        have hcons := h.label
        rw [List.map_cons] at hcons
        exact (List.cons.inj hcons).2
      rw [List.mem_append, List.mem_append] at hy
      rcases hy with (hrest | hgap) | hword
      · have hmem : 'v' ∈ "erdict".toList := by
          rw [← hlabel, ← hv]
          exact List.mem_map_of_mem hrest
        revert hmem
        decide
      · have hletter : isLetterI y = true := isLetterI_of_foldChar (by rw [hv]; decide)
        rw [h.gap y hgap] at hletter
        cases hletter
      · obtain ⟨word, hmem, hw⟩ := h.word
        refine (vocabulary_letters word hmem).1 ?_
        rw [← hw, ← hv]
        exact List.mem_map_of_mem hword

theorem exists_labelledAt {words : List String} (hwords : words ⊆ vocabulary)
    (h : Reads (labelled words) c c') : ∃ v gap w, LabelledAt vocabulary c v gap w c' :=
  reads_labelled vocabulary_ascii (reads_labelled_mono hwords h)

theorem apart_labelled {words : List String} (hwords : words ⊆ vocabulary) :
    Apart (labelled words) := by
  intro c c' hmatch
  obtain ⟨v, gap, w, hat⟩ := exists_labelledAt hwords (reads_of_matchK_some hmatch)
  obtain ⟨x, tail, htext, hinside⟩ := hat.no_label_inside
  refine ⟨x, tail, ?_, ?_, fun u t hut ht => ?_⟩
  · rw [hat.after, htext]
  · rw [hat.before, htext, List.reverse_cons, List.append_assoc]
    rfl
  · rw [matchK_some_eq_none_iff]
    intro d hread
    obtain ⟨v', gap', w', hat'⟩ := exists_labelledAt hwords hread
    obtain ⟨y, ys, rfl⟩ := List.exists_cons_of_ne_nil ht
    have hy : y ∈ tail := hut ▸ List.mem_append_right u List.mem_cons_self
    have hlabel := hat'.label
    have hafter := hat'.after
    cases v' with
    | nil => exact absurd hlabel (by decide)
    | cons z zs =>
        rw [List.cons_append, List.cons_append, List.cons_append] at hafter
        obtain ⟨rfl, -⟩ := List.cons.inj hafter
        rw [List.map_cons] at hlabel
        exact hinside y hy (List.cons.inj hlabel).1

/-- A longer vocabulary matches where one of its parts does, and the same text. -/
theorem matchK_labelled_append {words words' : List String} (h : words ++ words' ⊆ vocabulary)
    (c : Cursor) :
    (labelled (words ++ words')).matchK c some =
      ((labelled words).matchK c some).or ((labelled words').matchK c some) := by
  have hwhole : ∀ {part d}, part ⊆ words ++ words' → (labelled part).matchK c some = some d →
      (labelled (words ++ words')).matchK c some = some d := by
    intro part d hpart hmatch
    have hread := reads_labelled_mono hpart (reads_of_matchK_some hmatch)
    obtain ⟨d', hmatch'⟩ := Option.isSome_iff_exists.mp
      (isSome_matchK_of_reads hread (k := some) rfl)
    obtain ⟨v, gap, w, hat⟩ := exists_labelledAt h hread
    obtain ⟨v', gap', w', hat'⟩ := exists_labelledAt h (reads_of_matchK_some hmatch')
    rw [hmatch', hat.unique hat']
  cases hwords : (labelled words).matchK c some with
  | some d => exact hwhole (List.subset_append_left _ _) hwords
  | none =>
      rw [Option.none_or]
      cases hwords' : (labelled words').matchK c some with
      | some d => exact hwhole (List.subset_append_right _ _) hwords'
      | none =>
          rw [matchK_some_eq_none_iff] at hwords hwords' ⊢
          intro d hread
          obtain ⟨c₁, hlabel, hrest⟩ := reads_seqs_cons.mp hread
          obtain ⟨c₂, hgroup, hend⟩ := reads_seqs_cons.mp hrest
          obtain ⟨c₃, halts, hc₂⟩ := reads_group_iff.mp hgroup
          rw [List.map_append] at halts
          obtain ⟨r, hmem, hr⟩ := reads_alts_iff.mp halts
          have hpart : ∀ part : List String, r ∈ part.map litI → Reads (labelled part) c d :=
            fun part hmem => reads_seqs_cons.mpr ⟨c₁, hlabel, reads_seqs_cons.mpr
              ⟨c₂, reads_group_iff.mpr ⟨c₃, reads_alts_iff.mpr ⟨r, hmem, hr⟩, hc₂⟩, hend⟩⟩
          rcases List.mem_append.mp hmem with hmem | hmem
          · exact hwords d (hpart words hmem)
          · exact hwords' d (hpart words' hmem)

end Positions

/-! ## The last labelled verdict -/

section Last

variable [Unicode]

/-- A word in the spelling of the gates. -/
def verdictWord (word : String) : String :=
  Text.replaceChar '_' '-' (Unicode.upper word)

/-- The last labelled word of the whole vocabulary. -/
def lastLabelled (body : String) : Option String :=
  ((labelled vocabulary).findall body).getLast?

/-- The last labelled word that `_VERDICT_RE` cannot read, after the last one that it
can. -/
def unreadAfter (body : String) : Option String :=
  match (findallFrom verdictRe (body.toList.length + 1) [] body.toList).getLast? with
  | none => none
  | some (_, finish) =>
      (findallFrom (labelled unreadableWords) (finish.after.length + 1) finish.before
        finish.after).getLast?.bind (fun m => m.2.captures.head?)

end Last

section Positions

variable [SpacedUnicode]

/-- The last labelled word is the last readable one, unless an unreadable one
follows. -/
theorem lastLabelled_eq {body word : String}
    (hread : (verdictRe.findall body).getLast? = some word) :
    lastLabelled body = (unreadAfter body).or (some word) := by
  have hreadable : readableWords ⊆ vocabulary := List.subset_append_left _ _
  have hunreadable : unreadableWords ⊆ vocabulary := List.subset_append_right _ _
  have hwhole : Apart (labelled vocabulary) := apart_labelled (List.Subset.refl _)
  rw [verdictRe_eq, getLast?_findall (captures_labelled _),
    getLast?_findallFrom (apart_labelled hreadable) (Nat.lt_succ_self _)] at hread
  obtain ⟨⟨start, finish⟩, hlast, hword⟩ := Option.bind_eq_some_iff.mp hread
  obtain ⟨w, htext, hstart, hmatch, hnone⟩ := lastFrom_eq_some hlast
  obtain ⟨x, u, hspan, hbefore, -⟩ := apart_labelled hreadable start finish hmatch
  have hmatch' : (labelled vocabulary).matchK start some = some finish := by
    unfold vocabulary
    rw [matchK_labelled_append (List.Subset.refl _), hmatch, Option.some_or]
  obtain ⟨x', u', hspan', -, hmiss⟩ := hwhole start finish hmatch'
  have hsame : x' :: u' = x :: u := List.append_cancel_right (hspan'.symm.trans hspan)
  obtain ⟨rfl, rfl⟩ := List.cons.inj hsame
  have hlater := hnone x' (u' ++ finish.after) hspan
  have hrest := (misses_of_lastFrom_eq_none hlater).2
  rw [← hbefore] at hrest
  have htail : lastFrom (labelled vocabulary) finish.before finish.after =
      lastFrom (labelled unreadableWords) finish.before finish.after := by
    refine lastFrom_congr (fun a b hab => ?_)
    have hmissed : (labelled readableWords).matchK ⟨a.reverse ++ finish.before, b, []⟩ some =
        none := by
      rw [hab] at hrest
      have hhere := (misses_of_lastFrom_eq_none hrest).2
      cases b with
      | nil =>
          rw [lastFrom_nil, Option.map_eq_none_iff] at hhere
          exact hhere
      | cons y ys =>
          rw [lastFrom_cons, Option.or_eq_none_iff, Option.map_eq_none_iff] at hhere
          exact hhere.2
    unfold vocabulary
    rw [matchK_labelled_append (List.Subset.refl _), hmissed, Option.none_or]
  have hat : lastFrom (labelled vocabulary) start.before start.after =
      (lastFrom (labelled unreadableWords) finish.before finish.after).or
        (some (start, finish)) := by
    have hcursor : (⟨start.before, x' :: (u' ++ finish.after), []⟩ : Cursor) = start := by
      have hafter : start.after = x' :: (u' ++ finish.after) := hspan
      rw [← hafter, hstart]
    rw [hspan, List.cons_append, lastFrom_cons, lastFrom_of_misses hmiss, ← hbefore, htail,
      hcursor, hmatch', Option.map_some]
  have hall : lastFrom (labelled vocabulary) [] body.toList =
      (lastFrom (labelled unreadableWords) finish.before finish.after).or
        (some (start, finish)) := by
    obtain ⟨m, hm⟩ : ∃ m, lastFrom (labelled vocabulary) start.before start.after = some m := by
      rw [hat]
      cases lastFrom (labelled unreadableWords) finish.before finish.after with
      | none => exact ⟨_, rfl⟩
      | some m => exact ⟨m, rfl⟩
    rw [← hat, hm, htext]
    refine lastFrom_append_of_some ?_
    have hbefore' : start.before = w.reverse ++ [] := congrArg Cursor.before hstart
    rw [← hbefore', hm]
  have hunread : unreadAfter body =
      (lastFrom (labelled unreadableWords) finish.before finish.after).bind
        (fun m => m.2.captures.head?) := by
    unfold unreadAfter
    rw [verdictRe_eq, getLast?_findallFrom (apart_labelled hreadable) (Nat.lt_succ_self _), hlast]
    dsimp only
    rw [getLast?_findallFrom (apart_labelled hunreadable) (Nat.lt_succ_self _)]
  unfold lastLabelled
  rw [getLast?_findall (captures_labelled _),
    getLast?_findallFrom hwhole (Nat.lt_succ_self _), hall, hunread]
  cases hunreadLast : lastFrom (labelled unreadableWords) finish.before finish.after with
  | none => exact hword
  | some m =>
      obtain ⟨a, -, -, hmatched, -⟩ := lastFrom_eq_some hunreadLast
      obtain ⟨text, hcaptured⟩ :=
        (captures_labelled unreadableWords).head? (reads_of_matchK_some hmatched)
      rw [Option.some_or, Option.bind_some, hcaptured, Option.some_or]

end Positions

/-! ## The landing gate and the review text -/

section Landing

variable [Unicode] {allTasks : List Task} {task : Task} {repo n : String}

/-- The identity rules hold the landing. -/
def HeldByIdentity (allTasks : List Task) (task : Task) (repo n : String) : Prop :=
  Text.strip task.laneKey = repo ++ "!" ++ n ∨
    (Text.strip task.laneKey ≠ "" ∧
      Text.strip task.laneKey ∈ authoringLanes allTasks repo n task.id)

/-- A sha that the body pins is compatible with one that the title names. -/
def PinnedIn (title body : String) : Prop :=
  ∃ sha, ((verdictShaRe.findall body).getLast?).map Unicode.lower = some sha ∧
    ∃ s ∈ namedShas title, Text.startsWith sha s = true ∨ Text.startsWith s sha = true

/-- The last word that `_VERDICT_RE` reads is PASS, at a sha that the title names. -/
def ReadsAsPass (title body : String) : Prop :=
  ((verdictRe.findall body).getLast?).map verdictWord = some "PASS" ∧ PinnedIn title body

/-- The last completed round of an artifact. -/
def latestReview (allTasks : List Task) (repo n : String) : Option Task :=
  latestRound (allTasks.filter (fun t => reviewerOf t repo n))

/-- A review that certifies a landing: its body was delivered, its last labelled
verdict over the whole vocabulary is PASS, at a sha that the title names. -/
structure CertifiedPass (title body : String) : Prop where
  delivered : promotedRe.found body = false
  last : (lastLabelled body).map verdictWord = some "PASS"
  pinned : PinnedIn title body

theorem parseReviewerVerdict_eq (body : String) :
    parseReviewerVerdict body =
      (((verdictRe.findall body).getLast?).map verdictWord,
        if verdictRe.findall body = [] then none
        else ((verdictShaRe.findall body).getLast?).map Unicode.lower) := by
  unfold parseReviewerVerdict
  cases hlast : (verdictRe.findall body).getLast? with
  | none =>
      rw [List.getLast?_eq_none_iff] at hlast
      rw [if_pos hlast]
      rfl
  | some word =>
      have hne : verdictRe.findall body ≠ [] := by
        intro hnil
        rw [hnil] at hlast
        cases hlast
      rw [if_neg hne]
      rfl

theorem readsAsPass_iff {title body : String} :
    ReadsAsPass title body ↔ ∃ sha, parseReviewerVerdict body = (some "PASS", some sha) ∧
      (namedShas title).any (fun s => Text.startsWith sha s || Text.startsWith s sha) = true := by
  have hnamed : ∀ sha, (namedShas title).any
      (fun s => Text.startsWith sha s || Text.startsWith s sha) = true ↔
      ∃ s ∈ namedShas title, Text.startsWith sha s = true ∨ Text.startsWith s sha = true := by
    intro sha
    simp only [List.any_eq_true, Bool.or_eq_true]
  rw [parseReviewerVerdict_eq]
  simp only [hnamed, Prod.mk.injEq]
  unfold ReadsAsPass PinnedIn
  constructor
  · rintro ⟨hword, sha, hsha, hmem⟩
    have hne : verdictRe.findall body ≠ [] := by
      intro hnil
      rw [hnil] at hword
      cases hword
    exact ⟨sha, ⟨hword, by rw [if_neg hne, hsha]⟩, hmem⟩
  · rintro ⟨sha, ⟨hword, hsha⟩, hmem⟩
    split_ifs at hsha
    exact ⟨hword, sha, hsha, hmem⟩

/-- When the gate lets a landing pass. -/
theorem holdReason_eq_none_iff (hland : landingArtifact task = some (repo, n)) :
    holdReason allTasks task = none ↔
      ¬HeldByIdentity allTasks task repo n ∧ ∃ round, latestReview allTasks repo n = some round ∧
        ReadsAsPass task.title (round.result.getD "") := by
  simp only [readsAsPass_iff]
  unfold holdReason HeldByIdentity
  rw [hland]
  dsimp only
  by_cases hlane : Text.strip task.laneKey = repo ++ "!" ++ n
  · simp [hlane]
  · rw [if_neg hlane]
    by_cases hauthor : Text.strip task.laneKey ≠ "" ∧
        Text.strip task.laneKey ∈ authoringLanes allTasks repo n task.id
    · simp [hauthor]
    · rw [if_neg hauthor]
      simp only [hlane, hauthor, or_self, not_false_eq_true, true_and]
      unfold latestReviewerVerdict latestReview
      cases latestRound (allTasks.filter (fun t => reviewerOf t repo n)) with
      | none => simp
      | some round =>
          simp only [Option.some.injEq, exists_eq_left']
          rcases parseReviewerVerdict (round.result.getD "") with ⟨_ | verdict, _ | sha⟩
          · simp
          · simp
          · by_cases hpass : verdict = "PASS" <;> simp [hpass]
          · by_cases hpass : verdict = "PASS"
            · simp only [hpass, ne_eq, not_true_eq_false, if_false, Prod.mk.injEq,
                Option.some.injEq, true_and, exists_eq_left']
              split_ifs with hnamed <;> simp [hnamed]
            · simp [hpass]

end Landing

/-- A landing that the gate lets pass rests on a certified review if and only if the
body was delivered and no unreadable verdict other than PASS stands after the last
readable one. -/
theorem verdict_agrees_iff [SpacedUnicode] (allTasks : List Task) (task : Task)
    (repo n : String) (hland : landingArtifact task = some (repo, n)) :
    (holdReason allTasks task = none →
      ∃ round, latestReview allTasks repo n = some round ∧
        CertifiedPass task.title (round.result.getD "")) ↔
    HeldByIdentity allTasks task repo n ∨
      ∀ round, latestReview allTasks repo n = some round →
        ReadsAsPass task.title (round.result.getD "") →
        promotedRe.found (round.result.getD "") = false ∧
          ∀ word, unreadAfter (round.result.getD "") = some word →
            verdictWord word = "PASS" := by
  rw [holdReason_eq_none_iff hland]
  constructor
  · intro h
    by_cases hheld : HeldByIdentity allTasks task repo n
    · exact .inl hheld
    · refine .inr (fun round hround hreads => ?_)
      obtain ⟨round', hround', hcertified⟩ := h ⟨hheld, round, hround, hreads⟩
      cases hround.symm.trans hround'
      refine ⟨hcertified.delivered, fun word hunread => ?_⟩
      obtain ⟨read, hread, -⟩ := Option.map_eq_some_iff.mp hreads.1
      have hlast := hcertified.last
      rw [lastLabelled_eq hread, hunread, Option.some_or, Option.map_some,
        Option.some.injEq] at hlast
      exact hlast
  · rintro h ⟨hheld, round, hround, hreads⟩
    obtain ⟨hdelivered, hunread⟩ := h.resolve_left hheld round hround hreads
    refine ⟨round, hround, hdelivered, ?_, hreads.2⟩
    obtain ⟨read, hread, hpass⟩ := Option.map_eq_some_iff.mp hreads.1
    rw [lastLabelled_eq hread]
    cases hlater : unreadAfter (round.result.getD "") with
    | none =>
        rw [Option.none_or, Option.map_some, hpass]
    | some word =>
        rw [Option.some_or, Option.map_some, hunread word hlater]

section Texts

local instance spacedVerdicts : SpacedUnicode := SpacedUnicode.ascii

/-- A completed reviewer round of `repo!1`. -/
def roundWith (body : String) : Task where
  id := "task_1"
  title := "review"
  status := .completed
  createdAt := 0
  updatedAt := 0
  laneKey := "repo!1"
  role := "reviewer"
  result := some body

/-- The landing of `repo!1` at a sha. -/
def landingAt : Task where
  id := "task_2"
  title := "LAND abcdef1"
  createdAt := 0
  updatedAt := 0
  laneKey := "repo#land-1"

/-- The landing passes on a plain review. -/
theorem plain_review_certified :
    ∃ round, latestReview [roundWith "Verdict: PASS SHA: abcdef1"] "repo" "1" = some round ∧
      CertifiedPass landingAt.title (round.result.getD "") := by
  refine (verdict_agrees_iff [roundWith "Verdict: PASS SHA: abcdef1"] landingAt "repo" "1"
    (by decide +kernel)).mpr (.inr (fun round hround _ => ?_)) (by decide +kernel)
  have hlatest : latestReview [roundWith "Verdict: PASS SHA: abcdef1"] "repo" "1" =
      some (roundWith "Verdict: PASS SHA: abcdef1") := by decide +kernel
  cases hround.symm.trans hlatest
  refine ⟨by decide +kernel, fun word hword => ?_⟩
  have hnone : unreadAfter "Verdict: PASS SHA: abcdef1" = none := by decide +kernel
  cases hword.symm.trans hnone

/-- It also passes on a review that ends in a bounce, having quoted a pass. -/
theorem bounced_review_passes :
    landingArtifact landingAt = some ("repo", "1") ∧
      holdReason [roundWith "Verdict: PASS SHA: abcdef1 Verdict: NOT-READY"] landingAt = none ∧
      ¬∃ round,
        latestReview [roundWith "Verdict: PASS SHA: abcdef1 Verdict: NOT-READY"] "repo" "1" =
          some round ∧ CertifiedPass landingAt.title (round.result.getD "") := by
  refine ⟨by decide +kernel, by decide +kernel, ?_⟩
  rintro ⟨round, hround, hcertified⟩
  have hlatest :
      latestReview [roundWith "Verdict: PASS SHA: abcdef1 Verdict: NOT-READY"] "repo" "1" =
        some (roundWith "Verdict: PASS SHA: abcdef1 Verdict: NOT-READY") := by decide +kernel
  cases hround.symm.trans hlatest
  have hlast : (lastLabelled "Verdict: PASS SHA: abcdef1 Verdict: NOT-READY").map verdictWord =
      some "NOT-READY" := by decide +kernel
  exact absurd (hlast.symm.trans hcertified.last) (by decide)

end Texts

/-! ## The completion gate and the landing gate -/

section Readers

variable [Unicode]

/-- One of the wider forms that only `reviewer_verdict` reads. -/
def WiderForm (body : String) : Prop :=
  notReadyRe.found body = true ∨ lineTokenRe.found body = true ∨
    ∃ line ∈ Text.splitlines body, verdictLineRe.found line = true ∧
      tokenWordRe.found line = true

omit [Unicode] in
theorem captures_tokenWordRe : Captures tokenWordRe :=
  captures_seqs (List.mem_cons_of_mem _ List.mem_cons_self) captures_group

theorem captures_lineTokenRe : Captures lineTokenRe := by
  refine captures_seqs (r := tokenWordRe) ?_ captures_tokenWordRe
  simp

theorem captures_notReadyRe : Captures notReadyRe :=
  captures_seqs (List.mem_cons_of_mem _ List.mem_cons_self) captures_group

omit [Unicode] in
theorem getLast?_findall_eq_none_iff {r : Regex} (hr : Captures r) (text : String) :
    (r.findall text).getLast? = none ↔ r.found text = false := by
  rw [List.getLast?_eq_none_iff, findall_eq_nil_iff hr]

theorem verdictLineToken_eq_none_iff (lines : List String) :
    verdictLineToken lines = none ↔
      ¬∃ line ∈ lines, verdictLineRe.found line = true ∧ tokenWordRe.found line = true := by
  unfold verdictLineToken
  rw [List.findSome?_eq_none_iff]
  have hline : ∀ line, (if verdictLineRe.found line = true then
      (tokenWordRe.findall line).getLast?.map verdictOfToken else none) = none ↔
      ¬(verdictLineRe.found line = true ∧ tokenWordRe.found line = true) := by
    intro line
    split_ifs with hsaid
    · rw [Option.map_eq_none_iff, getLast?_findall_eq_none_iff captures_tokenWordRe]
      simp [hsaid]
    · simp [hsaid]
  simp only [hline, not_exists, not_and]

/-- Whatever `reviewer_verdict` accepts, the landing gate reads as a verdict too, and
both or neither take it for a pass. -/
def ReadersAgree (result : Option String) : Prop :=
  ∀ verdict, reviewerVerdict result = some verdict →
    ∃ read, (parseReviewerVerdict (result.getD "")).1 = some read ∧
      (read = "PASS" ↔ verdict = "PASS")

/-- What the landing gate cannot read is accepted in a wider form only. -/
theorem reviewerVerdict_of_unread {body : String} (hblank : Text.isBlank body = false)
    (hpromoted : promotedRe.found body = false)
    (hunread : (parseReviewerVerdict body).1 = none) :
    (reviewerVerdict (some body)).isSome ↔ WiderForm body := by
  unfold reviewerVerdict WiderForm
  simp only [hblank, hpromoted, hunread, Bool.false_eq_true, if_false]
  have hready := getLast?_findall_eq_none_iff captures_notReadyRe body
  cases hlabel : (notReadyRe.findall body).getLast? with
  | some word =>
      rw [hlabel] at hready
      have hfound : notReadyRe.found body = true := by
        by_contra hno
        cases hready.mpr (eq_false_of_ne_true hno)
      exact iff_of_true rfl (.inl hfound)
  | none =>
      rw [hready.mp hlabel]
      have hlines := getLast?_findall_eq_none_iff captures_lineTokenRe body
      cases htoken : (lineTokenRe.findall body).getLast? with
      | some token =>
          rw [htoken] at hlines
          have hfound : lineTokenRe.found body = true := by
            by_contra hno
            cases hlines.mpr (eq_false_of_ne_true hno)
          exact iff_of_true rfl (.inr (.inl hfound))
      | none =>
          rw [hlines.mp htoken]
          simp only [Bool.false_eq_true, false_or]
          rw [Option.isSome_iff_ne_none]
          exact not_iff_comm.mp (verdictLineToken_eq_none_iff _).symm

/-- The readers agree on a text if and only if it is accepted in no form or carries a
labelled verdict that `_VERDICT_RE` reads. -/
theorem readers_agree_iff (result : Option String) :
    ReadersAgree result ↔
      ∀ body, result = some body → Text.isBlank body = true ∨ promotedRe.found body = true ∨
        verdictRe.found body = true ∨ ¬WiderForm body := by
  cases result with
  | none => exact iff_of_true (fun _ h => nomatch h) (fun _ h => nomatch h)
  | some body =>
      have hparse : (parseReviewerVerdict body).1 = none ↔ verdictRe.found body = false := by
        rw [parseReviewerVerdict_eq, Option.map_eq_none_iff]
        exact getLast?_findall_eq_none_iff (captures_labelled readableWords) body
      simp only [Option.some.injEq, forall_eq']
      by_cases hblank : Text.isBlank body = true
      · refine iff_of_true (fun verdict haccepts => ?_) (.inl hblank)
        unfold reviewerVerdict at haccepts
        dsimp only at haccepts
        rw [if_pos hblank] at haccepts
        cases haccepts
      · by_cases hpromoted : promotedRe.found body = true
        · refine iff_of_true (fun verdict haccepts => ?_) (.inr (.inl hpromoted))
          unfold reviewerVerdict at haccepts
          dsimp only at haccepts
          rw [if_neg hblank, if_pos hpromoted] at haccepts
          cases haccepts
        · cases hread : (parseReviewerVerdict body).1 with
          | some read =>
              have hfound : verdictRe.found body = true := by
                by_contra hno
                cases hread.symm.trans (hparse.mpr (eq_false_of_ne_true hno))
              refine iff_of_true (fun verdict haccepts => ⟨read, hread, ?_⟩)
                (.inr (.inr (.inl hfound)))
              unfold reviewerVerdict at haccepts
              dsimp only at haccepts
              rw [if_neg hblank, if_neg hpromoted, hread] at haccepts
              cases haccepts
              exact Iff.rfl
          | none =>
              have hwider := reviewerVerdict_of_unread (eq_false_of_ne_true hblank)
                (eq_false_of_ne_true hpromoted) hread
              simp only [hblank, hpromoted, hparse.mp hread, Bool.false_eq_true, false_or]
              rw [← hwider, Bool.not_eq_true, Option.isSome_eq_false_iff,
                Option.isNone_iff_eq_none]
              constructor
              · intro hagree
                by_contra hsome
                obtain ⟨verdict, hverdict⟩ := Option.ne_none_iff_exists'.mp hsome
                obtain ⟨read, hread', -⟩ := hagree verdict hverdict
                cases hread.symm.trans hread'
              · intro hnone verdict hverdict
                cases hnone.symm.trans hverdict

end Readers

section Heading

local instance asciiHeading : Unicode := Unicode.ascii

/-- A verdict written as a heading is accepted at completion only. -/
theorem heading_unread : ¬ReadersAgree (some "# Review Result: PASS") := by
  intro h
  obtain ⟨read, hread, -⟩ := h "PASS" (by decide +kernel)
  have hnone : (parseReviewerVerdict "# Review Result: PASS").1 = none := by decide +kernel
  cases hread.symm.trans hnone

end Heading

end VerdictReaders

end HermesCluster
