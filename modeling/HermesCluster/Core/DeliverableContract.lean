import HermesCluster.Core.HermesReap
import HermesCluster.Core.VerdictReaders
import HermesCluster.Lib.LinePatterns
/-!
# The contract of the deliverable guard

What `classify_non_deliverable` is to reject, in terms of the text: a body that is
headed by the sentence of a provider failure, or that has it anywhere when the turn is
known to have failed; and a body that is the brief but for sixteen characters at each
end. The pattern of the sentence begins with `^`, also where it is searched for.
-/

namespace HermesCluster

namespace HermesReap

open Regex

section Contract

variable [Unicode] {content brief : String} {isErrorResponse : Bool}

/-- The provider-failure sentence, to the space after its colon. -/
inductive IsFailureSentence : List Char → Prop
  | mk {head digits tail : List Char} {d sp : Char}
      (hhead : List.Forall₂ (fun a x => foldEq a x = true) "API call failed after ".toList head)
      (hd : Unicode.isDecimal d = true) (hdigits : ∀ x ∈ digits, Unicode.isDecimal x = true)
      (htail : List.Forall₂ (fun a x => foldEq a x = true) " retries:".toList tail)
      (hsp : Unicode.isSpace sp = true) :
      IsFailureSentence (head ++ (d :: digits ++ (tail ++ [sp])))

/-- The body begins with the sentence, after leading whitespace. -/
def HeadedByFailure (content : String) : Prop :=
  ∃ w rest, IsFailureSentence w ∧ content.toList.dropWhile Unicode.isSpace = w ++ rest

/-- The sentence occurs in the body. -/
def MentionsFailure (content : String) : Prop :=
  ∃ u w rest, IsFailureSentence w ∧ content.toList = u ++ (w ++ rest)

/-- What is to be rejected as a provider failure. -/
def IsProviderFailure (content : String) (isErrorResponse : Bool) : Prop :=
  Text.strip content ≠ "" ∧
    (HeadedByFailure content ∨ isErrorResponse = true ∧ MentionsFailure content)

omit [Unicode] in
/-- At most sixteen characters cut at each end leave a piece of the brief. -/
def CutFrom (cb cr : List Char) : Prop :=
  ∃ u core v, cr = u ++ (core ++ v) ∧ u.length ≤ 16 ∧ v.length ≤ 16 ∧ core <:+: cb

omit [Unicode] in
/-- Seventeen characters or more at the head are the body's own: no end of them is in
the brief before what the body has after them, up to its last sixteen characters. -/
def OwnAtHead (cb cr : List Char) : Prop :=
  ∃ w rest, cr = w ++ rest ∧ 17 ≤ w.length ∧ 16 ≤ rest.length ∧
    ∀ s, s <:+ w → s ≠ [] → ¬s ++ rest.take (rest.length - 16) <:+: cb

omit [Unicode] in
/-- The same at the tail. -/
def OwnAtTail (cb cr : List Char) : Prop :=
  ∃ rest w, cr = rest ++ w ∧ 17 ≤ w.length ∧ 16 ≤ rest.length ∧
    ∀ s, s <+: w → s ≠ [] → ¬rest.drop 16 ++ s <:+: cb

/-- The body is the brief but for sixteen characters at each end, and has no more than
that of its own at either. -/
structure IsEcho (content brief : String) : Prop where
  cut : CutFrom (flat brief).toList (flat content).toList
  head : ¬OwnAtHead (flat brief).toList (flat content).toList
  tail : ¬OwnAtTail (flat brief).toList (flat content).toList

/-- The guard keeps its contract on a body. -/
structure KeepsContract (content brief : String) (isErrorResponse : Bool) : Prop where
  provider : classifyNonDeliverable content brief isErrorResponse = some "provider_error" ↔
    IsProviderFailure content isErrorResponse
  echo : classifyNonDeliverable content brief isErrorResponse = some "brief_echo" →
    IsEcho content brief

/-! ## The sentence -/

/-- The pattern reads the sentence, at the beginning of the text. -/
theorem exists_reads_providerShape_iff {before after : List Char} :
    (∃ c', Reads providerShape ⟨before, after, []⟩ c') ↔
      before = [] ∧ ∃ w rest, IsFailureSentence w ∧ after = w ++ rest := by
  simp only [providerShape, bos, digit, space, reads_seqs_cons, reads_seqs_nil, reads_look_iff,
    reads_litI_iff, reads_plus_chr_iff, reads_chr_iff]
  constructor
  · rintro ⟨c', c₁, ⟨hbos, rfl⟩, c₂, ⟨head, h₂, hhead⟩, c₃, ⟨d, digits, h₃, hd, hdigits⟩,
      c₄, ⟨tail, h₄, htail⟩, c₅, ⟨sp, h₅, hsp⟩, rfl⟩
    have hpass := h₂.trans (h₃.trans (h₄.trans h₅))
    exact ⟨of_decide_eq_true hbos, _, _, .mk hhead hd hdigits htail hsp, hpass.after⟩
  · rintro ⟨rfl, w, rest, hw, rfl⟩
    obtain ⟨c', hpass, -⟩ := Cursor.exists_passes (c := ⟨[], w ++ rest, []⟩) rfl
    obtain ⟨hhead, hd, hdigits, htail, hsp⟩ := hw
    obtain ⟨c₂, h₂, hpass⟩ := Cursor.passes_append_iff.mp hpass
    obtain ⟨c₃, h₃, hpass⟩ := Cursor.passes_append_iff.mp hpass
    obtain ⟨c₄, h₄, h₅⟩ := Cursor.passes_append_iff.mp hpass
    exact ⟨c', _, ⟨rfl, rfl⟩, c₂, ⟨_, h₂, hhead⟩, c₃, ⟨_, _, h₃, hd, hdigits⟩,
      c₄, ⟨_, h₄, htail⟩, c', ⟨_, h₅, hsp⟩, rfl⟩

theorem matchStart_providerShape_iff :
    (providerShape.matchStart (lstrip content)).isSome ↔ HeadedByFailure content := by
  rw [matchStart_isSome_iff, exists_reads_providerShape_iff, lstrip, String.toList_ofList]
  exact and_iff_right rfl

/-- A search finds the sentence at the beginning of the body only. -/
theorem found_providerShape_iff :
    providerShape.found content = true ↔
      ∃ w rest, IsFailureSentence w ∧ content.toList = w ++ rest := by
  rw [found_iff]
  constructor
  · rintro ⟨u, v, c', htext, hread⟩
    obtain ⟨hstart, w, rest, hw, rfl⟩ := exists_reads_providerShape_iff.mp ⟨c', hread⟩
    rw [List.reverse_eq_nil_iff] at hstart
    subst hstart
    exact ⟨w, rest, hw, htext⟩
  · rintro ⟨w, rest, hw, htext⟩
    obtain ⟨c', hread⟩ := exists_reads_providerShape_iff.mpr ⟨rfl, w, rest, hw, rfl⟩
    exact ⟨[], w ++ rest, c', htext, hread⟩

end Contract

/-! ## The provider failure -/

section Provider

variable [VerdictReaders.SpacedUnicode] {content brief : String} {isErrorResponse : Bool}

/-- The sentence begins with a letter. -/
theorem exists_cons_of_failureSentence {w : List Char} (h : IsFailureSentence w) :
    ∃ x xs, w = x :: xs ∧ Unicode.isSpace x = false := by
  obtain ⟨hhead, -⟩ := h
  cases hhead with
  | cons hx _ =>
      refine ⟨_, _, rfl, VerdictReaders.SpacedUnicode.not_isSpace _ ?_⟩
      simp only [foldEq, Bool.or_eq_true, Bool.and_eq_true, decide_eq_true_eq] at hx
      obtain ((hx | hx) | hx) | hx := hx
      · unfold isLetterI
        rw [hx]
        rfl
      · exact absurd hx.1 (by decide)
      · exact absurd hx.1 (by decide)
      · exact absurd hx.1 (by decide)

theorem headedByFailure_of_found (h : providerShape.found content = true) :
    HeadedByFailure content := by
  obtain ⟨w, rest, hw, htext⟩ := found_providerShape_iff.mp h
  obtain ⟨x, xs, rfl, hx⟩ := exists_cons_of_failureSentence hw
  refine ⟨x :: xs, rest, hw, ?_⟩
  rw [htext, List.cons_append, List.dropWhile_cons_of_neg]
  rw [hx]
  exact Bool.false_ne_true

theorem isProviderShape_iff :
    isProviderShape content isErrorResponse = true ↔ HeadedByFailure content := by
  unfold isProviderShape
  rw [Bool.or_eq_true, matchStart_providerShape_iff, Bool.and_eq_true]
  exact ⟨fun h => h.elim id (fun hfound => headedByFailure_of_found hfound.2), .inl⟩

theorem strip_ne_empty_of_mentions (h : MentionsFailure content) : Text.strip content ≠ "" := by
  obtain ⟨u, w, rest, hw, htext⟩ := h
  obtain ⟨x, xs, rfl, hx⟩ := exists_cons_of_failureSentence hw
  refine Text.strip_ne_empty (c := x) ?_ hx
  rw [htext]
  simp

theorem classify_eq_provider_iff :
    classifyNonDeliverable content brief isErrorResponse = some "provider_error" ↔
      Text.strip content ≠ "" ∧ HeadedByFailure content := by
  have hshape : isProviderShape content isErrorResponse = true ↔ HeadedByFailure content :=
    isProviderShape_iff
  unfold classifyNonDeliverable
  rw [← hshape]
  by_cases hblank : Text.strip content = ""
  · rw [if_pos hblank]
    simp [hblank]
  · rw [if_neg hblank]
    cases isProviderShape content isErrorResponse with
    | true => simp [hblank]
    | false => cases isEchoOfBrief content brief <;> simp

end Provider

/-! ## The echo -/

section Echo

variable {cb cr : List Char} {lead tail : Nat}

theorem cutFrom_of_core (hlead : lead ≤ 16) (htail : tail ≤ 16)
    (hlength : lead + tail ≤ cr.length)
    (h : (cr.drop lead).take (cr.length - lead - tail) <:+: cb) : CutFrom cb cr := by
  refine ⟨cr.take lead, _, (cr.drop lead).drop (cr.length - lead - tail), ?_, ?_, ?_, h⟩
  · rw [List.take_append_drop, List.take_append_drop]
  · rw [List.length_take]
    omega
  · rw [List.length_drop, List.length_drop]
    omega

theorem not_ownAtHead_of_core (hlead : lead ≤ 16) (htail : tail ≤ 16)
    (h : (cr.drop lead).take (cr.length - lead - tail) <:+: cb) : ¬OwnAtHead cb cr := by
  rintro ⟨w, rest, rfl, hw, hrest, hown⟩
  have hne : w.drop lead ≠ [] := by
    rw [Ne, List.drop_eq_nil_iff]
    omega
  refine hown (w.drop lead) (List.drop_suffix lead w) hne (List.IsInfix.trans ?_ h)
  have hdrop : (w ++ rest).drop lead = w.drop lead ++ rest :=
    List.drop_append_of_le_length (by omega)
  have htake : (w.drop lead ++ rest).take ((w ++ rest).length - lead - tail) =
      w.drop lead ++ rest.take (rest.length - tail) := by
    have hlength : (w ++ rest).length - lead - tail =
        (w.drop lead).length + (rest.length - tail) := by
      rw [List.length_append, List.length_drop]
      omega
    rw [hlength, List.take_length_add_append]
  rw [hdrop, htake]
  have hprefix : rest.take (rest.length - 16) <+: rest.take (rest.length - tail) :=
    List.take_prefix_take_left (by omega)
  exact (List.prefix_append_right_inj _).mpr hprefix |>.isInfix

theorem not_ownAtTail_of_core (hlead : lead ≤ 16) (htail : tail ≤ 16)
    (h : (cr.drop lead).take (cr.length - lead - tail) <:+: cb) : ¬OwnAtTail cb cr := by
  rintro ⟨rest, w, rfl, hw, hrest, hown⟩
  have hne : w.take (w.length - tail) ≠ [] := by
    rw [Ne, List.take_eq_nil_iff, not_or]
    refine ⟨by omega, ?_⟩
    rintro rfl
    simp at hw
  refine hown _ (List.take_prefix (w.length - tail) w) hne (List.IsInfix.trans ?_ h)
  have hdrop : (rest ++ w).drop lead = rest.drop lead ++ w :=
    List.drop_append_of_le_length (by omega)
  have htake : (rest.drop lead ++ w).take ((rest ++ w).length - lead - tail) =
      rest.drop lead ++ w.take (w.length - tail) := by
    have hlength : (rest ++ w).length - lead - tail =
        (rest.drop lead).length + (w.length - tail) := by
      rw [List.length_append, List.length_drop]
      omega
    rw [hlength, List.take_length_add_append]
  rw [hdrop, htake]
  have hsuffix : rest.drop 16 <:+ rest.drop lead := List.drop_suffix_drop_left rest hlead
  obtain ⟨u, hu⟩ := hsuffix
  rw [← hu, List.append_assoc]
  exact (List.suffix_append u _).isInfix

/-- The search over the cuts finds an echo only. -/
theorem isEcho_of_isEchoOfBrief [Unicode] {content brief : String}
    (h : isEchoOfBrief content brief = true) : IsEcho content brief := by
  unfold isEchoOfBrief at h
  dsimp only at h
  split at h
  · cases h
  · rename_i hshort
    rw [Bool.or_eq_true, not_or, decide_eq_true_eq, not_lt] at hshort
    have hlong : 120 ≤ (flat content).toList.length := hshort.1
    simp only [List.any_eq_true, List.mem_range, echoTrimBudget, Bool.and_eq_true,
      Text.contains_iff, String.toList_ofList] at h
    obtain ⟨lead, hlead, tail, htail, -, hcore⟩ := h
    have hlead : lead ≤ 16 := Nat.le_of_lt_succ hlead
    have htail : tail ≤ 16 := Nat.le_of_lt_succ htail
    exact ⟨cutFrom_of_core hlead htail (by omega) hcore,
      not_ownAtHead_of_core hlead htail hcore, not_ownAtTail_of_core hlead htail hcore⟩

theorem isEcho_of_classify [Unicode] {content brief : String} {isErrorResponse : Bool}
    (h : classifyNonDeliverable content brief isErrorResponse = some "brief_echo") :
    IsEcho content brief := by
  refine isEcho_of_isEchoOfBrief ?_
  unfold classifyNonDeliverable at h
  by_contra hecho
  rw [if_neg hecho] at h
  split at h
  · cases h
  · split at h
    · exact absurd (Option.some.inj h) (by decide)
    · cases h

end Echo

end HermesReap

/-- The guard keeps its contract exactly on the bodies that it needs no search for: no
turn that failed leaves the sentence in a body which it does not head. -/
theorem deliverable_guard_contract_iff [VerdictReaders.SpacedUnicode] (content brief : String)
    (isErrorResponse : Bool) :
    HermesReap.KeepsContract content brief isErrorResponse ↔
      ¬(isErrorResponse = true ∧ HermesReap.MentionsFailure content ∧
        ¬HermesReap.HeadedByFailure content) := by
  constructor
  · rintro ⟨hprovider, -⟩ ⟨hflag, hmentions, hnot⟩
    have hblank := HermesReap.strip_ne_empty_of_mentions hmentions
    have hclassify := hprovider.mpr ⟨hblank, .inr ⟨hflag, hmentions⟩⟩
    exact hnot (HermesReap.classify_eq_provider_iff.mp hclassify).2
  · intro hmissed
    refine ⟨?_, HermesReap.isEcho_of_classify⟩
    rw [HermesReap.classify_eq_provider_iff]
    refine and_congr_right (fun _ => ⟨.inl, fun h => h.elim id (fun hsearch => ?_)⟩)
    by_contra hnot
    exact hmissed ⟨hsearch.1, hsearch.2, hnot⟩

section MissedFailure

local instance asciiSentences : VerdictReaders.SpacedUnicode :=
  VerdictReaders.SpacedUnicode.ascii

/-- A turn that failed, whose body says so after a word of its own. -/
theorem failure_in_mid_body_is_missed :
    ¬HermesReap.KeepsContract "Stopped. API call failed after 3 retries: timeout" "" true := by
  intro h
  have hsentence : HermesReap.IsFailureSentence ("API call failed after ".toList ++
      ('3' :: [] ++ (" retries:".toList ++ [' ']))) :=
    .mk (List.forall₂_same.mpr (List.all_eq_true.mp (by decide))) (by decide) (by simp)
      (List.forall₂_same.mpr (List.all_eq_true.mp (by decide))) (by decide)
  have hmentions : HermesReap.MentionsFailure
      "Stopped. API call failed after 3 retries: timeout" :=
    ⟨"Stopped. ".toList, _, "timeout".toList, hsentence, by decide⟩
  have hblank := HermesReap.strip_ne_empty_of_mentions hmentions
  have hclassify := h.provider.mpr ⟨hblank, .inr ⟨rfl, hmentions⟩⟩
  exact absurd hclassify (by decide +kernel)

end MissedFailure

end HermesCluster
