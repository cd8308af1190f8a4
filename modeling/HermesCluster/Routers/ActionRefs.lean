import HermesCluster.Lib.Phrases
import HermesCluster.Routers.Tasks
/-!
# Action references

Which numbers the phrases of `_ACTION_REF_RE` bind. A phrase is told by its words: no two
phrases that overlap bind different numbers, so that the numbers `re.findall` returns are
all there are, and a submit is accepted only where all of them are the target. A number
is never a part of a longer hexadecimal word, but it may be the year of a date.
-/

namespace HermesCluster

namespace SubmitGuards

open Regex

/-! ## The grammar -/

def referrers : List String := ["pr", "mr", "issue"]

def postVerbs : List String := ["post", "posts", "posted"]

/-- The words of a phrase. -/
inductive Said : List String → Prop
  | cli {tool referrer verb : String} (htool : tool ∈ ["gh", "glab"])
      (hreferrer : referrer ∈ referrers)
      (hverb : verb ∈ ["comment", "review", "close", "merge", "edit", "approve", "ready"]) :
      Said [tool, referrer, verb]
  | comment {verb : String} (hverb : verb ∈ ["comment", "comments", "commented"]) :
      Said [verb, "on"]
  | post {verb place : String} (hverb : verb ∈ postVerbs) (hplace : place ∈ ["to", "on", "in"]) :
      Said [verb, place]
  | postThe {verb object place : String} (hverb : verb ∈ postVerbs)
      (hplace : place ∈ ["to", "on", "in"]) : Said [verb, "the", object, place]
  | verdict {place : String} (hplace : place ∈ ["on", "for"]) : Said ["verdict", place]
  | refer {verb referrer : String}
      (hverb : verb ∈ ["review", "reviews", "reviewed", "merge", "close"])
      (hreferrer : referrer ∈ referrers) : Said [verb, referrer]
  | referThe {verb referrer : String}
      (hverb : verb ∈ ["review", "reviews", "reviewed", "merge", "close", "merged", "closed"])
      (hreferrer : referrer ∈ referrers) : Said [verb, "the", referrer]
  | merged {verb : String} (hverb : verb ∈ ["merged", "closed"]) : Said [verb, "the"]

/-- Before a number that stands inside a phrase. -/
def Led (words : List String) : Prop :=
  ∃ verb ∈ postVerbs, words = [verb, "the"] ∨ ∃ object, words = [verb, "the", object]

theorem not_mem_of_postVerb : ∀ verb ∈ postVerbs,
    verb ∉ ["review", "reviews", "reviewed", "merge", "close", "merged", "closed"] := by
  decide

/-- No phrase ends with a verb of posting and the article. -/
theorem Said.not_led_article {words : List String} {verb : String} (hverb : verb ∈ postVerbs) :
    ¬Said (words ++ [verb, "the"]) := by
  intro h
  generalize hsaid : words ++ [verb, "the"] = said at h
  have hlast : said.reverse = "the" :: verb :: words.reverse := by
    rw [← hsaid, List.reverse_append]
    rfl
  cases h with
  | cli _ _ hlate | post _ hlate | postThe _ hlate | verdict hlate | refer _ hlate
  | referThe _ hlate =>
      obtain ⟨rfl, -⟩ := List.cons.inj hlast
      exact absurd hlate (by decide)
  | comment _ => exact absurd (List.cons.inj hlast).1 (by decide)
  | merged hmerged =>
      obtain ⟨-, hrest⟩ := List.cons.inj hlast
      obtain ⟨rfl, -⟩ := List.cons.inj hrest
      refine not_mem_of_postVerb _ hverb ?_
      exact List.mem_append_right ["review", "reviews", "reviewed", "merge", "close"] hmerged

/-- No phrase ends with a verb of posting, the article and a word. -/
theorem Said.not_led_object {words : List String} {verb object : String}
    (hverb : verb ∈ postVerbs) : ¬Said (words ++ [verb, "the", object]) := by
  intro h
  generalize hsaid : words ++ [verb, "the", object] = said at h
  have hlast : said.reverse = object :: "the" :: verb :: words.reverse := by
    rw [← hsaid, List.reverse_append]
    rfl
  cases h with
  | cli _ hreferrer _ =>
      obtain ⟨-, hrest⟩ := List.cons.inj hlast
      obtain ⟨rfl, -⟩ := List.cons.inj hrest
      exact absurd hreferrer (by decide)
  | comment _ | post _ _ | verdict _ | refer _ _ | merged _ =>
      obtain ⟨-, hrest⟩ := List.cons.inj hlast
      cases (List.cons.inj hrest).2
  | postThe _ _ =>
      obtain ⟨-, hrest⟩ := List.cons.inj hlast
      obtain ⟨-, hrest⟩ := List.cons.inj hrest
      obtain ⟨rfl, -⟩ := List.cons.inj hrest
      exact absurd hverb (by decide)
  | referThe hrefer _ =>
      obtain ⟨-, hrest⟩ := List.cons.inj hlast
      obtain ⟨-, hrest⟩ := List.cons.inj hrest
      obtain ⟨rfl, -⟩ := List.cons.inj hrest
      exact not_mem_of_postVerb _ hverb hrefer

theorem Said.not_led {words lead : List String} (h : Said (words ++ lead)) : ¬Led lead := by
  rintro ⟨verb, hverb, rfl | ⟨object, rfl⟩⟩
  · exact not_led_article hverb h
  · exact not_led_object hverb h

theorem Said.exists_cons_cons {words : List String} (h : Said words) :
    ∃ first second rest, words = first :: second :: rest ∧ first ≠ "the" := by
  have hother : ∀ {first : String} {firsts : List String}, first ∈ firsts → "the" ∉ firsts →
      first ≠ "the" := by
    rintro first firsts hfirst hthe rfl
    exact hthe hfirst
  cases h with
  | cli hfirst _ _ | comment hfirst | post hfirst _ | postThe hfirst _ | refer hfirst _
  | referThe hfirst _ | merged hfirst => exact ⟨_, _, _, rfl, hother hfirst (by decide)⟩
  | verdict _ => exact ⟨_, _, _, rfl, by decide⟩

/-- A phrase does not end before a number that stands inside another. -/
theorem Said.not_led_append {words said : List String} (h : Said said) : ¬Led (words ++ said) := by
  obtain ⟨first, second, rest, rfl, hfirst⟩ := h.exists_cons_cons
  cases words with
  | nil =>
      have hsaid : Said ([] ++ first :: second :: rest) := h
      exact hsaid.not_led
  | cons word words =>
      rintro ⟨verb, -, hwords | ⟨object, hwords⟩⟩
      · obtain ⟨-, hrest⟩ := List.cons.inj hwords
        cases words with
        | nil => exact hfirst (List.cons.inj hrest).1
        | cons _ words => exact absurd (List.cons.inj hrest).2 (by simp)
      · obtain ⟨-, hrest⟩ := List.cons.inj hwords
        cases words with
        | nil => exact hfirst (List.cons.inj hrest).1
        | cons _ words =>
            have hlength : (words ++ first :: second :: rest).length = [object].length :=
              congrArg List.length (List.cons.inj hrest).2
            rw [List.length_append, List.length_cons, List.length_cons, List.length_singleton]
              at hlength
            omega

/-- The words that phrases end with. -/
def lastWords : List String :=
  ["comment", "review", "close", "merge", "edit", "approve", "ready", "to", "on", "in", "for",
    "pr", "mr", "issue", "the"]

theorem Said.last_mem {words : List String} {last : String} (h : Said (words ++ [last])) :
    last ∈ lastWords := by
  generalize hsaid : words ++ [last] = said at h
  have hlast : said.reverse = last :: words.reverse := by
    rw [← hsaid, List.reverse_append]
    rfl
  have hsub : ∀ {lasts : List String}, last ∈ lasts → lasts ⊆ lastWords → last ∈ lastWords :=
    fun hmem hsub => hsub hmem
  cases h with
  | cli _ _ hlate | post _ hlate | postThe _ hlate | verdict hlate | refer _ hlate
  | referThe _ hlate =>
      obtain ⟨rfl, -⟩ := List.cons.inj hlast
      exact hsub hlate (by decide)
  | comment _ | merged _ =>
      obtain ⟨rfl, -⟩ := List.cons.inj hlast
      decide

theorem Said.last_not_hex {words : List String} {last : String} (h : Said (words ++ [last])) :
    ∃ x ∈ last.toList, isHex x = false := by
  have hany : ∀ last ∈ lastWords, last.toList.any (fun x => !isHex x) = true := by decide
  obtain ⟨x, hx, hhex⟩ := List.any_eq_true.mp (hany last h.last_mem)
  exact ⟨x, hx, Bool.not_eq_true' _ ▸ hhex⟩

/-! ## Phrases -/

section Phrases

variable [WordUnicode] {u v g q rest : List Char} {word : String} {words : List String}

/-- Blanks and marks, as between a phrase and its number. -/
def IsTail (q : List Char) : Prop :=
  ∀ x ∈ q, Unicode.isSpace x = true ∨ x = '!' ∨ x = '#'

/-- A blank or more. -/
def IsGap (g : List Char) : Prop :=
  g ≠ [] ∧ ∀ x ∈ g, Unicode.isSpace x = true

theorem IsGap.isTail (h : IsGap g) : IsTail g :=
  fun x hx => .inl (h.2 x hx)

theorem IsTail.append (h : IsTail u) (h' : IsTail v) : IsTail (u ++ v) := by
  intro x hx
  exact (List.mem_append.mp hx).elim (h x) (h' x)

theorem not_isWord_mark {x : Char} (h : x = '!' ∨ x = '#') : Unicode.isWord x = false := by
  unfold Unicode.isWord
  obtain rfl | rfl := h
  · rw [WordUnicode.isAlnum_ascii _ (by decide)]
    decide
  · rw [WordUnicode.isAlnum_ascii _ (by decide)]
    decide

theorem IsTail.not_isWord (h : IsTail q) : ∀ x ∈ q, Unicode.isWord x = false := by
  intro x hx
  exact (h x hx).elim not_isWord_of_isSpace not_isWord_mark

theorem IsTail.not_isDecimal (h : IsTail q) : ∀ x ∈ q, Unicode.isDecimal x = false :=
  fun x hx => not_isDecimal_of_not_isWord (h.not_isWord x hx)

theorem IsTail.lacks (h : IsTail q) : Lacks Unicode.isWord q :=
  lacks_iff.mpr (fun x hx => h.not_isWord x (List.mem_of_mem_head? hx))

theorem IsGap.lacks (h : IsGap g) : Lacks Unicode.isWord (g ++ rest) := by
  obtain ⟨x, g, rfl⟩ := List.exists_cons_of_ne_nil h.1
  exact lacks_cons_iff.mpr (h.isTail.not_isWord x List.mem_cons_self)

/-- The text has the words, and no digit. -/
structure Utters (words : List String) (cs : List Char) : Prop where
  words : (wordsOf cs).map spell = words
  digitless : ∀ x ∈ cs, Unicode.isDecimal x = false

theorem Utters.word_tail (h : Spelled word v) (hword : word ≠ "") (hq : IsTail q) :
    Utters [word] (v ++ q) where
  words := by
    rw [wordsOf_append_of_lacks hq.lacks, h.wordsOf_eq hword, wordsOf_eq_nil hq.not_isWord,
      List.append_nil, List.map_singleton, h.1]
  digitless := by
    rw [List.forall_mem_append]
    exact ⟨h.not_isDecimal, hq.not_isDecimal⟩

theorem wordsOf_word_gap (hne : v ≠ []) (hv : ∀ x ∈ v, Unicode.isWord x = true)
    (hg : IsGap g) : wordsOf (v ++ (g ++ rest)) = v :: wordsOf rest := by
  have hlast : Lacks Unicode.isWord g.reverse :=
    lacks_iff.mpr (fun x hx => hg.isTail.not_isWord x
      (List.mem_reverse.mp (List.mem_of_mem_head? hx)))
  have hgap : wordsOf (g ++ rest) = wordsOf rest := by
    rw [wordsOf_append_of_lacks_reverse hlast, wordsOf_eq_nil hg.isTail.not_isWord,
      List.nil_append]
  rw [wordsOf_append_of_lacks hg.lacks, wordsOf_word hne hv, hgap, List.singleton_append]

theorem Utters.word_gap (h : Spelled word v) (hword : word ≠ "") (hg : IsGap g)
    (hrest : Utters words rest) : Utters (word :: words) (v ++ (g ++ rest)) where
  words := by
    rw [wordsOf_word_gap (h.ne_nil hword) h.isWord hg, List.map_cons, h.1, hrest.words]
  digitless := by
    rw [List.forall_mem_append, List.forall_mem_append]
    exact ⟨h.not_isDecimal, hg.isTail.not_isDecimal, hrest.digitless⟩

/-- A text in front of a number that the grammar allows. -/
structure Phrase (phrase : List Char) : Prop where
  said : Said ((wordsOf phrase).map spell)
  letter : ∃ x xs, phrase = x :: xs ∧ isLetterI x = true
  led : ∀ u d rest, phrase = u ++ d :: rest → Unicode.isDecimal d = true →
    Led ((wordsOf u).map spell)

theorem Utters.phrase (h : Utters words (v ++ rest)) (hsaid : Said words) (hv : Spelled word v)
    (hword : word ≠ "") : Phrase (v ++ rest) where
  said := h.words.symm ▸ hsaid
  letter := by
    obtain ⟨x, xs, rfl⟩ := List.exists_cons_of_ne_nil (hv.ne_nil hword)
    exact ⟨x, xs ++ rest, rfl, hv.2 x List.mem_cons_self⟩
  led := by
    intro u d after hsplit hd
    have hmem : d ∈ v ++ rest := hsplit ▸ List.mem_append_right u List.mem_cons_self
    rw [h.digitless d hmem] at hd
    cases hd

omit [WordUnicode] in
/-- A character of a kind that only the middle part has. -/
theorem exists_of_middle {p : Char → Bool} {a b : List Char} {d : Char}
    (h : a ++ (g ++ b) = u ++ d :: rest) (hd : p d = true) (ha : ∀ x ∈ a, p x = false)
    (hb : ∀ x ∈ b, p x = false) : ∃ w w', g = w ++ d :: w' ∧ u = a ++ w := by
  have hnot : ∀ {cs : List Char}, (∀ x ∈ cs, p x = false) → d ∉ cs := by
    intro cs hcs hmem
    rw [hcs d hmem] at hd
    cases hd
  induction a generalizing u with
  | nil =>
      rw [List.nil_append] at h
      obtain ⟨z, -, hz⟩ | ⟨z, rfl, hz⟩ := List.append_eq_append_iff.mp h
      · exact absurd (hz ▸ List.mem_append_right z List.mem_cons_self) (hnot hb)
      · cases z with
        | nil =>
            obtain rfl : d :: rest = b := hz
            exact absurd List.mem_cons_self (hnot hb)
        | cons x z =>
            obtain ⟨rfl, -⟩ := List.cons.inj hz
            exact ⟨u, z, rfl, rfl⟩
  | cons x a ih =>
      rw [List.forall_mem_cons] at ha
      cases u with
      | nil =>
          obtain ⟨rfl, -⟩ := List.cons.inj h
          rw [ha.1] at hd
          cases hd
      | cons y u =>
          obtain ⟨rfl, hrest⟩ := List.cons.inj h
          obtain ⟨w, w', hg, rfl⟩ := ih hrest ha.2
          exact ⟨w, w', hg, rfl⟩

/-- A phrase of posting, which may have digits in its object. -/
theorem phrase_postThe {verb place : String} {v s t s' object s'' p q : List Char}
    (hverb : verb ∈ postVerbs) (hplace : place ∈ ["to", "on", "in"]) (hv : Spelled verb v)
    (hs : IsGap s) (ht : Spelled "the" t) (hs' : IsGap s') (hne : object ≠ [])
    (hobject : ∀ x ∈ object, Unicode.isWord x = true) (hs'' : IsGap s'') (hp : Spelled place p)
    (hq : IsTail q) :
    Phrase (v ++ (s ++ (t ++ (s' ++ (object ++ (s'' ++ (p ++ q))))))) := by
  have hverb' : verb ≠ "" := by
    rintro rfl
    exact absurd hverb (by decide)
  have hplace' : place ≠ "" := by
    rintro rfl
    exact absurd hplace (by decide)
  have hend := Utters.word_tail hp hplace' hq
  have hlead : ∀ cs, wordsOf (v ++ (s ++ (t ++ (s' ++ cs)))) = v :: t :: wordsOf cs := by
    intro cs
    rw [wordsOf_word_gap (hv.ne_nil hverb') hv.isWord hs,
      wordsOf_word_gap (ht.ne_nil (by decide)) ht.isWord hs']
  refine ⟨?_, ?_, ?_⟩
  · rw [hlead, wordsOf_word_gap hne hobject hs'', List.map_cons, List.map_cons, List.map_cons,
      hend.words, hv.1, ht.1]
    exact .postThe hverb hplace
  · obtain ⟨x, xs, rfl⟩ := List.exists_cons_of_ne_nil (hv.ne_nil hverb')
    exact ⟨x, _, rfl, hv.2 x List.mem_cons_self⟩
  · intro u d rest hsplit hd
    have hsplit' : (v ++ (s ++ (t ++ s'))) ++ (object ++ (s'' ++ (p ++ q))) = u ++ d :: rest := by
      simp only [List.append_assoc]
      exact hsplit
    obtain ⟨w, w', rfl, rfl⟩ := exists_of_middle hsplit' hd (by
      simp only [List.forall_mem_append]
      exact ⟨hv.not_isDecimal, hs.isTail.not_isDecimal, ht.not_isDecimal, hs'.isTail.not_isDecimal⟩)
      (by
        rw [List.forall_mem_append]
        exact ⟨hs''.isTail.not_isDecimal, hend.digitless⟩)
    refine ⟨verb, hverb, ?_⟩
    simp only [List.append_assoc]
    rw [hlead, List.map_cons, List.map_cons, hv.1, ht.1]
    by_cases hw : w = []
    · subst hw
      exact .inl rfl
    · refine .inr ⟨spell w, ?_⟩
      rw [wordsOf_word hw (fun x hx => hobject x (List.mem_append_left _ hx)), List.map_singleton]

end Phrases

/-! ## Reading a phrase -/

section Reading

variable [WordUnicode] {c c' : Cursor}

theorem gap_of_reads {rs : List Regex} (h : Reads (seqs (gap :: rs)) c c') :
    ∃ g d, c.Passes g d ∧ IsGap g ∧ Reads (seqs rs) d c' := by
  obtain ⟨d, hgap, hrest⟩ := reads_seqs_cons.mp h
  obtain ⟨x, w, hpass, hx, hw⟩ := reads_plus_chr_iff.mp hgap
  exact ⟨x :: w, d, hpass, ⟨List.cons_ne_nil x w, List.forall_mem_cons.mpr ⟨hx, hw⟩⟩, hrest⟩

theorem tail_of_reads_mark (h : Reads mark c c') : ∃ q, c.Passes q c' ∧ IsTail q := by
  obtain rfl | ⟨x, hpass, hx⟩ := reads_opt_chr_iff.mp h
  · exact ⟨[], Cursor.Passes.refl _, List.forall_mem_nil _⟩
  · refine ⟨[x], hpass, List.forall_mem_singleton.mpr (.inr ?_)⟩
    rw [List.contains_iff_mem] at hx
    exact (List.mem_cons.mp hx).imp_right List.mem_singleton.mp

theorem tail_of_reads {rs : List Regex} (h : Reads (seqs (star space :: mark :: rs)) c c') :
    ∃ q d, c.Passes q d ∧ IsTail q ∧ Reads (seqs rs) d c' := by
  obtain ⟨c₁, hblanks, hrest₁⟩ := reads_seqs_cons.mp h
  obtain ⟨c₂, hmark, hrest₂⟩ := reads_seqs_cons.mp hrest₁
  obtain ⟨q, hpass, hq⟩ := reads_star_chr_iff.mp hblanks
  obtain ⟨q', hpass', hq'⟩ := tail_of_reads_mark hmark
  exact ⟨q ++ q', c₂, hpass.trans hpass', IsTail.append (fun x hx => .inl (hq x hx)) hq', hrest₂⟩

omit [WordUnicode] in
theorem text_of_reads {text : String} {rs : List Regex}
    (htext : text.toList.all isLower = true) (h : Reads (seqs (litI text :: rs)) c c') :
    ∃ v d, c.Passes v d ∧ Spelled text v ∧ Reads (seqs rs) d c' := by
  obtain ⟨d, hlit, hrest⟩ := reads_seqs_cons.mp h
  obtain ⟨v, hpass, hv⟩ := spelled_of_reads_litI htext hlit
  exact ⟨v, d, hpass, hv, hrest⟩

omit [WordUnicode] in
theorem choice_of_reads (texts : List String) {rs : List Regex}
    (htexts : texts.all (fun text => text.toList.all isLower) = true)
    (h : Reads (seqs (alts (texts.map litI) :: rs)) c c') :
    ∃ text ∈ texts, ∃ v d, c.Passes v d ∧ Spelled text v ∧ Reads (seqs rs) d c' := by
  obtain ⟨d, hchoice, hrest⟩ := reads_seqs_cons.mp h
  obtain ⟨text, htext, v, hpass, hv⟩ := spelled_of_reads_choice htexts hchoice
  exact ⟨text, htext, v, d, hpass, hv, hrest⟩

omit [WordUnicode] in
theorem verb_of_reads {verb : String} {rs : List Regex}
    (hverb : verb.toList.all isLower = true)
    (h : Reads (seqs (litI verb :: opt (alt (litI "s") (litI "ed")) :: rs)) c c') :
    ∃ word ∈ [verb, verb ++ "s", verb ++ "ed"], ∃ v d, c.Passes v d ∧ Spelled word v ∧
      Reads (seqs rs) d c' := by
  obtain ⟨v, c₁, hpass, hv, hrest₁⟩ := text_of_reads hverb h
  obtain ⟨c₂, hopt, hrest₂⟩ := reads_seqs_cons.mp hrest₁
  obtain hnone | hending := reads_opt hopt
  · exact ⟨verb, by simp, v, c₁, hpass, hv, hnone ▸ hrest₂⟩
  · have hchoice : Reads (alts (["s", "ed"].map litI)) c₁ c₂ := hending
    obtain ⟨ending, hmem, w, hpass', hw⟩ := spelled_of_reads_choice (by decide) hchoice
    refine ⟨verb ++ ending, ?_, v ++ w, c₂, hpass.trans hpass', hv.append hw, hrest₂⟩
    obtain rfl | rfl : ending = "s" ∨ ending = "ed" := by simpa using hmem
    · simp
    · simp

omit [WordUnicode] in
theorem ne_empty_of_mem {word : String} {words : List String} (h : word ∈ words)
    (hwords : "" ∉ words) : word ≠ "" := by
  rintro rfl
  exact hwords h

/-- A pattern that reads a phrase, but for the tail. -/
def Phrasal (r : Regex) : Prop :=
  ∀ c c', Reads r c c' → ∃ u, c.Passes u c' ∧ ∀ q, IsTail q → Phrase (u ++ q)

theorem phrasal_cli : Phrasal (seqs [alt (litI "gh") (litI "glab"), gap, referrer, gap,
    alts (["comment", "review", "close", "merge", "edit", "approve", "ready"].map litI)]) := by
  intro c c' h
  obtain ⟨tool, htool, v, c₁, hpass₁, hv, hrest₁⟩ :=
    choice_of_reads ["gh", "glab"] (by decide) h
  obtain ⟨g, c₂, hpass₂, hg, hrest₂⟩ := gap_of_reads hrest₁
  obtain ⟨reference, href, w, c₃, hpass₃, hw, hrest₃⟩ :=
    choice_of_reads referrers (by decide) hrest₂
  obtain ⟨g', c₄, hpass₄, hg', hrest₄⟩ := gap_of_reads hrest₃
  obtain ⟨verb, hverb, x, c₅, hpass₅, hx, hrest₅⟩ := choice_of_reads _ (by decide) hrest₄
  obtain rfl := reads_seqs_nil.mp hrest₅
  refine ⟨_, hpass₁.trans (hpass₂.trans (hpass₃.trans (hpass₄.trans hpass₅))), fun q hq => ?_⟩
  simp only [List.append_assoc]
  have hend := Utters.word_tail hx (ne_empty_of_mem hverb (by decide)) hq
  have hmiddle := Utters.word_gap hw (ne_empty_of_mem href (by decide)) hg' hend
  have htool' := ne_empty_of_mem htool (by decide)
  exact (Utters.word_gap hv htool' hg hmiddle).phrase (.cli htool href hverb) hv htool'

theorem phrasal_comment : Phrasal (seqs [litI "comment", opt (alt (litI "s") (litI "ed")), gap,
    litI "on"]) := by
  intro c c' h
  obtain ⟨verb, hverb, v, c₁, hpass₁, hv, hrest₁⟩ := verb_of_reads (by decide) h
  obtain ⟨g, c₂, hpass₂, hg, hrest₂⟩ := gap_of_reads hrest₁
  obtain ⟨w, c₃, hpass₃, hw, hrest₃⟩ := text_of_reads (by decide) hrest₂
  obtain rfl := reads_seqs_nil.mp hrest₃
  refine ⟨_, hpass₁.trans (hpass₂.trans hpass₃), fun q hq => ?_⟩
  simp only [List.append_assoc]
  have hend := Utters.word_tail hw (by decide) hq
  have hverb' := ne_empty_of_mem hverb (by decide)
  exact (Utters.word_gap hv hverb' hg hend).phrase (.comment hverb) hv hverb'

theorem phrasal_verdict : Phrasal (seqs [litI "verdict", gap, alt (litI "on") (litI "for")]) := by
  intro c c' h
  obtain ⟨v, c₁, hpass₁, hv, hrest₁⟩ := text_of_reads (by decide) h
  obtain ⟨g, c₂, hpass₂, hg, hrest₂⟩ := gap_of_reads hrest₁
  obtain ⟨place, hplace, w, c₃, hpass₃, hw, hrest₃⟩ :=
    choice_of_reads ["on", "for"] (by decide) hrest₂
  obtain rfl := reads_seqs_nil.mp hrest₃
  refine ⟨_, hpass₁.trans (hpass₂.trans hpass₃), fun q hq => ?_⟩
  simp only [List.append_assoc]
  have hend := Utters.word_tail hw (ne_empty_of_mem hplace (by decide)) hq
  exact (Utters.word_gap hv (by decide) hg hend).phrase (.verdict hplace) hv (by decide)

theorem phrasal_post : Phrasal (seqs [litI "post", opt (alt (litI "s") (litI "ed")),
    opt (seqs [gap, litI "the", gap, plus word]), gap,
    alts [litI "to", litI "on", litI "in"]]) := by
  intro c c' h
  obtain ⟨verb, hverb, v, c₁, hpass₁, hv, hrest₁⟩ := verb_of_reads (by decide) h
  have hverb' := ne_empty_of_mem hverb (by decide)
  obtain ⟨c₂, hobject, hrest₂⟩ := reads_seqs_cons.mp hrest₁
  obtain ⟨g, c₃, hpass₃, hg, hrest₃⟩ := gap_of_reads hrest₂
  obtain ⟨place, hplace, w, c₄, hpass₄, hw, hrest₄⟩ :=
    choice_of_reads ["to", "on", "in"] (by decide) hrest₃
  obtain rfl := reads_seqs_nil.mp hrest₄
  obtain rfl | hobject := reads_opt hobject
  · refine ⟨_, hpass₁.trans (hpass₃.trans hpass₄), fun q hq => ?_⟩
    simp only [List.append_assoc]
    have hend := Utters.word_tail hw (ne_empty_of_mem hplace (by decide)) hq
    exact (Utters.word_gap hv hverb' hg hend).phrase (.post hverb hplace) hv hverb'
  · obtain ⟨g', d₁, hpass₅, hg', hrest₅⟩ := gap_of_reads hobject
    obtain ⟨t, d₂, hpass₆, ht, hrest₆⟩ := text_of_reads (by decide) hrest₅
    obtain ⟨g'', d₃, hpass₇, hg'', hrest₇⟩ := gap_of_reads hrest₆
    obtain ⟨d₄, hword, hrest₈⟩ := reads_seqs_cons.mp hrest₇
    obtain rfl := reads_seqs_nil.mp hrest₈
    obtain ⟨x, xs, hpass₈, hx, hxs⟩ := reads_plus_chr_iff.mp hword
    refine ⟨_, hpass₁.trans (hpass₅.trans (hpass₆.trans (hpass₇.trans (hpass₈.trans
      (hpass₃.trans hpass₄))))), fun q hq => ?_⟩
    simp only [List.append_assoc]
    exact phrase_postThe hverb hplace hv hg' ht hg'' (List.cons_ne_nil x xs)
      (List.forall_mem_cons.mpr ⟨hx, hxs⟩) hg hw hq

theorem phrasal_review : Phrasal (seqs [litI "review", opt (alt (litI "s") (litI "ed")),
    opt (seqs [gap, litI "the"]), gap, referrer, star space, mark]) := by
  intro c c' h
  obtain ⟨verb, hverb, v, c₁, hpass₁, hv, hrest₁⟩ := verb_of_reads (by decide) h
  have hverb' := ne_empty_of_mem hverb (by decide)
  obtain ⟨c₂, hthe, hrest₂⟩ := reads_seqs_cons.mp hrest₁
  obtain ⟨g, c₃, hpass₃, hg, hrest₃⟩ := gap_of_reads hrest₂
  obtain ⟨reference, href, w, c₄, hpass₄, hw, hrest₄⟩ :=
    choice_of_reads referrers (by decide) hrest₃
  have href' := ne_empty_of_mem href (by decide)
  obtain ⟨q', c₅, hpass₅, hq', hrest₅⟩ := tail_of_reads hrest₄
  obtain rfl := reads_seqs_nil.mp hrest₅
  obtain rfl | hthe := reads_opt hthe
  · refine ⟨_, hpass₁.trans (hpass₃.trans (hpass₄.trans hpass₅)), fun q hq => ?_⟩
    simp only [List.append_assoc]
    have hend := Utters.word_tail hw href' (hq'.append hq)
    exact (Utters.word_gap hv hverb' hg hend).phrase
      (.refer (List.mem_append_left ["merge", "close"] hverb) href) hv hverb'
  · obtain ⟨g', d₁, hpass₆, hg', hrest₆⟩ := gap_of_reads hthe
    obtain ⟨t, d₂, hpass₇, ht, hrest₇⟩ := text_of_reads (by decide) hrest₆
    obtain rfl := reads_seqs_nil.mp hrest₇
    refine ⟨_, hpass₁.trans (hpass₆.trans (hpass₇.trans (hpass₃.trans (hpass₄.trans hpass₅)))),
      fun q hq => ?_⟩
    simp only [List.append_assoc]
    have hend := Utters.word_tail hw href' (hq'.append hq)
    have hmiddle := Utters.word_gap ht (by decide) hg hend
    exact (Utters.word_gap hv hverb' hg' hmiddle).phrase
      (.referThe (List.mem_append_left ["merge", "close", "merged", "closed"] hverb) href) hv hverb'

theorem phrasal_merge : Phrasal (seqs [alt (litI "merge") (litI "close"), gap,
    opt (seqs [litI "the", gap]), referrer, star space, mark]) := by
  intro c c' h
  obtain ⟨verb, hverb, v, c₁, hpass₁, hv, hrest₁⟩ :=
    choice_of_reads ["merge", "close"] (by decide) h
  have hverb' := ne_empty_of_mem hverb (by decide)
  obtain ⟨g, c₂, hpass₂, hg, hrest₂⟩ := gap_of_reads hrest₁
  obtain ⟨c₃, hthe, hrest₃⟩ := reads_seqs_cons.mp hrest₂
  obtain ⟨reference, href, w, c₄, hpass₄, hw, hrest₄⟩ :=
    choice_of_reads referrers (by decide) hrest₃
  have href' := ne_empty_of_mem href (by decide)
  obtain ⟨q', c₅, hpass₅, hq', hrest₅⟩ := tail_of_reads hrest₄
  obtain rfl := reads_seqs_nil.mp hrest₅
  obtain rfl | hthe := reads_opt hthe
  · refine ⟨_, hpass₁.trans (hpass₂.trans (hpass₄.trans hpass₅)), fun q hq => ?_⟩
    simp only [List.append_assoc]
    have hend := Utters.word_tail hw href' (hq'.append hq)
    exact (Utters.word_gap hv hverb' hg hend).phrase
      (.refer (List.mem_append_right ["review", "reviews", "reviewed"] hverb) href) hv hverb'
  · obtain ⟨t, d₁, hpass₆, ht, hrest₆⟩ := text_of_reads (by decide) hthe
    obtain ⟨g', d₂, hpass₇, hg', hrest₇⟩ := gap_of_reads hrest₆
    obtain rfl := reads_seqs_nil.mp hrest₇
    refine ⟨_, hpass₁.trans (hpass₂.trans (hpass₆.trans (hpass₇.trans (hpass₄.trans hpass₅)))),
      fun q hq => ?_⟩
    simp only [List.append_assoc]
    have hend := Utters.word_tail hw href' (hq'.append hq)
    have hmiddle := Utters.word_gap ht (by decide) hg' hend
    have hverbs : verb ∈ ["review", "reviews", "reviewed", "merge", "close", "merged", "closed"] :=
      List.mem_append_right ["review", "reviews", "reviewed"]
        (List.mem_append_left ["merged", "closed"] hverb)
    exact (Utters.word_gap hv hverb' hg hmiddle).phrase (.referThe hverbs href) hv hverb'

theorem phrasal_merged : Phrasal (seqs [alt (litI "merged") (litI "closed"), gap, litI "the", gap,
    opt referrer]) := by
  intro c c' h
  obtain ⟨verb, hverb, v, c₁, hpass₁, hv, hrest₁⟩ :=
    choice_of_reads ["merged", "closed"] (by decide) h
  have hverb' := ne_empty_of_mem hverb (by decide)
  obtain ⟨g, c₂, hpass₂, hg, hrest₂⟩ := gap_of_reads hrest₁
  obtain ⟨t, c₃, hpass₃, ht, hrest₃⟩ := text_of_reads (by decide) hrest₂
  obtain ⟨g', c₄, hpass₄, hg', hrest₄⟩ := gap_of_reads hrest₃
  obtain ⟨c₅, hopt, hrest₅⟩ := reads_seqs_cons.mp hrest₄
  obtain rfl := reads_seqs_nil.mp hrest₅
  obtain rfl | href := reads_opt hopt
  · refine ⟨_, hpass₁.trans (hpass₂.trans (hpass₃.trans hpass₄)), fun q hq => ?_⟩
    simp only [List.append_assoc]
    have hend := Utters.word_tail ht (by decide) (hg'.isTail.append hq)
    exact (Utters.word_gap hv hverb' hg hend).phrase (.merged hverb) hv hverb'
  · have hchoice : Reads (alts (referrers.map litI)) c₄ c' := href
    obtain ⟨reference, hmem, w, hpass₅, hw⟩ := spelled_of_reads_choice (by decide) hchoice
    refine ⟨_, hpass₁.trans (hpass₂.trans (hpass₃.trans (hpass₄.trans hpass₅))), fun q hq => ?_⟩
    simp only [List.append_assoc]
    have hend := Utters.word_tail hw (ne_empty_of_mem hmem (by decide)) hq
    have hmiddle := Utters.word_gap ht (by decide) hg' hend
    exact (Utters.word_gap hv hverb' hg hmiddle).phrase
      (.referThe (List.mem_append_right ["review", "reviews", "reviewed", "merge", "close"] hverb)
        hmem) hv hverb'

/-- A phrase, its number, and what they stand between. -/
structure Binding (c c' : Cursor) (phrase number : List Char) : Prop where
  after : c.after = phrase ++ (number ++ c'.after)
  groups : c'.groups = String.ofList number :: c.groups
  phrase : Phrase phrase
  nonempty : number ≠ []
  digits : ∀ x ∈ number, Unicode.isDecimal x = true
  starts : Lacks Unicode.isWord c.before
  ends : Lacks Unicode.isWord c'.after

/-- What `_ACTION_REF_RE` reads. -/
theorem binding_of_reads (h : Reads actionRefRe c c') :
    ∃ phrase number, Binding c c' phrase number := by
  obtain ⟨c₀, hboundary, hrest₀⟩ := reads_seqs_cons.mp h
  obtain ⟨c₁, halts, hrest₁⟩ := reads_seqs_cons.mp hrest₀
  obtain ⟨q, c₂, hpass₂, hq, hrest₂⟩ := tail_of_reads hrest₁
  obtain ⟨c₃, hblanks, hrest₃⟩ := reads_seqs_cons.mp hrest₂
  obtain ⟨c₄, hgroup, hrest₄⟩ := reads_seqs_cons.mp hrest₃
  obtain ⟨c₅, hend, hrest₅⟩ := reads_seqs_cons.mp hrest₄
  obtain rfl := reads_seqs_nil.mp hrest₅
  obtain ⟨hnext, rfl⟩ := reads_look_iff.mp hend
  obtain ⟨-, rfl⟩ := reads_look_iff.mp hboundary
  obtain ⟨q', hpass₃, hq'⟩ := reads_star_chr_iff.mp hblanks
  obtain ⟨d, hdigits, rfl⟩ := reads_group_iff.mp hgroup
  obtain ⟨x, xs, hpass₄, hx, hxs⟩ := reads_plus_chr_iff.mp hdigits
  have hphrase : ∃ u, c₀.Passes u c₁ ∧ ∀ q, IsTail q → Phrase (u ++ q) := by
    obtain ⟨r, hr, hread⟩ := reads_alts_iff.mp halts
    have hphrasal : Phrasal r := by
      simp only [List.mem_cons, List.not_mem_nil, or_false] at hr
      obtain rfl | rfl | rfl | rfl | rfl | rfl | rfl := hr
      · exact phrasal_cli
      · exact phrasal_comment
      · exact phrasal_post
      · exact phrasal_verdict
      · exact phrasal_review
      · exact phrasal_merge
      · exact phrasal_merged
    exact hphrasal c₀ c₁ hread
  obtain ⟨u, hpass₁, hphrase⟩ := hphrase
  have htail : IsTail (q ++ q') := hq.append (fun x hx => .inl (hq' x hx))
  have hafter : c₀.after = (u ++ (q ++ q')) ++ (x :: xs ++ d.after) := by
    rw [hpass₁.after, hpass₂.after, hpass₃.after, hpass₄.after]
    simp only [List.append_assoc]
  refine ⟨u ++ (q ++ q'), x :: xs, hafter, ?_, hphrase _ htail, List.cons_ne_nil x xs,
    List.forall_mem_cons.mpr ⟨hx, hxs⟩, ?_, ?_⟩
  · dsimp only
    rw [hpass₄.between, hpass₄.groups, hpass₃.groups, hpass₂.groups, hpass₁.groups]
  · obtain ⟨y, ys, hstart, hy⟩ := (hphrase _ htail).letter
    rw [hstart] at hafter
    exact ((reads_boundary_of_word_after hafter (isWord_of_isLetterI hy)).mp hboundary).1
  · rw [Bool.not_eq_true'] at hnext
    exact hnext

/-! ## No number is missed -/

variable {d d' : Cursor} {x phrase number phrase' number' : List Char}

/-- Phrases that overlap bind one number. -/
theorem Binding.same_number (h : Binding c d phrase number) (h' : Binding c' d' phrase' number')
    (hafter : c.after = x ++ c'.after) (hbefore : c'.before = x.reverse ++ c.before)
    (hinside : d.after.length < c'.after.length) : number = number' := by
  -- The later phrase begins with a letter, so not inside the number.
  have hprefix : ∃ rest, phrase = x ++ rest ∧ rest ++ (number ++ d.after) = c'.after := by
    obtain ⟨z, -, hz⟩ | ⟨z, hz, hrest⟩ := List.append_eq_append_iff.mp (h.after.symm.trans hafter)
    · obtain ⟨y, ys, hstart, hy⟩ := h'.phrase.letter
      have hletter : c'.after = y :: (ys ++ (number' ++ d'.after)) := by
        rw [h'.after, hstart]
        rfl
      obtain ⟨w, -, hw⟩ | ⟨w, hw, hrest⟩ := List.append_eq_append_iff.mp hz
      · rw [hw, List.length_append] at hinside
        omega
      · cases w with
        | nil =>
            rw [hrest] at hinside
            exact absurd hinside (Nat.lt_irrefl _)
        | cons u w =>
            obtain ⟨rfl, -⟩ := List.cons.inj (hletter.symm.trans hrest)
            have hdigit := h.digits y (hw ▸ List.mem_append_right z List.mem_cons_self)
            rw [not_isDecimal_of_isLetterI hy] at hdigit
            cases hdigit
    · exact ⟨z, hz, hrest.symm⟩
  obtain ⟨rest, rfl, hrest⟩ := hprefix
  have hstarts : Lacks Unicode.isWord x.reverse := Lacks.of_append (hbefore ▸ h'.starts)
  have hwords := wordsOf_append_of_lacks_reverse (v := rest) hstarts
  have hsame : number ++ d.after = number' ++ d'.after → number = number' :=
    fun heq => (run_unique heq h.digits h'.digits h.ends.isDecimal h'.ends.isDecimal).1
  rw [h'.after] at hrest
  obtain ⟨z, rfl, hnumber⟩ | ⟨z, rfl, hnumber⟩ := List.append_eq_append_iff.mp hrest
  · cases z with
    | nil => exact hsame hnumber
    | cons y z =>
        obtain ⟨m, ms, rfl⟩ := List.exists_cons_of_ne_nil h.nonempty
        obtain ⟨rfl, -⟩ := List.cons.inj hnumber
        have hled := h'.phrase.led rest m z rfl (h.digits m List.mem_cons_self)
        have hsaid := h.phrase.said
        rw [hwords, List.map_append] at hsaid
        exact absurd hled hsaid.not_led
  · cases z with
    | nil => exact (hsame hnumber.symm)
    | cons y z =>
        obtain ⟨m, ms, rfl⟩ := List.exists_cons_of_ne_nil h'.nonempty
        obtain ⟨rfl, -⟩ := List.cons.inj hnumber
        have hled := h.phrase.led (x ++ phrase') m z (by simp) (h'.digits m List.mem_cons_self)
        rw [wordsOf_append_of_lacks_reverse hstarts, List.map_append] at hled
        exact absurd hled h'.phrase.said.not_led_append

theorem Binding.captures (h : Binding c d phrase number) (hgroups : c.groups = []) :
    d.captures = [String.ofList number] := by
  unfold Cursor.captures
  rw [h.groups, hgroups]
  rfl

/-- What begins inside a match binds the same number. -/
theorem coherent_actionRef : Coherent actionRefRe (fun c => c.captures.head?) where
  shorter h := by
    obtain ⟨phrase, number, hbinding⟩ := binding_of_reads h
    have hpos := List.length_pos_iff.mpr hbinding.nonempty
    rw [hbinding.after, List.length_append, List.length_append]
    omega
  same h h' hgroups hgroups' hafter hbefore hinside := by
    obtain ⟨phrase, number, hbinding⟩ := binding_of_reads h
    obtain ⟨phrase', number', hbinding'⟩ := binding_of_reads h'
    rw [hbinding.captures hgroups, hbinding'.captures hgroups',
      hbinding.same_number hbinding' hafter hbefore hinside]

end Reading

/-! ## Bound numbers -/

section Bound

variable [WordUnicode] {text number target : String} {left right : List Char}

/-- A phrase of the text binds the number between `left` and `right`. -/
def Binds (text number : String) (left right : List Char) : Prop :=
  text.toList = left ++ (number.toList ++ right) ∧
    ∃ u v c, text.toList = u ++ v ∧ Reads actionRefRe ⟨u.reverse, v, []⟩ c ∧
      c.captures = [number] ∧ c.after = right

/-- The number is the `yyyy` of a date `yyyy-mm-dd`. -/
def IsYear (number : String) (right : List Char) : Prop :=
  number.toList.length = 4 ∧ ∃ m₁ m₂ d₁ d₂ rest,
    right = '-' :: m₁ :: m₂ :: '-' :: d₁ :: d₂ :: rest ∧
      (∀ x ∈ [m₁, m₂, d₁, d₂], Unicode.isDecimal x = true) ∧ Lacks Unicode.isDecimal rest

/-- The number is a part of a longer hexadecimal word. -/
def InSha (number : String) (left right : List Char) : Prop :=
  ∃ before l r after, left = before ++ l ∧ right = r ++ after ∧ l ++ r ≠ [] ∧
    (∀ x ∈ l ++ (number.toList ++ r), isHexI x = true) ∧ Lacks Unicode.isWord before.reverse ∧
      Lacks Unicode.isWord after

/-- What comes before a bound number ends with a phrase. -/
theorem Binds.binding (h : Binds text number left right) :
    ∃ u phrase c, left = u ++ phrase ∧
      Binding ⟨u.reverse, phrase ++ (number.toList ++ right), []⟩ c phrase number.toList ∧
        c.after = right := by
  obtain ⟨hsplit, u, v, c, htext, hread, hcaptures, rfl⟩ := h
  obtain ⟨phrase, digits, hbinding⟩ := binding_of_reads hread
  have hnumber : digits = number.toList := by
    have hcaptured := hbinding.captures rfl
    rw [hcaptures] at hcaptured
    rw [(List.cons.inj hcaptured).1, String.toList_ofList]
  subst hnumber
  obtain rfl : v = phrase ++ (number.toList ++ c.after) := hbinding.after
  refine ⟨u, phrase, c, ?_, hbinding, rfl⟩
  rw [hsplit, ← List.append_assoc, ← List.append_assoc, ← List.append_assoc,
    List.append_cancel_right_eq, List.append_cancel_right_eq] at htext
  exact htext

theorem Binds.mem_findall (h : Binds text number left right) :
    number ∈ actionRefRe.findall text := by
  obtain ⟨-, u, v, c, htext, hread, hcaptures, -⟩ := h
  exact coherent_actionRef.mem_findall htext hread (by rw [hcaptures]; rfl)

/-- A bound number is no part of a longer hexadecimal word. -/
theorem Binds.not_inSha (h : Binds text number left right) : ¬InSha number left right := by
  obtain ⟨u, phrase, c, rfl, hbinding, hright⟩ := h.binding
  rintro ⟨before, l, r, after, hleft, hsplit, hne, hhex, hbefore, -⟩
  have hr : r = [] := by
    cases r with
    | nil => rfl
    | cons x r =>
        have hends := hbinding.ends
        rw [hright, hsplit, List.cons_append, lacks_cons_iff] at hends
        rw [isWord_of_isHexI (hhex x (by simp))] at hends
        cases hends
  rw [hr, List.append_nil] at hne
  have hword : ∀ x ∈ l, Unicode.isWord x = true :=
    fun x hx => isWord_of_isHexI (hhex x (List.mem_append_left _ hx))
  have hl : wordsOf l = [l] := wordsOf_word hne hword
  have hlast : ∀ y, phrase = y ++ l → Lacks Unicode.isWord y.reverse → False := by
    rintro y rfl hy
    have hsaid := hbinding.phrase.said
    rw [wordsOf_append_of_lacks_reverse hy, hl, List.map_append, List.map_singleton] at hsaid
    obtain ⟨x, hx, hnot⟩ := hsaid.last_not_hex
    unfold spell at hx
    rw [String.toList_ofList] at hx
    obtain ⟨z, hz, rfl⟩ := List.mem_map.mp hx
    rw [isHex_foldChar (hhex z (List.mem_append_left _ hz))] at hnot
    cases hnot
  obtain ⟨y, rfl, hy⟩ | ⟨y, rfl, hy⟩ := List.append_eq_append_iff.mp hleft
  · have hreverse : Lacks Unicode.isWord (y.reverse ++ u.reverse) := by
      rw [← List.reverse_append]
      exact hbefore
    exact hlast y hy hreverse.of_append
  · cases y using List.reverseRecOn with
    | nil => exact hlast [] hy.symm (lacks_nil _)
    | append_singleton y x =>
        have hstarts := hbinding.starts
        rw [← List.append_assoc, List.reverse_append, List.reverse_singleton,
          List.singleton_append, lacks_cons_iff] at hstarts
        rw [hword x (hy ▸ by simp)] at hstarts
        cases hstarts

end Bound

/-! ## The guards -/

section Guards

variable [WordUnicode] {req : SubmitTaskRequest} {target number text : String}
  {left right : List Char}

/-- The job text: the description, or the title where there is none. -/
def briefOf (req : SubmitTaskRequest) : String :=
  if !Text.isBlank req.description then req.description else req.title

/-- What the action rule compares: the brief, and the title beside a description. -/
def mismatchesOf (req : SubmitTaskRequest) (target : String) : List String :=
  actionRefMismatches (briefOf req) target ++
    (if !Text.isBlank req.description then actionRefMismatches req.title target else [])

/-- The title is one line where there is a lane, and the brief mentions the target. -/
structure Reaches (req : SubmitTaskRequest) (target : String) : Prop where
  oneLine : ¬(req.laneKey ≠ "" ∧ Text.contains (Text.strip req.title) "\n" = true)
  named : briefNamesTarget (briefOf req) target = true

/-- The action rule refuses the request, and names the number. -/
def RefusedOver (req : SubmitTaskRequest) (target number : String) : Prop :=
  Tasks.checkBrief req =
      httpError 422 (actionDetail req.laneKey target (mismatchesOf req target)) ∧
    number ∈ mismatchesOf req target

/-- What the guards do once the action rule is reached. -/
theorem checkBrief_of_reaches (htarget : laneTarget req.laneKey = some target)
    (h : Reaches req target) : Tasks.checkBrief req =
      if mismatchesOf req target ≠ [] then
        httpError 422 (actionDetail req.laneKey target (mismatchesOf req target))
      else pure () := by
  have hnamed : ¬briefNamesTarget (briefOf req) target = false := by
    rw [h.named]
    exact Bool.noConfusion
  unfold Tasks.checkBrief
  rw [if_neg h.oneLine, htarget]
  exact if_neg hnamed

/-- The action rule is reached, or another one refuses. -/
theorem reaches_or_refused (htarget : laneTarget req.laneKey = some target) :
    Reaches req target ∨ Tasks.checkBrief req = httpError 422 (wrongColumnDetail req.laneKey) ∨
      Tasks.checkBrief req =
        httpError 422 (targetDetail req.laneKey target (!Text.isBlank req.description)) := by
  by_cases hline : req.laneKey ≠ "" ∧ Text.contains (Text.strip req.title) "\n" = true
  · refine .inr (.inl ?_)
    unfold Tasks.checkBrief
    rw [if_pos hline]
  · by_cases hnamed : briefNamesTarget (briefOf req) target = true
    · exact .inl ⟨hline, hnamed⟩
    · refine .inr (.inr ?_)
      rw [Bool.not_eq_true] at hnamed
      unfold Tasks.checkBrief
      rw [if_neg hline, htarget]
      exact if_pos hnamed

theorem mismatchesOf_eq_nil (htarget : laneTarget req.laneKey = some target)
    (h : Tasks.checkBrief req = pure ()) : mismatchesOf req target = [] := by
  obtain hreaches | hrefused | hrefused := reaches_or_refused htarget
  · rw [checkBrief_of_reaches htarget hreaches] at h
    by_contra hne
    rw [if_pos hne] at h
    cases h
  · rw [hrefused] at h
    cases h
  · rw [hrefused] at h
    cases h

omit [WordUnicode] in
theorem take_toList_append {n : Nat} {s t : String} (h : n ≤ s.toList.length) :
    (s ++ t).toList.take n = s.toList.take n := by
  rw [String.toList_append, List.take_append_of_le_length h]

theorem reaches_of_refusedOver (htarget : laneTarget req.laneKey = some target)
    (h : RefusedOver req target number) : Reaches req target := by
  have haction : ∀ mismatches, (actionDetail req.laneKey target mismatches).toList.take 7 =
      "brief/a".toList := by
    intro mismatches
    unfold actionDetail
    simp only [String.append_assoc]
    exact take_toList_append (by decide)
  have hother : ∀ detail : String, Tasks.checkBrief req = httpError 422 detail →
      detail.toList.take 7 = "brief/a".toList := by
    intro detail hdetail
    have hsame := h.1.symm.trans hdetail
    injection hsame with herror
    injection herror with _ htext
    rw [← htext]
    exact haction _
  obtain hreaches | hrefused | hrefused := reaches_or_refused htarget
  · exact hreaches
  · have hbegins := hother _ hrefused
    unfold wrongColumnDetail at hbegins
    simp only [String.append_assoc] at hbegins
    rw [take_toList_append (by decide)] at hbegins
    exact absurd hbegins (by decide)
  · have hbegins := hother _ hrefused
    unfold targetDetail at hbegins
    simp only [String.append_assoc] at hbegins
    rw [take_toList_append (by decide)] at hbegins
    exact absurd hbegins (by decide)

/-- The texts that the action rule looks through. -/
def textsOf (req : SubmitTaskRequest) : List String :=
  [briefOf req, req.title]

/-- A number is the target exactly where it is mentioned as one. -/
theorem briefNamesTarget_iff (hnumber : ∀ x ∈ number.toList, Unicode.isDecimal x = true) :
    briefNamesTarget number target = true ↔ number = target := by
  unfold briefNamesTarget
  rw [found_iff]
  constructor
  · rintro ⟨u, v, c, hsplit, hread⟩
    obtain ⟨c₁, hbefore, hrest₁⟩ := reads_seqs_cons.mp hread
    obtain ⟨c₂, hlit, hrest₂⟩ := reads_seqs_cons.mp hrest₁
    obtain ⟨c₃, hafter, hrest₃⟩ := reads_seqs_cons.mp hrest₂
    obtain ⟨hfirst, rfl⟩ := reads_look_iff.mp hbefore
    obtain ⟨hlast, rfl⟩ := reads_look_iff.mp hafter
    have hpass := reads_lit_iff.mp hlit
    have hnone : ∀ cs : List Char, (∀ x ∈ cs, x ∈ number.toList) →
        (!cs.head?.any Unicode.isDecimal) = true → cs = [] := by
      intro cs hcs hhead
      cases cs with
      | nil => rfl
      | cons x cs =>
          rw [List.head?_cons, Option.any_some, hnumber x (hcs x List.mem_cons_self)] at hhead
          cases hhead
    have hv : v = target.toList ++ c₃.after := hpass.after
    have hu : u.reverse = [] := hnone u.reverse
      (fun x hx => hsplit ▸ List.mem_append_left v (List.mem_reverse.mp hx)) hfirst
    have hend : c₃.after = [] := hnone c₃.after (fun x hx => by
      rw [hsplit, hv]
      exact List.mem_append_right u (List.mem_append_right _ hx)) hlast
    rw [List.reverse_eq_nil_iff] at hu
    rw [hu, hv, hend, List.append_nil, List.nil_append] at hsplit
    exact String.toList_injective hsplit
  · rintro rfl
    have hstart : (⟨[], number.toList, []⟩ : Cursor).after = number.toList ++ [] :=
      (List.append_nil _).symm
    obtain ⟨c, hpass, hafter⟩ := Cursor.exists_passes hstart
    refine ⟨[], number.toList, c, rfl, ?_⟩
    refine reads_seqs_cons.mpr ⟨_, reads_look_iff.mpr ⟨rfl, rfl⟩, ?_⟩
    refine reads_seqs_cons.mpr ⟨c, reads_lit_iff.mpr hpass, ?_⟩
    refine reads_seqs_cons.mpr ⟨c, reads_look_iff.mpr ⟨?_, rfl⟩, reads_seqs_nil.mpr rfl⟩
    rw [hafter]
    rfl

theorem Binds.mem_mismatchesOf (h : Binds text number left right) (htext : text ∈ textsOf req)
    (hne : number ≠ target) : number ∈ mismatchesOf req target := by
  obtain ⟨u, phrase, c, -, hbinding, -⟩ := h.binding
  have hmismatch : number ∈ actionRefMismatches text target := by
    unfold actionRefMismatches
    rw [List.mem_filter, Bool.not_eq_true', ← Bool.not_eq_true,
      briefNamesTarget_iff hbinding.digits]
    exact ⟨h.mem_findall, hne⟩
  unfold mismatchesOf
  obtain rfl | htitle := List.mem_cons.mp htext
  · exact List.mem_append_left _ hmismatch
  · obtain rfl := List.mem_singleton.mp htitle
    by_cases hdescription : (!Text.isBlank req.description) = true
    · rw [if_pos hdescription]
      exact List.mem_append_right _ hmismatch
    · refine List.mem_append_left _ ?_
      unfold briefOf
      rw [if_neg hdescription]
      exact hmismatch

theorem ne_of_mem_mismatchesOf (hnumber : ∀ x ∈ number.toList, Unicode.isDecimal x = true)
    (h : number ∈ mismatchesOf req target) : number ≠ target := by
  have hmismatch : ∀ text, number ∈ actionRefMismatches text target → number ≠ target := by
    intro text hmem
    unfold actionRefMismatches at hmem
    rw [List.mem_filter, Bool.not_eq_true', ← Bool.not_eq_true,
      briefNamesTarget_iff hnumber] at hmem
    exact hmem.2
  obtain hbrief | htitle := List.mem_append.mp h
  · exact hmismatch _ hbrief
  · split at htitle
    · exact hmismatch _ htitle
    · cases htitle

/-- Every bound number of an accepted request is the target, and none is refused for a date
or a commit, exactly where no phrase that the action rule looks at binds the year of a date
that is not the target. -/
theorem bound_numbers_agree_iff (htarget : laneTarget req.laneKey = some target) :
    ((Tasks.checkBrief req = pure () → ∀ text ∈ textsOf req, ∀ number left right,
        Binds text number left right → number = target) ∧
      ∀ number, RefusedOver req target number → ∀ text ∈ textsOf req, ∀ left right,
        Binds text number left right → ¬IsYear number right ∧ ¬InSha number left right) ↔
      (Reaches req target → ∀ text ∈ textsOf req, ∀ number left right,
        Binds text number left right → IsYear number right → number = target) := by
  have haccepted : Tasks.checkBrief req = pure () → ∀ text ∈ textsOf req, ∀ number left right,
      Binds text number left right → number = target := by
    intro haccepted text htext number left right hbinds
    by_contra hne
    have hmem := hbinds.mem_mismatchesOf htext hne
    rw [mismatchesOf_eq_nil htarget haccepted] at hmem
    cases hmem
  constructor
  · rintro ⟨-, hspared⟩ hreaches text htext number left right hbinds hyear
    by_contra hne
    have hmem := hbinds.mem_mismatchesOf htext hne
    have hrefused : RefusedOver req target number := by
      refine ⟨?_, hmem⟩
      rw [checkBrief_of_reaches htarget hreaches, if_pos (List.ne_nil_of_mem hmem)]
    exact (hspared number hrefused text htext left right hbinds).1 hyear
  · intro hyears
    refine ⟨haccepted, fun number hrefused text htext left right hbinds => ?_⟩
    refine ⟨fun hyear => ?_, hbinds.not_inSha⟩
    obtain ⟨u, phrase, c, -, hbinding, -⟩ := hbinds.binding
    have hreaches := reaches_of_refusedOver htarget hrefused
    exact ne_of_mem_mismatchesOf hbinding.digits hrefused.2
      (hyears hreaches text htext number left right hbinds hyear)

end Guards

section Example

local instance wordActions : WordUnicode := WordUnicode.ascii

/-- A request whose action is about the target. -/
def plainRequest : SubmitTaskRequest :=
  { title := "gh pr comment 274", laneKey := "repo!274" }

/-- A request that mentions a date behind an action. -/
def datedRequest : SubmitTaskRequest :=
  { title := "274: comment on 2026-09-11", laneKey := "repo!274" }

theorem plain_request_agrees :
    laneTarget plainRequest.laneKey = some "274" ∧ Reaches plainRequest "274" ∧
      mismatchesOf plainRequest "274" = [] ∧
      ∀ number left right, Binds plainRequest.title number left right → number = "274" := by
  have htarget : laneTarget plainRequest.laneKey = some "274" := by decide +kernel
  have hreaches : Reaches plainRequest "274" := ⟨by decide +kernel, by decide +kernel⟩
  have hnone : mismatchesOf plainRequest "274" = [] := by decide +kernel
  refine ⟨htarget, hreaches, hnone, fun number left right hbinds => ?_⟩
  have haccepted : Tasks.checkBrief plainRequest = pure () := by
    rw [checkBrief_of_reaches htarget hreaches, hnone]
    rfl
  refine ((bound_numbers_agree_iff htarget).mpr ?_).1 haccepted plainRequest.title
    (by decide +kernel) number left right hbinds
  rintro - text htext number' left' right' ⟨hsplit, -⟩ ⟨-, m₁, m₂, d₁, d₂, rest, rfl, -⟩
  have hmem : '-' ∈ text.toList := by
    rw [hsplit]
    exact List.mem_append_right _ (List.mem_append_right _ List.mem_cons_self)
  obtain rfl : text = "gh pr comment 274" := by
    obtain htext | htext := List.mem_cons.mp htext
    · exact htext
    · exact List.mem_singleton.mp htext
  exact absurd hmem (by decide)

/-- The year of a date is taken for a foreign number. -/
theorem year_is_refused :
    laneTarget datedRequest.laneKey = some "274" ∧ RefusedOver datedRequest "274" "2026" ∧
      ∃ left right, Binds datedRequest.title "2026" left right ∧ IsYear "2026" right := by
  have htarget : laneTarget datedRequest.laneKey = some "274" := by decide +kernel
  have hreaches : Reaches datedRequest "274" := ⟨by decide +kernel, by decide +kernel⟩
  have hmem : "2026" ∈ mismatchesOf datedRequest "274" := by decide +kernel
  refine ⟨htarget, ⟨?_, hmem⟩, "274: comment on ".toList, "-09-11".toList, ⟨rfl, ?_⟩, ?_⟩
  · rw [checkBrief_of_reaches htarget hreaches, if_pos (List.ne_nil_of_mem hmem)]
  · have hmatch : (actionRefRe.matchK ⟨"274: ".toList.reverse, "comment on 2026-09-11".toList, []⟩
        some).map (fun c => (c.captures, c.after)) = some (["2026"], "-09-11".toList) := by
      decide +kernel
    obtain ⟨c, hc, hcaptured⟩ := Option.map_eq_some_iff.mp hmatch
    obtain ⟨hcaptures, hafter⟩ := Prod.mk.inj hcaptured
    exact ⟨_, _, c, rfl, reads_of_matchK_some hc, hcaptures, hafter⟩
  · exact ⟨rfl, '0', '9', '1', '1', [], rfl, List.all_eq_true.mp (by decide), lacks_nil _⟩

end Example

end SubmitGuards

end HermesCluster
