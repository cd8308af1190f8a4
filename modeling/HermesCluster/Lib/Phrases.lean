import HermesCluster.Lib.Words
/-!
# Phrases

The words of a text and their spelling, and patterns whose matches may overlap: where all
that begins inside a match comes to the same as the match, `re.findall` misses nothing.
-/

universe u

namespace Regex

/-! ## The words of a text -/

section WordsOf

variable [Unicode] {u v g w : List Char}

/-- The runs of word characters. -/
def wordsOf (cs : List Char) : List (List Char) :=
  (cs.splitOnP (fun x => !Unicode.isWord x)).filter (fun w => decide (w ≠ []))

theorem wordsOf_nil : wordsOf [] = [] := rfl

theorem wordsOf_append_cons {x : Char} (hx : Unicode.isWord x = false) :
    wordsOf (u ++ x :: v) = wordsOf u ++ wordsOf v := by
  unfold wordsOf
  rw [List.splitOnP_append_cons u v (by rw [hx, Bool.not_false]), List.filter_append]

theorem wordsOf_cons {x : Char} (hx : Unicode.isWord x = false) :
    wordsOf (x :: v) = wordsOf v := by
  have hsplit := wordsOf_append_cons (u := []) (v := v) hx
  rwa [List.nil_append, wordsOf_nil, List.nil_append] at hsplit

/-- A run is one word. -/
theorem wordsOf_word (hne : w ≠ []) (hw : ∀ x ∈ w, Unicode.isWord x = true) :
    wordsOf w = [w] := by
  unfold wordsOf
  rw [List.splitOnP_eq_singleton (fun x hx => by rw [hw x hx, Bool.not_true])]
  exact List.filter_cons_of_pos (decide_eq_true hne)

theorem wordsOf_eq_nil (hg : ∀ x ∈ g, Unicode.isWord x = false) : wordsOf g = [] := by
  induction g with
  | nil => rfl
  | cons x g ih =>
      rw [List.forall_mem_cons] at hg
      rw [wordsOf_cons hg.1, ih hg.2]

/-- No word reaches into what begins with another character. -/
theorem wordsOf_append_of_lacks (hv : Lacks Unicode.isWord v) :
    wordsOf (u ++ v) = wordsOf u ++ wordsOf v := by
  cases v with
  | nil => rw [List.append_nil, wordsOf_nil, List.append_nil]
  | cons x v => rw [wordsOf_append_cons hv, wordsOf_cons hv]

/-- No word begins in what ends with another character. -/
theorem wordsOf_append_of_lacks_reverse (hu : Lacks Unicode.isWord u.reverse) :
    wordsOf (u ++ v) = wordsOf u ++ wordsOf v := by
  cases u using List.reverseRecOn with
  | nil => rfl
  | append_singleton u x =>
      rw [List.reverse_append, List.reverse_singleton, List.singleton_append] at hu
      have hlast : wordsOf (u ++ [x]) = wordsOf u := by
        rw [wordsOf_append_cons hu, wordsOf_nil, List.append_nil]
      rw [List.append_assoc, List.singleton_append, wordsOf_append_cons hu, hlast]

end WordsOf

/-! ## Spelling -/

/-- How a word is spelled, whatever the case. -/
def spell (w : List Char) : String :=
  String.ofList (w.map foldChar)

/-- The letters spell the text. -/
def Spelled (text : String) (w : List Char) : Prop :=
  spell w = text ∧ ∀ x ∈ w, isLetterI x = true

theorem Spelled.append {text text' : String} {w w' : List Char} (h : Spelled text w)
    (h' : Spelled text' w') : Spelled (text ++ text') (w ++ w') := by
  constructor
  · rw [← h.1, ← h'.1]
    unfold spell
    rw [List.map_append, String.ofList_append]
  · rw [List.forall_mem_append]
    exact ⟨h.2, h'.2⟩

theorem Spelled.ne_nil {text : String} {w : List Char} (h : Spelled text w) (htext : text ≠ "") :
    w ≠ [] := by
  rintro rfl
  exact htext h.1.symm

section Letters

variable [WordUnicode] {text : String} {w : List Char}

theorem Spelled.isWord (h : Spelled text w) : ∀ x ∈ w, Unicode.isWord x = true :=
  fun x hx => isWord_of_isLetterI (h.2 x hx)

theorem Spelled.not_isDecimal (h : Spelled text w) : ∀ x ∈ w, Unicode.isDecimal x = false :=
  fun x hx => not_isDecimal_of_isLetterI (h.2 x hx)

/-- Letters that spell a text are one word. -/
theorem Spelled.wordsOf_eq (h : Spelled text w) (htext : text ≠ "") : wordsOf w = [w] :=
  wordsOf_word (h.ne_nil htext) h.isWord

end Letters

/-- A lower-case letter. -/
def isLower (c : Char) : Bool :=
  'a' ≤ c && c ≤ 'z'

theorem isLower_lt {a : Char} (ha : isLower a = true) : a.toNat < 128 := by
  have hle : a.toNat ≤ 'z'.toNat := of_decide_eq_true ((Bool.and_eq_true _ _).mp ha).2
  exact hle.trans_lt (by decide)

theorem asciiLowerChar_of_isLower {a : Char} (ha : isLower a = true) :
    Unicode.asciiLowerChar a = a := by
  have hall : (!isLower a || Unicode.asciiLowerChar a = a) = true :=
    char_of_lt (q := fun a => !isLower a || Unicode.asciiLowerChar a = a) (by decide +kernel)
      (isLower_lt ha)
  rwa [ha, Bool.not_true, Bool.false_or, decide_eq_true_eq] at hall

/-- The case does not matter to a hexadecimal digit. -/
theorem isHex_foldChar {c : Char} (h : isHexI c = true) : isHex (foldChar c) = true := by
  have hother : ∀ x : Char, isHexI x = false → c ≠ x := by
    rintro x hx rfl
    rw [hx] at h
    cases h
  unfold foldChar
  rw [if_neg (not_or_intro (hother _ (by decide)) (hother _ (by decide))),
    if_neg (hother _ (by decide)), if_neg (hother _ (by decide))]
  exact h

/-- What a text reads under `re.IGNORECASE` spells it. -/
theorem spelled_of_reads_litI {text : String} {c c' : Cursor}
    (htext : text.toList.all isLower = true) (h : Reads (litI text) c c') :
    ∃ w, c.Passes w c' ∧ Spelled text w := by
  obtain ⟨w, hpass, hfold⟩ := reads_litI_iff.mp h
  rw [List.all_eq_true] at htext
  have hlower : w.map foldChar = text.toList := by
    rw [map_foldChar (fun a ha => isLower_lt (htext a ha)) hfold]
    calc text.toList.map Unicode.asciiLowerChar
        = text.toList.map id :=
          List.map_congr_left (fun a ha => asciiLowerChar_of_isLower (htext a ha))
      _ = text.toList := List.map_id _
  refine ⟨w, hpass, ?_, fun x hx => ?_⟩
  · unfold spell
    rw [hlower, String.ofList_toList]
  · have hmem : foldChar x ∈ text.toList := hlower ▸ List.mem_map_of_mem hx
    have hbounds := htext _ hmem
    simp only [isLower, Bool.and_eq_true, decide_eq_true_eq] at hbounds
    exact isLetterI_of_foldChar hbounds

/-- One of several texts is spelled. -/
theorem spelled_of_reads_choice {texts : List String} {c c' : Cursor}
    (htexts : texts.all (fun text => text.toList.all isLower) = true)
    (h : Reads (alts (texts.map litI)) c c') :
    ∃ text ∈ texts, ∃ w, c.Passes w c' ∧ Spelled text w := by
  obtain ⟨r, hr, hread⟩ := reads_alts_iff.mp h
  obtain ⟨text, htext, rfl⟩ := List.mem_map.mp hr
  exact ⟨text, htext, spelled_of_reads_litI (List.all_eq_true.mp htexts text htext) hread⟩

theorem reads_opt {r : Regex} {c c' : Cursor} (h : Reads (opt r) c c') :
    c' = c ∨ Reads r c c' := by
  generalize hrep : opt r = s at h
  cases h with
  | stop => exact .inl rfl
  | more _ _ hr hrest =>
      cases hrep
      cases hrest with
      | stop => exact .inr hr
      | more hmax => exact absurd rfl hmax
  | _ => cases hrep

/-! ## Overlapping matches -/

section Overlap

variable {β : Type u} {r : Regex} {f : Cursor → β} {d : Cursor}

/-- A match reads something, and what begins inside it comes to the same. -/
structure Coherent (r : Regex) (f : Cursor → β) : Prop where
  shorter : ∀ {c d : Cursor}, Reads r c d → d.after.length < c.after.length
  same : ∀ {c d c' d' : Cursor} {x : List Char}, Reads r c d → Reads r c' d' →
    c.groups = [] → c'.groups = [] → c.after = x ++ c'.after →
    c'.before = x.reverse ++ c.before → d.after.length < c'.after.length → f d = f d'

theorem Misses.append_prefix {before u v w rest : List Char} (hmiss : Misses r before w rest)
    (h : w ++ rest = u ++ v) (hread : Reads r ⟨u.reverse ++ before, v, []⟩ d) :
    ∃ x, u = w ++ x ∧ rest = x ++ v := by
  obtain ⟨x, rfl, hrest⟩ | ⟨z, rfl, rfl⟩ := List.append_eq_append_iff.mp h
  · exact ⟨x, rfl, hrest⟩
  · by_cases hz : z = []
    · subst hz
      exact ⟨[], by rw [List.append_nil, List.append_nil], rfl⟩
    · have hnone := hmiss u z rfl hz
      have hsome := isSome_matchK_of_reads hread (k := some) rfl
      rw [hnone] at hsome
      cases hsome

/-- `re.findall` finds what every reading comes to. -/
theorem Coherent.exists_mem_findallFrom (hr : Coherent r f) {fuel : Nat} {before u v : List Char}
    (hread : Reads r ⟨u.reverse ++ before, v, []⟩ d) (hfuel : (u ++ v).length < fuel) :
    ∃ m ∈ findallFrom r fuel before (u ++ v), f m.2 = f d := by
  induction fuel generalizing before u with
  | zero => exact absurd hfuel (Nat.not_lt_zero _)
  | succ fuel ih =>
      rw [findallFrom_succ]
      cases hsearch : searchFrom r before (u ++ v) with
      | none =>
          have hmatch := isSome_matchK_of_reads hread (k := some) rfl
          obtain ⟨e, he⟩ := Option.isSome_iff_exists.mp hmatch
          have hsome := searchFrom_isSome_of_match he
          rw [hsearch] at hsome
          cases hsome
      | some m =>
          obtain ⟨start, finish⟩ := m
          obtain ⟨w, hafter, hstart, hmatch, hmiss⟩ := searchFrom_eq_some hsearch
          obtain ⟨x, rfl, hrest⟩ := hmiss.append_prefix hafter.symm hread
          have hfound := reads_of_matchK_some hmatch
          have hbefore : start.before = w.reverse ++ before := congrArg Cursor.before hstart
          dsimp only
          rw [if_pos (hr.shorter hfound)]
          by_cases hinside : finish.after.length < v.length
          · have hgroups : start.groups = [] := congrArg Cursor.groups hstart
            refine ⟨(start, finish), List.mem_cons_self,
              hr.same hfound hread hgroups rfl hrest ?_ hinside⟩
            dsimp only
            rw [hbefore, List.reverse_append, List.append_assoc]
          · obtain ⟨y, hy, hfinish⟩ := hfound.split
            have hpart : ∃ z, x = y ++ z ∧ finish.after = z ++ v := by
              obtain hpart | ⟨z, hz, hv⟩ := List.append_eq_append_iff.mp (hy.symm.trans hrest)
              · exact hpart
              · rw [hv, List.length_append, not_lt] at hinside
                obtain rfl := List.length_eq_zero_iff.mp (by omega : z.length = 0)
                exact ⟨[], by rw [hz, List.append_nil, List.append_nil], hv.symm⟩
            obtain ⟨z, rfl, hz⟩ := hpart
            have hshorter := hr.shorter hfound
            have hlength : start.after.length ≤ (w ++ (y ++ z) ++ v).length := by
              rw [hafter, List.length_append]
              exact Nat.le_add_left _ _
            have hlater : Reads r ⟨z.reverse ++ finish.before, v, []⟩ d := by
              rw [hfinish, hbefore]
              rw [List.reverse_append, List.reverse_append] at hread
              simp only [List.append_assoc] at hread ⊢
              exact hread
            rw [hz] at hshorter ⊢
            obtain ⟨m, hm, hvalue⟩ := ih hlater (by omega)
            exact ⟨m, List.mem_cons_of_mem _ hm, hvalue⟩

/-- What a reading captures is in the list. -/
theorem Coherent.mem_findall (hr : Coherent r (fun c => c.captures.head?)) {text m : String}
    {u v : List Char} (htext : text.toList = u ++ v) (hread : Reads r ⟨u.reverse, v, []⟩ d)
    (hm : d.captures.head? = some m) : m ∈ r.findall text := by
  have hstart : Reads r ⟨u.reverse ++ [], v, []⟩ d := by rwa [List.append_nil]
  obtain ⟨found, hfound, hsame⟩ :=
    hr.exists_mem_findallFrom hstart (Nat.lt_succ_self (u ++ v).length)
  unfold findall
  rw [htext, List.mem_filterMap]
  exact ⟨found, hfound, hsame.trans hm⟩

end Overlap

end Regex
