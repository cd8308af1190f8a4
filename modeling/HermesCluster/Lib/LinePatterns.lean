import HermesCluster.Lib.Matching
/-!
# Patterns that begin a line

Under `re.MULTILINE` a pattern that begins with `^` is tried at the beginnings of
lines. Where its match depends on nothing but the text that follows, `re.search`
and `re.findall` are a search through the lines. First, what a match comes to when
every way of reading that succeeds comes to the same.
-/

universe u

namespace Regex

variable {β : Type u} {r : Regex} {c c' d : Cursor} {k : Cursor → Option Cursor} {p : Char → Bool}

/-! ## One result -/

/-- What counts of a match, where every way to read comes to it or to nothing. -/
theorem map_matchK_eq {f : Cursor → β} {v : Option β}
    (hall : ∀ c', Reads r c c' → (k c').map f = none ∨ (k c').map f = v)
    (hsome : v.isSome → ∃ c', Reads r c c' ∧ (k c').map f = v) :
    (r.matchK c k).map f = v := by
  cases hmatch : r.matchK c k with
  | none =>
      cases v with
      | none => rfl
      | some b =>
          obtain ⟨c', hread, hk⟩ := hsome rfl
          have hreached : (k c').isSome := by
            rw [← Option.isSome_map (f := f), hk]
            rfl
          have hmatched := isSome_matchK_of_reads hread hreached
          rw [hmatch] at hmatched
          cases hmatched
  | some d =>
      obtain ⟨c', hread, hk⟩ := reads_of_matchK hmatch
      rcases hall c' hread with hnone | hv
      · rw [hk] at hnone
        cases hnone
      · rw [← hv, hk]

theorem matchK_seqs_append (rs ss : List Regex) :
    (seqs (rs ++ ss)).matchK c k = (seqs rs).matchK c (fun c' => (seqs ss).matchK c' k) := by
  induction rs generalizing c with
  | nil => rfl
  | cons r rs ih =>
      change r.matchK c (fun c' => (seqs (rs ++ ss)).matchK c' k) = r.matchK c (fun c' =>
        (seqs rs).matchK c' (fun c'' => (seqs ss).matchK c'' k))
      simp only [ih]

/-- A cursor can be moved over the text that follows it. -/
theorem Cursor.exists_passes {w t : List Char} (h : c.after = w ++ t) :
    ∃ c', c.Passes w c' ∧ c'.after = t :=
  ⟨⟨w.reverse ++ c.before, t, c.groups⟩, ⟨h, rfl, rfl⟩, rfl⟩

theorem Cursor.passes_append_iff {u w : List Char} :
    c.Passes (u ++ w) d ↔ ∃ c', c.Passes u c' ∧ c'.Passes w d := by
  constructor
  · intro h
    have hafter := h.after
    rw [List.append_assoc] at hafter
    obtain ⟨c', hpass, hrest⟩ := Cursor.exists_passes hafter
    refine ⟨c', hpass, hrest, ?_, h.groups.trans hpass.groups.symm⟩
    rw [h.before, hpass.before, List.reverse_append, List.append_assoc]
  · rintro ⟨c', hpass, hpass'⟩
    exact hpass.trans hpass'

/-! ## Reading characters -/

theorem reads_look_iff {q : List Char → List Char → Bool} :
    Reads (look q) c c' ↔ q c.before c.after = true ∧ c' = c := by
  constructor
  · rintro ⟨⟩
    rename_i hq
    exact ⟨hq, rfl⟩
  · rintro ⟨hq, rfl⟩
    exact .look hq

theorem reads_chr_iff : Reads (chr p) c c' ↔ ∃ x, c.Passes [x] c' ∧ p x = true := by
  constructor
  · rintro ⟨⟩
    rename_i x xs before groups hp
    exact ⟨x, ⟨rfl, rfl, rfl⟩, hp⟩
  · rintro ⟨x, hpass, hp⟩
    obtain ⟨before, after, groups⟩ := c
    obtain ⟨hafter, hbefore, hgroups⟩ := hpass
    obtain ⟨before', after', groups'⟩ := c'
    dsimp only at hafter hbefore hgroups
    subst hafter hbefore hgroups
    exact .chr hp

/-- A repeated class reads a run of it, within its bounds. -/
theorem reads_rep_chr_iff {min : Nat} {max : Option Nat} {greedy : Bool} :
    Reads (rep (chr p) min max greedy) c c' ↔
      ∃ w, c.Passes w c' ∧ (∀ x ∈ w, p x = true) ∧ min ≤ w.length ∧ ∀ m ∈ max, w.length ≤ m := by
  constructor
  · intro h
    generalize hrep : rep (chr p) min max greedy = s at h
    induction h generalizing min max with
    | stop =>
        cases hrep
        exact ⟨[], Cursor.Passes.refl _, by simp, le_rfl, fun m _ => Nat.zero_le m⟩
    | more hmax _ hr _ _ ih =>
        cases hrep
        obtain ⟨x, hpass, hx⟩ := reads_chr_iff.mp hr
        obtain ⟨w, hpass', hw, hmin, hbound⟩ := ih rfl
        refine ⟨x :: w, hpass.trans hpass', List.forall_mem_cons.mpr ⟨hx, hw⟩, ?_, ?_⟩
        · rw [List.length_cons]
          omega
        · rintro m hm
          cases hm
          have hle := hbound (m - 1) rfl
          have hpos : m ≠ 0 := fun hzero => hmax (congrArg some hzero)
          rw [List.length_cons]
          omega
    | _ => cases hrep
  · rintro ⟨w, hpass, hw, hmin, hbound⟩
    induction w generalizing c min max with
    | nil =>
        obtain rfl : c' = c := hpass.unique (Cursor.Passes.refl c)
        obtain rfl : min = 0 := Nat.le_zero.mp hmin
        exact .stop
    | cons x w ih =>
        rw [List.forall_mem_cons] at hw
        obtain ⟨before, after, groups⟩ := c
        obtain ⟨hafter, hbefore, hgroups⟩ := hpass
        cases hafter
        refine .more ?_ (.inr (Nat.lt_succ_self _)) (.chr hw.1) (ih ?_ hw.2 ?_ ?_)
        · rintro rfl
          exact absurd (hbound 0 rfl) (Nat.not_succ_le_zero _)
        · exact ⟨rfl, by simpa using hbefore, hgroups⟩
        · rw [List.length_cons] at hmin
          omega
        · intro m hm
          obtain ⟨m', hm', rfl⟩ := Option.map_eq_some_iff.mp hm
          have hle := hbound m' hm'
          rw [List.length_cons] at hle
          omega

theorem reads_star_chr_iff :
    Reads (star (chr p)) c c' ↔ ∃ w, c.Passes w c' ∧ ∀ x ∈ w, p x = true := by
  unfold star
  rw [reads_rep_chr_iff]
  constructor
  · rintro ⟨w, hpass, hw, -⟩
    exact ⟨w, hpass, hw⟩
  · rintro ⟨w, hpass, hw⟩
    exact ⟨w, hpass, hw, Nat.zero_le _, fun m hm => nomatch hm⟩

theorem reads_plus_chr_iff :
    Reads (plus (chr p)) c c' ↔ ∃ x w, c.Passes (x :: w) c' ∧ p x = true ∧ ∀ y ∈ w, p y = true := by
  unfold plus
  rw [reads_rep_chr_iff]
  constructor
  · rintro ⟨w, hpass, hw, hmin, -⟩
    cases w with
    | nil => exact absurd hmin (Nat.not_succ_le_zero 0)
    | cons x w => exact ⟨x, w, hpass, List.forall_mem_cons.mp hw⟩
  · rintro ⟨x, w, hpass, hw⟩
    exact ⟨x :: w, hpass, List.forall_mem_cons.mpr hw, Nat.succ_le_succ (Nat.zero_le _),
      fun m hm => nomatch hm⟩

theorem reads_opt_chr_iff :
    Reads (opt (chr p)) c c' ↔ c' = c ∨ ∃ x, c.Passes [x] c' ∧ p x = true := by
  unfold opt
  rw [reads_rep_chr_iff]
  constructor
  · rintro ⟨w, hpass, hw, -, hbound⟩
    match w with
    | [] => exact .inl (hpass.unique (Cursor.Passes.refl c))
    | [x] => exact .inr ⟨x, hpass, hw x List.mem_cons_self⟩
    | _ :: _ :: _ => exact absurd (hbound 1 rfl) (by simp)
  · rintro (rfl | ⟨x, hpass, hx⟩)
    · exact ⟨[], Cursor.Passes.refl _, by simp, Nat.zero_le _, by simp⟩
    · exact ⟨[x], hpass, by simpa using hx, Nat.zero_le _, by simp⟩

theorem reads_lit_iff {text : String} : Reads (lit text) c c' ↔ c.Passes text.toList c' := by
  unfold lit
  generalize text.toList = letters
  induction letters generalizing c with
  | nil =>
      rw [List.map_nil, reads_seqs_nil]
      exact ⟨fun h => h ▸ Cursor.Passes.refl _, fun h => h.unique (Cursor.Passes.refl c)⟩
  | cons a letters ih =>
      rw [List.map_cons, reads_seqs_cons]
      constructor
      · rintro ⟨c₁, hr, hrest⟩
        obtain ⟨x, hpass, hx⟩ := reads_chr_iff.mp hr
        rw [decide_eq_true_eq] at hx
        subst hx
        exact hpass.trans (ih.mp hrest)
      · rintro ⟨hafter, hbefore, hgroups⟩
        obtain ⟨before, after, groups⟩ := c
        cases hafter
        refine ⟨⟨a :: before, letters ++ c'.after, groups⟩, .chr (by simp), ih.mpr ?_⟩
        exact ⟨rfl, by simpa using hbefore, hgroups⟩

/-! ## Greedy and lazy repetitions -/

theorem loop_chr_of_run {fuel min : Nat} {w : List Char} (hpass : c.Passes w c')
    (hw : ∀ x ∈ w, p x = true) (hend : ∀ x ∈ c'.after.head?, p x = false) (hmin : min ≤ w.length)
    (hk : (k c').isSome) (hfuel : w.length < fuel) :
    loop (chr p).matchK true k fuel min none c = k c' := by
  induction w generalizing c min fuel with
  | nil =>
      obtain rfl : c' = c := hpass.unique (Cursor.Passes.refl c)
      obtain rfl : min = 0 := Nat.le_zero.mp hmin
      obtain ⟨fuel, rfl⟩ : ∃ n, fuel = n + 1 := ⟨fuel - 1, by simp at hfuel; omega⟩
      have hmore : ∀ k', (chr p).matchK c' k' = none := by
        intro k'
        cases hafter : c'.after with
        | nil => simp only [matchK_chr, hafter]
        | cons x xs =>
            have hx : p x = false := hend x (by rw [hafter]; rfl)
            simp only [matchK_chr, hafter, hx, Bool.false_eq_true, if_false]
      simp only [loop_succ, if_true, reduceCtorEq, if_false, hmore, Option.none_or]
  | cons x w ih =>
      rw [List.forall_mem_cons] at hw
      obtain ⟨fuel, rfl⟩ : ∃ n, fuel = n + 1 := ⟨fuel - 1, by omega⟩
      obtain ⟨before, after, groups⟩ := c
      obtain ⟨hafter, hbefore, hgroups⟩ := hpass
      cases hafter
      have hrest : loop (chr p).matchK true k fuel (min - 1) none
          ⟨x :: before, w ++ c'.after, groups⟩ = k c' := by
        refine ih ⟨rfl, by simpa using hbefore, hgroups⟩ hw.2 ?_ ?_
        · rw [List.length_cons] at hmin
          omega
        · rw [List.length_cons] at hfuel
          omega
      have hbody : (chr p).matchK ⟨before, x :: w ++ c'.after, groups⟩ (fun d =>
          if 0 < min ∨ d.after.length < (x :: w ++ c'.after).length then
            loop (chr p).matchK true k fuel (min - 1) none d
          else none) = k c' := by
        simp only [matchK_chr, List.cons_append, hw.1, if_true]
        rw [if_pos (.inr (Nat.lt_succ_self _))]
        exact hrest
      rw [loop_succ]
      simp only [reduceCtorEq, if_false, if_true, Option.map_none]
      change Option.or ((chr p).matchK ⟨before, x :: w ++ c'.after, groups⟩ (fun d =>
          if 0 < min ∨ d.after.length < (x :: w ++ c'.after).length then
            loop (chr p).matchK true k fuel (min - 1) none d
          else none)) _ = _
      rw [hbody, Option.or_of_isSome hk]

/-- A greedy class reads its whole run, if the rest can go on from there. -/
theorem matchK_rep_chr_of_run {min : Nat} {w : List Char} (hpass : c.Passes w c')
    (hw : ∀ x ∈ w, p x = true) (hend : ∀ x ∈ c'.after.head?, p x = false) (hmin : min ≤ w.length)
    (hk : (k c').isSome) : (rep (chr p) min none true).matchK c k = k c' := by
  refine loop_chr_of_run hpass hw hend hmin hk ?_
  rw [hpass.after, List.length_append]
  omega

/-- A lazy repetition tries the rest before a further iteration. -/
theorem loop_lazy_succ {fuel : Nat} :
    loop r.matchK false k (fuel + 1) 0 none c = (k c).or (r.matchK c (fun c' =>
      if c'.after.length < c.after.length then loop r.matchK false k fuel 0 none c'
      else none)) := by
  simp only [loop_succ, reduceCtorEq, if_false, if_true, Bool.false_eq_true, lt_irrefl, false_or,
    Nat.zero_sub, Option.map_none]

/-- A greedy repetition tries a further iteration before the rest. -/
theorem loop_greedy_succ {fuel : Nat} :
    loop r.matchK true k (fuel + 1) 0 none c = (r.matchK c (fun c' =>
      if c'.after.length < c.after.length then loop r.matchK true k fuel 0 none c'
      else none)).or (k c) := by
  simp only [loop_succ, reduceCtorEq, if_false, if_true, lt_irrefl, false_or, Nat.zero_sub,
    Option.map_none]

/-- A greedy repetition with nothing after it ends somewhere. -/
theorem isSome_loop_greedy {fuel : Nat} : (loop r.matchK true some fuel 0 none c).isSome := by
  cases fuel with
  | zero => rfl
  | succ fuel => rw [loop_greedy_succ, Option.isSome_or, Option.isSome_some, Bool.or_true]

/-! ## Beginnings of lines -/

/-- What follows each newline. -/
def breaks : List Char → List (List Char)
  | [] => []
  | c :: cs => if c = '\n' then cs :: breaks cs else breaks cs

/-- The text from each beginning of a line on. -/
def lineStarts (text : List Char) : List (List Char) :=
  text :: breaks text

/-- Whether a line begins after this text, which is reversed. -/
def atLine (before : List Char) : Bool :=
  before.head?.all (fun c => c = '\n')

theorem breaks_cons (c : Char) (cs : List Char) :
    breaks (c :: cs) = if c = '\n' then cs :: breaks cs else breaks cs := rfl

theorem breaks_append (s t : List Char) :
    breaks (s ++ t) = (breaks s).map (· ++ t) ++ breaks t := by
  induction s with
  | nil => rfl
  | cons x s ih =>
      rw [List.cons_append, breaks_cons, breaks_cons, ih]
      split
      · rw [List.map_cons, List.cons_append]
      · rfl

theorem breaks_eq_nil {w : List Char} (hw : '\n' ∉ w) : breaks w = [] := by
  induction w with
  | nil => rfl
  | cons x w ih =>
      rw [List.mem_cons, not_or] at hw
      rw [breaks_cons, if_neg (fun h => hw.1 h.symm), ih hw.2]

theorem breaks_append_of_not_mem {w t : List Char} (hw : '\n' ∉ w) :
    breaks (w ++ t) = breaks t := by
  rw [breaks_append, breaks_eq_nil hw, List.map_nil, List.nil_append]

theorem lineStarts_append (s t : List Char) :
    lineStarts (s ++ t) = (lineStarts s).map (· ++ t) ++ breaks t := by
  change (s ++ t) :: breaks (s ++ t) = (s :: breaks s).map (· ++ t) ++ breaks t
  rw [breaks_append, List.map_cons, List.cons_append]

theorem mem_breaks_iff {s t : List Char} : t ∈ breaks s ↔ ∃ w, s = w ++ '\n' :: t := by
  induction s with
  | nil => simp [breaks]
  | cons x s ih =>
      have hsplit : (∃ w, x :: s = w ++ '\n' :: t) ↔
          x = '\n' ∧ s = t ∨ ∃ w, s = w ++ '\n' :: t := by
        constructor
        · rintro ⟨_ | ⟨y, w⟩, hw⟩
          · exact .inl (List.cons.inj hw)
          · exact .inr ⟨w, (List.cons.inj hw).2⟩
        · rintro (⟨rfl, rfl⟩ | ⟨w, rfl⟩)
          · exact ⟨[], rfl⟩
          · exact ⟨x :: w, rfl⟩
      rw [hsplit, ← ih, breaks_cons]
      split
      · rename_i hx
        rw [List.mem_cons]
        exact or_congr_left (by rw [eq_comm]; exact (and_iff_right hx).symm)
      · rename_i hx
        exact (or_iff_right (fun h => hx h.1)).symm

/-- The lines that begin at or after a position. -/
def linesFrom (before after : List Char) : List (List Char) :=
  if atLine before then lineStarts after else breaks after

theorem linesFrom_nil (before : List Char) :
    linesFrom before [] = if atLine before then [[]] else [] := rfl

theorem linesFrom_of_off {before : List Char} (hoff : atLine before = false) (after : List Char) :
    linesFrom before after = breaks after := by
  change (if atLine before = true then lineStarts after else breaks after) = breaks after
  rw [hoff]
  rfl

theorem linesFrom_cons {before : List Char} {x : Char} {xs : List Char} :
    linesFrom before (x :: xs) =
      if atLine before then (x :: xs) :: linesFrom (x :: before) xs
      else linesFrom (x :: before) xs := by
  have hrest : breaks (x :: xs) = linesFrom (x :: before) xs := by
    change _ = if decide (x = '\n') = true then xs :: breaks xs else breaks xs
    rw [breaks_cons]
    by_cases hx : x = '\n'
    · rw [if_pos hx, if_pos (decide_eq_true hx)]
    · rw [if_neg hx, if_neg (by rwa [decide_eq_true_eq])]
  change (if atLine before = true then (x :: xs) :: breaks (x :: xs) else breaks (x :: xs)) = _
  rw [hrest]

section Search

variable {f : Cursor × Cursor → β} {g : List Char → Option β} {before after : List Char}

/-- At the beginning of a line the match is told by the text that follows, and
elsewhere there is none. -/
def LineValued (r : Regex) (f : Cursor × Cursor → β) (g : List Char → Option β) : Prop :=
  ∀ before after, (r.matchK ⟨before, after, []⟩ some).map (fun d => f (⟨before, after, []⟩, d)) =
    if atLine before then g after else none

theorem searchFrom_lines (hr : LineValued r f g) (before after : List Char) :
    (searchFrom r before after).map f = (linesFrom before after).findSome? g := by
  induction after generalizing before with
  | nil =>
      have hhere := hr before []
      have hlines : (linesFrom before []).findSome? g = if atLine before then g [] else none := by
        rw [linesFrom_nil]
        split
        · rw [List.findSome?_singleton]
        · rfl
      rw [hlines, ← hhere, searchFrom_nil]
      cases r.matchK ⟨before, [], []⟩ some <;> rfl
  | cons x xs ih =>
      have hhere := hr before (x :: xs)
      rw [linesFrom_cons, searchFrom_cons]
      cases hmatch : r.matchK ⟨before, x :: xs, []⟩ some with
      | none =>
          rw [hmatch, Option.map_none] at hhere
          dsimp only
          rw [ih]
          by_cases hat : atLine before = true
          · rw [if_pos hat] at hhere ⊢
            rw [List.findSome?_cons, ← hhere]
          · rw [if_neg hat]
      | some d =>
          rw [hmatch, Option.map_some] at hhere
          dsimp only
          by_cases hat : atLine before = true
          · rw [if_pos hat] at hhere ⊢
            rw [List.findSome?_cons, ← hhere, Option.map_some]
          · rw [if_neg hat] at hhere
            cases hhere

/-- `re.search` of such a pattern. -/
theorem search_lines {f : Cursor → β} (hr : LineValued r (fun m => f m.2) g) (text : String) :
    (r.search text).map f = (lineStarts text.toList).findSome? g := by
  have hsearch := searchFrom_lines hr [] text.toList
  unfold search
  rw [Option.map_map]
  exact hsearch

/-- A match reads something and stays on its line. -/
def OneLine (r : Regex) : Prop :=
  ∀ c d, r.matchK c some = some d →
    ∃ w, c.after = w ++ d.after ∧ d.before = w.reverse ++ c.before ∧ w ≠ [] ∧ '\n' ∉ w

/-- `re.findall` of such a pattern takes every line that has a match. -/
theorem findallFrom_lines (hr : LineValued r f g) (hline : OneLine r) (before : List Char)
    {fuel : Nat} (hfuel : after.length < fuel) :
    (findallFrom r fuel before after).map f = (linesFrom before after).filterMap g := by
  induction hn : after.length using Nat.strong_induction_on generalizing before after fuel with
  | h n ih =>
      obtain ⟨fuel, rfl⟩ : ∃ m, fuel = m + 1 := ⟨fuel - 1, by omega⟩
      have hhere := hr before after
      cases hmatch : r.matchK ⟨before, after, []⟩ some with
      | some d =>
          obtain ⟨w, hafter, hbefore, hne, hw⟩ := hline _ _ hmatch
          dsimp only at hafter hbefore
          have hlength : after.length = w.length + d.after.length := by
            rw [hafter, List.length_append]
          have hpos : 0 < w.length := List.length_pos_iff.mpr hne
          have hrest := ih d.after.length (by omega) d.before
            (show d.after.length < fuel by omega) rfl
          have hsame : linesFrom d.before d.after = breaks after := by
            have hoff : atLine d.before = false := by
              obtain ⟨x, hx⟩ : ∃ x, w.reverse.head? = some x :=
                Option.isSome_iff_exists.mp (by simpa using hne)
              have hmem : x ∈ w := by
                rw [← List.mem_reverse]
                exact List.mem_of_mem_head? hx
              change d.before.head?.all (fun c => c = '\n') = false
              rw [hbefore, List.head?_append, hx, Option.some_or, Option.all_some]
              exact decide_eq_false (fun hnl => hw (hnl ▸ hmem))
            rw [linesFrom_of_off hoff, hafter, breaks_append_of_not_mem hw]
          have hsearch : searchFrom r before after = some (⟨before, after, []⟩, d) :=
            searchFrom_of_match hmatch
          rw [hmatch, Option.map_some] at hhere
          by_cases hat : atLine before = true
          · rw [if_pos hat] at hhere
            change _ = (if atLine before = true then after :: breaks after
              else breaks after).filterMap g
            rw [findallFrom_succ, hsearch, if_pos hat, List.filterMap_cons, ← hhere]
            dsimp only
            rw [if_pos (by omega), List.map_cons, hrest, hsame]
          · rw [if_neg hat] at hhere
            cases hhere
      | none =>
          rw [hmatch, Option.map_none] at hhere
          cases after with
          | nil =>
              have hsearch : searchFrom r before [] = none := by
                rw [searchFrom_nil, hmatch]
              have hlines : (linesFrom before []).filterMap g = [] := by
                rw [linesFrom_nil]
                by_cases hat : atLine before = true
                · rw [if_pos hat] at hhere ⊢
                  rw [List.filterMap_cons, ← hhere]
                  rfl
                · rw [if_neg hat]
                  rfl
              rw [findallFrom_succ, hsearch, hlines]
              rfl
          | cons x xs =>
              have hsearch : searchFrom r before (x :: xs) = searchFrom r (x :: before) xs := by
                rw [searchFrom_cons, hmatch]
              have hshift : findallFrom r (fuel + 1) before (x :: xs) =
                  findallFrom r (fuel + 1) (x :: before) xs := by
                rw [findallFrom_succ, findallFrom_succ, hsearch]
              rw [List.length_cons] at hn hfuel
              rw [hshift, linesFrom_cons,
                ih xs.length (by omega) (x :: before) (by omega) rfl]
              by_cases hat : atLine before = true
              · rw [if_pos hat] at hhere ⊢
                rw [List.filterMap_cons, ← hhere]
              · rw [if_neg hat]

end Search

end Regex
