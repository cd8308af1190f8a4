import HermesCluster.Lib.Regex
/-!
# What a pattern matches

`Regex.matchK` follows one order of backtracking. `Reads` says to which cursors a
pattern can lead at all: a match exists if and only if one can be reached, and it
is one of those. From it, where `re.findall` finds its last match.
-/

namespace Regex

/-- The pattern can read from one cursor to another. -/
inductive Reads : Regex → Cursor → Cursor → Prop
  | eps {c} : Reads eps c c
  | chr {p x xs before groups} (hp : p x = true) :
      Reads (chr p) ⟨before, x :: xs, groups⟩ ⟨x :: before, xs, groups⟩
  | look {p c} (hp : p c.before c.after = true) : Reads (look p) c c
  | seq {r s c c' c''} (hr : Reads r c c') (hs : Reads s c' c'') : Reads (seq r s) c c''
  | left {r s c c'} (hr : Reads r c c') : Reads (alt r s) c c'
  | right {r s c c'} (hs : Reads s c c') : Reads (alt r s) c c'
  | stop {r max greedy c} : Reads (rep r 0 max greedy) c c
  | more {r min max greedy c c' c''} (hmax : max ≠ some 0)
      (hprogress : 0 < min ∨ c'.after.length < c.after.length) (hr : Reads r c c')
      (hrest : Reads (rep r (min - 1) (max.map (· - 1)) greedy) c' c'') :
      Reads (rep r min max greedy) c c''
  | group {r c c'} (hr : Reads r c c') :
      Reads (group r) c { c' with groups := c.between c' :: c'.groups }

variable {r s : Regex} {c c' c'' d : Cursor} {k k' : Cursor → Option Cursor}

/-! ## Matching is reading -/

/-- What a repetition returns, its body being understood. -/
theorem reads_of_loop {greedy : Bool}
    (hr : ∀ c k d, r.matchK c k = some d → ∃ c', Reads r c c' ∧ k c' = some d)
    {fuel min : Nat} {max : Option Nat} (h : loop r.matchK greedy k fuel min max c = some d) :
    ∃ c', Reads (rep r min max greedy) c c' ∧ k c' = some d := by
  induction fuel generalizing min max c with
  | zero =>
      rw [loop_zero] at h
      split at h
      · rename_i hmin
        subst hmin
        exact ⟨c, .stop, h⟩
      · cases h
  | succ fuel ih =>
      have hstop : (if min = 0 then k c else none) = some d →
          ∃ c', Reads (rep r min max greedy) c c' ∧ k c' = some d := by
        intro hk
        split at hk
        · rename_i hmin
          subst hmin
          exact ⟨c, .stop, hk⟩
        · cases hk
      rw [loop_succ] at h
      split at h
      · exact hstop h
      · rename_i hmax
        have hmore : r.matchK c (fun c' =>
            if 0 < min ∨ c'.after.length < c.after.length then
              loop r.matchK greedy k fuel (min - 1) (max.map (· - 1)) c'
            else none) = some d → ∃ c', Reads (rep r min max greedy) c c' ∧ k c' = some d := by
          intro hbody
          obtain ⟨c', hread, hrest⟩ := hr _ _ _ hbody
          split at hrest
          · rename_i hprogress
            obtain ⟨c'', hrest', hk⟩ := ih hrest
            exact ⟨c'', .more hmax hprogress hread hrest', hk⟩
          · cases hrest
        split at h
        · rcases Option.or_eq_some_iff.mp h with hbody | ⟨-, hk⟩
          · exact hmore hbody
          · exact hstop hk
        · rcases Option.or_eq_some_iff.mp h with hk | ⟨-, hbody⟩
          · exact hstop hk
          · exact hmore hbody

/-- A match is one of the ways to read. -/
theorem reads_of_matchK (h : r.matchK c k = some d) : ∃ c', Reads r c c' ∧ k c' = some d := by
  induction r generalizing c k d with
  | eps => exact ⟨c, .eps, h⟩
  | chr p =>
      rw [matchK_chr] at h
      split at h
      · cases h
      · rename_i x xs hafter
        split at h
        · rename_i hp
          obtain ⟨before, after, groups⟩ := c
          cases hafter
          exact ⟨_, .chr hp, h⟩
        · cases h
  | look p =>
      rw [matchK_look] at h
      split at h
      · rename_i hp
        exact ⟨c, .look hp, h⟩
      · cases h
  | seq r s ihr ihs =>
      obtain ⟨c', hr, hs⟩ := ihr h
      obtain ⟨c'', hs', hk⟩ := ihs hs
      exact ⟨c'', .seq hr hs', hk⟩
  | alt r s ihr ihs =>
      rcases Option.or_eq_some_iff.mp h with hr | ⟨-, hs⟩
      · obtain ⟨c', hread, hk⟩ := ihr hr
        exact ⟨c', .left hread, hk⟩
      · obtain ⟨c', hread, hk⟩ := ihs hs
        exact ⟨c', .right hread, hk⟩
  | rep r min max greedy ih => exact reads_of_loop (fun _ _ _ hr => ih hr) h
  | group r ih =>
      obtain ⟨c', hread, hk⟩ := ih h
      exact ⟨_, .group hread, hk⟩

/-- A repetition succeeds with more fuel and where the rest succeeds more often. -/
theorem loop_mono {greedy : Bool} {body : Cursor → (Cursor → Option Cursor) → Option Cursor}
    (hbody : ∀ c k k', (∀ c', (k c').isSome → (k' c').isSome) → (body c k).isSome →
      (body c k').isSome)
    (hk : ∀ c', (k c').isSome → (k' c').isSome) {fuel fuel' min : Nat} {max : Option Nat}
    (hfuel : fuel ≤ fuel') (h : (loop body greedy k fuel min max c).isSome) :
    (loop body greedy k' fuel' min max c).isSome := by
  induction fuel generalizing fuel' min max c with
  | zero =>
      have hstop : min = 0 ∧ (k c).isSome := by
        rw [loop_zero] at h
        split at h
        · rename_i hmin
          exact ⟨hmin, h⟩
        · cases h
      have hdone := hk c hstop.2
      cases fuel' with
      | zero =>
          rw [loop_zero]
          rwa [if_pos hstop.1]
      | succ fuel' =>
          rw [loop_succ]
          simp only [if_pos hstop.1]
          split
          · exact hdone
          · split
            · rw [Option.isSome_or, hdone, Bool.or_true]
            · rw [Option.isSome_or, hdone, Bool.true_or]
  | succ fuel ih =>
      cases fuel' with
      | zero => omega
      | succ fuel' =>
          have hstop : (if min = 0 then k c else none).isSome →
              (if min = 0 then k' c else none).isSome := by
            intro hsome
            split at hsome
            · rename_i hmin
              rw [if_pos hmin]
              exact hk c hsome
            · cases hsome
          have hmore := hbody c
            (fun c' => if 0 < min ∨ c'.after.length < c.after.length then
              loop body greedy k fuel (min - 1) (max.map (· - 1)) c' else none)
            (fun c' => if 0 < min ∨ c'.after.length < c.after.length then
              loop body greedy k' fuel' (min - 1) (max.map (· - 1)) c' else none)
            (fun c' hsome => by
              split at hsome
              · rename_i hprogress
                rw [if_pos hprogress]
                exact ih (Nat.le_of_succ_le_succ hfuel) hsome
              · cases hsome)
          rw [loop_succ] at h ⊢
          split at h
          · rename_i hmax
            rw [if_pos hmax]
            exact hstop h
          · rename_i hmax
            rw [if_neg hmax]
            split at h
            · rename_i hgreedy
              rw [if_pos hgreedy]
              rw [Option.isSome_or, Bool.or_eq_true] at h ⊢
              exact h.imp hmore hstop
            · rename_i hgreedy
              rw [if_neg hgreedy]
              rw [Option.isSome_or, Bool.or_eq_true] at h ⊢
              exact h.imp hstop hmore

theorem matchK_mono (hk : ∀ c', (k c').isSome → (k' c').isSome) (h : (r.matchK c k).isSome) :
    (r.matchK c k').isSome := by
  induction r generalizing c k k' with
  | eps => exact hk c h
  | chr p =>
      rw [matchK_chr] at h ⊢
      split at h
      · cases h
      · split at h
        · rename_i hp
          simp only [if_pos hp]
          exact hk _ h
        · cases h
  | look p =>
      rw [matchK_look] at h ⊢
      split at h
      · rename_i hp
        rw [if_pos hp]
        exact hk c h
      · cases h
  | seq r s ihr ihs => exact ihr (fun _ => ihs hk) h
  | alt r s ihr ihs =>
      rw [matchK_alt] at h ⊢
      rw [Option.isSome_or, Bool.or_eq_true] at h ⊢
      exact h.imp (ihr hk) (ihs hk)
  | rep r min max greedy ih =>
      have hbody : ∀ c k k', (∀ c', (k c').isSome → (k' c').isSome) →
          (r.matchK c k).isSome → (r.matchK c k').isSome := fun _ _ _ => ih
      exact loop_mono hbody hk le_rfl h
  | group r ih => exact ih (fun _ => hk _) h

/-- The text read lies between the cursors. -/
theorem Reads.split (h : Reads r c c') :
    ∃ w, c.after = w ++ c'.after ∧ c'.before = w.reverse ++ c.before := by
  induction h with
  | eps | look _ | stop => exact ⟨[], rfl, rfl⟩
  | chr _ => exact ⟨[_], rfl, rfl⟩
  | seq _ _ ihr ihs =>
      obtain ⟨w, hafter, hbefore⟩ := ihr
      obtain ⟨w', hafter', hbefore'⟩ := ihs
      refine ⟨w ++ w', ?_, ?_⟩
      · rw [hafter, hafter', List.append_assoc]
      · rw [hbefore', hbefore, List.reverse_append, List.append_assoc]
  | left _ ih | right _ ih => exact ih
  | more _ _ _ _ ihr ihrest =>
      obtain ⟨w, hafter, hbefore⟩ := ihr
      obtain ⟨w', hafter', hbefore'⟩ := ihrest
      refine ⟨w ++ w', ?_, ?_⟩
      · rw [hafter, hafter', List.append_assoc]
      · rw [hbefore', hbefore, List.reverse_append, List.append_assoc]
  | group _ ih => exact ih

theorem Reads.length_le (h : Reads r c c') : c'.after.length ≤ c.after.length := by
  obtain ⟨w, hafter, -⟩ := h.split
  rw [hafter, List.length_append]
  exact Nat.le_add_left _ _

/-- Where reading can succeed, the match does. -/
theorem isSome_matchK_of_reads (h : Reads r c c') (hk : (k c').isSome) :
    (r.matchK c k).isSome := by
  induction h generalizing k with
  | eps => exact hk
  | chr hp =>
      simp only [matchK_chr, if_pos hp]
      exact hk
  | look hp =>
      rw [matchK_look]
      rwa [if_pos hp]
  | seq _ _ ihr ihs => exact ihr (ihs hk)
  | left _ ih =>
      rw [matchK_alt, Option.isSome_or, ih hk, Bool.true_or]
  | right _ ih =>
      rw [matchK_alt, Option.isSome_or, ih hk, Bool.or_true]
  | stop =>
      rw [matchK_rep, loop_succ]
      simp only [if_pos]
      split
      · exact hk
      · split
        · rw [Option.isSome_or, hk, Bool.or_true]
        · rw [Option.isSome_or, hk, Bool.true_or]
  | @more r min max greedy c c' c'' hmax hprogress hr _ ihr ihrest =>
      have hshorter := hr.length_le
      have hfuel : c'.after.length + (min - 1) + 1 ≤ c.after.length + min := by omega
      have hrest := ihrest hk
      rw [matchK_rep] at hrest
      have hbody : (r.matchK c (fun c' =>
          if 0 < min ∨ c'.after.length < c.after.length then
            loop r.matchK greedy k (c.after.length + min) (min - 1) (max.map (· - 1)) c'
          else none)).isSome := by
        refine ihr ?_
        rw [if_pos hprogress]
        have hmono : ∀ c k k', (∀ c', (k c').isSome → (k' c').isSome) →
            (r.matchK c k).isSome → (r.matchK c k').isSome := fun _ _ _ => matchK_mono
        exact loop_mono hmono (fun _ => id) hfuel hrest
      rw [matchK_rep, loop_succ]
      simp only [if_neg hmax]
      split
      · rw [Option.isSome_or, hbody, Bool.true_or]
      · rw [Option.isSome_or, hbody, Bool.or_true]
  | group _ ih => exact ih hk

theorem matchK_some_eq_none_iff : r.matchK c some = none ↔ ∀ c', ¬Reads r c c' := by
  constructor
  · intro hnone c' hread
    have hsome := isSome_matchK_of_reads hread (k := some) rfl
    rw [hnone] at hsome
    cases hsome
  · intro hno
    cases hmatch : r.matchK c some with
    | none => rfl
    | some d =>
        obtain ⟨c', hread, -⟩ := reads_of_matchK hmatch
        exact absurd hread (hno c')

theorem reads_of_matchK_some (h : r.matchK c some = some d) : Reads r c d := by
  obtain ⟨c', hread, hk⟩ := reads_of_matchK h
  cases hk
  exact hread

/-! ## Reading composed patterns -/

theorem reads_seq_iff : Reads (seq r s) c c'' ↔ ∃ c', Reads r c c' ∧ Reads s c' c'' := by
  constructor
  · rintro (_ | _ | _ | ⟨hr, hs⟩)
    exact ⟨_, hr, hs⟩
  · rintro ⟨c', hr, hs⟩
    exact .seq hr hs

theorem reads_seqs_cons {rs : List Regex} :
    Reads (seqs (r :: rs)) c c'' ↔ ∃ c', Reads r c c' ∧ Reads (seqs rs) c' c'' :=
  reads_seq_iff

theorem reads_seqs_nil : Reads (seqs []) c c' ↔ c' = c := by
  constructor
  · rintro ⟨⟩
    rfl
  · rintro rfl
    exact .eps

theorem reads_group_iff :
    Reads (group r) c d ↔
      ∃ c', Reads r c c' ∧ d = { c' with groups := c.between c' :: c'.groups } := by
  constructor
  · rintro ⟨⟩
    rename_i c' hr
    exact ⟨c', hr, rfl⟩
  · rintro ⟨c', hr, rfl⟩
    exact .group hr

/-- Some alternative reads. -/
theorem reads_alts_iff {rs : List Regex} : Reads (alts rs) c c' ↔ ∃ r ∈ rs, Reads r c c' := by
  induction rs with
  | nil =>
      constructor
      · rintro ⟨⟩
        rename_i hp
        cases hp
      · rintro ⟨r, hmem, -⟩
        cases hmem
  | cons r rs ih =>
      cases rs with
      | nil =>
          rw [List.exists_mem_cons_iff]
          constructor
          · exact fun h => .inl h
          · rintro (h | ⟨s, hmem, -⟩)
            · exact h
            · cases hmem
      | cons s rs =>
          rw [List.exists_mem_cons_iff, ← ih]
          constructor
          · rintro ⟨⟩
            · rename_i hr
              exact .inl hr
            · rename_i hs
              exact .inr hs
          · rintro (hr | hs)
            · exact .left hr
            · exact .right hs

/-- The cursor after `w` was read, with no group closed. -/
structure Cursor.Passes (c : Cursor) (w : List Char) (c' : Cursor) : Prop where
  after : c.after = w ++ c'.after
  before : c'.before = w.reverse ++ c.before
  groups : c'.groups = c.groups

namespace Cursor

theorem Passes.refl (c : Cursor) : c.Passes [] c := ⟨rfl, rfl, rfl⟩

theorem Passes.trans {w w' : List Char} (h : c.Passes w c') (h' : c'.Passes w' c'') :
    c.Passes (w ++ w') c'' where
  after := by rw [h.after, h'.after, List.append_assoc]
  before := by rw [h'.before, h.before, List.reverse_append, List.append_assoc]
  groups := h'.groups.trans h.groups

theorem Passes.between {w : List Char} (h : c.Passes w c') : c.between c' = String.ofList w := by
  have hlength : c.after.length - c'.after.length = w.reverse.length := by
    rw [h.after, List.length_append, List.length_reverse, Nat.add_sub_cancel]
  unfold Cursor.between
  rw [hlength, h.before, List.take_left, List.reverse_reverse]

/-- What a cursor is after some text. -/
theorem Passes.unique {w : List Char} (h : c.Passes w c') (h' : c.Passes w c'') : c' = c'' := by
  have hafter := List.append_cancel_left (h.after.symm.trans h'.after)
  have hbefore := h.before.trans h'.before.symm
  have hgroups := h.groups.trans h'.groups.symm
  cases c'
  cases c''
  simp_all

end Cursor

/-- A pattern that closes no group and reads only characters of one kind. -/
def Within (p : Char → Prop) (r : Regex) : Prop :=
  ∀ c c', Reads r c c' → ∃ w, c.Passes w c' ∧ ∀ x ∈ w, p x

section Within

variable {p : Char → Prop}

theorem within_chr {q : Char → Bool} (h : ∀ x, q x = true → p x) : Within p (chr q) := by
  rintro c c' ⟨⟩
  rename_i x xs before groups hq
  refine ⟨[x], ⟨rfl, rfl, rfl⟩, ?_⟩
  rw [List.forall_mem_singleton]
  exact h x hq

theorem within_rep (h : Within p r) (min : Nat) (max : Option Nat) (greedy : Bool) :
    Within p (rep r min max greedy) := by
  intro c c' hread
  generalize hrep : rep r min max greedy = s at hread
  induction hread generalizing min max with
  | stop => exact ⟨[], Cursor.Passes.refl _, by simp⟩
  | more _ _ hr _ _ ih =>
      cases hrep
      obtain ⟨w, hpass, hw⟩ := h _ _ hr
      obtain ⟨w', hpass', hw'⟩ := ih _ _ rfl
      refine ⟨w ++ w', hpass.trans hpass', ?_⟩
      rw [List.forall_mem_append]
      exact ⟨hw, hw'⟩
  | _ => cases hrep

theorem within_seqs {rs : List Regex} (h : ∀ r ∈ rs, Within p r) : Within p (seqs rs) := by
  induction rs with
  | nil =>
      intro c c' hread
      rw [reads_seqs_nil] at hread
      subst hread
      exact ⟨[], Cursor.Passes.refl _, by simp⟩
  | cons r rs ih =>
      rw [List.forall_mem_cons] at h
      intro c c'' hread
      obtain ⟨c', hr, hrs⟩ := reads_seqs_cons.mp hread
      obtain ⟨w, hpass, hw⟩ := h.1 _ _ hr
      obtain ⟨w', hpass', hw'⟩ := ih h.2 _ _ hrs
      refine ⟨w ++ w', hpass.trans hpass', ?_⟩
      rw [List.forall_mem_append]
      exact ⟨hw, hw'⟩

end Within

/-- A text under `re.IGNORECASE` reads what folds to it. -/
theorem reads_litI_iff {text : String} :
    Reads (litI text) c c' ↔
      ∃ w, c.Passes w c' ∧ List.Forall₂ (fun a x => foldEq a x = true) text.toList w := by
  unfold litI
  generalize text.toList = letters
  induction letters generalizing c with
  | nil =>
      rw [List.map_nil, reads_seqs_nil]
      constructor
      · rintro rfl
        exact ⟨[], Cursor.Passes.refl _, .nil⟩
      · rintro ⟨w, hpass, hw⟩
        cases hw
        exact hpass.unique (Cursor.Passes.refl c)
  | cons a letters ih =>
      rw [List.map_cons, reads_seqs_cons]
      constructor
      · rintro ⟨c₁, ⟨⟩, hrest⟩
        rename_i x xs before groups hx
        obtain ⟨w, hpass, hw⟩ := ih.mp hrest
        exact ⟨x :: w, ⟨congrArg (x :: ·) hpass.after, by simpa using hpass.before,
          hpass.groups⟩, .cons hx hw⟩
      · rintro ⟨w, hpass, hw⟩
        cases hw with
        | @cons _ x _ w hx hw =>
            obtain ⟨before, after, groups⟩ := c
            obtain ⟨hafter, hbefore, hgroups⟩ := hpass
            cases hafter
            refine ⟨⟨x :: before, w ++ c'.after, groups⟩, .chr hx, ih.mpr ⟨w, ?_, hw⟩⟩
            exact ⟨rfl, by simpa using hbefore, hgroups⟩

/-! ## ASCII characters -/

theorem isHexI_lt {c : Char} (h : isHexI c = true) : c.toNat < 128 := by
  by_contra hge
  have hlower : Unicode.asciiLowerChar c = c := by
    unfold Unicode.asciiLowerChar
    refine if_neg (fun hc => hge ?_)
    exact lt_of_le_of_lt (UInt32.le_iff_toNat_le.mp (Char.le_def.mp hc.2)) (by decide)
  unfold isHexI isHex at h
  rw [hlower] at h
  simp only [Bool.or_eq_true, Bool.and_eq_true, decide_eq_true_eq, Char.le_def,
    UInt32.le_iff_toNat_le] at h
  have hbound : c.toNat ≤ 'f'.toNat := by
    rcases h with ⟨-, h⟩ | ⟨-, h⟩
    · exact h.trans (by decide)
    · exact h
  exact hge (lt_of_le_of_lt hbound (by decide))

/-- What holds of the characters below 128, one by one. -/
theorem char_of_lt {q : Char → Bool} {c : Char} (h : ∀ n < 128, q (Char.ofNat n) = true)
    (hc : c.toNat < 128) : q c = true := by
  have hq := h c.toNat hc
  rwa [Char.ofNat_toNat] at hq

theorem asciiIsSpace_le {c : Char} (h : Unicode.asciiIsSpace c = true) : c.toNat ≤ 32 := by
  simp only [Unicode.asciiIsSpace, Bool.or_eq_true, Bool.and_eq_true, decide_eq_true_eq,
    Char.le_def, UInt32.le_iff_toNat_le] at h
  rcases h with (rfl | ⟨-, h⟩) | ⟨-, h⟩
  · decide
  · exact h.trans (by decide)
  · exact h.trans (by decide)

/-- What folds to a letter, in lower case. -/
def foldChar (c : Char) : Char :=
  if c = '\u0130' ∨ c = '\u0131' then 'i'
  else if c = '\u017f' then 's'
  else if c = '\u212a' then 'k'
  else Unicode.asciiLowerChar c

theorem foldChar_of_foldEq {a c : Char} (ha : a.toNat < 128) (h : foldEq a c = true) :
    foldChar c = Unicode.asciiLowerChar a := by
  have hplain : ∀ n, n < 128 → foldChar (Char.ofNat n) = Unicode.asciiLowerChar (Char.ofNat n) ∧
      (Unicode.asciiLowerChar (Char.ofNat n)).toNat < 128 := by decide
  obtain ⟨-, hlow⟩ := hplain a.toNat ha
  rw [Char.ofNat_toNat] at hlow
  simp only [foldEq, Bool.or_eq_true, Bool.and_eq_true, decide_eq_true_eq] at h
  rcases h with ((hlower | ⟨ha', rfl | rfl⟩) | ⟨ha', rfl⟩) | ⟨ha', rfl⟩
  · unfold foldChar
    split_ifs with hi hs hk
    · rcases hi with rfl | rfl
      · rw [← hlower] at hlow
        exact absurd hlow (by decide)
      · rw [← hlower] at hlow
        exact absurd hlow (by decide)
    · subst hs
      rw [← hlower] at hlow
      exact absurd hlow (by decide)
    · subst hk
      rw [← hlower] at hlow
      exact absurd hlow (by decide)
    · exact hlower
  all_goals
    rw [ha']
    decide

theorem map_foldChar {letters w : List Char} (hascii : ∀ a ∈ letters, a.toNat < 128)
    (h : List.Forall₂ (fun a x => foldEq a x = true) letters w) :
    w.map foldChar = letters.map Unicode.asciiLowerChar := by
  induction h with
  | nil => rfl
  | cons hx _ ih =>
      rw [List.forall_mem_cons] at hascii
      rw [List.map_cons, List.map_cons, foldChar_of_foldEq hascii.1 hx, ih hascii.2]

theorem isLetterI_of_foldChar {x : Char} (h : 'a' ≤ foldChar x ∧ foldChar x ≤ 'z') :
    isLetterI x = true := by
  unfold foldChar at h
  unfold isLetterI
  split_ifs at h with hi hs hk
  · rcases hi with rfl | rfl <;> decide
  · subst hs
    decide
  · subst hk
    decide
  · simp only [h.1, h.2, decide_true, Bool.and_self, Bool.true_or]

/-! ## Searching -/

section Search

variable {before after w rest : List Char} {start finish : Cursor}

/-- The pattern matches nowhere in `w`, which `rest` follows. -/
def Misses (r : Regex) (before w rest : List Char) : Prop :=
  ∀ u v, w = u ++ v → v ≠ [] → r.matchK ⟨u.reverse ++ before, v ++ rest, []⟩ some = none

theorem misses_nil : Misses r before [] rest := by
  intro u v huv hv
  exact absurd (List.append_eq_nil_iff.mp huv.symm).2 hv

theorem misses_cons_iff {x : Char} :
    Misses r before (x :: w) rest ↔
      r.matchK ⟨before, x :: w ++ rest, []⟩ some = none ∧ Misses r (x :: before) w rest := by
  constructor
  · intro h
    refine ⟨h [] (x :: w) rfl (List.cons_ne_nil x w), fun u v huv hv => ?_⟩
    have htail := h (x :: u) v (congrArg (x :: ·) huv) hv
    rwa [List.reverse_cons, List.append_assoc] at htail
  · rintro ⟨hhead, htail⟩ u v huv hv
    cases u with
    | nil =>
        rw [List.nil_append] at huv
        subst huv
        exact hhead
    | cons y u =>
        rw [List.cons_append, List.cons.injEq] at huv
        obtain ⟨rfl, huv⟩ := huv
        rw [List.reverse_cons, List.append_assoc]
        exact htail u v huv hv

/-- `searchFrom` finds the first position where the pattern matches. -/
theorem searchFrom_eq_some (h : searchFrom r before after = some (start, finish)) :
    ∃ w, after = w ++ start.after ∧ start = ⟨w.reverse ++ before, start.after, []⟩ ∧
      r.matchK start some = some finish ∧ Misses r before w start.after := by
  induction after generalizing before with
  | nil =>
      rw [searchFrom_nil] at h
      split at h
      · rename_i c hmatch
        cases h
        exact ⟨[], rfl, rfl, hmatch, misses_nil⟩
      · cases h
  | cons x xs ih =>
      rw [searchFrom_cons] at h
      split at h
      · rename_i c hmatch
        cases h
        exact ⟨[], rfl, rfl, hmatch, misses_nil⟩
      · rename_i hhere
        obtain ⟨w, hafter, hstart, hmatch, hmiss⟩ := ih h
        refine ⟨x :: w, congrArg (x :: ·) hafter, ?_, hmatch, misses_cons_iff.mpr ⟨?_, hmiss⟩⟩
        · rwa [List.reverse_cons, List.append_assoc]
        · rw [List.cons_append, ← hafter]
          exact hhere

theorem searchFrom_eq_none (h : searchFrom r before after = none) :
    Misses r before after [] ∧ r.matchK ⟨after.reverse ++ before, [], []⟩ some = none := by
  induction after generalizing before with
  | nil =>
      rw [searchFrom_nil] at h
      split at h
      · cases h
      · rename_i hhere
        exact ⟨misses_nil, hhere⟩
  | cons x xs ih =>
      rw [searchFrom_cons] at h
      split at h
      · cases h
      · rename_i hhere
        obtain ⟨hmiss, hend⟩ := ih h
        refine ⟨misses_cons_iff.mpr ⟨?_, hmiss⟩, ?_⟩
        · rwa [List.append_nil]
        · rwa [List.reverse_cons, List.append_assoc]

/-- Something is found where the pattern matches. -/
theorem searchFrom_isSome_of_match {d : Cursor}
    (h : r.matchK ⟨w.reverse ++ before, rest, []⟩ some = some d) :
    (searchFrom r before (w ++ rest)).isSome := by
  induction w generalizing before with
  | nil =>
      rw [List.reverse_nil, List.nil_append] at h
      rw [List.nil_append, searchFrom_of_match h]
      rfl
  | cons x w ih =>
      rw [List.reverse_cons, List.append_assoc] at h
      rw [List.cons_append, searchFrom_cons]
      split
      · rfl
      · exact ih h

/-- `re.match` succeeds where the pattern can read from the start. -/
theorem matchStart_isSome_iff {text : String} :
    (r.matchStart text).isSome ↔ ∃ c', Reads r ⟨[], text.toList, []⟩ c' := by
  unfold matchStart
  constructor
  · intro h
    obtain ⟨d, hd⟩ := Option.isSome_iff_exists.mp h
    exact ⟨d, reads_of_matchK_some hd⟩
  · rintro ⟨c', hread⟩
    exact isSome_matchK_of_reads hread rfl

/-- `re.search` succeeds where the pattern can read from somewhere. -/
theorem found_iff {text : String} :
    r.found text = true ↔
      ∃ u v c', text.toList = u ++ v ∧ Reads r ⟨u.reverse, v, []⟩ c' := by
  unfold found search
  rw [Option.isSome_map]
  constructor
  · intro h
    obtain ⟨⟨start, finish⟩, hsearch⟩ := Option.isSome_iff_exists.mp h
    obtain ⟨w, hafter, hstart, hmatch, -⟩ := searchFrom_eq_some hsearch
    rw [List.append_nil] at hstart
    rw [hstart] at hmatch
    exact ⟨w, start.after, finish, hafter, reads_of_matchK_some hmatch⟩
  · rintro ⟨u, v, c', htext, hread⟩
    have hsome := isSome_matchK_of_reads hread (k := some) rfl
    obtain ⟨d, hd⟩ := Option.isSome_iff_exists.mp hsome
    rw [htext]
    refine searchFrom_isSome_of_match (d := d) ?_
    rw [List.append_nil]
    exact hd

/-- The last position where the pattern matches, and where that match ends. -/
def lastFrom (r : Regex) : List Char → List Char → Option (Cursor × Cursor)
  | before, after =>
      let here := (r.matchK ⟨before, after, []⟩ some).map (fun c => (⟨before, after, []⟩, c))
      match after with
      | [] => here
      | x :: xs => (lastFrom r (x :: before) xs).or here
  termination_by structural _ after => after

theorem lastFrom_nil :
    lastFrom r before [] =
      (r.matchK ⟨before, [], []⟩ some).map (fun c => (⟨before, [], []⟩, c)) := by
  rw [lastFrom]

theorem lastFrom_cons {x : Char} {xs : List Char} :
    lastFrom r before (x :: xs) = (lastFrom r (x :: before) xs).or
      ((r.matchK ⟨before, x :: xs, []⟩ some).map (fun c => (⟨before, x :: xs, []⟩, c))) := by
  rw [lastFrom]

/-- What is missed does not count. -/
theorem lastFrom_of_misses (h : Misses r before w rest) :
    lastFrom r before (w ++ rest) = lastFrom r (w.reverse ++ before) rest := by
  induction w generalizing before with
  | nil => rfl
  | cons x w ih =>
      obtain ⟨hhere, hmiss⟩ := misses_cons_iff.mp h
      rw [List.cons_append, lastFrom_cons, ih hmiss, ← List.cons_append, hhere, Option.map_none,
        Option.or_none, List.reverse_cons, List.append_assoc]
      rfl

/-- A later match counts, whatever comes before it. -/
theorem lastFrom_append_of_some {m : Cursor × Cursor}
    (h : lastFrom r (w.reverse ++ before) rest = some m) :
    lastFrom r before (w ++ rest) = some m := by
  induction w generalizing before with
  | nil => exact h
  | cons x w ih =>
      rw [List.reverse_cons, List.append_assoc] at h
      have hlater : lastFrom r (x :: before) (w ++ rest) = some m := ih h
      rw [List.cons_append, lastFrom_cons, hlater, Option.some_or]

theorem lastFrom_eq_none (h : Misses r before after [])
    (hend : r.matchK ⟨after.reverse ++ before, [], []⟩ some = none) :
    lastFrom r before after = none := by
  rw [← List.append_nil after, lastFrom_of_misses h, lastFrom_nil, hend]
  rfl

/-- Where the last match is: nothing matches after its start. -/
theorem lastFrom_eq_some (h : lastFrom r before after = some (start, finish)) :
    ∃ w, after = w ++ start.after ∧ start = ⟨w.reverse ++ before, start.after, []⟩ ∧
      r.matchK start some = some finish ∧
      ∀ x xs, start.after = x :: xs → lastFrom r (x :: start.before) xs = none := by
  induction after generalizing before with
  | nil =>
      rw [lastFrom_nil, Option.map_eq_some_iff] at h
      obtain ⟨c, hmatch, hpair⟩ := h
      cases hpair
      exact ⟨[], rfl, rfl, hmatch, fun _ _ hcons => nomatch hcons⟩
  | cons x xs ih =>
      rw [lastFrom_cons] at h
      rcases Option.or_eq_some_iff.mp h with hlater | ⟨hnone, hhere⟩
      · obtain ⟨w, hafter, hstart, hmatch, hlast⟩ := ih hlater
        refine ⟨x :: w, congrArg (x :: ·) hafter, ?_, hmatch, hlast⟩
        rwa [List.reverse_cons, List.append_assoc]
      · rw [Option.map_eq_some_iff] at hhere
        obtain ⟨c, hmatch, hpair⟩ := hhere
        cases hpair
        refine ⟨[], rfl, rfl, hmatch, fun y ys hcons => ?_⟩
        cases hcons
        exact hnone

theorem misses_of_lastFrom_eq_none (h : lastFrom r before (w ++ rest) = none) :
    Misses r before w rest ∧ lastFrom r (w.reverse ++ before) rest = none := by
  induction w generalizing before with
  | nil => exact ⟨misses_nil, h⟩
  | cons x w ih =>
      rw [List.cons_append, lastFrom_cons, Option.or_eq_none_iff, Option.map_eq_none_iff] at h
      obtain ⟨hmiss, hrest⟩ := ih h.1
      refine ⟨misses_cons_iff.mpr ⟨h.2, hmiss⟩, ?_⟩
      rwa [List.reverse_cons, List.append_assoc]

/-- Two patterns that match alike everywhere. -/
theorem lastFrom_congr
    (h : ∀ u v, after = u ++ v → r.matchK ⟨u.reverse ++ before, v, []⟩ some =
      s.matchK ⟨u.reverse ++ before, v, []⟩ some) :
    lastFrom r before after = lastFrom s before after := by
  induction after generalizing before with
  | nil =>
      have hhere := h [] [] rfl
      rw [List.reverse_nil, List.nil_append] at hhere
      rw [lastFrom_nil, lastFrom_nil, hhere]
  | cons x xs ih =>
      have hhere := h [] (x :: xs) rfl
      rw [List.reverse_nil, List.nil_append] at hhere
      have hlater : lastFrom r (x :: before) xs = lastFrom s (x :: before) xs := by
        refine ih (fun u v huv => ?_)
        have := h (x :: u) v (congrArg (x :: ·) huv)
        rwa [List.reverse_cons, List.append_assoc] at this
      rw [lastFrom_cons, lastFrom_cons, hlater, hhere]

/-- A match reads something, and no other match starts inside it. -/
def Apart (r : Regex) : Prop :=
  ∀ c c', r.matchK c some = some c' → ∃ x w, c.after = x :: w ++ c'.after ∧
    c'.before = w.reverse ++ x :: c.before ∧ Misses r (x :: c.before) w c'.after

/-- The last match that `re.findall` finds is the last one there is. -/
theorem getLast?_findallFrom (hr : Apart r) {fuel : Nat} (hfuel : after.length < fuel) :
    (findallFrom r fuel before after).getLast? = lastFrom r before after := by
  induction fuel generalizing before after with
  | zero => omega
  | succ fuel ih =>
      rw [findallFrom_succ]
      cases hsearch : searchFrom r before after with
      | none =>
          obtain ⟨hmiss, hend⟩ := searchFrom_eq_none hsearch
          exact (lastFrom_eq_none hmiss hend).symm
      | some m =>
          obtain ⟨start, finish⟩ := m
          obtain ⟨w, hafter, hstart, hmatch, hmiss⟩ := searchFrom_eq_some hsearch
          obtain ⟨x, u, hread, hbefore, hapart⟩ := hr start finish hmatch
          have hshorter : finish.after.length < start.after.length := by
            rw [hread, List.cons_append, List.length_cons, List.length_append]
            omega
          have hstart' : start.before = w.reverse ++ before := congrArg Cursor.before hstart
          have hlength : after.length = w.length + start.after.length := by
            rw [hafter, List.length_append]
          have hrest : (findallFrom r fuel finish.before finish.after).getLast? =
              lastFrom r finish.before finish.after := ih (by omega)
          dsimp only
          rw [if_pos hshorter, List.getLast?_cons, hrest]
          have hlast : lastFrom r before after =
              (lastFrom r finish.before finish.after).or (some (start, finish)) := by
            calc lastFrom r before after
                = lastFrom r (w.reverse ++ before) start.after := by
                  rw [hafter]
                  exact lastFrom_of_misses hmiss
              _ = (lastFrom r (x :: start.before) (u ++ finish.after)).or
                    (some (start, finish)) := by
                  rw [hstart] at hmatch
                  rw [← hstart', hread, List.cons_append, lastFrom_cons]
                  rw [hread, List.cons_append, ← hstart'] at hmatch
                  rw [hmatch, Option.map_some]
                  congr 2
                  rw [hstart, ← hstart', hread]
                  rfl
              _ = (lastFrom r finish.before finish.after).or (some (start, finish)) := by
                  rw [lastFrom_of_misses hapart, hbefore]
          rw [hlast]
          cases lastFrom r finish.before finish.after with
          | none => rfl
          | some m => rfl

end Search

/-! ## What is captured -/

/-- Every match closes a group. -/
def Captures (r : Regex) : Prop :=
  ∀ c c', Reads r c c' → c'.groups ≠ []

theorem Reads.groups_suffix (h : Reads r c c') : c.groups <:+ c'.groups := by
  induction h with
  | eps | chr _ | look _ | stop => exact List.suffix_rfl
  | seq _ _ ihr ihs => exact ihr.trans ihs
  | left _ ih | right _ ih => exact ih
  | more _ _ _ _ ihr ihrest => exact ihr.trans ihrest
  | group _ ih => exact ih.trans (List.suffix_cons _ _)

theorem captures_group : Captures (group r) := by
  rintro c c' ⟨⟩
  exact List.cons_ne_nil _ _

/-- A sequence captures if one of its parts does. -/
theorem captures_seqs {rs : List Regex} (hmem : r ∈ rs) (hr : Captures r) :
    Captures (seqs rs) := by
  induction rs with
  | nil => cases hmem
  | cons s rs ih =>
      intro c c'' hread
      obtain ⟨c', hs, hrs⟩ := reads_seqs_cons.mp hread
      rcases List.mem_cons.mp hmem with rfl | hmem
      · intro hnil
        have hsuffix := hrs.groups_suffix
        rw [hnil, List.suffix_nil] at hsuffix
        exact hr c c' hs hsuffix
      · exact ih hmem c' c'' hrs

theorem Captures.head? (hr : Captures r) (h : Reads r c c') :
    ∃ text, c'.captures.head? = some text := by
  unfold Cursor.captures
  rw [List.head?_reverse]
  exact Option.isSome_iff_exists.mp (List.getLast?_isSome.mpr (hr c c' h))

theorem reads_of_mem_findallFrom {fuel : Nat} {before after : List Char} {m : Cursor × Cursor}
    (h : m ∈ findallFrom r fuel before after) : Reads r m.1 m.2 := by
  induction fuel generalizing before after with
  | zero => cases h
  | succ fuel ih =>
      rw [findallFrom_succ] at h
      cases hsearch : searchFrom r before after with
      | none =>
          rw [hsearch] at h
          cases h
      | some found =>
          rw [hsearch] at h
          dsimp only at h
          obtain ⟨w, -, -, hmatch, -⟩ := searchFrom_eq_some hsearch
          rcases List.mem_cons.mp h with rfl | h
          · exact reads_of_matchK_some hmatch
          · split at h
            · exact ih h
            · split at h
              · cases h
              · exact ih h

/-- What `re.findall` returns last is what its last match captures. -/
theorem getLast?_findall (hr : Captures r) (text : String) :
    (r.findall text).getLast? =
      (findallFrom r (text.toList.length + 1) [] text.toList).getLast?.bind
        (fun m => m.2.captures.head?) := by
  unfold findall
  have hsome : ∀ m ∈ findallFrom r (text.toList.length + 1) [] text.toList,
      ∃ captured, m.2.captures.head? = some captured :=
    fun m hm => hr.head? (reads_of_mem_findallFrom hm)
  rw [List.getLast?_filterMap, ← List.head?_reverse]
  cases hms : (findallFrom r (text.toList.length + 1) [] text.toList).reverse with
  | nil => rfl
  | cons m ms =>
      have hm : m ∈ findallFrom r (text.toList.length + 1) [] text.toList := by
        rw [← List.mem_reverse, hms]
        exact List.mem_cons_self
      obtain ⟨captured, hcaptured⟩ := hsome m hm
      rw [List.findSome?_cons, List.head?_cons, Option.bind_some, hcaptured]

/-- `re.findall` finds nothing exactly where `re.search` does not. -/
theorem findall_eq_nil_iff (hr : Captures r) (text : String) :
    r.findall text = [] ↔ r.found text = false := by
  have hfirst : findallFrom r (text.toList.length + 1) [] text.toList = [] ↔
      searchFrom r [] text.toList = none := by
    rw [findallFrom_succ]
    cases searchFrom r [] text.toList with
    | none => exact iff_of_true rfl rfl
    | some m => exact iff_of_false (List.cons_ne_nil _ _) (Option.some_ne_none m)
  have hfound : r.found text = false ↔ searchFrom r [] text.toList = none := by
    unfold found search
    rw [Option.isSome_map, Option.isSome_eq_false_iff, Option.isNone_iff_eq_none]
  rw [hfound, ← hfirst]
  unfold findall
  rw [List.filterMap_eq_nil_iff]
  constructor
  · intro hnone
    refine List.eq_nil_iff_forall_not_mem.mpr (fun m hm => ?_)
    obtain ⟨captured, hcaptured⟩ := hr.head? (reads_of_mem_findallFrom hm)
    rw [hnone m hm] at hcaptured
    cases hcaptured
  · intro hnil m hm
    rw [hnil] at hm
    cases hm

end Regex
