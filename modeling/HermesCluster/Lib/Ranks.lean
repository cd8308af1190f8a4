import Mathlib.Data.List.Nodup
/-!
# Ranks

In a sorted list, an item is among the first `n` if fewer than `n` come before it.
The same for items in groups, where the groups and the items of each group are
sorted and both are cut: an item is left if few enough groups come before its own,
and few enough items before it.
-/

universe u v

namespace Ranks

variable {α : Type u} {κ : Type v}

theorem mem_take_iff {R : α → α → Prop} [DecidableRel R] (hasymm : ∀ a b, R a b → ¬R b a)
    {l : List α} (hl : l.Pairwise R) {a : α} (ha : a ∈ l) (n : Nat) :
    a ∈ l.take n ↔ l.countP (fun b => decide (R b a)) < n := by
  have hself : ¬R a a := fun h => hasymm a a h h
  induction l generalizing n with
  | nil => cases ha
  | cons b l ih =>
      obtain ⟨hb, hl⟩ := List.pairwise_cons.mp hl
      cases n with
      | zero => simp
      | succ n =>
          rw [List.take_succ_cons, List.mem_cons, List.countP_cons]
          rcases List.mem_cons.mp ha with rfl | hmem
          · -- the head: nothing comes before it
            have hnone : l.countP (fun b => decide (R b a)) = 0 :=
              List.countP_eq_zero.mpr (fun b hmem hlt =>
                hasymm a b (hb b hmem) (of_decide_eq_true hlt))
            rw [hnone, if_neg (by simpa using hself)]
            exact iff_of_true (.inl rfl) (Nat.succ_pos n)
          · have hne : a ≠ b := by
              rintro rfl
              exact hself (hb a hmem)
            rw [or_iff_right hne, if_pos (decide_eq_true (hb a hmem))]
            exact (ih hl hmem n).trans Nat.succ_lt_succ_iff.symm

/-- An item that does not come before itself has a rank below the length. -/
theorem countP_lt_length {R : α → α → Prop} [DecidableRel R] (hasymm : ∀ a b, R a b → ¬R b a)
    {l : List α} {a : α} (ha : a ∈ l) : l.countP (fun b => decide (R b a)) < l.length := by
  refine Nat.lt_of_le_of_ne List.countP_le_length (fun hall => ?_)
  have hself : R a a := of_decide_eq_true (List.countP_eq_length.mp hall a ha)
  exact hasymm a a hself hself

/-- One item comes before another: by their groups, or in their group. -/
def Ahead (key : α → κ) (B : κ → κ → Prop) (R : α → α → Prop) (a b : α) : Prop :=
  B (key a) (key b) ∨ key a = key b ∧ R a b

instance (key : α → κ) (B : κ → κ → Prop) (R : α → α → Prop) [DecidableEq κ] [DecidableRel B]
    [DecidableRel R] : DecidableRel (Ahead key B R) :=
  fun _ _ => inferInstanceAs (Decidable (_ ∨ _))

theorem ahead_asymm {key : α → κ} {B : κ → κ → Prop} {R : α → α → Prop}
    (hB : ∀ i j, B i j → ¬B j i) (hR : ∀ a b, R a b → ¬R b a) (a b : α)
    (h : Ahead key B R a b) : ¬Ahead key B R b a := by
  rintro (hback | ⟨hsame, hback⟩)
  · rcases h with hgroup | ⟨hsame, -⟩
    · exact hB _ _ hgroup hback
    · rw [hsame] at hback
      exact hB _ _ hback hback
  · rcases h with hgroup | ⟨-, hmember⟩
    · rw [hsame] at hgroup
      exact hB _ _ hgroup hgroup
    · exact hR _ _ hmember hback

section Groups

variable {key : α → κ} {B : κ → κ → Prop} {R : α → α → Prop} {gs : List (κ × List α)}

theorem pairwise_flatMap (hkey : ∀ g ∈ gs, ∀ a ∈ g.2, key a = g.1)
    (hgs : (gs.map Prod.fst).Pairwise B) (hmembers : ∀ g ∈ gs, g.2.Pairwise R) :
    (gs.flatMap Prod.snd).Pairwise (Ahead key B R) := by
  rw [List.pairwise_flatMap]
  constructor
  · intro g hg
    refine (hmembers g hg).imp_of_mem (fun {a b} ha hb h => .inr ⟨?_, h⟩)
    rw [hkey g hg a ha, hkey g hg b hb]
  · refine (List.pairwise_map.mp hgs).imp_of_mem (fun {g g'} hg hg' h a ha b hb => .inl ?_)
    rwa [hkey g hg a ha, hkey g' hg' b hb]

/-- An item is in the first groups if its key is. -/
theorem mem_flatMap_take_iff (hkey : ∀ g ∈ gs, ∀ a ∈ g.2, key a = g.1)
    (hnodup : (gs.map Prod.fst).Nodup) {a : α} (ha : a ∈ gs.flatMap Prod.snd) (m : Nat) :
    a ∈ (gs.take m).flatMap Prod.snd ↔ key a ∈ (gs.map Prod.fst).take m := by
  rw [← List.map_take]
  constructor
  · intro h
    obtain ⟨g, hg, hmem⟩ := List.mem_flatMap.mp h
    exact List.mem_map.mpr ⟨g, hg, (hkey g (List.mem_of_mem_take hg) a hmem).symm⟩
  · intro h
    obtain ⟨g, hg, hmem⟩ := List.mem_flatMap.mp ha
    obtain ⟨g', hg', hsame⟩ := List.mem_map.mp h
    obtain rfl : g' = g := List.inj_on_of_nodup_map hnodup (List.mem_of_mem_take hg') hg
      (hsame.trans (hkey g hg a hmem))
    exact List.mem_flatMap.mpr ⟨g', hg', hmem⟩

/-- What is left of the items when the groups are cut after the first `m`, and what
these hold after the first `n`. -/
theorem mem_take_flatMap_take_iff [DecidableEq κ] [DecidableRel B] [DecidableRel R]
    (hkey : ∀ g ∈ gs, ∀ a ∈ g.2, key a = g.1) (hB : ∀ i j, B i j → ¬B j i)
    (hR : ∀ a b, R a b → ¬R b a) (hgs : (gs.map Prod.fst).Pairwise B)
    (hmembers : ∀ g ∈ gs, g.2.Pairwise R) {a : α} (ha : a ∈ gs.flatMap Prod.snd) (m n : Nat) :
    a ∈ ((gs.take m).flatMap Prod.snd).take n ↔
      (gs.map Prod.fst).countP (fun k => decide (B k (key a))) < m ∧
        (gs.flatMap Prod.snd).countP (fun b => decide (Ahead key B R b a)) < n := by
  have hasymm : ∀ a b, Ahead key B R a b → ¬Ahead key B R b a := ahead_asymm hB hR
  have hnodup : (gs.map Prod.fst).Nodup := by
    refine hgs.imp (fun {i j} h => ?_)
    rintro rfl
    exact hB i i h h
  have hkeys : key a ∈ gs.map Prod.fst := by
    obtain ⟨g, hg, hmem⟩ := List.mem_flatMap.mp ha
    exact List.mem_map.mpr ⟨g, hg, (hkey g hg a hmem).symm⟩
  rw [← mem_take_iff hB hgs hkeys, ← mem_flatMap_take_iff hkey hnodup ha]
  by_cases hfirst : a ∈ (gs.take m).flatMap Prod.snd
  · have hsplit : gs.flatMap Prod.snd =
        (gs.take m).flatMap Prod.snd ++ (gs.drop m).flatMap Prod.snd := by
      rw [← List.flatMap_append, List.take_append_drop]
    have hall := pairwise_flatMap hkey hgs hmembers
    rw [hsplit, List.pairwise_append] at hall
    -- nothing behind the first groups comes before an item in them
    have hnone : ((gs.drop m).flatMap Prod.snd).countP
        (fun b => decide (Ahead key B R b a)) = 0 :=
      List.countP_eq_zero.mpr (fun b hb hlt =>
        hasymm a b (hall.2.2 a hfirst b hb) (of_decide_eq_true hlt))
    rw [and_iff_right hfirst, mem_take_iff hasymm hall.1 hfirst, hsplit, List.countP_append,
      hnone, Nat.add_zero]
  · exact iff_of_false (fun h => hfirst (List.mem_of_mem_take h)) (fun h => hfirst h.1)

end Groups

end Ranks
