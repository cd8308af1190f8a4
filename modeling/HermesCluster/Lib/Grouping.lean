import Mathlib.Data.List.Perm.Basic
import Mathlib.Data.List.Induction
import Mathlib.Data.List.Nodup
/-!
# Groups in the order of first appearance

A dictionary of lists that is filled with `setdefault(key, []).append(value)`.
-/

universe u v

namespace Grouping

variable {κ : Type u} {α : Type v} [DecidableEq κ]

/-- `groups.setdefault(k, []).append(a)`. -/
def push (k : κ) (a : α) : List (κ × List α) → List (κ × List α)
  | [] => [(k, [a])]
  | (k', as) :: groups =>
      if k' = k then (k', as ++ [a]) :: groups else (k', as) :: push k a groups

/-- The groups of some pairs. -/
def groups (pairs : List (κ × α)) : List (κ × List α) :=
  pairs.foldl (fun gs p => push p.1 p.2 gs) []

/-- The pairs of some groups. -/
def pairs (gs : List (κ × List α)) : List (κ × α) :=
  gs.flatMap (fun g => g.2.map (fun a => (g.1, a)))

theorem pairs_push (k : κ) (a : α) (gs : List (κ × List α)) :
    (pairs (push k a gs)).Perm (pairs gs ++ [(k, a)]) := by
  induction gs with
  | nil => exact List.Perm.refl _
  | cons g gs ih =>
      obtain ⟨k', as⟩ := g
      unfold push
      split
      · rename_i hkey
        subst hkey
        simp only [pairs, List.flatMap_cons, List.map_append, List.map_cons, List.map_nil,
          List.append_assoc]
        exact (List.perm_append_comm).append_left _
      · simp only [pairs, List.flatMap_cons, List.append_assoc]
        exact ih.append_left _

/-- Grouping drops and adds nothing. -/
theorem pairs_groups (ps : List (κ × α)) : (pairs (groups ps)).Perm ps := by
  suffices h : ∀ gs : List (κ × List α),
      (pairs (ps.foldl (fun gs p => push p.1 p.2 gs) gs)).Perm (pairs gs ++ ps) by
    exact h []
  induction ps with
  | nil =>
      intro gs
      rw [List.foldl_nil, List.append_nil]
  | cons p ps ih =>
      intro gs
      rw [List.foldl_cons]
      refine (ih _).trans ?_
      have hone := (pairs_push p.1 p.2 gs).append_right ps
      rwa [List.append_assoc, List.singleton_append] at hone

theorem keys_push (k : κ) (a : α) (gs : List (κ × List α)) :
    (push k a gs).map Prod.fst =
      if k ∈ gs.map Prod.fst then gs.map Prod.fst else gs.map Prod.fst ++ [k] := by
  induction gs with
  | nil => rfl
  | cons g gs ih =>
      obtain ⟨k', as⟩ := g
      unfold push
      split
      · rename_i hkey
        simp [hkey]
      · rename_i hkey
        rw [List.map_cons, ih]
        by_cases hmem : k ∈ gs.map Prod.fst
        · simp [hmem]
        · simp [hmem, Ne.symm hkey]

/-- No two groups have the same key. -/
theorem nodup_keys_groups (ps : List (κ × α)) : ((groups ps).map Prod.fst).Nodup := by
  suffices h : ∀ gs : List (κ × List α), (gs.map Prod.fst).Nodup →
      ((ps.foldl (fun gs p => push p.1 p.2 gs) gs).map Prod.fst).Nodup by
    exact h [] List.nodup_nil
  induction ps with
  | nil => exact fun gs hgs => hgs
  | cons p ps ih =>
      intro gs hgs
      refine ih _ ?_
      rw [keys_push]
      split
      · exact hgs
      · rename_i hnew
        exact List.Nodup.append hgs (List.nodup_singleton _) (by simpa using hnew)

omit [DecidableEq κ] in
theorem mem_pairs {gs : List (κ × List α)} {k : κ} {a : α} :
    (k, a) ∈ pairs gs ↔ ∃ as, (k, as) ∈ gs ∧ a ∈ as := by
  unfold pairs
  rw [List.mem_flatMap]
  constructor
  · rintro ⟨⟨k', as⟩, hg, hp⟩
    obtain ⟨a', ha', heq⟩ := List.mem_map.mp hp
    cases heq
    exact ⟨as, hg, ha'⟩
  · rintro ⟨as, hg, ha⟩
    exact ⟨(k, as), hg, List.mem_map_of_mem ha⟩

/-- The members of a group were paired with its key. -/
theorem mem_of_mem_groups {ps : List (κ × α)} {k : κ} {as : List α} (h : (k, as) ∈ groups ps)
    {a : α} (ha : a ∈ as) : (k, a) ∈ ps :=
  (pairs_groups ps).mem_iff.mp (mem_pairs.mpr ⟨as, h, ha⟩)

/-- No group is empty. -/
theorem ne_nil_of_mem_groups {ps : List (κ × α)} {g : κ × List α} (h : g ∈ groups ps) :
    g.2 ≠ [] := by
  have hpush : ∀ (k : κ) (a : α) (gs : List (κ × List α)), (∀ g ∈ gs, g.2 ≠ []) →
      ∀ g ∈ push k a gs, g.2 ≠ [] := by
    intro k a gs
    induction gs with
    | nil =>
        intro _ g hg
        obtain rfl := List.mem_singleton.mp hg
        exact List.cons_ne_nil a []
    | cons g' gs ih =>
        intro hgs g hg
        unfold push at hg
        split at hg
        · rcases List.mem_cons.mp hg with rfl | hg
          · exact List.append_ne_nil_of_right_ne_nil _ (List.cons_ne_nil a [])
          · exact hgs g (List.mem_cons_of_mem _ hg)
        · rcases List.mem_cons.mp hg with rfl | hg
          · exact hgs _ List.mem_cons_self
          · exact ih (fun g hg => hgs g (List.mem_cons_of_mem _ hg)) g hg
  suffices hfold : ∀ gs : List (κ × List α), (∀ g ∈ gs, g.2 ≠ []) →
      ∀ g ∈ ps.foldl (fun gs p => push p.1 p.2 gs) gs, g.2 ≠ [] by
    exact hfold [] (fun _ hg => by cases hg) g h
  clear h
  induction ps with
  | nil => exact fun _ hgs => hgs
  | cons p ps ih => exact fun gs hgs => ih _ (hpush p.1 p.2 gs hgs)

/-- What a group is after one more pair. -/
theorem mem_push {k : κ} {a : α} {gs : List (κ × List α)} {g : κ × List α}
    (hkeys : (gs.map Prod.fst).Nodup) (h : g ∈ push k a gs) :
    (g.1 ≠ k ∧ g ∈ gs) ∨ (g.1 = k ∧ ∃ as, (k, as) ∈ gs ∧ g.2 = as ++ [a]) ∨
      (g.1 = k ∧ k ∉ gs.map Prod.fst ∧ g.2 = [a]) := by
  induction gs with
  | nil =>
      obtain rfl := List.mem_singleton.mp h
      exact .inr (.inr ⟨rfl, List.not_mem_nil, rfl⟩)
  | cons g' gs ih =>
      obtain ⟨k', as⟩ := g'
      rw [List.map_cons, List.nodup_cons] at hkeys
      unfold push at h
      split at h
      · rename_i hkey
        subst hkey
        rcases List.mem_cons.mp h with rfl | hmem
        · exact .inr (.inl ⟨rfl, as, List.mem_cons_self, rfl⟩)
        · refine .inl ⟨fun hsame => hkeys.1 ?_, List.mem_cons_of_mem _ hmem⟩
          exact List.mem_map.mpr ⟨g, hmem, hsame⟩
      · rename_i hkey
        rcases List.mem_cons.mp h with rfl | hmem
        · exact .inl ⟨hkey, List.mem_cons_self⟩
        · rcases ih hkeys.2 hmem with ⟨hne, hg⟩ | ⟨heq, as', hg, hval⟩ | ⟨heq, hnew, hval⟩
          · exact .inl ⟨hne, List.mem_cons_of_mem _ hg⟩
          · exact .inr (.inl ⟨heq, as', List.mem_cons_of_mem _ hg, hval⟩)
          · refine .inr (.inr ⟨heq, ?_, hval⟩)
            rw [List.map_cons, List.mem_cons, not_or]
            exact ⟨Ne.symm hkey, hnew⟩

/-- A group has the values of its key, in their order. -/
theorem eq_of_mem_groups {ps : List (κ × α)} {g : κ × List α} (h : g ∈ groups ps) :
    g.2 = (ps.filter (fun p => decide (p.1 = g.1))).map Prod.snd := by
  induction ps using List.reverseRecOn generalizing g with
  | nil => cases h
  | append_singleton ps p ih =>
      have hpush : g ∈ push p.1 p.2 (groups ps) := by
        unfold groups at h ⊢
        rw [List.foldl_append] at h
        exact h
      rw [List.filter_append, List.map_append]
      rcases mem_push (nodup_keys_groups ps) hpush with
        ⟨hne, hg⟩ | ⟨heq, as, hg, hval⟩ | ⟨heq, hnew, hval⟩
      · have hother : [p].filter (fun p => decide (p.1 = g.1)) = [] := by
          simp [Ne.symm hne]
        rw [hother, List.map_nil, List.append_nil]
        exact ih hg
      · have hown : [p].filter (fun p => decide (p.1 = g.1)) = [p] := by
          simp [heq]
        have has : as = (ps.filter (fun q => decide (q.1 = p.1))).map Prod.snd := ih hg
        rw [hown, hval, has, heq]
        rfl
      · have hown : [p].filter (fun p => decide (p.1 = g.1)) = [p] := by
          simp [heq]
        have hnone : ps.filter (fun p => decide (p.1 = g.1)) = [] := by
          rw [List.filter_eq_nil_iff]
          intro q hq hkey
          rw [decide_eq_true_eq, heq] at hkey
          have hpair : (p.1, q.2) ∈ pairs (groups ps) :=
            (pairs_groups ps).mem_iff.mpr (hkey ▸ hq)
          obtain ⟨as, has, -⟩ := mem_pairs.mp hpair
          exact hnew (List.mem_map.mpr ⟨_, has, rfl⟩)
        rw [hown, hnone, hval]
        rfl

omit [DecidableEq κ] in
/-- Two groups share no label, if no two pairs do. -/
theorem pairwise_of_nodup {β : Type v} {label : α → β} {gs : List (κ × List α)}
    (h : ((pairs gs).map (fun p => label p.2)).Nodup) :
    gs.Pairwise (fun g g' => ∀ a ∈ g.2, ∀ a' ∈ g'.2, label a ≠ label a') := by
  unfold pairs at h
  rw [List.map_flatMap, List.nodup_flatMap] at h
  refine h.2.imp (fun {g g'} hdisjoint a ha a' ha' heq => ?_)
  have hmem : ∀ (g : κ × List α) (a : α), a ∈ g.2 →
      label a ∈ (g.2.map (fun a => (g.1, a))).map (fun p => label p.2) := by
    intro g a ha
    rw [List.map_map]
    exact List.mem_map_of_mem (f := fun a => label a) ha
  exact hdisjoint (hmem g a ha) (heq ▸ hmem g' a' ha')

end Grouping
