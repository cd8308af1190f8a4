import HermesCluster.Lib.Table
import Mathlib.Data.List.Forall2
/-!
# How a table evolves

An update of a keyed table rewrites rows in place and adds rows at the end; it
removes none. `Evolves R N` says so of two tables: each old row became a row
that `R` allows, and each new row satisfies `N`. Facts about an operation are
then facts about its `R` and `N`, and they compose.
-/

universe u v

namespace Table

open HasKey

variable {α : Type u} {κ : Type v} [HasKey α κ]

def Evolves (R : α → α → Prop) (N : α → Prop) (t t' : Table α) : Prop :=
  ∃ kept new, t'.rows = kept ++ new ∧ List.Forall₂ R t.rows kept ∧ ∀ a ∈ new, N a

section Forall₂

variable {R : α → α → Prop} {l l' : List α}

/-- Row by row, with what is known of the rows on the left. -/
theorem forall₂_imp_of_mem {R' : α → α → Prop} (h : List.Forall₂ R l l')
    (hR : ∀ a ∈ l, ∀ a', R a a' → R' a a') : List.Forall₂ R' l l' := by
  have hmem := (List.forall₂_and_left (p := (· ∈ l)) _ _).mpr ⟨fun a ha => ha, h⟩
  exact hmem.imp (fun a a' h => hR a h.1 a' h.2)

theorem forall₂_imp_of_mem_right {R' : α → α → Prop} (h : List.Forall₂ R l l')
    (hR : ∀ a' ∈ l', ∀ a, R a a' → R' a a') : List.Forall₂ R' l l' :=
  (forall₂_imp_of_mem h.flip hR).flip

theorem exists_of_mem_left (h : List.Forall₂ R l l') {a : α} (ha : a ∈ l) :
    ∃ a' ∈ l', R a a' := by
  induction h with
  | nil => cases ha
  | cons hab _ ih =>
      rcases List.mem_cons.mp ha with rfl | hmem
      · exact ⟨_, List.mem_cons_self, hab⟩
      · obtain ⟨a', hmem', hR⟩ := ih hmem
        exact ⟨a', List.mem_cons_of_mem _ hmem', hR⟩

theorem exists_of_mem_right (h : List.Forall₂ R l l') {a' : α} (ha' : a' ∈ l') :
    ∃ a ∈ l, R a a' := by
  obtain ⟨a, hmem, hR⟩ := exists_of_mem_left h.flip ha'
  exact ⟨a, hmem, hR⟩

theorem forall₂_map_right {f : α → α} (h : ∀ a ∈ l, R a (f a)) :
    List.Forall₂ R l (l.map f) := by
  rw [List.forall₂_map_right_iff, List.forall₂_same]
  exact h

theorem forall₂_comp {S : α → α → Prop} {l'' : List α} (h : List.Forall₂ R l l')
    (h' : List.Forall₂ S l' l'') :
    List.Forall₂ (fun a c => ∃ b, R a b ∧ S b c) l l'' := by
  induction h generalizing l'' with
  | nil =>
      cases h'
      exact List.Forall₂.nil
  | cons hab _ ih =>
      obtain ⟨c, rest, hbc, hrest, rfl⟩ := List.forall₂_cons_left_iff.mp h'
      exact List.Forall₂.cons ⟨_, hab, hbc⟩ (ih hrest)

end Forall₂

/-! ## The shape of each update -/

variable {R R' : α → α → Prop} {N N' : α → Prop} {t t' t'' : Table α}

theorem Evolves.of_eq (h : t' = t) (hR : ∀ a ∈ t.rows, R a a) : Evolves R N t t' :=
  ⟨t.rows, [], by rw [h, List.append_nil], List.forall₂_same.mpr hR, by simp⟩

theorem Evolves.mono (h : Evolves R N t t') (hR : ∀ a a', R a a' → R' a a')
    (hN : ∀ a, N a → N' a) : Evolves R' N' t t' := by
  obtain ⟨kept, new, hrows, hkept, hnew⟩ := h
  exact ⟨kept, new, hrows, hkept.imp hR, fun a ha => hN a (hnew a ha)⟩

/-- Monotone in what the old rows are known to satisfy. -/
theorem Evolves.mono_of_mem (h : Evolves R N t t')
    (hR : ∀ a ∈ t.rows, ∀ a', R a a' → R' a a') (hN : ∀ a, N a → N' a) :
    Evolves R' N' t t' := by
  obtain ⟨kept, new, hrows, hkept, hnew⟩ := h
  refine ⟨kept, new, hrows, ?_, fun a ha => hN a (hnew a ha)⟩
  exact forall₂_imp_of_mem hkept hR

theorem Evolves.trans (h : Evolves R N t t') (h' : Evolves R' N' t' t'') :
    Evolves (fun a c => ∃ b, R a b ∧ R' b c) (fun c => N' c ∨ ∃ b, N b ∧ R' b c) t t'' := by
  obtain ⟨kept, new, hrows, hkept, hnew⟩ := h
  obtain ⟨kept', new', hrows', hkept', hnew'⟩ := h'
  rw [hrows] at hkept'
  have htake := List.forall₂_take_append kept' kept new hkept'.flip
  have hdrop := List.forall₂_drop_append kept' kept new hkept'.flip
  refine ⟨kept'.take kept.length, kept'.drop kept.length ++ new', ?_,
    forall₂_comp hkept htake.flip, ?_⟩
  · rw [hrows', ← List.append_assoc, List.take_append_drop]
  · intro c hc
    rcases List.mem_append.mp hc with hmem | hmem
    · obtain ⟨b, hb, hR⟩ := exists_of_mem_right hdrop.flip hmem
      exact .inr ⟨b, hnew b hb, hR⟩
    · exact .inl (hnew' c hmem)

theorem Evolves.mapRows {f : α → α} (hf : KeepsKey f) (hR : ∀ a ∈ t.rows, R a (f a)) :
    Evolves R N t (t.mapRows f hf) :=
  ⟨t.rows.map f, [], (List.append_nil _).symm, forall₂_map_right hR, by simp⟩

theorem Evolves.updateWhere {p : α → Prop} [DecidablePred p] (f : α → α)
    (hf : KeepsKey f) (hhit : ∀ a ∈ t.rows, p a → R a (f a)) (hmiss : ∀ a ∈ t.rows, ¬p a → R a a) :
    Evolves R N t (t.updateWhere p f hf) := by
  refine Evolves.mapRows _ (fun a ha => ?_)
  by_cases hp : p a
  · rw [if_pos hp]
    exact hhit a ha hp
  · rw [if_neg hp]
    exact hmiss a ha hp

/-- A row is a rewritten one or a new one. -/
theorem Evolves.exists_of_mem (h : Evolves R N t t') {a' : α} (ha' : a' ∈ t'.rows) :
    (∃ a ∈ t.rows, R a a') ∨ N a' := by
  obtain ⟨kept, new, hrows, hkept, hnew⟩ := h
  rw [hrows] at ha'
  rcases List.mem_append.mp ha' with hmem | hmem
  · exact .inl (exists_of_mem_right hkept hmem)
  · exact .inr (hnew a' hmem)

section Keyed

variable [DecidableEq κ]

theorem Evolves.modify {k : κ} (f : α → α) (hf : KeepsKey f) (hrefl : ∀ a, R a a)
    (hhit : ∀ a, t.get? k = some a → R a (f a)) : Evolves R N t (t.modify k f hf) :=
  Evolves.updateWhere f hf (fun a ha hk => hhit a (get?_eq_some_iff.mpr ⟨ha, hk⟩))
    (fun a _ _ => hrefl a)

theorem Evolves.append {a : α} {ha : t.get? (key a) = none} (hrefl : ∀ a, R a a)
    (hN : N a) : Evolves R N t (t.append a ha) :=
  ⟨t.rows, [a], rfl, List.forall₂_same.mpr (fun b _ => hrefl b), by simpa using hN⟩

theorem Evolves.insertOrIgnore {a : α} (hrefl : ∀ a, R a a) (hN : N a) :
    Evolves R N t (t.insertOrIgnore a) := by
  unfold Table.insertOrIgnore
  split
  · exact Evolves.append hrefl hN
  · exact Evolves.of_eq rfl (fun b _ => hrefl b)

theorem Evolves.upsert {a : α} (hrefl : ∀ a, R a a)
    (hR : ∀ b, t.get? (key a) = some b → R b a) (hN : N a) : Evolves R N t (t.upsert a) := by
  unfold Table.upsert
  split
  · exact Evolves.append hrefl hN
  · refine ⟨_, [], (List.append_nil _).symm, forall₂_map_right (fun b hb => ?_), by simp⟩
    by_cases hkey : key b = key a
    · rw [if_pos hkey]
      exact hR b (get?_eq_some_iff.mpr ⟨hb, hkey⟩)
    · rw [if_neg hkey]
      exact hrefl b

/-- A further rewrite of a row that is still as it was. -/
theorem forall₂_modify (hkey : ∀ a a', R a a' → key a' = key a) {k : κ} (f : α → α)
    (hf : KeepsKey f) (h : List.Forall₂ R t.rows t'.rows) (hsame : t'.get? k = t.get? k)
    (hR : ∀ a, t.get? k = some a → R a (f a)) :
    List.Forall₂ R t.rows (t'.modify k f hf).rows := by
  have hmem : List.Forall₂ (fun a a' => a' ∈ t'.rows ∧ a ∈ t.rows ∧ R a a') t.rows t'.rows := by
    have hleft : List.Forall₂ (fun a a' => a ∈ t.rows ∧ R a a') t.rows t'.rows :=
      forall₂_imp_of_mem h (fun a ha a' hrow => ⟨ha, hrow⟩)
    exact forall₂_imp_of_mem_right hleft (fun a' ha' a hrow => ⟨ha', hrow⟩)
  change List.Forall₂ R t.rows (t'.rows.map (fun a => if key a = k then f a else a))
  rw [List.forall₂_map_right_iff]
  refine hmem.imp ?_
  rintro a a' ⟨ha', ha, haa'⟩
  by_cases hk : key a' = k
  · have hget' : t'.get? k = some a' := get?_eq_some_iff.mpr ⟨ha', hk⟩
    have hget : t.get? k = some a := get?_eq_some_iff.mpr ⟨ha, (hkey a a' haa').symm.trans hk⟩
    rw [hsame, hget] at hget'
    cases hget'
    rw [if_pos hk]
    exact hR a hget
  · rw [if_neg hk]
    exact haa'

omit [DecidableEq κ] in
theorem evolves_of_forall₂ (h : List.Forall₂ R t.rows t'.rows) : Evolves R N t t' :=
  ⟨t'.rows, [], (List.append_nil _).symm, h, by simp⟩

/-! ## What a row was and what it becomes -/

/-- No row is lost. -/
theorem Evolves.get?_of_get? (h : Evolves R N t t') (hkey : ∀ a a', R a a' → key a' = key a)
    {k : κ} {a : α} (ha : t.get? k = some a) : ∃ a', t'.get? k = some a' ∧ R a a' := by
  obtain ⟨kept, new, hrows, hkept, -⟩ := h
  obtain ⟨hmem, rfl⟩ := get?_eq_some_iff.mp ha
  obtain ⟨a', hmem', hR⟩ := exists_of_mem_left hkept hmem
  refine ⟨a', get?_eq_some_iff.mpr ⟨?_, hkey a a' hR⟩, hR⟩
  rw [hrows]
  exact List.mem_append_left _ hmem'

/-- The row under a key, traced back. -/
theorem Evolves.of_get? (h : Evolves R N t t') (hkey : ∀ a a', R a a' → key a' = key a)
    {k : κ} {a' : α} (ha' : t'.get? k = some a') :
    (∃ a, t.get? k = some a ∧ R a a') ∨ (t.get? k = none ∧ N a') := by
  cases hget : t.get? k with
  | some a =>
      obtain ⟨a'', ha'', hR⟩ := h.get?_of_get? hkey hget
      rw [ha'] at ha''
      cases ha''
      exact .inl ⟨a, rfl, hR⟩
  | none =>
      obtain ⟨hmem, rfl⟩ := get?_eq_some_iff.mp ha'
      rcases h.exists_of_mem hmem with ⟨a, hold, hR⟩ | hN
      · exact absurd (hkey a a' hR).symm (get?_eq_none_iff.mp hget a hold)
      · exact .inr ⟨rfl, hN⟩

end Keyed

end Table
