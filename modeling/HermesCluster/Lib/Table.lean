import Mathlib.Data.List.Basic
import Mathlib.Data.List.Induction
import Mathlib.Data.List.Nodup
/-!
# Keyed tables

An insertion-ordered table whose rows carry distinct keys. It stands for a
`dict` from keys to records (overwriting keeps the place of the key) and for an
SQL table with a primary key read in `rowid` order. Every update is by a
function that keeps the key of the row, so that no table with a repeated key
can be built.
-/

universe u v w

/-- Rows of type `α` are identified by a key of type `κ`. -/
class HasKey (α : Type u) (κ : outParam (Type v)) where
  key : α → κ

/-- Rows in insertion order, no key twice. -/
structure Table (α : Type u) {κ : Type v} [HasKey α κ] where
  rows : List α
  nodup : (rows.map HasKey.key).Nodup

namespace Table

open HasKey

variable {α : Type u} {κ : Type v} [HasKey α κ]

/-- Updates that cannot move a row to another key. -/
abbrev KeepsKey (f : α → α) : Prop :=
  ∀ a, key (f a) = key a

theorem KeepsKey.ite {f g : α → α} (c : α → Prop) [DecidablePred c]
    (hf : KeepsKey f) (hg : KeepsKey g) :
    KeepsKey (fun a => if c a then f a else g a) := by
  intro a
  by_cases hc : c a
  · simpa [hc] using hf a
  · simpa [hc] using hg a

theorem keepsKey_id : KeepsKey (fun a : α => a) := fun _ => rfl

def empty : Table α where
  rows := []
  nodup := List.nodup_nil

def single (a : α) : Table α where
  rows := [a]
  nodup := List.nodup_singleton _

/-- Apply a key-keeping function to every row. -/
def mapRows (t : Table α) (f : α → α) (hf : KeepsKey f) : Table α where
  rows := t.rows.map f
  nodup := by
    have hkeys : (t.rows.map f).map key = t.rows.map key := by
      rw [List.map_map]
      exact List.map_congr_left (fun a _ => hf a)
    rw [hkeys]
    exact t.nodup

/-- `UPDATE … SET … WHERE p`: the rows that satisfy `p` are rewritten by `f`. -/
def updateWhere (t : Table α) (p : α → Prop) [DecidablePred p] (f : α → α)
    (hf : KeepsKey f) : Table α :=
  t.mapRows (fun a => if p a then f a else a) (hf.ite p keepsKey_id)

/-- The row count an `UPDATE … WHERE p` reports. -/
def countWhere (t : Table α) (p : α → Prop) [DecidablePred p] : Nat :=
  t.rows.countP (fun a => decide (p a))

section Keyed

variable [DecidableEq κ]

/-- The row stored under a key. -/
def get? (t : Table α) (k : κ) : Option α :=
  t.rows.find? (fun a => decide (key a = k))

/-- Rewrite the row stored under `k`, if there is one. -/
def modify (t : Table α) (k : κ) (f : α → α) (hf : KeepsKey f) : Table α :=
  t.updateWhere (fun a => key a = k) f hf

/-- Add a row under a key that is not there. -/
def append (t : Table α) (a : α) (ha : t.get? (key a) = none) : Table α where
  rows := t.rows ++ [a]
  nodup := by
    have habsent : key a ∉ t.rows.map key := by
      intro hmem
      obtain ⟨b, hb, hkey⟩ := List.mem_map.mp hmem
      have hnone := List.find?_eq_none.mp ha b hb
      simp [hkey] at hnone
    rw [List.map_append]
    refine t.nodup.append (List.nodup_singleton _) ?_
    simpa using habsent

/-- `d[k] = a`: replace the row of the same key in place, or add one. -/
def upsert (t : Table α) (a : α) : Table α :=
  if h : t.get? (key a) = none then t.append a h
  else
    { rows := t.rows.map (fun b => if key b = key a then a else b)
      nodup := by
        have hkeys : (t.rows.map (fun b => if key b = key a then a else b)).map key
            = t.rows.map key := by
          rw [List.map_map]
          refine List.map_congr_left (fun b _ => ?_)
          by_cases hb : key b = key a <;> simp [hb]
        rw [hkeys]
        exact t.nodup }

/-- `INSERT OR IGNORE`: a row of the same key stays as it is. -/
def insertOrIgnore (t : Table α) (a : α) : Table α :=
  if h : t.get? (key a) = none then t.append a h else t

/-- `del d[k]`. -/
def erase (t : Table α) (k : κ) : Table α where
  rows := t.rows.filter (fun a => decide (key a ≠ k))
  nodup := t.nodup.sublist (List.filter_sublist.map key)

end Keyed

@[ext] theorem ext {t t' : Table α} (h : t.rows = t'.rows) : t = t' := by
  cases t
  cases t'
  simpa using h

theorem eq_of_mem_of_key_eq {t : Table α} {a b : α} (ha : a ∈ t.rows)
    (hb : b ∈ t.rows) (h : key a = key b) : a = b :=
  List.inj_on_of_nodup_map t.nodup ha hb h

theorem rows_nodup (t : Table α) : t.rows.Nodup :=
  List.Nodup.of_map _ t.nodup

theorem mem_mapRows {t : Table α} {f : α → α} {hf : KeepsKey f} {b : α} :
    b ∈ (t.mapRows f hf).rows ↔ ∃ a ∈ t.rows, f a = b := by
  simp [mapRows]

/-! ## Lookup -/

section Lookup

variable [DecidableEq κ] {t : Table α} {k : κ} {a b : α}

theorem key_of_get? (h : t.get? k = some a) : key a = k := by
  simpa using List.find?_some h

theorem mem_of_get? (h : t.get? k = some a) : a ∈ t.rows :=
  List.mem_of_find?_eq_some h

theorem get?_of_mem (h : a ∈ t.rows) : t.get? (key a) = some a := by
  cases hget : t.get? (key a) with
  | none =>
      have habsent := List.find?_eq_none.mp hget a h
      simp at habsent
  | some b =>
      rw [eq_of_mem_of_key_eq (mem_of_get? hget) h (key_of_get? hget)]

theorem get?_eq_some_iff : t.get? k = some a ↔ a ∈ t.rows ∧ key a = k := by
  constructor
  · intro h
    exact ⟨mem_of_get? h, key_of_get? h⟩
  · rintro ⟨hmem, rfl⟩
    exact get?_of_mem hmem

theorem get?_eq_none_iff : t.get? k = none ↔ ∀ a ∈ t.rows, key a ≠ k := by
  simp [get?, List.find?_eq_none]

theorem any_get? {p : α → Bool} :
    (t.get? k).any p = true ↔ ∃ a ∈ t.rows, key a = k ∧ p a = true := by
  rw [Option.any_eq_true]
  constructor
  · rintro ⟨a, ha, hp⟩
    exact ⟨a, mem_of_get? ha, key_of_get? ha, hp⟩
  · rintro ⟨a, ha, hkey, hp⟩
    exact ⟨a, get?_eq_some_iff.mpr ⟨ha, hkey⟩, hp⟩

theorem get?_key_of_get? (h : t.get? k = some a) : t.get? (key a) = some a :=
  get?_of_mem (mem_of_get? h)

@[simp] theorem get?_empty : (empty : Table α).get? k = none := rfl

end Lookup

/-! ## Lookup after an update -/

section Updates

variable [DecidableEq κ] (t : Table α) (k : κ)

theorem get?_mapRows (f : α → α) (hf : KeepsKey f) :
    (t.mapRows f hf).get? k = (t.get? k).map f := by
  have hpred : ((fun a => decide (key a = k)) ∘ f) = fun a => decide (key a = k) := by
    funext a
    simp [hf a]
  rw [get?, mapRows, get?, List.find?_map, hpred]

theorem get?_updateWhere (p : α → Prop) [DecidablePred p] (f : α → α)
    (hf : KeepsKey f) :
    (t.updateWhere p f hf).get? k =
      (t.get? k).map (fun a => if p a then f a else a) :=
  get?_mapRows t k _ _

@[simp] theorem get?_modify_self (f : α → α) (hf : KeepsKey f) :
    (t.modify k f hf).get? k = (t.get? k).map f := by
  rw [modify, get?_updateWhere]
  cases hget : t.get? k with
  | none => rfl
  | some a => simp [key_of_get? hget]

theorem get?_modify_ne (f : α → α) (hf : KeepsKey f) {k' : κ} (h : k' ≠ k) :
    (t.modify k f hf).get? k' = t.get? k' := by
  rw [modify, get?_updateWhere]
  cases hget : t.get? k' with
  | none => rfl
  | some a => simp [key_of_get? hget, h]

theorem get?_modify (f : α → α) (hf : KeepsKey f) (k' : κ) :
    (t.modify k f hf).get? k' =
      if k' = k then (t.get? k').map f else t.get? k' := by
  by_cases h : k' = k
  · subst h
    simp
  · simp [h, get?_modify_ne]

omit [DecidableEq κ] in
theorem updateWhere_eq_self {t : Table α} {p : α → Prop} [DecidablePred p] {f : α → α}
    {hf : KeepsKey f} (h : ∀ a ∈ t.rows, ¬p a) : t.updateWhere p f hf = t := by
  apply ext
  refine (List.map_congr_left (fun a ha => ?_)).trans (List.map_id _)
  rw [if_neg (h a ha), id]

theorem modify_eq_self {t : Table α} {k : κ} (h : t.get? k = none) (f : α → α)
    (hf : KeepsKey f) : t.modify k f hf = t :=
  updateWhere_eq_self (get?_eq_none_iff.mp h)

omit [DecidableEq κ] in
theorem updateWhere_congr {t : Table α} {p q : α → Prop} [DecidablePred p]
    [DecidablePred q] {f : α → α} {hf : KeepsKey f} (h : ∀ a ∈ t.rows, p a ↔ q a) :
    t.updateWhere p f hf = t.updateWhere q f hf := by
  apply ext
  refine List.map_congr_left (fun a ha => ?_)
  simp only [h a ha]

/-- A further condition on a row that meets it is none. -/
theorem updateWhere_key_and {t : Table α} {k : κ} {a : α} (ha : t.get? k = some a)
    {p : α → Prop} [DecidablePred p] (hp : p a) (f : α → α) (hf : KeepsKey f) :
    t.updateWhere (fun b => key b = k ∧ p b) f hf = t.modify k f hf := by
  apply ext
  refine List.map_congr_left (fun b hb => ?_)
  by_cases hk : key b = k
  · have hrow : b = a :=
      eq_of_mem_of_key_eq hb (mem_of_get? ha) (hk.trans (key_of_get? ha).symm)
    simp [hrow, hp]
  · simp [hk]

/-- Only what a rewrite makes of the one row counts. -/
theorem modify_congr {t : Table α} {k : κ} {a : α} (ha : t.get? k = some a) {f g : α → α}
    {hf : KeepsKey f} {hg : KeepsKey g} (h : f a = g a) : t.modify k f hf = t.modify k g hg := by
  apply ext
  refine List.map_congr_left (fun b hb => ?_)
  by_cases hk : key b = k
  · have hrow : b = a :=
      eq_of_mem_of_key_eq hb (mem_of_get? ha) (hk.trans (key_of_get? ha).symm)
    rw [hrow, h]
  · simp only [if_neg hk]

theorem modify_of_fixed {t : Table α} {k : κ} {a : α} (ha : t.get? k = some a) {f : α → α}
    {hf : KeepsKey f} (h : f a = a) : t.modify k f hf = t := by
  have hkept : t.modify k (fun b => b) keepsKey_id = t := by
    apply ext
    refine (List.map_congr_left (fun b _ => ?_)).trans (List.map_id _)
    exact ite_self _
  exact (modify_congr ha h).trans hkept

/-- Two rewrites of one row are one. -/
theorem modify_modify (f g : α → α) (hf : KeepsKey f) (hg : KeepsKey g) :
    (t.modify k f hf).modify k g hg =
      t.modify k (fun a => g (f a)) (fun a => (hg (f a)).trans (hf a)) := by
  apply ext
  simp only [modify, updateWhere, mapRows, List.map_map]
  refine List.map_congr_left (fun a _ => ?_)
  by_cases hk : key a = k
  · simp [hk, hf a]
  · simp [hk]

theorem get?_append (a : α) (ha : t.get? (key a) = none) :
    (t.append a ha).get? k = if key a = k then some a else t.get? k := by
  simp only [get?, append, List.find?_append]
  by_cases h : key a = k
  · subst h
    have hnone : t.rows.find? (fun b => decide (key b = key a)) = none := ha
    simp [hnone]
  · simp [h]

theorem get?_insertOrIgnore (a : α) :
    (t.insertOrIgnore a).get? k =
      if key a = k ∧ t.get? k = none then some a else t.get? k := by
  unfold insertOrIgnore
  split
  · rename_i h
    rw [get?_append]
    by_cases hk : key a = k
    · subst hk
      simp [h]
    · simp [hk]
  · rename_i h
    have hno : ¬(key a = k ∧ t.get? k = none) := by
      rintro ⟨rfl, hnone⟩
      exact h hnone
    rw [if_neg hno]

/-- A row that is there already. -/
theorem upsert_eq_self {t : Table α} {a : α} (h : t.get? (key a) = some a) : t.upsert a = t := by
  have hpresent : ¬t.get? (key a) = none := by
    rw [h]
    exact Option.some_ne_none a
  rw [upsert, dif_neg hpresent]
  apply ext
  refine (List.map_congr_left (fun b hb => ?_)).trans (List.map_id _)
  split
  · rename_i hkey
    exact eq_of_mem_of_key_eq (mem_of_get? h) hb hkey.symm
  · rfl

theorem get?_upsert (a : α) :
    (t.upsert a).get? k = if key a = k then some a else t.get? k := by
  unfold upsert
  split
  · exact get?_append t k a _
  · rename_i h
    obtain ⟨b, hb⟩ := Option.ne_none_iff_exists'.mp h
    by_cases hk : key a = k
    · subst hk
      rw [if_pos rfl, get?_eq_some_iff]
      refine ⟨List.mem_map.mpr ⟨b, mem_of_get? hb, ?_⟩, rfl⟩
      simp [key_of_get? hb]
    · rw [if_neg hk]
      cases hget : t.get? k with
      | none =>
          rw [get?_eq_none_iff] at hget ⊢
          intro c hc
          obtain ⟨d, hd, rfl⟩ := List.mem_map.mp hc
          by_cases hda : key d = key a
          · simpa [hda] using hk
          · simpa [hda] using hget d hd
      | some c =>
          rw [get?_eq_some_iff] at hget ⊢
          obtain ⟨hmem, rfl⟩ := hget
          refine ⟨List.mem_map.mpr ⟨c, hmem, ?_⟩, rfl⟩
          simp [Ne.symm hk]

theorem get?_erase (k' : κ) :
    (t.erase k').get? k = if k = k' then none else t.get? k := by
  by_cases h : k = k'
  · subst h
    rw [if_pos rfl, get?_eq_none_iff]
    intro a ha
    simpa using (List.mem_filter.mp ha).2
  · rw [if_neg h]
    cases hget : t.get? k with
    | none =>
        rw [get?_eq_none_iff] at hget ⊢
        intro a ha
        exact hget a (List.mem_filter.mp ha).1
    | some a =>
        rw [get?_eq_some_iff] at hget ⊢
        obtain ⟨hmem, rfl⟩ := hget
        exact ⟨List.mem_filter.mpr ⟨hmem, by simpa using h⟩, rfl⟩

theorem mem_rows_erase {k' : κ} {a : α} : a ∈ (t.erase k').rows ↔ a ∈ t.rows ∧ key a ≠ k' := by
  simp [erase, List.mem_filter]

theorem mem_rows_upsert {a b : α} :
    b ∈ (t.upsert a).rows ↔ b = a ∨ (b ∈ t.rows ∧ key b ≠ key a) := by
  have hget : b ∈ (t.upsert a).rows ↔ (t.upsert a).get? (key b) = some b := by
    rw [get?_eq_some_iff, and_iff_left rfl]
  rw [hget, get?_upsert]
  by_cases hk : key a = key b
  · rw [if_pos hk, Option.some_inj]
    exact ⟨fun h => .inl h.symm, fun h => (h.resolve_right (fun h => h.2 hk.symm)).symm⟩
  · rw [if_neg hk, get?_eq_some_iff]
    refine ⟨fun h => .inr ⟨h.1, fun h => hk h.symm⟩, fun h => ⟨?_, rfl⟩⟩
    rcases h with rfl | h
    · exact absurd rfl hk
    · exact h.1

variable {t k} in
/-- A row and the others. -/
theorem rows_perm_of_get? {a : α} (h : t.get? k = some a) :
    t.rows.Perm (a :: (t.erase k).rows) := by
  have hnodup : (a :: (t.erase k).rows).Nodup := by
    refine List.nodup_cons.mpr ⟨fun hmem => ?_, (t.erase k).rows_nodup⟩
    exact (t.mem_rows_erase.mp hmem).2 (key_of_get? h)
  refine (List.perm_ext_iff_of_nodup t.rows_nodup hnodup).mpr (fun b => ?_)
  rw [List.mem_cons, mem_rows_erase]
  constructor
  · intro hb
    by_cases hk : key b = k
    · exact .inl (eq_of_mem_of_key_eq hb (mem_of_get? h) (hk.trans (key_of_get? h).symm))
    · exact .inr ⟨hb, hk⟩
  · rintro (rfl | hb)
    · exact mem_of_get? h
    · exact hb.1

variable {t k} in
theorem erase_eq_self (h : t.get? k = none) : t.erase k = t := by
  apply ext
  refine List.filter_eq_self.mpr (fun a ha => ?_)
  simpa using get?_eq_none_iff.mp h a ha

theorem rows_upsert_perm (a : α) : (t.upsert a).rows.Perm (a :: (t.erase (key a)).rows) := by
  have hnodup : (a :: (t.erase (key a)).rows).Nodup := by
    refine List.nodup_cons.mpr ⟨fun hmem => ?_, (t.erase (key a)).rows_nodup⟩
    exact (t.mem_rows_erase.mp hmem).2 rfl
  refine (List.perm_ext_iff_of_nodup (t.upsert a).rows_nodup hnodup).mpr (fun b => ?_)
  rw [mem_rows_upsert, List.mem_cons, mem_rows_erase]

/-- An `UPDATE` on the primary key reports one row exactly when the row is
there and passes the rest of the condition. -/
theorem countWhere_key_pos (p : α → Prop) [DecidablePred p] :
    0 < t.countWhere (fun a => key a = k ∧ p a) ↔ ∃ a, t.get? k = some a ∧ p a := by
  rw [countWhere, List.countP_pos_iff]
  constructor
  · rintro ⟨a, hmem, ha⟩
    obtain ⟨hkey, hp⟩ := of_decide_eq_true ha
    exact ⟨a, get?_eq_some_iff.mpr ⟨hmem, hkey⟩, hp⟩
  · rintro ⟨a, hget, hp⟩
    exact ⟨a, mem_of_get? hget, by simp [key_of_get? hget, hp]⟩

variable {t k} in
theorem countWhere_key_and {a : α} (h : t.get? k = some a) {p : α → Prop} [DecidablePred p]
    (hp : p a) : t.countWhere (fun b => key b = k ∧ p b) = 1 := by
  have hothers : (t.erase k).rows.countP (fun b => decide (key b = k ∧ p b)) = 0 := by
    refine List.countP_eq_zero.mpr (fun b hb hsame => ?_)
    exact (t.mem_rows_erase.mp hb).2 (of_decide_eq_true hsame).1
  rw [countWhere, (rows_perm_of_get? h).countP_eq, List.countP_cons, hothers,
    decide_eq_true (And.intro (key_of_get? h) hp)]
  rfl

end Updates

/-! ## Counting rows across an update -/

section Counting

variable [DecidableEq κ]

private theorem countP_map_of_nodup {rows : List α} (hnodup : (rows.map key).Nodup)
    {a : α} (ha : a ∈ rows) (f : α → α) (q : α → Bool) :
    (rows.map (fun b => if key b = key a then f b else b)).countP q + (q a).toNat =
      rows.countP q + (q (f a)).toNat := by
  induction rows with
  | nil => cases ha
  | cons b rows ih =>
      rw [List.map_cons, List.nodup_cons] at hnodup
      obtain ⟨hb, hrest⟩ := hnodup
      rw [List.map_cons, List.countP_cons, List.countP_cons]
      rcases List.mem_cons.mp ha with rfl | hmem
      · have hsame : rows.map (fun b => if key b = key a then f b else b) = rows := by
          refine (List.map_congr_left (fun c hc => if_neg ?_)).trans (List.map_id _)
          intro hkey
          exact hb (hkey ▸ List.mem_map_of_mem hc)
        rw [hsame, if_pos rfl]
        cases q a <;> cases q (f a) <;> simp
      · have hne : key b ≠ key a := fun hkey => hb (hkey ▸ List.mem_map_of_mem hmem)
        have hcount := ih hrest hmem
        rw [if_neg hne]
        omega

/-- Rewriting the row `a` moves a count by what `a` and its new row weigh. -/
theorem countP_modify {t : Table α} {k : κ} {a : α} (ha : t.get? k = some a)
    (f : α → α) (hf : KeepsKey f) (q : α → Bool) :
    (t.modify k f hf).rows.countP q + (q a).toNat = t.rows.countP q + (q (f a)).toNat := by
  obtain ⟨hmem, rfl⟩ := get?_eq_some_iff.mp ha
  exact countP_map_of_nodup t.nodup hmem f q

end Counting

/-! ## Adding many rows -/

section Folds

variable [DecidableEq κ]

/-- Among the rows written one after another, the last one of a key stays. -/
theorem get?_foldl_upsert (t : Table α) (as : List α) (k : κ) :
    (as.foldl upsert t).get? k =
      (as.reverse.find? (fun a => decide (key a = k))).or (t.get? k) := by
  induction as using List.reverseRecOn with
  | nil => rfl
  | append_singleton as a ih =>
      rw [List.foldl_append, List.foldl_cons, List.foldl_nil, get?_upsert, ih,
        List.reverse_append, List.reverse_singleton, List.singleton_append, List.find?_cons]
      by_cases hk : key a = k <;> simp [hk]

/-- Among the rows offered one after another, the first one of a key stays. -/
theorem get?_foldl_insertOrIgnore (t : Table α) (as : List α) (k : κ) :
    (as.foldl insertOrIgnore t).get? k =
      (t.get? k).or (as.find? (fun a => decide (key a = k))) := by
  induction as generalizing t with
  | nil => simp
  | cons a as ih =>
      rw [List.foldl_cons, ih, get?_insertOrIgnore, List.find?_cons]
      by_cases hk : key a = k
      · cases hget : t.get? k <;> simp [hk]
      · simp [hk]

theorem rows_upsert_of_fresh {t : Table α} {a : α} (h : t.get? (key a) = none) :
    (t.upsert a).rows = t.rows ++ [a] := by
  rw [upsert, dif_pos h, append]

theorem insertOrIgnore_of_fresh (t : Table α) {a : α} (h : t.get? (key a) = none) :
    t.insertOrIgnore a = t.upsert a := by
  rw [insertOrIgnore, upsert, dif_pos h, dif_pos h]

theorem rows_insertOrIgnore_of_fresh {t : Table α} {a : α} (h : t.get? (key a) = none) :
    (t.insertOrIgnore a).rows = t.rows ++ [a] := by
  rw [insertOrIgnore, dif_pos h, append]

/-- Writing rows under new and different keys adds them in order. -/
theorem rows_foldl_of_fresh {add : Table α → α → Table α}
    (hrows : ∀ t a, t.get? (key a) = none → (add t a).rows = t.rows ++ [a])
    {t : Table α} {as : List α} (hfresh : ∀ a ∈ as, t.get? (key a) = none)
    (hnodup : (as.map key).Nodup) : (as.foldl add t).rows = t.rows ++ as := by
  induction as generalizing t with
  | nil => simp
  | cons a as ih =>
      rw [List.map_cons, List.nodup_cons] at hnodup
      have hadd := hrows t a (hfresh a List.mem_cons_self)
      have hrest : ∀ b ∈ as, (add t a).get? (key b) = none := by
        intro b hb
        rw [get?_eq_none_iff, hadd]
        intro c hc hkey
        rcases List.mem_append.mp hc with hold | hnew
        · exact get?_eq_none_iff.mp (hfresh b (List.mem_cons_of_mem a hb)) c hold hkey
        · rw [List.mem_singleton] at hnew
          subst hnew
          exact hnodup.1 (List.mem_map.mpr ⟨b, hb, hkey.symm⟩)
      rw [List.foldl_cons, ih hrest hnodup.2, hadd, List.append_assoc, List.singleton_append]

/-! ### Entries that are made when they are first needed -/

/-- `entry = t.setdefault(key a, a)`, and the entry is updated. -/
def setDefault (t : Table α) (a : α) (f : α → α) (hf : KeepsKey f) : Table α :=
  (t.insertOrIgnore a).modify (key a) f hf

theorem get?_setDefault (t : Table α) (a : α) (f : α → α) (hf : KeepsKey f) (k : κ) :
    (t.setDefault a f hf).get? k =
      if key a = k then some (f ((t.get? k).getD a)) else t.get? k := by
  unfold setDefault
  rw [get?_modify, get?_insertOrIgnore]
  by_cases hk : key a = k
  · subst hk
    cases hget : t.get? (key a) <;> simp
  · simp [hk, Ne.symm hk]

variable {ι : Type w} (k : ι → κ) (fresh : κ → α) {f : ι → α → α}

/-- What a loop over `xs` leaves of the entry of a key: the updates made for that
key, one after the other. -/
theorem get?_foldl_setDefault (hfresh : ∀ key', key (fresh key') = key')
    (hf : ∀ x, KeepsKey (f x)) (t : Table α) (xs : List ι) (k' : κ) :
    (xs.foldl (fun t x => t.setDefault (fresh (k x)) (f x) (hf x)) t).get? k' =
      (xs.filter (fun x => decide (k x = k'))).foldl
        (fun entry x => some (f x (entry.getD (fresh k')))) (t.get? k') := by
  induction xs generalizing t with
  | nil => rfl
  | cons x xs ih =>
      rw [List.foldl_cons, ih, get?_setDefault, hfresh]
      by_cases hk : k x = k'
      · have hx : decide (k x = k') = true := decide_eq_true hk
        rw [if_pos hk, List.filter_cons, if_pos hx, List.foldl_cons, hk]
      · have hx : ¬decide (k x = k') = true := fun h => hk (of_decide_eq_true h)
        rw [if_neg hk, List.filter_cons, if_neg hx]

/-- A flag that some updates raise and none lowers. -/
theorem any_foldl_some {d : α} {p : α → Bool} {q : ι → Bool}
    (hp : ∀ x a, p (f x a) = (p a || q x)) (hd : p d = false) (xs : List ι) (entry : Option α) :
    (xs.foldl (fun entry x => some (f x (entry.getD d))) entry).any p =
      (entry.any p || xs.any q) := by
  induction xs generalizing entry with
  | nil => simp
  | cons x xs ih =>
      rw [List.foldl_cons, ih, List.any_cons, ← Bool.or_assoc]
      cases entry with
      | none => simp [hp, hd]
      | some a => simp [hp]

theorem isSome_foldl_some {d : α} (xs : List ι) {entry : Option α}
    (hentry : entry.isSome = true) :
    (xs.foldl (fun entry x => some (f x (entry.getD d))) entry).isSome = true := by
  induction xs generalizing entry with
  | nil => exact hentry
  | cons x xs ih => exact ih rfl

/-- A loop makes no entries only if it does nothing. -/
theorem rows_foldl_setDefault_eq_nil (hfresh : ∀ key', key (fresh key') = key')
    (hf : ∀ x, KeepsKey (f x)) (xs : List ι) :
    (xs.foldl (fun t x => t.setDefault (fresh (k x)) (f x) (hf x)) empty).rows = [] ↔
      xs = [] := by
  constructor
  · intro hrows
    cases xs with
    | nil => rfl
    | cons x xs =>
        have hget := get?_foldl_setDefault k fresh hfresh hf empty (x :: xs) (k x)
        have hx : decide (k x = k x) = true := decide_eq_true rfl
        rw [get?, hrows, List.filter_cons, if_pos hx, List.foldl_cons] at hget
        have hsome := isSome_foldl_some (f := f) (d := fresh (k x))
          (xs.filter (fun y => decide (k y = k x)))
          (show (some (f x ((empty.get? (k x)).getD (fresh (k x))))).isSome = true from rfl)
        rw [← hget] at hsome
        cases hsome
  · rintro rfl
    rfl

end Folds

/-! ## Projections -/

section Project

variable {β : Type w} [HasKey β κ]

/-- Some columns of a table, the key among them. -/
def project (t : Table α) (g : α → β) (hg : ∀ a, key (g a) = key a) : Table β where
  rows := t.rows.map g
  nodup := by
    have hkeys : (t.rows.map g).map key = t.rows.map key := by
      rw [List.map_map]
      exact List.map_congr_left (fun a _ => hg a)
    rw [hkeys]
    exact t.nodup

variable {g : α → β} {hg : ∀ a, key (g a) = key a} (t : Table α)

variable [DecidableEq κ] in
theorem get?_project (k : κ) : (t.project g hg).get? k = (t.get? k).map g := by
  have hpred : ((fun b => decide (key b = k)) ∘ g) = fun a => decide (key a = k) := by
    funext a
    simp [hg a]
  rw [get?, project, get?, List.find?_map, hpred]

theorem project_updateWhere (p : α → Prop) (q : β → Prop) [DecidablePred p] [DecidablePred q]
    (f : α → α) (f' : β → β) (hf : KeepsKey f) (hf' : KeepsKey f') (hpq : ∀ a, q (g a) ↔ p a)
    (hff : ∀ a, g (f a) = f' (g a)) :
    (t.updateWhere p f hf).project g hg = (t.project g hg).updateWhere q f' hf' := by
  apply ext
  simp only [project, updateWhere, mapRows, List.map_map]
  refine List.map_congr_left (fun a _ => ?_)
  simp only [Function.comp_apply, hpq]
  split
  · exact hff a
  · rfl

variable [DecidableEq κ] in
theorem project_modify (k : κ) (f : α → α) (f' : β → β) (hf : KeepsKey f) (hf' : KeepsKey f')
    (hff : ∀ a, g (f a) = f' (g a)) :
    (t.modify k f hf).project g hg = (t.project g hg).modify k f' hf' :=
  t.project_updateWhere _ _ f f' hf hf' (fun a => by rw [hg a]) hff

variable [DecidableEq κ] in
theorem project_upsert (a : α) :
    (t.upsert a).project g hg = (t.project g hg).upsert (g a) := by
  have hget : (t.project g hg).get? (key (g a)) = (t.get? (key a)).map g := by
    rw [get?_project, hg]
  apply ext
  by_cases hnone : t.get? (key a) = none
  · have hnone' : (t.project g hg).get? (key (g a)) = none := by rw [hget, hnone]; rfl
    have hrows : ((t.upsert a).project g hg).rows = (t.rows ++ [a]).map g :=
      congrArg (List.map g) (rows_upsert_of_fresh hnone)
    rw [rows_upsert_of_fresh hnone', hrows, List.map_append]
    rfl
  · have hsome : (t.project g hg).get? (key (g a)) ≠ none := by
      rw [hget]
      exact fun h => hnone (Option.map_eq_none_iff.mp h)
    unfold upsert
    rw [dif_neg hnone, dif_neg hsome]
    simp only [project, List.map_map]
    refine List.map_congr_left (fun b _ => ?_)
    simp only [Function.comp_apply, hg]
    split <;> rfl

end Project

end Table
