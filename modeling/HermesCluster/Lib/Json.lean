import Mathlib.Data.Rat.Defs
import Mathlib.Data.List.Basic
/-!
# JSON documents

Values, the keys of an object, and objects that are the same but for the order
of their keys.
-/

inductive Json where
  | null
  | bool (b : Bool)
  | num (q : Rat)
  | str (s : String)
  | arr (items : List Json)
  | obj (fields : List (String × Json))
  deriving Repr

namespace Json

/-- `j.get(key)` of an object. -/
def get? (j : Json) (key : String) : Option Json :=
  match j with
  | .obj fields => fields.lookup key
  | _ => none

/-- Neither a list nor an object. -/
def IsScalar : Json → Prop
  | .arr _ | .obj _ => False
  | _ => True

/-- `bool(j)` of Python. -/
def truthy : Json → Bool
  | .null => false
  | .bool b => b
  | .num q => q ≠ 0
  | .str s => s ≠ ""
  | .arr items => !items.isEmpty
  | .obj fields => !fields.isEmpty

/-! ## Keys -/

/-- `fields[key] = value`. -/
def insert (fields : List (String × Json)) (key : String) (value : Json) : List (String × Json) :=
  match fields with
  | [] => [(key, value)]
  | (k, v) :: rest => if k = key then (k, value) :: rest else (k, v) :: insert rest key value

/-- `fields.pop(key, None)`. -/
def erase (fields : List (String × Json)) (key : String) : List (String × Json) :=
  fields.filter (fun f => decide (f.1 ≠ key))

section Keys

variable {fields : List (String × Json)} {key k : String} {value : Json}

theorem lookup_cons (f : String × Json) (fs : List (String × Json)) (k : String) :
    (f :: fs).lookup k = if k = f.1 then some f.2 else fs.lookup k := by
  obtain ⟨key, value⟩ := f
  by_cases h : k = key
  · rw [if_pos h, h, List.lookup_cons_self]
  · rw [if_neg h, List.lookup_cons, beq_eq_false_iff_ne.mpr h]

theorem lookup_insert :
    (insert fields key value).lookup k = if k = key then some value else fields.lookup k := by
  induction fields with
  | nil => exact lookup_cons _ _ _
  | cons f fields ih =>
      obtain ⟨k', v'⟩ := f
      unfold insert
      by_cases hhere : k' = key
      · rw [if_pos hhere, lookup_cons, lookup_cons]
        dsimp only
        rw [hhere]
        split
        · rfl
        · rfl
      · rw [if_neg hhere, lookup_cons, lookup_cons, ih]
        dsimp only
        by_cases hk : k = k'
        · rw [if_pos hk, if_pos hk, if_neg (hk ▸ hhere)]
        · rw [if_neg hk, if_neg hk]

theorem keys_insert (h : key ∈ fields.map Prod.fst) :
    (insert fields key value).map Prod.fst = fields.map Prod.fst := by
  induction fields with
  | nil => cases h
  | cons f fields ih =>
      obtain ⟨k', v'⟩ := f
      unfold insert
      split
      · rfl
      · next hne =>
          rw [List.map_cons, List.map_cons,
            ih ((List.mem_cons.mp h).resolve_left (fun heq => hne heq.symm))]

theorem lookup_filter (p : String → Bool) :
    (fields.filter (fun f => p f.1)).lookup k = if p k then fields.lookup k else none := by
  induction fields with
  | nil => exact (ite_self none).symm
  | cons f fields ih =>
      rw [List.filter_cons, lookup_cons]
      by_cases hk : k = f.1
      · rw [if_pos hk]
        by_cases hp : p f.1 = true
        · rw [if_pos hp, if_pos (hk ▸ hp), lookup_cons, if_pos hk]
        · rw [if_neg hp, ih, if_neg (hk ▸ hp), if_neg (hk ▸ hp)]
      · rw [if_neg hk]
        by_cases hp : p f.1 = true
        · rw [if_pos hp, lookup_cons, if_neg hk, ih]
        · rw [if_neg hp, ih]

theorem lookup_erase :
    (erase fields key).lookup k = if k = key then none else fields.lookup k := by
  refine (lookup_filter fun k => decide (k ≠ key)).trans ?_
  by_cases hk : k = key
  · rw [if_pos hk, if_neg (by simp [hk])]
  · rw [if_neg hk, if_pos (by simpa using hk)]

/-- A key that is erased need not be inserted. -/
theorem erase_insert : erase (insert fields key value) key = erase fields key := by
  unfold erase
  induction fields with
  | nil => simp [insert]
  | cons f fields ih =>
      obtain ⟨k', v'⟩ := f
      unfold insert
      split
      · next hk => simp [hk]
      · rw [List.filter_cons, List.filter_cons, ih]

theorem erase_comm {k k' : String} : erase (erase fields k) k' = erase (erase fields k') k := by
  unfold erase
  rw [List.filter_filter, List.filter_filter]
  exact List.filter_congr fun f _ => Bool.and_comm _ _

/-- An entry that is there is not inserted again. -/
theorem insert_eq_self (h : fields.lookup key = some value) : insert fields key value = fields := by
  induction fields with
  | nil => cases h
  | cons f fields ih =>
      obtain ⟨k', v'⟩ := f
      rw [lookup_cons] at h
      unfold insert
      split
      · next hk =>
          rw [if_pos hk.symm] at h
          cases h
          rfl
      · next hk =>
          rw [if_neg (Ne.symm hk)] at h
          rw [ih h]

theorem lookup_append {fs gs : List (String × Json)} :
    (fs ++ gs).lookup k = (fs.lookup k).or (gs.lookup k) := by
  induction fs with
  | nil => rfl
  | cons f fs ih =>
      rw [List.cons_append, lookup_cons, lookup_cons, ih]
      split
      · rfl
      · rfl

theorem lookup_isSome_iff : (fields.lookup k).isSome = true ↔ k ∈ fields.map Prod.fst := by
  induction fields with
  | nil => simp
  | cons f fields ih =>
      rw [lookup_cons, List.map_cons, List.mem_cons, ← ih]
      by_cases hk : k = f.1
      · simp [hk]
      · simp [hk]

/-- With distinct keys an entry is what its key is looked up to. -/
theorem lookup_of_mem {v : Json} (hnodup : (fields.map Prod.fst).Nodup) (h : (k, v) ∈ fields) :
    fields.lookup k = some v := by
  induction fields with
  | nil => cases h
  | cons f fields ih =>
      rw [List.map_cons, List.nodup_cons] at hnodup
      rw [lookup_cons]
      rcases List.mem_cons.mp h with rfl | hrest
      · exact if_pos rfl
      · have hne : k ≠ f.1 := by
          rintro rfl
          exact hnodup.1 (List.mem_map.mpr ⟨_, hrest, rfl⟩)
        rw [if_neg hne]
        exact ih hnodup.2 hrest

theorem mem_of_lookup {v : Json} (h : fields.lookup k = some v) : (k, v) ∈ fields := by
  induction fields with
  | nil => cases h
  | cons f fields ih =>
      rw [lookup_cons] at h
      split at h
      case isTrue hk =>
        cases h
        rw [hk]
        exact List.mem_cons_self
      case isFalse => exact List.mem_cons_of_mem _ (ih h)

/-- Entries in one order of keys are their values. -/
theorem eq_of_lookup {fs gs : List (String × Json)} (hkeys : fs.map Prod.fst = gs.map Prod.fst)
    (hnodup : (fs.map Prod.fst).Nodup) (h : ∀ k, fs.lookup k = gs.lookup k) : fs = gs := by
  induction fs generalizing gs with
  | nil => exact (List.map_eq_nil_iff.mp hkeys.symm).symm
  | cons f fs ih =>
      cases gs with
      | nil => cases hkeys
      | cons g gs =>
          rw [List.map_cons, List.map_cons] at hkeys
          obtain ⟨hkey, hkeys⟩ := List.cons.inj hkeys
          rw [List.map_cons, List.nodup_cons] at hnodup
          have hhere := h f.1
          rw [lookup_cons, lookup_cons, if_pos rfl, if_pos hkey] at hhere
          have hvalue := Option.some.inj hhere
          have hrest : ∀ k, fs.lookup k = gs.lookup k := by
            intro k
            by_cases hk : k = f.1
            · have hnone : fs.lookup k = none := by
                rw [← Option.not_isSome_iff_eq_none, lookup_isSome_iff, hk]
                exact hnodup.1
              have hnone' : gs.lookup k = none := by
                rw [← Option.not_isSome_iff_eq_none, lookup_isSome_iff, hk, ← hkeys]
                exact hnodup.1
              rw [hnone, hnone']
            · have hthere := h k
              rwa [lookup_cons, lookup_cons, if_neg hk, if_neg (hkey ▸ hk)] at hthere
          rw [ih hkeys hnodup.2 hrest, Prod.ext hkey hvalue]

end Keys

/-! ## The same document -/

/-- The same entries, in any order. -/
def SameFields (fs gs : List (String × Json)) : Prop :=
  ∀ key, fs.lookup key = gs.lookup key

/-- The same value, the keys of an object in any order. -/
def SameValue (a b : Option Json) : Prop :=
  a = b ∨ ∃ fs gs, a = some (.obj fs) ∧ b = some (.obj gs) ∧ SameFields fs gs

/-- The same sections, in any order and each in any order. -/
def SameDocument (fs gs : List (String × Json)) : Prop :=
  ∀ key, SameValue (fs.lookup key) (gs.lookup key)

theorem SameValue.refl (a : Option Json) : SameValue a a := .inl rfl

theorem sameValue_obj {fs gs : List (String × Json)} (h : SameFields fs gs) :
    SameValue (some (.obj fs)) (some (.obj gs)) :=
  .inr ⟨fs, gs, rfl, rfl, h⟩

theorem SameValue.sameFields {fs gs : List (String × Json)}
    (h : SameValue (some (.obj fs)) (some (.obj gs))) : SameFields fs gs := by
  rcases h with heq | ⟨_, _, hfs, hgs, hsame⟩
  · cases heq
    exact fun _ => rfl
  · cases hfs
    cases hgs
    exact hsame

/-! ## Dictionaries -/

mutual

/-- Every dictionary in the value has distinct keys. -/
def WellFormed : Json → Prop
  | .arr items => WellFormedItems items
  | .obj fields => (fields.map Prod.fst).Nodup ∧ WellFormedFields fields
  | _ => True

def WellFormedItems : List Json → Prop
  | [] => True
  | j :: rest => j.WellFormed ∧ WellFormedItems rest

def WellFormedFields : List (String × Json) → Prop
  | [] => True
  | (_, j) :: rest => j.WellFormed ∧ WellFormedFields rest

end

mutual

instance decidableWellFormed : (j : Json) → Decidable j.WellFormed
  | .arr items =>
      have := decidableWellFormedItems items
      decidable_of_iff (WellFormedItems items) (by rw [WellFormed])
  | .obj fields =>
      have := decidableWellFormedFields fields
      decidable_of_iff ((fields.map Prod.fst).Nodup ∧ WellFormedFields fields) (by rw [WellFormed])
  | .null | .bool _ | .num _ | .str _ => isTrue (by simp [WellFormed])

instance decidableWellFormedItems : (items : List Json) → Decidable (WellFormedItems items)
  | [] => isTrue (by simp [WellFormedItems])
  | j :: rest =>
      have := decidableWellFormed j
      have := decidableWellFormedItems rest
      decidable_of_iff (j.WellFormed ∧ WellFormedItems rest) (by rw [WellFormedItems])

instance decidableWellFormedFields :
    (fields : List (String × Json)) → Decidable (WellFormedFields fields)
  | [] => isTrue (by simp [WellFormedFields])
  | (_, j) :: rest =>
      have := decidableWellFormed j
      have := decidableWellFormedFields rest
      decidable_of_iff (j.WellFormed ∧ WellFormedFields rest) (by rw [WellFormedFields])

end

/-- A dictionary, and those inside it. -/
structure Document where
  fields : List (String × Json)
  wellFormed : (Json.obj fields).WellFormed

theorem WellFormedFields.of_mem {fields : List (String × Json)} (h : WellFormedFields fields)
    {f : String × Json} (hf : f ∈ fields) : f.2.WellFormed := by
  induction fields with
  | nil => cases hf
  | cons g rest ih =>
      rw [WellFormedFields] at h
      rcases List.mem_cons.mp hf with rfl | hrest
      · exact h.1
      · exact ih h.2 hrest

theorem WellFormed.keys {fields : List (String × Json)} (h : (Json.obj fields).WellFormed) :
    (fields.map Prod.fst).Nodup := by
  rw [WellFormed] at h
  exact h.1

theorem WellFormed.of_lookup {fields : List (String × Json)} (h : (Json.obj fields).WellFormed)
    {k : String} {v : Json} (hv : fields.lookup k = some v) : v.WellFormed := by
  rw [WellFormed] at h
  exact h.2.of_mem (mem_of_lookup hv)

end Json
